import Hgsdk.SpiNor.Model.Flash
/-!
# The chip at the other end

The SPI device the driver talks to, with a serial flash behind it. This
is the environment, not the program: the controller delivers every byte
and honours every change of the wires, and the chip follows the rules of
its data sheet as far as the `Board` asks for them.

A *frame* is what happens while the chip is selected. The first byte of
it is the instruction; the chip acts when it is deselected. Time passes
from frame to frame: a command that alters the flash keeps the chip busy
for as many frames as the board says.
-/

namespace Hgsdk

namespace SpiNor

/-- **A flash on its board**: how it is configured, and which rules its
chip follows. -/
structure Board where
  clk : BitVec 32
  clkMode : BitVec 32
  wireMode : BitVec 32
  cs : BitVec 32
  size : BitVec 32
  sectorSize : BitVec 32
  pageSize : BitVec 32
  pageSize_pos : 0 < pageSize.toNat
  /-- The size of what `BLOCK_ERASE` clears. -/
  blockSize : ℕ
  /-- Altering the flash needs the write-enable latch. -/
  needsWel : Bool
  /-- While busy, the chip takes nothing but `READ_STATUS_REG`. -/
  busyIgnores : Bool
  /-- The instruction must come on the wires of the chip's mode. -/
  wireSensitive : Bool
  /-- How many frames the `n`-th alteration outlasts. -/
  duration : ℕ → ℕ
  jedecId : List Byte
  /-- What is read from a chip that does not answer. -/
  floating : Byte
  /-- What `spi_open` returns. -/
  openRet : CInt

/-- The state of the chip. `busy` counts the frames it stays busy for,
`alterations` those it has begun. -/
structure Chip where
  mem : ℕ → Byte
  qpi : Bool
  wel : Bool
  busy : ℕ
  alterations : ℕ

/-- An instruction byte sent: the wires it came on and whether the chip
was in QPI mode. -/
structure Sent where
  instruction : Byte
  wire : WireMode
  qpi : Bool
  deriving DecidableEq, Repr

/-- The wires a chip expects an instruction on. -/
def expectedWire (qpi : Bool) : WireMode := if qpi then .quad else .normal

/-- The instruction came on the wires the chip expected. -/
def Sent.Agrees (e : Sent) : Prop := e.wire = expectedWire e.qpi

instance (e : Sent) : Decidable e.Agrees := inferInstanceAs (Decidable (_ = _))

/-- The bytes of a frame so far and the wires its instruction came on. -/
structure Frame where
  bytes : List Byte
  wire : WireMode

/-- The controller, the chip and the record of the instructions sent. -/
structure World where
  chip : Chip
  wire : WireMode
  frame : Option Frame
  log : List Sent

/-- The 24-bit address behind an instruction. -/
def addressOf : List Byte → ℕ
  | hi :: mid :: lo :: _ => hi.toNat * 65536 + mid.toNat * 256 + lo.toNat
  | _ => 0

/-- **Page program.** Bits are only cleared, and the address wraps inside
the page it starts in. -/
def programPage (pageSize : ℕ) (base : ℕ) : (off : ℕ) → List Byte → (ℕ → Byte) → ℕ → Byte
  | _, [], mem => mem
  | off, b :: bs, mem =>
    let x := base + off % pageSize
    programPage pageSize base (off + 1) bs (Function.update mem x (mem x &&& b))

/-- The memory with the unit of `n` bytes around `a` erased. -/
def erase (n a : ℕ) (mem : ℕ → Byte) : ℕ → Byte := fun x =>
  if x / n = a / n then 0xFF else mem x

variable (B : Board)

/-- What an altering instruction does to the memory; `none` for the
instructions that alter nothing. -/
def alterMem (instruction : Byte) (args : List Byte) (mem : ℕ → Byte) : Option (ℕ → Byte) :=
  let a := addressOf args
  let page := B.pageSize.toNat
  if instruction = 0x02 ∨ instruction = 0x32 then
    some (programPage page (a / page * page) (a % page) (args.drop 3) mem)
  else if instruction = 0x20 then some (erase B.sectorSize.toNat a mem)
  else if instruction = 0xD8 then some (erase B.blockSize a mem)
  else if instruction = 0xC7 then some fun _ => 0xFF
  else if instruction = 0x01 then some mem
  else none

namespace Chip

variable (c : Chip)

/-- One frame later: a finished alteration clears the latch too. -/
def tick : Chip :=
  { c with busy := c.busy - 1, wel := if c.busy = 1 then false else c.wel }

/-- The chip takes this instruction, sent on these wires. -/
def Takes (instruction : Byte) (wire : WireMode) : Prop :=
  (B.wireSensitive = true → wire = expectedWire c.qpi) ∧
    (B.busyIgnores = true → 0 < c.busy → instruction = 0x05)

instance (instruction : Byte) (wire : WireMode) : Decidable (c.Takes B instruction wire) :=
  inferInstanceAs (Decidable (_ ∧ _))

/-- The effect of a whole command the chip has taken. -/
def exec (instruction : Byte) (args : List Byte) : Chip :=
  if instruction = 0x06 then { c with wel := true }
  else if instruction = 0x04 then { c with wel := false }
  else if instruction = 0x38 then { c with qpi := true }
  else if instruction = 0xFF then { c with qpi := false }
  else match alterMem B instruction args c.mem with
    | none => c
    | some mem =>
      if B.needsWel ∧ ¬ c.wel then c
      else { c with
        mem
        busy := B.duration c.alterations + 1
        alterations := c.alterations + 1 }

/-- `SPI_NOR_STATUS_BUSY` and `SPI_NOR_STATUS_WEL`. -/
def status : Byte := (if 0 < c.busy then 0x01 else 0) ||| (if c.wel then 0x02 else 0)

/-- What the chip puts on the line after a command it has taken. -/
def answer (instruction : Byte) (args : List Byte) (n : ℕ) : List Byte :=
  if instruction = 0x05 then List.replicate n c.status
  else if instruction = 0x9F then B.jedecId.take n
  else if instruction ∈ [0x03, 0x3B, 0x6B, 0xEB] then
    (List.range n).map fun i => c.mem (addressOf args + i)
  else List.replicate n B.floating

end Chip

namespace World

variable (w : World)

/-- The controller put on other wires. -/
def onWires (wire : WireMode) : World := { w with wire }

def select : World := { w with chip := w.chip.tick, frame := some ⟨[], w.wire⟩ }

/-- Bytes clocked in. The first of a frame is logged as its instruction. -/
def receive (bs : List Byte) : World :=
  match w.frame, bs with
  | none, _ => w
  | some _, [] => w
  | some ⟨[], _⟩, b :: bs =>
    { w with frame := some ⟨b :: bs, w.wire⟩, log := w.log ++ [⟨b, w.wire, w.chip.qpi⟩] }
  | some ⟨r :: rs, wire⟩, b :: bs => { w with frame := some ⟨r :: rs ++ b :: bs, wire⟩ }

/-- Bytes clocked out. -/
def respond (n : ℕ) : List Byte :=
  match w.frame with
  | some ⟨i :: args, wire⟩ =>
    if w.chip.Takes B i wire then w.chip.answer B i args n else List.replicate n B.floating
  | _ => List.replicate n B.floating

def deselect : World :=
  match w.frame with
  | some ⟨i :: args, wire⟩ =>
    { w with chip := if w.chip.Takes B i wire then w.chip.exec B i args else w.chip
             frame := none }
  | _ => { w with frame := none }

end World

/-- The controller with the chip on line `cs`. -/
def spiDevice : SpiDevice World where
  openDev _ _ _ := return B.openRet
  close := return ⟨⟩
  setWire wire := modify fun w => w.onWires wire
  read n := do return (← get).respond B n.toNat
  write bs := modify fun w => w.receive bs
  setCs cs value := modify fun w =>
    if cs = B.cs then if value then w.deselect B else w.select else w

/-- A lock nobody else wants. -/
def freeLock : OsMutex World where
  init := return ⟨⟩
  lock := return ⟨⟩
  unlock := return ⟨⟩

/-- The driver's record of the flash on this board, in one of the modes. -/
def Board.flash (mode : Mode) : Flash World where
  spidev := spiDevice B
  lock := freeLock
  clk := B.clk
  clkMode := B.clkMode
  wireMode := B.wireMode
  cs := B.cs
  size := B.size
  sectorSize := B.sectorSize
  pageSize := B.pageSize
  mode := mode
  pageSize_pos := B.pageSize_pos

/-- A board with pages of 4 bytes. Its chip minds the wires; a strict one
needs the latch and ignores instructions while busy. -/
def smallBoard (strict : Bool) : Board where
  clk := 0
  clkMode := 0
  wireMode := 1
  cs := 0
  size := 64
  sectorSize := 16
  pageSize := 4
  pageSize_pos := by decide
  blockSize := 32
  needsWel := strict
  busyIgnores := strict
  wireSensitive := true
  duration := fun n => n
  jedecId := [0xEF, 0x40, 0x18]
  floating := 0xFF
  openRet := 0

/-- An erased chip, at rest in SPI mode. -/
def erasedWorld : World where
  chip := { mem := fun _ => 0xFF, qpi := false, wel := false, busy := 0, alterations := 0 }
  wire := .normal
  frame := none
  log := []

end SpiNor

end Hgsdk

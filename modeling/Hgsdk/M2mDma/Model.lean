import Hgsdk.Common.Copies
import Hgsdk.Common.Machine
import Hgsdk.Typesdef
import Mathlib.Data.Fintype.Basic
/-!
# Copies by the memory-to-memory DMA

`hw_memcpy` and `hw_memset` of `lib/common/common.c` and the driver
`driver/dma/hg_m2m_dma.c`. A long copy goes to one of the two DMA channels
if there is a free one, and to the processor if there is none; a short copy
goes to the processor.

Any number of threads, tasks or interrupts, are in calls of theirs, and
every statement is a step; the processor's own copy takes a step for each
byte. What runs with interrupts disabled is one step. A channel latches its
registers when `DTE` is set, does a byte at a time and then clears `DTE`.
-/

namespace Hgsdk

namespace M2mDma

open Copies

/-! ### The hardware -/

/-- The channels, `HG_M2M_DMA_NUM` of them. -/
abbrev Chan := Fin 2

/-- `HG_M2M_DMA_CON_DTE`. -/
def dte : BitVec 32 := 1

/-- `HG_M2M_DMA_CON_DTM`. -/
def dtm : BitVec 32 := 2

/-- What a channel is doing. -/
structure Xfer where
  op : Op
  n : ℕ
  done : ℕ
  deriving DecidableEq

/-- `struct mem_dma_ch`, and what the channel has latched. -/
structure MemDmaCh where
  con : BitVec 32
  data : BitVec 32
  sadr : BitVec 32
  tadr : BitVec 32
  dlen : BitVec 32
  xfer : Option Xfer

/-- A store to a register of a channel. -/
inductive Store where
  | con (v : BitVec 32)
  | data (v : BitVec 32)
  | sadr (v : BitVec 32)
  | tadr (v : BitVec 32)
  | dlen (v : BitVec 32)
  deriving DecidableEq

namespace MemDmaCh

/-- `DTE` is set. -/
def Busy (r : MemDmaCh) : Prop := r.con &&& dte ≠ 0

instance (r : MemDmaCh) : Decidable r.Busy := inferInstanceAs (Decidable (_ ≠ _))

/-- The transfer that the registers describe. -/
def latch (r : MemDmaCh) : Xfer where
  op := if r.con &&& dtm ≠ 0 then .fill r.tadr (r.data.setWidth 8) else .copy r.tadr r.sadr
  n := r.dlen.toNat + 1
  done := 0

def write (r : MemDmaCh) : Store → MemDmaCh
  | .con v =>
    { r with con := v, xfer := if v &&& dte ≠ 0 then some { r with con := v }.latch else none }
  | .data v => { r with data := v }
  | .sadr v => { r with sadr := v }
  | .tadr v => { r with tadr := v }
  | .dlen v => { r with dlen := v }

/-- The channel has done all bytes. -/
def stop (r : MemDmaCh) : MemDmaCh := { r with con := r.con &&& ~~~dte, xfer := none }

end MemDmaCh

/-! ### The calls -/

/-- Where a thread is. -/
inductive Pc where
  | idle
  /-- At the beginning of `hw_memcpy` or `hw_memset`. -/
  | hw (op : Op) (n : BitVec 32)
  /-- At the beginning of `mem_dma_memcpy` or `mem_dma_memset`. -/
  | dma (op : Op) (n : BitVec 32)
  /-- At `mem_dma_get_free_ch`. -/
  | claim (op : Op) (n : BitVec 32)
  /-- In `os_memcpy` or `os_memset`, with `i` bytes done. -/
  | cpu (op : Op) (n : BitVec 32) (i : ℕ)
  /-- With a channel, before the stores that are left. With none left, in
  the loop that waits for `DTE`. -/
  | program (op : Op) (n : BitVec 32) (ch : Chan) (left : List Store)
  /-- At `mem_dma_free_ch`. -/
  | free (op : Op) (n : BitVec 32) (ch : Chan)
  deriving DecidableEq

/-- One of the pointers is null. -/
def Null : Op → Prop
  | .copy dest src => dest = 0 ∨ src = 0
  | .fill dest _ => dest = 0

instance : ∀ op, Decidable (Null op)
  | .copy _ _ => inferInstanceAs (Decidable (_ ∨ _))
  | .fill _ _ => inferInstanceAs (Decidable (_ = _))

/-- `hw_memcpy` and `hw_memset`: which way a call goes. -/
def hwCall (longer : BitVec 32) (m2mdma : Bool) (op : Op) (n : BitVec 32) : Pc :=
  if ¬ Null op then if m2mdma ∧ longer < n then .dma op n else .cpu op n 0
  else .idle

/-- `hw_memcpy`. -/
def hwMemcpy (m2mdma : Bool) (dest src size : BitVec 32) : Pc :=
  hwCall 45 m2mdma (.copy dest src) size

/-- `hw_memset`. -/
def hwMemset (m2mdma : Bool) (dest : BitVec 32) (val : Byte) (n : BitVec 32) : Pc :=
  hwCall 12 m2mdma (.fill dest val) n

/-- The beginning of `mem_dma_memcpy` and `mem_dma_memset`. -/
def memDma (op : Op) (count : BitVec 32) : Pc :=
  if count = 0 ∨ Null op then .idle else .claim op count

/-- The stores of `mem_dma_memcpy` and of `mem_dma_memset`. -/
def stores : Op → (count : BitVec 32) → List Store
  | .copy dest src, count => [.con 0, .sadr src, .tadr dest, .dlen (count - 1), .con dte]
  | .fill addr val, count =>
    [.con 0, .tadr addr, .data (val.setWidth 32), .dlen (count - 1), .con (dtm ||| dte)]

/-- The search of `mem_dma_get_free_ch`. -/
def memDmaGetFreeCh (busyFlag : BitVec 32) : Option Chan :=
  (List.finRange 2).find? fun ch => !busyFlag.getLsbD ch

/-- The memory, the pointer `m2mdma` (null or not), `busy_flag`, the
channels and the threads. -/
structure Sys (T : Type) where
  mem : Memory
  m2mdma : Bool
  busyFlag : BitVec 32
  ch : Chan → MemDmaCh
  pc : T → Pc

variable {T : Type}

/-- At the start no channel is running. -/
def Sys.start (mem : Memory) (ch : Chan → MemDmaCh) : Sys T where
  mem := mem
  m2mdma := false
  busyFlag := 0
  ch := fun c => { ch c with con := 0, xfer := none }
  pc := fun _ => .idle

variable [DecidableEq T]

namespace Sys

def goto (s : Sys T) (t : T) (pc : Pc) : Sys T := { s with pc := Function.update s.pc t pc }

omit [DecidableEq T] in
/-- The registers of a channel. -/
def setCh (s : Sys T) (c : Chan) (r : MemDmaCh) : Sys T :=
  { s with ch := Function.update s.ch c r }

/-- The next step of `t`. -/
def move (s : Sys T) (t : T) : Option (Sys T) :=
  match s.pc t with
  | .idle => none
  | .hw (.copy dest src) size => some (s.goto t (hwMemcpy s.m2mdma dest src size))
  | .hw (.fill dest val) n => some (s.goto t (hwMemset s.m2mdma dest val n))
  | .dma op n => some (s.goto t (memDma op n))
  | .claim op n => match memDmaGetFreeCh s.busyFlag with
    | none => some (s.goto t (.cpu op n 0))
    | some c => some ({ s with busyFlag := s.busyFlag ||| BitVec.twoPow 32 c }.goto t
        (.program op n c (stores op n)))
  | .cpu op n i =>
    if i < n.toNat then some ({ s with mem := op.byte s.mem i }.goto t (.cpu op n (i + 1)))
    else some (s.goto t .idle)
  | .program op n c (w :: left) =>
    some ((s.setCh c ((s.ch c).write w)).goto t (.program op n c left))
  | .program op n c [] => if (s.ch c).Busy then some s else some (s.goto t (.free op n c))
  | .free _ _ c => some ({ s with busyFlag := s.busyFlag &&& ~~~BitVec.twoPow 32 c }.goto t .idle)

omit [DecidableEq T] in
/-- The next step of a channel that is running. -/
def engine (s : Sys T) (c : Chan) : Option (Sys T) :=
  match (s.ch c).xfer with
  | none => none
  | some x =>
    if x.done < x.n then
      some ({ s with mem := x.op.byte s.mem x.done }.setCh c
        { s.ch c with xfer := some { x with done := x.done + 1 } })
    else some (s.setCh c (s.ch c).stop)

end Sys

/-- What happens next. -/
inductive Act (T : Type) where
  /-- `hw_memcpy` or `hw_memset` is called. -/
  | call (t : T) (op : Op) (n : BitVec 32)
  | step (t : T)
  | engine (c : Chan)
  /-- Other code stores a byte. -/
  | write (x : BitVec 32) (v : Byte)
  /-- `m2mdma` is set. -/
  | attach

/-- **The system**: calls, their statements, the channels and all other
code, in any order. -/
def dma : Machine (Sys T) (Act T) where
  step s
    | .call t op n => if s.pc t = .idle then some (s.goto t (.hw op n)) else none
    | .step t => s.move t
    | .engine c => s.engine c
    | .write x v => some { s with mem := Function.update s.mem x v }
    | .attach => some { s with m2mdma := true }

omit [DecidableEq T] in
/-- **What it is for**: the memory in which each call is `memcpy` or
`memset`, done when it is called. A call with a null pointer does nothing. -/
def plain : Machine Memory (Act T) where
  step m
    | .call _ op n => some (if Null op then m else op.apply n.toNat m)
    | .step _ => some m
    | .engine _ => some m
    | .write x v => some (Function.update m x v)
    | .attach => some m

/-! ### Calls in progress -/

/-- What a thread was called for. -/
def Pc.call : Pc → Option (Op × BitVec 32)
  | idle => none
  | hw op n => some (op, n)
  | dma op n => some (op, n)
  | claim op n => some (op, n)
  | cpu op n _ => some (op, n)
  | program op n _ _ => some (op, n)
  | free op n _ => some (op, n)

/-- The channel a thread has. -/
def Pc.chan : Pc → Option Chan
  | program _ _ ch _ => some ch
  | free _ _ ch => some ch
  | _ => none

omit [DecidableEq T] in
/-- **Calls are on regions of their own**: a call does not read what it
writes, nor what a call in progress writes, nor does it write what that one
reads or writes; and other code stores to no region of a call in progress. -/
def Disjoint (s : Sys T) : Act T → Prop
  | .call _ op n => ¬ Null op → op.Sound n.toNat ∧
      ∀ t op' n', (s.pc t).call = some (op', n') → ¬ Null op' → op.Apart n.toNat op' n'.toNat
  | .write x _ => ∀ t op n, (s.pc t).call = some (op, n) → ¬ Null op →
      ¬ op.Writes n.toNat x ∧ ¬ op.Reads n.toNat x
  | _ => True

end M2mDma

end Hgsdk

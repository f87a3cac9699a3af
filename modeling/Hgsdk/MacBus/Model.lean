import Hgsdk.Common.Machine
import Hgsdk.Common.Overlay
import Hgsdk.Typesdef
/-!
# The MAC buses, receiving

`lib/mac_bus`: what the USB, the GMAC, the NDEV and the SDIO bus do with a
frame that comes in. Each passes it up in a buffer from `alloc_tx_skb`, or
counts an error. USB and SDIO have a buffer of their own as well, from
which a command may still be passed up in a buffer from `alloc_skb`.

The `k`-th request for a buffer is granted where `grants k` says so, and
buffers are known by their requests. What a bus calls is logged, newest
first. `ASSERT` is left out: receiving goes on where one fails.
-/

namespace Hgsdk

namespace MacBus

/-! ### Buffers -/

/-- `struct sk_buff`: which one it is, and where `end` and `data` are,
counted from `head`. -/
structure Skb where
  id : ℕ
  size : ℕ
  data : ℕ
  deriving DecidableEq, Repr

/-- The bytes behind `data`. -/
def Skb.room (skb : Skb) : ℕ := skb.size - skb.data

/-- `skb_reserve`. -/
def Skb.reserve (skb : Skb) (l : ℕ) : Skb := { skb with data := skb.data + l }

/-- What a bus does. -/
inductive Event where
  /-- `bus.recv`. -/
  | recv (skb : Skb) (len : CInt)
  /-- `bus.rxerr++`. -/
  | rxerr
  /-- Bytes are copied to `skb->data`. -/
  | copy (skb : Skb) (bs : List Byte)
  deriving DecidableEq, Repr

/-- The `rxerr` of `struct mac_bus`, how many buffers were asked for, how
many frames came in, and what was done. -/
structure Bus where
  rxerr : BitVec 32
  asked : ℕ
  received : ℕ
  log : List Event

namespace Bus

/-- After `os_zalloc`. -/
def zalloc : Bus := ⟨0, 0, 0, []⟩

def recv (bus : Bus) (skb : Skb) (len : CInt) : Bus := { bus with log := .recv skb len :: bus.log }

/-- `bus.rxerr++`. -/
def err (bus : Bus) : Bus := { bus with rxerr := bus.rxerr + 1, log := .rxerr :: bus.log }

def copy (bus : Bus) (skb : Skb) (bs : List Byte) : Bus :=
  { bus with log := .copy skb bs :: bus.log }

/-- A frame comes in. -/
def arrive (bus : Bus) : Bus := { bus with received := bus.received + 1 }

variable (grants : ℕ → Bool)

/-- A request for `n` bytes. -/
def alloc (bus : Bus) (n : BitVec 32) : Option Skb × Bus :=
  (if grants bus.asked then some ⟨bus.asked, n.toNat, 0⟩ else none,
    { bus with asked := bus.asked + 1 })

def allocTxSkb (bus : Bus) (n : BitVec 32) : Option Skb × Bus := bus.alloc grants n

def allocSkb (bus : Bus) (n : BitVec 32) : Option Skb × Bus := bus.alloc grants n

end Bus

variable (grants : ℕ → Bool)

/-! ### GMAC and NDEV -/

/-- `gmac_bus_input_cb`. -/
def gmacBusInputCb (bus : Bus) (data : List Byte) (size : BitVec 32) : Bus :=
  let (skb, bus) := bus.allocTxSkb grants (size + 256 + 32)
  match skb with
  | some skb =>
    let skb := skb.reserve 256
    (bus.copy skb data).recv skb size
  | none => bus.err

/-- `struct mac_bus_ndev`; `recv` may be null. -/
structure Ndev where
  bus : Bus
  recvSet : Bool

/-- `ndev_bus_send_data`: a frame that gets no buffer is not counted. -/
def ndevBusSendData (s : Ndev) (data : List Byte) (size : BitVec 32) : Ndev :=
  if s.recvSet then
    let (skb, bus) := s.bus.allocTxSkb grants (size + 256 + 32)
    match skb with
    | some skb =>
      let skb := skb.reserve 256
      { s with bus := (bus.copy skb data).recv skb size }
    | none => { s with bus }
  else s

/-- After `mac_bus_ndev_attach`, which asks for a callback. -/
def Ndev.attach : Ndev := ⟨.zalloc, true⟩

/-- **Frames on the GMAC bus.** A frame has a `uint32` for its size. -/
def gmac : Machine Bus (List Byte) where
  step bus data :=
    if data.length < 2 ^ 32 then
      some (gmacBusInputCb grants bus.arrive data (BitVec.ofNat 32 data.length))
    else none

/-- **Frames on the NDEV bus.** -/
def ndev : Machine Ndev (List Byte) where
  step s data :=
    if data.length < 2 ^ 32 then
      some (ndevBusSendData grants { s with bus := s.bus.arrive } data
        (BitVec.ofNat 32 data.length))
    else none

/-! ### Commands -/

/-- `HGIC_HDR_TX_MAGIC`. -/
def hgicHdrTxMagic : BitVec 16 := 0x1A2B

/-- `HGIC_HDR_TYPE_CMD`. -/
def hgicHdrTypeCmd : Byte := 3

/-- `HGIC_HDR_TYPE_CMD2`. -/
def hgicHdrTypeCmd2 : Byte := 13

/-- A `struct hgic_hdr` of type `CMD` or `CMD2`; the magic number is stored
low byte first. -/
def IsCmd (buff : ℕ → Byte) : Prop :=
  buff 1 ++ buff 0 = hgicHdrTxMagic ∧ (buff 2 = hgicHdrTypeCmd ∨ buff 2 = hgicHdrTypeCmd2)

instance (buff : ℕ → Byte) : Decidable (IsCmd buff) := inferInstanceAs (Decidable (_ ∧ _))

/-- The first `n` bytes. -/
def bytes (buff : ℕ → Byte) (n : ℕ) : List Byte := (List.range n).map buff

/-- Bytes are stored from the beginning of a buffer on. -/
def store (buff : ℕ → Byte) (bs : List Byte) : ℕ → Byte := overlay (fun _ b => b) buff 0 bs

/-- `os_memset(buff, 0, 8)`. -/
def clearHdr (buff : ℕ → Byte) : ℕ → Byte := store buff (List.replicate 8 0)

/-! ### USB -/

/-- `struct mac_bus_usb`, as far as receiving goes. -/
structure Usb where
  bus : Bus
  ready : Bool
  rxbuff : ℕ → Byte

/-- The interrupts of `usb_bus_irq`. A frame is in `rxbuff` when its
interrupt comes. -/
inductive UsbIrq where
  | reset
  | suspend
  | resume
  | sof
  | ctl
  | ep1Rx (frame : List Byte)
  | ep1Tx
  | other

/-- `USB_BUS_RXBUFF_SIZE`. -/
def usbBusRxbuffSize : ℕ := 4096

/-- A frame of `param2` bytes in `rxbuff`. -/
def usbBusRecv (bus : Bus) (rxbuff : ℕ → Byte) (param2 : BitVec 32) : Bus :=
  if 1600 < param2 then bus.err
  else
    let (skb, bus) := bus.allocTxSkb grants (param2 + 256 + 32)
    match skb with
    | some skb =>
      let skb := skb.reserve 256
      (bus.copy skb (bytes rxbuff param2.toNat)).recv skb param2
    | none =>
      if IsCmd rxbuff then
        let (skb, bus) := bus.allocSkb grants (param2 + 4)
        match skb with
        | some skb => (bus.copy skb (bytes rxbuff param2.toNat)).recv skb param2
        | none => bus.err
      else bus.err

/-- **Interrupts on the USB bus.** Only a frame touches what is received;
`EP1_TX` gives `tx_lock` back. -/
def usb : Machine Usb UsbIrq where
  step s
    | .ep1Rx frame =>
      if frame.length ≤ usbBusRxbuffSize then
        let rxbuff := store s.rxbuff frame
        some
          { bus := usbBusRecv grants s.bus.arrive rxbuff (BitVec.ofNat 32 frame.length)
            ready := true
            rxbuff := clearHdr rxbuff }
      else none
    | .reset | .suspend | .resume | .sof | .ctl | .ep1Tx | .other => some s

/-- After `mac_bus_usb_attach`. -/
def Usb.attach : Usb := ⟨.zalloc, false, fun _ => 0⟩

/-! ### SDIO -/

/-- The buffer a `sdio_slave_read` was given. -/
inductive Target where
  | skb (skb : Skb)
  /-- `rx_buff`, of 2048 bytes. -/
  | rxBuff
  deriving DecidableEq, Repr

def Target.room : Target → ℕ
  | .skb buf => buf.room
  | .rxBuff => 2048

/-- The last `sdio_slave_read`. -/
structure Armed where
  target : Target
  len : ℕ
  deriving DecidableEq, Repr

/-- `struct mac_bus_sdio` as far as receiving goes, and what is armed. -/
structure Sdio where
  bus : Bus
  rxSkb : Option Skb
  ready : Bool
  rxBuff : ℕ → Byte
  armed : Armed

/-- `DATA_AREA_SIZE`. -/
def dataAreaSize : ℕ := 1700

namespace Sdio

/-- `rx_skb`, if there is one, or else `rx_buff`. -/
def slaveRead (rxSkb : Option Skb) : Armed :=
  match rxSkb with
  | some skb => ⟨.skb skb, dataAreaSize⟩
  | none => ⟨.rxBuff, 2048⟩

/-- A buffer for the next frame, with the headroom reserved. -/
def allocRx (bus : Bus) : Option Skb × Bus :=
  let (skb, bus) := bus.allocTxSkb grants 1900
  (skb.map (·.reserve 256), bus)

/-- A command in `rx_buff`. -/
def command (bus : Bus) (rxBuff : ℕ → Byte) (param3 : BitVec 32) : Bus :=
  let (nskb, bus) := bus.allocTxSkb grants 1900
  let (nskb, bus) :=
    match nskb with
    | some skb => (some skb, bus)
    | none => bus.allocSkb grants (param3 + 4)
  match nskb with
  | some skb => (bus.copy skb (bytes rxBuff param3.toNat)).recv skb param3
  | none => bus

/-- `SDIO_SLAVE_IRQ_RX`, up to the new buffer. -/
def take (s : Sdio) (param3 : BitVec 32) : Sdio :=
  match s.rxSkb with
  | some skb => { s with bus := s.bus.recv skb param3 }
  | none =>
    if IsCmd s.rxBuff then
      { s with bus := command grants s.bus s.rxBuff param3, rxBuff := clearHdr s.rxBuff }
    else s

/-- `SDIO_SLAVE_IRQ_RX`. -/
def irqRx (s : Sdio) (param3 : BitVec 32) : Sdio :=
  let s := s.take grants param3
  let (rxSkb, bus) := allocRx grants s.bus
  { s with
    bus := if rxSkb.isSome then bus else bus.err
    rxSkb
    armed := slaveRead rxSkb
    ready := true }

/-- `SDIO_SLAVE_IRQ_RESET`. -/
def irqReset (s : Sdio) : Sdio :=
  let (rxSkb, bus) :=
    match s.rxSkb with
    | some skb => (some skb, s.bus)
    | none => allocRx grants s.bus
  { s with bus, rxSkb, armed := slaveRead rxSkb }

/-- A frame is stored into what is armed. -/
def fill (s : Sdio) (frame : List Byte) : Sdio :=
  match s.armed.target with
  | .skb _ => s
  | .rxBuff => { s with rxBuff := store s.rxBuff frame }

/-- A frame comes in. -/
def arrive (s : Sdio) (frame : List Byte) : Sdio :=
  { s.fill frame with bus := s.bus.arrive }

/-- After `mac_bus_sdio_attach`, if it gets a buffer. -/
def attach : Option Sdio :=
  let (rxSkb, bus) := allocRx grants .zalloc
  rxSkb.map fun skb => ⟨bus, some skb, false, fun _ => 0, slaveRead (some skb)⟩

end Sdio

/-- The interrupts of `sdio_bus_irq`. -/
inductive SdioIrq where
  | rx (frame : List Byte)
  | reset
  | other

/-- **Interrupts on the SDIO bus.** A frame is at most as long as what is
armed. -/
def sdio : Machine Sdio SdioIrq where
  step s
    | .rx frame =>
      if frame.length ≤ s.armed.len then
        some ((s.arrive frame).irqRx grants (BitVec.ofNat 32 frame.length))
      else none
    | .reset => some (s.irqReset grants)
    | .other => some s

end MacBus

end Hgsdk

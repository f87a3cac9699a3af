import Hgsdk.Common.Machine
import Hgsdk.Dmac.Engine
/-!
# The serial drivers, with and without DMA

`hgspi_dw_write`, `hgspi_dw_read` and `hguart_puts` for one device: each
either moves its bytes one by one or hands them to the DMA controller and
waits for its interrupt. A wait that is never over leads nowhere.

The hardware is the environment. What is written to the data register
goes out in order; polling for room or for the end of a frame always ends.
In receive-only mode a write clocks a byte in and sends nothing of
meaning. A channel of the DMA controller moves its elements in order, and
raises its interrupt when it has moved them all.
-/

namespace Hgsdk

namespace Serial

open Dmac

/-- The handlers the drivers pass: `hgspi_dma_tx_irq_hdl`,
`hgspi_dma_rx_irq_hdl` and `hguart_dma_tx_irq_hdl`. -/
inductive Hdl where
  | spiTx
  | spiRx
  | uartTx
  deriving DecidableEq, Repr

section Requests

variable {H : Type} (reg buf size irqData : BitVec 32) (hdl : H)

/-- The request that sends a buffer: bytes, to the data register. -/
def txData : DmaXferData H := ⟨reg, buf, 0, size, irqData, some hdl⟩

/-- The request that fills a buffer: bytes, from the data register. -/
def rxData : DmaXferData H := ⟨buf, reg, 0, size, irqData, some hdl⟩

end Requests

/-- The channel that `dma_xfer` returned, if it did return one. -/
def chanOf (ret : CInt) : Option Chan := if h : ret.toNat < 4 then some ⟨ret.toNat, h⟩ else none

/-- The bytes of element `k` of a transfer from memory. -/
def element (mem : BitVec 32 → Byte) (regs : ChRegs) (k : ℕ) : List Byte :=
  (List.range regs.width).map fun j => mem (regs.srcAddr k + BitVec.ofNat 32 j)

/-- What a transfer writes to the register `reg`, in order. -/
def bytesTo (mem : BitVec 32 → Byte) (reg : BitVec 32) (regs : ChRegs) : List Byte :=
  ((List.range regs.blockTs).filter fun k => regs.dstAddr k = reg).flatMap (element mem regs)

/-! ### UART -/

/-- `struct hguart`, the memory and the line. -/
structure Uart where
  mem : BitVec 32 → Byte
  /-- `&hw->THR`. -/
  thr : BitVec 32
  sent : List Byte
  /-- May be null. -/
  dma : Option (HgdmaDw Hdl)
  /-- The address of the device itself. -/
  self : BitVec 32
  txDmaSema : ℕ

namespace Uart

/-- `hguart_putc`. -/
def hguartPutc (u : Uart) (b : Byte) : Uart := { u with sent := u.sent ++ [b] }

/-- The loop of `hguart_puts` from `i` on. -/
def putLoop (buf : BitVec 32) : (n i : ℕ) → Uart → Uart
  | 0, _, u => u
  | n + 1, i, u => putLoop buf n (i + 1) (u.hguartPutc (u.mem (buf + BitVec.ofNat 32 i)))

/-- The channel sends its block, and its interrupt calls the handler. -/
def serve (u : Uart) (dma : HgdmaDw Hdl) (ch : Chan) : Uart :=
  let u := { u with sent := u.sent ++ bytesTo u.mem u.thr (dma.ch ch) }
  let dma := (dma.clear .done ch).mark .done ch
  match dma.irqHdl ch with
  | some .uartTx => { u with dma := some (dma.dwDmacStop ch), txDmaSema := u.txDmaSema + 1 }
  | _ => { u with dma := some dma }

/-- `os_sema_down`, for ever. -/
def txDown (u : Uart) : Option Uart :=
  if u.txDmaSema = 0 then none else some { u with txDmaSema := u.txDmaSema - 1 }

/-- `hguart_puts`. What `dma_xfer` returns is not looked at. -/
def hguartPuts (P : Periphs) (u : Uart) (buf size : BitVec 32) : Option Uart :=
  match u.dma with
  | some dma =>
    let (ret, dma) := dma.dwDmacXfer P (txData u.thr buf size u.self .uartTx)
    let u := match chanOf ret with
      | some ch => u.serve dma ch
      | none => { u with dma := some dma }
    u.txDown
  | none => some (putLoop buf size.toNat 0 u)

end Uart

/-! ### SPI -/

/-- The transfer modes the driver uses. -/
inductive Tmod where
  | transmitReceive
  | transmitOnly
  | receiveOnly
  deriving DecidableEq, Repr

/-- The SPI controller: what the driver sets, and the line. -/
structure Spi where
  /-- `&hw->DATAREG`. -/
  dataReg : BitVec 32
  /-- `SER`: a slave is selected, this is the master. -/
  ser : Bool
  tmod : Tmod
  /-- `DMACR`. -/
  tdmae : Bool
  rdmae : Bool
  rxFifo : List Byte
  sent : List Byte
  /-- How many bytes have been clocked in. -/
  clocked : ℕ

namespace Spi

variable (line : ℕ → Byte)

/-- A byte is clocked in from the line. -/
def clockIn (spi : Spi) : Spi :=
  { spi with rxFifo := spi.rxFifo ++ [line spi.clocked], clocked := spi.clocked + 1 }

/-- A write to `DATAREG`. -/
def putData (spi : Spi) (b : Byte) : Spi :=
  match spi.tmod with
  | .transmitOnly => { spi with sent := spi.sent ++ [b] }
  | .transmitReceive => { spi with sent := spi.sent ++ [b] }.clockIn line
  | .receiveOnly => spi.clockIn line

/-- `hgspi_dw_set_mode`: disabling the controller empties its FIFOs. -/
def hgspiDwSetMode (spi : Spi) (tmod : Tmod) : Spi := { spi with tmod, rxFifo := [] }

/-- `hgspi_dw_poll_rcv_dat`. A slave waits for the other side's clock. -/
def hgspiDwPollRcvDat (spi : Spi) : Option (Byte × Spi) :=
  match spi.rxFifo with
  | b :: rest => some (b, { spi with rxFifo := rest })
  | [] =>
    if spi.ser then none
    else some (line spi.clocked, { spi with clocked := spi.clocked + 1 })

end Spi

/-- `struct hgspi_dw`, the memory, and what has been stored into it. -/
structure Sys where
  mem : BitVec 32 → Byte
  stored : List (BitVec 32 × Byte)
  spi : Spi
  /-- May be null. -/
  dma : Option (HgdmaDw Hdl)
  /-- The address of the device itself. -/
  self : BitVec 32
  txDmaSema : ℕ
  rxDmaSema : ℕ

/-- One of the two channels moves its next element, or the master at the
other end clocks. -/
inductive Beat where
  | tx
  | rx
  | line
  deriving DecidableEq, Repr

namespace Sys

def store (s : Sys) (a : BitVec 32) (b : Byte) : Sys :=
  { s with mem := Function.update s.mem a b, stored := s.stored ++ [(a, b)] }

/-- Bytes stored from `a` on. -/
def storeAll : (a : BitVec 32) → List Byte → Sys → Sys
  | _, [], s => s
  | a, b :: bs, s => storeAll (a + 1) bs (s.store a b)

/-- `dma_xfer`. -/
def dmaXfer (P : Periphs) (s : Sys) (data : DmaXferData Hdl) : CInt × Sys :=
  match s.dma with
  | some dma => ((dma.dwDmacXfer P data).1, { s with dma := some (dma.dwDmacXfer P data).2 })
  | none => (retErr, s)

/-- The registers of a channel that was returned. -/
def regs (s : Sys) (ret : CInt) : Option ChRegs := do
  let dma ← s.dma
  let ch ← chanOf ret
  return dma.ch ch

/-- The completion interrupt of a channel that was returned. -/
def finish (s : Sys) (ret : CInt) : Sys :=
  match s.dma, chanOf ret with
  | some dma, some ch =>
    let dma := (dma.clear .done ch).mark .done ch
    match dma.irqHdl ch with
    | some .spiTx => { s with dma := some (dma.dwDmacStop ch), txDmaSema := s.txDmaSema + 1 }
    | some .spiRx => { s with dma := some (dma.dwDmacStop ch), rxDmaSema := s.rxDmaSema + 1 }
    | _ => { s with dma := some dma }
  | _, _ => s

/-- `os_sema_down`, for ever. -/
def txDown (s : Sys) : Option Sys :=
  if s.txDmaSema = 0 then none else some { s with txDmaSema := s.txDmaSema - 1 }

def rxDown (s : Sys) : Option Sys :=
  if s.rxDmaSema = 0 then none else some { s with rxDmaSema := s.rxDmaSema - 1 }

variable (P : Periphs) (line : ℕ → Byte)

/-- A channel sends its block. -/
def transmit (s : Sys) (ret : CInt) : Sys :=
  match s.regs ret with
  | some regs => { s with spi := (bytesTo s.mem s.spi.dataReg regs).foldl (Spi.putData line) s.spi }
  | none => s

/-- `while (size--) hgspi_dw_poll_send_dat(dev->hw, *p_data++)`. -/
def sendLoop : (n : ℕ) → (p : BitVec 32) → Sys → Sys
  | 0, _, s => s
  | n + 1, p, s => sendLoop n (p + 1) { s with spi := s.spi.putData line (s.mem p) }

/-- `hgspi_dw_write`. What `dma_xfer` returns is not looked at. -/
def hgspiDwWrite (s : Sys) (buf size : BitVec 32) : Option Sys :=
  if s.dma.isSome ∧ 4 < size then
    let (ret, s) := s.dmaXfer P (txData s.spi.dataReg buf size s.self .spiTx)
    ((s.transmit line ret).finish ret).txDown
  else some (sendLoop line size.toNat buf s)

/-- The loop of `hgspi_dw_read`. -/
def receiveLoop : (n : ℕ) → (p : BitVec 32) → Sys → Option Sys
  | 0, _, s => some s
  | n + 1, p, s => do
    let spi := if s.spi.ser then s.spi.putData line 0xFF else s.spi
    let (b, spi) ← spi.hgspiDwPollRcvDat line
    receiveLoop n (p + 1) ({ s with spi }.store p b)

end Sys

/-- The device, and how many elements its two channels have moved. -/
structure Duplex where
  sys : Sys
  out : ℕ
  into : ℕ

/-- **The two channels of a read at work**, in any order. What is written to
the data register makes the clock; what is read from it is taken out of the
FIFO, where there must be an element, whatever the flow. Other addresses are
memory to the receiving channel, and what the sending one writes there is
not looked at. -/
def duplex (line : ℕ → Byte) (tx rx : Option ChRegs) : Machine Duplex Beat where
  step d
    | .tx => do
      let regs ← tx
      if d.out < regs.blockTs ∧ d.sys.spi.tdmae then
        some { d with
          sys.spi := if regs.dstAddr d.out = d.sys.spi.dataReg then
              (element d.sys.mem regs d.out).foldl (Spi.putData line) d.sys.spi
            else d.sys.spi
          out := d.out + 1 }
      else none
    | .rx => do
      let regs ← rx
      let fifo := d.sys.spi.rxFifo
      if d.into < regs.blockTs then
        if regs.srcAddr d.into = d.sys.spi.dataReg then
          if d.sys.spi.rdmae ∧ regs.width ≤ fifo.length then
            some { d with
              sys := Sys.storeAll (regs.dstAddr d.into) (fifo.take regs.width)
                { d.sys with spi.rxFifo := fifo.drop regs.width }
              into := d.into + 1 }
          else none
        else
          some { d with
            sys := Sys.storeAll (regs.dstAddr d.into) (element d.sys.mem regs d.into) d.sys
            into := d.into + 1 }
      else none
    | .line => if d.sys.spi.ser then none else some { d with sys.spi := d.sys.spi.clockIn line }

namespace Duplex

/-- A channel that has moved its whole block raises its interrupt. -/
def finish (d : Duplex) (tx rx : CInt) : Sys :=
  let s := if (d.sys.regs tx).any fun regs => d.out = regs.blockTs then d.sys.finish tx else d.sys
  if (d.sys.regs rx).any fun regs => d.into = regs.blockTs then s.finish rx else s

end Duplex

namespace Sys

/-- The end of the DMA branch: the semaphores are waited for. -/
def waitDone (s : Sys) : Option Sys :=
  ((if s.spi.ser then s.txDown else some s).bind rxDown).map fun s =>
    { s with spi.rdmae := false }

variable (P : Periphs) (line : ℕ → Byte) (schedule : List Beat)

/-- The DMA branch of `hgspi_dw_read`. What `dma_xfer` returns is not looked
at; only the master needs the sending channel, for the clock. -/
def readByDma (s : Sys) (buf size : BitVec 32) : Option Sys :=
  let s := { s with spi.rdmae := true }
  let (rx, s) := s.dmaXfer P (rxData s.spi.dataReg buf size s.self .spiRx)
  let (tx, s) :=
    if s.spi.ser then s.dmaXfer P (txData s.spi.dataReg buf size s.self .spiTx) else (retErr, s)
  ((duplex line (s.regs tx) (s.regs rx)).run ⟨s, 0, 0⟩ schedule).bind fun d =>
    (d.finish tx rx).waitDone

/-- `hgspi_dw_read`; `schedule` is the order in which the channels move
their elements. -/
def hgspiDwRead (s : Sys) (buf size : BitVec 32) : Option Sys :=
  if size = 0 then some s
  else
    let s := { s with spi := s.spi.hgspiDwSetMode .receiveOnly }
    (if s.dma.isSome ∧ 4 < size then s.readByDma P line schedule buf size
      else receiveLoop line size.toNat buf s).map fun s =>
      { s with spi := s.spi.hgspiDwSetMode .transmitOnly }

end Sys

end Serial

end Hgsdk

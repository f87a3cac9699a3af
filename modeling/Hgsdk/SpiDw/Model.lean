import Hgsdk.Common.Command
import Hgsdk.SpiNor.Tasks
/-!
# Opening and closing the SPI controller

`hgspi_dw_open` and `hgspi_dw_close` of `driver/spi/hgspi_dw.c`, with
everything they acquire: the clock, the pins, the interrupt, the registers
and two semaphores. `pin_func`, `request_irq` and `os_sema_init` are the
system's. Each returns what it likes; one that does not return `RET_OK` has
done nothing.
-/

namespace Hgsdk

namespace SpiDw

open SpiNor (OpenEnv spiWireNormalMode)

/-- The registers of `struct hgspi_dw_hw` that are written. -/
structure Regs where
  ctrlr0 : BitVec 32
  ctrlr1 : BitVec 32
  ssienr : BitVec 32
  ser : BitVec 32
  baudr : BitVec 32
  txftlr : BitVec 32
  rxftlr : BitVec 32
  imr : BitVec 32
  dmacr : BitVec 32
  dmatdlr : BitVec 32
  dmardlr : BitVec 32
  rxSampleDly : BitVec 32
  spictrlr0 : BitVec 32
  deriving DecidableEq, Repr

/-- The controllers with a clock and a reset of their own. -/
inductive Port
  | spi0 | spi1 | spi3
  deriving DecidableEq, Repr

/-- The two semaphores of the DMA transfers. -/
inductive Sema
  | txDma | rxDma
  deriving DecidableEq, Repr

/-- What the chip adds: the registers after a reset, and the bus clock. -/
structure Chip where
  resetRegs : Regs
  apbclk : BitVec 32

/-- `struct hgspi_dw` and what it holds of the system. `port` is the
controller that `dev_get` finds the device to be, if any. -/
structure Dev where
  port : Option Port
  opened : BitVec 32
  regs : Regs
  clkEn : Port → Bool
  pins : Bool
  irqHandler : Bool
  irqEnabled : Bool
  semas : Sema → Bool

/-! ### The calls of the two functions -/

/-- `sysctrl_spi_clk_open` and `sysctrl_spi_reset` of the device's own
controller; a device that is none of the three is left alone. -/
def sysctrlSpiOpen (chip : Chip) : Cmd Dev PUnit :=
  modify fun s => match s.port with
    | none => s
    | some port => { s with
        clkEn := fun p => if p = port then true else s.clkEn p
        regs := chip.resetRegs }

/-- `pin_func`: the pins are the device's where `request` is 1, and no
longer where it is 0. -/
def pinFunc (ret : CInt) (request : Bool) : Cmd Dev CInt := do
  if ret = retOk then
    modify fun s => { s with pins := request }
  return ret

/-- `request_irq`. -/
def requestIrq (ret : CInt) : Cmd Dev CInt := do
  if ret = retOk then
    modify fun s => { s with irqHandler := true }
  return ret

/-- `irq_disable`. -/
def irqDisable : Cmd Dev PUnit := modify fun s => { s with irqEnabled := false }

/-- An assignment to registers. -/
def setRegs (f : Regs → Regs) : Cmd Dev PUnit := modify fun s => { s with regs := f s.regs }

/-- `hgspi_dw_disable`. -/
def hgspiDwDisable : Cmd Dev PUnit := setRegs fun r => { r with ssienr := 0 }

/-- `hgspi_dw_enable`. -/
def hgspiDwEnable : Cmd Dev PUnit := setRegs fun r => { r with ssienr := 1 }

/-- `os_sema_init(&sema, 0)`. -/
def osSemaInit (sema : Sema) (ret : CInt) : Cmd Dev CInt := do
  if ret = retOk then
    modify fun s => { s with semas := fun x => if x = sema then true else s.semas x }
  return ret

/-- `os_sema_del(&sema)`. -/
def osSemaDel (sema : Sema) : Cmd Dev PUnit :=
  modify fun s => { s with semas := fun x => if x = sema then false else s.semas x }

/-- `SPI_MASTER_MODE`. -/
def spiMasterMode : BitVec 32 := 0

/-- The quotient `sys_get_apbclk() / clk_freq`; a division by zero does not
return. -/
def clkDiv (apbclk clkFreq : BitVec 32) : Option (BitVec 32) :=
  if clkFreq = 0 then none else some (apbclk / clkFreq)

/-- The control word: Motorola frames, transmit and receive, the clock mode,
frames of eight bits, slave output on, and one data line. -/
def ctrl0Reg (clkMode : BitVec 32) : BitVec 32 :=
  0x0 ||| 0 ||| (clkMode <<< 6) ||| (8 - 1) ||| 0 ||| (0 <<< 21)

/-- The registers of the transfer, before the controller is enabled. The
assertion on the quotient prints and the code goes on. -/
def program (chip : Chip) (clkFreq workMode clkMode : BitVec 32) : Cmd Dev PUnit := do
  setRegs fun r => { r with
    ctrlr0 := ctrl0Reg clkMode, ctrlr1 := 0, dmatdlr := 0, dmardlr := 0, dmacr := 0 }
  let clkDivCnt ← Cmd.deref (clkDiv chip.apbclk clkFreq)
  setRegs fun r => { r with
    baudr := clkDivCnt, spictrlr0 := (0 <<< 11) ||| (2 <<< 8) ||| (0 <<< 2), rxSampleDly := 0
    txftlr := 0, rxftlr := 0, ser := if workMode = spiMasterMode then 1 else 0 }

/-- The semaphores, and the end of `hgspi_dw_open`. -/
def openSemas (env : OpenEnv) : Cmd Dev CInt := do
  let ret ← osSemaInit .txDma env.txSemaInit
  if ret ≠ retOk then
    return ret
  let ret ← osSemaInit .rxDma env.rxSemaInit
  if ret ≠ retOk then
    osSemaDel .txDma
    return ret
  modify fun s => { s with opened := 1 }
  return retOk

/-- `hgspi_dw_open`. -/
def hgspiDwOpen (chip : Chip) (env : OpenEnv) (clkFreq workMode wireMode clkMode : BitVec 32) :
    Cmd Dev CInt := do
  if (← get).opened ≠ 0 then
    return -eBusy
  sysctrlSpiOpen chip
  if (← pinFunc env.pinFunc true) ≠ retOk then
    return retErr
  if (← requestIrq env.requestIrq) ≠ retOk then
    return retErr
  hgspiDwDisable
  setRegs fun r => { r with imr := 0 }
  if wireMode ≠ spiWireNormalMode then
    return retErr
  program chip clkFreq workMode clkMode
  hgspiDwEnable
  openSemas env

/-- `hgspi_dw_close`; what `pin_func` returns is not looked at. -/
def hgspiDwClose (pinFuncRet : CInt) : Cmd Dev CInt := do
  if (← get).opened = 0 then
    return retOk
  irqDisable
  let _ ← pinFunc pinFuncRet false
  hgspiDwDisable
  osSemaDel .txDma
  osSemaDel .rxDma
  modify fun s => { s with opened := 0 }
  return retOk

end SpiDw

end Hgsdk

import Hgsdk.Common.Command
import Hgsdk.Typesdef
/-!
# The SPI NOR commands

`spi_nor_bus.c`: the instructions of a serial flash as sequences of
operations of an SPI device, and the four tables of them, one for each
wire mode. The device is any implementation of `struct spi_device`; its
return codes, which the source ignores here, are left out.
-/

namespace Hgsdk

namespace SpiNor

/-- `enum spi_wire_mode`. -/
inductive WireMode
  | single | normal | dual | quad
  deriving DecidableEq, Repr

/-- `enum spi_nor_mode`. -/
inductive Mode
  | normalSpi | dualSpi | quadSpi | qpi
  deriving DecidableEq, Repr

/-- `struct spi_device`, its operations on whatever is behind it.
`setWire` is the `ioctl` `SPI_WIRE_MODE_SET`, the only one used here. -/
structure SpiDevice (σ : Type) where
  openDev : (clk : BitVec 32) → (wireMode clkMode : BitVec 32) → Cmd σ CInt
  close : Cmd σ PUnit
  setWire : WireMode → Cmd σ PUnit
  read : (size : BitVec 32) → Cmd σ (List Byte)
  write : List Byte → Cmd σ PUnit
  setCs : (cs : BitVec 32) → (value : Bool) → Cmd σ PUnit

/-- `struct os_mutex`. -/
structure OsMutex (σ : Type) where
  init : Cmd σ PUnit
  lock : Cmd σ PUnit
  unlock : Cmd σ PUnit

/-- `struct spi_nor_flash`: what `spi_nor_attach` finds filled in. A page
size of zero would trap in the first `addr % page_size`. -/
structure Flash (σ : Type) where
  spidev : SpiDevice σ
  lock : OsMutex σ
  clk : BitVec 32
  clkMode : BitVec 32
  wireMode : BitVec 32
  cs : BitVec 32
  size : BitVec 32
  sectorSize : BitVec 32
  pageSize : BitVec 32
  mode : Mode
  pageSize_pos : 0 < pageSize.toNat

variable {σ : Type} (flash : Flash σ)

/-- The instruction byte with the 24 address bits behind it. -/
def addressed (instruction : Byte) (addr : BitVec 32) : List Byte :=
  [instruction, (addr >>> 16).setWidth 8, (addr >>> 8).setWidth 8, addr.setWidth 8]

/-- A transfer with the chip selected. -/
def withCs {α : Type} (transfer : Cmd σ α) : Cmd σ α := do
  flash.spidev.setCs flash.cs false
  let r ← transfer
  flash.spidev.setCs flash.cs true
  return r

/-- A transfer with the controller on four wires, back to normal after. -/
def withQuad {α : Type} (transfer : Cmd σ α) : Cmd σ α := do
  flash.spidev.setWire .quad
  let r ← transfer
  flash.spidev.setWire .normal
  return r

/-- `while (status & SPI_NOR_STATUS_BUSY);` -/
def waitBusy (readStatus : Cmd σ Byte) : Cmd σ PUnit :=
  Cmd.iterate (fun _ => do
    let status ← readStatus
    return if status &&& 0x01 ≠ 0 then .inl () else .inr ()) ()

/-- A command that alters the flash: enabled before, waited for, and
disabled after. -/
def withWriteEnable (enable : Cmd σ PUnit) (alter : Cmd σ PUnit) (readStatus : Cmd σ Byte)
    (disable : Cmd σ PUnit) : Cmd σ PUnit := do
  enable
  alter
  waitBusy readStatus
  disable

/-! ### Standard SPI -/

def standardReadJedecId : Cmd σ (List Byte) :=
  withCs flash do
    flash.spidev.write [0x9F]
    flash.spidev.read 3

def standardWriteDisable : Cmd σ PUnit := withCs flash (flash.spidev.write [0x04])

def standardWriteEnable : Cmd σ PUnit := withCs flash (flash.spidev.write [0x06])

def standardEnterQpi : Cmd σ PUnit := withCs flash (flash.spidev.write [0x38])

def standardPowerDown : Cmd σ PUnit := withCs flash (flash.spidev.write [0xB9])

def standardReleasePowerDown : Cmd σ PUnit := withCs flash (flash.spidev.write [0xAB])

/-- The one byte stored at `&result`. -/
def statusByte (bytes : List Byte) : Byte := bytes.headD 0

def standardReadStatusRegister : Cmd σ Byte :=
  withCs flash do
    flash.spidev.write [0x05]
    return statusByte (← flash.spidev.read 1)

def standardWriteStatusRegister (data : BitVec 16) : Cmd σ PUnit := do
  standardWriteEnable flash
  withCs flash (flash.spidev.write [0x01, data.setWidth 8, (data >>> 8).setWidth 8])
  standardWriteDisable flash

def standardReadData (addr bufSize : BitVec 32) : Cmd σ (List Byte) :=
  withCs flash do
    flash.spidev.write (addressed 0x03 addr)
    flash.spidev.read bufSize

def standardAlter (alter : Cmd σ PUnit) : Cmd σ PUnit :=
  withWriteEnable (standardWriteEnable flash) (withCs flash alter)
    (standardReadStatusRegister flash) (standardWriteDisable flash)

def standardPageProgram (addr : BitVec 32) (buf : List Byte) : Cmd σ PUnit :=
  standardAlter flash do
    flash.spidev.write (addressed 0x02 addr)
    flash.spidev.write buf

def standardSectorErase (addr : BitVec 32) : Cmd σ PUnit :=
  standardAlter flash (flash.spidev.write (addressed 0x20 addr))

def standardBlockErase (addr : BitVec 32) : Cmd σ PUnit :=
  standardAlter flash (flash.spidev.write (addressed 0xD8 addr))

def standardChipErase : Cmd σ PUnit :=
  standardAlter flash (flash.spidev.write [0xC7])

/-- `spi_nor_standard_open`: its body is commented out. -/
def standardOpen : Cmd σ PUnit := return ⟨⟩

/-! ### Dual and quad SPI

Instruction, address and dummy byte go out on one wire, the data on two or
four. -/

/-- A fast read with the data on the wires given. -/
def fastReadOutput (instruction : Byte) (wires : WireMode) (addr bufSize : BitVec 32) :
    Cmd σ (List Byte) :=
  withCs flash do
    flash.spidev.setWire .normal
    flash.spidev.write (addressed instruction addr ++ [0x00])
    flash.spidev.setWire wires
    let buf ← flash.spidev.read bufSize
    flash.spidev.setWire .normal
    return buf

def dualFastReadDualOutput (addr bufSize : BitVec 32) : Cmd σ (List Byte) :=
  fastReadOutput flash 0x3B .dual addr bufSize

def quadFastReadQuadOutput (addr bufSize : BitVec 32) : Cmd σ (List Byte) :=
  fastReadOutput flash 0x6B .quad addr bufSize

/-- `SPI_NOR_STATUS2_QUAD_ENABLE` set in the status just read. -/
def quadEnabled (status : Byte) : BitVec 16 := status.setWidth 16 ||| 0x200

/-- `spi_nor_quad_open`; the sleep in it touches nothing. -/
def quadOpen : Cmd σ PUnit := do
  standardReleasePowerDown flash
  let status ← standardReadStatusRegister flash
  standardWriteStatusRegister flash (quadEnabled status)

def quadPageProgram (addr : BitVec 32) (buf : List Byte) : Cmd σ PUnit := do
  flash.spidev.setWire .normal
  standardAlter flash do
    flash.spidev.write (addressed 0x32 addr)
    flash.spidev.setWire .quad
    flash.spidev.write buf
    flash.spidev.setWire .normal

/-! ### QPI

The same instructions, every byte of them on four wires. -/

def qpiWriteDisable : Cmd σ PUnit := withQuad flash (withCs flash (flash.spidev.write [0x04]))

def qpiWriteEnable : Cmd σ PUnit := withQuad flash (withCs flash (flash.spidev.write [0x06]))

def qpiReadStatusRegister : Cmd σ Byte :=
  withQuad flash do
    withCs flash do
      flash.spidev.write [0x05]
      return statusByte (← flash.spidev.read 1)

def qpiFastReadQuadIo (addr bufSize : BitVec 32) : Cmd σ (List Byte) :=
  withQuad flash do
    withCs flash do
      flash.spidev.write (addressed 0xEB addr ++ [0x00])
      flash.spidev.read bufSize

def qpiAlter (alter : Cmd σ PUnit) : Cmd σ PUnit :=
  withWriteEnable (qpiWriteEnable flash) (withQuad flash (withCs flash alter))
    (qpiReadStatusRegister flash) (qpiWriteDisable flash)

def qpiPageProgram (addr : BitVec 32) (buf : List Byte) : Cmd σ PUnit :=
  qpiAlter flash do
    flash.spidev.write (addressed 0x02 addr)
    flash.spidev.write buf

def qpiSectorErase (addr : BitVec 32) : Cmd σ PUnit :=
  qpiAlter flash (flash.spidev.write (addressed 0x20 addr))

def qpiBlockErase (addr : BitVec 32) : Cmd σ PUnit :=
  qpiAlter flash (flash.spidev.write (addressed 0xD8 addr))

def qpiChipErase : Cmd σ PUnit :=
  qpiAlter flash (flash.spidev.write [0xC7])

/-- `spi_nor_standard_disable_qpi`. -/
def standardDisableQpi : Cmd σ PUnit :=
  withQuad flash (withCs flash (flash.spidev.write [0xFF]))

/-- `spi_nor_qpi_power_down`: unlike its siblings it does not switch the
wires. -/
def qpiPowerDown : Cmd σ PUnit := withCs flash (flash.spidev.write [0xB9])

/-- `spi_nor_qpi_release_power_down`: nor does this one. -/
def qpiReleasePowerDown : Cmd σ PUnit := withCs flash (flash.spidev.write [0xAB])

def qpiOpen : Cmd σ PUnit := do
  qpiReleasePowerDown flash
  let status ← standardReadStatusRegister flash
  standardWriteStatusRegister flash (quadEnabled status)
  standardEnterQpi flash

def qpiClose : Cmd σ PUnit := standardDisableQpi flash

/-! ### The tables -/

/-- `struct spi_nor_bus`. -/
structure Bus (σ : Type) where
  openBus : Flash σ → Cmd σ PUnit
  /-- May be null. -/
  close : Option (Flash σ → Cmd σ PUnit)
  read : Flash σ → (addr size : BitVec 32) → Cmd σ (List Byte)
  program : Flash σ → (addr : BitVec 32) → List Byte → Cmd σ PUnit
  sectorErase : Flash σ → (addr : BitVec 32) → Cmd σ PUnit
  blockErase : Flash σ → (addr : BitVec 32) → Cmd σ PUnit
  chipErase : Flash σ → Cmd σ PUnit
  enterPowerDown : Flash σ → Cmd σ PUnit
  releasePowerDown : Flash σ → Cmd σ PUnit

/-- `spi_nor_bus_get`, the rows of `spinor_bus_list`. -/
def busGet : Mode → Bus σ
  | .normalSpi =>
    { openBus := fun _ => standardOpen
      close := none
      read := standardReadData
      program := standardPageProgram
      sectorErase := standardSectorErase
      blockErase := standardBlockErase
      chipErase := standardChipErase
      enterPowerDown := standardPowerDown
      releasePowerDown := standardReleasePowerDown }
  | .dualSpi =>
    { openBus := fun _ => standardOpen
      close := none
      read := dualFastReadDualOutput
      program := standardPageProgram
      sectorErase := standardSectorErase
      blockErase := standardBlockErase
      chipErase := standardChipErase
      enterPowerDown := standardPowerDown
      releasePowerDown := standardReleasePowerDown }
  | .quadSpi =>
    { openBus := quadOpen
      close := none
      read := quadFastReadQuadOutput
      program := quadPageProgram
      sectorErase := standardSectorErase
      blockErase := standardBlockErase
      chipErase := standardChipErase
      enterPowerDown := standardPowerDown
      releasePowerDown := standardReleasePowerDown }
  | .qpi =>
    { openBus := qpiOpen
      close := some qpiClose
      read := qpiFastReadQuadIo
      program := qpiPageProgram
      sectorErase := qpiSectorErase
      blockErase := qpiBlockErase
      chipErase := qpiChipErase
      enterPowerDown := qpiPowerDown
      releasePowerDown := qpiReleasePowerDown }

end SpiNor

end Hgsdk

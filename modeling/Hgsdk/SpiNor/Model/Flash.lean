import Hgsdk.SpiNor.Model.Bus
/-!
# The SPI NOR driver

`spi_nor.c`: the operations a client of the flash calls. The asserts on
`flash->bus` hold after `spi_nor_attach`, which fills it in from the mode;
the others print and continue.
-/

namespace Hgsdk

namespace SpiNor

variable {σ : Type} (flash : Flash σ)

/-- `flash->bus`. -/
def Flash.bus : Bus σ := busGet flash.mode

/-- `spi_nor_open`. Whatever `spi_open` returned, the bus is opened; only
the lock is given back on a failure. -/
def spiNorOpen : Cmd σ CInt := do
  flash.lock.lock
  let ret ← flash.spidev.openDev flash.clk flash.wireMode flash.clkMode
  flash.bus.openBus flash
  if ret ≠ 0 then
    flash.lock.unlock
  return ret

/-- `spi_nor_close`. -/
def spiNorClose : Cmd σ PUnit := do
  match flash.bus.close with
  | some close => close flash
  | none => pure ⟨⟩
  flash.spidev.setCs flash.cs true
  flash.spidev.close
  flash.lock.unlock

/-- `spi_nor_read`. -/
def spiNorRead (addr len : BitVec 32) : Cmd σ (List Byte) :=
  flash.bus.read flash addr len

/-- The variables of the loop in `spi_nor_write`. -/
structure WriteVars where
  addr : BitVec 32
  buf : List Byte
  len : BitVec 32

/-- Program the first `n` bytes and step over them. -/
def writePiece (v : WriteVars) (n : BitVec 32) : Cmd σ WriteVars := do
  flash.bus.program flash v.addr (v.buf.take n.toNat)
  return ⟨v.addr + n, v.buf.drop n.toNat, v.len - n⟩

/-- `remain_size`: what is left of the page `addr` lies in, 0 at its
start. -/
def remainSize (addr : BitVec 32) : BitVec 32 :=
  let remain := addr % flash.pageSize
  if remain ≠ 0 then flash.pageSize - remain else 0

/-- `spi_nor_write`: the rest of the first page, whole pages, and what is
left. -/
def spiNorWrite (addr : BitVec 32) (buf : List Byte) (len : BitVec 32) : Cmd σ PUnit := do
  let remain := remainSize flash addr
  let v ← if remain ≠ 0 ∧ remain < len then writePiece flash ⟨addr, buf, len⟩ remain
    else pure ⟨addr, buf, len⟩
  let v ← Cmd.iterate (fun v : WriteVars => do
    if flash.pageSize < v.len then
      return .inl (← writePiece flash v flash.pageSize)
    else
      return .inr v) v
  flash.bus.program flash v.addr (v.buf.take v.len.toNat)

/-- `spi_nor_sector_erase`. -/
def spiNorSectorErase (sectorAddr : BitVec 32) : Cmd σ PUnit :=
  flash.bus.sectorErase flash sectorAddr

/-- `spi_nor_block_erase`. -/
def spiNorBlockErase (blockAddr : BitVec 32) : Cmd σ PUnit :=
  flash.bus.blockErase flash blockAddr

/-- `spi_nor_chip_erase`. -/
def spiNorChipErase : Cmd σ PUnit := flash.bus.chipErase flash

/-- `spi_nor_enter_power_down`. -/
def spiNorEnterPowerDown : Cmd σ PUnit := flash.bus.enterPowerDown flash

/-- `spi_nor_release_power_down`. -/
def spiNorReleasePowerDown : Cmd σ PUnit := flash.bus.releasePowerDown flash

/-- The `vendor_id` and `product_id` that `spi_nor_attach` stores for the
three bytes of a JEDEC identifier. -/
def flashIds (id : List Byte) : BitVec 32 × BitVec 32 :=
  let byte (i : ℕ) : BitVec 32 := (id.getD i 0).setWidth 32
  if byte 0 ≠ 0x00 ∧ byte 0 ≠ 0xff then (byte 0, (byte 1 <<< 8) ||| byte 2) else (0, 0)

/-- `spi_nor_attach`, up to the registration of the device: the two
identifiers it stores. -/
def spiNorAttach : Cmd σ (BitVec 32 × BitVec 32) := do
  flash.lock.init
  let _ ← spiNorOpen flash
  let id ← standardReadJedecId flash
  spiNorClose flash
  return flashIds id

end SpiNor

end Hgsdk

import Hgsdk.EthPhy.Frame
/-!
# PHYs that are storage

A bus on which every PHY is a bank of registers that hold what was written
to them, and on which every access is remembered. `BMCR_ANRESTART` clears
itself: it reads as zero. On this bus the commands of the driver have one
result, and the rules below say which.
-/

namespace Hgsdk

namespace EthPhy

/-- An access to a register of the PHY at an address. -/
inductive Access
  | read (addr reg : BitVec 16)
  | write (addr reg val : BitVec 16)
  deriving DecidableEq, Repr

namespace Access

/-- The address of the PHY. -/
def addr : Access → BitVec 16
  | read addr _ => addr
  | write addr _ _ => addr

def IsWrite : Access → Prop
  | read _ _ => False
  | write _ _ _ => True

end Access

/-- The registers of every PHY, and the accesses so far, newest first. -/
structure Storage where
  regs : (addr reg : BitVec 16) → BitVec 16
  accesses : List Access

namespace Storage

variable (s : Storage) (addr reg val : BitVec 16)

/-- What a register reads as. -/
def get : BitVec 16 :=
  if reg = miiBmcr then s.regs addr reg &&& ~~~bmcrAnrestart.setWidth 16 else s.regs addr reg

def touch (a : Access) : Storage := { s with accesses := a :: s.accesses }

def put : Storage where
  regs a r := if a = addr ∧ r = reg then val else s.regs a r
  accesses := .write addr reg val :: s.accesses

variable {s addr reg val}

@[simp] theorem get_touch {a : Access} : (s.touch a).get addr reg = s.get addr reg := rfl

@[simp] theorem regs_touch {a : Access} : (s.touch a).regs = s.regs := rfl

theorem get_of_ne (h : reg ≠ miiBmcr) : s.get addr reg = s.regs addr reg := if_neg h

@[simp] theorem regs_put_self : (s.put addr reg val).regs addr reg = val := if_pos ⟨rfl, rfl⟩

theorem regs_put_of_ne {r : BitVec 16} (h : r ≠ reg) :
    (s.put addr reg val).regs addr r = s.regs addr r := if_neg fun h' => h h'.2

end Storage

/-- **The bus.** -/
def storageBus : MdioBus Storage where
  read s addr reg := ((s.get addr reg).setWidth 32, s.touch (.read addr reg))
  write s addr reg val := s.put addr reg val

/-! ### The commands on it -/

variable {α : Type} {w : PhyWorld Storage} {reg val : BitVec 16}

/-- The world after a read. -/
def PhyWorld.looked (w : PhyWorld Storage) (reg : BitVec 16) : PhyWorld Storage :=
  { w with mdio := w.mdio.touch (.read w.phydev.addr reg) }

/-- The world after a write. -/
def PhyWorld.wrote (w : PhyWorld Storage) (reg val : BitVec 16) : PhyWorld Storage :=
  { w with mdio := w.mdio.put w.phydev.addr reg val }

/-- What the device's own register reads as. -/
def PhyWorld.readout (w : PhyWorld Storage) (reg : BitVec 16) : BitVec 16 :=
  w.mdio.get w.phydev.addr reg

/-- What stands in it. -/
def PhyWorld.stored (w : PhyWorld Storage) (reg : BitVec 16) : BitVec 16 :=
  w.mdio.regs w.phydev.addr reg

theorem readout_of_ne (h : reg ≠ miiBmcr) : w.readout reg = w.stored reg := Storage.get_of_ne h

@[simp] theorem stored_looked {r : BitVec 16} : (w.looked reg).stored r = w.stored r := rfl

@[simp] theorem readout_looked {r : BitVec 16} : (w.looked reg).readout r = w.readout r := rfl

@[simp] theorem stored_wrote_self : (w.wrote reg val).stored reg = val := Storage.regs_put_self

theorem stored_wrote_of_ne {r : BitVec 16} (h : r ≠ reg) :
    (w.wrote reg val).stored r = w.stored r := Storage.regs_put_of_ne h

/-- A device on the bus, with the registers of every PHY given. -/
def storagePhy (addr : BitVec 16) (autoneg supported advertising : BitVec 32)
    (regs : BitVec 16 → BitVec 16 → BitVec 16) : PhyWorld Storage where
  phydev :=
    { addr, bus := some storageBus, ndev := none, phyId := 0, state := .up, speed := 0, duplex := 0
      pause := 0, asymPause := 0, link := 0, supported, advertising, autoneg, linkTimeout := 0
      lastSpeed := 0, lastDuplex := 0, lastLink := 0 }
  mdio := ⟨regs, []⟩
  events := []

section Commands

variable (hbus : w.phydev.bus = some storageBus)

include hbus

theorem ensures_phyReadInt {Q : CInt → PhyWorld Storage → Prop} :
    Ensures (phyReadInt reg) w Q ↔ Q ((w.readout reg).setWidth 32) (w.looked reg) := by
  have hlow : ((w.readout reg).setWidth 32).setWidth 16 = w.readout reg := by
    rw [BitVec.setWidth_setWidth_of_le _ (by decide), BitVec.setWidth_eq]
  rw [ensures_phyReadInt_of_bus hbus]
  show Q ((((w.readout reg).setWidth 32).setWidth 16).setWidth 32) (w.looked reg) ↔ _
  rw [hlow]

/-- A read whose failure is looked for: there is none. -/
theorem ensures_read {err f : CInt → Cmd (PhyWorld Storage) α} {Q : α → PhyWorld Storage → Prop} :
    Ensures (phyReadInt reg >>= fun v => if v.slt 0 then err v else f v) w Q ↔
      Ensures (f ((w.readout reg).setWidth 32)) (w.looked reg) Q := by
  rw [ensures_bind, ensures_phyReadInt hbus, setWidth_16_not_slt_zero]
  exact Iff.rfl

theorem ensures_phyWrite {Q : PUnit → PhyWorld Storage → Prop} :
    Ensures (phyWrite reg val) w Q ↔ Q ⟨⟩ (w.wrote reg val) := by
  simp only [phyWrite, ensures_bind, ensures_get, ensures_deref, ensures_set, hbus,
    Option.some.injEq, exists_eq_left', storageBus]
  exact Iff.rfl

end Commands

end EthPhy

end Hgsdk

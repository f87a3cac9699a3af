import Hgsdk.EthPhy.Model.Poll
/-!
# What the generic driver does not see

The generic driver reads the bus through `phy_read` only, which keeps the
low half of what the bus returns; and it neither reads nor writes
`link_timeout`. So with another counter, and with another bus that differs
in the upper halves only, it does the same (`Blind`).
-/

namespace Hgsdk

namespace EthPhy

variable {σ α : Type}

/-! ### Another device in its place -/

/-- Two buses that differ in the upper halves of what they return. -/
structure MdioBus.Alike (bus bus' : MdioBus σ) : Prop where
  read : ∀ s addr reg, (bus'.read s addr reg).1.setWidth 16 = (bus.read s addr reg).1.setWidth 16
  next : ∀ s addr reg, (bus'.read s addr reg).2 = (bus.read s addr reg).2
  write : ∀ s addr reg val, bus'.write s addr reg val = bus.write s addr reg val

/-- The device with its bus and its counter exchanged. -/
def PhyDevice.other (b : MdioBus σ → MdioBus σ) (t : BitVec 32 → BitVec 32) (d : PhyDevice σ) :
    PhyDevice σ :=
  { d with bus := d.bus.map b, linkTimeout := t d.linkTimeout }

/-- The same, of the world. -/
def PhyWorld.other (b : MdioBus σ → MdioBus σ) (t : BitVec 32 → BitVec 32) (w : PhyWorld σ) :
    PhyWorld σ :=
  { w with phydev := w.phydev.other b t }

variable {b : MdioBus σ → MdioBus σ} {t : BitVec 32 → BitVec 32}

/-! ### The device's own commands -/

/-- The fields that are read are not the ones exchanged. -/
theorem blind_getDev_bind {k : PhyDevice σ → Cmd (PhyWorld σ) α} (hk : ∀ d, k (d.other b t) = k d)
    (h : ∀ d, Blind (PhyWorld.other b t) (k d)) : Blind (PhyWorld.other b t) (getDev >>= k) := by
  intro w
  show k (w.phydev.other b t) (w.other b t) = (k w.phydev w).map _
  rw [hk]
  exact h w.phydev w

theorem blind_setDev {f : PhyDevice σ → PhyDevice σ}
    (hf : ∀ d, f (d.other b t) = (f d).other b t) : Blind (PhyWorld.other b t) (setDev f) := by
  intro w
  show some (PUnit.unit, { w with phydev := f (w.phydev.other b t) }) = _
  rw [hf]
  rfl

theorem blind_setDev_bind {f : PhyDevice σ → PhyDevice σ} {k : PUnit → Cmd (PhyWorld σ) α}
    (hf : ∀ d, f (d.other b t) = (f d).other b t) (hk : ∀ u, Blind (PhyWorld.other b t) (k u)) :
    Blind (PhyWorld.other b t) (setDev f >>= k) :=
  (blind_setDev hf).bind hk

theorem blind_phyEventLink : Blind (PhyWorld.other b t) (phyEventLink : Cmd (PhyWorld σ) _) := by
  intro w
  obtain ⟨d, mdio, events⟩ := w
  obtain ⟨addr, bus, ndev, _⟩ := d
  cases ndev <;> rfl

section Driver

variable (hb : ∀ bus, MdioBus.Alike bus (b bus))

include hb

theorem blind_phyReadInt (reg : BitVec 16) :
    Blind (PhyWorld.other b t) (phyReadInt reg : Cmd (PhyWorld σ) CInt) := by
  intro w
  obtain ⟨d, mdio, events⟩ := w
  obtain ⟨addr, bus, _⟩ := d
  cases bus with
  | none => rfl
  | some bus =>
    have hread := (hb bus).read mdio addr reg
    have hnext := (hb bus).next mdio addr reg
    show some ((((b bus).read mdio addr reg).1.setWidth 16).setWidth 32, _) = some (_, _)
    rw [hread]
    simp only [PhyWorld.other, PhyDevice.other, id_eq, hnext]

theorem blind_phyWrite (reg val : BitVec 16) :
    Blind (PhyWorld.other b t) (phyWrite reg val : Cmd (PhyWorld σ) PUnit) := by
  intro w
  obtain ⟨d, mdio, events⟩ := w
  obtain ⟨addr, bus, _⟩ := d
  cases bus with
  | none => rfl
  | some bus =>
    have hwrite := (hb bus).write mdio addr reg val
    show some (PUnit.unit, _) = some (_, _)
    simp only [PhyWorld.other, PhyDevice.other, Option.map_some, hwrite]

/-- A read, the check after it, and the rest. -/
theorem blind_read_bind {reg : BitVec 16} {err k : CInt → Cmd (PhyWorld σ) α}
    (herr : ∀ v, Blind (PhyWorld.other b t) (err v))
    (hk : ∀ v, Blind (PhyWorld.other b t) (k v)) :
    Blind (PhyWorld.other b t) (phyReadInt reg >>= fun v => if v.slt 0 then err v else k v) :=
  (blind_phyReadInt hb reg).bind fun v => (herr v).ite (hk v)

/-! ### The generic driver -/

theorem blind_genphyUpdateLink :
    Blind (PhyWorld.other b t) (genphyUpdateLink : Cmd (PhyWorld σ) CInt) := by
  refine blind_read_bind hb .pure fun _ => ?_
  refine blind_read_bind hb .pure fun _ => ?_
  exact blind_setDev_bind (fun _ => rfl) fun _ => .pure _

theorem blind_genphyReadLpagb :
    Blind (PhyWorld.other b t) (genphyReadLpagb : Cmd (PhyWorld σ) (Except CInt CInt)) := by
  refine blind_getDev_bind (fun _ => rfl) fun d => .ite (.pure _) ?_
  refine blind_read_bind hb (fun _ => .pure _) fun _ => ?_
  exact blind_read_bind hb (fun _ => .pure _) fun _ => .pure _

theorem blind_genphyReadNegotiated :
    Blind (PhyWorld.other b t) (genphyReadNegotiated : Cmd (PhyWorld σ) CInt) := by
  refine (blind_genphyReadLpagb hb).bind fun r => ?_
  cases r with
  | error err => exact .pure _
  | ok lpagb =>
    refine blind_read_bind hb .pure fun _ => ?_
    refine blind_read_bind hb .pure fun _ => ?_
    exact blind_setDev_bind (fun _ => rfl) fun _ => .pure _

theorem blind_genphyReadForced :
    Blind (PhyWorld.other b t) (genphyReadForced : Cmd (PhyWorld σ) CInt) := by
  refine blind_read_bind hb .pure fun _ => ?_
  exact blind_setDev_bind (fun _ => rfl) fun _ => .pure _

/-- **`genphy_read_status`.** -/
theorem blind_genphyReadStatus :
    Blind (PhyWorld.other b t) (genphyReadStatus : Cmd (PhyWorld σ) CInt) := by
  refine (blind_genphyUpdateLink hb).bind fun _ => .ite (.pure _) ?_
  refine blind_getDev_bind (fun _ => rfl) fun d => .ite ?_ ?_
  · exact blind_genphyReadNegotiated hb
  · exact blind_genphyReadForced hb

theorem blind_genphyConfigAdvert :
    Blind (PhyWorld.other b t) (genphyConfigAdvert : Cmd (PhyWorld σ) CInt) := by
  refine blind_setDev_bind (fun _ => rfl) fun _ => ?_
  refine blind_getDev_bind (fun _ => rfl) fun d => ?_
  refine blind_read_bind hb .pure fun _ => .ite ?_ (.pure _)
  exact (blind_phyWrite hb _ _).bind fun _ => .pure _

theorem blind_genphySetupForced :
    Blind (PhyWorld.other b t) (genphySetupForced : Cmd (PhyWorld σ) PUnit) := by
  refine blind_setDev_bind (fun _ => rfl) fun _ => ?_
  exact blind_getDev_bind (fun _ => rfl) fun d => blind_phyWrite hb _ _

theorem blind_genphyRestartAneg :
    Blind (PhyWorld.other b t) (genphyRestartAneg : Cmd (PhyWorld σ) CInt) := by
  refine blind_read_bind hb .pure fun _ => ?_
  exact (blind_phyWrite hb _ _).bind fun _ => .pure _

theorem blind_genphyNeedsRestart :
    Blind (PhyWorld.other b t) (genphyNeedsRestart : Cmd (PhyWorld σ) CInt) :=
  blind_read_bind hb .pure fun _ => .ite (.pure _) (.pure _)

/-- **`genphy_config_aneg`.** -/
theorem blind_genphyConfigAneg :
    Blind (PhyWorld.other b t) (genphyConfigAneg : Cmd (PhyWorld σ) CInt) := by
  refine blind_getDev_bind (fun _ => rfl) fun d => .ite ?_ ?_
  · exact (blind_genphySetupForced hb).bind fun _ => .pure _
  · refine (blind_genphyConfigAdvert hb).bind fun _ => .ite (.pure _) ?_
    have hlast : ∀ r : CInt, Blind (PhyWorld.other b t)
        (if (0 : CInt).slt r then genphyRestartAneg else pure r : Cmd (PhyWorld σ) CInt) :=
      fun r => .ite (blind_genphyRestartAneg hb) (.pure r)
    exact .ite ((blind_genphyNeedsRestart hb).bind hlast) ((Blind.pure _).bind hlast)

/-! ### The state machine's part -/

theorem blind_ethPhyAnegDone :
    Blind (PhyWorld.other b t) (ethPhyAnegDone : Cmd (PhyWorld σ) CInt) :=
  (blind_phyReadInt hb _).bind fun _ => .pure _

omit hb in
theorem blind_ethPhySanitizeSettings :
    Blind (PhyWorld.other b t) (ethPhySanitizeSettings : Cmd (PhyWorld σ) PUnit) := by
  refine blind_getDev_bind (fun _ => rfl) fun d => ?_
  have hrest : Blind (PhyWorld.other b t) (do
      let idx := ethPhyFindValid (ethPhyFindSetting (← getDev).advertising) d.supported
      let s ← Cmd.deref settings[idx]?
      setDev fun d => { d with speed := s.speed, duplex := s.duplex } : Cmd (PhyWorld σ) PUnit) :=
    blind_getDev_bind (fun _ => rfl) fun _ =>
      (Blind.deref _).bind fun _ => blind_setDev fun _ => rfl
  exact .ite (blind_setDev_bind (fun _ => rfl) fun _ => hrest) hrest

end Driver

variable {drv : PhyDriver σ}

/-- **`eth_phy_start_aneg`**, where the driver's `config_aneg` does not see
it. -/
theorem blind_ethPhyStartAneg (haneg : Blind (PhyWorld.other b t) drv.configAneg) :
    Blind (PhyWorld.other b t) (ethPhyStartAneg drv) := by
  have hrest : Blind (PhyWorld.other b t) (do
      let err ← drv.configAneg
      if err.slt 0 then
        return false
      if (← getDev).state ≠ .halted then
        setDev fun d => { d with
          state := if autonegEnable = d.autoneg then .an else .forcing }
      return true) := by
    refine haneg.bind fun _ => .ite (.pure _) ?_
    refine blind_getDev_bind (fun _ => rfl) fun d => .ite ?_ (.pure _)
    exact blind_setDev_bind (fun _ => rfl) fun _ => .pure _
  refine blind_getDev_bind (fun _ => rfl) fun d => .ite ?_ hrest
  exact blind_ethPhySanitizeSettings.bind fun _ => hrest

/-! ### The polls that leave the counter -/

theorem blind_pollNolink (hread : Blind (PhyWorld.other b t) drv.readStatus) :
    Blind (PhyWorld.other b t) (pollNolink drv) := by
  refine hread.bind fun _ => .ite (.pure _) ?_
  refine blind_getDev_bind (fun _ => rfl) fun _ => .ite ?_ (.pure _)
  refine blind_setDev_bind (fun _ => rfl) fun _ => ?_
  exact blind_phyEventLink.bind fun _ => .pure _

theorem blind_pollRunning (hread : Blind (PhyWorld.other b t) drv.readStatus) :
    Blind (PhyWorld.other b t) (pollRunning drv) := by
  refine hread.bind fun _ => .ite (.pure _) ?_
  refine blind_setDev_bind (fun _ => rfl) fun _ => ?_
  exact blind_phyEventLink.bind fun _ => .pure _

theorem blind_pollHalted :
    Blind (PhyWorld.other b t) (pollHalted : Cmd (PhyWorld σ) Bool) := by
  refine blind_getDev_bind (fun _ => rfl) fun _ => .ite ?_ (.pure _)
  refine blind_setDev_bind (fun _ => rfl) fun _ => ?_
  exact blind_phyEventLink.bind fun _ => .pure _

/-- A command that does not see the counter leaves it. -/
theorem linkTimeout_of_blind {m : Cmd (PhyWorld σ) α} {w w' : PhyWorld σ} {a : α}
    (h : ∀ t, Blind (PhyWorld.other id t) m) (hm : m w = some (a, w')) :
    w'.phydev.linkTimeout = w.phydev.linkTimeout := by
  have hsame : w.other id (fun _ => w.phydev.linkTimeout) = w := by
    simp only [PhyWorld.other, PhyDevice.other, Option.map_id, id_eq]
  have hfixed := (h _).fixed hsame hm
  exact congrArg (fun v => v.phydev.linkTimeout) hfixed.symm

theorem MdioBus.Alike.refl (bus : MdioBus σ) : MdioBus.Alike bus (id bus) :=
  ⟨fun _ _ _ => rfl, fun _ _ _ => rfl, fun _ _ _ _ => rfl⟩

end EthPhy

end Hgsdk

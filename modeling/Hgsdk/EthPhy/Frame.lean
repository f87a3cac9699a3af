import Hgsdk.EthPhy.Model.Poll
/-!
# What the generic driver changes

The generic driver's functions run over any bus to their end. None of
them touches the state of the PHY, its negotiation mode, its pointers or
the events (`SameControl`); they write the link, the mode read from the
partner and the registers. This is all the state machine needs to know
of them.
-/

namespace Hgsdk

namespace EthPhy

variable {σ : Type} {w w₁ w₂ : PhyWorld σ} {α : Type}

/-! ### Rules for the device's own commands -/

@[simp] theorem ensures_setDev {f : PhyDevice σ → PhyDevice σ}
    {Q : PUnit → PhyWorld σ → Prop} :
    Ensures (setDev f) w Q ↔ Q ⟨⟩ { w with phydev := f w.phydev } := ensures_modify

@[simp] theorem ensures_getDev {Q : PhyDevice σ → PhyWorld σ → Prop} :
    Ensures getDev w Q ↔ Q w.phydev w := by
  simp only [getDev, ensures_bind, ensures_get, ensures_pure]

/-- The event carries the link the device has. -/
@[simp] theorem ensures_phyEventLink {Q : PUnit → PhyWorld σ → Prop} :
    Ensures phyEventLink w Q ↔ ∃ nd, w.phydev.ndev = some nd ∧
      Q ⟨⟩ { w with events := w.events ++ [⟨nd, w.phydev.link.signExtend 32, 0⟩] } := by
  simp only [phyEventLink, ensures_bind, ensures_get, ensures_deref, ensures_set]

@[simp] theorem ensures_linkTimeoutDec {Q : Bool → PhyWorld σ → Prop} :
    Ensures linkTimeoutDec w Q ↔ Q (decide (0 = w.phydev.linkTimeout))
      { w with phydev := { w.phydev with linkTimeout := w.phydev.linkTimeout - 1 } } := by
  simp only [linkTimeoutDec, ensures_bind, ensures_getDev, ensures_setDev, ensures_pure]

/-- A read hands the low half on. -/
theorem ensures_phyReadInt_of_bus {bus : MdioBus σ} (hbus : w.phydev.bus = some bus)
    {reg : BitVec 16} {Q : CInt → PhyWorld σ → Prop} :
    Ensures (phyReadInt reg) w Q ↔
      Q (((bus.read w.mdio w.phydev.addr reg).1.setWidth 16).setWidth 32)
        { w with mdio := (bus.read w.mdio w.phydev.addr reg).2 } := by
  simp only [phyReadInt, phyRead, ensures_bind, ensures_get, ensures_deref, ensures_set,
    ensures_pure, hbus, Option.some.injEq, exists_eq_left']

/-- And the error branch after it is dead. -/
theorem ensures_phyReadInt_checked {bus : MdioBus σ} (hbus : w.phydev.bus = some bus)
    {reg : BitVec 16} {err f : CInt → Cmd (PhyWorld σ) α} {Q : α → PhyWorld σ → Prop} :
    Ensures (phyReadInt reg >>= fun v => if v.slt 0 then err v else f v) w Q ↔
      Ensures (f (((bus.read w.mdio w.phydev.addr reg).1.setWidth 16).setWidth 32))
        { w with mdio := (bus.read w.mdio w.phydev.addr reg).2 } Q := by
  rw [ensures_bind, ensures_phyReadInt_of_bus hbus,
    if_neg (by rw [setWidth_16_not_slt_zero]; exact Bool.false_ne_true)]

/-! ### The frame -/

/-- **What the driver leaves alone**: the device's state, its negotiation
mode, its pointers, and the events delivered. -/
structure SameControl (w w' : PhyWorld σ) : Prop where
  state : w'.phydev.state = w.phydev.state
  autoneg : w'.phydev.autoneg = w.phydev.autoneg
  bus : w'.phydev.bus = w.phydev.bus
  ndev : w'.phydev.ndev = w.phydev.ndev
  events : w'.events = w.events

namespace SameControl

theorem refl (w : PhyWorld σ) : SameControl w w := ⟨rfl, rfl, rfl, rfl, rfl⟩

theorem trans (h : SameControl w w₁) (h' : SameControl w₁ w₂) : SameControl w w₂ where
  state := h'.state.trans h.state
  autoneg := h'.autoneg.trans h.autoneg
  bus := h'.bus.trans h.bus
  ndev := h'.ndev.trans h.ndev
  events := h'.events.trans h.events

/-- Only the bus behind the device has moved. -/
theorem of_phydev (hd : w₁.phydev = w.phydev) (he : w₁.events = w.events) :
    SameControl w w₁ where
  state := by rw [hd]
  autoneg := by rw [hd]
  bus := by rw [hd]
  ndev := by rw [hd]
  events := he

/-- The device's bus pointer is still in place. -/
theorem isSome (h : SameControl w w₁) (hbus : w.phydev.bus.isSome) :
    w₁.phydev.bus.isSome := by
  rw [h.bus]
  exact hbus

end SameControl

section Driver

/-! Everything below needs a bus to talk to, and nothing of the bus. -/

variable (hbus : w.phydev.bus.isSome)

include hbus

/-- A read returns a non-negative `int` and moves only the bus. -/
theorem phyReadInt_spec (reg : BitVec 16) :
    Ensures (phyReadInt reg) w fun v w' =>
      v.slt 0 = false ∧ w'.phydev = w.phydev ∧ w'.events = w.events := by
  obtain ⟨bus, hb⟩ := Option.isSome_iff_exists.1 hbus
  rw [ensures_phyReadInt_of_bus hb]
  exact ⟨setWidth_16_not_slt_zero _, rfl, rfl⟩

/-- A read inside a command: the error branch after it is dead, and the
rest runs from a world that differs in the bus only. -/
theorem ensures_phyReadInt_bind {reg : BitVec 16} {err f : CInt → Cmd (PhyWorld σ) α}
    {Q : α → PhyWorld σ → Prop}
    (h : ∀ v w', w'.phydev = w.phydev → w'.events = w.events → Ensures (f v) w' Q) :
    Ensures (phyReadInt reg >>= fun v => if v.slt 0 then err v else f v) w Q := by
  refine (phyReadInt_spec hbus reg).bind ?_
  rintro v w' ⟨hv, hd, he⟩
  rw [if_neg (by rw [hv]; exact Bool.false_ne_true)]
  exact h v w' hd he

theorem phyWrite_spec (reg val : BitVec 16) :
    Ensures (phyWrite reg val) w fun _ w' => w'.phydev = w.phydev ∧ w'.events = w.events := by
  obtain ⟨bus, hb⟩ := Option.isSome_iff_exists.1 hbus
  simp only [phyWrite, ensures_bind, ensures_get, ensures_deref, ensures_set, and_true]
  exact ⟨bus, hb⟩

/-- **`genphy_update_link` reads a link value**, 0 or 1, and changes
nothing else of the device. -/
theorem genphyUpdateLink_spec :
    Ensures genphyUpdateLink w fun r w' =>
      r = 0 ∧ SameControl w w' ∧ (w'.phydev.link = 0 ∨ w'.phydev.link = 1) := by
  refine ensures_phyReadInt_bind hbus fun _ w₁ hd₁ he₁ => ?_
  have hs₁ := SameControl.of_phydev hd₁ he₁
  refine ensures_phyReadInt_bind (hs₁.isSome hbus) fun status w₂ hd₂ he₂ => ?_
  have hs₂ := hs₁.trans (SameControl.of_phydev hd₂ he₂)
  rw [ensures_bind, ensures_setDev, ensures_pure]
  refine ⟨rfl, hs₂.trans ⟨rfl, rfl, rfl, rfl, rfl⟩, ?_⟩
  by_cases hl : status &&& bmsrLstatus = 0
  · exact Or.inl (if_pos hl)
  · exact Or.inr (if_neg hl)

/-- What the mode branches of `genphy_read_status` keep besides the
control fields: the link just read. -/
theorem genphyReadLpagb_spec :
    Ensures genphyReadLpagb w fun r w' =>
      (∃ v, r = .ok v) ∧ w'.phydev = w.phydev ∧ w'.events = w.events := by
  rw [genphyReadLpagb, ensures_bind, ensures_getDev]
  split
  · rw [ensures_pure]
    exact ⟨⟨0, rfl⟩, rfl, rfl⟩
  · refine ensures_phyReadInt_bind hbus fun lpagb w₁ hd₁ he₁ => ?_
    refine ensures_phyReadInt_bind (by rw [hd₁]; exact hbus) fun adv w₂ hd₂ he₂ => ?_
    rw [ensures_pure]
    exact ⟨⟨_, rfl⟩, hd₂.trans hd₁, he₂.trans he₁⟩

theorem genphyReadNegotiated_spec :
    Ensures genphyReadNegotiated w fun r w' =>
      r = 0 ∧ SameControl w w' ∧ w'.phydev.link = w.phydev.link := by
  refine (genphyReadLpagb_spec hbus).bind ?_
  rintro _ w₁ ⟨⟨lpagb, rfl⟩, hd₁, he₁⟩
  refine ensures_phyReadInt_bind (by rw [hd₁]; exact hbus) fun lpa w₂ hd₂ he₂ => ?_
  refine ensures_phyReadInt_bind (by rw [hd₂, hd₁]; exact hbus) fun adv w₃ hd₃ he₃ => ?_
  have hd : w₃.phydev = w.phydev := hd₃.trans (hd₂.trans hd₁)
  have hs := SameControl.of_phydev hd (he₃.trans (he₂.trans he₁))
  rw [ensures_bind, ensures_setDev, ensures_pure]
  refine ⟨rfl, hs.trans ⟨rfl, rfl, rfl, rfl, rfl⟩, ?_⟩
  show w₃.phydev.link = w.phydev.link
  rw [hd]

theorem genphyReadForced_spec :
    Ensures genphyReadForced w fun r w' =>
      r = 0 ∧ SameControl w w' ∧ w'.phydev.link = w.phydev.link := by
  refine ensures_phyReadInt_bind hbus fun bmcr w₁ hd₁ he₁ => ?_
  have hs := SameControl.of_phydev hd₁ he₁
  rw [ensures_bind, ensures_setDev, ensures_pure]
  refine ⟨rfl, hs.trans ⟨rfl, rfl, rfl, rfl, rfl⟩, ?_⟩
  show w₁.phydev.link = w.phydev.link
  rw [hd₁]

/-- **`genphy_read_status` succeeds with a fresh link value.** -/
theorem genphyReadStatus_spec :
    Ensures genphyReadStatus w fun r w' =>
      r = 0 ∧ SameControl w w' ∧ (w'.phydev.link = 0 ∨ w'.phydev.link = 1) := by
  refine (genphyUpdateLink_spec hbus).bind ?_
  rintro _ w₁ ⟨rfl, hs₁, hl₁⟩
  rw [if_neg (fun h => h rfl), ensures_bind, ensures_getDev]
  have hmode : ∀ m : Cmd (PhyWorld σ) CInt,
      (Ensures m w₁ fun r w' => r = 0 ∧ SameControl w₁ w' ∧ w'.phydev.link = w₁.phydev.link) →
      Ensures m w₁ fun r w' =>
        r = 0 ∧ SameControl w w' ∧ (w'.phydev.link = 0 ∨ w'.phydev.link = 1) := by
    intro m hm
    refine hm.mono ?_
    rintro r w₂ ⟨hr, hs₂, hl₂⟩
    exact ⟨hr, hs₁.trans hs₂, by rw [hl₂]; exact hl₁⟩
  split
  · exact hmode _ (genphyReadNegotiated_spec (hs₁.isSome hbus))
  · exact hmode _ (genphyReadForced_spec (hs₁.isSome hbus))

theorem genphyConfigAdvert_spec :
    Ensures genphyConfigAdvert w fun r w' => (r = 0 ∨ r = 1) ∧ SameControl w w' := by
  rw [genphyConfigAdvert, ensures_bind, ensures_setDev, ensures_bind, ensures_getDev]
  dsimp only
  refine ensures_phyReadInt_bind (by exact hbus) fun oldadv w₁ hd₁ he₁ => ?_
  have hs := SameControl.of_phydev hd₁ he₁
  have hs₁ : SameControl w w₁ := ⟨hs.state, hs.autoneg, hs.bus, hs.ndev, hs.events⟩
  split
  · refine (phyWrite_spec (hs₁.isSome hbus) _ _).bind ?_
    rintro _ w₂ ⟨hd₂, he₂⟩
    rw [ensures_pure]
    exact ⟨Or.inr rfl, hs₁.trans (SameControl.of_phydev hd₂ he₂)⟩
  · rw [ensures_pure]
    exact ⟨Or.inl rfl, hs₁⟩

theorem genphyNeedsRestart_spec :
    Ensures genphyNeedsRestart w fun r w' => (r = 0 ∨ r = 1) ∧ SameControl w w' := by
  refine ensures_phyReadInt_bind hbus fun ctl w₁ hd₁ he₁ => ?_
  have hs₁ := SameControl.of_phydev hd₁ he₁
  split
  · rw [ensures_pure]
    exact ⟨Or.inr rfl, hs₁⟩
  · rw [ensures_pure]
    exact ⟨Or.inl rfl, hs₁⟩

theorem genphyRestartAneg_spec :
    Ensures genphyRestartAneg w fun r w' => r = 0 ∧ SameControl w w' := by
  refine ensures_phyReadInt_bind hbus fun ctl w₁ hd₁ he₁ => ?_
  have hs₁ := SameControl.of_phydev hd₁ he₁
  refine (phyWrite_spec (hs₁.isSome hbus) _ _).bind ?_
  rintro _ w₂ ⟨hd₂, he₂⟩
  rw [ensures_pure]
  exact ⟨rfl, hs₁.trans (SameControl.of_phydev hd₂ he₂)⟩

theorem genphySetupForced_spec :
    Ensures genphySetupForced w fun _ w' => SameControl w w' := by
  rw [genphySetupForced, ensures_bind, ensures_setDev, ensures_bind, ensures_getDev]
  dsimp only
  refine (phyWrite_spec (by exact hbus) _ _).mono ?_
  rintro _ w₁ ⟨hd₁, he₁⟩
  have hs := SameControl.of_phydev hd₁ he₁
  exact ⟨hs.state, hs.autoneg, hs.bus, hs.ndev, hs.events⟩

/-- **`genphy_config_aneg` never fails** and leaves the control fields. -/
theorem genphyConfigAneg_spec :
    Ensures genphyConfigAneg w fun r w' => r = 0 ∧ SameControl w w' := by
  rw [genphyConfigAneg, ensures_bind, ensures_getDev]
  split
  · refine (genphySetupForced_spec hbus).bind ?_
    intro _ w₁ hs₁
    rw [ensures_pure]
    exact ⟨rfl, hs₁⟩
  · -- the last test of the function, on a `result` that is 0 or 1
    have hlast : ∀ (r : CInt) (w' : PhyWorld σ), (r = 0 ∨ r = 1) ∧ SameControl w w' →
        Ensures (if (0 : CInt).slt r then genphyRestartAneg else pure r) w'
          fun r w'' => r = 0 ∧ SameControl w w'' := by
      rintro r w' ⟨rfl | rfl, hs⟩
      · rw [if_neg (by decide), ensures_pure]
        exact ⟨rfl, hs⟩
      · rw [if_pos (by decide)]
        refine (genphyRestartAneg_spec (hs.isSome hbus)).mono ?_
        rintro r w'' ⟨hr, hs'⟩
        exact ⟨hr, hs.trans hs'⟩
    refine (genphyConfigAdvert_spec hbus).bind ?_
    rintro r w₁ ⟨hr, hs₁⟩
    rw [if_neg (by rcases hr with rfl | rfl <;> decide)]
    dsimp only
    split
    · refine (genphyNeedsRestart_spec (hs₁.isSome hbus)).bind ?_
      rintro r' w₂ ⟨hr', hs₂⟩
      exact hlast r' w₂ ⟨hr', hs₁.trans hs₂⟩
    · rw [ensures_bind, ensures_pure]
      exact hlast r w₁ ⟨hr, hs₁⟩

end Driver

end EthPhy

end Hgsdk

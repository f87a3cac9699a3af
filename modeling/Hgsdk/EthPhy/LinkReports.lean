import Hgsdk.EthPhy.Frame
/-!
# The PHY's state, its link and what was reported

The thread that polls the PHY keeps three things in step: the state of
the machine, `phydev->link`, and the last link value delivered to the
network device. `LinkReports` says how, and one poll preserves it from
whatever the registers hold, so it holds after every poll of an opened
PHY.
-/

namespace Hgsdk

namespace EthPhy

variable {σ : Type} {w w' : PhyWorld σ}

/-- The last event delivered went to this device's `ndev` and reported the
link value `l`. -/
def LastReported (w : PhyWorld σ) (l : BitVec 32) : Prop :=
  ∃ nd, w.phydev.ndev = some nd ∧ w.events.getLast? = some ⟨nd, l, 0⟩

/-- **State, link and reports agree.** -/
structure LinkReports (w : PhyWorld σ) : Prop where
  /-- Only the five live states are reached. -/
  live : w.phydev.state ∈ [PhyState.up, .an, .forcing, .running, .nolink]
  running : w.phydev.state = .running → w.phydev.link = 1 ∧ LastReported w 1
  nolink : w.phydev.state = .nolink → w.phydev.link = 0 ∧ LastReported w 0
  an : w.phydev.state = .an → w.phydev.autoneg = autonegEnable
  forcing : w.phydev.state = .forcing → w.phydev.autoneg = autonegDisable

/-- The device's pointers are in place and its negotiation mode is one of
the two. -/
structure Attached (w : PhyWorld σ) : Prop where
  bus : w.phydev.bus.isSome
  ndev : w.phydev.ndev.isSome
  autoneg : w.phydev.autoneg = autonegEnable ∨ w.phydev.autoneg = autonegDisable

theorem Attached.of_sameControl (h : Attached w) (hs : SameControl w w') : Attached w' where
  bus := hs.isSome h.bus
  ndev := by rw [hs.ndev]; exact h.ndev
  autoneg := by rw [hs.autoneg]; exact h.autoneg

/-- The invariant of the polling thread. -/
structure PhyInv (w : PhyWorld σ) : Prop extends Attached w, LinkReports w

/-! ### Entering a state -/

/-- What holds of a world in a state that owes no report. -/
theorem PhyInv.of_waiting (h : Attached w)
    (hst : w.phydev.state = .up ∨
      w.phydev.state = .an ∧ w.phydev.autoneg = autonegEnable ∨
      w.phydev.state = .forcing ∧ w.phydev.autoneg = autonegDisable) : PhyInv w := by
  rcases hst with hst | ⟨hst, ha⟩ | ⟨hst, ha⟩
  all_goals
    refine ⟨h, ?_, ?_, ?_, ?_, ?_⟩
    all_goals simp [*]

/-- What holds of a world whose state stands for the link last reported. -/
theorem PhyInv.of_reported (h : Attached w)
    (hst : w.phydev.state = .running ∧ w.phydev.link = 1 ∧ LastReported w 1 ∨
      w.phydev.state = .nolink ∧ w.phydev.link = 0 ∧ LastReported w 0) : PhyInv w := by
  rcases hst with ⟨hst, hl, hr⟩ | ⟨hst, hl, hr⟩
  · refine ⟨h, by simp [hst], fun _ => ⟨hl, hr⟩, ?_, ?_, ?_⟩
    all_goals exact fun hst' => nomatch hst.symm.trans hst'
  · refine ⟨h, by simp [hst], ?_, fun _ => ⟨hl, hr⟩, ?_, ?_⟩
    all_goals exact fun hst' => nomatch hst.symm.trans hst'

/-- A state entered together with a report of the link it stands for. -/
theorem PhyInv.of_report {st : PhyState} {nd : Netdev} (h : Attached w)
    (hnd : w.phydev.ndev = some nd)
    (hst : st = .running ∧ w.phydev.link = 1 ∨ st = .nolink ∧ w.phydev.link = 0) :
    PhyInv { w with
      phydev := { w.phydev with state := st }
      events := w.events ++ [⟨nd, w.phydev.link.signExtend 32, 0⟩] } := by
  refine PhyInv.of_reported ⟨h.bus, h.ndev, h.autoneg⟩ ?_
  rcases hst with ⟨rfl, hl⟩ | ⟨rfl, hl⟩
  · refine Or.inl ⟨rfl, hl, nd, hnd, ?_⟩
    rw [List.getLast?_concat, hl]
    rfl
  · refine Or.inr ⟨rfl, hl, nd, hnd, ?_⟩
    rw [List.getLast?_concat, hl]
    rfl

/-! ### One poll, state by state -/

/-- A driver that uses the two generic functions. Its own `config_init`
may do anything to the device but take its pointers away. -/
structure PhyDriver.UsesGenphy (drv : PhyDriver σ) : Prop where
  configAneg : drv.configAneg = genphyConfigAneg
  readStatus : drv.readStatus = genphyReadStatus
  configInit : ∀ w r w', drv.configInit w = some (r, w') →
    w'.phydev.bus = w.phydev.bus ∧ w'.phydev.ndev = w.phydev.ndev

variable {drv : PhyDriver σ}

theorem ethPhyFindValid_lt (idx : ℕ) (features : BitVec 32) :
    ethPhyFindValid idx features < settings.length := by
  rw [ethPhyFindValid]
  split
  · assumption
  · decide

/-- The index found is one of the table's, and the negotiation mode can
only be switched off where it was off already. -/
theorem ethPhySanitizeSettings_spec (h : w.phydev.autoneg = autonegDisable) :
    Ensures ethPhySanitizeSettings w fun _ w' => SameControl w w' := by
  rw [ethPhySanitizeSettings, ensures_bind, ensures_getDev]
  dsimp only
  split
  all_goals
    simp only [ensures_bind, ensures_setDev, ensures_getDev, ensures_deref]
    refine ⟨_, List.getElem?_eq_getElem (ethPhyFindValid_lt _ _), ?_⟩
    exact ⟨rfl, by simp [h], rfl, rfl, rfl⟩

/-- **What starting a negotiation does**: it succeeds, and all it changes of
the control is the state, to that of the negotiation mode unless the PHY is
halted. -/
theorem ethPhyStartAneg_state (hdrv : drv.UsesGenphy) (hbus : w.phydev.bus.isSome) :
    Ensures (ethPhyStartAneg drv) w fun ok w' =>
      ok = true ∧ ∃ w₂, SameControl w w₂ ∧
        w' = if w₂.phydev.state ≠ .halted then
            { w₂ with phydev := { w₂.phydev with
                state := if autonegEnable = w₂.phydev.autoneg then .an else .forcing } }
          else w₂ := by
  -- the part after the settings have been looked at
  have hrest : ∀ w₁, SameControl w w₁ → Ensures (do
      let err ← drv.configAneg
      if err.slt 0 then
        return false
      if (← getDev).state ≠ .halted then
        setDev fun d => { d with
          state := if autonegEnable = d.autoneg then .an else .forcing }
      return true) w₁ fun ok w' =>
        ok = true ∧ ∃ w₂, SameControl w w₂ ∧
          w' = if w₂.phydev.state ≠ .halted then
              { w₂ with phydev := { w₂.phydev with
                  state := if autonegEnable = w₂.phydev.autoneg then .an else .forcing } }
            else w₂ := by
    intro w₁ hs₁
    rw [hdrv.configAneg]
    refine (genphyConfigAneg_spec (hs₁.isSome hbus)).bind ?_
    rintro _ w₂ ⟨rfl, hs₂⟩
    rw [if_neg (by decide), ensures_bind, ensures_getDev]
    dsimp only
    split
    next hst =>
      rw [ensures_bind, ensures_setDev, ensures_pure]
      exact ⟨rfl, w₂, hs₁.trans hs₂, (if_pos hst).symm⟩
    next hst =>
      rw [ensures_pure]
      exact ⟨rfl, w₂, hs₁.trans hs₂, (if_neg hst).symm⟩
  rw [ethPhyStartAneg, ensures_bind, ensures_getDev]
  dsimp only
  split
  next hauto => exact (ethPhySanitizeSettings_spec hauto.symm).bind fun _ w₁ hs₁ => hrest w₁ hs₁
  next => exact hrest w (SameControl.refl w)

/-- **Starting a negotiation** puts the machine into the state of its
negotiation mode. -/
theorem ethPhyStartAneg_spec (hdrv : drv.UsesGenphy) (h : PhyInv w) :
    Ensures (ethPhyStartAneg drv) w fun _ w' => PhyInv w' := by
  refine (ethPhyStartAneg_state hdrv h.bus).mono ?_
  rintro ok w' ⟨-, w₂, hs₂, rfl⟩
  have ha₂ := h.toAttached.of_sameControl hs₂
  have hst : w₂.phydev.state ≠ .halted := by
    rw [hs₂.state]
    intro hhalt
    have hlive := h.live
    rw [hhalt] at hlive
    revert hlive
    decide
  rw [if_pos hst]
  refine PhyInv.of_waiting ⟨ha₂.bus, ha₂.ndev, ha₂.autoneg⟩ (Or.inr ?_)
  rcases ha₂.autoneg with hauto | hauto
  · exact Or.inl ⟨if_pos hauto.symm, hauto⟩
  · refine Or.inr ⟨if_neg ?_, hauto⟩
    rw [hauto]
    decide

/-- A fresh link value is a report's value: 1 is *up*, 0 is *down*. -/
theorem link_eq_one (h : w.phydev.link = 0 ∨ w.phydev.link = 1) (hne : w.phydev.link ≠ 0) :
    w.phydev.link = 1 := h.resolve_left hne

theorem ethPhyAnegDone_spec (hbus : w.phydev.bus.isSome) :
    Ensures ethPhyAnegDone w fun err w' =>
      err.slt 0 = false ∧ w'.phydev = w.phydev ∧ w'.events = w.events := by
  refine (phyReadInt_spec hbus miiBmsr).bind ?_
  rintro v w₁ ⟨hv, hd, he⟩
  have hsign : (v &&& bmsrAnegcomplete).slt 0 = false := by
    have hmsb : (v &&& bmsrAnegcomplete).msb = false := by
      rw [BitVec.msb_and]
      exact Bool.and_false _
    exact BitVec.slt_zero_eq_msb.trans hmsb
  rw [ensures_pure, hv]
  exact ⟨hsign, hd, he⟩

theorem pollAn_spec (hdrv : drv.UsesGenphy) (h : PhyInv w) (hst : w.phydev.state = .an) :
    Ensures (pollAn drv) w fun _ w' => PhyInv w' := by
  rw [pollAn, hdrv.readStatus]
  refine (genphyReadStatus_spec h.bus).bind ?_
  rintro _ w₁ ⟨rfl, hs₁, hl₁⟩
  have ha₁ := h.toAttached.of_sameControl hs₁
  obtain ⟨nd, hnd⟩ := Option.isSome_iff_exists.1 ha₁.ndev
  rw [if_neg (by decide), ensures_bind, ensures_getDev]
  split
  · rename_i hdown
    simp only [ensures_bind, ensures_setDev, ensures_phyEventLink, ensures_pure]
    exact ⟨nd, hnd, PhyInv.of_report ha₁ hnd (Or.inr ⟨rfl, hdown⟩)⟩
  · rename_i hup
    refine (ethPhyAnegDone_spec ha₁.bus).bind ?_
    rintro err w₂ ⟨-, hd₂, he₂⟩
    have hs₂ := hs₁.trans (SameControl.of_phydev hd₂ he₂)
    have ha₂ := h.toAttached.of_sameControl hs₂
    have hnd₂ : w₂.phydev.ndev = some nd := by rw [hd₂]; exact hnd
    have hlink₂ : w₂.phydev.link = 1 := by rw [hd₂]; exact link_eq_one hl₁ hup
    -- still negotiating, whatever the timeout counter says
    have hauto₂ : w₂.phydev.autoneg = autonegEnable := hs₂.autoneg.trans (h.an hst)
    have hst₂ : w₂.phydev.state = .an := hs₂.state.trans hst
    split
    · rw [ensures_pure]
      exact PhyInv.of_waiting ha₂ (Or.inr (Or.inl ⟨hst₂, hauto₂⟩))
    · split
      · simp only [ensures_bind, ensures_setDev, ensures_phyEventLink, ensures_pure]
        exact ⟨nd, hnd₂, PhyInv.of_report ha₂ hnd₂ (Or.inl ⟨rfl, hlink₂⟩)⟩
      · rw [ensures_linkTimeoutDec]
        exact PhyInv.of_waiting ⟨ha₂.bus, ha₂.ndev, ha₂.autoneg⟩
          (Or.inr (Or.inl ⟨hst₂, hauto₂⟩))

theorem pollNolink_spec (hdrv : drv.UsesGenphy) (h : PhyInv w)
    (hst : w.phydev.state = .nolink) :
    Ensures (pollNolink drv) w fun _ w' => PhyInv w' := by
  rw [pollNolink, hdrv.readStatus]
  refine (genphyReadStatus_spec h.bus).bind ?_
  rintro _ w₁ ⟨rfl, hs₁, hl₁⟩
  have ha₁ := h.toAttached.of_sameControl hs₁
  obtain ⟨nd, hnd⟩ := Option.isSome_iff_exists.1 ha₁.ndev
  rw [if_neg (fun h => h rfl), ensures_bind, ensures_getDev]
  split
  · rename_i hup
    simp only [ensures_bind, ensures_setDev, ensures_phyEventLink, ensures_pure]
    exact ⟨nd, hnd, PhyInv.of_report ha₁ hnd (Or.inl ⟨rfl, link_eq_one hl₁ hup⟩)⟩
  · rename_i hdown
    rw [ensures_pure]
    -- nothing was reported, and nothing had to be: the last report stands
    obtain ⟨-, nd', hnd', hlast⟩ := h.nolink hst
    have hst₁ : w₁.phydev.state = .nolink := hs₁.state.trans hst
    have hrep : LastReported w₁ 0 := ⟨nd', by rw [hs₁.ndev, hnd'], by rw [hs₁.events, hlast]⟩
    exact PhyInv.of_reported ha₁ (Or.inr ⟨hst₁, not_not.1 hdown, hrep⟩)

theorem pollForcing_spec (h : PhyInv w) (hst : w.phydev.state = .forcing) :
    Ensures pollForcing w fun _ w' => PhyInv w' := by
  rw [pollForcing]
  refine (genphyUpdateLink_spec h.bus).bind ?_
  rintro _ w₁ ⟨rfl, hs₁, hl₁⟩
  have ha₁ := h.toAttached.of_sameControl hs₁
  obtain ⟨nd, hnd⟩ := Option.isSome_iff_exists.1 ha₁.ndev
  rw [if_neg (fun h => h rfl), ensures_bind, ensures_getDev]
  split
  · rename_i hup
    simp only [ensures_bind, ensures_setDev, ensures_phyEventLink, ensures_pure]
    exact ⟨nd, hnd, PhyInv.of_report ha₁ hnd (Or.inl ⟨rfl, link_eq_one hl₁ hup⟩)⟩
  · simp only [ensures_bind, ensures_linkTimeoutDec, ensures_phyEventLink, ensures_pure]
    refine ⟨nd, hnd, PhyInv.of_waiting ⟨ha₁.bus, ha₁.ndev, ha₁.autoneg⟩ (Or.inr (Or.inr ?_))⟩
    exact ⟨hs₁.state.trans hst, hs₁.autoneg.trans (h.forcing hst)⟩

theorem pollRunning_spec (hdrv : drv.UsesGenphy) (h : PhyInv w) :
    Ensures (pollRunning drv) w fun _ w' => PhyInv w' := by
  rw [pollRunning, hdrv.readStatus]
  refine (genphyReadStatus_spec h.bus).bind ?_
  rintro _ w₁ ⟨rfl, hs₁, hl₁⟩
  have ha₁ := h.toAttached.of_sameControl hs₁
  obtain ⟨nd, hnd⟩ := Option.isSome_iff_exists.1 ha₁.ndev
  rw [if_neg (fun h => h rfl)]
  simp only [ensures_bind, ensures_setDev, ensures_phyEventLink, ensures_pure]
  refine ⟨nd, hnd, PhyInv.of_report ha₁ hnd ?_⟩
  rcases hl₁ with hl | hl
  · exact Or.inr ⟨if_neg (fun hne => hne hl), hl⟩
  · exact Or.inl ⟨if_pos (by rw [hl]; decide), hl⟩

/-- **One poll preserves the invariant**, whatever the registers hold. -/
theorem ethPhyStateMachine_spec (hdrv : drv.UsesGenphy) (h : PhyInv w) :
    Ensures (ethPhyStateMachine drv) w fun _ w' => PhyInv w' := by
  have hpoll : Ensures (pollState drv w.phydev.state) w fun _ w' => PhyInv w' := by
    have hlive := h.live
    generalize hst : w.phydev.state = st at hlive ⊢
    simp only [List.mem_cons, List.not_mem_nil, or_false] at hlive
    rcases hlive with rfl | rfl | rfl | rfl | rfl
    · exact ensures_pure.2 h
    · exact pollAn_spec hdrv h hst
    · exact pollForcing_spec h hst
    · exact pollRunning_spec hdrv h
    · exact pollNolink_spec hdrv h hst
  rw [ethPhyStateMachine, ensures_bind, ensures_getDev]
  refine hpoll.bind ?_
  intro needsAneg w₁ h₁
  split
  · refine (ethPhyStartAneg_spec hdrv h₁).bind ?_
    intro _ w₂ h₂
    exact ensures_pure.2 h₂
  · exact ensures_pure.2 h₁

/-- **Every poll of the thread returns** and preserves the invariant. -/
theorem PhyInv.exists_step (hdrv : drv.UsesGenphy) (h : PhyInv w) (mdio : σ) :
    ∃ u, (phyThread drv).step w mdio = some u ∧ PhyInv u := by
  have h' : PhyInv { w with mdio } :=
    ⟨⟨h.bus, h.ndev, h.autoneg⟩, h.live, h.running, h.nolink, h.an, h.forcing⟩
  obtain ⟨r, u, hu, hinv⟩ := ethPhyStateMachine_spec hdrv h'
  exact ⟨u, Option.map_eq_some_iff.2 ⟨(r, u), hu, rfl⟩, hinv⟩

/-! ### Opening the PHY -/

/-- The device still has the pointers it was opened with. -/
structure SamePointers (w w' : PhyWorld σ) : Prop where
  bus : w'.phydev.bus = w.phydev.bus
  ndev : w'.phydev.ndev = w.phydev.ndev

theorem SamePointers.trans {w₁ w₂ : PhyWorld σ} (h : SamePointers w w₁)
    (h' : SamePointers w₁ w₂) : SamePointers w w₂ :=
  ⟨h'.bus.trans h.bus, h'.ndev.trans h.ndev⟩

theorem ethGetPhyId_spec (hbus : w.phydev.bus.isSome) :
    Ensures ethGetPhyId w fun _ w' => SamePointers w w' := by
  refine ensures_phyReadInt_bind hbus fun id₁ w₁ hd₁ _ => ?_
  rw [ensures_bind, ensures_setDev]
  refine ensures_phyReadInt_bind (by show w₁.phydev.bus.isSome; rw [hd₁]; exact hbus)
    fun id₂ w₂ hd₂ _ => ?_
  have hp : SamePointers w w₂ := ⟨by rw [hd₂, hd₁], by rw [hd₂, hd₁]⟩
  rw [ensures_bind, ensures_setDev, ensures_bind, ensures_getDev]
  dsimp only
  split
  · rw [ensures_pure]
    exact ⟨hp.bus, hp.ndev⟩
  · rw [ensures_pure]
    exact ⟨hp.bus, hp.ndev⟩

/-- The search tries one address after another and moves nothing but the
address and the identifier. -/
theorem ethPhyScan_spec (addrs : List ℕ) (hbus : w.phydev.bus.isSome) :
    Ensures (ethPhyScan addrs) w fun _ w' => SamePointers w w' := by
  induction addrs generalizing w with
  | nil =>
    rw [ethPhyScan, ensures_pure]
    exact ⟨rfl, rfl⟩
  | cons i rest ih =>
    rw [ethPhyScan, ensures_bind, ensures_setDev]
    refine (ethGetPhyId_spec (by exact hbus)).bind ?_
    intro err w₁ hp₁
    have hp : SamePointers w w₁ := ⟨hp₁.bus, hp₁.ndev⟩
    rw [ensures_bind, ensures_getDev]
    split
    · rw [ensures_pure]
      exact hp
    · refine (ih (by rw [hp.bus]; exact hbus)).mono ?_
      intro _ w₂ hp₂
      exact hp.trans hp₂

theorem ethGetPhyDevice_spec (hbus : w.phydev.bus.isSome) :
    Ensures ethGetPhyDevice w fun _ w' => SamePointers w w' := by
  -- the two checks after the identifier was read
  have hrest : ∀ (found : Bool) (w₁ : PhyWorld σ), SamePointers w w₁ → Ensures (do
      if !found then
        return false
      if MostlyFs (← getDev).phyId then
        return false
      ethPhyDeviceCreate
      return true) w₁ fun _ w' => SamePointers w w' := by
    intro found w₁ hp
    split
    · rw [ensures_pure]
      exact hp
    · rw [ensures_bind, ensures_getDev]
      split
      · rw [ensures_pure]
        exact hp
      · rw [ethPhyDeviceCreate, ensures_bind, ensures_setDev, ensures_pure]
        exact ⟨hp.bus, hp.ndev⟩
  rw [ethGetPhyDevice, ensures_bind, ensures_getDev]
  split
  · refine (ethPhyScan_spec _ hbus).bind ?_
    intro found w₁ hp
    exact hrest found w₁ hp
  · refine (ethGetPhyId_spec hbus).bind ?_
    intro err w₁ hp
    rw [ensures_bind, ensures_pure]
    exact hrest _ w₁ hp

/-- **An opened PHY is in state `UP`** with a negotiation mode of the two
and the pointers it was given. -/
theorem phyInv_of_ethPhyOpen (hdrv : drv.UsesGenphy) {bus : MdioBus σ} {nd : Netdev}
    (h : ethPhyOpen drv (some bus) (some nd) w = some (retOk, w')) : PhyInv w' := by
  have hopen : Ensures (ethPhyOpen drv (some bus) (some nd)) w fun r v => r = retOk ∧ v = w' :=
    ⟨retOk, w', h, rfl, rfl⟩
  rw [ethPhyOpen, if_neg (by simp), ensures_bind, ensures_setDev, ensures_bind] at hopen
  obtain ⟨found, w₁, hget, hopen⟩ := hopen
  have hp₁ := (ethGetPhyDevice_spec (by rfl)).of_eq hget
  split at hopen
  · exact absurd (ensures_pure.1 hopen).1 (by decide)
  rw [ensures_bind, ensures_setDev, ensures_bind, ethPhyConnectDirect, ensures_bind,
    ethPhyAttachDirect, ensures_bind, ensures_setDev] at hopen
  obtain ⟨flag, w₂, hinit, hopen⟩ := hopen
  obtain ⟨hbus₂, hndev₂⟩ := hdrv.configInit _ _ _ hinit
  -- either failure of the connection is a failure of the open
  have hflag : flag ≠ retErr := by
    rintro rfl
    rw [if_pos rfl, ensures_pure, if_pos rfl] at hopen
    exact absurd (ensures_pure.1 hopen).1 (by decide)
  rw [if_neg hflag, ensures_pure, if_neg (by decide), ensures_bind, ensures_setDev,
    ensures_pure] at hopen
  obtain ⟨-, rfl⟩ := hopen
  refine PhyInv.of_waiting ⟨?_, ?_, ?_⟩ (Or.inl rfl)
  · show w₂.phydev.bus.isSome
    rw [hbus₂]
    show w₁.phydev.bus.isSome
    rw [hp₁.bus]
    rfl
  · show w₂.phydev.ndev.isSome
    rw [hndev₂]
    show w₁.phydev.ndev.isSome
    rw [hp₁.ndev]
    rfl
  · show (if drv.features &&& supportedAutoneg ≠ 0 then autonegEnable else autonegDisable) = _ ∨
      (if drv.features &&& supportedAutoneg ≠ 0 then autonegEnable else autonegDisable) = _
    split
    · exact Or.inl rfl
    · exact Or.inr rfl

theorem genphyConfigInit_spec (hbus : w.phydev.bus.isSome) :
    Ensures genphyConfigInit w fun r w' => r = 0 ∧ SamePointers w w' := by
  rw [genphyConfigInit]
  dsimp only
  refine ensures_phyReadInt_bind hbus fun val w₁ hd₁ _ => ?_
  split
  · refine ensures_phyReadInt_bind (by rw [hd₁]; exact hbus) fun val₂ w₂ hd₂ _ => ?_
    have hp : SamePointers w w₂ := ⟨by rw [hd₂, hd₁], by rw [hd₂, hd₁]⟩
    rw [ensures_bind, ensures_setDev, ensures_pure]
    exact ⟨rfl, hp.bus, hp.ndev⟩
  · have hp : SamePointers w w₁ := ⟨by rw [hd₁], by rw [hd₁]⟩
    rw [ensures_bind, ensures_setDev, ensures_pure]
    exact ⟨rfl, hp.bus, hp.ndev⟩

/-- The generic driver itself is one of the drivers meant. -/
theorem genphyDriver_usesGenphy : (genphyDriver : PhyDriver σ).UsesGenphy where
  configAneg := rfl
  readStatus := rfl
  configInit w r w' h := by
    -- without a bus the first read faults, so there is one
    have hread : Ensures genphyConfigInit w fun _ _ => True := ⟨r, w', h, trivial⟩
    simp only [genphyConfigInit, phyReadInt, phyRead, ensures_bind, ensures_get,
      ensures_deref] at hread
    obtain ⟨bus, hbus, -⟩ := hread
    obtain ⟨-, hp⟩ := (genphyConfigInit_spec (by rw [hbus]; rfl)).of_eq h
    exact ⟨hp.bus, hp.ndev⟩

/-- **State, link and reports agree after every poll.** A PHY that
`eth_phy_open` opened, with any driver that uses the generic negotiation
and status functions, is polled any number of times over registers that
hold anything: every poll returns, and leaves the state, the link and the
last event delivered to the network device consistent. -/
theorem phy_link_reports (hdrv : drv.UsesGenphy) {bus : MdioBus σ} {nd : Netdev}
    (hopen : ethPhyOpen drv (some bus) (some nd) w = some (retOk, w')) (polls : List σ) :
    ∃ v, (phyThread drv).run w' polls = some v ∧ LinkReports v := by
  obtain ⟨v, hrun, hv⟩ := Machine.exists_run (M := phyThread drv)
    (fun _ mdio hv => hv.exists_step hdrv mdio) (phyInv_of_ethPhyOpen hdrv hopen) polls
  exact ⟨v, hrun, hv.toLinkReports⟩

/-- A bus whose registers are storage, the same at every address. -/
def plainBus : MdioBus (BitVec 16 → BitVec 16) where
  read regs _ reg := ((regs reg).setWidth 32, regs)
  write regs _ reg val := Function.update regs reg val

/-- A device object before it is opened, at address 1. -/
def closedPhy (regs : BitVec 16 → BitVec 16) : PhyWorld (BitVec 16 → BitVec 16) where
  phydev :=
    { addr := 1, bus := none, ndev := none, phyId := 0, state := .down, speed := 0, duplex := 0
      pause := 0, asymPause := 0, link := 0, supported := 0, advertising := 0, autoneg := 0
      linkTimeout := 0, lastSpeed := 0, lastDuplex := 0, lastLink := 0 }
  mdio := regs
  events := []

/-- Registers of an identified PHY that can negotiate, with the status
register given. -/
def phyRegs (bmsr : BitVec 16) (reg : BitVec 16) : BitVec 16 :=
  if reg = miiPhysid1 then 0x0243 else if reg = miiPhysid2 then 0x0c54
  else if reg = miiBmsr then bmsr else 0

/-- What `eth_phy_open` makes of it: the abilities of the status register,
those of the basic features advertised. -/
def openedPhy : PhyWorld (BitVec 16 → BitVec 16) where
  phydev :=
    { addr := 1, bus := some plainBus, ndev := some 7, phyId := 0x02430c54, state := .up
      speed := 0, duplex := -1, pause := 0, asymPause := 0, link := 1, supported := 0xfcf
      advertising := 0x2cf, autoneg := autonegEnable, linkTimeout := 0, lastSpeed := 0
      lastDuplex := -1, lastLink := 0 }
  mdio := phyRegs 0x7829
  events := []

/-- Such a PHY is opened, negotiates, comes up, and loses its link: the two
reports are of that. -/
theorem phy_link_reports_up_down :
    ethPhyOpen genphyDriver (some plainBus) (some 7) (closedPhy (phyRegs 0x7829)) =
        some (retOk, openedPhy) ∧
      ∃ v, (phyThread genphyDriver).run openedPhy
          [phyRegs 0x782d, phyRegs 0x782d, phyRegs 0x7829] = some v ∧
        v.phydev.state = .nolink ∧ v.events = [⟨7, 1, 0⟩, ⟨7, 0, 0⟩] ∧ LinkReports v := by
  have hopen : ethPhyOpen genphyDriver (some plainBus) (some 7) (closedPhy (phyRegs 0x7829)) =
    some (retOk, openedPhy) := rfl
  obtain ⟨v, hrun, hreports⟩ := phy_link_reports genphyDriver_usesGenphy hopen
    [phyRegs 0x782d, phyRegs 0x782d, phyRegs 0x7829]
  obtain rfl := Option.some.inj hrun
  exact ⟨hopen, _, hrun, rfl, rfl, hreports⟩

end EthPhy

end Hgsdk

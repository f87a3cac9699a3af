import Hgsdk.EthPhy.LinkReports
import Hgsdk.EthPhy.Unseen
/-!
# Retries of a negotiation

A poll that finds the negotiation incomplete, or a forced link still down,
takes one off `link_timeout` and starts the negotiation again when it was
zero. Nothing ever sets the counter again. So it is bounded until the first
retry, and with that retry it wraps: the next one is 2³² polls away.
-/

namespace Hgsdk

namespace EthPhy

variable {σ : Type} {drv : PhyDriver σ} {w u : PhyWorld σ} {mdio : σ}

/-- `PHY_AN_TIMEOUT`. -/
def phyAnTimeout : BitVec 32 := 10

/-- **A poll that waits**: spent in `ETH_PHY_AN` with the link up and the
negotiation incomplete, or in `ETH_PHY_FORCING` without a link. -/
inductive Waits (drv : PhyDriver σ) (w : PhyWorld σ) : Prop
  | an {err : CInt} {w₁ w₂ : PhyWorld σ} (hst : w.phydev.state = .an)
      (hread : drv.readStatus w = some (err, w₁)) (herr : ¬ err.slt 0)
      (hlink : w₁.phydev.link ≠ 0) (hdone : ethPhyAnegDone w₁ = some (0, w₂))
  | forcing {w₁ : PhyWorld σ} (hst : w.phydev.state = .forcing)
      (hread : genphyUpdateLink w = some (0, w₁)) (hlink : w₁.phydev.link = 0)

/-- **The poll calls `config_aneg`**: the `switch` asks for a negotiation,
and `eth_phy_start_aneg` begins with the call. -/
def Calls (drv : PhyDriver σ) (w : PhyWorld σ) : Prop :=
  ∃ w₁, pollState drv w.phydev.state w = some (true, w₁)

/-- The poll of the thread that finds these registers waits. -/
def WaitsAt (drv : PhyDriver σ) (w : PhyWorld σ) (mdio : σ) : Prop := Waits drv { w with mdio }

/-- It calls `config_aneg`. -/
def CallsAt (drv : PhyDriver σ) (w : PhyWorld σ) (mdio : σ) : Prop := Calls drv { w with mdio }

/-! ### One poll -/

theorem blind_readStatus (hdrv : drv.UsesGenphy) (t : BitVec 32 → BitVec 32) :
    Blind (PhyWorld.other id t) drv.readStatus := by
  rw [hdrv.readStatus]
  exact blind_genphyReadStatus MdioBus.Alike.refl

theorem linkTimeout_updateLink {err : CInt} {w₁ : PhyWorld σ}
    (h : genphyUpdateLink w = some (err, w₁)) :
    w₁.phydev.linkTimeout = w.phydev.linkTimeout :=
  linkTimeout_of_blind (fun _ => blind_genphyUpdateLink MdioBus.Alike.refl) h

theorem linkTimeout_anegDone {err : CInt} {w₁ : PhyWorld σ}
    (h : ethPhyAnegDone w = some (err, w₁)) :
    w₁.phydev.linkTimeout = w.phydev.linkTimeout :=
  linkTimeout_of_blind (fun _ => blind_ethPhyAnegDone MdioBus.Alike.refl) h

theorem linkTimeout_startAneg (hdrv : drv.UsesGenphy) {r : Bool} {w₁ : PhyWorld σ}
    (h : ethPhyStartAneg drv w = some (r, w₁)) :
    w₁.phydev.linkTimeout = w.phydev.linkTimeout := by
  refine linkTimeout_of_blind (fun _ => blind_ethPhyStartAneg ?_) h
  rw [hdrv.configAneg]
  exact blind_genphyConfigAneg MdioBus.Alike.refl

/-- **What the `switch` does to the counter.** -/
structure Counted (drv : PhyDriver σ) (w : PhyWorld σ) (needsAneg : Bool) (w₁ : PhyWorld σ) :
    Prop where
  waits : Waits drv w → needsAneg = decide (0 = w.phydev.linkTimeout) ∧
    w₁.phydev.linkTimeout = w.phydev.linkTimeout - 1
  other : ¬ Waits drv w → w₁.phydev.linkTimeout = w.phydev.linkTimeout

/-- A poll that does not wait, and leaves the counter. -/
theorem Counted.of_not {needsAneg : Bool} {w₁ : PhyWorld σ} (hnot : ¬ Waits drv w)
    (hsame : w₁.phydev.linkTimeout = w.phydev.linkTimeout) : Counted drv w needsAneg w₁ :=
  ⟨fun h => absurd h hnot, fun _ => hsame⟩

theorem not_waits_of_state (han : w.phydev.state ≠ .an) (hforcing : w.phydev.state ≠ .forcing) :
    ¬ Waits drv w := by
  intro h
  cases h with
  | an hst => exact han hst
  | forcing hst => exact hforcing hst

/-- What a waiting poll has read is what was read. -/
theorem waits_an_iff {err : CInt} {w₁ : PhyWorld σ} (hst : w.phydev.state = .an)
    (hread : drv.readStatus w = some (err, w₁)) :
    Waits drv w ↔ ¬ err.slt 0 ∧ w₁.phydev.link ≠ 0 ∧
      ∃ w₂, ethPhyAnegDone w₁ = some (0, w₂) := by
  constructor
  · intro hwaits
    cases hwaits with
    | an _ hread' herr hlink hdone =>
      obtain ⟨rfl, rfl⟩ := Prod.mk.inj (Option.some.inj (hread.symm.trans hread'))
      exact ⟨herr, hlink, _, hdone⟩
    | forcing hst' => exact nomatch hst.symm.trans hst'
  · rintro ⟨herr, hlink, w₂, hdone⟩
    exact .an hst hread herr hlink hdone

theorem waits_forcing_iff {err : CInt} {w₁ : PhyWorld σ} (hst : w.phydev.state = .forcing)
    (hread : genphyUpdateLink w = some (err, w₁)) :
    Waits drv w ↔ err = 0 ∧ w₁.phydev.link = 0 := by
  constructor
  · intro hwaits
    cases hwaits with
    | an hst' => exact nomatch hst.symm.trans hst'
    | forcing _ hread' hlink =>
      obtain ⟨rfl, rfl⟩ := Prod.mk.inj (Option.some.inj (hread.symm.trans hread'))
      exact ⟨rfl, hlink⟩
  · rintro ⟨rfl, hlink⟩
    exact .forcing hst hread hlink

theorem counted_pollAn (hdrv : drv.UsesGenphy) (hst : w.phydev.state = .an) {needsAneg : Bool}
    {w₁ : PhyWorld σ} (h : pollAn drv w = some (needsAneg, w₁)) : Counted drv w needsAneg w₁ := by
  have hpoll : Ensures (pollAn drv) w fun r v => r = needsAneg ∧ v = w₁ := ⟨_, _, h, rfl, rfl⟩
  rw [pollAn, ensures_bind] at hpoll
  obtain ⟨err, v₁, hread, hpoll⟩ := hpoll
  have hsame₁ := linkTimeout_of_blind (blind_readStatus hdrv) hread
  have hwaits := waits_an_iff hst hread
  split at hpoll
  · rename_i herr
    obtain ⟨-, rfl⟩ := ensures_pure.1 hpoll
    exact .of_not (fun hw => (hwaits.1 hw).1 herr) hsame₁
  rw [ensures_bind, ensures_getDev] at hpoll
  split at hpoll
  · rename_i hlink
    simp only [ensures_bind, ensures_setDev, ensures_phyEventLink, ensures_pure] at hpoll
    obtain ⟨nd, -, -, rfl⟩ := hpoll
    exact .of_not (fun hw => (hwaits.1 hw).2.1 hlink) hsame₁
  rw [ensures_bind] at hpoll
  obtain ⟨err', v₂, hdone, hpoll⟩ := hpoll
  have hsame₂ := (linkTimeout_anegDone hdone).trans hsame₁
  have hzero : Waits drv w → err' = 0 := by
    intro hw
    obtain ⟨-, -, v₂', hdone'⟩ := hwaits.1 hw
    exact (Prod.mk.inj (Option.some.inj (hdone.symm.trans hdone'))).1
  split at hpoll
  · rename_i herr
    obtain ⟨-, rfl⟩ := ensures_pure.1 hpoll
    refine .of_not (fun hw => ?_) hsame₂
    rw [hzero hw] at herr
    exact absurd herr (by decide)
  split at hpoll
  · rename_i herr
    simp only [ensures_bind, ensures_setDev, ensures_phyEventLink, ensures_pure] at hpoll
    obtain ⟨nd, -, -, rfl⟩ := hpoll
    refine .of_not (fun hw => ?_) hsame₂
    rw [hzero hw] at herr
    exact absurd herr (by decide)
  · rename_i hneg hpos
    rw [ensures_linkTimeoutDec] at hpoll
    obtain ⟨rfl, rfl⟩ := hpoll
    rw [hsame₂]
    refine ⟨fun _ => ⟨rfl, rfl⟩, fun hnot => absurd ?_ hnot⟩
    obtain rfl := eq_zero_of_not_slt hneg hpos
    exact hwaits.2 ⟨‹_›, ‹_›, v₂, hdone⟩

theorem counted_pollForcing (hst : w.phydev.state = .forcing) {needsAneg : Bool}
    {w₁ : PhyWorld σ} (h : pollForcing w = some (needsAneg, w₁)) : Counted drv w needsAneg w₁ := by
  have hpoll : Ensures pollForcing w fun r v => r = needsAneg ∧ v = w₁ := ⟨_, _, h, rfl, rfl⟩
  rw [pollForcing, ensures_bind] at hpoll
  obtain ⟨err, v₁, hread, hpoll⟩ := hpoll
  have hsame₁ := linkTimeout_updateLink hread
  have hwaits : Waits drv w ↔ err = 0 ∧ v₁.phydev.link = 0 := waits_forcing_iff hst hread
  split at hpoll
  · rename_i herr
    obtain ⟨-, rfl⟩ := ensures_pure.1 hpoll
    exact .of_not (fun hw => herr (hwaits.1 hw).1) hsame₁
  rename_i herr
  obtain rfl := not_not.1 herr
  rw [ensures_bind, ensures_getDev] at hpoll
  split at hpoll
  · rename_i hlink
    simp only [ensures_bind, ensures_setDev, ensures_phyEventLink, ensures_pure] at hpoll
    obtain ⟨nd, -, -, rfl⟩ := hpoll
    exact .of_not (fun hw => hlink (hwaits.1 hw).2) hsame₁
  · rename_i hlink
    simp only [ensures_bind, ensures_linkTimeoutDec, ensures_phyEventLink, ensures_pure] at hpoll
    obtain ⟨nd, -, rfl, rfl⟩ := hpoll
    rw [hsame₁]
    exact ⟨fun _ => ⟨rfl, rfl⟩,
      fun hnot => absurd (hwaits.2 ⟨rfl, not_not.1 hlink⟩) hnot⟩

/-- **The `switch`, in any state.** -/
theorem counted_pollState (hdrv : drv.UsesGenphy) {needsAneg : Bool} {w₁ : PhyWorld σ}
    (h : pollState drv w.phydev.state w = some (needsAneg, w₁)) : Counted drv w needsAneg w₁ := by
  generalize hst : w.phydev.state = st at h
  cases st with
  | an => exact counted_pollAn hdrv hst h
  | forcing => exact counted_pollForcing hst h
  | nolink =>
    have hnot : ¬ Waits drv w := not_waits_of_state (by rw [hst]; nofun) (by rw [hst]; nofun)
    exact .of_not hnot
      (linkTimeout_of_blind (fun _ => blind_pollNolink (blind_readStatus hdrv _)) h)
  | running =>
    have hnot : ¬ Waits drv w := not_waits_of_state (by rw [hst]; nofun) (by rw [hst]; nofun)
    exact .of_not hnot
      (linkTimeout_of_blind (fun _ => blind_pollRunning (blind_readStatus hdrv _)) h)
  | halted =>
    have hnot : ¬ Waits drv w := not_waits_of_state (by rw [hst]; nofun) (by rw [hst]; nofun)
    exact .of_not hnot (linkTimeout_of_blind (fun _ => blind_pollHalted) h)
  | _ =>
    have hnot : ¬ Waits drv w := not_waits_of_state (by rw [hst]; nofun) (by rw [hst]; nofun)
    obtain ⟨-, rfl⟩ := Prod.mk.inj (Option.some.inj h)
    exact .of_not hnot rfl

/-- **One poll of the thread.** One that waits takes one off the counter,
and calls `config_aneg` where it was zero; the others leave the counter. -/
theorem step_linkTimeout (hdrv : drv.UsesGenphy) (hstep : (phyThread drv).step w mdio = some u) :
    (WaitsAt drv w mdio → (CallsAt drv w mdio ↔ w.phydev.linkTimeout = 0) ∧
      u.phydev.linkTimeout = w.phydev.linkTimeout - 1) ∧
    (¬ WaitsAt drv w mdio → u.phydev.linkTimeout = w.phydev.linkTimeout) := by
  obtain ⟨⟨_, u'⟩, hpoll, rfl⟩ := Option.map_eq_some_iff.1 hstep
  have hmachine : Ensures (ethPhyStateMachine drv) { w with mdio } fun _ v => v = u' :=
    ⟨_, _, hpoll, rfl⟩
  rw [ethPhyStateMachine, ensures_bind, ensures_getDev, ensures_bind] at hmachine
  obtain ⟨needsAneg, w₁, hswitch, hmachine⟩ := hmachine
  have hcounted : Counted drv { w with mdio } needsAneg w₁ := counted_pollState hdrv hswitch
  have hsame : u'.phydev.linkTimeout = w₁.phydev.linkTimeout := by
    split at hmachine
    · rw [ensures_bind] at hmachine
      obtain ⟨_, w₂, hstart, hmachine⟩ := hmachine
      obtain rfl := ensures_pure.1 hmachine
      exact linkTimeout_startAneg hdrv hstart
    · obtain rfl := ensures_pure.1 hmachine
      rfl
  have hcalls : CallsAt drv w mdio ↔ needsAneg = true := by
    constructor
    · rintro ⟨w₂, hcalls⟩
      exact (Prod.mk.inj (Option.some.inj (hswitch.symm.trans hcalls))).1
    · rintro rfl
      exact ⟨w₁, hswitch⟩
  refine ⟨fun hw => ?_, fun hw => hsame.trans (hcounted.other hw)⟩
  obtain ⟨hneeds, hdec⟩ := hcounted.waits hw
  refine ⟨?_, hsame.trans hdec⟩
  rw [hcalls, hneeds, decide_eq_true_eq]
  exact eq_comm

/-! ### All polls -/

theorem toNat_sub_one {x : BitVec 32} (hx : x ≠ 0) : (x - 1).toNat = x.toNat - 1 := by
  have hpos : x.toNat ≠ 0 := fun h0 => hx (BitVec.eq_of_toNat_eq h0)
  have hlt := x.isLt
  have hone : (1 : BitVec 32).toNat = 1 := rfl
  rw [BitVec.toNat_sub, hone]
  omega

/-- **Polls that wait** contain a call exactly where they are more than the
counter says. -/
theorem calls_iff (hdrv : drv.UsesGenphy) {polls : List σ} (h : PhyInv w)
    (hwaits : (phyThread drv).Along (WaitsAt drv) w polls) :
    ¬ (phyThread drv).Along (fun v mdio => ¬ CallsAt drv v mdio) w polls ↔
      w.phydev.linkTimeout.toNat < polls.length := by
  -- one poll takes one off either side
  induction polls generalizing w with
  | nil => exact iff_of_false (fun hnot => hnot trivial) (Nat.not_lt_zero _)
  | cons mdio polls ih =>
    obtain ⟨u, hstep, hu⟩ := h.exists_step hdrv mdio
    obtain ⟨hwait, hwaits⟩ := (Machine.along_cons_of_step hstep).1 hwaits
    obtain ⟨hcalls, hdec⟩ := (step_linkTimeout hdrv hstep).1 hwait
    have ih := ih hu hwaits
    rw [Machine.along_cons_of_step hstep, hcalls, List.length_cons]
    by_cases hzero : w.phydev.linkTimeout = 0
    · have hnat : w.phydev.linkTimeout.toNat = 0 := by rw [hzero]; rfl
      exact iff_of_true (fun hnot => hnot.1 hzero) (by omega)
    · have hpos : w.phydev.linkTimeout.toNat ≠ 0 := fun h0 => hzero (BitVec.eq_of_toNat_eq h0)
      rw [and_iff_right hzero, ih, hdec, toNat_sub_one hzero]
      omega

/-- The counter is bounded while no poll that waits finds it at zero. -/
theorem bounded_iff (hdrv : drv.UsesGenphy) {polls : List σ} (h : PhyInv w)
    (hle : w.phydev.linkTimeout ≤ phyAnTimeout) :
    (phyThread drv).Always (fun v => v.phydev.linkTimeout ≤ phyAnTimeout) w polls ↔
      (phyThread drv).Along (fun v mdio => WaitsAt drv v mdio → v.phydev.linkTimeout ≠ 0) w
        polls := by
  obtain ⟨v, hrun, -⟩ := Machine.exists_run (M := phyThread drv)
    (fun _ mdio hv => hv.exists_step hdrv mdio) h polls
  have hbound : phyAnTimeout.toNat = 10 := rfl
  refine Machine.always_iff_along (J := fun _ => True)
    (I := fun v => PhyInv v ∧ v.phydev.linkTimeout ≤ phyAnTimeout) (fun _ hI => hI.2)
    (fun s mdio t hI hC _ hstep => ?_) (fun s mdio t hI hC hstep => ?_) ⟨h, hle⟩
    (Machine.always_of_step (fun _ _ _ _ _ => trivial) trivial) hrun
  · obtain ⟨u, hstep', hu⟩ := hI.1.exists_step hdrv mdio
    obtain rfl := Option.some.inj (hstep.symm.trans hstep')
    refine ⟨hu, ?_⟩
    by_cases hwait : WaitsAt drv s mdio
    · have hdec := ((step_linkTimeout hdrv hstep).1 hwait).2
      have hs : s.phydev.linkTimeout.toNat ≤ 10 := BitVec.le_def.1 hI.2
      rw [hdec, BitVec.le_def, toNat_sub_one (hC hwait), hbound]
      omega
    · rw [(step_linkTimeout hdrv hstep).2 hwait]
      exact hI.2
  · -- the counter was zero and wraps
    obtain ⟨hwait, hzero⟩ := Classical.not_imp.1 hC
    rw [((step_linkTimeout hdrv hstep).1 hwait).2, not_not.1 hzero]
    decide

/-- Registers of a PHY whose link is up and whose negotiation goes on. -/
def pendingRegs : BitVec 16 → BitVec 16 := phyRegs 0x780d

/-- That PHY in `ETH_PHY_AN`, with any counter. -/
def pendingPhy (t : BitVec 32) : PhyWorld (BitVec 16 → BitVec 16) :=
  ⟨{ openedPhy.phydev with
      state := .an, speed := speed10, duplex := duplexHalf, linkTimeout := t }, pendingRegs, []⟩

theorem readStatus_pendingPhy (t : BitVec 32) :
    genphyReadStatus (pendingPhy t) = some (0, pendingPhy t) :=
  (blind_genphyReadStatus (t := fun _ => t) MdioBus.Alike.refl).of_eq
    (rfl : genphyReadStatus (pendingPhy 0) = some (0, pendingPhy 0))

theorem anegDone_pendingPhy (t : BitVec 32) :
    ethPhyAnegDone (pendingPhy t) = some (0, pendingPhy t) :=
  (blind_ethPhyAnegDone (t := fun _ => t) MdioBus.Alike.refl).of_eq
    (rfl : ethPhyAnegDone (pendingPhy 0) = some (0, pendingPhy 0))

theorem link_pendingPhy (t : BitVec 32) : (pendingPhy t).phydev.link ≠ 0 := by
  have hlink : (1 : BitVec 16) ≠ 0 := by decide
  exact hlink

theorem waitsAt_pendingPhy (t : BitVec 32) : WaitsAt genphyDriver (pendingPhy t) pendingRegs :=
  .an rfl (readStatus_pendingPhy t) (by decide) (link_pendingPhy t) (anegDone_pendingPhy t)

theorem step_pendingPhy {t : BitVec 32} (ht : 0 ≠ t) :
    (phyThread genphyDriver).step (pendingPhy t) pendingRegs = some (pendingPhy (t - 1)) := by
  have hpoll : Ensures (ethPhyStateMachine genphyDriver) (pendingPhy t)
      fun _ v => v = pendingPhy (t - 1) := by
    rw [ethPhyStateMachine, ensures_bind, ensures_getDev, ensures_bind]
    have han : Ensures (pollAn genphyDriver) (pendingPhy t) fun r v =>
        r = false ∧ v = pendingPhy (t - 1) := by
      rw [pollAn, ensures_bind]
      refine ⟨0, _, readStatus_pendingPhy t, ?_⟩
      dsimp only
      rw [if_neg (by decide), ensures_bind, ensures_getDev, if_neg (link_pendingPhy t),
        ensures_bind]
      refine ⟨0, _, anegDone_pendingPhy t, ?_⟩
      dsimp only
      rw [if_neg (by decide), if_neg (by decide), ensures_linkTimeoutDec]
      exact ⟨decide_eq_false ht, rfl⟩
    refine Ensures.mono (m := pollAn genphyDriver) han ?_
    rintro _ _ ⟨rfl, rfl⟩
    rw [if_neg Bool.false_ne_true, ensures_pure]
  obtain ⟨r, v, hv, rfl⟩ := hpoll
  exact Option.map_eq_some_iff.2 ⟨(r, _), hv, rfl⟩

/-- What is left behind in the registers does not matter. -/
theorem along_pendingPhy {t : BitVec 32} {n : ℕ} (hn : n ≤ t.toNat)
    (regs : BitVec 16 → BitVec 16) :
    (phyThread genphyDriver).Along (WaitsAt genphyDriver) { pendingPhy t with mdio := regs }
      (List.replicate n pendingRegs) := by
  induction n generalizing t regs with
  | zero => trivial
  | succ n ih =>
    have ht : t ≠ 0 := by
      rintro rfl
      exact absurd hn (Nat.not_succ_le_zero n)
    have hstep : (phyThread genphyDriver).step { pendingPhy t with mdio := regs } pendingRegs =
      some (pendingPhy (t - 1)) := step_pendingPhy ht.symm
    refine (Machine.along_cons_of_step hstep).2 ⟨waitsAt_pendingPhy t, ih ?_ pendingRegs⟩
    rw [toNat_sub_one ht]
    omega

/-- A PHY with that counter. -/
def withTimeout (w : PhyWorld σ) (t : BitVec 32) : PhyWorld σ :=
  { w with phydev := { w.phydev with linkTimeout := t } }

end EthPhy

end Hgsdk

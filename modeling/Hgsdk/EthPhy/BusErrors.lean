import Hgsdk.EthPhy.Retries
/-!
# Failed reads of the MDIO bus

A read that fails returns a negative `int`, and `phy_read` returns its low
half as a `uint16`: the failure is gone, and a register value is there in
its place. So none of the generic functions ever returns an error, the link
is what that value says, and a poll does what it would do over a bus that
answers with the low half and never fails.
-/

namespace Hgsdk

namespace EthPhy

variable {σ : Type}

/-- The bus that answers with the low half, which is never negative. -/
def MdioBus.cut (bus : MdioBus σ) : MdioBus σ where
  read s addr reg :=
    (((bus.read s addr reg).1.setWidth 16).setWidth 32, (bus.read s addr reg).2)
  write := bus.write

/-- The bus with a record of what its reads returned, newest first. -/
def MdioBus.watched (bus : MdioBus σ) : MdioBus (σ × List CInt) where
  read s addr reg :=
    ((bus.read s.1 addr reg).1, (bus.read s.1 addr reg).2, (bus.read s.1 addr reg).1 :: s.2)
  write s addr reg val := (bus.write s.1 addr reg val, s.2)

/-- **A read has failed.** -/
def Failed (w : PhyWorld (σ × List CInt)) : Prop := ∃ r ∈ w.mdio.2, r.slt 0

/-- **The poll neither enters `ETH_PHY_RUNNING` nor reports.** -/
def Quiet (w w' : PhyWorld σ) : Prop :=
  (w'.phydev.state = .running → w.phydev.state = .running) ∧ w'.events = w.events

theorem alike_cut (bus : MdioBus σ) : MdioBus.Alike bus bus.cut where
  read s addr reg := by
    rw [MdioBus.cut, BitVec.setWidth_setWidth_of_le _ (by decide), BitVec.setWidth_eq]
  next _ _ _ := rfl
  write _ _ _ _ := rfl

/-! ### The polls do not see it either -/

section Polls

variable {b : MdioBus σ → MdioBus σ} {drv : PhyDriver σ}

theorem blind_linkTimeoutDec :
    Blind (PhyWorld.other b id) (linkTimeoutDec : Cmd (PhyWorld σ) Bool) :=
  blind_getDev_bind (fun _ => rfl) fun _ => blind_setDev_bind (fun _ => rfl) fun _ => .pure _

variable (hb : ∀ bus, MdioBus.Alike bus (b bus))
  (hread : Blind (PhyWorld.other b id) drv.readStatus)
  (haneg : Blind (PhyWorld.other b id) drv.configAneg)

include hb hread

theorem blind_pollAn : Blind (PhyWorld.other b id) (pollAn drv) := by
  refine hread.bind fun _ => .ite (.pure _) ?_
  refine blind_getDev_bind (fun _ => rfl) fun _ => .ite ?_ ?_
  · refine blind_setDev_bind (fun _ => rfl) fun _ => ?_
    exact blind_phyEventLink.bind fun _ => .pure _
  · refine (blind_ethPhyAnegDone hb).bind fun _ => .ite (.pure _) (.ite ?_ blind_linkTimeoutDec)
    refine blind_setDev_bind (fun _ => rfl) fun _ => ?_
    exact blind_phyEventLink.bind fun _ => .pure _

omit hread in
theorem blind_pollForcing :
    Blind (PhyWorld.other b id) (pollForcing : Cmd (PhyWorld σ) Bool) := by
  refine (blind_genphyUpdateLink hb).bind fun _ => .ite (.pure _) ?_
  refine blind_getDev_bind (fun _ => rfl) fun _ => .ite ?_ ?_
  · refine blind_setDev_bind (fun _ => rfl) fun _ => ?_
    exact blind_phyEventLink.bind fun _ => .pure _
  · exact blind_linkTimeoutDec.bind fun _ => blind_phyEventLink.bind fun _ => .pure _

include haneg

/-- **A poll does not see it.** -/
theorem blind_ethPhyStateMachine :
    Blind (PhyWorld.other b id) (ethPhyStateMachine drv) := by
  have hpoll : ∀ st, Blind (PhyWorld.other b id) (pollState drv st) := by
    intro st
    cases st with
    | an => exact blind_pollAn hb hread
    | nolink => exact blind_pollNolink hread
    | forcing => exact blind_pollForcing hb
    | running => exact blind_pollRunning hread
    | halted => exact blind_pollHalted
    | _ => exact .pure _
  refine blind_getDev_bind (fun _ => rfl) fun d => (hpoll d.state).bind fun _ => .ite ?_ (.pure _)
  exact (blind_ethPhyStartAneg haneg).bind fun _ => .pure _

end Polls

/-! ### What is read -/

section Reads

variable {bus : MdioBus σ} {w : PhyWorld σ}

/-- What reading the registers in turn leaves of the bus. -/
def MdioBus.after (bus : MdioBus σ) (addr : BitVec 16) (s : σ) (regs : List (BitVec 16)) : σ :=
  regs.foldl (fun s reg => (bus.read s addr reg).2) s

/-- What a read of `MII_BMSR` returns once the registers have been read. -/
def statusAfter (bus : MdioBus σ) (w : PhyWorld σ) (regs : List (BitVec 16)) : CInt :=
  (bus.read (bus.after w.phydev.addr w.mdio regs) w.phydev.addr miiBmsr).1

/-- The gigabit registers `genphy_read_status` reads. -/
def lpagbRegs (d : PhyDevice σ) : List (BitVec 16) :=
  if d.supported &&& (supported1000baseTHalf ||| supported1000baseTFull) = 0 then []
  else [miiStat1000, miiCtrl1000]

/-- **The registers `genphy_read_status` reads**, in order. -/
def statusRegs (d : PhyDevice σ) : List (BitVec 16) :=
  miiBmsr :: miiBmsr ::
    if autonegEnable = d.autoneg then lpagbRegs d ++ [miiLpa, miiAdvertise] else [miiBmcr]

/-- A bit of the low half is what it was. -/
theorem low_and {r m : CInt} (hm : 0xffff &&& m = m) :
    (r.setWidth 16).setWidth 32 &&& m = r &&& m := by
  have hlow : (r.setWidth 16).setWidth 32 = r &&& 0xffff := by
    apply BitVec.eq_of_toNat_eq
    have hr := r.isLt
    have hmask : (r &&& 0xffff).toNat = r.toNat % 2 ^ 16 := by
      rw [BitVec.toNat_and]
      exact Nat.and_two_pow_sub_one_eq_mod _ 16
    rw [hmask, BitVec.toNat_setWidth, BitVec.toNat_setWidth]
    omega
  rw [hlow, BitVec.and_assoc, hm]

/-- **The link is the second read's bit**, failed or not. -/
theorem ensures_genphyUpdateLink (hbus : w.phydev.bus = some bus)
    {Q : CInt → PhyWorld σ → Prop} :
    Ensures genphyUpdateLink w Q ↔ Q 0
      { w with
        mdio := bus.after w.phydev.addr w.mdio [miiBmsr, miiBmsr]
        phydev := { w.phydev with
          link := if statusAfter bus w [miiBmsr] &&& bmsrLstatus = 0 then 0 else 1 } } := by
  rw [genphyUpdateLink, ensures_phyReadInt_checked hbus, ensures_phyReadInt_checked (by exact hbus),
    ensures_bind, ensures_setDev, ensures_pure]
  dsimp only
  rw [low_and (by decide)]
  rfl

theorem genphyReadLpagb_reads (hbus : w.phydev.bus = some bus) :
    Ensures genphyReadLpagb w fun r w' => (∃ v, r = .ok v) ∧
      w' = { w with mdio := bus.after w.phydev.addr w.mdio (lpagbRegs w.phydev) } := by
  rw [genphyReadLpagb, ensures_bind, ensures_getDev, lpagbRegs]
  split
  · exact ensures_pure.2 ⟨⟨0, rfl⟩, rfl⟩
  · rw [ensures_phyReadInt_checked hbus, ensures_phyReadInt_checked (by exact hbus), ensures_pure]
    exact ⟨⟨_, rfl⟩, rfl⟩

/-- **What `genphy_read_status` reads, and the link it finds.** -/
theorem genphyReadStatus_reads (hbus : w.phydev.bus = some bus) :
    Ensures genphyReadStatus w fun _ w' =>
      w'.mdio = bus.after w.phydev.addr w.mdio (statusRegs w.phydev) ∧
      w'.phydev.addr = w.phydev.addr ∧
      w'.phydev.link = if statusAfter bus w [miiBmsr] &&& bmsrLstatus = 0 then 0 else 1 := by
  rw [genphyReadStatus, ensures_bind, ensures_genphyUpdateLink hbus, if_neg (fun h => h rfl),
    ensures_bind, ensures_getDev, statusRegs]
  dsimp only
  split
  · rw [genphyReadNegotiated]
    refine (genphyReadLpagb_reads (by exact hbus)).bind ?_
    rintro _ _ ⟨⟨lpagb, rfl⟩, rfl⟩
    dsimp only
    rw [ensures_phyReadInt_checked (by exact hbus), ensures_phyReadInt_checked (by exact hbus),
      ensures_bind, ensures_setDev, ensures_pure]
    refine ⟨?_, rfl, rfl⟩
    simp only [MdioBus.after, List.foldl_cons, List.foldl_append]
    rfl
  · rw [genphyReadForced, ensures_phyReadInt_checked (by exact hbus), ensures_bind, ensures_setDev,
      ensures_pure]
    exact ⟨rfl, rfl, rfl⟩

/-- Whether the negotiation is complete is a bit of the next read. -/
theorem ethPhyAnegDone_reads (hbus : w.phydev.bus = some bus) :
    Ensures ethPhyAnegDone w fun err _ => err =
      (bus.read w.mdio w.phydev.addr miiBmsr).1 &&& bmsrAnegcomplete := by
  rw [ethPhyAnegDone, ensures_bind, ensures_phyReadInt_of_bus hbus, ensures_pure,
    if_neg (by rw [setWidth_16_not_slt_zero]; exact Bool.false_ne_true)]
  exact low_and (by decide)

end Reads

/-! ### When a poll is quiet -/

section Quiet

variable {drv : PhyDriver σ} {bus : MdioBus σ} {w w₁ : PhyWorld σ}

/-- **Nothing to report**, by the bits that are read: with the link up the
negotiation is not complete, or without a link there is none, or the state
asks for nothing. -/
def Still (bus : MdioBus σ) (w : PhyWorld σ) : Prop :=
  match w.phydev.state with
  | .an => statusAfter bus w [miiBmsr] &&& bmsrLstatus ≠ 0 ∧
      statusAfter bus w (statusRegs w.phydev) &&& bmsrAnegcomplete = 0
  | .nolink => statusAfter bus w [miiBmsr] &&& bmsrLstatus = 0
  | .forcing | .running => False
  | .halted => w.phydev.link = 0
  | _ => True

/-- A poll that has reported is not quiet. -/
theorem not_quiet_of_event {d : PhyDevice σ} {e : PhyEvent} (h : w₁.events = w.events) :
    ¬ Quiet w { w₁ with phydev := d, events := w₁.events ++ [e] } := by
  rintro ⟨-, hsame⟩
  have hlen := congrArg List.length hsame
  rw [← h, List.length_append, List.length_singleton] at hlen
  omega

/-- What the `switch` leaves: a bus, a verdict, and no negotiation to start
for a PHY that runs. -/
structure Switched (bus : MdioBus σ) (w : PhyWorld σ) (needsAneg : Bool) (w₁ : PhyWorld σ) :
    Prop where
  isSome : w₁.phydev.bus.isSome
  quiet : Quiet w w₁ ↔ Still bus w
  idle : needsAneg = true → w₁.phydev.state ≠ .running

/-- A case that ends with a report. -/
theorem Switched.of_event {d : PhyDevice σ} {e : PhyEvent} {needsAneg : Bool}
    (he : w₁.events = w.events) (hd : d.bus.isSome) (hstill : ¬ Still bus w)
    (hidle : needsAneg = true → d.state ≠ .running) :
    Switched bus w needsAneg { w₁ with phydev := d, events := w₁.events ++ [e] } :=
  ⟨hd, iff_of_false (not_quiet_of_event he) hstill, hidle⟩

variable (hdrv : drv.UsesGenphy) (hb : w.phydev.bus = some bus)

include hdrv hb

theorem switched_pollAn {nd : Netdev} (hnd : w.phydev.ndev = some nd)
    (hst : w.phydev.state = .an) : Ensures (pollAn drv) w (Switched bus w) := by
  have hbus : w.phydev.bus.isSome := Option.isSome_of_eq_some hb
  obtain ⟨_, w₁, hread, rfl, hs₁, -⟩ := genphyReadStatus_spec hbus
  obtain ⟨hmdio, haddr, hlink⟩ := (genphyReadStatus_reads hb).of_eq hread
  rw [← hdrv.readStatus] at hread
  have hstill : Still bus w ↔ w₁.phydev.link ≠ 0 ∧
      statusAfter bus w (statusRegs w.phydev) &&& bmsrAnegcomplete = 0 := by
    rw [Still, hst, hlink]
    refine and_congr_left' ?_
    split <;> simp_all
  rw [pollAn, ensures_bind]
  refine ⟨0, w₁, hread, ?_⟩
  dsimp only
  rw [if_neg (by decide), ensures_bind, ensures_getDev]
  split
  · rename_i hdown
    simp only [ensures_bind, ensures_setDev, ensures_phyEventLink, ensures_pure]
    refine ⟨nd, hs₁.ndev.trans hnd, .of_event hs₁.events (hs₁.isSome hbus) ?_ (by rintro ⟨⟩)⟩
    exact fun hw => (hstill.1 hw).1 hdown
  · rename_i hup
    obtain ⟨err, w₂, hdone, hsign, hd₂, he₂⟩ := ethPhyAnegDone_spec (hs₁.isSome hbus)
    have herr : err = statusAfter bus w (statusRegs w.phydev) &&& bmsrAnegcomplete := by
      rw [(ethPhyAnegDone_reads (hs₁.bus.trans hb)).of_eq hdone, hmdio, haddr]
      rfl
    have hs₂ := hs₁.trans (SameControl.of_phydev hd₂ he₂)
    rw [ensures_bind]
    refine ⟨err, w₂, hdone, ?_⟩
    dsimp only
    rw [if_neg (by rw [hsign]; exact Bool.false_ne_true)]
    split
    · rename_i hpos
      simp only [ensures_bind, ensures_setDev, ensures_phyEventLink, ensures_pure]
      refine ⟨nd, hs₂.ndev.trans hnd, .of_event hs₂.events (hs₂.isSome hbus) ?_ (by rintro ⟨⟩)⟩
      intro hw
      rw [herr, (hstill.1 hw).2] at hpos
      exact absurd hpos (by decide)
    · rename_i hpos
      have hzero : err = 0 := eq_zero_of_not_slt (by rw [hsign]; exact Bool.false_ne_true) hpos
      have hst₂ : w₂.phydev.state ≠ .running := by
        rw [hs₂.state, hst]
        rintro ⟨⟩
      rw [ensures_linkTimeoutDec]
      refine ⟨hs₂.isSome hbus, ?_, fun _ => hst₂⟩
      rw [hstill]
      exact iff_of_true ⟨fun hrun => absurd hrun hst₂, hs₂.events⟩
        ⟨hup, herr.symm.trans hzero⟩

theorem switched_pollNolink {nd : Netdev} (hnd : w.phydev.ndev = some nd)
    (hst : w.phydev.state = .nolink) : Ensures (pollNolink drv) w (Switched bus w) := by
  have hbus : w.phydev.bus.isSome := Option.isSome_of_eq_some hb
  obtain ⟨_, w₁, hread, rfl, hs₁, -⟩ := genphyReadStatus_spec hbus
  have hlink := ((genphyReadStatus_reads hb).of_eq hread).2.2
  rw [← hdrv.readStatus] at hread
  have hstill : Still bus w ↔ w₁.phydev.link = 0 := by
    rw [Still, hst, hlink]
    split <;> simp_all
  rw [pollNolink, ensures_bind]
  refine ⟨0, w₁, hread, ?_⟩
  dsimp only
  rw [if_neg (fun h => h rfl), ensures_bind, ensures_getDev]
  split
  · rename_i hup
    simp only [ensures_bind, ensures_setDev, ensures_phyEventLink, ensures_pure]
    refine ⟨nd, hs₁.ndev.trans hnd, .of_event hs₁.events (hs₁.isSome hbus) ?_ (by rintro ⟨⟩)⟩
    exact fun hw => hup (hstill.1 hw)
  · rename_i hdown
    rw [ensures_pure]
    refine ⟨hs₁.isSome hbus, ?_, by rintro ⟨⟩⟩
    rw [hstill]
    refine iff_of_true ⟨fun hrun => ?_, hs₁.events⟩ (not_not.1 hdown)
    exact hs₁.state.symm.trans hrun

theorem switched_pollRunning {nd : Netdev} (hnd : w.phydev.ndev = some nd)
    (hst : w.phydev.state = .running) : Ensures (pollRunning drv) w (Switched bus w) := by
  have hbus : w.phydev.bus.isSome := Option.isSome_of_eq_some hb
  have hstill : ¬ Still bus w := by rw [Still, hst]; exact id
  rw [pollRunning, hdrv.readStatus]
  refine (genphyReadStatus_spec hbus).bind ?_
  rintro _ w₁ ⟨rfl, hs₁, -⟩
  rw [if_neg (fun h => h rfl)]
  simp only [ensures_bind, ensures_setDev, ensures_phyEventLink, ensures_pure]
  exact ⟨nd, hs₁.ndev.trans hnd, .of_event hs₁.events (hs₁.isSome hbus) hstill (by rintro ⟨⟩)⟩

omit hdrv in
theorem switched_pollForcing {nd : Netdev} (hnd : w.phydev.ndev = some nd)
    (hst : w.phydev.state = .forcing) : Ensures pollForcing w (Switched bus w) := by
  have hbus : w.phydev.bus.isSome := Option.isSome_of_eq_some hb
  have hstill : ¬ Still bus w := by rw [Still, hst]; exact id
  rw [pollForcing]
  refine (genphyUpdateLink_spec hbus).bind ?_
  rintro _ w₁ ⟨rfl, hs₁, -⟩
  rw [if_neg (fun h => h rfl), ensures_bind, ensures_getDev]
  split
  · simp only [ensures_bind, ensures_setDev, ensures_phyEventLink, ensures_pure]
    exact ⟨nd, hs₁.ndev.trans hnd, .of_event hs₁.events (hs₁.isSome hbus) hstill (by rintro ⟨⟩)⟩
  · simp only [ensures_bind, ensures_linkTimeoutDec, ensures_phyEventLink, ensures_pure]
    refine ⟨nd, hs₁.ndev.trans hnd, .of_event hs₁.events (hs₁.isSome hbus) hstill fun _ => ?_⟩
    show w₁.phydev.state ≠ .running
    rw [hs₁.state, hst]
    rintro ⟨⟩

omit hdrv in
theorem switched_pollHalted {nd : Netdev} (hnd : w.phydev.ndev = some nd)
    (hst : w.phydev.state = .halted) : Ensures pollHalted w (Switched bus w) := by
  have hbus : w.phydev.bus.isSome := Option.isSome_of_eq_some hb
  have hstill : Still bus w ↔ w.phydev.link = 0 := by rw [Still, hst]
  rw [pollHalted, ensures_bind, ensures_getDev]
  split
  · rename_i hup
    simp only [ensures_bind, ensures_setDev, ensures_phyEventLink, ensures_pure]
    exact ⟨nd, hnd, .of_event rfl hbus (fun hw => hup (hstill.1 hw)) (by rintro ⟨⟩)⟩
  · rename_i hdown
    rw [ensures_pure]
    refine ⟨hbus, ?_, by rintro ⟨⟩⟩
    rw [hstill]
    exact iff_of_true ⟨id, rfl⟩ (not_not.1 hdown)

theorem switched_pollState (hndev : w.phydev.ndev.isSome) :
    Ensures (pollState drv w.phydev.state) w (Switched bus w) := by
  obtain ⟨nd, hnd⟩ := Option.isSome_iff_exists.1 hndev
  have hbus : w.phydev.bus.isSome := Option.isSome_of_eq_some hb
  -- the states whose case does nothing
  have hidle : ∀ needsAneg, w.phydev.state ≠ .running → Still bus w →
      Ensures (pure needsAneg) w (Switched bus w) := by
    intro needsAneg hrun hstill
    rw [ensures_pure]
    exact ⟨hbus, iff_of_true ⟨id, rfl⟩ hstill, fun _ => hrun⟩
  generalize hst : w.phydev.state = st at hidle ⊢
  cases st with
  | an => exact switched_pollAn hdrv hb hnd hst
  | nolink => exact switched_pollNolink hdrv hb hnd hst
  | forcing => exact switched_pollForcing hb hnd hst
  | running => exact switched_pollRunning hdrv hb hnd hst
  | halted => exact switched_pollHalted hb hnd hst
  | _ => exact hidle _ nofun (by rw [Still, hst]; trivial)

omit hb in
/-- Starting a negotiation reports nothing and enters no running state. -/
theorem ethPhyStartAneg_quiet (hbus : w.phydev.bus.isSome) :
    Ensures (ethPhyStartAneg drv) w fun _ w' =>
      w'.events = w.events ∧ w'.phydev.state ≠ .running := by
  refine (ethPhyStartAneg_state hdrv hbus).mono ?_
  rintro ok w' ⟨-, w₂, hs₂, rfl⟩
  split
  next =>
    refine ⟨hs₂.events, ?_⟩
    dsimp only
    split <;> nofun
  next hhalt =>
    rw [not_not.1 hhalt]
    exact ⟨hs₂.events, nofun⟩

/-- **When a poll is quiet**: where it has nothing to report. -/
theorem quiet_iff_still (hndev : w.phydev.ndev.isSome) :
    Ensures (ethPhyStateMachine drv) w fun _ w' => Quiet w w' ↔ Still bus w := by
  rw [ethPhyStateMachine, ensures_bind, ensures_getDev]
  refine (switched_pollState hdrv hb hndev).bind ?_
  intro needsAneg w₁ h₁
  split
  · rename_i hneeds
    refine (ethPhyStartAneg_quiet hdrv h₁.isSome).bind ?_
    rintro _ w₂ ⟨he₂, hst₂⟩
    rw [ensures_pure, ← h₁.quiet, Quiet, Quiet, he₂]
    exact and_congr_left fun _ => iff_of_true (fun hrun => absurd hrun hst₂)
      fun hrun => absurd hrun (h₁.idle hneeds)
  · exact ensures_pure.2 h₁.quiet

end Quiet

/-! ### A watched bus -/

section Watched

variable {drv : PhyDriver (σ × List CInt)} {bus : MdioBus σ} {w : PhyWorld (σ × List CInt)}

/-- The functions of the generic driver never fail. -/
theorem genphy_nonneg (hbus : w.phydev.bus.isSome) :
    ∀ f ∈ [genphyUpdateLink, genphyReadStatus, genphyConfigInit, genphyConfigAneg],
      Ensures f w fun r _ => r.slt 0 = false := by
  have hzero : (0 : CInt).slt 0 = false := rfl
  intro f hf
  simp only [List.mem_cons, List.not_mem_nil, or_false] at hf
  rcases hf with rfl | rfl | rfl | rfl
  · exact (genphyUpdateLink_spec hbus).mono fun _ _ h => h.1 ▸ hzero
  · exact (genphyReadStatus_spec hbus).mono fun _ _ h => h.1 ▸ hzero
  · exact (genphyConfigInit_spec hbus).mono fun _ _ h => h.1 ▸ hzero
  · exact (genphyConfigAneg_spec hbus).mono fun _ _ h => h.1 ▸ hzero

/-- **What becomes of failed reads.** Over any bus, from any state of the
PHY, and with any driver that uses the generic negotiation and status
functions: the four functions of the generic driver return, and report a
failed read exactly where none failed; a failed read leaves the link alone
exactly where the bit in the second one says what the link was; and a poll
in which a read failed is quiet exactly where the values it was handed give
nothing to report. It does what it does over the bus that never fails. -/
theorem failed_reads_lost (hdrv : drv.UsesGenphy) (hbus : w.phydev.bus = some bus.watched)
    (hndev : w.phydev.ndev.isSome) (hnone : w.mdio.2 = []) :
    (∀ f ∈ [genphyUpdateLink, genphyReadStatus, genphyConfigInit, genphyConfigAneg],
      Ensures f w fun r w' => (Failed w' → r.slt 0) ↔ ¬ Failed w') ∧
    (Ensures genphyUpdateLink w fun _ w' => ∃ first second, w'.mdio.2 = [second, first] ∧
      ((Failed w' → w'.phydev.link = w.phydev.link) ↔
        (Failed w' → w.phydev.link = if second &&& bmsrLstatus = 0 then 0 else 1))) ∧
    (Ensures (ethPhyStateMachine drv) w fun _ w' =>
      ((Failed w' → Quiet w w') ↔ (Failed w' → Still bus.watched w)) ∧
      ethPhyStateMachine drv (w.other MdioBus.cut id) =
        some (⟨⟩, w'.other MdioBus.cut id)) := by
  have hsome : w.phydev.bus.isSome := Option.isSome_of_eq_some hbus
  refine ⟨fun f hf => ?_, ?_, ?_⟩
  · refine (genphy_nonneg hsome f hf).mono fun r w' hr => ?_
    rw [hr]
    exact imp_congr_right fun _ => iff_of_false Bool.false_ne_true id
  · rw [ensures_genphyUpdateLink hbus]
    refine ⟨(bus.read w.mdio.1 w.phydev.addr miiBmsr).1, statusAfter bus.watched w [miiBmsr], ?_,
      imp_congr_right fun _ => eq_comm⟩
    dsimp only [MdioBus.after, MdioBus.watched, List.foldl_cons, List.foldl_nil]
    rw [hnone]
    rfl
  · have hblind : Blind (PhyWorld.other MdioBus.cut id) (ethPhyStateMachine drv) := by
      refine blind_ethPhyStateMachine alike_cut ?_ ?_
      · rw [hdrv.readStatus]
        exact blind_genphyReadStatus alike_cut
      · rw [hdrv.configAneg]
        exact blind_genphyConfigAneg alike_cut
    obtain ⟨r, w', hpoll, hquiet⟩ := quiet_iff_still hdrv hbus hndev
    exact ⟨r, w', hpoll, imp_congr_right fun _ => hquiet, hblind.of_eq hpoll⟩

end Watched

/-- A bus that is dead: every read fails. -/
def deadBus : MdioBus Unit where
  read _ _ _ := (-1, ⟨⟩)
  write _ _ _ _ := ⟨⟩

/-- A PHY without a link on that bus, watched. -/
def deadPhy : PhyWorld (Unit × List CInt) where
  phydev :=
    { addr := 1, bus := some deadBus.watched, ndev := some 7, phyId := 0x02430c54
      state := .nolink, speed := 0, duplex := 0, pause := 0, asymPause := 0, link := 0
      supported := 0xfcf, advertising := 0x2cf, autoneg := autonegEnable, linkTimeout := 0
      lastSpeed := 0, lastDuplex := -1, lastLink := 0 }
  mdio := (⟨⟩, [])
  events := []

/-- The first poll of a PHY that was opened reads registers to configure
them, and is quiet even on the dead bus. -/
theorem failed_reads_lost_up :
    Ensures (ethPhyStateMachine genphyDriver)
      { deadPhy with phydev := { deadPhy.phydev with state := .up } } fun _ w' =>
        Failed w' → Quiet { deadPhy with phydev := { deadPhy.phydev with state := .up } } w' := by
  have hbus : deadPhy.phydev.bus = some deadBus.watched := rfl
  refine (failed_reads_lost
    (w := { deadPhy with phydev := { deadPhy.phydev with state := .up } })
    genphyDriver_usesGenphy hbus rfl rfl).2.2.mono ?_
  exact fun _ w' h => h.1.2 fun _ => trivial

/-- **A dead bus is a link that is up.** On it `genphy_update_link`
returns 0 and finds the link up, and a poll in `ETH_PHY_NOLINK` enters
`ETH_PHY_RUNNING` and reports the link. -/
theorem dead_bus_link_up :
    (Ensures genphyUpdateLink deadPhy fun r w' =>
      Failed w' ∧ r = 0 ∧ deadPhy.phydev.link = 0 ∧ w'.phydev.link = 1) ∧
    (Ensures (ethPhyStateMachine genphyDriver) deadPhy fun _ w' =>
      Failed w' ∧ deadPhy.phydev.state = .nolink ∧ w'.phydev.state = .running ∧
        w'.phydev.speed = speed100 ∧ w'.events = [⟨7, 1, 0⟩]) := by
  refine ⟨⟨_, _, rfl, ⟨-1, ?_, rfl⟩, rfl, rfl, rfl⟩, ⟨_, _, rfl, ⟨-1, ?_, rfl⟩, rfl, rfl, rfl, rfl⟩⟩
  · exact List.mem_cons_self
  · exact List.mem_cons_self

end EthPhy

end Hgsdk

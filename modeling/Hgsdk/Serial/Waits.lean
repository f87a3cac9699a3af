import Hgsdk.Serial.InFlight
/-!
# A task that waits, and the transfer it waits for

The drivers do not look at what `dma_xfer` returns. A request that finds
no channel leaves its caller waiting for a semaphore nobody will post, and
the wait has no end.

Where every request is accepted and no interrupt is served late, each
semaphore and the transfers in flight for it add up to the tasks that have
asked and not yet taken: a task that is blocked has a transfer in flight.
And where the calls on one device do not overlap, a call finds the
semaphores at zero and leaves them so.
-/

namespace Hgsdk

namespace Serial

namespace Tasks

open Dmac

variable {T : Type} {s s' : Sys T} {pc : Pc} {c : Call} {dir : Dir} {dev : BitVec 32} {ch : Chan}

/-! ### The invariant -/

/-- The tasks that owe are as many as the posts and the transfers in
flight. -/
def Balanced (s : Sys T) (dir : Dir) (dev : BitVec 32) : Prop :=
  ∃ W : Finset T, (∀ t, t ∈ W ↔ (s.pc t).Owes dir dev) ∧
    W.card = s.sema dir dev + (atWork s.log dir dev).card

/-- **The invariant.** A channel with a transfer of the drivers in flight is
in use and has their handler; one with a transfer of another client has
none of theirs. -/
structure Inv (s : Sys T) : Prop where
  held : ∀ ch dir dev, InFlight s.log dir dev ch → s.dma.used ch = true ∧
    (s.dma.irqHdl ch).bind Client.posts = some dir ∧ s.dma.irqData ch = dev
  other : ∀ ch ret, latest s.log ch = some (.other ret) →
    (s.dma.irqHdl ch).bind Client.posts = none
  mask : ∀ k ch, s.dma.mask k ch = true
  balanced : ∀ dir dev, Balanced s dir dev

theorem inv_start (ch : Chan → ChRegs) : Inv (.start ch : Sys T) where
  held _ _ _ h := by cases h
  other _ _ h := by cases h
  mask _ _ := rfl
  balanced dir dev := by
    refine ⟨∅, fun t => iff_of_false (Finset.notMem_empty t) id, ?_⟩
    have hnone : atWork (Sys.start ch : Sys T).log dir dev = ∅ :=
      Finset.eq_empty_of_forall_notMem fun c hc => by cases mem_atWork.1 hc
    rw [hnone]
    rfl

variable {P : Periphs} {t : T} {e : Event T}

theorem Balanced.congr (h : Balanced s dir dev)
    (hpc : ∀ t, (s'.pc t).Owes dir dev ↔ (s.pc t).Owes dir dev)
    (hcount : s'.sema dir dev + (atWork s'.log dir dev).card =
      s.sema dir dev + (atWork s.log dir dev).card) : Balanced s' dir dev := by
  obtain ⟨W, hW, hcard⟩ := h
  exact ⟨W, fun t => (hW t).trans (hpc t).symm, hcard.trans hcount.symm⟩

/-- **A task that asks joins those that owe**, and its channel those at
work. -/
theorem Balanced.xfer [DecidableEq T] {dir' : Dir} {dev' : BitVec 32} (h : Balanced s dir' dev')
    (hasks : Asks (s.pc t) c dir pc) (hrest : ∀ dir dev, ¬ InFlight s.log dir dev ch)
    (hret : (s.dma.dwDmacXfer P (c.request dir)).1 = BitVec.ofNat 32 ch) :
    Balanced ((s.dmaXfer P c dir).goto t pc) dir' dev' := by
  obtain ⟨W, hW, hcard⟩ := h
  have hlog : ((s.dmaXfer P c dir).goto t pc).log =
      .xfer dir c.dev (BitVec.ofNat 32 ch) :: s.log :=
    congrArg (fun ret => Event.xfer dir c.dev ret :: s.log) hret
  have hwork : atWork ((s.dmaXfer P c dir).goto t pc).log dir' dev' =
      if dir = dir' ∧ c.dev = dev' then insert ch (atWork s.log dir' dev')
      else atWork s.log dir' dev' := by
    rw [hlog, atWork_xfer hrest]
  by_cases hsame : dir = dir' ∧ c.dev = dev'
  · obtain ⟨rfl, rfl⟩ := hsame
    have htW : t ∉ W := fun ht => hasks.not_owes ((hW t).1 ht)
    have hchW : ch ∉ atWork s.log dir c.dev := fun hmem => hrest _ _ (mem_atWork.1 hmem)
    refine ⟨insert t W, fun t' => ?_, ?_⟩
    · rw [Finset.mem_insert, hW]
      by_cases ht : t' = t
      · rw [ht, Sys.goto_pc]
        exact iff_of_true (.inl rfl) (hasks.owes.2 (.inr ⟨rfl, rfl⟩))
      · rw [Sys.goto_pc_of_ne _ _ ht]
        exact or_iff_right ht
    · rw [hwork, if_pos ⟨rfl, rfl⟩, Finset.card_insert_of_notMem htW,
        Finset.card_insert_of_notMem hchW, hcard]
      rfl
  · refine ⟨W, fun t' => ?_, ?_⟩
    · rw [hW]
      by_cases ht : t' = t
      · rw [ht, Sys.goto_pc, hasks.owes]
        exact (or_iff_left fun heq => hsame ⟨heq.1.symm, heq.2⟩).symm
      · rw [Sys.goto_pc_of_ne _ _ ht]
        rfl
    · rw [hwork, if_neg hsame]
      exact hcard

/-- **One that takes a post leaves them.** -/
theorem Balanced.down [DecidableEq T] {dir' : Dir} {dev' : BitVec 32} (h : Balanced s dir' dev')
    (htakes : Takes (s.pc t) c dir pc) (hpos : s.sema dir c.dev ≠ 0) :
    Balanced ((s.setSema dir c.dev (s.sema dir c.dev - 1)).goto t pc) dir' dev' := by
  obtain ⟨W, hW, hcard⟩ := h
  have hsema : ((s.setSema dir c.dev (s.sema dir c.dev - 1)).goto t pc).sema dir' dev' =
      if dir = dir' ∧ c.dev = dev' then s.sema dir c.dev - 1 else s.sema dir' dev' :=
    setSema_sema s dir dir' c.dev dev' _
  have hlog : ((s.setSema dir c.dev (s.sema dir c.dev - 1)).goto t pc).log = s.log := rfl
  by_cases hsame : dir = dir' ∧ c.dev = dev'
  · obtain ⟨rfl, rfl⟩ := hsame
    have htW : t ∈ W := (hW t).2 (htakes.owes.2 (.inr ⟨rfl, rfl⟩))
    refine ⟨W.erase t, fun t' => ?_, ?_⟩
    · rw [Finset.mem_erase, hW]
      by_cases ht : t' = t
      · rw [ht, Sys.goto_pc]
        exact iff_of_false (fun h => h.1 rfl) htakes.not_owes
      · rw [Sys.goto_pc_of_ne _ _ ht]
        exact and_iff_right ht
    · rw [Finset.card_erase_of_mem htW, hcard, hsema, if_pos ⟨rfl, rfl⟩, hlog]
      omega
  · refine ⟨W, fun t' => ?_, ?_⟩
    · rw [hW]
      by_cases ht : t' = t
      · rw [ht, Sys.goto_pc, htakes.owes]
        exact or_iff_left fun heq => hsame ⟨heq.1.symm, heq.2⟩
      · rw [Sys.goto_pc_of_ne _ _ ht]
        rfl
    · rw [hsema, if_neg hsame, hlog]
      exact hcard

namespace Inv

/-- A channel that is not in use, or has another client's handler, has no
transfer of the drivers in flight. -/
theorem not_inFlight_of_free (h : Inv s) (hfree : s.dma.used ch = false) (dir : Dir)
    (dev : BitVec 32) : ¬ InFlight s.log dir dev ch := by
  intro hflight
  rw [(h.held ch dir dev hflight).1] at hfree
  cases hfree

theorem not_inFlight_of_other (h : Inv s) (hposts : (s.dma.irqHdl ch).bind Client.posts = none)
    (dir : Dir) (dev : BitVec 32) : ¬ InFlight s.log dir dev ch := by
  intro hflight
  rw [(h.held ch dir dev hflight).2.1] at hposts
  cases hposts

/-- **A handler that is called in time** posts for a transfer in flight. -/
theorem inFlight_of_inTime {k : IrqType} (h : Inv s) (htime : InTime s (.irq ch k))
    (hposts : (s.dma.irqHdl ch).bind Client.posts = some dir) :
    InFlight s.log dir (s.dma.irqData ch) ch := by
  have hsome : (s.dma.irqHdl ch).isSome = true := by
    obtain ⟨hdl, hhdl, -⟩ := Option.bind_eq_some_iff.1 hposts
    rw [hhdl]
    rfl
  cases hlatest : latest s.log ch with
  | none =>
    have hany := htime hsome
    rw [hlatest] at hany
    cases hany
  | some e =>
    have hany := htime hsome
    rw [hlatest] at hany
    cases e with
    | xfer dir' dev' ret =>
      have hflight : InFlight s.log dir' dev' ch := by
        rw [InFlight, hlatest]
        rfl
      obtain ⟨-, hposts', hdata⟩ := h.held ch dir' dev' hflight
      obtain rfl := Option.some.inj (hposts.symm.trans hposts')
      rw [hdata]
      exact hflight
    | other ret =>
      rw [h.other ch ret hlatest] at hposts
      cases hposts
    | irq _ _ | stop _ | returned _ _ _ => cases hany

/-- An event after which the same transfers are in flight, and which touches
none of their channels. -/
theorem keep (h : Inv s) (hpc : s'.pc = s.pc) (hsema : s'.sema = s.sema)
    (hflight : ∀ ch dir dev, InFlight s'.log dir dev ch ↔ InFlight s.log dir dev ch)
    (hheld : ∀ ch dir dev, InFlight s.log dir dev ch → s'.dma.used ch = s.dma.used ch ∧
      s'.dma.irqHdl ch = s.dma.irqHdl ch ∧ s'.dma.irqData ch = s.dma.irqData ch)
    (hother : ∀ ch ret, latest s'.log ch = some (.other ret) →
      (s'.dma.irqHdl ch).bind Client.posts = none)
    (hmask : s'.dma.mask = s.dma.mask) : Inv s' where
  held ch dir dev hch := by
    have hold := (hflight ch dir dev).1 hch
    obtain ⟨hused, hhdl, hdata⟩ := hheld ch dir dev hold
    rw [hused, hhdl, hdata]
    exact h.held ch dir dev hold
  other := hother
  mask := by rw [hmask]; exact h.mask
  balanced dir dev := by
    have hwork : atWork s'.log dir dev = atWork s.log dir dev :=
      atWork_congr fun ch => hflight ch dir dev
    exact (h.balanced dir dev).congr (fun t => by rw [hpc]) (by rw [hsema, hwork])

/-- The counts are those of the tasks that have asked. -/
theorem sema_eq_zero (h : Inv s) (hnone : ∀ t, ¬ (s.pc t).Owes dir dev) : s.sema dir dev = 0 := by
  obtain ⟨W, hW, hcard⟩ := h.balanced dir dev
  have hempty : W = ∅ := Finset.eq_empty_of_forall_notMem fun t ht => hnone t ((hW t).1 ht)
  rw [hempty, Finset.card_empty] at hcard
  omega

/-- **An interrupt served in time** posts the semaphore its transfer is
for. -/
theorem irq {k : IrqType} (h : Inv s) (htime : InTime s (.irq ch k)) : Inv (s.irq ch k) := by
  have hirq := interrupted_irq s ch k
  have hlatest : ∀ c, c ≠ ch → latest (s.irq ch k).log c = latest s.log c := by
    intro c hc
    rw [hirq.log, latest_cons_other s.log (concerns_irq_of_ne k hc)]
  have hself : latest (s.irq ch k).log ch = some (.irq ch k) := by
    rw [hirq.log, latest_cons_self s.log (concerns_irq k)]
  refine ⟨fun c dir dev hc => ?_, fun c ret hc => ?_, fun _ _ => ?_, fun dir dev => ?_⟩
  · by_cases hne : c = ch
    · rw [InFlight, hne, hself] at hc
      cases hc
    · rw [InFlight, hlatest c hne] at hc
      rw [hirq.used c hne, hirq.irqHdl, hirq.irqData]
      exact h.held c dir dev hc
  · by_cases hne : c = ch
    · rw [hne, hself] at hc
      cases hc
    · rw [hlatest c hne] at hc
      rw [hirq.irqHdl]
      exact h.other c ret hc
  · rw [hirq.mask]
    exact h.mask _ _
  · refine (h.balanced dir dev).congr (fun t => by rw [hirq.pc]) ?_
    rw [hirq.sema, hirq.log, atWork_irq]
    by_cases hmem : ch ∈ atWork s.log dir dev
    · have hpos := Finset.card_pos.2 ⟨ch, hmem⟩
      rw [if_pos (h.held ch dir dev (mem_atWork.1 hmem)).2, Finset.card_erase_of_mem hmem]
      omega
    · have hposts : ¬ ((s.dma.irqHdl ch).bind Client.posts = some dir ∧
          s.dma.irqData ch = dev) := by
        rintro ⟨hdir, rfl⟩
        exact hmem (mem_atWork.2 (h.inFlight_of_inTime htime hdir))
      rw [if_neg hposts, Nat.add_zero, Finset.erase_eq_of_notMem hmem]

/-- A request of another client, accepted or not. -/
theorem otherXfer (h : Inv s) (data : DmaXferData Unit) : Inv (s.otherXfer P data) := by
  have hposts : (data.irqHdl.map fun _ => Client.other).bind Client.posts = none := by
    cases data.irqHdl <;> rfl
  have hmask := dwDmacXfer_mask P s.dma { data with irqHdl := data.irqHdl.map fun _ => .other }
  obtain ⟨ch, hret, haccepted⟩ | ⟨hneg, hdeclined⟩ := dwDmacXfer_accepted_or_declined P s.dma
    { data with irqHdl := data.irqHdl.map fun _ => .other }
  · have hlog : (s.otherXfer P data).log = .other (BitVec.ofNat 32 ch) :: s.log :=
      congrArg (fun ret => Event.other ret :: s.log) hret
    have hnot : ∀ c, c ≠ ch →
        (Event.other (BitVec.ofNat 32 ch) : Event T).concerns c = false :=
      fun c hc => decide_eq_false fun heq => hc (ofNat_inj heq).symm
    have hrest := h.not_inFlight_of_free haccepted.free
    refine h.keep rfl rfl (fun c dir dev => ?_) (fun c dir dev hc => ?_) (fun c ret hc => ?_) hmask
    · rw [hlog]
      by_cases hne : c = ch
      · subst hne
        exact iff_of_false (not_inFlight_cons (decide_eq_true rfl) rfl) (hrest dir dev)
      · exact InFlight.cons_iff (hnot c hne)
    · have hne : c ≠ ch := by
        rintro rfl
        exact hrest dir dev hc
      refine ⟨(haccepted.used c).trans ?_, ?_, ?_⟩
      · rw [decide_eq_false (Ne.symm hne), Bool.or_false]
      · exact (congrFun haccepted.irqHdl c).trans (Function.update_of_ne hne ..)
      · exact (congrFun haccepted.irqData c).trans (Function.update_of_ne hne ..)
    · have hhdl := congrFun haccepted.irqHdl c
      refine (congrArg (·.bind Client.posts) hhdl).trans ?_
      by_cases hne : c = ch
      · rw [hne, Function.update_self]
        exact hposts
      · rw [Function.update_of_ne hne]
        rw [hlog, latest_cons_other s.log (hnot c hne)] at hc
        exact h.other c ret hc
  · have hnot := concerns_of_neg (T := T) hneg
    refine h.keep rfl rfl (fun c dir dev => InFlight.cons_iff (hnot c)) (fun c dir dev hc => ?_)
      (fun c ret hc => ?_) hmask
    · refine ⟨?_, congrFun hdeclined.irqHdl c, congrFun hdeclined.irqData c⟩
      have hused := (h.held c dir dev hc).1
      exact (hdeclined.used c hused).trans hused.symm
    · refine (congrArg (·.bind Client.posts) (congrFun hdeclined.irqHdl c)).trans ?_
      exact h.other c ret ((latest_cons_other s.log (hnot c)).symm.trans hc)

/-- Another client stops its channel. -/
theorem stop (h : Inv s) (hother : s.OfOther ch) :
    Inv ({ s with dma := s.dma.dwDmacStop ch }.emit (.stop ch)) := by
  have hrest := h.not_inFlight_of_other hother.2
  have hnot : ∀ c, c ≠ ch → (Event.stop ch : Event T).concerns c = false :=
    fun c hc => decide_eq_false (Ne.symm hc)
  have hhdl := HgdmaDw.dwDmacStop_irqHdl s.dma ch
  refine h.keep rfl rfl (fun c dir dev => ?_) (fun c dir dev hc => ?_) (fun c ret hc => ?_)
    (HgdmaDw.dwDmacStop_mask s.dma ch)
  · by_cases hne : c = ch
    · subst hne
      exact iff_of_false (not_inFlight_cons (decide_eq_true rfl) rfl) (hrest dir dev)
    · exact InFlight.cons_iff (hnot c hne)
  · have hne : c ≠ ch := by
      rintro rfl
      exact hrest dir dev hc
    exact ⟨used_dwDmacStop_of_ne hne, congrFun hhdl c,
      congrFun (dwDmacStop_irqData s.dma ch) c⟩
  · refine (congrArg (·.bind Client.posts) (congrFun hhdl c)).trans ?_
    by_cases hne : c = ch
    · subst hne
      have hself : (Event.stop c : Event T).concerns c = true := decide_eq_true rfl
      cases (latest_cons_self s.log hself).symm.trans hc
    · exact h.other c ret ((latest_cons_other s.log (hnot c hne)).symm.trans hc)

theorem emit (h : Inv s) (he : ∀ ch, e.concerns ch = false) : Inv (s.emit e) := by
  refine h.keep rfl rfl (fun c dir dev => InFlight.cons_iff (he c)) (fun _ _ _ _ => ⟨rfl, rfl, rfl⟩)
    (fun c ret hc => ?_) rfl
  exact h.other c ret ((latest_cons_other s.log (he c)).symm.trans hc)

variable [DecidableEq T]

theorem goto (h : Inv s) (howes : ∀ dir dev, pc.Owes dir dev ↔ (s.pc t).Owes dir dev) :
    Inv (s.goto t pc) where
  held := h.held
  other := h.other
  mask := h.mask
  balanced dir dev := by
    refine (h.balanced dir dev).congr (fun t' => ?_) rfl
    by_cases ht : t' = t
    · rw [ht, Sys.goto_pc, howes]
    · rw [Sys.goto_pc_of_ne _ _ ht]

/-- **A request that is accepted.** -/
theorem xfer (h : Inv s) (hasks : Asks (s.pc t) c dir pc) (hopened : s.dma.opened = true)
    (hfree : ∃ ch, s.dma.used ch = false) : Inv ((s.dmaXfer P c dir).goto t pc) := by
  obtain ⟨ch, hret, haccepted⟩ := request_accepted (P := P) c dir hopened hfree
  obtain ⟨hposts, hdata⟩ := request_posts c dir
  have hlog : ((s.dmaXfer P c dir).goto t pc).log =
      .xfer dir c.dev (BitVec.ofNat 32 ch) :: s.log :=
    congrArg (fun ret => Event.xfer dir c.dev ret :: s.log) hret
  have hlatest : ∀ ch', ch' ≠ ch →
      latest ((s.dmaXfer P c dir).goto t pc).log ch' = latest s.log ch' := by
    intro ch' hne
    rw [hlog, latest_cons_other s.log (concerns_xfer_of_ne hne)]
  have hrest := h.not_inFlight_of_free haccepted.free
  have hhdl : ∀ ch', ((s.dmaXfer P c dir).goto t pc).dma.irqHdl ch' =
      Function.update s.dma.irqHdl ch (c.request dir).irqHdl ch' := congrFun haccepted.irqHdl
  refine ⟨fun ch' dir' dev' hch' => ?_, fun ch' ret hch' => ?_, ?_, fun dir' dev' => ?_⟩
  · have hused := haccepted.used ch'
    by_cases hne : ch' = ch
    · subst hne
      rw [hlog, inFlight_xfer] at hch'
      obtain ⟨rfl, rfl⟩ := hch'
      refine ⟨hused.trans (by rw [decide_eq_true rfl, Bool.or_true]), ?_, ?_⟩
      · rw [hhdl, Function.update_self]
        exact hposts
      · exact (congrFun haccepted.irqData ch').trans ((Function.update_self ..).trans hdata)
    · rw [InFlight, hlatest ch' hne] at hch'
      obtain ⟨hold, hposts', hdata'⟩ := h.held ch' dir' dev' hch'
      refine ⟨hused.trans (by rw [hold, Bool.true_or]), ?_, ?_⟩
      · rw [hhdl, Function.update_of_ne hne]
        exact hposts'
      · exact (congrFun haccepted.irqData ch').trans ((Function.update_of_ne hne ..).trans hdata')
  · by_cases hne : ch' = ch
    · subst hne
      rw [hlog, latest_cons_self s.log concerns_xfer] at hch'
      cases hch'
    · rw [hlatest ch' hne] at hch'
      rw [hhdl, Function.update_of_ne hne]
      exact h.other ch' ret hch'
  · intro k ch'
    exact (congrFun (congrFun (dwDmacXfer_mask P s.dma (c.request dir)) k) ch').trans
      (h.mask k ch')
  · exact (h.balanced dir' dev').xfer hasks hrest hret

/-- **A post is taken.** -/
theorem down (h : Inv s) (htakes : Takes (s.pc t) c dir pc) (hpos : s.sema dir c.dev ≠ 0) :
    Inv ((s.setSema dir c.dev (s.sema dir c.dev - 1)).goto t pc) where
  held := h.held
  other := h.other
  mask := h.mask
  balanced dir' dev' := (h.balanced dir' dev').down htakes hpos

/-- **One step.** -/
theorem step {a : Act T} (h : Inv s) (hserved : Served s a) (htime : InTime s a)
    (hstep : Step P s a s') : Inv s' := by
  cases hstep with
  | @call t c hpc =>
    have hbegan : Inv { s with began := Function.update s.began t (s.counts c.dev) } :=
      ⟨h.held, h.other, h.mask, h.balanced⟩
    exact hbegan.goto fun dir dev =>
      iff_of_false (entry_not_owes c) (by show ¬ (s.pc t).Owes dir dev; rw [hpc]; exact id)
  | loop hpc => exact h.goto fun dir dev => by rw [hpc]; rfl
  | xfer hasks =>
    obtain ⟨hopened, hfree⟩ := hasks.served hserved
    exact h.xfer hasks hopened hfree
  | down htakes hpos => exact h.down htakes hpos
  | @leave t c hpc =>
    refine (h.emit fun _ => rfl).goto fun dir dev => ?_
    show _ ↔ (s.pc t).Owes dir dev
    rw [hpc]
    rfl
  | @ser t c master hpc =>
    refine h.goto fun dir dev => ?_
    rw [hpc]
    cases master <;> rfl
  | raise => exact ⟨h.held, h.other, h.mask, h.balanced⟩
  | irq => exact h.irq htime
  | other => exact h.otherXfer _
  | stop hother => exact h.stop hother

end Inv

/-! ### The counts -/

/-- **Calls that do not overlap** find the semaphores at zero and leave
them so. -/
structure Settled (s : Sys T) : Prop where
  alone : ∀ t t' dev, (s.pc t).dev = some dev → (s.pc t').dev = some dev → t = t'
  began : ∀ t, s.pc t ≠ .idle → s.began t = (0, 0)
  returned : ∀ t before after, .returned t before after ∈ s.log → before = after

theorem settled_start (ch : Chan → ChRegs) : Settled (.start ch : Sys T) where
  alone _ _ _ h := nomatch h
  began _ h := absurd rfl h
  returned _ _ _ h := nomatch h

/-- No task works on the device but perhaps one that is about to
return. -/
theorem Inv.counts_eq (h : Inv s) (hnone : ∀ t dir, ¬ (s.pc t).Owes dir dev) :
    s.counts dev = (0, 0) :=
  Prod.ext (h.sema_eq_zero fun t => hnone t .tx) (h.sema_eq_zero fun t => hnone t .rx)

namespace Settled

/-- Nothing returns, and the tasks stay where they are. -/
theorem keep (h : Settled s) (hpc : s'.pc = s.pc) (hbegan : s'.began = s.began)
    (hlog : ∀ t before after, .returned t before after ∈ s'.log →
      .returned t before after ∈ s.log) : Settled s' where
  alone := by rw [hpc]; exact h.alone
  began := by rw [hpc, hbegan]; exact h.began
  returned t before after hmem := h.returned t before after (hlog t before after hmem)

variable [DecidableEq T]

/-- A task goes on with its call. -/
theorem goto (h : Settled s) (hdev : ∀ dev, pc.dev = some dev → (s.pc t).dev = some dev) :
    Settled (s.goto t pc) := by
  have hdev' : ∀ t' dev, ((s.goto t pc).pc t').dev = some dev → (s.pc t').dev = some dev := by
    intro t' dev ht'
    by_cases heq : t' = t
    · subst heq
      exact hdev dev (s.goto_pc t' pc ▸ ht')
    · exact s.goto_pc_of_ne pc heq ▸ ht'
  refine ⟨fun t₁ t₂ dev h₁ h₂ => h.alone t₁ t₂ dev (hdev' t₁ dev h₁) (hdev' t₂ dev h₂),
    fun t' ht' => h.began t' fun hidle => ht' ?_, h.returned⟩
  -- a task that is idle is not moved, or stays idle
  by_contra hne
  have hsome : ∃ dev, ((s.goto t pc).pc t').dev = some dev := by
    cases hpc : (s.goto t pc).pc t' with
    | idle => exact absurd hpc hne
    | _ => exact ⟨_, rfl⟩
  obtain ⟨dev, hd⟩ := hsome
  have hold := hdev' t' dev hd
  rw [hidle] at hold
  exact nomatch hold

/-- A call begins. -/
theorem call (h : Settled s) (hinv : Inv s) (hapart : ∀ t', (s.pc t').dev ≠ some c.dev) :
    Settled ({ s with began := Function.update s.began t (s.counts c.dev) }.goto t c.entry) := by
  have hentry : c.entry.dev = some c.dev := by
    unfold Call.entry
    split <;> split_ifs <;> rfl
  have hzero : s.counts c.dev = (0, 0) :=
    hinv.counts_eq fun t' dir howes => hapart t' howes.dev_eq
  -- another task at work on the device of `t` would be at work on `c.dev`
  have hother : ∀ t' dev, t' ≠ t → c.entry.dev = some dev → (s.pc t').dev ≠ some dev :=
    fun t' dev _ hdev heq => hapart t' (heq.trans (hdev.symm.trans hentry))
  refine ⟨fun t₁ t₂ dev h₁ h₂ => ?_, fun t' ht' => ?_, h.returned⟩
  · by_cases ht₁ : t₁ = t <;> by_cases ht₂ : t₂ = t
    · exact ht₁.trans ht₂.symm
    · rw [ht₁, Sys.goto_pc] at h₁
      rw [Sys.goto_pc_of_ne _ _ ht₂] at h₂
      exact absurd h₂ (hother t₂ dev ht₂ h₁)
    · rw [ht₂, Sys.goto_pc] at h₂
      rw [Sys.goto_pc_of_ne _ _ ht₁] at h₁
      exact absurd h₁ (hother t₁ dev ht₁ h₂)
    · rw [Sys.goto_pc_of_ne _ _ ht₁] at h₁
      rw [Sys.goto_pc_of_ne _ _ ht₂] at h₂
      exact h.alone t₁ t₂ dev h₁ h₂
  · show Function.update s.began t (s.counts c.dev) t' = (0, 0)
    by_cases ht : t' = t
    · rw [ht, Function.update_self, hzero]
    · rw [Sys.goto_pc_of_ne _ _ ht] at ht'
      rw [Function.update_of_ne ht]
      exact h.began t' ht'

/-- A call returns: only it was at work on its device, and it owes
nothing. -/
theorem leave (h : Settled s) (hinv : Inv s) (hpc : s.pc t = .leave c) :
    Settled ((s.emit (.returned t (s.began t) (s.counts c.dev))).goto t .idle) := by
  have hzero : s.counts c.dev = (0, 0) := by
    refine hinv.counts_eq fun t' dir howes => ?_
    have ht : t' = t := h.alone t' t c.dev howes.dev_eq (by rw [hpc]; rfl)
    rw [ht, hpc] at howes
    exact howes
  have hbegan : s.began t = (0, 0) := h.began t (by rw [hpc]; exact Pc.noConfusion)
  have hemit : Settled (s.emit (.returned t (s.began t) (s.counts c.dev))) := by
    refine ⟨h.alone, h.began, fun t' before after hmem => ?_⟩
    rcases List.mem_cons.1 hmem with heq | hmem
    · obtain ⟨-, rfl, rfl⟩ := Event.returned.inj heq
      exact hbegan.trans hzero.symm
    · exact h.returned t' before after hmem
  exact hemit.goto fun dev hdev => nomatch hdev

/-- **One step.** -/
theorem step {a : Act T} (h : Settled s) (hinv : Inv s) (hapart : Apart s a)
    (hstep : Step P s a s') : Settled s' := by
  have hcons : ∀ {e : Event T} {t before after}, (∀ t b a, e ≠ .returned t b a) →
      .returned t before after ∈ e :: s.log → .returned t before after ∈ s.log :=
    fun hne hmem => (List.mem_cons.1 hmem).resolve_left fun heq => hne _ _ _ heq.symm
  cases hstep with
  | call hpc => exact h.call hinv hapart
  | loop hpc => exact h.goto fun dev hdev => by rw [hpc]; exact hdev
  | @xfer t c dir pc hasks =>
    have hxfer : Settled (s.dmaXfer P c dir) :=
      h.keep rfl rfl fun _ _ _ => hcons fun _ _ _ => by rintro ⟨⟩
    exact hxfer.goto fun dev hdev => (hasks.dev_eq ▸ hdev : (s.pc t).dev = some dev)
  | @down t c dir pc htakes hpos =>
    have hdown : Settled (s.setSema dir c.dev (s.sema dir c.dev - 1)) :=
      h.keep rfl rfl fun _ _ _ => id
    exact hdown.goto fun dev hdev => (htakes.dev_eq ▸ hdev : (s.pc t).dev = some dev)
  | leave hpc => exact h.leave hinv hpc
  | @ser t c master hpc =>
    refine h.goto fun dev hdev => ?_
    rw [hpc]
    cases master <;> exact hdev
  | raise => exact h.keep rfl rfl fun _ _ _ => id
  | @irq ch k =>
    have hirq := interrupted_irq s ch k
    exact h.keep hirq.pc hirq.began fun t before after hmem =>
      hcons (e := .irq ch k) (fun _ _ _ => by rintro ⟨⟩) (hirq.log ▸ hmem)
  | other => exact h.keep rfl rfl fun _ _ _ => hcons fun _ _ _ => by rintro ⟨⟩
  | stop hother => exact h.keep rfl rfl fun _ _ _ => hcons fun _ _ _ => by rintro ⟨⟩

end Settled

/-! ### The result -/

/-- **A blocked task has a transfer in flight.** -/
theorem Inv.exists_inFlight [DecidableEq T] (h : Inv s) (hblocked : s.Blocked t dir dev) :
    ∃ ch, InFlight s.log dir dev ch ∧
      ∀ k, ∃ s', (serialTasks P).run s [.raise ch k, .irq ch k] = some s' ∧
        s'.sema dir dev = s.sema dir dev + 1 := by
  obtain ⟨c, pc, htakes, rfl, hzero⟩ := hblocked
  obtain ⟨W, hW, hcard⟩ := h.balanced dir c.dev
  have htW : t ∈ W := (hW t).2 (htakes.owes.2 (.inr ⟨rfl, rfl⟩))
  have hpos : 0 < (atWork s.log dir c.dev).card := by
    have hW := Finset.card_pos.2 ⟨t, htW⟩
    omega
  obtain ⟨ch, hch⟩ := Finset.card_pos.1 hpos
  have hflight := mem_atWork.1 hch
  obtain ⟨-, hposts⟩ := h.held ch dir c.dev hflight
  refine ⟨ch, hflight, fun k => ⟨(s.raise ch k).irq ch k, ?_, ?_⟩⟩
  · have hraised : (s.raise ch k).dma.raw k ch = true := by
      show Function.update s.dma.raw k (Function.update (s.dma.raw k) ch true) k ch = true
      rw [Function.update_self, Function.update_self]
    have hraise : (serialTasks P).step s (.raise ch k) = some (s.raise ch k) := rfl
    exact (Machine.run_cons_of_step hraise).trans
      (Machine.run_cons_of_step (if_pos ⟨h.mask k ch, hraised⟩))
  · rw [(interrupted_irq (s.raise ch k) ch k).sema]
    exact congrArg _ (if_pos hposts)

/-- **Nobody waits for a transfer that was never started**, where every
request of the drivers finds a channel and no interrupt is served late: a
blocked task has a transfer in flight, whose interrupt will post. Where the
calls on a device do not overlap either, each returns with the counts it
found. -/
theorem waits_are_served [DecidableEq T] {regs : Chan → ChRegs} {as : List (Act T)}
    (hserved : (serialTasks P).Along Served (.start regs) as)
    (htime : (serialTasks P).Along InTime (.start regs) as)
    (hrun : (serialTasks P).run (.start regs) as = some s) :
    (∀ t dir dev, s.Blocked t dir dev →
      ∃ ch, InFlight s.log dir dev ch ∧
        ∀ k, ∃ s', (serialTasks P).run s [.raise ch k, .irq ch k] = some s' ∧
          s'.sema dir dev = s.sema dir dev + 1) ∧
    ((serialTasks P).Along Apart (.start regs) as →
      ∀ t before after, .returned t before after ∈ s.log → before = after) := by
  refine ⟨fun t dir dev hblocked => ?_, fun hapart => ?_⟩
  · have hinv : Inv s := Machine.inv_of_run
      (fun _ _ _ h hC hstep => h.step hC.1 hC.2 (step_of_eq hstep))
      (inv_start regs) (hserved.and htime) hrun
    exact hinv.exists_inFlight hblocked
  · have hboth : Inv s ∧ Settled s := Machine.inv_of_run (I := fun s => Inv s ∧ Settled s)
      (fun _ _ _ h hC hstep =>
        ⟨h.1.step hC.1.1 hC.1.2 (step_of_eq hstep), h.2.step h.1 hC.2 (step_of_eq hstep)⟩)
      ⟨inv_start regs, settled_start regs⟩ ((hserved.and htime).and hapart) hrun
    exact hboth.2.returned

/-! ### Runs -/

def restRegs : Chan → ChRegs := fun _ => ⟨0, 0, 0, 0, 0, 0, 0, 0⟩

/-- 16 bytes on the SPI at `0x100`. -/
def readSixteen : Call := ⟨.hgspiDwRead, 0x100, 0x4000, true, 0x8000, 16⟩

def writeSixteen : Call := ⟨.hgspiDwWrite, 0x100, 0x4000, true, 0x8000, 16⟩

/-- A transfer of another client. -/
def otherSixteen : DmaXferData Unit := ⟨0x9000, 0xA000, 0, 16, 0, some ()⟩

/-- One task reads, as the master, up to its first wait; the other uses the
UART at `0x200`, whose transfer fails. -/
def readAndPuts : List (Act Bool) :=
  [.call false readSixteen, .step false,
    .call true ⟨.hguartPuts, 0x200, 0x5000, true, 0x8000, 3⟩, .step true, .ser false true,
    .raise 1 .error, .irq 1 .error, .step false, .step true, .step true]

theorem waits_are_served_two_tasks :
    (serialTasks .weak).Along Served (.start restRegs) readAndPuts ∧
    (serialTasks .weak).Along InTime (.start restRegs) readAndPuts ∧
    (serialTasks .weak).Along Apart (.start restRegs) readAndPuts ∧
    ∃ s, (serialTasks .weak).run (.start restRegs) readAndPuts = some s ∧
      s.Blocked false .tx 0x100 ∧ (∃ ch, InFlight s.log .tx 0x100 ch) ∧
      ∀ t before after, .returned t before after ∈ s.log → before = after := by
  have hserved : (serialTasks .weak).Along Served (.start restRegs) readAndPuts := by decide
  have htime : (serialTasks .weak).Along InTime (.start restRegs) readAndPuts := by decide
  have hapart : (serialTasks .weak).Along Apart (.start restRegs) readAndPuts := by decide
  have hresult := waits_are_served hserved htime rfl
  refine ⟨hserved, htime, hapart, _, rfl, ⟨_, _, .clock, rfl, rfl⟩, ?_, hresult.2 hapart⟩
  obtain ⟨ch, hch, -⟩ := hresult.1 false .tx 0x100 ⟨_, _, .clock, rfl, rfl⟩
  exact ⟨ch, hch⟩

/-- Other clients have all channels, and a task writes. -/
def allTaken : List (Act Bool) :=
  List.replicate 4 (.other otherSixteen) ++ [.call false writeSixteen, .step false]

/-- One channel is left, and a task reads as the master. -/
def oneLeft : List (Act Bool) :=
  List.replicate 3 (.other otherSixteen) ++
    [.call false readSixteen, .step false, .ser false true, .step false]

/-- Both tasks write on one device. The second calls when the transfer of
the first is done and its post not yet taken. -/
def overlapping : List (Act Bool) :=
  [.call false writeSixteen, .step false, .raise 0 .done, .irq 0 .done, .call true writeSixteen,
    .step false, .step false, .step true, .raise 0 .done, .irq 0 .done, .step true, .step true]

/-- A task writes, and its transfer raises both interrupts: the handler is
called for each. -/
def doneAndError : List (Act Bool) :=
  [.call false writeSixteen, .step false, .raise 0 .done, .raise 0 .error, .irq 0 .done,
    .irq 0 .error, .step false, .step false]

/-- **A task waits for nobody**: its request was refused. A read that gets
one of its two channels waits for the other. Of two calls that overlap the
second finds the first one's post, and returns with a lower count. And a
transfer whose handler is called twice leaves a post behind. -/
theorem waits_unserved :
    (∃ s, (serialTasks .weak).run (.start restRegs) allTaken = some s ∧
      s.Blocked false .tx 0x100 ∧ ∀ ch, ¬ InFlight s.log .tx 0x100 ch) ∧
    (∃ s, (serialTasks .weak).run (.start restRegs) oneLeft = some s ∧
      s.Blocked false .tx 0x100 ∧ ∀ ch, ¬ InFlight s.log .tx 0x100 ch) ∧
    (∃ s, (serialTasks .weak).run (.start restRegs) overlapping = some s ∧
      .returned true (1, 0) (0, 0) ∈ s.log) ∧
    ∃ s, (serialTasks .weak).run (.start restRegs) doneAndError = some s ∧
      .returned false (0, 0) (1, 0) ∈ s.log := by
  refine ⟨⟨_, rfl, ⟨_, _, .tx, rfl, rfl⟩, ?_⟩, ⟨_, rfl, ⟨_, _, .clock, rfl, rfl⟩, ?_⟩,
    ⟨_, rfl, ?_⟩, _, rfl, ?_⟩
  · decide
  · decide
  · decide
  · decide

end Tasks

end Serial

end Hgsdk

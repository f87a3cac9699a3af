import Hgsdk.Dmac.Exclusive
import Mathlib.Data.Finset.Card
import Mathlib.Data.Fintype.Basic
/-!
# What a refused transfer leaves behind

`dw_dmac_xfer` claims a channel before it looks at the width. A request
that is too wide is refused and its channel stays claimed, for ever: four
of them and every later request is refused as busy. The other refusals
change nothing; the default branch, which gives its channel back, is never
taken.

Where no request is too wide, the bits that are set are the transfers that
are in flight, once no call is under way.
-/

namespace Hgsdk

namespace Dmac

variable {H : Type} {P : Periphs}

/-! ### One call -/

/-- The bits and the channels' slots are as they were. -/
structure NoTrace (dev dev' : HgdmaDw H) : Prop where
  chnUsedFlag : dev'.chnUsedFlag = dev.chnUsedFlag
  irqHdl : dev'.irqHdl = dev.irqHdl
  irqData : dev'.irqData = dev.irqData
  state : dev'.state = dev.state

theorem NoTrace.refl (dev : HgdmaDw H) : NoTrace dev dev := ⟨rfl, rfl, rfl, rfl⟩

/-- The request gets a channel and is too wide. -/
def Leaks (dev : HgdmaDw H) (data : DmaXferData H) : Prop :=
  dev.opened = true ∧ (∃ ch, dev.used ch = false) ∧
    dmaSlaveBuswidth8Bytes ≤ data.elementPerWidth

/-- **A refused request leaves no trace** unless it was too wide and had
got a channel. -/
theorem noTrace_iff {dev : HgdmaDw H} {data : DmaXferData H}
    (h : (dev.dwDmacXfer P data).1.toInt < 0) :
    NoTrace dev (dev.dwDmacXfer P data).2 ↔ ¬ Leaks dev data := by
  unfold HgdmaDw.dwDmacXfer at h ⊢
  by_cases hopened : dev.opened = true
  · rw [if_neg (not_not_intro hopened)] at h ⊢
    cases hfree : dev.freeChan with
    | none =>
      refine iff_of_true (.refl dev) ?_
      rintro ⟨-, ⟨ch, hch⟩, -⟩
      exact nomatch hch.symm.trans (HgdmaDw.freeChan_eq_none hfree ch)
    | some ch =>
      rw [hfree] at h
      dsimp only at h ⊢
      have hch := HgdmaDw.freeChan_eq_some hfree
      by_cases hwide : dmaSlaveBuswidth8Bytes ≤ data.elementPerWidth
      · rw [if_pos hwide]
        refine iff_of_false (fun hsame => ?_) (not_not_intro ⟨hopened, ⟨ch, hch⟩, hwide⟩)
        have hused : (dev.claim ch).used ch = dev.used ch :=
          congrArg (fun flag : BitVec 32 => flag.getLsbD ch) hsame.chnUsedFlag
        rw [HgdmaDw.used_claim, decide_eq_true rfl, Bool.or_true, hch] at hused
        exact nomatch hused
      · obtain ⟨stores, hstores⟩ := exists_setUp P data
        rw [if_neg hwide, hstores] at h
        exact absurd (ofNat_nonneg ch) (not_le.2 h)
  · rw [if_pos hopened]
    exact iff_of_true (.refl dev) fun hleak => hopened hleak.1

/-! ### A thread alone -/

variable {T : Type} [DecidableEq T] {s s' : Sys T} {t : T} {x : Xfer} {ch : Chan}

theorem run_stores (left : List (Store Xfer)) : ∀ {s : Sys T}, s.pc t = .store x ch left →
    ∃ s', (dmac P).run s (List.replicate left.length (.step t)) = some s' ∧
      s'.pc t = .store x ch [] ∧ s'.dev = left.foldl (HgdmaDw.write ch) s.dev := by
  induction left with
  | nil => exact fun {s} hpc => ⟨s, rfl, hpc, rfl⟩
  | cons store left ih =>
    intro s hpc
    have hstep : (dmac P).step s (.step t) =
        some ({ s with dev := s.dev.write ch store }.goto t (.store x ch left)) := by
      show s.move P t = _
      rw [Sys.move, hpc]
    obtain ⟨s', hrun, hpc', hdev⟩ := ih
      (Sys.goto_pc { s with dev := s.dev.write ch store } t (.store x ch left))
    exact ⟨s', (Machine.run_cons_of_step hstep).trans hrun, hpc', hdev⟩

/-- From the claim on, alone. -/
theorem solo_claim {data : DmaXferData Xfer} (hpc : s.pc t = .claim x data)
    (hopened : s.dev.opened = true) :
    ∃ n s', (dmac P).run s (List.replicate n (.step t)) = some s' ∧ s'.pc t = .idle ∧
      s'.dev = (s.dev.dwDmacXfer P data).2 ∧
      .returned x (s.dev.dwDmacXfer P data).1 ∈ s'.log := by
  unfold HgdmaDw.dwDmacXfer
  rw [if_neg (not_not_intro hopened)]
  have hmove : ∀ {s : Sys T} {s'}, s.move P t = some s' → (dmac P).step s (.step t) = some s' := id
  cases hfree : s.dev.freeChan with
  | none =>
    have hbusy : s.move P t = some (s.ret t x (-eBusy)) := by
      rw [Sys.move, hpc]
      dsimp only
      rw [hfree]
    exact ⟨1, _, Machine.run_cons_of_step (hmove hbusy), Function.update_self .., rfl,
      List.mem_cons_self⟩
  | some ch =>
    have hclaim : s.move P t = some (({ s with dev := s.dev.claim ch }.emit
        (.claimed x ch)).goto t (.check x ch data)) := by
      rw [Sys.move, hpc]
      dsimp only
      rw [hfree]
    dsimp only
    generalize hs₁ : ({ s with dev := s.dev.claim ch }.emit (.claimed x ch)).goto t
      (.check x ch data) = s₁ at hclaim
    have hpc₁ : s₁.pc t = .check x ch data := by
      rw [← hs₁]
      exact Function.update_self ..
    have hdev₁ : s₁.dev = s.dev.claim ch := by rw [← hs₁]; rfl
    rw [← hdev₁]
    by_cases hwide : dmaSlaveBuswidth8Bytes ≤ data.elementPerWidth
    · have hrefuse : s₁.move P t = some (s₁.ret t x retErr) := by
        rw [Sys.move, hpc₁]
        exact if_pos hwide
      rw [if_pos hwide]
      exact ⟨2, _, (Machine.run_cons_of_step (hmove hclaim)).trans
        (Machine.run_cons_of_step (hmove hrefuse)), Function.update_self .., rfl,
        List.mem_cons_self⟩
    · obtain ⟨stores, hstores⟩ := exists_setUp P data
      have hcheck : s₁.move P t = some (s₁.goto t (.store x ch stores)) := by
        rw [Sys.move, hpc₁]
        dsimp only
        rw [if_neg hwide, hstores]
      rw [if_neg hwide, hstores]
      obtain ⟨s₂, hrun, hpc₂, hdev₂⟩ := run_stores (P := P) stores
        (s₁.goto_pc t (.store x ch stores))
      have haccept : s₂.move P t = some (s₂.ret t x (BitVec.ofNat 32 ch)) := by
        rw [Sys.move, hpc₂]
      refine ⟨stores.length + 1 + 2, s₂.ret t x (BitVec.ofNat 32 ch), ?_,
        Function.update_self .., hdev₂, List.mem_cons_self⟩
      rw [List.replicate_succ, List.replicate_succ, List.replicate_succ',
        Machine.run_cons_of_step (hmove hclaim), Machine.run_cons_of_step (hmove hcheck),
        Machine.run_append_of_run hrun]
      exact Machine.run_cons_of_step (hmove haccept)

/-- **A call run alone** does what `dwDmacXfer` does. -/
theorem solo_xfer {data : DmaXferData Unit} (hpc : s.pc t = .idle) :
    ∃ n s', (dmac P).run s (.xfer t data :: List.replicate n (.step t)) = some s' ∧
      s'.pc t = .idle ∧ s'.dev = (s.dev.dwDmacXfer P (data.tag s.calls)).2 ∧
      .returned s.calls (s.dev.dwDmacXfer P (data.tag s.calls)).1 ∈ s'.log := by
  by_cases hopened : s.dev.opened = true
  · have hcall : (dmac P).step s (.xfer t data) = some
        ({ s with calls := s.calls + 1 }.goto t (.claim s.calls (data.tag s.calls))) := by
      simp only [dmac, hpc, hopened, if_true]
    obtain ⟨n, s', hrun, hend⟩ := solo_claim (P := P)
      (Sys.goto_pc { s with calls := s.calls + 1 } t (.claim s.calls (data.tag s.calls))) hopened
    exact ⟨n, s', (Machine.run_cons_of_step hcall).trans hrun, hend⟩
  · have hcall : (dmac P).step s (.xfer t data) = some
        ({ s with calls := s.calls + 1 }.ret t s.calls retErr) := by
      simp only [dmac, hpc, hopened, if_true, Bool.false_eq_true, if_false]
    refine ⟨0, _, Machine.run_cons_of_step hcall, Function.update_self .., ?_, ?_⟩
    · rw [HgdmaDw.dwDmacXfer, if_pos hopened]
      rfl
    · rw [HgdmaDw.dwDmacXfer, if_pos hopened]
      exact List.mem_cons_self

/-! ### Whole runs -/

/-- No request that has a channel is too wide. -/
def Pc.Narrow : Pc → Prop
  | .check _ _ data => ¬ dmaSlaveBuswidth8Bytes ≤ data.elementPerWidth
  | _ => True

instance : (pc : Pc) → Decidable pc.Narrow
  | .check _ _ _ => inferInstanceAs (Decidable (¬ _))
  | .idle | .claim _ _ | .store _ _ _ | .release _ _ | .test _ _ | .clear _ _ | .mark _ _
  | .look _ _ | .call _ _ | .handler _ _ _ => isTrue trivial

/-- **Where the count is right**: handlers come in time, and no request is
too wide. -/
def Tidy (s : Sys T) (a : Act T) : Prop :=
  Timely s a ∧ match a with
    | .step t => (s.pc t).Narrow
    | _ => True

omit [DecidableEq T] in
instance (s : Sys T) : (a : Act T) → Decidable (Tidy s a)
  | .step t => inferInstanceAs (Decidable (Timely s (.step t) ∧ (s.pc t).Narrow))
  | .xfer _ _ | .stop _ _ | .irq _ | .raise _ _ => isTrue ⟨trivial, trivial⟩

/-- The transfer whose channel a thread is setting up. -/
def Pc.setting : Pc → Option (Xfer × Chan)
  | .check x ch _ | .store x ch _ => some (x, ch)
  | _ => none

/-- A claimed channel has been returned, or is being set up. -/
def Settled (s : Sys T) : Prop :=
  ∀ x ch, .claimed x ch ∈ s.log →
    .returned x (BitVec.ofNat 32 ch) ∈ s.log ∨ ∃ t, (s.pc t).setting = some (x, ch)

namespace Settled

/-- A thread moves on, and does not leave a set-up behind. -/
theorem next {pc : Pc} {log : List Event} {dev : HgdmaDw Xfer} {calls : ℕ} (h : Settled s)
    (hsub : ∀ e ∈ s.log, e ∈ log)
    (hclaims : ∀ x ch, .claimed x ch ∈ log → .claimed x ch ∈ s.log ∨ pc.setting = some (x, ch))
    (hpc : ∀ x ch, (s.pc t).setting = some (x, ch) → pc.setting = some (x, ch) ∨
      .returned x (BitVec.ofNat 32 ch) ∈ log) :
    Settled ⟨dev, Function.update s.pc t pc, calls, log⟩ := by
  intro x ch hx
  have hself : pc.setting = some (x, ch) →
      ∃ u, (Function.update s.pc t pc u).setting = some (x, ch) :=
    fun hset => ⟨t, by rw [Function.update_self]; exact hset⟩
  rcases hclaims x ch hx with hx | hset
  · rcases h x ch hx with hret | ⟨u, hu⟩
    · exact .inl (hsub _ hret)
    · by_cases hut : u = t
      · rw [hut] at hu
        exact (hpc x ch hu).elim (fun hset => .inr (hself hset)) .inl
      · exact .inr ⟨u, (congrArg Pc.setting (Function.update_of_ne hut ..)).trans hu⟩
  · exact .inr (hself hset)

/-- A thread moves on with the set-up it has, if any. -/
theorem goto {pc : Pc} {dev : HgdmaDw Xfer} {calls : ℕ} (h : Settled s)
    (hpc : ∀ p, (s.pc t).setting = some p → pc.setting = some p) :
    Settled ⟨dev, Function.update s.pc t pc, calls, s.log⟩ :=
  h.next (fun _ => id) (fun _ _ => .inl) fun x ch hset => .inl (hpc (x, ch) hset)

/-- An event that is not a claim. -/
theorem emit {pc : Pc} {dev : HgdmaDw Xfer} {calls : ℕ} {e : Event} (h : Settled s)
    (he : ∀ x ch, e ≠ .claimed x ch)
    (hpc : ∀ x ch, (s.pc t).setting = some (x, ch) → e = .returned x (BitVec.ofNat 32 ch)) :
    Settled ⟨dev, Function.update s.pc t pc, calls, e :: s.log⟩ := by
  refine h.next (fun _ => List.mem_cons_of_mem _) (fun x ch hx => .inl ?_) fun x ch hset => .inr ?_
  · exact (List.mem_cons.1 hx).resolve_left (he x ch).symm
  · rw [hpc x ch hset]
    exact List.mem_cons_self

theorem step {a : Act T} (h : Settled s) (htidy : Tidy s a)
    (hstep : (dmac P).step s a = some s') : Settled s' := by
  -- outside a set-up there is none to leave behind
  have hnone : ∀ {t : T} {pc : Pc}, s.pc t = pc → pc.setting = none →
      ∀ {Q : Prop} (p), (s.pc t).setting = some p → Q := by
    intro t pc hpc hset Q p hp
    rw [hpc, hset] at hp
    exact nomatch hp
  cases step_of_eq hstep with
  | xfer hpc _ => exact h.goto fun p => hnone hpc rfl p
  | closed hpc _ => exact h.emit nofun fun x ch => hnone hpc rfl (x, ch)
  | stop _ =>
    intro x ch hx
    refine (h x ch ((List.mem_cons.1 hx).resolve_left nofun)).imp_left ?_
    exact List.mem_cons_of_mem _
  | irq hpc => exact h.goto fun p => hnone hpc rfl p
  | raise => exact h
  | busy hpc _ => exact h.emit nofun fun x ch => hnone hpc rfl (x, ch)
  | @claim t x data ch hpc _ =>
    refine h.next (fun _ => List.mem_cons_of_mem _) (fun y c hy => ?_)
      fun y c => hnone hpc rfl (y, c)
    rcases List.mem_cons.1 hy with heq | hy
    · obtain ⟨rfl, rfl⟩ := Event.claimed.inj heq
      exact .inr rfl
    · exact .inl hy
  | @tooWide t x ch data hpc hwide =>
    have hnarrow : (Pc.check x ch data).Narrow := hpc ▸ htidy.2
    exact absurd hwide hnarrow
  | check hpc _ _ => exact h.goto fun p hp => by rwa [hpc] at hp
  | store hpc => exact h.goto fun p hp => by rwa [hpc] at hp
  | accept hpc =>
    refine h.emit nofun fun y c hset => ?_
    rw [hpc] at hset
    obtain ⟨rfl, rfl⟩ := Prod.mk.inj (Option.some.inj hset)
    rfl
  | release hpc => exact h.emit nofun fun x ch => hnone hpc rfl (x, ch)
  | test hpc => exact h.goto fun p => hnone hpc rfl p
  | clear hpc => exact h.goto fun p => hnone hpc rfl p
  | mark hpc => exact h.goto fun p => hnone hpc rfl p
  | look hpc => exact h.goto fun p => hnone hpc rfl p
  | call hpc _ => exact h.goto fun p => hnone hpc rfl p
  | handler hpc => exact h.emit nofun fun x ch => hnone hpc rfl (x, ch)

end Settled

/-- No call of `dw_dmac_xfer` has a channel it has not returned. -/
def Quiet (s : Sys T) : Prop := ∀ t, (s.pc t).setting = none

omit [DecidableEq T] in
/-- Once no call is under way, the holders are the transfers in flight. -/
theorem holds_iff_inFlight (h : Inv s) (hsettled : Settled s) (hquiet : Quiet s) :
    Holds s.log x ch ↔ InFlight s.log x ch := by
  refine ⟨fun hx => ⟨?_, hx.2⟩, h.holds_of_inFlight⟩
  rcases hsettled x ch hx.1 with hret | ⟨t, ht⟩
  · exact hret
  · exact nomatch (hquiet t).symm.trans ht

/-- The channels whose bit is set. -/
def usedChans (s : Sys T) : Finset Chan := Finset.univ.filter fun ch => s.dev.used ch = true

/-- The transfers that are accepted and not yet stopped. -/
def inFlight (s : Sys T) : Finset Xfer :=
  (Finset.range s.calls).filter fun x => ∃ ch, InFlight s.log x ch

omit [DecidableEq T] in
/-- One bit for each transfer in flight. -/
theorem card_usedChans (h : Inv s) (hsettled : Settled s) (hquiet : Quiet s) :
    (usedChans s).card = (inFlight s).card := by
  have hmem : ∀ x ch, Holds s.log x ch → x ∈ inFlight s := by
    intro x ch hx
    refine Finset.mem_filter.2 ⟨Finset.mem_range.2 (h.fresh x ch hx.1), ch, ?_⟩
    exact (holds_iff_inFlight h hsettled hquiet).1 hx
  have hholder : ∀ ch ∈ usedChans s, ∃ x, Holds s.log x ch := by
    intro ch hch
    exact (h.bit ch).1 (Finset.mem_filter.1 hch).2
  choose! holder hholds using hholder
  refine Finset.card_bij (fun ch _ => holder ch) ?_ ?_ ?_
  · exact fun ch hch => hmem _ ch (hholds ch hch)
  · intro ch hch ch' hch' heq
    have hclaimed := (hholds ch' hch').1
    rw [← heq] at hclaimed
    exact h.chan _ ch ch' (hholds ch hch).1 hclaimed
  · intro x hx
    obtain ⟨-, ch, hflight⟩ := Finset.mem_filter.1 hx
    have hx := h.holds_of_inFlight hflight
    have hch : ch ∈ usedChans s :=
      Finset.mem_filter.2 ⟨Finset.mem_univ ch, (h.bit ch).2 ⟨x, hx⟩⟩
    exact ⟨ch, hch, h.unique _ x ch (hholds ch hch) hx⟩

/-- **Refused requests.** One leaves no trace exactly if it was not too
wide, or had got no channel; and in every run without such a request, with
handlers in time, the bits set are as many as the transfers in flight. -/
theorem refused_no_trace_iff (P : Periphs) (T : Type) [DecidableEq T] :
    (∀ (dev : HgdmaDw H) (data : DmaXferData H), (dev.dwDmacXfer P data).1.toInt < 0 →
      (NoTrace dev (dev.dwDmacXfer P data).2 ↔ ¬ Leaks dev data)) ∧
    ∀ (regs : Chan → ChRegs) (acts : List (Act T)) (s : Sys T),
      (dmac P).Along Tidy (.start regs) acts → (dmac P).run (.start regs) acts = some s →
      Quiet s → (usedChans s).card = (inFlight s).card := by
  refine ⟨fun dev data h => noTrace_iff h, fun regs acts s htidy hrun hquiet => ?_⟩
  obtain ⟨hinv, hsettled⟩ : Inv s ∧ Settled s := Machine.inv_of_run (I := fun s => Inv s ∧ Settled s)
    (fun _ _ _ h hC hstep => ⟨h.1.step hC.1 hstep, h.2.step hC hstep⟩)
    ⟨inv_start regs, fun _ _ hx => nomatch hx⟩ htidy hrun
  exact card_usedChans hinv hsettled hquiet

/-- Four transfers take the channels, and a fifth request is refused. -/
def fiveRequests : List (Act Bool) :=
  (List.replicate 4 (.xfer true sixteenBytes :: throughXfer true)).flatten ++
    [.xfer true sixteenBytes, .step true]

/-- An open device without a free channel refuses and leaves no trace, and
after a request it has refused there is a bit for each transfer in flight. -/
theorem refused_no_trace_busy :
    (let dev : HgdmaDw Unit := { HgdmaDw.dwDmacAttach zeroRegs with chnUsedFlag := 0xF };
      dev.opened = true ∧ (dev.dwDmacXfer .weak sixteenBytes).1 = -eBusy ∧
        NoTrace dev (dev.dwDmacXfer .weak sixteenBytes).2) ∧
    ∃ s, (dmac .weak).run (.start zeroRegs : Sys Bool) fiveRequests = some s ∧
      s.log.head? = some (.returned 4 (-eBusy)) ∧ Quiet s ∧
      (usedChans s).card = (inFlight s).card := by
  have hboth := refused_no_trace_iff (H := Unit) .weak Bool
  have htidy : (dmac .weak).Along Tidy (.start zeroRegs : Sys Bool) fiveRequests := by
    decide +kernel
  refine ⟨⟨rfl, by decide, (hboth.1 _ _ (by decide)).2 fun h => absurd h.2.2 (by decide)⟩, _, rfl,
    by decide +kernel, ?_, ?_⟩
  · rintro (_ | _) <;> rfl
  · exact hboth.2 zeroRegs fiveRequests _ htidy rfl (by rintro (_ | _) <;> rfl)

/-- Four requests of eight-byte elements are refused, and take all four
channels: the next transfer of bytes is refused as busy. -/
theorem refused_exhaust_channels :
    let wide : DmaXferData Unit := { sixteenBytes with elementPerWidth := dmaSlaveBuswidth8Bytes }
    let refuse (dev : HgdmaDw Unit) := (dev.dwDmacXfer .weak wide).2
    let dev : HgdmaDw Unit := .dwDmacAttach zeroRegs
    (dev.dwDmacXfer .weak wide).1 = retErr ∧ ¬ NoTrace dev (refuse dev) ∧
      (refuse (refuse (refuse (refuse dev)))).chnUsedFlag = 0xF ∧
      ((refuse (refuse (refuse (refuse dev)))).dwDmacXfer .weak sixteenBytes).1 = -eBusy := by
  refine ⟨by decide, fun h => absurd h.chnUsedFlag (by decide), by decide, by decide⟩

end Dmac

end Hgsdk

import Hgsdk.M2mDma.Model
/-!
# The channels and their owners

A channel is owned by the call that claimed it, until that call frees it,
and `busy_flag` is the set of the channels that are owned. A channel that
nobody owns is not running. A channel that is running does what its owner
was called for.
-/

namespace Hgsdk

namespace M2mDma

open Copies

variable {T : Type} [DecidableEq T] {s s' : Sys T} {t : T} {op : Op} {n : BitVec 32} {c : Chan}

/-! ### What a step can do -/

/-- `hw_memcpy` or `hw_memset`, by what is asked for. -/
def hwEntry (m2mdma : Bool) (op : Op) (n : BitVec 32) : Pc :=
  match op with
  | .copy dest src => hwMemcpy m2mdma dest src n
  | .fill dest val => hwMemset m2mdma dest val n

/-- **What a step can do.** -/
inductive Step (s : Sys T) : Act T → Sys T → Prop
  | call {t : T} {op : Op} {n : BitVec 32} (hpc : s.pc t = .idle)
      : Step s (.call t op n) (s.goto t (.hw op n))
  | hw {t : T} {op : Op} {n : BitVec 32} (hpc : s.pc t = .hw op n) : Step s (.step t) (s.goto t
      (hwEntry s.m2mdma op n))
  | dma {t : T} {op : Op} {n : BitVec 32} (hpc : s.pc t = .dma op n)
      : Step s (.step t) (s.goto t (memDma op n))
  | claim {t : T} {op : Op} {n : BitVec 32} {c : Chan} (hpc : s.pc t = .claim op n)
      (hfree : memDmaGetFreeCh s.busyFlag = some c) :
    Step s (.step t) ({ s with busyFlag := s.busyFlag ||| BitVec.twoPow 32 c }.goto t
      (.program op n c (stores op n)))
  | full {t : T} {op : Op} {n : BitVec 32} (hpc : s.pc t = .claim op n)
      (hfree : memDmaGetFreeCh s.busyFlag = none) :
    Step s (.step t) (s.goto t (.cpu op n 0))
  | byte {t : T} {op : Op} {n : BitVec 32} {i : ℕ} (hpc : s.pc t = .cpu op n i) (hi : i < n.toNat) :
    Step s (.step t) ({ s with mem := op.byte s.mem i }.goto t (.cpu op n (i + 1)))
  | copied {t : T} {op : Op} {n : BitVec 32} {i : ℕ} (hpc : s.pc t = .cpu op n i)
      (hi : n.toNat ≤ i) :
    Step s (.step t) (s.goto t .idle)
  | store {t : T} {op : Op} {n : BitVec 32} {c : Chan} {w : Store} {left : List Store}
      (hpc : s.pc t = .program op n c (w :: left)) :
    Step s (.step t) ((s.setCh c ((s.ch c).write w)).goto t (.program op n c left))
  | spin {t : T} {op : Op} {n : BitVec 32} {c : Chan} (hpc : s.pc t = .program op n c [])
      (hbusy : (s.ch c).Busy) :
    Step s (.step t) s
  | ended {t : T} {op : Op} {n : BitVec 32} {c : Chan} (hpc : s.pc t = .program op n c [])
      (hbusy : ¬ (s.ch c).Busy) :
    Step s (.step t) (s.goto t (.free op n c))
  | free {t : T} {op : Op} {n : BitVec 32} {c : Chan} (hpc : s.pc t = .free op n c) :
    Step s (.step t) ({ s with busyFlag := s.busyFlag &&& ~~~BitVec.twoPow 32 c }.goto t .idle)
  | xferByte {c : Chan} {x : Xfer} (hx : (s.ch c).xfer = some x) (hdone : x.done < x.n) :
    Step s (.engine c) ({ s with mem := x.op.byte s.mem x.done }.setCh c
      { s.ch c with xfer := some { x with done := x.done + 1 } })
  | xferEnd {c : Chan} {x : Xfer} (hx : (s.ch c).xfer = some x) (hdone : x.n ≤ x.done) :
    Step s (.engine c) (s.setCh c (s.ch c).stop)
  | write {x : BitVec 32} {v : Byte}
      : Step s (.write x v) { s with mem := Function.update s.mem x v }
  | attach : Step s .attach { s with m2mdma := true }

theorem step_of_eq {a : Act T} (h : dma.step s a = some s') : Step s a s' := by
  cases a with
  | call t op n =>
    obtain ⟨hpc, hs'⟩ := Option.ite_none_right_eq_some.1 h
    obtain rfl := Option.some.inj hs'
    exact .call hpc
  | step t =>
    simp only [dma, Sys.move] at h
    split at h
    · exact nomatch h
    · obtain rfl := Option.some.inj h
      exact .hw ‹_›
    · obtain rfl := Option.some.inj h
      exact .hw ‹_›
    · obtain rfl := Option.some.inj h
      exact .dma ‹_›
    · split at h
      · obtain rfl := Option.some.inj h
        exact .full ‹_› ‹_›
      · obtain rfl := Option.some.inj h
        exact .claim ‹_› ‹_›
    · split at h
      · obtain rfl := Option.some.inj h
        exact .byte ‹_› ‹_›
      · obtain rfl := Option.some.inj h
        exact .copied ‹_› (not_lt.1 ‹_›)
    · obtain rfl := Option.some.inj h
      exact .store ‹_›
    · split at h
      · obtain rfl := Option.some.inj h
        exact .spin ‹_› ‹_›
      · obtain rfl := Option.some.inj h
        exact .ended ‹_› ‹_›
    · obtain rfl := Option.some.inj h
      exact .free ‹_›
  | engine c =>
    simp only [dma, Sys.engine] at h
    split at h
    · exact nomatch h
    · split at h
      · obtain rfl := Option.some.inj h
        exact .xferByte ‹_› ‹_›
      · obtain rfl := Option.some.inj h
        exact .xferEnd ‹_› (not_lt.1 ‹_›)
  | write x v =>
    obtain rfl := Option.some.inj h
    exact .write
  | attach =>
    obtain rfl := Option.some.inj h
    exact .attach

theorem Step.eq {a : Act T} (h : Step s a s') : M2mDma.dma.step s a = some s' := by
  cases h with
  | call hpc => exact if_pos hpc
  | @hw t op n hpc =>
    simp only [M2mDma.dma, Sys.move, hpc]
    cases op <;> rfl
  | dma hpc => simp only [M2mDma.dma, Sys.move, hpc]
  | claim hpc hfree => simp only [M2mDma.dma, Sys.move, hpc, hfree]
  | full hpc hfree => simp only [M2mDma.dma, Sys.move, hpc, hfree]
  | byte hpc hi => simp only [M2mDma.dma, Sys.move, hpc, if_pos hi]
  | copied hpc hi => simp only [M2mDma.dma, Sys.move, hpc, if_neg (not_lt.2 hi)]
  | store hpc => simp only [M2mDma.dma, Sys.move, hpc]
  | spin hpc hbusy => simp only [M2mDma.dma, Sys.move, hpc, if_pos hbusy]
  | ended hpc hbusy => simp only [M2mDma.dma, Sys.move, hpc, if_neg hbusy]
  | free hpc => simp only [M2mDma.dma, Sys.move, hpc]
  | xferByte hx hdone => simp only [M2mDma.dma, Sys.engine, hx, if_pos hdone]
  | xferEnd hx hdone => simp only [M2mDma.dma, Sys.engine, hx, if_neg (not_lt.2 hdone)]
  | write => rfl
  | attach => rfl

/-- A call goes to the processor, to the driver, or is over at once. -/
theorem hwEntry_cases (m2mdma : Bool) (op : Op) (n : BitVec 32) :
    (Null op ∧ hwEntry m2mdma op n = .idle) ∨
      ¬ Null op ∧ (hwEntry m2mdma op n = .dma op n ∨ hwEntry m2mdma op n = .cpu op n 0) := by
  have hcall : ∀ longer op, (Null op ∧ hwCall longer m2mdma op n = .idle) ∨
      ¬ Null op ∧
        (hwCall longer m2mdma op n = .dma op n ∨ hwCall longer m2mdma op n = .cpu op n 0) := by
    intro longer op
    by_cases hnull : Null op
    · exact Or.inl ⟨hnull, if_neg (not_not.2 hnull)⟩
    · rw [hwCall, if_pos hnull]
      refine Or.inr ⟨hnull, ?_⟩
      split
      · exact Or.inl rfl
      · exact Or.inr rfl
  cases op with
  | copy dest src => exact hcall 45 _
  | fill dest val => exact hcall 12 _

theorem memDma_cases (op : Op) (n : BitVec 32) :
    ((n = 0 ∨ Null op) ∧ memDma op n = .idle) ∨
      n ≠ 0 ∧ ¬ Null op ∧ memDma op n = .claim op n := by
  by_cases h : n = 0 ∨ Null op
  · exact Or.inl ⟨h, if_pos h⟩
  · obtain ⟨hn, hnull⟩ := not_or.1 h
    exact Or.inr ⟨hn, hnull, if_neg h⟩

/-! ### The registers -/

/-- `DTE` is set while the channel is running. -/
def MemDmaCh.Wf (r : MemDmaCh) : Prop := r.Busy ↔ r.xfer ≠ none

theorem MemDmaCh.xfer_write_con {r : MemDmaCh} {v : BitVec 32} (hv : v &&& dte ≠ 0) :
    (r.write (.con v)).xfer = some { r with con := v }.latch := if_pos hv

theorem MemDmaCh.xfer_write_con_of_not {r : MemDmaCh} {v : BitVec 32} (hv : ¬ v &&& dte ≠ 0) :
    (r.write (.con v)).xfer = none := if_neg hv

theorem MemDmaCh.Wf.write {r : MemDmaCh} (h : r.Wf) (w : Store) : (r.write w).Wf := by
  cases w with
  | con v =>
    by_cases hv : v &&& dte ≠ 0
    · refine iff_of_true hv ?_
      rw [MemDmaCh.xfer_write_con hv]
      exact nofun
    · exact iff_of_false hv fun hne => hne (MemDmaCh.xfer_write_con_of_not hv)
  | _ => exact h

theorem MemDmaCh.wf_stop (r : MemDmaCh) : r.stop.Wf := by
  refine iff_of_false (fun hbusy => hbusy ?_) (fun hne => hne rfl)
  have hmask : ~~~dte &&& dte = 0 := by decide
  rw [stop, BitVec.and_assoc, hmask]
  exact BitVec.and_zero

/-- **The stores of a call** program its channel for it. -/
theorem xfer_stores (op : Op) (r : MemDmaCh) (hn : n ≠ 0) :
    ((stores op n).foldl MemDmaCh.write r).xfer = some ⟨op, n.toNat, 0⟩ := by
  have hlen : (n - 1).toNat + 1 = n.toNat := by
    have hpos : n.toNat ≠ 0 := fun h0 => hn (BitVec.eq_of_toNat_eq h0)
    have hlt := n.isLt
    have hone : (1 : BitVec 32).toNat = 1 := rfl
    rw [BitVec.toNat_sub, hone]
    omega
  have hdte : dte &&& dte ≠ 0 := by decide
  have hboth : (dtm ||| dte) &&& dte ≠ 0 := by decide
  have hdtm : ¬ dte &&& dtm ≠ 0 := by decide
  have hfill : (dtm ||| dte) &&& dtm ≠ 0 := by decide
  cases op with
  | copy dest src =>
    simp only [stores, List.foldl_cons, List.foldl_nil, MemDmaCh.xfer_write_con hdte]
    simp only [MemDmaCh.write, MemDmaCh.latch, if_neg hdtm, hlen]
  | fill dest val =>
    have hval : (val.setWidth 32).setWidth 8 = val := by simp
    simp only [stores, List.foldl_cons, List.foldl_nil, MemDmaCh.xfer_write_con hboth]
    simp only [MemDmaCh.write, MemDmaCh.latch, if_pos hfill, hlen, hval]

/-- Only the last of them starts it. -/
theorem xfer_write_of_suffix {w w' : Store} {left : List Store} {r : MemDmaCh}
    (h : w :: w' :: left <:+ stores op n) (hr : r.xfer = none) : (r.write w).xfer = none := by
  have hzero : ¬ (0 : BitVec 32) &&& dte ≠ 0 := by decide
  cases w with
  | con v =>
    have hv : v = 0 := by
      cases op <;> simp [stores, List.suffix_cons_iff] at h <;> exact h.1
    rw [hv]
    exact MemDmaCh.xfer_write_con_of_not hzero
  | _ => exact hr

/-! ### The owners -/

/-- A channel on the way to run for its owner, with these stores left. -/
def Programmed (op : Op) (n : BitVec 32) (r : MemDmaCh) : List Store → Prop
  | [] => ∀ x, r.xfer = some x → x.op = op ∧ x.n = n.toNat
  | w :: left => w :: left <:+ stores op n ∧ r.xfer = none ∧
      ((w :: left).foldl MemDmaCh.write r).xfer = some ⟨op, n.toNat, 0⟩

theorem Programmed.write {r : MemDmaCh} {w : Store} {left : List Store}
    (h : Programmed op n r (w :: left)) : Programmed op n (r.write w) left := by
  obtain ⟨hsuffix, hnone, hfold⟩ := h
  cases left with
  | nil =>
    intro x hx
    obtain rfl := Option.some.inj (hx.symm.trans hfold)
    exact ⟨rfl, rfl⟩
  | cons w' left =>
    exact ⟨(List.suffix_cons w _).trans hsuffix, xfer_write_of_suffix hsuffix hnone, hfold⟩

/-- A channel that is ready for its first store. -/
theorem programmed_stores {r : MemDmaCh} (hn : n ≠ 0) (hr : r.xfer = none) :
    Programmed op n r (stores op n) := by
  have hfold := xfer_stores op r hn
  cases op <;> exact ⟨List.suffix_rfl, hr, hfold⟩

/-- What holds of the channels where a thread is. -/
def Pc.Ok (ch : Chan → MemDmaCh) : Pc → Prop
  | claim _ n => n ≠ 0
  | program op n c left => Programmed op n (ch c) left
  | free _ _ c => (ch c).xfer = none
  | _ => True

theorem Pc.Ok.congr {ch ch' : Chan → MemDmaCh} {pc : Pc} (h : pc.Ok ch)
    (hch : ∀ c, pc.chan = some c → ch' c = ch c) : pc.Ok ch' := by
  cases pc with
  | program op n c left =>
    rw [Ok, hch c rfl]
    exact h
  | free op n c =>
    rw [Ok, hch c rfl]
    exact h
  | _ => exact h

omit [DecidableEq T] in
/-- A store to the channel that a thread has leaves the others. -/
theorem update_of_chan {r : MemDmaCh} (hchan : (s.pc t).chan = some c) :
    ∀ c', (s.pc t).chan ≠ some c' → Function.update s.ch c r c' = s.ch c' := by
  intro c' hc'
  refine Function.update_of_ne ?_ ..
  rintro rfl
  exact hc' hchan

/-- **Channels and owners.** -/
structure Inv (s : Sys T) : Prop where
  once : ∀ t t' c, (s.pc t).chan = some c → (s.pc t').chan = some c → t = t'
  busy : ∀ i : ℕ, s.busyFlag.getLsbD i = true ↔ ∃ t c, (s.pc t).chan = some c ∧ c.val = i
  rest : ∀ c, (∀ t, (s.pc t).chan ≠ some c) → (s.ch c).xfer = none
  wf : ∀ c, (s.ch c).Wf
  ok : ∀ t, (s.pc t).Ok s.ch

namespace Inv

omit [DecidableEq T] in
theorem start (mem : Memory) (ch : Chan → MemDmaCh) : Inv (Sys.start mem ch : Sys T) where
  once _ _ _ h := nomatch h
  busy i := iff_of_false (by simp [Sys.start]) fun ⟨_, _, h, _⟩ => nomatch h
  rest _ _ := rfl
  wf _ := iff_of_false (fun h => h (BitVec.zero_and)) fun h => h rfl
  ok _ := trivial

omit [DecidableEq T] in
/-- What holds where a thread is known to be. -/
theorem ok_of_eq (h : Inv s) {pc : Pc} (hpc : s.pc t = pc) : pc.Ok s.ch := hpc ▸ h.ok t

omit [DecidableEq T] in
/-- A channel that is running has an owner, who waits for it. -/
theorem exists_owner (h : Inv s) {x : Xfer} (hx : (s.ch c).xfer = some x) :
    ∃ t op n, s.pc t = .program op n c [] ∧ x.op = op ∧ x.n = n.toNat := by
  by_cases hown : ∃ t, (s.pc t).chan = some c
  · obtain ⟨t, ht⟩ := hown
    have hok := h.ok t
    cases hpc : s.pc t with
    | program op n c' left =>
      rw [hpc] at ht hok
      obtain rfl := Option.some.inj ht
      cases left with
      | nil => exact ⟨t, op, n, hpc, hok x hx⟩
      | cons w left => exact nomatch hx.symm.trans hok.2.1
    | free op n c' =>
      rw [hpc] at ht hok
      obtain rfl := Option.some.inj ht
      exact nomatch hx.symm.trans hok
    | _ =>
      rw [hpc] at ht
      exact nomatch ht
  · exact nomatch hx.symm.trans (h.rest c fun t ht => hown ⟨t, ht⟩)

/-- **A step that leaves the owners**: a thread goes on with the channel it
has, if any, and no other channel changes. -/
theorem keep (h : Inv s) {pc : Pc} (hpc : s'.pc = Function.update s.pc t pc)
    (hchan : pc.chan = (s.pc t).chan) (hbusy : s'.busyFlag = s.busyFlag)
    (hch : ∀ c, (s.pc t).chan ≠ some c → s'.ch c = s.ch c)
    (hwf : ∀ c, (s.pc t).chan = some c → (s'.ch c).Wf) (hok : pc.Ok s'.ch) : Inv s' := by
  -- everyone has the channel it had
  have hsame : ∀ t', (s'.pc t').chan = (s.pc t').chan := by
    intro t'
    rw [hpc]
    by_cases htt : t' = t
    · rw [htt, Function.update_self, hchan]
    · rw [Function.update_of_ne htt]
  refine ⟨fun t₁ t₂ c h₁ h₂ => ?_, fun i => ?_, fun c hc => ?_, fun c => ?_, fun t' => ?_⟩
  · rw [hsame] at h₁ h₂
    exact h.once t₁ t₂ c h₁ h₂
  · simp only [hbusy, hsame]
    exact h.busy i
  · have hold : ∀ t', (s.pc t').chan ≠ some c := fun t' => hsame t' ▸ hc t'
    rw [hch c (hold t)]
    exact h.rest c hold
  · by_cases hc : (s.pc t).chan = some c
    · exact hwf c hc
    · rw [hch c hc]
      exact h.wf c
  · by_cases htt : t' = t
    · rw [htt, hpc, Function.update_self]
      exact hok
    · rw [hpc, Function.update_of_ne htt]
      refine (h.ok t').congr fun c hc => hch c fun hc' => htt (h.once t' t c hc hc')

/-- A thread goes on without a store to a channel. -/
theorem goto (h : Inv s) {pc : Pc} (hchan : pc.chan = (s.pc t).chan) (hok : pc.Ok s.ch) :
    Inv (s.goto t pc) :=
  h.keep rfl hchan rfl (fun _ _ => rfl) (fun c _ => h.wf c) hok

/-- A step that changes the one channel a thread has. -/
theorem setCh (h : Inv s) {pc : Pc} {r : MemDmaCh} (hchan : (s.pc t).chan = some c)
    (hpc : s'.pc = Function.update s.pc t pc) (hpcchan : pc.chan = some c)
    (hbusy : s'.busyFlag = s.busyFlag) (hch : s'.ch = Function.update s.ch c r) (hwf : r.Wf)
    (hok : pc.Ok (Function.update s.ch c r)) : Inv s' := by
  refine h.keep hpc (hpcchan.trans hchan.symm) hbusy (fun c' hc' => ?_) (fun c' hc' => ?_)
    (hch ▸ hok)
  · rw [hch]
    exact update_of_chan hchan c' hc'
  · obtain rfl := Option.some.inj (hchan.symm.trans hc')
    rw [hch, Function.update_self]
    exact hwf

omit [DecidableEq T] in
theorem getLsbD_of_free (hfree : memDmaGetFreeCh s.busyFlag = some c) :
    s.busyFlag.getLsbD c = false := by
  have hfound := List.find?_some hfree
  simpa using hfound

/-- **A channel is claimed.** -/
theorem claim (h : Inv s) (hpc : s.pc t = .claim op n)
    (hfree : memDmaGetFreeCh s.busyFlag = some c) :
    Inv ({ s with busyFlag := s.busyFlag ||| BitVec.twoPow 32 c }.goto t
      (.program op n c (stores op n))) := by
  have hbit := getLsbD_of_free hfree
  -- nobody has the channel yet
  have hnone : ∀ t', (s.pc t').chan ≠ some c := fun t' ht' =>
    Bool.false_ne_true (hbit.symm.trans ((h.busy c).2 ⟨t', c, ht', rfl⟩))
  have hn : n ≠ 0 := h.ok_of_eq hpc
  have hown : ∀ {t' c'}, (Function.update s.pc t (.program op n c (stores op n)) t').chan =
      some c' → (t' = t ∧ c' = c) ∨ t' ≠ t ∧ (s.pc t').chan = some c' := by
    intro t' c' ht'
    by_cases htt : t' = t
    · rw [htt, Function.update_self] at ht'
      exact Or.inl ⟨htt, (Option.some.inj ht').symm⟩
    · rw [Function.update_of_ne htt] at ht'
      exact Or.inr ⟨htt, ht'⟩
  -- and who has one keeps it
  have hold : ∀ {t' c'}, (s.pc t').chan = some c' →
      (Function.update s.pc t (.program op n c (stores op n)) t').chan = some c' := by
    intro t' c' ht'
    have htt : t' ≠ t := by
      rintro rfl
      rw [hpc] at ht'
      exact nomatch ht'
    rw [Function.update_of_ne htt]
    exact ht'
  refine ⟨fun t₁ t₂ c' h₁ h₂ => ?_, fun i => ?_, fun c' hc' => ?_, h.wf, fun t' => ?_⟩
  · obtain ⟨ht₁, hc₁⟩ | ⟨-, h₁'⟩ := hown h₁ <;> obtain ⟨ht₂, hc₂⟩ | ⟨-, h₂'⟩ := hown h₂
    · exact ht₁.trans ht₂.symm
    · exact absurd (hc₁ ▸ h₂') (hnone t₂)
    · exact absurd (hc₂ ▸ h₁') (hnone t₁)
    · exact h.once t₁ t₂ c' h₁' h₂'
  · have hi : (s.busyFlag ||| BitVec.twoPow 32 c).getLsbD i = true ↔
        s.busyFlag.getLsbD i = true ∨ c.val = i := by
      have hc := c.isLt
      rw [BitVec.getLsbD_or, BitVec.getLsbD_twoPow, Bool.or_eq_true, Bool.and_eq_true,
        decide_eq_true_eq, decide_eq_true_eq]
      constructor
      · exact Or.imp_right fun hi => hi.2
      · exact Or.imp_right fun hi => ⟨by omega, hi⟩
    refine hi.trans ?_
    rw [h.busy i]
    constructor
    · rintro (⟨t', c', ht', hc'⟩ | rfl)
      · exact ⟨t', c', hold ht', hc'⟩
      · refine ⟨t, c, ?_, rfl⟩
        simp only [Sys.goto, Function.update_self, Pc.chan]
    · rintro ⟨t', c', ht', hc'⟩
      obtain ⟨-, rfl⟩ | ⟨-, ht'⟩ := hown ht'
      · exact Or.inr hc'
      · exact Or.inl ⟨t', c', ht', hc'⟩
  · exact h.rest c' fun t' ht' => hc' t' (hold ht')
  · by_cases htt : t' = t
    · subst htt
      simp only [Sys.goto, Function.update_self]
      exact programmed_stores hn (h.rest c hnone)
    · simp only [Sys.goto, Function.update_of_ne htt]
      exact h.ok t'

/-- **A channel is freed.** -/
theorem free (h : Inv s) (hpc : s.pc t = .free op n c) :
    Inv ({ s with busyFlag := s.busyFlag &&& ~~~BitVec.twoPow 32 c }.goto t .idle) := by
  have hchan : (s.pc t).chan = some c := by rw [hpc]; rfl
  have hown : ∀ {t' c'}, (Function.update s.pc t .idle t').chan = some c' ↔
      t' ≠ t ∧ (s.pc t').chan = some c' := by
    intro t' c'
    by_cases htt : t' = t
    · rw [htt, Function.update_self]
      exact iff_of_false nofun fun hne => hne.1 rfl
    · rw [Function.update_of_ne htt]
      exact ⟨fun ht' => ⟨htt, ht'⟩, And.right⟩
  refine ⟨fun t₁ t₂ c' h₁ h₂ => h.once t₁ t₂ c' (hown.1 h₁).2 (hown.1 h₂).2, fun i => ?_,
    fun c' hc' => ?_, h.wf, fun t' => ?_⟩
  · have hi : (s.busyFlag &&& ~~~BitVec.twoPow 32 c).getLsbD i = true ↔
        s.busyFlag.getLsbD i = true ∧ c.val ≠ i := by
      rw [BitVec.getLsbD_and, BitVec.getLsbD_not, BitVec.getLsbD_twoPow]
      have hlt : s.busyFlag.getLsbD i = true → i < 32 := BitVec.lt_of_getLsbD
      have hc := c.isLt
      cases hb : s.busyFlag.getLsbD i with
      | false => simp
      | true =>
        have hi := hlt hb
        have hc32 : c.val < 32 := by omega
        simp [hi, hc32]
    refine hi.trans ?_
    rw [h.busy i]
    constructor
    · rintro ⟨⟨t', c', ht', rfl⟩, hne⟩
      refine ⟨t', c', hown.2 ⟨?_, ht'⟩, rfl⟩
      rintro rfl
      exact hne (congrArg Fin.val (Option.some.inj (hchan.symm.trans ht')))
    · rintro ⟨t', c', ht', rfl⟩
      obtain ⟨htt, ht'⟩ := hown.1 ht'
      refine ⟨⟨t', c', ht', rfl⟩, fun heq => htt ?_⟩
      exact h.once t' t c' ht' (hchan.trans (congrArg some (Fin.ext heq)))
  · by_cases hcc : c' = c
    · rw [hcc]
      exact h.ok_of_eq hpc
    · refine h.rest c' fun t' ht' => ?_
      have htt : t' ≠ t := by
        rintro rfl
        exact hcc (Option.some.inj (ht'.symm.trans hchan))
      exact hc' t' (hown.2 ⟨htt, ht'⟩)
  · by_cases htt : t' = t
    · subst htt
      simp only [Sys.goto, Function.update_self]
      trivial
    · simp only [Sys.goto, Function.update_of_ne htt]
      exact h.ok t'

/-- The engine runs for the thread that waits for it. -/
theorem engine (h : Inv s) {r : MemDmaCh} (hpc : s.pc t = .program op n c []) (hpc' : s'.pc = s.pc)
    (hbusy : s'.busyFlag = s.busyFlag) (hch : s'.ch = Function.update s.ch c r) (hwf : r.Wf)
    (hok : Programmed op n r []) : Inv s' := by
  have hchan : (s.pc t).chan = some c := by rw [hpc]; rfl
  have hsame : s'.pc = Function.update s.pc t (s.pc t) := by rw [hpc', Function.update_eq_self]
  refine h.setCh hchan hsame hchan hbusy hch hwf ?_
  rw [hpc, Pc.Ok, Function.update_self]
  exact hok

/-- **Every step keeps it.** -/
theorem step (h : Inv s) {a : Act T} (hstep : Step s a s') : Inv s' := by
  cases hstep with
  | call hpc => exact h.goto (by rw [hpc]; rfl) trivial
  | @hw t op n hpc =>
    have hchan : (s.pc t).chan = none := by rw [hpc]; rfl
    obtain ⟨-, heq⟩ | ⟨-, heq | heq⟩ := hwEntry_cases s.m2mdma op n <;> rw [heq] <;>
      exact h.goto hchan.symm trivial
  | @dma t op n hpc =>
    have hchan : (s.pc t).chan = none := by rw [hpc]; rfl
    obtain ⟨-, heq⟩ | ⟨hn, -, heq⟩ := memDma_cases op n <;> rw [heq]
    · exact h.goto hchan.symm trivial
    · exact h.goto hchan.symm hn
  | claim hpc hfree => exact h.claim hpc hfree
  | full hpc => exact h.goto (by rw [hpc]; rfl) trivial
  | byte hpc =>
    exact h.keep rfl (by rw [hpc]; rfl) rfl (fun _ _ => rfl) (fun c _ => h.wf c) trivial
  | copied hpc => exact h.goto (by rw [hpc]; rfl) trivial
  | @store t op n c w left hpc =>
    have hchan : (s.pc t).chan = some c := by rw [hpc]; rfl
    have hok : Programmed op n (s.ch c) (w :: left) := h.ok_of_eq hpc
    refine h.setCh hchan rfl rfl rfl rfl ((h.wf c).write w) ?_
    rw [Pc.Ok, Function.update_self]
    exact hok.write
  | spin => exact h
  | @ended t op n c hpc hbusy =>
    refine h.goto (by rw [hpc]; rfl) ?_
    exact not_not.1 fun hne => hbusy ((h.wf c).2 hne)
  | free hpc => exact h.free hpc
  | @xferByte c x hx hdone =>
    obtain ⟨t, op, n, hpc, hop, hn⟩ := h.exists_owner hx
    refine h.engine hpc rfl rfl rfl ?_ ?_
    · exact iff_of_true ((h.wf c).2 fun hnone => nomatch hx.symm.trans hnone) nofun
    · rintro _ ⟨⟩
      exact ⟨hop, hn⟩
  | @xferEnd c x hx hdone =>
    obtain ⟨t, op, n, hpc, hop, hn⟩ := h.exists_owner hx
    exact h.engine hpc rfl rfl rfl (s.ch c).wf_stop nofun
  | write => exact ⟨h.once, h.busy, h.rest, h.wf, h.ok⟩
  | attach => exact ⟨h.once, h.busy, h.rest, h.wf, h.ok⟩

end Inv

end M2mDma

end Hgsdk

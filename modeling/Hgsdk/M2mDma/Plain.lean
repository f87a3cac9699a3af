import Hgsdk.M2mDma.Channels
/-!
# Copies by hardware are plain copies

Where the calls are on regions of their own, the memory is the one in which
each call is `memcpy` or `memset`, done when it is called, but for the
cells that calls in progress still have to write. And a call can always
run to its end, whatever the others do.
-/

namespace Hgsdk

namespace M2mDma

open Copies

variable {T : Type} {s s' : Sys T} {t : T} {op : Op} {n : BitVec 32} {c : Chan} {m : Memory}

/-! ### How far a call is -/

/-- The copy a thread is at, and how far it is. -/
def Pc.todo (ch : Chan → MemDmaCh) : Pc → Option Piece
  | idle => none
  | hw op n => if Null op then none else some ⟨op, n, 0⟩
  | dma op n => if Null op then none else some ⟨op, n, 0⟩
  | claim op n => some ⟨op, n, 0⟩
  | cpu op n i => some ⟨op, n, i⟩
  | program op n _ (_ :: _) => some ⟨op, n, 0⟩
  | program op n c [] => some ⟨op, n, match (ch c).xfer with
    | some x => x.done
    | none => n.toNat⟩
  | free op n _ => some ⟨op, n, n.toNat⟩

/-- The copies under way. -/
def Sys.todo (s : Sys T) (t : T) : Option Piece := (s.pc t).todo s.ch

theorem Pc.todo_congr {ch ch' : Chan → MemDmaCh} {pc : Pc}
    (h : ∀ c, pc.chan = some c → ch' c = ch c) : pc.todo ch' = pc.todo ch := by
  cases pc with
  | program op n c left =>
    cases left with
    | nil => rw [todo, todo, h c rfl]
    | cons w left => rfl
  | _ => rfl

theorem Pc.call_of_todo {ch : Chan → MemDmaCh} {pc : Pc} {p : Piece} (h : pc.todo ch = some p) :
    pc.call = some (p.op, p.n) := by
  cases pc with
  | idle => exact nomatch h
  | hw op n =>
    obtain ⟨-, hp⟩ := Option.ite_none_left_eq_some.1 h
    obtain rfl := Option.some.inj hp
    rfl
  | dma op n =>
    obtain ⟨-, hp⟩ := Option.ite_none_left_eq_some.1 h
    obtain rfl := Option.some.inj hp
    rfl
  | program op n c left =>
    cases left <;> obtain rfl := Option.some.inj h <;> rfl
  | _ =>
    obtain rfl := Option.some.inj h
    rfl

/-- The copy of a call that waits for its channel. -/
theorem todo_of_wait {x : Xfer} (hpc : s.pc t = .program op n c []) (hx : (s.ch c).xfer = some x) :
    s.todo t = some ⟨op, n, x.done⟩ := by
  simp only [Sys.todo, hpc, Pc.todo, hx]

variable [DecidableEq T]

/-- A step of one thread, or of its channel, is about its copy only. -/
theorem Inv.todo_eq (h : Inv s) (s' : Sys T) {pc : Pc} (hpc : s'.pc = Function.update s.pc t pc)
    (hch : ∀ c, (s.pc t).chan ≠ some c → s'.ch c = s.ch c) :
    s'.todo = Function.update s.todo t (pc.todo s'.ch) := by
  funext t'
  by_cases htt : t' = t
  · rw [htt, Function.update_self, Sys.todo, hpc, Function.update_self]
  · rw [Function.update_of_ne htt, Sys.todo, hpc, Function.update_of_ne htt]
    exact Pc.todo_congr fun c hc => hch c fun hc' => htt (h.once t' t c hc hc')

/-! ### The simulation -/

/-- **The system does what the plain memory does.** -/
structure Refines (s : Sys T) (m : Memory) : Prop where
  inv : Inv s
  agrees : Agrees s.todo s.mem m
  nonnull : ∀ t p, s.todo t = some p → ¬ Null p.op

namespace Refines

omit [DecidableEq T] in
theorem start (mem : Memory) (ch : Chan → MemDmaCh) : Refines (Sys.start mem ch : Sys T) mem :=
  ⟨.start mem ch, .start mem, nofun⟩

/-- A step that copies nothing. -/
theorem silent (h : Refines s m) (hinv : Inv s') {pc : Pc}
    (hpc : s'.pc = Function.update s.pc t pc)
    (hch : ∀ c, (s.pc t).chan ≠ some c → s'.ch c = s.ch c) (hmem : s'.mem = s.mem)
    (htodo : pc.todo s'.ch = s.todo t) : Refines s' m := by
  have heq : s'.todo = s.todo := by
    rw [h.inv.todo_eq s' hpc hch, htodo, Function.update_eq_self]
  refine ⟨hinv, ?_, ?_⟩
  · rw [heq, hmem]
    exact h.agrees
  · rw [heq]
    exact h.nonnull

/-- A step after which the thread is at another place of its copy. -/
theorem progress (h : Refines s m) (hinv : Inv s') {pc : Pc} {k k' : ℕ}
    (ht : s.todo t = some ⟨op, n, k⟩) (hpc : s'.pc = Function.update s.pc t pc)
    (hch : ∀ c, (s.pc t).chan ≠ some c → s'.ch c = s.ch c)
    (htodo : pc.todo s'.ch = some ⟨op, n, k'⟩)
    (hagrees : Agrees (Function.update s.todo t (some ⟨op, n, k'⟩)) s'.mem m) : Refines s' m := by
  have heq : s'.todo = Function.update s.todo t (some ⟨op, n, k'⟩) := by
    rw [h.inv.todo_eq s' hpc hch, htodo]
  refine ⟨hinv, heq ▸ hagrees, fun t' p ht' => ?_⟩
  rw [heq] at ht'
  obtain ⟨-, hp⟩ | ⟨-, ht'⟩ := Agrees.eq_some_of_update ht'
  · obtain rfl := Option.some.inj hp
    exact h.nonnull t ⟨op, n, k⟩ ht
  · exact h.nonnull t' p ht'

/-- A step with which a copy ends. -/
theorem finish (h : Refines s m) (hinv : Inv s') {p : Piece} (ht : s.todo t = some p)
    (hp : p.n.toNat ≤ p.done) (hpc : s'.pc = Function.update s.pc t .idle) (hch : s'.ch = s.ch)
    (hmem : s'.mem = s.mem) : Refines s' m := by
  have heq : s'.todo = Function.update s.todo t none := by
    rw [h.inv.todo_eq s' hpc fun c _ => congrFun hch c]
    rfl
  refine ⟨hinv, ?_, fun t' p' ht' => ?_⟩
  · rw [heq, hmem]
    exact h.agrees.finish ht hp
  · rw [heq] at ht'
    obtain ⟨-, hnone⟩ | ⟨-, ht'⟩ := Agrees.eq_some_of_update ht'
    · exact nomatch hnone
    · exact h.nonnull t' p' ht'

/-- A call on a region of its own. -/
theorem call (h : Refines s m) (hd : Disjoint s (.call t op n)) (hpc : s.pc t = .idle)
    (hinv : Inv (s.goto t (.hw op n))) :
    Refines (s.goto t (.hw op n)) (if Null op then m else op.apply n.toNat m) := by
  have hidle : s.todo t = none := by rw [Sys.todo, hpc]; rfl
  by_cases hnull : Null op
  · rw [if_pos hnull]
    refine h.silent hinv rfl (fun _ _ => rfl) rfl ?_
    rw [hidle]
    exact if_pos hnull
  · rw [if_neg hnull]
    obtain ⟨hsound, hapart⟩ := hd hnull
    have heq : (s.goto t (.hw op n)).todo = Function.update s.todo t (some ⟨op, n, 0⟩) := by
      rw [h.inv.todo_eq (s.goto t (.hw op n)) rfl fun _ _ => rfl]
      exact congrArg _ (if_neg hnull)
    refine ⟨hinv, ?_, fun t' p ht' => ?_⟩
    · rw [heq]
      refine h.agrees.begin hidle hsound fun t' p ht' => ?_
      exact hapart t' p.op p.n (Pc.call_of_todo ht') (h.nonnull t' p ht')
    · rw [heq] at ht'
      obtain ⟨-, hp⟩ | ⟨-, ht'⟩ := Agrees.eq_some_of_update ht'
      · obtain rfl := Option.some.inj hp
        exact hnull
      · exact h.nonnull t' p ht'

/-- **Every step of calls on regions of their own is a plain one.** -/
theorem step (h : Refines s m) {a : Act T} (hd : Disjoint s a) (hstep : Step s a s') :
    ∃ m', plain.step m a = some m' ∧ Refines s' m' := by
  have hinv := h.inv.step hstep
  cases hstep with
  | call hpc => exact ⟨_, rfl, h.call hd hpc hinv⟩
  | @hw t op n hpc =>
    refine ⟨m, rfl, h.silent hinv rfl (fun _ _ => rfl) rfl ?_⟩
    simp only [Sys.todo, hpc]
    obtain ⟨hnull, heq⟩ | ⟨hnull, heq | heq⟩ := hwEntry_cases s.m2mdma op n <;> rw [heq]
    · exact (if_pos hnull).symm
    · rfl
    · exact (if_neg hnull).symm
  | @dma t op n hpc =>
    obtain ⟨hor, heq⟩ | ⟨-, hnull, heq⟩ := memDma_cases op n <;> rw [heq] at hinv ⊢
    · by_cases hnull : Null op
      · refine ⟨m, rfl, h.silent hinv rfl (fun _ _ => rfl) rfl ?_⟩
        simp only [Sys.todo, hpc]
        exact (if_pos hnull).symm
      · have hn : n = 0 := hor.resolve_right hnull
        have ht : s.todo t = some ⟨op, n, 0⟩ := by
          simp only [Sys.todo, hpc]
          exact if_neg hnull
        exact ⟨m, rfl, h.finish hinv ht (by rw [hn]; rfl) rfl rfl rfl⟩
    · refine ⟨m, rfl, h.silent hinv rfl (fun _ _ => rfl) rfl ?_⟩
      simp only [Sys.todo, hpc]
      exact (if_neg hnull).symm
  | @claim t op n c hpc hfree =>
    refine ⟨m, rfl, h.silent hinv rfl (fun _ _ => rfl) rfl ?_⟩
    simp only [Sys.todo, hpc]
    cases op <;> rfl
  | full hpc =>
    refine ⟨m, rfl, h.silent hinv rfl (fun _ _ => rfl) rfl ?_⟩
    simp only [Sys.todo, hpc, Pc.todo]
  | @byte t op n i hpc hi =>
    have ht : s.todo t = some ⟨op, n, i⟩ := by simp only [Sys.todo, hpc, Pc.todo]
    exact ⟨m, rfl, h.progress hinv ht rfl (fun _ _ => rfl) rfl (h.agrees.advance ht hi)⟩
  | @copied t op n i hpc hi =>
    have ht : s.todo t = some ⟨op, n, i⟩ := by simp only [Sys.todo, hpc, Pc.todo]
    exact ⟨m, rfl, h.finish hinv ht hi rfl rfl rfl⟩
  | @store t op n c w left hpc =>
    have hok : Programmed op n (s.ch c) (w :: left) := h.inv.ok_of_eq hpc
    have hchan : (s.pc t).chan = some c := by rw [hpc]; rfl
    refine ⟨m, rfl, h.silent hinv rfl (update_of_chan hchan) rfl ?_⟩
    simp only [Sys.todo, hpc]
    cases left with
    | cons w' left => rfl
    | nil =>
      -- the last store starts the channel, with no byte done
      have hx : ((s.ch c).write w).xfer = some ⟨op, n.toNat, 0⟩ := hok.2.2
      simp only [Pc.todo, Sys.goto, Sys.setCh, Function.update_self, hx]
  | spin => exact ⟨m, rfl, h⟩
  | @ended t op n c hpc hbusy =>
    have hx : (s.ch c).xfer = none := not_not.1 fun hne => hbusy ((h.inv.wf c).2 hne)
    refine ⟨m, rfl, h.silent hinv rfl (fun _ _ => rfl) rfl ?_⟩
    simp only [Sys.todo, hpc, Pc.todo, hx]
  | @free t op n c hpc =>
    have ht : s.todo t = some ⟨op, n, n.toNat⟩ := by simp only [Sys.todo, hpc, Pc.todo]
    exact ⟨m, rfl, h.finish hinv ht le_rfl rfl rfl rfl⟩
  | @xferByte c x hx hdone =>
    obtain ⟨t, op, n, hpc, rfl, hn⟩ := h.inv.exists_owner hx
    have ht := todo_of_wait hpc hx
    have hchan : (s.pc t).chan = some c := by rw [hpc]; rfl
    refine ⟨m, rfl, h.progress hinv ht (Function.update_eq_self t s.pc).symm
      (update_of_chan hchan) ?_ (h.agrees.advance ht (hn ▸ hdone))⟩
    simp only [hpc, Pc.todo, Sys.setCh, Function.update_self]
  | @xferEnd c x hx hdone =>
    obtain ⟨t, op, n, hpc, rfl, hn⟩ := h.inv.exists_owner hx
    have ht := todo_of_wait hpc hx
    have hchan : (s.pc t).chan = some c := by rw [hpc]; rfl
    refine ⟨m, rfl, h.progress hinv ht (Function.update_eq_self t s.pc).symm
      (update_of_chan hchan) ?_ (h.agrees.pass n.toNat ht (hn ▸ hdone))⟩
    simp only [hpc, Pc.todo, Sys.setCh, Function.update_self, MemDmaCh.stop]
  | @write x v =>
    refine ⟨_, rfl, hinv, h.agrees.write v fun t p ht => ?_, h.nonnull⟩
    exact hd t p.op p.n (Pc.call_of_todo ht) (h.nonnull t p ht)
  | attach => exact ⟨m, rfl, hinv, h.agrees, h.nonnull⟩

end Refines

/-! ### A call can always run to its end -/

/-- The steps a call has still to take, at most. -/
def Pc.left (ch : Chan → MemDmaCh) : Pc → ℕ
  | idle => 0
  | hw _ n => n.toNat + 11
  | dma _ n => n.toNat + 10
  | claim _ n => n.toNat + 9
  | cpu _ n i => n.toNat - i + 1
  | program _ n _ (_ :: left) => n.toNat + left.length + 4
  | program _ _ c [] => match (ch c).xfer with
    | some x => x.n - x.done + 3
    | none => 2
  | free _ _ _ => 1

/-- A step of the thread, or of the channel it waits for. -/
def Own (t : T) : Act T → Prop
  | .step t' => t' = t
  | .engine _ => True
  | _ => False

/-- **A call in progress is not stuck**: it can take a step, or its channel
can, and then there is less left. -/
theorem Inv.exists_step (h : Inv s) (hidle : s.pc t ≠ .idle) :
    ∃ a s', Own t a ∧ Step s a s' ∧ (s'.pc t).left s'.ch < (s.pc t).left s.ch := by
  cases hpc : s.pc t with
  | idle => exact absurd hpc hidle
  | hw op n =>
    refine ⟨.step t, _, rfl, .hw hpc, ?_⟩
    simp only [Sys.goto, Function.update_self]
    obtain ⟨-, heq⟩ | ⟨-, heq | heq⟩ := hwEntry_cases s.m2mdma op n <;> rw [heq] <;>
      simp only [Pc.left] <;> omega
  | dma op n =>
    refine ⟨.step t, _, rfl, .dma hpc, ?_⟩
    simp only [Sys.goto, Function.update_self]
    obtain ⟨-, heq⟩ | ⟨-, -, heq⟩ := memDma_cases op n <;> rw [heq] <;>
      simp only [Pc.left] <;> omega
  | claim op n =>
    cases hfree : memDmaGetFreeCh s.busyFlag with
    | none =>
      refine ⟨.step t, _, rfl, .full hpc hfree, ?_⟩
      simp only [Sys.goto, Function.update_self, Pc.left]
      omega
    | some c =>
      refine ⟨.step t, _, rfl, .claim hpc hfree, ?_⟩
      simp only [Sys.goto, Function.update_self]
      cases op <;> simp only [stores, Pc.left, List.length_cons, List.length_nil] <;> omega
  | cpu op n i =>
    rcases Nat.lt_or_ge i n.toNat with hi | hi
    · refine ⟨.step t, _, rfl, .byte hpc hi, ?_⟩
      simp only [Sys.goto, Function.update_self, Pc.left]
      omega
    · refine ⟨.step t, _, rfl, .copied hpc hi, ?_⟩
      simp only [Sys.goto, Function.update_self, Pc.left]
      omega
  | program op n c left =>
    cases left with
    | cons w left =>
      refine ⟨.step t, _, rfl, .store hpc, ?_⟩
      simp only [Sys.goto, Sys.setCh, Function.update_self]
      cases left with
      | cons w' left =>
        simp only [Pc.left, List.length_cons]
        omega
      | nil =>
        have hok : Programmed op n (s.ch c) [w] := h.ok_of_eq hpc
        have hx : ((s.ch c).write w).xfer = some ⟨op, n.toNat, 0⟩ := hok.2.2
        simp only [Pc.left, Function.update_self, hx, List.length_nil]
        omega
    | nil =>
      cases hx : (s.ch c).xfer with
      | none =>
        refine ⟨.step t, _, rfl, .ended hpc fun hbusy => (h.wf c).1 hbusy hx, ?_⟩
        simp only [Sys.goto, Function.update_self, Pc.left, hx]
        omega
      | some x =>
        -- the thread itself can only wait here
        rcases Nat.lt_or_ge x.done x.n with hdone | hdone
        · refine ⟨.engine c, _, trivial, .xferByte hx hdone, ?_⟩
          simp only [Sys.setCh, hpc, Pc.left, Function.update_self, hx]
          omega
        · refine ⟨.engine c, _, trivial, .xferEnd hx hdone, ?_⟩
          simp only [Sys.setCh, hpc, Pc.left, Function.update_self, MemDmaCh.stop, hx]
          omega
  | free op n c =>
    refine ⟨.step t, _, rfl, .free hpc, ?_⟩
    simp only [Sys.goto, Function.update_self, Pc.left]
    omega

/-- **A call can always run to its end**, by its own steps and those of its
channel. -/
theorem Inv.exists_end (h : Inv s) (t : T) :
    ∃ as u, (∀ a ∈ as, Own t a) ∧ dma.run s as = some u ∧ u.pc t = .idle := by
  -- by induction on what is left
  induction hk : (s.pc t).left s.ch using Nat.strong_induction_on generalizing s with
  | _ k ih =>
    by_cases hidle : s.pc t = .idle
    · exact ⟨[], s, nofun, rfl, hidle⟩
    · obtain ⟨a, s', hown, hstep, hless⟩ := h.exists_step hidle
      obtain ⟨as, u, hall, hrun, hu⟩ := ih _ (hk ▸ hless) (h.step hstep) rfl
      refine ⟨a :: as, u, List.forall_mem_cons.2 ⟨hown, hall⟩, ?_, hu⟩
      rw [Machine.run_cons_of_step hstep.eq, hrun]

/-! ### Copies by hardware -/

/-- **Copies by hardware are plain copies.** Any number of threads call
`hw_memcpy` and `hw_memset`, with any sizes, on regions of their own, in
any interleaving. Then at any time: no two calls have one channel;
`busy_flag` is the set of the channels that calls have; the memory is the
one in which each call was `memcpy` or `memset`, done when it was called,
outside of what calls in progress write; and each call can run to its end. -/
theorem hw_copies_are_plain (mem : Memory) (ch : Chan → MemDmaCh) (as : List (Act T))
    (hd : dma.Along Disjoint (Sys.start mem ch) as)
    (hrun : dma.run (Sys.start mem ch) as = some s) :
    (∀ t t' c, (s.pc t).chan = some c → (s.pc t').chan = some c → t = t') ∧
      (∀ i : ℕ, s.busyFlag.getLsbD i = true ↔ ∃ t c, (s.pc t).chan = some c ∧ c.val = i) ∧
      (∃ m, plain.run mem as = some m ∧
        ∀ x, (∀ t op n, (s.pc t).call = some (op, n) → ¬ op.Writes n.toNat x) → s.mem x = m x) ∧
      ∀ t, ∃ bs u, (∀ b ∈ bs, Own t b) ∧ dma.run s bs = some u ∧ u.pc t = .idle := by
  obtain ⟨m, hm, h⟩ := Machine.sim_of_run (R := Refines)
    (fun s m a s' h hd hstep => h.step hd (step_of_eq hstep)) (.start mem ch) hd hrun
  refine ⟨h.inv.once, h.inv.busy, ⟨m, hm, fun x hx => ?_⟩, h.inv.exists_end⟩
  refine h.agrees.same x fun t p ht hopen => ?_
  exact hx t p.op p.n (Pc.call_of_todo ht) hopen.writes

/-- Two threads fill a region each and have a channel each. -/
def twoCalls : List (Act Bool) :=
  [.attach, .call false (.fill 4096 7) 13, .step false, .step false, .step false,
    .call true (.fill 8192 9) 20, .step true, .step true, .step true]

theorem disjoint_twoCalls :
    dma.Along Disjoint (Sys.start (fun _ => 0) fun _ => ⟨0, 0, 0, 0, 0, none⟩) twoCalls := by
  refine (Machine.along_cons_of_step rfl).2 ⟨trivial, ?_⟩
  refine (Machine.along_cons_of_step rfl).2 ⟨fun _ => ⟨fun _ _ => id, nofun⟩, ?_⟩
  refine (Machine.along_cons_of_step rfl).2 ⟨trivial, ?_⟩
  refine (Machine.along_cons_of_step rfl).2 ⟨trivial, ?_⟩
  refine (Machine.along_cons_of_step rfl).2 ⟨trivial, ?_⟩
  refine (Machine.along_cons_of_step rfl).2 ⟨fun _ => ⟨fun _ _ => id, ?_⟩, ?_⟩
  · intro t op' n' hcall _
    cases t with
    | true => exact nomatch hcall
    | false =>
      obtain ⟨rfl, rfl⟩ := Prod.mk.inj (Option.some.inj hcall)
      refine ⟨fun x hx hx' => ?_, fun _ => False.elim, fun _ => False.elim⟩
      have h : (x - 8192#32).toNat < 20 := hx
      have h' : (x - 4096#32).toNat < 13 := hx'
      rw [BitVec.toNat_sub] at h h'
      simp only [BitVec.toNat_ofNat] at h h'
      omega
  · exact Machine.along_of_forall_mem fun a ha s => by
      simp only [List.mem_cons, List.not_mem_nil, or_false] at ha
      obtain rfl | rfl | rfl := ha <;> trivial

/-- Both channels are then taken, and each call can run to its end. -/
theorem hw_copies_are_plain_two_calls :
    ∃ s, dma.run (Sys.start (fun _ => 0) fun _ => ⟨0, 0, 0, 0, 0, none⟩) twoCalls = some s ∧
      (s.pc false).chan = some 0 ∧ (s.pc true).chan = some 1 ∧ s.busyFlag = 3 ∧
      ∀ t, ∃ bs u, (∀ b ∈ bs, Own t b) ∧ dma.run s bs = some u ∧ u.pc t = .idle :=
  ⟨_, rfl, rfl, rfl, by decide,
    (hw_copies_are_plain (fun _ => 0) _ twoCalls disjoint_twoCalls rfl).2.2.2⟩

end M2mDma

end Hgsdk

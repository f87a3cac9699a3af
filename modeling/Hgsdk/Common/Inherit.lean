import Mathlib.Order.Bounds.Basic
import Mathlib.Logic.Function.Basic
import Mathlib.Logic.Relation
/-!
# Priority inheritance

Tasks have a base priority each, a lower one being the more urgent, and
some wait for what another holds. A task is *settled* where its priority
is the most urgent of its own base and of the priorities of the tasks that
wait for it. When all are, no task waits behind one less urgent than
itself, however long the chain of tasks waiting for each other.

A change of one priority or of one wait touches one holder. The lemmas say
when that holder is settled still, and what it has to be set to when it is
not.
-/

namespace Hgsdk.Inherit

variable {T P : Type*} {base : T → P} {holder holder' : T → Option T}
variable {prio prio' : T → P} {t w : T} {p : P}

/-- **What urges `t`**: its own base, and the priority of every task that
waits for it. -/
def claims (base : T → P) (holder : T → Option T) (prio : T → P) (t : T) : Set P :=
  insert (base t) {p | ∃ w, holder w = some t ∧ prio w = p}

theorem mem_claims_of_holder (h : holder w = some t) : prio w ∈ claims base holder prio t :=
  Set.mem_insert_of_mem _ ⟨w, h, rfl⟩

variable [LinearOrder P]

/-- **`t` is settled**: its priority is the most urgent of what urges it. -/
def Settled (base : T → P) (holder : T → Option T) (prio : T → P) (t : T) : Prop :=
  IsLeast (claims base holder prio t) (prio t)

/-- The most urgent claim, one claim at a time. -/
theorem isLeast_claims_iff :
    IsLeast (claims base holder prio t) p ↔
      (p = base t ∨ ∃ w, holder w = some t ∧ prio w = p) ∧
        p ≤ base t ∧ ∀ w, holder w = some t → p ≤ prio w := by
  refine and_congr Iff.rfl ?_
  constructor
  · intro h
    exact ⟨h (Set.mem_insert _ _), fun w hw => h (mem_claims_of_holder hw)⟩
  · rintro ⟨hbase, hwait⟩ q (rfl | ⟨w, hw, rfl⟩)
    · exact hbase
    · exact hwait w hw

namespace Settled

theorem le_base (h : Settled base holder prio t) : prio t ≤ base t := h.2 (Set.mem_insert _ _)

/-- **No inversion**: a holder is at least as urgent as who waits for it. -/
theorem le_of_holder (h : Settled base holder prio t) (hw : holder w = some t) :
    prio t ≤ prio w :=
  h.2 (mem_claims_of_holder hw)

/-- **Settled still**: the claims that decided stay, and no new one is more
urgent. -/
theorem mono (h : Settled base holder prio t) (ht : prio' t = prio t)
    (hkeep : ∀ w, holder w = some t → prio w = prio t → holder' w = some t ∧ prio' w = prio w)
    (hnew : ∀ w, holder' w = some t → prio t ≤ prio' w) : Settled base holder' prio' t := by
  obtain ⟨hmem, hbase, -⟩ := isLeast_claims_iff.1 h
  refine isLeast_claims_iff.2 ⟨?_, by rwa [ht], by rwa [ht]⟩
  rw [ht]
  rcases hmem with hmem | ⟨w, hw, hprio⟩
  · exact .inl hmem
  · obtain ⟨hw', hprio'⟩ := hkeep w hw hprio
    exact .inr ⟨w, hw', hprio'.trans hprio⟩

/-- A settled task no claim on which has changed. -/
theorem congr (h : Settled base holder prio t) (ht : prio' t = prio t)
    (hholder : ∀ w, holder' w = some t ↔ holder w = some t)
    (hprio : ∀ w, holder w = some t → prio' w = prio w) : Settled base holder' prio' t := by
  refine h.mono ht (fun w hw _ => ⟨(hholder w).2 hw, hprio w hw⟩) fun w hw => ?_
  have hw := (hholder w).1 hw
  rw [hprio w hw]
  exact h.le_of_holder hw

/-- The bases of other tasks do not matter. -/
theorem congr_base {base' : T → P} (h : Settled base holder prio t) (hbase : base' t = base t) :
    Settled base' holder prio t := by
  unfold Settled claims at h ⊢
  rwa [hbase]

end Settled

section Chain

/-- `w` is `t`, or waits for it, or for who waits for it, and so on. -/
def Chain (holder : T → Option T) : T → T → Prop :=
  Relation.ReflTransGen fun w t => holder w = some t

variable {L : T → Prop}

/-- **No inversion along a chain.** -/
theorem le_of_chain (hall : ∀ t, L t → Settled base holder prio t)
    (hL : ∀ w t, holder w = some t → L t → L w) (ht : L t) (h : Chain holder w t) :
    prio t ≤ prio w := by
  induction h with
  | refl => exact le_rfl
  | tail _ hvt ih => exact ((hall _ ht).le_of_holder hvt).trans (ih (hL _ _ hvt ht))

/-- **Exact inheritance**: where nobody waits for itself in the end, the
priority of a task is the most urgent base among those who wait for it
through any chain. -/
theorem isLeast_chain (hall : ∀ t, L t → Settled base holder prio t)
    (hL : ∀ w t, holder w = some t → L t → L w) (hwf : WellFounded fun w t => holder w = some t)
    (ht : L t) : IsLeast {p | ∃ w, Chain holder w t ∧ base w = p} (prio t) := by
  have hclosed : ∀ w, Chain holder w t → L w := by
    intro w h
    induction h using Relation.ReflTransGen.head_induction_on with
    | refl => exact ht
    | head hwv _ ih => exact hL _ _ hwv ih
  refine ⟨?_, ?_⟩
  · clear hclosed
    induction t using hwf.induction with
    | _ t ih =>
      obtain ⟨hmem, -, -⟩ := isLeast_claims_iff.1 (hall t ht)
      rcases hmem with hbase | ⟨w, hw, hprio⟩
      · exact ⟨t, .refl, hbase.symm⟩
      · obtain ⟨v, hv, hbase⟩ := ih w hw (hL w t hw ht)
        exact ⟨v, hv.tail hw, hbase.trans hprio⟩
  · rintro p ⟨w, hw, rfl⟩
    exact (le_of_chain hall hL ht hw).trans (hall w (hclosed w hw)).le_base

end Chain

/-- **Raising**: a waiter more urgent than a settled holder is what the
holder has to be set to. -/
theorem isLeast_claims_of_lt (h : Settled base holder prio t) (hw : holder' w = some t)
    (hlt : prio' w ≤ prio t) (hold : ∀ v, holder' v = some t → v ≠ w → prio t ≤ prio' v) :
    IsLeast (claims base holder' prio' t) (prio' w) := by
  refine isLeast_claims_iff.2 ⟨.inr ⟨w, hw, rfl⟩, hlt.trans h.le_base, fun v hv => ?_⟩
  by_cases hvw : v = w
  · rw [hvw]
  · exact hlt.trans (hold v hv hvw)

section Update

variable [DecidableEq T]

/-- A task set to the most urgent of its claims is settled. -/
theorem settled_update_self (hself : holder t ≠ some t)
    (h : IsLeast (claims base holder prio t) p) :
    Settled base holder (Function.update prio t p) t := by
  obtain ⟨hmem, hbase, hwait⟩ := isLeast_claims_iff.1 h
  have hne : ∀ w, holder w = some t → Function.update prio t p w = prio w := by
    intro w hw
    refine Function.update_of_ne ?_ _ _
    rintro rfl
    exact hself hw
  unfold Settled
  rw [Function.update_self]
  refine isLeast_claims_iff.2 ⟨hmem.imp_right ?_, hbase, fun w hw => ?_⟩
  · rintro ⟨w, hw, hprio⟩
    exact ⟨w, hw, (hne w hw).trans hprio⟩
  · rw [hne w hw]
    exact hwait w hw

/-- A task that nobody set and that the one set does not wait for. -/
theorem Settled.update_of_ne (h : Settled base holder prio t) (htw : t ≠ w)
    (hw : holder w ≠ some t) : Settled base holder (Function.update prio w p) t := by
  refine h.congr (Function.update_of_ne htw _ _) (fun _ => Iff.rfl) fun v hv => ?_
  refine Function.update_of_ne ?_ _ _
  rintro rfl
  exact hw hv

end Update

end Hgsdk.Inherit

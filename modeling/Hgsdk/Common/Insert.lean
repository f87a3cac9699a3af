import Mathlib.Data.List.Basic
import Mathlib.Data.List.Perm.Basic
import Mathlib.Order.Bounds.Basic
/-!
# Insertion into a sorted queue

A queue kept in the order of a key takes a newcomer before the first
element that has to come after it, and so behind its equals.
-/

namespace Hgsdk

variable {α κ : Type*} {stop : α → Bool} {a b : α} {l : List α}

/-- `l` with `a` put before the first element `stop` holds of, or at the
end. -/
def insertBefore (stop : α → Bool) (a : α) : List α → List α
  | [] => [a]
  | b :: l => if stop b then a :: b :: l else b :: insertBefore stop a l

theorem insertBefore_perm (stop : α → Bool) (a : α) (l : List α) :
    (insertBefore stop a l).Perm (a :: l) := by
  induction l with
  | nil => exact List.Perm.refl _
  | cons b l ih =>
    simp only [insertBefore]
    split
    · exact List.Perm.refl _
    · exact (ih.cons b).trans (List.Perm.swap a b l)

@[simp] theorem mem_insertBefore : b ∈ insertBefore stop a l ↔ b = a ∨ b ∈ l := by
  rw [(insertBefore_perm stop a l).mem_iff, List.mem_cons]

theorem nodup_insertBefore (ha : a ∉ l) (hl : l.Nodup) : (insertBefore stop a l).Nodup :=
  (insertBefore_perm stop a l).nodup_iff.2 (List.nodup_cons.2 ⟨ha, hl⟩)

/-- **A sorted queue stays sorted** where `stop` holds of exactly what has
to come after the newcomer. -/
theorem pairwise_insertBefore [LinearOrder κ] {key : α → κ}
    (hl : l.Pairwise (key · ≤ key ·)) (hstop : ∀ b ∈ l, stop b = true ↔ key a < key b) :
    (insertBefore stop a l).Pairwise (key · ≤ key ·) := by
  induction l with
  | nil => exact List.pairwise_singleton _ _
  | cons b l ih =>
    obtain ⟨hb, hl⟩ := List.pairwise_cons.1 hl
    simp only [insertBefore]
    split
    · rename_i hs
      have hab : key a < key b := (hstop b List.mem_cons_self).1 hs
      refine List.pairwise_cons.2 ⟨fun c hc => ?_, List.pairwise_cons.2 ⟨hb, hl⟩⟩
      rcases List.mem_cons.1 hc with rfl | hc
      · exact hab.le
      · exact hab.le.trans (hb c hc)
    · rename_i hs
      have hba : key b ≤ key a := by
        by_contra hlt
        exact hs ((hstop b List.mem_cons_self).2 (not_le.1 hlt))
      have htail := ih hl fun c hc => hstop c (List.mem_cons_of_mem _ hc)
      refine List.pairwise_cons.2 ⟨fun c hc => ?_, htail⟩
      rcases mem_insertBefore.1 hc with rfl | hc
      · exact hba
      · exact hb c hc

end Hgsdk

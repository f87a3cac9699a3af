import Mathlib.Data.List.Basic
import Mathlib.Tactic.Common
/-!
# Blocks laid end to end

An allocator that only moves a pointer up hands out blocks one behind the
other. It is the list of the blocks handed out, the newest first, each
with its owner and its size; where a block lies follows from the sizes of
those before it. Blocks of different owners never overlap, because they
have different places in the list.
-/

namespace Hgsdk

namespace Arena

variable {κ : Type} [DecidableEq κ]

/-- The first free address: the blocks start at `lo`. -/
def top (lo : ℕ) : List (κ × ℕ) → ℕ
  | [] => lo
  | (_, n) :: bs => top lo bs + n

/-- Where the block of `k` lies. -/
def place (lo : ℕ) (k : κ) : List (κ × ℕ) → Option ℕ
  | [] => none
  | (k', _) :: bs => if k = k' then some (top lo bs) else place lo k bs

/-- The size of the block of `k`, 0 when it has none. -/
def room (k : κ) : List (κ × ℕ) → ℕ
  | [] => 0
  | (k', n) :: bs => if k = k' then n else room k bs

variable {lo p p' : ℕ} {k k' : κ} {bs : List (κ × ℕ)}

omit [DecidableEq κ] in
theorem le_top : lo ≤ top lo bs := by
  induction bs with
  | nil => exact Nat.le_refl lo
  | cons b bs ih =>
    rw [top]
    omega

/-- **A block lies inside the arena.** -/
theorem place_bounds (h : place lo k bs = some p) : lo ≤ p ∧ p + room k bs ≤ top lo bs := by
  induction bs with
  | nil => exact nomatch h
  | cons b bs ih =>
    rw [place] at h
    rw [room, top]
    by_cases hk : k = b.1
    · rw [if_pos hk] at h
      rw [if_pos hk]
      cases h
      have hle : lo ≤ top lo bs := le_top
      omega
    · rw [if_neg hk] at h
      rw [if_neg hk]
      have := ih h
      omega

/-- **Blocks of different owners do not overlap.** -/
theorem place_disjoint (hne : k ≠ k') (h : place lo k bs = some p)
    (h' : place lo k' bs = some p') : p + room k bs ≤ p' ∨ p' + room k' bs ≤ p := by
  induction bs with
  | nil => exact nomatch h
  | cons b bs ih =>
    rw [place] at h h'
    rw [room, room]
    by_cases hk : k = b.1
    · -- `k` owns the newest block, so the other one lies below it
      have hk' : ¬ k' = b.1 := fun hk' => hne (hk.trans hk'.symm)
      rw [if_pos hk] at h
      rw [if_neg hk'] at h'
      rw [if_pos hk, if_neg hk']
      cases h
      exact Or.inr (place_bounds h').2
    · rw [if_neg hk] at h
      rw [if_neg hk]
      by_cases hk' : k' = b.1
      · rw [if_pos hk'] at h'
        cases h'
        exact Or.inl (place_bounds h).2
      · rw [if_neg hk'] at h'
        rw [if_neg hk']
        exact ih h h'

end Arena

end Hgsdk

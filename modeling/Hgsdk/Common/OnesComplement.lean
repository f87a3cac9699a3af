import Mathlib.Algebra.BigOperators.Group.List.Basic
import Mathlib.Algebra.GroupWithZero.Nat
import Mathlib.Tactic.Common
/-!
# One's complement sums

Addition of numbers up to `m` where the carry is brought round: what goes
over `m` counts again from one. Zero has two names, `0` and `m`, and a sum
is `0` only if everything in it is.

`norm m n` is the number up to `m` that stands for `n`. A sum in any order
and with any number of intermediate folds is `norm` of the plain sum, and
a sum completed by the complement of itself is `m`.
-/

namespace Hgsdk

namespace OnesComplement

variable {m n x k a b : ℕ}

/-- Addition, with the carry brought round. -/
def add (m a b : ℕ) : ℕ := if a + b ≤ m then a + b else a + b - m

/-- **The one's complement sum.** -/
def sum (m : ℕ) (xs : List ℕ) : ℕ := xs.foldl (add m) 0

/-- The number up to `m` that stands for `n`; zero stands for zero only. -/
def norm (m n : ℕ) : ℕ := if n = 0 then 0 else (n - 1) % m + 1

/-- What is known of `norm m n` determines it. -/
theorem norm_eq (hx : x ≤ m) (hzero : x = 0 → n = 0) (hn : n = x + k * m) : norm m n = x := by
  unfold norm
  split
  · omega
  · rename_i hne
    have hpos : 0 < x := Nat.pos_of_ne_zero fun h => hne (hzero h)
    have hpred : n - 1 = x - 1 + k * m := by omega
    rw [hpred, Nat.add_mul_mod_self_right, Nat.mod_eq_of_lt (by omega)]
    omega

theorem exists_eq_norm_add (m n : ℕ) : ∃ k, n = norm m n + k * m := by
  unfold norm
  split
  · exact ⟨0, by omega⟩
  · refine ⟨(n - 1) / m, ?_⟩
    have hdiv := Nat.mod_add_div' (n - 1) m
    omega

theorem norm_le (hm : 0 < m) (n : ℕ) : norm m n ≤ m := by
  unfold norm
  split
  · exact Nat.zero_le m
  · exact Nat.mod_lt _ hm

theorem norm_eq_zero : norm m n = 0 ↔ n = 0 := by
  unfold norm
  split
  · rename_i h
    exact iff_of_true rfl h
  · rename_i h
    exact iff_of_false (Nat.succ_ne_zero _) h

theorem norm_of_le (h : n ≤ m) : norm m n = n := norm_eq (k := 0) h id (by omega)

/-- What is brought round does not change what is stood for. -/
theorem norm_add_mul (hm : 0 < m) (hn : 0 < n) (k : ℕ) : norm m (n + k * m) = norm m n := by
  obtain ⟨j, hj⟩ := exists_eq_norm_add m n
  refine norm_eq (k := j + k) (norm_le hm n) (fun h => ?_) ?_
  · exact absurd (norm_eq_zero.1 h) (by omega)
  · rw [Nat.add_mul]
    omega

/-- **A fold on the way** changes nothing. -/
theorem norm_norm_add (hm : 0 < m) (a b : ℕ) : norm m (norm m a + b) = norm m (a + b) := by
  obtain ⟨j, hj⟩ := exists_eq_norm_add m (norm m a + b)
  obtain ⟨k, hk⟩ := exists_eq_norm_add m a
  symm
  refine norm_eq (k := j + k) (norm_le hm _) (fun h => ?_) ?_
  · have hsum := norm_eq_zero.1 h
    have ha : a = 0 := norm_eq_zero.1 (by omega : norm m a = 0)
    omega
  · rw [Nat.add_mul]
    omega

theorem add_eq_norm (ha : a ≤ m) (hb : b ≤ m) : add m a b = norm m (a + b) := by
  unfold add
  split
  · rename_i h
    exact (norm_of_le h).symm
  · rename_i h
    exact (norm_eq (k := 1) (by omega) (fun _ => by omega) (by omega)).symm

/-- **A sum is the plain sum**, up to what it stands for. -/
theorem sum_eq_norm (hm : 0 < m) {xs : List ℕ} (h : ∀ x ∈ xs, x ≤ m) :
    sum m xs = norm m xs.sum := by
  have hgen : ∀ (xs : List ℕ) (acc : ℕ), (∀ x ∈ xs, x ≤ m) →
      xs.foldl (add m) (norm m acc) = norm m (acc + xs.sum) := by
    intro xs
    induction xs with
    | nil => exact fun acc _ => rfl
    | cons x xs ih =>
      intro acc hxs
      obtain ⟨hx, hxs⟩ := List.forall_mem_cons.1 hxs
      rw [List.foldl_cons, add_eq_norm (norm_le hm acc) hx, norm_norm_add hm, ih _ hxs,
        List.sum_cons, Nat.add_assoc]
  have hsum := hgen xs 0 h
  rwa [Nat.zero_add] at hsum

/-- **The complement completes a sum.** -/
theorem norm_add_complement (hm : 0 < m) (n : ℕ) : norm m (n + (m - norm m n)) = m := by
  obtain ⟨k, hk⟩ := exists_eq_norm_add m n
  have hle := norm_le hm n
  exact norm_eq (k := k) (Nat.le_refl m) (fun h => absurd h (by omega)) (by omega)

end OnesComplement

end Hgsdk

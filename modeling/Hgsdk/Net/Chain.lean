import Hgsdk.Net.Checksum
import Mathlib.Data.Nat.ModEq
/-!
# The checksum as a sum that can be chained

`net_checksum` for itself: on up to 131072 bytes its 32-bit accumulator is
the plain sum at every turn, at most two folds bring the carries round, and
what is returned stands for the sum modulo `0xFFFF`, with zero standing for
zero only. So a sum may be broken off after any even number of bytes and
taken up again from what was returned.
-/

namespace Hgsdk

namespace Net

open OnesComplement

variable {xs ys : List Byte} {s r : ℕ}

/-! ### The accumulator -/

/-- The loop broken off after an even number of bytes. -/
theorem addWords_append (cksum : BitVec 32) : ∀ {xs : List Byte}, 2 ∣ xs.length →
    addWords cksum (xs ++ ys) = addWords (addWords cksum xs) ys := by
  intro xs
  induction cksum, xs using addWords.induct with
  | case1 cksum a b rest ih =>
    intro heven
    have hrest : 2 ∣ rest.length := (Nat.dvd_add_left (Nat.dvd_refl 2)).1 heven
    rw [addWords, ← ih hrest]
    rfl
  | case2 cksum a => exact fun heven => absurd heven (by decide : ¬ 2 ∣ 1)
  | case3 cksum => exact fun _ => rfl

/-! ### The fold -/

/-- One turn of `while (cksum >> 16)`. -/
def foldOnce (cksum : BitVec 32) : BitVec 32 := (cksum &&& (0xFFFF : BitVec 32)) + (cksum >>> 16)

theorem foldCarries_of_carry {cksum : BitVec 32} (h : cksum >>> 16 ≠ 0) :
    foldCarries cksum = foldCarries (foldOnce cksum) := by
  rw [foldCarries, if_neg h, foldOnce]

theorem foldCarries_of_none {cksum : BitVec 32} (h : cksum >>> 16 = 0) :
    foldCarries cksum = cksum := by
  rw [foldCarries, if_pos h]

theorem toNat_foldOnce (cksum : BitVec 32) :
    (foldOnce cksum).toNat = cksum.toNat % 65536 + cksum.toNat / 65536 := toNat_fold cksum

/-- **The folding loop ends after at most two turns.** -/
theorem foldCarries_turns (cksum : BitVec 32) : ∃ k ≤ 2,
    (∀ j < k, foldOnce^[j] cksum >>> 16 ≠ 0) ∧ foldOnce^[k] cksum >>> 16 = 0 ∧
      foldCarries cksum = foldOnce^[k] cksum := by
  by_cases hcarry : cksum >>> 16 = 0
  · refine ⟨0, by omega, fun j hj => ?_, hcarry, foldCarries_of_none hcarry⟩
    exact absurd hj (Nat.not_lt_zero j)
  have hfold := foldCarries_of_carry hcarry
  by_cases hcarry' : foldOnce cksum >>> 16 = 0
  · refine ⟨1, by omega, fun j hj => ?_, hcarry', hfold.trans (foldCarries_of_none hcarry')⟩
    obtain rfl : j = 0 := by omega
    exact hcarry
  -- the second carry is one at most, and the rest below `0xFFFF`
  have hlast : foldOnce (foldOnce cksum) >>> 16 = 0 := by
    have hlt := cksum.isLt
    rw [shift_eq_zero_iff, toNat_foldOnce, toNat_foldOnce]
    omega
  refine ⟨2, by omega, fun j hj => ?_, hlast,
    hfold.trans ((foldCarries_of_carry hcarry').trans (foldCarries_of_none hlast))⟩
  obtain rfl | rfl : j = 0 ∨ j = 1 := by omega
  · exact hcarry
  · exact hcarry'

/-! ### What is returned -/

/-- **The 16-bit number that stands for a sum**: congruent to it, and zero for
zero only. -/
structure StandsFor (s r : ℕ) : Prop where
  le : r ≤ 0xFFFF
  modEq : r ≡ s [MOD 0xFFFF]
  zero_iff : r = 0 ↔ s = 0

theorem standsFor_norm (s : ℕ) : StandsFor s (norm 0xFFFF s) := by
  obtain ⟨k, hk⟩ := exists_eq_norm_add 0xFFFF s
  refine ⟨norm_le (by decide) s, ?_, norm_eq_zero⟩
  rw [Nat.ModEq]
  omega

/-- There is no other. -/
theorem StandsFor.eq_norm (h : StandsFor s r) : r = norm 0xFFFF s := by
  have hle := h.le
  have hmod : r % 0xFFFF = s % 0xFFFF := h.modEq
  have hzero := h.zero_iff
  exact (norm_eq (k := (s - r) / 0xFFFF) hle hzero.1 (by omega)).symm

/-- **No addition overflows**: wherever the loop stands, after an even number
of bytes or at the end, the accumulator is the plain sum so far. -/
def SumsExactly (init : BitVec 16) (b : List Byte) : Prop :=
  ∀ front rest, b = front ++ rest → 2 ∣ front.length ∨ rest = [] →
    addWords (init.setWidth 32) b = addWords (addWords (init.setWidth 32) front) rest ∧
      (addWords (init.setWidth 32) front).toNat = init.toNat + (words front).sum

theorem sumsExactly (init : BitVec 16) {b : List Byte} (hlen : b.length ≤ 131072) :
    SumsExactly init b := by
  rintro front rest rfl hend
  rw [List.length_append] at hlen
  refine ⟨?_, toNat_addWords_init init (by omega)⟩
  rcases hend with heven | rfl
  · exact addWords_append _ heven
  · rw [List.append_nil, addWords]

/-- **`net_checksum` is the one's complement sum and can be chained.** The
accumulator does not overflow, the folding loop ends, what is returned is the
one number that stands for the sum, and a sum may be broken off after an even
number of bytes. -/
theorem netChecksum_chains (init : BitVec 16) {b : List Byte} (hlen : b.length ≤ 131072) :
    SumsExactly init b ∧
    (∃ k ≤ 2, (∀ j < k, foldOnce^[j] (addWords (init.setWidth 32) b) >>> 16 ≠ 0) ∧
      foldOnce^[k] (addWords (init.setWidth 32) b) >>> 16 = 0 ∧
      netChecksum init b = (foldOnce^[k] (addWords (init.setWidth 32) b)).setWidth 16) ∧
    (∀ r, StandsFor (init.toNat + (words b).sum) r ↔ r = (netChecksum init b).toNat) ∧
    ∀ front rest, b = front ++ rest → 2 ∣ front.length →
      netChecksum (netChecksum init front) rest = netChecksum init b := by
  refine ⟨sumsExactly init hlen, ?_, fun r => ?_, ?_⟩
  · obtain ⟨k, hk, hturns, hdone, hfold⟩ := foldCarries_turns (addWords (init.setWidth 32) b)
    exact ⟨k, hk, hturns, hdone, by rw [netChecksum, hfold]⟩
  · rw [toNat_netChecksum init hlen]
    constructor
    · exact StandsFor.eq_norm
    · rintro rfl
      exact standsFor_norm _
  · rintro front rest rfl heven
    exact netChecksum_append init heven hlen

/-- Two bytes and one: the carry of the first word comes round. -/
theorem netChecksum_chains_three :
    netChecksum (netChecksum 2 [0xFF, 0xFF]) [0x01] = netChecksum 2 [0xFF, 0xFF, 0x01] :=
  (netChecksum_chains 2 (by decide)).2.2.2 [0xFF, 0xFF] [0x01] rfl (by decide)

/-- An odd number of bytes in front does not chain: its last byte is completed
with zero. -/
example : words ([0x01] ++ [0x02]) ≠ words [0x01] ++ words [0x02] := by decide

end Net

end Hgsdk

import Mathlib.Data.BitVec
/-!
# C's integers

Fixed-width integers are bit vectors. A signed and an unsigned `int` have
the same bits; where the sign matters the comparison says so (`slt`).
-/

namespace Hgsdk

/-- The bound of the literals of `Fin 4`, under one name everywhere. -/
instance neZeroFour : NeZero 4 := ⟨by decide⟩

/-- A byte, C's `uint8`. -/
abbrev Byte := BitVec 8

/-- C's `int`, 32 bits wide. -/
abbrev CInt := BitVec 32

/-- A narrower value widened to an `int` is never negative: the sign bit of
the result is clear. -/
theorem setWidth_not_slt_zero {n : ℕ} (hn : n < 32) (v : BitVec n) :
    (v.setWidth 32 : CInt).slt 0 = false := by
  have hv : v.toNat < 2 ^ 31 :=
    Nat.lt_of_lt_of_le v.isLt (Nat.pow_le_pow_right (by decide) (by omega))
  have hw : (v.setWidth 32 : CInt).toNat = v.toNat := by
    rw [BitVec.toNat_setWidth]
    exact Nat.mod_eq_of_lt (by omega)
  rw [BitVec.slt_eq_decide, decide_eq_false_iff_not, BitVec.toInt_eq_toNat_cond,
    if_pos (by omega), hw]
  have hzero : (0 : CInt).toInt = 0 := rfl
  omega

theorem setWidth_16_not_slt_zero (v : BitVec 16) :
    (v.setWidth 32 : CInt).slt 0 = false := setWidth_not_slt_zero (by decide) v

/-- An `int` that is neither negative nor positive. -/
theorem eq_zero_of_not_slt {x : CInt} (hneg : ¬ x.slt 0) (hpos : ¬ (0 : CInt).slt x) : x = 0 := by
  rcases lt_trichotomy x.toInt (0 : CInt).toInt with hlt | heq | hgt
  · exact absurd (BitVec.slt_iff_toInt_lt.2 hlt) hneg
  · exact BitVec.eq_of_toInt_eq heq
  · exact absurd (BitVec.slt_iff_toInt_lt.2 hgt) hpos

/-- A value that fits sixteen bits survives being cut to them. -/
theorem setWidth_setWidth_16 {x : BitVec 32} (h : x &&& 0xFFFF = x) :
    (x.setWidth 16).setWidth 32 = x := by
  refine BitVec.eq_of_toNat_eq ?_
  have hmask : (0xFFFF : BitVec 32).toNat = 2 ^ 16 - 1 := rfl
  have hlow : x.toNat % 2 ^ 16 = x.toNat := by
    rw [← Nat.and_two_pow_sub_one_eq_mod, ← hmask, ← BitVec.toNat_and, h]
  rw [BitVec.toNat_setWidth, BitVec.toNat_setWidth, hlow]
  exact Nat.mod_eq_of_lt x.isLt

theorem setWidth_16_and (v : BitVec 16) :
    (v.setWidth 32 : BitVec 32) &&& 0xFFFF = v.setWidth 32 := by
  refine BitVec.eq_of_toNat_eq ?_
  have hmask : (0xFFFF : BitVec 32).toNat = 2 ^ 16 - 1 := rfl
  have hv := v.isLt
  rw [BitVec.toNat_and, hmask, Nat.and_two_pow_sub_one_eq_mod, BitVec.toNat_setWidth]
  omega

/-! ### Bits under a mask

The bits of `mask` are replaced by those of `new`, which has no others. -/

section Mask

variable {n : ℕ} {old new mask : BitVec n}

theorem getLsbD_replaced (h : new &&& mask = new) {i : ℕ} (hi : i < n) :
    ((old &&& ~~~mask) ||| new).getLsbD i =
      if mask.getLsbD i then new.getLsbD i else old.getLsbD i := by
  have hbit : (new.getLsbD i && mask.getLsbD i) = new.getLsbD i := by rw [← BitVec.getLsbD_and, h]
  simp only [BitVec.getLsbD_and, BitVec.getLsbD_or, BitVec.getLsbD_not, hi, decide_true,
    Bool.true_and]
  cases hmask : mask.getLsbD i with
  | false =>
    rw [hmask, Bool.and_false] at hbit
    simp [← hbit]
  | true => simp

theorem and_mask_replaced (h : new &&& mask = new) :
    ((old &&& ~~~mask) ||| new) &&& mask = new := by
  refine BitVec.eq_of_getLsbD_eq fun i hi => ?_
  rw [BitVec.getLsbD_and, getLsbD_replaced h hi]
  nth_rewrite 2 [← h]
  cases hmask : mask.getLsbD i with
  | false => simp [hmask]
  | true => simp [hmask]

theorem and_not_mask_replaced (h : new &&& mask = new) :
    ((old &&& ~~~mask) ||| new) &&& ~~~mask = old &&& ~~~mask := by
  refine BitVec.eq_of_getLsbD_eq fun i hi => ?_
  rw [BitVec.getLsbD_and, getLsbD_replaced h hi, BitVec.getLsbD_and]
  cases hmask : mask.getLsbD i with
  | false => rfl
  | true => simp [hmask]

end Mask

/-! ### One bit -/

/-- A test of one bit. -/
theorem and_twoPow_ne_zero {n i : ℕ} {x : BitVec n} (hi : i < n) :
    x &&& BitVec.twoPow n i ≠ 0 ↔ x.getLsbD i = true := by
  have hne : BitVec.twoPow n i ≠ 0 := by
    intro h
    have hbit := congrArg (fun v => v.getLsbD i) h
    simp [hi] at hbit
  rw [BitVec.and_twoPow]
  cases x.getLsbD i with
  | false => simp
  | true => simpa using hne

/-- What is in a mask is in a wider one. -/
theorem and_ne_zero_of_subset {n : ℕ} {x a b : BitVec n} (h : a &&& b = a) (hx : x &&& a ≠ 0) :
    x &&& b ≠ 0 := by
  intro hzero
  refine hx ?_
  rw [← h, BitVec.and_comm a, ← BitVec.and_assoc, hzero]
  exact BitVec.zero_and

/-- A test of either of two. -/
theorem and_or_ne_zero {n : ℕ} {x a b : BitVec n} :
    x &&& (a ||| b) ≠ 0 ↔ x &&& a ≠ 0 ∨ x &&& b ≠ 0 := by
  have hor : (x &&& a) ||| (x &&& b) = 0 ↔ x &&& a = 0 ∧ x &&& b = 0 := BitVec.or_eq_zero_iff
  rw [BitVec.and_or_distrib_left, ne_eq, hor, not_and_or]

/-- Clearing the two low bits rounds down to a multiple of four. -/
theorem and_not_three_toNat (x : BitVec 32) : (x &&& ~~~3#32).toNat = x.toNat / 4 * 4 := by
  have hshift : x &&& ~~~3#32 = (x >>> 2) <<< 2 := by
    refine BitVec.eq_of_getLsbD_eq fun i hi => ?_
    have h3 : (3#32).getLsbD i = decide (i < 2) := by
      rcases i with _ | _ | i
      · rfl
      · rfl
      · simp [BitVec.getLsbD_ofNat, Nat.testBit_add]
    rw [BitVec.getLsbD_and, BitVec.getLsbD_not, h3, BitVec.getLsbD_shiftLeft,
      BitVec.getLsbD_ushiftRight]
    by_cases h2 : i < 2
    · simp [h2]
    · have hadd : 2 + (i - 2) = i := by omega
      simp [h2, hi, hadd]
  have hx := x.isLt
  rw [hshift, BitVec.toNat_shiftLeft, BitVec.toNat_ushiftRight, Nat.shiftLeft_eq,
    Nat.shiftRight_eq_div_pow]
  omega

/-! ### Quotients -/

/-- A smaller number has the same quotient as long as it takes no more than
the remainder away. -/
theorem sub_div_eq_iff {a b m : ℕ} (hm : 0 < m) (hba : b ≤ a) :
    (a - b) / m = a / m ↔ b ≤ a % m := by
  have hdm := Nat.div_add_mod a m
  have hlt := Nat.mod_lt a hm
  rw [Nat.div_eq_iff hm, Nat.mul_comm]
  omega

/-- A divisor that is one short is not missed as long as what each of its
multiples lacks finds room beside the remainder. -/
theorem div_pred_eq_iff {n e : ℕ} (he : 2 ≤ e) :
    n / (e - 1) = n / e ↔ n % e + n / e < e - 1 := by
  obtain ⟨k, rfl⟩ : ∃ k, e = k + 1 := ⟨e - 1, by omega⟩
  have hdm := Nat.div_add_mod n (k + 1)
  rw [Nat.add_sub_cancel, Nat.div_eq_iff (by omega), Nat.mul_comm]
  generalize n / (k + 1) = q at hdm ⊢
  rw [Nat.add_mul] at hdm
  omega

end Hgsdk

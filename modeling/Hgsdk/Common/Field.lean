import Mathlib.Data.Nat.Bitwise
import Mathlib.Logic.Function.Basic
import Mathlib.Tactic.Common
/-!
# Fields of registers

A 32-bit register is divided into fields of `w` bits. `put w r i v` is the
idiom that stores to one of them: the field is cleared and the value,
shifted to its place, is put in. What is read back is the value, and every
other field is as it was, as long as the value fits.

A `Layout` spreads the fields of 32 pins over a bank of such registers.
-/

namespace Hgsdk

namespace Field

variable {w i j b : ℕ} {r v : BitVec 32}

/-- The bits of field `i`. -/
def mask (w i : ℕ) : BitVec 32 := BitVec.ofNat 32 (2 ^ w - 1) <<< (w * i)

/-- Field `i`. -/
def get (w : ℕ) (r : BitVec 32) (i : ℕ) : BitVec w := r.extractLsb' (w * i) w

/-- The register with `v` in field `i`. -/
def put (w : ℕ) (r : BitVec 32) (i : ℕ) (v : BitVec 32) : BitVec 32 :=
  (r &&& ~~~mask w i) ||| (v <<< (w * i))

theorem getLsbD_mask : (mask w i).getLsbD b = decide (b < 32 ∧ w * i ≤ b ∧ b < w * i + w) := by
  rw [mask, BitVec.getLsbD_shiftLeft, BitVec.getLsbD_ofNat, Nat.testBit_two_pow_sub_one]
  by_cases hb : b < 32 <;> by_cases hi : b < w * i
  · simp [hi, Nat.not_le.2 hi]
  · have hsub : b - w * i < w ↔ b < w * i + w := by omega
    have h32 : b - w * i < 32 := by omega
    simp [hb, hi, Nat.le_of_not_lt hi, hsub, h32]
  · simp [hb]
  · simp [hb]

theorem getLsbD_get : (get w r i).getLsbD b = (decide (b < w) && r.getLsbD (w * i + b)) :=
  BitVec.getLsbD_extractLsb' ..

/-- Inside the field, the bits are the value's. -/
theorem getLsbD_put_of_mem (hb : b < 32) (hlo : w * i ≤ b) (hhi : b < w * i + w) :
    (put w r i v).getLsbD b = v.getLsbD (b - w * i) := by
  rw [put, BitVec.getLsbD_or, BitVec.getLsbD_and, BitVec.getLsbD_not, getLsbD_mask,
    BitVec.getLsbD_shiftLeft]
  simp [hb, hlo, hhi]

/-- Outside of it, they are the register's, if the value fits. -/
theorem getLsbD_put_of_notMem (hv : v.toNat < 2 ^ w) (hout : b < w * i ∨ w * i + w ≤ b) :
    (put w r i v).getLsbD b = r.getLsbD b := by
  by_cases hb : b < 32
  · have hmask : (mask w i).getLsbD b = false := by
      rw [getLsbD_mask, decide_eq_false_iff_not]
      omega
    have hval : (v <<< (w * i)).getLsbD b = false := by
      rw [BitVec.getLsbD_shiftLeft]
      rcases hout with hlt | hge
      · simp [hlt]
      · have hbit : v.getLsbD (b - w * i) = false := by
          refine Nat.testBit_lt_two_pow (hv.trans_le (Nat.pow_le_pow_right (by decide) ?_))
          omega
        simp [hbit]
    rw [put, BitVec.getLsbD_or, BitVec.getLsbD_and, BitVec.getLsbD_not, hmask, hval]
    simp [hb]
  · rw [BitVec.getLsbD_of_ge _ _ (not_lt.1 hb), BitVec.getLsbD_of_ge _ _ (not_lt.1 hb)]

/-- **What was put is read back.** -/
theorem get_put_self (hi : w * i + w ≤ 32) : get w (put w r i v) i = v.setWidth w := by
  refine BitVec.eq_of_getLsbD_eq fun b hb => ?_
  rw [getLsbD_get, getLsbD_put_of_mem (by omega) (by omega) (by omega), BitVec.getLsbD_setWidth,
    Nat.add_sub_cancel_left]

/-- Two fields have no bit in common. -/
theorem disjoint_of_ne (hij : j ≠ i) (hb : b < w) : w * j + b < w * i ∨ w * i + w ≤ w * j + b := by
  rcases Nat.lt_or_gt_of_ne hij with h | h
  · have hmul : w * (j + 1) ≤ w * i := Nat.mul_le_mul_left w h
    rw [Nat.mul_succ] at hmul
    omega
  · have hmul : w * (i + 1) ≤ w * j := Nat.mul_le_mul_left w h
    rw [Nat.mul_succ] at hmul
    omega

/-- **The other fields stay.** -/
theorem get_put_of_ne (hv : v.toNat < 2 ^ w) (hij : j ≠ i) : get w (put w r i v) j = get w r j := by
  refine BitVec.eq_of_getLsbD_eq fun b hb => ?_
  rw [getLsbD_get, getLsbD_get, getLsbD_put_of_notMem hv (disjoint_of_ne hij hb)]

theorem get_put (hv : v.toNat < 2 ^ w) (hi : w * i + w ≤ 32) :
    get w (put w r i v) j = if j = i then v.setWidth w else get w r j := by
  by_cases hij : j = i
  · rw [if_pos hij, hij, get_put_self hi]
  · rw [if_neg hij, get_put_of_ne hv hij]

/-! ### Other ways to write it -/

theorem put_zero : put w r i 0 = r &&& ~~~mask w i := by
  simp [put]

/-- Setting all bits of a field. -/
theorem put_ones : put w r i (BitVec.ofNat 32 (2 ^ w - 1)) = r ||| mask w i := by
  refine BitVec.eq_of_getLsbD_eq fun b hb => ?_
  rw [put, ← mask]
  simp only [BitVec.getLsbD_or, BitVec.getLsbD_and, BitVec.getLsbD_not, hb, decide_true,
    Bool.true_and]
  cases (mask w i).getLsbD b <;> simp

end Field

/-! ### Banks of registers -/

/-- **A layout**: which register of the bank has the field of a pin, and
where. -/
structure Layout (k w : ℕ) where
  idx : Fin 32 → Fin k
  off : Fin 32 → ℕ
  inj : ∀ p q, idx p = idx q → off p = off q → p = q
  fits : ∀ p, w * off p + w ≤ 32

namespace Layout

variable {k w : ℕ} (L : Layout k w) {bank : Fin k → BitVec 32} {p q : Fin 32} {v : BitVec 32}

/-- The field of a pin. -/
def get (bank : Fin k → BitVec 32) (p : Fin 32) : BitVec w := Field.get w (bank (L.idx p)) (L.off p)

/-- The bank with `v` in the field of a pin. -/
def put (bank : Fin k → BitVec 32) (p : Fin 32) (v : BitVec 32) : Fin k → BitVec 32 :=
  Function.update bank (L.idx p) (Field.put w (bank (L.idx p)) (L.off p) v)

theorem get_put_self : L.get (L.put bank p v) p = v.setWidth w := by
  rw [get, put, Function.update_self, Field.get_put_self (L.fits p)]

theorem get_put_of_ne (hv : v.toNat < 2 ^ w) (hqp : q ≠ p) :
    L.get (L.put bank p v) q = L.get bank q := by
  by_cases hidx : L.idx q = L.idx p
  · have hoff : L.off q ≠ L.off p := fun hoff => hqp (L.inj q p hidx hoff)
    rw [get, put, hidx, Function.update_self, Field.get_put_of_ne hv hoff, get, hidx]
  · rw [get, put, Function.update_of_ne hidx, get]

/-- **A store to the field of one pin.** -/
theorem get_put (hv : v.toNat < 2 ^ w) :
    L.get (L.put bank p v) q = if q = p then v.setWidth w else L.get bank q := by
  by_cases hqp : q = p
  · rw [if_pos hqp, hqp, get_put_self]
  · rw [if_neg hqp, L.get_put_of_ne hv hqp]

end Layout

end Hgsdk

import Hgsdk.Wdt.Model
import Mathlib.Data.Nat.Size
/-!
# The period the watchdog is started with

The loop counts the bits of the timeout, so the code is the right one for
an odd timeout, whose predecessor is counted, and for a power of two. Any
other even timeout is rounded down. The code is cut to four bits, and the
value returned is twice the period for every even timeout.
-/

namespace Hgsdk

namespace Wdt

variable {wdt : HgWdtV1} {t : BitVec 32}

/-! ### The loop -/

/-- Halving takes one bit away. -/
theorem size_half {n : ℕ} (hn : n ≠ 0) : Nat.size n = Nat.size (n / 2) + 1 := by
  refine le_antisymm (Nat.size_le.2 ?_) (Nat.lt_size.2 ?_)
  · have hlt := Nat.lt_size_self (n / 2)
    rw [Nat.pow_succ]
    omega
  · rcases Nat.eq_zero_or_pos (Nat.size (n / 2)) with h0 | hpos
    · rw [h0]
      omega
    · -- the top bit of the half
      have htop : 2 ^ (Nat.size (n / 2) - 1) ≤ n / 2 := Nat.lt_size.1 (by omega)
      have hpow : 2 ^ Nat.size (n / 2) = 2 ^ (Nat.size (n / 2) - 1) * 2 := by
        rw [← Nat.pow_succ]
        congr 1
        omega
      omega

/-- **The loop counts bits.** -/
theorem cycleLoop_eq (t c a : BitVec 32) :
    cycleLoop t c a = (c + BitVec.ofNat 32 (Nat.size t.toNat), a <<< Nat.size t.toNat) := by
  fun_induction cycleLoop t c a with
  | case1 c a =>
    have hsize : Nat.size (0 : BitVec 32).toNat = 0 := Nat.size_zero
    rw [hsize, BitVec.shiftLeft_zero]
    exact congrArg (·, a) (BitVec.add_zero c).symm
  | case2 t c a hne ih =>
    have hpos : t.toNat ≠ 0 := fun h0 => hne (BitVec.eq_of_toNat_eq h0)
    have hhalf : (t >>> 1).toNat = t.toNat / 2 := by
      rw [BitVec.toNat_ushiftRight, Nat.shiftRight_eq_div_pow, Nat.pow_one]
    have hone : (1 : BitVec 32) = BitVec.ofNat 32 1 := rfl
    rw [ih, hhalf, size_half hpos, BitVec.add_assoc, hone, ← BitVec.ofNat_add,
      ← BitVec.shiftLeft_add, Nat.add_comm 1]

/-- The bits counted, of the timeout made even. -/
def bits (n : ℕ) : ℕ := Nat.size (n - n % 2)

/-- **What the rounding and the loop compute.** -/
theorem timeOutCycle_eq :
    timeOutCycle t = (BitVec.ofNat 32 (6 + t.toNat % 2 + bits t.toNat),
      (1 : BitVec 32) <<< bits t.toNat) := by
  have hodd : (t &&& 1).toNat = t.toNat % 2 := by
    rw [BitVec.toNat_and]
    exact Nat.and_one_is_mod _
  rw [timeOutCycle]
  split
  · rename_i hne
    have hone : t.toNat % 2 = 1 := by
      have hne' : (t &&& 1).toNat ≠ 0 := fun h0 => hne (BitVec.eq_of_toNat_eq h0)
      omega
    have hsub : (t - 1).toNat = t.toNat - 1 := by
      have hlt := t.isLt
      have h1 : (1 : BitVec 32).toNat = 1 := rfl
      rw [BitVec.toNat_sub, h1]
      omega
    rw [cycleLoop_eq, hsub, bits, hone, BitVec.ofNat_add]
    rfl
  · rename_i heq
    have hzero : t.toNat % 2 = 0 := by
      rw [← hodd, not_not.1 heq]
      rfl
    rw [cycleLoop_eq, bits, hzero, BitVec.ofNat_add]
    rfl

/-! ### The registers -/

/-- The prescaler field is the code, cut to four bits; the keys after it
leave it alone. -/
theorem psr_start : (wdt.hgWdtV1Start t).2.psr = (timeOutCycle t).1.setWidth 4 := by
  have hor : ((wdt.wdtcon &&& ~~~conPsr 0xF) ||| conPsr ((wdt.wdtcon &&& ~~~conPsr 0xF) |||
      conPsr (timeOutCycle t).1)).extractLsb' 0 4 = (timeOutCycle t).1.setWidth 4 := by
    have hmask : (0xF : BitVec 32).extractLsb' 0 4 = BitVec.allOnes 4 := by decide
    have hclear : (~~~conPsr 0xF).extractLsb' 0 4 = 0 := by decide
    have hfield : ∀ v, (conPsr v).extractLsb' 0 4 = v.extractLsb' 0 4 := by
      intro v
      rw [conPsr, BitVec.extractLsb'_and, hmask, BitVec.and_allOnes]
    have hlow : (timeOutCycle t).1.extractLsb' 0 4 = (timeOutCycle t).1.setWidth 4 :=
      BitVec.eq_of_toNat_eq rfl
    rw [BitVec.extractLsb'_or, hfield, BitVec.extractLsb'_or, hfield, BitVec.extractLsb'_and,
      hclear, hlow]
    simp
  have hkeep : ∀ v : BitVec 32, (((v &&& ~~~conPending) &&& ~~~conPending) ||| conWdte).extractLsb'
      0 4 = v.extractLsb' 0 4 := by
    have hpend : (~~~conPending).extractLsb' 0 4 = BitVec.allOnes 4 := by decide
    have hwdte : conWdte.extractLsb' 0 4 = 0 := by decide
    intro v
    rw [BitVec.extractLsb'_or, BitVec.extractLsb'_and, BitVec.extractLsb'_and, hpend, hwdte,
      BitVec.and_allOnes, BitVec.and_allOnes]
    exact BitVec.or_zero
  exact (hkeep _).trans hor

/-! ### The least code -/

/-- **The code `k` is the least** whose period is `m` seconds or more. -/
def LeastCode (m k : ℕ) : Prop := 128 * m ≤ 2 ^ k ∧ ∀ j < k, 2 ^ j < 128 * m

theorem period_ge_iff {m j : ℕ} (hm : 0 < m) : 128 * m ≤ 2 ^ j ↔ 7 + Nat.size (m - 1) ≤ j := by
  rcases Nat.lt_or_ge j 7 with hj | hj
  · have hpow : 2 ^ j ≤ 2 ^ 6 := Nat.pow_le_pow_right (by decide) (by omega)
    omega
  · obtain ⟨i, rfl⟩ := Nat.exists_eq_add_of_le hj
    have hsize := Nat.size_le (m := m - 1) (n := i)
    rw [Nat.pow_add]
    omega

theorem leastCode_iff {m k : ℕ} (hm : 0 < m) : LeastCode m k ↔ k = 7 + Nat.size (m - 1) := by
  rw [LeastCode, period_ge_iff hm]
  have hlt : ∀ j, 2 ^ j < 128 * m ↔ j < 7 + Nat.size (m - 1) := fun j => by
    rw [← Nat.not_le, period_ge_iff hm, Nat.not_le]
  simp only [hlt]
  constructor
  · rintro ⟨hge, hall⟩
    by_contra hne
    have := hall (7 + Nat.size (m - 1)) (by omega)
    omega
  · rintro rfl
    exact ⟨le_rfl, fun _ => id⟩

/-- A power of two has one bit more than the number before it, and no other
number has. -/
theorem size_pred_iff {n : ℕ} (hn : 0 < n) :
    Nat.size n = Nat.size (n - 1) + 1 ↔ ∃ i, n = 2 ^ i := by
  constructor
  · intro hsize
    have hle : 2 ^ Nat.size (n - 1) ≤ n := Nat.lt_size.1 (by omega)
    have hlt := Nat.lt_size_self (n - 1)
    exact ⟨Nat.size (n - 1), by omega⟩
  · rintro ⟨i, rfl⟩
    have hsize : Nat.size (2 ^ i - 1) = i := by
      refine le_antisymm (Nat.size_le.2 (by omega)) ?_
      rcases Nat.eq_zero_or_pos i with rfl | hi
      · exact Nat.zero_le _
      · have hlow : i - 1 < Nat.size (2 ^ i - 1) := by
          have hpow : 2 ^ i = 2 ^ (i - 1) * 2 := by
            rw [← Nat.pow_succ]
            congr 1
            omega
          have hone := Nat.one_le_two_pow (n := i - 1)
          exact Nat.lt_size.2 (by omega)
        omega
    rw [Nat.size_pow, hsize]

/-- The number of bits, by bounds. -/
theorem size_eq_succ_iff {n s : ℕ} : Nat.size n = s + 1 ↔ 2 ^ s ≤ n ∧ n < 2 ^ (s + 1) := by
  rw [← Nat.lt_size, ← Nat.size_le]
  omega

/-! ### Which timeouts are kept -/

/-- **Odd timeouts.** The code is right up to 255 seconds, and where the
bits cut off happen to leave the longest period. -/
theorem leastCode_odd {n : ℕ} (hn : n < 2 ^ 32) (hodd : n % 2 = 1) :
    LeastCode (min n 256) ((6 + n % 2 + bits n) % 16) ↔ n < 256 ∨ 2 ^ 23 < n ∧ n < 2 ^ 24 := by
  have h32 : Nat.size (n - 1) ≤ 32 := Nat.size_le.2 (by omega)
  have h8 : Nat.size (n - 1) ≤ 8 ↔ n - 1 < 2 ^ 8 := Nat.size_le
  have h24 : Nat.size (n - 1) = 24 ↔ 2 ^ 23 ≤ n - 1 ∧ n - 1 < 2 ^ 24 := size_eq_succ_iff
  rw [leastCode_iff (by omega), bits, hodd]
  rcases Nat.lt_or_ge n 256 with hlt | hge
  · rw [Nat.min_eq_left hlt.le]
    omega
  · have h255 : Nat.size (256 - 1) = 8 := size_eq_succ_iff.2 (by decide)
    rw [Nat.min_eq_right hge, h255]
    omega

/-- **Even timeouts.** Below 256 seconds the code is right for powers of
two only. -/
theorem leastCode_even {n : ℕ} (hn : n < 2 ^ 32) (heven : n % 2 = 0) (hpos : 0 < n) :
    LeastCode (min n 256) ((6 + n % 2 + bits n) % 16) ↔
      (∃ i ≤ 8, n = 2 ^ i) ∨ 2 ^ 8 ≤ n ∧ n < 2 ^ 9 ∨ 2 ^ 24 ≤ n ∧ n < 2 ^ 25 := by
  have h32 : Nat.size n ≤ 32 := Nat.size_le.2 hn
  have h8 : Nat.size n ≤ 8 ↔ n < 2 ^ 8 := Nat.size_le
  have h9 : Nat.size n = 9 ↔ 2 ^ 8 ≤ n ∧ n < 2 ^ 9 := size_eq_succ_iff
  have h25 : Nat.size n = 25 ↔ 2 ^ 24 ≤ n ∧ n < 2 ^ 25 := size_eq_succ_iff
  rw [leastCode_iff (by omega), bits, heven, Nat.sub_zero]
  rcases Nat.lt_or_ge n 256 with hlt | hge
  · have hpow : (∃ i ≤ 8, n = 2 ^ i) ↔ ∃ i, n = 2 ^ i := by
      constructor
      · rintro ⟨i, -, hi⟩
        exact ⟨i, hi⟩
      · rintro ⟨i, rfl⟩
        have hi : i < 8 := (Nat.pow_lt_pow_iff_right (by decide)).1 hlt
        exact ⟨i, hi.le, rfl⟩
    rw [Nat.min_eq_left hlt.le, hpow, ← size_pred_iff hpos]
    clear hpow
    omega
  · have h255 : Nat.size (256 - 1) = 8 := size_eq_succ_iff.2 (by decide)
    have hpow : (∃ i ≤ 8, n = 2 ^ i) → 2 ^ 8 ≤ n ∧ n < 2 ^ 9 := by
      rintro ⟨i, hi, rfl⟩
      have hle : 2 ^ i ≤ 2 ^ 8 := Nat.pow_le_pow_right (by decide) hi
      omega
    rw [Nat.min_eq_right hge, h255, or_iff_right_of_imp fun h => Or.inl (hpow h)]
    omega

/-- **What is returned** is the period for the odd timeouts up to 255
seconds only. -/
theorem returned_iff {n : ℕ} (hn : n < 2 ^ 32) :
    128 * (2 ^ bits n % 2 ^ 32) = 2 ^ ((6 + n % 2 + bits n) % 16) ↔ n % 2 = 1 ∧ n < 256 := by
  have h32 : bits n ≤ 32 := Nat.size_le.2 (by omega)
  have h8 : bits n ≤ 8 ↔ n - n % 2 < 2 ^ 8 := Nat.size_le
  rcases Nat.lt_or_ge (bits n) 32 with hlt | hge
  · have hmod : 2 ^ bits n % 2 ^ 32 = 2 ^ bits n :=
      Nat.mod_eq_of_lt (Nat.pow_lt_pow_right (by decide) hlt)
    have hmul : 128 * 2 ^ bits n = 2 ^ (7 + bits n) := by rw [Nat.pow_add]
    rw [hmod, hmul, Nat.pow_right_inj (le_refl 2)]
    omega
  · -- all 32 bits: the value has been shifted out
    have heq : bits n = 32 := le_antisymm h32 hge
    have hne : ¬ n < 256 := by omega
    rw [heq]
    refine iff_of_false (fun h => ?_) fun h => hne h.2
    have hpow := Nat.two_pow_pos ((6 + n % 2 + 32) % 16)
    omega

/-- **What the watchdog is started with.** For every timeout: the code
programmed is the least whose period is not shorter, up to 256 seconds,
exactly for odd timeouts below 256, powers of two up to 256, even timeouts
of 256 to 511 seconds, and two ranges in which the bits cut off leave the
longest period; and the value returned is the period exactly for odd
timeouts below 256. -/
theorem start_period (wdt : HgWdtV1) (timeOut : BitVec 32) :
    (LeastCode (min timeOut.toNat 256) (wdt.hgWdtV1Start timeOut).2.psr.toNat ↔
      timeOut.toNat % 2 = 1 ∧
        (timeOut.toNat < 256 ∨ 2 ^ 23 < timeOut.toNat ∧ timeOut.toNat < 2 ^ 24) ∨
      (∃ i ≤ 8, timeOut.toNat = 2 ^ i) ∨
      timeOut.toNat % 2 = 0 ∧ (2 ^ 8 ≤ timeOut.toNat ∧ timeOut.toNat < 2 ^ 9 ∨
        2 ^ 24 ≤ timeOut.toNat ∧ timeOut.toNat < 2 ^ 25)) ∧
    (128 * (wdt.hgWdtV1Start timeOut).1.toNat = 2 ^ (wdt.hgWdtV1Start timeOut).2.psr.toNat ↔
      timeOut.toNat % 2 = 1 ∧ timeOut.toNat < 256) := by
  have hlt := timeOut.isLt
  have hret : (wdt.hgWdtV1Start timeOut).1.toNat = 2 ^ bits timeOut.toNat % 2 ^ 32 := by
    show (timeOutCycle timeOut).2.toNat = _
    rw [timeOutCycle_eq, BitVec.toNat_shiftLeft, Nat.shiftLeft_eq]
    exact congrArg (· % 2 ^ 32) (Nat.one_mul _)
  have hpsr : (wdt.hgWdtV1Start timeOut).2.psr.toNat =
      (6 + timeOut.toNat % 2 + bits timeOut.toNat) % 16 := by
    have h32 : bits timeOut.toNat ≤ 32 := Nat.size_le.2 (by omega)
    rw [psr_start, timeOutCycle_eq, BitVec.toNat_setWidth, BitVec.toNat_ofNat]
    omega
  rw [hret, hpsr]
  refine ⟨?_, returned_iff hlt⟩
  generalize timeOut.toNat = n at hlt ⊢
  rcases Nat.mod_two_eq_zero_or_one n with heven | hodd
  · rcases Nat.eq_zero_or_pos n with rfl | hpos
    · -- no timeout at all: code 6, and code 0 would do
      refine iff_of_false (fun h => absurd (h.2 0 (by decide)) (by decide)) ?_
      rintro (h | ⟨i, -, hi⟩ | h)
      · omega
      · exact absurd hi.symm (Nat.two_pow_pos i).ne'
      · omega
    · rw [leastCode_even hlt heven hpos]
      simp only [heven, true_and, Nat.zero_ne_one, false_and, false_or]
  · have hpow : (∃ i ≤ 8, n = 2 ^ i) → n < 256 := by
      rintro ⟨i, hi, rfl⟩
      cases i with
      | zero => decide
      | succ i =>
        rw [Nat.pow_succ] at hodd
        omega
    rw [leastCode_odd hlt hodd]
    simp only [hodd, true_and, Nat.one_ne_zero, false_and, or_false]
    exact (or_iff_left_of_imp fun h => Or.inl (hpow h)).symm

/-- **Six seconds** are programmed as four and returned as eight, and **512
seconds** as eight milliseconds. -/
theorem start_shorter :
    (HgWdtV1.hgWdtV1Start ⟨0, false⟩ 6).2.psr = 9 ∧
    (HgWdtV1.hgWdtV1Start ⟨0, false⟩ 6).1 = 8 ∧
    (HgWdtV1.hgWdtV1Start ⟨0, false⟩ 512).2.psr = 0 := by
  have hsix : timeOutCycle 6 = (9, 8) := timeOutCycle_eq
  have h512 : timeOutCycle 512 = (16, 1024) := timeOutCycle_eq
  refine ⟨?_, ?_, ?_⟩
  · rw [psr_start, hsix]
    rfl
  · exact congrArg Prod.snd hsix
  · rw [psr_start, h512]
    rfl

end Wdt

end Hgsdk

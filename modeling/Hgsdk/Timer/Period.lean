import Hgsdk.Timer.Model
/-!
# The period of a timer, and the time between two stamps

`hgtimer_v2_start` programs the number of ticks it has computed: the
smallest prescaler with which the count fits sixteen bits, and the count
less one. The ticks are a 32-bit product, though, so a timeout too long is
programmed as a short one. The `ioctl` that turns two stamps into a time
takes the period for one count less than it is.
-/

namespace Hgsdk

namespace Timer

variable {dev : HgtimerV2} {con v : BitVec 32} {overall : BitVec 32} {i : ℕ}

/-! ### The fields of `TMR_CON` -/

/-- Below the pending bits the register holds what was written. -/
theorem extractLsb'_writtenCon {s n : ℕ} (h : s + n ≤ 14) :
    (writtenCon con v).extractLsb' s n = v.extractLsb' s n := by
  have hpng : ∀ b < 14, pending.getLsbD b = false := by decide
  refine BitVec.eq_of_getLsbD_eq fun b hb => ?_
  have hbit := hpng (s + b) (by omega)
  have hlt : s + b < 32 := by omega
  simp only [writtenCon, BitVec.getLsbD_extractLsb', BitVec.getLsbD_or, BitVec.getLsbD_and,
    BitVec.getLsbD_not, hbit, hlt, decide_true, Bool.not_false, Bool.and_true, Bool.and_false,
    Bool.or_false, Bool.true_and]

theorem modeOf_writtenCon : modeOf (writtenCon con v) = modeOf v :=
  extractLsb'_writtenCon (by decide)

/-! ### The prescaler -/

/-- **The smallest prescaler** with which the count fits sixteen bits. -/
structure Fits (ticks psc : ℕ) : Prop where
  le : psc ≤ 7
  fits : ticks / 2 ^ psc < 65536
  least : ∀ k < psc, 65536 ≤ ticks / 2 ^ k

/-- The test of the loop looks at the upper half only. -/
theorem upper_lt_iff (k : ℕ) :
    (overall >>> 16).toNat < 1 <<< k ↔ overall.toNat / 2 ^ k < 65536 := by
  have hk : 0 < 2 ^ k := Nat.two_pow_pos k
  rw [BitVec.toNat_ushiftRight, Nat.shiftRight_eq_div_pow, Nat.one_shiftLeft,
    Nat.div_lt_iff_lt_mul (by decide), Nat.div_lt_iff_lt_mul hk, Nat.mul_comm]

theorem prescaler_eq_some_iff : prescaler overall = some i ↔ Fits overall.toNat i := by
  rw [prescaler, List.find?_range_eq_some]
  simp only [decide_eq_true_eq, Bool.not_eq_true', decide_eq_false_iff_not, upper_lt_iff,
    List.mem_range, Nat.not_lt]
  constructor
  · rintro ⟨hfits, hlt, hleast⟩
    exact ⟨by omega, hfits, hleast⟩
  · rintro ⟨hle, hfits, hleast⟩
    exact ⟨hfits, by omega, hleast⟩

theorem prescaler_eq_none_iff : prescaler overall = none ↔ 2 ^ 23 ≤ overall.toNat := by
  rw [prescaler, List.find?_range_eq_none]
  simp only [Bool.not_eq_true', decide_eq_false_iff_not, upper_lt_iff, Nat.not_lt]
  constructor
  · intro hall
    have h7 := hall 7 (by decide)
    omega
  · intro hge k hk
    have hpow : 2 ^ k ≤ 2 ^ 7 := Nat.pow_le_pow_right (by decide) (by omega)
    rw [Nat.le_div_iff_mul_le (Nat.two_pow_pos k)]
    omega

/-- A count that fits with a prescaler is below the limit, and not zero
where the ticks are not. -/
theorem Fits.lt (h : Fits overall.toNat i) : overall.toNat < 2 ^ 23 := by
  by_contra hge
  have hnone := prescaler_eq_none_iff.2 (Nat.le_of_not_lt hge)
  exact nomatch hnone.symm.trans (prescaler_eq_some_iff.2 h)

theorem Fits.pos {ticks : ℕ} (h : Fits ticks i) (hpos : 0 < ticks) : 0 < ticks / 2 ^ i := by
  cases i with
  | zero => simpa using hpos
  | succ k =>
    have hk := h.least k (Nat.lt_succ_self k)
    have hhalf : ticks / 2 ^ (k + 1) = ticks / 2 ^ k / 2 := by
      rw [Nat.pow_succ, Nat.div_div_eq_div_mul]
    omega

/-! ### What is programmed -/

theorem program_tmrPr : (dev.program overall i).tmrPr = (overall >>> i) - 1 := rfl

/-- A field that is cleared first holds what is put in. -/
theorem field_program {k n : ℕ} (hlow : k + n ≤ 14)
    (hclear : (~~~(conPscMask ||| conIncSrcMask ||| conModeDisMask)).extractLsb' k n = 0) :
    (dev.program overall i).tmrCon.extractLsb' k n =
      (conTimerPng ||| conPsc (BitVec.ofNat 32 i) ||| conIncSrc sourceSysRising |||
        conMode (modeSelCounter.setWidth 32)).extractLsb' k n := by
  simp only [HgtimerV2.program, HgtimerV2.writeCon]
  rw [extractLsb'_writtenCon hlow, BitVec.extractLsb'_or, extractLsb'_writtenCon hlow,
    BitVec.extractLsb'_and, hclear]
  exact (congrArg (· ||| _) BitVec.and_zero).trans BitVec.zero_or

theorem pscOf_program (hi : i < 8) : pscOf (dev.program overall i).tmrCon = BitVec.ofNat 3 i := by
  have hput : ∀ i < 8, pscOf (conTimerPng ||| conPsc (BitVec.ofNat 32 i) |||
    conIncSrc sourceSysRising ||| conMode (modeSelCounter.setWidth 32)) = BitVec.ofNat 3 i := by
    decide
  exact (field_program (by decide) (by decide)).trans (hput i hi)

theorem modeOf_program (hi : i < 8) : modeOf (dev.program overall i).tmrCon = modeSelCounter := by
  have hput : ∀ i < 8, modeOf (conTimerPng ||| conPsc (BitVec.ofNat 32 i) |||
    conIncSrc sourceSysRising ||| conMode (modeSelCounter.setWidth 32)) = modeSelCounter := by
    decide
  exact (field_program (by decide) (by decide)).trans (hput i hi)

/-- The ticks of a timeout, as the driver computes them. -/
def ticksOf (apbclk : CInt) (tmoUs : BitVec 32) : BitVec 32 := tmoUs * mhz apbclk

variable {apbclk : CInt} {tmoUs cbData : BitVec 32} {cb : Option (BitVec 32)}

/-- **A start that succeeds** has found a prescaler and programmed it. -/
theorem start_eq_retOk_iff {dev' : HgtimerV2} :
    dev.hgtimerV2Start apbclk tmoUs cb cbData = (retOk, dev') ↔
      dev.opened ≠ 0 ∧ tmoUs ≠ 0 ∧ ∃ i, Fits (ticksOf apbclk tmoUs).toNat i ∧
        dev' = { dev with cb, cbData }.program (ticksOf apbclk tmoUs) i := by
  have hnonet : -eNonet ≠ retOk := by decide
  have hinval : -eInval ≠ retOk := by decide
  have herr : retErr ≠ retOk := by decide
  rw [HgtimerV2.hgtimerV2Start]
  dsimp only
  split
  · rename_i hclosed
    exact iff_of_false (fun h => hnonet (Prod.mk.inj h).1) fun h => h.1 hclosed
  rename_i hopened
  split
  · rename_i hzero
    exact iff_of_false (fun h => hinval (Prod.mk.inj h).1) fun h => h.2.1 hzero
  rename_i htmo
  rw [← ticksOf]
  split
  · rename_i hnone
    refine iff_of_false (fun h => herr (Prod.mk.inj h).1) ?_
    rintro ⟨-, -, i, hfits, -⟩
    exact nomatch hnone.symm.trans (prescaler_eq_some_iff.2 hfits)
  · rename_i i hsome
    constructor
    · intro h
      exact ⟨hopened, htmo, i, prescaler_eq_some_iff.1 hsome, (Prod.mk.inj h).2.symm⟩
    · rintro ⟨-, -, j, hfits, rfl⟩
      obtain rfl := Option.some.inj (hsome.symm.trans (prescaler_eq_some_iff.2 hfits))
      rfl

/-- It succeeds for ticks below the limit. -/
theorem start_fst_eq_retOk_iff (hopened : dev.opened ≠ 0) (htmo : tmoUs ≠ 0) :
    (dev.hgtimerV2Start apbclk tmoUs cb cbData).1 = retOk ↔
      (ticksOf apbclk tmoUs).toNat < 2 ^ 23 := by
  constructor
  · intro h
    obtain ⟨-, -, i, hfits, -⟩ := start_eq_retOk_iff.1 (Prod.ext h rfl)
    exact hfits.lt
  · intro hlt
    have hsome : prescaler (ticksOf apbclk tmoUs) ≠ none := fun hnone =>
      absurd (prescaler_eq_none_iff.1 hnone) (Nat.not_le.2 hlt)
    obtain ⟨i, hi⟩ := Option.ne_none_iff_exists'.1 hsome
    have hstart : dev.hgtimerV2Start apbclk tmoUs cb cbData =
        (retOk, { dev with cb, cbData }.program (ticksOf apbclk tmoUs) i) :=
      start_eq_retOk_iff.2 ⟨hopened, htmo, i, prescaler_eq_some_iff.1 hi, rfl⟩
    exact congrArg Prod.fst hstart

/-! ### The period -/

/-- The count programmed, for ticks that are not zero. -/
theorem tmrPr_succ {dev' : HgtimerV2} (hdev : dev'.tmrPr = (overall >>> i) - 1)
    (hpos : 0 < overall.toNat / 2 ^ i) : dev'.tmrPr.toNat + 1 = overall.toNat / 2 ^ i := by
  have hlt : overall.toNat / 2 ^ i ≤ overall.toNat := Nat.div_le_self ..
  have hone : (1 : BitVec 32).toNat = 1 := rfl
  rw [hdev, BitVec.toNat_sub, BitVec.toNat_ushiftRight, Nat.shiftRight_eq_div_pow, hone]
  omega

/-- **The period is exact**: of so many ticks, no whole count is missing,
and the prescaler is the smallest there is. -/
structure Exact (ticks : ℕ) (dev : HgtimerV2) : Prop where
  pr_le : dev.tmrPr.toNat ≤ 65535
  le_ticks : (dev.tmrPr.toNat + 1) * 2 ^ (pscOf dev.tmrCon).toNat ≤ ticks
  ticks_lt : ticks < (dev.tmrPr.toNat + 2) * 2 ^ (pscOf dev.tmrCon).toNat
  psc : Fits ticks (pscOf dev.tmrCon).toNat

theorem toNat_ofNat_three (hi : i ≤ 7) : (BitVec.ofNat 3 i).toNat = i :=
  (BitVec.toNat_ofNat ..).trans (Nat.mod_eq_of_lt (by omega))

/-- What was programmed is exact for the ticks as they were computed. -/
theorem exact_program (hfits : Fits overall.toNat i) (hpos : 0 < overall.toNat) :
    Exact overall.toNat (dev.program overall i) := by
  have hi := hfits.le
  have hcount := tmrPr_succ (@program_tmrPr dev overall i) (hfits.pos hpos)
  have hfit := hfits.fits
  have hpsc : (pscOf (dev.program overall i).tmrCon).toNat = i := by
    rw [pscOf_program (by omega), toNat_ofNat_three hi]
  refine ⟨by omega, ?_, ?_, ?_⟩
  · rw [hpsc, hcount]
    exact Nat.div_mul_le_self ..
  · have hsucc : (dev.program overall i).tmrPr.toNat + 2 = overall.toNat / 2 ^ i + 1 := by omega
    rw [hpsc, hsucc, Nat.mul_comm]
    exact Nat.lt_mul_div_succ _ (Nat.two_pow_pos i)
  · rw [hpsc]
    exact hfits

/-- An exact period is one of fewer ticks than the limit. -/
theorem Exact.lt {ticks : ℕ} (h : Exact ticks dev) : ticks < 2 ^ 23 + 2 ^ 7 := by
  have hpow : 2 ^ (pscOf dev.tmrCon).toNat ≤ 2 ^ 7 :=
    Nat.pow_le_pow_right (by decide) h.psc.le
  have hpr := h.pr_le
  calc ticks < (dev.tmrPr.toNat + 2) * 2 ^ (pscOf dev.tmrCon).toNat := h.ticks_lt
    _ ≤ (65535 + 2) * 2 ^ 7 := Nat.mul_le_mul (by omega) hpow
    _ = 2 ^ 23 + 2 ^ 7 := by decide

/-- **What `hgtimer_v2_start` makes of a timeout.** With an opened timer and
a clock of a megahertz or more: a start that returns `RET_OK` has programmed
exactly the ticks of the timeout, unless the ticks exceed 32 bits and what
is left of them is below the limit; and timeouts up to the limit succeed,
the limit itself excepted. -/
theorem start_exact (hopened : dev.opened ≠ 0) (hmhz : 0 < (mhz apbclk).toInt) (htmo : tmoUs ≠ 0)
    (cb : Option (BitVec 32)) (cbData : BitVec 32) :
    (((dev.hgtimerV2Start apbclk tmoUs cb cbData).1 = retOk →
        Exact (tmoUs.toNat * (mhz apbclk).toNat)
          (dev.hgtimerV2Start apbclk tmoUs cb cbData).2) ↔
      tmoUs.toNat * (mhz apbclk).toNat < 2 ^ 32 ∨
        2 ^ 23 ≤ tmoUs.toNat * (mhz apbclk).toNat % 2 ^ 32) ∧
    ((tmoUs.toNat * (mhz apbclk).toNat ≤ 2 ^ 16 * 128 →
        (dev.hgtimerV2Start apbclk tmoUs cb cbData).1 = retOk) ↔
      tmoUs.toNat * (mhz apbclk).toNat ≠ 2 ^ 23) := by
  have hticks : (ticksOf apbclk tmoUs).toNat = tmoUs.toNat * (mhz apbclk).toNat % 2 ^ 32 :=
    BitVec.toNat_mul ..
  have hpos : 0 < tmoUs.toNat * (mhz apbclk).toNat := by
    refine Nat.mul_pos (Nat.pos_of_ne_zero fun h0 => htmo (BitVec.eq_of_toNat_eq h0)) ?_
    refine Nat.pos_of_ne_zero fun h0 => ?_
    rw [BitVec.eq_of_toNat_eq (y := 0) h0] at hmhz
    exact absurd hmhz (by decide)
  have hok : (dev.hgtimerV2Start apbclk tmoUs cb cbData).1 = retOk ↔
      (ticksOf apbclk tmoUs).toNat < 2 ^ 23 := start_fst_eq_retOk_iff hopened htmo
  rw [hticks] at hok
  generalize tmoUs.toNat * (mhz apbclk).toNat = ticks at hticks hpos hok ⊢
  constructor
  · constructor
    · intro hexact
      by_contra hwrap
      have hret := hok.2 (by omega)
      have hlt := (hexact hret).lt
      omega
    · intro hcond hret
      have hlt := hok.1 hret
      have hstart : dev.hgtimerV2Start apbclk tmoUs cb cbData =
        (retOk, (dev.hgtimerV2Start apbclk tmoUs cb cbData).2) := Prod.ext hret rfl
      obtain ⟨-, -, i, hfits, hdev⟩ := start_eq_retOk_iff.1 hstart
      have heq : (ticksOf apbclk tmoUs).toNat = ticks := by omega
      rw [hdev, ← heq]
      exact exact_program hfits (by omega)
  · rw [hok]
    omega

/-- A timer that was opened, its registers as after reset. -/
def openTimer : HgtimerV2 where
  tmrCon := 0
  tmrPr := 0
  tmrCnt := 0
  cb := none
  cbData := 0
  mode := .once
  flags := 0
  opened := 1
  irq := true

/-- A millisecond at 96 MHz. -/
theorem start_exact_millisecond :
    (openTimer.hgtimerV2Start 96000000 1000 (some 1) 0).1 = retOk ∧
      Exact 96000 (openTimer.hgtimerV2Start 96000000 1000 (some 1) 0).2 := by
  have hok : (openTimer.hgtimerV2Start 96000000 1000 (some 1) 0).1 = retOk := by decide
  have hopened : openTimer.opened ≠ 0 := by decide
  have hmhz : 0 < (mhz 96000000).toInt := by decide
  have htmo : (1000 : BitVec 32) ≠ 0 := by decide
  have hexact := (start_exact hopened hmhz htmo (some 1) 0).1.2 (Or.inl (by decide))
  exact ⟨hok, hexact hok⟩

/-- **A timeout that wraps.** 44739243 µs at 96 MHz are 2³² + 32 ticks: the
timer is programmed for 32 of them and the start returns `RET_OK`; and the
longest timeout the assertion admits, 2²³ ticks, is refused. -/
theorem start_wraps :
    (openTimer.hgtimerV2Start 96000000 44739243 (some 1) 0).1 = retOk ∧
    (openTimer.hgtimerV2Start 96000000 44739243 (some 1) 0).2.tmrPr = 31 ∧
    pscOf (openTimer.hgtimerV2Start 96000000 44739243 (some 1) 0).2.tmrCon = 0 ∧
    (44739243 : BitVec 32).toNat * (mhz 96000000).toNat = 2 ^ 32 + 32 ∧
    (8388608 : BitVec 32).toNat * (mhz 1000000).toNat = 2 ^ 16 * 128 ∧
    (openTimer.hgtimerV2Start 1000000 8388608 (some 1) 0).1 = retErr := by
  decide

/-! ### The time between two stamps -/

/-- The counts the driver takes to lie between the stamps `t` and `t + d`:
a whole period where the stamps are the same, and one too few where the
counter has wrapped. -/
def counted (pr t d : ℕ) : ℕ := if pr < t + d then d - 1 else if d = 0 then pr else d

theorem counted_le {pr t d : ℕ} (hd : d ≤ pr) : counted pr t d ≤ pr := by
  unfold counted
  split_ifs <;> omega

/-- **What the driver counts.** -/
theorem diff_toNat {pr : BitVec 32} {t d : ℕ} (ht : t ≤ pr.toNat) (hd : d ≤ pr.toNat) :
    (if BitVec.ofNat 32 t < BitVec.ofNat 32 ((t + d) % (pr.toNat + 1))
      then BitVec.ofNat 32 ((t + d) % (pr.toNat + 1)) - BitVec.ofNat 32 t
      else BitVec.ofNat 32 ((t + d) % (pr.toNat + 1)) + pr - BitVec.ofNat 32 t).toNat =
      counted pr.toNat t d := by
  have hpr := pr.isLt
  have hmod : (t + d) % (pr.toNat + 1) =
      if pr.toNat < t + d then t + d - (pr.toNat + 1) else t + d := by
    split
    · rw [Nat.mod_eq_sub_mod (by omega), Nat.mod_eq_of_lt (by omega)]
    · exact Nat.mod_eq_of_lt (by omega)
  have ht' : (BitVec.ofNat 32 t).toNat = t :=
    (BitVec.toNat_ofNat ..).trans (Nat.mod_eq_of_lt (by omega))
  have ht₂ : (BitVec.ofNat 32 ((t + d) % (pr.toNat + 1))).toNat = (t + d) % (pr.toNat + 1) := by
    have hlt : (t + d) % (pr.toNat + 1) < pr.toNat + 1 := Nat.mod_lt _ (Nat.succ_pos _)
    exact (BitVec.toNat_ofNat ..).trans (Nat.mod_eq_of_lt (by omega))
  unfold counted
  split
  · rename_i hlt
    rw [BitVec.lt_def, ht', ht₂] at hlt
    rw [BitVec.toNat_sub, ht', ht₂]
    split_ifs at hmod ⊢ <;> omega
  · rename_i hge
    rw [BitVec.lt_def, ht', ht₂] at hge
    rw [BitVec.toNat_sub, BitVec.toNat_add, ht', ht₂]
    split_ifs at hmod ⊢ <;> omega

/-- The prescaler as the `ioctl` reads it. -/
theorem psc_toNat : ((con &&& conPscMask) >>> 8).toNat = (pscOf con).toNat := by
  have hfield : (con &&& conPscMask) >>> 8 = (pscOf con).setWidth 32 := by
    have hmask : ∀ b < 32, conPscMask.getLsbD (8 + b) = decide (b < 3) := by decide
    refine BitVec.eq_of_getLsbD_eq fun b hb => ?_
    rw [BitVec.getLsbD_ushiftRight, BitVec.getLsbD_and, hmask b hb, BitVec.getLsbD_setWidth, pscOf,
      BitVec.getLsbD_extractLsb', Bool.and_comm]
    simp [hb]
  have hlt := (pscOf con).isLt
  rw [hfield, BitVec.toNat_setWidth]
  exact Nat.mod_eq_of_lt (by omega)

/-- A started timer's period is less than 2³² ticks. -/
theorem period_lt (hfits : Fits overall.toNat i) :
    ((overall >>> i) - 1).toNat * 2 ^ i < 2 ^ 32 := by
  rcases Nat.eq_zero_or_pos overall.toNat with h0 | hpos
  · -- no ticks at all: the prescaler is zero
    obtain rfl : i = 0 := by
      by_contra hi
      have hleast := hfits.least 0 (Nat.pos_of_ne_zero hi)
      omega
    have hlt := ((overall >>> 0) - 1).isLt
    omega
  · have hlim := hfits.lt
    have hexact : Exact overall.toNat (openTimer.program overall i) := exact_program hfits hpos
    have hle := hexact.le_ticks
    rw [pscOf_program (by have := hfits.le; omega), toNat_ofNat_three hfits.le, program_tmrPr,
      Nat.add_mul] at hle
    omega

/-- A count as an `int`. -/
theorem toInt_eq_natCast_iff {x : CInt} {n : ℕ} : x.toInt = (n : ℤ) ↔ x.toNat = n ∧ n < 2 ^ 31 := by
  have hx := x.isLt
  rw [BitVec.toInt_eq_toNat_cond]
  split <;> omega

/-- The timer as it was started, whatever its counter and its pending bits
are by now. -/
structure Runs (dev dev' : HgtimerV2) : Prop where
  pr : dev'.tmrPr = dev.tmrPr
  psc : pscOf dev'.tmrCon = pscOf dev.tmrCon

/-- What is left of the ticks once they are divided is an `int`: at one megahertz
a start that succeeds has fewer than 2²³ of them. -/
theorem quotient_lt (hfits : Fits (ticksOf apbclk tmoUs).toNat i) (htmo : tmoUs ≠ 0)
    (hmhz : 0 < (mhz apbclk).toNat) {n : ℕ}
    (hn : n ≤ ((ticksOf apbclk tmoUs >>> i) - 1).toNat) :
    n * 2 ^ i / (mhz apbclk).toNat < 2 ^ 31 := by
  have hperiod : n * 2 ^ i < 2 ^ 32 :=
    lt_of_le_of_lt (Nat.mul_le_mul_right _ hn) (period_lt hfits)
  rcases Nat.lt_or_ge (mhz apbclk).toNat 2 with hone | htwo
  · have h1 : mhz apbclk = 1 := BitVec.eq_of_toNat_eq (y := 1) (by
      show (mhz apbclk).toNat = 1
      omega)
    have hticks : ticksOf apbclk tmoUs = tmoUs := by
      rw [ticksOf, h1]
      exact BitVec.mul_one _
    have hpos : 0 < (ticksOf apbclk tmoUs).toNat := by
      rw [hticks]
      exact Nat.pos_of_ne_zero fun h0 => htmo (BitVec.eq_of_toNat_eq h0)
    have hcount : ((ticksOf apbclk tmoUs >>> i) - 1).toNat + 1 =
        (ticksOf apbclk tmoUs).toNat / 2 ^ i :=
      tmrPr_succ (@program_tmrPr openTimer _ i) (hfits.pos hpos)
    have hle : n * 2 ^ i ≤ (ticksOf apbclk tmoUs).toNat :=
      (Nat.mul_le_mul_right _ (by omega)).trans (Nat.div_mul_le_self ..)
    have hlim := hfits.lt
    rw [h1]
    show n * 2 ^ i / 1 < 2 ^ 31
    rw [Nat.div_one]
    omega
  · exact (Nat.div_le_div_left htwo (by decide)).trans_lt (by omega)

/-- The counts taken for `d` make the same time as `d` does: always where the
counter has moved and not wrapped; for the same stamp twice where a whole
period is less than a microsecond; and where it has wrapped, if the count
that is missing does not take the time below a microsecond. -/
def RightTime (pr psc mhz t d : ℕ) : Prop :=
  0 < mhz ∧ (d = 0 ∧ pr * 2 ^ psc < mhz ∨ 0 < d ∧ t + d ≤ pr ∨
    pr < t + d ∧ 2 ^ psc ≤ d * 2 ^ psc % mhz)

instance (pr psc mhz t d : ℕ) : Decidable (RightTime pr psc mhz t d) :=
  inferInstanceAs (Decidable (_ ∧ _))

theorem counted_div_eq_iff {pr psc mhz t d : ℕ} (hmhz : 0 < mhz) (ht : t ≤ pr) :
    counted pr t d * 2 ^ psc / mhz = d * 2 ^ psc / mhz ↔ RightTime pr psc mhz t d := by
  rw [RightTime, and_iff_right hmhz, counted]
  split_ifs with hwrap hzero
  · -- one count too few
    have hd : 0 < d := by omega
    have hle : 2 ^ psc ≤ d * 2 ^ psc := Nat.le_mul_of_pos_left _ hd
    rw [Nat.sub_mul, Nat.one_mul, sub_div_eq_iff hmhz hle]
    omega
  · -- the same stamp twice
    subst hzero
    rw [Nat.zero_mul, Nat.zero_div, Nat.div_eq_zero_iff]
    omega
  · exact iff_of_true rfl (.inr (.inl (by omega)))

/-- **The time between two stamps.** Of a timer that was started, from any
stamp and `d` counts later, at most a period: the `ioctl` returns the time
of `d` counts exactly where the clock is of a megahertz or more and the
counts it takes for them make the same number of microseconds. -/
theorem elapsed_by_counted {dev' dev'' : HgtimerV2}
    (hstart : dev.hgtimerV2Start apbclk tmoUs cb cbData = (retOk, dev')) (hruns : Runs dev' dev'')
    {t d : ℕ} (ht : t ≤ dev'.tmrPr.toNat) (hd : d ≤ dev'.tmrPr.toNat) :
    (∃ r, dev''.hgtimerV2Ioctl apbclk .calcTimeDiffUs (BitVec.ofNat 32 t)
        (BitVec.ofNat 32 ((t + d) % (dev'.tmrPr.toNat + 1))) = some r ∧
        r.toInt = (d * 2 ^ (pscOf dev'.tmrCon).toNat / (mhz apbclk).toNat : ℕ)) ↔
      RightTime dev'.tmrPr.toNat (pscOf dev'.tmrCon).toNat (mhz apbclk).toNat t d := by
  obtain ⟨-, htmo, i, hfits, hdev⟩ := start_eq_retOk_iff.1 hstart
  have hpsc : (pscOf dev'.tmrCon).toNat = i := by
    rw [hdev, pscOf_program (by have := hfits.le; omega), toNat_ofNat_three hfits.le]
  have hpr : dev'.tmrPr = (ticksOf apbclk tmoUs >>> i) - 1 := by rw [hdev, program_tmrPr]
  by_cases hzero : mhz apbclk = 0
  · -- it does not return
    simp only [HgtimerV2.hgtimerV2Ioctl, RightTime, hzero]
    exact iff_of_false (fun ⟨_, h, _⟩ => by cases h) fun h => absurd h.1 (by decide)
  have hmhz : 0 < (mhz apbclk).toNat :=
    Nat.pos_of_ne_zero fun h0 => hzero (BitVec.eq_of_toNat_eq h0)
  have hbound : counted dev'.tmrPr.toNat t d * 2 ^ i < 2 ^ 32 := by
    refine lt_of_le_of_lt (Nat.mul_le_mul_right _ (counted_le hd)) ?_
    rw [hpr]
    exact period_lt hfits
  have hint : d * 2 ^ i / (mhz apbclk).toNat < 2 ^ 31 := quotient_lt hfits htmo hmhz (hpr ▸ hd)
  simp only [HgtimerV2.hgtimerV2Ioctl, if_neg hzero, Option.some.injEq, exists_eq_left']
  rw [hruns.pr, toInt_eq_natCast_iff, BitVec.toNat_udiv, BitVec.shiftLeft_eq',
    BitVec.toNat_shiftLeft, psc_toNat, hruns.psc, hpsc, diff_toNat ht hd, Nat.shiftLeft_eq,
    Nat.mod_eq_of_lt hbound, and_iff_left hint, counted_div_eq_iff hmhz ht]

/-- Ten counts of a timer of a thousand at one megahertz; and thirty counts of
four ticks each across the end of a period of two milliseconds at 96 MHz. -/
theorem elapsed_by_counted_ten :
    (∃ r, (openTimer.hgtimerV2Start 1000000 1000 none 0).2.hgtimerV2Ioctl 1000000 .calcTimeDiffUs 5
      15 = some r ∧ r.toInt = 10) ∧
    (openTimer.hgtimerV2Start 96000000 2000 none 0).2.tmrPr = 47999 ∧
    ∃ r, (openTimer.hgtimerV2Start 96000000 2000 none 0).2.hgtimerV2Ioctl 96000000
      .calcTimeDiffUs 47990 20 = some r ∧ r.toInt = 1 := by
  have hstart : openTimer.hgtimerV2Start 1000000 1000 none 0 =
    (retOk, (openTimer.hgtimerV2Start 1000000 1000 none 0).2) := by decide
  have hstart' : openTimer.hgtimerV2Start 96000000 2000 none 0 =
    (retOk, (openTimer.hgtimerV2Start 96000000 2000 none 0).2) := by decide
  refine ⟨?_, by decide, ?_⟩
  · exact (elapsed_by_counted (t := 5) (d := 10) hstart ⟨rfl, rfl⟩ (by decide) (by decide)).2
      (by decide)
  · exact (elapsed_by_counted (t := 47990) (d := 30) hstart' ⟨rfl, rfl⟩ (by decide)
      (by decide)).2 (by decide)

/-- **The same stamp twice** is a whole period and not nothing, and **one
count over the end** of the period is nothing and not one count. -/
theorem elapsed_wrong :
    openTimer.hgtimerV2Start 1000000 1000 none 0 =
      (retOk, (openTimer.hgtimerV2Start 1000000 1000 none 0).2) ∧
    (openTimer.hgtimerV2Start 1000000 1000 none 0).2.tmrPr = 999 ∧
    pscOf (openTimer.hgtimerV2Start 1000000 1000 none 0).2.tmrCon = 0 ∧ mhz 1000000 = 1 ∧
    (openTimer.hgtimerV2Start 1000000 1000 none 0).2.hgtimerV2Ioctl 1000000 .calcTimeDiffUs 5 5 =
      some 999 ∧
    (openTimer.hgtimerV2Start 1000000 1000 none 0).2.hgtimerV2Ioctl 1000000 .calcTimeDiffUs 999 0 =
      some 0 := by
  decide

end Timer

end Hgsdk

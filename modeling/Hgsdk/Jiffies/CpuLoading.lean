import Hgsdk.Jiffies.Model
/-!
# The load that is printed

A call of `cpu_loading_print` divides by the ticks since the last one. In
the branch for a counter that has wrapped the macro is one tick short; so it
divides by zero after a single tick across the wrap, as it does for a second
call in the same tick, and gives too high a load after more. Runtimes of
42949673 ticks or more overflow the product. Where nothing of this happens
the percentage is right, and along a run of calls each call is judged by
the time since the one before.
-/

namespace Hgsdk

namespace Jiffies

/-- The percentage of the time elapsed, over the integers. -/
def percentOf (runtime elapsed : ℕ) : ℕ := if elapsed = 0 then 0 else 100 * runtime / elapsed

/-- The counter has wrapped between the two times. -/
def Wraps (prev now : ℕ) : Prop := now % 2 ^ 32 < prev % 2 ^ 32

instance (prev now : ℕ) : Decidable (Wraps prev now) := inferInstanceAs (Decidable (_ < _))

/-! ### The divisor -/

/-- What the macro makes of two times. -/
def measured (prev now : ℕ) : ℕ := (now - prev) % 2 ^ 32 - if Wraps prev now then 1 else 0

theorem diffJiffies_toNat {prev now : ℕ} (h : prev ≤ now) :
    (diffJiffies (BitVec.ofNat 32 prev) (BitVec.ofNat 32 prev) (BitVec.ofNat 32 now)).toNat =
      measured prev now := by
  simp only [diffJiffies, measured, BitVec.le_def, BitVec.toNat_ofNat]
  have hmax : (0xFFFFFFFF : BitVec 32).toNat = 2 ^ 32 - 1 := rfl
  split
  next hle =>
    have hw : ¬Wraps prev now := Nat.not_lt.2 hle
    rw [BitVec.toNat_sub, BitVec.toNat_ofNat, BitVec.toNat_ofNat, if_neg hw]
    omega
  next hgt =>
    have hw : Wraps prev now := Nat.not_le.1 hgt
    rw [BitVec.toNat_sub, BitVec.toNat_add, BitVec.toNat_ofNat, BitVec.toNat_ofNat, hmax,
      if_pos hw]
    omega

/-! ### The quotient -/

/-- **A product that overflows** gives less than it should, whether the divisor
is right or one short. -/
theorem percent_lt_of_overflow {t e d : ℕ} (hd : d = e ∨ d + 1 = e) (hte : t ≤ e)
    (he : e < 2 ^ 32) (hover : 2 ^ 32 ≤ 100 * t) : 100 * t % 2 ^ 32 / d < 100 * t / e := by
  generalize ha : 100 * t % 2 ^ 32 / d = a
  have hmul : a * d ≤ 100 * t % 2 ^ 32 := by
    rw [← ha]
    exact Nat.div_mul_le_self _ _
  have hrest : 100 * t % 2 ^ 32 + 2 ^ 32 ≤ 100 * t := by omega
  -- the quotient is small, and at most 1 where the divisor is large
  have hsum : a + e ≤ 2 ^ 32 := by
    rcases Nat.lt_or_ge a 2 with hsmall | hbig
    · omega
    · have htwo : 2 * d ≤ a * d := Nat.mul_le_mul_right d hbig
      have hhundred : a ≤ 100 := by
        by_contra hgt
        have hmany : 101 * d ≤ a * d := Nat.mul_le_mul_right d (by omega)
        omega
      omega
  have hstep : (a + 1) * e ≤ a * d + a + e := by
    rcases hd with rfl | rfl
    · rw [Nat.add_mul]
      omega
    · rw [Nat.add_mul, Nat.mul_add]
      omega
  have hle : (a + 1) * e ≤ 100 * t := hstep.trans (by omega)
  exact (Nat.le_div_iff_mul_le (by omega)).2 hle

/-- When the percentage is right. The product fits; and the divisor is right,
or it is one short and not missed. An interval of 2³² ticks or more the
counter has lost, but a runtime below a hundredth of what it shows is
printed as 0%, as it should be. -/
def Fits (prev now runtime : ℕ) : Prop :=
  100 * runtime < 2 ^ 32 ∧
    if now - prev < 2 ^ 32 then
      if Wraps prev now then
        2 ≤ now - prev ∧
          100 * runtime % (now - prev) + 100 * runtime / (now - prev) < now - prev - 1
      else 0 < now - prev
    else 100 * runtime + (if Wraps prev now then 1 else 0) < (now - prev) % 2 ^ 32

instance (prev now runtime : ℕ) : Decidable (Fits prev now runtime) := by
  unfold Fits
  infer_instance

theorem measured_of_wraps {prev now : ℕ} (hshort : now - prev < 2 ^ 32) (hw : Wraps prev now) :
    measured prev now = now - prev - 1 := by
  rw [measured, if_pos hw, Nat.mod_eq_of_lt hshort]

theorem measured_of_not_wraps {prev now : ℕ} (hshort : now - prev < 2 ^ 32)
    (hw : ¬Wraps prev now) : measured prev now = now - prev := by
  rw [measured, if_neg hw, Nat.mod_eq_of_lt hshort, Nat.sub_zero]

/-- A product that overflows is never right, for a divisor that is the
interval or one less. -/
theorem quotient_eq_iff {t e d : ℕ} (hd : d = e ∨ d + 1 = e) (hte : t ≤ e) (he : e < 2 ^ 32) :
    100 * t % 2 ^ 32 / d = 100 * t / e ↔ 100 * t < 2 ^ 32 ∧ 100 * t / d = 100 * t / e := by
  rcases Nat.lt_or_ge (100 * t) (2 ^ 32) with hfit | hover
  · rw [Nat.mod_eq_of_lt hfit]
    exact ⟨fun h => ⟨hfit, h⟩, And.right⟩
  · have hlt := percent_lt_of_overflow hd hte he hover
    exact ⟨fun h => absurd h hlt.ne, fun h => absurd h.1 (Nat.not_lt.2 hover)⟩

theorem percentOf_eq (t e : ℕ) : percentOf t e = 100 * t / e := by
  rw [percentOf]
  split
  next h0 => rw [h0, Nat.div_zero]
  next => rfl

/-- The code's quotient is the percentage, and there is one. -/
def Right (prev now t : ℕ) : Prop :=
  0 < measured prev now ∧ 100 * t % 2 ^ 32 / measured prev now = percentOf t (now - prev)

/-- Below 2³² ticks the quotient is right exactly where the runtime fits. -/
theorem right_iff_fits {prev now t : ℕ} (hte : t ≤ now - prev) (hshort : now - prev < 2 ^ 32) :
    Right prev now t ↔ Fits prev now t := by
  rw [Right, percentOf_eq, Fits, if_pos hshort]
  split
  next hw =>
    rw [measured_of_wraps hshort hw]
    have hpos : 0 < now - prev - 1 ↔ 2 ≤ now - prev := by omega
    rw [hpos]
    constructor
    · rintro ⟨h2, heq⟩
      obtain ⟨hfit, hsame⟩ := (quotient_eq_iff (.inr (by omega)) hte hshort).1 heq
      exact ⟨hfit, h2, (div_pred_eq_iff h2).1 hsame⟩
    · rintro ⟨hfit, h2, hroom⟩
      have hsame := (div_pred_eq_iff h2).2 hroom
      exact ⟨h2, (quotient_eq_iff (.inr (by omega)) hte hshort).2 ⟨hfit, hsame⟩⟩
  next hw =>
    rw [measured_of_not_wraps hshort hw]
    constructor
    · rintro ⟨hpos, heq⟩
      exact ⟨((quotient_eq_iff (.inl rfl) hte hshort).1 heq).1, hpos⟩
    · rintro ⟨hfit, hpos⟩
      exact ⟨hpos, (quotient_eq_iff (.inl rfl) hte hshort).2 ⟨hfit, rfl⟩⟩

/-- From 2³² ticks on a runtime that fits is shown as 0%, which it is. -/
theorem right_of_fits_long {prev now t : ℕ} (hlong : ¬now - prev < 2 ^ 32)
    (hfits : Fits prev now t) : Right prev now t := by
  obtain ⟨hprod, hbelow⟩ := hfits
  rw [if_neg hlong] at hbelow
  have hlt : 100 * t < measured prev now := by
    rw [measured]
    omega
  refine ⟨by omega, ?_⟩
  rw [percentOf_eq, Nat.mod_eq_of_lt hprod, Nat.div_eq_of_lt hlt, Nat.div_eq_of_lt (by omega)]

theorem right_of_fits {prev now t : ℕ} (hte : t ≤ now - prev) (hfits : Fits prev now t) :
    Right prev now t := by
  by_cases hshort : now - prev < 2 ^ 32
  · exact (right_iff_fits hte hshort).2 hfits
  · exact right_of_fits_long hshort hfits

/-- A runtime within the interval is at most all of it. -/
theorem percentOf_le {t e : ℕ} (hte : t ≤ e) : percentOf t e ≤ 100 := by
  rw [percentOf]
  split
  next => exact Nat.zero_le _
  next => exact Nat.div_le_of_le_mul (by rw [Nat.mul_comm e]; exact Nat.mul_le_mul_left 100 hte)

/-! ### One call -/

/-- The line of a task, once the division goes through. -/
def lineOf (diffTick : BitVec 32) (t : TaskTime) : Line :=
  ⟨t.id, t.name.getD noName, t.time * 100 / diffTick, t.time, t.arg⟩

theorem lineOf_percent (diffTick : BitVec 32) (t : TaskTime) :
    (lineOf diffTick t).percent.toNat = 100 * t.time.toNat % 2 ^ 32 / diffTick.toNat := by
  change (t.time * 100 / diffTick).toNat = _
  rw [BitVec.toNat_udiv, BitVec.toNat_mul, Nat.mul_comm]
  rfl

/-- **What a call does**: with nothing to print it never divides, and
otherwise it returns where the divisor is not zero. -/
theorem cpuLoadingPrint_eq_some {tick jiff : BitVec 32} {all : Byte} {r : Runtimes}
    {out : Report × BitVec 32} :
    cpuLoadingPrint tick jiff all r = some out ↔
      (r.shown all ≠ [] → diffJiffies tick tick jiff ≠ 0) ∧
        out = (⟨diffJiffies tick tick jiff,
          (r.shown all).map (lineOf (diffJiffies tick tick jiff))⟩, jiff) := by
  rw [cpuLoadingPrint]
  generalize diffJiffies tick tick jiff = d
  generalize r.shown all = shown
  by_cases hd : d = 0
  · cases shown with
    | nil => exact ⟨fun h => ⟨fun hne => absurd rfl hne, (Option.some.inj h).symm⟩,
        fun h => congrArg some h.2.symm⟩
    | cons t ts => simp [List.mapM_cons, cpuLine, hd]
  · have hline : cpuLine d = fun t => pure (lineOf d t) := by
      funext t
      exact if_neg hd
    rw [hline, List.mapM_pure]
    exact ⟨fun h => ⟨fun _ => hd, (Option.some.inj h).symm⟩, fun h => congrArg some h.2.symm⟩

/-- The call is not made before the last one, and no task has run for longer
than the time between. -/
def Admissible (s : Meter) (c : Call) : Prop :=
  s.time ≤ c.now ∧ ∀ t ∈ c.shown, t.time.toNat ≤ c.now - s.time

instance (s : Meter) (c : Call) : Decidable (Admissible s c) :=
  inferInstanceAs (Decidable (_ ∧ _))

/-- The call returns, with a line for each task that is shown, and every
percentage is the one over the integers and at most 100. -/
def WellDefined (s : Meter) (c : Call) : Prop :=
  ∃ report tick, cpuLoadingPrint s.tick c.jiff c.all c.runtimes = some (report, tick) ∧
    report.lines.map Line.time = c.shown.map TaskTime.time ∧
    ∀ l ∈ report.lines,
      l.percent.toNat = percentOf l.time.toNat (c.now - s.time) ∧ l.percent.toNat ≤ 100

/-- Every runtime that is shown fits. -/
def AllFit (s : Meter) (c : Call) : Prop := ∀ t ∈ c.shown, Fits s.time c.now t.time.toNat

/-- The tick kept is that of the last call. -/
def Timed (s : Meter) : Prop := s.tick = BitVec.ofNat 32 s.time

/-- A call is well defined where each of its quotients is right. -/
theorem wellDefined_iff_right {s : Meter} {c : Call} (hs : Timed s) (hadm : Admissible s c) :
    WellDefined s c ↔ ∀ t ∈ c.shown, Right s.time c.now t.time.toNat := by
  obtain ⟨hle, htime⟩ := hadm
  have hdiff : (diffJiffies s.tick s.tick c.jiff).toNat = measured s.time c.now := by
    rw [hs]
    exact diffJiffies_toNat hle
  have hzero : diffJiffies s.tick s.tick c.jiff ≠ 0 ↔ 0 < measured s.time c.now := by
    rw [← hdiff, Nat.pos_iff_ne_zero, ne_eq, ne_eq, ← BitVec.toNat_inj]
    exact Iff.rfl
  constructor
  · rintro ⟨report, tick, hprint, -, hlines⟩ t ht
    obtain ⟨hret, hout⟩ := cpuLoadingPrint_eq_some.1 hprint
    obtain ⟨rfl, rfl⟩ := Prod.mk.inj hout
    have hpercent := (hlines _ (List.mem_map_of_mem ht)).1
    rw [lineOf_percent, hdiff] at hpercent
    exact ⟨hzero.1 (hret (List.ne_nil_of_mem ht)), hpercent⟩
  · intro hright
    refine ⟨_, _, cpuLoadingPrint_eq_some.2 ⟨fun hne => ?_, rfl⟩, ?_, fun l hl => ?_⟩
    · obtain ⟨t, ht⟩ := List.exists_mem_of_ne_nil _ hne
      exact hzero.2 (hright t ht).1
    · rw [List.map_map]
      rfl
    · obtain ⟨t, ht, rfl⟩ := List.mem_map.1 hl
      have hpercent : (lineOf (diffJiffies s.tick s.tick c.jiff) t).percent.toNat =
          percentOf t.time.toNat (c.now - s.time) := by
        rw [lineOf_percent, hdiff]
        exact (hright t ht).2
      exact ⟨hpercent, hpercent.le.trans (percentOf_le (htime t ht))⟩

theorem wellDefined_of_allFit {s : Meter} {c : Call} (hs : Timed s) (hadm : Admissible s c)
    (hfit : AllFit s c) : WellDefined s c :=
  (wellDefined_iff_right hs hadm).2 fun t ht => right_of_fits (hadm.2 t ht) (hfit t ht)

theorem allFit_of_wellDefined {s : Meter} {c : Call} (hs : Timed s) (hadm : Admissible s c)
    (hshort : c.now - s.time < 2 ^ 32) (h : WellDefined s c) : AllFit s c :=
  fun t ht => (right_iff_fits (hadm.2 t ht) hshort).1 ((wellDefined_iff_right hs hadm).1 h t ht)

/-! ### A sequence of calls -/

theorem cpuLoading_step {s t : Meter} {c : Call} (h : cpuLoading.step s c = some t) :
    t = ⟨c.jiff, c.now⟩ := by
  obtain ⟨out, hprint, rfl⟩ := Option.map_eq_some_iff.1 h
  rw [(cpuLoadingPrint_eq_some.1 hprint).2]

/-- **When the load report is well defined**: along any sequence of calls, a
call reports what it should if every runtime that is shown fits the interval
it is divided by, and within 2³² ticks of the last one only then. -/
theorem cpuLoadingPrint_wellDefined (calls : List Call) :
    cpuLoading.Along (fun s c => Admissible s c →
      (AllFit s c → WellDefined s c) ∧
        (c.now - s.time < 2 ^ 32 → WellDefined s c → AllFit s c)) boot calls := by
  refine Machine.along_of_inv (I := Timed) (fun s c hs hadm => ?_) (fun s c t _ hstep => ?_) rfl
  · exact ⟨wellDefined_of_allFit hs hadm, allFit_of_wellDefined hs hadm⟩
  · rw [cpuLoading_step hstep]
    rfl

/-- Six ticks of a thousand across the wrap come out right, six of twelve do
not. -/
example : Fits (2 ^ 32 - 5) (2 ^ 32 + 995) 6 ∧ ¬Fits (2 ^ 32 - 5) (2 ^ 32 + 7) 6 := by decide

/-- One task that has not run, in a call that shows every task. -/
def idleCall (now : ℕ) : Call := ⟨now, 1, ⟨1, fun _ => ⟨1, none, 0, 0⟩⟩⟩

/-- Two calls in tick 5: the second divides by zero. -/
theorem cpuLoadingPrint_twice_in_tick :
    cpuLoading.step boot (idleCall 5) = some ⟨5, 5⟩ ∧ Admissible ⟨5, 5⟩ (idleCall 5) ∧
      cpuLoadingPrint 5 (idleCall 5).jiff (idleCall 5).all (idleCall 5).runtimes = none ∧
      ¬cpuLoading.Along (fun s c => Admissible s c → WellDefined s c) boot
        [idleCall 5, idleCall 5] := by
  have hstep : cpuLoading.step boot (idleCall 5) = some ⟨5, 5⟩ := by decide
  have hadm : Admissible ⟨5, 5⟩ (idleCall 5) := by decide
  have hnone : cpuLoadingPrint 5 (idleCall 5).jiff (idleCall 5).all (idleCall 5).runtimes =
      none := by decide
  refine ⟨hstep, hadm, hnone, fun h => ?_⟩
  obtain ⟨report, tick, hprint, -⟩ := (((Machine.along_cons_of_step hstep).1 h).2).1 hadm
  rw [hnone] at hprint
  cases hprint

end Jiffies

end Hgsdk

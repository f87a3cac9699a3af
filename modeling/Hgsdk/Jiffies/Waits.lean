import Hgsdk.Jiffies.Model
/-!
# The times reported to lwIP

`sys_arch_sem_wait` and `sys_arch_mbox_fetch` give the macro its arguments
the other way round: the later tick first. Every wait of at least a tick
then counts down from 2³² and not up from zero, so that a longer wait is
reported as a shorter one; the wait that comes out right is the one of half
the range across the wrap.
-/

namespace Hgsdk

namespace Jiffies

variable {start : BitVec 32} {d d' : ℕ}

/-- `sys_now` after `d` ticks. -/
def after (start : BitVec 32) (d : ℕ) : BitVec 32 := start + BitVec.ofNat 32 d

/-- The difference before it is scaled, with both readings in one tick. -/
def waited (start : BitVec 32) (d : ℕ) : BitVec 32 :=
  diffJiffies (after start d) (after start d) start

/-- What `sys_arch_sem_wait` returns after `d` ticks. -/
def semWaited (down : CInt) (start : BitVec 32) (d : ℕ) : BitVec 32 :=
  sysArchSemWait down start (after start d) (after start d)

/-- What `sys_arch_mbox_fetch` returns after `d` ticks. -/
def mboxWaited (handle nullMesg start : BitVec 32) (d : ℕ) : BitVec 32 :=
  (sysArchMboxFetch handle nullMesg start (after start d) (after start d)).1

/-- The difference as a number. -/
def counted (start : BitVec 32) (d : ℕ) : ℕ :=
  if d = 0 then 0 else if start.toNat + d < 2 ^ 32 then 2 ^ 32 - 1 - d else 2 ^ 32 - d

theorem after_toNat : (after start d).toNat = (start.toNat + d) % 2 ^ 32 := by
  rw [after, BitVec.toNat_add, BitVec.toNat_ofNat, Nat.add_mod_mod]

theorem waited_toNat (hd : d < 2 ^ 32) : (waited start d).toNat = counted start d := by
  have hs : start.toNat < 2 ^ 32 := start.isLt
  have hmax : (0xFFFFFFFF : BitVec 32).toNat = 2 ^ 32 - 1 := rfl
  simp only [waited, diffJiffies, counted, BitVec.le_def, after_toNat]
  split
  next hle =>
    -- no tick has passed, or the counter has wrapped
    rw [BitVec.toNat_sub, after_toNat]
    split
    · omega
    · rw [if_neg (by omega)]
      omega
  next hgt =>
    rw [BitVec.toNat_sub, BitVec.toNat_add, after_toNat, hmax, if_neg (by omega),
      if_pos (by omega)]
    omega

/-- How often the counter wraps in `d` ticks, fewer than 2³². -/
def wraps (start : BitVec 32) (d : ℕ) : ℕ := if start.toNat + d < 2 ^ 32 then 0 else 1

/-- From one tick on, the number counts down. -/
theorem counted_of_pos (hpos : 0 < d) (hd : d < 2 ^ 32) :
    counted start d = 2 ^ 32 - 1 - d + wraps start d := by
  rw [counted, if_neg (by omega), wraps]
  split
  next => rfl
  next => omega

theorem wraps_mono (hle : d ≤ d') : wraps start d ≤ wraps start d' := by
  rw [wraps, wraps]
  split <;> split <;> omega

/-- By how much it has gone down. -/
def fallen (start : BitVec 32) (d d' : ℕ) : ℕ := d' - d - (wraps start d' - wraps start d)

theorem counted_fallen (hpos : 0 < d) (hle : d ≤ d') (hd' : d' < 2 ^ 32) :
    counted start d' = counted start d - fallen start d d' ∧
      fallen start d d' ≤ counted start d := by
  have hsame : d = d' → wraps start d = wraps start d' := congrArg _
  have hmono : wraps start d ≤ wraps start d' := wraps_mono hle
  have hone : wraps start d' ≤ 1 := by
    rw [wraps]
    split <;> omega
  rw [counted_of_pos hpos (by omega), counted_of_pos (by omega) hd', fallen]
  omega

theorem counted_eq_self (hd : d < 2 ^ 32 - 1) :
    counted start d = d ↔ d = 0 ∨ d = 2 ^ 31 ∧ 2 ^ 31 ≤ start.toNat := by
  rw [counted]
  split
  next h0 => exact ⟨fun _ => .inl h0, fun _ => h0.symm⟩
  next h0 => split <;> omega

/-! ### The two functions -/

theorem semWaited_toNat {down : CInt} (hdown : ¬down.slt 1) (hd : d < 2 ^ 32) :
    (semWaited down start d).toNat = counted start d / 1000 := by
  rw [semWaited, sysArchSemWait, if_neg hdown, ← waited_toNat hd]
  exact BitVec.toNat_udiv

theorem mboxWaited_toNat {handle nullMesg : BitVec 32} (hhandle : handle ≠ 0) (hd : d < 2 ^ 32) :
    (mboxWaited handle nullMesg start d).toNat = counted start d >>> 10 := by
  rw [mboxWaited, sysArchMboxFetch, if_pos hhandle, ← waited_toNat hd]
  exact BitVec.toNat_ushiftRight _ _

/-- The wait is reported as it was: the difference is `d`, and both functions
return it scaled. -/
def Reported (start : BitVec 32) (d : ℕ) : Prop :=
  (waited start d).toNat = d ∧
  (∀ down : CInt, ¬down.slt 1 → (semWaited down start d).toNat = d / 1000) ∧
  ∀ handle nullMesg : BitVec 32, handle ≠ 0 →
    (mboxWaited handle nullMesg start d).toNat = d >>> 10

/-- A wait of `d'` ticks is not reported as shorter than one of `d`. -/
def Grows (start : BitVec 32) (d d' : ℕ) : Prop :=
  (∀ down : CInt, ¬down.slt 1 → semWaited down start d ≤ semWaited down start d') ∧
  ∀ handle nullMesg : BitVec 32, handle ≠ 0 →
    mboxWaited handle nullMesg start d ≤ mboxWaited handle nullMesg start d'

theorem reported_iff (hd : d < 2 ^ 32) : Reported start d ↔ counted start d = d := by
  constructor
  · rintro ⟨hwaited, -⟩
    rwa [waited_toNat hd] at hwaited
  · intro h
    refine ⟨(waited_toNat hd).trans h, fun down hdown => ?_, fun handle nullMesg hhandle => ?_⟩
    · rw [semWaited_toNat hdown hd, h]
    · rw [mboxWaited_toNat hhandle hd, h]

theorem grows_iff (hd : d < 2 ^ 32) (hd' : d' < 2 ^ 32) :
    Grows start d d' ↔ counted start d / 1000 ≤ counted start d' / 1000 ∧
      counted start d >>> 10 ≤ counted start d' >>> 10 := by
  constructor
  · rintro ⟨hsem, hmbox⟩
    have hs := BitVec.le_def.1 (hsem 1 (by decide))
    have hm := BitVec.le_def.1 (hmbox 1 0 (by decide))
    rw [semWaited_toNat (by decide) hd, semWaited_toNat (by decide) hd'] at hs
    rw [mboxWaited_toNat (by decide) hd, mboxWaited_toNat (by decide) hd'] at hm
    exact ⟨hs, hm⟩
  · rintro ⟨hs, hm⟩
    refine ⟨fun down hdown => ?_, fun handle nullMesg hhandle => ?_⟩
    · rwa [BitVec.le_def, semWaited_toNat hdown hd, semWaited_toNat hdown hd']
    · rwa [BitVec.le_def, mboxWaited_toNat hhandle hd, mboxWaited_toNat hhandle hd']

/-- The quotients by `m` of what is counted for `d` and for `d'` are the same:
the number has not gone down by more than it is above a multiple of `m`. -/
def Level (start : BitVec 32) (d d' m : ℕ) : Prop :=
  fallen start d d' ≤ (2 ^ 32 - 1 - d + wraps start d) % m

instance {m : ℕ} : Decidable (Level start d d' m) := inferInstanceAs (Decidable (_ ≤ _))

theorem le_iff_level {m : ℕ} (hm : 0 < m) (hpos : 0 < d) (hle : d ≤ d') (hd' : d' < 2 ^ 32) :
    counted start d / m ≤ counted start d' / m ↔ Level start d d' m := by
  obtain ⟨heq, hfall⟩ : counted start d' = counted start d - fallen start d d' ∧
    fallen start d d' ≤ counted start d := counted_fallen hpos hle hd'
  rw [Level, ← counted_of_pos hpos (by omega), ← sub_div_eq_iff hm hfall, heq]
  exact ⟨fun h => (Nat.div_le_div_right (Nat.sub_le _ _)).antisymm h, fun h => h.ge⟩

/-- **When a wait is reported as it was**: for no tick at all, and for half the
range across the wrap. A longer wait is then reported as no shorter only if
the shorter is of no tick, or the number counted, which goes down, passes
neither a multiple of 1000 nor one of 1024 in between. -/
theorem sysArch_waits_reported (hle : d ≤ d') (hd' : d' < 2 ^ 32 - 1) :
    (Reported start d ↔ d = 0 ∨ d = 2 ^ 31 ∧ 2 ^ 31 ≤ start.toNat) ∧
      (Grows start d d' ↔ d = 0 ∨ Level start d d' 1000 ∧ Level start d d' 1024) := by
  have hd : d < 2 ^ 32 - 1 := hle.trans_lt hd'
  refine ⟨(reported_iff (by omega)).trans (counted_eq_self hd), ?_⟩
  rw [grows_iff (by omega) (by omega)]
  rcases Nat.eq_zero_or_pos d with rfl | hpos
  · have hzero : counted start 0 = 0 := if_pos rfl
    rw [hzero]
    exact ⟨fun _ => .inl rfl, fun _ => ⟨Nat.zero_le _, Nat.zero_le _⟩⟩
  · rw [Nat.shiftRight_eq_div_pow, Nat.shiftRight_eq_div_pow,
      le_iff_level (by decide) hpos hle (by omega), le_iff_level (by decide) hpos hle (by omega)]
    exact ⟨.inr, fun h => h.resolve_left hpos.ne'⟩

/-- Half the range, across the wrap; and two waits of a little more that are
reported alike. -/
theorem sysArch_waits_reported_half :
    Reported 0x80000000 (2 ^ 31) ∧ Grows 0x80000000 (2 ^ 31 + 5) (2 ^ 31 + 600) :=
  have hhalf := @sysArch_waits_reported 0x80000000 (2 ^ 31) (2 ^ 31) (Nat.le_refl _) (by decide)
  have hmore := @sysArch_waits_reported 0x80000000 (2 ^ 31 + 5) (2 ^ 31 + 600) (by decide)
    (by decide)
  ⟨hhalf.1.2 (.inr ⟨rfl, by decide⟩), hmore.2.2 (.inr (by decide))⟩

/-- A wait of one tick is reported as one of 4294967 seconds, and a wait of a
thousand ticks as a shorter one. -/
theorem sysArch_wait_of_one_tick :
    waited 0 1 = 0xFFFFFFFE ∧ semWaited 1 0 1 = 4294967 ∧ mboxWaited 1 0 0 1 = 4194303 ∧
      ¬Reported 0 1 ∧ ¬Grows 0 1 1000 := by
  have hone : waited 0 1 = 0xFFFFFFFE := by decide
  refine ⟨hone, by decide, by decide, fun h => ?_, fun h => ?_⟩
  · have hcount := h.1
    rw [hone] at hcount
    exact absurd hcount (by decide)
  · exact absurd (h.1 1 (by decide)) (by decide)

end Jiffies

end Hgsdk

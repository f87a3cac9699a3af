import Hgsdk.StrCase.Model
/-!
# Where the comparison is case folding

Strings that are equal up to case match everywhere. The converse fails for
characters 32 apart that are not letters, and for a terminator against a
space, past which `strcasecmp` goes on to read. `strncasecmp` calls strings
different that are equal and shorter than `n`.
-/

namespace Hgsdk

namespace StrCase

variable {signed : Bool} {s₁ s₂ : List Byte} {c₁ c₂ : Byte}

/-! ### Characters -/

theorem charVal_of_lt {c : Byte} (h : c.toNat < 128) : charVal signed c = c.toNat := by
  cases signed with
  | false => rfl
  | true =>
    show c.toInt = _
    rw [BitVec.toInt_eq_toNat_cond, if_pos (by omega)]

/-- A capital letter and what it is folded to. -/
theorem fold_of_upper (signed : Bool) (h : 0x41 ≤ c₁.toNat ∧ c₁.toNat ≤ 0x5A) :
    fold c₁ = c₁ + 32 ∧ charVal signed c₁ = c₁.toNat ∧
      charVal signed (c₁ + 32) = c₁.toNat + 32 := by
  have hsum : (c₁ + 32).toNat = c₁.toNat + 32 := by
    have h32 : (32 : Byte).toNat = 32 := rfl
    rw [BitVec.toNat_add, h32]
    omega
  refine ⟨if_pos h, charVal_of_lt (by omega), ?_⟩
  rw [charVal_of_lt (by omega), hsum]
  rfl

/-- **Characters equal up to case match.** -/
theorem near_of_fold_eq (h : fold c₁ = fold c₂) : Near signed c₁ c₂ := by
  by_cases h₁ : 0x41 ≤ c₁.toNat ∧ c₁.toNat ≤ 0x5A
  · obtain ⟨hfold₁, hval₁, hlow₁⟩ := fold_of_upper signed h₁
    by_cases h₂ : 0x41 ≤ c₂.toNat ∧ c₂.toNat ≤ 0x5A
    · rw [hfold₁, (fold_of_upper signed h₂).1] at h
      exact Or.inl (congrArg _ ((BitVec.add_left_inj 32).1 h))
    · have hfold₂ : fold c₂ = c₂ := if_neg h₂
      rw [hfold₁, hfold₂] at h
      rw [h] at hlow₁
      exact Or.inr (Or.inl (by omega))
  · have hfold₁ : fold c₁ = c₁ := if_neg h₁
    by_cases h₂ : 0x41 ≤ c₂.toNat ∧ c₂.toNat ≤ 0x5A
    · obtain ⟨hfold₂, hval₂, hlow₂⟩ := fold_of_upper signed h₂
      rw [hfold₁, hfold₂] at h
      rw [← h] at hlow₂
      exact Or.inr (Or.inr (by omega))
    · have hfold₂ : fold c₂ = c₂ := if_neg h₂
      rw [hfold₁, hfold₂] at h
      exact Or.inl (congrArg _ h)

/-! ### `strcasecmp` -/

/-- **The strings match** up to the terminator of the shorter one, and
there. -/
def AllNear (signed : Bool) (s₁ s₂ : List Byte) : Prop :=
  ∀ j ≤ min s₁.length s₂.length, Near signed (charAt s₁ j) (charAt s₂ j)

theorem allNear_cons : AllNear signed (c₁ :: s₁) (c₂ :: s₂) ↔
    Near signed c₁ c₂ ∧ AllNear signed s₁ s₂ := by
  constructor
  · intro h
    refine ⟨h 0 (Nat.zero_le _), fun j hj => h (j + 1) ?_⟩
    simp only [List.length_cons]
    omega
  · rintro ⟨hc, h⟩ j hj
    cases j with
    | zero => exact hc
    | succ j =>
      simp only [List.length_cons] at hj
      exact h j (by omega)

/-- Where one of them is at its end, only this place counts. -/
theorem allNear_of_nil (h : min s₁.length s₂.length = 0) :
    AllNear signed s₁ s₂ ↔ Near signed (charAt s₁ 0) (charAt s₂ 0) := by
  constructor
  · exact fun hall => hall 0 (Nat.zero_le _)
  · intro hnear j hj
    rw [h] at hj
    obtain rfl := Nat.le_zero.1 hj
    exact hnear

theorem allNear_nil_right : AllNear signed s₁ [] ↔ Near signed (charAt s₁ 0) 0 :=
  allNear_of_nil (Nat.min_zero _)

theorem allNear_nil_left : AllNear signed [] s₂ ↔ Near signed 0 (charAt s₂ 0) :=
  allNear_of_nil (Nat.zero_min _)

/-- A mismatch is found. -/
theorem strcasecmpFrom_of_not (h : ¬ AllNear signed s₁ s₂) :
    strcasecmpFrom signed s₁ s₂ = some (-1) := by
  fun_induction strcasecmpFrom signed s₁ s₂ with
  | case1 => exact absurd (allNear_nil_right.2 (Or.inl rfl)) h
  | case2 c₁ s₁ c₂ s₂ hnear ih => exact ih fun hall => h (allNear_cons.2 ⟨hnear, hall⟩)
  | case3 => rfl
  | case4 c₁ s₁ hnear => exact absurd (allNear_nil_right.2 hnear) h
  | case5 => rfl
  | case6 c₂ s₂ hnear => exact absurd (allNear_nil_left.2 hnear) h
  | case7 => rfl

/-- **Without a mismatch** the strings are the same length, or one of them
is read past its terminator. -/
theorem strcasecmpFrom_of_allNear (h : AllNear signed s₁ s₂) :
    strcasecmpFrom signed s₁ s₂ = if s₁.length = s₂.length then some 0 else none := by
  fun_induction strcasecmpFrom signed s₁ s₂ with
  | case1 => rfl
  | case2 c₁ s₁ c₂ s₂ hnear ih =>
    rw [ih (allNear_cons.1 h).2]
    simp only [List.length_cons, Nat.add_right_cancel_iff]
  | case3 c₁ s₁ c₂ s₂ hnear => exact absurd (allNear_cons.1 h).1 hnear
  | case4 => rfl
  | case5 c₁ s₁ hnear => exact absurd (allNear_nil_right.1 h) hnear
  | case6 => rfl
  | case7 c₂ s₂ hnear => exact absurd (allNear_nil_left.1 h) hnear

theorem FoldEq.length (h : FoldEq s₁ s₂) : s₁.length = s₂.length := by
  have hlen := congrArg List.length h
  rwa [List.length_map, List.length_map] at hlen

/-- **Strings equal up to case match.** -/
theorem FoldEq.allNear (h : FoldEq s₁ s₂) : AllNear signed s₁ s₂ := by
  induction s₁ generalizing s₂ with
  | nil =>
    obtain rfl : s₂ = [] := List.length_eq_zero_iff.1 h.length.symm
    exact allNear_nil_left.2 (Or.inl rfl)
  | cons c₁ s₁ ih =>
    cases s₂ with
    | nil => exact nomatch h.length
    | cons c₂ s₂ =>
      obtain ⟨hc, hs⟩ := List.cons.inj h
      exact allNear_cons.2 ⟨near_of_fold_eq hc, ih hs⟩

/-! ### `strncasecmp` -/

/-- **The index reaches `n`** where both strings are as long, and match up
to there. -/
theorem strncasecmpIndex_eq_iff {n : ℕ} : strncasecmpIndex signed n s₁ s₂ = n ↔
    n ≤ s₁.length ∧ n ≤ s₂.length ∧ ∀ j < n, Near signed (charAt s₁ j) (charAt s₂ j) := by
  induction n generalizing s₁ s₂ with
  | zero =>
    have hzero : strncasecmpIndex signed 0 s₁ s₂ = 0 := by rw [strncasecmpIndex]; nofun
    exact iff_of_true hzero ⟨Nat.zero_le _, Nat.zero_le _, nofun⟩
  | succ n ih =>
    cases s₁ with
    | nil => exact iff_of_false (Nat.succ_ne_zero n).symm fun h => Nat.not_succ_le_zero n h.1
    | cons c₁ s₁ =>
      cases s₂ with
      | nil => exact iff_of_false (Nat.succ_ne_zero n).symm fun h => Nat.not_succ_le_zero n h.2.1
      | cons c₂ s₂ =>
        rw [strncasecmpIndex]
        split
        · rename_i hnear
          rw [Nat.add_right_cancel_iff, ih]
          simp only [List.length_cons, Nat.add_le_add_iff_right]
          refine and_congr_right fun _ => and_congr_right fun _ => ?_
          constructor
          · intro h j hj
            cases j with
            | zero => exact hnear
            | succ j => exact h j (by omega)
          · exact fun h j hj => h (j + 1) (by omega)
        · rename_i hnear
          exact iff_of_false (Nat.succ_ne_zero n).symm fun h => hnear (h.2.2 0 (Nat.succ_pos n))

theorem charAt_take {n j : ℕ} (hj : j < n) : charAt (s₁.take n) j = charAt s₁ j := by
  rw [charAt, charAt, List.getD_eq_getElem?_getD, List.getD_eq_getElem?_getD,
    List.getElem?_take_of_lt hj]

/-! ### Where the two are case folding -/

theorem strcasecmpFrom_folds_iff :
    (∃ r, strcasecmpFrom signed s₁ s₂ = some r ∧ (r = 0 ↔ FoldEq s₁ s₂)) ↔
      FoldEq s₁ s₂ ∨ ¬ AllNear signed s₁ s₂ := by
  by_cases hall : AllNear signed s₁ s₂
  · rw [strcasecmpFrom_of_allNear hall, or_iff_left (not_not.2 hall)]
    constructor
    · rintro ⟨r, hr, hzero⟩
      split at hr
      · obtain rfl := Option.some.inj hr
        exact hzero.1 rfl
      · exact nomatch hr
    · intro hfold
      exact ⟨0, if_pos hfold.length, iff_of_true rfl hfold⟩
  · have hminus : (-1 : CInt) ≠ 0 := by decide
    rw [strcasecmpFrom_of_not hall]
    refine iff_of_true ⟨-1, rfl, ?_⟩ (Or.inr hall)
    exact iff_of_false hminus fun hfold => hall hfold.allNear

/-- The first `n` characters match. -/
def NearTo (signed : Bool) (n : ℕ) (s₁ s₂ : List Byte) : Prop :=
  ∀ j < n, Near signed (charAt s₁ j) (charAt s₂ j)

/-- They do where they are equal up to case. -/
theorem FoldEq.nearTo {n : ℕ} (h : FoldEq (s₁.take n) (s₂.take n))
    (hn : n ≤ min s₁.length s₂.length) : NearTo signed n s₁ s₂ := by
  intro j hj
  have hj' : j ≤ min (s₁.take n).length (s₂.take n).length := by
    rw [List.length_take, List.length_take]
    omega
  have hat : Near signed (charAt (s₁.take n) j) (charAt (s₂.take n) j) := h.allNear j hj'
  rwa [charAt_take hj, charAt_take hj] at hat

theorem strncasecmpIndex_folds_iff {n : ℕ} :
    (strncasecmpIndex signed n s₁ s₂ = n ↔ FoldEq (s₁.take n) (s₂.take n)) ↔
      (n ≤ min s₁.length s₂.length →
        FoldEq (s₁.take n) (s₂.take n) ∨ ¬ NearTo signed n s₁ s₂) ∧
      (min s₁.length s₂.length < n → ¬ FoldEq (s₁.take n) (s₂.take n)) := by
  rw [strncasecmpIndex_eq_iff, ← NearTo]
  rcases Nat.lt_or_ge (min s₁.length s₂.length) n with hlt | hge
  · -- one of the strings is shorter: different, says the index
    have hshort : ¬ (n ≤ s₁.length ∧ n ≤ s₂.length ∧ NearTo signed n s₁ s₂) := by
      rintro ⟨h₁, h₂, -⟩
      omega
    rw [iff_false_left hshort]
    constructor
    · exact fun hnot => ⟨fun hle => absurd hlt (Nat.not_lt.2 hle), fun _ => hnot⟩
    · exact fun h => h.2 hlt
  · have hlong : (n ≤ s₁.length ∧ n ≤ s₂.length ∧ NearTo signed n s₁ s₂) ↔
        NearTo signed n s₁ s₂ := by
      constructor
      · exact fun h => h.2.2
      · exact fun h => ⟨by omega, by omega, h⟩
    rw [hlong]
    constructor
    · intro hiff
      refine ⟨fun _ => ?_, fun hlt => absurd hlt (Nat.not_lt.2 hge)⟩
      by_cases hnear : NearTo signed n s₁ s₂
      · exact Or.inl (hiff.1 hnear)
      · exact Or.inr hnear
    · rintro ⟨hor, -⟩
      exact ⟨fun hnear => (hor hge).resolve_right (not_not.2 hnear), fun hfold => hfold.nearTo hge⟩

/-- **Where the two are case folding.** For all strings: `strcasecmp` stays
within both of them and returns 0 exactly for strings equal up to case, if
and only if they are, or differ in two characters, terminators included,
that are not 32 apart; and `strncasecmp` with `n` tells whether the first
`n` characters are equal up to case, if and only if they are or differ in
such a way, where both strings are as long, and they are not, where one is
shorter. -/
theorem casecmp_is_folding (signed : Bool) (s₁ s₂ : CStr) :
    ((∃ r, strcasecmp signed s₁ s₂ = some r ∧ (r = 0 ↔ FoldEq s₁.chars s₂.chars)) ↔
      FoldEq s₁.chars s₂.chars ∨ ∃ j ≤ min s₁.chars.length s₂.chars.length,
        ¬ Near signed (charAt s₁.chars j) (charAt s₂.chars j)) ∧
    ∀ n, ((strncasecmp signed s₁ s₂ n = 0 ↔ FoldEq (s₁.chars.take n) (s₂.chars.take n)) ↔
      (n ≤ min s₁.chars.length s₂.chars.length →
        FoldEq (s₁.chars.take n) (s₂.chars.take n) ∨
          ∃ j < n, ¬ Near signed (charAt s₁.chars j) (charAt s₂.chars j)) ∧
      (min s₁.chars.length s₂.chars.length < n →
        ¬ FoldEq (s₁.chars.take n) (s₂.chars.take n))) := by
  constructor
  · refine strcasecmpFrom_folds_iff.trans (or_congr_right ?_)
    simp only [AllNear, not_forall, exists_prop]
  · intro n
    have hret : strncasecmp signed s₁ s₂ n = 0 ↔
        strncasecmpIndex signed n s₁.chars s₂.chars = n := by
      have hone : (1 : CInt) ≠ 0 := by decide
      rw [strncasecmp]
      split
      · rename_i hne
        exact iff_of_false hone hne
      · rename_i heq
        exact iff_of_true rfl (not_not.1 heq)
    rw [hret, strncasecmpIndex_folds_iff]
    simp only [NearTo, not_forall, exists_prop]

/-- **Where they are not**: `@` and the grave accent are equal; the empty
string against a space is read past its terminator; `a` is not equal to
itself in two characters; and `!` is equal to `A` and `A` to `a`, but not
`!` to `a`. -/
theorem casecmp_not_folding :
    strcasecmp false ⟨[0x40], by decide⟩ ⟨[0x60], by decide⟩ = some 0 ∧
    strcasecmp false ⟨[], by decide⟩ ⟨[0x20], by decide⟩ = none ∧
    strncasecmp false ⟨[0x61], by decide⟩ ⟨[0x61], by decide⟩ 2 = 1 ∧
    strcasecmp false ⟨[0x21], by decide⟩ ⟨[0x41], by decide⟩ = some 0 ∧
    strcasecmp false ⟨[0x41], by decide⟩ ⟨[0x61], by decide⟩ = some 0 ∧
    strcasecmp false ⟨[0x21], by decide⟩ ⟨[0x61], by decide⟩ = some (-1) := by
  decide

end StrCase

end Hgsdk

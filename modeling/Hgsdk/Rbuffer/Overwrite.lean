import Hgsdk.Rbuffer.Fifo
/-!
# Overwriting insertion keeps the newest values

`RB_SET_OR` moves the read position of a full buffer on before it writes, so
that the oldest value makes room. With two slots or more this is a drop and
an append. With one slot there is nothing to drop: the buffer is full and
empty at once, the value written is the one that goes, and nothing is ever
stored. Appending first and dropping then says both.
-/

namespace Hgsdk

variable {α : Type} {rb : Rbuffer α} {n : ℕ} {xs : List α}

/-- The macros that move values. -/
inductive RbOp (α : Type)
  | setOr (val : α)
  | set (val : α)
  | get
  deriving Repr, DecidableEq

/-- **The macros, one after another.** -/
def ringOps (α : Type) : Machine (Rbuffer α) (RbOp α) where
  step rb
    | .setOr val => some (rbSetOr rb val)
    | .set val => some (rbSet rb val)
    | .get => some (rbGet rb).2

/-! ### What is stored -/

/-- **What a macro makes of the values stored**: with `n - 1` of them,
`RB_SET_OR` appends and then drops the oldest, and `RB_SET` does nothing. -/
def evolve (n : ℕ) (xs : List α) : RbOp α → List α
  | .setOr val => if xs.length = n - 1 then (xs ++ [val]).tail else xs ++ [val]
  | .set val => if xs.length = n - 1 then xs else xs ++ [val]
  | .get => xs.tail

/-- The same with the oldest value dropped before the new one is appended. -/
def evolveDropFirst (n : ℕ) (xs : List α) : RbOp α → List α
  | .setOr val => (if xs.length = n - 1 then xs.tail else xs) ++ [val]
  | .set val => if xs.length = n - 1 then xs else xs ++ [val]
  | .get => xs.tail

/-- The order of the two makes no difference where there is something to
drop. -/
theorem evolveDropFirst_eq (hn : 2 ≤ n) (op : RbOp α) :
    evolveDropFirst n xs op = evolve n xs op := by
  cases op with
  | setOr val =>
    rw [evolveDropFirst, evolve]
    split
    next hfull =>
      have hne : xs ≠ [] := by
        rintro rfl
        rw [List.length_nil] at hfull
        omega
      exact (List.tail_append_of_ne_nil hne).symm
    next => rfl
  | set val => rfl
  | get => rfl

/-! ### One macro -/

namespace Holds

/-- With one slot, a value that is written is not stored. -/
theorem rbSetOr_one (h : Holds 1 rb []) (v : α) : Holds 1 (rbSetOr rb v) [] := by
  have hfull : RbFull rb := h.rbFull_iff.2 rfl
  have hr := h.rpos_lt
  have hr0 := h.rpos_nonneg
  have hnpos : ∀ pos, 0 ≤ pos → rbNpos rb pos = 0 := by
    intro pos hpos
    have hq := h.qsize
    rw [rbNpos, if_pos (by omega)]
  rw [rbSetOr, if_pos hfull]
  refine ⟨h.qsize, by simpa using h.slots, ?_, ?_, ?_, h.length_lt, fun i hi => ?_⟩
  · exact (hnpos _ hr0).ge
  · exact (hnpos _ hr0).trans_lt (by decide)
  · change rbNpos rb rb.wpos = Circular.slot 1 (rbNpos rb rb.rpos) 0
    rw [hnpos _ hr0, hnpos _ h.wpos_nonneg]
    rfl
  · exact absurd hi (Nat.not_lt_zero i)

/-- **`RB_SET_OR` keeps the newest values.** -/
theorem rbSetOr_eq (h : Holds n rb xs) (v : α) :
    Holds n (rbSetOr rb v) (evolve n xs (.setOr v)) := by
  have hlt := h.length_lt
  rw [evolve]
  by_cases hlen : xs.length = n - 1
  · have hfull : RbFull rb := h.rbFull_iff.2 hlen
    rw [if_pos hlen]
    by_cases hnil : xs = []
    · subst hnil
      obtain rfl : n = 1 := by
        rw [List.length_nil] at hlen hlt
        omega
      exact h.rbSetOr_one v
    · -- the oldest value is dropped, which leaves room for one
      have hdropped := h.drop_head hnil
      have hpos := List.length_pos_iff.2 hnil
      have hroom : ¬ RbFull { rb with rpos := Circular.slot n rb.rpos 1 } := by
        rw [hdropped.rbFull_iff, List.length_tail]
        omega
      rw [List.tail_append_of_ne_nil hnil, rbSetOr, if_pos hfull,
        rbNpos_eq_slot h.qsize h.rpos_lt]
      exact hdropped.append hroom v
  · have hfull : ¬ RbFull rb := mt h.rbFull_iff.1 hlen
    rw [if_neg hlen, rbSetOr, if_neg hfull]
    exact h.append hfull v

/-- **Every macro** takes what is stored to what it makes of it. -/
theorem ringOps_step (h : Holds n rb xs) (op : RbOp α) :
    ∃ rb', (ringOps α).step rb op = some rb' ∧ Holds n rb' (evolve n xs op) := by
  cases op with
  | setOr v => exact ⟨_, rfl, h.rbSetOr_eq v⟩
  | set v =>
    refine ⟨_, rfl, ?_⟩
    have hset := h.rbSet_eq v
    rwa [if_congr h.rbFull_iff rfl rfl] at hset
  | get => exact ⟨_, rfl, h.rbGet_eq.2⟩

/-- By induction on the macros that are left. -/
theorem ringOps_run (ops : List (RbOp α)) : ∀ {rb : Rbuffer α} {xs : List α}, Holds n rb xs →
    ∃ rb', (ringOps α).run rb ops = some rb' ∧ Holds n rb' (ops.foldl (evolve n) xs) := by
  induction ops with
  | nil => exact fun h => ⟨_, rfl, h⟩
  | cons op ops ih =>
    intro rb xs h
    obtain ⟨rb₁, hstep, h₁⟩ := h.ringOps_step op
    obtain ⟨rb', hrun, h'⟩ := ih h₁
    exact ⟨rb', (Machine.run_cons_of_step hstep).trans hrun, h'⟩

end Holds

/-! ### Any sequence -/

/-- **After any macros** the buffer stores what `next` makes of them:
`RB_COUNT` counts it, `RB_GET` would fetch its oldest value, and both
positions are slots. -/
def StoresAfter (next : List α → RbOp α → List α) (n : ℕ) (rb : Rbuffer α) : Prop :=
  ∀ ops : List (RbOp α), ∃ rb', (ringOps α).run (rbInit rb n) ops = some rb' ∧
    Holds n rb' (ops.foldl next []) ∧
    rbCount rb' = (ops.foldl next []).length ∧
    (rbGet rb').1 = (ops.foldl next []).head? ∧
    (0 ≤ rb'.rpos ∧ rb'.rpos ≤ n - 1) ∧ (0 ≤ rb'.wpos ∧ rb'.wpos ≤ n - 1)

/-- **Overwriting insertion keeps the newest values**, in a buffer of any
size: it appends and then drops the oldest of `n` values. From two slots on
the oldest may as well be dropped first. -/
theorem rbSetOr_keeps_newest (hn : 1 ≤ n) (hslots : n ≤ rb.rbq.length) :
    StoresAfter (evolve n) n rb ∧ (2 ≤ n → StoresAfter (evolveDropFirst n) n rb) := by
  have hstores : StoresAfter (evolve n) n rb := by
    intro ops
    obtain ⟨rb', hrun, h⟩ := (holds_rbInit hn hslots).ringOps_run ops
    have hr := h.rpos_lt
    have hw := h.wpos_lt
    exact ⟨rb', hrun, h, h.rbCount_eq, h.rbGet_eq.1, ⟨h.rpos_nonneg, by omega⟩,
      h.wpos_nonneg, by omega⟩
  refine ⟨hstores, fun htwo => ?_⟩
  have hsame : evolveDropFirst n = (evolve n : List α → RbOp α → List α) := by
    funext xs op
    exact evolveDropFirst_eq htwo op
  rw [hsame]
  exact hstores

/-- Three values set in a buffer of three slots: the first is gone. -/
theorem rbSetOr_keeps_newest_three :
    ∃ rb, (ringOps ℕ).run (rbInit ⟨7, 9, 0, [0, 0, 0, 0]⟩ (3 : ℕ))
        [.setOr 1, .setOr 2, .setOr 3] = some rb ∧ Holds 3 rb [2, 3] ∧ rbCount rb = 2 := by
  obtain ⟨rb, hrun, hholds, hcount, -⟩ :=
    (@rbSetOr_keeps_newest ℕ ⟨7, 9, 0, [0, 0, 0, 0]⟩ 3 (by decide) (by decide)).1
      [.setOr 1, .setOr 2, .setOr 3]
  exact ⟨rb, hrun, hholds, hcount⟩

/-- One slot: a value that is set is not stored, though nothing was there to
be dropped. -/
theorem rbSetOr_one_slot :
    (ringOps ℕ).run (rbInit ⟨0, 0, 0, [0, 0]⟩ (1 : ℕ)) [.setOr 5] = some ⟨0, 0, 1, [5, 0]⟩ ∧
      rbCount (⟨0, 0, 1, [5, 0]⟩ : Rbuffer ℕ) = 0 ∧
      evolveDropFirst 1 [] (.setOr 5) = [5] ∧
      ¬ StoresAfter (evolveDropFirst 1) 1 (⟨0, 0, 0, [0, 0]⟩ : Rbuffer ℕ) := by
  have hrun : (ringOps ℕ).run (rbInit ⟨0, 0, 0, [0, 0]⟩ (1 : ℕ)) [.setOr 5] =
      some ⟨0, 0, 1, [5, 0]⟩ := by decide
  refine ⟨hrun, by decide, rfl, fun h => ?_⟩
  obtain ⟨rb', hrun', -, hcount, -⟩ := h [.setOr 5]
  obtain rfl := Option.some.inj (hrun.symm.trans hrun')
  exact absurd hcount (by decide)

end Hgsdk

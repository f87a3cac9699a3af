import Hgsdk.Rbuffer.Model
import Hgsdk.Common.Circular
/-!
# The ring buffer is a bounded FIFO

`Holds n rb xs` says that `rb`, of capacity `n`, stores the list `xs`,
oldest first: the slots from `rpos` on hold it, and `wpos` is the slot
after its last value. Every macro is specified once against it, and
callers read those specifications only.

The second half carries it through the consumer's memory accesses.
`SpscInv` adds what the consumer knows at each of them: a `wpos` it has
loaded is a write position of the past, and a value it has loaded is
still the oldest one stored, since nobody else moves `rpos`.
-/

namespace Hgsdk

open Circular

variable {α : Type} {rb : Rbuffer α} {n : ℕ} {xs : List α}

/-- **`rb` of capacity `n` stores `xs`**, oldest first. One slot stays
free, so `xs` is shorter than `n`. -/
structure Holds (n : ℕ) (rb : Rbuffer α) (xs : List α) : Prop where
  qsize : rb.qsize = n
  slots : n ≤ rb.rbq.length
  rpos_nonneg : 0 ≤ rb.rpos
  rpos_lt : rb.rpos < n
  wpos : rb.wpos = slot n rb.rpos xs.length
  length_lt : xs.length < n
  cells : ∀ i, i < xs.length → rb.rbq[(slot n rb.rpos i).toNat]? = xs[i]?

theorem rbNpos_eq_slot (hq : rb.qsize = n) {pos : ℤ} (h : pos < n) :
    rbNpos rb pos = slot n pos 1 := by
  unfold rbNpos slot
  split_ifs <;> omega

namespace Holds

theorem wpos_nonneg (h : Holds n rb xs) : 0 ≤ rb.wpos :=
  h.wpos ▸ slot_nonneg h.rpos_nonneg

theorem wpos_lt (h : Holds n rb xs) : rb.wpos < n := by
  have := h.length_lt
  exact h.wpos ▸ slot_lt h.rpos_lt (by omega)

/-- The read position is where the circle starts. -/
theorem slot_eq_rpos_iff (h : Holds n rb xs) {k : ℕ} (hk : k ≤ xs.length) :
    slot n rb.rpos k = rb.rpos ↔ k = 0 := by
  have hlt := h.length_lt
  have hr := h.rpos_lt
  constructor
  · intro he
    exact (slot_inj (n := n) (r := rb.rpos) (by omega) (by omega)).1 (by rw [he, slot_zero hr])
  · rintro rfl
    exact slot_zero hr

theorem rbEmpty_iff (h : Holds n rb xs) : RbEmpty rb ↔ xs = [] := by
  rw [RbEmpty, h.wpos, h.slot_eq_rpos_iff le_rfl, List.length_eq_zero_iff]

theorem rbFull_iff (h : Holds n rb xs) : RbFull rb ↔ xs.length = n - 1 := by
  have hlt := h.length_lt
  have hr := h.rpos_lt
  have hr0 := h.rpos_nonneg
  rw [RbFull, rbNpos_eq_slot h.qsize h.wpos_lt, h.wpos, slot_slot_one hr (by omega)]
  unfold slot
  split_ifs <;> omega

/-- **`RB_COUNT` counts**: it is the number of values stored. -/
theorem rbCount_eq (h : Holds n rb xs) : rbCount rb = xs.length := by
  have hlt := h.length_lt
  have hr := h.rpos_lt
  have hr0 := h.rpos_nonneg
  rw [rbCount, h.wpos, h.qsize]
  unfold slot
  split_ifs <;> omega

/-- The oldest value is in the slot at `rpos`. -/
theorem getElem_rpos (h : Holds n rb xs) (hne : xs ≠ []) :
    rb.rbq[rb.rpos.toNat]? = xs.head? := by
  have := h.cells 0 (List.length_pos_iff.2 hne)
  rwa [slot_zero h.rpos_lt, ← List.head?_eq_getElem?] at this

/-- Moving `rpos` on drops the oldest value. -/
theorem drop_head (h : Holds n rb xs) (hne : xs ≠ []) :
    Holds n { rb with rpos := slot n rb.rpos 1 } xs.tail := by
  have hlt := h.length_lt
  have hpos := List.length_pos_iff.2 hne
  have hr := h.rpos_lt
  have hlen : xs.tail.length = xs.length - 1 := List.length_tail
  refine ⟨h.qsize, h.slots, slot_nonneg h.rpos_nonneg, slot_lt hr (by omega), ?_, by omega, ?_⟩
  · change rb.wpos = _
    rw [slot_one_slot hr (by omega), hlen, h.wpos, Nat.sub_add_cancel hpos]
  · intro i hi
    change rb.rbq[_]? = _
    rw [slot_one_slot hr (by omega), h.cells (i + 1) (by omega), List.getElem?_tail]

/-- **`RB_GET` takes the oldest value**, and takes one if there is one. -/
theorem rbGet_eq (h : Holds n rb xs) :
    (rbGet rb).1 = xs.head? ∧ Holds n (rbGet rb).2 xs.tail := by
  by_cases he : RbEmpty rb
  · have hnil := h.rbEmpty_iff.1 he
    subst hnil
    rw [rbGet, if_pos he]
    exact ⟨rfl, h⟩
  · have hne : xs ≠ [] := fun hx => he (h.rbEmpty_iff.2 hx)
    rw [rbGet, if_neg he]
    refine ⟨h.getElem_rpos hne, ?_⟩
    simp only [rbNpos_eq_slot h.qsize h.rpos_lt]
    exact h.drop_head hne

/-- Writing the free slot and moving `wpos` on appends the value. -/
theorem append (h : Holds n rb xs) (hfull : ¬ RbFull rb) (v : α) :
    Holds n { rb with rbq := rb.rbq.set rb.wpos.toNat v, wpos := rbNpos rb rb.wpos }
      (xs ++ [v]) := by
  have hlt := h.length_lt
  have hroom : xs.length ≠ n - 1 := fun he => hfull (h.rbFull_iff.2 he)
  have hr := h.rpos_lt
  have hw := h.wpos_lt
  have hw0 := h.wpos_nonneg
  have hs := h.slots
  refine ⟨h.qsize, by simpa using hs, h.rpos_nonneg, hr, ?_, by simp; omega, ?_⟩
  · change rbNpos rb rb.wpos = _
    rw [rbNpos_eq_slot h.qsize hw, h.wpos, slot_slot_one hr (by omega), List.length_append,
      List.length_singleton]
  · intro i hi
    simp only [List.length_append, List.length_singleton] at hi
    change (rb.rbq.set rb.wpos.toNat v)[(slot n rb.rpos i).toNat]? = _
    rcases Nat.lt_succ_iff_lt_or_eq.1 hi with hi | rfl
    · -- an older value: its slot is not the one written
      have hne : slot n rb.rpos i ≠ rb.wpos := by
        rw [h.wpos, Ne, slot_inj (by omega) (by omega)]
        omega
      have h0 : 0 ≤ slot n rb.rpos i := slot_nonneg h.rpos_nonneg
      rw [List.getElem?_set_ne (by omega), h.cells i hi, List.getElem?_append_left hi]
    · rw [← h.wpos, List.getElem?_set_self (by omega)]
      simp

/-- **`RB_SET` appends**, unless `n - 1` values are stored already. -/
theorem rbSet_eq (h : Holds n rb xs) (v : α) :
    Holds n (rbSet rb v) (if RbFull rb then xs else xs ++ [v]) := by
  unfold rbSet
  split_ifs with hfull
  · exact h
  · exact h.append hfull v

end Holds

/-- `RB_INIT` leaves an empty buffer. -/
theorem holds_rbInit (hn : 1 ≤ n) (hslots : n ≤ rb.rbq.length) : Holds n (rbInit rb n) [] where
  qsize := rfl
  slots := hslots
  rpos_nonneg := le_rfl
  rpos_lt := by simp only [rbInit]; omega
  wpos := by simp only [rbInit]; rw [List.length_nil, slot_zero (by omega)]
  length_lt := by simp only [List.length_nil]; omega
  cells := by simp

/-! ## Between the consumer's memory accesses -/

/-- What the consumer's loads so far say of the buffer: a loaded `wpos`
is a write position of the past, a loaded `rpos` is the present one, and
a loaded value is the oldest stored. -/
def ConsumerPc.Sound (n : ℕ) (rb : Rbuffer α) (xs : List α) : ConsumerPc α → Prop
  | .idle => True
  | .emptyRpos w => ∃ k ≤ xs.length, w = slot n rb.rpos k
  | .getRpos w => ∃ k ≤ xs.length, w = slot n rb.rpos k
  | .getIndex => xs ≠ []
  | .getSlot r => r = rb.rpos ∧ xs ≠ []
  | .getPos v => xs.head? = some v
  | .getSize v r => r = rb.rpos ∧ xs.head? = some v
  | .getNext v => rb.rpos + 1 < n ∧ xs.head? = some v
  | .getStore v p => p = slot n rb.rpos 1 ∧ xs.head? = some v

/-- The producer disturbs none of it: it leaves `rpos` where it is and
appends behind what is stored. -/
theorem ConsumerPc.Sound.append {pc : ConsumerPc α} (h : pc.Sound n rb xs) {rb' : Rbuffer α}
    (hr : rb'.rpos = rb.rpos) (v : α) : pc.Sound n rb' (xs ++ [v]) := by
  have hhead : ∀ u, xs.head? = some u → (xs ++ [v]).head? = some u := by
    intro u hu
    simp [hu]
  cases pc with
  | idle => trivial
  | emptyRpos w | getRpos w =>
    obtain ⟨k, hk, hw⟩ := h
    exact ⟨k, by simp; omega, by rw [hr]; exact hw⟩
  | getIndex => exact fun he => by simp at he
  | getSlot r => exact ⟨h.1.trans hr.symm, by simp⟩
  | getPos u => exact hhead u h
  | getSize u r => exact ⟨h.1.trans hr.symm, hhead u h.2⟩
  | getNext u => exact ⟨hr ▸ h.1, hhead u h.2⟩
  | getStore u p => exact ⟨by rw [hr]; exact h.1, hhead u h.2⟩

/-- **The invariant of producer and consumer**: the values accepted are
those fetched and then those stored. -/
def SpscInv (n : ℕ) (s : Spsc α) : Prop :=
  ∃ xs, Holds n s.rb xs ∧ s.accepted = s.fetched ++ xs ∧ s.pc.Sound n s.rb xs

theorem spscInv_init (hn : 1 ≤ n) (hslots : n ≤ rb.rbq.length) :
    SpscInv n (Spsc.init rb n) :=
  ⟨[], holds_rbInit hn hslots, rfl, trivial⟩

theorem SpscInv.produce {s : Spsc α} (h : SpscInv n s) (v : α) : SpscInv n (s.produce v) := by
  obtain ⟨xs, hh, hacc, hpc⟩ := h
  by_cases hfull : RbFull s.rb
  · refine ⟨xs, ?_, ?_, ?_⟩ <;> simpa [Spsc.produce, rbSet, hfull]
  · refine ⟨xs ++ [v], ?_, ?_, ?_⟩
    · simpa [Spsc.produce, hfull] using hh.rbSet_eq v
    · simp [Spsc.produce, hfull, hacc]
    · exact hpc.append (by simp [Spsc.produce, rbSet, hfull]) v

theorem SpscInv.tick {s t : Spsc α} (h : SpscInv n s) (ht : s.tick = some t) :
    SpscInv n t := by
  obtain ⟨xs, hh, hacc, hpc⟩ := h
  unfold Spsc.tick at ht
  split at ht
  case h_1 => cases ht
  all_goals
    rename_i hs
    rw [hs] at hpc
  case h_2 w =>
    cases ht
    exact ⟨xs, hh, hacc, trivial⟩
  case h_3 w =>
    cases ht
    refine ⟨xs, hh, hacc, ?_⟩
    obtain ⟨k, hk, hw⟩ := hpc
    by_cases he : w = s.rb.rpos
    · simp [he, ConsumerPc.Sound]
    · simp only [he, if_false, ConsumerPc.Sound]
      -- a write position of the past that differs from `rpos` had values behind it
      rintro rfl
      have hk0 : k = 0 := by simpa using hk
      subst hk0
      exact he (hw.trans (slot_zero hh.rpos_lt))
  case h_4 =>
    cases ht
    exact ⟨xs, hh, hacc, rfl, hpc⟩
  case h_5 r =>
    obtain ⟨hr, hne⟩ := hpc
    subst hr
    obtain ⟨v, hv, rfl⟩ := Option.map_eq_some_iff.1 ht
    exact ⟨xs, hh, hacc, (hh.getElem_rpos hne).symm.trans hv⟩
  case h_6 v =>
    cases ht
    exact ⟨xs, hh, hacc, rfl, hpc⟩
  case h_7 v r =>
    cases ht
    obtain ⟨rfl, hv⟩ := hpc
    refine ⟨xs, hh, hacc, ?_⟩
    have hq := hh.qsize
    have hr := hh.rpos_lt
    by_cases hwrap : s.rb.rpos + 1 ≥ s.rb.qsize
    · simp only [hwrap, if_true, ConsumerPc.Sound]
      refine ⟨?_, hv⟩
      rw [← rbNpos_eq_slot hq hr, rbNpos, if_pos hwrap]
    · simp only [hwrap, if_false, ConsumerPc.Sound]
      exact ⟨by omega, hv⟩
  case h_8 v =>
    cases ht
    refine ⟨xs, hh, hacc, ?_, hpc.2⟩
    have := hpc.1
    unfold slot
    rw [if_pos (by omega)]
    rfl
  case h_9 v p =>
    cases ht
    obtain ⟨rfl, hv⟩ := hpc
    have hne : xs ≠ [] := by rintro rfl; simp at hv
    refine ⟨xs.tail, hh.drop_head hne, ?_, trivial⟩
    rw [hacc, List.append_assoc, List.singleton_append]
    congr 1
    exact (List.cons_head?_tail hv).symm

/-- **Every step keeps the invariant**, whoever makes it. -/
theorem SpscInv.step {s t : Spsc α} {a : SpscStep α} (h : SpscInv n s)
    (ht : (spsc α).step s a = some t) : SpscInv n t := by
  cases a with
  | set v => cases ht; exact h.produce v
  | tick => exact h.tick ht
  | empty | get =>
    obtain ⟨xs, hh, hacc, -⟩ := h
    simp only [spsc] at ht
    split_ifs at ht
    cases ht
    exact ⟨xs, hh, hacc, xs.length, le_rfl, hh.wpos⟩

/-- A consumer inside a macro can make its next access: the slot it
indexes is one of the buffer's. -/
theorem SpscInv.exists_tick {s : Spsc α} (h : SpscInv n s) (hpc : s.pc ≠ .idle) :
    ∃ t, s.tick = some t := by
  obtain ⟨xs, hh, -, hsound⟩ := h
  unfold Spsc.tick
  split
  case h_1 hs => exact absurd hs hpc
  case h_5 r hs =>
    rw [hs] at hsound
    obtain ⟨rfl, hne⟩ := hsound
    rw [hh.getElem_rpos hne]
    cases xs with
    | nil => exact absurd rfl hne
    | cons x xs => exact ⟨_, rfl⟩
  all_goals exact ⟨_, rfl⟩

/-! ## Every interleaving -/

/-- **One producer and one consumer share a bounded FIFO.** In every
state of every interleaving, the positions are slots of the buffer, what
was accepted is what was fetched followed by what is stored, in order,
`RB_COUNT` is the number stored and at most `n - 1`, a value is refused
exactly when `n - 1` are stored, and a consumer inside a macro can always
go on. -/
theorem spsc_bounded_fifo (hn : 1 ≤ n) (hslots : n ≤ rb.rbq.length) {as : List (SpscStep α)}
    {s : Spsc α} (hrun : (spsc α).run (Spsc.init rb n) as = some s) :
    s.rb.qsize = n ∧
    (0 ≤ s.rb.rpos ∧ s.rb.rpos < s.rb.qsize) ∧ (0 ≤ s.rb.wpos ∧ s.rb.wpos < s.rb.qsize) ∧
    (∃ xs, Holds n s.rb xs ∧ s.accepted = s.fetched ++ xs) ∧
    (0 ≤ rbCount s.rb ∧ rbCount s.rb ≤ n - 1) ∧
    rbCount s.rb = s.accepted.length - s.fetched.length ∧
    (RbFull s.rb ↔ (s.accepted.length : ℤ) - s.fetched.length = n - 1) ∧
    (s.pc ≠ .idle → ∃ t, s.tick = some t) := by
  have hinv : SpscInv n s :=
    Machine.inv_of_run_of_step (fun _ _ _ h ht => h.step ht) (spscInv_init hn hslots) hrun
  obtain ⟨xs, hh, hacc, -⟩ := id hinv
  have hlt := hh.length_lt
  have hlen : s.accepted.length = s.fetched.length + xs.length := by
    rw [hacc, List.length_append]
  refine ⟨hh.qsize, ⟨hh.rpos_nonneg, hh.qsize ▸ hh.rpos_lt⟩, ⟨hh.wpos_nonneg, hh.qsize ▸ hh.wpos_lt⟩,
    ⟨xs, hh, hacc⟩, ?_, ?_, ?_, hinv.exists_tick⟩
  · rw [hh.rbCount_eq]; omega
  · rw [hh.rbCount_eq]; omega
  · rw [hh.rbFull_iff]; omega

/-- Two values set around a fetch, in a buffer of three slots: the second
arrives between the consumer's load of `wpos` and its load of `rpos`. -/
theorem spsc_bounded_fifo_three :
    ∃ s, (spsc Bool).run (Spsc.init ⟨7, 9, 0, [false, false, false, false]⟩ (3 : ℕ))
        [.set true, .get, .set false, .tick, .tick, .tick, .tick, .tick, .tick, .tick] = some s ∧
      s.fetched = [true] ∧ rbCount s.rb = s.accepted.length - s.fetched.length := by
  have hrun : (spsc Bool).run (Spsc.init ⟨7, 9, 0, [false, false, false, false]⟩ (3 : ℕ))
      [.set true, .get, .set false, .tick, .tick, .tick, .tick, .tick, .tick, .tick] =
      some ⟨⟨1, 2, 3, [true, false, false, false]⟩, .idle, none, [true, false], [true]⟩ := by
    decide
  exact ⟨_, hrun, rfl, (spsc_bounded_fifo (by decide) (by decide) hrun).2.2.2.2.2.1⟩

end Hgsdk

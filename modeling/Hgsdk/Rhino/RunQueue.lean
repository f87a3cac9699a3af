import Mathlib.Data.List.Nodup
import Mathlib.Logic.Function.Basic
import Mathlib.Order.Basic
import Mathlib.Tactic.Common
/-!
# The ready queue

`k_sched.c` keeps a circular list of the ready tasks of each priority, a
bitmap of the priorities that have any, and the least of them. A list is
given from `cur_list_item[prio]` on, where the next task of that priority
is taken from; the empty list is the null pointer.

`Holds` says that the queue has exactly the tasks placed in it, each once
and under its priority, and that the bitmap and `highest_pri` agree with
the lists. Adding, removing and rotating keep it. What they rest on is
`krhino_find_first_bit`, which is shown to find the first bit that is set.
-/

namespace Hgsdk.Rhino

/-- `RHINO_CONFIG_PRI_MAX`. -/
abbrev priMax : ℕ := 62

/-- `RHINO_IDLE_PRI`. -/
abbrev idlePri : ℕ := 61

/-! ### The bitmap -/

/-- `BITMAP_MASK`. -/
def bitmapMask (nr : ℕ) : BitVec 32 := 1#32 <<< (31 - nr % 32)

/-- `BITMAP_WORD`. -/
def bitmapWord (nr : ℕ) : ℕ := nr / 32

def krhinoBitmapSet (bitmap : List (BitVec 32)) (nr : ℕ) : List (BitVec 32) :=
  bitmap.modify (bitmapWord nr) (· ||| bitmapMask nr)

def krhinoBitmapClear (bitmap : List (BitVec 32)) (nr : ℕ) : List (BitVec 32) :=
  bitmap.modify (bitmapWord nr) (· &&& ~~~ bitmapMask nr)

/-- One halving of the search in a word: past `k` bits that are all clear. -/
def pastClear (mask : BitVec 32) (k : ℕ) (pos : BitVec 32 × ℕ) : BitVec 32 × ℕ :=
  if pos.1 &&& mask = 0 then (pos.1 <<< k, pos.2 + k) else pos

/-- The search in the first word that is not clear. -/
def firstBitOf (tmp : BitVec 32) (nr : ℕ) : ℕ :=
  let pos := pastClear 0xFFFF0000#32 16 (tmp, nr)
  let pos := pastClear 0xFF000000#32 8 pos
  let pos := pastClear 0xF0000000#32 4 pos
  let pos := pastClear 0xC0000000#32 2 pos
  (pastClear 0x80000000#32 1 pos).2

/-- `krhino_find_first_bit`, from the words still to come and the bits
passed. The search does not know where the bitmap ends: past it nothing is
read. -/
def krhinoFindFirstBit : List (BitVec 32) → ℕ → Option ℕ
  | [], _ => none
  | w :: ws, nr => if w = 0 then krhinoFindFirstBit ws (nr + 32) else some (firstBitOf w nr)

/-- Bit `nr`, counted from the top of the first word. -/
def bit (bitmap : List (BitVec 32)) (nr : ℕ) : Bool := (bitmap.getD (nr / 32) 0).getMsbD (nr % 32)

theorem getMsbD_bitmapMask {nr k : ℕ} (hk : k < 32) :
    (bitmapMask nr).getMsbD k = decide (k = nr % 32) := by
  have hnr : nr % 32 < 32 := Nat.mod_lt _ (by decide)
  have hlt : 31 - k < 32 := by omega
  rw [Bool.eq_iff_iff]
  simp only [bitmapMask, BitVec.getMsbD, BitVec.getLsbD_shiftLeft, BitVec.getLsbD_one, hk, hlt,
    Nat.add_one_sub_one, Bool.and_eq_true, Bool.not_eq_true', decide_eq_true_iff,
    decide_eq_false_iff_not, true_and]
  omega

/-- A bitmap one word of which is changed. -/
theorem bit_modify {bitmap : List (BitVec 32)} {nr : ℕ} (h : nr / 32 < bitmap.length)
    (f : BitVec 32 → BitVec 32) (m : ℕ) :
    bit (bitmap.modify (nr / 32) f) m =
      if nr / 32 = m / 32 then (f (bitmap.getD (m / 32) 0)).getMsbD (m % 32)
      else bit bitmap m := by
  unfold bit
  simp only [List.getD_eq_getElem?_getD, List.getElem?_modify]
  split
  · rename_i hw
    rw [hw] at h
    rw [List.getElem?_eq_getElem h]
    rfl
  · rw [id_map']

theorem bit_krhinoBitmapSet {bitmap : List (BitVec 32)} {nr : ℕ}
    (h : nr / 32 < bitmap.length) (m : ℕ) :
    bit (krhinoBitmapSet bitmap nr) m = (decide (m = nr) || bit bitmap m) := by
  have hm : m % 32 < 32 := Nat.mod_lt _ (by decide)
  rw [krhinoBitmapSet, bitmapWord, bit_modify h]
  split
  · rename_i hw
    rw [BitVec.getMsbD_or, getMsbD_bitmapMask hm, Bool.or_comm,
      decide_eq_decide.2 (show m % 32 = nr % 32 ↔ m = nr by omega)]
    rfl
  · rename_i hw
    have hne : m ≠ nr := fun h => hw (by rw [h])
    rw [decide_eq_false hne, Bool.false_or]

theorem bit_krhinoBitmapClear {bitmap : List (BitVec 32)} {nr : ℕ}
    (h : nr / 32 < bitmap.length) (m : ℕ) :
    bit (krhinoBitmapClear bitmap nr) m = (decide (m ≠ nr) && bit bitmap m) := by
  have hm : m % 32 < 32 := Nat.mod_lt _ (by decide)
  rw [krhinoBitmapClear, bitmapWord, bit_modify h]
  split
  · rename_i hw
    rw [BitVec.getMsbD_and, BitVec.getMsbD_not, getMsbD_bitmapMask hm, decide_eq_true hm,
      Bool.true_and, Bool.and_comm, ← decide_not,
      decide_eq_decide.2 (show ¬ m % 32 = nr % 32 ↔ m ≠ nr by omega)]
    rfl
  · rename_i hw
    have hne : m ≠ nr := fun h => hw (by rw [h])
    rw [decide_eq_true hne, Bool.true_and]

@[simp] theorem length_krhinoBitmapSet (bitmap : List (BitVec 32)) (nr : ℕ) :
    (krhinoBitmapSet bitmap nr).length = bitmap.length :=
  List.length_modify ..

@[simp] theorem length_krhinoBitmapClear (bitmap : List (BitVec 32)) (nr : ℕ) :
    (krhinoBitmapClear bitmap nr).length = bitmap.length :=
  List.length_modify ..

/-! ### The first bit that is set -/

theorem getMsbD_zero (j : ℕ) : (0 : BitVec 32).getMsbD j = false := by
  rw [BitVec.getMsbD]
  exact (Bool.and_eq_false_imp.2 fun _ => BitVec.getLsbD_zero)

/-- Where the search in `w` has come to: the bits passed are clear, what is
left is `w` without them, and it has a bit set among the first `k`. -/
structure Searching (w : BitVec 32) (nr k : ℕ) (pos : BitVec 32 × ℕ) : Prop where
  shifted : ∀ j, pos.1.getMsbD j = w.getMsbD (j + (pos.2 - nr))
  le : nr ≤ pos.2
  passed : ∀ j < pos.2 - nr, w.getMsbD j = false
  ahead : ∃ j < k, pos.1.getMsbD j = true

/-- One halving keeps on the search. -/
theorem Searching.pastClear {w mask : BitVec 32} {nr k : ℕ} {pos : BitVec 32 × ℕ}
    (h : Searching w nr (2 * k) pos) (hmask : ∀ j, mask.getMsbD j = decide (j < k))
    (hk : k ≤ 32) : Searching w nr k (pastClear mask k pos) := by
  have hzero : pos.1 &&& mask = 0 ↔ ∀ j < k, pos.1.getMsbD j = false := by
    constructor
    · intro hz j hj
      have hbit := congrArg (fun x => BitVec.getMsbD x j) hz
      rwa [BitVec.getMsbD_and, hmask, decide_eq_true hj, Bool.and_true,
        getMsbD_zero] at hbit
    · intro hall
      refine BitVec.eq_of_getMsbD_eq fun j _ => ?_
      rw [BitVec.getMsbD_and, hmask, getMsbD_zero]
      by_cases hj : j < k
      · rw [hall j hj, Bool.false_and]
      · rw [decide_eq_false hj, Bool.and_false]
  have hle := h.le
  unfold Rhino.pastClear
  split
  · rename_i hz
    have hclear := hzero.1 hz
    refine ⟨fun j => ?_, Nat.le_trans h.le (Nat.le_add_right _ _), fun j hj => ?_, ?_⟩
    · rw [BitVec.getMsbD_shiftLeft, h.shifted]
      congr 1
      show j + k + _ = j + (pos.2 + k - nr)
      omega
    · by_cases hj' : j < pos.2 - nr
      · exact h.passed j hj'
      · have hjk : j - (pos.2 - nr) < k := by
          change j < pos.2 + k - nr at hj
          omega
        have hbit := hclear _ hjk
        rw [h.shifted, Nat.sub_add_cancel (Nat.le_of_not_lt hj')] at hbit
        exact hbit
    · obtain ⟨j, hj, hbit⟩ := h.ahead
      have hkj : k ≤ j := by
        by_contra hlt
        rw [hclear j (Nat.lt_of_not_le hlt)] at hbit
        exact Bool.false_ne_true hbit
      refine ⟨j - k, by omega, ?_⟩
      rw [BitVec.getMsbD_shiftLeft, Nat.sub_add_cancel hkj]
      exact hbit
  · rename_i hz
    refine ⟨h.shifted, h.le, h.passed, ?_⟩
    by_contra hnone
    refine hz (hzero.2 fun j hj => ?_)
    cases hbit : pos.1.getMsbD j with
    | false => rfl
    | true => exact absurd ⟨j, hj, hbit⟩ hnone

/-- **The search in a word** ends at its first bit. -/
theorem firstBitOf_spec {w : BitVec 32} (hw : w ≠ 0) (nr : ℕ) :
    ∃ k < 32, firstBitOf w nr = nr + k ∧ w.getMsbD k = true ∧ ∀ j < k, w.getMsbD j = false := by
  have hset : ∃ j < 32, w.getMsbD j = true := by
    by_contra hnone
    refine hw (BitVec.eq_of_getMsbD_eq fun j hj => ?_)
    rw [getMsbD_zero]
    cases hbit : w.getMsbD j with
    | false => rfl
    | true => exact absurd ⟨j, hj, hbit⟩ hnone
  have mask : ∀ (m : BitVec 32) (k : ℕ), (∀ j < 32, m.getMsbD j = decide (j < k)) → k ≤ 32 →
      ∀ j, m.getMsbD j = decide (j < k) := by
    intro m k hm hk j
    by_cases hj : j < 32
    · exact hm j hj
    · rw [BitVec.getMsbD, decide_eq_false hj, decide_eq_false (by omega), Bool.false_and]
  have start : Searching w nr (2 * 16) (w, nr) :=
    ⟨fun j => by simp, Nat.le_refl _, fun j hj => absurd hj (by simp), hset⟩
  have h16 := start.pastClear (mask 0xFFFF0000#32 16 (by decide) (by decide)) (by decide)
  have h8 := h16.pastClear (k := 8) (mask 0xFF000000#32 8 (by decide) (by decide)) (by decide)
  have h4 := h8.pastClear (k := 4) (mask 0xF0000000#32 4 (by decide) (by decide)) (by decide)
  have h2 := h4.pastClear (k := 2) (mask 0xC0000000#32 2 (by decide) (by decide)) (by decide)
  have h1 := h2.pastClear (k := 1) (mask 0x80000000#32 1 (by decide) (by decide)) (by decide)
  obtain ⟨j, hj, hbit⟩ := h1.ahead
  obtain rfl : j = 0 := Nat.lt_one_iff.1 hj
  rw [h1.shifted, Nat.zero_add] at hbit
  refine ⟨_, BitVec.lt_of_getMsbD hbit, ?_, hbit, h1.passed⟩
  exact (Nat.add_sub_cancel' h1.le).symm

/-- **The search finds the first bit**, where there is one. -/
theorem krhinoFindFirstBit_spec {bitmap : List (BitVec 32)} {m : ℕ} (h : bit bitmap m = true)
    (nr : ℕ) : ∃ k, krhinoFindFirstBit bitmap nr = some (nr + k) ∧ bit bitmap k = true ∧
      ∀ j < k, bit bitmap j = false := by
  induction bitmap generalizing m nr with
  | nil =>
    rw [bit, List.getD_nil, getMsbD_zero] at h
    cases h
  | cons w ws ih =>
    by_cases hw : w = 0
    · -- the first word is clear: the bit is in the words after it
      have hm : 32 ≤ m := by
        by_contra hlt
        rw [bit, Nat.div_eq_of_lt (Nat.lt_of_not_le hlt), List.getD_cons_zero, hw,
          getMsbD_zero] at h
        cases h
      have hshift : ∀ j, bit (w :: ws) (j + 32) = bit ws j := by
        intro j
        simp [bit, Nat.add_mod_right, Nat.add_div_right j (by decide : 0 < 32)]
      rw [← Nat.sub_add_cancel hm, hshift] at h
      obtain ⟨k, hk, hbit, hclear⟩ := ih h (nr + 32)
      refine ⟨k + 32, ?_, by rwa [hshift], fun j hj => ?_⟩
      · rw [krhinoFindFirstBit, if_pos hw, hk]
        congr 1
        omega
      · by_cases hj32 : j < 32
        · rw [bit, Nat.div_eq_of_lt hj32, List.getD_cons_zero, hw, getMsbD_zero]
        · rw [← Nat.sub_add_cancel (Nat.le_of_not_lt hj32), hshift]
          exact hclear _ (by omega)
    · obtain ⟨k, hk, hfirst, hbit, hclear⟩ := firstBitOf_spec hw nr
      have hhead : ∀ j < 32, bit (w :: ws) j = w.getMsbD j := by
        intro j hj
        rw [bit, Nat.div_eq_of_lt hj, Nat.mod_eq_of_lt hj]
        rfl
      refine ⟨k, by rw [krhinoFindFirstBit, if_neg hw, hfirst], by rwa [hhead k hk], ?_⟩
      intro j hj
      rw [hhead j (Nat.lt_trans hj hk)]
      exact hclear j hj

/-! ### The queue -/

/-- `runqueue_t`, the lists given from `cur_list_item` on. -/
structure RunQueue (T : Type) where
  curListItem : ℕ → List T
  taskBitMap : List (BitVec 32)
  highestPri : ℕ

namespace RunQueue

variable {T : Type}

/-- `runqueue_init`, over the bitmap a global starts with. -/
def init : RunQueue T := ⟨fun _ => [], [0, 0], priMax⟩

/-- `ready_list_init`: the list of one task. -/
def readyListInit (rq : RunQueue T) (task : T) (prio : ℕ) : RunQueue T where
  curListItem := Function.update rq.curListItem prio [task]
  taskBitMap := krhinoBitmapSet rq.taskBitMap prio
  highestPri := if prio < rq.highestPri then prio else rq.highestPri

/-- `ready_list_add_tail`. -/
def readyListAddTail (rq : RunQueue T) (task : T) (prio : ℕ) : RunQueue T :=
  match rq.curListItem prio with
  | [] => rq.readyListInit task prio
  | l => { rq with curListItem := Function.update rq.curListItem prio (l ++ [task]) }

/-- `ready_list_add_head`: before `cur_list_item`, which then points to it. -/
def readyListAddHead (rq : RunQueue T) (task : T) (prio : ℕ) : RunQueue T :=
  match rq.curListItem prio with
  | [] => rq.readyListInit task prio
  | l => { rq with curListItem := Function.update rq.curListItem prio (task :: l) }

/-- `ready_list_rm`. Nothing is read behind a null `cur_list_item`, and a
task that is in no list of its priority is not unlinked from another. -/
def readyListRm [DecidableEq T] (rq : RunQueue T) (task : T) (pri : ℕ) : Option (RunQueue T) :=
  match rq.curListItem pri with
  | [] => none
  | [_] =>
    let rq' : RunQueue T :=
      { rq with
        curListItem := Function.update rq.curListItem pri []
        taskBitMap := krhinoBitmapClear rq.taskBitMap pri }
    -- this condition happens when a current high prio task suspends a low priority task
    if pri ≠ rq.highestPri then some rq'
    else (krhinoFindFirstBit rq'.taskBitMap 0).map fun i => { rq' with highestPri := i }
  | l =>
    if task ∈ l then
      some { rq with curListItem := Function.update rq.curListItem pri (l.erase task) }
    else none

/-- `ready_list_head_to_tail`. -/
def readyListHeadToTail (rq : RunQueue T) (prio : ℕ) : Option (RunQueue T) :=
  match rq.curListItem prio with
  | [] => none
  | task :: l =>
    some { rq with curListItem := Function.update rq.curListItem prio (l ++ [task]) }

/-- **The queue holds exactly the tasks placed in it**, each under its
priority, and the bitmap and `highest_pri` agree with the lists. -/
structure Holds (rq : RunQueue T) (ready : T → Option ℕ) : Prop where
  mem : ∀ p t, t ∈ rq.curListItem p ↔ ready t = some p
  nodup : ∀ p, (rq.curListItem p).Nodup
  lt : ∀ t p, ready t = some p → p < priMax
  words : rq.taskBitMap.length = 2
  bit : ∀ p, bit rq.taskBitMap p = true ↔ rq.curListItem p ≠ []
  least : ∀ p < rq.highestPri, rq.curListItem p = []
  highest : rq.highestPri < priMax → rq.curListItem rq.highestPri ≠ []

theorem holds_init : (init : RunQueue T).Holds fun _ => none where
  mem p t := by simp [init]
  nodup p := List.nodup_nil
  lt t p h := by cases h
  words := rfl
  bit p := by
    have hzero : ([0, 0] : List (BitVec 32)).getD (p / 32) 0 = 0 := by
      rcases p / 32 with _ | _ | n <;> rfl
    show Rhino.bit [0, 0] p = true ↔ ([] : List T) ≠ []
    rw [Rhino.bit, hzero, getMsbD_zero]
    exact iff_of_false Bool.false_ne_true (not_not.2 rfl)
  least p _ := rfl
  highest h := absurd h (Nat.lt_irrefl _)

namespace Holds

variable {rq : RunQueue T} {ready : T → Option ℕ} {t u : T} {p q : ℕ}

theorem word_lt (h : rq.Holds ready) (hp : p < priMax) : p / 32 < rq.taskBitMap.length := by
  rw [h.words]
  unfold priMax at hp
  omega

/-- Where a task is ready, some list is not empty, and `highest_pri` is at
least as urgent. -/
theorem highestPri_le (h : rq.Holds ready) (hu : ready u = some p) : rq.highestPri ≤ p := by
  by_contra hlt
  have hmem := (h.mem p u).2 hu
  rw [h.least p (Nat.lt_of_not_le hlt)] at hmem
  exact List.not_mem_nil hmem

/-- **What is preferred**: the list at `highest_pri` has a first task, and
no ready task is more urgent than it. -/
theorem exists_preferred (h : rq.Holds ready) (hu : ready u = some p) :
    ∃ t l, rq.curListItem rq.highestPri = t :: l ∧ ready t = some rq.highestPri ∧
      ∀ v q, ready v = some q → rq.highestPri ≤ q := by
  have hlt : rq.highestPri < priMax := Nat.lt_of_le_of_lt (h.highestPri_le hu) (h.lt u p hu)
  cases hl : rq.curListItem rq.highestPri with
  | nil => exact absurd hl (h.highest hlt)
  | cons t l =>
    refine ⟨t, l, rfl, (h.mem _ t).1 ?_, fun v q hv => h.highestPri_le hv⟩
    rw [hl]
    exact List.mem_cons_self

variable [DecidableEq T]

/-- The membership of a queue one list of which takes in `t`. -/
theorem mem_update_of_none (h : rq.Holds ready) (ht : ready t = none) {l : List T}
    (hl : ∀ u, u ∈ l ↔ u = t ∨ u ∈ rq.curListItem p) (q : ℕ) (u : T) :
    u ∈ Function.update rq.curListItem p l q ↔
      Function.update ready t (some p) u = some q := by
  by_cases hut : u = t
  · subst hut
    rw [Function.update_self, Option.some.injEq]
    by_cases hqp : q = p
    · subst hqp
      simp [hl]
    · rw [Function.update_of_ne hqp, h.mem, ht]
      exact iff_of_false (by rintro ⟨⟩) (Ne.symm hqp)
  · rw [Function.update_of_ne hut]
    by_cases hqp : q = p
    · subst hqp
      rw [Function.update_self, hl, or_iff_right hut, h.mem]
    · rw [Function.update_of_ne hqp, h.mem]

omit [DecidableEq T] in
theorem nodup_update (h : rq.Holds ready) {l : List T} (hl : l.Nodup) (q : ℕ) :
    (Function.update rq.curListItem p l q).Nodup := by
  by_cases hqp : q = p
  · subst hqp
    rwa [Function.update_self]
  · rw [Function.update_of_ne hqp]
    exact h.nodup q

theorem lt_update (h : rq.Holds ready) (hp : p < priMax) (u : T) (q : ℕ)
    (hu : Function.update ready t (some p) u = some q) : q < priMax := by
  by_cases hut : u = t
  · subst hut
    rw [Function.update_self] at hu
    exact Option.some.inj hu ▸ hp
  · rw [Function.update_of_ne hut] at hu
    exact h.lt u q hu

/-- The first task of a priority. -/
theorem readyListInit (h : rq.Holds ready) (ht : ready t = none) (hp : p < priMax)
    (hnil : rq.curListItem p = []) :
    (rq.readyListInit t p).Holds (Function.update ready t (some p)) where
  mem := h.mem_update_of_none ht (by simp [hnil])
  nodup := h.nodup_update (List.nodup_singleton t)
  lt := h.lt_update hp
  words := (length_krhinoBitmapSet _ _).trans h.words
  bit q := by
    show Rhino.bit (krhinoBitmapSet rq.taskBitMap p) q = true ↔ _
    rw [bit_krhinoBitmapSet (h.word_lt hp), Bool.or_eq_true, h.bit, decide_eq_true_iff]
    by_cases hqp : q = p
    · subst hqp
      simp [RunQueue.readyListInit]
    · simp [RunQueue.readyListInit, hqp]
  least q hq := by
    have hq' : q < p ∧ q < rq.highestPri := by
      simp only [RunQueue.readyListInit] at hq
      split at hq <;> omega
    show Function.update rq.curListItem p [t] q = []
    rw [Function.update_of_ne (Nat.ne_of_lt hq'.1)]
    exact h.least q hq'.2
  highest hlt := by
    simp only [RunQueue.readyListInit] at hlt ⊢
    by_cases hp : p < rq.highestPri
    · rw [if_pos hp, Function.update_self]
      exact List.cons_ne_nil _ _
    · rw [if_neg hp] at hlt ⊢
      by_cases heq : rq.highestPri = p
      · rw [heq, Function.update_self]
        exact List.cons_ne_nil _ _
      · rw [Function.update_of_ne heq]
        exact h.highest hlt

/-- A list that has tasks takes in one more, wherever it is put. -/
theorem grow (h : rq.Holds ready) (ht : ready t = none) (hp : p < priMax)
    (hne : rq.curListItem p ≠ []) {l : List T} (hl : l.Perm (t :: rq.curListItem p)) :
    ({ rq with curListItem := Function.update rq.curListItem p l } : RunQueue T).Holds
      (Function.update ready t (some p)) := by
  have hlne : l ≠ [] := fun hnil => by simp [hnil] at hl
  have hfresh : t ∉ rq.curListItem p := fun hmem => by simp [(h.mem p t).1 hmem] at ht
  have hempty : ∀ q, Function.update rq.curListItem p l q = [] ↔ rq.curListItem q = [] := by
    intro q
    by_cases hqp : q = p
    · subst hqp
      simp [hlne, hne]
    · rw [Function.update_of_ne hqp]
  exact {
    mem := h.mem_update_of_none ht fun u => by rw [hl.mem_iff, List.mem_cons]
    nodup := h.nodup_update (hl.nodup_iff.2 (List.nodup_cons.2 ⟨hfresh, h.nodup p⟩))
    lt := h.lt_update hp
    words := h.words
    bit := fun q => (h.bit q).trans (not_congr (hempty q)).symm
    least := fun q hq => (hempty q).2 (h.least q hq)
    highest := fun hlt hnil => h.highest hlt ((hempty _).1 hnil) }

theorem readyListAddTail (h : rq.Holds ready) (ht : ready t = none) (hp : p < priMax) :
    (rq.readyListAddTail t p).Holds (Function.update ready t (some p)) := by
  cases hl : rq.curListItem p with
  | nil =>
    rw [RunQueue.readyListAddTail, hl]
    exact h.readyListInit ht hp hl
  | cons u l =>
    rw [RunQueue.readyListAddTail, hl]
    refine h.grow ht hp (by rw [hl]; exact List.cons_ne_nil _ _) ?_
    rw [hl]
    exact List.perm_append_singleton t (u :: l)

theorem readyListAddHead (h : rq.Holds ready) (ht : ready t = none) (hp : p < priMax) :
    (rq.readyListAddHead t p).Holds (Function.update ready t (some p)) := by
  cases hl : rq.curListItem p with
  | nil =>
    rw [RunQueue.readyListAddHead, hl]
    exact h.readyListInit ht hp hl
  | cons u l =>
    rw [RunQueue.readyListAddHead, hl]
    refine h.grow ht hp (by rw [hl]; exact List.cons_ne_nil _ _) ?_
    rw [hl]

/-- The membership of a queue one list of which loses `t`. -/
theorem mem_update_erase (h : rq.Holds ready) (ht : ready t = some p) {l : List T}
    (hl : ∀ u, u ∈ l ↔ u ≠ t ∧ u ∈ rq.curListItem p) (q : ℕ) (u : T) :
    u ∈ Function.update rq.curListItem p l q ↔ Function.update ready t none u = some q := by
  by_cases hut : u = t
  · subst hut
    rw [Function.update_self]
    refine iff_of_false ?_ (by rintro ⟨⟩)
    by_cases hqp : q = p
    · subst hqp
      simp [hl]
    · rw [Function.update_of_ne hqp, h.mem, ht]
      exact fun h => hqp (Option.some.inj h).symm
  · rw [Function.update_of_ne hut]
    by_cases hqp : q = p
    · subst hqp
      rw [Function.update_self, hl, and_iff_right hut, h.mem]
    · rw [Function.update_of_ne hqp, h.mem]

theorem lt_update_none (h : rq.Holds ready) (u : T) (q : ℕ)
    (hu : Function.update ready t none u = some q) : q < priMax := by
  by_cases hut : u = t
  · subst hut
    rw [Function.update_self] at hu
    cases hu
  · rw [Function.update_of_ne hut] at hu
    exact h.lt u q hu

/-- **A task is taken out**, where another is left: the bit of a priority
that runs out is cleared and the next one found. -/
theorem exists_readyListRm (h : rq.Holds ready) (ht : ready t = some p)
    (hu : ready u = some q) (hut : u ≠ t) :
    ∃ rq', rq.readyListRm t p = some rq' ∧ rq'.Holds (Function.update ready t none) := by
  have hp := h.lt t p ht
  have hmem := (h.mem p t).2 ht
  match hl : rq.curListItem p with
  | [] =>
    rw [hl] at hmem
    exact absurd hmem List.not_mem_nil
  | [v] =>
    rw [hl] at hmem
    obtain rfl : t = v := List.mem_singleton.1 hmem
    -- the queue with the list of `p` gone, whatever `highest_pri` is then set to
    have hmem' := h.mem_update_erase (p := p) ht (l := []) (by simp [hl])
    have hbit' : ∀ r, Rhino.bit (krhinoBitmapClear rq.taskBitMap p) r = true ↔
        Function.update rq.curListItem p [] r ≠ [] := by
      intro r
      rw [bit_krhinoBitmapClear (h.word_lt hp), Bool.and_eq_true, decide_eq_true_iff, h.bit]
      by_cases hrp : r = p
      · subst hrp
        simp
      · simp [hrp]
    have base : ∀ hi, (∀ r < hi, Function.update rq.curListItem p [] r = []) →
        (hi < priMax → Function.update rq.curListItem p [] hi ≠ []) →
        (RunQueue.mk (Function.update rq.curListItem p []) (krhinoBitmapClear rq.taskBitMap p)
          hi).Holds (Function.update ready t none) := by
      intro hi hleast hhigh
      exact {
        mem := hmem'
        nodup := h.nodup_update List.nodup_nil
        lt := h.lt_update_none
        words := (length_krhinoBitmapClear _ _).trans h.words
        bit := hbit'
        least := hleast
        highest := hhigh }
    simp only [RunQueue.readyListRm, hl]
    by_cases hhi : p = rq.highestPri
    · -- the other ready task leaves a bit to find
      have hq : Rhino.bit (krhinoBitmapClear rq.taskBitMap p) q = true := by
        refine (hbit' q).2 (List.ne_nil_of_mem ((hmem' q u).2 ?_))
        rwa [Function.update_of_ne hut]
      obtain ⟨k, hk, hkbit, hclear⟩ := krhinoFindFirstBit_spec hq 0
      rw [Nat.zero_add] at hk
      refine ⟨_, by rw [if_neg (not_not.2 hhi), hk]; rfl, base k (fun r hr => ?_) fun _ => ?_⟩
      · by_contra hne
        exact Bool.false_ne_true ((hclear r hr).symm.trans ((hbit' r).2 hne))
      · exact (hbit' k).1 hkbit
    · refine ⟨_, if_pos hhi, base rq.highestPri (fun r hr => ?_) fun hlt => ?_⟩
      · by_cases hrp : r = p
        · subst hrp
          exact Function.update_self ..
        · rw [Function.update_of_ne hrp]
          exact h.least r hr
      · rw [Function.update_of_ne (Ne.symm hhi)]
        exact h.highest hlt
  | v :: w :: l =>
    have hnodup : (v :: w :: l).Nodup := hl ▸ h.nodup p
    have herase : (v :: w :: l).erase t ≠ [] := by
      intro hnil
      have hlen := List.length_erase_of_mem (hl ▸ hmem)
      rw [hnil] at hlen
      simp at hlen
    have hempty : ∀ r, Function.update rq.curListItem p ((v :: w :: l).erase t) r = [] ↔
        rq.curListItem r = [] := by
      intro r
      by_cases hrp : r = p
      · subst hrp
        simp only [Function.update_self, herase, hl, List.cons_ne_nil]
      · rw [Function.update_of_ne hrp]
    refine ⟨{ rq with curListItem := Function.update rq.curListItem p ((v :: w :: l).erase t) },
      ?_, ?_⟩
    · simp only [RunQueue.readyListRm, hl]
      exact if_pos (hl ▸ hmem)
    · exact {
        mem := h.mem_update_erase ht fun u => by rw [hnodup.mem_erase_iff, hl]
        nodup := h.nodup_update (hnodup.erase t)
        lt := h.lt_update_none
        words := h.words
        bit := fun r => (h.bit r).trans (not_congr (hempty r)).symm
        least := fun r hr => (hempty r).2 (h.least r hr)
        highest := fun hlt hnil => h.highest hlt ((hempty _).1 hnil) }

omit [DecidableEq T] in
/-- A list that is turned holds what it held. -/
theorem readyListHeadToTail (h : rq.Holds ready) {rq' : RunQueue T}
    (hrq : rq.readyListHeadToTail p = some rq') : rq'.Holds ready := by
  cases hl : rq.curListItem p with
  | nil =>
    rw [RunQueue.readyListHeadToTail, hl] at hrq
    cases hrq
  | cons u l =>
    simp only [RunQueue.readyListHeadToTail, hl, Option.some.injEq] at hrq
    subst hrq
    have hperm : ∀ q, (Function.update rq.curListItem p (l ++ [u]) q).Perm
        (rq.curListItem q) := by
      intro q
      by_cases hqp : q = p
      · subst hqp
        rw [Function.update_self, hl]
        exact List.perm_append_singleton u l
      · rw [Function.update_of_ne hqp]
    have hempty : ∀ q, Function.update rq.curListItem p (l ++ [u]) q = [] ↔
        rq.curListItem q = [] := by
      intro q
      rw [← List.length_eq_zero_iff, (hperm q).length_eq, List.length_eq_zero_iff]
    exact {
      mem := fun q v => (hperm q).mem_iff.trans (h.mem q v)
      nodup := fun q => (hperm q).nodup_iff.2 (h.nodup q)
      lt := h.lt
      words := h.words
      bit := fun q => (h.bit q).trans (not_congr (hempty q)).symm
      least := fun q hq => (hempty q).2 (h.least q hq)
      highest := fun hlt hnil => h.highest hlt ((hempty _).1 hnil) }

end Holds

end RunQueue

end Hgsdk.Rhino

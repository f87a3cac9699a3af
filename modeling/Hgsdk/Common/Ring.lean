import Mathlib.Data.List.Basic
import Mathlib.Data.List.Nodup
import Mathlib.Logic.Function.Basic
import Mathlib.Tactic.Common
/-!
# Doubly linked rings

Nodes with a `next` and a `prev` pointer, either of which may be null. A
ring through a head node holds the nodes met on the way round
(`IsRing`). Putting a node in front of the head and taking one out are the
usual pointer assignments; what they do to the ring is stated by the list
of its nodes. A walk round a ring meets its nodes in order and comes to an
end (`scan_eq_find?`).
-/

namespace Hgsdk

/-- The pointers of all nodes. -/
structure Links (N : Type) where
  next : N → Option N
  prev : N → Option N

namespace Links

variable {N : Type} [DecidableEq N]

def setNext (l : Links N) (a : N) (b : Option N) : Links N :=
  { l with next := Function.update l.next a b }

def setPrev (l : Links N) (a : N) (b : Option N) : Links N :=
  { l with prev := Function.update l.prev a b }

/-- A new node between two neighbours. -/
def insertBetween (l : Links N) (x prev next : N) : Links N :=
  (((l.setPrev next (some x)).setNext x (some next)).setPrev x (some prev)).setNext prev (some x)

/-- The two neighbours of a node joined, and its own pointers cleared. -/
def unlink (l : Links N) (x prev next : N) : Links N :=
  (((l.setPrev next (some prev)).setNext prev (some next)).setNext x none).setPrev x none

/-- `a` and `b` point at each other. -/
def Joined (l : Links N) (a b : N) : Prop := l.next a = some b ∧ l.prev b = some a

/-- The way from `a` to `b` leads through `xs`. -/
def Path (l : Links N) (a : N) : List N → N → Prop
  | [], b => l.Joined a b
  | x :: xs, b => l.Joined a x ∧ Path l x xs b

/-- **A ring** through `h` with the nodes `xs`. -/
structure IsRing (l : Links N) (h : N) (xs : List N) : Prop where
  nodup : (h :: xs).Nodup
  path : l.Path h xs h

variable {l l' : Links N} {a b h x p n : N} {xs ys zs : List N}

omit [DecidableEq N] in
theorem path_append : l.Path a (xs ++ x :: ys) b ↔ l.Path a xs x ∧ l.Path x ys b := by
  induction xs generalizing a with
  | nil => exact Iff.rfl
  | cons y xs ih =>
    show _ ∧ l.Path y (xs ++ x :: ys) b ↔ (_ ∧ l.Path y xs x) ∧ _
    rw [ih, and_assoc]

omit [DecidableEq N] in
/-- A path depends on the pointers along it only. -/
theorem Path.congr (hpath : l.Path a xs b) (hnext : ∀ y ∈ a :: xs, l'.next y = l.next y)
    (hprev : ∀ y ∈ xs ++ [b], l'.prev y = l.prev y) : l'.Path a xs b := by
  induction xs generalizing a with
  | nil =>
    refine ⟨?_, ?_⟩
    · rw [hnext a (by simp)]
      exact hpath.1
    · rw [hprev b (by simp)]
      exact hpath.2
  | cons y xs ih =>
    refine ⟨⟨?_, ?_⟩, ih hpath.2 ?_ ?_⟩
    · rw [hnext a (by simp)]
      exact hpath.1.1
    · rw [hprev y (by simp)]
      exact hpath.1.2
    · intro z hz
      exact hnext z (List.mem_cons_of_mem _ hz)
    · intro z hz
      exact hprev z (List.mem_cons_of_mem _ hz)

omit [DecidableEq N] in
/-- A path ends with a step from its last node. -/
theorem Path.exists_last (hpath : l.Path a xs b) :
    ∃ p, l.prev b = some p ∧ p ∈ a :: xs := by
  induction xs generalizing a with
  | nil => exact ⟨a, hpath.2, List.mem_cons_self⟩
  | cons y xs ih =>
    obtain ⟨p, hp, hmem⟩ := ih hpath.2
    exact ⟨p, hp, List.mem_cons_of_mem _ hmem⟩

omit [DecidableEq N] in
/-- A path starts with a step to its first node. -/
theorem Path.exists_first (hpath : l.Path a xs b) :
    ∃ n, l.Joined a n ∧ n ∈ xs ++ [b] := by
  cases xs with
  | nil => exact ⟨b, hpath, by simp⟩
  | cons y xs => exact ⟨y, hpath.1, by simp⟩

omit [DecidableEq N] in
theorem Path.unique (hpath : l.Path a xs b) (hpath' : l.Path a ys b) (hb : b ∉ xs)
    (hb' : b ∉ ys) : xs = ys := by
  induction xs generalizing a ys with
  | nil =>
    cases ys with
    | nil => rfl
    | cons y ys =>
      have hby : b = y := Option.some.inj (hpath.1.symm.trans hpath'.1.1)
      exact absurd (hby ▸ List.mem_cons_self) hb'
  | cons x xs ih =>
    cases ys with
    | nil =>
      have hbx : b = x := Option.some.inj (hpath'.1.symm.trans hpath.1.1)
      exact absurd (hbx ▸ List.mem_cons_self) hb
    | cons y ys =>
      obtain rfl : x = y := Option.some.inj (hpath.1.1.symm.trans hpath'.1.1)
      rw [ih hpath.2 hpath'.2 (fun h => hb (List.mem_cons_of_mem _ h))
        (fun h => hb' (List.mem_cons_of_mem _ h))]

omit [DecidableEq N] in
/-- The pointers say which nodes a ring has. -/
theorem IsRing.unique (hring : l.IsRing h xs) (hring' : l.IsRing h ys) : xs = ys :=
  hring.path.unique hring'.path (List.nodup_cons.1 hring.nodup).1
    (List.nodup_cons.1 hring'.nodup).1

/-! ### Putting a node in -/

@[simp] theorem insertBetween_next :
    (l.insertBetween x p n).next = Function.update (Function.update l.next x (some n)) p (some x) :=
  rfl

@[simp] theorem insertBetween_prev :
    (l.insertBetween x p n).prev = Function.update (Function.update l.prev n (some x)) x (some p) :=
  rfl

/-- **Inserting in front of the head** appends to the ring. -/
theorem IsRing.insert (hring : l.IsRing h xs) (hx : x ∉ h :: xs) (hp : l.prev h = some p) :
    (l.insertBetween x p h).IsRing h (xs ++ [x]) := by
  have hxh : x ≠ h := fun he => hx (he ▸ List.mem_cons_self)
  have hnodup : (h :: (xs ++ [x])).Nodup := by
    rw [← List.cons_append]
    refine List.nodup_append.2 ⟨hring.nodup, by simp, ?_⟩
    intro y hy z hz hyz
    rw [List.mem_singleton.1 hz] at hyz
    exact hx (hyz ▸ hy)
  have hlast : (l.insertBetween x p h).Joined x h := by
    refine ⟨?_, ?_⟩
    · rw [insertBetween_next]
      by_cases hxp : x = p
      · -- impossible: the last node is on the ring and `x` is not
        obtain ⟨q, hq, hmem⟩ := hring.path.exists_last
        rw [hp] at hq
        cases hq
        exact absurd (hxp ▸ hmem) hx
      · rw [Function.update_of_ne hxp, Function.update_self]
    · rw [insertBetween_prev, Function.update_of_ne hxh.symm, Function.update_self]
  have hjoin : (l.insertBetween x p h).Joined p x := by
    refine ⟨?_, ?_⟩
    · rw [insertBetween_next, Function.update_self]
    · rw [insertBetween_prev, Function.update_self]
  refine ⟨hnodup, ?_⟩
  rw [path_append]
  refine ⟨?_, hlast⟩
  -- the way to the last node has not changed
  rcases List.eq_nil_or_concat xs with rfl | ⟨ys, q, rfl⟩
  · have hph : p = h := by
      have hprev := hring.path.2
      rw [hp] at hprev
      exact Option.some.inj hprev
    rw [← hph]
    exact hph ▸ hjoin
  · rw [List.concat_eq_append] at *
    have hpath := path_append.1 hring.path
    have hpq : p = q := by
      have hprev : l.prev h = some q := hpath.2.2
      rw [hp] at hprev
      exact Option.some.inj hprev
    subst hpq
    have hnod := hring.nodup
    refine path_append.2 ⟨hpath.1.congr ?_ ?_, hjoin⟩
    · intro y hy
      have hyp : y ≠ p := by
        rintro rfl
        rw [← List.cons_append] at hnod
        exact (List.nodup_append.1 hnod).2.2 y hy y (by simp) rfl
      have hyx : y ≠ x := by
        rintro rfl
        exact hx (by rw [← List.cons_append]; exact List.mem_append_left _ hy)
      rw [insertBetween_next, Function.update_of_ne hyp, Function.update_of_ne hyx]
    · intro y hy
      have hyh : y ≠ h := by
        rintro rfl
        exact (List.nodup_cons.1 hnod).1 hy
      have hyx : y ≠ x := by
        rintro rfl
        exact hx (List.mem_cons_of_mem _ hy)
      rw [insertBetween_prev, Function.update_of_ne hyx, Function.update_of_ne hyh]

/-! ### Taking a node out -/

theorem unlink_next (l : Links N) (x p n : N) :
    (l.unlink x p n).next = Function.update (Function.update l.next p (some n)) x none := rfl

theorem unlink_prev (l : Links N) (x p n : N) :
    (l.unlink x p n).prev = Function.update (Function.update l.prev n (some p)) x none := rfl

/-- Joining the neighbours of `x` leads round it. -/
theorem Path.unlink (hpath : l.Path a ys x) (hpath' : l.Path x zs b)
    (hnodup : (a :: (ys ++ x :: zs)).Nodup) (hb : b ∉ ys ++ x :: zs)
    (hp : l.prev x = some p) (hn : l.next x = some n) :
    (l.unlink x p n).Path a (ys ++ zs) b := by
  induction ys generalizing a with
  | nil =>
    -- `a` is the node before `x`
    have hap : a = p := by
      have hprev := hpath.2
      rw [hp] at hprev
      exact (Option.some.inj hprev).symm
    subst hap
    rw [List.nil_append] at hnodup hb ⊢
    have hax : a ≠ x := fun he => (List.nodup_cons.1 hnodup).1 (he ▸ List.mem_cons_self)
    cases zs with
    | nil =>
      have hbn : n = b := by
        have hnext := hpath'.1
        rw [hn] at hnext
        exact Option.some.inj hnext
      subst hbn
      have hnx : n ≠ x := fun he => hb (he ▸ List.mem_cons_self)
      refine ⟨?_, ?_⟩
      · rw [unlink_next, Function.update_of_ne hax, Function.update_self]
      · rw [unlink_prev, Function.update_of_ne hnx, Function.update_self]
    | cons z zs =>
      have hzn : n = z := by
        have hnext := hpath'.1.1
        rw [hn] at hnext
        exact Option.some.inj hnext
      subst hzn
      have hnod := (List.nodup_cons.1 hnodup).2
      have hnx : n ≠ x := fun he => (List.nodup_cons.1 hnod).1 (he ▸ List.mem_cons_self)
      refine ⟨⟨?_, ?_⟩, hpath'.2.congr ?_ ?_⟩
      · rw [unlink_next, Function.update_of_ne hax, Function.update_self]
      · rw [unlink_prev, Function.update_of_ne hnx, Function.update_self]
      · intro y hy
        have hyx : y ≠ x := fun he => (List.nodup_cons.1 hnod).1 (he ▸ hy)
        have hya : y ≠ a := fun he =>
          (List.nodup_cons.1 hnodup).1 (he ▸ List.mem_cons_of_mem _ hy)
        rw [unlink_next, Function.update_of_ne hyx, Function.update_of_ne hya]
      · intro y hy
        have hyx : y ≠ x := by
          rintro rfl
          rcases List.mem_append.1 hy with hy | hy
          · exact (List.nodup_cons.1 hnod).1 (List.mem_cons_of_mem _ hy)
          · exact hb (List.mem_singleton.1 hy ▸ List.mem_cons_self)
        have hyn : y ≠ n := by
          rintro rfl
          rcases List.mem_append.1 hy with hy | hy
          · exact (List.nodup_cons.1 (List.nodup_cons.1 hnod).2).1 hy
          · exact hb (List.mem_singleton.1 hy ▸ List.mem_cons_of_mem _ List.mem_cons_self)
        rw [unlink_prev, Function.update_of_ne hyx, Function.update_of_ne hyn]
  | cons y ys ih =>
    have hnod := (List.nodup_cons.1 hnodup).2
    have hanot := (List.nodup_cons.1 hnodup).1
    refine ⟨⟨?_, ?_⟩, ih hpath.2 hnod (fun hmem => hb (List.mem_cons_of_mem _ hmem))⟩
    · -- `a` is neither `x` nor the node before it
      have hax : a ≠ x := fun he => hanot (by simp [he])
      have hap : a ≠ p := by
        rintro rfl
        obtain ⟨q, hq, hmem⟩ := hpath.2.exists_last
        rw [hp] at hq
        cases hq
        exact hanot (by
          rw [List.cons_append, ← List.cons_append]
          exact List.mem_append_left _ hmem)
      rw [unlink_next, Function.update_of_ne hax, Function.update_of_ne hap]
      exact hpath.1.1
    · have hyx : y ≠ x := fun he => (List.nodup_cons.1 hnod).1 (by simp [he])
      have hyn : y ≠ n := by
        rintro rfl
        obtain ⟨q, ⟨hq, -⟩, hmem⟩ := hpath'.exists_first
        rw [hn] at hq
        cases hq
        rcases List.mem_append.1 hmem with hmem | hmem
        · exact (List.nodup_cons.1 hnod).1
            (List.mem_append_right _ (List.mem_cons_of_mem _ hmem))
        · exact hb (List.mem_singleton.1 hmem ▸ List.mem_cons_self)
      rw [unlink_prev, Function.update_of_ne hyx, Function.update_of_ne hyn]
      exact hpath.1.2

/-- **Taking a node out of a ring** leaves the ring of the others. -/
theorem IsRing.unlink (hring : l.IsRing h (ys ++ x :: zs)) (hp : l.prev x = some p)
    (hn : l.next x = some n) : (l.unlink x p n).IsRing h (ys ++ zs) := by
  obtain ⟨hpath, hpath'⟩ := path_append.1 hring.path
  refine ⟨?_, hpath.unlink hpath' hring.nodup (List.nodup_cons.1 hring.nodup).1 hp hn⟩
  refine hring.nodup.sublist ?_
  exact (List.Sublist.append_left (List.sublist_cons_self x zs) ys).cons_cons h

omit [DecidableEq N] in
/-- A node of a ring has neighbours, and they point at it. -/
theorem IsRing.exists_neighbours (hring : l.IsRing h (ys ++ x :: zs)) :
    ∃ p n, l.prev x = some p ∧ l.Joined x n := by
  obtain ⟨hpath, hpath'⟩ := path_append.1 hring.path
  obtain ⟨p, hp, -⟩ := hpath.exists_last
  obtain ⟨n, hn, -⟩ := hpath'.exists_first
  exact ⟨p, n, hp, hn⟩

/-! ### Walking round -/

/-- Walk from `pos` to the head and return the first node that passes the
test. The walk does not return when it meets a null pointer or never
comes back to the head. -/
def scan (l : Links N) (h : N) (test : N → Bool) (pos : Option N) : Option (Option N) := do
  let x ← pos
  if x = h then some none
  else if test x then some (some x)
  else l |>.scan h test (l.next x)
partial_fixpoint

/-- **A walk round a ring** finds the first node of it that passes. -/
theorem scan_eq_find? {test : N → Bool} (hpath : l.Path a xs h) (hh : h ∉ xs) :
    l.scan h test (l.next a) = some (xs.find? test) := by
  induction xs generalizing a with
  | nil =>
    rw [hpath.1, scan]
    simp
  | cons x xs ih =>
    have hxh : x ≠ h := fun he => hh (he ▸ List.mem_cons_self)
    rw [hpath.1.1, scan]
    simp only [Option.bind_eq_bind, Option.bind_some, if_neg hxh, List.find?_cons]
    cases htest : test x with
    | true => rfl
    | false => exact ih hpath.2 (fun hmem => hh (List.mem_cons_of_mem _ hmem))

/-- A walk that finds nothing on its way comes to the end of the path. -/
theorem scan_along {test : N → Bool} (hpath : l.Path a xs x)
    (hnext : ∀ y ∈ a :: xs, l'.next y = l.next y) (hh : h ∉ xs)
    (htest : ∀ y ∈ xs, test y = false) :
    l'.scan h test (l'.next a) = l'.scan h test (some x) := by
  induction xs generalizing a with
  | nil => rw [hnext a (by simp), hpath.1]
  | cons y xs ih =>
    have hyh : y ≠ h := fun he => hh (he ▸ List.mem_cons_self)
    have hy : test y = false := htest y List.mem_cons_self
    rw [hnext a (by simp), hpath.1.1]
    nth_rewrite 1 [scan]
    simp only [Option.bind_eq_bind, Option.bind_some, if_neg hyh, hy, Bool.false_eq_true, if_false]
    refine ih hpath.2 ?_ (fun hmem => hh (List.mem_cons_of_mem _ hmem)) ?_
    · intro z hz
      exact hnext z (List.mem_cons_of_mem _ hz)
    · intro z hz
      exact htest z (List.mem_cons_of_mem _ hz)

/-- **A walk caught in a loop** never returns. -/
theorem scan_loop {test : N → Bool} (hx : l.next x = some x) (hxh : x ≠ h)
    (htest : test x = false) : l.scan h test (some x) = none := by
  have hcorrect := scan.partial_correctness l h test (fun pos _ => pos ≠ some x) ?_ (some x)
  · cases hscan : l.scan h test (some x) with
    | none => rfl
    | some r => exact absurd rfl (hcorrect r hscan)
  · rintro walk ih pos r hr rfl
    simp only [Option.bind_eq_bind, Option.bind_some, if_neg hxh, htest, Bool.false_eq_true,
      if_false, hx] at hr
    exact ih _ _ hr rfl

end Links

end Hgsdk

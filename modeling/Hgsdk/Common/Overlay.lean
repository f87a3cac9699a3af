import Mathlib.Data.List.Basic
import Mathlib.Tactic.Common
/-!
# Combining a string into a memory

`overlay f m a xs` is the memory `m` with the string `xs` combined by `f`
into the cells from `a` on: plain storing when `f` takes the new value,
clearing of bits when `f` is a conjunction. Strings put end to end into
neighbouring cells are one string (`overlay_append`), which is how a
write that is cut into pieces is put together again.

`Reads m a xs` says that the cells from `a` on are `xs`. Storing at the
end extends what is read, storing inside replaces a part of it.
-/

namespace Hgsdk

variable {α β : Type}

/-- The memory `m` with `xs` combined into it from cell `a` on. -/
def overlay (f : β → α → β) (m : ℕ → β) (a : ℕ) (xs : List α) : ℕ → β := fun x =>
  if x < a then m x
  else match xs[x - a]? with
    | some v => f (m x) v
    | none => m x

variable {f : β → α → β} {m : ℕ → β} {a x : ℕ} {xs ys : List α}

@[simp] theorem overlay_nil : overlay f m a [] = m := by
  funext x
  simp [overlay]

theorem overlay_of_lt (h : x < a) : overlay f m a xs x = m x := if_pos h

theorem overlay_of_ge (h : a + xs.length ≤ x) : overlay f m a xs x = m x := by
  have hge : ¬ x < a := by omega
  have hnone : xs[x - a]? = none := List.getElem?_eq_none (by omega)
  simp only [overlay, if_neg hge, hnone]

theorem overlay_of_getElem? {i : ℕ} {v : α} (h : xs[i]? = some v) :
    overlay f m a xs (a + i) = f (m (a + i)) v := by
  have hge : ¬ a + i < a := by omega
  simp only [overlay, if_neg hge, Nat.add_sub_cancel_left, h]

/-- **Pieces put end to end.** -/
theorem overlay_append :
    overlay f (overlay f m a xs) (a + xs.length) ys = overlay f m a (xs ++ ys) := by
  funext x
  by_cases hlt : x < a + xs.length
  · rw [overlay_of_lt hlt]
    by_cases ha : x < a
    · rw [overlay_of_lt ha, overlay_of_lt ha]
    · have hx : x - a < xs.length := by omega
      simp only [overlay, if_neg ha, List.getElem?_append_left hx]
  · have ha : ¬ x < a := by omega
    have hx : xs.length ≤ x - a := by omega
    have hsub : x - (a + xs.length) = x - a - xs.length := by omega
    have hin : overlay f m a xs x = m x := overlay_of_ge (by omega)
    conv_rhs => simp only [overlay, if_neg ha, List.getElem?_append_right hx]
    rw [overlay, if_neg hlt, hsub, hin]

/-- One cell first, then the rest. -/
theorem overlay_cons {v : α} :
    overlay f m a (v :: xs) = overlay f (Function.update m a (f (m a) v)) (a + 1) xs := by
  have hone : overlay f m a [v] = Function.update m a (f (m a) v) := by
    funext x
    rcases Nat.lt_trichotomy x a with hx | rfl | hx
    · rw [overlay_of_lt hx, Function.update_of_ne (by omega)]
    · rw [Function.update_self]
      exact overlay_of_getElem? (i := 0) rfl
    · rw [overlay_of_ge (by simp; omega), Function.update_of_ne (by omega)]
  rw [← hone, ← List.singleton_append, ← overlay_append]
  rfl

/-! ### What is read back -/

section Reads

variable {m : ℕ → α} {a : ℕ} {xs ys ys' zs : List α}

/-- The cells from `a` on are `xs`. -/
def Reads (m : ℕ → α) (a : ℕ) (xs : List α) : Prop := ∀ i v, xs[i]? = some v → m (a + i) = v

theorem reads_nil : Reads m a [] := fun _ _ h => nomatch h

/-- The first part of it. -/
theorem Reads.left (h : Reads m a (xs ++ ys)) : Reads m a xs := by
  intro i v hv
  have hi := (List.getElem?_eq_some_iff.1 hv).1
  exact h i v ((List.getElem?_append_left hi).trans hv)

/-- What is stored is read back. -/
theorem reads_overlay : Reads (overlay (fun _ v => v) m a xs) a xs :=
  fun _ _ h => overlay_of_getElem? h

/-- **Storing what is there** changes nothing. -/
theorem Reads.overlay_eq (h : Reads m a xs) : overlay (fun _ v => v) m a xs = m := by
  funext x
  rcases Nat.lt_or_ge x a with hx | hx
  · exact overlay_of_lt hx
  · cases hv : xs[x - a]? with
    | none => exact overlay_of_ge (by have := List.getElem?_eq_none_iff.1 hv; omega)
    | some v =>
      have hread := h _ v hv
      have hcell := overlay_of_getElem? (f := fun _ v => v) (m := m) (a := a) hv
      rw [Nat.add_sub_cancel' hx] at hread hcell
      exact hcell.trans hread.symm

/-- **Storing at the end.** -/
theorem Reads.append (h : Reads m a xs) :
    Reads (overlay (fun _ v => v) m (a + xs.length) ys) a (xs ++ ys) := by
  intro i v hv
  rcases Nat.lt_or_ge i xs.length with hi | hi
  · rw [List.getElem?_append_left hi] at hv
    rw [overlay_of_lt (by omega)]
    exact h i v hv
  · rw [List.getElem?_append_right hi] at hv
    have hcell : a + i = a + xs.length + (i - xs.length) := by omega
    rw [hcell]
    exact overlay_of_getElem? hv

/-- **Storing inside**, over as many cells. -/
theorem Reads.patch (h : Reads m a (xs ++ ys ++ zs)) (hlen : ys'.length = ys.length) :
    Reads (overlay (fun _ v => v) m (a + xs.length) ys') a (xs ++ ys' ++ zs) := by
  intro i v hv
  have hin : xs ++ ys' ++ zs = xs ++ (ys' ++ zs) := List.append_assoc ..
  have hout : xs ++ ys ++ zs = xs ++ (ys ++ zs) := List.append_assoc ..
  rw [hin] at hv
  rw [hout] at h
  rcases Nat.lt_or_ge i xs.length with hi | hi
  · rw [List.getElem?_append_left hi] at hv
    rw [overlay_of_lt (by omega)]
    exact h i v ((List.getElem?_append_left hi).trans hv)
  · rw [List.getElem?_append_right hi] at hv
    rcases Nat.lt_or_ge (i - xs.length) ys'.length with hi' | hi'
    · rw [List.getElem?_append_left hi'] at hv
      have hcell : a + i = a + xs.length + (i - xs.length) := by omega
      rw [hcell]
      exact overlay_of_getElem? hv
    · rw [List.getElem?_append_right hi', hlen] at hv
      rw [overlay_of_ge (by omega)]
      refine h i v ?_
      rw [List.getElem?_append_right hi, List.getElem?_append_right (hlen ▸ hi')]
      exact hv

/-- Reading a part of it. -/
theorem Reads.slice (h : Reads m a xs) {k n : ℕ} (hle : k + n ≤ xs.length) :
    (List.range n).map (fun i => m (a + k + i)) = (xs.drop k).take n := by
  refine List.ext_getElem? fun i => ?_
  rcases Nat.lt_or_ge i n with hi | hi
  · have hlt : k + i < xs.length := by omega
    rw [List.getElem?_map, List.getElem?_range hi, List.getElem?_take_of_lt hi, List.getElem?_drop,
      List.getElem?_eq_getElem hlt, Option.map_some, Nat.add_assoc]
    exact congrArg some (h (k + i) _ (List.getElem?_eq_getElem hlt))
  · rw [List.getElem?_eq_none (by simpa using hi), List.getElem?_take_eq_none hi]

/-- Reading all of it. -/
theorem Reads.map_range (h : Reads m a xs) :
    (List.range xs.length).map (fun i => m (a + i)) = xs := by
  have hslice := h.slice (k := 0) (n := xs.length) (by omega)
  rwa [List.drop_zero, List.take_length, Nat.add_zero] at hslice

end Reads

end Hgsdk

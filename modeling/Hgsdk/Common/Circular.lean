import Mathlib.Tactic.SplitIfs
import Mathlib.Algebra.Order.Ring.Int
/-!
# Positions on a circle of slots

`slot n r i` is the position `i` places after `r` on a circle of `n`
slots. Positions are integers, as a C `int` is, and the wrap is a
comparison and a subtraction, so nothing here divides. A stretch of fewer
than `n` places meets no slot twice (`slot_inj`), and walking on from a
slot is walking further (`slot_slot_one`, `slot_one_slot`).
-/

namespace Hgsdk

namespace Circular

variable {n r : ℤ} {i j : ℕ}

/-- The position `i` places after `r` on a circle of `n` slots. -/
def slot (n r : ℤ) (i : ℕ) : ℤ := if r + i < n then r + i else r + i - n

@[simp] theorem slot_zero (h : r < n) : slot n r 0 = r := by
  simp [slot, h]

theorem slot_nonneg (hr : 0 ≤ r) : 0 ≤ slot n r i := by
  unfold slot; split_ifs <;> omega

theorem slot_lt (hr : r < n) (hi : (i : ℤ) ≤ n) : slot n r i < n := by
  unfold slot; split_ifs <;> omega

/-- **No slot is met twice** within one turn. -/
theorem slot_inj (hi : (i : ℤ) < n) (hj : (j : ℤ) < n) :
    slot n r i = slot n r j ↔ i = j := by
  unfold slot; split_ifs <;> omega

/-- One place on from the slot `i` places on. -/
theorem slot_slot_one (hr : r < n) (hi : (i : ℤ) < n) :
    slot n (slot n r i) 1 = slot n r (i + 1) := by
  unfold slot; split_ifs <;> omega

/-- `i` places on from the next slot. -/
theorem slot_one_slot (hr : r < n) (hi : (i : ℤ) < n) :
    slot n (slot n r 1) i = slot n r (i + 1) := by
  unfold slot; split_ifs <;> omega

end Circular

end Hgsdk

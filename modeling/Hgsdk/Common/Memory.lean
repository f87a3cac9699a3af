import Hgsdk.Common.Word
/-!
# Byte memory with 32-bit addresses

Memory is a function from addresses to bytes. Words are little endian, and
addresses wrap as the hardware's do: the cells from `a` on are those whose
distance from `a`, modulo 2³², is small enough (`InRange`).
-/

namespace Hgsdk

/-- The contents of a 32-bit address space. -/
abbrev Memory := BitVec 32 → Byte

namespace Memory

/-- The address `x` is one of the `n` cells from `a` on. -/
def InRange (a : BitVec 32) (n : ℕ) (x : BitVec 32) : Prop := (x - a).toNat < n

instance (a : BitVec 32) (n : ℕ) (x : BitVec 32) : Decidable (InRange a n x) :=
  inferInstanceAs (Decidable (_ < _))

variable {m m' : Memory} {a x : BitVec 32} {n : ℕ}

/-- Where the cells do not wrap, they are an interval. -/
theorem inRange_iff (h : a.toNat + n ≤ 2 ^ 32) :
    InRange a n x ↔ a.toNat ≤ x.toNat ∧ x.toNat < a.toNat + n := by
  have hx := x.isLt
  have ha := a.isLt
  rw [InRange, BitVec.toNat_sub]
  omega

/-- `memset`. -/
def fill (m : Memory) (a : BitVec 32) (n : ℕ) (v : Byte) : Memory := fun x =>
  if InRange a n x then v else m x

/-- The word at `a`. -/
def load32 (m : Memory) (a : BitVec 32) : BitVec 32 :=
  BitVec.ofNat 32 ((m a).toNat + 256 * (m (a + 1)).toNat + 65536 * (m (a + 2)).toNat +
    16777216 * (m (a + 3)).toNat)

/-- The memory with `v` stored as the word at `a`. -/
def store32 (m : Memory) (a v : BitVec 32) : Memory := fun x =>
  if InRange a 4 x then BitVec.ofNat 8 (v.toNat / 256 ^ (x - a).toNat) else m x

theorem fill_of_inRange {v : Byte} (h : InRange a n x) : fill m a n v x = v := if_pos h

theorem fill_of_not_inRange {v : Byte} (h : ¬ InRange a n x) : fill m a n v x = m x := if_neg h

theorem store32_of_not_inRange {v : BitVec 32} (h : ¬ InRange a 4 x) :
    store32 m a v x = m x := if_neg h

/-- The cells of the word at `a`. -/
theorem add_inRange {i : ℕ} (hi : i < 4) : InRange a 4 (a + BitVec.ofNat 32 i) := by
  have ha := a.isLt
  rw [InRange, BitVec.toNat_sub, BitVec.toNat_add, BitVec.toNat_ofNat]
  omega

/-- A word depends on its four cells only. -/
theorem load32_congr (h : ∀ x, InRange a 4 x → m x = m' x) : load32 m a = load32 m' a := by
  have h0 : m a = m' a := h a (by simp [InRange])
  have h1 : m (a + 1) = m' (a + 1) := h _ (add_inRange (i := 1) (by decide))
  have h2 : m (a + 2) = m' (a + 2) := h _ (add_inRange (i := 2) (by decide))
  have h3 : m (a + 3) = m' (a + 3) := h _ (add_inRange (i := 3) (by decide))
  rw [load32, load32, h0, h1, h2, h3]

/-- A word away from what is cleared. -/
theorem load32_fill {p : BitVec 32} {v : Byte} (h : ∀ x, InRange a 4 x → ¬ InRange p n x) :
    load32 (fill m p n v) a = load32 m a :=
  load32_congr fun x hx => fill_of_not_inRange (h x hx)

/-- A word away from the word stored. -/
theorem load32_store32_of_ne {p v : BitVec 32} (h : ∀ x, InRange a 4 x → ¬ InRange p 4 x) :
    load32 (store32 m p v) a = load32 m a :=
  load32_congr fun x hx => store32_of_not_inRange (h x hx)

/-- A word of zero bytes is zero. -/
theorem load32_eq_zero (h : ∀ x, InRange a 4 x → m x = 0) : load32 m a = 0 := by
  have hzero : ∀ x, InRange a 4 x → m x = (fun _ => 0 : Memory) x := h
  rw [load32_congr hzero]
  rfl

/-- The byte of a stored word at distance `i`. -/
theorem store32_add {v : BitVec 32} {i : ℕ} (hi : i < 4) :
    store32 m a v (a + BitVec.ofNat 32 i) = BitVec.ofNat 8 (v.toNat / 256 ^ i) := by
  have hsub : (a + BitVec.ofNat 32 i - a).toNat = i := by
    have ha := a.isLt
    rw [BitVec.toNat_sub, BitVec.toNat_add, BitVec.toNat_ofNat]
    omega
  rw [store32, if_pos (add_inRange hi), hsub]

/-- **What is stored is loaded.** -/
theorem load32_store32 {v : BitVec 32} : load32 (store32 m a v) a = v := by
  have hv := v.isLt
  have h0 : store32 m a v a = BitVec.ofNat 8 (v.toNat / 256 ^ 0) := by
    have h := store32_add (m := m) (a := a) (v := v) (i := 0) (by decide)
    rwa [BitVec.add_zero] at h
  have h1 : store32 m a v (a + 1) = BitVec.ofNat 8 (v.toNat / 256 ^ 1) := store32_add (by decide)
  have h2 : store32 m a v (a + 2) = BitVec.ofNat 8 (v.toNat / 256 ^ 2) := store32_add (by decide)
  have h3 : store32 m a v (a + 3) = BitVec.ofNat 8 (v.toNat / 256 ^ 3) := store32_add (by decide)
  refine BitVec.eq_of_toNat_eq ?_
  rw [load32, h0, h1, h2, h3]
  simp only [BitVec.toNat_ofNat]
  omega

end Memory

end Hgsdk

import Hgsdk.SleepData.Model
/-!
# The header in memory

Reading a word of the header after the header, or something behind it, was
written. The rest of the development sees the header through these lemmas
and never its bytes.
-/

namespace Hgsdk

namespace SleepData

open Memory

variable {L : Layout} {m : Memory} {k j : ℕ}

/-- The whole header lies below `__text_start`, so its addresses do not
wrap. -/
theorem word_toNat (hk : k < 8) : (L.word k).toNat = L.sleepData.toNat + 4 * k := by
  have hfits := L.header_fits
  have hend := L.textStart.isLt
  rw [headerSize] at hfits
  rw [Layout.word, BitVec.toNat_add, BitVec.toNat_ofNat]
  omega

/-- The cells of a word of the header. -/
theorem inRange_word (hk : k < 8) {x : BitVec 32} :
    InRange (L.word k) 4 x ↔
      L.sleepData.toNat + 4 * k ≤ x.toNat ∧ x.toNat < L.sleepData.toNat + 4 * k + 4 := by
  have hfits := L.header_fits
  have hend := L.textStart.isLt
  rw [headerSize] at hfits
  rw [inRange_iff (by rw [word_toNat hk]; omega), word_toNat hk]

/-- The cells of the header. -/
theorem inRange_header {x : BitVec 32} :
    InRange L.sleepData headerSize x ↔
      L.sleepData.toNat ≤ x.toNat ∧ x.toNat < L.sleepData.toNat + headerSize := by
  have hfits := L.header_fits
  have hend := L.textStart.isLt
  exact inRange_iff (by omega)

/-- **Storing a field changes that field.** -/
theorem load_word_store (hk : k < 8) (hj : j < 8) (v : BitVec 32) :
    load32 (store32 m (L.word j) v) (L.word k) = if k = j then v else load32 m (L.word k) := by
  by_cases hkj : k = j
  · rw [if_pos hkj, hkj]
    exact load32_store32
  · rw [if_neg hkj]
    refine load32_congr fun x hx => store32_of_not_inRange ?_
    rw [inRange_word hk] at hx
    rw [inRange_word hj]
    omega

/-- Storing a field changes nothing outside the header. -/
theorem store_word_outside (hj : j < 8) (v : BitVec 32) {x : BitVec 32}
    (hx : ¬ InRange L.sleepData headerSize x) : store32 m (L.word j) v x = m x := by
  refine store32_of_not_inRange ?_
  rw [inRange_header, headerSize] at hx
  rw [inRange_word hj]
  omega

/-- A cleared header reads as zeros. -/
theorem load_word_clear (hk : k < 8) :
    load32 (fill m L.sleepData headerSize 0) (L.word k) = 0 := by
  refine load32_eq_zero fun x hx => fill_of_inRange ?_
  rw [inRange_word hk] at hx
  rw [inRange_header, headerSize]
  omega

/-- Filling cells behind the header leaves the header alone. -/
theorem load_word_fill (hk : k < 8) {a : BitVec 32} {n : ℕ}
    (ha : L.sleepData.toNat + headerSize ≤ a.toNat) (hn : a.toNat + n ≤ 2 ^ 32) :
    load32 (fill m a n 0) (L.word k) = load32 m (L.word k) := by
  refine load32_congr fun x hx => fill_of_not_inRange ?_
  rw [inRange_word hk] at hx
  rw [inRange_iff hn, headerSize] at *
  omega

/-! ### The header as a whole -/

/-- What the header of an initialised area says. -/
structure Says (L : Layout) (m : Memory) (cur : BitVec 32) (region : ℕ → BitVec 32) : Prop where
  ready : L.Ready m
  cur : load32 m L.curAddr = cur
  region : ∀ id < sleepdataIdMax, load32 m (L.region id) = region id

variable {cur : BitVec 32} {region : ℕ → BitVec 32}

theorem initHeader_of_ready (h : L.Ready m) : initHeader L m = m := if_pos h

/-- **A header written anew** has no regions and starts right behind
itself. -/
theorem says_initHeader (h : ¬ L.Ready m) :
    Says L (initHeader L m) (L.sleepData + BitVec.ofNat 32 headerSize) fun _ => 0 := by
  rw [initHeader, if_neg h]
  refine ⟨⟨?_, ?_⟩, ?_, fun id hid => ?_⟩
  · simp only [Layout.magic1, Layout.magic2, Layout.curAddr]
    rw [load_word_store (by decide) (by decide), if_neg (by decide),
      load_word_store (by decide) (by decide), if_neg (by decide), load32_store32]
  · simp only [Layout.magic1, Layout.magic2, Layout.curAddr]
    rw [load_word_store (by decide) (by decide), if_neg (by decide), load32_store32]
  · exact load32_store32
  · rw [sleepdataIdMax] at hid
    simp only [Layout.magic1, Layout.magic2, Layout.curAddr, Layout.region]
    rw [load_word_store (by omega) (by decide), if_neg (by omega),
      load_word_store (by omega) (by decide), if_neg (by omega),
      load_word_store (by omega) (by decide), if_neg (by omega), load_word_clear (by omega)]

theorem initHeader_outside {x : BitVec 32} (hx : ¬ InRange L.sleepData headerSize x) :
    initHeader L m x = m x := by
  rw [initHeader]
  split
  · rfl
  · simp only [Layout.magic1, Layout.magic2, Layout.curAddr]
    rw [store_word_outside (by decide) _ hx, store_word_outside (by decide) _ hx,
      store_word_outside (by decide) _ hx, fill_of_not_inRange hx]

/-- **Taking a region** moves the pointer and enters the region. -/
theorem says_takeRegion (h : Says L m cur region) {id : ℕ} (hid : id < sleepdataIdMax)
    {size : BitVec 32} (hcur : L.sleepData.toNat + headerSize ≤ cur.toNat)
    (hsize : cur.toNat + size.toNat ≤ 2 ^ 32) :
    Says L (takeRegion L id size m) (cur + size) (Function.update region id cur) := by
  have hk : 2 + id < 8 := by
    rw [sleepdataIdMax] at hid
    omega
  have hfill : ∀ k < 8, load32 (fill m cur size.toNat 0) (L.word k) = load32 m (L.word k) :=
    fun k hk => load_word_fill hk hcur hsize
  have hcur' : load32 (fill m cur size.toNat 0) L.curAddr = cur := by
    rw [Layout.curAddr, hfill 1 (by decide)]
    exact h.cur
  simp only [takeRegion, h.cur, hcur']
  refine ⟨⟨?_, ?_⟩, ?_, fun i hi => ?_⟩
  · rw [Layout.magic1, Layout.curAddr, Layout.region, load_word_store (by decide) (by decide),
      if_neg (by decide), load_word_store (by decide) hk, if_neg (by omega), hfill _ (by decide)]
    exact h.ready.1
  · rw [Layout.magic2, Layout.curAddr, Layout.region, load_word_store (by decide) (by decide),
      if_neg (by decide), load_word_store (by decide) hk, if_neg ?_, hfill _ (by decide)]
    · exact h.ready.2
    · rw [sleepdataIdMax] at hid
      omega
  · rw [Layout.curAddr, load32_store32, Layout.region, load_word_store (by decide) hk,
      if_neg (by omega)]
    exact congrArg (· + size) hcur'
  · have hi8 : 2 + i < 8 := by
      rw [sleepdataIdMax] at hi
      omega
    rw [Layout.curAddr, Layout.region, Layout.region, load_word_store hi8 (by decide),
      if_neg (by omega), load_word_store hi8 hk]
    by_cases hii : i = id
    · rw [if_pos (by omega), hii, Function.update_self]
    · rw [if_neg (by omega), Function.update_of_ne hii, hfill _ hi8]
      exact h.region i hi

/-- Taking a region writes the header and clears the region. -/
theorem takeRegion_outside (h : Says L m cur region) {id : ℕ} (hid : id < sleepdataIdMax)
    {size x : BitVec 32} (hx : ¬ InRange L.sleepData headerSize x)
    (hx' : ¬ InRange cur size.toNat x) : takeRegion L id size m x = m x := by
  have hk : 2 + id < 8 := by
    rw [sleepdataIdMax] at hid
    omega
  simp only [takeRegion, h.cur]
  simp only [Layout.curAddr, Layout.region]
  rw [store_word_outside (by decide) _ hx, store_word_outside hk _ hx, fill_of_not_inRange hx']

end SleepData

end Hgsdk

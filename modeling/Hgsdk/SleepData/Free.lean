import Hgsdk.SleepData.Sound
/-!
# The free size and what a request is given

`system_sleepdata_freesize` is `end - cur_addr`; a request is granted where
`cur_addr + size < end`, in 32 bits. The two agree but for two kinds of
requests. One that asks for exactly what is free is refused, because the
comparison is strict. One for which the sum wraps may be granted, whatever
is free: it clears memory through the end of the address space, up to
the sum, and the pointer is not NULL unless `cur_addr` itself is cleared on
the way. Here a run is one in which no such request was granted before, and
the request looked at may be any.
-/

namespace Hgsdk

namespace SleepData

open Memory

variable {L : Layout} {s t : State} {m : Memory}

/-! ### Where `cur_addr` is -/

/-- `cur_addr` once the first part of a call is over. -/
def Layout.curOf (L : Layout) (m : Memory) : BitVec 32 := load32 (initHeader L m) L.curAddr

/-- A place for `cur_addr`: between the header and the end, and whole words
from the header. -/
structure Placed (L : Layout) (cur : BitVec 32) : Prop where
  lo_le : L.lo ≤ cur.toNat
  le_end : cur.toNat ≤ L.textStart.toNat
  aligned : cur.toNat % 4 = L.sleepData.toNat % 4

/-- An area that is not set up, or whose `cur_addr` is in its place. -/
def Tidy (L : Layout) (m : Memory) : Prop := ¬ L.Ready m ∨ Placed L (load32 m L.curAddr)

/-- A request takes a region: the client has none, and the sum is below the
end. -/
def Takes (L : Layout) (m : Memory) (id : Byte) (size : BitVec 32) : Prop :=
  load32 (initHeader L m) (L.region id.toNat) = 0 ∧ L.curOf m + align size 4 < L.textStart

/-- **The calls of a run.** A request that takes a region does not wrap. -/
def Whole (L : Layout) (s : State) : Call → Prop
  | .request id size => id.toNat < sleepdataIdMax → Takes L s.mem id size →
    (L.curOf s.mem).toNat + (align size 4).toNat < 2 ^ 32
  | .reset | .freesize => True

instance (id : Byte) (size : BitVec 32) : Decidable (Takes L m id size) :=
  inferInstanceAs (Decidable (_ ∧ _))

instance (c : Call) : Decidable (Whole L s c) :=
  match c with
  | .request _ _ => inferInstanceAs (Decidable (_ → _ → _))
  | .reset | .freesize => .isTrue trivial

theorem ready_initHeader : L.Ready (initHeader L m) := by
  by_cases h : L.Ready m
  · rw [initHeader_of_ready h]
    exact h
  · exact (says_initHeader h).ready

theorem align_four_mod (size : BitVec 32) : (align size 4).toNat % 4 = 0 := by
  have hand : align size 4 = (size + 4 - 1) &&& ~~~3#32 := rfl
  rw [hand, and_not_three_toNat]
  exact Nat.mul_mod_left ..

/-- After the first part of every call `cur_addr` is in its place. -/
theorem Tidy.placed (h : Tidy L m) : Placed L (L.curOf m) := by
  rw [Layout.curOf]
  by_cases hready : L.Ready m
  · rw [initHeader_of_ready hready]
    exact h.resolve_left (not_not.2 hready)
  · have hfits := L.header_fits
    have hend := L.textStart.isLt
    have hcur : (load32 (initHeader L m) L.curAddr).toNat = L.sleepData.toNat + 32 := by
      rw [(says_initHeader hready).cur, BitVec.toNat_add, BitVec.toNat_ofNat]
      rw [headerSize] at hfits ⊢
      omega
    rw [headerSize] at hfits
    exact ⟨by rw [hcur, Layout.lo, headerSize], by omega, by omega⟩

/-- What the header says, in its own words. -/
theorem says_self (h : L.Ready m) :
    Says L m (load32 m L.curAddr) fun i => load32 m (L.region i) :=
  ⟨h, rfl, fun _ _ => rfl⟩

/-- A region is taken, without the sum wrapping. -/
theorem says_taken {id : Byte} {size : BitVec 32} (h : Tidy L m)
    (hid : id.toNat < sleepdataIdMax)
    (hwhole : (L.curOf m).toNat + size.toNat < 2 ^ 32) :
    Says L (takeRegion L id.toNat size (initHeader L m)) (L.curOf m + size)
      (Function.update (fun i => load32 (initHeader L m) (L.region i)) id.toNat (L.curOf m)) :=
  says_takeRegion (says_self ready_initHeader) hid h.placed.lo_le (Nat.le_of_lt hwhole)

/-- The place after it. -/
theorem Placed.add {cur size : BitVec 32} (h : Placed L cur)
    (hsum : cur.toNat + (align size 4).toNat < 2 ^ 32) (hlt : cur + align size 4 < L.textStart) :
    Placed L (cur + align size 4) := by
  have hadd : (cur + align size 4).toNat = cur.toNat + (align size 4).toNat := by
    rw [BitVec.toNat_add]
    exact Nat.mod_eq_of_lt hsum
  have hwords := align_four_mod size
  have hlo := h.lo_le
  have haligned := h.aligned
  exact ⟨by omega, Nat.le_of_lt (BitVec.lt_def.1 hlt), by omega⟩

/-- **One call.** -/
theorem tidy_step {c : Call} (h : Tidy L s.mem) (hwhole : Whole L s c)
    (hstep : (sleepdata L).step s c = some t) : Tidy L t.mem := by
  have hinit : Tidy L (initHeader L s.mem) := Or.inr h.placed
  cases c with
  | reset =>
    cases hstep
    exact Or.inl not_ready_reset
  | freesize =>
    cases hstep
    exact hinit
  | request id size =>
    cases hstep
    show Tidy L (systemSleepdataRequest L id size s.mem).2
    by_cases hid : id.toNat < sleepdataIdMax
    · rw [request_eq id size s.mem hid]
      split
      next htakes =>
        have hsum := hwhole hid htakes
        refine Or.inr ?_
        rw [(says_taken h hid hsum).cur]
        exact h.placed.add hsum htakes.2
      next => exact hinit
    · rw [systemSleepdataRequest, if_neg hid]
      exact hinit

/-! ### The request after a run -/

/-- **The two functions agree** on a request: it is given a region exactly if
the aligned size is no more than what was free just before, and then so much
less is free. -/
def Agrees (L : Layout) (m : Memory) (id : Byte) (size : BitVec 32) : Prop :=
  let free := systemSleepdataFreesize L m
  let request := systemSleepdataRequest L id size free.2
  (request.1 ≠ 0 ↔ align size 4 ≤ free.1) ∧
    (request.1 ≠ 0 →
      (systemSleepdataFreesize L request.2).1.toNat + (align size 4).toNat = free.1.toNat)

/-- **When the two agree**, by `cur_addr` and the size. The sum is not exactly
the end; and it does not wrap, or it wraps past the word of the header that
holds `cur_addr`, which is then wiped out with the rest, so that the region
is NULL. -/
def Agreeable (L : Layout) (cur size : BitVec 32) : Prop :=
  cur.toNat + (align size 4).toNat ≠ L.textStart.toNat ∧
    (cur.toNat + (align size 4).toNat < 2 ^ 32 ∨
      2 ^ 32 + L.sleepData.toNat + 8 ≤ cur.toNat + (align size 4).toNat)

instance (cur size : BitVec 32) : Decidable (Agreeable L cur size) :=
  inferInstanceAs (Decidable (_ ∧ _))

/-- The pointer that is returned is `cur_addr` as it is read again once the
region has been cleared. -/
theorem region_takeRegion {id : ℕ} (hid : id < sleepdataIdMax) (size : BitVec 32) :
    load32 (takeRegion L id size m) (L.region id) =
      load32 (fill m (load32 m L.curAddr) size.toNat 0) L.curAddr := by
  have hk : 2 + id < 8 := by
    rw [sleepdataIdMax] at hid
    omega
  simp only [takeRegion]
  rw [Layout.region, Layout.curAddr, load_word_store hk (by decide), if_neg (by omega),
    load_word_store hk hk, if_pos rfl]

/-- **What a region that wraps does to `cur_addr`**: it wipes it out where it
gets past it, and does not reach it otherwise. -/
theorem curAddr_fill_wrapped {cur : BitVec 32} {n : ℕ} (h : Placed L cur) (hwords : n % 4 = 0)
    (hwrap : 2 ^ 32 ≤ cur.toNat + n) :
    load32 (fill m cur n 0) L.curAddr =
      if 2 ^ 32 + L.sleepData.toNat + 8 ≤ cur.toNat + n then 0 else load32 m L.curAddr := by
  have hlo := h.lo_le
  have haligned := h.aligned
  have hcur := cur.isLt
  rw [Layout.lo, headerSize] at hlo
  -- the header is before `cur`, so a cell of it is reached round the end
  have hreach : ∀ x, InRange L.curAddr 4 x →
      (InRange cur n x ↔ x.toNat + 2 ^ 32 < cur.toNat + n) := by
    intro x hx
    rw [Layout.curAddr, inRange_word (by decide)] at hx
    rw [InRange, BitVec.toNat_sub]
    omega
  split
  next hpast =>
    refine load32_eq_zero fun x hx => fill_of_inRange ((hreach x hx).2 ?_)
    rw [Layout.curAddr, inRange_word (by decide)] at hx
    omega
  next hshort =>
    refine load32_congr fun x hx => fill_of_not_inRange fun hin => ?_
    have hlt := (hreach x hx).1 hin
    rw [Layout.curAddr, inRange_word (by decide)] at hx
    omega

section Request

variable {id : Byte} {size : BitVec 32}

/-- The three quantities, and the request in their terms. -/
theorem agrees_iff (hid : id.toNat < sleepdataIdMax)
    (hnone : load32 (initHeader L m) (L.region id.toNat) = 0) :
    Agrees L m id size ↔
      if L.curOf m + align size 4 < L.textStart then
        (load32 (fill (initHeader L m) (L.curOf m) (align size 4).toNat 0) L.curAddr ≠ 0 ↔
          align size 4 ≤ L.textStart - L.curOf m) ∧
        (load32 (fill (initHeader L m) (L.curOf m) (align size 4).toNat 0) L.curAddr ≠ 0 →
          (L.textStart - L.curOf (takeRegion L id.toNat (align size 4)
            (initHeader L m))).toNat + (align size 4).toNat = (L.textStart - L.curOf m).toNat)
      else ¬ align size 4 ≤ L.textStart - L.curOf m := by
  have hagain : initHeader L (initHeader L m) = initHeader L m :=
    initHeader_of_ready ready_initHeader
  simp only [Agrees, systemSleepdataFreesize]
  rw [request_eq id size _ hid, hagain, hnone]
  by_cases hsum : L.curOf m + align size 4 < L.textStart
  · rw [if_pos ⟨rfl, hsum⟩, if_pos hsum, region_takeRegion hid]
    exact Iff.rfl
  · rw [if_neg (fun h => hsum h.2), if_neg hsum]
    simp [Layout.curOf]

/-- What is free does not wrap. -/
theorem Placed.free_toNat {cur : BitVec 32} (h : Placed L cur) :
    (L.textStart - cur).toNat = L.textStart.toNat - cur.toNat :=
  BitVec.toNat_sub_of_le (BitVec.le_def.2 h.le_end)

theorem Placed.ne_zero {cur : BitVec 32} (h : Placed L cur) : cur ≠ 0 := by
  intro hzero
  have hlo := h.lo_le
  rw [hzero, Layout.lo, headerSize] at hlo
  exact absurd hlo (by simp)

/-- A request whose sum does not wrap. -/
theorem Tidy.agrees_of_lt (h : Tidy L m) (hid : id.toNat < sleepdataIdMax)
    (hnone : load32 (initHeader L m) (L.region id.toNat) = 0)
    (hsum : (L.curOf m).toNat + (align size 4).toNat < 2 ^ 32) :
    Agrees L m id size ↔ (L.curOf m).toNat + (align size 4).toNat ≠ L.textStart.toNat := by
  have hle := h.placed.le_end
  have hadd : (L.curOf m + align size 4).toNat =
      (L.curOf m).toNat + (align size 4).toNat := by
    rw [BitVec.toNat_add]
    exact Nat.mod_eq_of_lt hsum
  rw [agrees_iff hid hnone]
  simp only [BitVec.lt_def, BitVec.le_def, hadd, h.placed.free_toNat]
  split
  next hlt =>
    -- granted: `cur_addr` survives the clearing and is not null
    have hsays := @says_taken L m id (align size 4) h hid hsum
    have hcur : load32 (fill (initHeader L m) (L.curOf m) (align size 4).toNat 0) L.curAddr =
        L.curOf m :=
      load_word_fill (by decide) h.placed.lo_le (Nat.le_of_lt hsum)
    have hnext : L.curOf (takeRegion L id.toNat (align size 4) (initHeader L m)) =
        L.curOf m + align size 4 := by
      rw [Layout.curOf, initHeader_of_ready hsays.ready, hsays.cur]
    rw [hcur, hnext, BitVec.toNat_sub_of_le (BitVec.le_def.2 (by rw [hadd]; omega)), hadd]
    refine iff_of_true ⟨iff_of_true h.placed.ne_zero (by omega), fun _ => by omega⟩ (by omega)
  next hge => omega

/-- A request whose sum wraps asks for more than is free, and is granted all
the same: what it is given is not NULL as long as `cur_addr` is not wiped
out. -/
theorem Tidy.agrees_of_ge (h : Tidy L m) (hid : id.toNat < sleepdataIdMax)
    (hnone : load32 (initHeader L m) (L.region id.toNat) = 0)
    (hsum : 2 ^ 32 ≤ (L.curOf m).toNat + (align size 4).toNat) :
    Agrees L m id size ↔
      2 ^ 32 + L.sleepData.toNat + 8 ≤ (L.curOf m).toNat + (align size 4).toNat := by
  have hle := h.placed.le_end
  have hcurlt := (L.curOf m).isLt
  have hsizelt := (align size 4).isLt
  have hmore : ¬ align size 4 ≤ L.textStart - L.curOf m := by
    rw [BitVec.le_def, h.placed.free_toNat]
    have hend := L.textStart.isLt
    omega
  have hlt : L.curOf m + align size 4 < L.textStart := by
    rw [BitVec.lt_def, BitVec.toNat_add]
    omega
  rw [agrees_iff hid hnone, if_pos hlt,
    curAddr_fill_wrapped h.placed (align_four_mod size) hsum]
  split
  next hpast =>
    refine iff_of_true ⟨iff_of_false (fun hne => hne rfl) hmore, fun hne => absurd rfl hne⟩ hpast
  next hshort => exact iff_of_false (fun hagrees => hmore (hagrees.1.1 h.placed.ne_zero)) hshort

theorem Tidy.agrees_iff_agreeable (h : Tidy L m) (hid : id.toNat < sleepdataIdMax)
    (hnone : load32 (initHeader L m) (L.region id.toNat) = 0) :
    Agrees L m id size ↔ Agreeable L (L.curOf m) size := by
  rw [Agreeable]
  rcases Nat.lt_or_ge ((L.curOf m).toNat + (align size 4).toNat) (2 ^ 32) with hlt | hge
  · rw [h.agrees_of_lt hid hnone hlt]
    exact ⟨fun hne => ⟨hne, Or.inl hlt⟩, fun hboth => hboth.1⟩
  · -- the end does not wrap
    have hne : (L.curOf m).toNat + (align size 4).toNat ≠ L.textStart.toNat := by
      have hend := L.textStart.isLt
      omega
    rw [h.agrees_of_ge hid hnone hge]
    exact ⟨fun hpast => ⟨hne, Or.inr hpast⟩, fun hboth =>
      hboth.2.resolve_left (Nat.not_lt.2 hge)⟩

end Request

end SleepData

end Hgsdk

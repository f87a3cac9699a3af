import Hgsdk.Common.Arena
import Hgsdk.SleepData.Header
/-!
# The deep-sleep data area hands out disjoint regions

As long as no size wraps and no client asks again for more than it got,
the header in memory is an arena: the bump pointer is its top and the
region of a client is its block. Everything a client may rely on follows
from the arena. The two conditions are needed, because `ALIGN` and the
bound check are computed in 32 bits and a repeated request returns the old
region without looking at the new size.
-/

namespace Hgsdk

namespace SleepData

open Memory

variable {L : Layout} {s t : State}

/-- Where the regions start. -/
def Layout.lo (L : Layout) : ℕ := L.sleepData.toNat + headerSize

/-- **The area is sound.** -/
structure Sound (L : Layout) (s : State) : Prop where
  /-- A pointer designates as many bytes as were asked for, inside the
  area and behind the header. -/
  inside : ∀ g ∈ s.granted,
    L.sleepData.toNat + headerSize ≤ g.ptr.toNat ∧ g.ptr.toNat + g.size.toNat ≤ L.textStart.toNat
  /-- Regions of different clients are disjoint. -/
  disjoint : ∀ g ∈ s.granted, ∀ g' ∈ s.granted, g.id ≠ g'.id →
    g.ptr.toNat + g.size.toNat ≤ g'.ptr.toNat ∨ g'.ptr.toNat + g'.size.toNat ≤ g.ptr.toNat
  /-- A client asking again gets the same pointer. -/
  same : ∀ g ∈ s.granted, ∀ g' ∈ s.granted, g.id = g'.id → g.ptr = g'.ptr

/-- What a call changes outside the header is the region it hands out, to
a client that had none. -/
def Clears (L : Layout) (s : State) (c : Call) (t : State) : Prop :=
  ∀ x, ¬ InRange L.sleepData headerSize x → t.mem x ≠ s.mem x →
    ∃ id size p, c = .request id size ∧ t.granted = ⟨id, size, p⟩ :: s.granted ∧
      (∀ g ∈ s.granted, g.id ≠ id) ∧ InRange p (align size 4).toNat x ∧
      p.toNat + (align size 4).toNat ≤ L.textStart.toNat

/-- **The condition.** A client that has a region asks for no more than
that region; a client that has none asks for a size that neither `ALIGN`
nor the addition to `cur_addr` wraps. -/
def Fits (L : Layout) (s : State) : Call → Prop
  | .request id size => id.toNat < sleepdataIdMax →
    (∃ g ∈ s.granted, g.id = id ∧ size.toNat ≤ (align g.size 4).toNat) ∨
    ((∀ g ∈ s.granted, g.id ≠ id) ∧ size.toNat + 3 < 2 ^ 32 ∧
      (load32 (initHeader L s.mem) L.curAddr).toNat + (align size 4).toNat < 2 ^ 32)
  | .reset | .freesize => True

instance (c : Call) : Decidable (Fits L s c) :=
  match c with
  | .request _ _ => inferInstanceAs (Decidable (_ → _))
  | .reset | .freesize => .isTrue trivial

/-! ### The header is an arena -/

/-- **The header in memory refines the arena `blocks`**, and the pointers
handed out are blocks of it. -/
structure Refines (L : Layout) (s : State) (blocks : List (ℕ × ℕ)) : Prop where
  ready : L.Ready s.mem
  cur : (load32 s.mem L.curAddr).toNat = Arena.top L.lo blocks
  region : ∀ id < sleepdataIdMax,
    (load32 s.mem (L.region id)).toNat = (Arena.place L.lo id blocks).getD 0
  top_le : Arena.top L.lo blocks ≤ L.textStart.toNat
  granted : ∀ g ∈ s.granted, Arena.place L.lo g.id.toNat blocks = some g.ptr.toNat ∧
    g.size.toNat ≤ (align g.size 4).toNat ∧
    (align g.size 4).toNat ≤ Arena.room g.id.toNat blocks
  owner : ∀ id : Byte, (Arena.place L.lo id.toNat blocks).isSome → ∃ g ∈ s.granted, g.id = id
  aligned : ∀ id, 4 ∣ Arena.room id blocks

/-- The invariant: an area that is not set up, or an arena. -/
def Inv (L : Layout) (s : State) : Prop :=
  (¬ L.Ready s.mem ∧ s.granted = []) ∨ ∃ blocks, Refines L s blocks

theorem Refines.sound {blocks : List (ℕ × ℕ)} (h : Refines L s blocks) : Sound L s where
  inside := by
    intro g hg
    obtain ⟨hplace, hsize, hroom⟩ := h.granted g hg
    have hbounds := Arena.place_bounds hplace
    have htop := h.top_le
    rw [Layout.lo] at hbounds htop
    omega
  disjoint := by
    intro g hg g' hg' hne
    obtain ⟨hplace, hsize, hroom⟩ := h.granted g hg
    obtain ⟨hplace', hsize', hroom'⟩ := h.granted g' hg'
    have hdisj := Arena.place_disjoint (fun hid => hne (BitVec.eq_of_toNat_eq hid)) hplace hplace'
    omega
  same := by
    intro g hg g' hg' hid
    have hplace := (h.granted g hg).1
    have hplace' := (h.granted g' hg').1
    rw [hid, hplace'] at hplace
    exact (BitVec.eq_of_toNat_eq (Option.some.inj hplace)).symm

theorem Inv.sound (h : Inv L s) : Sound L s := by
  rcases h with ⟨-, hnil⟩ | ⟨blocks, hr⟩
  · constructor <;> simp [hnil]
  · exact hr.sound

/-! ### What each call preserves -/

/-- After the first part of every call the header is an arena. -/
theorem Inv.initHeader (h : Inv L s) :
    ∃ blocks, Refines L { s with mem := initHeader L s.mem } blocks := by
  rcases h with ⟨hready, hnil⟩ | ⟨blocks, hr⟩
  · have hhead := says_initHeader hready
    have hfits := L.header_fits
    have hend := L.textStart.isLt
    refine ⟨[], hhead.ready, ?_, fun id hid => ?_, ?_, ?_, ?_, fun id => ⟨0, rfl⟩⟩
    · rw [hhead.cur, Arena.top, Layout.lo, BitVec.toNat_add, BitVec.toNat_ofNat]
      rw [headerSize] at hfits ⊢
      omega
    · rw [hhead.region id hid]
      rfl
    · exact hfits
    · intro g hg
      rw [show ({ s with mem := SleepData.initHeader L s.mem } : State).granted = [] from hnil] at hg
      exact absurd hg List.not_mem_nil
    · intro id hid
      cases hid
  · rw [initHeader_of_ready hr.ready]
    exact ⟨blocks, hr⟩

/-- A client that has a region and asks for no more than it. -/
theorem Refines.again {blocks : List (ℕ × ℕ)} (h : Refines L s blocks) {g : Grant}
    (hg : g ∈ s.granted) {size : BitVec 32} (hsize : size.toNat ≤ (align g.size 4).toNat) :
    Refines L { s with granted := ⟨g.id, size, g.ptr⟩ :: s.granted } blocks := by
  obtain ⟨hplace, -, hroom⟩ := h.granted g hg
  refine ⟨h.ready, h.cur, h.region, h.top_le, ?_, ?_, h.aligned⟩
  · intro g' hg'
    rcases List.mem_cons.1 hg' with rfl | hg'
    · -- a multiple of four that holds the size holds the aligned size
      have hbounds := Arena.place_bounds hplace
      have htop := h.top_le
      have hend := L.textStart.isLt
      obtain ⟨q, hq⟩ := h.aligned g.id.toNat
      have halign : (align size 4).toNat = (size.toNat + 3) / 4 * 4 :=
        align_four_toNat (by omega)
      refine ⟨hplace, ?_, ?_⟩
      · show size.toNat ≤ (align size 4).toNat
        omega
      · show (align size 4).toNat ≤ Arena.room g.id.toNat blocks
        omega
    · exact h.granted g' hg'
  · intro id hid
    obtain ⟨g', hg', hid'⟩ := h.owner id hid
    exact ⟨g', List.mem_cons_of_mem _ hg', hid'⟩

/-- A client that has none takes the next block. -/
theorem Refines.take {blocks : List (ℕ × ℕ)} (h : Refines L s blocks) {id : Byte}
    (hid : id.toNat < sleepdataIdMax) (hnone : ∀ g ∈ s.granted, g.id ≠ id) {size : BitVec 32}
    (hsize : size.toNat + 3 < 2 ^ 32)
    (hcheck : (load32 s.mem L.curAddr).toNat + (align size 4).toNat < L.textStart.toNat) :
    Refines L { mem := takeRegion L id.toNat (align size 4) s.mem
                granted := ⟨id, size, load32 s.mem L.curAddr⟩ :: s.granted }
      ((id.toNat, (align size 4).toNat) :: blocks) := by
  have hend := L.textStart.isLt
  have hcur := h.cur
  have hlo : L.lo ≤ Arena.top L.lo blocks := Arena.le_top
  have halign := align_four_toNat hsize
  have hnew : Arena.place L.lo id.toNat blocks = none := by
    refine Option.not_isSome_iff_eq_none.1 fun hsome => ?_
    obtain ⟨g, hg, hgid⟩ := h.owner id hsome
    exact hnone g hg hgid
  have hhead : Says L (takeRegion L id.toNat (align size 4) s.mem)
      (load32 s.mem L.curAddr + align size 4) (Function.update
        (fun i => load32 s.mem (L.region i)) id.toNat (load32 s.mem L.curAddr)) :=
    says_takeRegion ⟨h.ready, rfl, fun _ _ => rfl⟩ hid (by rw [hcur]; exact hlo) (by omega)
  have hsum : (load32 s.mem L.curAddr + align size 4).toNat =
      (load32 s.mem L.curAddr).toNat + (align size 4).toNat := by
    rw [BitVec.toNat_add]
    exact Nat.mod_eq_of_lt (by omega)
  refine ⟨hhead.ready, ?_, fun i hi => ?_, ?_, ?_, ?_, fun i => ?_⟩
  · show (load32 (takeRegion L id.toNat (align size 4) s.mem) L.curAddr).toNat = _
    rw [hhead.cur, hsum, Arena.top, hcur]
  · show (load32 (takeRegion L id.toNat (align size 4) s.mem) (L.region i)).toNat = _
    rw [hhead.region i hi, Arena.place]
    by_cases hii : i = id.toNat
    · rw [hii, Function.update_self, if_pos rfl, hcur]
      rfl
    · rw [Function.update_of_ne hii, if_neg hii]
      exact h.region i hi
  · show Arena.top L.lo blocks + (align size 4).toNat ≤ _
    omega
  · intro g hg
    rcases List.mem_cons.1 hg with rfl | hg
    · refine ⟨?_, ?_, ?_⟩
      · show Arena.place L.lo id.toNat _ = some (load32 s.mem L.curAddr).toNat
        rw [Arena.place, if_pos rfl, hcur]
      · show size.toNat ≤ (align size 4).toNat
        omega
      · show (align size 4).toNat ≤ Arena.room id.toNat _
        rw [Arena.room, if_pos rfl]
    · have hne : g.id.toNat ≠ id.toNat := fun hgid =>
        hnone g hg (BitVec.eq_of_toNat_eq hgid)
      obtain ⟨hplace, hgs, hroom⟩ := h.granted g hg
      refine ⟨?_, hgs, ?_⟩
      · rw [Arena.place, if_neg hne]
        exact hplace
      · rw [Arena.room, if_neg hne]
        exact hroom
  · intro i hi
    by_cases hii : i = id
    · exact ⟨_, List.mem_cons_self, hii.symm⟩
    · rw [Arena.place, if_neg (fun hn => hii (BitVec.eq_of_toNat_eq hn))] at hi
      obtain ⟨g, hg, hgid⟩ := h.owner i hi
      exact ⟨g, List.mem_cons_of_mem _ hg, hgid⟩
  · rw [Arena.room]
    split
    · exact ⟨(size.toNat + 3) / 4, by omega⟩
    · exact h.aligned i

/-- The two ways a request of a client can end: the region it has, or the
next free one if that was free and large enough. -/
theorem request_eq (id : Byte) (size : BitVec 32) (m : Memory)
    (hid : id.toNat < sleepdataIdMax) :
    systemSleepdataRequest L id size m =
      if load32 (initHeader L m) (L.region id.toNat) = 0 ∧
          load32 (initHeader L m) L.curAddr + align size 4 < L.textStart then
        (load32 (takeRegion L id.toNat (align size 4) (initHeader L m)) (L.region id.toNat),
          takeRegion L id.toNat (align size 4) (initHeader L m))
      else (load32 (initHeader L m) (L.region id.toNat), initHeader L m) := by
  simp only [systemSleepdataRequest, if_pos hid]
  split <;> rfl

/-- A free region is never the null pointer. -/
theorem Refines.curAddr_ne_zero {blocks : List (ℕ × ℕ)} (h : Refines L s blocks) :
    load32 s.mem L.curAddr ≠ 0 := by
  intro hzero
  have hcur := h.cur
  have hlo : L.lo ≤ Arena.top L.lo blocks := Arena.le_top
  rw [hzero, Layout.lo, headerSize] at *
  have h0 : (0 : BitVec 32).toNat = 0 := rfl
  omega

/-- **A request that fits** keeps the area an arena and changes only what
it hands out. -/
theorem request_spec {id : Byte} {size : BitVec 32} (h : Inv L s)
    (hfits : Fits L s (.request id size)) :
    (∃ blocks, Refines L (s.request L id size) blocks) ∧
      Clears L s (.request id size) (s.request L id size) := by
  obtain ⟨blocks, hr⟩ := h.initHeader
  -- everything the call wrote so far is the header
  have hclears : ∀ granted,
      Clears L s (.request id size) { mem := initHeader L s.mem, granted := granted } :=
    fun _ x hx hne => absurd (initHeader_outside hx) hne
  by_cases hid : id.toNat < sleepdataIdMax
  · rw [State.request, request_eq id size s.mem hid]
    rcases hfits hid with ⟨g, hg, rfl, hsize⟩ | ⟨hnone, hsize, hcur⟩
    · -- the client has a region already
      have hregion : load32 (initHeader L s.mem) (L.region g.id.toNat) = g.ptr := by
        refine BitVec.eq_of_toNat_eq ?_
        have hreg := hr.region g.id.toNat hid
        rw [(hr.granted g hg).1] at hreg
        exact hreg
      have hptr : g.ptr ≠ 0 := by
        intro hzero
        have hbounds := Arena.place_bounds (hr.granted g hg).1
        rw [hzero, Layout.lo, headerSize] at hbounds
        have h0 : (0 : BitVec 32).toNat = 0 := rfl
        omega
      rw [if_neg (fun hc => hptr (hregion.symm.trans hc.1))]
      simp only [hregion, if_neg hptr]
      exact ⟨⟨blocks, hr.again hg hsize⟩, hclears _⟩
    · -- the client has none
      have hregion : load32 (initHeader L s.mem) (L.region id.toNat) = 0 := by
        refine BitVec.eq_of_toNat_eq ?_
        have hreg := hr.region id.toNat hid
        have hnew : Arena.place L.lo id.toNat blocks = none := by
          refine Option.not_isSome_iff_eq_none.1 fun hsome => ?_
          obtain ⟨g, hg, hgid⟩ := hr.owner id hsome
          exact hnone g hg hgid
        rw [hnew] at hreg
        exact hreg
      by_cases hcheck : load32 (initHeader L s.mem) L.curAddr + align size 4 < L.textStart
      · rw [if_pos ⟨hregion, hcheck⟩]
        rw [BitVec.lt_def, BitVec.toNat_add, Nat.mod_eq_of_lt hcur] at hcheck
        have htake := hr.take hid hnone hsize hcheck
        have hnew : load32 (takeRegion L id.toNat (align size 4) (initHeader L s.mem))
            (L.region id.toNat) = load32 (initHeader L s.mem) L.curAddr := by
          refine BitVec.eq_of_toNat_eq ?_
          have hreg := htake.region id.toNat hid
          rw [Arena.place, if_pos rfl] at hreg
          exact hreg.trans hr.cur.symm
        simp only [hnew, if_neg hr.curAddr_ne_zero]
        refine ⟨⟨_, htake⟩, ?_⟩
        intro x hx hne
        refine ⟨id, size, _, rfl, rfl, hnone, ?_, by omega⟩
        by_contra hout
        refine hne ?_
        show takeRegion L id.toNat (align size 4) (initHeader L s.mem) x = s.mem x
        have hhead : Says L (initHeader L s.mem) (load32 (initHeader L s.mem) L.curAddr)
          fun i => load32 (initHeader L s.mem) (L.region i) := ⟨hr.ready, rfl, fun _ _ => rfl⟩
        rw [takeRegion_outside hhead hid hx hout, initHeader_outside hx]
      · rw [if_neg (fun hc => hcheck hc.2)]
        simp only [hregion, if_true]
        exact ⟨⟨blocks, hr⟩, hclears _⟩
  · rw [State.request, systemSleepdataRequest, if_neg hid]
    simp only [if_true]
    exact ⟨⟨blocks, hr⟩, hclears _⟩

/-- A reset takes the first magic word away. -/
theorem not_ready_reset : ¬ L.Ready (systemSleepdataReset L s.mem) := by
  intro hready
  have hword : L.magic1 = L.sleepData := BitVec.add_zero _
  have hmagic := hready.1
  rw [hword, systemSleepdataReset, load32_store32] at hmagic
  exact absurd hmagic (by decide)

theorem reset_clears : Clears L s .reset
    { mem := systemSleepdataReset L s.mem, granted := [] } := by
  intro x hx hne
  refine absurd (store32_of_not_inRange fun hin => hx ?_) hne
  rw [InRange] at hin ⊢
  rw [headerSize]
  omega

/-- **One call.** -/
theorem call_spec {c : Call} (h : Inv L s) (hfits : Fits L s c)
    (hstep : (sleepdata L).step s c = some t) : Inv L t ∧ Clears L s c t := by
  cases c with
  | request id size =>
    cases hstep
    obtain ⟨hinv, hclears⟩ := request_spec h hfits
    exact ⟨Or.inr hinv, hclears⟩
  | reset =>
    cases hstep
    exact ⟨Or.inl ⟨not_ready_reset, rfl⟩, reset_clears⟩
  | freesize =>
    cases hstep
    exact ⟨Or.inr h.initHeader, fun x hx hne => absurd (initHeader_outside hx) hne⟩

/-- **The allocator is sound over whole runs**, from a header without its
magic words, through any sequence of calls each of which meets `Fits`: the
pointers handed out since the last reset designate what was asked for,
inside the area, apart from each other and the same for a client that asks
again; and a further such call changes nothing but the header and the
region it hands out. -/
theorem sleepdata_sound {calls : List Call} (hstart : ¬ L.Ready s.mem) (hnil : s.granted = [])
    (hfits : (sleepdata L).Along (Fits L) s calls)
    (hrun : (sleepdata L).run s calls = some t) :
    Sound L t ∧ ∀ c u, Fits L t c → (sleepdata L).step t c = some u →
      Sound L u ∧ Clears L t c u := by
  have hinv : Inv L t :=
    Machine.inv_of_run (fun _ _ _ hs hc hstep => (call_spec hs hc hstep).1)
      (Or.inl ⟨hstart, hnil⟩) hfits hrun
  refine ⟨hinv.sound, ?_⟩
  intro c u hc hstep
  obtain ⟨hu, hclears⟩ := call_spec hinv hc hstep
  exact ⟨hu.sound, hclears⟩

/-- An area of 4 KiB. -/
def sramLayout : Layout where
  sleepData := 0x20000000
  textStart := 0x20001000
  header_fits := by decide

/-- Memory never used. -/
def blankArea : State where
  mem := fun _ => 0
  granted := []

/-- Two clients, one of them asking twice. -/
theorem sleepdata_sound_two_clients :
    ∃ t, (sleepdata sramLayout).run blankArea
        [.request 0 10, .request 1 4, .request 0 12] = some t ∧
      Sound sramLayout t ∧ ∀ c u, Fits sramLayout t c →
        (sleepdata sramLayout).step t c = some u → Sound sramLayout u ∧ Clears sramLayout t c u := by
  have hstart : ¬ sramLayout.Ready blankArea.mem := by decide +kernel
  have hfits : (sleepdata sramLayout).Along (Fits sramLayout) blankArea
      [.request 0 10, .request 1 4, .request 0 12] := by
    refine (Machine.along_cons_of_step rfl).2 ⟨by decide +kernel, ?_⟩
    refine (Machine.along_cons_of_step rfl).2 ⟨by decide +kernel, ?_⟩
    exact (Machine.along_cons_of_step rfl).2 ⟨by decide +kernel, trivial⟩
  exact ⟨_, rfl, sleepdata_sound hstart rfl hfits rfl⟩

/-- A request of 2³² − 1 bytes is aligned to a size of 0 and granted. A
client with a region of 4 bytes asks for 64 and is given the same region,
and then another client gets one inside it. -/
theorem sleepdata_unsound :
    ((sleepdata sramLayout).run blankArea [.request 0 0xFFFFFFFF]).map State.granted =
      some [⟨0, 0xFFFFFFFF, 0x20000020⟩] ∧
    ((sleepdata sramLayout).run blankArea
        [.request 0 4, .request 0 64, .request 1 4]).map State.granted =
      some [⟨1, 4, 0x20000024⟩, ⟨0, 64, 0x20000020⟩, ⟨0, 4, 0x20000020⟩] ∧
    (∀ mem, ¬ Sound sramLayout ⟨mem, [⟨0, 0xFFFFFFFF, 0x20000020⟩]⟩) ∧
    ∀ mem, ¬ Sound sramLayout
      ⟨mem, [⟨1, 4, 0x20000024⟩, ⟨0, 64, 0x20000020⟩, ⟨0, 4, 0x20000020⟩]⟩ := by
  refine ⟨by decide +kernel, by decide +kernel, ?_, ?_⟩
  · intro mem h
    exact absurd (h.inside _ List.mem_cons_self).2 (by decide)
  · intro mem h
    have hdisj := h.disjoint ⟨1, 4, 0x20000024⟩ (by simp) ⟨0, 64, 0x20000020⟩ (by simp) (by decide)
    exact absurd hdisj (by decide)

end SleepData

end Hgsdk

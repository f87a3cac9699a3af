import Hgsdk.EthPhy.Storage
/-!
# Searching the bus for a PHY

`eth_get_phy_device` with `PHY_ADAPTIVE_ADDR` tries the addresses 1 to
`PHY_MAX_ADDR`, which is 32: the loop includes its bound, and an MDIO address
has five bits. The address it tries is kept in the field that asked for the
search, and a search that finds nothing does not put it back. What it finds
is right; what it reads, and what it leaves behind, is right exactly on a
bus with a PHY at one of the addresses 1 to 31.
-/

namespace Hgsdk

namespace EthPhy

variable {w t : PhyWorld Storage}

/-- The registers of every PHY on the bus. -/
abbrev Population := BitVec 16 → BitVec 16 → BitVec 16

/-- What `eth_get_phy_id` takes from the two identifier registers. -/
def phyIdAt (regs : Population) (addr : BitVec 16) : BitVec 32 :=
  (((regs addr miiPhysid1).setWidth 32 &&& 0xffff) <<< 16) |||
    ((regs addr miiPhysid2).setWidth 32 &&& 0xffff)

/-- One of the four patterns that are no identifier. -/
def InvalidId (id : BitVec 32) : Prop :=
  id = 0xFFFFFFFF ∨ id = 0x00000000 ∨ id = 0x0000FFFF ∨ id = 0xFFFF0000

instance (id : BitVec 32) : Decidable (InvalidId id) :=
  inferInstanceAs (Decidable (_ ∨ _ ∨ _ ∨ _))

/-- **There is a PHY** at the address of this number. -/
def PhyAt (regs : Population) (i : ℕ) : Prop :=
  ¬ InvalidId (phyIdAt regs (BitVec.ofNat 16 i)) ∧ ¬ MostlyFs (phyIdAt regs (BitVec.ofNat 16 i))

instance (regs : Population) (i : ℕ) : Decidable (PhyAt regs i) :=
  inferInstanceAs (Decidable (_ ∧ _))

/-- The search from `s` gets to `i`: there is no PHY before it. -/
structure Reached (regs : Population) (s n i : ℕ) : Prop where
  le : s ≤ i
  lt : i < s + n
  none : ∀ j, s ≤ j → j < i → ¬ PhyAt regs j

theorem Reached.of_succ {regs : Population} {s n i : ℕ} (hs : ¬ PhyAt regs s)
    (h : Reached regs (s + 1) n i) : Reached regs s (n + 1) i where
  le := by have := h.le; omega
  lt := by have := h.lt; omega
  none j hj hji := by
    rcases Nat.eq_or_lt_of_le hj with rfl | hlt
    · exact hs
    · exact h.none j hlt hji

theorem Reached.first_or_succ {regs : Population} {s n i : ℕ} (h : Reached regs s (n + 1) i) :
    i = s ∨ Reached regs (s + 1) n i := by
  have hlt := h.lt
  rcases Nat.eq_or_lt_of_le h.le with heq | hgt
  · exact Or.inl heq.symm
  · exact Or.inr ⟨hgt, by omega, fun j hj => h.none j (by omega)⟩

/-- A search that has reached a PHY goes no further. -/
theorem Reached.eq_of_phyAt {regs : Population} {s n i : ℕ} (hs : PhyAt regs s)
    (h : Reached regs s n i) : i = s := by
  rcases Nat.eq_or_lt_of_le h.le with heq | hgt
  · exact heq.symm
  · exact absurd hs (h.none s le_rfl hgt)

/-- What was read between two worlds: exactly the addresses `R`. -/
def ReadsExactly (w t : PhyWorld Storage) (R : ℕ → Prop) : Prop :=
  ∃ new, t.mdio.accesses = new ++ w.mdio.accesses ∧
    (∀ a ∈ new, ∃ i, R i ∧ a.addr = BitVec.ofNat 16 i) ∧
    ∀ i, R i → ∃ a ∈ new, a.addr = BitVec.ofNat 16 i

/-- **A search** of `n` addresses from `s` on. -/
structure Searched (w : PhyWorld Storage) (s n : ℕ) (found : Bool) (t : PhyWorld Storage) :
    Prop where
  bus : t.phydev.bus = w.phydev.bus
  reads : ReadsExactly w t (Reached w.mdio.regs s n)
  hit : found = true → ∃ i, Reached w.mdio.regs s n i ∧ PhyAt w.mdio.regs i ∧
    t.phydev.addr = BitVec.ofNat 16 i ∧ t.phydev.phyId = phyIdAt w.mdio.regs (BitVec.ofNat 16 i)
  missed : found = false → (∀ i, s ≤ i → i < s + n → ¬ PhyAt w.mdio.regs i) ∧
    t.phydev.addr = if n = 0 then w.phydev.addr else BitVec.ofNat 16 (s + n - 1)

/-- The identifier of the address the device has: two reads. -/
theorem ethGetPhyId_storage (hbus : w.phydev.bus = some storageBus) :
    Ensures ethGetPhyId w fun err t =>
      (err = 0 ↔ ¬ InvalidId (phyIdAt w.mdio.regs w.phydev.addr)) ∧
        t.phydev = { w.phydev with phyId := phyIdAt w.mdio.regs w.phydev.addr } ∧
        t.mdio.regs = w.mdio.regs ∧
        t.mdio.accesses = .read w.phydev.addr miiPhysid2 :: .read w.phydev.addr miiPhysid1 ::
          w.mdio.accesses := by
  have hfirst : w.mdio.get w.phydev.addr miiPhysid1 = w.mdio.regs w.phydev.addr miiPhysid1 :=
    Storage.get_of_ne (by decide)
  have hsecond : w.mdio.get w.phydev.addr miiPhysid2 = w.mdio.regs w.phydev.addr miiPhysid2 :=
    Storage.get_of_ne (by decide)
  refine (ensures_read hbus).2 ?_
  rw [ensures_bind, ensures_setDev]
  refine (ensures_read (by exact hbus)).2 ?_
  rw [ensures_bind, ensures_setDev, ensures_bind, ensures_getDev]
  simp only [PhyWorld.looked, PhyWorld.readout, Storage.get_touch, hfirst, hsecond]
  rw [← phyIdAt]
  split
  next hinv =>
    rw [ensures_pure]
    exact ⟨⟨fun h => absurd h (by decide), fun h => absurd hinv h⟩, rfl, rfl, rfl⟩
  next hval =>
    rw [ensures_pure]
    exact ⟨⟨fun _ => hval, fun _ => rfl⟩, rfl, rfl, rfl⟩

/-- Two reads at an address, and what came after them. -/
theorem readsExactly_step {v : PhyWorld Storage} {addr r r' : BitVec 16} {s : ℕ} {R R' : ℕ → Prop}
    (hs : addr = BitVec.ofNat 16 s)
    (hv : v.mdio.accesses = .read addr r :: .read addr r' :: w.mdio.accesses)
    (hR : ∀ i, R' i ↔ i = s ∨ R i) (h : ReadsExactly v t R) : ReadsExactly w t R' := by
  obtain ⟨new, hnew, hsound, hcomplete⟩ := h
  refine ⟨new ++ [.read addr r, .read addr r'], ?_, ?_, ?_⟩
  · rw [hnew, hv, List.append_assoc]
    rfl
  · intro a ha
    rcases List.mem_append.1 ha with hin | hhere
    · obtain ⟨i, hi, haddr⟩ := hsound a hin
      exact ⟨i, (hR i).2 (Or.inr hi), haddr⟩
    · refine ⟨s, (hR s).2 (Or.inl rfl), ?_⟩
      rcases List.mem_pair.1 hhere with rfl | rfl
      · exact hs
      · exact hs
  · intro i hi
    rcases (hR i).1 hi with rfl | hin
    · exact ⟨.read addr r, List.mem_append_right _ (List.mem_cons_self), hs⟩
    · obtain ⟨a, ha, haddr⟩ := hcomplete i hin
      exact ⟨a, List.mem_append_left _ ha, haddr⟩

theorem readsExactly_nothing {R : ℕ → Prop} (h : ∀ i, ¬ R i) : ReadsExactly w w R :=
  ⟨[], rfl, fun _ ha => absurd ha List.not_mem_nil, fun i hi => absurd hi (h i)⟩

theorem reached_start {regs : Population} {s n : ℕ} : Reached regs s (n + 1) s :=
  ⟨le_rfl, by omega, fun j hj hlt => by omega⟩

/-- What one turn of the search leaves: the address tried, its identifier, and
two reads. -/
structure Tried (w : PhyWorld Storage) (s : ℕ) (v : PhyWorld Storage) : Prop where
  dev : v.phydev = { w.phydev with
    addr := BitVec.ofNat 16 s
    phyId := phyIdAt w.mdio.regs (BitVec.ofNat 16 s) }
  regs : v.mdio.regs = w.mdio.regs
  accesses : v.mdio.accesses = .read (BitVec.ofNat 16 s) miiPhysid2 ::
    .read (BitVec.ofNat 16 s) miiPhysid1 :: w.mdio.accesses

/-- A PHY at the address tried: the search ends there. -/
theorem Tried.searched_here {v : PhyWorld Storage} {s : ℕ} (h : Tried w s v)
    (hphy : PhyAt w.mdio.regs s) (n : ℕ) : Searched w s (n + 1) true v where
  bus := by rw [h.dev]
  reads := by
    refine readsExactly_step rfl h.accesses (fun i => ?_) (readsExactly_nothing fun _ => id)
    constructor
    · exact fun hi => Or.inl (hi.eq_of_phyAt hphy)
    · rintro (rfl | hi)
      · exact reached_start
      · exact hi.elim
  hit _ := ⟨s, reached_start, hphy, by rw [h.dev], by rw [h.dev]⟩
  missed hfound := absurd hfound (by decide)

/-- None at the address tried: the rest of the search is from the next one. -/
theorem Tried.searched_succ {v : PhyWorld Storage} {s n : ℕ} {found : Bool} (h : Tried w s v)
    (hphy : ¬ PhyAt w.mdio.regs s) (hrest : Searched v (s + 1) n found t) :
    Searched w s (n + 1) found t := by
  obtain ⟨hbus, hreads, hhit, hmissed⟩ := hrest
  rw [h.regs] at hreads hhit hmissed
  refine ⟨by rw [hbus, h.dev], ?_, fun hfound => ?_, fun hfound => ?_⟩
  · refine readsExactly_step rfl h.accesses (fun i => ?_) hreads
    constructor
    · exact Reached.first_or_succ
    · rintro (rfl | hi)
      · exact reached_start
      · exact hi.of_succ hphy
  · obtain ⟨i, hreached, hat, haddr, hid⟩ := hhit hfound
    exact ⟨i, hreached.of_succ hphy, hat, haddr, hid⟩
  · obtain ⟨hnone, haddr⟩ := hmissed hfound
    refine ⟨fun i hle hlt => ?_, ?_⟩
    · rcases Nat.eq_or_lt_of_le hle with rfl | hgt
      · exact hphy
      · exact hnone i hgt (by omega)
    · rw [haddr, if_neg (Nat.succ_ne_zero n)]
      split
      next hlast => rw [h.dev, hlast, Nat.zero_add, Nat.add_sub_cancel]
      next => rw [Nat.add_right_comm, ← Nat.add_assoc]

/-- **The search**, by induction on how many addresses are left. -/
theorem ethPhyScan_searched (n : ℕ) : ∀ (s : ℕ) (w : PhyWorld Storage),
    w.phydev.bus = some storageBus →
    Ensures (ethPhyScan (List.range' s n)) w fun found t => Searched w s n found t := by
  induction n with
  | zero =>
    intro s w hbus
    rw [List.range'_zero, ethPhyScan, ensures_pure]
    refine ⟨rfl, readsExactly_nothing fun i hi => ?_, fun h => absurd h (by decide),
      fun _ => ⟨?_, ?_⟩⟩
    · have hle := hi.le
      have hlt := hi.lt
      omega
    · intro i hle hlt
      omega
    · rfl
  | succ n ih =>
    intro s w hbus
    rw [List.range'_succ, ethPhyScan, ensures_bind, ensures_setDev]
    refine (ethGetPhyId_storage (by exact hbus)).bind ?_
    rintro err v ⟨herr, hdev, hregs, hacc⟩
    have htried : Tried w s v := ⟨hdev, hregs, hacc⟩
    have hcond : err = 0 ∧ ¬ MostlyFs v.phydev.phyId ↔ PhyAt w.mdio.regs s := by
      rw [herr, htried.dev]
      exact Iff.rfl
    rw [ensures_bind, ensures_getDev]
    by_cases hphy : PhyAt w.mdio.regs s
    · rw [if_pos (hcond.2 hphy), ensures_pure]
      exact htried.searched_here hphy n
    · rw [if_neg (mt hcond.1 hphy)]
      refine (ih (s + 1) v (by rw [hdev]; exact hbus)).mono ?_
      exact fun found t hrest => htried.searched_succ hphy hrest

/-- `eth_get_phy_device` is the search, and a device that was found is reset:
what was read, the address and the identifier are the search's. -/
theorem ethGetPhyDevice_searched (hbus : w.phydev.bus = some storageBus)
    (haddr : w.phydev.addr = phyAdaptiveAddr) :
    Ensures ethGetPhyDevice w fun found t => Searched w 1 phyMaxAddr found t := by
  rw [ethGetPhyDevice, ensures_bind, ensures_getDev, if_pos haddr]
  refine (ethPhyScan_searched phyMaxAddr 1 w hbus).bind ?_
  intro found t h
  dsimp only
  cases found with
  | false =>
    rw [if_pos (by decide), ensures_pure]
    exact h
  | true =>
    obtain ⟨i, hreached, hat, hti, hid⟩ := h.hit rfl
    rw [if_neg (by decide), ensures_bind, ensures_getDev, if_neg (by rw [hid]; exact hat.2),
      ensures_bind, ethPhyDeviceCreate, ensures_setDev, ensures_pure]
    exact ⟨h.bus, h.reads, fun _ => ⟨i, hreached, hat, hti, hid⟩,
      fun hfound => absurd hfound (by decide)⟩

/-- With an address given, that one is tried and no other. -/
theorem ethGetPhyDevice_fixed {i : ℕ} (hbus : w.phydev.bus = some storageBus)
    (haddr : w.phydev.addr = BitVec.ofNat 16 i) (hfixed : w.phydev.addr ≠ phyAdaptiveAddr) :
    Ensures ethGetPhyDevice w fun found _ => found = true ↔ PhyAt w.mdio.regs i := by
  rw [ethGetPhyDevice, ensures_bind, ensures_getDev, if_neg hfixed, ensures_bind]
  refine (ethGetPhyId_storage hbus).mono ?_
  rintro err t ⟨herr, hdev, -, -⟩
  have hid : t.phydev.phyId = phyIdAt w.mdio.regs (BitVec.ofNat 16 i) := by rw [hdev, haddr]
  rw [haddr] at herr
  rw [ensures_bind, ensures_pure]
  dsimp only
  split
  next hmissed =>
    rw [ensures_pure]
    have herr' : err ≠ 0 := by simpa using hmissed
    exact ⟨fun h => absurd h (by decide), fun hat => absurd (herr.2 hat.1) herr'⟩
  next hread =>
    have herr' : err = 0 := by simpa using hread
    rw [ensures_bind, ensures_getDev, hid]
    split
    next hmostly =>
      rw [ensures_pure]
      exact ⟨fun h => absurd h (by decide), fun hat => absurd hmostly hat.2⟩
    next hfine =>
      rw [ensures_bind, ethPhyDeviceCreate, ensures_setDev, ensures_pure]
      exact ⟨fun _ => ⟨herr.1 herr', hfine⟩, fun _ => rfl⟩

/-! ### What is asked of a search -/

/-- Only addresses of the bus are read. -/
def StaysOnBus (w t : PhyWorld Storage) : Prop :=
  ∃ new, t.mdio.accesses = new ++ w.mdio.accesses ∧ ∀ a ∈ new, a.addr.toNat < 32

/-- A device that is found is the first one of the search, and its
identifier is known. -/
def FindsFirst (w : PhyWorld Storage) (found : Bool) (t : PhyWorld Storage) : Prop :=
  found = true → ∃ i, 1 ≤ i ∧ i ≤ phyMaxAddr ∧ PhyAt w.mdio.regs i ∧
    (∀ j, 1 ≤ j → j < i → ¬ PhyAt w.mdio.regs j) ∧
    t.phydev.addr = BitVec.ofNat 16 i ∧ t.phydev.phyId = phyIdAt w.mdio.regs (BitVec.ofNat 16 i)

/-- After a search that finds nothing, the next one searches again. -/
def CanRepeat (found : Bool) (t : PhyWorld Storage) : Prop :=
  found = false → t.phydev.addr = phyAdaptiveAddr

namespace Searched

variable {found : Bool}

/-- The search gets to address 32 unless there is a PHY before it. -/
theorem staysOnBus_iff (h : Searched w 1 phyMaxAddr found t) :
    StaysOnBus w t ↔ ∃ i, 1 ≤ i ∧ i < 32 ∧ PhyAt w.mdio.regs i := by
  obtain ⟨new, hnew, hsound, hcomplete⟩ := h.reads
  constructor
  · rintro ⟨new', hnew', hbus⟩
    obtain rfl := List.append_cancel_right (hnew'.symm.trans hnew)
    by_contra hnone
    have hlast : Reached w.mdio.regs 1 phyMaxAddr 32 :=
      ⟨by decide, by decide, fun j hj hlt hat => hnone ⟨j, hj, hlt, hat⟩⟩
    obtain ⟨a, ha, haddr⟩ := hcomplete 32 hlast
    have hlt := hbus a ha
    rw [haddr] at hlt
    exact absurd hlt (by decide)
  · rintro ⟨i, hi, hlt, hat⟩
    refine ⟨new, hnew, fun a ha => ?_⟩
    obtain ⟨j, hj, haddr⟩ := hsound a ha
    have hji : j ≤ i := by
      by_contra hgt
      exact hj.none i hi (Nat.lt_of_not_le hgt) hat
    rw [haddr, BitVec.toNat_ofNat, Nat.mod_eq_of_lt (by omega)]
    omega

theorem findsFirst (h : Searched w 1 phyMaxAddr found t) : FindsFirst w found t := by
  intro hfound
  obtain ⟨i, hreached, hat, haddr, hid⟩ := h.hit hfound
  have hlt := hreached.lt
  exact ⟨i, hreached.le, by omega, hat, hreached.none, haddr, hid⟩

/-- A search that finds nothing leaves 32, which is not `PHY_ADAPTIVE_ADDR`. -/
theorem canRepeat_iff (h : Searched w 1 phyMaxAddr found t) :
    CanRepeat found t ↔ ∃ i, 1 ≤ i ∧ i ≤ 32 ∧ PhyAt w.mdio.regs i := by
  cases found with
  | true =>
    obtain ⟨i, hreached, hat, -⟩ := h.hit rfl
    have hlt := hreached.lt
    have hmax : phyMaxAddr = 32 := rfl
    exact ⟨fun _ => ⟨i, hreached.le, by omega, hat⟩, fun _ hfound => absurd hfound (by decide)⟩
  | false =>
    obtain ⟨hnone, haddr⟩ := h.missed rfl
    constructor
    · intro hrepeat
      have hleft : t.phydev.addr ≠ phyAdaptiveAddr := by
        rw [haddr, if_neg (by decide)]
        decide
      exact absurd (hrepeat rfl) hleft
    · rintro ⟨i, hi, hle, hat⟩
      exact absurd hat (hnone i hi (by have hmax : phyMaxAddr = 32 := rfl; omega))

end Searched

/-- **The adaptive search.** A device that it finds is always the first one.
It stays on the bus exactly where there is a PHY at one of the addresses 1
to 31, and it can be repeated exactly where it has found one at 1 to 32. -/
theorem ethGetPhyDevice_adaptive (hbus : w.phydev.bus = some storageBus)
    (haddr : w.phydev.addr = phyAdaptiveAddr) :
    Ensures ethGetPhyDevice w fun found t =>
      (StaysOnBus w t ∧ FindsFirst w found t ∧ CanRepeat found t ↔
        ∃ i, 1 ≤ i ∧ i < 32 ∧ PhyAt w.mdio.regs i) ∧
      FindsFirst w found t ∧
      (StaysOnBus w t ↔ ∃ i, 1 ≤ i ∧ i < 32 ∧ PhyAt w.mdio.regs i) ∧
      (CanRepeat found t ↔ ∃ i, 1 ≤ i ∧ i ≤ 32 ∧ PhyAt w.mdio.regs i) := by
  refine (ethGetPhyDevice_searched hbus haddr).mono ?_
  intro found t h
  refine ⟨⟨fun hall => h.staysOnBus_iff.1 hall.1, ?_⟩, h.findsFirst, h.staysOnBus_iff,
    h.canRepeat_iff⟩
  rintro ⟨i, hi, hlt, hat⟩
  exact ⟨h.staysOnBus_iff.2 ⟨i, hi, hlt, hat⟩, h.findsFirst,
    h.canRepeat_iff.2 ⟨i, hi, Nat.le_of_lt hlt, hat⟩⟩

/-- A bus with one PHY, at the given address. -/
def onePhy (addr : BitVec 16) : Population := fun a reg =>
  if a = addr then
    if reg = miiPhysid1 then 0x0243 else if reg = miiPhysid2 then 0x0c54 else 0
  else 0xffff

/-- A PHY at address 5 is found, without leaving the bus. -/
theorem ethGetPhyDevice_adaptive_five :
    Ensures ethGetPhyDevice (storagePhy phyAdaptiveAddr autonegEnable 0 0 (onePhy 5))
      fun found t =>
        StaysOnBus (storagePhy phyAdaptiveAddr autonegEnable 0 0 (onePhy 5)) t ∧
        FindsFirst (storagePhy phyAdaptiveAddr autonegEnable 0 0 (onePhy 5)) found t ∧
        CanRepeat found t := by
  refine (ethGetPhyDevice_adaptive rfl rfl).mono ?_
  intro found t h
  exact h.1.2 ⟨5, by decide, by decide, by decide⟩

/-- **The PHY that is powered up late.** On an empty bus the search reads
address 32, finds nothing and leaves the device at 32. When a PHY has come
up at address 1, the next search looks at 32 only and does not find it. -/
theorem ethGetPhyDevice_late_phy :
    Ensures ethGetPhyDevice (storagePhy phyAdaptiveAddr autonegEnable 0 0 fun _ _ => 0xffff)
      fun found t => found = false ∧ t.phydev.addr = 32 ∧
        ¬ StaysOnBus (storagePhy phyAdaptiveAddr autonegEnable 0 0 fun _ _ => 0xffff) t ∧
        ¬ CanRepeat found t ∧
        Ensures ethGetPhyDevice { t with mdio := { t.mdio with regs := onePhy 1 } }
          fun found' _ => found' = false := by
  have hnone : ∀ i, ¬ PhyAt (fun _ _ => 0xffff) i := fun i hat =>
    hat.1 (Or.inl (by rw [phyIdAt]; decide))
  have hsearched : Ensures ethGetPhyDevice
      (storagePhy phyAdaptiveAddr autonegEnable 0 0 fun _ _ => 0xffff) fun found t =>
      Searched (storagePhy phyAdaptiveAddr autonegEnable 0 0 fun _ _ => 0xffff) 1 phyMaxAddr
        found t := ethGetPhyDevice_searched rfl rfl
  refine hsearched.mono ?_
  intro found t h
  have hfound : found = false := by
    refine Bool.eq_false_iff.2 fun htrue => ?_
    obtain ⟨i, -, hat, -⟩ := h.hit htrue
    exact hnone i hat
  have haddr : t.phydev.addr = BitVec.ofNat 16 32 := (h.missed hfound).2
  have hfixed : t.phydev.addr ≠ phyAdaptiveAddr := by
    rw [haddr]
    decide
  have hnext : Ensures ethGetPhyDevice { t with mdio := { t.mdio with regs := onePhy 1 } }
      fun found _ => found = true ↔ PhyAt (onePhy 1) 32 :=
    ethGetPhyDevice_fixed h.bus haddr hfixed
  have habsent : ¬ PhyAt (onePhy 1) 32 := by decide
  refine ⟨hfound, haddr, fun hstays => ?_, fun hrepeat => ?_, hnext.mono ?_⟩
  · obtain ⟨i, -, -, hat⟩ := h.staysOnBus_iff.1 hstays
    exact hnone i hat
  · exact hfixed (hrepeat hfound)
  · intro found' _ hfound'
    exact Bool.eq_false_iff.2 fun htrue => habsent (hfound'.1 htrue)

end EthPhy

end Hgsdk

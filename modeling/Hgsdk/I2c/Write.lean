import Hgsdk.I2c.Model
/-!
# What a write puts on the bus

The words accepted and those still to be stored are the words of the whole
write (`words`), until a store of the address finds the FIFO full and is
lost. The stores of the data are never lost, but a byte with its top bit set
is stored as a read with a STOP and a RESTART.
-/

namespace Hgsdk

namespace I2c

variable {D : ℕ} {s t : Transfer} {a : Move} {addr data : List Byte} {w : BitVec 32} {b : Byte}

/-! ### The words of a write -/

/-- The words of the address. -/
def addrWords (first : Bool) : List Byte → List (BitVec 32)
  | [] => []
  | a :: rest => addrWord first a :: addrWords false rest

/-- The words of the data. -/
def dataWords : List Byte → List (BitVec 32)
  | [] => []
  | b :: rest => dataWord b rest :: dataWords rest

/-- The words still to be stored. -/
def toStore : Phase → List (BitVec 32)
  | .addr first rest data => addrWords first rest ++ dataWords data
  | .data _ rest => dataWords rest
  | .waitEmpty | .waitStop | .done _ => []

/-- The words accepted, and those still to be stored. -/
def words (s : Transfer) : List (BitVec 32) := s.accepted ++ toStore s.phase

theorem toStore_afterAddr {rest : List Byte} :
    toStore (afterAddr rest data) = addrWords false rest ++ dataWords data := by
  cases rest <;> rfl

theorem toStore_afterData {rest : List Byte} : toStore (afterData rest) = dataWords rest := by
  cases rest <;> rfl

theorem length_addrWords {first : Bool} : (addrWords first addr).length = addr.length := by
  induction addr generalizing first with
  | nil => rfl
  | cons a rest ih => exact congrArg Nat.succ ih

theorem length_dataWords : (dataWords data).length = data.length := by
  induction data with
  | nil => rfl
  | cons b rest ih => exact congrArg Nat.succ ih

theorem store_of_lt (h : s.fifo.length < D) : s.store D w =
    { s with fifo := s.fifo ++ [w], accepted := s.accepted ++ [w] } := if_pos h

theorem store_of_ge (h : D ≤ s.fifo.length) : s.store D w = s := if_neg (Nat.not_lt.2 h)

/-! ### One step -/

/-- **What holds between two accesses**: there is something left to store
where the driver stores, and a FIFO seen not full is not full. -/
def Sound (D : ℕ) (s : Transfer) : Prop :=
  match s.phase with
  | .addr _ rest data => rest ≠ [] ∧ data ≠ []
  | .data ready rest => rest ≠ [] ∧ (ready = true → s.fifo.length < D)
  | .waitEmpty | .waitStop | .done _ => True

/-- The step does not store a byte of the address into a full FIFO. -/
def Room (D : ℕ) (s : Transfer) (a : Move) : Prop :=
  a = .driver → ∀ first rest data, s.phase = .addr first rest data → s.fifo.length < D

/-- What a step makes of the words: they stay, unless one of the address is
lost. -/
structure Stepped (D : ℕ) (s : Transfer) (a : Move) (t : Transfer) : Prop where
  sound : Sound D t
  room : Room D s a → words t = words s
  lost : ¬ Room D s a → (words t).Sublist (words s) ∧ (words t).length < (words s).length

/-- A step that keeps the words, and stores no byte of the address. -/
theorem Stepped.of_eq (hsound : Sound D t) (hroom : Room D s a) (hwords : words t = words s) :
    Stepped D s a t := ⟨hsound, fun _ => hwords, fun h => absurd hroom h⟩

theorem sound_afterAddr {rest : List Byte} (hphase : t.phase = afterAddr rest data)
    (hdata : data ≠ []) : Sound D t := by
  cases rest with
  | nil =>
    rw [Sound, hphase]
    exact ⟨hdata, nofun⟩
  | cons a rest =>
    rw [Sound, hphase]
    exact ⟨List.cons_ne_nil _ _, hdata⟩

theorem sound_afterData {rest : List Byte} (hphase : t.phase = afterData rest) : Sound D t := by
  cases rest with
  | nil =>
    rw [Sound, hphase]
    trivial
  | cons b rest =>
    rw [Sound, hphase]
    exact ⟨List.cons_ne_nil _ _, nofun⟩

/-- **What an access of the driver does**, with what it has found. -/
inductive Driven (D : ℕ) (s t : Transfer) : Prop
  /-- A byte of the address, whether the FIFO is full or not. -/
  | addr {first : Bool} {a : Byte} {rest data : List Byte}
      (hphase : s.phase = .addr first (a :: rest) data)
      (ht : t = { s.store D (addrWord first a) with phase := afterAddr rest data })
  | look {rest : List Byte} (hphase : s.phase = .data false rest) (hlt : s.fifo.length < D)
      (ht : t = { s with phase := .data true rest })
  | data {b : Byte} {rest : List Byte} (hphase : s.phase = .data true (b :: rest))
      (ht : t = { s.store D (dataWord b rest) with phase := afterData rest })
  | wait {phase : Phase} (hphase : s.phase = .waitEmpty ∨ s.phase = .waitStop)
      (hnext : phase = .waitStop ∨ ∃ ret, phase = .done ret) (ht : t = { s with phase })
  /-- The driver will look again. -/
  | again (hphase : ∀ first rest data, s.phase ≠ .addr first rest data) (ht : t = s)

theorem driven_of_driver (hstep : s.driver D = some t) : Driven D s t := by
  obtain ⟨phase, fifo, accepted, txAbrt, stopDet⟩ := s
  cases phase with
  | addr first rest data =>
    cases rest with
    | nil => exact nomatch hstep
    | cons a rest => exact .addr rfl (Option.some.inj hstep).symm
  | data ready rest =>
    cases ready with
    | false =>
      obtain rfl := Option.some.inj hstep
      split
      · rename_i hlt
        exact .look rfl hlt rfl
      · exact .again nofun rfl
    | true =>
      cases rest with
      | nil => exact nomatch hstep
      | cons b rest => exact .data rfl (Option.some.inj hstep).symm
  | waitEmpty =>
    obtain rfl := Option.some.inj hstep
    split
    · exact .wait (.inl rfl) (.inl rfl) rfl
    · exact .again nofun rfl
  | waitStop =>
    obtain rfl := Option.some.inj hstep
    split
    · exact .wait (.inr rfl) (.inr ⟨_, rfl⟩) rfl
    · split
      · exact .wait (.inr rfl) (.inr ⟨_, rfl⟩) rfl
      · exact .again nofun rfl
  | done ret => exact nomatch hstep

/-- Outside the address there is always room. -/
theorem room_of_phase (h : ∀ first rest data, s.phase ≠ .addr first rest data) :
    Room D s .driver :=
  fun _ first rest data hphase => absurd hphase (h first rest data)

/-- **One access of the driver.** -/
theorem stepped_driver (h : Sound D s) (hstep : s.driver D = some t) : Stepped D s .driver t := by
  cases driven_of_driver hstep with
  | @addr first a rest data hphase ht =>
    subst ht
    rw [Sound, hphase] at h
    rcases Nat.lt_or_ge s.fifo.length D with hlt | hge
    · refine .of_eq (sound_afterAddr rfl h.2) (fun _ _ _ _ _ => hlt) ?_
      rw [words, words, store_of_lt hlt, toStore_afterAddr, hphase]
      simp only [toStore, addrWords, List.append_assoc, List.cons_append, List.nil_append]
    · refine ⟨sound_afterAddr rfl h.2, fun hr => ?_, fun _ => ?_⟩
      · exact absurd (hr rfl _ _ _ hphase) (Nat.not_lt.2 hge)
      · rw [words, words, store_of_ge hge, toStore_afterAddr, hphase]
        simp only [toStore, addrWords, List.cons_append]
        refine ⟨List.Sublist.append_left (List.sublist_cons_self _ _) _, ?_⟩
        simp only [List.length_append, List.length_cons]
        omega
  | look hphase hlt ht =>
    subst ht
    rw [Sound, hphase] at h
    refine .of_eq ⟨h.1, fun _ => hlt⟩ (room_of_phase (by rw [hphase]; nofun)) ?_
    rw [words, words, hphase]
    rfl
  | data hphase ht =>
    subst ht
    rw [Sound, hphase] at h
    refine .of_eq (sound_afterData rfl) (room_of_phase (by rw [hphase]; nofun)) ?_
    rw [words, words, store_of_lt (h.2 rfl), toStore_afterData, hphase]
    simp only [toStore, dataWords, List.append_assoc, List.cons_append, List.nil_append]
  | wait hphase hnext ht =>
    subst ht
    have hstored : toStore s.phase = [] := by rcases hphase with h | h <;> rw [h] <;> rfl
    have hroom : Room D s .driver := room_of_phase (by rcases hphase with h | h <;> rw [h] <;> nofun)
    rcases hnext with rfl | ⟨ret, rfl⟩
    · exact .of_eq trivial hroom (by rw [words, words, hstored]; rfl)
    · exact .of_eq trivial hroom (by rw [words, words, hstored]; rfl)
  | again hphase ht =>
    subst ht
    exact .of_eq h (room_of_phase hphase) rfl

/-- **One step.** -/
theorem stepped (h : Sound D s) (hstep : (machine D).step s a = some t) : Stepped D s a t := by
  cases a with
  | driver => exact stepped_driver h hstep
  | drain =>
    obtain ⟨phase, fifo, accepted, txAbrt, stopDet⟩ := s
    cases fifo with
    | nil => exact nomatch hstep
    | cons w fifo =>
      obtain rfl := Option.some.inj hstep
      refine .of_eq ?_ nofun rfl
      cases phase with
      | data ready rest => exact ⟨h.1, fun hr => Nat.lt_of_succ_lt (h.2 hr)⟩
      | addr => exact h
      | waitEmpty => trivial
      | waitStop => trivial
      | done => trivial
  | txAbrt =>
    obtain rfl := Option.some.inj hstep
    exact .of_eq h nofun rfl
  | stopDet =>
    obtain rfl := Option.some.inj hstep
    exact .of_eq h nofun rfl

/-! ### A whole write -/

/-- **When nothing is lost.** -/
theorem words_eq_iff {labels : List Move} {v : Transfer} (h : Sound D s)
    (hrun : (machine D).run s labels = some v) :
    (words v).Sublist (words s) ∧
      (words v = words s ↔ (machine D).Along (Room D) s labels) := by
  have hkeep : ∀ u a u', (Sound D u ∧ (words u).Sublist (words s)) →
      (machine D).step u a = some u' → Sound D u' ∧ (words u').Sublist (words s) := by
    intro u a u' hI hstep
    have hs := stepped hI.1 hstep
    by_cases hroom : Room D u a
    · exact ⟨hs.sound, hs.room hroom ▸ hI.2⟩
    · exact ⟨hs.sound, (hs.lost hroom).1.trans hI.2⟩
  refine ⟨(Machine.inv_of_run_of_step hkeep ⟨h, List.Sublist.refl _⟩ hrun).2, ?_⟩
  have hiff := Machine.iff_and_along (M := machine D) (C := Room D)
    (P := fun u => words u = words s) hkeep (fun u a u' hI hstep => ?_)
    ⟨h, List.Sublist.refl _⟩ hrun
  · exact hiff.trans (and_iff_right rfl)
  · have hs := stepped hI.1 hstep
    constructor
    · intro hw
      have hroom : Room D u a := by
        by_contra hroom
        have hlt := (hs.lost hroom).2
        have hle := hI.2.length_le
        rw [hw] at hlt
        omega
      exact ⟨(hs.room hroom).symm.trans hw, hroom⟩
    · rintro ⟨hw, hroom⟩
      exact (hs.room hroom).trans hw

/-- A short address leaves room for all of its bytes. -/
def Short (D : ℕ) (s : Transfer) : Prop :=
  ∀ first rest data, s.phase = .addr first rest data → s.fifo.length + rest.length ≤ D

/-- Where no address is left nothing is asked for. -/
theorem short_of_phase (h : ∀ first rest data, t.phase ≠ .addr first rest data) : Short D t :=
  fun first rest data hphase => absurd hphase (h first rest data)

theorem Short.driver (h : Short D s) (hstep : s.driver D = some t) : Short D t := by
  cases driven_of_driver hstep with
  | @addr first a rest data hphase ht =>
    subst ht
    have hle := h first (a :: rest) data hphase
    rw [List.length_cons] at hle
    rw [store_of_lt (by omega)]
    intro first' rest' data' hphase'
    -- the phase is the address still, with what is left of it
    have hrest : rest' = rest := by
      cases rest with
      | nil => exact nomatch hphase'
      | cons a' rest => exact (Phase.addr.inj hphase').2.1.symm
    rw [hrest, List.length_append, List.length_singleton]
    omega
  | look hphase hlt ht =>
    subst ht
    exact short_of_phase nofun
  | @data b rest hphase ht =>
    subst ht
    cases rest with
    | nil => exact short_of_phase nofun
    | cons b' rest => exact short_of_phase nofun
  | wait hphase hnext ht =>
    subst ht
    rcases hnext with rfl | ⟨ret, rfl⟩
    · exact short_of_phase nofun
    · exact short_of_phase nofun
  | again hphase ht =>
    subst ht
    exact h

theorem Short.step (h : Short D s) (hstep : (machine D).step s a = some t) : Short D t := by
  cases a with
  | driver => exact h.driver hstep
  | drain =>
    obtain ⟨phase, fifo, accepted, txAbrt, stopDet⟩ := s
    cases fifo with
    | nil => exact nomatch hstep
    | cons w fifo =>
      obtain rfl := Option.some.inj hstep
      intro first rest data hphase
      have hle := h first rest data hphase
      dsimp only [List.length_cons] at hle ⊢
      omega
  | txAbrt =>
    obtain rfl := Option.some.inj hstep
    exact h
  | stopDet =>
    obtain rfl := Option.some.inj hstep
    exact h

/-- **A short address is never lost.** -/
theorem along_room {labels : List Move} (hsound : Sound D s) (hshort : Short D s) :
    (machine D).Along (Room D) s labels := by
  have hfree : (machine D).Along (fun _ _ => True) s labels :=
    Machine.along_of_forall fun _ _ => trivial
  refine (Machine.along_iff_of_inv (I := fun u => Sound D u ∧ Short D u)
    (fun u a hu => iff_true_intro ?_) (fun u a u' hu _ hstep => ?_) ⟨hsound, hshort⟩).2 hfree
  · intro _ first rest data hphase
    have hne : rest ≠ [] := by
      have hs := hu.1
      rw [Sound, hphase] at hs
      exact hs.1
    have hpos := List.length_pos_of_ne_nil hne
    have hle := hu.2 first rest data hphase
    omega
  · exact ⟨(stepped hu.1 hstep).sound, hu.2.step hstep⟩

/-- **A longer address can be lost**: where the bus takes nothing, the
driver comes to store into a full FIFO. -/
theorem exists_not_room {first : Bool} {rest : List Byte} (hphase : s.phase = .addr first rest data)
    (hlong : D < s.fifo.length + rest.length) (hfull : s.fifo.length ≤ D) :
    ∃ n v v', (machine D).run s (List.replicate n .driver) = some v ∧ ¬ Room D v .driver ∧
      (machine D).step v .driver = some v' := by
  obtain ⟨phase, fifo, accepted, txAbrt, stopDet⟩ := s
  obtain rfl : phase = .addr first rest data := hphase
  dsimp only at hlong hfull
  induction rest generalizing first fifo accepted with
  | nil =>
    rw [List.length_nil] at hlong
    omega
  | cons a rest ih =>
    rw [List.length_cons] at hlong
    rcases Nat.lt_or_ge fifo.length D with hlt | hge
    · -- one more entry
      have hstep : (machine D).step ⟨.addr first (a :: rest) data, fifo, accepted, txAbrt, stopDet⟩
          .driver = some ⟨.addr false rest data, fifo ++ [addrWord first a],
            accepted ++ [addrWord first a], txAbrt, stopDet⟩ := by
        have hrest : rest ≠ [] := by
          rintro rfl
          rw [List.length_nil] at hlong
          omega
        show some { Transfer.store D _ _ with phase := afterAddr rest data } = _
        rw [store_of_lt hlt, afterAddr, if_neg hrest]
      have hlen : (fifo ++ [addrWord first a]).length = fifo.length + 1 := by
        rw [List.length_append, List.length_singleton]
      obtain ⟨n, v, v', hrun, hv⟩ := @ih false (fifo ++ [addrWord first a])
        (accepted ++ [addrWord first a]) (by omega) (by omega)
      refine ⟨n + 1, v, v', ?_, hv⟩
      rw [List.replicate_succ, Machine.run_cons_of_step hstep, hrun]
    · refine ⟨0, _, _, rfl, fun hroom => ?_, rfl⟩
      exact absurd (hroom rfl _ _ _ rfl) (Nat.not_lt.2 hge)

/-! ### A write can always be completed -/

/-- The bus can take everything out. -/
theorem exists_drained (s : Transfer) :
    ∃ more, (machine D).run s more = some { s with fifo := [] } := by
  obtain ⟨phase, fifo, accepted, txAbrt, stopDet⟩ := s
  induction fifo with
  | nil => exact ⟨[], rfl⟩
  | cons w fifo ih =>
    obtain ⟨more, hmore⟩ := ih
    exact ⟨.drain :: more, hmore⟩

/-- The write returns, sooner or later. -/
def Completes (D : ℕ) (s : Transfer) : Prop :=
  ∃ more ret v, (machine D).run s more = some v ∧ v.phase = .done ret

theorem Completes.of_run {labels : List Move} (hrun : (machine D).run s labels = some t)
    (h : Completes D t) : Completes D s := by
  obtain ⟨more, ret, v, hmore, hret⟩ := h
  exact ⟨labels ++ more, ret, v, (Machine.run_append_of_run hrun).trans hmore, hret⟩

theorem completes_waitStop (hphase : s.phase = .waitStop) : Completes D s := by
  obtain ⟨phase, fifo, accepted, txAbrt, stopDet⟩ := s
  obtain rfl : phase = .waitStop := hphase
  cases txAbrt with
  | true => exact ⟨[.driver], retErr, _, rfl, rfl⟩
  | false => exact ⟨[.stopDet, .driver], retOk, _, rfl, rfl⟩

theorem completes_waitEmpty (hphase : s.phase = .waitEmpty) : Completes D s := by
  obtain ⟨phase, fifo, accepted, txAbrt, stopDet⟩ := s
  obtain rfl : phase = .waitEmpty := hphase
  obtain ⟨more, hmore⟩ := exists_drained (D := D) ⟨.waitEmpty, fifo, accepted, txAbrt, stopDet⟩
  have hseen : (machine D).run ⟨.waitEmpty, [], accepted, txAbrt, stopDet⟩ [.driver] =
      some ⟨.waitStop, [], accepted, txAbrt, stopDet⟩ := rfl
  exact .of_run hmore (.of_run hseen (completes_waitStop rfl))

theorem completes_data (hD : 0 < D) {ready : Bool} {rest : List Byte}
    (hphase : s.phase = .data ready rest) (hrest : rest ≠ []) : Completes D s := by
  induction rest generalizing s ready with
  | nil => exact absurd rfl hrest
  | cons b rest ih =>
    obtain ⟨phase, fifo, accepted, txAbrt, stopDet⟩ := s
    obtain rfl : phase = .data ready (b :: rest) := hphase
    -- with an empty FIFO the driver looks, where it has not, and stores
    have hstored : ∀ fifo accepted,
        Completes D ⟨afterData rest, fifo, accepted, txAbrt, stopDet⟩ := by
      intro fifo accepted
      cases rest with
      | nil => exact completes_waitEmpty rfl
      | cons b' rest => exact ih rfl (List.cons_ne_nil _ _)
    have hready : ∀ accepted,
        Completes D ⟨.data true (b :: rest), [], accepted, txAbrt, stopDet⟩ := by
      intro accepted
      have hstep :
          (machine D).run ⟨.data true (b :: rest), [], accepted, txAbrt, stopDet⟩ [.driver] =
          some ⟨afterData rest, [dataWord b rest], accepted ++ [dataWord b rest], txAbrt,
            stopDet⟩ := by
        show some { Transfer.store D _ _ with phase := afterData rest } = _
        rw [store_of_lt (show List.length [] < D from hD)]
        rfl
      exact .of_run hstep (hstored _ _)
    obtain ⟨more, hmore⟩ := exists_drained (D := D)
      ⟨.data ready (b :: rest), fifo, accepted, txAbrt, stopDet⟩
    refine .of_run hmore ?_
    cases ready with
    | true => exact hready accepted
    | false =>
      have hlook :
          (machine D).run ⟨.data false (b :: rest), [], accepted, txAbrt, stopDet⟩ [.driver] =
          some ⟨.data true (b :: rest), [], accepted, txAbrt, stopDet⟩ := by
        show some (if List.length [] < D then _ else _) = _
        rw [if_pos (show List.length [] < D from hD)]
      exact .of_run hlook (hready accepted)

theorem completes_addr (hD : 0 < D) {first : Bool} {rest : List Byte}
    (hphase : s.phase = .addr first rest data) (hrest : rest ≠ []) (hdata : data ≠ []) :
    Completes D s := by
  induction rest generalizing s first with
  | nil => exact absurd rfl hrest
  | cons a rest ih =>
    obtain ⟨phase, fifo, accepted, txAbrt, stopDet⟩ := s
    obtain rfl : phase = .addr first (a :: rest) data := hphase
    have hstore : (machine D).run ⟨.addr first (a :: rest) data, fifo, accepted, txAbrt, stopDet⟩
        [.driver] = some { Transfer.store D ⟨.addr first (a :: rest) data, fifo, accepted, txAbrt,
          stopDet⟩ (addrWord first a) with phase := afterAddr rest data } := rfl
    refine .of_run hstore ?_
    cases rest with
    | nil => exact completes_data hD rfl hdata
    | cons a' rest => exact ih rfl (List.cons_ne_nil _ _)

/-- **From every state a write comes to**, it can return. -/
theorem completes (hD : 0 < D) (h : Sound D s) : Completes D s := by
  cases hphase : s.phase with
  | addr first rest data =>
    rw [Sound, hphase] at h
    exact completes_addr hD hphase h.1 h.2
  | data ready rest =>
    rw [Sound, hphase] at h
    exact completes_data hD hphase h.1
  | waitEmpty => exact completes_waitEmpty hphase
  | waitStop => exact completes_waitStop hphase
  | done ret => exact ⟨[], ret, s, rfl, hphase⟩

/-! ### What the words mean -/

theorem promote_setWidth : (promote b).setWidth 8 = b := by
  refine BitVec.eq_of_getLsbD_eq fun i hi => ?_
  have hi32 : i < 32 := by omega
  simp only [promote, BitVec.getLsbD_setWidth, BitVec.getLsbD_signExtend, hi, hi32, decide_true,
    Bool.true_and, if_true]

/-- The upper bits of a promoted byte are its top bit. -/
theorem promote_getLsbD {i : ℕ} (hi : 8 ≤ i) (hi' : i < 32) : (promote b).getLsbD i = b.msb := by
  have hnot : ¬ i < 8 := by omega
  simp only [promote, BitVec.getLsbD_signExtend, hi', hnot, decide_true, Bool.true_and, if_false]

theorem msb_eq_false_iff : b.msb = false ↔ b.toNat < 0x80 := by
  rw [BitVec.msb_eq_decide, decide_eq_false_iff_not, Nat.not_le]

/-- The words of the address are what the caller asks for. -/
theorem decode_addrWord (first : Bool) : decode (addrWord first b) = ⟨b, false, false, first⟩ := by
  have hlow : (0xFF : BitVec 32).setWidth 8 = BitVec.allOnes 8 := by decide
  have hdat : (dataCmdDat b).setWidth 8 = b := by
    rw [dataCmdDat, BitVec.setWidth_and, promote_setWidth, hlow, BitVec.and_allOnes]
  have hup : ∀ i, 8 ≤ i → i < 11 → (dataCmdDat b).getLsbD i = false := by
    have hmask : ∀ i < 11, 8 ≤ i → (0xFF : BitVec 32).getLsbD i = false := by decide
    intro i hi hi'
    rw [dataCmdDat, BitVec.getLsbD_and, hmask i hi' hi, Bool.and_false]
  cases first with
  | false =>
    rw [addrWord, if_neg Bool.false_ne_true, decode, hdat, hup 8 (by decide) (by decide),
      hup 9 (by decide) (by decide), hup 10 (by decide) (by decide)]
  | true =>
    have h8 : dataCmdRestart.getLsbD 8 = false := by decide
    have h9 : dataCmdRestart.getLsbD 9 = false := by decide
    have h10 : dataCmdRestart.getLsbD 10 = true := by decide
    have h0 : dataCmdRestart.setWidth 8 = 0 := by decide
    rw [addrWord, if_pos rfl, decode, BitVec.setWidth_or, hdat, h0, BitVec.getLsbD_or,
      BitVec.getLsbD_or, BitVec.getLsbD_or, h8, h9, h10, hup 8 (by decide) (by decide),
      hup 9 (by decide) (by decide), hup 10 (by decide) (by decide)]
    exact congrArg (Entry.mk · false false true) BitVec.zero_or

theorem decode_addrWords : (addrWords true addr).map decode = addrEntries addr := by
  have hrest : ∀ rest, (addrWords false rest).map decode =
      rest.map fun a => ⟨a, false, false, false⟩ := by
    intro rest
    induction rest with
    | nil => rfl
    | cons a rest ih =>
      rw [addrWords, List.map_cons, decode_addrWord, ih]
      rfl
  cases addr with
  | nil => rfl
  | cons a rest =>
    rw [addrWords, List.map_cons, decode_addrWord, hrest]
    rfl

/-- **A word of the data** is the byte's, as a write, exactly where its top
bit is clear. -/
theorem decode_dataWord_iff {rest : List Byte} :
    decode (dataWord b rest) = ⟨b, false, decide (rest = []), false⟩ ↔ b.toNat < 0x80 := by
  have h8 := promote_getLsbD (b := b) (i := 8) (by decide) (by decide)
  have h9 := promote_getLsbD (b := b) (i := 9) (by decide) (by decide)
  have h10 := promote_getLsbD (b := b) (i := 10) (by decide) (by decide)
  have hs8 : dataCmdStop.getLsbD 8 = false := by decide
  have hs9 : dataCmdStop.getLsbD 9 = true := by decide
  have hs10 : dataCmdStop.getLsbD 10 = false := by decide
  have hs0 : dataCmdStop.setWidth 8 = 0 := by decide
  have hor : b ||| 0 = b := BitVec.or_zero
  rw [← msb_eq_false_iff]
  by_cases hrest : rest = []
  · rw [dataWord, if_pos hrest, decode, BitVec.setWidth_or, promote_setWidth, hs0, hor,
      BitVec.getLsbD_or, BitVec.getLsbD_or, BitVec.getLsbD_or, h8, h9, h10, hs8, hs9, hs10]
    simp [hrest]
  · rw [dataWord, if_neg hrest, decode, promote_setWidth, h8, h9, h10]
    simp [hrest]

theorem decode_dataWords_iff :
    (dataWords data).map decode = dataEntries data ↔ ∀ b ∈ data, b.toNat < 0x80 := by
  induction data with
  | nil => exact iff_of_true rfl nofun
  | cons b rest ih =>
    rw [dataWords, dataEntries, List.map_cons, List.cons.injEq, decode_dataWord_iff, ih,
      List.forall_mem_cons]

theorem length_dataEntries : (dataEntries data).length = data.length := by
  induction data with
  | nil => rfl
  | cons b rest ih => exact congrArg Nat.succ ih

theorem length_addrEntries : (addrEntries addr).length = addr.length := by
  cases addr with
  | nil => rfl
  | cons a rest => exact congrArg Nat.succ (List.length_map _)

/-! ### The law, and what it takes -/

section Write

variable {opened : BitVec 32} {txAbrt stopDet : Bool}
variable (hopened : opened ≠ 0) (haddr : addr ≠ []) (hdata : data ≠ [])

include hopened haddr hdata

theorem phase_begin :
    (begin opened addr data txAbrt stopDet).phase = .addr true addr data := by
  rw [begin, hgi2cDwWrite, if_neg hopened, if_neg (not_or.2 ⟨hdata, haddr⟩)]

theorem sound_begin : Sound D (begin opened addr data txAbrt stopDet) := by
  rw [Sound, phase_begin hopened haddr hdata]
  exact ⟨haddr, hdata⟩

theorem words_begin :
    words (begin opened addr data txAbrt stopDet) = addrWords true addr ++ dataWords data := by
  rw [words, phase_begin hopened haddr hdata]
  rfl

/-- **One write.** When it has returned, the controller has accepted exactly
what the caller asks for where no byte of the address was stored into a full
FIFO and no byte of the data has its top bit set, and nowhere else. -/
theorem accepted_iff {labels : List Move} {v : Transfer} {ret : CInt}
    (hrun : (machine D).run (begin opened addr data txAbrt stopDet) labels = some v)
    (hdone : v.phase = .done ret) :
    v.accepted.map decode = addrEntries addr ++ dataEntries data ↔
      (machine D).Along (Room D) (begin opened addr data txAbrt stopDet) labels ∧
        ∀ b ∈ data, b.toNat < 0x80 := by
  obtain ⟨hsub, hiff⟩ := words_eq_iff (sound_begin hopened haddr hdata) hrun
  have hwords : words v = v.accepted := by
    rw [words, hdone]
    exact List.append_nil _
  have hwhole : (addrWords true addr ++ dataWords data).map decode =
      addrEntries addr ++ dataEntries data ↔ ∀ b ∈ data, b.toNat < 0x80 := by
    rw [List.map_append, decode_addrWords, List.append_cancel_left_eq, decode_dataWords_iff]
  rw [words_begin hopened haddr hdata, hwords] at hsub hiff
  rw [← hiff]
  constructor
  · intro heq
    -- as many as asked for: none was lost
    have hlen : v.accepted.length = (addrWords true addr ++ dataWords data).length := by
      have hlen := congrArg List.length heq
      rw [List.length_map, List.length_append, length_addrEntries, length_dataEntries] at hlen
      rw [hlen, List.length_append, length_addrWords, length_dataWords]
    have hall := hsub.eq_of_length hlen
    exact ⟨hall, hwhole.1 (hall ▸ heq)⟩
  · rintro ⟨hall, hbytes⟩
    rw [hall]
    exact hwhole.2 hbytes

end Write

/-- **What a write puts on the bus.** With a FIFO of any depth, for every
address and every data string that is not empty, over all the ways the bus
can take entries out: every write that returns has made the controller
accept exactly the caller's bytes, if and only if the address is no longer
than the FIFO is deep and no byte of the data has its top bit set. And every
write can return, from wherever it has come. -/
theorem write_exact {opened : BitVec 32} (hopened : opened ≠ 0) (haddr : addr ≠ [])
    (hdata : data ≠ []) (hD : 0 < D) (txAbrt stopDet : Bool) :
    ((∀ labels v ret, (machine D).run (begin opened addr data txAbrt stopDet) labels = some v →
        v.phase = .done ret → v.accepted.map decode = addrEntries addr ++ dataEntries data) ↔
      addr.length ≤ D ∧ ∀ b ∈ data, b.toNat < 0x80) ∧
    ∀ labels v, (machine D).run (begin opened addr data txAbrt stopDet) labels = some v →
      ∃ more ret u, (machine D).run v more = some u ∧ u.phase = .done ret := by
  have hsound : Sound D (begin opened addr data txAbrt stopDet) :=
    sound_begin hopened haddr hdata
  have hphase : (begin opened addr data txAbrt stopDet).phase = .addr true addr data :=
    phase_begin hopened haddr hdata
  refine ⟨⟨fun hall => ?_, ?_⟩, fun labels v hrun => ?_⟩
  · -- a write that returns shows what its bytes are
    have hbytes : ∀ b ∈ data, b.toNat < 0x80 := by
      obtain ⟨more, ret, v, hrun, hdone⟩ := completes hD hsound
      exact ((accepted_iff hopened haddr hdata hrun hdone).1 (hall _ _ _ hrun hdone)).2
    refine ⟨?_, hbytes⟩
    by_contra hlong
    -- and one in which the bus is slow, that the address does not fit
    obtain ⟨n, v, v', hrun, hroom, hstep⟩ := exists_not_room (D := D) hphase
      (by dsimp only [begin, List.length_nil]; omega) (Nat.zero_le _)
    have hkeep : ∀ u a u', Sound D u → (machine D).step u a = some u' → Sound D u' :=
      fun _ _ _ hu hstep => (stepped hu hstep).sound
    have hv := hkeep _ _ _ (Machine.inv_of_run_of_step hkeep hsound hrun) hstep
    obtain ⟨more, ret, u, hmore, hdone⟩ := completes hD hv
    have hrun' := (Machine.run_append_of_run hrun).trans
      ((Machine.run_cons_of_step hstep).trans hmore)
    have halong := ((accepted_iff hopened haddr hdata hrun' hdone).1 (hall _ _ _ hrun' hdone)).1
    rw [Machine.along_append_of_run hrun] at halong
    exact hroom halong.2.1
  · rintro ⟨hle, hbytes⟩ labels v ret hrun hdone
    refine (accepted_iff hopened haddr hdata hrun hdone).2 ⟨along_room hsound ?_, hbytes⟩
    intro first rest data' hphase'
    obtain ⟨-, rfl, -⟩ := Phase.addr.inj (hphase.symm.trans hphase')
    dsimp only [begin, List.length_nil]
    omega
  · have hv := Machine.inv_of_run_of_step (I := Sound D)
      (fun _ _ _ hu hstep => (stepped hu hstep).sound) hsound hrun
    exact completes hD hv

/-- Two bytes each, into a FIFO of two: it is full when the data come. -/
def twoBytes : List Move :=
  [.driver, .driver, .driver, .drain, .driver, .driver, .drain, .driver, .driver, .drain, .drain,
    .driver, .stopDet, .driver]

theorem write_exact_two :
    ∃ v, (machine 2).run (begin 1 [0x10, 0x11] [0x20, 0x21] false false) twoBytes = some v ∧
      v.accepted.map decode = [⟨0x10, false, false, true⟩, ⟨0x11, false, false, false⟩,
        ⟨0x20, false, false, false⟩, ⟨0x21, false, true, false⟩] := by
  have hopened : (1 : BitVec 32) ≠ 0 := by decide
  have hall := (write_exact hopened (List.cons_ne_nil 0x10 [0x11]) (List.cons_ne_nil 0x20 [0x21])
    Nat.two_pos false false).1.2 (by decide)
  obtain ⟨v, hrun, hdone⟩ : ∃ v, (machine 2).run
      (begin 1 [0x10, 0x11] [0x20, 0x21] false false) twoBytes = some v ∧
    v.phase = .done retOk := ⟨_, rfl, rfl⟩
  exact ⟨v, hrun, (hall _ v retOk hrun hdone).trans (by decide)⟩

/-- **A byte of 0x80** is accepted as a read with a STOP and a RESTART; and
**an address of two bytes** loses the second in a FIFO of one, while the bus
is slow. -/
theorem write_lost :
    (∃ v, (machine 8).run (begin 1 [0x10] [0x80, 0x01] false false)
        [.driver, .driver, .driver, .driver, .driver, .drain, .drain, .drain, .driver, .stopDet,
          .driver] = some v ∧ v.phase = .done retOk ∧
      v.accepted.map decode =
        [⟨0x10, false, false, true⟩, ⟨0x80, true, true, true⟩, ⟨0x01, false, true, false⟩]) ∧
    (∃ v, (machine 1).run (begin 1 [0x10, 0x11] [0x20] false false)
        [.driver, .driver, .drain, .driver, .driver, .drain, .driver, .stopDet, .driver] = some v ∧
      v.phase = .done retOk ∧
      v.accepted.map decode = [⟨0x10, false, false, true⟩, ⟨0x20, false, true, false⟩]) :=
  ⟨⟨_, rfl, rfl, by decide⟩, ⟨_, rfl, rfl, by decide⟩⟩

end I2c

end Hgsdk

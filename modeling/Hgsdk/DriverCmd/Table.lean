import Hgsdk.DriverCmd.Model
import Mathlib.Algebra.Order.BigOperators.Group.Finset
import Mathlib.Data.Finset.Option
/-!
# The table is a set

Whatever is registered and unregistered, the table holds a set of at most
eight pairs of a handler and a word, and the two functions add to it and
take from it. A rejected registration does not change the set, although it
may move a pair to another slot.
-/

namespace Hgsdk

namespace DriverCmd

variable {H : Type} {t t' : Table H} {hdl : H} {data : BitVec 32} {i j : Slot}

/-! ### The set -/

/-- What is in a slot. -/
def Hook.pair (k : Hook H) : Option (H × BitVec 32) := k.hdl.map (·, k.priv)

theorem Hook.pair_eq_some {k : Hook H} : k.pair = some (hdl, data) ↔ k.Is hdl data := by
  rw [pair, Option.map_eq_some_iff]
  constructor
  · rintro ⟨h, hh, heq⟩
    obtain ⟨rfl, rfl⟩ := Prod.mk.inj heq
    exact ⟨hh, rfl⟩
  · rintro ⟨hh, rfl⟩
    exact ⟨hdl, hh, rfl⟩

theorem Hook.is_mk {h : H} {d : BitVec 32} : (Hook.mk d (some h)).Is hdl data ↔
    hdl = h ∧ data = d :=
  ⟨fun ⟨hh, hd⟩ => ⟨(Option.some.inj hh).symm, hd.symm⟩,
    fun ⟨hh, hd⟩ => ⟨congrArg some hh.symm, hd.symm⟩⟩

theorem Hook.not_is_empty : ¬ (Hook.empty : Hook H).Is hdl data := fun h => nomatch h.1

/-- **The table is well formed**: no pair is in two slots, and a slot that
is not used has the word 0. -/
structure Wf (t : Table H) : Prop where
  once : ∀ i j hdl data, (t i).Is hdl data → (t j).Is hdl data → i = j
  unused : ∀ i, (t i).hdl = none → (t i).priv = 0

theorem wf_zero : Wf (Table.zero : Table H) :=
  ⟨fun _ _ _ _ h => absurd h Hook.not_is_empty, fun _ _ => rfl⟩

theorem Wf.free_iff (h : Wf t) : (t i).Free ↔ (t i).hdl = none :=
  ⟨And.left, fun hnone => ⟨hnone, h.unused i hnone⟩⟩

/-- A slot that is not free holds a pair. -/
theorem Wf.exists_is (h : Wf t) (hi : ¬ (t i).Free) : ∃ hdl data, (t i).Is hdl data := by
  rw [h.free_iff] at hi
  obtain ⟨hdl, hhdl⟩ := Option.ne_none_iff_exists'.1 hi
  exact ⟨hdl, (t i).priv, hhdl, rfl⟩

/-- It stays so where a slot gets a pair that is nowhere else. -/
theorem Wf.fill (h : Wf t) (hnew : ∀ j, ¬ (t j).Is hdl data) :
    Wf (Function.update t i ⟨data, some hdl⟩) where
  once k l hdl' data' hk hl := by
    rw [Function.update_apply] at hk hl
    split at hk <;> split at hl
    case isTrue.isTrue hki hli => exact hki.trans hli.symm
    case isTrue.isFalse hki hli =>
      obtain ⟨rfl, rfl⟩ := Hook.is_mk.1 hk
      exact absurd hl (hnew l)
    case isFalse.isTrue hki hli =>
      obtain ⟨rfl, rfl⟩ := Hook.is_mk.1 hl
      exact absurd hk (hnew k)
    case isFalse.isFalse hki hli => exact h.once k l hdl' data' hk hl
  unused k hk := by
    rw [Function.update_apply] at hk ⊢
    split at hk
    · exact nomatch hk
    · rename_i hki
      rw [if_neg hki]
      exact h.unused k hk

/-- It stays so where a slot is cleared. -/
theorem Wf.clear (h : Wf t) : Wf (Function.update t i .empty) where
  once k l hdl' data' hk hl := by
    rw [Function.update_apply] at hk hl
    split at hk
    · exact absurd hk Hook.not_is_empty
    · split at hl
      · exact absurd hl Hook.not_is_empty
      · exact h.once k l hdl' data' hk hl
  unused k hk := by
    rw [Function.update_apply] at hk ⊢
    split
    · rfl
    · rename_i hki
      rw [if_neg hki] at hk
      exact h.unused k hk

variable [DecidableEq H]

/-- **The pairs of the table.** -/
def pairs (t : Table H) : Finset (H × BitVec 32) :=
  Finset.univ.biUnion fun i => (t i).pair.toFinset

theorem mem_pairs : (hdl, data) ∈ pairs t ↔ ∃ i, (t i).Is hdl data := by
  simp [pairs, Hook.pair_eq_some]

theorem card_pairs_of_le (is : Finset Slot) :
    (is.biUnion fun i => (t i).pair.toFinset).card ≤ is.card := by
  have hle := Finset.card_biUnion_le_card_mul is (fun i => (t i).pair.toFinset) 1 fun i _ => by
    cases (t i).pair <;> simp
  rwa [mul_one] at hle

/-- There are at most eight. -/
theorem card_pairs_le (t : Table H) : (pairs t).card ≤ 8 := card_pairs_of_le Finset.univ

/-- **Eight pairs are stored** where no slot is free. -/
theorem Wf.card_eq_eight (h : Wf t) : (pairs t).card = 8 ↔ ∀ i, ¬ (t i).Free := by
  constructor
  · intro hcard i hfree
    -- the pairs are in the other slots
    have hsub : pairs t ⊆ (Finset.univ.erase i).biUnion fun k => (t k).pair.toFinset := by
      rintro ⟨hdl, data⟩ hmem
      obtain ⟨k, hk⟩ := mem_pairs.1 hmem
      have hki : k ≠ i := by
        rintro rfl
        exact nomatch hk.1.symm.trans hfree.1
      rw [Finset.mem_biUnion]
      refine ⟨k, Finset.mem_erase.2 ⟨hki, Finset.mem_univ k⟩, ?_⟩
      rw [Option.mem_toFinset]
      exact Hook.pair_eq_some.2 hk
    have herase : (Finset.univ.erase i : Finset Slot).card = 7 := by
      rw [Finset.card_erase_of_mem (Finset.mem_univ i), Finset.card_univ, Fintype.card_fin]
    have hle := (Finset.card_le_card hsub).trans (card_pairs_of_le _)
    omega
  · intro hused
    choose f g hfg using fun k => h.exists_is (hused k)
    have hinj : Function.Injective fun k => (f k, g k) := by
      intro k l hkl
      obtain ⟨hf, hg⟩ := Prod.mk.inj hkl
      exact h.once k l (f k) (g k) (hfg k) (hf ▸ hg ▸ hfg l)
    have heq : pairs t = Finset.univ.image fun k => (f k, g k) := by
      ext ⟨hdl, data⟩
      rw [mem_pairs, Finset.mem_image]
      constructor
      · rintro ⟨k, hk⟩
        refine ⟨k, Finset.mem_univ k, ?_⟩
        rw [← Option.some.injEq, ← Hook.pair_eq_some.2 hk, Hook.pair_eq_some.2 (hfg k)]
      · rintro ⟨k, -, hk⟩
        obtain ⟨rfl, rfl⟩ := Prod.mk.inj hk
        exact ⟨k, hfg k⟩
    rw [heq, Finset.card_image_of_injective _ hinj, Finset.card_univ, Fintype.card_fin]

/-! ### What a call can do -/

/-- The slots in front of one. -/
def below (j : Slot) : List Slot := (List.finRange 8).take j

/-- The slots behind one. -/
def above (j : Slot) : List Slot := (List.finRange 8).drop (j + 1)

theorem finRange_eq (j : Slot) : List.finRange 8 = below j ++ j :: above j := by
  revert j
  decide

theorem mem_below : i ∈ below j ↔ i < j := by
  revert i j
  decide

theorem pairwise_below (j : Slot) : (below j).Pairwise (· < ·) := by
  revert j
  decide

/-- Once it has a slot, the loop passes the slots without the pair. -/
theorem registerLoop_append_some (k : Slot) (is rest : List Slot)
    (hnew : ∀ i ∈ is, ¬ (t i).Is hdl data) :
    registerLoop hdl data (is ++ rest) (some k) t = registerLoop hdl data rest (some k) t := by
  induction is with
  | nil => rfl
  | cons i is ih =>
    rw [List.cons_append, registerLoop, if_neg (hnew i List.mem_cons_self),
      if_neg fun h => nomatch h.2]
    exact ih fun l hl => hnew l (List.mem_cons_of_mem i hl)

/-- Before it has a slot, it takes the first free one, if there is one. -/
theorem registerLoop_append_none {is : List Slot} (rest : List Slot)
    (hlt : is.Pairwise (· < ·)) (hnew : ∀ i ∈ is, ¬ (t i).Is hdl data) :
    (∃ i ∈ is, (t i).Free ∧ (∀ k ∈ is, (t k).Free → i ≤ k) ∧
      registerLoop hdl data (is ++ rest) none t =
        registerLoop hdl data rest (some i) (Function.update t i ⟨data, some hdl⟩)) ∨
    (∀ i ∈ is, ¬ (t i).Free) ∧
      registerLoop hdl data (is ++ rest) none t = registerLoop hdl data rest none t := by
  induction is with
  | nil => exact Or.inr ⟨nofun, rfl⟩
  | cons i is ih =>
    obtain ⟨hi, hlt⟩ := List.pairwise_cons.1 hlt
    have hrest : ∀ l ∈ is, ¬ (t l).Is hdl data := fun l hl => hnew l (List.mem_cons_of_mem i hl)
    rw [List.cons_append, registerLoop, if_neg (hnew i List.mem_cons_self)]
    by_cases hfree : (t i).Free
    · rw [if_pos ⟨hfree, rfl⟩]
      have hfirst : ∀ k ∈ i :: is, (t k).Free → i ≤ k :=
        List.forall_mem_cons.2 ⟨fun _ => le_rfl, fun k hk _ => (hi k hk).le⟩
      refine Or.inl ⟨i, List.mem_cons_self, hfree, hfirst, registerLoop_append_some _ _ _ ?_⟩
      intro l hl
      rw [Function.update_of_ne (hi l hl).ne']
      exact hrest l hl
    · rw [if_neg fun h => hfree h.1]
      obtain ⟨k, hk, hkfree, hfirst, heq⟩ | ⟨hnone, heq⟩ := ih hlt hrest
      · have hfirst' : ∀ l ∈ i :: is, (t l).Free → k ≤ l :=
          List.forall_mem_cons.2 ⟨fun h => absurd h hfree, hfirst⟩
        exact Or.inl ⟨k, List.mem_cons_of_mem i hk, hkfree, hfirst', heq⟩
      · exact Or.inr ⟨List.forall_mem_cons.2 ⟨hfree, hnone⟩, heq⟩

/-- **What a registration can do.** -/
inductive Registered (t : Table H) (hdl : H) (data : BitVec 32) : CInt × Table H → Prop
  | again {j : Slot} (hj : (t j).Is hdl data) (hfront : ∀ i < j, ¬ (t i).Free) :
    Registered t hdl data (-eExist, t)
  | moved {i j : Slot} (hj : (t j).Is hdl data) (hij : i < j) (hfree : (t i).Free)
      (hfirst : ∀ k < j, (t k).Free → i ≤ k) :
    Registered t hdl data
      (-eExist, Function.update (Function.update t i ⟨data, some hdl⟩) j .empty)
  | added {i : Slot} (hnew : ∀ j, ¬ (t j).Is hdl data) (hfree : (t i).Free) :
    Registered t hdl data (0, Function.update t i ⟨data, some hdl⟩)
  | full (hnew : ∀ j, ¬ (t j).Is hdl data) (hfull : ∀ i, ¬ (t i).Free) :
    Registered t hdl data (-eNomem, t)

/-- **A registration does one of these.** -/
theorem Wf.registered (h : Wf t) (hdl : H) (data : BitVec 32) :
    Registered t hdl data (driverCmdHdlRegister t (some hdl) data) := by
  rw [driverCmdHdlRegister]
  by_cases hex : ∃ j, (t j).Is hdl data
  · obtain ⟨j, hj⟩ := hex
    -- the pair is in no slot in front of this one
    have hnew : ∀ i ∈ below j, ¬ (t i).Is hdl data := fun i hi his =>
      (mem_below.1 hi).ne (h.once i j hdl data his hj)
    rw [finRange_eq j]
    obtain ⟨i, hi, hfree, hfirst, heq⟩ | ⟨hnone, heq⟩ :=
      registerLoop_append_none (j :: above j) (pairwise_below j) hnew
    · have hij : i < j := mem_below.1 hi
      rw [heq, registerLoop, Function.update_of_ne hij.ne', if_pos hj, if_pos nofun]
      exact .moved hj hij hfree fun k hk => hfirst k (mem_below.2 hk)
    · rw [heq, registerLoop, if_pos hj, if_neg fun hne => hne rfl]
      exact .again hj fun i hi => hnone i (mem_below.2 hi)
  · have hnew : ∀ j, ¬ (t j).Is hdl data := not_exists.1 hex
    have hall := registerLoop_append_none [] (List.pairwise_lt_finRange 8) fun i _ => hnew i
    rw [List.append_nil] at hall
    obtain ⟨i, -, hfree, -, heq⟩ | ⟨hnone, heq⟩ := hall
    · rw [heq]
      exact .added hnew hfree
    · rw [heq]
      exact .full hnew fun i => hnone i (List.mem_finRange i)

/-- **What an unregistration can do.** -/
inductive Unregistered (t : Table H) (hdl : H) : CInt × Table H → Prop
  | removed {i : Slot} (hi : (t i).hdl = some hdl) :
    Unregistered t hdl (0, Function.update t i .empty)
  | missing (hnone : ∀ i, (t i).hdl ≠ some hdl) : Unregistered t hdl (-eInval, t)

theorem unregisterLoop_cases (t : Table H) (hdl : H) (is : List Slot) :
    (∃ i, (t i).hdl = some hdl ∧ unregisterLoop hdl t is = (0, Function.update t i .empty)) ∨
    (∀ i ∈ is, (t i).hdl ≠ some hdl) ∧ unregisterLoop hdl t is = (-eInval, t) := by
  induction is with
  | nil => exact Or.inr ⟨nofun, rfl⟩
  | cons i is ih =>
    rw [unregisterLoop]
    by_cases hi : (t i).hdl = some hdl
    · rw [if_pos hi]
      exact Or.inl ⟨i, hi, rfl⟩
    · rw [if_neg hi]
      exact ih.imp_right fun ⟨hnone, heq⟩ => ⟨List.forall_mem_cons.2 ⟨hi, hnone⟩, heq⟩

/-- **An unregistration does one of these.** -/
theorem unregistered (t : Table H) (hdl : H) :
    Unregistered t hdl (driverCmdHdlUnregister t (some hdl)) := by
  rw [driverCmdHdlUnregister]
  obtain ⟨i, hi, heq⟩ | ⟨hnone, heq⟩ := unregisterLoop_cases t hdl (List.finRange 8)
  · rw [heq]
    exact .removed hi
  · rw [heq]
    exact .missing fun i => hnone i (List.mem_finRange i)

/-! ### What it does to the set -/

theorem mem_pairs_update {k : Hook H} {hdl' : H} {data' : BitVec 32} :
    (hdl', data') ∈ pairs (Function.update t i k) ↔
      k.Is hdl' data' ∨ ∃ l ≠ i, (t l).Is hdl' data' := by
  rw [mem_pairs]
  constructor
  · rintro ⟨l, hl⟩
    by_cases hli : l = i
    · rw [hli, Function.update_self] at hl
      exact Or.inl hl
    · rw [Function.update_of_ne hli] at hl
      exact Or.inr ⟨l, hli, hl⟩
  · rintro (hk | ⟨l, hli, hl⟩)
    · exact ⟨i, by rwa [Function.update_self]⟩
    · exact ⟨l, by rwa [Function.update_of_ne hli]⟩

/-- **A pair in a free slot** is added to the set. -/
theorem pairs_fill (hfree : (t i).Free) :
    pairs (Function.update t i ⟨data, some hdl⟩) = insert (hdl, data) (pairs t) := by
  ext ⟨hdl', data'⟩
  rw [mem_pairs_update, Finset.mem_insert, mem_pairs, Hook.is_mk, Prod.mk.injEq]
  refine or_congr_right ⟨fun ⟨l, _, hl⟩ => ⟨l, hl⟩, fun ⟨l, hl⟩ => ⟨l, ?_, hl⟩⟩
  rintro rfl
  exact nomatch hl.1.symm.trans hfree.1

/-- **A cleared slot** takes its pair from the set, and no other. -/
theorem Wf.pairs_clear (h : Wf t) (hi : (t i).Is hdl data) :
    pairs (Function.update t i .empty) = (pairs t).erase (hdl, data) := by
  ext ⟨hdl', data'⟩
  rw [mem_pairs_update, or_iff_right Hook.not_is_empty, Finset.mem_erase, mem_pairs]
  constructor
  · rintro ⟨l, hli, hl⟩
    refine ⟨fun heq => hli ?_, l, hl⟩
    obtain ⟨rfl, rfl⟩ := Prod.mk.inj heq
    exact h.once l i _ _ hl hi
  · rintro ⟨hne, l, hl⟩
    refine ⟨l, ?_, hl⟩
    rintro rfl
    rw [← Hook.pair_eq_some] at hi hl
    exact hne (Option.some.inj (hl.symm.trans hi))

/-- **A pair that moves** stays in the set: clear first, fill then. -/
theorem Wf.moved (h : Wf t) (hj : (t j).Is hdl data) (hij : i < j) (hfree : (t i).Free) :
    Wf (Function.update (Function.update t i ⟨data, some hdl⟩) j .empty) ∧
      pairs (Function.update (Function.update t i ⟨data, some hdl⟩) j .empty) = pairs t := by
  rw [Function.update_comm hij.ne]
  have hfree' : (Function.update t j .empty i).Free := by rwa [Function.update_of_ne hij.ne]
  constructor
  · refine h.clear.fill fun l hl => ?_
    have hmem : (hdl, data) ∈ pairs (Function.update t j .empty) := mem_pairs.2 ⟨l, hl⟩
    rw [h.pairs_clear hj] at hmem
    exact Finset.notMem_erase _ _ hmem
  · rw [pairs_fill hfree', h.pairs_clear hj, Finset.insert_erase (mem_pairs.2 ⟨j, hj⟩)]

/-! ### The set and its two operations -/

/-- **A registration, on the set** `S`: what it returns and what it leaves. -/
def Registers (hdl : Option H) (data : BitVec 32) (S : Finset (H × BitVec 32)) (ret : CInt)
    (S' : Finset (H × BitVec 32)) : Prop :=
  match hdl with
  | none => ret = -eInval ∧ S' = S
  | some hdl =>
    if (hdl, data) ∈ S then ret = -eExist ∧ S' = S
    else if S.card = 8 then ret = -eNomem ∧ S' = S
    else ret = 0 ∧ S' = insert (hdl, data) S

/-- **An unregistration, on the set** `S`. -/
def Unregisters (hdl : Option H) (S : Finset (H × BitVec 32)) (ret : CInt)
    (S' : Finset (H × BitVec 32)) : Prop :=
  match hdl with
  | none => ret = -eInval ∧ S' = S
  | some hdl =>
    (∃ data, (hdl, data) ∈ S ∧ ret = 0 ∧ S' = S.erase (hdl, data)) ∨
      (∀ data, (hdl, data) ∉ S) ∧ ret = -eInval ∧ S' = S

theorem Wf.registers (h : Wf t) (hdl : Option H) (data : BitVec 32) :
    Wf (driverCmdHdlRegister t hdl data).2 ∧
      Registers hdl data (pairs t) (driverCmdHdlRegister t hdl data).1
        (pairs (driverCmdHdlRegister t hdl data).2) := by
  cases hdl with
  | none => exact ⟨h, rfl, rfl⟩
  | some hdl =>
    generalize hr : driverCmdHdlRegister t (some hdl) data = r
    have hcases := h.registered hdl data
    rw [hr] at hcases
    rw [Registers]
    cases hcases with
    | again hj =>
      rw [if_pos (mem_pairs.2 ⟨_, hj⟩)]
      exact ⟨h, rfl, rfl⟩
    | moved hj hij hfree =>
      obtain ⟨hwf, hpairs⟩ := h.moved hj hij hfree
      rw [if_pos (mem_pairs.2 ⟨_, hj⟩)]
      exact ⟨hwf, rfl, hpairs⟩
    | added hnew hfree =>
      rw [if_neg fun hmem => (mem_pairs.1 hmem).elim hnew,
        if_neg fun hcard => h.card_eq_eight.1 hcard _ hfree]
      exact ⟨h.fill hnew, rfl, pairs_fill hfree⟩
    | full hnew hfull =>
      rw [if_neg fun hmem => (mem_pairs.1 hmem).elim hnew, if_pos (h.card_eq_eight.2 hfull)]
      exact ⟨h, rfl, rfl⟩

theorem Wf.unregisters (h : Wf t) (hdl : Option H) :
    Wf (driverCmdHdlUnregister t hdl).2 ∧
      Unregisters hdl (pairs t) (driverCmdHdlUnregister t hdl).1
        (pairs (driverCmdHdlUnregister t hdl).2) := by
  cases hdl with
  | none => exact ⟨h, rfl, rfl⟩
  | some hdl =>
    generalize hr : driverCmdHdlUnregister t (some hdl) = r
    have hcases := unregistered t hdl
    rw [hr] at hcases
    cases hcases with
    | @removed i hi =>
      have his : (t i).Is hdl (t i).priv := ⟨hi, rfl⟩
      exact ⟨h.clear, Or.inl ⟨(t i).priv, mem_pairs.2 ⟨i, his⟩, rfl, h.pairs_clear his⟩⟩
    | missing hnone =>
      refine ⟨h, Or.inr ⟨fun data hmem => ?_, rfl, rfl⟩⟩
      obtain ⟨i, hi⟩ := mem_pairs.1 hmem
      exact hnone i hi.1

/-- **The table stays well formed**, whatever is called. -/
theorem Wf.of_run {as : List (Call H)} (hrun : hooks.run Table.zero as = some t) : Wf t := by
  refine Machine.inv_of_run_of_step (I := Wf) ?_ wf_zero hrun
  intro s a s' h hstep
  cases a with
  | register hdl data =>
    obtain rfl : _ = s' := Option.some.inj hstep
    exact (h.registers hdl data).1
  | unregister hdl =>
    obtain rfl : _ = s' := Option.some.inj hstep
    exact (h.unregisters hdl).1

/-- **The table is a set of at most eight pairs**, after any calls: no pair
is in two slots, an unused slot has the word 0, and the next registration
or unregistration does to the set of pairs what it says. -/
theorem table_is_set (as : List (Call H)) (hrun : hooks.run Table.zero as = some t) :
    ((∀ i j hdl data, (t i).Is hdl data → (t j).Is hdl data → i = j) ∧
        (∀ i, (t i).hdl = none → (t i).priv = 0)) ∧
      (pairs t).card ≤ 8 ∧
      (∀ hdl data, Registers hdl data (pairs t) (driverCmdHdlRegister t hdl data).1
        (pairs (driverCmdHdlRegister t hdl data).2)) ∧
      ∀ hdl, Unregisters hdl (pairs t) (driverCmdHdlUnregister t hdl).1
        (pairs (driverCmdHdlUnregister t hdl).2) := by
  have h := Wf.of_run hrun
  exact ⟨⟨h.once, h.unused⟩, card_pairs_le t, fun hdl data => (h.registers hdl data).2,
    fun hdl => (h.unregisters hdl).2⟩

/-- A handler behind a hole is registered once more: the set stays. -/
theorem table_is_set_hole : ∃ t : Table ℕ,
    hooks.run Table.zero [.register (some 1) 0, .register (some 2) 0, .unregister (some 1)] =
        some t ∧
      pairs t = {(2, 0)} ∧
      Registers (some 2) 0 (pairs t) (driverCmdHdlRegister t (some 2) 0).1
        (pairs (driverCmdHdlRegister t (some 2) 0).2) := by
  refine ⟨_, rfl, by decide, ?_⟩
  exact (table_is_set [.register (some 1) 0, .register (some 2) 0, .unregister (some 1)] rfl).2.2.1
    (some 2) 0

end DriverCmd

end Hgsdk

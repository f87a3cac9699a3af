import Hgsdk.DriverCmd.Table
/-!
# A rejected registration and the order of dispatch

A command goes to the handlers in the order of their slots until one of
them answers, so the order of the slots is their priority. A registration
that finds its pair in the table already is rejected. If there is a free
slot in front of the pair, it has moved the pair there all the same.
-/

namespace Hgsdk

namespace DriverCmd

variable {H : Type} {t : Table H} {hdl : H} {data : BitVec 32} {i j : Slot}

/-! ### Dispatch goes by the pairs in order -/

/-- What is in these slots, in order. -/
def entriesAt (t : Table H) (is : List Slot) : List (H × BitVec 32) :=
  is.filterMap fun i => (t i).pair

/-- What is in the table, in the order of the slots. -/
def entries (t : Table H) : List (H × BitVec 32) := entriesAt t (List.finRange 8)

theorem entriesAt_append (t : Table H) (is js : List Slot) :
    entriesAt t (is ++ js) = entriesAt t is ++ entriesAt t js := List.filterMap_append

theorem entriesAt_cons_of_none {is : List Slot} (hi : (t i).hdl = none) :
    entriesAt t (i :: is) = entriesAt t is := by
  simp only [entriesAt, List.filterMap_cons, Hook.pair, hi, Option.map_none]

theorem entriesAt_cons_of_is {is : List Slot} (hi : (t i).Is hdl data) :
    entriesAt t (i :: is) = (hdl, data) :: entriesAt t is := by
  simp only [entriesAt, List.filterMap_cons, Hook.pair_eq_some.2 hi]

/-- A command is offered to these pairs, in order. -/
def offer (answers : Answers H) (param : DriverCmdParam) :
    List (H × BitVec 32) → (called : List (H × BitVec 32)) → CInt × List (H × BitVec 32)
  | [], called => (-maxErrno, called)
  | (hdl, priv) :: rest, called =>
    let ret := answers called hdl priv param
    if ret ≠ -maxErrno then (ret, called ++ [(hdl, priv)])
    else offer answers param rest (called ++ [(hdl, priv)])

theorem procLoop_none (answers : Answers H) (is : List Slot) (called : List (H × BitVec 32)) :
    procLoop answers t none is (-maxErrno) called = (-maxErrno, called) := by
  induction is with
  | nil => rfl
  | cons i is ih =>
    cases hi : (t i).hdl <;> simp only [procLoop, hi] <;> exact ih

theorem procLoop_some (answers : Answers H) (param : DriverCmdParam) (is : List Slot)
    (called : List (H × BitVec 32)) :
    procLoop answers t (some param) is (-maxErrno) called =
      offer answers param (entriesAt t is) called := by
  induction is generalizing called with
  | nil => rfl
  | cons i is ih =>
    cases hi : (t i).hdl with
    | none =>
      rw [entriesAt_cons_of_none hi]
      simp only [procLoop, hi]
      exact ih called
    | some hdl =>
      rw [entriesAt_cons_of_is ⟨hi, rfl⟩]
      simp only [procLoop, hi, offer]
      -- the loop goes on only with `ret = -MAX_ERRNO`
      by_cases hret : answers called hdl (t i).priv param = -maxErrno
      · rw [if_neg fun h => h hret, if_neg fun h => h hret, hret]
        exact ih _
      · rw [if_pos hret, if_pos hret]

/-- **Dispatch goes by the pairs in order** and by nothing else. -/
theorem driverCmdHdlProc_congr {t' : Table H} (h : entries t' = entries t) (answers : Answers H)
    (param : Option DriverCmdParam) :
    driverCmdHdlProc answers t' param = driverCmdHdlProc answers t param := by
  cases param with
  | none => rw [driverCmdHdlProc, driverCmdHdlProc, procLoop_none, procLoop_none]
  | some param =>
    rw [driverCmdHdlProc, driverCmdHdlProc, procLoop_some, procLoop_some]
    exact congrArg (offer answers param · []) h

/-- Where every handler declines, all are asked. -/
theorem offer_declined (param : DriverCmdParam) (es called : List (H × BitVec 32)) :
    offer (fun _ _ _ _ => -maxErrno) param es called = (-maxErrno, called ++ es) := by
  induction es generalizing called with
  | nil => rw [offer, List.append_nil]
  | cons e es ih => rw [offer, if_neg fun h => h rfl, ih, List.append_assoc, List.singleton_append]

/-- **Two tables that dispatch alike** have the pairs in one order. -/
theorem driverCmdHdlProc_eq_iff {t' : Table H} :
    (∀ answers param, driverCmdHdlProc answers t' param = driverCmdHdlProc answers t param) ↔
      entries t' = entries t := by
  refine ⟨fun h => ?_, driverCmdHdlProc_congr⟩
  have hall := h (fun _ _ _ _ => -maxErrno) (some ⟨0, []⟩)
  rw [driverCmdHdlProc, driverCmdHdlProc, procLoop_some, procLoop_some, offer_declined,
    offer_declined] at hall
  exact congrArg Prod.snd hall

/-! ### A pair that moves -/

/-- The slots between two. -/
def between (i j : Slot) : List Slot := (List.finRange 8).filter fun k => i < k ∧ k < j

theorem mem_between {k : Slot} : k ∈ between i j ↔ i < k ∧ k < j := by
  simp [between]

theorem finRange_eq_between (hij : i < j) :
    List.finRange 8 = below i ++ i :: (between i j ++ j :: above j) := by
  revert i j
  decide

/-- A slot that is not among them does not matter. -/
theorem entriesAt_update (k : Hook H) {is : List Slot} (hi : i ∉ is) :
    entriesAt (Function.update t i k) is = entriesAt t is := by
  refine List.filterMap_congr fun l hl => ?_
  have hli : l ≠ i := by
    rintro rfl
    exact hi hl
  rw [Function.update_of_ne hli]

theorem mem_above : i ∈ above j ↔ j < i := by
  revert i j
  decide

/-- The order before a pair moves. -/
theorem entries_of_is (hij : i < j) (hfree : (t i).Free) (hj : (t j).Is hdl data) :
    entries t = entriesAt t (below i) ++
      (entriesAt t (between i j) ++ (hdl, data) :: entriesAt t (above j)) := by
  rw [entries, finRange_eq_between hij, entriesAt_append, entriesAt_cons_of_none hfree.1,
    entriesAt_append, entriesAt_cons_of_is hj]

/-- The order after it has moved. -/
theorem entries_moved (hij : i < j) :
    entries (Function.update (Function.update t i ⟨data, some hdl⟩) j .empty) =
      entriesAt t (below i) ++
        (hdl, data) :: (entriesAt t (between i j) ++ entriesAt t (above j)) := by
  -- a slot other than these two is as it was
  have hkeep : ∀ is : List Slot, i ∉ is → j ∉ is →
      entriesAt (Function.update (Function.update t i ⟨data, some hdl⟩) j .empty) is =
        entriesAt t is := fun is hi hj => by
    rw [entriesAt_update _ hj, entriesAt_update _ hi]
  have hi : (Function.update (Function.update t i ⟨data, some hdl⟩) j .empty i).Is hdl data := by
    rw [Function.update_of_ne hij.ne, Function.update_self]
    exact ⟨rfl, rfl⟩
  have hj : (Function.update (Function.update t i ⟨data, some hdl⟩) j .empty j).hdl = none := by
    rw [Function.update_self]
    rfl
  rw [entries, finRange_eq_between hij, entriesAt_append, entriesAt_cons_of_is hi,
    entriesAt_append, entriesAt_cons_of_none hj, hkeep (below i), hkeep (between i j),
    hkeep (above j)]
  all_goals simp [mem_below, mem_between, mem_above, hij.le]

/-- An element passes over others only where there are none. -/
theorem append_cons_eq_cons_append_iff {α : Type*} {a : α} {l r : List α} (ha : a ∉ l) :
    a :: (l ++ r) = l ++ a :: r ↔ l = [] := by
  cases l with
  | nil => simp
  | cons b l =>
    refine iff_of_false (fun h => ha ?_) nofun
    rw [(List.cons.inj h).1]
    exact List.mem_cons_self

/-- **A pair that moves keeps the order** where it passes no other. -/
theorem Wf.entries_moved_iff (h : Wf t) (hij : i < j) (hfree : (t i).Free)
    (hj : (t j).Is hdl data) :
    entries (Function.update (Function.update t i ⟨data, some hdl⟩) j .empty) = entries t ↔
      ∀ k, i < k → k < j → (t k).Free := by
  have hnot : (hdl, data) ∉ entriesAt t (between i j) := by
    rw [entriesAt, List.mem_filterMap]
    rintro ⟨k, hk, hpair⟩
    exact (mem_between.1 hk).2.ne (h.once k j hdl data (Hook.pair_eq_some.1 hpair) hj)
  rw [entries_moved hij, entries_of_is hij hfree hj, List.append_cancel_left_eq,
    append_cons_eq_cons_append_iff hnot, entriesAt, List.filterMap_eq_nil_iff]
  simp only [mem_between, Hook.pair, Option.map_eq_none_iff, h.free_iff, and_imp]

/-! ### A rejected registration -/

variable [DecidableEq H]

/-- There is a free slot in front of the pair. -/
def Moves (t : Table H) (hdl : Option H) (data : BitVec 32) : Prop :=
  hdl ≠ none ∧ ∃ i j, i < j ∧ (t i).Free ∧ (t j).hdl = hdl ∧ (t j).priv = data

/-- There is another pair between that slot and the pair. -/
def Overtakes (t : Table H) (hdl : Option H) (data : BitVec 32) : Prop :=
  hdl ≠ none ∧
    ∃ i k j, i < k ∧ k < j ∧ (t i).Free ∧ ¬ (t k).Free ∧ (t j).hdl = hdl ∧ (t j).priv = data

omit [DecidableEq H] in
theorem Overtakes.moves {hdl : Option H} : Overtakes t hdl data → Moves t hdl data :=
  fun ⟨hh, i, _, j, hik, hkj, hfree, _, hj⟩ => ⟨hh, i, j, hik.trans hkj, hfree, hj⟩

/-- **A rejected registration leaves the table** as it was, after any calls,
unless there is a free slot in front of the pair; and commands go to the
handlers as before, unless the pair overtakes another. -/
theorem rejected_keeps_dispatch (as : List (Call H)) (hrun : hooks.run Table.zero as = some t)
    (hdl : Option H) (data : BitVec 32) :
    (((driverCmdHdlRegister t hdl data).1 ≠ 0 → (driverCmdHdlRegister t hdl data).2 = t) ↔
        ¬ Moves t hdl data) ∧
      (((driverCmdHdlRegister t hdl data).1 ≠ 0 → ∀ answers param,
          driverCmdHdlProc answers (driverCmdHdlRegister t hdl data).2 param =
            driverCmdHdlProc answers t param) ↔
        ¬ Overtakes t hdl data) := by
  have h := Wf.of_run hrun
  cases hdl with
  | none =>
    exact ⟨iff_of_true (fun _ => rfl) fun h => h.1 rfl,
      iff_of_true (fun _ _ _ => rfl) fun h => h.1 rfl⟩
  | some hdl =>
    generalize hr : driverCmdHdlRegister t (some hdl) data = r
    have hcases := h.registered hdl data
    rw [hr] at hcases
    -- where nothing moves, there is nothing to show
    have hstays : ¬ Moves t (some hdl) data → (r.1 ≠ 0 → r.2 = t) →
        ((r.1 ≠ 0 → r.2 = t) ↔ ¬ Moves t (some hdl) data) ∧
        ((r.1 ≠ 0 → ∀ answers param,
            driverCmdHdlProc answers r.2 param = driverCmdHdlProc answers t param) ↔
          ¬ Overtakes t (some hdl) data) := fun hnot heq =>
      ⟨iff_of_true heq hnot,
        iff_of_true (fun hne _ _ => by rw [heq hne]) fun hover => hnot hover.moves⟩
    cases hcases with
    | @again j hj hfront =>
      refine hstays ?_ fun _ => rfl
      rintro ⟨-, i, l, hil, hfree, hl⟩
      obtain rfl := h.once l j hdl data hl hj
      exact hfront i hil hfree
    | @moved i j hj hij hfree hfirst =>
      have hne : -eExist ≠ 0 := by decide
      constructor
      · refine iff_of_false (fun heq => ?_) fun hnot => hnot ⟨nofun, i, j, hij, hfree, hj⟩
        have hslot := congrFun (heq hne) j
        simp only [Function.update_self] at hslot
        rw [← hslot] at hj
        exact Hook.not_is_empty hj
      · rw [forall_prop_of_true hne, driverCmdHdlProc_eq_iff,
          h.entries_moved_iff hij hfree hj]
        constructor
        · rintro hpass ⟨-, l, k, m, hlk, hkm, hl, hk, hm⟩
          obtain rfl := h.once m j hdl data hm hj
          exact hk (hpass k ((hfirst l (hlk.trans hkm) hl).trans_lt hlk) hkm)
        · intro hnot k hik hkj
          by_contra hk
          exact hnot ⟨nofun, i, k, j, hik, hkj, hfree, hk, hj⟩
    | added hnew =>
      refine hstays ?_ fun hne => absurd rfl hne
      rintro ⟨-, _, l, _, _, hl⟩
      exact hnew l hl
    | full _ hfull =>
      refine hstays ?_ fun _ => rfl
      rintro ⟨-, i, _, _, hfree, _⟩
      exact hfull i hfree

/-- Of two handlers without a hole in front, the second is rejected. -/
theorem rejected_keeps_dispatch_without_hole : ∃ t : Table ℕ,
    hooks.run Table.zero [.register (some 1) 0, .register (some 2) 0] = some t ∧
      (driverCmdHdlRegister t (some 2) 0).1 = -eExist ∧
      (driverCmdHdlRegister t (some 2) 0).2 = t := by
  refine ⟨_, rfl, by decide, ?_⟩
  refine (rejected_keeps_dispatch [.register (some 1) 0, .register (some 2) 0] rfl
    (some 2) 0).1.2 ?_ (by decide)
  rintro ⟨-, i, j, hij, hfree, hj⟩
  revert i j
  decide

/-- **A rejected registration takes another's commands**: three handlers
are registered and the first is removed; the third is registered once
more, which is rejected, and answers before the second from then on. -/
theorem rejected_changes_dispatch : ∃ t : Table ℕ,
    hooks.run Table.zero [.register (some 1) 0, .register (some 2) 0, .register (some 3) 0,
        .unregister (some 1)] = some t ∧
      (driverCmdHdlRegister t (some 3) 0).1 = -eExist ∧
      (driverCmdHdlRegister t (some 3) 0).2 ≠ t ∧
      driverCmdHdlProc (fun _ hdl _ _ => BitVec.ofNat 32 hdl) t (some ⟨0, []⟩) =
        (2, [(2, 0)]) ∧
      driverCmdHdlProc (fun _ hdl _ _ => BitVec.ofNat 32 hdl)
        (driverCmdHdlRegister t (some 3) 0).2 (some ⟨0, []⟩) = (3, [(3, 0)]) :=
  ⟨_, rfl, by decide, by decide, by decide, by decide⟩

end DriverCmd

end Hgsdk

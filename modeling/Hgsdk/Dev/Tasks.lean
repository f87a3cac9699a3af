import Hgsdk.Dev.Registry
/-!
# The device manager under several tasks

Any number of tasks call `dev_register` and `dev_unregister`. Each
mutex-protected section is one step — the walk of `dev_get`,
`list_add_tail`, `list_del` — and so is each access to an object's
`dev_id` outside the mutex; between two steps of a task any other task
may move.

`dev_register` looks the id up in one section and links the object in
another. Its answer is only good if nobody links an object with the same
id in between.
-/

namespace Hgsdk

namespace Dev

variable {T D : Type} [DecidableEq T] [DecidableEq D]

/-- Where a task is, and what it has in hand there. -/
inductive Pc (D : Type) where
  | idle
  /-- `dev_register`, before its `dev_get`. -/
  | check (id : BitVec 32) (device : D)
  /-- `dev_get` has returned null, `dev_id` is not yet set. -/
  | stamp (id : BitVec 32) (device : D)
  /-- Before `list_add_tail`. -/
  | insert (id : BitVec 32) (device : D)
  /-- `dev_unregister`, before it reads `dev_id`. -/
  | lookup (device : D)
  /-- Before its `dev_get`. -/
  | find (device : D) (id : BitVec 32)
  /-- `dev_get` has returned `dev`; before `list_del`. -/
  | remove (device dev : D)
  deriving DecidableEq, Repr

namespace Pc

/-- The object a task is registering. -/
def registering : Pc D → Option D
  | check _ d | stamp _ d | insert _ d => some d
  | _ => none

/-- The id a task has found free and not yet linked its object under. -/
def pending : Pc D → Option (BitVec 32)
  | stamp id _ | insert id _ => some id
  | _ => none

end Pc

/-- What can be told from outside: a call returns, and an object comes off
the list. -/
inductive Event (D : Type) where
  | returned (op : Op D) (ret : CInt)
  | removed (id : BitVec 32)
  deriving DecidableEq, Repr

/-- How many registrations under `id` have returned `RET_OK` since an
object with that id was last taken off, from a log with the newest event
first. -/
def okSince (id : BitVec 32) : List (Event D) → ℕ
  | [] => 0
  | .removed i :: log => if i = id then 0 else okSince id log
  | .returned (.register i _) ret :: log =>
    (if i = id ∧ ret = retOk then 1 else 0) + okSince id log
  | .returned (.unregister _) _ :: log => okSince id log

/-- The manager, its tasks, and what has been seen of them. -/
structure Sys (T D : Type) where
  mgr : DevMgr D
  pc : T → Pc D
  log : List (Event D)

namespace Sys

/-- No task is in a call. -/
def start (mgr : DevMgr D) : Sys T D := ⟨mgr, fun _ => .idle, []⟩

def goto (s : Sys T D) (t : T) (pc : Pc D) : Sys T D :=
  { s with pc := Function.update s.pc t pc }

/-- The call of `t` returns. -/
def ret (s : Sys T D) (t : T) (op : Op D) (r : CInt) : Sys T D :=
  { s.goto t .idle with log := .returned op r :: s.log }

/-- Run a section of the manager. -/
def exec (s : Sys T D) {α : Type} (m : Cmd (DevMgr D) α) : Option (α × Sys T D) :=
  (m s.mgr).map fun (a, mgr) => (a, { s with mgr })

/-- The next step of `t`. -/
def move (s : Sys T D) (t : T) : Option (Sys T D) :=
  match s.pc t with
  | .idle => none
  | .check id d => do
    match ← s.exec (devGet id) with
    | (some _, s) => return s.ret t (.register id d) (-eExist)
    | (none, s) => return s.goto t (.stamp id d)
  | .stamp id d => do
    let (_, s) ← s.exec (setDevId d id)
    return s.goto t (.insert id d)
  | .insert id d => do
    let (_, s) ← s.exec (listAddTail d)
    return s.ret t (.register id d) retOk
  | .lookup d => return s.goto t (.find d (s.mgr.devId d))
  | .find d id => do
    match ← s.exec (devGet id) with
    | (some dev, s) => return s.goto t (.remove d dev)
    | (none, s) => return s.ret t (.unregister d) retOk
  | .remove d dev => do
    let id := s.mgr.devId dev
    let (_, s) ← s.exec (listDel dev)
    return { s with log := .removed id :: s.log }.ret t (.unregister d) retOk

/-- Entering a call. -/
def enter : Op D → Pc D
  | .register id d => .check id d
  | .unregister d => .lookup d

end Sys

/-- A task calls, or takes its next step. -/
inductive Act (T D : Type) where
  | call (t : T) (op : Op D)
  | step (t : T)

/-- The tasks, in any interleaving. A call returns at once where the
manager is not up. -/
def tasks : Machine (Sys T D) (Act T D) where
  step s
    | .call t op => match s.pc t with
      | .idle => some (if s.mgr.inited then s.goto t (Sys.enter op) else s.ret t op retErr)
      | _ => none
    | .step t => s.move t

/-- **Distinct objects**: a task registers an object that is not on the
list and that no other task is registering. -/
def DistinctObjects (s : Sys T D) : Act T D → Prop
  | .call _ (.register _ d) =>
    (∀ t, (s.pc t).registering ≠ some d) ∧ ∀ xs, Holds s.mgr xs → d ∉ xs
  | _ => True

/-- **One at a time**: a task looks an id up for registration while no
other task is between its look-up and its insertion for the same id. -/
def OneAtATime (s : Sys T D) : Act T D → Prop
  | .step t => match s.pc t with
    | .check id _ => ∀ u, (s.pc u).pending ≠ some id
    | _ => True
  | _ => True

/-- Two objects on the list carry the same id. -/
def Duplicate (s : DevMgr D) : Prop :=
  ∃ xs d e, Holds s xs ∧ d ∈ xs ∧ e ∈ xs ∧ d ≠ e ∧ s.devId d = s.devId e

/-! ### The steps of one task -/

namespace Sys

variable {s s' : Sys T D} {t : T} {d e : D} {id : BitVec 32} {mgr : DevMgr D} {r : CInt}

omit [DecidableEq D] in
@[simp] theorem goto_pc (s : Sys T D) (t : T) (pc : Pc D) : (s.goto t pc).pc t = pc :=
  Function.update_self ..

omit [DecidableEq T] [DecidableEq D] in
theorem exec_eq {α : Type} {m : Cmd (DevMgr D) α} {a : α} (h : m s.mgr = some (a, mgr)) :
    s.exec m = some (a, { s with mgr }) := by
  rw [exec, h]
  rfl

theorem move_check_found (hpc : s.pc t = .check id d) (h : devGet id s.mgr = some (some e, mgr)) :
    s.move t = some ({ s with mgr }.ret t (.register id d) (-eExist)) := by
  simp only [move, hpc, exec_eq h]
  rfl

theorem move_check_free (hpc : s.pc t = .check id d) (h : devGet id s.mgr = some (none, mgr)) :
    s.move t = some ({ s with mgr }.goto t (.stamp id d)) := by
  simp only [move, hpc, exec_eq h]
  rfl

theorem move_stamp (hpc : s.pc t = .stamp id d) :
    s.move t = some ({ s with
      mgr := { s.mgr with devId := Function.update s.mgr.devId d id } }.goto t (.insert id d)) := by
  simp only [move, hpc]
  rfl

theorem move_insert {u : Unit} (hpc : s.pc t = .insert id d)
    (h : listAddTail d s.mgr = some (u, mgr)) :
    s.move t = some ({ s with mgr }.ret t (.register id d) retOk) := by
  simp only [move, hpc, exec_eq h]
  rfl

theorem move_lookup (hpc : s.pc t = .lookup d) :
    s.move t = some (s.goto t (.find d (s.mgr.devId d))) := by
  simp only [move, hpc]
  rfl

theorem move_find_free (hpc : s.pc t = .find d id) (h : devGet id s.mgr = some (none, mgr)) :
    s.move t = some ({ s with mgr }.ret t (.unregister d) retOk) := by
  simp only [move, hpc, exec_eq h]
  rfl

theorem move_find_found (hpc : s.pc t = .find d id) (h : devGet id s.mgr = some (some e, mgr)) :
    s.move t = some ({ s with mgr }.goto t (.remove d e)) := by
  simp only [move, hpc, exec_eq h]
  rfl

theorem move_remove {u : Unit} (hpc : s.pc t = .remove d e)
    (h : listDel e s.mgr = some (u, mgr)) :
    s.move t = some ({ s with mgr, log := .removed (s.mgr.devId e) :: s.log }.ret t
      (.unregister d) retOk) := by
  simp only [move, hpc, exec_eq h]
  rfl

theorem move_remove_fault (hpc : s.pc t = .remove d e) (h : listDel e s.mgr = none) :
    s.move t = none := by
  simp only [move, hpc, exec, h]
  rfl

variable {op : Op D}

theorem step_call (hpc : s.pc t = .idle) (hin : s.mgr.inited = true) :
    tasks.step s (.call t op) = some (s.goto t (enter op)) := by
  simp [tasks, hpc, hin]

theorem step_call_fail (hpc : s.pc t = .idle) (hin : s.mgr.inited = false) :
    tasks.step s (.call t op) = some (s.ret t op retErr) := by
  simp [tasks, hpc, hin]

/-- `t` alone takes some steps from `s` to `s'`. -/
def Solo (t : T) (s s' : Sys T D) : Prop :=
  ∃ n, tasks.run s (List.replicate n (.step t)) = some s'

theorem Solo.refl (t : T) (s : Sys T D) : Solo t s s := ⟨0, rfl⟩

theorem Solo.head {s₁ : Sys T D} (hmove : s.move t = some s₁) (h : Solo t s₁ s') :
    Solo t s s' := by
  obtain ⟨n, hrun⟩ := h
  refine ⟨n + 1, ?_⟩
  rw [List.replicate_succ, Machine.run_cons_of_step (show tasks.step s (.step t) = _ from hmove)]
  exact hrun

/-- The steps of `dev_register`, read off the code. -/
theorem solo_register (hpc : s.pc t = .check id d) (hin : s.mgr.inited = true)
    (h : devRegister id (some d) s.mgr = some (r, mgr)) :
    Solo t s ({ s with mgr }.ret t (.register id d) r) := by
  have hens : Ensures (devRegister id (some d)) s.mgr fun a u => a = r ∧ u = mgr :=
    ⟨_, _, h, rfl, rfl⟩
  simp only [devRegister, ensures_bind, ensures_get, hin, Bool.not_true, Bool.false_eq_true,
    if_false] at hens
  obtain ⟨found, mgr₁, hget, hrest⟩ := hens
  cases found with
  | some e =>
    obtain ⟨rfl, rfl⟩ := ensures_pure.1 hrest
    exact (Solo.refl ..).head (move_check_found hpc hget)
  | none =>
    simp only [setDevId, ensures_bind, ensures_modify, ensures_pure] at hrest
    obtain ⟨⟨⟩, mgr₂, hadd, rfl, rfl⟩ := hrest
    refine .head (move_check_free hpc hget) (.head (move_stamp (goto_pc ..)) ?_)
    refine .head (move_insert (goto_pc ..) (by exact hadd)) ?_
    simp only [goto, ret, Function.update_idem]
    exact .refl ..

/-- The same for `dev_unregister`; the log also shows what came off. -/
theorem solo_unregister (hpc : s.pc t = .lookup d) (hin : s.mgr.inited = true)
    (h : devUnregister (some d) s.mgr = some (r, mgr)) :
    ∃ log, Solo t s ({ s with mgr, log }.ret t (.unregister d) r) := by
  have hens : Ensures (devUnregister (some d)) s.mgr fun a u => a = r ∧ u = mgr :=
    ⟨_, _, h, rfl, rfl⟩
  simp only [devUnregister, ensures_bind, ensures_get, hin, Bool.not_true, Bool.false_eq_true,
    if_false] at hens
  obtain ⟨found, mgr₁, hget, hrest⟩ := hens
  cases found with
  | none =>
    obtain ⟨rfl, rfl⟩ := ensures_pure.1 hrest
    refine ⟨s.log, .head (move_lookup hpc) ?_⟩
    refine .head (move_find_free (goto_pc ..) (by exact hget)) ?_
    simp only [goto, ret, Function.update_idem]
    exact .refl ..
  | some e =>
    simp only [ensures_bind, ensures_pure] at hrest
    obtain ⟨⟨⟩, mgr₂, hdel, rfl, rfl⟩ := hrest
    refine ⟨.removed (mgr₁.devId e) :: s.log, .head (move_lookup hpc) ?_⟩
    refine .head (move_find_found (goto_pc ..) (by exact hget)) ?_
    refine .head (move_remove (goto_pc ..) (by exact hdel)) ?_
    simp only [goto, ret, Function.update_idem]
    exact .refl ..

/-- **A call that is not disturbed is the code's call**: its steps by one
task, with no other in between, leave the manager as the function does
and return what it returns. -/
theorem solo_call (hpc : s.pc t = .idle) (h : op.code s.mgr = some (r, mgr)) :
    ∃ s₁ log, tasks.step s (.call t op) = some s₁ ∧
      Solo t s₁ ({ s with mgr, log }.ret t op r) := by
  cases hin : s.mgr.inited with
  | false =>
    have hfail : op.code s.mgr = some (retErr, s.mgr) := by
      obtain ⟨a, u, hcode, rfl, rfl⟩ : Ensures op.code s.mgr fun a u => a = retErr ∧ u = s.mgr := by
        cases op <;> simp [Op.code, devRegister, devUnregister, hin]
      exact hcode
    obtain ⟨rfl, rfl⟩ := Prod.mk.inj (Option.some.inj (hfail.symm.trans h))
    exact ⟨_, s.log, step_call_fail hpc hin, .refl ..⟩
  | true =>
    have hstep : tasks.step s (.call t op) = some (s.goto t (enter op)) := step_call hpc hin
    cases op with
    | register id d =>
      have hsolo := solo_register (goto_pc s t _) (by exact hin) (by exact h)
      simp only [goto, ret, Function.update_idem] at hsolo
      exact ⟨_, s.log, hstep, hsolo⟩
    | unregister d =>
      obtain ⟨log, hsolo⟩ := solo_unregister (goto_pc s t _) (by exact hin) (by exact h)
      simp only [goto, ret, Function.update_idem] at hsolo
      exact ⟨_, log, hstep, hsolo⟩

end Sys

end Dev

end Hgsdk

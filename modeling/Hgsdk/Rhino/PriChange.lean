import Hgsdk.Common.Inherit
import Hgsdk.Rhino.Pend
/-!
# Changing priorities

`task_pri_change` of `k_task.c` with the functions of `k_mutex.c` it works
with. A task that waits for a mutex lends its priority to the owner, and
the owner, if it waits itself, to the owner of what it waits for: the loop
walks up that chain.
-/

namespace Hgsdk.Rhino

variable {T O : Type} [DecidableEq T] [DecidableEq O]

/-- One turn of the loops of `mutex_pri_limit` and `mutex_pri_look`: what
is the least so far, and the priority last read. A mutex nobody waits for
leaves that as it was. -/
def priTurn (s : KState T O) (mutex : O) (acc : ℕ × ℕ) : ℕ × ℕ :=
  let pri :=
    match s.queues.blkList mutex with
    | [] => acc.2
    | first :: _ => (s.task first).prio
  (if pri < acc.1 then pri else acc.1, pri)

/-- `mutex_pri_limit`. -/
def mutexPriLimit (s : KState T O) (task : T) (pri : ℕ) : ℕ :=
  ((s.task task).mutexList.foldl (fun acc mutex => priTurn s mutex acc) (pri, pri)).1

/-- `mutex_pri_look`: the priority the task is to have, with `mutexRel`
taken out of its list. -/
def mutexPriLook (task : T) (mutexRel : Option O) : K T O ℕ := do
  let s ← get
  let kept := (s.task task).mutexList.filter fun mutex => some mutex ≠ mutexRel
  modifyTask task fun t => t.withMutexes kept
  let base := (s.task task).bPrio
  return (kept.foldl (fun acc mutex => priTurn s mutex acc) (base, base)).1

/-- Where a ready task goes back with a new priority: the current one stays
before its equals. -/
def readyListBack (task : T) : K T O Unit := do
  let s ← get
  if task = s.activeTask then readyListAddHead task else readyListAddTail task

/-- A ready task goes into the list of its new priority. -/
def readyListMove (task : T) (newPri : ℕ) : K T O Unit := do
  readyListRm task
  modifyTask task fun t => t.withPrio newPri
  readyListBack task

/-- What the loop of `task_pri_change` goes on to: the task still to be
changed and its new priority, or the end. -/
abbrev PriLoop (T : Type) := (T × ℕ) ⊕ KStat

/-- The turn of the loop for the owner of the mutex the task changed from
`oldPri` to `newPri` waits for. -/
def ownerTurn (mutexTask : T) (oldPri newPri : ℕ) : K T O (PriLoop T) := do
  let s ← get
  let ownerPri := (s.task mutexTask).prio
  if newPri < ownerPri then
    -- the highest prio of the waiting tasks became higher: raise the owner
    return .inl (mutexTask, newPri)
  else if ownerPri = oldPri then
    -- the owner may have had its prio from the task: find a suitable one
    let ownPri ← mutexPriLook mutexTask none
    if ownPri ≠ ownerPri then return .inl (mutexTask, ownPri) else return .inr .success
  else return .inr .success

/-- One turn of the loop of `task_pri_change`. -/
def taskPriChangeTurn (loop : T × ℕ) : K T O (PriLoop T) := do
  let s ← get
  let task := loop.1
  let newPri := loop.2
  let oldPri := (s.task task).prio
  if oldPri = newPri then return .inr .success
  else
    match (s.task task).taskState with
    | .rdy =>
      readyListMove task newPri
      return .inr .success
    | .sleep | .suspended | .sleepSuspended =>
      modifyTask task fun t => t.withPrio newPri
      return .inr .success
    | .pend | .pendSuspended =>
      modifyTask task fun t => t.withPrio newPri
      pendListReorder task
      let obj ← Cmd.deref (s.task task).blkObj
      if (s.obj obj).objType = .mutex then
        let mutexTask ← Cmd.deref (s.obj obj).mutexTask
        ownerTurn mutexTask oldPri newPri
      else return .inr .success
    | .seed | .deleted => kErrProc

def taskPriChange (task : T) (newPri : ℕ) : K T O KStat :=
  Cmd.iterate taskPriChangeTurn (task, newPri)

def mutexRelease (task : T) (mutexRel : Option O) : K T O Unit := do
  let newPri ← mutexPriLook task mutexRel
  let s ← get
  Cmd.when (newPri ≠ (s.task task).prio) do
    let _ ← taskPriChange task newPri

def mutexTaskPriReset (task : T) : K T O Unit := do
  let s ← get
  let obj ← Cmd.deref (s.task task).blkObj
  Cmd.when ((s.obj obj).objType = .mutex) do
    let mutexTask ← Cmd.deref (s.obj obj).mutexTask
    -- the task that waits no longer may have been what the owner got its prio from
    Cmd.when ((s.task mutexTask).prio = (s.task task).prio) do
      mutexRelease mutexTask none

/-! ### The locks -/

/-- The mutexes linked from each task. -/
def KState.mutexes (s : KState T O) (t : T) : List O := (s.task t).mutexList

/-- **What the locks keep to**, with `held` as what each task holds: a mutex
is held by exactly the task that owns it, that task is alive, and a task
waits only for what another owns. Between calls the mutexes held are those
linked from the task; a call that gives a mutex up unlinks it first. -/
structure Locks (held : T → List O) (s : KState T O) : Prop where
  held_iff : ∀ t o, (s.task t).Live → (o ∈ held t ↔
    (s.obj o).objType = .mutex ∧ (s.obj o).mutexTask = some t)
  nodup : ∀ t, (s.task t).Live → (held t).Nodup
  owner_live : ∀ o t, (s.obj o).objType = .mutex → (s.obj o).mutexTask = some t →
    (s.task t).Live
  owned : ∀ t o, (s.task t).waitsFor = some o → (s.obj o).objType = .mutex →
    ∃ u, (s.obj o).mutexTask = some u ∧ u ≠ t
  policy : ∀ o, (s.obj o).objType = .mutex → (s.obj o).blkPolicy = .pri

/-- The owner of the mutex a task waits for. -/
def KState.holder (s : KState T O) (t : T) : Option T :=
  (s.task t).waitsFor.bind fun o =>
    if (s.obj o).objType = .mutex then (s.obj o).mutexTask else none

/-- **`t` has the priority it should**: the most urgent of its own and of
those of the tasks that wait for its mutexes, the waiting being as `h`
says. -/
def KState.Settled (s : KState T O) (h : T → Option T) (t : T) : Prop :=
  Inherit.Settled (fun u => (s.task u).bPrio) h (fun u => (s.task u).prio) t

/-- What urges `t`. -/
def KState.claims (s : KState T O) (h : T → Option T) (t : T) : Set ℕ :=
  Inherit.claims (fun u => (s.task u).bPrio) h (fun u => (s.task u).prio) t

variable {s s' : KState T O} {t u w : T} {o : O} {p r : ℕ} {h : T → Option T} {held : T → List O}

omit [DecidableEq T] [DecidableEq O] in
theorem holder_eq_some : s.holder w = some t ↔
    ∃ o, (s.task w).waitsFor = some o ∧ (s.obj o).objType = .mutex ∧
      (s.obj o).mutexTask = some t := by
  unfold KState.holder
  rw [Option.bind_eq_some_iff]
  refine exists_congr fun o => and_congr_right fun _ => ?_
  split <;> simp [*]

omit [DecidableEq T] [DecidableEq O] in
theorem holder_of_not_pending (ht : ¬ (s.task t).Pending) : s.holder t = none := by
  rw [KState.holder, KTask.waitsFor_of_not_pending ht]
  rfl

omit [DecidableEq T] [DecidableEq O] in
/-- Who waits for a task waits for one of the mutexes it holds. -/
theorem Locks.holder_iff (hs : Locks held s) (ht : (s.task t).Live) :
    s.holder w = some t ↔ ∃ m ∈ held t, (s.task w).waitsFor = some m := by
  rw [holder_eq_some]
  refine exists_congr fun m => ?_
  rw [hs.held_iff t m ht, and_comm]

omit [DecidableEq T] [DecidableEq O] in
/-- **The locks** depend on who is alive, what is waited for, and who owns
what. -/
theorem Locks.congr (hk : Locks held s) (hlive : ∀ u, (s'.task u).Live ↔ (s.task u).Live)
    (hwaits : ∀ u o, (s'.task u).waitsFor = some o → (s.obj o).objType = .mutex →
      (s.task u).waitsFor = some o ∨ ∃ v, (s.obj o).mutexTask = some v ∧ v ≠ u)
    (hobj : s'.obj = s.obj) : Locks held s' where
  held_iff u o hu := by
    rw [hobj]
    exact hk.held_iff u o ((hlive u).1 hu)
  nodup u hu := hk.nodup u ((hlive u).1 hu)
  owner_live o u ho hu := by
    rw [hobj] at ho hu
    exact (hlive u).2 (hk.owner_live o u ho hu)
  owned u o hu ho := by
    rw [hobj] at ho ⊢
    rcases hwaits u o hu ho with hu | hu
    · exact hk.owned u o hu ho
    · exact hu
  policy o ho := by
    rw [hobj] at ho ⊢
    exact hk.policy o ho

/-! ### What the loops over the mutexes of a task find -/

omit [DecidableEq T] [DecidableEq O] in
/-- One turn finds the most urgent of what was known and of the tasks in the
list of the mutex: the list being sorted, it is enough to look at the
first. -/
theorem isLeast_priTurn
    (hsorted : (s.queues.blkList o).Pairwise fun u v => (s.task u).prio ≤ (s.task v).prio)
    {acc : ℕ × ℕ} (hacc : acc.1 ≤ acc.2) :
    (priTurn s o acc).1 ≤ (priTurn s o acc).2 ∧
      IsLeast (insert acc.1 {p | ∃ w ∈ s.queues.blkList o, (s.task w).prio = p})
        (priTurn s o acc).1 := by
  unfold priTurn
  cases hl : s.queues.blkList o with
  | nil =>
    simp only [if_neg (Nat.not_lt.2 hacc)]
    exact ⟨hacc, by simp⟩
  | cons w l =>
    rw [hl] at hsorted
    have hw : ∀ v ∈ w :: l, (s.task w).prio ≤ (s.task v).prio := by
      intro v hv
      rcases List.mem_cons.1 hv with rfl | hv
      · exact Nat.le_refl _
      · exact (List.pairwise_cons.1 hsorted).1 v hv
    by_cases hlt : (s.task w).prio < acc.1
    · simp only [if_pos hlt]
      refine ⟨Nat.le_refl _, .inr ⟨w, List.mem_cons_self, rfl⟩, ?_⟩
      rintro p (rfl | ⟨v, hv, rfl⟩)
      · exact hlt.le
      · exact hw v hv
    · simp only [if_neg hlt]
      refine ⟨Nat.not_lt.1 hlt, .inl rfl, ?_⟩
      rintro p (rfl | ⟨v, hv, rfl⟩)
      · exact Nat.le_refl _
      · exact (Nat.not_lt.1 hlt).trans (hw v hv)

omit [DecidableEq T] [DecidableEq O] in
/-- **The most urgent** of what the loop starts from and of the tasks that
wait for the mutexes. -/
theorem isLeast_foldl_priTurn {mutexes : List O}
    (hsorted : ∀ m ∈ mutexes, (s.queues.blkList m).Pairwise fun u v =>
      (s.task u).prio ≤ (s.task v).prio) {acc : ℕ × ℕ} (hacc : acc.1 ≤ acc.2) :
    IsLeast (insert acc.1 {p | ∃ m ∈ mutexes, ∃ w ∈ s.queues.blkList m, (s.task w).prio = p})
      (mutexes.foldl (fun acc mutex => priTurn s mutex acc) acc).1 := by
  induction mutexes generalizing acc with
  | nil => simp
  | cons m ms ih =>
    obtain ⟨hturn, hleast⟩ := isLeast_priTurn (hsorted m List.mem_cons_self) hacc
    obtain ⟨hmem, hle⟩ := ih (fun m' hm' => hsorted m' (List.mem_cons_of_mem m hm')) hturn
    rw [List.foldl_cons]
    constructor
    · rcases hmem with hmem | ⟨m', hm', w, hw, hp⟩
      · rw [hmem]
        rcases hleast.1 with h₁ | ⟨w, hw, hp⟩
        · exact .inl h₁
        · exact .inr ⟨m, List.mem_cons_self, w, hw, hp⟩
      · exact .inr ⟨m', List.mem_cons_of_mem m hm', w, hw, hp⟩
    · have hfirst := hle (Set.mem_insert _ _)
      rintro p (rfl | ⟨m', hm', w, hw, rfl⟩)
      · exact hfirst.trans (hleast.2 (Set.mem_insert _ _))
      · rcases List.mem_cons.1 hm' with rfl | hm'
        · exact hfirst.trans (hleast.2 (.inr ⟨w, hw, rfl⟩))
        · exact hle (.inr ⟨m', hm', w, hw, rfl⟩)

omit [DecidableEq T] [DecidableEq O] in
/-- The same, where the tasks that wait for the mutexes are those that wait
for `t`. -/
theorem isLeast_insert_waiters {mutexes : List O} (hl : Lists s)
    (hpolicy : ∀ m ∈ mutexes, (s.obj m).blkPolicy = .pri)
    (hwait : ∀ w, h w = some t ↔ ∃ m ∈ mutexes, (s.task w).waitsFor = some m) (pri : ℕ) :
    IsLeast (insert pri {p | ∃ w, h w = some t ∧ (s.task w).prio = p})
      (mutexes.foldl (fun acc mutex => priTurn s mutex acc) (pri, pri)).1 := by
  have heq : {p | ∃ w, h w = some t ∧ (s.task w).prio = p} =
      {p | ∃ m ∈ mutexes, ∃ w ∈ s.queues.blkList m, (s.task w).prio = p} := by
    ext p
    constructor
    · rintro ⟨w, hw, rfl⟩
      obtain ⟨m, hm, hwm⟩ := (hwait w).1 hw
      exact ⟨m, hm, w, hl.mem_blkList.2 hwm, rfl⟩
    · rintro ⟨m, hm, w, hw, rfl⟩
      exact ⟨w, (hwait w).2 ⟨m, hm, hl.mem_blkList.1 hw⟩, rfl⟩
  rw [heq]
  exact isLeast_foldl_priTurn (fun m hm => hl.sorted m (hpolicy m hm)) (Nat.le_refl _)

omit [DecidableEq T] [DecidableEq O] in
/-- **`mutex_pri_limit`** finds the most urgent of a priority and of the
tasks that wait for the mutexes of the task. -/
theorem isLeast_mutexPriLimit (hl : Lists s) (hs : Locks s.mutexes s) (ht : (s.task t).Live)
    (pri : ℕ) :
    IsLeast (insert pri {p | ∃ w, s.holder w = some t ∧ (s.task w).prio = p})
      (mutexPriLimit s t pri) := by
  refine isLeast_insert_waiters hl (fun m hm => ?_) (fun w => hs.holder_iff ht) pri
  exact hs.policy m ((hs.held_iff t m ht).1 hm).1

/-- **`mutex_pri_look`** takes a mutex out of the list of the task and finds
what the task is to be set to without it. -/
theorem ensures_mutexPriLook {mutexRel : Option O} {kept : List O} (hl : Lists s)
    (hkept : (s.task t).mutexList.filter (fun mutex => some mutex ≠ mutexRel) = kept)
    (hpolicy : ∀ m ∈ kept, (s.obj m).blkPolicy = .pri)
    (hwait : ∀ w, h w = some t ↔ ∃ m ∈ kept, (s.task w).waitsFor = some m) :
    Ensures (mutexPriLook t mutexRel) s fun p s' =>
      s' = s.setTask t ((s.task t).withMutexes kept) ∧ IsLeast (s.claims h t) p := by
  rw [mutexPriLook, ensures_bind, ensures_get]
  simp only [hkept]
  rw [ensures_bind, ensures_modifyTask, ensures_pure]
  exact ⟨rfl, isLeast_insert_waiters hl hpolicy hwait _⟩

/-- With no mutex to take out it changes nothing. -/
theorem ensures_mutexPriLook_none (hl : Lists s) (hs : Locks s.mutexes s)
    (ht : (s.task t).Live) :
    Ensures (mutexPriLook t none) s fun p s' => s' = s ∧ IsLeast (s.claims s.holder t) p := by
  have hkept : (s.task t).mutexList.filter (fun mutex => some mutex ≠ none) = s.mutexes t := by
    simp [KState.mutexes]
  refine (ensures_mutexPriLook hl hkept (fun m hm => ?_) (fun w => hs.holder_iff ht)).mono ?_
  · exact hs.policy m ((hs.held_iff t m ht).1 hm).1
  · rintro p s' ⟨rfl, hp⟩
    exact ⟨KState.setTask_self s t, hp⟩

end Hgsdk.Rhino

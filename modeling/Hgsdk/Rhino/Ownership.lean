import Hgsdk.Common.RecMutex
import Hgsdk.Rhino.Kernel
import Mathlib.Data.Fintype.Option
/-!
# Who has a mutex, and what a wait comes to

Over whole runs of the kernel. What the calls on a mutex return is the
history of a recursive mutex (`mutex_history`): nobody has it that another
has, and who has it keeps it until it unlocks it as often as it locked it.
What `pend_state_end_proc` then tells a task that had to wait is the truth
(`mutex_lock_returns`).

The exception is a task that is deleted while it has the mutex: the first in
line has it then, with the nesting count of the deleted task.
-/

namespace Hgsdk.Rhino

variable {T O : Type} [DecidableEq T] [DecidableEq O]
variable {s s' s₁ : KState T O} {idle t u w : T} {o o' : O} {m : KObj T} {r : Ret} {c : Call T O}
variable {e : Event T O} {es : List (Event T O)} {old : ObjType} {P : KObj T → Prop}

/-! ### The object a call is about -/

/-- The object a call is about. -/
def Call.target : Call T O → Option O
  | mutexCreate mutex | mutexLock mutex _ | mutexUnlock mutex | mutexDel mutex => some mutex
  | semCreate sem _ | semGive sem | semGiveAll sem | semTake sem _ | semCountSet sem _
  | semDel sem => some sem
  | _ => none

section Others

variable (ho : o ≠ o')
include ho

omit [DecidableEq T]

theorem SetMove.obj_eq (h : SetMove s o' old P s') : s'.obj o = s.obj o := by
  rcases h with h | ⟨-, m, h, -⟩
  · rw [h]
  · rw [h, Function.update_of_ne ho]

theorem LockMove.obj_eq (h : LockMove s o' s' r) : s'.obj o = s.obj o := by
  cases h with
  | fails _ h => rw [h]
  | takes _ _ _ h => rw [h, Function.update_of_ne ho]
  | again _ _ _ _ h => rw [h, Function.update_of_ne ho]
  | blocks _ h => rw [h]

theorem UnlockMove.obj_eq (h : UnlockMove s o' s' r) : s'.obj o = s.obj o := by
  cases h with
  | fails _ h => rw [h]
  | less _ _ _ _ h => rw [h, Function.update_of_ne ho]
  | free _ _ _ _ _ h => rw [h, Function.update_of_ne ho]
  | pass _ _ _ _ _ h => rw [h, Function.update_of_ne ho]

theorem TakeMove.obj_eq (h : TakeMove s o' s' r) : s'.obj o = s.obj o := by
  cases h with
  | fails _ h => rw [h]
  | takes _ _ h => rw [h, Function.update_of_ne ho]
  | blocks _ _ h => rw [h]

end Others

section Others

variable (ho : o ≠ o')
include ho

omit [DecidableEq O]

theorem GiveMove.obj_eq (h : GiveMove s o' s' r) : s'.obj o = s.obj o := by
  cases h with
  | fails _ h => rw [h]
  | counts _ _ _ _ h => exact h o ho
  | wakes _ _ h => rw [h]

theorem GiveAllMove.obj_eq (h : GiveAllMove s o' s' r) : s'.obj o = s.obj o := by
  cases h with
  | gives h => exact h.obj_eq ho
  | wakes _ h => rw [h]

end Others

/-- **The task has the mutex.** -/
def KObj.OwnedBy (m : KObj T) (t : T) : Prop := m.objType = .mutex ∧ m.mutexTask = some t

instance (m : KObj T) (t : T) : Decidable (m.OwnedBy t) :=
  inferInstanceAs (Decidable (_ ∧ _))

omit [DecidableEq T] [DecidableEq O] in
theorem PassedOn.obj_eq (h : PassedOn t s s' o) (ht : ¬ (s.obj o).OwnedBy t) :
    s'.obj o = s.obj o := by
  rcases h with h | ⟨hmutex, howner, -⟩
  · exact h
  · exact absurd ⟨hmutex, howner⟩ ht

/-- **A call leaves the objects it is not about**, the mutexes of a task that
is deleted apart. -/
theorem Call.Moves.obj_eq (h : c.Moves s s' r) (hc : c.target ≠ some o)
    (hdel : ∀ t, c = .taskDel t → ¬ (s.obj o).OwnedBy t) : s'.obj o = s.obj o := by
  have hne : ∀ {o'}, c.target = some o' → o ≠ o' := by
    rintro _ h rfl
    exact hc h
  cases c with
  | mutexCreate | mutexDel | semCreate | semCountSet | semDel => exact h.2.obj_eq (hne rfl)
  | mutexLock => exact h.2.obj_eq (hne rfl)
  | mutexUnlock => exact h.2.obj_eq (hne rfl)
  | semGive => exact h.2.obj_eq (hne rfl)
  | semGiveAll => exact h.2.obj_eq (hne rfl)
  | semTake => exact h.2.obj_eq (hne rfl)
  | taskCreate | taskYield | taskSuspend | taskResume | taskPriChange => rw [h.2]
  | taskSleep => rw [h.2.1]
  | taskDel task => exact (h.2.1 o).obj_eq (hdel task rfl)
  | schedDisable | schedEnable =>
    rcases h with rfl | ⟨-, rfl⟩
    · rfl
    · rfl

/-! ### A mutex of the kernel is a recursive mutex -/

/-- **The mutex an object is.** Its nesting count starts at one. -/
def KObj.lock (m : KObj T) : RecMutex T :=
  if m.objType = .mutex then
    match m.mutexTask with
    | some t => .held t (m.ownerNested.toNat - 1)
    | none => .free
  else .free

omit [DecidableEq T] in
theorem KObj.lock_of_ne (h : m.objType ≠ .mutex) : m.lock = .free := if_neg h

omit [DecidableEq T] in
theorem KObj.lock_of_none (h : m.mutexTask = none) : m.lock = .free := by
  rw [lock, h]
  exact ite_self _

omit [DecidableEq T] in
theorem KObj.lock_of_some (hmutex : m.objType = .mutex) (howner : m.mutexTask = some t) :
    m.lock = .held t (m.ownerNested.toNat - 1) := by
  rw [lock, if_pos hmutex, howner]

omit [DecidableEq T] in
theorem KObj.lock_withNested (hmutex : m.objType = .mutex) (howner : m.mutexTask = some t)
    (n : BitVec 32) : (m.withNested n).lock = .held t (n.toNat - 1) :=
  lock_of_some (m := m.withNested n) hmutex howner

omit [DecidableEq T] in
/-- What is no mutex, before and after. -/
theorem KObj.lock_eq_of_ne {m' : KObj T} (h : m.objType ≠ .mutex) (h' : m'.objType ≠ .mutex) :
    m'.lock = m.lock :=
  (lock_of_ne h').trans (lock_of_ne h).symm

theorem LockMove.lock_eq (h : LockMove s o s' r) (hr : r.granted = true)
    (hfine : (s.obj o).Fine) : (s.obj o).lock.lock s.activeTask = some (s'.obj o).lock := by
  cases h with
  | fails hstat => cases hstat.symm.trans hr
  | takes _ hmutex hfree hobj =>
    rw [KObj.lock_of_none hfree, hobj, Function.update_self,
      KObj.lock_withNested (m := (s.obj o).withOwner (some s.activeTask)) hmutex rfl]
    rfl
  | again _ hmutex howner hn hobj =>
    have hnested := hfine.nested hmutex (by rw [howner]; exact Option.some_ne_none _)
    have hsucc : ((s.obj o).ownerNested + 1).toNat - 1 = (s.obj o).ownerNested.toNat - 1 + 1 := by
      bv_omega
    rw [KObj.lock_of_some hmutex howner, hobj, Function.update_self,
      KObj.lock_withNested hmutex howner, RecMutex.lock, if_pos rfl, ← hsucc]
  | blocks => cases hr

/-- Who has the mutex from the task that unlocks it. -/
def handedOn (o : O) (s' : KState T O) (r : Ret) : List (RecMutex.Op T) :=
  if r = .sched .success then (s'.obj o).mutexTask.toList.map .lock else []

theorem UnlockMove.run_eq (h : UnlockMove s o s' r) (hr : r.granted = true)
    (hfine : (s.obj o).Fine) :
    RecMutex.machine.run (s.obj o).lock (.unlock s.activeTask :: handedOn o s' r) =
      some (s'.obj o).lock := by
  cases h with
  | fails hstat => cases hstat.symm.trans hr
  | less _ hmutex howner hn hobj =>
    have hnested := hfine.nested hmutex (by rw [howner]; exact Option.some_ne_none _)
    have hsucc : (s.obj o).ownerNested.toNat - 1 = ((s.obj o).ownerNested - 1).toNat - 1 + 1 := by
      bv_omega
    rw [KObj.lock_of_some hmutex howner, hobj, Function.update_self,
      KObj.lock_withNested hmutex howner, hsucc,
      Machine.run_cons_of_step (u := .held s.activeTask _) (if_pos rfl)]
    rfl
  | free _ hmutex howner hn _ hobj =>
    have hone : (s.obj o).ownerNested.toNat - 1 = 0 := by bv_omega
    rw [KObj.lock_of_some hmutex howner, hone, hobj, Function.update_self,
      KObj.lock_of_none rfl, Machine.run_cons_of_step (u := .free) (if_pos rfl)]
    rfl
  | @pass _ hmutex howner hn w _ hobj =>
    have hone : (s.obj o).ownerNested.toNat - 1 = 0 := by bv_omega
    have howner' : (s'.obj o).mutexTask = some w := by
      rw [hobj, Function.update_self]
      rfl
    rw [handedOn, if_pos rfl, howner', KObj.lock_of_some hmutex howner, hone, hobj,
      Function.update_self,
      KObj.lock_withNested (m := (s.obj o).withOwner (some w)) hmutex rfl,
      Machine.run_cons_of_step (u := .free) (if_pos rfl)]
    rfl

/-- **What a call shows of the mutex `o`**, by what it returns: the task locks
it, or unlocks it, and hands it on. -/
def Call.lockOps (o : O) (s s' : KState T O) (r : Ret) : Call T O → List (RecMutex.Op T)
  | mutexLock mutex _ => if mutex = o ∧ r.granted then [.lock s.activeTask] else []
  | mutexUnlock mutex =>
    if mutex = o ∧ r.granted then .unlock s.activeTask :: handedOn o s' r else []
  | _ => []

/-- What a step shows of the mutex `o`. -/
def lockOps (o : O) (s : KState T O) : Event T O → List (RecMutex.Op T)
  | .call c => (c.exec s).elim [] fun (r, s') => c.lockOps o s s' r
  | _ => []

/-- Nothing is deleted under a task that has the mutex `o`: neither the mutex
nor the task. -/
def Event.Spares (o : O) (s : KState T O) : Event T O → Prop
  | call (.mutexDel mutex) => mutex ≠ o
  | call (.taskDel task) => ¬ (s.obj o).OwnedBy task
  | _ => True

omit [DecidableEq T] in
/-- Setting an object of another type, to one of another type, or to a mutex
that is free. -/
theorem SetMove.lock_eq (h : SetMove s o old P s') (hold : old ≠ .mutex)
    (hP : ∀ m, P m → m.lock = .free) : (s'.obj o).lock = (s.obj o).lock := by
  rcases h with h | ⟨htype, m, h, hm⟩
  · rw [h]
  · rw [h, Function.update_self, hP m hm, KObj.lock_of_ne (by rwa [htype])]

omit [DecidableEq O] in
theorem GiveMove.lock_eq (h : GiveMove s o s' r) : (s'.obj o).lock = (s.obj o).lock := by
  cases h with
  | fails _ h => rw [h]
  | counts hsem _ _ _ _ htype =>
    refine KObj.lock_eq_of_ne ?_ ?_
    · rw [hsem]
      decide
    · rw [htype]
      decide
  | wakes _ _ h => rw [h]

omit [DecidableEq O] in
theorem GiveAllMove.lock_eq (h : GiveAllMove s o s' r) : (s'.obj o).lock = (s.obj o).lock := by
  cases h with
  | gives h => exact h.lock_eq
  | wakes _ h => rw [h]

omit [DecidableEq T] in
theorem TakeMove.lock_eq (h : TakeMove s o s' r) : (s'.obj o).lock = (s.obj o).lock := by
  cases h with
  | fails _ h => rw [h]
  | takes hsem _ h =>
    have hne : (s.obj o).objType ≠ .mutex := by
      rw [hsem]
      decide
    rw [h, Function.update_self]
    exact KObj.lock_eq_of_ne hne hne
  | blocks _ _ h => rw [h]

theorem LockMove.run_eq (h : LockMove s o s' r) (hfine : (s.obj o).Fine) :
    RecMutex.machine.run (s.obj o).lock (if r.granted then [.lock s.activeTask] else []) =
      some (s'.obj o).lock := by
  split
  · rename_i hr
    exact Machine.run_cons_of_step (h.lock_eq hr hfine)
  · rename_i hr
    cases h with
    | fails _ h => rw [h, Machine.run_nil]
    | takes => exact absurd rfl hr
    | again => exact absurd rfl hr
    | blocks _ h => rw [h, Machine.run_nil]

/-- **A call, seen from the mutex.** -/
theorem Call.Moves.run_lockOps (h : c.Moves s s' r) (hfine : (s.obj o).Fine)
    (hspares : (Event.call c).Spares o s) :
    RecMutex.machine.run (s.obj o).lock (c.lockOps o s s' r) = some (s'.obj o).lock := by
  by_cases hc : c.target = some o
  · -- the call is about `o`
    cases c with
    | mutexCreate =>
      obtain rfl := Option.some.inj hc
      rw [h.2.lock_eq (by decide) fun m hm => KObj.lock_of_none hm.2]
      rfl
    | mutexLock =>
      obtain rfl := Option.some.inj hc
      simp only [Call.lockOps, true_and]
      exact h.2.run_eq hfine
    | mutexUnlock =>
      obtain rfl := Option.some.inj hc
      simp only [Call.lockOps, true_and]
      split
      · rename_i hr
        exact h.2.run_eq hr hfine
      · rename_i hr
        cases h.2 with
        | fails _ heq => rw [heq, Machine.run_nil]
        | less => exact absurd rfl hr
        | free => exact absurd rfl hr
        | pass => exact absurd rfl hr
    | mutexDel => exact absurd (Option.some.inj hc) hspares
    | semCreate =>
      obtain rfl := Option.some.inj hc
      rw [h.2.lock_eq (by decide) fun m hm => KObj.lock_of_ne (by rw [hm.1]; decide)]
      rfl
    | semGive =>
      obtain rfl := Option.some.inj hc
      rw [h.2.lock_eq]
      rfl
    | semGiveAll =>
      obtain rfl := Option.some.inj hc
      rw [h.2.lock_eq]
      rfl
    | semTake =>
      obtain rfl := Option.some.inj hc
      rw [h.2.lock_eq]
      rfl
    | semCountSet =>
      obtain rfl := Option.some.inj hc
      rw [h.2.lock_eq (by decide) fun m hm => KObj.lock_of_ne (by rw [hm.1]; decide)]
      rfl
    | semDel =>
      obtain rfl := Option.some.inj hc
      rw [h.2.lock_eq (by decide) fun m hm => KObj.lock_of_ne (by rw [hm]; decide)]
      rfl
    | _ => cases hc
  · have hnone : c.lockOps o s s' r = [] := by
      cases c with
      | mutexLock | mutexUnlock => exact if_neg fun h => hc (congrArg some h.1)
      | _ => rfl
    rw [hnone, h.obj_eq hc, Machine.run_nil]
    rintro t rfl
    exact hspares

/-- **A step, seen from the mutex.** -/
theorem run_lockOps [Fintype T] (hs : Good idle s) (he : e.Admissible idle s)
    (hspares : e.Spares o s) (hstep : kernel.step s e = some s') :
    RecMutex.machine.run (s.obj o).lock (lockOps o s e) = some (s'.obj o).lock := by
  have hmoves := (moves_of_step hs he hstep).2
  cases e with
  | call c =>
    obtain ⟨r, hexec, hmoves⟩ := hmoves
    rw [lockOps, hexec, Option.elim_some]
    exact hmoves.run_lockOps (hs.ok.objs o) hspares
  | _ =>
    rcases hmoves.cases with ⟨c, r, hc, -⟩ | ⟨-, htick⟩ | ⟨-, hobj, -⟩
    · cases hc
    · rw [htick.obj]
      rfl
    · rw [hobj]
      rfl

/-- **A mutex of the kernel is a recursive mutex**, whatever the order in which
tasks and interrupts take their turns: what the calls on it return, one after
the other, is a history of one, between what the object is before and after.
So nobody has it that another has, and it is free when it has been unlocked
as often as it was locked. That is as long as neither the mutex nor a task
that has it is deleted. -/
theorem mutex_history [Fintype T] (hs : Reachable idle s)
    (hes : kernel.Along (Event.Admissible idle) s es)
    (hspares : kernel.Along (Event.Spares o) s es) (hrun : kernel.run s es = some s') :
    RecMutex.machine.run (s.obj o).lock (kernel.trace (lockOps o) s es) = some (s'.obj o).lock :=
  Machine.run_trace (I := Good idle) (v := fun s => (s.obj o).lock)
    (fun _ _ _ hs hC hstep => ⟨(moves_of_step hs hC.1 hstep).1, run_lockOps hs hC.1 hC.2 hstep⟩)
    hs.good (hes.and hspares) hrun

/-- A task takes the mutex and is suspended. Another, less urgent, has to wait
for it then. The idle task is `none`. -/
def waitRun : List (Event (Option Bool) Unit) :=
  [.call (.taskCreate (some true) 10 0 512 true), .coreSched, .call (.mutexCreate ()),
    .call (.mutexLock () waitForever), .call (.taskCreate (some false) 20 0 512 true),
    .call (.taskSuspend (some true)), .coreSched, .call (.mutexLock () waitForever), .coreSched]

/-- Where that leads. -/
def waited : KState (Option Bool) Unit :=
  (kernel.run (krhinoStart none) waitRun).get (by decide +kernel)

theorem reachable_waited : Reachable none waited :=
  ⟨waitRun, by decide +kernel, (Option.some_get _).symm⟩

/-- The first task is resumed and gives the mutex up. -/
def handRun : List (Event (Option Bool) Unit) :=
  [.call (.taskResume (some true)), .coreSched, .call (.mutexUnlock ()), .coreSched]

theorem admissible_handRun : kernel.Along (Event.Admissible none) waited handRun := by
  decide +kernel

theorem mutex_history_handRun :
    ∃ s', kernel.run waited handRun = some s' ∧
      RecMutex.machine.run (waited.obj ()).lock (kernel.trace (lockOps ()) waited handRun) =
        some (s'.obj ()).lock :=
  ⟨(kernel.run waited handRun).get (by decide +kernel), (Option.some_get _).symm,
    mutex_history reachable_waited admissible_handRun
      (Machine.along_of_forall_mem (by simp [handRun, Event.Spares])) (Option.some_get _).symm⟩

/-! ### Who has the mutex after a step -/

omit [DecidableEq T] in
theorem SetMove.obj_eq_of_type (h : SetMove s o old P s') (hne : (s.obj o).objType ≠ old) :
    s'.obj o = s.obj o := by
  rcases h with h | ⟨hold, -⟩
  · rw [h]
  · exact absurd hold hne

omit [DecidableEq O] in
theorem GiveMove.obj_eq_of_type (h : GiveMove s o s' r) (hne : (s.obj o).objType ≠ .sem) :
    s'.obj o = s.obj o := by
  cases h with
  | fails _ h => rw [h]
  | counts hsem => exact absurd hsem hne
  | wakes hsem => exact absurd hsem hne

omit [DecidableEq O] in
theorem GiveAllMove.obj_eq_of_type (h : GiveAllMove s o s' r) (hne : (s.obj o).objType ≠ .sem) :
    s'.obj o = s.obj o := by
  cases h with
  | gives h => exact h.obj_eq_of_type hne
  | wakes hsem => exact absurd hsem hne

omit [DecidableEq T] in
theorem TakeMove.obj_eq_of_type (h : TakeMove s o s' r) (hne : (s.obj o).objType ≠ .sem) :
    s'.obj o = s.obj o := by
  cases h with
  | fails _ h => rw [h]
  | takes hsem => exact absurd hsem hne
  | blocks hsem => exact absurd hsem hne

/-- **What a call makes of a mutex**: it leaves it, the running task locks it
or unlocks it, or a task that is deleted passes it on. -/
theorem Call.Moves.mutex_cases (h : c.Moves s s' r) (hmutex : (s.obj o).objType = .mutex)
    (hdel : c ≠ .mutexDel o) :
    s'.obj o = s.obj o ∨ LockMove s o s' r ∨ UnlockMove s o s' r ∨
      ∃ t, c = .taskDel t ∧ PassedOn t s s' o := by
  have hsem : (s.obj o).objType ≠ .sem := by
    rw [hmutex]
    decide
  have hnone : (s.obj o).objType ≠ .none := by
    rw [hmutex]
    decide
  by_cases hc : c.target = some o
  · cases c with
    | mutexCreate | semCreate =>
      obtain rfl := Option.some.inj hc
      exact .inl (h.2.obj_eq_of_type hnone)
    | mutexLock =>
      obtain rfl := Option.some.inj hc
      exact .inr (.inl h.2)
    | mutexUnlock =>
      obtain rfl := Option.some.inj hc
      exact .inr (.inr (.inl h.2))
    | mutexDel =>
      obtain rfl := Option.some.inj hc
      exact absurd rfl hdel
    | semCountSet | semDel =>
      obtain rfl := Option.some.inj hc
      exact .inl (h.2.obj_eq_of_type hsem)
    | semGive =>
      obtain rfl := Option.some.inj hc
      exact .inl (h.2.obj_eq_of_type hsem)
    | semGiveAll =>
      obtain rfl := Option.some.inj hc
      exact .inl (h.2.obj_eq_of_type hsem)
    | semTake =>
      obtain rfl := Option.some.inj hc
      exact .inl (h.2.obj_eq_of_type hsem)
    | _ => cases hc
  · by_cases hpassed : ∃ t, c = .taskDel t
    · obtain ⟨t, rfl⟩ := hpassed
      exact .inr (.inr (.inr ⟨t, rfl, h.2.1 o⟩))
    · refine .inl (h.obj_eq hc ?_)
      rintro t rfl
      exact absurd ⟨t, rfl⟩ hpassed

/-- **Who has a mutex after a step**, and that it is still one. A task that
makes no call has it if it had it and is not deleted, or was first in line. -/
structure MutexMove (s s' : KState T O) (o : O) (u : T) (deleted : Prop) : Prop where
  mutex : (s'.obj o).objType = .mutex
  kept : ¬ deleted → (s.obj o).OwnedBy u → (s'.obj o).OwnedBy u
  fresh : (s'.obj o).OwnedBy u → (s.obj o).OwnedBy u ∨ (s.task u).waitsFor = some o

omit [DecidableEq T] [DecidableEq O] in
theorem MutexMove.of_eq {p : Prop} (hmutex : (s.obj o).objType = .mutex)
    (h : s'.obj o = s.obj o) : MutexMove s s' o u p := by
  refine ⟨?_, fun _ hu => ?_, fun hu => .inl ?_⟩
  · rwa [h]
  · rwa [h]
  · rwa [← h]

omit [DecidableEq T] in
theorem LockMove.mutexMove {p : Prop} (h : LockMove s o s' r)
    (hmutex : (s.obj o).objType = .mutex) (hu : s.intrptNestedLevel = 0 → s.activeTask ≠ u) :
    MutexMove s s' o u p := by
  cases h with
  | fails _ h => exact .of_eq hmutex (by rw [h])
  | takes hlevel _ hfree hobj =>
    have hobj := (congrFun hobj o).trans (Function.update_self ..)
    refine ⟨?_, fun _ h => ?_, fun h => ?_⟩
    · rw [hobj]
      exact hmutex
    · cases hfree.symm.trans h.2
    · rw [hobj] at h
      exact absurd (Option.some.inj h.2) (hu hlevel)
  | again _ _ howner _ hobj =>
    have hobj := (congrFun hobj o).trans (Function.update_self ..)
    refine ⟨?_, fun _ h => ?_, fun h => .inl ?_⟩
    · rw [hobj]
      exact hmutex
    · rw [hobj]
      exact h
    · rw [hobj] at h
      exact h
  | blocks _ h => exact .of_eq hmutex (by rw [h])

omit [DecidableEq T] in
theorem UnlockMove.mutexMove {p : Prop} (h : UnlockMove s o s' r)
    (hmutex : (s.obj o).objType = .mutex) (hu : s.intrptNestedLevel = 0 → s.activeTask ≠ u) :
    MutexMove s s' o u p := by
  cases h with
  | fails _ h => exact .of_eq hmutex (by rw [h])
  | less _ _ howner _ hobj =>
    have hobj := (congrFun hobj o).trans (Function.update_self ..)
    refine ⟨?_, fun _ h => ?_, fun h => .inl ?_⟩
    · rw [hobj]
      exact hmutex
    · rw [hobj]
      exact h
    · rw [hobj] at h
      exact h
  | free hlevel _ howner _ _ hobj =>
    have hobj := (congrFun hobj o).trans (Function.update_self ..)
    refine ⟨?_, fun _ h => ?_, fun h => ?_⟩
    · rw [hobj]
      exact hmutex
    · exact absurd (Option.some.inj (howner.symm.trans h.2)) (hu hlevel)
    · rw [hobj] at h
      cases h.2
  | @pass hlevel _ howner _ w hw hobj =>
    have hobj := (congrFun hobj o).trans (Function.update_self ..)
    refine ⟨?_, fun _ h => ?_, fun h => .inr ?_⟩
    · rw [hobj]
      exact hmutex
    · exact absurd (Option.some.inj (howner.symm.trans h.2)) (hu hlevel)
    · rw [hobj] at h
      obtain rfl : w = u := Option.some.inj h.2
      exact hw.waits

omit [DecidableEq T] [DecidableEq O] in
theorem PassedOn.mutexMove (h : PassedOn t s s' o) (hmutex : (s.obj o).objType = .mutex) :
    MutexMove s s' o u (t = u) := by
  rcases h with h | ⟨-, howner, ⟨-, hobj⟩ | ⟨w, hw, hobj⟩⟩
  · exact .of_eq hmutex h
  · refine ⟨?_, fun hne h => ?_, fun h => ?_⟩
    · rw [hobj]
      exact hmutex
    · exact absurd (Option.some.inj (howner.symm.trans h.2)) hne
    · rw [hobj] at h
      cases h.2
  · refine ⟨?_, fun hne h => ?_, fun h => .inr ?_⟩
    · rw [hobj]
      exact hmutex
    · exact absurd (Option.some.inj (howner.symm.trans h.2)) hne
    · rw [hobj] at h
      obtain rfl : w = u := Option.some.inj h.2
      exact hw.waits

theorem Event.Moves.mutexMove (h : e.Moves idle s s') (hmutex : (s.obj o).objType = .mutex)
    (hby : e.NotBy u s) (hdel : e ≠ .call (.mutexDel o)) :
    MutexMove s s' o u (e.deletes = some u) := by
  rcases h.cases with ⟨c, r, rfl, hmoves, -⟩ | ⟨-, htick⟩ | ⟨-, hobj, -⟩
  · have hc : c ≠ .mutexDel o := by
      rintro rfl
      exact hdel rfl
    rcases hmoves.mutex_cases hmutex hc with hobj | hlock | hunlock | ⟨t, rfl, hpassed⟩
    · exact .of_eq hmutex hobj
    · exact hlock.mutexMove hmutex hby
    · exact hunlock.mutexMove hmutex hby
    · have hmove := hpassed.mutexMove (u := u) hmutex
      exact ⟨hmove.mutex, fun hne => hmove.kept fun heq => hne (congrArg some heq), hmove.fresh⟩
  · exact .of_eq hmutex (by rw [htick.obj])
  · exact .of_eq hmutex (by rw [hobj])

/-! ### What a wait comes to -/

/-- **A task that has called `krhino_mutex_lock` and was blocked**: it waits, or
it has the mutex and is told so, or it does not have it and is told that the
time is over. -/
inductive LockWait (o : O) (u : T) (s : KState T O) : Prop where
  | waiting (h : (s.task u).waitsFor = some o)
  | granted (htold : (s.task u).Told .finish) (h : (s.obj o).OwnedBy u)
  | timedOut (htold : (s.task u).Told .timeout) (h : ¬ (s.obj o).OwnedBy u)

/-- Neither the mutex nor the task is deleted. -/
def Event.Leaves (o : O) (u : T) (e : Event T O) : Prop :=
  e ≠ .call (.mutexDel o) ∧ e.deletes ≠ some u

theorem LockWait.step (h : LockWait o u s) (hs : Ok idle s)
    (hmutex : (s.obj o).objType = .mutex) (hmoves : e.Moves idle s s') (hby : e.NotBy u s)
    (hleaves : e.Leaves o u) : LockWait o u s' := by
  have hmove := hmoves.mutexMove hmutex hby hleaves.1
  cases h with
  | waiting hw =>
    rcases hmoves.fate hleaves.2 with hfate | ⟨rfl, -, hended⟩
    · cases hfate with
      | undisturbed h => exact .waiting (h.waiting o hw)
      | handed hfirst hmutex' howner htold =>
        obtain rfl := Option.some.inj (hfirst.waits.symm.trans hw)
        exact .granted htold ⟨hmutex', howner⟩
      | given _ hw' hsem =>
        obtain rfl := Option.some.inj (hw'.symm.trans hw)
        cases hmove.mutex.symm.trans hsem
      | removed hw' hnone =>
        obtain rfl := Option.some.inj (hw'.symm.trans hw)
        cases hmove.mutex.symm.trans hnone
    · -- the time is over, and the mutex is another's
      have hpend := (KTask.waitsFor_eq_some.1 hw).1
      obtain ⟨v, hv, hvu⟩ := hs.sound.locks.owned u o hw hmutex
      refine .timedOut ⟨?_, hended.free, ?_⟩ ?_
      · rw [KTask.Live, hended.taskState]
        cases (s.task u).taskState <;> simp [TaskStat.awake]
      · rw [hended.blkState, if_pos hpend]
      · rw [hmoves.obj]
        rintro ⟨-, hu⟩
        exact hvu (Option.some.inj (hv.symm.trans hu))
  | granted htold hown =>
    exact .granted (hmoves.told hs hby hleaves.2 htold) (hmove.kept hleaves.2 hown)
  | timedOut htold hnot =>
    refine .timedOut (hmoves.told hs hby hleaves.2 htold) fun hown => ?_
    rcases hmove.fresh hown with h | h
    · exact hnot h
    · cases htold.free.waitsFor.symm.trans h

/-- **What `krhino_mutex_lock` returns after a wait is the truth.** A task that
waits for a mutex, and runs again after any steps of the kernel, finds with
`pend_state_end_proc` that it has the mutex, or that the time is over, and
then it does not have it. That is unless it, or the mutex, is deleted. -/
theorem mutex_lock_returns [Fintype T] (hs : Reachable idle s)
    (hmutex : (s.obj o).objType = .mutex) (hw : (s.task u).waitsFor = some o)
    (hes : kernel.Along (Event.Admissible idle) s es) (hby : kernel.Along (Event.NotBy u) s es)
    (hleaves : ∀ e ∈ es, e.Leaves o u) (hrun : kernel.run s es = some s')
    (hrdy : (s'.task u).taskState = .rdy) :
    Ensures (pendStateEndProc u) s' fun stat s₂ => s₂ = s' ∧
      (stat = .success ∧ (s'.obj o).OwnedBy u ∨ stat = .blkTimeout ∧ ¬ (s'.obj o).OwnedBy u) := by
  have hwait : LockWait o u s' := by
    refine (Machine.inv_of_run
      (I := fun s => Good idle s ∧ (s.obj o).objType = .mutex ∧ LockWait o u s)
      (C := fun s e => (e.Admissible idle s ∧ e.NotBy u s) ∧ e.Leaves o u) ?_
      ⟨hs.good, hmutex, .waiting hw⟩ ((hes.and hby).and (Machine.along_of_forall_mem
        fun e he _ => hleaves e he)) hrun).2.2
    rintro s₁ e s₂ ⟨hgood, hmutex, hwait⟩ ⟨⟨he, hby⟩, hleaves⟩ hstep
    obtain ⟨hgood₂, hmoves⟩ := moves_of_step hgood he hstep
    exact ⟨hgood₂, (hmoves.mutexMove hmutex hby hleaves.1).mutex,
      hwait.step hgood.ok hmutex hmoves hby hleaves⟩
  rw [pendStateEndProc, ensures_bind, ensures_get]
  cases hwait with
  | waiting h => exact absurd hrdy (KTask.waitsFor_eq_some.1 h).1.ne_rdy
  | granted htold h =>
    rw [htold.blkState]
    exact ensures_pure.2 ⟨rfl, .inl ⟨rfl, h⟩⟩
  | timedOut htold h =>
    rw [htold.blkState]
    exact ensures_pure.2 ⟨rfl, .inr ⟨rfl, h⟩⟩

theorem mutex_lock_returns_handRun :
    ∃ s', kernel.run waited handRun = some s' ∧
      Ensures (pendStateEndProc (some false)) s' fun stat s₂ => s₂ = s' ∧
        (stat = .success ∧ (s'.obj ()).OwnedBy (some false) ∨
          stat = .blkTimeout ∧ ¬ (s'.obj ()).OwnedBy (some false)) :=
  ⟨(kernel.run waited handRun).get (by decide +kernel), (Option.some_get _).symm,
    mutex_lock_returns reachable_waited (by decide +kernel) (by decide +kernel) admissible_handRun
      (by decide +kernel) (by simp [handRun, Event.Leaves, Event.deletes, Call.deletes])
      (Option.some_get _).symm (by decide +kernel)⟩

end Hgsdk.Rhino

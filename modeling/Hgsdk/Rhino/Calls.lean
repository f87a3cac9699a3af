import Hgsdk.Common.Machine
import Hgsdk.Rhino.PriChange
/-!
# The calls of the kernel

Calls of `k_mutex.c`, `k_sem.c`, `k_task.c` and `k_sched.c` that tasks and
interrupt handlers make, and the tick, as steps of one machine: the mutexes
and semaphores that are allocated statically; create, sleep, yield, suspend,
resume, change of priority and delete of a task; the lock of the scheduler.

What runs with interrupts disabled is one step. For most calls that is all
from the checks to the last change. `krhino_task_pri_change` makes its
checks before, and `krhino_task_create` sets the record up between two such
sections, when it is linked nowhere: each is a step all the same, which asks
of the others to leave the task alone until then (`Call.Admissible`).
`krhino_tick_proc` has two sections, and each is a step. What
`RHINO_CRITICAL_EXIT_SCHED` adds, the choice of the next task, is a step of
its own: interrupts are enabled before it.

The system is running and has one cpu; pointers passed in are not null.
-/

namespace Hgsdk.Rhino

variable {T O : Type} [DecidableEq T] [DecidableEq O]

/-- How a call ends: it returns at once, it returns after the scheduler has
run (`RHINO_CRITICAL_EXIT_SCHED`), or the task is blocked, and the call
returns what `pend_state_end_proc` finds when the task runs again. -/
inductive Ret where
  | exit (stat : KStat)
  | sched (stat : KStat)
  | pend
  /-- It returns with interrupts disabled: `RHINO_CRITICAL_EXIT` is missing. -/
  | disabled (stat : KStat)
  deriving DecidableEq, Repr

/-- `RHINO_WAIT_FOREVER`. -/
abbrev waitForever : BitVec 64 := -1

/-- `RHINO_NO_WAIT`. -/
abbrev noWait : BitVec 64 := 0

/-- `INTRPT_NESTED_LEVEL_CHK`. -/
def notByIntrpt (m : K T O Ret) : K T O Ret := do
  let s ← get
  if 0 < s.intrptNestedLevel then return .exit .notCalledByIntrpt else m

/-- The check that an object is of the type a call is for. -/
def ofType (obj : O) (objType : ObjType) (m : K T O Ret) : K T O Ret := do
  let s ← get
  if (s.obj obj).objType ≠ objType then return .exit .kobjTypeErr else m

/-- `while (!is_klist_empty(blk_list_head))` over what is done with the
first task each time. -/
def whileBlocked (obj : O) (wake : T → K T O Unit) : K T O Unit :=
  Cmd.iterate (fun _ : Unit => do
    let s ← get
    match s.queues.blkList obj with
    | [] => return .inr ()
    | task :: _ =>
      wake task
      return .inl ()) ()

/-! ### Mutexes -/

/-- `mutex_create`. The nesting count is left as it was found. -/
def krhinoMutexCreate (mutex : O) : K T O Ret := do
  modify fun s => s.setQueues { s.queues with
    blkList := Function.update s.queues.blkList mutex [] }
  modifyObj mutex fun m =>
    { m with blkPolicy := .pri, mutexTask := none, mmAllocFlag := .static, objType := .mutex }
  return .exit .success

/-- The end of `krhino_mutex_lock` for a mutex another task owns. -/
def mutexLockWait (mutex : O) (mutexTask : T) (ticks : BitVec 64) : K T O Ret := do
  let s ← get
  if ticks = noWait then return .exit .noPendWait
  else if 0 < s.schedLock then return .exit .schedDisable
  else
    let task := s.activeTask
    -- a higher prio task blocks on the mutex: prio inversion, the owner inherits
    Cmd.when ((s.task task).prio < (s.task mutexTask).prio) do
      let _ ← taskPriChange mutexTask (s.task task).prio
    pendToBlkObj mutex task ticks
    return .pend

def krhinoMutexLock (mutex : O) (ticks : BitVec 64) : K T O Ret :=
  notByIntrpt <| ofType mutex .mutex do
    let s ← get
    match (s.obj mutex).mutexTask with
    | none =>
      modifyObj mutex fun m => (m.withOwner (some s.activeTask)).withNested 1
      modifyTask s.activeTask fun t => t.withMutexes (mutex :: t.mutexList)
      return .exit .success
    | some mutexTask =>
      if mutexTask = s.activeTask then
        if (s.obj mutex).ownerNested = -1 then kErrProc
        else
          modifyObj mutex fun m => m.withNested (m.ownerNested + 1)
          return .exit .mutexOwnerNested
      else mutexLockWait mutex mutexTask ticks

/-- The mutex goes to the task woken from its list. -/
def mutexHandOver (mutex : O) (task : T) (f : KObj T → KObj T) : K T O Unit := do
  pendTaskWakeup task
  modifyObj mutex fun m => f (m.withOwner (some task))
  modifyTask task fun t => t.withMutexes (mutex :: t.mutexList)

/-- The end of `krhino_mutex_unlock`, by the last of the nested unlocks. -/
def mutexUnlockLast (mutex : O) : K T O Ret := do
  let s ← get
  mutexRelease s.activeTask (some mutex)
  let s ← get
  match s.queues.blkList mutex with
  | [] =>
    modifyObj mutex fun m => m.withOwner none
    return .exit .success
  | task :: _ =>
    mutexHandOver mutex task fun m => m.withNested 1
    return .sched .success

def krhinoMutexUnlock (mutex : O) : K T O Ret :=
  notByIntrpt <| ofType mutex .mutex do
    let s ← get
    if (s.obj mutex).mutexTask ≠ some s.activeTask then
      return .exit .mutexNotReleasedByOwner
    else
      modifyObj mutex fun m => m.withNested (m.ownerNested - 1)
      if (s.obj mutex).ownerNested - 1 ≠ 0 then return .exit .mutexOwnerNested
      else mutexUnlockLast mutex

/-- `if (mutex->mutex_task != NULL)` of `krhino_mutex_del`. -/
def mutexLeaveOwner (mutex : O) : K T O Unit := do
  let s ← get
  match (s.obj mutex).mutexTask with
  | none => return ()
  | some mutexTask => mutexRelease mutexTask (some mutex)

def krhinoMutexDel (mutex : O) : K T O Ret :=
  notByIntrpt <| ofType mutex .mutex do
    let s ← get
    if (s.obj mutex).mmAllocFlag ≠ .static then return .exit .kobjDelErr
    else
      modifyObj mutex fun m => { m with objType := .none }
      mutexLeaveOwner mutex
      whileBlocked mutex pendTaskRm
      return .sched .success

/-! ### Semaphores -/

/-- `sem_create`. -/
def krhinoSemCreate (sem : O) (count : BitVec 32) : K T O Ret := do
  modify fun s => s.setQueues { s.queues with
    blkList := Function.update s.queues.blkList sem [] }
  modifyObj sem fun m =>
    { m with
      count := count, peakCount := count, blkPolicy := .pri, mmAllocFlag := .static,
      objType := .sem }
  return .exit .success

/-- Wakes all the tasks blocked on the semaphore, or `task`, the first. -/
def semWake (sem : O) (task : T) (optWakeAll : Bool) : K T O Unit :=
  if optWakeAll then whileBlocked sem pendTaskWakeup else pendTaskWakeup task

/-- `sem_give`. -/
def semGive (sem : O) (optWakeAll : Bool) : K T O Ret :=
  ofType sem .sem do
    let s ← get
    match s.queues.blkList sem with
    | [] =>
      if (s.obj sem).count = -1 then return .exit .semOvf
      else
        modifyObj sem fun m =>
          { m with
            count := m.count + 1
            peakCount := if m.peakCount < m.count + 1 then m.count + 1 else m.peakCount }
        return .exit .success
    | task :: _ =>
      semWake sem task optWakeAll
      return .sched .success

def krhinoSemGive (sem : O) : K T O Ret := semGive sem false

def krhinoSemGiveAll (sem : O) : K T O Ret := semGive sem true

def krhinoSemTake (sem : O) (ticks : BitVec 64) : K T O Ret :=
  notByIntrpt <| ofType sem .sem do
    let s ← get
    if 0 < (s.obj sem).count then
      modifyObj sem fun m => { m with count := m.count - 1 }
      return .exit .success
    else if ticks = noWait then return .exit .noPendWait
    else if 0 < s.schedLock then return .exit .schedDisable
    else
      pendToBlkObj sem s.activeTask ticks
      return .pend

def krhinoSemCountSet (sem : O) (semCount : BitVec 32) : K T O Ret :=
  notByIntrpt <| ofType sem .sem do
    let s ← get
    if ¬ 0 < (s.obj sem).count ∧ s.queues.blkList sem ≠ [] then return .exit .semTaskWaiting
    else
      modifyObj sem fun m =>
        { m with
          count := semCount
          peakCount := if m.peakCount < semCount then semCount else m.peakCount }
      return .exit .success

def krhinoSemDel (sem : O) : K T O Ret :=
  notByIntrpt <| ofType sem .sem do
    let s ← get
    if (s.obj sem).mmAllocFlag ≠ .static then return .exit .kobjDelErr
    else
      modifyObj sem fun m => { m with objType := .none }
      whileBlocked sem pendTaskRm
      return .sched .success

/-! ### Tasks -/

/-- `RHINO_CONFIG_TIME_SLICE_DEFAULT`. -/
def timeSliceDefault : BitVec 32 := 5

/-- The record `task_create` sets up. -/
def KTask.created (prio : ℕ) (ticks : BitVec 64) (autorun : Bool) : KTask O where
  taskState := if autorun then .rdy else .suspended
  blkState := .finish
  blkObj := none
  prio := prio
  bPrio := prio
  mutexList := []
  suspendCount := if autorun then 0 else 1
  tickMatch := 0
  tickRemain := 0
  tickHead := false
  timeSlice := if 0 < ticks then ticks.setWidth 32 else timeSliceDefault
  timeTotal := if 0 < ticks then ticks.setWidth 32 else timeSliceDefault
  schedPolicy := .rr
  mmAllocFlag := .static

/-- `task_create`, of a statically allocated task, as far as its record
goes. The idle task has been created before any other. -/
def krhinoTaskCreate (task : T) (prio : ℕ) (ticks : BitVec 64) (stackSize : BitVec 32)
    (autorun : Bool) : K T O Ret := do
  if stackSize = 0 then return .exit .taskInvStackSize
  else if priMax ≤ prio then return .exit .beyondMaxPri
  else
    notByIntrpt do
      if prio = idlePri then return .exit .idleTaskExist
      else
        modifyTask task fun _ => .created prio ticks autorun
        if autorun then
          readyListAddTail task
          return .sched .success
        else return .exit .success

def krhinoTaskSleep (ticks : BitVec 64) : K T O Ret := do
  if ticks = 0 then return .exit .invParam
  else
    notByIntrpt do
      let s ← get
      if 0 < s.schedLock then return .exit .schedDisable
      else
        modifyTask s.activeTask fun t => { t with taskState := .sleep }
        tickListInsert s.activeTask ticks
        readyListRm s.activeTask
        return .pend

/-- `ready_list_head_to_tail`. -/
def readyListHeadToTail (task : T) : K T O Unit := do
  let s ← get
  let rq ← Cmd.deref (s.queues.readyQueue.readyListHeadToTail (s.task task).prio)
  set (s.setQueues { s.queues with readyQueue := rq })

def krhinoTaskYield : K T O Ret := do
  let s ← get
  readyListHeadToTail s.activeTask
  return .sched .success

/-- The record with another state, suspended as often as `count` says. -/
def KTask.marked (t : KTask O) (taskState : TaskStat) (count : BitVec 8) : KTask O :=
  { t with taskState := taskState, suspendCount := count }

/-- `task_suspend`. -/
def taskSuspend (task : T) : K T O Ret := do
  let s ← get
  if task = s.activeTask ∧ 0 < s.schedLock then return .exit .schedDisable
  else
    match (s.task task).taskState with
    | .rdy =>
      modifyTask task fun t => t.marked .suspended 1
      readyListRm task
      return .sched .success
    | .sleep =>
      modifyTask task fun t => t.marked .sleepSuspended 1
      return .sched .success
    | .pend =>
      modifyTask task fun t => t.marked .pendSuspended 1
      return .sched .success
    | .suspended | .sleepSuspended | .pendSuspended =>
      if (s.task task).suspendCount = -1 then return .exit .suspendedCountOvf
      else
        modifyTask task fun t => t.marked t.taskState (t.suspendCount + 1)
        return .sched .success
    | .seed | .deleted => return .exit .invTaskState

def krhinoTaskSuspend (task : T) : K T O Ret := do
  let s ← get
  if (s.task task).prio = idlePri then return .exit .taskSuspendNotAllowed
  else taskSuspend task

/-- `task_resume`. -/
def krhinoTaskResume (task : T) : K T O Ret := do
  let s ← get
  let count := (s.task task).suspendCount - 1
  match (s.task task).taskState with
  | .rdy | .sleep | .pend => return .exit .taskNotSuspended
  | .suspended =>
    modifyTask task fun t => t.marked t.taskState count
    Cmd.when (count = 0) do
      modifyTask task fun t => t.marked .rdy t.suspendCount
      readyListAdd task
    return .sched .success
  | .sleepSuspended =>
    modifyTask task fun t => t.marked (if count = 0 then .sleep else t.taskState) count
    return .sched .success
  | .pendSuspended =>
    modifyTask task fun t => t.marked (if count = 0 then .pend else t.taskState) count
    return .sched .success
  | .seed | .deleted => return .exit .invTaskState

/-- `krhino_task_pri_change`. Its first three checks are made before interrupts
are disabled. -/
def krhinoTaskPriChange (task : T) (pri : ℕ) : K T O Ret := do
  let s ← get
  if idlePri ≤ (s.task task).prio then return .exit .priChgNotAllowed
  else if idlePri ≤ pri then return .exit .priChgNotAllowed
  else if (s.task task).taskState = .deleted then return .exit .invTaskState
  else
    notByIntrpt do
      -- the mutexes the task holds limit how far its prio may be lowered
      let priLimit := mutexPriLimit s task pri
      modifyTask task fun t => t.withBase pri
      let error ← taskPriChange task priLimit
      if error ≠ .success then return .exit error else return .sched .success

/-- One turn of the loop of `task_mutex_free`: the mutex goes to the first
task that waits for it. The nesting count goes with it as it is. -/
def mutexPassOn (mutex : O) : K T O Unit := do
  let s ← get
  match s.queues.blkList mutex with
  | [] => modifyObj mutex fun m => m.withOwner none
  | task :: _ => mutexHandOver mutex task id

/-- `task_mutex_free`, over the list as it stood: the link to the next
mutex is read before the mutex is passed on. -/
def taskMutexFree : List O → K T O Unit
  | [] => return ()
  | mutex :: next => do
    mutexPassOn mutex
    taskMutexFree next

/-- The state part of `krhino_task_del`. -/
def taskDelState (task : T) : K T O Ret := do
  let s ← get
  match (s.task task).taskState with
  | .rdy =>
    readyListRm task
    modifyTask task fun t => { t with taskState := .deleted }
    return .sched .success
  | .suspended =>
    modifyTask task fun t => { t with taskState := .deleted }
    return .sched .success
  | .sleep | .sleepSuspended =>
    tickListRm task
    modifyTask task fun t => { t with taskState := .deleted }
    return .sched .success
  | .pend | .pendSuspended =>
    tickListRm task
    blkListRm task
    modifyTask task fun t => { t with taskState := .deleted }
    mutexTaskPriReset task
    return .sched .success
  | .seed | .deleted => return .exit .invTaskState

/-- `krhino_task_del`. For the idle task it leaves interrupts disabled. The
list of a task already deleted is stale, and walking it is not followed. -/
def krhinoTaskDel (task : T) : K T O Ret :=
  notByIntrpt do
    let s ← get
    if (s.task task).prio = idlePri then return .disabled .taskDelNotAllowed
    else if (s.task task).mmAllocFlag ≠ .static then return .exit .kobjDelErr
    else if task = s.activeTask ∧ 0 < s.schedLock then return .exit .schedDisable
    else if (s.task task).taskState = .deleted then Cmd.deref none
    else
      taskMutexFree (s.task task).mutexList
      taskDelState task

/-! ### The scheduler -/

/-- `SCHED_MAX_LOCK_COUNT`. -/
def schedMaxLockCount : ℕ := 200

def krhinoSchedDisable : K T O Ret :=
  notByIntrpt do
    let s ← get
    if schedMaxLockCount ≤ s.schedLock then return .exit .schedLockCountOvf
    else
      set { s with schedLock := s.schedLock + 1 }
      return .exit .success

def krhinoSchedEnable : K T O Ret :=
  notByIntrpt do
    let s ← get
    if s.schedLock = 0 then return .exit .schedAlreadyEnabled
    else
      set { s with schedLock := s.schedLock - 1 }
      if 0 < s.schedLock - 1 then return .exit .schedDisable else return .sched .success

/-- `preferred_cpu_ready_task_get` and the switch to the task it finds. -/
def switchToPreferred : K T O Unit := do
  let s ← get
  let task ← Cmd.deref (s.queues.readyQueue.curListItem s.queues.readyQueue.highestPri).head?
  set { s with activeTask := task }

def coreSched : K T O Unit := do
  let s ← get
  Cmd.when (s.intrptNestedLevel = 0 ∧ s.schedLock = 0) switchToPreferred

/-- `RHINO_CONFIG_INTRPT_MAX_NESTED_LEVEL`. -/
def intrptMaxNestedLevel : ℕ := 188

def krhinoIntrptEnter : K T O Unit := do
  let s ← get
  if intrptMaxNestedLevel ≤ s.intrptNestedLevel then kErrProc
  else set { s with intrptNestedLevel := s.intrptNestedLevel + 1 }

def krhinoIntrptExit : K T O Unit := do
  let s ← get
  if s.intrptNestedLevel = 0 then kErrProc
  else
    set { s with intrptNestedLevel := s.intrptNestedLevel - 1 }
    Cmd.when (s.intrptNestedLevel - 1 = 0 ∧ s.schedLock = 0) switchToPreferred

/-! ### The tick

`krhino_tick_proc` calls `tick_list_update(1)` and then `time_slice_update`. -/

/-- What `tick_list_update` does with a task whose time has come. -/
def tickTimeout (task : T) : K T O Unit := do
  let s ← get
  match (s.task task).taskState with
  | .sleep =>
    modifyTask task fun t => { t with blkState := .finish, taskState := .rdy }
    tickListRm task
    readyListAdd task
  | .pend =>
    tickListRm task
    blkListRm task
    readyListAdd task
    modifyTask task fun t => { t with blkState := .timeout, taskState := .rdy }
    mutexTaskPriReset task
    modifyTask task fun t => t.withBlkObj none
  | .pendSuspended =>
    tickListRm task
    blkListRm task
    modifyTask task fun t => { t with blkState := .timeout, taskState := .suspended }
    mutexTaskPriReset task
    modifyTask task fun t => t.withBlkObj none
  | .sleepSuspended =>
    modifyTask task fun t => { t with taskState := .suspended, blkState := .finish }
    tickListRm task
  | _ => kErrProc

/-- The loop of `tick_list_update`, over what is left of the list. It is
sorted by the time that remains, so the first task that is not due ends
it. -/
def tickListLoop : List T → K T O Unit
  | [] => return ()
  | task :: rest => do
    let s ← get
    if ((s.task task).tickMatch - s.tickCount).toInt ≤ 0 then
      tickTimeout task
      tickListLoop rest
    else return ()

def tickListUpdate (ticks : BitVec 64) : K T O Unit := do
  modify fun s => { s with tickCount := s.tickCount + ticks }
  let s ← get
  tickListLoop s.queues.tickHead

/-- `time_slice_update`: the first task of the priority of the current one
uses up its slice, and then goes behind its equals. -/
def timeSliceUpdate : K T O Unit := do
  let s ← get
  match s.queues.readyQueue.curListItem (s.task s.activeTask).prio with
  | [] | [_] => return ()
  | task :: _ =>
    if (s.task task).schedPolicy = .fifo then return ()
    else
      let slice := if 0 < (s.task task).timeSlice then (s.task task).timeSlice - 1 else 0
      if 0 < slice then modifyTask task fun t => t.withSlice slice
      else
        readyListHeadToTail task
        modifyTask task fun t => t.withSlice t.timeTotal

/-! ### The start -/

/-- The record of a task before it is created: a global starts as zeros. -/
def KTask.blank : KTask O where
  taskState := .seed
  blkState := .finish
  blkObj := none
  prio := 0
  bPrio := 0
  mutexList := []
  suspendCount := 0
  tickMatch := 0
  tickRemain := 0
  tickHead := false
  timeSlice := 0
  timeTotal := 0
  schedPolicy := .fifo
  -- zero is neither of the flags, and any but `static` is read as `dyn`
  mmAllocFlag := .dyn

/-- An object before it is created. -/
def KObj.blank : KObj T where
  objType := .none
  blkPolicy := .pri
  mmAllocFlag := .dyn
  mutexTask := none
  ownerNested := 0
  count := 0
  peakCount := 0

/-- The kernel as `krhino_init` and `krhino_start` leave it: the idle task is
the one task there is. -/
def krhinoStart (idle : T) : KState T O where
  queues :=
    { readyQueue := RunQueue.init.readyListAddTail idle idlePri
      blkList := fun _ => []
      tickHead := [] }
  task := Function.update (fun _ => .blank) idle (.created idlePri 0 true)
  obj _ := .blank
  tickCount := 0
  activeTask := idle
  schedLock := 0
  intrptNestedLevel := 0

/-! ### The machine -/

/-- The calls. -/
inductive Call (T O : Type) where
  | mutexCreate (mutex : O)
  | mutexLock (mutex : O) (ticks : BitVec 64)
  | mutexUnlock (mutex : O)
  | mutexDel (mutex : O)
  | semCreate (sem : O) (count : BitVec 32)
  | semGive (sem : O)
  | semGiveAll (sem : O)
  | semTake (sem : O) (ticks : BitVec 64)
  | semCountSet (sem : O) (count : BitVec 32)
  | semDel (sem : O)
  | taskCreate (task : T) (prio : ℕ) (ticks : BitVec 64) (stackSize : BitVec 32) (autorun : Bool)
  | taskSleep (ticks : BitVec 64)
  | taskYield
  | taskSuspend (task : T)
  | taskResume (task : T)
  | taskPriChange (task : T) (pri : ℕ)
  | taskDel (task : T)
  | schedDisable
  | schedEnable

def Call.exec : Call T O → K T O Ret
  | mutexCreate mutex => krhinoMutexCreate mutex
  | mutexLock mutex ticks => krhinoMutexLock mutex ticks
  | mutexUnlock mutex => krhinoMutexUnlock mutex
  | mutexDel mutex => krhinoMutexDel mutex
  | semCreate sem count => krhinoSemCreate sem count
  | semGive sem => krhinoSemGive sem
  | semGiveAll sem => krhinoSemGiveAll sem
  | semTake sem ticks => krhinoSemTake sem ticks
  | semCountSet sem count => krhinoSemCountSet sem count
  | semDel sem => krhinoSemDel sem
  | taskCreate task prio ticks stackSize autorun =>
    krhinoTaskCreate task prio ticks stackSize autorun
  | taskSleep ticks => krhinoTaskSleep ticks
  | taskYield => krhinoTaskYield
  | taskSuspend task => krhinoTaskSuspend task
  | taskResume task => krhinoTaskResume task
  | taskPriChange task pri => krhinoTaskPriChange task pri
  | taskDel task => krhinoTaskDel task
  | schedDisable => krhinoSchedDisable
  | schedEnable => krhinoSchedEnable

/-- What can happen next: a call, of the running task or of an interrupt
handler; the entry and the end of an interrupt; the two parts of a tick; the
scheduler. -/
inductive Event (T O : Type) where
  | call (c : Call T O)
  | intrptEnter
  | intrptExit
  | tickListUpdate
  | timeSliceUpdate
  | coreSched

def Event.exec : Event T O → K T O Unit
  | call c => do
    let _ ← c.exec
  | intrptEnter => krhinoIntrptEnter
  | intrptExit => krhinoIntrptExit
  | tickListUpdate => Rhino.tickListUpdate 1
  | timeSliceUpdate => Rhino.timeSliceUpdate
  | coreSched => Rhino.coreSched

/-- **The kernel as a machine.** A step is missing only where the code
faults. -/
def kernel : Machine (KState T O) (Event T O) where
  step s e := (e.exec s).map Prod.snd

end Hgsdk.Rhino

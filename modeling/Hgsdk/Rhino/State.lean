import Hgsdk.Common.Command
import Hgsdk.Common.Insert
import Hgsdk.Rhino.RunQueue
/-!
# The state of the kernel

What the modelled part of the rhino kernel keeps: the task control blocks,
the objects tasks block on, and the queues the two are linked into. Tasks
are named by `T` and objects by `O`, in place of their addresses; a null
pointer is `none`. A `klist_t` is the list of what is linked into it.

`Queues.Holds` is where the lists and the records meet: the queues hold
exactly the tasks placed in them, whatever order they are in. Each
elementary operation on a list moves one task from one place to another.
-/

namespace Hgsdk.Rhino

/-- `task_stat_t`. -/
inductive TaskStat where
  | seed | rdy | pend | suspended | pendSuspended | sleep | sleepSuspended | deleted
  deriving DecidableEq, Repr

/-- `blk_state_t`. -/
inductive BlkState where
  | finish | abort | timeout | del | invalid
  deriving DecidableEq, Repr

/-- `blk_policy_t`. -/
inductive BlkPolicy where
  | pri | fifo
  deriving DecidableEq, Repr

/-- `kobj_type_t`. -/
inductive ObjType where
  | none | sem | mutex | queue | bufQueue | timer | event | mmBlk | mm
  deriving DecidableEq, Repr

/-- `K_OBJ_STATIC_ALLOC` and `K_OBJ_DYN_ALLOC`. -/
inductive MmAllocFlag where
  | static | dyn
  deriving DecidableEq, Repr

/-- `KSCHED_FIFO` and `KSCHED_RR`. -/
inductive SchedPolicy where
  | fifo | rr
  deriving DecidableEq, Repr

/-- The values of `kstat_t` the modelled calls return. -/
inductive KStat where
  | success | invParam | invTaskState | notCalledByIntrpt
  | kobjTypeErr | kobjDelErr | noPendWait
  | blkAbort | blkTimeout | blkDel
  | mutexNotReleasedByOwner | mutexOwnerNested
  | semOvf | semTaskWaiting
  | schedDisable | schedAlreadyEnabled | schedLockCountOvf
  | taskInvStackSize | beyondMaxPri | idleTaskExist | priChgNotAllowed
  | taskNotSuspended | taskSuspendNotAllowed | suspendedCountOvf | taskDelNotAllowed
  deriving DecidableEq, Repr

/-- `ktask_t`, as far as the modelled calls read it. -/
structure KTask (O : Type) where
  taskState : TaskStat
  blkState : BlkState
  /-- The object the task blocks on. -/
  blkObj : Option O
  /-- The current priority. -/
  prio : ℕ
  /-- The base priority. -/
  bPrio : ℕ
  /-- The mutexes linked from `mutex_list`. -/
  mutexList : List O
  suspendCount : BitVec 8
  tickMatch : BitVec 64
  tickRemain : BitVec 64
  /-- Whether `tick_head` points to the tick list. -/
  tickHead : Bool
  timeSlice : BitVec 32
  timeTotal : BitVec 32
  schedPolicy : SchedPolicy
  mmAllocFlag : MmAllocFlag

/-- An object tasks block on: the header `blk_obj_t` without its list, and
the fields of a mutex and of a semaphore. -/
structure KObj (T : Type) where
  objType : ObjType
  blkPolicy : BlkPolicy
  mmAllocFlag : MmAllocFlag
  /-- The owner of a mutex. -/
  mutexTask : Option T
  ownerNested : BitVec 32
  /-- The count of a semaphore. -/
  count : BitVec 32
  peakCount : BitVec 32

/-- The object with another owner. -/
def KObj.withOwner {T : Type} (m : KObj T) (t : Option T) : KObj T := { m with mutexTask := t }

/-- The object with another nesting count. -/
def KObj.withNested {T : Type} (m : KObj T) (n : BitVec 32) : KObj T := { m with ownerNested := n }

/-- **What an object keeps to**: a mutex that is owned was locked, once or
more, and the list of a semaphore is by priority. -/
structure KObj.Fine {T : Type} (m : KObj T) : Prop where
  nested : m.objType = .mutex → m.mutexTask ≠ none → m.ownerNested ≠ 0
  policy : m.objType = .sem → m.blkPolicy = .pri

theorem KObj.Fine.of_mutex {T : Type} {m : KObj T} (hm : m.objType = .mutex)
    (hn : m.mutexTask ≠ none → m.ownerNested ≠ 0) : m.Fine := by
  refine ⟨fun _ => hn, fun h => ?_⟩
  cases hm.symm.trans h

/-- The queues tasks are linked into: `g_ready_queue`, the `blk_list` of
every object, and `g_tick_head`. -/
structure Queues (T O : Type) where
  readyQueue : RunQueue T
  blkList : O → List T
  tickHead : List T

/-- **The kernel.** -/
structure KState (T O : Type) where
  queues : Queues T O
  task : T → KTask O
  obj : O → KObj T
  tickCount : BitVec 64
  activeTask : T
  schedLock : ℕ
  intrptNestedLevel : ℕ

namespace KTask

variable {O : Type}

/-- Blocked on an object. -/
def Pending (t : KTask O) : Prop := t.taskState = .pend ∨ t.taskState = .pendSuspended

instance (t : KTask O) : Decidable t.Pending :=
  inferInstanceAs (Decidable (_ ∨ _))

/-- Asleep until a tick. -/
def Asleep (t : KTask O) : Prop := t.taskState = .sleep ∨ t.taskState = .sleepSuspended

/-- Suspended, whatever else the task waits for. -/
def Suspended (t : KTask O) : Prop :=
  t.taskState = .suspended ∨ t.taskState = .pendSuspended ∨ t.taskState = .sleepSuspended

/-- Created and not deleted. -/
def Live (t : KTask O) : Prop := t.taskState ≠ .seed ∧ t.taskState ≠ .deleted

instance (t : KTask O) : Decidable t.Live :=
  inferInstanceAs (Decidable (_ ∧ _))

/-- The priority the task is ready at. -/
def readyAt (t : KTask O) : Option ℕ := if t.taskState = .rdy then some t.prio else none

/-- The object the task is blocked on. -/
def waitsFor (t : KTask O) : Option O := if t.Pending then t.blkObj else none

/-- How long the task still has to wait for its tick. -/
def remain (t : KTask O) (now : BitVec 64) : ℕ := (t.tickMatch - now).toNat

/-- The record with another priority. -/
def withPrio (t : KTask O) (p : ℕ) : KTask O := { t with prio := p }

/-- The record with another base priority. -/
def withBase (t : KTask O) (p : ℕ) : KTask O := { t with bPrio := p }

/-- The record with another object to block on. -/
def withBlkObj (t : KTask O) (obj : Option O) : KTask O := { t with blkObj := obj }

/-- The record with another time slice. -/
def withSlice (t : KTask O) (slice : BitVec 32) : KTask O := { t with timeSlice := slice }

/-- The record with other mutexes linked from it. -/
def withMutexes (t : KTask O) (mutexes : List O) : KTask O := { t with mutexList := mutexes }

section WithPrio

variable (t : KTask O) (p : ℕ)

@[simp] theorem prio_withPrio : (t.withPrio p).prio = p := rfl
@[simp] theorem bPrio_withPrio : (t.withPrio p).bPrio = t.bPrio := rfl
@[simp] theorem taskState_withPrio : (t.withPrio p).taskState = t.taskState := rfl
@[simp] theorem mutexList_withPrio : (t.withPrio p).mutexList = t.mutexList := rfl
@[simp] theorem waitsFor_withPrio : (t.withPrio p).waitsFor = t.waitsFor := rfl
@[simp] theorem tickHead_withPrio : (t.withPrio p).tickHead = t.tickHead := rfl
@[simp] theorem live_withPrio : (t.withPrio p).Live ↔ t.Live := Iff.rfl
@[simp] theorem pending_withPrio : (t.withPrio p).Pending ↔ t.Pending := Iff.rfl
@[simp] theorem withPrio_withPrio (r : ℕ) : (t.withPrio p).withPrio r = t.withPrio r := rfl

end WithPrio

/-- **What a record keeps to**: a task that is blocked is blocked on an
object; a task waits for a tick while it sleeps, and otherwise only while
it is blocked; it is suspended while it has been suspended more often than
resumed. -/
structure Fine (t : KTask O) : Prop where
  pend_obj : t.Pending → ∃ o, t.blkObj = some o
  timed : t.tickHead = true → t.Pending ∨ t.Asleep
  asleep : t.Asleep → t.tickHead = true
  suspended_iff : t.Live → (t.Suspended ↔ t.suspendCount ≠ 0)
  base_lt : t.bPrio < priMax

theorem Fine.withPrio {t : KTask O} (h : t.Fine) (p : ℕ) : (t.withPrio p).Fine :=
  ⟨h.pend_obj, h.timed, h.asleep, h.suspended_iff, h.base_lt⟩

theorem Fine.withMutexes {t : KTask O} (h : t.Fine) (mutexes : List O) :
    (t.withMutexes mutexes).Fine :=
  ⟨h.pend_obj, h.timed, h.asleep, h.suspended_iff, h.base_lt⟩

theorem Fine.untimed {t : KTask O} (h : t.Fine) (ht : t.taskState = .rdy) :
    t.tickHead = false := by
  refine eq_false_of_ne_true fun htimed => ?_
  rcases h.timed htimed with (h | h) | (h | h) <;> cases ht.symm.trans h

theorem remain_of_tickMatch {t : KTask O} {now time : BitVec 64} (h : t.tickMatch = now + time) :
    t.remain now = time.toNat := by
  rw [remain, h, BitVec.add_comm, BitVec.add_sub_cancel]

theorem readyAt_eq_some {t : KTask O} {p : ℕ} :
    t.readyAt = some p ↔ t.taskState = .rdy ∧ t.prio = p := by
  unfold readyAt
  split <;> simp [*]

theorem waitsFor_eq_some {t : KTask O} {o : O} :
    t.waitsFor = some o ↔ t.Pending ∧ t.blkObj = some o := by
  unfold waitsFor
  split <;> simp [*]

theorem readyAt_of_rdy {t : KTask O} (h : t.taskState = .rdy) : t.readyAt = some t.prio :=
  if_pos h

theorem readyAt_of_ne {t : KTask O} (h : t.taskState ≠ .rdy) : t.readyAt = none := if_neg h

theorem readyAt_withPrio_of_ne {t : KTask O} (h : t.taskState ≠ .rdy) (p : ℕ) :
    (t.withPrio p).readyAt = t.readyAt := by
  unfold readyAt
  rw [taskState_withPrio, if_neg h, if_neg h]

theorem Pending.ne_rdy {t : KTask O} (h : t.Pending) : t.taskState ≠ .rdy := by
  rcases h with h | h <;> simp [h]

theorem waitsFor_of_not_pending {t : KTask O} (h : ¬ t.Pending) : t.waitsFor = none := if_neg h

theorem not_pending_of_rdy {t : KTask O} (h : t.taskState = .rdy) : ¬ t.Pending := by
  simp [Pending, h]

theorem Pending.readyAt {t : KTask O} (h : t.Pending) : t.readyAt = none :=
  readyAt_of_ne h.ne_rdy

theorem Pending.live {t : KTask O} (h : t.Pending) : t.Live := by
  rcases h with h | h <;> simp [Live, h]

end KTask

namespace KState

variable {T O : Type}

/-- `s` with other queues. -/
def setQueues (s : KState T O) (q : Queues T O) : KState T O := { s with queues := q }

/-- `s` with another record for `t`. -/
def setTask [DecidableEq T] (s : KState T O) (t : T) (x : KTask O) : KState T O :=
  { s with task := Function.update s.task t x }

/-- `s` with another record for `o`. -/
def setObj [DecidableEq O] (s : KState T O) (o : O) (m : KObj T) : KState T O :=
  { s with obj := Function.update s.obj o m }

section Fields

variable (s : KState T O) (q : Queues T O)

@[simp] theorem setQueues_queues : (s.setQueues q).queues = q := rfl
@[simp] theorem setQueues_task : (s.setQueues q).task = s.task := rfl
@[simp] theorem setQueues_obj : (s.setQueues q).obj = s.obj := rfl
@[simp] theorem setQueues_tickCount : (s.setQueues q).tickCount = s.tickCount := rfl
@[simp] theorem setQueues_activeTask : (s.setQueues q).activeTask = s.activeTask := rfl
@[simp] theorem setQueues_schedLock : (s.setQueues q).schedLock = s.schedLock := rfl
@[simp] theorem setQueues_intrptNestedLevel :
    (s.setQueues q).intrptNestedLevel = s.intrptNestedLevel := rfl
@[simp] theorem setQueues_setQueues (q' : Queues T O) :
    (s.setQueues q).setQueues q' = s.setQueues q' := rfl
@[simp] theorem setQueues_self : s.setQueues s.queues = s := rfl

section

variable [DecidableEq T] (t : T) (x : KTask O)

@[simp] theorem setTask_queues : (s.setTask t x).queues = s.queues := rfl
@[simp] theorem setTask_task : (s.setTask t x).task = Function.update s.task t x := rfl
@[simp] theorem setTask_obj : (s.setTask t x).obj = s.obj := rfl
@[simp] theorem setTask_tickCount : (s.setTask t x).tickCount = s.tickCount := rfl
@[simp] theorem setTask_activeTask : (s.setTask t x).activeTask = s.activeTask := rfl
@[simp] theorem setTask_schedLock : (s.setTask t x).schedLock = s.schedLock := rfl
@[simp] theorem setTask_intrptNestedLevel :
    (s.setTask t x).intrptNestedLevel = s.intrptNestedLevel := rfl
@[simp] theorem setTask_setQueues : (s.setTask t x).setQueues q = (s.setQueues q).setTask t x := rfl
@[simp] theorem setTask_setTask (y : KTask O) : (s.setTask t x).setTask t y = s.setTask t y := by
  simp only [setTask, Function.update_idem]
@[simp] theorem setTask_self : s.setTask t (s.task t) = s := by
  simp only [setTask, Function.update_eq_self]

end

variable [DecidableEq O] (o : O) (m : KObj T)

@[simp] theorem setObj_queues : (s.setObj o m).queues = s.queues := rfl
@[simp] theorem setObj_task : (s.setObj o m).task = s.task := rfl
@[simp] theorem setObj_obj : (s.setObj o m).obj = Function.update s.obj o m := rfl
@[simp] theorem setObj_tickCount : (s.setObj o m).tickCount = s.tickCount := rfl
@[simp] theorem setObj_activeTask : (s.setObj o m).activeTask = s.activeTask := rfl
@[simp] theorem setObj_schedLock : (s.setObj o m).schedLock = s.schedLock := rfl
@[simp] theorem setObj_intrptNestedLevel :
    (s.setObj o m).intrptNestedLevel = s.intrptNestedLevel := rfl
@[simp] theorem setObj_setQueues : (s.setObj o m).setQueues q = (s.setQueues q).setObj o m := rfl
@[simp] theorem setObj_self : s.setObj o (s.obj o) = s := by
  simp only [setObj, Function.update_eq_self]
@[simp] theorem setObj_setTask [DecidableEq T] (t : T) (x : KTask O) :
    (s.setObj o m).setTask t x = (s.setTask t x).setObj o m := rfl

end Fields

end KState

/-! ### The queues hold what is placed in them -/

namespace Queues

variable {T O : Type}

/-- **The queues hold exactly the tasks placed in them**: ready at a
priority, blocked on an object, waiting for a tick. -/
structure Holds (q : Queues T O) (ready : T → Option ℕ) (blocked : T → Option O)
    (timed : T → Bool) : Prop where
  ready : q.readyQueue.Holds ready
  mem_blk : ∀ o t, t ∈ q.blkList o ↔ blocked t = some o
  nodup_blk : ∀ o, (q.blkList o).Nodup
  mem_tick : ∀ t, t ∈ q.tickHead ↔ timed t = true
  nodup_tick : q.tickHead.Nodup

namespace Holds

variable {q : Queues T O} {ready : T → Option ℕ} {blocked : T → Option O} {timed : T → Bool}
variable {t u : T} {o : O} {p r : ℕ}

/-- The ready queue may be any that holds as much. -/
theorem withReady (h : q.Holds ready blocked timed) {rq : RunQueue T} {ready' : T → Option ℕ}
    (hrq : rq.Holds ready') :
    ({ q with readyQueue := rq } : Queues T O).Holds ready' blocked timed :=
  ⟨hrq, h.mem_blk, h.nodup_blk, h.mem_tick, h.nodup_tick⟩

variable [DecidableEq T] [DecidableEq O]

omit [DecidableEq O] in
theorem tickRm (h : q.Holds ready blocked timed) (t : T) :
    ({ q with tickHead := q.tickHead.erase t } : Queues T O).Holds ready blocked
      (Function.update timed t false) where
  ready := h.ready
  mem_blk := h.mem_blk
  nodup_blk := h.nodup_blk
  mem_tick u := by
    show u ∈ q.tickHead.erase t ↔ _
    rw [h.nodup_tick.mem_erase_iff, h.mem_tick]
    by_cases hut : u = t
    · subst hut
      simp
    · simp [hut]
  nodup_tick := h.nodup_tick.erase t

omit [DecidableEq O] in
theorem tickInsert (h : q.Holds ready blocked timed) (ht : timed t = false) (stop : T → Bool) :
    ({ q with tickHead := insertBefore stop t q.tickHead } : Queues T O).Holds ready blocked
      (Function.update timed t true) where
  ready := h.ready
  mem_blk := h.mem_blk
  nodup_blk := h.nodup_blk
  mem_tick u := by
    show u ∈ insertBefore stop t q.tickHead ↔ _
    rw [mem_insertBefore, h.mem_tick]
    by_cases hut : u = t
    · subst hut
      simp
    · simp [hut]
  nodup_tick := by
    refine nodup_insertBefore (fun hmem => ?_) h.nodup_tick
    rw [h.mem_tick, ht] at hmem
    cases hmem

/-- A task leaves the list of the object it is blocked on. -/
theorem blkRm (h : q.Holds ready blocked timed) (ht : blocked t = some o) :
    ({ q with blkList := Function.update q.blkList o ((q.blkList o).erase t) } : Queues T O).Holds
      ready (Function.update blocked t none) timed where
  ready := h.ready
  mem_blk o' u := by
    show u ∈ Function.update q.blkList o ((q.blkList o).erase t) o' ↔ _
    by_cases ho : o' = o
    · subst ho
      rw [Function.update_self, (h.nodup_blk _).mem_erase_iff, h.mem_blk]
      by_cases hut : u = t
      · subst hut
        simp
      · simp [hut]
    · rw [Function.update_of_ne ho, h.mem_blk]
      by_cases hut : u = t
      · subst hut
        rw [ht, Function.update_self]
        exact iff_of_false (fun h => ho (Option.some.inj h).symm) (by rintro ⟨⟩)
      · rw [Function.update_of_ne hut]
  nodup_blk o' := by
    show (Function.update q.blkList o ((q.blkList o).erase t) o').Nodup
    by_cases ho : o' = o
    · subst ho
      rw [Function.update_self]
      exact (h.nodup_blk _).erase t
    · rw [Function.update_of_ne ho]
      exact h.nodup_blk o'
  mem_tick := h.mem_tick
  nodup_tick := h.nodup_tick

/-- A task that is blocked on nothing joins the list of an object, wherever
in it. -/
theorem blkAdd (h : q.Holds ready blocked timed) (ht : blocked t = none) {l : List T}
    (hl : l.Perm (t :: q.blkList o)) :
    ({ q with blkList := Function.update q.blkList o l } : Queues T O).Holds
      ready (Function.update blocked t (some o)) timed where
  ready := h.ready
  mem_blk o' u := by
    show u ∈ Function.update q.blkList o l o' ↔ _
    by_cases ho : o' = o
    · subst ho
      rw [Function.update_self, hl.mem_iff, List.mem_cons, h.mem_blk]
      by_cases hut : u = t
      · subst hut
        simp
      · simp [hut]
    · rw [Function.update_of_ne ho, h.mem_blk]
      by_cases hut : u = t
      · subst hut
        rw [ht, Function.update_self, Option.some.injEq]
        exact iff_of_false (by rintro ⟨⟩) (Ne.symm ho)
      · rw [Function.update_of_ne hut]
  nodup_blk o' := by
    show (Function.update q.blkList o l o').Nodup
    by_cases ho : o' = o
    · subst ho
      rw [Function.update_self, hl.nodup_iff, List.nodup_cons, h.mem_blk, ht]
      exact ⟨by rintro ⟨⟩, h.nodup_blk _⟩
    · rw [Function.update_of_ne ho]
      exact h.nodup_blk o'
  mem_tick := h.mem_tick
  nodup_tick := h.nodup_tick

end Holds

end Queues

end Hgsdk.Rhino

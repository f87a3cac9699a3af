import Hgsdk.Rhino.State
import Mathlib.Data.Nat.Basic
/-!
# Blocking and waking

`k_pend.c`, and what it calls of `k_sched.c` and `k_tick.c`: a task that
cannot go on leaves the ready queue for the list of the object it blocks
on, and with a timeout joins the tick list; a task that is woken leaves
both.

A list operation on a task that is not where its record says is not
followed: it faults. So does whatever reaches `k_err_proc`. What each
function does to a state whose queues hold what the records say is a
lemma: the records it leaves are given outright, and the queues hold what
those say.
-/

namespace Hgsdk.Rhino

variable {T O : Type} [DecidableEq T]
variable {s s' : KState T O} {q : Queues T O} {t u : T} {o : O} {x : KTask O} {p : ℕ}
variable {ready : T → Option ℕ} {blocked : T → Option O} {timed : T → Bool}

/-- A function of the kernel. -/
abbrev K (T O : Type) := Cmd (KState T O)

/-- `k_err_proc`: a fatal error, after which nothing is followed. -/
def kErrProc {α : Type} : K T O α := Cmd.deref none

def modifyTask (task : T) (f : KTask O → KTask O) : K T O Unit :=
  modify fun s => s.setTask task (f (s.task task))

@[simp] theorem ensures_modifyTask {f : KTask O → KTask O} {Q : Unit → KState T O → Prop} :
    Ensures (modifyTask t f) s Q ↔ Q () (s.setTask t (f (s.task t))) :=
  ensures_modify

/-! ### Queues that agree with the records -/

/-- The tick list is in the order of the time that remains. -/
def KState.Due (s : KState T O) : Prop :=
  s.queues.tickHead.Pairwise fun u v =>
    (s.task u).remain s.tickCount ≤ (s.task v).remain s.tickCount

/-- **The queues hold what the records say**, the tick list in its order, and
the lists of objects whose policy is by priority in that order. -/
structure Lists (s : KState T O) : Prop where
  holds : s.queues.Holds (KTask.readyAt ∘ s.task) (KTask.waitsFor ∘ s.task)
    (KTask.tickHead ∘ s.task)
  sorted : ∀ o, (s.obj o).blkPolicy = .pri →
    (s.queues.blkList o).Pairwise fun u v => (s.task u).prio ≤ (s.task v).prio
  due : s.Due
  prio_lt : ∀ t, (s.task t).prio < priMax

omit [DecidableEq T] in
theorem Lists.mem_blkList (h : Lists s) :
    t ∈ s.queues.blkList o ↔ (s.task t).waitsFor = some o :=
  h.holds.mem_blk o t

/-- What a new record leaves as it was. -/
theorem update_view {β : Type} {f : KTask O → β} (hx : f x = f (s.task t)) :
    Function.update (f ∘ s.task) t (f x) = f ∘ s.task := by
  rw [hx]
  exact Function.update_eq_self t (f ∘ s.task)

/-- The order of a list a record of which is replaced by one that sorts
alike, or that the task is not in. -/
theorem pairwise_setTask {β : Type} [LE β] (key : KTask O → β) {l : List T}
    (h : l.Pairwise fun u v => key (s.task u) ≤ key (s.task v))
    (ht : key x = key (s.task t) ∨ t ∉ l) :
    l.Pairwise fun u v => key ((s.setTask t x).task u) ≤ key ((s.setTask t x).task v) := by
  have hsame : ∀ u ∈ l, key ((s.setTask t x).task u) = key (s.task u) := by
    intro u hu
    rw [KState.setTask_task]
    by_cases hut : u = t
    · subst hut
      rw [Function.update_self]
      exact ht.resolve_right (not_not.2 hu)
    · rw [Function.update_of_ne hut]
  refine h.imp_of_mem fun hu hv hle => ?_
  rwa [hsame _ hu, hsame _ hv]

/-- The tick list, or part of it, is in order if the time of the task is as
it was, or it is not in the list. -/
theorem KState.Due.setTask (h : s.Due)
    (hx : x.tickMatch = (s.task t).tickMatch ∨ t ∉ s.queues.tickHead)
    (hq : q.tickHead.Sublist s.queues.tickHead) : ((s.setQueues q).setTask t x).Due := by
  refine pairwise_setTask (KTask.remain · s.tickCount) (h.sublist hq) (hx.imp (fun h => ?_) ?_)
  · rw [KTask.remain, h]
    rfl
  · exact fun hnot hmem => hnot (hq.subset hmem)

/-- A task joins the tick list before the first that has longer to wait. -/
theorem KState.Due.insert (h : s.Due) (ht : t ∉ s.queues.tickHead) {stop : T → Bool}
    (hstop : ∀ v ∈ s.queues.tickHead,
      stop v = true ↔ x.remain s.tickCount < (s.task v).remain s.tickCount)
    (hq : q.tickHead = insertBefore stop t s.queues.tickHead) :
    ((s.setQueues q).setTask t x).Due := by
  have hsorted := pairwise_setTask (KTask.remain · s.tickCount) (x := x) h (.inr ht)
  unfold KState.Due
  rw [KState.setTask_queues, KState.setQueues_queues, hq]
  refine pairwise_insertBefore hsorted fun v hv => ?_
  have hvt : v ≠ t := by
    rintro rfl
    exact ht hv
  rw [hstop v hv, KState.setTask_task, Function.update_self, Function.update_of_ne hvt]
  rfl

/-- One record is replaced by another, and the task moved to where that
says. -/
theorem Lists.setTask (h : Lists s)
    (hq : q.Holds (Function.update (KTask.readyAt ∘ s.task) t x.readyAt)
      (Function.update (KTask.waitsFor ∘ s.task) t x.waitsFor)
      (Function.update (KTask.tickHead ∘ s.task) t x.tickHead))
    (hprio : x.prio < priMax)
    (hsorted : ∀ o, (s.obj o).blkPolicy = .pri → (q.blkList o).Pairwise fun u v =>
      ((s.setTask t x).task u).prio ≤ ((s.setTask t x).task v).prio)
    (hdue : ((s.setQueues q).setTask t x).Due) : Lists ((s.setQueues q).setTask t x) := by
  refine ⟨?_, hsorted, hdue, fun u => ?_⟩
  · simpa only [KState.setTask_task, KState.setTask_queues, KState.setQueues_task,
      KState.setQueues_queues, Function.comp_update] using hq
  · simp only [KState.setTask_task, KState.setQueues_task]
    by_cases hut : u = t
    · subst hut
      rwa [Function.update_self]
    · rw [Function.update_of_ne hut]
      exact h.prio_lt u

/-- The same for a record of the same priority. -/
theorem Lists.setTask_of_prio_eq (h : Lists s)
    (hq : q.Holds (Function.update (KTask.readyAt ∘ s.task) t x.readyAt)
      (Function.update (KTask.waitsFor ∘ s.task) t x.waitsFor)
      (Function.update (KTask.tickHead ∘ s.task) t x.tickHead))
    (hprio : x.prio = (s.task t).prio)
    (hsorted : ∀ o, (s.obj o).blkPolicy = .pri → (q.blkList o).Pairwise fun u v =>
      (s.task u).prio ≤ (s.task v).prio)
    (hdue : ((s.setQueues q).setTask t x).Due) : Lists ((s.setQueues q).setTask t x) := by
  refine h.setTask hq (hprio.trans_lt (h.prio_lt t)) (fun o ho => ?_) hdue
  exact pairwise_setTask KTask.prio (hsorted o ho) (.inl hprio)

/-! ### The ready queue -/

/-- `ready_list_add_head`. -/
def readyListAddHead (task : T) : K T O Unit :=
  modify fun s => s.setQueues { s.queues with
    readyQueue := s.queues.readyQueue.readyListAddHead task (s.task task).prio }

/-- `ready_list_add_tail`. -/
def readyListAddTail (task : T) : K T O Unit :=
  modify fun s => s.setQueues { s.queues with
    readyQueue := s.queues.readyQueue.readyListAddTail task (s.task task).prio }

/-- `ready_list_add`: behind the tasks of the priority of the current one,
before those of any other. -/
def readyListAdd (task : T) : K T O Unit := do
  let s ← get
  if (s.task task).prio = (s.task s.activeTask).prio then readyListAddTail task
  else readyListAddHead task

/-- `ready_list_rm`. -/
def readyListRm (task : T) : K T O Unit := do
  let s ← get
  let rq ← Cmd.deref (s.queues.readyQueue.readyListRm task (s.task task).prio)
  set (s.setQueues { s.queues with readyQueue := rq })

/-- `s'` is `s` with another ready queue, and its queues hold what is said. -/
def Requeued (s : KState T O) (ready : T → Option ℕ) (blocked : T → Option O)
    (timed : T → Bool) (s' : KState T O) : Prop :=
  ∃ rq, s' = s.setQueues { s.queues with readyQueue := rq } ∧ s'.queues.Holds ready blocked timed

theorem ensures_readyListAddHead (h : s.queues.Holds ready blocked timed) (ht : ready t = none)
    (hp : (s.task t).prio < priMax) :
    Ensures (readyListAddHead t) s fun _ =>
      Requeued s (Function.update ready t (some (s.task t).prio)) blocked timed :=
  ensures_modify.2 ⟨_, rfl, h.withReady (h.ready.readyListAddHead ht hp)⟩

theorem ensures_readyListAddTail (h : s.queues.Holds ready blocked timed) (ht : ready t = none)
    (hp : (s.task t).prio < priMax) :
    Ensures (readyListAddTail t) s fun _ =>
      Requeued s (Function.update ready t (some (s.task t).prio)) blocked timed :=
  ensures_modify.2 ⟨_, rfl, h.withReady (h.ready.readyListAddTail ht hp)⟩

theorem ensures_readyListAdd (h : s.queues.Holds ready blocked timed) (ht : ready t = none)
    (hp : (s.task t).prio < priMax) :
    Ensures (readyListAdd t) s fun _ =>
      Requeued s (Function.update ready t (some (s.task t).prio)) blocked timed := by
  rw [readyListAdd, ensures_bind, ensures_get]
  split
  · exact ensures_readyListAddTail h ht hp
  · exact ensures_readyListAddHead h ht hp

/-- A ready task leaves the queue, where another is left. -/
theorem ensures_readyListRm (h : s.queues.Holds ready blocked timed)
    (ht : ready t = some (s.task t).prio) (hu : ready u = some p) (hut : u ≠ t) :
    Ensures (readyListRm t) s fun _ => Requeued s (Function.update ready t none) blocked timed := by
  obtain ⟨rq, hrm, hrq⟩ := h.ready.exists_readyListRm ht hu hut
  rw [readyListRm, ensures_bind, ensures_get, ensures_bind, ensures_deref]
  exact ⟨rq, hrm, ensures_set.2 ⟨rq, rfl, h.withReady hrq⟩⟩

/-! ### The tick list -/

/-- `tick_list_pri_insert`. -/
def tickListPriInsert (task : T) : K T O Unit :=
  modify fun s =>
    let val := (s.task task).tickRemain
    s.setQueues { s.queues with
      tickHead := insertBefore (fun q => decide (val < (s.task q).tickMatch - s.tickCount)) task
        s.queues.tickHead }

def tickListInsert (task : T) (time : BitVec 64) : K T O Unit :=
  Cmd.when (0 < time) do
    let s ← get
    modifyTask task fun t => { t with tickMatch := s.tickCount + time, tickRemain := time }
    tickListPriInsert task
    modifyTask task fun t => { t with tickHead := true }

def tickListRm (task : T) : K T O Unit := do
  let s ← get
  Cmd.when ((s.task task).tickHead = true) do
    modify fun s => s.setQueues { s.queues with tickHead := s.queues.tickHead.erase task }
    modifyTask task fun t => { t with tickHead := false }

/-- A task leaves the tick list, if it is in it. -/
theorem ensures_tickListRm (h : s.queues.Holds ready blocked timed)
    (ht : timed t = (s.task t).tickHead) :
    Ensures (tickListRm t) s fun _ s' =>
      s' = (s.setQueues { s.queues with tickHead := s.queues.tickHead.erase t }).setTask t
        { s.task t with tickHead := false } := by
  rw [tickListRm, ensures_bind, ensures_get, ensures_when]
  refine ⟨fun _ => ?_, fun hne => ?_⟩
  · rw [ensures_bind, ensures_modify]
    exact ensures_modify.2 rfl
  · have hfalse : (s.task t).tickHead = false := eq_false_of_ne_true hne
    have hnot : t ∉ s.queues.tickHead := by
      rw [h.mem_tick, ht]
      exact hne
    have htask : ({ s.task t with tickHead := false } : KTask O) = s.task t := by
      rw [← hfalse]
    rw [List.erase_of_not_mem hnot, htask]
    exact (KState.setTask_self s t).symm

/-- A task joins the tick list. -/
theorem ensures_tickListInsert {time : BitVec 64} (ht : t ∉ s.queues.tickHead)
    (htime : 0 < time) :
    Ensures (tickListInsert t time) s fun _ s' => ∃ stop : T → Bool,
      (∀ v ∈ s.queues.tickHead, stop v = true ↔ time.toNat < (s.task v).remain s.tickCount) ∧
      s' = (s.setQueues { s.queues with
          tickHead := insertBefore stop t s.queues.tickHead }).setTask t
        { s.task t with
          tickMatch := s.tickCount + time, tickRemain := time, tickHead := true } := by
  rw [tickListInsert, ensures_when]
  refine ⟨fun _ => ?_, fun hn => absurd htime hn⟩
  simp only [ensures_bind, ensures_get, ensures_modifyTask, tickListPriInsert, ensures_modify]
  refine ⟨fun v => decide (time < ((s.setTask t { s.task t with
    tickMatch := s.tickCount + time, tickRemain := time }).task v).tickMatch - s.tickCount),
    fun v hv => ?_, ?_⟩
  · have hvt : v ≠ t := by
      rintro rfl
      exact ht hv
    rw [decide_eq_true_iff, KState.setTask_task, Function.update_of_ne hvt]
    exact BitVec.lt_def
  · simp only [KState.setTask_task, KState.setTask_setQueues, KState.setQueues_task,
      KState.setTask_setTask, Function.update_self, KState.setTask_queues, KState.setTask_tickCount]
    rfl

/-! ### The lists of the objects -/

variable [DecidableEq O]

def modifyObj (obj : O) (f : KObj T → KObj T) : K T O Unit :=
  modify fun s => s.setObj obj (f (s.obj obj))

omit [DecidableEq T] in
@[simp] theorem ensures_modifyObj {f : KObj T → KObj T} {Q : Unit → KState T O → Prop} :
    Ensures (modifyObj o f) s Q ↔ Q () (s.setObj o (f (s.obj o))) :=
  ensures_modify

/-- `klist_rm` of a task that is linked into the list of the object it
blocks on. -/
def blkListRm (task : T) : K T O Unit := do
  let s ← get
  let obj ← Cmd.deref (s.task task).blkObj
  if task ∈ s.queues.blkList obj then
    set (s.setQueues { s.queues with
      blkList := Function.update s.queues.blkList obj ((s.queues.blkList obj).erase task) })
  else Cmd.deref none

/-- `klist_insert` at the end of the list of an object. -/
def blkListInsert (obj : O) (task : T) : K T O Unit :=
  modify fun s => s.setQueues { s.queues with
    blkList := Function.update s.queues.blkList obj (s.queues.blkList obj ++ [task]) }

def pendListAdd (obj : O) (task : T) : K T O Unit :=
  modify fun s => s.setQueues { s.queues with
    blkList := Function.update s.queues.blkList obj
      (insertBefore (fun q => decide ((s.task task).prio < (s.task q).prio)) task
        (s.queues.blkList obj)) }

theorem ensures_blkListRm (h : s.queues.Holds ready blocked timed) (ht : blocked t = some o)
    (hobj : (s.task t).blkObj = some o) :
    Ensures (blkListRm t) s fun _ s' =>
      s' = s.setQueues { s.queues with
        blkList := Function.update s.queues.blkList o ((s.queues.blkList o).erase t) } ∧
      s'.queues.Holds ready (Function.update blocked t none) timed := by
  rw [blkListRm, ensures_bind, ensures_get, ensures_bind, ensures_deref]
  refine ⟨o, hobj, ?_⟩
  rw [if_pos ((h.mem_blk o t).2 ht)]
  exact ensures_set.2 ⟨rfl, h.blkRm ht⟩

/-- A task that is blocked on nothing joins the list of an object, in the
order of priorities if that is how it is kept. -/
theorem ensures_pendListAdd (h : s.queues.Holds ready blocked timed) (ht : blocked t = none) :
    Ensures (pendListAdd o t) s fun _ s' => ∃ l,
      s' = s.setQueues { s.queues with blkList := Function.update s.queues.blkList o l } ∧
      s'.queues.Holds ready (Function.update blocked t (some o)) timed ∧
      ((s.queues.blkList o).Pairwise (fun u v => (s.task u).prio ≤ (s.task v).prio) →
        l.Pairwise fun u v => (s.task u).prio ≤ (s.task v).prio) := by
  refine ensures_modify.2 ⟨_, rfl, h.blkAdd ht (insertBefore_perm ..), fun hsorted => ?_⟩
  exact pairwise_insertBefore hsorted fun v _ => decide_eq_true_iff

omit [DecidableEq T] in
/-- Lists one of which is replaced are sorted where that one is. -/
theorem pairwise_update {r : T → T → Prop} {blkList : O → List T} {l : List T} {c : O → Prop}
    (h : ∀ o', c o' → o' ≠ o → (blkList o').Pairwise r) (hl : c o → l.Pairwise r) (o' : O)
    (ho' : c o') : (Function.update blkList o l o').Pairwise r := by
  by_cases ho : o' = o
  · subst ho
    rw [Function.update_self]
    exact hl ho'
  · rw [Function.update_of_ne ho]
    exact h o' ho' ho

/-! ### `k_pend.c` -/

/-- The task leaves the list of the object: for the ready queue, or for the
suspended tasks if it is suspended as well. -/
def pendTaskUnblock (task : T) : K T O Unit := do
  let s ← get
  match (s.task task).taskState with
  | .pend =>
    blkListRm task
    readyListAdd task
    modifyTask task fun t => { t with taskState := .rdy }
  | .pendSuspended =>
    blkListRm task
    modifyTask task fun t => { t with taskState := .suspended }
  | _ => kErrProc

/-- What `pend_task_wakeup` and `pend_task_rm` share: they differ in the
state the task is to find itself woken with. -/
def pendTaskEnd (task : T) (blkState : BlkState) : K T O Unit := do
  pendTaskUnblock task
  tickListRm task
  modifyTask task fun t => { t with blkState := blkState, blkObj := none }

def pendTaskWakeup (task : T) : K T O Unit := pendTaskEnd task .finish

def pendTaskRm (task : T) : K T O Unit := pendTaskEnd task .del

/-- The record of a task that blocks, and the tick list if it is to wait no
longer than a given time. -/
def pendTimed (blkObj : O) (task : T) (timeout : BitVec 64) : K T O Unit := do
  modifyTask task fun t => { t with blkObj := some blkObj }
  Cmd.when (timeout ≠ -1) (tickListInsert task timeout)
  modifyTask task fun t => { t with taskState := .pend }

def pendToBlkObj (blkObj : O) (task : T) (timeout : BitVec 64) : K T O Unit := do
  pendTimed blkObj task timeout
  readyListRm task
  let s ← get
  if (s.obj blkObj).blkPolicy = .fifo then blkListInsert blkObj task
  else pendListAdd blkObj task

def pendListReorder (task : T) : K T O Unit := do
  let s ← get
  let obj ← Cmd.deref (s.task task).blkObj
  Cmd.when ((s.obj obj).blkPolicy = .pri) do
    blkListRm task
    pendListAdd obj task

/-- `pend_state_end_proc`: what a call that blocked returns. -/
def pendStateEndProc (task : T) : K T O KStat := do
  let s ← get
  match (s.task task).blkState with
  | .finish => return .success
  | .abort => return .blkAbort
  | .timeout => return .blkTimeout
  | .del => return .blkDel
  | .invalid => kErrProc

/-! ### What blocking and waking do -/

/-- The state a task is left in that is blocked no longer. -/
def TaskStat.unblocked : TaskStat → TaskStat
  | .pendSuspended => .suspended
  | _ => .rdy

namespace KTask

/-- The record of a task that is woken. -/
def woken (x : KTask O) (blkState : BlkState) : KTask O :=
  { x with
    taskState := x.taskState.unblocked, tickHead := false, blkState := blkState, blkObj := none }

/-- The record of a task that blocks. -/
def blockedOn (x : KTask O) (obj : O) (now timeout : BitVec 64) : KTask O :=
  if timeout = -1 ∨ timeout = 0 then { x with blkObj := some obj, taskState := .pend }
  else
    { x with
      blkObj := some obj, taskState := .pend, tickMatch := now + timeout, tickRemain := timeout,
      tickHead := true }

omit [DecidableEq O] in
theorem waitsFor_woken {b : BlkState} : (x.woken b).waitsFor = none := by
  unfold waitsFor
  split <;> rfl

omit [DecidableEq O] in
theorem readyAt_woken {b : BlkState} (hx : x.Pending) :
    (x.woken b).readyAt = if x.taskState = .pend then some x.prio else none := by
  rcases hx with hx | hx <;> simp [readyAt, woken, TaskStat.unblocked, hx]

omit [DecidableEq O] in
theorem readyAt_blockedOn {now timeout : BitVec 64} :
    (x.blockedOn o now timeout).readyAt = none := by
  unfold blockedOn readyAt
  split <;> rfl

omit [DecidableEq O] in
theorem waitsFor_blockedOn {now timeout : BitVec 64} :
    (x.blockedOn o now timeout).waitsFor = some o := by
  unfold blockedOn
  split <;> exact if_pos (.inl rfl)

omit [DecidableEq O] in
theorem prio_blockedOn {now timeout : BitVec 64} :
    (x.blockedOn o now timeout).prio = x.prio := by
  unfold blockedOn
  split <;> rfl

omit [DecidableEq O] in
theorem blkState_blockedOn {now timeout : BitVec 64} :
    (x.blockedOn o now timeout).blkState = x.blkState := by
  unfold blockedOn
  split <;> rfl

omit [DecidableEq O] in
theorem fine_woken {b : BlkState} (hx : x.Pending) (h : x.Fine) : (x.woken b).Fine := by
  have hcount := h.suspended_iff hx.live
  refine ⟨?_, ?_, ?_, fun _ => ?_, h.base_lt⟩
  all_goals
    rcases hx with hx | hx <;>
      simp_all [woken, Pending, Asleep, Suspended, TaskStat.unblocked]

omit [DecidableEq O] in
theorem fine_blockedOn {now timeout : BitVec 64} (hx : x.taskState = .rdy) (h : x.Fine) :
    (x.blockedOn o now timeout).Fine := by
  have hcount := h.suspended_iff (by simp [Live, hx])
  have huntimed := h.untimed hx
  unfold blockedOn
  split
  · refine ⟨fun _ => ⟨o, rfl⟩, fun _ => .inl (.inl rfl), ?_, fun _ => ?_, h.base_lt⟩
    all_goals simp_all [Asleep, Suspended]
  · refine ⟨fun _ => ⟨o, rfl⟩, fun _ => .inl (.inl rfl), fun _ => rfl, fun _ => ?_, h.base_lt⟩
    simp_all [Suspended]

omit [DecidableEq O] in
/-- A task that blocks for a time has that time left. -/
theorem remain_blockedOn {now timeout : BitVec 64} (hx : x.tickHead = false)
    (h : (x.blockedOn o now timeout).tickHead = true) :
    0 < (x.blockedOn o now timeout).remain now := by
  unfold blockedOn at h ⊢
  split at h
  · cases h.symm.trans hx
  · rename_i htime
    rw [if_neg htime, remain_of_tickMatch rfl]
    have hzero : timeout ≠ 0 := fun h => htime (.inr h)
    exact Nat.pos_of_ne_zero fun h => hzero (BitVec.eq_of_toNat_eq h)

end KTask

/-- **Unblocking.** -/
theorem ensures_pendTaskUnblock (h : Lists s) (hw : (s.task t).waitsFor = some o) :
    Ensures (pendTaskUnblock t) s fun _ s' => ∃ rq,
      s' = (s.setQueues { s.queues with
          readyQueue := rq
          blkList := Function.update s.queues.blkList o ((s.queues.blkList o).erase t) }).setTask t
        { s.task t with taskState := (s.task t).taskState.unblocked } ∧
      s'.queues.Holds
        (Function.update (KTask.readyAt ∘ s.task) t
          (if (s.task t).taskState = .pend then some (s.task t).prio else none))
        (Function.update (KTask.waitsFor ∘ s.task) t none) (KTask.tickHead ∘ s.task) := by
  obtain ⟨hpend, hobj⟩ := KTask.waitsFor_eq_some.1 hw
  have hnot : (KTask.readyAt ∘ s.task) t = none := hpend.readyAt
  rw [pendTaskUnblock, ensures_bind, ensures_get]
  rcases hpend with hst | hst
  · simp only [hst]
    refine (ensures_blkListRm h.holds hw hobj).bind ?_
    rintro - s₁ ⟨rfl, h₁⟩
    refine (ensures_readyListAdd h₁ hnot (h.prio_lt t)).bind ?_
    rintro - s₂ ⟨rq, rfl, h₂⟩
    exact ensures_modify.2 ⟨rq, rfl, h₂⟩
  · simp only [hst]
    refine (ensures_blkListRm h.holds hw hobj).bind ?_
    rintro - s₁ ⟨rfl, h₁⟩
    refine ensures_modify.2 ⟨_, rfl, ?_⟩
    rw [if_neg (by decide), ← hnot, Function.update_eq_self]
    exact h₁

/-- The queues without a task that is blocked on `o`. -/
def Queues.leave (q : Queues T O) (t : T) (o : O) : Queues T O :=
  { q with
    blkList := Function.update q.blkList o ((q.blkList o).erase t)
    tickHead := q.tickHead.erase t }

/-- **A task leaves the lists it waits in**, whatever comes after. -/
theorem ensures_leave {α : Type} {c : K T O α} {Q : α → KState T O → Prop} (h : Lists s)
    (hw : (s.task t).waitsFor = some o)
    (hc : (s.queues.leave t o).Holds (KTask.readyAt ∘ s.task)
        (Function.update (KTask.waitsFor ∘ s.task) t none)
        (Function.update (KTask.tickHead ∘ s.task) t false) →
      Ensures c ((s.setQueues (s.queues.leave t o)).setTask t { s.task t with tickHead := false })
        Q) :
    Ensures (do
      tickListRm t
      blkListRm t
      c) s Q := by
  have htick := h.holds.tickRm t
  refine (ensures_tickListRm h.holds rfl).bind ?_
  rintro - s₁ rfl
  refine (ensures_blkListRm (s := KState.setTask _ t _) htick hw ?_).bind ?_
  · rw [KState.setTask_task, Function.update_self]
    exact (KTask.waitsFor_eq_some.1 hw).2
  · rintro - s₂ ⟨rfl, h₂⟩
    exact hc h₂

/-- **Waking**: the task is blocked on nothing any more, and is ready unless
it is suspended. -/
theorem ensures_pendTaskEnd (h : Lists s) (hw : (s.task t).waitsFor = some o) (bs : BlkState) :
    Ensures (pendTaskEnd t bs) s fun _ s' => ∃ rq,
      s' = (s.setQueues
          { readyQueue := rq
            blkList := Function.update s.queues.blkList o ((s.queues.blkList o).erase t)
            tickHead := s.queues.tickHead.erase t }).setTask t ((s.task t).woken bs) ∧
      Lists s' := by
  have hpend := (KTask.waitsFor_eq_some.1 hw).1
  refine (ensures_pendTaskUnblock h hw).bind ?_
  rintro - s₁ ⟨rq, rfl, h₁⟩
  refine (ensures_tickListRm h₁ ?_).bind ?_
  · simp only [KState.setTask_task, Function.comp_apply, Function.update_self]
  rintro - s₂ rfl
  rw [ensures_modifyTask]
  simp only [KState.setTask_task, KState.setTask_setQueues, KState.setTask_setTask,
    Function.update_self, KState.setQueues_setQueues]
  refine ⟨rq, rfl, h.setTask_of_prio_eq (x := (s.task t).woken bs) ?_ rfl ?_ ?_⟩
  · rw [KTask.readyAt_woken hpend, KTask.waitsFor_woken]
    exact h₁.tickRm t
  · refine pairwise_update (fun o' ho' _ => h.sorted o' ho') fun ho => ?_
    exact (h.sorted o ho).erase t
  · exact h.due.setTask (.inl rfl) List.erase_sublist

omit [DecidableEq O] in
theorem ensures_pendTimed (h : s.queues.Holds ready blocked (KTask.tickHead ∘ s.task))
    (hdue : s.Due) (htimed : (s.task t).tickHead = false) (timeout : BitVec 64) :
    Ensures (pendTimed o t timeout) s fun _ s' => ∃ tk,
      s' = (s.setQueues { s.queues with tickHead := tk }).setTask t
        ((s.task t).blockedOn o s.tickCount timeout) ∧
      s'.queues.Holds ready blocked (KTask.tickHead ∘ s'.task) ∧ s'.Due := by
  -- a record that leaves the tick list alone
  have hsame : ∀ y : KTask O, y.tickHead = (s.task t).tickHead →
      s.queues.Holds ready blocked (KTask.tickHead ∘ Function.update s.task t y) := by
    intro y hy
    rw [Function.comp_update, update_view hy]
    exact h
  have hnot : t ∉ s.queues.tickHead := by
    rw [h.mem_tick]
    exact ne_true_of_eq_false htimed
  simp only [pendTimed, ensures_bind, ensures_modifyTask, ensures_when]
  refine ⟨fun hforever => ?_, fun hforever => ?_⟩
  · by_cases hzero : timeout = 0
    · subst hzero
      refine ensures_when.2 ⟨fun hlt => absurd hlt (by decide), fun _ => ?_⟩
      simp only [KState.setTask_setTask, KState.setTask_task, Function.update_self]
      refine ⟨s.queues.tickHead, ?_, hsame _ rfl, ?_⟩
      · rw [KTask.blockedOn, if_pos (.inr rfl)]
        rfl
      · exact hdue.setTask (.inl rfl) (List.Sublist.refl _)
    · have hpos : 0 < timeout := (BitVec.pos_iff_ne_zero timeout).2 hzero
      refine (ensures_tickListInsert (s := s.setTask t _) hnot hpos).mono ?_
      rintro - s₁ ⟨stop, hstop, rfl⟩
      simp only [KState.setTask_setTask, KState.setTask_setQueues, KState.setTask_task,
        Function.update_self]
      refine ⟨insertBefore stop t s.queues.tickHead, ?_, ?_, ?_⟩
      · rw [KTask.blockedOn, if_neg (not_or.2 ⟨hforever, hzero⟩)]
        rfl
      · rw [Function.comp_update]
        exact h.tickInsert htimed stop
      · refine hdue.insert hnot (fun v hv => ?_) rfl
        have hvt : v ≠ t := by
          rintro rfl
          exact hnot hv
        rw [hstop v hv, KState.setTask_task, Function.update_of_ne hvt]
        exact iff_of_eq (congrArg (· < _) (KTask.remain_of_tickMatch rfl).symm)
  · have hforever : timeout = -1 := not_not.1 hforever
    simp only [KState.setTask_setTask, KState.setTask_task, Function.update_self]
    refine ⟨s.queues.tickHead, ?_, hsame _ rfl, ?_⟩
    · rw [KTask.blockedOn, if_pos (.inl hforever)]
      rfl
    · exact hdue.setTask (.inl rfl) (List.Sublist.refl _)

/-- **Blocking**: the running task, which waits for no tick, leaves the
ready queue for the list of the object. -/
theorem ensures_pendToBlkObj (h : Lists s) (hrdy : (s.task t).taskState = .rdy)
    (htimed : (s.task t).tickHead = false) (hu : (s.task u).taskState = .rdy) (hut : u ≠ t)
    (timeout : BitVec 64) :
    Ensures (pendToBlkObj o t timeout) s fun _ s' => ∃ rq l tk,
      s' = (s.setQueues
          { readyQueue := rq
            blkList := Function.update s.queues.blkList o l
            tickHead := tk }).setTask t ((s.task t).blockedOn o s.tickCount timeout) ∧
      Lists s' := by
  refine (ensures_pendTimed h.holds h.due htimed timeout).bind ?_
  rintro - s₁ ⟨tk, rfl, h₁, hdue⟩
  have hready : (KTask.readyAt ∘ s.task) t = some (s.task t).prio := KTask.readyAt_of_rdy hrdy
  refine (ensures_readyListRm (u := u) (p := (s.task u).prio) h₁ ?_ (KTask.readyAt_of_rdy hu)
    hut).bind ?_
  · simp only [KState.setTask_task, Function.update_self, KTask.prio_blockedOn, hready]
  rintro - s₂ ⟨rq, rfl, h₂⟩
  have hnone : (KTask.waitsFor ∘ s.task) t = none :=
    KTask.waitsFor_of_not_pending (KTask.not_pending_of_rdy hrdy)
  -- wherever in the list the task goes, the lists are as they should be if it is sorted
  have hadd : ∀ (l : List T) (s₃ : KState T O),
      s₃ = (s.setQueues
          { readyQueue := rq
            blkList := Function.update s.queues.blkList o l
            tickHead := tk }).setTask t ((s.task t).blockedOn o s.tickCount timeout) →
      s₃.queues.Holds (Function.update (KTask.readyAt ∘ s.task) t none)
        (Function.update (KTask.waitsFor ∘ s.task) t (some o))
        (Function.update (KTask.tickHead ∘ s.task) t
          ((s.task t).blockedOn o s.tickCount timeout).tickHead) →
      ((s.obj o).blkPolicy = .pri →
        l.Pairwise fun u v => (s.task u).prio ≤ (s.task v).prio) → Lists s₃ := by
    rintro l s₃ rfl h₃ hsorted
    refine h.setTask_of_prio_eq ?_ KTask.prio_blockedOn
      (pairwise_update (fun o' ho' _ => h.sorted o' ho') hsorted) hdue
    rw [KTask.readyAt_blockedOn, KTask.waitsFor_blockedOn]
    exact h₃
  rw [KState.setTask_task, KState.setQueues_task, Function.comp_update] at h₂
  rw [ensures_bind, ensures_get]
  split
  · rename_i hfifo
    refine ensures_modify.2 ⟨rq, _, tk, rfl, hadd _ _ rfl
      (h₂.blkAdd hnone (List.perm_append_singleton ..)) fun hpri => ?_⟩
    rw [show (s.obj o).blkPolicy = .fifo from hfifo] at hpri
    cases hpri
  · refine (ensures_pendListAdd h₂ hnone).mono ?_
    rintro - s₃ ⟨l, rfl, h₃, hsorted⟩
    refine ⟨rq, l, tk, rfl, hadd l _ rfl h₃ fun hpri => ?_⟩
    have hl := hsorted (pairwise_setTask KTask.prio (s := s) (h.sorted o hpri)
      (.inl KTask.prio_blockedOn))
    have hback := pairwise_setTask KTask.prio
      (s := s.setTask t ((s.task t).blockedOn o s.tickCount timeout)) (t := t) (x := s.task t) hl
    simp only [KState.setTask_setTask, KState.setTask_self, KState.setTask_task,
      Function.update_self] at hback
    exact hback (.inl KTask.prio_blockedOn.symm)

/-- **A blocked task takes its place again** in the list of the object,
with its new priority. -/
theorem ensures_pendListReorder (h : Lists s) (hw : (s.task t).waitsFor = some o)
    (hp : p < priMax) :
    Ensures (pendListReorder t) (s.setTask t ((s.task t).withPrio p)) fun _ s' => ∃ q,
      s' = (s.setQueues q).setTask t ((s.task t).withPrio p) ∧
      q.tickHead = s.queues.tickHead ∧ Lists s' := by
  obtain ⟨hpend, hobj⟩ := KTask.waitsFor_eq_some.1 hw
  have hobj' : ((s.setTask t ((s.task t).withPrio p)).task t).blkObj = some o := by
    rw [KState.setTask_task, Function.update_self]
    exact hobj
  have hother : ∀ o', o' ≠ o → t ∉ s.queues.blkList o' := by
    intro o' ho' hmem
    rw [h.mem_blkList, hw] at hmem
    exact ho' (Option.some.inj hmem).symm
  -- the task is blocked on the same object and waits for the same tick as before
  have hplace : ∀ q : Queues T O, q.Holds (KTask.readyAt ∘ s.task) (KTask.waitsFor ∘ s.task)
      (KTask.tickHead ∘ s.task) →
      q.Holds (Function.update (KTask.readyAt ∘ s.task) t ((s.task t).withPrio p).readyAt)
        (Function.update (KTask.waitsFor ∘ s.task) t ((s.task t).withPrio p).waitsFor)
        (Function.update (KTask.tickHead ∘ s.task) t ((s.task t).withPrio p).tickHead) := by
    intro q hq
    rw [update_view (KTask.readyAt_withPrio_of_ne hpend.ne_rdy p),
      update_view (KTask.waitsFor_withPrio _ p),
      update_view (KTask.tickHead_withPrio _ p)]
    exact hq
  rw [pendListReorder, ensures_bind, ensures_get, ensures_bind, ensures_deref]
  refine ⟨o, hobj', ?_⟩
  rw [ensures_when]
  refine ⟨fun hpri => ?_, fun hpri => ?_⟩
  · refine (ensures_blkListRm (s := s.setTask t _) h.holds hw hobj').bind ?_
    rintro - s₁ ⟨rfl, h₁⟩
    refine (ensures_pendListAdd (o := o) h₁ (Function.update_self ..)).mono ?_
    rintro - s₂ ⟨l, rfl, h₂, hsorted⟩
    rw [Function.update_idem, ← hw, update_view rfl] at h₂
    refine ⟨_, rfl, rfl, h.setTask (hplace _ h₂) hp ?_
      (h.due.setTask (.inl rfl) (List.Sublist.refl _))⟩
    simp only [KState.setTask_queues, KState.setQueues_queues, Function.update_idem]
    refine pairwise_update (fun o' ho' hne => ?_) fun ho => hsorted ?_
    · exact pairwise_setTask KTask.prio (h.sorted o' ho') (.inr (hother o' hne))
    · simp only [KState.setTask_queues, KState.setQueues_queues, Function.update_self]
      exact pairwise_setTask KTask.prio ((h.sorted o ho).erase t)
        (.inr (h.holds.nodup_blk o).not_mem_erase)
  · refine ⟨s.queues, rfl, rfl, h.setTask (hplace _ h.holds) hp (fun o' ho' => ?_)
      (h.due.setTask (.inl rfl) (List.Sublist.refl _))⟩
    refine pairwise_setTask KTask.prio (h.sorted o' ho') (.inr (hother o' ?_))
    rintro rfl
    exact hpri ho'

end Hgsdk.Rhino

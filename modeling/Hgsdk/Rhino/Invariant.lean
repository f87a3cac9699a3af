import Hgsdk.Rhino.Inheritance
/-!
# What the kernel keeps

`Sound` is what every function of the kernel keeps, and `Ok` what every
call does: between calls all the tasks are settled, a task waits only for a
mutex or for a semaphore that has run out, and every task in the tick list
has time left. The lemmas are about the states the functions lead to: one
record replaced, one object, a mutex handed from one task to another.
-/

namespace Hgsdk.Rhino

variable {T O : Type} [DecidableEq T] [DecidableEq O]
variable {s s' : KState T O} {q : Queues T O} {idle t u w : T} {o : O} {x : KTask O} {m : KObj T}
variable {h : T → Option T} {held : T → List O} {p : ℕ}

/-! ### The invariant -/

/-- **What every function keeps**, with `held` as what each task holds. The
idle task is ready, holds nothing, and is alone at its priority. -/
structure Sound (idle : T) (held : T → List O) (s : KState T O) : Prop where
  lists : Lists s
  locks : Locks held s
  fine : ∀ t, (s.task t).Fine
  idle_rdy : (s.task idle).taskState = .rdy
  idle_free : (s.task idle).mutexList = []
  idle_base : (s.task idle).bPrio = idlePri
  base_lt : ∀ t, (s.task t).Live → t ≠ idle → (s.task t).bPrio < idlePri

/-- A task waits for a mutex, or for a semaphore that has run out. -/
def KState.Waits (s : KState T O) : Prop :=
  ∀ t o, (s.task t).waitsFor = some o →
    (s.obj o).objType = .mutex ∨ (s.obj o).objType = .sem ∧ (s.obj o).count = 0

/-- A task in the tick list has time left. -/
def KState.Ahead (s : KState T O) : Prop :=
  ∀ t, (s.task t).tickHead = true → 0 < (s.task t).remain s.tickCount

/-- **What every call keeps.** -/
structure Ok (idle : T) (s : KState T O) : Prop where
  sound : Sound idle s.mutexes s
  settled : ∀ t, (s.task t).Live → s.Settled s.holder t
  waits : s.Waits
  objs : ∀ o, (s.obj o).Fine
  ahead : s.Ahead

/-- **A task that is not blocked**: it neither waits nor sleeps. -/
def KTask.Free (x : KTask O) : Prop := x.waitsFor = none ∧ ¬ x.Asleep

omit [DecidableEq O] in
theorem KTask.Free.waitsFor (h : x.Free) : x.waitsFor = none := h.1

omit [DecidableEq O] in
theorem KTask.Free.awake (h : x.Free) : ¬ x.Asleep := h.2

omit [DecidableEq O] in
theorem KTask.free_woken {b : BlkState} : (x.woken b).Free := by
  refine ⟨waitsFor_woken, ?_⟩
  rw [Asleep, woken]
  cases x.taskState <;> simp [TaskStat.unblocked]

/-- **A task that is not disturbed**: it sleeps on, it waits on, and it is not
told that it waits no longer. -/
structure KTask.Undisturbed (x y : KTask O) : Prop where
  asleep : x.Asleep → y.Asleep ∧ y.tickMatch = x.tickMatch
  waiting : ∀ o, x.waitsFor = some o → y.waitsFor = some o
  live : x.Live → y.Live ∧ y.blkState = x.blkState

/-- **What most of the kernel leaves alone**: the clock, who runs, and the
tasks that wait. Only the running task comes to be blocked, outside of
interrupts, and while the scheduler is locked, it stays ready. -/
structure KState.Frame (s s' : KState T O) : Prop where
  tickCount : s'.tickCount = s.tickCount
  activeTask : s'.activeTask = s.activeTask
  schedLock : s'.schedLock = s.schedLock
  intrptNestedLevel : s'.intrptNestedLevel = s.intrptNestedLevel
  task : ∀ u, (s.task u).Undisturbed (s'.task u)
  free : ∀ u, (s.task u).Free → u = s.activeTask ∧ s.intrptNestedLevel = 0 ∨ (s'.task u).Free
  locked : 0 < s.schedLock → (s.task s.activeTask).taskState = .rdy →
    (s'.task s.activeTask).taskState = .rdy

omit [DecidableEq T] [DecidableEq O] in
theorem Sound.static (hs : Sound idle s.mutexes s) : Static idle s :=
  ⟨hs.locks, hs.fine, hs.idle_rdy, hs.idle_free⟩

/-! ### What is left alone -/

namespace KTask.Undisturbed

variable {y : KTask O}

omit [DecidableEq O] in
theorem refl (x : KTask O) : x.Undisturbed x := ⟨fun h => ⟨h, rfl⟩, fun _ => id, fun h => ⟨h, rfl⟩⟩

omit [DecidableEq O] in
theorem withSlice (slice : BitVec 32) : x.Undisturbed (x.withSlice slice) :=
  ⟨fun h => ⟨h, rfl⟩, fun _ => id, fun h => ⟨h, rfl⟩⟩

omit [DecidableEq O] in
theorem trans {z : KTask O} (h : x.Undisturbed y) (h' : y.Undisturbed z) : x.Undisturbed z where
  asleep hx := by
    obtain ⟨hy, hmatch⟩ := h.asleep hx
    exact (h'.asleep hy).imp_right (·.trans hmatch)
  waiting o ho := h'.waiting o (h.waiting o ho)
  live hx := by
    obtain ⟨hy, hstate⟩ := h.live hx
    exact (h'.live hy).imp_right (·.trans hstate)

omit [DecidableEq O] in
/-- A task that waits for nothing may turn to anything but a wait that is
over. -/
theorem of_not_pending (hpend : ¬ x.Pending) (hasleep : ¬ x.Asleep) (hlive : y.Live)
    (hstate : y.blkState = x.blkState) : x.Undisturbed y where
  asleep h := absurd h hasleep
  waiting o ho := by cases (waitsFor_of_not_pending hpend).symm.trans ho
  live _ := ⟨hlive, hstate⟩

omit [DecidableEq O] in
theorem of_rdy (hx : x.taskState = .rdy) (hlive : y.Live) (hstate : y.blkState = x.blkState) :
    x.Undisturbed y :=
  of_not_pending (not_pending_of_rdy hx) (by simp [Asleep, hx]) hlive hstate

omit [DecidableEq O] in
theorem of_not_live (hx : ¬ x.Live) : x.Undisturbed y where
  asleep h := absurd (by rcases h with h | h <;> simp [Live, h]) hx
  waiting o ho := absurd (waitsFor_eq_some.1 ho).1.live hx
  live h := absurd h hx

end KTask.Undisturbed

namespace KState.Frame

omit [DecidableEq T] [DecidableEq O] in
theorem refl (s : KState T O) : s.Frame s :=
  ⟨rfl, rfl, rfl, rfl, fun _ => .refl _, fun _ => .inr, fun _ => id⟩

omit [DecidableEq T] [DecidableEq O] in
theorem trans {s₁ s₂ : KState T O} (h₁ : s.Frame s₁) (h₂ : s₁.Frame s₂) : s.Frame s₂ where
  tickCount := h₂.tickCount.trans h₁.tickCount
  activeTask := h₂.activeTask.trans h₁.activeTask
  schedLock := h₂.schedLock.trans h₁.schedLock
  intrptNestedLevel := h₂.intrptNestedLevel.trans h₁.intrptNestedLevel
  task u := (h₁.task u).trans (h₂.task u)
  free u hu := by
    rcases h₁.free u hu with hact | hu
    · exact .inl hact
    · refine (h₂.free u hu).imp_left ?_
      rw [h₁.activeTask, h₁.intrptNestedLevel]
      exact id
  locked hlock hrdy := by
    have hrdy₁ := h₁.locked hlock hrdy
    rw [← h₁.schedLock] at hlock
    rw [← h₁.activeTask] at hrdy₁ ⊢
    exact h₂.locked hlock hrdy₁

omit [DecidableEq O] in
/-- A record may be replaced if that does not disturb the task. -/
theorem setTask (s : KState T O) (q : Queues T O) (hx : (s.task t).Undisturbed x)
    (hfree : t = s.activeTask ∧ s.intrptNestedLevel = 0 ∨ ((s.task t).Free → x.Free))
    (hlock : t = s.activeTask → 0 < s.schedLock → (s.task t).taskState = .rdy →
      x.taskState = .rdy) :
    s.Frame ((s.setQueues q).setTask t x) where
  tickCount := rfl
  activeTask := rfl
  schedLock := rfl
  intrptNestedLevel := rfl
  task u := by
    by_cases hut : u = t
    · subst hut
      rw [setTask_task, Function.update_self]
      exact hx
    · rw [setTask_task, Function.update_of_ne hut]
      exact .refl _
  free u hu := by
    by_cases hut : u = t
    · subst hut
      rw [setTask_task, Function.update_self]
      exact hfree.imp_right fun h => h hu
    · rw [setTask_task, Function.update_of_ne hut]
      exact .inr hu
  locked hpos hrdy := by
    by_cases hut : s.activeTask = t
    · subst hut
      rw [setTask_task, Function.update_self]
      exact hlock rfl hpos hrdy
    · rw [setTask_task, Function.update_of_ne hut]
      exact hrdy

omit [DecidableEq O] in
/-- Other fields than those of the state of the task. -/
theorem setTask_of_state (s : KState T O) (q : Queues T O) (hx : (s.task t).Undisturbed x)
    (hfree : (s.task t).Free → x.Free) (hstate : x.taskState = (s.task t).taskState) :
    s.Frame ((s.setQueues q).setTask t x) :=
  setTask s q hx (.inr hfree) fun _ _ hrdy => hstate.trans hrdy

omit [DecidableEq O] in
theorem withMutexes (l : List O) : s.Frame (s.setTask t ((s.task t).withMutexes l)) :=
  setTask_of_state s s.queues ⟨fun h => ⟨h, rfl⟩, fun _ => id, fun h => ⟨h, rfl⟩⟩
    (fun h => ⟨h.waitsFor, h.awake⟩) rfl

omit [DecidableEq T] in
theorem setObj (s : KState T O) : s.Frame (s.setObj o m) :=
  ⟨rfl, rfl, rfl, rfl, fun _ => .refl _, fun _ => .inr, fun _ => id⟩

end KState.Frame

omit [DecidableEq T] [DecidableEq O] in
theorem KState.Reprios.frame (hr : s.Reprios s') : s.Frame s' := by
  obtain ⟨q, prio, rfl, -, -⟩ := hr
  exact ⟨rfl, rfl, rfl, rfl,
    fun _ => ⟨fun h => ⟨h, rfl⟩, fun _ => id, fun h => ⟨h, rfl⟩⟩,
    fun _ h => .inr ⟨h.waitsFor, h.awake⟩, fun _ => id⟩

/-! ### What becomes of the tasks -/

/-- The task is blocked no longer, and told why. -/
structure KTask.Told (x : KTask O) (blkState : BlkState) : Prop where
  live : x.Live
  free : x.Free
  blkState : x.blkState = blkState

/-- **The first in line**: `w` waits for `o`, and none that does is more
urgent. -/
structure KState.First (s : KState T O) (o : O) (w : T) : Prop where
  waits : (s.task w).waitsFor = some o
  le : ∀ v, (s.task v).waitsFor = some o → (s.task w).prio ≤ (s.task v).prio

/-- **What may become of a task**: it is not disturbed; or it waited, and has
the mutex it was first in line for, or a unit of the semaphore `g` that is
given to, or is told that the object is gone. -/
inductive KState.Fate (s s' : KState T O) (g : Option O) (u : T) : Prop where
  | undisturbed (h : (s.task u).Undisturbed (s'.task u))
  | handed {o : O} (hw : s.First o u) (hmutex : (s'.obj o).objType = .mutex)
    (howner : (s'.obj o).mutexTask = some u) (h : (s'.task u).Told .finish)
  | given {o : O} (hg : g = some o) (hw : (s.task u).waitsFor = some o)
    (hsem : (s'.obj o).objType = .sem) (h : (s'.task u).Told .finish)
  | removed {o : O} (hw : (s.task u).waitsFor = some o) (hnone : (s'.obj o).objType = .none)
    (h : (s'.task u).Told .del)

/-- **What a call does to the tasks**, one that gives to the semaphore `g` and
deletes the task `d`. -/
structure KState.Moved (s s' : KState T O) (g : Option O) (d : Option T) : Prop where
  tickCount : s'.tickCount = s.tickCount
  activeTask : s'.activeTask = s.activeTask
  schedLock : s'.schedLock = s.schedLock
  intrptNestedLevel : s'.intrptNestedLevel = s.intrptNestedLevel
  fate : ∀ u, d ≠ some u → s.Fate s' g u
  free : ∀ u, (s.task u).Free → u = s.activeTask ∧ s.intrptNestedLevel = 0 ∨ (s'.task u).Free
  locked : 0 < s.schedLock → (s.task s.activeTask).taskState = .rdy →
    (s'.task s.activeTask).taskState = .rdy

omit [DecidableEq T] [DecidableEq O] in
theorem KState.Moved.refl (s : KState T O) {g : Option O} {d : Option T} : s.Moved s g d :=
  ⟨rfl, rfl, rfl, rfl, fun _ _ => .undisturbed (.refl _), fun _ => .inr, fun _ => id⟩

omit [DecidableEq T] [DecidableEq O] in
theorem KState.Frame.moved (h : s.Frame s') {g : Option O} {d : Option T} : s.Moved s' g d :=
  ⟨h.tickCount, h.activeTask, h.schedLock, h.intrptNestedLevel, 
    fun u _ => .undisturbed (h.task u), h.free, h.locked⟩

/-- One task that waited is disturbed, and one object may be another. -/
theorem KState.Frame.moved_of_fate {s₁ : KState T O} {g : Option O} {d : Option T}
    (h : s.Frame s₁) (hw : (s.task w).Pending) (hfree : x.Free)
    (hfate : s.Fate (((s₁.setQueues q).setTask w x).setObj o m) g w) :
    s.Moved (((s₁.setQueues q).setTask w x).setObj o m) g d where
  tickCount := h.tickCount
  activeTask := h.activeTask
  schedLock := h.schedLock
  intrptNestedLevel := h.intrptNestedLevel
  fate u _ := by
    by_cases huw : u = w
    · subst huw
      exact hfate
    · refine .undisturbed ?_
      rw [setObj_task, setTask_task, Function.update_of_ne huw]
      exact h.task u
  free u hu := by
    rw [setObj_task, setTask_task]
    by_cases huw : u = w
    · rw [huw, Function.update_self]
      exact .inr hfree
    · rw [Function.update_of_ne huw]
      exact h.free u hu
  locked hpos hrdy := by
    have hne : s.activeTask ≠ w := by
      rintro rfl
      exact hw.ne_rdy hrdy
    rw [setObj_task, setTask_task, Function.update_of_ne hne]
    exact h.locked hpos hrdy

/-! ### Who waits for whom -/

omit [DecidableEq O] in
/-- What a new record shares with the old is what it was for every task. -/
theorem view_setTask {β : Type} (f : KTask O → β) (hx : f x = f (s.task t)) (u : T) :
    f (((s.setQueues q).setTask t x).task u) = f (s.task u) := by
  by_cases hut : u = t
  · subst hut
    rwa [KState.setTask_task, Function.update_self]
  · rw [KState.setTask_task, Function.update_of_ne hut]
    rfl

omit [DecidableEq O] in
theorem view_withMutexes {β : Type} (f : KTask O → β) (hf : ∀ y l, f (y.withMutexes l) = f y)
    (l : List O) (u : T) :
    f ((s.setTask t ((s.task t).withMutexes l)).task u) = f (s.task u) :=
  view_setTask (q := s.queues) f (hf (s.task t) l) u

omit [DecidableEq T] [DecidableEq O] in
/-- Whether a task is settled depends on the priorities alone. -/
theorem settled_congr (hprio : ∀ u, (s'.task u).prio = (s.task u).prio)
    (hbase : ∀ u, (s'.task u).bPrio = (s.task u).bPrio) : s'.Settled h t ↔ s.Settled h t := by
  unfold KState.Settled
  rw [funext hprio, funext hbase]

omit [DecidableEq O] in
theorem settled_setTask (hprio : x.prio = (s.task t).prio) (hbase : x.bPrio = (s.task t).bPrio) :
    ((s.setQueues q).setTask t x).Settled h u ↔ s.Settled h u := by
  exact settled_congr (view_setTask KTask.prio hprio) (view_setTask KTask.bPrio hbase)

omit [DecidableEq O] in
/-- A task that waits for nobody may have any priority as far as another is
concerned. -/
theorem KState.Settled.setTask (hu : s.Settled h u) (hut : u ≠ t) (ht : h t = none) :
    ((s.setQueues q).setTask t x).Settled h u := by
  have hsame : ∀ v, v ≠ t → ((s.setQueues q).setTask t x).task v = s.task v := fun v hv =>
    Function.update_of_ne hv _ _
  refine Inherit.Settled.congr (Inherit.Settled.congr_base hu ?_) ?_ (fun _ => Iff.rfl) ?_
  · rw [hsame u hut]
  · rw [hsame u hut]
  · intro w hw
    rw [hsame]
    rintro rfl
    cases ht.symm.trans hw

omit [DecidableEq T] [DecidableEq O] in
/-- **A task waits no longer**: whoever did not have its priority from it is
settled. -/
theorem KState.Settled.unwait [DecidableEq T] (hu : s.Settled s.holder u)
    (hholder : s'.holder = Function.update s.holder t none)
    (hprio : ∀ v, (s'.task v).prio = (s.task v).prio)
    (hbase : ∀ v, (s'.task v).bPrio = (s.task v).bPrio)
    (ht : s.holder t = some u → (s.task t).prio ≠ (s.task u).prio) : s'.Settled s'.holder u := by
  rw [settled_congr hprio hbase, hholder]
  refine Inherit.Settled.mono hu rfl (fun v hv hprio => ⟨?_, rfl⟩) fun v hv => ?_
  · rw [Function.update_of_ne]
    · exact hv
    · rintro rfl
      exact ht hv hprio
  · by_cases hvt : v = t
    · rw [hvt, Function.update_self] at hv
      cases hv
    · rw [Function.update_of_ne hvt] at hv
      exact hu.le_of_holder hv

omit [DecidableEq O] in
theorem claims_setTask (hprio : x.prio = (s.task t).prio) (hbase : x.bPrio = (s.task t).bPrio) :
    ((s.setQueues q).setTask t x).claims h u = s.claims h u := by
  unfold KState.claims
  rw [funext (view_setTask KTask.prio hprio), funext (view_setTask KTask.bPrio hbase)]

omit [DecidableEq T] [DecidableEq O] in
/-- Who waits for whom depends on what is waited for and who owns it. -/
theorem holder_congr (hwaits : ∀ u, (s'.task u).waitsFor = (s.task u).waitsFor)
    (howner : ∀ o t, (s'.obj o).objType = .mutex ∧ (s'.obj o).mutexTask = some t ↔
      (s.obj o).objType = .mutex ∧ (s.obj o).mutexTask = some t) : s'.holder = s.holder := by
  funext u
  refine Option.ext fun t => ?_
  show s'.holder u = some t ↔ s.holder u = some t
  simp only [holder_eq_some, hwaits, howner]

omit [DecidableEq O] in
theorem holder_setTask_of_ne (hut : u ≠ t) :
    ((s.setQueues q).setTask t x).holder u = s.holder u := by
  unfold KState.holder
  rw [KState.setTask_task, Function.update_of_ne hut]
  rfl

omit [DecidableEq O] in
theorem holder_setTask_self (hx : x.waitsFor = (s.task t).waitsFor) :
    ((s.setQueues q).setTask t x).holder t = s.holder t := by
  unfold KState.holder
  rw [KState.setTask_task, Function.update_self, hx]
  rfl

omit [DecidableEq O] in
/-- A task that waits for no mutex waits for no other task. -/
theorem holder_setTask_none (hx : ∀ o, x.waitsFor = some o → (s.obj o).objType ≠ .mutex) :
    ((s.setQueues q).setTask t x).holder t = none := by
  unfold KState.holder
  rw [KState.setTask_task, Function.update_self]
  cases hw : x.waitsFor with
  | none => rfl
  | some o => exact if_neg (hx o hw)

omit [DecidableEq O] in
theorem holder_setTask_update (hx : x.waitsFor = none) :
    ((s.setQueues q).setTask t x).holder = Function.update s.holder t none := by
  funext u
  by_cases hut : u = t
  · rw [hut, Function.update_self]
    refine holder_setTask_none fun o ho => ?_
    cases hx.symm.trans ho
  · rw [Function.update_of_ne hut, holder_setTask_of_ne hut]

omit [DecidableEq T] [DecidableEq O] in
/-- Nobody waits for a task that owns nothing. -/
theorem holder_ne_of_unowned (ht : ∀ o, (s.obj o).objType = .mutex →
    (s.obj o).mutexTask ≠ some t) : s.holder w ≠ some t := by
  intro hw
  obtain ⟨o, -, ho, howner⟩ := holder_eq_some.1 hw
  exact ht o ho howner

/-! ### One record -/

omit [DecidableEq O] in
/-- A record that no queue and no order sees. -/
theorem Lists.setTask_of_views (hl : Lists s) (hready : x.readyAt = (s.task t).readyAt)
    (hwaits : x.waitsFor = (s.task t).waitsFor) (htick : x.tickHead = (s.task t).tickHead)
    (hprio : x.prio = (s.task t).prio) (hmatch : x.tickMatch = (s.task t).tickMatch) :
    Lists ((s.setQueues s.queues).setTask t x) := by
  refine hl.setTask_of_prio_eq ?_ hprio hl.sorted
    (hl.due.setTask (.inl hmatch) (List.Sublist.refl _))
  rw [update_view hready, update_view hwaits, update_view htick]
  exact hl.holds

/-- **Another record of the same living task**: it holds what it held and
has the priorities it had. -/
structure KTask.Keeps (x y : KTask O) : Prop where
  live : x.Live
  lived : y.Live
  mutexList : x.mutexList = y.mutexList
  prio : x.prio = y.prio
  bPrio : x.bPrio = y.bPrio

omit [DecidableEq O] in
theorem KTask.keeps_blockedOn {now timeout : BitVec 64} (hx : x.Live) :
    (x.blockedOn o now timeout).Keeps x := by
  unfold KTask.blockedOn
  split <;> exact ⟨by simp [Live], hx, rfl, rfl, rfl⟩

omit [DecidableEq O] in
theorem KTask.keeps_woken {b : BlkState} (hx : x.Pending) : (x.woken b).Keeps x := by
  refine ⟨?_, hx.live, rfl, rfl, rfl⟩
  rcases hx with h | h <;> simp [woken, Live, TaskStat.unblocked, h]

omit [DecidableEq O] in
theorem mutexes_setTask (hx : x.mutexList = (s.task t).mutexList) :
    ((s.setQueues q).setTask t x).mutexes = s.mutexes :=
  funext (view_setTask KTask.mutexList hx)

omit [DecidableEq O] in
theorem mutexes_update : ((s.setQueues q).setTask t x).mutexes =
    Function.update s.mutexes t x.mutexList := by
  funext u
  unfold KState.mutexes
  by_cases hut : u = t
  · subst hut
    rw [KState.setTask_task, Function.update_self, Function.update_self]
  · rw [KState.setTask_task, Function.update_of_ne hut, Function.update_of_ne hut]
    rfl

omit [DecidableEq O] in
/-- A property of every record, one of which is replaced. -/
theorem forall_setTask {P : T → KTask O → Prop} (hs : ∀ u, P u (s.task u)) (hx : P t x) (u : T) :
    P u (((s.setQueues q).setTask t x).task u) := by
  by_cases hut : u = t
  · subst hut
    rwa [KState.setTask_task, Function.update_self]
  · rw [KState.setTask_task, Function.update_of_ne hut]
    exact hs u

omit [DecidableEq O] in
/-- **One record is replaced**, by another of the same task that waits for
what it may wait for. -/
theorem Sound.setTask (hs : Sound idle s.mutexes s) (hl : Lists ((s.setQueues q).setTask t x))
    (hx : x.Keeps (s.task t)) (hfine : x.Fine) (hti : t = idle → x.taskState = .rdy)
    (hwaits : ∀ o, x.waitsFor = some o → (s.obj o).objType = .mutex →
      (s.task t).waitsFor = some o ∨ ∃ v, (s.obj o).mutexTask = some v ∧ v ≠ t) :
    Sound idle ((s.setQueues q).setTask t x).mutexes ((s.setQueues q).setTask t x) where
  lists := hl
  locks := by
    rw [mutexes_setTask hx.mutexList]
    refine hs.locks.congr (fun u => ?_) (fun u o => ?_) rfl
    · exact forall_setTask (P := fun u y => y.Live ↔ (s.task u).Live) (fun _ => Iff.rfl)
        (iff_of_true hx.live hx.lived) u
    · exact forall_setTask (P := fun u y => y.waitsFor = some o → (s.obj o).objType = .mutex →
        (s.task u).waitsFor = some o ∨ ∃ v, (s.obj o).mutexTask = some v ∧ v ≠ u)
        (fun _ hu _ => .inl hu) (hwaits o) u
  fine := forall_setTask (P := fun _ y => y.Fine) hs.fine hfine
  idle_rdy := forall_setTask (P := fun u y => u = idle → y.taskState = .rdy)
    (by rintro _ rfl; exact hs.idle_rdy) hti idle rfl
  idle_free := forall_setTask (P := fun u y => u = idle → y.mutexList = [])
    (by rintro _ rfl; exact hs.idle_free) (by rintro rfl; exact hx.mutexList.trans hs.idle_free)
    idle rfl
  idle_base := forall_setTask (P := fun u y => u = idle → y.bPrio = idlePri)
    (by rintro _ rfl; exact hs.idle_base) (by rintro rfl; exact hx.bPrio.trans hs.idle_base)
    idle rfl
  base_lt := forall_setTask (P := fun u y => y.Live → u ≠ idle → y.bPrio < idlePri) hs.base_lt
    fun _ hti => hx.bPrio.trans_lt (hs.base_lt t hx.lived hti)

omit [DecidableEq O] in
/-- What is linked from a task is not what the locks are about. -/
theorem Sound.withMutexes (hs : Sound idle held s) (hti : t ≠ idle) (l : List O) :
    Sound idle held (s.setTask t ((s.task t).withMutexes l)) where
  lists := hs.lists.setTask_of_views rfl rfl rfl rfl rfl
  locks := by
    refine hs.locks.congr (fun u => ?_) (fun u o hu _ => .inl ?_) rfl
    · exact iff_of_eq (view_withMutexes KTask.Live (fun _ _ => rfl) l u)
    · exact (view_withMutexes KTask.waitsFor (fun _ _ => rfl) l u).symm.trans hu
  fine u := forall_setTask (q := s.queues) (P := fun _ y => y.Fine) hs.fine
    ((hs.fine t).withMutexes l) u
  idle_rdy := (view_withMutexes KTask.taskState (fun _ _ => rfl) l idle).trans hs.idle_rdy
  idle_free := by
    rw [KState.setTask_task, Function.update_of_ne (Ne.symm hti)]
    exact hs.idle_free
  idle_base := (view_withMutexes KTask.bPrio (fun _ _ => rfl) l idle).trans hs.idle_base
  base_lt u := forall_setTask (q := s.queues) (x := (s.task t).withMutexes l)
    (P := fun u y => y.Live → u ≠ idle → y.bPrio < idlePri) hs.base_lt (hs.base_lt t) u

omit [DecidableEq O] in
theorem KState.Ahead.setTask (hs : s.Ahead)
    (hx : x.tickHead = true → 0 < x.remain s.tickCount) : ((s.setQueues q).setTask t x).Ahead :=
  forall_setTask (P := fun _ y => y.tickHead = true → 0 < y.remain s.tickCount) hs hx

omit [DecidableEq O] in
/-- **One record is replaced** and no task waits for another than before. -/
theorem Ok.setTask (hs : Ok idle s) (hl : Lists ((s.setQueues q).setTask t x))
    (hx : x.Keeps (s.task t)) (hfine : x.Fine) (hti : t = idle → x.taskState = .rdy)
    (hahead : x.tickHead = true → 0 < x.remain s.tickCount)
    (hwaits : x.waitsFor = (s.task t).waitsFor ∨ s.holder t = none ∧
      ∀ o, x.waitsFor = some o → (s.obj o).objType = .sem ∧ (s.obj o).count = 0) :
    Ok idle ((s.setQueues q).setTask t x) where
  sound := by
    refine hs.sound.setTask hl hx hfine hti fun o ho hmutex => ?_
    rcases hwaits with hsame | ⟨-, hsem⟩
    · exact .inl (hsame.symm.trans ho)
    · cases hmutex.symm.trans (hsem o ho).1
  settled u hu := by
    have hholder : ((s.setQueues q).setTask t x).holder = s.holder := by
      funext v
      by_cases hvt : v = t
      · subst hvt
        rcases hwaits with hsame | ⟨hnone, hsem⟩
        · exact holder_setTask_self hsame
        · rw [hnone]
          refine holder_setTask_none fun o ho hmutex => ?_
          cases hmutex.symm.trans (hsem o ho).1
      · exact holder_setTask_of_ne hvt
    rw [hholder, settled_setTask hx.prio hx.bPrio]
    have hlive : ∀ v, (((s.setQueues q).setTask t x).task v).Live → (s.task v).Live :=
      forall_setTask (P := fun v y => y.Live → (s.task v).Live) (fun _ => id) fun _ => hx.lived
    exact hs.settled u (hlive u hu)
  waits u o := by
    refine forall_setTask (P := fun u y => y.waitsFor = some o →
      (s.obj o).objType = .mutex ∨ (s.obj o).objType = .sem ∧ (s.obj o).count = 0)
      (fun u => hs.waits u o) (fun ho => ?_) u
    rcases hwaits with hsame | ⟨-, hsem⟩
    · exact hs.waits t o (hsame.symm.trans ho)
    · exact .inr (hsem o ho)
  objs := hs.objs
  ahead := hs.ahead.setTask hahead

/-! ### Other priorities -/

namespace KState.Reprios

omit [DecidableEq T] [DecidableEq O]

theorem sound (hr : s.Reprios s') (hs : Sound idle held s) : Sound idle held s' where
  lists := hr.lists
  locks := by
    refine hs.locks.congr (fun u => hr.live_iff) (fun u o hu _ => .inl ?_) hr.obj_eq
    rwa [hr.view_eq KTask.waitsFor fun _ _ => rfl] at hu
  fine u := hr.fine (hs.fine u)
  idle_rdy := (hr.view_eq KTask.taskState (fun _ _ => rfl) idle).trans hs.idle_rdy
  idle_free := (hr.view_eq KTask.mutexList (fun _ _ => rfl) idle).trans hs.idle_free
  idle_base := (hr.view_eq KTask.bPrio (fun _ _ => rfl) idle).trans hs.idle_base
  base_lt u hu hui := by
    rw [hr.view_eq KTask.bPrio fun _ _ => rfl]
    exact hs.base_lt u (hr.live_iff.1 hu) hui

theorem waits (hr : s.Reprios s') (hs : s.Waits) : s'.Waits := by
  intro u o hu
  rw [hr.view_eq KTask.waitsFor fun _ _ => rfl] at hu
  rw [hr.obj_eq]
  exact hs u o hu

theorem objs (hr : s.Reprios s') (hs : ∀ o, (s.obj o).Fine) (o : O) : (s'.obj o).Fine := by
  rw [hr.obj_eq]
  exact hs o

theorem ahead (hr : s.Reprios s') (hs : s.Ahead) : s'.Ahead := by
  obtain ⟨q, prio, rfl, -, -⟩ := hr
  exact hs

end KState.Reprios

/-! ### One object -/

omit [DecidableEq T] in
/-- A property of every object, one of which is replaced. -/
theorem forall_setObj {P : O → KObj T → Prop} (hs : ∀ o', o' ≠ o → P o' (s.obj o')) (hm : P o m)
    (o' : O) : P o' ((s.setObj o m).obj o') := by
  by_cases ho : o' = o
  · subst ho
    rwa [KState.setObj_obj, Function.update_self]
  · rw [KState.setObj_obj, Function.update_of_ne ho]
    exact hs o' ho

omit [DecidableEq T] in
/-- An object may be replaced if its list is in the order it is to be in. -/
theorem Lists.setObj (hl : Lists s)
    (hm : m.blkPolicy = .pri → (s.obj o).blkPolicy = .pri ∨ ∀ u, (s.task u).waitsFor ≠ some o) :
    Lists (s.setObj o m) where
  holds := hl.holds
  sorted o' ho' := by
    by_cases ho : o' = o
    · subst ho
      rw [KState.setObj_obj, Function.update_self] at ho'
      rcases hm ho' with hpri | hnone
      · exact hl.sorted o' hpri
      · have hnil : s.queues.blkList o' = [] :=
          List.eq_nil_iff_forall_not_mem.2 fun u hu => hnone u (hl.mem_blkList.1 hu)
        rw [KState.setObj_queues, hnil]
        exact List.Pairwise.nil
    · rw [KState.setObj_obj, Function.update_of_ne ho] at ho'
      exact hl.sorted o' ho'
  due := hl.due
  prio_lt := hl.prio_lt

omit [DecidableEq T] in
theorem owner_setObj (howner : ∀ t, m.objType = .mutex ∧ m.mutexTask = some t ↔
      (s.obj o).objType = .mutex ∧ (s.obj o).mutexTask = some t) (o' : O) (t : T) :
    ((s.setObj o m).obj o').objType = .mutex ∧ ((s.setObj o m).obj o').mutexTask = some t ↔
      (s.obj o').objType = .mutex ∧ (s.obj o').mutexTask = some t := by
  by_cases ho : o' = o
  · subst ho
    rw [KState.setObj_obj, Function.update_self]
    exact howner t
  · rw [KState.setObj_obj, Function.update_of_ne ho]

omit [DecidableEq T] in
theorem holder_setObj (howner : ∀ t, m.objType = .mutex ∧ m.mutexTask = some t ↔
    (s.obj o).objType = .mutex ∧ (s.obj o).mutexTask = some t) :
    (s.setObj o m).holder = s.holder :=
  holder_congr (fun _ => rfl) (owner_setObj howner)

omit [DecidableEq T] in
/-- **One object is replaced**, by one with the same owner: it becomes a
mutex, and the order of its list changes, only where nobody waits. -/
theorem Sound.setObj (hs : Sound idle held s)
    (howner : ∀ t, m.objType = .mutex ∧ m.mutexTask = some t ↔
      (s.obj o).objType = .mutex ∧ (s.obj o).mutexTask = some t)
    (hpolicy : m.objType = .mutex → m.blkPolicy = .pri)
    (hwaits : (∀ u, (s.task u).waitsFor ≠ some o) ∨
      (m.objType = .mutex → (s.obj o).objType = .mutex) ∧ m.blkPolicy = (s.obj o).blkPolicy) :
    Sound idle held (s.setObj o m) where
  lists := by
    refine hs.lists.setObj fun hpri => ?_
    rcases hwaits with hnone | ⟨-, hsame⟩
    · exact .inr hnone
    · exact .inl (hsame.symm.trans hpri)
  locks := by
    have howner' := owner_setObj howner
    refine ⟨fun u o' hu => ?_, hs.locks.nodup, fun o' u ho hu => ?_, fun u o' hu ho => ?_,
      fun o' ho => ?_⟩
    · rw [howner']
      exact hs.locks.held_iff u o' hu
    · obtain ⟨ho, hu⟩ := (howner' o' u).1 ⟨ho, hu⟩
      exact hs.locks.owner_live o' u ho hu
    · have ho' : (s.obj o').objType = .mutex := by
        by_cases hoo : o' = o
        · subst hoo
          rw [KState.setObj_obj, Function.update_self] at ho
          exact (hwaits.resolve_left fun hnone => hnone u hu).1 ho
        · rwa [KState.setObj_obj, Function.update_of_ne hoo] at ho
      obtain ⟨v, hv, hvu⟩ := hs.locks.owned u o' hu ho'
      exact ⟨v, ((howner' o' v).2 ⟨ho', hv⟩).2, hvu⟩
    · by_cases hoo : o' = o
      · subst hoo
        rw [KState.setObj_obj, Function.update_self] at ho ⊢
        exact hpolicy ho
      · rw [KState.setObj_obj, Function.update_of_ne hoo] at ho ⊢
        exact hs.locks.policy o' ho
  fine := hs.fine
  idle_rdy := hs.idle_rdy
  idle_free := hs.idle_free
  idle_base := hs.idle_base
  base_lt := hs.base_lt

omit [DecidableEq T] in
/-- The same between calls, where the count of a semaphore changes only
while nobody waits for it. -/
theorem Ok.setObj (hs : Ok idle s)
    (howner : ∀ t, m.objType = .mutex ∧ m.mutexTask = some t ↔
      (s.obj o).objType = .mutex ∧ (s.obj o).mutexTask = some t)
    (hpolicy : m.objType = .mutex → m.blkPolicy = .pri)
    (hfine : m.Fine)
    (hwaits : (∀ u, (s.task u).waitsFor ≠ some o) ∨ m.objType = (s.obj o).objType ∧
      m.blkPolicy = (s.obj o).blkPolicy ∧ m.count = (s.obj o).count) :
    Ok idle (s.setObj o m) where
  sound := hs.sound.setObj howner hpolicy (hwaits.imp_right fun h => ⟨h.1.symm.trans, h.2.1⟩)
  settled u hu := by
    rw [holder_setObj howner]
    exact hs.settled u hu
  waits u o' hu := by
    have ho := hs.waits u o' hu
    by_cases hoo : o' = o
    · subst hoo
      obtain ⟨htype, -, hcount⟩ := hwaits.resolve_left fun hnone => hnone u hu
      rwa [KState.setObj_obj, Function.update_self, htype, hcount]
    · rwa [KState.setObj_obj, Function.update_of_ne hoo]
  objs := forall_setObj (P := fun _ y => y.Fine) (fun o' _ => hs.objs o') hfine
  ahead := hs.ahead

/-! ### A mutex changes hands -/

/-- Who waits for whom, but for `o`. -/
def KState.without (s : KState T O) (o : O) (u : T) : Option T :=
  if (s.task u).waitsFor = some o then none else s.holder u

omit [DecidableEq T] in
theorem without_eq_some :
    s.without o w = some t ↔ (s.task w).waitsFor ≠ some o ∧ s.holder w = some t := by
  unfold KState.without
  split <;> simp [*]

omit [DecidableEq T] in
theorem without_congr (hwaits : ∀ u, (s'.task u).waitsFor = (s.task u).waitsFor)
    (hholder : s'.holder = s.holder) : s'.without o = s.without o := by
  funext u
  unfold KState.without
  rw [hwaits, hholder]

omit [DecidableEq T] in
/-- Who does not own the mutex is settled without it. -/
theorem KState.Settled.without (hu : s.Settled s.holder u)
    (howner : ∀ v, (s.task v).waitsFor = some o → s.holder v ≠ some u) :
    s.Settled (s.without o) u := by
  refine Inherit.Settled.congr hu rfl (fun v => ?_) fun _ _ => rfl
  rw [without_eq_some, and_iff_right_of_imp]
  exact fun hv ho => howner v ho hv

/-- What each task holds when the owner of `o` has unlinked it. -/
theorem Locks.mem_unlinked (hk : Locks held s) (hmutex : (s.obj o).objType = .mutex)
    (ht : (s.obj o).mutexTask = some t) (hu : (s.task u).Live) (o' : O) :
    o' ∈ Function.update held t ((held t).filter (· ≠ o)) u ↔ o' ∈ held u ∧ o' ≠ o := by
  by_cases hut : u = t
  · rw [hut, Function.update_self]
    simp
  · rw [Function.update_of_ne hut, and_iff_left_of_imp]
    rintro hmem rfl
    have hu := ((hk.held_iff u o' hu).1 hmem).2
    exact hut (Option.some.inj (hu.symm.trans ht))

theorem Locks.nodup_unlinked (hk : Locks held s) (hu : (s.task u).Live) :
    (Function.update held t ((held t).filter (· ≠ o)) u).Nodup := by
  have hnodup := hk.nodup u hu
  by_cases hut : u = t
  · rw [hut] at hnodup ⊢
    rw [Function.update_self]
    exact hnodup.filter _
  · rwa [Function.update_of_ne hut]

omit [DecidableEq T] in
/-- **A mutex is given up**: nobody owns it, and if it is a mutex still,
nobody waits for it. -/
theorem Locks.drop {held' : T → List O} (hk : Locks held s)
    (hheld : ∀ u, (s.task u).Live → ∀ o', o' ∈ held' u ↔ o' ∈ held u ∧ o' ≠ o)
    (hnodup : ∀ u, (s.task u).Live → (held' u).Nodup)
    (hlive : ∀ u, (s'.task u).Live ↔ (s.task u).Live)
    (hwaits : ∀ u, (s'.task u).waitsFor = (s.task u).waitsFor)
    (hobj : s'.obj = Function.update s.obj o m)
    (hm : m.objType = .mutex → m.mutexTask = none ∧ m.blkPolicy = .pri ∧
      ∀ u, (s.task u).waitsFor ≠ some o) : Locks held' s' where
  held_iff u o' hu := by
    rw [hheld u ((hlive u).1 hu), hk.held_iff u o' ((hlive u).1 hu), hobj]
    by_cases ho : o' = o
    · subst ho
      rw [Function.update_self]
      refine iff_of_false (fun h => h.2 rfl) fun h => ?_
      cases h.2.symm.trans (hm h.1).1
    · rw [Function.update_of_ne ho, and_iff_left ho]
  nodup u hu := hnodup u ((hlive u).1 hu)
  owner_live o' u ho hu := by
    rw [hobj] at ho hu
    by_cases hoo : o' = o
    · subst hoo
      rw [Function.update_self] at ho hu
      cases hu.symm.trans (hm ho).1
    · rw [Function.update_of_ne hoo] at ho hu
      exact (hlive u).2 (hk.owner_live o' u ho hu)
  owned u o' hu ho := by
    rw [hwaits] at hu
    rw [hobj] at ho ⊢
    by_cases hoo : o' = o
    · subst hoo
      rw [Function.update_self] at ho
      exact absurd hu ((hm ho).2.2 u)
    · rw [Function.update_of_ne hoo] at ho ⊢
      exact hk.owned u o' hu ho
  policy o' ho := by
    rw [hobj] at ho ⊢
    by_cases hoo : o' = o
    · subst hoo
      rw [Function.update_self] at ho ⊢
      exact (hm ho).2.1
    · rw [Function.update_of_ne hoo] at ho ⊢
      exact hk.policy o' ho

omit [DecidableEq T] in
/-- Then nobody waits for whom it was waited for. -/
theorem holder_drop (hwaits : ∀ u, (s'.task u).waitsFor = (s.task u).waitsFor)
    (hobj : s'.obj = Function.update s.obj o m)
    (hm : m.objType = .mutex → ∀ u, (s.task u).waitsFor ≠ some o) :
    s'.holder = s.without o := by
  funext u
  unfold KState.holder KState.without
  rw [hwaits, hobj]
  split
  · rename_i hu
    rw [hu, Option.bind_some, Function.update_self]
    exact if_neg fun h => hm h u hu
  · rename_i hu
    unfold KState.holder
    cases hw : (s.task u).waitsFor with
    | none => rfl
    | some o' =>
      have ho : o' ≠ o := by
        rintro rfl
        exact hu hw
      rw [Option.bind_some, Option.bind_some, Function.update_of_ne ho]

/-- **A mutex is given to `w`**, who does not wait for it any more. -/
theorem Locks.give {held' : T → List O} (hk : Locks held s)
    (hheld : ∀ u, (s.task u).Live → ∀ o', o' ∈ held' u ↔ o' ∈ held u ∧ o' ≠ o)
    (hnodup : ∀ u, (s.task u).Live → (held' u).Nodup)
    (hlive : ∀ u, (s'.task u).Live ↔ (s.task u).Live)
    (hwaits : ∀ u o', (s'.task u).waitsFor = some o' → (s.task u).waitsFor = some o')
    (hw : (s'.task w).waitsFor ≠ some o) (hwl : (s.task w).Live)
    (hobj : s'.obj = Function.update s.obj o m) (hmutex : m.objType = .mutex)
    (howner : m.mutexTask = some w) (hpolicy : m.blkPolicy = .pri) :
    Locks (Function.update held' w (o :: held' w)) s' where
  held_iff u o' hu := by
    have hu := (hlive u).1 hu
    have hold := (hheld u hu o').trans (and_congr_left fun _ => hk.held_iff u o' hu)
    rw [hobj]
    by_cases ho : o' = o
    · subst ho
      rw [Function.update_self, hmutex, howner, eq_self, true_and, Option.some.injEq]
      by_cases huw : u = w
      · subst huw
        simp
      · rw [Function.update_of_ne huw, hold]
        exact iff_of_false (fun h => h.2 rfl) (Ne.symm huw)
    · rw [Function.update_of_ne ho]
      by_cases huw : u = w
      · subst huw
        rw [Function.update_self, List.mem_cons, or_iff_right ho, hold, and_iff_left ho]
      · rw [Function.update_of_ne huw, hold, and_iff_left ho]
  nodup u hu := by
    have hu := (hlive u).1 hu
    by_cases huw : u = w
    · subst huw
      rw [Function.update_self, List.nodup_cons]
      refine ⟨fun hmem => ?_, hnodup u hu⟩
      exact ((hheld u hu o).1 hmem).2 rfl
    · rw [Function.update_of_ne huw]
      exact hnodup u hu
  owner_live o' u ho hu := by
    rw [hobj] at ho hu
    by_cases hoo : o' = o
    · subst hoo
      rw [Function.update_self, howner, Option.some.injEq] at hu
      subst hu
      exact (hlive w).2 hwl
    · rw [Function.update_of_ne hoo] at ho hu
      exact (hlive u).2 (hk.owner_live o' u ho hu)
  owned u o' hu ho := by
    rw [hobj] at ho ⊢
    by_cases hoo : o' = o
    · subst hoo
      rw [Function.update_self]
      refine ⟨w, howner, ?_⟩
      rintro rfl
      exact hw hu
    · rw [Function.update_of_ne hoo] at ho ⊢
      exact hk.owned u o' (hwaits u o' hu) ho
  policy o' ho := by
    rw [hobj] at ho ⊢
    by_cases hoo : o' = o
    · subst hoo
      rw [Function.update_self]
      exact hpolicy
    · rw [Function.update_of_ne hoo] at ho ⊢
      exact hk.policy o' ho

/-- Then who waits for the mutex waits for `w`. -/
theorem holder_give (hwaits : ∀ u, u ≠ w → (s'.task u).waitsFor = (s.task u).waitsFor)
    (hw : (s'.task w).waitsFor = none) (hobj : s'.obj = Function.update s.obj o m)
    (hmutex : m.objType = .mutex) (howner : m.mutexTask = some w) :
    s'.holder = fun u =>
      if u = w then none else if (s.task u).waitsFor = some o then some w else s.holder u := by
  funext u
  unfold KState.holder
  by_cases huw : u = w
  · subst huw
    rw [hw, if_pos rfl]
    rfl
  · rw [if_neg huw, hwaits u huw, hobj]
    split
    · rename_i hu
      rw [hu, Option.bind_some, Function.update_self, if_pos hmutex, howner]
    · rename_i hu
      cases hwu : (s.task u).waitsFor with
      | none => rfl
      | some o' =>
        have ho : o' ≠ o := by
          rintro rfl
          exact hu hwu
        rw [Option.bind_some, Option.bind_some, Function.update_of_ne ho]

/-- **Whoever was settled without the mutex is settled** where it has gone to
the most urgent of those that waited for it. -/
theorem settled_give (hholder : s'.holder = fun u =>
      if u = w then none else if (s.task u).waitsFor = some o then some w else s.holder u)
    (hw : s.without o w = none) (hprio : ∀ u, (s'.task u).prio = (s.task u).prio)
    (hbase : ∀ u, (s'.task u).bPrio = (s.task u).bPrio)
    (hfirst : ∀ v, (s.task v).waitsFor = some o → (s.task w).prio ≤ (s.task v).prio)
    (hu : s.Settled (s.without o) u) : s'.Settled s'.holder u := by
  rw [settled_congr hprio hbase, hholder]
  refine Inherit.Settled.mono hu rfl (fun v hv _ => ⟨?_, rfl⟩) fun v hv => ?_
  · -- who waited for the task, and not for the mutex, waits for it still
    obtain ⟨hvo, hvu⟩ := without_eq_some.1 hv
    have hvw : v ≠ w := by
      rintro rfl
      cases hw.symm.trans hv
    rw [if_neg hvw, if_neg hvo, hvu]
  · split at hv
    · cases hv
    · split at hv
      · rename_i hvo
        obtain rfl := Option.some.inj hv
        exact hfirst v hvo
      · rename_i hvo
        exact hu.le_of_holder (without_eq_some.2 ⟨hvo, hv⟩)

omit [DecidableEq T] in
/-- What is waited for, where an object becomes or stays a mutex. -/
theorem KState.Waits.setObj (hs : s.Waits)
    (hm : m.objType = .mutex ∨ ∀ u, (s.task u).waitsFor ≠ some o) : (s.setObj o m).Waits := by
  intro u o'
  refine forall_setObj (P := fun o' y => (s.task u).waitsFor = some o' →
    y.objType = .mutex ∨ y.objType = .sem ∧ y.count = 0) (fun o' _ => hs u o') (fun hu => ?_) o'
  exact .inl (hm.resolve_right fun hnone => hnone u hu)

omit [DecidableEq O] in
/-- What is waited for, where one task waits for nothing any more. -/
theorem KState.Waits.setTask (hs : s.Waits) (hx : x.waitsFor = none) :
    ((s.setQueues q).setTask t x).Waits := by
  intro u o
  refine forall_setTask (P := fun _ y => y.waitsFor = some o →
    (s.obj o).objType = .mutex ∨ (s.obj o).objType = .sem ∧ (s.obj o).count = 0)
    (fun u => hs u o) (fun hu => ?_) u
  cases hx.symm.trans hu

end Hgsdk.Rhino

import Hgsdk.Rhino.Tick
/-!
# The kernel as a whole

Calls, interrupts, ticks and the scheduler, in any order. `Admissible` is
what the kernel relies on: who calls is ready, the idle task does not block,
and nothing is created twice or deleted that is not there. Every admissible
step is taken, and keeps what `Good` says.
-/

namespace Hgsdk.Rhino

variable {T O : Type} [DecidableEq T] [DecidableEq O]
variable {s s' s₁ : KState T O} {idle t u w : T} {o : O} {m : KObj T} {r : Ret} {c : Call T O}
variable {e : Event T O} {es : List (Event T O)}

/-! ### The scheduler -/

omit [DecidableEq T] [DecidableEq O] in
/-- What the kernel keeps does not depend on who runs. -/
theorem Ok.congr (hs : Ok idle s) (hqueues : s'.queues = s.queues) (htask : s'.task = s.task)
    (hobj : s'.obj = s.obj) (htick : s'.tickCount = s.tickCount) : Ok idle s' := by
  obtain ⟨queues, task, obj, tickCount, _, _, _⟩ := s
  obtain ⟨queues', task', obj', tickCount', _, _, _⟩ := s'
  subst hqueues htask hobj htick
  have hl := hs.sound.lists
  exact ⟨⟨⟨hl.holds, hl.sorted, hl.due, hl.prio_lt⟩,
    hs.sound.locks.congr (fun _ => Iff.rfl) (fun _ _ h _ => .inl h) rfl, hs.sound.fine,
    hs.sound.idle_rdy, hs.sound.idle_free, hs.sound.idle_base, hs.sound.base_lt⟩, hs.settled,
    hs.waits, hs.objs, hs.ahead⟩

/-- **Who should run**: a ready task, and none that is ready is more
urgent. -/
structure KState.Preferred (s : KState T O) (t : T) : Prop where
  rdy : (s.task t).taskState = .rdy
  le : ∀ u, (s.task u).taskState = .rdy → (s.task t).prio ≤ (s.task u).prio

omit [DecidableEq T] [DecidableEq O] in
theorem ensures_switchToPreferred (hs : Ok idle s) :
    Ensures switchToPreferred s fun _ s' =>
      ∃ t, s.Preferred t ∧ s' = { s with activeTask := t } := by
  obtain ⟨t, l, hlist, ht, hle⟩ :=
    hs.sound.lists.holds.ready.exists_preferred (KTask.readyAt_of_rdy hs.sound.idle_rdy)
  obtain ⟨hrdy, hprio⟩ := KTask.readyAt_eq_some.1 ht
  rw [switchToPreferred, ensures_bind, ensures_get, ensures_bind, ensures_deref]
  refine ⟨t, ?_, ensures_set.2 ⟨t, ⟨hrdy, fun u hu => ?_⟩, rfl⟩⟩
  · rw [hlist]
    rfl
  · rw [hprio]
    exact hle u _ (KTask.readyAt_of_rdy hu)

omit [DecidableEq T] [DecidableEq O] in
/-- **`core_sched`**: nothing changes but who runs, and that only where the
scheduler may run. -/
theorem ensures_coreSched (hs : Ok idle s) :
    Ensures coreSched s fun _ s' => ∃ t, s' = { s with activeTask := t } ∧
      if s.intrptNestedLevel = 0 ∧ s.schedLock = 0 then s.Preferred t else t = s.activeTask := by
  rw [coreSched, ensures_bind, ensures_get, ensures_when]
  refine ⟨fun hc => ?_, fun hc => ⟨s.activeTask, rfl, ?_⟩⟩
  · refine (ensures_switchToPreferred hs).mono ?_
    rintro - s' ⟨t, ht, rfl⟩
    exact ⟨t, rfl, by rwa [if_pos hc]⟩
  · rw [if_neg hc]

omit [DecidableEq T] [DecidableEq O] in
/-- **`krhino_intrpt_exit`**: the scheduler runs at the end of the outermost
interrupt. -/
theorem ensures_krhinoIntrptExit (hs : Ok idle s) (hlevel : 0 < s.intrptNestedLevel) :
    Ensures krhinoIntrptExit s fun _ s' => ∃ t,
      s' = { s with activeTask := t, intrptNestedLevel := s.intrptNestedLevel - 1 } ∧
      if s.intrptNestedLevel - 1 = 0 ∧ s.schedLock = 0 then s.Preferred t
      else t = s.activeTask := by
  rw [krhinoIntrptExit, ensures_bind, ensures_get, if_neg (by omega), ensures_bind, ensures_set,
    ensures_when]
  refine ⟨fun hc => ?_, fun hc => ⟨s.activeTask, rfl, ?_⟩⟩
  · have hs₁ : Ok idle { s with intrptNestedLevel := s.intrptNestedLevel - 1 } :=
      hs.congr rfl rfl rfl rfl
    refine (ensures_switchToPreferred hs₁).mono ?_
    rintro - s' ⟨t, ht, rfl⟩
    exact ⟨t, rfl, by rw [if_pos hc]; exact ⟨ht.rdy, ht.le⟩⟩
  · rw [if_neg hc]

/-! ### What the kernel relies on -/

/-- What a call relies on. A task that is named is there: it is not just
being created by another, nor deleted between the checks of a call and its
change. The idle task is not to be deleted. -/
def Call.Admissible (idle : T) (s : KState T O) : Call T O → Prop
  | mutexCreate mutex => (s.obj mutex).objType = .none
  | mutexLock mutex _ =>
    (s.obj mutex).mutexTask = some s.activeTask → (s.obj mutex).ownerNested ≠ -1
  | semCreate sem _ => (s.obj sem).objType = .none
  | taskCreate task _ _ _ _ => ¬ (s.task task).Live ∧ task ≠ idle
  | taskYield => s.intrptNestedLevel = 0
  | taskSuspend task | taskResume task | taskPriChange task _ => (s.task task).Live
  | taskDel task => (s.task task).Live ∧ task ≠ idle
  | _ => True

/-- The calls that may block who makes them. -/
def Call.Blocking : Call T O → Prop
  | mutexLock .. | semTake .. | taskSleep .. => True
  | _ => False

/-- What a step relies on. A call outside of interrupts is made by a task that
is ready, and one that may block by another than the idle task. -/
def Event.Admissible (idle : T) (s : KState T O) : Event T O → Prop
  | call c =>
    (s.intrptNestedLevel = 0 → (s.task s.activeTask).taskState = .rdy ∧
      (c.Blocking → s.activeTask ≠ idle)) ∧ c.Admissible idle s
  | intrptEnter => s.intrptNestedLevel < intrptMaxNestedLevel
  | intrptExit => 0 < s.intrptNestedLevel
  | tickListUpdate | timeSliceUpdate => True
  | coreSched => True

instance (idle : T) (s : KState T O) : ∀ c : Call T O, Decidable (c.Admissible idle s)
  | .mutexCreate mutex => inferInstanceAs (Decidable ((s.obj mutex).objType = .none))
  | .mutexLock mutex _ => inferInstanceAs (Decidable
      ((s.obj mutex).mutexTask = some s.activeTask → (s.obj mutex).ownerNested ≠ -1))
  | .semCreate sem _ => inferInstanceAs (Decidable ((s.obj sem).objType = .none))
  | .taskCreate task _ _ _ _ => inferInstanceAs (Decidable (¬ (s.task task).Live ∧ task ≠ idle))
  | .taskYield => inferInstanceAs (Decidable (s.intrptNestedLevel = 0))
  | .taskSuspend task | .taskResume task | .taskPriChange task _ =>
    inferInstanceAs (Decidable (s.task task).Live)
  | .taskDel task => inferInstanceAs (Decidable ((s.task task).Live ∧ task ≠ idle))
  | .mutexUnlock _ | .mutexDel _ | .semGive _ | .semGiveAll _ | .semTake _ _ | .semCountSet _ _
  | .semDel _ | .taskSleep _ | .schedDisable | .schedEnable => inferInstanceAs (Decidable True)

instance : ∀ c : Call T O, Decidable c.Blocking
  | .mutexLock _ _ | .semTake _ _ | .taskSleep _ => inferInstanceAs (Decidable True)
  | .mutexCreate _ | .mutexUnlock _ | .mutexDel _ | .semCreate _ _ | .semGive _ | .semGiveAll _
  | .semCountSet _ _ | .semDel _ | .taskCreate _ _ _ _ _ | .taskYield | .taskSuspend _
  | .taskResume _ | .taskPriChange _ _ | .taskDel _ | .schedDisable | .schedEnable =>
    inferInstanceAs (Decidable False)

instance (idle : T) (s : KState T O) : ∀ e : Event T O, Decidable (e.Admissible idle s)
  | .call c => inferInstanceAs (Decidable ((s.intrptNestedLevel = 0 →
      (s.task s.activeTask).taskState = .rdy ∧ (c.Blocking → s.activeTask ≠ idle)) ∧
      c.Admissible idle s))
  | .intrptEnter => inferInstanceAs (Decidable (s.intrptNestedLevel < intrptMaxNestedLevel))
  | .intrptExit => inferInstanceAs (Decidable (0 < s.intrptNestedLevel))
  | .tickListUpdate | .timeSliceUpdate | .coreSched => inferInstanceAs (Decidable True)

/-- **What every admissible step keeps**: `Ok`, and while the scheduler is
locked, who runs is ready. -/
structure Good (idle : T) (s : KState T O) : Prop where
  ok : Ok idle s
  locked : 0 < s.schedLock → (s.task s.activeTask).taskState = .rdy

/-! ### What a step does -/

/-- **What a call does**, by what it returns. -/
def Call.Moves (s s' : KState T O) : Call T O → Ret → Prop
  | mutexCreate mutex, _ =>
    s.Frame s' ∧ SetMove s mutex .none (fun m => m.objType = .mutex ∧ m.mutexTask = none) s'
  | mutexLock mutex _, r => s.Frame s' ∧ LockMove s mutex s' r
  | mutexUnlock mutex, r => s.Moved s' none none ∧ UnlockMove s mutex s' r
  | mutexDel mutex, _ => s.Moved s' none none ∧
      SetMove s mutex .mutex (fun m => m.objType = .none) s'
  | semCreate sem count, _ =>
    s.Frame s' ∧ SetMove s sem .none (fun m => m.objType = .sem ∧ m.count = count) s'
  | semGive sem, r => s.Moved s' (some sem) none ∧ GiveMove s sem s' r
  | semGiveAll sem, r => s.Moved s' (some sem) none ∧ GiveAllMove s sem s' r
  | semTake sem _, r => s.Frame s' ∧ TakeMove s sem s' r
  | semCountSet sem count, _ =>
    s.Frame s' ∧ SetMove s sem .sem (fun m => m.objType = .sem ∧ m.count = count) s'
  | semDel sem, _ => s.Moved s' none none ∧ SetMove s sem .sem (fun m => m.objType = .none) s'
  | taskSleep ticks, r => s.Frame s' ∧ s'.obj = s.obj ∧ (r = .pend →
      ticks ≠ 0 ∧ (s'.task s.activeTask).Asleep ∧
        (s'.task s.activeTask).tickMatch = s.tickCount + ticks)
  | taskDel task, _ => s.Moved s' none (some task) ∧ (∀ o, PassedOn task s s' o) ∧
      (s' = s ∨ (s'.task task).taskState = .deleted)
  | schedDisable, _ =>
    s' = s ∨ s.intrptNestedLevel = 0 ∧ s' = { s with schedLock := s.schedLock + 1 }
  | schedEnable, _ => s' = s ∨ 0 < s.schedLock ∧ s' = { s with schedLock := s.schedLock - 1 }
  | _, _ => s.Frame s' ∧ s'.obj = s.obj

/-- **What a step does.** -/
def Event.Moves (idle : T) (s s' : KState T O) : Event T O → Prop
  | call c => ∃ r, c.exec s = some (r, s') ∧ c.Moves s s' r
  | intrptEnter => s' = { s with intrptNestedLevel := s.intrptNestedLevel + 1 }
  | intrptExit => ∃ t,
      s' = { s with activeTask := t, intrptNestedLevel := s.intrptNestedLevel - 1 } ∧
      if s.intrptNestedLevel - 1 = 0 ∧ s.schedLock = 0 then s.Preferred t else t = s.activeTask
  | tickListUpdate => Ticked idle s s'
  | timeSliceUpdate => Sliced idle s s'
  | coreSched => ∃ t, s' = { s with activeTask := t } ∧
      if s.intrptNestedLevel = 0 ∧ s.schedLock = 0 then s.Preferred t else t = s.activeTask

omit [DecidableEq T] [DecidableEq O] in
theorem ensures_krhinoSchedDisable (hs : Ok idle s) :
    Ensures krhinoSchedDisable s fun _ s' => Ok idle s' ∧
      (s' = s ∨ s.intrptNestedLevel = 0 ∧ s' = { s with schedLock := s.schedLock + 1 }) := by
  refine ensures_notByIntrpt ⟨hs, .inl rfl⟩ fun hlevel => ?_
  rw [ensures_bind, ensures_get]
  split
  · exact ensures_pure.2 ⟨hs, .inl rfl⟩
  · rw [ensures_bind, ensures_set, ensures_pure]
    exact ⟨hs.congr rfl rfl rfl rfl, .inr ⟨hlevel, rfl⟩⟩

omit [DecidableEq T] [DecidableEq O] in
theorem ensures_krhinoSchedEnable (hs : Ok idle s) :
    Ensures krhinoSchedEnable s fun _ s' => Ok idle s' ∧
      (s' = s ∨ 0 < s.schedLock ∧ s' = { s with schedLock := s.schedLock - 1 }) := by
  refine ensures_notByIntrpt ⟨hs, .inl rfl⟩ fun _ => ?_
  rw [ensures_bind, ensures_get]
  split
  · exact ensures_pure.2 ⟨hs, .inl rfl⟩
  · rename_i hpos
    rw [ensures_bind, ensures_set]
    have hless : Ok idle { s with schedLock := s.schedLock - 1 } := hs.congr rfl rfl rfl rfl
    split
    · exact ensures_pure.2 ⟨hless, .inr ⟨Nat.pos_of_ne_zero hpos, rfl⟩⟩
    · exact ensures_pure.2 ⟨hless, .inr ⟨Nat.pos_of_ne_zero hpos, rfl⟩⟩

/-- **Every admissible call returns**, keeps `Ok`, and does what is said of
it. -/
theorem ensures_call [Fintype T] (hs : Ok idle s)
    (hrun : s.intrptNestedLevel = 0 → (s.task s.activeTask).taskState = .rdy ∧
      (c.Blocking → s.activeTask ≠ idle)) (hc : c.Admissible idle s) :
    Ensures c.exec s fun r s' => Ok idle s' ∧ c.Moves s s' r := by
  have hrunning : c.Blocking → s.intrptNestedLevel = 0 → Running idle s := fun hb hlevel =>
    ⟨(hrun hlevel).1, (hrun hlevel).2 hb, hlevel⟩
  cases c with
  | mutexCreate mutex => exact ensures_krhinoMutexCreate hs hc
  | mutexLock mutex ticks => exact ensures_krhinoMutexLock hs (hrunning trivial) hc ticks
  | mutexUnlock mutex => exact ensures_krhinoMutexUnlock hs fun hlevel => (hrun hlevel).1
  | mutexDel mutex => exact ensures_krhinoMutexDel hs
  | semCreate sem count => exact ensures_krhinoSemCreate hs hc count
  | semGive sem => exact ensures_krhinoSemGive hs
  | semGiveAll sem => exact ensures_krhinoSemGiveAll hs
  | semTake sem ticks => exact ensures_krhinoSemTake hs (hrunning trivial) ticks
  | semCountSet sem count => exact ensures_krhinoSemCountSet hs count
  | semDel sem => exact ensures_krhinoSemDel hs
  | taskCreate task prio ticks stackSize autorun =>
    exact ensures_krhinoTaskCreate hs hc.1 hc.2 prio ticks stackSize autorun
  | taskSleep ticks => exact ensures_krhinoTaskSleep hs (hrunning trivial) ticks
  | taskYield => exact ensures_krhinoTaskYield hs (hrun hc).1
  | taskSuspend task => exact ensures_krhinoTaskSuspend hs
  | taskResume task => exact ensures_krhinoTaskResume hs
  | taskPriChange task pri => exact ensures_krhinoTaskPriChange hs hc.1 pri
  | taskDel task =>
    refine (ensures_krhinoTaskDel hs hc.1 hc.2).mono ?_
    rintro - s' (rfl | hdel)
    · exact ⟨hs, .refl _, fun o => .inl rfl, .inl rfl⟩
    · exact ⟨hdel.ok, hdel.moved, hdel.obj, .inr hdel.self⟩
  | schedDisable => exact ensures_krhinoSchedDisable hs
  | schedEnable => exact ensures_krhinoSchedEnable hs

/-- A call that locks or unlocks the scheduler. -/
def Call.IsSched : Call T O → Prop
  | schedDisable | schedEnable => True
  | _ => False

/-- The semaphore a call gives to. -/
def Call.givesTo : Call T O → Option O
  | semGive sem | semGiveAll sem => some sem
  | _ => none

/-- The task a call deletes. -/
def Call.deletes : Call T O → Option T
  | taskDel task => some task
  | _ => none

/-- What the other calls do to the tasks. -/
theorem Call.Moves.moved (h : c.Moves s s' r) (hc : ¬ c.IsSched) :
    s.Moved s' c.givesTo c.deletes := by
  cases c with
  | mutexCreate | mutexLock | semCreate | semTake | semCountSet | taskCreate | taskSleep |
    taskYield | taskSuspend | taskResume | taskPriChange => exact h.1.moved
  | mutexUnlock | mutexDel | semGive | semGiveAll | semDel | taskDel => exact h.1
  | schedDisable | schedEnable => exact absurd trivial hc

/-- A call of a task that is ready keeps the running task ready while the
scheduler is locked. -/
theorem Call.Moves.locked (h : c.Moves s s' r) (hs : Good idle s)
    (hrun : s.intrptNestedLevel = 0 → (s.task s.activeTask).taskState = .rdy)
    (hpos : 0 < s'.schedLock) :
    (s'.task s'.activeTask).taskState = .rdy := by
  by_cases hc : c.IsSched
  · cases c with
    | schedDisable =>
      rcases h with rfl | ⟨hlevel, rfl⟩
      · exact hs.locked hpos
      · exact hrun hlevel
    | schedEnable =>
      rcases h with rfl | ⟨hpos', rfl⟩
      · exact hs.locked hpos
      · exact hs.locked hpos'
    | _ => exact absurd hc id
  · have hmoved := h.moved hc
    rw [hmoved.schedLock] at hpos
    rw [hmoved.activeTask]
    exact hmoved.locked hpos (hs.locked hpos)

omit [DecidableEq T] [DecidableEq O] in
/-- Who runs once the scheduler has run, or could not. -/
theorem Good.sched (hs : Good idle s) {level : ℕ}
    (ht : if level = 0 ∧ s.schedLock = 0 then s.Preferred t else t = s.activeTask) :
    0 < s.schedLock → (s.task t).taskState = .rdy := by
  intro hpos
  rw [if_neg (by omega)] at ht
  rw [ht]
  exact hs.locked hpos

theorem ensures_event [Fintype T] (hs : Good idle s) (he : e.Admissible idle s) :
    Ensures e.exec s fun _ s' => Good idle s' ∧ e.Moves idle s s' := by
  cases e with
  | call c =>
    obtain ⟨r, s', hexec, hok, hmoves⟩ := ensures_call hs.ok he.1 he.2
    have hc : Ensures c.exec s fun r' t => r' = r ∧ t = s' := ⟨r, s', hexec, rfl, rfl⟩
    refine hc.bind ?_
    rintro r' t ⟨rfl, rfl⟩
    exact ensures_pure.2 ⟨⟨hok, hmoves.locked hs fun h => (he.1 h).1⟩, r', hexec, hmoves⟩
  | intrptEnter =>
    rw [Event.exec, krhinoIntrptEnter, ensures_bind, ensures_get, if_neg (Nat.not_le.2 he),
      ensures_set]
    exact ⟨⟨hs.ok.congr rfl rfl rfl rfl, hs.locked⟩, rfl⟩
  | intrptExit =>
    refine (ensures_krhinoIntrptExit hs.ok he).mono ?_
    rintro - s' ⟨t, rfl, ht⟩
    exact ⟨⟨hs.ok.congr rfl rfl rfl rfl, hs.sched ht⟩, t, rfl, ht⟩
  | tickListUpdate =>
    refine (ensures_tickListUpdate hs.ok).mono fun _ s' h => ⟨⟨h.ok, fun hpos => ?_⟩, h⟩
    rw [h.schedLock] at hpos
    rw [h.activeTask]
    exact h.rdy _ (hs.locked hpos)
  | timeSliceUpdate =>
    refine (ensures_timeSliceUpdate hs.ok).mono fun _ s' h => ⟨⟨h.ok, fun hpos => ?_⟩, h⟩
    rw [h.schedLock] at hpos
    rw [h.activeTask, h.taskState]
    exact hs.locked hpos
  | coreSched =>
    refine (ensures_coreSched hs.ok).mono ?_
    rintro - s' ⟨t, rfl, ht⟩
    exact ⟨⟨hs.ok.congr rfl rfl rfl rfl, hs.sched ht⟩, t, rfl, ht⟩

theorem step_call (h : c.exec s = some (r, s')) : kernel.step s (.call c) = some s' := by
  show ((c.exec s).bind fun p => some ((), p.2)).map Prod.snd = _
  rw [h]
  rfl

/-- **Every admissible step is taken**, keeps what `Good` says, and does what
is said of it. -/
theorem exists_step [Fintype T] (hs : Good idle s) (he : e.Admissible idle s) :
    ∃ s', kernel.step s e = some s' ∧ Good idle s' ∧ e.Moves idle s s' := by
  obtain ⟨_, s', hexec, h⟩ := ensures_event hs he
  refine ⟨s', ?_, h⟩
  show (e.exec s).map Prod.snd = _
  rw [hexec]
  rfl

theorem moves_of_step [Fintype T] (hs : Good idle s) (he : e.Admissible idle s)
    (hstep : kernel.step s e = some s') : Good idle s' ∧ e.Moves idle s s' := by
  obtain ⟨s₁, hstep₁, h⟩ := exists_step hs he
  rw [hstep] at hstep₁
  obtain rfl := Option.some.inj hstep₁
  exact h

/-! ### What a step does to a task -/

/-- The semaphore a step gives to. -/
def Event.givesTo : Event T O → Option O
  | call c => c.givesTo
  | _ => none

/-- The task a step deletes. -/
def Event.deletes : Event T O → Option T
  | call c => c.deletes
  | _ => none

/-- The step is not a call of the task `u`. -/
def Event.NotBy (u : T) (s : KState T O) : Event T O → Prop
  | call _ => s.intrptNestedLevel = 0 → s.activeTask ≠ u
  | _ => True

instance (u : T) (s : KState T O) : ∀ e : Event T O, Decidable (e.NotBy u s)
  | .call _ => inferInstanceAs (Decidable (s.intrptNestedLevel = 0 → s.activeTask ≠ u))
  | .intrptEnter | .intrptExit | .tickListUpdate | .timeSliceUpdate | .coreSched =>
    inferInstanceAs (Decidable True)

/-- **What a step may be**: a call, a tick, or a step that leaves the objects,
the clock, and of the tasks all but their slices alone. -/
theorem Event.Moves.cases (h : e.Moves idle s s') :
    (∃ c r, e = .call c ∧ c.Moves s s' r ∧ ¬ c.IsSched) ∨
      e = .tickListUpdate ∧ Ticked idle s s' ∨
      (∀ u, ∃ slice, s'.task u = (s.task u).withSlice slice) ∧ s'.obj = s.obj ∧
        s'.tickCount = s.tickCount := by
  have hsame : ∀ {s₁ : KState T O}, s₁.task = s.task →
      ∀ u, ∃ slice, s₁.task u = (s.task u).withSlice slice := fun h u =>
    ⟨(s.task u).timeSlice, congrFun h u⟩
  cases e with
  | call c =>
    obtain ⟨r, -, hmoves⟩ := h
    by_cases hc : c.IsSched
    · cases c with
      | schedDisable | schedEnable =>
        rcases hmoves with rfl | ⟨-, rfl⟩
        · exact .inr (.inr ⟨hsame rfl, rfl, rfl⟩)
        · exact .inr (.inr ⟨hsame rfl, rfl, rfl⟩)
      | _ => exact absurd hc id
    · exact .inl ⟨c, r, rfl, hmoves, hc⟩
  | intrptEnter =>
    rw [show s' = _ from h]
    exact .inr (.inr ⟨hsame rfl, rfl, rfl⟩)
  | intrptExit | coreSched =>
    obtain ⟨t, rfl, -⟩ := h
    exact .inr (.inr ⟨hsame rfl, rfl, rfl⟩)
  | tickListUpdate => exact .inr (.inl ⟨rfl, h⟩)
  | timeSliceUpdate => exact .inr (.inr ⟨h.task, h.obj, h.tickCount⟩)

/-- **What may become of a task in a step.** -/
theorem Event.Moves.fate (h : e.Moves idle s s') (hdel : e.deletes ≠ some u) :
    s.Fate s' e.givesTo u ∨
      e = .tickListUpdate ∧ s.later.Overdue u ∧ (s.task u).Ended (s'.task u) := by
  rcases h.cases with ⟨c, r, rfl, hmoves, hc⟩ | ⟨rfl, htick⟩ | ⟨htask, -⟩
  · exact .inl ((hmoves.moved hc).fate u hdel)
  · exact (htick.task u).imp .undisturbed fun hu => ⟨rfl, hu⟩
  · obtain ⟨slice, hrec⟩ := htask u
    refine .inl (.undisturbed ?_)
    rw [hrec]
    exact .withSlice slice

/-- **A task comes to be blocked only by a call of its own.** -/
theorem Event.Moves.free (h : e.Moves idle s s') (hby : e.NotBy u s) (hu : (s.task u).Free) :
    (s'.task u).Free := by
  rcases h.cases with ⟨c, r, rfl, hmoves, hc⟩ | ⟨-, htick⟩ | ⟨htask, -⟩
  · rcases (hmoves.moved hc).free u hu with ⟨hact, hlevel⟩ | hu
    · exact absurd hact.symm (hby hlevel)
    · exact hu
  · exact htick.free u hu
  · obtain ⟨slice, hrec⟩ := htask u
    rw [hrec]
    exact ⟨hu.waitsFor, hu.awake⟩

/-- What a task has been told stands. -/
theorem Event.Moves.told {bs : BlkState} (h : e.Moves idle s s') (hs : Ok idle s)
    (hby : e.NotBy u s) (hdel : e.deletes ≠ some u) (hu : (s.task u).Told bs) :
    (s'.task u).Told bs := by
  have hfree := h.free hby hu.free
  have hnot : ∀ o, (s.task u).waitsFor ≠ some o := by
    intro o ho
    cases hu.free.waitsFor.symm.trans ho
  rcases h.fate hdel with hfate | ⟨-, -, hended⟩
  · cases hfate with
    | undisturbed h =>
      obtain ⟨hlive, hstate⟩ := h.live hu.live
      exact ⟨hlive, hfree, hstate.trans hu.blkState⟩
    | handed hw => exact absurd hw.waits (hnot _)
    | given _ hw => exact absurd hw (hnot _)
    | removed hw => exact absurd hw (hnot _)
  · -- what is timed is blocked
    rcases (hs.sound.fine u).timed hended.timed with hpend | hasleep
    · obtain ⟨o, ho⟩ := (hs.sound.fine u).pend_obj hpend
      exact absurd (KTask.waitsFor_eq_some.2 ⟨hpend, ho⟩) (hnot o)
    · exact absurd hasleep hu.free.awake

/-! ### Runs -/

omit [DecidableEq O] in
theorem krhinoStart_task : (krhinoStart idle : KState T O).task =
    Function.update (fun _ => .blank) idle (.created idlePri 0 true) := rfl

omit [DecidableEq O] in
/-- Two records are all there is at the start. -/
theorem forall_krhinoStart {P : T → KTask O → Prop} (hidle : P idle (.created idlePri 0 true))
    (hblank : ∀ u, u ≠ idle → P u .blank) (u : T) :
    P u ((krhinoStart idle : KState T O).task u) := by
  rw [krhinoStart_task]
  by_cases hu : u = idle
  · subst hu
    rwa [Function.update_self]
  · rw [Function.update_of_ne hu]
    exact hblank u hu

omit [DecidableEq O] in
/-- The kernel starts as it should. -/
theorem good_krhinoStart : Good idle (krhinoStart idle : KState T O) := by
  have hidle : (krhinoStart idle : KState T O).task idle = .created idlePri 0 true := by
    rw [krhinoStart_task, Function.update_self]
  have hwaits : ∀ u, ((krhinoStart idle : KState T O).task u).waitsFor = none :=
    forall_krhinoStart (P := fun _ y => y.waitsFor = none) rfl fun _ _ => rfl
  have huntimed : ∀ u, ((krhinoStart idle : KState T O).task u).tickHead = false :=
    forall_krhinoStart (P := fun _ y => y.tickHead = false) rfl fun _ _ => rfl
  have hmutexes : ∀ u, ((krhinoStart idle : KState T O).task u).mutexList = [] :=
    forall_krhinoStart (P := fun _ y => y.mutexList = []) rfl fun _ _ => rfl
  have hprio : ∀ u, ((krhinoStart idle : KState T O).task u).prio =
      ((krhinoStart idle : KState T O).task u).bPrio :=
    forall_krhinoStart (P := fun _ y => y.prio = y.bPrio) rfl fun _ _ => rfl
  have hlive : ∀ u, ((krhinoStart idle : KState T O).task u).Live → u = idle :=
    forall_krhinoStart (P := fun u y => y.Live → u = idle) (fun _ => rfl) fun _ _ h =>
      absurd rfl h.1
  have hready : KTask.readyAt ∘ (krhinoStart idle : KState T O).task =
      Function.update (fun _ => none) idle (some idlePri) :=
    Function.comp_update ..
  have hlists : Lists (krhinoStart idle : KState T O) := by
    refine ⟨⟨?_, fun o t => ?_, fun _ => List.nodup_nil, fun t => ?_, List.nodup_nil⟩,
      fun _ _ => List.Pairwise.nil, List.Pairwise.nil, ?_⟩
    · rw [hready]
      exact RunQueue.holds_init.readyListAddTail rfl (by decide)
    · refine iff_of_false List.not_mem_nil fun h => ?_
      cases (hwaits t).symm.trans h
    · refine iff_of_false List.not_mem_nil fun h => ?_
      cases (huntimed t).symm.trans h
    · exact forall_krhinoStart (P := fun _ y => y.prio < priMax)
        (show idlePri < priMax by decide) fun _ _ => show 0 < priMax by decide
  have hlocks : Locks (krhinoStart idle : KState T O).mutexes (krhinoStart idle) := by
    refine ⟨fun t o _ => iff_of_false ?_ ?_, fun t _ => ?_, ?_, fun t o h => ?_, ?_⟩
    · rw [KState.mutexes, hmutexes]
      exact List.not_mem_nil
    · rintro ⟨⟨⟩, -⟩
    · rw [KState.mutexes, hmutexes]
      exact List.nodup_nil
    · rintro o t ⟨⟩
    · cases (hwaits t).symm.trans h
    · rintro o ⟨⟩
  refine ⟨⟨⟨hlists, hlocks, ?_, by rw [hidle]; rfl, by rw [hidle]; rfl, by rw [hidle]; rfl,
    fun t ht hti => absurd (hlive t ht) hti⟩, fun t ht => ?_, fun t o h => ?_,
    fun o => ⟨?_, ?_⟩, fun t h => ?_⟩, fun h => absurd h (Nat.lt_irrefl 0)⟩
  · refine forall_krhinoStart (P := fun _ y => y.Fine) ⟨?_, ?_, ?_, fun _ => ?_,
      show idlePri < priMax by decide⟩
      fun _ _ => ⟨?_, ?_, ?_, fun h => absurd rfl h.1, show 0 < priMax by decide⟩
    all_goals simp [KTask.created, KTask.blank, KTask.Pending, KTask.Asleep, KTask.Suspended]
  · -- nobody waits, so the idle task is at its own priority
    have hnobody : ∀ w, (krhinoStart idle : KState T O).holder w ≠ some t := by
      intro w hw
      obtain ⟨o, hw, -⟩ := holder_eq_some.1 hw
      cases (hwaits w).symm.trans hw
    exact Inherit.isLeast_claims_iff.2
      ⟨.inl (hprio t), Nat.le_of_eq (hprio t), fun w hw => absurd hw (hnobody w)⟩
  · cases (hwaits t).symm.trans h
  · rintro ⟨⟩
  · rintro ⟨⟩
  · cases (huntimed t).symm.trans h

/-- **Every admissible run is taken to its end**, and keeps what `Good`
says. -/
theorem exists_run [Fintype T] (hs : Good idle s)
    (hes : kernel.Along (Event.Admissible idle) s es) :
    ∃ s', kernel.run s es = some s' ∧ Good idle s' := by
  refine Machine.exists_run_of_along (fun s e hs he => ?_) hs hes
  obtain ⟨s', hstep, hgood, -⟩ := exists_step hs he
  exact ⟨s', hstep, hgood⟩

theorem good_of_run [Fintype T] (hs : Good idle s)
    (hes : kernel.Along (Event.Admissible idle) s es) (hrun : kernel.run s es = some s') :
    Good idle s' :=
  Machine.inv_of_run (fun _ _ _ hs he hstep => (moves_of_step hs he hstep).1) hs hes hrun

/-- **What the kernel can get to** by admissible steps. -/
def Reachable (idle : T) (s : KState T O) : Prop :=
  ∃ es, kernel.Along (Event.Admissible idle) (krhinoStart idle) es ∧
    kernel.run (krhinoStart idle) es = some s

theorem Reachable.good [Fintype T] (hs : Reachable idle s) : Good idle s := by
  obtain ⟨es, hes, hrun⟩ := hs
  exact good_of_run good_krhinoStart hes hrun

theorem Reachable.step (hs : Reachable idle s) (he : e.Admissible idle s)
    (hstep : kernel.step s e = some s') : Reachable idle s' := by
  obtain ⟨es, hes, hrun⟩ := hs
  refine ⟨es ++ [e], (Machine.along_append_of_run hrun).2 ⟨hes, he, ?_⟩, ?_⟩
  · exact fun _ _ => Machine.along_nil _
  · rw [Machine.run_append_of_run hrun, Machine.run_cons_of_step hstep, Machine.run_nil]

/-- Four tasks, for the runs below. -/
inductive Crew where
  | idle
  | owner
  | link
  | urgent
  deriving DecidableEq

instance instFintypeCrew : Fintype Crew :=
  ⟨{.idle, .owner, .link, .urgent}, fun t => by cases t <;> decide⟩

/-- The owner takes a mutex and is suspended. The link takes another, and
waits at most 100 ticks for the first. A tick later the urgent task is
created. -/
def lineRun : List (Event Crew Bool) :=
  [.call (.taskCreate .owner 15 0 512 true), .coreSched, .call (.mutexCreate false),
    .call (.mutexCreate true), .call (.mutexLock false waitForever),
    .call (.taskSuspend .owner), .coreSched, .call (.taskCreate .link 20 0 512 true), .coreSched,
    .call (.mutexLock true waitForever), .call (.mutexLock false 100), .coreSched,
    .intrptEnter, .tickListUpdate, .timeSliceUpdate, .intrptExit,
    .call (.taskCreate .urgent 10 0 512 true)]

theorem admissible_lineRun :
    kernel.Along (Event.Admissible .idle) (krhinoStart .idle) lineRun := by
  decide +kernel

/-- Where that leads. -/
def lined : KState Crew Bool :=
  (kernel.run (krhinoStart .idle) lineRun).get (by decide +kernel)

theorem reachable_lined : Reachable .idle lined :=
  ⟨lineRun, admissible_lineRun, (Option.some_get _).symm⟩

/-! ### The lists and the locks -/

/-- **No admissible run of the kernel faults**, from its start on, and in the
end the queues hold exactly what the records say, in order, and the list of
mutexes linked from a task is of those it owns. -/
theorem run_keeps_lists [Fintype T] (idle : T) (es : List (Event T O))
    (hes : kernel.Along (Event.Admissible idle) (krhinoStart idle) es) :
    ∃ s', kernel.run (krhinoStart idle) es = some s' ∧ Lists s' ∧ Locks s'.mutexes s' := by
  obtain ⟨s', hrun, hgood⟩ := exists_run good_krhinoStart hes
  exact ⟨s', hrun, hgood.ok.sound.lists, hgood.ok.sound.locks⟩

/-- The urgent task sleeps for a tick. -/
def napRun : List (Event Crew Bool) :=
  [.coreSched, .call (.taskSleep 1), .coreSched, .intrptEnter, .tickListUpdate, .timeSliceUpdate,
    .intrptExit]

/-- It runs again, and the link still waits. -/
def rested : KState Crew Bool :=
  (kernel.run (krhinoStart .idle) (lineRun ++ napRun)).get (by decide +kernel)

theorem run_rested : kernel.run (krhinoStart .idle) (lineRun ++ napRun) = some rested :=
  (Option.some_get _).symm

/-- There the urgent task runs, and the link waits and has a time-out. -/
theorem rested_waits : rested.activeTask = .urgent ∧
    (rested.task .link).waitsFor = some false ∧ (rested.task .link).tickHead = true := by
  decide +kernel

theorem admissible_napRun :
    kernel.Along (Event.Admissible .idle) (krhinoStart .idle) (lineRun ++ napRun) := by
  decide +kernel

theorem run_keeps_lists_rested :
    (rested.activeTask = .urgent ∧ (rested.task .link).waitsFor = some false ∧
        (rested.task .link).tickHead = true) ∧
      kernel.run (krhinoStart .idle) (lineRun ++ napRun) = some rested ∧
      Lists rested ∧ Locks rested.mutexes rested := by
  obtain ⟨s', hrun, h⟩ := run_keeps_lists Crew.idle (lineRun ++ napRun) admissible_napRun
  rw [run_rested] at hrun
  rw [← Option.some.inj hrun] at h
  exact ⟨rested_waits, run_rested, h⟩

/-! ### Priority inheritance -/

omit [DecidableEq T] [DecidableEq O] in
/-- Who waits is alive. -/
theorem live_of_holder (h : s.holder w = some t) : (s.task w).Live := by
  obtain ⟨o, hw, -⟩ := holder_eq_some.1 h
  exact (KTask.waitsFor_eq_some.1 hw).1.live

/-- **Priority inheritance is exact.** In no reachable state is a task less
urgent than the base priority of one that waits for it, be it through a chain
of mutexes. And unless tasks wait for each other in a circle, some task of
the chain has just that priority for its base: none is raised without cause,
or stays raised. -/
theorem priority_inherited [Fintype T] (hs : Reachable idle s) (ht : (s.task t).Live) :
    (∀ w, Inherit.Chain s.holder w t → (s.task t).prio ≤ (s.task w).bPrio) ∧
      (WellFounded (fun w t => s.holder w = some t) →
        ∃ w, Inherit.Chain s.holder w t ∧ (s.task w).bPrio = (s.task t).prio) := by
  have hsettled := hs.good.ok.settled
  have hL : ∀ w t, s.holder w = some t → (s.task t).Live → (s.task w).Live := fun _ _ h _ =>
    live_of_holder h
  refine ⟨fun w hw => ?_, fun hwf => (Inherit.isLeast_chain hsettled hL hwf ht).1⟩
  have hlive : (s.task w).Live := by
    rcases Relation.ReflTransGen.cases_head hw with rfl | ⟨v, hv, -⟩
    · exact ht
    · exact live_of_holder hv
  exact (Inherit.le_of_chain hsettled hL ht hw).trans (hsettled w hlive).le_base

/-- The urgent task runs. -/
def urged : KState Crew Bool := (kernel.step lined .coreSched).get (by decide +kernel)

theorem step_urged : kernel.step lined .coreSched = some urged := (Option.some_get _).symm

/-- Its priority goes to the link, and on to the owner. -/
def lent : KStat × KState Crew Bool :=
  (Cmd.iterateFor taskPriChangeTurn 2 (.link, (urged.task urged.activeTask).prio) urged).get
    (by decide +kernel)

theorem iterateFor_lent :
    Cmd.iterateFor taskPriChangeTurn 2 (.link, (urged.task urged.activeTask).prio) urged =
      some lent :=
  (Option.some_get _).symm

/-- It waits for the link. -/
def linked : Unit × KState Crew Bool :=
  (pendToBlkObj true urged.activeTask waitForever lent.2).get (by decide +kernel)

theorem pendToBlkObj_linked :
    pendToBlkObj true urged.activeTask waitForever lent.2 = some linked :=
  (Option.some_get _).symm

/-- The urgent task waits for the link, and the link for the owner. -/
def chained : KState Crew Bool := linked.2

theorem step_chained :
    kernel.step urged (.call (.mutexLock true waitForever)) = some chained := by
  have hlevel : urged.intrptNestedLevel = 0 := by decide +kernel
  have hmutex : (urged.obj true).objType = .mutex := by decide +kernel
  have howner : (urged.obj true).mutexTask = some .link := by decide +kernel
  have hw : .link ≠ urged.activeTask := by decide +kernel
  have hunlocked : urged.schedLock = 0 := by decide +kernel
  have hlt : (urged.task urged.activeTask).prio < (urged.task .link).prio := by decide +kernel
  have hlock : (Call.mutexLock true waitForever).exec urged = some (.pend, linked.2) :=
    krhinoMutexLock_raises hlevel hmutex howner hw (by decide) hunlocked hlt iterateFor_lent
      pendToBlkObj_linked
  exact step_call hlock

theorem reachable_chained : Reachable .idle chained := by
  have hadm : (Event.call (.mutexLock true waitForever)).Admissible Crew.idle urged := by
    decide +kernel
  exact (reachable_lined.step (e := .coreSched) trivial step_urged).step hadm step_chained

/-- How far along the line a task is. -/
def Crew.rank : Crew → ℕ
  | .urgent => 0
  | .link => 1
  | .owner => 2
  | .idle => 3

theorem priority_inherited_chained :
    (chained.holder .urgent = some .link ∧ chained.holder .link = some .owner ∧
        (chained.task .owner).prio < (chained.task .owner).bPrio) ∧
      (∀ w, Inherit.Chain chained.holder w .owner →
        (chained.task .owner).prio ≤ (chained.task w).bPrio) ∧
      ∃ w, Inherit.Chain chained.holder w .owner ∧
        (chained.task w).bPrio = (chained.task .owner).prio := by
  have hrank : ∀ w t, chained.holder w = some t → w.rank < t.rank := by decide +kernel
  have hwf : WellFounded fun w t => chained.holder w = some t :=
    Subrelation.wf (fun h => hrank _ _ h) (measure Crew.rank).wf
  obtain ⟨hle, hleast⟩ := priority_inherited reachable_chained (t := .owner) (by decide +kernel)
  exact ⟨by decide +kernel, hle, hleast hwf⟩

/-! ### Who runs -/

/-- **The scheduler runs who it should.** Where `core_sched`, or the end of the
outermost interrupt, leaves the kernel outside of interrupts, a ready task
runs; and unless the scheduler is locked, no ready task is more urgent. -/
theorem sched_runs_preferred [Fintype T] (hs : Reachable idle s)
    (he : e = .coreSched ∨ e = .intrptExit) (hadm : e.Admissible idle s)
    (hstep : kernel.step s e = some s') (hlevel : s'.intrptNestedLevel = 0) :
    (s'.task s'.activeTask).taskState = .rdy ∧
      (s'.schedLock = 0 → s'.Preferred s'.activeTask) := by
  obtain ⟨hgood, hmoves⟩ := moves_of_step hs.good hadm hstep
  have hpreferred : s'.schedLock = 0 → s'.Preferred s'.activeTask := by
    intro hlock
    rcases he with rfl | rfl
    · obtain ⟨t, rfl, ht⟩ := hmoves
      rw [if_pos ⟨hlevel, hlock⟩] at ht
      exact ⟨ht.rdy, ht.le⟩
    · obtain ⟨t, rfl, ht⟩ := hmoves
      rw [if_pos ⟨hlevel, hlock⟩] at ht
      exact ⟨ht.rdy, ht.le⟩
  refine ⟨?_, hpreferred⟩
  rcases Nat.eq_zero_or_pos s'.schedLock with hzero | hpos
  · exact (hpreferred hzero).rdy
  · exact hgood.locked hpos

theorem sched_runs_preferred_urged :
    (urged.activeTask ≠ lined.activeTask ∧ urged.schedLock = 0) ∧
      (urged.task urged.activeTask).taskState = .rdy ∧
      (urged.schedLock = 0 → urged.Preferred urged.activeTask) :=
  ⟨by decide +kernel, sched_runs_preferred reachable_lined (e := .coreSched) (.inl rfl) trivial
    step_urged (by decide +kernel)⟩

/-- A step that does not unlock the scheduler leaves it locked, and leaves who
runs. -/
theorem step_locked [Fintype T] (hs : Good idle s) (he : e.Admissible idle s)
    (hne : e ≠ .call .schedEnable) (hlock : 0 < s.schedLock) (hstep : kernel.step s e = some s') :
    0 < s'.schedLock ∧ s'.activeTask = s.activeTask := by
  have hmoves := (moves_of_step hs he hstep).2
  cases e with
  | call c =>
    obtain ⟨r, -, hmoves⟩ := hmoves
    by_cases hc : c.IsSched
    · cases c with
      | schedDisable =>
        rcases hmoves with rfl | ⟨-, rfl⟩
        · exact ⟨hlock, rfl⟩
        · exact ⟨Nat.succ_pos _, rfl⟩
      | schedEnable => exact absurd rfl hne
      | _ => exact absurd hc id
    · have hmoved := hmoves.moved hc
      rw [hmoved.schedLock]
      exact ⟨hlock, hmoved.activeTask⟩
  | intrptEnter =>
    rw [show s' = _ from hmoves]
    exact ⟨hlock, rfl⟩
  | intrptExit =>
    obtain ⟨t, rfl, ht⟩ := hmoves
    rw [if_neg (by omega)] at ht
    exact ⟨hlock, ht⟩
  | tickListUpdate =>
    have hticked : Ticked idle s s' := hmoves
    rw [hticked.schedLock]
    exact ⟨hlock, hticked.activeTask⟩
  | timeSliceUpdate =>
    have hsliced : Sliced idle s s' := hmoves
    rw [hsliced.schedLock]
    exact ⟨hlock, hsliced.activeTask⟩
  | coreSched =>
    obtain ⟨t, rfl, ht⟩ := hmoves
    rw [if_neg (by omega)] at ht
    exact ⟨hlock, ht⟩

/-- **A locked scheduler keeps its task running.** Whatever interrupts and
ticks do, up to the next `krhino_sched_enable` the same task runs, and it is
ready. -/
theorem sched_lock_holds [Fintype T] (hs : Reachable idle s) (hlock : 0 < s.schedLock)
    (hes : kernel.Along (Event.Admissible idle) s es) (hne : .call .schedEnable ∉ es)
    (hrun : kernel.run s es = some s') :
    s'.activeTask = s.activeTask ∧ (s'.task s'.activeTask).taskState = .rdy := by
  have hgood := good_of_run hs.good hes hrun
  have hkept : 0 < s'.schedLock ∧ s'.activeTask = s.activeTask := by
    have hdis : kernel.Along (fun _ e => e ≠ .call .schedEnable) s es :=
      Machine.along_of_forall_mem fun e he _ h => hne (h ▸ he)
    refine (Machine.inv_of_run (I := fun s₁ => Good idle s₁ ∧ 0 < s₁.schedLock ∧
      s₁.activeTask = s.activeTask) ?_ ⟨hs.good, hlock, rfl⟩ (hes.and hdis) hrun).2
    rintro s₁ e s₂ ⟨hgood₁, hlock₁, hactive⟩ ⟨he, hne⟩ hstep
    obtain ⟨hlock₂, hactive₂⟩ := step_locked hgood₁ he hne hlock₁ hstep
    exact ⟨(moves_of_step hgood₁ he hstep).1, hlock₂, hactive₂.trans hactive⟩
  exact ⟨hkept.2, hgood.locked hkept.1⟩

/-- The urgent task sleeps for a tick, and the task that runs meanwhile locks
the scheduler. -/
def lockRun : List (Event Crew Bool) :=
  [.call (.taskCreate .urgent 10 0 512 true), .coreSched,
    .call (.taskCreate .owner 15 0 512 true), .call (.taskSleep 1), .coreSched,
    .call .schedDisable]

/-- Where that leads. -/
def schedLocked : KState Crew Bool :=
  (kernel.run (krhinoStart .idle) lockRun).get (by decide +kernel)

theorem reachable_schedLocked : Reachable .idle schedLocked :=
  ⟨lockRun, by decide +kernel, (Option.some_get _).symm⟩

/-- The tick that ends the sleep. -/
def wakeRun : List (Event Crew Bool) :=
  [.intrptEnter, .tickListUpdate, .timeSliceUpdate, .intrptExit, .coreSched]

/-- Where it leads. -/
def woken : KState Crew Bool := (kernel.run schedLocked wakeRun).get (by decide +kernel)

theorem run_woken : kernel.run schedLocked wakeRun = some woken := (Option.some_get _).symm

theorem sched_lock_holds_woken :
    ((woken.task .urgent).taskState = .rdy ∧
        (woken.task .urgent).prio < (woken.task woken.activeTask).prio) ∧
      woken.activeTask = schedLocked.activeTask ∧
        (woken.task woken.activeTask).taskState = .rdy := by
  have hadm : kernel.Along (Event.Admissible .idle) schedLocked wakeRun := by decide +kernel
  have hne : Event.call .schedEnable ∉ wakeRun := by simp [wakeRun]
  exact ⟨by decide +kernel,
    sched_lock_holds reachable_schedLocked (by decide +kernel) hadm hne run_woken⟩

end Hgsdk.Rhino

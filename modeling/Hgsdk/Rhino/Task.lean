import Hgsdk.Rhino.Sem
/-!
# Tasks

The calls of `k_task.c` and the scheduler keep what the kernel keeps.
-/

namespace Hgsdk.Rhino

variable {T O : Type} [DecidableEq T] [DecidableEq O]
variable {s s' : KState T O} {q : Queues T O} {idle t u w : T} {o : O} {x : KTask O} {m : KObj T}
variable {p : ℕ}

/-! ### Priorities -/

omit [DecidableEq T] [DecidableEq O] in
/-- Nobody waits for the idle task. -/
theorem Sound.holder_ne_idle (hs : Sound idle s.mutexes s) : s.holder u ≠ some idle := by
  intro hu
  obtain ⟨o, -, ho, howner⟩ := holder_eq_some.1 hu
  exact hs.static.owner_ne ho howner rfl

omit [DecidableEq T] [DecidableEq O] in
theorem Ok.prio_idle (hs : Ok idle s) : (s.task idle).prio = idlePri := by
  have hlive : (s.task idle).Live := by simp [KTask.Live, hs.sound.idle_rdy]
  rcases (Inherit.isLeast_claims_iff.1 (hs.settled idle hlive)).1 with hbase | ⟨w, hw, -⟩
  · exact hbase.trans hs.sound.idle_base
  · exact absurd hw hs.sound.holder_ne_idle

omit [DecidableEq T] [DecidableEq O] in
theorem Ok.ne_idle (hs : Ok idle s) (ht : (s.task t).prio ≠ idlePri) : t ≠ idle := by
  rintro rfl
  exact ht hs.prio_idle

/-! ### A task that changes its own state -/

omit [DecidableEq T] [DecidableEq O] in
/-- A task that is not alive is in no queue. -/
theorem Sound.not_live (hs : Sound idle s.mutexes s) (ht : ¬ (s.task t).Live) :
    (s.task t).readyAt = none ∧ (s.task t).waitsFor = none ∧ (s.task t).tickHead = false ∧
      ∀ o, (s.obj o).objType = .mutex → (s.obj o).mutexTask ≠ some t := by
  refine ⟨KTask.readyAt_of_ne fun h => ht ?_, KTask.waitsFor_of_not_pending fun h => ht h.live,
    eq_false_of_ne_true fun h => ht ?_, fun o ho howner => ht (hs.locks.owner_live o t ho howner)⟩
  · simp [KTask.Live, h]
  · rcases (hs.fine t).timed h with h | h | h
    · exact h.live
    · simp [KTask.Live, h]
    · simp [KTask.Live, h]

omit [DecidableEq O] in
/-- **A task is created.** -/
theorem Ok.create (hs : Ok idle s) (ht : ¬ (s.task t).Live) (hti : t ≠ idle)
    (hl : Lists ((s.setQueues q).setTask t x)) (hfine : x.Fine)
    (hwaits : x.waitsFor = none) (htick : x.tickHead = false) (hmutex : x.mutexList = [])
    (hprio : x.prio = x.bPrio) (hbase : x.bPrio < idlePri) :
    Ok idle ((s.setQueues q).setTask t x) := by
  obtain ⟨-, hwait, -, hunowned⟩ := hs.sound.not_live ht
  have hidle : ∀ {β : Type} (f : KTask O → β),
      f (((s.setQueues q).setTask t x).task idle) = f (s.task idle) := by
    intro β f
    rw [KState.setTask_task, Function.update_of_ne (Ne.symm hti)]
    rfl
  have hlives : ∀ u, u ≠ t → ((((s.setQueues q).setTask t x).task u).Live ↔ (s.task u).Live) := by
    intro u hut
    rw [KState.setTask_task, Function.update_of_ne hut]
    exact Iff.rfl
  refine ⟨⟨hl, ⟨fun u o hu => ?_, fun u hu => ?_, fun o u ho hu => ?_, fun u o => ?_,
    hs.sound.locks.policy⟩, forall_setTask (P := fun _ y => y.Fine) hs.sound.fine hfine,
    (hidle _).trans hs.sound.idle_rdy, (hidle _).trans hs.sound.idle_free,
    (hidle _).trans hs.sound.idle_base, ?_⟩, fun u hu => ?_, hs.waits.setTask hwaits, hs.objs,
    hs.ahead.setTask fun h => ?_⟩
  · rw [mutexes_update, hmutex]
    by_cases hut : u = t
    · rw [hut, Function.update_self]
      exact iff_of_false List.not_mem_nil fun h => hunowned o h.1 h.2
    · rw [Function.update_of_ne hut]
      exact hs.sound.locks.held_iff u o ((hlives u hut).1 hu)
  · rw [mutexes_update, hmutex]
    by_cases hut : u = t
    · rw [hut, Function.update_self]
      exact List.nodup_nil
    · rw [Function.update_of_ne hut]
      exact hs.sound.locks.nodup u ((hlives u hut).1 hu)
  · have hut : u ≠ t := by
      rintro rfl
      exact hunowned o ho hu
    exact (hlives u hut).2 (hs.sound.locks.owner_live o u ho hu)
  · refine forall_setTask (P := fun u y => y.waitsFor = some o → (s.obj o).objType = .mutex →
      ∃ v, (s.obj o).mutexTask = some v ∧ v ≠ u) (fun u => hs.sound.locks.owned u o) ?_ u
    intro h
    cases hwaits.symm.trans h
  · exact forall_setTask (P := fun u y => y.Live → u ≠ idle → y.bPrio < idlePri) hs.sound.base_lt
      fun _ _ => hbase
  · have hholder : ((s.setQueues q).setTask t x).holder = s.holder := by
      refine holder_congr (fun v => ?_) fun _ _ => Iff.rfl
      exact view_setTask KTask.waitsFor (hwaits.trans hwait.symm) v
    rw [hholder]
    by_cases hut : u = t
    · -- nobody waits for it, so it is at its own priority
      rw [hut]
      refine Inherit.isLeast_claims_iff.2 ⟨.inl ?_, Nat.le_of_eq ?_, fun w hw => ?_⟩
      · simpa using hprio
      · simpa using hprio
      · exact absurd hw (holder_ne_of_unowned hunowned)
    · refine KState.Settled.setTask (hs.settled u ((hlives u hut).1 hu)) hut ?_
      rw [KState.holder, hwait]
      rfl
  · cases htick.symm.trans h

omit [DecidableEq O] in
/-- **`task_create`**, of a task that is not alive. -/
theorem ensures_krhinoTaskCreate (hs : Ok idle s) (ht : ¬ (s.task t).Live) (hti : t ≠ idle)
    (prio : ℕ) (ticks : BitVec 64) (stackSize : BitVec 32) (autorun : Bool) :
    Ensures (krhinoTaskCreate t prio ticks stackSize autorun) s fun _ s' =>
      Ok idle s' ∧ s.Frame s' ∧ s'.obj = s.obj := by
  obtain ⟨hready, hwait, htimed, -⟩ := hs.sound.not_live ht
  have hframe : ∀ q x, x.Free → s.Frame ((s.setQueues q).setTask t x) := fun q x hx =>
    .setTask s q (.of_not_live ht) (.inr fun _ => hx)
      fun _ _ hrdy => absurd (by simp [KTask.Live, hrdy]) ht
  rw [krhinoTaskCreate]
  split
  · exact ensures_pure.2 ⟨hs, .refl s, rfl⟩
  split
  · exact ensures_pure.2 ⟨hs, .refl s, rfl⟩
  rename_i hmax
  refine ensures_notByIntrpt ⟨hs, .refl s, rfl⟩ fun _ => ?_
  split
  · exact ensures_pure.2 ⟨hs, .refl s, rfl⟩
  rename_i hidle
  have hprio : prio < priMax := Nat.not_le.1 hmax
  have hbase : prio < idlePri := by
    unfold priMax at hprio
    unfold idlePri at hidle ⊢
    omega
  have hfine : (KTask.created prio ticks autorun : KTask O).Fine := by
    refine ⟨?_, ?_, ?_, fun _ => ?_, hprio⟩
    all_goals
      cases autorun <;>
        simp [KTask.created, KTask.Pending, KTask.Asleep, KTask.Suspended]
  have hwaits : (KTask.created prio ticks autorun : KTask O).waitsFor = none := by
    cases autorun <;> rfl
  have hfree : (KTask.created prio ticks autorun : KTask O).Free :=
    ⟨hwaits, by cases autorun <;> simp [KTask.created, KTask.Asleep]⟩
  -- wherever the task goes, the other lists do not know it
  have hok : ∀ q : Queues T O, q.blkList = s.queues.blkList → q.tickHead = s.queues.tickHead →
      q.Holds (Function.update (KTask.readyAt ∘ s.task) t
        (KTask.created prio ticks autorun : KTask O).readyAt) (KTask.waitsFor ∘ s.task)
        (KTask.tickHead ∘ s.task) →
      Ok idle ((s.setQueues q).setTask t (.created prio ticks autorun)) := by
    intro q hblk htick hq
    refine hs.create ht hti (hs.sound.lists.setTask ?_ hprio (fun o ho => ?_) ?_) hfine hwaits
      rfl rfl rfl hbase
    · rw [update_view (hwaits.trans hwait.symm), update_view (f := KTask.tickHead) htimed.symm]
      exact hq
    · rw [hblk]
      refine pairwise_setTask KTask.prio (hs.sound.lists.sorted o ho) (.inr fun hmem => ?_)
      cases hwait.symm.trans (hs.sound.lists.mem_blkList.1 hmem)
    · refine hs.sound.lists.due.setTask (.inr fun hmem => ?_) (by rw [htick])
      cases htimed.symm.trans ((hs.sound.lists.holds.mem_tick t).1 hmem)
  rw [ensures_bind, ensures_modifyTask]
  cases autorun with
  | true =>
    rw [if_pos rfl]
    refine (ensures_readyListAddTail (s := s.setTask t _) hs.sound.lists.holds hready ?_).bind ?_
    · rw [KState.setTask_task, Function.update_self]
      exact hprio
    · rintro - s' ⟨rq, rfl, hq⟩
      rw [KState.setTask_task, Function.update_self] at hq
      exact ensures_pure.2 ⟨hok _ rfl rfl hq, hframe _ _ hfree, rfl⟩
  | false =>
    rw [if_neg Bool.false_ne_true, ensures_pure]
    refine ⟨hok s.queues rfl rfl ?_, hframe s.queues _ hfree, rfl⟩
    rw [show (KTask.created prio ticks false : KTask O).readyAt = _ from hready.symm,
      update_view rfl]
    exact hs.sound.lists.holds

/-! ### Sleeping and yielding -/

/-- The record of a task that goes to sleep. -/
def KTask.sleeping (x : KTask O) (now ticks : BitVec 64) : KTask O :=
  { x with
    taskState := .sleep, tickMatch := now + ticks, tickRemain := ticks, tickHead := true }

omit [DecidableEq O] in
theorem KTask.fine_sleeping {now ticks : BitVec 64} (hx : x.taskState = .rdy) (h : x.Fine) :
    (x.sleeping now ticks).Fine := by
  have hcount := h.suspended_iff (by simp [Live, hx])
  refine ⟨?_, fun _ => .inr (.inl rfl), fun _ => rfl, fun _ => ?_, h.base_lt⟩
  all_goals simp_all [sleeping, Pending, Suspended]

omit [DecidableEq O] in
/-- **`krhino_task_sleep`.** -/
theorem ensures_krhinoTaskSleep (hs : Ok idle s)
    (hrun : s.intrptNestedLevel = 0 → Running idle s) (ticks : BitVec 64) :
    Ensures (krhinoTaskSleep ticks) s fun r s' => Ok idle s' ∧ s.Frame s' ∧ s'.obj = s.obj ∧
      (r = .pend → ticks ≠ 0 ∧ (s'.task s.activeTask).Asleep ∧
        (s'.task s.activeTask).tickMatch = s.tickCount + ticks) := by
  have hrefused : ∀ stat, Ok idle s ∧ s.Frame s ∧ s.obj = s.obj ∧ (Ret.exit stat = .pend →
      ticks ≠ 0 ∧ (s.task s.activeTask).Asleep ∧
        (s.task s.activeTask).tickMatch = s.tickCount + ticks) := by
    refine fun stat => ⟨hs, .refl s, rfl, ?_⟩
    rintro ⟨⟩
  rw [krhinoTaskSleep]
  split
  · exact ensures_pure.2 (hrefused _)
  rename_i hticks
  refine ensures_notByIntrpt (hrefused _) fun hlevel => ?_
  have hrun := hrun hlevel
  rw [ensures_bind, ensures_get]
  split
  · exact ensures_pure.2 (hrefused _)
  rename_i hlock
  have hpos : 0 < ticks := (BitVec.pos_iff_ne_zero ticks).2 hticks
  have hlists := hs.sound.lists
  have hrdy := hrun.rdy
  have hfine := hs.sound.fine s.activeTask
  have huntimed := hfine.untimed hrdy
  have hnot : s.activeTask ∉ s.queues.tickHead := by
    rw [hlists.holds.mem_tick]
    exact ne_true_of_eq_false huntimed
  have hwaits : (s.task s.activeTask).waitsFor = none :=
    KTask.waitsFor_of_not_pending (KTask.not_pending_of_rdy hrdy)
  have hready : (KTask.readyAt ∘ s.task) s.activeTask = some (s.task s.activeTask).prio :=
    KTask.readyAt_of_rdy hrdy
  rw [ensures_bind, ensures_modifyTask]
  refine (ensures_tickListInsert (s := s.setTask s.activeTask _) hnot hpos).bind ?_
  rintro - s₁ ⟨stop, hstop, rfl⟩
  simp only [KState.setTask_setTask, KState.setTask_setQueues, KState.setTask_task,
    Function.update_self]
  refine (ensures_readyListRm (u := idle) (p := (s.task idle).prio)
    (s := (s.setQueues { s.queues with
      tickHead := insertBefore stop s.activeTask s.queues.tickHead }).setTask s.activeTask
        ((s.task s.activeTask).sleeping s.tickCount ticks))
    (hlists.holds.tickInsert huntimed stop) ?_ (KTask.readyAt_of_rdy hs.sound.idle_rdy)
    (Ne.symm hrun.ne_idle)).bind ?_
  · rw [KState.setTask_task, Function.update_self]
    exact hready
  · rintro - s₂ ⟨rq, rfl, hq⟩
    have hsleep : ((s.task s.activeTask).sleeping s.tickCount ticks).waitsFor =
        (s.task s.activeTask).waitsFor :=
      (KTask.waitsFor_of_not_pending (by simp [KTask.sleeping, KTask.Pending])).trans hwaits.symm
    have hremain : ((s.task s.activeTask).sleeping s.tickCount ticks).remain s.tickCount =
        ticks.toNat := KTask.remain_of_tickMatch rfl
    have hlive : ((s.task s.activeTask).sleeping s.tickCount ticks).Live := by
      simp [KTask.sleeping, KTask.Live]
    refine ensures_pure.2 ⟨hs.setTask ?_ ⟨hlive, ?_, rfl, rfl, rfl⟩
      (KTask.fine_sleeping hrdy hfine) (fun h => absurd h hrun.ne_idle) (fun _ => ?_)
      (.inl hsleep), .setTask s _ (.of_rdy hrdy hlive rfl) (.inl ⟨rfl, hlevel⟩)
        fun _ hpos => absurd hpos hlock, rfl,
      fun _ => ⟨hticks, ?_⟩⟩
    · refine hlists.setTask_of_prio_eq ?_ rfl hlists.sorted
        (hlists.due.insert hnot (fun v hv => ?_) rfl)
      · rw [update_view (f := KTask.waitsFor) hsleep]
        exact hq
      · have hv' : v ≠ s.activeTask := by
          rintro rfl
          exact hnot hv
        rw [hstop v hv, hremain, KState.setTask_task, Function.update_of_ne hv']
        rfl
    · simp [KTask.Live, hrdy]
    · rw [hremain]
      exact BitVec.lt_def.1 hpos
    · rw [KState.setQueues_task, KState.setTask_task, Function.update_self]
      exact ⟨.inl rfl, rfl⟩

omit [DecidableEq T] [DecidableEq O] in
/-- Another order among the ready tasks. -/
theorem Ok.setReady {rq : RunQueue T} (hs : Ok idle s)
    (hrq : rq.Holds (KTask.readyAt ∘ s.task)) :
    Ok idle (s.setQueues { s.queues with readyQueue := rq }) where
  sound := ⟨⟨hs.sound.lists.holds.withReady hrq, hs.sound.lists.sorted, hs.sound.lists.due,
    hs.sound.lists.prio_lt⟩, hs.sound.locks.congr (fun _ => Iff.rfl) (fun _ _ h _ => .inl h) rfl,
    hs.sound.fine, hs.sound.idle_rdy, hs.sound.idle_free, hs.sound.idle_base, hs.sound.base_lt⟩
  settled := hs.settled
  waits := hs.waits
  objs := hs.objs
  ahead := hs.ahead

omit [DecidableEq T] [DecidableEq O] in
theorem Ok.ensures_readyListHeadToTail (hs : Ok idle s)
    (ht : s.queues.readyQueue.curListItem (s.task t).prio ≠ []) :
    Ensures (readyListHeadToTail t) s fun _ s' => Ok idle s' ∧ s.Frame s' ∧
      s'.task = s.task ∧ s'.obj = s.obj := by
  rw [readyListHeadToTail, ensures_bind, ensures_get, ensures_bind, ensures_deref]
  cases hlist : s.queues.readyQueue.curListItem (s.task t).prio with
  | nil => exact absurd hlist ht
  | cons v l =>
    have hrq : s.queues.readyQueue.readyListHeadToTail (s.task t).prio =
      some { s.queues.readyQueue with
        curListItem := Function.update s.queues.readyQueue.curListItem
          (s.task t).prio (l ++ [v]) } := by
      rw [RunQueue.readyListHeadToTail, hlist]
    refine ⟨_, hrq, ensures_set.2 ⟨hs.setReady (hs.sound.lists.holds.ready.readyListHeadToTail hrq),
      ⟨rfl, rfl, rfl, rfl, fun _ => .refl _, fun _ => .inr, fun _ => id⟩, rfl, rfl⟩⟩

omit [DecidableEq T] [DecidableEq O] in
/-- **`krhino_task_yield`.** -/
theorem ensures_krhinoTaskYield (hs : Ok idle s)
    (hrun : (s.task s.activeTask).taskState = .rdy) :
    Ensures (krhinoTaskYield) s fun _ s' => Ok idle s' ∧ s.Frame s' ∧ s'.obj = s.obj := by
  rw [krhinoTaskYield, ensures_bind, ensures_get]
  refine (hs.ensures_readyListHeadToTail ?_).bind ?_
  · have hmem := (hs.sound.lists.holds.ready.mem _ _).2 (KTask.readyAt_of_rdy hrun)
    exact List.ne_nil_of_mem hmem
  · rintro - s' ⟨hok, hframe, -, hobj⟩
    exact ensures_pure.2 ⟨hok, hframe, hobj⟩

/-! ### Suspending and resuming -/

omit [DecidableEq O] in
/-- A record that no queue sees, of a task that sleeps on if it slept. -/
theorem Ok.setTask_of_views (hs : Ok idle s) (hx : x.Keeps (s.task t)) (hfine : x.Fine)
    (hready : x.readyAt = (s.task t).readyAt) (hwaits : x.waitsFor = (s.task t).waitsFor)
    (htick : x.tickHead = (s.task t).tickHead) (hmatch : x.tickMatch = (s.task t).tickMatch) :
    Ok idle ((s.setQueues s.queues).setTask t x) := by
  refine hs.setTask (hs.sound.lists.setTask_of_views hready hwaits htick hx.prio hmatch) hx hfine
    ?_ ?_ (.inl hwaits)
  · rintro rfl
    have hready' := hready.trans (KTask.readyAt_of_rdy hs.sound.idle_rdy)
    exact (KTask.readyAt_eq_some.1 hready').1
  · intro htrue
    unfold KTask.remain
    rw [hmatch]
    exact hs.ahead t (htick.symm.trans htrue)

omit [DecidableEq O] in
/-- A record marked as one that waits for the same. -/
theorem KTask.Fine.marked {st : TaskStat} {count : BitVec 8} (h : x.Fine)
    (hpend : (x.marked st count).Pending ↔ x.Pending)
    (hasleep : (x.marked st count).Asleep ↔ x.Asleep)
    (hcount : (x.marked st count).Suspended ↔ count ≠ 0) : (x.marked st count).Fine :=
  ⟨fun hp => h.pend_obj (hpend.1 hp), fun ht => (h.timed ht).imp hpend.2 hasleep.2,
    fun ha => h.asleep (hasleep.1 ha), fun _ => hcount, h.base_lt⟩

omit [DecidableEq O] in
/-- A task that waits for a tick or an object is marked suspended, or no
longer so. -/
theorem Ok.marked (hs : Ok idle s) (st : TaskStat) (count : BitVec 8)
    (hlive : (s.task t).Live) (hrdy : (s.task t).taskState ≠ .rdy) (hst : st ≠ .rdy)
    (hpend : ((s.task t).marked st count).Pending ↔ (s.task t).Pending)
    (hasleep : ((s.task t).marked st count).Asleep ↔ (s.task t).Asleep)
    (hcount : ((s.task t).marked st count).Suspended ↔ count ≠ 0)
    (hmarked : ((s.task t).marked st count).Live) :
    Ok idle (s.setTask t ((s.task t).marked st count)) ∧
      s.Frame (s.setTask t ((s.task t).marked st count)) := by
  have hwaits : ((s.task t).marked st count).waitsFor = (s.task t).waitsFor := by
    unfold KTask.waitsFor
    simp only [hpend]
    rfl
  refine ⟨hs.setTask_of_views ⟨hmarked, hlive, rfl, rfl, rfl⟩
    ((hs.sound.fine t).marked hpend hasleep hcount) ?_ hwaits rfl rfl,
    .setTask s s.queues ⟨fun h => ⟨hasleep.2 h, rfl⟩, fun o ho => hwaits.trans ho,
      fun _ => ⟨hmarked, rfl⟩⟩
      (.inr fun h => ⟨hwaits.trans h.waitsFor, fun ha => h.awake (hasleep.1 ha)⟩)
      fun _ _ h => absurd h hrdy⟩
  rw [KTask.readyAt_of_ne hrdy, KTask.readyAt_of_ne hst]

omit [DecidableEq O] in
/-- A ready task is suspended. -/
theorem Ok.ensures_suspend_rdy (hs : Ok idle s) (ht : (s.task t).taskState = .rdy) (hti : t ≠ idle)
    (hlock : ¬ (t = s.activeTask ∧ 0 < s.schedLock)) :
    Ensures (readyListRm t) (s.setTask t ((s.task t).marked .suspended 1)) fun _ s' =>
      Ok idle s' ∧ s.Frame s' ∧ s'.obj = s.obj := by
  have hlists := hs.sound.lists
  have hready : (KTask.readyAt ∘ s.task) t = some (s.task t).prio := KTask.readyAt_of_rdy ht
  have hwaits : ((s.task t).marked .suspended 1).waitsFor = (s.task t).waitsFor := by
    rw [KTask.waitsFor_of_not_pending (KTask.not_pending_of_rdy ht),
      KTask.waitsFor_of_not_pending (by simp [KTask.Pending, KTask.marked])]
  refine (ensures_readyListRm (u := idle) (p := (s.task idle).prio) (s := s.setTask t _)
    hlists.holds ?_ (KTask.readyAt_of_rdy hs.sound.idle_rdy) (Ne.symm hti)).mono ?_
  · rw [KState.setTask_task, Function.update_self]
    exact hready
  · rintro - s' ⟨rq, rfl, hq⟩
    have huntimed := (hs.sound.fine t).untimed ht
    have hlive : ((s.task t).marked .suspended 1).Live := by simp [KTask.Live, KTask.marked]
    refine ⟨hs.setTask ?_ ⟨hlive, by simp [KTask.Live, ht], rfl, rfl, rfl⟩
      ((hs.sound.fine t).marked ?_ ?_ ?_) (fun h => absurd h hti) (fun h => ?_) (.inl hwaits),
      .setTask s _ (.of_rdy ht hlive rfl)
        (.inr fun h => ⟨hwaits.trans h.waitsFor, by simp [KTask.Asleep, KTask.marked]⟩)
        fun hact hpos => absurd ⟨hact, hpos⟩ hlock, rfl⟩
    · refine hlists.setTask_of_prio_eq ?_ rfl hlists.sorted
        (hlists.due.setTask (.inl rfl) (List.Sublist.refl _))
      rw [update_view hwaits, update_view (f := KTask.tickHead)
        (x := (s.task t).marked .suspended 1) rfl]
      exact hq
    · simp [KTask.Pending, KTask.marked, ht]
    · simp [KTask.Asleep, KTask.marked, ht]
    · simp [KTask.Suspended, KTask.marked]
    · cases huntimed.symm.trans h

omit [DecidableEq O] in
/-- **`krhino_task_suspend`.** -/
theorem ensures_krhinoTaskSuspend (hs : Ok idle s) :
    Ensures (krhinoTaskSuspend t) s fun _ s' => Ok idle s' ∧ s.Frame s' ∧ s'.obj = s.obj := by
  rw [krhinoTaskSuspend, ensures_bind, ensures_get]
  split
  · exact ensures_pure.2 ⟨hs, .refl s, rfl⟩
  rename_i hprio
  have hti := hs.ne_idle hprio
  rw [taskSuspend, ensures_bind, ensures_get]
  split
  · exact ensures_pure.2 ⟨hs, .refl s, rfl⟩
  rename_i hlock
  -- one more suspend of a task that is suspended
  have hmore : ∀ st, (s.task t).taskState = st →
      (st = .suspended ∨ st = .sleepSuspended ∨ st = .pendSuspended) →
      Ensures (if (s.task t).suspendCount = -1 then return .exit .suspendedCountOvf
        else do
          modifyTask t fun t => t.marked t.taskState (t.suspendCount + 1)
          return Ret.sched .success) s fun _ s' => Ok idle s' ∧ s.Frame s' ∧ s'.obj = s.obj := by
    intro st hst hsus
    split
    · exact ensures_pure.2 ⟨hs, .refl s, rfl⟩
    rename_i hovf
    rw [ensures_bind, ensures_modifyTask, ensures_pure]
    have hlive : (s.task t).Live := by
      rcases hsus with rfl | rfl | rfl <;> simp [KTask.Live, hst]
    have hne : (s.task t).taskState ≠ .rdy := by
      rcases hsus with rfl | rfl | rfl <;> simp [hst]
    have hsuspended : (s.task t).Suspended := by
      rcases hsus with rfl | rfl | rfl <;> simp [KTask.Suspended, hst]
    have hnonzero : (s.task t).suspendCount + 1 ≠ 0 := by
      intro h
      exact hovf (by bv_omega)
    obtain ⟨hok, hframe⟩ := hs.marked (s.task t).taskState ((s.task t).suspendCount + 1) hlive
      hne hne Iff.rfl Iff.rfl (iff_of_true hsuspended hnonzero) hlive
    exact ⟨hok, hframe, rfl⟩
  cases hst : (s.task t).taskState with
  | rdy =>
    simp only
    rw [ensures_bind, ensures_modifyTask]
    refine (hs.ensures_suspend_rdy hst hti hlock).bind ?_
    rintro - s' hs'
    exact ensures_pure.2 hs'
  | sleep =>
    simp only
    rw [ensures_bind, ensures_modifyTask, ensures_pure]
    obtain ⟨hok, hframe⟩ := hs.marked (t := t) .sleepSuspended 1
      (by simp [KTask.Live, hst]) (by simp [hst]) (by simp)
      (by simp [KTask.Pending, KTask.marked, hst])
      (by simp [KTask.Asleep, KTask.marked, hst]) (by simp [KTask.Suspended, KTask.marked])
      (by simp [KTask.Live, KTask.marked])
    exact ⟨hok, hframe, rfl⟩
  | pend =>
    simp only
    rw [ensures_bind, ensures_modifyTask, ensures_pure]
    obtain ⟨hok, hframe⟩ := hs.marked (t := t) .pendSuspended 1
      (by simp [KTask.Live, hst]) (by simp [hst]) (by simp)
      (by simp [KTask.Pending, KTask.marked, hst])
      (by simp [KTask.Asleep, KTask.marked, hst]) (by simp [KTask.Suspended, KTask.marked])
      (by simp [KTask.Live, KTask.marked])
    exact ⟨hok, hframe, rfl⟩
  | suspended => exact hmore _ hst (.inl rfl)
  | sleepSuspended => exact hmore _ hst (.inr (.inl rfl))
  | pendSuspended => exact hmore _ hst (.inr (.inr rfl))
  | seed => exact ensures_pure.2 ⟨hs, .refl s, rfl⟩
  | deleted => exact ensures_pure.2 ⟨hs, .refl s, rfl⟩

omit [DecidableEq O] in
/-- The last resume of a task that waits for nothing else. -/
theorem Ok.ensures_resume (hs : Ok idle s) (ht : (s.task t).taskState = .suspended) :
    Ensures (readyListAdd t) (s.setTask t ((s.task t).marked .rdy 0)) fun _ s' =>
      Ok idle s' ∧ s.Frame s' ∧ s'.obj = s.obj := by
  have hlists := hs.sound.lists
  have hready : (KTask.readyAt ∘ s.task) t = none := KTask.readyAt_of_ne (by simp [ht])
  have hwaits : ((s.task t).marked .rdy 0).waitsFor = (s.task t).waitsFor := by
    rw [KTask.waitsFor_of_not_pending (by simp [KTask.Pending, KTask.marked]),
      KTask.waitsFor_of_not_pending (by simp [KTask.Pending, ht])]
  refine (ensures_readyListAdd (s := s.setTask t _) hlists.holds hready ?_).mono ?_
  · rw [KState.setTask_task, Function.update_self]
    exact hlists.prio_lt t
  · rintro - s' ⟨rq, rfl, hq⟩
    rw [KState.setTask_task, Function.update_self] at hq
    have hlive : ((s.task t).marked .rdy 0).Live := by simp [KTask.Live, KTask.marked]
    refine ⟨hs.setTask ?_ ⟨hlive, by simp [KTask.Live, ht], rfl, rfl, rfl⟩
      ((hs.sound.fine t).marked ?_ ?_ ?_) (fun _ => rfl) (fun h => hs.ahead t h) (.inl hwaits),
      .setTask s _ (.of_not_pending ?_ ?_ hlive rfl)
        (.inr fun h => ⟨hwaits.trans h.waitsFor, by simp [KTask.Asleep, KTask.marked]⟩)
        fun _ _ _ => rfl, rfl⟩
    · refine hlists.setTask_of_prio_eq ?_ rfl hlists.sorted
        (hlists.due.setTask (.inl rfl) (List.Sublist.refl _))
      rw [update_view hwaits, update_view (f := KTask.tickHead)
        (x := (s.task t).marked .rdy 0) rfl]
      exact hq
    · simp [KTask.Pending, KTask.marked, ht]
    · simp [KTask.Asleep, KTask.marked, ht]
    · simp [KTask.Suspended, KTask.marked]
    · simp [KTask.Pending, ht]
    · simp [KTask.Asleep, ht]

omit [DecidableEq O] in
/-- **`task_resume`.** -/
theorem ensures_krhinoTaskResume (hs : Ok idle s) :
    Ensures (krhinoTaskResume t) s fun _ s' => Ok idle s' ∧ s.Frame s' ∧ s'.obj = s.obj := by
  -- a task that stays suspended
  have hfewer : (s.task t).suspendCount - 1 ≠ 0 → (s.task t).Suspended →
      Ok idle (s.setTask t ((s.task t).marked (s.task t).taskState
        ((s.task t).suspendCount - 1))) ∧
      s.Frame (s.setTask t ((s.task t).marked (s.task t).taskState
        ((s.task t).suspendCount - 1))) ∧ s.obj = s.obj := by
    intro hne hsus
    have hlive : (s.task t).Live := by
      rcases hsus with h | h | h <;> simp [KTask.Live, h]
    have hrdy : (s.task t).taskState ≠ .rdy := by
      rcases hsus with h | h | h <;> simp [h]
    obtain ⟨hok, hframe⟩ := hs.marked (s.task t).taskState ((s.task t).suspendCount - 1) hlive
      hrdy hrdy Iff.rfl Iff.rfl (iff_of_true hsus hne) hlive
    exact ⟨hok, hframe, rfl⟩
  rw [krhinoTaskResume, ensures_bind, ensures_get]
  dsimp only
  cases hst : (s.task t).taskState with
  | rdy => exact ensures_pure.2 ⟨hs, .refl s, rfl⟩
  | sleep => exact ensures_pure.2 ⟨hs, .refl s, rfl⟩
  | pend => exact ensures_pure.2 ⟨hs, .refl s, rfl⟩
  | seed => exact ensures_pure.2 ⟨hs, .refl s, rfl⟩
  | deleted => exact ensures_pure.2 ⟨hs, .refl s, rfl⟩
  | suspended =>
    simp only
    rw [ensures_bind, ensures_modifyTask, ensures_bind, ensures_when]
    refine ⟨fun hzero => ?_, fun hne => ?_⟩
    · rw [hzero, ensures_bind, ensures_modifyTask]
      simp only [KState.setTask_setTask, KState.setTask_task, Function.update_self]
      refine (hs.ensures_resume hst).mono ?_
      rintro - s' hs'
      exact ensures_pure.2 hs'
    · exact ensures_pure.2 (hfewer hne (.inl hst))
  | sleepSuspended =>
    simp only
    rw [ensures_bind, ensures_modifyTask, ensures_pure]
    by_cases hzero : (s.task t).suspendCount - 1 = 0
    · rw [if_pos hzero, hzero]
      obtain ⟨hok, hframe⟩ := hs.marked (t := t) .sleep 0
        (by simp [KTask.Live, hst]) (by simp [hst]) (by simp)
        (by simp [KTask.Pending, KTask.marked, hst]) (by simp [KTask.Asleep, KTask.marked, hst])
        (by simp [KTask.Suspended, KTask.marked]) (by simp [KTask.Live, KTask.marked])
      exact ⟨hok, hframe, rfl⟩
    · rw [if_neg hzero]
      exact hfewer hzero (.inr (.inr hst))
  | pendSuspended =>
    simp only
    rw [ensures_bind, ensures_modifyTask, ensures_pure]
    by_cases hzero : (s.task t).suspendCount - 1 = 0
    · rw [if_pos hzero, hzero]
      obtain ⟨hok, hframe⟩ := hs.marked (t := t) .pend 0
        (by simp [KTask.Live, hst]) (by simp [hst]) (by simp)
        (by simp [KTask.Pending, KTask.marked, hst]) (by simp [KTask.Asleep, KTask.marked, hst])
        (by simp [KTask.Suspended, KTask.marked]) (by simp [KTask.Live, KTask.marked])
      exact ⟨hok, hframe, rfl⟩
    · rw [if_neg hzero]
      exact hfewer hzero (.inr (.inl hst))

/-! ### Changing the priority -/

omit [DecidableEq O] in
/-- **A task with another base priority** is the one task that may be
unsettled. -/
theorem Ok.withBase (hs : Ok idle s) (hti : t ≠ idle) (hp : p < idlePri) :
    Sound idle (s.setTask t ((s.task t).withBase p)).mutexes (s.setTask t ((s.task t).withBase p)) ∧
      (s.setTask t ((s.task t).withBase p)).holder = s.holder ∧
      (∀ u, (s.task u).Live → u ≠ t →
        (s.setTask t ((s.task t).withBase p)).Settled s.holder u) ∧
      (s.setTask t ((s.task t).withBase p)).claims s.holder t =
        insert p {r | ∃ w, s.holder w = some t ∧ (s.task w).prio = r} := by
  have hview : ∀ {β : Type} (f : KTask O → β), f ((s.task t).withBase p) = f (s.task t) → ∀ u,
      f ((s.setTask t ((s.task t).withBase p)).task u) = f (s.task u) := fun f hf =>
    view_setTask (q := s.queues) f hf
  have hprio := funext (hview KTask.prio rfl)
  refine ⟨⟨hs.sound.lists.setTask_of_views rfl rfl rfl rfl rfl, ?_, ?_, ?_, ?_, ?_, ?_⟩, ?_,
    fun u hu hut => ?_, ?_⟩
  · rw [show (s.setTask t ((s.task t).withBase p)).mutexes = s.mutexes from
      funext (hview KTask.mutexList rfl)]
    refine hs.sound.locks.congr (fun u => iff_of_eq (hview KTask.Live rfl u))
      (fun u o hu _ => .inl ?_) rfl
    exact (hview KTask.waitsFor rfl u).symm.trans hu
  · have h := hs.sound.fine t
    exact forall_setTask (q := s.queues) (P := fun _ y => y.Fine) hs.sound.fine
      ⟨h.pend_obj, h.timed, h.asleep, h.suspended_iff, hp.trans (by decide)⟩
  · exact (hview KTask.taskState rfl idle).trans hs.sound.idle_rdy
  · exact (hview KTask.mutexList rfl idle).trans hs.sound.idle_free
  · rw [KState.setTask_task, Function.update_of_ne (Ne.symm hti)]
    exact hs.sound.idle_base
  · exact forall_setTask (q := s.queues) (P := fun u y => y.Live → u ≠ idle → y.bPrio < idlePri)
      hs.sound.base_lt fun _ _ => hp
  · exact holder_congr (hview KTask.waitsFor rfl) fun _ _ => Iff.rfl
  · unfold KState.Settled
    rw [hprio]
    refine Inherit.Settled.congr_base (hs.settled u hu) ?_
    rw [KState.setTask_task, Function.update_of_ne hut]
  · have hbase : ((s.setTask t ((s.task t).withBase p)).task t).bPrio = p := by
      rw [KState.setTask_task, Function.update_self]
      rfl
    unfold KState.claims Inherit.claims
    rw [hprio]
    exact congrArg (insert · _) hbase

/-- **`krhino_task_change_pri`**, of a task that was created. -/
theorem ensures_krhinoTaskPriChange [Fintype T] (hs : Ok idle s)
    (ht : (s.task t).taskState ≠ .seed) (pri : ℕ) :
    Ensures (krhinoTaskPriChange t pri) s fun _ s' =>
      Ok idle s' ∧ s.Frame s' ∧ s'.obj = s.obj := by
  rw [krhinoTaskPriChange, ensures_bind, ensures_get]
  split
  · exact ensures_pure.2 ⟨hs, .refl s, rfl⟩
  rename_i hprio
  split
  · exact ensures_pure.2 ⟨hs, .refl s, rfl⟩
  rename_i hpri
  split
  · exact ensures_pure.2 ⟨hs, .refl s, rfl⟩
  rename_i hdeleted
  refine ensures_notByIntrpt ⟨hs, .refl s, rfl⟩ fun _ => ?_
  have hlive : (s.task t).Live := ⟨ht, hdeleted⟩
  have hti : t ≠ idle := hs.ne_idle fun h => hprio (Nat.le_of_eq h.symm)
  have hpri : pri < idlePri := Nat.not_le.1 hpri
  dsimp only
  rw [ensures_bind, ensures_modifyTask]
  obtain ⟨hsound, hholder, hrest, hclaims⟩ := hs.withBase hti hpri
  have hleast := isLeast_mutexPriLimit hs.sound.lists hs.sound.locks hlive pri
  rw [← hclaims, ← hholder] at hleast
  rw [← hholder] at hrest
  have hview : ∀ {β : Type} (f : KTask O → β), f ((s.task t).withBase pri) = f (s.task t) → ∀ u,
      f ((s.setTask t ((s.task t).withBase pri)).task u) = f (s.task u) := fun f hf =>
    view_setTask (q := s.queues) f hf
  have hlives := fun u => iff_of_eq (hview KTask.Live rfl u)
  refine (ensures_taskPriChange hsound.lists hsound.static ((hlives t).2 hlive) hti hleast
    fun u hu => hrest u ((hlives u).1 hu)).bind ?_
  rintro stat s' ⟨rfl, hr, hall⟩
  rw [if_neg (not_not.2 rfl), ensures_pure]
  refine ⟨⟨?_, fun u hu => ?_, hr.waits ?_, hr.objs hs.objs, hr.ahead ?_⟩, ?_, hr.obj_eq⟩
  · rw [hr.mutexes_eq]
    exact hr.sound hsound
  · rw [hr.holder_eq]
    exact hall u (hr.live_iff.1 hu)
  · intro u o hu
    exact hs.waits u o ((hview KTask.waitsFor rfl u).symm.trans hu)
  · exact hs.ahead.setTask (q := s.queues) (hs.ahead t)
  · refine KState.Frame.trans ?_ hr.frame
    exact .setTask_of_state s s.queues ⟨fun h => ⟨h, rfl⟩, fun _ => id, fun h => ⟨h, rfl⟩⟩
      (fun h => ⟨h.waitsFor, h.awake⟩) rfl

end Hgsdk.Rhino

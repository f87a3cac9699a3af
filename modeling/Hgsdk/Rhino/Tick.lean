import Hgsdk.Rhino.TaskDel
/-!
# The tick

`krhino_tick_proc` moves the clock on by one, ends the waits that are over,
and takes a tick off the slice of the running task. The tick list is in the
order of the time that remains, so the loop of `tick_list_update` stops at
the first task that is not due. Whoever had one tick left is before it: no
wait is overlooked.
-/

namespace Hgsdk.Rhino

variable {T O : Type} [DecidableEq T] [DecidableEq O]
variable {s s' s₁ : KState T O} {q : Queues T O} {idle t u : T} {o : O} {x : KTask O}
variable {rest : List T}

/-! ### The end of one wait -/

/-- The state a task is left in whose time has come. -/
def TaskStat.awake : TaskStat → TaskStat
  | .sleepSuspended | .pendSuspended => .suspended
  | _ => .rdy

/-- The record of a task whose time has come. -/
def KTask.timedOut (x : KTask O) : KTask O :=
  if x.Pending then x.woken .timeout
  else { x with taskState := x.taskState.awake, blkState := .finish, tickHead := false }

omit [DecidableEq O] in
theorem KTask.timedOut_of_pending (hx : x.Pending) : x.timedOut = x.woken .timeout := if_pos hx

omit [DecidableEq O] in
theorem KTask.timedOut_of_asleep (hx : x.Asleep) :
    x.timedOut =
      { x with taskState := x.taskState.awake, blkState := .finish, tickHead := false } := by
  refine if_neg ?_
  rcases hx with h | h <;> simp [Pending, h]

omit [DecidableEq O] in
theorem KTask.waitsFor_timedOut : x.timedOut.waitsFor = none := by
  unfold timedOut
  split
  · exact waitsFor_woken
  · refine waitsFor_of_not_pending ?_
    unfold Pending TaskStat.awake
    split <;> simp

omit [DecidableEq O] in
theorem KTask.fine_timedOut (hx : x.Pending ∨ x.Asleep) (h : x.Fine) : x.timedOut.Fine := by
  rcases hx with hx | hx
  · rw [timedOut_of_pending hx]
    exact fine_woken hx h
  · have hcount := h.suspended_iff (by rcases hx with hx | hx <;> simp [Live, hx])
    rw [timedOut_of_asleep hx]
    refine ⟨?_, ?_, ?_, fun _ => ?_, h.base_lt⟩
    all_goals
      rcases hx with hx | hx <;>
        simp_all [Pending, Asleep, Suspended, TaskStat.awake]

omit [DecidableEq O] in
theorem KTask.keeps_timedOut (hx : x.Pending ∨ x.Asleep) : x.timedOut.Keeps x := by
  rcases hx with hx | hx
  · rw [timedOut_of_pending hx]
    exact keeps_woken hx
  · rw [timedOut_of_asleep hx]
    refine ⟨?_, ?_, rfl, rfl, rfl⟩ <;> rcases hx with hx | hx <;> simp [Live, TaskStat.awake, hx]

omit [DecidableEq O] in
theorem KTask.tickHead_timedOut : x.timedOut.tickHead = false := by
  unfold timedOut
  split <;> rfl

omit [DecidableEq O] in
theorem KTask.readyAt_timedOut (hx : x.Pending ∨ x.Asleep) :
    x.timedOut.readyAt =
      if x.taskState = .pend ∨ x.taskState = .sleep then some x.prio else none := by
  rcases hx with hx | hx
  · rw [timedOut_of_pending hx, readyAt_woken hx]
    rcases hx with hx | hx <;> simp [hx]
  · rw [timedOut_of_asleep hx]
    rcases hx with hx | hx <;> simp [readyAt, TaskStat.awake, hx]

/-- **What the end of one wait leaves.** -/
structure TimedOut (idle t : T) (s s' : KState T O) : Prop where
  sound : Sound idle s'.mutexes s'
  settled : ∀ u, (s'.task u).Live → s'.Settled s'.holder u
  obj : s'.obj = s.obj
  tickCount : s'.tickCount = s.tickCount
  activeTask : s'.activeTask = s.activeTask
  schedLock : s'.schedLock = s.schedLock
  intrptNestedLevel : s'.intrptNestedLevel = s.intrptNestedLevel
  tickHead : s'.queues.tickHead = s.queues.tickHead.erase t
  task : ∀ u, s'.task u =
    (Function.update s.task t (s.task t).timedOut u).withPrio (s'.task u).prio

omit [DecidableEq O] in
/-- A sleep ends. -/
theorem TimedOut.of_asleep (hs : Sound idle s.mutexes s)
    (hsettled : ∀ u, (s.task u).Live → s.Settled s.holder u) (ht : (s.task t).Asleep)
    (htick : q.tickHead = s.queues.tickHead.erase t)
    (hl : Lists ((s.setQueues q).setTask t (s.task t).timedOut)) :
    TimedOut idle t s ((s.setQueues q).setTask t (s.task t).timedOut) := by
  have hkeeps := KTask.keeps_timedOut (.inr ht)
  have hpend : ¬ (s.task t).Pending := by
    rcases ht with h | h <;> simp [KTask.Pending, h]
  have hwaits : (s.task t).timedOut.waitsFor = (s.task t).waitsFor :=
    KTask.waitsFor_timedOut.trans (KTask.waitsFor_of_not_pending hpend).symm
  refine ⟨hs.setTask hl hkeeps (KTask.fine_timedOut (.inr ht) (hs.fine t)) ?_ ?_, fun u hu => ?_,
    rfl, rfl, rfl, rfl, rfl, htick, fun u => rfl⟩
  · rintro rfl
    rcases ht with h | h <;> cases hs.idle_rdy.symm.trans h
  · intro o ho
    cases KTask.waitsFor_timedOut.symm.trans ho
  · have hholder : ((s.setQueues q).setTask t (s.task t).timedOut).holder = s.holder :=
      holder_congr (view_setTask KTask.waitsFor hwaits) fun _ _ => Iff.rfl
    rw [hholder, settled_setTask hkeeps.prio hkeeps.bPrio]
    refine hsettled u ?_
    exact forall_setTask (P := fun v y => y.Live → (s.task v).Live) (fun _ => id)
      (fun _ => hkeeps.lived) u hu

/-- The record of a task that is blocked no longer, before it forgets on
what. -/
def KTask.expired (x : KTask O) : KTask O := (x.woken .timeout).withBlkObj x.blkObj

omit [DecidableEq O] in
theorem KTask.not_pending_woken {b : BlkState} : ¬ (x.woken b).Pending := by
  unfold woken Pending TaskStat.unblocked
  split <;> simp

omit [DecidableEq O] in
theorem KTask.waitsFor_expired : x.expired.waitsFor = none :=
  waitsFor_of_not_pending (not_pending_woken (x := x) (b := .timeout))

/-- A wait ends, and the owner of the mutex the task waited for is reset. -/
theorem ensures_expire [Fintype T] (hs : Sound idle s.mutexes s)
    (hsettled : ∀ u, (s.task u).Live → s.Settled s.holder u) (hw : (s.task t).waitsFor = some o)
    (htick : q.tickHead = s.queues.tickHead.erase t)
    (hl : Lists ((s.setQueues q).setTask t (s.task t).expired)) :
    Ensures (do
      mutexTaskPriReset t
      modifyTask t fun x => x.withBlkObj none : K T O Unit)
      ((s.setQueues q).setTask t (s.task t).expired) fun _ s' => TimedOut idle t s s' := by
  obtain ⟨hpend, hobj⟩ := KTask.waitsFor_eq_some.1 hw
  have hkeeps := KTask.keeps_woken (b := .timeout) hpend
  have hfine := KTask.fine_woken (b := .timeout) hpend (hs.fine t)
  have hne : ¬ (s.task t).expired.Pending :=
    KTask.not_pending_woken (x := s.task t) (b := .timeout)
  have hti : t ≠ idle := by
    rintro rfl
    exact hpend.ne_rdy hs.idle_rdy
  have hsound : Sound idle ((s.setQueues q).setTask t (s.task t).expired).mutexes
      ((s.setQueues q).setTask t (s.task t).expired) := by
    refine hs.setTask hl ⟨hkeeps.live, hkeeps.lived, rfl, rfl, rfl⟩
      ⟨fun h => absurd h hne, hfine.timed, hfine.asleep, hfine.suspended_iff, hfine.base_lt⟩
      (fun h => absurd h hti) fun o' ho' => ?_
    cases KTask.waitsFor_expired.symm.trans ho'
  refine (ensures_unwait hl hsound.static hw (fun hmutex => ?_) KTask.waitsFor_expired hobj rfl rfl
    fun u hu => ?_).bind ?_
  · obtain ⟨v, hv, -⟩ := hs.locks.owned t o hw hmutex
    exact ⟨v, hv⟩
  · refine hsettled u ?_
    exact forall_setTask (P := fun v y => y.Live → (s.task v).Live) (fun _ => id)
      (fun _ => hpend.live) u hu
  · rintro - s₁ ⟨hr, hall⟩
    rw [ensures_modifyTask]
    have hs₁ : Sound idle s₁.mutexes s₁ := by
      rw [hr.mutexes_eq]
      exact hr.sound hsound
    have hself : ∀ {β : Type} (f : KTask O → β), (∀ x r, f (x.withPrio r) = f x) →
        f (s₁.task t) = f (s.task t).expired := by
      intro β f hf
      rw [hr.view_eq f hf t, KState.setTask_task, Function.update_self]
    have hne₁ : ¬ (s₁.task t).Pending := by
      rw [hself KTask.Pending fun _ _ => rfl]
      exact hne
    have hwaits : ((s₁.task t).withBlkObj none).waitsFor = (s₁.task t).waitsFor := by
      rw [KTask.waitsFor_of_not_pending hne₁]
      exact KTask.waitsFor_of_not_pending hne₁
    have hlive : (s₁.task t).Live := by
      rw [hself KTask.Live fun _ _ => rfl]
      exact hkeeps.live
    have hfine₁ := hs₁.fine t
    refine ⟨hs₁.setTask (hr.lists.setTask_of_views rfl hwaits rfl rfl rfl)
      ⟨hlive, hlive, rfl, rfl, rfl⟩ ⟨fun h => absurd h hne₁, hfine₁.timed, hfine₁.asleep,
        hfine₁.suspended_iff, hfine₁.base_lt⟩ (fun h => absurd h hti) fun o' ho' _ => .inl ?_,
      fun u hu => ?_, hr.obj_eq, hr.frame.tickCount, hr.frame.activeTask, hr.frame.schedLock,
      hr.frame.intrptNestedLevel, ?_, fun u => ?_⟩
    · exact hwaits.symm.trans ho'
    · have hholder : (s₁.setTask t ((s₁.task t).withBlkObj none)).holder = s₁.holder :=
        holder_congr (view_setTask (q := s₁.queues) KTask.waitsFor hwaits) fun _ _ => Iff.rfl
      have hsettled₁ : s₁.Settled s₁.holder u := by
        refine hall u ?_
        exact forall_setTask (q := s₁.queues) (P := fun v y => y.Live → (s₁.task v).Live)
          (fun _ => id) (fun _ => hlive) u hu
      rw [hholder]
      exact (settled_setTask (q := s₁.queues) (x := (s₁.task t).withBlkObj none) rfl rfl).2
        hsettled₁
    · obtain ⟨q', prio, rfl, htick', -⟩ := hr
      exact htick'.trans htick
    · obtain ⟨q', prio, rfl, -, -⟩ := hr
      by_cases hut : u = t
      · rw [hut, KState.setTask_task, Function.update_self, Function.update_self,
          KTask.timedOut_of_pending hpend]
        show ((Function.update s.task t (s.task t).expired t).withPrio (prio t)).withBlkObj none = _
        rw [Function.update_self]
        rfl
      · rw [KState.setTask_task, Function.update_of_ne hut, Function.update_of_ne hut]
        show (Function.update s.task t (s.task t).expired u).withPrio (prio u) =
          (s.task u).withPrio
            ((Function.update s.task t (s.task t).expired u).withPrio (prio u)).prio
        rw [Function.update_of_ne hut]
        rfl

omit [DecidableEq O] in
theorem KTask.expired_eq {st : TaskStat} (h : x.taskState.unblocked = st) :
    x.expired = { x with taskState := st, blkState := .timeout, tickHead := false } := by
  rw [← h]
  rfl

omit [DecidableEq O] in
theorem KTask.timedOut_eq {st : TaskStat} (hx : x.Asleep) (h : x.taskState.awake = st) :
    x.timedOut = { x with taskState := st, blkState := .finish, tickHead := false } := by
  rw [timedOut_of_asleep hx, h]

omit [DecidableEq O] in
/-- The lists without a task that slept. -/
theorem Lists.timedOut (hl : Lists s) (ht : (s.task t).Asleep)
    (hq : q.Holds (Function.update (KTask.readyAt ∘ s.task) t (s.task t).timedOut.readyAt)
      (KTask.waitsFor ∘ s.task) (Function.update (KTask.tickHead ∘ s.task) t false))
    (htick : q.tickHead = s.queues.tickHead.erase t) (hblk : q.blkList = s.queues.blkList) :
    Lists ((s.setQueues q).setTask t (s.task t).timedOut) := by
  have hpend : ¬ (s.task t).Pending := by
    rcases ht with h | h <;> simp [KTask.Pending, h]
  refine hl.setTask_of_prio_eq ?_ (KTask.keeps_timedOut (.inr ht)).prio (fun o ho => ?_)
    (hl.due.setTask (.inl ?_) (htick ▸ List.erase_sublist))
  · rw [update_view (KTask.waitsFor_timedOut.trans (KTask.waitsFor_of_not_pending hpend).symm),
      KTask.tickHead_timedOut]
    exact hq
  · rw [hblk]
    exact hl.sorted o ho
  · rw [KTask.timedOut_of_asleep ht]

/-- The lists without a task that waited for `o`. -/
theorem Lists.expired (hl : Lists s)
    (hq : q.Holds (Function.update (KTask.readyAt ∘ s.task) t (s.task t).expired.readyAt)
      (Function.update (KTask.waitsFor ∘ s.task) t none)
      (Function.update (KTask.tickHead ∘ s.task) t false))
    (htick : q.tickHead = s.queues.tickHead.erase t)
    (hblk : q.blkList = Function.update s.queues.blkList o ((s.queues.blkList o).erase t)) :
    Lists ((s.setQueues q).setTask t (s.task t).expired) := by
  refine hl.setTask_of_prio_eq ?_ rfl ?_ (hl.due.setTask (.inl rfl) (htick ▸ List.erase_sublist))
  · rw [KTask.waitsFor_expired]
    exact hq
  · rw [hblk]
    exact pairwise_update (fun o' ho' _ => hl.sorted o' ho') fun ho => (hl.sorted o ho).erase t

/-- **What `tick_list_update` does with a task** whose time has come. -/
theorem ensures_tickTimeout [Fintype T] (hs : Sound idle s.mutexes s)
    (hsettled : ∀ u, (s.task u).Live → s.Settled s.holder u) (ht : (s.task t).tickHead = true) :
    Ensures (tickTimeout t) s fun _ s' => TimedOut idle t s s' := by
  have hl := hs.lists
  have htick := hl.holds.tickRm t
  rw [tickTimeout, ensures_bind, ensures_get]
  split
  · rename_i hst
    have hasleep : (s.task t).Asleep := .inl hst
    rw [ensures_bind, ensures_modifyTask]
    refine (ensures_tickListRm (s := s.setTask t _) hl.holds ?_).bind ?_
    · rw [KState.setTask_task, Function.update_self]
      rfl
    rintro - s₁ rfl
    simp only [KState.setTask_setQueues, KState.setTask_setTask, KState.setTask_task,
      Function.update_self, KState.setTask_queues]
    rw [← KTask.timedOut_eq hasleep (by rw [hst]; rfl)]
    have hready := KTask.readyAt_timedOut (.inr hasleep)
    rw [if_pos (.inr hst)] at hready
    have hprio := (KTask.keeps_timedOut (.inr hasleep)).prio
    refine (ensures_readyListAdd (s := KState.setTask _ t _) htick
      (KTask.readyAt_of_ne (by rw [hst]; decide)) ?_).mono ?_
    · rw [KState.setTask_task, Function.update_self, hprio]
      exact hl.prio_lt t
    · rintro - s₂ ⟨rq, rfl, hq⟩
      rw [KState.setTask_task, Function.update_self, hprio, ← hready] at hq
      exact .of_asleep hs hsettled hasleep rfl (hl.timedOut hasleep hq rfl rfl)
  · rename_i hst
    have hpend : (s.task t).Pending := .inl hst
    obtain ⟨o, hobj⟩ := (hs.fine t).pend_obj hpend
    have hw : (s.task t).waitsFor = some o := KTask.waitsFor_eq_some.2 ⟨hpend, hobj⟩
    have hunblocked : (s.task t).taskState.unblocked = .rdy := by rw [hst]; rfl
    refine ensures_leave hl hw fun hq => ?_
    refine (ensures_readyListAdd (s := (s.setQueues _).setTask t _) hq hpend.readyAt ?_).bind ?_
    · rw [KState.setTask_task, Function.update_self]
      exact hl.prio_lt t
    rintro - s₃ ⟨rq, rfl, h₃⟩
    rw [KState.setTask_task, Function.update_self] at h₃
    rw [ensures_bind, ensures_modifyTask, KState.setTask_setQueues, KState.setTask_setTask,
      KState.setTask_task, Function.update_self, KState.setQueues_setQueues,
      ← KTask.expired_eq hunblocked]
    refine ensures_expire hs hsettled hw rfl (hl.expired ?_ rfl rfl)
    rw [show (s.task t).expired.readyAt = some (s.task t).prio from KTask.readyAt_of_rdy hunblocked]
    exact h₃
  · rename_i hst
    have hpend : (s.task t).Pending := .inr hst
    obtain ⟨o, hobj⟩ := (hs.fine t).pend_obj hpend
    have hw : (s.task t).waitsFor = some o := KTask.waitsFor_eq_some.2 ⟨hpend, hobj⟩
    have hunblocked : (s.task t).taskState.unblocked = .suspended := by rw [hst]; rfl
    have hready : (s.task t).expired.readyAt = (s.task t).readyAt := by
      rw [hpend.readyAt, KTask.expired_eq hunblocked]
      exact KTask.readyAt_of_ne (by simp)
    refine ensures_leave hl hw fun hq => ?_
    rw [ensures_bind, ensures_modifyTask, KState.setTask_setTask, KState.setTask_task,
      Function.update_self, ← KTask.expired_eq hunblocked]
    refine ensures_expire hs hsettled hw rfl (hl.expired ?_ rfl rfl)
    rw [update_view hready]
    exact hq
  · rename_i hst
    have hasleep : (s.task t).Asleep := .inr hst
    rw [ensures_bind, ensures_modifyTask]
    refine (ensures_tickListRm (s := s.setTask t _) hl.holds ?_).mono ?_
    · rw [KState.setTask_task, Function.update_self]
      rfl
    rintro - s₁ rfl
    simp only [KState.setTask_setQueues, KState.setTask_setTask, KState.setTask_task,
      Function.update_self, KState.setTask_queues]
    rw [← KTask.timedOut_eq hasleep (by rw [hst]; rfl)]
    have hready : (s.task t).timedOut.readyAt = (s.task t).readyAt := by
      rw [KTask.readyAt_timedOut (.inr hasleep), if_neg (by simp [hst]),
        KTask.readyAt_of_ne (by rw [hst]; decide)]
    refine .of_asleep hs hsettled hasleep rfl (hl.timedOut hasleep ?_ rfl rfl)
    rw [update_view hready]
    exact htick
  · rename_i hsleep hpend hpends hsleeps
    rcases (hs.fine t).timed ht with (h | h) | (h | h)
    · exact absurd h hpend
    · exact absurd h hpends
    · exact absurd h hsleep
    · exact absurd h hsleeps

/-! ### The loop -/

/-- The wait of the task is over, or taken to be: what remains of it is not
positive as a signed number. -/
def KState.Overdue (s : KState T O) (u : T) : Prop :=
  ((s.task u).tickMatch - s.tickCount).toInt ≤ 0

/-- **In the loop of `tick_list_update`**, with `rest` of the list to go: who
has left the list was overdue. -/
structure Ticking (idle : T) (rest : List T) (s s₁ : KState T O) : Prop where
  sound : Sound idle s₁.mutexes s₁
  settled : ∀ u, (s₁.task u).Live → s₁.Settled s₁.holder u
  obj : s₁.obj = s.obj
  tickCount : s₁.tickCount = s.tickCount
  activeTask : s₁.activeTask = s.activeTask
  schedLock : s₁.schedLock = s.schedLock
  intrptNestedLevel : s₁.intrptNestedLevel = s.intrptNestedLevel
  tickHead : s₁.queues.tickHead = rest
  task : ∀ u, s₁.task u = (s.task u).withPrio (s₁.task u).prio ∨
    u ∉ rest ∧ (s.task u).tickHead = true ∧ s.Overdue u ∧
      s₁.task u = (s.task u).timedOut.withPrio (s₁.task u).prio

omit [DecidableEq O] in
theorem KTask.timedOut_withPrio (p : ℕ) : (x.withPrio p).timedOut = x.timedOut.withPrio p := by
  by_cases hx : x.Pending
  · rw [timedOut_of_pending hx, timedOut_of_pending ((pending_withPrio x p).2 hx)]
    rfl
  · rw [timedOut, timedOut, if_neg hx, if_neg (mt (pending_withPrio x p).1 hx)]
    rfl

/-- **One turn of the loop.** -/
theorem Ticking.ensures_tickTimeout [Fintype T] (h : Ticking idle (t :: rest) s s₁)
    (hdue : s₁.Overdue t) :
    Ensures (tickTimeout t) s₁ fun _ s₂ => Ticking idle rest s s₂ := by
  have hholds := h.sound.lists.holds
  have htick : (s₁.task t).tickHead = true := by
    refine (hholds.mem_tick t).1 ?_
    rw [h.tickHead]
    exact List.mem_cons_self
  have hnodup := hholds.nodup_tick
  rw [h.tickHead, List.nodup_cons] at hnodup
  have hself : s₁.task t = (s.task t).withPrio (s₁.task t).prio :=
    (h.task t).resolve_right fun hleft => hleft.1 List.mem_cons_self
  refine (Rhino.ensures_tickTimeout h.sound h.settled htick).mono ?_
  intro _ s₂ h₂
  refine ⟨h₂.sound, h₂.settled, h₂.obj.trans h.obj, h₂.tickCount.trans h.tickCount,
    h₂.activeTask.trans h.activeTask, h₂.schedLock.trans h.schedLock,
    h₂.intrptNestedLevel.trans h.intrptNestedLevel, ?_, fun u => ?_⟩
  · rw [h₂.tickHead, h.tickHead, List.erase_cons_head]
  · have hu := h₂.task u
    by_cases hut : u = t
    · rw [hut, Function.update_self, hself, KTask.timedOut_withPrio, KTask.withPrio_withPrio] at hu
      rw [hut]
      refine .inr ⟨hnodup.1, ?_, ?_, hu⟩
      · rw [hself] at htick
        exact htick
      · unfold KState.Overdue at hdue ⊢
        rw [hself, h.tickCount] at hdue
        exact hdue
    · rw [Function.update_of_ne hut] at hu
      refine (h.task u).imp (fun hrec => ?_) ?_
      · rw [hrec, KTask.withPrio_withPrio] at hu
        exact hu
      · rintro ⟨hnot, htimed, hover, hrec⟩
        rw [hrec, KTask.withPrio_withPrio] at hu
        exact ⟨fun hmem => hnot (List.mem_cons_of_mem t hmem), htimed, hover, hu⟩

/-- **The loop** stops at the first task that is not overdue. -/
theorem Ticking.ensures_tickListLoop [Fintype T] (h : Ticking idle rest s s₁) :
    Ensures (tickListLoop rest) s₁ fun _ s' => ∃ rest', Ticking idle rest' s s' ∧
      ∀ t ∈ rest'.head?, ¬ s'.Overdue t := by
  induction rest generalizing s₁ with
  | nil => exact ensures_pure.2 ⟨[], h, by simp⟩
  | cons t rest ih =>
    rw [tickListLoop, ensures_bind, ensures_get]
    split
    · rename_i hdue
      exact (h.ensures_tickTimeout hdue).bind fun _ s₂ h₂ => ih h₂
    · rename_i hdue
      refine ensures_pure.2 ⟨t :: rest, h, fun u hu => ?_⟩
      obtain rfl := Option.some.inj hu
      exact hdue

omit [DecidableEq T] [DecidableEq O] in
/-- Whoever is left in the list has time left. -/
theorem Ticking.ahead (h : Ticking idle rest s s₁) (hhead : ∀ t ∈ rest.head?, ¬ s₁.Overdue t) :
    s₁.Ahead := by
  intro u hu
  have hmem := (h.sound.lists.holds.mem_tick u).2 hu
  have hsorted := h.sound.lists.due
  unfold KState.Due at hsorted
  rw [h.tickHead] at hmem hsorted
  cases rest with
  | nil => cases hmem
  | cons t rest =>
    have ht : ¬ ((s₁.task t).tickMatch - s₁.tickCount).toInt ≤ 0 := hhead t rfl
    have hpos : 0 < (s₁.task t).remain s₁.tickCount := by
      refine Nat.pos_of_ne_zero fun hzero => ht ?_
      rw [BitVec.eq_of_toNat_eq (x := (s₁.task t).tickMatch - s₁.tickCount) (y := 0) hzero]
      decide
    rcases List.mem_cons.1 hmem with rfl | hmem
    · exact hpos
    · exact hpos.trans_le (List.rel_of_pairwise_cons hsorted hmem)

/-! ### The tick as a whole -/

/-- `s` with the clock moved on by one tick. -/
def KState.later (s : KState T O) : KState T O := { s with tickCount := s.tickCount + 1 }

omit [DecidableEq O] in
theorem KTask.remain_succ {now : BitVec 64} (h : 0 < x.remain now) :
    x.remain (now + 1) = x.remain now - 1 := by
  unfold remain at h ⊢
  have hsub : x.tickMatch - (now + 1) = x.tickMatch - now - 1 := by bv_omega
  have hne : (1 : BitVec 64) ≤ x.tickMatch - now := by
    rw [BitVec.le_def]
    exact h
  rw [hsub, BitVec.toNat_sub_of_le hne]
  rfl

omit [DecidableEq T] [DecidableEq O] in
/-- One tick less remains of every wait, so the list is in order. -/
theorem Ok.due_later (hs : Ok idle s) : s.later.Due := by
  refine hs.sound.lists.due.imp_of_mem fun {u v} hu hv hle => ?_
  have hahead : ∀ w ∈ s.queues.tickHead, 0 < (s.task w).remain s.tickCount := fun w hw =>
    hs.ahead w ((hs.sound.lists.holds.mem_tick w).1 hw)
  show (s.task u).remain (s.tickCount + 1) ≤ (s.task v).remain (s.tickCount + 1)
  rw [KTask.remain_succ (hahead u hu), KTask.remain_succ (hahead v hv)]
  exact Nat.sub_le_sub_right hle 1

omit [DecidableEq T] [DecidableEq O] in
theorem Ok.sound_later (hs : Ok idle s) : Sound idle s.later.mutexes s.later :=
  ⟨⟨hs.sound.lists.holds, hs.sound.lists.sorted, hs.due_later, hs.sound.lists.prio_lt⟩,
    hs.sound.locks.congr (fun _ => Iff.rfl) (fun _ _ h _ => .inl h) rfl, hs.sound.fine,
    hs.sound.idle_rdy, hs.sound.idle_free, hs.sound.idle_base, hs.sound.base_lt⟩

omit [DecidableEq T] [DecidableEq O] in
theorem Ok.ticking (hs : Ok idle s) : Ticking idle s.queues.tickHead s.later s.later :=
  ⟨hs.sound_later, hs.settled, rfl, rfl, rfl, rfl, rfl, rfl, fun _ => .inl rfl⟩

/-- The wait of the task has ended by the clock. -/
structure KTask.Ended (x y : KTask O) : Prop where
  timed : x.tickHead = true
  taskState : y.taskState = x.taskState.awake
  blkState : y.blkState = if x.Pending then .timeout else .finish
  waitsFor : y.waitsFor = none

omit [DecidableEq O] in
theorem KTask.ended_timedOut (hx : x.Pending ∨ x.Asleep) (htimed : x.tickHead = true) :
    x.Ended x.timedOut := by
  refine ⟨htimed, ?_, ?_, waitsFor_timedOut⟩
  · rcases hx with hx | hx
    · rw [timedOut_of_pending hx]
      rcases hx with hx | hx <;> simp [woken, TaskStat.unblocked, TaskStat.awake, hx]
    · rw [timedOut_of_asleep hx]
  · unfold timedOut
    split <;> rfl

omit [DecidableEq O] in
theorem KTask.Ended.free (h : x.Ended y) : y.Free := by
  refine ⟨h.waitsFor, ?_⟩
  rw [Asleep, h.taskState]
  cases x.taskState <;> simp [TaskStat.awake]

/-- **What `tick_list_update` does.** Whoever is disturbed was overdue. -/
structure Ticked (idle : T) (s s' : KState T O) : Prop where
  ok : Ok idle s'
  obj : s'.obj = s.obj
  tickCount : s'.tickCount = s.tickCount + 1
  activeTask : s'.activeTask = s.activeTask
  schedLock : s'.schedLock = s.schedLock
  intrptNestedLevel : s'.intrptNestedLevel = s.intrptNestedLevel
  task : ∀ u, (s.task u).Undisturbed (s'.task u) ∨
    s.later.Overdue u ∧ (s.task u).Ended (s'.task u)
  free : ∀ u, (s.task u).Free → (s'.task u).Free
  rdy : ∀ u, (s.task u).taskState = .rdy → (s'.task u).taskState = .rdy

omit [DecidableEq T] [DecidableEq O] in
/-- The end of the loop. -/
theorem Ticking.ticked (hs : Ok idle s) (h : Ticking idle rest s.later s')
    (hhead : ∀ t ∈ rest.head?, ¬ s'.Overdue t) : Ticked idle s s' := by
  have htask : ∀ u, (s.task u).Undisturbed (s'.task u) ∧
      (s'.task u).taskState = (s.task u).taskState ∧
      (s'.task u).waitsFor = (s.task u).waitsFor ∨
      s.later.Overdue u ∧ (s.task u).Ended (s'.task u) := by
    intro u
    rcases h.task u with hrec | ⟨-, htimed, hover, hrec⟩
    · rw [hrec]
      exact .inl ⟨⟨fun h => ⟨h, rfl⟩, fun _ => id, fun h => ⟨h, rfl⟩⟩, rfl, rfl⟩
    · have hended := KTask.ended_timedOut ((hs.sound.fine u).timed htimed) htimed
      rw [hrec]
      exact .inr ⟨hover, hended.timed, hended.taskState, hended.blkState, hended.waitsFor⟩
  refine ⟨⟨h.sound, h.settled, fun u o hu => ?_, fun o => ?_, h.ahead hhead⟩, h.obj, h.tickCount,
    h.activeTask, h.schedLock, h.intrptNestedLevel, fun u => (htask u).imp_left And.left,
    fun u hu => ?_, fun u hu => ?_⟩
  · rw [h.obj]
    rcases htask u with ⟨-, -, hwaits⟩ | ⟨-, hended⟩
    · exact hs.waits u o (hwaits.symm.trans hu)
    · cases hended.waitsFor.symm.trans hu
  · rw [h.obj]
    exact hs.objs o
  · rcases htask u with ⟨-, hstate, hwaits⟩ | ⟨-, hended⟩
    · refine ⟨hwaits.trans hu.waitsFor, ?_⟩
      rw [KTask.Asleep, hstate]
      exact hu.awake
    · exact hended.free
  · rcases htask u with ⟨-, hstate, -⟩ | ⟨-, hended⟩
    · exact hstate.trans hu
    · rcases (hs.sound.fine u).timed hended.timed with (h | h) | (h | h) <;> cases hu.symm.trans h

theorem ensures_tickListUpdate [Fintype T] (hs : Ok idle s) :
    Ensures (tickListUpdate 1) s fun _ s' => Ticked idle s s' := by
  rw [tickListUpdate, ensures_bind, ensures_modify, ensures_bind, ensures_get]
  refine hs.ticking.ensures_tickListLoop.mono ?_
  rintro - s' ⟨rest, h, hhead⟩
  exact h.ticked hs hhead

omit [DecidableEq O] in
/-- A ready task with another slice. -/
theorem Ok.withSlice (hs : Ok idle s) (hrdy : (s.task t).taskState = .rdy) (slice : BitVec 32) :
    Ok idle (s.setTask t ((s.task t).withSlice slice)) := by
  have hlive : (s.task t).Live := by simp [KTask.Live, hrdy]
  have hfine := hs.sound.fine t
  exact hs.setTask_of_views ⟨hlive, hlive, rfl, rfl, rfl⟩
    ⟨hfine.pend_obj, hfine.timed, hfine.asleep,
    hfine.suspended_iff, hfine.base_lt⟩ rfl rfl rfl rfl

/-- **What `time_slice_update` leaves**: nothing changes but slices and the
order among equals. -/
structure Sliced (idle : T) (s s' : KState T O) : Prop where
  ok : Ok idle s'
  obj : s'.obj = s.obj
  tickCount : s'.tickCount = s.tickCount
  activeTask : s'.activeTask = s.activeTask
  schedLock : s'.schedLock = s.schedLock
  intrptNestedLevel : s'.intrptNestedLevel = s.intrptNestedLevel
  task : ∀ u, ∃ slice, s'.task u = (s.task u).withSlice slice

omit [DecidableEq T] [DecidableEq O] in
theorem Sliced.refl (hs : Ok idle s) : Sliced idle s s :=
  ⟨hs, rfl, rfl, rfl, rfl, rfl, fun u => ⟨(s.task u).timeSlice, rfl⟩⟩

omit [DecidableEq O] in
theorem Ok.sliced (hs : Ok idle s) (hrdy : (s.task t).taskState = .rdy) (slice : BitVec 32) :
    Sliced idle s (s.setTask t ((s.task t).withSlice slice)) := by
  refine ⟨hs.withSlice hrdy slice, rfl, rfl, rfl, rfl, rfl, fun u => ?_⟩
  rw [KState.setTask_task]
  by_cases hut : u = t
  · rw [hut, Function.update_self]
    exact ⟨slice, rfl⟩
  · rw [Function.update_of_ne hut]
    exact ⟨(s.task u).timeSlice, rfl⟩

omit [DecidableEq O] in
/-- **`time_slice_update`.** -/
theorem ensures_timeSliceUpdate (hs : Ok idle s) :
    Ensures timeSliceUpdate s fun _ s' => Sliced idle s s' := by
  rw [timeSliceUpdate, ensures_bind, ensures_get]
  split
  · exact ensures_pure.2 (.refl hs)
  · exact ensures_pure.2 (.refl hs)
  · rename_i t l _ hlist
    have hmem : t ∈ s.queues.readyQueue.curListItem (s.task s.activeTask).prio := by
      rw [hlist]
      exact List.mem_cons_self
    obtain ⟨hrdy, hprio⟩ := KTask.readyAt_eq_some.1 ((hs.sound.lists.holds.ready.mem _ _).1 hmem)
    split
    · exact ensures_pure.2 (.refl hs)
    dsimp only
    generalize (if 0 < (s.task t).timeSlice then (s.task t).timeSlice - 1 else 0) = slice
    split
    · rw [ensures_modifyTask]
      exact hs.sliced hrdy _
    · refine (hs.ensures_readyListHeadToTail (t := t) ?_).bind ?_
      · rw [hprio]
        exact List.ne_nil_of_mem hmem
      · rintro - s₁ ⟨hok, hframe, htask, hobj⟩
        rw [ensures_modifyTask]
        have h := hok.sliced (t := t) (by rw [htask]; exact hrdy) (s₁.task t).timeTotal
        refine ⟨h.ok, h.obj.trans hobj, h.tickCount.trans hframe.tickCount,
          h.activeTask.trans hframe.activeTask, h.schedLock.trans hframe.schedLock,
          h.intrptNestedLevel.trans hframe.intrptNestedLevel, fun u => ?_⟩
        rw [← htask]
        exact h.task u

omit [DecidableEq T] [DecidableEq O] in
theorem Sliced.taskState (h : Sliced idle s s') (u : T) :
    (s'.task u).taskState = (s.task u).taskState := by
  obtain ⟨slice, hrec⟩ := h.task u
  rw [hrec]
  rfl

end Hgsdk.Rhino

import Hgsdk.Rhino.Task
/-!
# Deleting a task

`krhino_task_del` first passes on the mutexes of the task, one by one, over
the list as it stood. Meanwhile that list is stale: what the task still
holds is the rest of it. The task itself is then taken out of the queue it
is in, and if it waited for a mutex, the owner of that is reset.
-/

namespace Hgsdk.Rhino

variable {T O : Type} [DecidableEq T] [DecidableEq O]
variable {s s' s₁ : KState T O} {q : Queues T O} {idle t u w : T} {o : O} {x : KTask O} {m : KObj T}
variable {rest : List O}

/-! ### Passing the mutexes on -/

/-- **What becomes of an object** when `t` is deleted: a mutex it owns is
free, or goes to the first in line. The nesting count goes with it. -/
def PassedOn (t : T) (s s' : KState T O) (o : O) : Prop :=
  s'.obj o = s.obj o ∨ (s.obj o).objType = .mutex ∧ (s.obj o).mutexTask = some t ∧
    ((∀ u, (s.task u).waitsFor ≠ some o) ∧ s'.obj o = (s.obj o).withOwner none ∨
      ∃ w, s.First o w ∧ s'.obj o = (s.obj o).withOwner (some w))

/-- **The mutexes of `t` are passed on** up to `rest`. -/
structure Freeing (idle t : T) (rest : List O) (s s₁ : KState T O) : Prop where
  sound : Sound idle (Function.update s₁.mutexes t rest) s₁
  settled : ∀ u, (s₁.task u).Live → u ≠ t → s₁.Settled s₁.holder u
  waits : s₁.Waits
  objs : ∀ o, (s₁.obj o).Fine
  ahead : s₁.Ahead
  tickCount : s₁.tickCount = s.tickCount
  activeTask : s₁.activeTask = s.activeTask
  schedLock : s₁.schedLock = s.schedLock
  intrptNestedLevel : s₁.intrptNestedLevel = s.intrptNestedLevel
  self : s₁.task t = s.task t
  task : ∀ u, s₁.task u = s.task u ∨ ∃ o, s.First o u ∧
    (s₁.obj o).objType = .mutex ∧ (s₁.obj o).mutexTask = some u ∧ s₁.task u = (s.task u).handed o
  kept : ∀ o ∈ rest, s₁.obj o = s.obj o ∧
    ∀ u, (s₁.task u).waitsFor = some o ↔ (s.task u).waitsFor = some o
  prio : ∀ u, (s₁.task u).prio = (s.task u).prio
  obj : ∀ o, PassedOn t s s₁ o

omit [DecidableEq O] in
theorem Ok.freeing (hs : Ok idle s) : Freeing idle t (s.task t).mutexList s s where
  sound := by
    rw [show Function.update s.mutexes t (s.task t).mutexList = s.mutexes from
      Function.update_eq_self t s.mutexes]
    exact hs.sound
  settled u hu _ := hs.settled u hu
  waits := hs.waits
  objs := hs.objs
  ahead := hs.ahead
  tickCount := rfl
  activeTask := rfl
  schedLock := rfl
  intrptNestedLevel := rfl
  self := rfl
  task _ := .inl rfl
  kept _ _ := ⟨rfl, fun _ => Iff.rfl⟩
  prio _ := rfl
  obj _ := .inl rfl

namespace Freeing

omit [DecidableEq O] in
/-- The next mutex is one of the task's own. -/
theorem owner (hf : Freeing idle t (o :: rest) s s₁) (ht : (s.task t).Live) :
    (s₁.obj o).objType = .mutex ∧ (s₁.obj o).mutexTask = some t := by
  have ht₁ : (s₁.task t).Live := hf.self ▸ ht
  refine (hf.sound.locks.held_iff t o ht₁).1 ?_
  rw [Function.update_self]
  exact List.mem_cons_self

omit [DecidableEq O] in
theorem nodup (hf : Freeing idle t (o :: rest) s s₁) (ht : (s.task t).Live) :
    o ∉ rest ∧ rest.Nodup := by
  have hnodup := hf.sound.locks.nodup t (hf.self ▸ ht)
  rw [Function.update_self] at hnodup
  exact List.nodup_cons.1 hnodup

omit [DecidableEq O] in
/-- What is held once the next mutex is passed on. -/
theorem mem_held (hf : Freeing idle t (o :: rest) s s₁) (ht : (s.task t).Live)
    (hu : (s₁.task u).Live) (o' : O) :
    o' ∈ Function.update s₁.mutexes t rest u ↔
      o' ∈ Function.update s₁.mutexes t (o :: rest) u ∧ o' ≠ o := by
  by_cases hut : u = t
  · rw [hut, Function.update_self, Function.update_self, List.mem_cons]
    constructor
    · intro hmem
      refine ⟨.inr hmem, ?_⟩
      rintro rfl
      exact (hf.nodup ht).1 hmem
    · rintro ⟨h | h, hne⟩
      · exact absurd h hne
      · exact h
  · have hiff := hf.sound.locks.held_iff u o' hu
    rw [Function.update_of_ne hut] at hiff ⊢
    rw [Function.update_of_ne hut, and_iff_left_of_imp]
    rintro hmem rfl
    exact hut (Option.some.inj ((hiff.1 hmem).2.symm.trans (hf.owner ht).2))

omit [DecidableEq O] in
theorem nodup_held (hf : Freeing idle t (o :: rest) s s₁) (ht : (s.task t).Live)
    (hu : (s₁.task u).Live) : (Function.update s₁.mutexes t rest u).Nodup := by
  by_cases hut : u = t
  · rw [hut, Function.update_self]
    exact (hf.nodup ht).2
  · have hnodup := hf.sound.locks.nodup u hu
    rw [Function.update_of_ne hut] at hnodup ⊢
    exact hnodup

/-- The others are settled without the next mutex. -/
theorem settled_without (hf : Freeing idle t (o :: rest) s s₁) (ht : (s.task t).Live)
    (hu : (s₁.task u).Live) (hut : u ≠ t) : s₁.Settled (s₁.without o) u := by
  obtain ⟨hmutex, howner⟩ := hf.owner ht
  refine (hf.settled u hu hut).without fun v hv hvu => ?_
  have hvt : s₁.holder v = some t := holder_eq_some.2 ⟨o, hv, hmutex, howner⟩
  exact hut (Option.some.inj (hvu.symm.trans hvt))

omit [DecidableEq O] in
/-- A task that still waits has the record it had. -/
theorem task_of_waits (hf : Freeing idle t rest s s₁) (hw : (s₁.task w).waitsFor = some o) :
    s₁.task w = s.task w := by
  refine (hf.task w).resolve_right ?_
  rintro ⟨o', -, -, -, hrec⟩
  rw [hrec] at hw
  cases (KTask.waitsFor_woken (b := .finish)).symm.trans hw

omit [DecidableEq O] in
/-- A mutex that changed hands is not one the task owns. -/
theorem handed_ne (hf : Freeing idle t rest s s₁) (howner : (s₁.obj o).mutexTask = some t) {o' : O}
    (hw : (s.task u).waitsFor = some o') (ho' : (s₁.obj o').mutexTask = some u)
    (hrec : s₁.task u = (s.task u).handed o') : o' ≠ o := by
  rintro rfl
  obtain rfl := Option.some.inj (howner.symm.trans ho')
  rw [hf.self] at hrec
  rw [hrec] at hw
  cases (KTask.waitsFor_woken (b := .finish)).symm.trans hw

/-- **One mutex is passed on.** -/
theorem ensures_mutexPassOn (hf : Freeing idle t (o :: rest) s s₁) (ht : (s.task t).Live) :
    Ensures (mutexPassOn o) s₁ fun _ s₂ => Freeing idle t rest s s₂ := by
  obtain ⟨hmutex, howner⟩ := hf.owner ht
  have hpolicy := hf.sound.locks.policy o hmutex
  obtain ⟨hobj, hwaiters⟩ := hf.kept o List.mem_cons_self
  have hne : ∀ o' ∈ rest, o' ≠ o := by
    rintro o' ho' rfl
    exact (hf.nodup ht).1 ho'
  have hmine : (s.obj o).objType = .mutex ∧ (s.obj o).mutexTask = some t := by
    rw [← hobj]
    exact ⟨hmutex, howner⟩
  rw [mutexPassOn, ensures_bind, ensures_get]
  split
  · rename_i hnil
    have hnobody := hf.sound.lists.blkList_nil.1 hnil
    rw [ensures_modifyObj]
    refine ⟨⟨hf.sound.lists.setObj fun _ => .inr hnobody, ?_, hf.sound.fine, hf.sound.idle_rdy,
      hf.sound.idle_free, hf.sound.idle_base, hf.sound.base_lt⟩, fun u hu hut => ?_,
      hf.waits.setObj (.inl hmutex), ?_, hf.ahead, hf.tickCount, hf.activeTask, hf.schedLock,
      hf.intrptNestedLevel, hf.self, fun u => ?_, fun o' ho' => ?_, hf.prio, fun o' => ?_⟩
    · exact hf.sound.locks.drop (fun u hu => hf.mem_held ht hu) (fun u hu => hf.nodup_held ht hu)
        (fun _ => Iff.rfl) (fun _ => rfl) rfl fun _ => ⟨rfl, hpolicy, hnobody⟩
    · have hholder : (s₁.setObj o ((s₁.obj o).withOwner none)).holder = s₁.without o :=
        holder_drop (fun _ => rfl) rfl fun _ => hnobody
      rw [hholder]
      exact hf.settled_without ht hu hut
    · exact forall_setObj (P := fun _ y => y.Fine) (fun o' _ => hf.objs o')
        (.of_mutex hmutex fun h => absurd rfl h)
    · refine (hf.task u).imp_right ?_
      rintro ⟨o', hw, hmutex', howner', hrec⟩
      refine ⟨o', hw, ?_⟩
      rw [KState.setObj_obj, Function.update_of_ne (hf.handed_ne howner hw.waits howner' hrec)]
      exact ⟨hmutex', howner', hrec⟩
    · rw [KState.setObj_obj, Function.update_of_ne (hne o' ho')]
      exact hf.kept o' (List.mem_cons_of_mem o ho')
    · by_cases ho : o' = o
      · rw [ho]
        refine .inr ⟨hmine.1, hmine.2, .inl ⟨fun u hu => hnobody u ((hwaiters u).2 hu), ?_⟩⟩
        rw [KState.setObj_obj, Function.update_self, hobj]
      · have hold := hf.obj o'
        unfold PassedOn at hold ⊢
        rwa [KState.setObj_obj, Function.update_of_ne ho]
  · rename_i w l hlist
    have hfirst := hf.sound.lists.first hpolicy hlist
    have hpend := (KTask.waitsFor_eq_some.1 hfirst.waits).1
    have hfirst₀ : s.First o w := by
      refine ⟨(hwaiters w).1 hfirst.waits, fun v hv => ?_⟩
      rw [← hf.prio w, ← hf.prio v]
      exact hfirst.le v ((hwaiters v).2 hv)
    have hwt : w ≠ t := by
      rintro rfl
      obtain ⟨v, hv, hvw⟩ := hf.sound.locks.owned w o hfirst.waits hmutex
      exact hvw (Option.some.inj (hv.symm.trans howner))
    have hwi : w ≠ idle := by
      rintro rfl
      exact hpend.ne_rdy hf.sound.idle_rdy
    have hnone : ((s₁.task w).handed o).waitsFor = none := KTask.waitsFor_woken (b := .finish)
    have hkeeps := KTask.keeps_woken (b := .finish) hpend
    have hfine : ((s₁.task w).handed o).Fine :=
      (KTask.fine_woken hpend (hf.sound.fine w)).withMutexes _
    refine (ensures_mutexHandOver (f := id) hf.sound.lists hfirst.waits fun _ => rfl).mono ?_
    rintro - s₂ ⟨q, rfl, hl⟩
    refine ⟨?_, fun u hu hut => ?_, ?_, ?_, hf.ahead.setTask ?_, hf.tickCount, hf.activeTask,
      hf.schedLock, hf.intrptNestedLevel, ?_, fun u => ?_, fun o' ho' => ?_, fun u => ?_,
      fun o' => ?_⟩
    · have hsound := hf.sound.give hl hkeeps.live hpend.live hwi rfl hfine hnone
        (fun u hu => hf.mem_held ht hu) (fun u hu => hf.nodup_held ht hu) hmutex rfl hpolicy
      have hmutexes : Function.update (((s₁.setQueues q).setTask w ((s₁.task w).handed o)).setObj o
          (id ((s₁.obj o).withOwner (some w)))).mutexes t rest =
            Function.update (Function.update s₁.mutexes t rest) w
              (o :: Function.update s₁.mutexes t rest w) := by
        rw [Function.update_of_ne hwt, Function.update_comm (Ne.symm hwt)]
        exact congrArg (Function.update · t rest) mutexes_update
      rw [hmutexes]
      exact hsound
    · refine KState.Settled.give (hf.settled_without ht ?_ hut) (if_pos hfirst.waits) hfirst.le rfl
        rfl hnone hmutex rfl
      exact forall_setTask (P := fun v y => y.Live → (s₁.task v).Live) (fun _ => id)
        (fun _ => hpend.live) u hu
    · refine KState.Waits.setObj ?_ (.inl hmutex)
      exact hf.waits.setTask hnone
    · exact forall_setObj (P := fun _ y => y.Fine) (fun o' _ => hf.objs o')
        (.of_mutex hmutex fun _ => (hf.objs o).nested hmutex (by rw [howner]; rintro ⟨⟩))
    · rintro ⟨⟩
    · rw [KState.setObj_task, KState.setTask_task, Function.update_of_ne (Ne.symm hwt)]
      exact hf.self
    · by_cases huw : u = w
      · rw [huw]
        refine .inr ⟨o, hfirst₀, ?_⟩
        rw [KState.setObj_obj, Function.update_self, KState.setObj_task, KState.setTask_task,
          Function.update_self, hf.task_of_waits hfirst.waits]
        exact ⟨hmutex, rfl, rfl⟩
      · rw [KState.setObj_task, KState.setTask_task, Function.update_of_ne huw]
        refine (hf.task u).imp_right ?_
        rintro ⟨o', hw, hmutex', howner', hrec⟩
        refine ⟨o', hw, ?_⟩
        rw [KState.setObj_obj, Function.update_of_ne (hf.handed_ne howner hw.waits howner' hrec)]
        exact ⟨hmutex', howner', hrec⟩
    · obtain ⟨hobj', hwaiters'⟩ := hf.kept o' (List.mem_cons_of_mem o ho')
      refine ⟨?_, fun u => ?_⟩
      · rw [KState.setObj_obj, Function.update_of_ne (hne o' ho')]
        exact hobj'
      · rw [KState.setObj_task, KState.setTask_task]
        by_cases huw : u = w
        · -- it waits for nothing now, and waited for the mutex before
          rw [huw, Function.update_self, hnone]
          refine iff_of_false (by rintro ⟨⟩) fun h => ?_
          have hw := (hwaiters w).1 hfirst.waits
          exact hne o' ho' (Option.some.inj (h.symm.trans hw))
        · rw [Function.update_of_ne huw]
          exact hwaiters' u
    · exact (view_setTask KTask.prio (x := (s₁.task w).handed o) rfl u).trans (hf.prio u)
    · by_cases ho : o' = o
      · rw [ho]
        refine .inr ⟨hmine.1, hmine.2, .inr ⟨w, hfirst₀, ?_⟩⟩
        rw [KState.setObj_obj, Function.update_self, ← hobj]
        rfl
      · have hold := hf.obj o'
        unfold PassedOn at hold ⊢
        rw [KState.setObj_obj, Function.update_of_ne ho]
        exact hold

/-- **`task_mutex_free`.** -/
theorem ensures_taskMutexFree (hf : Freeing idle t rest s s₁) (ht : (s.task t).Live) :
    Ensures (taskMutexFree rest) s₁ fun _ s₂ => Freeing idle t [] s s₂ := by
  induction rest generalizing s₁ with
  | nil => exact ensures_pure.2 hf
  | cons o rest ih =>
    rw [taskMutexFree]
    exact (hf.ensures_mutexPassOn ht).bind fun _ s₂ hf₂ => ih hf₂

end Freeing

/-! ### The task itself -/

omit [DecidableEq O] in
/-- **A task that holds nothing is gone**: the others are as sound as they
were. -/
theorem Freeing.deleted (hf : Freeing idle t [] s s₁) (hti : t ≠ idle)
    (hl : Lists ((s₁.setQueues q).setTask t x)) (hx : x.taskState = .deleted) (hfine : x.Fine) :
    Sound idle ((s₁.setQueues q).setTask t x).mutexes ((s₁.setQueues q).setTask t x) := by
  have hdead : ¬ x.Live := fun h => h.2 hx
  have hsame : ∀ u, u ≠ t → ((s₁.setQueues q).setTask t x).task u = s₁.task u := fun u hut =>
    Function.update_of_ne hut _ _
  have hne : ∀ u, (((s₁.setQueues q).setTask t x).task u).Live → u ≠ t := by
    rintro u hu rfl
    rw [KState.setTask_task, Function.update_self] at hu
    exact hdead hu
  have hheld : ∀ u, u ≠ t → Function.update s₁.mutexes t [] u =
      ((s₁.setQueues q).setTask t x).mutexes u := by
    intro u hut
    rw [Function.update_of_ne hut, mutexes_update, Function.update_of_ne hut]
  refine ⟨hl, ⟨fun u o hu => ?_, fun u hu => ?_, fun o u ho hu => ?_, fun u o => ?_,
    hf.sound.locks.policy⟩, forall_setTask (P := fun _ y => y.Fine) hf.sound.fine hfine, ?_, ?_, ?_,
    forall_setTask (P := fun u y => y.Live → u ≠ idle → y.bPrio < idlePri) hf.sound.base_lt
      fun h => absurd h hdead⟩
  · rw [← hheld u (hne u hu)]
    rw [hsame u (hne u hu)] at hu
    exact hf.sound.locks.held_iff u o hu
  · rw [← hheld u (hne u hu)]
    rw [hsame u (hne u hu)] at hu
    exact hf.sound.locks.nodup u hu
  · have hlive := hf.sound.locks.owner_live o u ho hu
    have hut : u ≠ t := by
      rintro rfl
      have hmem := (hf.sound.locks.held_iff u o hlive).2 ⟨ho, hu⟩
      rw [Function.update_self] at hmem
      exact List.not_mem_nil hmem
    rwa [hsame u hut]
  · refine forall_setTask (P := fun u y => y.waitsFor = some o → (s₁.obj o).objType = .mutex →
      ∃ v, (s₁.obj o).mutexTask = some v ∧ v ≠ u) (fun u => hf.sound.locks.owned u o) ?_ u
    intro h
    cases (KTask.waitsFor_of_not_pending (by simp [KTask.Pending, hx])).symm.trans h
  · rw [hsame idle (Ne.symm hti)]
    exact hf.sound.idle_rdy
  · rw [hsame idle (Ne.symm hti)]
    exact hf.sound.idle_free
  · rw [hsame idle (Ne.symm hti)]
    exact hf.sound.idle_base

omit [DecidableEq O] in
/-- **What becomes of the tasks** when one that holds nothing is gone. -/
theorem Freeing.moved (hf : Freeing idle t [] s s₁)
    (hlock : ¬ (t = s.activeTask ∧ 0 < s.schedLock)) (hx : x.taskState = .deleted)
    (hr : ((s₁.setQueues q).setTask t x).Reprios s') : s.Moved s' none (some t) where
  tickCount := hr.frame.tickCount.trans hf.tickCount
  activeTask := hr.frame.activeTask.trans hf.activeTask
  schedLock := hr.frame.schedLock.trans hf.schedLock
  intrptNestedLevel := hr.frame.intrptNestedLevel.trans hf.intrptNestedLevel
  fate u hu := by
    have hut : u ≠ t := by
      rintro rfl
      exact hu rfl
    have hframe := hr.frame.task u
    have hfree : KTask.Free (s'.task u) = _ := hr.view_eq KTask.Free (fun _ _ => rfl) u
    rw [KState.setTask_task, Function.update_of_ne hut, KState.setQueues_task] at hframe hfree
    rcases hf.task u with hrec | ⟨o, hw, hmutex, howner, hrec⟩
    · rw [hrec] at hframe
      exact .undisturbed hframe
    · rw [hrec] at hframe hfree
      have htold : ((s.task u).handed o).Told .finish :=
        KTask.told_handed (KTask.waitsFor_eq_some.1 hw.waits).1
      obtain ⟨hlive, hstate⟩ := hframe.live htold.live
      refine .handed hw ?_ ?_ ⟨hlive, hfree.mpr htold.free, hstate.trans htold.blkState⟩
      · rw [hr.obj_eq]
        exact hmutex
      · rw [hr.obj_eq]
        exact howner
  free u hu := by
    rw [hr.view_eq KTask.Free (fun _ _ => rfl) u, KState.setTask_task]
    refine .inr ?_
    by_cases hut : u = t
    · rw [hut, Function.update_self]
      exact ⟨KTask.waitsFor_of_not_pending (by simp [KTask.Pending, hx]),
        by simp [KTask.Asleep, hx]⟩
    · rw [Function.update_of_ne hut, KState.setQueues_task]
      rcases hf.task u with hrec | ⟨o', hw, -⟩
      · rw [hrec]
        exact hu
      · cases hu.waitsFor.symm.trans hw.waits
  locked hpos hrdy := by
    have hne : s.activeTask ≠ t := fun h => hlock ⟨h.symm, hpos⟩
    rw [hr.view_eq KTask.taskState fun _ _ => rfl, KState.setTask_task, Function.update_of_ne hne,
      KState.setQueues_task]
    rcases hf.task s.activeTask with hrec | ⟨o, hw, -⟩
    · rw [hrec]
      exact hrdy
    · exact absurd hrdy (KTask.waitsFor_eq_some.1 hw.waits).1.ne_rdy

/-- What is left of `s` when `t` is deleted. -/
structure Deleted (idle t : T) (s s' : KState T O) : Prop where
  ok : Ok idle s'
  moved : s.Moved s' none (some t)
  self : (s'.task t).taskState = .deleted
  obj : ∀ o, PassedOn t s s' o

omit [DecidableEq O] in
/-- A task that waited for no mutex is gone. -/
theorem Freeing.deleted_of_none (hf : Freeing idle t [] s s₁) (hti : t ≠ idle)
    (hlock : ¬ (t = s.activeTask ∧ 0 < s.schedLock))
    (hl : Lists ((s₁.setQueues q).setTask t x)) (hx : x.taskState = .deleted) (hfine : x.Fine)
    (hnone : s₁.holder t = none) : Deleted idle t s ((s₁.setQueues q).setTask t x) := by
  have hwaits : x.waitsFor = none :=
    KTask.waitsFor_of_not_pending (by simp [KTask.Pending, hx])
  have hholder : ((s₁.setQueues q).setTask t x).holder = s₁.holder := by
    rw [holder_setTask_update hwaits, ← hnone, Function.update_eq_self]
  refine ⟨⟨hf.deleted hti hl hx hfine, fun u hu => ?_, hf.waits.setTask hwaits, hf.objs,
    hf.ahead.setTask fun h => ?_⟩, hf.moved hlock hx (.refl hl), ?_, hf.obj⟩
  · have hut : u ≠ t := by
      rintro rfl
      rw [KState.setTask_task, Function.update_self] at hu
      exact hu.2 hx
    rw [hholder]
    refine KState.Settled.setTask (hf.settled u ?_ hut) hut hnone
    rwa [KState.setTask_task, Function.update_of_ne hut] at hu
  · rcases hfine.timed h with (h | h) | (h | h) <;> cases hx.symm.trans h
  · rw [KState.setTask_task, Function.update_self]
    exact hx

/-- The record of a task that is deleted. -/
def KTask.gone (x : KTask O) : KTask O := { x with taskState := .deleted, tickHead := false }

omit [DecidableEq O] in
theorem KTask.gone_eq (h : x.tickHead = false) : { x with taskState := .deleted } = x.gone := by
  rw [gone, ← h]

omit [DecidableEq O] in
theorem KTask.Fine.gone (h : x.Fine) : x.gone.Fine := by
  refine ⟨?_, ?_, ?_, fun hl => absurd rfl hl.2, h.base_lt⟩
  all_goals simp [KTask.gone, KTask.Pending, KTask.Asleep]

omit [DecidableEq O] in
theorem KTask.waitsFor_gone : x.gone.waitsFor = none :=
  waitsFor_of_not_pending (by simp [gone, Pending])

omit [DecidableEq O] in
theorem KTask.readyAt_gone : x.gone.readyAt = none := readyAt_of_ne (by simp [gone])

/-- A task that waited for a mutex is gone, and its owner reset. -/
theorem Freeing.ensures_reset [Fintype T] (hf : Freeing idle t [] s s₁) (hti : t ≠ idle)
    (hlock : ¬ (t = s.activeTask ∧ 0 < s.schedLock))
    (hl : Lists ((s₁.setQueues q).setTask t (s₁.task t).gone))
    (hw : (s₁.task t).waitsFor = some o) :
    Ensures (mutexTaskPriReset t) ((s₁.setQueues q).setTask t (s₁.task t).gone) fun _ s' =>
      Deleted idle t s s' := by
  have hsound := hf.deleted hti hl rfl (hf.sound.fine t).gone
  refine (ensures_unwait hl hsound.static hw (fun hmutex => ?_) KTask.waitsFor_gone
    (KTask.waitsFor_eq_some.1 hw).2 rfl rfl fun u hu => ?_).mono ?_
  · obtain ⟨v, hv, -⟩ := hf.sound.locks.owned t o hw hmutex
    exact ⟨v, hv⟩
  · have hut : u ≠ t := by
      rintro rfl
      rw [KState.setTask_task, Function.update_self] at hu
      exact hu.2 rfl
    rw [KState.setTask_task, Function.update_of_ne hut] at hu
    exact hf.settled u hu hut
  · rintro - s' ⟨hr, hall⟩
    refine ⟨⟨?_, hall, hr.waits (hf.waits.setTask KTask.waitsFor_gone), hr.objs hf.objs,
      hr.ahead (hf.ahead.setTask (by rintro ⟨⟩))⟩, hf.moved hlock rfl hr, ?_, fun o' => ?_⟩
    · rw [hr.mutexes_eq]
      exact hr.sound hsound
    · refine (hr.view_eq KTask.taskState (fun _ _ => rfl) t).trans ?_
      rw [KState.setTask_task, Function.update_self]
      rfl
    · have hold := hf.obj o'
      unfold PassedOn at hold ⊢
      rwa [hr.obj_eq]

omit [DecidableEq O] in
/-- A task in the tick list only, or in no list at all, is gone. -/
theorem Freeing.deleted_tickRm (hf : Freeing idle t [] s s₁) (hti : t ≠ idle)
    (hlock : ¬ (t = s.activeTask ∧ 0 < s.schedLock))
    (hpend : ¬ (s₁.task t).Pending) (hrdy : (s₁.task t).taskState ≠ .rdy) :
    Deleted idle t s ((s₁.setQueues { s₁.queues with
      tickHead := s₁.queues.tickHead.erase t }).setTask t (s₁.task t).gone) := by
  have hl := hf.sound.lists
  refine hf.deleted_of_none hti hlock ?_ rfl (hf.sound.fine t).gone (holder_of_not_pending hpend)
  refine hl.setTask_of_prio_eq ?_ rfl hl.sorted (hl.due.setTask (.inl rfl) List.erase_sublist)
  rw [update_view (KTask.readyAt_gone.trans (KTask.readyAt_of_ne hrdy).symm),
    update_view (KTask.waitsFor_gone.trans (KTask.waitsFor_of_not_pending hpend).symm)]
  exact hl.holds.tickRm t

omit [DecidableEq O] in
/-- A task asleep is gone. -/
theorem Freeing.ensures_tickRm (hf : Freeing idle t [] s s₁) (hti : t ≠ idle)
    (hlock : ¬ (t = s.activeTask ∧ 0 < s.schedLock))
    (hsleep : (s₁.task t).Asleep) :
    Ensures (do
      tickListRm t
      modifyTask t fun x => { x with taskState := .deleted }
      return Ret.sched .success : K T O Ret) s₁ fun _ s' => Deleted idle t s s' := by
  refine (ensures_tickListRm hf.sound.lists.holds rfl).bind ?_
  rintro - s₂ rfl
  rw [ensures_bind, ensures_modifyTask, ensures_pure, KState.setTask_setTask, KState.setTask_task,
    Function.update_self]
  refine hf.deleted_tickRm hti hlock ?_ ?_
  · rintro (h | h) <;> rcases hsleep with h' | h' <;> cases h.symm.trans h'
  · rcases hsleep with h | h <;> simp [h]

/-- A blocked task is gone. -/
theorem Freeing.ensures_blkRm [Fintype T] (hf : Freeing idle t [] s s₁) (hti : t ≠ idle)
    (hlock : ¬ (t = s.activeTask ∧ 0 < s.schedLock))
    (hpend : (s₁.task t).Pending) :
    Ensures (do
      tickListRm t
      blkListRm t
      modifyTask t fun x => { x with taskState := .deleted }
      mutexTaskPriReset t
      return Ret.sched .success : K T O Ret) s₁ fun _ s' => Deleted idle t s s' := by
  have hl := hf.sound.lists
  obtain ⟨o, hobj⟩ := (hf.sound.fine t).pend_obj hpend
  have hw : (s₁.task t).waitsFor = some o := KTask.waitsFor_eq_some.2 ⟨hpend, hobj⟩
  refine ensures_leave hl hw fun hq => ?_
  rw [ensures_bind, ensures_modifyTask, KState.setTask_setTask, KState.setTask_task,
    Function.update_self]
  refine (hf.ensures_reset hti hlock ?_ hw).bind fun _ s₄ h₄ => ensures_pure.2 h₄
  refine hl.setTask_of_prio_eq ?_ rfl ?_ (hl.due.setTask (.inl rfl) List.erase_sublist)
  · rw [update_view (KTask.readyAt_gone.trans hpend.readyAt.symm), KTask.waitsFor_gone]
    exact hq
  · exact pairwise_update (fun o' ho' _ => hl.sorted o' ho') fun ho => (hl.sorted o ho).erase t

/-- **The state part of `krhino_task_del`.** -/
theorem Freeing.ensures_taskDelState [Fintype T] (hf : Freeing idle t [] s s₁) (hti : t ≠ idle)
    (hlock : ¬ (t = s.activeTask ∧ 0 < s.schedLock))
    (ht : (s.task t).Live) :
    Ensures (taskDelState t) s₁ fun _ s' => Deleted idle t s s' := by
  have hl := hf.sound.lists
  have ht₁ : (s₁.task t).Live := hf.self ▸ ht
  rw [taskDelState, ensures_bind, ensures_get]
  split
  · rename_i hrdy
    have hnone := KTask.not_pending_of_rdy hrdy
    have huntimed := (hf.sound.fine t).untimed hrdy
    refine (ensures_readyListRm hl.holds (KTask.readyAt_of_rdy hrdy)
      (KTask.readyAt_of_rdy hf.sound.idle_rdy) (Ne.symm hti)).bind ?_
    rintro - s₂ ⟨rq, rfl, h₂⟩
    rw [ensures_bind, ensures_modifyTask, ensures_pure, KState.setQueues_task,
      KTask.gone_eq huntimed]
    refine hf.deleted_of_none hti hlock ?_ rfl (hf.sound.fine t).gone (holder_of_not_pending hnone)
    refine hl.setTask_of_prio_eq ?_ rfl hl.sorted (hl.due.setTask (.inl rfl) (.refl _))
    rw [KTask.readyAt_gone, update_view (f := KTask.tickHead) huntimed.symm,
      update_view (KTask.waitsFor_gone.trans (KTask.waitsFor_of_not_pending hnone).symm)]
    exact h₂
  · rename_i hsus
    have huntimed : (s₁.task t).tickHead = false := by
      refine eq_false_of_ne_true fun htimed => ?_
      rcases (hf.sound.fine t).timed htimed with (h | h) | (h | h) <;> cases hsus.symm.trans h
    have hnot : t ∉ s₁.queues.tickHead := by
      rw [hl.holds.mem_tick]
      exact ne_true_of_eq_false huntimed
    have hgone := hf.deleted_tickRm hti hlock (by simp [KTask.Pending, hsus]) (by simp [hsus])
    rw [List.erase_of_not_mem hnot] at hgone
    rw [ensures_bind, ensures_modifyTask, ensures_pure, KTask.gone_eq huntimed]
    exact hgone
  · exact hf.ensures_tickRm hti hlock (.inl ‹_›)
  · exact hf.ensures_tickRm hti hlock (.inr ‹_›)
  · exact hf.ensures_blkRm hti hlock (.inl ‹_›)
  · exact hf.ensures_blkRm hti hlock (.inr ‹_›)
  · exact absurd ‹_› ht₁.1
  · exact absurd ‹_› ht₁.2

/-- **`krhino_task_del`** of a task that has not been deleted yet, and is not
the idle task: it is refused and changes nothing, or the task is gone and its
mutexes passed on. -/
theorem ensures_krhinoTaskDel [Fintype T] (hs : Ok idle s) (ht : (s.task t).Live)
    (hti : t ≠ idle) :
    Ensures (krhinoTaskDel t) s fun _ s' => s' = s ∨ Deleted idle t s s' := by
  refine ensures_notByIntrpt (.inl rfl) fun _ => ?_
  have hprio : (s.task t).prio < idlePri :=
    (hs.settled t ht).le_base.trans_lt (hs.sound.base_lt t ht hti)
  rw [ensures_bind, ensures_get, if_neg hprio.ne]
  split
  · exact ensures_pure.2 (.inl rfl)
  split
  · exact ensures_pure.2 (.inl rfl)
  rename_i hlock
  rw [if_neg ht.2]
  refine ((hs.freeing (t := t)).ensures_taskMutexFree ht).bind fun _ s₁ hf => ?_
  exact (hf.ensures_taskDelState hti hlock ht).mono fun _ s' h => .inr h

end Hgsdk.Rhino

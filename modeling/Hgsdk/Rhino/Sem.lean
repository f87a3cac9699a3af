import Hgsdk.Rhino.Mutex
/-!
# Semaphores, and deleting what tasks wait for

The calls of `k_sem.c`, and `krhino_mutex_del`. Waking the tasks that wait
for something other than a mutex unsettles nobody: only the owner of a mutex
has its priority from others.
-/

namespace Hgsdk.Rhino

variable {T O : Type} [DecidableEq T] [DecidableEq O]
variable {s s' : KState T O} {q : Queues T O} {idle t u w : T} {o : O} {x : KTask O} {m : KObj T}
variable {bs : BlkState}

/-! ### Waking -/

/-- **What waking tasks that wait for `o` leaves**: nobody waits for anything
new, and who is disturbed is told `bs`. -/
structure Woken (idle : T) (o : O) (bs : BlkState) (s s' : KState T O) : Prop where
  sound : Sound idle s'.mutexes s'
  settled : ∀ u, (s'.task u).Live → s'.Settled s'.holder u
  obj : s'.obj = s.obj
  waitsFor : ∀ u o, (s'.task u).waitsFor = some o → (s.task u).waitsFor = some o
  tickCount : s'.tickCount = s.tickCount
  activeTask : s'.activeTask = s.activeTask
  schedLock : s'.schedLock = s.schedLock
  intrptNestedLevel : s'.intrptNestedLevel = s.intrptNestedLevel
  task : ∀ u, (s.task u).Undisturbed (s'.task u) ∨
    (s.task u).waitsFor = some o ∧ (s'.task u).Told bs
  free : ∀ u, (s.task u).Free → (s'.task u).Free
  rdy : ∀ u, (s.task u).taskState = .rdy → (s'.task u).taskState = .rdy
  ahead : s.Ahead → s'.Ahead

omit [DecidableEq T] [DecidableEq O] in
theorem Woken.refl (hs : Sound idle s.mutexes s)
    (hsettled : ∀ u, (s.task u).Live → s.Settled s.holder u) : Woken idle o bs s s :=
  ⟨hs, hsettled, rfl, fun _ _ => id, rfl, rfl, rfl, rfl, fun _ => .inl (.refl _), fun _ => id,
    fun _ => id, id⟩

omit [DecidableEq T] [DecidableEq O] in
theorem Woken.trans {s₁ s₂ : KState T O} (h₁ : Woken idle o bs s s₁) (h₂ : Woken idle o bs s₁ s₂) :
    Woken idle o bs s s₂ where
  sound := h₂.sound
  settled := h₂.settled
  obj := h₂.obj.trans h₁.obj
  waitsFor u o hu := h₁.waitsFor u o (h₂.waitsFor u o hu)
  tickCount := h₂.tickCount.trans h₁.tickCount
  activeTask := h₂.activeTask.trans h₁.activeTask
  schedLock := h₂.schedLock.trans h₁.schedLock
  intrptNestedLevel := h₂.intrptNestedLevel.trans h₁.intrptNestedLevel
  task u := by
    rcases h₁.task u with hu₁ | ⟨hw, htold⟩
    · rcases h₂.task u with hu₂ | ⟨hw, htold⟩
      · exact .inl (hu₁.trans hu₂)
      · exact .inr ⟨h₁.waitsFor u o hw, htold⟩
    · -- what the task has been told stands
      refine .inr ⟨hw, ?_⟩
      rcases h₂.task u with hu₂ | ⟨hw₂, -⟩
      · obtain ⟨hlive, hstate⟩ := hu₂.live htold.live
        exact ⟨hlive, h₂.free u htold.free, hstate.trans htold.blkState⟩
      · cases htold.free.waitsFor.symm.trans hw₂
  free u hu := h₂.free u (h₁.free u hu)
  rdy u hu := h₂.rdy u (h₁.rdy u hu)
  ahead h := h₂.ahead (h₁.ahead h)

omit [DecidableEq T] [DecidableEq O] in
/-- What becomes of the tasks, after a change that disturbed nobody. -/
theorem Woken.moved {s₁ : KState T O} {g : Option O} {d : Option T}
    (h : Woken idle o bs s₁ s') (hframe : s.Frame s₁)
    (hwaits : ∀ u, (s₁.task u).waitsFor = (s.task u).waitsFor)
    (hfate : ∀ u, (s.task u).waitsFor = some o → (s'.task u).Told bs → s.Fate s' g u) :
    s.Moved s' g d where
  tickCount := h.tickCount.trans hframe.tickCount
  activeTask := h.activeTask.trans hframe.activeTask
  schedLock := h.schedLock.trans hframe.schedLock
  intrptNestedLevel := h.intrptNestedLevel.trans hframe.intrptNestedLevel
  fate u _ := by
    rcases h.task u with hu | ⟨hw, htold⟩
    · exact .undisturbed ((hframe.task u).trans hu)
    · exact hfate u ((hwaits u).symm.trans hw) htold
  free u hu := (hframe.free u hu).imp_right (h.free u)
  locked hpos hrdy := h.rdy _ (hframe.locked hpos hrdy)

omit [DecidableEq T] [DecidableEq O] in
theorem Woken.ok (h : Woken idle o bs s s') (hs : Ok idle s) : Ok idle s' where
  sound := h.sound
  settled := h.settled
  waits u o hu := by
    rw [h.obj]
    exact hs.waits u o (h.waitsFor u o hu)
  objs o := by
    rw [h.obj]
    exact hs.objs o
  ahead := h.ahead hs.ahead

/-- **Waking a task** that waits for no mutex. -/
theorem ensures_wake (hs : Sound idle s.mutexes s)
    (hsettled : ∀ u, (s.task u).Live → s.Settled s.holder u)
    (hw : (s.task w).waitsFor = some o) (ho : (s.obj o).objType ≠ .mutex) (bs : BlkState) :
    Ensures (pendTaskEnd w bs) s fun _ s' => Woken idle o bs s s' ∧
      s'.task = Function.update s.task w ((s.task w).woken bs) ∧
      s'.queues.blkList o = (s.queues.blkList o).erase w := by
  have hpend := (KTask.waitsFor_eq_some.1 hw).1
  have hkeeps := KTask.keeps_woken (b := bs) hpend
  have hnone : ((s.task w).woken bs).waitsFor = none := KTask.waitsFor_woken
  refine (ensures_pendTaskEnd hs.lists hw bs).mono ?_
  rintro - s' ⟨rq, rfl, hl⟩
  refine ⟨⟨?_, fun u hu => ?_, rfl, fun u o' => ?_, rfl, rfl, rfl, rfl, fun u => ?_, fun u hu => ?_,
    fun u hu => ?_, fun h => ?_⟩, rfl, Function.update_self ..⟩
  · refine hs.setTask hl hkeeps (KTask.fine_woken hpend (hs.fine w)) ?_ ?_
    · rintro rfl
      exact absurd hs.idle_rdy hpend.ne_rdy
    · intro o' ho'
      cases hnone.symm.trans ho'
  · have hholder : ∀ q : Queues T O, ((s.setQueues q).setTask w ((s.task w).woken bs)).holder =
        s.holder := by
      intro q
      funext v
      by_cases hv : v = w
      · rw [hv, KState.holder, KState.holder, hw, Option.bind_some, if_neg ho, KState.setTask_task,
          Function.update_self, hnone]
        rfl
      · exact holder_setTask_of_ne hv
    rw [hholder, settled_setTask hkeeps.prio hkeeps.bPrio]
    refine hsettled u ?_
    exact forall_setTask (P := fun v y => y.Live → (s.task v).Live) (fun _ => id)
      (fun _ => hpend.live) u hu
  · refine forall_setTask (P := fun v y => y.waitsFor = some o' → (s.task v).waitsFor = some o')
      (fun _ => id) (fun hu => ?_) u
    cases hnone.symm.trans hu
  · refine forall_setTask (P := fun v y => (s.task v).Undisturbed y ∨
      (s.task v).waitsFor = some o ∧ y.Told bs) (fun _ => .inl (.refl _)) (.inr ?_) u
    exact ⟨hw, hkeeps.live, KTask.free_woken, rfl⟩
  · exact forall_setTask (P := fun v y => (s.task v).Free → y.Free) (fun _ => id)
      (fun _ => KTask.free_woken) u hu
  · have huw : u ≠ w := by
      rintro rfl
      exact hpend.ne_rdy hu
    rw [KState.setTask_task, Function.update_of_ne huw]
    exact hu
  · refine h.setTask ?_
    rintro ⟨⟩

/-- **Waking all** that wait for something other than a mutex. -/
theorem ensures_whileBlocked (hs : Sound idle s.mutexes s)
    (hsettled : ∀ u, (s.task u).Live → s.Settled s.holder u) (ho : (s.obj o).objType ≠ .mutex)
    (bs : BlkState) :
    Ensures (whileBlocked o fun task => pendTaskEnd task bs) s fun _ s' =>
      Woken idle o bs s s' ∧ ∀ u, (s'.task u).waitsFor ≠ some o := by
  refine ensures_iterate (fun _ s₁ => Woken idle o bs s s₁)
    (fun _ s₁ => (s₁.queues.blkList o).length) ?_ (.refl hs hsettled)
  intro _ s₁ hw₁
  rw [ensures_bind, ensures_get]
  split
  · rename_i hnil
    exact ensures_pure.2 ⟨hw₁, hw₁.sound.lists.blkList_nil.1 hnil⟩
  · rename_i w l hlist
    have hmem : w ∈ s₁.queues.blkList o := hlist ▸ List.mem_cons_self
    have ho₁ : (s₁.obj o).objType ≠ .mutex := by
      rw [hw₁.obj]
      exact ho
    refine (ensures_wake hw₁.sound hw₁.settled (hw₁.sound.lists.mem_blkList.1 hmem) ho₁ bs).bind ?_
    rintro - s₂ ⟨hw₂, -, hlen⟩
    refine ensures_pure.2 ⟨hw₁.trans hw₂, ?_⟩
    rw [hlen, List.length_erase_of_mem hmem, hlist]
    simp

/-! ### Semaphores -/

/-- **What `krhino_sem_give` does**, by what it returns: one more is counted,
or the first in line is woken. -/
inductive GiveMove (s : KState T O) (o : O) (s' : KState T O) : Ret → Prop where
  | fails {stat : KStat} (hstat : stat ≠ .success) (h : s' = s) : GiveMove s o s' (.exit stat)
  | counts (hsem : (s.obj o).objType = .sem) (hnobody : ∀ u, (s.task u).waitsFor ≠ some o)
    (hovf : (s.obj o).count ≠ -1) (htask : s'.task = s.task)
    (hothers : ∀ o', o' ≠ o → s'.obj o' = s.obj o') (htype : (s'.obj o).objType = .sem)
    (hcount : (s'.obj o).count = (s.obj o).count + 1) : GiveMove s o s' (.exit .success)
  | wakes (hsem : (s.obj o).objType = .sem) {w : T} (hw : s.First o w) (hobj : s'.obj = s.obj)
    (htask : s'.task = Function.update s.task w ((s.task w).woken .finish)) :
    GiveMove s o s' (.sched .success)

/-- **What `krhino_sem_give_all` does**: one more is counted, or all that
wait are woken. -/
inductive GiveAllMove (s : KState T O) (o : O) (s' : KState T O) : Ret → Prop where
  | gives {stat : KStat} (h : GiveMove s o s' (.exit stat)) : GiveAllMove s o s' (.exit stat)
  | wakes (hsem : (s.obj o).objType = .sem) (hobj : s'.obj = s.obj)
    (htold : ∀ u, (s.task u).waitsFor = some o → (s'.task u).Told .finish) :
    GiveAllMove s o s' (.sched .success)

omit [DecidableEq T] in
/-- The count of a semaphore nobody waits for may be anything. -/
theorem Ok.setCount (hs : Ok idle s) (hsem : (s.obj o).objType = .sem) (htype : m.objType = .sem)
    (hpolicy : m.blkPolicy = (s.obj o).blkPolicy) (hnobody : ∀ u, (s.task u).waitsFor ≠ some o) :
    Ok idle (s.setObj o m) := by
  have hne : m.objType ≠ .mutex := by
    rw [htype]
    decide
  refine hs.setObj (fun t => iff_of_false (fun h => hne h.1) fun h => ?_) (fun h => absurd h hne)
    ⟨fun h => absurd h hne, fun _ => hpolicy.trans ((hs.objs o).policy hsem)⟩ (.inl hnobody)
  cases hsem.symm.trans h.1

/-- Giving to a semaphore nobody waits for. -/
theorem ensures_semGive_count (hs : Ok idle s) (hsem : (s.obj o).objType = .sem)
    (hnobody : ∀ u, (s.task u).waitsFor ≠ some o) (hovf : (s.obj o).count ≠ -1) :
    Ensures (do
      modifyObj o fun m =>
        { m with
          count := m.count + 1
          peakCount := if m.peakCount < m.count + 1 then m.count + 1 else m.peakCount }
      return Ret.exit .success) s fun r s' => Ok idle s' ∧ s.Moved s' (some o) none ∧
        GiveMove s o s' r ∧
        r = .exit .success := by
  rw [ensures_bind, ensures_modifyObj, ensures_pure]
  refine ⟨hs.setCount hsem hsem rfl hnobody, (KState.Frame.setObj s).moved,
    .counts hsem hnobody hovf rfl (fun o' ho => ?_) ?_ ?_, rfl⟩
  · rw [KState.setObj_obj, Function.update_of_ne ho]
  · rw [KState.setObj_obj, Function.update_self]
    exact hsem
  · rw [KState.setObj_obj, Function.update_self]

/-- **`krhino_sem_give`.** -/
theorem ensures_krhinoSemGive (hs : Ok idle s) :
    Ensures (krhinoSemGive o) s fun r s' =>
      Ok idle s' ∧ s.Moved s' (some o) none ∧ GiveMove s o s' r := by
  rw [krhinoSemGive, semGive]
  refine ensures_ofType ⟨hs, .refl s, .fails (by decide) rfl⟩ fun hsem => ?_
  rw [ensures_bind, ensures_get]
  split
  · rename_i hnil
    split
    · exact ensures_pure.2 ⟨hs, .refl s, .fails (by decide) rfl⟩
    · rename_i hovf
      refine (ensures_semGive_count hs hsem (hs.sound.lists.blkList_nil.1 hnil) hovf).mono ?_
      rintro r s' ⟨hok, hmoved, hmove, -⟩
      exact ⟨hok, hmoved, hmove⟩
  · rename_i w l hlist
    have hfirst := hs.sound.lists.first ((hs.objs o).policy hsem) hlist
    have hne : (s.obj o).objType ≠ .mutex := by
      rw [hsem]
      decide
    rw [semWake, if_neg Bool.false_ne_true]
    refine (ensures_wake hs.sound hs.settled hfirst.waits hne .finish).bind ?_
    rintro - s' ⟨hwoken, htask, -⟩
    refine ensures_pure.2 ⟨hwoken.ok hs, hwoken.moved (.refl s) (fun _ => rfl) fun u hu htold => ?_,
      .wakes hsem hfirst hwoken.obj htask⟩
    exact .given rfl hu (by rw [hwoken.obj]; exact hsem) htold

/-- **`krhino_sem_give_all`.** -/
theorem ensures_krhinoSemGiveAll (hs : Ok idle s) :
    Ensures (krhinoSemGiveAll o) s fun r s' =>
      Ok idle s' ∧ s.Moved s' (some o) none ∧ GiveAllMove s o s' r := by
  rw [krhinoSemGiveAll, semGive]
  refine ensures_ofType ⟨hs, .refl s, .gives (.fails (by decide) rfl)⟩ fun hsem => ?_
  rw [ensures_bind, ensures_get]
  split
  · rename_i hnil
    split
    · exact ensures_pure.2 ⟨hs, .refl s, .gives (.fails (by decide) rfl)⟩
    · rename_i hovf
      refine (ensures_semGive_count hs hsem (hs.sound.lists.blkList_nil.1 hnil) hovf).mono ?_
      rintro r s' ⟨hok, hmoved, hmove, rfl⟩
      exact ⟨hok, hmoved, .gives hmove⟩
  · have hne : (s.obj o).objType ≠ .mutex := by
      rw [hsem]
      decide
    rw [semWake, if_pos rfl]
    refine (ensures_whileBlocked hs.sound hs.settled hne .finish).bind ?_
    rintro - s' ⟨hwoken, hnobody⟩
    refine ensures_pure.2 ⟨hwoken.ok hs, hwoken.moved (.refl s) (fun _ => rfl) fun u hu htold => ?_,
      .wakes hsem hwoken.obj fun u hu => ?_⟩
    · exact .given rfl hu (by rw [hwoken.obj]; exact hsem) htold
    · rcases hwoken.task u with hrec | ⟨-, htold⟩
      · exact absurd (hrec.waiting o hu) (hnobody u)
      · exact htold

/-- **Blocking on a semaphore** that has run out. -/
theorem Ok.ensures_pend (hs : Ok idle s) (hact : t = s.activeTask ∧ s.intrptNestedLevel = 0)
    (ht : (s.task t).taskState = .rdy) (hti : t ≠ idle) (hlock : ¬ 0 < s.schedLock)
    (hsem : (s.obj o).objType = .sem) (hcount : (s.obj o).count = 0)
    (ticks : BitVec 64) :
    Ensures (pendToBlkObj o t ticks) s fun _ s' => Ok idle s' ∧ s.Frame s' ∧ s'.obj = s.obj ∧
      (s'.task t).waitsFor = some o := by
  have hlive : (s.task t).Live := by simp [KTask.Live, ht]
  have hfine := hs.sound.fine t
  refine (ensures_pendToBlkObj (o := o) hs.sound.lists ht (hfine.untimed ht) hs.sound.idle_rdy
    (Ne.symm hti) ticks).mono ?_
  rintro - s' ⟨rq, l, tk, rfl, hl⟩
  refine ⟨hs.setTask hl (KTask.keeps_blockedOn hlive) (KTask.fine_blockedOn ht hfine)
    (fun h => absurd h hti) (KTask.remain_blockedOn (hfine.untimed ht))
    (.inr ⟨?_, fun o' ho' => ?_⟩),
    .setTask s _ (.of_rdy ht (KTask.keeps_blockedOn hlive).live KTask.blkState_blockedOn)
      (.inl hact) fun _ hpos => absurd hpos hlock, rfl, ?_⟩
  · exact holder_of_not_pending (KTask.not_pending_of_rdy ht)
  · rw [KTask.waitsFor_blockedOn, Option.some.injEq] at ho'
    rw [← ho']
    exact ⟨hsem, hcount⟩
  · rw [KState.setTask_task, Function.update_self, KTask.waitsFor_blockedOn]

/-- **What `krhino_sem_take` does**, by what it returns. -/
inductive TakeMove (s : KState T O) (o : O) (s' : KState T O) : Ret → Prop where
  | fails {stat : KStat} (hstat : stat ≠ .success) (h : s' = s) : TakeMove s o s' (.exit stat)
  | takes (hsem : (s.obj o).objType = .sem) (hcount : 0 < (s.obj o).count)
    (hobj : s'.obj = Function.update s.obj o { s.obj o with count := (s.obj o).count - 1 }) :
    TakeMove s o s' (.exit .success)
  | blocks (hsem : (s.obj o).objType = .sem) (hcount : (s.obj o).count = 0) (hobj : s'.obj = s.obj)
    (hw : (s'.task s.activeTask).waitsFor = some o) : TakeMove s o s' .pend

omit [DecidableEq T] [DecidableEq O] in
/-- **Nobody waits for a semaphore that has not run out.** -/
theorem Ok.waits_ne (hs : Ok idle s) (hsem : (s.obj o).objType = .sem)
    (hcount : (s.obj o).count ≠ 0)
    (u : T) : (s.task u).waitsFor ≠ some o := by
  intro hu
  rcases hs.waits u o hu with hmutex | ⟨-, hzero⟩
  · cases hsem.symm.trans hmutex
  · exact hcount hzero

/-- **`krhino_sem_take`.** -/
theorem ensures_krhinoSemTake (hs : Ok idle s)
    (hrun : s.intrptNestedLevel = 0 → Running idle s) (ticks : BitVec 64) :
    Ensures (krhinoSemTake o ticks) s fun r s' =>
      Ok idle s' ∧ s.Frame s' ∧ TakeMove s o s' r := by
  rw [krhinoSemTake]
  refine ensures_notByIntrpt ⟨hs, .refl s, .fails (by decide) rfl⟩ fun hlevel => ?_
  refine ensures_ofType ⟨hs, .refl s, .fails (by decide) rfl⟩ fun hsem => ?_
  have hrun := hrun hlevel
  rw [ensures_bind, ensures_get]
  split
  · rename_i hcount
    rw [ensures_bind, ensures_modifyObj, ensures_pure]
    refine ⟨hs.setCount hsem hsem rfl (hs.waits_ne hsem ?_), .setObj s, .takes hsem hcount rfl⟩
    exact (BitVec.pos_iff_ne_zero _).1 hcount
  rename_i hcount
  split
  · exact ensures_pure.2 ⟨hs, .refl s, .fails (by decide) rfl⟩
  split
  · exact ensures_pure.2 ⟨hs, .refl s, .fails (by decide) rfl⟩
  rename_i hlock
  have hzero : (s.obj o).count = 0 := by
    by_contra hne
    exact hcount ((BitVec.pos_iff_ne_zero _).2 hne)
  refine (hs.ensures_pend ⟨rfl, hrun.level⟩ hrun.rdy hrun.ne_idle hlock hsem hzero ticks).bind ?_
  rintro - s' ⟨hok, hframe, hobj, hw⟩
  exact ensures_pure.2 ⟨hok, hframe, .blocks hsem hzero hobj hw⟩

/-- **What a call that sets an object anew does** to the objects: nothing, or
it replaces this one, which was of type `old`. -/
def SetMove (s : KState T O) (o : O) (old : ObjType) (P : KObj T → Prop) (s' : KState T O) : Prop :=
  s'.obj = s.obj ∨ (s.obj o).objType = old ∧ ∃ m, s'.obj = Function.update s.obj o m ∧ P m

omit [DecidableEq T] in
/-- **`krhino_sem_count_set`.** -/
theorem ensures_krhinoSemCountSet (hs : Ok idle s) (count : BitVec 32) :
    Ensures (krhinoSemCountSet o count) s fun _ s' => Ok idle s' ∧ s.Frame s' ∧
      SetMove s o .sem (fun m => m.objType = .sem ∧ m.count = count) s' := by
  rw [krhinoSemCountSet]
  refine ensures_notByIntrpt ⟨hs, .refl s, .inl rfl⟩ fun hlevel => ?_
  refine ensures_ofType ⟨hs, .refl s, .inl rfl⟩ fun hsem => ?_
  rw [ensures_bind, ensures_get]
  split
  · exact ensures_pure.2 ⟨hs, .refl s, .inl rfl⟩
  · rename_i hcheck
    rw [ensures_bind, ensures_modifyObj, ensures_pure]
    refine ⟨hs.setCount hsem hsem rfl ?_, .setObj s, .inr ⟨hsem, _, rfl, hsem, rfl⟩⟩
    by_cases hcount : (s.obj o).count = 0
    · refine hs.sound.lists.blkList_nil.1 (not_not.1 fun hne => hcheck ⟨?_, hne⟩)
      rw [hcount]
      decide
    · exact hs.waits_ne hsem hcount

/-! ### Creating -/

omit [DecidableEq T] [DecidableEq O] in
/-- Nobody waits for an object of no type. -/
theorem Ok.waits_ne_none (hs : Ok idle s) (ho : (s.obj o).objType = .none) (u : T) :
    (s.task u).waitsFor ≠ some o := by
  intro hu
  rcases hs.waits u o hu with h | ⟨h, -⟩ <;> cases ho.symm.trans h

omit [DecidableEq T] in
/-- Its list is empty already. -/
theorem Ok.setQueues_create (hs : Ok idle s) (ho : (s.obj o).objType = .none) :
    s.setQueues { s.queues with blkList := Function.update s.queues.blkList o [] } = s := by
  have hnil := hs.sound.lists.blkList_nil.2 (hs.waits_ne_none ho)
  rw [← hnil, Function.update_eq_self]
  rfl

omit [DecidableEq T] in
/-- **`sem_create`**, of an object that is of no type yet. -/
theorem ensures_krhinoSemCreate (hs : Ok idle s) (ho : (s.obj o).objType = .none)
    (count : BitVec 32) :
    Ensures (krhinoSemCreate o count) s fun _ s' => Ok idle s' ∧ s.Frame s' ∧
      SetMove s o .none (fun m => m.objType = .sem ∧ m.count = count) s' := by
  rw [krhinoSemCreate, ensures_bind, ensures_modify, hs.setQueues_create ho, ensures_bind,
    ensures_modifyObj, ensures_pure]
  refine ⟨hs.setObj (fun t => iff_of_false ?_ ?_) ?_ ⟨?_, fun _ => rfl⟩
    (.inl (hs.waits_ne_none ho)), .setObj s, .inr ⟨ho, _, rfl, rfl, rfl⟩⟩
  · rintro ⟨⟨⟩, -⟩
  · rintro ⟨h, -⟩
    cases ho.symm.trans h
  · rintro ⟨⟩
  · rintro ⟨⟩

omit [DecidableEq T] in
/-- **`mutex_create`**, of an object that is of no type yet. -/
theorem ensures_krhinoMutexCreate (hs : Ok idle s) (ho : (s.obj o).objType = .none) :
    Ensures (krhinoMutexCreate o) s fun _ s' => Ok idle s' ∧ s.Frame s' ∧
      SetMove s o .none (fun m => m.objType = .mutex ∧ m.mutexTask = none) s' := by
  rw [krhinoMutexCreate, ensures_bind, ensures_modify, hs.setQueues_create ho, ensures_bind,
    ensures_modifyObj, ensures_pure]
  refine ⟨hs.setObj (fun t => iff_of_false ?_ ?_) (fun _ => rfl) (.of_mutex rfl fun h => ?_)
    (.inl (hs.waits_ne_none ho)), .setObj s, .inr ⟨ho, _, rfl, rfl, rfl⟩⟩
  · rintro ⟨-, ⟨⟩⟩
  · rintro ⟨h, -⟩
    cases ho.symm.trans h
  · exact absurd rfl h

/-! ### Deleting -/

omit [DecidableEq T] in
/-- **An object is gone**, and with it whoever waited for it. -/
theorem Woken.ok_deleted {s₁ s₂ : KState T O} (h : Woken idle o bs s₁ s₂) (hs : Ok idle s)
    (hnobody : ∀ u, (s₂.task u).waitsFor ≠ some o) (hobj : s₁.obj = Function.update s.obj o m)
    (hm : m.Fine) (hwaits : ∀ u, (s₁.task u).waitsFor = (s.task u).waitsFor) (hahead : s₁.Ahead) :
    Ok idle s₂ where
  sound := h.sound
  settled := h.settled
  waits u o' hu := by
    have ho : o' ≠ o := by
      rintro rfl
      exact hnobody u hu
    rw [h.obj, hobj, Function.update_of_ne ho]
    exact hs.waits u o' ((hwaits u).symm.trans (h.waitsFor u o' hu))
  objs o' := by
    rw [h.obj, hobj]
    by_cases ho : o' = o
    · subst ho
      rwa [Function.update_self]
    · rw [Function.update_of_ne ho]
      exact hs.objs o'
  ahead := h.ahead hahead

/-- **`krhino_sem_del`.** -/
theorem ensures_krhinoSemDel (hs : Ok idle s) :
    Ensures (krhinoSemDel o) s fun _ s' => Ok idle s' ∧ s.Moved s' none none ∧
      SetMove s o .sem (fun m => m.objType = .none) s' := by
  rw [krhinoSemDel]
  refine ensures_notByIntrpt ⟨hs, .refl s, .inl rfl⟩ fun _ => ?_
  refine ensures_ofType ⟨hs, .refl s, .inl rfl⟩ fun hsem => ?_
  rw [ensures_bind, ensures_get]
  split
  · exact ensures_pure.2 ⟨hs, .refl s, .inl rfl⟩
  rw [ensures_bind, ensures_modifyObj]
  have howner : ∀ t, ({ s.obj o with objType := .none } : KObj T).objType = .mutex ∧
      (s.obj o).mutexTask = some t ↔
        (s.obj o).objType = .mutex ∧ (s.obj o).mutexTask = some t := by
    refine fun t => iff_of_false ?_ fun h => ?_
    · rintro ⟨⟨⟩, -⟩
    · cases hsem.symm.trans h.1
  have hsound : Sound idle s.mutexes (s.setObj o { s.obj o with objType := .none }) := by
    refine hs.sound.setObj howner ?_ (.inr ⟨?_, rfl⟩)
    · rintro ⟨⟩
    · rintro ⟨⟩
  refine (ensures_whileBlocked (o := o) hsound (fun u hu => ?_) ?_ .del).bind ?_
  · rw [holder_setObj howner]
    exact hs.settled u hu
  · rw [KState.setObj_obj, Function.update_self]
    rintro ⟨⟩
  · rintro - s' ⟨hwoken, hnobody⟩
    refine ensures_pure.2 ⟨hwoken.ok_deleted hs hnobody rfl ⟨?_, ?_⟩ (fun _ => rfl) hs.ahead,
      hwoken.moved (.setObj s) (fun _ => rfl) fun u hu htold => .removed hu ?_ htold,
      .inr ⟨hsem, _, hwoken.obj, rfl⟩⟩
    · rintro ⟨⟩
    · rintro ⟨⟩
    · rw [hwoken.obj, KState.setObj_obj, Function.update_self]

/-- What the owner of a mutex that is gone leaves: its lists are as before,
it is set to what its other mutexes call for. -/
theorem ensures_mutexLeaveOwner [Fintype T] (hs : Ok idle s)
    (hmutex : (s.obj o).objType = .mutex) (hm : m.objType ≠ .mutex)
    (hpolicy : m.blkPolicy = (s.obj o).blkPolicy) (howner : m.mutexTask = (s.obj o).mutexTask) :
    Ensures (mutexLeaveOwner o) (s.setObj o m) fun _ s' => Sound idle s'.mutexes s' ∧
      (∀ u, (s'.task u).Live → s'.Settled s'.holder u) ∧ s'.obj = Function.update s.obj o m ∧
      (∀ u, (s'.task u).waitsFor = (s.task u).waitsFor) ∧ s.Frame s' ∧ s'.Ahead := by
  have hself : (s.setObj o m).obj o = m := Function.update_self ..
  rw [mutexLeaveOwner, ensures_bind, ensures_get, hself]
  split
  · rename_i hnone
    have hfree : (s.obj o).mutexTask = none := howner.symm.trans hnone
    have howner' : ∀ t, m.objType = .mutex ∧ m.mutexTask = some t ↔
        (s.obj o).objType = .mutex ∧ (s.obj o).mutexTask = some t := by
      refine fun t => iff_of_false (fun h => hm h.1) fun h => ?_
      cases hfree.symm.trans h.2
    refine ensures_pure.2 ⟨?_, fun u hu => ?_, rfl, fun _ => rfl, .setObj s, hs.ahead⟩
    · exact hs.sound.setObj howner' (fun h => absurd h hm) (.inr ⟨fun h => absurd h hm, hpolicy⟩)
    · rw [holder_setObj howner']
      exact hs.settled u hu
  · rename_i x hx
    have hx : (s.obj o).mutexTask = some x := howner.symm.trans hx
    have hxl := hs.sound.locks.owner_live o x hmutex hx
    have hxi := hs.sound.static.owner_ne hmutex hx
    have hfilter : (s.task x).mutexList.filter (fun mutex => some mutex ≠ some o) =
        (s.mutexes x).filter (· ≠ o) := by
      simp [KState.mutexes]
    obtain ⟨s₁, hs₁⟩ : ∃ s₁, s₁ = (s.setObj o m).setTask x
        ((s.task x).withMutexes ((s.mutexes x).filter (· ≠ o))) := ⟨_, rfl⟩
    have hview : ∀ {β : Type} (f : KTask O → β), (∀ y l, f (y.withMutexes l) = f y) → ∀ u,
        f (s₁.task u) = f (s.task u) := by
      intro β f hf
      rw [hs₁]
      exact view_withMutexes (s := s.setObj o m) f hf _
    have hlive : ∀ u, (s₁.task u).Live ↔ (s.task u).Live := fun u =>
      iff_of_eq (hview KTask.Live (fun _ _ => rfl) u)
    have hwaits := hview KTask.waitsFor fun _ _ => rfl
    have hobj : s₁.obj = Function.update s.obj o m := by
      rw [hs₁]
      rfl
    have hmutexes : s₁.mutexes =
        Function.update s.mutexes x ((s.mutexes x).filter (· ≠ o)) := by
      rw [hs₁]
      exact mutexes_update (s := s.setObj o m) (q := s.queues)
    have hlists : Lists (s.setObj o m) :=
      hs.sound.lists.setObj fun hpri => .inl (hpolicy.symm.trans hpri)
    have hsound : Sound idle s₁.mutexes s₁ := by
      refine ⟨?_, ?_, fun u => ?_, ?_, ?_, ?_, fun u hu hui => ?_⟩
      · rw [hs₁]
        exact hlists.setTask_of_views rfl rfl rfl rfl rfl
      · rw [hmutexes]
        exact hs.sound.locks.drop (fun u hu => hs.sound.locks.mem_unlinked hmutex hx hu)
          (fun u hu => hs.sound.locks.nodup_unlinked hu) hlive hwaits hobj fun h => absurd h hm
      · rw [hs₁]
        exact forall_setTask (s := s.setObj o m) (q := s.queues) (P := fun _ y => y.Fine)
          hs.sound.fine ((hs.sound.fine x).withMutexes _) u
      · exact (hview KTask.taskState (fun _ _ => rfl) idle).trans hs.sound.idle_rdy
      · have hidle := congrFun hmutexes idle
        rw [Function.update_of_ne (Ne.symm hxi)] at hidle
        exact hidle.trans hs.sound.idle_free
      · exact (hview KTask.bPrio (fun _ _ => rfl) idle).trans hs.sound.idle_base
      · rw [hview KTask.bPrio fun _ _ => rfl]
        exact hs.sound.base_lt u ((hlive u).1 hu) hui
    have hholder : s₁.holder = s.without o := holder_drop hwaits hobj fun h => absurd h hm
    refine (ensures_mutexRelease hlists hfilter hs₁ hsound.static hxl hxi
      fun u hu hux => ?_).mono ?_
    · rw [hholder, settled_congr (hview KTask.prio fun _ _ => rfl)
        (hview KTask.bPrio fun _ _ => rfl)]
      refine KState.Settled.without (hs.settled u ((hlive u).1 hu)) fun v hv hvu => ?_
      have hvx : s.holder v = some x := holder_eq_some.2 ⟨o, hv, hmutex, hx⟩
      exact hux (Option.some.inj (hvu.symm.trans hvx))
    · rintro - s' ⟨hr, hall⟩
      refine ⟨?_, hall, hr.obj_eq.trans hobj, fun u => ?_, ?_, hr.ahead ?_⟩
      · rw [hr.mutexes_eq]
        exact hr.sound hsound
      · exact (hr.view_eq KTask.waitsFor (fun _ _ => rfl) u).trans (hwaits u)
      · refine KState.Frame.trans ?_ hr.frame
        rw [hs₁]
        exact (KState.Frame.setObj s).trans (.withMutexes _)
      · rw [hs₁]
        exact hs.ahead.setTask (q := s.queues) (hs.ahead x)

/-- **`krhino_mutex_del`.** -/
theorem ensures_krhinoMutexDel [Fintype T] (hs : Ok idle s) :
    Ensures (krhinoMutexDel o) s fun _ s' => Ok idle s' ∧ s.Moved s' none none ∧
      SetMove s o .mutex (fun m => m.objType = .none) s' := by
  rw [krhinoMutexDel]
  refine ensures_notByIntrpt ⟨hs, .refl s, .inl rfl⟩ fun _ => ?_
  refine ensures_ofType ⟨hs, .refl s, .inl rfl⟩ fun hmutex => ?_
  rw [ensures_bind, ensures_get]
  split
  · exact ensures_pure.2 ⟨hs, .refl s, .inl rfl⟩
  rw [ensures_bind, ensures_modifyObj]
  have hm : ({ s.obj o with objType := .none } : KObj T).objType ≠ .mutex := by
    rintro ⟨⟩
  refine (ensures_mutexLeaveOwner hs hmutex hm rfl rfl).bind ?_
  rintro - s₁ ⟨hsound, hsettled, hobj, hwaits, hframe, hahead⟩
  refine (ensures_whileBlocked hsound hsettled ?_ .del).bind ?_
  · rw [hobj, Function.update_self]
    exact hm
  · rintro - s' ⟨hwoken, hnobody⟩
    refine ensures_pure.2 ⟨hwoken.ok_deleted hs hnobody hobj ⟨fun h => absurd h hm, ?_⟩
      hwaits hahead,
      hwoken.moved hframe hwaits fun u hu htold => .removed hu ?_ htold,
      .inr ⟨hmutex, _, hwoken.obj.trans hobj, rfl⟩⟩
    · rintro ⟨⟩
    · rw [hwoken.obj, hobj, Function.update_self]

end Hgsdk.Rhino

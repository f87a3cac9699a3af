import Hgsdk.Rhino.Calls
import Hgsdk.Rhino.Invariant
/-!
# Mutexes

The calls of `k_mutex.c` keep what the kernel keeps. Each of them leaves
some task unsettled in the middle: one about to wait for a mutex has lent
its priority already, one that gives a mutex up has unlinked it while others
still wait for it. What is settled then is settled without that mutex, or as
if the task waited already.
-/

namespace Hgsdk.Rhino

variable {T O : Type} [DecidableEq T] [DecidableEq O]
variable {s s' : KState T O} {q : Queues T O} {idle t u w : T} {o : O} {x : KTask O} {m : KObj T}
variable {h : T → Option T} {held : T → List O} {p : ℕ}

/-! ### The checks -/

omit [DecidableEq T] [DecidableEq O] in
theorem ensures_notByIntrpt {c : K T O Ret} {Q : Ret → KState T O → Prop}
    (hexit : Q (.exit .notCalledByIntrpt) s)
    (hc : s.intrptNestedLevel = 0 → Ensures c s Q) : Ensures (notByIntrpt c) s Q := by
  rw [notByIntrpt, ensures_bind, ensures_get]
  split
  · exact ensures_pure.2 hexit
  · exact hc (by omega)

omit [DecidableEq T] [DecidableEq O] in
theorem ensures_ofType {objType : ObjType} {c : K T O Ret} {Q : Ret → KState T O → Prop}
    (hexit : Q (.exit .kobjTypeErr) s)
    (hc : (s.obj o).objType = objType → Ensures c s Q) : Ensures (ofType o objType c) s Q := by
  rw [ofType, ensures_bind, ensures_get]
  split
  · exact ensures_pure.2 hexit
  · rename_i htype
    exact hc (not_not.1 htype)

/-! ### Giving up -/

/-- **`mutex_release`**: with the mutex out of its list the task is set to
what the others it holds call for. -/
theorem ensures_mutexRelease [Fintype T] {rel : Option O} {kept : List O} (hl : Lists s)
    (hkept : (s.task t).mutexList.filter (fun mutex => some mutex ≠ rel) = kept)
    (hs' : s' = s.setTask t ((s.task t).withMutexes kept)) (hstat : Static idle s')
    (ht : (s.task t).Live) (hti : t ≠ idle)
    (hrest : ∀ u, (s'.task u).Live → u ≠ t → s'.Settled s'.holder u) :
    Ensures (mutexRelease t rel) s fun _ s'' => s'.Reprios s'' ∧
      ∀ u, (s''.task u).Live → s''.Settled s''.holder u := by
  have hl' : Lists s' := by
    rw [hs']
    exact hl.setTask_of_views rfl rfl rfl rfl rfl
  have ht' : (s'.task t).Live := by
    rw [hs', KState.setTask_task, Function.update_self]
    exact ht
  have hmutexes : s'.mutexes t = kept := by
    rw [hs', KState.mutexes, KState.setTask_task, Function.update_self]
    rfl
  have hwaits : ∀ w, (s'.task w).waitsFor = (s.task w).waitsFor := by
    rw [hs']
    exact view_setTask (q := s.queues) KTask.waitsFor rfl
  have hobj : s'.obj = s.obj := by
    rw [hs']
    rfl
  rw [mutexRelease]
  refine (ensures_mutexPriLook (h := s'.holder) hl hkept (fun m hm => ?_) fun w => ?_).bind ?_
  · rw [← hmutexes] at hm
    rw [← hobj]
    exact hstat.locks.policy m ((hstat.locks.held_iff t m ht').1 hm).1
  · rw [hstat.locks.holder_iff ht', hmutexes]
    simp only [hwaits]
  · rintro p s₁ ⟨hs₁, hleast⟩
    obtain rfl : s₁ = s' := hs₁.trans hs'.symm
    have hclaims : ∀ h, s₁.claims h t = s.claims h t := by
      intro h
      rw [hs₁]
      exact claims_setTask (q := s.queues) (s := s) rfl rfl
    rw [← hclaims] at hleast
    rw [ensures_bind, ensures_get, ensures_when]
    refine ⟨fun _ => ?_, fun heq => ?_⟩
    · refine (ensures_taskPriChange hl' hstat ht' hti hleast hrest).bind ?_
      rintro - s₂ ⟨-, hr, hall⟩
      refine ensures_pure.2 ⟨hr, fun u hu => ?_⟩
      rw [hr.holder_eq]
      exact hall u (hr.live_iff.1 hu)
    · refine ⟨.refl hl', fun u hu => ?_⟩
      by_cases hut : u = t
      · subst hut
        rw [not_not.1 heq] at hleast
        exact hleast
      · exact hrest u hu hut

/-- The same for a ready task, which no other waits behind the mutex of: it
is set, and nothing else happens. -/
theorem ensures_mutexRelease_rdy {rel : Option O} {kept : List O} (hl : Lists s)
    (hkept : (s.task t).mutexList.filter (fun mutex => some mutex ≠ rel) = kept)
    (hpolicy : ∀ m ∈ kept, (s.obj m).blkPolicy = .pri)
    (hwait : ∀ w, h w = some t ↔ ∃ m ∈ kept, (s.task w).waitsFor = some m)
    (ht : (s.task t).taskState = .rdy) (hbase : (s.task t).bPrio < priMax)
    (hu : (s.task u).taskState = .rdy) (hut : u ≠ t) :
    Ensures (mutexRelease t rel) s fun _ s' => ∃ p, IsLeast (s.claims h t) p ∧
      (s.setTask t ((s.task t).withMutexes kept)).Reprio t p s' := by
  have hl' : Lists (s.setTask t ((s.task t).withMutexes kept)) :=
    hl.setTask_of_views rfl rfl rfl rfl rfl
  rw [mutexRelease]
  refine (ensures_mutexPriLook hl hkept hpolicy hwait).bind ?_
  rintro p s₁ ⟨rfl, hleast⟩
  have hp : p < priMax := (hleast.2 (Set.mem_insert _ _)).trans_lt hbase
  rw [ensures_bind, ensures_get, ensures_when]
  refine ⟨fun _ => ?_, fun heq => ⟨p, hleast, .refl hl', ?_⟩⟩
  · refine (ensures_taskPriChange_rdy (u := u) hl' ?_ ?_ hut hp).bind ?_
    · rwa [KState.setTask_task, Function.update_self]
    · rwa [KState.setTask_task, Function.update_of_ne hut]
    · rintro - s₂ ⟨-, hr⟩
      exact ensures_pure.2 ⟨p, hleast, hr⟩
  · rw [not_not.1 heq, Function.update_eq_self]

/-- **`mutex_task_pri_reset`**, for a task that waits no longer: if the owner
had its priority from it, it is set to what calls for it still. -/
theorem ensures_mutexTaskPriReset [Fintype T] (hl : Lists s) (hs : Static idle s)
    (hobj : (s.task t).blkObj = some o)
    (howner : (s.obj o).objType = .mutex → ∃ w, (s.obj o).mutexTask = some w)
    (hsettled : ∀ u, (s.task u).Live →
      (s.obj o).objType = .mutex ∧ (s.obj o).mutexTask = some u ∧
          (s.task u).prio = (s.task t).prio ∨ s.Settled s.holder u) :
    Ensures (mutexTaskPriReset t) s fun _ s' => s.Reprios s' ∧
      ∀ u, (s'.task u).Live → s'.Settled s'.holder u := by
  rw [mutexTaskPriReset, ensures_bind, ensures_get, ensures_bind, ensures_deref]
  refine ⟨o, hobj, ?_⟩
  rw [ensures_when]
  refine ⟨fun hmutex => ?_, fun hmutex => ⟨.refl hl, fun u hu => ?_⟩⟩
  · obtain ⟨w, hw⟩ := howner hmutex
    rw [ensures_bind, ensures_deref]
    refine ⟨w, hw, ?_⟩
    rw [ensures_when]
    refine ⟨fun _ => ?_, fun hne => ⟨.refl hl, fun u hu => ?_⟩⟩
    · have hkept : (s.task w).mutexList.filter (fun mutex => some mutex ≠ none) =
          (s.task w).mutexList := by
        simp
      refine ensures_mutexRelease hl hkept (KState.setTask_self s w).symm hs
        (hs.locks.owner_live o w hmutex hw) (hs.owner_ne hmutex hw) fun u hu huw => ?_
      refine (hsettled u hu).resolve_left ?_
      rintro ⟨-, hu, -⟩
      exact huw (Option.some.inj (hu.symm.trans hw))
    · refine (hsettled u hu).resolve_left ?_
      rintro ⟨-, hwu, hprio⟩
      obtain rfl := Option.some.inj (hwu.symm.trans hw)
      exact hne hprio
  · exact (hsettled u hu).resolve_left fun h => hmutex h.1

/-- **A task waits no longer** for what it waited for, and
`mutex_task_pri_reset` is called for it: who was settled is settled. -/
theorem ensures_unwait [Fintype T] (hl : Lists ((s.setQueues q).setTask t x))
    (hs : Static idle ((s.setQueues q).setTask t x)) (hw : (s.task t).waitsFor = some o)
    (howner : (s.obj o).objType = .mutex → ∃ w, (s.obj o).mutexTask = some w)
    (hx : x.waitsFor = none) (hobj : x.blkObj = some o) (hprio : x.prio = (s.task t).prio)
    (hbase : x.bPrio = (s.task t).bPrio)
    (hsettled : ∀ u, (((s.setQueues q).setTask t x).task u).Live → s.Settled s.holder u) :
    Ensures (mutexTaskPriReset t) ((s.setQueues q).setTask t x) fun _ s' =>
      ((s.setQueues q).setTask t x).Reprios s' ∧
        ∀ u, (s'.task u).Live → s'.Settled s'.holder u := by
  have hprio' := view_setTask (q := q) KTask.prio hprio
  refine ensures_mutexTaskPriReset (o := o) hl hs ?_ howner fun u hu => ?_
  · rw [KState.setTask_task, Function.update_self]
    exact hobj
  · by_cases hcase : s.holder t = some u ∧ (s.task t).prio = (s.task u).prio
    · -- the owner had its priority from the task
      obtain ⟨o', hw', hmutex, ho'⟩ := holder_eq_some.1 hcase.1
      obtain rfl := Option.some.inj (hw'.symm.trans hw)
      refine .inl ⟨hmutex, ho', ?_⟩
      rw [hprio' u, hprio' t]
      exact hcase.2.symm
    · exact .inr ((hsettled u hu).unwait (holder_setTask_update hx) hprio'
        (view_setTask KTask.bPrio hbase) fun h heq => hcase ⟨h, heq⟩)

/-! ### Handing over -/

/-- The record of a task that is handed a mutex. -/
def KTask.handed (x : KTask O) (mutex : O) : KTask O :=
  (x.woken .finish).withMutexes (mutex :: x.mutexList)

omit [DecidableEq O] in
theorem KTask.told_handed (hx : x.Pending) : (x.handed o).Told .finish :=
  ⟨(keeps_woken (b := .finish) hx).live, free_woken (b := .finish), rfl⟩

omit [DecidableEq T] [DecidableEq O] in
theorem Lists.first {l : List T} (hl : Lists s) (hpolicy : (s.obj o).blkPolicy = .pri)
    (hlist : s.queues.blkList o = w :: l) : s.First o w := by
  refine ⟨hl.mem_blkList.1 (hlist ▸ List.mem_cons_self), fun v hv => ?_⟩
  have hsorted := hl.sorted o hpolicy
  rw [hlist] at hsorted
  have hmem := hl.mem_blkList.2 hv
  rw [hlist] at hmem
  rcases List.mem_cons.1 hmem with rfl | hmem
  · exact Nat.le_refl _
  · exact (List.pairwise_cons.1 hsorted).1 v hmem

omit [DecidableEq T] [DecidableEq O] in
theorem Lists.blkList_nil (hl : Lists s) :
    s.queues.blkList o = [] ↔ ∀ u, (s.task u).waitsFor ≠ some o := by
  rw [List.eq_nil_iff_forall_not_mem]
  exact forall_congr' fun u => not_congr hl.mem_blkList

theorem ensures_mutexHandOver {f : KObj T → KObj T} (hl : Lists s)
    (hw : (s.task w).waitsFor = some o) (hf : ∀ y, (f y).blkPolicy = y.blkPolicy) :
    Ensures (mutexHandOver o w f) s fun _ s' => ∃ q,
      s' = ((s.setQueues q).setTask w ((s.task w).handed o)).setObj o
        (f ((s.obj o).withOwner (some w))) ∧ Lists s' := by
  rw [mutexHandOver]
  refine (ensures_pendTaskEnd hl hw .finish).bind ?_
  rintro - s₁ ⟨rq, rfl, hl₁⟩
  rw [ensures_bind, ensures_modifyObj, ensures_modifyTask]
  simp only [KState.setObj_setTask, KState.setTask_setTask, KState.setObj_task,
    KState.setTask_task, Function.update_self]
  refine ⟨_, rfl, Lists.setObj ?_ fun hpri => .inl (by rwa [hf] at hpri)⟩
  have hl₂ := hl₁.setTask_of_views (t := w) (x := (s.task w).handed o)
  simp only [KState.setTask_task, Function.update_self, KState.setTask_setQueues,
    KState.setTask_setTask] at hl₂
  exact hl₂ rfl rfl rfl rfl rfl

/-- **A mutex goes to a task**, with a record that waits for nothing. -/
theorem Sound.give {held' : T → List O} (hs : Sound idle held s)
    (hl : Lists (((s.setQueues q).setTask w x).setObj o m)) (hx : x.Live)
    (hw : (s.task w).Live) (hwi : w ≠ idle) (hbase : x.bPrio = (s.task w).bPrio) (hfine : x.Fine)
    (hnone : x.waitsFor = none)
    (hheld : ∀ u, (s.task u).Live → ∀ o', o' ∈ held' u ↔ o' ∈ held u ∧ o' ≠ o)
    (hnodup : ∀ u, (s.task u).Live → (held' u).Nodup) (hmutex : m.objType = .mutex)
    (howner : m.mutexTask = some w) (hpolicy : m.blkPolicy = .pri) :
    Sound idle (Function.update held' w (o :: held' w))
      (((s.setQueues q).setTask w x).setObj o m) := by
  have hidle : ∀ {β : Type} (f : KTask O → β),
      f (((s.setQueues q).setTask w x).task idle) = f (s.task idle) := by
    intro β f
    rw [KState.setTask_task, Function.update_of_ne (Ne.symm hwi)]
    rfl
  refine ⟨hl, ?_, ?_, (hidle _).trans hs.idle_rdy, (hidle _).trans hs.idle_free,
    (hidle _).trans hs.idle_base, ?_⟩
  · refine hs.locks.give hheld hnodup (fun u => ?_) (fun u o' => ?_) ?_ hw rfl hmutex
      howner hpolicy
    · exact forall_setTask (P := fun u y => y.Live ↔ (s.task u).Live) (fun _ => Iff.rfl)
        (iff_of_true hx hw) u
    · refine forall_setTask (P := fun u y => y.waitsFor = some o' → (s.task u).waitsFor = some o')
        (fun _ => id) (fun hu => ?_) u
      cases hnone.symm.trans hu
    · rw [KState.setObj_task, KState.setTask_task, Function.update_self, hnone]
      rintro ⟨⟩
  · exact forall_setTask (P := fun _ y => y.Fine) hs.fine hfine
  · refine forall_setTask (P := fun u y => y.Live → u ≠ idle → y.bPrio < idlePri) hs.base_lt ?_
    intro _ hwi
    rw [hbase]
    exact hs.base_lt w hw hwi

/-- Whoever was settled without the mutex is settled, if none that waits for
the mutex is more urgent than who it goes to. -/
theorem KState.Settled.give (hu : s.Settled (s.without o) u) (hw : s.without o w = none)
    (hfirst : ∀ v, (s.task v).waitsFor = some o → (s.task w).prio ≤ (s.task v).prio)
    (hprio : x.prio = (s.task w).prio) (hbase : x.bPrio = (s.task w).bPrio)
    (hnone : x.waitsFor = none) (hmutex : m.objType = .mutex) (howner : m.mutexTask = some w) :
    (((s.setQueues q).setTask w x).setObj o m).Settled
      (((s.setQueues q).setTask w x).setObj o m).holder u := by
  refine settled_give (holder_give (s := s) (o := o) (m := m) (fun v hv => ?_) ?_ rfl hmutex howner)
    hw (view_setTask KTask.prio hprio) (view_setTask KTask.bPrio hbase) hfirst hu
  · rw [KState.setObj_task, KState.setTask_task, Function.update_of_ne hv]
    rfl
  · rw [KState.setObj_task, KState.setTask_task, Function.update_self, hnone]

/-! ### The calls -/

/-- **The running task may call**: it is ready, and it is not the idle
task. -/
structure Running (idle : T) (s : KState T O) : Prop where
  rdy : (s.task s.activeTask).taskState = .rdy
  ne_idle : s.activeTask ≠ idle
  level : s.intrptNestedLevel = 0

/-- Whether a call went through. Locking a mutex once more, and unlocking it
not for the last time, has a code of its own. -/
def Ret.granted : Ret → Bool
  | .exit .success | .exit .mutexOwnerNested | .sched .success => true
  | _ => false

/-- **What a call of `krhino_mutex_lock` does**, by what it returns. -/
inductive LockMove (s : KState T O) (o : O) (s' : KState T O) : Ret → Prop where
  | fails {stat : KStat} (hstat : (Ret.exit stat).granted = false) (h : s' = s) :
    LockMove s o s' (.exit stat)
  | takes (hlevel : s.intrptNestedLevel = 0) (hmutex : (s.obj o).objType = .mutex)
    (hfree : (s.obj o).mutexTask = none)
    (hobj : s'.obj = Function.update s.obj o
      (((s.obj o).withOwner (some s.activeTask)).withNested 1)) : LockMove s o s' (.exit .success)
  | again (hlevel : s.intrptNestedLevel = 0) (hmutex : (s.obj o).objType = .mutex)
    (howner : (s.obj o).mutexTask = some s.activeTask) (hn : (s.obj o).ownerNested ≠ -1)
    (hobj : s'.obj = Function.update s.obj o
      ((s.obj o).withNested ((s.obj o).ownerNested + 1))) :
    LockMove s o s' (.exit .mutexOwnerNested)
  | blocks (hmutex : (s.obj o).objType = .mutex) (hobj : s'.obj = s.obj)
    (hw : (s'.task s.activeTask).waitsFor = some o) : LockMove s o s' .pend

omit [DecidableEq O] in
/-- The task is about to wait for the mutex of `w`: it has lent its priority
to it already. -/
theorem settled_lend (hs : Ok idle s) (ht : s.holder t = none) (hu : (s.task u).Live)
    (huw : u = w → (s.task w).prio ≤ (s.task t).prio) :
    s.Settled (Function.update s.holder t (some w)) u := by
  refine Inherit.Settled.mono (hs.settled u hu) rfl (fun v hv _ => ⟨?_, rfl⟩) fun v hv => ?_
  · rw [Function.update_of_ne]
    · exact hv
    · rintro rfl
      cases ht.symm.trans hv
  · by_cases hvt : v = t
    · subst hvt
      rw [Function.update_self] at hv
      obtain rfl := Option.some.inj hv
      exact huw rfl
    · rw [Function.update_of_ne hvt] at hv
      exact (hs.settled u hu).le_of_holder hv

/-- Whether the owner had to be raised or not, all are settled as if the task
waited for it already. -/
theorem ensures_lend [Fintype T] (hs : Ok idle s) (ht : (s.task t).taskState = .rdy)
    (hw : (s.task w).Live) (hwi : w ≠ idle) (hwt : w ≠ t) :
    Ensures (Cmd.when ((s.task t).prio < (s.task w).prio) do
      let _ ← taskPriChange w (s.task t).prio) s fun _ s' => s.Reprios s' ∧
        ∀ u, (s.task u).Live → s'.Settled (Function.update s.holder t (some w)) u := by
  have hnone : s.holder t = none := holder_of_not_pending (KTask.not_pending_of_rdy ht)
  rw [ensures_when]
  refine ⟨fun hlt => ?_, fun hge => ⟨.refl hs.sound.lists, fun u hu => ?_⟩⟩
  · have hleast : IsLeast (s.claims (Function.update s.holder t (some w)) w) (s.task t).prio := by
      refine Inherit.isLeast_claims_of_lt (hs.settled w hw) (Function.update_self ..) hlt.le ?_
      intro v hv hvt
      rw [Function.update_of_ne hvt] at hv
      exact (hs.settled w hw).le_of_holder hv
    refine (ensures_taskPriChange_raise hs.sound.lists hs.sound.static hw hwi hleast
      (fun u hu huw => settled_lend hs hnone hu fun h => absurd h huw) (fun u hu => ?_) hlt).bind ?_
    · refine Function.update_of_ne ?_ _ _
      rintro rfl
      exact Nat.lt_irrefl _ hu
    · rintro - s₁ ⟨-, hr, hall, -⟩
      exact ensures_pure.2 ⟨hr, hall⟩
  · exact settled_lend hs hnone hu fun _ => Nat.not_lt.1 hge

/-- **Blocking on a mutex** that `w` owns. -/
theorem ensures_mutexLockWait [Fintype T] (hs : Ok idle s) (hrun : Running idle s)
    (hmutex : (s.obj o).objType = .mutex) (howner : (s.obj o).mutexTask = some w)
    (hw : w ≠ s.activeTask) (ticks : BitVec 64) :
    Ensures (mutexLockWait o w ticks) s fun r s' =>
      Ok idle s' ∧ s.Frame s' ∧ LockMove s o s' r := by
  rw [mutexLockWait, ensures_bind, ensures_get]
  split
  · exact ensures_pure.2 ⟨hs, .refl s, .fails (by decide) rfl⟩
  split
  · exact ensures_pure.2 ⟨hs, .refl s, .fails (by decide) rfl⟩
  rename_i hunlocked
  refine (ensures_lend hs hrun.rdy (hs.sound.locks.owner_live o w hmutex howner)
    (hs.sound.static.owner_ne hmutex howner) hw).bind ?_
  rintro - s₁ ⟨hr, hall⟩
  have hs₁ : Sound idle s₁.mutexes s₁ := by
    rw [hr.mutexes_eq]
    exact hr.sound hs.sound
  have hrdy : (s₁.task s.activeTask).taskState = .rdy := by
    rw [hr.view_eq KTask.taskState fun _ _ => rfl]
    exact hrun.rdy
  have hfine := hs₁.fine s.activeTask
  refine (ensures_pendToBlkObj (o := o) hr.lists hrdy (hfine.untimed hrdy) hs₁.idle_rdy
    (Ne.symm hrun.ne_idle) ticks).bind ?_
  rintro - s₂ ⟨rq, l, tk, rfl, hl⟩
  have hlive : (s₁.task s.activeTask).Live := by simp [KTask.Live, hrdy]
  have hkeeps : ((s₁.task s.activeTask).blockedOn o s₁.tickCount ticks).Keeps
      (s₁.task s.activeTask) := KTask.keeps_blockedOn hlive
  refine ensures_pure.2 ⟨⟨?_, fun u hu => ?_, fun u o' => ?_, ?_, ?_⟩, ?_,
    .blocks hmutex hr.obj_eq ?_⟩
  · refine hs₁.setTask hl hkeeps (KTask.fine_blockedOn hrdy hfine)
      (fun h => absurd h hrun.ne_idle) fun o' ho' _ => .inr ⟨w, ?_, hw⟩
    rw [KTask.waitsFor_blockedOn, Option.some.injEq] at ho'
    rw [← ho', hr.obj_eq]
    exact howner
  · -- the task waits for the owner, as it was taken to
    have hholder : ∀ q : Queues T O, ((s₁.setQueues q).setTask s.activeTask
        ((s₁.task s.activeTask).blockedOn o s₁.tickCount ticks)).holder =
          Function.update s.holder s.activeTask (some w) := by
      intro q
      funext v
      by_cases hv : v = s.activeTask
      · rw [hv, Function.update_self, holder_eq_some]
        refine ⟨o, ?_, ?_, ?_⟩
        · rw [KState.setTask_task, Function.update_self]
          exact KTask.waitsFor_blockedOn
        · exact (congrArg KObj.objType (congrFun hr.obj_eq o)).trans hmutex
        · exact (congrArg KObj.mutexTask (congrFun hr.obj_eq o)).trans howner
      · rw [Function.update_of_ne hv, holder_setTask_of_ne hv, hr.holder_eq]
    rw [hholder, settled_setTask hkeeps.prio hkeeps.bPrio]
    refine hall u (hr.live_iff.1 ?_)
    exact forall_setTask (P := fun v y => y.Live → (s₁.task v).Live) (fun _ => id)
      (fun _ => hlive) u hu
  · refine forall_setTask (P := fun u y => y.waitsFor = some o' → (s₁.obj o').objType = .mutex ∨
      (s₁.obj o').objType = .sem ∧ (s₁.obj o').count = 0)
      (fun u => hr.waits hs.waits u o') (fun ho' => .inl ?_) u
    rw [KTask.waitsFor_blockedOn, Option.some.injEq] at ho'
    rw [← ho', hr.obj_eq]
    exact hmutex
  · exact hr.objs hs.objs
  · exact forall_setTask (P := fun _ y => y.tickHead = true → 0 < y.remain s₁.tickCount)
      (hr.ahead hs.ahead) (KTask.remain_blockedOn (hfine.untimed hrdy))
  · refine hr.frame.trans (.setTask s₁ _ (.of_rdy hrdy hkeeps.live KTask.blkState_blockedOn)
      (.inl ⟨hr.frame.activeTask.symm, hr.frame.intrptNestedLevel.trans hrun.level⟩) ?_)
    intro _ hpos
    rw [hr.frame.schedLock] at hpos
    exact absurd hpos hunlocked
  · rw [KState.setTask_task, Function.update_self, KTask.waitsFor_blockedOn]

omit [DecidableEq T] [DecidableEq O] in
/-- Nobody waits for a mutex that nobody owns. -/
theorem Locks.waits_ne (hk : Locks held s) (hmutex : (s.obj o).objType = .mutex)
    (hfree : (s.obj o).mutexTask = none) : (s.task u).waitsFor ≠ some o := by
  intro hu
  obtain ⟨v, hv, -⟩ := hk.owned u o hu hmutex
  cases hfree.symm.trans hv

/-- **A free mutex is taken.** -/
theorem Ok.take (hs : Ok idle s) (ht : (s.task t).taskState = .rdy) (hti : t ≠ idle)
    (hmutex : (s.obj o).objType = .mutex) (hfree : (s.obj o).mutexTask = none)
    (howner : m.mutexTask = some t) (htype : m.objType = .mutex) (hpolicy : m.blkPolicy = .pri)
    (hnested : m.ownerNested ≠ 0) :
    Ok idle (((s.setQueues s.queues).setTask t
      ((s.task t).withMutexes (o :: (s.task t).mutexList))).setObj o m) := by
  have hnobody : ∀ u, (s.task u).waitsFor ≠ some o := fun u =>
    hs.sound.locks.waits_ne hmutex hfree
  have hlive : (s.task t).Live := by simp [KTask.Live, ht]
  have hnone : (s.task t).waitsFor = none :=
    KTask.waitsFor_of_not_pending (KTask.not_pending_of_rdy ht)
  have hwithout : s.without o = s.holder := funext fun u => if_neg (hnobody u)
  have hlists : Lists (((s.setQueues s.queues).setTask t
      ((s.task t).withMutexes (o :: (s.task t).mutexList))).setObj o m) := by
    refine Lists.setObj ?_ fun _ => .inl (hs.sound.locks.policy o hmutex)
    exact hs.sound.lists.setTask_of_views rfl rfl rfl rfl rfl
  refine ⟨?_, fun u hu => ?_, ?_, ?_, ?_⟩
  · have hheld : ∀ u, (s.task u).Live → ∀ o', o' ∈ s.mutexes u ↔ o' ∈ s.mutexes u ∧ o' ≠ o := by
      refine fun u hu o' => (and_iff_left_of_imp ?_).symm
      rintro hmem rfl
      cases hfree.symm.trans ((hs.sound.locks.held_iff u o' hu).1 hmem).2
    rw [show (((s.setQueues s.queues).setTask t ((s.task t).withMutexes
        (o :: (s.task t).mutexList))).setObj o m).mutexes = _ from mutexes_update]
    exact hs.sound.give hlists hlive hlive hti rfl ((hs.sound.fine t).withMutexes _) hnone hheld
      hs.sound.locks.nodup htype howner hpolicy
  · refine KState.Settled.give ?_ ?_ (fun v hv => absurd hv (hnobody v)) rfl rfl hnone htype howner
    · rw [hwithout]
      refine hs.settled u ?_
      exact forall_setTask (P := fun v y => y.Live → (s.task v).Live) (fun _ => id)
        (fun _ => hlive) u hu
    · rw [hwithout]
      exact holder_of_not_pending (KTask.not_pending_of_rdy ht)
  · refine KState.Waits.setObj ?_ (.inl htype)
    exact hs.waits.setTask hnone
  · exact forall_setObj (P := fun _ y => y.Fine) (fun o' _ => hs.objs o')
      (.of_mutex htype fun _ => hnested)
  · exact hs.ahead.setTask (hs.ahead t)

/-- **`krhino_mutex_lock`.** The owner may lock its mutex again as long as
that can be counted. -/
theorem ensures_krhinoMutexLock [Fintype T] (hs : Ok idle s)
    (hrun : s.intrptNestedLevel = 0 → Running idle s)
    (hcount : (s.obj o).mutexTask = some s.activeTask → (s.obj o).ownerNested ≠ -1)
    (ticks : BitVec 64) :
    Ensures (krhinoMutexLock o ticks) s fun r s' =>
      Ok idle s' ∧ s.Frame s' ∧ LockMove s o s' r := by
  rw [krhinoMutexLock]
  refine ensures_notByIntrpt ⟨hs, .refl s, .fails (by decide) rfl⟩ fun hlevel => ?_
  refine ensures_ofType ⟨hs, .refl s, .fails (by decide) rfl⟩ fun hmutex => ?_
  have hrun := hrun hlevel
  rw [ensures_bind, ensures_get]
  split
  · rename_i hfree
    rw [ensures_bind, ensures_modifyObj, ensures_bind, ensures_modifyTask, ensures_pure]
    refine ⟨?_, ?_, .takes hlevel hmutex hfree rfl⟩
    · exact hs.take hrun.rdy hrun.ne_idle hmutex hfree rfl hmutex
        (hs.sound.locks.policy o hmutex) (show (1 : BitVec 32) ≠ 0 by decide)
    · exact (KState.Frame.setObj s).trans (.withMutexes _)
  · rename_i w howner
    split
    · rename_i hw
      rw [hw] at howner
      rw [if_neg (hcount howner), ensures_bind, ensures_modifyObj, ensures_pure]
      refine ⟨hs.setObj (fun t => Iff.rfl) (hs.sound.locks.policy o)
        (.of_mutex hmutex fun _ h => ?_)
        (.inr ⟨rfl, rfl, rfl⟩), .setObj s, .again hlevel hmutex howner (hcount howner) rfl⟩
      have hn : (s.obj o).ownerNested + 1 = 0 := h
      exact hcount howner (by bv_omega)
    · rename_i hw
      exact ensures_mutexLockWait hs hrun hmutex howner hw ticks

/-- A mutex of a less urgent task, whose priority is raised within `n` turns of
the loop. -/
theorem krhinoMutexLock_raises {n : ℕ} {ticks : BitVec 64} {p : KStat × KState T O}
    {q : Unit × KState T O} (hlevel : s.intrptNestedLevel = 0)
    (hmutex : (s.obj o).objType = .mutex) (howner : (s.obj o).mutexTask = some w)
    (hw : w ≠ s.activeTask) (hticks : ticks ≠ noWait) (hunlocked : s.schedLock = 0)
    (hlt : (s.task s.activeTask).prio < (s.task w).prio)
    (hloop : Cmd.iterateFor taskPriChangeTurn n (w, (s.task s.activeTask).prio) s = some p)
    (hpend : pendToBlkObj o s.activeTask ticks p.2 = some q) :
    krhinoMutexLock o ticks s = some (.pend, q.2) := by
  have hlock : Ensures (krhinoMutexLock o ticks) s fun r s' => r = .pend ∧ s' = q.2 := by
    rw [krhinoMutexLock, notByIntrpt, ensures_bind, ensures_get, if_neg (by omega), ofType,
      ensures_bind, ensures_get, if_neg (not_not.2 hmutex), ensures_bind, ensures_get, howner]
    dsimp only
    rw [if_neg hw, mutexLockWait, ensures_bind, ensures_get, if_neg hticks, if_neg (by omega)]
    dsimp only
    rw [ensures_bind, ensures_when]
    refine ⟨fun _ => ?_, fun h => absurd hlt h⟩
    rw [ensures_bind]
    refine ⟨p.1, p.2, iterate_of_iterateFor hloop, ensures_pure.2 (ensures_bind.2 ?_)⟩
    exact ⟨q.1, q.2, hpend, ensures_pure.2 ⟨rfl, rfl⟩⟩
  obtain ⟨r, s', h, rfl, rfl⟩ := hlock
  exact h

/-! ### Unlocking -/

/-- **What a call of `krhino_mutex_unlock` does**, by what it returns. -/
inductive UnlockMove (s : KState T O) (o : O) (s' : KState T O) : Ret → Prop where
  | fails {stat : KStat} (hstat : (Ret.exit stat).granted = false) (h : s' = s) :
    UnlockMove s o s' (.exit stat)
  | less (hlevel : s.intrptNestedLevel = 0) (hmutex : (s.obj o).objType = .mutex)
    (howner : (s.obj o).mutexTask = some s.activeTask) (hn : (s.obj o).ownerNested - 1 ≠ 0)
    (hobj : s'.obj = Function.update s.obj o
      ((s.obj o).withNested ((s.obj o).ownerNested - 1))) :
    UnlockMove s o s' (.exit .mutexOwnerNested)
  /-- The last unlock, of a mutex nobody waits for. -/
  | free (hlevel : s.intrptNestedLevel = 0) (hmutex : (s.obj o).objType = .mutex)
    (howner : (s.obj o).mutexTask = some s.activeTask) (hn : (s.obj o).ownerNested - 1 = 0)
    (hnobody : ∀ u, (s.task u).waitsFor ≠ some o)
    (hobj : s'.obj = Function.update s.obj o
      (((s.obj o).withNested ((s.obj o).ownerNested - 1)).withOwner none)) :
    UnlockMove s o s' (.exit .success)
  /-- The last unlock, of a mutex others wait for. -/
  | pass (hlevel : s.intrptNestedLevel = 0) (hmutex : (s.obj o).objType = .mutex)
    (howner : (s.obj o).mutexTask = some s.activeTask) (hn : (s.obj o).ownerNested - 1 = 0)
    {w : T} (hw : s.First o w)
    (hobj : s'.obj = Function.update s.obj o (((s.obj o).withOwner (some w)).withNested 1)) :
    UnlockMove s o s' (.sched .success)

/-- **What a ready task that gives `o` up leaves**: it does not hold `o` any
more, but owns it still. All are settled without it. -/
structure Released (idle t : T) (o : O) (m : KObj T) (s s' : KState T O) : Prop where
  obj : s'.obj = Function.update s.obj o m
  sound : Sound idle s.mutexes s'
  frame : s.Frame s'
  held : ∀ u, (s'.task u).Live → ∀ o', o' ∈ s'.mutexes u ↔ o' ∈ s.mutexes u ∧ o' ≠ o
  nodup : ∀ u, (s'.task u).Live → (s'.mutexes u).Nodup
  settled : ∀ u, (s'.task u).Live → s'.Settled (s'.without o) u
  waitsFor : ∀ u, (s'.task u).waitsFor = (s.task u).waitsFor
  prio : ∀ u, u ≠ t → (s'.task u).prio = (s.task u).prio
  ahead : s'.Ahead

theorem ensures_released (hs : Ok idle s) (ht : (s.task t).taskState = .rdy) (hti : t ≠ idle)
    (hmutex : (s.obj o).objType = .mutex) (howner : (s.obj o).mutexTask = some t)
    (hm : m.objType = .mutex ∧ m.mutexTask = some t) (hpolicy : m.blkPolicy = .pri) :
    Ensures (mutexRelease t (some o)) (s.setObj o m) fun _ s' => Released idle t o m s s' := by
  have hlive : (s.task t).Live := by simp [KTask.Live, ht]
  have howner' : ∀ v, m.objType = .mutex ∧ m.mutexTask = some v ↔
      (s.obj o).objType = .mutex ∧ (s.obj o).mutexTask = some v := by
    intro v
    rw [hm.1, hm.2, hmutex, howner]
  have hsame : m.blkPolicy = (s.obj o).blkPolicy :=
    hpolicy.trans (hs.sound.locks.policy o hmutex).symm
  have hsound : Sound idle s.mutexes (s.setObj o m) :=
    hs.sound.setObj howner' (fun _ => hpolicy) (.inr ⟨fun _ => hmutex, hsame⟩)
  have hkept : ∀ m, m ∈ (s.mutexes t).filter (· ≠ o) ↔ m ∈ s.mutexes t ∧ m ≠ o := by
    simp
  have hfilter : (s.task t).mutexList.filter (fun mutex => some mutex ≠ some o) =
      (s.mutexes t).filter (· ≠ o) := by
    simp [KState.mutexes]
  refine (ensures_mutexRelease_rdy (h := s.without o) hsound.lists hfilter (fun m hm => ?_)
    (fun w => ?_) ht (hs.sound.fine t).base_lt hs.sound.idle_rdy (Ne.symm hti)).mono ?_
  · obtain ⟨hmem, hmo⟩ := (hkept m).1 hm
    rw [KState.setObj_obj, Function.update_of_ne hmo]
    exact hs.sound.locks.policy m ((hs.sound.locks.held_iff t m hlive).1 hmem).1
  · rw [without_eq_some, hs.sound.locks.holder_iff hlive]
    constructor
    · rintro ⟨hwo, m, hm, hwm⟩
      refine ⟨m, (hkept m).2 ⟨hm, ?_⟩, hwm⟩
      rintro rfl
      exact hwo hwm
    · rintro ⟨m, hm, hwm⟩
      obtain ⟨hm, hmo⟩ := (hkept m).1 hm
      have hwm : (s.task w).waitsFor = some m := hwm
      exact ⟨fun hwo => hmo (Option.some.inj (hwm.symm.trans hwo)), m, hm, hwm⟩
  · rintro - s' ⟨p, hleast, hr⟩
    have hview : ∀ {β : Type} (f : KTask O → β), (∀ y l, f (y.withMutexes l) = f y) → ∀ u,
        f (((s.setObj o m).setTask t ((s.task t).withMutexes
          ((s.mutexes t).filter (· ≠ o)))).task u) = f (s.task u) := fun f hf =>
      view_withMutexes (s := s.setObj o m) f hf _
    have hwaits : ∀ u, (s'.task u).waitsFor = (s.task u).waitsFor := fun u =>
      (hr.reprios.view_eq KTask.waitsFor (fun _ _ => rfl) u).trans
        (hview KTask.waitsFor (fun _ _ => rfl) u)
    have hholder : s'.holder = s.holder := by
      refine holder_congr hwaits fun o' v => ?_
      rw [hr.reprios.obj_eq]
      exact owner_setObj howner' o' v
    have hnone : s.without o t = none := by
      rw [KState.without, holder_of_not_pending (KTask.not_pending_of_rdy ht), ite_self]
    have hmutexes : s'.mutexes = Function.update s.mutexes t ((s.mutexes t).filter (· ≠ o)) :=
      hr.reprios.mutexes_eq.trans (mutexes_update (s := s.setObj o m) (q := s.queues))
    have hlive : ∀ u, (s'.task u).Live → (s.task u).Live := fun u hu =>
      (iff_of_eq (hview KTask.Live (fun _ _ => rfl) u)).1 (hr.reprios.live_iff.1 hu)
    refine ⟨hr.reprios.obj_eq, hr.reprios.sound (hsound.withMutexes hti _), ?_, fun u hu o' => ?_,
      fun u hu => ?_, fun u hu => ?_, hwaits, fun u hut => ?_, hr.reprios.ahead ?_⟩
    · refine KState.Frame.trans ?_ hr.reprios.frame
      exact (KState.Frame.setObj s).trans (.withMutexes _)
    · rw [hmutexes]
      exact hs.sound.locks.mem_unlinked hmutex howner (hlive u hu) o'
    · rw [hmutexes]
      exact hs.sound.locks.nodup_unlinked (hlive u hu)
    · rw [without_congr hwaits hholder]
      refine hr.settled_of_ne ?_ (by rw [hnone]; rintro ⟨⟩) (fun hut => ?_)
        (by rw [hnone]; rintro ⟨⟩)
      · have hclaims := claims_setTask (s := s.setObj o m) (q := s.queues) (h := s.without o)
          (u := t)
          (t := t) (x := (s.task t).withMutexes ((s.mutexes t).filter (· ≠ o))) rfl rfl
        exact hclaims ▸ hleast
      · refine (settled_congr (hview KTask.prio fun _ _ => rfl)
          (hview KTask.bPrio fun _ _ => rfl)).2 ?_
        refine KState.Settled.without (hs.settled u (hlive u hu)) fun v hv hvu => ?_
        have hvt : s.holder v = some t := holder_eq_some.2 ⟨o, hv, hmutex, howner⟩
        exact hut (Option.some.inj (hvu.symm.trans hvt))
    · exact (hr.prio_of_ne hut).trans (hview KTask.prio (fun _ _ => rfl) u)
    · exact hs.ahead.setTask (q := s.queues) (hs.ahead t)

omit [DecidableEq T] in
theorem Released.waits (hrel : Released idle t o m s s') (hs : s.Waits) (hm : m.objType = .mutex) :
    s'.Waits := by
  intro u o' hu
  rw [hrel.waitsFor] at hu
  rw [hrel.obj]
  by_cases ho : o' = o
  · subst ho
    rw [Function.update_self]
    exact .inl hm
  · rw [Function.update_of_ne ho]
    exact hs u o' hu

omit [DecidableEq T] in
theorem Released.objs (hrel : Released idle t o m s s') (hs : ∀ o, (s.obj o).Fine) (o' : O)
    (ho : o' ≠ o) : (s'.obj o').Fine := by
  rw [hrel.obj, Function.update_of_ne ho]
  exact hs o'

omit [DecidableEq T] in
/-- Nobody waits for the mutex: it is free. -/
theorem Released.free (hrel : Released idle t o m s s') (hs : Ok idle s) (hm : m.objType = .mutex)
    (hnobody : ∀ u, (s'.task u).waitsFor ≠ some o) {m' : KObj T} (htype : m'.objType = .mutex)
    (howner : m'.mutexTask = none) (hpolicy : m'.blkPolicy = .pri) :
    Ok idle (s'.setObj o m') := by
  have hholder : (s'.setObj o m').holder = s'.without o :=
    holder_drop (fun _ => rfl) rfl fun _ => hnobody
  refine ⟨⟨hrel.sound.lists.setObj fun _ => .inr hnobody, ?_, hrel.sound.fine,
    hrel.sound.idle_rdy, hrel.sound.idle_free, hrel.sound.idle_base, hrel.sound.base_lt⟩,
    fun u hu => ?_, (hrel.waits hs.waits hm).setObj (.inl htype),
    forall_setObj (P := fun _ y => y.Fine) (hrel.objs hs.objs) ?_, hrel.ahead⟩
  · exact hrel.sound.locks.drop hrel.held hrel.nodup (fun _ => Iff.rfl) (fun _ => rfl) rfl
      fun _ => ⟨howner, hpolicy, hnobody⟩
  · rw [hholder]
    exact hrel.settled u hu
  · exact .of_mutex htype fun h => absurd howner h

/-- The mutex goes to the first in line. -/
theorem Released.pass (hrel : Released idle t o m s s') (hs : Ok idle s) (hm : m.objType = .mutex)
    (hw : s'.First o w) {m' : KObj T} (htype : m'.objType = .mutex)
    (howner : m'.mutexTask = some w) (hpolicy : m'.blkPolicy = .pri) (hnested : m'.ownerNested ≠ 0)
    (hl : Lists (((s'.setQueues q).setTask w ((s'.task w).handed o)).setObj o m')) :
    Ok idle (((s'.setQueues q).setTask w ((s'.task w).handed o)).setObj o m') := by
  have hpend := (KTask.waitsFor_eq_some.1 hw.waits).1
  have hkeeps := KTask.keeps_woken (b := .finish) hpend
  have hnone : ((s'.task w).handed o).waitsFor = none := KTask.waitsFor_woken (b := .finish)
  have hfine : ((s'.task w).handed o).Fine :=
    (KTask.fine_woken hpend (hrel.sound.fine w)).withMutexes _
  have hwi : w ≠ idle := by
    rintro rfl
    exact hpend.ne_rdy hrel.sound.idle_rdy
  refine ⟨?_, fun u hu => ?_, ?_, forall_setObj (P := fun _ y => y.Fine) (hrel.objs hs.objs)
    (.of_mutex htype fun _ => hnested), ?_⟩
  · have hmutexes : (((s'.setQueues q).setTask w ((s'.task w).handed o)).setObj o m').mutexes =
        Function.update s'.mutexes w (o :: s'.mutexes w) := mutexes_update
    rw [hmutexes]
    exact hrel.sound.give hl hkeeps.live hpend.live hwi rfl hfine hnone hrel.held hrel.nodup htype
      howner hpolicy
  · refine KState.Settled.give (hrel.settled u ?_) (if_pos hw.waits) hw.le rfl rfl hnone
      htype howner
    exact forall_setTask (P := fun v y => y.Live → (s'.task v).Live) (fun _ => id)
      (fun _ => hpend.live) u hu
  · refine KState.Waits.setObj ?_ (.inl htype)
    exact (hrel.waits hs.waits hm).setTask hnone
  · refine hrel.ahead.setTask ?_
    rintro ⟨⟩

/-- **The last unlock.** -/
theorem ensures_mutexUnlockLast (hs : Ok idle s) (hrun : Running idle s)
    (hmutex : (s.obj o).objType = .mutex) (howner : (s.obj o).mutexTask = some s.activeTask)
    (hn : (s.obj o).ownerNested - 1 = 0) :
    Ensures (mutexUnlockLast o) (s.setObj o ((s.obj o).withNested ((s.obj o).ownerNested - 1)))
      fun r s' => Ok idle s' ∧ s.Moved s' none none ∧ UnlockMove s o s' r := by
  have hpolicy := hs.sound.locks.policy o hmutex
  rw [mutexUnlockLast, ensures_bind, ensures_get]
  refine (ensures_released (m := (s.obj o).withNested ((s.obj o).ownerNested - 1)) hs hrun.rdy
    hrun.ne_idle hmutex howner ⟨hmutex, howner⟩ hpolicy).bind ?_
  intro _ s₁ hrel
  have hself : s₁.obj o = (s.obj o).withNested ((s.obj o).ownerNested - 1) := by
    rw [hrel.obj, Function.update_self]
  rw [ensures_bind, ensures_get]
  split
  · rename_i hnil
    have hnobody := hrel.sound.lists.blkList_nil.1 hnil
    rw [ensures_bind, ensures_modifyObj, ensures_pure, hself]
    refine ⟨hrel.free hs hmutex hnobody hmutex rfl hpolicy, (hrel.frame.trans (.setObj s₁)).moved,
      .free hrun.level hmutex howner hn (fun u => ?_) ?_⟩
    · rw [← hrel.waitsFor]
      exact hnobody u
    · rw [KState.setObj_obj, hrel.obj, Function.update_idem]
  · rename_i w l hlist
    have hfirst : s₁.First o w := hrel.sound.lists.first (by rw [hself]; exact hpolicy) hlist
    have hw : (s.task w).waitsFor = some o := (hrel.waitsFor w).symm.trans hfirst.waits
    have hpend := (KTask.waitsFor_eq_some.1 hfirst.waits).1
    have hfirst₀ : s.First o w := by
      refine ⟨hw, fun v hv => ?_⟩
      -- the priority of the owner alone has changed, and it does not wait
      have hne : ∀ v, (s.task v).waitsFor = some o → v ≠ s.activeTask := by
        rintro v hv rfl
        cases (KTask.waitsFor_of_not_pending (KTask.not_pending_of_rdy hrun.rdy)).symm.trans hv
      rw [← hrel.prio w (hne w hw), ← hrel.prio v (hne v hv)]
      exact hfirst.le v ((hrel.waitsFor v).trans hv)
    refine (ensures_mutexHandOver (f := fun m => m.withNested 1) hrel.sound.lists hfirst.waits
      fun _ => rfl).bind ?_
    rintro - s₂ ⟨q, rfl, hl⟩
    rw [hself] at hl
    rw [ensures_pure, hself]
    refine ⟨hrel.pass hs hmutex hfirst hmutex rfl hpolicy (show (1 : BitVec 32) ≠ 0 by decide) hl,
      ?_, ?_⟩
    · refine hrel.frame.moved_of_fate (KTask.waitsFor_eq_some.1 hw).1
        (KTask.told_handed hpend).free ?_
      refine .handed hfirst₀ ?_ ?_ ?_
      · rw [KState.setObj_obj, Function.update_self]
        exact hmutex
      · rw [KState.setObj_obj, Function.update_self]
        rfl
      · rw [KState.setObj_task, KState.setTask_task, Function.update_self]
        exact KTask.told_handed hpend
    · refine .pass hrun.level hmutex howner hn hfirst₀ ?_
      rw [KState.setObj_obj, KState.setTask_obj, KState.setQueues_obj, hrel.obj,
        Function.update_idem]
      rfl

/-- **`krhino_mutex_unlock`.** -/
theorem ensures_krhinoMutexUnlock (hs : Ok idle s)
    (hrun : s.intrptNestedLevel = 0 → (s.task s.activeTask).taskState = .rdy) :
    Ensures (krhinoMutexUnlock o) s fun r s' =>
      Ok idle s' ∧ s.Moved s' none none ∧ UnlockMove s o s' r := by
  rw [krhinoMutexUnlock]
  refine ensures_notByIntrpt ⟨hs, .refl s, .fails (by decide) rfl⟩ fun hlevel => ?_
  refine ensures_ofType ⟨hs, .refl s, .fails (by decide) rfl⟩ fun hmutex => ?_
  rw [ensures_bind, ensures_get]
  split
  · exact ensures_pure.2 ⟨hs, .refl s, .fails (by decide) rfl⟩
  · rename_i howner
    have howner := not_not.1 howner
    rw [ensures_bind, ensures_modifyObj]
    split
    · rename_i hn
      refine ensures_pure.2 ⟨hs.setObj (fun _ => Iff.rfl) (hs.sound.locks.policy o)
        (.of_mutex hmutex fun _ => hn) (.inr ⟨rfl, rfl, rfl⟩), (KState.Frame.setObj s).moved,
        .less hlevel hmutex howner hn rfl⟩
    · rename_i hn
      exact ensures_mutexUnlockLast hs ⟨hrun hlevel, hs.sound.static.owner_ne hmutex howner, hlevel⟩
        hmutex howner (not_not.1 hn)

end Hgsdk.Rhino

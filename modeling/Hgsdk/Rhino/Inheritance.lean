import Hgsdk.Rhino.PriChange
import Mathlib.Algebra.BigOperators.Group.Finset.Basic
import Mathlib.Algebra.Order.BigOperators.Group.Finset
import Mathlib.Data.Fintype.Basic
/-!
# Priority inheritance

`task_pri_change` walks from a task that is given a new priority up the
chain of owners. Its loop always has at most one task that is not settled:
the one it is about to change, together with the priority that will settle
it (`ensures_taskPriChangeTurn`). So it ends with every task settled. It
does end: while it raises, every turn lowers one of finitely many numbers,
and while it lowers, every turn raises one. Nothing is assumed about the
chain, which is a circle when tasks have locked each other out.
-/

namespace Hgsdk.Rhino

variable {T O : Type} [DecidableEq T] [DecidableEq O]
variable {s s' : KState T O} {idle t u w : T} {o : O} {p r : ℕ} {h : T → Option T}

/-! ### Other priorities -/

/-- `s` with other queues and other priorities. -/
def KState.setPrios (s : KState T O) (q : Queues T O) (prio : T → ℕ) : KState T O :=
  { s with queues := q, task := fun u => (s.task u).withPrio (prio u) }

/-- **`s'` is `s` with other priorities**, the queues holding what they
should. The tick list is as it was. -/
def KState.Reprios (s s' : KState T O) : Prop :=
  ∃ q prio, s' = s.setPrios q prio ∧ q.tickHead = s.queues.tickHead ∧ Lists s'

/-- What a change of priorities finds and leaves: the locks, the records,
and an idle task that is ready and holds nothing. -/
structure Static (idle : T) (s : KState T O) : Prop where
  locks : Locks s.mutexes s
  fine : ∀ t, (s.task t).Fine
  idle_rdy : (s.task idle).taskState = .rdy
  idle_free : (s.task idle).mutexList = []

omit [DecidableEq T] [DecidableEq O] in
/-- The idle task owns nothing. -/
theorem Static.owner_ne (hs : Static idle s) (ho : (s.obj o).objType = .mutex)
    (ht : (s.obj o).mutexTask = some t) : t ≠ idle := by
  rintro rfl
  have hmem := (hs.locks.held_iff t o (hs.locks.owner_live o t ho ht)).2 ⟨ho, ht⟩
  rw [KState.mutexes, hs.idle_free] at hmem
  exact List.not_mem_nil hmem

namespace KState.Reprios

omit [DecidableEq T] [DecidableEq O]

theorem refl (hl : Lists s) : s.Reprios s :=
  ⟨s.queues, fun u => (s.task u).prio, rfl, rfl, hl⟩

theorem trans {s₁ s₂ : KState T O} (h₁ : s.Reprios s₁) (h₂ : s₁.Reprios s₂) : s.Reprios s₂ := by
  obtain ⟨q₁, prio₁, rfl, hq₁, -⟩ := h₁
  obtain ⟨q₂, prio₂, rfl, hq₂, hl⟩ := h₂
  exact ⟨q₂, prio₂, rfl, hq₂.trans hq₁, hl⟩

theorem lists (hr : s.Reprios s') : Lists s' := by
  obtain ⟨q, prio, -, -, hl⟩ := hr
  exact hl

/-- What does not depend on the priority is as it was. -/
theorem view_eq (hr : s.Reprios s') {β : Type} (f : KTask O → β)
    (hf : ∀ x r, f (x.withPrio r) = f x) (u : T) : f (s'.task u) = f (s.task u) := by
  obtain ⟨q, prio, rfl, -, -⟩ := hr
  exact hf _ _

theorem obj_eq (hr : s.Reprios s') : s'.obj = s.obj := by
  obtain ⟨q, prio, rfl, -, -⟩ := hr
  rfl

theorem base_eq (hr : s.Reprios s') : (fun u => (s'.task u).bPrio) = fun u => (s.task u).bPrio :=
  funext fun u => hr.view_eq KTask.bPrio (fun _ _ => rfl) u

theorem holder_eq (hr : s.Reprios s') : s'.holder = s.holder := by
  funext u
  unfold KState.holder
  rw [hr.view_eq KTask.waitsFor (fun _ _ => rfl), hr.obj_eq]

theorem live_iff (hr : s.Reprios s') : (s'.task u).Live ↔ (s.task u).Live := by
  unfold KTask.Live
  rw [hr.view_eq KTask.taskState (fun _ _ => rfl)]

theorem mutexes_eq (hr : s.Reprios s') : s'.mutexes = s.mutexes :=
  funext (hr.view_eq KTask.mutexList fun _ _ => rfl)

theorem fine (hr : s.Reprios s') (hu : (s.task u).Fine) : (s'.task u).Fine := by
  obtain ⟨q, prio, rfl, -, -⟩ := hr
  exact hu.withPrio (prio u)

theorem static (hr : s.Reprios s') (hs : Static idle s) : Static idle s' := by
  refine ⟨?_, fun u => hr.fine (hs.fine u), ?_, (congrFun hr.mutexes_eq idle).trans hs.idle_free⟩
  · rw [hr.mutexes_eq]
    refine hs.locks.congr (fun u => hr.live_iff) (fun u o hu _ => .inl ?_) hr.obj_eq
    rwa [hr.view_eq KTask.waitsFor fun _ _ => rfl] at hu
  · rw [hr.view_eq KTask.taskState fun _ _ => rfl]
    exact hs.idle_rdy

end KState.Reprios

/-! ### One task is set to another priority -/

/-- `s` with `t` set to the priority `p`. -/
structure KState.Reprio (s : KState T O) (t : T) (p : ℕ) (s' : KState T O) : Prop where
  reprios : s.Reprios s'
  prio_eq : (fun u => (s'.task u).prio) = Function.update (fun u => (s.task u).prio) t p

omit [DecidableEq O] in
theorem reprio_setTask {q : Queues T O} (hq : q.tickHead = s.queues.tickHead)
    (hl : Lists ((s.setQueues q).setTask t ((s.task t).withPrio p))) :
    s.Reprio t p ((s.setQueues q).setTask t ((s.task t).withPrio p)) := by
  have hprio : (fun u => (((s.setQueues q).setTask t ((s.task t).withPrio p)).task u).prio) =
      Function.update (fun u => (s.task u).prio) t p := by
    funext u
    by_cases hut : u = t
    · subst hut
      simp
    · simp [hut]
  refine ⟨⟨q, Function.update (fun u => (s.task u).prio) t p, ?_, hq, hl⟩, hprio⟩
  rw [← hprio]
  have htask : ((s.setQueues q).setTask t ((s.task t).withPrio p)).task = fun u =>
      (s.task u).withPrio (((s.setQueues q).setTask t ((s.task t).withPrio p)).task u).prio := by
    funext u
    by_cases hut : u = t
    · subst hut
      simp
    · simp only [KState.setTask_task, Function.update_of_ne hut]
      rfl
  exact congrArg (fun f => ({ s with queues := q, task := f } : KState T O)) htask

namespace KState.Reprio

omit [DecidableEq O]

theorem settled_iff (hr : s.Reprio t p s') : s'.Settled h u ↔
    Inherit.Settled (fun u => (s.task u).bPrio) h
      (Function.update (fun u => (s.task u).prio) t p) u := by
  rw [KState.Settled, hr.prio_eq, hr.reprios.base_eq]

theorem claims_eq (hr : s.Reprio t p s') : s'.claims h u =
    Inherit.claims (fun u => (s.task u).bPrio) h
      (Function.update (fun u => (s.task u).prio) t p) u := by
  rw [KState.claims, hr.prio_eq, hr.reprios.base_eq]

theorem prio_self (hr : s.Reprio t p s') : (s'.task t).prio = p :=
  (congrFun hr.prio_eq t).trans (Function.update_self ..)

theorem prio_of_ne (hr : s.Reprio t p s') (hut : u ≠ t) : (s'.task u).prio = (s.task u).prio :=
  (congrFun hr.prio_eq u).trans (Function.update_of_ne hut ..)

/-- The task that is set is settled, and so is every other that it does not
wait for. -/
theorem settled_of_ne (hr : s.Reprio t p s') (hleast : IsLeast (s.claims h t) p)
    (hself : h t ≠ some t) (hrest : u ≠ t → s.Settled h u) (hu : h t ≠ some u) :
    s'.Settled h u := by
  rw [hr.settled_iff]
  by_cases hut : u = t
  · subst hut
    exact Inherit.settled_update_self hself hleast
  · exact (hrest hut).update_of_ne hut hu

end KState.Reprio

omit [DecidableEq O] in
/-- A ready task goes into the list of its new priority. -/
theorem ensures_readyListMove (hl : Lists s) (ht : (s.task t).taskState = .rdy)
    (hu : (s.task u).taskState = .rdy) (hut : u ≠ t) (hp : p < priMax) :
    Ensures (readyListMove t p) s fun _ s' => s.Reprio t p s' := by
  rw [readyListMove]
  refine (ensures_readyListRm (u := u) (p := (s.task u).prio) hl.holds
    (KTask.readyAt_of_rdy ht) (KTask.readyAt_of_rdy hu) hut).bind ?_
  rintro - s₁ ⟨rq, rfl, h₁⟩
  rw [ensures_bind, ensures_modifyTask]
  have hnone : (KTask.waitsFor ∘ s.task) t = none :=
    KTask.waitsFor_of_not_pending (KTask.not_pending_of_rdy ht)
  -- whatever end of its list the task goes to
  have hdone : ∀ s₂, Requeued ((s.setQueues { s.queues with readyQueue := rq }).setTask t
        ((s.task t).withPrio p))
      (Function.update (Function.update (KTask.readyAt ∘ s.task) t none) t (some p))
      (KTask.waitsFor ∘ s.task) (KTask.tickHead ∘ s.task) s₂ → s.Reprio t p s₂ := by
    rintro s₂ ⟨rq', rfl, h₂⟩
    refine reprio_setTask rfl (hl.setTask ?_ hp (fun o ho => ?_)
      (hl.due.setTask (.inl rfl) (List.Sublist.refl _)))
    · have hready : ((s.task t).withPrio p).readyAt = some p := KTask.readyAt_of_rdy ht
      rw [Function.update_idem] at h₂
      rw [hready, update_view (KTask.waitsFor_withPrio _ p),
        update_view (KTask.tickHead_withPrio _ p)]
      exact h₂
    · refine pairwise_setTask KTask.prio (hl.sorted o ho) (.inr fun hmem => ?_)
      cases hnone.symm.trans (hl.mem_blkList.1 hmem)
  rw [readyListBack, ensures_bind, ensures_get]
  have hprio : (((s.setQueues { s.queues with readyQueue := rq }).setTask t
      ((s.task t).withPrio p)).task t).prio = p := by simp
  split
  · refine (ensures_readyListAddHead (s := (s.setQueues _).setTask t _) h₁
      (Function.update_self ..) (hprio.trans_lt hp)).mono fun _ s₂ h₂ => ?_
    exact hdone s₂ (by rwa [hprio] at h₂)
  · refine (ensures_readyListAddTail (s := (s.setQueues _).setTask t _) h₁
      (Function.update_self ..) (hprio.trans_lt hp)).mono fun _ s₂ h₂ => ?_
    exact hdone s₂ (by rwa [hprio] at h₂)

omit [DecidableEq O] in
/-- A task that is neither ready nor blocked is in no list its priority
matters for. -/
theorem Lists.reprio (hl : Lists s) (hrdy : (s.task t).taskState ≠ .rdy)
    (hpend : ¬ (s.task t).Pending) (hp : p < priMax) :
    s.Reprio t p ((s.setQueues s.queues).setTask t ((s.task t).withPrio p)) := by
  refine reprio_setTask rfl (hl.setTask ?_ hp (fun o ho => ?_)
    (hl.due.setTask (.inl rfl) (List.Sublist.refl _)))
  · rw [update_view (KTask.readyAt_withPrio_of_ne hrdy p),
      update_view (KTask.waitsFor_withPrio _ p),
      update_view (KTask.tickHead_withPrio _ p)]
    exact hl.holds
  · refine pairwise_setTask KTask.prio (hl.sorted o ho) (.inr fun hmem => ?_)
    cases (KTask.waitsFor_of_not_pending hpend).symm.trans (hl.mem_blkList.1 hmem)

/-! ### One turn of the loop -/

/-- **Where the loop stands**, having come from `s`: one task may be
unsettled, and the loop has what will settle it. -/
structure Walk (idle : T) (h : T → Option T) (s : KState T O) (loop : T × ℕ)
    (s' : KState T O) : Prop where
  reprios : s.Reprios s'
  live : (s.task loop.1).Live
  ne_idle : loop.1 ≠ idle
  least : IsLeast (s'.claims h loop.1) loop.2
  rest : ∀ u, (s.task u).Live → u ≠ loop.1 → s'.Settled h u

omit [DecidableEq T] [DecidableEq O] in
theorem Walk.trans {loop : T × ℕ} {s₁ s₂ : KState T O} (hr : s.Reprios s₁)
    (hw : Walk idle h s₁ loop s₂) : Walk idle h s loop s₂ where
  reprios := hr.trans hw.reprios
  live := hr.live_iff.1 hw.live
  ne_idle := hw.ne_idle
  least := hw.least
  rest u hu := hw.rest u (hr.live_iff.2 hu)

/-- What a turn that has set `t` to `p` leaves: no task unsettled, or one.
The loop goes on raising, to the same priority, or goes on lowering. -/
def Turned (idle : T) (h : T → Option T) (s : KState T O) (t : T) (p : ℕ) (r : PriLoop T)
    (s' : KState T O) : Prop :=
  match r with
  | .inr stat => stat = .success ∧ ∀ u, (s.task u).Live → s'.Settled h u
  | .inl loop =>
    Walk idle h s loop s' ∧
      (p < (s.task t).prio → loop.2 = p ∧ p < (s'.task loop.1).prio) ∧
      ((s.task t).prio < p → (s'.task loop.1).prio < loop.2)

omit [DecidableEq O] in
/-- A turn that ends the loop at a task that waits for nobody. -/
theorem turned_of_none (hr : s.Reprio t p s') (hleast : IsLeast (s.claims h t) p)
    (hrest : ∀ u, (s.task u).Live → u ≠ t → s.Settled h u) (hnone : h t = none) :
    Turned idle h s t p (.inr .success) s' := by
  refine ⟨rfl, fun u hu => hr.settled_of_ne hleast ?_ (hrest u hu) ?_⟩
  · rw [hnone]
    exact Option.some_ne_none t ∘ Eq.symm
  · rw [hnone]
    exact Option.some_ne_none u ∘ Eq.symm

/-- The turn for the owner. -/
theorem ensures_ownerTurn (hr : s.Reprio t p s') (hs : Static idle s)
    (hleast : IsLeast (s.claims h t) p)
    (hrest : ∀ u, (s.task u).Live → u ≠ t → s.Settled h u) (howner : h t = some w)
    (hwt : w ≠ t) (hw : (s.task w).Live) (hwi : w ≠ idle)
    (hmode : p < (s.task t).prio ∨ h = s.holder) :
    Ensures (ownerTurn w (s.task t).prio p) s' fun r s'' =>
      s'' = s' ∧ Turned idle h s t p r s' := by
  have hwp : (s'.task w).prio = (s.task w).prio := hr.prio_of_ne hwt
  have hold := hrest w hw hwt
  have hle : (s.task w).prio ≤ (s.task t).prio := hold.le_of_holder howner
  have hself : h t ≠ some t := by
    rw [howner]
    exact fun h => hwt (Option.some.inj h)
  -- every task but the owner is settled
  have hothers : ∀ u, (s.task u).Live → u ≠ w → s'.Settled h u := by
    intro u hu huw
    refine hr.settled_of_ne hleast hself (hrest u hu) ?_
    rw [howner]
    exact fun h => huw (Option.some.inj h).symm
  -- what waits for the owner and was not set is less urgent than it
  have hwait : ∀ v, h v = some w → v ≠ t →
      (s.task w).prio ≤ Function.update (fun u => (s.task u).prio) t p v := by
    intro v hv hvt
    rw [Function.update_of_ne hvt]
    exact hold.le_of_holder hv
  rw [ownerTurn, ensures_bind, ensures_get, hwp]
  dsimp only
  split
  · rename_i hlt
    refine ensures_pure.2 ⟨rfl, ⟨hr.reprios, hw, hwi, ?_, hothers⟩, fun _ => ⟨rfl, by rwa [hwp]⟩,
      fun hgt => ?_⟩
    · rw [hr.claims_eq]
      have hraise : IsLeast (Inherit.claims (fun u => (s.task u).bPrio) h
          (Function.update (fun u => (s.task u).prio) t p) w)
          (Function.update (fun u => (s.task u).prio) t p t) := by
        refine Inherit.isLeast_claims_of_lt hold howner ?_ hwait
        rw [Function.update_self]
        exact hlt.le
      rwa [Function.update_self] at hraise
    · omega
  · rename_i hge
    split
    · rename_i heq
      have hholder : h = s.holder := hmode.resolve_left (by omega)
      refine (ensures_mutexPriLook_none hr.reprios.lists (hr.reprios.static hs).locks
        (hr.reprios.live_iff.2 hw)).bind ?_
      rintro p' s'' ⟨rfl, hfound⟩
      rw [hr.reprios.holder_eq, ← hholder] at hfound
      split
      · rename_i hne
        refine ensures_pure.2 ⟨rfl, ⟨hr.reprios, hw, hwi, hfound, hothers⟩, fun hlt => ?_,
          fun hgt => ?_⟩
        · omega
        · -- what urges the owner has only become less urgent
          rw [hwp]
          refine lt_of_le_of_ne ?_ (Ne.symm hne)
          rw [hr.claims_eq] at hfound
          rcases (Inherit.isLeast_claims_iff.1 hfound).1 with hbase | ⟨v, hv, hprio⟩
          · rw [hbase]
            exact hold.le_base
          · rw [← hprio]
            by_cases hvt : v = t
            · subst hvt
              rw [Function.update_self]
              omega
            · exact hwait v hv hvt
      · rename_i hsame
        refine ensures_pure.2 ⟨rfl, rfl, fun u hu => ?_⟩
        by_cases huw : u = w
        · subst huw
          have hp' : p' = (s''.task u).prio := (not_not.1 hsame).trans hwp.symm
          rw [hp'] at hfound
          exact hfound
        · exact hothers u hu huw
    · rename_i hne
      refine ensures_pure.2 ⟨rfl, rfl, fun u hu => ?_⟩
      by_cases huw : u = w
      · subst huw
        rw [hr.settled_iff]
        refine hold.mono (Function.update_of_ne hwt _ _) (fun v hv hprio => ⟨hv, ?_⟩) fun v hv => ?_
        · refine Function.update_of_ne ?_ _ _
          rintro rfl
          exact hne hprio.symm
        · by_cases hvt : v = t
          · subst hvt
            rw [Function.update_self]
            exact Nat.not_lt.1 hge
          · exact hwait v hv hvt
      · exact hothers u hu huw

/-- **One turn of the loop** settles the task it is at. -/
theorem ensures_taskPriChangeTurn (hl : Lists s) (hs : Static idle s) (ht : (s.task t).Live)
    (hti : t ≠ idle) (hleast : IsLeast (s.claims h t) p)
    (hrest : ∀ u, (s.task u).Live → u ≠ t → s.Settled h u) (hagree : h t = s.holder t)
    (hmode : p < (s.task t).prio ∨ h = s.holder) (hne : (s.task t).prio ≠ p) :
    Ensures (taskPriChangeTurn (t, p)) s fun r s' =>
      s.Reprio t p s' ∧ Turned idle h s t p r s' := by
  have hp : p < priMax :=
    (hleast.2 (Set.mem_insert _ _)).trans_lt (hs.fine t).base_lt
  rw [taskPriChangeTurn, ensures_bind, ensures_get]
  dsimp only
  rw [if_neg hne]
  have hnone : ¬ (s.task t).Pending → h t = none := by
    intro hpend
    rw [hagree, holder_of_not_pending hpend]
  -- a task that is neither ready nor blocked
  have hother : (s.task t).taskState ≠ .rdy → ¬ (s.task t).Pending →
      Ensures (do
        modifyTask t fun x => x.withPrio p
        return .inr .success) s fun r s' => s.Reprio t p s' ∧ Turned idle h s t p r s' := by
    intro hrdy hpend
    have hr := hl.reprio hrdy hpend hp
    rw [ensures_bind, ensures_modifyTask, ensures_pure]
    exact ⟨hr, turned_of_none hr hleast hrest (hnone hpend)⟩
  -- a blocked task
  have hblocked : (s.task t).Pending →
      Ensures (do
        modifyTask t fun x => x.withPrio p
        pendListReorder t
        let obj ← Cmd.deref (s.task t).blkObj
        if (s.obj obj).objType = .mutex then
          let mutexTask ← Cmd.deref (s.obj obj).mutexTask
          ownerTurn mutexTask (s.task t).prio p
        else return .inr .success) s fun r s' =>
          s.Reprio t p s' ∧ Turned idle h s t p r s' := by
    intro hpend
    obtain ⟨o, ho⟩ := (hs.fine t).pend_obj hpend
    have hw : (s.task t).waitsFor = some o := KTask.waitsFor_eq_some.2 ⟨hpend, ho⟩
    rw [ensures_bind, ensures_modifyTask]
    refine (ensures_pendListReorder hl hw hp).bind ?_
    rintro - _ ⟨q, rfl, hq, hl'⟩
    have hr := reprio_setTask hq hl'
    rw [ensures_bind, ensures_deref]
    refine ⟨o, ho, ?_⟩
    split
    · rename_i hmutex
      obtain ⟨w, hwo, hwt⟩ := hs.locks.owned t o hw hmutex
      have hwl := hs.locks.owner_live o w hmutex hwo
      have hwi : w ≠ idle := hs.owner_ne hmutex hwo
      have howner : h t = some w := hagree.trans (holder_eq_some.2 ⟨o, hw, hmutex, hwo⟩)
      rw [ensures_bind, ensures_deref]
      refine ⟨w, hwo, ?_⟩
      refine (ensures_ownerTurn hr hs hleast hrest howner hwt hwl hwi hmode).mono ?_
      rintro r s'' ⟨rfl, hturned⟩
      exact ⟨hr, hturned⟩
    · rename_i hmutex
      refine ensures_pure.2 ⟨hr, turned_of_none hr hleast hrest ?_⟩
      rw [hagree, KState.holder, hw, Option.bind_some, if_neg hmutex]
  cases hst : (s.task t).taskState with
  | rdy =>
    refine (ensures_readyListMove hl hst hs.idle_rdy (Ne.symm hti) hp).bind fun _ s' hr => ?_
    exact ensures_pure.2 ⟨hr, turned_of_none hr hleast hrest
      (hnone (KTask.not_pending_of_rdy hst))⟩
  | sleep => exact hother (by simp [hst]) (by simp [KTask.Pending, hst])
  | suspended => exact hother (by simp [hst]) (by simp [KTask.Pending, hst])
  | sleepSuspended => exact hother (by simp [hst]) (by simp [KTask.Pending, hst])
  | pend => exact hblocked (.inl hst)
  | pendSuspended => exact hblocked (.inr hst)
  | seed => exact absurd hst ht.1
  | deleted => exact absurd hst ht.2

/-! ### The loop -/

omit [DecidableEq O] in
/-- What a change of one priority takes off a sum over all. -/
theorem KState.Reprio.sum_lt [Fintype T] (hr : s.Reprio t p s') (f : ℕ → ℕ)
    (hf : f p < f (s.task t).prio) : ∑ u, f (s'.task u).prio < ∑ u, f (s.task u).prio := by
  refine Finset.sum_lt_sum (fun u _ => ?_) ⟨t, Finset.mem_univ t, ?_⟩
  · by_cases hut : u = t
    · subst hut
      rw [hr.prio_self]
      exact hf.le
    · rw [hr.prio_of_ne hut]
  · rwa [hr.prio_self]

variable [Fintype T]

/-- **Raising.** `h` may differ from who waits for whom at tasks that are as
urgent already as the task is raised to: so a task that is about to wait can
be counted in. -/
theorem ensures_taskPriChange_raise (hl : Lists s) (hs : Static idle s) (ht : (s.task t).Live)
    (hti : t ≠ idle) (hleast : IsLeast (s.claims h t) p)
    (hrest : ∀ u, (s.task u).Live → u ≠ t → s.Settled h u)
    (hagree : ∀ u, p < (s.task u).prio → h u = s.holder u) (hlt : p < (s.task t).prio) :
    Ensures (taskPriChange t p) s fun stat s' => stat = .success ∧ s.Reprios s' ∧
      (∀ u, (s.task u).Live → s'.Settled h u) ∧
      ∀ u, (s.task u).prio ≤ p → (s'.task u).prio = (s.task u).prio := by
  refine ensures_iterate (fun loop s₁ => Walk idle h s loop s₁ ∧ loop.2 = p ∧
      p < (s₁.task loop.1).prio ∧
      ∀ u, (s.task u).prio ≤ p → (s₁.task u).prio = (s.task u).prio)
    (fun _ s₁ => ∑ u, (s₁.task u).prio) ?_
    ⟨⟨.refl hl, ht, hti, hleast, hrest⟩, rfl, hlt, fun _ _ => rfl⟩
  rintro ⟨v, p'⟩ s₁ ⟨hw, rfl, hlt, hsame⟩
  have hvp : p' < (s.task v).prio := by
    by_contra hle
    exact absurd hlt (Nat.not_lt.2 ((hsame v (Nat.not_lt.1 hle)).trans_le (Nat.not_lt.1 hle)))
  have hturn := ensures_taskPriChangeTurn hw.reprios.lists (hw.reprios.static hs)
    (hw.reprios.live_iff.2 hw.live) hw.ne_idle hw.least
    (fun u hu => hw.rest u (hw.reprios.live_iff.1 hu))
    ((hagree v hvp).trans (congrFun hw.reprios.holder_eq v).symm) (.inl hlt) hlt.ne'
  refine hturn.mono fun r s₂ hr => ?_
  obtain ⟨hr, hturned⟩ := hr
  have hsame₂ : ∀ u, (s.task u).prio ≤ p' → (s₂.task u).prio = (s.task u).prio := by
    intro u hu
    rw [hr.prio_of_ne, hsame u hu]
    rintro rfl
    exact Nat.not_le.2 hvp hu
  cases r with
  | inl loop =>
    obtain ⟨hw', hraise, -⟩ := hturned
    obtain ⟨hp, hlt'⟩ := hraise hlt
    exact ⟨⟨hw'.trans hw.reprios, hp, hlt', hsame₂⟩, hr.sum_lt id hlt⟩
  | inr stat =>
    obtain ⟨rfl, hall⟩ := hturned
    exact ⟨rfl, hw.reprios.trans hr.reprios, fun u hu => hall u (hw.reprios.live_iff.2 hu), hsame₂⟩

/-- **Lowering.** -/
theorem ensures_taskPriChange_lower (hl : Lists s) (hs : Static idle s) (ht : (s.task t).Live)
    (hti : t ≠ idle) (hleast : IsLeast (s.claims s.holder t) p)
    (hrest : ∀ u, (s.task u).Live → u ≠ t → s.Settled s.holder u) (hlt : (s.task t).prio < p) :
    Ensures (taskPriChange t p) s fun stat s' => stat = .success ∧ s.Reprios s' ∧
      ∀ u, (s.task u).Live → s'.Settled s.holder u := by
  refine ensures_iterate (fun loop s₁ => Walk idle s.holder s loop s₁ ∧
      (s₁.task loop.1).prio < loop.2)
    (fun _ s₁ => ∑ u, (priMax - (s₁.task u).prio)) ?_ ⟨⟨.refl hl, ht, hti, hleast, hrest⟩, hlt⟩
  rintro ⟨v, p'⟩ s₁ ⟨hw, hlt⟩
  have hholder := hw.reprios.holder_eq
  have hturn := ensures_taskPriChangeTurn hw.reprios.lists (hw.reprios.static hs)
    (hw.reprios.live_iff.2 hw.live) hw.ne_idle hw.least
    (fun u hu => hw.rest u (hw.reprios.live_iff.1 hu))
    (congrFun hholder v).symm (.inr hholder.symm) hlt.ne
  refine hturn.mono fun r s₂ hr => ?_
  obtain ⟨hr, hturned⟩ := hr
  cases r with
  | inl loop =>
    obtain ⟨hw', -, hlower⟩ := hturned
    have hp' : p' < priMax := hr.prio_self.symm.trans_lt (hr.reprios.lists.prio_lt v)
    refine ⟨⟨hw'.trans hw.reprios, hlower hlt⟩, hr.sum_lt (priMax - ·) ?_⟩
    have hlt' : (s₁.task v).prio < p' := hlt
    omega
  | inr stat =>
    obtain ⟨rfl, hall⟩ := hturned
    exact ⟨rfl, hw.reprios.trans hr.reprios, fun u hu => hall u (hw.reprios.live_iff.2 hu)⟩

/-- **`task_pri_change`** of a task that is to have the most urgent of what
urges it, where the others are settled, settles all. -/
theorem ensures_taskPriChange (hl : Lists s) (hs : Static idle s) (ht : (s.task t).Live)
    (hti : t ≠ idle) (hleast : IsLeast (s.claims s.holder t) p)
    (hrest : ∀ u, (s.task u).Live → u ≠ t → s.Settled s.holder u) :
    Ensures (taskPriChange t p) s fun stat s' => stat = .success ∧ s.Reprios s' ∧
      ∀ u, (s.task u).Live → s'.Settled s.holder u := by
  rcases Nat.lt_trichotomy p (s.task t).prio with hlt | heq | hgt
  · refine (ensures_taskPriChange_raise hl hs ht hti hleast hrest (fun _ _ => rfl) hlt).mono ?_
    rintro stat s' ⟨rfl, hr, hall, -⟩
    exact ⟨rfl, hr, hall⟩
  · refine ensures_iterate_once ?_
    rw [taskPriChangeTurn, ensures_bind, ensures_get]
    dsimp only
    rw [if_pos heq.symm, ensures_pure]
    refine ⟨_, rfl, rfl, .refl hl, fun u hu => ?_⟩
    by_cases hut : u = t
    · subst hut
      rw [heq] at hleast
      exact hleast
    · exact hrest u hu hut
  · exact ensures_taskPriChange_lower hl hs ht hti hleast hrest hgt

omit [Fintype T] in
/-- **`task_pri_change`** of a ready task, where another is ready. -/
theorem ensures_taskPriChange_rdy (hl : Lists s) (ht : (s.task t).taskState = .rdy)
    (hu : (s.task u).taskState = .rdy) (hut : u ≠ t) (hp : p < priMax) :
    Ensures (taskPriChange t p) s fun stat s' => stat = .success ∧ s.Reprio t p s' := by
  refine ensures_iterate_once ?_
  rw [taskPriChangeTurn, ensures_bind, ensures_get]
  dsimp only
  split
  · rename_i heq
    rw [ensures_pure]
    exact ⟨_, rfl, rfl, .refl hl, by rw [← heq, Function.update_eq_self]⟩
  · simp only [ht]
    refine (ensures_readyListMove hl ht hu hut hp).bind fun _ s' hr => ?_
    exact ensures_pure.2 ⟨_, rfl, rfl, hr⟩

end Hgsdk.Rhino

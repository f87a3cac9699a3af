import Hgsdk.Rhino.Ownership
/-!
# How long a task sleeps

A task that calls `krhino_task_sleep` sleeps through whatever else happens
until as many ticks have come as it asked for, and is awake after the last
(`sleep_lasts`). What remains is compared as a signed number, so that holds up
to half of what the clock counts.
-/

namespace Hgsdk.Rhino

variable {T O : Type} [DecidableEq T] [DecidableEq O]
variable {s s' s₁ : KState T O} {idle u : T}
variable {e : Event T O} {es : List (Event T O)} {bs : BlkState}

/-- A tick of the clock. -/
def Event.isTick : Event T O → Bool
  | tickListUpdate => true
  | _ => false

theorem Event.Moves.tickCount_eq (h : e.Moves idle s s') :
    s'.tickCount = if e.isTick then s.tickCount + 1 else s.tickCount := by
  cases e with
  | tickListUpdate => exact h.tickCount
  | _ =>
    rcases h.cases with ⟨c, r, -, hmoves, hc⟩ | ⟨htick, -⟩ | ⟨-, -, hcount⟩
    · exact (hmoves.moved hc).tickCount
    · cases htick
    · exact hcount

omit [DecidableEq T] [DecidableEq O] in
/-- Whose time is not up is not overdue. -/
theorem remain_le_one_of_overdue (hs : s.Ahead) (htimed : (s.task u).tickHead = true)
    (hle : (s.task u).remain s.tickCount ≤ 2 ^ 63) (h : s.later.Overdue u) :
    (s.task u).remain s.tickCount ≤ 1 := by
  have hnext := KTask.remain_succ (hs u htimed)
  have hint : ((s.task u).tickMatch - (s.tickCount + 1)).toInt ≤ 0 := h
  rw [BitVec.toInt_eq_toNat_cond] at hint
  unfold KTask.remain at hnext hle ⊢
  split at hint
  · omega
  · omega

/-- **A step in the life of a task that sleeps**: it sleeps on, with a tick
less to go if that was one; or that was the last. -/
theorem Event.Moves.asleep (h : e.Moves idle s s') (hs : Good idle s)
    (hdel : e.deletes ≠ some u) (hsleep : (s.task u).Asleep)
    (hle : (s.task u).remain s.tickCount ≤ 2 ^ 63) :
    (s'.task u).Asleep ∧ (s.task u).remain s.tickCount =
        (s'.task u).remain s'.tickCount + (if e.isTick then 1 else 0) ∨
      e.isTick = true ∧ (s.task u).remain s.tickCount = 1 ∧ (s'.task u).Told .finish := by
  have htimed := (hs.ok.sound.fine u).asleep hsleep
  have hpos := hs.ok.ahead u htimed
  have hnot : ∀ o, (s.task u).waitsFor ≠ some o := by
    intro o ho
    rcases (KTask.waitsFor_eq_some.1 ho).1 with h | h <;>
      rcases hsleep with h' | h' <;> cases h.symm.trans h'
  rcases h.fate hdel with hfate | ⟨rfl, hdue, hended⟩
  · have hund : (s.task u).Undisturbed (s'.task u) := by
      cases hfate with
      | undisturbed h => exact h
      | handed hw => exact absurd hw.waits (hnot _)
      | given _ hw => exact absurd hw (hnot _)
      | removed hw => exact absurd hw (hnot _)
    obtain ⟨hsleep', hmatch⟩ := hund.asleep hsleep
    refine .inl ⟨hsleep', ?_⟩
    have hremain : (s'.task u).remain s'.tickCount = (s.task u).remain s'.tickCount := by
      rw [KTask.remain, hmatch]
      rfl
    rw [hremain, h.tickCount_eq]
    cases htick : e.isTick with
    | false => rfl
    | true =>
      have hnext := KTask.remain_succ hpos
      rw [if_pos rfl, if_pos rfl, hnext]
      omega
  · have hone := remain_le_one_of_overdue hs.ok.ahead htimed hle hdue
    refine .inr ⟨rfl, by omega, ?_, hended.free, ?_⟩
    · rw [KTask.Live, hended.taskState]
      cases (s.task u).taskState <;> simp [TaskStat.awake]
    · rw [hended.blkState, if_neg]
      intro hpend
      rcases hpend with h | h <;> rcases hsleep with h' | h' <;> cases h.symm.trans h'

section Runs

variable [Fintype T]

/-- A task sleeps on as long as ticks remain. -/
theorem asleep_of_run (hs : Good idle s) (hes : kernel.Along (Event.Admissible idle) s es)
    (hdel : ∀ e ∈ es, e.deletes ≠ some u) (hrun : kernel.run s es = some s')
    (hsleep : (s.task u).Asleep) (hle : (s.task u).remain s.tickCount ≤ 2 ^ 63)
    (hticks : es.countP Event.isTick < (s.task u).remain s.tickCount) : (s'.task u).Asleep := by
  induction es generalizing s with
  | nil =>
    cases hrun
    exact hsleep
  | cons e es ih =>
    obtain ⟨s₁, hstep, hrest⟩ := Machine.run_cons_eq_some.1 hrun
    obtain ⟨hs₁, hmoves⟩ := moves_of_step hs hes.1 hstep
    rw [List.countP_cons] at hticks
    rcases hmoves.asleep hs (hdel e List.mem_cons_self) hsleep hle with
      ⟨hsleep₁, hremain⟩ | ⟨htick, hone, -⟩
    · exact ih hs₁ (hes.2 s₁ hstep) (fun e' he' => hdel e' (List.mem_cons_of_mem e he')) hrest
        hsleep₁ (by omega) (by omega)
    · rw [htick, if_pos rfl] at hticks
      omega

/-- What a task has been told stands while it makes no call. -/
theorem told_of_run (hs : Good idle s) (hes : kernel.Along (Event.Admissible idle) s es)
    (hby : kernel.Along (Event.NotBy u) s es) (hdel : ∀ e ∈ es, e.deletes ≠ some u)
    (hrun : kernel.run s es = some s') (htold : (s.task u).Told bs) : (s'.task u).Told bs := by
  refine (Machine.inv_of_run (I := fun s => Good idle s ∧ (s.task u).Told bs)
    (C := fun s e => (e.Admissible idle s ∧ e.NotBy u s) ∧ e.deletes ≠ some u) ?_ ⟨hs, htold⟩
    ((hes.and hby).and (Machine.along_of_forall_mem fun e he _ => hdel e he)) hrun).2
  rintro s₁ e s₂ ⟨hgood, htold⟩ ⟨⟨he, hby⟩, hdel⟩ hstep
  obtain ⟨hgood₂, hmoves⟩ := moves_of_step hgood he hstep
  exact ⟨hgood₂, hmoves.told hgood.ok hby hdel htold⟩

/-- A task is awake when the last tick has come. -/
theorem awake_of_run (hs : Good idle s) (hes : kernel.Along (Event.Admissible idle) s es)
    (hby : kernel.Along (Event.NotBy u) s es) (hdel : ∀ e ∈ es, e.deletes ≠ some u)
    (hrun : kernel.run s es = some s') (hsleep : (s.task u).Asleep)
    (hle : (s.task u).remain s.tickCount ≤ 2 ^ 63)
    (hticks : (s.task u).remain s.tickCount ≤ es.countP Event.isTick) :
    (s'.task u).Told .finish := by
  induction es generalizing s with
  | nil =>
    have hpos := hs.ok.ahead u ((hs.ok.sound.fine u).asleep hsleep)
    rw [List.countP_nil] at hticks
    omega
  | cons e es ih =>
    obtain ⟨s₁, hstep, hrest⟩ := Machine.run_cons_eq_some.1 hrun
    obtain ⟨hs₁, hmoves⟩ := moves_of_step hs hes.1 hstep
    have hdel' : ∀ e' ∈ es, e'.deletes ≠ some u := fun e' he' =>
      hdel e' (List.mem_cons_of_mem e he')
    rw [List.countP_cons] at hticks
    rcases hmoves.asleep hs (hdel e List.mem_cons_self) hsleep hle with
      ⟨hsleep₁, hremain⟩ | ⟨-, -, htold⟩
    · exact ih hs₁ (hes.2 s₁ hstep) (hby.2 s₁ hstep) hdel' hrest hsleep₁ (by omega) (by omega)
    · exact told_of_run hs₁ (hes.2 s₁ hstep) (hby.2 s₁ hstep) hdel' hrest htold

/-- **A task sleeps for as many ticks as it asked for.** Whatever the kernel
does after a call of `krhino_task_sleep`, the task is asleep while fewer ticks
have come; once they have, it is awake, and the call returns success. -/
theorem sleep_lasts {ticks : BitVec 64} (hs : Reachable idle s)
    (he : (Event.call (.taskSleep ticks)).Admissible idle s)
    (hexec : (Call.taskSleep ticks).exec s = some (.pend, s₁)) (hle : ticks.toNat ≤ 2 ^ 63)
    (hes : kernel.Along (Event.Admissible idle) s₁ es)
    (hdel : ∀ e ∈ es, e.deletes ≠ some s.activeTask) (hrun : kernel.run s₁ es = some s') :
    (es.countP Event.isTick < ticks.toNat → (s'.task s.activeTask).Asleep) ∧
      (ticks.toNat ≤ es.countP Event.isTick → kernel.Along (Event.NotBy s.activeTask) s₁ es →
        (s'.task s.activeTask).Told .finish) := by
  obtain ⟨hs₁, r, hexec', hframe, -, hpend⟩ := moves_of_step hs.good he (step_call hexec)
  rw [hexec] at hexec'
  obtain ⟨-, hsleep, hmatch⟩ := hpend (congrArg Prod.fst (Option.some.inj hexec')).symm
  have hremain : (s₁.task s.activeTask).remain s₁.tickCount = ticks.toNat := by
    rw [hframe.tickCount]
    exact KTask.remain_of_tickMatch hmatch
  refine ⟨fun hticks => ?_, fun hticks hby => ?_⟩
  · exact asleep_of_run hs₁ hes hdel hrun hsleep (hremain ▸ hle) (hremain ▸ hticks)
  · exact awake_of_run hs₁ hes hby hdel hrun hsleep (hremain ▸ hle) (hremain ▸ hticks)

end Runs

/-- A task that runs. The idle task is `none`. -/
def awakened : KState (Option Bool) Unit :=
  (kernel.run (krhinoStart none) [.call (.taskCreate (some true) 10 0 512 true), .coreSched]).get
    (by decide +kernel)

theorem reachable_awakened : Reachable none awakened :=
  ⟨_, by decide +kernel, (Option.some_get _).symm⟩

theorem isSome_sleep : ((Call.taskSleep 2).exec awakened).isSome := by
  decide +kernel

/-- Where it has called to sleep for two ticks. -/
def slept : KState (Option Bool) Unit := (((Call.taskSleep 2).exec awakened).get isSome_sleep).2

theorem exec_sleep : (Call.taskSleep 2).exec awakened = some (.pend, slept) := by
  have hret : (((Call.taskSleep 2).exec awakened).get isSome_sleep).1 = .pend := by
    decide +kernel
  rw [← hret]
  exact (Option.some_get isSome_sleep).symm

/-- The idle task runs, and a tick comes. -/
def tickRun : List (Event (Option Bool) Unit) :=
  [.coreSched, .intrptEnter, .tickListUpdate, .timeSliceUpdate, .intrptExit]

theorem sleep_lasts_tickRun :
    (∃ s', kernel.run slept tickRun = some s' ∧ (s'.task (some true)).Asleep) ∧
      ∃ s', kernel.run slept (tickRun ++ tickRun) = some s' ∧
        (s'.task (some true)).Told .finish := by
  have hadm : (Event.call (.taskSleep 2)).Admissible none awakened := by decide +kernel
  refine ⟨⟨(kernel.run slept tickRun).get (by decide +kernel), (Option.some_get _).symm, ?_⟩,
    (kernel.run slept (tickRun ++ tickRun)).get (by decide +kernel), (Option.some_get _).symm, ?_⟩
  · exact (sleep_lasts reachable_awakened hadm exec_sleep (by decide) (by decide +kernel)
      (by simp [tickRun, Event.deletes]) (Option.some_get _).symm).1 (by decide)
  · exact (sleep_lasts reachable_awakened hadm exec_sleep (by decide) (by decide +kernel)
      (by simp [tickRun, Event.deletes]) (Option.some_get _).symm).2 (by decide)
      (by decide +kernel)

end Hgsdk.Rhino

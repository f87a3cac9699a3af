import Hgsdk.Rhino.Ownership
import Mathlib.Data.Finset.Card
/-!
# What becomes of the units of a semaphore

Over whole runs of the kernel, no unit of a semaphore is lost, and none is
taken twice: what was given and not taken is what the count says
(`units_conserved`). A unit is taken by a call of `krhino_sem_take` that
finds one, or by a task that waited and is told that it has one; a give that
finds tasks waiting wakes one of them for its unit and does not count it.
-/

namespace Hgsdk.Rhino

variable {T O : Type} [DecidableEq T] [DecidableEq O]
variable {s s' : KState T O} {idle t u w : T} {o : O} {r : Ret} {c : Call T O}
variable {e : Event T O} {es : List (Event T O)}

/-! ### What is given and what is taken -/

instance (x : KTask O) : Decidable x.Asleep :=
  inferInstanceAs (Decidable (_ ∨ _))

instance (x : KTask O) (bs : BlkState) : Decidable (x.Told bs) :=
  decidable_of_iff (x.Live ∧ (x.waitsFor = none ∧ ¬ x.Asleep) ∧ x.blkState = bs)
    ⟨fun h => ⟨h.1, h.2.1, h.2.2⟩, fun h => ⟨h.live, h.free, h.blkState⟩⟩

section

variable [Fintype T]

/-- Who waits for `o`. -/
def KState.waiters (s : KState T O) (o : O) : Finset T :=
  Finset.univ.filter fun u => (s.task u).waitsFor = some o

/-- Who waited for `o`, and is told that it is served. -/
def KState.served (s s' : KState T O) (o : O) : Finset T :=
  (s.waiters o).filter fun u => (s'.task u).Told .finish

omit [DecidableEq T] in
theorem KState.mem_waiters : u ∈ s.waiters o ↔ (s.task u).waitsFor = some o := by
  simp [waiters]

omit [DecidableEq T] in
theorem KState.mem_served :
    u ∈ s.served s' o ↔ (s.task u).waitsFor = some o ∧ (s'.task u).Told .finish := by
  simp [served, mem_waiters]

/-- What a call gives to `o`, by what it returns: nothing, one, or one to each
that waits. -/
def Call.gives (o : O) (s : KState T O) (r : Ret) : Call T O → ℕ
  | semGive sem => if sem = o ∧ (r = .exit .success ∨ r = .sched .success) then 1 else 0
  | semGiveAll sem =>
    if sem = o then
      if r = .exit .success then 1 else if r = .sched .success then (s.waiters o).card else 0
    else 0
  | _ => 0

/-- What a call takes from `o` for who makes it. -/
def Call.takes (o : O) (r : Ret) : Call T O → ℕ
  | semTake sem _ => if sem = o ∧ r = .exit .success then 1 else 0
  | _ => 0

/-- What a step gives to `o`. -/
def given (o : O) (s : KState T O) : Event T O → ℕ
  | .call c => (c.exec s).elim 0 fun (r, _) => c.gives o s r
  | _ => 0

/-- What a step takes from `o` for who makes it. -/
def takenAtOnce (o : O) (s : KState T O) : Event T O → ℕ
  | .call c => (c.exec s).elim 0 fun (r, _) => c.takes o r
  | _ => 0

/-- What a step takes from `o`, for those that waited too. -/
def taken (o : O) (s : KState T O) (e : Event T O) : ℕ :=
  (kernel.step s e).elim 0 (fun s' => (s.served s' o).card) + takenAtOnce o s e

/-- The count of `o` is not set, nor is `o` deleted. -/
def Event.Counts (o : O) : Event T O → Prop
  | call (.semCountSet sem _) => sem ≠ o
  | call (.semDel sem) => sem ≠ o
  | _ => True

/-! ### What a call does to a semaphore -/

omit [DecidableEq T] [Fintype T] in
theorem LockMove.eq_of_type (h : LockMove s o s' r) (hne : (s.obj o).objType ≠ .mutex) :
    s' = s := by
  cases h with
  | fails _ h => exact h
  | takes _ hmutex => exact absurd hmutex hne
  | again _ hmutex => exact absurd hmutex hne
  | blocks hmutex => exact absurd hmutex hne

omit [DecidableEq T] [Fintype T] in
theorem UnlockMove.eq_of_type (h : UnlockMove s o s' r) (hne : (s.obj o).objType ≠ .mutex) :
    s' = s := by
  cases h with
  | fails _ h => exact h
  | less _ hmutex => exact absurd hmutex hne
  | free _ hmutex => exact absurd hmutex hne
  | pass _ hmutex => exact absurd hmutex hne

/-- **What a call makes of a semaphore**: it gives to it, takes from it, or
leaves it. -/
inductive SemMove (s s' : KState T O) (o : O) (r : Ret) : Call T O → Prop where
  | give (h : GiveMove s o s' r) : SemMove s s' o r (.semGive o)
  | giveAll (h : GiveAllMove s o s' r) : SemMove s s' o r (.semGiveAll o)
  | take {ticks : BitVec 64} (h : TakeMove s o s' r) (hframe : s.Frame s') :
    SemMove s s' o r (.semTake o ticks)
  | leave {c : Call T O} (h : s'.obj o = s.obj o) (hgives : c.givesTo ≠ some o)
    (hg : c.gives o s r = 0) (ht : c.takes o r = 0) : SemMove s s' o r c

theorem Call.Moves.semMove (h : c.Moves s s' r) (hsem : (s.obj o).objType = .sem)
    (hcounts : (Event.call c).Counts o) : SemMove s s' o r c := by
  have hmutex : (s.obj o).objType ≠ .mutex := by
    rw [hsem]
    decide
  have hnone : (s.obj o).objType ≠ .none := by
    rw [hsem]
    decide
  by_cases hc : c.target = some o
  · cases c with
    | mutexCreate | semCreate =>
      obtain rfl := Option.some.inj hc
      exact .leave (h.2.obj_eq_of_type hnone) (by rintro ⟨⟩) rfl rfl
    | mutexLock =>
      obtain rfl := Option.some.inj hc
      exact .leave (by rw [h.2.eq_of_type hmutex]) (by rintro ⟨⟩) rfl rfl
    | mutexUnlock =>
      obtain rfl := Option.some.inj hc
      exact .leave (by rw [h.2.eq_of_type hmutex]) (by rintro ⟨⟩) rfl rfl
    | mutexDel =>
      obtain rfl := Option.some.inj hc
      exact .leave (h.2.obj_eq_of_type hmutex) (by rintro ⟨⟩) rfl rfl
    | semCountSet | semDel => exact absurd (Option.some.inj hc) hcounts
    | semGive =>
      obtain rfl := Option.some.inj hc
      exact .give h.2
    | semGiveAll =>
      obtain rfl := Option.some.inj hc
      exact .giveAll h.2
    | semTake =>
      obtain rfl := Option.some.inj hc
      exact .take h.2 h.1
    | _ => cases hc
  · have hne : ∀ {sem}, c.target = some sem → sem ≠ o := by
      rintro _ h rfl
      exact hc h
    refine .leave (h.obj_eq hc fun t _ hown => hmutex hown.1) ?_ ?_ ?_
    · cases c with
      | semGive | semGiveAll => exact hc
      | _ => rintro ⟨⟩
    · cases c with
      | semGive => exact if_neg fun h => hne rfl h.1
      | semGiveAll => exact if_neg (hne rfl)
      | _ => rfl
    · cases c with
      | semTake => exact if_neg fun h => hne rfl h.1
      | _ => rfl

/-! ### Who is served -/

omit [DecidableEq T] in
/-- Nobody is served where all wait on. -/
theorem KState.served_eq_empty
    (h : ∀ u, (s.task u).waitsFor = some o → ¬ (s'.task u).Told .finish) :
    s.served s' o = ∅ := by
  refine Finset.eq_empty_of_forall_notMem fun u hu => ?_
  rw [mem_served] at hu
  exact h u hu.1 hu.2

omit [DecidableEq T] [DecidableEq O] [Fintype T] in
theorem KTask.not_told {x : KTask O} {bs : BlkState} (h : x.waitsFor = some o) : ¬ x.Told bs := by
  intro htold
  cases htold.free.waitsFor.symm.trans h

omit [Fintype T] in
/-- **Who is served is given to.** -/
theorem Event.Moves.givesTo_of_told (h : e.Moves idle s s')
    (hsem : (s'.obj o).objType = .sem) (hw : (s.task u).waitsFor = some o)
    (htold : (s'.task u).Told .finish) : e.givesTo = some o := by
  by_cases hdel : e.deletes = some u
  · -- a task that is deleted is told nothing
    cases e with
    | call c =>
      cases c with
      | taskDel task =>
        obtain rfl := Option.some.inj hdel
        obtain ⟨r, -, -, -, rfl | hgone⟩ := h
        · exact absurd htold (KTask.not_told hw)
        · exact absurd hgone htold.live.2
      | _ => cases hdel
    | _ => cases hdel
  rcases h.fate hdel with hfate | ⟨-, -, hended⟩
  · cases hfate with
    | undisturbed h => exact absurd htold (KTask.not_told (h.waiting o hw))
    | handed hfirst hmutex =>
      obtain rfl := Option.some.inj (hfirst.waits.symm.trans hw)
      cases hsem.symm.trans hmutex
    | given hg hw' =>
      obtain rfl := Option.some.inj (hw'.symm.trans hw)
      exact hg
    | removed _ _ htold' => cases htold'.blkState.symm.trans htold.blkState
  · have hstate := hended.blkState.symm.trans htold.blkState
    rw [if_pos (KTask.waitsFor_eq_some.1 hw).1] at hstate
    cases hstate

/-- A give serves one task, or counts. -/
theorem GiveMove.served (h : GiveMove s o s' r) (hsem : (s.obj o).objType = .sem) :
    (s'.obj o).objType = .sem ∧ (s'.obj o).count.toNat + (s.served s' o).card =
      (s.obj o).count.toNat + if r = .exit .success ∨ r = .sched .success then 1 else 0 := by
  cases h with
  | fails hstat h =>
    subst h
    rw [KState.served_eq_empty fun u => KTask.not_told, if_neg]
    · exact ⟨hsem, rfl⟩
    · rintro (h | h)
      · exact hstat (Ret.exit.inj h)
      · cases h
  | counts _ hnobody hovf htask _ htype hcount =>
    rw [KState.served_eq_empty fun u hu => absurd hu (hnobody u), if_pos (.inl rfl), hcount]
    refine ⟨htype, ?_⟩
    rw [Finset.card_empty]
    bv_omega
  | @wakes _ w hw hobj htask =>
    have hserved : s.served s' o = {w} := by
      ext u
      rw [KState.mem_served, Finset.mem_singleton, htask]
      constructor
      · rintro ⟨hu, htold⟩
        by_contra hne
        rw [Function.update_of_ne hne] at htold
        exact KTask.not_told hu htold
      · rintro rfl
        rw [Function.update_self]
        have hpend := (KTask.waitsFor_eq_some.1 hw.waits).1
        exact ⟨hw.waits, (KTask.keeps_woken hpend).live, KTask.free_woken, rfl⟩
    rw [hserved, hobj, if_pos (.inr rfl), Finset.card_singleton]
    exact ⟨hsem, rfl⟩

/-- **A call keeps the balance.** -/
theorem SemMove.balance (h : SemMove s s' o r c) (hsem : (s.obj o).objType = .sem)
    (hgiven : (s'.obj o).objType = .sem → ∀ u, (s.task u).waitsFor = some o →
      (s'.task u).Told .finish → c.givesTo = some o) :
    (s'.obj o).objType = .sem ∧ (s'.obj o).count.toNat + ((s.served s' o).card + c.takes o r) =
      (s.obj o).count.toNat + c.gives o s r := by
  cases h with
  | give h =>
    have hserved := h.served hsem
    rw [Call.gives, if_congr (and_iff_right rfl) rfl rfl]
    exact hserved
  | giveAll h =>
    rw [Call.gives, if_pos rfl]
    cases h with
    | gives h =>
      have hserved := h.served hsem
      rw [if_congr (or_iff_left (by rintro ⟨⟩)) rfl rfl] at hserved
      refine ⟨hserved.1, hserved.2.trans ?_⟩
      rw [if_neg (c := Ret.exit _ = .sched .success) (by rintro ⟨⟩)]
    | wakes _ hobj htold =>
      have hall : s.served s' o = s.waiters o := by
        ext u
        rw [KState.mem_served, KState.mem_waiters, and_iff_left_iff_imp]
        exact htold u
      rw [if_neg (by rintro ⟨⟩), if_pos rfl, hall, hobj]
      exact ⟨hsem, rfl⟩
  | take h hframe =>
    rw [KState.served_eq_empty fun u hu => KTask.not_told ((hframe.task u).waiting o hu),
      Finset.card_empty, Nat.zero_add]
    cases h with
    | fails hstat h =>
      subst h
      rw [Call.takes, if_neg fun h => hstat (Ret.exit.inj h.2)]
      exact ⟨hsem, rfl⟩
    | takes _ hcount hobj =>
      rw [Call.takes, if_pos ⟨rfl, rfl⟩, hobj, Function.update_self]
      refine ⟨hsem, ?_⟩
      show ((s.obj o).count - 1).toNat + 1 = (s.obj o).count.toNat
      bv_omega
    | blocks _ _ hobj =>
      rw [Call.takes, if_neg (by rintro ⟨-, ⟨⟩⟩), hobj]
      exact ⟨hsem, rfl⟩
  | leave h hgives hg ht =>
    rw [h] at hgiven ⊢
    rw [KState.served_eq_empty fun u hu htold => hgives (hgiven hsem u hu htold), hg, ht]
    exact ⟨hsem, rfl⟩

/-! ### Whole runs -/

/-- **A step keeps the balance.** -/
theorem step_balance (hs : Good idle s) (he : e.Admissible idle s) (hcounts : e.Counts o)
    (hsem : (s.obj o).objType = .sem) (hstep : kernel.step s e = some s') :
    (s'.obj o).objType = .sem ∧
      (s'.obj o).count.toNat + taken o s e = (s.obj o).count.toNat + given o s e := by
  have hmoves := (moves_of_step hs he hstep).2
  rw [taken, hstep, Option.elim_some]
  cases e with
  | call c =>
    obtain ⟨r, hexec, hcall⟩ := id hmoves
    rw [takenAtOnce, given, hexec]
    exact (hcall.semMove hsem hcounts).balance hsem fun hsem' u hu =>
      hmoves.givesTo_of_told hsem' hu
  | _ =>
    have hobj : s'.obj = s.obj := by
      rcases hmoves.cases with ⟨c, r, hc, -⟩ | ⟨-, htick⟩ | ⟨-, hobj, -⟩
      · cases hc
      · exact htick.obj
      · exact hobj
    rw [hobj, KState.served_eq_empty fun u hu htold => ?_]
    · exact ⟨hsem, rfl⟩
    · cases hmoves.givesTo_of_told (by rw [hobj]; exact hsem) hu htold

/-- **No unit of a semaphore is lost, and none is taken twice**, whatever the
order in which tasks and interrupts take their turns. After any run, the
count and what was taken are what was there at first and what was given. -/
theorem units_conserved (hs : Reachable idle s) (hsem : (s.obj o).objType = .sem)
    (hes : kernel.Along (Event.Admissible idle) s es) (hcounts : ∀ e ∈ es, e.Counts o)
    (hrun : kernel.run s es = some s') :
    (s'.obj o).count.toNat + kernel.tally (taken o) s es =
      (s.obj o).count.toNat + kernel.tally (given o) s es := by
  refine Machine.add_tally (I := fun s => Good idle s ∧ (s.obj o).objType = .sem)
    (m := fun s => (s.obj o).count.toNat) (C := fun s e => e.Admissible idle s ∧ e.Counts o) ?_
    ⟨hs.good, hsem⟩ (hes.and (Machine.along_of_forall_mem fun e he _ => hcounts e he)) hrun
  rintro s₁ e s₂ ⟨hgood, hsem⟩ ⟨he, hcounts⟩ hstep
  obtain ⟨hsem₂, hbalance⟩ := step_balance hgood he hcounts hsem hstep
  exact ⟨⟨(moves_of_step hgood he hstep).1, hsem₂⟩, hbalance⟩

end

/-- A task finds the semaphore empty and waits for it. The idle task is
`none`. -/
def takeRun : List (Event (Option Bool) Unit) :=
  [.call (.taskCreate (some true) 10 0 512 true), .coreSched, .call (.semCreate () 0),
    .call (.semTake () waitForever), .coreSched]

/-- Where that leads. -/
def took : KState (Option Bool) Unit :=
  (kernel.run (krhinoStart none) takeRun).get (by decide +kernel)

theorem reachable_took : Reachable none took :=
  ⟨takeRun, by decide +kernel, (Option.some_get _).symm⟩

/-- Two units are given. The task has one, and takes the other. -/
def giveRun : List (Event (Option Bool) Unit) :=
  [.call (.semGive ()), .call (.semGive ()), .coreSched, .call (.semTake () noWait)]

theorem units_conserved_giveRun :
    ∃ s', kernel.run took giveRun = some s' ∧
      (s'.obj ()).count.toNat + kernel.tally (taken ()) took giveRun =
        (took.obj ()).count.toNat + kernel.tally (given ()) took giveRun :=
  ⟨(kernel.run took giveRun).get (by decide +kernel), (Option.some_get _).symm,
    units_conserved reachable_took (by decide +kernel) (by decide +kernel)
      (by simp [giveRun, Event.Counts]) (Option.some_get _).symm⟩

end Hgsdk.Rhino

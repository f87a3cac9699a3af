import Hgsdk.Combi.Route
import Hgsdk.Common.Machine
import Mathlib.Data.Finset.Card
import Mathlib.Data.Fintype.Basic
/-!
# The rules and the stations heard of lately

A rule should be there for the stations heard of within `FRULE_TMO`, and
for no others. But `combi_bus_frule_expire` is called from nowhere, so a
rule, once learned, stays; and an update at tick 0 marks its slot as free.
The rules are the stations heard of lately as long as neither happens: no
update at tick 0, and no station that was learned falls silent.
-/

namespace Hgsdk

namespace Combi

/-- `FRULE_TMO`; a tick is a millisecond. -/
def fruleTmo : ℕ := 1000

variable {B : Type}

/-- The address of a `combi_bus_frule_update`. -/
def Effect.updated : Effect B → Option Mac
  | .update addr => some addr
  | _ => none

def updates (calls : List (Effect B)) : List Mac := calls.filterMap Effect.updated

/-! ### Frames over time -/

/-- The bus, the time in ticks that do not wrap, and the updates with
their times, newest first. -/
structure Sys (B : Type) where
  bus : CombiBus B
  now : ℕ
  log : List (Mac × ℕ)

/-- `os_jiffies`. -/
def Sys.jiffies (s : Sys B) : BitVec 32 := BitVec.ofNat 32 s.now

/-- What happens next. -/
inductive Act (B : Type) where
  | wait (d : ℕ)
  | recv (bus : B) (frame : Frame) (len : CInt)
  | write (frame : Frame) (len : CInt)

/-- A frame comes in. -/
def Sys.recv [DecidableEq B] (s : Sys B) (bus : B) (frame : Frame) (len : CInt) : Sys B :=
  let r := s.bus.combiBusRecv s.jiffies bus frame len
  { s with bus := r.1, log := (updates r.2).map (·, s.now) ++ s.log }

/-- **The combined bus over time.** -/
def combi [DecidableEq B] : Machine (Sys B) (Act B) where
  step s
    | .wait d => some { s with now := s.now + d }
    | .recv bus frame len => some (s.recv bus frame len)
    | .write frame len => some { s with bus := (s.bus.combiBusWrite frame len).1 }

/-- The station was heard of within `FRULE_TMO`. -/
def Sys.Recent (s : Sys B) (addr : Mac) : Prop :=
  ∃ τ, (addr, τ) ∈ s.log ∧ s.now ≤ τ + fruleTmo

/-- **The rules are the stations heard of lately.** -/
def Sys.Exact (s : Sys B) : Prop := ∀ addr, s.bus.fruleForward addr = 1 ↔ s.Recent addr

/-- Within any `FRULE_TMO`, at most 64 stations are heard of. -/
def Sparse (log : List (Mac × ℕ)) : Prop :=
  ∀ τ, ((log.filter fun p => τ ≤ p.2 ∧ p.2 ≤ τ + fruleTmo).map Prod.fst).toFinset.card ≤ 64

/-- **No update at tick 0, and nobody falls silent.** -/
def Kept [DecidableEq B] (s : Sys B) : Act B → Prop
  | .wait d => ∀ p ∈ s.log, ∃ q ∈ s.log, q.1 = p.1 ∧ s.now + d ≤ q.2 + fruleTmo
  | .recv bus frame len =>
    updates (s.bus.combiBusRecv s.jiffies bus frame len).2 ≠ [] → s.jiffies ≠ 0
  | .write .. => True

instance [DecidableEq B] (s : Sys B) : ∀ a, Decidable (Kept s a)
  | .wait d => inferInstanceAs
      (Decidable (∀ p ∈ s.log, ∃ q ∈ s.log, q.1 = p.1 ∧ s.now + d ≤ q.2 + fruleTmo))
  | .recv .. => inferInstanceAs (Decidable (_ → _))
  | .write .. => isTrue trivial

/-! ### The table -/

section Table

variable {frules : Slot → Frule} {addr a : Mac} {i : Slot} {jiffies : BitVec 32}

/-- A station has one slot. -/
def Distinct (frules : Slot → Frule) : Prop :=
  ∀ i j addr, (frules i).Holds addr → (frules j).Holds addr → i = j

/-- A slot that was written is live for its new address only. -/
theorem holds_of_update_holds {c : Slot}
    (h : (Function.update frules i ⟨jiffies, addr⟩ c).Holds a) :
    c = i ∧ a = addr ∨ c ≠ i ∧ (frules c).Holds a := by
  by_cases hc : c = i
  · rw [hc, Function.update_self] at h
    exact .inl ⟨hc, h.2.symm⟩
  · rw [Function.update_of_ne hc] at h
    exact .inr ⟨hc, h⟩

theorem update_holds {c : Slot} (hj : jiffies ≠ 0) :
    (Function.update frules i ⟨jiffies, addr⟩ c).Holds a ↔
      c = i ∧ a = addr ∨ c ≠ i ∧ (frules c).Holds a := by
  refine ⟨holds_of_update_holds, fun h => ?_⟩
  rcases h with ⟨rfl, rfl⟩ | ⟨hne, hold⟩
  · rw [Function.update_self]
    exact ⟨hj, rfl⟩
  · rwa [Function.update_of_ne hne]

/-- **A slot is taken for a station** that has no other, at any tick. -/
theorem distinct_update (h : Distinct frules)
    (hother : ∀ c, c ≠ i → ¬ (frules c).Holds addr) :
    Distinct (Function.update frules i ⟨jiffies, addr⟩) := by
  intro c c' b hc hc'
  rcases holds_of_update_holds hc with ⟨rfl, rfl⟩ | ⟨hne, hold⟩
  · rcases holds_of_update_holds hc' with ⟨rfl, -⟩ | ⟨hne', hold'⟩
    · rfl
    · exact absurd hold' (hother c' hne')
  · rcases holds_of_update_holds hc' with ⟨rfl, rfl⟩ | ⟨-, hold'⟩
    · exact absurd hold (hother c hne)
    · exact h c c' b hold hold'

/-- **An update keeps the stations apart.** -/
theorem Updated.distinct {frules' : Slot → Frule} (hupdated : Updated frules jiffies addr frules')
    (h : Distinct frules) : Distinct frules' := by
  cases hupdated with
  | @again i hi => exact distinct_update h fun c hne hc => hne (h c i addr hc hi)
  | learned hnew => exact distinct_update h fun c _ => hnew c
  | full => exact h

theorem exists_update_holds (hj : jiffies ≠ 0) (hi : ∀ a, (frules i).Holds a → a = addr) :
    (∃ c, (Function.update frules i ⟨jiffies, addr⟩ c).Holds a) ↔
      a = addr ∨ ∃ c, (frules c).Holds a := by
  constructor
  · rintro ⟨c, hc⟩
    rcases (update_holds hj).1 hc with ⟨-, ha⟩ | ⟨-, hc⟩
    · exact .inl ha
    · exact .inr ⟨c, hc⟩
  · rintro (ha | ⟨c, hc⟩)
    · exact ⟨i, (update_holds hj).2 (.inl ⟨rfl, ha⟩)⟩
    · by_cases hci : c = i
      · exact ⟨i, (update_holds hj).2 (.inl ⟨rfl, hi a (hci ▸ hc)⟩)⟩
      · exact ⟨c, (update_holds hj).2 (.inr ⟨hci, hc⟩)⟩

/-- **At tick 0** the slot is free, and the station has no rule. -/
theorem not_holds_of_zero (h : Distinct frules) {frules' : Slot → Frule}
    (hupdated : Updated frules 0 addr frules') (c : Slot) : ¬ (frules' c).Holds addr := by
  have hzero : ∀ i, (∀ c, c ≠ i → ¬ (frules c).Holds addr) →
      ¬ (Function.update frules i ⟨0, addr⟩ c).Holds addr := by
    intro i hother
    by_cases hc : c = i
    · rw [hc, Function.update_self]
      exact fun hholds => hholds.1 rfl
    · rw [Function.update_of_ne hc]
      exact hother c hc
  cases hupdated with
  | @again i hi => exact hzero i fun c' hne hc' => hne (h c' i addr hc' hi)
  | learned hnew => exact hzero _ fun c' _ => hnew c'
  | full hnew => exact hnew c

end Table

/-! ### One step -/

section Steps

variable [DecidableEq B] {s s' : Sys B}

/-- A frame leaves the table alone, or is one update. -/
theorem recv_cases (bus : CombiBus B) (jiffies : BitVec 32) (b : B) (frame : Frame) (len : CInt) :
    updates (bus.combiBusRecv jiffies b frame len).2 = [] ∧
      (bus.combiBusRecv jiffies b frame len).1.frules = bus.frules ∨
    updates (bus.combiBusRecv jiffies b frame len).2 = [frame.src] ∧
      Updated bus.frules jiffies frame.src
        (bus.combiBusRecv jiffies b frame len).1.frules := by
  have hupdated := updated_fruleUpdate bus jiffies frame.src
  unfold CombiBus.combiBusRecv
  split
  · split
    · exact .inl ⟨rfl, rfl⟩
    · exact .inl ⟨rfl, rfl⟩
  · split
    · split
      · exact .inr ⟨rfl, hupdated⟩
      · exact .inr ⟨rfl, hupdated⟩
    · exact .inl ⟨rfl, rfl⟩

/-- **A step**, for the table and the log. -/
inductive Step (s : Sys B) : Act B → Sys B → Prop
  | wait {d} : Step s (.wait d) { s with now := s.now + d }
  | still {a bus} (hframes : bus.frules = s.bus.frules) (hkept : Kept s a) :
    Step s a { s with bus := bus }
  | update {b frame len bus} (hupdated : Updated s.bus.frules s.jiffies frame.src bus.frules)
      (hkept : Kept s (.recv b frame len) ↔ s.jiffies ≠ 0) :
    Step s (.recv b frame len) { s with bus := bus, log := (frame.src, s.now) :: s.log }

theorem step_of_eq {a : Act B} (h : combi.step s a = some s') : Step s a s' := by
  cases a with
  | wait d =>
    obtain rfl := Option.some.inj h
    exact .wait
  | recv b frame len =>
    obtain rfl : s.recv b frame len = s' := Option.some.inj h
    unfold Sys.recv
    obtain ⟨hnone, hframes⟩ | ⟨hone, hupdated⟩ := recv_cases s.bus s.jiffies b frame len
    · dsimp only
      rw [hnone]
      exact .still hframes fun hne => absurd hnone hne
    · have hkept : Kept s (.recv b frame len) ↔ s.jiffies ≠ 0 := by
        rw [Kept, hone]
        exact ⟨fun h => h (List.cons_ne_nil _ _), fun h _ => h⟩
      dsimp only
      rw [hone]
      exact .update hupdated hkept
  | write frame len =>
    obtain rfl := Option.some.inj h
    exact .still rfl trivial

end Steps

/-! ### The invariant -/

/-- **While nobody falls silent** the rules are all the stations there
were. -/
structure Inv (s : Sys B) : Prop where
  distinct : Distinct s.bus.frules
  held : ∀ addr, (∃ i, (s.bus.frules i).Holds addr) ↔ ∃ τ, (addr, τ) ∈ s.log
  recent : ∀ addr τ, (addr, τ) ∈ s.log → s.Recent addr
  past : ∀ p ∈ s.log, p.2 ≤ s.now

namespace Inv

variable {s s' : Sys B}

theorem exact_of (h : Inv s) : s.Exact := by
  intro addr
  rw [fruleForward_eq_one, h.held]
  exact ⟨fun ⟨τ, hτ⟩ => h.recent addr τ hτ, fun ⟨τ, hτ, _⟩ => ⟨τ, hτ⟩⟩

/-- A table that is full of stations heard of lately has no new one to
learn. -/
theorem not_full (h : Inv s) {addr : Mac} (hsparse : Sparse ((addr, s.now) :: s.log))
    (hnew : ∀ j, ¬ (s.bus.frules j).Holds addr) : ¬ ∀ j, (s.bus.frules j).lifetime ≠ 0 := by
  intro hfull
  have hholds : ∀ i, (s.bus.frules i).Holds (s.bus.frules i).addr := fun i => ⟨hfull i, rfl⟩
  have hinj : Function.Injective fun i => (s.bus.frules i).addr := by
    intro i j (hij : (s.bus.frules i).addr = (s.bus.frules j).addr)
    exact h.distinct i j _ (hholds i) (hij ▸ hholds j)
  -- the stations of the table and the new one, 65 of them
  have hcard : (insert addr (Finset.univ.image fun i => (s.bus.frules i).addr)).card = 65 := by
    rw [Finset.card_insert_of_notMem, Finset.card_image_of_injective _ hinj, Finset.card_univ,
      Fintype.card_fin]
    intro hmem
    obtain ⟨i, -, hi⟩ := Finset.mem_image.1 hmem
    exact hnew i ⟨hfull i, hi⟩
  -- all heard of within the last `FRULE_TMO`
  have hsub : insert addr (Finset.univ.image fun i => (s.bus.frules i).addr) ⊆
      ((((addr, s.now) :: s.log).filter fun p => s.now - fruleTmo ≤ p.2 ∧
        p.2 ≤ s.now - fruleTmo + fruleTmo).map Prod.fst).toFinset := by
    intro a ha
    rw [List.mem_toFinset, List.mem_map]
    rcases Finset.mem_insert.1 ha with rfl | ha
    · refine ⟨(a, s.now), List.mem_filter.2 ⟨List.mem_cons_self, decide_eq_true ?_⟩, rfl⟩
      exact ⟨Nat.sub_le .., Nat.le_add_of_sub_le (Nat.le_refl _)⟩
    · obtain ⟨i, -, rfl⟩ := Finset.mem_image.1 ha
      obtain ⟨τ, hτ⟩ := (h.held _).1 ⟨i, hholds i⟩
      obtain ⟨τ', hτ', hrecent⟩ := h.recent _ τ hτ
      have hpast := h.past _ hτ'
      refine ⟨(_, τ'), List.mem_filter.2 ⟨List.mem_cons_of_mem _ hτ', decide_eq_true ?_⟩, rfl⟩
      dsimp only at hpast ⊢
      omega
  have hle := (Finset.card_le_card hsub).trans (hsparse _)
  omega

/-- An update, not at tick 0. -/
theorem update (h : Inv s) {addr : Mac} {bus : CombiBus B}
    (hupdated : Updated s.bus.frules s.jiffies addr bus.frules) (htick : s.jiffies ≠ 0)
    (hsparse : Sparse ((addr, s.now) :: s.log)) :
    Inv { s with bus := bus, log := (addr, s.now) :: s.log } := by
  have hheld : ∀ a, (∃ c, (bus.frules c).Holds a) ↔
      a = addr ∨ ∃ c, (s.bus.frules c).Holds a := by
    intro a
    have hcases := hupdated
    generalize bus.frules = frules' at hcases
    cases hcases with
    | again hi => exact exists_update_holds htick fun b hb => hb.2.symm.trans hi.2
    | learned hnew hfree => exact exists_update_holds htick fun b hb => absurd hfree hb.1
    | full hnew hfull => exact absurd hfull (h.not_full hsparse hnew)
  refine ⟨hupdated.distinct h.distinct, fun a => ?_, fun a τ hτ => ?_, ?_⟩
  · rw [hheld, h.held]
    constructor
    · rintro (rfl | ⟨τ, hτ⟩)
      · exact ⟨s.now, List.mem_cons_self⟩
      · exact ⟨τ, List.mem_cons_of_mem _ hτ⟩
    · rintro ⟨τ, hτ⟩
      rcases List.mem_cons.1 hτ with heq | hτ
      · exact .inl (congrArg Prod.fst heq)
      · exact .inr ⟨τ, hτ⟩
  · rcases List.mem_cons.1 hτ with heq | hτ
    · obtain ⟨rfl, rfl⟩ := Prod.mk.inj heq
      exact ⟨s.now, List.mem_cons_self, Nat.le_add_right ..⟩
    · obtain ⟨τ', hτ', hrecent⟩ := h.recent a τ hτ
      exact ⟨τ', List.mem_cons_of_mem _ hτ', hrecent⟩
  · exact List.forall_mem_cons.2 ⟨Nat.le_refl _, h.past⟩

variable [DecidableEq B]

/-- **One step.** -/
theorem step {a : Act B} (h : Inv s) (hkept : Kept s a) (hsparse : Sparse s'.log)
    (hstep : Step s a s') : Inv s' := by
  cases hstep with
  | @wait d =>
    refine ⟨h.distinct, h.held, fun addr τ hτ => ?_, fun p hp => ?_⟩
    · obtain ⟨⟨a, τ'⟩, hq, rfl, hle⟩ := hkept (addr, τ) hτ
      exact ⟨τ', hq, hle⟩
    · exact (h.past p hp).trans (Nat.le_add_right ..)
  | still hframes _ =>
    exact ⟨hframes ▸ h.distinct, hframes ▸ h.held, h.recent, h.past⟩
  | update hupdated hiff => exact h.update hupdated (hiff.1 hkept) hsparse

/-- **One step that is not kept to** goes wrong at once: a station that is
silent is still there, and one that was just heard of is not. -/
theorem not_exact {a : Act B} (h : Inv s) (hkept : ¬ Kept s a) (hstep : Step s a s') :
    ¬ s'.Exact := by
  intro hexact
  cases hstep with
  | @wait d =>
    refine hkept fun p hp => ?_
    have hforward : s.bus.fruleForward p.1 = 1 := fruleForward_eq_one.2 ((h.held p.1).2 ⟨p.2, hp⟩)
    obtain ⟨τ, hτ, hle⟩ := (hexact p.1).1 hforward
    exact ⟨(p.1, τ), hτ, rfl, hle⟩
  | still _ hkept' => exact hkept hkept'
  | @update b frame len bus hupdated hiff =>
    have hzero : s.jiffies = 0 := not_not.1 (mt hiff.2 hkept)
    rw [hzero] at hupdated
    have hrecent : Sys.Recent ⟨bus, s.now, (frame.src, s.now) :: s.log⟩ frame.src :=
      ⟨s.now, List.mem_cons_self, Nat.le_add_right ..⟩
    obtain ⟨i, hi⟩ := fruleForward_eq_one.1 ((hexact frame.src).2 hrecent)
    exact not_holds_of_zero h.distinct hupdated i hi

end Inv

/-! ### Runs -/

section Runs

variable [DecidableEq B] {s s' t : Sys B}

/-- After `mac_bus_combi_attach`: the table is zeroed. -/
structure Sys.Fresh (s : Sys B) : Prop where
  free : ∀ i, (s.bus.frules i).lifetime = 0
  unheard : s.log = []

omit [DecidableEq B] in
theorem Sys.Fresh.inv (h : s.Fresh) : Inv s := by
  have hnone : ∀ i addr, ¬ (s.bus.frules i).Holds addr := fun i _ hi => hi.1 (h.free i)
  have hempty : ∀ p, p ∉ s.log := fun p hp => nomatch h.unheard ▸ hp
  exact {
    distinct := fun i _ addr hi => absurd hi (hnone i addr)
    held := fun addr =>
      iff_of_false (fun ⟨i, hi⟩ => hnone i addr hi) (fun ⟨τ, hτ⟩ => hempty _ hτ)
    recent := fun addr τ hτ => absurd hτ (hempty _)
    past := fun p hp => absurd hp (hempty p) }

/-- With fewer updates, there are fewer stations. -/
theorem Sparse.of_suffix {log log' : List (Mac × ℕ)} (h : Sparse log') (hsuffix : log <:+ log') :
    Sparse log := by
  intro τ
  refine (Finset.card_le_card ?_).trans (h τ)
  intro addr haddr
  rw [List.mem_toFinset, List.mem_map] at haddr ⊢
  obtain ⟨p, hp, rfl⟩ := haddr
  exact ⟨p, (hsuffix.sublist.filter _).subset hp, rfl⟩

theorem Step.log_suffix {a : Act B} (h : Step s a s') : s.log <:+ s'.log := by
  cases h with
  | wait => exact List.suffix_rfl
  | still => exact List.suffix_rfl
  | update => exact List.suffix_cons ..

/-- **The rules are the stations heard of lately, at every moment,**
exactly when no update is at tick 0 and no station falls silent. -/
theorem frules_exact_iff {start : Sys B} {as : List (Act B)} (hstart : start.Fresh)
    (hrun : combi.run start as = some t) (hsparse : Sparse t.log) :
    combi.Always Sys.Exact start as ↔ combi.Along Kept start as := by
  have hsparse' : combi.Always (fun s => Sparse s.log) start as :=
    Machine.always_of_run
      (fun s a s' hs h => h.of_suffix (step_of_eq hs).log_suffix) hrun hsparse
  exact Machine.always_iff_along (I := Inv) (fun _ h => h.exact_of)
    (fun _ _ _ h hkept hsparse hs => h.step hkept hsparse (step_of_eq hs))
    (fun _ _ _ h hkept hs => h.not_exact hkept (step_of_eq hs)) hstart.inv hsparse' hrun

end Runs

/-- The zeroed table, at the given time. -/
def freshAt (now : ℕ) : Sys Bool := ⟨attached fun _ => 0, now, []⟩

theorem freshAt_fresh (now : ℕ) : (freshAt now).Fresh := ⟨fun _ => rfl, rfl⟩

/-- One station, half a second ago. -/
theorem frules_exact_half_second : ∃ t,
    combi.run (freshAt 5) [.recv true (frameTo 0xFF 7) 14, .wait 500] = some t ∧
    Sparse t.log ∧
    combi.Always Sys.Exact (freshAt 5) [.recv true (frameTo 0xFF 7) 14, .wait 500] := by
  have hsparse : Sparse [((frameTo 0xFF 7).src, 5)] := by
    intro τ
    refine (List.toFinset_card_le _).trans ?_
    rw [List.length_map]
    exact (List.length_filter_le ..).trans (by decide)
  refine ⟨_, rfl, hsparse, ?_⟩
  exact (frules_exact_iff (freshAt_fresh 5) rfl hsparse).2 (by decide)

/-- **A station that has been silent for longer than `FRULE_TMO`** still
has its rule, and **one that is learned at tick 0** has none. -/
theorem frules_not_exact :
    (∃ t, combi.run (freshAt 5) [.recv true (frameTo 0xFF 7) 14, .wait 1001] = some t ∧
      ¬ t.Recent (frameTo 0xFF 7).src ∧ t.bus.fruleForward (frameTo 0xFF 7).src = 1) ∧
    ∃ t, combi.run (freshAt (2 ^ 32)) [.recv true (frameTo 0xFF 7) 14] = some t ∧
      t.Recent (frameTo 0xFF 7).src ∧ t.bus.fruleForward (frameTo 0xFF 7).src = 0 := by
  refine ⟨⟨_, rfl, ?_, by decide⟩, ⟨_, rfl, ?_, by decide⟩⟩
  · rintro ⟨τ, hτ, hle⟩
    obtain ⟨-, rfl⟩ := Prod.mk.inj (List.mem_singleton.1 hτ)
    exact absurd hle (by decide)
  · exact ⟨2 ^ 32, List.mem_cons_self, Nat.le_add_right ..⟩

end Combi

end Hgsdk

import Hgsdk.Combi.Rules
/-!
# Learned addresses are unique and stable

The table under any sequence of `combi_bus_frule_update` and
`combi_bus_frule_expire`, at any ticks. An expired slot keeps its address
bytes, and an update may find a free slot before the one that holds its
address; still no address is live in two slots, since an update takes a new
slot only when it has seen them all.
-/

namespace Hgsdk

namespace Combi

variable {B : Type}

/-- A call on the table; `os_jiffies` may return anything. -/
inductive FruleCall
  | update (jiffies : BitVec 32) (addr : Mac)
  | expire (jiffies : Slot → BitVec 32)

/-- **The table's calls, one after another.** -/
def fruleCalls : Machine (CombiBus B) FruleCall where
  step s
    | .update jiffies addr => some (s.fruleUpdate jiffies addr)
    | .expire jiffies => some (s.fruleExpire jiffies)

section Table

variable {frules frules' : Slot → Frule} {jiffies : BitVec 32} {addr a : Mac} {i : Slot}

/-! ### One update -/

/-- A live slot keeps its address. -/
theorem Updated.addr_of_live (hupdated : Updated frules jiffies addr frules') {c : Slot}
    (hlive : (frules c).lifetime ≠ 0) : (frules' c).addr = (frules c).addr := by
  cases hupdated with
  | @again i hi =>
    by_cases hc : c = i
    · rw [hc, Function.update_self]
      exact hi.2.symm
    · rw [Function.update_of_ne hc]
  | @learned i _ hfree =>
    have hc : c ≠ i := fun heq => hlive (heq ▸ hfree)
    rw [Function.update_of_ne hc]
  | full => rfl

/-- A live slot of another address keeps its lifetime. -/
theorem Updated.lifetime_of_live (hupdated : Updated frules jiffies addr frules') {c : Slot}
    (hlive : (frules c).lifetime ≠ 0) (hother : (frules c).addr ≠ addr) :
    (frules' c).lifetime = (frules c).lifetime := by
  cases hupdated with
  | @again i hi =>
    have hc : c ≠ i := fun heq => hother (heq ▸ hi.2)
    rw [Function.update_of_ne hc]
  | @learned i _ hfree =>
    have hc : c ≠ i := fun heq => hlive (heq ▸ hfree)
    rw [Function.update_of_ne hc]
  | full => rfl

/-- **A new address is stored where there is room.** -/
theorem Updated.stored_iff (hupdated : Updated frules jiffies addr frules')
    (hnew : ∀ c, ¬ (frules c).Holds addr) :
    (∃ c, frules' c = ⟨jiffies, addr⟩) ↔ ∃ c, (frules c).lifetime = 0 := by
  cases hupdated with
  | @again i hi => exact absurd hi (hnew i)
  | @learned i _ hfree =>
    exact iff_of_true ⟨i, Function.update_self ..⟩ ⟨i, hfree⟩
  | full _ hfull =>
    refine iff_of_false ?_ fun ⟨c, hfree⟩ => hfull c hfree
    rintro ⟨c, hc⟩
    exact hnew c ⟨hfull c, congrArg Frule.addr hc⟩

/-- It is live there, but at tick 0. -/
theorem Updated.live_iff (hupdated : Updated frules jiffies addr frules')
    (hnew : ∀ c, ¬ (frules c).Holds addr) :
    (∃ c, (frules' c).Holds addr) ↔ jiffies ≠ 0 ∧ ∃ c, (frules c).lifetime = 0 := by
  cases hupdated with
  | @again i hi => exact absurd hi (hnew i)
  | @learned i _ hfree =>
    constructor
    · rintro ⟨c, hc⟩
      rcases holds_of_update_holds hc with ⟨rfl, -⟩ | ⟨-, hold⟩
      · rw [Function.update_self] at hc
        exact ⟨hc.1, c, hfree⟩
      · exact absurd hold (hnew c)
    · rintro ⟨hj, -⟩
      exact ⟨i, (update_holds hj).2 (.inl ⟨rfl, rfl⟩)⟩
  | full _ hfull =>
    exact iff_of_false (fun ⟨c, hc⟩ => hnew c hc) fun ⟨_, c, hfree⟩ => hfull c hfree

end Table

/-! ### Expiry -/

variable {s t : CombiBus B}

/-- What is live after an expiry was live before, for the same address. -/
theorem holds_of_fruleExpire {jiffies : Slot → BitVec 32} {c : Slot} {addr : Mac}
    (h : ((s.fruleExpire jiffies).frules c).Holds addr) : (s.frules c).Holds addr := by
  simp only [CombiBus.fruleExpire] at h
  split at h
  next => exact absurd rfl h.1
  next => exact h

theorem distinct_fruleExpire (h : Distinct s.frules) (jiffies : Slot → BitVec 32) :
    Distinct (s.fruleExpire jiffies).frules :=
  fun c c' addr hc hc' => h c c' addr (holds_of_fruleExpire hc) (holds_of_fruleExpire hc')

/-! ### Any sequence -/

/-- Every call keeps the addresses apart. -/
theorem distinct_step {call : FruleCall} (h : Distinct s.frules)
    (hstep : fruleCalls.step s call = some t) : Distinct t.frules := by
  cases call with
  | update jiffies addr =>
    obtain rfl := Option.some.inj hstep
    exact (updated_fruleUpdate s jiffies addr).distinct h
  | expire jiffies =>
    obtain rfl := Option.some.inj hstep
    exact distinct_fruleExpire h jiffies

/-- **What the next update does** to the table: live slots keep their address,
live slots of other addresses their lifetime, and a new address is stored
exactly where there is a free slot. It is live there unless the tick is 0. -/
structure UpdateStable (s : CombiBus B) (jiffies : BitVec 32) (addr : Mac) : Prop where
  addr_kept : ∀ c, (s.frules c).lifetime ≠ 0 →
    ((s.fruleUpdate jiffies addr).frules c).addr = (s.frules c).addr
  lifetime_kept : ∀ c, (s.frules c).lifetime ≠ 0 → (s.frules c).addr ≠ addr →
    ((s.fruleUpdate jiffies addr).frules c).lifetime = (s.frules c).lifetime
  stored : (∀ c, ¬ (s.frules c).Holds addr) →
    ((∃ c, (s.fruleUpdate jiffies addr).frules c = ⟨jiffies, addr⟩) ↔
      ∃ c, (s.frules c).lifetime = 0)
  live : (∀ c, ¬ (s.frules c).Holds addr) →
    ((∃ c, ((s.fruleUpdate jiffies addr).frules c).Holds addr) ↔
      jiffies ≠ 0 ∧ ∃ c, (s.frules c).lifetime = 0)

theorem updateStable (s : CombiBus B) (jiffies : BitVec 32) (addr : Mac) :
    UpdateStable s jiffies addr := by
  have hupdated := updated_fruleUpdate s jiffies addr
  exact ⟨fun _ => hupdated.addr_of_live, fun _ => hupdated.lifetime_of_live,
    hupdated.stored_iff, hupdated.live_iff⟩

/-- **Learned addresses are unique and stable**, after any updates and
expiries on a zeroed table. -/
theorem learned_unique_stable (hzero : ∀ c, s.frules c = ⟨0, fun _ => 0⟩)
    {calls : List FruleCall} (hrun : fruleCalls.run s calls = some t) :
    (∀ c c', (t.frules c).lifetime ≠ 0 → (t.frules c').lifetime ≠ 0 →
      (t.frules c).addr = (t.frules c').addr → c = c') ∧
    ∀ jiffies addr, UpdateStable t jiffies addr := by
  have hstart : Distinct s.frules := by
    intro c c' addr hc
    rw [hzero c] at hc
    exact absurd rfl hc.1
  have hdistinct : Distinct t.frules :=
    Machine.inv_of_run_of_step (I := fun s => Distinct s.frules)
      (fun _ _ _ h hstep => distinct_step h hstep) hstart hrun
  refine ⟨fun c c' hc hc' heq => ?_, updateStable t⟩
  exact hdistinct c c' _ ⟨hc, rfl⟩ ⟨hc', heq.symm⟩

/-- Two addresses are learned, the first expires, and the second is heard of
again behind the slot that is free now. -/
def heardAgain : List FruleCall :=
  [.update 5 (fun _ => 1), .update 9 (fun _ => 2), .expire (fun _ => 1008),
    .update 1009 (fun _ => 2)]

theorem learned_unique_stable_again : ∃ t,
    fruleCalls.run (freshAt 0).bus heardAgain = some t ∧
    (t.frules 0).lifetime = 0 ∧ t.frules 1 = ⟨1009, fun _ => 2⟩ ∧
    (∀ c c', (t.frules c).lifetime ≠ 0 → (t.frules c').lifetime ≠ 0 →
      (t.frules c).addr = (t.frules c').addr → c = c') ∧
    UpdateStable t 1010 (fun _ => 1) := by
  have hzero : ∀ c, (freshAt 0).bus.frules c = ⟨0, fun _ => 0⟩ := fun _ => rfl
  have hboth := learned_unique_stable hzero (show fruleCalls.run _ heardAgain = some _ from rfl)
  exact ⟨_, rfl, by decide, by decide, hboth.1, hboth.2 1010 fun _ => 1⟩

end Combi

end Hgsdk

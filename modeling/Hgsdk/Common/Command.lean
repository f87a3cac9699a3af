import Mathlib.Data.Option.Basic
import Mathlib.Tactic.Common
/-!
# Commands and what they ensure

A command reads and writes a state and returns a value, or does not
return at all: it faults, or loops for ever. `Ensures m s Q` is total
correctness — from `s` the command returns, and `Q` holds of what it
returns and of the state it leaves. One rule per construct takes a
command apart, and a caller goes on from a callee's specification by
`Ensures.bind` without looking inside it.
-/

namespace Hgsdk

/-- **A command** over states `σ`. -/
abbrev Cmd (σ : Type) := StateT σ Option

variable {σ α β : Type}

/-- The value of an access that may fault: nothing is behind a null
pointer, or past the end of a table. -/
def Cmd.deref (o : Option α) : Cmd σ α := fun s => o.map fun a => (a, s)

/-- A command that runs only where `c` holds. -/
def Cmd.when (c : Prop) [Decidable c] (m : Cmd σ Unit) : Cmd σ Unit :=
  if c then m else pure ()

/-- From `s` the command returns, and what it returns satisfies `Q`. -/
def Ensures (m : Cmd σ α) (s : σ) (Q : α → σ → Prop) : Prop :=
  ∃ a t, m s = some (a, t) ∧ Q a t

namespace Ensures

variable {m : Cmd σ α} {f : α → Cmd σ β} {s : σ} {Q Q' : α → σ → Prop} {R : β → σ → Prop}

theorem mono (h : Ensures m s Q) (hQ : ∀ a t, Q a t → Q' a t) : Ensures m s Q' := by
  obtain ⟨a, t, hm, ha⟩ := h
  exact ⟨a, t, hm, hQ a t ha⟩

/-- **Sequencing.** What the first command ensures is what the second
starts from. -/
theorem bind (h : Ensures m s Q) (hf : ∀ a t, Q a t → Ensures (f a) t R) :
    Ensures (m >>= f) s R := by
  obtain ⟨a, t, hm, ha⟩ := h
  obtain ⟨b, u, hb, hR⟩ := hf a t ha
  refine ⟨b, u, ?_, hR⟩
  show (m s).bind (fun p => f p.1 p.2) = _
  rw [hm]
  exact hb

/-- What a command that returns has ensured holds of the result. -/
theorem of_eq {a : α} {t : σ} (h : Ensures m s Q) (hm : m s = some (a, t)) : Q a t := by
  obtain ⟨a', t', hm', ha⟩ := h
  obtain ⟨rfl, rfl⟩ := Prod.mk.inj (Option.some.inj (hm.symm.trans hm'))
  exact ha

end Ensures

section Rules

variable {m : Cmd σ α} {f : α → Cmd σ β} {s : σ} {Q : α → σ → Prop} {R : β → σ → Prop}

@[simp] theorem ensures_pure {a : α} : Ensures (pure a : Cmd σ α) s Q ↔ Q a s := by
  constructor
  · rintro ⟨a', t, h, hQ⟩
    obtain ⟨rfl, rfl⟩ := Prod.mk.inj (Option.some.inj h)
    exact hQ
  · exact fun h => ⟨a, s, rfl, h⟩

@[simp] theorem ensures_bind :
    Ensures (m >>= f) s R ↔ Ensures m s fun a t => Ensures (f a) t R := by
  constructor
  · rintro ⟨b, u, h, hR⟩
    have hbind : (m s).bind (fun p => f p.1 p.2) = some (b, u) := h
    obtain ⟨⟨a, t⟩, hm, hf⟩ := Option.bind_eq_some_iff.1 hbind
    exact ⟨a, t, hm, b, u, hf, hR⟩
  · exact fun h => h.bind fun _ _ h => h

@[simp] theorem ensures_get {Q : σ → σ → Prop} : Ensures (get : Cmd σ σ) s Q ↔ Q s s :=
  ensures_pure

@[simp] theorem ensures_modify {g : σ → σ} {Q : PUnit → σ → Prop} :
    Ensures (modify g : Cmd σ PUnit) s Q ↔ Q ⟨⟩ (g s) := by
  constructor
  · rintro ⟨a, t, h, hQ⟩
    obtain ⟨rfl, rfl⟩ := Prod.mk.inj (Option.some.inj h)
    exact hQ
  · exact fun h => ⟨⟨⟩, g s, rfl, h⟩

@[simp] theorem ensures_set {s' : σ} {Q : PUnit → σ → Prop} :
    Ensures (set s' : Cmd σ PUnit) s Q ↔ Q ⟨⟩ s' := by
  constructor
  · rintro ⟨a, t, h, hQ⟩
    obtain ⟨rfl, rfl⟩ := Prod.mk.inj (Option.some.inj h)
    exact hQ
  · exact fun h => ⟨⟨⟩, s', rfl, h⟩

@[simp] theorem ensures_deref {o : Option α} :
    Ensures (Cmd.deref o : Cmd σ α) s Q ↔ ∃ a, o = some a ∧ Q a s := by
  constructor
  · rintro ⟨a, t, h, hQ⟩
    obtain ⟨a', ha', h'⟩ := Option.map_eq_some_iff.1 h
    obtain ⟨rfl, rfl⟩ := Prod.mk.inj h'
    exact ⟨a', ha', hQ⟩
  · rintro ⟨a, rfl, hQ⟩
    exact ⟨a, s, rfl, hQ⟩

@[simp] theorem ensures_when {c : Prop} [Decidable c] {m : Cmd σ Unit} {Q : Unit → σ → Prop} :
    Ensures (Cmd.when c m) s Q ↔ (c → Ensures m s Q) ∧ (¬ c → Q () s) := by
  unfold Cmd.when
  split <;> simp [*]

end Rules

/-! ### Triples -/

/-- From any state in `P` the command returns, in a state in `Q`. -/
def Leads (P : σ → Prop) (m : Cmd σ α) (Q : σ → Prop) : Prop :=
  ∀ s, P s → Ensures m s fun _ t => Q t

namespace Leads

variable {m : Cmd σ α} {f : α → Cmd σ β} {P P' Q Q' R : σ → Prop}

theorem mono (h : Leads P m Q) (hP : ∀ s, P' s → P s) (hQ : ∀ s, Q s → Q' s) :
    Leads P' m Q' := by
  intro s hs
  refine (h s (hP s hs)).mono ?_
  exact fun _ t ht => hQ t ht

theorem pure (a : α) : Leads P (pure a : Cmd σ α) P := fun _ hs => ensures_pure.2 hs

theorem bind (h : Leads P m Q) (hf : ∀ a, Leads Q (f a) R) : Leads P (m >>= f) R := by
  intro s hs
  exact (h s hs).bind fun a t ht => hf a t ht

end Leads

/-! ### What a command does not see -/

/-- **The command does not see `g`**: from `g s` it returns what it returns
from `s`, and leaves what `g` makes of the state it leaves there. -/
def Blind (g : σ → σ) (m : Cmd σ α) : Prop := ∀ s, m (g s) = (m s).map (Prod.map id g)

namespace Blind

variable {g : σ → σ} {m : Cmd σ α} {f : α → Cmd σ β} {s : σ}

theorem pure (a : α) : Blind g (pure a : Cmd σ α) := fun _ => rfl

theorem deref (o : Option α) : Blind g (Cmd.deref o) := by
  intro s
  cases o <;> rfl

theorem bind (h : Blind g m) (hf : ∀ a, Blind g (f a)) : Blind g (m >>= f) := by
  intro s
  show (m (g s)).bind (fun p => f p.1 p.2) = ((m s).bind fun p => f p.1 p.2).map _
  rw [h s]
  cases hm : m s with
  | none => rfl
  | some p => exact hf p.1 p.2

theorem ite {c : Prop} [Decidable c] {m' : Cmd σ α} (h : Blind g m) (h' : Blind g m') :
    Blind g (if c then m else m') := by
  split
  · exact h
  · exact h'

/-- What a returning command leaves, through `g`. -/
theorem of_eq {a : α} {t : σ} (h : Blind g m) (hm : m s = some (a, t)) :
    m (g s) = some (a, g t) := by
  rw [h s, hm]
  rfl

/-- **What it does not see it leaves**: where `g` does nothing to `s`, it
does nothing to what is left. -/
theorem fixed {a : α} {t : σ} (h : Blind g m) (hs : g s = s) (hm : m s = some (a, t)) :
    g t = t := by
  have heq := h.of_eq hm
  rw [hs, hm] at heq
  exact (Prod.mk.inj (Option.some.inj heq)).2.symm

end Blind

/-! ### Loops -/

/-- The body of a loop: it goes round again from a new value of its
variables (`inl`) or leaves with a result (`inr`). -/
structure Loop (σ β α : Type) where
  body : β → Cmd σ (β ⊕ α)

/-- The turns of a loop. -/
def Loop.turns (l : Loop σ β α) (b : β) : Cmd σ α := do
  match ← l.body b with
  | .inl b' => l |>.turns b'
  | .inr a => return a
partial_fixpoint

/-- **A loop.** One that never leaves does not return. -/
def Cmd.iterate (body : β → Cmd σ (β ⊕ α)) (b : β) : Cmd σ α := (Loop.mk body).turns b

/-- **The loop rule.** Where one turn of the body keeps `J` and brings `μ`
down, or leaves with `Q`, the loop returns with `Q`. -/
theorem ensures_iterate {body : β → Cmd σ (β ⊕ α)} {Q : α → σ → Prop} (J : β → σ → Prop)
    (μ : β → σ → ℕ)
    (hbody : ∀ b s, J b s → Ensures (body b) s fun r t =>
      match r with
      | .inl b' => J b' t ∧ μ b' t < μ b s
      | .inr a => Q a t)
    {b : β} {s : σ} (h : J b s) : Ensures (Cmd.iterate body b) s Q := by
  induction hn : μ b s using Nat.strongRecOn generalizing b s with
  | _ n ih =>
    rw [Cmd.iterate, Loop.turns]
    refine (hbody b s h).bind ?_
    intro r t hr
    cases r with
    | inl b' => exact ih _ (hn ▸ hr.2) hr.1 rfl
    | inr a => exact ensures_pure.2 hr

/-- **The loop cut off** after `n` turns. Unlike the loop it can be evaluated. -/
def Cmd.iterateFor (body : β → Cmd σ (β ⊕ α)) : ℕ → β → Cmd σ α
  | 0, _ => Cmd.deref none
  | n + 1, b => do
    match ← body b with
    | .inl b' => Cmd.iterateFor body n b'
    | .inr a => return a

/-- A loop that leaves within `n` turns. -/
theorem iterate_of_iterateFor {body : β → Cmd σ (β ⊕ α)} {n : ℕ} {b : β} {s : σ} {p : α × σ}
    (h : Cmd.iterateFor body n b s = some p) : Cmd.iterate body b s = some p := by
  induction n generalizing b s with
  | zero => cases h
  | succ n ih =>
    obtain ⟨⟨r, t⟩, hbody, hrest⟩ := Option.bind_eq_some_iff.1 h
    rw [Cmd.iterate, Loop.turns]
    refine Option.bind_eq_some_iff.2 ⟨(r, t), hbody, ?_⟩
    cases r with
    | inl b' => exact ih hrest
    | inr a => exact hrest

/-- A loop whose first turn leaves it. -/
theorem ensures_iterate_once {body : β → Cmd σ (β ⊕ α)} {Q : α → σ → Prop} {b : β} {s : σ}
    (h : Ensures (body b) s fun r t => ∃ a, r = .inr a ∧ Q a t) :
    Ensures (Cmd.iterate body b) s Q := by
  rw [Cmd.iterate, Loop.turns]
  refine h.bind ?_
  rintro r t ⟨a, rfl, ha⟩
  exact ensures_pure.2 ha

end Hgsdk

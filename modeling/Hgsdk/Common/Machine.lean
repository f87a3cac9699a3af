import Mathlib.Data.List.Basic
/-!
# Machines and their runs

A machine is a partial step function over labels: a label the state does
not enable leads nowhere. Everything nondeterministic about a system — who
moves next, what arrives, what times out — is in the labels, so a run is a
list of them, and a statement about every interleaving is a statement
about every list.

`Along C s as` says that every step the run takes meets `C` in the state
it is taken from. It is how a result is confined to the runs that keep to
a condition, and `inv_of_run` is the one induction over runs. `Always I s
as` says that every state the run goes through meets `I`.
-/

namespace Hgsdk

/-- **A machine**: what each label does to each state, where it is
enabled. -/
structure Machine (σ ι : Type*) where
  step : σ → ι → Option σ

namespace Machine

variable {σ ι : Type*} (M : Machine σ ι) {C : σ → ι → Prop} {I : σ → Prop}
variable {s t : σ} {a : ι} {as bs : List ι}

/-- The state a run ends in, if every label of it is enabled. -/
def run : σ → List ι → Option σ
  | s, [] => some s
  | s, a :: as => (M.step s a).bind fun t => run t as

/-- Every step of the run meets `C` in the state it is taken from. -/
def Along (C : σ → ι → Prop) : σ → List ι → Prop
  | _, [] => True
  | s, a :: as => C s a ∧ ∀ t, M.step s a = some t → Along C t as

/-- Every state the run goes through meets `I`, the first and the last
included. -/
def Always (I : σ → Prop) : σ → List ι → Prop
  | s, [] => I s
  | s, a :: as => I s ∧ ∀ t, M.step s a = some t → Always I t as

@[simp] theorem run_nil : M.run s [] = some s := rfl

@[simp] theorem along_nil : M.Along C s [] := trivial

theorem run_cons : M.run s (a :: as) = (M.step s a).bind fun t => M.run t as := rfl

variable {M}

theorem run_cons_eq_some :
    M.run s (a :: as) = some t ↔ ∃ u, M.step s a = some u ∧ M.run u as = some t := by
  rw [run_cons, Option.bind_eq_some_iff]

theorem run_cons_of_step {u : σ} (h : M.step s a = some u) :
    M.run s (a :: as) = M.run u as := by
  rw [run_cons, h, Option.bind_some]

/-- A run of two parts goes through the state its first part ends in. -/
theorem run_append : M.run s (as ++ bs) = (M.run s as).bind fun t => M.run t bs := by
  induction as generalizing s with
  | nil => rfl
  | cons a as ih =>
    rw [List.cons_append, run_cons, run_cons, Option.bind_assoc]
    exact congrArg _ (funext fun _ => ih)

theorem run_append_of_run {u : σ} (h : M.run s as = some u) :
    M.run s (as ++ bs) = M.run u bs := by
  rw [run_append, h, Option.bind_some]

theorem along_cons_of_step {u : σ} (h : M.step s a = some u) :
    M.Along C s (a :: as) ↔ C s a ∧ M.Along C u as := by
  simp only [Along, h, Option.some.injEq, forall_eq']

theorem always_cons_of_step {u : σ} (h : M.step s a = some u) :
    M.Always I s (a :: as) ↔ I s ∧ M.Always I u as := by
  simp only [Always, h, Option.some.injEq, forall_eq']

theorem Always.head (h : M.Always I s as) : I s := by
  cases as with
  | nil => exact h
  | cons a as => exact h.1

theorem Always.mono {J : σ → Prop} (h : M.Always I s as) (hIJ : ∀ s, I s → J s) :
    M.Always J s as := by
  induction as generalizing s with
  | nil => exact hIJ s h
  | cons a as ih => exact ⟨hIJ s h.1, fun t ht => ih (h.2 t ht)⟩

/-- What every step that meets `C` keeps is there at every moment. -/
theorem always_of_along (hstep : ∀ s a t, I s → C s a → M.step s a = some t → I t) (hs : I s)
    (hC : M.Along C s as) : M.Always I s as := by
  induction as generalizing s with
  | nil => exact hs
  | cons a as ih => exact ⟨hs, fun t ht => ih (hstep s a t hs hC.1 ht) (hC.2 t ht)⟩

/-- What no step brings back was there all along. -/
theorem always_of_run (hback : ∀ s a t, M.step s a = some t → I t → I s)
    (hrun : M.run s as = some t) (ht : I t) : M.Always I s as := by
  induction as generalizing s with
  | nil => cases hrun; exact ht
  | cons a as ih =>
    obtain ⟨u, hu, hrest⟩ := run_cons_eq_some.1 hrun
    have hrest := ih hrest
    exact (always_cons_of_step hu).2 ⟨hback s a u hu hrest.head, hrest⟩

/-- A condition that can be decided can be decided along a run. -/
instance decidableAlong [∀ s a, Decidable (C s a)] : ∀ s as, Decidable (M.Along C s as)
  | _, [] => isTrue trivial
  | s, a :: as =>
    match hstep : M.step s a with
    | some t =>
      have := decidableAlong t as
      decidable_of_iff (C s a ∧ M.Along C t as) (along_cons_of_step hstep).symm
    | none =>
      decidable_of_iff (C s a) ⟨fun h => ⟨h, fun _ ht => nomatch hstep.symm.trans ht⟩, And.left⟩

theorem along_of_forall_mem (h : ∀ a ∈ as, ∀ s, C s a) : M.Along C s as := by
  induction as generalizing s with
  | nil => trivial
  | cons a as ih =>
    refine ⟨h a List.mem_cons_self s, fun _ _ => ih ?_⟩
    intro b hb
    exact h b (List.mem_cons_of_mem _ hb)

theorem along_of_forall (h : ∀ s a, C s a) : M.Along C s as :=
  along_of_forall_mem fun a _ s => h s a

/-- What every step keeps is there at every moment. -/
theorem always_of_step (hstep : ∀ s a t, I s → M.step s a = some t → I t) (hs : I s) :
    M.Always I s as :=
  always_of_along (C := fun _ _ => True) (fun s a t hs _ => hstep s a t hs) hs
    (along_of_forall fun _ _ => trivial)

/-- A condition along a run of two parts. -/
theorem along_append_of_run {u : σ} (h : M.run s as = some u) :
    M.Along C s (as ++ bs) ↔ M.Along C s as ∧ M.Along C u bs := by
  induction as generalizing s with
  | nil =>
    obtain rfl := Option.some.inj h
    exact (and_iff_right trivial).symm
  | cons a as ih =>
    obtain ⟨v, hv, hrest⟩ := run_cons_eq_some.1 h
    rw [List.cons_append, along_cons_of_step hv, along_cons_of_step hv, ih hrest, and_assoc]

theorem Along.and {C' : σ → ι → Prop} (h : M.Along C s as) (h' : M.Along C' s as) :
    M.Along (fun s a => C s a ∧ C' s a) s as := by
  induction as generalizing s with
  | nil => trivial
  | cons a as ih => exact ⟨⟨h.1, h'.1⟩, fun t ht => ih (h.2 t ht) (h'.2 t ht)⟩

/-- **The invariant rule.** What every step meeting `C` keeps, a run all
of whose steps meet `C` keeps. -/
theorem inv_of_run (hstep : ∀ s a t, I s → C s a → M.step s a = some t → I t)
    (hs : I s) (hC : M.Along C s as) (hrun : M.run s as = some t) : I t := by
  induction as generalizing s with
  | nil => cases hrun; exact hs
  | cons a as ih =>
    obtain ⟨u, hu, ht⟩ := run_cons_eq_some.1 hrun
    exact ih (hstep s a u hs hC.1 hu) (hC.2 u hu) ht

/-- The rule for an invariant every step keeps. -/
theorem inv_of_run_of_step (hstep : ∀ s a t, I s → M.step s a = some t → I t)
    (hs : I s) (hrun : M.run s as = some t) : I t :=
  inv_of_run (C := fun _ _ => True) (fun s a t hs _ => hstep s a t hs) hs
    (along_of_forall fun _ _ => trivial) hrun

/-- **The rule over the past.** What is true of the state and of the steps
that led to it, one step more keeps true. -/
theorem past_of_run {P : List ι → σ → Prop}
    (hstep : ∀ as s a t, P as s → M.step s a = some t → P (as ++ [a]) t) (hs : P [] s)
    (hrun : M.run s as = some t) : P as t := by
  -- the steps still to come are appended to those already taken
  have hrest : ∀ past s, P past s → M.run s as = some t → P (past ++ as) t := by
    clear hs hrun
    induction as with
    | nil =>
      intro past s hs hrun
      cases hrun
      rw [List.append_nil]
      exact hs
    | cons a as ih =>
      intro past s hs hrun
      obtain ⟨u, hu, ht⟩ := run_cons_eq_some.1 hrun
      rw [List.append_cons]
      exact ih (past ++ [a]) u (hstep past s a u hs hu) ht
  exact hrest [] s hs hrun

/-- **Forward simulation**: where every step that meets `C` is matched by
the other machine under the same label, every run is. -/
theorem sim_of_run {τ : Type*} {N : Machine τ ι} {R : σ → τ → Prop} {m : τ}
    (hstep : ∀ s m a t, R s m → C s a → M.step s a = some t →
      ∃ m', N.step m a = some m' ∧ R t m')
    (hs : R s m) (hC : M.Along C s as) (hrun : M.run s as = some t) :
    ∃ m', N.run m as = some m' ∧ R t m' := by
  induction as generalizing s m with
  | nil => cases hrun; exact ⟨m, rfl, hs⟩
  | cons a as ih =>
    obtain ⟨u, hu, ht⟩ := run_cons_eq_some.1 hrun
    obtain ⟨m', hm', hR⟩ := hstep s m a u hs hC.1 hu
    obtain ⟨m'', hrun', hR'⟩ := ih hR (hC.2 u hu) ht
    exact ⟨m'', by rw [run_cons_of_step hm', hrun'], hR'⟩

/-- What is true of every step from `I`, where every step stays in `I`, is true
along every run. -/
theorem along_of_inv (hall : ∀ s a, I s → C s a) (hstep : ∀ s a t, I s → M.step s a = some t → I t)
    (hs : I s) : M.Along C s as := by
  induction as generalizing s with
  | nil => trivial
  | cons a as ih => exact ⟨hall s a hs, fun t ht => ih (hstep s a t hs ht)⟩

/-- **Two conditions that come to the same** in every state of `I`, where a
step that meets them stays in `I`, come to the same along every run. -/
theorem along_iff_of_inv {C' : σ → ι → Prop} (hiff : ∀ s a, I s → (C s a ↔ C' s a))
    (hstep : ∀ s a t, I s → C s a → M.step s a = some t → I t) (hs : I s) :
    M.Along C s as ↔ M.Along C' s as := by
  induction as generalizing s with
  | nil => exact Iff.rfl
  | cons a as ih =>
    constructor
    · rintro ⟨hC, hrest⟩
      refine ⟨(hiff s a hs).1 hC, fun t ht => ?_⟩
      exact (ih (hstep s a t hs hC ht)).1 (hrest t ht)
    · rintro ⟨hC', hrest⟩
      have hC := (hiff s a hs).2 hC'
      refine ⟨hC, fun t ht => ?_⟩
      exact (ih (hstep s a t hs hC ht)).2 (hrest t ht)

/-- The same for the steps a run takes: what the conditions say of a step that
is not enabled does not matter. -/
theorem along_iff_of_run {C' : σ → ι → Prop}
    (hiff : ∀ s a t, I s → M.step s a = some t → (C s a ↔ C' s a))
    (hstep : ∀ s a t, I s → C s a → M.step s a = some t → I t) (hs : I s)
    (hrun : M.run s as = some t) : M.Along C s as ↔ M.Along C' s as := by
  induction as generalizing s with
  | nil => exact Iff.rfl
  | cons a as ih =>
    obtain ⟨u, hu, hrest⟩ := run_cons_eq_some.1 hrun
    rw [along_cons_of_step hu, along_cons_of_step hu, ← hiff s a u hs hu]
    refine and_congr_right ?_
    intro hC
    exact ih (hstep s a u hs hC hu) hrest

/-- **When a property holds at every moment.** A step that meets `C` keeps
an invariant that has the property, and one that does not loses the
property at once; `J` is what is known of every moment anyway. -/
theorem always_iff_along {J P : σ → Prop} (hP : ∀ s, I s → P s)
    (hstep : ∀ s a t, I s → C s a → J t → M.step s a = some t → I t)
    (hlost : ∀ s a t, I s → ¬ C s a → M.step s a = some t → ¬ P t)
    (hs : I s) (hJ : M.Always J s as) (hrun : M.run s as = some t) :
    M.Always P s as ↔ M.Along C s as := by
  induction as generalizing s with
  | nil => exact iff_of_true (hP s hs) trivial
  | cons a as ih =>
    obtain ⟨u, hu, hrest⟩ := run_cons_eq_some.1 hrun
    have hJu := ((always_cons_of_step hu).1 hJ).2
    rw [always_cons_of_step hu, along_cons_of_step hu, and_iff_right (hP s hs)]
    constructor
    · intro halways
      have hC : C s a := by
        by_contra hC
        exact hlost s a u hs hC hu halways.head
      exact ⟨hC, (ih (hstep s a u hs hC hJu.head hu) hJu hrest).1 halways⟩
    · rintro ⟨hC, halong⟩
      exact (ih (hstep s a u hs hC hJu.head hu) hJu hrest).2 halong

/-- **What a step can spoil.** A property that holds after a step exactly
where it held before and the step meets `C` holds after a run exactly
where all of its steps do. -/
theorem iff_and_along {P : σ → Prop} (hkeep : ∀ s a t, I s → M.step s a = some t → I t)
    (hstep : ∀ s a t, I s → M.step s a = some t → (P t ↔ P s ∧ C s a))
    (hs : I s) (hrun : M.run s as = some t) : P t ↔ P s ∧ M.Along C s as := by
  induction as generalizing s with
  | nil =>
    cases hrun
    exact (and_iff_left trivial).symm
  | cons a as ih =>
    obtain ⟨u, hu, hrest⟩ := run_cons_eq_some.1 hrun
    rw [ih (hkeep s a u hs hu) hrest, hstep s a u hs hu, along_cons_of_step hu, and_assoc]

/-- **Runs that never stop.** Where every step from `I` is taken and keeps
`I`, every sequence of labels is a run, and it ends in `I`. -/
theorem exists_run (hstep : ∀ s a, I s → ∃ t, M.step s a = some t ∧ I t) {s : σ}
    (hs : I s) (as : List ι) : ∃ t, M.run s as = some t ∧ I t := by
  induction as generalizing s with
  | nil => exact ⟨s, rfl, hs⟩
  | cons a as ih =>
    obtain ⟨t, hst, ht⟩ := hstep s a hs
    obtain ⟨u, hrun, hu⟩ := ih ht
    exact ⟨u, by rw [M.run_cons_of_step hst, hrun], hu⟩

/-- The same where a step has to meet a condition to be taken. -/
theorem exists_run_of_along (hstep : ∀ s a, I s → C s a → ∃ t, M.step s a = some t ∧ I t)
    (hs : I s) (hC : M.Along C s as) : ∃ t, M.run s as = some t ∧ I t := by
  induction as generalizing s with
  | nil => exact ⟨s, rfl, hs⟩
  | cons a as ih =>
    obtain ⟨t, hst, ht⟩ := hstep s a hs hC.1
    obtain ⟨u, hrun, hu⟩ := ih ht (hC.2 t hst)
    exact ⟨u, by rw [M.run_cons_of_step hst, hrun], hu⟩

/-! ### What is seen of a run -/

variable {κ τ : Type*} (M)

/-- What is seen along a run, where a step shows `f`. -/
def trace (f : σ → ι → List κ) : σ → List ι → List κ
  | _, [] => []
  | s, a :: as => f s a ++ (M.step s a).elim [] fun t => trace f t as

/-- What comes together along a run, where a step counts for `f`. -/
def tally (f : σ → ι → ℕ) : σ → List ι → ℕ
  | _, [] => 0
  | s, a :: as => f s a + (M.step s a).elim 0 fun t => tally f t as

variable {M}

theorem trace_cons_of_step {f : σ → ι → List κ} (h : M.step s a = some t) :
    M.trace f s (a :: as) = f s a ++ M.trace f t as := by
  rw [trace, h, Option.elim_some]

theorem tally_cons_of_step {f : σ → ι → ℕ} (h : M.step s a = some t) :
    M.tally f s (a :: as) = f s a + M.tally f t as := by
  rw [tally, h, Option.elim_some]

/-- **Refinement with a history.** Where what each step shows is a run of
another machine, between what the two states stand for, what a run shows is
one. -/
theorem run_trace {N : Machine τ κ} {f : σ → ι → List κ} {v : σ → τ}
    (hstep : ∀ s a t, I s → C s a → M.step s a = some t →
      I t ∧ N.run (v s) (f s a) = some (v t))
    (hs : I s) (hC : M.Along C s as) (hrun : M.run s as = some t) :
    N.run (v s) (M.trace f s as) = some (v t) := by
  induction as generalizing s with
  | nil =>
    cases hrun
    rfl
  | cons a as ih =>
    obtain ⟨u, hu, hrest⟩ := run_cons_eq_some.1 hrun
    obtain ⟨hIu, hview⟩ := hstep s a u hs hC.1 hu
    rw [trace_cons_of_step hu, run_append_of_run hview]
    exact ih hIu (hC.2 u hu) hrest

/-- **A balance.** Where each step changes `m` by what it counts for, a run
does. -/
theorem add_tally {m : σ → ℕ} {f g : σ → ι → ℕ}
    (hstep : ∀ s a t, I s → C s a → M.step s a = some t → I t ∧ m t + f s a = m s + g s a)
    (hs : I s) (hC : M.Along C s as) (hrun : M.run s as = some t) :
    m t + M.tally f s as = m s + M.tally g s as := by
  induction as generalizing s with
  | nil =>
    cases hrun
    rfl
  | cons a as ih =>
    obtain ⟨u, hu, hrest⟩ := run_cons_eq_some.1 hrun
    obtain ⟨hIu, hm⟩ := hstep s a u hs hC.1 hu
    have hrec := ih hIu (hC.2 u hu) hrest
    rw [tally_cons_of_step hu, tally_cons_of_step hu]
    omega

end Machine

end Hgsdk

import Hgsdk.Common.Machine
import Mathlib.Data.Nat.Basic
import Mathlib.Tactic.Common
/-!
# Recursive mutexes

A mutex a task may lock again while it holds it. It is given up when it
has been unlocked as often as it was locked; an unlock by anyone but the
holder is refused.
-/

namespace Hgsdk

/-- **A recursive mutex**: free, or held by a task, and how often it was
locked beyond the first time. -/
inductive RecMutex (T : Type) where
  | free
  | held (owner : T) (again : ℕ)
  deriving DecidableEq, Repr

namespace RecMutex

variable {T : Type} [DecidableEq T]

/-- How often `t` holds the mutex. -/
def count : RecMutex T → T → ℕ
  | free, _ => 0
  | held owner again, t => if owner = t then again + 1 else 0

/-- What locking leads to, where it does not have to wait. -/
def lock : RecMutex T → T → Option (RecMutex T)
  | free, t => some (held t 0)
  | held owner again, t => if owner = t then some (held owner (again + 1)) else none

/-- What unlocking leads to, where it is not refused. -/
def unlock : RecMutex T → T → Option (RecMutex T)
  | free, _ => none
  | held owner again, t =>
    if owner = t then some (match again with | 0 => free | n + 1 => held owner n) else none

variable {m n : RecMutex T} {t u : T}

theorem count_lock (h : m.lock t = some n) (u : T) :
    n.count u = m.count u + if t = u then 1 else 0 := by
  cases m with
  | free =>
    obtain rfl := Option.some.inj h
    simp [count]
  | held owner again =>
    simp only [lock] at h
    split at h
    · rename_i hown
      obtain rfl := Option.some.inj h
      subst hown
      by_cases hu : owner = u <;> simp [count, hu]
    · exact nomatch h

/-- The holder may unlock, and then holds the mutex once less. -/
theorem exists_unlock (h : 0 < m.count t) :
    ∃ n, m.unlock t = some n ∧ ∀ u, m.count u = n.count u + if t = u then 1 else 0 := by
  cases m with
  | free => exact absurd h (Nat.lt_irrefl 0)
  | held owner again =>
    have hown : owner = t := by
      by_contra hne
      rw [count, if_neg hne] at h
      exact absurd h (Nat.lt_irrefl 0)
    subst hown
    refine ⟨_, if_pos rfl, fun u => ?_⟩
    cases again <;> by_cases hu : owner = u <;> simp [count, hu]

/-- There is one holder at most. -/
theorem holder_unique (ht : 0 < m.count t) (hu : 0 < m.count u) : t = u := by
  cases m with
  | free => exact absurd ht (Nat.lt_irrefl 0)
  | held owner again =>
    have howner : ∀ v, 0 < (held owner again).count v → owner = v := by
      intro v hv
      by_contra hne
      rw [count, if_neg hne] at hv
      exact absurd hv (Nat.lt_irrefl 0)
    exact (howner t ht).symm.trans (howner u hu)

theorem eq_free (h : ∀ t, m.count t = 0) : m = free := by
  cases m with
  | free => rfl
  | held owner again =>
    have hown := h owner
    simp [count] at hown

/-! ### Its history -/

/-- What a task does to the mutex. -/
inductive Op (T : Type) where
  | lock (t : T)
  | unlock (t : T)
  deriving DecidableEq, Repr

/-- **The mutex as a machine.** An operation that has to wait, or is refused,
is no step. -/
def machine : Machine (RecMutex T) (Op T) where
  step m
    | .lock t => m.lock t
    | .unlock t => m.unlock t

end RecMutex

end Hgsdk

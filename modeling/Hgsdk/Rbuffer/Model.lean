import Hgsdk.Common.Machine
import Mathlib.Algebra.Order.Ring.Int
/-!
# The ring-buffer macros

`rbuffer.h`: two positions, a capacity and an array of slots. The macros
are defined here as one memory transaction each. `Spsc` takes the
consumer's macros apart into the memory accesses they make, with a
producer that runs a whole `RB_SET` between any two of them, which is how
an interrupt handler and a task share the buffer.
-/

namespace Hgsdk

variable {α : Type}

/-- A buffer declared by `RBUFFER_IDEF` or one of its kin. -/
structure Rbuffer (α : Type) where
  rpos : ℤ
  wpos : ℤ
  qsize : ℤ
  rbq : List α
  deriving Repr, DecidableEq

/-- `RB_NPOS`: the position after `pos`. -/
def rbNpos (rb : Rbuffer α) (pos : ℤ) : ℤ := if pos + 1 ≥ rb.qsize then 0 else pos + 1

/-- `RB_EMPTY`. -/
def RbEmpty (rb : Rbuffer α) : Prop := rb.wpos = rb.rpos

/-- `RB_FULL`: the next write position is the read position. -/
def RbFull (rb : Rbuffer α) : Prop := rbNpos rb rb.wpos = rb.rpos

instance (rb : Rbuffer α) : Decidable (RbEmpty rb) :=
  inferInstanceAs (Decidable (rb.wpos = rb.rpos))

instance (rb : Rbuffer α) : Decidable (RbFull rb) :=
  inferInstanceAs (Decidable (rbNpos rb rb.wpos = rb.rpos))

/-- `RB_COUNT`. -/
def rbCount (rb : Rbuffer α) : ℤ :=
  if rb.rpos ≤ rb.wpos then rb.wpos - rb.rpos else rb.qsize - rb.rpos + rb.wpos

/-- `RB_GET`: the value assigned, if one is, and the buffer after. -/
def rbGet (rb : Rbuffer α) : Option α × Rbuffer α :=
  if RbEmpty rb then (none, rb)
  else (rb.rbq[rb.rpos.toNat]?, { rb with rpos := rbNpos rb rb.rpos })

/-- `RB_SET`. -/
def rbSet (rb : Rbuffer α) (val : α) : Rbuffer α :=
  if RbFull rb then rb
  else { rb with rbq := rb.rbq.set rb.wpos.toNat val, wpos := rbNpos rb rb.wpos }

/-- `RB_SET_OR`: on a full buffer the read position moves on first. -/
def rbSetOr (rb : Rbuffer α) (val : α) : Rbuffer α :=
  let rb := if RbFull rb then { rb with rpos := rbNpos rb rb.rpos } else rb
  { rb with rbq := rb.rbq.set rb.wpos.toNat val, wpos := rbNpos rb rb.wpos }

/-- `RB_INIT`: the slots keep whatever they held. -/
def rbInit (rb : Rbuffer α) (size : ℤ) : Rbuffer α :=
  { rb with qsize := size, rpos := 0, wpos := 0 }

/-! ## One producer, one consumer -/

/-- Where the consumer stands between two of its memory accesses, with
what it has loaded so far. `emptyRpos` is inside `RB_EMPTY`; the others
are inside `RB_GET`. -/
inductive ConsumerPc (α : Type)
  | idle
  /-- `wpos` is loaded, `rpos` is not. -/
  | emptyRpos (wpos : ℤ)
  /-- `wpos` is loaded, `rpos` is not. -/
  | getRpos (wpos : ℤ)
  /-- Not empty; the index `rpos` is to be loaded. -/
  | getIndex
  /-- The index is loaded, the slot is not. -/
  | getSlot (rpos : ℤ)
  /-- `val` is assigned; `RB_NPOS` is to load `rpos`. -/
  | getPos (val : α)
  /-- `rpos` is loaded, `qsize` is not. -/
  | getSize (val : α) (rpos : ℤ)
  /-- No wrap; `RB_NPOS` is to load `rpos` again. -/
  | getNext (val : α)
  /-- The new `rpos` is to be stored. -/
  | getStore (val : α) (npos : ℤ)
  deriving Repr, DecidableEq

/-- The buffer shared by a producer and a consumer. `tested` is what the
last `RB_EMPTY` evaluated to; `accepted` and `fetched` are the values
stored and the values fetched so far, oldest first. -/
structure Spsc (α : Type) where
  rb : Rbuffer α
  pc : ConsumerPc α
  tested : Option Bool
  accepted : List α
  fetched : List α
  deriving Repr, DecidableEq

/-- Who moves: the producer runs `RB_SET`, an idle consumer starts
`RB_EMPTY` or `RB_GET`, a consumer inside one makes its next access. -/
inductive SpscStep (α : Type)
  | set (val : α)
  | empty
  | get
  | tick
  deriving Repr, DecidableEq

/-- The buffer as `RB_INIT` leaves it, over whatever the slots hold. -/
def Spsc.init (rb : Rbuffer α) (size : ℤ) : Spsc α :=
  ⟨rbInit rb size, .idle, none, [], []⟩

/-- The consumer's next memory access. -/
def Spsc.tick (s : Spsc α) : Option (Spsc α) :=
  match s.pc with
  | .idle => none
  | .emptyRpos w => some { s with pc := .idle, tested := some (w == s.rb.rpos) }
  | .getRpos w => some { s with pc := if w = s.rb.rpos then .idle else .getIndex }
  | .getIndex => some { s with pc := .getSlot s.rb.rpos }
  | .getSlot i => (s.rb.rbq[i.toNat]?).map fun v => { s with pc := .getPos v }
  | .getPos v => some { s with pc := .getSize v s.rb.rpos }
  | .getSize v r =>
    some { s with pc := if r + 1 ≥ s.rb.qsize then .getStore v 0 else .getNext v }
  | .getNext v => some { s with pc := .getStore v (s.rb.rpos + 1) }
  | .getStore v p =>
    some { s with rb := { s.rb with rpos := p }, pc := .idle, fetched := s.fetched ++ [v] }

/-- The producer runs `RB_SET` to its end. -/
def Spsc.produce (s : Spsc α) (val : α) : Spsc α :=
  { s with
    rb := rbSet s.rb val
    accepted := if RbFull s.rb then s.accepted else s.accepted ++ [val] }

/-- **Producer and consumer**, interleaved at the consumer's memory
accesses. -/
def spsc (α : Type) : Machine (Spsc α) (SpscStep α) where
  step s
    | .set val => some (s.produce val)
    | .empty => if s.pc matches .idle then some { s with pc := .emptyRpos s.rb.wpos } else none
    | .get => if s.pc matches .idle then some { s with pc := .getRpos s.rb.wpos } else none
    | .tick => s.tick

end Hgsdk

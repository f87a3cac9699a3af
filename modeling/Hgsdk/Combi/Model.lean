import Hgsdk.Typesdef
import Mathlib.Data.List.FinRange
/-!
# The combined bus

`lib/mac_bus/combi_bus.c`: a bus made of two, the local one and the one
frames are forwarded to. What comes in on one of them goes to the other,
up, or both; the sources of frames that came from the forwarding bus are
remembered, each in a slot of a table with the tick it was last heard of.
A slot whose tick is 0 is free.

A function returns the bus it leaves behind and the calls it makes, in
order. The buses do not change the frames they are given.
-/

namespace Hgsdk

namespace Combi

/-- A MAC address. -/
abbrev Mac := Fin 6 → Byte

/-- **A frame**, of at least fourteen bytes: both addresses and the
protocol are there. -/
structure Frame where
  bytes : List Byte
  long : 14 ≤ bytes.length

namespace Frame

variable (frame : Frame)

def byte (i : ℕ) (h : i < 14) : Byte := frame.bytes.get ⟨i, h.trans_le frame.long⟩

def dest : Mac := fun i => frame.byte i (by omega)

def src : Mac := fun i => frame.byte (6 + i) (by omega)

/-- `get_unaligned_be16(skb->data + 12)`. -/
def proto : BitVec 16 :=
  ((frame.byte 12 (by decide)).setWidth 16 <<< 8) ||| (frame.byte 13 (by decide)).setWidth 16

/-- `dest[0] & 0x1`. -/
def Group : Prop := frame.byte 0 (by decide) &&& 1 ≠ 0

instance : Decidable frame.Group := inferInstanceAs (Decidable (_ ≠ _))

end Frame

/-- The slots of the table, `FRULE_COUNT` of them. -/
abbrev Slot := Fin 64

/-- `struct combi_bus_frule`. -/
structure Frule where
  lifetime : BitVec 32
  addr : Mac
  deriving DecidableEq

/-- `struct mac_bus_combi` with the error counters of its buses, and
`wnbcfg.addr`. -/
structure CombiBus (B : Type) where
  localBus : B
  forwardBus : B
  frules : Slot → Frule
  own : Mac
  /-- The counters of the two buses. -/
  rxerr : B → BitVec 32
  txerr : B → BitVec 32
  /-- Those of `bus`. -/
  busRxerr : BitVec 32
  busTxerr : BitVec 32

/-- What a function calls. -/
inductive Effect (B : Type) where
  /-- `write` of a bus, with the frame. -/
  | write (bus : B) (len : CInt)
  /-- `combi_bus_frule_update`. -/
  | update (addr : Mac)
  | kfreeSkb
  /-- `combi_bus->bus.recv`: the buffer goes up. -/
  | recv (len : CInt)
  deriving DecidableEq

/-! ### The table -/

/-- A slot holds a rule for `addr`. -/
def Frule.Holds (rule : Frule) (addr : Mac) : Prop := rule.lifetime ≠ 0 ∧ rule.addr = addr

instance (rule : Frule) (addr : Mac) : Decidable (rule.Holds addr) :=
  inferInstanceAs (Decidable (_ ∧ _))

/-- `TIME_AFTER(a, b)`. -/
def TimeAfter (a b : BitVec 32) : Prop := (b - a).slt 0

instance (a b : BitVec 32) : Decidable (TimeAfter a b) := inferInstanceAs (Decidable (_ = true))

/-- The loop of `combi_bus_frule_forward`. -/
def forwardLoop (frules : Slot → Frule) (addr : Mac) : List Slot → CInt
  | [] => 0
  | i :: is => if (frules i).Holds addr then 1 else forwardLoop frules addr is

/-- The loop of `combi_bus_frule_update`: the slot of the address (`inl`),
or else the first free one. -/
def updateLoop (frules : Slot → Frule) (addr : Mac) :
    List Slot → (f : Option Slot) → Slot ⊕ Option Slot
  | [], f => .inr f
  | i :: is, f =>
    if (frules i).Holds addr then .inl i
    else if (frules i).lifetime = 0 ∧ f = none then updateLoop frules addr is (some i)
    else updateLoop frules addr is f

variable {B : Type}

namespace CombiBus

/-- `combi_bus_frule_forward`. -/
def fruleForward (s : CombiBus B) (addr : Mac) : CInt :=
  forwardLoop s.frules addr (List.finRange 64)

/-- `combi_bus_frule_update`. -/
def fruleUpdate (s : CombiBus B) (jiffies : BitVec 32) (addr : Mac) : CombiBus B :=
  match updateLoop s.frules addr (List.finRange 64) none with
  | .inl i =>
    { s with frules := Function.update s.frules i { s.frules i with lifetime := jiffies } }
  | .inr (some f) => { s with frules := Function.update s.frules f ⟨jiffies, addr⟩ }
  | .inr none => s

/-- `combi_bus_frule_expire`, with what `os_jiffies` returns at each slot.
`FRULE_TMO` is 1000, and a tick is a millisecond. -/
def fruleExpire (s : CombiBus B) (jiffies : Slot → BitVec 32) : CombiBus B :=
  { s with frules := fun i =>
      if (s.frules i).lifetime ≠ 0 ∧ TimeAfter (jiffies i) ((s.frules i).lifetime + 1000) then
        { s.frules i with lifetime := 0 }
      else s.frules i }

/-! ### Frames -/

/-- The end of `combi_bus_recv`. -/
def passUp (s : CombiBus B) (len : CInt) : CombiBus B × List (Effect B) :=
  ({ s with busRxerr := s.rxerr s.localBus + s.rxerr s.forwardBus }, [.recv len])

variable [DecidableEq B]

/-- `combi_bus_recv`, from the bus `bus`. -/
def combiBusRecv (s : CombiBus B) (jiffies : BitVec 32) (bus : B) (frame : Frame) (len : CInt) :
    CombiBus B × List (Effect B) :=
  if bus = s.localBus ∧ (frame.Group ∨ s.fruleForward frame.dest ≠ 0) then
    let sent := [.write s.forwardBus len]
    if ¬ frame.Group then (s, sent ++ [.kfreeSkb])
    else
      let (s, up) := s.passUp len
      (s, sent ++ up)
  else if bus = s.forwardBus ∧ (frame.Group ∨ s.own = frame.dest) then
    let s' := s.fruleUpdate jiffies frame.src
    let sent := [.write s.localBus len, .update frame.src]
    if ¬ frame.Group ∧ frame.proto ≠ 0x4847 then (s', sent ++ [.kfreeSkb])
    else
      let (s', up) := s'.passUp len
      (s', sent ++ up)
  else s.passUp len

omit [DecidableEq B] in
/-- `combi_bus_write`. -/
def combiBusWrite (s : CombiBus B) (frame : Frame) (len : CInt) :
    CombiBus B × List (Effect B) :=
  let isLocal := s.own = frame.dest
  let toLocal := if isLocal ∨ frame.Group then [.write s.localBus len] else []
  let toForward := if ¬ isLocal ∨ frame.Group then [.write s.forwardBus len] else []
  ({ s with busTxerr := s.txerr s.localBus + s.txerr s.forwardBus }, toLocal ++ toForward)

end CombiBus

/-! ### The table's two functions -/

section Loops

variable {frules : Slot → Frule} {addr : Mac} {is : List Slot}

theorem forwardLoop_eq_one :
    forwardLoop frules addr is = 1 ↔ ∃ i ∈ is, (frules i).Holds addr := by
  induction is with
  | nil => exact iff_of_false (by simp [forwardLoop]) (fun h => nomatch h.choose_spec.1)
  | cons i is ih =>
    rw [forwardLoop, List.exists_mem_cons_iff]
    split
    · rename_i h
      exact iff_of_true rfl (.inl h)
    · rename_i h
      rw [ih, or_iff_right h]

theorem forwardLoop_ne_zero : forwardLoop frules addr is ≠ 0 ↔ forwardLoop frules addr is = 1 := by
  induction is with
  | nil => simp [forwardLoop]
  | cons i is ih =>
    rw [forwardLoop]
    split
    · decide
    · exact ih

theorem updateLoop_of_holds {i : Slot} (hi : i ∈ is) (h : (frules i).Holds addr) :
    ∀ f, ∃ j, updateLoop frules addr is f = .inl j ∧ (frules j).Holds addr := by
  induction is with
  | nil => exact nomatch hi
  | cons k is ih =>
    intro f
    rw [updateLoop]
    by_cases hk : (frules k).Holds addr
    · exact ⟨k, if_pos hk, hk⟩
    · rw [if_neg hk]
      have hi' : i ∈ is := (List.mem_cons.1 hi).resolve_left fun heq => hk (heq ▸ h)
      split <;> exact ih hi' _

/-- Without a rule for the address, it is the slot already found, or the
first free one. -/
theorem updateLoop_of_not_holds (h : ∀ i ∈ is, ¬ (frules i).Holds addr) : ∀ f : Option Slot,
    updateLoop frules addr is f =
      .inr (f.or (is.find? fun i => decide ((frules i).lifetime = 0))) := by
  induction is with
  | nil => exact fun f => congrArg Sum.inr (Option.or_none).symm
  | cons k is ih =>
    intro f
    obtain ⟨hk, his⟩ := List.forall_mem_cons.1 h
    rw [updateLoop, if_neg hk, List.find?_cons]
    by_cases hfree : (frules k).lifetime = 0
    · rw [decide_eq_true hfree]
      cases f with
      | none =>
        rw [if_pos ⟨hfree, rfl⟩, ih his]
        rfl
      | some j =>
        rw [if_neg (fun hc => nomatch hc.2), ih his]
        rfl
    · rw [if_neg (fun hc => hfree hc.1), ih his, decide_eq_false hfree]

end Loops

/-- **A destination is forwarded** while a slot holds a rule for it. -/
theorem fruleForward_eq_one {s : CombiBus B} {addr : Mac} :
    s.fruleForward addr = 1 ↔ ∃ i, (s.frules i).Holds addr := by
  rw [CombiBus.fruleForward, forwardLoop_eq_one]
  exact exists_congr fun i => and_iff_right (List.mem_finRange i)

/-- **What an update does** to the table: it takes the slot of the
address, or a free one, or none when the table is full. -/
inductive Updated (frules : Slot → Frule) (jiffies : BitVec 32) (addr : Mac) :
    (Slot → Frule) → Prop
  | again {i} (h : (frules i).Holds addr) :
    Updated frules jiffies addr (Function.update frules i ⟨jiffies, addr⟩)
  | learned {i} (hnew : ∀ j, ¬ (frules j).Holds addr) (hfree : (frules i).lifetime = 0) :
    Updated frules jiffies addr (Function.update frules i ⟨jiffies, addr⟩)
  | full (hnew : ∀ j, ¬ (frules j).Holds addr) (hfull : ∀ j, (frules j).lifetime ≠ 0) :
    Updated frules jiffies addr frules

theorem updated_fruleUpdate (s : CombiBus B) (jiffies : BitVec 32) (addr : Mac) :
    Updated s.frules jiffies addr (s.fruleUpdate jiffies addr).frules := by
  unfold CombiBus.fruleUpdate
  by_cases h : ∃ i, (s.frules i).Holds addr
  · obtain ⟨i, hi⟩ := h
    obtain ⟨j, hj, hholds⟩ := updateLoop_of_holds (List.mem_finRange i) hi none
    have hrule : { s.frules j with lifetime := jiffies } = (⟨jiffies, addr⟩ : Frule) :=
      congrArg (Frule.mk jiffies) hholds.2
    rw [hj]
    dsimp only
    rw [hrule]
    exact .again hholds
  · have hnew := not_exists.1 h
    rw [updateLoop_of_not_holds (fun i _ => hnew i), Option.none_or]
    cases hfind : (List.finRange 64).find? fun i => decide ((s.frules i).lifetime = 0) with
    | some i =>
      have hfree := List.find?_some hfind
      exact .learned hnew (of_decide_eq_true hfree)
    | none =>
      refine .full hnew fun j => ?_
      have hj := List.find?_eq_none.1 hfind j (List.mem_finRange j)
      simpa using hj

end Combi

end Hgsdk

import Hgsdk.Combi.Model
/-!
# Where frames go

`combi_bus_recv` hands every buffer on exactly once, to be freed or up,
and never writes a frame to the bus it came from; `combi_bus_write` writes
a frame for one station to one bus and a frame for a group to both.
-/

namespace Hgsdk

namespace Combi

variable {B : Type}

/-! ### What was called -/

/-- What becomes of a buffer. -/
inductive Fate where
  | freed
  | passedUp (len : CInt)
  deriving DecidableEq

namespace Effect

/-- The bus a frame is written to. -/
def written : Effect B → Option (B × CInt)
  | .write bus len => some (bus, len)
  | _ => none

def fate : Effect B → Option Fate
  | .kfreeSkb => some .freed
  | .recv len => some (.passedUp len)
  | _ => none

end Effect

/-- The writes among some calls, in order. -/
def writes (calls : List (Effect B)) : List (B × CInt) := calls.filterMap Effect.written

/-- All that becomes of the buffer. -/
def fates (calls : List (Effect B)) : List Fate := calls.filterMap Effect.fate

/-- **The rules of `combi_bus_recv`**, for what it calls when a frame comes
in from `bus`; `other` is the other bus. -/
structure Routed (s : CombiBus B) (bus other : B) (frame : Frame) (len : CInt)
    (calls : List (Effect B)) : Prop where
  /-- The buffer is freed once or passed up once. -/
  consumed : fates calls = [.freed] ∨ fates calls = [.passedUp len]
  /-- The frame is not written back. -/
  noEcho : ∀ l, (bus, l) ∉ writes calls
  /-- A frame for a group goes to the other bus and up. -/
  group : frame.Group → writes calls = [(other, len)] ∧ fates calls = [.passedUp len]
  /-- A rule takes a frame for one station to the forwarding bus only. -/
  ruled : ¬ frame.Group → bus = s.localBus → s.fruleForward frame.dest = 1 →
    writes calls = [(s.forwardBus, len)] ∧ fates calls = [.freed]
  /-- A frame for this station goes to the local bus, and up for one
  protocol. -/
  own : ¬ frame.Group → bus = s.forwardBus → frame.dest = s.own →
    writes calls = [(s.localBus, len)] ∧
      (fates calls = [.passedUp len] ↔ frame.proto = 0x4847)
  /-- Any other frame for one station is only passed up. -/
  rest : ¬ frame.Group → ¬ (bus = s.localBus ∧ s.fruleForward frame.dest = 1) →
    ¬ (bus = s.forwardBus ∧ frame.dest = s.own) →
    writes calls = [] ∧ fates calls = [.passedUp len]

theorem notMem_singleton_fst {a b : B} (h : a ≠ b) (len l : CInt) :
    (a, l) ∉ [(b, len)] := fun hmem => h (congrArg Prod.fst (List.mem_singleton.1 hmem))

variable [DecidableEq B] {s : CombiBus B}

/-- A frame from the local bus. -/
theorem routed_of_local (hne : s.localBus ≠ s.forwardBus) (jiffies : BitVec 32) (frame : Frame)
    (len : CInt) : Routed s s.localBus s.forwardBus frame len
      (s.combiBusRecv jiffies s.localBus frame len).2 := by
  have hforward : s.fruleForward frame.dest ≠ 0 ↔ s.fruleForward frame.dest = 1 :=
    forwardLoop_ne_zero
  unfold CombiBus.combiBusRecv
  by_cases hgroup : frame.Group
  · rw [if_pos ⟨rfl, .inl hgroup⟩, if_neg (not_not_intro hgroup)]
    exact
      { consumed := .inr rfl
        noEcho := notMem_singleton_fst hne len
        group := fun _ => ⟨rfl, rfl⟩
        ruled := fun h => absurd hgroup h
        own := fun h => absurd hgroup h
        rest := fun h => absurd hgroup h }
  · by_cases hrule : s.fruleForward frame.dest = 1
    · rw [if_pos ⟨rfl, .inr (hforward.2 hrule)⟩, if_pos hgroup]
      exact
        { consumed := .inl rfl
          noEcho := notMem_singleton_fst hne len
          group := fun h => absurd h hgroup
          ruled := fun _ _ _ => ⟨rfl, rfl⟩
          own := fun _ h => absurd h hne
          rest := fun _ h => absurd ⟨rfl, hrule⟩ h }
    · rw [if_neg fun h => h.2.elim hgroup fun h => hrule (hforward.1 h), if_neg fun h => hne h.1]
      exact
        { consumed := .inr rfl
          noEcho := fun _ => List.not_mem_nil
          group := fun h => absurd h hgroup
          ruled := fun _ _ h => absurd h hrule
          own := fun _ h => absurd h hne
          rest := fun _ _ _ => ⟨rfl, rfl⟩ }

/-- A frame from the forwarding bus. -/
theorem routed_of_forward (hne : s.localBus ≠ s.forwardBus) (jiffies : BitVec 32) (frame : Frame)
    (len : CInt) : Routed s s.forwardBus s.localBus frame len
      (s.combiBusRecv jiffies s.forwardBus frame len).2 := by
  unfold CombiBus.combiBusRecv
  rw [if_neg fun h => hne h.1.symm]
  by_cases hgroup : frame.Group
  · rw [if_pos ⟨rfl, .inl hgroup⟩, if_neg fun h => h.1 hgroup]
    exact
      { consumed := .inr rfl
        noEcho := notMem_singleton_fst hne.symm len
        group := fun _ => ⟨rfl, rfl⟩
        ruled := fun h => absurd hgroup h
        own := fun h => absurd hgroup h
        rest := fun h => absurd hgroup h }
  · by_cases hown : s.own = frame.dest
    · rw [if_pos ⟨rfl, .inr hown⟩]
      by_cases hproto : frame.proto = 0x4847
      · rw [if_neg fun h => h.2 hproto]
        exact
          { consumed := .inr rfl
            noEcho := notMem_singleton_fst hne.symm len
            group := fun h => absurd h hgroup
            ruled := fun _ h => absurd h.symm hne
            own := fun _ _ _ => ⟨rfl, iff_of_true rfl hproto⟩
            rest := fun _ _ h => absurd ⟨rfl, hown.symm⟩ h }
      · rw [if_pos ⟨hgroup, hproto⟩]
        exact
          { consumed := .inl rfl
            noEcho := notMem_singleton_fst hne.symm len
            group := fun h => absurd h hgroup
            ruled := fun _ h => absurd h.symm hne
            own := fun _ _ _ => ⟨rfl, iff_of_false (fun h => nomatch h) hproto⟩
            rest := fun _ _ h => absurd ⟨rfl, hown.symm⟩ h }
    · rw [if_neg fun h => h.2.elim hgroup hown]
      exact
        { consumed := .inr rfl
          noEcho := fun _ => List.not_mem_nil
          group := fun h => absurd h hgroup
          ruled := fun _ h => absurd h.symm hne
          own := fun _ _ h => absurd h.symm hown
          rest := fun _ _ _ => ⟨rfl, rfl⟩ }

omit [DecidableEq B] in
/-- An outgoing frame. -/
theorem writes_combiBusWrite (s : CombiBus B) (frame : Frame) (len : CInt) :
    (frame.Group → writes (s.combiBusWrite frame len).2 =
      [(s.localBus, len), (s.forwardBus, len)]) ∧
    (¬ frame.Group → writes (s.combiBusWrite frame len).2 =
      [(if s.own = frame.dest then s.localBus else s.forwardBus, len)]) := by
  unfold CombiBus.combiBusWrite
  refine ⟨fun hgroup => ?_, fun hgroup => ?_⟩
  · dsimp only
    rw [if_pos (.inr hgroup), if_pos (.inr hgroup)]
    rfl
  · dsimp only
    by_cases hown : s.own = frame.dest
    · rw [if_pos (.inl hown), if_neg fun h => h.elim (fun h => h hown) hgroup, if_pos hown]
      rfl
    · rw [if_neg fun h => h.elim hown hgroup, if_pos (.inl hown), if_neg hown]
      rfl

/-- The bus after `mac_bus_combi_attach`. -/
def attached (own : Mac) : CombiBus Bool where
  localBus := false
  forwardBus := true
  frules _ := ⟨0, fun _ => 0⟩
  own := own
  rxerr _ := 0
  txerr _ := 0
  busRxerr := 0
  busTxerr := 0

/-- A frame from station `02:..:src` to `dest`. -/
def frameTo (dest src : Byte) : Frame where
  bytes := [dest, 0, 0, 0, 0, 0, 2, 0, 0, 0, 0, src, 0x48, 0x47]
  long := Nat.le_refl 14

end Combi

end Hgsdk

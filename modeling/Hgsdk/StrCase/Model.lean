import Hgsdk.Typesdef
/-!
# Comparing strings without regard to case

`strncasecmp` and `strcasecmp` of `common.c`. Two characters match where
they are equal or 32 apart. Whether a `char` is signed is up to the
compiler, so it is a parameter.
-/

namespace Hgsdk

namespace StrCase

/-- A `char` as an `int`. -/
def charVal (signed : Bool) (c : Byte) : ℤ := if signed then c.toInt else c.toNat

/-- The test both loops make. -/
def Near (signed : Bool) (c₁ c₂ : Byte) : Prop :=
  charVal signed c₁ = charVal signed c₂ ∨ charVal signed c₁ + 32 = charVal signed c₂ ∨
    charVal signed c₁ - 32 = charVal signed c₂

instance (signed : Bool) (c₁ c₂ : Byte) : Decidable (Near signed c₁ c₂) :=
  inferInstanceAs (Decidable (_ ∨ _ ∨ _))

/-- **A string in memory**: its characters, none of them zero, followed by
the terminator. -/
structure CStr where
  chars : List Byte
  nonzero : ∀ c ∈ chars, c ≠ 0

/-- The `while` of `strcasecmp`, with what is left of either string; `none`
where a string is read past its terminator. -/
def strcasecmpFrom (signed : Bool) : List Byte → List Byte → Option CInt
  | [], [] => some 0
  | c₁ :: s₁, c₂ :: s₂ => if Near signed c₁ c₂ then strcasecmpFrom signed s₁ s₂ else some (-1)
  -- one of them at its terminator: where that matches, the pointer moves
  -- past it, and the next turn reads there
  | c₁ :: _, [] => if Near signed c₁ 0 then none else some (-1)
  | [], c₂ :: _ => if Near signed 0 c₂ then none else some (-1)

/-- `strcasecmp`. -/
def strcasecmp (signed : Bool) (s₁ s₂ : CStr) : Option CInt :=
  strcasecmpFrom signed s₁.chars s₂.chars

/-- The `for` of `strncasecmp`: how far the index gets. It stops at either
terminator. -/
def strncasecmpIndex (signed : Bool) : ℕ → List Byte → List Byte → ℕ
  | n + 1, c₁ :: s₁, c₂ :: s₂ =>
    if Near signed c₁ c₂ then strncasecmpIndex signed n s₁ s₂ + 1 else 0
  | _, _, _ => 0

/-- `strncasecmp`. -/
def strncasecmp (signed : Bool) (s₁ s₂ : CStr) (n : ℕ) : CInt :=
  if strncasecmpIndex signed n s₁.chars s₂.chars ≠ n then 1 else 0

/-! ### What the comparison is for -/

/-- `A`–`Z` to `a`–`z`. -/
def fold (c : Byte) : Byte := if 0x41 ≤ c.toNat ∧ c.toNat ≤ 0x5A then c + 32 else c

/-- Equal up to case. -/
def FoldEq (s₁ s₂ : List Byte) : Prop := s₁.map fold = s₂.map fold

instance (s₁ s₂ : List Byte) : Decidable (FoldEq s₁ s₂) := inferInstanceAs (Decidable (_ = _))

/-- A character of the string, or its terminator. -/
def charAt (s : List Byte) (j : ℕ) : Byte := s.getD j 0

end StrCase

end Hgsdk

import Hgsdk.Common.Memory
/-!
# Blocks of memory

A block is what an allocator returns when it does not return `NULL`: an
address that is not zero and a number of bytes from it on that do not wrap.
Two blocks are disjoint if they have no byte in common; a block of no bytes
is disjoint from every other.
-/

namespace Hgsdk

/-- **A block**: an address and the number of bytes from it on. -/
structure Block where
  base : BitVec 32
  size : ℕ
  nonnull : base ≠ 0
  fits : base.toNat + size ≤ 2 ^ 32

namespace Block

open Memory (InRange)

variable {b c : Block} {x : BitVec 32} {n : ℕ}

/-- The byte at `x` is one of the block. -/
def Has (b : Block) (x : BitVec 32) : Prop := InRange b.base b.size x

instance : Decidable (b.Has x) := inferInstanceAs (Decidable (InRange ..))

theorem has_iff : b.Has x ↔ b.base.toNat ≤ x.toNat ∧ x.toNat < b.base.toNat + b.size :=
  Memory.inRange_iff b.fits

/-- No byte is in both. -/
def Disjoint (b c : Block) : Prop := ∀ x, ¬ (b.Has x ∧ c.Has x)

theorem Disjoint.symm (h : b.Disjoint c) : c.Disjoint b := fun x hx => h x hx.symm

/-- **Disjoint blocks end before they both have begun.** -/
theorem disjoint_iff : b.Disjoint c ↔
    min (b.base.toNat + b.size) (c.base.toNat + c.size) ≤ max b.base.toNat c.base.toNat := by
  constructor
  · intro h
    by_contra hlt
    -- otherwise the later of the two beginnings is in both
    have hx : (BitVec.ofNat 32 (max b.base.toNat c.base.toNat)).toNat =
        max b.base.toNat c.base.toNat := by
      rw [BitVec.toNat_ofNat, Nat.mod_eq_of_lt (Nat.max_lt.2 ⟨b.base.isLt, c.base.isLt⟩)]
    refine h (BitVec.ofNat 32 (max b.base.toNat c.base.toNat)) ⟨has_iff.2 ?_, has_iff.2 ?_⟩
    · rw [hx]
      omega
    · rw [hx]
      omega
  · rintro h x ⟨hb, hc⟩
    have hb := has_iff.1 hb
    have hc := has_iff.1 hc
    omega

instance : Decidable (b.Disjoint c) := decidable_of_iff _ disjoint_iff.symm

/-- **As many bytes as the block has** are in it, from its address on, and not
one more. -/
theorem forall_has_iff (hn : n < 2 ^ 32) : (∀ x, InRange b.base n x → b.Has x) ↔ n ≤ b.size := by
  constructor
  · intro h
    by_contra hlt
    -- the byte right behind the block
    have hsub : (b.base + BitVec.ofNat 32 b.size - b.base).toNat = b.size := by
      rw [BitVec.add_comm, BitVec.add_sub_cancel, BitVec.toNat_ofNat, Nat.mod_eq_of_lt (by omega)]
    have hbehind : InRange b.base n (b.base + BitVec.ofNat 32 b.size) := by
      rw [InRange, hsub]
      omega
    have hin : (b.base + BitVec.ofNat 32 b.size - b.base).toNat < b.size := h _ hbehind
    omega
  · exact fun hle x hx => Nat.lt_of_lt_of_le hx hle

end Block

end Hgsdk

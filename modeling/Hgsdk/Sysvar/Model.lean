import Hgsdk.Common.Block
import Hgsdk.Common.Machine
import Mathlib.Logic.Function.Basic
/-!
# System variables

`sysvar.c`: a table of 16 pointers, each to a block that the first call of
`sysvar_init` for its id allocates and that every call clears. The table is in
memory like the blocks, so a clearing that goes too far may reach it.

`os_malloc` is not modelled: what it returns is part of the call, and a call is
possible only with `NULL` or with a block of the size asked for that is
disjoint from the table and from the blocks of all ids. Which block was
allocated for an id is recorded beside the memory; the code does not read it.
-/

namespace Hgsdk

namespace Sysvar

/-- `SYSVAR_ID_MAX`, behind 16 enumerators; an `enum` without negative values
is unsigned. -/
def sysvarIdMax : BitVec 32 := 16

/-- Where `sysvar_mgr` lies: a word for each id. -/
structure SysvarMgr extends Block where
  size_eq : size = 4 * sysvarIdMax.toNat

/-- `&sysvar_mgr[id]`. -/
def SysvarMgr.entry (mgr : SysvarMgr) (id : BitVec 32) : BitVec 32 := mgr.base + 4 * id

variable (mgr : SysvarMgr)

/-- What a call of `sysvar_init` leaves: the memory, where `os_memset` cleared,
if it was called, and the result. -/
structure Done where
  mem : Memory
  cleared : Option (BitVec 32)
  result : BitVec 32

/-- `sysvar_init`; `malloc` is what `os_malloc(size)` returns, if it is called. -/
def sysvarInit (mem : Memory) (id : BitVec 32) (size : ℕ) (malloc : BitVec 32) : Done :=
  if id < sysvarIdMax then
    let mem :=
      if mem.load32 (mgr.entry id) = 0 then mem.store32 (mgr.entry id) malloc else mem
    if mem.load32 (mgr.entry id) ≠ 0 then
      let p := mem.load32 (mgr.entry id)
      let mem := mem.fill p size 0
      ⟨mem, some p, mem.load32 (mgr.entry id)⟩
    else
      ⟨mem, none, mem.load32 (mgr.entry id)⟩
  else
    ⟨mem, none, 0⟩

/-- `sysvar`. -/
def sysvar (mem : Memory) (id : BitVec 32) : BitVec 32 :=
  if id < sysvarIdMax then mem.load32 (mgr.entry id) else 0

/-! ### Calls one after another -/

/-- The memory, and the block allocated for each id. -/
structure Sysvars where
  mem : Memory
  block : ℕ → Option Block

/-- A block as a pointer. -/
def addr : Option Block → BitVec 32
  | none => 0
  | some b => b.base

/-- One call of `sysvar_init`, of a non-negative size, with what `os_malloc`
returns; or the rest of the program, which stores what it likes outside
`sysvar_mgr`, which no other file names. -/
inductive Event
  | init (id : BitVec 32) (size : Fin (2 ^ 31)) (malloc : Option Block)
  | rest (mem : Memory)

namespace Sysvars

variable (s : Sysvars)

/-- What `os_malloc(size)` may return. -/
def Admits (size : ℕ) (malloc : Option Block) : Prop :=
  ∀ b ∈ malloc, b.size = size ∧ b.Disjoint mgr.toBlock ∧
    ∀ i < sysvarIdMax.toNat, ∀ c ∈ s.block i, b.Disjoint c

instance (size : ℕ) (malloc : Option Block) : Decidable (s.Admits mgr size malloc) :=
  inferInstanceAs (Decidable (∀ b ∈ malloc, _))

/-- What `os_malloc` returned becomes the block of the id if it was called. -/
def allocated (id : BitVec 32) (malloc : Option Block) : ℕ → Option Block :=
  if id < sysvarIdMax ∧ s.mem.load32 (mgr.entry id) = 0 then
    Function.update s.block id.toNat malloc
  else s.block

/-- The state after a call. -/
def init (id : BitVec 32) (size : ℕ) (malloc : Option Block) : Sysvars where
  mem := (sysvarInit mgr s.mem id size (addr malloc)).mem
  block := s.allocated mgr id malloc

/-- The state after the rest of the program has stored. -/
def stored (mem : Memory) : Sysvars where
  mem := fun x => if mgr.Has x then s.mem x else mem x
  block := s.block

end Sysvars

/-- **The program.** -/
def program : Machine Sysvars Event where
  step s
    | .init id size malloc =>
      if s.Admits mgr size malloc then some (s.init mgr id size malloc) else none
    | .rest mem => some (s.stored mgr mem)

/-- At the start `sysvar_mgr` is zero and nothing is allocated. -/
def start (mem : Memory) : Sysvars where
  mem := mem.fill mgr.base mgr.size 0
  block := fun _ => none

end Sysvar

end Hgsdk

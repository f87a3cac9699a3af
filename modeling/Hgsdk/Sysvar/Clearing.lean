import Hgsdk.Sysvar.Model
/-!
# What `sysvar_init` clears

The block of an id is as large as the first call for the id asked for, and
every later call clears as much as it is asked for itself. So the clearing
stays in the block, and the pointer returned has that many bytes behind it,
exactly as long as no call asks for more than the call that allocated the
block did. Until then the entries of the table point to the blocks, since
what is cleared is in a block and no block reaches the table. Blocks of
different ids are disjoint in every run.
-/

namespace Hgsdk

namespace Sysvar

open Memory (InRange)

variable {mgr : SysvarMgr} {s t : Sysvars} {id id' x : BitVec 32} {size : Fin (2 ^ 31)}
variable {malloc : Option Block} {b : Block} {e : Event}

/-! ### What is asked of a call -/

/-- The `n` bytes from `p` on are in the block of an id. -/
def Sysvars.Inside (s : Sysvars) (i : ℕ) (p : BitVec 32) (n : ℕ) : Prop :=
  ∃ b, s.block i = some b ∧ ∀ x, InRange p n x → b.Has x

variable (mgr) in
/-- **A call is right**: what it clears is in the block of the id, and so are
the bytes behind a pointer it returns. -/
def Right (s : Sysvars) : Event → Prop
  | .init id size malloc =>
    (∀ p, (sysvarInit mgr s.mem id size (addr malloc)).cleared = some p →
      (s.init mgr id size malloc).Inside id.toNat p size) ∧
    ((sysvarInit mgr s.mem id size (addr malloc)).result ≠ 0 →
      (s.init mgr id size malloc).Inside id.toNat
        (sysvarInit mgr s.mem id size (addr malloc)).result size)
  | .rest _ => True

/-- **A call fits** if the id has no block yet or one of at least that size. -/
def Fits (s : Sysvars) : Event → Prop
  | .init id size _ => ∀ b ∈ s.block id.toNat, size ≤ b.size
  | .rest _ => True

instance : Decidable (Fits s e) :=
  match e with
  | .init _ _ _ => inferInstanceAs (Decidable (∀ b ∈ _, _))
  | .rest _ => isTrue trivial

/-- Blocks of different ids have no byte in common. -/
def BlocksDisjoint (s : Sysvars) : Prop :=
  ∀ i j b c, i ≠ j → s.block i = some b → s.block j = some c → b.Disjoint c

/-! ### The table -/

theorem lt_sysvarIdMax_iff : id < sysvarIdMax ↔ id.toNat < sysvarIdMax.toNat := BitVec.lt_def

theorem toNat_entry (hid : id < sysvarIdMax) :
    (mgr.entry id).toNat = mgr.base.toNat + 4 * id.toNat := by
  have hlt : id.toNat < 16 := hid
  have hfits := mgr.fits
  have hsize : mgr.size = 64 := mgr.size_eq
  have hfour : (4 : BitVec 32).toNat = 4 := rfl
  rw [SysvarMgr.entry, BitVec.toNat_add, BitVec.toNat_mul, hfour]
  omega

theorem inRange_entry_iff (hid : id < sysvarIdMax) :
    InRange (mgr.entry id) 4 x ↔ mgr.base.toNat + 4 * id.toNat ≤ x.toNat ∧
      x.toNat < mgr.base.toNat + 4 * id.toNat + 4 := by
  have hlt : id.toNat < 16 := hid
  have hfits := mgr.fits
  have hsize : mgr.size = 64 := mgr.size_eq
  have hentry : (mgr.entry id).toNat = _ := toNat_entry hid
  rw [Memory.inRange_iff (by omega), hentry]

/-- An entry is in the table. -/
theorem has_of_inRange_entry (hid : id < sysvarIdMax) (hx : InRange (mgr.entry id) 4 x) :
    mgr.Has x := by
  have hlt : id.toNat < 16 := hid
  have hsize : mgr.size = 64 := mgr.size_eq
  have hx := (inRange_entry_iff hid).1 hx
  refine Block.has_iff.2 ?_
  omega

/-- Entries of different ids are apart. -/
theorem not_inRange_entry (hid : id < sysvarIdMax) (hid' : id' < sysvarIdMax) (hne : id ≠ id')
    (hx : InRange (mgr.entry id) 4 x) : ¬ InRange (mgr.entry id') 4 x := by
  intro hx'
  have hx := (inRange_entry_iff hid).1 hx
  have hx' := (inRange_entry_iff hid').1 hx'
  exact hne (BitVec.eq_of_toNat_eq (by omega))

theorem addr_ne_zero : addr (some b) ≠ 0 := b.nonnull

variable (mgr) in
/-- **The entries point to the blocks.** -/
def Entries (s : Sysvars) : Prop :=
  ∀ id < sysvarIdMax, s.mem.load32 (mgr.entry id) = addr (s.block id.toNat)

variable (mgr) in
/-- **The blocks lie apart**, from one another and from the table. -/
structure Apart (s : Sysvars) : Prop where
  lt : ∀ i b, s.block i = some b → i < sysvarIdMax.toNat
  off : ∀ i b, s.block i = some b → b.Disjoint mgr.toBlock
  disjoint : BlocksDisjoint s

/-! ### The allocation -/

/-- `os_malloc` is called if the id has no block. -/
theorem allocated_of_none (h : Entries mgr s) (hid : id < sysvarIdMax)
    (hnone : s.block id.toNat = none) :
    s.allocated mgr id malloc = Function.update s.block id.toNat malloc := by
  refine if_pos ⟨hid, ?_⟩
  rw [h id hid, hnone]
  rfl

theorem allocated_of_some (h : Entries mgr s) (hid : id < sysvarIdMax)
    (hb : s.block id.toNat = some b) : s.allocated mgr id malloc = s.block := by
  refine if_neg fun hcall => addr_ne_zero (b := b) ?_
  rw [← hb, ← h id hid]
  exact hcall.2

variable (mgr s id malloc) in
/-- The blocks after a call: those before it, or one of them is new. -/
theorem allocated_cases : s.allocated mgr id malloc = s.block ∨ id < sysvarIdMax ∧
    s.allocated mgr id malloc = Function.update s.block id.toNat malloc := by
  rw [Sysvars.allocated]
  split
  next hcall => exact Or.inr ⟨hcall.1, rfl⟩
  next => exact Or.inl rfl

/-- **A new block lies apart** from those there are. -/
theorem Apart.update (h : Apart mgr s) (hid : id < sysvarIdMax) {n : ℕ}
    (hadm : s.Admits mgr n malloc)
    (hblock : t.block = Function.update s.block id.toNat malloc) : Apart mgr t := by
  -- a block is the new one or one of those before
  have hcases : ∀ i c, t.block i = some c →
      (i = id.toNat ∧ c ∈ malloc) ∨ (i ≠ id.toNat ∧ s.block i = some c) := by
    intro i c hc
    rw [hblock] at hc
    by_cases hi : i = id.toNat
    · subst hi
      rw [Function.update_self] at hc
      exact Or.inl ⟨rfl, hc⟩
    · rw [Function.update_of_ne hi] at hc
      exact Or.inr ⟨hi, hc⟩
  refine ⟨fun i c hc => ?_, fun i c hc => ?_, fun i j c d hij hc hd => ?_⟩
  · rcases hcases i c hc with ⟨rfl, -⟩ | ⟨-, hold⟩
    · exact lt_sysvarIdMax_iff.1 hid
    · exact h.lt i c hold
  · rcases hcases i c hc with ⟨-, hnew⟩ | ⟨-, hold⟩
    · exact (hadm c hnew).2.1
    · exact h.off i c hold
  · rcases hcases i c hc with ⟨hi, hnew⟩ | ⟨-, hold⟩
    · rcases hcases j d hd with ⟨hj, -⟩ | ⟨-, hold'⟩
      · exact absurd (hi.trans hj.symm) hij
      · exact (hadm c hnew).2.2 j (h.lt j d hold') d hold'
    · rcases hcases j d hd with ⟨-, hnew'⟩ | ⟨-, hold'⟩
      · exact ((hadm d hnew').2.2 i (h.lt i c hold) c hold).symm
      · exact h.disjoint i j c d hij hold hold'

theorem Apart.of_block_eq (h : Apart mgr s) (hblock : t.block = s.block) : Apart mgr t := by
  refine ⟨fun i c hc => ?_, fun i c hc => ?_, fun i j c d hij hc hd => ?_⟩
  · exact h.lt i c (hblock ▸ hc)
  · exact h.off i c (hblock ▸ hc)
  · exact h.disjoint i j c d hij (hblock ▸ hc) (hblock ▸ hd)

theorem step_init (hstep : (program mgr).step s (.init id size malloc) = some t) :
    s.Admits mgr size malloc ∧ t = s.init mgr id size malloc := by
  obtain ⟨hadm, ht⟩ := Option.ite_none_right_eq_some.1 hstep
  exact ⟨hadm, (Option.some.inj ht).symm⟩

theorem step_rest {mem : Memory} (hstep : (program mgr).step s (.rest mem) = some t) :
    t = s.stored mgr mem := (Option.some.inj hstep).symm

/-- **The blocks stay apart**, whatever the sizes. -/
theorem Apart.step (h : Apart mgr s) (hstep : (program mgr).step s e = some t) : Apart mgr t := by
  cases e with
  | init id size malloc =>
    obtain ⟨hadm, rfl⟩ := step_init hstep
    rcases allocated_cases mgr s id malloc with hsame | ⟨hid, hnew⟩
    · exact h.of_block_eq hsame
    · exact h.update hid hadm hnew
  | rest mem =>
    obtain rfl := step_rest hstep
    exact h.of_block_eq rfl

/-! ### The call -/

variable (mgr) in
/-- The state when `os_malloc` has been called, or not. -/
def Sysvars.withMalloc (s : Sysvars) (id : BitVec 32) (malloc : Option Block) : Sysvars where
  mem :=
    if s.mem.load32 (mgr.entry id) = 0 then s.mem.store32 (mgr.entry id) (addr malloc) else s.mem
  block := s.allocated mgr id malloc

/-- It still has its entries point to its blocks. -/
theorem Entries.withMalloc (h : Entries mgr s) (hid : id < sysvarIdMax) :
    Entries mgr (s.withMalloc mgr id malloc) := by
  intro id' hid'
  change (if s.mem.load32 (mgr.entry id) = 0 then s.mem.store32 (mgr.entry id) (addr malloc)
    else s.mem).load32 (mgr.entry id') = addr (s.allocated mgr id malloc id'.toNat)
  cases hb : s.block id.toNat with
  | some b =>
    have hload : ¬ s.mem.load32 (mgr.entry id) = 0 := by
      rw [h id hid, hb]
      exact addr_ne_zero
    rw [if_neg hload, allocated_of_some h hid hb]
    exact h id' hid'
  | none =>
    have hload : s.mem.load32 (mgr.entry id) = 0 := by
      rw [h id hid, hb]
      rfl
    rw [if_pos hload, allocated_of_none h hid hb]
    by_cases hne : id' = id
    · subst hne
      rw [Memory.load32_store32, Function.update_self]
    · have hnat : id'.toNat ≠ id.toNat := fun heq => hne (BitVec.eq_of_toNat_eq heq)
      rw [Memory.load32_store32_of_ne fun x hx => not_inRange_entry hid' hid hne hx,
        Function.update_of_ne hnat]
      exact h id' hid'

/-- What follows the allocation. -/
theorem sysvarInit_of_lt (hid : id < sysvarIdMax) {n : ℕ} :
    sysvarInit mgr s.mem id n (addr malloc) =
      if (s.withMalloc mgr id malloc).mem.load32 (mgr.entry id) ≠ 0 then
        ⟨(s.withMalloc mgr id malloc).mem.fill
            ((s.withMalloc mgr id malloc).mem.load32 (mgr.entry id)) n 0,
          some ((s.withMalloc mgr id malloc).mem.load32 (mgr.entry id)),
          ((s.withMalloc mgr id malloc).mem.fill
            ((s.withMalloc mgr id malloc).mem.load32 (mgr.entry id)) n 0).load32 (mgr.entry id)⟩
      else
        ⟨(s.withMalloc mgr id malloc).mem, none,
          (s.withMalloc mgr id malloc).mem.load32 (mgr.entry id)⟩ := if_pos hid

/-- A call that leaves the id without a block clears nothing. -/
theorem sysvarInit_of_none (h : Entries mgr s) (hid : id < sysvarIdMax)
    (hnone : s.allocated mgr id malloc id.toNat = none) {n : ℕ} :
    sysvarInit mgr s.mem id n (addr malloc) = ⟨(s.withMalloc mgr id malloc).mem, none, 0⟩ := by
  have hload : (s.withMalloc mgr id malloc).mem.load32 (mgr.entry id) = 0 := by
    rw [h.withMalloc hid id hid]
    exact congrArg addr hnone
  rw [sysvarInit_of_lt hid, if_neg (not_not.2 hload), hload]

/-- **A call clears from the address of the block on.** -/
theorem sysvarInit_of_some (h : Entries mgr s) (hid : id < sysvarIdMax)
    (hb : s.allocated mgr id malloc id.toNat = some b) {n : ℕ} :
    sysvarInit mgr s.mem id n (addr malloc) =
      ⟨(s.withMalloc mgr id malloc).mem.fill b.base n 0, some b.base,
        ((s.withMalloc mgr id malloc).mem.fill b.base n 0).load32 (mgr.entry id)⟩ := by
  have hload : (s.withMalloc mgr id malloc).mem.load32 (mgr.entry id) = b.base := by
    rw [h.withMalloc hid id hid]
    exact congrArg addr hb
  rw [sysvarInit_of_lt hid, hload, if_pos b.nonnull]

theorem sysvarInit_of_not_lt (hid : ¬ id < sysvarIdMax) {n : ℕ} :
    sysvarInit mgr s.mem id n (addr malloc) = ⟨s.mem, none, 0⟩ := if_neg hid

/-! ### Calls that fit -/

/-- **The block is large enough**: it is new, or the call fits. -/
theorem size_le_of_allocated (hadm : s.Admits mgr size malloc)
    (hfits : Fits s (.init id size malloc)) (hb : s.allocated mgr id malloc id.toNat = some b) :
    size ≤ b.size := by
  rcases allocated_cases mgr s id malloc with hsame | ⟨-, hnew⟩
  · rw [hsame] at hb
    exact hfits b hb
  · rw [hnew, Function.update_self] at hb
    exact Nat.le_of_eq (hadm b hb).1.symm

/-- A clearing inside a block leaves the table. -/
theorem load32_entry_fill {m : Memory} {n : ℕ} (hoff : b.Disjoint mgr.toBlock) (hn : n ≤ b.size)
    (hid : id < sysvarIdMax) : (m.fill b.base n 0).load32 (mgr.entry id) =
      m.load32 (mgr.entry id) := by
  refine Memory.load32_fill fun x hx hcleared => hoff x ⟨?_, has_of_inRange_entry hid hx⟩
  exact Nat.lt_of_lt_of_le hcleared hn

/-- **A call that fits keeps the entries.** -/
theorem Entries.init (h : Entries mgr s) (hapart : Apart mgr (s.init mgr id size malloc))
    (hadm : s.Admits mgr size malloc) (hfits : Fits s (.init id size malloc)) :
    Entries mgr (s.init mgr id size malloc) := by
  intro id' hid'
  change (sysvarInit mgr s.mem id size (addr malloc)).mem.load32 (mgr.entry id') =
    addr (s.allocated mgr id malloc id'.toNat)
  by_cases hid : id < sysvarIdMax
  · cases hb : s.allocated mgr id malloc id.toNat with
    | none =>
      rw [sysvarInit_of_none h hid hb]
      exact h.withMalloc hid id' hid'
    | some b =>
      rw [sysvarInit_of_some h hid hb, load32_entry_fill (hapart.off _ b hb)
        (size_le_of_allocated hadm hfits hb) hid']
      exact h.withMalloc hid id' hid'
  · have hsame : s.allocated mgr id malloc = s.block := if_neg fun hcall => hid hcall.1
    rw [sysvarInit_of_not_lt hid, hsame]
    exact h id' hid'

/-- The rest of the program keeps them too. -/
theorem Entries.stored (h : Entries mgr s) (mem : Memory) : Entries mgr (s.stored mgr mem) := by
  intro id hid
  refine Eq.trans ?_ (h id hid)
  exact Memory.load32_congr fun x hx => if_pos (has_of_inRange_entry hid hx)

theorem Entries.step (h : Entries mgr s) (hapart : Apart mgr s) (hfits : Fits s e)
    (hstep : (program mgr).step s e = some t) : Entries mgr t := by
  have hapart' := hapart.step hstep
  cases e with
  | init id size malloc =>
    obtain ⟨hadm, rfl⟩ := step_init hstep
    exact h.init hapart' hadm hfits
  | rest mem =>
    obtain rfl := step_rest hstep
    exact h.stored mem

/-- **A call that fits is right.** -/
theorem right_of_fits (h : Entries mgr s) (hapart : Apart mgr (s.init mgr id size malloc))
    (hadm : s.Admits mgr size malloc) (hfits : Fits s (.init id size malloc)) :
    Right mgr s (.init id size malloc) := by
  by_cases hid : id < sysvarIdMax
  · cases hb : s.allocated mgr id malloc id.toNat with
    | none =>
      rw [Right, sysvarInit_of_none h hid hb]
      exact ⟨fun _ hp => (nomatch hp), fun hresult => absurd rfl hresult⟩
    | some b =>
      have hle := size_le_of_allocated hadm hfits hb
      have hinside : (s.init mgr id size malloc).Inside id.toNat b.base size :=
        ⟨b, hb, (Block.forall_has_iff (by omega)).2 hle⟩
      have hresult : ((s.withMalloc mgr id malloc).mem.fill b.base size 0).load32
          (mgr.entry id) = b.base := by
        rw [load32_entry_fill (hapart.off _ b hb) hle hid, h.withMalloc hid id hid]
        exact congrArg addr hb
      rw [Right, sysvarInit_of_some h hid hb]
      refine ⟨fun p hp => ?_, fun _ => ?_⟩
      · obtain rfl := Option.some.inj hp
        exact hinside
      · change (s.init mgr id size malloc).Inside id.toNat (Memory.load32 _ _) size
        rw [hresult]
        exact hinside
  · rw [Right, sysvarInit_of_not_lt hid]
    exact ⟨fun _ hp => (nomatch hp), fun hresult => absurd rfl hresult⟩

/-- **A call that does not fit clears past the block.** -/
theorem fits_of_right (h : Entries mgr s) (hapart : Apart mgr s)
    (hright : Right mgr s (.init id size malloc)) : Fits s (.init id size malloc) := by
  intro b hb
  have hid : id < sysvarIdMax := lt_sysvarIdMax_iff.2 (hapart.lt _ b hb)
  have hsame : s.allocated mgr id malloc = s.block := allocated_of_some h hid hb
  have hblock : s.allocated mgr id malloc id.toNat = some b := by
    rw [hsame]
    exact hb
  rw [Right, sysvarInit_of_some h hid hblock] at hright
  obtain ⟨c, hc, hin⟩ := hright.1 b.base rfl
  obtain rfl := Option.some.inj (hblock.symm.trans hc)
  exact (Block.forall_has_iff (by omega)).1 hin

theorem right_iff_fits (h : Entries mgr s) (hapart : Apart mgr s)
    (hstep : (program mgr).step s e = some t) : Right mgr s e ↔ Fits s e := by
  have hapart' := hapart.step hstep
  cases e with
  | init id size malloc =>
    obtain ⟨hadm, rfl⟩ := step_init hstep
    exact ⟨fits_of_right h hapart, right_of_fits h hapart' hadm⟩
  | rest mem => exact Iff.rfl

/-! ### Runs -/

theorem entries_start (mem : Memory) : Entries mgr (start mgr mem) := by
  intro id hid
  refine Memory.load32_eq_zero fun x hx => ?_
  exact Memory.fill_of_inRange (has_of_inRange_entry hid hx)

theorem apart_start (mem : Memory) : Apart mgr (start mgr mem) :=
  ⟨fun _ _ hb => (nomatch hb), fun _ _ hb => (nomatch hb), fun _ _ _ _ _ hb => (nomatch hb)⟩

/-- The calls of a run are right as long as they fit. -/
theorem along_right_iff {mem : Memory} {es : List Event}
    (hrun : (program mgr).run (start mgr mem) es = some t) :
    (program mgr).Along (Right mgr) (start mgr mem) es ↔
      (program mgr).Along Fits (start mgr mem) es := by
  refine Machine.along_iff_of_run (I := fun s => Entries mgr s ∧ Apart mgr s)
    (fun s e t hs hstep => right_iff_fits hs.1 hs.2 hstep) (fun s e t hs hright hstep => ?_)
    ⟨entries_start mem, apart_start mem⟩ hrun
  have hfits := (right_iff_fits hs.1 hs.2 hstep).1 hright
  exact ⟨hs.1.step hs.2 hfits hstep, hs.2.step hstep⟩

/-- **System variables are cleared inside their own block** exactly as long as
no call asks for more than the block of its id has, which is what the call
that allocated it asked for. For every place of the table, every memory at
the start, and every run of calls with what `os_malloc` may return and of
stores of the rest of the program. The blocks are disjoint in any case. -/
theorem sysvarInit_inside_iff_fits (mgr : SysvarMgr) (mem : Memory) (es : List Event)
    (t : Sysvars) (hrun : (program mgr).run (start mgr mem) es = some t) :
    (program mgr).Always BlocksDisjoint (start mgr mem) es ∧
      ((program mgr).Along (Right mgr) (start mgr mem) es ↔
        (program mgr).Along Fits (start mgr mem) es) := by
  have hapart : (program mgr).Always (Apart mgr) (start mgr mem) es :=
    Machine.always_of_step (fun _ _ _ h hstep => h.step hstep) (apart_start mem)
  exact ⟨hapart.mono fun _ h => h.disjoint, along_right_iff hrun⟩

/-! A table, and two neighbouring blocks of 4 bytes. -/

def table : SysvarMgr where
  base := 0x100
  size := 64
  nonnull := by decide
  fits := by decide
  size_eq := by decide

def firstBlock : Block where
  base := 0x1000
  size := 4
  nonnull := by decide
  fits := by decide

def secondBlock : Block where
  base := 0x1004
  size := 4
  nonnull := by decide
  fits := by decide

/-- Both ids get their block, something is stored in them, and the first id is
asked for again, with another size. -/
def again (size : Fin (2 ^ 31)) : List Event :=
  [.init 0 4 (some firstBlock), .init 1 4 (some secondBlock), .rest fun _ => 7,
    .init 0 size none]

/-- With no more than before, all is right. -/
theorem sysvarInit_inside_again :
    (program table).Along (Right table) (start table fun _ => 0) (again 4) :=
  (sysvarInit_inside_iff_fits table (fun _ => 0) (again 4) _ rfl).2.2 (by decide +kernel)

/-- **With more, the block of the second id is cleared.** Its first byte, which
was 7, is zero, and the pointer returned has 4 bytes behind it, not 8. -/
theorem sysvarInit_clears_neighbour :
    ∃ s t, (program table).run (start table fun _ => 0) ((again 8).take 3) = some s ∧
      (program table).run (start table fun _ => 0) (again 8) = some t ∧
      ¬ (program table).Along (Right table) (start table fun _ => 0) (again 8) ∧
      t.block 0 = some firstBlock ∧ t.block 1 = some secondBlock ∧
      s.mem 0x1004 = 7 ∧ t.mem 0x1004 = 0 ∧
      (sysvarInit table s.mem 0 8 0).result = 0x1000 := by
  refine ⟨_, _, rfl, rfl, ?_, rfl, rfl, rfl, rfl, rfl⟩
  rw [along_right_iff rfl]
  decide +kernel

end Sysvar

end Hgsdk

import Hgsdk.Common.Memory
import Mathlib.Logic.Function.Basic
/-!
# Copies under way

Several parties copy and fill memory at the same time, byte by byte, each
for a part of its own. `plain` is the memory in which each copy is done at
once, when it is begun. `Agrees` says that the two memories are the same
but for the bytes that are still to come.

It is kept when a copy is begun that keeps apart from the others, when one
of them does its next byte, when one that has done all of its bytes ends,
and when someone else writes a byte that no copy reads or writes.
-/

namespace Hgsdk

namespace Copies

open Memory

/-- A copy from `src`, or a filling with one byte. -/
inductive Op where
  | copy (dest src : BitVec 32)
  | fill (dest : BitVec 32) (val : Byte)
  deriving DecidableEq

namespace Op

def dest : Op → BitVec 32
  | copy dest _ => dest
  | fill dest _ => dest

/-- What goes to byte `i`. -/
def value (op : Op) (m : Memory) (i : ℕ) : Byte :=
  match op with
  | copy _ src => m (src + BitVec.ofNat 32 i)
  | fill _ val => val

/-- Byte `i` is done. -/
def byte (op : Op) (m : Memory) (i : ℕ) : Memory :=
  Function.update m (op.dest + BitVec.ofNat 32 i) (op.value m i)

/-- **All `n` bytes at once.** -/
def apply (op : Op) (n : ℕ) (m : Memory) : Memory := fun x =>
  if InRange op.dest n x then op.value m (x - op.dest).toNat else m x

/-- The cells it writes. -/
def Writes (op : Op) (n : ℕ) (x : BitVec 32) : Prop := InRange op.dest n x

/-- The cells it reads. -/
def Reads (op : Op) (n : ℕ) (x : BitVec 32) : Prop :=
  match op with
  | copy _ src => InRange src n x
  | fill _ _ => False

/-- A copy that does not read what it writes. -/
def Sound (op : Op) (n : ℕ) : Prop := ∀ x, op.Writes n x → ¬ op.Reads n x

/-- Two copies, neither of which writes what the other reads or writes. -/
structure Apart (op : Op) (n : ℕ) (op' : Op) (n' : ℕ) : Prop where
  writes : ∀ x, op.Writes n x → ¬ op'.Writes n' x
  reads : ∀ x, op.Reads n x → ¬ op'.Writes n' x
  reads' : ∀ x, op'.Reads n' x → ¬ op.Writes n x

theorem Apart.symm {op op' : Op} {n n' : ℕ} (h : op.Apart n op' n') : op'.Apart n' op n :=
  ⟨fun x hx hx' => h.writes x hx' hx, h.reads', h.reads⟩

variable {op : Op} {m m' : Memory} {n i : ℕ} {x : BitVec 32}

theorem toNat_add_sub (a : BitVec 32) (hi : i < 2 ^ 32) :
    (a + BitVec.ofNat 32 i - a).toNat = i := by
  rw [BitVec.add_comm, BitVec.add_sub_cancel, BitVec.toNat_ofNat, Nat.mod_eq_of_lt hi]

theorem writes_add (hi : i < n) (hn : n ≤ 2 ^ 32) :
    op.Writes n (op.dest + BitVec.ofNat 32 i) := by
  rw [Writes, InRange, toNat_add_sub _ (hi.trans_le hn)]
  exact hi

/-- The value depends on the cells that are read. -/
theorem value_congr (h : ∀ x, op.Reads n x → m x = m' x) (hi : i < n) (hn : n ≤ 2 ^ 32) :
    op.value m i = op.value m' i := by
  cases op with
  | fill dest val => rfl
  | copy dest src =>
    refine h _ ?_
    rw [Reads, InRange, toNat_add_sub _ (hi.trans_le hn)]
    exact hi

theorem apply_of_not_writes (h : ¬ op.Writes n x) : op.apply n m x = m x := if_neg h

theorem apply_add (hi : i < n) (hn : n ≤ 2 ^ 32) :
    op.apply n m (op.dest + BitVec.ofNat 32 i) = op.value m i := by
  have hin : InRange op.dest n (op.dest + BitVec.ofNat 32 i) := writes_add hi hn
  rw [apply, if_pos hin, toNat_add_sub _ (hi.trans_le hn)]

end Op

/-- **A copy under way**: how many of its bytes are done. -/
structure Piece where
  op : Op
  n : BitVec 32
  done : ℕ

namespace Piece

/-- The cells it writes. -/
def Writes (p : Piece) (x : BitVec 32) : Prop := p.op.Writes p.n.toNat x

/-- The cells it reads. -/
def Reads (p : Piece) (x : BitVec 32) : Prop := p.op.Reads p.n.toNat x

/-- The cells it has still to write. -/
def Open (p : Piece) (x : BitVec 32) : Prop :=
  p.done ≤ (x - p.op.dest).toNat ∧ (x - p.op.dest).toNat < p.n.toNat

theorem Open.writes {p : Piece} {x : BitVec 32} (h : p.Open x) : p.Writes x := h.2

/-- A copy that has done its bytes has none still to write. -/
theorem not_open_of_le {p : Piece} {x : BitVec 32} (h : p.n.toNat ≤ p.done) : ¬ p.Open x :=
  fun hopen => absurd (hopen.1.trans_lt hopen.2) (not_lt.2 h)

theorem n_le (p : Piece) : p.n.toNat ≤ 2 ^ 32 := p.n.isLt.le

end Piece

variable {T : Type} {todo : T → Option Piece} {mem plain : Memory} {t : T} {op : Op} {n : BitVec 32}
variable {k : ℕ}

/-- **The memory, but for what is still to come.** -/
structure Agrees (todo : T → Option Piece) (mem plain : Memory) : Prop where
  same : ∀ x, (∀ t p, todo t = some p → ¬ p.Open x) → mem x = plain x
  /-- In `plain`, every copy is done. -/
  settled : ∀ t p, todo t = some p → ∀ i < p.n.toNat,
    plain (p.op.dest + BitVec.ofNat 32 i) = p.op.value plain i
  sound : ∀ t p, todo t = some p → p.op.Sound p.n.toNat
  apart : ∀ t t' p p', todo t = some p → todo t' = some p' → t ≠ t' →
    p.op.Apart p.n.toNat p'.op p'.n.toNat

namespace Agrees

theorem start (mem : Memory) : Agrees (fun _ : T => none) mem mem :=
  ⟨fun _ _ => rfl, nofun, nofun, nofun⟩

/-- What a copy reads is what `plain` has. -/
theorem eq_of_reads (h : Agrees todo mem plain) {p : Piece} (ht : todo t = some p)
    {x : BitVec 32} (hx : p.Reads x) : mem x = plain x := by
  refine h.same x fun t' p' ht' hopen => ?_
  by_cases htt : t = t'
  · subst htt
    obtain rfl := Option.some.inj (ht.symm.trans ht')
    exact h.sound t p ht x hopen.writes hx
  · exact (h.apart t t' p p' ht ht' htt).reads x hx hopen.writes

variable [DecidableEq T]

/-- A copy under way after `t` has gone on is the one of `t`, or one that
was under way before. -/
theorem eq_some_of_update {o : Option Piece} {t' : T} {p' : Piece}
    (h : Function.update todo t o t' = some p') :
    (t' = t ∧ o = some p') ∨ t' ≠ t ∧ todo t' = some p' := by
  by_cases htt : t' = t
  · rw [htt, Function.update_self] at h
    exact Or.inl ⟨htt, h⟩
  · rw [Function.update_of_ne htt] at h
    exact Or.inr ⟨htt, h⟩

/-- A cell that is not to come after `t` has gone on, and was not to come
from `t`, was not to come before. -/
theorem not_open_of_update {o : Option Piece} {p : Piece} {x : BitVec 32} (ht : todo t = some p)
    (hp : ¬ p.Open x) (hx : ∀ t' p', Function.update todo t o t' = some p' → ¬ p'.Open x) :
    ∀ t' p', todo t' = some p' → ¬ p'.Open x := by
  intro t' p' ht'
  by_cases htt : t' = t
  · subst htt
    obtain rfl := Option.some.inj (ht.symm.trans ht')
    exact hp
  · exact hx t' p' ((Function.update_of_ne htt ..).trans ht')

/-- **A copy is begun**, apart from the others. -/
theorem begin (h : Agrees todo mem plain) (ht : todo t = none) (hsound : op.Sound n.toNat)
    (hapart : ∀ t' p', todo t' = some p' → op.Apart n.toNat p'.op p'.n.toNat) :
    Agrees (Function.update todo t (some ⟨op, n, 0⟩)) mem (op.apply n.toNat plain) := by
  have hne : ∀ {t' p'}, todo t' = some p' → t' ≠ t := by
    rintro t' p' ht' rfl
    exact nomatch ht.symm.trans ht'
  refine ⟨fun x hx => ?_, fun t' p' ht' i hi => ?_, fun t' p' ht' => ?_,
    fun t₁ t₂ p₁ p₂ h₁ h₂ h₁₂ => ?_⟩
  · -- the cells of the new copy are all still to come
    have hnot : ¬ op.Writes n.toNat x := fun hw =>
      hx t ⟨op, n, 0⟩ (Function.update_self ..) ⟨Nat.zero_le _, hw⟩
    rw [Op.apply_of_not_writes hnot]
    refine h.same x fun t' p' ht' => hx t' p' ?_
    rw [Function.update_of_ne (hne ht')]
    exact ht'
  · obtain ⟨-, hp'⟩ | ⟨-, ht'⟩ := eq_some_of_update ht'
    · obtain rfl := Option.some.inj hp'
      rw [Op.apply_add hi n.isLt.le]
      refine Op.value_congr (fun x hx => ?_) hi n.isLt.le
      exact (Op.apply_of_not_writes fun hw => hsound x hw hx).symm
    · have happ := hapart t' p' ht'
      rw [Op.apply_of_not_writes fun hw => happ.writes _ hw (Op.writes_add hi p'.n_le),
        h.settled t' p' ht' i hi]
      refine Op.value_congr (fun x hx => ?_) hi p'.n_le
      exact (Op.apply_of_not_writes (happ.reads' x hx)).symm
  · obtain ⟨-, hp'⟩ | ⟨-, ht'⟩ := eq_some_of_update ht'
    · obtain rfl := Option.some.inj hp'
      exact hsound
    · exact h.sound t' p' ht'
  · obtain ⟨ht₁, hp₁⟩ | ⟨-, h₁⟩ := eq_some_of_update h₁ <;>
      obtain ⟨ht₂, hp₂⟩ | ⟨-, h₂⟩ := eq_some_of_update h₂
    · exact absurd (ht₁.trans ht₂.symm) h₁₂
    · obtain rfl := Option.some.inj hp₁
      exact hapart t₂ p₂ h₂
    · obtain rfl := Option.some.inj hp₂
      exact (hapart t₁ p₁ h₁).symm
    · exact h.apart t₁ t₂ p₁ p₂ h₁ h₂ h₁₂

/-- A copy's progress changes which cells are still to come, and nothing
else. -/
theorem progress (h : Agrees todo mem plain) {mem' : Memory} {k' : ℕ}
    (ht : todo t = some ⟨op, n, k⟩)
    (hsame : ∀ x, (∀ t' p', Function.update todo t (some ⟨op, n, k'⟩) t' = some p' → ¬ p'.Open x) →
      mem' x = plain x) :
    Agrees (Function.update todo t (some ⟨op, n, k'⟩)) mem' plain := by
  -- every party's copy is the one it had
  have hback : ∀ {t' p'}, Function.update todo t (some ⟨op, n, k'⟩) t' = some p' →
      ∃ p, todo t' = some p ∧ p.op = p'.op ∧ p.n = p'.n := by
    intro t' p' ht'
    obtain ⟨rfl, hp'⟩ | ⟨-, ht'⟩ := eq_some_of_update ht'
    · obtain rfl := Option.some.inj hp'
      exact ⟨_, ht, rfl, rfl⟩
    · exact ⟨p', ht', rfl, rfl⟩
  refine ⟨hsame, fun t' p' ht' => ?_, fun t' p' ht' => ?_, fun t₁ t₂ p₁ p₂ h₁ h₂ => ?_⟩
  · obtain ⟨p, hp, hop, hn⟩ := hback ht'
    rw [← hop, ← hn]
    exact h.settled t' p hp
  · obtain ⟨p, hp, hop, hn⟩ := hback ht'
    rw [← hop, ← hn]
    exact h.sound t' p hp
  · obtain ⟨q₁, hq₁, hop₁, hn₁⟩ := hback h₁
    obtain ⟨q₂, hq₂, hop₂, hn₂⟩ := hback h₂
    rw [← hop₁, ← hn₁, ← hop₂, ← hn₂]
    exact h.apart t₁ t₂ q₁ q₂ hq₁ hq₂

/-- **A copy does its next byte.** -/
theorem advance (h : Agrees todo mem plain) (ht : todo t = some ⟨op, n, k⟩) (hk : k < n.toNat) :
    Agrees (Function.update todo t (some ⟨op, n, k + 1⟩)) (op.byte mem k) plain := by
  have hk32 : k < 2 ^ 32 := hk.trans n.isLt
  refine h.progress ht fun x hx => ?_
  by_cases hxk : x = op.dest + BitVec.ofNat 32 k
  · have hvalue : op.value mem k = op.value plain k :=
      Op.value_congr (fun y hy => h.eq_of_reads ht hy) hk n.isLt.le
    rw [hxk, Op.byte, Function.update_self, hvalue]
    exact (h.settled t _ ht k hk).symm
  · rw [Op.byte, Function.update_of_ne hxk]
    refine h.same x (not_open_of_update ht (fun hopen => ?_) hx)
    -- the only cell that is no longer to come is the one just written
    refine hx t ⟨op, n, k + 1⟩ (Function.update_self ..) ⟨?_, hopen.2⟩
    refine Nat.lt_of_le_of_ne hopen.1 fun heq => hxk ?_
    rw [heq, BitVec.ofNat_toNat, BitVec.setWidth_eq, BitVec.add_comm, BitVec.sub_add_cancel]

/-- A copy that has done its bytes has done them. -/
theorem pass (h : Agrees todo mem plain) (k' : ℕ) (ht : todo t = some ⟨op, n, k⟩)
    (hk : n.toNat ≤ k) : Agrees (Function.update todo t (some ⟨op, n, k'⟩)) mem plain := by
  refine h.progress ht fun x hx => h.same x (not_open_of_update ht ?_ hx)
  exact Piece.not_open_of_le hk

/-- **A copy ends** that has done its bytes. -/
theorem finish (h : Agrees todo mem plain) {p : Piece} (ht : todo t = some p)
    (hp : p.n.toNat ≤ p.done) : Agrees (Function.update todo t none) mem plain := by
  have hback : ∀ {t' p'}, Function.update todo t none t' = some p' → todo t' = some p' := by
    intro t' p' ht'
    obtain ⟨-, hnone⟩ | ⟨-, ht'⟩ := eq_some_of_update ht'
    · exact nomatch hnone
    · exact ht'
  exact ⟨fun x hx => h.same x (not_open_of_update ht (Piece.not_open_of_le hp) hx),
    fun t' p' ht' => h.settled t' p' (hback ht'), fun t' p' ht' => h.sound t' p' (hback ht'),
    fun t₁ t₂ p₁ p₂ h₁ h₂ => h.apart t₁ t₂ p₁ p₂ (hback h₁) (hback h₂)⟩

omit [DecidableEq T] in
/-- **Someone else writes**, a cell that no copy reads or writes. -/
theorem write (h : Agrees todo mem plain) {x : BitVec 32} (v : Byte)
    (hx : ∀ t p, todo t = some p → ¬ p.Writes x ∧ ¬ p.Reads x) :
    Agrees todo (Function.update mem x v) (Function.update plain x v) := by
  refine ⟨fun y hy => ?_, fun t p ht i hi => ?_, h.sound, h.apart⟩
  · by_cases hyx : y = x
    · rw [hyx, Function.update_self, Function.update_self]
    · rw [Function.update_of_ne hyx, Function.update_of_ne hyx]
      exact h.same y hy
  · have hne : p.op.dest + BitVec.ofNat 32 i ≠ x := by
      rintro rfl
      exact (hx t p ht).1 (Op.writes_add hi p.n_le)
    rw [Function.update_of_ne hne, h.settled t p ht i hi]
    refine Op.value_congr (fun y hy => ?_) hi p.n_le
    have hyx : y ≠ x := by
      rintro rfl
      exact (hx t p ht).2 hy
    rw [Function.update_of_ne hyx]

end Agrees

end Copies

end Hgsdk

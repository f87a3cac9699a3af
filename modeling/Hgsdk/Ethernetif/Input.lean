import Hgsdk.Ethernetif.Model
/-!
# What a received frame becomes

The loop of `low_level_input` copies from the beginning of the frame into
every pbuf of the chain. So the chain has the frame's bytes where each part
of the frame repeats its beginning, and for all frames only where the chain
has at most one pbuf with bytes in it.
-/

namespace Hgsdk

namespace Ethernetif

variable {data : ℕ → Byte} {p : List Pbuf} {off : ℕ}

/-- **The frame repeats its beginning** in each part that the chain is
divided into, from `off` on. -/
def Repeats (data : ℕ → Byte) : (off : ℕ) → List Pbuf → Prop
  | _, [] => True
  | off, q :: p => (∀ i < q.len.toNat, data i = data (off + i)) ∧ Repeats data (off + q.len.toNat) p

/-! ### The copy -/

theorem bytes_hwMemcpy (q : Pbuf) (data : ℕ → Byte) :
    (q.hwMemcpy data).bytes = load data 0 q.len.toNat := by
  have h := load_overlay q.payload (load data 0 q.len.toNat)
  rwa [length_load] at h

theorem repeats_copyLoop : Repeats data off (copyLoop data p) ↔ Repeats data off p := by
  induction p generalizing off with
  | nil => rfl
  | cons q p ih => exact and_congr_right fun _ => ih

/-- **The copied chain is the frame** where the frame repeats itself. -/
theorem payload_copyLoop : payload (copyLoop data p) = load data off (total p) ↔
    Repeats data off p := by
  induction p generalizing off with
  | nil => exact iff_of_true rfl trivial
  | cons q p ih =>
    have htotal : total (q :: p) = q.len.toNat + total p := by simp [total]
    have hpayload : payload (copyLoop data (q :: p)) =
        load data 0 q.len.toNat ++ payload (copyLoop data p) := by
      rw [← bytes_hwMemcpy]
      rfl
    rw [htotal, hpayload, load_add, Repeats, ← ih]
    have hhead : load data 0 q.len.toNat = load data off q.len.toNat ↔
        ∀ i < q.len.toNat, data i = data (off + i) := by simp [load_eq_load_iff]
    rw [← hhead]
    constructor
    · intro h
      exact List.append_inj h (by rw [length_load, length_load])
    · rintro ⟨hq, hp⟩
      rw [hq, hp]

/-! ### For all frames -/

/-- A pbuf with bytes in it. -/
def Pbuf.Holds (q : Pbuf) : Prop := q.len ≠ 0

instance (q : Pbuf) : Decidable q.Holds := inferInstanceAs (Decidable (_ ≠ _))

/-- **At most one pbuf of the chain has bytes in it.** -/
def OnePiece (p : List Pbuf) : Prop := (p.filter fun q => q.Holds).length ≤ 1

theorem repeats_of_forall_empty (h : ∀ q ∈ p, ¬ q.Holds) : Repeats data off p := by
  induction p generalizing off with
  | nil => trivial
  | cons q p ih =>
    have hq : q.len = 0 := not_not.1 (h q List.mem_cons_self)
    refine ⟨fun i hi => ?_, ih fun l hl => h l (List.mem_cons_of_mem q hl)⟩
    rw [hq] at hi
    exact absurd hi (Nat.not_lt_zero i)

instance (p : List Pbuf) : Decidable (OnePiece p) := inferInstanceAs (Decidable (_ ≤ _))

/-- A frame whose first byte differs from all others. -/
def marked : ℕ → Byte := fun i => if i = 0 then 1 else 0

/-- Behind the first byte, that frame repeats nothing. -/
theorem forall_empty_of_repeats (hoff : 0 < off) (h : Repeats marked off p) :
    ∀ q ∈ p, ¬ q.Holds := by
  induction p generalizing off with
  | nil => exact nofun
  | cons q p ih =>
    obtain ⟨hq, hp⟩ := h
    refine List.forall_mem_cons.2 ⟨fun hne => ?_, ih (by omega) hp⟩
    have hpos : 0 < q.len.toNat := Nat.pos_of_ne_zero fun h0 => hne (BitVec.eq_of_toNat_eq h0)
    have hbyte := hq 0 hpos
    simp [marked, hoff.ne'] at hbyte

theorem onePiece_cons_of_holds {q : Pbuf} (hq : q.Holds) :
    OnePiece (q :: p) ↔ ∀ l ∈ p, ¬ l.Holds := by
  have hlength : (p.filter fun l => l.Holds).length + 1 ≤ 1 ↔
      (p.filter fun l => l.Holds).length = 0 := by omega
  rw [OnePiece, List.filter_cons_of_pos (by simpa using hq), List.length_cons, hlength,
    List.length_eq_zero_iff, List.filter_eq_nil_iff]
  simp only [decide_eq_true_eq]

theorem onePiece_cons_of_not_holds {q : Pbuf} (hq : ¬ q.Holds) :
    OnePiece (q :: p) ↔ OnePiece p := by
  rw [OnePiece, List.filter_cons_of_neg (by simpa using hq), OnePiece]

/-- **All frames** repeat themselves where the chain is in one piece. -/
theorem forall_repeats_iff : (∀ data, Repeats data 0 p) ↔ OnePiece p := by
  induction p with
  | nil => exact iff_of_true (fun _ => trivial) (Nat.zero_le 1)
  | cons q p ih =>
    by_cases hq : q.Holds
    · -- what is behind the first bytes must be empty
      have hpos : 0 < 0 + q.len.toNat :=
        Nat.zero_add _ ▸ Nat.pos_of_ne_zero fun h0 => hq (BitVec.eq_of_toNat_eq h0)
      rw [onePiece_cons_of_holds hq]
      refine ⟨fun h => forall_empty_of_repeats hpos (h marked).2, fun h data => ⟨?_, ?_⟩⟩
      · intro i _
        rw [Nat.zero_add]
      · exact repeats_of_forall_empty h
    · have hlen : q.len = 0 := not_not.1 hq
      rw [onePiece_cons_of_not_holds hq, ← ih]
      refine forall_congr' fun data => ?_
      simp [Repeats, hlen]

/-! ### The frame that reaches lwIP -/

section Frame

variable {pbufAlloc : BitVec 16 → Option (List Pbuf)}

/-- **A received frame reaches lwIP** byte for byte where each part of it
repeats its beginning, and so for all frames of a length only where the
chain is in one piece. `pbuf_alloc` gives a chain of the length it is asked
for, or none. -/
theorem received_frame
    (hpbuf : ∀ n p, pbufAlloc n = some p → p ≠ [] ∧ total p = n.toNat)
    (n : BitVec 32) (hn : n.toNat < 65536) :
    (∀ data p, lowLevelInput pbufAlloc data n = some p →
      (payload p = load data 0 n.toNat ↔ Repeats data 0 p)) ∧
    ((∀ data p, lowLevelInput pbufAlloc data n = some p → payload p = load data 0 n.toNat) ↔
      ∀ p, pbufAlloc (n.setWidth 16) = some p → OnePiece p) ∧
    ∀ data input, (ethernetifInput pbufAlloc input data n).map Prod.fst =
      lowLevelInput pbufAlloc data n := by
  have hwidth : (n.setWidth 16).toNat = n.toNat := by
    rw [BitVec.toNat_setWidth, Nat.mod_eq_of_lt hn]
  -- one frame
  have hone : ∀ data p, pbufAlloc (n.setWidth 16) = some p →
      (payload (copyLoop data p) = load data 0 n.toNat ↔ Repeats data 0 p) := by
    intro data p hp
    rw [← hwidth, ← (hpbuf _ p hp).2]
    exact payload_copyLoop
  refine ⟨?_, ?_, ?_⟩
  · intro data p hp
    obtain ⟨p', hp', rfl⟩ := Option.map_eq_some_iff.1 hp
    rw [repeats_copyLoop]
    exact hone data p' hp'
  · constructor
    · intro h p hp
      rw [← forall_repeats_iff]
      intro data
      exact (hone data p hp).1 (h data _ (Option.map_eq_some_iff.2 ⟨p, hp, rfl⟩))
    · intro h data p hp
      obtain ⟨p', hp', rfl⟩ := Option.map_eq_some_iff.1 hp
      exact (hone data p' hp').2 (forall_repeats_iff.2 (h p' hp') data)
  · intro data input
    rw [ethernetifInput, Option.map_map]
    exact Option.map_id_apply

end Frame

/-- A chain of one pbuf. -/
def inOne (n : BitVec 16) : Option (List Pbuf) := some [⟨fun _ => 0, n⟩]

theorem inOne_total (n : BitVec 16) (p : List Pbuf) (h : inOne n = some p) :
    p ≠ [] ∧ total p = n.toNat := by
  obtain rfl := Option.some.inj h
  exact ⟨List.cons_ne_nil _ _, by simp [total]⟩

/-- A frame of four bytes arrives in one pbuf. -/
theorem received_frame_four_bytes :
    ∃ p, lowLevelInput inOne (fun i => BitVec.ofNat 8 (i + 1)) 4 = some p ∧
      payload p = load (fun i => BitVec.ofNat 8 (i + 1)) 0 4 ∧ payload p = [1, 2, 3, 4] := by
  have hone : ∀ p, inOne ((4 : BitVec 32).setWidth 16) = some p → OnePiece p := by
    intro p hp
    obtain rfl := Option.some.inj hp
    decide
  have harrives := (received_frame inOne_total 4 (by decide)).2.1.2 hone
    (fun i => BitVec.ofNat 8 (i + 1)) _ rfl
  exact ⟨_, rfl, harrives, harrives.trans (by decide)⟩

/-- A chain in pieces of one byte. -/
def inBytes (n : BitVec 16) : Option (List Pbuf) :=
  some (⟨fun _ => 0, 0⟩ :: List.replicate n.toNat ⟨fun _ => 0, 1⟩)

/-- **The second piece gets the first byte again**: a frame of the bytes 1
and 2, divided after the first, arrives as 1 and 1. -/
theorem received_frame_corrupted : ∃ p, lowLevelInput inBytes (fun i => BitVec.ofNat 8 (i + 1)) 2 =
      some p ∧
    load (fun i => BitVec.ofNat 8 (i + 1)) 0 2 = [1, 2] ∧ payload p = [1, 1] :=
  ⟨_, rfl, by decide, by decide⟩

end Ethernetif

end Hgsdk

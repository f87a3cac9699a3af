import Hgsdk.Hex.Model
/-!
# Decoding hex text

`hex2bin` decodes the leading pairs of digits of its string, as many as the
buffer is said to hold, and reads no further than the terminator. It inverts
printing in either case; so does `str2mac` for an address printed with
`MACSTR`.
-/

namespace Hgsdk

namespace Hex

open StrCase (CStr)

/-! ### Digits -/

/-- **A digit is read as its value** and everything else as −1, whether a
`char` is signed or not. -/
theorem hex2int_eq (signed : Bool) (c : Byte) :
    hex2int signed c = match hexVal c with
      | some v => BitVec.ofNat 32 v
      | none => -1 := by
  revert signed c
  decide +kernel

/-- A value is below 16. -/
theorem hexVal_lt {c : Byte} {v : ℕ} (h : hexVal c = some v) : v < 16 :=
  (List.findIdx?_eq_some_iff_findIdx_eq.1 h).1

/-- A digit printed in either case has its value. -/
theorem hexVal_digitText (upper : Bool) {v : ℕ} (hv : v < 16) :
    hexVal (digitText upper v) = some v := by
  revert upper v
  decide

theorem digitText_ne_zero (upper : Bool) {v : ℕ} (hv : v < 16) : digitText upper v ≠ 0 := by
  revert upper v
  decide

/-! ### Pairs -/

/-- The two halves of a byte, put together as an `int`. -/
theorem halves_or : ∀ a < 16, ∀ b < 16,
    (BitVec.ofNat 32 a <<< 4 ||| BitVec.ofNat 32 b : CInt) =
      (BitVec.ofNat 8 (16 * a + b)).setWidth 32 := by
  decide

theorem digit_not_slt_zero : ∀ v < 16, (BitVec.ofNat 32 v : CInt).slt 0 = false := by decide

theorem minus_one_slt_zero : (-1 : CInt).slt 0 = true := by decide

section Pair

variable {signed : Bool} {s : CStr} {j : ℕ} {c d : Byte} {a b : ℕ}

theorem hex2char_of_none (hfirst : charAt? s j = some c) (hc : hexVal c = none) :
    hex2char signed s j = some (-1) := by
  simp only [hex2char, hfirst, Option.bind_eq_bind, Option.bind_some, hex2int_eq, hc]
  exact if_pos minus_one_slt_zero

theorem hex2char_of_some (hfirst : charAt? s j = some c) (hc : hexVal c = some a) :
    hex2char signed s j = (charAt? s (j + 1)).bind fun d =>
      if (hex2int signed d).slt 0 then some (-1 : CInt)
      else some (BitVec.ofNat 32 a <<< 4 ||| hex2int signed d) := by
  have ha := digit_not_slt_zero a (hexVal_lt hc)
  simp only [hex2char, hfirst, Option.bind_eq_bind, Option.bind_some]
  rw [hex2int_eq signed c, hc]
  exact if_neg (Bool.eq_false_iff.1 ha)

theorem hex2char_of_some_none (hfirst : charAt? s j = some c) (hc : hexVal c = some a)
    (hsecond : charAt? s (j + 1) = some d) (hd : hexVal d = none) :
    hex2char signed s j = some (-1) := by
  rw [hex2char_of_some hfirst hc, hsecond, Option.bind_some, hex2int_eq, hd]
  exact if_pos minus_one_slt_zero

theorem hex2char_of_pair (hfirst : charAt? s j = some c) (hc : hexVal c = some a)
    (hsecond : charAt? s (j + 1) = some d) (hd : hexVal d = some b) :
    hex2char signed s j = some ((BitVec.ofNat 8 (16 * a + b)).setWidth 32) := by
  have hb := digit_not_slt_zero b (hexVal_lt hd)
  rw [hex2char_of_some hfirst hc, hsecond, Option.bind_some, hex2int_eq, hd]
  dsimp only
  rw [if_neg (Bool.eq_false_iff.1 hb), halves_or a (hexVal_lt hc) b (hexVal_lt hd)]

/-- What is read from an offset on is the rest of the string and its
terminator. -/
theorem charAt?_add (hj : j ≤ s.chars.length) (k : ℕ) :
    charAt? s (j + k) = (s.chars.drop j ++ [0])[k]? := by
  rw [charAt?, ← List.drop_append_of_le_length hj, List.getElem?_drop]

/-- **`hex2char` reads the first pair of the rest of the string**, −1 where
there is none, and never past the terminator. -/
theorem hex2char_eq (hj : j ≤ s.chars.length) :
    hex2char signed s j = some (match leadingPairs (s.chars.drop j) with
      | [] => -1
      | v :: _ => v.setWidth 32) := by
  have hterm : hexVal 0 = none := by decide
  have hfirst := charAt?_add hj 0
  have hsecond := charAt?_add hj 1
  rw [Nat.add_zero] at hfirst
  generalize s.chars.drop j = rest at hfirst hsecond ⊢
  match rest with
  | [] => exact hex2char_of_none hfirst hterm
  | [c] =>
    cases hc : hexVal c with
    | none => exact hex2char_of_none hfirst hc
    | some a => exact hex2char_of_some_none hfirst hc hsecond hterm
  | c :: d :: rest =>
    cases hc : hexVal c with
    | none =>
      rw [leadingPairs, hc]
      exact hex2char_of_none hfirst hc
    | some a =>
      cases hd : hexVal d with
      | none =>
        rw [leadingPairs, hc, hd]
        exact hex2char_of_some_none hfirst hc hsecond hd
      | some b =>
        rw [leadingPairs, hc, hd]
        exact hex2char_of_pair hfirst hc hsecond hd

end Pair

/-- A first pair is two characters, and the other pairs follow it. -/
theorem leadingPairs_eq_cons {l tail : List Byte} {v : Byte} (h : leadingPairs l = v :: tail) :
    2 ≤ l.length ∧ leadingPairs (l.drop 2) = tail := by
  match l with
  | [] => cases h
  | [_] => cases h
  | c :: d :: rest =>
    rw [leadingPairs] at h
    split at h
    · cases h
      exact ⟨by simp, rfl⟩
    · cases h

/-! ### The loop -/

/-- The buffer with a list of bytes at an offset. -/
def written (bin : Buffer) (i : ℕ) (vs : List Byte) : Buffer := fun k =>
  if i ≤ k then vs.getD (k - i) (bin k) else bin k

@[simp] theorem written_nil (bin : Buffer) (i : ℕ) : written bin i [] = bin := by
  funext k
  simp [written]

theorem written_cons (bin : Buffer) (i : ℕ) (v : Byte) (vs : List Byte) :
    written (Function.update bin i v) (i + 1) vs = written bin i (v :: vs) := by
  funext k
  simp only [written]
  rcases Nat.lt_trichotomy k i with hlt | heq | hgt
  · rw [if_neg (by omega), if_neg (by omega), Function.update_of_ne (by omega)]
  · subst heq
    simp
  · have hsub : k - i = (k - (i + 1)) + 1 := by omega
    rw [if_pos (by omega), if_pos (by omega), Function.update_of_ne (by omega), hsub,
      List.getD_cons_succ]

/-- The bound on the string's length, on an index that has not passed it. The
sum may wrap to zero; there is no pair left then. -/
theorem bound_iff {i n : ℕ} (hn : n < 2 ^ 32) (hi : 2 * i ≤ n) :
    (BitVec.ofNat 32 i * 2 + 2 : BitVec 32) ≤ BitVec.ofNat 32 n ↔
      2 * i + 2 ≤ n ∨ 2 ^ 32 ≤ 2 * i + 2 := by
  have h2 : (2 : BitVec 32).toNat = 2 := rfl
  rw [BitVec.le_def, BitVec.toNat_add, BitVec.toNat_mul, BitVec.toNat_ofNat, BitVec.toNat_ofNat, h2]
  omega

/-- **The loop from index `i` on**: it writes the pairs that are left, as many
as there is room for. By induction on the turns allowed; the invariant is
that the two pointers are at the index and at twice the index, which is not
past the end of the string. -/
theorem hex2binFrom_eq (signed : Bool) (s : MemStr) (len : BitVec 32) :
    ∀ (fuel i : ℕ) (bin : Buffer), i ≤ len.toNat → len.toNat - i < fuel →
      2 * i ≤ s.chars.length →
      hex2binFrom signed s.toCStr len (BitVec.ofNat 32 s.chars.length) fuel (BitVec.ofNat 32 i)
          (2 * i) i bin =
        some (BitVec.ofNat 32
            (i + min (len.toNat - i) (leadingPairs (s.chars.drop (2 * i))).length),
          written bin i ((leadingPairs (s.chars.drop (2 * i))).take (len.toNat - i))) := by
  intro fuel
  induction fuel with
  | zero =>
    intro i bin _ hfuel
    omega
  | succ fuel ih =>
    intro i bin hi hfuel hpos
    have hlen := len.isLt
    have hlt : BitVec.ofNat 32 i < len ↔ i < len.toNat := by
      rw [BitVec.lt_def, BitVec.toNat_ofNat, Nat.mod_eq_of_lt (by omega)]
    have hbound := bound_iff s.fits hpos
    rw [hex2binFrom, hex2char_eq hpos]
    cases hps : leadingPairs (s.chars.drop (2 * i)) with
    | nil =>
      -- no pair is left: the loop ends here, by its bound or by `hex2char`
      rw [List.take_nil, written_nil, List.length_nil, Nat.min_zero, Nat.add_zero]
      split
      · rw [Option.bind_eq_bind, Option.bind_some, if_pos minus_one_slt_zero]
        rfl
      · rfl
    | cons v tail =>
      obtain ⟨htwo, htail⟩ := leadingPairs_eq_cons hps
      rw [List.length_drop] at htwo
      rw [List.drop_drop] at htail
      by_cases hroom : i < len.toNat
      · -- one more pair is written, and the loop goes on behind it
        have hneg := Bool.eq_false_iff.1 (setWidth_not_slt_zero (by decide) v)
        have hnext := ih (i + 1) (Function.update bin i v) hroom (by omega) (by omega)
        have hindex : BitVec.ofNat 32 i + 1 = BitVec.ofNat 32 (i + 1) := by
          rw [BitVec.ofNat_add]
          rfl
        have hback : (v.setWidth 32 : CInt).setWidth 8 = v := by
          rw [BitVec.setWidth_setWidth_of_le _ (by decide), BitVec.setWidth_eq]
        have hrest : len.toNat - i = (len.toNat - (i + 1)) + 1 := by omega
        rw [if_pos ⟨hlt.2 hroom, hbound.2 (Or.inl (by omega))⟩]
        show (if (v.setWidth 32 : CInt).slt 0 then _ else _) = _
        rw [if_neg hneg, hindex, hback, ← Nat.mul_succ, hnext, Nat.mul_succ, htail,
          written_cons, hrest, List.take_succ_cons, List.length_cons]
        congr 3
        omega
      · have hzero : len.toNat - i = 0 := by omega
        rw [if_neg (fun h => hroom (hlt.1 h.1)), hzero, Nat.zero_min, Nat.add_zero, List.take_zero,
          written_nil]

/-- **`hex2bin` decodes the leading pairs**, as many as `len` allows. -/
theorem hex2bin_eq (signed : Bool) (s : MemStr) (bin : Buffer) (len : BitVec 32) :
    hex2bin signed (some s.toCStr) (some bin) len =
      some (BitVec.ofNat 32 (min len.toNat (leadingPairs s.chars).length),
        some (written bin 0 ((leadingPairs s.chars).take len.toNat))) := by
  have hloop := hex2binFrom_eq signed s len (len.toNat + 1) 0 bin (Nat.zero_le _) (by omega)
    (Nat.zero_le _)
  rw [Nat.sub_zero, Nat.zero_add, Nat.mul_zero, List.drop_zero] at hloop
  rw [hex2bin]
  exact congrArg (Option.map fun r => (r.1, some r.2)) hloop

/-! ### Printing and reading back -/

/-- A printed byte is a pair with its value. -/
theorem leadingPairs_byteText (upper : Bool) (b : Byte) (rest : List Byte) :
    leadingPairs (byteText upper b ++ rest) = b :: leadingPairs rest := by
  have hb := b.isLt
  have hhigh := hexVal_digitText upper (v := b.toNat / 16) (by omega)
  have hlow := hexVal_digitText upper (v := b.toNat % 16) (by omega)
  have hvalue : BitVec.ofNat 8 (16 * (b.toNat / 16) + b.toNat % 16) = b := by
    rw [Nat.div_add_mod, BitVec.ofNat_toNat, BitVec.setWidth_eq]
  rw [byteText, List.cons_append, List.cons_append, List.nil_append, leadingPairs, hhigh, hlow]
  exact congrArg (· :: leadingPairs rest) hvalue

theorem leadingPairs_hexText (upper : Bool) (bs : List Byte) :
    leadingPairs (hexText upper bs) = bs := by
  induction bs with
  | nil => rfl
  | cons b bs ih =>
    rw [hexText, List.flatMap_cons, leadingPairs_byteText, ← hexText, ih]

theorem byteText_ne_zero (upper : Bool) (b : Byte) : ∀ c ∈ byteText upper b, c ≠ 0 := by
  have hb := b.isLt
  intro c hc
  rcases List.mem_pair.1 hc with rfl | rfl
  · exact digitText_ne_zero upper (by omega)
  · exact digitText_ne_zero upper (by omega)

theorem length_hexText (upper : Bool) (bs : List Byte) :
    (hexText upper bs).length = 2 * bs.length := by
  induction bs with
  | nil => rfl
  | cons b bs ih =>
    rw [hexText, List.flatMap_cons, List.length_append, ← hexText, ih, List.length_cons]
    show 2 + 2 * bs.length = _
    omega

/-- A byte string printed into memory. -/
def hexStr (upper : Bool) (bs : List Byte) (hfits : 2 * bs.length < 2 ^ 32) : MemStr where
  chars := hexText upper bs
  nonzero := by
    intro c hc
    obtain ⟨b, -, hb⟩ := List.mem_flatMap.1 hc
    exact byteText_ne_zero upper b c hb
  fits := by
    rw [length_hexText]
    exact hfits

/-- An address printed into memory. -/
def macStr (a : Fin 6 → Byte) : CStr where
  chars := macText a
  nonzero := by
    have hcolon : (0x3A : Byte) ≠ 0 := by decide
    have hbyte := fun k => byteText_ne_zero false (a k)
    simp only [macText, List.forall_mem_append, List.forall_mem_cons]
    exact ⟨⟨⟨⟨⟨hbyte 0, hcolon, hbyte 1⟩, hcolon, hbyte 2⟩, hcolon, hbyte 3⟩, hcolon, hbyte 4⟩,
      hcolon, hbyte 5⟩

/-- A byte that is printed in front of the rest of a string. -/
theorem hex2char_byteText {signed : Bool} {s : CStr} {j : ℕ} {b : Byte} {rest : List Byte}
    (h : s.chars.drop j = byteText false b ++ rest) :
    hex2char signed s j = some (b.setWidth 32) := by
  have hj : j ≤ s.chars.length := by
    by_contra hgt
    rw [List.drop_eq_nil_of_le (by omega)] at h
    cases h
  rw [hex2char_eq hj, h, leadingPairs_byteText]

/-- **`str2mac` reads an address back** and writes nothing else. -/
theorem str2mac_macStr (signed : Bool) (a : Fin 6 → Byte) (mac : Buffer) :
    ∃ mac', str2mac signed (macStr a) mac = some mac' ∧ (∀ k : Fin 6, mac' k = a k) ∧
      ∀ k, 6 ≤ k → mac' k = mac k := by
  have hback : ∀ v : Byte, (v.setWidth 32 : CInt).setWidth 8 = v := fun v => by
    rw [BitVec.setWidth_setWidth_of_le _ (by decide), BitVec.setWidth_eq]
  have h0 : hex2char signed (macStr a) 0 = some ((a 0).setWidth 32) := hex2char_byteText rfl
  have h1 : hex2char signed (macStr a) 3 = some ((a 1).setWidth 32) := hex2char_byteText rfl
  have h2 : hex2char signed (macStr a) 6 = some ((a 2).setWidth 32) := hex2char_byteText rfl
  have h3 : hex2char signed (macStr a) 9 = some ((a 3).setWidth 32) := hex2char_byteText rfl
  have h4 : hex2char signed (macStr a) 12 = some ((a 4).setWidth 32) := hex2char_byteText rfl
  have hlast : (macStr a).chars.drop 15 = byteText false (a 5) ++ [] := rfl
  have h5 : hex2char signed (macStr a) 15 = some ((a 5).setWidth 32) := hex2char_byteText hlast
  simp only [str2mac, h0, h1, h2, h3, h4, h5, Option.bind_eq_bind, Option.bind_some, hback]
  refine ⟨_, rfl, ?_, ?_⟩
  · intro k
    match k with
    | 0 | 1 | 2 | 3 | 4 | 5 => rfl
  · intro k hk
    rw [Function.update_of_ne (by omega), Function.update_of_ne (by omega),
      Function.update_of_ne (by omega), Function.update_of_ne (by omega),
      Function.update_of_ne (by omega), Function.update_of_ne (by omega)]

/-- What the buffer holds once a list is written at its start. -/
theorem written_zero (bin : Buffer) (vs : List Byte) :
    (∀ k (h : k < vs.length), written bin 0 vs k = vs[k]) ∧
      ∀ k, vs.length ≤ k → written bin 0 vs k = bin k := by
  refine ⟨fun k h => ?_, fun k h => ?_⟩
  · rw [written, if_pos (Nat.zero_le k), Nat.sub_zero, List.getD_eq_getElem?_getD,
      List.getElem?_eq_getElem h, Option.getD_some]
  · rw [written, if_pos (Nat.zero_le k), Nat.sub_zero, List.getD_eq_getElem?_getD,
      List.getElem?_eq_none h, Option.getD_none]

/-- **Hex decoding.** For every string and every length, `hex2bin` returns
without a read past the terminator; it returns the number `n` of leading
pairs of digits, at most `len`, has put their values into the first `n`
bytes of the buffer, and leaves the others. So a byte string printed in
either case is read back, and so is an address printed with `MACSTR`. -/
theorem hex_decode_inverts :
    (∀ (signed : Bool) (s : MemStr) (bin : Buffer) (len : BitVec 32), ∃ n bin',
      n = min (leadingPairs s.chars).length len.toNat ∧
      hex2bin signed (some s.toCStr) (some bin) len = some (BitVec.ofNat 32 n, some bin') ∧
      (∀ k v, k < n → (leadingPairs s.chars)[k]? = some v → bin' k = v) ∧
      ∀ k, n ≤ k → bin' k = bin k) ∧
    (∀ (signed upper : Bool) (bs : List Byte) (hfits : 2 * bs.length < 2 ^ 32) (bin : Buffer)
      (len : BitVec 32), bs.length ≤ len.toNat → ∃ bin',
      hex2bin signed (some (hexStr upper bs hfits).toCStr) (some bin) len =
        some (BitVec.ofNat 32 bs.length, some bin') ∧
      (∀ k (h : k < bs.length), bin' k = bs[k]) ∧ ∀ k, bs.length ≤ k → bin' k = bin k) ∧
    ∀ (signed : Bool) (a : Fin 6 → Byte) (mac : Buffer), ∃ mac',
      str2mac signed (macStr a) mac = some mac' ∧ (∀ k : Fin 6, mac' k = a k) ∧
      ∀ k, 6 ≤ k → mac' k = mac k := by
  refine ⟨fun signed s bin len => ?_, fun signed upper bs hfits bin len hroom => ?_,
    str2mac_macStr⟩
  · obtain ⟨hput, hrest⟩ := written_zero bin ((leadingPairs s.chars).take len.toNat)
    rw [List.length_take] at hrest
    refine ⟨_, _, rfl, ?_, fun k v hk hv => ?_, fun k hk => hrest k ?_⟩
    · rw [Nat.min_comm]
      exact hex2bin_eq signed s bin len
    · have hlen : k < ((leadingPairs s.chars).take len.toNat).length := by
        rw [List.length_take, Nat.min_comm]
        exact hk
      rw [hput k hlen, List.getElem_take]
      exact (List.getElem?_eq_some_iff.1 hv).2
    · rw [Nat.min_comm]
      exact hk
  · have hdecode := hex2bin_eq signed (hexStr upper bs hfits) bin len
    have hpairs : leadingPairs (hexStr upper bs hfits).chars = bs := leadingPairs_hexText upper bs
    rw [hpairs, Nat.min_eq_right hroom, List.take_of_length_le hroom] at hdecode
    exact ⟨_, hdecode, written_zero bin bs⟩

end Hex

end Hgsdk

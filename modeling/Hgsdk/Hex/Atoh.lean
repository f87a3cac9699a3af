import Hgsdk.Hex.Decode
import Mathlib.Data.List.TakeWhile
import Mathlib.Data.Nat.Digits.Defs
/-!
# Reading a number in hexadecimal

`os_atoh` reads the longest run of digits behind a `0x` that may be there,
modulo 2³², and no character past the terminator. A string that is `0x` and
nothing else is not taken as a mark; its `0` is read, and the value is zero
all the same. So a number is read back as it was printed, in either case,
with or without the mark and with any zeros in front.
-/

namespace Hgsdk

namespace Hex

open StrCase (CStr)

/-! ### What the text means -/

/-- A character is a digit of either case. -/
def isHex (c : Byte) : Bool := (hexVal c).isSome

/-- **The value of a run of digits**, after those read before. -/
def hexValue (acc : ℕ) (cs : List Byte) : ℕ :=
  cs.foldl (fun v c => 16 * v + (hexVal c).getD 0) acc

/-- One leading `0x` or `0X` removed. -/
def unmarked : List Byte → List Byte
  | c :: x :: rest => if c = 0x30 ∧ (x = 0x78 ∨ x = 0x58) then rest else c :: x :: rest
  | cs => cs

/-- `%x` or `%X`. -/
def numText (upper : Bool) (v : BitVec 32) : List Byte :=
  if v = 0 then [digitText upper 0]
  else (Nat.digits 16 v.toNat).reverse.map (digitText upper)

/-- No mark, `0x` or `0X`. -/
def markText : Option Bool → List Byte
  | none => []
  | some upper => [0x30, if upper then 0x58 else 0x78]

/-! ### The loop -/

/-- **A digit is read as its value**, and nothing else is. -/
theorem atohDigit_eq (signed : Bool) (c : Byte) :
    atohDigit signed c = (hexVal c).map (BitVec.ofNat 8) := by
  revert signed c
  decide +kernel

/-- A digit more, modulo 2³². -/
theorem shift_add_digit {acc d : ℕ} (hd : d < 16) :
    (BitVec.ofNat 32 acc <<< 4) + (BitVec.ofNat 8 d).setWidth 32 =
      BitVec.ofNat 32 (16 * acc + d) := by
  refine BitVec.eq_of_toNat_eq ?_
  rw [BitVec.toNat_add, BitVec.toNat_shiftLeft, BitVec.toNat_setWidth, BitVec.toNat_ofNat,
    BitVec.toNat_ofNat, BitVec.toNat_ofNat, Nat.shiftLeft_eq]
  omega

theorem hexValue_cons {acc d : ℕ} {c : Byte} {cs : List Byte} (hd : hexVal c = some d) :
    hexValue acc (c :: cs) = hexValue (16 * acc + d) cs := by
  rw [hexValue, List.foldl_cons, hd, Option.getD_some, hexValue]

/-- **The loop reads the digits in front of it.** By induction on what is left
of the string; the value so far is that of the digits passed. -/
theorem atohFrom_eq (signed : Bool) {s : CStr} (rest : List Byte) : ∀ {fuel str acc : ℕ},
    str ≤ s.chars.length → s.chars.drop str = rest → rest.length < fuel →
    atohFrom signed s fuel str (BitVec.ofNat 32 acc) =
      some (BitVec.ofNat 32 (hexValue acc (rest.takeWhile isHex))) := by
  induction rest with
  | nil =>
    intro fuel str acc hstr hrest hfuel
    obtain ⟨fuel, rfl⟩ := Nat.exists_eq_succ_of_ne_zero (Nat.ne_of_gt hfuel)
    have hterm : charAt? s str = some 0 := by
      have hchar := charAt?_add hstr 0
      rwa [hrest] at hchar
    rw [atohFrom, hterm]
    rfl
  | cons c rest ih =>
    intro fuel str acc hstr hrest hfuel
    obtain ⟨fuel, rfl⟩ := Nat.exists_eq_succ_of_ne_zero (Nat.ne_of_gt (Nat.zero_lt_of_lt hfuel))
    have hchar : charAt? s str = some c := by
      have hchar := charAt?_add hstr 0
      rwa [hrest] at hchar
    have hmem : c ∈ s.chars := List.mem_of_mem_drop (hrest ▸ List.mem_cons_self)
    have hnext : s.chars.drop (str + 1) = rest := by
      rw [← List.drop_drop, hrest]
      rfl
    have hlen : str + 1 ≤ s.chars.length := by
      have hdrop := congrArg List.length hrest
      rw [List.length_drop, List.length_cons] at hdrop
      omega
    rw [atohFrom, hchar, Option.bind_eq_bind, Option.bind_some, if_neg (s.nonzero c hmem),
      atohDigit_eq, List.takeWhile_cons]
    cases hc : hexVal c with
    | none =>
      have hstop : ¬ isHex c = true := by
        rw [isHex, hc]
        decide
      rw [if_neg hstop]
      rfl
    | some d =>
      have hgo : isHex c = true := by rw [isHex, hc, Option.isSome_some]
      rw [if_pos hgo, hexValue_cons hc]
      dsimp only [Option.map_some]
      rw [shift_add_digit (hexVal_lt hc)]
      exact ih hlen hnext (Nat.lt_of_succ_lt_succ hfuel)

/-! ### The mark -/

/-- **What is read starts behind the mark.** A mark with nothing behind it is
not skipped, and its `0` is a digit. -/
theorem atohStart_eq (s : CStr) : ∃ str, atohStart s = some str ∧ str ≤ s.chars.length ∧
    hexValue 0 ((s.chars.drop str).takeWhile isHex) =
      hexValue 0 ((unmarked s.chars).takeWhile isHex) := by
  have hfirst : charAt? s 0 = (s.chars ++ [0])[0]? := rfl
  have hsecond : charAt? s 1 = (s.chars ++ [0])[1]? := rfl
  rw [atohStart, hfirst, hsecond]
  generalize s.chars = cs
  match cs with
  | [] => exact ⟨0, rfl, Nat.le_refl 0, rfl⟩
  | [c] => exact ⟨0, rfl, Nat.zero_le 1, rfl⟩
  | [c, x] =>
    refine ⟨0, rfl, Nat.zero_le 2, ?_⟩
    rw [unmarked]
    split
    next hmark =>
      obtain ⟨rfl, rfl | rfl⟩ := hmark
      · decide
      · decide
    next => rfl
  | c :: x :: d :: rest =>
    have hlong : ¬ (c :: x :: d :: rest).length ≤ 2 := by
      rw [List.length_cons, List.length_cons, List.length_cons]
      omega
    rw [if_neg hlong, unmarked]
    change ∃ str, (if c ≠ 0x30 then some 0 else some (if x = 0x78 ∨ x = 0x58 then 2 else 0)) =
      some str ∧ _
    by_cases hc : c = 0x30
    · rw [if_neg (not_not.2 hc)]
      by_cases hx : x = 0x78 ∨ x = 0x58
      · rw [if_pos hx, if_pos ⟨hc, hx⟩]
        exact ⟨2, rfl, by omega, rfl⟩
      · rw [if_neg hx, if_neg fun h => hx h.2]
        exact ⟨0, rfl, Nat.zero_le _, rfl⟩
    · rw [if_pos hc, if_neg fun h => hc h.1]
      exact ⟨0, rfl, Nat.zero_le _, rfl⟩

/-- **`os_atoh` reads the digits behind the mark**, modulo 2³². -/
theorem osAtoh_eq (signed : Bool) (s : CStr) :
    osAtoh signed s =
      some (BitVec.ofNat 32 (hexValue 0 ((unmarked s.chars).takeWhile isHex))) := by
  obtain ⟨str, hstart, hstr, hvalue⟩ := atohStart_eq s
  have hfuel : (s.chars.drop str).length < s.chars.length + 1 := by
    rw [List.length_drop]
    omega
  rw [osAtoh, hstart, ← hvalue]
  exact atohFrom_eq signed _ hstr rfl hfuel

/-! ### Printing and reading back -/

theorem isHex_digitText (upper : Bool) {d : ℕ} (hd : d < 16) :
    isHex (digitText upper d) = true := by rw [isHex, hexVal_digitText upper hd, Option.isSome_some]

/-- Digits have no mark. -/
theorem unmarked_of_digits {cs : List Byte} (h : ∀ c ∈ cs, isHex c = true) : unmarked cs = cs := by
  match cs with
  | [] => rfl
  | [_] => rfl
  | c :: x :: rest =>
    have hx := h x (List.mem_cons_of_mem _ List.mem_cons_self)
    rw [unmarked, if_neg]
    rintro ⟨-, rfl | rfl⟩
    · exact absurd hx (by decide)
    · exact absurd hx (by decide)

theorem hexValue_map_digitText (upper : Bool) : ∀ (ds : List ℕ) (acc : ℕ), (∀ d ∈ ds, d < 16) →
    hexValue acc (ds.map (digitText upper)) = ds.foldl (fun v d => d + 16 * v) acc
  | [], _, _ => rfl
  | d :: ds, acc, hds => by
    obtain ⟨hd, hrest⟩ := List.forall_mem_cons.1 hds
    rw [List.map_cons, hexValue_cons (hexVal_digitText upper hd), List.foldl_cons, Nat.add_comm]
    exact hexValue_map_digitText upper ds _ hrest

/-- The digits of a number, with zeros in front. -/
def paddedDigits (zeros : ℕ) (v : BitVec 32) : List ℕ :=
  List.replicate zeros 0 ++ if v = 0 then [0] else (Nat.digits 16 v.toNat).reverse

theorem paddedDigits_lt (zeros : ℕ) (v : BitVec 32) : ∀ d ∈ paddedDigits zeros v, d < 16 := by
  intro d hd
  rcases List.mem_append.1 hd with hzero | hdigit
  · rw [List.eq_of_mem_replicate hzero]
    decide
  · split at hdigit
    next =>
      rw [List.mem_singleton.1 hdigit]
      decide
    next => exact Nat.digits_lt_base (by decide) (List.mem_reverse.1 hdigit)

/-- They stand for the number. -/
theorem ofDigits_paddedDigits (zeros : ℕ) (v : BitVec 32) :
    Nat.ofDigits 16 (paddedDigits zeros v).reverse = v.toNat := by
  rw [paddedDigits, List.reverse_append, List.reverse_replicate,
    Nat.ofDigits_append_replicate_zero]
  split
  next hzero =>
    rw [hzero]
    rfl
  next => rw [List.reverse_reverse, Nat.ofDigits_digits]

theorem replicate_numText (upper : Bool) (zeros : ℕ) (v : BitVec 32) :
    List.replicate zeros 0x30 ++ numText upper v =
      (paddedDigits zeros v).map (digitText upper) := by
  have hzero : digitText upper 0 = 0x30 := by
    revert upper
    decide
  rw [paddedDigits, List.map_append, List.map_replicate, hzero, numText]
  split
  next => rw [List.map_singleton]
  next => rfl

/-- **The value of a number that is printed.** -/
theorem hexValue_printed (upper : Bool) (mark : Option Bool) (zeros : ℕ) (v : BitVec 32) :
    hexValue 0 ((unmarked (markText mark ++ (List.replicate zeros 0x30 ++
      numText upper v))).takeWhile isHex) = v.toNat := by
  rw [replicate_numText]
  have hds := paddedDigits_lt zeros v
  have hdigits : ∀ c ∈ (paddedDigits zeros v).map (digitText upper), isHex c = true := by
    intro c hc
    obtain ⟨d, hd, rfl⟩ := List.mem_map.1 hc
    exact isHex_digitText upper (hds d hd)
  have hunmarked : unmarked (markText mark ++ (paddedDigits zeros v).map (digitText upper)) =
      (paddedDigits zeros v).map (digitText upper) := by
    cases mark with
    | none => exact unmarked_of_digits hdigits
    | some big =>
      refine if_pos ⟨rfl, ?_⟩
      cases big with
      | false => exact Or.inl rfl
      | true => exact Or.inr rfl
  have hfold : (paddedDigits zeros v).reverse.foldr (fun d v => d + 16 * v) 0 =
      Nat.ofDigits 16 (paddedDigits zeros v).reverse := (Nat.ofDigits_eq_foldr 16 _).symm
  rw [hunmarked, List.takeWhile_eq_self_iff.2 hdigits, hexValue_map_digitText upper _ 0 hds,
    ← List.foldr_reverse, hfold, ofDigits_paddedDigits]

/-- A number printed into memory. -/
def numStr (upper : Bool) (mark : Option Bool) (zeros : ℕ) (v : BitVec 32) : CStr where
  chars := markText mark ++ (List.replicate zeros 0x30 ++ numText upper v)
  nonzero := by
    intro c hc
    rcases List.mem_append.1 hc with hmark | hdigit
    · cases mark with
      | none => exact absurd hmark List.not_mem_nil
      | some big =>
        clear hc
        revert c big
        decide
    · rw [replicate_numText] at hdigit
      obtain ⟨d, hd, rfl⟩ := List.mem_map.1 hdigit
      exact digitText_ne_zero upper (paddedDigits_lt zeros v d hd)

/-- **`os_atoh` reads hexadecimal.** For every string it returns without a read
past the terminator, and what it returns is the value, modulo 2³², of the
longest run of digits behind the mark, if there is one. So every number is
read back as it was printed. -/
theorem osAtoh_reads_hex :
    (∀ (signed : Bool) (s : CStr), osAtoh signed s =
      some (BitVec.ofNat 32 (hexValue 0 ((unmarked s.chars).takeWhile isHex)))) ∧
    ∀ (signed upper : Bool) (mark : Option Bool) (zeros : ℕ) (v : BitVec 32),
      osAtoh signed (numStr upper mark zeros v) = some v := by
  refine ⟨osAtoh_eq, fun signed upper mark zeros v => ?_⟩
  have hvalue := hexValue_printed upper mark zeros v
  rw [osAtoh_eq]
  change some (BitVec.ofNat 32 (hexValue 0 ((unmarked (markText mark ++
    (List.replicate zeros 0x30 ++ numText upper v))).takeWhile isHex))) = some v
  rw [hvalue, BitVec.ofNat_toNat, BitVec.setWidth_eq]

/-- `"0xFfz"`: the run of digits ends at the `z`. -/
example : hexValue 0 ((unmarked [0x30, 0x78, 0x46, 0x66, 0x7A]).takeWhile isHex) = 255 := by decide

end Hex

end Hgsdk

import Hgsdk.StrCase.Model
/-!
# Hex text

`hex2int`, `hex2char`, `hex2bin`, `str2mac` and `os_atoh` of `string.c`. A string is
read character by character; a read past its terminator is `none`. The
buffer is written byte by byte and does not overlap the string. Whether a
`char` is signed is a parameter.
-/

namespace Hgsdk

namespace Hex

open StrCase (charVal CStr)

/-- A string in a memory of 2³² bytes. -/
structure MemStr extends CStr where
  fits : chars.length < 2 ^ 32

/-- The character at an offset from the start of a string: one of its own,
or the terminator. -/
def charAt? (s : CStr) (j : ℕ) : Option Byte := (s.chars ++ [0])[j]?

/-- `hex2int`. -/
def hex2int (signed : Bool) (c : Byte) : CInt :=
  let v := charVal signed c
  if 0x30 ≤ v ∧ v ≤ 0x39 then BitVec.ofInt 32 (v - 0x30)
  else if 0x61 ≤ v ∧ v ≤ 0x66 then BitVec.ofInt 32 (v - 0x61 + 10)
  else if 0x41 ≤ v ∧ v ≤ 0x46 then BitVec.ofInt 32 (v - 0x41 + 10)
  else -1

/-- `hex2char`; the second character is read only if the first is a digit. -/
def hex2char (signed : Bool) (s : CStr) (hex : ℕ) : Option CInt := do
  let a := hex2int signed (← charAt? s hex)
  if a.slt 0 then
    return -1
  let b := hex2int signed (← charAt? s (hex + 1))
  if b.slt 0 then
    return -1
  return (a <<< 4) ||| b

/-- The memory behind `bin`. -/
abbrev Buffer := ℕ → Byte

/-- The `for` of `hex2bin`, of at most `fuel` turns: the index is a `uint32`,
and so are the products it is compared with. -/
def hex2binFrom (signed : Bool) (s : CStr) (len strLen : BitVec 32) :
    ℕ → BitVec 32 → ℕ → ℕ → Buffer → Option (BitVec 32 × Buffer)
  | 0, _, _, _, _ => none
  | fuel + 1, i, ipos, opos, bin =>
    if i < len ∧ i * 2 + 2 ≤ strLen then do
      let a ← hex2char signed s ipos
      if a.slt 0 then
        return (i, bin)
      hex2binFrom signed s len strLen fuel (i + 1) (ipos + 2) (opos + 1)
        (Function.update bin opos (a.setWidth 8))
    else
      some (i, bin)

/-- `hex2bin`: the count that is returned, and the buffer after it. -/
def hex2bin (signed : Bool) (hexStr : Option CStr) (bin : Option Buffer) (len : BitVec 32) :
    Option (BitVec 32 × Option Buffer) :=
  match hexStr, bin with
  | some s, some bin =>
    (hex2binFrom signed s len (BitVec.ofNat 32 s.chars.length) (len.toNat + 1) 0 0 0 bin).map
      fun r => (r.1, some r.2)
  | _, _ => some (0, bin)

/-- `str2mac`: six assignments. -/
def str2mac (signed : Bool) (macstr : CStr) (mac : Buffer) : Option Buffer := do
  let mac := Function.update mac 0 ((← hex2char signed macstr 0).setWidth 8)
  let mac := Function.update mac 1 ((← hex2char signed macstr 3).setWidth 8)
  let mac := Function.update mac 2 ((← hex2char signed macstr 6).setWidth 8)
  let mac := Function.update mac 3 ((← hex2char signed macstr 9).setWidth 8)
  let mac := Function.update mac 4 ((← hex2char signed macstr 12).setWidth 8)
  return Function.update mac 5 ((← hex2char signed macstr 15).setWidth 8)

/-- The three ranges of `os_atoh`; the value is a `uint8`. -/
def atohDigit (signed : Bool) (c : Byte) : Option Byte :=
  let v := charVal signed c
  if 0x30 ≤ v ∧ v ≤ 0x39 then some (BitVec.ofInt 8 (v - 0x30))
  else if 0x41 ≤ v ∧ v ≤ 0x46 then some (BitVec.ofInt 8 (0x0A + (v - 0x41)))
  else if 0x61 ≤ v ∧ v ≤ 0x66 then some (BitVec.ofInt 8 (0x0A + (v - 0x61)))
  else none

/-- The `while` of `os_atoh`, of at most `fuel` turns. -/
def atohFrom (signed : Bool) (s : CStr) : ℕ → ℕ → BitVec 32 → Option (BitVec 32)
  | 0, _, _ => none
  | fuel + 1, str, val => do
    let c ← charAt? s str
    if c = 0 then
      return val
    match atohDigit signed c with
    | some d => atohFrom signed s fuel (str + 1) ((val <<< 4) + d.setWidth 32)
    | none => return val

/-- The `if` of `os_atoh`: where the digits start. Its conditions are read from
left to right, and only as far as they hold. -/
def atohStart (s : CStr) : Option ℕ := do
  if s.chars.length ≤ 2 then
    return 0
  if (← charAt? s 0) ≠ 0x30 then
    return 0
  let x ← charAt? s 1
  return if x = 0x78 ∨ x = 0x58 then 2 else 0

/-- `os_atoh`. -/
def osAtoh (signed : Bool) (s : CStr) : Option (BitVec 32) := do
  atohFrom signed s (s.chars.length + 1) (← atohStart s) 0

/-! ### What the text means -/

/-- The digits, in lower or upper case. -/
def digits (upper : Bool) : List Byte :=
  [0x30, 0x31, 0x32, 0x33, 0x34, 0x35, 0x36, 0x37, 0x38, 0x39] ++
    if upper then [0x41, 0x42, 0x43, 0x44, 0x45, 0x46]
    else [0x61, 0x62, 0x63, 0x64, 0x65, 0x66]

/-- **The value of a hexadecimal digit**, of either case. -/
def hexVal (c : Byte) : Option ℕ := (digits false).idxOf? (StrCase.fold c)

/-- **The values of the leading complete pairs of digits.** -/
def leadingPairs : List Byte → List Byte
  | c :: d :: rest =>
    match hexVal c, hexVal d with
    | some a, some b => BitVec.ofNat 8 (16 * a + b) :: leadingPairs rest
    | _, _ => []
  | _ => []

/-- A digit as text. -/
def digitText (upper : Bool) (v : ℕ) : Byte := (digits upper).getD v 0

/-- A byte as text, `%02x` or `%02X`. -/
def byteText (upper : Bool) (b : Byte) : List Byte :=
  [digitText upper (b.toNat / 16), digitText upper (b.toNat % 16)]

/-- A byte string as text. -/
def hexText (upper : Bool) (bs : List Byte) : List Byte := bs.flatMap (byteText upper)

/-- An address printed with `MACSTR`: the six bytes with colons between. -/
def macText (a : Fin 6 → Byte) : List Byte :=
  byteText false (a 0) ++ 0x3A :: byteText false (a 1) ++ 0x3A :: byteText false (a 2) ++
    0x3A :: byteText false (a 3) ++ 0x3A :: byteText false (a 4) ++ 0x3A :: byteText false (a 5)

end Hex

end Hgsdk

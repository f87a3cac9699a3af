import Hgsdk.Common.Command
import Hgsdk.DsleepTest.Buffer
import Hgsdk.Hex.Decode
/-!
# The message and its buffer

`udp_kalive_dev_send` prints its message into `data[64]`, part by part. With an
action of 9 characters, an id of 17 and three parameters of at most 12 with
their commas, the message has at most 63 characters: with the terminator, as
many as the buffer. So what is sent is what the model of the loop says.
-/

namespace Hgsdk

namespace DsleepTest

open StrCase (CStr)

/-! ### Printing into a buffer -/

/-- `sprintf(buf + off, ..)`, for the text it prints, where `buf` has `size`
bytes: the number of characters. A store past the buffer is `none`. -/
def sprintf (buf size off : ℕ) (text : List Byte) : Cmd Bytes ℕ := fun m =>
  if off + text.length < size then
    some (text.length, overlay (fun _ v => v) m (buf + off) (text ++ [0]))
  else none

/-- `strlen(buf)`, where `buf` has `size` bytes. -/
def strlen (m : Bytes) (buf size : ℕ) : Option ℕ :=
  (List.range size).find? fun i => m (buf + i) = 0

/-- The characters `%s` prints. -/
def stringAt (m : Bytes) (buf size : ℕ) : Option (List Byte) :=
  (strlen m buf size).map fun n => (List.range n).map fun i => m (buf + i)

/-- One `if (param) { len += sprintf(data + len, ",%d", param); }`. -/
def sprintfParam (len : ℕ) (param : CInt) : Cmd Bytes ℕ :=
  if param ≠ 0 then do
    let n ← sprintf 0 64 len (0x2c :: decimal param)
    return len + n
  else
    return len

/-- `udp_kalive_dev_send` up to the call of `udp_kalive_send`, over the stack
from `data` on: the characters counted in `len`, and the length passed. -/
def printDevSend (mgr : Bytes) (action : CStr) (param1 param2 param3 : CInt) :
    Cmd Bytes (ℕ × ℕ) := do
  modify fun data i => if i < 64 then 0 else data i
  let id ← Cmd.deref (stringAt mgr idOff 18)
  let len ← sprintf 0 64 0 (action.chars ++ 0x2d :: id)
  let len ← sprintfParam len param1
  let len ← sprintfParam len param2
  let len ← sprintfParam len param3
  let n ← Cmd.deref (strlen (← get) 0 64)
  return (len, n)

/-! ### What is in the buffer -/

variable {m t data : Bytes} {buf size : ℕ} {text more : List Byte} {param : CInt}

/-- **Printing behind a text** continues it. -/
theorem ensures_sprintf (h : Reads m buf text) (hfits : text.length + more.length < size) :
    Ensures (sprintf buf size text.length more) m fun n t =>
      n = more.length ∧ Reads t buf (text ++ more ++ [0]) ∧ ∀ x, buf + size ≤ x → t x = m x := by
  refine ⟨more.length, _, if_pos hfits, rfl, ?_, fun x hx => ?_⟩
  · rw [List.append_assoc]
    exact h.append
  · refine overlay_of_ge ?_
    rw [List.length_append, List.length_singleton]
    omega

/-- **The length of a text without a zero** that ends in one. -/
theorem strlen_eq (h : Reads m buf (text ++ [0])) (hzero : ∀ c ∈ text, c ≠ 0)
    (hfits : text.length < size) : strlen m buf size = some text.length := by
  refine List.find?_range_eq_some.2 ⟨?_, List.mem_range.2 hfits, fun j hj => ?_⟩
  · have hend := h text.length 0 (by rw [List.getElem?_concat_length])
    simpa using hend
  · have hchar := h j text[j] (by rw [List.getElem?_append_left hj, List.getElem?_eq_getElem hj])
    have hne := hzero text[j] (List.getElem_mem hj)
    simpa [hchar] using hne

theorem stringAt_eq (h : Reads m buf (text ++ [0])) (hzero : ∀ c ∈ text, c ≠ 0)
    (hfits : text.length < size) : stringAt m buf size = some text := by
  rw [stringAt, strlen_eq h hzero hfits, Option.map_some, h.left.map_range]

/-! ### The parameters -/

/-- The characters of a number. -/
theorem toList_toString (n : ℤ) : (toString n).toList =
    if 0 ≤ n then Nat.toDigits 10 n.toNat else '-' :: Nat.toDigits 10 (-n).toNat := by
  rw [Int.toString_eq_repr, Int.repr_eq_if]
  split
  next => exact Nat.toList_repr
  next =>
    rw [String.toList_append, Nat.toList_repr]
    rfl

/-- **At most 11 characters**, which is what `-2147483648` has. -/
theorem length_decimal_le (n : CInt) : (decimal n).length ≤ 11 := by
  have hlo := BitVec.le_toInt n
  have hhi := BitVec.toInt_lt (x := n)
  have hdigits : ∀ k : ℕ, k ≤ 2 ^ 31 → (Nat.toDigits 10 k).length ≤ 10 := by
    intro k hk
    refine (Nat.length_toDigits_le_iff (by decide) (by decide)).2 ?_
    omega
  rw [decimal, List.length_map, toList_toString]
  split
  next => exact Nat.le_succ_of_le (hdigits _ (by omega))
  next => exact Nat.succ_le_succ (hdigits _ (by omega))

theorem digit_ne_zero {c : Char} (hc : c.isDigit = true) : BitVec.ofNat 8 c.toNat ≠ 0 := by
  have hdigit : 48 ≤ c.toNat ∧ c.toNat ≤ 57 := by
    simpa [Char.isDigit, UInt32.le_iff_toNat_le] using hc
  intro hzero
  have hmod := congrArg BitVec.toNat hzero
  rw [BitVec.toNat_ofNat] at hmod
  change c.toNat % 2 ^ 8 = 0 at hmod
  omega

theorem decimal_ne_zero (n : CInt) : ∀ c ∈ decimal n, c ≠ 0 := by
  intro c hc
  obtain ⟨d, hd, rfl⟩ := List.mem_map.1 hc
  have hdigits : ∀ k : ℕ, d ∈ Nat.toDigits 10 k → BitVec.ofNat 8 d.toNat ≠ 0 := fun k hk =>
    digit_ne_zero (Nat.isDigit_of_mem_toDigits (by decide) (by decide) hk)
  rw [toList_toString] at hd
  split at hd
  next => exact hdigits _ hd
  next =>
    rcases List.mem_cons.1 hd with rfl | hd
    · decide
    · exact hdigits _ hd

theorem length_devParam_le (param : CInt) : (devParam param).length ≤ 12 := by
  rw [devParam]
  split
  next => exact Nat.succ_le_succ (length_decimal_le param)
  next => exact Nat.zero_le 12

theorem devParam_ne_zero (param : CInt) : ∀ c ∈ devParam param, c ≠ 0 := by
  rw [devParam]
  split
  next => exact List.forall_mem_cons.2 ⟨by decide, decimal_ne_zero param⟩
  next => exact List.forall_mem_nil _

/-! ### The message -/

/-- **The message so far**: the text with its terminator, and nothing behind
the buffer has changed. -/
structure Printed (data m : Bytes) (text : List Byte) : Prop where
  reads : Reads m 0 (text ++ [0])
  behind : ∀ x, 64 ≤ x → m x = data x

/-- A parameter is printed behind the message so far, if it is not zero. -/
theorem ensures_sprintfParam (h : Printed data m text)
    (hfits : text.length + (devParam param).length < 64) :
    Ensures (sprintfParam text.length param) m fun len t =>
      len = (text ++ devParam param).length ∧ Printed data t (text ++ devParam param) := by
  rw [sprintfParam]
  split
  next hne =>
    have hparam : devParam param = 0x2c :: decimal param := if_pos hne
    rw [hparam] at hfits ⊢
    refine (ensures_sprintf h.reads.left hfits).bind ?_
    rintro n t ⟨rfl, hreads, hbehind⟩
    rw [ensures_pure, List.length_append]
    refine ⟨rfl, hreads, fun x hx => ?_⟩
    rw [hbehind x (by omega), h.behind x hx]
  next hzero =>
    have hparam : devParam param = [] := if_neg hzero
    rw [hparam, List.append_nil, ensures_pure]
    exact ⟨rfl, h⟩

/-- **The message is printed**, if it fits with its terminator. -/
theorem ensures_printDevSend {mgr : Bytes} {id : List Byte} {action : CStr}
    {param1 param2 param3 : CInt} (hid : stringAt mgr idOff 18 = some id)
    (hidzero : ∀ c ∈ id, c ≠ 0)
    (hfits : (action.chars ++ 0x2d :: id ++ devParam param1 ++ devParam param2 ++
      devParam param3).length < 64) :
    Ensures (printDevSend mgr action param1 param2 param3) data fun r t =>
      r.1 = (action.chars ++ 0x2d :: id ++ devParam param1 ++ devParam param2 ++
        devParam param3).length ∧ r.2 = r.1 ∧
      Printed data t (action.chars ++ 0x2d :: id ++ devParam param1 ++ devParam param2 ++
        devParam param3) := by
  have hzero : ∀ c ∈ action.chars ++ 0x2d :: id ++ devParam param1 ++ devParam param2 ++
      devParam param3, c ≠ 0 := by
    simp only [List.forall_mem_append, List.forall_mem_cons]
    exact ⟨⟨⟨⟨action.nonzero, by decide, hidzero⟩, devParam_ne_zero param1⟩,
      devParam_ne_zero param2⟩, devParam_ne_zero param3⟩
  have hlen := hfits
  simp only [List.length_append] at hlen
  simp only [printDevSend, ensures_bind, ensures_modify, ensures_deref, ensures_get, ensures_pure]
  refine ⟨id, hid, ?_⟩
  have hopening : ([] : List Byte).length + (action.chars ++ 0x2d :: id).length < 64 := by
    rw [List.length_nil, List.length_append]
    omega
  refine (ensures_sprintf reads_nil hopening).mono ?_
  rintro n m ⟨rfl, hreads, hbehind⟩
  have hfirst : Printed data m (action.chars ++ 0x2d :: id) := by
    refine ⟨hreads, fun x hx => ?_⟩
    rw [hbehind x (by omega), if_neg (by omega)]
  refine (ensures_sprintfParam hfirst (by simp only [List.length_append]; omega)).mono ?_
  rintro n m ⟨rfl, hsecond⟩
  refine (ensures_sprintfParam hsecond (by simp only [List.length_append]; omega)).mono ?_
  rintro n m ⟨rfl, hthird⟩
  refine (ensures_sprintfParam hthird (by simp only [List.length_append]; omega)).mono ?_
  rintro n m ⟨rfl, hfourth⟩
  exact ⟨_, strlen_eq hfourth.reads hzero hfits, rfl, rfl, hfourth⟩

theorem length_macText (a : Fin 6 → Byte) : (Hex.macText a).length = 17 := rfl

theorem macText_ne_zero (a : Fin 6 → Byte) : ∀ c ∈ Hex.macText a, c ≠ 0 := (Hex.macStr a).nonzero

/-- **The id the loop reads** is the address as text. -/
theorem configOf_id {a : Fin 6 → Byte} (h : Reads m idOff (Hex.macText a ++ [0])) :
    (configOf m).id = Hex.macText a := by
  have hbytes : (List.range 18).map (fun i => m (idOff + i)) = Hex.macText a ++ [0] :=
    h.map_range
  have hchars : ∀ c ∈ Hex.macText a, decide (c ≠ 0) = true := fun c hc =>
    decide_eq_true (macText_ne_zero a c hc)
  rw [configOf, hbytes, List.takeWhile_append_of_pos hchars]
  exact List.append_nil _

/-- **Keep-alive messages fit their buffer.** For every address printed into
`udp_klive.id`, which it fills, every action of 9 characters and all
parameters: nothing is stored past `data[64]`, the length passed is the number
of characters printed, and what is sent is the message. -/
theorem keepAlive_message_fits (a : Fin 6 → Byte) (action : CStr) (param1 param2 param3 : CInt)
    (mgr data : Bytes) (haction : action.chars.length = 9) :
    Ensures (sprintf idOff 18 0 (Hex.macText a)) mgr fun _ mgr' =>
      (configOf mgr').id = Hex.macText a ∧
      Ensures (printDevSend mgr' action param1 param2 param3) data fun r t =>
        r.2 = r.1 ∧ r.1 + 1 ≤ 64 ∧ (∀ x, 64 ≤ x → t x = data x) ∧
        ∀ s : Kalive, s.udpKaliveDevSend (configOf mgr') action.chars param1 param2 param3 =
          s.put (.send ((configOf mgr').port.setWidth 16) ((List.range r.2).map t)) := by
  have hmac := length_macText a
  have hroom : ([] : List Byte).length + (Hex.macText a).length < 18 := by
    rw [hmac]
    decide
  refine (ensures_sprintf reads_nil hroom).mono ?_
  rintro - mgr' ⟨-, hid, -⟩
  have hconfig := configOf_id hid
  have hstring : stringAt mgr' idOff 18 = some (Hex.macText a) :=
    stringAt_eq hid (macText_ne_zero a) (by rw [hmac]; decide)
  -- 9, the dash, 17, and three times at most 12
  have hfits : (action.chars ++ 0x2d :: Hex.macText a ++ devParam param1 ++ devParam param2 ++
      devParam param3).length < 64 := by
    have h1 := length_devParam_le param1
    have h2 := length_devParam_le param2
    have h3 := length_devParam_le param3
    simp only [List.length_append, List.length_cons]
    omega
  refine ⟨hconfig, (ensures_printDevSend hstring (macText_ne_zero a) hfits).mono ?_⟩
  rintro r t ⟨hlen, hpassed, hprinted⟩
  have hsent := hprinted.reads.left.map_range
  simp only [Nat.zero_add] at hsent
  refine ⟨hpassed, hlen ▸ hfits, hprinted.behind, fun s => ?_⟩
  rw [hpassed, hlen, hsent, ← hconfig]
  rfl

def heartbeatAction : CStr where
  chars := udpKaliveHeartbeat
  nonzero := by decide

/-- The widest message: its three parameters have 11 characters each. -/
theorem keepAlive_message_fits_widest :
    (decimal 0x80000000).length = 11 ∧
    Ensures (sprintf idOff 18 0 (Hex.macText fun _ => 0xff)) (fun _ => 0) fun _ mgr' =>
      Ensures (printDevSend mgr' heartbeatAction 0x80000000 0x80000000 0x80000000)
        (fun _ => 0) fun r _ => r.2 = r.1 ∧ r.1 + 1 ≤ 64 := by
  refine ⟨by decide +kernel, ?_⟩
  refine (keepAlive_message_fits (fun _ => 0xff) heartbeatAction 0x80000000 0x80000000
    0x80000000 (fun _ => 0) (fun _ => 0) rfl).mono ?_
  rintro - mgr' ⟨-, h⟩
  exact h.mono fun r t hr => ⟨hr.1, hr.2.1⟩

end DsleepTest

end Hgsdk

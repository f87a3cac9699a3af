import Hgsdk.Common.Command
import Hgsdk.Common.Overlay
import Hgsdk.Common.Word
/-!
# UDP frames

`lib/net/utils.c`: `net_setup_udpdata` builds an Ethernet frame with an
IPv4 and a UDP header around a payload, in a buffer from `alloc_skb`, with
the two checksums.

A buffer is known by its cells from `head` on. A read or a write past
`end` and a failed `ASSERT` lead nowhere. `os_memcpy` copies, and so does
the DMA that `hw_memcpy` may use instead of it.
-/

namespace Hgsdk

namespace Net

/-- `struct udpdata_info`: what is behind its pointers can be read. -/
structure UdpdataInfo where
  dest : ℕ → Byte
  src : ℕ → Byte
  destIp : BitVec 32
  destPort : BitVec 32
  srcIp : BitVec 32
  srcPort : BitVec 32
  /-- May be null. -/
  data : Option (ℕ → Byte)
  len : BitVec 32

/-- `struct sk_buff`; its pointers are counted from `head`. -/
structure SkBuff where
  cells : ℕ → Byte
  /-- `end`. -/
  size : ℕ
  data : ℕ
  tail : ℕ
  len : BitVec 16

namespace SkBuff

/-- The bytes `data[0]` to `data[len - 1]`. -/
def frame (skb : SkBuff) : List Byte :=
  (List.range skb.len.toNat).map fun i => skb.cells (skb.data + i)

/-! ### Access -/

/-- Stores into the cells from `skb->data + off` on. -/
def write (off : ℕ) (bs : List Byte) : Cmd SkBuff Unit := fun skb =>
  if skb.data + off + bs.length ≤ skb.size then
    some ((), { skb with cells := overlay (fun _ b => b) skb.cells (skb.data + off) bs })
  else none

/-- The `n` bytes from `skb->data + off` on. -/
def read (off n : ℕ) : Cmd SkBuff (List Byte) := fun skb =>
  if skb.data + off + n ≤ skb.size then
    some ((List.range n).map fun i => skb.cells (skb.data + off + i), skb)
  else none

/-- `skb->data[off] = b`. -/
def put (off : ℕ) (b : Byte) : Cmd SkBuff Unit := write off [b]

/-- `put_unaligned_be16(val, skb->data + off)`. -/
def putUnalignedBe16 (val : BitVec 16) (off : ℕ) : Cmd SkBuff Unit := do
  put off ((val >>> 8).setWidth 8)
  put (off + 1) (val.setWidth 8)

/-- `put_unaligned_be32(val, skb->data + off)`. -/
def putUnalignedBe32 (val : BitVec 32) (off : ℕ) : Cmd SkBuff Unit := do
  putUnalignedBe16 ((val >>> 16).setWidth 16) off
  putUnalignedBe16 (val.setWidth 16) (off + 2)

/-- `os_memcpy(skb->data + off, src, n)`. -/
def osMemcpy (off : ℕ) (src : ℕ → Byte) (n : ℕ) : Cmd SkBuff Unit :=
  write off ((List.range n).map src)

/-- `hw_memcpy(skb->data + off, src, size)`. -/
def hwMemcpy (off : ℕ) (src : Option (ℕ → Byte)) (size : BitVec 32) : Cmd SkBuff Unit :=
  match src with
  | some src => osMemcpy off src size.toNat
  | none => pure ()

/-- `skb_reserve`. -/
def skbReserve (l : ℕ) : Cmd SkBuff Unit := fun skb =>
  if skb.tail + l < skb.size then
    some ((), { skb with data := skb.data + l, tail := skb.tail + l })
  else none

/-- `skb_put`. -/
def skbPut (l : BitVec 32) : Cmd SkBuff Unit := fun skb =>
  if skb.tail + l.toNat ≤ skb.size then
    some ((), { skb with tail := skb.tail + l.toNat, len := skb.len + l.setWidth 16 })
  else none

end SkBuff

/-! ### Checksums -/

/-- The loop of `net_checksum` and the odd byte at the end. -/
def addWords : (cksum : BitVec 32) → List Byte → BitVec 32
  | cksum, a :: b :: rest => addWords (cksum + ((a.setWidth 32 <<< 8) + b.setWidth 32)) rest
  | cksum, [a] => cksum + (a.setWidth 32 <<< 8)
  | cksum, [] => cksum

theorem toNat_fold (cksum : BitVec 32) :
    ((cksum &&& (0xFFFF : BitVec 32)) + (cksum >>> 16)).toNat =
      cksum.toNat % 65536 + cksum.toNat / 65536 := by
  have hmask : (0xFFFF : BitVec 32).toNat = 2 ^ 16 - 1 := rfl
  have hlt := cksum.isLt
  rw [BitVec.toNat_add, BitVec.toNat_and, hmask, Nat.and_two_pow_sub_one_eq_mod,
    BitVec.toNat_ushiftRight, Nat.shiftRight_eq_div_pow]
  omega

theorem shift_eq_zero_iff (cksum : BitVec 32) : cksum >>> 16 = 0 ↔ cksum.toNat < 65536 := by
  rw [← BitVec.toNat_inj, BitVec.toNat_ushiftRight, Nat.shiftRight_eq_div_pow]
  exact Nat.div_eq_zero_iff.trans (or_iff_right (by decide))

/-- `while (cksum >> 16)`: the carries are folded in. -/
def foldCarries (cksum : BitVec 32) : BitVec 32 :=
  if cksum >>> 16 = 0 then cksum
  else foldCarries ((cksum &&& (0xFFFF : BitVec 32)) + (cksum >>> 16))
termination_by cksum.toNat
decreasing_by
  rename_i hcarry
  rw [shift_eq_zero_iff] at hcarry
  rw [toNat_fold]
  omega

/-- `net_checksum` of the bytes `data`. -/
def netChecksum (initcksum : BitVec 16) (data : List Byte) : BitVec 16 :=
  (foldCarries (addWords (initcksum.setWidth 32) data)).setWidth 16

/-- The two bytes of `put_unaligned_be16`. -/
def be16 (val : BitVec 16) : List Byte := [(val >>> 8).setWidth 8, val.setWidth 8]

/-- The four bytes of `put_unaligned_be32`. -/
def be32 (val : BitVec 32) : List Byte :=
  be16 ((val >>> 16).setWidth 16) ++ be16 (val.setWidth 16)

/-- `net_pseudo_checksum`; `data` are the `len` bytes it is given. -/
def netPseudoChecksum (proto : Byte) (data : List Byte) (len : BitVec 16)
    (srcaddr destaddr : List Byte) : BitVec 16 :=
  let pseudoheader := srcaddr ++ destaddr ++ [0, proto] ++ be16 len
  ~~~netChecksum (netChecksum 0 pseudoheader) data

/-! ### The frame -/

open SkBuff

/-- The Ethernet header. -/
def etherHdr (data : UdpdataInfo) : Cmd SkBuff Unit := do
  osMemcpy 0 data.dest 6
  osMemcpy 6 data.src 6
  putUnalignedBe16 0x800 12

/-- The IP header, with its checksum. -/
def ipHdr (data : UdpdataInfo) (len : BitVec 32) : Cmd SkBuff Unit := do
  put 14 0x45
  put 15 0x00
  putUnalignedBe16 ((len - 14).setWidth 16) 16
  put 18 0x00
  put 19 0x00
  put 20 0x40
  put 21 0x00
  put 22 0x40
  put 23 0x11
  put 24 0x00
  put 25 0x00
  putUnalignedBe32 data.srcIp 26
  putUnalignedBe32 data.destIp 30
  let cksum := ~~~netChecksum 0 (← read 14 20)
  putUnalignedBe16 cksum 24

/-- The UDP header and the payload. -/
def udpHdr (data : UdpdataInfo) (len : BitVec 32) : Cmd SkBuff Unit := do
  putUnalignedBe16 (data.srcPort.setWidth 16) 34
  putUnalignedBe16 (data.destPort.setWidth 16) 36
  putUnalignedBe16 ((len - 34).setWidth 16) 38
  put 40 0x00
  put 41 0x00
  hwMemcpy 42 data.data (len - 42)

/-- The UDP checksum. -/
def udpCksum (len : BitVec 32) : Cmd SkBuff Unit := do
  let udpLen := (len - 34).setWidth 16
  let udp ← read 34 udpLen.toNat
  let srcaddr ← read 26 4
  let destaddr ← read 30 4
  putUnalignedBe16 (netPseudoChecksum 0x11 udp udpLen srcaddr destaddr) 40

/-- What is done with a buffer that was to be had. -/
def fillSkb (data : UdpdataInfo) (len : BitVec 32) : Cmd SkBuff Unit := do
  skbReserve 256
  etherHdr data
  ipHdr data len
  udpHdr data len
  udpCksum len
  skbPut len

/-- The length of the frame: at most 1500. -/
def frameLen (len : BitVec 32) : BitVec 32 :=
  let len := len + 42
  if 1500 < len then 1500 else len

/-- `net_setup_udpdata`. -/
def netSetupUdpdata (allocSkb : BitVec 32 → Option SkBuff) :
    Option UdpdataInfo → Option (Option SkBuff)
  | none => some none
  | some data =>
    let len := frameLen data.len
    match allocSkb (len + 256 + 32) with
    | some skb => (fillSkb data len skb).map fun r => some r.2
    | none => some none

end Net

end Hgsdk

import Hgsdk.Common.OnesComplement
import Hgsdk.Net.Parse
/-!
# The checksums of a UDP frame verify

A receiver adds up the words of the IP header, and those of the UDP
pseudo header and the whole datagram, in one's complement. Both sums are
`0xFFFF` in every frame that `net_setup_udpdata` builds: the checksum is
the complement of the sum of the rest, and neither the fold between the
two calls of `net_checksum` nor the order of the sum matters.
-/

namespace Hgsdk

namespace Net

open OnesComplement

/-! ### The receiver's sums -/

/-- The words of a string of bytes; an odd one is completed with zero. -/
def words : List Byte → List ℕ
  | a :: b :: rest => (a.toNat * 256 + b.toNat) :: words rest
  | [a] => [a.toNat * 256]
  | [] => []

/-- **The 16-bit one's complement sum.** -/
def onesSum (bytes : List Byte) : ℕ := OnesComplement.sum 0xFFFF (words bytes)

/-- The pseudo header, from what the frame says: the addresses, the
protocol and the UDP length. -/
def pseudoHeader (frame : List Byte) : List Byte :=
  (frame.drop 26).take 8 ++ [0, byteAt frame 23] ++ (frame.drop 38).take 2

/-! ### Words -/

variable {xs ys zs : List Byte} {val : BitVec 16}

theorem words_le : ∀ (xs : List Byte), ∀ w ∈ words xs, w ≤ 0xFFFF
  | [] => fun _ h => nomatch h
  | [a] => by
    intro w hw
    have ha := a.isLt
    rw [List.mem_singleton.1 hw]
    omega
  | a :: b :: rest => by
    intro w hw
    have ha := a.isLt
    have hb := b.isLt
    rcases List.mem_cons.1 hw with rfl | hw
    · omega
    · exact words_le rest w hw

theorem words_append : ∀ {xs : List Byte}, 2 ∣ xs.length → words (xs ++ ys) = words xs ++ words ys
  | [], _ => rfl
  | [_], h => absurd h (by decide : ¬ 2 ∣ 1)
  | a :: b :: rest, h => by
    have hrest : 2 ∣ rest.length := (Nat.dvd_add_left (Nat.dvd_refl 2)).1 h
    show _ :: words (rest ++ ys) = _ :: (words rest ++ words ys)
    rw [words_append hrest]

/-- A word takes two bytes, the last one perhaps only one. -/
theorem sum_words_le : ∀ xs : List Byte, (words xs).sum ≤ 0xFFFF * ((xs.length + 1) / 2)
  | [] => Nat.le_refl 0
  | [a] => by
    have ha := a.isLt
    show a.toNat * 256 + 0 ≤ 0xFFFF * ((1 + 1) / 2)
    omega
  | a :: b :: rest => by
    have ha := a.isLt
    have hb := b.isLt
    have ih := sum_words_le rest
    show a.toNat * 256 + b.toNat + (words rest).sum ≤ 0xFFFF * ((rest.length + 1 + 1 + 1) / 2)
    omega

theorem words_be16 (val : BitVec 16) (zs : List Byte) :
    words (be16 val ++ zs) = val.toNat :: words zs := by
  have hval := val.isLt
  have hword : ((val >>> 8).setWidth 8).toNat * 256 + (val.setWidth 8).toNat = val.toNat := by
    rw [BitVec.toNat_setWidth, BitVec.toNat_setWidth, BitVec.toNat_ushiftRight,
      Nat.shiftRight_eq_div_pow]
    omega
  show (((val >>> 8).setWidth 8).toNat * 256 + (val.setWidth 8).toNat) :: words zs = _
  rw [hword]

/-- A word stored where there was zero adds itself to the sum. -/
theorem sum_words_patch (hxs : 2 ∣ xs.length) :
    (words (xs ++ be16 val ++ zs)).sum = (words (xs ++ be16 0 ++ zs)).sum + val.toNat := by
  rw [List.append_assoc, List.append_assoc, words_append hxs, words_append hxs, words_be16,
    words_be16, List.sum_append, List.sum_append, List.sum_cons, List.sum_cons]
  show _ = _ + (0 + _) + _
  omega

/-! ### `net_checksum` -/

theorem toNat_addWords (cksum : BitVec 32) (xs : List Byte)
    (h : cksum.toNat + (words xs).sum < 2 ^ 32) :
    (addWords cksum xs).toNat = cksum.toNat + (words xs).sum := by
  induction cksum, xs using addWords.induct with
  | case1 cksum a b rest ih =>
    have ha := a.isLt
    have hb := b.isLt
    have hsum : (words (a :: b :: rest)).sum = a.toNat * 256 + b.toNat + (words rest).sum := rfl
    have hword : ((a.setWidth 32 <<< 8) + b.setWidth 32 : BitVec 32).toNat =
        a.toNat * 256 + b.toNat := by
      rw [BitVec.toNat_add, BitVec.toNat_shiftLeft, BitVec.toNat_setWidth, BitVec.toNat_setWidth,
        Nat.shiftLeft_eq]
      omega
    have hnext : (cksum + ((a.setWidth 32 <<< 8) + b.setWidth 32)).toNat =
        cksum.toNat + (a.toNat * 256 + b.toNat) := by
      rw [BitVec.toNat_add, hword]
      omega
    rw [addWords, ih (by rw [hnext]; omega), hnext, hsum, Nat.add_assoc]
  | case2 cksum a =>
    have ha := a.isLt
    have hsum : (words [a]).sum = a.toNat * 256 + 0 := rfl
    rw [addWords, BitVec.toNat_add, BitVec.toNat_shiftLeft, BitVec.toNat_setWidth,
      Nat.shiftLeft_eq]
    omega
  | case3 cksum => rfl

/-- Folding the carries in is what brings them round. -/
theorem toNat_foldCarries (cksum : BitVec 32) :
    (foldCarries cksum).toNat = norm 0xFFFF cksum.toNat := by
  induction cksum using foldCarries.induct with
  | case1 cksum h =>
    rw [foldCarries, if_pos h, norm_of_le]
    have hlt := (shift_eq_zero_iff cksum).1 h
    omega
  | case2 cksum h ih =>
    have hge := mt (shift_eq_zero_iff cksum).2 h
    have hcarry : cksum.toNat = cksum.toNat % 65536 + cksum.toNat / 65536 +
        cksum.toNat / 65536 * 0xFFFF := by omega
    rw [foldCarries, if_neg h, ih, toNat_fold]
    nth_rewrite 3 [hcarry]
    exact (norm_add_mul (by decide) (by omega) _).symm

/-- **The loop does not overflow** on 131072 bytes: with the largest initial
value and the largest words the sum is `2 ^ 32 - 1`. -/
theorem toNat_addWords_init (init : BitVec 16) (hlen : xs.length ≤ 131072) :
    (addWords (init.setWidth 32) xs).toNat = init.toNat + (words xs).sum := by
  have hinit := init.isLt
  have hsum := sum_words_le xs
  have hwidth : (init.setWidth 32).toNat = init.toNat := by
    rw [BitVec.toNat_setWidth]
    omega
  rw [toNat_addWords _ _ (by omega), hwidth]

/-- **`net_checksum` is the one's complement sum**, of at most 131072
bytes. -/
theorem toNat_netChecksum (init : BitVec 16) (hlen : xs.length ≤ 131072) :
    (netChecksum init xs).toNat = norm 0xFFFF (init.toNat + (words xs).sum) := by
  have hle := norm_le (by decide : 0 < 0xFFFF) (init.toNat + (words xs).sum)
  rw [netChecksum, BitVec.toNat_setWidth, toNat_foldCarries, toNat_addWords_init init hlen]
  omega

/-- **The fold between two calls does not show**, from any initial value. -/
theorem netChecksum_append (init : BitVec 16) (heven : 2 ∣ xs.length)
    (hlen : (xs ++ ys).length ≤ 131072) :
    netChecksum (netChecksum init xs) ys = netChecksum init (xs ++ ys) := by
  rw [List.length_append] at hlen
  refine BitVec.eq_of_toNat_eq ?_
  rw [toNat_netChecksum _ (by omega), toNat_netChecksum init (by omega),
    norm_norm_add (by decide), toNat_netChecksum init (by rw [List.length_append]; exact hlen),
    words_append heven, List.sum_append, Nat.add_assoc]

theorem toNat_netChecksum_chain (hxs : 2 ∣ xs.length) (hxslen : xs.length ≤ 0xFFFF)
    (hyslen : ys.length ≤ 0xFFFF) :
    (netChecksum (netChecksum 0 xs) ys).toNat = onesSum (xs ++ ys) := by
  have hlen : (xs ++ ys).length ≤ 131072 := by
    rw [List.length_append]
    omega
  rw [netChecksum_append 0 hxs hlen, toNat_netChecksum 0 hlen, onesSum,
    sum_eq_norm (by decide) (words_le _)]
  exact congrArg (norm 0xFFFF) (Nat.zero_add _)

/-- **The complement of the sum verifies.** The sum of what comes before
goes into `net_checksum`, with zero for the checksum itself. -/
theorem onesSum_of_complement (xs ys zs : List Byte) (hxs : 2 ∣ xs.length) (hys : 2 ∣ ys.length)
    (hxslen : xs.length ≤ 0xFFFF) (hlen : (ys ++ be16 0 ++ zs).length ≤ 0xFFFF)
    (hval : val = ~~~netChecksum (netChecksum 0 xs) (ys ++ be16 0 ++ zs)) :
    onesSum (xs ++ (ys ++ be16 val ++ zs)) = 0xFFFF := by
  have htoNat : val.toNat =
      0xFFFF - norm 0xFFFF ((words xs).sum + (words (ys ++ be16 0 ++ zs)).sum) := by
    rw [hval, BitVec.toNat_not, toNat_netChecksum_chain hxs hxslen hlen, onesSum,
      sum_eq_norm (by decide) (words_le _), words_append hxs, List.sum_append]
  rw [onesSum, sum_eq_norm (by decide) (words_le _), words_append hxs, List.sum_append,
    sum_words_patch hys, htoNat, ← Nat.add_assoc]
  exact norm_add_complement (by decide) _

/-! ### The two sums -/

variable {data : UdpdataInfo} {len : BitVec 32} {ip udp : BitVec 16}

theorem netChecksum_nil : netChecksum 0 [] = 0 := by
  rw [netChecksum, addWords, foldCarries, if_pos (by decide)]
  rfl

theorem onesSum_ipBytes : onesSum (ipBytes data len (data.ipCksum len)) = 0xFFFF := by
  have hsplit : ∀ cksum, ipBytes data len cksum =
      ipFront len ++ be16 cksum ++ (be32 data.srcIp ++ be32 data.destIp) := by
    intro cksum
    rw [ipBytes, List.append_assoc]
  have hval : data.ipCksum len = ~~~netChecksum (netChecksum 0 [])
      (ipFront len ++ be16 0 ++ (be32 data.srcIp ++ be32 data.destIp)) := by
    rw [netChecksum_nil, UdpdataInfo.ipCksum, hsplit]
  have hverifies := onesSum_of_complement [] (ipFront len) (be32 data.srcIp ++ be32 data.destIp)
    (Nat.dvd_zero 2) (by decide : 2 ∣ 10) (Nat.zero_le _) (by decide : 20 ≤ 0xFFFF) hval
  rwa [List.nil_append, ← hsplit] at hverifies

/-- What `net_pseudo_checksum` puts together. -/
def pseudoBytes (data : UdpdataInfo) (len : BitVec 32) : List Byte :=
  be32 data.srcIp ++ be32 data.destIp ++ [0, 0x11] ++ be16 ((len - 34).setWidth 16)

theorem onesSum_udpBytes (hlen : 42 ≤ len.toNat) (hlt : len.toNat < 65536)
    (hdata : data.data.isSome = true ∨ (len - 42).toNat = 0) :
    onesSum (pseudoBytes data len ++
      (udpBytes data len (data.udpCksum len) ++ data.payload (len - 42).toNat)) = 0xFFFF := by
  have hsplit : ∀ cksum, udpBytes data len cksum ++ data.payload (len - 42).toNat =
      (be16 (data.srcPort.setWidth 16) ++ be16 (data.destPort.setWidth 16) ++
        be16 ((len - 34).setWidth 16)) ++ be16 cksum ++ data.payload (len - 42).toNat :=
    fun _ => rfl
  have hval : data.udpCksum len = ~~~netChecksum (netChecksum 0 (pseudoBytes data len))
      ((be16 (data.srcPort.setWidth 16) ++ be16 (data.destPort.setWidth 16) ++
        be16 ((len - 34).setWidth 16)) ++ be16 0 ++ data.payload (len - 42).toNat) := by
    rw [← hsplit]
    rfl
  have hlength : ((be16 (data.srcPort.setWidth 16) ++ be16 (data.destPort.setWidth 16) ++
      be16 ((len - 34).setWidth 16)) ++ be16 0 ++
        data.payload (len - 42).toNat).length ≤ 0xFFFF := by
    rw [← hsplit, List.length_append, length_udpBytes, length_payload hdata, toNat_sub_42 hlen]
    omega
  rw [hsplit]
  exact onesSum_of_complement _ _ _ (by decide : 2 ∣ 12) (by decide : 2 ∣ 6)
    (by decide : 12 ≤ 0xFFFF) hlength hval

/-! ### In the frame -/

theorem drop_14_framed : ((framed data len ip udp).drop 14).take 20 = ipBytes data len ip := by
  rw [framed, List.append_assoc (etherBytes data ++ _)]
  exact take_drop_middle (length_etherBytes data) (length_ipBytes ..)

theorem drop_34_framed : (framed data len ip udp).drop 34 =
    udpBytes data len udp ++ data.payload (len - 42).toNat := by
  have hfront : (etherBytes data ++ ipBytes data len ip).length = 34 := rfl
  rw [framed, List.append_assoc]
  exact List.drop_left' hfront

theorem pseudoHeader_framed : pseudoHeader (framed data len ip udp) = pseudoBytes data len := rfl

/-- **The checksums of a frame verify**, for every request that does not
wrap; without data it is what the buffer held that is summed and sent. -/
theorem udp_checksums_verify {allocSkb : BitVec 32 → Option SkBuff} {skb : SkBuff}
    (hlen : data.len.toNat ≤ 2 ^ 32 - 43)
    (halloc : allocSkb (frameLen data.len + 256 + 32) = some skb)
    (hfresh : Fresh (frameLen data.len + 256 + 32) skb) :
    ∃ t, netSetupUdpdata allocSkb (some data) = some (some t) ∧
      onesSum ((t.frame.drop 14).take 20) = 0xFFFF ∧
      onesSum (pseudoHeader t.frame ++ t.frame.drop 34) = 0xFFFF := by
  have hwrap : data.len.toNat + 42 < 2 ^ 32 := by omega
  have hL := frameLen_toNat hwrap
  obtain ⟨t, ht, hframe, -⟩ := exists_netSetupUdpdata_over hwrap halloc hfresh
  refine ⟨t, ht, ?_, ?_⟩
  · rw [hframe, frameBytes, drop_14_framed]
    exact onesSum_ipBytes
  · rw [hframe, frameBytes, pseudoHeader_framed, drop_34_framed]
    exact onesSum_udpBytes (by omega) (by omega) (.inl rfl)

/-- A request of three bytes, the last word completed with zero; and one
without data, for three bytes of the buffer. -/
theorem udp_checksums_verify_three :
    (∃ t, netSetupUdpdata exactSkb (some (request 3)) = some (some t) ∧
        onesSum ((t.frame.drop 14).take 20) = 0xFFFF ∧
        onesSum (pseudoHeader t.frame ++ t.frame.drop 34) = 0xFFFF) ∧
    ∃ t, netSetupUdpdata exactSkb (some { request 3 with data := none }) = some (some t) ∧
      onesSum ((t.frame.drop 14).take 20) = 0xFFFF ∧
      onesSum (pseudoHeader t.frame ++ t.frame.drop 34) = 0xFFFF := by
  constructor
  · exact udp_checksums_verify (by decide) rfl (fresh_exactSkb _)
  · exact udp_checksums_verify (by decide) rfl (fresh_exactSkb _)

end Net

end Hgsdk

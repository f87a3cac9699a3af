import Hgsdk.Net.Checksum
/-!
# A UDP checksum of zero

To a receiver a checksum field of zero says that there is no checksum,
and a sender that computes zero is to send `0xFFFF`, which stands for the
same number. `net_setup_udpdata` stores what it has computed. Its field is
zero exactly when the pseudo header and the datagram of the request add up
to `0xFFFF` with zero for the checksum, and there are such requests.
-/

namespace Hgsdk

namespace Net

variable {data : UdpdataInfo} {len : BitVec 32} {ip udp : BitVec 16} {skb : SkBuff}

/-- `net_pseudo_checksum` is zero when the sum is `0xFFFF`. -/
theorem netPseudoChecksum_eq_zero_iff {proto : Byte} {udp src dest : List Byte}
    {udpLen : BitVec 16} (hudp : udp.length ≤ 0xFFFF) (hsrc : src.length = 4)
    (hdest : dest.length = 4) :
    netPseudoChecksum proto udp udpLen src dest = 0 ↔
      onesSum (src ++ dest ++ [0, proto] ++ be16 udpLen ++ udp) = 0xFFFF := by
  have hlen : (src ++ dest ++ [0, proto] ++ be16 udpLen).length = 12 := by
    rw [List.length_append, List.length_append, List.length_append, hsrc, hdest]
    rfl
  rw [← toNat_netChecksum_chain (by rw [hlen]; decide) (by rw [hlen]; decide) hudp,
    netPseudoChecksum, ← BitVec.toNat_inj, BitVec.toNat_not]
  have hlt := (netChecksum (netChecksum 0 (src ++ dest ++ [0, proto] ++ be16 udpLen)) udp).isLt
  show 2 ^ 16 - 1 - _ = 0 ↔ _
  omega

/-- **What the checksum is computed from**: the pseudo header and the UDP
header of the request, with zero for the checksum, and the bytes to be sent,
which without data are those the buffer held. -/
def summed (data : UdpdataInfo) (len : BitVec 32) (skb : SkBuff) : List Byte :=
  pseudoBytes data len ++
    (udpBytes data len 0 ++ (data.over skb).payload (len - 42).toNat)

theorem udpCksum_eq_zero_iff (hlen : 42 ≤ len.toNat) (hlt : len.toNat < 65536) :
    (data.over skb).udpCksum len = 0 ↔ onesSum (summed data len skb) = 0xFFFF := by
  refine netPseudoChecksum_eq_zero_iff ?_ rfl rfl
  rw [List.length_append, length_udpBytes, length_payload (.inl rfl), toNat_sub_42 hlen]
  omega

/-- The field of a frame. -/
theorem be16At_framed : be16At (framed data len ip udp) 40 = udp := be16_append udp

/-- **The field is not zero** exactly when what is summed does not add up
to `0xFFFF`, for every request that does not wrap. -/
theorem udp_checksum_nonzero {allocSkb : BitVec 32 → Option SkBuff}
    (hlen : data.len.toNat ≤ 2 ^ 32 - 43)
    (halloc : allocSkb (frameLen data.len + 256 + 32) = some skb)
    (hfresh : Fresh (frameLen data.len + 256 + 32) skb) :
    ∃ t, netSetupUdpdata allocSkb (some data) = some (some t) ∧ 42 ≤ t.frame.length ∧
      (be16At t.frame 40 ≠ 0 ↔ onesSum (summed data (frameLen data.len) skb) ≠ 0xFFFF) := by
  have hwrap : data.len.toNat + 42 < 2 ^ 32 := by omega
  have hL := frameLen_toNat hwrap
  obtain ⟨t, ht, hframe, hlength⟩ := exists_netSetupUdpdata_over hwrap halloc hfresh
  refine ⟨t, ht, by omega, ?_⟩
  rw [hframe, frameBytes, be16At_framed]
  exact not_congr (udpCksum_eq_zero_iff (by omega) (by omega))

/-- A request of three bytes: its checksum is not zero. -/
theorem udp_checksum_nonzero_three :
    ∃ t, netSetupUdpdata exactSkb (some (request 3)) = some (some t) ∧ 42 ≤ t.frame.length ∧
      be16At t.frame 40 ≠ 0 := by
  have halloc : exactSkb (frameLen (request 3).len + 256 + 32) = some _ := rfl
  obtain ⟨t, ht, hlength, hiff⟩ := udp_checksum_nonzero (by decide) halloc (fresh_exactSkb _)
  exact ⟨t, ht, hlength, hiff.2 (by decide)⟩

/-- A request of two bytes that make the sum `0xFFFF`. -/
def zeroRequest : UdpdataInfo :=
  { request 2 with data := some fun i => if i = 0 then 0x6A else 0x02 }

/-- **A checksum of zero is sent.** -/
theorem udp_checksum_zero :
    zeroRequest.Readable ∧ ∃ t, netSetupUdpdata exactSkb (some zeroRequest) = some (some t) ∧
      parseUdp t.frame = some (zeroRequest.asFrame 44) ∧ be16At t.frame 40 = 0 := by
  have hlen : frameLen zeroRequest.len = 44 := by decide
  have hcksum : zeroRequest.udpCksum 44 = 0 :=
    (netPseudoChecksum_eq_zero_iff (by decide) rfl rfl).2 (by decide)
  have hreturns := exists_netSetupUdpdata (by decide : zeroRequest.len.toNat + 42 < 2 ^ 32)
    (.inl rfl) (show exactSkb _ = some _ from rfl) (fresh_exactSkb _)
  obtain ⟨t, ht, hframe, -⟩ := hreturns
  rw [hlen, frameBytes, hcksum] at hframe
  refine ⟨.inl rfl, t, ht, ?_, ?_⟩
  · rw [hframe]
    exact parseUdp_framed (by decide) (by decide)
  · rw [hframe]
    exact be16At_framed

end Net

end Hgsdk

import Hgsdk.Net.Frame
/-!
# A UDP frame and its receiver

What a receiver reads off an Ethernet frame with an IPv4 header of twenty
bytes and a UDP header. A frame of `net_setup_udpdata` reads back as its
request, cut to 1500 bytes, exactly when `len + 42` does not wrap. When it
does, almost four gigabytes are copied into a small buffer.
-/

namespace Hgsdk

namespace Net

/-! ### The receiver -/

/-- What a frame says. -/
structure UdpFrame where
  dest : List Byte
  src : List Byte
  totalLength : ℕ
  protocol : Byte
  srcIp : BitVec 32
  destIp : BitVec 32
  srcPort : BitVec 16
  destPort : BitVec 16
  udpLength : ℕ
  payload : List Byte
  deriving DecidableEq, Repr

section Fields

variable (frame : List Byte) (i : ℕ)

def byteAt : Byte := frame.getD i 0

def be16At : BitVec 16 := byteAt frame i ++ byteAt frame (i + 1)

def be32At : BitVec 32 := be16At frame i ++ be16At frame (i + 2)

end Fields

/-- **Ethernet II, IPv4 with a header of twenty bytes, UDP.** -/
def parseUdp (frame : List Byte) : Option UdpFrame :=
  if 42 ≤ frame.length ∧ be16At frame 12 = 0x0800 ∧ byteAt frame 14 = 0x45 then
    some {
      dest := frame.take 6
      src := (frame.drop 6).take 6
      totalLength := (be16At frame 16).toNat
      protocol := byteAt frame 23
      srcIp := be32At frame 26
      destIp := be32At frame 30
      srcPort := be16At frame 34
      destPort := be16At frame 36
      udpLength := (be16At frame 38).toNat
      payload := frame.drop 42 }
  else none

/-- What the frame for a request should say, at a length of `total`. -/
def UdpdataInfo.asFrame (data : UdpdataInfo) (total : ℕ) : UdpFrame where
  dest := (List.range 6).map data.dest
  src := (List.range 6).map data.src
  totalLength := total - 14
  protocol := 17
  srcIp := data.srcIp
  destIp := data.destIp
  srcPort := data.srcPort.setWidth 16
  destPort := data.destPort.setWidth 16
  udpLength := total - 34
  payload := data.payload (total - 42)

/-! ### Reading back -/

theorem be16_append (val : BitVec 16) :
    ((val >>> 8).setWidth 8 ++ val.setWidth 8 : BitVec 16) = val := by
  refine BitVec.eq_of_getLsbD_eq fun i hi => ?_
  simp only [BitVec.getLsbD_append, BitVec.getLsbD_setWidth, BitVec.getLsbD_ushiftRight]
  by_cases hlow : i < 8
  · simp [hlow]
  · have hsub : i - 8 < 8 := by omega
    have hadd : 8 + (i - 8) = i := by omega
    simp [hlow, hsub, hadd]

theorem be32_append (val : BitVec 32) :
    ((val >>> 16).setWidth 16 ++ val.setWidth 16 : BitVec 32) = val := by
  refine BitVec.eq_of_getLsbD_eq fun i hi => ?_
  simp only [BitVec.getLsbD_append, BitVec.getLsbD_setWidth, BitVec.getLsbD_ushiftRight]
  by_cases hlow : i < 16
  · simp [hlow]
  · have hsub : i - 16 < 16 := by omega
    have hadd : 16 + (i - 16) = i := by omega
    simp [hlow, hsub, hadd]

variable {data : UdpdataInfo} {len : BitVec 32} {ip udp : BitVec 16}

/-- **A frame reads back**, whatever its checksums. -/
theorem parseUdp_framed (hlen : 42 ≤ len.toNat) (hlt : len.toNat < 65536) :
    parseUdp (framed data len ip udp) = some (data.asFrame len.toNat) := by
  -- each field is where it was stored
  have htype : be16At (framed data len ip udp) 12 = 0x0800 := be16_append _
  have htotal : be16At (framed data len ip udp) 16 = (len - 14).setWidth 16 := be16_append _
  have hsrcPort : be16At (framed data len ip udp) 34 = data.srcPort.setWidth 16 := be16_append _
  have hdestPort : be16At (framed data len ip udp) 36 = data.destPort.setWidth 16 := be16_append _
  have hudp : be16At (framed data len ip udp) 38 = (len - 34).setWidth 16 := be16_append _
  have hsrcIp : be32At (framed data len ip udp) 26 = data.srcIp :=
    (congrArg₂ (· ++ ·) (be16_append _) (be16_append _)).trans (be32_append data.srcIp)
  have hdestIp : be32At (framed data len ip udp) 30 = data.destIp :=
    (congrArg₂ (· ++ ·) (be16_append _) (be16_append _)).trans (be32_append data.destIp)
  have hheader : (etherBytes data ++ ipBytes data len ip ++ udpBytes data len udp).length = 42 :=
    rfl
  have hlong : 42 ≤ (framed data len ip udp).length := by
    rw [framed, List.length_append, hheader]
    exact Nat.le_add_right ..
  have hpayload : (framed data len ip udp).drop 42 = data.payload (len - 42).toNat :=
    List.drop_left' hheader
  rw [parseUdp, if_pos ⟨hlong, htype, rfl⟩, htotal, hsrcIp, hdestIp, hsrcPort, hdestPort, hudp,
    hpayload, toNat_sub_42 hlen, toNat_setWidth_sub ((by decide : 14 ≤ 42).trans hlen) hlt,
    toNat_setWidth_sub ((by decide : 34 ≤ 42).trans hlen) hlt]
  rfl

/-! ### The result -/

/-- **A frame parses back to its request** exactly when `len + 42` does not
wrap: it is built inside its buffer, has the length it should have, and
says what the request said. -/
theorem udp_frame_parses_iff {allocSkb : BitVec 32 → Option SkBuff} {skb : SkBuff}
    (hdata : data.Readable) (halloc : allocSkb (frameLen data.len + 256 + 32) = some skb)
    (hfresh : Fresh (frameLen data.len + 256 + 32) skb) :
    (∃ t, netSetupUdpdata allocSkb (some data) = some (some t) ∧
      t.frame.length = min (data.len.toNat + 42) 1500 ∧
      parseUdp t.frame = some (data.asFrame (min (data.len.toNat + 42) 1500))) ↔
      data.len.toNat + 42 < 2 ^ 32 := by
  constructor
  · rintro ⟨t, ht, -⟩
    by_contra hwrap
    have hnone := fillSkb_eq_none (not_lt.1 hwrap) hdata hfresh
    rw [netSetupUdpdata_eq halloc, hnone] at ht
    exact nomatch ht
  · intro hlen
    obtain ⟨t, ht, hframe, hlength⟩ := exists_netSetupUdpdata hlen hdata halloc hfresh
    have hL := frameLen_toNat hlen
    refine ⟨t, ht, ?_, ?_⟩
    · exact hlength.trans hL
    · rw [hframe, ← hL]
      exact parseUdp_framed (by omega) (by omega)

/-! ### Requests -/

/-- A request to send `len` bytes from port `0x11234` to port 80. -/
def request (len : BitVec 32) : UdpdataInfo where
  dest i := BitVec.ofNat 8 (0x10 + i)
  src i := BitVec.ofNat 8 (0x20 + i)
  destIp := 0xC0A80102
  destPort := 80
  srcIp := 0xC0A80101
  srcPort := 0x11234
  data := some (BitVec.ofNat 8)
  len := len

/-- An allocator that gives what it is asked for, and no more. -/
def exactSkb (n : BitVec 32) : Option SkBuff := some ⟨fun _ => 0xEE, n.toNat, 0, 0, 0⟩

theorem fresh_exactSkb (n : BitVec 32) : Fresh n ⟨fun _ => 0xEE, n.toNat, 0, 0, 0⟩ :=
  ⟨rfl, rfl, rfl, Nat.le_refl _, n.isLt⟩

theorem udp_frame_parses_three :
    (request 3).Readable ∧ ∃ skb, exactSkb (frameLen 3 + 256 + 32) = some skb ∧
      Fresh (frameLen 3 + 256 + 32) skb ∧
      ∃ t, netSetupUdpdata exactSkb (some (request 3)) = some (some t) ∧
        t.frame.length = 45 ∧ parseUdp t.frame = some ((request 3).asFrame 45) := by
  refine ⟨.inl rfl, _, rfl, fresh_exactSkb _, ?_⟩
  exact (udp_frame_parses_iff (.inl rfl) rfl (fresh_exactSkb _)).2 (by decide)

/-- **The length wraps.** For a request of `0xFFFFFFFF` bytes the frame is
to have 41 bytes, and `0xFFFFFFFF` bytes are copied into it. -/
theorem udp_frame_wraps :
    (request 0xFFFFFFFF).Readable ∧ frameLen 0xFFFFFFFF = 41 ∧
      netSetupUdpdata exactSkb (some (request 0xFFFFFFFF)) = none := by
  refine ⟨.inl rfl, by decide, ?_⟩
  rw [netSetupUdpdata_eq rfl, fillSkb_eq_none (by decide) (.inl rfl) (fresh_exactSkb _)]
  rfl

end Net

end Hgsdk

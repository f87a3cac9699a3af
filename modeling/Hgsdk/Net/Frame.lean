import Hgsdk.Net.Model
/-!
# What `net_setup_udpdata` builds

The stores go through the frame from its beginning to its end, so that
each of them extends what has been built; only the two checksums are
stored over zeros. `ensures_fillSkb` says what the frame is when nothing
wraps. When the length wraps the payload does not fit any buffer.
-/

namespace Hgsdk

namespace Net

open SkBuff

/-! ### The parts of a frame -/

def etherBytes (data : UdpdataInfo) : List Byte :=
  (List.range 6).map data.dest ++ (List.range 6).map data.src ++ be16 0x800

/-- The IP header up to its checksum. -/
def ipFront (len : BitVec 32) : List Byte :=
  [0x45, 0x00] ++ be16 ((len - 14).setWidth 16) ++ [0x00, 0x00, 0x40, 0x00, 0x40, 0x11]

def ipBytes (data : UdpdataInfo) (len : BitVec 32) (cksum : BitVec 16) : List Byte :=
  ipFront len ++ be16 cksum ++ be32 data.srcIp ++ be32 data.destIp

def udpBytes (data : UdpdataInfo) (len : BitVec 32) (cksum : BitVec 16) : List Byte :=
  be16 (data.srcPort.setWidth 16) ++ be16 (data.destPort.setWidth 16) ++
    be16 ((len - 34).setWidth 16) ++ be16 cksum

namespace UdpdataInfo

/-- The first `n` bytes of the data. -/
def payload (data : UdpdataInfo) (n : ℕ) : List Byte :=
  match data.data with
  | some bytes => (List.range n).map bytes
  | none => []

/-- There are data, or there are none to be sent. -/
def Readable (data : UdpdataInfo) : Prop := data.data.isSome = true ∨ data.len = 0

def ipCksum (data : UdpdataInfo) (len : BitVec 32) : BitVec 16 :=
  ~~~netChecksum 0 (ipBytes data len 0)

def udpCksum (data : UdpdataInfo) (len : BitVec 32) : BitVec 16 :=
  netPseudoChecksum 0x11 (udpBytes data len 0 ++ data.payload (len - 42).toNat)
    ((len - 34).setWidth 16) (be32 data.srcIp) (be32 data.destIp)

end UdpdataInfo

/-- A frame with these two checksums. -/
def framed (data : UdpdataInfo) (len : BitVec 32) (ip udp : BitVec 16) : List Byte :=
  etherBytes data ++ ipBytes data len ip ++ udpBytes data len udp ++
    data.payload (len - 42).toNat

/-- **The frame.** -/
def frameBytes (data : UdpdataInfo) (len : BitVec 32) : List Byte :=
  framed data len (data.ipCksum len) (data.udpCksum len)

/-! ### One access -/

/-- The buffer after `skb_reserve(skb, 256)`, when it begins with `xs`, of
length `n`. -/
structure Built (size n : ℕ) (xs : List Byte) (skb : SkBuff) : Prop where
  data : skb.data = 256
  tail : skb.tail = 256
  len : skb.len = 0
  size : skb.size = size
  length : xs.length = n
  reads : Reads skb.cells 256 xs

namespace Built

variable {size n : ℕ} {xs zs bs : List Byte} {skb : SkBuff}

/-- A store at the end. -/
theorem write (h : Built size n xs skb) (hfit : 256 + n + bs.length ≤ size) :
    Ensures (SkBuff.write n bs) skb fun _ t => Built size (n + bs.length) (xs ++ bs) t := by
  have hcond : skb.data + n + bs.length ≤ skb.size := by rw [h.data, h.size]; exact hfit
  refine ⟨(), _, if_pos hcond, h.data, h.tail, h.len, h.size, ?_, ?_⟩
  · rw [List.length_append, h.length]
  · show Reads (overlay (fun _ b => b) skb.cells (skb.data + n) bs) 256 (xs ++ bs)
    rw [h.data, ← h.length]
    exact h.reads.append

theorem osMemcpy {src : ℕ → Byte} {k : ℕ} (h : Built size n xs skb) (hfit : 256 + n + k ≤ size) :
    Ensures (SkBuff.osMemcpy n src k) skb fun _ t =>
      Built size (n + k) (xs ++ (List.range k).map src) t := by
  have hlen : ((List.range k).map src).length = k := by simp
  refine (h.write (by rw [hlen]; exact hfit)).mono fun _ t ht => ?_
  rwa [hlen] at ht

theorem put {b : Byte} (h : Built size n xs skb) (hfit : 256 + n + 1 ≤ size) :
    Ensures (SkBuff.put n b) skb fun _ t => Built size (n + 1) (xs ++ [b]) t :=
  h.write hfit

theorem putUnalignedBe16 {val : BitVec 16} (h : Built size n xs skb)
    (hfit : 256 + n + 2 ≤ size) :
    Ensures (SkBuff.putUnalignedBe16 val n) skb fun _ t =>
      Built size (n + 2) (xs ++ be16 val) t := by
  refine (h.put (by omega)).bind fun _ t ht => ?_
  refine (ht.put (by omega)).mono fun _ u hu => ?_
  rwa [List.append_assoc] at hu

theorem putUnalignedBe32 {val : BitVec 32} (h : Built size n xs skb)
    (hfit : 256 + n + 4 ≤ size) :
    Ensures (SkBuff.putUnalignedBe32 val n) skb fun _ t =>
      Built size (n + 4) (xs ++ be32 val) t := by
  refine (h.putUnalignedBe16 (by omega)).bind fun _ t ht => ?_
  refine (ht.putUnalignedBe16 (by omega)).mono fun _ u hu => ?_
  rwa [List.append_assoc] at hu

/-- A store over one byte. -/
theorem patch {off : ℕ} {b b' : Byte} (h : Built size n (xs ++ [b] ++ zs) skb)
    (hoff : xs.length = off) (hfit : 256 + off + 1 ≤ size) :
    Ensures (SkBuff.put off b') skb fun _ t => Built size n (xs ++ [b'] ++ zs) t := by
  have hcond : skb.data + off + [b'].length ≤ skb.size := by rw [h.data, h.size]; exact hfit
  refine ⟨(), _, if_pos hcond, h.data, h.tail, h.len, h.size, ?_, ?_⟩
  · rw [← h.length, List.length_append, List.length_append, List.length_append, List.length_append]
    rfl
  · show Reads (overlay (fun _ b => b) skb.cells (skb.data + off) [b']) 256 (xs ++ [b'] ++ zs)
    rw [h.data, ← hoff]
    exact h.reads.patch rfl

/-- A checksum is stored over another. -/
theorem patchBe16 {off : ℕ} {val val' : BitVec 16} (h : Built size n (xs ++ be16 val ++ zs) skb)
    (hoff : xs.length = off) (hfit : 256 + off + 2 ≤ size) :
    Ensures (SkBuff.putUnalignedBe16 val' off) skb fun _ t =>
      Built size n (xs ++ be16 val' ++ zs) t := by
  have hsplit : ∀ a b : Byte, xs ++ [a, b] ++ zs = xs ++ [a] ++ ([b] ++ zs) := by simp
  have hjoin : ∀ a b : Byte, xs ++ [a] ++ ([b] ++ zs) = xs ++ [a] ++ [b] ++ zs := by simp
  rw [be16, hsplit] at h
  refine (h.patch hoff (by omega)).bind fun _ t ht => ?_
  rw [hjoin] at ht
  refine (ht.patch (by rw [List.length_append, hoff]; rfl) (by omega)).mono fun _ u hu => ?_
  rwa [be16, hsplit, hjoin]

theorem read (h : Built size n xs skb) (off k : ℕ) (hin : off + k ≤ n) (hfit : 256 + n ≤ size) :
    Ensures (SkBuff.read off k) skb fun bs t =>
      bs = (xs.drop off).take k ∧ Built size n xs t := by
  have hcond : skb.data + off + k ≤ skb.size := by rw [h.data, h.size]; omega
  refine ⟨_, skb, if_pos hcond, ?_, h⟩
  rw [h.data]
  exact h.reads.slice (h.length ▸ hin)

end Built

/-! ### The headers -/

section Headers

variable {size n : ℕ} {front : List Byte} {skb : SkBuff} {data : UdpdataInfo} {len : BitVec 32}

theorem length_etherBytes (data : UdpdataInfo) : (etherBytes data).length = 14 := rfl

theorem length_ipBytes (data : UdpdataInfo) (len : BitVec 32) (cksum : BitVec 16) :
    (ipBytes data len cksum).length = 20 := rfl

theorem length_udpBytes (data : UdpdataInfo) (len : BitVec 32) (cksum : BitVec 16) :
    (udpBytes data len cksum).length = 8 := rfl

theorem take_drop_middle {xs ys zs : List Byte} {n k : ℕ} (hxs : xs.length = n)
    (hys : ys.length = k) : ((xs ++ ys ++ zs).drop n).take k = ys := by
  rw [List.append_assoc, List.drop_left' hxs, List.take_left' hys]

theorem be16_zero : be16 0 = [0x00] ++ [0x00] := rfl

theorem ensures_etherHdr (h : Built size 0 [] skb) (hfit : 298 ≤ size) :
    Ensures (etherHdr data) skb fun _ t => Built size 14 (etherBytes data) t := by
  refine (h.osMemcpy (by omega)).bind fun _ _ h => ?_
  refine (h.osMemcpy (by omega)).bind fun _ _ h => ?_
  exact h.putUnalignedBe16 (by omega)

theorem ensures_ipHdr (h : Built size 14 (etherBytes data) skb) (hfit : 298 ≤ size) :
    Ensures (ipHdr data len) skb fun _ t =>
      Built size 34 (etherBytes data ++ ipBytes data len (data.ipCksum len)) t := by
  refine (h.put (by omega)).bind fun _ _ h => ?_
  refine (h.put (by omega)).bind fun _ _ h => ?_
  refine (h.putUnalignedBe16 (by omega)).bind fun _ _ h => ?_
  refine (h.put (by omega)).bind fun _ _ h => ?_
  refine (h.put (by omega)).bind fun _ _ h => ?_
  refine (h.put (by omega)).bind fun _ _ h => ?_
  refine (h.put (by omega)).bind fun _ _ h => ?_
  refine (h.put (by omega)).bind fun _ _ h => ?_
  refine (h.put (by omega)).bind fun _ _ h => ?_
  refine (h.put (by omega)).bind fun _ _ h => ?_
  refine (h.put (by omega)).bind fun _ _ h => ?_
  refine (h.putUnalignedBe32 (by omega)).bind fun _ _ h => ?_
  refine (h.putUnalignedBe32 (by omega)).bind fun _ t h => ?_
  -- the header is there, with a checksum of zero
  have hzero : Built size 34 (etherBytes data ++ ipBytes data len 0) t := by
    simpa only [ipBytes, ipFront, be16_zero, List.append_assoc, List.cons_append,
      List.nil_append] using h
  have hslice : ((etherBytes data ++ ipBytes data len 0).drop 14).take 20 =
      ipBytes data len 0 := by
    rw [List.drop_left' (length_etherBytes data)]
    exact List.take_of_length_le (Nat.le_of_eq (length_ipBytes data len 0))
  refine (hzero.read 14 20 (by omega) (by omega)).bind fun bs u hbs => ?_
  obtain ⟨rfl, h⟩ := hbs
  rw [hslice]
  have hsplit : ∀ cksum : BitVec 16, etherBytes data ++ ipBytes data len cksum =
      (etherBytes data ++ ipFront len) ++ be16 cksum ++
        (be32 data.srcIp ++ be32 data.destIp) := by
    intro cksum
    simp only [ipBytes, List.append_assoc]
  rw [hsplit] at h
  rw [hsplit]
  exact h.patchBe16 rfl (by omega)

/-! ### The payload -/

theorem length_payload (hdata : data.data.isSome = true ∨ n = 0) :
    (data.payload n).length = n := by
  unfold UdpdataInfo.payload
  split
  · simp
  · rename_i hnone
    rw [hnone] at hdata
    exact (hdata.resolve_left nofun).symm

theorem ensures_hwMemcpy {xs : List Byte} {m : BitVec 32} (h : Built size n xs skb)
    (hdata : data.data.isSome = true ∨ m.toNat = 0) (hfit : 256 + n + m.toNat ≤ size) :
    Ensures (hwMemcpy n data.data m) skb fun _ t =>
      Built size (n + m.toNat) (xs ++ data.payload m.toNat) t := by
  unfold hwMemcpy UdpdataInfo.payload
  cases hsrc : data.data with
  | some src => exact h.osMemcpy hfit
  | none =>
    rw [hsrc] at hdata
    have hzero := hdata.resolve_left nofun
    rw [hzero, List.append_nil]
    exact ensures_pure.2 h

theorem ensures_udpHdr (h : Built size 34 front skb)
    (hdata : data.data.isSome = true ∨ (len - 42).toNat = 0)
    (hfit : 298 + (len - 42).toNat ≤ size) :
    Ensures (udpHdr data len) skb fun _ t => Built size (42 + (len - 42).toNat)
      (front ++ udpBytes data len 0 ++ data.payload (len - 42).toNat) t := by
  refine (h.putUnalignedBe16 (by omega)).bind fun _ _ h => ?_
  refine (h.putUnalignedBe16 (by omega)).bind fun _ _ h => ?_
  refine (h.putUnalignedBe16 (by omega)).bind fun _ _ h => ?_
  refine (h.put (by omega)).bind fun _ _ h => ?_
  refine (h.put (by omega)).bind fun _ _ h => ?_
  refine (ensures_hwMemcpy h hdata (by omega)).mono fun _ t h => ?_
  simpa only [udpBytes, be16_zero, List.append_assoc] using h

theorem toNat_sub_42 (h : 42 ≤ len.toNat) : (len - 42).toNat = len.toNat - 42 :=
  BitVec.toNat_sub_of_le h

/-- A length field. -/
theorem toNat_setWidth_sub {k : BitVec 32} (hk : k ≤ len) (hlt : len.toNat < 65536) :
    ((len - k).setWidth 16).toNat = len.toNat - k.toNat := by
  rw [BitVec.toNat_setWidth, BitVec.toNat_sub_of_le hk]
  exact Nat.mod_eq_of_lt (by omega)

/-- **The UDP checksum**, over the payload and what the IP header says of
the addresses. -/
theorem ensures_udpCksum {ip : BitVec 16} (hlen : 42 ≤ len.toNat) (hlt : len.toNat < 65536)
    (hdata : data.data.isSome = true ∨ (len - 42).toNat = 0) (hfit : 256 + len.toNat ≤ size)
    (h : Built size (42 + (len - 42).toNat) (framed data len ip 0) skb) :
    Ensures (udpCksum len) skb fun _ t =>
      Built size (42 + (len - 42).toNat) (framed data len ip (data.udpCksum len)) t := by
  have hpay := toNat_sub_42 hlen
  have hudp : ((len - 34).setWidth 16).toNat = len.toNat - 34 :=
    toNat_setWidth_sub (k := 34) ((by decide : 34 ≤ 42).trans hlen) hlt
  -- the three reads
  have hall : ((framed data len ip 0).drop 34).take ((len - 34).setWidth 16).toNat =
      udpBytes data len 0 ++ data.payload (len - 42).toNat := by
    have hfront : (etherBytes data ++ ipBytes data len ip).length = 34 := rfl
    rw [framed, List.append_assoc, List.drop_left' hfront]
    refine List.take_of_length_le ?_
    rw [List.length_append, length_udpBytes, length_payload hdata, hudp, hpay]
    omega
  have hsrc : ((framed data len ip 0).drop 26).take 4 = be32 data.srcIp := by
    have hsplit : framed data len ip 0 = (etherBytes data ++ ipFront len ++ be16 ip) ++
        be32 data.srcIp ++ (be32 data.destIp ++ udpBytes data len 0 ++
          data.payload (len - 42).toNat) := by
      simp only [framed, ipBytes, List.append_assoc]
    rw [hsplit]
    exact take_drop_middle rfl rfl
  have hdest : ((framed data len ip 0).drop 30).take 4 = be32 data.destIp := by
    have hsplit : framed data len ip 0 = (etherBytes data ++ ipFront len ++ be16 ip ++
        be32 data.srcIp) ++ be32 data.destIp ++ (udpBytes data len 0 ++
          data.payload (len - 42).toNat) := by
      simp only [framed, ipBytes, List.append_assoc]
    rw [hsplit]
    exact take_drop_middle rfl rfl
  refine (h.read 34 _ (by omega) (by omega)).bind fun udp _ hudp => ?_
  obtain ⟨rfl, h⟩ := hudp
  refine (h.read 26 4 (by omega) (by omega)).bind fun srcaddr _ hsrcaddr => ?_
  obtain ⟨rfl, h⟩ := hsrcaddr
  refine (h.read 30 4 (by omega) (by omega)).bind fun destaddr _ hdestaddr => ?_
  obtain ⟨rfl, h⟩ := hdestaddr
  rw [hall, hsrc, hdest]
  have hsplit : ∀ udp : BitVec 16, framed data len ip udp =
      (etherBytes data ++ ipBytes data len ip ++ (be16 (data.srcPort.setWidth 16) ++
        be16 (data.destPort.setWidth 16) ++ be16 ((len - 34).setWidth 16))) ++ be16 udp ++
          data.payload (len - 42).toNat := by
    intro udp
    simp only [framed, udpBytes, List.append_assoc]
  rw [hsplit] at h
  rw [hsplit]
  exact h.patchBe16 rfl (by omega)

end Headers

/-! ### The whole function -/

/-- A buffer as `alloc_skb(n)` gives it: empty, with room for `n` bytes,
and somewhere in memory. -/
structure Fresh (n : BitVec 32) (skb : SkBuff) : Prop where
  data : skb.data = 0
  tail : skb.tail = 0
  len : skb.len = 0
  size : n.toNat ≤ skb.size
  bound : skb.size < 2 ^ 32

section Whole

variable {skb : SkBuff} {data : UdpdataInfo}

theorem netSetupUdpdata_eq {allocSkb : BitVec 32 → Option SkBuff}
    (h : allocSkb (frameLen data.len + 256 + 32) = some skb) :
    netSetupUdpdata allocSkb (some data) =
      (fillSkb data (frameLen data.len) skb).map fun r => some r.2 := by
  simp only [netSetupUdpdata, h]

theorem frameLen_toNat {len : BitVec 32} (h : len.toNat + 42 < 2 ^ 32) :
    (frameLen len).toNat = min (len.toNat + 42) 1500 := by
  have hsum : (len + 42).toNat = len.toNat + 42 :=
    (BitVec.toNat_add len 42).trans (Nat.mod_eq_of_lt h)
  have hlt : 1500 < len + 42 ↔ 1500 < len.toNat + 42 := by
    rw [BitVec.lt_def, hsum]
    rfl
  by_cases hlong : 1500 < len + 42
  · have heq : frameLen len = 1500 := if_pos hlong
    have hmin := hlt.1 hlong
    rw [heq]
    show 1500 = _
    omega
  · have heq : frameLen len = len + 42 := if_neg hlong
    have hmin := mt hlt.2 hlong
    rw [heq, hsum]
    omega

/-- There is room for the frame behind what `skb_reserve` leaves. -/
theorem Fresh.room {len : BitVec 32} (h : Fresh (len + 256 + 32) skb) (hlt : len.toNat < 65536) :
    256 + len.toNat + 32 ≤ skb.size := by
  have hsize := h.size
  have hsum : (len + 256 + 32).toNat = len.toNat + 256 + 32 := by
    rw [BitVec.toNat_add, BitVec.toNat_add]
    show ((len.toNat + 256) % 2 ^ 32 + 32) % 2 ^ 32 = _
    omega
  omega

/-- **What is built** when the length does not wrap. -/
theorem ensures_fillSkb (hlen : data.len.toNat + 42 < 2 ^ 32) (hdata : data.Readable)
    (hfresh : Fresh (frameLen data.len + 256 + 32) skb) :
    Ensures (fillSkb data (frameLen data.len)) skb fun _ t =>
      t.frame = frameBytes data (frameLen data.len) ∧
        t.frame.length = (frameLen data.len).toNat := by
  have hL := frameLen_toNat hlen
  generalize frameLen data.len = len at hL hfresh
  have hge : 42 ≤ len.toNat := by omega
  have hlt : len.toNat < 65536 := by omega
  have hpay := toNat_sub_42 hge
  have hpayload : data.data.isSome = true ∨ (len - 42).toNat = 0 := by
    refine hdata.imp id fun hzero => ?_
    rw [hpay, hL, hzero]
    rfl
  have hroom : 256 + len.toNat + 32 ≤ skb.size := hfresh.room (by omega)
  have hreserve : skb.tail + 256 < skb.size := by
    rw [hfresh.tail]
    omega
  have hstart : Ensures (skbReserve 256) skb fun _ t => Built skb.size 0 [] t :=
    ⟨(), _, if_pos hreserve, by rw [hfresh.data], by rw [hfresh.tail], hfresh.len, rfl, rfl,
      reads_nil⟩
  refine hstart.bind fun _ _ h => ?_
  refine (ensures_etherHdr h (by omega)).bind fun _ _ h => ?_
  refine (ensures_ipHdr h (by omega)).bind fun _ _ h => ?_
  refine (ensures_udpHdr h hpayload (by omega)).bind fun _ _ h => ?_
  refine (ensures_udpCksum hge hlt hpayload (by omega) h).bind fun _ t h => ?_
  have hput : t.tail + len.toNat ≤ t.size := by
    rw [h.tail, h.size]
    omega
  -- the frame is read back
  have hwidth : (t.len + len.setWidth 16).toNat = len.toNat := by
    rw [h.len, BitVec.toNat_add, BitVec.toNat_setWidth]
    show (0 + len.toNat % 2 ^ 16) % 2 ^ 16 = _
    omega
  have htotal : (frameBytes data len).length = len.toNat := by
    refine h.length.trans ?_
    omega
  have hframe : (List.range (t.len + len.setWidth 16).toNat).map (fun i => t.cells (t.data + i)) =
      frameBytes data len := by
    rw [hwidth, h.data, ← htotal]
    exact h.reads.map_range
  exact ⟨(), _, if_pos hput, hframe, (congrArg List.length hframe).trans htotal⟩

/-- **A request that does not wrap is answered** with its frame. -/
theorem exists_netSetupUdpdata {allocSkb : BitVec 32 → Option SkBuff}
    (hlen : data.len.toNat + 42 < 2 ^ 32) (hdata : data.Readable)
    (halloc : allocSkb (frameLen data.len + 256 + 32) = some skb)
    (hfresh : Fresh (frameLen data.len + 256 + 32) skb) :
    ∃ t, netSetupUdpdata allocSkb (some data) = some (some t) ∧
      t.frame = frameBytes data (frameLen data.len) ∧
        t.frame.length = (frameLen data.len).toNat := by
  obtain ⟨⟨⟩, t, ht, hframe, hlength⟩ := ensures_fillSkb hlen hdata hfresh
  refine ⟨t, ?_, hframe, hlength⟩
  rw [netSetupUdpdata_eq halloc, ht]
  rfl

/-! ### What the headers leave alone -/

/-- The buffer is where it was, and the cells behind the headers are what they
were. -/
structure Kept (s t : SkBuff) : Prop where
  data : t.data = s.data
  size : t.size = s.size
  cells : ∀ i, s.data + 42 ≤ i → t.cells i = s.cells i

theorem Kept.trans {s t u : SkBuff} (h : Kept s t) (h' : Kept t u) : Kept s u where
  data := h'.data.trans h.data
  size := h'.size.trans h.size
  cells i hi := (h'.cells i (h.data ▸ hi)).trans (h.cells i hi)

/-- The command writes into the headers only. -/
def Keeps {α : Type} (m : Cmd SkBuff α) : Prop := ∀ s a t, m s = some (a, t) → Kept s t

namespace Keeps

variable {α β : Type} {m : Cmd SkBuff α} {f g : α → Cmd SkBuff β}

theorem bind (hm : Keeps m) (hf : ∀ a, Keeps (f a)) : Keeps (m >>= f) := by
  intro s b u h
  obtain ⟨⟨a, t⟩, ht, hu⟩ := Option.bind_eq_some_iff.1 h
  exact (hm s a t ht).trans (hf a t b u hu)

/-- What goes on alike wherever the buffer is kept. -/
theorem bind_congr {s : SkBuff} (hm : Keeps m) (hf : ∀ a t, Kept s t → f a t = g a t) :
    (m >>= f) s = (m >>= g) s :=
  Option.bind_congr fun r hr => hf r.1 r.2 (hm s r.1 r.2 hr)

/-- What faults wherever the buffer is kept. -/
theorem bind_eq_none {s : SkBuff} (hm : Keeps m) (hf : ∀ a t, Kept s t → f a t = none) :
    (m >>= f) s = none :=
  Option.bind_eq_none_iff.2 fun r hr => hf r.1 r.2 (hm s r.1 r.2 hr)

theorem write {off : ℕ} {bs : List Byte} (hoff : off + bs.length ≤ 42) :
    Keeps (SkBuff.write off bs) := by
  intro s a t h
  obtain ⟨-, ht⟩ := Option.ite_none_right_eq_some.1 h
  obtain ⟨-, rfl⟩ := Prod.mk.inj (Option.some.inj ht)
  refine ⟨rfl, rfl, fun i hi => ?_⟩
  have hbehind : s.data + off + bs.length ≤ i := by omega
  exact overlay_of_ge (f := fun _ b => b) (m := s.cells) hbehind

theorem read (off n : ℕ) : Keeps (SkBuff.read off n) := by
  intro s a t h
  obtain ⟨-, ht⟩ := Option.ite_none_right_eq_some.1 h
  obtain ⟨-, rfl⟩ := Prod.mk.inj (Option.some.inj ht)
  exact ⟨rfl, rfl, fun _ _ => rfl⟩

theorem put {off : ℕ} {b : Byte} (hoff : off + 1 ≤ 42) : Keeps (SkBuff.put off b) := write hoff

theorem putUnalignedBe16 {val : BitVec 16} {off : ℕ} (hoff : off + 2 ≤ 42) :
    Keeps (SkBuff.putUnalignedBe16 val off) :=
  (put (by omega)).bind fun _ => put (by omega)

theorem putUnalignedBe32 {val : BitVec 32} {off : ℕ} (hoff : off + 4 ≤ 42) :
    Keeps (SkBuff.putUnalignedBe32 val off) :=
  (putUnalignedBe16 (by omega)).bind fun _ => putUnalignedBe16 (by omega)

theorem etherHdr (data : UdpdataInfo) : Keeps (Net.etherHdr data) :=
  (write (by simp)).bind fun _ => (write (by simp)).bind fun _ => putUnalignedBe16 (by omega)

theorem ipHdr (data : UdpdataInfo) (len : BitVec 32) : Keeps (Net.ipHdr data len) :=
  (put (by omega)).bind fun _ => (put (by omega)).bind fun _ =>
  (putUnalignedBe16 (by omega)).bind fun _ => (put (by omega)).bind fun _ =>
  (put (by omega)).bind fun _ => (put (by omega)).bind fun _ => (put (by omega)).bind fun _ =>
  (put (by omega)).bind fun _ => (put (by omega)).bind fun _ => (put (by omega)).bind fun _ =>
  (put (by omega)).bind fun _ => (putUnalignedBe32 (by omega)).bind fun _ =>
  (putUnalignedBe32 (by omega)).bind fun _ => (read _ _).bind fun _ =>
  putUnalignedBe16 (by omega)

end Keeps

/-! ### A request without data -/

/-- The request as it is carried out over a buffer: where it has no data,
nothing is copied, and what is sent is what the buffer held. -/
def UdpdataInfo.over (data : UdpdataInfo) (skb : SkBuff) : UdpdataInfo :=
  { data with data := some (data.data.getD fun i => skb.cells (298 + i)) }

theorem hwMemcpy_over {n : BitVec 32} {s : SkBuff} (hplace : s.data = 256)
    (hcells : ∀ i, 298 ≤ i → s.cells i = skb.cells i) (hfit : 298 + n.toNat ≤ s.size) :
    hwMemcpy 42 data.data n s = hwMemcpy 42 (data.over skb).data n s := by
  unfold UdpdataInfo.over
  cases data.data with
  | some src => rfl
  | none =>
    -- what is stored is there
    have hreads : Reads s.cells (s.data + 42)
        ((List.range n.toNat).map fun i => skb.cells (298 + i)) := by
      intro i v hv
      obtain ⟨hi, rfl⟩ := List.getElem?_eq_some_iff.1 hv
      rw [List.getElem_map, List.getElem_range, hplace]
      exact hcells _ (by omega)
    have hlen : s.data + 42 + ((List.range n.toNat).map fun i => skb.cells (298 + i)).length ≤
        s.size := by
      rw [List.length_map, List.length_range, hplace]
      exact hfit
    show some ((), s) = SkBuff.write 42 ((List.range n.toNat).map fun i => skb.cells (298 + i)) s
    rw [SkBuff.write, if_pos hlen, hreads.overlay_eq]

theorem udpHdr_over {len : BitVec 32} {s : SkBuff} (hplace : s.data = 256)
    (hcells : ∀ i, 298 ≤ i → s.cells i = skb.cells i) (hfit : 298 + (len - 42).toNat ≤ s.size) :
    udpHdr data len s = udpHdr (data.over skb) len s := by
  refine (Keeps.putUnalignedBe16 (by omega)).bind_congr fun _ t₁ h₁ => ?_
  refine (Keeps.putUnalignedBe16 (by omega)).bind_congr fun _ t₂ h₂ => ?_
  refine (Keeps.putUnalignedBe16 (by omega)).bind_congr fun _ t₃ h₃ => ?_
  refine (Keeps.put (by omega)).bind_congr fun _ t₄ h₄ => ?_
  refine (Keeps.put (by omega)).bind_congr fun _ t₅ h₅ => ?_
  have hkept := (((h₁.trans h₂).trans h₃).trans h₄).trans h₅
  refine hwMemcpy_over (hkept.data.trans hplace) (fun i hi => ?_) (hkept.size ▸ hfit)
  exact (hkept.cells i (by rw [hplace]; exact hi)).trans (hcells i hi)

/-- **Without data** the buffer is filled as with its own bytes for data. -/
theorem fillSkb_over {len : BitVec 32} (hplace : skb.data = 0)
    (hfit : 298 + (len - 42).toNat ≤ skb.size) :
    fillSkb data len skb = fillSkb (data.over skb) len skb := by
  refine Option.bind_congr fun r hr => ?_
  obtain ⟨-, ht⟩ := Option.ite_none_right_eq_some.1 hr
  obtain rfl := Option.some.inj ht
  refine (Keeps.etherHdr data).bind_congr fun _ t₁ h₁ => ?_
  refine (Keeps.ipHdr data len).bind_congr fun _ t₂ h₂ => ?_
  have hkept := h₁.trans h₂
  have hhdr : udpHdr data len t₂ = udpHdr (data.over skb) len t₂ := by
    refine udpHdr_over ?_ (fun i hi => hkept.cells i ?_) (hkept.size ▸ hfit)
    · rw [hkept.data, hplace]
    · rw [hplace]
      exact hi
  exact congrArg (fun r => Option.bind r _) hhdr

/-- **A request that does not wrap is answered**, with data or without. -/
theorem exists_netSetupUdpdata_over {allocSkb : BitVec 32 → Option SkBuff}
    (hlen : data.len.toNat + 42 < 2 ^ 32)
    (halloc : allocSkb (frameLen data.len + 256 + 32) = some skb)
    (hfresh : Fresh (frameLen data.len + 256 + 32) skb) :
    ∃ t, netSetupUdpdata allocSkb (some data) = some (some t) ∧
      t.frame = frameBytes (data.over skb) (frameLen data.len) ∧
        t.frame.length = (frameLen data.len).toNat := by
  have hanswer : ∃ t, netSetupUdpdata allocSkb (some (data.over skb)) = some (some t) ∧
      t.frame = frameBytes (data.over skb) (frameLen data.len) ∧
        t.frame.length = (frameLen data.len).toNat :=
    exists_netSetupUdpdata hlen (.inl rfl) halloc hfresh
  have hover : netSetupUdpdata allocSkb (some (data.over skb)) =
      (fillSkb (data.over skb) (frameLen data.len) skb).map fun r => some r.2 :=
    netSetupUdpdata_eq halloc
  have hL := frameLen_toNat hlen
  have hroom := hfresh.room (by omega)
  have hpay : (frameLen data.len - 42).toNat = (frameLen data.len).toNat - 42 :=
    toNat_sub_42 (by omega)
  obtain ⟨t, ht, hframe⟩ := hanswer
  refine ⟨t, ?_, hframe⟩
  rw [← ht, netSetupUdpdata_eq halloc, hover, fillSkb_over hfresh.data (by omega)]

/-! ### When the length wraps -/

/-- A copy that is larger than the buffer. -/
theorem udpHdr_eq_none {len : BitVec 32} (hdata : data.data.isSome = true)
    (hlarge : skb.size < skb.data + 42 + (len - 42).toNat) : udpHdr data len skb = none := by
  refine (Keeps.putUnalignedBe16 (by omega)).bind_eq_none fun _ t₁ h₁ => ?_
  refine (Keeps.putUnalignedBe16 (by omega)).bind_eq_none fun _ t₂ h₂ => ?_
  refine (Keeps.putUnalignedBe16 (by omega)).bind_eq_none fun _ t₃ h₃ => ?_
  refine (Keeps.put (by omega)).bind_eq_none fun _ t₄ h₄ => ?_
  refine (Keeps.put (by omega)).bind_eq_none fun _ t₅ h₅ => ?_
  have hkept := (((h₁.trans h₂).trans h₃).trans h₄).trans h₅
  obtain ⟨src, hsrc⟩ := Option.isSome_iff_exists.1 hdata
  rw [hsrc]
  refine if_neg ?_
  rw [List.length_map, List.length_range, hkept.data, hkept.size]
  omega

/-- **When the length wraps** the payload is copied over the end of every
buffer. -/
theorem fillSkb_eq_none (hlen : 2 ^ 32 ≤ data.len.toNat + 42) (hdata : data.Readable)
    (hfresh : Fresh (frameLen data.len + 256 + 32) skb) :
    fillSkb data (frameLen data.len) skb = none := by
  have hlt := data.len.isLt
  have hsum : (data.len + 42).toNat = data.len.toNat + 42 - 2 ^ 32 := by
    rw [BitVec.toNat_add]
    show (data.len.toNat + 42) % 2 ^ 32 = _
    omega
  have hL : frameLen data.len = data.len + 42 := by
    refine if_neg fun hlong => ?_
    rw [BitVec.lt_def, hsum] at hlong
    have h1500 : (1500 : BitVec 32).toNat = 1500 := rfl
    omega
  have hsome : data.data.isSome = true := by
    refine hdata.resolve_right fun hzero => ?_
    rw [hzero] at hlen
    exact absurd hlen (by decide)
  rw [hL]
  have hcopy : (data.len + 42 - 42).toNat = data.len.toNat := by rw [BitVec.add_sub_cancel]
  refine Option.bind_eq_none_iff.2 fun r hr => ?_
  obtain ⟨-, ht⟩ := Option.ite_none_right_eq_some.1 hr
  obtain rfl := Option.some.inj ht
  refine (Keeps.etherHdr data).bind_eq_none fun _ t₁ h₁ => ?_
  refine (Keeps.ipHdr _ _).bind_eq_none fun _ t₂ h₂ => ?_
  refine Option.bind_eq_none_iff.2 fun r hr => ?_
  have hbound := hfresh.bound
  have hnone : udpHdr data (data.len + 42) t₂ = none := by
    refine udpHdr_eq_none hsome ?_
    rw [hcopy, h₂.data, h₂.size, h₁.data, h₁.size]
    show skb.size < skb.data + 256 + 42 + data.len.toNat
    omega
  exact nomatch hnone.symm.trans hr

end Whole

end Net

end Hgsdk

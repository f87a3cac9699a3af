import Hgsdk.Common.Overlay
import Hgsdk.Typesdef
/-!
# The Ethernet interface of lwIP

`lib/lwip/src/netif/ethernetif.c`: a received frame is copied into a chain
of pbufs, and a chain that is sent goes to the network device either as a
scatter list or as one buffer.

A pointer is what is read through it, so a pbuf is a payload pointer and a
length. An array is indexed without a bound, and the places that are
written are recorded: whether they are inside is for the theorems to say.
The statistics are left out.
-/

namespace Hgsdk

namespace Ethernetif

/-- `n` cells from a pointer on. -/
def load {α : Type} (src : ℕ → α) (off n : ℕ) : List α := (List.range n).map fun i => src (off + i)

/-- `struct pbuf`, without the link to the next. -/
structure Pbuf where
  payload : ℕ → Byte
  len : BitVec 16

/-- The bytes of a pbuf. -/
def Pbuf.bytes (q : Pbuf) : List Byte := load q.payload 0 q.len.toNat

/-- **The payload of a chain**, put end to end. -/
def payload (p : List Pbuf) : List Byte := p.flatMap Pbuf.bytes

/-- The lengths of a chain, added up. -/
def total (p : List Pbuf) : ℕ := (p.map fun q => q.len.toNat).sum

/-! ### Receiving -/

/-- `hw_memcpy(q->payload, data, q->len)`. -/
def Pbuf.hwMemcpy (q : Pbuf) (data : ℕ → Byte) : Pbuf :=
  { q with payload := overlay (fun _ v => v) q.payload 0 (load data 0 q.len.toNat) }

/-- The loop of `low_level_input`; `data` stays where it is. -/
def copyLoop (data : ℕ → Byte) : List Pbuf → List Pbuf
  | [] => []
  | q :: p => q.hwMemcpy data :: copyLoop data p

/-- `low_level_input`; `pbuf_alloc` takes the length as a `u16_t`. -/
def lowLevelInput (pbufAlloc : BitVec 16 → Option (List Pbuf)) (data : ℕ → Byte)
    (dataLen : BitVec 32) : Option (List Pbuf) :=
  (pbufAlloc (dataLen.setWidth 16)).map (copyLoop data)

/-- `ethernetif_input`: the chain that `netif->input` is given, and whether
it is freed here. -/
def ethernetifInput (pbufAlloc : BitVec 16 → Option (List Pbuf)) (input : List Pbuf → BitVec 8)
    (data : ℕ → Byte) (dataLen : BitVec 32) : Option (List Pbuf × Bool) :=
  (lowLevelInput pbufAlloc data dataLen).map fun p => (p, input p != 0)

/-! ### Sending -/

/-- `MIN_PACKET_LEN`. -/
def minPacketLen : BitVec 16 := 14

/-- `MAX_TRANS_UNIT`. -/
def maxTransUnit : ℕ := 1500

/-- `MAX_NETWORK_LAYER`, the size of `scat_data`. -/
def maxNetworkLayer : ℕ := 8

/-- The size of `tx_buf`. -/
def txBufSize : ℕ := 1600

/-- `struct netdev_scatter_data`; `addr` may be null. -/
structure ScatterData where
  addr : Option (ℕ → Byte)
  size : BitVec 32

/-- The bytes it stands for. -/
def ScatterData.bytes (d : ScatterData) : List Byte :=
  match d.addr with
  | none => []
  | some addr => load addr 0 d.size.toNat

/-- `ethernetif_get_scatter_data` under way. -/
structure Scatter where
  count : BitVec 16
  data : ℕ → ScatterData
  written : List ℕ

/-- The pass of its loop over one pbuf. -/
def Scatter.add (s : Scatter) (q : Pbuf) : Scatter where
  count := s.count + 1
  data := Function.update s.data s.count.toNat ⟨some q.payload, q.len.setWidth 32⟩
  written := s.written ++ [s.count.toNat]

/-- `ethernetif_get_scatter_data`. -/
def ethernetifGetScatterData (p : List Pbuf) (data : ℕ → ScatterData) : Scatter :=
  p.foldl Scatter.add ⟨0, data, []⟩

/-- `ethernetif_pbuf_convert` under way. -/
structure Convert where
  len : BitVec 16
  buf : ℕ → Byte
  written : List ℕ

/-- The pass of its loop over one pbuf. -/
def Convert.add (c : Convert) (q : Pbuf) : Convert where
  len := c.len + q.len
  buf := overlay (fun _ v => v) c.buf c.len.toNat q.bytes
  written := c.written ++ List.range' c.len.toNat q.len.toNat

/-- `ethernetif_pbuf_convert`. -/
def ethernetifPbufConvert (p : List Pbuf) (buf : ℕ → Byte) : Convert :=
  p.foldl Convert.add ⟨0, buf, []⟩

/-- What the network device is passed. -/
inductive Sent where
  | scatter (data : ℕ → ScatterData) (count : BitVec 16)
  | buffer (buf : ℕ → Byte) (size : BitVec 16)

/-- **The bytes that go out.** -/
def Sent.bytes : Sent → List Byte
  | .scatter data count => (load data 0 count.toNat).flatMap ScatterData.bytes
  | .buffer buf size => load buf 0 size.toNat

/-- What `low_level_output` has done: what it returns, what it has sent, the
places it has written in `scat_data` and in `tx_buf`, and `tx_buf`. -/
structure Output where
  ret : BitVec 8
  sent : Option Sent
  scatData : List ℕ
  txWritten : List ℕ
  txBuf : ℕ → Byte

/-- `low_level_output` of a chain with this `tot_len`. The device has
`send_scatter_data` or not, and `send` is what it answers. -/
def lowLevelOutput (sendScatterData : Bool) (send : Sent → CInt) (txBuf : ℕ → Byte)
    (p : List Pbuf) (totLen : BitVec 16) : Output :=
  if totLen < minPacketLen then ⟨0, none, [], [], txBuf⟩
  else if sendScatterData then
    let s := ethernetifGetScatterData p fun _ => ⟨none, 0⟩
    let sent := Sent.scatter s.data s.count
    ⟨(send sent).setWidth 8, some sent, s.written, [], txBuf⟩
  else
    let c := ethernetifPbufConvert p txBuf
    let sent := Sent.buffer c.buf c.len
    ⟨(send sent).setWidth 8, some sent, [], c.written, c.buf⟩

/-! ### Cells in a row -/

variable {α : Type} {src : ℕ → α} {off m n : ℕ}

@[simp] theorem length_load : (load src off n).length = n := by simp [load]

theorem load_add : load src off (m + n) = load src off m ++ load src (off + m) n := by
  rw [load, List.range_add, List.map_append, List.map_map]
  simp only [load, Function.comp_def, Nat.add_assoc]

theorem load_eq_load_iff {src' : ℕ → α} {off' : ℕ} :
    load src off n = load src' off' n ↔ ∀ i < n, src (off + i) = src' (off' + i) := by
  simp [load]

/-- What was stored is loaded again. -/
theorem load_overlay (m : ℕ → α) (xs : List α) :
    load (overlay (fun _ v => v) m 0 xs) 0 xs.length = xs := reads_overlay.map_range

@[simp] theorem length_bytes (q : Pbuf) : q.bytes.length = q.len.toNat := length_load

theorem length_payload (p : List Pbuf) : (payload p).length = total p := by
  simp [payload, total, List.length_flatMap]

end Ethernetif

end Hgsdk

import Hgsdk.Ethernetif.Model
/-!
# The two ways out

A chain goes out as a scatter list or as one buffer. Either way the bytes
are the chain's. A packet always fits into `tx_buf`. The scatter list has
one entry for each pbuf, and there is room for eight.
-/

namespace Hgsdk

namespace Ethernetif

variable {p : List Pbuf}

/-! ### One buffer -/

/-- What the loop of `ethernetif_pbuf_convert` leaves, while the lengths
stay below `2 ^ 16`. -/
theorem foldl_convert (c : Convert) (h : c.len.toNat + total p < 2 ^ 16) :
    (p.foldl Convert.add c).len.toNat = c.len.toNat + total p ∧
      (p.foldl Convert.add c).buf = overlay (fun _ v => v) c.buf c.len.toNat (payload p) ∧
      (p.foldl Convert.add c).written = c.written ++ List.range' c.len.toNat (total p) := by
  induction p generalizing c with
  | nil => simp [total, payload]
  | cons q p ih =>
    have htotal : total (q :: p) = q.len.toNat + total p := by simp [total]
    have hlen : (c.add q).len.toNat = c.len.toNat + q.len.toNat := by
      rw [Convert.add, BitVec.toNat_add, Nat.mod_eq_of_lt (by omega)]
    obtain ⟨hl, hb, hw⟩ := ih (c.add q) (by omega)
    rw [List.foldl_cons]
    refine ⟨by omega, ?_, ?_⟩
    · have hpayload : payload (q :: p) = q.bytes ++ payload p := rfl
      rw [hb, hlen, hpayload, ← overlay_append, length_bytes]
      rfl
    · rw [hw, hlen, htotal, ← List.range'_append_1, ← List.append_assoc]
      rfl

/-- **What `ethernetif_pbuf_convert` leaves.** -/
theorem ethernetifPbufConvert_spec (h : total p < 2 ^ 16) (buf : ℕ → Byte) :
    (ethernetifPbufConvert p buf).len.toNat = total p ∧
      (ethernetifPbufConvert p buf).buf = overlay (fun _ v => v) buf 0 (payload p) ∧
      (ethernetifPbufConvert p buf).written = List.range' 0 (total p) := by
  simpa [ethernetifPbufConvert] using foldl_convert (p := p) ⟨0, buf, []⟩ (by simpa using h)

/-! ### A scatter list -/

/-- The entry of a pbuf. -/
def Pbuf.entry (q : Pbuf) : ScatterData := ⟨some q.payload, q.len.setWidth 32⟩

theorem bytes_entry (q : Pbuf) : q.entry.bytes = q.bytes := by
  have hlen : (q.len.setWidth 32).toNat = q.len.toNat := by
    rw [BitVec.toNat_setWidth, Nat.mod_eq_of_lt (q.len.isLt.trans (by decide))]
  simp only [Pbuf.entry, ScatterData.bytes, hlen, Pbuf.bytes]

/-- **The places it writes**, for any number of pbufs. -/
theorem written_foldl_scatter (s : Scatter) :
    (p.foldl Scatter.add s).written =
      s.written ++ (List.range p.length).map fun i => (s.count + BitVec.ofNat 16 i).toNat := by
  induction p generalizing s with
  | nil => simp
  | cons q p ih =>
    have hnext : ∀ i, s.count.toNat + 1 + i = s.count.toNat + (i + 1) := by omega
    rw [List.foldl_cons, ih, List.length_cons, List.range_succ_eq_map, List.map_cons, List.map_map]
    simp [Scatter.add, hnext]

/-- What the loop of `ethernetif_get_scatter_data` leaves, while the count
stays below `2 ^ 16`. -/
theorem foldl_scatter (s : Scatter) (h : s.count.toNat + p.length < 2 ^ 16) :
    (p.foldl Scatter.add s).count.toNat = s.count.toNat + p.length ∧
      (p.foldl Scatter.add s).data =
        overlay (fun _ v => v) s.data s.count.toNat (p.map Pbuf.entry) := by
  induction p generalizing s with
  | nil => simp
  | cons q p ih =>
    rw [List.length_cons] at h
    have hcount : (s.add q).count.toNat = s.count.toNat + 1 := by
      rw [Scatter.add, BitVec.toNat_add, Nat.mod_eq_of_lt (by simp; omega)]
      rfl
    obtain ⟨hc, hd⟩ := ih (s.add q) (by omega)
    rw [List.foldl_cons]
    refine ⟨by rw [hc, List.length_cons]; omega, ?_⟩
    rw [hd, hcount, List.map_cons, overlay_cons]
    rfl

/-- **What `ethernetif_get_scatter_data` leaves.** -/
theorem ethernetifGetScatterData_spec (h : p.length < 2 ^ 16) (data : ℕ → ScatterData) :
    (ethernetifGetScatterData p data).count.toNat = (p.map Pbuf.entry).length ∧
      (ethernetifGetScatterData p data).data =
        overlay (fun _ v => v) data 0 (p.map Pbuf.entry) := by
  simpa [ethernetifGetScatterData] using foldl_scatter (p := p) ⟨0, data, []⟩ (by simpa using h)

/-- **What is sent as a scatter list** is the chain. -/
theorem bytes_scatter (h : p.length < 2 ^ 16) (data : ℕ → ScatterData) :
    (Sent.scatter (ethernetifGetScatterData p data).data
      (ethernetifGetScatterData p data).count).bytes = payload p := by
  obtain ⟨hcount, hdata⟩ := ethernetifGetScatterData_spec h data
  rw [Sent.bytes, hcount, hdata, load_overlay, List.flatMap_map]
  simp only [bytes_entry]
  rfl

/-- **It stays inside `scat_data`** where there are at most eight pbufs. -/
theorem scatter_inside_iff (data : ℕ → ScatterData) :
    (∀ i ∈ (ethernetifGetScatterData p data).written, i < maxNetworkLayer) ↔
      p.length ≤ maxNetworkLayer := by
  have hwritten : (ethernetifGetScatterData p data).written =
      (List.range p.length).map (· % 2 ^ 16) := by
    simpa [ethernetifGetScatterData] using written_foldl_scatter (p := p) ⟨0, data, []⟩
  rw [hwritten]
  simp only [List.forall_mem_map, List.mem_range]
  constructor
  · intro h
    by_contra hgt
    have h8 := h maxNetworkLayer (by omega)
    exact absurd h8 (by decide)
  · intro h i hi
    exact (Nat.mod_le i _).trans_lt (hi.trans_le h)

/-! ### Both ways -/

/-- **The two ways out send the same bytes.** For a chain whose `tot_len` is
what its lengths add up to, with at least a header and at most a packet:
as one buffer it always goes out whole and inside `tx_buf`; as a scatter
list it does so, inside `scat_data`, where it has at most eight pbufs. -/
theorem transmit_paths (totLen : BitVec 16) (hsum : totLen.toNat = total p)
    (hmin : 14 ≤ totLen.toNat) (hmax : totLen.toNat ≤ maxTransUnit + 14) (send : Sent → CInt)
    (txBuf : ℕ → Byte) :
    ((∃ buf, (lowLevelOutput false send txBuf p totLen).sent = some (.buffer buf totLen) ∧
        (Sent.buffer buf totLen).bytes = payload p) ∧
      ∀ i ∈ (lowLevelOutput false send txBuf p totLen).txWritten, i < txBufSize) ∧
    (((∃ data count,
        (lowLevelOutput true send txBuf p totLen).sent = some (.scatter data count) ∧
          (Sent.scatter data count).bytes = payload p) ∧
        ∀ i ∈ (lowLevelOutput true send txBuf p totLen).scatData, i < maxNetworkLayer) ↔
      p.length ≤ maxNetworkLayer) := by
  have hlong : ¬ totLen < minPacketLen := by
    rw [BitVec.lt_def]
    exact not_lt.2 hmin
  have hsmall : total p ≤ 1514 := hsum ▸ hmax
  constructor
  · obtain ⟨hlen, hbuf, hwritten⟩ := ethernetifPbufConvert_spec (p := p) (by omega) txBuf
    have hsize : (ethernetifPbufConvert p txBuf).len = totLen :=
      BitVec.eq_of_toNat_eq (hlen.trans hsum.symm)
    simp only [lowLevelOutput, if_neg hlong, Bool.false_eq_true, if_false, hsize]
    refine ⟨⟨_, rfl, ?_⟩, ?_⟩
    · have hload := load_overlay txBuf (payload p)
      rw [length_payload, ← hsum] at hload
      rw [Sent.bytes, hbuf]
      exact hload
    · intro i hi
      rw [hwritten, List.mem_range'_1] at hi
      have hsize : txBufSize = 1600 := rfl
      omega
  · simp only [lowLevelOutput, if_neg hlong, if_true]
    constructor
    · rintro ⟨-, hinside⟩
      exact (scatter_inside_iff _).1 hinside
    · intro h
      have hlt : p.length < 2 ^ 16 := h.trans_lt (by decide)
      exact ⟨⟨_, _, rfl, bytes_scatter hlt _⟩, (scatter_inside_iff _).2 h⟩

/-- A chain of two pbufs goes out as a scatter list. -/
theorem transmit_paths_two :
    (∃ data count,
      (lowLevelOutput true (fun _ => 0) (fun _ => 0) [⟨fun _ => 1, 14⟩, ⟨fun _ => 2, 46⟩] 60).sent =
          some (.scatter data count) ∧
        (Sent.scatter data count).bytes = payload [⟨fun _ => 1, 14⟩, ⟨fun _ => 2, 46⟩]) ∧
      ∀ i ∈ (lowLevelOutput true (fun _ => 0) (fun _ => 0) [⟨fun _ => 1, 14⟩, ⟨fun _ => 2, 46⟩]
        60).scatData, i < maxNetworkLayer :=
  (transmit_paths 60 rfl (by decide) (by decide) (fun _ => 0) fun _ => 0).2.2 (by decide)

/-- **Fourteen pbufs of a byte** are a packet that is written over the end
of `scat_data`. -/
theorem transmit_paths_overrun :
    (14#16).toNat = total (List.replicate 14 ⟨fun _ => 0, 1⟩) ∧
      8 ∈ (lowLevelOutput true (fun _ => 0) (fun _ => 0) (List.replicate 14 ⟨fun _ => 0, 1⟩)
        14).scatData :=
  ⟨by decide, by decide⟩

end Ethernetif

end Hgsdk

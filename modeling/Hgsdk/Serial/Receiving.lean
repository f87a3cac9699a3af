import Hgsdk.Serial.Sending
/-!
# A read by the master, with and without DMA

The loop clocks each byte in with a write of its own. With DMA two channels
are at work: the sending one makes the clock, the receiving one empties the
FIFO, and the read returns when both have moved their block.
-/

namespace Hgsdk

namespace Serial

open Dmac

variable {P : Periphs} {buf size : BitVec 32} {dma dma' : HgdmaDw Hdl} {ch : Chan}

variable {line : ℕ → Byte}

/-! ### The loop -/

/-- The stores of `n` bytes clocked in, from the `c`-th on. -/
def receivedAt (line : ℕ → Byte) (c : ℕ) (buf : BitVec 32) (n : ℕ) : List (BitVec 32 × Byte) :=
  (List.range n).map fun k => (buf + BitVec.ofNat 32 k, line (c + k))

theorem receivedAt_succ {c n : ℕ} :
    receivedAt line c buf (n + 1) = (buf, line c) :: receivedAt line (c + 1) (buf + 1) n := by
  rw [receivedAt, List.range_succ_eq_map, List.map_cons, List.map_map, BitVec.ofNat_eq_ofNat,
    BitVec.add_zero]
  refine congrArg _ (List.map_congr_left fun k _ => ?_)
  exact congrArg₂ Prod.mk (add_ofNat_succ k) (congrArg line (by omega))

theorem receivedAt_concat {c n : ℕ} : receivedAt line c buf (n + 1) =
    receivedAt line c buf n ++ [(buf + BitVec.ofNat 32 n, line (c + n))] := by
  rw [receivedAt, List.range_succ, List.map_append]
  rfl

theorem length_receivedAt (line : ℕ → Byte) (c : ℕ) (buf : BitVec 32) (n : ℕ) :
    (receivedAt line c buf n).length = n := by
  simp [receivedAt]

theorem receivedAt_inj {c n m : ℕ} {xs : List (BitVec 32 × Byte)} :
    xs ++ receivedAt line c buf n = xs ++ receivedAt line c buf m ↔ n = m := by
  refine ⟨fun h => ?_, fun h => by rw [h]⟩
  have hlen := congrArg List.length (List.append_cancel_left h)
  rwa [length_receivedAt, length_receivedAt] at hlen

/-- Whatever is written, a byte is clocked in. -/
theorem putData_receiveOnly (line : ℕ → Byte) (b : Byte) {spi : Spi} (h : spi.tmod = .receiveOnly) :
    spi.putData line b = spi.clockIn line := by
  simp only [Spi.putData, h]

/-- The master clocks each byte in with a write. -/
theorem receiveLoop_stored (line : ℕ → Byte) (n : ℕ) : ∀ (p : BitVec 32) (s : Sys),
    s.spi.ser = true → s.spi.tmod = .receiveOnly → s.spi.rxFifo = [] →
    ∃ t, Sys.receiveLoop line n p s = some t ∧
      t.stored = s.stored ++ receivedAt line s.spi.clocked p n ∧
      t.spi.clocked = s.spi.clocked + n := by
  induction n with
  | zero => exact fun _ s _ _ _ => ⟨s, rfl, (List.append_nil _).symm, rfl⟩
  | succ n ih =>
    intro p s hser hmode hfifo
    have hput : s.spi.putData line 0xFF = { s.spi with
        rxFifo := [line s.spi.clocked], clocked := s.spi.clocked + 1 } := by
      rw [putData_receiveOnly line 0xFF hmode, Spi.clockIn, hfifo, List.nil_append]
    obtain ⟨t, ht, hstored, hclocked⟩ := ih (p + 1) ({ s with spi := { s.spi with
      rxFifo := [], clocked := s.spi.clocked + 1 } }.store p (line s.spi.clocked)) hser hmode rfl
    refine ⟨t, ?_, ?_, hclocked.trans (Nat.add_right_comm ..)⟩
    · rw [Sys.receiveLoop, if_pos hser, hput]
      exact ht
    · rw [hstored, receivedAt_succ]
      exact List.append_assoc ..

/-- The master while its two channels are at work. -/
structure Busy (dma : HgdmaDw Hdl) (s : Sys) : Prop where
  device : s.dma = some dma
  ser : s.spi.ser = true
  mode : s.spi.tmod = .receiveOnly
  tdmae : s.spi.tdmae = true
  rdmae : s.spi.rdmae = true
  txDmaSema : s.txDmaSema = 0
  rxDmaSema : s.rxDmaSema = 0

variable {s s₀ : Sys} {n out into : ℕ} {mem : BitVec 32 → Byte} {tx rx : ChRegs} {beat : Beat}
variable {d d' : Duplex} {chT chR : Chan}

/-- Moving bytes leaves it so. -/
theorem Busy.moved (h : Busy dma s) (mem : BitVec 32 → Byte) (stored : List (BitVec 32 × Byte))
    (rxFifo : List Byte) (clocked : ℕ) :
    Busy dma { s with mem, stored, spi := { s.spi with rxFifo, clocked } } :=
  ⟨h.device, h.ser, h.mode, h.tdmae, h.rdmae, h.txDmaSema, h.rxDmaSema⟩

/-- The other end makes no clock. -/
theorem Busy.step_line (h : Busy dma d.sys) :
    (duplex line (some tx) (some rx)).step d .line = none := if_pos h.ser

/-! ### The end of the read -/

/-- Two channels set up for a read by the master. -/
structure SetUp (dma : HgdmaDw Hdl) (n : ℕ) (chT chR : Chan) : Prop where
  tx : (dma.ch chT).blockTs = n
  rx : (dma.ch chR).blockTs = n
  txHdl : dma.irqHdl chT = some .spiTx
  rxHdl : dma.irqHdl chR = some .spiRx

/-- The interrupt of the sending channel posts its semaphore. -/
theorem finish_spiTx (hdma : s.dma = some dma) (hhdl : dma.irqHdl ch = some .spiTx) :
    ∃ dma', s.finish (BitVec.ofNat 32 ch) =
      { s with dma := some dma', txDmaSema := s.txDmaSema + 1 } ∧ dma'.irqHdl = dma.irqHdl := by
  have hhdl' : ((dma.clear .done ch).mark .done ch).irqHdl ch = some .spiTx := hhdl
  refine ⟨((dma.clear .done ch).mark .done ch).dwDmacStop ch, ?_, HgdmaDw.dwDmacStop_irqHdl _ ch⟩
  simp only [Sys.finish, hdma, chanOf_ofNat, hhdl']

/-- So does that of the receiving one. -/
theorem finish_spiRx (s : Sys) (ch : Chan) (hdma : s.dma = some dma)
    (hhdl : dma.irqHdl ch = some .spiRx) :
    ∃ dma', s.finish (BitVec.ofNat 32 ch) =
      { s with dma := some dma', rxDmaSema := s.rxDmaSema + 1 } := by
  have hhdl' : ((dma.clear .done ch).mark .done ch).irqHdl ch = some .spiRx := hhdl
  refine ⟨((dma.clear .done ch).mark .done ch).dwDmacStop ch, ?_⟩
  simp only [Sys.finish, hdma, chanOf_ofNat, hhdl']

theorem duplex_finish (h : SetUp dma n chT chR) (hbusy : Busy dma d.sys) :
    d.finish (BitVec.ofNat 32 chT) (BitVec.ofNat 32 chR) =
      let s := if d.out = n then d.sys.finish (BitVec.ofNat 32 chT) else d.sys
      if d.into = n then s.finish (BitVec.ofNat 32 chR) else s := by
  have hregs : ∀ ch : Chan, d.sys.regs (BitVec.ofNat 32 ch) = some (dma.ch ch) := by
    intro ch
    simp only [Sys.regs, hbusy.device, chanOf_ofNat]
    rfl
  simp only [Duplex.finish, hregs, Option.any_some, h.tx, h.rx, decide_eq_true_eq]

/-- **The read returns when both channels have moved their block**, and
not before. -/
theorem waitDone_finish (h : SetUp dma n chT chR) (hbusy : Busy dma d.sys) {t : Sys}
    (ht : (d.finish (BitVec.ofNat 32 chT) (BitVec.ofNat 32 chR)).waitDone = some t) :
    d.out = n ∧ d.into = n ∧ t.stored = d.sys.stored ∧ t.spi.clocked = d.sys.spi.clocked := by
  rw [duplex_finish h hbusy] at ht
  dsimp only at ht
  by_cases hout : d.out = n
  · obtain ⟨dma₁, hfin, hhdl⟩ := finish_spiTx hbusy.device h.txHdl
    rw [if_pos hout, hfin] at ht
    by_cases hinto : d.into = n
    · obtain ⟨dma₂, hfin₂⟩ := finish_spiRx
        { d.sys with dma := some dma₁, txDmaSema := d.sys.txDmaSema + 1 } chR rfl
        ((congrFun hhdl chR).trans h.rxHdl)
      rw [if_pos hinto, hfin₂] at ht
      refine ⟨hout, hinto, ?_⟩
      simp only [Sys.waitDone, Sys.txDown, Sys.rxDown, hbusy.ser, if_true, Nat.add_one_ne_zero,
        if_false, Option.bind_some, Option.map_some, Option.some.injEq] at ht
      rw [← ht]
      exact ⟨rfl, rfl⟩
    · rw [if_neg hinto] at ht
      simp [Sys.waitDone, Sys.txDown, Sys.rxDown, hbusy.ser, hbusy.rxDmaSema] at ht
  · rw [if_neg hout] at ht
    by_cases hinto : d.into = n
    · obtain ⟨dma₂, hfin₂⟩ := finish_spiRx d.sys chR hbusy.device h.rxHdl
      rw [if_pos hinto, hfin₂] at ht
      simp [Sys.waitDone, Sys.txDown, hbusy.ser, hbusy.txDmaSema] at ht
    · rw [if_neg hinto] at ht
      simp [Sys.waitDone, Sys.txDown, hbusy.ser, hbusy.txDmaSema] at ht

theorem exists_waitDone (h : SetUp dma n chT chR) (hbusy : Busy dma d.sys) (hout : d.out = n)
    (hinto : d.into = n) :
    ∃ t, (d.finish (BitVec.ofNat 32 chT) (BitVec.ofNat 32 chR)).waitDone = some t := by
  obtain ⟨dma₁, hfin, hhdl⟩ := finish_spiTx hbusy.device h.txHdl
  obtain ⟨dma₂, hfin₂⟩ := finish_spiRx
    { d.sys with dma := some dma₁, txDmaSema := d.sys.txDmaSema + 1 } chR rfl
    ((congrFun hhdl chR).trans h.rxHdl)
  rw [duplex_finish h hbusy]
  dsimp only
  rw [if_pos hout, if_pos hinto, hfin, hfin₂]
  simp [Sys.waitDone, Sys.txDown, Sys.rxDown, hbusy.ser]

/-- The device when the DMA branch has made its two requests and the
controller is `dma`. -/
def Sys.requested (s : Sys) (dma : HgdmaDw Hdl) : Sys :=
  { s with
    spi := { s.spi.hgspiDwSetMode .receiveOnly with rdmae := true }
    dma := some dma }

theorem busy_requested (dma' : HgdmaDw Hdl) (h : Ready s dma) (hser : s.spi.ser = true) :
    Busy dma' (s.requested dma') :=
  { device := rfl
    ser := hser
    mode := rfl
    tdmae := h.tdmae
    rdmae := rfl
    txDmaSema := h.txDmaSema
    rxDmaSema := h.rxDmaSema }

/-- **The DMA branch is the two channels at work.** -/
theorem hgspiDwRead_dma {Tx Rx : ChRegs → Prop} (line : ℕ → Byte) (h : Ready s dma)
    (hser : s.spi.ser = true) (hsize : 4 < size)
    (hTx : Grants P (txData s.spi.dataReg buf size s.self .spiTx) .spiTx Tx)
    (hRx : Grants P (rxData s.spi.dataReg buf size s.self .spiRx) .spiRx Rx)
    (htx : ∀ {regs}, Tx regs → regs.blockTs = n) (hrx : ∀ {regs}, Rx regs → regs.blockTs = n) :
    ∃ dma₂ chT chR, SetUp dma₂ n chT chR ∧ Tx (dma₂.ch chT) ∧ Rx (dma₂.ch chR) ∧
      ∀ schedule, s.hgspiDwRead P line schedule buf size =
        (((duplex line (some (dma₂.ch chT)) (some (dma₂.ch chR))).run
          ⟨s.requested dma₂, 0, 0⟩ schedule).bind
            fun d => (d.finish (BitVec.ofNat 32 chT) (BitVec.ofNat 32 chR)).waitDone).map
              fun t => { t with spi := t.spi.hgspiDwSetMode .transmitOnly } := by
  obtain ⟨c, c', hne, hc, hc'⟩ := h.two.free
  obtain ⟨chR, dma₁, heq₁, hgrant₁, hregsR⟩ := hRx dma h.two.opened ⟨c, hc⟩
  -- of two free channels one is left
  have hleft : ∃ ch, dma₁.used ch = false := by
    by_cases hR : chR = c
    · refine ⟨c', ?_⟩
      rw [hgrant₁.used, hc', decide_eq_false (hR ▸ hne)]
      rfl
    · refine ⟨c, ?_⟩
      rw [hgrant₁.used, hc, decide_eq_false hR]
      rfl
  obtain ⟨chT, dma₂, heq₂, hgrant₂, hregsT⟩ :=
    hTx dma₁ (hgrant₁.opened.trans h.two.opened) hleft
  have hRT : chR ≠ chT := by
    rintro rfl
    have hused := hgrant₂.free
    rw [hgrant₁.used, decide_eq_true rfl, Bool.or_true] at hused
    cases hused
  obtain ⟨hregs, hhdl⟩ := hgrant₂.others chR hRT
  rw [← hregs] at hregsR
  refine ⟨dma₂, chT, chR, ?_, hregsT, hregsR, fun schedule => ?_⟩
  · exact ⟨htx hregsT, hrx hregsR, hgrant₂.irqHdl, hhdl.trans hgrant₁.irqHdl⟩
  · have hzero : size ≠ 0 := by
      rintro rfl
      exact absurd hsize (by decide)
    have hcond : s.dma.isSome = true ∧ 4 < size := ⟨Option.isSome_of_eq_some h.device, hsize⟩
    rw [Sys.hgspiDwRead, if_neg hzero]
    dsimp only
    rw [if_pos hcond]
    simp only [Sys.readByDma, Sys.dmaXfer, h.device, Spi.hgspiDwSetMode, heq₁, heq₂, hser, if_true,
      Sys.regs, chanOf_ofNat, Sys.requested]
    rfl

/-! ### A board that knows the data register -/

/-- The device when `out` bytes have been clocked in, and the first `into`
of them stored. -/
def pumped (line : ℕ → Byte) (s₀ : Sys) (buf : BitVec 32) (mem : BitVec 32 → Byte)
    (out into : ℕ) : Sys :=
  { s₀ with
    mem
    stored := s₀.stored ++ receivedAt line s₀.spi.clocked buf into
    spi := { s₀.spi with
      rxFifo := (List.range' (s₀.spi.clocked + into) (out - into)).map line
      clocked := s₀.spi.clocked + out } }

theorem Busy.pumped (h : Busy dma s₀) : Busy dma (pumped line s₀ buf mem out into) :=
  h.moved ..

/-- **Both channels at work.** -/
structure Pumped (line : ℕ → Byte) (s₀ : Sys) (buf : BitVec 32) (n : ℕ) (d : Duplex) : Prop where
  sys : ∃ mem, d.sys = pumped line s₀ buf mem d.out d.into
  into_le : d.into ≤ d.out
  out_le : d.out ≤ n

theorem pumped_start (hfifo : s₀.spi.rxFifo = []) :
    pumped line s₀ buf s₀.mem 0 0 = s₀ := by
  show { s₀ with stored := s₀.stored ++ [], spi := { s₀.spi with rxFifo := [] } } = s₀
  rw [List.append_nil, ← hfifo]

/-- The sending channel clocks a byte in. -/
theorem pumped_send (hmode : s₀.spi.tmod = .receiveOnly)
    (htx : tx.MemToReg buf s₀.spi.dataReg n) (hle : into ≤ out) :
    { pumped line s₀ buf mem out into with
      spi := if tx.dstAddr out = s₀.spi.dataReg then
          (element mem tx out).foldl (Spi.putData line) (pumped line s₀ buf mem out into).spi
        else (pumped line s₀ buf mem out into).spi } = pumped line s₀ buf mem (out + 1) into := by
  have hlast : s₀.spi.clocked + into + (out - into) = s₀.spi.clocked + out := by omega
  rw [if_pos (htx.dstAddr out), element_of_width htx.width, List.foldl_cons, List.foldl_nil,
    putData_receiveOnly line _ (by exact hmode)]
  simp only [pumped, Spi.clockIn, Nat.succ_sub hle, List.range'_1_concat, List.map_append,
    List.map_cons, List.map_nil, hlast]
  rfl

/-- The receiving channel stores the oldest byte of the FIFO. -/
theorem pumped_receive (line : ℕ → Byte) (mem : BitVec 32 → Byte)
    (hrx : rx.RegToMem s₀.spi.dataReg buf n) (hlt : into < out) :
    ∃ mem', Sys.storeAll (rx.dstAddr into)
        ((pumped line s₀ buf mem out into).spi.rxFifo.take rx.width)
        { pumped line s₀ buf mem out into with
          spi.rxFifo := (pumped line s₀ buf mem out into).spi.rxFifo.drop rx.width } =
      pumped line s₀ buf mem' out (into + 1) := by
  obtain ⟨m, hm⟩ : ∃ m, out - into = m + 1 := ⟨out - into - 1, by omega⟩
  have hm' : out - (into + 1) = m := by omega
  have hfifo : (pumped line s₀ buf mem out into).spi.rxFifo =
      line (s₀.spi.clocked + into) ::
        (List.range' (s₀.spi.clocked + (into + 1)) m).map line := by
    simp only [pumped, hm, List.range'_succ, List.map_cons]
    rfl
  rw [hfifo, hrx.width, hrx.dstAddr]
  refine ⟨Function.update mem (buf + BitVec.ofNat 32 into) (line (s₀.spi.clocked + into)), ?_⟩
  simp only [List.take_succ_cons, List.take_zero, List.drop_succ_cons, List.drop_zero,
    Sys.storeAll, Sys.store, pumped, hm', receivedAt_concat, List.append_assoc]

/-- **One beat** of the two channels, in the master. -/
theorem Pumped.step (h : Pumped line s₀ buf n d) (hbusy : Busy dma s₀)
    (htx : tx.MemToReg buf s₀.spi.dataReg n) (hrx : rx.RegToMem s₀.spi.dataReg buf n)
    (hstep : (duplex line (some tx) (some rx)).step d beat = some d') :
    Pumped line s₀ buf n d' := by
  obtain ⟨sys, out, into⟩ := d
  obtain ⟨⟨mem, hsys⟩, hle, hout⟩ := h
  dsimp only at hsys hle hout
  subst hsys
  cases beat with
  | tx =>
    obtain ⟨hlt, hd⟩ := Option.ite_none_right_eq_some.1 hstep
    obtain rfl := Option.some.inj hd
    exact ⟨⟨mem, pumped_send hbusy.mode htx hle⟩, Nat.le_succ_of_le hle,
      by rw [← htx.blockTs]; exact hlt.1⟩
  | rx =>
    obtain ⟨-, hd⟩ := Option.ite_none_right_eq_some.1 hstep
    obtain ⟨⟨-, hwidth⟩, hd⟩ :=
      Option.ite_none_right_eq_some.1 ((if_pos (hrx.srcAddr into)).symm.trans hd)
    obtain rfl := Option.some.inj hd
    have hlt : into < out := by
      rw [hrx.width] at hwidth
      simp only [pumped, List.length_map, List.length_range'] at hwidth
      omega
    obtain ⟨mem', hmem'⟩ := pumped_receive line mem hrx hlt
    exact ⟨⟨mem', hmem'⟩, hlt, hout⟩
  | line =>
    have hnone : (duplex line (some tx) (some rx)).step
        ⟨pumped line s₀ buf mem out into, out, into⟩ .line = none := hbusy.pumped.step_line
    rw [hnone] at hstep
    cases hstep

/-- A beat of each channel. -/
theorem run_tx_rx (line : ℕ → Byte) (mem : BitVec 32 → Byte) (hbusy : Busy dma s₀)
    (htx : tx.MemToReg buf s₀.spi.dataReg n) (hrx : rx.RegToMem s₀.spi.dataReg buf n)
    {k : ℕ} (hk : k < n) :
    ∃ mem', (duplex line (some tx) (some rx)).run ⟨pumped line s₀ buf mem k k, k, k⟩ [.tx, .rx] =
      some ⟨pumped line s₀ buf mem' (k + 1) (k + 1), k + 1, k + 1⟩ := by
  obtain ⟨mem', hmem'⟩ := pumped_receive line mem hrx (Nat.lt_succ_self k)
  refine ⟨mem', ?_⟩
  have hsend : (duplex line (some tx) (some rx)).step ⟨pumped line s₀ buf mem k k, k, k⟩ .tx =
      some ⟨pumped line s₀ buf mem (k + 1) k, k + 1, k⟩ := by
    rw [← pumped_send hbusy.mode htx (Nat.le_refl k)]
    exact if_pos ⟨by rw [htx.blockTs]; exact hk, hbusy.tdmae⟩
  have hreceive : (duplex line (some tx) (some rx)).step
      ⟨pumped line s₀ buf mem (k + 1) k, k + 1, k⟩ .rx =
      some ⟨pumped line s₀ buf mem' (k + 1) (k + 1), k + 1, k + 1⟩ := by
    rw [← hmem']
    refine (if_pos (by rw [hrx.blockTs]; exact hk)).trans ?_
    refine (if_pos (hrx.srcAddr k)).trans (if_pos ⟨hbusy.rdmae, ?_⟩)
    simp [hrx.width, pumped]
  exact (Machine.run_cons_of_step hsend).trans (Machine.run_cons_of_step hreceive)

/-- The channels, taking turns, move the whole block. -/
theorem exists_schedule (line : ℕ → Byte) (hbusy : Busy dma s₀) (hfifo : s₀.spi.rxFifo = [])
    (htx : tx.MemToReg buf s₀.spi.dataReg n) (hrx : rx.RegToMem s₀.spi.dataReg buf n) :
    ∀ k ≤ n, ∃ schedule mem, (duplex line (some tx) (some rx)).run ⟨s₀, 0, 0⟩ schedule =
      some ⟨pumped line s₀ buf mem k k, k, k⟩ := by
  intro k
  induction k with
  | zero => exact fun _ => ⟨[], s₀.mem, by rw [pumped_start hfifo]; rfl⟩
  | succ k ih =>
    intro hk
    obtain ⟨schedule, mem, hrun⟩ := ih (Nat.le_of_succ_le hk)
    obtain ⟨mem', hnext⟩ := run_tx_rx line mem hbusy htx hrx hk
    exact ⟨schedule ++ [.tx, .rx], mem', (Machine.run_append_of_run hrun).trans hnext⟩

/-- With DMA, whatever the order of the channels. -/
theorem hgspiDwRead_known_stored (h : Ready s dma) (hknown : Known P s.spi.dataReg buf)
    (hser : s.spi.ser = true) (hsize : 4 < size) {schedule : List Beat} {t : Sys}
    (ht : s.hgspiDwRead P line schedule buf size = some t) :
    t.stored = s.stored ++ receivedAt line s.spi.clocked buf (size.toNat % 4096) := by
  obtain ⟨dma₂, chT, chR, hsetUp, htx, hrx, hread⟩ := hgspiDwRead_dma line h hser hsize
    (grants_tx size s.self .spiTx hknown) (grants_rx size s.self .spiRx hknown)
    (·.blockTs) (·.blockTs)
  have hbusy := busy_requested dma₂ h hser
  rw [hread] at ht
  obtain ⟨t', ht', rfl⟩ := Option.map_eq_some_iff.1 ht
  obtain ⟨d, hrun, hwait⟩ := Option.bind_eq_some_iff.1 ht'
  have hpumped := Machine.inv_of_run_of_step
    (I := Pumped line (s.requested dma₂) buf (size.toNat % 4096))
    (fun _ _ _ hd hstep => hd.step hbusy htx hrx hstep)
    ⟨⟨_, (pumped_start rfl).symm⟩, Nat.le_refl 0, Nat.zero_le _⟩ hrun
  obtain ⟨sys, out, into⟩ := d
  obtain ⟨⟨mem, hsys⟩, -, -⟩ := hpumped
  dsimp only at hsys
  subst hsys
  obtain ⟨-, rfl, hstored, -⟩ := waitDone_finish hsetUp hbusy.pumped hwait
  exact hstored

theorem exists_hgspiDwRead_known (line : ℕ → Byte) (h : Ready s dma)
    (hknown : Known P s.spi.dataReg buf) (hser : s.spi.ser = true) (hsize : 4 < size) :
    ∃ schedule t, s.hgspiDwRead P line schedule buf size = some t := by
  obtain ⟨dma₂, chT, chR, hsetUp, htx, hrx, hread⟩ := hgspiDwRead_dma line h hser hsize
    (grants_tx size s.self .spiTx hknown) (grants_rx size s.self .spiRx hknown)
    (·.blockTs) (·.blockTs)
  have hbusy := busy_requested dma₂ h hser
  obtain ⟨schedule, mem, hrun⟩ := exists_schedule line hbusy rfl htx hrx _ (Nat.le_refl _)
  obtain ⟨t, ht⟩ := exists_waitDone (d := ⟨pumped line _ buf mem _ _, _, _⟩) hsetUp
    hbusy.pumped rfl rfl
  refine ⟨schedule, { t with spi := t.spi.hgspiDwSetMode .transmitOnly },
    (hread schedule).trans ?_⟩
  rw [hrun, Option.bind_some, ht]
  rfl

/-! ### A board that knows none

The two blocks walk away from the register. -/

theorem storeAll_eq (bs : List Byte) : ∀ (a : BitVec 32) (s : Sys),
    ∃ mem stored, Sys.storeAll a bs s = { s with mem, stored } := by
  induction bs with
  | nil => exact fun _ s => ⟨s.mem, s.stored, rfl⟩
  | cons b bs ih =>
    intro a s
    obtain ⟨mem, stored, h⟩ := ih (a + 1) (s.store a b)
    exact ⟨mem, stored, h⟩

/-- **One byte is clocked in**, and taken out of the FIFO again. -/
structure Strayed (dma : HgdmaDw Hdl) (s₀ : Sys) (n : ℕ) (d : Duplex) : Prop where
  busy : Busy dma d.sys
  dataReg : d.sys.spi.dataReg = s₀.spi.dataReg
  clocked : d.sys.spi.clocked = s₀.spi.clocked + min d.out 1
  fifo : d.sys.spi.rxFifo.length + min d.into 1 = min d.out 1
  out_le : d.out ≤ n

/-- The sending channel reaches the register with its first element. -/
theorem Strayed.send (line : ℕ → Byte) (rx : ChRegs) (h : Strayed dma s₀ n d)
    (htx : tx.MemToMem buf s₀.spi.dataReg n) (hn : n < 4096) (hlt : d.out < n) :
    ∃ d', (duplex line (some tx) (some rx)).step d .tx = some d' ∧ Strayed dma s₀ n d' ∧
      d'.out = d.out + 1 ∧ d'.into = d.into := by
  have hfire : d.out < tx.blockTs ∧ d.sys.spi.tdmae = true := ⟨htx.blockTs ▸ hlt, h.busy.tdmae⟩
  have hout := h.fifo
  have hclocked := h.clocked
  by_cases hzero : d.out = 0
  · have hreg : tx.dstAddr d.out = d.sys.spi.dataReg := by
      rw [htx.dstAddr, h.dataReg, hzero]
      exact BitVec.add_zero _
    refine ⟨{ d with sys.spi := d.sys.spi.clockIn line, out := d.out + 1 }, ?_, ?_, rfl, rfl⟩
    · refine (if_pos hfire).trans ?_
      rw [if_pos hreg, element_of_width htx.width, List.foldl_cons, List.foldl_nil,
        putData_receiveOnly line _ h.busy.mode]
    · refine ⟨h.busy.moved .., h.dataReg, ?_, ?_, hlt⟩
      · simp only [Spi.clockIn]
        omega
      · simp only [Spi.clockIn, List.length_append, List.length_singleton]
        omega
  · have hreg : tx.dstAddr d.out ≠ d.sys.spi.dataReg := by
      rw [htx.dstAddr, h.dataReg]
      exact fun heq => hzero ((add_ofNat_eq_self_iff (hlt.trans hn)).1 heq)
    refine ⟨{ d with out := d.out + 1 }, ?_, ?_, rfl, rfl⟩
    · refine (if_pos hfire).trans ?_
      rw [if_neg hreg]
    · exact ⟨h.busy, h.dataReg, by dsimp only; omega, by dsimp only; omega, hlt⟩

/-- The receiving one takes its first element from there, the others from
the addresses behind. -/
theorem Strayed.receive (line : ℕ → Byte) (tx : ChRegs) (h : Strayed dma s₀ n d)
    (hrx : rx.MemToMem s₀.spi.dataReg buf n) (hn : n < 4096) (hlt : d.into < n)
    (hfirst : d.into = 0 → 0 < d.out) :
    ∃ d', (duplex line (some tx) (some rx)).step d .rx = some d' ∧ Strayed dma s₀ n d' ∧
      d'.out = d.out ∧ d'.into = d.into + 1 := by
  have hfire : d.into < rx.blockTs := hrx.blockTs ▸ hlt
  have hfifo := h.fifo
  have hclocked := h.clocked
  by_cases hzero : d.into = 0
  · have hreg : rx.srcAddr d.into = d.sys.spi.dataReg := by
      rw [hrx.srcAddr, h.dataReg, hzero]
      exact BitVec.add_zero _
    have hpos := hfirst hzero
    have hwidth : rx.width ≤ d.sys.spi.rxFifo.length := by
      rw [hrx.width]
      omega
    obtain ⟨mem, stored, hstore⟩ := storeAll_eq (d.sys.spi.rxFifo.take rx.width)
      (rx.dstAddr d.into) { d.sys with spi.rxFifo := d.sys.spi.rxFifo.drop rx.width }
    refine ⟨_, (if_pos hfire).trans ((if_pos hreg).trans (if_pos ⟨h.busy.rdmae, hwidth⟩)), ?_,
      rfl, rfl⟩
    rw [hstore]
    refine ⟨h.busy.moved .., h.dataReg, hclocked, ?_, h.out_le⟩
    simp only [List.length_drop, hrx.width]
    omega
  · have hreg : rx.srcAddr d.into ≠ d.sys.spi.dataReg := by
      rw [hrx.srcAddr, h.dataReg]
      exact fun heq => hzero ((add_ofNat_eq_self_iff (hlt.trans hn)).1 heq)
    obtain ⟨mem, stored, hstore⟩ :=
      storeAll_eq (element d.sys.mem rx d.into) (rx.dstAddr d.into) d.sys
    refine ⟨_, (if_pos hfire).trans (if_neg hreg), ?_, rfl, rfl⟩
    rw [hstore]
    exact ⟨h.busy.moved .., h.dataReg, hclocked, by dsimp only; omega, h.out_le⟩

/-- **One beat** of the two channels. -/
theorem Strayed.step (h : Strayed dma s₀ n d) (htx : tx.MemToMem buf s₀.spi.dataReg n)
    (hrx : rx.MemToMem s₀.spi.dataReg buf n) (hn : n < 4096)
    (hstep : (duplex line (some tx) (some rx)).step d beat = some d') : Strayed dma s₀ n d' := by
  cases beat with
  | tx =>
    obtain ⟨⟨hlt, -⟩, -⟩ := Option.ite_none_right_eq_some.1 hstep
    obtain ⟨d₁, hd₁, hstrayed, -⟩ := h.send line rx htx hn (htx.blockTs ▸ hlt)
    obtain rfl := Option.some.inj (hd₁.symm.trans hstep)
    exact hstrayed
  | rx =>
    obtain ⟨hlt, hd⟩ := Option.ite_none_right_eq_some.1 hstep
    -- the first element waits for the FIFO, so it is clocked in by then
    have hfirst : d.into = 0 → 0 < d.out := by
      intro hzero
      have hreg : rx.srcAddr d.into = d.sys.spi.dataReg := by
        rw [hrx.srcAddr, h.dataReg, hzero]
        exact BitVec.add_zero _
      rw [if_pos hreg] at hd
      obtain ⟨⟨-, hwidth⟩, -⟩ := Option.ite_none_right_eq_some.1 hd
      have hfifo := h.fifo
      rw [hrx.width] at hwidth
      omega
    obtain ⟨d₁, hd₁, hstrayed, -⟩ :=
      h.receive line tx hrx hn (hrx.blockTs ▸ hlt) hfirst
    obtain rfl := Option.some.inj (hd₁.symm.trans hstep)
    exact hstrayed
  | line =>
    rw [h.busy.step_line] at hstep
    cases hstep

/-- The channels, taking turns, move their blocks all the same. -/
theorem Strayed.exists_schedule (line : ℕ → Byte) (h : Strayed dma s₀ n ⟨s₀, 0, 0⟩)
    (htx : tx.MemToMem buf s₀.spi.dataReg n) (hrx : rx.MemToMem s₀.spi.dataReg buf n)
    (hn : n < 4096) :
    ∀ k ≤ n, ∃ schedule d, (duplex line (some tx) (some rx)).run ⟨s₀, 0, 0⟩ schedule = some d ∧
      Strayed dma s₀ n d ∧ d.out = k ∧ d.into = k := by
  intro k
  induction k with
  | zero => exact fun _ => ⟨[], _, rfl, h, rfl, rfl⟩
  | succ k ih =>
    intro hk
    obtain ⟨schedule, d, hrun, hd, hout, hinto⟩ := ih (Nat.le_of_succ_le hk)
    obtain ⟨d₁, hsend, hd₁, hout₁, hinto₁⟩ :=
      hd.send line rx htx hn (hout ▸ hk)
    obtain ⟨d₂, hreceive, hd₂, hout₂, hinto₂⟩ := hd₁.receive line tx hrx hn
      (by omega) (by omega)
    refine ⟨schedule ++ [.tx, .rx], d₂, (Machine.run_append_of_run hrun).trans ?_, hd₂, by omega,
      by omega⟩
    exact (Machine.run_cons_of_step hsend).trans (Machine.run_cons_of_step hreceive)

theorem strayed_start (hbusy : Busy dma s₀) (hfifo : s₀.spi.rxFifo = []) :
    Strayed dma s₀ n ⟨s₀, 0, 0⟩ :=
  ⟨hbusy, rfl, rfl, by rw [hfifo]; rfl, Nat.zero_le n⟩

/-- With DMA, whatever the order of the channels. -/
theorem hgspiDwRead_weak_clocked (h : Ready s dma) (hser : s.spi.ser = true) (hsize : 4 < size)
    {schedule : List Beat} {t : Sys} (ht : s.hgspiDwRead .weak line schedule buf size = some t) :
    t.spi.clocked = s.spi.clocked + min (size.toNat % 4096) 1 := by
  obtain ⟨dma₂, chT, chR, hsetUp, htx, hrx, hread⟩ := hgspiDwRead_dma line h hser hsize
    (grants_tx_weak _ buf size s.self .spiTx) (grants_rx_weak _ buf size s.self .spiRx)
    (·.blockTs) (·.blockTs)
  have hbusy := busy_requested dma₂ h hser
  rw [hread] at ht
  obtain ⟨t', ht', rfl⟩ := Option.map_eq_some_iff.1 ht
  obtain ⟨d, hrun, hwait⟩ := Option.bind_eq_some_iff.1 ht'
  have hstrayed := Machine.inv_of_run_of_step
    (I := Strayed dma₂ (s.requested dma₂) (size.toNat % 4096))
    (fun _ _ _ hd hstep => hd.step htx hrx (Nat.mod_lt _ (by decide)) hstep)
    (strayed_start hbusy rfl) hrun
  obtain ⟨hout, -, -, hclocked⟩ := waitDone_finish hsetUp hstrayed.busy hwait
  have hone := hstrayed.clocked
  rw [hout] at hone
  exact hclocked.trans hone

theorem exists_hgspiDwRead_weak (line : ℕ → Byte) (buf : BitVec 32) (h : Ready s dma)
    (hser : s.spi.ser = true) (hsize : 4 < size) :
    ∃ schedule t, s.hgspiDwRead .weak line schedule buf size = some t := by
  obtain ⟨dma₂, chT, chR, hsetUp, htx, hrx, hread⟩ := hgspiDwRead_dma line h hser hsize
    (grants_tx_weak _ buf size s.self .spiTx) (grants_rx_weak _ buf size s.self .spiRx)
    (·.blockTs) (·.blockTs)
  have hbusy := busy_requested dma₂ h hser
  obtain ⟨schedule, d, hrun, hd, hout, hinto⟩ := (strayed_start hbusy rfl).exists_schedule
    line htx hrx (Nat.mod_lt _ (by decide)) _ (Nat.le_refl _)
  obtain ⟨t, ht⟩ := exists_waitDone hsetUp hd.busy hout hinto
  refine ⟨schedule, { t with spi := t.spi.hgspiDwSetMode .transmitOnly },
    (hread schedule).trans ?_⟩
  rw [hrun, Option.bind_some, ht]
  rfl

/-- Without DMA, or for a few bytes. -/
theorem hgspiDwRead_loop (P : Periphs) (line : ℕ → Byte) (buf : BitVec 32)
    (h : ¬ (s.dma.isSome ∧ 4 < size)) (hser : s.spi.ser = true) (schedule : List Beat) :
    ∃ t, s.hgspiDwRead P line schedule buf size = some t ∧
      t.stored = s.stored ++ receivedAt line s.spi.clocked buf size.toNat ∧
      t.spi.clocked = s.spi.clocked + size.toNat := by
  by_cases hzero : size = 0
  · refine ⟨s, if_pos hzero, ?_⟩
    rw [hzero]
    exact ⟨(List.append_nil _).symm, rfl⟩
  · obtain ⟨t, ht, hstored⟩ := receiveLoop_stored line size.toNat buf
      { s with spi := s.spi.hgspiDwSetMode .receiveOnly } hser rfl rfl
    refine ⟨{ t with spi := t.spi.hgspiDwSetMode .transmitOnly }, ?_, hstored⟩
    rw [Sys.hgspiDwRead, if_neg hzero]
    dsimp only
    rw [if_neg h, ht]
    rfl

end Serial

end Hgsdk

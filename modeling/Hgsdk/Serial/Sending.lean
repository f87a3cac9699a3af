import Hgsdk.Serial.Model
/-!
# The requests of the serial drivers, and what they send

A request for bytes gets a free channel, whose registers depend on what the
board knows of the two addresses. Where the data register is known as a
peripheral the channel stays on it; with the driver's own search functions
every address is memory and the channel walks away from it.
-/

namespace Hgsdk

namespace Serial

open Dmac

/-! ### A request for bytes -/

/-- The board knows `reg` as a peripheral and `buf` as memory. -/
structure Known (P : Periphs) (reg buf : BitVec 32) : Prop where
  srcReg : P.searchSrcId reg ≠ -1
  destReg : P.searchDestId reg ≠ -1
  srcBuf : P.searchSrcId buf = -1
  destBuf : P.searchDestId buf = -1

/-- The controller is open and two of its channels are free. -/
structure TwoFree (dma : HgdmaDw Hdl) : Prop where
  opened : dma.opened = true
  free : ∃ ch ch', ch ≠ ch' ∧ dma.used ch = false ∧ dma.used ch' = false

theorem chanOf_ofNat (ch : Chan) : chanOf (BitVec.ofNat 32 ch) = some ch := by
  revert ch
  decide

variable {P : Periphs} {reg buf size irqData : BitVec 32} {hdl : Hdl} {dma dma' : HgdmaDw Hdl}
variable {ch : Chan}

/-- A request got the channel `ch`: it is set up with these registers and
this handler, and the other channels are as they were. -/
structure Granted (dma dma' : HgdmaDw Hdl) (ch : Chan) (hdl : Hdl) : Prop where
  opened : dma'.opened = dma.opened
  free : dma.used ch = false
  used : ∀ c, dma'.used c = (dma.used c || decide (ch = c))
  irqHdl : dma'.irqHdl ch = some hdl
  others : ∀ c, c ≠ ch → dma'.ch c = dma.ch c ∧ dma'.irqHdl c = dma.irqHdl c

theorem exists_granted (data : DmaXferData Hdl) (hbyte : data.elementPerWidth = 0)
    (hhdl : data.irqHdl = some hdl) (hopened : dma.opened = true)
    (hfree : ∃ ch, dma.used ch = false) :
    ∃ (ch : Chan) (dma' : HgdmaDw Hdl) (ctll cfgh : BitVec 32),
      dma.dwDmacXfer P data = (BitVec.ofNat 32 ch, dma') ∧ Granted dma dma' ch hdl ∧
      dma'.ch ch = programmed data ctll cfgh ∧
      flowRegs (direct (P.searchSrcId data.src) (P.searchDestId data.dest))
        (P.searchSrcId data.src) (P.searchDestId data.dest) = some (ctll, cfgh) := by
  cases hchan : dma.freeChan with
  | none =>
    obtain ⟨ch, hch⟩ := hfree
    exact nomatch hch.symm.trans (HgdmaDw.freeChan_eq_none hchan ch)
  | some ch =>
    have hwidth : ¬ dmaSlaveBuswidth8Bytes ≤ data.elementPerWidth := by
      rw [hbyte]
      decide
    obtain ⟨ctll, cfgh, hflow, heq⟩ := dwDmacXfer_of_free (P := P) data hopened hchan hwidth
    refine ⟨ch, _, ctll, cfgh, heq, ?_, Function.update_self .., hflow⟩
    exact
      { opened := rfl
        free := HgdmaDw.freeChan_eq_some hchan
        used := fun c => HgdmaDw.used_claim dma ch c
        irqHdl := (Function.update_self ..).trans hhdl
        others := fun c hc => ⟨Function.update_of_ne hc .., Function.update_of_ne hc ..⟩ }

/-- **Where a channel is free the request gets one**, with registers as `R`
says. -/
def Grants (P : Periphs) (data : DmaXferData Hdl) (hdl : Hdl) (R : ChRegs → Prop) : Prop :=
  ∀ dma : HgdmaDw Hdl, dma.opened = true → (∃ ch, dma.used ch = false) →
    ∃ (ch : Chan) (dma' : HgdmaDw Hdl), dma.dwDmacXfer P data = (BitVec.ofNat 32 ch, dma') ∧
      Granted dma dma' ch hdl ∧ R (dma'.ch ch)

/-- A buffer to a register that the board knows. -/
theorem grants_tx (size irqData : BitVec 32) (hdl : Hdl) (hknown : Known P reg buf) :
    Grants P (txData reg buf size irqData hdl) hdl (·.MemToReg buf reg (size.toNat % 4096)) := by
  intro dma hopened hfree
  obtain ⟨ch, dma', ctll, cfgh, heq, hgranted, hregs, hflow⟩ :=
    exists_granted (P := P) (txData reg buf size irqData hdl) rfl rfl hopened hfree
  refine ⟨ch, dma', heq, hgranted, ?_⟩
  rw [hregs]
  exact programmed_memToReg rfl hknown.srcBuf hknown.destReg hflow

/-- Such a register to a buffer. -/
theorem grants_rx (size irqData : BitVec 32) (hdl : Hdl) (hknown : Known P reg buf) :
    Grants P (rxData reg buf size irqData hdl) hdl (·.RegToMem reg buf (size.toNat % 4096)) := by
  intro dma hopened hfree
  obtain ⟨ch, dma', ctll, cfgh, heq, hgranted, hregs, hflow⟩ :=
    exists_granted (P := P) (rxData reg buf size irqData hdl) rfl rfl hopened hfree
  refine ⟨ch, dma', heq, hgranted, ?_⟩
  rw [hregs]
  exact programmed_regToMem rfl hknown.srcReg hknown.destBuf hflow

/-- With the driver's own search functions both are memory. -/
theorem grants_weak (data : DmaXferData Hdl) (hbyte : data.elementPerWidth = 0)
    (hhdl : data.irqHdl = some hdl) :
    Grants .weak data hdl
      (·.MemToMem data.src data.dest (data.elementNum.toNat % 4096)) := by
  intro dma hopened hfree
  obtain ⟨ch, dma', ctll, cfgh, heq, hgranted, hregs, hflow⟩ :=
    exists_granted (P := .weak) data hbyte hhdl hopened hfree
  refine ⟨ch, dma', heq, hgranted, ?_⟩
  rw [hregs]
  exact programmed_memToMem hbyte rfl rfl hflow

theorem grants_tx_weak (reg buf size irqData : BitVec 32) (hdl : Hdl) :
    Grants .weak (txData reg buf size irqData hdl) hdl
      (·.MemToMem buf reg (size.toNat % 4096)) :=
  grants_weak _ rfl rfl

theorem grants_rx_weak (reg buf size irqData : BitVec 32) (hdl : Hdl) :
    Grants .weak (rxData reg buf size irqData hdl) hdl
      (·.MemToMem reg buf (size.toNat % 4096)) :=
  grants_weak _ rfl rfl

theorem TwoFree.one (h : TwoFree dma) : ∃ ch, dma.used ch = false := by
  obtain ⟨ch, -, -, hch, -⟩ := h.free
  exact ⟨ch, hch⟩

/-! ### What is sent -/

/-- The first `n` bytes of a buffer. -/
def bytesAt (mem : BitVec 32 → Byte) (buf : BitVec 32) (n : ℕ) : List Byte :=
  (List.range n).map fun k => mem (buf + BitVec.ofNat 32 k)

theorem add_ofNat_succ (k : ℕ) : buf + BitVec.ofNat 32 (k + 1) = buf + 1 + BitVec.ofNat 32 k := by
  rw [BitVec.ofNat_add, BitVec.add_comm (BitVec.ofNat 32 k), ← BitVec.add_assoc]
  rfl

theorem bytesAt_succ {mem : BitVec 32 → Byte} {n : ℕ} :
    bytesAt mem buf (n + 1) = mem buf :: bytesAt mem (buf + 1) n := by
  rw [bytesAt, List.range_succ_eq_map, List.map_cons, List.map_map, BitVec.ofNat_eq_ofNat,
    BitVec.add_zero]
  refine congrArg _ (List.map_congr_left fun k _ => ?_)
  exact congrArg mem (add_ofNat_succ k)

theorem length_bytesAt (mem : BitVec 32 → Byte) (buf : BitVec 32) (n : ℕ) :
    (bytesAt mem buf n).length = n := by
  simp [bytesAt]

/-- Two of them are the same only if they are as long. -/
theorem bytesAt_inj {mem : BitVec 32 → Byte} {n m : ℕ} {xs : List Byte} :
    xs ++ bytesAt mem buf n = xs ++ bytesAt mem buf m ↔ n = m := by
  refine ⟨fun h => ?_, fun h => by rw [h]⟩
  have hlen := congrArg List.length (List.append_cancel_left h)
  rwa [length_bytesAt, length_bytesAt] at hlen

/-- The elements of a transfer of bytes. -/
theorem element_of_width {mem : BitVec 32 → Byte} {regs : ChRegs} (h : regs.width = 1) (k : ℕ) :
    element mem regs k = [mem (regs.srcAddr k)] := by
  rw [element, h]
  exact congrArg (fun a => [mem a]) (BitVec.add_zero _)

theorem bytesTo_eq {mem : BitVec 32 → Byte} {regs : ChRegs} {n : ℕ}
    (h : regs.MemToReg buf reg n) : bytesTo mem reg regs = bytesAt mem buf n := by
  have helem : ∀ k, element mem regs k = [mem (buf + BitVec.ofNat 32 k)] := by
    intro k
    rw [element_of_width h.width, h.srcAddr]
  rw [bytesTo, h.blockTs, List.filter_eq_self.2 fun k _ => decide_eq_true (h.dstAddr k),
    List.flatMap_congr fun k _ => helem k, ← List.map_eq_flatMap]
  rfl

theorem add_ofNat_eq_self_iff {k : ℕ} (hk : k < 4096) :
    reg + BitVec.ofNat 32 k = reg ↔ k = 0 := by
  rw [← BitVec.toNat_inj, BitVec.toNat_add, BitVec.toNat_ofNat]
  have hreg := reg.isLt
  omega

/-- Of a block that walks away from the register one byte gets there. -/
theorem bytesTo_eq_weak {mem : BitVec 32 → Byte} {regs : ChRegs} {n : ℕ}
    (h : regs.MemToMem buf reg n) (hn : n < 4096) :
    bytesTo mem reg regs = bytesAt mem buf (min n 1) := by
  have hfilter : (List.range regs.blockTs).filter (fun k => regs.dstAddr k = reg) =
      List.range (min n 1) := by
    rw [h.blockTs]
    have hsame : ∀ k ∈ List.range n, decide (regs.dstAddr k = reg) = decide (k < 1) := by
      intro k hk
      rw [h.dstAddr, decide_eq_decide, add_ofNat_eq_self_iff ((List.mem_range.1 hk).trans hn)]
      omega
    rw [List.filter_congr hsame]
    cases n with
    | zero => rfl
    | succ n =>
      have hnone : (List.range n).filter ((fun k => decide (k < 1)) ∘ Nat.succ) = [] :=
        List.filter_eq_nil_iff.2 fun k _ => by simp
      rw [List.range_succ_eq_map, List.filter_cons_of_pos (by decide), List.filter_map, hnone,
        Nat.min_eq_right (Nat.le_add_left 1 n)]
      rfl
  have helem : ∀ k, element mem regs k = [mem (buf + BitVec.ofNat 32 k)] := by
    intro k
    rw [element_of_width h.width, h.srcAddr]
  rw [bytesTo, hfilter, List.flatMap_congr fun k _ => helem k, ← List.map_eq_flatMap]
  rfl

/-! ### UART -/

theorem putLoop_sent (buf : BitVec 32) (n : ℕ) : ∀ (i : ℕ) (u : Uart),
    (Uart.putLoop buf n i u).sent = u.sent ++ bytesAt u.mem (buf + BitVec.ofNat 32 i) n := by
  induction n with
  | zero => exact fun i u => (List.append_nil _).symm
  | succ n ih =>
    intro i u
    have hnext : buf + BitVec.ofNat 32 (i + 1) = buf + BitVec.ofNat 32 i + 1 := by
      rw [BitVec.ofNat_add, BitVec.add_assoc]
      rfl
    rw [Uart.putLoop, ih, hnext, bytesAt_succ]
    exact List.append_assoc ..

/-- Without DMA. -/
theorem hguartPuts_loop (P : Periphs) (buf size : BitVec 32) {u : Uart} (h : u.dma = none) :
    ∃ t, u.hguartPuts P buf size = some t ∧ t.sent = u.sent ++ bytesAt u.mem buf size.toNat := by
  refine ⟨Uart.putLoop buf size.toNat 0 u, by rw [Uart.hguartPuts, h], ?_⟩
  have hsent := putLoop_sent buf size.toNat 0 u
  rwa [BitVec.add_zero] at hsent

/-- A UART with DMA between two calls. -/
structure Uart.Ready (u : Uart) (dma : HgdmaDw Hdl) : Prop where
  device : u.dma = some dma
  two : TwoFree dma

/-- With DMA what the channel writes to the register is sent. -/
theorem hguartPuts_dma {u : Uart} {R : ChRegs → Prop} (h : u.Ready dma)
    (hgrants : Grants P (txData u.thr buf size u.self .uartTx) .uartTx R) :
    ∃ t regs, R regs ∧ u.hguartPuts P buf size = some t ∧
      t.sent = u.sent ++ bytesTo u.mem u.thr regs := by
  obtain ⟨ch, dma', heq, hgranted, hregs⟩ := hgrants dma h.two.opened h.two.one
  have hhdl : ((dma'.clear .done ch).mark .done ch).irqHdl ch = some .uartTx := hgranted.irqHdl
  refine ⟨{ u with
    sent := u.sent ++ bytesTo u.mem u.thr (dma'.ch ch)
    dma := some (((dma'.clear .done ch).mark .done ch).dwDmacStop ch) }, _, hregs, ?_, rfl⟩
  simp only [Uart.hguartPuts, h.device, heq, chanOf_ofNat, Uart.serve, hhdl, Uart.txDown,
    Nat.add_one_ne_zero, if_false, Nat.add_sub_cancel]

/-! ### SPI, sending -/

section Write

variable {line : ℕ → Byte}

theorem putData_sent (line : ℕ → Byte) (b : Byte) {spi : Spi} (h : spi.tmod ≠ .receiveOnly) :
    (spi.putData line b).sent = spi.sent ++ [b] ∧ (spi.putData line b).tmod = spi.tmod := by
  unfold Spi.putData
  cases hmode : spi.tmod with
  | transmitOnly => exact ⟨rfl, rfl⟩
  | transmitReceive => exact ⟨rfl, rfl⟩
  | receiveOnly => exact absurd hmode h

theorem foldl_putData_sent (bs : List Byte) : ∀ {spi : Spi}, spi.tmod ≠ .receiveOnly →
    (bs.foldl (Spi.putData line) spi).sent = spi.sent ++ bs := by
  induction bs with
  | nil => exact fun _ => (List.append_nil _).symm
  | cons b bs ih =>
    intro spi h
    obtain ⟨hsent, hmode⟩ := putData_sent line b h
    rw [List.foldl_cons, ih (hmode ▸ h), hsent, List.append_assoc]
    rfl

theorem sendLoop_sent (n : ℕ) : ∀ (p : BitVec 32) (s : Sys), s.spi.tmod ≠ .receiveOnly →
    (Sys.sendLoop line n p s).spi.sent = s.spi.sent ++ bytesAt s.mem p n := by
  induction n with
  | zero => exact fun _ _ _ => (List.append_nil _).symm
  | succ n ih =>
    intro p s h
    obtain ⟨hsent, hmode⟩ := putData_sent line (s.mem p) h
    have hmode' : (s.spi.putData line (s.mem p)).tmod ≠ .receiveOnly := hmode ▸ h
    rw [Sys.sendLoop, ih _ _ hmode', bytesAt_succ, hsent, List.append_assoc]
    rfl

/-- Without DMA, or for a few bytes. -/
theorem hgspiDwWrite_loop (P : Periphs) (line : ℕ → Byte) (buf size : BitVec 32) {s : Sys}
    (h : ¬ (s.dma.isSome ∧ 4 < size)) (hmode : s.spi.tmod ≠ .receiveOnly) :
    ∃ t, s.hgspiDwWrite P line buf size = some t ∧
      t.spi.sent = s.spi.sent ++ bytesAt s.mem buf size.toNat :=
  ⟨_, if_neg h, sendLoop_sent size.toNat buf s hmode⟩

/-- A device with DMA between two calls. -/
structure Ready (s : Sys) (dma : HgdmaDw Hdl) : Prop where
  device : s.dma = some dma
  two : TwoFree dma
  mode : s.spi.tmod ≠ .receiveOnly
  tdmae : s.spi.tdmae = true
  txDmaSema : s.txDmaSema = 0
  rxDmaSema : s.rxDmaSema = 0

/-- With DMA what the channel writes to the register is sent. -/
theorem hgspiDwWrite_dma (line : ℕ → Byte) {s : Sys} {R : ChRegs → Prop} (h : Ready s dma)
    (hsize : 4 < size) (hgrants : Grants P (txData s.spi.dataReg buf size s.self .spiTx) .spiTx R) :
    ∃ t regs, R regs ∧ s.hgspiDwWrite P line buf size = some t ∧
      t.spi.sent = s.spi.sent ++ bytesTo s.mem s.spi.dataReg regs := by
  obtain ⟨ch, dma', heq, hgranted, hregs⟩ := hgrants dma h.two.opened h.two.one
  have hhdl : ((dma'.clear .done ch).mark .done ch).irqHdl ch = some .spiTx := hgranted.irqHdl
  have hsome : s.dma.isSome = true := Option.isSome_of_eq_some h.device
  refine ⟨{ s with
    spi := (bytesTo s.mem s.spi.dataReg (dma'.ch ch)).foldl (Spi.putData line) s.spi
    dma := some (((dma'.clear .done ch).mark .done ch).dwDmacStop ch) }, _, hregs, ?_,
    foldl_putData_sent _ h.mode⟩
  rw [Sys.hgspiDwWrite, if_pos ⟨hsome, hsize⟩]
  simp only [Sys.dmaXfer, h.device, heq, Sys.transmit, Sys.regs, chanOf_ofNat, Sys.finish, hhdl,
    Sys.txDown, Option.bind_eq_bind, Option.bind_some, Option.pure_def, Nat.add_one_ne_zero,
    if_false, Nat.add_sub_cancel]

end Write

end Serial

end Hgsdk

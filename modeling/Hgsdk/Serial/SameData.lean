import Hgsdk.Serial.Receiving
/-!
# DMA moves the same bytes, up to 4095 of them

The count of a DMA transfer has twelve bits, and the drivers store the
size of their buffer in it. Below 4096 bytes the controller moves what the
loop moves, in the same order; from there on it moves the size modulo
4096 and the driver takes that for the whole.

That is so on a board that tells the DMA driver which addresses are data
registers. With the driver's own search functions every address is memory,
the transfer walks away from the data register, and its first byte is the
only one that gets there.
-/

namespace Hgsdk

namespace Serial

open Dmac

variable {P : Periphs} {buf size : BitVec 32} {dma : HgdmaDw Hdl}
variable {s : Sys} {u : Uart} {line : ℕ → Byte}

theorem mod_eq_iff : size.toNat % 4096 = size.toNat ↔ size.toNat < 4096 :=
  Nat.mod_eq_iff_lt (by decide)

theorem not_four_lt_iff : ¬ 4 < size ↔ size.toNat ≤ 4 := by
  rw [BitVec.not_lt, BitVec.le_def]
  rfl

theorem min_mod_ne (hsize : 4 < size) : min (size.toNat % 4096) 1 ≠ size.toNat := by
  have hlt : 4 < size.toNat := hsize
  omega

/-- Without a DMA device. -/
theorem not_isSome_none : ¬ ((none : Option (HgdmaDw Hdl)).isSome ∧ 4 < size) := by
  rintro ⟨⟨⟩, -⟩

theorem write_same_known (hs : Ready s dma) (hknown : Known P s.spi.dataReg buf) :
    ∃ t t', s.hgspiDwWrite P line buf size = some t ∧
      { s with dma := none }.hgspiDwWrite P line buf size = some t' ∧
      (t.spi.sent = t'.spi.sent ↔ size.toNat < 4096) := by
  obtain ⟨t', ht', hsent'⟩ := hgspiDwWrite_loop P line buf size
    (s := { s with dma := none }) not_isSome_none hs.mode
  by_cases hsize : 4 < size
  · obtain ⟨t, regs, hregs, ht, hsent⟩ :=
      hgspiDwWrite_dma line hs hsize (grants_tx size s.self .spiTx hknown)
    refine ⟨t, t', ht, ht', ?_⟩
    rw [hsent, hsent', bytesTo_eq hregs]
    exact bytesAt_inj.trans mod_eq_iff
  · obtain ⟨t, ht, hsent⟩ := hgspiDwWrite_loop P line buf size (fun h => hsize h.2) hs.mode
    refine ⟨t, t', ht, ht', iff_of_true (hsent.trans hsent'.symm) ?_⟩
    exact (not_four_lt_iff.1 hsize).trans_lt (by decide)

theorem write_same_weak (hs : Ready s dma) :
    ∃ t t', s.hgspiDwWrite .weak line buf size = some t ∧
      { s with dma := none }.hgspiDwWrite .weak line buf size = some t' ∧
      (t.spi.sent = t'.spi.sent ↔ size.toNat ≤ 4) := by
  obtain ⟨t', ht', hsent'⟩ := hgspiDwWrite_loop .weak line buf size
    (s := { s with dma := none }) not_isSome_none hs.mode
  by_cases hsize : 4 < size
  · obtain ⟨t, regs, hregs, ht, hsent⟩ :=
      hgspiDwWrite_dma line hs hsize (grants_tx_weak s.spi.dataReg buf size s.self .spiTx)
    refine ⟨t, t', ht, ht', iff_of_false ?_ (not_four_lt_iff.not.1 (not_not.2 hsize))⟩
    rw [hsent, hsent', bytesTo_eq_weak hregs (Nat.mod_lt _ (by decide))]
    exact fun h => min_mod_ne hsize (bytesAt_inj.1 h)
  · obtain ⟨t, ht, hsent⟩ := hgspiDwWrite_loop .weak line buf size (fun h => hsize h.2) hs.mode
    exact ⟨t, t', ht, ht', iff_of_true (hsent.trans hsent'.symm) (not_four_lt_iff.1 hsize)⟩

theorem puts_same_known (hu : u.Ready dma) (hknown : Known P u.thr buf) :
    ∃ t t', u.hguartPuts P buf size = some t ∧
      { u with dma := none }.hguartPuts P buf size = some t' ∧
      (t.sent = t'.sent ↔ size.toNat < 4096) := by
  obtain ⟨t, regs, hregs, ht, hsent⟩ := hguartPuts_dma hu (grants_tx size u.self .uartTx hknown)
  obtain ⟨t', ht', hsent'⟩ := hguartPuts_loop P buf size (u := { u with dma := none }) rfl
  refine ⟨t, t', ht, ht', ?_⟩
  rw [hsent, hsent', bytesTo_eq hregs]
  exact bytesAt_inj.trans mod_eq_iff

theorem puts_same_weak (hu : u.Ready dma) :
    ∃ t t', u.hguartPuts .weak buf size = some t ∧
      { u with dma := none }.hguartPuts .weak buf size = some t' ∧
      (t.sent = t'.sent ↔ size.toNat ≤ 1) := by
  obtain ⟨t, regs, hregs, ht, hsent⟩ :=
    hguartPuts_dma hu (grants_tx_weak u.thr buf size u.self .uartTx)
  obtain ⟨t', ht', hsent'⟩ := hguartPuts_loop .weak buf size (u := { u with dma := none }) rfl
  refine ⟨t, t', ht, ht', ?_⟩
  rw [hsent, hsent', bytesTo_eq_weak hregs (Nat.mod_lt _ (by decide))]
  refine bytesAt_inj.trans ?_
  omega

theorem read_same_known (hs : Ready s dma) (hknown : Known P s.spi.dataReg buf)
    (hser : s.spi.ser = true) :
    (∃ schedule t, s.hgspiDwRead P line schedule buf size = some t) ∧
    ∀ schedule t, s.hgspiDwRead P line schedule buf size = some t →
      ∃ t', { s with dma := none }.hgspiDwRead P line [] buf size = some t' ∧
        (t.stored = t'.stored ↔ size.toNat < 4096) := by
  obtain ⟨t', ht', hstored', -⟩ := hgspiDwRead_loop P line buf
    (s := { s with dma := none }) not_isSome_none hser []
  by_cases hsize : 4 < size
  · refine ⟨exists_hgspiDwRead_known line hs hknown hser hsize,
      fun schedule t ht => ⟨t', ht', ?_⟩⟩
    rw [hgspiDwRead_known_stored hs hknown hser hsize ht, hstored']
    exact receivedAt_inj.trans mod_eq_iff
  · have hread := hgspiDwRead_loop P line buf (s := s) (fun h => hsize h.2) hser
    refine ⟨⟨[], (hread []).imp fun _ => And.left⟩, fun schedule t ht => ⟨t', ht', ?_⟩⟩
    obtain ⟨t₀, ht₀, hstored, -⟩ := hread schedule
    obtain rfl := Option.some.inj (ht₀.symm.trans ht)
    refine iff_of_true (hstored.trans hstored'.symm) ?_
    exact (not_four_lt_iff.1 hsize).trans_lt (by decide)

theorem read_same_weak (hs : Ready s dma) (hser : s.spi.ser = true) :
    (∃ schedule t, s.hgspiDwRead .weak line schedule buf size = some t) ∧
    ∀ schedule t, s.hgspiDwRead .weak line schedule buf size = some t →
      ∃ t', { s with dma := none }.hgspiDwRead .weak line [] buf size = some t' ∧
        (t.spi.clocked = t'.spi.clocked ↔ size.toNat ≤ 4) := by
  obtain ⟨t', ht', -, hclocked'⟩ := hgspiDwRead_loop .weak line buf
    (s := { s with dma := none }) not_isSome_none hser []
  by_cases hsize : 4 < size
  · refine ⟨exists_hgspiDwRead_weak line buf hs hser hsize, fun schedule t ht => ⟨t', ht', ?_⟩⟩
    rw [hgspiDwRead_weak_clocked hs hser hsize ht, hclocked']
    refine iff_of_false ?_ (not_four_lt_iff.not.1 (not_not.2 hsize))
    exact fun h => min_mod_ne hsize (Nat.add_left_cancel h)
  · have hread := hgspiDwRead_loop .weak line buf (s := s) (fun h => hsize h.2) hser
    refine ⟨⟨[], (hread []).imp fun _ => And.left⟩, fun schedule t ht => ⟨t', ht', ?_⟩⟩
    obtain ⟨t₀, ht₀, -, hclocked⟩ := hread schedule
    obtain rfl := Option.some.inj (ht₀.symm.trans ht)
    exact iff_of_true (hclocked.trans hclocked'.symm) (not_four_lt_iff.1 hsize)

/-- A board with a SPI whose data register is at `0x4000` and a UART whose
data register is at `0x5000`; everything else is memory. -/
def twoPorts : Periphs where
  searchSrcId a := if a = 0x4000 then 2 else if a = 0x5000 then 0 else -1
  searchDestId a := if a = 0x4000 then 3 else if a = 0x5000 then 1 else -1

/-- The DMA controller of the board, with all channels free. -/
def idleDma : HgdmaDw Hdl := .dwDmacAttach fun _ => ⟨0, 0, 0, 0, 0, 0, 0, 0⟩

/-- Its SPI, as the master. -/
def idleSpi : Sys where
  mem a := a.setWidth 8
  stored := []
  spi := ⟨0x4000, true, .transmitOnly, true, false, [], [], 0⟩
  dma := some idleDma
  self := 0x100
  txDmaSema := 0
  rxDmaSema := 0

/-- Its UART. -/
def idleUart : Uart where
  mem a := a.setWidth 8
  thr := 0x5000
  sent := []
  dma := some idleDma
  self := 0x200
  txDmaSema := 0

theorem twoFree_idleDma : TwoFree idleDma := ⟨rfl, 0, 1, by decide, rfl, rfl⟩

theorem ready_idleSpi : Ready idleSpi idleDma :=
  { device := rfl
    two := twoFree_idleDma
    mode := by decide
    tdmae := rfl
    txDmaSema := rfl
    rxDmaSema := rfl }

theorem ready_idleUart : idleUart.Ready idleDma := ⟨rfl, twoFree_idleDma⟩

theorem known_twoPorts : Known twoPorts 0x4000 0x8000 ∧ Known twoPorts 0x5000 0x8000 :=
  ⟨⟨by decide, by decide, by decide, by decide⟩, ⟨by decide, by decide, by decide, by decide⟩⟩

end Serial

end Hgsdk

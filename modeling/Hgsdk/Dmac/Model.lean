import Hgsdk.Typesdef
import Mathlib.Data.List.FinRange
/-!
# The DMA controller and its driver

`driver/dma/dw_dmac.c`: `struct hgdma_dw` with the registers the driver
uses, and its functions as they run alone. A transfer claims the first
channel whose bit in `chn_used_flag` is clear, is checked, set up by one
store after the other, and started by the last of them.

A handler is whatever a caller passes as one. Which peripheral an address
belongs to is answered by two functions a board may replace; they are
parameters.
-/

namespace Hgsdk

namespace Dmac

/-- The channels, `DW_DMAC_MAX_DMAC_CHN` of them. -/
abbrev Chan := Fin 4

section Results

variable {ch ch' : Chan}

/-- A channel as a result is not an error. -/
theorem ofNat_nonneg (ch : Chan) : 0 ≤ (BitVec.ofNat 32 ch : CInt).toInt := by
  revert ch
  decide

theorem ofNat_inj : (BitVec.ofNat 32 ch : CInt) = BitVec.ofNat 32 ch' → ch = ch' := by
  revert ch ch'
  decide

theorem ofNat_toNat (ch : Chan) : (BitVec.ofNat 32 ch : CInt).toNat = ch := by
  revert ch
  decide

end Results

/-- `enum dma_irq_type`. -/
inductive IrqType where
  | done
  | error
  deriving DecidableEq, Repr

/-- `struct dma_xfer_data`. -/
structure DmaXferData (H : Type) where
  dest : BitVec 32
  src : BitVec 32
  elementPerWidth : BitVec 32
  elementNum : BitVec 32
  irqData : BitVec 32
  /-- May be null. -/
  irqHdl : Option H
  deriving DecidableEq, Repr

/-- `DMA_SLAVE_BUSWIDTH_8_BYTES`, the first width that is refused. -/
def dmaSlaveBuswidth8Bytes : BitVec 32 := 3

/-- `struct dw_dmac_hw_ch`, the registers that are written. -/
structure ChRegs where
  sarl : BitVec 32
  sarh : BitVec 32
  darl : BitVec 32
  darh : BitVec 32
  ctll : BitVec 32
  ctlh : BitVec 32
  cfgl : BitVec 32
  cfgh : BitVec 32
  deriving DecidableEq, Repr

/-- `struct hgdma_dw` with its registers. -/
structure HgdmaDw (H : Type) where
  opened : Bool
  chnUsedFlag : BitVec 32
  irqHdl : Chan → Option H
  irqData : Chan → BitVec 32
  state : Chan → BitVec 32
  ch : Chan → ChRegs
  /-- `ChEnRegL`. -/
  chEn : Chan → Bool
  /-- `RawTfrL` and `RawErrL`. -/
  raw : IrqType → Chan → Bool
  /-- `MaskTfrL` and `MaskErrL`. -/
  mask : IrqType → Chan → Bool

variable {H : Type}

namespace HgdmaDw

/-- Is the channel's bit set? -/
def used (dev : HgdmaDw H) (ch : Chan) : Bool := dev.chnUsedFlag.getLsbD ch

/-- `chn_used_flag |= BIT(ch)`. -/
def claim (dev : HgdmaDw H) (ch : Chan) : HgdmaDw H :=
  { dev with chnUsedFlag := dev.chnUsedFlag ||| BitVec.twoPow 32 ch }

/-- `chn_used_flag &= ~BIT(ch)`. -/
def release (dev : HgdmaDw H) (ch : Chan) : HgdmaDw H :=
  { dev with chnUsedFlag := dev.chnUsedFlag &&& ~~~BitVec.twoPow 32 ch }

section Used

variable (dev : HgdmaDw H) (ch ch' : Chan)

@[simp] theorem used_claim : (dev.claim ch).used ch' = (dev.used ch' || decide (ch = ch')) := by
  have hlt : (ch' : ℕ) < 32 := ch'.isLt.trans (by decide)
  simp only [used, claim, BitVec.getLsbD_or, BitVec.getLsbD_twoPow, Fin.ext_iff]
  by_cases h : (ch : ℕ) = ch'
  · simp [h, hlt]
  · simp [h]

@[simp] theorem used_release : (dev.release ch).used ch' = (dev.used ch' && !decide (ch = ch')) := by
  have hlt : (ch' : ℕ) < 32 := ch'.isLt.trans (by decide)
  simp only [used, release, BitVec.getLsbD_and, BitVec.getLsbD_not, BitVec.getLsbD_twoPow,
    Fin.ext_iff]
  by_cases h : (ch : ℕ) = ch'
  · simp [h, hlt]
  · simp [h, hlt]

end Used

/-- The search for a free channel. -/
def freeChan (dev : HgdmaDw H) : Option Chan :=
  (List.finRange 4).find? fun ch => !dev.used ch

theorem freeChan_eq_some {dev : HgdmaDw H} {ch : Chan} (h : dev.freeChan = some ch) :
    dev.used ch = false := by
  have hfind := List.find?_some h
  simpa using hfind

theorem freeChan_eq_none {dev : HgdmaDw H} (h : dev.freeChan = none) (ch : Chan) :
    dev.used ch = true := by
  have hfind := List.find?_eq_none.1 h ch (List.mem_finRange ch)
  simpa using hfind

end HgdmaDw

/-! ### The set-up of a channel -/

/-- Which peripheral is behind an address: `dw_dmac_search_src_id` and
`dw_dmac_search_dest_id`, -1 for memory. -/
structure Periphs where
  searchSrcId : BitVec 32 → BitVec 32
  searchDestId : BitVec 32 → BitVec 32

/-- The two functions as the driver itself has them, for a board to replace:
no address belongs to a peripheral. -/
def Periphs.weak : Periphs where
  searchSrcId _ := -1
  searchDestId _ := -1

/-- `direct`: whether the source and the destination are peripherals. -/
def direct (srcId destId : BitVec 32) : BitVec 32 :=
  (if srcId = -1 then 0 else 2) ||| (if destId = -1 then 0 else 1)

/-- `DW_DMAC_CTLL_SMS`, `_DMS`, `_FC`, `_SRC_DIR`, `_DST_DIR`: the masters,
the flow control and how the addresses move. -/
def ctllFlow (sms dms fc srcDir dstDir : BitVec 32) : BitVec 32 :=
  ((sms &&& 3) <<< 25) ||| ((dms &&& 3) <<< 23) ||| ((fc &&& 7) <<< 20) |||
    ((srcDir &&& 3) <<< 9) ||| ((dstDir &&& 3) <<< 7)

/-- `DW_DMAC_CFGH_DST_PER`, `_SRC_PER`, and `DW_DMAC_CFGH_PROTCTL(1)`. -/
def cfghPer (dstPer srcPer : BitVec 32) : BitVec 32 :=
  ((dstPer &&& 0xF) <<< 11) ||| ((srcPer &&& 0xF) <<< 7) ||| ((1 &&& 7) <<< 2)

/-- `DW_DMAC_ADDR_INC`. -/
def addrInc : BitVec 32 := 0

/-- `DW_DMAC_ADDR_NO_CHANGE`. -/
def addrNoChange : BitVec 32 := 2

/-- The `switch (direct)`: what `CTLL` and `CFGH` are set to. -/
def flowRegs (direct srcId destId : BitVec 32) : Option (BitVec 32 × BitVec 32) :=
  if direct = 0 then some (ctllFlow 1 1 0 addrInc addrInc, cfghPer 0 0)
  else if direct = 2 then some (ctllFlow 0 1 2 addrNoChange addrInc, cfghPer 0 srcId)
  else if direct = 1 then some (ctllFlow 1 0 1 addrInc addrNoChange, cfghPer destId 0)
  else if direct = 3 then some (ctllFlow 0 0 3 addrNoChange addrNoChange, cfghPer destId srcId)
  else none

/-- Every direction has its case: the default is never taken. -/
theorem exists_flowRegs (srcId destId : BitVec 32) :
    ∃ regs, flowRegs (direct srcId destId) srcId destId = some regs := by
  by_cases hs : srcId = -1 <;> by_cases hd : destId = -1
  · exact ⟨_, by rw [direct, if_pos hs, if_pos hd]; rfl⟩
  · exact ⟨_, by rw [direct, if_pos hs, if_neg hd]; rfl⟩
  · exact ⟨_, by rw [direct, if_neg hs, if_pos hd]; rfl⟩
  · exact ⟨_, by rw [direct, if_neg hs, if_neg hd]; rfl⟩

/-- `DW_DMAC_CTLL_INT_EN`, bursts of one element and its width. -/
def ctllWidth (elementPerWidth : BitVec 32) : BitVec 32 :=
  1 ||| ((0 &&& 7) <<< 14) ||| ((0 &&& 7) <<< 11) ||| ((elementPerWidth &&& 7) <<< 4) |||
    ((elementPerWidth &&& 7) <<< 1)

/-- One store of the set-up. -/
inductive Store (H : Type) where
  | sarh (v : BitVec 32)
  | darh (v : BitVec 32)
  | sarl (v : BitVec 32)
  | darl (v : BitVec 32)
  | ctll (v : BitVec 32)
  | cfgh (v : BitVec 32)
  | ctlh (v : BitVec 32)
  /-- `CTLL |= v`. -/
  | ctllOr (v : BitVec 32)
  | cfgl (v : BitVec 32)
  | state (v : BitVec 32)
  | irqHdl (h : Option H)
  | irqData (v : BitVec 32)
  /-- `ChEnRegL = DW_DMAC_WRITE_EN(ch)`. -/
  | start
  deriving DecidableEq, Repr

/-- The registers of a channel after a store. -/
def ChRegs.write (regs : ChRegs) : Store H → ChRegs
  | .sarh v => { regs with sarh := v }
  | .darh v => { regs with darh := v }
  | .sarl v => { regs with sarl := v }
  | .darl v => { regs with darl := v }
  | .ctll v => { regs with ctll := v }
  | .cfgh v => { regs with cfgh := v }
  | .ctlh v => { regs with ctlh := v }
  | .ctllOr v => { regs with ctll := regs.ctll ||| v }
  | .cfgl v => { regs with cfgl := v }
  | .state _ | .irqHdl _ | .irqData _ | .start => regs

namespace HgdmaDw

/-- A store for the channel `ch`. -/
def write (ch : Chan) (dev : HgdmaDw H) : Store H → HgdmaDw H
  | .state v => { dev with state := Function.update dev.state ch v }
  | .irqHdl h => { dev with irqHdl := Function.update dev.irqHdl ch h }
  | .irqData v => { dev with irqData := Function.update dev.irqData ch v }
  | .start => { dev with chEn := Function.update dev.chEn ch true }
  | store => { dev with ch := Function.update dev.ch ch ((dev.ch ch).write store) }

@[simp] theorem write_chnUsedFlag (ch : Chan) (dev : HgdmaDw H) (store : Store H) :
    (dev.write ch store).chnUsedFlag = dev.chnUsedFlag := by
  cases store <;> rfl

theorem write_irqHdl {ch ch' : Chan} {dev : HgdmaDw H} {store : Store H} {h : H}
    (hh : (dev.write ch store).irqHdl ch' = some h) :
    dev.irqHdl ch' = some h ∨ ch' = ch ∧ store = .irqHdl (some h) := by
  cases store with
  | irqHdl o =>
    by_cases hch : ch' = ch
    · subst hch
      have ho : (dev.write ch' (.irqHdl o)).irqHdl ch' = o := Function.update_self ..
      exact .inr ⟨rfl, by rw [← hh, ho]⟩
    · have ho : (dev.write ch (.irqHdl o)).irqHdl ch' = dev.irqHdl ch' :=
        Function.update_of_ne hch ..
      exact .inl (ho.symm.trans hh)
  | _ => exact .inl hh

end HgdmaDw

variable (P : Periphs)

/-- The set-up of a channel, in order; `none` is the default branch. -/
def setUp (data : DmaXferData H) : Option (List (Store H)) :=
  let srcId := P.searchSrcId data.src
  let destId := P.searchDestId data.dest
  (flowRegs (direct srcId destId) srcId destId).map fun (ctll, cfgh) =>
    [.sarh 0, .darh 0, .sarl data.src, .darl data.dest, .ctll ctll, .cfgh cfgh,
      .ctlh data.elementNum, .ctllOr (ctllWidth data.elementPerWidth), .cfgl 0, .state 0,
      .irqHdl data.irqHdl, .irqData data.irqData, .start]

theorem setUp_irqHdl {P : Periphs} {data : DmaXferData H} {stores : List (Store H)}
    (h : setUp P data = some stores) {o : Option H} (ho : .irqHdl o ∈ stores) :
    o = data.irqHdl := by
  obtain ⟨_, -, rfl⟩ := Option.map_eq_some_iff.1 h
  simpa using ho

/-! ### The driver's functions -/

namespace HgdmaDw

/-- `dw_dmac_xfer`. -/
def dwDmacXfer (dev : HgdmaDw H) (data : DmaXferData H) : CInt × HgdmaDw H :=
  if ¬ dev.opened then (retErr, dev)
  else match dev.freeChan with
    | none => (-eBusy, dev)
    | some ch =>
      let dev := dev.claim ch
      if dmaSlaveBuswidth8Bytes ≤ data.elementPerWidth then (retErr, dev)
      else match setUp P data with
        | none => (retErr, dev.release ch)
        | some stores => (BitVec.ofNat 32 ch, stores.foldl (write ch) dev)

/-- `dw_dmac_stop`. -/
def dwDmacStop (dev : HgdmaDw H) (chn : Chan) : HgdmaDw H :=
  if dev.used chn then { dev with chEn := Function.update dev.chEn chn false }.release chn else dev

@[simp] theorem used_dwDmacStop (dev : HgdmaDw H) (ch ch' : Chan) :
    (dev.dwDmacStop ch).used ch' = (dev.used ch' && !decide (ch = ch')) := by
  unfold dwDmacStop
  split
  · exact used_release _ ch ch'
  · rename_i hused
    by_cases h : ch = ch'
    · rw [← h, Bool.eq_false_of_not_eq_true hused, Bool.false_and]
    · rw [decide_eq_false h, Bool.not_false, Bool.and_true]

theorem dwDmacStop_irqHdl (dev : HgdmaDw H) (ch : Chan) :
    (dev.dwDmacStop ch).irqHdl = dev.irqHdl := by
  unfold dwDmacStop
  split <;> rfl

theorem dwDmacStop_mask (dev : HgdmaDw H) (ch : Chan) : (dev.dwDmacStop ch).mask = dev.mask := by
  unfold dwDmacStop
  split <;> rfl

/-- `ClearTfrL` or `ClearErrL`. -/
def clear (dev : HgdmaDw H) (k : IrqType) (ch : Chan) : HgdmaDw H :=
  { dev with raw := Function.update dev.raw k (Function.update (dev.raw k) ch false) }

/-- `DW_DMAC_XFER_DONE` and `DW_DMAC_XFER_ERR`. -/
def xferBit (k : IrqType) (ch : Chan) : BitVec 32 :=
  match k with
  | .done => BitVec.twoPow 32 ch
  | .error => BitVec.twoPow 32 (ch.val + 8)

/-- `state[ch] |= DW_DMAC_XFER_DONE(ch)`, or `_ERR`. -/
def mark (dev : HgdmaDw H) (k : IrqType) (ch : Chan) : HgdmaDw H :=
  { dev with state := Function.update dev.state ch (dev.state ch ||| xferBit k ch) }

/-- After `dw_dmac_attach`, which leaves `chn_used_flag` and the channels'
registers as they are: zero in a device of static storage. -/
def dwDmacAttach (ch : Chan → ChRegs) : HgdmaDw H where
  opened := true
  chnUsedFlag := 0
  irqHdl _ := none
  irqData _ := 0
  state _ := 0
  ch := ch
  chEn _ := false
  raw _ _ := false
  mask _ _ := true

end HgdmaDw

end Dmac

end Hgsdk

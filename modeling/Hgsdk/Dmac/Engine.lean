import Hgsdk.Dmac.Model
/-!
# What a channel is told to do

The controller reads a transfer off its channel's registers: how many
elements there are, how wide they are, and how the two addresses move. The
count is a field of twelve bits in `CTLH`; `dw_dmac_xfer` stores the whole
of `element_num` there.
-/

namespace Hgsdk

namespace Dmac

namespace ChRegs

variable (regs : ChRegs)

/-- `BLOCK_TS`, the low twelve bits of `CTLH`: how many elements there
are. -/
def blockTs : ℕ := (regs.ctlh &&& 0xFFF).toNat

/-- The bytes of an element. -/
def width : ℕ := 2 ^ ((regs.ctll >>> 4) &&& 7).toNat

/-- The address after `k` elements, from the field that says how it
moves. -/
def address (start dir : BitVec 32) (k : ℕ) : BitVec 32 :=
  if dir = addrInc then start + BitVec.ofNat 32 (k * regs.width)
  else if dir = addrNoChange then start
  else start - BitVec.ofNat 32 (k * regs.width)

def srcAddr (k : ℕ) : BitVec 32 := regs.address regs.sarl ((regs.ctll >>> 9) &&& 3) k

def dstAddr (k : ℕ) : BitVec 32 := regs.address regs.darl ((regs.ctll >>> 7) &&& 3) k

end ChRegs

variable {H : Type} (P : Periphs)

/-- The registers of a channel that has been set up. -/
def programmed (data : DmaXferData H) (ctll cfgh : BitVec 32) : ChRegs where
  sarl := data.src
  sarh := 0
  darl := data.dest
  darh := 0
  ctll := ctll ||| ctllWidth data.elementPerWidth
  ctlh := data.elementNum
  cfgl := 0
  cfgh := cfgh

variable {P}

/-- **An accepted request**: the channel is claimed, set up and started,
and no other is touched. -/
theorem dwDmacXfer_of_free {dev : HgdmaDw H} (data : DmaXferData H) {ch : Chan}
    (hopened : dev.opened = true) (hfree : dev.freeChan = some ch)
    (hwidth : ¬ dmaSlaveBuswidth8Bytes ≤ data.elementPerWidth) :
    ∃ ctll cfgh, flowRegs (direct (P.searchSrcId data.src) (P.searchDestId data.dest))
        (P.searchSrcId data.src) (P.searchDestId data.dest) = some (ctll, cfgh) ∧
      dev.dwDmacXfer P data = (BitVec.ofNat 32 ch, { dev.claim ch with
        ch := Function.update dev.ch ch (programmed data ctll cfgh)
        state := Function.update dev.state ch 0
        irqHdl := Function.update dev.irqHdl ch data.irqHdl
        irqData := Function.update dev.irqData ch data.irqData
        chEn := Function.update dev.chEn ch true }) := by
  obtain ⟨⟨ctll, cfgh⟩, hflow⟩ :=
    exists_flowRegs (P.searchSrcId data.src) (P.searchDestId data.dest)
  refine ⟨ctll, cfgh, hflow, ?_⟩
  have hsetUp : setUp P data = some _ := Option.map_eq_some_iff.2 ⟨_, hflow, rfl⟩
  rw [HgdmaDw.dwDmacXfer, if_neg (not_not_intro hopened), hfree]
  dsimp only
  rw [if_neg hwidth, hsetUp]
  simp only [List.foldl_cons, List.foldl_nil, HgdmaDw.write, ChRegs.write, Function.update_idem,
    Function.update_self, HgdmaDw.claim]
  rfl

/-- What an accepted request changes, as far as interrupts go. -/
structure Accepted (dev dev' : HgdmaDw H) (data : DmaXferData H) (ch : Chan) : Prop where
  free : dev.used ch = false
  used : ∀ c, dev'.used c = (dev.used c || decide (ch = c))
  irqHdl : dev'.irqHdl = Function.update dev.irqHdl ch data.irqHdl
  irqData : dev'.irqData = Function.update dev.irqData ch data.irqData
  chEn : dev'.chEn = Function.update dev.chEn ch true

/-- A refused one may have kept a channel. -/
structure Declined (dev dev' : HgdmaDw H) : Prop where
  used : ∀ c, dev.used c = true → dev'.used c = true
  irqHdl : dev'.irqHdl = dev.irqHdl
  irqData : dev'.irqData = dev.irqData
  chEn : dev'.chEn = dev.chEn

/-- **A request is accepted or refused**, and the result says which. -/
theorem dwDmacXfer_accepted_or_declined (P : Periphs) (dev : HgdmaDw H) (data : DmaXferData H) :
    (∃ ch : Chan, (dev.dwDmacXfer P data).1 = BitVec.ofNat 32 ch ∧
      Accepted dev (dev.dwDmacXfer P data).2 data ch) ∨
    (dev.dwDmacXfer P data).1.toInt < 0 ∧ Declined dev (dev.dwDmacXfer P data).2 := by
  have hsame : Declined dev dev := ⟨fun _ h => h, rfl, rfl, rfl⟩
  have hbusy : (-eBusy).toInt < 0 := by decide
  have herr : retErr.toInt < 0 := by decide
  by_cases hopened : dev.opened = true
  · cases hfree : dev.freeChan with
    | none =>
      have heq : dev.dwDmacXfer P data = (-eBusy, dev) := by
        rw [HgdmaDw.dwDmacXfer, if_neg (not_not_intro hopened), hfree]
      rw [heq]
      exact .inr ⟨hbusy, hsame⟩
    | some ch =>
      by_cases hwide : dmaSlaveBuswidth8Bytes ≤ data.elementPerWidth
      · have heq : dev.dwDmacXfer P data = (retErr, dev.claim ch) := by
          rw [HgdmaDw.dwDmacXfer, if_neg (not_not_intro hopened), hfree]
          exact if_pos hwide
        rw [heq]
        refine .inr ⟨herr, fun c hc => ?_, rfl, rfl, rfl⟩
        rw [HgdmaDw.used_claim, hc, Bool.true_or]
      · obtain ⟨ctll, cfgh, -, heq⟩ := dwDmacXfer_of_free (P := P) data hopened hfree hwide
        rw [heq]
        exact .inl ⟨ch, rfl,
          { free := HgdmaDw.freeChan_eq_some hfree
            used := HgdmaDw.used_claim dev ch
            irqHdl := rfl
            irqData := rfl
            chEn := rfl }⟩
  · have heq : dev.dwDmacXfer P data = (retErr, dev) := if_pos hopened
    rw [heq]
    exact .inr ⟨herr, hsame⟩

/-- A request leaves the interrupt masks alone. -/
theorem dwDmacXfer_mask (P : Periphs) (dev : HgdmaDw H) (data : DmaXferData H) :
    (dev.dwDmacXfer P data).2.mask = dev.mask := by
  have hfold : ∀ (ch : Chan) (stores : List (Store H)) (dev : HgdmaDw H),
      (stores.foldl (HgdmaDw.write ch) dev).mask = dev.mask := by
    intro ch stores
    induction stores with
    | nil => exact fun _ => rfl
    | cons store stores ih =>
      intro dev
      rw [List.foldl_cons, ih]
      cases store <;> rfl
  unfold HgdmaDw.dwDmacXfer
  split
  · rfl
  · split
    · rfl
    · dsimp only
      split
      · rfl
      · split
        · rfl
        · exact hfold _ _ _

/-! ### Bytes between a buffer and a data register -/

/-- `n` bytes from `buf` on to the register `reg`. -/
structure ChRegs.MemToReg (regs : ChRegs) (buf reg : BitVec 32) (n : ℕ) : Prop where
  blockTs : regs.blockTs = n
  width : regs.width = 1
  srcAddr : ∀ k, regs.srcAddr k = buf + BitVec.ofNat 32 k
  dstAddr : ∀ k, regs.dstAddr k = reg

/-- `n` bytes from the register `reg` to `buf` and on. -/
structure ChRegs.RegToMem (regs : ChRegs) (reg buf : BitVec 32) (n : ℕ) : Prop where
  blockTs : regs.blockTs = n
  width : regs.width = 1
  srcAddr : ∀ k, regs.srcAddr k = reg
  dstAddr : ∀ k, regs.dstAddr k = buf + BitVec.ofNat 32 k

/-- `n` bytes from `src` on to `dst` and on. -/
structure ChRegs.MemToMem (regs : ChRegs) (src dst : BitVec 32) (n : ℕ) : Prop where
  blockTs : regs.blockTs = n
  width : regs.width = 1
  srcAddr : ∀ k, regs.srcAddr k = src + BitVec.ofNat 32 k
  dstAddr : ∀ k, regs.dstAddr k = dst + BitVec.ofNat 32 k

theorem and_fff_toNat (v : BitVec 32) : (v &&& 0xFFF).toNat = v.toNat % 4096 := by
  have hmask : (0xFFF : BitVec 32).toNat = 2 ^ 12 - 1 := rfl
  rw [BitVec.toNat_and, hmask, Nat.and_two_pow_sub_one_eq_mod]

variable {data : DmaXferData H} {ctll cfgh srcId destId : BitVec 32}

theorem programmed_memToReg (hbyte : data.elementPerWidth = 0) (hsrc : srcId = -1)
    (hdest : destId ≠ -1)
    (hflow : flowRegs (direct srcId destId) srcId destId = some (ctll, cfgh)) :
    (programmed data ctll cfgh).MemToReg data.src data.dest (data.elementNum.toNat % 4096) := by
  rw [direct, if_pos hsrc, if_neg hdest] at hflow
  obtain ⟨rfl, -⟩ := Prod.mk.inj (Option.some.inj hflow)
  have hctll : (programmed data (ctllFlow 1 0 1 addrInc addrNoChange) cfgh).ctll =
      ctllFlow 1 0 1 addrInc addrNoChange ||| ctllWidth 0 := by rw [← hbyte]; rfl
  have hwidth : (programmed data (ctllFlow 1 0 1 addrInc addrNoChange) cfgh).width = 1 := by
    rw [ChRegs.width, hctll]
    decide
  refine ⟨and_fff_toNat _, hwidth, fun k => ?_, fun k => ?_⟩
  · have hdir : ((ctllFlow 1 0 1 addrInc addrNoChange ||| ctllWidth 0) >>> 9) &&& 3 = addrInc := by
      decide
    rw [ChRegs.srcAddr, hctll, hdir, ChRegs.address, if_pos rfl, hwidth, Nat.mul_one]
    rfl
  · have hdir : ((ctllFlow 1 0 1 addrInc addrNoChange ||| ctllWidth 0) >>> 7) &&& 3 =
        addrNoChange := by decide
    rw [ChRegs.dstAddr, hctll, hdir, ChRegs.address, if_neg (by decide), if_pos rfl]
    rfl

theorem programmed_regToMem (hbyte : data.elementPerWidth = 0) (hsrc : srcId ≠ -1)
    (hdest : destId = -1)
    (hflow : flowRegs (direct srcId destId) srcId destId = some (ctll, cfgh)) :
    (programmed data ctll cfgh).RegToMem data.src data.dest (data.elementNum.toNat % 4096) := by
  rw [direct, if_neg hsrc, if_pos hdest] at hflow
  obtain ⟨rfl, -⟩ := Prod.mk.inj (Option.some.inj hflow)
  have hctll : (programmed data (ctllFlow 0 1 2 addrNoChange addrInc) cfgh).ctll =
      ctllFlow 0 1 2 addrNoChange addrInc ||| ctllWidth 0 := by rw [← hbyte]; rfl
  have hwidth : (programmed data (ctllFlow 0 1 2 addrNoChange addrInc) cfgh).width = 1 := by
    rw [ChRegs.width, hctll]
    decide
  refine ⟨and_fff_toNat _, hwidth, fun k => ?_, fun k => ?_⟩
  · have hdir : ((ctllFlow 0 1 2 addrNoChange addrInc ||| ctllWidth 0) >>> 9) &&& 3 =
        addrNoChange := by decide
    rw [ChRegs.srcAddr, hctll, hdir, ChRegs.address, if_neg (by decide), if_pos rfl]
    rfl
  · have hdir : ((ctllFlow 0 1 2 addrNoChange addrInc ||| ctllWidth 0) >>> 7) &&& 3 = addrInc := by
      decide
    rw [ChRegs.dstAddr, hctll, hdir, ChRegs.address, if_pos rfl, hwidth, Nat.mul_one]
    rfl

theorem programmed_memToMem (hbyte : data.elementPerWidth = 0) (hsrc : srcId = -1)
    (hdest : destId = -1)
    (hflow : flowRegs (direct srcId destId) srcId destId = some (ctll, cfgh)) :
    (programmed data ctll cfgh).MemToMem data.src data.dest (data.elementNum.toNat % 4096) := by
  rw [direct, if_pos hsrc, if_pos hdest] at hflow
  obtain ⟨rfl, -⟩ := Prod.mk.inj (Option.some.inj hflow)
  have hctll : (programmed data (ctllFlow 1 1 0 addrInc addrInc) cfgh).ctll =
      ctllFlow 1 1 0 addrInc addrInc ||| ctllWidth 0 := by rw [← hbyte]; rfl
  have hwidth : (programmed data (ctllFlow 1 1 0 addrInc addrInc) cfgh).width = 1 := by
    rw [ChRegs.width, hctll]
    decide
  refine ⟨and_fff_toNat _, hwidth, fun k => ?_, fun k => ?_⟩
  · have hdir : ((ctllFlow 1 1 0 addrInc addrInc ||| ctllWidth 0) >>> 9) &&& 3 = addrInc := by
      decide
    rw [ChRegs.srcAddr, hctll, hdir, ChRegs.address, if_pos rfl, hwidth, Nat.mul_one]
    rfl
  · have hdir : ((ctllFlow 1 1 0 addrInc addrInc ||| ctllWidth 0) >>> 7) &&& 3 = addrInc := by
      decide
    rw [ChRegs.dstAddr, hctll, hdir, ChRegs.address, if_pos rfl, hwidth, Nat.mul_one]
    rfl

end Dmac

end Hgsdk

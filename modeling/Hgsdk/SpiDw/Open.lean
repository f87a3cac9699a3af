import Hgsdk.SpiDw.Model
/-!
# What a failed open leaves behind

`hgspi_dw_open` has six exits on failure and undoes next to nothing on any
of them. What the device holds after a call is a function of the exit, and
a call keeps what was held exactly on the exits, and from the states, that
`keepsAt` lists. From a closed device that holds nothing these are two: the
pins were not to be had, and success followed by a close.
-/

namespace Hgsdk

namespace SpiDw

open SpiNor (OpenEnv spiWireNormalMode)

variable {chip : Chip} {env : OpenEnv} {clkFreq workMode wireMode clkMode : BitVec 32}
variable {pinFuncRet : CInt} {s t : Dev}

/-! ### What is held -/

/-- What the device holds: whether it is open, its pins, its semaphores and
the controller's enable bit. -/
structure Held where
  opened : BitVec 32
  pins : Bool
  txDma : Bool
  rxDma : Bool
  enabled : Bool
  deriving DecidableEq, Repr

def Dev.held (s : Dev) : Held :=
  ⟨s.opened, s.pins, s.semas .txDma, s.semas .rxDma, s.regs.ssienr.getLsbD 0⟩

/-- The device once its clock runs. -/
def clocked (chip : Chip) (s : Dev) : Dev :=
  match s.port with
  | none => s
  | some port => { s with
      clkEn := fun p => if p = port then true else s.clkEn p
      regs := chip.resetRegs }

/-- The enable bit once the controller has been reset, if it is. -/
def resetEnabled (chip : Chip) (s : Dev) : Bool := (clocked chip s).regs.ssienr.getLsbD 0

theorem held_clocked : (clocked chip s).held = { s.held with enabled := resetEnabled chip s } := by
  rw [resetEnabled, Dev.held, clocked]
  cases s.port with
  | none => rfl
  | some port => rfl

theorem opened_clocked : (clocked chip s).opened = s.opened := congrArg Held.opened held_clocked

theorem ssienr_disabled : (0 : BitVec 32).getLsbD 0 = false := by decide

theorem ssienr_enabled : (1 : BitVec 32).getLsbD 0 = true := by decide

/-- The rest of the device is not looked at. -/
theorem held_of_regs {v : Dev} {pins enabled : Bool} (hopened : v.opened = s.opened)
    (hpins : v.pins = pins) (hsemas : v.semas = s.semas)
    (hssienr : v.regs.ssienr.getLsbD 0 = enabled) :
    v.held = { s.held with pins := pins, enabled := enabled } := by
  rw [Dev.held, hopened, hpins, hsemas, hssienr]
  rfl

theorem semas_clocked : (clocked chip s).semas = s.semas := by
  rw [clocked]
  cases s.port with
  | none => rfl
  | some port => rfl

/-! ### The exits -/

/-- Where `hgspi_dw_open` returns. -/
inductive Exit
  | busy | pins | irq | wire | txDma | rxDma | done
  deriving DecidableEq, Repr

def exitOf (env : OpenEnv) (wireMode : BitVec 32) (s : Dev) : Exit :=
  if s.opened ≠ 0 then .busy
  else if env.pinFunc ≠ retOk then .pins
  else if env.requestIrq ≠ retOk then .irq
  else if wireMode ≠ spiWireNormalMode then .wire
  else if env.txSemaInit ≠ retOk then .txDma
  else if env.rxSemaInit ≠ retOk then .rxDma
  else .done

/-- What it returns there. -/
def Exit.code (env : OpenEnv) : Exit → CInt
  | busy => -eBusy
  | pins | irq | wire => retErr
  | txDma => env.txSemaInit
  | rxDma => env.rxSemaInit
  | done => retOk

/-- What the device holds there. -/
def Exit.leaves (chip : Chip) (s : Dev) : Exit → Held
  | busy => s.held
  | pins => { s.held with enabled := resetEnabled chip s }
  | irq => { s.held with pins := true, enabled := resetEnabled chip s }
  | wire => { s.held with pins := true, enabled := false }
  | txDma => { s.held with pins := true, enabled := true }
  | rxDma => { s.held with pins := true, txDma := false, enabled := true }
  | done => ⟨1, true, true, true, true⟩

/-- The exit is reached before the clock is divided. -/
def Exit.Early : Exit → Prop
  | busy | pins | irq | wire => True
  | txDma | rxDma | done => False

/-! ### The calls -/

section Rules

variable {Q : CInt → Dev → Prop} {Q₀ : PUnit → Dev → Prop}

theorem ensures_sysctrlSpiOpen :
    Ensures (sysctrlSpiOpen chip) s Q₀ ↔ Q₀ ⟨⟩ (clocked chip s) := ensures_modify

theorem ensures_pinFunc {ret : CInt} {request : Bool} :
    Ensures (pinFunc ret request) s Q ↔
      Q ret (if ret = retOk then { s with pins := request } else s) := by
  rw [pinFunc]
  split
  · rw [ensures_bind, ensures_modify, ensures_pure]
  · exact ensures_pure

theorem ensures_requestIrq {ret : CInt} :
    Ensures (requestIrq ret) s Q ↔
      Q ret (if ret = retOk then { s with irqHandler := true } else s) := by
  rw [requestIrq]
  split
  · rw [ensures_bind, ensures_modify, ensures_pure]
  · exact ensures_pure

theorem ensures_setRegs {f : Regs → Regs} :
    Ensures (setRegs f) s Q₀ ↔ Q₀ ⟨⟩ { s with regs := f s.regs } := ensures_modify

theorem ensures_osSemaInit {sema : Sema} {ret : CInt} :
    Ensures (osSemaInit sema ret) s Q ↔
      Q ret (if ret = retOk then
        { s with semas := fun x => if x = sema then true else s.semas x } else s) := by
  rw [osSemaInit]
  split
  · rw [ensures_bind, ensures_modify, ensures_pure]
  · exact ensures_pure

end Rules

/-- The registers of a transfer are all that `program` writes. -/
theorem program_frame (hfreq : clkFreq ≠ 0) :
    Ensures (program chip clkFreq workMode clkMode) s fun _ t =>
      t.opened = s.opened ∧ t.pins = s.pins ∧ t.semas = s.semas := by
  rw [program, ensures_bind, ensures_setRegs, ensures_bind, ensures_deref, clkDiv, if_neg hfreq]
  refine ⟨_, rfl, ?_⟩
  rw [ensures_setRegs]
  exact ⟨rfl, rfl, rfl⟩

/-- The exit among the last three, which the semaphores decide. -/
def semaExit (env : OpenEnv) : Exit :=
  if env.txSemaInit ≠ retOk then .txDma
  else if env.rxSemaInit ≠ retOk then .rxDma
  else .done

theorem semaExit_not_early : ¬ (semaExit env).Early := by
  rw [semaExit]
  split
  · exact id
  · split
    · exact id
    · exact id

/-- The last two exits on failure, and success. -/
theorem openSemas_leaves {v : Dev} (hv : v.held = { s.held with pins := true, enabled := true }) :
    Ensures (openSemas env) v fun r t =>
      r = (semaExit env).code env ∧ t.held = (semaExit env).leaves chip s := by
  have hopened : v.opened = s.opened := congrArg Held.opened hv
  have hpins : v.pins = true := congrArg Held.pins hv
  have hrx : v.semas .rxDma = s.semas .rxDma := congrArg Held.rxDma hv
  have henabled : v.regs.ssienr.getLsbD 0 = true := congrArg Held.enabled hv
  rw [openSemas, ensures_bind, ensures_osSemaInit, semaExit]
  by_cases htx : env.txSemaInit ≠ retOk
  · rw [if_pos htx, if_neg htx, if_pos htx, ensures_pure]
    exact ⟨rfl, hv⟩
  rw [if_neg htx, if_pos (not_not.1 htx), if_neg htx, ensures_bind, ensures_osSemaInit]
  by_cases hrxe : env.rxSemaInit ≠ retOk
  · rw [if_pos hrxe, if_neg hrxe, if_pos hrxe, ensures_bind, osSemaDel, ensures_modify,
      ensures_pure]
    refine ⟨rfl, ?_⟩
    show Held.mk v.opened v.pins false (v.semas .rxDma) (v.regs.ssienr.getLsbD 0) = _
    rw [hopened, hpins, hrx, henabled]
    rfl
  · rw [if_neg hrxe, if_pos (not_not.1 hrxe), if_neg hrxe, ensures_bind, ensures_modify,
      ensures_pure]
    refine ⟨rfl, ?_⟩
    show Held.mk 1 v.pins true true (v.regs.ssienr.getLsbD 0) = _
    rw [hpins, henabled]
    rfl

/-- **What a call returns and leaves is a function of its exit.** -/
theorem hgspiDwOpen_leaves (hfreq : (exitOf env wireMode s).Early ∨ clkFreq ≠ 0) :
    Ensures (hgspiDwOpen chip env clkFreq workMode wireMode clkMode) s fun r t =>
      r = (exitOf env wireMode s).code env ∧ t.held = (exitOf env wireMode s).leaves chip s := by
  rw [hgspiDwOpen, ensures_bind, ensures_get]
  by_cases hopened : s.opened ≠ 0
  · rw [if_pos hopened, ensures_pure, exitOf, if_pos hopened]
    exact ⟨rfl, rfl⟩
  rw [if_neg hopened, ensures_bind, ensures_sysctrlSpiOpen, ensures_bind, ensures_pinFunc]
  by_cases hpins : env.pinFunc ≠ retOk
  · rw [if_pos hpins, if_neg hpins, ensures_pure, exitOf, if_neg hopened, if_pos hpins]
    exact ⟨rfl, held_clocked⟩
  rw [if_neg hpins, if_pos (not_not.1 hpins), ensures_bind, ensures_requestIrq]
  by_cases hirq : env.requestIrq ≠ retOk
  · rw [if_pos hirq, if_neg hirq, ensures_pure, exitOf, if_neg hopened, if_neg hpins, if_pos hirq]
    exact ⟨rfl, held_of_regs opened_clocked rfl semas_clocked rfl⟩
  rw [if_neg hirq, if_pos (not_not.1 hirq), ensures_bind, hgspiDwDisable, ensures_setRegs,
    ensures_bind, ensures_setRegs]
  by_cases hwire : wireMode ≠ spiWireNormalMode
  · rw [if_pos hwire, ensures_pure, exitOf, if_neg hopened, if_neg hpins, if_neg hirq,
      if_pos hwire]
    exact ⟨rfl, held_of_regs opened_clocked rfl semas_clocked ssienr_disabled⟩
  have hexit : exitOf env wireMode s = semaExit env := by
    rw [exitOf, if_neg hopened, if_neg hpins, if_neg hirq, if_neg hwire, semaExit]
  rw [hexit] at hfreq ⊢
  rw [if_neg hwire]
  refine (program_frame (hfreq.resolve_left semaExit_not_early)).bind ?_
  rintro _ u ⟨huopened, hupins, husemas⟩
  rw [ensures_bind, hgspiDwEnable, ensures_setRegs]
  -- the controller is enabled before the semaphores are asked for
  exact openSemas_leaves (held_of_regs (huopened.trans opened_clocked) hupins
    (husemas.trans semas_clocked) ssienr_enabled)

/-- A call that gets to the division by a zero frequency does not return. -/
theorem early_or_freq_of_returns
    (h : Ensures (hgspiDwOpen chip env clkFreq workMode wireMode clkMode) s fun _ _ => True) :
    (exitOf env wireMode s).Early ∨ clkFreq ≠ 0 := by
  rw [exitOf]
  rw [hgspiDwOpen, ensures_bind, ensures_get] at h
  by_cases hopened : s.opened ≠ 0
  · rw [if_pos hopened]
    exact Or.inl trivial
  rw [if_neg hopened, ensures_bind, ensures_sysctrlSpiOpen, ensures_bind, ensures_pinFunc] at h
  rw [if_neg hopened]
  by_cases hpins : env.pinFunc ≠ retOk
  · rw [if_pos hpins]
    exact Or.inl trivial
  rw [if_neg hpins, ensures_bind, ensures_requestIrq] at h
  rw [if_neg hpins]
  by_cases hirq : env.requestIrq ≠ retOk
  · rw [if_pos hirq]
    exact Or.inl trivial
  rw [if_neg hirq, ensures_bind, hgspiDwDisable, ensures_setRegs, ensures_bind,
    ensures_setRegs] at h
  rw [if_neg hirq]
  by_cases hwire : wireMode ≠ spiWireNormalMode
  · rw [if_pos hwire]
    exact Or.inl trivial
  rw [if_neg hwire, ensures_bind, program, ensures_bind, ensures_setRegs, ensures_bind,
    ensures_deref, clkDiv] at h
  obtain ⟨clkDivCnt, hdiv, -⟩ := h
  refine Or.inr fun hzero => ?_
  rw [if_pos hzero] at hdiv
  cases hdiv

/-- **The flash's view of the call.** What the tasks on the flash see of it,
the code and whether the device is open, is what this model returns. -/
theorem hgspiDwOpen_coarse {r : CInt}
    (h : hgspiDwOpen chip env clkFreq workMode wireMode clkMode s = some (r, t)) :
    SpiNor.hgspiDwOpen env wireMode (decide (s.opened ≠ 0)) = (r, decide (t.opened ≠ 0)) := by
  obtain ⟨hr, ht⟩ := (hgspiDwOpen_leaves (early_or_freq_of_returns ⟨r, t, h, trivial⟩)).of_eq h
  have htopened : t.opened = ((exitOf env wireMode s).leaves chip s).opened :=
    congrArg Held.opened ht
  rw [hr, htopened, SpiNor.hgspiDwOpen, exitOf]
  simp only [decide_eq_true_eq]
  split
  next => rfl
  next =>
    split
    next => rfl
    next =>
      split
      next => rfl
      next =>
        split
        next => rfl
        next =>
          split
          next => rfl
          next =>
            split
            next => rfl
            next => rfl

/-! ### Closing -/

/-- An open device gives back everything, the pins where `pin_func` lets it. -/
theorem hgspiDwClose_leaves (hopen : t.opened ≠ 0) :
    Ensures (hgspiDwClose pinFuncRet) t fun r u =>
      r = retOk ∧
        u.held = ⟨0, if pinFuncRet = retOk then false else t.pins, false, false, false⟩ := by
  rw [hgspiDwClose, ensures_bind, ensures_get, if_neg hopen, ensures_bind, irqDisable,
    ensures_modify, ensures_bind, ensures_pinFunc, ensures_bind, hgspiDwDisable, ensures_setRegs,
    ensures_bind, osSemaDel, ensures_modify, ensures_bind, osSemaDel, ensures_modify,
    ensures_bind, ensures_modify, ensures_pure]
  refine ⟨rfl, ?_⟩
  split
  · exact congrArg (Held.mk 0 false false false) ssienr_disabled
  · exact congrArg (Held.mk 0 t.pins false false) ssienr_disabled

/-! ### What is kept -/

/-- **A call changes nothing for good**: a failed one leaves what was held,
and after a successful one a close brings it back. -/
def OpenKeeps (pinFuncRet : CInt) (s : Dev) (r : CInt) (t : Dev) : Prop :=
  (r ≠ retOk → t.held = s.held) ∧
    (r = retOk → Ensures (hgspiDwClose pinFuncRet) t fun _ u => u.held = s.held)

/-- The states from which an exit keeps what was held. -/
def Exit.Keeps (chip : Chip) (pinFuncRet : CInt) (s : Dev) : Exit → Prop
  | busy => True
  | pins => s.held.enabled = resetEnabled chip s
  | irq => s.pins = true ∧ s.held.enabled = resetEnabled chip s
  | wire => s.pins = true ∧ s.held.enabled = false
  | txDma => s.pins = true ∧ s.held.enabled = true
  | rxDma => s.pins = true ∧ s.semas .txDma = false ∧ s.held.enabled = true
  | done => s.pins = decide (pinFuncRet ≠ retOk) ∧ s.semas .txDma = false ∧
      s.semas .rxDma = false ∧ s.held.enabled = false

/-- The seventh exit is the only one that returns `RET_OK`. -/
theorem code_exitOf_eq (env : OpenEnv) (wireMode : BitVec 32) (s : Dev) :
    (exitOf env wireMode s).code env = retOk ↔ exitOf env wireMode s = .done := by
  have hbusy : -eBusy ≠ retOk := by decide
  have herr : retErr ≠ retOk := by decide
  rw [exitOf]
  split
  · exact iff_of_false hbusy (by decide)
  · split
    · exact iff_of_false herr (by decide)
    · split
      · exact iff_of_false herr (by decide)
      · split
        · exact iff_of_false herr (by decide)
        · split
          next htx => exact iff_of_false htx (by decide)
          next =>
            split
            next hrx => exact iff_of_false hrx (by decide)
            next => exact iff_of_true rfl rfl

theorem opened_of_exitOf_ne {e : Exit} (h : exitOf env wireMode s = e) (he : e ≠ .busy) :
    s.opened = 0 := by
  by_contra hopened
  rw [exitOf, if_pos hopened] at h
  exact he h.symm

/-- On a failing exit what is left is what was held exactly where it keeps. -/
theorem leaves_eq_iff {e : Exit} (he : e ≠ .done) :
    e.leaves chip s = s.held ↔ e.Keeps chip pinFuncRet s := by
  cases e with
  | busy => exact iff_of_true rfl trivial
  | pins => simp only [Exit.leaves, Exit.Keeps, Dev.held, Held.mk.injEq, true_and, eq_comm]
  | irq => simp only [Exit.leaves, Exit.Keeps, Dev.held, Held.mk.injEq, true_and, eq_comm]
  | wire =>
    simp only [Exit.leaves, Exit.Keeps, Dev.held, Held.mk.injEq, true_and, Bool.true_eq,
      Bool.false_eq]
  | txDma => simp only [Exit.leaves, Exit.Keeps, Dev.held, Held.mk.injEq, true_and, Bool.true_eq]
  | rxDma =>
    simp only [Exit.leaves, Exit.Keeps, Dev.held, Held.mk.injEq, true_and, Bool.true_eq,
      Bool.false_eq]
  | done => exact absurd rfl he

/-- After a close the device holds what it held exactly where the seventh
exit keeps. -/
theorem closed_eq_iff (hopened : s.opened = 0) :
    (⟨0, if pinFuncRet = retOk then false else true, false, false, false⟩ : Held) = s.held ↔
      Exit.done.Keeps chip pinFuncRet s := by
  have hpins : (if pinFuncRet = retOk then false else true) = decide (pinFuncRet ≠ retOk) := by
    by_cases h : pinFuncRet = retOk
    · rw [if_pos h, decide_eq_false (not_not.2 h)]
    · rw [if_neg h, decide_eq_true h]
  rw [hpins, eq_comm]
  simp only [Exit.Keeps, Dev.held, Held.mk.injEq, hopened, true_and]

/-- **Success**: what counts is what the close leaves. -/
theorem openKeeps_done_iff (hopened : s.opened = 0) (ht : t.held = Exit.done.leaves chip s) :
    OpenKeeps pinFuncRet s retOk t ↔ Exit.done.Keeps chip pinFuncRet s := by
  have htopen : t.opened ≠ 0 := by
    have h1 : t.opened = 1 := congrArg Held.opened ht
    rw [h1]
    decide
  have htpins : t.pins = true := congrArg Held.pins ht
  have hclose := @hgspiDwClose_leaves pinFuncRet t htopen
  rw [htpins] at hclose
  rw [← closed_eq_iff hopened]
  constructor
  · rintro ⟨-, hback⟩
    obtain ⟨r', u, hrun', hu⟩ := hback rfl
    rw [← (hclose.of_eq hrun').2]
    exact hu
  · intro heq
    refine ⟨fun hne => absurd rfl hne, fun _ => hclose.mono ?_⟩
    rintro r' u ⟨-, hu⟩
    rw [hu]
    exact heq

/-- **When opening the SPI controller changes nothing.** A call returns
unless it divides by a zero frequency. It keeps what the device holds
exactly where its exit keeps: always on a busy device; without pins where
the reset does not touch the enable bit; on the other failures only where
the pins were the device's before and the enable bit was what the exit
leaves, and without the second semaphore only where the first did not exist;
and through a close only where nothing was held, or the pins that `pin_func`
does not give back. -/
theorem hgspiDwOpen_keeps (chip : Chip) (env : OpenEnv)
    (clkFreq workMode wireMode clkMode : BitVec 32) (pinFuncRet : CInt) (s : Dev) :
    ((∃ r t, hgspiDwOpen chip env clkFreq workMode wireMode clkMode s = some (r, t)) ↔
      (exitOf env wireMode s).Early ∨ clkFreq ≠ 0) ∧
    ∀ r t, hgspiDwOpen chip env clkFreq workMode wireMode clkMode s = some (r, t) →
      (OpenKeeps pinFuncRet s r t ↔ (exitOf env wireMode s).Keeps chip pinFuncRet s) := by
  refine ⟨⟨?_, fun hfreq => ?_⟩, fun r t hrun => ?_⟩
  · rintro ⟨r, t, hrun⟩
    exact early_or_freq_of_returns ⟨r, t, hrun, trivial⟩
  · have hleaves : Ensures (hgspiDwOpen chip env clkFreq workMode wireMode clkMode) s _ :=
      hgspiDwOpen_leaves hfreq
    obtain ⟨r, t, hrun, -⟩ := hleaves
    exact ⟨r, t, hrun⟩
  · have hfreq := early_or_freq_of_returns ⟨r, t, hrun, trivial⟩
    obtain ⟨hr, ht⟩ := (hgspiDwOpen_leaves hfreq).of_eq hrun
    have hcode := code_exitOf_eq env wireMode s
    rw [← hr] at hcode
    by_cases hdone : exitOf env wireMode s = .done
    · have hopened : s.opened = 0 := opened_of_exitOf_ne hdone (by decide)
      rw [hdone] at ht ⊢
      rw [hcode.2 hdone]
      exact openKeeps_done_iff hopened ht
    · have hfail : r ≠ retOk := mt hcode.1 hdone
      rw [← leaves_eq_iff hdone, ← ht]
      exact ⟨fun h => h.1 hfail, fun h => ⟨fun _ => h, fun hok => absurd hok hfail⟩⟩

/-- A closed device that holds nothing, and whose controller a reset
disables. -/
def closedDev : Dev where
  port := some .spi0
  opened := 0
  regs := ⟨0, 0, 0, 0, 0, 0, 0, 0, 0, 0, 0, 0, 0⟩
  clkEn _ := false
  pins := false
  irqHandler := false
  irqEnabled := false
  semas _ := false

def resetChip : Chip := ⟨closedDev.regs, 160000000⟩

/-- **The pins are leaked.** The interrupt is refused: the call fails and the
pins stay the device's. -/
theorem hgspiDwOpen_leaks_pins :
    ∃ t, hgspiDwOpen resetChip ⟨retOk, retErr, retOk, retOk⟩ 1000000 spiMasterMode
        spiWireNormalMode 0 closedDev = some (retErr, t) ∧
      closedDev.pins = false ∧ t.pins = true ∧ ¬ OpenKeeps retOk closedDev retErr t := by
  refine ⟨_, rfl, rfl, rfl, fun h => ?_⟩
  have hheld := congrArg Held.pins (h.1 (by decide))
  exact absurd hheld (by decide)

end SpiDw

end Hgsdk

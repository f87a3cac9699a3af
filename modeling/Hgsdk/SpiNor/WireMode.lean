import Hgsdk.SpiNor.Commands
/-!
# Wires and modes

Between two operations the controller is on its normal wires and the chip
in the mode the flash was opened in. Each command puts its instruction on
the wires the chip expects — except three that a flash opened in QPI mode
sends on one wire: the two power-down commands, and the read of the
identifier in `spi_nor_attach`.
-/

namespace Hgsdk

namespace SpiNor

variable {B : Board} {mode : Mode} {w w₁ w₂ : World} {α β : Type} {q q' : Bool}

/-- Between two commands: the normal wires, the chip in QPI mode or not,
and not selected. -/
structure Between (q : Bool) (w : World) : Prop where
  wire : w.wire = .normal
  qpi : w.chip.qpi = q
  frame : w.frame = none

/-- The instructions sent from `w` to `w'` all agreed with the chip's mode
exactly if `ok`. -/
def Said (ok : Prop) (w w' : World) : Prop :=
  ∃ es, w'.log = w.log ++ es ∧ ((∀ e ∈ es, e.Agrees) ↔ ok)

/-- What was said from `w` to `w'`, and the mode the chip is in then. -/
structure Spoke (q : Bool) (ok : Prop) (w w' : World) : Prop where
  between : Between q w'
  said : Said ok w w'

theorem Said.trans {ok ok' : Prop} (h : Said ok w w₁) (h' : Said ok' w₁ w₂) :
    Said (ok ∧ ok') w w₂ := by
  obtain ⟨es, hes, hok⟩ := h
  obtain ⟨es', hes', hok'⟩ := h'
  refine ⟨es ++ es', by rw [hes', hes, List.append_assoc], ?_⟩
  simp only [List.mem_append, or_imp, forall_and]
  rw [hok, hok']

/-- One instruction. -/
theorem Said.single {e : Sent} (h : w₁.log = w.log ++ [e]) : Said e.Agrees w w₁ :=
  ⟨[e], h, by simp⟩

namespace Spoke

variable {ok ok' : Prop}

theorem refl (h : Between q w) : Spoke q True w w := ⟨h, [], by simp, by simp⟩

theorem trans (h : Spoke q ok w w₁) (h' : Spoke q' ok' w₁ w₂) : Spoke q' (ok ∧ ok') w w₂ :=
  ⟨h'.between, h.said.trans h'.said⟩

theorem congr (h : Spoke q ok w w₁) (hok : ok ↔ ok') : Spoke q ok' w w₁ := by
  obtain ⟨hb, es, hes, hiff⟩ := h
  exact ⟨hb, es, hes, hiff.trans hok⟩

/-- Two stretches in agreement are one. -/
theorem and_true (h : Spoke q True w w₁) (h' : Spoke q' True w₁ w₂) : Spoke q' True w w₂ :=
  (h.trans h').congr (by simp)

end Spoke

/-! ### One command -/

section Command

variable {i : Byte} {args : List Byte}

/-- On the normal wires an instruction agrees with a chip in SPI mode. -/
theorem spoke_command (h : Between q w) (hi : KeepsQpi i) :
    Spoke q (q = false) w (w.command B (i :: args)) := by
  refine ⟨⟨h.wire, (command_qpi hi).trans h.qpi, rfl⟩, ?_⟩
  obtain ⟨es, hes, hok⟩ : Said (Sent.Agrees ⟨i, w.wire, w.chip.qpi⟩) w
      (w.command B (i :: args)) := Said.single command_log
  refine ⟨es, hes, hok.trans ?_⟩
  show w.wire = expectedWire w.chip.qpi ↔ q = false
  rw [h.wire, h.qpi]
  cases q <;> decide

/-- The same command on four wires, and back to the normal ones. -/
def World.quadCommand (w : World) (B : Board) (bs : List Byte) : World :=
  ((w.onWires .quad).command B bs).onWires .normal

/-- On four wires it agrees with a chip in QPI mode. -/
theorem spoke_quadCommand (h : Between true w) (hi : KeepsQpi i) :
    Spoke true True w (w.quadCommand B (i :: args)) := by
  refine ⟨⟨rfl, ?_, rfl⟩, [⟨i, .quad, w.chip.qpi⟩], rfl, ?_⟩
  · exact (command_qpi (w := w.onWires .quad) hi).trans h.qpi
  · rw [h.qpi]
    simp [Sent.Agrees, expectedWire]

/-- Entering QPI mode, by a chip that does not ignore the instruction. -/
theorem spoke_enterQpi (hB : B.busyIgnores = false) (h : Between false w) :
    Spoke true True w (w.command B [0x38]) := by
  have htakes : w.chip.tick.Takes B 0x38 w.wire := by
    refine ⟨fun _ => ?_, fun hb => ?_⟩
    · rw [h.wire]
      exact (congrArg expectedWire h.qpi).symm
    · rw [hB] at hb
      exact absurd hb Bool.false_ne_true
  refine ⟨⟨h.wire, ?_, rfl⟩, [⟨0x38, w.wire, w.chip.qpi⟩], rfl, ?_⟩
  · rw [command_chip, if_pos htakes]
    rfl
  · rw [h.wire, h.qpi]
    simp [Sent.Agrees, expectedWire]

/-- Leaving QPI mode. -/
theorem spoke_disableQpi (hB : B.busyIgnores = false) (h : Between true w) :
    Spoke false True w (w.quadCommand B [0xFF]) := by
  have htakes : w.chip.tick.Takes B 0xFF .quad := by
    refine ⟨fun _ => ?_, fun hb => ?_⟩
    · exact (congrArg expectedWire h.qpi).symm
    · rw [hB] at hb
      exact absurd hb Bool.false_ne_true
  refine ⟨⟨rfl, ?_, rfl⟩, [⟨0xFF, .quad, w.chip.qpi⟩], rfl, ?_⟩
  · show ((w.onWires .quad).command B [0xFF]).chip.qpi = false
    rw [command_chip, onWires_chip, onWires_wire, if_pos htakes]
    rfl
  · rw [h.qpi]
    simp [Sent.Agrees, expectedWire]

end Command

/-! ### Commands that agree -/

/-- A command that agrees with a chip whose QPI mode is `q`, and leaves it
in that mode. -/
def Polite (q : Bool) (m : Cmd World α) : Prop :=
  ∀ w, Between q w → Ensures m w fun _ w' => Spoke q True w w'

theorem Polite.bind {m : Cmd World α} {f : α → Cmd World β} (hm : Polite q m)
    (hf : ∀ a, Polite q (f a)) : Polite q (m >>= f) := by
  intro w hw
  refine (hm w hw).bind ?_
  intro a w₁ h₁
  refine (hf a w₁ h₁.between).mono ?_
  intro _ w₂ h₂
  exact h₁.and_true h₂

theorem Polite.pure (a : α) : Polite q (pure a : Cmd World α) := by
  intro w hw
  exact ensures_pure.2 (Spoke.refl hw)

/-- Setting the normal wires again changes nothing. -/
theorem polite_setWire_normal : Polite q ((B.flash mode).spidev.setWire .normal) := by
  intro w hw
  refine ensures_setWire.2 ⟨⟨rfl, hw.qpi, hw.frame⟩, [], by simp, by simp⟩

section Standard

variable {i : Byte} {args bs : List Byte}

theorem spoke_standard (h : Between false w) (hi : KeepsQpi i) :
    Spoke false True w (w.command B (i :: args)) :=
  (spoke_command h hi).congr (by simp)

theorem polite_write (hi : KeepsQpi i) :
    Polite false (withCs (B.flash mode) ((B.flash mode).spidev.write (i :: args))) := by
  intro w hw
  exact ensures_withCs_write.2 (spoke_standard hw hi)

theorem polite_writeWrite (hi : KeepsQpi i) :
    Polite false (withCs (B.flash mode) do
      (B.flash mode).spidev.write (i :: args)
      (B.flash mode).spidev.write bs) := by
  intro w hw
  rw [ensures_withCs, ensures_bind, ensures_write, ensures_write, deselect_receive_receive]
  exact spoke_standard hw hi

theorem polite_writeRead {n : BitVec 32} (hi : KeepsQpi i) :
    Polite false (withCs (B.flash mode) do
      (B.flash mode).spidev.write (i :: args)
      (B.flash mode).spidev.read n) := by
  intro w hw
  exact ensures_withCs_writeRead.2 (spoke_standard hw hi)

theorem polite_readStatus : Polite false (standardReadStatusRegister (B.flash mode)) := by
  intro w hw
  exact ensures_withCs_readStatus.2 (spoke_standard hw (by decide))

/-- The wait agrees, turn by turn. -/
theorem polite_waitBusy_standard :
    Polite false (waitBusy (standardReadStatusRegister (B.flash mode))) := by
  intro w hw
  refine (ensures_waitBusy (fun w' => w'.chip.busy) (fun w' => Spoke false True w w') ?_
    (Spoke.refl hw)).mono
    fun _ _ h => h.1
  intro w₁ h₁
  have htakes : w₁.chip.tick.Takes B 0x05 w₁.wire :=
    takes_readStatus _ (by
      rw [h₁.between.wire]
      exact (congrArg expectedWire h₁.between.qpi).symm)
  have hchip : (w₁.command B [0x05]).chip = w₁.chip.tick := by
    rw [command_chip, if_pos htakes]
    rfl
  refine ensures_withCs_readStatus.2
    ⟨h₁.and_true (spoke_standard h₁.between (by decide)), ?_, ?_⟩
  · rw [hchip]
    rfl
  · rw [hchip, reply_of_takes htakes]
    exact status_busy _

theorem polite_standardAlter {alter : Cmd World PUnit}
    (h : Polite false (withCs (B.flash mode) alter)) :
    Polite false (standardAlter (B.flash mode) alter) :=
  (polite_write (by decide)).bind fun _ => h.bind fun _ =>
    polite_waitBusy_standard.bind fun _ => polite_write (by decide)

theorem polite_fastReadOutput {wires : WireMode} {addr n : BitVec 32} (hi : KeepsQpi i) :
    Polite false (fastReadOutput (B.flash mode) i wires addr n) := by
  intro w hw
  rw [fastReadOutput, ensures_withCs]
  simp only [ensures_bind, ensures_setWire, ensures_write, ensures_read, ensures_pure]
  -- the wires were normal already when the instruction went out
  have hsel : w.select.onWires .normal = w.select := by
    rw [← hw.wire]
    rfl
  rw [hsel, deselect_onWires, deselect_onWires]
  have h : Spoke false True w (w.command B (addressed i addr ++ [0x00])) :=
    spoke_standard hw hi
  exact ⟨⟨rfl, h.between.qpi, h.between.frame⟩, h.said⟩

theorem polite_writeStatus {data : BitVec 16} :
    Polite false (standardWriteStatusRegister (B.flash mode) data) :=
  (polite_write (by decide)).bind fun _ => (polite_write (by decide)).bind fun _ =>
    polite_write (by decide)

theorem polite_quadPageProgram {addr : BitVec 32} {data : List Byte} :
    Polite false (quadPageProgram (B.flash mode) addr data) := by
  refine polite_setWire_normal.bind fun _ => polite_standardAlter ?_
  intro w hw
  rw [ensures_withCs]
  simp only [ensures_bind, ensures_setWire, ensures_write, addressed]
  rw [receive_onWires, deselect_onWires, deselect_onWires, deselect_receive_receive]
  have h : Spoke false True w (w.command B (addressed 0x32 addr ++ data)) :=
    spoke_standard hw (by decide)
  exact ⟨⟨rfl, h.between.qpi, h.between.frame⟩, h.said⟩

end Standard

section Qpi

variable {i : Byte} {args bs : List Byte}

theorem polite_quadWrite (hi : KeepsQpi i) :
    Polite true (withQuad (B.flash mode)
      (withCs (B.flash mode) ((B.flash mode).spidev.write (i :: args)))) := by
  intro w hw
  rw [ensures_withQuad, ensures_withCs_write]
  exact spoke_quadCommand hw hi

theorem polite_quadWriteWrite (hi : KeepsQpi i) :
    Polite true (withQuad (B.flash mode) (withCs (B.flash mode) do
      (B.flash mode).spidev.write (i :: args)
      (B.flash mode).spidev.write bs)) := by
  intro w hw
  rw [ensures_withQuad, ensures_withCs, ensures_bind, ensures_write, ensures_write,
    deselect_receive_receive]
  exact spoke_quadCommand hw hi

theorem polite_quadWriteRead {n : BitVec 32} (hi : KeepsQpi i) :
    Polite true (withQuad (B.flash mode) (withCs (B.flash mode) do
      (B.flash mode).spidev.write (i :: args)
      (B.flash mode).spidev.read n)) := by
  intro w hw
  rw [ensures_withQuad, ensures_withCs_writeRead]
  exact spoke_quadCommand hw hi

theorem polite_waitBusy_qpi :
    Polite true (waitBusy (qpiReadStatusRegister (B.flash mode))) := by
  intro w hw
  refine (ensures_waitBusy (fun w' => w'.chip.busy) (fun w' => Spoke true True w w') ?_
    (Spoke.refl hw)).mono
    fun _ _ h => h.1
  intro w₁ h₁
  have htakes : (w₁.onWires .quad).chip.tick.Takes B 0x05 (w₁.onWires .quad).wire :=
    takes_readStatus _ (congrArg expectedWire h₁.between.qpi).symm
  have hchip : (w₁.quadCommand B [0x05]).chip = w₁.chip.tick := by
    show ((w₁.onWires .quad).command B [0x05]).chip = _
    rw [command_chip, if_pos htakes]
    rfl
  rw [qpiReadStatusRegister, ensures_withQuad, ensures_withCs_readStatus]
  refine ⟨h₁.and_true (spoke_quadCommand h₁.between (by decide)), ?_, ?_⟩
  · show (w₁.quadCommand B [0x05]).chip.busy = _
    rw [hchip]
    rfl
  · show _ ↔ 0 < (w₁.quadCommand B [0x05]).chip.busy
    rw [hchip, reply_of_takes htakes]
    exact status_busy _

theorem polite_qpiAlter {alter : Cmd World PUnit}
    (h : Polite true (withQuad (B.flash mode) (withCs (B.flash mode) alter))) :
    Polite true (qpiAlter (B.flash mode) alter) :=
  (polite_quadWrite (by decide)).bind fun _ => h.bind fun _ =>
    polite_waitBusy_qpi.bind fun _ => polite_quadWrite (by decide)

end Qpi

/-! ### The operations of an opened flash -/

/-- The chip of a flash opened in this mode is in QPI mode. -/
def Mode.inQpi (mode : Mode) : Bool := mode = .qpi

theorem polite_program {addr : BitVec 32} {data : List Byte} :
    Polite mode.inQpi ((B.flash mode).bus.program (B.flash mode) addr data) := by
  cases mode with
  | normalSpi => exact polite_standardAlter (polite_writeWrite (by decide))
  | dualSpi => exact polite_standardAlter (polite_writeWrite (by decide))
  | quadSpi => exact polite_quadPageProgram
  | qpi => exact polite_qpiAlter (polite_quadWriteWrite (by decide))

theorem polite_spiNorRead {addr len : BitVec 32} :
    Polite mode.inQpi (spiNorRead (B.flash mode) addr len) := by
  cases mode with
  | normalSpi => exact polite_writeRead (by decide)
  | dualSpi => exact polite_fastReadOutput (by decide)
  | quadSpi => exact polite_fastReadOutput (by decide)
  | qpi => exact polite_quadWriteRead (by decide)

theorem polite_spiNorWrite {addr len : BitVec 32} {buf : List Byte} :
    Polite mode.inQpi (spiNorWrite (B.flash mode) addr buf len) := by
  intro w hw
  refine leads_spiNorWrite (P := Spoke mode.inQpi True w) ?_ addr buf len w (Spoke.refl hw)
  intro addr data w₁ h₁
  refine (polite_program w₁ h₁.between).mono ?_
  intro _ w₂ h₂
  exact h₁.and_true h₂

/-- An operation of an opened flash. -/
inductive Op
  | read (addr len : BitVec 32)
  | write (addr : BitVec 32) (buf : List Byte) (len : BitVec 32)
  | sectorErase (addr : BitVec 32)
  | blockErase (addr : BitVec 32)
  | chipErase
  | enterPowerDown
  | releasePowerDown

/-- The call of the driver it stands for. -/
def Op.call (flash : Flash World) : Op → Cmd World PUnit
  | .read addr len => do let _ ← spiNorRead flash addr len
  | .write addr buf len => spiNorWrite flash addr buf len
  | .sectorErase addr => spiNorSectorErase flash addr
  | .blockErase addr => spiNorBlockErase flash addr
  | .chipErase => spiNorChipErase flash
  | .enterPowerDown => spiNorEnterPowerDown flash
  | .releasePowerDown => spiNorReleasePowerDown flash

/-- One of the two power-down commands. -/
def Op.IsPower : Op → Prop
  | .enterPowerDown | .releasePowerDown => True
  | _ => False

/-- The erase commands: the QPI table has the variant for four wires, the
others the standard one. -/
theorem polite_erase (i : Byte) (args : List Byte) (hi : KeepsQpi i) {m : Cmd World PUnit}
    (hm : m = if mode.inQpi then
        qpiAlter (B.flash mode) ((B.flash mode).spidev.write (i :: args))
      else standardAlter (B.flash mode) ((B.flash mode).spidev.write (i :: args))) :
    Polite mode.inQpi m := by
  rw [hm]
  cases hq : mode.inQpi with
  | false => exact polite_standardAlter (polite_write hi)
  | true => exact polite_qpiAlter (polite_quadWrite hi)

/-- A command on one wire, whichever mode the chip is in. -/
theorem spoke_oneWire {i : Byte} (h : Between mode.inQpi w) (hi : KeepsQpi i) :
    Ensures (withCs (B.flash mode) ((B.flash mode).spidev.write [i])) w fun _ w' =>
      Spoke mode.inQpi (mode ≠ .qpi) w w' := by
  refine ensures_withCs_write.2 ((spoke_command h hi).congr ?_)
  cases mode <;> decide

/-- **Every operation leaves the chip in its mode**, and agrees with it
unless it is a power-down command to a chip in QPI mode. -/
theorem spoke_call (op : Op) (h : Between mode.inQpi w) :
    Ensures (op.call (B.flash mode)) w fun _ w' =>
      Spoke mode.inQpi (mode = .qpi → ¬ op.IsPower) w w' := by
  -- the operations that are polite in every mode
  have hpolite : ∀ {op : Op}, ¬ op.IsPower → Polite mode.inQpi (op.call (B.flash mode)) →
      Ensures (op.call (B.flash mode)) w fun _ w' =>
        Spoke mode.inQpi (mode = .qpi → ¬ op.IsPower) w w' := by
    intro op hop hm
    refine (hm w h).mono ?_
    intro _ w' h'
    exact h'.congr ⟨fun _ _ => hop, fun _ => trivial⟩
  -- the two that go out on one wire in every mode
  have hpower : ∀ {op : Op} {i : Byte}, op.IsPower → KeepsQpi i →
      op.call (B.flash mode) = withCs (B.flash mode) ((B.flash mode).spidev.write [i]) →
      Ensures (op.call (B.flash mode)) w fun _ w' =>
        Spoke mode.inQpi (mode = .qpi → ¬ op.IsPower) w w' := by
    intro op i hop hi hcall
    rw [hcall]
    refine (spoke_oneWire h hi).mono ?_
    intro _ w' h'
    exact h'.congr ⟨fun hne hq => absurd hq hne, fun himp hq => himp hq hop⟩
  cases op with
  | read addr len => exact hpolite id (polite_spiNorRead.bind fun _ => Polite.pure _)
  | write addr buf len => exact hpolite id polite_spiNorWrite
  | sectorErase addr =>
    refine hpolite id (polite_erase (B := B) 0x20 (addressed 0x20 addr).tail
      (by decide) ?_)
    clear hpolite hpower h
    cases mode <;> rfl
  | blockErase addr =>
    refine hpolite id (polite_erase (B := B) 0xD8 (addressed 0xD8 addr).tail
      (by decide) ?_)
    clear hpolite hpower h
    cases mode <;> rfl
  | chipErase =>
    refine hpolite id (polite_erase (B := B) 0xC7 [] (by decide) ?_)
    clear hpolite hpower h
    cases mode <;> rfl
  | enterPowerDown =>
    have hcall : Op.enterPowerDown.call (B.flash mode) =
        withCs (B.flash mode) ((B.flash mode).spidev.write [0xB9]) := by cases mode <;> rfl
    exact hpower trivial (by decide) hcall
  | releasePowerDown =>
    have hcall : Op.releasePowerDown.call (B.flash mode) =
        withCs (B.flash mode) ((B.flash mode).spidev.write [0xAB]) := by cases mode <;> rfl
    exact hpower trivial (by decide) hcall

/-! ### Sessions -/

/-- The operations of a session, one after another. -/
def callAll (flash : Flash World) : List Op → Cmd World PUnit
  | [] => return ⟨⟩
  | op :: ops => do
    op.call flash
    callAll flash ops

/-- A session: open, operations, close. -/
def session (flash : Flash World) (ops : List Op) : Cmd World PUnit := do
  let _ ← spiNorOpen flash
  callAll flash ops
  spiNorClose flash

theorem spoke_callAll (ops : List Op) (h : Between mode.inQpi w) :
    Ensures (callAll (B.flash mode) ops) w fun _ w' =>
      Spoke mode.inQpi (mode = .qpi → ∀ op ∈ ops, ¬ op.IsPower) w w' := by
  induction ops generalizing w with
  | nil => exact ensures_pure.2 ((Spoke.refl h).congr (by simp))
  | cons op ops ih =>
    refine (spoke_call op h).bind ?_
    intro _ w₁ h₁
    refine (ih h₁.between).mono ?_
    intro _ w₂ h₂
    refine (h₁.trans h₂).congr ?_
    simp only [List.mem_cons, forall_eq_or_imp, imp_and]

/-- **Opening** agrees with the chip, which starts in SPI mode, and leaves
it in the mode of the flash. -/
theorem spoke_spiNorOpen (hB : B.busyIgnores = false) (h : Between false w) :
    Ensures (spiNorOpen (B.flash mode)) w fun _ w' => Spoke mode.inQpi True w w' := by
  have hbus : Ensures ((B.flash mode).bus.openBus (B.flash mode)) w fun _ w' =>
      Spoke mode.inQpi True w w' := by
    -- release from power-down, quad enable: the same in both quad modes
    have hquad : Polite false (quadOpen (B.flash mode)) :=
      (polite_write (by decide)).bind fun _ => polite_readStatus.bind fun _ => polite_writeStatus
    cases mode with
    | normalSpi => exact Polite.pure _ w h
    | dualSpi => exact Polite.pure _ w h
    | quadSpi => exact hquad w h
    | qpi =>
      have hopen : qpiOpen (B.flash .qpi) =
          (quadOpen (B.flash .qpi) >>= fun _ => standardEnterQpi (B.flash .qpi)) := by
        simp only [quadOpen, bind_assoc]
        rfl
      show Ensures (qpiOpen (B.flash .qpi)) w _
      rw [hopen]
      refine (hquad w h).bind ?_
      intro _ w₁ h₁
      exact ensures_withCs_write.2 (h₁.and_true (spoke_enterQpi hB h₁.between))
  exact ensures_spiNorOpen.2 hbus

/-- **Closing** takes the chip back to SPI mode. -/
theorem spoke_spiNorClose (hB : B.busyIgnores = false) (h : Between mode.inQpi w) :
    Ensures (spiNorClose (B.flash mode)) w fun _ w' => Spoke false True w w' := by
  -- the chip is not selected, so deselecting it does nothing
  have hrest : ∀ w₁, Spoke false True w w₁ → Ensures (do
      (B.flash mode).spidev.setCs (B.flash mode).cs true
      (B.flash mode).spidev.close
      (B.flash mode).lock.unlock) w₁ fun _ w' => Spoke false True w w' := by
    intro w₁ h₁
    have heq : w₁.deselect B = w₁ := by
      obtain ⟨chip, wire, frame, log⟩ := w₁
      have hframe : frame = none := h₁.between.frame
      rw [hframe]
      rfl
    simp only [ensures_bind, ensures_setCs, ensures_close, ensures_unlock, if_true, heq]
    exact h₁
  rw [spiNorClose]
  cases mode with
  | qpi =>
    refine Ensures.bind (Q := fun _ w' => Spoke false True w w') ?_ fun _ => hrest
    show Ensures (withQuad (B.flash .qpi)
      (withCs (B.flash .qpi) ((B.flash .qpi).spidev.write [0xFF]))) w _
    rw [ensures_withQuad, ensures_withCs_write]
    exact spoke_disableQpi hB h
  | _ => exact hrest w (Spoke.refl h)

/-- **A session.** It ends with the chip in SPI mode and the controller on
its normal wires; what it said agreed with the chip unless a chip in QPI
mode was sent a power-down command. -/
theorem spoke_session (hB : B.busyIgnores = false) (h : Between false w) (ops : List Op) :
    Ensures (session (B.flash mode) ops) w fun _ w' =>
      Spoke false (mode = .qpi → ∀ op ∈ ops, ¬ op.IsPower) w w' := by
  refine (spoke_spiNorOpen hB h).bind ?_
  intro _ w₁ h₁
  refine (spoke_callAll ops h₁.between).bind ?_
  intro _ w₂ h₂
  refine (spoke_spiNorClose hB h₂.between).mono ?_
  intro _ w₃ h₃
  exact ((h₁.trans h₂).trans h₃).congr (by simp)

/-- **Attaching** reads the identifier on one wire. -/
theorem spoke_spiNorAttach (hB : B.busyIgnores = false) (h : Between false w) :
    Ensures (spiNorAttach (B.flash mode)) w fun _ w' => Spoke false (mode ≠ .qpi) w w' := by
  rw [spiNorAttach, ensures_bind, ensures_mutexInit]
  refine (spoke_spiNorOpen hB h).bind ?_
  intro _ w₁ h₁
  rw [ensures_bind, standardReadJedecId, ensures_withCs_writeRead]
  have h₂ : Spoke mode.inQpi (mode.inQpi = false) w₁ (w₁.command B [0x9F]) :=
    spoke_command h₁.between (by decide)
  refine (spoke_spiNorClose hB h₂.between).bind ?_
  intro _ w₃ h₃
  refine ensures_pure.2 (((h₁.trans h₂).trans h₃).congr ?_)
  cases mode <;> simp [Mode.inQpi]

/-- **When the wires agree.** Take any flash on its board, its chip in SPI
mode and not ignoring instructions, the controller on its normal wires,
nothing sent yet.

A session in any of the four modes, with any operations in any order,
runs to its end with the chip back in SPI mode and the controller on its
normal wires. Every instruction of it was on the wires the chip expected
exactly if the mode is not QPI or no power-down command was among the
operations. The same for attaching the flash, exactly if its mode is not
QPI. -/
theorem wires_agree_iff (hB : B.busyIgnores = false) (hw : Between false w) (hlog : w.log = []) :
    (∀ ops : List Op, Ensures (session (B.flash mode) ops) w fun _ w' =>
      ((∀ e ∈ w'.log, e.Agrees) ↔ (mode = .qpi → ∀ op ∈ ops, ¬ op.IsPower)) ∧
        w'.chip.qpi = false ∧ w'.wire = .normal) ∧
    Ensures (spiNorAttach (B.flash mode)) w fun _ w' =>
      ((∀ e ∈ w'.log, e.Agrees) ↔ mode ≠ .qpi) ∧ w'.chip.qpi = false ∧ w'.wire = .normal := by
  have hall : ∀ {ok : Prop} {w' : World}, Spoke false ok w w' →
      ((∀ e ∈ w'.log, e.Agrees) ↔ ok) ∧ w'.chip.qpi = false ∧ w'.wire = .normal := by
    rintro ok w' ⟨hb, es, hes, hok⟩
    rw [hlog, List.nil_append] at hes
    rw [hes]
    exact ⟨hok, hb.qpi, hb.wire⟩
  refine ⟨fun ops => ?_, ?_⟩
  · exact (spoke_session hB hw ops).mono fun _ _ h => hall h
  · exact (spoke_spiNorAttach hB hw).mono fun _ _ h => hall h

/-- The sessions of the small flash in QPI mode. -/
theorem wires_agree_iff_small_qpi :
    (∀ ops : List Op, Ensures (session ((smallBoard false).flash .qpi) ops) erasedWorld fun _ w' =>
      ((∀ e ∈ w'.log, e.Agrees) ↔ (Mode.qpi = .qpi → ∀ op ∈ ops, ¬ op.IsPower)) ∧
        w'.chip.qpi = false ∧ w'.wire = .normal) ∧
    Ensures (spiNorAttach ((smallBoard false).flash .qpi)) erasedWorld fun _ w' =>
      ((∀ e ∈ w'.log, e.Agrees) ↔ Mode.qpi ≠ .qpi) ∧ w'.chip.qpi = false ∧ w'.wire = .normal :=
  wires_agree_iff rfl ⟨rfl, rfl, rfl⟩ rfl

/-- In QPI mode `spi_nor_enter_power_down` sends 0xB9, and
`spi_nor_attach` the read of the identifier, 0x9F, on one wire to a chip
that expects four: the chip ignores them. -/
theorem wires_disagree_in_qpi :
    ((session ((smallBoard false).flash .qpi) [.enterPowerDown] erasedWorld).map fun r => r.2.log) =
      some [⟨0xAB, .normal, false⟩, ⟨0x05, .normal, false⟩, ⟨0x06, .normal, false⟩,
        ⟨0x01, .normal, false⟩, ⟨0x04, .normal, false⟩, ⟨0x38, .normal, false⟩,
        ⟨0xB9, .normal, true⟩, ⟨0xFF, .quad, true⟩] ∧
    ((spiNorAttach ((smallBoard false).flash .qpi) erasedWorld).map fun r => r.2.log) =
      some [⟨0xAB, .normal, false⟩, ⟨0x05, .normal, false⟩, ⟨0x06, .normal, false⟩,
        ⟨0x01, .normal, false⟩, ⟨0x04, .normal, false⟩, ⟨0x38, .normal, false⟩,
        ⟨0x9F, .normal, true⟩, ⟨0xFF, .quad, true⟩] ∧
    ¬ (Sent.mk 0xB9 .normal true).Agrees ∧ ¬ (Sent.mk 0x9F .normal true).Agrees :=
  ⟨rfl, rfl, by decide, by decide⟩

end SpiNor

end Hgsdk

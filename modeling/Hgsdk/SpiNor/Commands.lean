import Hgsdk.SpiNor.Model.Chip
/-!
# Commands on the wire

Rules that turn the driver's transfers into what they do to the chip. A
whole command is one frame, `World.command`; the driver's functions are
sequences of commands, of changes of the wires, and of one loop, the wait
for the end of an alteration, which ends because the chip is busy for a
finite number of frames only.
-/

namespace Hgsdk

namespace SpiNor

variable {B : Board} {mode : Mode} {w : World} {α : Type}

@[simp] theorem onWires_chip {wire : WireMode} : (w.onWires wire).chip = w.chip := rfl

@[simp] theorem onWires_wire {wire : WireMode} : (w.onWires wire).wire = wire := rfl

@[simp] theorem onWires_log {wire : WireMode} : (w.onWires wire).log = w.log := rfl

/-! ### Rules for the device's operations -/

@[simp] theorem ensures_write {bs : List Byte} {Q : PUnit → World → Prop} :
    Ensures ((B.flash mode).spidev.write bs) w Q ↔ Q ⟨⟩ (w.receive bs) := ensures_modify

@[simp] theorem ensures_read {n : BitVec 32} {Q : List Byte → World → Prop} :
    Ensures ((B.flash mode).spidev.read n) w Q ↔ Q (w.respond B n.toNat) w := by
  show Ensures (do return (← get).respond B n.toNat) w Q ↔ _
  rw [ensures_bind, ensures_get, ensures_pure]

@[simp] theorem ensures_setWire {wire : WireMode} {Q : PUnit → World → Prop} :
    Ensures ((B.flash mode).spidev.setWire wire) w Q ↔ Q ⟨⟩ (w.onWires wire) := ensures_modify

@[simp] theorem ensures_setCs {value : Bool} {Q : PUnit → World → Prop} :
    Ensures ((B.flash mode).spidev.setCs (B.flash mode).cs value) w Q ↔
      Q ⟨⟩ (if value then w.deselect B else w.select) := by
  show Ensures (modify fun w => if B.cs = B.cs then if value then w.deselect B else w.select else w)
    w Q ↔ _
  rw [ensures_modify, if_pos rfl]

@[simp] theorem ensures_openDev {clk wireMode clkMode : BitVec 32} {Q : CInt → World → Prop} :
    Ensures ((B.flash mode).spidev.openDev clk wireMode clkMode) w Q ↔ Q B.openRet w :=
  ensures_pure

@[simp] theorem ensures_close {Q : PUnit → World → Prop} :
    Ensures (B.flash mode).spidev.close w Q ↔ Q ⟨⟩ w := ensures_pure

@[simp] theorem ensures_lock {Q : PUnit → World → Prop} :
    Ensures (B.flash mode).lock.lock w Q ↔ Q ⟨⟩ w := ensures_pure

@[simp] theorem ensures_unlock {Q : PUnit → World → Prop} :
    Ensures (B.flash mode).lock.unlock w Q ↔ Q ⟨⟩ w := ensures_pure

@[simp] theorem ensures_mutexInit {Q : PUnit → World → Prop} :
    Ensures (B.flash mode).lock.init w Q ↔ Q ⟨⟩ w := ensures_pure

theorem ensures_withCs {m : Cmd World α} {Q : α → World → Prop} :
    Ensures (withCs (B.flash mode) m) w Q ↔
      Ensures m w.select fun a w' => Q a (w'.deselect B) := by
  simp only [withCs, ensures_bind, ensures_setCs, ensures_pure, Bool.false_eq_true, if_false,
    if_true]

theorem ensures_withQuad {m : Cmd World α} {Q : α → World → Prop} :
    Ensures (withQuad (B.flash mode) m) w Q ↔
      Ensures m (w.onWires .quad) fun a w' => Q a (w'.onWires .normal) := by
  simp only [withQuad, ensures_bind, ensures_setWire, ensures_pure]

/-- On a board nobody else uses, opening the flash is opening its bus. -/
theorem ensures_spiNorOpen {Q : CInt → World → Prop} :
    Ensures (spiNorOpen (B.flash mode)) w Q ↔
      Ensures ((B.flash mode).bus.openBus (B.flash mode)) w fun _ => Q B.openRet := by
  simp only [spiNorOpen, ensures_bind, ensures_lock, ensures_openDev]
  split
  · simp only [ensures_bind, ensures_unlock, ensures_pure]
  · simp only [ensures_pure]

/-! ### One frame -/

/-- **A whole command**: select, clock the bytes in, deselect. -/
def World.command (w : World) (B : Board) (bs : List Byte) : World :=
  (w.select.receive bs).deselect B

section Frame

variable {i : Byte} {args bs : List Byte}

@[simp] theorem command_wire : (w.command B (i :: args)).wire = w.wire := rfl

@[simp] theorem command_log :
    (w.command B (i :: args)).log = w.log ++ [⟨i, w.wire, w.chip.qpi⟩] := rfl

/-- The chip after a command: a frame has passed, and the command has its
effect if the chip took it. -/
theorem command_chip : (w.command B (i :: args)).chip =
    if w.chip.tick.Takes B i w.wire then w.chip.tick.exec B i args else w.chip.tick := rfl

/-- A frame clocked in by two writes. -/
theorem deselect_receive_receive :
    ((w.select.receive (i :: args)).receive bs).deselect B = w.command B (i :: args ++ bs) := by
  cases bs with
  | nil =>
    rw [List.append_nil]
    rfl
  | cons b bs => rfl

/-- The bytes after the first do not mind the wires. -/
theorem receive_onWires {wire : WireMode} :
    ((w.select.receive (i :: args)).onWires wire).receive bs =
      ((w.select.receive (i :: args)).receive bs).onWires wire := by
  cases bs <;> rfl

theorem deselect_onWires {wire : WireMode} (w : World) :
    (w.onWires wire).deselect B = (w.deselect B).onWires wire := by
  obtain ⟨c, v, f, l⟩ := w
  rcases f with _ | ⟨_ | ⟨i, args⟩, v'⟩ <;> rfl

/-- An instruction that neither enters nor leaves QPI mode. -/
def KeepsQpi (i : Byte) : Prop := i ≠ 0x38 ∧ i ≠ 0xFF

instance (i : Byte) : Decidable (KeepsQpi i) := inferInstanceAs (Decidable (_ ∧ _))

theorem exec_qpi (c : Chip) (h : KeepsQpi i) : (c.exec B i args).qpi = c.qpi := by
  obtain ⟨h38, hFF⟩ := h
  simp only [Chip.exec, if_neg h38, if_neg hFF]
  split
  · rfl
  · split
    · rfl
    · split
      · rfl
      · split <;> rfl

/-- An instruction that alters nothing begins no alteration. -/
theorem exec_of_alterMem_eq_none (c : Chip) (h : alterMem B i args c.mem = none) :
    (c.exec B i args).busy = c.busy ∧ (c.exec B i args).mem = c.mem ∧
      (c.exec B i args).alterations = c.alterations := by
  simp only [Chip.exec, h]
  split
  · exact ⟨rfl, rfl, rfl⟩
  · split
    · exact ⟨rfl, rfl, rfl⟩
    · split
      · exact ⟨rfl, rfl, rfl⟩
      · split <;> exact ⟨rfl, rfl, rfl⟩

theorem command_qpi (h : KeepsQpi i) : (w.command B (i :: args)).chip.qpi = w.chip.qpi := by
  rw [command_chip]
  split
  · exact exec_qpi _ h
  · rfl

end Frame

/-! ### Commands of the driver as frames -/

theorem ensures_withCs_write {bs : List Byte} {Q : PUnit → World → Prop} :
    Ensures (withCs (B.flash mode) ((B.flash mode).spidev.write bs)) w Q ↔
      Q ⟨⟩ (w.command B bs) := by
  rw [ensures_withCs, ensures_write]
  rfl

/-- The answer to a command that reads. -/
def World.reply (w : World) (B : Board) (bs : List Byte) (n : ℕ) : List Byte :=
  (w.select.receive bs).respond B n

theorem reply_of_takes {i : Byte} {args : List Byte} {n : ℕ}
    (h : w.chip.tick.Takes B i w.wire) :
    w.reply B (i :: args) n = w.chip.tick.answer B i args n := if_pos h

theorem ensures_withCs_writeRead {bs : List Byte} {n : BitVec 32}
    {Q : List Byte → World → Prop} :
    Ensures (withCs (B.flash mode) do
      (B.flash mode).spidev.write bs
      (B.flash mode).spidev.read n) w Q ↔
      Q (w.reply B bs n.toNat) (w.command B bs) := by
  rw [ensures_withCs, ensures_bind, ensures_write, ensures_read]
  rfl

/-- The wait reads the status register in a frame of its own. -/
theorem ensures_withCs_readStatus {Q : Byte → World → Prop} :
    Ensures (withCs (B.flash mode) do
      (B.flash mode).spidev.write [0x05]
      return statusByte (← (B.flash mode).spidev.read 1)) w Q ↔
      Q (statusByte (w.reply B [0x05] 1)) (w.command B [0x05]) := by
  rw [ensures_withCs, ensures_bind, ensures_write, ensures_bind, ensures_read, ensures_pure]
  rfl

/-! ### Waiting -/

theorem tick_of_idle {c : Chip} (h : c.busy = 0) : c.tick = c := by
  obtain ⟨mem, qpi, wel, busy, alterations⟩ := c
  obtain rfl : busy = 0 := h
  rfl

theorem status_busy (c : Chip) : c.status &&& 0x01 ≠ 0 ↔ 0 < c.busy := by
  rw [Chip.status]
  by_cases hb : 0 < c.busy <;> cases c.wel <;> simp [hb]

theorem takes_readStatus (c : Chip) {wire : WireMode} (h : wire = expectedWire c.qpi) :
    c.Takes B 0x05 wire := ⟨fun _ => h, fun _ _ => rfl⟩

/-- **The wait ends.** If every status read keeps `J`, tells the truth
about being busy and lets a frame pass, the loop leaves with the chip
idle. -/
theorem ensures_waitBusy {σ : Type} {readStatus : Cmd σ Byte} (busy : σ → ℕ) (J : σ → Prop)
    (hread : ∀ w, J w → Ensures readStatus w fun s w' =>
      J w' ∧ busy w' = busy w - 1 ∧ (s &&& 0x01 ≠ 0 ↔ 0 < busy w'))
    {w : σ} (h : J w) : Ensures (waitBusy readStatus) w fun _ w' => J w' ∧ busy w' = 0 := by
  refine ensures_iterate (fun _ w' => J w') (fun _ w' => busy w') ?_ h
  intro _ w₁ h₁
  refine (hread w₁ h₁).bind ?_
  rintro s w₂ ⟨h₂, hbusy, hs⟩
  rw [ensures_pure]
  by_cases hb : s &&& 0x01 ≠ 0
  · rw [if_pos hb]
    have := hs.1 hb
    exact ⟨h₂, by omega⟩
  · rw [if_neg hb]
    have : ¬ 0 < busy w₂ := fun h => hb (hs.2 h)
    exact ⟨h₂, by omega⟩

/-! ### The write loop -/

section Write

variable {σ : Type} {flash : Flash σ} {P : σ → Prop}

/-- **A write is a sequence of program commands**, as many as it takes:
what each of them keeps, the write keeps. -/
theorem leads_spiNorWrite
    (hprog : ∀ addr data, Leads P (flash.bus.program flash addr data) P)
    (addr : BitVec 32) (buf : List Byte) (len : BitVec 32) :
    Leads P (spiNorWrite flash addr buf len) P := by
  have hpiece : ∀ v n, Leads P (writePiece flash v n) P := fun v n =>
    (hprog _ _).bind fun _ => Leads.pure _
  have hloop : ∀ v, Leads P (Cmd.iterate (fun v : WriteVars => do
      if flash.pageSize < v.len then
        return .inl (← writePiece flash v flash.pageSize)
      else
        return (.inr v : WriteVars ⊕ WriteVars)) v) P := by
    intro v w hw
    refine ensures_iterate (fun _ w' => P w') (fun v _ => v.len.toNat) ?_ hw
    intro v w₁ h₁
    split
    · rename_i hlen
      have hlen : flash.pageSize.toNat < v.len.toNat := BitVec.lt_def.1 hlen
      refine Ensures.bind (Q := fun v' w' => P w' ∧ v'.len = v.len - flash.pageSize) ?_ ?_
      · refine (hprog _ _ w₁ h₁).bind ?_
        intro _ w₂ h₂
        exact ensures_pure.2 ⟨h₂, rfl⟩
      · rintro v' w₂ ⟨h₂, hv'⟩
        refine ensures_pure.2 ⟨h₂, ?_⟩
        have hpos := flash.pageSize_pos
        rw [hv', BitVec.toNat_sub_of_le (BitVec.le_def.2 (by omega))]
        omega
    · exact ensures_pure.2 h₁
  rw [spiNorWrite]
  dsimp only
  split
  · exact (hpiece _ _).bind fun v => (hloop v).bind fun _ => hprog _ _
  · exact (Leads.pure _).bind fun v => (hloop v).bind fun _ => hprog _ _

end Write

end SpiNor

end Hgsdk

import Hgsdk.Common.Machine
import Hgsdk.SpiNor.Commands
/-!
# Leaving a busy chip alone

An alteration keeps the chip busy for as long as it likes, and a busy chip
takes nothing but `READ_STATUS_REG`. Every function that programs or
erases waits for the end of it and clears the write-enable latch, so the
next one finds the chip at rest. The write of the status register in
`spi_nor_quad_open` and `spi_nor_qpi_open` does not wait: unless the chip
is very quick, the `WRITE_DISABLE` behind it comes while it is busy.

The device is the one of `Hgsdk.SpiNor.Model.Chip` with a record of the
instructions sent and of whether each met a busy chip.
-/

namespace Hgsdk

namespace SpiNor

/-- The world, and the instructions sent, each with whether the chip was
busy. -/
structure Watched where
  world : World
  sent : List (Byte × Bool)

section Device

variable {α : Type}

/-- An operation of the device, watched. -/
def onWorld (m : Cmd World α) : Cmd Watched α := fun w =>
  (m w.world).map fun (a, world) => (a, { w with world })

/-- What is recorded of bytes clocked in: the first of a frame is its
instruction. -/
def Watched.note (w : Watched) (bs : List Byte) : Watched :=
  match w.world.frame, bs with
  | some ⟨[], _⟩, i :: _ => { w with sent := w.sent ++ [(i, decide (0 < w.world.chip.busy))] }
  | _, _ => w

/-- The device, watched. -/
def watchedDevice (B : Board) : SpiDevice Watched where
  openDev clk wireMode clkMode := onWorld ((spiDevice B).openDev clk wireMode clkMode)
  close := onWorld (spiDevice B).close
  setWire wire := onWorld ((spiDevice B).setWire wire)
  read n := onWorld ((spiDevice B).read n)
  write bs := do
    modify fun w => w.note bs
    onWorld ((spiDevice B).write bs)
  setCs cs value := onWorld ((spiDevice B).setCs cs value)

/-- The flash on this board, watched. -/
def Board.watched (B : Board) (mode : Mode) : Flash Watched where
  spidev := watchedDevice B
  lock :=
    { init := onWorld freeLock.init
      lock := onWorld freeLock.lock
      unlock := onWorld freeLock.unlock }
  clk := B.clk
  clkMode := B.clkMode
  wireMode := B.wireMode
  cs := B.cs
  size := B.size
  sectorSize := B.sectorSize
  pageSize := B.pageSize
  mode := mode
  pageSize_pos := B.pageSize_pos

theorem ensures_onWorld {m : Cmd World α} {w : Watched} {Q : α → Watched → Prop} :
    Ensures (onWorld m) w Q ↔ Ensures m w.world fun a world => Q a { w with world } := by
  constructor
  · rintro ⟨a, t, h, hQ⟩
    obtain ⟨⟨a', world⟩, hm, heq⟩ := Option.map_eq_some_iff.1 h
    obtain ⟨rfl, rfl⟩ := Prod.mk.inj heq
    exact ⟨a', world, hm, hQ⟩
  · rintro ⟨a, world, hm, hQ⟩
    exact ⟨a, _, Option.map_eq_some_iff.2 ⟨_, hm, rfl⟩, hQ⟩

end Device

variable {B : Board} {mode : Mode} {w : Watched} {α : Type}

/-! ### Rules for the watched device -/

@[simp] theorem ensures_watched_write {bs : List Byte} {Q : PUnit → Watched → Prop} :
    Ensures ((B.watched mode).spidev.write bs) w Q ↔
      Q ⟨⟩ ⟨w.world.receive bs, (w.note bs).sent⟩ := by
  show Ensures (do modify fun w => w.note bs; onWorld ((spiDevice B).write bs)) w Q ↔ _
  rw [ensures_bind, ensures_modify, ensures_onWorld]
  have hnote : (w.note bs).world = w.world := by
    unfold Watched.note
    split <;> rfl
  rw [hnote]
  exact ensures_modify

@[simp] theorem ensures_watched_read {n : BitVec 32} {Q : List Byte → Watched → Prop} :
    Ensures ((B.watched mode).spidev.read n) w Q ↔ Q (w.world.respond B n.toNat) w := by
  show Ensures (onWorld ((B.flash mode).spidev.read n)) w Q ↔ _
  rw [ensures_onWorld, ensures_read]

@[simp] theorem ensures_watched_setWire {wire : WireMode} {Q : PUnit → Watched → Prop} :
    Ensures ((B.watched mode).spidev.setWire wire) w Q ↔
      Q ⟨⟩ { w with world := w.world.onWires wire } := by
  show Ensures (onWorld ((B.flash mode).spidev.setWire wire)) w Q ↔ _
  rw [ensures_onWorld, ensures_setWire]

@[simp] theorem ensures_watched_setCs {value : Bool} {Q : PUnit → Watched → Prop} :
    Ensures ((B.watched mode).spidev.setCs (B.watched mode).cs value) w Q ↔
      Q ⟨⟩ { w with world := if value then w.world.deselect B else w.world.select } := by
  show Ensures (onWorld ((B.flash mode).spidev.setCs (B.flash mode).cs value)) w Q ↔ _
  rw [ensures_onWorld, ensures_setCs]

@[simp] theorem ensures_watched_openDev {clk wireMode clkMode : BitVec 32}
    {Q : CInt → Watched → Prop} :
    Ensures ((B.watched mode).spidev.openDev clk wireMode clkMode) w Q ↔ Q B.openRet w := by
  show Ensures (onWorld ((B.flash mode).spidev.openDev clk wireMode clkMode)) w Q ↔ _
  rw [ensures_onWorld, ensures_openDev]

@[simp] theorem ensures_watched_close {Q : PUnit → Watched → Prop} :
    Ensures (B.watched mode).spidev.close w Q ↔ Q ⟨⟩ w := by
  show Ensures (onWorld (B.flash mode).spidev.close) w Q ↔ _
  rw [ensures_onWorld, ensures_close]

@[simp] theorem ensures_watched_lock {Q : PUnit → Watched → Prop} :
    Ensures (B.watched mode).lock.lock w Q ↔ Q ⟨⟩ w := by
  show Ensures (onWorld (B.flash mode).lock.lock) w Q ↔ _
  rw [ensures_onWorld, ensures_lock]

@[simp] theorem ensures_watched_unlock {Q : PUnit → Watched → Prop} :
    Ensures (B.watched mode).lock.unlock w Q ↔ Q ⟨⟩ w := by
  show Ensures (onWorld (B.flash mode).lock.unlock) w Q ↔ _
  rw [ensures_onWorld, ensures_unlock]

theorem ensures_watched_withCs {m : Cmd Watched α} {Q : α → Watched → Prop} :
    Ensures (withCs (B.watched mode) m) w Q ↔
      Ensures m { w with world := w.world.select } fun a w' =>
        Q a { w' with world := w'.world.deselect B } := by
  simp only [withCs, ensures_bind, ensures_watched_setCs, ensures_pure, Bool.false_eq_true,
    if_false, if_true]

theorem ensures_watched_withQuad {m : Cmd Watched α} {Q : α → Watched → Prop} :
    Ensures (withQuad (B.watched mode) m) w Q ↔
      Ensures m { w with world := w.world.onWires .quad } fun a w' =>
        Q a { w' with world := w'.world.onWires .normal } := by
  simp only [withQuad, ensures_bind, ensures_watched_setWire, ensures_pure]

/-! ### Frames -/

/-- A part of a frame that sends the instruction `i`, first of all. -/
def Opens (i : Byte) (m : Cmd Watched α) : Prop :=
  ∀ w : Watched, ∀ wire, w.world.frame = some ⟨[], wire⟩ → Ensures m w fun _ w' =>
    w'.world.chip = w.world.chip ∧ w'.sent = w.sent ++ [(i, decide (0 < w.world.chip.busy))] ∧
      ∃ args wire', w'.world.frame = some ⟨i :: args, wire'⟩

/-- A part of a frame behind its instruction. -/
def Trails (m : Cmd Watched α) : Prop :=
  ∀ w : Watched, ∀ i args wire, w.world.frame = some ⟨i :: args, wire⟩ → Ensures m w fun _ w' =>
    w'.world.chip = w.world.chip ∧ w'.sent = w.sent ∧
      ∃ args' wire', w'.world.frame = some ⟨i :: args', wire'⟩

section Frame

variable {β : Type} {i : Byte} {args bs : List Byte} {m : Cmd Watched α} {f : α → Cmd Watched β}

theorem opens_write : Opens i ((B.watched mode).spidev.write (i :: args)) := by
  intro w wire hframe
  refine ensures_watched_write.2 ?_
  simp only [World.receive, Watched.note, hframe]
  exact ⟨trivial, trivial, args, _, rfl⟩

theorem Opens.bind (hm : Opens i m) (hf : ∀ a, Trails (f a)) : Opens i (m >>= f) := by
  intro w wire hframe
  refine (hm w wire hframe).bind ?_
  rintro a w₁ ⟨hchip₁, hsent₁, args, wire', hframe₁⟩
  refine (hf a w₁ _ _ _ hframe₁).mono ?_
  rintro _ w₂ ⟨hchip₂, hsent₂, hframe₂⟩
  exact ⟨hchip₂.trans hchip₁, hsent₂.trans hsent₁, hframe₂⟩

theorem Opens.after_setWire {wire : WireMode} (hm : Opens i m) :
    Opens i (do (B.watched mode).spidev.setWire wire; m) := by
  intro w wire' hframe
  rw [ensures_bind, ensures_watched_setWire]
  exact hm _ wire' hframe

theorem Trails.bind (hm : Trails m) (hf : ∀ a, Trails (f a)) : Trails (m >>= f) := by
  intro w i args wire hframe
  refine (hm w i args wire hframe).bind ?_
  rintro a w₁ ⟨hchip₁, hsent₁, args', wire', hframe₁⟩
  refine (hf a w₁ _ _ _ hframe₁).mono ?_
  rintro _ w₂ ⟨hchip₂, hsent₂, hframe₂⟩
  exact ⟨hchip₂.trans hchip₁, hsent₂.trans hsent₁, hframe₂⟩

theorem trails_pure (a : α) : Trails (pure a : Cmd Watched α) :=
  fun _ _ args wire hframe => ensures_pure.2 ⟨rfl, rfl, args, wire, hframe⟩

theorem trails_read {n : BitVec 32} : Trails ((B.watched mode).spidev.read n) :=
  fun _ _ args wire hframe => ensures_watched_read.2 ⟨rfl, rfl, args, wire, hframe⟩

theorem trails_setWire {wire : WireMode} : Trails ((B.watched mode).spidev.setWire wire) :=
  fun _ _ args wire hframe => ensures_watched_setWire.2 ⟨rfl, rfl, args, wire, hframe⟩

theorem trails_write : Trails ((B.watched mode).spidev.write bs) := by
  intro w i args wire hframe
  refine ensures_watched_write.2 ?_
  cases bs with
  | nil =>
    simp only [World.receive, Watched.note, hframe]
    exact ⟨trivial, trivial, args, wire, rfl⟩
  | cons b bs =>
    simp only [World.receive, Watched.note, hframe]
    exact ⟨trivial, trivial, args ++ b :: bs, wire, rfl⟩

end Frame

/-! ### Commands -/

/-- What a whole command with instruction `i` has done: it is recorded,
and the chip has carried it out if it took it. -/
structure Commanded (B : Board) (i : Byte) (w w' : Watched) : Prop where
  frame : w'.world.frame = none
  sent : w'.sent = w.sent ++ [(i, decide (0 < w.world.chip.tick.busy))]
  chip : ∃ args wire, w'.world.chip =
    if w.world.chip.tick.Takes B i wire then w.world.chip.tick.exec B i args
    else w.world.chip.tick

/-- A function that sends one command, with instruction `i`. -/
def Commands (B : Board) (i : Byte) (m : Cmd Watched α) : Prop :=
  ∀ w, Ensures m w fun _ w' => Commanded B i w w'

section Command

variable {i : Byte} {args : List Byte} {m : Cmd Watched α}

theorem Opens.commands (hm : Opens i m) : Commands B i (withCs (B.watched mode) m) := by
  intro w
  rw [ensures_watched_withCs]
  refine (hm _ w.world.wire rfl).mono ?_
  rintro a w' ⟨hchip, hsent, args, wire, hframe⟩
  have hdeselect : w'.world.deselect B = { w'.world with
      chip := if w'.world.chip.Takes B i wire then w'.world.chip.exec B i args
        else w'.world.chip
      frame := none } := by
    rw [World.deselect, hframe]
  refine ⟨?_, hsent, args, wire, ?_⟩
  · rw [hdeselect]
  · rw [hdeselect, hchip]
    rfl

theorem Commands.withQuad (hm : Commands B i m) :
    Commands B i (withQuad (B.watched mode) m) := by
  intro w
  rw [ensures_watched_withQuad]
  refine (hm _).mono ?_
  rintro a w' ⟨hframe, hsent, hchip⟩
  exact ⟨hframe, hsent, hchip⟩

theorem commands_send :
    Commands B i (withCs (B.watched mode) ((B.watched mode).spidev.write (i :: args))) :=
  opens_write.commands

end Command

/-! ### The chip at rest -/

/-- The chip of the rules: it needs the latch, ignores instructions while
busy, and does not mind the wires. -/
structure Board.Strict (B : Board) : Prop where
  needsWel : B.needsWel = true
  busyIgnores : B.busyIgnores = true
  wires : B.wireSensitive = false

/-- Nothing but `READ_STATUS_REG` was sent to a busy chip. -/
def Patient (w : Watched) : Prop := ∀ e ∈ w.sent, e.2 = true → e.1 = 0x05

/-- Between two commands. -/
structure Settling (w : Watched) : Prop where
  frame : w.world.frame = none
  patient : Patient w

/-- Between two commands, with the chip idle. -/
structure Quiet (w : Watched) : Prop extends Settling w where
  busy : w.world.chip.busy = 0

/-- **The chip at rest**: idle, the write-enable latch clear, and never
disturbed. -/
structure AtRest (w : Watched) : Prop extends Quiet w where
  wel : w.world.chip.wel = false

/-- An instruction that alters nothing. -/
def Harmless (B : Board) (i : Byte) : Prop := ∀ args mem, alterMem B i args mem = none

theorem harmless (i : Byte) (h : i ∉ [0x02, 0x32, 0x20, 0xD8, 0xC7, 0x01]) : Harmless B i := by
  intro args mem
  simp only [List.mem_cons, List.not_mem_nil, or_false, not_or] at h
  simp only [alterMem, h, or_self, if_false]

section Rest

variable {i : Byte} {w' : Watched}

theorem takes_of_idle {c : Chip} {wire : WireMode} (hB : B.Strict) (h : c.busy = 0) :
    c.Takes B i wire := by
  refine ⟨fun hw => ?_, fun _ hbusy => ?_⟩
  · rw [hB.wires] at hw
    exact absurd hw Bool.false_ne_true
  · omega

theorem takes_readStatus_of_strict {c : Chip} {wire : WireMode} (hB : B.Strict) :
    c.Takes B 0x05 wire := by
  refine ⟨fun hw => ?_, fun _ _ => rfl⟩
  rw [hB.wires] at hw
  exact absurd hw Bool.false_ne_true

theorem Patient.command (h : Patient w) (hi : 0 < w.world.chip.tick.busy → i = 0x05)
    (hc : Commanded B i w w') : Patient w' := by
  intro e he hbusy
  rw [hc.sent, List.mem_append, List.mem_singleton] at he
  rcases he with he | rfl
  · exact h e he hbusy
  · exact hi (of_decide_eq_true hbusy)

/-- What any command does to an idle chip. -/
theorem Quiet.command (hB : B.Strict) (h : Quiet w) (hc : Commanded B i w w') :
    Settling w' ∧ ∃ args, w'.world.chip = w.world.chip.exec B i args := by
  have htick : w.world.chip.tick = w.world.chip := tick_of_idle h.busy
  obtain ⟨args, wire, hchip⟩ := hc.chip
  refine ⟨⟨hc.frame, h.patient.command (fun hb => ?_) hc⟩, args, ?_⟩
  · rw [htick, h.busy] at hb
    exact absurd hb (Nat.lt_irrefl 0)
  · rw [hchip, htick, if_pos (takes_of_idle hB h.busy)]

theorem Commands.leads_settling {m : Cmd Watched α} (hB : B.Strict) (hm : Commands B i m) :
    Leads Quiet m Settling := by
  intro w h
  refine (hm w).mono ?_
  intro _ w' hc
  exact (h.command hB hc).1

theorem Commands.leads_quiet {m : Cmd Watched α} (hB : B.Strict) (hi : Harmless B i)
    (hm : Commands B i m) : Leads Quiet m Quiet := by
  intro w h
  refine (hm w).mono ?_
  intro _ w' hc
  obtain ⟨hset, args, hchip⟩ := h.command hB hc
  refine ⟨hset, ?_⟩
  rw [hchip, (exec_of_alterMem_eq_none _ (hi args _)).1, h.busy]

/-- `WRITE_DISABLE` clears the latch. -/
theorem Commands.leads_rest_of_quiet {m : Cmd Watched α} (hB : B.Strict)
    (hm : Commands B 0x04 m) : Leads Quiet m AtRest := by
  intro w h
  refine (hm w).mono ?_
  intro _ w' hc
  obtain ⟨hset, args, hchip⟩ := h.command hB hc
  refine ⟨⟨hset, ?_⟩, ?_⟩
  · rw [hchip]
    exact h.busy
  · rw [hchip]
    rfl

/-- A harmless command that does not set the latch leaves the chip at
rest. -/
theorem AtRest.command (hB : B.Strict) (hi : Harmless B i) (hne : i ≠ 0x06) (h : AtRest w)
    (hc : Commanded B i w w') :
    AtRest w' ∧ w'.world.chip.alterations = w.world.chip.alterations := by
  obtain ⟨hset, args, hchip⟩ := h.toQuiet.command hB hc
  have hexec := exec_of_alterMem_eq_none w.world.chip (hi args _)
  refine ⟨⟨⟨hset, ?_⟩, ?_⟩, ?_⟩
  · rw [hchip, hexec.1, h.busy]
  · rw [hchip]
    simp only [Chip.exec, if_neg hne, hi args]
    split
    · rfl
    · split
      · exact h.wel
      · split <;> exact h.wel
  · rw [hchip, hexec.2.2]

theorem Commands.leads_rest {m : Cmd Watched α} (hB : B.Strict) (hi : Harmless B i)
    (hne : i ≠ 0x06) (hm : Commands B i m) : Leads AtRest m AtRest := by
  intro w h
  refine (hm w).mono ?_
  intro _ w' hc
  exact (h.command hB hi hne hc).1

/-- A chip once disturbed stays disturbed. -/
theorem not_patient_of_commanded (h : ¬ Patient w) (hc : Commanded B i w w') : ¬ Patient w' := by
  intro hp
  refine h fun e he => hp e ?_
  rw [hc.sent, List.mem_append]
  exact Or.inl he

end Rest

/-! ### Waiting for the chip -/

/-- A read of the status register that tells whether the chip is busy. -/
def Polls (B : Board) (m : Cmd Watched Byte) : Prop :=
  ∀ w, Ensures m w fun s w' =>
    Commanded B 0x05 w w' ∧ (s &&& 0x01 ≠ 0 ↔ 0 < w.world.chip.tick.busy)

theorem polls_standard (hB : B.Strict) :
    Polls B (standardReadStatusRegister (B.watched mode)) := by
  intro w
  rw [standardReadStatusRegister, ensures_watched_withCs]
  simp only [ensures_bind, ensures_watched_write, ensures_watched_read, ensures_pure]
  refine ⟨⟨rfl, rfl, [], w.world.wire, ?_⟩, ?_⟩
  · rfl
  · have hreply : (w.world.select.receive [0x05]).respond B 1 =
        w.world.chip.tick.answer B 0x05 [] 1 := if_pos (takes_readStatus_of_strict hB)
    show statusByte ((w.world.select.receive [0x05]).respond B 1) &&& 0x01 ≠ 0 ↔ _
    rw [hreply]
    exact status_busy _

theorem Polls.withQuad {m : Cmd Watched Byte} (hm : Polls B m) :
    Polls B (withQuad (B.watched mode) m) := by
  intro w
  rw [ensures_watched_withQuad]
  refine (hm _).mono ?_
  rintro s w' ⟨⟨hframe, hsent, hchip⟩, hs⟩
  exact ⟨⟨hframe, hsent, hchip⟩, hs⟩

/-- **The wait ends with the chip idle.** -/
theorem Polls.leads_waitBusy {m : Cmd Watched Byte} (hB : B.Strict) (hm : Polls B m) :
    Leads Settling (waitBusy m) Quiet := by
  intro w h
  refine (ensures_waitBusy (fun w' => w'.world.chip.busy) Settling ?_ h).mono ?_
  · intro w₁ h₁
    refine (hm w₁).mono ?_
    rintro s w₂ ⟨hc, hs⟩
    obtain ⟨args, wire, hchip⟩ := hc.chip
    -- the read alters nothing, so all that happens is that a frame passes
    have hbusy : w₂.world.chip.busy = w₁.world.chip.tick.busy := by
      rw [hchip, if_pos (takes_readStatus_of_strict hB)]
      rfl
    refine ⟨⟨hc.frame, h₁.patient.command (fun _ => rfl) hc⟩, ?_, ?_⟩
    · rw [hbusy]
      rfl
    · rw [hbusy]
      exact hs
  · rintro _ w₁ ⟨h₁, hbusy⟩
    exact ⟨h₁, hbusy⟩

/-- **A command that alters the flash**, enabled, waited for and disabled,
leaves the chip at rest. -/
theorem leads_withWriteEnable (hB : B.Strict) {i : Byte} {enable alter disable : Cmd Watched PUnit}
    {readStatus : Cmd Watched Byte} (henable : Commands B 0x06 enable)
    (halter : Commands B i alter) (hread : Polls B readStatus)
    (hdisable : Commands B 0x04 disable) :
    Leads AtRest (withWriteEnable enable alter readStatus disable) AtRest := by
  have hstart : Leads AtRest enable Quiet :=
    (henable.leads_quiet hB (harmless _ (by decide))).mono (fun _ h => h.toQuiet) fun _ h => h
  exact hstart.bind fun _ => (halter.leads_settling hB).bind fun _ =>
    (hread.leads_waitBusy hB).bind fun _ => hdisable.leads_rest_of_quiet hB

/-! ### The operations -/

section Operations

variable {i : Byte} {alter : Cmd Watched PUnit}

theorem leads_standardAlter (hB : B.Strict) (halter : Opens i alter) :
    Leads AtRest (standardAlter (B.watched mode) alter) AtRest :=
  leads_withWriteEnable hB commands_send halter.commands (polls_standard hB) commands_send

theorem leads_qpiAlter (hB : B.Strict) (halter : Opens i alter) :
    Leads AtRest (qpiAlter (B.watched mode) alter) AtRest :=
  leads_withWriteEnable hB commands_send.withQuad halter.commands.withQuad
    (polls_standard hB).withQuad commands_send.withQuad

theorem leads_program (hB : B.Strict) (addr : BitVec 32) (data : List Byte) :
    Leads AtRest ((B.watched mode).bus.program (B.watched mode) addr data) AtRest := by
  have hplain : Opens 0x02 (do
      (B.watched mode).spidev.write (addressed 0x02 addr)
      (B.watched mode).spidev.write data) := opens_write.bind fun _ => trails_write
  cases mode with
  | normalSpi => exact leads_standardAlter hB hplain
  | dualSpi => exact leads_standardAlter hB hplain
  | quadSpi =>
    have hwires : Leads AtRest ((B.watched .quadSpi).spidev.setWire .normal) AtRest := by
      intro w h
      exact ensures_watched_setWire.2 ⟨⟨⟨h.frame, h.patient⟩, h.busy⟩, h.wel⟩
    refine hwires.bind fun _ => leads_standardAlter (i := 0x32) hB ?_
    exact opens_write.bind fun _ => trails_setWire.bind fun _ => trails_write.bind fun _ =>
      trails_setWire
  | qpi => exact leads_qpiAlter hB hplain

theorem leads_fastReadOutput (hB : B.Strict) (hi : Harmless B i) (hne : i ≠ 0x06)
    {wires : WireMode} {addr n : BitVec 32} :
    Leads AtRest (fastReadOutput (B.watched mode) i wires addr n) AtRest := by
  have hframe : Opens i (do
      (B.watched mode).spidev.setWire .normal
      (B.watched mode).spidev.write (addressed i addr ++ [0x00])
      (B.watched mode).spidev.setWire wires
      let buf ← (B.watched mode).spidev.read n
      (B.watched mode).spidev.setWire .normal
      return buf) :=
    Opens.after_setWire (opens_write.bind fun _ => trails_setWire.bind fun _ =>
      trails_read.bind fun _ => trails_setWire.bind fun _ => trails_pure _)
  exact hframe.commands.leads_rest hB hi hne

theorem leads_spiNorRead (hB : B.Strict) (addr len : BitVec 32) :
    Leads AtRest (spiNorRead (B.watched mode) addr len) AtRest := by
  cases mode with
  | normalSpi =>
    have hframe : Opens 0x03 (do
        (B.watched .normalSpi).spidev.write (addressed 0x03 addr)
        (B.watched .normalSpi).spidev.read len) := opens_write.bind fun _ => trails_read
    exact hframe.commands.leads_rest hB (harmless _ (by decide)) (by decide)
  | dualSpi => exact leads_fastReadOutput hB (harmless _ (by decide)) (by decide)
  | quadSpi => exact leads_fastReadOutput hB (harmless _ (by decide)) (by decide)
  | qpi =>
    have hframe : Opens 0xEB (do
        (B.watched .qpi).spidev.write (addressed 0xEB addr ++ [0x00])
        (B.watched .qpi).spidev.read len) := opens_write.bind fun _ => trails_read
    exact hframe.commands.withQuad.leads_rest hB (harmless _ (by decide)) (by decide)

/-- The erase commands: the QPI table has the variant for four wires, the
others the standard one. -/
theorem leads_erase (mode : Mode) (hB : B.Strict) (i : Byte) (args : List Byte) {m : Cmd Watched PUnit}
    (hm : m = if mode = .qpi then
        qpiAlter (B.watched mode) ((B.watched mode).spidev.write (i :: args))
      else standardAlter (B.watched mode) ((B.watched mode).spidev.write (i :: args))) :
    Leads AtRest m AtRest := by
  rw [hm]
  split
  · exact leads_qpiAlter hB opens_write
  · exact leads_standardAlter hB opens_write

theorem leads_spiNorClose (hB : B.Strict) : Leads AtRest (spiNorClose (B.watched mode)) AtRest := by
  -- deselecting a chip that is not selected, closing and unlocking do nothing to it
  have htail : Leads AtRest (do
      (B.watched mode).spidev.setCs (B.watched mode).cs true
      (B.watched mode).spidev.close
      (B.watched mode).lock.unlock) AtRest := by
    intro w h
    rw [ensures_bind, ensures_watched_setCs, ensures_bind, ensures_watched_close,
      ensures_watched_unlock, if_pos rfl, World.deselect, h.frame]
    exact ⟨⟨⟨rfl, h.patient⟩, h.busy⟩, h.wel⟩
  cases mode with
  | normalSpi => exact (Leads.pure PUnit.unit).bind fun _ => htail
  | dualSpi => exact (Leads.pure PUnit.unit).bind fun _ => htail
  | quadSpi => exact (Leads.pure PUnit.unit).bind fun _ => htail
  | qpi =>
    have hqpi : Leads AtRest (qpiClose (B.watched .qpi)) AtRest :=
      (commands_send (i := 0xFF)).withQuad.leads_rest hB (harmless _ (by decide)) (by decide)
    exact hqpi.bind fun _ => htail

end Operations

/-! ### Opening -/

/-- Opening the flash in this mode writes the status register. -/
def Mode.writesStatus : Mode → Prop
  | .normalSpi | .dualSpi => False
  | .quadSpi | .qpi => True

/-- **The condition**: opening does not write the status register, or the
chip is done with it before the next frame. -/
def StatusWriteOver (B : Board) (mode : Mode) (w : Watched) : Prop :=
  mode.writesStatus → B.duration w.world.chip.alterations = 0

section Opening

variable {w' : Watched}

/-- What an open leaves of a chip found as in `w`: at rest if the status
write is over in time, disturbed otherwise. -/
def Opened (quick : Prop) (w' : Watched) : Prop := (quick → AtRest w') ∧ (¬ quick → ¬ Patient w')

/-- **The status write does not wait.** The `WRITE_DISABLE` behind it
meets a busy chip unless the chip has been quick. -/
theorem standardWriteStatusRegister_spec (hB : B.Strict) (h : AtRest w) (data : BitVec 16) :
    Ensures (standardWriteStatusRegister (B.watched mode) data) w fun _ w' =>
      Opened (B.duration w.world.chip.alterations = 0) w' := by
  refine (commands_send (i := 0x06) w).bind ?_
  intro _ w₁ hc₁
  obtain ⟨hset₁, args₁, hchip₁⟩ := h.toQuiet.command hB hc₁
  have h₁ : Quiet w₁ := ⟨hset₁, by rw [hchip₁]; exact h.busy⟩
  refine (commands_send (i := 0x01) w₁).bind ?_
  intro _ w₂ hc₂
  obtain ⟨hset₂, args₂, hchip₂⟩ := h₁.command hB hc₂
  -- the latch is set, so the write begins
  have hbusy₂ : w₂.world.chip.busy = B.duration w.world.chip.alterations + 1 := by
    rw [hchip₂, hchip₁]
    simp [Chip.exec, alterMem]
  refine (commands_send (i := 0x04) w₂).mono ?_
  intro _ w₃ hc₃
  have htick₂ : w₂.world.chip.tick.busy = B.duration w.world.chip.alterations := by
    show w₂.world.chip.busy - 1 = _
    rw [hbusy₂, Nat.add_sub_cancel]
  refine ⟨fun hover => ?_, fun hbusy hpatient => ?_⟩
  · rw [hover] at htick₂
    obtain ⟨args₃, wire₃, hchip₃⟩ := hc₃.chip
    rw [if_pos (takes_of_idle hB htick₂)] at hchip₃
    refine ⟨⟨⟨hc₃.frame, hset₂.patient.command (fun hb => ?_) hc₃⟩, ?_⟩, ?_⟩
    · omega
    · rw [hchip₃]
      exact htick₂
    · rw [hchip₃]
      rfl
  · have hsent : ((0x04, true) : Byte × Bool) ∈ w₃.sent := by
      rw [hc₃.sent, htick₂, decide_eq_true (Nat.pos_of_ne_zero hbusy)]
      exact List.mem_append_right _ (List.mem_singleton_self _)
    exact absurd (hpatient _ hsent rfl) (by decide)

/-- `spi_nor_quad_open`, and `spi_nor_qpi_open` up to its last command. -/
theorem quadOpen_spec (hB : B.Strict) (h : AtRest w) :
    Ensures (quadOpen (B.watched mode)) w fun _ w' =>
      Opened (B.duration w.world.chip.alterations = 0) w' := by
  refine (commands_send (i := 0xAB) w).bind ?_
  intro _ w₁ hc₁
  obtain ⟨h₁, halt₁⟩ := h.command hB (harmless _ (by decide)) (by decide) hc₁
  refine (polls_standard hB w₁).bind ?_
  rintro status w₂ ⟨hc₂, -⟩
  obtain ⟨h₂, halt₂⟩ := h₁.command hB (harmless _ (by decide)) (by decide) hc₂
  have hspec : Ensures (standardWriteStatusRegister (B.watched mode) (quadEnabled status)) w₂
      fun _ w' => Opened (B.duration w₂.world.chip.alterations = 0) w' :=
    standardWriteStatusRegister_spec hB h₂ (quadEnabled status)
  rw [halt₂, halt₁] at hspec
  exact hspec

theorem qpiOpen_spec (hB : B.Strict) (h : AtRest w) :
    Ensures (qpiOpen (B.watched mode)) w fun _ w' =>
      Opened (B.duration w.world.chip.alterations = 0) w' := by
  have hopen : qpiOpen (B.watched mode) =
      (quadOpen (B.watched mode) >>= fun _ => standardEnterQpi (B.watched mode)) := by
    simp only [qpiOpen, quadOpen, qpiReleasePowerDown, standardReleasePowerDown, bind_assoc]
  rw [hopen]
  refine (quadOpen_spec hB h).bind ?_
  rintro _ w₁ ⟨hover, hearly⟩
  refine (commands_send (i := 0x38) w₁).mono ?_
  intro _ w₂ hc₂
  refine ⟨fun ho => ?_, fun ho => not_patient_of_commanded (hearly ho) hc₂⟩
  exact ((hover ho).command hB (harmless _ (by decide)) (by decide) hc₂).1

/-- **Opening** leaves the chip at rest exactly where the status write is
over in time. -/
theorem spiNorOpen_spec (hB : B.Strict) (h : AtRest w) :
    Ensures (spiNorOpen (B.watched mode)) w fun _ w' => Opened (StatusWriteOver B mode w) w' := by
  have hbus : Ensures ((B.watched mode).bus.openBus (B.watched mode)) w fun _ w' =>
      Opened (StatusWriteOver B mode w) w' := by
    have hnone : Opened (False → B.duration w.world.chip.alterations = 0) w :=
      ⟨fun _ => h, fun hno => absurd False.elim hno⟩
    have hwrites : ∀ w', Opened (B.duration w.world.chip.alterations = 0) w' →
        Opened (True → B.duration w.world.chip.alterations = 0) w' := by
      rintro w' ⟨hover, hearly⟩
      exact ⟨fun ho => hover (ho trivial), fun ho => hearly fun h0 => ho fun _ => h0⟩
    cases mode with
    | normalSpi => exact ensures_pure.2 hnone
    | dualSpi => exact ensures_pure.2 hnone
    | quadSpi => exact (quadOpen_spec hB h).mono fun _ w' => hwrites w'
    | qpi => exact (qpiOpen_spec hB h).mono fun _ w' => hwrites w'
  rw [spiNorOpen, ensures_bind, ensures_watched_lock, ensures_bind, ensures_watched_openDev]
  refine hbus.bind ?_
  intro _ w₁ h₁
  split
  · rw [ensures_bind, ensures_watched_unlock, ensures_pure]
    exact h₁
  · exact ensures_pure.2 h₁

end Opening

/-! ### Any sequence of calls -/

/-- A call of the driver. -/
inductive Access
  | openFlash
  | closeFlash
  | read (addr len : BitVec 32)
  | write (addr : BitVec 32) (buf : List Byte) (len : BitVec 32)
  | sectorErase (addr : BitVec 32)
  | blockErase (addr : BitVec 32)
  | chipErase

/-- The function it stands for. -/
def Access.call {σ : Type} (flash : Flash σ) : Access → Cmd σ PUnit
  | .openFlash => do let _ ← spiNorOpen flash
  | .closeFlash => spiNorClose flash
  | .read addr len => do let _ ← spiNorRead flash addr len
  | .write addr buf len => spiNorWrite flash addr buf len
  | .sectorErase addr => spiNorSectorErase flash addr
  | .blockErase addr => spiNorBlockErase flash addr
  | .chipErase => spiNorChipErase flash

/-- Calls, one after another. -/
def accesses (B : Board) (mode : Mode) : Machine Watched Access where
  step w a := (a.call (B.watched mode) w).map Prod.snd

/-- The call returns, and nothing but `READ_STATUS_REG` was sent to a busy
chip; it is idle then, with the latch clear. -/
def Rests (B : Board) (mode : Mode) (w : Watched) (a : Access) : Prop :=
  ∃ w', (accesses B mode).step w a = some w' ∧ AtRest w'

/-- The condition is one on opening. -/
def InTime (B : Board) (mode : Mode) (w : Watched) : Access → Prop
  | .openFlash => StatusWriteOver B mode w
  | _ => True

theorem rests_of_ensures {a : Access}
    (h : Ensures (a.call (B.watched mode)) w fun _ w' => AtRest w') : Rests B mode w a := by
  obtain ⟨r, w', hcall, hrest⟩ := h
  exact ⟨w', Option.map_eq_some_iff.2 ⟨(r, w'), hcall, rfl⟩, hrest⟩

theorem leads_of_ne_open (hB : B.Strict) {a : Access} (ha : a ≠ .openFlash) :
    Leads AtRest (a.call (B.watched mode)) AtRest := by
  cases a with
  | openFlash => exact absurd rfl ha
  | closeFlash => exact leads_spiNorClose hB
  | read addr len => exact (leads_spiNorRead hB addr len).bind fun _ => Leads.pure _
  | write addr buf len => exact leads_spiNorWrite (leads_program hB) addr buf len
  | sectorErase addr =>
    refine leads_erase mode hB 0x20 (addressed 0x20 addr).tail ?_
    cases mode <;> rfl
  | blockErase addr =>
    refine leads_erase mode hB 0xD8 (addressed 0xD8 addr).tail ?_
    cases mode <;> rfl
  | chipErase =>
    refine leads_erase mode hB 0xC7 [] ?_
    cases mode <;> rfl

/-- **One call.** From rest, every call leaves the chip at rest but an
open whose status write takes its time. -/
theorem rests_iff_inTime (hB : B.Strict) (h : AtRest w) (a : Access) :
    Rests B mode w a ↔ InTime B mode w a := by
  by_cases ha : a = .openFlash
  · subst ha
    have hopen : Ensures (Access.openFlash.call (B.watched mode)) w fun _ w' =>
        Opened (StatusWriteOver B mode w) w' := by
      refine (spiNorOpen_spec hB h).bind ?_
      exact fun _ w' h' => ensures_pure.2 h'
    constructor
    · rintro ⟨w', hstep, hrest⟩
      obtain ⟨⟨r, w₁⟩, hcall, rfl⟩ := Option.map_eq_some_iff.1 hstep
      by_contra hover
      exact (hopen.of_eq hcall).2 hover hrest.patient
    · intro hover
      refine rests_of_ensures (hopen.mono ?_)
      exact fun _ w' h' => h'.1 hover
  · have htime : InTime B mode w a := by
      cases a with
      | openFlash => exact absurd rfl ha
      | closeFlash | read | write | sectorErase | blockErase | chipErase => trivial
    exact ⟨fun _ => htime, fun _ => rests_of_ensures (leads_of_ne_open hB ha w h)⟩

/-- **A busy chip is left alone, exactly where no open disturbs it.** For a
chip that needs the latch and ignores instructions while busy, whatever
its alterations take, in each of the four modes and for every sequence of
calls from rest: every call returns, no instruction but `READ_STATUS_REG`
meets a busy chip, and after every call the chip is idle with the latch
clear, if and only if at every `spi_nor_open` the mode writes no status
register or the chip is done with that write before the next frame. -/
theorem chip_left_alone_iff (hB : B.Strict) (hw : AtRest w) (calls : List Access) :
    (accesses B mode).Along (Rests B mode) w calls ↔
      (accesses B mode).Along (InTime B mode) w calls := by
  refine Machine.along_iff_of_inv (I := AtRest) (fun w a h => rests_iff_inTime hB h a) ?_ hw
  rintro w a w' - ⟨w₁, hstep, hrest⟩ hstep'
  obtain rfl := Option.some.inj (hstep.symm.trans hstep')
  exact hrest

/-- A strict chip; each of its alterations outlasts `n` frames. -/
def steadyBoard (n : ℕ) : Board :=
  { smallBoard true with wireSensitive := false, duration := fun _ => n }

/-- The small flash in quad mode, its chip quick enough: opened, written
across a page boundary, closed. -/
theorem chip_left_alone_quick :
    (accesses (steadyBoard 0) .quadSpi).Along (Rests (steadyBoard 0) .quadSpi) ⟨erasedWorld, []⟩
      [.openFlash, .write 6 [1, 2, 3, 4, 5, 6, 7] 7, .closeFlash] := by
  have hrest : AtRest ⟨erasedWorld, []⟩ := ⟨⟨⟨rfl, fun _ he => nomatch he⟩, rfl⟩, rfl⟩
  refine (chip_left_alone_iff ⟨rfl, rfl, rfl⟩ hrest _).2 ?_
  exact ⟨fun _ => rfl, fun _ _ => ⟨trivial, fun _ _ => ⟨trivial, fun _ _ => trivial⟩⟩⟩

/-- A chip that takes three frames over its status register: the
`WRITE_DISABLE` of `spi_nor_quad_open` and the `ENABLE_QPI` of
`spi_nor_qpi_open` meet it busy, and it is still busy when they return. -/
theorem chip_disturbed_by_open :
    (((accesses (steadyBoard 3) .quadSpi).step ⟨erasedWorld, []⟩ .openFlash).map fun w =>
        (w.sent, w.world.chip.busy)) =
      some ([(0xAB, false), (0x05, false), (0x06, false), (0x01, false), (0x04, true)], 3) ∧
    (((accesses (steadyBoard 3) .qpi).step ⟨erasedWorld, []⟩ .openFlash).map fun w =>
        (w.sent, w.world.chip.busy)) =
      some ([(0xAB, false), (0x05, false), (0x06, false), (0x01, false), (0x04, true),
        (0x38, true)], 2) := by
  decide

end SpiNor

end Hgsdk

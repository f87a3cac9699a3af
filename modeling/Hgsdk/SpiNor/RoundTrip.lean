import Hgsdk.Common.Overlay
import Hgsdk.SpiNor.Commands
/-!
# Writing and reading back

`spi_nor_write` cuts a write at the page boundaries, because a program
command that crosses one wraps to the start of its page. Each piece is
combined into the memory where it belongs, so the pieces together are the
whole write, and reading gives it back.
-/

namespace Hgsdk

namespace SpiNor

variable {B : Board} {w : World}

/-- What programming does to the memory when nothing wraps. -/
def programmed (mem : ℕ → Byte) (a : ℕ) (data : List Byte) : ℕ → Byte :=
  overlay (· &&& ·) mem a data

/-- **Inside one page nothing wraps.** -/
theorem programPage_eq {P base : ℕ} (data : List Byte) :
    ∀ (off : ℕ) (mem : ℕ → Byte), off + data.length ≤ P →
      programPage P base off data mem = programmed mem (base + off) data := by
  induction data with
  | nil =>
    intro off mem _
    exact overlay_nil.symm
  | cons b bs ih =>
    intro off mem h
    rw [List.length_cons] at h
    have hoff : off % P = off := Nat.mod_eq_of_lt (by omega)
    rw [programPage, hoff, ih (off + 1) _ (by omega), programmed, programmed, overlay_cons,
      Nat.add_assoc]

/-- The three address bytes carry 24 bits. -/
theorem addressOf_addressed {instruction : Byte} {addr : BitVec 32} {data : List Byte}
    (h : addr.toNat < 2 ^ 24) :
    addressOf ((addressed instruction addr ++ data).tail) = addr.toNat := by
  show ((addr >>> 16).setWidth 8).toNat * 65536 + ((addr >>> 8).setWidth 8).toNat * 256 +
    (addr.setWidth 8).toNat = addr.toNat
  simp only [BitVec.toNat_setWidth, BitVec.toNat_ushiftRight, Nat.shiftRight_eq_div_pow]
  omega

/-! ### An idle chip in SPI mode -/

/-- The flash is in normal SPI mode with no alteration under way. -/
structure Idle (w : World) : Prop where
  wire : w.wire = .normal
  qpi : w.chip.qpi = false
  busy : w.chip.busy = 0

namespace Idle

variable (h : Idle w)

include h

theorem tick : w.chip.tick = w.chip := tick_of_idle h.busy

theorem takes (i : Byte) : w.chip.tick.Takes B i w.wire := by
  rw [h.tick]
  refine ⟨fun _ => ?_, fun _ hb => ?_⟩
  · rw [h.wire, h.qpi]
    rfl
  · rw [h.busy] at hb
    exact absurd hb (by decide)

/-- An idle chip takes every command. -/
theorem command_chip (i : Byte) (args : List Byte) :
    (w.command B (i :: args)).chip = w.chip.exec B i args := by
  rw [SpiNor.command_chip, if_pos (h.takes i), h.tick]

/-- A command that alters nothing leaves the chip idle and the memory as
it was. -/
theorem command {i : Byte} {args : List Byte} (hi : KeepsQpi i)
    (halter : alterMem B i args w.chip.mem = none) :
    Idle (w.command B (i :: args)) ∧ (w.command B (i :: args)).chip.mem = w.chip.mem := by
  have hexec := exec_of_alterMem_eq_none w.chip halter
  refine ⟨⟨?_, ?_, ?_⟩, ?_⟩
  · rw [command_wire, h.wire]
  · rw [command_qpi hi, h.qpi]
  · rw [h.command_chip, hexec.1, h.busy]
  · rw [h.command_chip, hexec.2.1]

end Idle

/-! ### One program command -/

/-- Waiting on one wire leaves the chip idle and the memory as it was. -/
theorem waitBusy_standard (hwire : w.wire = .normal) (hqpi : w.chip.qpi = false) :
    Ensures (waitBusy (standardReadStatusRegister (B.flash .normalSpi))) w fun _ w' =>
      Idle w' ∧ w'.chip.mem = w.chip.mem := by
  refine (ensures_waitBusy (fun w' => w'.chip.busy) (fun w' => w'.wire = .normal ∧
    w'.chip.qpi = false ∧ w'.chip.mem = w.chip.mem) ?_ ⟨hwire, hqpi, rfl⟩).mono ?_
  · rintro w₁ ⟨hwire₁, hqpi₁, hmem₁⟩
    have htakes : w₁.chip.tick.Takes B 0x05 w₁.wire :=
      takes_readStatus _ (by rw [hwire₁]; exact (congrArg expectedWire hqpi₁).symm)
    -- reading the status lets a frame pass and does nothing else
    have hchip : (w₁.command B [0x05]).chip = w₁.chip.tick := by
      rw [command_chip, if_pos htakes]
      rfl
    refine ensures_withCs_readStatus.2 ⟨⟨hwire₁, ?_, ?_⟩, ?_, ?_⟩
    · rw [hchip]
      exact hqpi₁
    · rw [hchip]
      exact hmem₁
    · rw [hchip]
      rfl
    · rw [hchip, reply_of_takes htakes]
      exact status_busy _
  · rintro _ w₁ ⟨⟨hwire₁, hqpi₁, hmem₁⟩, hbusy₁⟩
    exact ⟨⟨hwire₁, hqpi₁, hbusy₁⟩, hmem₁⟩

/-- **A page program that stays inside its page** combines its bytes into
the memory, whatever rules the chip has about the latch and about being
busy. -/
theorem standardPageProgram_spec (h : Idle w) {addr : BitVec 32} {data : List Byte}
    (hfits : addr.toNat % B.pageSize.toNat + data.length ≤ B.pageSize.toNat)
    (haddr : addr.toNat + data.length ≤ 2 ^ 24) :
    Ensures (standardPageProgram (B.flash .normalSpi) addr data) w fun _ w' =>
      Idle w' ∧ w'.chip.mem = programmed w.chip.mem addr.toNat data := by
  -- the memory the chip computes is the one meant, also for no data at all
  have hmem : ∀ mem, programPage B.pageSize.toNat
      (addressOf ((addressed 0x02 addr ++ data).tail) / B.pageSize.toNat * B.pageSize.toNat)
      (addressOf ((addressed 0x02 addr ++ data).tail) % B.pageSize.toNat) data mem =
      programmed mem addr.toNat data := by
    intro mem
    rcases data with _ | ⟨b, bs⟩
    · exact overlay_nil.symm
    · rw [List.length_cons] at haddr
      rw [addressOf_addressed (by omega), programPage_eq _ _ _ hfits, Nat.div_add_mod']
  rw [standardPageProgram, standardAlter, withWriteEnable]
  refine ensures_bind.2 (ensures_withCs_write.2 ?_)
  -- the latch is set
  obtain ⟨h₁, hmem₁⟩ :=
    h.command (by decide) (rfl : alterMem B 0x06 [] w.chip.mem = none)
  have hwel₁ : (w.command B [0x06]).chip.wel = true := by
    rw [h.command_chip]
    rfl
  generalize w.command B [0x06] = w₁ at h₁ hmem₁ hwel₁ ⊢
  -- the program command is taken and carried out
  rw [ensures_bind, ensures_withCs, ensures_bind, ensures_write, ensures_write, addressed,
    deselect_receive_receive, ← addressed]
  have hprog : (w₁.chip.exec B 0x02 ((addressed 0x02 addr ++ data).tail)).mem =
      programmed w.chip.mem addr.toNat data := by
    rw [← hmem₁, ← hmem]
    simp only [Chip.exec, alterMem, hwel₁]
    simp [addressed]
  have hqpi₂ : (w₁.command B (addressed 0x02 addr ++ data)).chip.qpi = false :=
    (command_qpi (by decide)).trans h₁.qpi
  have hmem₂ : (w₁.command B (addressed 0x02 addr ++ data)).chip.mem =
      programmed w.chip.mem addr.toNat data := by
    rw [← hprog]
    exact congrArg Chip.mem (h₁.command_chip 0x02 _)
  refine Ensures.bind (waitBusy_standard h₁.wire hqpi₂) ?_
  rintro _ w₃ ⟨h₃, hmem₃⟩
  obtain ⟨h₄, hmem₄⟩ :=
    h₃.command (by decide) (rfl : alterMem B 0x04 [] w₃.chip.mem = none)
  refine ensures_withCs_write.2 ⟨h₄, ?_⟩
  rw [hmem₄, hmem₃, hmem₂]

/-- Reading returns the memory from the address on. -/
theorem standardReadData_spec (h : Idle w) {addr len : BitVec 32}
    (haddr : addr.toNat + len.toNat ≤ 2 ^ 24) :
    Ensures (standardReadData (B.flash .normalSpi) addr len) w fun out w' =>
      out = (List.range len.toNat).map (fun i => w.chip.mem (addr.toNat + i)) ∧
        w'.chip.mem = w.chip.mem := by
  refine ensures_withCs_writeRead.2 ⟨?_, ?_⟩
  · rw [addressed, reply_of_takes (h.takes 0x03), h.tick]
    show (List.range len.toNat).map (fun i => w.chip.mem
      (addressOf ((addressed 0x03 addr ++ []).tail) + i)) = _
    refine List.map_congr_left ?_
    intro i hi
    rw [List.mem_range] at hi
    rw [addressOf_addressed (by omega)]
  · exact (h.command (by decide) rfl).2

/-! ### The pieces of a write -/

/-- **What is left of a write, in terms of the whole.** The chip is idle,
the variables describe bytes that are there, and programming them where
they belong still gives `target`. -/
structure WriteInv (target : ℕ → Byte) (v : WriteVars) (w : World) : Prop where
  idle : Idle w
  buf : v.buf.length = v.len.toNat
  range : v.addr.toNat + v.len.toNat ≤ 2 ^ 24
  left : programmed w.chip.mem v.addr.toNat v.buf = target

/-- A piece that stays inside its page brings the write forward. -/
theorem writePiece_spec {target : ℕ → Byte} {v : WriteVars} (h : WriteInv target v w)
    {n : BitVec 32} (hn : n.toNat ≤ v.len.toNat)
    (hfits : v.addr.toNat % B.pageSize.toNat + n.toNat ≤ B.pageSize.toNat) :
    Ensures (writePiece (B.flash .normalSpi) v n) w fun v' w' =>
      WriteInv target v' w' ∧ v'.addr.toNat = v.addr.toNat + n.toNat ∧
        v'.len.toNat = v.len.toNat - n.toNat := by
  have hlen : (v.buf.take n.toNat).length = n.toNat := by
    rw [List.length_take, h.buf]
    omega
  have hrange := h.range
  have haddr' : (v.addr + n).toNat = v.addr.toNat + n.toNat := by
    rw [BitVec.toNat_add]
    exact Nat.mod_eq_of_lt (by omega)
  have hlen' : (v.len - n).toNat = v.len.toNat - n.toNat :=
    BitVec.toNat_sub_of_le (BitVec.le_def.2 hn)
  refine (standardPageProgram_spec h.idle (by rw [hlen]; exact hfits)
    (by rw [hlen]; omega)).bind ?_
  rintro _ w₁ ⟨hidle₁, hmem₁⟩
  refine ensures_pure.2 ⟨⟨hidle₁, ?_, ?_, ?_⟩, haddr', hlen'⟩
  · show (v.buf.drop n.toNat).length = (v.len - n).toNat
    rw [List.length_drop, h.buf, hlen']
  · show (v.addr + n).toNat + (v.len - n).toNat ≤ 2 ^ 24
    rw [haddr', hlen']
    omega
  · -- the piece and the rest, end to end
    show programmed w₁.chip.mem (v.addr + n).toNat (v.buf.drop n.toNat) = target
    have hcat : programmed (programmed w.chip.mem v.addr.toNat (v.buf.take n.toNat))
        (v.addr.toNat + (v.buf.take n.toNat).length) (v.buf.drop n.toNat) =
        programmed w.chip.mem v.addr.toNat (v.buf.take n.toNat ++ v.buf.drop n.toNat) :=
      overlay_append
    rw [hlen, List.take_append_drop] at hcat
    rw [← h.left, hmem₁, haddr']
    exact hcat

/-- The rest of the page an address lies in. -/
theorem remainSize_toNat (addr : BitVec 32) :
    (remainSize (B.flash .normalSpi) addr).toNat =
      if addr.toNat % B.pageSize.toNat = 0 then 0
      else B.pageSize.toNat - addr.toNat % B.pageSize.toNat := by
  have hmod : (addr % B.pageSize).toNat = addr.toNat % B.pageSize.toNat := BitVec.toNat_umod
  have hlt : addr.toNat % B.pageSize.toNat < B.pageSize.toNat := Nat.mod_lt _ B.pageSize_pos
  have hzero : addr % B.pageSize = 0 ↔ addr.toNat % B.pageSize.toNat = 0 := by
    rw [← hmod]
    exact ⟨fun h => by rw [h]; rfl, fun h => BitVec.eq_of_toNat_eq h⟩
  show (if addr % B.pageSize ≠ 0 then B.pageSize - addr % B.pageSize else 0).toNat = _
  by_cases h : addr.toNat % B.pageSize.toNat = 0
  · rw [if_neg (not_not.2 (hzero.2 h)), if_pos h]
    rfl
  · rw [if_pos (fun h' => h (hzero.1 h')), if_neg h,
      BitVec.toNat_sub_of_le (BitVec.le_def.2 (by omega)), hmod]

/-- What is left fits its page, or starts one. -/
def AtPage (B : Board) (v : WriteVars) : Prop :=
  v.addr.toNat % B.pageSize.toNat = 0 ∨
    v.addr.toNat % B.pageSize.toNat + v.len.toNat ≤ B.pageSize.toNat

/-- **The head of a write** ends at a page boundary, unless the whole write
lies inside one page. -/
theorem writeHead_spec {target : ℕ → Byte} {v : WriteVars} (h : WriteInv target v w) :
    Ensures (if remainSize (B.flash .normalSpi) v.addr ≠ 0 ∧
        remainSize (B.flash .normalSpi) v.addr < v.len then
      writePiece (B.flash .normalSpi) v (remainSize (B.flash .normalSpi) v.addr)
      else pure v) w fun v' w' => WriteInv target v' w' ∧ AtPage B v' := by
  have hrem := remainSize_toNat (B := B) v.addr
  have hlt : v.addr.toNat % B.pageSize.toNat < B.pageSize.toNat := Nat.mod_lt _ B.pageSize_pos
  generalize remainSize (B.flash .normalSpi) v.addr = remain at hrem ⊢
  split
  · rename_i hcond
    obtain ⟨hne, hlen⟩ := hcond
    rw [BitVec.lt_def] at hlen
    have hmod : ¬ v.addr.toNat % B.pageSize.toNat = 0 := by
      intro h0
      rw [if_pos h0] at hrem
      exact hne (BitVec.eq_of_toNat_eq hrem)
    rw [if_neg hmod] at hrem
    refine (writePiece_spec h (by omega) (by omega)).mono ?_
    rintro v' w₁ ⟨hinv, haddr, -⟩
    refine ⟨hinv, Or.inl ?_⟩
    -- the address has come to the end of its page
    have hsum : v.addr.toNat + remain.toNat =
        v.addr.toNat / B.pageSize.toNat * B.pageSize.toNat + B.pageSize.toNat := by
      have := Nat.div_add_mod' v.addr.toNat B.pageSize.toNat
      omega
    rw [haddr, hsum, ← Nat.succ_mul]
    exact Nat.mul_mod_left _ _
  · rename_i hcond
    refine ensures_pure.2 ⟨h, ?_⟩
    by_cases hmod : v.addr.toNat % B.pageSize.toNat = 0
    · exact Or.inl hmod
    · rw [if_neg hmod] at hrem
      refine Or.inr ?_
      have hge : ¬ remain.toNat < v.len.toNat := by
        intro hlen
        refine hcond ⟨?_, BitVec.lt_def.2 hlen⟩
        rintro rfl
        have h0 : (0 : BitVec 32).toNat = 0 := rfl
        omega
      omega

/-- **`spi_nor_write` combines the whole buffer into the memory.** -/
theorem spiNorWrite_spec (h : Idle w) {addr len : BitVec 32} {buf : List Byte}
    (hbuf : buf.length = len.toNat) (hrange : addr.toNat + len.toNat ≤ 2 ^ 24) :
    Ensures (spiNorWrite (B.flash .normalSpi) addr buf len) w fun _ w' =>
      Idle w' ∧ w'.chip.mem = programmed w.chip.mem addr.toNat buf := by
  have hstart : WriteInv (programmed w.chip.mem addr.toNat buf) ⟨addr, buf, len⟩ w :=
    ⟨h, hbuf, hrange, rfl⟩
  have hloop : ∀ v w₁, WriteInv (programmed w.chip.mem addr.toNat buf) v w₁ ∧ AtPage B v →
      Ensures (do
        let v ← Cmd.iterate (fun v : WriteVars => do
          if (B.flash .normalSpi).pageSize < v.len then
            return .inl (← writePiece (B.flash .normalSpi) v (B.flash .normalSpi).pageSize)
          else
            return .inr v) v
        (B.flash .normalSpi).bus.program (B.flash .normalSpi) v.addr
          (v.buf.take v.len.toNat)) w₁ fun _ w' =>
        Idle w' ∧ w'.chip.mem = programmed w.chip.mem addr.toNat buf := by
    rintro v w₁ hv
    refine Ensures.bind (ensures_iterate (Q := fun v' w' =>
        WriteInv (programmed w.chip.mem addr.toNat buf) v' w' ∧ AtPage B v' ∧
          v'.len.toNat ≤ B.pageSize.toNat)
      (fun v w' => WriteInv (programmed w.chip.mem addr.toNat buf) v w' ∧ AtPage B v)
      (fun v _ => v.len.toNat) ?_ hv) ?_
    · rintro v w₂ ⟨hinv, hpage⟩
      split
      · rename_i hlen
        have hlen : B.pageSize.toNat < v.len.toNat := BitVec.lt_def.1 hlen
        have hpos := B.pageSize_pos
        -- more than a page is left, so the address is at the start of one
        have hmod : v.addr.toNat % B.pageSize.toNat = 0 := by
          rcases hpage with hmod | hfits
          · exact hmod
          · omega
        refine (writePiece_spec hinv (n := B.pageSize) (by omega) (by omega)).bind ?_
        rintro v' w₃ ⟨hinv', haddr', hlen'⟩
        refine ensures_pure.2 ⟨⟨hinv', Or.inl ?_⟩, by omega⟩
        rw [haddr', Nat.add_mod_right, hmod]
      · rename_i hlen
        refine ensures_pure.2 ⟨hinv, hpage, ?_⟩
        have hlen : ¬ B.pageSize.toNat < v.len.toNat := fun h => hlen (BitVec.lt_def.2 h)
        omega
    · rintro v' w₂ ⟨hinv, hpage, hlen⟩
      have htake : v'.buf.take v'.len.toNat = v'.buf := by
        rw [← hinv.buf]
        exact List.take_length
      rw [htake, ← hinv.left]
      refine standardPageProgram_spec hinv.idle ?_ (by rw [hinv.buf]; exact hinv.range)
      rw [hinv.buf]
      rcases hpage with hmod | hfits
      · omega
      · exact hfits
  have hhead := writeHead_spec (B := B) hstart
  rw [spiNorWrite]
  dsimp only
  split at hhead
  · rename_i hcond
    rw [if_pos hcond]
    exact hhead.bind hloop
  · rename_i hcond
    rw [if_neg hcond]
    exact hhead.bind hloop

/-- **What is written to erased flash is read back, and nothing else
changes.** For a flash in normal SPI mode of at most 2²⁴ bytes, whatever
its page size: after `spi_nor_write` of a buffer into an erased range,
`spi_nor_read` of that range returns the buffer, and every byte outside
the range is as it was. -/
theorem spiNor_write_read (hw : Idle w) {addr len : BitVec 32} {buf : List Byte}
    (hbuf : buf.length = len.toNat) (hsize : B.size.toNat ≤ 2 ^ 24)
    (hrange : addr.toNat + len.toNat ≤ B.size.toNat)
    (herased : ∀ x, addr.toNat ≤ x → x < addr.toNat + len.toNat → w.chip.mem x = 0xFF) :
    Ensures (do
      spiNorWrite (B.flash .normalSpi) addr buf len
      spiNorRead (B.flash .normalSpi) addr len) w fun out w' =>
        out = buf ∧ ∀ x, x < addr.toNat ∨ addr.toNat + len.toNat ≤ x →
          w'.chip.mem x = w.chip.mem x := by
  refine (spiNorWrite_spec hw hbuf (by omega)).bind ?_
  rintro _ w₁ ⟨hidle₁, hmem₁⟩
  refine (standardReadData_spec hidle₁ (by omega)).mono ?_
  rintro out w₂ ⟨hout, hmem₂⟩
  refine ⟨?_, ?_⟩
  · -- an erased byte takes the value programmed into it
    rw [hout, hmem₁]
    refine List.ext_getElem (by rw [List.length_map, List.length_range, hbuf]) ?_
    intro i hi hi'
    rw [List.getElem_map, List.getElem_range, programmed,
      overlay_of_getElem? (List.getElem?_eq_getElem hi'),
      herased _ (by omega) (by omega)]
    exact BitVec.allOnes_and
  · intro x hx
    rw [hmem₂, hmem₁, programmed]
    rcases hx with hx | hx
    · exact overlay_of_lt hx
    · exact overlay_of_ge (by omega)

/-- Seven bytes from address 6 on: two to the end of a page, a whole page,
and one more. -/
theorem spiNor_write_read_seven :
    Ensures (do
      spiNorWrite ((smallBoard true).flash .normalSpi) 6 [1, 2, 3, 4, 5, 6, 7] 7
      spiNorRead ((smallBoard true).flash .normalSpi) 6 7) erasedWorld fun out w' =>
        out = [1, 2, 3, 4, 5, 6, 7] ∧ ∀ x, x < 6 ∨ 13 ≤ x →
          w'.chip.mem x = erasedWorld.chip.mem x :=
  spiNor_write_read ⟨rfl, rfl, rfl⟩ rfl (by decide) (by decide) fun _ _ _ => rfl

end SpiNor

end Hgsdk

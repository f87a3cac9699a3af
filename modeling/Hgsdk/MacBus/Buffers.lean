import Hgsdk.MacBus.Accounting
/-!
# The buffers of the SDIO bus

A buffer of 1900 bytes with 256 of them reserved has room for 1644, and is
armed for 1700: whenever a buffer of `rx_skb` is armed, the hardware may
store past its end. Only `rx_buff` has the room it is armed for. A command
is copied to a buffer of 1900 bytes, or to one of its own length; it may
be longer than 1900. But a buffer that was passed up is never kept.
-/

namespace Hgsdk

namespace MacBus

open Bus

/-- What is armed has room for what it is armed for. -/
def Armed.Roomy (armed : Armed) : Prop := armed.len ≤ armed.target.room

instance (armed : Armed) : Decidable armed.Roomy := inferInstanceAs (Decidable (_ ≤ _))

/-- Every copy fits its buffer. -/
def CopiesFit (log : List Event) : Prop :=
  ∀ skb bs, .copy skb bs ∈ log → bs.length ≤ skb.room

namespace Sdio

variable {grants : ℕ → Bool} {s t : Sdio}

/-- **One owner**: a buffer that was passed up is neither armed nor in
`rx_skb`. -/
structure OneOwner (s : Sdio) : Prop where
  rxSkb : ∀ skb len buf, .recv skb len ∈ s.bus.log → s.rxSkb = some buf → buf.id ≠ skb.id
  armed : ∀ skb len buf, .recv skb len ∈ s.bus.log → s.armed.target = .skb buf → buf.id ≠ skb.id

/-- **A command fits the buffer it is copied to.** -/
def Short (grants : ℕ → Bool) (s : Sdio) : SdioIrq → Prop
  | .rx frame => s.rxSkb = none → IsCmd (store s.rxBuff frame) → grants s.bus.asked = true →
    frame.length ≤ 1900
  | .reset | .other => True

instance (s : Sdio) : ∀ a, Decidable (s.Short grants a)
  | .rx _ => inferInstanceAs (Decidable (_ → _ → _ → _))
  | .reset | .other => isTrue trivial

/-! ### What an interrupt does -/

/-- **The frame is handed on** with `bus` before and `bus'` after: the
buffer in `rx_skb` is passed up, or a copy of a command, or nothing. -/
inductive Handed (grants : ℕ → Bool) (s : Sdio) (frame : List Byte) (bus' : Bus) : Prop
  | up {skb len} (hskb : s.rxSkb = some skb) (hasked : bus'.asked = s.bus.asked)
      (hlog : bus'.log = .recv skb len :: s.bus.log)
  | cmd {size len bs} (hskb : s.rxSkb = none) (hcmd : IsCmd (store s.rxBuff frame))
      (hlen : bs.length = frame.length)
      (hsize : frame.length ≤ size ↔ (grants s.bus.asked = true → frame.length ≤ 1900))
      {id} (hid : s.bus.asked ≤ id) (hasked : bus'.asked = id + 1)
      (hlog : bus'.log = .recv ⟨id, size, 0⟩ len :: .copy ⟨id, size, 0⟩ bs :: s.bus.log)
  | dropped (hskb : s.rxSkb = none)
      (hshort : IsCmd (store s.rxBuff frame) → grants s.bus.asked = false)
      (hasked : s.bus.asked ≤ bus'.asked) (hlog : bus'.log = s.bus.log)

theorem length_bytes (buff : ℕ → Byte) (n : ℕ) : (bytes buff n).length = n := by
  rw [bytes, List.length_map, List.length_range]

/-- A command in `rx_buff` is handed on, or dropped. -/
theorem handed_command {frame : List Byte} (hskb : s.rxSkb = none)
    (hcmd : IsCmd (store s.rxBuff frame)) (hlen : frame.length ≤ 2048) :
    Handed grants s frame (command grants s.bus.arrive (store s.rxBuff frame)
      (BitVec.ofNat 32 frame.length)) := by
  have hparam : (BitVec.ofNat 32 frame.length).toNat = frame.length := by
    rw [BitVec.toNat_ofNat]
    omega
  have hparam4 : (BitVec.ofNat 32 frame.length + 4).toNat = frame.length + 4 := by
    rw [BitVec.toNat_add, hparam]
    have hfour : (4 : BitVec 32).toNat = 4 := rfl
    omega
  have hbytes : (bytes (store s.rxBuff frame) (BitVec.ofNat 32 frame.length).toNat).length =
      frame.length := (length_bytes ..).trans hparam
  obtain ⟨hgrant, heq⟩ | ⟨hgrant, -, heq⟩ | ⟨hgrant, -, heq⟩ :=
    command_cases grants s.bus.arrive (store s.rxBuff frame) (BitVec.ofNat 32 frame.length)
  · rw [heq]
    exact .cmd hskb hcmd hbytes ⟨fun hle _ => hle, fun hle => hle hgrant⟩ (Nat.le_refl _) rfl rfl
  · rw [heq]
    refine .cmd hskb hcmd hbytes ?_ (Nat.le_succ _) rfl rfl
    rw [hparam4]
    exact iff_of_true (by omega) fun hyes => nomatch hgrant.symm.trans hyes
  · rw [heq]
    exact .dropped hskb (fun _ => hgrant) (Nat.le_add_right _ 2) rfl

theorem handed_take {frame : List Byte} (h : s.Matched) (hlen : frame.length ≤ s.armed.len) :
    Handed grants s frame
      ((s.arrive frame).take grants (BitVec.ofNat 32 frame.length)).bus := by
  cases hskb : s.rxSkb with
  | some skb =>
    simp only [h.arrive_of_some hskb, take, hskb]
    exact .up hskb rfl rfl
  | none =>
    have hlen : frame.length ≤ 2048 := by
      rw [h, hskb] at hlen
      exact hlen
    simp only [h.arrive_of_none hskb, take, hskb]
    split
    · rename_i hcmd
      exact handed_command hskb hcmd hlen
    · rename_i hcmd
      exact .dropped hskb (fun hyes => absurd hyes hcmd) (Nat.le_refl _) rfl

/-- A new buffer for `rx_skb`, if there is one. -/
theorem allocRx_eq {bus : Bus} {buf : Skb} (h : (allocRx grants bus).1 = some buf) :
    buf = ⟨bus.asked, 1900, 256⟩ := by
  obtain ⟨skb, hskb, rfl⟩ := Option.map_eq_some_iff.1 h
  obtain ⟨-, halloc⟩ | ⟨-, halloc⟩ := alloc_cases grants bus 1900
  · obtain rfl := Option.some.inj (hskb.symm.trans halloc)
    rfl
  · exact nomatch hskb.symm.trans halloc

/-! ### The invariant -/

/-- **The invariant**: buffers are numbered in order, the one in `rx_skb`
is of one size, and it has not been passed up. -/
structure Inv (s : Sdio) : Prop where
  matched : s.Matched
  shape : ∀ buf, s.rxSkb = some buf → buf.id < s.bus.asked ∧ buf.size = 1900 ∧ buf.data = 256
  passed : ∀ skb len, .recv skb len ∈ s.bus.log → skb.id < s.bus.asked
  kept : ∀ skb len buf, .recv skb len ∈ s.bus.log → s.rxSkb = some buf → buf.id ≠ skb.id

/-- The log grows by what was handed on, and every buffer that was passed
up is an old one. -/
theorem Handed.passed {frame : List Byte} {bus' : Bus} (hhanded : Handed grants s frame bus')
    (h : Inv s) : ∀ skb len, .recv skb len ∈ bus'.log → skb.id < bus'.asked := by
  intro skb len hmem
  cases hhanded with
  | up hskb hasked hlog =>
    rw [hlog] at hmem
    rw [hasked]
    rcases List.mem_cons.1 hmem with heq | hmem
    · obtain ⟨rfl, -⟩ := Event.recv.inj heq
      exact (h.shape skb hskb).1
    · exact h.passed skb len hmem
  | cmd hskb hcmd hlen hsize hid hasked hlog =>
    rw [hlog] at hmem
    rw [hasked]
    rcases List.mem_cons.1 hmem with heq | hmem
    · obtain ⟨rfl, -⟩ := Event.recv.inj heq
      exact Nat.lt_succ_self _
    · have hold := h.passed skb len ((List.mem_cons.1 hmem).resolve_left nofun)
      omega
  | dropped hskb hshort hasked hlog =>
    rw [hlog] at hmem
    exact (h.passed skb len hmem).trans_le hasked

theorem inv_attached : Inv attached where
  matched := matched_attached
  shape buf hbuf := by
    obtain rfl := Option.some.inj hbuf
    exact ⟨Nat.one_pos, rfl, rfl⟩
  passed _ _ hmem := nomatch hmem
  kept _ _ _ hmem := nomatch hmem

/-- After a new buffer was asked for, and an error counted or not. -/
theorem Inv.of_allocRx {bus bus' : Bus} (hpassed : ∀ skb len, .recv skb len ∈ bus.log →
    skb.id < bus.asked) (hrxSkb : s.rxSkb = (allocRx grants bus).1) (hmatched : s.Matched)
    (hbus : s.bus = bus') (hasked : bus'.asked = bus.asked + 1)
    (hlog : ∀ skb len, .recv skb len ∈ bus'.log → .recv skb len ∈ bus.log) : Inv s := by
  subst hbus
  refine ⟨hmatched, fun buf hbuf => ?_, fun skb len hmem => ?_, fun skb len buf hmem hbuf => ?_⟩
  · rw [allocRx_eq (hrxSkb.symm.trans hbuf), hasked]
    exact ⟨Nat.lt_succ_self _, rfl, rfl⟩
  · rw [hasked]
    exact (hpassed skb len (hlog skb len hmem)).trans (Nat.lt_succ_self _)
  · rw [allocRx_eq (hrxSkb.symm.trans hbuf)]
    exact (hpassed skb len (hlog skb len hmem)).ne'

/-- **One step.** -/
theorem Inv.step {a : SdioIrq} (h : Inv s) (hstep : (sdio grants).step s a = some t) : Inv t := by
  have hmatched := h.matched.step hstep
  cases a with
  | other =>
    obtain rfl := Option.some.inj hstep
    exact h
  | reset =>
    obtain rfl := Option.some.inj hstep
    cases hskb : s.rxSkb with
    | some skb =>
      have hsame : (s.irqReset grants).bus = s.bus ∧ (s.irqReset grants).rxSkb = s.rxSkb := by
        simp only [irqReset, hskb, and_self]
      refine ⟨hmatched, ?_, ?_, ?_⟩
      · rw [hsame.1, hsame.2]
        exact h.shape
      · rw [hsame.1]
        exact h.passed
      · rw [hsame.1, hsame.2]
        exact h.kept
    | none =>
      have hnew : (s.irqReset grants).rxSkb = (allocRx grants s.bus).1 ∧
          (s.irqReset grants).bus = (allocRx grants s.bus).2 := by
        simp only [irqReset, hskb, and_self]
      exact .of_allocRx h.passed hnew.1 hmatched hnew.2 rfl fun _ _ => id
  | rx frame =>
    obtain ⟨hlen, ht⟩ := Option.ite_none_right_eq_some.1 hstep
    obtain rfl := Option.some.inj ht
    have hhanded : Handed grants s frame _ := handed_take h.matched hlen
    refine .of_allocRx (hhanded.passed h) rfl hmatched rfl ?_ ?_
    · unfold irqRx
      dsimp only
      split <;> rfl
    · intro skb len hmem
      unfold irqRx at hmem
      dsimp only at hmem
      split at hmem
      · exact hmem
      · exact (List.mem_cons.1 hmem).resolve_left (by rintro ⟨⟩)

theorem Inv.oneOwner (h : Inv s) : OneOwner s := by
  refine ⟨h.kept, fun skb len buf hmem harmed => ?_⟩
  rw [h.matched] at harmed
  cases hskb : s.rxSkb with
  | none =>
    rw [hskb] at harmed
    exact nomatch harmed
  | some skb' =>
    rw [hskb] at harmed
    obtain rfl := Target.skb.inj harmed
    exact h.kept skb len skb' hmem hskb

/-- Only `rx_buff` has the room it is armed for. -/
theorem Inv.roomy_iff (h : Inv s) : s.armed.Roomy ↔ s.rxSkb = none := by
  rw [h.matched]
  cases hskb : s.rxSkb with
  | none => exact iff_of_true (Nat.le_refl 2048) rfl
  | some buf =>
    obtain ⟨-, hsize, hdata⟩ := h.shape buf hskb
    refine iff_of_false (fun hroom => ?_) nofun
    have hroom : dataAreaSize ≤ buf.size - buf.data := hroom
    rw [hsize, hdata] at hroom
    exact absurd hroom (by decide)

/-! ### The copies -/

theorem copiesFit_cons_recv {skb : Skb} {len : CInt} {log : List Event} :
    CopiesFit (.recv skb len :: log) ↔ CopiesFit log :=
  ⟨fun h skb' bs hmem => h skb' bs (List.mem_cons_of_mem _ hmem),
    fun h skb' bs hmem => h skb' bs ((List.mem_cons.1 hmem).resolve_left (by rintro ⟨⟩))⟩

theorem copiesFit_cons_rxerr {log : List Event} : CopiesFit (.rxerr :: log) ↔ CopiesFit log :=
  ⟨fun h skb bs hmem => h skb bs (List.mem_cons_of_mem _ hmem),
    fun h skb bs hmem => h skb bs ((List.mem_cons.1 hmem).resolve_left (by rintro ⟨⟩))⟩

theorem copiesFit_cons_copy {skb : Skb} {bs : List Byte} {log : List Event} :
    CopiesFit (.copy skb bs :: log) ↔ CopiesFit log ∧ bs.length ≤ skb.room := by
  constructor
  · intro h
    exact ⟨fun skb' bs' hmem => h skb' bs' (List.mem_cons_of_mem _ hmem),
      h skb bs List.mem_cons_self⟩
  · rintro ⟨h, hfit⟩ skb' bs' hmem
    rcases List.mem_cons.1 hmem with heq | hmem
    · obtain ⟨rfl, rfl⟩ := Event.copy.inj heq
      exact hfit
    · exact h skb' bs' hmem

theorem Handed.copiesFit_iff {frame : List Byte} {bus' : Bus}
    (hhanded : Handed grants s frame bus') :
    CopiesFit bus'.log ↔ CopiesFit s.bus.log ∧ s.Short grants (.rx frame) := by
  cases hhanded with
  | up hskb hasked hlog =>
    have hshort : s.Short grants (.rx frame) := fun hnone => nomatch hskb.symm.trans hnone
    rw [hlog, copiesFit_cons_recv, and_iff_left hshort]
  | cmd hskb hcmd hlen hsize hid hasked hlog =>
    rw [hlog, copiesFit_cons_recv, copiesFit_cons_copy, hlen, Skb.room, Nat.sub_zero, hsize, Short,
      forall_prop_of_true hskb, forall_prop_of_true hcmd]
  | dropped hskb hshort hasked hlog =>
    have hshort : s.Short grants (.rx frame) :=
      fun _ hcmd hgrant => nomatch (hshort hcmd).symm.trans hgrant
    rw [hlog, and_iff_left hshort]

theorem copiesFit_step {a : SdioIrq} (h : Inv s) (hstep : (sdio grants).step s a = some t) :
    CopiesFit t.bus.log ↔ CopiesFit s.bus.log ∧ s.Short grants a := by
  cases a with
  | other =>
    obtain rfl := Option.some.inj hstep
    exact (and_iff_left trivial).symm
  | reset =>
    obtain rfl := Option.some.inj hstep
    have hlog : (s.irqReset grants).bus.log = s.bus.log := by
      unfold irqReset
      dsimp only
      split <;> rfl
    rw [hlog]
    exact (and_iff_left trivial).symm
  | rx frame =>
    obtain ⟨hlen, ht⟩ := Option.ite_none_right_eq_some.1 hstep
    obtain rfl := Option.some.inj ht
    have hhanded : Handed grants s frame _ := handed_take h.matched hlen
    rw [← hhanded.copiesFit_iff]
    unfold irqRx
    dsimp only
    split
    · exact Iff.rfl
    · exact copiesFit_cons_rxerr

/-- **The buffers of the SDIO bus**, in every run: each has one owner; what
is armed has the room exactly where it is `rx_buff`; and the copies fit
exactly where no command is longer than 1900 bytes that gets the larger
buffer. -/
theorem sdio_buffers {irqs : List SdioIrq} (hattach : attach grants = some s)
    (hrun : (sdio grants).run s irqs = some t) :
    t.OneOwner ∧ (t.armed.Roomy ↔ t.rxSkb = none) ∧
      (CopiesFit t.bus.log ↔ (sdio grants).Along (Short grants) s irqs) := by
  obtain ⟨-, rfl⟩ := attach_eq_some.1 hattach
  have hinv : Inv t := Machine.inv_of_run_of_step (fun _ _ _ h hs => h.step hs) inv_attached hrun
  have hnone : CopiesFit attached.bus.log := fun _ _ hmem => nomatch hmem
  have hcopies := Machine.iff_and_along (P := fun s => CopiesFit s.bus.log)
    (fun _ _ _ h hs => h.step hs) (fun _ _ _ h hs => copiesFit_step h hs) inv_attached hrun
  exact ⟨hinv.oneOwner, hinv.roomy_iff, hcopies.trans (and_iff_right hnone)⟩

/-- A frame, and no buffer for the next one, which is a command. -/
theorem sdio_buffers_command : ∃ t, attach (fun k => k != 1) = some attached ∧
    (sdio fun k => k != 1).run attached [.rx [1, 2, 3], .rx cmdHdr] = some t ∧
    t.OneOwner ∧ CopiesFit t.bus.log := by
  have hattach : attach (fun k => k != 1) = some attached := rfl
  obtain ⟨t, hrun⟩ : ∃ t, (sdio fun k => k != 1).run attached
      [.rx [1, 2, 3], .rx cmdHdr] = some t := ⟨_, rfl⟩
  have h := sdio_buffers hattach hrun
  exact ⟨t, hattach, hrun, h.1, h.2.2.2 (by decide)⟩

/-- The bus with `rx_buff` armed, after a frame of no bytes. -/
def fallback : Sdio :=
  ⟨⟨1, 2, 1, [.rxerr, .recv ⟨0, 1900, 256⟩ 0]⟩, none, true, fun _ => 0, ⟨.rxBuff, 2048⟩⟩

/-- A long command is copied to a buffer that is too short. -/
theorem overrun_of_long {frame : List Byte} (hcmd : IsCmd (store fallback.rxBuff frame))
    (hlong : 1900 < frame.length) (hlen : frame.length ≤ 2048) :
    ∃ t, (sdio fun k => k != 1).run attached [.rx [], .rx frame] = some t ∧
      ¬ CopiesFit t.bus.log := by
  have hfirst : (sdio fun k => k != 1).step attached (.rx []) = some fallback := rfl
  have hinv : Inv fallback := inv_attached.step hfirst
  have hsecond : (sdio fun k => k != 1).step fallback (.rx frame) = some _ := if_pos hlen
  have hrun : (sdio fun k => k != 1).run attached [.rx [], .rx frame] = some _ :=
    (Machine.run_cons_of_step hfirst).trans (Machine.run_cons_of_step hsecond)
  refine ⟨_, hrun, fun hfits => ?_⟩
  have hshort := ((copiesFit_step hinv hsecond).1 hfits).2 rfl hcmd rfl
  omega

/-- **A buffer with room for 1644 bytes is armed for 1700** when the bus is
attached, and **a command of 1908 bytes is copied to a buffer of 1900**. -/
theorem sdio_buffers_overrun :
    (attach (fun k => k != 1) = some attached ∧ attached.armed.len = 1700 ∧
      attached.armed.target.room = 1644) ∧
    ∃ t, (sdio fun k => k != 1).run attached [.rx [], .rx (cmdHdr ++ List.replicate 1900 0)] =
      some t ∧ ¬ CopiesFit t.bus.log := by
  have hlen : (cmdHdr ++ List.replicate 1900 0).length = 1908 := by
    rw [List.length_append, List.length_replicate]
    rfl
  exact ⟨⟨rfl, rfl, rfl⟩, overrun_of_long (by decide) (by rw [hlen]; decide)
    (by rw [hlen]; decide)⟩

end Sdio

end MacBus

end Hgsdk

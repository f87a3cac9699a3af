import Hgsdk.MacBus.Model
/-!
# Every frame is passed up or counted

What came in is what was passed up and what was counted in `rxerr`. USB
and GMAC keep to it. NDEV does not count a frame it has no buffer for.
SDIO counts a frame when it has no buffer to arm for it, before the frame
comes in: the account is right as long as that frame is dropped in the
end, but a command is passed up all the same, and a reset may find a
buffer after all.
-/

namespace Hgsdk

namespace MacBus

/-! ### The account -/

def Event.isRecv : Event → Bool
  | .recv .. => true
  | _ => false

def Event.isErr : Event → Bool
  | .rxerr => true
  | _ => false

namespace Bus

def passed (bus : Bus) : ℕ := bus.log.countP Event.isRecv

def errors (bus : Bus) : ℕ := bus.log.countP Event.isErr

/-- **The account of a bus**, where `pending` frames were counted that have
not come in yet. The register holds the count, as far as 32 bits do. -/
structure Settled (bus : Bus) (pending : ℕ) : Prop where
  frames : bus.received + pending = bus.passed + bus.errors
  rxerr : bus.rxerr = BitVec.ofNat 32 bus.errors

theorem settled_zalloc : zalloc.Settled 0 := ⟨rfl, rfl⟩

/-- From `bus` to `bus'`, `a` frames came in, `p` were passed up and `e`
counted. -/
structure Did (bus bus' : Bus) (a p e : ℕ) : Prop where
  received : bus'.received = bus.received + a
  passed : bus'.passed = bus.passed + p
  errors : bus'.errors = bus.errors + e
  rxerr : bus'.rxerr = bus.rxerr + BitVec.ofNat 32 e

variable {bus bus' : Bus} {a p e pending pending' : ℕ}

namespace Did

theorem refl (bus : Bus) : Did bus bus 0 0 0 := ⟨rfl, rfl, rfl, (BitVec.add_zero _).symm⟩

theorem arrive (h : Did bus bus' a p e) : Did bus bus'.arrive (a + 1) p e :=
  ⟨congrArg (· + 1) h.received, h.passed, h.errors, h.rxerr⟩

theorem alloc (h : Did bus bus' a p e) (grants : ℕ → Bool) (n : BitVec 32) :
    Did bus (bus'.alloc grants n).2 a p e := ⟨h.received, h.passed, h.errors, h.rxerr⟩

theorem copy (h : Did bus bus' a p e) (skb : Skb) (bs : List Byte) :
    Did bus (bus'.copy skb bs) a p e := by
  refine ⟨h.received, ?_, ?_, h.rxerr⟩
  · exact (List.countP_cons_of_neg Bool.false_ne_true).trans h.passed
  · exact (List.countP_cons_of_neg Bool.false_ne_true).trans h.errors

theorem recv (h : Did bus bus' a p e) (skb : Skb) (len : CInt) :
    Did bus (bus'.recv skb len) a (p + 1) e := by
  refine ⟨h.received, ?_, ?_, h.rxerr⟩
  · exact (List.countP_cons_of_pos rfl).trans (congrArg (· + 1) h.passed)
  · exact (List.countP_cons_of_neg Bool.false_ne_true).trans h.errors

theorem err (h : Did bus bus' a p e) : Did bus bus'.err a p (e + 1) := by
  refine ⟨h.received, ?_, ?_, ?_⟩
  · exact (List.countP_cons_of_neg Bool.false_ne_true).trans h.passed
  · exact (List.countP_cons_of_pos rfl).trans (congrArg (· + 1) h.errors)
  · show bus'.rxerr + 1 = _
    rw [h.rxerr, BitVec.add_assoc, BitVec.ofNat_add]
    rfl

theorem trans {bus'' : Bus} {a' p' e' : ℕ} (h : Did bus bus' a p e)
    (h' : Did bus' bus'' a' p' e') : Did bus bus'' (a + a') (p + p') (e + e') := by
  refine ⟨?_, ?_, ?_, ?_⟩
  · rw [h'.received, h.received, Nat.add_assoc]
  · rw [h'.passed, h.passed, Nat.add_assoc]
  · rw [h'.errors, h.errors, Nat.add_assoc]
  · rw [h'.rxerr, h.rxerr, BitVec.add_assoc, BitVec.ofNat_add]

end Did

/-- **The account afterwards** is right where the frames that came in are
those that were handled. -/
theorem Settled.iff_of_did (h : bus.Settled pending) (hdid : Did bus bus' a p e) :
    bus'.Settled pending' ↔ a + pending' = pending + p + e := by
  have hframes := h.frames
  have hreceived := hdid.received
  have hpassed := hdid.passed
  have herrors := hdid.errors
  constructor
  · intro h'
    have hframes' := h'.frames
    omega
  · intro hcount
    refine ⟨by omega, ?_⟩
    rw [hdid.rxerr, h.rxerr, herrors, BitVec.ofNat_add]

/-- A request for a buffer, by its outcome. -/
theorem alloc_cases (grants : ℕ → Bool) (bus : Bus) (n : BitVec 32) :
    grants bus.asked = true ∧ (bus.alloc grants n).1 = some ⟨bus.asked, n.toNat, 0⟩ ∨
    grants bus.asked = false ∧ (bus.alloc grants n).1 = none := by
  unfold alloc
  cases hgrant : grants bus.asked with
  | true => exact .inl ⟨rfl, rfl⟩
  | false => exact .inr ⟨rfl, rfl⟩

end Bus

open Bus

variable {grants : ℕ → Bool}

/-! ### Each handler -/

/-- `gmac_bus_input_cb` handles its frame once. -/
theorem did_gmacBusInputCb (bus : Bus) (data : List Byte) (size : BitVec 32) :
    ∃ p e, Did bus (gmacBusInputCb grants bus data size) 0 p e ∧ p + e = 1 := by
  have halloc := (Did.refl bus).alloc grants (size + 256 + 32)
  unfold gmacBusInputCb allocTxSkb
  obtain ⟨-, hskb⟩ | ⟨-, hskb⟩ := alloc_cases grants bus (size + 256 + 32)
  · simp only [hskb]
    exact ⟨1, 0, (halloc.copy _ _).recv _ _, rfl⟩
  · simp only [hskb]
    exact ⟨0, 1, halloc.err, rfl⟩

/-- `usb_bus_irq` handles its frame once. -/
theorem did_usbBusRecv (bus : Bus) (rxbuff : ℕ → Byte) (param2 : BitVec 32) :
    ∃ p e, Did bus (usbBusRecv grants bus rxbuff param2) 0 p e ∧ p + e = 1 := by
  have halloc := (Did.refl bus).alloc grants (param2 + 256 + 32)
  unfold usbBusRecv allocTxSkb
  split
  · exact ⟨0, 1, (Did.refl bus).err, rfl⟩
  · obtain ⟨-, hskb⟩ | ⟨-, hskb⟩ := alloc_cases grants bus (param2 + 256 + 32)
    · simp only [hskb]
      exact ⟨1, 0, (halloc.copy _ _).recv _ _, rfl⟩
    · simp only [hskb]
      split
      · -- a command may still get a buffer
        unfold allocSkb
        obtain ⟨-, hskb'⟩ | ⟨-, hskb'⟩ :=
          alloc_cases grants (bus.alloc grants (param2 + 256 + 32)).2 (param2 + 4)
        · simp only [hskb']
          exact ⟨1, 0, ((halloc.alloc _ _).copy _ _).recv _ _, rfl⟩
        · simp only [hskb']
          exact ⟨0, 1, (halloc.alloc _ _).err, rfl⟩
      · exact ⟨0, 1, halloc.err, rfl⟩

/-- `ndev_bus_send_data` passes its frame up if it gets a buffer, and
counts nothing. -/
theorem did_ndevBusSendData {s : Ndev} (hrecv : s.recvSet = true) (data : List Byte)
    (size : BitVec 32) : Did s.bus (ndevBusSendData grants s data size).bus 0
      (if grants s.bus.asked then 1 else 0) 0 := by
  have halloc := (Did.refl s.bus).alloc grants (size + 256 + 32)
  unfold ndevBusSendData allocTxSkb
  rw [if_pos hrecv]
  obtain ⟨hgrant, hskb⟩ | ⟨hgrant, hskb⟩ := alloc_cases grants s.bus (size + 256 + 32)
  · simp only [hskb, hgrant, if_true]
    exact (halloc.copy _ _).recv _ _
  · simp only [hskb, hgrant, Bool.false_eq_true, if_false]
    exact halloc

theorem ndevBusSendData_recvSet (s : Ndev) (data : List Byte) (size : BitVec 32) :
    (ndevBusSendData grants s data size).recvSet = s.recvSet := by
  unfold ndevBusSendData
  split
  · dsimp only
    split <;> rfl
  · rfl

/-- **What becomes of a command**: it is passed up in the buffer it gets
first, or in the one it gets then, or dropped. -/
theorem command_cases (grants : ℕ → Bool) (bus : Bus) (rxBuff : ℕ → Byte) (param3 : BitVec 32) :
    (grants bus.asked = true ∧ Sdio.command grants bus rxBuff param3 =
      ((bus.alloc grants 1900).2.copy ⟨bus.asked, 1900, 0⟩ (bytes rxBuff param3.toNat)).recv
        ⟨bus.asked, 1900, 0⟩ param3) ∨
    (grants bus.asked = false ∧ grants (bus.asked + 1) = true ∧
      Sdio.command grants bus rxBuff param3 =
        (((bus.alloc grants 1900).2.alloc grants (param3 + 4)).2.copy
          ⟨bus.asked + 1, (param3 + 4).toNat, 0⟩ (bytes rxBuff param3.toNat)).recv
            ⟨bus.asked + 1, (param3 + 4).toNat, 0⟩ param3) ∨
    (grants bus.asked = false ∧ grants (bus.asked + 1) = false ∧
      Sdio.command grants bus rxBuff param3 =
        ((bus.alloc grants 1900).2.alloc grants (param3 + 4)).2) := by
  unfold Sdio.command allocTxSkb
  obtain ⟨hgrant, hskb⟩ | ⟨hgrant, hskb⟩ := alloc_cases grants bus 1900
  · simp only [hskb]
    exact .inl ⟨hgrant, rfl⟩
  · simp only [hskb]
    unfold allocSkb
    obtain ⟨hgrant', hskb'⟩ | ⟨hgrant', hskb'⟩ :=
      alloc_cases grants (bus.alloc grants 1900).2 (param3 + 4)
    · simp only [hskb']
      exact .inr (.inl ⟨hgrant, hgrant', rfl⟩)
    · simp only [hskb']
      exact .inr (.inr ⟨hgrant, hgrant', trivial⟩)

/-- A command is passed up if one of two requests is granted. -/
theorem did_command (bus : Bus) (rxBuff : ℕ → Byte) (param3 : BitVec 32) :
    Did bus (Sdio.command grants bus rxBuff param3) 0
      (if grants bus.asked || grants (bus.asked + 1) then 1 else 0) 0 := by
  have halloc := (Did.refl bus).alloc grants 1900
  obtain ⟨hfirst, heq⟩ | ⟨hfirst, hnext, heq⟩ | ⟨hfirst, hnext, heq⟩ :=
    command_cases grants bus rxBuff param3
  · rw [heq, hfirst, Bool.true_or]
    exact (halloc.copy _ _).recv _ _
  · rw [heq, hfirst, hnext, Bool.or_true]
    exact ((halloc.alloc _ _).copy _ _).recv _ _
  · rw [heq, hfirst, hnext, Bool.or_false]
    exact halloc.alloc _ _

/-! ### SDIO -/

namespace Sdio

/-- A frame that was counted before it came in. -/
def pending (s : Sdio) : ℕ := if s.rxSkb.isSome then 0 else 1

/-- **A frame that was counted is dropped**: no command gets a buffer, and
a reset finds none. -/
def Kept (grants : ℕ → Bool) (s : Sdio) : SdioIrq → Prop
  | .rx frame => s.rxSkb = none → IsCmd (store s.rxBuff frame) →
    grants s.bus.asked = false ∧ grants (s.bus.asked + 1) = false
  | .reset => s.rxSkb = none → grants s.bus.asked = false
  | .other => True

instance (s : Sdio) : ∀ a, Decidable (s.Kept grants a)
  | .rx _ => inferInstanceAs (Decidable (_ → _ → _))
  | .reset => inferInstanceAs (Decidable (_ → _))
  | .other => isTrue trivial

/-- The buffer in `rx_skb` is armed, or `rx_buff` where there is none. -/
def Matched (s : Sdio) : Prop := s.armed = slaveRead s.rxSkb

theorem allocRx_isSome (bus : Bus) : (allocRx grants bus).1.isSome = grants bus.asked := by
  unfold allocRx allocTxSkb
  obtain ⟨hgrant, hskb⟩ | ⟨hgrant, hskb⟩ := alloc_cases grants bus 1900
  · simp only [hskb, hgrant, Option.map_some, Option.isSome_some]
  · simp only [hskb, hgrant, Option.map_none, Option.isSome_none]

theorem did_allocRx {bus₀ bus : Bus} {a p e : ℕ} (h : Did bus₀ bus a p e) :
    Did bus₀ (allocRx grants bus).2 a p e := h.alloc grants 1900

variable {s t : Sdio}

/-- `SDIO_SLAVE_IRQ_RX` counts an error where there is no new buffer, so
the account depends on what was passed up of the old one. -/
theorem settled_irqRx_iff {x : Sdio} {param3 : BitVec 32} {p : ℕ} (h : s.bus.Settled s.pending)
    (htake : Did s.bus (x.take grants param3).bus 1 p 0) :
    (x.irqRx grants param3).bus.Settled (x.irqRx grants param3).pending ↔ s.pending + p = 1 := by
  have halloc : Did s.bus (allocRx grants (x.take grants param3).bus).2 1 p 0 := did_allocRx htake
  have hdid : Did s.bus (x.irqRx grants param3).bus 1 p (x.irqRx grants param3).pending := by
    unfold irqRx pending
    dsimp only
    split
    · exact halloc
    · exact halloc.err
  rw [h.iff_of_did hdid]
  omega

theorem Matched.arrive_of_some {skb : Skb} (h : s.Matched) (hskb : s.rxSkb = some skb)
    (frame : List Byte) : s.arrive frame = { s with bus := s.bus.arrive } := by
  have htarget : s.armed.target = .skb skb := by
    rw [h, hskb]
    rfl
  simp only [arrive, fill, htarget]

theorem Matched.arrive_of_none (h : s.Matched) (hskb : s.rxSkb = none) (frame : List Byte) :
    s.arrive frame = { s with bus := s.bus.arrive, rxBuff := store s.rxBuff frame } := by
  have htarget : s.armed.target = .rxBuff := by
    rw [h, hskb]
    rfl
  simp only [arrive, fill, htarget]

/-- **A step**: the account is right afterwards exactly where a frame that
was counted is dropped. -/
theorem settled_iff_of_step {a : SdioIrq} (hmatched : s.Matched) (h : s.bus.Settled s.pending)
    (hstep : (sdio grants).step s a = some t) :
    t.bus.Settled t.pending ↔ s.Kept grants a := by
  cases a with
  | other =>
    obtain rfl := Option.some.inj hstep
    exact iff_of_true h trivial
  | reset =>
    obtain rfl := Option.some.inj hstep
    cases hskb : s.rxSkb with
    | some skb =>
      have hsame : (s.irqReset grants).bus = s.bus ∧ (s.irqReset grants).pending = s.pending := by
        simp only [irqReset, pending, hskb, and_self]
      rw [hsame.1, hsame.2]
      exact iff_of_true h fun hnone => nomatch hskb.symm.trans hnone
    | none =>
      have hdid : Did s.bus (s.irqReset grants).bus 0 0 0 := by
        simp only [irqReset, hskb]
        exact did_allocRx (.refl s.bus)
      have hpending : s.pending = 1 := by rw [pending, hskb]; rfl
      have hpending' : (s.irqReset grants).pending = if grants s.bus.asked then 0 else 1 := by
        simp only [irqReset, pending, hskb, allocRx_isSome]
      rw [h.iff_of_did hdid, hpending, hpending', Kept, forall_prop_of_true hskb]
      cases grants s.bus.asked <;> decide
  | rx frame =>
    obtain ⟨-, ht⟩ := Option.ite_none_right_eq_some.1 hstep
    obtain rfl := Option.some.inj ht
    cases hskb : s.rxSkb with
    | some skb =>
      -- the frame is in the buffer that was armed for it
      have htake : Did s.bus ((s.arrive frame).take grants (BitVec.ofNat 32 frame.length)).bus
          1 1 0 := by
        simp only [hmatched.arrive_of_some hskb, take, hskb]
        exact (Did.refl s.bus).arrive.recv _ _
      rw [settled_irqRx_iff h htake, pending, hskb]
      exact iff_of_true rfl fun hnone => nomatch hskb.symm.trans hnone
    | none =>
      rw [Kept, forall_prop_of_true hskb]
      by_cases hcmd : IsCmd (store s.rxBuff frame)
      · have htake : Did s.bus ((s.arrive frame).take grants (BitVec.ofNat 32 frame.length)).bus 1
            (0 + if grants s.bus.asked || grants (s.bus.asked + 1) then 1 else 0) 0 := by
          simp only [hmatched.arrive_of_none hskb, take, hskb, if_pos hcmd]
          exact (Did.refl s.bus).arrive.trans (did_command s.bus.arrive _ _)
        rw [settled_irqRx_iff h htake, pending, hskb, forall_prop_of_true hcmd]
        cases grants s.bus.asked <;> cases grants (s.bus.asked + 1) <;> decide
      · have htake : Did s.bus ((s.arrive frame).take grants (BitVec.ofNat 32 frame.length)).bus
            1 0 0 := by
          simp only [hmatched.arrive_of_none hskb, take, hskb, if_neg hcmd]
          exact (Did.refl s.bus).arrive
        rw [settled_irqRx_iff h htake, pending, hskb]
        exact iff_of_true rfl fun hyes => absurd hyes hcmd

theorem Matched.step {a : SdioIrq} (h : s.Matched) (hstep : (sdio grants).step s a = some t) :
    t.Matched := by
  cases a with
  | other =>
    obtain rfl := Option.some.inj hstep
    exact h
  | reset =>
    obtain rfl := Option.some.inj hstep
    rfl
  | rx frame =>
    obtain ⟨-, ht⟩ := Option.ite_none_right_eq_some.1 hstep
    obtain rfl := Option.some.inj ht
    rfl

/-- The bus as it is attached. -/
def attached : Sdio :=
  ⟨⟨0, 1, 0, []⟩, some ⟨0, 1900, 256⟩, false, fun _ => 0, ⟨.skb ⟨0, 1900, 256⟩, dataAreaSize⟩⟩

theorem attach_eq_some : attach grants = some s ↔ grants 0 = true ∧ s = attached := by
  have hattach : attach grants = if grants 0 = true then some attached else none := by
    cases hgrant : grants 0 with
    | true =>
      simp only [attach, allocRx, allocTxSkb, Bus.alloc, Bus.zalloc, hgrant, if_true]
      rfl
    | false =>
      simp only [attach, allocRx, allocTxSkb, Bus.alloc, Bus.zalloc, hgrant, Bool.false_eq_true,
        if_false, Option.map_none]
  rw [hattach, Option.ite_none_right_eq_some, Option.some.injEq, eq_comm (a := s)]

theorem matched_attached : attached.Matched := rfl

end Sdio

/-! ### Runs -/

/-- **The request for a buffer is granted.** -/
def Ndev.Granted (grants : ℕ → Bool) (s : Ndev) (_ : List Byte) : Prop :=
  grants s.bus.asked = true

instance (s : Ndev) (data : List Byte) : Decidable (s.Granted grants data) :=
  inferInstanceAs (Decidable (_ = _))

/-- What is received settles an account of one frame at a time. -/
theorem Bus.Settled.handled {bus bus' : Bus} (h : bus.Settled 0)
    (hdid : ∃ p e, Did bus.arrive bus' 0 p e ∧ p + e = 1) : bus'.Settled 0 := by
  obtain ⟨p, e, hdid, hone⟩ := hdid
  have harrive := (Did.refl bus).arrive.trans hdid
  rw [h.iff_of_did harrive]
  omega

theorem settled_gmac {bus bus' : Bus} {data : List Byte} (h : bus.Settled 0)
    (hstep : (gmac grants).step bus data = some bus') : bus'.Settled 0 := by
  obtain ⟨-, ht⟩ := Option.ite_none_right_eq_some.1 hstep
  obtain rfl := Option.some.inj ht
  exact h.handled (did_gmacBusInputCb ..)

theorem settled_usb {s t : Usb} {irq : UsbIrq} (h : s.bus.Settled 0)
    (hstep : (usb grants).step s irq = some t) : t.bus.Settled 0 := by
  cases irq with
  | ep1Rx frame =>
    obtain ⟨-, ht⟩ := Option.ite_none_right_eq_some.1 hstep
    obtain rfl := Option.some.inj ht
    exact h.handled (did_usbBusRecv ..)
  | reset | suspend | resume | sof | ctl | ep1Tx | other =>
    obtain rfl := Option.some.inj hstep
    exact h

theorem settled_ndev_iff {s t : Ndev} {data : List Byte} (hrecv : s.recvSet = true)
    (h : s.bus.Settled 0) (hstep : (ndev grants).step s data = some t) :
    t.recvSet = true ∧ (t.bus.Settled 0 ↔ s.Granted grants data) := by
  obtain ⟨-, ht⟩ := Option.ite_none_right_eq_some.1 hstep
  obtain rfl := Option.some.inj ht
  refine ⟨(ndevBusSendData_recvSet ..).trans hrecv, ?_⟩
  have hdid : Did s.bus.arrive _ 0 (if grants s.bus.asked then 1 else 0) 0 :=
    did_ndevBusSendData (s := { s with bus := s.bus.arrive }) hrecv data
      (BitVec.ofNat 32 data.length)
  rw [h.iff_of_did ((Did.refl s.bus).arrive.trans hdid), Ndev.Granted]
  cases grants s.bus.asked <;> decide

/-- **The accounts of the four buses**, at every moment of every run:
right on USB and GMAC; right on NDEV exactly while every request for a
buffer is granted; right on SDIO exactly while a frame that was counted is
dropped. -/
theorem receive_accounting (grants : ℕ → Bool) :
    (∀ irqs, (usb grants).Always (fun s => s.bus.Settled 0) .attach irqs) ∧
    (∀ frames, (gmac grants).Always (fun bus => bus.Settled 0) .zalloc frames) ∧
    (∀ frames t, (ndev grants).run .attach frames = some t →
      ((ndev grants).Always (fun s => s.bus.Settled 0) .attach frames ↔
        (ndev grants).Along (Ndev.Granted grants) .attach frames)) ∧
    (∀ s irqs t, Sdio.attach grants = some s → (sdio grants).run s irqs = some t →
      ((sdio grants).Always (fun s => s.bus.Settled s.pending) s irqs ↔
        (sdio grants).Along (Sdio.Kept grants) s irqs)) := by
  refine ⟨fun irqs => ?_, fun frames => ?_, fun frames t hrun => ?_,
    fun s irqs t hattach hrun => ?_⟩
  · exact Machine.always_of_step (fun _ _ _ h hs => settled_usb h hs) settled_zalloc
  · exact Machine.always_of_step (fun _ _ _ h hs => settled_gmac h hs) settled_zalloc
  · exact Machine.always_iff_along (I := fun s => s.recvSet = true ∧ s.bus.Settled 0)
      (J := fun _ => True) (fun _ h => h.2)
      (fun _ _ _ h hC _ hs => (settled_ndev_iff h.1 h.2 hs).imp_right fun hiff => hiff.2 hC)
      (fun _ _ _ h hC hs ht => hC ((settled_ndev_iff h.1 h.2 hs).2.1 ht))
      ⟨rfl, settled_zalloc⟩ (Machine.always_of_step (fun _ _ _ _ _ => trivial) trivial) hrun
  · obtain ⟨-, rfl⟩ := Sdio.attach_eq_some.1 hattach
    exact Machine.always_iff_along (I := fun s => s.Matched ∧ s.bus.Settled s.pending)
      (J := fun _ => True) (fun _ h => h.2)
      (fun _ _ _ h hC _ hs => ⟨h.1.step hs, (Sdio.settled_iff_of_step h.1 h.2 hs).2 hC⟩)
      (fun _ _ _ h hC hs ht => hC ((Sdio.settled_iff_of_step h.1 h.2 hs).1 ht))
      ⟨Sdio.matched_attached, ⟨rfl, rfl⟩⟩
      (Machine.always_of_step (fun _ _ _ _ _ => trivial) trivial) hrun

/-- Two frames on the SDIO bus, with buffers for all. -/
theorem receive_accounting_two_frames : ∃ t, Sdio.attach (fun _ => true) = some .attached ∧
    (sdio fun _ => true).run .attached [.rx [1, 2], .rx [3]] = some t ∧
    (sdio fun _ => true).Always (fun s => s.bus.Settled s.pending) .attached
      [.rx [1, 2], .rx [3]] :=
  ⟨_, rfl, rfl, ((receive_accounting fun _ => true).2.2.2 _ _ _ rfl rfl).2 (by decide)⟩

/-- The header of a command. -/
def cmdHdr : List Byte := [0x2B, 0x1A, 3, 0, 0, 0, 0, 0]

/-- **NDEV loses a frame** without counting it, and **SDIO counts a
command** that it passes up. -/
theorem receive_accounting_fails :
    (∃ t, (ndev fun _ => false).run .attach [[1, 2, 3]] = some t ∧
      t.bus.received = 1 ∧ t.bus.passed = 0 ∧ t.bus.errors = 0) ∧
    ∃ t, Sdio.attach (fun k => k != 1) = some .attached ∧
      (sdio fun k => k != 1).run .attached [.rx [1, 2, 3], .rx cmdHdr] = some t ∧
      t.bus.received = 2 ∧ t.bus.passed = 2 ∧ t.bus.errors = 1 ∧ t.pending = 0 :=
  ⟨⟨_, rfl, rfl, rfl, rfl⟩, _, rfl, rfl, rfl, rfl, rfl, rfl⟩

end MacBus

end Hgsdk

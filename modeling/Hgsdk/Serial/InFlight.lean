import Hgsdk.Serial.Tasks
import Mathlib.Data.Finset.Card
import Mathlib.Data.Fintype.Basic
/-!
# Transfers in flight, and the tasks that owe

A transfer is in flight on a channel while the newest event about the
channel is the request that got it. A task owes a semaphore from its
request until it has taken the post. What a request, a stop and a served
interrupt change of both is said here once.
-/

namespace Hgsdk

namespace Serial

namespace Tasks

open Dmac

variable {T : Type}

/-! ### Blocked tasks and transfers in flight -/

namespace Event

/-- The event is about the channel `ch`. -/
def concerns (ch : Chan) : Event T → Bool
  | .xfer _ _ ret | .other ret => ret = BitVec.ofNat 32 ch
  | .irq c _ | .stop c => c = ch
  | .returned .. => false

/-- A request, of whatever client. -/
def isXfer : Event T → Bool
  | .xfer .. | .other _ => true
  | .irq .. | .stop _ | .returned .. => false

/-- The semaphore that a request of the drivers is for. -/
def wants : Event T → Option (Dir × BitVec 32)
  | .xfer dir dev _ => some (dir, dev)
  | .other _ | .irq .. | .stop _ | .returned .. => none

end Event

/-- The newest event about a channel. -/
def latest (log : List (Event T)) (ch : Chan) : Option (Event T) := log.find? (·.concerns ch)

/-- **A transfer for a semaphore is in flight on the channel `ch`**: the
newest event about the channel is the request for it. -/
def InFlight (log : List (Event T)) (dir : Dir) (dev : BitVec 32) (ch : Chan) : Prop :=
  (latest log ch).bind Event.wants = some (dir, dev)

instance (log : List (Event T)) (dir : Dir) (dev : BitVec 32) (ch : Chan) :
    Decidable (InFlight log dir dev ch) := inferInstanceAs (Decidable (_ = _))

/-- The task is at an `os_sema_down`, and the count is zero. -/
def Sys.Blocked (s : Sys T) (t : T) (dir : Dir) (dev : BitVec 32) : Prop :=
  ∃ c pc, Takes (s.pc t) c dir pc ∧ c.dev = dev ∧ s.sema dir dev = 0

/-! ### The conditions -/

/-- A task about to make a request finds the controller open and a channel
free. -/
def Pc.Served (dma : HgdmaDw Client) : Pc → Prop
  | .rxXfer _ | .clockXfer _ | .txXfer _ => dma.opened = true ∧ ∃ ch, dma.used ch = false
  | _ => True

/-- **Every request of the drivers finds a channel.** -/
def Served (s : Sys T) : Act T → Prop
  | .step t => (s.pc t).Served s.dma
  | _ => True

/-- **No interrupt is served late**: where a handler is called, its transfer
has been accepted and nothing has stopped it. -/
def InTime (s : Sys T) : Act T → Prop
  | .irq ch _ => (s.dma.irqHdl ch).isSome → (latest s.log ch).any Event.isXfer
  | _ => True

/-- The device a task is working on. -/
def Pc.dev : Pc → Option (BitVec 32)
  | .idle => none
  | .loop c | .rxXfer c | .ser c | .clockXfer c | .clockDown c | .rxDown c | .txXfer c | .txDown c
  | .leave c => some c.dev

/-- **A call begins when no other is working on its device.** -/
def Apart (s : Sys T) : Act T → Prop
  | .call _ c => ∀ t, (s.pc t).dev ≠ some c.dev
  | _ => True

instance (dma : HgdmaDw Client) : ∀ pc : Pc, Decidable (pc.Served dma)
  | .rxXfer _ | .clockXfer _ | .txXfer _ => inferInstanceAs (Decidable (_ ∧ ∃ _, _))
  | .idle | .loop _ | .ser _ | .clockDown _ | .rxDown _ | .txDown _ | .leave _ => isTrue trivial

instance (s : Sys T) : ∀ a, Decidable (Served s a)
  | .step t => inferInstanceAs (Decidable ((s.pc t).Served s.dma))
  | .call .. | .ser .. | .raise .. | .irq .. | .other _ | .stop _ => isTrue trivial

instance (s : Sys T) : ∀ a, Decidable (InTime s a)
  | .irq _ _ => inferInstanceAs (Decidable (_ → _))
  | .call .. | .step _ | .ser .. | .raise .. | .other _ | .stop _ => isTrue trivial

instance [Fintype T] (s : Sys T) : ∀ a, Decidable (Apart s a)
  | .call _ c => inferInstanceAs (Decidable (∀ t, (s.pc t).dev ≠ some c.dev))
  | .step _ | .ser .. | .raise .. | .irq .. | .other _ | .stop _ => isTrue trivial

/-! ### What a task owes -/

/-- The task has asked for a transfer and not yet taken its post. -/
def Pc.Owes (dir : Dir) (dev : BitVec 32) : Pc → Prop
  | .ser c | .clockXfer c | .rxDown c => dir = .rx ∧ c.dev = dev
  | .clockDown c => c.dev = dev
  | .txDown c => dir = .tx ∧ c.dev = dev
  | .idle | .loop _ | .rxXfer _ | .txXfer _ | .leave _ => False

variable {pc pc' : Pc} {c : Call} {dir dir' : Dir} {dev dev' : BitVec 32}

theorem Pc.Owes.dev_eq (h : pc.Owes dir dev) : pc.dev = some dev := by
  cases pc with
  | ser | clockXfer | rxDown | txDown => exact congrArg some h.2
  | clockDown => exact congrArg some h
  | idle | loop | rxXfer | txXfer | leave => exact h.elim

theorem Asks.owes (h : Asks pc c dir pc') :
    pc'.Owes dir' dev' ↔ pc.Owes dir' dev' ∨ dir' = dir ∧ c.dev = dev' := by
  cases h with
  | rx => exact (or_iff_right id).symm
  | clock => cases dir' <;> simp [Pc.Owes]
  | tx => exact (or_iff_right id).symm

theorem Asks.not_owes (h : Asks pc c dir pc') : ¬ pc.Owes dir c.dev := by
  cases h with
  | rx => exact id
  | clock => exact fun howes => nomatch howes.1
  | tx => exact id

theorem Asks.served {dma : HgdmaDw Client} (h : Asks pc c dir pc') (hserved : pc.Served dma) :
    dma.opened = true ∧ ∃ ch, dma.used ch = false := by
  cases h <;> exact hserved

theorem Asks.dev_eq (h : Asks pc c dir pc') : pc'.dev = pc.dev := by
  cases h <;> rfl

theorem Takes.dev_eq (h : Takes pc c dir pc') : pc'.dev = pc.dev := by
  cases h <;> rfl

theorem Takes.owes (h : Takes pc c dir pc') :
    pc.Owes dir' dev' ↔ pc'.Owes dir' dev' ∨ dir' = dir ∧ c.dev = dev' := by
  cases h with
  | clock => cases dir' <;> simp [Pc.Owes]
  | rx => exact (or_iff_right id).symm
  | tx => exact (or_iff_right id).symm

theorem Takes.not_owes (h : Takes pc c dir pc') : ¬ pc'.Owes dir c.dev := by
  cases h with
  | clock => exact fun howes => nomatch howes.1
  | rx => exact id
  | tx => exact id

theorem entry_not_owes (c : Call) : ¬ c.entry.Owes dir dev := by
  unfold Call.entry
  split <;> split_ifs <;> exact id

/-! ### The transfers in flight -/

section Latest

variable {log : List (Event T)} {e : Event T} {ch : Chan}

theorem latest_cons_self (log : List (Event T)) (he : e.concerns ch = true) :
    latest (e :: log) ch = some e := List.find?_cons_of_pos he

theorem latest_cons_other (log : List (Event T)) (he : e.concerns ch = false) :
    latest (e :: log) ch = latest log ch :=
  List.find?_cons_of_neg (by rw [he]; exact Bool.false_ne_true)

theorem InFlight.cons_iff (he : e.concerns ch = false) :
    InFlight (e :: log) dir dev ch ↔ InFlight log dir dev ch := by
  rw [InFlight, latest_cons_other log he]
  rfl

/-- An event about the channel that is no request for a semaphore ends
what was in flight there. -/
theorem not_inFlight_cons (he : e.concerns ch = true) (hwants : e.wants = none) :
    ¬ InFlight (e :: log) dir dev ch := by
  rw [InFlight, latest_cons_self log he, Option.bind_some, hwants]
  rintro ⟨⟩

theorem concerns_xfer :
    (Event.xfer dir dev (BitVec.ofNat 32 ch) : Event T).concerns ch = true := decide_eq_true rfl

theorem concerns_xfer_of_ne {ch' : Chan} (h : ch' ≠ ch) :
    (Event.xfer dir dev (BitVec.ofNat 32 ch) : Event T).concerns ch' = false :=
  decide_eq_false fun heq => h (ofNat_inj heq).symm

theorem concerns_irq (k : IrqType) : (Event.irq ch k : Event T).concerns ch = true :=
  decide_eq_true rfl

theorem concerns_irq_of_ne {ch' : Chan} (k : IrqType) (h : ch' ≠ ch) :
    (Event.irq ch k : Event T).concerns ch' = false := decide_eq_false (Ne.symm h)

theorem inFlight_xfer : InFlight (.xfer dir dev (BitVec.ofNat 32 ch) :: log) dir' dev' ch ↔
    dir = dir' ∧ dev = dev' := by
  rw [InFlight, latest_cons_self log concerns_xfer, Option.bind_some, Event.wants,
    Option.some.injEq, Prod.mk.injEq]

theorem concerns_of_neg {ret : CInt} (hneg : ret.toInt < 0) (ch : Chan) :
    (Event.other ret : Event T).concerns ch = false := by
  refine decide_eq_false fun heq => ?_
  have hnonneg := ofNat_nonneg ch
  rw [← heq] at hnonneg
  exact absurd hnonneg (not_le.2 hneg)

/-- The channels with a transfer in flight for a semaphore. -/
def atWork (log : List (Event T)) (dir : Dir) (dev : BitVec 32) : Finset Chan :=
  Finset.univ.filter (InFlight log dir dev)

theorem mem_atWork : ch ∈ atWork log dir dev ↔ InFlight log dir dev ch := by
  simp [atWork]

/-- An event that says nothing of what is in flight. -/
theorem atWork_congr {log' : List (Event T)}
    (h : ∀ ch, InFlight log' dir dev ch ↔ InFlight log dir dev ch) :
    atWork log' dir dev = atWork log dir dev := by
  ext ch
  rw [mem_atWork, mem_atWork, h]

/-- A request that got a channel is one more in flight. -/
theorem atWork_xfer (hrest : ∀ dir dev, ¬ InFlight log dir dev ch) :
    atWork (.xfer dir dev (BitVec.ofNat 32 ch) :: log) dir' dev' =
      if dir = dir' ∧ dev = dev' then insert ch (atWork log dir' dev')
      else atWork log dir' dev' := by
  ext c
  rw [mem_atWork]
  by_cases hc : c = ch
  · subst hc
    rw [inFlight_xfer]
    split
    · rename_i hsame
      exact iff_of_true hsame (Finset.mem_insert_self ..)
    · rename_i hsame
      exact iff_of_false hsame fun hmem => hrest dir' dev' (mem_atWork.1 hmem)
  · rw [InFlight.cons_iff (concerns_xfer_of_ne hc), ← mem_atWork]
    split
    · rw [Finset.mem_insert, or_iff_right hc]
    · rfl

/-- A channel that is served is one less. -/
theorem atWork_irq (k : IrqType) :
    atWork (.irq ch k :: log) dir dev = (atWork log dir dev).erase ch := by
  ext c
  rw [mem_atWork, Finset.mem_erase, mem_atWork]
  by_cases hc : c = ch
  · rw [hc]
    exact iff_of_false (not_inFlight_cons (concerns_irq k) rfl) fun h => h.1 rfl
  · rw [InFlight.cons_iff (concerns_irq_of_ne k hc)]
    exact (and_iff_right hc).symm

end Latest

/-! ### The controller -/

section Controller

variable {dma dma' : HgdmaDw Client} {ch : Chan}

theorem request_posts (c : Call) (dir : Dir) :
    (c.request dir).irqHdl.bind Client.posts = some dir ∧ (c.request dir).irqData = c.dev := by
  cases dir with
  | rx => exact ⟨rfl, rfl⟩
  | tx =>
    refine ⟨?_, rfl⟩
    show (Client.serial c.txHdl).posts = _
    unfold Call.txHdl
    split <;> rfl

/-- A request of the drivers gets a channel where one is free. -/
theorem request_accepted {P : Periphs} (c : Call) (dir : Dir) (hopened : dma.opened = true)
    (hfree : ∃ ch, dma.used ch = false) :
    ∃ ch : Chan, (dma.dwDmacXfer P (c.request dir)).1 = BitVec.ofNat 32 ch ∧
      Accepted dma (dma.dwDmacXfer P (c.request dir)).2 (c.request dir) ch := by
  have hwidth : ¬ dmaSlaveBuswidth8Bytes ≤ (c.request dir).elementPerWidth := by
    cases dir <;> exact (by decide : ¬ dmaSlaveBuswidth8Bytes ≤ (0 : BitVec 32))
  cases hchan : dma.freeChan with
  | none =>
    obtain ⟨ch, hch⟩ := hfree
    rw [HgdmaDw.freeChan_eq_none hchan ch] at hch
    cases hch
  | some ch =>
    obtain ⟨ctll, cfgh, -, heq⟩ :=
      dwDmacXfer_of_free (P := P) (c.request dir) hopened hchan hwidth
    obtain h | ⟨hneg, -⟩ := dwDmacXfer_accepted_or_declined P dma (c.request dir)
    · exact h
    · rw [heq] at hneg
      exact absurd (ofNat_nonneg ch) (not_le.2 hneg)

theorem dwDmacStop_irqData (dma : HgdmaDw Client) (ch : Chan) :
    (dma.dwDmacStop ch).irqData = dma.irqData := by
  unfold HgdmaDw.dwDmacStop
  split <;> rfl

theorem used_dwDmacStop_of_ne {c : Chan} (hc : c ≠ ch) :
    (dma.dwDmacStop ch).used c = dma.used c := by
  rw [HgdmaDw.used_dwDmacStop, decide_eq_false (Ne.symm hc)]
  exact Bool.and_true _

end Controller

/-- What serving an interrupt does, for the semaphores. -/
structure Interrupted (s s' : Sys T) (ch : Chan) (k : IrqType) : Prop where
  pc : s'.pc = s.pc
  began : s'.began = s.began
  log : s'.log = .irq ch k :: s.log
  irqHdl : s'.dma.irqHdl = s.dma.irqHdl
  irqData : s'.dma.irqData = s.dma.irqData
  mask : s'.dma.mask = s.dma.mask
  used : ∀ c, c ≠ ch → s'.dma.used c = s.dma.used c
  sema : ∀ dir dev, s'.sema dir dev = s.sema dir dev +
    if (s.dma.irqHdl ch).bind Client.posts = some dir ∧ s.dma.irqData ch = dev then 1 else 0

variable {s s' : Sys T} {ch : Chan}

theorem setSema_sema (s : Sys T) (dir dir' : Dir) (dev dev' : BitVec 32) (n : ℕ) :
    (s.setSema dir dev n).sema dir' dev' =
      if dir = dir' ∧ dev = dev' then n else s.sema dir' dev' := by
  show Function.update s.sema dir (Function.update (s.sema dir) dev n) dir' dev' = _
  by_cases hdir : dir' = dir
  · subst hdir
    rw [Function.update_self]
    by_cases hdev : dev' = dev
    · rw [hdev, Function.update_self, if_pos ⟨rfl, rfl⟩]
    · rw [Function.update_of_ne hdev, if_neg fun h => hdev h.2.symm]
  · rw [Function.update_of_ne hdir, if_neg fun h => hdir h.1.symm]

theorem semaUp_sema (dir dir' : Dir) (dev dev' : BitVec 32) :
    (s.semaUp dir dev).sema dir' dev' =
      s.sema dir' dev' + if dir = dir' ∧ dev = dev' then 1 else 0 := by
  rw [Sys.semaUp, setSema_sema]
  split
  · rename_i hsame
    rw [hsame.1, hsame.2]
  · rfl

theorem interrupted_irq (s : Sys T) (ch : Chan) (k : IrqType) :
    Interrupted s (s.irq ch k) ch k := by
  unfold Sys.irq
  generalize hdma : (s.dma.clear k ch).mark k ch = dma
  have hhdl : dma.irqHdl = s.dma.irqHdl := by rw [← hdma]; rfl
  have hdata : dma.irqData = s.dma.irqData := by rw [← hdma]; rfl
  have hmask : dma.mask = s.dma.mask := by rw [← hdma]; rfl
  have hused : ∀ c, dma.used c = s.dma.used c := by
    intro c
    rw [← hdma]
    rfl
  dsimp only
  rw [hhdl]
  cases hch : s.dma.irqHdl ch with
  | none =>
    exact
      { pc := rfl
        began := rfl
        log := rfl
        irqHdl := hhdl
        irqData := hdata
        mask := hmask
        used := fun c _ => hused c
        sema := fun dir dev => by rw [hch, if_neg (by rintro ⟨⟨⟩, -⟩)]; rfl }
  | some hdl =>
    have hhdl' := (HgdmaDw.dwDmacStop_irqHdl dma ch).trans hhdl
    have hdata' := (dwDmacStop_irqData dma ch).trans hdata
    have hmask' := (HgdmaDw.dwDmacStop_mask dma ch).trans hmask
    have hused' : ∀ c, c ≠ ch → (dma.dwDmacStop ch).used c = s.dma.used c :=
      fun c hc => (used_dwDmacStop_of_ne hc).trans (hused c)
    dsimp only
    cases hposts : hdl.posts with
    | none =>
      refine ⟨rfl, rfl, rfl, hhdl', hdata', hmask', hused', fun dir dev => ?_⟩
      rw [hch, Option.bind_some, hposts, if_neg (by rintro ⟨⟨⟩, -⟩)]
      rfl
    | some dir =>
      refine ⟨rfl, rfl, rfl, hhdl', hdata', hmask', hused', fun dir' dev => ?_⟩
      rw [semaUp_sema, hch, Option.bind_some, hposts, hdata]
      simp only [Option.some.injEq]
      rfl

end Tasks

end Serial

end Hgsdk

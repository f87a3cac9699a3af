import Hgsdk.Common.Machine
import Hgsdk.Dmac.Model
/-!
# The DMA driver under tasks and interrupts

Any number of threads, tasks or interrupts, are in `dw_dmac_xfer` or in
`dw_dmac_irq_handler`, and every statement of theirs is a step. What runs
with interrupts disabled is one step: the claim of a channel and
`dw_dmac_stop`. A completion or an error may come up for a channel at any
time.

Transfers are numbered by their calls, and a handler is known by the
transfer it was given for. It does what the handlers of the serial
drivers do: it stops its channel. A client may stop a transfer that was
accepted and has not been stopped.
-/

namespace Hgsdk

namespace Dmac

/-- The calls of `dw_dmac_xfer`, numbered. -/
abbrev Xfer := ℕ

/-- Where a thread is. -/
inductive Pc where
  | idle
  /-- `dw_dmac_xfer`, before the search for a channel. -/
  | claim (x : Xfer) (data : DmaXferData Xfer)
  /-- With a channel, before the width is checked. -/
  | check (x : Xfer) (ch : Chan) (data : DmaXferData Xfer)
  /-- Before the stores that are left. -/
  | store (x : Xfer) (ch : Chan) (left : List (Store Xfer))
  /-- In the default branch. -/
  | release (x : Xfer) (ch : Chan)
  /-- `dw_dmac_irq_handler`, before the mask and the raw bit are tested. -/
  | test (ch : Chan) (k : IrqType)
  | clear (ch : Chan) (k : IrqType)
  | mark (ch : Chan) (k : IrqType)
  /-- At `if (dma->irq_hdl[ch])`. -/
  | look (ch : Chan) (k : IrqType)
  /-- At the call of `dma->irq_hdl[ch]`. -/
  | call (ch : Chan) (k : IrqType)
  /-- In the handler of `x`, at `dma_stop`. -/
  | handler (x : Xfer) (ch : Chan) (k : IrqType)
  deriving DecidableEq, Repr

/-- What has happened. -/
inductive Event where
  | claimed (x : Xfer) (ch : Chan)
  /-- `dw_dmac_xfer` returned. -/
  | returned (x : Xfer) (ret : CInt)
  /-- `dw_dmac_stop` was called for `x`. -/
  | stopped (x : Xfer)
  deriving DecidableEq, Repr

/-- The device, the threads, how many transfers have been asked for, and
what has happened, newest first. -/
structure Sys (T : Type) where
  dev : HgdmaDw Xfer
  pc : T → Pc
  calls : ℕ
  log : List Event

variable {T : Type}

namespace Sys

/-- After `dw_dmac_attach`. -/
def start (ch : Chan → ChRegs) : Sys T := ⟨.dwDmacAttach ch, fun _ => .idle, 0, []⟩

def emit (s : Sys T) (e : Event) : Sys T := { s with log := e :: s.log }

section Moves

variable [DecidableEq T]

def goto (s : Sys T) (t : T) (pc : Pc) : Sys T := { s with pc := Function.update s.pc t pc }

theorem goto_pc (s : Sys T) (t : T) (pc : Pc) : (s.goto t pc).pc t = pc := Function.update_self ..

/-- `dw_dmac_xfer` returns. -/
def ret (s : Sys T) (t : T) (x : Xfer) (r : CInt) : Sys T :=
  (s.emit (.returned x r)).goto t .idle

/-- The next place in the interrupt handler's loop. -/
def after (ch : Chan) : IrqType → Pc
  | .done => .test ch .error
  | .error => if h : ch.val + 1 < 4 then .test ⟨ch.val + 1, h⟩ .done else .idle

/-- The next step of `t`. A null handler cannot be called: the slot was
overwritten after the test. -/
def move (P : Periphs) (s : Sys T) (t : T) : Option (Sys T) :=
  match s.pc t with
  | .idle => none
  | .claim x data => match s.dev.freeChan with
    | none => some (s.ret t x (-eBusy))
    | some ch => some (({ s with dev := s.dev.claim ch }.emit (.claimed x ch)).goto t
        (.check x ch data))
  | .check x ch data =>
    if dmaSlaveBuswidth8Bytes ≤ data.elementPerWidth then some (s.ret t x retErr)
    else match setUp P data with
      | none => some (s.goto t (.release x ch))
      | some stores => some (s.goto t (.store x ch stores))
  | .store x ch (store :: left) =>
    some ({ s with dev := s.dev.write ch store }.goto t (.store x ch left))
  | .store x ch [] => some (s.ret t x (BitVec.ofNat 32 ch))
  | .release x ch => some ({ s with dev := s.dev.release ch }.ret t x retErr)
  | .test ch k =>
    some (s.goto t (if s.dev.mask k ch ∧ s.dev.raw k ch then .clear ch k else after ch k))
  | .clear ch k => some ({ s with dev := s.dev.clear k ch }.goto t (.mark ch k))
  | .mark ch k => some ({ s with dev := s.dev.mark k ch }.goto t (.look ch k))
  | .look ch k => some (s.goto t (if (s.dev.irqHdl ch).isSome then .call ch k else after ch k))
  | .call ch k => (s.dev.irqHdl ch).map fun x => s.goto t (.handler x ch k)
  | .handler x ch k =>
    some (({ s with dev := s.dev.dwDmacStop ch }.emit (.stopped x)).goto t (after ch k))

end Moves

/-- A client may stop `x`: it was accepted on `ch`, and is not stopped. -/
def MayStop (s : Sys T) (x : Xfer) (ch : Chan) : Prop :=
  .returned x (BitVec.ofNat 32 ch) ∈ s.log ∧ .stopped x ∉ s.log

instance (s : Sys T) (x : Xfer) (ch : Chan) : Decidable (s.MayStop x ch) :=
  inferInstanceAs (Decidable (_ ∧ _))

end Sys

variable [DecidableEq T]

/-- What happens next. -/
inductive Act (T : Type) where
  /-- `dw_dmac_xfer` is called, with a handler or a null one. -/
  | xfer (t : T) (data : DmaXferData Unit)
  /-- `dw_dmac_stop` by a client of `x`. -/
  | stop (x : Xfer) (ch : Chan)
  /-- The interrupt is taken. -/
  | irq (t : T)
  | step (t : T)
  /-- The hardware raises an interrupt. -/
  | raise (ch : Chan) (k : IrqType)

/-- The data of the call `x`: its handler is known by its number. -/
def DmaXferData.tag (data : DmaXferData Unit) (x : Xfer) : DmaXferData Xfer :=
  { data with irqHdl := data.irqHdl.map fun _ => x }

/-- **The driver under any number of threads**, in any interleaving. -/
def dmac (P : Periphs) : Machine (Sys T) (Act T) where
  step s
    | .xfer t data =>
      if s.pc t = .idle then
        let s' := { s with calls := s.calls + 1 }
        if s.dev.opened then some (s'.goto t (.claim s.calls (data.tag s.calls)))
        else some (s'.ret t s.calls retErr)
      else none
    | .stop x ch =>
      if s.MayStop x ch then
        some ({ s with dev := s.dev.dwDmacStop ch }.emit (.stopped x))
      else none
    | .irq t => if s.pc t = .idle then some (s.goto t (.test 0 .done)) else none
    | .step t => s.move P t
    | .raise ch k =>
      some { s with dev.raw := Function.update s.dev.raw k (Function.update (s.dev.raw k) ch true) }

/-! ### What each step does -/

/-- **A step**, by what the thread is about to do. -/
inductive Step (P : Periphs) (s : Sys T) : Act T → Sys T → Prop
  | xfer {t data} (hpc : s.pc t = .idle) (hopened : s.dev.opened = true) :
    Step P s (.xfer t data)
      ({ s with calls := s.calls + 1 }.goto t (.claim s.calls (data.tag s.calls)))
  | closed {t data} (hpc : s.pc t = .idle) (hopened : s.dev.opened ≠ true) :
    Step P s (.xfer t data) ({ s with calls := s.calls + 1 }.ret t s.calls retErr)
  | stop {x ch} (hmay : s.MayStop x ch) :
    Step P s (.stop x ch) ({ s with dev := s.dev.dwDmacStop ch }.emit (.stopped x))
  | irq {t} (hpc : s.pc t = .idle) : Step P s (.irq t) (s.goto t (.test 0 .done))
  | raise {ch k} : Step P s (.raise ch k)
      { s with dev.raw := Function.update s.dev.raw k (Function.update (s.dev.raw k) ch true) }
  | busy {t x data} (hpc : s.pc t = .claim x data) (hfull : s.dev.freeChan = none) :
    Step P s (.step t) (s.ret t x (-eBusy))
  | claim {t x data ch} (hpc : s.pc t = .claim x data) (hfree : s.dev.freeChan = some ch) :
    Step P s (.step t)
      (({ s with dev := s.dev.claim ch }.emit (.claimed x ch)).goto t (.check x ch data))
  | tooWide {t x ch data} (hpc : s.pc t = .check x ch data)
      (hwide : dmaSlaveBuswidth8Bytes ≤ data.elementPerWidth) :
    Step P s (.step t) (s.ret t x retErr)
  | check {t x ch data stores} (hpc : s.pc t = .check x ch data)
      (hwidth : ¬ dmaSlaveBuswidth8Bytes ≤ data.elementPerWidth)
      (hstores : setUp P data = some stores) :
    Step P s (.step t) (s.goto t (.store x ch stores))
  | store {t x ch store left} (hpc : s.pc t = .store x ch (store :: left)) :
    Step P s (.step t) ({ s with dev := s.dev.write ch store }.goto t (.store x ch left))
  | accept {t x ch} (hpc : s.pc t = .store x ch []) :
    Step P s (.step t) (s.ret t x (BitVec.ofNat 32 ch))
  | release {t x ch} (hpc : s.pc t = .release x ch) :
    Step P s (.step t) ({ s with dev := s.dev.release ch }.ret t x retErr)
  | test {t ch k} (hpc : s.pc t = .test ch k) :
    Step P s (.step t)
      (s.goto t (if s.dev.mask k ch ∧ s.dev.raw k ch then .clear ch k else Sys.after ch k))
  | clear {t ch k} (hpc : s.pc t = .clear ch k) :
    Step P s (.step t) ({ s with dev := s.dev.clear k ch }.goto t (.mark ch k))
  | mark {t ch k} (hpc : s.pc t = .mark ch k) :
    Step P s (.step t) ({ s with dev := s.dev.mark k ch }.goto t (.look ch k))
  | look {t ch k} (hpc : s.pc t = .look ch k) :
    Step P s (.step t)
      (s.goto t (if (s.dev.irqHdl ch).isSome then .call ch k else Sys.after ch k))
  | call {t ch k x} (hpc : s.pc t = .call ch k) (hhdl : s.dev.irqHdl ch = some x) :
    Step P s (.step t) (s.goto t (.handler x ch k))
  | handler {t x ch k} (hpc : s.pc t = .handler x ch k) :
    Step P s (.step t)
      (({ s with dev := s.dev.dwDmacStop ch }.emit (.stopped x)).goto t (Sys.after ch k))

theorem exists_setUp {H : Type} (P : Periphs) (data : DmaXferData H) :
    ∃ stores, setUp P data = some stores := by
  obtain ⟨regs, hregs⟩ := exists_flowRegs (P.searchSrcId data.src) (P.searchDestId data.dest)
  exact ⟨_, Option.map_eq_some_iff.2 ⟨regs, hregs, rfl⟩⟩

variable {P : Periphs} {s s' : Sys T} {a : Act T} {t : T}

theorem step_of_move (h : s.move P t = some s') : Step P s (.step t) s' := by
  unfold Sys.move at h
  split at h
  · exact nomatch h
  · rename_i x data hpc
    split at h
    · rename_i hfull
      obtain rfl := Option.some.inj h
      exact .busy hpc hfull
    · rename_i ch hfree
      obtain rfl := Option.some.inj h
      exact .claim hpc hfree
  · rename_i x ch data hpc
    split at h
    · rename_i hwide
      obtain rfl := Option.some.inj h
      exact .tooWide hpc hwide
    · rename_i hwidth
      -- every direction has its set-up
      obtain ⟨stores, hstores⟩ := exists_setUp P data
      rw [hstores] at h
      obtain rfl := Option.some.inj h
      exact .check hpc hwidth hstores
  · rename_i x ch store left hpc
    obtain rfl := Option.some.inj h
    exact .store hpc
  · rename_i x ch hpc
    obtain rfl := Option.some.inj h
    exact .accept hpc
  · rename_i x ch hpc
    obtain rfl := Option.some.inj h
    exact .release hpc
  · rename_i ch k hpc
    obtain rfl := Option.some.inj h
    exact .test hpc
  · rename_i ch k hpc
    obtain rfl := Option.some.inj h
    exact .clear hpc
  · rename_i ch k hpc
    obtain rfl := Option.some.inj h
    exact .mark hpc
  · rename_i ch k hpc
    obtain rfl := Option.some.inj h
    exact .look hpc
  · rename_i ch k hpc
    obtain ⟨x, hhdl, rfl⟩ := Option.map_eq_some_iff.1 h
    exact .call hpc hhdl
  · rename_i x ch k hpc
    obtain rfl := Option.some.inj h
    exact .handler hpc

/-- **Everything that can happen next.** -/
theorem step_of_eq (h : (dmac P).step s a = some s') : Step P s a s' := by
  cases a with
  | xfer t data =>
    obtain ⟨hpc, h⟩ := Option.ite_none_right_eq_some.1 h
    split at h
    · rename_i hopened
      obtain rfl := Option.some.inj h
      exact .xfer hpc hopened
    · rename_i hopened
      obtain rfl := Option.some.inj h
      exact .closed hpc hopened
  | stop x ch =>
    obtain ⟨hmay, h⟩ := Option.ite_none_right_eq_some.1 h
    obtain rfl := Option.some.inj h
    exact .stop hmay
  | irq t =>
    obtain ⟨hpc, h⟩ := Option.ite_none_right_eq_some.1 h
    obtain rfl := Option.some.inj h
    exact .irq hpc
  | step t => exact step_of_move h
  | raise ch k =>
    obtain rfl := Option.some.inj h
    exact .raise

end Dmac

end Hgsdk

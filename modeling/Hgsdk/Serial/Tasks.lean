import Hgsdk.Serial.Model
/-!
# Tasks that wait for a DMA transfer

Any number of tasks in `hgspi_dw_read`, `hgspi_dw_write` and
`hguart_puts`, on any devices that share a DMA controller, and other
clients of it. A task asks for its transfers and then waits for the
semaphores their handlers post.

An interrupt may be raised for any channel at any time, twice or late.
`dw_dmac_irq_handler` tests one bit after the other; each test that finds
its bit set is a step, with the handler it calls. A request is one step: it
starts its transfer with its last store, so an interrupt of its own cannot
come in between. One of an earlier transfer could, and is left to the
condition that no interrupt is served late. A device is known by its
address, which is what the handlers are given.
-/

namespace Hgsdk

namespace Serial

namespace Tasks

open Dmac

/-- Which of a device's two semaphores: `tx_dma_sema` or `rx_dma_sema`. -/
inductive Dir where
  | tx
  | rx
  deriving DecidableEq, Repr

/-- The handlers of the controller's clients. Those of the others stop
their channel, as `hguart_dma_rx_irq_hdl` does. -/
inductive Client where
  | serial (hdl : Hdl)
  | other
  deriving DecidableEq, Repr

/-- The semaphore a handler posts. -/
def Client.posts : Client → Option Dir
  | .serial .spiTx | .serial .uartTx => some .tx
  | .serial .spiRx => some .rx
  | .other => none

inductive Op where
  | hgspiDwRead
  | hgspiDwWrite
  | hguartPuts
  deriving DecidableEq, Repr

/-- A call: the device with its data register, whether it has a DMA
device, and the arguments. -/
structure Call where
  op : Op
  dev : BitVec 32
  reg : BitVec 32
  dma : Bool
  buf : BitVec 32
  size : BitVec 32
  deriving DecidableEq, Repr

/-- Where a task is. -/
inductive Pc where
  | idle
  /-- Moving the bytes one by one. -/
  | loop (c : Call)
  /-- `hgspi_dw_read`, at the `dma_xfer` of the receiving channel. -/
  | rxXfer (c : Call)
  /-- At `if (dev->hw->SER)`. -/
  | ser (c : Call)
  /-- At the `dma_xfer` of the channel that makes the clock. -/
  | clockXfer (c : Call)
  | clockDown (c : Call)
  | rxDown (c : Call)
  /-- `hgspi_dw_write` and `hguart_puts`, at their `dma_xfer`. -/
  | txXfer (c : Call)
  | txDown (c : Call)
  | leave (c : Call)
  deriving DecidableEq, Repr

namespace Call

/-- Where the call begins. -/
def entry (c : Call) : Pc :=
  match c.op with
  | .hgspiDwRead =>
    if c.size = 0 then .leave c else if c.dma ∧ 4 < c.size then .rxXfer c else .loop c
  | .hgspiDwWrite => if c.dma ∧ 4 < c.size then .txXfer c else .loop c
  | .hguartPuts => if c.dma then .txXfer c else .loop c

/-- The handler of the sending channel. -/
def txHdl (c : Call) : Hdl :=
  match c.op with
  | .hguartPuts => .uartTx
  | _ => .spiTx

/-- What `dma_xfer` is asked for. -/
def request (c : Call) : Dir → DmaXferData Client
  | .tx => txData c.reg c.buf c.size c.dev (.serial c.txHdl)
  | .rx => rxData c.reg c.buf c.size c.dev (.serial .spiRx)

end Call

/-- What has happened. -/
inductive Event (T : Type) where
  /-- `dma_xfer` returned to one of the drivers. -/
  | xfer (dir : Dir) (dev : BitVec 32) (ret : CInt)
  /-- It returned to another client. -/
  | other (ret : CInt)
  /-- The interrupt of a channel was served. -/
  | irq (ch : Chan) (k : IrqType)
  /-- Another client stopped its channel. -/
  | stop (ch : Chan)
  /-- A call returned: the counts when it began, and now. -/
  | returned (t : T) (before after : ℕ × ℕ)
  deriving DecidableEq, Repr

/-- The controller, the semaphores by device, the tasks, the counts each
found when its call began, and what has happened, newest first. -/
structure Sys (T : Type) where
  dma : HgdmaDw Client
  sema : Dir → BitVec 32 → ℕ
  pc : T → Pc
  began : T → ℕ × ℕ
  log : List (Event T)

variable {T : Type}

namespace Sys

/-- The controller attached, the semaphores at 0. -/
def start (ch : Chan → ChRegs) : Sys T where
  dma := .dwDmacAttach ch
  sema _ _ := 0
  pc _ := .idle
  began _ := (0, 0)
  log := []

def counts (s : Sys T) (dev : BitVec 32) : ℕ × ℕ := (s.sema .tx dev, s.sema .rx dev)

def emit (s : Sys T) (e : Event T) : Sys T := { s with log := e :: s.log }

def setSema (s : Sys T) (dir : Dir) (dev : BitVec 32) (n : ℕ) : Sys T :=
  { s with sema := Function.update s.sema dir (Function.update (s.sema dir) dev n) }

/-- `os_sema_up`. -/
def semaUp (s : Sys T) (dir : Dir) (dev : BitVec 32) : Sys T :=
  s.setSema dir dev (s.sema dir dev + 1)

/-- `os_sema_down`, for ever. -/
def semaDown (s : Sys T) (dir : Dir) (dev : BitVec 32) : Option (Sys T) :=
  if s.sema dir dev = 0 then none else some (s.setSema dir dev (s.sema dir dev - 1))

/-- `dma_xfer` for a call. What it returns is not looked at. -/
def dmaXfer (P : Periphs) (s : Sys T) (c : Call) (dir : Dir) : Sys T :=
  let (ret, dma) := s.dma.dwDmacXfer P (c.request dir)
  { s with dma }.emit (.xfer dir c.dev ret)

/-- `dma_xfer` for another client, with a handler or without. -/
def otherXfer (P : Periphs) (s : Sys T) (data : DmaXferData Unit) : Sys T :=
  let (ret, dma) := s.dma.dwDmacXfer P { data with irqHdl := data.irqHdl.map fun _ => .other }
  { s with dma }.emit (.other ret)

/-- A channel has moved its block or met an error. -/
def raise (s : Sys T) (ch : Chan) (k : IrqType) : Sys T :=
  { s with dma.raw := Function.update s.dma.raw k (Function.update (s.dma.raw k) ch true) }

/-- `dw_dmac_irq_handler` has found a bit set, and calls the handler. -/
def irq (s : Sys T) (ch : Chan) (k : IrqType) : Sys T :=
  let dma := (s.dma.clear k ch).mark k ch
  let s := s.emit (.irq ch k)
  match dma.irqHdl ch with
  | none => { s with dma }
  | some hdl =>
    let s := { s with dma := dma.dwDmacStop ch }
    match hdl.posts with
    | none => s
    | some dir => s.semaUp dir (dma.irqData ch)

/-- The channel was given to another client. -/
def OfOther (s : Sys T) (ch : Chan) : Prop :=
  s.dma.used ch = true ∧ (s.dma.irqHdl ch).bind Client.posts = none

instance (s : Sys T) (ch : Chan) : Decidable (s.OfOther ch) := inferInstanceAs (Decidable (_ ∧ _))

section Moves

variable [DecidableEq T]

def goto (s : Sys T) (t : T) (pc : Pc) : Sys T := { s with pc := Function.update s.pc t pc }

theorem goto_pc (s : Sys T) (t : T) (pc : Pc) : (s.goto t pc).pc t = pc := Function.update_self ..

theorem goto_pc_of_ne {t t' : T} (s : Sys T) (pc : Pc) (h : t' ≠ t) :
    (s.goto t pc).pc t' = s.pc t' := Function.update_of_ne h ..

/-- The next step of `t`. -/
def move (P : Periphs) (s : Sys T) (t : T) : Option (Sys T) :=
  match s.pc t with
  | .idle | .ser _ => none
  | .loop c => some (s.goto t (.leave c))
  | .rxXfer c => some ((s.dmaXfer P c .rx).goto t (.ser c))
  | .clockXfer c => some ((s.dmaXfer P c .tx).goto t (.clockDown c))
  | .clockDown c => (s.semaDown .tx c.dev).map fun s => s.goto t (.rxDown c)
  | .rxDown c => (s.semaDown .rx c.dev).map fun s => s.goto t (.leave c)
  | .txXfer c => some ((s.dmaXfer P c .tx).goto t (.txDown c))
  | .txDown c => (s.semaDown .tx c.dev).map fun s => s.goto t (.leave c)
  | .leave c => some ((s.emit (.returned t (s.began t) (s.counts c.dev))).goto t .idle)

end Moves

end Sys

/-- What happens next. -/
inductive Act (T : Type) where
  | call (t : T) (c : Call)
  | step (t : T)
  /-- `t` reads `SER`. -/
  | ser (t : T) (master : Bool)
  /-- The hardware raises an interrupt. -/
  | raise (ch : Chan) (k : IrqType)
  /-- `dw_dmac_irq_handler` serves it. -/
  | irq (ch : Chan) (k : IrqType)
  /-- Another client asks for a transfer. -/
  | other (data : DmaXferData Unit)
  /-- Another client stops its transfer. -/
  | stop (ch : Chan)

variable [DecidableEq T]

/-- **The tasks and their controller**, in any interleaving. -/
def serialTasks (P : Periphs) : Machine (Sys T) (Act T) where
  step s
    | .call t c =>
      if s.pc t = .idle then
        some ({ s with began := Function.update s.began t (s.counts c.dev) }.goto t c.entry)
      else none
    | .step t => s.move P t
    | .ser t master => match s.pc t with
      | .ser c => some (s.goto t (if master then .clockXfer c else .rxDown c))
      | _ => none
    | .raise ch k => some (s.raise ch k)
    | .irq ch k => if s.dma.mask k ch ∧ s.dma.raw k ch then some (s.irq ch k) else none
    | .other data => some (s.otherXfer P data)
    | .stop ch =>
      if s.OfOther ch then some ({ s with dma := s.dma.dwDmacStop ch }.emit (.stop ch)) else none

/-! ### What each step does -/

/-- At a `dma_xfer`, and where the task is after it. -/
inductive Asks : Pc → Call → Dir → Pc → Prop
  | rx {c} : Asks (.rxXfer c) c .rx (.ser c)
  | clock {c} : Asks (.clockXfer c) c .tx (.clockDown c)
  | tx {c} : Asks (.txXfer c) c .tx (.txDown c)

/-- At an `os_sema_down`, and where the task is after it. -/
inductive Takes : Pc → Call → Dir → Pc → Prop
  | clock {c} : Takes (.clockDown c) c .tx (.rxDown c)
  | rx {c} : Takes (.rxDown c) c .rx (.leave c)
  | tx {c} : Takes (.txDown c) c .tx (.leave c)

/-- **A step**, by what is done in it. -/
inductive Step (P : Periphs) (s : Sys T) : Act T → Sys T → Prop
  | call {t c} (hpc : s.pc t = .idle) :
    Step P s (.call t c)
      ({ s with began := Function.update s.began t (s.counts c.dev) }.goto t c.entry)
  | loop {t c} (hpc : s.pc t = .loop c) : Step P s (.step t) (s.goto t (.leave c))
  | xfer {t c dir pc} (hasks : Asks (s.pc t) c dir pc) :
    Step P s (.step t) ((s.dmaXfer P c dir).goto t pc)
  | down {t c dir pc} (htakes : Takes (s.pc t) c dir pc) (hpos : s.sema dir c.dev ≠ 0) :
    Step P s (.step t) ((s.setSema dir c.dev (s.sema dir c.dev - 1)).goto t pc)
  | leave {t c} (hpc : s.pc t = .leave c) :
    Step P s (.step t) ((s.emit (.returned t (s.began t) (s.counts c.dev))).goto t .idle)
  | ser {t c master} (hpc : s.pc t = .ser c) :
    Step P s (.ser t master) (s.goto t (if master then .clockXfer c else .rxDown c))
  | raise {ch k} : Step P s (.raise ch k) (s.raise ch k)
  | irq {ch k} : Step P s (.irq ch k) (s.irq ch k)
  | other {data} : Step P s (.other data) (s.otherXfer P data)
  | stop {ch} (hother : s.OfOther ch) :
    Step P s (.stop ch) ({ s with dma := s.dma.dwDmacStop ch }.emit (.stop ch))

variable {P : Periphs} {s s' : Sys T} {a : Act T} {t : T}

theorem step_of_down {c : Call} {dir : Dir} {pc : Pc} (htakes : Takes (s.pc t) c dir pc)
    (h : (s.semaDown dir c.dev).map (fun s => s.goto t pc) = some s') : Step P s (.step t) s' := by
  obtain ⟨s₁, hdown, rfl⟩ := Option.map_eq_some_iff.1 h
  obtain ⟨hpos, hs₁⟩ := Option.ite_none_left_eq_some.1 hdown
  obtain rfl := Option.some.inj hs₁
  exact .down htakes hpos

theorem step_of_move (h : s.move P t = some s') : Step P s (.step t) s' := by
  unfold Sys.move at h
  split at h
  · exact nomatch h
  · exact nomatch h
  · rename_i c hpc
    obtain rfl := Option.some.inj h
    exact .loop hpc
  · rename_i c hpc
    obtain rfl := Option.some.inj h
    exact .xfer (hpc ▸ .rx)
  · rename_i c hpc
    obtain rfl := Option.some.inj h
    exact .xfer (hpc ▸ .clock)
  · rename_i c hpc
    exact step_of_down (hpc ▸ .clock) h
  · rename_i c hpc
    exact step_of_down (hpc ▸ .rx) h
  · rename_i c hpc
    obtain rfl := Option.some.inj h
    exact .xfer (hpc ▸ .tx)
  · rename_i c hpc
    exact step_of_down (hpc ▸ .tx) h
  · rename_i c hpc
    obtain rfl := Option.some.inj h
    exact .leave hpc

/-- **Everything that can happen next.** -/
theorem step_of_eq (h : (serialTasks P).step s a = some s') : Step P s a s' := by
  cases a with
  | call t c =>
    obtain ⟨hpc, h⟩ := Option.ite_none_right_eq_some.1 h
    obtain rfl := Option.some.inj h
    exact .call hpc
  | step t => exact step_of_move h
  | ser t master =>
    simp only [serialTasks] at h
    split at h
    · rename_i c hpc
      obtain rfl := Option.some.inj h
      exact .ser hpc
    · exact nomatch h
  | raise ch k =>
    obtain rfl := Option.some.inj h
    exact .raise
  | irq ch k =>
    obtain ⟨-, h⟩ := Option.ite_none_right_eq_some.1 h
    obtain rfl := Option.some.inj h
    exact .irq
  | other data =>
    obtain rfl := Option.some.inj h
    exact .other
  | stop ch =>
    obtain ⟨hother, h⟩ := Option.ite_none_right_eq_some.1 h
    obtain rfl := Option.some.inj h
    exact .stop hother

end Tasks

end Serial

end Hgsdk

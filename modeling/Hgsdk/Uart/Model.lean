import Hgsdk.Rbuffer.Model
import Hgsdk.Common.Word
/-!
# The UART receive paths

`uart_iot.c` and `uart_p2p.c` collect bytes the same way. A byte interrupt
stops the timer, posts the semaphore if the ring is nearly full, stores
the byte and restarts the timer; the timer, once it expires, posts the
semaphore; the task takes the semaphore and empties at most 1500 bytes of
the ring into `txbuf`. `UartLine` is what handler, timer and task share,
and the two machines differ in what the task does besides.

An interrupt handler runs to its end. The task is interrupted between any
two of: taking the semaphore, the loop test, one `RB_GET`, and handing the
bytes over.
-/

namespace Hgsdk

/-- `UARTIOT_RBSIZE` and `UARTP2P_RBSIZE`. -/
def uartRbsize : ℕ := 2048

/-- The size of `txbuf`. -/
def uartTxbuf : ℕ := 1500

/-- The ring, the count of the semaphore, and whether the one-shot timer
is running. -/
structure UartLine where
  rb : Rbuffer Byte
  sema : ℕ
  timer : Bool
  deriving Repr, DecidableEq

/-- The interrupts a UART raises; the handlers serve one of them. -/
inductive UartIrq
  | rxDataAvail
  | other
  deriving Repr, DecidableEq

namespace UartLine

/-- `os_sema_up`. The kernel counts in 32 bits and refuses a post that
would overflow. -/
def semaUp (l : UartLine) : UartLine :=
  if l.sema = 2 ^ 32 - 1 then l else { l with sema := l.sema + 1 }

/-- `timer_device_start`. -/
def timerStart (l : UartLine) : UartLine := { l with timer := true }

/-- `timer_device_stop`. -/
def timerStop (l : UartLine) : UartLine := { l with timer := false }

/-- The `UART_INTR_RX_DATA_AVAIL` case of both handlers. -/
def rxDataAvail (l : UartLine) (byte : Byte) : UartLine :=
  let l := l.timerStop
  let l := if rbCount l.rb > uartRbsize - 32 then l.semaUp else l
  timerStart { l with rb := rbSet l.rb byte }

/-- The timer expires, if it is running: it is a one-shot timer, and its
callback posts the semaphore. -/
def timerCb (l : UartLine) : Option UartLine :=
  if l.timer then some l.timerStop.semaUp else none

/-- `os_sema_down`, waiting for ever: it goes on once there is a post to
take. -/
def semaDown (l : UartLine) : Option UartLine :=
  if l.sema = 0 then none else some { l with sema := l.sema - 1 }

/-- The ring and the semaphore as the `init` functions leave them. -/
def init (rb : Rbuffer Byte) : UartLine := ⟨rbInit rb uartRbsize, 0, false⟩

end UartLine

/-- One `RB_GET(rb, txbuf[count])`. -/
def rbGetInto (rb : Rbuffer Byte) (txbuf : List Byte) (count : ℕ) : Rbuffer Byte × List Byte :=
  match rbGet rb with
  | (some v, rb') => (rb', txbuf.set count v)
  | (none, rb') => (rb', txbuf)

/-! ## `uart_iot` -/

/-- Where `uart_iot_task` stands. -/
inductive IotPc
  | semaDown
  | test (count : ℕ)
  | get (count : ℕ)
  | receive (count : ℕ)
  deriving Repr, DecidableEq

/-- The `uartiot` object, its task, and what `uart_receive` was handed. -/
structure UartIot where
  line : UartLine
  pc : IotPc
  txbuf : List Byte
  received : List (List Byte)
  deriving Repr, DecidableEq

/-- An interrupt, an expiry of the timer, or a step of the task. -/
inductive IotStep
  | irq (flag : UartIrq) (param2 : BitVec 32)
  | timer
  | task
  deriving Repr, DecidableEq

namespace UartIot

/-- `uart_iot_init`. -/
def init (rb : Rbuffer Byte) (txbuf : List Byte) : UartIot :=
  ⟨UartLine.init rb, .semaDown, txbuf, []⟩

/-- `uart_iot_irq_hdl`. -/
def irqHdl (s : UartIot) (flag : UartIrq) (param2 : BitVec 32) : UartIot :=
  match flag with
  | .rxDataAvail => { s with line := s.line.rxDataAvail (param2.setWidth 8) }
  | .other => s

/-- The next step of `uart_iot_task`. -/
def task (s : UartIot) : Option UartIot :=
  match s.pc with
  | .semaDown => s.line.semaDown.map fun l => { s with line := l, pc := .test 0 }
  | .test c =>
    some { s with pc := if c < uartTxbuf ∧ ¬ RbEmpty s.line.rb then .get c else .receive c }
  | .get c =>
    let g := rbGetInto s.line.rb s.txbuf c
    some { s with line := { s.line with rb := g.1 }, txbuf := g.2, pc := .test (c + 1) }
  | .receive c =>
    some { s with
      pc := .semaDown
      received := if c > 0 then s.received ++ [s.txbuf.take c] else s.received }

end UartIot

/-- **The `uart_iot` receive path.** -/
def uartIot : Machine UartIot IotStep where
  step s
    | .irq flag param2 => some (s.irqHdl flag param2)
    | .timer => s.line.timerCb.map fun l => { s with line := l }
    | .task => s.task

/-! ## `uart_p2p` -/

/-- Where `uart_p2p_task` stands. -/
inductive P2pPc
  | semaDown
  | rxData
  | test (count : ℕ)
  | get (count : ℕ)
  | send (count : ℕ)
  deriving Repr, DecidableEq

/-- The `uartp2p` object and its task. `uart` is whether the handler has
been given its UART yet; `puts` and `sent` are what went to the UART and
to the air. -/
structure UartP2p where
  line : UartLine
  pc : P2pPc
  txbuf : List Byte
  rxData : List (List Byte)
  uart : Bool
  puts : List (List Byte)
  sent : List (List Byte)
  deriving Repr, DecidableEq

/-- As for `uart_iot`, and: the last line of `uart_p2p_init` that matters
to the handler, and `uart_p2p_recv` with or without a buffer to be had. -/
inductive P2pStep
  | irq (flag : UartIrq) (param2 : BitVec 32)
  | timer
  | task
  | attach
  | recv (data : List Byte) (alloc : Bool)
  deriving Repr, DecidableEq

namespace UartP2p

/-- `uart_p2p_init`, up to `uartp2p.uart = uart`. -/
def init (rb : Rbuffer Byte) (txbuf : List Byte) : UartP2p :=
  ⟨UartLine.init rb, .semaDown, txbuf, [], false, [], []⟩

/-- `uart_p2p_irq_hdl`. -/
def irqHdl (s : UartP2p) (flag : UartIrq) (param2 : BitVec 32) : UartP2p :=
  if s.uart then
    match flag with
    | .rxDataAvail => { s with line := s.line.rxDataAvail (param2.setWidth 8) }
    | .other => s
  else s

/-- `uart_p2p_recv`. -/
def recv (s : UartP2p) (data : List Byte) (alloc : Bool) : UartP2p :=
  if alloc then { s with rxData := s.rxData ++ [data], line := s.line.semaUp } else s

/-- `uart_p2p_rx_data`: one buffer of those waiting goes to the UART. -/
def rxOne (s : UartP2p) : UartP2p :=
  match s.rxData with
  | [] => s
  | skb :: rest =>
    { s with rxData := rest, puts := if s.uart then s.puts ++ [skb] else s.puts }

/-- The next step of `uart_p2p_task`, with `uart_p2p_tx_data` inlined. -/
def task (s : UartP2p) : Option UartP2p :=
  match s.pc with
  | .semaDown => s.line.semaDown.map fun l => { s with line := l, pc := .rxData }
  | .rxData => some { s.rxOne with pc := .test 0 }
  | .test c =>
    some { s with pc := if c < uartTxbuf ∧ ¬ RbEmpty s.line.rb then .get c else .send c }
  | .get c =>
    let g := rbGetInto s.line.rb s.txbuf c
    some { s with line := { s.line with rb := g.1 }, txbuf := g.2, pc := .test (c + 1) }
  | .send c =>
    some { s with
      pc := .semaDown
      sent := if c > 0 then s.sent ++ [s.txbuf.take c] else s.sent }

end UartP2p

/-- **The `uart_p2p` transmit path.** -/
def uartP2p : Machine UartP2p P2pStep where
  step s
    | .irq flag param2 => some (s.irqHdl flag param2)
    | .timer => s.line.timerCb.map fun l => { s with line := l }
    | .task => s.task
    | .attach => some { s with uart := true }
    | .recv data alloc => some (s.recv data alloc)

end Hgsdk

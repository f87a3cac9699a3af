import Hgsdk.Common.Machine
import Hgsdk.Common.RecMutex
import Hgsdk.SpiNor.WireMode
/-!
# The flash under several tasks

Any number of tasks call `spi_nor_open`, operations, `spi_nor_close` and
`spi_nor_attach`. `flash->lock` is the kernel's recursive mutex, and the
SPI device (`driver/spi/hgspi_dw.c`) can be opened once at a time, by a
task through the flash or by another client of the device. Each access to
one of the two is a step, and so is each function of the bus, which
touches neither.

An assertion that fails prints and the code goes on: `spi_nor_open` opens
the bus whatever `spi_open` returned, and `spi_nor_attach` does not look
at what `spi_nor_open` returned.
-/

namespace Hgsdk

namespace SpiNor

/-! ### The SPI device -/

/-- What the functions called by `hgspi_dw_open` return. -/
structure OpenEnv where
  pinFunc : CInt
  requestIrq : CInt
  txSemaInit : CInt
  rxSemaInit : CInt

/-- `SPI_WIRE_NORMAL_MODE`. -/
def spiWireNormalMode : BitVec 32 := 1

/-- `hgspi_dw_open`: what it returns, and `dev->opened` after it. -/
def hgspiDwOpen (env : OpenEnv) (wireMode : BitVec 32) (opened : Bool) : CInt × Bool :=
  if opened then (-eBusy, opened)
  else if env.pinFunc ≠ retOk then (retErr, opened)
  else if env.requestIrq ≠ retOk then (retErr, opened)
  else if wireMode ≠ spiWireNormalMode then (retErr, opened)
  else if env.txSemaInit ≠ retOk then (env.txSemaInit, opened)
  else if env.rxSemaInit ≠ retOk then (env.rxSemaInit, opened)
  else (retOk, true)

/-- Everything `hgspi_dw_open` asks for is there. -/
def OpenEnv.fine : OpenEnv := ⟨0, 0, 0, 0⟩

/-- A closed device is open afterwards exactly if the call succeeded. -/
theorem hgspiDwOpen_snd {env : OpenEnv} {wireMode : BitVec 32} :
    (hgspiDwOpen env wireMode false).2 = true ↔ (hgspiDwOpen env wireMode false).1 = 0 := by
  have herr : retErr ≠ 0 := by decide
  simp only [hgspiDwOpen, Bool.false_eq_true, if_false]
  split
  · exact iff_of_false Bool.false_ne_true herr
  · split
    · exact iff_of_false Bool.false_ne_true herr
    · split
      · exact iff_of_false Bool.false_ne_true herr
      · split
        · rename_i htx
          exact iff_of_false Bool.false_ne_true htx
        · split
          · rename_i hrx
            exact iff_of_false Bool.false_ne_true hrx
          · exact ⟨fun _ => rfl, fun _ => rfl⟩

/-! ### Tasks -/

/-- Who is in `spi_nor_open` or `spi_nor_close`: a client of the flash, or
`spi_nor_attach`. -/
inductive Via where
  | client
  | attach
  deriving DecidableEq, Repr

/-- Where a task is. `ret` is what its `spi_open` returned. -/
inductive Pc where
  | idle
  /-- `spi_nor_attach`, at `os_mutex_init`. -/
  | init
  /-- `spi_nor_open`, at `os_mutex_lock`. -/
  | lock (v : Via)
  /-- At `spi_open`. -/
  | spiOpen (v : Via)
  /-- At `flash->bus->open`. -/
  | busOpen (v : Via) (ret : CInt)
  /-- At `if (ret) os_mutex_unlock`. -/
  | giveUp (v : Via) (ret : CInt)
  /-- `spi_nor_attach`, at `spi_nor_standard_read_jedec_id`. -/
  | readId (ret : CInt)
  /-- A client for which `spi_nor_open` has returned 0. -/
  | session
  /-- `spi_nor_close`, at `flash->bus->close`. -/
  | busClose (v : Via) (ret : CInt)
  /-- At `spi_close`. -/
  | spiClose (v : Via) (ret : CInt)
  /-- At `os_mutex_unlock`. -/
  | unlock (v : Via) (ret : CInt)
  deriving DecidableEq, Repr

/-- What a task has done. -/
inductive Event where
  | locked
  | spiOpened (ret : CInt)
  /-- Flash commands were sent. -/
  | command
  /-- The device was open and is closed; was it this task's to close? -/
  | spiClosed (own : Bool)
  /-- `os_mutex_unlock`, and whether it was by the holder. -/
  | unlocked (holder : Bool)
  deriving DecidableEq, Repr

/-- Whose `spi_open` opened the device. -/
inductive Opener (T : Type) where
  | task (t : T)
  | other
  deriving DecidableEq, Repr

/-- The lock, the SPI device, what is behind it, and the tasks. -/
structure Sys (T : Type) where
  lock : RecMutex T
  /-- `dev->opened`, and by whom. -/
  opener : Option (Opener T)
  world : World
  pc : T → Pc
  /-- Newest first. -/
  log : List (T × Event)

variable {T : Type}

namespace Sys

/-- No task is in a call and the device is closed. -/
def start (world : World) : Sys T := ⟨.free, none, world, fun _ => .idle, []⟩

def emit (s : Sys T) (t : T) (e : Event) : Sys T := { s with log := (t, e) :: s.log }

variable [DecidableEq T]

def goto (s : Sys T) (t : T) (pc : Pc) : Sys T := { s with pc := Function.update s.pc t pc }

/-- Run a function of the bus; what matters is whether it sends anything. -/
def exec (s : Sys T) (t : T) {α : Type} (m : Cmd World α) : Option (Sys T) :=
  (m s.world).map fun (_, world) =>
    if world.log = s.world.log then { s with world } else { s with world }.emit t .command

/-- `os_mutex_unlock`. -/
def osMutexUnlock (s : Sys T) (t : T) : Sys T :=
  match s.lock.unlock t with
  | some lock => { s with lock }.emit t (.unlocked true)
  | none => s.emit t (.unlocked false)

/-- `hgspi_dw_open` by `o`: what it returns, and whose the device is after
it. -/
def spiOpen (s : Sys T) (o : Opener T) (wireMode : BitVec 32) (env : OpenEnv) :
    CInt × Option (Opener T) :=
  let (ret, opened) := hgspiDwOpen env wireMode s.opener.isSome
  (ret, if s.opener.isSome then s.opener else if opened then some o else none)

/-- `hgspi_dw_close` by `t`: nothing happens to a device that is not
open. -/
def spiClose (s : Sys T) (t : T) : Sys T :=
  match s.opener with
  | none => s
  | some o => { s with opener := none }.emit t (.spiClosed (decide (o = Opener.task t)))

/-- What `spi_nor_open` returns to. -/
def opened (v : Via) (ret : CInt) : Pc :=
  match v with
  | .client => if ret ≠ 0 then .idle else .session
  | .attach => .readId ret

/-- `flash->bus->close`, which may be null, and the chip deselected. -/
def busClose (flash : Flash World) : Cmd World PUnit := do
  match flash.bus.close with
  | some close => close flash
  | none => pure ⟨⟩
  flash.spidev.setCs flash.cs true

/-- The next step of `t`, where it does not have to wait. -/
def move (flash : Flash World) (s : Sys T) (t : T) : Option (Sys T) :=
  match s.pc t with
  | .idle | .session | .spiOpen _ => none
  | .init => some ({ s with lock := .free }.goto t (.lock .attach))
  | .lock v =>
    (s.lock.lock t).map fun lock => ({ s with lock }.emit t .locked).goto t (.spiOpen v)
  | .busOpen v ret => (s.exec t (flash.bus.openBus flash)).map fun s => s.goto t (.giveUp v ret)
  | .giveUp v ret =>
    some ((if ret ≠ 0 then s.osMutexUnlock t else s).goto t (opened v ret))
  | .readId ret =>
    (s.exec t (standardReadJedecId flash)).map fun s => s.goto t (.busClose .attach ret)
  | .busClose v ret => (s.exec t (busClose flash)).map fun s => s.goto t (.spiClose v ret)
  | .spiClose v ret => some ((s.spiClose t).goto t (.unlock v ret))
  | .unlock _ _ => some ((s.osMutexUnlock t).goto t .idle)

variable (flash : Flash World) {s : Sys T} {t : T} {v : Via} {ret : CInt}

theorem move_busOpen (h : s.pc t = .busOpen v ret) : s.move flash t =
    (s.exec t (flash.bus.openBus flash)).map fun s => s.goto t (.giveUp v ret) := by
  rw [move, h]

theorem move_giveUp (h : s.pc t = .giveUp v ret) : s.move flash t =
    some ((if ret ≠ 0 then s.osMutexUnlock t else s).goto t (opened v ret)) := by
  rw [move, h]

theorem move_readId (h : s.pc t = .readId ret) : s.move flash t =
    (s.exec t (standardReadJedecId flash)).map fun s => s.goto t (.busClose .attach ret) := by
  rw [move, h]

end Sys

/-- What happens next. -/
inductive Act (T : Type) where
  /-- A client calls `spi_nor_open`. -/
  | openFlash (t : T)
  /-- An operation of a client for which `spi_nor_open` returned 0. -/
  | op (t : T) (o : Op)
  /-- Its `spi_nor_close`. -/
  | closeFlash (t : T)
  | attach (t : T)
  /-- A step of a call. -/
  | step (t : T)
  /-- The `spi_open` of a call. -/
  | spiOpen (t : T) (env : OpenEnv)
  /-- Another client opens the device, or closes it if it has it open. -/
  | otherOpen (wireMode : BitVec 32) (env : OpenEnv)
  | otherClose

variable [DecidableEq T]

/-- **The flash under any number of tasks**, in any interleaving. -/
def flashTasks (flash : Flash World) : Machine (Sys T) (Act T) where
  step s
    | .openFlash t => if s.pc t = .idle then some (s.goto t (.lock .client)) else none
    | .op t o => if s.pc t = .session then s.exec t (o.call flash) else none
    | .closeFlash t =>
      if s.pc t = .session then some (s.goto t (.busClose .client 0)) else none
    | .attach t => if s.pc t = .idle then some (s.goto t .init) else none
    | .step t => s.move flash t
    | .spiOpen t env => match s.pc t with
      | .spiOpen v =>
        let (ret, opener) := s.spiOpen (.task t) flash.wireMode env
        some (({ s with opener }.emit t (.spiOpened ret)).goto t (.busOpen v ret))
      | _ => none
    | .otherOpen wireMode env => some { s with opener := (s.spiOpen .other wireMode env).2 }
    | .otherClose => if s.opener = some .other then some { s with opener := none } else none

/-! ### A call alone -/

theorem Sys.osMutexUnlock_world {s : Sys T} {t : T} : (s.osMutexUnlock t).world = s.world := by
  unfold Sys.osMutexUnlock
  split <;> rfl

omit [DecidableEq T] in
theorem Sys.exec_of_eq {α : Type} {s : Sys T} {t : T} {m : Cmd World α} {a : α} {w : World}
    (h : m s.world = some (a, w)) : ∃ s', s.exec t m = some s' ∧ s'.world = w ∧ s'.pc = s.pc := by
  rw [Sys.exec, h, Option.map_some]
  refine ⟨_, rfl, ?_⟩
  dsimp only
  split
  · exact ⟨rfl, rfl⟩
  · exact ⟨rfl, rfl⟩

/-- **A call run alone** does to the chip what `spiNorOpen` does. -/
theorem solo_open {B : Board} {mode : Mode} {s : Sys T} {t : T} {env : OpenEnv} {w : World}
    (hpc : s.pc t = .idle) (hfree : s.lock = .free)
    (hret : (s.spiOpen (.task t) B.wireMode env).1 = B.openRet)
    (hopen : spiNorOpen (B.flash mode) s.world = some (B.openRet, w)) :
    ∃ s', (flashTasks (B.flash mode)).run s
        [.openFlash t, .step t, .spiOpen t env, .step t, .step t] = some s' ∧
      s'.world = w ∧ s'.pc t = Sys.opened .client B.openRet := by
  have hstart : (flashTasks (B.flash mode)).step s (.openFlash t) =
      some (s.goto t (.lock .client)) := if_pos hpc
  have hlock : (flashTasks (B.flash mode)).step (s.goto t (.lock .client)) (.step t) =
      some (({ s.goto t (.lock .client) with lock := .held t 0 }.emit t .locked).goto t
        (.spiOpen .client)) := by
    show Sys.move _ _ _ = _
    rw [Sys.move, show (s.goto t (.lock .client)).pc t = .lock .client from Function.update_self ..,
      show (s.goto t (.lock .client)).lock = .free from hfree]
    rfl
  generalize hs₂ : ({ s.goto t (.lock .client) with lock := .held t 0 }.emit t .locked).goto t
    (.spiOpen .client) = s₂ at hlock
  have hspi : ∃ s₃, (flashTasks (B.flash mode)).step s₂ (.spiOpen t env) = some s₃ ∧
      s₃.world = s.world ∧ s₃.pc t = .busOpen .client B.openRet := by
    subst hs₂
    simp only [flashTasks, Sys.goto, Function.update_self]
    refine ⟨_, rfl, rfl, (Function.update_self ..).trans ?_⟩
    exact congrArg (Pc.busOpen .client) hret
  obtain ⟨s₃, hstep₃, hworld₃, hpc₃⟩ := hspi
  obtain ⟨_, _, hbus, rfl⟩ := ensures_spiNorOpen.1
    (⟨_, _, hopen, rfl⟩ : Ensures _ _ fun _ w' => w' = w)
  rw [← hworld₃] at hbus
  obtain ⟨s₄, hexec, hworld₄, -⟩ := Sys.exec_of_eq (t := t) hbus
  have hstep₄ := Sys.move_busOpen (B.flash mode) hpc₃
  rw [hexec, Option.map_some] at hstep₄
  have hstep₅ := Sys.move_giveUp (B.flash mode) (s := s₄.goto t (.giveUp .client B.openRet))
    (Function.update_self ..)
  refine ⟨_, (Machine.run_cons_of_step hstart).trans <| (Machine.run_cons_of_step hlock).trans <|
    (Machine.run_cons_of_step hstep₃).trans <| (Machine.run_cons_of_step hstep₄).trans <|
    Machine.run_cons_of_step hstep₅, ?_, Function.update_self ..⟩
  rw [← hworld₄]
  by_cases hzero : B.openRet ≠ 0
  · rw [if_pos hzero]
    exact Sys.osMutexUnlock_world
  · rw [if_neg hzero]
    rfl

end SpiNor

end Hgsdk

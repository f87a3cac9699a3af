import Hgsdk.Common.Machine
import Hgsdk.Common.RecMutex
import Hgsdk.Typesdef
/-!
# The CRC unit and its driver

`driver/crc/hg_crc.c` on the unit's registers. Storing the length starts
a job on the registers as they are then. At any later time the job
finishes: its value goes to `CRC_OUT` and the interrupt handler posts
`done`. What the unit computes is a parameter, `engine`.

Any number of tasks call `hg_crc_calc`, which waits for its job, and the
two halves `hg_crc_kick` and `hg_crc_get`. `dev->lock` is the kernel's
recursive mutex; waiting for it may fail, and waiting for `done` may time
out. Every access to something shared is a step of its own.
-/

namespace Hgsdk

namespace Crc

/-- The registers a job is made of. -/
structure CrcRegs where
  crcCfg : BitVec 32
  crcInit : BitVec 32
  crcInv : BitVec 32
  crcPoly : BitVec 32
  dmaAddr : BitVec 32
  dmaLen : BitVec 32
  deriving DecidableEq, Repr

/-- Their names. -/
inductive Reg where
  | crcCfg | crcInit | crcInv | crcPoly | dmaAddr | dmaLen
  deriving DecidableEq, Repr

def CrcRegs.write (regs : CrcRegs) (v : BitVec 32) : Reg → CrcRegs
  | .crcCfg => { regs with crcCfg := v }
  | .crcInit => { regs with crcInit := v }
  | .crcInv => { regs with crcInv := v }
  | .crcPoly => { regs with crcPoly := v }
  | .dmaAddr => { regs with dmaAddr := v }
  | .dmaLen => { regs with dmaLen := v }

/-! ### Requests -/

/-- `struct hgcrc_config`, the fields the driver reads. -/
structure HgcrcConfig where
  poly : BitVec 32
  polyBits : BitVec 32
  initVal : BitVec 32
  xorOut : BitVec 32
  refIn : Bool
  deriving DecidableEq, Repr

/-- `hgcrc_cfg`, by `CRC_TYPE`: CRC5-USB, CRC7-MMC, CRC8-ITU, CRC8,
CRC16-MODBUS, CRC32-WINRAR. -/
def hgcrcCfg : List HgcrcConfig :=
  [{ initVal := 0x1f, xorOut := 0x1f, poly := 0x14, polyBits := 5, refIn := true },
    { initVal := 0x0, xorOut := 0x0, poly := 0x48, polyBits := 7, refIn := false },
    { initVal := 0x0, xorOut := 0x55, poly := 0xE0, polyBits := 8, refIn := false },
    { initVal := 0x0, xorOut := 0x00, poly := 0xE0, polyBits := 8, refIn := false },
    { initVal := 0xFFFF, xorOut := 0x0, poly := 0xA001, polyBits := 16, refIn := true },
    { initVal := 0xFFFFFFFF, xorOut := 0xFFFFFFFF, poly := 0xEDB88320, polyBits := 32,
      refIn := true }]

/-- `struct crc_dev_req`; a null `data` is 0. -/
structure CrcDevReq where
  type : BitVec 32
  data : BitVec 32
  len : BitVec 32
  deriving DecidableEq, Repr

/-- The request has something to compute on. -/
def CrcDevReq.NonEmpty (req : CrcDevReq) : Prop := req.data ≠ 0 ∧ req.len ≠ 0

instance (req : CrcDevReq) : Decidable req.NonEmpty := inferInstanceAs (Decidable (_ ∧ _))

/-- How `hg_crc_calc` and `hg_crc_kick` begin: the request and its
configuration, or what the call returns at once. -/
def checkReq : Option CrcDevReq → Except CInt (CrcDevReq × HgcrcConfig)
  | none => .error retOk
  | some req =>
    if req.NonEmpty then
      match hgcrcCfg[req.type.toNat]? with
      | some cfg => .ok (req, cfg)
      | none => .error (-eInval)
    else .error retOk

/-- `LL_CRC_CFG_INT_EN`. -/
def crcCfgIntEn : BitVec 32 := 1

/-- `cfg_reg`, from what `CRC_CFG` holds. -/
def cfgReg (crcCfg : BitVec 32) (cfg : HgcrcConfig) : BitVec 32 :=
  (crcCfg &&& crcCfgIntEn) ||| ((cfg.polyBits &&& 0x3F) <<< 8) ||| ((5 &&& 0x7) <<< 16) |||
    (if cfg.refIn then 0 <<< 1 else 1 <<< 1)

/-- The stores of a request, in order; the last one starts the job. -/
def stores (crcCfg : BitVec 32) (req : CrcDevReq) (cfg : HgcrcConfig) : List (Reg × BitVec 32) :=
  [(.crcInit, cfg.initVal), (.crcInv, cfg.xorOut), (.crcPoly, cfg.poly),
    (.crcCfg, cfgReg crcCfg cfg), (.dmaAddr, req.data), (.dmaLen, req.len)]

/-! ### Tasks -/

/-- The calls of the driver. A null request is `none`. -/
inductive Call where
  | calc (req : Option CrcDevReq)
  | kick (req : Option CrcDevReq)
  | get
  deriving DecidableEq, Repr

/-- Who starts a job. -/
inductive Starter where
  | calc
  | kick
  deriving DecidableEq, Repr

def Starter.call (req : CrcDevReq) : Starter → Call
  | .calc => .calc (some req)
  | .kick => .kick (some req)

/-- Who waits for one. -/
inductive Waiter where
  | calc (req : CrcDevReq)
  | get
  deriving DecidableEq, Repr

def Waiter.call : Waiter → Call
  | .calc req => .calc (some req)
  | .get => .get

/-- Where a task is. -/
inductive Pc where
  | idle
  /-- At `os_mutex_lock`. -/
  | lock (k : Starter) (req : CrcDevReq) (cfg : HgcrcConfig)
  /-- Before `CRC_CFG` is read. -/
  | config (k : Starter) (req : CrcDevReq) (cfg : HgcrcConfig)
  /-- Before the stores that are left. -/
  | store (k : Starter) (req : CrcDevReq) (left : List (Reg × BitVec 32))
  /-- At `os_sema_down`. -/
  | wait (w : Waiter)
  /-- Before `CRC_OUT` is read; has a post been taken? -/
  | read (w : Waiter) (taken : Bool)
  /-- At `os_mutex_unlock`, with the value read. -/
  | unlock (w : Waiter) (taken : Bool) (value : BitVec 32)
  deriving DecidableEq, Repr

/-- What a task has done, as it can be told from outside. -/
inductive Event where
  | called (call : Call)
  | locked
  | started (job : CrcRegs)
  /-- `os_mutex_unlock`, and whether it was by the holder. -/
  | unlocked (holder : Bool)
  /-- What a call returned, and the value it stored. -/
  | returned (call : Call) (ret : CInt) (value : Option (BitVec 32))
  deriving DecidableEq, Repr

/-- The unit, the driver's lock and semaphore, and the tasks. -/
structure Sys (T : Type) where
  regs : CrcRegs
  /-- `CRC_OUT`. -/
  crcOut : BitVec 32
  /-- Jobs that have been started and not finished. -/
  jobs : List CrcRegs
  done : ℕ
  lock : RecMutex T
  pc : T → Pc
  /-- Newest first. -/
  log : List (T × Event)

variable {T : Type}

namespace Sys

/-- After `hg_crc_attach`, on whatever the registers held: the interrupt is
enabled, the lock free and no post given. -/
def hgCrcAttach (regs : CrcRegs) (crcOut : BitVec 32) : Sys T where
  regs := { regs with crcCfg := regs.crcCfg ||| crcCfgIntEn }
  crcOut := crcOut
  jobs := []
  done := 0
  lock := .free
  pc _ := .idle
  log := []

def emit (s : Sys T) (t : T) (e : Event) : Sys T :=
  { s with log := (t, e) :: s.log }

section Emit

variable (s : Sys T) (t : T) (e : Event)

@[simp] theorem emit_lock : (s.emit t e).lock = s.lock := rfl
@[simp] theorem emit_log : (s.emit t e).log = (t, e) :: s.log := rfl

end Emit

variable [DecidableEq T]

def goto (s : Sys T) (t : T) (pc : Pc) : Sys T :=
  { s with pc := Function.update s.pc t pc }

section Goto

variable (s : Sys T) (t : T) (pc : Pc)

@[simp] theorem goto_crcOut : (s.goto t pc).crcOut = s.crcOut := rfl
@[simp] theorem goto_done : (s.goto t pc).done = s.done := rfl
@[simp] theorem goto_lock : (s.goto t pc).lock = s.lock := rfl
@[simp] theorem goto_log : (s.goto t pc).log = s.log := rfl

end Goto

/-- The call of `t` returns. -/
def ret (s : Sys T) (t : T) (call : Call) (r : CInt) (value : Option (BitVec 32)) : Sys T :=
  (s.goto t .idle).emit t (.returned call r value)

section Ret

variable (s : Sys T) (t : T) (c : Call) (r : CInt) (v : Option (BitVec 32))

@[simp] theorem ret_lock : (s.ret t c r v).lock = s.lock := rfl
@[simp] theorem ret_log : (s.ret t c r v).log = (t, .returned c r v) :: s.log := rfl

end Ret

/-- A store to a register; the length starts a job. -/
def write (s : Sys T) (t : T) (r : Reg) (v : BitVec 32) : Sys T :=
  let regs := s.regs.write v r
  if r = .dmaLen then { s with regs, jobs := s.jobs ++ [regs] }.emit t (.started regs)
  else { s with regs }

omit [DecidableEq T] in
theorem write_dmaLen (s : Sys T) (t : T) (v : BitVec 32) :
    s.write t .dmaLen v = { s with
      regs := s.regs.write v .dmaLen
      jobs := s.jobs ++ [s.regs.write v .dmaLen] }.emit t (.started (s.regs.write v .dmaLen)) := by
  simp only [write, if_true]

omit [DecidableEq T] in
theorem write_of_ne (s : Sys T) (t : T) {r : Reg} (v : BitVec 32) (hr : r ≠ .dmaLen) :
    s.write t r v = { s with regs := s.regs.write v r } := by
  simp only [write, if_neg hr]

omit [DecidableEq T] in
@[simp] theorem write_done (s : Sys T) (t : T) (r : Reg) (v : BitVec 32) :
    (s.write t r v).done = s.done := by
  unfold write
  split <;> rfl

omit [DecidableEq T] in
@[simp] theorem write_crcOut (s : Sys T) (t : T) (r : Reg) (v : BitVec 32) :
    (s.write t r v).crcOut = s.crcOut := by
  unfold write
  split <;> rfl

/-- `os_mutex_unlock`. -/
def osMutexUnlock (s : Sys T) (t : T) : Sys T :=
  match s.lock.unlock t with
  | some lock => { s with lock }.emit t (.unlocked true)
  | none => s.emit t (.unlocked false)

theorem exists_osMutexUnlock (s : Sys T) (t : T) :
    ∃ lock b, s.osMutexUnlock t = { s with lock }.emit t (.unlocked b) := by
  unfold osMutexUnlock
  split
  · exact ⟨_, true, rfl⟩
  · exact ⟨s.lock, false, rfl⟩

/-- What a waiting call returns: `hg_crc_calc` a code, `hg_crc_get` the
value. -/
def result (taken : Bool) (value : BitVec 32) : Waiter → CInt
  | .calc _ => if taken then retOk else retErr
  | .get => value

/-- A task calls. -/
def call (s : Sys T) (t : T) (c : Call) : Sys T :=
  let s := s.emit t (.called c)
  match c with
  | .calc req => match checkReq req with
    | .ok (req, cfg) => s.goto t (.lock .calc req cfg)
    | .error r => s.ret t c r none
  | .kick req => match checkReq req with
    | .ok (req, cfg) => s.goto t (.lock .kick req cfg)
    | .error r => s.ret t c r none
  | .get => s.goto t (.wait .get)

/-- The next step of `t`, where it does not have to wait. -/
def move (s : Sys T) (t : T) : Option (Sys T) :=
  match s.pc t with
  | .idle => none
  | .lock k req cfg =>
    (s.lock.lock t).map fun lock => ({ s with lock }.emit t .locked).goto t (.config k req cfg)
  | .config k req cfg => some (s.goto t (.store k req (stores s.regs.crcCfg req cfg)))
  | .store k req ((r, v) :: left) => some ((s.write t r v).goto t (.store k req left))
  | .store .kick req [] => some (s.ret t (.kick (some req)) retOk none)
  | .store .calc req [] => some (s.goto t (.wait (.calc req)))
  | .wait w => if s.done = 0 then none else some ({ s with done := s.done - 1 }.goto t (.read w true))
  | .read w taken => some (s.goto t (.unlock w taken s.crcOut))
  | .unlock w taken value => some ((s.osMutexUnlock t).ret t w.call (result taken value w) (some value))

end Sys

variable [DecidableEq T]

/-- What happens next. -/
inductive Act (T : Type) where
  | call (t : T) (c : Call)
  | step (t : T)
  /-- `os_mutex_lock` gives up. -/
  | lockFail (t : T)
  /-- `os_sema_down` gives up. -/
  | timeout (t : T)
  /-- A job finishes, and the interrupt handler posts `done`. -/
  | finish (i : ℕ)
  deriving DecidableEq, Repr

/-- **The CRC unit under any number of tasks**, in any interleaving. -/
def unit (engine : CrcRegs → BitVec 32) : Machine (Sys T) (Act T) where
  step s
    | .call t c => match s.pc t with
      | .idle => some (s.call t c)
      | _ => none
    | .step t => s.move t
    | .lockFail t => match s.pc t with
      | .lock k req _ => some (s.ret t (k.call req) retErr none)
      | _ => none
    | .timeout t => match s.pc t with
      | .wait w => some (s.goto t (.read w false))
      | _ => none
    | .finish i => (s.jobs[i]?).map fun job =>
      { s with crcOut := engine job, jobs := s.jobs.eraseIdx i, done := s.done + 1 }

/-! ### What each step does -/

/-- **A step**, by what the task is about to do. -/
inductive Step (engine : CrcRegs → BitVec 32) (s : Sys T) : Act T → Sys T → Prop
  | callStart {t k req cfg} (hpc : s.pc t = .idle) (hok : checkReq (some req) = .ok (req, cfg)) :
    Step engine s (.call t (k.call req))
      ((s.emit t (.called (k.call req))).goto t (.lock k req cfg))
  | callDone {t c req r} (hpc : s.pc t = .idle) (hc : c = .calc req ∨ c = .kick req)
      (herr : checkReq req = .error r) :
    Step engine s (.call t c) ((s.emit t (.called c)).ret t c r none)
  | callGet {t} (hpc : s.pc t = .idle) :
    Step engine s (.call t .get) ((s.emit t (.called .get)).goto t (.wait .get))
  | lock {t k req cfg lock} (hpc : s.pc t = .lock k req cfg) (hlock : s.lock.lock t = some lock) :
    Step engine s (.step t) (({ s with lock }.emit t .locked).goto t (.config k req cfg))
  | lockFail {t k req cfg} (hpc : s.pc t = .lock k req cfg) :
    Step engine s (.lockFail t) (s.ret t (k.call req) retErr none)
  | config {t k req cfg} (hpc : s.pc t = .config k req cfg) :
    Step engine s (.step t) (s.goto t (.store k req (stores s.regs.crcCfg req cfg)))
  | store {t k req r v left} (hpc : s.pc t = .store k req ((r, v) :: left)) :
    Step engine s (.step t) ((s.write t r v).goto t (.store k req left))
  | kicked {t req} (hpc : s.pc t = .store .kick req []) :
    Step engine s (.step t) (s.ret t (.kick (some req)) retOk none)
  | calculating {t req} (hpc : s.pc t = .store .calc req []) :
    Step engine s (.step t) (s.goto t (.wait (.calc req)))
  | taken {t w} (hpc : s.pc t = .wait w) (hdone : s.done ≠ 0) :
    Step engine s (.step t) ({ s with done := s.done - 1 }.goto t (.read w true))
  | timeout {t w} (hpc : s.pc t = .wait w) :
    Step engine s (.timeout t) (s.goto t (.read w false))
  | read {t w taken} (hpc : s.pc t = .read w taken) :
    Step engine s (.step t) (s.goto t (.unlock w taken s.crcOut))
  | unlock {t w taken value} (hpc : s.pc t = .unlock w taken value) :
    Step engine s (.step t)
      ((s.osMutexUnlock t).ret t w.call (Sys.result taken value w) (some value))
  | finish {i job} (hjob : s.jobs[i]? = some job) :
    Step engine s (.finish i)
      { s with crcOut := engine job, jobs := s.jobs.eraseIdx i, done := s.done + 1 }

variable {engine : CrcRegs → BitVec 32} {s s' : Sys T} {t : T} {a : Act T}

theorem checkReq_ok {req : Option CrcDevReq} {p : CrcDevReq × HgcrcConfig}
    (h : checkReq req = .ok p) :
    req = some p.1 ∧ p.1.NonEmpty ∧ hgcrcCfg[p.1.type.toNat]? = some p.2 := by
  rcases req with _ | req
  · exact nomatch h
  · simp only [checkReq] at h
    split at h
    · rename_i hne
      split at h
      · rename_i cfg hcfg
        obtain rfl := Except.ok.inj h
        exact ⟨rfl, hne, hcfg⟩
      · exact nomatch h
    · exact nomatch h

theorem step_of_call {c : Call} (hpc : s.pc t = .idle) : Step engine s (.call t c) (s.call t c) := by
  have hstart : ∀ (k : Starter) (req : Option CrcDevReq) (p : CrcDevReq × HgcrcConfig),
      checkReq req = .ok p → Step engine s (.call t (k.call p.1))
        ((s.emit t (.called (k.call p.1))).goto t (.lock k p.1 p.2)) := by
    intro k req p h
    obtain ⟨rfl, -, -⟩ := checkReq_ok h
    exact .callStart hpc h
  rcases c with req | req | _
  · cases hcheck : checkReq req with
    | ok p =>
      have hcall := hstart .calc req p hcheck
      obtain ⟨rfl, -, -⟩ := checkReq_ok hcheck
      simpa [Sys.call, hcheck, Starter.call] using hcall
    | error r =>
      have hcall : Step engine s (.call t (.calc req)) _ := .callDone hpc (.inl rfl) hcheck
      simpa [Sys.call, hcheck] using hcall
  · cases hcheck : checkReq req with
    | ok p =>
      have hcall := hstart .kick req p hcheck
      obtain ⟨rfl, -, -⟩ := checkReq_ok hcheck
      simpa [Sys.call, hcheck, Starter.call] using hcall
    | error r =>
      have hcall : Step engine s (.call t (.kick req)) _ := .callDone hpc (.inr rfl) hcheck
      simpa [Sys.call, hcheck] using hcall
  · exact .callGet hpc

theorem step_of_move (hmove : s.move t = some s') : Step engine s (.step t) s' := by
  cases hpc : s.pc t with
  | idle => simp [Sys.move, hpc] at hmove
  | lock k req cfg =>
    simp only [Sys.move, hpc] at hmove
    obtain ⟨lock, hlock, rfl⟩ := Option.map_eq_some_iff.1 hmove
    exact .lock hpc hlock
  | config k req cfg =>
    simp only [Sys.move, hpc, Option.some.injEq] at hmove
    exact hmove ▸ .config hpc
  | store k req left =>
    rcases left with _ | ⟨⟨r, v⟩, left⟩
    · rcases k with _ | _
      · simp only [Sys.move, hpc, Option.some.injEq] at hmove
        exact hmove ▸ .calculating hpc
      · simp only [Sys.move, hpc, Option.some.injEq] at hmove
        exact hmove ▸ .kicked hpc
    · simp only [Sys.move, hpc, Option.some.injEq] at hmove
      exact hmove ▸ .store hpc
  | wait w =>
    simp only [Sys.move, hpc] at hmove
    split at hmove
    · exact nomatch hmove
    · rename_i hdone
      obtain rfl := Option.some.inj hmove
      exact .taken hpc hdone
  | read w taken =>
    simp only [Sys.move, hpc, Option.some.injEq] at hmove
    exact hmove ▸ .read hpc
  | unlock w taken value =>
    simp only [Sys.move, hpc, Option.some.injEq] at hmove
    exact hmove ▸ .unlock hpc

/-- **Everything the unit and its tasks can do next.** -/
theorem step_of_eq (hstep : (unit engine).step s a = some s') : Step engine s a s' := by
  cases a with
  | call t c =>
    cases hpc : s.pc t with
    | idle =>
      simp only [unit, hpc, Option.some.injEq] at hstep
      exact hstep ▸ step_of_call hpc
    | lock _ _ _ | config _ _ _ | store _ _ _ | wait _ | read _ _ | unlock _ _ _ =>
      simp [unit, hpc] at hstep
  | step t => exact step_of_move hstep
  | lockFail t =>
    cases hpc : s.pc t with
    | lock k req cfg =>
      simp only [unit, hpc, Option.some.injEq] at hstep
      exact hstep ▸ .lockFail hpc
    | idle | config _ _ _ | store _ _ _ | wait _ | read _ _ | unlock _ _ _ =>
      simp [unit, hpc] at hstep
  | timeout t =>
    cases hpc : s.pc t with
    | wait w =>
      simp only [unit, hpc, Option.some.injEq] at hstep
      exact hstep ▸ .timeout hpc
    | idle | lock _ _ _ | config _ _ _ | store _ _ _ | read _ _ | unlock _ _ _ =>
      simp [unit, hpc] at hstep
  | finish i =>
    obtain ⟨job, hjob, rfl⟩ := Option.map_eq_some_iff.1 hstep
    exact .finish hjob

end Crc

end Hgsdk

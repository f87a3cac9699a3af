import Hgsdk.Typesdef
/-!
# The timer driver

`hgtimer_v2.c`. A timer counts from 0 to `TMR_PR` at the system clock
divided by `2 ^ psc`, and sets a pending bit when it wraps. The two pending
bits of `TMR_CON` are cleared by writing ones to them; the rest of the
register holds what was written.
-/

namespace Hgsdk

namespace Timer

/-! ### `TMR_CON` -/

/-- `HGTIMER_V2_CON_TIMER_PNG`. -/
def conTimerPng : BitVec 32 := 1 <<< 15

/-- `HGTIMER_V2_CON_CAPTURE_PNG`. -/
def conCapturePng : BitVec 32 := 1 <<< 14

/-- `HGTIMER_V2_CON_TMR_INTR_EN`. -/
def conTmrIntrEn : BitVec 32 := 1 <<< 13

/-- `HGTIMER_V2_CON_PSC(n)`. -/
def conPsc (n : BitVec 32) : BitVec 32 := (n &&& 0x7) <<< 8

/-- `HGTIMER_V2_CON_PSC_MASK`. -/
def conPscMask : BitVec 32 := 0x07 <<< 8

/-- `HGTIMER_V2_CON_MODE(n)`. -/
def conMode (n : BitVec 32) : BitVec 32 := (n &&& 0x3) <<< 4

/-- `HGTIMER_V2_CON_MODE_DIS_MASK`. -/
def conModeDisMask : BitVec 32 := 0x03 <<< 4

/-- `HGTIMER_V2_CON_INC_SRC(n)`. -/
def conIncSrc (n : BitVec 32) : BitVec 32 := n &&& 0x7

/-- `HGTIMER_V2_CON_INC_SRC_MASK`. -/
def conIncSrcMask : BitVec 32 := 0x07

/-- `HGTIMER_V2_SOURCE_SYS_RISING`. -/
def sourceSysRising : BitVec 32 := 4

/-- `HGTIMER_V2_MODE_SEL_DISABLE`. -/
def modeSelDisable : BitVec 2 := 0

/-- `HGTIMER_V2_MODE_SEL_COUNTER`. -/
def modeSelCounter : BitVec 2 := 1

/-- The bits that are cleared by writing ones. -/
def pending : BitVec 32 := conTimerPng ||| conCapturePng

/-- What `TMR_CON` holds after `v` was written to it. -/
def writtenCon (con v : BitVec 32) : BitVec 32 := (v &&& ~~~pending) ||| (con &&& ~~~v &&& pending)

/-- The prescaler field. -/
def pscOf (con : BitVec 32) : BitVec 3 := con.extractLsb' 8 3

/-- The mode field. -/
def modeOf (con : BitVec 32) : BitVec 2 := con.extractLsb' 4 2

/-! ### The device -/

/-- `enum timer_type`. -/
inductive TimerType
  | once
  | periodic
  deriving DecidableEq, Repr

/-- `struct hgtimer_v2`, its registers, and its line at the interrupt
controller. -/
structure HgtimerV2 where
  tmrCon : BitVec 32
  tmrPr : BitVec 32
  tmrCnt : BitVec 32
  /-- The callback, `none` where it is null. -/
  cb : Option (BitVec 32)
  cbData : BitVec 32
  mode : TimerType
  flags : BitVec 32
  opened : BitVec 32
  irq : Bool
  deriving DecidableEq, Repr

namespace HgtimerV2

variable (dev : HgtimerV2)

/-- A store to `TMR_CON`. -/
def writeCon (v : BitVec 32) : HgtimerV2 := { dev with tmrCon := writtenCon dev.tmrCon v }

/-- `hgtimer_v2_open`. -/
def hgtimerV2Open (type : TimerType) (flags : BitVec 32) : CInt × HgtimerV2 :=
  if dev.opened ≠ 0 then (-eBusy, dev)
  else (retOk, { dev with flags, mode := type, opened := 1, irq := true })

/-- `hgtimer_v2_close`. -/
def hgtimerV2Close : CInt × HgtimerV2 :=
  if dev.opened = 0 then (retOk, dev)
  else (retOk, { dev with flags := 0, mode := .once, opened := 0, irq := false })

/-- `hgtimer_v2_stop`. -/
def hgtimerV2Stop : CInt × HgtimerV2 := (retOk, dev.writeCon 0)

end HgtimerV2

/-- `sys_get_apbclk() / 1000000`. -/
def mhz (apbclk : CInt) : CInt := apbclk.sdiv 1000000

/-- The loop over the prescalers: the first one for which the upper half of
the ticks is below `1 << i`. -/
def prescaler (overall : BitVec 32) : Option ℕ :=
  (List.range 8).find? fun i => (overall >>> 16).toNat < 1 <<< i

/-- What `hgtimer_v2_start` writes to the registers. -/
def HgtimerV2.program (dev : HgtimerV2) (overall : BitVec 32) (i : ℕ) : HgtimerV2 :=
  let dev := dev.writeCon
    (if dev.cb.isSome then dev.tmrCon ||| conTmrIntrEn else dev.tmrCon &&& ~~~conTmrIntrEn)
  let dev := { dev with tmrCnt := 0, tmrPr := (overall >>> i) - 1 }
  let dev := dev.writeCon (dev.tmrCon &&& ~~~(conPscMask ||| conIncSrcMask ||| conModeDisMask))
  dev.writeCon (dev.tmrCon ||| (conTimerPng ||| conPsc (BitVec.ofNat 32 i) |||
    conIncSrc sourceSysRising ||| conMode (modeSelCounter.setWidth 32)))

/-- `hgtimer_v2_start`. The product wraps; the assert prints and continues. -/
def HgtimerV2.hgtimerV2Start (dev : HgtimerV2) (apbclk : CInt) (tmoUs : BitVec 32)
    (cb : Option (BitVec 32)) (cbData : BitVec 32) : CInt × HgtimerV2 :=
  if dev.opened = 0 then (-eNonet, dev)
  else if tmoUs = 0 then (-eInval, dev)
  else
    let overall := tmoUs * mhz apbclk
    match prescaler overall with
    | none => (retErr, dev)
    | some i => (retOk, { dev with cb, cbData }.program overall i)

/-- `enum timer_device_ioctl_cmd`, and any other number. -/
inductive IoctlCmd
  | getTimestamp
  | calcTimeDiffUs
  | other (cmd : BitVec 32)
  deriving DecidableEq, Repr

/-- `hgtimer_v2_ioctl`. With a clock below a megahertz it divides by zero and
does not return. -/
def HgtimerV2.hgtimerV2Ioctl (dev : HgtimerV2) (apbclk : CInt) (cmd : IoctlCmd)
    (param1 param2 : BitVec 32) : Option CInt :=
  match cmd with
  | .getTimestamp => some dev.tmrCnt
  | .calcTimeDiffUs =>
    let psc := (dev.tmrCon &&& conPscMask) >>> 8
    let diff := if param1 < param2 then param2 - param1 else param2 + dev.tmrPr - param1
    if mhz apbclk = 0 then none else some ((diff <<< psc) / mhz apbclk)
  | .other _ => some retErr

/-! ### The interrupt -/

/-- A call of one of the timer's functions. -/
inductive Call
  | open (type : TimerType) (flags : BitVec 32)
  | close
  | start (tmoUs : BitVec 32) (cb : Option (BitVec 32)) (cbData : BitVec 32)
  | stop
  | ioctl (cmd : IoctlCmd) (param1 param2 : BitVec 32)
  deriving DecidableEq, Repr

/-- What a call returns, and the timer after it. An `ioctl` leaves the timer
alone; one that divides by zero ends the run, and what is put down for it
stands for nothing. -/
def HgtimerV2.call (dev : HgtimerV2) (apbclk : CInt) : Call → CInt × HgtimerV2
  | .open type flags => dev.hgtimerV2Open type flags
  | .close => dev.hgtimerV2Close
  | .start tmoUs cb cbData => dev.hgtimerV2Start apbclk tmoUs cb cbData
  | .stop => dev.hgtimerV2Stop
  | .ioctl cmd param1 param2 =>
    ((dev.hgtimerV2Ioctl apbclk cmd param1 param2).getD retErr, dev)

/-- What happens while the handler runs: the callback or a nested interrupt
makes a call, or the counter moves on and may set its pending bit. -/
inductive Event
  | call (c : Call)
  | count (cnt : BitVec 32) (png : Bool)
  deriving DecidableEq, Repr

/-- The timer, and the calls made so far with what they returned, oldest
first. -/
structure Served where
  dev : HgtimerV2
  log : List (Call × CInt)

namespace Served

variable (s : Served)

def event (apbclk : CInt) : Event → Served
  | .call c => ⟨(s.dev.call apbclk c).2, s.log ++ [(c, (s.dev.call apbclk c).1)]⟩
  | .count cnt png =>
    { s with dev := { s.dev with
        tmrCnt := cnt, tmrCon := if png then s.dev.tmrCon ||| conTimerPng else s.dev.tmrCon } }

def events (apbclk : CInt) (es : List Event) : Served := es.foldl (fun s e => s.event apbclk e) s

def writeCon (v : BitVec 32) : Served := { s with dev := s.dev.writeCon v }

end Served

/-- What happens in the course of the handler: in the callback, and between
the accesses to memory after it. -/
structure Windows where
  callback : List Event
  beforePngLoad : List Event
  beforePngStore : List Event
  beforeMode : List Event
  beforeDisLoad : List Event
  beforeDisStore : List Event
  after : List Event

/-- The end of the handler: `if (timer->mode == TIMER_TYPE_ONCE)`. -/
def Served.disable (s : Served) (apbclk : CInt) (ws : Windows) : Served :=
  if s.dev.mode = .once then
    let s := s.events apbclk ws.beforeDisLoad
    let con := s.dev.tmrCon
    let s := s.events apbclk ws.beforeDisStore
    s.writeCon (con &&& ~~~conModeDisMask)
  else s

/-- `hgtimer_v2_irq_handler`. -/
def HgtimerV2.hgtimerV2IrqHandler (dev : HgtimerV2) (apbclk : CInt) (ws : Windows) : Served :=
  let s : Served := ⟨dev, []⟩
  if dev.tmrCon &&& conTimerPng ≠ 0 then
    let s := if dev.cb.isSome then s.events apbclk ws.callback else s
    let s := s.events apbclk ws.beforePngLoad
    let con := s.dev.tmrCon
    let s := s.events apbclk ws.beforePngStore
    let s := s.writeCon (con ||| conTimerPng)
    let s := s.events apbclk ws.beforeMode
    (s.disable apbclk ws).events apbclk ws.after
  else s.events apbclk ws.after

end Timer

end Hgsdk

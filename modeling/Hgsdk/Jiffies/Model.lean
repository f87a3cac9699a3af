import Hgsdk.Common.Machine
import Hgsdk.Typesdef
/-!
# Differences of ticks

`DIFF_JIFFIES` of `osal/sleep.h`, and the code that measures time with it:
`cpu_loading_print` of `common.c`, and `sys_arch_sem_wait` and
`sys_arch_mbox_fetch` of lwIP's `sys_arch.c`. Ticks are counted modulo 2³².
-/

namespace Hgsdk

namespace Jiffies

/-- `DIFF_JIFFIES(j1, j2)`. A macro: `j1` is evaluated once for the test and
once more for the difference. -/
def diffJiffies (j1 j1' j2 : BitVec 32) : BitVec 32 :=
  if j1 ≤ j2 then j2 - j1' else j2 + 0xFFFFFFFF - j1'

/-! ### The load of the tasks -/

/-- `struct os_task_time`. -/
structure TaskTime where
  id : BitVec 32
  name : Option (List Byte)
  time : BitVec 32
  arg : BitVec 32
  deriving DecidableEq, Repr

/-- A line that is printed for a task. -/
structure Line where
  id : BitVec 32
  name : List Byte
  percent : BitVec 32
  time : BitVec 32
  arg : BitVec 32
  deriving DecidableEq, Repr

/-- What a call prints. -/
structure Report where
  interval : BitVec 32
  lines : List Line
  deriving DecidableEq, Repr

/-- `OS_TASK_COUNT + 1`, the size of the table. -/
def taskMax : ℕ := 21

/-- `"----"`. -/
def noName : List Byte := [0x2d, 0x2d, 0x2d, 0x2d]

/-- The table that `os_task_runtime` fills, and what it returns. -/
structure Runtimes where
  count : BitVec 32
  tsk : Fin taskMax → TaskTime

/-- The tasks the loop prints. -/
def Runtimes.shown (r : Runtimes) (all : Byte) : List TaskTime :=
  ((List.ofFn r.tsk).take r.count.toNat).filter fun t => 0 < t.time ∨ all ≠ 0

/-- One line; a division by zero does not return. -/
def cpuLine (diffTick : BitVec 32) (t : TaskTime) : Option Line :=
  if diffTick = 0 then none
  else some ⟨t.id, t.name.getD noName, t.time * 100 / diffTick, t.time, t.arg⟩

/-- `cpu_loading_print`: what it prints, and `cpu_loading_tick` after it. -/
def cpuLoadingPrint (cpuLoadingTick jiff : BitVec 32) (all : Byte) (r : Runtimes) :
    Option (Report × BitVec 32) := do
  let diffTick := diffJiffies cpuLoadingTick cpuLoadingTick jiff
  let lines ← (r.shown all).mapM (cpuLine diffTick)
  return (⟨diffTick, lines⟩, jiff)

/-- `cpu_loading_tick`, and the time of the last call in ticks since the
start, which are not counted modulo anything. -/
structure Meter where
  tick : BitVec 32
  time : ℕ
  deriving DecidableEq, Repr

/-- A call: when it is made, and what it is given. -/
structure Call where
  now : ℕ
  all : Byte
  runtimes : Runtimes

def Call.jiff (c : Call) : BitVec 32 := BitVec.ofNat 32 c.now

def Call.shown (c : Call) : List TaskTime := c.runtimes.shown c.all

/-- Calls one after the other. -/
def cpuLoading : Machine Meter Call where
  step s c := (cpuLoadingPrint s.tick c.jiff c.all c.runtimes).map fun r => ⟨r.2, c.now⟩

/-- Nothing has been printed yet. -/
def boot : Meter := ⟨0, 0⟩

/-! ### Waiting in lwIP -/

/-- `SYS_ARCH_TIMEOUT`. -/
def sysArchTimeout : BitVec 32 := 0xffffffff

/-- `sys_arch_sem_wait`: `down` is what `os_sema_down` returns, and the ticks
are those of the three calls of `sys_now`. -/
def sysArchSemWait (down : CInt) (start now now' : BitVec 32) : BitVec 32 :=
  if down.slt 1 then sysArchTimeout else diffJiffies now now' start / 1000

/-- `sys_arch_mbox_fetch`: `handle` is what `os_msgq_get` returns and
`nullMesg` the address that stands for a null message. It returns the time
and what has been stored in `*msg`, if anything. -/
def sysArchMboxFetch (handle nullMesg : BitVec 32) (start now now' : BitVec 32) :
    BitVec 32 × Option (BitVec 32) :=
  if handle ≠ 0 then
    (diffJiffies now now' start >>> 10, some (if handle = nullMesg then 0 else handle))
  else (sysArchTimeout, none)

end Jiffies

end Hgsdk

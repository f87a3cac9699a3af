import Hgsdk.Typesdef
/-!
# The watchdog driver

`hg_wdt_v1.c`. The watchdog is run by keys written to `WDTKEY`; of `WDTCON`
only the prescaler field can be written, and only after the key that allows
it. With the code `k` in that field the watchdog resets the chip after about
`2 ^ (k - 7)` seconds without being fed.
-/

namespace Hgsdk

namespace Wdt

/-- `LL_WDT_CON_PSR(n)`. -/
def conPsr (n : BitVec 32) : BitVec 32 := n &&& 0xF

/-- `LL_WDT_CON_WDTE`. -/
def conWdte : BitVec 32 := 1 <<< 4

/-- `LL_WDT_CON_IE`. -/
def conIe : BitVec 32 := 1 <<< 5

/-- `LL_WDT_CON_PENDING`. -/
def conPending : BitVec 32 := 1 <<< 6

/-- The keys the driver writes, of `TYPE_ENUM_LL_WDT_KEY`. -/
inductive Key
  | feedDog
  | canVisitPsr
  | startDog
  | closeDog
  | disInt
  deriving DecidableEq, Repr

/-- The hardware: `WDTCON`, and whether the key written last allows a write
of its prescaler field. -/
structure HgWdtV1 where
  wdtcon : BitVec 32
  visitPsr : Bool
  deriving DecidableEq, Repr

namespace HgWdtV1

variable (wdt : HgWdtV1)

/-- `LL_WDT_SET_KEY`: what the hardware does with a key. -/
def setKey : Key → HgWdtV1
  | .feedDog => { wdtcon := wdt.wdtcon &&& ~~~conPending, visitPsr := false }
  | .canVisitPsr => { wdt with visitPsr := true }
  | .startDog => { wdtcon := wdt.wdtcon ||| conWdte, visitPsr := false }
  | .closeDog => { wdtcon := wdt.wdtcon &&& ~~~conWdte, visitPsr := false }
  | .disInt => { wdtcon := wdt.wdtcon &&& ~~~conIe, visitPsr := false }

/-- A store to `WDTCON`. -/
def writeCon (v : BitVec 32) : HgWdtV1 :=
  if wdt.visitPsr then { wdt with wdtcon := (wdt.wdtcon &&& ~~~conPsr 0xF) ||| conPsr v } else wdt

/-- The prescaler field. -/
def psr : BitVec 4 := wdt.wdtcon.extractLsb' 0 4

/-- `LL_WDT_SET_PSR`. -/
def setPsr (n : BitVec 32) : HgWdtV1 :=
  let wdt := wdt.setKey .canVisitPsr
  wdt.writeCon ((wdt.wdtcon &&& ~~~conPsr 0xF) ||| conPsr n)

end HgWdtV1

/-- The `while` of `hg_wdt_v1_time_out_cycle`: `time_cycle` and
`act_timeout` when it is left. -/
def cycleLoop (timeOut timeCycle actTimeout : BitVec 32) : BitVec 32 × BitVec 32 :=
  if timeOut = 0 then (timeCycle, actTimeout)
  else cycleLoop (timeOut >>> 1) (timeCycle + 1) (actTimeout <<< 1)
termination_by timeOut.toNat
decreasing_by
  rename_i hne
  have hpos : timeOut.toNat ≠ 0 := fun h0 => hne (BitVec.eq_of_toNat_eq h0)
  rw [BitVec.toNat_ushiftRight, Nat.shiftRight_eq_div_pow]
  omega

/-- The rounding up before it: an odd timeout is made even and costs a
cycle. -/
def timeOutCycle (timeOut : BitVec 32) : BitVec 32 × BitVec 32 :=
  if timeOut &&& 1 ≠ 0 then cycleLoop (timeOut - 1) 7 1 else cycleLoop timeOut 6 1

namespace HgWdtV1

variable (wdt : HgWdtV1)

/-- `hg_wdt_v1_clear_pending`. -/
def hgWdtV1ClearPending : HgWdtV1 := wdt.setKey .feedDog

/-- `hg_wdt_v1_time_out_cycle`. -/
def hgWdtV1TimeOutCycle (timeOut : BitVec 32) : BitVec 32 × HgWdtV1 :=
  ((timeOutCycle timeOut).2, wdt.setPsr (timeOutCycle timeOut).1)

/-- `hg_wdt_v1_feed`. -/
def hgWdtV1Feed : HgWdtV1 := wdt.setKey .feedDog

/-- `hg_wdt_v1_start`. -/
def hgWdtV1Start (timeoutS : BitVec 32) : BitVec 32 × HgWdtV1 :=
  let (timeoutSec, wdt) := wdt.hgWdtV1TimeOutCycle timeoutS
  (timeoutSec, (wdt.hgWdtV1ClearPending.hgWdtV1Feed).setKey .startDog)

end HgWdtV1

end Wdt

end Hgsdk

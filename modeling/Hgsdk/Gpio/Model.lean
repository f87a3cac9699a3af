import Hgsdk.Common.Machine
import Hgsdk.Typesdef
import Mathlib.Data.Fintype.Basic
import Mathlib.Logic.Function.Basic
/-!
# The GPIO driver

`driver/gpio/hggpio_v2.c`. A port has 32 pins at most. The mode of a pin is
two bits in `MODE0` or `MODE1`; the alternate function, the pull-up, the
pull-down and the drive strength are four bits in one of four registers
each; the data, the open drain, the speed and the input delay are one bit.

A bank of registers is a function of the number in their names. Pins are
numbered over all ports, and each function subtracts the number of the
port's first pin. The write protection of the registers is left out, and so
are the interrupts of pins.
-/

namespace Hgsdk

namespace Gpio

/-- The registers of `struct hggpio_v2_hw` that configure pins. -/
structure Hw where
  mode : Fin 2 → BitVec 32
  afr : Fin 4 → BitVec 32
  data : BitVec 32
  pu : Fin 4 → BitVec 32
  pd : Fin 4 → BitVec 32
  dr : Fin 4 → BitVec 32
  hy : BitVec 32
  od : BitVec 32
  sr : BitVec 32

/-- All bits of all registers are clear. -/
def Hw.zero : Hw := ⟨fun _ => 0, fun _ => 0, 0, fun _ => 0, fun _ => 0, fun _ => 0, 0, 0, 0⟩

/-- `struct hggpio_v2`: the range `pin_num`, which is at most 32 pins. -/
structure Port where
  lo : BitVec 32
  hi : BitVec 32
  narrow : hi.toNat < lo.toNat + 32

/-- `gpioa` of `project/device.c`. -/
def gpioa : Port := ⟨0, 31, by decide⟩

/-- `gpiob` of `project/device.c`. -/
def gpiob : Port := ⟨32, 50, by decide⟩

/-- `enum gpio_pin_mode`, and all other values as one. -/
inductive PinMode where
  | pullNone
  | pullUp
  | pullDown
  | opendrainPullUp
  | opendrainPullNone
  | opendrainPullDown
  | invalid
  deriving DecidableEq

/-- `GPIO_DS_53MA`, the greatest of `enum pin_driver_strength`. -/
def gpioDs53ma : BitVec 32 := 7

/-- `GPIO_DIR_INPUT`. -/
def gpioDirInput : BitVec 32 := 0

/-- `GPIO_DIR_OUTPUT`. -/
def gpioDirOutput : BitVec 32 := 1

/-- `enum gpio_ioctl_cmd`. -/
def gpioInputDelayOnOff : BitVec 32 := 0

def gpioDirAtomic : BitVec 32 := 1

def gpioValueAtomic : BitVec 32 := 2

/-- A pin of the port. -/
def Port.Has (dev : Port) (pin : BitVec 32) : Prop := dev.lo ≤ pin ∧ pin ≤ dev.hi

instance (dev : Port) (pin : BitVec 32) : Decidable (dev.Has pin) :=
  inferInstanceAs (Decidable (_ ∧ _))

/-- What each function begins with: pins of other ports are rejected, and
`hggpio_v2_pin_num` gives the number in this one. -/
def withPin (dev : Port) (pin : BitVec 32) (hw : Hw) (f : ℕ → CInt × Hw) : CInt × Hw :=
  if pin < dev.lo ∨ dev.hi < pin then (-eInval, hw) else f (pin - dev.lo).toNat

/-! ### Banks -/

/-- `MODE0` or `MODE1`, and the place of a pin in it. -/
def modeAt (p : ℕ) : Fin 2 × ℕ := if p / 16 ≠ 0 then (1, (p - 16) * 2) else (0, p * 2)

def Hw.setMode (hw : Hw) (p : ℕ) (f : BitVec 32 → ℕ → BitVec 32) : Hw :=
  { hw with
    mode := Function.update hw.mode (modeAt p).1 (f (hw.mode (modeAt p).1) (modeAt p).2) }

/-- `switch (pin / 8)`: one of four registers, and the place of a pin in
it. -/
def nibbleAt (p : ℕ) : Option (Fin 4 × ℕ) :=
  if h : p / 8 < 4 then some (⟨p / 8, h⟩, (p - 8 * (p / 8)) * 4) else none

/-- Four bits are cleared. -/
def clearAt (bank : Fin 4 → BitVec 32) (b : Fin 4) (sh : ℕ) : Fin 4 → BitVec 32 :=
  Function.update bank b (bank b &&& ~~~(0xf#32 <<< sh))

/-- Four bits are cleared and a value is put in. -/
def storeAt (bank : Fin 4 → BitVec 32) (b : Fin 4) (sh : ℕ) (v : BitVec 32) : Fin 4 → BitVec 32 :=
  Function.update bank b ((bank b &&& ~~~(0xf#32 <<< sh)) ||| (v <<< sh))

/-- A bit is set or cleared. -/
def assignBit (r : BitVec 32) (p : ℕ) (value : CInt) : BitVec 32 :=
  if value ≠ 0 then r ||| (1#32 <<< p) else r &&& ~~~(1#32 <<< p)

/-! ### The functions -/

/-- `hggpio_v2_set_pull`. -/
def hggpioV2SetPull (hw : Hw) (p : ℕ) (pullMode : PinMode) (level : BitVec 32) : CInt × Hw :=
  if 32 ≤ p then (-eInval, hw)
  else match nibbleAt p with
    | none => (-eInval, hw)
    | some (b, sh) => match pullMode with
      | .pullNone | .opendrainPullNone =>
        (retOk, { hw with pd := clearAt hw.pd b sh, pu := clearAt hw.pu b sh })
      | .pullUp | .opendrainPullUp => (retOk, { hw with pu := storeAt hw.pu b sh level })
      | .pullDown | .opendrainPullDown => (retOk, { hw with pd := storeAt hw.pd b sh level })
      | .invalid => (-eInval, hw)

/-- `hggpio_v2_set_driver_strength`. -/
def hggpioV2SetDriverStrength (hw : Hw) (p : ℕ) (drive : BitVec 32) : CInt × Hw :=
  if gpioDs53ma < drive ∨ 32 ≤ p then (-eInval, hw)
  else match nibbleAt p with
    | none => (-eInval, hw)
    | some (b, sh) => (retOk, { hw with dr := storeAt hw.dr b sh drive })

/-- `hggpio_v2_set_mode`. -/
def hggpioV2SetMode (hw : Hw) (p : ℕ) (mode : PinMode) (level : BitVec 32) : CInt × Hw :=
  if 32 ≤ p then (-eInval, hw)
  else match mode with
    | .pullNone | .pullUp | .pullDown =>
      hggpioV2SetPull { hw with od := hw.od &&& ~~~(1#32 <<< p) } p mode level
    | .opendrainPullNone | .opendrainPullUp | .opendrainPullDown =>
      hggpioV2SetPull { hw with od := hw.od ||| (1#32 <<< p) } p mode level
    | .invalid => (-eInval, hw)

/-- `hggpio_v2_dir`. -/
def hggpioV2Dir (dev : Port) (pin direction : BitVec 32) (hw : Hw) : CInt × Hw :=
  withPin dev pin hw fun p =>
    if gpioDirOutput < direction then (-eInval, hw)
    else if direction = gpioDirInput then
      (retOk, hw.setMode p fun r sh => r &&& ~~~(3#32 <<< sh))
    else (retOk, hw.setMode p fun r sh => (r &&& ~~~(3#32 <<< sh)) ||| (1#32 <<< sh))

/-- `hggpio_v2_dir_atomic`, not on a Cortex-M. -/
def hggpioV2DirAtomic (dev : Port) (pin direction : BitVec 32) (hw : Hw) : CInt × Hw :=
  (retOk, (hggpioV2Dir dev pin direction hw).2)

/-- `hggpio_v2_mode`. -/
def hggpioV2Mode (dev : Port) (pin : BitVec 32) (mode : PinMode) (level : BitVec 32) (hw : Hw) :
    CInt × Hw :=
  withPin dev pin hw fun p => hggpioV2SetMode hw p mode level

/-- `hggpio_v2_driver_strength`. -/
def hggpioV2DriverStrength (dev : Port) (pin drive : BitVec 32) (hw : Hw) : CInt × Hw :=
  withPin dev pin hw fun p => hggpioV2SetDriverStrength hw p drive

/-- `hggpio_v2_set`. -/
def hggpioV2Set (dev : Port) (pin : BitVec 32) (value : CInt) (hw : Hw) : CInt × Hw :=
  withPin dev pin hw fun p => (retOk, { hw with data := assignBit hw.data p value })

/-- `hggpio_v2_set_atomic`, not on a Cortex-M. -/
def hggpioV2SetAtomic (dev : Port) (pin : BitVec 32) (value : CInt) (hw : Hw) : CInt × Hw :=
  (retOk, (hggpioV2Set dev pin value hw).2)

/-- `hggpio_v2_anolog_en`. -/
def hggpioV2AnologEn (dev : Port) (pin : BitVec 32) (value : CInt) (hw : Hw) : CInt × Hw :=
  withPin dev pin hw fun p =>
    if value ≠ 0 then (retOk, hw.setMode p fun r sh => r ||| (3#32 <<< sh))
    else (retOk, hw.setMode p fun r sh => (r &&& ~~~(3#32 <<< sh)) ||| (1#32 <<< sh))

/-- `hggpio_v2_input_delay_en`. -/
def hggpioV2InputDelayEn (hw : Hw) (p : ℕ) (value : CInt) : CInt × Hw :=
  if 32 ≤ p then (-eInval, hw) else (retOk, { hw with hy := assignBit hw.hy p value })

/-- `hggpio_v2_speed`. -/
def hggpioV2Speed (dev : Port) (pin : BitVec 32) (state : CInt) (hw : Hw) : CInt × Hw :=
  withPin dev pin hw fun p => (retOk, { hw with sr := assignBit hw.sr p state })

/-- The first half of `hggpio_v2_afio`'s bits: one of 16 bits goes to the
first of two. -/
def afioPinMode (pinBits : BitVec 32) : BitVec 32 :=
  let m := ((pinBits &&& 0xFF00) <<< 8) ||| (pinBits &&& 0x00FF)
  let m := ((m &&& 0x00F000F0) <<< 4) ||| (m &&& 0x000F000F)
  let m := ((m &&& 0x0C0C0C0C) <<< 2) ||| (m &&& 0x03030303)
  ((m &&& 0x22222222) <<< 1) ||| (m &&& 0x11111111)

/-- The second half: it goes to the first of four, in `afrl` or `afrh`. -/
def afioAfr (pinMode : BitVec 32) : BitVec 32 :=
  let a := (pinMode >>> 15) ||| pinMode
  let a := ((a &&& 0xFF00) <<< 8) ||| (a &&& 0x00FF)
  let a := ((a &&& 0x00F000F0) <<< 4) ||| (a &&& 0x000F000F)
  ((a &&& 0x0C0C0C0C) <<< 2) ||| (a &&& 0x03030303)

def afioLow (afr : BitVec 32) : BitVec 32 := afr &&& 0x11111111

def afioHigh (afr : BitVec 32) : BitVec 32 := (afr >>> 1) &&& 0x11111111

/-- The stores of `hggpio_v2_afio`, to a pair of `AFR` registers and a
`MODE` register. -/
def afioStores (hw : Hw) (l h : Fin 4) (m : Fin 2) (pinMode afSel : BitVec 32) : Hw :=
  let afrl := afioLow (afioAfr pinMode)
  let afrh := afioHigh (afioAfr pinMode)
  let afr := Function.update hw.afr l ((hw.afr l &&& ~~~(afrl * 0xF)) ||| (afrl * afSel))
  let afr := Function.update afr h ((afr h &&& ~~~(afrh * 0xF)) ||| (afrh * afSel))
  { hw with
    afr := afr
    mode := Function.update hw.mode m ((hw.mode m &&& ~~~pinMode) ||| (pinMode <<< 1)) }

/-- `hggpio_v2_afio`. -/
def hggpioV2Afio (dev : Port) (pin afSel : BitVec 32) (hw : Hw) : CInt × Hw :=
  withPin dev pin hw fun p =>
    let pinBits := 1#32 <<< p
    if p ≤ 15 then (retOk, afioStores hw 0 1 0 (afioPinMode pinBits) afSel)
    else (retOk, afioStores hw 2 3 1 (afioPinMode (pinBits >>> 16)) afSel)

/-- `hggpio_v2_ioctl`. -/
def hggpioV2Ioctl (dev : Port) (pin cmd : BitVec 32) (value : CInt) (hw : Hw) : CInt × Hw :=
  withPin dev pin hw fun p =>
    if cmd = gpioInputDelayOnOff then hggpioV2InputDelayEn hw p value
    else if cmd = gpioValueAtomic then hggpioV2SetAtomic dev (BitVec.ofNat 32 p) value hw
    else if cmd = gpioDirAtomic then hggpioV2DirAtomic dev (BitVec.ofNat 32 p) value hw
    else (-eNotsupp, hw)

/-! ### A pin of the port -/

variable {dev : Port} {pin : BitVec 32} {hw : Hw}

/-- The number of a pin in its port. -/
def Port.num (dev : Port) (h : dev.Has pin) : Fin 32 :=
  ⟨(pin - dev.lo).toNat, by
    obtain ⟨hlo, hhi⟩ := h
    have hn := dev.narrow
    rw [BitVec.le_def] at hlo hhi
    rw [BitVec.toNat_sub_of_le hlo]
    omega⟩

theorem withPin_of_has (h : dev.Has pin) (f : ℕ → CInt × Hw) :
    withPin dev pin hw f = f (dev.num h) :=
  if_neg fun hor => hor.elim (BitVec.not_lt.2 h.1) (BitVec.not_lt.2 h.2)

theorem withPin_of_not_has (h : ¬ dev.Has pin) (f : ℕ → CInt × Hw) :
    withPin dev pin hw f = (-eInval, hw) := by
  refine if_pos ?_
  by_contra hor
  obtain ⟨hlo, hhi⟩ := not_or.1 hor
  exact h ⟨BitVec.not_lt.1 hlo, BitVec.not_lt.1 hhi⟩

end Gpio

end Hgsdk

import Hgsdk.Common.Field
import Hgsdk.Gpio.Model
/-!
# A configuration call is about its own pin

The registers of a port are the configurations of its 32 pins, spread over
banks (`Hw.cfg`). Every configuration call with an argument that it accepts
changes the configuration of its pin as it was asked to, and of no other
pin anything.
-/

namespace Hgsdk

namespace Gpio

variable {dev : Port} {pin : BitVec 32} {hw : Hw} {p q : Fin 32} {v : BitVec 32}

/-! ### The registers as configurations of pins -/

/-- The mode of a pin is in bits `2i + 1` and `2i` of `MODE(p / 16)`, where
`i = p % 16`. -/
def modes : Layout 2 2 where
  idx p := ⟨p / 16, by omega⟩
  off p := p % 16
  inj p q := by
    simp only [Fin.ext_iff]
    omega
  fits p := by omega

/-- The four bits of a pin are nibble `p % 8` of register `p / 8`. -/
def nibbles : Layout 4 4 where
  idx p := ⟨p / 8, by omega⟩
  off p := p % 8
  inj p q := by
    simp only [Fin.ext_iff]
    omega
  fits p := by omega

/-- **The configuration of a pin.** -/
structure PinCfg where
  mode : BitVec 2
  af : BitVec 4
  pu : BitVec 4
  pd : BitVec 4
  dr : BitVec 4
  data : BitVec 1
  hy : BitVec 1
  od : BitVec 1
  sr : BitVec 1
  deriving DecidableEq

/-- The configuration of a pin, in the registers. -/
def Hw.cfg (hw : Hw) (p : Fin 32) : PinCfg where
  mode := modes.get hw.mode p
  af := nibbles.get hw.afr p
  pu := nibbles.get hw.pu p
  pd := nibbles.get hw.pd p
  dr := nibbles.get hw.dr p
  data := Field.get 1 hw.data p
  hy := Field.get 1 hw.hy p
  od := Field.get 1 hw.od p
  sr := Field.get 1 hw.sr p

/-- A bit of one pin. -/
theorem get_put_bit {r : BitVec 32} (hv : v.toNat < 2 ^ 1) :
    Field.get 1 (Field.put 1 r p v) q = if q = p then v.setWidth 1 else Field.get 1 r q := by
  rw [Field.get_put hv (by omega)]
  simp only [Fin.ext_iff]

theorem cfg_mode (hw : Hw) (hv : v.toNat < 2 ^ 2) :
    ({ hw with mode := modes.put hw.mode p v }.cfg q) =
      if q = p then { hw.cfg q with mode := v.setWidth 2 } else hw.cfg q := by
  simp only [Hw.cfg, modes.get_put hv]
  split <;> rfl

theorem cfg_afr (hw : Hw) (hv : v.toNat < 2 ^ 4) :
    ({ hw with afr := nibbles.put hw.afr p v }.cfg q) =
      if q = p then { hw.cfg q with af := v.setWidth 4 } else hw.cfg q := by
  simp only [Hw.cfg, nibbles.get_put hv]
  split <;> rfl

theorem cfg_pu (hw : Hw) (hv : v.toNat < 2 ^ 4) :
    ({ hw with pu := nibbles.put hw.pu p v }.cfg q) =
      if q = p then { hw.cfg q with pu := v.setWidth 4 } else hw.cfg q := by
  simp only [Hw.cfg, nibbles.get_put hv]
  split <;> rfl

theorem cfg_pd (hw : Hw) (hv : v.toNat < 2 ^ 4) :
    ({ hw with pd := nibbles.put hw.pd p v }.cfg q) =
      if q = p then { hw.cfg q with pd := v.setWidth 4 } else hw.cfg q := by
  simp only [Hw.cfg, nibbles.get_put hv]
  split <;> rfl

theorem cfg_dr (hw : Hw) (hv : v.toNat < 2 ^ 4) :
    ({ hw with dr := nibbles.put hw.dr p v }.cfg q) =
      if q = p then { hw.cfg q with dr := v.setWidth 4 } else hw.cfg q := by
  simp only [Hw.cfg, nibbles.get_put hv]
  split <;> rfl

theorem cfg_data (hw : Hw) (hv : v.toNat < 2 ^ 1) :
    ({ hw with data := Field.put 1 hw.data p v }.cfg q) =
      if q = p then { hw.cfg q with data := v.setWidth 1 } else hw.cfg q := by
  simp only [Hw.cfg, get_put_bit hv]
  split <;> rfl

theorem cfg_od (hw : Hw) (hv : v.toNat < 2 ^ 1) :
    ({ hw with od := Field.put 1 hw.od p v }.cfg q) =
      if q = p then { hw.cfg q with od := v.setWidth 1 } else hw.cfg q := by
  simp only [Hw.cfg, get_put_bit hv]
  split <;> rfl

theorem cfg_sr (hw : Hw) (hv : v.toNat < 2 ^ 1) :
    ({ hw with sr := Field.put 1 hw.sr p v }.cfg q) =
      if q = p then { hw.cfg q with sr := v.setWidth 1 } else hw.cfg q := by
  simp only [Hw.cfg, get_put_bit hv]
  split <;> rfl

/-! ### The stores of the functions -/

theorem modeAt_eq (p : Fin 32) : modeAt p = (modes.idx p, 2 * modes.off p) := by
  revert p
  decide

theorem nibbleAt_eq (p : Fin 32) : nibbleAt p = some (nibbles.idx p, 4 * nibbles.off p) := by
  revert p
  decide

theorem setMode_clear : hw.setMode p (fun r sh => r &&& ~~~(3#32 <<< sh)) =
    { hw with mode := modes.put hw.mode p 0 } := by
  rw [Hw.setMode, modeAt_eq, Layout.put, Field.put_zero]
  rfl

theorem setMode_store : hw.setMode p (fun r sh => (r &&& ~~~(3#32 <<< sh)) ||| (1#32 <<< sh)) =
    { hw with mode := modes.put hw.mode p 1 } := by
  rw [Hw.setMode, modeAt_eq]
  rfl

theorem setMode_ones : hw.setMode p (fun r sh => r ||| (3#32 <<< sh)) =
    { hw with mode := modes.put hw.mode p 3 } := by
  have hones : ∀ r i, Field.put 2 r i 3 = r ||| Field.mask 2 i := fun r i => Field.put_ones
  rw [Hw.setMode, modeAt_eq, Layout.put, hones]
  rfl

theorem clearAt_eq (bank : Fin 4 → BitVec 32) :
    clearAt bank (nibbles.idx p) (4 * nibbles.off p) = nibbles.put bank p 0 := by
  rw [Layout.put, Field.put_zero]
  rfl

theorem storeAt_eq (bank : Fin 4 → BitVec 32) :
    storeAt bank (nibbles.idx p) (4 * nibbles.off p) v = nibbles.put bank p v := rfl

/-- A bit that is set or cleared. -/
def bit (value : CInt) : BitVec 32 := if value ≠ 0 then 1 else 0

theorem bit_lt (value : CInt) : (bit value).toNat < 2 ^ 1 := by
  rw [bit]
  split <;> decide

theorem put_bit_zero (r : BitVec 32) (p : ℕ) : r &&& ~~~(1#32 <<< p) = Field.put 1 r p 0 := by
  rw [Field.put_zero, Field.mask, Nat.one_mul]
  rfl

theorem put_bit_one (r : BitVec 32) (p : ℕ) : r ||| (1#32 <<< p) = Field.put 1 r p 1 := by
  have hones : Field.put 1 r p 1 = r ||| Field.mask 1 p := Field.put_ones
  rw [hones, Field.mask, Nat.one_mul]
  rfl

theorem assignBit_eq (r : BitVec 32) (p : ℕ) (value : CInt) :
    assignBit r p value = Field.put 1 r p (bit value) := by
  rw [assignBit, bit]
  split
  · exact put_bit_one r p
  · exact put_bit_zero r p

/-! ### The bits of `hggpio_v2_afio` -/

theorem afioPinMode_eq (i : Fin 16) : afioPinMode (1#32 <<< i.val) = 1#32 <<< (2 * i.val) := by
  revert i
  decide

theorem afioLow_eq (i : Fin 16) : afioLow (afioAfr (1#32 <<< (2 * i.val))) =
    if i.val < 8 then 1#32 <<< (4 * i.val) else 0 := by
  revert i
  decide

theorem afioHigh_eq (i : Fin 16) : afioHigh (afioAfr (1#32 <<< (2 * i.val))) =
    if i.val < 8 then 0 else 1#32 <<< (4 * (i.val - 8)) := by
  revert i
  decide

/-- The multiplications are shifts. -/
theorem put_of_mul (r v : BitVec 32) (i : ℕ) :
    (r &&& ~~~((1#32 <<< (4 * i)) * 0xF)) ||| ((1#32 <<< (4 * i)) * v) = Field.put 4 r i v := by
  rw [← BitVec.twoPow_eq, BitVec.twoPow_mul_eq_shiftLeft, BitVec.twoPow_mul_eq_shiftLeft]
  rfl

theorem put_of_mul_zero (r v : BitVec 32) : (r &&& ~~~(0 * 0xF)) ||| (0 * v) = r := by
  have hmask : ~~~(0 * 0xF : BitVec 32) = BitVec.allOnes 32 := by decide
  rw [hmask, BitVec.and_allOnes]
  simp

/-- One bit is cleared and the next one set, which is the mode 2. -/
theorem put_two (r : BitVec 32) (i : Fin 16) :
    (r &&& ~~~(1#32 <<< (2 * i.val))) ||| ((1#32 <<< (2 * i.val)) <<< 1) =
      Field.put 2 r i 2 := by
  have hmask : Field.mask 2 i = (1#32 <<< (2 * i.val)) ||| ((1#32 <<< (2 * i.val)) <<< 1) := by
    revert i
    decide
  have htwo : (2 : BitVec 32) <<< (2 * i.val) = (1#32 <<< (2 * i.val)) <<< 1 := by
    revert i
    decide
  rw [Field.put, hmask, htwo]
  generalize 1#32 <<< (2 * i.val) = a
  generalize a <<< 1 = b
  refine BitVec.eq_of_getLsbD_eq fun k hk => ?_
  simp only [BitVec.getLsbD_or, BitVec.getLsbD_and, BitVec.getLsbD_not, hk, decide_true,
    Bool.true_and]
  cases r.getLsbD k <;> cases a.getLsbD k <;> cases b.getLsbD k <;> rfl

/-- **The stores of `hggpio_v2_afio`** are to one nibble and one mode. -/
theorem afioStores_eq (hw : Hw) (i : Fin 16) (l h : Fin 4) (m : Fin 2) (afSel : BitVec 32) :
    afioStores hw l h m (afioPinMode (1#32 <<< i.val)) afSel =
      { hw with
        afr := if i.val < 8 then Function.update hw.afr l (Field.put 4 (hw.afr l) i afSel)
          else Function.update hw.afr h (Field.put 4 (hw.afr h) (i - 8) afSel)
        mode := Function.update hw.mode m (Field.put 2 (hw.mode m) i 2) } := by
  rw [afioPinMode_eq]
  simp only [afioStores, afioLow_eq, afioHigh_eq, put_two]
  by_cases hi : i.val < 8
  · simp only [if_pos hi, put_of_mul, put_of_mul_zero, Function.update_eq_self]
  · simp only [if_neg hi, put_of_mul, put_of_mul_zero, Function.update_eq_self]

/-- The stores for a pin, in either half of the port. -/
theorem afio_eq (p : Fin 32) (afSel : BitVec 32) :
    (if p.val ≤ 15 then (retOk, afioStores hw 0 1 0 (afioPinMode (1#32 <<< p.val)) afSel)
      else (retOk, afioStores hw 2 3 1 (afioPinMode ((1#32 <<< p.val) >>> 16)) afSel)) =
      (retOk, { hw with
        afr := nibbles.put hw.afr p afSel
        mode := modes.put hw.mode p 2 }) := by
  have hhigh : ¬ p.val ≤ 15 → (1#32 <<< p.val) >>> 16 = 1#32 <<< (p.val - 16) := by
    revert p
    decide
  -- which registers the layout has for the pin
  have hmode : modes.idx p = (if p.val ≤ 15 then 0 else 1) ∧
      modes.off p = if p.val ≤ 15 then p.val else p.val - 16 := by
    revert p
    decide
  have hnibble : nibbles.idx p = (if p.val ≤ 15 then if p.val < 8 then 0 else 1
        else if p.val - 16 < 8 then 2 else 3) ∧
      nibbles.off p = if p.val ≤ 15 then if p.val < 8 then p.val else p.val - 8
        else if p.val - 16 < 8 then p.val - 16 else p.val - 16 - 8 := by
    revert p
    decide
  by_cases hp : p.val ≤ 15
  · have heq := afioStores_eq hw ⟨p.val, by omega⟩ 0 1 0 afSel
    rw [if_pos hp, heq, Layout.put, Layout.put, hmode.1, hmode.2, hnibble.1, hnibble.2]
    simp only [if_pos hp]
    by_cases h8 : p.val < 8
    · simp only [if_pos h8]
    · simp only [if_neg h8]
  · have heq := afioStores_eq hw ⟨p.val - 16, by omega⟩ 2 3 1 afSel
    rw [if_neg hp, hhigh hp, heq, Layout.put, Layout.put, hmode.1, hmode.2, hnibble.1, hnibble.2]
    simp only [if_neg hp]
    by_cases h8 : p.val - 16 < 8
    · simp only [if_pos h8]
    · simp only [if_neg h8]

/-! ### The calls -/

/-- A configuration call. -/
inductive Call where
  | dir (direction : BitVec 32)
  | mode (mode : PinMode) (level : BitVec 32)
  | driverStrength (drive : BitVec 32)
  | set (value : CInt)
  | anologEn (value : CInt)
  | speed (state : CInt)
  | afio (afSel : BitVec 32)

/-- The function that is called. -/
def Call.exec (dev : Port) (pin : BitVec 32) (hw : Hw) : Call → CInt × Hw
  | dir direction => hggpioV2Dir dev pin direction hw
  | mode m level => hggpioV2Mode dev pin m level hw
  | driverStrength drive => hggpioV2DriverStrength dev pin drive hw
  | set value => hggpioV2Set dev pin value hw
  | anologEn value => hggpioV2AnologEn dev pin value hw
  | speed state => hggpioV2Speed dev pin state hw
  | afio afSel => hggpioV2Afio dev pin afSel hw

/-- The arguments that are accepted, and fit. -/
def Call.Accepted : Call → Prop
  | dir direction => direction ≤ gpioDirOutput
  | mode m level => m ≠ .invalid ∧ level ≤ 15
  | driverStrength drive => drive ≤ gpioDs53ma
  | afio afSel => afSel ≤ 15
  | _ => True

/-- The pulls that a mode is about. -/
def PinMode.pull (level : BitVec 32) (k : PinCfg) : PinMode → PinCfg
  | pullNone | opendrainPullNone => { k with pu := 0, pd := 0 }
  | pullUp | opendrainPullUp => { k with pu := level.setWidth 4 }
  | pullDown | opendrainPullDown => { k with pd := level.setWidth 4 }
  | invalid => k

/-- Open drain or not. -/
def PinMode.openDrain : PinMode → BitVec 1
  | opendrainPullNone | opendrainPullUp | opendrainPullDown => 1
  | _ => 0

/-- **What a call asks for**, of the configuration of its pin. -/
def Call.request (k : PinCfg) : Call → PinCfg
  | dir direction => { k with mode := direction.setWidth 2 }
  | mode m level => m.pull level { k with od := m.openDrain }
  | driverStrength drive => { k with dr := drive.setWidth 4 }
  | set value => { k with data := if value ≠ 0 then 1 else 0 }
  | anologEn value => { k with mode := if value ≠ 0 then 3 else 1 }
  | speed state => { k with sr := if state ≠ 0 then 1 else 0 }
  | afio afSel => { k with af := afSel.setWidth 4, mode := 2 }

theorem lt_of_le_15 (hv : v ≤ 15) : v.toNat < 2 ^ 4 := Nat.lt_succ_of_le (BitVec.le_def.1 hv)

theorem setWidth_bit (value : CInt) : (bit value).setWidth 1 = if value ≠ 0 then 1 else 0 := by
  rw [bit]
  split <;> rfl

/-- **`hggpio_v2_set_pull`**, with any level. -/
theorem setPull_eq (m : PinMode) (level : BitVec 32) : hggpioV2SetPull hw p m level =
    match m with
    | .pullNone | .opendrainPullNone =>
      (retOk, { hw with pd := nibbles.put hw.pd p 0, pu := nibbles.put hw.pu p 0 })
    | .pullUp | .opendrainPullUp => (retOk, { hw with pu := nibbles.put hw.pu p level })
    | .pullDown | .opendrainPullDown => (retOk, { hw with pd := nibbles.put hw.pd p level })
    | .invalid => (-eInval, hw) := by
  have hp : ¬ 32 ≤ p.val := not_le.2 p.isLt
  cases m <;> simp only [hggpioV2SetPull, if_neg hp, nibbleAt_eq, clearAt_eq, storeAt_eq]

/-- **`hggpio_v2_set_mode`**, with any level. -/
theorem setMode_eq (m : PinMode) (level : BitVec 32) : hggpioV2SetMode hw p m level =
    if m = .invalid then (-eInval, hw)
    else hggpioV2SetPull { hw with od := Field.put 1 hw.od p (m.openDrain.setWidth 32) } p m
      level := by
  have hp : ¬ 32 ≤ p.val := not_le.2 p.isLt
  cases m with
  | invalid => simp only [hggpioV2SetMode, if_neg hp, if_true]
  | pullNone => simp only [hggpioV2SetMode, if_neg hp, put_bit_zero]; rfl
  | pullUp => simp only [hggpioV2SetMode, if_neg hp, put_bit_zero]; rfl
  | pullDown => simp only [hggpioV2SetMode, if_neg hp, put_bit_zero]; rfl
  | opendrainPullNone => simp only [hggpioV2SetMode, if_neg hp, put_bit_one]; rfl
  | opendrainPullUp => simp only [hggpioV2SetMode, if_neg hp, put_bit_one]; rfl
  | opendrainPullDown => simp only [hggpioV2SetMode, if_neg hp, put_bit_one]; rfl

/-- What `hggpio_v2_set_pull` does to the pins, where the level fits. -/
theorem cfg_setPull (hw : Hw) {m : PinMode} {level : BitVec 32} (hm : m ≠ .invalid)
    (hlevel : level ≤ 15) :
    (hggpioV2SetPull hw p m level).1 = retOk ∧
      (hggpioV2SetPull hw p m level).2.cfg q =
        if q = p then m.pull level (hw.cfg q) else hw.cfg q := by
  have hv := lt_of_le_15 hlevel
  have hnone : { hw with pd := nibbles.put hw.pd p 0, pu := nibbles.put hw.pu p 0 }.cfg q =
      if q = p then { hw.cfg q with pu := 0, pd := 0 } else hw.cfg q := by
    have hzero : (0 : BitVec 32).toNat < 2 ^ 4 := by decide
    rw [cfg_pu { hw with pd := nibbles.put hw.pd p 0 } hzero, cfg_pd _ hzero]
    split <;> rfl
  rw [setPull_eq]
  cases m with
  | invalid => exact absurd rfl hm
  | pullNone => exact ⟨rfl, hnone⟩
  | opendrainPullNone => exact ⟨rfl, hnone⟩
  | pullUp => exact ⟨rfl, cfg_pu _ hv⟩
  | opendrainPullUp => exact ⟨rfl, cfg_pu _ hv⟩
  | pullDown => exact ⟨rfl, cfg_pd _ hv⟩
  | opendrainPullDown => exact ⟨rfl, cfg_pd _ hv⟩

/-- What `hggpio_v2_set_mode` does to the pins, where the level fits. -/
theorem cfg_setMode (hw : Hw) {m : PinMode} {level : BitVec 32} (hm : m ≠ .invalid)
    (hlevel : level ≤ 15) :
    (hggpioV2SetMode hw p m level).1 = retOk ∧
      (hggpioV2SetMode hw p m level).2.cfg q =
        if q = p then m.pull level { hw.cfg q with od := m.openDrain } else hw.cfg q := by
  have hopen : (m.openDrain.setWidth 32).toNat < 2 ^ 1 := by cases m <;> decide
  have hback : (m.openDrain.setWidth 32).setWidth 1 = m.openDrain := by cases m <;> rfl
  rw [setMode_eq, if_neg hm]
  obtain ⟨hret, hcfg⟩ := cfg_setPull (p := p) (q := q)
    { hw with od := Field.put 1 hw.od p (m.openDrain.setWidth 32) } hm hlevel
  refine ⟨hret, ?_⟩
  rw [hcfg, cfg_od _ hopen, hback]
  split <;> rfl

section Specs

variable (hpin : dev.Has pin)
include hpin

/-- **`hggpio_v2_dir`.** -/
theorem dir_spec {direction : BitVec 32} (hd : direction ≤ gpioDirOutput) :
    (hggpioV2Dir dev pin direction hw).1 = retOk ∧ ∀ q,
      (hggpioV2Dir dev pin direction hw).2.cfg q =
        if q = dev.num hpin then { hw.cfg q with mode := direction.setWidth 2 } else hw.cfg q := by
  have hle : direction.toNat ≤ 1 := BitVec.le_def.1 hd
  rw [hggpioV2Dir, withPin_of_has hpin, if_neg (BitVec.not_lt.2 hd)]
  by_cases hin : direction = gpioDirInput
  · rw [if_pos hin, setMode_clear]
    refine ⟨rfl, fun q => ?_⟩
    rw [cfg_mode _ (by decide), hin]
    rfl
  · have hone : direction = 1 := by
      refine BitVec.eq_of_toNat_eq ?_
      have hne : direction.toNat ≠ 0 := fun h0 => hin (BitVec.eq_of_toNat_eq h0)
      have h1 : (1 : BitVec 32).toNat = 1 := rfl
      omega
    rw [if_neg hin, setMode_store]
    refine ⟨rfl, fun q => ?_⟩
    rw [cfg_mode _ (by decide), hone]

/-- **`hggpio_v2_mode`.** -/
theorem mode_spec {m : PinMode} {level : BitVec 32} (hm : m ≠ .invalid) (hlevel : level ≤ 15) :
    (hggpioV2Mode dev pin m level hw).1 = retOk ∧ ∀ q,
      (hggpioV2Mode dev pin m level hw).2.cfg q =
        if q = dev.num hpin then m.pull level { hw.cfg q with od := m.openDrain }
        else hw.cfg q := by
  rw [hggpioV2Mode, withPin_of_has hpin]
  exact ⟨(cfg_setMode (q := 0) hw hm hlevel).1, fun q => (cfg_setMode hw hm hlevel).2⟩

/-- **`hggpio_v2_driver_strength`.** -/
theorem driverStrength_spec {drive : BitVec 32} (hdrive : drive ≤ gpioDs53ma) :
    (hggpioV2DriverStrength dev pin drive hw).1 = retOk ∧ ∀ q,
      (hggpioV2DriverStrength dev pin drive hw).2.cfg q =
        if q = dev.num hpin then { hw.cfg q with dr := drive.setWidth 4 } else hw.cfg q := by
  have hnot : ¬ (gpioDs53ma < drive ∨ 32 ≤ (dev.num hpin).val) :=
    not_or.2 ⟨BitVec.not_lt.2 hdrive, not_le.2 (dev.num hpin).isLt⟩
  have hv : drive.toNat < 2 ^ 4 := (BitVec.le_def.1 hdrive).trans_lt (by decide)
  rw [hggpioV2DriverStrength, withPin_of_has hpin]
  simp only [hggpioV2SetDriverStrength, if_neg hnot, nibbleAt_eq, storeAt_eq]
  exact ⟨trivial, fun q => cfg_dr _ hv⟩

/-- **`hggpio_v2_set`.** -/
theorem set_spec (value : CInt) :
    (hggpioV2Set dev pin value hw).1 = retOk ∧ ∀ q,
      (hggpioV2Set dev pin value hw).2.cfg q =
        if q = dev.num hpin then { hw.cfg q with data := if value ≠ 0 then 1 else 0 }
        else hw.cfg q := by
  rw [hggpioV2Set, withPin_of_has hpin, assignBit_eq]
  refine ⟨rfl, fun q => ?_⟩
  rw [cfg_data _ (bit_lt value), setWidth_bit]

/-- **`hggpio_v2_anolog_en`.** -/
theorem anologEn_spec (value : CInt) :
    (hggpioV2AnologEn dev pin value hw).1 = retOk ∧ ∀ q,
      (hggpioV2AnologEn dev pin value hw).2.cfg q =
        if q = dev.num hpin then { hw.cfg q with mode := if value ≠ 0 then 3 else 1 }
        else hw.cfg q := by
  rw [hggpioV2AnologEn, withPin_of_has hpin]
  by_cases hvalue : value ≠ 0
  · rw [if_pos hvalue, setMode_ones]
    refine ⟨rfl, fun q => ?_⟩
    rw [cfg_mode _ (by decide), if_pos hvalue]
    rfl
  · rw [if_neg hvalue, setMode_store]
    refine ⟨rfl, fun q => ?_⟩
    rw [cfg_mode _ (by decide), if_neg hvalue]
    rfl

/-- **`hggpio_v2_speed`.** -/
theorem speed_spec (state : CInt) :
    (hggpioV2Speed dev pin state hw).1 = retOk ∧ ∀ q,
      (hggpioV2Speed dev pin state hw).2.cfg q =
        if q = dev.num hpin then { hw.cfg q with sr := if state ≠ 0 then 1 else 0 }
        else hw.cfg q := by
  rw [hggpioV2Speed, withPin_of_has hpin, assignBit_eq]
  refine ⟨rfl, fun q => ?_⟩
  rw [cfg_sr _ (bit_lt state), setWidth_bit]

/-- **`hggpio_v2_afio`.** -/
theorem afio_spec {afSel : BitVec 32} (hsel : afSel ≤ 15) :
    (hggpioV2Afio dev pin afSel hw).1 = retOk ∧ ∀ q,
      (hggpioV2Afio dev pin afSel hw).2.cfg q =
        if q = dev.num hpin then { hw.cfg q with af := afSel.setWidth 4, mode := 2 }
        else hw.cfg q := by
  rw [hggpioV2Afio, withPin_of_has hpin, afio_eq]
  refine ⟨rfl, fun q => ?_⟩
  rw [cfg_mode { hw with afr := nibbles.put hw.afr (dev.num hpin) afSel } (by decide),
    cfg_afr _ (lt_of_le_15 hsel)]
  split <;> rfl

end Specs

/-- **A configuration call is about its own pin.** For every contents of the
registers, every pin of the port and every argument that is accepted and
fits, the configuration of the pin becomes what is asked for and that of
every other pin stays. -/
theorem config_own_pin (dev : Port) (pin : BitVec 32) (hpin : dev.Has pin) (hw : Hw) (call : Call)
    (hcall : call.Accepted) :
    (call.exec dev pin hw).1 = retOk ∧ ∀ q,
      (call.exec dev pin hw).2.cfg q =
        if q = dev.num hpin then call.request (hw.cfg q) else hw.cfg q := by
  cases call with
  | dir direction => exact dir_spec hpin hcall
  | mode m level => exact mode_spec hpin hcall.1 hcall.2
  | driverStrength drive => exact driverStrength_spec hpin hcall
  | set value => exact set_spec hpin value
  | anologEn value => exact anologEn_spec hpin value
  | speed state => exact speed_spec hpin state
  | afio afSel => exact afio_spec hpin hcall

/-- The alternate function 5 of pin 33, which is pin 1 of the second port,
and pin 2 next to it. -/
theorem config_own_pin_afio :
    ((Call.afio 5).exec gpiob 33 Hw.zero).2.cfg 1 = { Hw.zero.cfg 1 with af := 5, mode := 2 } ∧
      ((Call.afio 5).exec gpiob 33 Hw.zero).2.cfg 2 = Hw.zero.cfg 2 := by
  have hsel : (5 : BitVec 32) ≤ 15 := by decide
  have h := (config_own_pin gpiob 33 (by decide) Hw.zero (.afio 5) hsel).2
  exact ⟨h 1, h 2⟩

end Gpio

end Hgsdk

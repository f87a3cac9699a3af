import Hgsdk.Gpio.Pins
/-!
# The atomic operations

`hggpio_v2_ioctl` takes the number of the port's first pin off the pin and
hands the rest to `hggpio_v2_set_atomic` or `hggpio_v2_dir_atomic`, which
call the plain functions; and these take it off once more. So the atomic
operations are the plain ones on a port whose first pin is pin 0, and on no
other. They also do not pass on what the plain functions return.
-/

namespace Hgsdk

namespace Gpio

variable {dev : Port} {pin : BitVec 32} {hw : Hw}

theorem ofNat_num (hpin : dev.Has pin) : BitVec.ofNat 32 (dev.num hpin) = pin - dev.lo := by
  rw [Port.num, BitVec.ofNat_toNat, BitVec.setWidth_eq]

/-- What `hggpio_v2_ioctl` hands on. -/
theorem ioctl_value (hpin : dev.Has pin) (value : CInt) :
    hggpioV2Ioctl dev pin gpioValueAtomic value hw =
      (retOk, (hggpioV2Set dev (pin - dev.lo) value hw).2) := by
  rw [hggpioV2Ioctl, withPin_of_has hpin, if_neg (by decide), if_pos rfl,
    ofNat_num]
  rfl

theorem ioctl_dir (hpin : dev.Has pin) (direction : BitVec 32) :
    hggpioV2Ioctl dev pin gpioDirAtomic direction hw =
      (retOk, (hggpioV2Dir dev (pin - dev.lo) direction hw).2) := by
  rw [hggpioV2Ioctl, withPin_of_has hpin, if_neg (by decide), if_neg (by decide), if_pos rfl,
    ofNat_num]
  rfl

/-- Off once more is another pin. -/
theorem num_ne (hpin : dev.Has pin) (hpin' : dev.Has (pin - dev.lo)) (hlo : dev.lo ≠ 0) :
    dev.num hpin ≠ dev.num hpin' := by
  intro heq
  have hval : (dev.num hpin).val = (dev.num hpin').val := congrArg Fin.val heq
  have hbits : (pin - dev.lo).toNat = (pin - dev.lo - dev.lo).toNat := hval
  have hne : dev.lo.toNat ≠ 0 := fun h0 => hlo (BitVec.eq_of_toNat_eq h0)
  have hlt := (pin - dev.lo).isLt
  have hlt' := dev.lo.isLt
  rw [BitVec.toNat_sub (pin - dev.lo)] at hbits
  omega

/-- The pin itself is not touched then. -/
theorem set_elsewhere (hpin : dev.Has pin) (hlo : dev.lo ≠ 0) (value : CInt) :
    (hggpioV2Set dev (pin - dev.lo) value hw).2.cfg (dev.num hpin) = hw.cfg (dev.num hpin) := by
  by_cases hpin' : dev.Has (pin - dev.lo)
  · rw [(set_spec hpin' value).2, if_neg (num_ne hpin hpin' hlo)]
  · rw [hggpioV2Set, withPin_of_not_has hpin']

theorem dir_elsewhere (hpin : dev.Has pin) (hlo : dev.lo ≠ 0) {direction : BitVec 32}
    (hd : direction ≤ gpioDirOutput) :
    (hggpioV2Dir dev (pin - dev.lo) direction hw).2.cfg (dev.num hpin) = hw.cfg (dev.num hpin) := by
  by_cases hpin' : dev.Has (pin - dev.lo)
  · rw [(dir_spec hpin' hd).2, if_neg (num_ne hpin hpin' hlo)]
  · rw [hggpioV2Dir, withPin_of_not_has hpin']

theorem dir_rejected (hpin : dev.Has pin) {direction : BitVec 32}
    (hd : gpioDirOutput < direction) : hggpioV2Dir dev pin direction hw = (-eInval, hw) := by
  rw [hggpioV2Dir, withPin_of_has hpin, if_pos hd]

/-- Registers with the mode 3 for every pin. -/
def analog : Hw := { Hw.zero with mode := fun _ => BitVec.allOnes 32 }

/-- **The atomic operations are the plain ones**, for all contents of the
registers, where the pin is not the port's (and both reject it) or the
port's first pin is pin 0; and for a direction, where it is one that
`hggpio_v2_dir` accepts besides. -/
theorem atomic_agrees (dev : Port) (pin : BitVec 32) :
    ((∀ hw value, hggpioV2Ioctl dev pin gpioValueAtomic value hw = hggpioV2Set dev pin value hw) ↔
      ¬ dev.Has pin ∨ dev.lo = 0) ∧
    ∀ direction,
      (∀ hw, hggpioV2Ioctl dev pin gpioDirAtomic direction hw =
        hggpioV2Dir dev pin direction hw) ↔
      ¬ dev.Has pin ∨ dev.lo = 0 ∧ direction ≤ gpioDirOutput := by
  by_cases hpin : dev.Has pin
  · have hsame : dev.lo = 0 → pin - dev.lo = pin := fun hlo => by simp [hlo]
    simp only [hpin, not_true, false_or, ioctl_value hpin, ioctl_dir hpin]
    refine ⟨⟨fun h => ?_, fun hlo hw value => ?_⟩,
      fun direction => ⟨fun h => ?_, fun ⟨hlo, hd⟩ hw => ?_⟩⟩
    · -- a bit that is to be set, in registers with none
      by_contra hlo
      have hset := congrArg (fun r => (r.2.cfg (dev.num hpin)).data) (h Hw.zero 1)
      simp only [set_elsewhere hpin hlo, (set_spec hpin 1).2, if_true] at hset
      have hzero : ∀ p, (Hw.zero.cfg p).data = 0 := by decide
      rw [hzero] at hset
      exact absurd hset (by decide)
    · rw [hsame hlo]
      exact Prod.ext (set_spec hpin value).1.symm rfl
    · -- a direction that is rejected is not reported
      have hd : direction ≤ gpioDirOutput := by
        by_contra hnot
        have hne : retOk ≠ -eInval := by decide
        have hret := congrArg Prod.fst (h Hw.zero)
        rw [dir_rejected hpin (BitVec.not_le.1 hnot)] at hret
        exact hne hret
      refine ⟨?_, hd⟩
      by_contra hlo
      have hdir := congrArg (fun r => (r.2.cfg (dev.num hpin)).mode) (h analog)
      simp only [dir_elsewhere hpin hlo hd, (dir_spec hpin hd).2, if_true] at hdir
      have hones : ∀ p, (analog.cfg p).mode = 3 := by decide
      rw [hones] at hdir
      have hle : direction.toNat ≤ 1 := BitVec.le_def.1 hd
      have hnat := congrArg BitVec.toNat hdir
      rw [BitVec.toNat_setWidth, Nat.mod_eq_of_lt (by omega)] at hnat
      have h3 : (3 : BitVec 2).toNat = 3 := rfl
      omega
    · rw [hsame hlo]
      exact Prod.ext (dir_spec hpin hd).1.symm rfl
  · have hboth : ∀ cmd value hw, hggpioV2Ioctl dev pin cmd value hw = (-eInval, hw) :=
      fun _ _ _ => withPin_of_not_has hpin _
    refine ⟨iff_of_true (fun hw value => ?_) (Or.inl hpin),
      fun direction => iff_of_true (fun hw => ?_) (Or.inl hpin)⟩
    · rw [hboth, hggpioV2Set, withPin_of_not_has hpin]
    · rw [hboth, hggpioV2Dir, withPin_of_not_has hpin]

/-- **On the second port** the atomic operation leaves pin 33 as it is,
where the plain one sets it; both return `RET_OK`. -/
theorem atomic_differs :
    hggpioV2Ioctl gpiob 33 gpioValueAtomic 1 Hw.zero = (retOk, Hw.zero) ∧
      (hggpioV2Set gpiob 33 1 Hw.zero).1 = retOk ∧ (hggpioV2Set gpiob 33 1 Hw.zero).2.data = 2 :=
  ⟨rfl, rfl, by decide⟩

end Gpio

end Hgsdk

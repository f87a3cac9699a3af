import Hgsdk.Gpio.Pins
/-!
# Pull-up and pull-down

`hggpio_v2_mode` with a pull-up leaves the pull-down of the pin as it is,
and the other way round. So a pin is pulled one way, as the last call asked
for, only while no call asks for a pull against the one that is there; and
the level has to fit into its four bits.
-/

namespace Hgsdk

namespace Gpio

variable {dev : Port} {pin : BitVec 32} {hw : Hw} {p q : Fin 32} {m : PinMode} {level : BitVec 32}

/-- A call of `hggpio_v2_mode`. -/
structure ModeCall where
  pin : BitVec 32
  mode : PinMode
  level : BitVec 32

/-- **The registers of a port**, call after call. -/
def pulls (dev : Port) : Machine Hw ModeCall where
  step hw c := some (hggpioV2Mode dev c.pin c.mode c.level hw).2

/-- **No pin is pulled both ways.** -/
def OneWay (hw : Hw) : Prop := ∀ p, (hw.cfg p).pu = 0 ∨ (hw.cfg p).pd = 0

/-- The pull-up and the pull-down that a call asks for. -/
def PinMode.pullsTo (level : BitVec 32) : PinMode → BitVec 32 × BitVec 32
  | pullUp | opendrainPullUp => (level, 0)
  | pullDown | opendrainPullDown => (0, level)
  | _ => (0, 0)

/-- **A call that is accepted leaves the two pulls that it asks for.** -/
def AsRequested (dev : Port) (hw : Hw) (c : ModeCall) : Prop :=
  ∀ h : dev.Has c.pin, (hggpioV2Mode dev c.pin c.mode c.level hw).1 = retOk →
    ((((hggpioV2Mode dev c.pin c.mode c.level hw).2.cfg (dev.num h)).pu.setWidth 32,
      ((hggpioV2Mode dev c.pin c.mode c.level hw).2.cfg (dev.num h)).pd.setWidth 32) =
      c.mode.pullsTo c.level)

/-- A mode that is not against the pull that is there. -/
def PinMode.Fits (k : PinCfg) (level : BitVec 32) : PinMode → Prop
  | pullUp | opendrainPullUp => k.pd = 0 ∧ level ≤ 15
  | pullDown | opendrainPullDown => k.pu = 0 ∧ level ≤ 15
  | _ => True

instance (k : PinCfg) (level : BitVec 32) : ∀ m : PinMode, Decidable (m.Fits k level)
  | .pullUp => inferInstanceAs (Decidable (_ ∧ _))
  | .opendrainPullUp => inferInstanceAs (Decidable (_ ∧ _))
  | .pullDown => inferInstanceAs (Decidable (_ ∧ _))
  | .opendrainPullDown => inferInstanceAs (Decidable (_ ∧ _))
  | .pullNone => isTrue trivial
  | .opendrainPullNone => isTrue trivial
  | .invalid => isTrue trivial

/-- **A call against no pull**, with a level that fits. -/
def Harmless (dev : Port) (hw : Hw) (c : ModeCall) : Prop :=
  ∀ h : dev.Has c.pin, c.mode.Fits (hw.cfg (dev.num h)) c.level

instance (dev : Port) (hw : Hw) (c : ModeCall) : Decidable (Harmless dev hw c) :=
  inferInstanceAs (Decidable (∀ h : dev.Has c.pin, c.mode.Fits (hw.cfg (dev.num h)) c.level))

/-! ### One call -/

theorem mode_of_has (h : dev.Has pin) :
    hggpioV2Mode dev pin m level hw = hggpioV2SetMode hw (dev.num h) m level := withPin_of_has h _

theorem mode_of_not_has (h : ¬ dev.Has pin) : hggpioV2Mode dev pin m level hw = (-eInval, hw) :=
  withPin_of_not_has h _

/-- The two pulls of the pin after a call, with any level. -/
theorem pulls_setMode (hw : Hw) (p : Fin 32) (level : BitVec 32) (hm : m ≠ .invalid) :
    (hggpioV2SetMode hw p m level).1 = retOk ∧
      (((hggpioV2SetMode hw p m level).2.cfg p).pu, ((hggpioV2SetMode hw p m level).2.cfg p).pd) =
        ((m.pull level (hw.cfg p)).pu, (m.pull level (hw.cfg p)).pd) := by
  rw [setMode_eq, if_neg hm, setPull_eq]
  have hself : ∀ bank v, nibbles.get (nibbles.put bank p v) p = v.setWidth 4 :=
    fun bank v => nibbles.get_put_self
  cases m with
  | invalid => exact absurd rfl hm
  | pullNone | opendrainPullNone => exact ⟨rfl, Prod.ext (hself hw.pu 0) (hself hw.pd 0)⟩
  | pullUp | opendrainPullUp => exact ⟨rfl, Prod.ext (hself hw.pu level) rfl⟩
  | pullDown | opendrainPullDown => exact ⟨rfl, Prod.ext rfl (hself hw.pd level)⟩

/-- A level is read back where it fits. -/
theorem setWidth_eq_iff : (level.setWidth 4).setWidth 32 = level ↔ level ≤ 15 := by
  rw [BitVec.le_def, ← BitVec.toNat_inj, BitVec.toNat_setWidth, BitVec.toNat_setWidth]
  have h15 : (15 : BitVec 32).toNat = 15 := rfl
  rw [h15]
  omega

theorem setWidth_eq_zero_iff {x : BitVec 4} : x.setWidth 32 = 0 ↔ x = 0 := by
  revert x
  decide

/-- **A call leaves what it asks for** where it is against no pull, and its
level fits. -/
theorem asRequested_iff (c : ModeCall) : AsRequested dev hw c ↔ Harmless dev hw c := by
  refine forall_congr' fun h => ?_
  rw [mode_of_has h]
  obtain ⟨pin, m, level⟩ := c
  by_cases hm : m = .invalid
  · subst hm
    have hne : -eInval ≠ retOk := by decide
    refine iff_of_true (fun hret => absurd ?_ hne) trivial
    rwa [setMode_eq, if_pos rfl] at hret
  · obtain ⟨hret, hpulls⟩ := pulls_setMode hw (dev.num h) level hm
    obtain ⟨hpu, hpd⟩ := Prod.mk.inj hpulls
    rw [hret, hpu, hpd, Prod.ext_iff]
    simp only [forall_const]
    cases m with
    | invalid => exact absurd rfl hm
    | pullNone | opendrainPullNone => exact iff_of_true ⟨rfl, rfl⟩ trivial
    | pullUp | opendrainPullUp =>
      exact (and_congr setWidth_eq_iff setWidth_eq_zero_iff).trans and_comm
    | pullDown | opendrainPullDown => exact and_congr setWidth_eq_zero_iff setWidth_eq_iff

/-- A mode without a pull ignores the level. -/
theorem setMode_level (hm : m = .pullNone ∨ m = .opendrainPullNone) :
    hggpioV2SetMode hw p m level = hggpioV2SetMode hw p m 0 := by
  rw [setMode_eq, setMode_eq, setPull_eq, setPull_eq]
  obtain rfl | rfl := hm <;> rfl

/-- **A call against no pull** keeps the pins pulled one way. -/
theorem OneWay.step {c : ModeCall} (h : OneWay hw) (hc : Harmless dev hw c) :
    OneWay (hggpioV2Mode dev c.pin c.mode c.level hw).2 := by
  by_cases hpin : dev.Has c.pin
  · have hfits := hc hpin
    rw [mode_of_has hpin]
    obtain ⟨pin, m, level⟩ := c
    have hzero : (0 : BitVec 32) ≤ 15 := by decide
    -- the other pins are as they were
    have hsplit : ∀ level', level' ≤ 15 → m ≠ .invalid →
        ((m.pull level' (hw.cfg (dev.num hpin))).pu = 0 ∨
          (m.pull level' (hw.cfg (dev.num hpin))).pd = 0) →
        OneWay (hggpioV2SetMode hw (dev.num hpin) m level').2 := by
      intro level' hlevel hm hone q
      rw [(cfg_setMode hw hm hlevel).2]
      split
      · rename_i hq
        rw [hq]
        cases m <;> exact hone
      · exact h q
    cases m with
    | invalid =>
      rw [setMode_eq, if_pos rfl]
      exact h
    | pullNone =>
      rw [setMode_level (Or.inl rfl)]
      exact hsplit 0 hzero (by rintro ⟨⟩) (Or.inl rfl)
    | opendrainPullNone =>
      rw [setMode_level (Or.inr rfl)]
      exact hsplit 0 hzero (by rintro ⟨⟩) (Or.inl rfl)
    | pullUp | opendrainPullUp => exact hsplit level hfits.2 (by rintro ⟨⟩) (Or.inr hfits.1)
    | pullDown | opendrainPullDown => exact hsplit level hfits.2 (by rintro ⟨⟩) (Or.inl hfits.1)
  · rw [mode_of_not_has hpin]
    exact h

/-! ### All calls -/

/-- **A pin is pulled one way, as it was asked for last.** From registers
without pulls, for every sequence of calls: every call that is accepted
leaves the two pulls that it asks for and no pin is ever pulled both ways,
if and only if every call is against no pull and its level fits. -/
theorem pulled_one_way (dev : Port) (hw : Hw)
    (hw₀ : ∀ p, (hw.cfg p).pu = 0 ∧ (hw.cfg p).pd = 0) (calls : List ModeCall) :
    (pulls dev).Along (AsRequested dev) hw calls ∧ (pulls dev).Always OneWay hw calls ↔
      (pulls dev).Along (Harmless dev) hw calls := by
  have hiff : (pulls dev).Along (AsRequested dev) hw calls ↔
      (pulls dev).Along (Harmless dev) hw calls :=
    Machine.along_iff_of_inv (I := fun _ => True) (fun _ c _ => asRequested_iff c)
      (fun _ _ _ _ _ _ => trivial) trivial
  have hone : OneWay hw := fun p => Or.inl (hw₀ p).1
  rw [hiff]
  refine ⟨And.left, fun hall => ⟨hall, Machine.always_of_along ?_ hone hall⟩⟩
  intro hw c hw' h hc hstep
  obtain rfl := Option.some.inj hstep
  exact h.step hc

/-- Up, none and then down. -/
theorem pulled_one_way_in_turn :
    (pulls gpioa).Along (AsRequested gpioa) Hw.zero
        [⟨3, .pullUp, 6⟩, ⟨3, .pullNone, 0⟩, ⟨3, .pullDown, 1⟩] ∧
      (pulls gpioa).Always OneWay Hw.zero
        [⟨3, .pullUp, 6⟩, ⟨3, .pullNone, 0⟩, ⟨3, .pullDown, 1⟩] :=
  (pulled_one_way gpioa Hw.zero (by decide) _).2 (by decide)

/-- **Up and then down** pulls the pin both ways. -/
theorem pulled_both_ways : ∃ hw,
    (pulls gpioa).run Hw.zero [⟨3, .pullUp, 6⟩, ⟨3, .pullDown, 1⟩] = some hw ∧
      (hw.cfg 3).pu = 6 ∧ (hw.cfg 3).pd = 1 :=
  ⟨_, rfl, by decide, by decide⟩

end Gpio

end Hgsdk

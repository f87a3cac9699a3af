import Hgsdk.EthPhy.LinkReports
import Hgsdk.EthPhy.Storage
/-!
# The mode of a link

Two ways to a speed and a duplex, and the table of settings both are held
against. A negotiated mode is resolved by `genphy_read_status` with nested
tests over the registers of the two ends; it is the first setting of the
table that is common to them. A forced mode is searched in the table, put
into `MII_BMCR` by one function and taken out of it by another, with its own
order of the two speed bits; what comes out is what was put in.
-/

namespace Hgsdk

namespace EthPhy

variable {w : PhyWorld Storage}

/-! ### The table -/

/-- 10/half, the last setting. -/
def lowestSetting : PhySetting := ⟨speed10, duplexHalf, supported10baseTHalf⟩

/-- **The first setting that `modes` allows**, 10/half where there is none. -/
def firstSetting (modes : BitVec 32) : PhySetting :=
  (settings.find? fun s => s.setting &&& modes ≠ 0).getD lowestSetting

theorem firstSetting_mem (modes : BitVec 32) : firstSetting modes ∈ settings := by
  rw [firstSetting]
  cases h : settings.find? fun s => s.setting &&& modes ≠ 0 with
  | none => decide
  | some s => exact List.mem_of_find?_eq_some h

/-- The search of the table finds it. -/
theorem settings_ethPhyFindSetting (modes : BitVec 32) :
    settings[ethPhyFindSetting modes]? = some (firstSetting modes) := by
  have hlast : settings[settings.length - 1]? = some lowestSetting := by decide
  rw [ethPhyFindSetting, ethPhyFindValid, List.drop_zero, Nat.zero_add, firstSetting,
    List.find?_eq_getElem?_findIdx]
  split
  next hlt => rw [List.getElem?_eq_getElem hlt, Option.getD_some]
  next hge =>
    rw [hlast, List.getElem?_eq_none (Nat.le_of_not_lt hge), Option.getD_none]

/-- A search from a setting that is allowed ends there. -/
theorem ethPhyFindValid_of_getElem {idx : ℕ} {features : BitVec 32} {s : PhySetting}
    (hs : settings[idx]? = some s) (h : s.setting &&& features ≠ 0) :
    ethPhyFindValid idx features = idx := by
  obtain ⟨hidx, hget⟩ := List.getElem?_eq_some_iff.1 hs
  have hzero : ((settings.drop idx).findIdx fun s => s.setting &&& features ≠ 0) = 0 := by
    rw [List.drop_eq_getElem_cons hidx, List.findIdx_cons, hget, decide_eq_true h]
    rfl
  simp only [ethPhyFindValid]
  rw [hzero, Nat.add_zero, if_pos hidx]

/-- A search from the last setting ends there, allowed or not. -/
theorem ethPhyFindValid_last (features : BitVec 32) :
    ethPhyFindValid (settings.length - 1) features = settings.length - 1 := by
  have hdrop : settings.drop (settings.length - 1) = [lowestSetting] := by decide
  simp only [ethPhyFindValid]
  rw [hdrop, List.findIdx_cons, List.findIdx_nil]
  cases decide (lowestSetting.setting &&& features ≠ 0) with
  | false => rfl
  | true => rfl

/-- **The second search of the table changes nothing**, where no more is
advertised than is supported. -/
theorem ethPhyFindValid_ethPhyFindSetting {advertising supported : BitVec 32}
    (h : advertising &&& supported = advertising) :
    ethPhyFindValid (ethPhyFindSetting advertising) supported = ethPhyFindSetting advertising := by
  by_cases hidx : (settings.findIdx fun s => s.setting &&& advertising ≠ 0) < settings.length
  · -- the setting found is advertised, so it is supported
    have hfound : ethPhyFindSetting advertising =
        settings.findIdx fun s => s.setting &&& advertising ≠ 0 := by
      simp only [ethPhyFindSetting, ethPhyFindValid, List.drop_zero, Nat.zero_add]
      exact if_pos hidx
    have hadv := of_decide_eq_true (List.findIdx_getElem (w := hidx))
    rw [hfound]
    exact ethPhyFindValid_of_getElem (List.getElem?_eq_getElem hidx) (and_ne_zero_of_subset h hadv)
  · -- nothing is advertised
    have hlast : ethPhyFindSetting advertising = settings.length - 1 := by
      simp only [ethPhyFindSetting, ethPhyFindValid, List.drop_zero, Nat.zero_add]
      exact if_neg hidx
    rw [hlast, ethPhyFindValid_last]

/-! ### A negotiated mode -/

/-- Both ends have the ability: the partner in its register, the device in
its own. -/
def both (partner own : BitVec 16) (lpa adv : CInt) : Bool :=
  decide (partner.setWidth 32 &&& lpa ≠ 0) && decide (own.setWidth 32 &&& adv ≠ 0)

/-- A set of modes, as a mask. -/
def modesOf (full1000 half1000 full100 half100 full10 half10 : Bool) : BitVec 32 :=
  (if full1000 then supported1000baseTFull else 0) |||
    (if half1000 then supported1000baseTHalf else 0) |||
    (if full100 then supported100baseTFull else 0) |||
    (if half100 then supported100baseTHalf else 0) |||
    (if full10 then supported10baseTFull else 0) |||
    (if half10 then supported10baseTHalf else 0)

/-- The PHY has a gigabit mode, and with it the two registers for them. -/
def hasGigabit (supported : BitVec 32) : Bool :=
  decide (supported &&& (supported1000baseTHalf ||| supported1000baseTFull) ≠ 0)

/-- **The modes both ends advertise.** -/
def commonModes (supported : BitVec 32) (lpa advertise stat1000 ctrl1000 : BitVec 16) :
    BitVec 32 :=
  modesOf (hasGigabit supported && both stat1000 ctrl1000 lpa1000Full advertise1000Full)
    (hasGigabit supported && both stat1000 ctrl1000 lpa1000Half advertise1000Half)
    (both lpa advertise lpa100Full advertise100Full)
    (both lpa advertise lpa100Half advertise100Half)
    (both lpa advertise lpa10Full advertise10Full)
    (both lpa advertise lpa10Half advertise10Half)

/-- The nested tests, over what they test. -/
def testedMode (full1000 half1000 full100 half100 full10 : Bool) : BitVec 16 × BitVec 16 :=
  if full1000 || half1000 then (speed1000, if full1000 then duplexFull else duplexHalf)
  else if full100 || half100 then (speed100, if full100 then duplexFull else duplexHalf)
  else (speed10, if full10 then duplexFull else duplexHalf)

/-- **Two orders agree.** What the tests find is the first setting of the
table, whichever modes there are. -/
theorem firstSetting_modesOf :
    ∀ full1000 half1000 full100 half100 full10 half10 : Bool,
      ((firstSetting (modesOf full1000 half1000 full100 half100 full10 half10)).speed,
        (firstSetting (modesOf full1000 half1000 full100 half100 full10 half10)).duplex) =
        testedMode full1000 half1000 full100 half100 full10 := by
  decide

theorem negotiatedMode_eq (lpagb lpa : CInt) :
    negotiatedMode lpagb lpa =
      testedMode (decide (lpagb &&& lpa1000Full ≠ 0)) (decide (lpagb &&& lpa1000Half ≠ 0))
        (decide (lpa &&& lpa100Full ≠ 0)) (decide (lpa &&& lpa100Half ≠ 0))
        (decide (lpa &&& lpa10Full ≠ 0)) := by
  simp only [negotiatedMode, testedMode, and_or_ne_zero, Bool.or_eq_true, decide_eq_true_eq]

section Registers

variable (partner own : BitVec 16)

/-- A bit of the two registers' intersection. -/
theorem both_iff {i : ℕ} (hi : i < 32) :
    partner.setWidth 32 &&& own.setWidth 32 &&& BitVec.twoPow 32 i ≠ 0 ↔
      both partner own (BitVec.twoPow 32 i) (BitVec.twoPow 32 i) = true := by
  simp only [both, and_twoPow_ne_zero hi, BitVec.getLsbD_and, Bool.and_eq_true, decide_eq_true_eq]

theorem both_bit {i : ℕ} (hi : i < 32) :
    decide (partner.setWidth 32 &&& own.setWidth 32 &&& BitVec.twoPow 32 i ≠ 0) =
      both partner own (BitVec.twoPow 32 i) (BitVec.twoPow 32 i) := by
  rw [Bool.eq_iff_iff, decide_eq_true_eq]
  exact both_iff partner own hi

/-- The gigabit abilities stand two bits higher in the status register than
in the control register. -/
theorem both_bit_shift {i : ℕ} (hi : i + 2 < 32) :
    decide (partner.setWidth 32 &&& (own.setWidth 32 <<< 2) &&& BitVec.twoPow 32 (i + 2) ≠ 0) =
      both partner own (BitVec.twoPow 32 (i + 2)) (BitVec.twoPow 32 i) := by
  have hlow : i < 32 := by omega
  have hge : ¬ i + 2 < 2 := by omega
  rw [both, ← Bool.decide_and, decide_eq_decide]
  simp only [and_twoPow_ne_zero hi, and_twoPow_ne_zero hlow, BitVec.getLsbD_and,
    BitVec.getLsbD_shiftLeft, hi, hge, decide_true, decide_false, Bool.not_false, Bool.true_and,
    Nat.add_sub_cancel, Bool.and_eq_true]

end Registers

/-- `lpagb` once both registers are read. -/
def gigabitAbilities (supported : BitVec 32) (stat1000 ctrl1000 : BitVec 16) : CInt :=
  if hasGigabit supported then stat1000.setWidth 32 &&& (ctrl1000.setWidth 32 <<< 2) else 0

theorem gigabitAbilities_bit (supported : BitVec 32) (stat1000 ctrl1000 : BitVec 16) {i : ℕ}
    (hi : i + 2 < 32) :
    decide (gigabitAbilities supported stat1000 ctrl1000 &&& BitVec.twoPow 32 (i + 2) ≠ 0) =
      (hasGigabit supported &&
        both stat1000 ctrl1000 (BitVec.twoPow 32 (i + 2)) (BitVec.twoPow 32 i)) := by
  rw [gigabitAbilities]
  cases hasGigabit supported with
  | false => simp
  | true => exact both_bit_shift stat1000 ctrl1000 hi

/-- **The negotiated mode is the best common one.** -/
theorem negotiatedMode_common (supported : BitVec 32)
    (lpa advertise stat1000 ctrl1000 : BitVec 16) :
    negotiatedMode (gigabitAbilities supported stat1000 ctrl1000)
        (lpa.setWidth 32 &&& advertise.setWidth 32) =
      ((firstSetting (commonModes supported lpa advertise stat1000 ctrl1000)).speed,
        (firstSetting (commonModes supported lpa advertise stat1000 ctrl1000)).duplex) := by
  have hfull1000 := gigabitAbilities_bit supported stat1000 ctrl1000 (i := 9) (by decide)
  have hhalf1000 := gigabitAbilities_bit supported stat1000 ctrl1000 (i := 8) (by decide)
  have hfull100 := both_bit lpa advertise (i := 8) (by decide)
  have hhalf100 := both_bit lpa advertise (i := 7) (by decide)
  have hfull10 := both_bit lpa advertise (i := 6) (by decide)
  rw [commonModes, firstSetting_modesOf, negotiatedMode_eq]
  exact congr (congr (congr (congr (congrArg testedMode hfull1000) hhalf1000) hfull100) hhalf100)
    hfull10

section Negotiated

variable (hbus : w.phydev.bus = some storageBus)

include hbus

/-- On storage the link is one bit of the status register. -/
theorem genphyUpdateLink_storage :
    Ensures genphyUpdateLink w fun r t =>
      r = 0 ∧ t.mdio.regs = w.mdio.regs ∧ ∃ link, t.phydev = { w.phydev with link } := by
  have hbus₁ : (w.looked miiBmsr).phydev.bus = some storageBus := hbus
  refine (ensures_read hbus).2 ((ensures_read hbus₁).2 ?_)
  rw [ensures_bind, ensures_setDev, ensures_pure]
  exact ⟨rfl, rfl, _, rfl⟩

theorem genphyReadLpagb_storage :
    Ensures genphyReadLpagb w fun r t =>
      r = .ok (gigabitAbilities w.phydev.supported (w.stored miiStat1000) (w.stored miiCtrl1000)) ∧
        t.mdio.regs = w.mdio.regs ∧ t.phydev = w.phydev := by
  have hbus₁ : (w.looked miiStat1000).phydev.bus = some storageBus := hbus
  rw [genphyReadLpagb, ensures_bind, ensures_getDev]
  split
  next hnone =>
    rw [ensures_pure, gigabitAbilities, hasGigabit, decide_eq_false (not_not.2 hnone)]
    exact ⟨rfl, rfl, rfl⟩
  next hsome =>
    refine (ensures_read hbus).2 ((ensures_read hbus₁).2 ?_)
    rw [ensures_pure, gigabitAbilities, hasGigabit, decide_eq_true hsome, readout_looked,
      readout_of_ne (by decide), readout_of_ne (by decide)]
    exact ⟨rfl, rfl, rfl⟩

/-- What a resolved negotiation leaves in the device. -/
structure Resolved (w : PhyWorld Storage) (d : PhyDevice Storage) : Prop where
  speed : d.speed = (firstSetting (commonModes w.phydev.supported (w.stored miiLpa)
    (w.stored miiAdvertise) (w.stored miiStat1000) (w.stored miiCtrl1000))).speed
  duplex : d.duplex = (firstSetting (commonModes w.phydev.supported (w.stored miiLpa)
    (w.stored miiAdvertise) (w.stored miiStat1000) (w.stored miiCtrl1000))).duplex
  pause : d.pause = if d.duplex = duplexFull ∧
    both (w.stored miiLpa) (w.stored miiAdvertise) lpaPauseCap advertisePauseCap then 1 else 0
  asymPause : d.asymPause = if d.duplex = duplexFull ∧
    both (w.stored miiLpa) (w.stored miiAdvertise) lpaPauseAsym advertisePauseAsym then 1 else 0

theorem genphyReadNegotiated_storage :
    Ensures genphyReadNegotiated w fun r t => r = 0 ∧ Resolved w t.phydev := by
  refine (genphyReadLpagb_storage hbus).bind ?_
  rintro _ t ⟨rfl, hregs, hdev⟩
  have hbus₁ : t.phydev.bus = some storageBus := by rw [hdev, hbus]
  have hbus₂ : (t.looked miiLpa).phydev.bus = some storageBus := hbus₁
  have hlpa : t.readout miiLpa = w.stored miiLpa := by
    rw [readout_of_ne (by decide), PhyWorld.stored, hregs, hdev, PhyWorld.stored]
  have hadv : t.readout miiAdvertise = w.stored miiAdvertise := by
    rw [readout_of_ne (by decide), PhyWorld.stored, hregs, hdev, PhyWorld.stored]
  refine (ensures_read hbus₁).2 ((ensures_read hbus₂).2 ?_)
  rw [readout_looked, hlpa, hadv, ensures_bind, ensures_setDev, ensures_pure]
  have hmode := negotiatedMode_common w.phydev.supported (w.stored miiLpa) (w.stored miiAdvertise)
    (w.stored miiStat1000) (w.stored miiCtrl1000)
  have hcap := both_iff (w.stored miiLpa) (w.stored miiAdvertise) (i := 10) (by decide)
  have hasym := both_iff (w.stored miiLpa) (w.stored miiAdvertise) (i := 11) (by decide)
  exact ⟨rfl, congrArg Prod.fst hmode, congrArg Prod.snd hmode,
    if_congr (and_congr Iff.rfl hcap) rfl rfl, if_congr (and_congr Iff.rfl hasym) rfl rfl⟩

/-- **The negotiated mode is the best common mode.** With the negotiation
on, `genphy_read_status` takes speed and duplex from the setting that the
search of the table gives for the modes both ends advertise: the first of
them in the table's order, 10/half where there is none. The pause flags are
those both ends advertise, and only at full duplex. -/
theorem genphyReadStatus_best_common (hauto : w.phydev.autoneg = autonegEnable) :
    Ensures genphyReadStatus w fun r t =>
      r = 0 ∧ ∃ s,
        settings[ethPhyFindSetting (commonModes w.phydev.supported (w.stored miiLpa)
          (w.stored miiAdvertise) (w.stored miiStat1000) (w.stored miiCtrl1000))]? = some s ∧
        s = (settings.find? fun s => s.setting &&& commonModes w.phydev.supported
          (w.stored miiLpa) (w.stored miiAdvertise) (w.stored miiStat1000)
          (w.stored miiCtrl1000) ≠ 0).getD ⟨speed10, duplexHalf, supported10baseTHalf⟩ ∧
        t.phydev.speed = s.speed ∧ t.phydev.duplex = s.duplex ∧
        t.phydev.pause = (if t.phydev.duplex = duplexFull ∧
          both (w.stored miiLpa) (w.stored miiAdvertise) lpaPauseCap advertisePauseCap
          then 1 else 0) ∧
        t.phydev.asymPause = (if t.phydev.duplex = duplexFull ∧
          both (w.stored miiLpa) (w.stored miiAdvertise) lpaPauseAsym advertisePauseAsym
          then 1 else 0) := by
  refine (genphyUpdateLink_storage hbus).bind ?_
  rintro _ w₁ ⟨rfl, hregs, link, hdev⟩
  have hbus₁ : w₁.phydev.bus = some storageBus := by rw [hdev, hbus]
  have hauto₁ : autonegEnable = w₁.phydev.autoneg := by rw [hdev, hauto]
  have hstored : w₁.stored = w.stored := by
    funext reg
    rw [PhyWorld.stored, hregs, hdev, PhyWorld.stored]
  have hsupp : w₁.phydev.supported = w.phydev.supported := by rw [hdev]
  rw [if_neg (fun h => h rfl), ensures_bind, ensures_getDev, if_pos hauto₁]
  refine (genphyReadNegotiated_storage hbus₁).mono ?_
  rintro r t ⟨hr, h⟩
  obtain ⟨hspeed, hduplex, hpause, hasym⟩ := h
  rw [hstored] at hspeed hduplex hpause hasym
  rw [hsupp] at hspeed hduplex
  exact ⟨hr, _, settings_ethPhyFindSetting _, rfl, hspeed, hduplex, hpause, hasym⟩

end Negotiated

/-- Both ends have 100/full and pause; the PHY has no gigabit mode, so the
two gigabit registers, which say otherwise, are not read. -/
theorem genphyReadStatus_best_common_fast :
    Ensures genphyReadStatus
      (storagePhy 1 autonegEnable 0x2cf 0x2cf fun _ r =>
        if r = miiLpa ∨ r = miiAdvertise then 0x05e1 else 0xffff)
      fun r t => r = 0 ∧ t.phydev.speed = speed100 ∧ t.phydev.duplex = duplexFull ∧
        t.phydev.pause = 1 ∧ t.phydev.asymPause = 0 := by
  refine (genphyReadStatus_best_common rfl rfl).mono ?_
  rintro r t ⟨hr, s, -, hs, hspeed, hduplex, hpause, hasym⟩
  have hsetting : s = ⟨speed100, duplexFull, supported100baseTFull⟩ := hs.trans (by decide)
  rw [hsetting] at hspeed hduplex
  rw [hduplex] at hpause hasym
  exact ⟨hr, hspeed, hduplex, hpause, hasym⟩

/-! ### A forced mode -/

/-- What `genphy_setup_forced` writes for a setting. -/
def forcedCtl (speed duplex : BitVec 16) : BitVec 16 :=
  let ctl : CInt :=
    if speed1000 = speed then bmcrSpeed1000 else if speed100 = speed then bmcrSpeed100 else 0
  BitVec.setWidth 16 (if duplexFull = duplex then ctl ||| bmcrFulldplx else ctl)

/-- What the forced branch of `genphy_read_status` makes of it. -/
def readForced (bmcr : CInt) : BitVec 16 × BitVec 16 :=
  (if bmcr &&& bmcrSpeed1000 ≠ 0 then speed1000
    else if bmcr &&& bmcrSpeed100 ≠ 0 then speed100 else speed10,
    if bmcr &&& bmcrFulldplx ≠ 0 then duplexFull else duplexHalf)

/-- **What is put in comes out**, for each setting of the table. -/
theorem readForced_forcedCtl : ∀ s ∈ settings,
    readForced ((forcedCtl s.speed s.duplex &&& ~~~bmcrAnrestart.setWidth 16).setWidth 32) =
      (s.speed, s.duplex) := by
  decide

section Forced

variable (hbus : w.phydev.bus = some storageBus)

include hbus

theorem genphySetupForced_storage :
    Ensures genphySetupForced w fun _ t =>
      t.stored miiBmcr = forcedCtl w.phydev.speed w.phydev.duplex ∧
        t.phydev = { w.phydev with pause := 0, asymPause := 0 } := by
  rw [genphySetupForced, ensures_bind, ensures_setDev, ensures_bind, ensures_getDev]
  dsimp only
  rw [ensures_phyWrite (by exact hbus)]
  exact ⟨stored_wrote_self, rfl⟩

theorem genphyReadStatus_forced (hauto : w.phydev.autoneg = autonegDisable) :
    Ensures genphyReadStatus w fun r t =>
      r = 0 ∧ (t.phydev.speed, t.phydev.duplex) = readForced ((w.readout miiBmcr).setWidth 32) ∧
        t.phydev.pause = 0 ∧ t.phydev.asymPause = 0 := by
  refine (genphyUpdateLink_storage hbus).bind ?_
  rintro _ w₁ ⟨rfl, hregs, link, hdev⟩
  have hbus₁ : w₁.phydev.bus = some storageBus := by rw [hdev, hbus]
  have hauto₁ : autonegEnable ≠ w₁.phydev.autoneg := by
    rw [hdev, hauto]
    decide
  have hread : w₁.readout miiBmcr = w.readout miiBmcr := by
    rw [PhyWorld.readout, Storage.get, hregs, hdev, PhyWorld.readout, Storage.get]
  rw [if_neg (fun h => h rfl), ensures_bind, ensures_getDev, if_neg hauto₁]
  refine (ensures_read hbus₁).2 ?_
  rw [hread, ensures_bind, ensures_setDev, ensures_pure]
  exact ⟨rfl, rfl, rfl, rfl⟩

omit hbus in
/-- The settings are cut to the first one advertised. -/
theorem ethPhySanitizeSettings_first (hauto : w.phydev.autoneg = autonegDisable)
    (hsub : w.phydev.advertising &&& w.phydev.supported = w.phydev.advertising) :
    Ensures ethPhySanitizeSettings w fun _ t =>
      t.mdio = w.mdio ∧ t.phydev = { w.phydev with
        speed := (firstSetting w.phydev.advertising).speed
        duplex := (firstSetting w.phydev.advertising).duplex } := by
  have hfound : settings[ethPhyFindValid (ethPhyFindSetting w.phydev.advertising)
      w.phydev.supported]? = some (firstSetting w.phydev.advertising) := by
    rw [ethPhyFindValid_ethPhyFindSetting hsub]
    exact settings_ethPhyFindSetting _
  rw [ethPhySanitizeSettings, ensures_bind, ensures_getDev]
  dsimp only
  split
  · -- a PHY that cannot negotiate: its mode is switched off, as it was
    simp only [ensures_bind, ensures_setDev, ensures_getDev, ensures_deref, true_and]
    refine ⟨_, hfound, ?_⟩
    rw [← hauto]
  · simp only [ensures_bind, ensures_setDev, ensures_getDev, ensures_deref, true_and]
    exact ⟨_, hfound, rfl⟩

/-- A register written for a setting of the table is read back as that setting. -/
theorem genphyReadStatus_readsBack {features : BitVec 32}
    (hauto : w.phydev.autoneg = autonegDisable)
    (hctl : w.stored miiBmcr =
      forcedCtl (firstSetting features).speed (firstSetting features).duplex) :
    Ensures genphyReadStatus w fun r v =>
      r = 0 ∧ v.phydev.speed = (firstSetting features).speed ∧
        v.phydev.duplex = (firstSetting features).duplex ∧
        v.phydev.pause = 0 ∧ v.phydev.asymPause = 0 := by
  refine (genphyReadStatus_forced hbus hauto).mono ?_
  rintro r v ⟨hr, hread, hpause, hasym⟩
  have hput := readForced_forcedCtl _ (firstSetting_mem features)
  rw [← hctl] at hput
  obtain ⟨hspeed, hduplex⟩ := Prod.mk.inj (hread.trans hput)
  exact ⟨hr, hspeed, hduplex, hpause, hasym⟩

/-- **A forced mode is an allowed one and reads back.** With the
negotiation off, `eth_phy_start_aneg` takes the first setting of the table
that is advertised, 10/half where none is, and a PHY that is not halted goes
to `ETH_PHY_FORCING`. The control register it leaves is read back, at any
later time at which it is unchanged, as exactly that speed and duplex and
no pause. -/
theorem ethPhyStartAneg_forced {drv : PhyDriver Storage} (hdrv : drv.UsesGenphy)
    (hauto : w.phydev.autoneg = autonegDisable)
    (hsub : w.phydev.advertising &&& w.phydev.supported = w.phydev.advertising) :
    Ensures (ethPhyStartAneg drv) w fun ok t =>
      ok = true ∧ ∃ s,
        s = (settings.find? fun s => s.setting &&& w.phydev.advertising ≠ 0).getD
          ⟨speed10, duplexHalf, supported10baseTHalf⟩ ∧
        t.phydev.speed = s.speed ∧ t.phydev.duplex = s.duplex ∧
        t.phydev.state = (if w.phydev.state = .halted then .halted else .forcing) ∧
        ∀ u : PhyWorld Storage, u.phydev.bus = t.phydev.bus →
          u.phydev.autoneg = t.phydev.autoneg → u.stored miiBmcr = t.stored miiBmcr →
          Ensures genphyReadStatus u fun r v =>
            r = 0 ∧ v.phydev.speed = s.speed ∧ v.phydev.duplex = s.duplex ∧
              v.phydev.pause = 0 ∧ v.phydev.asymPause = 0 := by
  rw [ethPhyStartAneg, ensures_bind, ensures_getDev, if_pos hauto.symm]
  refine (ethPhySanitizeSettings_first hauto hsub).bind ?_
  rintro _ w₁ ⟨-, hdev₁⟩
  have hbus₁ : w₁.phydev.bus = some storageBus := by rw [hdev₁, hbus]
  have hauto₁ : autonegEnable ≠ w₁.phydev.autoneg := by
    rw [hdev₁, hauto]
    decide
  rw [hdrv.configAneg, genphyConfigAneg, ensures_bind, ensures_bind, ensures_getDev,
    if_pos hauto₁, ensures_bind]
  refine (genphySetupForced_storage hbus₁).mono ?_
  rintro _ w₂ ⟨hctl, hdev₂⟩
  -- the mode the register was written for is the setting's
  have hmode : w₂.stored miiBmcr = forcedCtl (firstSetting w.phydev.advertising).speed
      (firstSetting w.phydev.advertising).duplex := by rw [hctl, hdev₁]
  have hauto₂ : w₂.phydev.autoneg = autonegDisable := by rw [hdev₂, hdev₁, hauto]
  have hstate₂ : w₂.phydev.state = w.phydev.state := by rw [hdev₂, hdev₁]
  have hspeed₂ : w₂.phydev.speed = (firstSetting w.phydev.advertising).speed := by
    rw [hdev₂, hdev₁]
  have hduplex₂ : w₂.phydev.duplex = (firstSetting w.phydev.advertising).duplex := by
    rw [hdev₂, hdev₁]
  have hback : ∀ u : PhyWorld Storage, u.phydev.bus = w₂.phydev.bus →
      u.phydev.autoneg = w₂.phydev.autoneg → u.stored miiBmcr = w₂.stored miiBmcr →
      Ensures genphyReadStatus u fun r v =>
        r = 0 ∧ v.phydev.speed = (firstSetting w.phydev.advertising).speed ∧
          v.phydev.duplex = (firstSetting w.phydev.advertising).duplex ∧
          v.phydev.pause = 0 ∧ v.phydev.asymPause = 0 := by
    intro u hbusu hautou hregu
    have hbus₂ : u.phydev.bus = some storageBus := by rw [hbusu, hdev₂, hbus₁]
    exact genphyReadStatus_readsBack hbus₂ (hautou.trans hauto₂) (hregu.trans hmode)
  rw [ensures_pure]
  dsimp only
  rw [if_neg (by decide), ensures_bind, ensures_getDev]
  split
  next hrunning =>
    rw [hstate₂] at hrunning
    rw [ensures_bind, ensures_setDev, ensures_pure]
    refine ⟨rfl, _, rfl, hspeed₂, hduplex₂, ?_, hback⟩
    rw [if_neg hrunning, hauto₂]
    rfl
  next hhalted =>
    rw [hstate₂] at hhalted
    rw [ensures_pure]
    refine ⟨rfl, _, rfl, hspeed₂, hduplex₂, ?_, hback⟩
    rw [if_pos (not_not.1 hhalted), hstate₂, not_not.1 hhalted]

end Forced

/-- A PHY that can negotiate 100/full and below is forced to 100/half. -/
theorem ethPhyStartAneg_forced_fast :
    Ensures (ethPhyStartAneg genphyDriver)
      (storagePhy 1 autonegDisable 0x2cf 0x205 fun _ _ => 0)
      fun ok t => ok = true ∧ t.phydev.speed = speed100 ∧ t.phydev.duplex = duplexHalf ∧
        t.phydev.state = .forcing ∧
        Ensures genphyReadStatus t fun r v =>
          r = 0 ∧ v.phydev.speed = speed100 ∧ v.phydev.duplex = duplexHalf := by
  refine (ethPhyStartAneg_forced rfl genphyDriver_usesGenphy rfl (by decide)).mono ?_
  rintro ok t ⟨hok, s, hs, hspeed, hduplex, hstate, hback⟩
  have hsetting : s = ⟨speed100, duplexHalf, supported100baseTHalf⟩ := hs.trans (by decide)
  rw [hsetting] at hspeed hduplex hback
  refine ⟨hok, hspeed, hduplex, hstate, (hback t rfl rfl rfl).mono ?_⟩
  rintro r v ⟨hr, hv, hv', -, -⟩
  exact ⟨hr, hv, hv'⟩

end EthPhy

end Hgsdk

import Hgsdk.EthPhy.Storage
/-!
# Setting up a negotiation

`genphy_config_aneg` with the negotiation on. It writes the abilities that
are advertised into `MII_ADVERTISE` and restarts the negotiation where they
have changed, or where it was off or the PHY isolated. Then the device is
*settled*: what is advertised stands in the register, the negotiation is on
and the PHY is not isolated. From a settled device the call writes nothing,
so that calling it again does not restart a negotiation that is under way.
-/

namespace Hgsdk

namespace EthPhy

variable {w : PhyWorld Storage}

/-! ### The advertisement -/

/-- The ability and pause bits. -/
def abilityBits : CInt := advertiseAll ||| advertisePauseCap ||| advertisePauseAsym

/-- What `genphy_config_advert` clears. -/
def advertBits : CInt :=
  advertiseAll ||| advertise100Base4 ||| advertisePauseCap ||| advertisePauseAsym

/-- What it puts into the register. -/
def advertValue (old : BitVec 16) (advertise : BitVec 32) : BitVec 32 :=
  (old.setWidth 32 &&& ~~~advertBits) ||| ethPhyAdvToMiiAdvT advertise

theorem orIf_and {n m : ℕ} {flags mask : BitVec n} {bit result bits : BitVec m}
    (hbit : bit &&& bits = bit) (h : result &&& bits = result) :
    orIf flags mask bit result &&& bits = orIf flags mask bit result := by
  rw [orIf]
  split
  · rw [BitVec.and_comm, BitVec.and_or_distrib_left, BitVec.and_comm, h, BitVec.and_comm, hbit]
  · exact h

/-- It gives ability and pause bits only. -/
theorem advToMii_and (advertise : BitVec 32) :
    ethPhyAdvToMiiAdvT advertise &&& abilityBits = ethPhyAdvToMiiAdvT advertise := by
  rw [ethPhyAdvToMiiAdvT]
  refine orIf_and (by decide) (orIf_and (by decide) (orIf_and (by decide) ?_))
  exact orIf_and (by decide) (orIf_and (by decide) (orIf_and (by decide) (by decide)))

theorem advToMii_and_advertBits (advertise : BitVec 32) :
    ethPhyAdvToMiiAdvT advertise &&& advertBits = ethPhyAdvToMiiAdvT advertise := by
  have hbits : abilityBits &&& advertBits = abilityBits := by decide
  rw [← advToMii_and, BitVec.and_assoc, hbits]

theorem advertValue_setWidth (old : BitVec 16) (advertise : BitVec 32) :
    ((advertValue old advertise).setWidth 16).setWidth 32 = advertValue old advertise := by
  have hbits : abilityBits &&& 0xFFFF = abilityBits := by decide
  have hmii : ethPhyAdvToMiiAdvT advertise &&& 0xFFFF = ethPhyAdvToMiiAdvT advertise := by
    rw [← advToMii_and, BitVec.and_assoc, hbits]
  have hold : old.setWidth 32 &&& ~~~advertBits &&& 0xFFFF = old.setWidth 32 &&& ~~~advertBits := by
    rw [BitVec.and_assoc, BitVec.and_comm (~~~advertBits), ← BitVec.and_assoc, setWidth_16_and]
  refine setWidth_setWidth_16 ?_
  rw [advertValue, BitVec.and_comm, BitVec.and_or_distrib_left, BitVec.and_comm, hold,
    BitVec.and_comm (0xFFFF : BitVec 32), hmii]

/-- **The comparison is stable**: what was put in is what would be. -/
theorem advertValue_again (old : BitVec 16) (advertise : BitVec 32) :
    advertValue ((advertValue old advertise).setWidth 16) advertise =
      advertValue old advertise := by
  have hkept : ((old.setWidth 32 &&& ~~~advertBits) ||| ethPhyAdvToMiiAdvT advertise) &&&
      ~~~advertBits = old.setWidth 32 &&& ~~~advertBits :=
    and_not_mask_replaced (advToMii_and_advertBits advertise)
  rw [advertValue, advertValue_setWidth]
  nth_rewrite 1 [advertValue]
  rw [hkept, advertValue]

/-- What the register says of the abilities is what is advertised, and the
bits that are none of them stay. -/
theorem advertValue_bits (old : BitVec 16) (advertise : BitVec 32) :
    advertValue old advertise &&& abilityBits = ethPhyAdvToMiiAdvT advertise ∧
      advertValue old advertise &&& advertise100Base4 = 0 ∧
      advertValue old advertise &&& ~~~advertBits = old.setWidth 32 &&& ~~~advertBits := by
  have hmask : advertValue old advertise &&& advertBits = ethPhyAdvToMiiAdvT advertise :=
    and_mask_replaced (advToMii_and_advertBits advertise)
  have hability : advertBits &&& abilityBits = abilityBits := by decide
  have hbase4 : advertBits &&& advertise100Base4 = advertise100Base4 := by decide
  have hnone : abilityBits &&& advertise100Base4 = 0 := by decide
  refine ⟨?_, ?_, and_not_mask_replaced (advToMii_and_advertBits advertise)⟩
  · rw [← hability, ← BitVec.and_assoc, hmask, advToMii_and]
  · rw [← hbase4, ← BitVec.and_assoc, hmask, ← advToMii_and, BitVec.and_assoc, hnone]
    exact BitVec.and_zero

/-! ### The control register -/

/-- What `genphy_restart_aneg` changes in it. -/
def restartBits : CInt := bmcrAnenable ||| bmcrAnrestart ||| bmcrIsolate

/-- What it writes. -/
def restartValue (ctl : BitVec 16) : BitVec 32 :=
  (ctl.setWidth 32 ||| (bmcrAnenable ||| bmcrAnrestart)) &&& ~~~bmcrIsolate

theorem restartValue_setWidth (ctl : BitVec 16) :
    ((restartValue ctl).setWidth 16).setWidth 32 = restartValue ctl := by
  have hbits : (0xFFFF : BitVec 32) &&& (bmcrAnenable ||| bmcrAnrestart) =
      bmcrAnenable ||| bmcrAnrestart := by decide
  refine setWidth_setWidth_16 ?_
  rw [restartValue, BitVec.and_comm, ← BitVec.and_assoc, BitVec.and_or_distrib_left, hbits,
    BitVec.and_comm (0xFFFF : BitVec 32), setWidth_16_and]

theorem restartValue_bits (ctl : BitVec 16) :
    restartValue ctl &&& bmcrAnenable ≠ 0 ∧ restartValue ctl &&& bmcrIsolate = 0 ∧
      restartValue ctl &&& ~~~restartBits = ctl.setWidth 32 &&& ~~~restartBits := by
  have hself : ~~~bmcrIsolate &&& bmcrIsolate = 0 := by decide
  have hnot : ~~~bmcrIsolate &&& ~~~restartBits = ~~~restartBits := by decide
  have hput : ~~~restartBits &&& (bmcrAnenable ||| bmcrAnrestart) = 0 := by decide
  refine ⟨fun hzero => ?_, ?_, ?_⟩
  · have hbit := congrArg (fun v => v.getLsbD 12) hzero
    simp only [restartValue, BitVec.getLsbD_and, BitVec.getLsbD_or, BitVec.getLsbD_not] at hbit
    have hset : bmcrAnenable.getLsbD 12 = true := by decide
    have hclear : bmcrIsolate.getLsbD 12 = false := by decide
    rw [hset, hclear] at hbit
    simp at hbit
  · rw [restartValue, BitVec.and_assoc, hself]
    exact BitVec.and_zero
  · rw [restartValue, BitVec.and_assoc, hnot, BitVec.and_comm, BitVec.and_or_distrib_left, hput,
      BitVec.and_comm]
    exact BitVec.or_zero

/-- Only `BMCR_ANRESTART` does not read as it is stored. -/
theorem readout_bmcr_and {bits : BitVec 32} (h : bmcrAnrestart &&& bits = 0) :
    (w.readout miiBmcr).setWidth 32 &&& bits = (w.stored miiBmcr).setWidth 32 &&& bits := by
  refine BitVec.eq_of_getLsbD_eq fun i hi => ?_
  have hbit := congrArg (fun v => v.getLsbD i) h
  rw [BitVec.getLsbD_and] at hbit
  rw [PhyWorld.readout, Storage.get, if_pos rfl, ← PhyWorld.stored]
  simp only [BitVec.getLsbD_and, BitVec.getLsbD_setWidth, BitVec.getLsbD_not, hi, decide_true,
    Bool.true_and]
  rcases Nat.lt_or_ge i 16 with hlow | hhigh
  · cases hb : bits.getLsbD i with
    | false => simp
    | true =>
      rw [hb, Bool.and_true] at hbit
      simp [hbit, hlow]
  · rw [BitVec.getLsbD_of_ge _ i hhigh, Bool.false_and]

/-! ### The calls -/

/-- The world once `genphy_config_advert` has cut what is advertised to
what is supported. -/
def PhyWorld.sanitized (w : PhyWorld Storage) : PhyWorld Storage :=
  { w with phydev := { w.phydev with
      advertising := w.phydev.advertising &&& w.phydev.supported } }

/-- What it would have in the register. -/
def PhyWorld.wanted (w : PhyWorld Storage) : BitVec 32 :=
  advertValue (w.readout miiAdvertise) (w.phydev.advertising &&& w.phydev.supported)

section Calls

variable (hbus : w.phydev.bus = some storageBus)

include hbus

/-- `genphy_config_advert` writes where the register would change. -/
theorem ensures_genphyConfigAdvert {Q : CInt → PhyWorld Storage → Prop} :
    Ensures genphyConfigAdvert w Q ↔
      if w.wanted ≠ (w.readout miiAdvertise).setWidth 32 then
        Q 1 ((w.sanitized.looked miiAdvertise).wrote miiAdvertise (w.wanted.setWidth 16))
      else Q 0 (w.sanitized.looked miiAdvertise) := by
  have hbus₁ : w.sanitized.phydev.bus = some storageBus := hbus
  have hbus₂ : (w.sanitized.looked miiAdvertise).phydev.bus = some storageBus := hbus
  rw [genphyConfigAdvert, ensures_bind, ensures_setDev, ensures_bind, ensures_getDev]
  refine (ensures_read hbus₁).trans ?_
  change Ensures (if w.wanted ≠ (w.readout miiAdvertise).setWidth 32 then _ else _)
    (w.sanitized.looked miiAdvertise) Q ↔ _
  split
  · rw [ensures_bind, ensures_phyWrite hbus₂, ensures_pure]
    exact Iff.rfl
  · rw [ensures_pure]

theorem ensures_genphyRestartAneg {Q : CInt → PhyWorld Storage → Prop} :
    Ensures genphyRestartAneg w Q ↔
      Q 0 ((w.looked miiBmcr).wrote miiBmcr
        ((restartValue (w.readout miiBmcr)).setWidth 16)) := by
  have hbus₁ : (w.looked miiBmcr).phydev.bus = some storageBus := hbus
  refine (ensures_read hbus).trans ?_
  rw [ensures_bind, ensures_phyWrite hbus₁, ensures_pure]
  exact Iff.rfl

theorem ensures_genphyNeedsRestart {Q : CInt → PhyWorld Storage → Prop} :
    Ensures genphyNeedsRestart w Q ↔
      if (w.readout miiBmcr).setWidth 32 &&& bmcrAnenable = 0 ∨
          (w.readout miiBmcr).setWidth 32 &&& bmcrIsolate ≠ 0 then
        Q 1 (w.looked miiBmcr)
      else Q 0 (w.looked miiBmcr) := by
  refine (ensures_read hbus).trans ?_
  split
  · rw [ensures_pure]
  · rw [ensures_pure]

end Calls

/-- **The device is set up**: of `phydev` only what is advertised has
changed, the register has it, the negotiation is on and the PHY is not
isolated. -/
structure Configured (w t : PhyWorld Storage) : Prop where
  phydev : t.phydev = w.sanitized.phydev
  advertise : (t.stored miiAdvertise).setWidth 32 = w.wanted
  anenable : (t.stored miiBmcr).setWidth 32 &&& bmcrAnenable ≠ 0
  isolate : (t.stored miiBmcr).setWidth 32 &&& bmcrIsolate = 0
  others : (t.stored miiBmcr).setWidth 32 &&& ~~~restartBits =
    (w.stored miiBmcr).setWidth 32 &&& ~~~restartBits

section Configured

variable {t v : PhyWorld Storage}

/-- A restart sets the device up, once the advertisement stands. -/
theorem configured_restart (hdev : v.phydev = w.sanitized.phydev)
    (hadv : (v.stored miiAdvertise).setWidth 32 = w.wanted)
    (hctl : v.stored miiBmcr = w.stored miiBmcr) :
    Configured w ((v.looked miiBmcr).wrote miiBmcr
      ((restartValue (v.readout miiBmcr)).setWidth 16)) := by
  obtain ⟨hen, hiso, hothers⟩ := restartValue_bits (v.readout miiBmcr)
  have hrest : bmcrAnrestart &&& ~~~restartBits = 0 := by decide
  refine ⟨hdev, ?_, ?_, ?_, ?_⟩
  · rw [stored_wrote_of_ne (by decide), stored_looked, hadv]
  · rw [stored_wrote_self, restartValue_setWidth]
    exact hen
  · rw [stored_wrote_self, restartValue_setWidth]
    exact hiso
  · rw [stored_wrote_self, restartValue_setWidth, hothers, readout_bmcr_and hrest, hctl]

/-- Where neither the advertisement nor the control register asks for a
restart, the device is set up as it is. -/
theorem configured_of_kept (hadv : w.wanted = (w.readout miiAdvertise).setWidth 32)
    (hen : (w.readout miiBmcr).setWidth 32 &&& bmcrAnenable ≠ 0)
    (hiso : (w.readout miiBmcr).setWidth 32 &&& bmcrIsolate = 0) :
    Configured w ((w.sanitized.looked miiAdvertise).looked miiBmcr) := by
  have hbit : bmcrAnrestart &&& bmcrAnenable = 0 := by decide
  have hbit' : bmcrAnrestart &&& bmcrIsolate = 0 := by decide
  rw [readout_bmcr_and hbit] at hen
  rw [readout_bmcr_and hbit'] at hiso
  refine ⟨rfl, ?_, hen, hiso, rfl⟩
  rw [hadv, readout_of_ne (by decide)]
  rfl

variable (hbus : w.phydev.bus = some storageBus) (hauto : w.phydev.autoneg = autonegEnable)

include hbus hauto

theorem genphyConfigAneg_configured :
    Ensures genphyConfigAneg w fun r t => r = 0 ∧ Configured w t := by
  have hbus₁ : (w.sanitized.looked miiAdvertise).phydev.bus = some storageBus := hbus
  rw [genphyConfigAneg, ensures_bind, ensures_getDev, if_neg (by rw [hauto]; exact fun h => h rfl),
    ensures_bind, ensures_genphyConfigAdvert hbus]
  split
  next hchanged =>
    -- the advertisement was rewritten, which asks for a restart
    have hbus₂ : ((w.sanitized.looked miiAdvertise).wrote miiAdvertise
        (w.wanted.setWidth 16)).phydev.bus = some storageBus := hbus
    have hadv : (((w.sanitized.looked miiAdvertise).wrote miiAdvertise
        (w.wanted.setWidth 16)).stored miiAdvertise).setWidth 32 = w.wanted := by
      rw [stored_wrote_self]
      exact advertValue_setWidth _ _
    rw [if_neg (by decide), if_neg (by decide), ensures_bind, ensures_pure]
    dsimp only
    rw [if_pos (by decide), ensures_genphyRestartAneg hbus₂]
    exact ⟨rfl, configured_restart rfl hadv (stored_wrote_of_ne (by decide))⟩
  next hsame =>
    have hkept : w.wanted = (w.readout miiAdvertise).setWidth 32 := not_not.1 hsame
    have hadv : ((w.sanitized.looked miiAdvertise).looked miiBmcr |>.stored miiAdvertise).setWidth
        32 = w.wanted := by
      rw [hkept, readout_of_ne (by decide)]
      rfl
    rw [if_neg (by decide), if_pos rfl, ensures_bind, ensures_genphyNeedsRestart hbus₁]
    split
    next hneeds =>
      have hbus₂ : ((w.sanitized.looked miiAdvertise).looked miiBmcr).phydev.bus =
        some storageBus := hbus
      dsimp only
      rw [if_pos (by decide), ensures_genphyRestartAneg hbus₂]
      exact ⟨rfl, configured_restart rfl hadv rfl⟩
    next hfine =>
      obtain ⟨hen, hiso⟩ := not_or.1 hfine
      dsimp only
      rw [if_neg (by decide), ensures_pure]
      exact ⟨rfl, configured_of_kept hkept hen (not_not.1 hiso)⟩

omit hbus hauto in
/-- There is nothing more to cut from what is advertised. -/
theorem Configured.and_supported (h : Configured w t) :
    t.phydev.advertising &&& t.phydev.supported = t.phydev.advertising := by
  rw [h.phydev]
  show w.phydev.advertising &&& w.phydev.supported &&& w.phydev.supported =
    w.phydev.advertising &&& w.phydev.supported
  rw [BitVec.and_assoc, BitVec.and_self]

omit hbus hauto in
/-- What a device that is set up would have in the register is there. -/
theorem Configured.wanted_eq (h : Configured w t) :
    t.wanted = (t.readout miiAdvertise).setWidth 32 := by
  have hadv : t.stored miiAdvertise = w.wanted.setWidth 16 := by
    rw [← h.advertise, BitVec.setWidth_setWidth_of_le _ (by decide), BitVec.setWidth_eq]
  have hmask : t.phydev.advertising = w.phydev.advertising &&& w.phydev.supported := by
    rw [h.phydev]
    rfl
  rw [PhyWorld.wanted, readout_of_ne (by decide), hadv, h.and_supported, hmask, PhyWorld.wanted,
    advertValue_again, advertValue_setWidth]

omit hbus hauto in
theorem Configured.sanitized_eq (h : Configured w t) : t.sanitized = t := by
  rw [PhyWorld.sanitized, h.and_supported]

/-- **A second call only reads.** -/
theorem genphyConfigAneg_again (h : Configured w t) :
    Ensures genphyConfigAneg t fun r u =>
      r = 0 ∧ u = (t.looked miiAdvertise).looked miiBmcr := by
  have hbust : t.phydev.bus = some storageBus := by
    rw [h.phydev]
    exact hbus
  have hautot : t.phydev.autoneg = autonegEnable := by
    rw [h.phydev]
    exact hauto
  have hbus₁ : (t.looked miiAdvertise).phydev.bus = some storageBus := hbust
  have hbit : bmcrAnrestart &&& bmcrAnenable = 0 := by decide
  have hbit' : bmcrAnrestart &&& bmcrIsolate = 0 := by decide
  have hfine : ¬ (((t.looked miiAdvertise).readout miiBmcr).setWidth 32 &&& bmcrAnenable = 0 ∨
      ((t.looked miiAdvertise).readout miiBmcr).setWidth 32 &&& bmcrIsolate ≠ 0) := by
    rw [readout_looked, readout_bmcr_and hbit, readout_bmcr_and hbit', h.isolate]
    exact not_or.2 ⟨h.anenable, fun hne => hne rfl⟩
  rw [genphyConfigAneg, ensures_bind, ensures_getDev,
    if_neg (by rw [hautot]; exact fun hne => hne rfl), ensures_bind,
    ensures_genphyConfigAdvert hbust, if_neg (not_not.2 h.wanted_eq), h.sanitized_eq,
    if_neg (by decide), if_pos rfl, ensures_bind, ensures_genphyNeedsRestart hbus₁,
    if_neg hfine]
  dsimp only
  rw [if_neg (by decide), ensures_pure]
  exact ⟨rfl, rfl⟩

/-- **Setting up a negotiation is correct and idempotent.** The abilities
in `MII_ADVERTISE` are exactly those advertised, the negotiation is on, the
PHY is not isolated, and no other bit of the two registers has moved. The
second call returns 0 as the first did; it reads the two registers, writes
none, and leaves `phydev` alone. -/
theorem genphyConfigAneg_idempotent :
    Ensures genphyConfigAneg w fun r t =>
      r = 0 ∧
      t.phydev = { w.phydev with
        advertising := w.phydev.advertising &&& w.phydev.supported } ∧
      (t.stored miiAdvertise).setWidth 32 &&& abilityBits =
        ethPhyAdvToMiiAdvT t.phydev.advertising ∧
      (t.stored miiAdvertise).setWidth 32 &&& advertise100Base4 = 0 ∧
      (t.stored miiAdvertise).setWidth 32 &&& ~~~advertBits =
        (w.stored miiAdvertise).setWidth 32 &&& ~~~advertBits ∧
      (t.stored miiBmcr).setWidth 32 &&& bmcrAnenable ≠ 0 ∧
      (t.stored miiBmcr).setWidth 32 &&& bmcrIsolate = 0 ∧
      (t.stored miiBmcr).setWidth 32 &&& ~~~restartBits =
        (w.stored miiBmcr).setWidth 32 &&& ~~~restartBits ∧
      Ensures genphyConfigAneg t fun r' u =>
        r' = 0 ∧ u.phydev = t.phydev ∧ u.mdio.regs = t.mdio.regs ∧
          ∃ new, u.mdio.accesses = new ++ t.mdio.accesses ∧ ∀ a ∈ new, ¬ a.IsWrite := by
  refine (genphyConfigAneg_configured hbus hauto).mono ?_
  rintro r t ⟨hr, h⟩
  obtain ⟨hability, hbase4, hothers⟩ := advertValue_bits (w.readout miiAdvertise)
    (w.phydev.advertising &&& w.phydev.supported)
  refine ⟨hr, h.phydev, ?_, ?_, ?_, h.anenable, h.isolate, h.others, ?_⟩
  · rw [h.advertise, h.phydev]
    exact hability
  · rw [h.advertise]
    exact hbase4
  · rw [h.advertise, ← readout_of_ne (by decide)]
    exact hothers
  · refine (genphyConfigAneg_again hbus hauto h).mono ?_
    rintro r' u ⟨hr', rfl⟩
    refine ⟨hr', rfl, rfl, [.read t.phydev.addr miiBmcr, .read t.phydev.addr miiAdvertise], rfl, ?_⟩
    intro a ha
    rcases List.mem_pair.1 ha with rfl | rfl
    · exact id
    · exact id

omit hbus hauto in
/-- A PHY that is isolated, with the negotiation off and nothing
advertised, is set up. -/
theorem genphyConfigAneg_idempotent_isolated :
    Ensures genphyConfigAneg
      (storagePhy 1 autonegEnable 0xfcf 0x2cf fun _ r => if r = miiBmcr then 0x2400 else 0)
      fun r t => r = 0 ∧
        (t.stored miiAdvertise).setWidth 32 &&& abilityBits =
          ethPhyAdvToMiiAdvT t.phydev.advertising ∧
        (t.stored miiBmcr).setWidth 32 &&& bmcrIsolate = 0 ∧
        Ensures genphyConfigAneg t fun r' u => r' = 0 ∧ u.mdio.regs = t.mdio.regs := by
  refine (genphyConfigAneg_idempotent rfl rfl).mono ?_
  rintro r t ⟨hr, -, hability, -, -, -, hiso, -, hagain⟩
  refine ⟨hr, hability, hiso, hagain.mono ?_⟩
  rintro r' u ⟨hr', -, hregs, -⟩
  exact ⟨hr', hregs⟩

end Configured

end EthPhy

end Hgsdk

import Hgsdk.Common.Machine
import Hgsdk.EthPhy.Model.Device
/-!
# The PHY state machine

`eth_phy.c`: the table of settings, starting a negotiation, the function
the thread polls every 200 ms, and `eth_phy_open`.
-/

namespace Hgsdk

namespace EthPhy

variable {σ : Type}

/-- `struct __phy_setting`. -/
structure PhySetting where
  speed : BitVec 16
  duplex : BitVec 16
  setting : BitVec 32
  deriving DecidableEq, Repr

/-- `settings`: all supported settings, best first. -/
def settings : List PhySetting :=
  [⟨speed1000, duplexFull, supported1000baseTFull⟩,
   ⟨speed1000, duplexHalf, supported1000baseTHalf⟩,
   ⟨speed100, duplexFull, supported100baseTFull⟩,
   ⟨speed100, duplexHalf, supported100baseTHalf⟩,
   ⟨speed10, duplexFull, supported10baseTFull⟩,
   ⟨speed10, duplexHalf, supported10baseTHalf⟩]

/-- `eth_phy_aneg_done`. -/
def ethPhyAnegDone : Cmd (PhyWorld σ) CInt := do
  let retval ← phyReadInt miiBmsr
  return if retval.slt 0 then retval else retval &&& bmsrAnegcomplete

/-- `eth_phy_find_valid`: the first setting from `idx` on that `features`
allows, or the last one. -/
def ethPhyFindValid (idx : ℕ) (features : BitVec 32) : ℕ :=
  let idx := idx + (settings.drop idx).findIdx fun s => s.setting &&& features ≠ 0
  if idx < settings.length then idx else settings.length - 1

/-- `eth_phy_find_setting`: the same search from the start of the table. -/
def ethPhyFindSetting (advertising : BitVec 32) : ℕ :=
  ethPhyFindValid 0 advertising

/-- `eth_phy_sanitize_settings`. -/
def ethPhySanitizeSettings : Cmd (PhyWorld σ) PUnit := do
  let features := (← getDev).supported
  if features &&& supportedAutoneg = 0 then
    setDev fun d => { d with autoneg := autonegDisable }
  let idx := ethPhyFindValid (ethPhyFindSetting (← getDev).advertising) features
  let s ← Cmd.deref settings[idx]?
  setDev fun d => { d with speed := s.speed, duplex := s.duplex }

/-- `eth_phy_start_aneg`. -/
def ethPhyStartAneg (drv : PhyDriver σ) : Cmd (PhyWorld σ) Bool := do
  if autonegDisable = (← getDev).autoneg then
    ethPhySanitizeSettings
  let err ← drv.configAneg
  if err.slt 0 then
    return false
  if (← getDev).state ≠ .halted then
    setDev fun d => { d with
      state := if autonegEnable = d.autoneg then .an else .forcing }
  return true

/-- `0 == phydev->link_timeout--`: the counter is unsigned and wraps. -/
def linkTimeoutDec : Cmd (PhyWorld σ) Bool := do
  let t := (← getDev).linkTimeout
  setDev fun d => { d with linkTimeout := t - 1 }
  return 0 = t

/-- The case `ETH_PHY_AN` of the state machine; `true` asks for a new
negotiation (`needs_aneg`). -/
def pollAn (drv : PhyDriver σ) : Cmd (PhyWorld σ) Bool := do
  let err ← drv.readStatus
  if err.slt 0 then
    return false
  -- the link is down: give up on the negotiation for now
  if (← getDev).link = 0 then
    setDev fun d => { d with state := .nolink }
    phyEventLink
    return false
  let err ← ethPhyAnegDone
  if err.slt 0 then
    return false
  if (0 : CInt).slt err then
    setDev fun d => { d with state := .running }
    phyEventLink
    return false
  linkTimeoutDec

/-- The case `ETH_PHY_NOLINK`. -/
def pollNolink (drv : PhyDriver σ) : Cmd (PhyWorld σ) Bool := do
  let err ← drv.readStatus
  if err ≠ 0 then
    return false
  if (← getDev).link ≠ 0 then
    setDev fun d => { d with state := .running }
    phyEventLink
  return false

/-- The case `ETH_PHY_FORCING`: it asks the PHY itself for the link, not
the driver, and reports on every poll. -/
def pollForcing : Cmd (PhyWorld σ) Bool := do
  let err ← genphyUpdateLink
  if err ≠ 0 then
    return false
  if (← getDev).link ≠ 0 then
    setDev fun d => { d with state := .running }
    phyEventLink
    return false
  else
    let needsAneg ← linkTimeoutDec
    phyEventLink
    return needsAneg

/-- The case `ETH_PHY_RUNNING`. -/
def pollRunning (drv : PhyDriver σ) : Cmd (PhyWorld σ) Bool := do
  let err ← drv.readStatus
  if err ≠ 0 then
    return false
  setDev fun d => { d with state := if d.link ≠ 0 then .running else .nolink }
  phyEventLink
  return false

/-- The case `ETH_PHY_HALTED`. -/
def pollHalted : Cmd (PhyWorld σ) Bool := do
  if (← getDev).link ≠ 0 then
    setDev fun d => { d with link := 0 }
    phyEventLink
  return false

/-- The `switch` of `eth_phy_state_machine`, returning `needs_aneg`. -/
def pollState (drv : PhyDriver σ) : PhyState → Cmd (PhyWorld σ) Bool
  | .up => return true
  | .an => pollAn drv
  | .nolink => pollNolink drv
  | .forcing => pollForcing
  | .running => pollRunning drv
  | .halted => pollHalted
  | .down | .starting | .ready | .pending | .changelink | .resuming => return false

/-- `eth_phy_state_machine`. -/
def ethPhyStateMachine (drv : PhyDriver σ) : Cmd (PhyWorld σ) PUnit := do
  let needsAneg ← pollState drv (← getDev).state
  if needsAneg then
    let _ ← ethPhyStartAneg drv

/-- `eth_phy_open`, on a device object that is not null. The two asserts
print and continue, so a null `ndev` is stored. -/
def ethPhyOpen (drv : PhyDriver σ) (mdioBus : Option (MdioBus σ)) (ndev : Option Netdev) :
    Cmd (PhyWorld σ) CInt := do
  if mdioBus.isNone then
    return retErr
  setDev fun d => { d with ndev := ndev, bus := mdioBus }
  if !(← ethGetPhyDevice) then
    return retErr
  setDev fun d => { d with state := .ready }
  if (← ethPhyConnectDirect drv) = retErr then
    return retErr
  setDev fun d => { d with
    advertising := d.advertising &&& drv.features
    autoneg := if drv.features &&& supportedAutoneg ≠ 0 then autonegEnable else autonegDisable
    lastLink := 0, lastSpeed := 0, lastDuplex := -1
    state := .up }
  return retOk

/-- **The polling thread.** Between two polls the registers behind the bus
may have become anything: the label of a poll is what they are when it
starts. -/
def phyThread (drv : PhyDriver σ) : Machine (PhyWorld σ) σ where
  step w mdio := (ethPhyStateMachine drv { w with mdio }).map Prod.snd

end EthPhy

end Hgsdk

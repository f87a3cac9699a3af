import Hgsdk.Common.Command
import Hgsdk.EthPhy.Model.Mii
/-!
# The PHY device and the generic driver

`eth_phy_device.c`. A PHY is reached over an MDIO bus, which is any
device that answers reads and takes writes: its `read` returns an `int`,
negative on failure, and may change the bus (registers that clear on
read, a partner that changes its mind between two reads).

`phy_read` returns a `uint16`. Every `int` it is stored in is therefore
non-negative and the error branches below, kept as the source has them,
are never taken.
-/

namespace Hgsdk

namespace EthPhy

/-- `struct ethernet_mdio_bus`: the read and write functions, over the
state `σ` behind `priv`. -/
structure MdioBus (σ : Type) where
  read : σ → (phyAddr regnum : BitVec 16) → CInt × σ
  write : σ → (phyAddr regnum val : BitVec 16) → σ

/-- `enum ethernet_phy_state`. -/
inductive PhyState
  | down | starting | ready | pending | up | an | running | nolink | forcing
  | changelink | halted | resuming
  deriving DecidableEq, Repr

/-- A network device, known by its address. -/
abbrev Netdev := ℕ

/-- A call of `ndev->phy_event`; the only event is `LINK_CHANGED`. -/
structure PhyEvent where
  ndev : Netdev
  param1 : BitVec 32
  param2 : BitVec 32
  deriving DecidableEq, Repr

/-- `struct ethernet_phy_device`. -/
structure PhyDevice (σ : Type) where
  addr : BitVec 16
  bus : Option (MdioBus σ)
  ndev : Option Netdev
  phyId : BitVec 32
  state : PhyState
  speed : BitVec 16
  duplex : BitVec 16
  pause : BitVec 16
  asymPause : BitVec 16
  link : BitVec 16
  supported : BitVec 32
  advertising : BitVec 32
  autoneg : BitVec 32
  linkTimeout : BitVec 32
  lastSpeed : BitVec 16
  lastDuplex : BitVec 16
  lastLink : BitVec 16

/-- What the PHY code acts on: the device, the bus behind it, and the
events delivered so far, oldest first. -/
structure PhyWorld (σ : Type) where
  phydev : PhyDevice σ
  mdio : σ
  events : List PhyEvent

/-- `struct ethernet_phy_driver`. -/
structure PhyDriver (σ : Type) where
  features : BitVec 32
  configInit : Cmd (PhyWorld σ) CInt
  configAneg : Cmd (PhyWorld σ) CInt
  readStatus : Cmd (PhyWorld σ) CInt

variable {σ : Type}

/-- An assignment to fields of `phydev`. -/
def setDev (f : PhyDevice σ → PhyDevice σ) : Cmd (PhyWorld σ) PUnit :=
  modify fun w => { w with phydev := f w.phydev }

/-- `phydev`, to read its fields. -/
def getDev : Cmd (PhyWorld σ) (PhyDevice σ) := do
  return (← get).phydev

/-- `phy_read`: what the bus returned, cut to a `uint16`. -/
def phyRead (reg : BitVec 16) : Cmd (PhyWorld σ) (BitVec 16) := do
  let w ← get
  let bus ← Cmd.deref w.phydev.bus
  let r := bus.read w.mdio w.phydev.addr reg
  set { w with mdio := r.2 }
  return r.1.setWidth 16

/-- A `phy_read` stored in an `int`. -/
def phyReadInt (reg : BitVec 16) : Cmd (PhyWorld σ) CInt := do
  return (← phyRead reg).setWidth 32

/-- `phy_write`. -/
def phyWrite (reg val : BitVec 16) : Cmd (PhyWorld σ) PUnit := do
  let w ← get
  let bus ← Cmd.deref w.phydev.bus
  set { w with mdio := bus.write w.mdio w.phydev.addr reg val }

/-- `phydev->ndev->phy_event(phydev, NETDEV_PHY_EVENT_LINK_CHANGED,
phydev->link, 0)`. -/
def phyEventLink : Cmd (PhyWorld σ) PUnit := do
  let w ← get
  let ndev ← Cmd.deref w.phydev.ndev
  set { w with events := w.events ++ [PhyEvent.mk ndev (w.phydev.link.signExtend 32) 0] }

/-- One `if(flags & mask) result |= bit`. -/
def orIf {n m : ℕ} (flags mask : BitVec n) (bit result : BitVec m) : BitVec m :=
  if flags &&& mask ≠ 0 then result ||| bit else result

/-- `eth_phy_adv_to_mii_adv_t`. -/
def ethPhyAdvToMiiAdvT (ethadv : BitVec 32) : BitVec 32 :=
  let result := orIf ethadv advertised10baseTHalf advertise10Half 0
  let result := orIf ethadv advertised10baseTFull advertise10Full result
  let result := orIf ethadv advertised100baseTHalf advertise100Half result
  let result := orIf ethadv advertised100baseTFull advertise100Full result
  let result := orIf ethadv advertisedPause advertisePauseCap result
  orIf ethadv advertisedAsymPause advertisePauseAsym result

/-- `eth_phy_device_create`. -/
def ethPhyDeviceCreate : Cmd (PhyWorld σ) PUnit :=
  setDev fun d => { d with
    speed := 0, duplex := -1, pause := 0, asymPause := 0, link := 1
    autoneg := autonegEnable, state := .down }

/-- `eth_get_phy_id`: 0 on success, −1 on a failed read or one of the four
invalid identifiers. -/
def ethGetPhyId : Cmd (PhyWorld σ) CInt := do
  let phyReg ← phyReadInt miiPhysid1
  if phyReg.slt 0 then
    return -1
  setDev fun d => { d with phyId := (phyReg &&& 0xffff) <<< 16 }
  let phyReg ← phyReadInt miiPhysid2
  if phyReg.slt 0 then
    return -1
  setDev fun d => { d with phyId := d.phyId ||| (phyReg &&& 0xffff) }
  let id := (← getDev).phyId
  if id = 0xFFFFFFFF ∨ id = 0x00000000 ∨ id = 0x0000FFFF ∨ id = 0xFFFF0000 then
    return -1
  return 0

/-- The identifier is mostly ones: there is no device at this address. -/
def MostlyFs (id : BitVec 32) : Prop := id &&& 0x1fffffff = 0x1fffffff

instance (id : BitVec 32) : Decidable (MostlyFs id) := inferInstanceAs (Decidable (_ = _))

/-- The search of `eth_get_phy_device` over the addresses still to try:
whether a device was found, `phydev->addr` left at the last one tried. -/
def ethPhyScan : List ℕ → Cmd (PhyWorld σ) Bool
  | [] => return false
  | i :: rest => do
    setDev fun d => { d with addr := BitVec.ofNat 16 i }
    let err ← ethGetPhyId
    if err = 0 ∧ ¬ MostlyFs (← getDev).phyId then
      return true
    ethPhyScan rest

/-- `eth_get_phy_device`: `true` when the device was found and reset. -/
def ethGetPhyDevice : Cmd (PhyWorld σ) Bool := do
  let found ←
    if (← getDev).addr = phyAdaptiveAddr then
      ethPhyScan (List.range' 1 phyMaxAddr)
    else
      pure (decide ((← ethGetPhyId) = 0))
  if !found then
    return false
  if MostlyFs (← getDev).phyId then
    return false
  ethPhyDeviceCreate
  return true

/-- `genphy_config_init`: what the PHY can do, from its status registers. -/
def genphyConfigInit : Cmd (PhyWorld σ) CInt := do
  let features :=
    supportedTp ||| supportedMii ||| supportedAui ||| supportedFibre ||| supportedBnc
  let val ← phyReadInt miiBmsr
  if val.slt 0 then
    return val
  let features := orIf val bmsrAnegcapable supportedAutoneg features
  let features := orIf val bmsr100Full supported100baseTFull features
  let features := orIf val bmsr100Half supported100baseTHalf features
  let features := orIf val bmsr10Full supported10baseTFull features
  let features := orIf val bmsr10Half supported10baseTHalf features
  if val &&& bmsrEstaten ≠ 0 then
    let val ← phyReadInt miiEstatus
    if val.slt 0 then
      return val
    let features := orIf val estatus1000Tfull supported1000baseTFull features
    let features := orIf val estatus1000Thalf supported1000baseTHalf features
    setDev fun d => { d with supported := features, advertising := features }
    return 0
  else
    setDev fun d => { d with supported := features, advertising := features }
    return 0

/-- `eth_phy_attach_direct`. -/
def ethPhyAttachDirect (drv : PhyDriver σ) : Cmd (PhyWorld σ) CInt := do
  setDev fun d => { d with state := .ready }
  drv.configInit

/-- `eth_phy_connect_direct`. -/
def ethPhyConnectDirect (drv : PhyDriver σ) : Cmd (PhyWorld σ) CInt := do
  let flag ← ethPhyAttachDirect drv
  if flag = retErr then
    return retErr
  return retOk

/-- `genphy_config_advert`: 1 when the advertisement was rewritten, 0 when
it already stood. -/
def genphyConfigAdvert : Cmd (PhyWorld σ) CInt := do
  setDev fun d => { d with advertising := d.advertising &&& d.supported }
  let advertise := (← getDev).advertising
  let oldadv ← phyReadInt miiAdvertise
  if oldadv.slt 0 then
    return oldadv
  let adv := oldadv &&&
    ~~~(advertiseAll ||| advertise100Base4 ||| advertisePauseCap ||| advertisePauseAsym)
  let adv := adv ||| ethPhyAdvToMiiAdvT advertise
  if adv ≠ oldadv then
    phyWrite miiAdvertise (adv.setWidth 16)
    return 1
  return 0

/-- `genphy_setup_forced`. -/
def genphySetupForced : Cmd (PhyWorld σ) PUnit := do
  setDev fun d => { d with pause := 0, asymPause := 0 }
  let d ← getDev
  let ctl : CInt :=
    if speed1000 = d.speed then bmcrSpeed1000 else if speed100 = d.speed then bmcrSpeed100 else 0
  let ctl := if duplexFull = d.duplex then ctl ||| bmcrFulldplx else ctl
  phyWrite miiBmcr (ctl.setWidth 16)

/-- `genphy_restart_aneg`. -/
def genphyRestartAneg : Cmd (PhyWorld σ) CInt := do
  let ctl ← phyReadInt miiBmcr
  if ctl.slt 0 then
    return ctl
  let ctl := ctl ||| (bmcrAnenable ||| bmcrAnrestart)
  let ctl := ctl &&& ~~~bmcrIsolate
  phyWrite miiBmcr (ctl.setWidth 16)
  return 0

/-- The middle of `genphy_config_aneg`: with the advertisement unchanged,
negotiation restarts only if it was off or the PHY isolated. -/
def genphyNeedsRestart : Cmd (PhyWorld σ) CInt := do
  let ctl ← phyReadInt miiBmcr
  if ctl.slt 0 then
    return ctl
  if ctl &&& bmcrAnenable = 0 ∨ ctl &&& bmcrIsolate ≠ 0 then
    return 1
  return 0

/-- `genphy_config_aneg`. -/
def genphyConfigAneg : Cmd (PhyWorld σ) CInt := do
  if autonegEnable ≠ (← getDev).autoneg then
    genphySetupForced
    return 0
  let result ← genphyConfigAdvert
  if result.slt 0 then
    return result
  let result ← if result = 0 then genphyNeedsRestart else pure result
  -- a negative `result` is an error and a positive one asks for a restart
  if (0 : CInt).slt result then
    genphyRestartAneg
  else
    return result

/-- `genphy_update_link`: the status register is read twice and the second
value decides. -/
def genphyUpdateLink : Cmd (PhyWorld σ) CInt := do
  let status ← phyReadInt miiBmsr
  if status.slt 0 then
    return status
  let status ← phyReadInt miiBmsr
  if status.slt 0 then
    return status
  setDev fun d => { d with link := if status &&& bmsrLstatus = 0 then 0 else 1 }
  return 0

/-- The gigabit abilities both ends have, `lpagb` of `genphy_read_status`;
the second component is a failed read to be returned. -/
def genphyReadLpagb : Cmd (PhyWorld σ) (Except CInt CInt) := do
  if (← getDev).supported &&& (supported1000baseTHalf ||| supported1000baseTFull) = 0 then
    return .ok 0
  let lpagb ← phyReadInt miiStat1000
  if lpagb.slt 0 then
    return .error lpagb
  let adv ← phyReadInt miiCtrl1000
  if adv.slt 0 then
    return .error adv
  return .ok (lpagb &&& (adv <<< 2))

/-- Speed and duplex from the abilities both ends have, best first. -/
def negotiatedMode (lpagb lpa : CInt) : BitVec 16 × BitVec 16 :=
  if lpagb &&& (lpa1000Full ||| lpa1000Half) ≠ 0 then
    (speed1000, if lpagb &&& lpa1000Full ≠ 0 then duplexFull else duplexHalf)
  else if lpa &&& (lpa100Full ||| lpa100Half) ≠ 0 then
    (speed100, if lpa &&& lpa100Full ≠ 0 then duplexFull else duplexHalf)
  else
    (speed10, if lpa &&& lpa10Full ≠ 0 then duplexFull else duplexHalf)

/-- The branch of `genphy_read_status` that resolves a negotiation. -/
def genphyReadNegotiated : Cmd (PhyWorld σ) CInt := do
  match ← genphyReadLpagb with
  | .error err => return err
  | .ok lpagb =>
    let lpa ← phyReadInt miiLpa
    if lpa.slt 0 then
      return lpa
    let adv ← phyReadInt miiAdvertise
    if adv.slt 0 then
      return adv
    let lpa := lpa &&& adv
    let mode := negotiatedMode lpagb lpa
    let full := mode.2 = duplexFull
    setDev fun d => { d with
      speed := mode.1, duplex := mode.2
      pause := if full ∧ lpa &&& lpaPauseCap ≠ 0 then 1 else 0
      asymPause := if full ∧ lpa &&& lpaPauseAsym ≠ 0 then 1 else 0 }
    return 0

/-- The branch of `genphy_read_status` that reads a forced mode back. -/
def genphyReadForced : Cmd (PhyWorld σ) CInt := do
  let bmcr ← phyReadInt miiBmcr
  if bmcr.slt 0 then
    return bmcr
  setDev fun d => { d with
    duplex := if bmcr &&& bmcrFulldplx ≠ 0 then duplexFull else duplexHalf
    speed :=
      if bmcr &&& bmcrSpeed1000 ≠ 0 then speed1000
      else if bmcr &&& bmcrSpeed100 ≠ 0 then speed100 else speed10
    pause := 0, asymPause := 0 }
  return 0

/-- `genphy_read_status`. -/
def genphyReadStatus : Cmd (PhyWorld σ) CInt := do
  let err ← genphyUpdateLink
  if err ≠ 0 then
    return err
  if autonegEnable = (← getDev).autoneg then
    genphyReadNegotiated
  else
    genphyReadForced

/-- `genphy_driver`. -/
def genphyDriver : PhyDriver σ where
  features := phyBasicFeatures
  configInit := genphyConfigInit
  configAneg := genphyConfigAneg
  readStatus := genphyReadStatus

end EthPhy

end Hgsdk

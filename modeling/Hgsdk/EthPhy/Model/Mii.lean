import Hgsdk.Typesdef
/-!
# Registers and modes of an Ethernet PHY

The constants of `mii.h`, `ethtool.h` and `eth_phy.h` that the PHY
framework reads: register numbers, their bits, and the masks of link
modes.
-/

namespace Hgsdk

namespace EthPhy

/-! ### Register numbers -/

def miiBmcr : BitVec 16 := 0x00
def miiBmsr : BitVec 16 := 0x01
def miiPhysid1 : BitVec 16 := 0x02
def miiPhysid2 : BitVec 16 := 0x03
def miiAdvertise : BitVec 16 := 0x04
def miiLpa : BitVec 16 := 0x05
def miiCtrl1000 : BitVec 16 := 0x09
def miiStat1000 : BitVec 16 := 0x0a
def miiEstatus : BitVec 16 := 0x0f

/-! ### Basic mode control and status -/

def bmcrSpeed1000 : CInt := 0x0040
def bmcrFulldplx : CInt := 0x0100
def bmcrAnrestart : CInt := 0x0200
def bmcrIsolate : CInt := 0x0400
def bmcrAnenable : CInt := 0x1000
def bmcrSpeed100 : CInt := 0x2000

def bmsrLstatus : CInt := 0x0004
def bmsrAnegcapable : CInt := 0x0008
def bmsrAnegcomplete : CInt := 0x0020
def bmsrEstaten : CInt := 0x0100
def bmsr10Half : CInt := 0x0800
def bmsr10Full : CInt := 0x1000
def bmsr100Half : CInt := 0x2000
def bmsr100Full : CInt := 0x4000

def estatus1000Tfull : CInt := 0x2000
def estatus1000Thalf : CInt := 0x1000

/-! ### Advertisement and link partner ability -/

def advertise10Half : CInt := 0x0020
def advertise10Full : CInt := 0x0040
def advertise100Half : CInt := 0x0080
def advertise100Full : CInt := 0x0100
def advertise100Base4 : CInt := 0x0200
def advertisePauseCap : CInt := 0x0400
def advertisePauseAsym : CInt := 0x0800

/-- `ADVERTISE_ALL`: the four 10/100 abilities. -/
def advertiseAll : CInt :=
  advertise10Half ||| advertise10Full ||| advertise100Half ||| advertise100Full

def advertise1000Half : CInt := 0x0100
def advertise1000Full : CInt := 0x0200

def lpa10Half : CInt := 0x0020
def lpa10Full : CInt := 0x0040
def lpa100Half : CInt := 0x0080
def lpa100Full : CInt := 0x0100
def lpaPauseCap : CInt := 0x0400
def lpaPauseAsym : CInt := 0x0800
def lpa1000Half : CInt := 0x0400
def lpa1000Full : CInt := 0x0800

/-! ### Link modes

`SUPPORTED_x` and `ADVERTISED_x` are one numbering of the modes. -/

def supported10baseTHalf : BitVec 32 := 1 <<< 0
def supported10baseTFull : BitVec 32 := 1 <<< 1
def supported100baseTHalf : BitVec 32 := 1 <<< 2
def supported100baseTFull : BitVec 32 := 1 <<< 3
def supported1000baseTHalf : BitVec 32 := 1 <<< 4
def supported1000baseTFull : BitVec 32 := 1 <<< 5
def supportedAutoneg : BitVec 32 := 1 <<< 6
def supportedTp : BitVec 32 := 1 <<< 7
def supportedAui : BitVec 32 := 1 <<< 8
def supportedMii : BitVec 32 := 1 <<< 9
def supportedFibre : BitVec 32 := 1 <<< 10
def supportedBnc : BitVec 32 := 1 <<< 11

def advertised10baseTHalf : BitVec 32 := 1 <<< 0
def advertised10baseTFull : BitVec 32 := 1 <<< 1
def advertised100baseTHalf : BitVec 32 := 1 <<< 2
def advertised100baseTFull : BitVec 32 := 1 <<< 3
def advertisedPause : BitVec 32 := 1 <<< 13
def advertisedAsymPause : BitVec 32 := 1 <<< 14

/-- `PHY_BASIC_FEATURES`. -/
def phyBasicFeatures : BitVec 32 :=
  supported10baseTHalf ||| supported10baseTFull ||| supported100baseTHalf |||
    supported100baseTFull ||| supportedAutoneg ||| supportedTp ||| supportedMii

def speed10 : BitVec 16 := 10
def speed100 : BitVec 16 := 100
def speed1000 : BitVec 16 := 1000

def duplexHalf : BitVec 16 := 0
def duplexFull : BitVec 16 := 1

def autonegDisable : BitVec 32 := 0
def autonegEnable : BitVec 32 := 1

/-- `PHY_ADAPTIVE_ADDR`, −1 in an `int16`: search the bus. -/
def phyAdaptiveAddr : BitVec 16 := -1

/-- `PHY_MAX_ADDR`. -/
def phyMaxAddr : ℕ := 32

end EthPhy

end Hgsdk

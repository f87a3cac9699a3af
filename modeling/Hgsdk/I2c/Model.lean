import Hgsdk.Common.Machine
import Hgsdk.Typesdef
/-!
# Writing over I²C

`hgi2c_dw_write` of `hgi2c_dw.c`. The driver stores commands to `DATA_CMD`,
which are put into a FIFO of the controller, and the bus takes them out at
its own pace. A store to a full FIFO is lost. The stores of the address are
not preceded by a look at the FIFO, those of the data are; and a byte of the
data is a signed char, so a negative one is stored with all upper bits set.
-/

namespace Hgsdk

namespace I2c

/-! ### `DATA_CMD` -/

/-- `DW_IIC_DATA_CMD_RESTART`. -/
def dataCmdRestart : BitVec 32 := 1 <<< 10

/-- `DW_IIC_DATA_CMD_STOP`. -/
def dataCmdStop : BitVec 32 := 1 <<< 9

/-- An `int8` as an `int`. -/
def promote (b : Byte) : BitVec 32 := b.signExtend 32

/-- `DW_IIC_DATA_CMD_DAT`. -/
def dataCmdDat (b : Byte) : BitVec 32 := promote b &&& 0xFF

/-- What an entry of the FIFO tells the controller to do. -/
structure Entry where
  data : Byte
  read : Bool
  stop : Bool
  restart : Bool
  deriving DecidableEq, Repr

/-- An entry by its bits. -/
def decode (word : BitVec 32) : Entry :=
  ⟨word.setWidth 8, word.getLsbD 8, word.getLsbD 9, word.getLsbD 10⟩

/-! ### The driver and the controller -/

/-- Where `hgi2c_dw_write` is, with the bytes it has still to store. -/
inductive Phase
  /-- Storing the address; `first` before the first byte of it. -/
  | addr (first : Bool) (rest data : List Byte)
  /-- Storing the data; `ready` once the FIFO was seen not full. -/
  | data (ready : Bool) (rest : List Byte)
  /-- `while(!DW_IIC_GET_STATUS_TX_FIFO_EMPTY(dev->hw))`. -/
  | waitEmpty
  /-- The last loop. -/
  | waitStop
  | done (ret : CInt)
  deriving DecidableEq, Repr

/-- The driver, the FIFO, the entries accepted so far, oldest first, and
the two interrupt bits. -/
structure Transfer where
  phase : Phase
  fifo : List (BitVec 32)
  accepted : List (BitVec 32)
  txAbrt : Bool
  stopDet : Bool
  deriving DecidableEq, Repr

/-- A store to `DATA_CMD`, with a FIFO of depth `D`. -/
def Transfer.store (D : ℕ) (s : Transfer) (word : BitVec 32) : Transfer :=
  if s.fifo.length < D then
    { s with fifo := s.fifo ++ [word], accepted := s.accepted ++ [word] }
  else s

/-- What is stored for a byte of the address. -/
def addrWord (first : Bool) (a : Byte) : BitVec 32 :=
  if first then dataCmdRestart ||| dataCmdDat a else dataCmdDat a

/-- `DW_IIC_TIMING_WRITE`, and `DW_IIC_TIMING_WRITE_STOP` for the last. -/
def dataWord (b : Byte) (rest : List Byte) : BitVec 32 :=
  if rest = [] then promote b ||| dataCmdStop else promote b

/-- After a byte of the address. -/
def afterAddr (rest data : List Byte) : Phase :=
  if rest = [] then .data false data else .addr false rest data

/-- After a byte of the data. -/
def afterData (rest : List Byte) : Phase := if rest = [] then .waitEmpty else .data false rest

/-- The entry of `hgi2c_dw_write`. -/
def hgi2cDwWrite (opened : BitVec 32) (addrBuf buf : List Byte) : Phase :=
  if opened = 0 then .done retErr
  else if buf = [] ∨ addrBuf = [] then .done retOk
  else .addr true addrBuf buf

/-- One access of the driver to the controller. -/
def Transfer.driver (D : ℕ) (s : Transfer) : Option Transfer :=
  match s.phase with
  | .addr first (a :: rest) data =>
    some { s.store D (addrWord first a) with phase := afterAddr rest data }
  | .data false rest =>
    some (if s.fifo.length < D then { s with phase := .data true rest } else s)
  | .data true (b :: rest) => some { s.store D (dataWord b rest) with phase := afterData rest }
  | .waitEmpty => some (if s.fifo = [] then { s with phase := .waitStop } else s)
  | .waitStop =>
    some (if s.txAbrt then { s with phase := .done retErr }
      else if s.stopDet then { s with phase := .done retOk } else s)
  | .addr _ [] _ | .data true [] | .done _ => none

/-- Who moves: the driver, the bus taking an entry, or the controller
raising one of its interrupt bits. -/
inductive Move
  | driver
  | drain
  | txAbrt
  | stopDet
  deriving DecidableEq, Repr

/-- **The driver and the controller.** -/
def machine (D : ℕ) : Machine Transfer Move where
  step s
    | .driver => s.driver D
    | .drain =>
      match s.fifo with
      | [] => none
      | _ :: fifo => some { s with fifo }
    | .txAbrt => some { s with txAbrt := true }
    | .stopDet => some { s with stopDet := true }

/-- The call, with an empty FIFO and whatever the interrupt bits are. -/
def begin (opened : BitVec 32) (addrBuf buf : List Byte) (txAbrt stopDet : Bool) : Transfer :=
  ⟨hgi2cDwWrite opened addrBuf buf, [], [], txAbrt, stopDet⟩

/-! ### What the caller asks for -/

/-- The bytes of the address, with a RESTART on the first. -/
def addrEntries : List Byte → List Entry
  | [] => []
  | a :: rest => ⟨a, false, false, true⟩ :: rest.map fun a => ⟨a, false, false, false⟩

/-- The bytes of the data, with a STOP on the last. -/
def dataEntries : List Byte → List Entry
  | [] => []
  | b :: rest => ⟨b, false, decide (rest = []), false⟩ :: dataEntries rest

end I2c

end Hgsdk

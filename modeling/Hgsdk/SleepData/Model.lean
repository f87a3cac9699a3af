import Hgsdk.Common.Machine
import Hgsdk.Common.Memory
import Hgsdk.Typesdef
/-!
# The deep-sleep data area

`dsleepdata.c`. The memory from `__sleep_data` to `__text_start` survives
deep sleep. A header of eight words at its start holds two magic words, a
bump pointer and the region handed out to each client; the regions follow.
Interrupts are off throughout each function, so a call is one step.
-/

namespace Hgsdk

namespace SleepData

open Memory

/-- `SYSTEM_SLEEPDATA_ID_MAX`. -/
def sleepdataIdMax : ℕ := 5

/-- `sizeof(struct system_sleepdata)`. -/
def headerSize : ℕ := 32

/-- The two symbols of the linker script. The header fits between them. -/
structure Layout where
  sleepData : BitVec 32
  textStart : BitVec 32
  header_fits : sleepData.toNat + headerSize ≤ textStart.toNat

variable (L : Layout)

/-! ### The fields of `struct system_sleepdata` -/

/-- The address of the `k`-th word of the header. -/
def Layout.word (k : ℕ) : BitVec 32 := L.sleepData + BitVec.ofNat 32 (4 * k)

def Layout.magic1 : BitVec 32 := L.word 0

def Layout.curAddr : BitVec 32 := L.word 1

def Layout.region (id : ℕ) : BitVec 32 := L.word (2 + id)

def Layout.magic2 : BitVec 32 := L.word 7

/-- Both magic words are in place. -/
def Layout.Ready (m : Memory) : Prop :=
  load32 m L.magic1 = 0x1A2B3C4D ∧ load32 m L.magic2 = 0xD4C3B2A1

instance (m : Memory) : Decidable (L.Ready m) := inferInstanceAs (Decidable (_ ∧ _))

/-- The first part of every call: a header without its magic words is
written anew. -/
def initHeader (m : Memory) : Memory :=
  if L.Ready m then m
  else
    let m := fill m L.sleepData headerSize 0
    let m := store32 m L.magic1 0x1A2B3C4D
    let m := store32 m L.magic2 0xD4C3B2A1
    store32 m L.curAddr (L.sleepData + BitVec.ofNat 32 headerSize)

/-- Hand the next `size` bytes to a client. The source reads `cur_addr`
from memory each time. -/
def takeRegion (id : ℕ) (size : BitVec 32) (m : Memory) : Memory :=
  let m := fill m (load32 m L.curAddr) size.toNat 0
  let m := store32 m (L.region id) (load32 m L.curAddr)
  store32 m L.curAddr (load32 m L.curAddr + size)

/-- `system_sleepdata_request`: the pointer returned, 0 for NULL, and the
memory after. -/
def systemSleepdataRequest (id : Byte) (size : BitVec 32) (m : Memory) : BitVec 32 × Memory :=
  let size := align size 4
  let m := initHeader L m
  if id.toNat < sleepdataIdMax then
    let m :=
      if load32 m (L.region id.toNat) = 0 ∧ load32 m L.curAddr + size < L.textStart then
        takeRegion L id.toNat size m
      else m
    (load32 m (L.region id.toNat), m)
  else (0, m)

/-- `system_sleepdata_reset`. -/
def systemSleepdataReset (m : Memory) : Memory := store32 m L.sleepData 0

/-- `system_sleepdata_freesize`. -/
def systemSleepdataFreesize (m : Memory) : BitVec 32 × Memory :=
  let m := initHeader L m
  (L.textStart - load32 m L.curAddr, m)

/-! ### Runs -/

/-- A pointer handed out: to whom, for a request of which size. -/
structure Grant where
  id : Byte
  size : BitVec 32
  ptr : BitVec 32
  deriving DecidableEq, Repr

/-- The memory, and the pointers handed out since the last reset. -/
structure State where
  mem : Memory
  granted : List Grant

/-- A call of one of the three functions. -/
inductive Call
  | request (id : Byte) (size : BitVec 32)
  | reset
  | freesize
  deriving DecidableEq, Repr

def State.request (s : State) (id : Byte) (size : BitVec 32) : State :=
  let r := systemSleepdataRequest L id size s.mem
  { mem := r.2
    granted := if r.1 = 0 then s.granted else ⟨id, size, r.1⟩ :: s.granted }

/-- Calls in any order. -/
def sleepdata : Machine State Call where
  step s
    | .request id size => some (s.request L id size)
    | .reset => some { mem := systemSleepdataReset L s.mem, granted := [] }
    | .freesize => some { s with mem := (systemSleepdataFreesize L s.mem).2 }

end SleepData

end Hgsdk

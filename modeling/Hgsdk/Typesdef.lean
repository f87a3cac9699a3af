import Hgsdk.Common.Word
/-!
# The SDK's own types and return codes

`typesdef.h` and `errno.h`: the return codes every driver uses, and the
`ALIGN` macro.
-/

namespace Hgsdk

/-- `RET_OK`. -/
def retOk : CInt := 0

/-- `RET_ERR`. -/
def retErr : CInt := -1

/-- `ENOMEM`, returned negated. -/
def eNomem : CInt := 12

/-- `EBUSY`, returned negated. -/
def eBusy : CInt := 16

/-- `EEXIST`, returned negated. -/
def eExist : CInt := 17

/-- `EINVAL`, returned negated. -/
def eInval : CInt := 22

/-- `ENONET`, returned negated. -/
def eNonet : CInt := 64

/-- `ENOTSUPP`, returned negated. -/
def eNotsupp : CInt := 524

/-- `MAX_ERRNO`. -/
def maxErrno : CInt := 4095

/-- `ALIGN(s, a)`: up to a multiple of `a`, a power of two. The sum may
wrap. -/
def align (s a : BitVec 32) : BitVec 32 := (s + a - 1) &&& ~~~(a - 1)

/-- Four-byte alignment of a size that does not wrap. -/
theorem align_four_toNat {s : BitVec 32} (h : s.toNat + 3 < 2 ^ 32) :
    (align s 4).toNat = (s.toNat + 3) / 4 * 4 := by
  have hsum : (s + 4 - 1).toNat = s.toNat + 3 := by
    rw [BitVec.toNat_sub, BitVec.toNat_add]
    have h4 : (4 : BitVec 32).toNat = 4 := rfl
    have h1 : (1 : BitVec 32).toNat = 1 := rfl
    omega
  have hand : align s 4 = (s + 4 - 1) &&& ~~~3#32 := rfl
  rw [hand, and_not_three_toNat, hsum]

end Hgsdk

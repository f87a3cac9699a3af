import Hgsdk.Common.Machine
import Hgsdk.Typesdef
import Mathlib.Data.Fintype.Basic
import Mathlib.Data.List.FinRange
/-!
# Driver commands

`lib/common/drivercmd.c`: a table of eight handlers, each with a word of
its own. A command is offered to the handlers in the order of their slots
until one of them answers.

`driver_cmd_hdl_register` takes the first free slot before it has seen
whether the handler is in the table already. If it finds it further on, it
clears that slot, and so the handler moves forward.
-/

namespace Hgsdk

namespace DriverCmd

/-- `struct driver_cmd_hook`; `hdl` may be null. -/
structure Hook (H : Type) where
  priv : BitVec 32
  hdl : Option H
  deriving DecidableEq

/-- The slots, `DRIVER_CMD_HOOK_MAX` of them. -/
abbrev Slot := Fin 8

/-- `drv_hook_mgr`. -/
abbrev Table (H : Type) := Slot → Hook H

variable {H : Type}

/-- A slot with nothing in it. -/
def Hook.empty : Hook H := ⟨0, none⟩

/-- A slot that `driver_cmd_hdl_register` would take. -/
def Hook.Free (k : Hook H) : Prop := k.hdl = none ∧ k.priv = 0

/-- A slot with this handler and this word. -/
def Hook.Is (k : Hook H) (hdl : H) (data : BitVec 32) : Prop := k.hdl = some hdl ∧ k.priv = data

section Decide

variable [DecidableEq H]

instance (k : Hook H) : Decidable k.Free := inferInstanceAs (Decidable (_ ∧ _))

instance (k : Hook H) (hdl : H) (data : BitVec 32) : Decidable (k.Is hdl data) :=
  inferInstanceAs (Decidable (_ ∧ _))

end Decide

/-- `drv_hook_mgr` at the start. -/
def Table.zero : Table H := fun _ => .empty

variable [DecidableEq H]

/-! ### Registration -/

/-- The loop of `driver_cmd_hdl_register`; `hold` is the slot it took. -/
def registerLoop (hdl : H) (data : BitVec 32) :
    List Slot → (hold : Option Slot) → Table H → CInt × Table H
  | [], hold, t => (if hold = none then -eNomem else 0, t)
  | i :: is, hold, t =>
    if (t i).Is hdl data then
      (-eExist, if hold ≠ none then Function.update t i .empty else t)
    else if (t i).Free ∧ hold = none then
      registerLoop hdl data is (some i) (Function.update t i ⟨data, some hdl⟩)
    else registerLoop hdl data is hold t

/-- `driver_cmd_hdl_register`. -/
def driverCmdHdlRegister (t : Table H) (hdl : Option H) (data : BitVec 32) : CInt × Table H :=
  match hdl with
  | none => (-eInval, t)
  | some hdl => registerLoop hdl data (List.finRange 8) none t

/-- The loop of `driver_cmd_hdl_unregister`. -/
def unregisterLoop (hdl : H) (t : Table H) : List Slot → CInt × Table H
  | [] => (-eInval, t)
  | i :: is =>
    if (t i).hdl = some hdl then (0, Function.update t i .empty) else unregisterLoop hdl t is

/-- `driver_cmd_hdl_unregister`. -/
def driverCmdHdlUnregister (t : Table H) (hdl : Option H) : CInt × Table H :=
  match hdl with
  | none => (-eInval, t)
  | some hdl => unregisterLoop hdl t (List.finRange 8)

/-- A call. -/
inductive Call (H : Type) where
  | register (hdl : Option H) (data : BitVec 32)
  | unregister (hdl : Option H)

/-- **The table**, call after call. -/
def hooks : Machine (Table H) (Call H) where
  step t
    | .register hdl data => some (driverCmdHdlRegister t hdl data).2
    | .unregister hdl => some (driverCmdHdlUnregister t hdl).2

/-! ### Dispatch -/

/-- `struct driver_cmd_param`, what a handler is asked. -/
structure DriverCmdParam where
  cmd : BitVec 32
  data : List Byte

/-- What the handlers answer. A handler may depend on what was called
before it. -/
abbrev Answers (H : Type) := List (H × BitVec 32) → H → BitVec 32 → DriverCmdParam → CInt

omit [DecidableEq H]

/-- The loop of `driver_cmd_hdl_proc`: what it returns, and whom it has
called. -/
def procLoop (answers : Answers H) (t : Table H) (param : Option DriverCmdParam) :
    List Slot → (ret : CInt) → List (H × BitVec 32) → CInt × List (H × BitVec 32)
  | [], ret, called => (ret, called)
  | i :: is, ret, called =>
    match (t i).hdl, param with
    | some hdl, some param =>
      let ret := answers called hdl (t i).priv param
      let called := called ++ [(hdl, (t i).priv)]
      if ret ≠ -maxErrno then (ret, called) else procLoop answers t (some param) is ret called
    | _, param =>
      if ret ≠ -maxErrno then (ret, called) else procLoop answers t param is ret called

/-- `driver_cmd_hdl_proc`. -/
def driverCmdHdlProc (answers : Answers H) (t : Table H) (param : Option DriverCmdParam) :
    CInt × List (H × BitVec 32) :=
  procLoop answers t param (List.finRange 8) (-maxErrno) []

end DriverCmd

end Hgsdk

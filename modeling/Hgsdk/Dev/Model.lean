import Hgsdk.Common.Command
import Hgsdk.Common.Ring
import Hgsdk.Typesdef
/-!
# The device manager

`lib/common/dev.c`: drivers register their device objects under an id, and
everyone else finds them by it. The manager keeps the objects on a doubly
linked list (`list.h`) through a node embedded in each; the id is a field
of the object, next to the node.

An object is named by its address `D`, and its contents are part of the
state whether it is on the list or not. A pointer that is followed while
null stops the program, and so does a walk that never comes back to the
list head: the command does not return.

`findDev`, `listAddTail` and `listDel` are what runs under the mutex.
-/

namespace Hgsdk

namespace Dev

/-- What carries a list node: the manager's head and every object. -/
inductive Node (D : Type) where
  | head
  | dev (d : D)
  deriving DecidableEq, Repr

/-- `s_dev_mgr`, with the contents of the device objects. -/
structure DevMgr (D : Type) where
  /-- The list nodes: `head`, and `list` of every object. -/
  links : Links (Node D)
  /-- `dev_id` of every object. -/
  devId : D → BitVec 32
  inited : Bool

variable {D : Type} [DecidableEq D]

/-- The test of the loop in `dev_get`. -/
def hasDevId (ids : D → BitVec 32) (devId : BitVec 32) : Node D → Bool
  | .head => false
  | .dev d => ids d == devId

/-- `list_entry`: the object around a node. -/
def listEntry : Node D → Option D
  | .head => none
  | .dev d => some d

/-- `INIT_LIST_HEAD(&s_dev_mgr.head)`. -/
def initListHead : Cmd (DevMgr D) Unit :=
  modify fun s => { s with links := (s.links.setNext .head (some .head)).setPrev .head (some .head) }

/-- `list_add_tail(&device->list, &s_dev_mgr.head)`. -/
def listAddTail (device : D) : Cmd (DevMgr D) Unit := do
  let s ← get
  let prev ← Cmd.deref (s.links.prev .head)
  set { s with links := s.links.insertBetween (.dev device) prev .head }

/-- `list_del(&dev->list)`. -/
def listDel (dev : D) : Cmd (DevMgr D) Unit := do
  let s ← get
  let prev ← Cmd.deref (s.links.prev (.dev dev))
  let next ← Cmd.deref (s.links.next (.dev dev))
  set { s with links := s.links.unlink (.dev dev) prev next }

/-- The loop of `dev_get`. -/
def findDev (devId : BitVec 32) : Cmd (DevMgr D) (Option D) := do
  let s ← get
  let pos ← Cmd.deref (s.links.scan .head (hasDevId s.devId devId) (s.links.next .head))
  return pos.bind listEntry

/-- `device->dev_id = dev_id`. -/
def setDevId (device : D) (devId : BitVec 32) : Cmd (DevMgr D) Unit :=
  modify fun s => { s with devId := Function.update s.devId device devId }

def devInit : Cmd (DevMgr D) CInt := do
  initListHead
  modify fun s => { s with inited := true }
  return retOk

def devGet (devId : BitVec 32) : Cmd (DevMgr D) (Option D) := do
  if !(← get).inited then
    return none
  findDev devId

/-- A null `device` is `none`. -/
def devRegister (devId : BitVec 32) (device : Option D) : Cmd (DevMgr D) CInt := do
  if !(← get).inited then
    return retErr
  match device with
  | none => return retErr
  | some device =>
    match ← devGet devId with
    | some _ => return -eExist
    | none =>
      setDevId device devId
      listAddTail device
      return retOk

/-- The object taken off the list is the one found under the id, whichever
that is. -/
def devUnregister (device : Option D) : Cmd (DevMgr D) CInt := do
  if !(← get).inited then
    return retErr
  match device with
  | none => return retErr
  | some device =>
    match ← devGet ((← get).devId device) with
    | some dev =>
      listDel dev
      return retOk
    | none => return retOk

end Dev

end Hgsdk

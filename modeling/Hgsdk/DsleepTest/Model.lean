import Hgsdk.Common.Machine
import Hgsdk.Common.Overlay
import Hgsdk.Typesdef
/-!
# The deep-sleep test

`dsleep_test.c`. A task talks to a server over UDP: the server asks it to
go to sleep, it sends a heartbeat, and when the server answers that, it
issues `AT+DSLEEP=1`. Every datagram is received into the same buffer, which
is never cleared. `udp_kalive_detect_module` returns 1, so the loop is never
left.
-/

namespace Hgsdk

namespace DsleepTest

/-! ### The texts -/

/-- `"UALIVE:"`. -/
def ualive : List Byte := [0x55, 0x41, 0x4c, 0x49, 0x56, 0x45, 0x3a]

/-- `UDP_KALIVE_HEARTBEAT_DATA` and `UDP_KALIVE_HEARTBEAT_RESP_DATA`:
`"UALIVE:HB"`. -/
def udpKaliveHeartbeat : List Byte := ualive ++ [0x48, 0x42]

/-- `UDP_KALIVE_ONLINE`: `"UALIVE:OL"`. -/
def udpKaliveOnline : List Byte := ualive ++ [0x4f, 0x4c]

/-- `UDP_KALIVE_TESTDATA`: `"UALIVE:TD"`. -/
def udpKaliveTestdata : List Byte := ualive ++ [0x54, 0x44]

/-- `UDP_KALIVE_GOTOSLEEP`: `"UALIVE:GS"`. -/
def udpKaliveGotosleep : List Byte := ualive ++ [0x47, 0x53]

/-- `"AT+DSLEEP=1"`. -/
def atDsleep : List Byte := [0x41, 0x54, 0x2b, 0x44, 0x53, 0x4c, 0x45, 0x45, 0x50, 0x3d, 0x31]

/-- A string literal in memory, with its terminator. -/
def cstr (text : List Byte) (i : ℕ) : Byte := text.getD i 0

/-- `strncmp(s, t, n) == 0`, from position `i` on. -/
def strncmpZero (s t : ℕ → Byte) (i : ℕ) : ℕ → Bool
  | 0 => true
  | n + 1 => if s i ≠ t i then false else if s i = 0 then true else strncmpZero s t (i + 1) n

/-- `memcmp(s, t, n) == 0`. -/
def memcmpZero (s t : ℕ → Byte) (n : ℕ) : Bool := (List.range n).all fun i => s i == t i

/-- `UALIVE_FRM(d, s)`. -/
def ualiveFrm (d : ℕ → Byte) (text : List Byte) : Bool := memcmpZero d (cstr text) 9

/-! ### The task -/

/-- What does not change: the MAC address as text, the port of the server
and the heartbeat interval. -/
structure Config where
  id : List Byte
  port : CInt
  hb : CInt

/-- What the task does to the outside. -/
inductive Output
  /-- A datagram to a port of the server. -/
  | send (port : BitVec 16) (data : List Byte)
  /-- `atcmd_recv`. -/
  | atcmd (cmd : List Byte)
  deriving DecidableEq, Repr

/-- A datagram that fits the buffer with a terminator after it. -/
structure Datagram where
  data : List Byte
  pos : 0 < data.length
  fits : data.length < 2048

/-- One turn of the loop: the datagram received, or none within the timeout,
and what `os_jiffies` returns to the test and to the assignment after it. -/
structure Turn where
  received : Option Datagram
  now : BitVec 32
  later : BitVec 32

/-- The receive buffer, the locals of `dsleep_test`, and what it has done so
far, oldest first. -/
structure Kalive where
  recvbuf : ℕ → Byte
  sleepStatus : CInt
  tickSec : CInt
  svrAlive : CInt
  out : List Output

/-- `"%d"`. -/
def decimal (n : CInt) : List Byte :=
  (toString n.toInt).toList.map fun c => BitVec.ofNat 8 c.toNat

/-- One `if(param) sprintf(data + len, ",%d", param)`. -/
def devParam (param : CInt) : List Byte := if param ≠ 0 then 0x2c :: decimal param else []

variable (cfg : Config)

namespace Kalive

variable (s : Kalive)

def put (o : Output) : Kalive := { s with out := s.out ++ [o] }

/-- `udp_kalive_dev_send`: `action-id`, and the parameters that are not
zero. -/
def udpKaliveDevSend (action : List Byte) (param1 param2 param3 : CInt) : Kalive :=
  s.put (.send (cfg.port.setWidth 16) (action ++ 0x2d :: cfg.id ++ devParam param1 ++
    devParam param2 ++ devParam param3))

/-- `udp_kalive_send_hearbeat`. -/
def udpKaliveSendHearbeat : Kalive := s.udpKaliveDevSend cfg udpKaliveHeartbeat cfg.hb 0 0

/-- `udp_kalive_send_online`. -/
def udpKaliveSendOnline : Kalive := s.udpKaliveDevSend cfg udpKaliveOnline 0 0 0

/-- `udp_kalive_send_testdata`: the 1400 bytes of `testdata`, of which
`dsleep_test` has written the first, to the next port. -/
def udpKaliveSendTestdata : Kalive :=
  s.put (.send ((cfg.port + 1).setWidth 16)
    ((udpKaliveTestdata ++ 0x2d :: cfg.id).rightpad 1400 0))

/-- `atcmd_recv((uint8 *)"AT+DSLEEP=1", ..)`. -/
def atcmdRecvDsleep : Kalive := s.put (.atcmd atDsleep)

end Kalive

/-- The three branches a frame can take. -/
inductive Branch
  | gotosleep
  | heartbeat
  | online
  deriving DecidableEq, Repr

/-- Which branch the frame in the buffer takes. -/
def frmBranch (recvbuf : ℕ → Byte) (sleepStatus : CInt) : Option Branch :=
  if ualiveFrm recvbuf udpKaliveGotosleep then some .gotosleep
  else if ualiveFrm recvbuf udpKaliveHeartbeat ∧ sleepStatus = 1 then some .heartbeat
  else if ualiveFrm recvbuf udpKaliveOnline then some .online
  else none

/-- What a branch does. -/
def Kalive.take (s : Kalive) : Branch → Kalive
  | .gotosleep => { s with sleepStatus := 1 }.udpKaliveSendHearbeat cfg
  | .heartbeat => { s with sleepStatus := 2 }.atcmdRecvDsleep
  | .online => { s with svrAlive := 10 }

/-- The frame in the buffer takes its branch. -/
def Kalive.frm (s : Kalive) : Kalive :=
  match frmBranch s.recvbuf s.sleepStatus with
  | some b => s.take cfg b
  | none => s

/-- What the loop does once a second. -/
def Kalive.tick (s : Kalive) : Kalive :=
  if s.sleepStatus = 1 then s.udpKaliveSendHearbeat cfg
  else if s.sleepStatus = 2 then s.atcmdRecvDsleep
  else if s.sleepStatus = 0 then
    let s := s.udpKaliveSendOnline cfg
    if (0 : CInt).slt s.svrAlive then { s with svrAlive := s.svrAlive - 1 } else s
  else s

/-- `if (os_jiffies() - tick_sec >= 1000)`: the difference is an `unsigned
int`. -/
def Kalive.everySecond (s : Kalive) (t : Turn) : Kalive :=
  if 1000 ≤ t.now - s.tickSec then { s with tickSec := t.later }.tick cfg else s

/-- `if (!sleep_status && svr_alive)`. -/
def Kalive.testTraffic (s : Kalive) : Kalive :=
  if s.sleepStatus = 0 ∧ s.svrAlive ≠ 0 then
    (List.range 40).foldl (fun s _ => s.udpKaliveSendTestdata cfg) s
  else s

/-- The other half of the loop: no frame was received. -/
def Kalive.idle (s : Kalive) (t : Turn) : Kalive := (s.everySecond cfg t).testTraffic cfg

/-- The buffer after `udp_kalive_recv`. -/
def receive (recvbuf : ℕ → Byte) (d : Datagram) : ℕ → Byte :=
  overlay (fun _ v => v) recvbuf 0 d.data

/-- `strncmp(recvbuf, "UALIVE:", 7) == 0`. -/
def isUalive (recvbuf : ℕ → Byte) : Bool := strncmpZero recvbuf (cstr ualive) 0 7

/-- `recvbuf[ret] = 0`. -/
def terminate (recvbuf : ℕ → Byte) (d : Datagram) : ℕ → Byte :=
  Function.update recvbuf d.data.length 0

/-- One turn of the loop of `dsleep_test`. -/
def Kalive.turn (s : Kalive) (t : Turn) : Kalive :=
  match t.received with
  | some d =>
    let recvbuf := receive s.recvbuf d
    if isUalive recvbuf then { s with recvbuf := terminate recvbuf d }.frm cfg
    else { s with recvbuf := recvbuf }.idle cfg t
  | none => s.idle cfg t

/-- What `dsleep_test` has done when it enters the loop, with whatever the
buffer holds and the tick it reads. -/
def start (recvbuf : ℕ → Byte) (tick : BitVec 32) : Kalive :=
  let s : Kalive := { recvbuf, sleepStatus := 0, tickSec := tick, svrAlive := 0, out := [] }
  (s.udpKaliveSendOnline cfg).udpKaliveSendOnline cfg

/-- **The loop.** -/
def dsleepTest : Machine Kalive Turn where
  step s t := some (s.turn cfg t)

end DsleepTest

end Hgsdk

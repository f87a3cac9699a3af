import Hgsdk.DsleepTest.Model
/-!
# Deep sleep only after the hand-shake

The buffer is compared over nine bytes whatever the length of the datagram.
The terminator written before the comparisons is what makes this right: it
cuts off what an earlier datagram has left behind, so a frame is recognised
exactly where the datagram itself begins with it. The rest is a matter of
what was received when.
-/

namespace Hgsdk

namespace DsleepTest

variable {cfg : Config} {s : Kalive} {d : Datagram} {recvbuf : ℕ → Byte} {text : List Byte}

/-! ### Recognising a frame -/

theorem memcmpZero_iff {s t : ℕ → Byte} {n : ℕ} :
    memcmpZero s t n = true ↔ ∀ i < n, s i = t i := by
  simp [memcmpZero]

theorem strncmpZero_of_eq {s t : ℕ → Byte} {i n : ℕ} (h : ∀ j, i ≤ j → j < i + n → s j = t j) :
    strncmpZero s t i n = true := by
  induction n generalizing i with
  | zero => rfl
  | succ n ih =>
    have hi : s i = t i := h i (Nat.le_refl i) (by omega)
    rw [strncmpZero, if_neg (not_not.2 hi)]
    split
    · rfl
    · exact ih fun j hj hlt => h j (by omega) (by omega)

/-- Inside the datagram the buffer holds the datagram. -/
theorem receive_of_lt {i : ℕ} (hi : i < d.data.length) : receive recvbuf d i = d.data[i] := by
  have hcell := overlay_of_getElem? (f := fun _ v => v) (m := recvbuf) (a := 0)
    (List.getElem?_eq_getElem hi)
  rwa [Nat.zero_add] at hcell

theorem cstr_of_lt {i : ℕ} (hi : i < text.length) : cstr text i = text[i] := by
  rw [cstr, List.getD_eq_getElem?_getD, List.getElem?_eq_getElem hi, Option.getD_some]

/-- **A frame is recognised** exactly where the datagram begins with it: the
nine bytes of the text are not zero, so a shorter datagram differs from it
at its terminator. -/
theorem ualiveFrm_terminate (hlen : text.length = 9) (hnz : ∀ b ∈ text, b ≠ 0) :
    ualiveFrm (terminate (receive recvbuf d) d) text = true ↔ text <+: d.data := by
  rw [ualiveFrm, memcmpZero_iff]
  constructor
  · intro heq
    have hlong : 9 ≤ d.data.length := by
      by_contra hshort
      have hlt : d.data.length < text.length := by omega
      have hend := heq d.data.length (by omega)
      rw [terminate, Function.update_self, cstr_of_lt hlt] at hend
      exact hnz _ (List.getElem_mem hlt) hend.symm
    refine List.prefix_iff_eq_take.2 (List.ext_getElem ?_ fun i hi hi' => ?_)
    · rw [List.length_take]
      omega
    · have hcell := heq i (by omega)
      rw [terminate, Function.update_of_ne (by omega), receive_of_lt (by omega),
        cstr_of_lt hi] at hcell
      rw [List.getElem_take]
      exact hcell.symm
  · rintro ⟨rest, hrest⟩ i hi
    have hlong : text.length ≤ d.data.length := by
      rw [← hrest, List.length_append]
      omega
    rw [terminate, Function.update_of_ne (by omega), receive_of_lt (by omega),
      cstr_of_lt (by omega)]
    simp only [← hrest]
    exact List.getElem_append_left (by omega)

/-- A datagram that begins with a frame has passed the test before. -/
theorem isUalive_receive (h : ualive <+: d.data) : isUalive (receive recvbuf d) = true := by
  obtain ⟨rest, hrest⟩ := h
  have hlong : 7 ≤ d.data.length := by
    rw [← hrest, List.length_append]
    exact Nat.le_add_right 7 _
  refine strncmpZero_of_eq fun i _ hi => ?_
  have hi7 : i < ualive.length := by
    have hualive : ualive.length = 7 := rfl
    omega
  rw [receive_of_lt (by omega), cstr_of_lt hi7]
  simp only [← hrest]
  exact List.getElem_append_left hi7

/-- **What a datagram asks for**, by its own bytes. -/
def branchOf (sleepStatus : CInt) (data : List Byte) : Option Branch :=
  if udpKaliveGotosleep <+: data then some .gotosleep
  else if udpKaliveHeartbeat <+: data ∧ sleepStatus = 1 then some .heartbeat
  else if udpKaliveOnline <+: data then some .online
  else none

/-- **The branch taken is the one asked for**, whatever was in the buffer. -/
theorem frmBranch_terminate (sleepStatus : CInt) :
    frmBranch (terminate (receive recvbuf d) d) sleepStatus = branchOf sleepStatus d.data := by
  have hgs : ualiveFrm (terminate (receive recvbuf d) d) udpKaliveGotosleep = true ↔
    udpKaliveGotosleep <+: d.data := ualiveFrm_terminate rfl (by decide)
  have hhb : ualiveFrm (terminate (receive recvbuf d) d) udpKaliveHeartbeat = true ↔
    udpKaliveHeartbeat <+: d.data := ualiveFrm_terminate rfl (by decide)
  have hol : ualiveFrm (terminate (receive recvbuf d) d) udpKaliveOnline = true ↔
    udpKaliveOnline <+: d.data := ualiveFrm_terminate rfl (by decide)
  simp only [frmBranch, branchOf, hgs, hhb, hol]

/-- A datagram that does not even begin with the common part asks for
nothing. -/
theorem branchOf_of_not_isUalive {sleepStatus : CInt}
    (hnot : ¬ isUalive (receive recvbuf d) = true) : branchOf sleepStatus d.data = none := by
  have hnone : ∀ text, ualive <+: text → ¬ text <+: d.data := fun text htext h =>
    hnot (isUalive_receive (htext.trans h))
  have hgs : ¬ udpKaliveGotosleep <+: d.data := hnone _ (List.prefix_append _ _)
  have hhb : ¬ udpKaliveHeartbeat <+: d.data := hnone _ (List.prefix_append _ _)
  have hol : ¬ udpKaliveOnline <+: d.data := hnone _ (List.prefix_append _ _)
  rw [branchOf, if_neg hgs, if_neg fun h => hhb h.1, if_neg hol]

/-- What is left of a turn whose datagram takes no branch: one that passes the
first test leaves its terminator, another is as good as none. -/
def Kalive.pass (cfg : Config) (s : Kalive) (t : Turn) (d : Datagram) : Kalive :=
  if isUalive (receive s.recvbuf d) then
    { s with recvbuf := terminate (receive s.recvbuf d) d }
  else { s with recvbuf := receive s.recvbuf d }.idle cfg t

/-- **A turn with a datagram**, by the branch the datagram asks for. -/
theorem turn_eq_branchOf {t : Turn} (hd : t.received = some d) :
    s.turn cfg t = (branchOf s.sleepStatus d.data).elim (s.pass cfg t d) fun b =>
      { s with recvbuf := terminate (receive s.recvbuf d) d }.take cfg b := by
  rw [Kalive.turn, hd]
  dsimp only
  by_cases hualive : isUalive (receive s.recvbuf d) = true
  · rw [if_pos hualive, Kalive.frm, Kalive.pass, if_pos hualive]
    dsimp only
    rw [frmBranch_terminate]
    cases branchOf s.sleepStatus d.data with
    | none => rfl
    | some b => rfl
  · rw [if_neg hualive, branchOf_of_not_isUalive hualive, Option.elim_none, Kalive.pass,
      if_neg hualive]

/-! ### What the task does -/

/-- A command is issued by `atcmd_recv` only. -/
theorem mem_out_put {o : Output} {c : List Byte} :
    .atcmd c ∈ (s.put o).out ↔ .atcmd c ∈ s.out ∨ o = .atcmd c := by
  rw [Kalive.put, List.mem_append, List.mem_singleton]
  exact or_congr_right eq_comm

theorem mem_out_devSend {action c : List Byte} {p q r : CInt} :
    .atcmd c ∈ (s.udpKaliveDevSend cfg action p q r).out ↔ .atcmd c ∈ s.out := by
  rw [Kalive.udpKaliveDevSend, mem_out_put]
  exact or_iff_left nofun

/-- The status stays, and the command is issued only where it has been
issued before. -/
structure Keeps (s s' : Kalive) : Prop where
  status : s'.sleepStatus = s.sleepStatus
  issued : .atcmd atDsleep ∈ s'.out → .atcmd atDsleep ∈ s.out ∨ s.sleepStatus = 2

theorem Keeps.trans {s' s'' : Kalive} (h : Keeps s s') (h' : Keeps s' s'') : Keeps s s'' where
  status := h'.status.trans h.status
  issued hmem := (h'.issued hmem).elim h.issued fun hst => Or.inr (h.status.symm.trans hst)

theorem keeps_testdata (ks : List ℕ) :
    Keeps s (ks.foldl (fun s _ => s.udpKaliveSendTestdata cfg) s) := by
  induction ks generalizing s with
  | nil => exact ⟨rfl, Or.inl⟩
  | cons k ks ih =>
    have hone : Keeps s (s.udpKaliveSendTestdata cfg) :=
      ⟨rfl, fun hmem => Or.inl ((mem_out_put.1 hmem).resolve_right nofun)⟩
    exact hone.trans ih

theorem keeps_tick : Keeps s (s.tick cfg) := by
  rw [Kalive.tick]
  split
  · exact ⟨rfl, fun h => Or.inl (mem_out_devSend.1 h)⟩
  split
  · rename_i hst
    exact ⟨rfl, fun _ => Or.inr hst⟩
  split
  · dsimp only
    split
    · exact ⟨rfl, fun h => Or.inl (mem_out_devSend.1 h)⟩
    · exact ⟨rfl, fun h => Or.inl (mem_out_devSend.1 h)⟩
  · exact ⟨rfl, Or.inl⟩

/-- **Without a frame.** -/
theorem keeps_idle (t : Turn) : Keeps s (s.idle cfg t) := by
  have hsecond : Keeps s (s.everySecond cfg t) := by
    rw [Kalive.everySecond]
    split
    · have htick : Keeps { s with tickSec := t.later } ({ s with tickSec := t.later }.tick cfg) :=
        keeps_tick
      exact ⟨htick.1, htick.2⟩
    · exact ⟨rfl, Or.inl⟩
  rw [Kalive.idle]
  refine hsecond.trans ?_
  rw [Kalive.testTraffic]
  split
  · exact keeps_testdata _
  · exact ⟨rfl, Or.inl⟩

/-! ### The hand-shake -/

/-- The turn received a datagram that begins with the text. -/
def Turn.Begins (t : Turn) (text : List Byte) : Prop := ∃ d, t.received = some d ∧ text <+: d.data

/-- The server has asked for sleep. -/
def Asked (turns : List Turn) : Prop := ∃ t ∈ turns, t.Begins udpKaliveGotosleep

/-- **The hand-shake**: the server has asked for sleep, and has answered a
heartbeat after that. -/
def Answered (turns : List Turn) : Prop :=
  ∃ before gs between hb after, turns = before ++ gs :: (between ++ hb :: after) ∧
    gs.Begins udpKaliveGotosleep ∧ hb.Begins udpKaliveHeartbeat

theorem Asked.append {turns : List Turn} (h : Asked turns) (t : Turn) : Asked (turns ++ [t]) := by
  obtain ⟨gs, hmem, hgs⟩ := h
  exact ⟨gs, List.mem_append_left _ hmem, hgs⟩

theorem Answered.append {turns : List Turn} (h : Answered turns) (t : Turn) :
    Answered (turns ++ [t]) := by
  obtain ⟨before, gs, between, hb, after, rfl, hgs, hhb⟩ := h
  refine ⟨before, gs, between, hb, after ++ [t], ?_, hgs, hhb⟩
  simp only [List.append_assoc, List.cons_append]

theorem Asked.answered {turns : List Turn} (h : Asked turns) {t : Turn}
    (ht : t.Begins udpKaliveHeartbeat) : Answered (turns ++ [t]) := by
  obtain ⟨gs, hmem, hgs⟩ := h
  obtain ⟨before, between, rfl⟩ := List.append_of_mem hmem
  refine ⟨before, gs, between, t, [], ?_, hgs, ht⟩
  rw [List.append_assoc, List.cons_append]

/-- **What the status and the command stand for**, after these turns. -/
structure Told (turns : List Turn) (s : Kalive) : Prop where
  asked : s.sleepStatus = 1 → Asked turns
  answered : s.sleepStatus = 2 → Answered turns
  issued : .atcmd atDsleep ∈ s.out → Answered turns

/-- A turn that changes neither. -/
theorem Told.append {turns : List Turn} {s' : Kalive} (h : Told turns s) (hkeeps : Keeps s s')
    (t : Turn) : Told (turns ++ [t]) s' where
  asked h1 := (h.asked (hkeeps.status.symm.trans h1)).append t
  answered h2 := (h.answered (hkeeps.status.symm.trans h2)).append t
  issued hmem := ((hkeeps.issued hmem).elim h.issued h.answered).append t

/-- A datagram that takes no branch. -/
theorem keeps_pass (t : Turn) (d : Datagram) : Keeps s (s.pass cfg t d) := by
  rw [Kalive.pass]
  split
  · exact ⟨rfl, Or.inl⟩
  · have hrecv : Keeps s { s with recvbuf := receive s.recvbuf d } := ⟨rfl, Or.inl⟩
    exact hrecv.trans (keeps_idle t)

/-- **One turn.** -/
theorem Told.turn {turns : List Turn} (h : Told turns s) (t : Turn) :
    Told (turns ++ [t]) (s.turn cfg t) := by
  cases hd : t.received with
  | none =>
    have hidle : s.turn cfg t = s.idle cfg t := by rw [Kalive.turn, hd]
    rw [hidle]
    exact h.append (keeps_idle t) t
  | some d =>
    rw [turn_eq_branchOf hd, branchOf]
    split_ifs with hgs hhb hol
    · -- asked for, by this datagram
      refine ⟨fun _ => ⟨t, List.mem_append_right _ List.mem_cons_self, d, hd, hgs⟩, nofun, ?_⟩
      exact fun hmem => (h.issued (mem_out_devSend.1 hmem)).append t
    · -- answered, by this one, and asked for before
      have hdone : Answered (turns ++ [t]) := (h.asked hhb.2).answered ⟨d, hd, hhb.1⟩
      exact ⟨nofun, fun _ => hdone, fun _ => hdone⟩
    · refine Told.append (s := s) h ?_ t
      exact ⟨rfl, Or.inl⟩
    · exact h.append (keeps_pass t d) t

/-- **Deep sleep is entered only after the hand-shake.** From the start of
the loop, with anything in the buffer, over any datagrams and timeouts: the
loop goes on; when `AT+DSLEEP=1` has been issued, a datagram that begins
with `UALIVE:GS` has been received and after it one that begins with
`UALIVE:HB`; and the branch the next datagram takes is the one its own bytes
and the status ask for. -/
theorem dsleep_after_handshake (cfg : Config) (recvbuf : ℕ → Byte) (tick : BitVec 32)
    (turns : List Turn) :
    ∃ s, (dsleepTest cfg).run (start cfg recvbuf tick) turns = some s ∧
      (.atcmd atDsleep ∈ s.out → Answered turns) ∧
      ∀ t d, t.received = some d →
        s.turn cfg t = (branchOf s.sleepStatus d.data).elim (s.pass cfg t d) fun b =>
          { s with recvbuf := terminate (receive s.recvbuf d) d }.take cfg b := by
  obtain ⟨s, hrun, -⟩ := Machine.exists_run (M := dsleepTest cfg) (I := fun _ => True)
    (fun s t _ => ⟨s.turn cfg t, rfl, trivial⟩) trivial turns
  have hstart : Told [] (start cfg recvbuf tick) := by
    refine ⟨nofun, nofun, fun hmem => ?_⟩
    exact absurd (mem_out_devSend.1 (mem_out_devSend.1 hmem)) List.not_mem_nil
  have htold : Told turns s := by
    refine Machine.past_of_run (fun turns s t s' h hstep => ?_) hstart hrun
    obtain rfl := Option.some.inj hstep
    exact h.turn t
  exact ⟨s, hrun, htold.issued, fun t d hd => turn_eq_branchOf hd⟩

/-- A turn that receives these bytes. -/
def turnOf (data : List Byte) (hpos : 0 < data.length) (hfits : data.length < 2048) : Turn where
  received := some ⟨data, hpos, hfits⟩
  now := 0
  later := 0

/-- `UALIVE:GS-1`, then `UALIVE:HB`. -/
def handshake : List Turn :=
  [turnOf (udpKaliveGotosleep ++ [0x2d, 0x31]) (by decide) (by decide),
    turnOf udpKaliveHeartbeat (by decide) (by decide)]

/-- **The hand-shake succeeds**: the command is issued. -/
theorem dsleep_after_handshake_issued :
    ∃ s, (dsleepTest ⟨[], 60002, 60⟩).run (start ⟨[], 60002, 60⟩ (fun _ => 0xEE) 0) handshake =
        some s ∧ .atcmd atDsleep ∈ s.out ∧ Answered handshake := by
  obtain ⟨s, hrun, hanswered, -⟩ :=
    dsleep_after_handshake ⟨[], 60002, 60⟩ (fun _ => 0xEE) 0 handshake
  have hissued : ∀ s', (dsleepTest ⟨[], 60002, 60⟩).run
      (start ⟨[], 60002, 60⟩ (fun _ => 0xEE) 0) handshake = some s' → .atcmd atDsleep ∈ s'.out := by
    rintro s' ⟨⟩
    exact List.mem_append_right _ List.mem_cons_self
  exact ⟨s, hrun, hissued s hrun, hanswered (hissued s hrun)⟩

end DsleepTest

end Hgsdk

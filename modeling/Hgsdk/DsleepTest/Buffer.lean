import Hgsdk.DsleepTest.Handshake
/-!
# The receive buffer and what lies behind it

The loop of `dsleep_test` over the bytes of `udp_klive`. `recvfrom` may fill
all 2048 bytes of `recvbuf`, and the terminator then goes one byte further,
into `hb`: it clears the low byte of the heartbeat interval. This happens
exactly for a datagram of 2048 bytes that begins with `"UALIVE:"`. With
shorter datagrams the loop is the one of the model with a fixed interval.
-/

namespace Hgsdk

namespace DsleepTest

/-! ### `struct udp_kalive_mgr` -/

/-- Where the fields are: three words, `id[18]` and two bytes of padding,
`svr` of 16 bytes, `testdata[1400]`, `recvbuf[2048]`, and two words. -/
def portOff : ℕ := 4
def idOff : ℕ := 12
def recvbufOff : ℕ := 12 + 18 + 2 + 16 + 1400
def recvbufSize : ℕ := 2048
def hbOff : ℕ := recvbufOff + recvbufSize

/-- The memory from `udp_klive` on. -/
abbrev Bytes := ℕ → Byte

/-- A word of it, the low byte first. -/
def word (m : Bytes) (off : ℕ) : CInt := m (off + 3) ++ m (off + 2) ++ m (off + 1) ++ m off

/-- A byte of `recvbuf`. -/
def InRecvbuf (x : ℕ) : Prop := recvbufOff ≤ x ∧ x < recvbufOff + recvbufSize

def recvbufOf (m : Bytes) : ℕ → Byte := fun i => m (recvbufOff + i)

/-- What the loop reads of the other fields. -/
def configOf (m : Bytes) : Config where
  id := ((List.range 18).map fun i => m (idOff + i)).takeWhile (· ≠ 0)
  port := word m portOff
  hb := word m hbOff

/-! ### The loop over the bytes -/

/-- A datagram that `udp_kalive_recv` can return. -/
structure Frame where
  data : List Byte
  pos : 0 < data.length
  fits : data.length ≤ recvbufSize

/-- The stores of a byte string from an offset on. -/
def storesAt (off : ℕ) : List Byte → List (ℕ × Byte)
  | [] => []
  | b :: bs => (off, b) :: storesAt (off + 1) bs

def applyStores (m : Bytes) (stores : List (ℕ × Byte)) : Bytes :=
  stores.foldl (fun m st => Function.update m st.1 st.2) m

/-- The bytes after `udp_kalive_recv`. -/
def received (m : Bytes) (d : Frame) : Bytes := applyStores m (storesAt recvbufOff d.data)

/-- **The stores of a turn** that has received a datagram: `recvfrom`'s, and
`recvbuf[ret] = 0`. -/
def storesOf (m : Bytes) (d : Frame) : List (ℕ × Byte) :=
  storesAt recvbufOff d.data ++
    if isUalive (recvbufOf (received m d)) then [(recvbufOff + d.data.length, 0)] else []

/-- One turn, as `Turn`, with a datagram of any length. -/
structure RawTurn where
  received : Option Frame
  now : BitVec 32
  later : BitVec 32

/-- `udp_klive`, the locals of `dsleep_test`, and what it has done. -/
structure Mgr where
  mem : Bytes
  sleepStatus : CInt
  tickSec : CInt
  svrAlive : CInt
  out : List Output

namespace Mgr

variable (s : Mgr)

/-- The buffer and the locals. -/
def kalive (m : Bytes) : Kalive := ⟨recvbufOf m, s.sleepStatus, s.tickSec, s.svrAlive, s.out⟩

/-- The locals after a turn, over the bytes it has left. -/
def ofKalive (m : Bytes) (k : Kalive) : Mgr := ⟨m, k.sleepStatus, k.tickSec, k.svrAlive, k.out⟩

/-- One turn of the loop of `dsleep_test`. -/
def turn (t : RawTurn) : Mgr :=
  match t.received with
  | some d =>
    let m := applyStores s.mem (storesOf s.mem d)
    if isUalive (recvbufOf (DsleepTest.received s.mem d)) then
      ofKalive m ((s.kalive m).frm (configOf m))
    else ofKalive m ((s.kalive m).idle (configOf m) ⟨none, t.now, t.later⟩)
  | none => ofKalive s.mem ((s.kalive s.mem).idle (configOf s.mem) ⟨none, t.now, t.later⟩)

end Mgr

/-- **The loop.** -/
def rawDsleepTest : Machine Mgr RawTurn where
  step s t := some (s.turn t)

/-! ### Stores -/

theorem applyStores_append {m : Bytes} {sts sts' : List (ℕ × Byte)} :
    applyStores m (sts ++ sts') = applyStores (applyStores m sts) sts' := List.foldl_append ..

theorem applyStores_storesAt {m : Bytes} {off : ℕ} {bs : List Byte} :
    applyStores m (storesAt off bs) = overlay (fun _ v => v) m off bs := by
  induction bs generalizing m off with
  | nil => exact overlay_nil.symm
  | cons b bs ih =>
    rw [overlay_cons]
    exact ih

theorem mem_storesAt {off : ℕ} {bs : List Byte} {st : ℕ × Byte} (h : st ∈ storesAt off bs) :
    off ≤ st.1 ∧ st.1 < off + bs.length := by
  induction bs generalizing off with
  | nil => cases h
  | cons b bs ih =>
    rw [List.length_cons]
    rcases List.mem_cons.1 h with rfl | hrest
    · exact ⟨le_rfl, by dsimp only; omega⟩
    · have hin := ih hrest
      omega

/-- A cell that is not stored to is left. -/
theorem applyStores_of_not_mem {m : Bytes} {x : ℕ} {sts : List (ℕ × Byte)}
    (h : ∀ st ∈ sts, st.1 ≠ x) : applyStores m sts x = m x := by
  induction sts generalizing m with
  | nil => rfl
  | cons st sts ih =>
    have hrest : applyStores (Function.update m st.1 st.2) sts x =
        Function.update m st.1 st.2 x := ih fun st' hst' => h st' (List.mem_cons_of_mem _ hst')
    have hne := h st List.mem_cons_self
    show applyStores (Function.update m st.1 st.2) sts x = m x
    rw [hrest, Function.update_of_ne (Ne.symm hne)]

/-! ### What is received -/

variable {m : Bytes} {d : Frame} {s : Mgr}

/-- The buffer holds the datagram, and what it held behind it. -/
theorem recvbufOf_received :
    recvbufOf (received m d) = overlay (fun _ v => v) (recvbufOf m) 0 d.data := by
  funext i
  rw [recvbufOf, received, applyStores_storesAt]
  have hge : ¬ recvbufOff + i < recvbufOff := by omega
  simp only [overlay, if_neg hge, if_neg (Nat.not_lt_zero i), Nat.add_sub_cancel_left, Nat.sub_zero]
  rfl

/-- A comparison with a text that has no zero in it is of every byte. -/
theorem eq_of_strncmpZero {s t : ℕ → Byte} {i n : ℕ} (hnz : ∀ j, i ≤ j → j < i + n → t j ≠ 0)
    (h : strncmpZero s t i n = true) : ∀ j, i ≤ j → j < i + n → s j = t j := by
  induction n generalizing i with
  | zero =>
    intro j hj hlt
    omega
  | succ n ih =>
    intro j hj hlt
    rw [strncmpZero] at h
    split at h
    next => cases h
    next heq =>
      have hi : s i = t i := not_not.1 heq
      rw [if_neg (by rw [hi]; exact hnz i le_rfl (by omega))] at h
      rcases Nat.eq_or_lt_of_le hj with rfl | hgt
      · exact hi
      · exact ih (fun j hj hlt => hnz j (by omega) (by omega)) h j hgt (by omega)

/-- A datagram that is long enough passes the test by its own bytes. -/
theorem isUalive_received_iff (hlong : 7 ≤ d.data.length) :
    isUalive (recvbufOf (received m d)) = true ↔ ualive <+: d.data := by
  have hlen : ualive.length = 7 := rfl
  have hnz : ∀ j < 7, cstr ualive j ≠ 0 := by decide
  have hcell : ∀ i (hi : i < 7),
      recvbufOf (received m d) i = d.data[i] := by
    intro i hi
    have hget := overlay_of_getElem? (f := fun _ v => v) (m := recvbufOf m) (a := 0)
      (List.getElem?_eq_getElem (by omega : i < d.data.length))
    rw [Nat.zero_add] at hget
    rw [recvbufOf_received, hget]
  constructor
  · intro h
    have heq := eq_of_strncmpZero (fun j _ hj => hnz j (by omega)) h
    refine List.prefix_iff_eq_take.2 (List.ext_getElem ?_ fun i hi hi' => ?_)
    · rw [List.length_take]
      omega
    · rw [List.getElem_take, ← cstr_of_lt hi, ← heq i (Nat.zero_le i) (by omega),
        hcell i (by omega)]
  · rintro ⟨rest, hrest⟩
    refine strncmpZero_of_eq fun i _ hi => ?_
    rw [hcell i (by omega), cstr_of_lt (by omega)]
    simp only [← hrest]
    exact List.getElem_append_left (by omega)

/-! ### The terminator -/

/-- **The datagrams that overrun the buffer.** -/
def Overruns (d : Frame) : Prop := d.data.length = recvbufSize ∧ ualive <+: d.data

/-- Where the terminator is stored, and behind which datagrams. -/
theorem mem_storesOf {st : ℕ × Byte} :
    st ∈ storesOf m d ↔ st ∈ storesAt recvbufOff d.data ∨
      (isUalive (recvbufOf (received m d)) = true ∧ st = (recvbufOff + d.data.length, 0)) := by
  rw [storesOf, List.mem_append]
  split
  next h => rw [List.mem_singleton, and_iff_right h]
  next h => simp [h]

/-- The stores stay in the buffer unless the datagram fills it and passes
the test. -/
theorem stores_inside_iff : (∀ st ∈ storesOf m d, InRecvbuf st.1) ↔ ¬ Overruns d := by
  have hfits := d.fits
  constructor
  · rintro hin ⟨hfull, hualive⟩
    have hpass := (@isUalive_received_iff m d (by rw [hfull]; decide)).2 hualive
    have hlast := hin _ (mem_storesOf.2 (Or.inr ⟨hpass, rfl⟩))
    rw [InRecvbuf, hfull] at hlast
    omega
  · intro hok st hst
    rcases mem_storesOf.1 hst with hdata | ⟨hpass, rfl⟩
    · have hbounds := mem_storesAt hdata
      exact ⟨hbounds.1, by omega⟩
    · have hne : d.data.length ≠ recvbufSize := fun hfull =>
        hok ⟨hfull, (isUalive_received_iff (by rw [hfull]; decide)).1 hpass⟩
      show recvbufOff ≤ recvbufOff + d.data.length ∧
        recvbufOff + d.data.length < recvbufOff + recvbufSize
      omega

/-- A datagram that overruns the buffer stores a zero behind it, and nothing
else. -/
theorem applyStores_overrun (h : Overruns d) {x : ℕ} (hx : ¬ InRecvbuf x) :
    applyStores m (storesOf m d) x = if x = hbOff then 0 else m x := by
  obtain ⟨hfull, hualive⟩ := h
  have hpass := (@isUalive_received_iff m d (by rw [hfull]; decide)).2 hualive
  have hstores : storesOf m d = storesAt recvbufOff d.data ++ [(hbOff, 0)] := by
    rw [storesOf, if_pos hpass, hfull]
    rfl
  have hdata : applyStores m (storesAt recvbufOff d.data) x = m x := by
    refine applyStores_of_not_mem fun st hst heq => hx ?_
    have hbounds := mem_storesAt hst
    rw [heq, hfull] at hbounds
    exact hbounds
  rw [hstores, applyStores_append]
  show Function.update (applyStores m (storesAt recvbufOff d.data)) hbOff 0 x = _
  by_cases heq : x = hbOff
  · rw [heq, Function.update_self, if_pos rfl]
  · rw [Function.update_of_ne heq, hdata, if_neg heq]

theorem applyStores_inside (h : ¬ Overruns d) {x : ℕ} (hx : ¬ InRecvbuf x) :
    applyStores m (storesOf m d) x = m x := by
  refine applyStores_of_not_mem fun st hst heq => hx ?_
  rw [← heq]
  exact stores_inside_iff.2 h st hst

theorem mem_turn (d : Frame) (now later : BitVec 32) :
    (s.turn ⟨some d, now, later⟩).mem = applyStores s.mem (storesOf s.mem d) := by
  simp only [Mgr.turn]
  split
  · rfl
  · rfl

/-- The low byte of a word. -/
theorem word_low (m : Bytes) (off : ℕ) : (word m off).setWidth 8 = m off := by
  refine BitVec.eq_of_getLsbD_eq fun i hi => ?_
  have happend : (word m off).getLsbD i = (m off).getLsbD i :=
    BitVec.getLsbD_append.trans (if_pos hi)
  rw [BitVec.getLsbD_setWidth, decide_eq_true hi, Bool.true_and, happend]

theorem not_inRecvbuf_of_le {x : ℕ} (h : hbOff ≤ x) : ¬ InRecvbuf x := by
  rw [hbOff] at h
  rw [InRecvbuf]
  omega

/-- The other bytes are the same unless the low byte of `hb` is cleared that
was not zero. -/
theorem same_outside_iff :
    (∀ x, ¬ InRecvbuf x → applyStores m (storesOf m d) x = m x) ↔ ¬ Overruns d ∨ m hbOff = 0 := by
  have hhb : ¬ InRecvbuf hbOff := not_inRecvbuf_of_le le_rfl
  constructor
  · intro hsame
    by_cases hover : Overruns d
    · refine Or.inr ?_
      rw [← hsame hbOff hhb, applyStores_overrun hover hhb, if_pos rfl]
    · exact Or.inl hover
  · intro h x hx
    by_cases hover : Overruns d
    · have hzero : m hbOff = 0 := h.resolve_left fun hn => hn hover
      rw [applyStores_overrun hover hx]
      split
      next heq => rw [heq, hzero]
      next => rfl
    · exact applyStores_inside hover hx

/-- And so is the interval. -/
theorem same_hb_iff :
    word (applyStores m (storesOf m d)) hbOff = word m hbOff ↔ ¬ Overruns d ∨ m hbOff = 0 := by
  constructor
  · intro hsame
    by_cases hover : Overruns d
    · refine Or.inr ?_
      have hlow := congrArg (BitVec.setWidth 8) hsame
      rw [word_low, word_low, applyStores_overrun hover (not_inRecvbuf_of_le le_rfl),
        if_pos rfl] at hlow
      exact hlow.symm
    · exact Or.inl hover
  · intro h
    have hsame := same_outside_iff.2 h
    have hbyte : ∀ i, applyStores m (storesOf m d) (hbOff + i) = m (hbOff + i) := fun i =>
      hsame _ (not_inRecvbuf_of_le (Nat.le_add_right _ _))
    rw [word, hbyte, hbyte, hbyte, hsame _ (not_inRecvbuf_of_le le_rfl), word]

/-- **A datagram and the buffer.** The stores of a turn stay inside `recvbuf`
unless its datagram has 2048 bytes and begins with `"UALIVE:"`. Then the low
byte of `hb` is cleared; so every other byte of `udp_klive`, and the
heartbeat interval, are the same as before exactly where the datagram is not
such a one or that byte was zero. -/
theorem turn_respects_recvbuf (s : Mgr) (d : Frame) (now later : BitVec 32) :
    ((∀ st ∈ storesOf s.mem d, InRecvbuf st.1) ↔
      ¬ (d.data.length = 2048 ∧ ualive <+: d.data)) ∧
    ((∀ x, ¬ InRecvbuf x → (s.turn ⟨some d, now, later⟩).mem x = s.mem x) ↔
      ¬ (d.data.length = 2048 ∧ ualive <+: d.data) ∨ s.mem hbOff = 0) ∧
    ((configOf (s.turn ⟨some d, now, later⟩).mem).hb = (configOf s.mem).hb ↔
      ¬ (d.data.length = 2048 ∧ ualive <+: d.data) ∨ s.mem hbOff = 0) := by
  rw [mem_turn]
  exact ⟨stores_inside_iff, same_outside_iff, same_hb_iff⟩

/-- `udp_klive` with a heartbeat interval of a minute. -/
def minuteMgr : Mgr where
  mem x := if x = hbOff then 60 else 0
  sleepStatus := 0
  tickSec := 0
  svrAlive := 0
  out := []

/-- `"UALIVE:"` and 2041 bytes more. -/
def fullFrame : Frame where
  data := ualive ++ List.replicate 2041 0x41
  pos := by
    rw [List.length_append]
    exact Nat.lt_add_right _ (by decide)
  fits := by
    rw [List.length_append, List.length_replicate]
    decide

/-- **The interval is lost.** Such a datagram turns a minute into zero. -/
theorem hb_cleared_by_full_frame :
    (configOf minuteMgr.mem).hb = 60 ∧
      (configOf (minuteMgr.turn ⟨some fullFrame, 0, 0⟩).mem).hb = 0 ∧
      ¬ ∀ st ∈ storesOf minuteMgr.mem fullFrame, InRecvbuf st.1 := by
  have hover : Overruns fullFrame := by
    refine ⟨?_, List.prefix_append _ _⟩
    show (ualive ++ List.replicate 2041 0x41).length = recvbufSize
    rw [List.length_append, List.length_replicate]
    rfl
  have hcell : ∀ i,
      applyStores minuteMgr.mem (storesOf minuteMgr.mem fullFrame) (hbOff + i) = 0 := by
    intro i
    rw [applyStores_overrun hover (not_inRecvbuf_of_le (Nat.le_add_right _ _))]
    split
    · rfl
    next hne => exact if_neg hne
  refine ⟨by decide, ?_, fun hin => stores_inside_iff.1 hin hover⟩
  rw [mem_turn]
  show word (applyStores minuteMgr.mem (storesOf minuteMgr.mem fullFrame)) hbOff = 0
  have hlow := hcell 0
  rw [Nat.add_zero] at hlow
  rw [word, hcell, hcell, hcell, hlow]
  rfl

/-! ### Whole runs -/

/-- Only the buffer has changed. -/
def SameOutside (m m' : Bytes) : Prop := ∀ x, ¬ InRecvbuf x → m' x = m x

/-- What the loop reads of the other fields is the same. -/
theorem SameOutside.configOf_eq {m' : Bytes} (h : SameOutside m m') : configOf m' = configOf m := by
  have hword : ∀ off, off + 4 ≤ recvbufOff ∨ hbOff ≤ off → word m' off = word m off := by
    intro off hoff
    have hbyte : ∀ i < 4, m' (off + i) = m (off + i) := by
      intro i hi
      refine h _ fun hin => ?_
      rw [hbOff] at hoff
      rw [InRecvbuf] at hin
      omega
    have hfirst := hbyte 0 (by decide)
    rw [Nat.add_zero] at hfirst
    rw [word, hbyte 3 (by decide), hbyte 2 (by decide), hbyte 1 (by decide), hfirst, word]
  have hid : (List.range 18).map (fun i => m' (idOff + i)) =
      (List.range 18).map fun i => m (idOff + i) := by
    refine List.map_congr_left fun i hi => h _ fun hin => ?_
    have hlt := List.mem_range.1 hi
    rw [InRecvbuf, idOff, recvbufOff] at hin
    omega
  rw [configOf, hword portOff (Or.inl (by decide)), hword hbOff (Or.inr le_rfl), hid, configOf]

theorem sameOutside_turn {t : RawTurn} (h : ∀ d, t.received = some d → ¬ Overruns d) :
    SameOutside s.mem (s.turn t).mem := by
  obtain ⟨received, now, later⟩ := t
  cases received with
  | none => exact fun _ _ => rfl
  | some d =>
    rw [mem_turn]
    exact same_outside_iff.2 (Or.inl (h d rfl))

/-- **Over whole runs**: where no datagram overruns the buffer, the fields
beside it are those of the start. -/
theorem sameOutside_of_run {turns : List RawTurn} {u : Mgr}
    (h : rawDsleepTest.Along (fun _ t => ∀ d, t.received = some d → ¬ Overruns d) s turns)
    (hrun : rawDsleepTest.run s turns = some u) : SameOutside s.mem u.mem := by
  refine Machine.inv_of_run (I := fun v => SameOutside s.mem v.mem) ?_ (fun _ _ => rfl) h hrun
  intro v t v' hv hok hstep x hx
  cases hstep
  rw [sameOutside_turn hok x hx, hv x hx]

/-! ### The loop with a fixed interval -/

/-- A turn with a datagram that leaves room for the terminator. -/
def Turn.raw (t : Turn) : RawTurn where
  received := t.received.map fun d => ⟨d.data, d.pos, Nat.le_of_lt d.fits⟩
  now := t.now
  later := t.later

def Mgr.view (s : Mgr) : Kalive := s.kalive s.mem

theorem recvbuf_take {cfg : Config} {k : Kalive} (b : Branch) :
    (k.take cfg b).recvbuf = k.recvbuf := by
  cases b <;> rfl

theorem recvbuf_frm {cfg : Config} {k : Kalive} : (k.frm cfg).recvbuf = k.recvbuf := by
  rw [Kalive.frm]
  split
  · exact recvbuf_take _
  · rfl

theorem recvbuf_tick {cfg : Config} {k : Kalive} : (k.tick cfg).recvbuf = k.recvbuf := by
  rw [Kalive.tick]
  split
  · rfl
  · split
    · rfl
    · split
      · dsimp only
        split
        · rfl
        · rfl
      · rfl

theorem recvbuf_idle {cfg : Config} {k : Kalive} {t : Turn} :
    (k.idle cfg t).recvbuf = k.recvbuf := by
  have hsend : ∀ (ks : List ℕ) (k : Kalive),
      (ks.foldl (fun k _ => k.udpKaliveSendTestdata cfg) k).recvbuf = k.recvbuf := by
    intro ks
    induction ks with
    | nil => exact fun _ => rfl
    | cons _ ks ih => exact fun k => ih _
  have hsecond : (k.everySecond cfg t).recvbuf = k.recvbuf := by
    rw [Kalive.everySecond]
    split
    · exact recvbuf_tick
    · rfl
  rw [Kalive.idle, Kalive.testTraffic]
  split
  · rw [hsend, hsecond]
  · exact hsecond

/-- What is written back after a turn is all there is of it. -/
theorem view_ofKalive {k : Kalive} (h : k.recvbuf = recvbufOf m) :
    (Mgr.ofKalive m k).view = k := by
  rw [Mgr.view, Mgr.kalive, Mgr.ofKalive, ← h]

/-- The buffer after a turn that has received a datagram. -/
theorem recvbufOf_stores :
    recvbufOf (applyStores m (storesOf m d)) =
      if isUalive (recvbufOf (received m d)) then
        Function.update (recvbufOf (received m d)) d.data.length 0
      else recvbufOf (received m d) := by
  rw [storesOf, applyStores_append]
  split
  · funext i
    show Function.update (received m d) (recvbufOff + d.data.length) 0 (recvbufOff + i) =
      Function.update (recvbufOf (received m d)) d.data.length 0 i
    by_cases hi : i = d.data.length
    · rw [hi, Function.update_self, Function.update_self]
    · rw [Function.update_of_ne (by omega), Function.update_of_ne hi]
      rfl
  · rfl

/-- **One turn is a turn of the loop with a fixed interval.** -/
theorem view_turn (t : Turn) : (s.turn t.raw).view = s.view.turn (configOf s.mem) t := by
  obtain ⟨got, now, later⟩ := t
  cases got with
  | none => exact view_ofKalive recvbuf_idle
  | some d =>
    generalize hframe : (⟨d.data, d.pos, Nat.le_of_lt d.fits⟩ : Frame) = e
    have hdata : e.data = d.data := by rw [← hframe]
    have hok : ¬ Overruns e := by
      rintro ⟨hfull, -⟩
      have hfits := d.fits
      rw [hdata, recvbufSize] at hfull
      omega
    have hcfg : configOf (applyStores s.mem (storesOf s.mem e)) = configOf s.mem :=
      SameOutside.configOf_eq (same_outside_iff.2 (Or.inl hok))
    have hbuf : recvbufOf (received s.mem e) = receive (recvbufOf s.mem) d := by
      rw [recvbufOf_received, hdata]
      rfl
    have hafter := @recvbufOf_stores s.mem e
    rw [hbuf, hdata] at hafter
    have hraw : (Turn.raw ⟨some d, now, later⟩) = ⟨some e, now, later⟩ := by
      rw [← hframe]
      rfl
    rw [hraw]
    simp only [Mgr.turn, Kalive.turn, hbuf, hcfg]
    split
    next hpass =>
      rw [if_pos hpass] at hafter
      rw [view_ofKalive recvbuf_frm, Mgr.kalive, hafter]
      exact (if_pos hpass).symm
    next hfail =>
      rw [if_neg hfail] at hafter
      rw [view_ofKalive recvbuf_idle, Mgr.kalive, hafter]
      exact (if_neg hfail).symm

/-- **A run of the loop over the bytes**, with datagrams that leave room for
the terminator, is a run of the loop with the interval it started with. -/
theorem dsleepTest_of_run {turns : List Turn} {u : Mgr}
    (hrun : rawDsleepTest.run s (turns.map Turn.raw) = some u) :
    (dsleepTest (configOf s.mem)).run s.view turns = some u.view := by
  induction turns generalizing s with
  | nil =>
    cases hrun
    rfl
  | cons t turns ih =>
    have hstep : rawDsleepTest.step s t.raw = some (s.turn t.raw) := rfl
    have hcfg : configOf (s.turn t.raw).mem = configOf s.mem := by
      refine (sameOutside_turn fun d hd hover => ?_).configOf_eq
      obtain ⟨d', -, rfl⟩ := Option.map_eq_some_iff.1 hd
      have hfits := d'.fits
      have hfull : d'.data.length = 2048 := hover.1
      omega
    rw [List.map_cons, Machine.run_cons_of_step hstep] at hrun
    have hrest := ih hrun
    rw [hcfg, view_turn] at hrest
    exact (Machine.run_cons_of_step rfl).trans hrest

end DsleepTest

end Hgsdk

import Hgsdk.Timer.Period
/-!
# Restarting a one-shot timer from its interrupt

The handler disables a one-shot timer after the callback has run, by
reading and writing back `TMR_CON`. What the callback has started is
disabled with it, and so is what a nested interrupt starts before the last
store. Only a start after that store stays.
-/

namespace Hgsdk

namespace Timer

variable {apbclk : CInt} {s : Served} {ws : Windows} {es : List Event}

/-- The calls among the events. -/
def callsOf (es : List Event) : List Call :=
  es.filterMap fun
    | .call c => some c
    | .count _ _ => none

/-- An event that does not open the timer as another than a one-shot. -/
def OpensOnce (e : Event) : Prop := ∀ type flags, e = .call (.open type flags) → type = .once

/-- All events before the handler looks at the mode are such. -/
structure Windows.OpensOnce (ws : Windows) : Prop where
  callback : ∀ e ∈ ws.callback, Timer.OpensOnce e
  beforePngLoad : ∀ e ∈ ws.beforePngLoad, Timer.OpensOnce e
  beforePngStore : ∀ e ∈ ws.beforePngStore, Timer.OpensOnce e
  beforeMode : ∀ e ∈ ws.beforeMode, Timer.OpensOnce e

/-- **Armed by that start**: counting, with its period and prescaler. -/
def Armed (apbclk : CInt) (tmoUs : BitVec 32) (dev : HgtimerV2) : Prop :=
  modeOf dev.tmrCon = modeSelCounter ∧
    ∃ i, prescaler (ticksOf apbclk tmoUs) = some i ∧
      dev.tmrPr = (ticksOf apbclk tmoUs >>> i) - 1 ∧ (pscOf dev.tmrCon).toNat = i

/-! ### The events of a window -/

/-- The pending bit is not one of the fields. -/
theorem extractLsb'_or_png {con : BitVec 32} {png : Bool} {k n : ℕ}
    (h : conTimerPng.extractLsb' k n = 0) :
    (if png then con ||| conTimerPng else con).extractLsb' k n = con.extractLsb' k n := by
  cases png with
  | false => rfl
  | true => exact BitVec.extractLsb'_or.trans ((congrArg _ h).trans BitVec.or_zero)

/-- What a moving counter leaves. -/
theorem armed_count {tmoUs cnt : BitVec 32} {png : Bool} (h : Armed apbclk tmoUs s.dev) :
    Armed apbclk tmoUs (s.event apbclk (.count cnt png)).dev := by
  obtain ⟨hmode, i, hi, hpr, hpsc⟩ := h
  refine ⟨?_, i, hi, hpr, ?_⟩
  · rw [← hmode]
    exact extractLsb'_or_png (by decide)
  · rw [← hpsc]
    exact congrArg BitVec.toNat (extractLsb'_or_png (by decide))

/-- A start that succeeded has armed the timer. -/
theorem armed_start {dev : HgtimerV2} {tmoUs cbData : BitVec 32} {cb : Option (BitVec 32)}
    (h : (dev.hgtimerV2Start apbclk tmoUs cb cbData).1 = retOk) :
    Armed apbclk tmoUs (dev.hgtimerV2Start apbclk tmoUs cb cbData).2 := by
  have hstart : dev.hgtimerV2Start apbclk tmoUs cb cbData =
    (retOk, (dev.hgtimerV2Start apbclk tmoUs cb cbData).2) := Prod.ext h rfl
  obtain ⟨-, -, i, hfits, hdev⟩ := start_eq_retOk_iff.1 hstart
  have hi := hfits.le
  rw [hdev]
  refine ⟨modeOf_program (by omega), i, prescaler_eq_some_iff.2 hfits, rfl, ?_⟩
  rw [pscOf_program (by omega), toNat_ofNat_three hi]

/-- **What the timer is after the last call.** Where that is a start that
succeeded, the timer is armed by it. -/
theorem armed_events {c : Call} {r : CInt} (hcalls : callsOf es ≠ [])
    (hlast : (s.events apbclk es).log.getLast? = some (c, r)) {tmoUs cbData : BitVec 32}
    {cb : Option (BitVec 32)} (hc : c = .start tmoUs cb cbData) (hr : r = retOk) :
    Armed apbclk tmoUs (s.events apbclk es).dev := by
  subst hc hr
  -- the last event is the call, or the counter moved after it
  induction es using List.reverseRecOn with
  | nil => exact absurd rfl hcalls
  | append_singleton es e ih =>
    rw [Served.events, List.foldl_append] at hlast ⊢
    cases e with
    | call c =>
      have hlog : (c, ((s.events apbclk es).dev.call apbclk c).1) =
          (.start tmoUs cb cbData, retOk) :=
        Option.some.inj ((List.getLast?_concat ..).symm.trans hlast)
      obtain ⟨rfl, hret⟩ := Prod.mk.inj hlog
      exact armed_start hret
    | count cnt png =>
      refine armed_count (ih ?_ hlast)
      simpa [callsOf] using hcalls

/-- A window without calls leaves the log and the fields. -/
theorem events_of_no_calls (hcalls : callsOf es = []) :
    (s.events apbclk es).log = s.log ∧
      modeOf (s.events apbclk es).dev.tmrCon = modeOf s.dev.tmrCon := by
  induction es generalizing s with
  | nil => exact ⟨rfl, rfl⟩
  | cons e es ih =>
    cases e with
    | call c => exact absurd hcalls (List.cons_ne_nil _ _)
    | count cnt png =>
      obtain ⟨hlog, hmode⟩ := ih (s := s.event apbclk (.count cnt png)) hcalls
      exact ⟨hlog, hmode.trans (extractLsb'_or_png (by decide))⟩

/-- The log grows by the window's calls. -/
theorem log_events : ∃ rs, (s.events apbclk es).log = s.log ++ (callsOf es).zip rs ∧
    rs.length = (callsOf es).length := by
  induction es generalizing s with
  | nil => exact ⟨[], (List.append_nil _).symm, rfl⟩
  | cons e es ih =>
    obtain ⟨rs, hlog, hlen⟩ := ih (s := s.event apbclk e)
    cases e with
    | call c =>
      refine ⟨(s.dev.call apbclk c).1 :: rs, ?_, congrArg Nat.succ hlen⟩
      exact hlog.trans (List.append_cons ..).symm
    | count cnt png => exact ⟨rs, hlog, hlen⟩

/-- A timer without a start stays disabled. -/
theorem modeOf_events (hno : ∀ c ∈ callsOf es, ∀ t cb d, c ≠ .start t cb d)
    (hs : modeOf s.dev.tmrCon = modeSelDisable) :
    modeOf (s.events apbclk es).dev.tmrCon = modeSelDisable := by
  induction es generalizing s with
  | nil => exact hs
  | cons e es ih =>
    have hstep : modeOf (s.event apbclk e).dev.tmrCon = modeSelDisable := by
      cases e with
      | count cnt png => exact (extractLsb'_or_png (by decide)).trans hs
      | call c =>
        cases c with
        | «open» type flags =>
          show modeOf (s.dev.hgtimerV2Open type flags).2.tmrCon = _
          rw [HgtimerV2.hgtimerV2Open]
          split
          · exact hs
          · exact hs
        | close =>
          show modeOf s.dev.hgtimerV2Close.2.tmrCon = _
          rw [HgtimerV2.hgtimerV2Close]
          split
          · exact hs
          · exact hs
        | start t cb d => exact absurd rfl (hno _ List.mem_cons_self t cb d)
        | stop => exact modeOf_writtenCon
        | ioctl => exact hs
    refine ih (s := s.event apbclk e) (fun c hc => hno c ?_) hstep
    cases e with
    | call c' => exact List.mem_cons_of_mem _ hc
    | count => exact hc

/-- The timer stays a one-shot. -/
theorem mode_events (hopens : ∀ e ∈ es, OpensOnce e) (hs : s.dev.mode = .once) :
    (s.events apbclk es).dev.mode = .once := by
  induction es generalizing s with
  | nil => exact hs
  | cons e es ih =>
    refine ih (s := s.event apbclk e) (fun e' he' => hopens e' (List.mem_cons_of_mem _ he')) ?_
    cases e with
    | count => exact hs
    | call c =>
      cases c with
      | «open» type flags =>
        show (s.dev.hgtimerV2Open type flags).2.mode = _
        rw [HgtimerV2.hgtimerV2Open]
        split
        · exact hs
        · exact hopens _ List.mem_cons_self type flags rfl
      | close =>
        show s.dev.hgtimerV2Close.2.mode = _
        rw [HgtimerV2.hgtimerV2Close]
        split
        · exact hs
        · rfl
      | start t cb d =>
        show (s.dev.hgtimerV2Start apbclk t cb d).2.mode = _
        rw [HgtimerV2.hgtimerV2Start]
        dsimp only
        split_ifs
        · exact hs
        · exact hs
        · split
          · exact hs
          · exact hs
      | stop => exact hs
      | ioctl => exact hs

/-! ### The handler -/

/-- **The handler disables the timer**, and only then its last window is
left. -/
theorem irqHandler_eq {dev : HgtimerV2} (hpng : dev.tmrCon &&& conTimerPng ≠ 0)
    (honce : dev.mode = .once) (hopens : ws.OpensOnce) :
    ∃ s : Served, modeOf s.dev.tmrCon = modeSelDisable ∧
      dev.hgtimerV2IrqHandler apbclk ws = s.events apbclk ws.after := by
  rw [HgtimerV2.hgtimerV2IrqHandler]
  dsimp only
  rw [if_pos hpng]
  refine ⟨_, ?_, rfl⟩
  rw [Served.disable, if_pos]
  · -- the mode field is cleared by the store
    show modeOf (writtenCon _ _) = _
    rw [modeOf_writtenCon, modeOf, BitVec.extractLsb'_and]
    have hclear : (~~~conModeDisMask).extractLsb' 4 2 = 0 := by decide
    rw [hclear]
    exact BitVec.and_zero
  · refine mode_events hopens.beforeMode ?_
    refine mode_events (s := Served.mk _ _) hopens.beforePngStore ?_
    refine mode_events hopens.beforePngLoad ?_
    split
    · exact mode_events hopens.callback honce
    · exact honce

/-- **A one-shot timer restarted from its interrupt.** Whatever the
registers hold, with the pending bit set, and whatever the callback and the
nested interrupts do: where the last call made is a start that returned
`RET_OK`, the timer is armed by it when the handler returns exactly where a
call was made after the handler's last store; and where no start was made,
the timer is disabled. -/
theorem restart_after_last_store {dev : HgtimerV2} (hpng : dev.tmrCon &&& conTimerPng ≠ 0)
    (honce : dev.mode = .once) (hopens : ws.OpensOnce) :
    (∀ tmoUs cb cbData, (dev.hgtimerV2IrqHandler apbclk ws).log.getLast? =
        some (.start tmoUs cb cbData, retOk) →
      (Armed apbclk tmoUs (dev.hgtimerV2IrqHandler apbclk ws).dev ↔ callsOf ws.after ≠ [])) ∧
    ((∀ x ∈ (dev.hgtimerV2IrqHandler apbclk ws).log, ∀ t cb d, x.1 ≠ .start t cb d) →
      modeOf (dev.hgtimerV2IrqHandler apbclk ws).dev.tmrCon = modeSelDisable) := by
  obtain ⟨s, hdis, heq⟩ : ∃ s : Served, modeOf s.dev.tmrCon = modeSelDisable ∧
      dev.hgtimerV2IrqHandler apbclk ws = s.events apbclk ws.after :=
    irqHandler_eq hpng honce hopens
  rw [heq]
  constructor
  · intro tmoUs cb cbData hlast
    constructor
    · intro harmed hcalls
      have hmode : modeOf (s.events apbclk ws.after).dev.tmrCon = modeOf s.dev.tmrCon :=
        (events_of_no_calls hcalls).2
      have hcounter : modeSelCounter = modeSelDisable := harmed.1.symm.trans (hmode.trans hdis)
      exact absurd hcounter (by decide)
    · intro hcalls
      exact armed_events hcalls hlast rfl rfl
  · intro hno
    refine modeOf_events (fun c hc => ?_) hdis
    obtain ⟨rs, hlog, hlen⟩ : ∃ rs, (s.events apbclk ws.after).log =
        s.log ++ (callsOf ws.after).zip rs ∧ rs.length = (callsOf ws.after).length := log_events
    obtain ⟨k, hk, rfl⟩ := List.getElem_of_mem hc
    have hzip : ((callsOf ws.after).zip rs)[k]? = some ((callsOf ws.after)[k], rs[k]) := by
      rw [List.getElem?_eq_getElem (by rw [List.length_zip]; omega), List.getElem_zip]
    refine hno ((callsOf ws.after)[k], rs[k]) ?_
    rw [hlog]
    exact List.mem_append_right _ (List.mem_of_getElem? hzip)

/-- A one-shot timer at its interrupt. -/
def firedTimer : HgtimerV2 := { openTimer with tmrCon := 0xa014, tmrPr := 999, cb := some 1 }

/-- No calls but those. -/
def quietWindows : Windows := ⟨[], [], [], [], [], [], []⟩

/-- A nested interrupt that restarts the timer after the last store. -/
theorem restart_after_last_store_nested :
    Armed 1000000 500 (firedTimer.hgtimerV2IrqHandler 1000000
      { quietWindows with after := [.call (.start 500 (some 1) 0)] }).dev := by
  have hopens : { quietWindows with after := [.call (.start 500 (some 1) 0)] }.OpensOnce :=
    ⟨nofun, nofun, nofun, nofun⟩
  have hpng : firedTimer.tmrCon &&& conTimerPng ≠ 0 := by decide
  exact ((restart_after_last_store hpng rfl hopens).1 500 (some 1) 0 (by decide)).2 (by decide)

/-- **The callback that restarts its timer**: the start returns `RET_OK`,
and the handler leaves the timer disabled. -/
theorem restart_lost :
    (firedTimer.hgtimerV2IrqHandler 1000000
      { quietWindows with callback := [.call (.start 500 (some 1) 0)] }).log =
        [(.start 500 (some 1) 0, retOk)] ∧
    modeOf (firedTimer.hgtimerV2IrqHandler 1000000
      { quietWindows with callback := [.call (.start 500 (some 1) 0)] }).dev.tmrCon =
        modeSelDisable := by
  decide

end Timer

end Hgsdk

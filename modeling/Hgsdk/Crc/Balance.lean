import Hgsdk.Crc.Model
import Mathlib.Data.List.Count
/-!
# The lock over the two halves of a request

`hg_crc_kick` takes the lock and `hg_crc_get` gives it up. A client that
calls `hg_crc_get` once after each `hg_crc_kick` that returned `RET_OK`
leaves the lock balanced, if `RET_OK` means that the lock was taken. It
does not where the request is null or empty: `hg_crc_kick` then returns
`RET_OK` without having done anything.

The invariant counts: a task holds the lock once for every kick it has
still to collect, and once more inside a call that has taken it.
-/

namespace Hgsdk

namespace Crc

variable {T : Type} [DecidableEq T]

/-- The task enters a call. -/
def Event.isCalled : Event → Bool
  | .called _ => true
  | _ => false

/-- `hg_crc_kick` returns `RET_OK`. -/
def Event.isKicked : Event → Bool
  | .returned (.kick _) r _ => r = retOk
  | _ => false

/-- `hg_crc_get` is called. -/
def Event.isGet : Event → Bool
  | .called .get => true
  | _ => false

section Events

variable (c : Call) (r : CInt) (v : Option (BitVec 32)) (job : CrcRegs) (b : Bool)

@[simp] theorem Event.isCalled_called : (Event.called c).isCalled = true := rfl
@[simp] theorem Event.isCalled_locked : Event.locked.isCalled = false := rfl
@[simp] theorem Event.isCalled_started : (Event.started job).isCalled = false := rfl
@[simp] theorem Event.isKicked_called : (Event.called c).isKicked = false := rfl
@[simp] theorem Event.isKicked_locked : Event.locked.isKicked = false := rfl
@[simp] theorem Event.isKicked_started : (Event.started job).isKicked = false := rfl
@[simp] theorem Event.isKicked_unlocked : (Event.unlocked b).isKicked = false := rfl
@[simp] theorem Event.isGet_locked : Event.locked.isGet = false := rfl
@[simp] theorem Event.isGet_started : (Event.started job).isGet = false := rfl
@[simp] theorem Event.isGet_unlocked : (Event.unlocked b).isGet = false := rfl
@[simp] theorem Event.isGet_returned : (Event.returned c r v).isGet = false := rfl

variable {c r v}

theorem Event.isGet_called (h : c ≠ .get) : (Event.called c).isGet = false := by
  rcases c with _ | _ | _
  · rfl
  · rfl
  · exact absurd rfl h

/-- Only a kick that returns `RET_OK` is to be collected. -/
theorem Event.isKicked_returned (h : ∀ req, c = .kick req → r ≠ retOk) :
    (Event.returned c r v).isKicked = false := by
  rcases c with _ | req | _
  · rfl
  · exact decide_eq_false (h req rfl)
  · rfl

end Events

/-- What `t` has done since it entered its last call, newest first. -/
def sinceCall (t : T) : List (T × Event) → List Event
  | [] => []
  | (u, e) :: log =>
    if u = t then (if e.isCalled then [] else e :: sinceCall t log) else sinceCall t log

/-- How many kicks of `t` have returned `RET_OK` and not been collected. -/
def outstanding (t : T) : List (T × Event) → ℕ
  | [] => 0
  | (u, e) :: log =>
    if u = t then outstanding t log + e.isKicked.toNat - e.isGet.toNat else outstanding t log

/-- **`RET_OK` from `hg_crc_kick`** means that the call has taken the lock
and started a job, at every return in the log. -/
def KicksHold : List (T × Event) → Prop
  | [] => True
  | (t, e) :: log =>
    (∀ req r value, e = .returned (.kick req) r value →
      (r = retOk ↔ .locked ∈ sinceCall t log ∧ ∃ job, .started job ∈ sinceCall t log)) ∧
    KicksHold log

/-- **The lock is balanced**: only its holder has released it, each unlock
answers one lock of the same task, a kick returns `RET_OK` exactly when it
has taken the lock and started a job, and once every call has returned and
every kick is collected the lock is free. -/
structure Balanced (s : Sys T) : Prop where
  released : ∀ t, (t, Event.unlocked false) ∉ s.log
  matched : ∀ t, s.log.count (t, .locked) = s.log.count (t, .unlocked true) + s.lock.count t
  kicks : KicksHold s.log
  free : (∀ t, s.pc t = .idle) → (∀ t, outstanding t s.log = 0) → s.lock = .free

/-- **The client's side**: `hg_crc_get` is called once after each kick that
returned `RET_OK`. -/
def GetAfterKick (s : Sys T) : Act T → Prop
  | .call t .get => 0 < outstanding t s.log
  | _ => True

/-- No kick of a null or empty request. -/
def KickNonEmpty (_ : Sys T) : Act T → Prop
  | .call _ (.kick req) => ∃ r, req = some r ∧ r.NonEmpty
  | _ => True

instance (s : Sys T) : ∀ a, Decidable (GetAfterKick s a)
  | .call t .get => inferInstanceAs (Decidable (0 < outstanding t s.log))
  | .call _ (.calc _) | .call _ (.kick _) => isTrue trivial
  | .step _ | .lockFail _ | .timeout _ | .finish _ => isTrue trivial

omit [DecidableEq T] in
instance (s : Sys T) : ∀ a, Decidable (KickNonEmpty s a)
  | .call _ (.kick (some r)) => decidable_of_iff r.NonEmpty
      ⟨fun h => ⟨r, rfl, h⟩, fun ⟨_, hr, h⟩ => Option.some.inj hr ▸ h⟩
  | .call _ (.kick none) => isFalse fun ⟨_, hr, _⟩ => nomatch hr
  | .call _ (.calc _) | .call _ .get => isTrue trivial
  | .step _ | .lockFail _ | .timeout _ | .finish _ => isTrue trivial

/-! ### Reading the log -/

section Log

variable {t u : T} {e : Event} {es : List Event} {log : List (T × Event)}

theorem sinceCall_of_ne (hu : u ≠ t) :
    sinceCall u (es.map (Prod.mk t) ++ log) = sinceCall u log := by
  induction es with
  | nil => rfl
  | cons e es ih => rw [List.map_cons, List.cons_append, sinceCall, if_neg (Ne.symm hu), ih]

theorem outstanding_of_ne (hu : u ≠ t) :
    outstanding u (es.map (Prod.mk t) ++ log) = outstanding u log := by
  induction es with
  | nil => rfl
  | cons e es ih => rw [List.map_cons, List.cons_append, outstanding, if_neg (Ne.symm hu), ih]

theorem count_of_ne (hu : u ≠ t) :
    (es.map (Prod.mk t) ++ log).count (u, e) = log.count (u, e) := by
  have hnot : (u, e) ∉ es.map (Prod.mk t) := by
    intro hmem
    obtain ⟨e', -, heq⟩ := List.mem_map.1 hmem
    exact hu (congrArg Prod.fst heq).symm
  rw [List.count_append, List.count_eq_zero_of_not_mem hnot, Nat.zero_add]

@[simp] theorem sinceCall_self (t : T) (e : Event) (log : List (T × Event)) :
    sinceCall t ((t, e) :: log) = if e.isCalled then [] else e :: sinceCall t log :=
  if_pos rfl

@[simp] theorem outstanding_self (t : T) (e : Event) (log : List (T × Event)) :
    outstanding t ((t, e) :: log) = outstanding t log + e.isKicked.toNat - e.isGet.toNat :=
  if_pos rfl

/-- What the log has shown stays shown. -/
theorem KicksHold.of_append {new : List (T × Event)} (h : KicksHold (new ++ log)) :
    KicksHold log := by
  induction new with
  | nil => exact h
  | cons e new ih => exact ih h.2

/-- Only the return of a kick is asked about. -/
theorem KicksHold.cons (h : KicksHold log)
    (he : ∀ req r value, e ≠ .returned (.kick req) r value) : KicksHold ((t, e) :: log) :=
  ⟨fun req r value heq => absurd heq (he req r value), h⟩

end Log

/-! ### The invariant -/

/-- How often a task holds the lock because of where it is. -/
def Pc.holds : Pc → ℕ
  | .idle | .lock _ _ _ => 0
  | .config _ _ _ | .store _ _ _ | .wait _ | .read _ _ | .unlock _ _ _ => 1

/-- What a task on its way to starting a job has done in its call. -/
def Pc.Since (es : List Event) : Pc → Prop
  | .lock _ _ _ => .locked ∉ es
  | .config _ _ _ => .locked ∈ es
  | .store _ _ left =>
    .locked ∈ es ∧ ((∃ v, (.dmaLen, v) ∈ left) ∨ ∃ job, .started job ∈ es)
  | _ => True

/-- **The invariant.** -/
structure Inv (s : Sys T) : Prop where
  holding : ∀ t, s.lock.count t = outstanding t s.log + (s.pc t).holds
  since : ∀ t, (s.pc t).Since (sinceCall t s.log)
  released : ∀ t, (t, Event.unlocked false) ∉ s.log
  matched : ∀ t, s.log.count (t, .locked) = s.log.count (t, .unlocked true) + s.lock.count t
  kicks : KicksHold s.log

variable {s s' : Sys T} {t : T} {pc : Pc}

theorem Inv.balanced (h : Inv s) : Balanced s where
  released := h.released
  matched := h.matched
  kicks := h.kicks
  free hidle hout := by
    refine RecMutex.eq_free fun t => ?_
    rw [h.holding t, hidle t, hout t]
    rfl

/-- **The step rule.** `t` moves on to `pc` and adds `es` to the log; the
others see nothing of it. -/
theorem Inv.next (h : Inv s) (es : List Event) (hpc : s'.pc = Function.update s.pc t pc)
    (hlog : s'.log = es.map (Prod.mk t) ++ s.log)
    (hothers : ∀ u, u ≠ t → s'.lock.count u = s.lock.count u)
    (hhold : s'.lock.count t = outstanding t s'.log + pc.holds)
    (hsince : pc.Since (sinceCall t s'.log)) (hrel : .unlocked false ∉ es)
    (hmatch : s'.log.count (t, .locked) = s'.log.count (t, .unlocked true) + s'.lock.count t)
    (hkicks : KicksHold s'.log) : Inv s' where
  holding u := by
    by_cases hu : u = t
    · rw [hu, hpc, Function.update_self]
      exact hhold
    · rw [hothers u hu, hpc, Function.update_of_ne hu, hlog, outstanding_of_ne hu]
      exact h.holding u
  since u := by
    by_cases hu : u = t
    · rw [hu, hpc, Function.update_self]
      exact hsince
    · rw [hpc, Function.update_of_ne hu, hlog, sinceCall_of_ne hu]
      exact h.since u
  released u := by
    rw [hlog]
    intro hmem
    rcases List.mem_append.1 hmem with hmem | hmem
    · obtain ⟨e, he, heq⟩ := List.mem_map.1 hmem
      obtain ⟨-, rfl⟩ := Prod.mk.inj heq
      exact hrel he
    · exact h.released u hmem
  matched u := by
    by_cases hu : u = t
    · rw [hu]
      exact hmatch
    · rw [hothers u hu, hlog, count_of_ne hu, count_of_ne hu]
      exact h.matched u
  kicks := hkicks

theorem count_map_mk {e : Event} {es : List Event} {log : List (T × Event)} (he : e ∉ es) :
    (es.map (Prod.mk t) ++ log).count (t, e) = log.count (t, e) := by
  have hnot : (t, e) ∉ es.map (Prod.mk t) := by
    intro hmem
    obtain ⟨e', he', heq⟩ := List.mem_map.1 hmem
    exact he ((Prod.mk.inj heq).2 ▸ he')
  rw [List.count_append, List.count_eq_zero_of_not_mem hnot, Nat.zero_add]

/-- A step that leaves the lock alone. -/
theorem Inv.say (h : Inv s) (es : List Event) (hpc : s'.pc = Function.update s.pc t pc)
    (hlog : s'.log = es.map (Prod.mk t) ++ s.log) (hlock : s'.lock = s.lock)
    (hes : .locked ∉ es ∧ ∀ b, .unlocked b ∉ es)
    (hhold : outstanding t s'.log + pc.holds = outstanding t s.log + (s.pc t).holds)
    (hsince : pc.Since (sinceCall t s'.log)) (hkicks : KicksHold s'.log) : Inv s' := by
  refine h.next es hpc hlog (fun u _ => by rw [hlock]) ?_ hsince (hes.2 false) ?_ hkicks
  · rw [hlock, hhold]
    exact h.holding t
  · rw [hlock, hlog, count_map_mk hes.1, count_map_mk (hes.2 true)]
    exact h.matched t

/-- A step nobody can see. -/
theorem Inv.goto (h : Inv s) (hpc : s'.pc = Function.update s.pc t pc) (hlog : s'.log = s.log)
    (hlock : s'.lock = s.lock) (hholds : pc.holds = (s.pc t).holds)
    (hsince : pc.Since (sinceCall t s.log)) : Inv s' := by
  refine h.say [] hpc hlog hlock ⟨List.not_mem_nil, fun _ => List.not_mem_nil⟩ ?_ ?_ ?_
  · rw [hlog, hholds]
  · rw [hlog]
    exact hsince
  · rw [hlog]
    exact h.kicks

/-! ### Each step -/

theorem Inv.lock {k : Starter} {req : CrcDevReq} {cfg : HgcrcConfig} {lock : RecMutex T}
    (h : Inv s) (hpc : s.pc t = .lock k req cfg) (hlock : s.lock.lock t = some lock) :
    Inv (({ s with lock }.emit t .locked).goto t (.config k req cfg)) := by
  have hcount := RecMutex.count_lock hlock
  have hhold := h.holding t
  have hmatch := h.matched t
  rw [hpc] at hhold
  refine h.next [.locked] rfl rfl ?_ ?_ ?_ (by simp) ?_ ?_
  · intro u hu
    simp [hcount, Ne.symm hu]
  · simp [hcount, hhold, Pc.holds]
  · simp [Pc.Since]
  · simp only [Sys.goto_log, Sys.emit_log, Sys.goto_lock, Sys.emit_lock, hcount, if_pos,
      List.count_cons_self, List.count_cons_of_ne (show (t, Event.locked) ≠ (t, .unlocked true) by simp)]
    omega
  · exact h.kicks.cons (by rintro _ _ _ ⟨⟩)

/-- Giving up on the lock: the call fails and holds nothing. -/
theorem Inv.lockFail {k : Starter} {req : CrcDevReq} {cfg : HgcrcConfig} (h : Inv s)
    (hpc : s.pc t = .lock k req cfg) : Inv (s.ret t (k.call req) retErr none) := by
  have hsince := h.since t
  rw [hpc] at hsince
  have hne : retErr ≠ retOk := by decide
  refine h.say [.returned (k.call req) retErr none] rfl rfl rfl ⟨by simp, by simp⟩ ?_ trivial ?_
  · rw [hpc]
    simp [Event.isKicked_returned fun _ _ => hne, Pc.holds]
  · refine ⟨?_, h.kicks⟩
    rintro req' r value heq
    obtain ⟨-, rfl, -⟩ := Event.returned.inj heq
    exact iff_of_false hne fun hin => hsince hin.1

theorem Inv.config {k : Starter} {req : CrcDevReq} {cfg : HgcrcConfig} (h : Inv s)
    (hpc : s.pc t = .config k req cfg) :
    Inv (s.goto t (.store k req (stores s.regs.crcCfg req cfg))) := by
  have hsince := h.since t
  rw [hpc] at hsince
  refine h.goto rfl rfl rfl (by rw [hpc]; rfl) ⟨hsince, .inl ⟨req.len, ?_⟩⟩
  simp [stores]

/-- A store; the one that starts the job is still to come, or the job has
been started. -/
theorem Inv.store {k : Starter} {req : CrcDevReq} {r : Reg} {v : BitVec 32}
    {left : List (Reg × BitVec 32)} (h : Inv s) (hpc : s.pc t = .store k req ((r, v) :: left)) :
    Inv ((s.write t r v).goto t (.store k req left)) := by
  have hsince := h.since t
  rw [hpc] at hsince
  obtain ⟨hlocked, hstarted⟩ := hsince
  by_cases hr : r = .dmaLen
  · subst hr
    rw [Sys.write_dmaLen]
    refine h.say [.started (s.regs.write v .dmaLen)] rfl rfl rfl ⟨by simp, by simp⟩ ?_ ⟨?_, ?_⟩ ?_
    · rw [hpc]
      simp [Pc.holds]
    · simp [hlocked]
    · exact .inr ⟨s.regs.write v .dmaLen, by simp⟩
    · exact h.kicks.cons nofun
  · rw [Sys.write_of_ne s t v hr]
    refine h.goto rfl rfl rfl (by rw [hpc]; rfl) ⟨hlocked, ?_⟩
    rcases hstarted with ⟨w, hw⟩ | hstarted
    · refine .inl ⟨w, ?_⟩
      rcases List.mem_cons.1 hw with heq | hw
      · exact absurd (Prod.mk.inj heq).1.symm hr
      · exact hw
    · exact .inr hstarted

/-- A kick returns with its job started. -/
theorem Inv.kicked {req : CrcDevReq} (h : Inv s) (hpc : s.pc t = .store .kick req []) :
    Inv (s.ret t (.kick (some req)) retOk none) := by
  have hsince := h.since t
  rw [hpc] at hsince
  obtain ⟨hlocked, ⟨v, hv⟩ | hstarted⟩ := hsince
  · exact absurd hv List.not_mem_nil
  refine h.say [.returned (.kick (some req)) retOk none] rfl rfl rfl ⟨by simp, by simp⟩ ?_ trivial ?_
  · rw [hpc]
    simp [Event.isKicked, Pc.holds]
  · refine ⟨?_, h.kicks⟩
    rintro req' r value heq
    obtain ⟨-, rfl, -⟩ := Event.returned.inj heq
    exact iff_of_true rfl ⟨hlocked, hstarted⟩

/-- The unlock at the end of `hg_crc_calc` and `hg_crc_get` is by the
holder. -/
theorem Inv.unlock {w : Waiter} {taken : Bool} {value : BitVec 32} (h : Inv s)
    (hpc : s.pc t = .unlock w taken value) :
    Inv ((s.osMutexUnlock t).ret t w.call (Sys.result taken value w) (some value)) := by
  have hhold := h.holding t
  have hmatch := h.matched t
  rw [hpc] at hhold
  have hpos : 0 < s.lock.count t := by rw [hhold]; exact Nat.succ_pos _
  obtain ⟨lock, hunlock, hcount⟩ := RecMutex.exists_unlock hpos
  have hself := hcount t
  rw [if_pos rfl] at hself
  have hcall : ∀ req, w.call ≠ .kick req := by
    intro req
    rcases w <;> rintro ⟨⟩
  unfold Sys.osMutexUnlock
  rw [hunlock]
  refine h.next [.returned w.call (Sys.result taken value w) (some value), .unlocked true] rfl rfl
    ?_ ?_ trivial (by simp) ?_ ?_
  · intro u hu
    have hother := hcount u
    rw [if_neg (Ne.symm hu), Nat.add_zero] at hother
    exact hother.symm
  · have hout : lock.count t = outstanding t s.log := by
      have hone : (Pc.unlock w taken value).holds = 1 := rfl
      omega
    simp [Event.isKicked_returned fun req heq => absurd heq (hcall req), hout, Pc.holds]
  · have hret : ∀ e, e = Event.locked ∨ e = .unlocked true →
        (t, Event.returned w.call (Sys.result taken value w) (some value)) ≠ (t, e) := by
      rintro e (rfl | rfl) <;> simp
    have hne : (t, Event.unlocked true) ≠ (t, .locked) := by simp
    simp only [Sys.ret_log, Sys.emit_log, List.count_cons_of_ne (hret _ (.inl rfl)),
      List.count_cons_of_ne (hret _ (.inr rfl)), List.count_cons_of_ne hne, List.count_cons_self]
    show _ = _ + lock.count t
    omega
  · refine KicksHold.cons (h.kicks.cons (by rintro _ _ _ ⟨⟩)) ?_
    intro req r v heq
    exact hcall req (Event.returned.inj heq).1

/-- A call that is taken up. -/
theorem Inv.callStart {c : Call} {k : Starter} {req : CrcDevReq} {cfg : HgcrcConfig} (h : Inv s)
    (hpc : s.pc t = .idle) (hc : c ≠ .get) :
    Inv ((s.emit t (.called c)).goto t (.lock k req cfg)) := by
  refine h.say [.called c] rfl rfl rfl ⟨by simp, by simp⟩ ?_ ?_ (h.kicks.cons nofun)
  · rw [hpc]
    simp [Event.isGet_called hc, Pc.holds]
  · simp [Pc.Since]

/-- A call that returns at once; a kick, not with `RET_OK`. -/
theorem Inv.callDone {c : Call} {r : CInt} (h : Inv s) (hpc : s.pc t = .idle)
    (hr : ∀ req, c = .kick req → r ≠ retOk) (hc : c ≠ .get) :
    Inv ((s.emit t (.called c)).ret t c r none) := by
  refine h.say [.returned c r none, .called c] rfl rfl rfl ⟨by simp, by simp⟩ ?_ trivial ?_
  · rw [hpc]
    simp [Event.isGet_called hc, Event.isKicked_returned hr, Pc.holds]
  · refine ⟨?_, h.kicks.cons nofun⟩
    intro req r' value heq
    obtain ⟨hcall, rfl, -⟩ := Event.returned.inj heq
    refine iff_of_false (hr req hcall) ?_
    simp

/-- The hold passes from the kick to the call that collects it. -/
theorem Inv.callGet (h : Inv s) (hpc : s.pc t = .idle) (hpos : 0 < outstanding t s.log) :
    Inv ((s.emit t (.called .get)).goto t (.wait .get)) := by
  refine h.say [.called .get] rfl rfl rfl ⟨by simp, by simp⟩ ?_ trivial (h.kicks.cons nofun)
  rw [hpc]
  have hisget : (Event.called .get).isGet = true := rfl
  simp only [Sys.goto_log, Sys.emit_log, outstanding_self, Event.isKicked_called, hisget,
    Bool.toNat_true, Bool.toNat_false, Pc.holds]
  omega

/-- A request that has something to compute on is not answered `RET_OK` at
once. -/
theorem checkReq_error_ne_ok {req : CrcDevReq} {r : CInt} (hne : req.NonEmpty)
    (h : checkReq (some req) = .error r) : r ≠ retOk := by
  rintro rfl
  simp only [checkReq, if_pos hne] at h
  split at h
  · cases h
  · exact absurd (Except.error.inj h) (by decide)

theorem Starter.call_ne_get (k : Starter) (req : CrcDevReq) : k.call req ≠ .get := by
  rcases k <;> simp [Starter.call]

/-- **Every step keeps the invariant**, where the client keeps to its side
and no kick is empty. -/
theorem Inv.step {engine : CrcRegs → BitVec 32} {a : Act T} (h : Inv s) (hget : GetAfterKick s a)
    (hkick : KickNonEmpty s a) (hstep : Step engine s a s') : Inv s' := by
  cases hstep with
  | @callStart t k req cfg hpc _ => exact h.callStart hpc (k.call_ne_get req)
  | callDone hpc hc herr =>
    rcases hc with rfl | rfl
    · exact h.callDone hpc nofun nofun
    · obtain ⟨req, rfl, hne⟩ := hkick
      exact h.callDone hpc (fun _ _ => checkReq_error_ne_ok hne herr) nofun
  | callGet hpc => exact h.callGet hpc hget
  | lock hpc hlock => exact h.lock hpc hlock
  | lockFail hpc => exact h.lockFail hpc
  | config hpc => exact h.config hpc
  | store hpc => exact h.store hpc
  | kicked hpc => exact h.kicked hpc
  | calculating hpc => exact h.goto rfl rfl rfl (by rw [hpc]; rfl) trivial
  | taken hpc _ => exact h.goto rfl rfl rfl (by rw [hpc]; rfl) trivial
  | timeout hpc => exact h.goto rfl rfl rfl (by rw [hpc]; rfl) trivial
  | read hpc => exact h.goto rfl rfl rfl (by rw [hpc]; rfl) trivial
  | unlock hpc => exact h.unlock hpc
  | finish _ => exact ⟨h.holding, h.since, h.released, h.matched, h.kicks⟩

theorem inv_attach (regs : CrcRegs) (crcOut : BitVec 32) :
    Inv (Sys.hgCrcAttach regs crcOut : Sys T) where
  holding _ := rfl
  since _ := trivial
  released _ := List.not_mem_nil
  matched _ := rfl
  kicks := trivial

/-! ### What an empty kick shows -/

/-- Every step only adds to the log. -/
theorem Step.log_suffix {engine : CrcRegs → BitVec 32} {a : Act T} (h : Step engine s a s') :
    ∃ new, s'.log = new ++ s.log := by
  cases h with
  | callStart _ _ | callGet _ | lock _ _ | lockFail _ | kicked _ => exact ⟨[_], rfl⟩
  | callDone _ _ _ => exact ⟨[_, _], rfl⟩
  | config _ | calculating _ | taken _ _ | timeout _ | read _ | finish _ => exact ⟨[], rfl⟩
  | @store t k req r v left _ =>
    by_cases hr : r = .dmaLen
    · rw [hr, Sys.write_dmaLen]
      exact ⟨[_], rfl⟩
    · rw [Sys.write_of_ne s t v hr]
      exact ⟨[], rfl⟩
  | @unlock t _ _ _ _ =>
    obtain ⟨lock, b, hunlock⟩ := s.exists_osMutexUnlock t
    rw [hunlock]
    exact ⟨[_, _], rfl⟩

theorem log_suffix_of_run {engine : CrcRegs → BitVec 32} {acts : List (Act T)}
    (hrun : (unit engine).run s acts = some s') : ∃ new, s'.log = new ++ s.log := by
  refine Machine.inv_of_run_of_step (I := fun u => ∃ new, u.log = new ++ s.log) ?_ ⟨[], rfl⟩ hrun
  rintro u a v ⟨new, hnew⟩ hstep
  obtain ⟨more, hmore⟩ := (step_of_eq hstep).log_suffix
  exact ⟨more ++ new, by rw [hmore, hnew, List.append_assoc]⟩

theorem checkReq_of_empty {req : Option CrcDevReq} (h : ¬ ∃ r, req = some r ∧ r.NonEmpty) :
    checkReq req = .error retOk := by
  rcases req with _ | req
  · rfl
  · exact if_neg fun hne => h ⟨req, rfl, hne⟩

/-- An empty kick returns `RET_OK` without the lock, and the log shows it. -/
theorem not_kicksHold_of_empty {engine : CrcRegs → BitVec 32} {a : Act T}
    (hstep : Step engine s a s') (hempty : ¬ KickNonEmpty s a) : ¬ KicksHold s'.log := by
  cases hstep with
  | @callStart t k req cfg _ hok =>
    rcases k with _ | _
    · exact absurd trivial hempty
    · exact absurd ⟨req, rfl, (checkReq_ok hok).2.1⟩ hempty
  | callDone hpc hc herr =>
    rcases hc with rfl | rfl
    · exact absurd trivial hempty
    · rw [checkReq_of_empty hempty] at herr
      obtain rfl := Except.error.inj herr
      intro hkicks
      have hlocked := ((hkicks.1 _ _ _ rfl).1 rfl).1
      simp at hlocked
  | callGet _ | lock _ _ | lockFail _ | config _ | store _ | kicked _ | calculating _ | taken _ _
  | timeout _ | read _ | unlock _ | finish _ => exact absurd trivial hempty

/-- So a log in which every kick holds comes from a run without empty
kicks. -/
theorem along_of_kicksHold {engine : CrcRegs → BitVec 32} {acts : List (Act T)}
    (hrun : (unit engine).run s acts = some s') (hkicks : KicksHold s'.log) :
    (unit engine).Along KickNonEmpty s acts := by
  induction acts generalizing s with
  | nil => trivial
  | cons a acts ih =>
    obtain ⟨u, hstep, hrest⟩ := Machine.run_cons_eq_some.1 hrun
    refine (Machine.along_cons_of_step hstep).2 ⟨?_, ih hrest⟩
    by_contra hempty
    obtain ⟨new, hnew⟩ := log_suffix_of_run hrest
    rw [hnew] at hkicks
    exact not_kicksHold_of_empty (step_of_eq hstep) hempty hkicks.of_append

/-- **The lock is balanced exactly where no kick is empty.** After
`hg_crc_attach`, for any number of tasks in any interleaving, with clients
that call `hg_crc_get` once after each `hg_crc_kick` that returned
`RET_OK` and `hg_crc_calc` as they like: the lock is balanced if and only
if no kick of the run was of a null or empty request. -/
theorem crc_lock_balanced_iff (engine : CrcRegs → BitVec 32) (regs : CrcRegs) (crcOut : BitVec 32)
    (acts : List (Act T)) (s : Sys T)
    (hget : (unit engine).Along GetAfterKick (Sys.hgCrcAttach regs crcOut) acts)
    (hrun : (unit engine).run (Sys.hgCrcAttach regs crcOut) acts = some s) :
    Balanced s ↔ (unit engine).Along KickNonEmpty (Sys.hgCrcAttach regs crcOut) acts := by
  constructor
  · intro hbal
    exact along_of_kicksHold hrun hbal.kicks
  · intro hkick
    have hinv : Inv s := by
      refine Machine.inv_of_run (I := Inv) ?_ (inv_attach regs crcOut) (hget.and hkick) hrun
      intro u a v hu hcond hstep
      exact hu.step hcond.1 hcond.2 (step_of_eq hstep)
    exact hinv.balanced

/-- Registers that hold nothing. -/
def blankRegs : CrcRegs := ⟨0, 0, 0, 0, 0, 0⟩

/-- Nine steps of a task. -/
def nineSteps {T : Type} (t : T) : List (Act T) := List.replicate 9 (.step t)

/-- A kick, its job and its collection: the lock is taken and given up. -/
def kickAndGet (req : CrcDevReq) : List (Act Bool) :=
  .call true (.kick (some req)) :: nineSteps true ++
    [.finish 0, .call true .get, .step true, .step true, .step true]

/-- Four bytes, CRC32. -/
def fourBytes : CrcDevReq := { type := 5, data := 0x20000000, len := 4 }

theorem crc_lock_balanced_four_bytes :
    ∃ s, (unit CrcRegs.dmaLen).run (Sys.hgCrcAttach blankRegs 0) (kickAndGet fourBytes) = some s ∧
      Balanced s ∧ (true, .locked) ∈ s.log ∧ s.lock = .free := by
  have hget : (unit CrcRegs.dmaLen).Along GetAfterKick (Sys.hgCrcAttach blankRegs 0)
      (kickAndGet fourBytes) := by decide
  have hkick : (unit CrcRegs.dmaLen).Along KickNonEmpty (Sys.hgCrcAttach blankRegs 0)
      (kickAndGet fourBytes) := by decide
  exact ⟨_, rfl, (crc_lock_balanced_iff CrcRegs.dmaLen blankRegs 0 _ _ hget rfl).2 hkick, by decide,
    rfl⟩

/-- A request without data. -/
def emptyReq : CrcDevReq := { type := 5, data := 0x20000000, len := 0 }

/-- A kick and its collection, where nothing was started. -/
def emptyKickAndGet : List (Act Bool) :=
  [.call true (.kick (some emptyReq)), .call true .get, .timeout true, .step true, .step true]

/-- **The unlock of a lock nobody took.** A kick of an empty request
returns `RET_OK`; the `hg_crc_get` the client owes for it waits in vain
and then unlocks a lock it does not hold. -/
theorem crc_lock_unbalanced :
    ∃ s, (unit CrcRegs.dmaLen).Along GetAfterKick (Sys.hgCrcAttach blankRegs 0) emptyKickAndGet ∧
      (unit CrcRegs.dmaLen).run (Sys.hgCrcAttach blankRegs 0) emptyKickAndGet = some s ∧
      (true, .returned (.kick (some emptyReq)) retOk none) ∈ s.log ∧
      (true, .unlocked false) ∈ s.log ∧ (true, .locked) ∉ s.log ∧ ¬ Balanced s := by
  have hget : (unit CrcRegs.dmaLen).Along GetAfterKick (Sys.hgCrcAttach blankRegs 0)
      emptyKickAndGet := by decide
  exact ⟨_, hget, rfl, by decide, by decide, by decide, fun h => h.released true (by decide)⟩

end Crc

end Hgsdk

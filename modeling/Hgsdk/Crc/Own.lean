import Hgsdk.Crc.Balance
/-!
# Whose result `hg_crc_calc` returns

`hg_crc_calc` waits for a post of `done` and reads `CRC_OUT`. Nothing ties
the post to its own job. As long as every job is started with no other in
flight and no post left over, the post can only be its own job's and the
value is the CRC of its own data. A request that timed out leaves a job
behind, and its late post is taken for the next request's.
-/

namespace Hgsdk

namespace Crc

variable {T : Type} [DecidableEq T]

/-- The job of a request. -/
def jobFor (req : CrcDevReq) (cfg : HgcrcConfig) : CrcRegs where
  crcCfg := cfgReg crcCfgIntEn cfg
  crcInit := cfg.initVal
  crcInv := cfg.xorOut
  crcPoly := cfg.poly
  dmaAddr := req.data
  dmaLen := req.len

/-- **The CRC of a request's own data**, for a type the driver knows. -/
def crcOf (engine : CrcRegs → BitVec 32) (req : CrcDevReq) : Option (BitVec 32) :=
  (hgcrcCfg[req.type.toNat]?).map fun cfg => engine (jobFor req cfg)

/-- Every `hg_crc_calc` that returned `RET_OK` for a request with data
stored the CRC of that data. -/
def OwnResults (engine : CrcRegs → BitVec 32) (s : Sys T) : Prop :=
  ∀ t req value, (t, .returned (.calc (some req)) retOk value) ∈ s.log → req.NonEmpty →
    ∃ v, value = some v ∧ crcOf engine req = some v

/-- The tasks call `hg_crc_calc` only. -/
def CalcOnly (_ : Sys T) : Act T → Prop
  | .call _ c => ∃ req, c = .calc req
  | _ => True

/-- The task is about to store the length. -/
def Pc.starts : Pc → Bool
  | .store _ _ ((r, _) :: _) => r = .dmaLen
  | _ => false

/-- **A quiet start**: when the length is stored, no job is in flight and
no post is left over. -/
def QuietStart (s : Sys T) : Act T → Prop
  | .step t => (s.pc t).starts → s.jobs = [] ∧ s.done = 0
  | _ => True

omit [DecidableEq T] in
instance (s : Sys T) : ∀ a, Decidable (CalcOnly s a)
  | .call _ (.calc req) => isTrue ⟨req, rfl⟩
  | .call _ (.kick _) | .call _ .get => isFalse nofun
  | .step _ | .lockFail _ | .timeout _ | .finish _ => isTrue trivial

omit [DecidableEq T] in
instance (s : Sys T) : ∀ a, Decidable (QuietStart s a)
  | .step t => inferInstanceAs (Decidable ((s.pc t).starts = true → s.jobs = [] ∧ s.done = 0))
  | .call _ _ | .lockFail _ | .timeout _ | .finish _ => isTrue trivial

/-! ### The stores of a request -/

/-- The registers after some stores. -/
def CrcRegs.writes (regs : CrcRegs) (ws : List (Reg × BitVec 32)) : CrcRegs :=
  ws.foldl (fun regs w => regs.write w.2 w.1) regs

theorem cfgReg_of_intEn {c : BitVec 32} (h : c &&& crcCfgIntEn = crcCfgIntEn) (cfg : HgcrcConfig) :
    cfgReg c cfg = cfgReg crcCfgIntEn cfg := by
  rw [cfgReg, h]
  rfl

theorem intEn_or (y : BitVec 32) : (crcCfgIntEn ||| y) &&& crcCfgIntEn = crcCfgIntEn := by
  ext i hi
  simp only [BitVec.getElem_and, BitVec.getElem_or]
  cases crcCfgIntEn[i] <;> simp

theorem cfgReg_intEn (cfg : HgcrcConfig) :
    cfgReg crcCfgIntEn cfg &&& crcCfgIntEn = crcCfgIntEn := by
  have hself : crcCfgIntEn &&& crcCfgIntEn = crcCfgIntEn := rfl
  rw [cfgReg, hself, BitVec.or_assoc, BitVec.or_assoc]
  exact intEn_or _

/-- All the stores of a request give the registers of its job, whatever
they held. -/
theorem writes_stores (regs : CrcRegs) (req : CrcDevReq) (cfg : HgcrcConfig) :
    regs.writes (stores crcCfgIntEn req cfg) = jobFor req cfg := rfl

/-- One store of a request: the length is the last, and the interrupt
stays enabled. -/
theorem suffix_stores {req : CrcDevReq} {cfg : HgcrcConfig} {r : Reg} {v : BitVec 32}
    {left : List (Reg × BitVec 32)} (h : ((r, v) :: left) <:+ stores crcCfgIntEn req cfg) :
    (r = .dmaLen ↔ left = []) ∧ ∀ regs : CrcRegs, regs.crcCfg &&& crcCfgIntEn = crcCfgIntEn →
      (regs.write v r).crcCfg &&& crcCfgIntEn = crcCfgIntEn := by
  simp only [stores, List.suffix_cons_iff, List.suffix_nil, List.cons.injEq, Prod.mk.injEq,
    reduceCtorEq, or_false] at h
  obtain ⟨⟨rfl, rfl⟩, rfl⟩ | ⟨⟨rfl, rfl⟩, rfl⟩ | ⟨⟨rfl, rfl⟩, rfl⟩ | ⟨⟨rfl, rfl⟩, rfl⟩ |
    ⟨⟨rfl, rfl⟩, rfl⟩ | ⟨⟨rfl, rfl⟩, rfl⟩ := h
  · exact ⟨by simp, fun _ h => h⟩
  · exact ⟨by simp, fun _ h => h⟩
  · exact ⟨by simp, fun _ h => h⟩
  · exact ⟨by simp, fun _ _ => cfgReg_intEn cfg⟩
  · exact ⟨by simp, fun _ h => h⟩
  · exact ⟨by simp, fun _ h => h⟩

/-! ### The invariant -/

/-- The request has data and its type is the driver's. -/
def Known (req : CrcDevReq) (cfg : HgcrcConfig) : Prop :=
  req.NonEmpty ∧ hgcrcCfg[req.type.toNat]? = some cfg

/-- The only job there is has not finished, or it has and its post is there
to be taken. -/
def Running (engine : CrcRegs → BitVec 32) (s : Sys T) (job : CrcRegs) : Prop :=
  (s.jobs = [job] ∧ s.done = 0) ∨ (s.jobs = [] ∧ s.done = 1 ∧ s.crcOut = engine job)

/-- What a task in `hg_crc_calc` may rely on. -/
def Pc.Own (engine : CrcRegs → BitVec 32) (s : Sys T) : Pc → Prop
  | .idle => True
  | .lock k req cfg | .config k req cfg => k = .calc ∧ Known req cfg
  | .store k req left => k = .calc ∧ ∃ cfg, Known req cfg ∧
      left <:+ stores crcCfgIntEn req cfg ∧ s.regs.writes left = jobFor req cfg ∧
      (left = [] → Running engine s (jobFor req cfg))
  | .wait w => ∃ req cfg, w = .calc req ∧ Known req cfg ∧ Running engine s (jobFor req cfg)
  | .read w taken => ∃ req cfg, w = .calc req ∧ Known req cfg ∧
      (taken = true → s.jobs = [] ∧ s.crcOut = engine (jobFor req cfg))
  | .unlock w taken value => ∃ req cfg, w = .calc req ∧ Known req cfg ∧
      (taken = true → value = engine (jobFor req cfg))

/-- **The invariant** of runs that call `hg_crc_calc` only and start every
job quietly. -/
structure OwnInv (engine : CrcRegs → BitVec 32) (s : Sys T) : Prop where
  inv : Inv s
  noKick : ∀ t e, (t, e) ∈ s.log → e.isKicked = false
  intEn : s.regs.crcCfg &&& crcCfgIntEn = crcCfgIntEn
  own : ∀ t, (s.pc t).Own engine s
  results : OwnResults engine s

variable {engine : CrcRegs → BitVec 32} {s s' : Sys T} {t u : T} {pc : Pc} {a : Act T}

/-- Without kicks nothing is to be collected. -/
theorem outstanding_eq_zero {log : List (T × Event)}
    (h : ∀ t e, (t, e) ∈ log → e.isKicked = false) (t : T) : outstanding t log = 0 := by
  induction log with
  | nil => rfl
  | cons p log ih =>
    obtain ⟨u, e⟩ := p
    have hrest := ih fun v f hf => h v f (List.mem_cons_of_mem _ hf)
    rw [outstanding, h u e List.mem_cons_self, hrest]
    simp

/-- **Mutual exclusion**: while a task is past the lock, no other is. -/
theorem OwnInv.exclusive (h : OwnInv engine s) (ht : (s.pc t).holds = 1) (hu : u ≠ t) :
    (s.pc u).holds = 0 := by
  have hcount := h.inv.holding
  have hzero := outstanding_eq_zero h.noKick
  by_contra hne
  have htpos : 0 < s.lock.count t := by rw [hcount, hzero, ht]; exact Nat.one_pos
  have hupos : 0 < s.lock.count u := by rw [hcount, hzero]; omega
  exact hu (RecMutex.holder_unique hupos htpos)

omit [DecidableEq T] in
/-- A task that is not past the lock relies on nothing shared. -/
theorem Pc.Own.of_holds (h : pc.Own engine s) (hpc : pc.holds = 0) : pc.Own engine s' := by
  cases pc with
  | idle => trivial
  | lock k req cfg => exact h
  | config _ _ _ | store _ _ _ | wait _ | read _ _ | unlock _ _ _ => exact nomatch hpc

omit [DecidableEq T] in
/-- The others rely on the unit alone. -/
theorem Pc.Own.congr (h : pc.Own engine s) (hregs : s'.regs = s.regs) (hjobs : s'.jobs = s.jobs)
    (hdone : s'.done = s.done) (hout : s'.crcOut = s.crcOut) : pc.Own engine s' := by
  have hrunning : ∀ job, Running engine s job → Running engine s' job := by
    intro job hjob
    rw [Running, hjobs, hdone, hout]
    exact hjob
  cases pc with
  | idle => trivial
  | lock _ _ _ | config _ _ _ | unlock _ _ _ => exact h
  | store k req left =>
    obtain ⟨hk, cfg, hknown, hleft, hwrites, hrun⟩ := h
    exact ⟨hk, cfg, hknown, hleft, by rw [hregs]; exact hwrites, fun he => hrunning _ (hrun he)⟩
  | wait w =>
    obtain ⟨req, cfg, hw, hknown, hrun⟩ := h
    exact ⟨req, cfg, hw, hknown, hrunning _ hrun⟩
  | read w taken =>
    obtain ⟨req, cfg, hw, hknown, hout'⟩ := h
    refine ⟨req, cfg, hw, hknown, fun htaken => ?_⟩
    rw [hjobs, hout]
    exact hout' htaken

/-- **The step rule.** A task past the lock may change the unit; another
may not. Nothing but `hg_crc_calc` returns. -/
theorem OwnInv.next (h : OwnInv engine s) (hinv : Inv s')
    (hpc : s'.pc = Function.update s.pc t pc) (es : List Event)
    (hlog : s'.log = es.map (Prod.mk t) ++ s.log)
    (hframe : (s.pc t).holds = 1 ∨
      s'.regs = s.regs ∧ s'.jobs = s.jobs ∧ s'.done = s.done ∧ s'.crcOut = s.crcOut)
    (hkick : ∀ e ∈ es, e.isKicked = false)
    (hint : s'.regs.crcCfg &&& crcCfgIntEn = crcCfgIntEn) (hown : pc.Own engine s')
    (hres : ∀ req value, .returned (.calc (some req)) retOk value ∈ es → req.NonEmpty →
      ∃ v, value = some v ∧ crcOf engine req = some v) : OwnInv engine s' where
  inv := hinv
  noKick u e he := by
    rw [hlog] at he
    rcases List.mem_append.1 he with he | he
    · obtain ⟨e', he', heq⟩ := List.mem_map.1 he
      obtain ⟨-, rfl⟩ := Prod.mk.inj heq
      exact hkick e' he'
    · exact h.noKick u e he
  intEn := hint
  own u := by
    by_cases hu : u = t
    · rw [hu, hpc, Function.update_self]
      exact hown
    · rw [hpc, Function.update_of_ne hu]
      rcases hframe with ht | ⟨hregs, hjobs, hdone, hout⟩
      · exact (h.own u).of_holds (h.exclusive ht hu)
      · exact (h.own u).congr hregs hjobs hdone hout
  results u req value hmem hne := by
    rw [hlog] at hmem
    rcases List.mem_append.1 hmem with hmem | hmem
    · obtain ⟨e, he, heq⟩ := List.mem_map.1 hmem
      obtain ⟨-, rfl⟩ := Prod.mk.inj heq
      exact hres req value he hne
    · exact h.results u req value hmem hne

/-! ### Each step -/

/-- A client that only calls `hg_crc_calc` keeps to its side. -/
theorem Inv.step_of_calcOnly (h : Inv s) (hcalc : CalcOnly s a) (hstep : Step engine s a s') :
    Inv s' := by
  refine h.step ?_ ?_ hstep
  · cases a with
    | call t c =>
      obtain ⟨req, rfl⟩ := hcalc
      trivial
    | step _ | lockFail _ | timeout _ | finish _ => trivial
  · cases a with
    | call t c =>
      obtain ⟨req, rfl⟩ := hcalc
      trivial
    | step _ | lockFail _ | timeout _ | finish _ => trivial

omit [DecidableEq T] in
/-- The job that runs finishes. -/
theorem Pc.Own.finish {i : ℕ} {job : CrcRegs} (hjob : s.jobs[i]? = some job)
    (h : pc.Own engine s) :
    pc.Own engine { s with
      crcOut := engine job, jobs := s.jobs.eraseIdx i, done := s.done + 1 } := by
  have hrunning : ∀ own, Running engine s own → Running engine { s with
      crcOut := engine job, jobs := s.jobs.eraseIdx i, done := s.done + 1 } own := by
    rintro own (⟨hjobs, hdone⟩ | ⟨hjobs, -⟩)
    · rw [hjobs, List.getElem?_singleton] at hjob
      split at hjob
      · rename_i hi
        obtain rfl := Option.some.inj hjob
        refine .inr ⟨?_, ?_, rfl⟩
        · show s.jobs.eraseIdx i = []
          rw [hjobs, hi]
          rfl
        · show s.done + 1 = 1
          rw [hdone]
      · exact nomatch hjob
    · rw [hjobs] at hjob
      exact nomatch hjob
  cases pc with
  | idle => trivial
  | lock _ _ _ | config _ _ _ | unlock _ _ _ => exact h
  | store k req left =>
    obtain ⟨hk, cfg, hknown, hleft, hwrites, hrun⟩ := h
    exact ⟨hk, cfg, hknown, hleft, hwrites, fun he => hrunning _ (hrun he)⟩
  | wait w =>
    obtain ⟨req, cfg, hw, hknown, hrun⟩ := h
    exact ⟨req, cfg, hw, hknown, hrunning _ hrun⟩
  | read w taken =>
    obtain ⟨req, cfg, hw, hknown, hout⟩ := h
    refine ⟨req, cfg, hw, hknown, fun htaken => ?_⟩
    -- a post was taken, so no job is left that could finish
    rw [(hout htaken).1] at hjob
    exact nomatch hjob

/-- One store of a request. -/
theorem OwnInv.store {k : Starter} {req : CrcDevReq} {r : Reg} {v : BitVec 32}
    {left : List (Reg × BitVec 32)} (h : OwnInv engine s)
    (hpc : s.pc t = .store k req ((r, v) :: left)) (hquiet : QuietStart s (.step t))
    (hinv : Inv ((s.write t r v).goto t (.store k req left))) :
    OwnInv engine ((s.write t r v).goto t (.store k req left)) := by
  have hown := h.own t
  rw [hpc] at hown
  obtain ⟨hk, cfg, hknown, hleft, hwrites, -⟩ := hown
  obtain ⟨hlast, hint⟩ := suffix_stores hleft
  have hholds : (s.pc t).holds = 1 := by rw [hpc]; rfl
  have hleft' := (List.suffix_cons _ _).trans hleft
  by_cases hr : r = .dmaLen
  · -- the job is started, and it is the only one
    subst hr
    obtain rfl := hlast.1 rfl
    replace hquiet : s.jobs = [] ∧ s.done = 0 := hquiet (by rw [hpc]; rfl)
    rw [Sys.write_dmaLen] at hinv ⊢
    refine h.next hinv rfl [.started (s.regs.write v .dmaLen)] rfl (.inl hholds) (by simp)
      (hint s.regs h.intEn) ⟨hk, cfg, hknown, hleft', hwrites, fun _ => .inl ⟨?_, hquiet.2⟩⟩ (by simp)
    show s.jobs ++ [s.regs.write v .dmaLen] = [jobFor req cfg]
    rw [hquiet.1, ← hwrites]
    rfl
  · rw [Sys.write_of_ne s t v hr] at hinv ⊢
    refine h.next hinv rfl [] rfl (.inl hholds) (by simp) (hint s.regs h.intEn)
      ⟨hk, cfg, hknown, hleft', hwrites, fun he => absurd (hlast.2 he) hr⟩ (by simp)

/-- The end of `hg_crc_calc`. -/
theorem OwnInv.unlock {w : Waiter} {taken : Bool} {value : BitVec 32} (h : OwnInv engine s)
    (hpc : s.pc t = .unlock w taken value)
    (hinv : Inv ((s.osMutexUnlock t).ret t w.call (Sys.result taken value w) (some value))) :
    OwnInv engine ((s.osMutexUnlock t).ret t w.call (Sys.result taken value w) (some value)) := by
  have hown := h.own t
  rw [hpc] at hown
  obtain ⟨req, cfg, rfl, hknown, hvalue⟩ := hown
  have hholds : (s.pc t).holds = 1 := by rw [hpc]; rfl
  obtain ⟨lock, b, hunlock⟩ := s.exists_osMutexUnlock t
  rw [hunlock] at hinv ⊢
  refine h.next hinv rfl
    [.returned (.calc (some req)) (Sys.result taken value (.calc req)) (some value), .unlocked b]
    rfl (.inl hholds) ?_ h.intEn trivial ?_
  · intro e he
    rcases List.mem_pair.1 he with rfl | rfl <;> rfl
  · intro req' value' hmem _
    simp only [List.mem_cons, Event.returned.injEq, Call.calc.injEq, Option.some.injEq,
      reduceCtorEq, List.not_mem_nil, or_false] at hmem
    obtain ⟨rfl, hok, rfl⟩ := hmem
    have htaken : taken = true := by
      cases taken with
      | true => rfl
      | false =>
        have herr : retOk = retErr := hok
        exact absurd herr (by decide)
    refine ⟨value, rfl, ?_⟩
    rw [crcOf, hknown.2, hvalue htaken]
    rfl

/-- **Every step keeps the invariant**, where the tasks call `hg_crc_calc`
only and start their jobs quietly. -/
theorem OwnInv.step (h : OwnInv engine s) (hcalc : CalcOnly s a) (hquiet : QuietStart s a)
    (hstep : Step engine s a s') : OwnInv engine s' := by
  have hinv := h.inv.step_of_calcOnly hcalc hstep
  cases hstep with
  | @callStart t k req cfg hpc hok =>
    have hk : k = .calc := by
      obtain ⟨req', hreq⟩ := hcalc
      rcases k
      · rfl
      · cases hreq
    have hknown : Known req cfg := (checkReq_ok hok).2
    exact h.next hinv rfl [.called (k.call req)] rfl (.inr ⟨rfl, rfl, rfl, rfl⟩) (by simp) h.intEn
      ⟨hk, hknown⟩ (by simp)
  | @callDone t c req r hpc hc herr =>
    obtain ⟨req', rfl⟩ := hcalc
    refine h.next hinv rfl [.returned (.calc req') r none, .called (.calc req')] rfl
      (.inr ⟨rfl, rfl, rfl, rfl⟩) ?_ h.intEn trivial ?_
    · intro e he
      rcases List.mem_pair.1 he with rfl | rfl <;> rfl
    · intro own value hmem hne
      simp only [List.mem_cons, Event.returned.injEq, reduceCtorEq, List.not_mem_nil,
        or_false] at hmem
      obtain ⟨hown, rfl, -⟩ := hmem
      -- a request with data is not answered `RET_OK` at once
      have hreq : some own = req := by
        rcases hc with hc | hc
        · exact Call.calc.inj (hown.trans hc)
        · cases hc
      rw [← hreq] at herr
      exact absurd rfl (checkReq_error_ne_ok hne herr)
  | callGet hpc =>
    obtain ⟨req, hreq⟩ := hcalc
    cases hreq
  | @lock t k req cfg lock hpc hlock =>
    have hown := h.own t
    rw [hpc] at hown
    exact h.next hinv rfl [.locked] rfl (.inr ⟨rfl, rfl, rfl, rfl⟩) (by simp) h.intEn hown (by simp)
  | @lockFail t k req cfg hpc =>
    have hown := h.own t
    rw [hpc] at hown
    have hne : retErr ≠ retOk := by decide
    refine h.next hinv rfl [.returned (k.call req) retErr none] rfl (.inr ⟨rfl, rfl, rfl, rfl⟩) ?_
      h.intEn trivial ?_
    · intro e he
      rw [List.mem_singleton.1 he]
      exact Event.isKicked_returned fun _ _ => hne
    · intro own value hmem _
      have heq := (Event.returned.inj (List.mem_singleton.1 hmem)).2.1
      exact absurd heq.symm hne
  | @config t k req cfg hpc =>
    have hown := h.own t
    rw [hpc] at hown
    have hstores : stores s.regs.crcCfg req cfg = stores crcCfgIntEn req cfg := by
      rw [stores, cfgReg_of_intEn h.intEn]
      rfl
    rw [hstores] at hinv ⊢
    exact h.next hinv rfl [] rfl (.inr ⟨rfl, rfl, rfl, rfl⟩) (by simp) h.intEn
      ⟨hown.1, cfg, hown.2, List.suffix_rfl, writes_stores .., by rintro ⟨⟩⟩ (by simp)
  | store hpc => exact h.store hpc hquiet hinv
  | @kicked t req hpc =>
    have hown := h.own t
    rw [hpc] at hown
    have hk := hown.1
    cases hk
  | @calculating t req hpc =>
    have hown := h.own t
    rw [hpc] at hown
    obtain ⟨-, cfg, hknown, -, -, hrun⟩ := hown
    exact h.next hinv rfl [] rfl (.inr ⟨rfl, rfl, rfl, rfl⟩) (by simp) h.intEn
      ⟨req, cfg, rfl, hknown, hrun rfl⟩ (by simp)
  | @taken t w hpc hdone =>
    have hown := h.own t
    have hholds : (s.pc t).holds = 1 := by rw [hpc]; rfl
    rw [hpc] at hown
    obtain ⟨req, cfg, rfl, hknown, hrun⟩ := hown
    -- the post is there, so it is the own job's
    rcases hrun with ⟨-, hzero⟩ | ⟨hjobs, -, hout⟩
    · exact absurd hzero hdone
    · exact h.next hinv rfl [] rfl (.inl hholds) (by simp) h.intEn
        ⟨req, cfg, rfl, hknown, fun _ => ⟨hjobs, hout⟩⟩ (by simp)
  | @timeout t w hpc =>
    have hown := h.own t
    rw [hpc] at hown
    obtain ⟨req, cfg, rfl, hknown, -⟩ := hown
    exact h.next hinv rfl [] rfl (.inr ⟨rfl, rfl, rfl, rfl⟩) (by simp) h.intEn
      ⟨req, cfg, rfl, hknown, by rintro ⟨⟩⟩ (by simp)
  | @read t w taken hpc =>
    have hown := h.own t
    rw [hpc] at hown
    obtain ⟨req, cfg, rfl, hknown, hout⟩ := hown
    exact h.next hinv rfl [] rfl (.inr ⟨rfl, rfl, rfl, rfl⟩) (by simp) h.intEn
      ⟨req, cfg, rfl, hknown, fun htaken => (hout htaken).2⟩ (by simp)
  | unlock hpc => exact h.unlock hpc hinv
  | finish hjob =>
    exact ⟨hinv, h.noKick, h.intEn, fun u => (h.own u).finish hjob, h.results⟩

theorem ownInv_attach (engine : CrcRegs → BitVec 32) (regs : CrcRegs) (crcOut : BitVec 32) :
    OwnInv engine (Sys.hgCrcAttach regs crcOut : Sys T) where
  inv := inv_attach regs crcOut
  noKick _ _ he := absurd he List.not_mem_nil
  intEn := by
    show (regs.crcCfg ||| crcCfgIntEn) &&& crcCfgIntEn = crcCfgIntEn
    rw [BitVec.or_comm]
    exact intEn_or _
  own _ := trivial
  results _ _ _ he _ := absurd he List.not_mem_nil

/-! ### What a post left over does -/

/-- In `n` steps of its own `t` returns `RET_OK` from the request, with
`v` stored. -/
def Returns (engine : CrcRegs → BitVec 32) (s : Sys T) (t : T) (req : CrcDevReq) (v : BitVec 32)
    (n : ℕ) : Prop :=
  ∃ s', (unit engine).run s (List.replicate n (.step t)) = some s' ∧
    s'.log.head? = some (t, .returned (.calc (some req)) retOk (some v))

theorem Returns.head {s₁ : Sys T} {req : CrcDevReq} {v : BitVec 32} {n : ℕ}
    (hmove : s.move t = some s₁) (h : Returns engine s₁ t req v n) :
    Returns engine s t req v (n + 1) := by
  obtain ⟨s', hrun, hlog⟩ := h
  refine ⟨s', ?_, hlog⟩
  rw [List.replicate_succ, Machine.run_cons_of_step (show (unit engine).step s (.step t) = _ from hmove)]
  exact hrun

/-- With a post left over, the request does not wait for its own job. -/
theorem returns_of_post_left {req : CrcDevReq} {len : BitVec 32}
    (hpc : s.pc t = .store .calc req [(.dmaLen, len)]) (hdone : s.done ≠ 0) :
    Returns engine s t req s.crcOut 5 := by
  have hunlock : ∀ u : Sys T, ∀ v, u.pc t = .unlock (.calc req) true v →
      Returns engine u t req v 1 := by
    intro u v hu
    have hmove : u.move t = some ((u.osMutexUnlock t).ret t (.calc (some req)) retOk (some v)) := by
      simp only [Sys.move, hu]
      rfl
    exact .head hmove ⟨_, rfl, rfl⟩
  have hread : ∀ u : Sys T, u.pc t = .read (.calc req) true → Returns engine u t req u.crcOut 2 := by
    intro u hu
    have hmove : u.move t = some (u.goto t (.unlock (.calc req) true u.crcOut)) := by
      simp only [Sys.move, hu]
    exact .head hmove (hunlock _ _ (Function.update_self ..))
  have hwait : ∀ u : Sys T, u.pc t = .wait (.calc req) → u.done ≠ 0 →
      Returns engine u t req u.crcOut 3 := by
    intro u hu hne
    have hmove : u.move t =
        some ({ u with done := u.done - 1 }.goto t (.read (.calc req) true)) := by
      simp only [Sys.move, hu, if_neg hne]
    exact .head hmove (hread _ (Function.update_self ..))
  have hstart : ∀ u : Sys T, u.pc t = .store .calc req [] → u.done ≠ 0 →
      Returns engine u t req u.crcOut 4 := by
    intro u hu hne
    have hmove : u.move t = some (u.goto t (.wait (.calc req))) := by
      simp only [Sys.move, hu]
    exact .head hmove (hwait _ (Function.update_self ..) hne)
  have hmove : s.move t = some ((s.write t .dmaLen len).goto t (.store .calc req [])) := by
    simp only [Sys.move, hpc]
  have hrest := hstart ((s.write t .dmaLen len).goto t (.store .calc req []))
    (Function.update_self ..) (by simpa using hdone)
  rw [Sys.goto_crcOut, Sys.write_crcOut] at hrest
  exact .head hmove hrest

/-- **A start that is not quiet can return another request's result.** -/
theorem stale_of_not_quiet (h : OwnInv engine s) (hloud : ¬ QuietStart s (.step t)) :
    ∃ more s' req v, (unit engine).run s more = some s' ∧ (unit engine).Along CalcOnly s more ∧
      s'.log.head? = some (t, .returned (.calc (some req)) retOk (some v)) ∧
      ((s.done ≠ 0 ∧ v = s.crcOut) ∨ ∃ job ∈ s.jobs, v = engine job) := by
  have hown := h.own t
  have hsteps : ∀ u : Sys T, (unit engine).Along CalcOnly u (List.replicate 5 (.step t)) := by
    intro u
    refine Machine.along_of_forall_mem ?_
    intro a ha v
    rw [List.eq_of_mem_replicate ha]
    trivial
  obtain ⟨hstarts, hbusy⟩ := Classical.not_imp.1 hloud
  -- `t` is at the last store of its request
  obtain ⟨req, len, hpc⟩ : ∃ req len, s.pc t = .store .calc req [(.dmaLen, len)] := by
    cases hpc : s.pc t with
    | store k req left =>
      rcases left with _ | ⟨⟨r, len⟩, left⟩
      · rw [hpc] at hstarts
        exact nomatch hstarts
      · rw [hpc] at hstarts hown
        obtain ⟨rfl, cfg, -, hleft, -⟩ := hown
        have hr : r = .dmaLen := of_decide_eq_true hstarts
        obtain rfl := (suffix_stores hleft).1.1 hr
        exact ⟨req, len, by rw [hr]⟩
    | idle | lock _ _ _ | config _ _ _ | wait _ | read _ _ | unlock _ _ _ =>
      rw [hpc] at hstarts
      exact nomatch hstarts
  by_cases hdone : s.done = 0
  · -- a job is in flight: it finishes first
    rcases hjobs : s.jobs with _ | ⟨job, jobs⟩
    · exact absurd ⟨hjobs, hdone⟩ hbusy
    have hfinish : (unit engine).step s (.finish 0) = some { s with
        crcOut := engine job, jobs := s.jobs.eraseIdx 0, done := s.done + 1 } := by
      show (s.jobs[0]?).map _ = _
      rw [hjobs]
      rfl
    have hleft : Returns engine { s with
        crcOut := engine job, jobs := s.jobs.eraseIdx 0, done := s.done + 1 } t req
        (engine job) 5 := returns_of_post_left (by exact hpc) (Nat.succ_ne_zero _)
    obtain ⟨s', hrun, hlog⟩ := hleft
    refine ⟨_, s', req, engine job, (Machine.run_cons_of_step hfinish).trans hrun, ?_, hlog,
      .inr ⟨job, List.mem_cons_self, rfl⟩⟩
    exact (Machine.along_cons_of_step hfinish).2 ⟨trivial, hsteps _⟩
  · have hleft : Returns engine s t req s.crcOut 5 := returns_of_post_left hpc hdone
    obtain ⟨s', hrun, hlog⟩ := hleft
    exact ⟨_, s', req, s.crcOut, hrun, hsteps s, hlog, .inl ⟨hdone, rfl⟩⟩

/-- **A result belongs to the request that returns it, where every job is
started quietly.** After `hg_crc_attach`, for any number of tasks that
call `hg_crc_calc`, any interleaving, any time-outs and completions: along
a run in which the length is only stored with no job in flight and no post
left over, every `hg_crc_calc` that returns `RET_OK` for a request with
data has stored the CRC of that data. The condition is needed at every
step: from any such state, a start that does not meet it can go on to
return `RET_OK` with what an earlier job left. -/
theorem crc_results_own (engine : CrcRegs → BitVec 32) (regs : CrcRegs) (crcOut : BitVec 32)
    (acts : List (Act T)) (s : Sys T)
    (hcalc : (unit engine).Along CalcOnly (Sys.hgCrcAttach regs crcOut) acts)
    (hquiet : (unit engine).Along QuietStart (Sys.hgCrcAttach regs crcOut) acts)
    (hrun : (unit engine).run (Sys.hgCrcAttach regs crcOut) acts = some s) :
    OwnResults engine s ∧ ∀ t, ¬ QuietStart s (.step t) →
      ∃ more s' req v, (unit engine).run s more = some s' ∧ (unit engine).Along CalcOnly s more ∧
        s'.log.head? = some (t, .returned (.calc (some req)) retOk (some v)) ∧
        ((s.done ≠ 0 ∧ v = s.crcOut) ∨ ∃ job ∈ s.jobs, v = engine job) := by
  have hown : OwnInv engine s := by
    refine Machine.inv_of_run (I := OwnInv engine) ?_ (ownInv_attach engine regs crcOut)
      (hcalc.and hquiet) hrun
    intro u a v hu hcond hstep
    exact hu.step hcond.1 hcond.2 (step_of_eq hstep)
  exact ⟨hown.results, fun t hloud => stale_of_not_quiet hown hloud⟩

/-! ### A late completion -/

/-- One request, from its call to its return; its job finishes in time. -/
def calcInTime (req : CrcDevReq) : List (Act Bool) :=
  .call true (.calc (some req)) :: nineSteps true ++ [.finish 0, .step true, .step true, .step true]

theorem crc_results_own_four_bytes :
    ∃ s, (unit CrcRegs.dmaLen).run (Sys.hgCrcAttach blankRegs 0) (calcInTime fourBytes) = some s ∧
      OwnResults CrcRegs.dmaLen s ∧
      (true, .returned (.calc (some fourBytes)) retOk (some 4)) ∈ s.log := by
  have hcalc : (unit CrcRegs.dmaLen).Along CalcOnly (Sys.hgCrcAttach blankRegs 0)
      (calcInTime fourBytes) := by decide
  have hquiet : (unit CrcRegs.dmaLen).Along QuietStart (Sys.hgCrcAttach blankRegs 0)
      (calcInTime fourBytes) := by decide
  exact ⟨_, rfl, (crc_results_own CrcRegs.dmaLen blankRegs 0 _ _ hcalc hquiet rfl).1, by decide⟩

/-- Eight bytes, CRC32. -/
def eightBytes : CrcDevReq := { type := 5, data := 0x20000100, len := 8 }

/-- A request times out, its job finishes late, and another task calls. -/
def calcTooLate : List (Act Bool) :=
  .call false (.calc (some fourBytes)) :: nineSteps false ++
    [.timeout false, .step false, .step false, .finish 0] ++
    .call true (.calc (some eightBytes)) :: nineSteps true ++ [.step true, .step true, .step true]

/-- **The result of the request that timed out.** The unit returns the
length it was given, so that results can be told apart: the second
request returns `RET_OK` with the first one's value. -/
theorem crc_result_stale :
    ∃ s, (unit CrcRegs.dmaLen).Along CalcOnly (Sys.hgCrcAttach blankRegs 0) calcTooLate ∧
      (unit CrcRegs.dmaLen).run (Sys.hgCrcAttach blankRegs 0) calcTooLate = some s ∧
      (true, .returned (.calc (some eightBytes)) retOk (some 4)) ∈ s.log ∧
      crcOf CrcRegs.dmaLen eightBytes = some 8 ∧ ¬ OwnResults CrcRegs.dmaLen s := by
  have hcalc : (unit CrcRegs.dmaLen).Along CalcOnly (Sys.hgCrcAttach blankRegs 0) calcTooLate := by
    decide
  refine ⟨_, hcalc, rfl, by decide, by decide, fun hown => ?_⟩
  obtain ⟨v, hv, hcrc⟩ := hown true eightBytes (some 4) (by decide) (by decide)
  obtain rfl := Option.some.inj hv
  exact absurd hcrc (by decide)

end Crc

end Hgsdk

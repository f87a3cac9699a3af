import Hgsdk.Dmac.Threads
/-!
# Channels are exclusive while handlers come in time

A channel's bit is set exactly while one transfer holds the channel: it
has claimed it and has not been stopped. What may break this is a handler
that comes too late. `dw_dmac_stop` frees a channel but leaves the raised
interrupt and the installed handler where they are, and
`dw_dmac_irq_handler` itself calls a handler twice when both bits are
raised. If the channel has been claimed again by then, the late handler
frees it under the new transfer.
-/

namespace Hgsdk

namespace Dmac

/-! ### What is to hold -/

/-- `x` has claimed `ch` and has not been stopped. -/
def Holds (log : List Event) (x : Xfer) (ch : Chan) : Prop :=
  .claimed x ch ∈ log ∧ .stopped x ∉ log

/-- `x` is in flight on `ch`: accepted, and not yet stopped. -/
def InFlight (log : List Event) (x : Xfer) (ch : Chan) : Prop :=
  .returned x (BitVec.ofNat 32 ch) ∈ log ∧ .stopped x ∉ log

instance (log : List Event) (x : Xfer) (ch : Chan) : Decidable (InFlight log x ch) :=
  inferInstanceAs (Decidable (_ ∧ _))

variable {T : Type}

/-- **The channels are exclusive.** -/
structure Exclusive (s : Sys T) : Prop where
  /-- A result that is not negative is a channel. -/
  range : ∀ x ret, .returned x ret ∈ s.log → 0 ≤ ret.toInt → ret.toNat < 4
  bit : ∀ x ch, InFlight s.log x ch → s.dev.used ch = true
  disjoint : ∀ x y ch, InFlight s.log x ch → InFlight s.log y ch → x = y

/-- A handler comes in time: when it calls `dw_dmac_stop`, its transfer has
not been stopped, or the channel is free. -/
def Pc.InTime (dev : HgdmaDw Xfer) (log : List Event) : Pc → Prop
  | .handler x ch _ => .stopped x ∉ log ∨ dev.used ch = false
  | _ => True

instance (dev : HgdmaDw Xfer) (log : List Event) : (pc : Pc) → Decidable (pc.InTime dev log)
  | .handler _ _ _ => inferInstanceAs (Decidable (_ ∨ _))
  | .idle | .claim _ _ | .check _ _ _ | .store _ _ _ | .release _ _ | .test _ _ | .clear _ _
  | .mark _ _ | .look _ _ | .call _ _ => isTrue trivial

/-- **Where handlers come in time.** -/
def Timely (s : Sys T) : Act T → Prop
  | .step t => (s.pc t).InTime s.dev s.log
  | _ => True

instance (s : Sys T) : (a : Act T) → Decidable (Timely s a)
  | .step t => inferInstanceAs (Decidable ((s.pc t).InTime s.dev s.log))
  | .xfer _ _ | .stop _ _ | .irq _ | .raise _ _ => isTrue trivial

/-! ### The invariant -/

/-- What is known of a thread. The transfer it is about to claim for is a
new one, and the handler it installs is its own. -/
def Pc.Ok (log : List Event) (calls : ℕ) : Pc → Prop
  | .claim x data => x < calls ∧ (∀ ch, .claimed x ch ∉ log) ∧ ∀ y, data.irqHdl = some y → y = x
  | .check x ch data => .claimed x ch ∈ log ∧ ∀ y, data.irqHdl = some y → y = x
  | .store x ch left => .claimed x ch ∈ log ∧ ∀ y, .irqHdl (some y) ∈ left → y = x
  | .handler x ch _ => .claimed x ch ∈ log
  | .release _ _ => False
  | .idle | .test _ _ | .clear _ _ | .mark _ _ | .look _ _ | .call _ _ => True

/-- The transfer a thread is about to claim a channel for. -/
def Pc.claiming : Pc → Option Xfer
  | .claim x _ => some x
  | _ => none

/-- **The invariant.** -/
structure Inv (s : Sys T) : Prop where
  bit : ∀ ch, s.dev.used ch = true ↔ ∃ x, Holds s.log x ch
  unique : ∀ x y ch, Holds s.log x ch → Holds s.log y ch → x = y
  chan : ∀ x ch ch', .claimed x ch ∈ s.log → .claimed x ch' ∈ s.log → ch = ch'
  fresh : ∀ x ch, .claimed x ch ∈ s.log → x < s.calls
  stopped : ∀ x, .stopped x ∈ s.log → ∃ ch, .claimed x ch ∈ s.log
  returned : ∀ x ret, .returned x ret ∈ s.log → 0 ≤ ret.toInt →
    ∃ ch : Chan, ret = BitVec.ofNat 32 ch ∧ .claimed x ch ∈ s.log
  hdl : ∀ ch x, s.dev.irqHdl ch = some x → .claimed x ch ∈ s.log
  pcs : ∀ t, (s.pc t).Ok s.log s.calls
  alone : ∀ t u x, (s.pc t).claiming = some x → (s.pc u).claiming = some x → t = u

variable {s s' : Sys T} {t : T} {pc : Pc} {x y : Xfer} {ch ch' : Chan} {log log' : List Event}
variable {calls : ℕ}

theorem inv_start (regs : Chan → ChRegs) : Inv (.start regs : Sys T) where
  bit ch := by
    have hzero : (HgdmaDw.dwDmacAttach regs : HgdmaDw Xfer).used ch = false :=
      BitVec.getLsbD_zero
    exact ⟨fun h => absurd h (by rw [Sys.start, hzero]; exact Bool.false_ne_true),
      fun ⟨_, hx, _⟩ => nomatch hx⟩
  unique _ _ _ h := nomatch h.1
  chan _ _ _ h := nomatch h
  fresh _ _ h := nomatch h
  stopped _ h := nomatch h
  returned _ _ h := nomatch h
  hdl _ _ h := nomatch h
  pcs _ := trivial
  alone _ _ _ h := nomatch h

/-- What is known of a thread stays known while nobody claims a channel
for its transfer. -/
theorem Pc.Ok.mono (h : pc.Ok log calls) (hsub : ∀ e ∈ log, e ∈ log')
    (hclaims : ∀ x ch, pc.claiming = some x → .claimed x ch ∈ log' → .claimed x ch ∈ log) :
    pc.Ok log' calls := by
  cases pc with
  | claim x data => exact ⟨h.1, fun ch hch => h.2.1 ch (hclaims x ch rfl hch), h.2.2⟩
  | check x ch data => exact ⟨hsub _ h.1, h.2⟩
  | store x ch left => exact ⟨hsub _ h.1, h.2⟩
  | handler x ch k => exact hsub _ h
  | release _ _ => exact h.elim
  | idle | test _ _ | clear _ _ | mark _ _ | look _ _ | call _ _ => trivial

theorem Pc.Ok.succ (h : pc.Ok log calls) : pc.Ok log (calls + 1) := by
  cases pc with
  | claim x data => exact ⟨h.1.trans (Nat.lt_succ_self _), h.2⟩
  | _ => exact h

theorem after_ok {k : IrqType} : (Sys.after ch k).Ok log calls := by
  cases k with
  | done => trivial
  | error =>
    rw [Sys.after]
    split <;> trivial

theorem after_claiming {k : IrqType} : (Sys.after ch k).claiming = none := by
  cases k with
  | done => rfl
  | error =>
    rw [Sys.after]
    split <;> rfl

/-- Where no channel is claimed, who holds one held it before. -/
theorem Holds.mono (h : Holds log' x ch) (hsub : ∀ e ∈ log, e ∈ log')
    (hclaims : ∀ x ch, .claimed x ch ∈ log' → .claimed x ch ∈ log) : Holds log x ch :=
  ⟨hclaims x ch h.1, fun hstopped => h.2 (hsub _ hstopped)⟩

theorem mem_claimed : .claimed y ch' ∈ Event.claimed x ch :: log ↔
    y = x ∧ ch' = ch ∨ .claimed y ch' ∈ log := by
  rw [List.mem_cons, Event.claimed.injEq]

/-- A transfer that was not stopped holds what it claims. -/
theorem holds_claimed (hx : .stopped x ∉ log) :
    Holds (.claimed x ch :: log) y ch' ↔ y = x ∧ ch' = ch ∨ Holds log y ch' := by
  have hstops : ∀ z, .stopped z ∈ Event.claimed x ch :: log → .stopped z ∈ log :=
    fun z hz => (List.mem_cons.1 hz).resolve_left nofun
  constructor
  · rintro ⟨hy, hys⟩
    exact (mem_claimed.1 hy).imp_right fun hy => ⟨hy, fun hs => hys (List.mem_cons_of_mem _ hs)⟩
  · rintro (⟨rfl, rfl⟩ | hy)
    · exact ⟨List.mem_cons_self, fun hs => hx (hstops y hs)⟩
    · exact ⟨List.mem_cons_of_mem _ hy.1, fun hs => hy.2 (hstops y hs)⟩

/-- A thread that is not about to claim comes in nobody's way. -/
theorem alone_update [DecidableEq T] {pcs : T → Pc}
    (h : ∀ t u x, (pcs t).claiming = some x → (pcs u).claiming = some x → t = u)
    (hpc : pc.claiming = none) (u v : T) (x : Xfer)
    (hu : (Function.update pcs t pc u).claiming = some x)
    (hv : (Function.update pcs t pc v).claiming = some x) : u = v := by
  have hother : ∀ w, (Function.update pcs t pc w).claiming = some x →
      (pcs w).claiming = some x := by
    intro w hw
    by_cases hwt : w = t
    · rw [hwt, Function.update_self, hpc] at hw
      exact nomatch hw
    · rwa [Function.update_of_ne hwt] at hw
  exact h u v x (hother u hu) (hother v hv)

namespace Inv

variable {dev : HgdmaDw Xfer}

/-- **The rule for the device and the log**, where no channel is claimed. -/
theorem update (h : Inv s) (hsub : ∀ e ∈ s.log, e ∈ log)
    (hclaims : ∀ x ch, .claimed x ch ∈ log → .claimed x ch ∈ s.log)
    (hbit : ∀ ch, dev.used ch = true ↔ ∃ x, Holds log x ch)
    (hstopped : ∀ x, .stopped x ∈ log → ∃ ch, .claimed x ch ∈ s.log)
    (hreturned : ∀ x ret, .returned x ret ∈ log → 0 ≤ ret.toInt →
      ∃ ch : Chan, ret = BitVec.ofNat 32 ch ∧ .claimed x ch ∈ s.log)
    (hhdl : ∀ ch x, dev.irqHdl ch = some x → .claimed x ch ∈ s.log) :
    Inv { s with dev, log } where
  bit := hbit
  unique x y ch hx hy := h.unique x y ch (hx.mono hsub hclaims) (hy.mono hsub hclaims)
  chan x ch ch' hx hx' := h.chan x ch ch' (hclaims x ch hx) (hclaims x ch' hx')
  fresh x ch hx := h.fresh x ch (hclaims x ch hx)
  stopped x hx := (hstopped x hx).imp fun _ => hsub _
  returned x ret hx hret := by
    obtain ⟨ch, hch, hclaimed⟩ := hreturned x ret hx hret
    exact ⟨ch, hch, hsub _ hclaimed⟩
  hdl ch x hx := hsub _ (hhdl ch x hx)
  pcs u := (h.pcs u).mono hsub fun x ch _ => hclaims x ch
  alone := h.alone

/-- The device keeps its bits. -/
theorem keep (h : Inv s) (hused : ∀ ch, dev.used ch = s.dev.used ch)
    (hhdl : ∀ ch x, dev.irqHdl ch = some x → .claimed x ch ∈ s.log) : Inv { s with dev } := by
  refine h.update (fun _ => id) (fun _ _ => id) (fun ch => ?_) h.stopped h.returned hhdl
  rw [hused ch]
  exact h.bit ch

/-- A thread moves on. -/
theorem goto [DecidableEq T] (h : Inv s) (hpc : pc.Ok s.log s.calls)
    (hclaiming : pc.claiming = none) : Inv (s.goto t pc) :=
  { h with
    pcs := by
      intro u
      show (Function.update s.pc t pc u).Ok s.log s.calls
      by_cases hut : u = t
      · rw [hut, Function.update_self]
        exact hpc
      · rw [Function.update_of_ne hut]
        exact h.pcs u
    alone := alone_update h.alone hclaiming }

/-- The handler looks at the next channel, unless there is something to do
for this one. -/
theorem gotoOr [DecidableEq T] {k : IrqType} {c : Prop} [Decidable c] (h : Inv s)
    (hpc : pc.Ok s.log s.calls) (hclaiming : pc.claiming = none) :
    Inv (s.goto t (if c then pc else Sys.after ch k)) := by
  split
  · exact h.goto hpc hclaiming
  · exact h.goto after_ok after_claiming

/-- `dw_dmac_xfer` returns: a channel it has claimed, or a code. -/
theorem ret [DecidableEq T] {r : CInt} (h : Inv s)
    (hr : 0 ≤ r.toInt → ∃ ch : Chan, r = BitVec.ofNat 32 ch ∧ .claimed x ch ∈ s.log) :
    Inv (s.ret t x r) := by
  have hlog : ∀ e, e ∈ Event.returned x r :: s.log → e = .returned x r ∨ e ∈ s.log :=
    fun _ => List.mem_cons.1
  have hclaims : ∀ y ch, .claimed y ch ∈ Event.returned x r :: s.log → .claimed y ch ∈ s.log :=
    fun y ch hy => (hlog _ hy).resolve_left nofun
  have hstops : ∀ y, .stopped y ∈ Event.returned x r :: s.log → .stopped y ∈ s.log :=
    fun y hy => (hlog _ hy).resolve_left nofun
  have hemit : Inv (s.emit (.returned x r)) := by
    refine h.update (fun _ => List.mem_cons_of_mem _) hclaims (fun ch => ?_)
      (fun y hy => h.stopped y (hstops y hy)) ?_ h.hdl
    · refine (h.bit ch).trans (exists_congr fun y => ?_)
      exact ⟨fun hy => ⟨List.mem_cons_of_mem _ hy.1, fun hs => hy.2 (hstops y hs)⟩,
        fun hy => ⟨hclaims y ch hy.1, fun hs => hy.2 (List.mem_cons_of_mem _ hs)⟩⟩
    · intro y ret hy hret
      rcases hlog _ hy with heq | hy
      · obtain ⟨rfl, rfl⟩ := Event.returned.inj heq
        exact hr hret
      · exact h.returned y ret hy hret
  exact hemit.goto trivial rfl

/-- `dw_dmac_stop` for `x`, in time. -/
theorem stop (h : Inv s) (hx : .claimed x ch ∈ s.log)
    (htime : .stopped x ∉ s.log ∨ s.dev.used ch = false) :
    Inv ({ s with dev := s.dev.dwDmacStop ch }.emit (.stopped x)) := by
  have hlog : ∀ e, e ∈ Event.stopped x :: s.log → e = .stopped x ∨ e ∈ s.log :=
    fun _ => List.mem_cons.1
  have hclaims : ∀ y ch, .claimed y ch ∈ Event.stopped x :: s.log → .claimed y ch ∈ s.log :=
    fun y ch hy => (hlog _ hy).resolve_left nofun
  refine h.update (fun _ => List.mem_cons_of_mem _) hclaims (fun ch' => ?_) ?_ ?_ ?_
  · show (s.dev.dwDmacStop ch).used ch' = true ↔ _
    rw [HgdmaDw.used_dwDmacStop, Bool.and_eq_true, Bool.not_eq_true', decide_eq_false_iff_not]
    constructor
    · -- the holder of another channel is another transfer
      rintro ⟨hused, hne⟩
      obtain ⟨y, hy⟩ := (h.bit ch').1 hused
      refine ⟨y, List.mem_cons_of_mem _ hy.1, fun hs => ?_⟩
      rcases hlog _ hs with heq | hs
      · obtain rfl := Event.stopped.inj heq
        exact hne (h.chan y ch ch' hx hy.1)
      · exact hy.2 hs
    · rintro ⟨y, hy, hys⟩
      have hhold : Holds s.log y ch' :=
        ⟨hclaims y ch' hy, fun hs => hys (List.mem_cons_of_mem _ hs)⟩
      have hused := (h.bit ch').2 ⟨y, hhold⟩
      refine ⟨hused, ?_⟩
      rintro rfl
      rcases htime with hns | hfree
      · obtain rfl := h.unique y x ch hhold ⟨hx, hns⟩
        exact hys List.mem_cons_self
      · exact nomatch hused.symm.trans hfree
  · intro y hy
    rcases hlog _ hy with heq | hy
    · obtain rfl := Event.stopped.inj heq
      exact ⟨ch, hx⟩
    · exact h.stopped y hy
  · exact fun y ret hy => h.returned y ret ((hlog _ hy).resolve_left nofun)
  · intro ch' y hy
    exact h.hdl ch' y (by rwa [← HgdmaDw.dwDmacStop_irqHdl s.dev ch])

/-- A channel is claimed that nobody holds, for a new transfer. -/
theorem claim [DecidableEq T] {data : DmaXferData Xfer} (h : Inv s) (hpc : s.pc t = .claim x data)
    (hfree : s.dev.used ch = false) :
    Inv (({ s with dev := s.dev.claim ch }.emit (.claimed x ch)).goto t (.check x ch data)) := by
  obtain ⟨hlt, hnew, hdata⟩ : (Pc.claim x data).Ok s.log s.calls := hpc ▸ h.pcs t
  have hsub : ∀ e ∈ s.log, e ∈ Event.claimed x ch :: s.log := fun _ => List.mem_cons_of_mem _
  have hnone : ∀ y, ¬ Holds s.log y ch := by
    intro y hy
    exact nomatch ((h.bit ch).2 ⟨y, hy⟩).symm.trans hfree
  have hxs : .stopped x ∉ s.log := by
    intro hs
    obtain ⟨ch', hch'⟩ := h.stopped x hs
    exact hnew ch' hch'
  exact
    { bit := fun ch' => by
        show (s.dev.claim ch).used ch' = true ↔ ∃ y, Holds (_ :: s.log) y ch'
        rw [HgdmaDw.used_claim, Bool.or_eq_true, decide_eq_true_iff, h.bit ch']
        simp only [holds_claimed hxs]
        constructor
        · rintro (⟨y, hy⟩ | rfl)
          · exact ⟨y, .inr hy⟩
          · exact ⟨x, .inl ⟨rfl, rfl⟩⟩
        · rintro ⟨y, ⟨-, rfl⟩ | hy⟩
          · exact .inr rfl
          · exact .inl ⟨y, hy⟩
      unique := by
        intro y z ch' hy hz
        rcases (holds_claimed hxs).1 hy with ⟨rfl, rfl⟩ | hy₀
        · rcases (holds_claimed hxs).1 hz with ⟨rfl, -⟩ | hz₀
          · rfl
          · exact absurd hz₀ (hnone z)
        · rcases (holds_claimed hxs).1 hz with ⟨rfl, rfl⟩ | hz₀
          · exact absurd hy₀ (hnone y)
          · exact h.unique y z ch' hy₀ hz₀
      chan := by
        intro y c c' hy hy'
        rcases mem_claimed.1 hy with ⟨rfl, rfl⟩ | hy₀
        · rcases mem_claimed.1 hy' with ⟨-, rfl⟩ | hy₀'
          · rfl
          · exact absurd hy₀' (hnew c')
        · rcases mem_claimed.1 hy' with ⟨rfl, rfl⟩ | hy₀'
          · exact absurd hy₀ (hnew c)
          · exact h.chan y c c' hy₀ hy₀'
      fresh := by
        intro y c hy
        rcases mem_claimed.1 hy with ⟨rfl, -⟩ | hy
        · exact hlt
        · exact h.fresh y c hy
      stopped := by
        intro y hy
        obtain ⟨c, hc⟩ := h.stopped y ((List.mem_cons.1 hy).resolve_left nofun)
        exact ⟨c, hsub _ hc⟩
      returned := by
        intro y ret hy hret
        obtain ⟨c, hc, hclaimed⟩ := h.returned y ret ((List.mem_cons.1 hy).resolve_left nofun) hret
        exact ⟨c, hc, hsub _ hclaimed⟩
      hdl := fun c y hy => hsub _ (h.hdl c y hy)
      pcs := by
        intro u
        show (Function.update s.pc t (.check x ch data) u).Ok (_ :: s.log) s.calls
        by_cases hut : u = t
        · rw [hut, Function.update_self]
          exact ⟨List.mem_cons_self, hdata⟩
        · rw [Function.update_of_ne hut]
          refine (h.pcs u).mono hsub fun y c hy hc => (mem_claimed.1 hc).resolve_left ?_
          -- another thread claims for another transfer
          rintro ⟨rfl, -⟩
          exact hut (h.alone u t y hy (by rw [hpc]; rfl))
      alone := alone_update h.alone rfl }

/-- A call of `dw_dmac_xfer` is counted. -/
theorem count (h : Inv s) : Inv { s with calls := s.calls + 1 } :=
  { h with
    fresh := fun x ch hx => (h.fresh x ch hx).trans (Nat.lt_succ_self _)
    pcs := fun t => (h.pcs t).succ }

/-- The transfer of a call is a new one. -/
theorem call [DecidableEq T] {data : DmaXferData Unit} (h : Inv s) :
    Inv ({ s with calls := s.calls + 1 }.goto t (.claim s.calls (data.tag s.calls))) := by
  have hnew : ∀ u x, (s.pc u).claiming = some x → x < s.calls := by
    intro u x hu
    have hok := h.pcs u
    cases hpcu : s.pc u with
    | claim y data' =>
      rw [hpcu] at hu hok
      obtain rfl := Option.some.inj hu
      exact hok.1
    | _ =>
      rw [hpcu] at hu
      exact nomatch hu
  refine { h.count with pcs := fun u => ?_, alone := fun u v x hu hv => ?_ }
  · show (Function.update s.pc t _ u).Ok s.log (s.calls + 1)
    by_cases hut : u = t
    · rw [hut, Function.update_self]
      refine ⟨Nat.lt_succ_self _, fun ch hch => Nat.lt_irrefl _ (h.fresh _ ch hch), ?_⟩
      intro y hy
      obtain ⟨_, -, rfl⟩ := Option.map_eq_some_iff.1 hy
      rfl
    · rw [Function.update_of_ne hut]
      exact (h.pcs u).succ
  · change (Function.update s.pc t _ u).claiming = some x at hu
    change (Function.update s.pc t _ v).claiming = some x at hv
    by_cases hut : u = t <;> by_cases hvt : v = t
    · rw [hut, hvt]
    · rw [hut, Function.update_self] at hu
      rw [Function.update_of_ne hvt] at hv
      obtain rfl := Option.some.inj hu
      exact absurd (hnew v _ hv) (Nat.lt_irrefl _)
    · rw [hvt, Function.update_self] at hv
      rw [Function.update_of_ne hut] at hu
      obtain rfl := Option.some.inj hv
      exact absurd (hnew u _ hu) (Nat.lt_irrefl _)
    · rw [Function.update_of_ne hut] at hu
      rw [Function.update_of_ne hvt] at hv
      exact h.alone u v x hu hv

variable {P : Periphs} {a : Act T}

/-- **Every step in time keeps the invariant.** -/
theorem step [DecidableEq T] (h : Inv s) (htimely : Timely s a) (hstep : (dmac P).step s a = some s') :
    Inv s' := by
  cases step_of_eq hstep with
  | xfer hpc _ => exact h.call
  | closed hpc _ => exact h.count.ret (fun hneg => absurd hneg (by decide))
  | @stop x ch hmay =>
    obtain ⟨c, hc, hclaimed⟩ := h.returned x _ hmay.1 (ofNat_nonneg ch)
    obtain rfl := ofNat_inj hc
    exact h.stop hclaimed (.inl hmay.2)
  | irq hpc => exact h.goto trivial rfl
  | raise => exact h.keep (fun _ => rfl) h.hdl
  | busy hpc hfull => exact h.ret (fun hneg => absurd hneg (by decide))
  | claim hpc hfree => exact h.claim hpc (HgdmaDw.freeChan_eq_some hfree)
  | tooWide hpc hwide => exact h.ret (fun hneg => absurd hneg (by decide))
  | @check t x ch data stores hpc hwidth hstores =>
    obtain ⟨hclaimed, hdata⟩ : (Pc.check x ch data).Ok s.log s.calls := hpc ▸ h.pcs t
    refine h.goto ⟨hclaimed, fun y hy => ?_⟩ rfl
    exact hdata y (setUp_irqHdl hstores hy).symm
  | @store t x ch store left hpc =>
    obtain ⟨hclaimed, hleft⟩ : (Pc.store x ch (store :: left)).Ok s.log s.calls := hpc ▸ h.pcs t
    have hwrite : Inv { s with dev := s.dev.write ch store } := by
      refine h.keep (fun c => ?_) (fun c y hy => ?_)
      · show (s.dev.write ch store).chnUsedFlag.getLsbD c = _
        rw [HgdmaDw.write_chnUsedFlag]
        rfl
      · rcases HgdmaDw.write_irqHdl hy with hold | ⟨rfl, rfl⟩
        · exact h.hdl c y hold
        · rw [hleft y List.mem_cons_self]
          exact hclaimed
    exact hwrite.goto ⟨hclaimed, fun y hy => hleft y (List.mem_cons_of_mem _ hy)⟩ rfl
  | @accept t x ch hpc =>
    obtain ⟨hclaimed, -⟩ : (Pc.store x ch []).Ok s.log s.calls := hpc ▸ h.pcs t
    exact h.ret fun _ => ⟨ch, rfl, hclaimed⟩
  | @release t x ch hpc =>
    have hok : (Pc.release x ch).Ok s.log s.calls := hpc ▸ h.pcs t
    exact hok.elim
  | test hpc => exact h.gotoOr trivial rfl
  | @clear t ch k hpc =>
    have hclear : Inv { s with dev := s.dev.clear k ch } := h.keep (fun _ => rfl) h.hdl
    exact hclear.goto trivial rfl
  | @mark t ch k hpc =>
    have hmark : Inv { s with dev := s.dev.mark k ch } := h.keep (fun _ => rfl) h.hdl
    exact hmark.goto trivial rfl
  | look hpc => exact h.gotoOr trivial rfl
  | @call t ch k x hpc hhdl => exact h.goto (h.hdl ch x hhdl) rfl
  | @handler t x ch k hpc =>
    have hclaimed : (Pc.handler x ch k).Ok s.log s.calls := hpc ▸ h.pcs t
    have htime : (Pc.handler x ch k).InTime s.dev s.log := hpc ▸ htimely
    exact (h.stop hclaimed htime).goto after_ok after_claiming

theorem holds_of_inFlight (h : Inv s) (hx : InFlight s.log x ch) : Holds s.log x ch := by
  obtain ⟨c, hc, hclaimed⟩ := h.returned x _ hx.1 (ofNat_nonneg ch)
  obtain rfl := ofNat_inj hc
  exact ⟨hclaimed, hx.2⟩

theorem exclusive (h : Inv s) : Exclusive s where
  range x ret hx hret := by
    obtain ⟨ch, rfl, -⟩ := h.returned x ret hx hret
    exact (ofNat_toNat ch).trans_lt ch.isLt
  bit x ch hx := (h.bit ch).2 ⟨x, h.holds_of_inFlight hx⟩
  disjoint x y ch hx hy := h.unique x y ch (h.holds_of_inFlight hx) (h.holds_of_inFlight hy)

end Inv

/-! ### The result -/

variable [DecidableEq T] {P : Periphs} {a : Act T}

/-- `dw_dmac_xfer` returns `-EBUSY` where it sees all bits set. -/
theorem used_of_busy (hstep : (dmac P).step s a = some s')
    (hlog : s'.log = .returned x (-eBusy) :: s.log) (ch : Chan) : s.dev.used ch = true := by
  have hsame : s.log ≠ .returned x (-eBusy) :: s.log := List.cons_ne_self _ _ |>.symm
  have hhead : ∀ e, e :: s.log = .returned x (-eBusy) :: s.log → e = .returned x (-eBusy) :=
    fun _ he => (List.cons.inj he).1
  cases step_of_eq hstep with
  | busy hpc hfull => exact HgdmaDw.freeChan_eq_none hfull ch
  | closed _ _ | tooWide _ _ | release _ =>
    have hret := (Event.returned.inj (hhead _ hlog)).2
    exact absurd hret (by decide)
  | @accept t x ch' hpc =>
    have hret := (Event.returned.inj (hhead _ hlog)).2
    have hnonneg := ofNat_nonneg ch'
    rw [hret] at hnonneg
    exact absurd hnonneg (by decide)
  | stop _ | claim _ _ | handler _ => exact nomatch hhead _ hlog
  | xfer _ _ | irq _ | raise | check _ _ _ | store _ | test _ | clear _ | mark _ | look _
  | call _ _ => exact absurd hlog hsame

/-- A handler that comes too late frees a channel another transfer has
claimed. -/
theorem Inv.freed (h : Inv s) (hstep : (dmac P).step s a = some s') (hlate : ¬ Timely s a) :
    ∃ y ch, Holds s'.log y ch ∧ s'.dev.used ch = false := by
  cases a with
  | xfer _ _ | stop _ _ | irq _ | raise _ _ => exact absurd trivial hlate
  | step t =>
    obtain ⟨x, ch, k, hpc⟩ : ∃ x ch k, s.pc t = .handler x ch k := by
      cases hpc : s.pc t with
      | handler x ch k => exact ⟨x, ch, k, rfl⟩
      | _ =>
        have htrue : (s.pc t).InTime s.dev s.log := by rw [hpc]; trivial
        exact absurd htrue hlate
    have hlate' : ¬ (Pc.handler x ch k).InTime s.dev s.log := hpc ▸ hlate
    obtain ⟨hstopped, hused⟩ := not_or.1 hlate'
    have hmove : s.move P t = some (({ s with dev := s.dev.dwDmacStop ch }.emit
        (.stopped x)).goto t (Sys.after ch k)) := by
      rw [Sys.move, hpc]
    obtain rfl := Option.some.inj (hmove.symm.trans hstep)
    obtain ⟨y, hy⟩ := (h.bit ch).1 (Bool.eq_true_of_not_eq_false hused)
    refine ⟨y, ch, ⟨List.mem_cons_of_mem _ hy.1, fun hs => ?_⟩, ?_⟩
    · rcases List.mem_cons.1 hs with heq | hs
      · obtain rfl := Event.stopped.inj heq
        exact hstopped hy.2
      · exact hy.2 hs
    · show (s.dev.dwDmacStop ch).used ch = false
      rw [HgdmaDw.used_dwDmacStop, decide_eq_true rfl, Bool.not_true, Bool.and_false]

/-- A transfer of 16 bytes, with a handler. -/
def sixteenBytes : DmaXferData Unit := ⟨0x2000, 0x1000, 0, 16, 0, some ()⟩

/-- All registers zero. -/
def zeroRegs : Chan → ChRegs := fun _ => ⟨0, 0, 0, 0, 0, 0, 0, 0⟩

/-- A call of `dw_dmac_xfer` from the claim to the return. -/
def throughXfer {T : Type} (t : T) : List (Act T) := List.replicate 16 (.step t)

/-- A transfer is accepted, completes, and is stopped by its handler. -/
def oneTransfer : List (Act Bool) :=
  .xfer true sixteenBytes :: throughXfer true ++ [.raise 0 .done, .irq false] ++
    List.replicate 6 (.step false)

/-- The client stops transfer 0 when its completion has been raised.
Transfer 1 claims the channel; then the interrupt handler runs and the
handler of transfer 0 frees it. Transfer 2 gets the same channel. -/
def lateCompletion : List (Act (Fin 3)) :=
  .xfer 0 sixteenBytes :: throughXfer 0 ++ [.raise 0 .done, .stop 0 0, .xfer 1 sixteenBytes,
    .step 1, .irq 0] ++ List.replicate 6 (.step 0) ++ List.replicate 15 (.step 1) ++
    .xfer 2 sixteenBytes :: throughXfer 2

/-- Completion and error of transfer 0 are both raised. Its handler, called
for the one, frees the channel; transfer 1 claims it, and the handler,
called for the other, frees it again. -/
def doneAndError : List (Act (Fin 3)) :=
  .xfer 0 sixteenBytes :: throughXfer 0 ++ [.raise 0 .done, .raise 0 .error, .irq 2] ++
    List.replicate 6 (.step 2) ++ [.xfer 1 sixteenBytes, .step 1] ++
    List.replicate 6 (.step 2) ++ List.replicate 15 (.step 1)

end Dmac

end Hgsdk

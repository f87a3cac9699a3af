import Hgsdk.SpiNor.Tasks
/-!
# Who holds the flash

The lock belongs to the task whose `spi_nor_open` got it, until its
`spi_nor_close` or until the open fails; the SPI device belongs to whoever
opened it. Both hold of every interleaving in which `os_mutex_init` finds
the lock free and each `spi_open` succeeds. A client's may fail where the
mode opens its bus without a command; the one in `spi_nor_attach` may not,
since what follows it reads an identifier, closes the device and unlocks
whatever it returned. At any other step the code loses one of the two.
-/

namespace Hgsdk

namespace SpiNor

variable {T : Type} [DecidableEq T]

/-! ### What is to hold -/

/-- What the last `spi_open` of `t` returned. -/
def lastOpen (t : T) : List (T × Event) → Option CInt
  | [] => none
  | (u, .spiOpened ret) :: log => if u = t then some ret else lastOpen t log
  | _ :: log => lastOpen t log

/-- A command is sent after a `spi_open` that returned 0; the device is
closed by its opener and the lock unlocked by its holder. -/
def Event.Allowed (t : T) (log : List (T × Event)) : Event → Prop
  | .command => lastOpen t log = some 0
  | .spiClosed own => own = true
  | .unlocked holder => holder = true
  | .locked | .spiOpened _ => True

instance (t : T) (log : List (T × Event)) : (e : Event) → Decidable (e.Allowed t log)
  | .command | .spiClosed _ | .unlocked _ => inferInstanceAs (Decidable (_ = _))
  | .locked | .spiOpened _ => isTrue trivial

/-- Every event was allowed when it happened. -/
def AllAllowed : List (T × Event) → Prop
  | [] => True
  | (t, e) :: log => e.Allowed t log ∧ AllAllowed log

instance : (log : List (T × Event)) → Decidable (AllAllowed log)
  | [] => isTrue trivial
  | (t, e) :: log =>
    have : Decidable (AllAllowed log) := instDecidableAllAllowed log
    inferInstanceAs (Decidable (e.Allowed t log ∧ AllAllowed log))

/-- Between the acquisition of the lock and its release. -/
def Pc.Holds : Pc → Prop
  | .idle | .init | .lock _ => False
  | .spiOpen _ | .busOpen _ _ | .giveUp _ _ | .session => True
  | .readId ret | .busClose _ ret | .spiClose _ ret | .unlock _ ret => ret = 0

instance : (pc : Pc) → Decidable pc.Holds
  | .idle | .init | .lock _ => isFalse id
  | .spiOpen _ | .busOpen _ _ | .giveUp _ _ | .session => isTrue trivial
  | .readId _ | .busClose _ _ | .spiClose _ _ | .unlock _ _ => inferInstanceAs (Decidable (_ = _))

/-- **The lock is held, once, by exactly the tasks between its acquisition
and its release**, and everything done so far was allowed. That there is
one such task at most is `RecMutex.holder_unique`. -/
structure Orderly (s : Sys T) : Prop where
  lock : ∀ t, s.lock.count t = if (s.pc t).Holds then 1 else 0
  log : AllAllowed s.log

/-- The bus of this mode is opened with commands. -/
def Mode.Speaks : Mode → Prop
  | .quadSpi | .qpi => True
  | .normalSpi | .dualSpi => False

/-- **Where the code does as it should.** The lock is initialised while
nobody has it, and `spi_open` succeeds, or it was called by a client in a
mode whose bus is opened silently. -/
def Clean (flash : Flash World) (s : Sys T) : Act T → Prop
  | .step t => s.pc t = .init → s.lock = .free
  | .spiOpen t env => ∀ v, s.pc t = .spiOpen v →
      (s.spiOpen (.task t) flash.wireMode env).1 = 0 ∨ v = .client ∧ ¬ flash.mode.Speaks
  | _ => True

/-! ### The invariant -/

/-- The device is this task's. -/
def Pc.Owns : Pc → Prop
  | .busOpen _ ret | .giveUp _ ret | .readId ret | .busClose _ ret | .spiClose _ ret => ret = 0
  | .session => True
  | .idle | .init | .lock _ | .spiOpen _ | .unlock _ _ => False

/-- What `spi_open` returned in the call the task is in. -/
def Pc.ret : Pc → Option CInt
  | .busOpen _ ret | .giveUp _ ret | .readId ret | .busClose _ ret | .spiClose _ ret
  | .unlock _ ret => some ret
  | .session => some 0
  | .idle | .init | .lock _ | .spiOpen _ => none

/-- The places a task comes to where every step is clean. -/
def Pc.Proper (mode : Mode) : Pc → Prop
  | .busOpen v ret | .giveUp v ret => ret = 0 ∨ v = .client ∧ ¬ mode.Speaks
  | .readId ret | .busClose _ ret | .spiClose _ ret | .unlock _ ret => ret = 0
  | .idle | .init | .lock _ | .spiOpen _ | .session => True

theorem Pc.Owns.holds {pc : Pc} (h : pc.Owns) : pc.Holds := by
  cases pc with
  | idle | init | lock _ | spiOpen _ | unlock _ _ => exact h.elim
  | busOpen _ _ | giveUp _ _ | session => trivial
  | readId _ | busClose _ _ | spiClose _ _ => exact h

/-- **The invariant** of the runs whose steps are clean. -/
structure Inv (mode : Mode) (s : Sys T) : Prop extends Orderly s where
  opener : ∀ t, (s.pc t).Owns → s.opener = some (.task t)
  last : ∀ t ret, (s.pc t).ret = some ret → lastOpen t s.log = some ret
  proper : ∀ t, (s.pc t).Proper mode

variable {s s' : Sys T} {t u : T} {pc : Pc} {mode : Mode} {flash : Flash World}

omit [DecidableEq T] in
theorem inv_start [DecidableEq T] (world : World) : Inv mode (.start world : Sys T) where
  lock _ := rfl
  log := trivial
  opener _ h := h.elim
  last _ _ h := nomatch h
  proper _ := trivial

namespace Inv

theorem count_pos (h : Inv mode s) : 0 < s.lock.count t ↔ (s.pc t).Holds := by
  rw [h.lock t]
  by_cases hholds : (s.pc t).Holds <;> simp [hholds]

/-- Two tasks in possession are one. -/
theorem unique (h : Inv mode s) (ht : (s.pc t).Holds) (hu : (s.pc u).Holds) : t = u :=
  RecMutex.holder_unique (h.count_pos.2 ht) (h.count_pos.2 hu)

/-- **The step rule.** `t` moves on to `pc`: the others keep what they
have, and `t` has what its new place calls for. -/
theorem next {lock : RecMutex T} {opener : Option (Opener T)} {world : World}
    {log : List (T × Event)} (h : Inv mode s)
    (hlock : ∀ u, u ≠ t → lock.count u = s.lock.count u)
    (hlock_t : lock.count t = if pc.Holds then 1 else 0) (hlog : AllAllowed log)
    (hopener : ∀ u, u ≠ t → (s.pc u).Owns → opener = some (.task u))
    (hopener_t : pc.Owns → opener = some (.task t))
    (hlast : ∀ u, u ≠ t → lastOpen u log = lastOpen u s.log)
    (hlast_t : ∀ ret, pc.ret = some ret → lastOpen t log = some ret)
    (hproper : pc.Proper mode) :
    Inv mode ⟨lock, opener, world, Function.update s.pc t pc, log⟩ where
  lock u := by
    show lock.count u = if (Function.update s.pc t pc u).Holds then 1 else 0
    by_cases hut : u = t
    · rw [hut, Function.update_self, hlock_t]
    · rw [Function.update_of_ne hut, hlock u hut, h.lock u]
  log := hlog
  opener u hu := by
    change (Function.update s.pc t pc u).Owns at hu
    show opener = _
    by_cases hut : u = t
    · rw [hut, Function.update_self] at hu
      rw [hopener_t hu, hut]
    · rw [Function.update_of_ne hut] at hu
      exact hopener u hut hu
  last u ret hu := by
    change (Function.update s.pc t pc u).ret = some ret at hu
    show lastOpen u log = some ret
    by_cases hut : u = t
    · rw [hut, Function.update_self] at hu
      rw [hut]
      exact hlast_t ret hu
    · rw [Function.update_of_ne hut] at hu
      rw [hlast u hut]
      exact h.last u ret hu
  proper u := by
    show (Function.update s.pc t pc u).Proper mode
    by_cases hut : u = t
    · rw [hut, Function.update_self]
      exact hproper
    · rw [Function.update_of_ne hut]
      exact h.proper u

/-- `t` moves on with what it has, the log perhaps longer. -/
theorem goto {world : World} {log : List (T × Event)} {pc₀ : Pc} (h : Inv mode s)
    (hpc₀ : s.pc t = pc₀) (hholds : pc.Holds ↔ pc₀.Holds) (howns : pc.Owns → pc₀.Owns)
    (hret : ∀ ret, pc.ret = some ret → pc₀.ret = some ret) (hproper : pc.Proper mode)
    (hlog : AllAllowed log) (hlast : ∀ u, lastOpen u log = lastOpen u s.log) :
    Inv mode ⟨s.lock, s.opener, world, Function.update s.pc t pc, log⟩ := by
  subst hpc₀
  refine h.next (fun _ _ => rfl) ?_ hlog (fun u _ hu => h.opener u hu)
    (fun hpc => h.opener t (howns hpc)) (fun u _ => hlast u) ?_ hproper
  · rw [h.lock t]
    exact if_congr hholds.symm rfl rfl
  · intro ret hpc
    rw [hlast t]
    exact h.last t ret (hret ret hpc)

end Inv

/-! ### Each step -/

omit [DecidableEq T] in
/-- A function of the bus touches neither the lock nor the device's
owner. -/
theorem Sys.exec_eq {α : Type} {m : Cmd World α} (h : s.exec t m = some s') :
    ∃ world log, s' = ⟨s.lock, s.opener, world, s.pc, log⟩ ∧
      (log = s.log ∨ log = (t, .command) :: s.log) := by
  obtain ⟨⟨_, world⟩, -, rfl⟩ := Option.map_eq_some_iff.1 h
  dsimp only
  split
  · exact ⟨world, s.log, rfl, .inl rfl⟩
  · exact ⟨world, _, rfl, .inr rfl⟩

omit [DecidableEq T] in
theorem spiOpen_of_zero {o : Opener T} {wireMode : BitVec 32} {env : OpenEnv}
    (h : (s.spiOpen o wireMode env).1 = 0) : (s.spiOpen o wireMode env).2 = some o := by
  cases hopener : s.opener with
  | some _ =>
    have hbusy : (s.spiOpen o wireMode env).1 = -eBusy := by
      rw [Sys.spiOpen, hopener]
      rfl
    exact absurd (hbusy.symm.trans h) (by decide)
  | none =>
    rw [Sys.spiOpen, hopener] at h ⊢
    have hopened := hgspiDwOpen_snd.2 h
    simp only [Option.isSome_none, Bool.false_eq_true, if_false, hopened, if_true]

omit [DecidableEq T] in
theorem spiOpen_of_open {o o' : Opener T} {wireMode : BitVec 32} {env : OpenEnv}
    (h : s.opener = some o') : (s.spiOpen o wireMode env).2 = some o' := by
  simp only [Sys.spiOpen, h, Option.isSome_some, if_true]

namespace Inv

/-- While `t` holds the lock, nobody else owns the device. -/
theorem not_owns (h : Inv mode s) (ht : (s.pc t).Holds) (hu : u ≠ t) : ¬ (s.pc u).Owns :=
  fun howns => hu (h.unique howns.holds ht)

/-- The holder unlocks. -/
theorem unlock (h : Inv mode s) (ht : (s.pc t).Holds) (hholds : ¬ pc.Holds) (howns : ¬ pc.Owns)
    (hret : pc.ret = none) (hproper : pc.Proper mode) :
    Inv mode ((s.osMutexUnlock t).goto t pc) := by
  obtain ⟨lock, hunlock, hcount⟩ := RecMutex.exists_unlock (h.count_pos.2 ht)
  have heq : s.osMutexUnlock t = { s with lock }.emit t (.unlocked true) := by
    rw [Sys.osMutexUnlock, hunlock]
  rw [heq]
  refine h.next ?_ ?_ ⟨rfl, h.log⟩ (fun u _ hu => h.opener u hu) (fun hpc => absurd hpc howns)
    (fun _ _ => rfl) ?_ hproper
  · intro u hu
    show lock.count u = _
    rw [hcount u, if_neg (Ne.symm hu), Nat.add_zero]
  · have hone := hcount t
    rw [h.lock t, if_pos ht, if_pos rfl] at hone
    rw [if_neg hholds]
    exact (Nat.succ.inj hone).symm
  · intro ret hpc
    exact nomatch hret.symm.trans hpc

/-- `t` runs a function of the bus after a `spi_open` that returned 0. -/
theorem exec {α : Type} {m : Cmd World α} {pc₀ : Pc} (h : Inv mode s) (hpc₀ : s.pc t = pc₀)
    (hexec : s.exec t m = some s') (hzero : pc₀.ret = some 0) (hholds : pc.Holds ↔ pc₀.Holds)
    (howns : pc.Owns → pc₀.Owns) (hret : ∀ ret, pc.ret = some ret → pc₀.ret = some ret)
    (hproper : pc.Proper mode) : Inv mode (s'.goto t pc) := by
  have hlast : lastOpen t s.log = some 0 := h.last t 0 (hpc₀ ▸ hzero)
  obtain ⟨world, log, rfl, rfl | rfl⟩ := Sys.exec_eq hexec
  · exact h.goto hpc₀ hholds howns hret hproper h.log fun _ => rfl
  · exact h.goto hpc₀ hholds howns hret hproper ⟨hlast, h.log⟩ fun _ => rfl

/-- The bus is opened: with commands only after a `spi_open` that returned
0. -/
theorem busOpen {v : Via} {ret : CInt} (h : Inv flash.mode s) (hpc : s.pc t = .busOpen v ret)
    (hexec : s.exec t (flash.bus.openBus flash) = some s') :
    Inv flash.mode (s'.goto t (.giveUp v ret)) := by
  have hproper : (Pc.busOpen v ret).Proper flash.mode := hpc ▸ h.proper t
  obtain rfl | ⟨-, hsilent⟩ := id hproper
  · exact h.exec hpc hexec rfl Iff.rfl id (fun _ => id) hproper
  · have hopen : flash.bus.openBus flash = standardOpen := by
      cases hmode : flash.mode with
      | normalSpi | dualSpi => rw [Flash.bus, hmode]; rfl
      | quadSpi | qpi => exact absurd (hmode ▸ trivial) hsilent
    have hsame : s' = s := by
      rw [hopen] at hexec
      exact (Option.some.inj hexec).symm.trans (if_pos rfl)
    rw [hsame]
    exact h.goto hpc Iff.rfl id (fun _ => id) hproper h.log fun _ => rfl

/-- The device is closed by its owner. -/
theorem spiClose {v : Via} {ret : CInt} (h : Inv mode s) (hpc : s.pc t = .spiClose v ret) :
    Inv mode ((s.spiClose t).goto t (.unlock v ret)) := by
  have hzero : ret = 0 := by
    have hproper := h.proper t
    rwa [hpc] at hproper
  have hholds : (s.pc t).Holds := by rw [hpc]; exact hzero
  have howns : (s.pc t).Owns := by rw [hpc]; exact hzero
  have heq : s.spiClose t = { s with opener := none }.emit t (.spiClosed true) := by
    simp only [Sys.spiClose, h.opener t howns, decide_true]
  rw [heq]
  refine h.next (fun _ _ => rfl) ?_ ⟨rfl, h.log⟩ ?_ (fun hpc => hpc.elim) (fun _ _ => rfl) ?_ hzero
  · show s.lock.count t = if ret = 0 then 1 else 0
    rw [h.lock t, if_pos hholds, if_pos hzero]
  · exact fun u hu howns => absurd howns (h.not_owns hholds hu)
  · intro r hr
    exact h.last t r (by rw [hpc]; exact hr)

/-- `spi_open` by the holder of the lock. -/
theorem spiOpen {v : Via} {wireMode : BitVec 32} {env : OpenEnv} (h : Inv mode s)
    (hpc : s.pc t = .spiOpen v)
    (hproper : (Pc.busOpen v (s.spiOpen (.task t) wireMode env).1).Proper mode) :
    Inv mode (({ s with opener := (s.spiOpen (.task t) wireMode env).2 }.emit t
      (.spiOpened (s.spiOpen (.task t) wireMode env).1)).goto t
        (.busOpen v (s.spiOpen (.task t) wireMode env).1)) := by
  have hholds : (s.pc t).Holds := by rw [hpc]; trivial
  refine h.next (fun _ _ => rfl) ?_ ⟨trivial, h.log⟩ ?_ spiOpen_of_zero ?_ ?_ hproper
  · exact (h.lock t).trans (if_pos hholds)
  · exact fun u hu howns => absurd howns (h.not_owns hholds hu)
  · exact fun u hu => if_neg (Ne.symm hu)
  · intro r hr
    exact (if_pos rfl).trans hr

/-- The lock is taken. -/
theorem acquire {v : Via} {lock : RecMutex T} (h : Inv mode s) (hpc : s.pc t = .lock v)
    (hlock : s.lock.lock t = some lock) :
    Inv mode (({ s with lock }.emit t .locked).goto t (.spiOpen v)) := by
  have hcount := RecMutex.count_lock hlock
  refine h.next ?_ ?_ ⟨trivial, h.log⟩ (fun u _ hu => h.opener u hu) (fun hpc => hpc.elim)
    (fun _ _ => rfl) nofun trivial
  · intro u hu
    show lock.count u = _
    rw [hcount u, if_neg (Ne.symm hu), Nat.add_zero]
  · have hnone : ¬ (s.pc t).Holds := by rw [hpc]; exact id
    show lock.count t = 1
    rw [hcount t, h.lock t, if_neg hnone, if_pos rfl]

/-- A step inside a call. -/
theorem move (h : Inv flash.mode s) (hclean : s.pc t = .init → s.lock = .free)
    (hmove : s.move flash t = some s') : Inv flash.mode s' := by
  have hproper := h.proper t
  unfold Sys.move at hmove
  split at hmove
  · exact nomatch hmove
  · exact nomatch hmove
  · exact nomatch hmove
  · rename_i hpc
    obtain rfl := Option.some.inj hmove
    have hfree := hclean hpc
    refine h.next (fun u _ => by rw [hfree]) rfl h.log (fun u _ hu => h.opener u hu)
      (fun hpc => hpc.elim) (fun _ _ => rfl) nofun trivial
  · rename_i v hpc
    obtain ⟨lock, hlock, rfl⟩ := Option.map_eq_some_iff.1 hmove
    exact h.acquire hpc hlock
  · rename_i v ret hpc
    obtain ⟨s₁, hexec, rfl⟩ := Option.map_eq_some_iff.1 hmove
    exact h.busOpen hpc hexec
  · rename_i v ret hpc
    obtain rfl := Option.some.inj hmove
    rw [hpc] at hproper
    by_cases hzero : ret = 0
    · subst hzero
      rw [if_neg (fun hne => hne rfl)]
      cases v with
      | client =>
        exact h.goto hpc Iff.rfl (fun _ => rfl) (fun _ => id) trivial h.log fun _ => rfl
      | attach =>
        exact h.goto hpc ⟨fun _ => trivial, fun _ => rfl⟩ (fun _ => rfl) (fun _ => id) rfl h.log
          fun _ => rfl
    · obtain ⟨rfl, -⟩ := hproper.resolve_left hzero
      rw [if_pos hzero, Sys.opened, if_pos hzero]
      exact h.unlock (by rw [hpc]; trivial) id id rfl trivial
  · rename_i ret hpc
    obtain ⟨s₁, hexec, rfl⟩ := Option.map_eq_some_iff.1 hmove
    rw [hpc] at hproper
    obtain rfl : ret = 0 := hproper
    exact h.exec hpc hexec rfl Iff.rfl id (fun _ => id) rfl
  · rename_i v ret hpc
    obtain ⟨s₁, hexec, rfl⟩ := Option.map_eq_some_iff.1 hmove
    rw [hpc] at hproper
    obtain rfl : ret = 0 := hproper
    exact h.exec hpc hexec rfl Iff.rfl id (fun _ => id) rfl
  · rename_i v ret hpc
    obtain rfl := Option.some.inj hmove
    exact h.spiClose hpc
  · rename_i v ret hpc
    obtain rfl := Option.some.inj hmove
    rw [hpc] at hproper
    exact h.unlock (by rw [hpc]; exact hproper) id id rfl trivial

/-- **Every clean step keeps the invariant.** -/
theorem step {a : Act T} (h : Inv flash.mode s) (hclean : Clean flash s a)
    (hstep : (flashTasks flash).step s a = some s') : Inv flash.mode s' := by
  cases a with
  | openFlash t =>
    obtain ⟨hpc, rfl⟩ := Option.ite_none_right_eq_some.1 hstep |>.imp_right Option.some.inj
    exact h.goto hpc Iff.rfl (fun howns => howns.elim) (by rintro _ ⟨⟩) trivial h.log fun _ => rfl
  | op t o =>
    obtain ⟨hpc, hexec⟩ := Option.ite_none_right_eq_some.1 hstep
    have hnext : Inv flash.mode (s'.goto t (s.pc t)) :=
      h.exec rfl hexec (by rw [hpc]; rfl) Iff.rfl id (fun _ => id) (h.proper t)
    obtain ⟨world, log, rfl, -⟩ := Sys.exec_eq hexec
    rwa [Sys.goto, Function.update_eq_self] at hnext
  | closeFlash t =>
    obtain ⟨hpc, rfl⟩ := Option.ite_none_right_eq_some.1 hstep |>.imp_right Option.some.inj
    exact h.goto hpc ⟨fun _ => trivial, fun _ => rfl⟩ (fun _ => trivial) (fun _ => id) rfl h.log
      fun _ => rfl
  | attach t =>
    obtain ⟨hpc, rfl⟩ := Option.ite_none_right_eq_some.1 hstep |>.imp_right Option.some.inj
    exact h.goto hpc Iff.rfl (fun howns => howns.elim) (by rintro _ ⟨⟩) trivial h.log fun _ => rfl
  | step t => exact h.move hclean hstep
  | spiOpen t env =>
    cases hpc : s.pc t with
    | spiOpen v =>
      simp only [flashTasks, hpc, Option.some.injEq] at hstep
      subst hstep
      exact h.spiOpen hpc (hclean v hpc)
    | _ =>
      simp only [flashTasks, hpc] at hstep
      cases hstep
  | otherOpen wireMode env =>
    obtain rfl := Option.some.inj hstep
    exact { h with opener := fun t ht => spiOpen_of_open (h.opener t ht) }
  | otherClose =>
    obtain ⟨hother, rfl⟩ := Option.ite_none_right_eq_some.1 hstep |>.imp_right Option.some.inj
    refine { h with opener := fun t ht => ?_ }
    have hopen := (h.opener t ht).symm.trans hother
    cases hopen

end Inv

/-! ### Where a step is not clean -/

/-- Commands are sent, whatever the chip does. -/
def Lengthens {α : Type} (m : Cmd World α) : Prop :=
  ∀ w, Ensures m w fun _ w' => w.log.length < w'.log.length

section Lengthens

variable {α β : Type} {B : Board} {i : Byte} {args : List Byte} {n : BitVec 32}

theorem Lengthens.bind {m : Cmd World α} {f : α → Cmd World β} (hm : Lengthens m)
    (hf : ∀ a, Lengthens (f a)) : Lengthens (m >>= f) := by
  intro w
  refine (hm w).bind fun a w₁ h₁ => (hf a w₁).mono fun _ w₂ h₂ => ?_
  exact h₁.trans h₂

theorem length_command {w : World} : w.log.length < (w.command B (i :: args)).log.length := by
  rw [command_log, List.length_append]
  exact Nat.lt_succ_self _

theorem lengthens_write :
    Lengthens (withCs (B.flash mode) ((B.flash mode).spidev.write (i :: args))) :=
  fun _ => ensures_withCs_write.2 length_command

theorem lengthens_readStatus : Lengthens (standardReadStatusRegister (B.flash mode)) :=
  fun _ => ensures_withCs_readStatus.2 length_command

theorem lengthens_readJedecId : Lengthens (standardReadJedecId (B.flash mode)) :=
  fun _ => ensures_withCs_writeRead.2 length_command

theorem lengthens_writeStatus {data : BitVec 16} :
    Lengthens (standardWriteStatusRegister (B.flash mode) data) :=
  lengthens_write.bind fun _ => lengthens_write.bind fun _ => lengthens_write

theorem lengthens_openBus (h : mode.Speaks) :
    Lengthens ((B.flash mode).bus.openBus (B.flash mode)) := by
  cases mode with
  | normalSpi | dualSpi => exact h.elim
  | quadSpi => exact lengthens_write.bind fun _ => lengthens_readStatus.bind fun _ =>
      lengthens_writeStatus
  | qpi => exact lengthens_write.bind fun _ => lengthens_readStatus.bind fun _ =>
      lengthens_writeStatus.bind fun _ => lengthens_write

end Lengthens

omit [DecidableEq T] in
/-- What `exec` does with a function that sends commands. -/
theorem Sys.exec_of_lengthens {α : Type} {m : Cmd World α} (s : Sys T) (hm : Lengthens m) :
    ∃ world, s.exec t m = some ⟨s.lock, s.opener, world, s.pc, (t, .command) :: s.log⟩ := by
  obtain ⟨a, world, heq, hlen⟩ := hm s.world
  have hne : world.log ≠ s.world.log := fun h => absurd hlen (by rw [h]; exact Nat.lt_irrefl _)
  refine ⟨world, ?_⟩
  rw [Sys.exec, heq, Option.map_some]
  exact congrArg some (if_neg hne)

theorem lastOpen_osMutexUnlock : lastOpen t (s.osMutexUnlock u).log = lastOpen t s.log := by
  unfold Sys.osMutexUnlock
  split <;> rfl

omit [DecidableEq T] in
/-- A command after a failed `spi_open`. -/
theorem not_allAllowed [DecidableEq T] {ret : CInt} {log : List (T × Event)}
    (h : lastOpen t log = some ret) (hret : ret ≠ 0) : ¬ AllAllowed ((t, .command) :: log) :=
  fun hall => hret (Option.some.inj (h.symm.trans hall.1))

variable {B : Board} {v : Via} {ret : CInt}

/-- A bus opened with commands after a failed `spi_open`. -/
theorem disorder_of_speaks (hpc : s.pc t = .busOpen v ret) (hlast : lastOpen t s.log = some ret)
    (hret : ret ≠ 0) (hspeaks : mode.Speaks) :
    ∃ s', (flashTasks (B.flash mode)).run s [.step t] = some s' ∧ ¬ Orderly s' := by
  obtain ⟨world, hexec⟩ := s.exec_of_lengthens (t := t) (lengthens_openBus (B := B) hspeaks)
  have hmove := Sys.move_busOpen (B.flash mode) hpc
  rw [hexec, Option.map_some] at hmove
  refine ⟨_, Machine.run_cons_of_step hmove, fun h => ?_⟩
  exact not_allAllowed hlast hret h.log

omit [DecidableEq T] in
/-- The bus is opened in every mode. -/
theorem exists_openBus (B : Board) (mode : Mode) (s : Sys T) (t : T) :
    ∃ s', s.exec t ((B.flash mode).bus.openBus (B.flash mode)) = some s' := by
  by_cases hspeaks : mode.Speaks
  · obtain ⟨world, hexec⟩ := s.exec_of_lengthens (t := t) (lengthens_openBus (B := B) hspeaks)
    exact ⟨_, hexec⟩
  · cases mode with
    | normalSpi | dualSpi => exact ⟨_, rfl⟩
    | quadSpi | qpi => exact absurd trivial hspeaks

/-- `spi_nor_attach` reads the identifier after a failed `spi_open`. -/
theorem disorder_of_attach (hpc : s.pc t = .busOpen .attach ret)
    (hlast : lastOpen t s.log = some ret) (hret : ret ≠ 0) :
    ∃ s', (flashTasks (B.flash mode)).run s [.step t, .step t, .step t] = some s' ∧
      ¬ Orderly s' := by
  obtain ⟨s₁, hexec⟩ := exists_openBus B mode s t
  have hlast₁ : lastOpen t s₁.log = some ret := by
    obtain ⟨world, log, rfl, rfl | rfl⟩ := Sys.exec_eq hexec <;> exact hlast
  have hopen := Sys.move_busOpen (B.flash mode) hpc
  rw [hexec, Option.map_some] at hopen
  -- the lock is given back, and the call goes on
  have hgive := Sys.move_giveUp (B.flash mode) (s := s₁.goto t (.giveUp .attach ret))
    (Function.update_self ..)
  rw [if_pos hret] at hgive
  have hlast₂ : lastOpen t ((s₁.goto t (.giveUp .attach ret)).osMutexUnlock t).log = some ret :=
    lastOpen_osMutexUnlock.trans hlast₁
  obtain ⟨world, hread⟩ := Sys.exec_of_lengthens (t := t)
    (((s₁.goto t (.giveUp .attach ret)).osMutexUnlock t).goto t (.readId ret))
    (lengthens_readJedecId : Lengthens (standardReadJedecId (B.flash mode)))
  have hmove := Sys.move_readId (B.flash mode)
    (s := ((s₁.goto t (.giveUp .attach ret)).osMutexUnlock t).goto t (.readId ret))
    (Function.update_self ..)
  rw [hread, Option.map_some] at hmove
  refine ⟨_, (Machine.run_cons_of_step hopen).trans <| (Machine.run_cons_of_step hgive).trans <|
    Machine.run_cons_of_step hmove, fun h => ?_⟩
  exact not_allAllowed hlast₂ hret h.log

/-- **A step that is not clean** leads out of order. -/
theorem Inv.disorder {a : Act T} (h : Inv mode s)
    (hstep : (flashTasks (B.flash mode)).step s a = some s') (hdirty : ¬ Clean (B.flash mode) s a) :
    ∃ more s'', (flashTasks (B.flash mode)).run s' more = some s'' ∧ ¬ Orderly s'' := by
  cases a with
  | openFlash _ | op _ _ | closeFlash _ | attach _ | otherOpen _ _ | otherClose =>
    exact absurd trivial hdirty
  | step t =>
    -- the lock is initialised while another task holds it
    obtain ⟨hpc, hheld⟩ := Classical.not_imp.1 hdirty
    obtain ⟨u, hu⟩ := not_forall.1 (mt RecMutex.eq_free hheld)
    have hholds := h.count_pos.1 (Nat.pos_of_ne_zero hu)
    have hut : u ≠ t := by
      rintro rfl
      rw [hpc] at hholds
      exact hholds
    have hinit : s.move (B.flash mode) t = some ({ s with lock := .free }.goto t (.lock .attach)) := by
      rw [Sys.move, hpc]
    obtain rfl := Option.some.inj (hinit.symm.trans hstep)
    refine ⟨[], _, rfl, fun horderly => ?_⟩
    have hcount : 0 = if (Function.update s.pc t (.lock .attach) u).Holds then 1 else 0 :=
      horderly.lock u
    rw [Function.update_of_ne hut, if_pos hholds] at hcount
    cases hcount
  | spiOpen t env =>
    obtain ⟨v, hv⟩ := not_forall.1 hdirty
    obtain ⟨hpc, hfail⟩ := Classical.not_imp.1 hv
    obtain ⟨hret, hmode⟩ := not_or.1 hfail
    simp only [flashTasks, hpc, Option.some.injEq] at hstep
    subst hstep
    cases v with
    | client =>
      have hspeaks : mode.Speaks := by
        by_contra hsilent
        exact hmode ⟨rfl, hsilent⟩
      exact ⟨_, disorder_of_speaks (Function.update_self ..) (if_pos rfl) hret hspeaks⟩
    | attach => exact ⟨_, disorder_of_attach (Function.update_self ..) (if_pos rfl) hret⟩

/-! ### The result -/

/-- **The flash is held in good order** in every run whose steps are clean,
and any other step can be continued to a state that is not. -/
theorem flash_in_order {w : World} {acts : List (Act T)}
    (hclean : (flashTasks (B.flash mode)).Along (Clean (B.flash mode)) (.start w) acts)
    (hrun : (flashTasks (B.flash mode)).run (.start w) acts = some s) :
    Orderly s ∧ ∀ a s', (flashTasks (B.flash mode)).step s a = some s' →
      ¬ Clean (B.flash mode) s a →
      ∃ more s'', (flashTasks (B.flash mode)).run s' more = some s'' ∧ ¬ Orderly s'' := by
  have hinv : Inv mode s := Machine.inv_of_run (I := Inv mode)
    (fun s a s' (h : Inv (B.flash mode).mode s) hC hstep => h.step hC hstep) (inv_start w)
    hclean hrun
  exact ⟨hinv.toOrderly, fun a s' hstep hdirty => hinv.disorder hstep hdirty⟩

/-- A client opens the flash in quad mode while another waits. -/
theorem flash_in_order_two_clients :
    (flashTasks ((smallBoard true).flash .quadSpi)).Along (Clean ((smallBoard true).flash .quadSpi))
      (.start erasedWorld : Sys Bool)
      [.openFlash true, .openFlash false, .step true, .spiOpen true .fine, .step true] ∧
    ∃ s, (flashTasks ((smallBoard true).flash .quadSpi)).run (.start erasedWorld : Sys Bool)
      [.openFlash true, .openFlash false, .step true, .spiOpen true .fine, .step true] = some s ∧
      Orderly s := by
  have hclean : (flashTasks ((smallBoard true).flash .quadSpi)).Along
      (Clean ((smallBoard true).flash .quadSpi)) (.start erasedWorld : Sys Bool)
      [.openFlash true, .openFlash false, .step true, .spiOpen true .fine, .step true] := by
    refine (Machine.along_cons_of_step rfl).2 ⟨trivial, ?_⟩
    refine (Machine.along_cons_of_step rfl).2 ⟨trivial, ?_⟩
    refine (Machine.along_cons_of_step rfl).2 ⟨nofun, ?_⟩
    refine (Machine.along_cons_of_step rfl).2 ⟨fun _ _ => .inl rfl, ?_⟩
    exact (Machine.along_cons_of_step rfl).2 ⟨nofun, trivial⟩
  exact ⟨hclean, _, rfl, (flash_in_order hclean rfl).1⟩

/-- With the SPI device in another client's hands, `spi_nor_attach` reads
an identifier, closes that client's device and unlocks a lock it has given
back; `spi_nor_open` writes the status register in quad mode. And a second
`spi_nor_attach` takes the lock away from a client in its session. -/
theorem flash_out_of_order :
    (∃ s, (flashTasks ((smallBoard true).flash .normalSpi)).run (.start erasedWorld : Sys Bool)
      [.otherOpen spiWireNormalMode .fine, .attach true, .step true, .step true,
        .spiOpen true .fine, .step true, .step true, .step true, .step true, .step true,
        .step true] = some s ∧
      s.log = [(true, .unlocked false), (true, .spiClosed false), (true, .command),
        (true, .unlocked true), (true, .spiOpened (-eBusy)), (true, .locked)] ∧ ¬ Orderly s) ∧
    (∃ s, (flashTasks ((smallBoard true).flash .quadSpi)).run (.start erasedWorld : Sys Bool)
      [.otherOpen spiWireNormalMode .fine, .openFlash true, .step true, .spiOpen true .fine,
        .step true] = some s ∧
      s.log = [(true, .command), (true, .spiOpened (-eBusy)), (true, .locked)] ∧ ¬ Orderly s) ∧
    ∃ s, (flashTasks ((smallBoard true).flash .normalSpi)).run (.start erasedWorld : Sys Bool)
      [.openFlash true, .step true, .spiOpen true .fine, .step true, .step true,
        .attach false, .step false] = some s ∧
      s.pc true = .session ∧ s.lock = .free ∧ ¬ Orderly s := by
  refine ⟨⟨_, rfl, rfl, fun h => ?_⟩, ⟨_, rfl, rfl, fun h => ?_⟩, _, rfl, rfl, rfl, fun h => ?_⟩
  · exact absurd h.log (by decide)
  · exact absurd h.log (by decide)
  · exact absurd (h.lock true) (by decide)

end SpiNor

end Hgsdk

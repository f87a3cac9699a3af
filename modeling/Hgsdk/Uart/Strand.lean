import Hgsdk.Uart.Model
import Hgsdk.Rbuffer.Fifo
/-!
# When the receive paths strand data

Bytes are stranded when the ring holds some, the timer is not running, no
post is pending and the task waits for one: nothing but a further byte
will move them. A pass of the task empties at most `uartTxbuf` bytes and
nobody posts for the rest, so the passes that matter are those that take
the last post with the timer stopped. If each of them finds no more than
`uartTxbuf` bytes, nothing is ever stranded; and any one of them that
finds more can strand the rest.

`UartLine.Covered` is the invariant: either somebody will still wake the
task, or what is stored fits in what is left of the pass.
-/

namespace Hgsdk

variable {l l' : UartLine} {xs : List Byte} {k : ℕ}

namespace UartLine

/-- What is stored is looked after: by the timer, by a post, or by a pass
of the task that can still take `k` bytes. -/
def Covered (l : UartLine) (k : ℕ) : Prop :=
  l.timer = true ∨ 0 < l.sema ∨ rbCount l.rb ≤ k

/-- The ring stores some list. -/
def Sound (l : UartLine) : Prop := ∃ xs, Holds uartRbsize l.rb xs

theorem sound_init {rb : Rbuffer Byte} (h : uartRbsize ≤ rb.rbq.length) : (init rb).Sound :=
  ⟨[], holds_rbInit (by decide) h⟩

@[simp] theorem semaUp_rb : l.semaUp.rb = l.rb := by
  unfold semaUp; split_ifs <;> rfl

theorem semaUp_pos : 0 < l.semaUp.sema := by
  unfold semaUp
  split_ifs with h
  · omega
  · exact Nat.succ_pos _

/-- A post covers everything. -/
theorem covered_semaUp : l.semaUp.Covered k := Or.inr (Or.inl semaUp_pos)

@[simp] theorem rxDataAvail_timer {b : Byte} : (l.rxDataAvail b).timer = true := rfl

@[simp] theorem rxDataAvail_rb {b : Byte} : (l.rxDataAvail b).rb = rbSet l.rb b := by
  unfold rxDataAvail timerStart timerStop
  dsimp only
  split_ifs <;> simp

/-- A byte starts the timer, which covers everything. -/
theorem covered_rxDataAvail {b : Byte} : (l.rxDataAvail b).Covered k := Or.inl rxDataAvail_timer

theorem Sound.rxDataAvail (h : l.Sound) {b : Byte} : (l.rxDataAvail b).Sound := by
  obtain ⟨xs, hh⟩ := h
  exact ⟨_, by rw [rxDataAvail_rb]; exact hh.rbSet_eq b⟩

/-- Soundness is a fact about the ring. -/
theorem Sound.of_rb (h : l.Sound) (hrb : l'.rb = l.rb) : l'.Sound := by
  obtain ⟨xs, hh⟩ := h
  exact ⟨xs, by rw [hrb]; exact hh⟩

/-- The timer's callback stores nothing and posts. -/
theorem timerCb_eq_some (h : l.timerCb = some l') : l'.rb = l.rb ∧ 0 < l'.sema := by
  unfold timerCb at h
  split_ifs at h
  cases h
  exact ⟨by simp [timerStop], semaUp_pos⟩

/-- Taking a post takes one and does nothing else. -/
theorem semaDown_eq_some (h : l.semaDown = some l') :
    l'.rb = l.rb ∧ l'.timer = l.timer ∧ l'.sema = l.sema - 1 := by
  unfold semaDown at h
  split_ifs at h
  cases h
  exact ⟨rfl, rfl, rfl⟩

/-- **The pass that matters.** It takes the last post, no byte is on the
way to start another, and it has room for what is stored. -/
def TakeFits (l : UartLine) : Prop :=
  l.timer = true ∨ 1 < l.sema ∨ rbCount l.rb ≤ uartTxbuf

instance : Decidable l.TakeFits := inferInstanceAs (Decidable (_ ∨ _ ∨ _))

theorem TakeFits.covered (h : l.TakeFits) (hd : l.semaDown = some l') :
    l'.Covered uartTxbuf := by
  obtain ⟨hrb, ht, hs⟩ := semaDown_eq_some hd
  rcases h with h | h | h
  · exact Or.inl (ht.trans h)
  · exact Or.inr (Or.inl (by omega))
  · exact Or.inr (Or.inr (hrb ▸ h))

theorem not_takeFits (h : ¬ l.TakeFits) :
    l.timer = false ∧ l.sema ≤ 1 ∧ (uartTxbuf : ℤ) < rbCount l.rb := by
  unfold TakeFits at h
  push Not at h
  exact ⟨by simpa using h.1, h.2.1, h.2.2⟩

end UartLine

theorem rbGetInto_rb (rb : Rbuffer Byte) (txbuf : List Byte) (c : ℕ) :
    (rbGetInto rb txbuf c).1 = (rbGet rb).2 := by
  unfold rbGetInto
  split <;> rename_i h <;> rw [h]

theorem UartLine.Sound.get (h : l.Sound) (txbuf : List Byte) (c : ℕ) :
    UartLine.Sound { l with rb := (rbGetInto l.rb txbuf c).1 } := by
  obtain ⟨xs, hh⟩ := h
  exact ⟨xs.tail, by rw [rbGetInto_rb]; exact hh.rbGet_eq.2⟩

/-! ## One pass over the ring

Both tasks run the same loop; what differs is where it starts and ends.
`Pass l k` is what holds of the line inside it, with `k` bytes of `txbuf`
left. -/

/-- Inside the loop: the ring is sound and what it stores is looked
after. -/
def UartLine.Pass (l : UartLine) (k : ℕ) : Prop := l.Sound ∧ l.Covered k

namespace UartLine.Pass

theorem rxDataAvail (h : l.Pass k) {b : Byte} : (l.rxDataAvail b).Pass k :=
  ⟨h.1.rxDataAvail, covered_rxDataAvail⟩

theorem semaUp (h : l.Pass k) : l.semaUp.Pass k :=
  ⟨h.1.of_rb semaUp_rb, covered_semaUp⟩

theorem timerCb (h : l.Pass k) (ht : l.timerCb = some l') : l'.Pass k := by
  obtain ⟨hrb, hs⟩ := timerCb_eq_some ht
  exact ⟨h.1.of_rb hrb, Or.inr (Or.inl hs)⟩

theorem semaDown (h : l.Pass k) (hd : l.semaDown = some l') (hfit : l.TakeFits) :
    l'.Pass uartTxbuf :=
  ⟨h.1.of_rb (semaDown_eq_some hd).1, hfit.covered hd⟩

/-- The loop ends with `txbuf` full or the ring empty, and either way
nothing is left that the pass was to look after. -/
theorem exit {c : ℕ} (h : l.Pass (uartTxbuf - c)) (hend : ¬ (c < uartTxbuf ∧ ¬ RbEmpty l.rb)) :
    l.Pass 0 := by
  obtain ⟨⟨xs, hh⟩, hcov⟩ := h
  refine ⟨⟨xs, hh⟩, ?_⟩
  rcases hcov with hcov | hcov | hcov
  · exact Or.inl hcov
  · exact Or.inr (Or.inl hcov)
  · refine Or.inr (Or.inr ?_)
    by_cases he : RbEmpty l.rb
    · rw [hh.rbCount_eq, hh.rbEmpty_iff.1 he]
      rfl
    · have hc : ¬ c < uartTxbuf := fun hc => hend ⟨hc, he⟩
      have hk : uartTxbuf - c = 0 := by omega
      rw [hk] at hcov
      exact hcov

/-- One `RB_GET` takes a byte out of the ring and out of `txbuf`'s
room. -/
theorem get {c : ℕ} (h : l.Pass (uartTxbuf - c)) (hc : c < uartTxbuf) (txbuf : List Byte) :
    UartLine.Pass { l with rb := (rbGetInto l.rb txbuf c).1 } (uartTxbuf - (c + 1)) := by
  obtain ⟨⟨xs, hh⟩, hcov⟩ := h
  refine ⟨UartLine.Sound.get ⟨xs, hh⟩ txbuf c, ?_⟩
  rcases hcov with hcov | hcov | hcov
  · exact Or.inl hcov
  · exact Or.inr (Or.inl hcov)
  · refine Or.inr (Or.inr ?_)
    rw [rbGetInto_rb, hh.rbGet_eq.2.rbCount_eq, List.length_tail]
    rw [hh.rbCount_eq] at hcov
    omega

/-- With no room, no post and no timer, there is nothing to look after. -/
theorem rbEmpty (h : l.Pass 0) (ht : l.timer = false) (hs : l.sema = 0) : RbEmpty l.rb := by
  obtain ⟨⟨xs, hh⟩, hcov⟩ := h
  rcases hcov with hcov | hcov | hcov
  · rw [ht] at hcov
    exact nomatch hcov
  · omega
  · rw [hh.rbCount_eq] at hcov
    exact hh.rbEmpty_iff.2 (List.length_eq_zero_iff.1 (by omega))

end UartLine.Pass

/-- **A pass over more than it has room for**, if it runs undisturbed. `M`
runs the loop of the two tasks: at the test with `c` bytes fetched it goes
on to fetch another or leaves, and `j` bytes of room are left. -/
theorem run_pass {σ ι : Type} {M : Machine σ ι} {a : ι}
    {test get leave : ℕ → UartLine → List Byte → σ}
    (htest : ∀ c l txbuf, M.step (test c l txbuf) a =
      some (if c < uartTxbuf ∧ ¬ RbEmpty l.rb then get c l txbuf else leave c l txbuf))
    (hget : ∀ c l txbuf, M.step (get c l txbuf) a =
      some (test (c + 1) { l with rb := (rbGetInto l.rb txbuf c).1 } (rbGetInto l.rb txbuf c).2))
    {j c : ℕ} {l : UartLine} {txbuf xs : List Byte} (hc : c + j = uartTxbuf)
    (hh : Holds uartRbsize l.rb xs) (hj : j < xs.length) :
    ∃ rb txbuf', M.run (test c l txbuf) (List.replicate (2 * j + 1) a) =
        some (leave uartTxbuf { l with rb } txbuf') ∧ Holds uartRbsize rb (xs.drop j) := by
  induction j generalizing c l txbuf xs with
  | zero =>
    have hend : ¬ (c < uartTxbuf ∧ ¬ RbEmpty l.rb) := by omega
    have hstep := htest c l txbuf
    rw [if_neg hend] at hstep
    obtain rfl : c = uartTxbuf := by omega
    exact ⟨l.rb, txbuf, Machine.run_cons_of_step hstep, hh⟩
  | succ j ih =>
    have hne : xs ≠ [] := by rintro rfl; simp at hj
    have hloop : c < uartTxbuf ∧ ¬ RbEmpty l.rb :=
      ⟨by omega, fun he => hne (hh.rbEmpty_iff.1 he)⟩
    have hstep := htest c l txbuf
    rw [if_pos hloop] at hstep
    have hnext := hh.rbGet_eq.2
    rw [← rbGetInto_rb l.rb txbuf c] at hnext
    have hcount : 2 * (j + 1) + 1 = (2 * j + 1) + 1 + 1 := by omega
    have hlen : j < xs.tail.length := by rw [List.length_tail]; omega
    rw [hcount, List.replicate_succ, List.replicate_succ, Machine.run_cons_of_step hstep,
      Machine.run_cons_of_step (hget c l txbuf), ← List.drop_tail]
    exact ih (by omega) hnext hlen

/-- The pass and the call behind it, after which the task waits again: the
rest is left. -/
theorem run_pass_leaves {σ ι : Type} {M : Machine σ ι} {a : ι}
    {test get leave wait : ℕ → UartLine → List Byte → σ}
    (htest : ∀ c l txbuf, M.step (test c l txbuf) a =
      some (if c < uartTxbuf ∧ ¬ RbEmpty l.rb then get c l txbuf else leave c l txbuf))
    (hget : ∀ c l txbuf, M.step (get c l txbuf) a =
      some (test (c + 1) { l with rb := (rbGetInto l.rb txbuf c).1 } (rbGetInto l.rb txbuf c).2))
    (hleave : ∀ c l txbuf, M.step (leave c l txbuf) a = some (wait c l txbuf))
    {l : UartLine} {txbuf xs : List Byte} (hh : Holds uartRbsize l.rb xs)
    (hlong : uartTxbuf < xs.length) :
    ∃ rb txbuf', M.run (test 0 l txbuf) (List.replicate (2 * uartTxbuf + 2) a) =
        some (wait uartTxbuf { l with rb } txbuf') ∧ ¬ RbEmpty rb := by
  obtain ⟨rb, txbuf', hrun, hrb⟩ := run_pass htest hget (Nat.zero_add _) hh hlong
  refine ⟨rb, txbuf', ?_, ?_⟩
  · have hcount : 2 * uartTxbuf + 2 = (2 * uartTxbuf + 1) + 1 := by omega
    rw [hcount, List.replicate_succ', Machine.run_append_of_run hrun]
    exact Machine.run_cons_of_step (hleave _ _ _)
  · rw [hrb.rbEmpty_iff, List.drop_eq_nil_iff]
    omega

/-! ## `uart_iot` -/

namespace UartIot

/-- **Stranded**: bytes stored, and nobody to fetch them. -/
def Stranded (s : UartIot) : Prop :=
  s.line.timer = false ∧ s.line.sema = 0 ∧ s.pc = .semaDown ∧ ¬ RbEmpty s.line.rb

/-- A step that takes the semaphore takes it for a pass that fits. -/
def TakeFits (s : UartIot) (a : IotStep) : Prop :=
  a = .task → s.pc = .semaDown → s.line.TakeFits

instance (s : UartIot) (a : IotStep) : Decidable (s.TakeFits a) :=
  inferInstanceAs (Decidable (a = .task → s.pc = .semaDown → s.line.TakeFits))

/-- The room left in `txbuf` where the task stands. -/
def room (s : UartIot) : ℕ :=
  match s.pc with
  | .semaDown => 0
  | .test c => uartTxbuf - c
  | .get c => uartTxbuf - c
  | .receive _ => 0

/-- The invariant of the good runs. -/
def Inv (s : UartIot) : Prop :=
  s.line.Pass s.room ∧ ∀ c, s.pc = .get c → c < uartTxbuf

theorem inv_init {rb : Rbuffer Byte} (h : uartRbsize ≤ rb.rbq.length) (txbuf : List Byte) :
    (init rb txbuf).Inv := by
  refine ⟨⟨UartLine.sound_init h, Or.inr (Or.inr ?_)⟩, fun c hc => by cases hc⟩
  rw [init, UartLine.init, (holds_rbInit (by decide) h).rbCount_eq]
  rfl

theorem Inv.task {s t : UartIot} (h : s.Inv) (hfit : s.pc = .semaDown → s.line.TakeFits)
    (ht : s.task = some t) : t.Inv := by
  obtain ⟨hpass, hget⟩ := h
  unfold UartIot.task at ht
  split at ht
  case h_1 hpc =>
    obtain ⟨l, hl, rfl⟩ := Option.map_eq_some_iff.1 ht
    exact ⟨hpass.semaDown hl (hfit hpc), fun c hc => by cases hc⟩
  case h_2 c hpc =>
    cases ht
    rw [room, hpc] at hpass
    by_cases hloop : c < uartTxbuf ∧ ¬ RbEmpty s.line.rb
    · rw [if_pos hloop]
      exact ⟨hpass, fun c' hc' => by cases hc'; exact hloop.1⟩
    · rw [if_neg hloop]
      exact ⟨hpass.exit hloop, fun c' hc' => by cases hc'⟩
  case h_3 c hpc =>
    cases ht
    rw [room, hpc] at hpass
    exact ⟨hpass.get (hget c hpc) s.txbuf, fun c' hc' => by cases hc'⟩
  case h_4 c hpc =>
    cases ht
    rw [room, hpc] at hpass
    exact ⟨hpass, fun c' hc' => by cases hc'⟩

theorem Inv.step {s t : UartIot} {a : IotStep} (h : s.Inv) (hfit : s.TakeFits a)
    (ht : uartIot.step s a = some t) : t.Inv := by
  cases a with
  | irq flag param2 =>
    cases ht
    cases flag with
    | rxDataAvail => exact ⟨h.1.rxDataAvail, h.2⟩
    | other => exact h
  | timer =>
    obtain ⟨l, hl, rfl⟩ := Option.map_eq_some_iff.1 ht
    exact ⟨h.1.timerCb hl, h.2⟩
  | task => exact h.task (hfit rfl) ht

theorem Inv.not_stranded {s : UartIot} (h : s.Inv) : ¬ s.Stranded := by
  rintro ⟨ht, hs, hpc, hne⟩
  have hpass := h.1
  rw [room, hpc] at hpass
  exact hne (hpass.rbEmpty ht hs)

/-- Every step, in any run, leaves the ring sound. -/
theorem sound_step {s t : UartIot} {a : IotStep} (h : s.line.Sound)
    (ht : uartIot.step s a = some t) : t.line.Sound := by
  cases a with
  | irq flag param2 =>
    cases ht
    cases flag with
    | rxDataAvail => exact h.rxDataAvail
    | other => exact h
  | timer =>
    obtain ⟨l, hl, rfl⟩ := Option.map_eq_some_iff.1 ht
    exact h.of_rb (UartLine.timerCb_eq_some hl).1
  | task =>
    simp only [uartIot, task] at ht
    split at ht
    · obtain ⟨l, hl, rfl⟩ := Option.map_eq_some_iff.1 ht
      exact h.of_rb (UartLine.semaDown_eq_some hl).1
    · cases ht
      exact h
    · cases ht
      exact h.get s.txbuf _
    · cases ht
      exact h

/-- So a pass that starts with more bytes stored than `txbuf` has room for
strands the rest. -/
theorem run_drain {s : UartIot} {xs : List Byte} (hpc : s.pc = .test 0)
    (ht : s.line.timer = false) (hs : s.line.sema = 0) (hh : Holds uartRbsize s.line.rb xs)
    (hlong : uartTxbuf < xs.length) :
    ∃ t, uartIot.run s (List.replicate (2 * uartTxbuf + 2) .task) = some t ∧ t.Stranded := by
  have htest : ∀ c l txbuf, uartIot.step { s with line := l, txbuf, pc := .test c } .task =
      some (if c < uartTxbuf ∧ ¬ RbEmpty l.rb then { s with line := l, txbuf, pc := .get c }
        else { s with line := l, txbuf, pc := .receive c }) := by
    intro c l txbuf
    by_cases hloop : c < uartTxbuf ∧ ¬ RbEmpty l.rb
    · simp only [uartIot, task, if_pos hloop]
    · simp only [uartIot, task, if_neg hloop]
  obtain ⟨rb, txbuf, hrun, hne⟩ :=
    run_pass_leaves htest (fun _ _ _ => rfl) (fun _ _ _ => rfl) hh hlong
  have hstart : { s with line := s.line, txbuf := s.txbuf, pc := .test 0 } = s := by rw [← hpc]
  rw [hstart] at hrun
  exact ⟨_, hrun, ht, hs, rfl, hne⟩

/-- So does a take that finds more than `txbuf` has room for, with no
other post and no timer. -/
theorem run_take {s : UartIot} {xs : List Byte} (hpc : s.pc = .semaDown)
    (ht : s.line.timer = false) (hs : s.line.sema = 1) (hh : Holds uartRbsize s.line.rb xs)
    (hlong : uartTxbuf < xs.length) :
    ∃ t, uartIot.run s (List.replicate (2 * uartTxbuf + 3) .task) = some t ∧ t.Stranded := by
  have htake : uartIot.step s .task =
      some { s with line := { s.line with sema := 0 }, pc := .test 0 } := by
    simp [uartIot, task, hpc, UartLine.semaDown, hs]
  rw [List.replicate_succ, Machine.run_cons_of_step htake]
  exact run_drain rfl ht rfl hh hlong

/-- A burst of bytes that stays below the high-water mark only fills the
ring and starts the timer. -/
theorem run_burst {j : ℕ} {s : UartIot} {xs : List Byte} {p : BitVec 32}
    (hh : Holds uartRbsize s.line.rb xs) (hj : xs.length + j ≤ uartRbsize - 32) (hpos : 0 < j) :
    ∃ l, uartIot.run s (List.replicate j (.irq .rxDataAvail p)) = some { s with line := l } ∧
      l.timer = true ∧ l.sema = s.line.sema ∧
      Holds uartRbsize l.rb (xs ++ List.replicate j (p.setWidth 8)) := by
  induction j generalizing s xs with
  | zero => omega
  | succ j ih =>
    have hfull : ¬ RbFull s.line.rb := by
      rw [hh.rbFull_iff]
      unfold uartRbsize at hj ⊢
      omega
    have hlow : ¬ rbCount s.line.rb > uartRbsize - 32 := by
      rw [hh.rbCount_eq]
      unfold uartRbsize at hj ⊢
      omega
    have hset : Holds uartRbsize (rbSet s.line.rb (p.setWidth 8)) (xs ++ [p.setWidth 8]) := by
      simpa [hfull] using hh.rbSet_eq (p.setWidth 8)
    have hline : s.line.rxDataAvail (p.setWidth 8) =
        ⟨rbSet s.line.rb (p.setWidth 8), s.line.sema, true⟩ := by
      simp [UartLine.rxDataAvail, UartLine.timerStop, UartLine.timerStart, hlow]
    rw [List.replicate_succ, Machine.run_cons_of_step rfl]
    simp only [irqHdl, hline]
    rcases Nat.eq_zero_or_pos j with rfl | hj0
    · exact ⟨_, rfl, rfl, rfl, by simpa using hset⟩
    · obtain ⟨l, hrun, ht, hs, hl⟩ :=
        ih (s := { s with line := ⟨rbSet s.line.rb (p.setWidth 8), s.line.sema, true⟩ }) hset
          (by simp only [List.length_append, List.length_singleton]; omega) hj0
      refine ⟨l, hrun, ht, hs, ?_⟩
      rwa [List.append_assoc, List.singleton_append, ← List.replicate_succ] at hl

end UartIot

/-! ## `uart_p2p`

The task sends a waiting buffer to the UART first, and `uart_p2p_recv`
posts the semaphore too; neither touches the ring. -/

namespace UartP2p

/-- **Stranded**: bytes stored, and nobody to fetch them. -/
def Stranded (s : UartP2p) : Prop :=
  s.line.timer = false ∧ s.line.sema = 0 ∧ s.pc = .semaDown ∧ ¬ RbEmpty s.line.rb

/-- A step that takes the semaphore takes it for a pass that fits. -/
def TakeFits (s : UartP2p) (a : P2pStep) : Prop :=
  a = .task → s.pc = .semaDown → s.line.TakeFits

/-- The room left in `txbuf` where the task stands. -/
def room (s : UartP2p) : ℕ :=
  match s.pc with
  | .semaDown => 0
  | .rxData => uartTxbuf
  | .test c => uartTxbuf - c
  | .get c => uartTxbuf - c
  | .send _ => 0

/-- The invariant of the good runs. -/
def Inv (s : UartP2p) : Prop :=
  s.line.Pass s.room ∧ ∀ c, s.pc = .get c → c < uartTxbuf

theorem inv_init {rb : Rbuffer Byte} (h : uartRbsize ≤ rb.rbq.length) (txbuf : List Byte) :
    (init rb txbuf).Inv := by
  refine ⟨⟨UartLine.sound_init h, Or.inr (Or.inr ?_)⟩, fun c hc => by cases hc⟩
  rw [init, UartLine.init, (holds_rbInit (by decide) h).rbCount_eq]
  rfl

@[simp] theorem rxOne_line {s : UartP2p} : s.rxOne.line = s.line := by
  unfold rxOne; split <;> rfl

theorem Inv.task {s t : UartP2p} (h : s.Inv) (hfit : s.pc = .semaDown → s.line.TakeFits)
    (ht : s.task = some t) : t.Inv := by
  obtain ⟨hpass, hget⟩ := h
  unfold UartP2p.task at ht
  split at ht
  case h_1 hpc =>
    obtain ⟨l, hl, rfl⟩ := Option.map_eq_some_iff.1 ht
    exact ⟨hpass.semaDown hl (hfit hpc), fun c hc => by cases hc⟩
  case h_2 hpc =>
    cases ht
    rw [room, hpc] at hpass
    refine ⟨?_, fun c hc => by cases hc⟩
    show s.rxOne.line.Pass (uartTxbuf - 0)
    rw [rxOne_line]
    exact hpass
  case h_3 c hpc =>
    cases ht
    rw [room, hpc] at hpass
    by_cases hloop : c < uartTxbuf ∧ ¬ RbEmpty s.line.rb
    · rw [if_pos hloop]
      exact ⟨hpass, fun c' hc' => by cases hc'; exact hloop.1⟩
    · rw [if_neg hloop]
      exact ⟨hpass.exit hloop, fun c' hc' => by cases hc'⟩
  case h_4 c hpc =>
    cases ht
    rw [room, hpc] at hpass
    exact ⟨hpass.get (hget c hpc) s.txbuf, fun c' hc' => by cases hc'⟩
  case h_5 c hpc =>
    cases ht
    rw [room, hpc] at hpass
    exact ⟨hpass, fun c' hc' => by cases hc'⟩

theorem Inv.step {s t : UartP2p} {a : P2pStep} (h : s.Inv) (hfit : s.TakeFits a)
    (ht : uartP2p.step s a = some t) : t.Inv := by
  cases a with
  | irq flag param2 =>
    cases ht
    unfold irqHdl
    split_ifs
    · cases flag with
      | rxDataAvail => exact ⟨h.1.rxDataAvail, h.2⟩
      | other => exact h
    · exact h
  | timer =>
    obtain ⟨l, hl, rfl⟩ := Option.map_eq_some_iff.1 ht
    exact ⟨h.1.timerCb hl, h.2⟩
  | task => exact h.task (hfit rfl) ht
  | attach =>
    cases ht
    exact h
  | recv data alloc =>
    cases ht
    unfold recv
    split_ifs
    · exact ⟨h.1.semaUp, h.2⟩
    · exact h

theorem Inv.not_stranded {s : UartP2p} (h : s.Inv) : ¬ s.Stranded := by
  rintro ⟨ht, hs, hpc, hne⟩
  have hpass := h.1
  rw [room, hpc] at hpass
  exact hne (hpass.rbEmpty ht hs)

/-- Every step, in any run, leaves the ring sound. -/
theorem sound_step {s t : UartP2p} {a : P2pStep} (h : s.line.Sound)
    (ht : uartP2p.step s a = some t) : t.line.Sound := by
  cases a with
  | irq flag param2 =>
    cases ht
    unfold irqHdl
    split_ifs
    · cases flag with
      | rxDataAvail => exact h.rxDataAvail
      | other => exact h
    · exact h
  | timer =>
    obtain ⟨l, hl, rfl⟩ := Option.map_eq_some_iff.1 ht
    exact h.of_rb (UartLine.timerCb_eq_some hl).1
  | task =>
    simp only [uartP2p, task] at ht
    split at ht
    · obtain ⟨l, hl, rfl⟩ := Option.map_eq_some_iff.1 ht
      exact h.of_rb (UartLine.semaDown_eq_some hl).1
    · cases ht
      exact h.of_rb (by rw [rxOne_line])
    · cases ht
      exact h
    · cases ht
      exact h.get s.txbuf _
    · cases ht
      exact h
  | attach =>
    cases ht
    exact h
  | recv data alloc =>
    cases ht
    unfold recv
    split_ifs
    · exact h.of_rb UartLine.semaUp_rb
    · exact h

/-- A pass over more than it has room for strands the rest, as in
`UartIot.run_drain`. -/
theorem run_drain {s : UartP2p} {xs : List Byte} (hpc : s.pc = .test 0)
    (ht : s.line.timer = false) (hs : s.line.sema = 0) (hh : Holds uartRbsize s.line.rb xs)
    (hlong : uartTxbuf < xs.length) :
    ∃ t, uartP2p.run s (List.replicate (2 * uartTxbuf + 2) .task) = some t ∧ t.Stranded := by
  have htest : ∀ c l txbuf, uartP2p.step { s with line := l, txbuf, pc := .test c } .task =
      some (if c < uartTxbuf ∧ ¬ RbEmpty l.rb then { s with line := l, txbuf, pc := .get c }
        else { s with line := l, txbuf, pc := .send c }) := by
    intro c l txbuf
    by_cases hloop : c < uartTxbuf ∧ ¬ RbEmpty l.rb
    · simp only [uartP2p, task, if_pos hloop]
    · simp only [uartP2p, task, if_neg hloop]
  obtain ⟨rb, txbuf, hrun, hne⟩ :=
    run_pass_leaves htest (fun _ _ _ => rfl) (fun _ _ _ => rfl) hh hlong
  have hstart : { s with line := s.line, txbuf := s.txbuf, pc := .test 0 } = s := by rw [← hpc]
  rw [hstart] at hrun
  exact ⟨_, hrun, ht, hs, rfl, hne⟩

/-- So does a take that finds more than `txbuf` has room for. -/
theorem run_take {s : UartP2p} {xs : List Byte} (hpc : s.pc = .semaDown)
    (ht : s.line.timer = false) (hs : s.line.sema = 1) (hh : Holds uartRbsize s.line.rb xs)
    (hlong : uartTxbuf < xs.length) :
    ∃ t, uartP2p.run s (List.replicate (2 * uartTxbuf + 4) .task) = some t ∧ t.Stranded := by
  have htake : uartP2p.step s .task =
      some { s with line := { s.line with sema := 0 }, pc := .rxData } := by
    simp [uartP2p, task, hpc, UartLine.semaDown, hs]
  rw [List.replicate_succ, List.replicate_succ, Machine.run_cons_of_step htake,
    Machine.run_cons_of_step rfl]
  exact run_drain rfl (by simpa using ht) (by simp) (by simpa using hh) hlong

end UartP2p

/-! ## Both paths -/

/-- A take that is enabled and does not fit takes the only post there
is, of more bytes than `txbuf` has room for. -/
theorem UartLine.Sound.of_not_takeFits (h : l.Sound) (hfit : ¬ l.TakeFits) (hs : l.sema ≠ 0) :
    l.timer = false ∧ l.sema = 1 ∧ ∃ xs, Holds uartRbsize l.rb xs ∧ uartTxbuf < xs.length := by
  obtain ⟨ht, hs1, hlong⟩ := UartLine.not_takeFits hfit
  obtain ⟨xs, hh⟩ := h
  rw [hh.rbCount_eq] at hlong
  exact ⟨ht, by omega, xs, hh, by omega⟩

section Both

variable {rb : Rbuffer Byte} {txbuf : List Byte}

/-- **When nothing is stranded, on either path.** In a run every take of
which fits — it leaves a post, or finds the timer running, or finds at
most `uartTxbuf` bytes — no state strands data. And the condition is
exact: a take that does not fit can be followed by a run of the task
alone that does. -/
theorem uart_not_stranded_of_takeFits (hslots : uartRbsize ≤ rb.rbq.length) :
    (∀ as s, uartIot.Along UartIot.TakeFits (UartIot.init rb txbuf) as →
      uartIot.run (UartIot.init rb txbuf) as = some s → ¬ s.Stranded) ∧
    (∀ as s, uartP2p.Along UartP2p.TakeFits (UartP2p.init rb txbuf) as →
      uartP2p.run (UartP2p.init rb txbuf) as = some s → ¬ s.Stranded) ∧
    (∀ as s, uartIot.run (UartIot.init rb txbuf) as = some s → s.pc = .semaDown →
      s.line.sema ≠ 0 → ¬ s.line.TakeFits →
      ∃ bs t, uartIot.run s bs = some t ∧ t.Stranded) ∧
    (∀ as s, uartP2p.run (UartP2p.init rb txbuf) as = some s → s.pc = .semaDown →
      s.line.sema ≠ 0 → ¬ s.line.TakeFits →
      ∃ bs t, uartP2p.run s bs = some t ∧ t.Stranded) := by
  refine ⟨fun as s hfit hrun => ?_, fun as s hfit hrun => ?_, fun as s hrun hpc hs hno => ?_,
    fun as s hrun hpc hs hno => ?_⟩
  · exact (Machine.inv_of_run (fun _ _ _ h hf ht => h.step hf ht)
      (UartIot.inv_init hslots txbuf) hfit hrun).not_stranded
  · exact (Machine.inv_of_run (fun _ _ _ h hf ht => h.step hf ht)
      (UartP2p.inv_init hslots txbuf) hfit hrun).not_stranded
  · have hsound : s.line.Sound :=
      Machine.inv_of_run_of_step (I := fun s : UartIot => s.line.Sound)
        (fun _ _ _ h ht => UartIot.sound_step h ht) (UartLine.sound_init hslots) hrun
    obtain ⟨ht, hs1, xs, hh, hlong⟩ := hsound.of_not_takeFits hno hs
    exact ⟨_, UartIot.run_take hpc ht hs1 hh hlong⟩
  · have hsound : s.line.Sound :=
      Machine.inv_of_run_of_step (I := fun s : UartP2p => s.line.Sound)
        (fun _ _ _ h ht => UartP2p.sound_step h ht) (UartLine.sound_init hslots) hrun
    obtain ⟨ht, hs1, xs, hh, hlong⟩ := hsound.of_not_takeFits hno hs
    exact ⟨_, UartP2p.run_take hpc ht hs1 hh hlong⟩

end Both

/-- The ring of the examples below, before `RB_INIT`: 2049 zero slots. -/
def blankRing : Rbuffer Byte := ⟨0, 0, 0, List.replicate 2049 0⟩

theorem blankRing_slots : uartRbsize ≤ blankRing.rbq.length := by
  rw [blankRing, List.length_replicate]
  exact Nat.le_succ 2048

/-- A burst of three bytes, the timer, and the pass it starts. -/
def threeBytes : List IotStep :=
  [.irq .rxDataAvail 0x41, .irq .rxDataAvail 0x42, .irq .rxDataAvail 0x43, .timer] ++
    List.replicate 9 .task

theorem uart_not_stranded_three_bytes :
    ∃ s, uartIot.run (UartIot.init blankRing (List.replicate uartTxbuf 0)) threeBytes = some s ∧
      s.received = [[0x41, 0x42, 0x43]] ∧ ¬ s.Stranded := by
  have hfits : uartIot.Along UartIot.TakeFits
      (UartIot.init blankRing (List.replicate uartTxbuf 0)) threeBytes := by
    decide +kernel
  refine ⟨_, rfl, by decide +kernel, ?_⟩
  exact (uart_not_stranded_of_takeFits blankRing_slots).1 _ _ hfits rfl

/-- **A burst of 1501 bytes strands the last one.** They arrive without a
gap, the timer expires once, and the one pass it starts fetches 1500. -/
theorem uart_iot_strands_1501 :
    ∃ s, uartIot.run (UartIot.init blankRing [])
        (List.replicate 1501 (.irq .rxDataAvail 0x41) ++ .timer ::
          List.replicate (2 * uartTxbuf + 3) .task) = some s ∧ s.Stranded := by
  have hinit : Holds uartRbsize (UartIot.init blankRing []).line.rb [] :=
    holds_rbInit (by decide) blankRing_slots
  obtain ⟨l, hrun, ht, hs, hl⟩ := UartIot.run_burst (p := 0x41) hinit (j := 1501)
    (by rw [List.length_nil, uartRbsize]; omega) (by omega)
  have hsema : l.sema = 0 := hs
  have htimer : uartIot.step { UartIot.init blankRing [] with line := l } .timer =
      some { UartIot.init blankRing [] with line := ⟨l.rb, 1, false⟩ } := by
    simp [uartIot, UartLine.timerCb, ht, UartLine.timerStop, UartLine.semaUp, hsema]
  rw [Machine.run_append_of_run hrun, Machine.run_cons_of_step htimer]
  refine UartIot.run_take rfl rfl rfl hl ?_
  rw [List.nil_append, List.length_replicate, uartTxbuf]
  omega

end Hgsdk

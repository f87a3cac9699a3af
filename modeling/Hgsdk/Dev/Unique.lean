import Hgsdk.Dev.Tasks
import Mathlib.Data.List.Count
/-!
# Ids stay unique where registrations of an id do not overlap

The list holds each id once as long as no two tasks are between the
look-up and the insertion of `dev_register` for the same id. Where two
are, both find the id free and both link their object (`overlap_breaks`):
the condition cannot be dropped at any step.
-/

namespace Hgsdk

namespace Dev

variable {T D : Type} [DecidableEq T] [DecidableEq D]

omit [DecidableEq D] in
theorem Holds.unique {s : DevMgr D} {xs ys : List D} (h : Holds s xs) (h' : Holds s ys) :
    xs = ys := by
  have hmap := h.ring.unique h'.ring
  exact List.map_injective_iff.2 (fun _ _ => Node.dev.inj) hmap

/-! ### What a task may rely on -/

/-- What the manager owes a task at each place of its call. -/
def Pc.Ok (mgr : DevMgr D) (xs : List D) : Pc D → Prop
  | .check _ d => d ∉ xs
  | .stamp id d => d ∉ xs ∧ ∀ e ∈ xs, mgr.devId e ≠ id
  | .insert id d => d ∉ xs ∧ (∀ e ∈ xs, mgr.devId e ≠ id) ∧ mgr.devId d = id
  | .remove _ e => e ∈ xs ∨ Cleared mgr e
  | .idle | .lookup _ | .find _ _ => True

/-- No two tasks have the same thing in hand. -/
def Exclusive {α : Type} (f : Pc D → Option α) (pc : T → Pc D) : Prop :=
  ∀ t u a, f (pc t) = some a → f (pc u) = some a → t = u

/-- **The invariant**, with the list the manager holds. -/
structure Inv (s : Sys T D) (xs : List D) : Prop where
  holds : Holds s.mgr xs
  unique : (xs.map s.mgr.devId).Nodup
  ok : ∀ t, (s.pc t).Ok s.mgr xs
  objects : Exclusive Pc.registering s.pc
  ids : Exclusive Pc.pending s.pc
  wins : ∀ id, okSince id s.log ≤ (xs.map s.mgr.devId).count id

variable {s s' : Sys T D} {xs ys : List D} {t : T} {d e : D} {id id' : BitVec 32} {pc : Pc D}
variable {mgr : DevMgr D} {log : List (Event D)}

omit [DecidableEq D] in
/-- A task may take what nobody else has. -/
theorem Exclusive.update {α : Type} {f : Pc D → Option α} {pcs : T → Pc D}
    (h : Exclusive f pcs) (hnew : ∀ a u, f pc = some a → u ≠ t → f (pcs u) ≠ some a) :
    Exclusive f (Function.update pcs t pc) := by
  intro u v a hu hv
  by_cases hut : u = t <;> by_cases hvt : v = t
  · rw [hut, hvt]
  · rw [hut, Function.update_self] at hu
    rw [Function.update_of_ne hvt] at hv
    exact absurd hv (hnew a v hu hvt)
  · rw [hvt, Function.update_self] at hv
    rw [Function.update_of_ne hut] at hu
    exact absurd hu (hnew a u hv hut)
  · rw [Function.update_of_ne hut] at hu
    rw [Function.update_of_ne hvt] at hv
    exact h u v a hu hv

omit [DecidableEq D] [DecidableEq T] in
/-- What a task has in hand already, nobody else has. -/
theorem Exclusive.of_held {α : Type} {f : Pc D → Option α} {pcs : T → Pc D}
    (h : Exclusive f pcs) {a : α} {u : T} (ha : f (pcs t) = some a) (hu : u ≠ t) :
    f (pcs u) ≠ some a :=
  fun hfu => hu (h u t a hfu ha)

omit [DecidableEq D] in
/-- **The step rule.** `t` moves on to `pc`; the others may still rely on
what they relied on, and `t` takes nothing another task has. -/
theorem Inv.next (h : Inv s xs) (hholds : Holds mgr ys) (hunique : (ys.map mgr.devId).Nodup)
    (hothers : ∀ u, u ≠ t → (s.pc u).Ok mgr ys) (hok : pc.Ok mgr ys)
    (hobj : ∀ d u, pc.registering = some d → u ≠ t → (s.pc u).registering ≠ some d)
    (hids : ∀ id u, pc.pending = some id → u ≠ t → (s.pc u).pending ≠ some id)
    (hwins : ∀ id, okSince id log ≤ (ys.map mgr.devId).count id) :
    Inv ⟨mgr, Function.update s.pc t pc, log⟩ ys where
  holds := hholds
  unique := hunique
  ok u := by
    show (Function.update s.pc t pc u).Ok mgr ys
    by_cases hut : u = t
    · rw [hut, Function.update_self]
      exact hok
    · rw [Function.update_of_ne hut]
      exact hothers u hut
  objects := h.objects.update hobj
  ids := h.ids.update hids
  wins := hwins

omit [DecidableEq D] in
/-- `t` moves on without the manager. -/
theorem Inv.goto (h : Inv s xs) (hok : pc.Ok s.mgr xs)
    (hobj : ∀ d u, pc.registering = some d → u ≠ t → (s.pc u).registering ≠ some d)
    (hids : ∀ id u, pc.pending = some id → u ≠ t → (s.pc u).pending ≠ some id) :
    Inv (s.goto t pc) xs :=
  h.next h.holds h.unique (fun u _ => h.ok u) hok hobj hids h.wins

omit [DecidableEq D] in
/-- `t` returns without having changed the manager, and not from a
successful registration. -/
theorem Inv.ret {op : Op D} {r : CInt} (h : Inv s xs)
    (hlog : ∀ id, okSince id (.returned op r :: s.log) = okSince id s.log) :
    Inv (s.ret t op r) xs := by
  refine h.next h.holds h.unique (fun u _ => h.ok u) trivial nofun nofun ?_
  intro id
  rw [hlog]
  exact h.wins id

/-! ### Each step -/

omit [DecidableEq D] in
theorem okSince_refused : okSince id (.returned (.register id' d) (-eExist) :: log) =
    okSince id log := by
  have hne : ¬ (id' = id ∧ -eExist = retOk) := fun h => absurd h.2 (by decide)
  rw [okSince, if_neg hne, Nat.zero_add]

/-- The id is set in an object that is not on the list. -/
theorem Inv.stamp (h : Inv s xs) (hpc : s.pc t = .stamp id d) :
    Inv ({ s with mgr := { s.mgr with devId := Function.update s.mgr.devId d id } }.goto t
      (.insert id d)) xs := by
  have hok := h.ok t
  rw [hpc] at hok
  obtain ⟨hd, hfree⟩ := hok
  have hsame : ∀ e ∈ xs, Function.update s.mgr.devId d id e = s.mgr.devId e := by
    intro e he
    have hed : e ≠ d := fun heq => hd (heq ▸ he)
    exact Function.update_of_ne hed ..
  have hmap : xs.map (Function.update s.mgr.devId d id) = xs.map s.mgr.devId :=
    List.map_congr_left hsame
  have hfrees : ∀ i, (∀ e ∈ xs, s.mgr.devId e ≠ i) →
      ∀ e ∈ xs, Function.update s.mgr.devId d id e ≠ i := by
    intro i hi e he
    rw [hsame e he]
    exact hi e he
  have hreg : (s.pc t).registering = some d := by rw [hpc]; rfl
  have hpend : (s.pc t).pending = some id := by rw [hpc]; rfl
  refine h.next ⟨h.holds.inited, h.holds.ring⟩ (by rw [hmap]; exact h.unique) ?_
    ⟨hd, hfrees id hfree, Function.update_self ..⟩ ?_ ?_ ?_
  · intro u hu
    have hu' := h.ok u
    have hdu := h.objects.of_held hreg hu
    cases hpcu : s.pc u with
    | idle | lookup _ | find _ _ => trivial
    | check i e => rw [hpcu] at hu'; exact hu'
    | stamp i e => rw [hpcu] at hu'; exact ⟨hu'.1, hfrees i hu'.2⟩
    | insert i e =>
      rw [hpcu] at hu' hdu
      have hed : e ≠ d := fun heq => hdu (congrArg some heq)
      exact ⟨hu'.1, hfrees i hu'.2.1, (Function.update_of_ne hed ..).trans hu'.2.2⟩
    | remove _ e => rw [hpcu] at hu'; exact hu'
  · rintro e u ⟨⟩ hu
    exact h.objects.of_held hreg hu
  · rintro i u ⟨⟩ hu
    exact h.ids.of_held hpend hu
  · intro i
    show okSince i s.log ≤ (xs.map (Function.update s.mgr.devId d id)).count i
    rw [hmap]
    exact h.wins i

/-- The object goes on the list, under an id that is still free. -/
theorem Inv.insert (h : Inv s xs) (hpc : s.pc t = .insert id d) :
    ∃ mgr, listAddTail d s.mgr = some ((), mgr) ∧
      Inv ({ s with mgr }.ret t (.register id d) retOk) (xs ++ [d]) := by
  have hok := h.ok t
  rw [hpc] at hok
  obtain ⟨hd, hfree, hid⟩ := hok
  obtain ⟨⟨⟩, mgr, hadd, hholds, hdev, hclear⟩ := ensures_listAddTail h.holds hd
  have hmap : (xs ++ [d]).map mgr.devId = xs.map s.mgr.devId ++ [id] := by
    rw [hdev, List.map_append, List.map_singleton, hid]
  have hreg : (s.pc t).registering = some d := by rw [hpc]; rfl
  have hpend : (s.pc t).pending = some id := by rw [hpc]; rfl
  refine ⟨mgr, hadd, ?_⟩
  show Inv ⟨mgr, Function.update s.pc t .idle, _⟩ _
  refine h.next hholds ?_ ?_ trivial nofun nofun ?_
  · rw [hmap]
    refine List.nodup_append.2 ⟨h.unique, List.nodup_singleton _, ?_⟩
    rintro i hi j hj rfl
    obtain ⟨e, he, hei⟩ := List.mem_map.1 hi
    exact hfree e he (hei.trans (List.mem_singleton.1 hj))
  · intro u hu
    have hu' := h.ok u
    have hdu := h.objects.of_held hreg hu
    have hiu := h.ids.of_held hpend hu
    -- neither the object nor the id is another task's
    have hnot : ∀ e, some e ≠ some d → e ∉ xs → e ∉ xs ++ [d] := by
      intro e hed he hmem
      rcases List.mem_append.1 hmem with hmem | hmem
      · exact he hmem
      · exact hed (congrArg some (List.mem_singleton.1 hmem))
    have hfrees : ∀ i, some i ≠ some id → (∀ e ∈ xs, s.mgr.devId e ≠ i) →
        ∀ e ∈ xs ++ [d], mgr.devId e ≠ i := by
      intro i hi hxs e he
      rw [hdev]
      rcases List.mem_append.1 he with he | he
      · exact hxs e he
      · rw [List.mem_singleton.1 he, hid]
        exact fun heq => hi (congrArg some heq.symm)
    cases hpcu : s.pc u with
    | idle | lookup _ | find _ _ => trivial
    | check i e =>
      rw [hpcu] at hu' hdu
      exact hnot e hdu hu'
    | stamp i e =>
      rw [hpcu] at hu' hdu hiu
      exact ⟨hnot e hdu hu'.1, hfrees i hiu hu'.2⟩
    | insert i e =>
      rw [hpcu] at hu' hdu hiu
      exact ⟨hnot e hdu hu'.1, hfrees i hiu hu'.2.1, by rw [hdev]; exact hu'.2.2⟩
    | remove _ e =>
      rw [hpcu] at hu'
      by_cases hed : e = d
      · exact .inl (by simp [hed])
      · rcases hu' with he | he
        · exact .inl (List.mem_append_left _ he)
        · exact .inr (hclear e hed he)
  · intro i
    show (if id = i ∧ retOk = retOk then 1 else 0) + okSince i s.log ≤ _
    rw [hmap, List.count_append, List.count_singleton]
    have hwins := h.wins i
    by_cases hi : id = i <;> simp [hi] <;> omega

/-- An object comes off the list. -/
theorem Inv.remove (h : Inv s xs) (t : T) (d : D) (he : e ∈ xs) :
    ∃ mgr, listDel e s.mgr = some ((), mgr) ∧
      Inv ({ s with mgr, log := .removed (s.mgr.devId e) :: s.log }.ret t (.unregister d) retOk)
        (xs.erase e) := by
  obtain ⟨⟨⟩, mgr, hdel, hholds, hdev, hcleared, hclear⟩ := ensures_listDel h.holds he
  have hsub : (xs.erase e).Sublist xs := List.erase_sublist
  refine ⟨mgr, hdel, ?_⟩
  show Inv ⟨mgr, Function.update s.pc t .idle, _⟩ _
  refine h.next hholds ?_ ?_ trivial nofun nofun ?_
  · rw [hdev]
    exact h.unique.sublist (hsub.map _)
  · intro u _
    have hu' := h.ok u
    have hfrees : ∀ i, (∀ f ∈ xs, s.mgr.devId f ≠ i) → ∀ f ∈ xs.erase e, mgr.devId f ≠ i := by
      intro i hxs f hf
      rw [hdev]
      exact hxs f (hsub.subset hf)
    cases hpcu : s.pc u with
    | idle | lookup _ | find _ _ => trivial
    | check i f =>
      rw [hpcu] at hu'
      exact fun hf => hu' (hsub.subset hf)
    | stamp i f =>
      rw [hpcu] at hu'
      exact ⟨fun hf => hu'.1 (hsub.subset hf), hfrees i hu'.2⟩
    | insert i f =>
      rw [hpcu] at hu'
      exact ⟨fun hf => hu'.1 (hsub.subset hf), hfrees i hu'.2.1, by rw [hdev]; exact hu'.2.2⟩
    | remove _ f =>
      rw [hpcu] at hu'
      -- two tasks may be about to take the same object off
      by_cases hfe : f = e
      · exact .inr (hfe ▸ hcleared)
      · rcases hu' with hf | hf
        · exact .inl ((List.mem_erase_of_ne hfe).2 hf)
        · exact .inr (hclear f hf)
  · intro i
    show (if s.mgr.devId e = i then 0 else okSince i s.log) ≤ _
    have hperm : (xs.map s.mgr.devId).Perm (s.mgr.devId e :: (xs.erase e).map s.mgr.devId) :=
      (List.perm_cons_erase he).map _
    have hwins := h.wins i
    rw [hperm.count_eq, List.count_cons] at hwins
    rw [hdev]
    by_cases hi : s.mgr.devId e = i
    · rw [if_pos hi]
      exact Nat.zero_le _
    · rw [if_neg (by simpa using hi)] at hwins
      rw [if_neg hi]
      exact hwins

/-- **One step keeps the invariant**, where a task that looks an id up is
the only one after it. -/
theorem Inv.move (h : Inv s xs) (hone : OneAtATime s (.step t)) (hmove : s.move t = some s') :
    ∃ ys, Inv s' ys := by
  have hget := devGet_eq h.holds
  have hok := h.ok t
  cases hpc : s.pc t with
  | idle => simp [Sys.move, hpc] at hmove
  | check id d =>
    have hreg : (s.pc t).registering = some d := by rw [hpc]; rfl
    rw [hpc] at hok
    cases hfind : xs.find? fun e => s.mgr.devId e == id with
    | some e =>
      rw [Sys.move_check_found hpc (by rw [hget id, hfind])] at hmove
      obtain rfl := Option.some.inj hmove
      exact ⟨xs, h.ret fun _ => okSince_refused⟩
    | none =>
      rw [Sys.move_check_free hpc (by rw [hget id, hfind])] at hmove
      obtain rfl := Option.some.inj hmove
      simp only [OneAtATime, hpc] at hone
      refine ⟨xs, h.goto ⟨hok, find?_devId_eq_none.1 hfind⟩ ?_ ?_⟩
      · rintro e u ⟨⟩ hu
        exact h.objects.of_held hreg hu
      · rintro i u ⟨⟩ -
        exact hone u
  | stamp id d =>
    rw [Sys.move_stamp hpc] at hmove
    obtain rfl := Option.some.inj hmove
    exact ⟨xs, h.stamp hpc⟩
  | insert id d =>
    obtain ⟨mgr, hadd, hinv⟩ := h.insert hpc
    rw [Sys.move_insert hpc hadd] at hmove
    obtain rfl := Option.some.inj hmove
    exact ⟨_, hinv⟩
  | lookup d =>
    rw [Sys.move_lookup hpc] at hmove
    obtain rfl := Option.some.inj hmove
    exact ⟨xs, h.goto trivial (by rintro _ _ ⟨⟩) (by rintro _ _ ⟨⟩)⟩
  | find d id =>
    cases hfind : xs.find? fun e => s.mgr.devId e == id with
    | some e =>
      rw [Sys.move_find_found hpc (by rw [hget id, hfind])] at hmove
      obtain rfl := Option.some.inj hmove
      have hmem := List.mem_of_find?_eq_some hfind
      exact ⟨xs, h.goto (.inl hmem) (by rintro _ _ ⟨⟩) (by rintro _ _ ⟨⟩)⟩
    | none =>
      rw [Sys.move_find_free hpc (by rw [hget id, hfind])] at hmove
      obtain rfl := Option.some.inj hmove
      exact ⟨xs, h.ret fun _ => rfl⟩
  | remove d e =>
    rw [hpc] at hok
    rcases hok with he | he
    · obtain ⟨mgr, hdel, hinv⟩ := h.remove t d he
      rw [Sys.move_remove hpc hdel] at hmove
      obtain rfl := Option.some.inj hmove
      exact ⟨_, hinv⟩
    · -- another task was faster: the second `list_del` faults
      rw [Sys.move_remove_fault hpc (listDel_of_cleared he)] at hmove
      cases hmove

theorem Inv.call {op : Op D} (h : Inv s xs) (hdist : DistinctObjects s (.call t op))
    (hstep : tasks.step s (.call t op) = some s') : Inv s' xs := by
  cases hpc : s.pc t with
  | idle =>
    rw [Sys.step_call hpc h.holds.inited] at hstep
    obtain rfl := Option.some.inj hstep
    cases op with
    | register id d =>
      refine h.goto (hdist.2 xs h.holds) ?_ nofun
      rintro e u ⟨⟩ -
      exact hdist.1 u
    | unregister d => exact h.goto trivial nofun nofun
  | check _ _ | stamp _ _ | insert _ _ | lookup _ | find _ _ | remove _ _ =>
    simp [tasks, hpc] at hstep

theorem Inv.step {a : Act T D} (h : ∃ xs, Inv s xs) (hdist : DistinctObjects s a)
    (hone : OneAtATime s a) (hstep : tasks.step s a = some s') : ∃ ys, Inv s' ys := by
  obtain ⟨xs, h⟩ := h
  cases a with
  | call t op => exact ⟨xs, h.call hdist hstep⟩
  | step t => exact h.move hone hstep

omit [DecidableEq T] [DecidableEq D] in
theorem inv_start (h : Holds mgr []) : Inv (Sys.start mgr : Sys T D) [] where
  holds := h
  unique := List.nodup_nil
  ok _ := trivial
  objects := nofun
  ids := nofun
  wins _ := Nat.le_refl _

/-! ### What the invariant says -/

omit [DecidableEq T] [DecidableEq D] in
theorem Inv.not_duplicate (h : Inv s xs) : ¬ Duplicate s.mgr := by
  rintro ⟨ys, d, e, hys, hd, he, hne, hid⟩
  obtain rfl := h.holds.unique hys
  exact hne (List.inj_on_of_nodup_map h.unique hd he hid)

omit [DecidableEq T] [DecidableEq D] in
theorem Inv.okSince_le_one (h : Inv s xs) (id : BitVec 32) : okSince id s.log ≤ 1 :=
  (h.wins id).trans (List.nodup_iff_count_le_one.1 h.unique id)

/-! ### What an overlap does -/

/-- The task that comes second links an object under an id that is no
longer free. -/
theorem insert_taken (hpc : s.pc t = .insert id e) (hholds : Holds s.mgr xs) (hd : d ∈ xs)
    (he : e ∉ xs) (hid : s.mgr.devId d = id) (hide : s.mgr.devId e = id) :
    ∃ s', s.move t = some s' ∧ Duplicate s'.mgr ∧
      s'.log = .returned (.register id e) retOk :: s.log := by
  obtain ⟨⟨⟩, mgr, hadd, hmgr, hdev, -⟩ := ensures_listAddTail hholds he
  refine ⟨_, Sys.move_insert hpc hadd, ⟨_, d, e, hmgr, ?_, ?_, ?_, ?_⟩, rfl⟩
  · exact List.mem_append_left _ hd
  · exact List.mem_append_right _ List.mem_cons_self
  · exact fun heq => he (heq ▸ hd)
  · show mgr.devId d = mgr.devId e
    rw [hdev, hid, hide]

/-- The other task has still to link its object when `t` starts: `t` runs
through its call, and then the other links its object too. -/
theorem overlap_insert {u : T} (h : Inv s xs) (hpc : s.pc t = .check id d)
    (hpcu : s.pc u = .insert id e) :
    ∃ n s', tasks.run s (List.replicate n (.step t) ++ [.step u]) = some s' ∧
      Duplicate s'.mgr ∧ 2 ≤ okSince id s'.log := by
  have hd := h.ok t
  have he := h.ok u
  have hobj := h.objects u t
  rw [hpc] at hd hobj
  rw [hpcu] at he hobj
  have hut : u ≠ t := by
    rintro rfl
    rw [hpc] at hpcu
    exact nomatch hpcu
  have hed : e ≠ d := fun heq => hut (hobj d (congrArg some heq) rfl)
  obtain ⟨r, mgr, hcall, rfl, hmgr, hdev⟩ := ensures_devRegister_last h.holds he.2.1 hd
  obtain ⟨n, hrun⟩ := Sys.solo_register hpc h.holds.inited hcall
  have hpcu' : Function.update s.pc t .idle u = .insert id e :=
    (Function.update_of_ne hut ..).trans hpcu
  have hmem : e ∉ xs ++ [d] := by simp [he.1, hed]
  have hid : mgr.devId d = id := by rw [hdev, Function.update_self]
  have hide : mgr.devId e = id := by rw [hdev, Function.update_of_ne hed, he.2.2]
  obtain ⟨s', hmove, hdup, hlog⟩ := insert_taken (s := { s with mgr }.ret t (.register id d) retOk)
    hpcu' hmgr (List.mem_append_right _ List.mem_cons_self) hmem hid hide
  refine ⟨n, s', ?_, hdup, ?_⟩
  · rw [Machine.run_append_of_run hrun]
    exact Machine.run_cons_of_step hmove
  · have htwo : okSince id s'.log = 1 + (1 + okSince id s.log) := by
      rw [hlog]
      simp [Sys.ret, Sys.goto, okSince]
    omega

/-- **An overlap can go wrong.** Where a task looks an id up while another
is between its look-up and its insertion for the same id, both can return
`RET_OK` and both objects are on the list. -/
theorem overlap_breaks {u : T} (h : Inv s xs) (hpc : s.pc t = .check id d)
    (hpend : (s.pc u).pending = some id) :
    ∃ more s', tasks.run s more = some s' ∧ tasks.Along DistinctObjects s more ∧
      Duplicate s'.mgr ∧ 2 ≤ okSince id s'.log := by
  have hsteps : ∀ n, ∀ a ∈ List.replicate n (Act.step t : Act T D) ++ [.step u],
      ∀ s, DistinctObjects s a := by
    intro n a ha s
    rcases List.mem_append.1 ha with ha | ha
    · rw [List.eq_of_mem_replicate ha]
      trivial
    · rw [List.mem_singleton.1 ha]
      trivial
  cases hpcu : s.pc u with
  | idle | check _ _ | lookup _ | find _ _ | remove _ _ =>
    rw [hpcu] at hpend
    exact nomatch hpend
  | insert i e =>
    rw [hpcu] at hpend
    obtain rfl : i = id := Option.some.inj hpend
    obtain ⟨n, s', hrun, hdup, htwo⟩ := overlap_insert h hpc hpcu
    exact ⟨_, s', hrun, Machine.along_of_forall_mem (hsteps n), hdup, htwo⟩
  | stamp i e =>
    rw [hpcu] at hpend
    obtain rfl : i = id := Option.some.inj hpend
    have htu : t ≠ u := by
      rintro rfl
      rw [hpc] at hpcu
      exact nomatch hpcu
    -- the other sets its object's id first
    have hmove : tasks.step s (.step u) = some _ := Sys.move_stamp hpcu
    have hpct : (Function.update s.pc u (.insert i e)) t = .check i d :=
      (Function.update_of_ne htu ..).trans hpc
    obtain ⟨n, s', hrun, hdup, htwo⟩ := overlap_insert (h.stamp hpcu) hpct (Function.update_self ..)
    refine ⟨_, s', (Machine.run_cons_of_step hmove).trans hrun, ?_, hdup, htwo⟩
    exact ⟨trivial, fun _ _ => Machine.along_of_forall_mem (hsteps n)⟩

/-- **Ids stay unique where registrations of an id do not overlap.** After
`dev_init`, for tasks that register distinct objects: along a run in which
no task looks an id up for registration while another is between its
look-up and its insertion for that id, the list is well formed and holds
no two objects with the same id, and of the registrations under an id
since it was last given up at most one has returned `RET_OK`. The
condition is needed at every step: from any such state, a look-up that
does not meet it leads on to two objects with the same id and two
successful registrations. -/
theorem dev_ids_unique (s₀ : DevMgr D) :
    Ensures devInit s₀ fun ret mgr => ret = retOk ∧
      ∀ (acts : List (Act T D)) (s : Sys T D),
        tasks.Along DistinctObjects (Sys.start mgr) acts →
        tasks.Along OneAtATime (Sys.start mgr) acts →
        tasks.run (Sys.start mgr) acts = some s →
          ((∃ xs, Holds s.mgr xs) ∧ ¬ Duplicate s.mgr ∧ ∀ id, okSince id s.log ≤ 1) ∧
          ∀ t, ¬ OneAtATime s (.step t) →
            ∃ more s', tasks.run s more = some s' ∧ tasks.Along DistinctObjects s more ∧
              Duplicate s'.mgr ∧ ∃ id, 2 ≤ okSince id s'.log := by
  refine (ensures_devInit s₀).mono ?_
  rintro ret mgr ⟨hret, hmgr, -⟩
  refine ⟨hret, fun acts s hdist hone hrun => ?_⟩
  have hinv : ∃ xs, Inv s xs := by
    refine Machine.inv_of_run (I := fun s => ∃ xs, Inv s xs) ?_ ⟨[], inv_start hmgr⟩
      (hdist.and hone) hrun
    intro s a s' hs hcond hstep
    exact Inv.step hs hcond.1 hcond.2 hstep
  obtain ⟨xs, hinv⟩ := hinv
  refine ⟨⟨⟨xs, hinv.holds⟩, hinv.not_duplicate, hinv.okSince_le_one⟩, fun t ht => ?_⟩
  cases hpc : s.pc t with
  | check id d =>
    simp only [OneAtATime, hpc, ne_eq, not_forall, not_not] at ht
    obtain ⟨u, hu⟩ := ht
    obtain ⟨more, s', hmore, hdist', hdup, htwo⟩ := overlap_breaks hinv hpc hu
    exact ⟨more, s', hmore, hdist', hdup, id, htwo⟩
  | idle | stamp _ _ | insert _ _ | lookup _ | find _ _ | remove _ _ =>
    simp [OneAtATime, hpc] at ht

/-! ### Two tasks -/

/-- Two tasks register an object each, look-up after look-up and insertion
after insertion. -/
def twoTasks (i j : BitVec 32) : List (Act Bool Bool) :=
  [.call false (.register i false), .call true (.register j true), .step false, .step true,
    .step false, .step true, .step false, .step true]

/-- The manager after `dev_init` on two objects. -/
def fresh : DevMgr Bool :=
  { blank with
    links := (blank.links.setNext .head (some .head)).setPrev .head (some .head)
    inited := true }

theorem holds_fresh : Holds fresh [] := ⟨rfl, by simp, rfl, rfl⟩

/-- Both tasks are about to look their ids up. -/
def twoChecks (i j : BitVec 32) : Sys Bool Bool :=
  ((Sys.start fresh).goto false (.check i false)).goto true (.check j true)

/-- Both have found them free. -/
def twoFree (i j : BitVec 32) : Sys Bool Bool :=
  ((twoChecks i j).goto false (.stamp i false)).goto true (.stamp j true)

theorem move_twoChecks (i j : BitVec 32) :
    (twoChecks i j).move false = some ((twoChecks i j).goto false (.stamp i false)) :=
  Sys.move_check_free rfl (devGet_eq holds_fresh i)

theorem move_twoChecks_stamp (i j : BitVec 32) :
    ((twoChecks i j).goto false (.stamp i false)).move true = some (twoFree i j) :=
  Sys.move_check_free rfl (devGet_eq holds_fresh j)

theorem run_twoTasks (i j : BitVec 32) :
    tasks.run (Sys.start fresh) (twoTasks i j) =
      tasks.run (twoFree i j) [.step false, .step true, .step false, .step true] := by
  rw [twoTasks, Machine.run_cons_of_step (show _ = some _ from rfl),
    Machine.run_cons_of_step (show _ = some (twoChecks i j) from rfl),
    Machine.run_cons_of_step (move_twoChecks i j),
    Machine.run_cons_of_step (move_twoChecks_stamp i j)]

/-- Both calls return `RET_OK`, whatever the ids. -/
theorem exists_run_twoTasks (i j : BitVec 32) :
    ∃ s, tasks.run (Sys.start fresh) (twoTasks i j) = some s ∧ Holds s.mgr [false, true] ∧
      s.mgr.devId false = i ∧ s.mgr.devId true = j ∧
      s.log = [.returned (.register j true) retOk, .returned (.register i false) retOk] := by
  refine ⟨_, (run_twoTasks i j).trans rfl, ⟨rfl, by simp, ?_⟩, rfl, rfl, rfl⟩
  exact ⟨⟨rfl, rfl⟩, ⟨rfl, rfl⟩, rfl, rfl⟩

theorem twoTasks_distinct (i j : BitVec 32) :
    tasks.Along DistinctObjects (Sys.start fresh) (twoTasks i j) := by
  have hempty : ∀ d xs, Holds fresh xs → d ∉ xs := by
    intro d xs hxs
    rw [hxs.unique holds_fresh]
    exact List.not_mem_nil
  have hother : ∀ u, (((Sys.start fresh).goto false (.check i false)).pc u).registering ≠
      some true := by
    intro u
    cases u <;> simp [Sys.goto, Sys.start, Pc.registering]
  refine (Machine.along_cons_of_step rfl).2 ⟨⟨fun _ => (by rintro ⟨⟩), hempty _⟩, ?_⟩
  refine (Machine.along_cons_of_step rfl).2 ⟨⟨hother, hempty _⟩, ?_⟩
  refine Machine.along_of_forall_mem ?_
  intro a ha s
  cases a with
  | call t op => simp at ha
  | step t => trivial

/-- **Two tasks get the same id**: both look id 7 up before either links
its object, both calls return `RET_OK`, and the list holds two objects
with id 7. -/
theorem dev_ids_duplicate :
    ∃ s, devInit blank = some (retOk, fresh) ∧
      tasks.Along DistinctObjects (Sys.start fresh) (twoTasks 7 7) ∧
      tasks.run (Sys.start fresh) (twoTasks 7 7) = some s ∧
      Duplicate s.mgr ∧ okSince 7 s.log = 2 := by
  obtain ⟨s, hrun, hholds, hf, ht, hlog⟩ := exists_run_twoTasks 7 7
  refine ⟨s, rfl, twoTasks_distinct 7 7, hrun, ?_, ?_⟩
  · exact ⟨_, false, true, hholds, by simp, by simp, Bool.false_ne_true, hf.trans ht.symm⟩
  · rw [hlog]
    decide

/-- With different ids the two calls may overlap: the run meets the
condition, and the ids are unique at its end. -/
theorem dev_ids_unique_two_tasks :
    ∃ s, tasks.run (Sys.start fresh) (twoTasks 1 2) = some s ∧ Holds s.mgr [false, true] ∧
      ¬ Duplicate s.mgr ∧ okSince 1 s.log ≤ 1 ∧ okSince 2 s.log ≤ 1 := by
  obtain ⟨s, hrun, hholds, -⟩ := exists_run_twoTasks 1 2
  have hfirst : ∀ u, ((twoChecks 1 2).pc u).pending ≠ some 1 := by decide
  have hsecond : ∀ u, (((twoChecks 1 2).goto false (.stamp 1 false)).pc u).pending ≠ some 2 := by
    decide
  have hone : tasks.Along OneAtATime (Sys.start fresh) (twoTasks 1 2) := by
    refine (Machine.along_cons_of_step rfl).2 ⟨trivial, ?_⟩
    refine (Machine.along_cons_of_step rfl).2 ⟨trivial, ?_⟩
    refine (Machine.along_cons_of_step (move_twoChecks 1 2)).2 ⟨hfirst, ?_⟩
    refine (Machine.along_cons_of_step (move_twoChecks_stamp 1 2)).2 ⟨hsecond, ?_⟩
    refine (Machine.along_cons_of_step rfl).2 ⟨trivial, ?_⟩
    refine (Machine.along_cons_of_step rfl).2 ⟨trivial, ?_⟩
    refine (Machine.along_cons_of_step rfl).2 ⟨trivial, ?_⟩
    exact (Machine.along_cons_of_step rfl).2 ⟨trivial, Machine.along_nil _⟩
  have hunique := ((dev_ids_unique blank).of_eq rfl).2 _ s (twoTasks_distinct 1 2) hone hrun
  exact ⟨s, hrun, hholds, hunique.1.2.1, hunique.1.2.2 1, hunique.1.2.2 2⟩

end Dev

end Hgsdk

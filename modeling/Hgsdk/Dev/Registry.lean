import Hgsdk.Common.Machine
import Hgsdk.Dev.Model
/-!
# The registry the device manager is for

A registry is a map from ids to objects. The manager represents one when
its list is a ring that holds every registered object once and `dev_get`
answers as the map does (`Represents`). What each command does to the
list is stated by the list of its objects (`Holds`); the registry's own
operations are stated on the map.

`dev_register` links an object without asking whether it is linked
already, and `dev_unregister` takes off whatever is found under the
object's id. Both go wrong on particular objects, so the code refines the
registry along exactly those runs whose calls keep to `Proper`.
-/

namespace Hgsdk

namespace Dev

variable {D : Type} [DecidableEq D]

/-! ### The list -/

/-- **The manager is up and its list holds `xs`**, in order. -/
structure Holds (s : DevMgr D) (xs : List D) : Prop where
  inited : s.inited = true
  ring : s.links.IsRing .head (xs.map .dev)

variable {s s' : DevMgr D} {xs : List D} {d e : D} {id : BitVec 32}

omit [DecidableEq D] in
theorem Holds.nodup (h : Holds s xs) : xs.Nodup :=
  (List.nodup_cons.1 h.ring.nodup).2.of_map

omit [DecidableEq D] in
theorem head_notMem_map_dev : Node.head ∉ xs.map Node.dev := by
  simp

/-- The walk of `dev_get` ends and finds the first object with the id. -/
theorem devGet_eq (h : Holds s xs) (id : BitVec 32) :
    devGet id s = some (xs.find? fun d => s.devId d == id, s) := by
  have hscan : s.links.scan .head (hasDevId s.devId id) (s.links.next .head) =
      some ((xs.map Node.dev).find? (hasDevId s.devId id)) :=
    Links.scan_eq_find? h.ring.path head_notMem_map_dev
  have hfind : (xs.map Node.dev).find? (hasDevId s.devId id) =
      (xs.find? fun d => s.devId d == id).map Node.dev := List.find?_map
  have hentry : ∀ o : Option D, (o.map Node.dev).bind listEntry = o := by
    intro o
    cases o <;> rfl
  obtain ⟨a, t, hget, rfl, rfl⟩ : Ensures (devGet id) s fun r t =>
      r = xs.find? (fun d => s.devId d == id) ∧ t = s := by
    simp only [devGet, findDev, ensures_bind, ensures_get, h.inited, Bool.not_true,
      Bool.false_eq_true, if_false, ensures_deref, ensures_pure]
    refine ⟨_, hscan, ?_, trivial⟩
    rw [hfind, hentry]
  exact hget

/-- `dev_init` leaves an empty list, whatever was there before. -/
theorem ensures_devInit (s : DevMgr D) :
    Ensures devInit s fun r t => r = retOk ∧ Holds t [] ∧ t.devId = s.devId := by
  refine ⟨_, _, rfl, rfl, ⟨rfl, ?_⟩, rfl⟩
  exact ⟨by simp, rfl, rfl⟩

/-- **A node `list_del` has cleared.** Deleting it again follows a null
pointer. -/
def Cleared (s : DevMgr D) (d : D) : Prop := s.links.prev (.dev d) = none

/-- Adding an object that is not on the list puts it last. -/
theorem ensures_listAddTail (h : Holds s xs) (hd : d ∉ xs) :
    Ensures (listAddTail d) s fun _ t =>
      Holds t (xs ++ [d]) ∧ t.devId = s.devId ∧ ∀ e, e ≠ d → Cleared s e → Cleared t e := by
  obtain ⟨p, hp, -⟩ := h.ring.path.exists_last
  simp only [listAddTail, ensures_bind, ensures_get, ensures_deref, ensures_set]
  refine ⟨p, hp, ⟨h.inited, ?_⟩, trivial, ?_⟩
  · have hnot : Node.dev d ∉ Node.head :: xs.map Node.dev := by simpa using hd
    have hring := h.ring.insert hnot hp
    rwa [List.map_append]
  · intro e hed he
    have hne : Node.dev e ≠ Node.dev d := fun heq => hed (Node.dev.inj heq)
    have hhead : Node.dev e ≠ Node.head := by rintro ⟨⟩
    show (s.links.insertBetween (.dev d) p .head).prev (.dev e) = none
    rw [Links.insertBetween_prev, Function.update_of_ne hne, Function.update_of_ne hhead]
    exact he

/-- Adding to the list leaves the ids alone. -/
theorem listAddTail_devId {u : Unit} (h : listAddTail d s = some (u, s')) :
    s'.devId = s.devId := by
  have hens : Ensures (listAddTail d) s fun _ t => t = s' := ⟨_, _, h, rfl⟩
  simp only [listAddTail, ensures_bind, ensures_get, ensures_deref, ensures_set] at hens
  obtain ⟨p, -, rfl⟩ := hens
  rfl

/-- Taking an object off the list leaves the others, and its node
cleared. -/
theorem ensures_listDel (h : Holds s xs) (hd : d ∈ xs) :
    Ensures (listDel d) s fun _ t =>
      Holds t (xs.erase d) ∧ t.devId = s.devId ∧ Cleared t d ∧ ∀ e, Cleared s e → Cleared t e := by
  obtain ⟨ys, zs, rfl⟩ := List.append_of_mem hd
  have hring := h.ring
  rw [List.map_append, List.map_cons] at hring
  obtain ⟨p, n, hp, hn⟩ := hring.exists_neighbours
  have hprev : (s.links.unlink (.dev d) p n).prev =
      Function.update (Function.update s.links.prev n (some p)) (.dev d) none :=
    Links.unlink_prev ..
  simp only [listDel, ensures_bind, ensures_get, ensures_deref, ensures_set]
  refine ⟨p, hp, n, hn.1, ⟨h.inited, ?_⟩, trivial, ?_, ?_⟩
  · have hdy : d ∉ ys := fun hmem =>
      (List.nodup_append.1 h.nodup).2.2 d hmem d List.mem_cons_self rfl
    rw [List.erase_append_right _ hdy, List.erase_cons_head, List.map_append]
    exact hring.unlink hp hn.1
  · rw [Cleared, hprev, Function.update_self]
  · intro e he
    rw [Cleared, hprev]
    by_cases hed : Node.dev e = .dev d
    · rw [hed, Function.update_self]
    · -- the node behind `d` points back at it, so it is not a cleared one
      have hen : Node.dev e ≠ n := by
        rintro rfl
        have hback := hn.2
        rw [he] at hback
        cases hback
      rw [Function.update_of_ne hed, Function.update_of_ne hen]
      exact he

/-- Deleting a cleared node faults. -/
theorem listDel_of_cleared (h : Cleared s d) : listDel d s = none := by
  show ((s.links.prev (.dev d)).map fun p => (p, s)).bind _ = none
  rw [h]
  rfl

/-! ### The calls -/

omit [DecidableEq D] in
theorem find?_devId_eq_some {ids : D → BitVec 32}
    (h : xs.find? (fun d => ids d == id) = some e) : e ∈ xs ∧ ids e = id := by
  have htest := List.find?_some h
  exact ⟨List.mem_of_find?_eq_some h, by simpa using htest⟩

omit [DecidableEq D] in
theorem find?_devId_eq_none {ids : D → BitVec 32} :
    xs.find? (fun d => ids d == id) = none ↔ ∀ e ∈ xs, ids e ≠ id := by
  simp

/-- An id that is found is refused. -/
theorem devRegister_of_taken (h : Holds s xs) (htaken : ∃ e ∈ xs, s.devId e = id) :
    devRegister id (some d) s = some (-eExist, s) := by
  obtain ⟨a, t, hcall, rfl, rfl⟩ : Ensures (devRegister id (some d)) s fun r t =>
      r = -eExist ∧ t = s := by
    simp only [devRegister, ensures_bind, ensures_get, h.inited, Bool.not_true,
      Bool.false_eq_true, if_false]
    refine ⟨_, _, devGet_eq h id, ?_⟩
    cases hfind : xs.find? fun d => s.devId d == id with
    | some e => exact ensures_pure.2 ⟨rfl, rfl⟩
    | none =>
      obtain ⟨e, he, heq⟩ := htaken
      exact absurd heq (find?_devId_eq_none.1 hfind e he)
  exact hcall

/-- Under a free id the object is given the id and added to the list,
whether it is there already or not. -/
theorem ensures_devRegister_of_free {Q : CInt → DevMgr D → Prop} (h : Holds s xs)
    (hfree : ∀ e ∈ xs, s.devId e ≠ id) :
    Ensures (devRegister id (some d)) s Q ↔
      Ensures (listAddTail d) { s with devId := Function.update s.devId d id } fun _ t =>
        Q retOk t := by
  have hget := devGet_eq h id
  rw [find?_devId_eq_none.2 hfree] at hget
  have hdev : ∀ R : Option D → DevMgr D → Prop, Ensures (devGet id) s R ↔ R none s := by
    intro R
    exact ⟨fun hR => hR.of_eq hget, fun hR => ⟨_, _, hget, hR⟩⟩
  simp only [devRegister, ensures_bind, ensures_get, h.inited, Bool.not_true, Bool.false_eq_true,
    if_false, hdev, setDevId, ensures_modify, ensures_pure]

/-- A new object under a free id is put last. -/
theorem ensures_devRegister_last (h : Holds s xs) (hfree : ∀ e ∈ xs, s.devId e ≠ id)
    (hd : d ∉ xs) :
    Ensures (devRegister id (some d)) s fun r t =>
      r = retOk ∧ Holds t (xs ++ [d]) ∧ t.devId = Function.update s.devId d id := by
  have hset : Holds { s with devId := Function.update s.devId d id } xs := ⟨h.inited, h.ring⟩
  rw [ensures_devRegister_of_free h hfree]
  refine (ensures_listAddTail hset hd).mono ?_
  rintro ⟨⟩ t ⟨ht, hid, -⟩
  exact ⟨rfl, ht, hid⟩

/-- An object whose id is not found stays off the list. -/
theorem devUnregister_of_free (h : Holds s xs) (hfree : ∀ e ∈ xs, s.devId e ≠ s.devId d) :
    devUnregister (some d) s = some (retOk, s) := by
  obtain ⟨a, t, hcall, rfl, rfl⟩ : Ensures (devUnregister (some d)) s fun r t =>
      r = retOk ∧ t = s := by
    simp only [devUnregister, ensures_bind, ensures_get, h.inited, Bool.not_true,
      Bool.false_eq_true, if_false]
    refine ⟨_, _, devGet_eq h _, ?_⟩
    rw [find?_devId_eq_none.2 hfree]
    exact ensures_pure.2 ⟨rfl, rfl⟩
  exact hcall

/-- What is found under the object's id comes off the list, whether it is
the object or not. -/
theorem ensures_devUnregister_of_found (h : Holds s xs)
    (hfind : xs.find? (fun e => s.devId e == s.devId d) = some e) :
    Ensures (devUnregister (some d)) s fun r t =>
      r = retOk ∧ Holds t (xs.erase e) ∧ t.devId = s.devId := by
  simp only [devUnregister, ensures_bind, ensures_get, h.inited, Bool.not_true,
    Bool.false_eq_true, if_false]
  refine ⟨_, _, devGet_eq h _, ?_⟩
  rw [hfind]
  refine ensures_bind.2 ((ensures_listDel h (List.mem_of_find?_eq_some hfind)).mono ?_)
  rintro ⟨⟩ t ⟨ht, hid, -⟩
  exact ensures_pure.2 ⟨rfl, ht, hid⟩

/-! ### The registry -/

/-- **A registry**: which object is registered under each id. -/
abbrev Registry (D : Type) := BitVec 32 → Option D

/-- What registering is: the id is refused where it is taken. -/
def Registry.register (m : Registry D) (id : BitVec 32) (d : D) : CInt × Registry D :=
  if (m id).isSome then (-eExist, m) else (retOk, Function.update m id (some d))

/-- What unregistering is: the object goes, and no other. -/
def Registry.unregister (m : Registry D) (d : D) : CInt × Registry D :=
  (retOk, fun id => if m id = some d then none else m id)

/-- A call on an object. -/
inductive Op (D : Type) where
  | register (id : BitVec 32) (d : D)
  | unregister (d : D)
  deriving DecidableEq, Repr

/-- The code of a call. -/
def Op.code : Op D → Cmd (DevMgr D) CInt
  | .register id d => devRegister id (some d)
  | .unregister d => devUnregister (some d)

/-- The registry's own operation. -/
def Op.spec : Op D → Registry D → CInt × Registry D
  | .register id d, m => m.register id d
  | .unregister d, m => m.unregister d

/-- **The manager represents a registry**: its list is well formed and
holds every registered object once, and `dev_get` returns and answers as
the registry does. -/
def Represents (s : DevMgr D) (m : Registry D) : Prop :=
  ∃ xs, Holds s xs ∧ (∀ d, d ∈ xs ↔ ∃ id, m id = some d) ∧ ∀ id, devGet id s = some (m id, s)

/-- Calls one after another, on the manager and on the registry. -/
def calls : Machine (DevMgr D × Registry D) (Op D) where
  step p op := (op.code p.1).map fun q => (q.2, (op.spec p.2).2)

/-- **The call refines the registry's operation**: it returns, with the
same result, and still represents the registry. -/
def Refines (p : DevMgr D × Registry D) (op : Op D) : Prop :=
  Ensures op.code p.1 fun r t => r = (op.spec p.2).1 ∧ Represents t (op.spec p.2).2

/-- The calls that go right: an object that is registered is not
registered again under a free id, and an object that is not registered is
not unregistered while its `dev_id` is another's id. -/
def Proper (p : DevMgr D × Registry D) : Op D → Prop
  | .register id d => (p.2 id).isSome ∨ ∀ i, p.2 i ≠ some d
  | .unregister d => (∃ i, p.2 i = some d) ∨ p.2 (p.1.devId d) = none

variable {p : DevMgr D × Registry D} {m : Registry D} {op : Op D}

/-- In a manager that represents a registry, an object is registered under
an id exactly when it is on the list and carries the id. -/
theorem represents_iff :
    Represents s m ↔ ∃ xs, Holds s xs ∧ ∀ i d, m i = some d ↔ d ∈ xs ∧ s.devId d = i := by
  constructor
  · rintro ⟨xs, hs, hmem, hget⟩
    have hfound : ∀ i, m i = xs.find? fun d => s.devId d == i := by
      intro i
      have heq := (hget i).symm.trans (devGet_eq hs i)
      exact (Prod.mk.inj (Option.some.inj heq)).1
    refine ⟨xs, hs, fun i d => ⟨fun hm => ?_, ?_⟩⟩
    · exact find?_devId_eq_some ((hfound i).symm.trans hm)
    · rintro ⟨hd, rfl⟩
      obtain ⟨j, hj⟩ := (hmem d).1 hd
      have hdj := find?_devId_eq_some ((hfound j).symm.trans hj)
      rw [hdj.2]
      exact hj
  · rintro ⟨xs, hs, hm⟩
    refine ⟨xs, hs, fun d => ⟨fun hd => ⟨s.devId d, (hm _ d).2 ⟨hd, rfl⟩⟩, ?_⟩, fun i => ?_⟩
    · rintro ⟨i, hi⟩
      exact ((hm i d).1 hi).1
    · rw [devGet_eq hs i]
      cases hfind : xs.find? fun d => s.devId d == i with
      | some e => rw [(hm i e).2 (find?_devId_eq_some hfind)]
      | none =>
        have hnone : m i = none := by
          refine Option.eq_none_iff_forall_ne_some.2 ?_
          intro d hd
          obtain ⟨hmem, hid⟩ := (hm i d).1 hd
          exact find?_devId_eq_none.1 hfind d hmem hid
        rw [hnone]

omit [DecidableEq D] in
/-- An id nothing is registered under is carried by nothing on the list. -/
theorem devId_ne_of_free (hm : ∀ i d, m i = some d ↔ d ∈ xs ∧ s.devId d = i)
    (hid : m id = none) : ∀ e ∈ xs, s.devId e ≠ id := by
  intro e he heq
  have hsome := (hm id e).2 ⟨he, heq⟩
  rw [hid] at hsome
  exact nomatch hsome

omit [DecidableEq D] in
theorem Registry.register_of_taken (h : m id = some e) : m.register id d = (-eExist, m) := by
  rw [Registry.register, h]
  rfl

omit [DecidableEq D] in
theorem Registry.register_of_free (h : m id = none) :
    m.register id d = (retOk, Function.update m id (some d)) := by
  rw [Registry.register, h]
  rfl

/-- A new object under a free id. -/
theorem ensures_devRegister_new (h : Represents s m) (hid : m id = none)
    (hnew : ∀ i, m i ≠ some d) :
    Ensures (devRegister id (some d)) s fun r t =>
      r = retOk ∧ Represents t (Function.update m id (some d)) := by
  obtain ⟨xs, hs, hm⟩ := represents_iff.1 h
  have hfree := devId_ne_of_free hm hid
  have hd : d ∉ xs := fun hmem => hnew _ ((hm _ d).2 ⟨hmem, rfl⟩)
  refine (ensures_devRegister_last hs hfree hd).mono ?_
  rintro r t ⟨rfl, ht, hdev⟩
  refine ⟨rfl, represents_iff.2 ⟨_, ht, fun i e => ?_⟩⟩
  rw [hdev]
  by_cases hed : e = d
  · subst hed
    by_cases hi : i = id
    · subst hi
      simp
    · simp [Function.update_of_ne hi, hnew i, Ne.symm hi]
  · have hmem : e ∈ xs ++ [d] ↔ e ∈ xs := by simp [hed]
    rw [hmem, Function.update_of_ne hed, ← hm i e]
    by_cases hi : i = id
    · subst hi
      simp [hid, Ne.symm hed]
    · rw [Function.update_of_ne hi]

/-- A registered object under another id loses its first one. -/
theorem not_represents_devRegister_again {r : CInt} {i : BitVec 32} (h : Represents s m)
    (hid : m id = none) (hi : m i = some d)
    (hcall : devRegister id (some d) s = some (r, s')) :
    ¬ Represents s' (Function.update m id (some d)) := by
  obtain ⟨xs, hs, hm⟩ := represents_iff.1 h
  intro hrep
  have hne : i ≠ id := by
    rintro rfl
    rw [hid] at hi
    exact nomatch hi
  have hfree := devId_ne_of_free hm hid
  have hens : Ensures (devRegister id (some d)) s fun _ t => t = s' := ⟨_, _, hcall, rfl⟩
  obtain ⟨_, t, hadd, rfl⟩ := (ensures_devRegister_of_free hs hfree).1 hens
  have hdev : t.devId = Function.update s.devId d id := listAddTail_devId hadd
  obtain ⟨ys, -, hys⟩ := represents_iff.1 hrep
  have hid' := ((hys i d).1 (by rw [Function.update_of_ne hne, hi])).2
  rw [hdev, Function.update_self] at hid'
  exact hne hid'.symm

/-- **Registering an object refines the registry** exactly where the id is
taken or the object is not registered. -/
theorem refines_register_iff (h : Represents s m) :
    Refines (s, m) (.register id d) ↔ (m id).isSome ∨ ∀ i, m i ≠ some d := by
  show Ensures (devRegister id (some d)) s (fun r t =>
    r = (m.register id d).1 ∧ Represents t (m.register id d).2) ↔ _
  cases hid : m id with
  | some e =>
    obtain ⟨xs, hs, hm⟩ := represents_iff.1 h
    rw [Registry.register_of_taken hid]
    exact iff_of_true ⟨_, _, devRegister_of_taken hs ⟨e, (hm id e).1 hid⟩, rfl, h⟩ (.inl rfl)
  | none =>
    rw [Registry.register_of_free hid]
    constructor
    · rintro ⟨r, t, hcall, -, hrep⟩
      refine .inr fun i hi => ?_
      exact not_represents_devRegister_again h hid hi hcall hrep
    · rintro (hbad | hnew)
      · exact nomatch hbad
      · exact ensures_devRegister_new h hid hnew

/-- **Unregistering an object refines the registry** exactly where the
object is registered or nothing is registered under its `dev_id`. -/
theorem refines_unregister_iff (h : Represents s m) :
    Refines (s, m) (.unregister d) ↔ (∃ i, m i = some d) ∨ m (s.devId d) = none := by
  obtain ⟨xs, hs, hm⟩ := represents_iff.1 h
  show Ensures (devUnregister (some d)) s (fun r t =>
    r = retOk ∧ Represents t (m.unregister d).2) ↔ _
  cases hfind : xs.find? fun e => s.devId e == s.devId d with
  | none =>
    -- nothing carries the id, so `d` is not registered and nothing changes
    have hfree := find?_devId_eq_none.1 hfind
    have hd : ∀ i, m i ≠ some d := by
      intro i hi
      exact hfree d ((hm i d).1 hi).1 rfl
    have hsame : (m.unregister d).2 = m := by
      funext i
      exact if_neg (hd i)
    have hnone : m (s.devId d) = none := by
      refine Option.eq_none_iff_forall_ne_some.2 ?_
      intro e he
      obtain ⟨hmem, hid⟩ := (hm _ e).1 he
      exact hfree e hmem hid
    rw [hsame]
    exact iff_of_true ⟨_, _, devUnregister_of_free hs hfree, rfl, h⟩ (.inr hnone)
  | some e =>
    obtain ⟨he, hide⟩ := find?_devId_eq_some hfind
    have hme : m (s.devId d) = some e := (hm _ e).2 ⟨he, hide⟩
    obtain ⟨r, t, hcall, rfl, ht, hdev⟩ := ensures_devUnregister_of_found hs hfind
    have herase : ∀ f, f ∈ xs.erase e ↔ f ≠ e ∧ f ∈ xs := fun f => hs.nodup.mem_erase_iff
    constructor
    · -- `e` is off the list; the registry says so only if it is `d`
      rintro ⟨r', t', hcall', -, hrep⟩
      obtain ⟨-, rfl⟩ := Prod.mk.inj (Option.some.inj (hcall.symm.trans hcall'))
      refine .inl ⟨s.devId d, ?_⟩
      by_contra hne
      have hspec : (m.unregister d).2 (s.devId d) = some e := (if_neg hne).trans hme
      obtain ⟨-, -, -, hget⟩ := hrep
      have heq := (hget (s.devId d)).symm.trans (devGet_eq ht _)
      rw [hspec] at heq
      have hstill := find?_devId_eq_some (Prod.mk.inj (Option.some.inj heq)).1.symm
      exact ((herase e).1 hstill.1).1 rfl
    · rintro (⟨i, hi⟩ | hnone)
      · obtain ⟨hd, rfl⟩ := (hm i d).1 hi
        obtain rfl : d = e := Option.some.inj (hi.symm.trans hme)
        refine ⟨_, _, hcall, rfl, represents_iff.2 ⟨_, ht, fun j f => ?_⟩⟩
        show (if m j = some d then none else m j) = some f ↔ _
        rw [hdev, herase, and_assoc, ← hm j f]
        split
        · rename_i hj
          simp [hj, eq_comm]
        · rename_i hj
          refine ⟨fun hf => ⟨?_, hf⟩, fun hf => hf.2⟩
          rintro rfl
          exact hj hf
      · rw [hme] at hnone
        exact nomatch hnone

theorem refines_iff_proper (h : Represents s m) : Refines (s, m) op ↔ Proper (s, m) op := by
  cases op with
  | register id d => exact refines_register_iff h
  | unregister d => exact refines_unregister_iff h

theorem calls_step {r : CInt} (h : op.code s = some (r, s')) :
    calls.step (s, m) op = some (s', (op.spec m).2) := by
  show (op.code s).map _ = _
  rw [h]
  rfl

/-- One call after another: along a run the calls refine the registry's
operations as long as they are proper, and not one call longer. -/
theorem along_refines_iff (h : Represents p.1 p.2) (ops : List (Op D)) :
    calls.Along Refines p ops ↔ calls.Along Proper p ops := by
  refine Machine.along_iff_of_inv (I := fun p => Represents p.1 p.2)
    (fun p op hp => refines_iff_proper hp) ?_ h
  -- a call that refines leaves a represented registry for the next
  rintro p op q - ⟨r, t, hcall, -, hrep⟩ hstep
  obtain rfl := Option.some.inj ((calls_step hcall).symm.trans hstep)
  exact hrep

/-- The registry after `dev_init`. -/
theorem represents_empty (h : Holds s []) : Represents s fun _ => none :=
  represents_iff.2 ⟨[], h, by simp⟩

/-- **The device manager is a registry**, along exactly the runs of proper
calls: whatever the objects held before `dev_init`, every call returns,
gives the registry's answer and leaves a well-formed list that holds each
registered object once and finds it by its id, if and only if every call
of the run is proper. -/
theorem devRegistry_refines_iff (s : DevMgr D) :
    Ensures devInit s fun r t => r = retOk ∧ ∀ ops : List (Op D),
      (calls.Along Refines (t, fun _ => none) ops ↔
        calls.Along Proper (t, fun _ => none) ops) := by
  refine (ensures_devInit s).mono ?_
  rintro r t ⟨hr, ht, -⟩
  refine ⟨hr, fun ops => ?_⟩
  exact along_refines_iff (represents_empty ht) ops

/-! ### What the improper calls do -/

/-- **Registering the last object again closes the list on itself**: the
call reports success, and from then on looking up an id that nothing in
front of the object carries never returns. -/
theorem devRegister_again_loops (h : Holds s (xs ++ [d]))
    (hfree : ∀ e ∈ xs ++ [d], s.devId e ≠ id) :
    Ensures (devRegister id (some d)) s fun r t => r = retOk ∧
      ∀ j, j ≠ id → (∀ e ∈ xs, s.devId e ≠ j) → devGet j t = none := by
  have hd : d ∉ xs := fun hmem => (List.nodup_append.1 h.nodup).2.2 d hmem d (by simp) rfl
  have hring := h.ring.path
  rw [List.map_append, List.map_cons, List.map_nil, Links.path_append] at hring
  rw [ensures_devRegister_of_free h hfree]
  simp only [listAddTail, ensures_bind, ensures_get, ensures_deref, ensures_set]
  -- the object is its own predecessor, so it becomes its own successor
  refine ⟨.dev d, hring.2.2, trivial, fun j hj hfrees => ?_⟩
  have hself : (s.links.insertBetween (.dev d) (.dev d) .head).next (.dev d) = some (.dev d) := by
    rw [Links.insertBetween_next, Function.update_self]
  have hsame : ∀ y ∈ Node.head :: xs.map Node.dev,
      (s.links.insertBetween (.dev d) (.dev d) .head).next y = s.links.next y := by
    intro y hy
    have hyd : y ≠ .dev d := by
      rintro rfl
      simp [hd] at hy
    rw [Links.insertBetween_next, Function.update_of_ne hyd, Function.update_of_ne hyd]
  have hpass : ∀ y ∈ xs.map Node.dev,
      hasDevId (Function.update s.devId d id) j y = false := by
    intro y hy
    obtain ⟨e, he, rfl⟩ := List.mem_map.1 hy
    have hed : e ≠ d := fun heq => hd (heq ▸ he)
    simp [hasDevId, Function.update_of_ne hed, hfrees e he]
  have hmiss : hasDevId (Function.update s.devId d id) j (.dev d) = false := by
    simp [hasDevId, Ne.symm hj]
  have hscan := Links.scan_along hring.1 hsame head_notMem_map_dev hpass
  have hne : Node.dev d ≠ Node.head := by rintro ⟨⟩
  rw [Links.scan_loop hself hne hmiss] at hscan
  refine Option.eq_none_iff_forall_ne_some.2 ?_
  rintro ⟨r, u⟩ hget
  have hens : Ensures (devGet j) _ fun _ _ => True := ⟨r, u, hget, trivial⟩
  simp only [devGet, findDev, ensures_bind, ensures_get, h.inited, Bool.not_true,
    Bool.false_eq_true, if_false, ensures_deref] at hens
  obtain ⟨pos, hpos, -⟩ := hens
  rw [hscan] at hpos
  cases hpos

/-- **Unregistering an object twice takes off whoever has its id now.** -/
theorem devUnregister_twice_takes_another {a b : D} (hs : Holds s []) (hab : a ≠ b)
    (id : BitVec 32) :
    ∃ q, calls.run (s, fun _ => none)
        [.register id b, .unregister b, .register id a, .unregister b] = some q ∧
      q.2 id = some a ∧ devGet id q.1 = some (none, q.1) := by
  -- `b` comes and goes, and keeps the id in its object
  have hreg₁ : Ensures (Op.register id b).code s _ := ensures_devRegister_last hs nofun nofun
  obtain ⟨r₁, s₁, h₁, -, hs₁, hid₁⟩ := hreg₁
  have hfind₁ : ([b] : List D).find? (fun e => s₁.devId e == s₁.devId b) = some b := by simp
  have hdel₂ : Ensures (Op.unregister b).code s₁ _ := ensures_devUnregister_of_found hs₁ hfind₁
  obtain ⟨r₂, s₂, h₂, -, hs₂, hid₂⟩ := hdel₂
  rw [List.nil_append, List.erase_cons_head] at hs₂
  -- `a` takes the id
  have hreg₃ : Ensures (Op.register id a).code s₂ _ := ensures_devRegister_last hs₂ nofun nofun
  obtain ⟨r₃, s₃, h₃, -, hs₃, hid₃⟩ := hreg₃
  have ha : s₃.devId a = id := by rw [hid₃, Function.update_self]
  have hb : s₃.devId b = id := by
    rw [hid₃, Function.update_of_ne hab.symm, hid₂, hid₁, Function.update_self]
  -- and is what `b`'s object finds
  have hfind₃ : ([a] : List D).find? (fun e => s₃.devId e == s₃.devId b) = some a := by
    simp [ha, hb]
  have hdel₄ : Ensures (Op.unregister b).code s₃ _ := ensures_devUnregister_of_found hs₃ hfind₃
  obtain ⟨r₄, s₄, h₄, -, hs₄, -⟩ := hdel₄
  rw [List.nil_append, List.erase_cons_head] at hs₄
  have hrun : ∀ m : Registry D, calls.run (s, m)
      [.register id b, .unregister b, .register id a, .unregister b] =
        some (s₄, (((((m.register id b).2.unregister b).2.register id a).2).unregister b).2) := by
    intro m
    rw [Machine.run_cons_of_step (calls_step h₁), Machine.run_cons_of_step (calls_step h₂),
      Machine.run_cons_of_step (calls_step h₃), Machine.run_cons_of_step (calls_step h₄)]
    rfl
  refine ⟨_, hrun _, ?_, devGet_eq hs₄ id⟩
  simp [Registry.register, Registry.unregister, hab]

/-- Two objects, and a manager that is not up yet. -/
def blank : DevMgr Bool where
  links := ⟨fun _ => none, fun _ => none⟩
  devId _ := 0
  inited := false

/-- **A second `dev_unregister` loses another driver's device**: the first
object had id 1 and was unregistered, the second has it now, and
unregistering the first again takes the second off the list. -/
theorem devUnregister_twice_loses :
    ∃ t q, devInit blank = some (retOk, t) ∧
      calls.run (t, fun _ => none)
        [.register 1 true, .unregister true, .register 1 false, .unregister true] = some q ∧
      q.2 1 = some false ∧ devGet 1 q.1 = some (none, q.1) := by
  obtain ⟨r, t, hinit, rfl, ht, -⟩ := ensures_devInit blank
  obtain ⟨q, hrun, hq, hget⟩ := devUnregister_twice_takes_another ht Bool.false_ne_true 1
  exact ⟨t, q, hinit, hrun, hq, hget⟩

end Dev

end Hgsdk

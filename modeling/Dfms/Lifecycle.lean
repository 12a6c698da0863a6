/-
# `exists` and `delete` over a tree of DROPs

A data DROP answers `exists()` and `delete()` through its I/O object (`drop.py`, lines
389-401), and either call may raise `IOError`: the specification's I/O handle fails every
call when it is an ERROR object, and a remote one may time out.  A `ContainerDROP` (so
also a `DirectoryContainer` and an `AppDROP`) exists when it has no children, and otherwise
when one of them exists, `reduce(lambda a,b: a or b, [c.exists() for c in
self._children])` (lines 964-969): every child is asked.  It deletes with `for c in [c for
c in self._children if c.exists()]: c.delete()` (lines 946-952): every child is asked
first, then the children that answered `True` are deleted in order, and nothing catches an
exception.  A `BarrierAppDROP` always exists (lines 1194-1195) and deletes like a container.

The I/O layer (`dfms.io`) is not part of the source: here the data behind each data DROP
exists or not, deleting it makes it not exist, and which calls raise is an argument
(`IOFailures`); a `delete()` that raises leaves the data as it was.  `addChild` may list one
child many times (`Container.lean`); the trees here allow it, and a child listed twice is
deleted twice.

* `delete_clears_what_it_holds`: `delete` only clears data at or under the DROP; when it
  returns it has cleared all of it, whichever children the snapshot of existing ones left
  out, so deleting again changes nothing stored; when it raises, the exception is the
  `IOError` of a data DROP under it, from `exists()`, or from `delete()` on the data as it
  is left; and deleting a DROP that does not exist changes nothing stored;
* `exists_after_delete`: after a `delete` that returns, a DROP exists exactly as it would
  with no data stored at all, so a tree that holds a childless container or an application
  still exists; data that a raising `delete` left under it keeps `exists()` from answering
  `False`.
-/
import Dfms.Basic

namespace Dfms.Lifecycle

/-- Whether the data behind each data DROP exists in its storage. -/
abbrev Store := Uid → Bool

/-- An `IOError` raised by the I/O object of the data DROP named, in the call named. -/
inductive IOError
  | existsFailed (uid : Uid)
  | deleteFailed (uid : Uid)
  deriving DecidableEq, Repr

/-- Which calls on the I/O objects raise: `exists()` on a DROP's data, and `delete()` given
whether the data is there (removing a file that is gone raises, as `os.remove` does). -/
structure IOFailures where
  existsRaises : Uid → Bool
  deleteRaises : Uid → Bool → Bool

/-- A DROP and what it holds, by the classes `exists` and `delete` tell apart. -/
inductive Drop
  /-- A `FileDROP`, `NgasDROP` or `InMemoryDROP`: its data is behind its I/O object. -/
  | data (uid : Uid)
  /-- A `ContainerDROP`, `DirectoryContainer` or non-barrier `AppDROP`, with its
  `_children`. -/
  | container (children : List Drop)
  /-- A `BarrierAppDROP`, with its `_children`. -/
  | barrier (children : List Drop)
  deriving Repr

mutual

/-- `drop.exists()`. -/
def Drop.exists (f : IOFailures) (s : Store) : Drop → Except IOError Bool
  | .data uid => if f.existsRaises uid then .error (.existsFailed uid) else .ok (s uid)
  | .container [] => .ok true
  | .container (c :: cs) => Drop.existsAny f s (c :: cs)
  | .barrier _ => .ok true

/-- `reduce(lambda a,b: a or b, [c.exists() for c in children])`: the comprehension asks
every child, in order, before `or` combines the answers. -/
def Drop.existsAny (f : IOFailures) (s : Store) : List Drop → Except IOError Bool
  | [] => .ok false
  | c :: cs => do
    let b ← c.exists f s
    let r ← Drop.existsAny f s cs
    pure (b || r)

end

mutual

/-- `drop.delete()`: `self.getIO().delete()` for a data DROP; for a container, the
comprehension `[c for c in self._children if c.exists()]`, which raises before any deletion
if a child's `exists()` does, then the loop over the children it kept. -/
def Drop.delete (f : IOFailures) : Drop → Store → Outcome Store IOError
  | .data uid, s =>
    if f.deleteRaises uid (s uid) then (s, some (.deleteFailed uid))
    else (Function.update s uid false, none)
  | .container children, s | .barrier children, s =>
    match children.mapM (Drop.exists f s) with
    | .error e => (s, some e)
    | .ok answers => Drop.deleteMarked f children answers s

/-- `for c in ...: c.delete()`: the children whose `exists()` answered `True`, deleted in
order, the first that raises stopping the loop. -/
def Drop.deleteMarked (f : IOFailures) : List Drop → List Bool → Store → Outcome Store IOError
  | [], _, s => (s, none)
  | _ :: _, [], s => (s, none)
  | c :: cs, true :: answers, s => (c.delete f s).andThen (Drop.deleteMarked f cs answers)
  | _ :: cs, false :: answers, s => Drop.deleteMarked f cs answers s

end

mutual

/-- The data DROPs at or under a DROP. -/
def Drop.dataUids : Drop → List Uid
  | .data uid => [uid]
  | .container children => Drop.dataUidsIn children
  | .barrier children => Drop.dataUidsIn children

/-- The data DROPs at or under some DROP of a list. -/
def Drop.dataUidsIn : List Drop → List Uid
  | [] => []
  | c :: cs => c.dataUids ++ Drop.dataUidsIn cs

end

/-- `s'` is `s` with some of the data of `uids` cleared: no data appears, and the data of
every other DROP is as it was. -/
structure Cleared (uids : List Uid) (s s' : Store) : Prop where
  le : ∀ u, s' u = true → s u = true
  frame : ∀ u, u ∉ uids → s' u = s u

section Cleared

variable {uids uids' : List Uid} {s s₁ s₂ : Store}

theorem Cleared.refl : Cleared uids s s := ⟨fun _ => id, fun _ _ => rfl⟩

theorem Cleared.trans (h₁ : Cleared uids s s₁) (h₂ : Cleared uids s₁ s₂) : Cleared uids s s₂ :=
  ⟨fun u hu => h₁.le u (h₂.le u hu), fun u hu => (h₂.frame u hu).trans (h₁.frame u hu)⟩

theorem Cleared.mono (h : Cleared uids s s₁) (hsub : uids ⊆ uids') : Cleared uids' s s₁ :=
  ⟨h.le, fun u hu => h.frame u fun h' => hu (hsub h')⟩

/-- Clearing data that does not exist changes nothing. -/
theorem Cleared.eq_of_none (h : Cleared uids s s₁) (hnone : ∀ u ∈ uids, s u = false) :
    s₁ = s :=
  funext fun u => if hu : u ∈ uids then by
      cases h1 : s₁ u
      · exact (hnone u hu).symm
      · exact absurd (h.le u h1) (by simp [hnone u hu])
    else h.frame u hu

end Cleared

theorem mem_dataUidsIn {c : Drop} {u : Uid} {cs : List Drop} (hc : c ∈ cs)
    (hu : u ∈ c.dataUids) : u ∈ Drop.dataUidsIn cs := by
  induction cs with
  | nil => cases hc
  | cons c' cs ih =>
    rcases List.mem_cons.1 hc with rfl | hc
    · exact List.mem_append_left _ hu
    · exact List.mem_append_right _ (ih hc)

/-- The comprehension asks each child in turn: it returns only if every child answers. -/
theorem mapM_cons_eq_ok {g : Drop → Except IOError Bool} {c : Drop} {cs : List Drop}
    {answers : List Bool} (h : (c :: cs).mapM g = .ok answers) :
    ∃ b bs, g c = .ok b ∧ cs.mapM g = .ok bs ∧ answers = b :: bs := by
  rw [List.mapM_cons] at h
  cases hc : g c <;> cases hr : cs.mapM g <;>
    simp_all [bind, Except.bind, pure, Except.pure]

/-- The comprehension raises what the first child that raises raises. -/
theorem mapM_eq_error {g : Drop → Except IOError Bool} {e : IOError} :
    ∀ {cs : List Drop}, cs.mapM g = .error e → ∃ c ∈ cs, g c = .error e
  | [], h => by cases h
  | c :: cs, h => by
    rw [List.mapM_cons] at h
    cases hc : g c with
    | error e' =>
      simp only [hc, bind, Except.bind, Except.error.injEq] at h
      exact ⟨c, List.mem_cons_self c cs, h ▸ hc⟩
    | ok b =>
      cases hr : cs.mapM g with
      | error e' =>
        simp only [hc, hr, bind, Except.bind, Except.error.injEq] at h
        obtain ⟨c', hc', hg⟩ := mapM_eq_error (h ▸ hr)
        exact ⟨c', List.mem_cons_of_mem c hc', hg⟩
      | ok bs =>
        rw [hc, hr] at h
        cases h

section Lemmas

variable {f : IOFailures}

/-! ## 1. What `exists` reads and raises -/

theorem existsAny_cons (c : Drop) (cs : List Drop) (s : Store) :
    Drop.existsAny f s (c :: cs) = match c.exists f s, Drop.existsAny f s cs with
      | .ok b, .ok r => .ok (b || r)
      | .error e, _ => .error e
      | .ok _, .error e => .error e := by
  simp only [Drop.existsAny]
  cases c.exists f s <;> cases Drop.existsAny f s cs <;> rfl

mutual

/-- A DROP whose `exists()` answers `False` holds no data that exists. -/
theorem Drop.data_of_exists_false : ∀ (n : Drop) {s : Store}, n.exists f s = .ok false →
    ∀ u ∈ n.dataUids, s u = false
  | .data _, _, h, u, hu => by
    simp only [Drop.dataUids, List.mem_singleton] at hu
    subst hu
    cases hf : f.existsRaises u
    · simpa [Drop.exists, hf] using h
    · simp [Drop.exists, hf] at h
  | .container [], _, h, _, _ => by simp [Drop.exists] at h
  | .container (c :: cs), _, h, u, hu => Drop.data_of_existsAny_false (c :: cs) h u hu
  | .barrier _, _, h, _, _ => by simp [Drop.exists] at h

theorem Drop.data_of_existsAny_false : ∀ (cs : List Drop) {s : Store},
    Drop.existsAny f s cs = .ok false → ∀ u ∈ Drop.dataUidsIn cs, s u = false
  | [], _, _, _, hu => by simp [Drop.dataUidsIn] at hu
  | c :: cs, s, h, u, hu => by
    rw [existsAny_cons] at h
    simp only [Drop.dataUidsIn, List.mem_append] at hu
    cases hc : c.exists f s <;> cases hr : Drop.existsAny f s cs <;> simp [hc, hr] at h
    rcases hu with hu | hu
    · exact Drop.data_of_exists_false c (h.1 ▸ hc) u hu
    · exact Drop.data_of_existsAny_false cs (h.2 ▸ hr) u hu

end

/-- Data that exists under a DROP keeps its `exists()` from answering `False`. -/
theorem Drop.exists_ne_false {n : Drop} {s : Store} {u : Uid} (hu : u ∈ n.dataUids)
    (hs : s u = true) : n.exists f s ≠ .ok false := fun h => by
  simp [Drop.data_of_exists_false n h u hu] at hs

mutual

/-- `exists` reads only the data at or under the DROP. -/
theorem Drop.exists_congr : ∀ (n : Drop) {s s' : Store}, (∀ u ∈ n.dataUids, s u = s' u) →
    n.exists f s = n.exists f s'
  | .data uid, _, _, h => by rw [Drop.exists, Drop.exists, h uid (by simp [Drop.dataUids])]
  | .container [], _, _, _ => rfl
  | .container (c :: cs), _, _, h => Drop.existsAny_congr (c :: cs) h
  | .barrier _, _, _, _ => rfl

theorem Drop.existsAny_congr : ∀ (cs : List Drop) {s s' : Store},
    (∀ u ∈ Drop.dataUidsIn cs, s u = s' u) → Drop.existsAny f s cs = Drop.existsAny f s' cs
  | [], _, _, _ => rfl
  | c :: cs, _, _, h => by
    simp only [Drop.dataUidsIn, List.mem_append] at h
    simp only [existsAny_cons, Drop.exists_congr c fun u hu => h u (.inl hu),
      Drop.existsAny_congr cs fun u hu => h u (.inr hu)]

end

mutual

/-- An `exists()` that raises raises the `IOError` of a data DROP under it. -/
theorem Drop.exists_error : ∀ (n : Drop) {s : Store} {e : IOError}, n.exists f s = .error e →
    ∃ u ∈ n.dataUids, e = .existsFailed u ∧ f.existsRaises u = true
  | .data uid, _, _, h => by
    cases hf : f.existsRaises uid <;> simp [Drop.exists, hf] at h
    exact ⟨uid, by simp [Drop.dataUids], h.symm, hf⟩
  | .container [], _, _, h => by cases h
  | .container (c :: cs), _, _, h => Drop.existsAny_error (c :: cs) h
  | .barrier _, _, _, h => by cases h

theorem Drop.existsAny_error : ∀ (cs : List Drop) {s : Store} {e : IOError},
    Drop.existsAny f s cs = .error e →
      ∃ u ∈ Drop.dataUidsIn cs, e = .existsFailed u ∧ f.existsRaises u = true
  | [], _, _, h => by cases h
  | c :: cs, s, e, h => by
    rw [existsAny_cons] at h
    cases hc : c.exists f s with
    | error e' =>
      simp only [hc, Except.error.injEq] at h
      obtain ⟨u, hu, he⟩ := Drop.exists_error c (h ▸ hc)
      exact ⟨u, List.mem_append_left _ hu, he⟩
    | ok b =>
      cases hr : Drop.existsAny f s cs with
      | error e' =>
        simp only [hc, hr, Except.error.injEq] at h
        obtain ⟨u, hu, he⟩ := Drop.existsAny_error cs (h ▸ hr)
        exact ⟨u, List.mem_append_right _ hu, he⟩
      | ok r => simp [hc, hr] at h

end

/-! ## 2. What `delete` does to the store -/

mutual

/-- `delete` clears only data at or under the DROP. -/
theorem Drop.delete_cleared : ∀ (n : Drop) (s : Store), Cleared n.dataUids s (n.delete f s).1
  | .data v, s => by
    unfold Drop.delete
    split_ifs
    · exact Cleared.refl
    · refine ⟨fun u hu => ?_, fun u hu => Function.update_noteq (by simpa [Drop.dataUids] using hu) _ _⟩
      by_cases h : u = v
      · subst h; simp at hu
      · simpa [Function.update_noteq h] using hu
  | .container cs, s | .barrier cs, s => by
    simp only [Drop.delete, Drop.dataUids]
    split
    · exact Cleared.refl
    · exact Drop.deleteMarked_cleared cs _ s

theorem Drop.deleteMarked_cleared : ∀ (cs : List Drop) (answers : List Bool) (s : Store),
    Cleared (Drop.dataUidsIn cs) s (Drop.deleteMarked f cs answers s).1
  | [], _, _ | _ :: _, [], _ => Cleared.refl
  | c :: cs, true :: answers, s => by
    have hc := Drop.delete_cleared c s
    simp only [Drop.deleteMarked, Drop.dataUidsIn]
    rcases hd : c.delete f s with ⟨s₁, _ | e⟩ <;> rw [hd] at hc
    · exact (hc.mono fun _ => List.mem_append_left _).trans
        ((Drop.deleteMarked_cleared cs answers s₁).mono fun _ => List.mem_append_right _)
    · exact hc.mono fun _ => List.mem_append_left _
  | c :: cs, false :: answers, s =>
    (Drop.deleteMarked_cleared cs answers s).mono fun _ hu => List.mem_append_right _ hu

end

mutual

/-- A `delete` that raises raises the `IOError` of a data DROP under it: from `exists()` in a
comprehension, or from `delete()` on the data as the call leaves it. -/
theorem Drop.delete_error : ∀ (n : Drop) (s : Store) {e : IOError}, (n.delete f s).2 = some e →
    ∃ u ∈ n.dataUids, e = .existsFailed u ∧ f.existsRaises u = true ∨
      e = .deleteFailed u ∧ f.deleteRaises u ((n.delete f s).1 u) = true
  | .data v, s, e, h => by
    unfold Drop.delete at h ⊢
    split_ifs at h ⊢ with hd
    cases h
    exact ⟨v, by simp [Drop.dataUids], .inr ⟨rfl, hd⟩⟩
  | .container cs, s, e, h | .barrier cs, s, e, h => by
    simp only [Drop.delete, Drop.dataUids] at h ⊢
    cases hm : cs.mapM (Drop.exists f s) with
    | error e' =>
      simp only [hm, Option.some.injEq] at h
      subst h
      obtain ⟨c, hc, hce⟩ := mapM_eq_error hm
      obtain ⟨u, hu, he, hr⟩ := Drop.exists_error c hce
      exact ⟨u, mem_dataUidsIn hc hu, .inl ⟨he, hr⟩⟩
    | ok answers =>
      simp only [hm] at h ⊢
      exact Drop.deleteMarked_error cs answers s h

theorem Drop.deleteMarked_error : ∀ (cs : List Drop) (answers : List Bool) (s : Store)
    {e : IOError}, (Drop.deleteMarked f cs answers s).2 = some e →
    ∃ u ∈ Drop.dataUidsIn cs, e = .existsFailed u ∧ f.existsRaises u = true ∨
      e = .deleteFailed u ∧ f.deleteRaises u ((Drop.deleteMarked f cs answers s).1 u) = true
  | [], _, _, _, h | _ :: _, [], _, _, h => by cases h
  | c :: cs, true :: answers, s, e, h => by
    simp only [Drop.deleteMarked] at h ⊢
    rcases hd : c.delete f s with ⟨s₁, _ | e'⟩
    · simp only [hd, Outcome.ok_andThen] at h ⊢
      obtain ⟨u, hu, h'⟩ := Drop.deleteMarked_error cs answers s₁ h
      exact ⟨u, List.mem_append_right _ hu, h'⟩
    · simp only [hd, Outcome.raise_andThen, Option.some.injEq] at h ⊢
      subst h
      obtain ⟨u, hu, h'⟩ := Drop.delete_error c s (e := e') (by rw [hd])
      rw [hd] at h'
      exact ⟨u, List.mem_append_left _ hu, h'⟩
  | c :: cs, false :: answers, s, e, h => by
    simp only [Drop.deleteMarked] at h ⊢
    obtain ⟨u, hu, h'⟩ := Drop.deleteMarked_error cs answers s h
    exact ⟨u, List.mem_append_right _ hu, h'⟩

end

mutual

/-- A `delete` that returns has cleared all the data at or under the DROP. -/
theorem Drop.delete_ok : ∀ (n : Drop) (s : Store), (n.delete f s).2 = none →
    ∀ u, (n.delete f s).1 u = (s u && !decide (u ∈ n.dataUids))
  | .data v, s, h, u => by
    unfold Drop.delete at h ⊢
    split_ifs at h ⊢
    by_cases hu : u = v
    · subst hu; simp [Drop.dataUids]
    · simp [Drop.dataUids, hu, Function.update_noteq hu]
  | .container cs, s, h, u | .barrier cs, s, h, u => by
    simp only [Drop.delete, Drop.dataUids] at h ⊢
    cases hm : cs.mapM (Drop.exists f s) with
    | error e =>
      simp only [hm] at h
      cases h
    | ok answers =>
      simp only [hm] at h ⊢
      exact Drop.deleteMarked_ok cs answers s s hm (fun _ => id) h u

/-- The loop over the children the comprehension kept, asked on `snapshot`: a child left out
holds no data that exists. -/
theorem Drop.deleteMarked_ok : ∀ (cs : List Drop) (answers : List Bool) (snapshot s : Store),
    cs.mapM (Drop.exists f snapshot) = .ok answers → (∀ u, s u = true → snapshot u = true) →
    (Drop.deleteMarked f cs answers s).2 = none →
    ∀ u, (Drop.deleteMarked f cs answers s).1 u = (s u && !decide (u ∈ Drop.dataUidsIn cs))
  | [], _, _, _, _, _, _, u => by simp [Drop.deleteMarked, Drop.dataUidsIn]
  | c :: cs, answers, snapshot, s, hm, hs, h, u => by
    obtain ⟨b, bs, hc, hcs, rfl⟩ := mapM_cons_eq_ok hm
    cases b with
    | true =>
      simp only [Drop.deleteMarked] at h ⊢
      rcases hd : c.delete f s with ⟨s₁, _ | e⟩
      · simp only [hd, Outcome.ok_andThen] at h ⊢
        have h1 : ∀ v, s₁ v = (s v && !decide (v ∈ c.dataUids)) := by
          simpa [hd] using Drop.delete_ok c s (by rw [hd])
        have hle : ∀ v, s₁ v = true → snapshot v = true := fun v hv =>
          hs v ((Drop.delete_cleared c s).le v (by rw [hd]; exact hv))
        rw [Drop.deleteMarked_ok cs bs snapshot s₁ hcs hle h u, h1 u]
        simp [Drop.dataUidsIn, Bool.and_assoc]
      · simp [hd] at h
    | false =>
      simp only [Drop.deleteMarked] at h ⊢
      rw [Drop.deleteMarked_ok cs bs snapshot s hcs hs h u]
      have hcu : u ∈ c.dataUids → s u = false := fun hu =>
        Bool.eq_false_iff.2 fun hsu => by
          simpa [Drop.data_of_exists_false c hc u hu] using hs u hsu
      by_cases hu : u ∈ c.dataUids <;> simp [hu, hcu, Drop.dataUidsIn]

end

end Lemmas

/-! ## 3. Every tree -/

/-- **`delete` clears what the DROP holds, or raises an `IOError` from under it.**  For every
tree of DROPs, every state of the storage and every pattern of I/O failures: `delete` only
clears data at or under the DROP.  When it returns, it has cleared all of it, whichever
children the snapshot of existing ones left out, and deleting again changes nothing
stored.  When it raises, the exception is the `IOError` of a data DROP under it, from its
`exists()` or from its `delete()` on the data as the call leaves it; a child listed twice
is deleted twice, and the second `delete()` finds its data gone.  Deleting a DROP whose
`exists()` answers `False` changes nothing stored. -/
theorem delete_clears_what_it_holds (f : IOFailures) (n : Drop) (s : Store) :
    (∀ u, (n.delete f s).1 u = true → s u = true) ∧
      (∀ u, u ∉ n.dataUids → (n.delete f s).1 u = s u) ∧
      ((n.delete f s).2 = none →
        (∀ u, (n.delete f s).1 u = (s u && !decide (u ∈ n.dataUids))) ∧
          (n.delete f (n.delete f s).1).1 = (n.delete f s).1) ∧
      (∀ e, (n.delete f s).2 = some e → ∃ u ∈ n.dataUids,
        e = .existsFailed u ∧ f.existsRaises u = true ∨
          e = .deleteFailed u ∧ f.deleteRaises u ((n.delete f s).1 u) = true) ∧
      (n.exists f s = .ok false → (n.delete f s).1 = s) := by
  have hc := Drop.delete_cleared (f := f) n s
  refine ⟨hc.le, hc.frame, fun h => ⟨Drop.delete_ok n s h, ?_⟩, fun _ => Drop.delete_error n s,
    fun h => hc.eq_of_none (Drop.data_of_exists_false n h)⟩
  exact (Drop.delete_cleared n _).eq_of_none fun u hu => by simp [Drop.delete_ok n s h u, hu]

/-- A container listing data DROP `1` twice, over a storage that raises when asked to delete
data that is gone, as `os.remove` does: both children existed when asked, so the second
`delete()` raises once the first has cleared the data; DROP `2`, outside the container,
keeps its data. -/
theorem delete_clears_what_it_holds_listed_twice :
    (Drop.container [.data 1, .data 1]).delete ⟨fun _ => false, fun _ present => !present⟩
        (fun _ => true) = (Function.update (fun _ => true) 1 false, some (.deleteFailed 1)) ∧
      ((Drop.container [.data 1, .data 1]).delete ⟨fun _ => false, fun _ present => !present⟩
        (fun _ => true)).1 2 = true :=
  ⟨rfl, (delete_clears_what_it_holds _ _ _).2.1 2 (by decide)⟩

/-- **After `delete`, a DROP exists as it would with no data stored at all, unless a
`delete()` under it raised on data it left.**  After a `delete` that returns, `exists`
reads only the data under the DROP, all cleared; so a tree that holds a childless container
or a `BarrierAppDROP` still exists.  After a `delete` that raised because a data DROP's
`delete()` failed with its data still there, that data is under the DROP and keeps
`exists()` from answering `False`. -/
theorem exists_after_delete (f : IOFailures) (n : Drop) (s : Store) :
    ((n.delete f s).2 = none → n.exists f (n.delete f s).1 = n.exists f fun _ => false) ∧
      ∀ u, (n.delete f s).2 = some (.deleteFailed u) → (n.delete f s).1 u = true →
        n.exists f (n.delete f s).1 ≠ .ok false := by
  refine ⟨fun h => Drop.exists_congr n fun u hu => by simp [Drop.delete_ok n s h u, hu],
    fun u h hs => ?_⟩
  obtain ⟨u', hu', ⟨he, -⟩ | ⟨he, -⟩⟩ := Drop.delete_error n s h
  · cases he
  · cases he
    exact Drop.exists_ne_false hu' hs

example : (Drop.container [.data 1, .container []]).exists ⟨fun _ => false, fun _ _ => false⟩
    ((Drop.container [.data 1, .container []]).delete ⟨fun _ => false, fun _ _ => false⟩
      fun _ => true).1 = .ok true := rfl

end Dfms.Lifecycle

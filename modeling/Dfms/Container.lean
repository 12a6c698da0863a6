/-
# Containers: `addChild` and the `parent` setter

`ContainerDROP.addChild` (`drop.py`, lines 934-944) appends the child to `_children` and
then assigns `child.parent = self`.  The `parent` setter (lines 595-606) assigns `_parent`
and then calls `parent.addChild(self)`, restoring the previous parent if that raises.
`DirectoryContainer.addChild` (lines 994-1001) checks the child's class and path and then
calls `ContainerDROP.addChild(self, child)`.

Unlike the wiring methods of `Wiring.lean`, neither side asks whether the pair is already
made.  So the two call each other, appending the child once per round, until the
interpreter's recursion limit raises; the innermost setter swallows that error with its
bare `except`, and the whole call returns normally.  As in `Wiring.lean`, `exec` takes the
number of frames left as its first argument.  The frames of the helpers these methods call
(the `parent` getter, `logger`) are not counted: they change which frame raises, not how
many rounds run.

* `exec_addChild_count`: with `n` frames left, `C.addChild(x)` puts `x` into
  `C.children` `(n + 1) / 2` times: the nesting is as deep as the limit allows.
* `parentListed_run`: over every sequence of calls, returning or raising, a DROP whose
  parent is a container is among that container's children.
-/
import Dfms.Basic
import Mathlib.Data.Nat.Defs

namespace Dfms.Container

/-- The class of a DROP, as far as `addChild` and the `parent` setter ask. -/
inductive Class
  /-- A `FileDROP` with its `path`, the components of `dirname + "/" + oid + "___" + uid`. -/
  | file (path : List String)
  /-- A `DirectoryContainer` with its `path`, the components of `abspath(dirname)`. -/
  | directory (path : List String)
  /-- A `ContainerDROP`, or an `AppDROP` or `BarrierAppDROP`, which extend it. -/
  | container
  /-- An `InMemoryDROP`, `NgasDROP` or `NullDROP`. -/
  | plain
  deriving DecidableEq, Repr

/-- `hasattr(parent, 'addChild')`. -/
def Class.hasAddChild : Class → Bool
  | .directory _ | .container => true
  | .file _ | .plain => false

/-- `os.path.dirname` of an absolute, normalised path given by its components. -/
def dirname (path : List String) : List String := path.dropLast

/-- The parent/child attributes of every DROP of a session. -/
structure Family where
  cls : Uid → Class
  parent : Uid → Option Uid
  children : Uid → List Uid

/-- DROPs just constructed: no parent, no children. -/
def Family.fresh (cls : Uid → Class) : Family := ⟨cls, fun _ => none, fun _ => []⟩

/-- The exceptions of `addChild`, with the source's messages. -/
inductive ContainerError
  /-- "Circular dependency between DROPs %s/%s and %s/%s" -/
  | circular (container child : Uid)
  /-- "Child DROP is not under %s" -/
  | notUnder (path : List String)
  /-- `TypeError`: "Child DROP is not of type FileDROP or DirectoryContainer" -/
  | notFileOrDirectory
  /-- `AttributeError`: the receiver's class does not define `addChild`. -/
  | noAttribute (receiver : Uid)
  /-- `RuntimeError: maximum recursion depth exceeded`. -/
  | recursionLimit
  deriving DecidableEq, Repr

/-- A call of this module. -/
inductive Call
  /-- `container.addChild(child)`, looked up on the container's class. -/
  | addChild (container child : Uid)
  /-- `ContainerDROP.addChild(self, child)`, the explicit call in
  `DirectoryContainer.addChild`. -/
  | containerAddChild (container child : Uid)
  /-- `drop.parent = parent`. -/
  | setParent (drop : Uid) (parent : Option Uid)
  deriving DecidableEq, Repr

/-! ## 1. The methods -/

section Methods

variable (call : Call → Family → Outcome Family ContainerError)

/-- `ContainerDROP.addChild`. -/
def containerAddChild (self child : Uid) (s : Family) : Outcome Family ContainerError :=
  if some child = s.parent self then (s, some (.circular self child))
  else call (.setParent child (some self)) { s with children := push s.children self child }

/-- `DirectoryContainer.addChild`, for a container at `path`. -/
def directoryAddChild (self child : Uid) (path : List String) (s : Family) :
    Outcome Family ContainerError :=
  match s.cls child with
  | .file p | .directory p =>
    if dirname p ≠ path then (s, some (.notUnder path))
    else call (.containerAddChild self child) s
  | .container | .plain => (s, some .notFileOrDirectory)

/-- The `AbstractDROP.parent` setter.  `if parent:` is false for `None`, and the warning
logged when a parent is overwritten changes nothing. -/
def setParent (self : Uid) (parent : Option Uid) (s : Family) : Outcome Family ContainerError :=
  match parent with
  | none => (s, none)
  | some p =>
    let prevParent := s.parent self
    let s := { s with parent := Function.update s.parent self (some p) }
    if (s.cls p).hasAddChild then
      match call (.addChild p self) s with
      | (s', none) => (s', none)
      | (s', some _) => ({ s' with parent := Function.update s'.parent self prevParent }, none)
    else (s, none)

/-- Python's method lookup. -/
def dispatch : Call → Family → Outcome Family ContainerError
  | .addChild c x, s =>
    match s.cls c with
    | .container => containerAddChild call c x s
    | .directory path => directoryAddChild call c x path s
    | .file _ | .plain => (s, some (.noAttribute c))
  | .containerAddChild c x, s => containerAddChild call c x s
  | .setParent x p, s => setParent call x p s

end Methods

/-- A call made with `depth` Python frames left before the recursion limit. -/
def exec : Nat → Call → Family → Outcome Family ContainerError
  | 0, _, s => (s, some .recursionLimit)
  | n + 1, c, s => dispatch (exec n) c s

/-- A sequence of calls, each made with its own number of frames left, each returning or
raising. -/
def run (calls : List (Nat × Call)) (s : Family) : Family :=
  calls.foldl (fun s c => (exec c.1 c.2 s).1) s

/-! ## 2. The recursion has no floor -/

section Recursion

variable {s : Family} {c x : Uid}

/-- The state one round of `c.addChild(x)` hands to the next: `x` appended to `c`'s
children and `x.parent` set to `c`. -/
def Family.round (s : Family) (c x : Uid) : Family :=
  { s with children := push s.children c x, parent := Function.update s.parent x (some c) }

/-- **One round of `c.addChild(x)` and its setter.**  With two frames fewer, the nested
`c.addChild(x)` runs on `s.round c x`; if it raises, the setter restores `x`'s parent. -/
theorem exec_addChild_add_two (hc : s.cls c = .container) (hp : s.parent c ≠ some x)
    (n : Nat) :
    exec (n + 2) (.addChild c x) s =
      match exec n (.addChild c x) (s.round c x) with
      | (s', none) => (s', none)
      | (s', some _) => ({ s' with parent := Function.update s'.parent x (s.parent x) }, none) := by
  simp [exec, dispatch, containerAddChild, setParent, hc, Ne.symm hp, Class.hasAddChild,
    Family.round]

/-- The setter's restore touches no children list. -/
theorem exec_addChild_add_two_children (hc : s.cls c = .container) (hp : s.parent c ≠ some x)
    (n : Nat) :
    (exec (n + 2) (.addChild c x) s).1.children = (exec n (.addChild c x) (s.round c x)).1.children := by
  rw [exec_addChild_add_two hc hp]
  rcases exec n (.addChild c x) (s.round c x) with ⟨s', _ | e⟩ <;> rfl

/-- **`c.addChild(x)` appends `x` once per two frames the recursion limit leaves.**  For a
`ContainerDROP` `c`, a child `x ≠ c` that is not `c`'s parent, and `n` frames left. -/
theorem exec_addChild_count (hc : s.cls c = .container) (hx : x ≠ c) (hp : s.parent c ≠ some x)
    (n : Nat) :
    ((exec n (.addChild c x) s).1.children c).count x = (s.children c).count x + (n + 1) / 2 := by
  induction n using Nat.twoStepInduction generalizing s with
  | zero => rfl
  | one => simp [exec, dispatch, containerAddChild, hc, Ne.symm hp]
  | more n ih _ =>
    have hp' : (s.round c x).parent c ≠ some x := by
      simpa [Family.round, Function.update_noteq (Ne.symm hx)] using hp
    rw [exec_addChild_add_two_children hc hp, ih (s := s.round c x) hc hp']
    simp only [Family.round, count_push, and_self, if_true]
    omega

/-- **`C.addChild(x)` nests as deep as the recursion limit lets it.**  A fresh
`ContainerDROP` 0 and a fresh DROP 1: with `n` frames left, `0.addChild(1)` appends 1 to
the children of 0 `(n + 1) / 2` times, so no bound on the number of nested
`addChild`/parent-setter calls holds for every recursion limit. -/
theorem addChild_nesting_grows_with_limit (n : Nat) :
    ((exec n (.addChild 0 1) (Family.fresh fun u => if u = 0 then .container else .plain)).1.children 0).count 1 =
      (n + 1) / 2 := by
  simpa [Family.fresh] using
    exec_addChild_count (s := Family.fresh fun u => if u = 0 then .container else .plain)
      (c := 0) (x := 1) rfl (by decide) (by simp [Family.fresh]) n

end Recursion

/-! ## 3. What every call keeps: a parent that is a container lists its child -/

/-- `x` is among the children of its parent, if its parent has `addChild`. -/
def Listed (s : Family) (x : Uid) : Prop :=
  ∀ c, s.parent x = some c → (s.cls c).hasAddChild → x ∈ s.children c

/-- Every DROP is among the children of its parent, when that parent is a container. -/
def ParentListed (s : Family) : Prop := ∀ x, Listed s x

/-- The container and child of an `addChild` call. -/
def Call.adds : Call → Option (Uid × Uid)
  | .addChild c x | .containerAddChild c x => some (c, x)
  | .setParent _ _ => none

/-- What a call may do to the family, returning or raising: classes stay, children lists
only grow, and each DROP either keeps its parent or ends listed by the new one. -/
structure Frame (s s' : Family) : Prop where
  cls_eq : s'.cls = s.cls
  children_subset : ∀ c, s.children c ⊆ s'.children c
  parent_or_listed : ∀ y, s'.parent y = s.parent y ∨ Listed s' y

theorem Frame.refl (s : Family) : Frame s s :=
  ⟨rfl, fun _ => List.Subset.refl _, fun _ => .inl rfl⟩

/-- An append to a children list, followed by a call that keeps the frame. -/
theorem Frame.push_trans {s s' : Family} {c x : Uid}
    (h : Frame { s with children := push s.children c x } s') : Frame s s' where
  cls_eq := h.cls_eq
  children_subset c' _ hy := h.children_subset c' (mem_push.2 (.inl hy))
  parent_or_listed := h.parent_or_listed

section Frames

/- The interpreter of the nested calls keeps the frame, and an `addChild` it runs that
returns has listed its child. -/
variable {call : Call → Family → Outcome Family ContainerError}
  (hcall : ∀ c s, Frame s (call c s).1 ∧
    ∀ p x, c.adds = some (p, x) → (call c s).2 = none → x ∈ (call c s).1.children p)

include hcall

/-- `ContainerDROP.addChild`, the one place a child is appended. -/
theorem containerAddChild_frame (s : Family) (c x : Uid) :
    Frame s (containerAddChild call c x s).1 ∧
      ((containerAddChild call c x s).2 = none → x ∈ (containerAddChild call c x s).1.children c) := by
  unfold containerAddChild
  split_ifs
  · exact ⟨Frame.refl s, fun h => nomatch h⟩
  · obtain ⟨hf, -⟩ := hcall (.setParent x (some c)) { s with children := push s.children c x }
    exact ⟨hf.push_trans, fun _ => hf.children_subset c (mem_push.2 (.inr ⟨rfl, rfl⟩))⟩

theorem directoryAddChild_frame (s : Family) (c x : Uid) (path : List String) :
    Frame s (directoryAddChild call c x path s).1 ∧
      ((directoryAddChild call c x path s).2 = none →
        x ∈ (directoryAddChild call c x path s).1.children c) := by
  unfold directoryAddChild
  split
  all_goals first
    | exact ⟨Frame.refl s, fun h => nomatch h⟩
    | split_ifs
      · exact ⟨Frame.refl s, fun h => nomatch h⟩
      · exact ⟨(hcall _ s).1, (hcall _ s).2 c x rfl⟩

/-- The `parent` setter: the new parent lists its child unless its `addChild` raised, and
then the previous parent is back. -/
theorem setParent_frame (s : Family) (x : Uid) (p : Option Uid) :
    Frame s (setParent call x p s).1 := by
  rcases p with _ | p
  · exact Frame.refl s
  simp only [setParent]
  split_ifs with hp
  · obtain ⟨hf, hl⟩ := hcall (.addChild p x) { s with parent := Function.update s.parent x (some p) }
    rcases hr : call (.addChild p x) { s with parent := Function.update s.parent x (some p) }
      with ⟨s', _ | e⟩
    · rw [hr] at hf hl
      dsimp only at hf hl ⊢
      refine ⟨hf.cls_eq, hf.children_subset, fun y => ?_⟩
      rcases hf.parent_or_listed y with h | h
      · by_cases hy : y = x
        · subst hy
          refine .inr fun c hc _ => ?_
          simp only [h, Function.update_same, Option.some.injEq] at hc
          exact hc ▸ hl p y rfl rfl
        · exact .inl (by simp [h, hy])
      · exact .inr h
    · rw [hr] at hf
      dsimp only at hf ⊢
      refine ⟨hf.cls_eq, hf.children_subset, fun y => ?_⟩
      by_cases hy : y = x
      · subst hy
        exact .inl (by simp)
      · rcases hf.parent_or_listed y with h | h
        · exact .inl (by simp [h, hy])
        · exact .inr fun c hc => h c (by simpa [hy] using hc)
  · refine ⟨rfl, fun _ => List.Subset.refl _, fun y => ?_⟩
    by_cases hy : y = x
    · subst hy
      refine .inr fun c hc hcls => ?_
      simp only [Function.update_same, Option.some.injEq] at hc
      exact absurd (hc ▸ hcls) hp
    · exact .inl (by simp [hy])

end Frames

/-- **Every call keeps the frame, and an `addChild` that returns has listed its child.** -/
theorem exec_frame (n : Nat) (call : Call) (s : Family) :
    Frame s (exec n call s).1 ∧
      ∀ c x, call.adds = some (c, x) → (exec n call s).2 = none → x ∈ (exec n call s).1.children c := by
  induction n generalizing call s with
  | zero => exact ⟨Frame.refl s, fun _ _ _ h => nomatch h⟩
  | succ n ih =>
    cases call with
    | addChild c x =>
      simp only [exec, dispatch, Call.adds, Option.some.injEq, Prod.mk.injEq]
      split
      · exact ⟨(containerAddChild_frame ih s c x).1,
          fun _ _ ⟨rfl, rfl⟩ => (containerAddChild_frame ih s c x).2⟩
      · exact ⟨(directoryAddChild_frame ih s c x _).1,
          fun _ _ ⟨rfl, rfl⟩ => (directoryAddChild_frame ih s c x _).2⟩
      all_goals exact ⟨Frame.refl s, fun _ _ _ h => nomatch h⟩
    | containerAddChild c x =>
      exact ⟨(containerAddChild_frame ih s c x).1,
        fun _ _ h => by cases h; exact (containerAddChild_frame ih s c x).2⟩
    | setParent x p => exact ⟨setParent_frame ih s x p, fun _ _ h => nomatch h⟩

theorem ParentListed.of_frame {s s' : Family} (hs : ParentListed s) (hf : Frame s s') :
    ParentListed s' := fun y => by
  rcases hf.parent_or_listed y with h | h
  · intro c hc hcls
    exact hf.children_subset c (hs y c (h ▸ hc) (hf.cls_eq ▸ hcls))
  · exact h

/-- **Over every sequence of `addChild` calls and parent assignments, each returning or
raising at any depth of the stack, a DROP whose parent is a container is among that
container's children.** -/
theorem parentListed_run (cls : Uid → Class) (calls : List (Nat × Call)) :
    ParentListed (run calls (Family.fresh cls)) := by
  suffices ∀ s, ParentListed s → ParentListed (run calls s) from
    this _ fun _ _ h => nomatch h
  induction calls with
  | nil => exact fun _ hs => hs
  | cons c calls ih => exact fun s hs => ih _ (hs.of_frame (exec_frame c.1 c.2 s).1)

/-- **Only the forward direction holds.**  Containers 0 and 1 and a plain DROP 2, with room
for ten frames: `0.addChild(2)`, then `2.parent = 1`.  The setter overwrites the parent
(logging a warning) and leaves 2 among the children of 0, so 2 is a child of two
containers and in the children of a container that is not its parent. -/
theorem reparent_keeps_old_child :
    (run [(10, .addChild 0 2), (10, .setParent 2 (some 1))]
        (Family.fresh fun u => if u = 2 then .plain else .container)).parent 2 = some 1 ∧
      2 ∈ (run [(10, .addChild 0 2), (10, .setParent 2 (some 1))]
        (Family.fresh fun u => if u = 2 then .plain else .container)).children 0 ∧
      2 ∈ (run [(10, .addChild 0 2), (10, .setParent 2 (some 1))]
        (Family.fresh fun u => if u = 2 then .plain else .container)).children 1 := by
  decide

end Dfms.Container

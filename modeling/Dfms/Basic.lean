/-
# The DROP vocabulary of `dfms/drop.py`

The states, modes and identities that every other module of the model shares, and the one
piece of Python semantics they all need: a call either returns or raises, and a raise
keeps every mutation made before it.  `drop.py` never rolls a collection back on an
exception (the parent setter is the one exception, and `Container.lean` models it
explicitly), so a call is modelled as a state transformer that returns the state it leaves
together with the exception it raised, if any (`Outcome`).

Objects are identified with their `uid`.  `drop.py` compares DROPs with `in` and `is`,
which on `AbstractDROP` (no `__eq__`) is identity, and every claim of the development is
about DROPs of distinct uids.
-/
import Mathlib.Logic.Function.Basic
import Mathlib.Data.List.Count

namespace Dfms

/-- A DROP's unique id, `AbstractDROP.uid`; the model identifies a DROP with it. -/
abbrev Uid := Nat

/-- `DROPStates`: the status of a DROP (`AbstractDROP.status`). -/
inductive DROPStates
  | initialized
  | writing
  | completed
  | expired
  | deleted
  | error
  deriving DecidableEq, Repr

/-- `AppDROPStates`: the execution status of an application (`AppDROP.execStatus`). -/
inductive AppDROPStates
  | notRun
  | running
  | finished
  | error
  | cancelled
  deriving DecidableEq, Repr

/-- `ExecutionMode`: whether a DROP triggers its consumers itself (`DROP`, the default of
`AbstractDROP.__init__`) or leaves it to an external entity (`EXTERNAL`). -/
inductive ExecutionMode
  | drop
  | external
  deriving DecidableEq, Repr

/-- The statuses `write` and `setCompleted` accept:
`self.status not in [DROPStates.INITIALIZED, DROPStates.WRITING]` is their common guard. -/
def DROPStates.isWritable : DROPStates → Bool
  | .initialized | .writing => true
  | _ => false

@[simp] theorem DROPStates.isWritable_completed : DROPStates.completed.isWritable = false := rfl

/-- `f` with `x` appended to the list of `u`: `self._consumers.append(consumer)` and its
siblings. -/
def push {α : Type} (f : Uid → List α) (u : Uid) (x : α) : Uid → List α :=
  Function.update f u (f u ++ [x])

theorem push_apply {α : Type} (f : Uid → List α) (u v : Uid) (x : α) :
    push f u x v = if v = u then f u ++ [x] else f v := by
  by_cases h : v = u
  · subst h; simp [push]
  · simp [push, h]

@[simp] theorem mem_push {α : Type} {f : Uid → List α} {u v : Uid} {x y : α} :
    y ∈ push f u x v ↔ y ∈ f v ∨ (v = u ∧ y = x) := by
  by_cases h : v = u
  · subst h; simp [push_apply]
  · simp [push_apply, h]

@[simp] theorem count_push {α : Type} [DecidableEq α] (f : Uid → List α) (u v : Uid) (x y : α) :
    (push f u x v).count y = (f v).count y + if v = u ∧ y = x then 1 else 0 := by
  by_cases h : v = u
  · subst h
    by_cases hy : y = x
    · subst hy; simp [push_apply]
    · simp [push_apply, hy, List.count_singleton, Ne.symm hy]
  · simp [push_apply, h]

/-- What a Python call leaves behind: the state after it, and the exception it raised.
A raise keeps every mutation made before it. -/
abbrev Outcome (σ ε : Type) := σ × Option ε

namespace Outcome

variable {σ ε : Type}

/-- Run `f` on the state `o` leaves, unless `o` raised: then the exception propagates and
`f` never runs. This is Python's sequencing of two statements. -/
def andThen : Outcome σ ε → (σ → Outcome σ ε) → Outcome σ ε
  | (s, none), f => f s
  | (s, some e), _ => (s, some e)

@[simp] theorem ok_andThen (s : σ) (f : σ → Outcome σ ε) :
    andThen (s, none) f = f s := rfl

@[simp] theorem raise_andThen (s : σ) (e : ε) (f : σ → Outcome σ ε) :
    andThen (s, some e) f = (s, some e) := rfl

/-- A sequence returns normally only if both of its parts do. -/
theorem andThen_eq_ok {o : Outcome σ ε} {f : σ → Outcome σ ε} {s' : σ}
    (h : o.andThen f = (s', none)) : ∃ s, o = (s, none) ∧ f s = (s', none) := by
  obtain ⟨s, _ | e⟩ := o
  · exact ⟨s, rfl, h⟩
  · cases h

end Outcome

end Dfms

/-
# Readers: `open`, `read`, `close` and the descriptor table

`AbstractDROP.open`, `read`, `close`, `_checkStateAndDescriptor`, `isBeingRead` and the
reference count (`drop.py`, lines 246-326).  A reader opens a COMPLETED DROP and gets a
descriptor, a random integer redrawn until it is not a key of `_rios`; `close` re-checks the
status before it releases the descriptor.

* every call and every status assignment keeps `refCount` equal to the number of live
  descriptors, and the descriptors pairwise distinct (`Consistent.step`, `consistent_run`);
* while the DROP is COMPLETED, `close` releases any live descriptor, so `open(); read*;
  close()` leaves the table and the count as they were;
* once the DROP is EXPIRED or DELETED, `close` raises on every descriptor and releases
  nothing (`descriptor_outlives_expiry`).
-/
import Dfms.Basic
import Mathlib.Data.List.Nodup
import Mathlib.Logic.Relation

namespace Dfms.Readers

/-- The attributes of a DROP that its read path reads and writes.  The I/O objects that
`_rios` maps the descriptors to are left out. -/
structure ReadState where
  status : DROPStates
  refCount : Int
  /-- The keys of `_rios`, in insertion order. -/
  rios : List Int
  deriving DecidableEq, Repr

/-- A DROP in the given status that no reader has opened. -/
def ReadState.init (status : DROPStates) : ReadState := ⟨status, 0, []⟩

/-- The exceptions of the read path, with the source's messages. -/
inductive ReadError
  /-- "DROP %s/%s is in state %s (!=COMPLETED), cannot be opened for reading" -/
  | cannotOpen (status : DROPStates)
  /-- "DROP %s/%s is in state %s (!=COMPLETED), cannot be read" -/
  | cannotRead (status : DROPStates)
  /-- "Illegal descriptor %d given, remember to open() first" -/
  | illegalDescriptor (descriptor : Int)
  /-- Raised by the I/O object. -/
  | external
  deriving DecidableEq, Repr

/-- `incrRefCount`. -/
def incrRefCount (s : ReadState) : ReadState := { s with refCount := s.refCount + 1 }

/-- `decrRefCount`. -/
def decrRefCount (s : ReadState) : ReadState := { s with refCount := s.refCount - 1 }

/-- `isBeingRead`. -/
def isBeingRead (s : ReadState) : Bool := decide (s.refCount > 0)

/-- `AbstractDROP.open`.  `descriptor` is the value the draw loop exits with, so it is not a
key of `_rios` (the step relation below asks for that); `ioRaises` is whether `io.open`
raises.  The `'open'` event has no subscriber the model keeps. -/
def «open» (ioRaises : Bool) (descriptor : Int) (s : ReadState) : Outcome ReadState ReadError :=
  if s.status ≠ .completed then (s, some (.cannotOpen s.status))
  else if ioRaises then (s, some .external)
  else (incrRefCount { s with rios := s.rios ++ [descriptor] }, none)

/-- `_checkStateAndDescriptor`: the exception it raises, if any. -/
def checkStateAndDescriptor (descriptor : Int) (s : ReadState) : Option ReadError :=
  if s.status ≠ .completed then some (.cannotRead s.status)
  else if descriptor ∉ s.rios then some (.illegalDescriptor descriptor)
  else none

/-- `AbstractDROP.read`; `ioRaises` is whether `io.read` raises.  The bytes read are left
out: reading changes no attribute. -/
def read (ioRaises : Bool) (descriptor : Int) (s : ReadState) : Outcome ReadState ReadError :=
  match checkStateAndDescriptor descriptor s with
  | some e => (s, some e)
  | none => (s, if ioRaises then some .external else none)

/-- `AbstractDROP.close`: the count is decremented and the descriptor popped before
`io.close` runs, so a raising `io.close` still releases the descriptor. -/
def close (ioRaises : Bool) (descriptor : Int) (s : ReadState) : Outcome ReadState ReadError :=
  match checkStateAndDescriptor descriptor s with
  | some e => (s, some e)
  | none =>
    let s := decrRefCount s
    ({ s with rios := s.rios.erase descriptor }, if ioRaises then some .external else none)

/-- One call on the DROP, returning or raising, or one assignment to its `status` (the
lifecycle transitions, made by `setCompleted`, `execute` or an external reaper). -/
inductive Step : ReadState → ReadState → Prop
  | «open» {s : ReadState} (ioRaises : Bool) (descriptor : Int) (fresh : descriptor ∉ s.rios) :
      Step s («open» ioRaises descriptor s).1
  | read {s : ReadState} (ioRaises : Bool) (descriptor : Int) : Step s (read ioRaises descriptor s).1
  | close {s : ReadState} (ioRaises : Bool) (descriptor : Int) :
      Step s (close ioRaises descriptor s).1
  | setStatus {s : ReadState} (value : DROPStates) : Step s { s with status := value }

/-! ## 1. What each call does -/

section Calls

variable {s : ReadState} {ioRaises : Bool} {d : Int}

theorem checkStateAndDescriptor_eq_none :
    checkStateAndDescriptor d s = none ↔ s.status = .completed ∧ d ∈ s.rios := by
  unfold checkStateAndDescriptor
  split_ifs <;> simp_all

@[simp] theorem read_state : (read ioRaises d s).1 = s := by
  unfold read; split <;> rfl

/-- **`close` on a COMPLETED DROP releases a live descriptor**, whether or not `io.close`
raises. -/
theorem close_of_live (hs : s.status = .completed) (hd : d ∈ s.rios) :
    close ioRaises d s =
      (⟨s.status, s.refCount - 1, s.rios.erase d⟩, if ioRaises then some .external else none) := by
  have : checkStateAndDescriptor d s = none := checkStateAndDescriptor_eq_none.2 ⟨hs, hd⟩
  simp [close, this, decrRefCount]

/-- **`close` on a DROP that is not COMPLETED raises and releases nothing.** -/
theorem close_of_not_completed (hs : s.status ≠ .completed) :
    close ioRaises d s = (s, some (.cannotRead s.status)) := by
  simp [close, checkStateAndDescriptor, hs]

end Calls

/-! ## 2. The count and the table agree -/

/-- The invariant of the descriptor table. -/
structure Consistent (s : ReadState) : Prop where
  refCount_eq : s.refCount = s.rios.length
  nodup : s.rios.Nodup

theorem Consistent.init (status : DROPStates) : Consistent (ReadState.init status) :=
  ⟨rfl, List.nodup_nil⟩

/-- **Every call and status assignment keeps the table consistent.** -/
theorem Consistent.step {s s' : ReadState} (hc : Consistent s) (h : Step s s') : Consistent s' := by
  cases h with
  | «open» ioRaises d fresh =>
    unfold «open»; split_ifs
    · exact hc
    · exact hc
    · exact ⟨by simp [incrRefCount, hc.refCount_eq], hc.nodup.append (List.nodup_singleton d)
        (List.disjoint_singleton.2 fresh)⟩
  | read => simpa using hc
  | close ioRaises d =>
    by_cases hok : s.status = .completed ∧ d ∈ s.rios
    · rw [close_of_live hok.1 hok.2]
      have hpos := List.length_pos_of_mem hok.2
      exact ⟨by simp [List.length_erase_of_mem hok.2, hc.refCount_eq]; omega, hc.nodup.erase d⟩
    · unfold close
      rw [← checkStateAndDescriptor_eq_none] at hok
      obtain ⟨e, he⟩ := Option.ne_none_iff_exists'.1 hok
      simpa [he] using hc
  | setStatus => exact ⟨hc.refCount_eq, hc.nodup⟩

theorem consistent_run {status : DROPStates} {s : ReadState}
    (h : Relation.ReflTransGen Step (ReadState.init status) s) : Consistent s := by
  induction h with
  | refl => exact Consistent.init status
  | tail _ hstep ih => exact ih.step hstep

/-! ## 3. A reader's round trip -/

section RoundTrip

variable {s : ReadState} {d : Int}

theorem foldl_read (reads : List Bool) (t : ReadState) :
    reads.foldl (fun t r => (read r d t).1) t = t := by
  induction reads generalizing t <;> simp [*]

/-- **`open(); read*; close()` on a COMPLETED DROP leaves it as it was**, whichever reads
and whether `io.close` raise. -/
theorem open_read_close (hs : s.status = .completed) (hd : d ∉ s.rios) (reads : List Bool)
    (ioRaises : Bool) :
    (close ioRaises d (reads.foldl (fun t r => (read r d t).1) («open» false d s).1)).1 = s := by
  have hopen : («open» false d s).1 = ⟨.completed, s.refCount + 1, s.rios ++ [d]⟩ := by
    simp [«open», hs, incrRefCount]
  rw [foldl_read, hopen, close_of_live rfl (by simp)]
  simp [List.erase_append_right _ hd, ← hs]

end RoundTrip

/-- **What reading keeps, over every run.**  After any sequence of calls and status
assignments: `refCount` is the number of live descriptors, which are pairwise distinct, so
`isBeingRead()` holds exactly when one is live; `close` releases a live descriptor if the
DROP is COMPLETED and raises, releasing nothing, otherwise; and on a COMPLETED DROP
`open(); read*; close()` leaves the state as it was. -/
theorem readers_run {status : DROPStates} {s : ReadState}
    (h : Relation.ReflTransGen Step (ReadState.init status) s) :
    s.refCount = s.rios.length ∧ s.rios.Nodup ∧ (isBeingRead s = true ↔ s.rios ≠ []) ∧
      (∀ d ∈ s.rios, ∀ ioRaises : Bool, close ioRaises d s =
        if s.status = .completed then
          (⟨s.status, s.refCount - 1, s.rios.erase d⟩, if ioRaises then some .external else none)
        else (s, some (.cannotRead s.status))) ∧
      (s.status = .completed → ∀ d ∉ s.rios, ∀ (reads : List Bool) (ioRaises : Bool),
        (close ioRaises d (reads.foldl (fun t r => (read r d t).1) («open» false d s).1)).1 = s) := by
  have hc := consistent_run h
  refine ⟨hc.refCount_eq, hc.nodup, ?_, fun d hd ioRaises => ?_,
    fun hs d hd => open_read_close hs hd⟩
  · simp [isBeingRead, hc.refCount_eq, List.length_pos]
  · by_cases hs : s.status = .completed
    · rw [if_pos hs, close_of_live hs hd]
    · rw [if_neg hs, close_of_not_completed hs]

/-- One reader opens descriptor 5 on a COMPLETED DROP; closing it gives the unopened DROP
back. -/
theorem readers_run_one_reader :
    Relation.ReflTransGen Step (ReadState.init .completed) ⟨.completed, 1, [5]⟩ ∧
      (close false 5 ⟨.completed, 1, [5]⟩).1 = ReadState.init .completed :=
  have h : Relation.ReflTransGen Step (ReadState.init .completed) ⟨.completed, 1, [5]⟩ :=
    .single (Step.open false 5 (List.not_mem_nil 5))
  ⟨h, by rw [(readers_run h).2.2.2.1 5 (List.mem_singleton_self 5) false]; rfl⟩

/-- **A descriptor opened before the DROP expires is never released.**  Open descriptor 0 on
a COMPLETED DROP, then let it expire: `close(0)` raises, and the count stays 1. -/
theorem descriptor_outlives_expiry :
    Relation.ReflTransGen Step (ReadState.init .completed) ⟨.expired, 1, [0]⟩ ∧
      close false 0 ⟨.expired, 1, [0]⟩ = (⟨.expired, 1, [0]⟩, some (.cannotRead .expired)) :=
  ⟨.tail (.single (Step.open false 0 (List.not_mem_nil 0))) (Step.setStatus .expired), rfl⟩

end Dfms.Readers

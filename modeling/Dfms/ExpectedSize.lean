/-
# Successive writes against `expectedSize`

After each call, `write` (`drop.py`, lines 328-380) compares the size written so far with
`expectedSize`, and once it has been reached calls `setCompleted` (lines 764-785);
`__init__` keeps `expectedSize` only if it was given and is truthy (lines 194-198).  Here a
DROP receives nothing but writes, each persisting the count its I/O layer returns:

* with a positive `expectedSize` `E`, a write is accepted exactly while the counts
  before it sum to less than `E`, and leaves the DROP COMPLETED once they reach `E`, WRITING
  before; every later write is refused with "No more writing expected";
* with no positive `expectedSize`, every write is accepted and leaves the DROP WRITING
  (`writes_complete_at_expected_size`).

The proof is one invariant over the writes, `Progress`: short of `E`, a writable DROP
whose size is the sum so far; past it, a COMPLETED one.
-/
import Dfms.Drop
import Mathlib.Algebra.Order.Ring.Nat

namespace Dfms

/-- An I/O layer that persists `n` bytes and raises nothing, with streaming consumers that
return. -/
def persisting (n : Nat) : WriteEnv := ⟨false, some n, fun _ => false⟩

/-- `drop.write(data)` for each `(data, n)` in turn, the I/O layer persisting `n` bytes; a
call that raises leaves the DROP as it was. -/
def writeEach (poly : UInt32) (ws : List (Bytes × Nat)) (s : DataDrop) : DataDrop :=
  ws.foldl (fun s w => (write poly (persisting w.2) w.1 s).1) s

/-! ## 1. One write -/

section One

variable {poly : UInt32} {data : Bytes} {n : Nat} {s : DataDrop}

/-- A DROP past WRITING refuses the write and is left as it was. -/
theorem write_of_not_writable {env : WriteEnv} (hs : s.status.isWritable = false) :
    write poly env data s = (s, some .noMoreWriting) := by
  simp [write, writeCheck, hs]

/-- **One persisted write on a writable DROP**: it returns, adds `n` to the size, and leaves
the DROP COMPLETED if a positive `expectedSize` has been reached, WRITING otherwise. -/
theorem write_persisting (hs : s.status.isWritable) :
    (write poly (persisting n) data s).2 = none ∧
      (write poly (persisting n) data s).1.size = some (s.size.getD 0 + n) ∧
      (write poly (persisting n) data s).1.expectedSize = s.expectedSize ∧
      (write poly (persisting n) data s).1.status =
        if 0 < s.expectedSize ∧ s.expectedSize ≤ ↑(s.size.getD 0 + n) then .completed
        else .writing := by
  simp [write, writeCheck, writeBody, writeFinish, persisting, hs, callEach_of_none_raise]
  split_ifs <;> simp [setStatus_eq, setCompleted, hs, callEach_of_none_raise] <;> omega

end One

/-! ## 2. Every sequence of writes -/

/-- Where writes whose counts sum to `k` have left a DROP with a positive `expectedSize`
`E`: short of `E`, writable with size `k`; past it, COMPLETED. -/
def Progress (E : Int) (k : Nat) (s : DataDrop) : Prop :=
  s.expectedSize = E ∧
    ((k : Int) < E ∧ s.status.isWritable ∧ s.size.getD 0 = k ∨ E ≤ k ∧ s.status = .completed)

section Run

variable {poly : UInt32} {E : Int} {k : Nat} {s : DataDrop}

theorem Progress.init (hE : 0 < E) (streamingConsumers producers : List Uid) :
    Progress E 0 (DataDrop.init (some E) streamingConsumers producers) :=
  ⟨by simp only [DataDrop.init]; split_ifs <;> omega, .inl ⟨hE, rfl, rfl⟩⟩

theorem Progress.write (h : Progress E k s) (hE : 0 < E) (data : Bytes) (n : Nat) :
    Progress E (k + n) (write poly (persisting n) data s).1 := by
  obtain ⟨hexp, ⟨hlt, hs, hsize⟩ | ⟨hge, hs⟩⟩ := h
  · obtain ⟨-, hsize', hexp', hstatus⟩ := @write_persisting poly data n s hs
    refine ⟨hexp'.trans hexp, ?_⟩
    rw [hstatus, hsize', hexp, hsize]
    split_ifs with hk
    · exact .inr ⟨hk.2, rfl⟩
    · exact .inl ⟨by omega, rfl, rfl⟩
  · rw [write_of_not_writable (by simp [hs])]
    exact ⟨hexp, .inr ⟨by omega, hs⟩⟩

theorem Progress.writeEach (h : Progress E k s) (hE : 0 < E) (ws : List (Bytes × Nat)) :
    Progress E (k + (ws.map Prod.snd).sum) (writeEach poly ws s) := by
  induction ws generalizing k s with
  | nil => exact h
  | cons w ws ih =>
    have := ih (@Progress.write poly E k s h hE w.1 w.2)
    rwa [List.map_cons, List.sum_cons, ← Nat.add_assoc]

/-- With no positive `expectedSize`, every write leaves the DROP writable. -/
theorem writeEach_of_nonpos (hE : s.expectedSize ≤ 0) (hs : s.status.isWritable)
    (ws : List (Bytes × Nat)) :
    (writeEach poly ws s).expectedSize ≤ 0 ∧ (writeEach poly ws s).status.isWritable := by
  induction ws generalizing s with
  | nil => exact ⟨hE, hs⟩
  | cons w ws ih =>
    obtain ⟨-, -, hexp, hstatus⟩ := @write_persisting poly w.1 w.2 s hs
    refine ih (hexp ▸ hE) ?_
    rw [hstatus, if_neg fun h => absurd h.1 (by omega)]
    rfl

end Run

/-- **Writes complete a DROP exactly when they reach `expectedSize`.**  Take a fresh DROP,
with any streaming consumers (whose callbacks return) and producers, and any writes, the
I/O layer of each persisting its count `n`, and nothing else in between.  With a positive
`expectedSize` `E`, the write after those whose counts sum to `k` returns exactly when
`k < E`, and is refused with "No more writing expected" otherwise; a write that returns
leaves the DROP COMPLETED if `k + n ≥ E` and WRITING if not.  With no positive
`expectedSize`, every write returns and leaves the DROP WRITING. -/
theorem writes_complete_at_expected_size (poly : UInt32) (streamingConsumers producers : List Uid)
    (ws : List (Bytes × Nat)) (data : Bytes) (n : Nat) :
    (∀ E : Int, 0 < E →
      (write poly (persisting n) data
          (writeEach poly ws (DataDrop.init (some E) streamingConsumers producers))).2 =
        (if ((ws.map Prod.snd).sum : Int) < E then none else some .noMoreWriting) ∧
      (((ws.map Prod.snd).sum : Int) < E →
        (write poly (persisting n) data
          (writeEach poly ws (DataDrop.init (some E) streamingConsumers producers))).1.status =
          if E ≤ ((ws.map Prod.snd).sum + n : Nat) then .completed else .writing)) ∧
    ∀ expectedSize : Option Int, (∀ E, expectedSize = some E → E ≤ 0) →
      (write poly (persisting n) data
          (writeEach poly ws (DataDrop.init expectedSize streamingConsumers producers))).2 =
        none ∧
      (write poly (persisting n) data
          (writeEach poly ws (DataDrop.init expectedSize streamingConsumers producers))).1.status =
        .writing := by
  refine ⟨fun E hE => ?_, fun expectedSize hE => ?_⟩
  · obtain ⟨hexp, ⟨hlt, hs, hsize⟩ | ⟨hge, hs⟩⟩ :=
      @Progress.writeEach poly E 0 _ (Progress.init hE streamingConsumers producers) hE ws
    · obtain ⟨hret, -, -, hstatus⟩ := @write_persisting poly data n _ hs
      rw [Nat.zero_add] at hlt hsize
      rw [hret, if_pos hlt, hstatus, hexp, hsize]
      exact ⟨rfl, fun _ => if_congr ⟨fun h => h.2, fun h => ⟨hE, h⟩⟩ rfl rfl⟩
    · rw [Nat.zero_add] at hge
      rw [write_of_not_writable (by simp [hs]), if_neg (by omega)]
      exact ⟨rfl, fun h => absurd h (by omega)⟩
  · have hinit : (DataDrop.init expectedSize streamingConsumers producers).expectedSize ≤ 0 := by
      cases expectedSize with
      | none => simp [DataDrop.init]
      | some e => simp only [DataDrop.init]; split_ifs <;> simp [hE e rfl]
    obtain ⟨hexp, hs⟩ := @writeEach_of_nonpos poly _ hinit rfl ws
    obtain ⟨hret, -, -, hstatus⟩ := @write_persisting poly data n _ hs
    exact ⟨hret, hstatus.trans (if_neg fun h => absurd h.1 (by omega))⟩

/-- `expectedSize` 4 and two writes of two bytes: the second reaches 4 and completes the
DROP. -/
theorem writes_complete_at_expected_size_two_halves :
    (write 0 (persisting 2) [99, 100]
      (writeEach 0 [([97, 98], 2)] (DataDrop.init (some 4) [] []))).1.status = .completed := by
  have h := ((writes_complete_at_expected_size 0 [] [] [([97, 98], 2)] [99, 100] 2).1 4
    (by decide)).2 (by decide)
  rw [h]
  rfl

end Dfms

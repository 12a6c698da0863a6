/-
# Threads: the unlocked check-then-act sequences

Three places where `drop.py` reads shared state and acts on it in separate statements, with
no lock held across them:

* `BarrierAppDROP.dropCompleted` appends the uid, then compares the length of
  `_completedInputs` with the number of inputs (lines 1157-1164);
* `producerFinished` counts and adds under `_finishedProducersLock`, then compares the count
  it took with the number of producers after releasing it (lines 699-724);
* `write` checks the status, then writes, then sets the status (lines 328-380), while
  `setCompleted` may run in between (lines 764-785).

Each is modelled by threads with a program counter each, running the pieces of
`Drop.lean` as atomic steps, and a schedule: the list of threads in the order they take a
step.  A thread that has finished takes no step.

For each, what every schedule keeps and what one schedule breaks:

* a barrier's launches all see every input, and once every thread is done one has launched
  (`barrier_launch_sees_every_input`); threads run one at a time, in any order, launch once
  (`barrier_one_thread_at_a_time_launches_once`), but two threads may both launch
  (`barrier_both_threads_launch`);
* reports of distinct producers complete the DROP at most once, with every producer in
  `finishedProducers` (`distinct_reports_complete_once`); one producer reported twice
  completes it early (`repeated_producer_completes_drop`);
* method calls one after another leave a COMPLETED DROP completed, with its size and
  checksum (`completed_drop_stays_completed`); a `write` whose status check ran before
  `setCompleted` reopens it (`write_reopens_completed_drop`).  Along such calls a size and a
  checksum computed by `write` stay, and their setters refuse to overwrite them
  (`computed_size_checksum_refuse_setters`).

The threads' steps are the pieces of `Drop.lean` themselves, so a schedule that runs each
thread to its end before the next starts is the sequence of calls `Drop.lean` makes
(`sequential_schedule_is_producerFinished`, `sequential_schedule_is_sequential_calls`):
what the sequential results say of the methods holds of such schedules.
-/
import Dfms.Drop
import Mathlib.Data.List.Nodup

namespace Dfms.Interleave

/-! ## 1. `BarrierAppDROP.dropCompleted` on one thread per input -/

/-- Where the thread delivering one input's `dropCompleted` is. -/
inductive BarrierPc
  | ready
  | appended
  | done
  deriving DecidableEq, Repr

/-- A barrier's `_completedInputs`, the program counter of the thread delivering each
input's completion, and `_completedInputs` as it stood each time `execute` was started. -/
structure BarrierRun where
  inputs : List Uid
  completedInputs : List Uid
  pc : Uid → BarrierPc
  launches : List (List Uid)

/-- A barrier with the given inputs before any completes: one thread per input, ready. -/
def BarrierRun.init (inputs : List Uid) : BarrierRun := ⟨inputs, [], fun _ => .ready, []⟩

/-- Thread `t`, delivering input `t`'s completion, takes one step. -/
def BarrierRun.step (s : BarrierRun) (t : Uid) : BarrierRun :=
  if t ∉ s.inputs then s
  else
    match s.pc t with
    | .ready => { s with completedInputs := barrierAppend s.completedInputs t,
                         pc := Function.update s.pc t .appended }
    | .appended =>
      { s with pc := Function.update s.pc t .done,
               launches := if barrierReady s.completedInputs s.inputs
                 then s.launches ++ [s.completedInputs] else s.launches }
    | .done => s

/-- The state after the threads step in the order of `schedule`. -/
def BarrierRun.run (s : BarrierRun) (schedule : List Uid) : BarrierRun := schedule.foldl step s

/-- **Two inputs completed on two threads can start `execute` twice.**  Both threads
append before either compares; each then sees two completed inputs of two. -/
theorem barrier_both_threads_launch :
    ((BarrierRun.init [0, 1]).run [0, 1, 0, 1]).launches = [[0, 1], [0, 1]] := by
  decide

/-- What one notification thread's step keeps: the completed inputs are those whose thread
has appended, once each; every start of `execute` saw every input; and once every thread has
appended, one is still to compare or `execute` has started. -/
structure BarrierRun.Inv (s : BarrierRun) : Prop where
  nodup : s.completedInputs.Nodup
  mem_iff : ∀ t, t ∈ s.completedInputs ↔ t ∈ s.inputs ∧ s.pc t ≠ .ready
  launches : ∀ l ∈ s.launches, ∀ i ∈ s.inputs, i ∈ l
  progress : (∀ t ∈ s.inputs, s.pc t ≠ .ready) →
    (∃ t ∈ s.inputs, s.pc t = .appended) ∨ s.launches ≠ []

section Barrier

variable {s : BarrierRun}

theorem BarrierRun.Inv.init {inputs : List Uid} (hne : inputs ≠ []) :
    (BarrierRun.init inputs).Inv := by
  obtain ⟨t, ht⟩ := List.exists_mem_of_ne_nil _ hne
  exact ⟨List.nodup_nil, fun t => by simp [BarrierRun.init], fun l hl => (List.not_mem_nil l hl).elim,
    fun hall => absurd rfl (hall t ht)⟩

/-- The count reaches the number of inputs exactly when every thread has appended. -/
theorem BarrierRun.Inv.length_eq_iff (h : s.Inv) (hnd : s.inputs.Nodup) :
    s.completedInputs.length = s.inputs.length ↔ ∀ t ∈ s.inputs, s.pc t ≠ .ready := by
  have hsub : s.completedInputs ⊆ s.inputs := fun t ht => ((h.mem_iff t).1 ht).1
  constructor
  · intro hlen t ht
    have hperm := (List.subperm_of_subset h.nodup hsub).perm_of_length_le (Nat.le_of_eq hlen.symm)
    exact ((h.mem_iff t).1 (hperm.mem_iff.2 ht)).2
  · intro hall
    exact ((List.perm_ext_iff_of_nodup h.nodup hnd).2 fun t =>
      ⟨fun ht => hsub ht, fun ht => (h.mem_iff t).2 ⟨ht, hall t ht⟩⟩).length_eq

@[simp] theorem BarrierRun.step_inputs (t : Uid) : (s.step t).inputs = s.inputs := by
  unfold BarrierRun.step
  by_cases ht : t ∈ s.inputs
  · rw [if_neg (not_not.2 ht)]; split <;> rfl
  · rw [if_pos ht]

theorem BarrierRun.Inv.step (h : s.Inv) (hnd : s.inputs.Nodup) (t : Uid) : (s.step t).Inv := by
  unfold BarrierRun.step
  by_cases ht : t ∈ s.inputs
  swap
  · rw [if_pos ht]; exact h
  rw [if_neg (not_not.2 ht)]
  split
  next hr =>
    refine ⟨h.nodup.append (List.nodup_singleton t) (List.disjoint_singleton.2 fun hm =>
        ((h.mem_iff t).1 hm).2 hr), fun x => ?_, h.launches, fun _ => .inl ⟨t, ht, by simp⟩⟩
    by_cases hx : x = t
    · subst hx; simp [barrierAppend, ht]
    · simp [barrierAppend, hx, h.mem_iff x]
  next ha =>
    have hmem : ∀ x, x ∈ s.completedInputs ↔
        x ∈ s.inputs ∧ Function.update s.pc t .done x ≠ .ready := fun x => by
      by_cases hx : x = t
      · subst hx; simp [h.mem_iff, ha, ht]
      · simp [hx, h.mem_iff x]
    have hpc : ∀ x ∈ s.inputs, Function.update s.pc t .done x ≠ .ready ↔ s.pc x ≠ .ready :=
      fun x _ => by rw [← (h.mem_iff x).trans (and_iff_right ‹_›), hmem x, and_iff_right ‹_›]
    refine ⟨h.nodup, hmem, fun l hl => ?_, fun hall => ?_⟩
    · split_ifs at hl with hready
      · rcases List.mem_append.1 hl with hl | hl
        · exact h.launches l hl
        · rw [List.mem_singleton.1 hl]
          rw [barrierReady, beq_iff_eq] at hready
          exact fun i hi => (h.mem_iff i).2 ⟨hi, (h.length_eq_iff hnd).1 hready i hi⟩
      · exact h.launches l hl
    · have hready : barrierReady s.completedInputs s.inputs = true := by
        rw [barrierReady, beq_iff_eq, h.length_eq_iff hnd]
        exact fun x hx => (hpc x hx).1 (hall x hx)
      exact .inr (by simp [hready])
  next => exact h

theorem BarrierRun.Inv.run (h : s.Inv) (hnd : s.inputs.Nodup) (schedule : List Uid) :
    (s.run schedule).Inv ∧ (s.run schedule).inputs = s.inputs := by
  induction schedule generalizing s with
  | nil => exact ⟨h, rfl⟩
  | cons t schedule ih =>
    obtain ⟨h', he⟩ := ih (h.step hnd t) (by simpa using hnd)
    exact ⟨h', he.trans (BarrierRun.step_inputs t)⟩

/-- **Every start of `execute` sees every input, and the last thread to compare starts
it.**  Whatever the interleaving of the notification threads of a barrier with distinct
inputs, `execute` is only started on a comparison that counted all of them, and once every
thread has finished it has been started at least once. -/
theorem barrier_launch_sees_every_input {inputs : List Uid} (hnd : inputs.Nodup)
    (hne : inputs ≠ []) (schedule : List Uid) :
    (∀ l ∈ ((BarrierRun.init inputs).run schedule).launches, ∀ i ∈ inputs, i ∈ l) ∧
      ((∀ t ∈ inputs, ((BarrierRun.init inputs).run schedule).pc t = .done) →
        ((BarrierRun.init inputs).run schedule).launches ≠ []) := by
  obtain ⟨h, he⟩ := (BarrierRun.Inv.init hne).run hnd schedule
  have he : ((BarrierRun.init inputs).run schedule).inputs = inputs := he
  refine ⟨fun l hl => he ▸ h.launches l hl, fun hall => ?_⟩
  rcases h.progress (fun t ht => by simp [hall t (he ▸ ht)]) with ⟨t, ht, hpc⟩ | hl
  · simp [hall t (he ▸ ht)] at hpc
  · exact hl

/-- Two inputs completed one after the other: `execute` is started, after both. -/
theorem barrier_launch_sees_every_input_sequential :
    ((BarrierRun.init [0, 1]).run [0, 0, 1, 1]).launches ≠ [] :=
  (barrier_launch_sees_every_input (by decide) (by decide) [0, 0, 1, 1]).2 (by decide)

theorem BarrierRun.pc_step_of_ne {t u : Uid} (h : u ≠ t) : (s.step t).pc u = s.pc u := by
  unfold BarrierRun.step; split
  · rfl
  · split <;> first | rfl | exact Function.update_noteq h _ _

/-- Threads that each append and compare back to back: every one appends its input, and
only the last comparison finds every input counted. -/
theorem BarrierRun.run_one_at_a_time (rest : List Uid) (hnd : rest.Nodup)
    (hrest : ∀ t ∈ rest, t ∈ s.inputs ∧ s.pc t = .ready)
    (hlen : s.completedInputs.length + rest.length = s.inputs.length) :
    (s.run (rest.flatMap fun t => [t, t])).completedInputs = s.completedInputs ++ rest ∧
      (s.run (rest.flatMap fun t => [t, t])).launches =
        if rest = [] then s.launches else s.launches ++ [s.completedInputs ++ rest] := by
  induction rest generalizing s with
  | nil => simp [BarrierRun.run]
  | cons t rest ih =>
    obtain ⟨ht, hnd⟩ := List.nodup_cons.1 hnd
    obtain ⟨hin, hpc⟩ := hrest t (.head _)
    have hready : barrierReady (s.completedInputs ++ [t]) s.inputs = true ↔ rest = [] := by
      rw [← List.length_eq_zero]
      simp only [List.length_cons] at hlen
      simp only [barrierReady, beq_iff_eq, List.length_append, List.length_singleton]
      omega
    have hci : ((s.step t).step t).completedInputs = s.completedInputs ++ [t] := by
      simp [BarrierRun.step, hin, hpc, barrierAppend]
    have hl : ((s.step t).step t).launches =
        if rest = [] then s.launches ++ [s.completedInputs ++ [t]] else s.launches := by
      simp only [BarrierRun.step, hin, hpc, not_true_eq_false, if_false, Function.update_same,
        barrierAppend, ← hready]
    obtain ⟨ih1, ih2⟩ := ih (s := (s.step t).step t) hnd (fun u hu => by
        have hut := ne_of_mem_of_not_mem hu ht
        rw [BarrierRun.step_inputs, BarrierRun.step_inputs, BarrierRun.pc_step_of_ne hut,
          BarrierRun.pc_step_of_ne hut]
        exact hrest u (.tail _ hu))
      (by simp only [hci, BarrierRun.step_inputs, List.length_append, List.length_cons,
            List.length_nil] at hlen ⊢
          omega)
    simp only [BarrierRun.run, List.flatMap_cons, List.foldl_append, List.foldl_cons,
      List.foldl_nil] at ih1 ih2 ⊢
    rw [ih1, ih2, hci, hl]
    by_cases hr : rest = [] <;> simp [hr]

/-- **Delivered one at a time, the inputs start `execute` exactly once**, whatever the order
of the threads: on the comparison of the last thread, with every input counted, in the order
the threads appended them.  What goes wrong in `barrier_both_threads_launch` needs two
threads between one append and its comparison. -/
theorem barrier_one_thread_at_a_time_launches_once {inputs order : List Uid}
    (hnd : inputs.Nodup) (hne : inputs ≠ []) (hperm : order.Perm inputs) :
    ((BarrierRun.init inputs).run (order.flatMap fun t => [t, t])).launches = [order] := by
  have ho : order ≠ [] := by rintro rfl; exact hne (List.nil_perm.1 hperm)
  have h := (BarrierRun.run_one_at_a_time (s := BarrierRun.init inputs) order
    (hperm.nodup_iff.2 hnd) (fun t ht => ⟨hperm.subset ht, rfl⟩)
    (by simp [BarrierRun.init, hperm.length_eq])).2
  simpa [BarrierRun.init, ho] using h

/-- Inputs 0 and 1, the thread of 1 to its end before the thread of 0: `execute` starts
once, having counted `[1, 0]`. -/
theorem barrier_one_thread_at_a_time_launches_once_two_inputs :
    [1, 0].Perm [0, 1] ∧ ((BarrierRun.init [0, 1]).run [1, 1, 0, 0]).launches = [[1, 0]] :=
  ⟨by decide,
    @barrier_one_thread_at_a_time_launches_once [0, 1] [1, 0] (by decide) (by decide) (by decide)⟩

end Barrier

/-! ## 2. `producerFinished` -/

/-- Where the thread reporting one producer's finish is. -/
inductive FinishPc
  | ready
  /-- Past the locked block, having counted `nFinished` finished producers. -/
  | locked (nFinished : Nat)
  | done
  deriving DecidableEq, Repr

/-- A DROP, the threads calling `producerFinished` on it (thread `i` reports `calls[i]`),
their program counters, and `finishedProducers` as it stood each time one of them called
`setCompleted`. -/
structure FinishRun where
  drop : DataDrop
  calls : List Uid
  pc : Nat → FinishPc
  completions : List (List Uid)

/-- No thread has started. -/
def FinishRun.init (drop : DataDrop) (calls : List Uid) : FinishRun :=
  ⟨drop, calls, fun _ => .ready, []⟩

/-- Thread `i` takes one step: the locked block, then the comparison and `setCompleted`. -/
def FinishRun.step (raises : Streamed → Bool) (s : FinishRun) (i : Nat) : FinishRun :=
  match s.calls[i]?, s.pc i with
  | some uid, .ready =>
    match producerFinishedLocked uid s.drop with
    | .error _ => { s with pc := Function.update s.pc i .done }
    | .ok (nFinished, drop) => { s with drop := drop, pc := Function.update s.pc i (.locked nFinished) }
  | some _, .locked nFinished =>
    { s with drop := (producerFinishedTail raises nFinished s.drop).1,
             pc := Function.update s.pc i .done,
             completions := if lastProducer nFinished s.drop
               then s.completions ++ [s.drop.finishedProducers] else s.completions }
  | _, _ => s

/-- The state after the threads step in the order of `schedule`. -/
def FinishRun.run (raises : Streamed → Bool) (s : FinishRun) (schedule : List Nat) : FinishRun :=
  schedule.foldl (step raises) s

/-- What the reporting threads keep when they report distinct producers: the set holds the
uids of the threads past their locked block, once each; the counts those threads took are
distinct and below the set's size; and `setCompleted` has been called at most once, on the
full set, after which no thread is left holding the last count. -/
structure FinishRun.Inv (P : List Uid) (s : FinishRun) : Prop where
  producers_eq : s.drop.producers = P
  nodup : s.drop.finishedProducers.Nodup
  mem_iff : ∀ p, p ∈ s.drop.finishedProducers ↔ ∃ i, s.calls[i]? = some p ∧ s.pc i ≠ .ready
  locked_lt : ∀ i n, s.pc i = .locked n → n < s.drop.finishedProducers.length
  locked_inj : ∀ i j n, s.pc i = .locked n → s.pc j = .locked n → i = j
  completions : s.completions = [] ∨ (s.completions = [s.drop.finishedProducers] ∧
    s.drop.finishedProducers.length = P.length ∧ ∀ i, s.pc i ≠ .locked (P.length - 1))

section Finish

variable {P : List Uid} {s : FinishRun} {raises : Streamed → Bool}

theorem thread_eq_of_call {calls : List Uid} (hc : calls.Nodup) {i j : Nat} {p : Uid}
    (hi : calls[i]? = some p) (hj : calls[j]? = some p) : i = j :=
  List.getElem?_inj (List.getElem?_eq_some_iff.1 hi).1 hc (hi.trans hj.symm)

@[simp] theorem FinishRun.step_calls (i : Nat) : (s.step raises i).calls = s.calls := by
  unfold FinishRun.step; split
  · split <;> rfl
  · rfl
  · rfl

@[simp] theorem FinishRun.run_calls (schedule : List Nat) :
    (s.run raises schedule).calls = s.calls := by
  induction schedule generalizing s with
  | nil => rfl
  | cons i schedule ih => exact ih.trans (FinishRun.step_calls i)

theorem FinishRun.Inv.mem_calls (h : s.Inv P) {p : Uid} (hp : p ∈ s.drop.finishedProducers) :
    p ∈ s.calls := by
  obtain ⟨i, hi, -⟩ := (h.mem_iff p).1 hp
  exact List.getElem?_mem hi

theorem FinishRun.Inv.finished_subset (h : s.Inv P) (hsub : ∀ u ∈ s.calls, u ∈ P) :
    s.drop.finishedProducers ⊆ P := fun p hp => hsub p (h.mem_calls hp)

/-- A thread still to report finds the set short of its producer. -/
theorem FinishRun.Inv.length_lt (h : s.Inv P) (hc : s.calls.Nodup) (hsub : ∀ u ∈ s.calls, u ∈ P)
    {i : Nat} {uid : Uid} (hi : s.calls[i]? = some uid) (hpc : s.pc i = .ready) :
    uid ∉ s.drop.finishedProducers ∧ s.drop.finishedProducers.length < P.length := by
  have hnot : ∀ p ∈ s.drop.finishedProducers, p ≠ uid := fun p hp hpu => by
    obtain ⟨j, hj, hpj⟩ := (h.mem_iff p).1 hp
    exact hpj (thread_eq_of_call hc hj (hpu ▸ hi) ▸ hpc)
  have huid := List.getElem?_mem hi
  have h1 : s.drop.finishedProducers.length ≤ (s.calls.erase uid).length :=
    (List.subperm_of_subset h.nodup fun p hp =>
      (List.mem_erase_of_ne (hnot p hp)).2 (h.mem_calls hp)).length_le
  have h2 : s.calls.length ≤ P.length := (List.subperm_of_subset hc hsub).length_le
  rw [List.length_erase_of_mem huid] at h1
  have := List.length_pos_of_mem huid
  exact ⟨fun hm => hnot uid hm rfl, by omega⟩

/-- Where a thread is after thread `i` moves: where `i` went, or where it was. -/
theorem update_pc_eq {pc : Nat → FinishPc} {i j : Nat} {v w : FinishPc}
    (h : Function.update pc i v j = w) : j = i ∧ v = w ∨ j ≠ i ∧ pc j = w := by
  by_cases hji : j = i
  · subst hji; exact .inl ⟨rfl, by simpa using h⟩
  · exact .inr ⟨hji, by rwa [Function.update_noteq hji] at h⟩

/-- **The locked block of a thread still to report keeps the invariant**: it adds the
thread's producer and takes the count before it, which no other locked thread holds. -/
theorem FinishRun.Inv.lock (h : s.Inv P) (hc : s.calls.Nodup) (hsub : ∀ u ∈ s.calls, u ∈ P)
    {i : Nat} {uid : Uid} (hci : s.calls[i]? = some uid) (hpc : s.pc i = .ready) :
    (s.step raises i).Inv P := by
  obtain ⟨hnotin, hlt⟩ := h.length_lt hc hsub hci hpc
  have hprod : uid ∈ s.drop.producers := by
    rw [h.producers_eq]; exact hsub uid (List.getElem?_mem hci)
  have hge : ¬ s.drop.finishedProducers.length ≥ s.drop.producers.length := by
    rw [h.producers_eq]; omega
  have hlock : producerFinishedLocked uid s.drop = .ok (s.drop.finishedProducers.length,
      { s.drop with finishedProducers := s.drop.finishedProducers ++ [uid] }) := by
    simp [producerFinishedLocked, hprod, hge, setAdd, hnotin]
  simp only [FinishRun.step, hci, hpc, hlock]
  refine ⟨h.producers_eq, h.nodup.append (List.nodup_singleton uid)
    (List.disjoint_singleton.2 hnotin), fun p => ?_, fun j n hj => ?_,
    fun j j' n hj hj' => ?_, ?_⟩
  · simp only [List.mem_append, List.mem_singleton]
    constructor
    · rintro (hp | rfl)
      · obtain ⟨j, hj, hpj⟩ := (h.mem_iff p).1 hp
        exact ⟨j, hj, fun hr => (update_pc_eq hr).elim (fun h' => by cases h'.2) (hpj ·.2)⟩
      · exact ⟨i, hci, by simp⟩
    · rintro ⟨j, hj, hpj⟩
      by_cases hji : j = i
      · subst hji
        rw [hci] at hj
        exact .inr (Option.some.inj hj).symm
      · rw [Function.update_noteq hji] at hpj
        exact .inl ((h.mem_iff p).2 ⟨j, hj, hpj⟩)
  · rw [List.length_append, List.length_singleton]
    rcases update_pc_eq hj with ⟨-, hn⟩ | ⟨-, hj⟩
    · cases hn; omega
    · exact Nat.lt_succ_of_lt (h.locked_lt j n hj)
  · rcases update_pc_eq hj with ⟨hji, hn⟩ | ⟨hji, hj⟩ <;>
      rcases update_pc_eq hj' with ⟨hj'i, hn'⟩ | ⟨hj'i, hj'⟩
    · exact hji.trans hj'i.symm
    · cases hn; exact absurd (h.locked_lt j' _ hj') (lt_irrefl _)
    · cases hn'; exact absurd (h.locked_lt j _ hj) (lt_irrefl _)
    · exact h.locked_inj j j' n hj hj'
  · rcases h.completions with h0 | ⟨-, hfull, -⟩
    · exact .inl h0
    · exact absurd hfull (by omega)

/-- **The comparison after the locked block keeps the invariant**: the thread holding the
count one short of the producers is the only one, so it completes the DROP, once, on the
full set. -/
theorem FinishRun.Inv.finish (h : s.Inv P) (hsub : ∀ u ∈ s.calls, u ∈ P) {i n : Nat}
    {uid : Uid} (hci : s.calls[i]? = some uid) (hpc : s.pc i = .locked n) :
    (s.step raises i).Inv P := by
  have htail : (producerFinishedTail raises n s.drop).1.finishedProducers =
      s.drop.finishedProducers ∧
      (producerFinishedTail raises n s.drop).1.producers = s.drop.producers := by
    unfold producerFinishedTail; split_ifs
    · exact ⟨setCompleted_finishedProducers, (evolves_setCompleted raises s.drop).producers_eq⟩
    · exact ⟨rfl, rfl⟩
  have hdone : ∀ j m, Function.update s.pc i .done j = .locked m → j ≠ i ∧ s.pc j = .locked m :=
    fun j m hj => (update_pc_eq hj).resolve_left fun h' => by cases h'.2
  simp only [FinishRun.step, hci, hpc]
  refine ⟨htail.2.trans h.producers_eq, htail.1 ▸ h.nodup, fun p => ?_,
    fun j m hj => htail.1 ▸ h.locked_lt j m (hdone j m hj).2,
    fun j j' m hj hj' => h.locked_inj j j' m (hdone j m hj).2 (hdone j' m hj').2, ?_⟩
  · dsimp only
    rw [htail.1, h.mem_iff]
    refine exists_congr fun j => and_congr_right fun _ => ?_
    by_cases hji : j = i
    · subst hji; simp [hpc]
    · rw [Function.update_noteq hji]
  · have hno : ∀ m, (∀ j, s.pc j ≠ .locked m ∨ j = i) →
        ∀ j, Function.update s.pc i .done j ≠ .locked m := fun m hm j hj =>
      (hm j).elim (fun h' => h' (hdone j m hj).2) (hdone j m hj).1
    rw [htail.1]
    simp only [lastProducer, beq_iff_eq, h.producers_eq]
    split_ifs with hn
    · have hlast : s.pc i = .locked (P.length - 1) := by rw [hpc]; congr 1; omega
      rcases h.completions with h0 | ⟨-, -, hno'⟩
      · refine .inr ⟨by rw [h0]; rfl, ?_, hno _ fun j => ?_⟩
        · have := h.locked_lt i n hpc
          have := (List.subperm_of_subset h.nodup (h.finished_subset hsub)).length_le
          omega
        · by_cases hji : j = i
          · exact .inr hji
          · exact .inl fun hj => hji (h.locked_inj j i _ hj hlast)
      · exact absurd hlast (hno' i)
    · rcases h.completions with h0 | ⟨h1, h2, hlast⟩
      · exact .inl h0
      · exact .inr ⟨h1, h2, hno _ fun j => .inl (hlast j)⟩

/-- **One thread's step keeps the invariant.** -/
theorem FinishRun.Inv.step (h : s.Inv P) (hc : s.calls.Nodup) (hsub : ∀ u ∈ s.calls, u ∈ P)
    (i : Nat) : (s.step raises i).Inv P := by
  cases hci : s.calls[i]? with
  | none => simpa [FinishRun.step, hci] using h
  | some uid =>
    cases hpc : s.pc i with
    | ready => exact h.lock hc hsub hci hpc
    | locked n => exact h.finish hsub hci hpc
    | done => simpa [FinishRun.step, hci, hpc] using h

theorem FinishRun.Inv.run (h : s.Inv P) (hc : s.calls.Nodup) (hsub : ∀ u ∈ s.calls, u ∈ P)
    (schedule : List Nat) : (s.run raises schedule).Inv P := by
  induction schedule generalizing s with
  | nil => exact h
  | cons i schedule ih =>
    exact ih (h.step hc hsub i) (by simpa using hc) (by simpa using hsub)

/-- **Reports of distinct producers complete the DROP at most once, on the full set.**
Whatever the interleaving of their locked blocks and comparisons, threads calling
`producerFinished` with distinct registered producers call `setCompleted` at most once,
and only when every producer is in `finishedProducers`: the lock makes the counts distinct.
What breaks it is a repeated report (`repeated_producer_completes_drop`). -/
theorem distinct_reports_complete_once (raises : Streamed → Bool) (expectedSize : Option Int)
    (streamingConsumers : List Uid) {producers calls : List Uid} (hc : calls.Nodup)
    (hsub : ∀ u ∈ calls, u ∈ producers) (schedule : List Nat) :
    ((FinishRun.init (DataDrop.init expectedSize streamingConsumers producers) calls).run raises
        schedule).completions.length ≤ 1 ∧
      ∀ l ∈ ((FinishRun.init (DataDrop.init expectedSize streamingConsumers producers) calls).run
        raises schedule).completions, ∀ p ∈ producers, p ∈ l := by
  have h0 : (FinishRun.init (DataDrop.init expectedSize streamingConsumers producers) calls).Inv
      producers :=
    ⟨rfl, List.nodup_nil, fun p => by simp [FinishRun.init, DataDrop.init],
      fun _ _ hj => (by cases hj), fun _ _ _ hj => (by cases hj), .inl rfl⟩
  have h := @FinishRun.Inv.run producers _ raises h0 hc hsub schedule
  rcases h.completions with hnil | ⟨hone, hfull, -⟩
  · simp [hnil]
  · rw [hone]
    have hperm := (List.subperm_of_subset h.nodup (h.finished_subset (by simpa using hsub))
      ).perm_of_length_le (Nat.le_of_eq hfull.symm)
    exact ⟨by simp, fun l hl p hp => (List.mem_singleton.1 hl) ▸ hperm.mem_iff.2 hp⟩

/-- Producers 1 and 2 reported on two threads, both locked blocks first. -/
theorem distinct_reports_complete_once_interleaved :
    ((FinishRun.init (DataDrop.init none [] [1, 2]) [1, 2]).run (fun _ => false)
      [0, 1, 0, 1]).completions.length ≤ 1 :=
  (distinct_reports_complete_once (fun _ => false) none [] (by decide) (by decide)
    [0, 1, 0, 1]).1

theorem FinishRun.pc_step_of_ne {i j : Nat} (h : j ≠ i) : (s.step raises i).pc j = s.pc j := by
  unfold FinishRun.step; split
  · split <;> exact Function.update_noteq h _ _
  · exact Function.update_noteq h _ _
  · rfl

/-- A thread that takes both its steps back to back does what one `producerFinished` call
does. -/
theorem FinishRun.step_step_drop {i : Nat} {uid : Uid} (hci : s.calls[i]? = some uid)
    (hpc : s.pc i = .ready) :
    ((s.step raises i).step raises i).drop = (producerFinished raises uid s.drop).1 := by
  unfold producerFinished
  cases hl : producerFinishedLocked uid s.drop with
  | error e => simp [FinishRun.step, hci, hpc, hl]
  | ok p => simp [FinishRun.step, hci, hpc, hl]

/-- **One thread at a time, the threads are the sequential calls.**  Threads that each run
their locked block and their comparison back to back, in the order of `threads`, leave the
DROP as the `producerFinished` calls of `Drop.lean` made one after another do: the
two-step threads refine the sequential method. -/
theorem sequential_schedule_is_producerFinished (raises : Streamed → Bool) (s : FinishRun)
    (threads : List Nat) (hnd : threads.Nodup) (hready : ∀ i ∈ threads, s.pc i = .ready) :
    (s.run raises (threads.flatMap fun i => [i, i])).drop =
      (threads.filterMap fun i => s.calls[i]?).foldl
        (fun d uid => (producerFinished raises uid d).1) s.drop := by
  induction threads generalizing s with
  | nil => rfl
  | cons i threads ih =>
    obtain ⟨hi, hnd⟩ := List.nodup_cons.1 hnd
    have hrest := ih ((s.step raises i).step raises i) hnd fun j hj => by
      have hji := ne_of_mem_of_not_mem hj hi
      rw [FinishRun.pc_step_of_ne hji, FinishRun.pc_step_of_ne hji]
      exact hready j (.tail _ hj)
    simp only [FinishRun.step_calls] at hrest
    simp only [FinishRun.run, List.flatMap_cons, List.foldl_append, List.foldl_cons,
      List.foldl_nil] at hrest ⊢
    rw [hrest]
    cases hci : s.calls[i]? with
    | none => simp [List.filterMap_cons, hci, FinishRun.step]
    | some uid =>
      rw [FinishRun.step_step_drop hci (hready i (.head _))]
      simp [List.filterMap_cons, hci]

end Finish

/-- **A producer reported twice completes its DROP early.**  A DROP with producers 1 and 2:
`producerFinished(1)` twice, one after the other.  The second call is not rejected: the set
still has one element, so it is counted again and `setCompleted` runs while producer 2 has
not finished. -/
theorem repeated_producer_completes_drop :
    producerFinished (fun _ => false) 1
        (producerFinished (fun _ => false) 1 (DataDrop.init none [] [1, 2])).1 =
      ({ DataDrop.init none [] [1, 2] with status := .completed, finishedProducers := [1] },
        none) := by
  decide

/-! ## 3. `write` against `setCompleted` and `producerFinished` -/

/-- A call on a data DROP, made on a thread of its own. -/
inductive Job
  | write (env : WriteEnv) (data : Bytes)
  | setCompleted (raises : Streamed → Bool)
  | producerFinished (raises : Streamed → Bool) (uid : Uid)

/-- The call made from start to end with no other thread in between: the sequential
method. -/
def Job.call (poly : UInt32) : Job → DataDrop → DataDrop
  | .write env data, s => (Dfms.write poly env data s).1
  | .setCompleted raises, s => (Dfms.setCompleted raises s).1
  | .producerFinished raises uid, s => (Dfms.producerFinished raises uid s).1

/-- A call on a COMPLETED DROP leaves its status, size and checksum. -/
theorem Job.call_of_completed (poly : UInt32) (j : Job) {s : DataDrop}
    (hs : s.status = .completed) :
    (j.call poly s).status = .completed ∧ (j.call poly s).size = s.size ∧
      (j.call poly s).checksum = s.checksum := by
  cases j with
  | write env data => simp [Job.call, Dfms.write, writeCheck, hs]
  | setCompleted raises => simp [Job.call, Dfms.setCompleted, hs]
  | producerFinished raises uid =>
    simp only [Job.call, Dfms.producerFinished]
    split
    · exact ⟨hs, rfl, rfl⟩
    · next n s' h =>
      simp only [producerFinishedLocked] at h
      split_ifs at h
      cases h
      simp only [producerFinishedTail]
      split_ifs <;> simp [Dfms.setCompleted, hs]

/-- **Calls made one at a time never reopen a COMPLETED DROP.**  Whatever sequence of
`write`, `setCompleted` and `producerFinished` calls follows, each returning or raising, the
DROP stays COMPLETED and its size and checksum do not change: what goes wrong in
`write_reopens_completed_drop` needs a second thread. -/
theorem completed_drop_stays_completed (poly : UInt32) (jobs : List Job) {s : DataDrop}
    (hs : s.status = .completed) :
    (jobs.foldl (fun s j => Job.call poly j s) s).status = .completed ∧
      (jobs.foldl (fun s j => Job.call poly j s) s).size = s.size ∧
      (jobs.foldl (fun s j => Job.call poly j s) s).checksum = s.checksum := by
  induction jobs generalizing s with
  | nil => exact ⟨hs, rfl, rfl⟩
  | cons j jobs ih =>
    obtain ⟨h1, h2, h3⟩ := j.call_of_completed poly hs
    obtain ⟨h1', h2', h3'⟩ := ih h1
    exact ⟨h1', h2'.trans h2, h3'.trans h3⟩

/-- The write of `write_reopens_completed_drop`, made after `setCompleted` instead of
around it, is refused and changes nothing. -/
theorem completed_drop_stays_completed_after_write :
    ([Job.write ⟨false, some 1, fun _ => false⟩ [97]].foldl (fun s j => Job.call 0 j s)
        { DataDrop.init none [] [] with status := .completed }).size = none :=
  (completed_drop_stays_completed 0 [.write ⟨false, some 1, fun _ => false⟩ [97]] rfl).2.1

theorem Job.call_size_checksum (poly : UInt32) (j : Job) {s : DataDrop}
    (h : s.size.isSome ∧ s.checksum.isSome) :
    (j.call poly s).size.isSome ∧ (j.call poly s).checksum.isSome := by
  cases j with
  | write env data => exact write_size_checksum (.inr h)
  | setCompleted raises =>
    simpa only [Job.call, setCompleted_size_checksum.1, setCompleted_size_checksum.2] using h
  | producerFinished raises uid =>
    simpa only [Job.call, producerFinished_size_checksum.1, producerFinished_size_checksum.2]
      using h

/-- **A size and a checksum computed by `write` are never overwritten.**  After a `write`
that returned, whatever sequence of `write`, `setCompleted` and `producerFinished` calls
follows, each returning or raising, the `size` and `checksum` setters raise "already
calculated" and change nothing. -/
theorem computed_size_checksum_refuse_setters (poly : UInt32) (env : WriteEnv) (data : Bytes)
    (s : DataDrop) (h : (write poly env data s).2 = none) (jobs : List Job)
    (size : Option Nat) (checksum : Option UInt32) :
    setSize size (jobs.foldl (fun s j => Job.call poly j s) (write poly env data s).1) =
        (jobs.foldl (fun s j => Job.call poly j s) (write poly env data s).1,
          some (.alreadyCalculated "size")) ∧
      setChecksum checksum (jobs.foldl (fun s j => Job.call poly j s) (write poly env data s).1) =
        (jobs.foldl (fun s j => Job.call poly j s) (write poly env data s).1,
          some (.alreadyCalculated "checksum")) := by
  have hrun : ∀ (jobs : List Job) (s : DataDrop), s.size.isSome ∧ s.checksum.isSome →
      (jobs.foldl (fun s j => Job.call poly j s) s).size.isSome ∧
        (jobs.foldl (fun s j => Job.call poly j s) s).checksum.isSome := by
    intro jobs
    induction jobs with
    | nil => exact fun _ h => h
    | cons j jobs ih => exact fun s h => ih _ (j.call_size_checksum poly h)
  obtain ⟨h1, h2⟩ := hrun jobs _ (write_size_checksum (.inl h))
  exact ⟨setSize_of_isSome h1 size, setChecksum_of_isSome h2 checksum⟩

/-- A one-byte write to a fresh DROP, then `setCompleted`: setting the size from outside
raises. -/
theorem computed_size_checksum_refuse_setters_after_completion :
    (write 0 ⟨false, some 1, fun _ => false⟩ [97] (DataDrop.init none [] [])).2 = none ∧
      (setSize (some 5) ([Job.setCompleted fun _ => false].foldl (fun s j => Job.call 0 j s)
        (write 0 ⟨false, some 1, fun _ => false⟩ [97] (DataDrop.init none [] [])).1)).2 =
        some (.alreadyCalculated "size") :=
  ⟨rfl, congrArg Prod.snd (computed_size_checksum_refuse_setters 0 ⟨false, some 1, fun _ => false⟩
    [97] (DataDrop.init none [] []) rfl [Job.setCompleted fun _ => false] (some 5) none).1⟩

/-- Where a thread is: a write passes its check, then its I/O step, then its last
statement; `setCompleted` and `producerFinished` are one step each. -/
inductive WritePc
  | start
  | checked
  | written
  | done
  deriving DecidableEq, Repr

/-- A data DROP and the program counter of each thread calling it. -/
structure DropRun where
  drop : DataDrop
  pc : Nat → WritePc

/-- No thread has started. -/
def DropRun.init (drop : DataDrop) : DropRun := ⟨drop, fun _ => .start⟩

/-- The state after thread `i` ran a piece that left `o`: on to `next` if it returned,
finished if it raised. -/
def DropRun.advance (s : DropRun) (i : Nat) (o : Outcome DataDrop DropError) (next : WritePc) :
    DropRun :=
  ⟨o.1, Function.update s.pc i (if o.2 = none then next else .done)⟩

/-- Thread `i`, running `jobs[i]`, takes one step. -/
def DropRun.step (poly : UInt32) (jobs : List Job) (s : DropRun) (i : Nat) : DropRun :=
  match jobs[i]?, s.pc i with
  | some (.write _ _), .start => s.advance i (writeCheck s.drop) .checked
  | some (.write env data), .checked => s.advance i (writeBody poly env data s.drop) .written
  | some (.write env _), .written => s.advance i (writeFinish env.raises s.drop) .done
  | some (.setCompleted raises), .start => s.advance i (setCompleted raises s.drop) .done
  | some (.producerFinished raises uid), .start =>
    s.advance i (producerFinished raises uid s.drop) .done
  | _, _ => s

/-- The state after the threads step in the order of `schedule`. -/
def DropRun.run (poly : UInt32) (jobs : List Job) (s : DropRun) (schedule : List Nat) : DropRun :=
  schedule.foldl (step poly jobs) s

/-- **A write that passed its check before `setCompleted` reopens the DROP.**  A fresh DROP,
`write("a")` on thread 0 and `setCompleted()` on thread 1: the write checks, the DROP is
completed, and the write then adds to the size and the checksum and sets WRITING. -/
theorem write_reopens_completed_drop (poly : UInt32) :
    ((DropRun.init (DataDrop.init none [] [])).run poly
        [.write ⟨false, some 1, fun _ => false⟩ [97], .setCompleted fun _ => false] [0, 1]).drop =
      { DataDrop.init none [] [] with status := .completed } ∧
    ((DropRun.init (DataDrop.init none [] [])).run poly
        [.write ⟨false, some 1, fun _ => false⟩ [97], .setCompleted fun _ => false]
        [0, 1, 0, 0]).drop =
      { DataDrop.init none [] [] with
        status := .writing, wio := true, size := some 1, checksum := some (crc32 poly [97] 0) } := by
  constructor <;> rfl

section Sequential

variable {poly : UInt32} {jobs : List Job} {s : DropRun}

theorem DropRun.pc_step_of_ne {i j : Nat} (h : j ≠ i) : (s.step poly jobs i).pc j = s.pc j := by
  unfold DropRun.step; split <;> first | rfl | exact Function.update_noteq h _ _

/-- A thread that takes its steps back to back makes its call as `Drop.lean` makes it:
three steps are enough for a `write`, and a thread that has raised takes no more. -/
theorem DropRun.steps_drop {i : Nat} {j : Job} (hj : jobs[i]? = some j) (hpc : s.pc i = .start) :
    (((s.step poly jobs i).step poly jobs i).step poly jobs i).drop = Job.call poly j s.drop := by
  cases j with
  | write env data =>
    simp only [Job.call, Dfms.write]
    rcases h1 : writeCheck s.drop with ⟨d1, _ | e1⟩
    · rcases h2 : writeBody poly env data d1 with ⟨d2, _ | e2⟩
      · simp [DropRun.step, DropRun.advance, hj, hpc, h1, h2]
      · simp [DropRun.step, DropRun.advance, hj, hpc, h1, h2]
    · simp [DropRun.step, DropRun.advance, hj, hpc, h1]
  | setCompleted raises => simp [DropRun.step, DropRun.advance, hj, hpc, Job.call]
  | producerFinished raises uid => simp [DropRun.step, DropRun.advance, hj, hpc, Job.call]

end Sequential

/-- **One thread at a time, the threads are the sequential calls.**  Threads that each run
their call to its end before the next starts, in the order of `threads`, leave the DROP as
the methods of `Drop.lean` called one after another do; with `completed_drop_stays_completed`
no such schedule reopens a COMPLETED DROP, unlike `write_reopens_completed_drop`. -/
theorem sequential_schedule_is_sequential_calls (poly : UInt32) (jobs : List Job) (s : DropRun)
    (threads : List Nat) (hnd : threads.Nodup) (hstart : ∀ i ∈ threads, s.pc i = .start) :
    (s.run poly jobs (threads.flatMap fun i => [i, i, i])).drop =
      (threads.filterMap fun i => jobs[i]?).foldl (fun d j => Job.call poly j d) s.drop := by
  induction threads generalizing s with
  | nil => rfl
  | cons i threads ih =>
    obtain ⟨hi, hnd⟩ := List.nodup_cons.1 hnd
    have hrest := ih (((s.step poly jobs i).step poly jobs i).step poly jobs i) hnd
      fun j hj => by
        have hji := ne_of_mem_of_not_mem hj hi
        rw [DropRun.pc_step_of_ne hji, DropRun.pc_step_of_ne hji, DropRun.pc_step_of_ne hji]
        exact hstart j (.tail _ hj)
    simp only [DropRun.run, List.flatMap_cons, List.foldl_append, List.foldl_cons,
      List.foldl_nil] at hrest ⊢
    rw [hrest]
    cases hj : jobs[i]? with
    | none => simp [List.filterMap_cons, hj, DropRun.step]
    | some j =>
      rw [DropRun.steps_drop hj (hstart i (.head _))]
      simp [List.filterMap_cons, hj]

end Dfms.Interleave

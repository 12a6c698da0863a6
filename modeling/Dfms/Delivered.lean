/-
# Delivered: what every run of a wired graph keeps

The events of `Execution.lean` cooperate so that, whatever the order in which the started
`execute` threads run and whatever `run()` does:

* **barriers** (`DeliveredAt`): a `BarrierAppDROP`'s `_completedInputs` are exactly its
  COMPLETED inputs, and it has started `execute` once if all of its inputs (and at least
  one) are COMPLETED, and never otherwise.  A DROP fires COMPLETED once, each consumer
  holds one `dropCompleted` closure on it, and the inputs are distinct, so the count
  reaches the number of inputs exactly when the last input completes
  (`DeliveredAt.fire`);
* **producers** (`Inv.finished`, `Inv.reported`): a DROP's `finishedProducers` are exactly
  its producers that have executed, and a DROP all of whose producers have executed is
  COMPLETED: each producer reports once through its one `appFinished` closure, so the
  count compared is the number of distinct producers reported.

`Inv` is stated with the set `F` of (output, producer) pairs whose report has been
delivered, so that it also holds half-way through the `'execStatus'` event of a finishing
application (`Inv.setExecStatus`).  Between steps `F` is "the producer has executed"
(`Inv.step`), which gives the run theorems `graph_runs_each_barrier_once` and
`reports_match_executed_producers`.
-/
import Dfms.Execution

namespace Dfms

/-! ## 1. Marking one more element -/

section Filter

variable {C : Uid → Bool} {u : Uid} {l : List Uid}

theorem filter_update_of_not_mem (hu : u ∉ l) :
    l.filter (Function.update C u true) = l.filter C :=
  List.filter_congr fun _ hx => Function.update_noteq (ne_of_mem_of_not_mem hx hu) _ _

theorem filter_update_perm (hu : u ∈ l) (hnd : l.Nodup) (hC : C u = false) :
    (l.filter (Function.update C u true)).Perm (l.filter C ++ [u]) := by
  induction l with
  | nil => cases hu
  | cons x l ih =>
    obtain ⟨hx, hnd⟩ := List.nodup_cons.1 hnd
    by_cases hxu : x = u
    · subst hxu
      rw [List.filter_cons_of_pos (by simp), List.filter_cons_of_neg (by simp [hC]),
        filter_update_of_not_mem hx]
      exact (List.perm_append_singleton _ _).symm
    · have ih := ih ((List.mem_cons.1 hu).resolve_left (Ne.symm hxu)) hnd
      rw [List.filter_cons, List.filter_cons, Function.update_noteq hxu]
      cases C x
      · exact ih
      · exact ih.cons x

/-- A relation kept by each step of a fold, reflexive and transitive, holds between its
start and its end. -/
theorem foldl_rel {α β : Type} {R : β → β → Prop} (hrefl : ∀ b, R b b)
    (htrans : ∀ {a b c}, R a b → R b c → R a c) {f : β → α → β} (hf : ∀ b x, R b (f b x)) :
    ∀ (l : List α) (b : β), R b (l.foldl f b)
  | [], b => hrefl b
  | x :: l, b => htrans (hf b x) (foldl_rel hrefl htrans hf l (f b x))

end Filter

/-! ## 2. Barriers -/

namespace Runtime

section DropCompleted

variable {g : Graph} {r : Runtime} {b c u : Uid}

/-- `dropCompleted` changes only `_completedInputs` and the started threads. -/
theorem dropCompleted_shape :
    ∃ ci p, r.dropCompleted g c u = { r with completedInputs := ci, pending := p } := by
  unfold dropCompleted; split
  · dsimp only; split_ifs
    · exact ⟨_, _, rfl⟩
    · exact ⟨_, _, rfl⟩
  · exact ⟨_, _, rfl⟩

@[simp] theorem dropCompleted_drops : (r.dropCompleted g c u).drops = r.drops := by
  obtain ⟨_, _, h⟩ := dropCompleted_shape (r := r) (g := g) (c := c) (u := u); rw [h]

@[simp] theorem dropCompleted_execStatus : (r.dropCompleted g c u).execStatus = r.execStatus := by
  obtain ⟨_, _, h⟩ := dropCompleted_shape (r := r) (g := g) (c := c) (u := u); rw [h]

@[simp] theorem dropCompleted_executed : (r.dropCompleted g c u).executed = r.executed := by
  obtain ⟨_, _, h⟩ := dropCompleted_shape (r := r) (g := g) (c := c) (u := u); rw [h]

theorem dropCompleted_of_ne (hb : b ≠ c) :
    (r.dropCompleted g c u).completedInputs b = r.completedInputs b ∧
      (r.dropCompleted g c u).pending.count b = r.pending.count b := by
  unfold dropCompleted
  split
  · dsimp only
    split_ifs <;> simp [Function.update_noteq hb, List.count_singleton, Ne.symm hb]
  · exact ⟨rfl, rfl⟩

/-- `dropCompleted` on anything but a barrier does nothing. -/
theorem dropCompleted_of_not_barrier (hc : g.kind c ≠ .barrier) : r.dropCompleted g c u = r := by
  unfold dropCompleted; split
  · contradiction
  · rfl

end DropCompleted

end Runtime

/-- **Barrier `b` has seen exactly the completions in `C`**: its `_completedInputs` are
its inputs in `C`, in some order, and it has started `execute` once if all of its inputs,
and at least one, are in `C`, and never otherwise. -/
structure DeliveredAt (g : Graph) (C : Uid → Bool) (r : Runtime) (b : Uid) : Prop where
  completedInputs_perm : g.kind b = .barrier → (r.completedInputs b).Perm ((g.inputs b).filter C)
  launches : r.pending.count b + r.executed.count b =
    if g.kind b = .barrier ∧ g.inputs b ≠ [] ∧ ∀ i ∈ g.inputs b, C i = true then 1 else 0

section Deliver

variable {g : Graph} {C : Uid → Bool} {r : Runtime} {b c u : Uid}

/-- A barrier told of the completion of one of its inputs not yet in `C`. -/
theorem DeliveredAt.dropCompleted (h : DeliveredAt g C r c) (hu : u ∈ g.inputs c)
    (hC : C u = false) (hnd : (g.inputs c).Nodup) :
    DeliveredAt g (Function.update C u true) (r.dropCompleted g c u) c := by
  have hnot : ¬ ∀ i ∈ g.inputs c, C i = true := fun hall => by simp [hall u hu] at hC
  by_cases hk : g.kind c = .barrier
  · have h0 : r.pending.count c + r.executed.count c = 0 := by simpa [hk, hnot] using h.launches
    have hci : (barrierAppend (r.completedInputs c) u).Perm
        ((g.inputs c).filter (Function.update C u true)) :=
      ((h.completedInputs_perm hk).append_right [u]).trans (filter_update_perm hu hnd hC).symm
    have hready : barrierReady (barrierAppend (r.completedInputs c) u) (g.inputs c) = true ↔
        ∀ i ∈ g.inputs c, Function.update C u true i = true := by
      rw [barrierReady, beq_iff_eq, hci.length_eq, List.filter_length_eq_length]
    have hne : g.inputs c ≠ [] := List.ne_nil_of_mem hu
    simp only [Runtime.dropCompleted, hk]
    split_ifs with hr
    · refine ⟨fun _ => by simpa using hci, ?_⟩
      rw [if_pos ⟨hk, hne, hready.1 hr⟩]
      simp only [List.count_append, List.count_singleton_self]
      omega
    · exact ⟨fun _ => by simpa using hci, by
        simp only [hk, hne, ne_eq, not_false_eq_true, true_and, ← hready, hr, if_false]
        exact h0⟩
  · rw [Runtime.dropCompleted_of_not_barrier hk]
    exact ⟨fun h => absurd h hk, by simpa [hk] using h.launches⟩

/-- A barrier not told of `u`'s completion is unaffected by it. -/
theorem DeliveredAt.dropCompleted_of_ne (h : DeliveredAt g C r b) (hb : b ≠ c) :
    DeliveredAt g C (r.dropCompleted g c u) b := by
  obtain ⟨h1, h2⟩ := Runtime.dropCompleted_of_ne (g := g) (r := r) (u := u) hb
  exact ⟨h1 ▸ h.completedInputs_perm, by rw [h2, Runtime.dropCompleted_executed]; exact h.launches⟩

theorem DeliveredAt.update_of_not_mem (h : DeliveredAt g C r b) (hu : u ∉ g.inputs b) :
    DeliveredAt g (Function.update C u true) r b := by
  refine ⟨fun hk => by rw [filter_update_of_not_mem hu]; exact h.completedInputs_perm hk, ?_⟩
  have : (∀ i ∈ g.inputs b, Function.update C u true i = true) ↔ ∀ i ∈ g.inputs b, C i = true :=
    forall₂_congr fun i hi => by rw [Function.update_noteq (ne_of_mem_of_not_mem hi hu)]
  simpa only [this] using h.launches

variable (hw : WellWired g)
include hw

theorem nodup_statusListeners : (statusListeners (g.subs u) .completed).Nodup :=
  List.nodup_iff_count_le_one.2 fun c => by
    rw [count_statusListeners, hw.count_dropCompleted]; split <;> omega

variable (hm : g.executionMode u = .drop)
include hm

theorem mem_statusListeners_iff : c ∈ statusListeners (g.subs u) .completed ↔ u ∈ g.inputs c := by
  rw [← List.count_pos_iff, count_statusListeners, hw.count_dropCompleted, ← hw.consumers_iff]
  split_ifs with h <;> simp_all

/-- **A DROP's COMPLETED event delivers its completion to every barrier.**  Each consumer
is called once, and only consumers have `u` among their inputs. -/
theorem DeliveredAt.fire (hall : ∀ b, DeliveredAt g C r b) (hC : C u = false) (b : Uid) :
    DeliveredAt g (Function.update C u true) (r.fire g u .completed) b := by
  unfold Runtime.fire
  have hL : ∀ c, c ∈ statusListeners (g.subs u) .completed ↔ u ∈ g.inputs c :=
    fun _ => mem_statusListeners_iff hw hm
  have hnd := nodup_statusListeners (u := u) hw
  generalize statusListeners (g.subs u) .completed = L at hL hnd
  -- the barriers still to be told hold `C`, the others already hold `C` with `u`
  have key : ∀ (L : List Uid) (r : Runtime), L.Nodup → (∀ c ∈ L, u ∈ g.inputs c) →
      (∀ b, b ∈ L → DeliveredAt g C r b) → (∀ b, b ∉ L → DeliveredAt g (Function.update C u true) r b) →
      ∀ b, DeliveredAt g (Function.update C u true) (L.foldl (fun r c => r.dropCompleted g c u) r) b := by
    intro L
    induction L with
    | nil => intro r _ _ _ hout b; exact hout b (List.not_mem_nil b)
    | cons c L ih =>
      intro r hnd hin hL hout
      obtain ⟨hc, hnd⟩ := List.nodup_cons.1 hnd
      refine ih _ hnd (fun c' h => hin c' (List.mem_cons_of_mem c h)) (fun b hb => ?_) (fun b hb => ?_)
      · exact (hL b (List.mem_cons_of_mem c hb)).dropCompleted_of_ne (ne_of_mem_of_not_mem hb hc)
      · by_cases hbc : b = c
        · subst hbc
          exact (hL b (List.mem_cons_self b L)).dropCompleted (hin b (List.mem_cons_self b L)) hC
            (hw.nodup_inputs b)
        · exact (hout b (by simp [hbc, hb])).dropCompleted_of_ne hbc
  exact key L r hnd (fun c hc => (hL c).1 hc) (fun b _ => hall b)
    (fun b hb => (hall b).update_of_not_mem fun h => hb ((hL b).2 h)) b

end Deliver

/-! ## 3. One call on a DROP -/

namespace Runtime

section Records

variable {g : Graph} {r : Runtime} {u : Uid}

/-- What calls on DROPs keep of the threads: the status of the applications, those run,
and those started, which only grow. -/
def Later (r r' : Runtime) : Prop :=
  r'.execStatus = r.execStatus ∧ r'.executed = r.executed ∧ r.pending <+: r'.pending

theorem Later.refl (r : Runtime) : Later r r := ⟨rfl, rfl, List.prefix_refl _⟩

theorem Later.trans {r r' r'' : Runtime} (h : Later r r') (h' : Later r' r'') : Later r r'' :=
  ⟨h'.1.trans h.1, h'.2.1.trans h.2.1, h.2.2.trans h'.2.2⟩

/-- What delivering an event keeps: every DROP's record, and the threads. -/
def Quiet (r r' : Runtime) : Prop := r'.drops = r.drops ∧ Later r r'

theorem Quiet.refl (r : Runtime) : Quiet r r := ⟨rfl, Later.refl r⟩

theorem Quiet.trans {r r' r'' : Runtime} (h : Quiet r r') (h' : Quiet r' r'') : Quiet r r'' :=
  ⟨h'.1.trans h.1, h.2.trans h'.2⟩

theorem quiet_dropCompleted (c : Uid) (r : Runtime) : Quiet r (r.dropCompleted g c u) := by
  refine ⟨by simp, by simp, by simp, ?_⟩
  unfold dropCompleted; split
  · dsimp only; split_ifs
    · exact List.prefix_append _ _
    · exact List.prefix_refl _
  · exact List.prefix_refl _

theorem quiet_fire (v : DROPStates) : Quiet r (r.fire g u v) :=
  foldl_rel Quiet.refl Quiet.trans (fun r c => quiet_dropCompleted c r) _ r

theorem quiet_deliver (calls : List Streamed) : Quiet r (r.deliver g u calls) :=
  foldl_rel Quiet.refl Quiet.trans (fun r x => by
    cases x with
    | dropCompleted c => exact quiet_dropCompleted c r
    | dataWritten _ _ => exact Quiet.refl r) _ r

/-- **A call on DROP `u` replaces its record and keeps the threads.** -/
theorem apply_records (m : DataDrop → Outcome DataDrop DropError) :
    (r.apply g u m).drops = Function.update r.drops u (m (r.drops u)).1 ∧ Later r (r.apply g u m) := by
  unfold apply
  dsimp only
  split_ifs
  · exact quiet_deliver _
  · exact (quiet_fire (r := { r with drops := _ }) _).trans (quiet_deliver _)

/-- Calls on DROPs that are no barriers do nothing. -/
theorem deliver_of_not_barrier {calls : List Streamed}
    (h : ∀ x ∈ calls, g.kind x.consumer ≠ .barrier) : r.deliver g u calls = r := by
  induction calls with
  | nil => rfl
  | cons x calls ih =>
    have ih := ih (fun y hy => h y (List.mem_cons_of_mem x hy))
    unfold deliver at ih ⊢
    rw [List.foldl_cons]
    cases x with
    | dropCompleted c =>
      have hc : g.kind c ≠ .barrier := h _ (List.mem_cons_self _ _)
      dsimp only
      rw [dropCompleted_of_not_barrier hc]
      exact ih
    | dataWritten c d => exact ih

/-- **What one call on a DROP does to the graph.**  For a method that keeps the record
evolving, on a DROP whose streaming consumers are no barriers: the record is replaced, and
the consumers are told when, and only when, the call completed the DROP. -/
theorem apply_eq {m : DataDrop → Outcome DataDrop DropError}
    (hev : Evolves (r.drops u) (m (r.drops u)).1)
    (hsc : ∀ c ∈ (r.drops u).streamingConsumers, g.kind c ≠ .barrier) :
    r.apply g u m =
      if (m (r.drops u)).1.status = .completed ∧ (r.drops u).status ≠ .completed then
        ({ r with drops := Function.update r.drops u (m (r.drops u)).1 } : Runtime).fire g u .completed
      else { r with drops := Function.update r.drops u (m (r.drops u)).1 } := by
  obtain ⟨calls, hcalls, hmem⟩ := hev.streamed_eq
  unfold apply
  dsimp only
  rw [hcalls, List.drop_left, deliver_of_not_barrier (fun x hx => hsc _ (hmem x hx))]
  by_cases hs : (m (r.drops u)).1.status = (r.drops u).status
  · rw [if_pos hs, if_neg fun h => h.2 (hs ▸ h.1)]
  · rw [if_neg hs]
    by_cases hc : (m (r.drops u)).1.status = .completed
    · rw [if_pos ⟨hc, fun h => hs (hc.trans h.symm)⟩, hc]
    · rw [if_neg fun h => hc h.1]
      unfold fire
      rw [statusListeners_of_ne hc]
      rfl

end Records

/-- The DROPs that are COMPLETED. -/
def completed (r : Runtime) (u : Uid) : Bool := decide ((r.drops u).status = .completed)

end Runtime

/-- **The invariant of a running graph**, where `F o p` says that producer `p`'s report
has been delivered to `o`. -/
structure Inv (g : Graph) (F : Uid → Uid → Bool) (r : Runtime) : Prop where
  producers_eq : ∀ u, (r.drops u).producers = g.producers u
  streamingConsumers_eq : ∀ u, (r.drops u).streamingConsumers = g.streamingConsumers u
  live : ∀ u, (r.drops u).status.isWritable ∨ (r.drops u).status = .completed
  delivered : ∀ b, DeliveredAt g r.completed r b
  finished : ∀ o, (r.drops o).finishedProducers.Perm ((g.producers o).filter (F o))
  reported : ∀ o, g.producers o ≠ [] → (∀ p ∈ g.producers o, F o p = true) →
    (r.drops o).status = .completed

section Calls

variable {g : Graph} {F F' : Uid → Uid → Bool} {r : Runtime} {u : Uid}

/-- The invariant after DROP `u`'s record is replaced by `s'`, given its barrier part. -/
theorem Inv.update (hi : Inv g F r) {s' : DataDrop} (hev : Evolves (r.drops u) s')
    (hF : ∀ v, v ≠ u → F' v = F v)
    (hfin : s'.finishedProducers.Perm ((g.producers u).filter (F' u)))
    (hrep : g.producers u ≠ [] → (∀ p ∈ g.producers u, F' u p = true) → s'.status = .completed)
    {r' : Runtime} (hd : r'.drops = Function.update r.drops u s')
    (hdel : ∀ b, DeliveredAt g r'.completed r' b) : Inv g F' r' := by
  refine ⟨fun v => ?_, fun v => ?_, fun v => ?_, hdel, fun v => ?_, fun v => ?_⟩ <;>
    rw [hd, Function.update_apply] <;> split_ifs with hv
  · rw [hev.producers_eq, hv, hi.producers_eq]
  · exact hi.producers_eq v
  · rw [hev.streamingConsumers_eq, hv, hi.streamingConsumers_eq]
  · exact hi.streamingConsumers_eq v
  · exact hev.status_live (hv ▸ hi.live v)
  · exact hi.live v
  · exact hv ▸ hfin
  · exact hF v hv ▸ hi.finished v
  · exact hv ▸ hrep
  · exact fun hne hall => hi.reported v hne fun p hp => hF v hv ▸ hall p hp

/-- The invariant does not read `execStatus`. -/
theorem Inv.setExecStatusField (hi : Inv g F r) (e : Uid → AppDROPStates) :
    Inv g F { r with execStatus := e } :=
  ⟨hi.1, hi.2, hi.3, fun b => ⟨(hi.4 b).1, (hi.4 b).2⟩, hi.5, hi.6⟩

theorem Inv.setExecStatus_running {a : Uid} (hi : Inv g F r) :
    Inv g F (r.setExecStatus g a .running) := by
  unfold Runtime.setExecStatus
  split_ifs
  · exact hi
  · rw [execStatusListeners_of_not (by decide), List.foldl_nil]
    exact hi.setExecStatusField _

variable (hw : WellWired g) (hm : ∀ u, g.executionMode u = .drop)
include hw hm

/-- **One call on a DROP keeps the invariant**, given what it does to the DROP's
`finishedProducers` and when it completes it. -/
theorem Inv.apply (hi : Inv g F r) {m : DataDrop → Outcome DataDrop DropError}
    (hev : Evolves (r.drops u) (m (r.drops u)).1) (hF : ∀ v, v ≠ u → F' v = F v)
    (hfin : ((m (r.drops u)).1.finishedProducers).Perm ((g.producers u).filter (F' u)))
    (hrep : g.producers u ≠ [] → (∀ p ∈ g.producers u, F' u p = true) →
      (m (r.drops u)).1.status = .completed) :
    Inv g F' (r.apply g u m) := by
  have hsc : ∀ c ∈ (r.drops u).streamingConsumers, g.kind c ≠ .barrier := fun c hc => by
    rw [hi.streamingConsumers_eq] at hc
    rw [hw.streaming_app u c hc]
    exact nofun
  rw [Runtime.apply_eq hev hsc]
  generalize hr1 : ({ r with drops := Function.update r.drops u (m (r.drops u)).1 } : Runtime) = r1
  have hd1 : r1.drops = Function.update r.drops u (m (r.drops u)).1 := by rw [← hr1]
  split_ifs with hc
  · have hd := (Runtime.quiet_fire (g := g) (u := u) (r := r1) .completed).1.trans hd1
    refine hi.update hev hF hfin hrep hd fun b => ?_
    have hC : (r1.fire g u .completed).completed = Function.update r.completed u true := by
      funext v
      simp only [Runtime.completed, hd, Function.update_apply]
      split_ifs with hv <;> simp [hv, hc.1]
    have hdel : ∀ b, DeliveredAt g r.completed r1 b := fun b =>
      hr1 ▸ ⟨(hi.delivered b).1, (hi.delivered b).2⟩
    rw [hC]
    exact DeliveredAt.fire hw (hm u) hdel (by simp [Runtime.completed, hc.2]) b
  · refine hi.update hev hF hfin hrep hd1 fun b => ?_
    have hC : r1.completed = r.completed := by
      funext v
      simp only [Runtime.completed, hd1, Function.update_apply]
      split_ifs with hv
      · subst hv
        by_cases hb : (r.drops v).status = .completed
        · simp [hb, hev.status_completed hb]
        · have ha : ¬ (m (r.drops v)).1.status = .completed := fun h => hc ⟨h, hb⟩
          simp [hb, ha]
      · rfl
    rw [hC, ← hr1]
    exact ⟨(hi.delivered b).1, (hi.delivered b).2⟩

/-- The session's `setCompleted()` on a DROP without producers. -/
theorem Inv.setCompleted (hi : Inv g F r) (hu : g.producers u = []) :
    Inv g F (r.apply g u (Dfms.setCompleted fun _ => false)) :=
  hi.apply hw hm (evolves_setCompleted _ _) (fun _ _ => rfl)
    (by rw [setCompleted_finishedProducers]; exact hi.finished u) fun h => absurd hu h

/-- A `write` made by `run()`. -/
theorem Inv.write {poly : UInt32} (hi : Inv g F r) (env : WriteEnv) (data : Bytes) :
    Inv g F (r.apply g u (write poly env data)) :=
  hi.apply hw hm write_keeps.1 (fun _ _ => rfl) (by rw [write_keeps.2]; exact hi.finished u)
    fun hne hall => write_keeps.1.status_completed (hi.reported u hne hall)

/-- `execute`'s last statement, `self.status = DROPStates.COMPLETED`. -/
theorem Inv.setStatusCompleted (hi : Inv g F r) :
    Inv g F (r.apply g u fun s => (setStatus .completed s, none)) :=
  hi.apply hw hm ⟨by simp [setStatus_eq], by simp [setStatus_eq], ⟨[], by simp [setStatus_eq], by simp⟩,
      fun _ => by simp, fun _ => by simp⟩ (fun _ _ => rfl)
    (by simp only [setStatus_eq]; exact hi.finished u) fun _ _ => by simp

/-- **`appFinished`: output `o` told that producer `a`, not yet reported, has finished.**
`a` is added, and if it was the last producer the DROP completes. -/
theorem Inv.appFinished {a o : Uid} (hi : Inv g F r) (ha : a ∈ g.producers o)
    (hF : F o a = false) :
    Inv g (Function.update F o (Function.update (F o) a true))
      (r.apply g o (producerFinished (fun _ => false) a)) := by
  have hperm := ((hi.finished o).append_right [a]).trans
    (filter_update_perm ha (hw.nodup_producers o) hF).symm
  have hnotin : a ∉ (r.drops o).finishedProducers := fun h => by
    simpa [hF] using (hi.finished o).mem_iff.1 h
  have hlt : (r.drops o).finishedProducers.length < (r.drops o).producers.length := by
    rw [(hi.finished o).length_eq, hi.producers_eq]
    exact List.length_filter_lt_length_iff_exists.2 ⟨a, ha, by simp [hF]⟩
  have heq : (producerFinished (fun _ => false) a (r.drops o)).1 = _ :=
    producerFinished_of_fresh ((hi.producers_eq o).symm ▸ ha) hnotin hlt
  refine hi.apply hw hm (evolves_producerFinished _ _ _) (fun v hv => Function.update_noteq hv _ _)
    ?_ fun _ hall => ?_
  · rw [Function.update_same, heq]
    split_ifs <;> simpa using hperm
  · have hfull : ((r.drops o).finishedProducers ++ [a]).length = (r.drops o).producers.length := by
      rw [hperm.length_eq, hi.producers_eq, List.filter_length_eq_length]
      simpa using hall
    rw [heq, if_pos (by simpa using hfull)]
    exact setCompleted_status_of_live (hi.live o)

theorem Inv.appFinished_foldl {a : Uid} :
    ∀ (L : List Uid) (F : Uid → Uid → Bool) (r : Runtime), L.Nodup →
      (∀ o ∈ L, a ∈ g.producers o ∧ F o a = false) → Inv g F r →
      Inv g (fun o p => F o p || decide (p = a ∧ o ∈ L))
        (L.foldl (fun r o => r.apply g o (producerFinished (fun _ => false) a)) r)
  | [], F, r, _, _, hi => by simpa using hi
  | o :: L, F, r, hnd, hL, hi => by
    obtain ⟨ho, hnd⟩ := List.nodup_cons.1 hnd
    have h1 := hi.appFinished hw hm (hL o (List.mem_cons_self o L)).1 (hL o (List.mem_cons_self o L)).2
    have h2 := Inv.appFinished_foldl L _ _ hnd (fun o' ho' => ⟨(hL o' (List.mem_cons_of_mem o ho')).1,
      by rw [Function.update_noteq (ne_of_mem_of_not_mem ho' ho)]
         exact (hL o' (List.mem_cons_of_mem o ho')).2⟩) h1
    have hF : (fun o' p => F o' p || decide (p = a ∧ o' ∈ o :: L)) =
        fun o' p => Function.update F o (Function.update (F o) a true) o' p || decide (p = a ∧ o' ∈ L) := by
      funext o' p
      by_cases ho' : o' = o
      · subst ho'
        by_cases hp : p = a <;> simp [hp, ho]
      · simp [ho', Function.update_noteq ho']
    rw [List.foldl_cons, hF]
    exact h2

/-- **An application finishing reports to each of its outputs once.** -/
theorem Inv.setExecStatus_finish {a : Uid} {v : AppDROPStates} (hi : Inv g F r)
    (hv : v = .finished ∨ v = .error) (hne : r.execStatus a ≠ v)
    (ha : ∀ o ∈ g.outputs a, a ∈ g.producers o ∧ F o a = false) :
    Inv g (fun o p => F o p || decide (p = a ∧ o ∈ g.outputs a)) (r.setExecStatus g a v) := by
  have hL : ∀ o, o ∈ execStatusListeners (g.subs a) v ↔ o ∈ g.outputs a := fun o => by
    rw [← List.count_pos_iff, count_execStatusListeners _ hv, hw.count_appFinished]
    split_ifs with h <;> simp [h]
  have hnd : (execStatusListeners (g.subs a) v).Nodup := List.nodup_iff_count_le_one.2 fun o => by
    rw [count_execStatusListeners _ hv, hw.count_appFinished]; split <;> omega
  unfold Runtime.setExecStatus
  rw [if_neg hne]
  have h := Inv.appFinished_foldl hw hm _ F _ hnd (fun o ho => ha o ((hL o).1 ho))
    (hi.setExecStatusField (Function.update r.execStatus a v))
  simpa only [hL] using h

end Calls

/-! ## 4. Whole steps -/

namespace Runtime

section Threads

variable {g : Graph} {r : Runtime} {a : Uid}

theorem later_apply (u : Uid) (m : DataDrop → Outcome DataDrop DropError) (r : Runtime) :
    Later r (r.apply g u m) :=
  (apply_records m).2

/-- What the steps of `execute` keep of the threads: those run, and those started, which
only grow. -/
def Grows (r r' : Runtime) : Prop := r'.executed = r.executed ∧ r.pending <+: r'.pending

theorem Grows.trans {r r' r'' : Runtime} (h : Grows r r') (h' : Grows r' r'') : Grows r r'' :=
  ⟨h'.1.trans h.1, h.2.trans h'.2⟩

theorem later_foldl_write (poly : UInt32) (writes : List RunWrite) (r : Runtime) :
    Later r (writes.foldl (fun r w => r.apply g w.output
      (write poly ⟨w.openRaises, w.written, fun _ => false⟩ w.data)) r) := by
  induction writes generalizing r with
  | nil => exact Later.refl r
  | cons w ws ih => exact (later_apply _ _ r).trans (ih _)

theorem setExecStatus_records (v : AppDROPStates) :
    (r.setExecStatus g a v).execStatus a = v ∧ Grows r (r.setExecStatus g a v) := by
  unfold setExecStatus
  split_ifs with h
  · exact ⟨h, rfl, List.prefix_refl _⟩
  · obtain ⟨h1, h2⟩ := foldl_rel Later.refl Later.trans (fun r o => later_apply o _ r) _
      ({ r with execStatus := Function.update r.execStatus a v } : Runtime)
    exact ⟨by rw [h1]; exact Function.update_same _ _ _, h2⟩

theorem execute_grows (poly : UInt32) (writes : List RunWrite) (raises : Bool) :
    Grows r (r.execute g poly a writes raises) := by
  unfold execute
  exact Grows.trans (setExecStatus_records .running).2 (Grows.trans (later_foldl_write poly writes _).2
    (Grows.trans (setExecStatus_records _).2 (later_apply a _ _).2))

end Threads

end Runtime

section Steps

variable {g : Graph} {F : Uid → Uid → Bool} {r : Runtime} {a : Uid}

theorem DeliveredAt.finishRun {C : Uid → Bool} {b : Uid} (h : DeliveredAt g C r b)
    (ha : a ∈ r.pending) : DeliveredAt g C (r.finishRun a) b := by
  refine ⟨h.completedInputs_perm, ?_⟩
  have hl := h.launches
  by_cases hb : b = a
  · subst hb
    have := List.count_pos_iff.2 ha
    simp only [Runtime.finishRun, List.count_append, List.count_erase_self, List.count_singleton_self]
    omega
  · have : List.count b [a] = 0 := List.count_eq_zero_of_not_mem (by simpa using hb)
    simp only [Runtime.finishRun, List.count_append, List.count_erase_of_ne hb, this]
    omega

theorem Inv.congr {F' : Uid → Uid → Bool} (hi : Inv g F r)
    (h : ∀ o, ∀ p ∈ g.producers o, F o p = F' o p) : Inv g F' r :=
  { hi with
    finished := fun o => by rw [← List.filter_congr (h o)]; exact hi.finished o
    reported := fun o hne hall => hi.reported o hne fun p hp => (h o p hp).trans (hall p hp) }

theorem Inv.finishRun (hi : Inv g F r) (ha : a ∈ r.pending) : Inv g F (r.finishRun a) :=
  { hi with delivered := fun b => (hi.delivered b).finishRun ha }

variable (hw : WellWired g) (hm : ∀ u, g.executionMode u = .drop)
include hw hm

/-- **`execute` reports the application to each of its outputs, once.** -/
theorem Inv.foldl_write (hi : Inv g F r) (poly : UInt32) (writes : List RunWrite) :
    Inv g F (writes.foldl (fun r w => r.apply g w.output
      (Dfms.write poly ⟨w.openRaises, w.written, fun _ => false⟩ w.data)) r) := by
  induction writes generalizing r with
  | nil => exact hi
  | cons w ws ih => exact ih (hi.write hw hm _ _)

theorem Inv.execute {poly : UInt32} {writes : List RunWrite} {raises : Bool} (hi : Inv g F r)
    (ha : ∀ o ∈ g.outputs a, a ∈ g.producers o ∧ F o a = false) :
    Inv g (fun o p => F o p || decide (p = a ∧ o ∈ g.outputs a))
      (r.execute g poly a writes raises) := by
  unfold Runtime.execute
  refine (((hi.setExecStatus_running (a := a)).foldl_write hw hm poly writes).setExecStatus_finish
    hw hm ?_ ?_ ha).setStatusCompleted hw hm
  · split <;> simp
  · rw [(Runtime.later_foldl_write poly writes _).1, (Runtime.setExecStatus_records .running).1]
    split <;> decide

/-- **Every step keeps the invariant, with "reported" meaning "executed".** -/
theorem Inv.step {poly : UInt32} {r' : Runtime} (hi : Inv g (fun _ p => decide (p ∈ r.executed)) r)
    (h : Step poly g r r') : Inv g (fun _ p => decide (p ∈ r'.executed)) r' := by
  cases h with
  | setCompleted u hu =>
    rw [(Runtime.apply_records (g := g) (r := r) (u := u) _).2.2.1]
    exact hi.setCompleted hw hm hu
  | execute a ha writes _ raises =>
    have hl := (hi.delivered a).launches
    have hpos := List.count_pos_iff.2 ha
    have hcond : g.kind a = .barrier ∧ g.inputs a ≠ [] ∧ ∀ i ∈ g.inputs a, r.completed i = true := by
      by_contra hc
      rw [if_neg hc] at hl
      omega
    have hnex : a ∉ r.executed := fun h => by
      have := List.count_pos_iff.2 h
      rw [if_pos hcond] at hl
      omega
    have hout : ∀ o ∈ g.outputs a, a ∈ g.producers o ∧ decide (a ∈ r.executed) = false :=
      fun o ho => ⟨((hw.producers_iff o a).2 ho).1, by simp [hnex]⟩
    obtain ⟨hex, hpre⟩ := Runtime.execute_grows (g := g) (r := r) (a := a) poly writes raises
    refine (((hi.execute hw hm hout).finishRun (hpre.subset ha))).congr fun o p hp => ?_
    simp only [Runtime.finishRun, hex, List.mem_append, List.mem_singleton]
    by_cases hpa : p = a
    · subst hpa
      have : o ∈ g.outputs p := (hw.producers_iff o p).1 ⟨hp, by simp [hcond.1, Kind.isApp]⟩
      simp [this]
    · simp [hpa]

end Steps

/-! ## 5. Every run -/

/-- Before anything completes nothing is delivered, started or reported. -/
theorem Inv.init (g : Graph) (expectedSize : Uid → Option Int) :
    Inv g (fun _ p => decide (p ∈ (Runtime.init g expectedSize).executed))
      (Runtime.init g expectedSize) := by
  have hC : (Runtime.init g expectedSize).completed = fun _ => false := by
    funext u; simp [Runtime.completed, Runtime.init, DataDrop.init]
  refine ⟨fun _ => rfl, fun _ => rfl, fun _ => Or.inl rfl, fun b => ?_,
    fun o => by simp [Runtime.init, DataDrop.init], fun o hne hall => ?_⟩
  · refine ⟨fun _ => by rw [hC]; simp [Runtime.init], ?_⟩
    rw [if_neg]
    · rfl
    · rintro ⟨-, hne, hall⟩
      obtain ⟨i, hi⟩ := List.exists_mem_of_ne_nil _ hne
      simpa [hC] using hall i hi
  · obtain ⟨p, hp⟩ := List.exists_mem_of_ne_nil _ hne
    simpa [Runtime.init] using hall p hp

theorem Inv.run {g : Graph} {poly : UInt32} {expectedSize : Uid → Option Int} {r : Runtime}
    (hw : WellWired g) (hm : ∀ u, g.executionMode u = .drop)
    (h : Relation.ReflTransGen (Step poly g) (Runtime.init g expectedSize) r) :
    Inv g (fun _ p => decide (p ∈ r.executed)) r := by
  induction h with
  | refl => exact Inv.init g expectedSize
  | tail _ hstep ih => exact ih.step hw hm hstep

/-- **A wired graph runs each barrier once, after all its inputs, and completes every DROP
whose producers have all run.**  Take DROPs of any classes, all in DROP mode, wired by
any sequence of wiring calls that return normally, every barrier with at least one input.
Then along any sequential run (source DROPs completed by `setCompleted`, started `execute`
threads run one at a time in any order, each `run()` writing to its outputs and returning
or raising), in every state:
* no application has started `execute` twice;
* every application that has started `execute` is a barrier whose inputs are all
  COMPLETED;
* once no started thread is left, every barrier whose inputs are all COMPLETED has run
  `execute` exactly once;
* every DROP with producers, all of which have run `execute`, is COMPLETED. -/
theorem graph_runs_each_barrier_once {kind : Uid → Kind} {g : Graph} {poly : UInt32}
    {expectedSize : Uid → Option Int} {r : Runtime}
    (hg : Relation.ReflTransGen WireStep (Graph.fresh kind fun _ => .drop) g)
    (hin : ∀ b, kind b = .barrier → g.inputs b ≠ [])
    (hr : Relation.ReflTransGen (Step poly g) (Runtime.init g expectedSize) r) :
    (∀ a, r.pending.count a + r.executed.count a ≤ 1) ∧
      (∀ a, a ∈ r.pending ∨ a ∈ r.executed →
        kind a = .barrier ∧ ∀ i ∈ g.inputs a, (r.drops i).status = .completed) ∧
      (r.pending = [] → ∀ b, kind b = .barrier →
        (∀ i ∈ g.inputs b, (r.drops i).status = .completed) → r.executed.count b = 1) ∧
      (∀ o, g.producers o ≠ [] → (∀ p ∈ g.producers o, p ∈ r.executed) →
        (r.drops o).status = .completed) := by
  obtain ⟨hk, hmode⟩ := Graph.kind_executionMode_of_wired hg
  have hi := Inv.run (WellWired.of_wired hg) (fun u => congrFun hmode u) hr
  have hl := fun a => (hi.delivered a).launches
  simp only [hk, Runtime.completed, decide_eq_true_eq] at hl
  refine ⟨fun a => by rw [hl a]; split <;> omega, fun a ha => ?_, fun hp b hb hall => ?_,
    fun o hne hall => hi.reported o hne fun p hp => by simpa using hall p hp⟩
  · have hpos : 0 < r.pending.count a + r.executed.count a := by
      rcases ha with ha | ha
      · have := List.count_pos_iff.2 ha; omega
      · have := List.count_pos_iff.2 ha; omega
    rw [hl a] at hpos
    split_ifs at hpos with hc
    · exact ⟨hc.1, hc.2.2⟩
    · omega
  · have := hl b
    rw [if_pos ⟨hb, hin b hb, hall⟩, hp] at this
    simpa using this

/-- A data DROP 0 feeding barrier 1, which writes DROP 2: completing 0 starts 1, and
running it completes 2. -/
theorem graph_runs_each_barrier_once_chain :
    ∃ g r, Relation.ReflTransGen WireStep
        (Graph.fresh (fun u => if u = 1 then .barrier else .data) fun _ => .drop) g ∧
      Relation.ReflTransGen (Step 0 g) (Runtime.init g fun _ => none) r ∧
      r.pending = [] ∧ r.executed = [1] ∧ (r.drops 2).status = .completed := by
  set g₀ := Graph.fresh (fun u => if u = 1 then .barrier else .data) fun _ => .drop
  set g := (exec 3 (.addOutput 1 2) (exec 3 (.addInput 1 0) g₀).1).1
  set r₁ := (Runtime.init g fun _ => none).apply g 0 (setCompleted fun _ => false)
  have hg : Relation.ReflTransGen WireStep g₀ g :=
    (Relation.ReflTransGen.single ⟨3, .addInput 1 0, rfl⟩).tail ⟨3, .addOutput 1 2, rfl⟩
  have hr : Relation.ReflTransGen (Step 0 g) (Runtime.init g fun _ => none)
      ((r₁.execute g 0 1 [] false).finishRun 1) :=
    (Relation.ReflTransGen.single (Step.setCompleted 0 (by decide))).tail
      (Step.execute 1 (by decide) [] (fun _ h => absurd h (List.not_mem_nil _)) false)
  have hin : ∀ b, (if b = 1 then Kind.barrier else .data) = .barrier → g.inputs b ≠ [] :=
    fun b hb => by
      have : b = 1 := by by_contra h; simp [h] at hb
      subst this
      decide
  refine ⟨g, _, hg, hr, by decide, by decide, ?_⟩
  exact (graph_runs_each_barrier_once hg hin hr).2.2.2 2 (by decide) (by decide)

/-- **No report is lost or counted twice.**  Along any sequential run of a graph wired as
in `graph_runs_each_barrier_once` (no condition on the barriers' inputs), each DROP's
`finishedProducers` holds exactly its producers that have run `execute`, each once, and
each DROP is still writable or COMPLETED: no run reaches a status the data path does not
set. -/
theorem reports_match_executed_producers {kind : Uid → Kind} {g : Graph} {poly : UInt32}
    {expectedSize : Uid → Option Int} {r : Runtime}
    (hg : Relation.ReflTransGen WireStep (Graph.fresh kind fun _ => .drop) g)
    (hr : Relation.ReflTransGen (Step poly g) (Runtime.init g expectedSize) r) (o : Uid) :
    (r.drops o).finishedProducers.Perm
        ((g.producers o).filter fun p => decide (p ∈ r.executed)) ∧
      ((r.drops o).status.isWritable ∨ (r.drops o).status = .completed) := by
  have hi := Inv.run (WellWired.of_wired hg)
    (fun u => congrFun (Graph.kind_executionMode_of_wired hg).2 u) hr
  exact ⟨hi.finished o, hi.live o⟩

/-- In the chain of `graph_runs_each_barrier_once_chain`, DROP 2 has heard from its one
producer, barrier 1, once it has run. -/
theorem reports_match_executed_producers_chain :
    ∃ g r, Relation.ReflTransGen WireStep
        (Graph.fresh (fun u => if u = 1 then .barrier else .data) fun _ => .drop) g ∧
      Relation.ReflTransGen (Step 0 g) (Runtime.init g fun _ => none) r ∧
      r.executed = [1] ∧ g.producers 2 = [1] ∧ (r.drops 2).finishedProducers.Perm [1] := by
  set g₀ := Graph.fresh (fun u => if u = 1 then .barrier else .data) fun _ => .drop
  set g := (exec 3 (.addOutput 1 2) (exec 3 (.addInput 1 0) g₀).1).1
  set r₁ := (Runtime.init g fun _ => none).apply g 0 (setCompleted fun _ => false)
  have hg : Relation.ReflTransGen WireStep g₀ g :=
    (Relation.ReflTransGen.single ⟨3, .addInput 1 0, rfl⟩).tail ⟨3, .addOutput 1 2, rfl⟩
  have hr : Relation.ReflTransGen (Step 0 g) (Runtime.init g fun _ => none)
      ((r₁.execute g 0 1 [] false).finishRun 1) :=
    (Relation.ReflTransGen.single (Step.setCompleted 0 (by decide))).tail
      (Step.execute 1 (by decide) [] (fun _ h => absurd h (List.not_mem_nil _)) false)
  have hp : g.producers 2 = [1] := by decide
  have hex : ((r₁.execute g 0 1 [] false).finishRun 1).executed = [1] := by decide
  have hf : [1].filter (fun p => decide (p ∈ [1])) = [1] := rfl
  refine ⟨g, _, hg, hr, hex, hp, ?_⟩
  have h := (reports_match_executed_producers hg hr 2).1
  rwa [hp, hex, hf] at h

end Dfms

/-
# Successful wiring calls keep the collections paired

Three facts about the six wiring methods of `Wiring.lean`.

* **Depth.**  Each method mutates its own side before calling its partner, so the partner
  returns at once: no wiring call nests more than three frames (`exec_add_three`), and a
  call that returns normally returns the same at every depth (`exec_succ_of_ok`).
* **Effect.**  A call that returns normally leaves its own pair made (`Call.Made`): it
  either finds the pair already made and changes nothing, or adds both sides of the pair
  and its subscription (`Graph.linkConsumer`, `Graph.linkProducer`, `Graph.linkStreaming`;
  `exec_ok_cases`), and it removes nothing (`WellWired.exec_mono`).
* **Invariant.**  `WellWired`, which pairs the collections, keeps them free of duplicates
  and counts the subscriptions, holds of fresh DROPs and is preserved by every call that
  returns normally (`WellWired.exec`); so every DROP holds exactly one subscription per
  consumer (in DROP mode) and per output, made by the wiring calls themselves
  (`wired_subscriptions_exactly_once`).

A call that RAISES is another matter: `addInput` on a streaming consumer adds the input
and then fails in `addConsumer`, leaving one side made (`addInput_streaming_consumer_one_sided`).
-/
import Dfms.Wiring
import Mathlib.Data.List.Nodup
import Mathlib.Logic.Relation

namespace Dfms

open Outcome

/-! ## 1. Depth -/

theorem andThen_congr_ok {o o' : Outcome Graph WiringError} {f : Graph → Outcome Graph WiringError}
    {g' : Graph} (hk : ∀ s, o = (s, none) → o' = (s, none)) (h : o.andThen f = (g', none)) :
    o'.andThen f = (g', none) := by
  obtain ⟨s, hs, hf⟩ := andThen_eq_ok h
  rw [hk s hs]
  exact hf

/-- An `if` returns normally only if one of its branches does. -/
theorem ite_ok_mono {p : Prop} [Decidable p] {a b a' b' : Outcome Graph WiringError} {g' : Graph}
    (ha : p → a = (g', none) → a' = (g', none)) (hb : ¬p → b = (g', none) → b' = (g', none))
    (h : (if p then a else b) = (g', none)) : (if p then a' else b') = (g', none) := by
  split_ifs at h ⊢ with hp
  exacts [ha hp h, hb hp h]

/-- A method that returns normally does so for any interpreter of its nested calls that
agrees with the first one on the calls that return normally. -/
theorem dispatch_mono {k k' : Call → Graph → Outcome Graph WiringError}
    (hk : ∀ c g g', k c g = (g', none) → k' c g = (g', none)) {c : Call} {g g' : Graph}
    (h : dispatch k c g = (g', none)) : dispatch k' c g = (g', none) := by
  -- each method's `if`s, with the nested call in its last branch
  have hthen : ∀ c g (f : Graph → Outcome Graph WiringError),
      (k c g).andThen f = (g', none) → (k' c g).andThen f = (g', none) :=
    fun c g _ => andThen_congr_ok (hk c g)
  cases c with
  | addConsumer d c =>
    exact ite_ok_mono (fun _ => id) (fun _ => ite_ok_mono (fun _ => id) fun _ =>
      ite_ok_mono (fun _ => id) fun _ => hthen _ _ _) h
  | addInput a d =>
    exact ite_ok_mono (fun _ => ite_ok_mono (fun _ => id) fun _ => hk _ _ _) (fun _ => id) h
  | addProducer d p =>
    exact ite_ok_mono (fun _ => id) (fun _ => ite_ok_mono (fun _ => hk _ _ _) fun _ => id) h
  | addOutput a o =>
    exact ite_ok_mono (fun _ => ite_ok_mono (fun _ => id) fun _ =>
      ite_ok_mono (fun _ => id) fun _ => hthen _ _ _) (fun _ => id) h
  | addStreamingConsumer d c =>
    exact ite_ok_mono (fun _ => id) (fun _ => ite_ok_mono (fun _ => id) fun _ =>
      ite_ok_mono (fun _ => id) fun _ => hk _ _ _) h
  | addStreamingInput a d =>
    cases hkind : g.kind a <;> simp only [dispatch, hkind] at h ⊢
    · exact h
    · exact ite_ok_mono (fun _ => id) (fun _ => hk _ _ _) h
    · exact h

/-- **A call that returns normally returns the same with one more frame to spare.** -/
theorem exec_succ_of_ok {n : Nat} {c : Call} {g g' : Graph} (h : exec n c g = (g', none)) :
    exec (n + 1) c g = (g', none) := by
  induction n generalizing c g g' with
  | zero => cases h
  | succ n ih => exact dispatch_mono (fun _ _ _ => ih) h

/-- **No wiring call nests more than three frames**: the partner call finds the pair
half-made and returns, whatever the graph, so the recursion limit never matters once three
frames are left. -/
theorem exec_add_three (n : Nat) (c : Call) (g : Graph) : exec (n + 3) c g = exec 3 c g := by
  cases c <;> simp [exec, dispatch, addConsumer, addInput, addProducer, addOutput,
    addStreamingConsumer, addStreamingInput, barrierAddStreamingInput]

theorem andThen_kind_executionMode {o : Outcome Graph WiringError}
    {f : Graph → Outcome Graph WiringError}
    (hf : ∀ s, (f s).1.kind = s.kind ∧ (f s).1.executionMode = s.executionMode) :
    (o.andThen f).1.kind = o.1.kind ∧ (o.andThen f).1.executionMode = o.1.executionMode := by
  obtain ⟨s, _ | e⟩ := o
  · exact hf s
  · exact ⟨rfl, rfl⟩

/-- **No wiring call changes a DROP's class or execution mode**, returning or raising. -/
theorem exec_kind_executionMode (n : Nat) (c : Call) (g : Graph) :
    (exec n c g).1.kind = g.kind ∧ (exec n c g).1.executionMode = g.executionMode := by
  induction n generalizing c g with
  | zero => exact ⟨rfl, rfl⟩
  | succ n ih =>
    cases c <;> simp only [exec, dispatch, addConsumer, addInput, addProducer, addOutput,
      addStreamingConsumer, addStreamingInput, barrierAddStreamingInput]
    all_goals repeat' split
    all_goals first
      | exact ⟨rfl, rfl⟩
      | exact ih _ _
      | refine ⟨(andThen_kind_executionMode ?_).1.trans (ih _ _).1,
          (andThen_kind_executionMode ?_).2.trans (ih _ _).2⟩ <;>
        intro s <;> (try split) <;> exact ⟨rfl, rfl⟩

/-! ## 2. Effect -/

namespace Graph

/-- Both sides of `consumer ∈ d.consumers`, `d ∈ consumer.inputs`, and `addConsumer`'s
subscription when `d` is in DROP mode. -/
def linkConsumer (g : Graph) (d c : Uid) : Graph :=
  { g with consumers := push g.consumers d c, inputs := push g.inputs c d,
           subs := if g.executionMode d = .drop then push g.subs d (.dropCompleted c) else g.subs }

/-- Both sides of `p ∈ d.producers`, `d ∈ p.outputs`, and `addOutput`'s subscription; a
producer without `addOutput` gets the first side only. -/
def linkProducer (g : Graph) (d p : Uid) : Graph :=
  { g with producers := push g.producers d p,
           outputs := if (g.kind p).isApp then push g.outputs p d else g.outputs,
           subs := if (g.kind p).isApp then push g.subs p (.appFinished d) else g.subs }

/-- Both sides of `c ∈ d.streamingConsumers`, `d ∈ c.streamingInputs`. -/
def linkStreaming (g : Graph) (d c : Uid) : Graph :=
  { g with streamingConsumers := push g.streamingConsumers d c,
           streamingInputs := push g.streamingInputs c d }

end Graph

/-- The pair a wiring call makes, read on a graph: the consumer in the DROP's `consumers`
for `addConsumer` and `addInput`, the producer in its `producers` for `addProducer`, the
DROP in the app's `outputs` for `addOutput`, the streaming consumer in the DROP's
`streamingConsumers` for `addStreamingConsumer` and `addStreamingInput`. -/
def Call.Made : Call → Graph → Prop
  | .addConsumer d c, g | .addInput c d, g => c ∈ g.consumers d
  | .addProducer d p, g => p ∈ g.producers d
  | .addOutput a o, g => o ∈ g.outputs a
  | .addStreamingConsumer d c, g | .addStreamingInput c d, g => c ∈ g.streamingConsumers d

section Effect

variable {g : Graph} {n : Nat} {d c : Uid}

theorem exec_addConsumer_link (hc : (g.kind c).isApp) (hs : c ∉ g.streamingConsumers d)
    (hn : c ∉ g.consumers d) (hi : d ∉ g.inputs c) :
    exec (n + 3) (.addConsumer d c) g = (g.linkConsumer d c, none) := by
  cases hm : g.executionMode d <;>
    simp [exec, dispatch, addConsumer, addInput, Graph.linkConsumer, hc, hs, hn, hi, hm]

theorem exec_addInput_link (hc : (g.kind c).isApp) (hs : c ∉ g.streamingConsumers d)
    (hn : c ∉ g.consumers d) (hi : d ∉ g.inputs c) :
    exec (n + 3) (.addInput c d) g = (g.linkConsumer d c, none) := by
  cases hm : g.executionMode d <;>
    simp [exec, dispatch, addConsumer, addInput, Graph.linkConsumer, hc, hs, hn, hi, hm]

theorem exec_addProducer_link (hn : c ∉ g.producers d) (ho : d ∉ g.outputs c) (hne : d ≠ c) :
    exec (n + 3) (.addProducer d c) g = (g.linkProducer d c, none) := by
  cases hk : (g.kind c).isApp <;>
    simp [exec, dispatch, addProducer, addOutput, Graph.linkProducer, hn, ho, hne, hk]

theorem exec_addOutput_link (ha : (g.kind c).isApp) (hn : c ∉ g.producers d)
    (ho : d ∉ g.outputs c) (hne : d ≠ c) :
    exec (n + 3) (.addOutput c d) g = (g.linkProducer d c, none) := by
  simp [exec, dispatch, addProducer, addOutput, Graph.linkProducer, hn, ho, hne, ha]

theorem exec_addStreamingConsumer_link (hc : g.kind c = .app) (hs : c ∉ g.streamingConsumers d)
    (hn : c ∉ g.consumers d) (hi : d ∉ g.streamingInputs c) :
    exec (n + 3) (.addStreamingConsumer d c) g = (g.linkStreaming d c, none) := by
  simp [exec, dispatch, addStreamingConsumer, addStreamingInput, Graph.linkStreaming, hc, hs,
    hn, hi, Kind.isApp]

theorem exec_addStreamingInput_link (hc : g.kind c = .app) (hs : c ∉ g.streamingConsumers d)
    (hn : c ∉ g.consumers d) (hi : d ∉ g.streamingInputs c) :
    exec (n + 3) (.addStreamingInput c d) g = (g.linkStreaming d c, none) := by
  simp [exec, dispatch, addStreamingConsumer, addStreamingInput, Graph.linkStreaming, hc, hs,
    hn, hi, Kind.isApp]

end Effect

/-! ## 3. The invariant -/

/-- The wiring invariant: the collections pair up (`addConsumer` with `addInput`,
`addProducer` with `addOutput` for producers that have it, `addStreamingConsumer` with
`addStreamingInput`), no DROP is both a normal and a streaming consumer of another, no
collection holds a DROP twice, and the broadcaster holds one `dropCompleted` closure per
consumer of a DROP in DROP mode and one `appFinished` closure per output. -/
structure WellWired (g : Graph) : Prop where
  consumers_iff : ∀ d c, c ∈ g.consumers d ↔ d ∈ g.inputs c
  producers_iff : ∀ d p, p ∈ g.producers d ∧ (g.kind p).isApp ↔ d ∈ g.outputs p
  streaming_iff : ∀ d c, c ∈ g.streamingConsumers d ↔ d ∈ g.streamingInputs c
  consumer_isApp : ∀ d c, c ∈ g.consumers d → (g.kind c).isApp
  not_both : ∀ d c, c ∈ g.consumers d → c ∉ g.streamingConsumers d
  streaming_app : ∀ d c, c ∈ g.streamingConsumers d → g.kind c = .app
  nodup_consumers : ∀ u, (g.consumers u).Nodup
  nodup_producers : ∀ u, (g.producers u).Nodup
  nodup_streamingConsumers : ∀ u, (g.streamingConsumers u).Nodup
  nodup_inputs : ∀ u, (g.inputs u).Nodup
  nodup_outputs : ∀ u, (g.outputs u).Nodup
  nodup_streamingInputs : ∀ u, (g.streamingInputs u).Nodup
  count_dropCompleted : ∀ d c, (g.subs d).count (.dropCompleted c) =
    if c ∈ g.consumers d ∧ g.executionMode d = .drop then 1 else 0
  count_appFinished : ∀ a o, (g.subs a).count (.appFinished o) =
    if o ∈ g.outputs a then 1 else 0

theorem nodup_push {α : Type} {f : Uid → List α} {u : Uid} {x : α} (h : ∀ v, (f v).Nodup)
    (hx : x ∉ f u) (v : Uid) : (push f u x v).Nodup := by
  rw [push_apply]
  split_ifs with hv
  · subst hv
    exact (h v).append (List.nodup_singleton x) (List.disjoint_singleton.2 hx)
  · exact h v

/-- Fresh DROPs are well wired. -/
theorem WellWired.fresh (kind : Uid → Kind) (mode : Uid → ExecutionMode) :
    WellWired (Graph.fresh kind mode) := by
  constructor <;> simp [Graph.fresh]

section Preservation

variable {g : Graph} {d c : Uid}

theorem WellWired.linkConsumer (hw : WellWired g) (hc : (g.kind c).isApp)
    (hs : c ∉ g.streamingConsumers d) (hn : c ∉ g.consumers d) :
    WellWired (g.linkConsumer d c) := by
  have hi : d ∉ g.inputs c := fun h => hn ((hw.consumers_iff d c).2 h)
  constructor
  · intro d' c'
    simp only [Graph.linkConsumer, mem_push, hw.consumers_iff]
    tauto
  · exact hw.producers_iff
  · exact hw.streaming_iff
  · intro d' c'
    simp only [Graph.linkConsumer, mem_push]
    rintro (h | ⟨rfl, rfl⟩)
    · exact hw.consumer_isApp d' c' h
    · exact hc
  · intro d' c'
    simp only [Graph.linkConsumer, mem_push]
    rintro (h | ⟨rfl, rfl⟩)
    · exact hw.not_both d' c' h
    · exact hs
  · exact hw.streaming_app
  · exact nodup_push hw.nodup_consumers hn
  · exact hw.nodup_producers
  · exact hw.nodup_streamingConsumers
  · exact nodup_push hw.nodup_inputs hi
  · exact hw.nodup_outputs
  · exact hw.nodup_streamingInputs
  · intro d' c'
    have h := hw.count_dropCompleted d' c'
    by_cases h2 : d' = d <;> by_cases h3 : c' = c <;> cases hm : g.executionMode d <;>
      simp_all [Graph.linkConsumer]
  · intro a o
    have h := hw.count_appFinished a o
    cases hm : g.executionMode d <;> simp_all [Graph.linkConsumer]

theorem WellWired.linkProducer (hw : WellWired g) (hn : c ∉ g.producers d) :
    WellWired (g.linkProducer d c) := by
  have ho : (g.kind c).isApp → d ∉ g.outputs c := fun ha h => hn ((hw.producers_iff d c).2 h).1
  constructor
  · exact hw.consumers_iff
  · intro d' p'
    have h := hw.producers_iff d' p'
    cases ha : (g.kind c).isApp <;> simp only [Graph.linkProducer, ha, mem_push, if_true] <;>
      by_cases h2 : p' = c <;> simp_all
  · exact hw.streaming_iff
  · exact hw.consumer_isApp
  · exact hw.not_both
  · exact hw.streaming_app
  · exact hw.nodup_consumers
  · exact nodup_push hw.nodup_producers hn
  · exact hw.nodup_streamingConsumers
  · exact hw.nodup_inputs
  · cases ha : (g.kind c).isApp <;> simp only [Graph.linkProducer, ha]
    · exact hw.nodup_outputs
    · exact nodup_push hw.nodup_outputs (ho ha)
  · exact hw.nodup_streamingInputs
  · intro d' c'
    have h := hw.count_dropCompleted d' c'
    cases ha : (g.kind c).isApp <;> simp_all [Graph.linkProducer]
  · intro a o
    have h := hw.count_appFinished a o
    by_cases h2 : a = c <;> by_cases h3 : o = d <;> cases ha : (g.kind c).isApp <;>
      simp_all [Graph.linkProducer]

theorem WellWired.linkStreaming (hw : WellWired g) (hc : g.kind c = .app)
    (hs : c ∉ g.streamingConsumers d) (hn : c ∉ g.consumers d) :
    WellWired (g.linkStreaming d c) := by
  have hi : d ∉ g.streamingInputs c := fun h => hs ((hw.streaming_iff d c).2 h)
  constructor
  · exact hw.consumers_iff
  · exact hw.producers_iff
  · intro d' c'
    simp only [Graph.linkStreaming, mem_push, hw.streaming_iff]
    tauto
  · exact hw.consumer_isApp
  · intro d' c'
    simp only [Graph.linkStreaming, mem_push]
    rintro h (h' | ⟨rfl, rfl⟩)
    · exact hw.not_both d' c' h h'
    · exact hn h
  · intro d' c'
    simp only [Graph.linkStreaming, mem_push]
    rintro (h | ⟨rfl, rfl⟩)
    · exact hw.streaming_app d' c' h
    · exact hc
  · exact hw.nodup_consumers
  · exact hw.nodup_producers
  · exact nodup_push hw.nodup_streamingConsumers hs
  · exact hw.nodup_inputs
  · exact hw.nodup_outputs
  · exact nodup_push hw.nodup_streamingInputs hi
  · exact hw.count_dropCompleted
  · exact hw.count_appFinished

/-- **What a call that returns normally did**: it leaves its own pair made, and it either
found the pair made and changed nothing, or made both sides of one pair. -/
theorem exec_ok_cases {n : Nat} {call : Call} {g' : Graph} (hw : WellWired g)
    (h : exec n call g = (g', none)) :
    call.Made g' ∧
      (g' = g ∨
        (∃ d c, (g.kind c).isApp ∧ c ∉ g.streamingConsumers d ∧ c ∉ g.consumers d ∧
          g' = g.linkConsumer d c) ∨
        (∃ d p, p ∉ g.producers d ∧ g' = g.linkProducer d p) ∨
        (∃ d c, g.kind c = .app ∧ c ∉ g.streamingConsumers d ∧ c ∉ g.consumers d ∧
          g' = g.linkStreaming d c)) := by
  have h3 : Dfms.exec (n + 3) call g = (g', none) :=
    exec_succ_of_ok (exec_succ_of_ok (exec_succ_of_ok h))
  cases call with
  | addConsumer d c =>
    by_cases hc : (g.kind c).isApp
    · by_cases hs : c ∈ g.streamingConsumers d
      · simp [Dfms.exec, dispatch, addConsumer, hc, hs] at h3
      by_cases hn : c ∈ g.consumers d
      · simp only [Dfms.exec, dispatch, addConsumer, hc, hs, hn] at h3
        cases h3
        exact ⟨hn, .inl rfl⟩
      rw [exec_addConsumer_link hc hs hn (fun h => hn ((hw.consumers_iff d c).2 h))] at h3
      cases h3
      exact ⟨by simp [Call.Made, Graph.linkConsumer], .inr (.inl ⟨d, c, hc, hs, hn, rfl⟩)⟩
    · simp [Dfms.exec, dispatch, addConsumer, hc] at h3
  | addInput a d =>
    by_cases ha : (g.kind a).isApp
    · by_cases hi : d ∈ g.inputs a
      · simp only [Dfms.exec, dispatch, addInput, ha, hi] at h3
        cases h3
        exact ⟨(hw.consumers_iff d a).2 hi, .inl rfl⟩
      have hn : a ∉ g.consumers d := fun h => hi ((hw.consumers_iff d a).1 h)
      by_cases hs : a ∈ g.streamingConsumers d
      · simp [Dfms.exec, dispatch, addInput, addConsumer, ha, hi, hs] at h3
      rw [exec_addInput_link ha hs hn hi] at h3
      cases h3
      exact ⟨by simp [Call.Made, Graph.linkConsumer], .inr (.inl ⟨d, a, ha, hs, hn, rfl⟩)⟩
    · simp [Dfms.exec, dispatch, ha] at h3
  | addProducer d p =>
    by_cases hn : p ∈ g.producers d
    · simp only [Dfms.exec, dispatch, addProducer, hn] at h3
      cases h3
      exact ⟨hn, .inl rfl⟩
    by_cases hpd : d = p
    · subst hpd
      cases ha : (g.kind d).isApp
      · have : g' = g.linkProducer d d := by
          simp [Dfms.exec, dispatch, addProducer, hn, ha] at h3
          simp [← h3, Graph.linkProducer, ha]
        subst this
        exact ⟨by simp [Call.Made, Graph.linkProducer], .inr (.inr (.inl ⟨d, d, hn, rfl⟩))⟩
      · simp [Dfms.exec, dispatch, addProducer, addOutput, hn, ha] at h3
    have ho : d ∉ g.outputs p := fun h => hn ((hw.producers_iff d p).2 h).1
    rw [exec_addProducer_link hn ho hpd] at h3
    cases h3
    exact ⟨by simp [Call.Made, Graph.linkProducer], .inr (.inr (.inl ⟨d, p, hn, rfl⟩))⟩
  | addOutput a o =>
    by_cases ha : (g.kind a).isApp
    · by_cases hao : o = a
      · simp [Dfms.exec, dispatch, addOutput, ha, hao] at h3
      by_cases ho : o ∈ g.outputs a
      · simp only [Dfms.exec, dispatch, addOutput, ha, hao, ho] at h3
        cases h3
        exact ⟨ho, .inl rfl⟩
      have hn : a ∉ g.producers o := fun h => ho ((hw.producers_iff o a).1 ⟨h, ha⟩)
      rw [exec_addOutput_link ha hn ho hao] at h3
      cases h3
      exact ⟨by simp [Call.Made, Graph.linkProducer, ha], .inr (.inr (.inl ⟨o, a, hn, rfl⟩))⟩
    · simp [Dfms.exec, dispatch, ha] at h3
  | addStreamingConsumer d c =>
    by_cases hc : (g.kind c).isApp
    · by_cases hn : c ∈ g.consumers d
      · simp [Dfms.exec, dispatch, addStreamingConsumer, hc, hn] at h3
      by_cases hs : c ∈ g.streamingConsumers d
      · simp only [Dfms.exec, dispatch, addStreamingConsumer, hc, hn, hs] at h3
        cases h3
        exact ⟨hs, .inl rfl⟩
      have hi : d ∉ g.streamingInputs c := fun h => hs ((hw.streaming_iff d c).2 h)
      cases hk : g.kind c
      · simp [hk, Kind.isApp] at hc
      · rw [exec_addStreamingConsumer_link hk hs hn hi] at h3
        cases h3
        exact ⟨by simp [Call.Made, Graph.linkStreaming],
          .inr (.inr (.inr ⟨d, c, hk, hs, hn, rfl⟩))⟩
      · simp [Dfms.exec, dispatch, addStreamingConsumer, addStreamingInput, hc, hn, hs, hk,
          barrierAddStreamingInput, Kind.isApp] at h3
    · simp [Dfms.exec, dispatch, addStreamingConsumer, hc] at h3
  | addStreamingInput a d =>
    cases hk : g.kind a
    · simp [Dfms.exec, dispatch, hk] at h3
    · by_cases hi : d ∈ g.streamingInputs a
      · simp only [Dfms.exec, dispatch, addStreamingInput, hk, hi] at h3
        cases h3
        exact ⟨(hw.streaming_iff d a).2 hi, .inl rfl⟩
      have hs : a ∉ g.streamingConsumers d := fun h => hi ((hw.streaming_iff d a).1 h)
      by_cases hn : a ∈ g.consumers d
      · simp [Dfms.exec, dispatch, addStreamingInput, addStreamingConsumer, hk, hi, hn,
          Kind.isApp] at h3
      rw [exec_addStreamingInput_link hk hs hn hi] at h3
      cases h3
      exact ⟨by simp [Call.Made, Graph.linkStreaming], .inr (.inr (.inr ⟨d, a, hk, hs, hn, rfl⟩))⟩
    · simp [Dfms.exec, dispatch, hk, barrierAddStreamingInput] at h3

/-- **A wiring call that returns normally keeps the graph well wired**, at any depth of
the Python stack. -/
theorem WellWired.exec {n : Nat} {call : Call} {g' : Graph} (hw : WellWired g)
    (h : exec n call g = (g', none)) : WellWired g' := by
  rcases (exec_ok_cases hw h).2 with rfl | ⟨d, c, hc, hs, hn, rfl⟩ | ⟨d, p, hn, rfl⟩ |
    ⟨d, c, hc, hs, hn, rfl⟩
  · exact hw
  · exact hw.linkConsumer hc hs hn
  · exact hw.linkProducer hn
  · exact hw.linkStreaming hc hs hn

/-- A wiring call that returns normally removes no consumer and no output. -/
theorem WellWired.exec_mono {n : Nat} {call : Call} {g' : Graph} (hw : WellWired g)
    (h : Dfms.exec n call g = (g', none)) :
    (∀ d, g.consumers d ⊆ g'.consumers d) ∧ ∀ a, g.outputs a ⊆ g'.outputs a := by
  rcases (exec_ok_cases hw h).2 with rfl | ⟨d, c, -, -, -, rfl⟩ | ⟨d, p, -, rfl⟩ |
    ⟨d, c, -, -, -, rfl⟩
  · exact ⟨fun _ => List.Subset.refl _, fun _ => List.Subset.refl _⟩
  · exact ⟨fun _ _ hx => by simp [Graph.linkConsumer, hx], fun _ => List.Subset.refl _⟩
  · refine ⟨fun _ => List.Subset.refl _, fun _ x hx => ?_⟩
    simp only [Graph.linkProducer]
    split_ifs <;> simp [hx]
  · exact ⟨fun _ => List.Subset.refl _, fun _ => List.Subset.refl _⟩

end Preservation

/-! ## 4. Every wired graph -/

/-- One wiring call that returns normally, made at any depth of the Python stack. -/
def WireStep (g g' : Graph) : Prop := ∃ n c, exec n c g = (g', none)

/-- **Every graph that wiring calls returning normally build from fresh DROPs is well
wired.** -/
theorem WellWired.of_wired {kind : Uid → Kind} {mode : Uid → ExecutionMode} {g : Graph}
    (h : Relation.ReflTransGen WireStep (Graph.fresh kind mode) g) : WellWired g := by
  induction h with
  | refl => exact WellWired.fresh kind mode
  | tail _ hstep ih =>
    obtain ⟨n, c, hc⟩ := hstep
    exact ih.exec hc

/-- **Wiring calls that return normally keep the collections paired**, whatever their
order and repetitions: a consumer has the DROP among its inputs, an application producer has
it among its outputs and a streaming consumer among its streaming inputs, and back; no app is
both a consumer and a streaming consumer of one DROP; no collection holds a DROP twice.
(`addInput_streaming_consumer_one_sided` shows what a call that raises leaves.) -/
theorem wiring_keeps_collections_paired {kind : Uid → Kind} {mode : Uid → ExecutionMode}
    {g : Graph} (h : Relation.ReflTransGen WireStep (Graph.fresh kind mode) g) :
    (∀ d c, c ∈ g.consumers d ↔ d ∈ g.inputs c) ∧
      (∀ d p, p ∈ g.producers d ∧ (g.kind p).isApp ↔ d ∈ g.outputs p) ∧
      (∀ d c, c ∈ g.streamingConsumers d ↔ d ∈ g.streamingInputs c) ∧
      (∀ d c, c ∈ g.consumers d → c ∉ g.streamingConsumers d) ∧
      ∀ u, (g.consumers u).Nodup ∧ (g.producers u).Nodup ∧ (g.streamingConsumers u).Nodup ∧
        (g.inputs u).Nodup ∧ (g.outputs u).Nodup ∧ (g.streamingInputs u).Nodup := by
  have hw := WellWired.of_wired h
  exact ⟨hw.consumers_iff, hw.producers_iff, hw.streaming_iff, hw.not_both, fun u =>
    ⟨hw.nodup_consumers u, hw.nodup_producers u, hw.nodup_streamingConsumers u,
      hw.nodup_inputs u, hw.nodup_outputs u, hw.nodup_streamingInputs u⟩⟩

/-- A barrier wired to its input from both ends: each side lists the other once. -/
theorem wiring_keeps_collections_paired_both_ends :
    ∃ g, Relation.ReflTransGen WireStep
        (Graph.fresh (fun u => if u = 1 then .barrier else .data) fun _ => .drop) g ∧
      0 ∈ g.inputs 1 ∧ 1 ∈ g.consumers 0 ∧ (g.inputs 1).Nodup := by
  have hr : Relation.ReflTransGen WireStep
      (Graph.fresh (fun u => if u = 1 then .barrier else .data) fun _ => .drop) _ :=
    (Relation.ReflTransGen.single ⟨3, .addInput 1 0, rfl⟩).tail ⟨3, .addConsumer 0 1, rfl⟩
  have hp := wiring_keeps_collections_paired hr
  exact ⟨_, hr, (hp.1 0 1).1 (by decide), by decide, (hp.2.2.2.2 1).2.2.2.1⟩

/-- **Wiring keeps the classes and modes the DROPs were created with.** -/
theorem Graph.kind_executionMode_of_wired {kind : Uid → Kind} {mode : Uid → ExecutionMode}
    {g : Graph} (h : Relation.ReflTransGen WireStep (Graph.fresh kind mode) g) :
    g.kind = kind ∧ g.executionMode = mode := by
  induction h with
  | refl => exact ⟨rfl, rfl⟩
  | @tail g₁ _ _ hstep ih =>
    obtain ⟨n, c, hc⟩ := hstep
    have h := exec_kind_executionMode n c g₁
    rw [hc] at h
    exact ⟨h.1.trans ih.1, h.2.trans ih.2⟩

/-- Along wiring calls that return normally, a consumer of a DROP stays one, and an output
of an app stays one. -/
theorem wired_mono {kind : Uid → Kind} {mode : Uid → ExecutionMode} {g g' : Graph}
    (h : Relation.ReflTransGen WireStep (Graph.fresh kind mode) g)
    (h' : Relation.ReflTransGen WireStep g g') :
    (∀ d, g.consumers d ⊆ g'.consumers d) ∧ ∀ a, g.outputs a ⊆ g'.outputs a := by
  induction h' with
  | refl => exact ⟨fun _ => List.Subset.refl _, fun _ => List.Subset.refl _⟩
  | tail hg₁ hstep ih =>
    obtain ⟨n, c, hc⟩ := hstep
    have hm := (WellWired.of_wired (h.trans hg₁)).exec_mono hc
    exact ⟨fun d _ hx => hm.1 d (ih.1 d hx), fun a _ hx => hm.2 a (ih.2 a hx)⟩

/-- **One subscription per consumer and per output, whatever the order of the calls.**
After any sequence of wiring calls that return normally, from either end and with any
repetitions, a DROP holds exactly one `dropCompleted` closure for each of its consumers
when it is in DROP mode and none in EXTERNAL mode, and an app holds exactly one
`appFinished` closure for each of its outputs.  So a transition into COMPLETED calls each
consumer's `dropCompleted` once, and a transition into FINISHED or ERROR calls each output's
`producerFinished` once.  The pairs are the wiring's own: `d.addConsumer(a)` or
`a.addInput(d)` returning normally leaves `a` a consumer of `d`, `a.addOutput(d)`, or
`d.addProducer(a)` for an app `a`, leaves `d` an output of `a`, and later calls never
undo either. -/
theorem wired_subscriptions_exactly_once {kind : Uid → Kind} {mode : Uid → ExecutionMode}
    {g : Graph} (h : Relation.ReflTransGen WireStep (Graph.fresh kind mode) g) (d a : Uid) :
    (g.subs d).count (.dropCompleted a) =
        (if a ∈ g.consumers d ∧ g.executionMode d = .drop then 1 else 0) ∧
      (g.subs a).count (.appFinished d) = (if d ∈ g.outputs a then 1 else 0) ∧
      (statusListeners (g.subs d) .completed).count a =
        (if a ∈ g.consumers d ∧ g.executionMode d = .drop then 1 else 0) ∧
      (∀ v, v = .finished ∨ v = .error →
        (execStatusListeners (g.subs a) v).count d = (if d ∈ g.outputs a then 1 else 0)) ∧
      (∀ n g', exec n (.addConsumer d a) g = (g', none) ∨ exec n (.addInput a d) g = (g', none) →
        a ∈ g'.consumers d) ∧
      (∀ n g', exec n (.addOutput a d) g = (g', none) ∨
          exec n (.addProducer d a) g = (g', none) ∧ (kind a).isApp →
        d ∈ g'.outputs a) ∧
      ∀ g', Relation.ReflTransGen WireStep g g' →
        (a ∈ g.consumers d → a ∈ g'.consumers d) ∧ (d ∈ g.outputs a → d ∈ g'.outputs a) := by
  have hw := WellWired.of_wired h
  refine ⟨hw.count_dropCompleted d a, hw.count_appFinished a d, ?_, fun v hv => ?_,
    fun n g' hc => ?_, fun n g' hc => ?_, fun g' hg' => ?_⟩
  · rw [count_statusListeners, hw.count_dropCompleted]
  · rw [count_execStatusListeners _ hv, hw.count_appFinished]
  · rcases hc with hc | hc <;> exact (exec_ok_cases hw hc).1
  · rcases hc with hc | ⟨hc, ha⟩
    · exact (exec_ok_cases hw hc).1
    · have hk : g'.kind = kind := (Graph.kind_executionMode_of_wired (h.tail ⟨n, _, hc⟩)).1
      exact ((hw.exec hc).producers_iff d a).1 ⟨(exec_ok_cases hw hc).1, hk ▸ ha⟩
  · exact ⟨fun hm => (wired_mono h hg').1 d hm, fun hm => (wired_mono h hg').2 a hm⟩

/-- A barrier (`1`) wired to its input (`0`) from its end and then from the DROP's, then to
its output (`2`) by `addOutput`: one `dropCompleted` closure on the input, called once when
it completes, and one `appFinished` closure for the output, called once when the barrier
finishes. -/
theorem wired_subscriptions_exactly_once_barrier :
    ∃ g, Relation.ReflTransGen WireStep
        (Graph.fresh (fun u => if u = 1 then .barrier else .data) fun _ => .drop) g ∧
      2 ∈ g.outputs 1 ∧ (statusListeners (g.subs 0) .completed).count 1 = 1 ∧
      (execStatusListeners (g.subs 1) .finished).count 2 = 1 := by
  obtain ⟨g₂, hr, hg, h10⟩ : ∃ g₂, Relation.ReflTransGen WireStep
      (Graph.fresh (fun u => if u = 1 then .barrier else .data) fun _ => .drop) g₂ ∧
      exec 3 (.addOutput 1 2) g₂ = ((exec 3 (.addOutput 1 2) g₂).1, none) ∧ 1 ∈ g₂.consumers 0 := by
    refine ⟨_, (Relation.ReflTransGen.single ⟨3, .addInput 1 0, rfl⟩).tail
      ⟨3, .addConsumer 0 1, rfl⟩, ?_, ?_⟩
    · rfl
    · decide
  have hr' := hr.tail ⟨3, _, hg⟩
  have hout := (wired_subscriptions_exactly_once hr 2 1).2.2.2.2.2.1 3 _ (.inl hg)
  have hcons := ((wired_subscriptions_exactly_once hr 0 1).2.2.2.2.2.2 _ (.single ⟨3, _, hg⟩)).1 h10
  refine ⟨_, hr', hout, ?_, ?_⟩
  · rw [(wired_subscriptions_exactly_once hr' 0 1).2.2.1,
      if_pos ⟨hcons, by rw [(Graph.kind_executionMode_of_wired hr').2]⟩]
  · rw [(wired_subscriptions_exactly_once hr' 2 1).2.2.2.1 .finished (.inl rfl), if_pos hout]

/-! ## 5. A call that raises -/

/-- `addInput` on an app that is already a streaming consumer of the DROP records the
input, then fails in `addConsumer`'s streaming check: the graph keeps the input with no
matching consumer entry. -/
theorem exec_addInput_of_streaming {g : Graph} {n : Nat} {a d : Uid}
    (ha : (g.kind a).isApp) (hi : d ∉ g.inputs a) (hs : a ∈ g.streamingConsumers d) :
    exec (n + 2) (.addInput a d) g =
      ({ g with inputs := push g.inputs a d }, some (.alreadyStreamingConsumer a)) := by
  simp [exec, dispatch, addInput, addConsumer, ha, hi, hs]

/-- **A wiring call that raises can leave one side of a pair made.**  An app streaming
from a data DROP, then `app.addInput(drop)`: the call raises, the drop is now both an input
and a streaming input of the app, and the app is not among the drop's consumers. -/
theorem addInput_streaming_consumer_one_sided :
    ∃ g₁, exec 3 (.addStreamingConsumer 0 1)
        (Graph.fresh (fun u => if u = 1 then .app else .data) fun _ => .drop) = (g₁, none) ∧
      (exec 3 (.addInput 1 0) g₁).2 = some (.alreadyStreamingConsumer 1) ∧
      0 ∈ (exec 3 (.addInput 1 0) g₁).1.inputs 1 ∧
      0 ∈ (exec 3 (.addInput 1 0) g₁).1.streamingInputs 1 ∧
      1 ∉ (exec 3 (.addInput 1 0) g₁).1.consumers 0 := by
  refine ⟨_, rfl, ?_⟩
  rw [exec_addInput_of_streaming (n := 1) (by decide) (by decide) (by decide)]
  decide

end Dfms

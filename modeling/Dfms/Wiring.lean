/-
# Wiring: the relationship collections and their back-references

`AbstractDROP.addConsumer`, `addProducer`, `addStreamingConsumer` and `AppDROP.addInput`,
`addOutput`, `addStreamingInput` (`drop.py`, lines 617-762 and 1060-1102) maintain six
collections in pairs.  Each method mutates its own side first and then calls its partner
on the other object, which finds the pair already half-made and returns at once.  The
partner calls are Python calls, so they run against the interpreter's recursion limit:
`exec` takes the number of frames left as its first argument and raises `recursionLimit`
when it is exhausted.

This module gives the model of the six methods and of the `LocalEventBroadcaster`
subscriptions they register (`addConsumer`'s `dropCompleted` closure on `'status'` events,
`addOutput`'s `appFinished` closure on `'execStatus'` events).  `WellWired.lean` proves what
successful wiring calls preserve.
-/
import Dfms.Basic
import Mathlib.Data.List.Count

namespace Dfms

/-- Which `drop.py` class a DROP is, as far as the wiring code asks (`hasattr`). -/
inductive Kind
  /-- A data DROP: `FileDROP`, `InMemoryDROP`, `NgasDROP`, `NullDROP`, `ContainerDROP`,
  `DirectoryContainer`. -/
  | data
  /-- An `AppDROP` that is not a `BarrierAppDROP`. -/
  | app
  /-- A `BarrierAppDROP`. -/
  | barrier
  deriving DecidableEq, Repr

/-- `AppDROP` defines `dropCompleted`, `dataWritten`, `addInput`, `addOutput` and
`addStreamingInput`; no data DROP does. -/
def Kind.isApp : Kind → Bool
  | .data => false
  | .app | .barrier => true

/-- A callback held by a DROP's event broadcaster, named by the closure `drop.py`
registers and the object it captures. -/
inductive Sub
  /-- `addConsumer`'s closure: on a `'status'` event with status COMPLETED it calls
  `consumer.dropCompleted(self.uid)`. -/
  | dropCompleted (consumer : Uid)
  /-- `addOutput`'s closure: on an `'execStatus'` event with status FINISHED or ERROR it
  calls `outputDrop.producerFinished(self.uid)`. -/
  | appFinished (output : Uid)
  deriving DecidableEq, Repr

/-- The part of every DROP of a session that the wiring code reads and writes, one
function of the uid per attribute (`_consumers`, `_producers`, ...).  `inputs`, `outputs`
and `streamingInputs` are `OrderedDict`s keyed by uid in the source; with distinct uids a
key is new exactly when its DROP is, so the model keeps the values in insertion order. -/
structure Graph where
  kind : Uid → Kind
  executionMode : Uid → ExecutionMode
  consumers : Uid → List Uid
  producers : Uid → List Uid
  streamingConsumers : Uid → List Uid
  inputs : Uid → List Uid
  outputs : Uid → List Uid
  streamingInputs : Uid → List Uid
  subs : Uid → List Sub

/-- Freshly constructed DROPs of the given classes and modes: every collection empty,
nothing subscribed. -/
def Graph.fresh (kind : Uid → Kind) (mode : Uid → ExecutionMode) : Graph :=
  ⟨kind, mode, fun _ => [], fun _ => [], fun _ => [], fun _ => [], fun _ => [], fun _ => [],
    fun _ => []⟩

/-- The exceptions the wiring methods raise, with the source's messages. -/
inductive WiringError
  /-- "The consumer %s doesn't have a 'dropCompleted' method, cannot add to %s" -/
  | noDropCompleted (consumer drop : Uid)
  /-- "Consumer %s is already registered as a streaming consumer" -/
  | alreadyStreamingConsumer (consumer : Uid)
  /-- "The streaming consumer %r doesn't have a 'dropCompleted' and/or 'dataWritten'
  method" -/
  | noDataWritten (consumer : Uid)
  /-- "Consumer %s is already registered as a normal consumer" -/
  | alreadyConsumer (consumer : Uid)
  /-- "Cannot add an AppConsumer as its own output" -/
  | ownOutput
  /-- "BarrierAppDROPs don't accept streaming inputs" -/
  | barrierStreamingInput
  /-- `AttributeError`: the receiver's class does not define the method. -/
  | noAttribute (receiver : Uid)
  /-- `RuntimeError: maximum recursion depth exceeded`. -/
  | recursionLimit
  deriving DecidableEq, Repr

/-- A wiring call `receiver.method(argument)`. -/
inductive Call
  | addConsumer (drop consumer : Uid)
  | addInput (app inputDrop : Uid)
  | addProducer (drop producer : Uid)
  | addOutput (app outputDrop : Uid)
  | addStreamingConsumer (drop streamingConsumer : Uid)
  | addStreamingInput (app streamingInputDrop : Uid)
  deriving DecidableEq, Repr

/-! ## 1. The six methods

Each takes `call`, the interpreter running a nested method call one frame deeper. -/

section Methods

variable (call : Call → Graph → Outcome Graph WiringError)

/-- `AbstractDROP.addConsumer`.  Every class with `dropCompleted` also has `addInput`, so
the `hasattr(consumer, 'addInput')` back-reference is always made. -/
def addConsumer (self consumer : Uid) (g : Graph) : Outcome Graph WiringError :=
  if !(g.kind consumer).isApp then (g, some (.noDropCompleted consumer self))
  else if consumer ∈ g.streamingConsumers self then
    (g, some (.alreadyStreamingConsumer consumer))
  else if consumer ∈ g.consumers self then (g, none)
  else
    (call (.addInput consumer self)
      { g with consumers := push g.consumers self consumer }).andThen fun g =>
    if g.executionMode self = .external then (g, none)
    else ({ g with subs := push g.subs self (.dropCompleted consumer) }, none)

/-- `AppDROP.addInput`. -/
def addInput (self inputDrop : Uid) (g : Graph) : Outcome Graph WiringError :=
  if inputDrop ∈ g.inputs self then (g, none)
  else call (.addConsumer inputDrop self) { g with inputs := push g.inputs self inputDrop }

/-- `AbstractDROP.addProducer`. -/
def addProducer (self producer : Uid) (g : Graph) : Outcome Graph WiringError :=
  if producer ∈ g.producers self then (g, none)
  else
    let g := { g with producers := push g.producers self producer }
    if (g.kind producer).isApp then call (.addOutput producer self) g else (g, none)

/-- `AppDROP.addOutput`. -/
def addOutput (self outputDrop : Uid) (g : Graph) : Outcome Graph WiringError :=
  if outputDrop = self then (g, some .ownOutput)
  else if outputDrop ∈ g.outputs self then (g, none)
  else
    (call (.addProducer outputDrop self)
      { g with outputs := push g.outputs self outputDrop }).andThen fun g =>
    ({ g with subs := push g.subs self (.appFinished outputDrop) }, none)

/-- `AbstractDROP.addStreamingConsumer`.  Every class with `dropCompleted` and
`dataWritten` also has `addStreamingInput`. -/
def addStreamingConsumer (self streamingConsumer : Uid) (g : Graph) :
    Outcome Graph WiringError :=
  if !(g.kind streamingConsumer).isApp then (g, some (.noDataWritten streamingConsumer))
  else if streamingConsumer ∈ g.consumers self then
    (g, some (.alreadyConsumer streamingConsumer))
  else if streamingConsumer ∈ g.streamingConsumers self then (g, none)
  else
    call (.addStreamingInput streamingConsumer self)
      { g with streamingConsumers := push g.streamingConsumers self streamingConsumer }

/-- `AppDROP.addStreamingInput`. -/
def addStreamingInput (self streamingInputDrop : Uid) (g : Graph) : Outcome Graph WiringError :=
  if streamingInputDrop ∈ g.streamingInputs self then (g, none)
  else
    call (.addStreamingConsumer streamingInputDrop self)
      { g with streamingInputs := push g.streamingInputs self streamingInputDrop }

/-- `BarrierAppDROP.addStreamingInput`, which overrides the method above. -/
def barrierAddStreamingInput (g : Graph) : Outcome Graph WiringError :=
  (g, some .barrierStreamingInput)

/-- Python's method lookup: the method a call runs, for its receiver's class. -/
def dispatch : Call → Graph → Outcome Graph WiringError
  | .addConsumer d c, g => addConsumer call d c g
  | .addProducer d p, g => addProducer call d p g
  | .addStreamingConsumer d c, g => addStreamingConsumer call d c g
  | .addInput a d, g => if (g.kind a).isApp then addInput call a d g else (g, some (.noAttribute a))
  | .addOutput a d, g => if (g.kind a).isApp then addOutput call a d g else (g, some (.noAttribute a))
  | .addStreamingInput a d, g =>
    match g.kind a with
    | .data => (g, some (.noAttribute a))
    | .app => addStreamingInput call a d g
    | .barrier => barrierAddStreamingInput g

end Methods

/-- A wiring call made with `depth` Python frames left before the recursion limit. -/
def exec : Nat → Call → Graph → Outcome Graph WiringError
  | 0, _, g => (g, some .recursionLimit)
  | n + 1, c, g => dispatch (exec n) c g

/-! ## 2. What the subscriptions call

`LocalEventBroadcaster.fire` calls every subscriber of the event's type, in subscription
order, and swallows what a callback raises (spec, section 4.1).  The closures filter on
the event's payload. -/

/-- The consumers whose `dropCompleted(self.uid)` runs, in order, when a DROP whose
broadcaster holds `subs` fires a `'status'` event carrying `status`. -/
def statusListeners (subs : List Sub) (status : DROPStates) : List Uid :=
  subs.filterMap fun
    | .dropCompleted c => if status = .completed then some c else none
    | .appFinished _ => none

/-- The outputs whose `producerFinished(self.uid)` runs, in order, when an app whose
broadcaster holds `subs` fires an `'execStatus'` event carrying `execStatus`. -/
def execStatusListeners (subs : List Sub) (execStatus : AppDROPStates) : List Uid :=
  subs.filterMap fun
    | .appFinished o => if execStatus = .finished ∨ execStatus = .error then some o else none
    | .dropCompleted _ => none

/-- Only a transition into COMPLETED reaches the consumers. -/
theorem statusListeners_of_ne {status : DROPStates} (h : status ≠ .completed) (subs : List Sub) :
    statusListeners subs status = [] :=
  List.filterMap_eq_nil_iff.2 fun s _ => by cases s <;> simp [h]

/-- Only a transition into FINISHED or ERROR reaches the outputs. -/
theorem execStatusListeners_of_not {execStatus : AppDROPStates}
    (h : ¬ (execStatus = .finished ∨ execStatus = .error)) (subs : List Sub) :
    execStatusListeners subs execStatus = [] :=
  List.filterMap_eq_nil_iff.2 fun s _ => by cases s <;> simp [h]

/-- A transition into COMPLETED reaches each consumer once per subscription it holds. -/
theorem count_statusListeners (subs : List Sub) (c : Uid) :
    (statusListeners subs .completed).count c = subs.count (.dropCompleted c) := by
  induction subs with
  | nil => rfl
  | cons s subs ih =>
    cases s with
    | dropCompleted c' =>
      have : statusListeners (.dropCompleted c' :: subs) .completed = c' :: statusListeners subs .completed := by
        simp [statusListeners]
      rw [this, List.count_cons, List.count_cons, ih]; simp
    | appFinished o =>
      have : statusListeners (.appFinished o :: subs) .completed = statusListeners subs .completed := by
        simp [statusListeners]
      rw [this, List.count_cons, ih]; simp

/-- A transition into FINISHED or ERROR reaches each output once per subscription. -/
theorem count_execStatusListeners (subs : List Sub) {v : AppDROPStates}
    (hv : v = .finished ∨ v = .error) (o : Uid) :
    (execStatusListeners subs v).count o = subs.count (.appFinished o) := by
  induction subs with
  | nil => rfl
  | cons s subs ih =>
    cases s with
    | dropCompleted c' =>
      have : execStatusListeners (.dropCompleted c' :: subs) v = execStatusListeners subs v := by
        simp [execStatusListeners]
      rw [this, List.count_cons, ih]; simp
    | appFinished o' =>
      have : execStatusListeners (.appFinished o' :: subs) v = o' :: execStatusListeners subs v := by
        simp [execStatusListeners, hv]
      rw [this, List.count_cons, List.count_cons, ih]; simp
end Dfms

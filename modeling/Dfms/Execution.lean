/-
# Execution: a wired graph running, one event at a time

What happens once a graph is wired and its source DROPs complete (`drop.py`, lines 576-584,
658-667, 699-724, 764-785, 1081-1089, 1132-1137 and 1157-1185):

* a DROP whose status changes fires a `'status'` event; `addConsumer`'s `dropCompleted`
  closure calls `consumer.dropCompleted(uid)` on COMPLETED, and a `BarrierAppDROP` that has
  now seen as many completions as it has inputs starts a thread running `execute`;
* `execute` sets `execStatus` to RUNNING, calls `run()`, sets FINISHED or ERROR and finally
  the status COMPLETED; the `'execStatus'` event reaches `addOutput`'s `appFinished`
  closures, which call `outputDrop.producerFinished(uid)`, and the last producer to finish
  calls `setCompleted`.

Every DROP, application or not, carries `AbstractDROP`'s attributes, so its record is the
`DataDrop` of `Drop.lean`, and each call on it is the method of `Drop.lean`.  This module
adds what those methods leave out: the calls they make on other DROPs, delivered
synchronously in the source's order, with the callbacks' exceptions swallowed.  The threads
are run one at a time: `Step` either completes a source DROP or runs one started `execute`
to its end.  `Delivered.lean` proves what every run keeps.
-/
import Dfms.WellWired
import Dfms.Drop

namespace Dfms

/-- The state of every DROP of a session while its graph runs. -/
structure Runtime where
  /-- `AbstractDROP`'s data-path attributes, of data DROPs and applications alike. -/
  drops : Uid → DataDrop
  execStatus : Uid → AppDROPStates
  /-- `BarrierAppDROP._completedInputs`. -/
  completedInputs : Uid → List Uid
  /-- The `execute` threads started and not yet run to their end, by application. -/
  pending : List Uid
  /-- The `execute` calls run to their end, in order. -/
  executed : List Uid

/-- The DROPs of a wired graph before any completes. -/
def Runtime.init (g : Graph) (expectedSize : Uid → Option Int) : Runtime where
  drops u := DataDrop.init (expectedSize u) (g.streamingConsumers u) (g.producers u)
  execStatus _ := .notRun
  completedInputs _ := []
  pending := []
  executed := []

/-- What `run()` does that the graph sees: one `write` to an output of the application.
Whether the write raises is up to the I/O layer; `run` may catch it or not. -/
structure RunWrite where
  output : Uid
  openRaises : Bool
  written : Option Nat
  data : Bytes

namespace Runtime

section Calls

variable (g : Graph)

/-- `consumer.dropCompleted(uid)`: `BarrierAppDROP.dropCompleted`, whose thread start is
recorded in `pending`; `AppDROP.dropCompleted` does nothing. -/
def dropCompleted (consumer uid : Uid) (r : Runtime) : Runtime :=
  match g.kind consumer with
  | .barrier =>
    let completedInputs := barrierAppend (r.completedInputs consumer) uid
    let r := { r with completedInputs := Function.update r.completedInputs consumer completedInputs }
    if barrierReady completedInputs (g.inputs consumer) then { r with pending := r.pending ++ [consumer] }
    else r
  | _ => r

/-- DROP `u`'s `'status'` event for `status`, delivered to its subscribers in order. -/
def fire (u : Uid) (status : DROPStates) (r : Runtime) : Runtime :=
  (statusListeners (g.subs u) status).foldl (fun r c => r.dropCompleted g c u) r

/-- The calls a method of `Drop.lean` made on the streaming consumers of `u`.
`AppDROP.dataWritten` does nothing. -/
def deliver (u : Uid) (calls : List Streamed) (r : Runtime) : Runtime :=
  calls.foldl (fun r x => match x with
    | .dropCompleted c => r.dropCompleted g c u
    | .dataWritten _ _ => r) r

/-- A method `m` of `Drop.lean` called on DROP `u`: its record is updated, the status
setter's event is fired if the status changed, then the streaming consumers get the calls
`m` logged.  What `m` raises is dropped: the event machinery swallows it, and `run` may
catch it. -/
def apply (u : Uid) (m : DataDrop → Outcome DataDrop DropError) (r : Runtime) : Runtime :=
  let before := r.drops u
  let after := (m before).1
  let r := { r with drops := Function.update r.drops u after }
  let r := if after.status = before.status then r else r.fire g u after.status
  r.deliver g u (after.streamed.drop before.streamed.length)

/-- The `execStatus` setter of application `a`: on a change, the `'execStatus'` event
reaches each `appFinished` closure, which calls `outputDrop.producerFinished(a)`. -/
def setExecStatus (a : Uid) (execStatus : AppDROPStates) (r : Runtime) : Runtime :=
  if r.execStatus a = execStatus then r
  else
    (execStatusListeners (g.subs a) execStatus).foldl
      (fun r o => r.apply g o (producerFinished (fun _ => false) a))
      { r with execStatus := Function.update r.execStatus a execStatus }

/-- `BarrierAppDROP.execute`, with `run()` making `writes` and raising at its end if
`raises`. -/
def execute (poly : UInt32) (a : Uid) (writes : List RunWrite) (raises : Bool) (r : Runtime) :
    Runtime :=
  let r := r.setExecStatus g a .running
  let r := writes.foldl
    (fun r w => r.apply g w.output (write poly ⟨w.openRaises, w.written, fun _ => false⟩ w.data)) r
  let r := r.setExecStatus g a (if raises then .error else .finished)
  r.apply g a fun s => (setStatus .completed s, none)

end Calls

/-- The thread running `execute` for `a` has ended. -/
def finishRun (a : Uid) (r : Runtime) : Runtime :=
  { r with pending := r.pending.erase a, executed := r.executed ++ [a] }

end Runtime

/-- One step of a session running graph `g`, sequentially. -/
inductive Step (poly : UInt32) (g : Graph) : Runtime → Runtime → Prop
  /-- The session calls `setCompleted()` on a DROP that has no producers. -/
  | setCompleted {r : Runtime} (u : Uid) (source : g.producers u = []) :
      Step poly g r (r.apply g u (Dfms.setCompleted fun _ => false))
  /-- One started `execute` thread runs to its end; `run()` writes only to the
  application's outputs. -/
  | execute {r : Runtime} (a : Uid) (started : a ∈ r.pending) (writes : List RunWrite)
      (toOutputs : ∀ w ∈ writes, w.output ∈ g.outputs a) (raises : Bool) :
      Step poly g r ((r.execute g poly a writes raises).finishRun a)

end Dfms

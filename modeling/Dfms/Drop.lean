/-
# One DROP's data path: `write`, `setCompleted`, `producerFinished`

`AbstractDROP.write` (`drop.py`, lines 328-380), `_updateChecksum` (409-414), the `status`
setter (576-584), `producerFinished` (699-724), `setCompleted` (764-785) and the external
`size` and `checksum` setters (553-559, 430-436), for one data DROP.  What the rest of the world does during a call (the count the I/O layer's `write`
returns, whether it raises, whether a streaming consumer's callback raises) is an argument
of the call; the calls the DROP makes on its streaming consumers are logged in `streamed`.
The `'status'` event the setter fires is dispatched in `Execution.lean`.

`write` is cut where the source reads shared state without a lock held across the next
statement (`writeCheck`, `writeBody`, `writeFinish`), and `producerFinished` at the end of its
locked block (`producerFinishedLocked`), so that `Interleave.lean` can run the pieces as
steps of different threads; the sequential methods are their compositions.
-/
import Dfms.Basic

namespace Dfms

/-- Bytes, Python 2 `str`. -/
abbrev Bytes := List UInt8

/-- One byte through the reflected CRC-32 register with polynomial `poly`. -/
def crcByte (poly : UInt32) (c : UInt32) (b : UInt8) : UInt32 :=
  (List.range 8).foldl (fun c _ => if c &&& 1 = 1 then (c >>> 1) ^^^ poly else c >>> 1)
    (c ^^^ b.toUInt32)

/-- `crc32(chunk, value)`: the running CRC of `binascii` or of the `crc32c` package, which
`drop.py` imports when it can (`ChecksumTypes.CRC_32C`, else `CRC_32`). -/
def crc32 (poly : UInt32) (chunk : Bytes) (value : UInt32) : UInt32 :=
  ~~~ (chunk.foldl (crcByte poly) (~~~ value))

/-- The polynomial of `binascii.crc32`, `ChecksumTypes.CRC_32`. -/
def crc32Poly : UInt32 := 0xEDB88320

/-- The polynomial of `crc32c.crc32`, `ChecksumTypes.CRC_32C`. -/
def crc32cPoly : UInt32 := 0x82F63B78

/-- A call a DROP makes on one of its streaming consumers. -/
inductive Streamed
  /-- `streamingConsumer.dataWritten(self.uid, writtenData)` -/
  | dataWritten (consumer : Uid) (data : Bytes)
  /-- `ic.dropCompleted(self.uid)`: the stream has ended. -/
  | dropCompleted (consumer : Uid)
  deriving DecidableEq, Repr

/-- The attributes of a data DROP that its data path reads and writes. -/
structure DataDrop where
  status : DROPStates
  /-- `_size`: `None` until the first write through the DROP. -/
  size : Option Nat
  /-- `_checksum`: `None` until the first write through the DROP. -/
  checksum : Option UInt32
  /-- Whether `_wio` is set; the first write sets it. -/
  wio : Bool
  expectedSize : Int
  streamingConsumers : List Uid
  producers : List Uid
  finishedProducers : List Uid
  /-- The calls made on the streaming consumers, in order. -/
  streamed : List Streamed
  deriving DecidableEq, Repr

/-- `AbstractDROP.__init__` once `initialize` has returned: `expectedSize` is kept only if it
was given and is truthy, and the status is INITIALIZED. -/
def DataDrop.init (expectedSize : Option Int) (streamingConsumers producers : List Uid) :
    DataDrop where
  status := .initialized
  size := none
  checksum := none
  wio := false
  expectedSize := match expectedSize with
    | some e => if e ≠ 0 then e else -1
    | none => -1
  streamingConsumers := streamingConsumers
  producers := producers
  finishedProducers := []
  streamed := []

/-- The exceptions of the data path, with the source's messages. -/
inductive DropError
  /-- "No more writing expected" -/
  | noMoreWriting
  /-- "DROP %s/%s not in INITIALIZED or WRITING state (%s), cannot setComplete()" -/
  | notWritable (status : DROPStates)
  /-- "%s is not a producer of %r" -/
  | notProducer (uid : Uid)
  /-- "More producers finished that registered in DROP %r" -/
  | overFinished
  /-- Raised by the I/O layer or by a streaming consumer's callback. -/
  | external
  deriving DecidableEq, Repr

/-- `for c in consumers: call(c)` where the calls in `raises` raise: the calls made, up to
and including the first that raises, and whether one did. -/
def callEach (raises : Streamed → Bool) (call : Uid → Streamed) : List Uid → List Streamed × Bool
  | [] => ([], false)
  | c :: cs =>
    if raises (call c) then ([call c], true)
    else ((call c :: (callEach raises call cs).1), (callEach raises call cs).2)

/-- The `status` setter: nothing if the value is the current one. -/
def setStatus (value : DROPStates) (s : DataDrop) : DataDrop :=
  if value = s.status then s else { s with status := value }

@[simp] theorem setStatus_status (value : DROPStates) (s : DataDrop) :
    (setStatus value s).status = value := by
  unfold setStatus; split_ifs with h <;> simp [h]

/-- The setter's early return changes nothing a caller can see. -/
theorem setStatus_eq (value : DROPStates) (s : DataDrop) :
    setStatus value s = { s with status := value } := by
  unfold setStatus; split_ifs with h
  · rw [h]
  · rfl

/-- `setCompleted`.  `self._wio.close()` releases the writer and changes no attribute the
model keeps. -/
def setCompleted (raises : Streamed → Bool) (s : DataDrop) : Outcome DataDrop DropError :=
  if !s.status.isWritable then (s, some (.notWritable s.status))
  else
    let s := setStatus .completed s
    let r := callEach raises .dropCompleted s.streamingConsumers
    ({ s with streamed := s.streamed ++ r.1 }, if r.2 then some .external else none)

/-! ## `write`, in three pieces -/

/-- What the world does during one `write`. -/
structure WriteEnv where
  /-- Whether `self._wio.open(OpenMode.OPEN_WRITE)` raises; asked on the first write only. -/
  openRaises : Bool
  /-- What `self._wio.write(data)` returns, or `none` if it raises. -/
  written : Option Nat
  /-- The calls on streaming consumers that raise. -/
  raises : Streamed → Bool

section Write

variable (poly : UInt32)

/-- `write`'s status check. -/
def writeCheck (s : DataDrop) : Outcome DataDrop DropError :=
  if s.status.isWritable then (s, none) else (s, some .noMoreWriting)

/-- `write` from the lazy opening of the writer to `_updateChecksum`: the size grows by the
count the I/O layer returns, the streaming consumers get `buffer(data, 0, nbytes)`, and the
checksum is updated with `data`. -/
def writeBody (env : WriteEnv) (data : Bytes) (s : DataDrop) : Outcome DataDrop DropError :=
  if !s.wio && env.openRaises then ({ s with wio := true }, some .external)
  else
    match env.written with
    | none => ({ s with wio := true }, some .external)
    | some nbytes =>
      let r := callEach env.raises (fun c => .dataWritten c (data.take nbytes)) s.streamingConsumers
      let s := { s with wio := true, size := some (s.size.getD 0 + nbytes),
                        streamed := s.streamed ++ r.1 }
      if r.2 then (s, some .external)
      else ({ s with checksum := some (crc32 poly data (s.checksum.getD 0)) }, none)

/-- `write`'s last statement: `WRITING`, or `setCompleted` once a positive `expectedSize`
has been reached. -/
def writeFinish (raises : Streamed → Bool) (s : DataDrop) : Outcome DataDrop DropError :=
  if s.expectedSize > 0 then
    if s.expectedSize - (s.size.getD 0 : Int) > 0 then (setStatus .writing s, none)
    else setCompleted raises s
  else (setStatus .writing s, none)

/-- `AbstractDROP.write`. -/
def write (env : WriteEnv) (data : Bytes) (s : DataDrop) : Outcome DataDrop DropError :=
  ((writeCheck s).andThen (writeBody poly env data)).andThen (writeFinish env.raises)

end Write

/-! ## `producerFinished`, in two pieces -/

/-- `set.add`. -/
def setAdd (l : List Uid) (x : Uid) : List Uid := if x ∈ l then l else l ++ [x]

/-- `producerFinished` up to the end of its `with self._finishedProducersLock:` block: the
registration check, then under the lock `nFinished`, the over-finishing check and the add.
Returns `nFinished` with the new state. -/
def producerFinishedLocked (uid : Uid) (s : DataDrop) : Except DropError (Nat × DataDrop) :=
  if uid ∉ s.producers then .error (.notProducer uid)
  else
    let nFinished := s.finishedProducers.length
    if nFinished ≥ s.producers.length then .error .overFinished
    else .ok (nFinished, { s with finishedProducers := setAdd s.finishedProducers uid })

/-- `nFinished + 1 == len(self._producers)`: whether the count a caller took in the locked
block makes it the last producer to report, the one that goes on to `setCompleted`. -/
def lastProducer (nFinished : Nat) (s : DataDrop) : Bool := nFinished + 1 == s.producers.length

/-- `producerFinished`'s last statement: `setCompleted` if this was the last producer. -/
def producerFinishedTail (raises : Streamed → Bool) (nFinished : Nat) (s : DataDrop) :
    Outcome DataDrop DropError :=
  if lastProducer nFinished s then setCompleted raises s else (s, none)

/-- `AbstractDROP.producerFinished`. -/
def producerFinished (raises : Streamed → Bool) (uid : Uid) (s : DataDrop) :
    Outcome DataDrop DropError :=
  match producerFinishedLocked uid s with
  | .error e => (s, some e)
  | .ok (nFinished, s) => producerFinishedTail raises nFinished s

/-! ## `BarrierAppDROP.dropCompleted`, in two pieces -/

/-- `self._completedInputs.append(uid)`, the first statement of
`BarrierAppDROP.dropCompleted`. -/
def barrierAppend (completedInputs : List Uid) (uid : Uid) : List Uid := completedInputs ++ [uid]

/-- `len(self._completedInputs) == len(self._inputs)`: whether `dropCompleted` goes on to
start `execute` on a new thread. -/
def barrierReady (completedInputs inputs : List Uid) : Bool :=
  completedInputs.length == inputs.length

/-! ## What each method keeps -/

/-- The streaming consumer a call is made on. -/
def Streamed.consumer : Streamed → Uid
  | .dataWritten c _ | .dropCompleted c => c

/-- **What a method of the data path may do to a DROP.**  It keeps the wiring it reads,
only appends calls on the DROP's streaming consumers, keeps the status among INITIALIZED,
WRITING and COMPLETED, and never moves a COMPLETED DROP. -/
structure Evolves (s s' : DataDrop) : Prop where
  producers_eq : s'.producers = s.producers
  streamingConsumers_eq : s'.streamingConsumers = s.streamingConsumers
  streamed_eq : ∃ calls, s'.streamed = s.streamed ++ calls ∧
    ∀ x ∈ calls, x.consumer ∈ s.streamingConsumers
  status_live : s.status.isWritable ∨ s.status = .completed →
    s'.status.isWritable ∨ s'.status = .completed
  status_completed : s.status = .completed → s'.status = .completed

section Keeps

variable {s s' s'' : DataDrop} {raises : Streamed → Bool}

theorem Evolves.refl (s : DataDrop) : Evolves s s := ⟨rfl, rfl, ⟨[], by simp, by simp⟩, id, id⟩

theorem Evolves.trans (h : Evolves s s') (h' : Evolves s' s'') : Evolves s s'' := by
  obtain ⟨c, hc, hcm⟩ := h.streamed_eq
  obtain ⟨c', hc', hcm'⟩ := h'.streamed_eq
  refine ⟨h'.producers_eq.trans h.producers_eq,
    h'.streamingConsumers_eq.trans h.streamingConsumers_eq, ⟨c ++ c', by simp [hc', hc], ?_⟩,
    h'.status_live ∘ h.status_live, h'.status_completed ∘ h.status_completed⟩
  intro x hx
  rcases List.mem_append.1 hx with hx | hx
  · exact hcm x hx
  · exact h.streamingConsumers_eq ▸ hcm' x hx

/-- A change of the fields the data path alone writes. -/
theorem Evolves.of_fields (hs : s'.status = s.status) (hp : s'.producers = s.producers)
    (hc : s'.streamingConsumers = s.streamingConsumers)
    (hst : ∃ calls, s'.streamed = s.streamed ++ calls ∧
      ∀ x ∈ calls, x.consumer ∈ s.streamingConsumers) : Evolves s s' :=
  ⟨hp, hc, hst, hs ▸ id, hs ▸ id⟩

theorem mem_callEach {call : Uid → Streamed} {cs : List Uid} {x : Streamed}
    (hx : x ∈ (callEach raises call cs).1) : ∃ c ∈ cs, x = call c := by
  induction cs with
  | nil => cases hx
  | cons c cs ih =>
    unfold callEach at hx
    split_ifs at hx
    · exact ⟨c, List.mem_cons_self c cs, List.mem_singleton.1 hx⟩
    · rcases List.mem_cons.1 hx with rfl | hx
      · exact ⟨c, List.mem_cons_self c cs, rfl⟩
      · obtain ⟨c', hc', rfl⟩ := ih hx
        exact ⟨c', List.mem_cons_of_mem c hc', rfl⟩

theorem setCompleted_status_of_live (h : s.status.isWritable ∨ s.status = .completed) :
    (setCompleted raises s).1.status = .completed := by
  unfold setCompleted
  split_ifs with hw
  · cases h with
    | inl h => simp [h] at hw
    | inr h => exact h
  · simp

@[simp] theorem setCompleted_finishedProducers :
    (setCompleted raises s).1.finishedProducers = s.finishedProducers := by
  unfold setCompleted; split_ifs <;> simp [setStatus_eq]

theorem evolves_setCompleted (raises : Streamed → Bool) (s : DataDrop) :
    Evolves s (setCompleted raises s).1 := by
  unfold setCompleted
  split_ifs with hw
  · exact Evolves.refl s
  · simp only [setStatus_eq]
    refine ⟨rfl, rfl, ⟨_, rfl, fun x hx => ?_⟩, fun _ => by simp, fun _ => rfl⟩
    obtain ⟨c, hc, rfl⟩ := mem_callEach hx
    exact hc

theorem evolves_producerFinished (raises : Streamed → Bool) (uid : Uid) (s : DataDrop) :
    Evolves s (producerFinished raises uid s).1 := by
  unfold producerFinished
  split
  · exact Evolves.refl s
  · next n s' h =>
    have h1 : Evolves s s' := by
      simp only [producerFinishedLocked] at h
      split_ifs at h
      cases h
      exact .of_fields rfl rfl rfl ⟨[], by simp, by simp⟩
    unfold producerFinishedTail
    split_ifs
    · exact h1.trans (evolves_setCompleted raises _)
    · exact h1

/-- **A producer reported for the first time is added**, and completes the DROP if it was
the last. -/
theorem producerFinished_of_fresh {uid : Uid} (hp : uid ∈ s.producers)
    (hf : uid ∉ s.finishedProducers) (hlt : s.finishedProducers.length < s.producers.length) :
    (producerFinished raises uid s).1 =
      if s.finishedProducers.length + 1 = s.producers.length then
        (setCompleted raises { s with finishedProducers := s.finishedProducers ++ [uid] }).1
      else { s with finishedProducers := s.finishedProducers ++ [uid] } := by
  have hge : ¬ s.finishedProducers.length ≥ s.producers.length := by omega
  simp [producerFinished, producerFinishedLocked, hp, hge, setAdd, hf, producerFinishedTail,
    lastProducer]
  split_ifs <;> rfl

end Keeps

section WriteKeeps

variable {poly : UInt32} {env : WriteEnv} {data : Bytes} {s : DataDrop}

theorem writeBody_keeps :
    Evolves s (writeBody poly env data s).1 ∧ (writeBody poly env data s).1.status = s.status ∧
      (writeBody poly env data s).1.finishedProducers = s.finishedProducers := by
  have hcalls : ∀ (r : List Streamed × Bool) (hr : ∀ x ∈ r.1, x.consumer ∈ s.streamingConsumers),
      ∃ calls, s.streamed ++ r.1 = s.streamed ++ calls ∧
        ∀ x ∈ calls, x.consumer ∈ s.streamingConsumers := fun r hr => ⟨r.1, rfl, hr⟩
  have hmem : ∀ nbytes, ∀ x ∈ (callEach env.raises (fun c => .dataWritten c (data.take nbytes))
      s.streamingConsumers).1, x.consumer ∈ s.streamingConsumers := by
    intro nbytes x hx
    obtain ⟨c, hc, rfl⟩ := mem_callEach hx
    exact hc
  unfold writeBody
  split
  · exact ⟨.of_fields rfl rfl rfl ⟨[], by simp, by simp⟩, rfl, rfl⟩
  · split
    · exact ⟨.of_fields rfl rfl rfl ⟨[], by simp, by simp⟩, rfl, rfl⟩
    · dsimp only
      split
      · exact ⟨.of_fields rfl rfl rfl (hcalls _ (hmem _)), rfl, rfl⟩
      · exact ⟨.of_fields rfl rfl rfl (hcalls _ (hmem _)), rfl, rfl⟩

theorem writeFinish_keeps (hs : s.status.isWritable) :
    Evolves s (writeFinish env.raises s).1 ∧
      (writeFinish env.raises s).1.finishedProducers = s.finishedProducers := by
  have hw : Evolves s (setStatus .writing s) :=
    ⟨by simp [setStatus_eq], by simp [setStatus_eq], ⟨[], by simp [setStatus_eq], by simp⟩,
      fun _ => by simp [DROPStates.isWritable], fun h => by simp [h] at hs⟩
  unfold writeFinish
  split_ifs
  · exact ⟨hw, by simp [setStatus_eq]⟩
  · exact ⟨evolves_setCompleted _ _, by simp⟩
  · exact ⟨hw, by simp [setStatus_eq]⟩

theorem write_keeps :
    Evolves s (write poly env data s).1 ∧
      (write poly env data s).1.finishedProducers = s.finishedProducers := by
  unfold write writeCheck
  split_ifs with hs
  · obtain ⟨hb, hbs, hbf⟩ := @writeBody_keeps poly env data s
    rcases h : writeBody poly env data s with ⟨s', _ | e⟩ <;>
      simp only [Outcome.ok_andThen, h, Outcome.raise_andThen]
    · rw [h] at hb hbs hbf
      obtain ⟨hf, hff⟩ := @writeFinish_keeps env _ (hbs ▸ hs)
      exact ⟨hb.trans hf, hff.trans hbf⟩
    · rw [h] at hb hbf
      exact ⟨hb, hbf⟩
  · exact ⟨Evolves.refl s, rfl⟩

end WriteKeeps

/-! ## What a write records -/

section Records

variable {poly : UInt32} {env : WriteEnv} {data : Bytes} {s : DataDrop} {n : Nat}

theorem callEach_of_none_raise {raises : Streamed → Bool} {call : Uid → Streamed}
    {cs : List Uid} (h : ∀ c ∈ cs, raises (call c) = false) :
    callEach raises call cs = (cs.map call, false) := by
  induction cs with
  | nil => rfl
  | cons c cs ih =>
    simp only [List.mem_cons, forall_eq_or_imp] at h
    simp [callEach, h.1, ih h.2]

/-- **The spec of a `write` that returns.**  On a writable DROP with no positive
`expectedSize`, a write whose I/O layer persists `n` bytes and whose streaming consumers all
return adds `n` to the size, hands each consumer the first `n` bytes, runs the checksum over
ALL of `data`, and leaves the DROP WRITING. -/
theorem write_eq_of_returns (hs : s.status.isWritable) (he : s.expectedSize ≤ 0)
    (ho : s.wio = false → env.openRaises = false) (hw : env.written = some n)
    (hr : ∀ c ∈ s.streamingConsumers, env.raises (.dataWritten c (data.take n)) = false) :
    write poly env data s =
      ({ s with status := .writing, wio := true, size := some (s.size.getD 0 + n),
                streamed := s.streamed ++ s.streamingConsumers.map (.dataWritten · (data.take n)),
                checksum := some (crc32 poly data (s.checksum.getD 0)) }, none) := by
  have hopen : (!s.wio && env.openRaises) = false := by cases h : s.wio <;> simp [h, ho]
  have he' : ¬ s.expectedSize > 0 := Int.not_lt.2 he
  simp [write, writeCheck, writeBody, writeFinish, setStatus, hs, hopen, hw,
    callEach_of_none_raise hr, he']
  exact Eq.symm

/-- **A short write checksums bytes it never wrote.**  A fresh DROP, `write("ab")` with the
I/O layer persisting one byte: the size counts one byte and the streaming consumers would
get `"a"`, but the checksum is the CRC of `"ab"`, which differs from the CRC of `"a"` under
both CRC variants the source can use. -/
theorem short_write_checksums_unwritten_byte (poly : UInt32) :
    (write poly ⟨false, some 1, fun _ => false⟩ [97, 98] (DataDrop.init none [] [])).1.size =
        some 1 ∧
      (write poly ⟨false, some 1, fun _ => false⟩ [97, 98] (DataDrop.init none [] [])).1.checksum =
        some (crc32 poly [97, 98] 0) ∧
      crc32 crc32Poly [97, 98] 0 ≠ crc32 crc32Poly [97] 0 ∧
      crc32 crc32cPoly [97, 98] 0 ≠ crc32 crc32cPoly [97] 0 := by
  rw [write_eq_of_returns (s := DataDrop.init none [] []) (n := 1) rfl (by decide) (fun _ => rfl)
    rfl (by simp [DataDrop.init])]
  refine ⟨rfl, rfl, ?_, ?_⟩ <;> set_option maxRecDepth 10000 in decide

end Records

/-! ## The `size` and `checksum` setters -/

/-- The exceptions of the `size` and `checksum` setters, for the attribute `field`. -/
inductive SetterError
  /-- "The size of DROP %s is already calculated, cannot overwrite with new value", and
  "The checksum for DROP %s is already calculated, ..." -/
  | alreadyCalculated (field : String)
  /-- "DROP %s is still not fully written, cannot manually set a size yet", and "... a
  checksum yet" -/
  | notFullyWritten (field : String)
  deriving DecidableEq, Repr

/-- The setter of an attribute that `write` computes, for data written elsewhere: it
refuses an attribute already set, then a DROP still INITIALIZED or WRITING. -/
def setComputed {α : Type} (field : String) (current : Option α) (status : DROPStates)
    (value : Option α) : Outcome (Option α) SetterError :=
  if current.isSome then (current, some (.alreadyCalculated field))
  else if status ∈ [DROPStates.initialized, .writing] then (current, some (.notFullyWritten field))
  else (value, none)

/-- The `size` setter (`drop.py`, lines 553-559). -/
def setSize (size : Option Nat) (s : DataDrop) : Outcome DataDrop SetterError :=
  let r := setComputed "size" s.size s.status size
  ({ s with size := r.1 }, r.2)

/-- The `checksum` setter (`drop.py`, lines 430-436). -/
def setChecksum (value : Option UInt32) (s : DataDrop) : Outcome DataDrop SetterError :=
  let r := setComputed "checksum" s.checksum s.status value
  ({ s with checksum := r.1 }, r.2)

section Setters

variable {α : Type} {field : String} {current : Option α} {status : DROPStates}

/-- **What the setters do.**  A call returns exactly when the attribute is unset and the
DROP is past WRITING, and then sets it; a call that raises keeps the attribute and names
it. -/
theorem setComputed_eq (value : Option α) :
    setComputed field current status value =
      if current.isSome || status.isWritable then
        (current, some (if current.isSome then .alreadyCalculated field
          else .notFullyWritten field))
      else (value, none) := by
  cases current <;> cases status <;> simp [setComputed, DROPStates.isWritable]

theorem setComputed_of_isSome (h : current.isSome) (value : Option α) :
    setComputed field current status value = (current, some (.alreadyCalculated field)) := by
  simp [setComputed_eq, h]

variable {s : DataDrop}

theorem setSize_of_isSome (h : s.size.isSome) (size : Option Nat) :
    setSize size s = (s, some (.alreadyCalculated "size")) := by
  simp [setSize, setComputed_of_isSome h]

theorem setChecksum_of_isSome (h : s.checksum.isSome) (value : Option UInt32) :
    setChecksum value s = (s, some (.alreadyCalculated "checksum")) := by
  simp [setChecksum, setComputed_of_isSome h]

end Setters

/-! ## What `write` computes stays computed -/

section Computed

variable {poly : UInt32} {env : WriteEnv} {data : Bytes} {raises : Streamed → Bool}
  {s : DataDrop}

theorem setCompleted_size_checksum :
    (setCompleted raises s).1.size = s.size ∧ (setCompleted raises s).1.checksum = s.checksum := by
  unfold setCompleted; split_ifs <;> simp [setStatus_eq]

theorem producerFinished_size_checksum {uid : Uid} :
    (producerFinished raises uid s).1.size = s.size ∧
      (producerFinished raises uid s).1.checksum = s.checksum := by
  unfold producerFinished
  split
  · exact ⟨rfl, rfl⟩
  · next n s' h =>
    simp only [producerFinishedLocked] at h
    split_ifs at h
    cases h
    unfold producerFinishedTail
    split_ifs
    · exact setCompleted_size_checksum
    · exact ⟨rfl, rfl⟩

/-- The checksum update is `writeBody`'s last statement, after the size. -/
theorem writeBody_size_checksum
    (h : (writeBody poly env data s).2 = none ∨ s.size.isSome ∧ s.checksum.isSome) :
    (writeBody poly env data s).1.size.isSome ∧ (writeBody poly env data s).1.checksum.isSome := by
  revert h
  unfold writeBody
  split
  · simp
  · split
    · simp
    · dsimp only
      split <;> simp_all

theorem writeFinish_size_checksum :
    (writeFinish raises s).1.size = s.size ∧ (writeFinish raises s).1.checksum = s.checksum := by
  unfold writeFinish
  split_ifs
  · simp [setStatus_eq]
  · exact setCompleted_size_checksum
  · simp [setStatus_eq]

/-- **A `write` that returns has computed the size and the checksum, and no `write` unsets
them.** -/
theorem write_size_checksum
    (h : (write poly env data s).2 = none ∨ s.size.isSome ∧ s.checksum.isSome) :
    (write poly env data s).1.size.isSome ∧ (write poly env data s).1.checksum.isSome := by
  revert h
  unfold write writeCheck
  split_ifs
  · simp only [Outcome.ok_andThen]
    rcases hb : writeBody poly env data s with ⟨s', _ | e⟩
    · have hs' := @writeBody_size_checksum poly env data s (.inl (by rw [hb]))
      rw [hb] at hs'
      simp only [Outcome.ok_andThen, writeFinish_size_checksum.1, writeFinish_size_checksum.2]
      exact fun _ => hs'
    · simp only [Outcome.raise_andThen, reduceCtorEq, false_or]
      intro hs
      have hs' := @writeBody_size_checksum poly env data s (.inr hs)
      rwa [hb] at hs'
  · simp

end Computed

end Dfms

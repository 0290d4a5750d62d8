import TlsVpn.FecEncoding
import TlsVpn.Holdings
import TlsVpn.Runs

/-!
The aggregate port of net.rs: sequence allocation, the FEC encoder and the
backends' bounded queues, driven by any number of concurrent `write_payload`
calls. A call holds the backend list's read lock from its first step to its
last, so registering and unregistering, which take the write lock, happen only
while no call is in progress.

Backends keep their position for good and are flagged while registered. Which
backend the adaptive scheduler prefers, and how often a full queue makes a call
fall back, is left to the label. `round` counts the resets of `tx_seq`; frames
carry the round they were numbered in, the logs `numbered` and `emitted` what
was numbered and which parities left the encoder. No code reads them. Wake-ups,
rates and the legacy channel are not modelled.
-/

namespace TlsVpn.Port

open Words XorBytes Protocol Fec

section Queue

structure VpnFrame where
  seq : Nat
  data : Bytes
  round : Nat
  deriving DecidableEq

structure VpnFrameBatch where
  frames : List VpnFrame
  bytes : Nat
  deriving DecidableEq

def ownedBatchMaxBytes : Nat := 8192

def ownedBatchWireOverheadPerFrame : Nat := 32

structure OwnedBatchQueue where
  batches : List VpnFrameBatch
  frames : Nat
  framesHint : Nat
  capacityFrames : Nat
  maxBatchFrames : Nat
  deriving DecidableEq

def OwnedBatchQueue.new (capacityFrames maxBatchFrames : Nat) : OwnedBatchQueue where
  batches := []
  frames := 0
  framesHint := 0
  capacityFrames := max capacityFrames 1
  maxBatchFrames := maxBatchFrames

/-- `push_locked` on the deque: join the tail batch or open a new one. -/
def pushBatch (batches : List VpnFrameBatch) (frame : VpnFrame) (bytes maxFrames : Nat) :
    List VpnFrameBatch :=
  match batches.getLast? with
  | none => [⟨[frame], bytes⟩]
  | some last =>
    if last.frames.length < maxFrames ∧ saturatingAdd last.bytes bytes ≤ ownedBatchMaxBytes then
      batches.dropLast ++ [⟨last.frames ++ [frame], saturatingAdd last.bytes bytes⟩]
    else batches ++ [⟨[frame], bytes⟩]

def OwnedBatchQueue.tryPush (queue : OwnedBatchQueue) (frame : VpnFrame) :
    Option OwnedBatchQueue :=
  if queue.frames ≥ queue.capacityFrames then none else
    some { queue with
      batches := pushBatch queue.batches frame frame.data.length queue.maxBatchFrames
      frames := queue.frames + 1
      framesHint := queue.frames + 1 }

def OwnedBatchQueue.tryPopFitting (queue : OwnedBatchQueue) (wireBudget : Nat) :
    Option (VpnFrameBatch × OwnedBatchQueue) :=
  match queue.batches with
  | [] => none
  | front :: rest =>
    if front.bytes + front.frames.length * ownedBatchWireOverheadPerFrame > wireBudget then none
    else
      some (front,
        { queue with
          batches := rest
          frames := queue.frames - front.frames.length
          framesHint := queue.frames - front.frames.length })

def OwnedBatchQueue.all (queue : OwnedBatchQueue) : List VpnFrame :=
  queue.batches.flatMap VpnFrameBatch.frames

theorem pushBatch_all (batches : List VpnFrameBatch) (frame : VpnFrame) (bytes maxFrames : Nat) :
    (pushBatch batches frame bytes maxFrames).flatMap VpnFrameBatch.frames =
      batches.flatMap VpnFrameBatch.frames ++ [frame] := by
  unfold pushBatch
  cases back : batches.getLast? with
  | none =>
    rw [List.getLast?_eq_none_iff.mp back]
    rfl
  | some last =>
    have split := List.dropLast_append_getLast? last back
    simp only
    split
    · rw [List.flatMap_append]
      conv_rhs => rw [← split, List.flatMap_append]
      simp
    · simp

theorem tryPush_all (queue pushed : OwnedBatchQueue) (frame : VpnFrame)
    (result : queue.tryPush frame = some pushed) : pushed.all = queue.all ++ [frame] := by
  unfold OwnedBatchQueue.tryPush at result
  split at result
  · cases result
  · cases result
    exact pushBatch_all _ _ _ _

theorem tryPopFitting_all (queue rest : OwnedBatchQueue) (batch : VpnFrameBatch) (budget : Nat)
    (result : queue.tryPopFitting budget = some (batch, rest)) :
    queue.all = batch.frames ++ rest.all := by
  unfold OwnedBatchQueue.tryPopFitting at result
  split at result
  · cases result
  · rename_i front tail shape
    split at result
    · cases result
    · cases result
      simp [OwnedBatchQueue.all, shape]

end Queue

section Port

structure Backend where
  registered : Bool
  queue : OwnedBatchQueue
  fecFenceGen : Nat

/-- `backend_score(b).is_some()`. -/
def Backend.healthy (backend : Backend) : Bool :=
  !(backend.queue.capacityFrames ≤ 2 ||
    backend.queue.framesHint ≥ backend.queue.capacityFrames - 2)

/-- A payload a caller can hand in: not empty, and sealed it fits the length
field of a frame header. -/
structure Payload where
  bytes : Bytes
  nonempty : bytes ≠ []
  fits : bytes.length + gcmTagSize ≤ u32Max

def samplePayload : Payload := ⟨[7], by decide, by decide⟩

def otherPayload : Payload := ⟨[8, 9], by decide, by decide⟩

/-- A `write_payload` call by its next atomic step. -/
inductive Writer where
  | entered (payload : Payload)
  | numbered (seq round : Nat) (payload : Payload)
  | encoded (seq round : Nat) (payload : Payload) (parity : Option Bytes)
      (control : Option FecModeControl)
  | delivered (round : Nat) (parity : Option Bytes)
  | finished

def Writer.active : Writer → Bool
  | .finished => false
  | _ => true

structure AsyncPort where
  txSeq : Nat
  sequenceExhausted : Bool
  encoder : Option FecEncoder
  encoderEnabled : Bool
  fecMode : FecTxModeState
  dropped : Nat
  paritySent : Nat
  backends : List Backend
  writers : List Writer
  round : Nat
  numbered : List VpnFrame
  emitted : List (List Nat × Bytes)

def AsyncPort.new : AsyncPort where
  txSeq := 0
  sequenceExhausted := false
  encoder := none
  encoderEnabled := false
  fecMode := FecTxModeState.default
  dropped := 0
  paritySent := 0
  backends := []
  writers := []
  round := 0
  numbered := []
  emitted := []

/-- `backends.len()`. -/
def AsyncPort.pathCount (port : AsyncPort) : Nat :=
  port.backends.countP Backend.registered

def AsyncPort.quiet (port : AsyncPort) : Bool := port.writers.all fun writer => !writer.active

def AsyncPort.setWriter (port : AsyncPort) (index : Nat) (writer : Writer) : AsyncPort :=
  { port with writers := port.writers.set index writer }

def AsyncPort.resetSeq (port : AsyncPort) : AsyncPort :=
  { port with txSeq := 0, round := port.round + 1 }

def AsyncPort.resetFec (port : AsyncPort) (k : Nat) (ic : Option InnerCipher) : AsyncPort :=
  { port with
    sequenceExhausted := false
    fecMode := FecTxModeState.default
    backends := port.backends.map fun backend =>
      if backend.registered then { backend with fecFenceGen := 0 } else backend
    encoderEnabled := decide (k ≥ fecMinGroup)
    encoder := if k ≥ fecMinGroup then some (FecEncoder.new k ic) else none }

def AsyncPort.resetEpoch (port : AsyncPort) (k : Nat) (ic : Option InnerCipher) : AsyncPort :=
  port.resetSeq.resetFec k ic

/-- The first statements of `write_payload`, up to taking a number. -/
def AsyncPort.enter (port : AsyncPort) (payload : Payload) : AsyncPort :=
  if port.backends.any fun backend => backend.registered && backend.healthy then
    { port with writers := port.writers ++ [.entered payload] }
  else { port with dropped := port.dropped + 1 }

/-- `next_seq` and its result: the compare-exchange that succeeds. -/
def AsyncPort.number (port : AsyncPort) (index : Nat) (payload : Payload) : AsyncPort :=
  if port.txSeq = u32Max then
    { port with
      sequenceExhausted := true
      dropped := port.dropped + 1
      writers := port.writers.set index .finished }
  else
    { port with
      txSeq := port.txSeq + 1
      numbered := port.numbered ++ [⟨port.txSeq + 1, payload.bytes, port.round⟩]
      writers := port.writers.set index (.numbered (port.txSeq + 1) port.round payload) }

def AsyncPort.encode (port : AsyncPort) (index seq round : Nat) (payload : Payload) : AsyncPort :=
  match port.encoder with
  | some encoder =>
    if port.encoderEnabled then
      let observed := encoder.setPhysicalPathCount port.pathCount
      let mode := (port.fecMode.observe port.pathCount seq observed.k).1
      let result := observed.add seq payload.bytes
      { port with
        fecMode := mode
        encoder := some result.1
        emitted := port.emitted ++
          (result.2.map fun record => (observed.seqs ++ [seq], record)).toList
        writers := port.writers.set index (.encoded seq round payload result.2 mode.current) }
    else port.setWriter index (.encoded seq round payload none none)
  | none => port.setWriter index (.encoded seq round payload none none)

def Backend.tryPush (backend : Backend) (frame : VpnFrame) : Option Backend :=
  (backend.queue.tryPush frame).map fun queue => { backend with queue := queue }

/-- `try_send_payload_to_fenced`: the backend afterwards, and whether it took
the data. A control may have been queued even if the data was refused. -/
def Backend.trySendFenced (backend : Backend) (frame : VpnFrame)
    (control : Option FecModeControl) : Backend × Bool :=
  let sendData (target : Backend) : Backend × Bool :=
    match target.tryPush frame with
    | some taken => (taken, true)
    | none => (target, false)
  match control with
  | none => sendData backend
  | some mode =>
    if backend.fecFenceGen < mode.generation then
      match backend.tryPush ⟨0, mode.encode, frame.round⟩ with
      | none => (backend, false)
      | some fenced => sendData { fenced with fecFenceGen := mode.generation }
    else sendData backend

/-- One attempt of `send_data_payload_to_any` on a registered backend. -/
def AsyncPort.attempt (port : AsyncPort) (index target : Nat) (backend : Backend)
    (seq round : Nat) (payload : Payload) (parity : Option Bytes)
    (control : Option FecModeControl) : AsyncPort :=
  let result := backend.trySendFenced ⟨seq, payload.bytes, round⟩ control
  let after := { port with backends := port.backends.set target result.1 }
  if result.2 then after.setWriter index (.delivered round parity) else after

/-- Hand the parity to one backend, or drop it if that one is full. -/
def AsyncPort.sendParity (port : AsyncPort) (target : Nat) (backend : Backend) (round : Nat)
    (record : Bytes) : AsyncPort :=
  match backend.tryPush ⟨0, record, round⟩ with
  | some taken =>
    { port with
      backends := port.backends.set target taken
      paritySent := port.paritySent + 1 }
  | none => { port with dropped := port.dropped + 1, paritySent := port.paritySent + 1 }

inductive WriteLabel where
  | enter (payload : Payload)
  | number (writer : Nat)
  | encode (writer : Nat)
  | attempt (writer backend : Nat)
  | giveUp (writer : Nat)
  | parity (writer : Nat) (backend : Nat)
  | leave (writer : Nat)
  | register (capacityFrames maxBatchFrames : Nat)
  | unregister (backend : Nat)

def AsyncPort.step (port : AsyncPort) : WriteLabel → Option AsyncPort
  | .enter payload => some (port.enter payload)
  | .number index =>
    match port.writers[index]? with
    | some (.entered payload) => some (port.number index payload)
    | _ => none
  | .encode index =>
    match port.writers[index]? with
    | some (.numbered seq round payload) => some (port.encode index seq round payload)
    | _ => none
  | .attempt index target =>
    match port.writers[index]?, port.backends[target]? with
    | some (.encoded seq round payload parity control), some backend =>
      if backend.registered then
        some (port.attempt index target backend seq round payload parity control)
      else none
    | _, _ => none
  | .giveUp index =>
    match port.writers[index]? with
    | some (.encoded _ round _ parity _) =>
      some { port with
        dropped := port.dropped + 1
        writers := port.writers.set index (.delivered round parity) }
    | _ => none
  | .parity index target =>
    match port.writers[index]?, port.backends[target]? with
    | some (.delivered round (some record)), some backend =>
      if backend.registered ∧ 2 ≤ port.pathCount then
        some ((port.sendParity target backend round record).setWriter index .finished)
      else none
    | _, _ => none
  | .leave index =>
    match port.writers[index]? with
    | some (.delivered _ none) => some (port.setWriter index .finished)
    | some (.delivered _ (some _)) =>
      if port.pathCount < 2 then some (port.setWriter index .finished) else none
    | _ => none
  | .register capacityFrames maxBatchFrames =>
    if port.quiet then
      some { port with
        backends := port.backends ++
          [⟨true, OwnedBatchQueue.new capacityFrames maxBatchFrames, 0⟩] }
    else none
  | .unregister target =>
    match port.backends[target]? with
    | some backend =>
      if port.quiet then
        some { port with
          backends := port.backends.set target { backend with registered := false } }
      else none
    | none => none

inductive Written (port : AsyncPort) : WriteLabel → AsyncPort → Prop where
  | refused (payload : Payload) :
      Written port (.enter payload) { port with dropped := port.dropped + 1 }
  | entered (payload : Payload) :
      Written port (.enter payload) { port with writers := port.writers ++ [.entered payload] }
  | exhausted (index : Nat) (payload : Payload)
      (found : port.writers[index]? = some (.entered payload)) (last : port.txSeq = u32Max) :
      Written port (.number index)
        { port with
          sequenceExhausted := true
          dropped := port.dropped + 1
          writers := port.writers.set index .finished }
  | numbered (index : Nat) (payload : Payload)
      (found : port.writers[index]? = some (.entered payload)) (room : port.txSeq ≠ u32Max) :
      Written port (.number index)
        { port with
          txSeq := port.txSeq + 1
          numbered := port.numbered ++ [⟨port.txSeq + 1, payload.bytes, port.round⟩]
          writers := port.writers.set index (.numbered (port.txSeq + 1) port.round payload) }
  | encoded (index seq round : Nat) (payload : Payload)
      (found : port.writers[index]? = some (.numbered seq round payload)) :
      Written port (.encode index) (port.encode index seq round payload)
  | attempted (index target : Nat) (backend : Backend) (seq round : Nat) (payload : Payload)
      (parity : Option Bytes) (control : Option FecModeControl)
      (found : port.writers[index]? = some (.encoded seq round payload parity control))
      (there : port.backends[target]? = some backend) (registered : backend.registered = true) :
      Written port (.attempt index target)
        (port.attempt index target backend seq round payload parity control)
  | gaveUp (index seq round : Nat) (payload : Payload) (parity : Option Bytes)
      (control : Option FecModeControl)
      (found : port.writers[index]? = some (.encoded seq round payload parity control)) :
      Written port (.giveUp index)
        { port with
          dropped := port.dropped + 1
          writers := port.writers.set index (.delivered round parity) }
  | parity (index target : Nat) (backend : Backend) (round : Nat) (record : Bytes)
      (found : port.writers[index]? = some (.delivered round (some record)))
      (there : port.backends[target]? = some backend) (registered : backend.registered = true) :
      Written port (.parity index target)
        ((port.sendParity target backend round record).setWriter index .finished)
  | left (index round : Nat) (parity : Option Bytes)
      (found : port.writers[index]? = some (.delivered round parity)) :
      Written port (.leave index) (port.setWriter index .finished)
  | registered (capacityFrames maxBatchFrames : Nat) (quiet : port.quiet = true) :
      Written port (.register capacityFrames maxBatchFrames)
        { port with
          backends := port.backends ++
            [⟨true, OwnedBatchQueue.new capacityFrames maxBatchFrames, 0⟩] }
  | unregistered (target : Nat) (backend : Backend)
      (there : port.backends[target]? = some backend) (quiet : port.quiet = true) :
      Written port (.unregister target)
        { port with backends := port.backends.set target { backend with registered := false } }

theorem step_written (port next : AsyncPort) (label : WriteLabel)
    (taken : port.step label = some next) : Written port label next := by
  cases label with
  | enter payload =>
    simp only [AsyncPort.step, AsyncPort.enter, Option.some.injEq] at taken
    split at taken
    · rw [← taken]
      exact .entered payload
    · rw [← taken]
      exact .refused payload
  | number index =>
    simp only [AsyncPort.step] at taken
    split at taken
    · rename_i payload found
      simp only [AsyncPort.number, Option.some.injEq] at taken
      split at taken
      · rename_i last
        rw [← taken]
        exact .exhausted index payload found last
      · rename_i room
        rw [← taken]
        exact .numbered index payload found room
    · cases taken
  | encode index =>
    simp only [AsyncPort.step] at taken
    split at taken
    · rename_i seq round payload found
      cases taken
      exact .encoded index seq round payload found
    · cases taken
  | attempt index target =>
    simp only [AsyncPort.step] at taken
    split at taken
    · rename_i seq round payload parity control backend found there
      split at taken
      · rename_i registered
        cases taken
        exact .attempted index target backend seq round payload parity control found there
          registered
      · cases taken
    · cases taken
  | giveUp index =>
    simp only [AsyncPort.step] at taken
    split at taken
    · rename_i seq round payload parity control found
      cases taken
      exact .gaveUp index seq round payload parity control found
    · cases taken
  | parity index target =>
    simp only [AsyncPort.step] at taken
    split at taken
    · rename_i round record backend found there
      split at taken
      · rename_i both
        cases taken
        exact .parity index target backend round record found there both.1
      · cases taken
    · cases taken
  | leave index =>
    simp only [AsyncPort.step] at taken
    split at taken
    · rename_i round found
      cases taken
      exact .left index round none found
    · rename_i round record found
      split at taken
      · cases taken
        exact .left index round (some record) found
      · cases taken
    · cases taken
  | register capacityFrames maxBatchFrames =>
    simp only [AsyncPort.step] at taken
    split at taken
    · rename_i quiet
      cases taken
      exact .registered capacityFrames maxBatchFrames quiet
    · cases taken
  | unregister target =>
    simp only [AsyncPort.step] at taken
    split at taken
    · rename_i backend there
      split at taken
      · rename_i quiet
        cases taken
        exact .unregistered target backend there quiet
      · cases taken
    · cases taken

theorem encode_writers (port : AsyncPort) (index seq round : Nat) (payload : Payload) :
    ∃ parity control, (port.encode index seq round payload).writers =
      port.writers.set index (.encoded seq round payload parity control) := by
  unfold AsyncPort.encode
  split
  · split
    · exact ⟨_, _, rfl⟩
    · exact ⟨none, none, rfl⟩
  · exact ⟨none, none, rfl⟩

theorem encode_fixed (port : AsyncPort) (index seq round : Nat) (payload : Payload) :
    (port.encode index seq round payload).txSeq = port.txSeq ∧
      (port.encode index seq round payload).round = port.round ∧
      (port.encode index seq round payload).numbered = port.numbered ∧
      (port.encode index seq round payload).backends = port.backends := by
  unfold AsyncPort.encode
  split
  · split <;> exact ⟨rfl, rfl, rfl, rfl⟩
  · exact ⟨rfl, rfl, rfl, rfl⟩

theorem step_encoder {port next : AsyncPort} {label : WriteLabel}
    (written : Written port label next) :
    next.encoder.map FecEncoder.k = port.encoder.map FecEncoder.k ∧
      next.encoderEnabled = port.encoderEnabled := by
  cases written with
  | encoded index seq round payload found =>
    unfold AsyncPort.encode
    split
    · rename_i encoder installed
      split
      · refine ⟨?_, rfl⟩
        have size := (add_size (encoder.setPhysicalPathCount port.pathCount) seq payload.bytes).trans
          (setPhysicalPathCount_fixed encoder port.pathCount).1
        rw [installed]
        exact congrArg some size
      · exact ⟨rfl, rfl⟩
    · exact ⟨rfl, rfl⟩
  | attempted index target backend seq round payload parity control found there registered =>
    unfold AsyncPort.attempt
    dsimp only
    split <;> exact ⟨rfl, rfl⟩
  | parity index target backend round record found there registered =>
    unfold AsyncPort.sendParity
    split <;> exact ⟨rfl, rfl⟩
  | _ => exact ⟨rfl, rfl⟩

end Port

end TlsVpn.Port

import TlsVpn.Sealing

/-!
What the batches in a backend's queue can look like, over every way the port has
of filling it: single writes with their fences and parities, a batch written
under the queue's lock, and the dispatch thread's batches. A batch of several
frames keeps within `OWNED_BATCH_MAX_BYTES`, but a frame that opens a batch is
taken whatever its length, and the writers of both ends pop only what fits into
one TLS record. The MTU decides whether the longest frame and its parity do.
-/

namespace TlsVpn.Port

open Words XorBytes Protocol Fec

section Paths

/-- `tx_batch_size`: the environment's setting, if it is one of the three. -/
def txBatchSize : Option Nat → Nat
  | some 16 => 16
  | some 32 => 32
  | _ => 8

/-- The longest frame a TAP of this MTU hands in. -/
def tapReadBufferSize (mtu : UInt16) : Nat := max (max mtu.toNat 576 + 64) 2048

def popBudget (sendBuf : Nat) : Nat := maxTlsPlaintextRecord - streamPadAbsoluteLimit - sendBuf

def OwnedBatchQueue.pushLocked (queue : OwnedBatchQueue) (frame : VpnFrame) : OwnedBatchQueue :=
  { queue with
    batches := pushBatch queue.batches frame frame.data.length queue.maxBatchFrames
    frames := queue.frames + 1 }

def OwnedBatchQueue.tryPushBatch (queue : OwnedBatchQueue) (input : List VpnFrame) :
    OwnedBatchQueue × List VpnFrame :=
  let count := min input.length (queue.capacityFrames - queue.frames)
  let pushed := (input.take count).foldl OwnedBatchQueue.pushLocked queue
  ({ pushed with framesHint := pushed.frames }, input.drop count)

def AsyncPort.setQueue (port : AsyncPort) (target : Nat) (backend : Backend)
    (queue : OwnedBatchQueue) : AsyncPort :=
  { port with backends := port.backends.set target { backend with queue := queue } }

/-- One turn of the loop of `write_payload_batch`, which holds the lock of the
only backend's queue. -/
def AsyncPort.batchOne (target : Nat) (port : AsyncPort) (payload : Payload) : AsyncPort :=
  match port.backends[target]? with
  | none => port
  | some backend =>
    if backend.queue.frames ≥ backend.queue.capacityFrames - 2 then
      { port with dropped := port.dropped + 1 }
    else if port.txSeq = u32Max then
      { port with sequenceExhausted := true, dropped := port.dropped + 1 }
    else
      let frame : VpnFrame := ⟨port.txSeq + 1, payload.bytes, port.round⟩
      { port.setQueue target backend (backend.queue.pushLocked frame) with
        txSeq := port.txSeq + 1
        numbered := port.numbered ++ [frame] }

def AsyncPort.numberOne (state : AsyncPort × List VpnFrame) (payload : Payload) :
    AsyncPort × List VpnFrame :=
  if state.1.txSeq = u32Max then
    ({ state.1 with sequenceExhausted := true, dropped := state.1.dropped + 1 }, state.2)
  else
    let frame : VpnFrame := ⟨state.1.txSeq + 1, payload.bytes, state.1.round⟩
    ({ state.1 with
        txSeq := state.1.txSeq + 1
        numbered := state.1.numbered ++ [frame] }, state.2 ++ [frame])

def AsyncPort.spread (port : AsyncPort) (frames : List VpnFrame) : List Nat → AsyncPort
  | [] => { port with dropped := port.dropped + frames.length }
  | target :: rest =>
    match port.backends[target]? with
    | none => { port with dropped := port.dropped + frames.length }
    | some backend =>
      let pushed := backend.queue.tryPushBatch frames
      let after := port.setQueue target backend pushed.1
      if pushed.2 = [] then after else after.spread pushed.2 rest

inductive Traffic where
  | write (label : WriteLabel)
  | connect (setting : Option Nat)
  | reset (k : Nat) (ic : Option InnerCipher)
  | batch (target : Nat) (payloads : List Payload)
  | dispatch (payloads : List Payload) (targets : List Nat)
  | drain (target budget : Nat)

def AsyncPort.traffic (port : AsyncPort) : Traffic → Option AsyncPort
  | .write (.register _ _) => none
  | .write label => port.step label
  -- both ends give a connection a queue of 1024 frames
  | .connect setting => port.step (.register 1024 (txBatchSize setting))
  | .reset k ic => some (port.resetEpoch k ic)
  | .batch target payloads =>
    if port.pathCount = 1 ∧ port.encoderEnabled = false then
      some (payloads.foldl (AsyncPort.batchOne target) port)
    else none
  | .dispatch payloads targets =>
    if port.encoderEnabled = false then
      let numbered := payloads.foldl AsyncPort.numberOne (port, [])
      some (numbered.1.spread numbered.2 targets)
    else none
  | .drain target budget =>
    match port.backends[target]? with
    | some backend =>
      match backend.queue.tryPopFitting budget with
      | some popped => some (port.setQueue target backend popped.2)
      | none => none
    | none => none

def Traffic.admitted (mtu : UInt16) (k : Nat) : Traffic → Bool
  | .write (.enter payload) => decide (payload.bytes.length ≤ tapReadBufferSize mtu)
  | .batch _ payloads => payloads.all fun payload =>
    decide (payload.bytes.length ≤ tapReadBufferSize mtu)
  | .dispatch payloads _ => payloads.all fun payload =>
    decide (payload.bytes.length ≤ tapReadBufferSize mtu)
  | .reset group _ => group == k || group == 0
  | _ => true

end Paths

section Queues

def payloadLimit : Nat := popBudget 0 - ownedBatchWireOverheadPerFrame

def Poppable (batch : VpnFrameBatch) : Prop :=
  batch.frames.length = 1 ∧ batch.bytes ≤ payloadLimit ∨
    batch.frames.length ≤ 32 ∧ batch.bytes ≤ ownedBatchMaxBytes

structure PoppableQueue (queue : OwnedBatchQueue) : Prop where
  small : queue.maxBatchFrames ≤ 32
  batches : ∀ batch ∈ queue.batches, Poppable batch

variable (queue : OwnedBatchQueue) (frames : List VpnFrame) (frame : VpnFrame)

theorem txBatchSize_small (setting : Option Nat) : txBatchSize setting ≤ 32 := by
  unfold txBatchSize
  split <;> decide

theorem pushBatch_poppable (batches : List VpnFrameBatch) (frame : VpnFrame) (maxFrames : Nat)
    (small : maxFrames ≤ 32) (short : frame.data.length ≤ payloadLimit)
    (poppable : ∀ batch ∈ batches, Poppable batch) :
    ∀ batch ∈ pushBatch batches frame frame.data.length maxFrames, Poppable batch := by
  have single : Poppable ⟨[frame], frame.data.length⟩ := Or.inl ⟨rfl, short⟩
  intro batch member
  unfold pushBatch at member
  split at member
  · rw [List.mem_singleton.mp member]
    exact single
  · rename_i last _
    split at member
    · rename_i room
      rcases List.mem_append.mp member with kept | new
      · exact poppable batch (List.dropLast_subset _ kept)
      · -- the tail batch took another frame, so both limits on appending held
        rw [List.mem_singleton.mp new]
        right
        refine ⟨?_, room.2⟩
        rw [List.length_append, List.length_singleton]
        exact Nat.le_trans room.1 small
    · rcases List.mem_append.mp member with kept | new
      · exact poppable batch kept
      · rw [List.mem_singleton.mp new]
        exact single

theorem pushLocked_poppable (poppable : PoppableQueue queue)
    (short : frame.data.length ≤ payloadLimit) : PoppableQueue (queue.pushLocked frame) :=
  ⟨poppable.small, pushBatch_poppable _ _ _ poppable.small short poppable.batches⟩

theorem tryPush_poppable (pushed : OwnedBatchQueue) (frame : VpnFrame)
    (poppable : PoppableQueue queue) (short : frame.data.length ≤ payloadLimit)
    (taken : queue.tryPush frame = some pushed) : PoppableQueue pushed := by
  unfold OwnedBatchQueue.tryPush at taken
  split at taken
  · cases taken
  · cases taken
    exact ⟨poppable.small, pushBatch_poppable _ _ _ poppable.small short poppable.batches⟩

theorem foldl_pushLocked_poppable (queue : OwnedBatchQueue) (poppable : PoppableQueue queue)
    (short : ∀ frame ∈ frames, frame.data.length ≤ payloadLimit) :
    PoppableQueue (frames.foldl OwnedBatchQueue.pushLocked queue) := by
  induction frames generalizing queue with
  | nil => exact poppable
  | cons frame rest ih =>
    apply ih
    · exact pushLocked_poppable queue frame poppable (short frame List.mem_cons_self)
    · intro other member
      exact short other (List.mem_cons_of_mem frame member)

theorem tryPushBatch_poppable (poppable : PoppableQueue queue)
    (short : ∀ frame ∈ frames, frame.data.length ≤ payloadLimit) :
    PoppableQueue (queue.tryPushBatch frames).1 := by
  have pushed := foldl_pushLocked_poppable
    (frames.take (min frames.length (queue.capacityFrames - queue.frames))) queue poppable
    fun frame member => short frame (List.take_subset _ _ member)
  exact ⟨pushed.small, pushed.batches⟩

theorem tryPopFitting_poppable (rest : OwnedBatchQueue) (batch : VpnFrameBatch) (budget : Nat)
    (poppable : PoppableQueue queue) (popped : queue.tryPopFitting budget = some (batch, rest)) :
    PoppableQueue rest := by
  unfold OwnedBatchQueue.tryPopFitting at popped
  split at popped
  · cases popped
  · rename_i front tail shape
    split at popped
    · cases popped
    · cases popped
      refine ⟨poppable.small, ?_⟩
      intro other member
      apply poppable.batches other
      rw [shape]
      exact List.mem_cons_of_mem _ member

theorem PoppableQueue.pops (poppable : PoppableQueue queue) (nonempty : queue.batches ≠ []) :
    (queue.tryPopFitting (popBudget 0)).isSome = true := by
  unfold OwnedBatchQueue.tryPopFitting
  split
  · rename_i empty
    exact absurd empty nonempty
  · rename_i front tail shape
    have front_poppable := poppable.batches front (by rw [shape]; exact List.mem_cons_self)
    have fits : front.bytes + front.frames.length * ownedBatchWireOverheadPerFrame ≤ popBudget 0 := by
      have limit : payloadLimit = 15840 := rfl
      have budget : popBudget 0 = 15872 := rfl
      have overhead : ownedBatchWireOverheadPerFrame = 32 := rfl
      have most : ownedBatchMaxBytes = 8192 := rfl
      rw [overhead]
      rcases front_poppable with ⟨one, short⟩ | ⟨few, packed⟩ <;> omega
    rw [if_neg (Nat.not_lt.mpr fits)]
    rfl

end Queues

section Invariant

def parityOverhead (k : Nat) : Nat :=
  if k ≥ fecMinGroup then 6 + 4 * clampFecGroup k + gcmTagSize else 0

def Writer.within (size : Nat) : Writer → Prop
  | .entered payload => payload.bytes.length ≤ size
  | .numbered _ _ payload => payload.bytes.length ≤ size
  | .encoded _ _ payload parity _ =>
    payload.bytes.length ≤ size ∧ ∀ record, parity = some record → record.length ≤ payloadLimit
  | .delivered _ parity => ∀ record, parity = some record → record.length ≤ payloadLimit
  | .finished => True

structure Filling (size k : Nat) (encoder : FecEncoder) (members : Delivered) : Prop where
  holds : Holds encoder members
  room : members.length < encoder.k
  group : encoder.k = clampFecGroup k
  large : k ≥ fecMinGroup
  short : ∀ member ∈ members, member.2.length ≤ size

structure Fitting (size k : Nat) (port : AsyncPort) : Prop where
  queues : ∀ backend ∈ port.backends, PoppableQueue backend.queue
  writers : ∀ writer ∈ port.writers, writer.within size
  encoder : ∀ encoder, port.encoder = some encoder → ∃ members, Filling size k encoder members

variable {size k : Nat} {port next : AsyncPort}
variable {encoder : FecEncoder} {backend : Backend} {frame : VpnFrame} (ic : Option InnerCipher)

theorem maxLen_le (members : List Bytes) (bound : Nat)
    (short : ∀ member ∈ members, member.length ≤ bound) : maxLen members ≤ bound := by
  induction members using List.reverseRecOn with
  | nil => exact Nat.zero_le _
  | append_singleton rest last ih =>
    rw [maxLen_concat]
    apply Nat.max_le.mpr
    constructor
    · exact ih fun member present => short member (List.mem_append_left _ present)
    · exact short last (List.mem_append_right _ List.mem_cons_self)

theorem new_filling (large : k ≥ fecMinGroup) : Filling size k (FecEncoder.new k ic) [] := by
  refine ⟨new_holds k ic, ?_, rfl, large, ?_⟩
  · have least := clampFecGroup_least k
    exact Nat.lt_of_lt_of_le (by decide) least
  · rintro _ ⟨⟩

theorem Filling.paths {members : Delivered} (filling : Filling size k encoder members) (paths : Nat) :
    ∃ kept, Filling size k (encoder.setPhysicalPathCount paths) kept := by
  obtain ⟨kept, which, holds⟩ := setPhysicalPathCount_holds encoder members paths filling.holds
  have same := (setPhysicalPathCount_fixed encoder paths).1
  refine ⟨kept, holds, ?_, same.trans filling.group, filling.large, ?_⟩
  · rw [same]
    rcases which with rfl | rfl
    · exact filling.room
    · exact Nat.lt_of_le_of_lt (Nat.zero_le _) filling.room
  · rcases which with rfl | rfl
    · exact filling.short
    · rintro _ ⟨⟩

theorem record_length (members : Delivered) (body : Bytes) (start : Nat)
    (isBody : IsBody (members.map Prod.snd) body) (nonempty : body ≠ [])
    (few : members.length ≤ clampFecGroup k) (large : k ≥ fecMinGroup)
    (short : ∀ member ∈ members, member.2.length ≤ size) :
    (parityRecord ic start (members.map fun member => member.2.length) body).length ≤
      size + parityOverhead k := by
  have longest : body.length ≤ size := by
    rw [isBody.length]
    apply maxLen_le
    intro bytes present
    obtain ⟨member, listed, rfl⟩ := List.mem_map.mp present
    exact short member listed
  have tag : tagLen ic ≤ gcmTagSize := by
    unfold tagLen
    split
    · exact Nat.le_refl _
    · exact Nat.zero_le _
  rw [parityRecord_length ic start _ body nonempty, List.length_map, parityOverhead, if_pos large]
  omega

theorem Filling.add {members : Delivered} (filling : Filling size k encoder members) (seq : Nat)
    (data : Bytes) (short : data.length ≤ size) (nonempty : data ≠ []) :
    (∃ kept, Filling size k (encoder.add seq data).1 kept) ∧
      ∀ record, (encoder.add seq data).2 = some record →
        record.length ≤ size + parityOverhead k := by
  have all : ∀ member ∈ members ++ [(seq, data)], member.2.length ≤ size :=
    Holdings.forall_mem_concat filling.short short
  have added := add_added encoder members seq data filling.holds
  generalize encoder.add seq data = result at added ⊢
  cases added with
  | ignored why =>
    refine ⟨⟨members, filling⟩, ?_⟩
    rintro _ ⟨⟩
  | taken after opens kept holds few =>
    refine ⟨⟨members ++ [(seq, data)], holds, ?_, kept.k.trans filling.group, filling.large, all⟩, ?_⟩
    · rw [kept.k, List.length_append, List.length_singleton]
      exact few
    · rintro _ ⟨⟩
  | closed after body opens kept holds full isBody =>
    refine ⟨⟨[], holds, ?_, kept.k.trans filling.group, filling.large, ?_⟩, ?_⟩
    · rw [kept.k]
      exact Nat.lt_of_le_of_lt (Nat.zero_le _) filling.room
    · rintro _ ⟨⟩
    · rintro _ ⟨⟩
      apply record_length encoder.ic (members ++ [(seq, data)]) body _ isBody ?_ ?_ filling.large all
      · -- the body is as long as the frame that closed the group, at least
        rintro rfl
        have reach := le_maxLen ((members ++ [(seq, data)]).map Prod.snd) data (by simp)
        rw [← isBody.length] at reach
        exact nonempty (List.length_eq_zero_iff.mp (Nat.le_zero.mp reach))
      · rw [← filling.group, List.length_append, List.length_singleton]
        exact filling.room

section

variable (fitting : Fitting size k port)

include fitting

theorem Fitting.setWriter (index : Nat) (writer : Writer) (within : writer.within size) :
    Fitting size k (port.setWriter index writer) :=
  ⟨fitting.queues, Holdings.forall_mem_set fitting.writers index writer within, fitting.encoder⟩

theorem Fitting.setBackend (target : Nat) (backend : Backend)
    (poppable : PoppableQueue backend.queue) :
    Fitting size k { port with backends := port.backends.set target backend } :=
  ⟨Holdings.forall_mem_set fitting.queues target backend poppable, fitting.writers, fitting.encoder⟩

theorem Fitting.queue {target : Nat} (there : port.backends[target]? = some backend) :
    PoppableQueue backend.queue :=
  fitting.queues backend (List.mem_of_getElem? there)

theorem Fitting.writer {index : Nat} {writer : Writer} (found : port.writers[index]? = some writer) :
    writer.within size :=
  fitting.writers writer (List.mem_of_getElem? found)

end

theorem push_fitting {taken : Backend} (poppable : PoppableQueue backend.queue)
    (short : frame.data.length ≤ payloadLimit) (pushed : backend.tryPush frame = some taken) :
    PoppableQueue taken.queue := by
  obtain ⟨queue, accepted, rfl⟩ := Option.map_eq_some_iff.mp pushed
  exact tryPush_poppable backend.queue queue frame poppable short accepted

theorem encode_short (control : FecModeControl) : control.encode.length ≤ payloadLimit := by
  have length : control.encode.length = 16 := by
    simp [FecModeControl.encode, be64, be32_length]
  rw [length]
  decide

theorem trySendFenced_poppable {control : Option FecModeControl}
    (poppable : PoppableQueue backend.queue) (short : frame.data.length ≤ payloadLimit) :
    PoppableQueue (backend.trySendFenced frame control).1.queue := by
  have data : ∀ target : Backend, PoppableQueue target.queue →
      PoppableQueue (match target.tryPush frame with
        | some taken => (taken, true)
        | none => (target, false)).1.queue := by
    intro target good
    split
    · rename_i taken pushed
      exact push_fitting good short pushed
    · exact good
  unfold Backend.trySendFenced
  dsimp only
  split
  · exact data backend poppable
  · rename_i mode
    split
    · split
      · exact poppable
      · rename_i fenced pushed
        have good : PoppableQueue fenced.queue := push_fitting poppable (encode_short mode) pushed
        exact data _ good
    · exact data backend poppable

end Invariant

section Steps

variable {size k : Nat} {port next : AsyncPort}
variable (payloads : List Payload)

section

variable (fitting : Fitting size k port)

include fitting

theorem encode_fitting (index seq round : Nat) (payload : Payload)
    (room : size + parityOverhead k ≤ payloadLimit)
    (found : port.writers[index]? = some (.numbered seq round payload)) :
    Fitting size k (port.encode index seq round payload) := by
  have short : payload.bytes.length ≤ size := fitting.writer found
  have plain : Writer.within size (.encoded seq round payload none none) := by
    refine ⟨short, ?_⟩
    rintro _ ⟨⟩
  unfold AsyncPort.encode
  split
  · rename_i encoder installed
    split
    · obtain ⟨members, filling⟩ := fitting.encoder encoder installed
      obtain ⟨kept, observed⟩ := filling.paths port.pathCount
      obtain ⟨after, parity⟩ := observed.add seq payload.bytes short payload.nonempty
      refine ⟨fitting.queues, ?_, ?_⟩
      · apply Holdings.forall_mem_set fitting.writers
        refine ⟨short, ?_⟩
        intro record emitted
        exact Nat.le_trans (parity record emitted) room
      · rintro _ ⟨⟩
        exact after
    · exact fitting.setWriter index _ plain
  · exact fitting.setWriter index _ plain

theorem attempt_fitting (index target : Nat) (backend : Backend) (seq round : Nat)
    (payload : Payload) (parity : Option Bytes) (control : Option FecModeControl)
    (room : size ≤ payloadLimit)
    (found : port.writers[index]? = some (.encoded seq round payload parity control))
    (there : port.backends[target]? = some backend) :
    Fitting size k (port.attempt index target backend seq round payload parity control) := by
  obtain ⟨short, record⟩ : Writer.within size (.encoded seq round payload parity control) :=
    fitting.writer found
  have sent := fitting.setBackend target
    (backend.trySendFenced ⟨seq, payload.bytes, round⟩ control).1
    (trySendFenced_poppable (fitting.queue there) (Nat.le_trans short room))
  unfold AsyncPort.attempt
  dsimp only
  split
  · exact sent.setWriter index (.delivered round parity) record
  · exact sent

theorem sendParity_fitting (target : Nat) (backend : Backend) (round : Nat) (record : Bytes)
    (short : record.length ≤ payloadLimit) (there : port.backends[target]? = some backend) :
    Fitting size k (port.sendParity target backend round record) := by
  unfold AsyncPort.sendParity
  split
  · rename_i taken pushed
    have sent := fitting.setBackend target taken (push_fitting (fitting.queue there) short pushed)
    exact ⟨sent.queues, sent.writers, sent.encoder⟩
  · exact ⟨fitting.queues, fitting.writers, fitting.encoder⟩

theorem write_fitting {label : WriteLabel} (room : size + parityOverhead k ≤ payloadLimit)
    (small : ∀ capacity most, label = .register capacity most → most ≤ 32)
    (admitted : ∀ payload, label = .enter payload → payload.bytes.length ≤ size)
    (written : Written port label next) : Fitting size k next := by
  have whole : size ≤ payloadLimit := Nat.le_trans (Nat.le_add_right _ _) room
  cases written with
  | refused payload => exact ⟨fitting.queues, fitting.writers, fitting.encoder⟩
  | entered payload =>
    exact ⟨fitting.queues, Holdings.forall_mem_concat fitting.writers (admitted payload rfl),
      fitting.encoder⟩
  | exhausted index payload found last =>
    exact ⟨fitting.queues, Holdings.forall_mem_set fitting.writers index _ trivial, fitting.encoder⟩
  | numbered index payload found _ =>
    have short : payload.bytes.length ≤ size := fitting.writer found
    exact ⟨fitting.queues, Holdings.forall_mem_set fitting.writers index _ short, fitting.encoder⟩
  | encoded index seq round payload found =>
    exact encode_fitting fitting index seq round payload room found
  | attempted index target backend seq round payload parity control found there _ =>
    exact attempt_fitting fitting index target backend seq round payload parity control whole found
      there
  | gaveUp index seq round payload parity control found =>
    obtain ⟨_, record⟩ : Writer.within size (.encoded seq round payload parity control) :=
      fitting.writer found
    exact ⟨fitting.queues, Holdings.forall_mem_set fitting.writers index _ record, fitting.encoder⟩
  | parity index target backend round record found there _ =>
    have short : Writer.within size (.delivered round (some record)) := fitting.writer found
    exact (sendParity_fitting fitting target backend round record (short record rfl)
      there).setWriter index .finished trivial
  | left index round parity found => exact fitting.setWriter index .finished trivial
  | registered capacity most quiet =>
    exact ⟨Holdings.forall_mem_concat fitting.queues ⟨small capacity most rfl, by nofun⟩,
      fitting.writers, fitting.encoder⟩
  | unregistered target backend there quiet =>
    have poppable := fitting.queue there
    exact fitting.setBackend target { backend with registered := false } poppable

theorem reset_fitting (group : Nat) (ic : Option InnerCipher) (configured : group = k ∨ group = 0) :
    Fitting size k (port.resetEpoch group ic) := by
  refine ⟨?_, fitting.writers, ?_⟩
  · intro backend present
    obtain ⟨old, listed, rfl⟩ := List.mem_map.mp present
    have poppable := fitting.queues old listed
    split <;> exact poppable
  · intro encoder installed
    change (if group ≥ fecMinGroup then some (FecEncoder.new group ic) else none) = some encoder
      at installed
    split at installed
    · rename_i large
      cases installed
      rcases configured with rfl | rfl
      · exact ⟨[], new_filling ic large⟩
      · exact absurd large (by decide)
    · cases installed

theorem batchOne_fitting (target : Nat) (payload : Payload) (whole : size ≤ payloadLimit)
    (short : payload.bytes.length ≤ size) :
    Fitting size k (AsyncPort.batchOne target port payload) := by
  unfold AsyncPort.batchOne
  split
  · exact fitting
  · rename_i backend there
    split
    · exact ⟨fitting.queues, fitting.writers, fitting.encoder⟩
    · split
      · exact ⟨fitting.queues, fitting.writers, fitting.encoder⟩
      · have pushed := fitting.setBackend target
          { backend with queue := backend.queue.pushLocked ⟨port.txSeq + 1, payload.bytes, port.round⟩ }
          (pushLocked_poppable backend.queue _ (fitting.queue there) (Nat.le_trans short whole))
        exact ⟨pushed.queues, pushed.writers, pushed.encoder⟩

end

theorem batch_fitting (target : Nat) (payloads : List Payload) (fitting : Fitting size k port)
    (whole : size ≤ payloadLimit) (short : ∀ payload ∈ payloads, payload.bytes.length ≤ size) :
    Fitting size k (payloads.foldl (AsyncPort.batchOne target) port) := by
  induction payloads generalizing port with
  | nil => exact fitting
  | cons payload rest ih =>
    apply ih
    · exact batchOne_fitting fitting target payload whole (short payload List.mem_cons_self)
    · intro other member
      exact short other (List.mem_cons_of_mem payload member)

theorem number_fitting (state : AsyncPort × List VpnFrame) (fitting : Fitting size k state.1)
    (frames : ∀ frame ∈ state.2, frame.data.length ≤ size)
    (short : ∀ payload ∈ payloads, payload.bytes.length ≤ size) :
    Fitting size k (payloads.foldl AsyncPort.numberOne state).1 ∧
      ∀ frame ∈ (payloads.foldl AsyncPort.numberOne state).2, frame.data.length ≤ size := by
  induction payloads generalizing state with
  | nil => exact ⟨fitting, frames⟩
  | cons payload rest ih =>
    have later : ∀ other ∈ rest, other.bytes.length ≤ size :=
      fun other member => short other (List.mem_cons_of_mem payload member)
    rw [List.foldl_cons]
    unfold AsyncPort.numberOne
    split
    · exact ih _ ⟨fitting.queues, fitting.writers, fitting.encoder⟩ frames later
    · exact ih _ ⟨fitting.queues, fitting.writers, fitting.encoder⟩
        (Holdings.forall_mem_concat frames (short payload List.mem_cons_self)) later

theorem spread_fitting (targets : List Nat) (frames : List VpnFrame)
    (fitting : Fitting size k port) (whole : size ≤ payloadLimit)
    (short : ∀ frame ∈ frames, frame.data.length ≤ size) :
    Fitting size k (port.spread frames targets) := by
  induction targets generalizing port frames with
  | nil => exact ⟨fitting.queues, fitting.writers, fitting.encoder⟩
  | cons target rest ih =>
    unfold AsyncPort.spread
    split
    · exact ⟨fitting.queues, fitting.writers, fitting.encoder⟩
    · rename_i backend there
      have pushed := fitting.setBackend target
        { backend with queue := (backend.queue.tryPushBatch frames).1 }
        (tryPushBatch_poppable backend.queue frames (fitting.queue there)
          fun frame member => Nat.le_trans (short frame member) whole)
      dsimp only
      split
      · exact pushed
      · apply ih _ pushed
        intro frame member
        exact short frame (List.drop_subset _ _ member)

theorem traffic_fitting (mtu : UInt16) (label : Traffic)
    (room : tapReadBufferSize mtu + parityOverhead k ≤ payloadLimit)
    (admitted : label.admitted mtu k = true) (fitting : Fitting (tapReadBufferSize mtu) k port)
    (taken : port.traffic label = some next) : Fitting (tapReadBufferSize mtu) k next := by
  have whole : tapReadBufferSize mtu ≤ payloadLimit := Nat.le_trans (Nat.le_add_right _ _) room
  cases label with
  | write label =>
    have stepped : port.step label = some next ∧
        ∀ capacity most, label = .register capacity most → most ≤ 32 := by
      cases label with
      | register => cases taken
      | _ => exact ⟨taken, by rintro _ _ ⟨⟩⟩
    refine write_fitting fitting room stepped.2 ?_ (step_written port next label stepped.1)
    rintro payload rfl
    simpa [Traffic.admitted] using admitted
  | connect setting =>
    have stepped : port.step (.register 1024 (txBatchSize setting)) = some next := taken
    refine write_fitting fitting room ?_ ?_ (step_written port next _ stepped)
    · rintro _ _ ⟨⟩
      exact txBatchSize_small setting
    · rintro _ ⟨⟩
  | reset group ic =>
    cases taken
    apply reset_fitting fitting
    simpa [Traffic.admitted] using admitted
  | batch target payloads =>
    simp only [AsyncPort.traffic] at taken
    split at taken
    · cases taken
      apply batch_fitting target payloads fitting whole
      simpa [Traffic.admitted] using admitted
    · cases taken
  | dispatch payloads targets =>
    simp only [AsyncPort.traffic] at taken
    split at taken
    · cases taken
      have numbered := number_fitting payloads (port, []) fitting (by rintro _ ⟨⟩)
        (by simpa [Traffic.admitted] using admitted)
      exact spread_fitting targets _ numbered.1 whole numbered.2
    · cases taken
  | drain target budget =>
    simp only [AsyncPort.traffic] at taken
    split at taken
    · rename_i backend there
      split at taken
      · rename_i popped drained
        cases taken
        exact fitting.setBackend target _
          (tryPopFitting_poppable backend.queue popped.2 popped.1 budget (fitting.queue there) drained)
      · cases taken
    · cases taken

theorem new_fitting : Fitting size k AsyncPort.new := by
  refine ⟨?_, ?_, ?_⟩
  · rintro _ ⟨⟩
  · rintro _ ⟨⟩
  · rintro _ ⟨⟩

/-- For an MTU whose longest frame fits one TLS record together with the parity
overhead of the configured group size: over any traffic the configuration
admits, a queue that is not empty yields a batch to an empty send buffer. -/
theorem front_batch_fits (mtu : UInt16) (k : Nat)
    (room : tapReadBufferSize mtu + parityOverhead k ≤ payloadLimit)
    (labels : List Traffic) (admitted : ∀ label ∈ labels, label.admitted mtu k = true)
    (final : AsyncPort) (reached : Runs.run AsyncPort.traffic AsyncPort.new labels = some final)
    (target : Nat) (backend : Backend) (there : final.backends[target]? = some backend)
    (nonempty : backend.queue.batches ≠ []) :
    (backend.queue.tryPopFitting (popBudget 0)).isSome = true := by
  have fitting : Fitting (tapReadBufferSize mtu) k final :=
    Runs.invariant_labels AsyncPort.traffic _ (Fitting (tapReadBufferSize mtu) k)
      (fun _ label _ allowed fitting taken => traffic_fitting mtu label room allowed fitting taken)
      AsyncPort.new final labels reached admitted new_fitting
  exact PoppableQueue.pops backend.queue (fitting.queue there) nonempty

def singleWrite (payload : Payload) : List Traffic :=
  [.connect none, .write (.enter payload), .write (.number 0), .write (.encode 0),
    .write (.attempt 0 0)]

theorem singleWrite_queued (payload : Payload) : ∃ final backend,
    Runs.run AsyncPort.traffic AsyncPort.new (singleWrite payload) = some final ∧
      final.backends[0]? = some backend ∧
      backend.queue.batches = [⟨[⟨1, payload.bytes, 0⟩], payload.bytes.length⟩] :=
  ⟨_, _, rfl, rfl, rfl⟩

theorem front_batch_fits_small : ∃ final backend,
    Runs.run AsyncPort.traffic AsyncPort.new (singleWrite samplePayload) = some final ∧
      final.backends[0]? = some backend ∧
      (backend.queue.tryPopFitting (popBudget 0)).isSome = true := by
  obtain ⟨final, backend, reached, there, batches⟩ := singleWrite_queued samplePayload
  refine ⟨final, backend, reached, there, ?_⟩
  exact front_batch_fits 1500 2 (by decide) (singleWrite samplePayload) (by decide) final reached 0
    backend there (by rw [batches]; exact List.cons_ne_nil _ _)

def jumboPayload : Payload where
  bytes := List.replicate 16000 0
  nonempty := by
    apply List.ne_nil_of_length_pos
    rw [List.length_replicate]
    decide
  fits := by
    rw [List.length_replicate]
    decide

/-- With an MTU of 16000 such a frame is admitted, queued, and never popped. -/
theorem jumbo_blocks_queue :
    (∀ label ∈ singleWrite jumboPayload, label.admitted 16000 0 = true) ∧
    ∃ final backend,
      Runs.run AsyncPort.traffic AsyncPort.new (singleWrite jumboPayload) = some final ∧
        final.backends[0]? = some backend ∧ backend.queue.batches ≠ [] ∧
        backend.queue.tryPopFitting (popBudget 0) = none := by
  have length : jumboPayload.bytes.length = 16000 := List.length_replicate
  constructor
  · have buffer : jumboPayload.bytes.length ≤ tapReadBufferSize 16000 := by
      rw [length]
      decide
    simp [singleWrite, Traffic.admitted, buffer]
  · obtain ⟨final, backend, reached, there, batches⟩ := singleWrite_queued jumboPayload
    refine ⟨final, backend, reached, there, ?_, ?_⟩
    · rw [batches]
      exact List.cons_ne_nil _ _
    · unfold OwnedBatchQueue.tryPopFitting
      rw [batches]
      dsimp only
      rw [length, if_pos (by decide)]

end Steps

end TlsVpn.Port

import TlsVpn.Fifo
import TlsVpn.PortWrites

/-!
The batch queue of net.rs under every sequence of its operations: the frame
count against the deque, what a batch may hold, and the queue as a plain FIFO.
Producers come in three kinds: `try_push`, `try_push_batch`, and the loop of
`write_payload_batch`, which holds the queue's lock and stops two frames short
of the capacity.
-/

namespace TlsVpn.Port

open Words XorBytes Protocol Fec

section BatchPush

variable (queue : OwnedBatchQueue)

theorem foldl_pushLocked (frames : List VpnFrame) (queue : OwnedBatchQueue) :
    (frames.foldl OwnedBatchQueue.pushLocked queue).all = queue.all ++ frames ∧
      (frames.foldl OwnedBatchQueue.pushLocked queue).frames = queue.frames + frames.length ∧
      (frames.foldl OwnedBatchQueue.pushLocked queue).capacityFrames = queue.capacityFrames := by
  induction frames generalizing queue with
  | nil => exact ⟨(List.append_nil _).symm, rfl, rfl⟩
  | cons frame rest ih =>
    obtain ⟨all, count, capacity⟩ := ih (queue.pushLocked frame)
    refine ⟨?_, ?_, capacity⟩
    · rw [List.foldl_cons, all, pushLocked_all, List.append_assoc]
      rfl
    · rw [List.foldl_cons, count]
      change queue.frames + 1 + rest.length = _
      rw [List.length_cons]
      omega

structure PushedBatch (queue after : OwnedBatchQueue) (input rest : List VpnFrame) : Prop where
  all : after.all = queue.all ++ input.take (queue.capacityFrames - queue.frames)
  rest : rest = input.drop (queue.capacityFrames - queue.frames)
  count : after.frames = queue.frames + min input.length (queue.capacityFrames - queue.frames)
  hint : after.framesHint = after.frames
  capacity : after.capacityFrames = queue.capacityFrames

theorem tryPushBatch_pushed (input : List VpnFrame) :
    PushedBatch queue (queue.tryPushBatch input).1 input (queue.tryPushBatch input).2 := by
  obtain ⟨all, count, capacity⟩ := foldl_pushLocked
    (input.take (min input.length (queue.capacityFrames - queue.frames))) queue
  refine ⟨?_, ?_, ?_, rfl, capacity⟩
  · refine all.trans ?_
    rw [← List.take_take, List.take_of_length_le (List.length_take_le' _ _)]
  · change input.drop _ = _
    rcases Nat.le_total input.length (queue.capacityFrames - queue.frames) with fits | full
    · rw [Nat.min_eq_left fits, List.drop_length, List.drop_of_length_le fits]
    · rw [Nat.min_eq_right full]
  · refine count.trans ?_
    rw [List.length_take, Nat.min_eq_left (Nat.min_le_left _ _)]

end BatchPush

section Operations

inductive QueueOp where
  | tryPush (frame : VpnFrame)
  | tryPushBatch (input : List VpnFrame)
  | pushUnderLock (frames : List VpnFrame)
  | tryPopFitting (wireBudget : Nat)
  deriving DecidableEq

/-- The queue after an operation, the frames it took, the frames the caller has
back, and the batch it handed out. -/
structure QueueOutcome where
  queue : OwnedBatchQueue
  accepted : List VpnFrame
  returned : List VpnFrame
  popped : Option VpnFrameBatch
  deriving DecidableEq

def QueueOutcome.pushOne (outcome : QueueOutcome) (frame : VpnFrame) : QueueOutcome :=
  if outcome.queue.frames ≥ outcome.queue.capacityFrames - 2 then
    { outcome with returned := outcome.returned ++ [frame] }
  else
    { outcome with
      queue := outcome.queue.pushLocked frame
      accepted := outcome.accepted ++ [frame] }

def OwnedBatchQueue.serve (queue : OwnedBatchQueue) : QueueOp → QueueOutcome
  | .tryPush frame =>
    match queue.tryPush frame with
    | some pushed => ⟨pushed, [frame], [], none⟩
    -- `Err(frame)`
    | none => ⟨queue, [], [frame], none⟩
  | .tryPushBatch input =>
    let pushed := queue.tryPushBatch input
    -- the count it reports is what is missing from the caller's vector
    ⟨pushed.1, input.take (input.length - pushed.2.length), pushed.2, none⟩
  | .pushUnderLock frames => frames.foldl QueueOutcome.pushOne ⟨queue, [], [], none⟩
  | .tryPopFitting wireBudget =>
    match queue.tryPopFitting wireBudget with
    | some (batch, rest) => ⟨rest, [], [], some batch⟩
    | none => ⟨queue, [], [], none⟩

def OwnedBatchQueue.after (queue : OwnedBatchQueue) (op : QueueOp) : OwnedBatchQueue :=
  (queue.serve op).queue

def acceptedAt (visit : OwnedBatchQueue × QueueOp) : List VpnFrame :=
  (visit.1.serve visit.2).accepted

def poppedAt (visit : OwnedBatchQueue × QueueOp) : List VpnFrame :=
  (visit.1.serve visit.2).popped.elim [] VpnFrameBatch.frames

end Operations

section Batches

def payloadBytes (frames : List VpnFrame) : Nat := (frames.map fun frame => frame.data.length).sum

structure Packed (limit : Nat) (batch : VpnFrameBatch) : Prop where
  nonempty : batch.frames ≠ []
  short : batch.frames.length ≤ limit
  bytes : batch.bytes = payloadBytes batch.frames
  small : batch.bytes ≤ ownedBatchMaxBytes ∨ batch.frames.length = 1

structure Represents (capacity limit : Nat) (queue : OwnedBatchQueue) : Prop where
  capacityFrames : queue.capacityFrames = capacity
  maxBatchFrames : queue.maxBatchFrames = limit
  count : queue.frames = (queue.batches.map fun batch => batch.frames.length).sum
  room : queue.frames ≤ capacity
  packed : ∀ batch ∈ queue.batches, Packed limit batch

variable {limit : Nat}

theorem payloadBytes_append (left right : List VpnFrame) :
    payloadBytes (left ++ right) = payloadBytes left + payloadBytes right := by
  unfold payloadBytes
  rw [List.map_append, List.sum_append]

theorem payloadBytes_singleton (frame : VpnFrame) : payloadBytes [frame] = frame.data.length :=
  rfl

theorem saturatingAdd_small {left right bound : Nat} (below : bound < u64Max)
    (small : saturatingAdd left right ≤ bound) : saturatingAdd left right = left + right := by
  unfold saturatingAdd at *
  omega

theorem Packed.single (positive : 0 < limit) (frame : VpnFrame) :
    Packed limit ⟨[frame], frame.data.length⟩ :=
  ⟨List.cons_ne_nil _ _, positive, (payloadBytes_singleton frame).symm, Or.inr rfl⟩

theorem Packed.grow {last : VpnFrameBatch} (packed : Packed limit last) (frame : VpnFrame)
    (room : last.frames.length < limit)
    (small : saturatingAdd last.bytes frame.data.length ≤ ownedBatchMaxBytes) :
    Packed limit ⟨last.frames ++ [frame], saturatingAdd last.bytes frame.data.length⟩ := by
  refine ⟨List.append_ne_nil_of_right_ne_nil _ (List.cons_ne_nil _ _), ?_, ?_, Or.inl small⟩
  · rw [List.length_append]
    exact room
  · rw [saturatingAdd_small (by decide) small, packed.bytes, payloadBytes_append,
      payloadBytes_singleton]

theorem pushBatch_packed (positive : 0 < limit) (batches : List VpnFrameBatch) (frame : VpnFrame)
    (packed : ∀ batch ∈ batches, Packed limit batch) :
    ∀ batch ∈ pushBatch batches frame frame.data.length limit, Packed limit batch := by
  have single := Packed.single positive frame
  unfold pushBatch
  split
  · exact List.forall_mem_singleton.mpr single
  · rename_i last back
    split
    · rename_i room
      refine List.forall_mem_append.mpr ⟨?_, List.forall_mem_singleton.mpr ?_⟩
      · exact fun batch kept => packed batch (List.dropLast_subset _ kept)
      · exact (packed last (List.mem_of_getLast? back)).grow frame room.1 room.2
    · exact List.forall_mem_append.mpr ⟨packed, List.forall_mem_singleton.mpr single⟩

theorem length_all (queue : OwnedBatchQueue) :
    queue.all.length = (queue.batches.map fun batch => batch.frames.length).sum :=
  List.length_flatMap

end Batches

section Steps

variable {capacity limit : Nat} {queue : OwnedBatchQueue}
variable {outcome : QueueOutcome}

theorem txBatchSize_pos (setting : Option Nat) : 0 < txBatchSize setting := by
  unfold txBatchSize
  split <;> decide

theorem Represents.new (capacity : Nat) (limit : Nat) :
    Represents (max capacity 1) limit (OwnedBatchQueue.new capacity limit) :=
  ⟨rfl, rfl, rfl, Nat.zero_le _, List.forall_mem_nil _⟩

section

variable (represents : Represents capacity limit queue)

include represents

theorem Represents.pushLocked (positive : 0 < limit) (frame : VpnFrame)
    (free : queue.frames < capacity) : Represents capacity limit (queue.pushLocked frame) := by
  refine ⟨represents.capacityFrames, represents.maxBatchFrames, ?_, free, ?_⟩
  · have grown : (queue.pushLocked frame).all = queue.all ++ [frame] := pushLocked_all queue frame
    rw [← length_all, grown, List.length_append, length_all, ← represents.count]
    rfl
  · change ∀ batch ∈ pushBatch queue.batches frame frame.data.length queue.maxBatchFrames, _
    rw [represents.maxBatchFrames]
    exact pushBatch_packed positive queue.batches frame represents.packed

theorem Represents.rehint (hint : Nat) :
    Represents capacity limit { queue with framesHint := hint } :=
  ⟨represents.capacityFrames, represents.maxBatchFrames, represents.count, represents.room, represents.packed⟩

theorem Represents.tryPush {pushed : OwnedBatchQueue} {frame : VpnFrame} (positive : 0 < limit)
    (taken : queue.tryPush frame = some pushed) : Represents capacity limit pushed := by
  unfold OwnedBatchQueue.tryPush at taken
  split at taken
  · cases taken
  · rename_i room
    cases taken
    rw [represents.capacityFrames] at room
    exact (represents.pushLocked positive frame (Nat.not_le.mp room)).rehint _

end

theorem Represents.pushAll (positive : 0 < limit) (frames : List VpnFrame) :
    ∀ {queue : OwnedBatchQueue}, Represents capacity limit queue →
      queue.frames + frames.length ≤ capacity →
      Represents capacity limit (frames.foldl OwnedBatchQueue.pushLocked queue) := by
  induction frames with
  | nil => exact fun represents _ => represents
  | cons frame rest ih =>
    intro queue represents fits
    rw [List.length_cons] at fits
    have pushed := represents.pushLocked positive frame (by omega)
    refine ih pushed ?_
    change queue.frames + 1 + rest.length ≤ capacity
    omega

theorem Represents.tryPushBatch (represents : Represents capacity limit queue)
    (positive : 0 < limit) (input : List VpnFrame) :
    Represents capacity limit (queue.tryPushBatch input).1 := by
  refine (Represents.pushAll positive _ represents ?_).rehint _
  have room := represents.room
  rw [List.length_take, represents.capacityFrames]
  omega

theorem Represents.pop {rest : OwnedBatchQueue} {batch : VpnFrameBatch} {budget : Nat}
    (represents : Represents capacity limit queue)
    (popped : queue.tryPopFitting budget = some (batch, rest)) :
    Represents capacity limit rest ∧ batch ∈ queue.batches := by
  unfold OwnedBatchQueue.tryPopFitting at popped
  split at popped
  · cases popped
  · rename_i front tail shape
    split at popped
    · cases popped
    · cases popped
      have count := represents.count
      have room := represents.room
      have packed := represents.packed
      rw [shape] at count packed
      rw [List.map_cons, List.sum_cons] at count
      refine ⟨⟨represents.capacityFrames, represents.maxBatchFrames, ?_, ?_, ?_⟩, ?_⟩
      · exact Nat.sub_eq_of_eq_add' count
      · exact Nat.le_trans (Nat.sub_le _ _) room
      · exact fun other present => packed other (List.mem_cons_of_mem _ present)
      · rw [shape]
        exact List.mem_cons_self

/-- The loop under the lock after some frames: it took a front part of them, and
once it refused one it is at the watermark. -/
structure UnderLock (queue : OwnedBatchQueue) (seen : List VpnFrame) (outcome : QueueOutcome) : Prop where
  all : outcome.queue.all = queue.all ++ outcome.accepted
  order : outcome.accepted ++ outcome.returned = seen
  stuck : outcome.returned ≠ [] → outcome.queue.frames ≥ outcome.queue.capacityFrames - 2
  count : outcome.queue.frames = queue.frames + outcome.accepted.length
  hint : outcome.queue.framesHint = queue.framesHint
  popped : outcome.popped = none
  kept : outcome.accepted = [] → outcome.queue = queue

theorem UnderLock.pushOne {seen : List VpnFrame} (locked : UnderLock queue seen outcome)
    (frame : VpnFrame) : UnderLock queue (seen ++ [frame]) (outcome.pushOne frame) := by
  unfold QueueOutcome.pushOne
  split
  · rename_i full
    refine ⟨locked.all, ?_, fun _ => full, locked.count, locked.hint, locked.popped, locked.kept⟩
    rw [← List.append_assoc, locked.order]
  · rename_i free
    -- nothing was refused yet, or the loop would be stuck
    have none : outcome.returned = [] := by
      by_contra some
      exact free (locked.stuck some)
    refine ⟨?_, ?_, fun some => absurd none some, ?_, locked.hint, locked.popped, ?_⟩
    · exact (pushLocked_all _ _).trans (by rw [locked.all, List.append_assoc])
    · rw [none, List.append_nil, ← locked.order, none, List.append_nil]
    · rw [List.length_append]
      exact congrArg (· + 1) locked.count
    · exact fun empty => absurd empty (List.append_ne_nil_of_right_ne_nil _ (List.cons_ne_nil _ _))

theorem pushUnderLock_locked (queue : OwnedBatchQueue) (frames : List VpnFrame) :
    UnderLock queue frames (queue.serve (.pushUnderLock frames)) := by
  induction frames using List.reverseRecOn with
  | nil =>
    exact ⟨(List.append_nil _).symm, rfl, fun some => absurd rfl some, rfl, rfl, rfl, fun _ => rfl⟩
  | append_singleton rest last ih =>
    change UnderLock queue _ ((rest ++ [last]).foldl QueueOutcome.pushOne _)
    rw [List.foldl_concat]
    exact ih.pushOne last

inductive Served (queue : OwnedBatchQueue) : QueueOp → QueueOutcome → Prop where
  | pushed (frame : VpnFrame) (after : OwnedBatchQueue) (taken : queue.tryPush frame = some after) :
      Served queue (.tryPush frame) ⟨after, [frame], [], none⟩
  | refused (frame : VpnFrame) (full : queue.tryPush frame = none) :
      Served queue (.tryPush frame) ⟨queue, [], [frame], none⟩
  | batch (input : List VpnFrame) :
      Served queue (.tryPushBatch input)
        ⟨(queue.tryPushBatch input).1, input.take (queue.capacityFrames - queue.frames),
          input.drop (queue.capacityFrames - queue.frames), none⟩
  | locked (frames : List VpnFrame) :
      Served queue (.pushUnderLock frames) (queue.serve (.pushUnderLock frames))
  | popped (budget : Nat) (batch : VpnFrameBatch) (rest : OwnedBatchQueue)
      (taken : queue.tryPopFitting budget = some (batch, rest)) :
      Served queue (.tryPopFitting budget) ⟨rest, [], [], some batch⟩
  | kept (budget : Nat) (stuck : queue.tryPopFitting budget = none) :
      Served queue (.tryPopFitting budget) ⟨queue, [], [], none⟩

theorem take_accepted (queue : OwnedBatchQueue) (input : List VpnFrame) :
    input.take (input.length - (queue.tryPushBatch input).2.length) =
      input.take (queue.capacityFrames - queue.frames) := by
  rw [(tryPushBatch_pushed queue input).rest, List.length_drop]
  rcases Nat.le_total input.length (queue.capacityFrames - queue.frames) with fits | full
  · rw [List.take_of_length_le fits, List.take_of_length_le (by omega)]
  · rw [Nat.sub_sub_self full]

theorem serve_served (queue : OwnedBatchQueue) (op : QueueOp) : Served queue op (queue.serve op) := by
  cases op with
  | tryPush frame =>
    cases taken : queue.tryPush frame with
    | none =>
      simp only [OwnedBatchQueue.serve, taken]
      exact .refused frame taken
    | some after =>
      simp only [OwnedBatchQueue.serve, taken]
      exact .pushed frame after taken
  | tryPushBatch input =>
    have served : Served queue (.tryPushBatch input) _ := .batch input
    rw [← take_accepted, ← (tryPushBatch_pushed queue input).rest] at served
    exact served
  | pushUnderLock frames => exact .locked frames
  | tryPopFitting budget =>
    cases taken : queue.tryPopFitting budget with
    | none =>
      simp only [OwnedBatchQueue.serve, taken]
      exact .kept budget taken
    | some pair =>
      simp only [OwnedBatchQueue.serve, taken]
      exact .popped budget pair.1 pair.2 taken

theorem Represents.pushOne (positive : 0 < limit)
    (represents : Represents capacity limit outcome.queue) (frame : VpnFrame) :
    Represents capacity limit (outcome.pushOne frame).queue := by
  unfold QueueOutcome.pushOne
  split
  · exact represents
  · rename_i free
    rw [represents.capacityFrames] at free
    exact represents.pushLocked positive frame (by omega)

theorem Represents.served {op : QueueOp} (positive : 0 < limit)
    (represents : Represents capacity limit queue) (served : Served queue op outcome) :
    Represents capacity limit outcome.queue := by
  cases served with
  | pushed frame after taken => exact represents.tryPush positive taken
  | refused frame full => exact represents
  | batch input => exact represents.tryPushBatch positive input
  | locked frames =>
    have loop : ∀ outcome : QueueOutcome, Represents capacity limit outcome.queue →
        Represents capacity limit (frames.foldl QueueOutcome.pushOne outcome).queue := by
      induction frames with
      | nil => exact fun _ held => held
      | cons frame rest ih => exact fun _ held => ih _ (held.pushOne positive frame)
    exact loop _ represents
  | popped budget batch rest taken => exact (represents.pop taken).1
  | kept budget stuck => exact represents

theorem Represents.run (positive : 0 < limit) (represents : Represents capacity limit queue)
    (ops : List QueueOp) : Represents capacity limit (ops.foldl OwnedBatchQueue.after queue) :=
  List.foldlRecOn ops OwnedBatchQueue.after represents
    fun _ held op _ => held.served positive (serve_served _ op)

end Steps

section Contract

/-- What a caller learns is what happened: a refused frame is handed back and the
queue is as before, a batch push takes a front part of its input that fills the
free places, and a pop without a batch changes nothing. -/
def Honest (queue : OwnedBatchQueue) (op : QueueOp) (outcome : QueueOutcome) : Prop :=
  match op with
  | .tryPush frame =>
    outcome.accepted = [frame] ∧ outcome.returned = [] ∨
      outcome.accepted = [] ∧ outcome.returned = [frame] ∧ outcome.queue = queue
  | .tryPushBatch input =>
    outcome.accepted ++ outcome.returned = input ∧
      outcome.accepted.length = min input.length (queue.capacityFrames - queue.frames) ∧
      (outcome.accepted = [] → outcome.queue = { queue with framesHint := queue.frames })
  | .pushUnderLock frames =>
    outcome.accepted ++ outcome.returned = frames ∧
      (outcome.accepted = [] → outcome.queue = queue)
  | .tryPopFitting _ => outcome.popped = none → outcome.queue = queue

variable {queue : OwnedBatchQueue} {op : QueueOp} {outcome : QueueOutcome}

theorem Served.honest (served : Served queue op outcome) : Honest queue op outcome := by
  cases served with
  | pushed frame after taken => exact Or.inl ⟨rfl, rfl⟩
  | refused frame full => exact Or.inr ⟨rfl, rfl, rfl⟩
  | batch input =>
    refine ⟨List.take_append_drop _ _, ?_, fun empty => ?_⟩
    · rw [List.length_take, Nat.min_comm]
    · -- nothing fits or nothing came, so the loop makes no turn
      have none : min input.length (queue.capacityFrames - queue.frames) = 0 := by
        rcases List.take_eq_nil_iff.mp empty with full | nothing
        · rw [full, Nat.min_zero]
        · rw [nothing]
          exact Nat.zero_min _
      simp only [OwnedBatchQueue.tryPushBatch, none]
      rfl
  | locked frames =>
    have locked := pushUnderLock_locked queue frames
    exact ⟨locked.order, locked.kept⟩
  | popped budget batch rest taken => exact fun nothing => absurd nothing (Option.some_ne_none batch)
  | kept budget stuck => exact fun _ => rfl

theorem Served.moves (served : Served queue op outcome) :
    queue.all ++ outcome.accepted =
      outcome.popped.elim [] VpnFrameBatch.frames ++ outcome.queue.all := by
  cases served with
  | pushed frame after taken => exact (tryPush_all queue after frame taken).symm
  | refused frame full => exact List.append_nil _
  | batch input => exact (tryPushBatch_pushed queue input).all.symm
  | locked frames =>
    have locked := pushUnderLock_locked queue frames
    rw [locked.popped]
    exact locked.all.symm
  | popped budget batch rest taken =>
    exact (List.append_nil _).trans (tryPopFitting_all queue rest batch budget taken)
  | kept budget stuck => exact List.append_nil _

theorem serve_refines :
    Fifo.Refines OwnedBatchQueue.after OwnedBatchQueue.all acceptedAt poppedAt :=
  fun queue op => (serve_served queue op).moves

/-- The queue over every sequence of operations: it counts and packs what it
holds, every answer is honest, and it is first in, first out. -/
theorem queue_runs_first_in_first_out (capacity : Nat) (setting : Option Nat) (ops : List QueueOp) :
    let start := OwnedBatchQueue.new capacity (txBatchSize setting)
    let visits := Runs.visits OwnedBatchQueue.after start ops
    let final := ops.foldl OwnedBatchQueue.after start
    (∀ visit ∈ visits, Represents (max capacity 1) (txBatchSize setting) visit.1 ∧
        Honest visit.1 visit.2 (visit.1.serve visit.2)) ∧
      Represents (max capacity 1) (txBatchSize setting) final ∧
      visits.flatMap poppedAt ++ final.all = visits.flatMap acceptedAt := by
  have positive := txBatchSize_pos setting
  intro start visits final
  have initially := Represents.new capacity (txBatchSize setting)
  refine ⟨fun visit listed => ⟨?_, (serve_served visit.1 visit.2).honest⟩, ?_, ?_⟩
  · exact Runs.invariant_visits OwnedBatchQueue.after _
      (fun queue op represents => represents.served positive (serve_served queue op))
      start ops initially visit listed
  · exact initially.run positive ops
  · exact serve_refines.run_empty start ops rfl

end Contract

end TlsVpn.Port

import TlsVpn.PortQueues

/-!
The transmit side of one server connection: producers push onto the backend's
queue and wake the worker, the worker flushes the queue into TLS and TLS into the
socket, and the readable path drains TLS on its own. A flush is cut at every
point where a producer can come between: the wake flag is cleared, the TLS
backlog is drained, batches are popped one at a time, and what was collected is
written. A label carries what the socket answers and how many bytes TLS adds of
its own.

`waking` counts the producers that have pushed and not yet woken the worker.
Statistics, the cork and the scheduler's accounts are left out.
-/

namespace TlsVpn.Outbound

open Words Port

section Worker

/-- Where the worker stands in `flush_outbound`. -/
inductive Phase where
  | idle
  | woken
  | popping (sendBuf pulled : Nat)
  | ending (sendBuf : Nat) (hitDrainLimit : Bool)
  deriving DecidableEq

inductive WriteResult where
  | wrote (bytes : Nat)
  | wouldBlock
  | failed
  deriving DecidableEq

structure Conn where
  queue : OwnedBatchQueue
  pending : Bool
  waking : Nat
  txLeftover : Bool
  /-- Bytes TLS holds for the socket. -/
  tls : Nat
  writeStalled : Bool
  closed : Bool
  phase : Phase
  deriving DecidableEq

def Conn.wantsWrite (conn : Conn) : Bool := decide (0 < conn.tls)

/-- The loop of `drain_tls`; a socket with no more answers blocks. -/
def Conn.writeTls (conn : Conn) : List WriteResult → Conn
  | [] => if conn.wantsWrite then { conn with writeStalled := true } else conn
  | result :: rest =>
    if conn.wantsWrite then
      match result with
      | .wrote 0 => { conn with closed := true }
      | .wrote bytes => Conn.writeTls { conn with tls := conn.tls - bytes } rest
      | .wouldBlock => { conn with writeStalled := true }
      | .failed => { conn with closed := true }
    else conn

def Conn.drainTls (conn : Conn) (results : List WriteResult) : Conn :=
  let drained := conn.writeTls results
  if drained.wantsWrite then drained else { drained with writeStalled := false }

def pulledLimit : Nat := 2048

inductive Label where
  | push (frame : VpnFrame)
  | pushBatch (frames : List VpnFrame)
  | wake
  | flush
  | backlog (results : List WriteResult) (epochMatches : Bool)
  | pop
  | finish (accepted : Bool) (extra : Nat) (results : List WriteResult)
  | readable (produced : Nat) (results : List WriteResult)
  | keepalive (bytes : Nat)

variable (icTx : Option Salt)

def wireSize (batches : List VpnFrameBatch) : Nat :=
  ((batches.flatMap VpnFrameBatch.frames).map (wireLength icTx)).sum

def frameCount (batches : List VpnFrameBatch) : Nat :=
  (batches.flatMap VpnFrameBatch.frames).length

/-- The two early returns of `flush_outbound`: behind a backlog that is still
there, and in an epoch that is not the connection's own. -/
def Conn.enterLoop (conn : Conn) (busy epochMatches : Bool) : Conn :=
  if busy && (conn.closed || conn.wantsWrite) then { conn with phase := .idle }
  else if epochMatches then { conn with phase := .popping 0 0 }
  else { conn with closed := true, phase := .idle }

def Conn.clearBacklog (conn : Conn) (results : List WriteResult) (epochMatches : Bool) : Conn :=
  let busy := conn.writeStalled || conn.wantsWrite
  (if busy then conn.drainTls results else conn).enterLoop busy epochMatches

def Conn.pop (conn : Conn) (sendBuf pulled : Nat) : Conn :=
  if sendBuf ≥ streamTlsBatchSoftLimit ∨ pulled ≥ pulledLimit then
    { conn with phase := .ending sendBuf true }
  else
    match conn.queue.tryPopFitting (popBudget sendBuf) with
    | none => { conn with phase := .ending sendBuf false }
    | some (batch, rest) =>
      { conn with
        queue := rest
        phase := .popping (sendBuf + wireSize icTx [batch]) (pulled + frameCount [batch]) }

/-- What follows the loop; `extra` is the padding and what TLS adds. -/
def Conn.finish (conn : Conn) (sendBuf : Nat) (hitDrainLimit accepted : Bool) (extra : Nat)
    (results : List WriteResult) : Conn :=
  let noted := { conn with txLeftover := hitDrainLimit, phase := .idle }
  if sendBuf = 0 then noted.drainTls results
  else if accepted then { noted with tls := noted.tls + sendBuf + extra }.drainTls results
  else { noted with closed := true }

def Conn.step (conn : Conn) (label : Label) : Option Conn :=
  if conn.closed then none else
    match label, conn.phase with
    | .push frame, _ =>
      match conn.queue.tryPush frame with
      | none => some conn
      | some queue => some { conn with queue := queue, waking := conn.waking + 1 }
    | .pushBatch frames, _ =>
      if min frames.length (conn.queue.capacityFrames - conn.queue.frames) = 0 then some conn
      else
        some { conn with
          queue := (conn.queue.tryPushBatch frames).1
          waking := conn.waking + 1 }
    | .wake, _ =>
      if 0 < conn.waking then
        some { conn with waking := conn.waking - 1, pending := true }
      else none
    | .flush, .idle => some { conn with pending := false, phase := .woken }
    | .backlog results epochMatches, .woken => some (conn.clearBacklog results epochMatches)
    | .pop, .popping sendBuf pulled => some (conn.pop icTx sendBuf pulled)
    | .finish accepted extra results, .ending sendBuf hitDrainLimit =>
      some (conn.finish sendBuf hitDrainLimit accepted extra results)
    | .readable produced results, .idle =>
      some ({ conn with tls := conn.tls + produced }.drainTls results)
    | .keepalive bytes, .idle =>
      -- The timer writes one only into an empty TLS buffer.
      if conn.writeStalled || conn.wantsWrite then none
      else some { conn with tls := bytes }
    | _, _ => none

def Conn.start (capacityFrames maxBatchFrames : Nat) : Conn where
  queue := OwnedBatchQueue.new capacityFrames maxBatchFrames
  pending := false
  waking := 0
  txLeftover := false
  tls := 0
  writeStalled := false
  closed := false
  phase := .idle

def Conn.gate (conn : Conn) : Bool :=
  conn.pending || conn.txLeftover || conn.wantsWrite || conn.writeStalled

/-- A waiting frame will be flushed without a further push, whenever the worker
is between two steps and no producer is about to wake it. -/
def Conn.Attended (conn : Conn) : Prop :=
  conn.closed = false → conn.phase = .idle → conn.waking = 0 → conn.queue.batches ≠ [] →
    conn.gate = true

end Worker

section Condition

variable (icTx : Option Salt)

/-- Each batch that the loop would come to, after the batches before it went
into the send buffer, fits into what is left of the record. -/
def FitsInTurn (sendBuf pulled : Nat) (batches : List VpnFrameBatch) : Prop :=
  ∀ place < batches.length, ∀ batch ∈ batches[place]?,
    sendBuf + wireSize icTx (batches.take place) < streamTlsBatchSoftLimit →
    pulled + frameCount (batches.take place) < pulledLimit →
    batch.bytes + batch.frames.length * ownedBatchWireOverheadPerFrame ≤
      popBudget (sendBuf + wireSize icTx (batches.take place))

instance decidableFitsInTurn (sendBuf pulled : Nat) (batches : List VpnFrameBatch) :
    Decidable (FitsInTurn icTx sendBuf pulled batches) := by
  dsimp only [FitsInTurn]
  exact inferInstance

/-- A flush meets a queue whose batches fit one after the other, and the readable
path does not meet a TLS backlog that is all the waiting frames have left. -/
def Smooth (conn : Conn) (label : Label) : Prop :=
  match label with
  | .flush => FitsInTurn icTx 0 0 conn.queue.batches
  | .readable _ _ =>
    conn.queue.batches = [] ∨ conn.waking ≠ 0 ∨ conn.pending = true ∨
      conn.txLeftover = true ∨ (conn.wantsWrite || conn.writeStalled) = false
  | _ => True

instance decidableSmooth (conn : Conn) (label : Label) : Decidable (Smooth icTx conn label) :=
  match label with
  | .flush => decidableFitsInTurn icTx 0 0 conn.queue.batches
  | .readable _ _ => by
    dsimp only [Smooth]
    exact inferInstance
  | .push _ => .isTrue trivial
  | .pushBatch _ => .isTrue trivial
  | .wake => .isTrue trivial
  | .backlog _ _ => .isTrue trivial
  | .pop => .isTrue trivial
  | .finish _ _ _ => .isTrue trivial
  | .keepalive _ => .isTrue trivial

variable {sendBuf pulled : Nat} {front : VpnFrameBatch} {rest : List VpnFrameBatch}

theorem fitsInTurn_front (fits : FitsInTurn icTx sendBuf pulled (front :: rest))
    (room : sendBuf < streamTlsBatchSoftLimit) (few : pulled < pulledLimit) :
    front.bytes + front.frames.length * ownedBatchWireOverheadPerFrame ≤ popBudget sendBuf :=
  fits 0 (Nat.succ_pos _) front rfl room few

theorem fitsInTurn_rest (fits : FitsInTurn icTx sendBuf pulled (front :: rest)) :
    FitsInTurn icTx (sendBuf + wireSize icTx [front]) (pulled + frameCount [front]) rest := by
  intro place inside batch there
  have size : wireSize icTx ((front :: rest).take (place + 1)) =
      wireSize icTx [front] + wireSize icTx (rest.take place) := by
    simp [wireSize]
  have count : frameCount ((front :: rest).take (place + 1)) =
      frameCount [front] + frameCount (rest.take place) := by
    simp [frameCount]
  have moved := fits (place + 1) (Nat.succ_lt_succ inside) batch there
  rw [size, count, ← Nat.add_assoc, ← Nat.add_assoc] at moved
  exact moved

end Condition

section Steps

variable {icTx : Option Salt} {conn next : Conn}

/-- Draining TLS concerns TLS, the stall and whether the connection is open. -/
structure SameQueue (conn next : Conn) : Prop where
  queue : next.queue = conn.queue
  pending : next.pending = conn.pending
  waking : next.waking = conn.waking
  leftover : next.txLeftover = conn.txLeftover
  phase : next.phase = conn.phase

variable {queue : OwnedBatchQueue} {budget sendBuf : Nat}

theorem SameQueue.refl (conn : Conn) : SameQueue conn conn := ⟨rfl, rfl, rfl, rfl, rfl⟩

theorem writeTls_same (results : List WriteResult) (conn : Conn) :
    SameQueue conn (conn.writeTls results) := by
  induction results generalizing conn with
  | nil =>
    unfold Conn.writeTls
    split <;> constructor <;> rfl
  | cons result rest ih =>
    unfold Conn.writeTls
    split
    · split
      · constructor <;> rfl
      · rename_i bytes _
        have tail := ih { conn with tls := conn.tls - bytes }
        exact ⟨tail.queue, tail.pending, tail.waking, tail.leftover, tail.phase⟩
      · constructor <;> rfl
      · constructor <;> rfl
    · exact SameQueue.refl conn

theorem drainTls_same (results : List WriteResult) (conn : Conn) :
    SameQueue conn (conn.drainTls results) := by
  have written := writeTls_same results conn
  unfold Conn.drainTls
  simp only
  split
  · exact written
  · exact ⟨written.queue, written.pending, written.waking, written.leftover, written.phase⟩

theorem tryPopFitting_none (missed : queue.tryPopFitting budget = none) :
    queue.batches = [] ∨ ∃ front rest, queue.batches = front :: rest ∧
      budget < front.bytes + front.frames.length * ownedBatchWireOverheadPerFrame := by
  unfold OwnedBatchQueue.tryPopFitting at missed
  split at missed
  · rename_i empty
    exact Or.inl empty
  · rename_i front rest shape
    split at missed
    · rename_i large
      exact Or.inr ⟨front, rest, shape, large⟩
    · cases missed

theorem tryPopFitting_some {rest : OwnedBatchQueue} {batch : VpnFrameBatch}
    (popped : queue.tryPopFitting budget = some (batch, rest)) :
    queue.batches = batch :: rest.batches := by
  unfold OwnedBatchQueue.tryPopFitting at popped
  split at popped
  · cases popped
  · rename_i front tail shape
    split at popped
    · cases popped
    · cases popped
      exact shape

def Conn.Called (conn : Conn) : Prop := conn.waking ≠ 0 ∨ conn.pending = true

/-- What holds wherever the worker stands. Between the clearing of the wake flag
and the end of the loop the frames seen at its start still fit in turn, unless a
producer came between, and that producer's wake is still to be consumed. -/
def Conn.Kept (icTx : Option Salt) (conn : Conn) : Prop :=
  match conn.phase with
  | .idle =>
    conn.closed = true ∨ conn.queue.batches = [] ∨ conn.Called ∨ conn.txLeftover = true ∨
      (conn.wantsWrite || conn.writeStalled) = true
  | .woken => conn.Called ∨ FitsInTurn icTx 0 0 conn.queue.batches
  | .popping sendBuf pulled => conn.Called ∨ FitsInTurn icTx sendBuf pulled conn.queue.batches
  | .ending _ hitDrainLimit =>
    hitDrainLimit = true ∨ conn.Called ∨ conn.queue.batches = []

theorem Conn.Called.kept (called : conn.Called) : conn.Kept icTx := by
  unfold Conn.Kept
  split
  · exact Or.inr (Or.inr (Or.inl called))
  · exact Or.inl called
  · exact Or.inl called
  · exact Or.inr (Or.inl called)

theorem SameQueue.called (same : SameQueue conn next) (called : conn.Called) : next.Called := by
  unfold Conn.Called
  rw [same.waking, same.pending]
  exact called

theorem kept_start (capacityFrames maxBatchFrames : Nat) :
    (Conn.start capacityFrames maxBatchFrames).Kept icTx := Or.inr (Or.inl rfl)

theorem kept_enterLoop (fits : conn.Called ∨ FitsInTurn icTx 0 0 conn.queue.batches)
    (busy epochMatches : Bool) : (conn.enterLoop busy epochMatches).Kept icTx := by
  unfold Conn.enterLoop
  split
  · rename_i stuck
    obtain ⟨-, reason⟩ := Bool.and_eq_true_iff.mp stuck
    rcases Bool.or_eq_true_iff.mp reason with closes | backlog
    · exact Or.inl closes
    · have busy : (conn.wantsWrite || conn.writeStalled) = true := by
        rw [backlog]
        rfl
      exact Or.inr (Or.inr (Or.inr (Or.inr busy)))
  · split
    · exact fits
    · exact Or.inl rfl

section

variable (kept : conn.Kept icTx)

include kept

theorem Kept.clearBacklog (woken : conn.phase = .woken) (results : List WriteResult)
    (epochMatches : Bool) : (conn.clearBacklog results epochMatches).Kept icTx := by
  have fits : conn.Called ∨ FitsInTurn icTx 0 0 conn.queue.batches := by
    unfold Conn.Kept at kept
    rw [woken] at kept
    exact kept
  unfold Conn.clearBacklog
  simp only
  apply kept_enterLoop
  split
  · have same := drainTls_same results conn
    rw [same.queue]
    exact fits.imp_left same.called
  · exact fits

theorem Kept.pop {pulled : Nat} (popping : conn.phase = .popping sendBuf pulled) :
    (conn.pop icTx sendBuf pulled).Kept icTx := by
  have fits : conn.Called ∨ FitsInTurn icTx sendBuf pulled conn.queue.batches := by
    unfold Conn.Kept at kept
    rw [popping] at kept
    exact kept
  unfold Conn.pop
  by_cases limit : sendBuf ≥ streamTlsBatchSoftLimit ∨ pulled ≥ pulledLimit
  · rw [if_pos limit]
    exact Or.inl rfl
  rw [if_neg limit]
  push Not at limit
  cases popped : conn.queue.tryPopFitting (popBudget sendBuf) with
  | none =>
    rcases fits with called | fitting
    · exact Or.inr (Or.inl called)
    -- Everything left fits in turn, so only an empty queue ends the loop.
    · rcases tryPopFitting_none popped with empty | ⟨front, rest, shape, large⟩
      · exact Or.inr (Or.inr empty)
      · rw [shape] at fitting
        have fit := fitsInTurn_front icTx fitting limit.1 limit.2
        exact absurd large (Nat.not_lt.mpr fit)
  | some taken =>
    obtain ⟨batch, rest⟩ := taken
    rcases fits with called | fitting
    · exact Or.inl called
    · rw [tryPopFitting_some popped] at fitting
      exact Or.inr (fitsInTurn_rest icTx fitting)

theorem Kept.finish {hitDrainLimit : Bool} (ending : conn.phase = .ending sendBuf hitDrainLimit)
    (accepted : Bool) (extra : Nat) (results : List WriteResult) :
    (conn.finish sendBuf hitDrainLimit accepted extra results).Kept icTx := by
  have left : hitDrainLimit = true ∨ conn.Called ∨ conn.queue.batches = [] := by
    unfold Conn.Kept at kept
    rw [ending] at kept
    exact kept
  have drained : ∀ (written : Conn), SameQueue
      { conn with txLeftover := hitDrainLimit, phase := .idle } written →
      (written.drainTls results).Kept icTx := by
    intro written same
    have after := drainTls_same results written
    have idle : (written.drainTls results).phase = .idle := after.phase.trans same.phase
    rcases left with hit | called | empty
    · unfold Conn.Kept
      rw [idle]
      refine Or.inr (Or.inr (Or.inr (Or.inl ?_)))
      rw [after.leftover, same.leftover]
      exact hit
    · exact (after.called (same.called called)).kept
    · unfold Conn.Kept
      rw [idle]
      refine Or.inr (Or.inl ?_)
      rw [after.queue, same.queue]
      exact empty
  unfold Conn.finish
  simp only
  split
  · exact drained _ (SameQueue.refl _)
  · split
    · exact drained _ ⟨rfl, rfl, rfl, rfl, rfl⟩
    · exact Or.inl rfl

/-- The readable path may use up a TLS backlog, so the frames that wait must have
another reason to be flushed. -/
theorem kept_readable (idle : conn.phase = .idle) (opened : conn.closed = false) (produced : Nat)
    (results : List WriteResult) (smooth : Smooth icTx conn (.readable produced results)) :
    ({ conn with tls := conn.tls + produced }.drainTls results).Kept icTx := by
  have after := drainTls_same results { conn with tls := conn.tls + produced }
  have still := after.phase.trans idle
  unfold Conn.Kept at kept ⊢
  rw [idle] at kept
  rw [still]
  simp only at kept ⊢
  have settled : conn.queue.batches = [] ∨ conn.Called ∨ conn.txLeftover = true := by
    rcases smooth with empty | waking | pending | leftover | silent
    · exact Or.inl empty
    · exact Or.inr (Or.inl (Or.inl waking))
    · exact Or.inr (Or.inl (Or.inr pending))
    · exact Or.inr (Or.inr leftover)
    · rcases kept with closes | empty | called | leftover | backlog
      · exact absurd closes (by rw [opened]; decide)
      · exact Or.inl empty
      · exact Or.inr (Or.inl called)
      · exact Or.inr (Or.inr leftover)
      · exact absurd backlog (by rw [silent]; decide)
  rcases settled with empty | called | leftover
  · refine Or.inr (Or.inl ?_)
    rw [after.queue]
    exact empty
  · exact Or.inr (Or.inr (Or.inl (after.called called)))
  · exact Or.inr (Or.inr (Or.inr (Or.inl (after.leftover.trans leftover))))

theorem kept_keepalive (idle : conn.phase = .idle)
    (quiet : ¬(conn.writeStalled || conn.wantsWrite) = true) (bytes : Nat) :
    { conn with tls := bytes }.Kept icTx := by
  unfold Conn.Kept at kept ⊢
  rw [idle] at kept
  simp only [idle] at kept ⊢
  rcases kept with closes | empty | called | leftover | backlog
  · exact Or.inl closes
  · exact Or.inr (Or.inl empty)
  · exact Or.inr (Or.inr (Or.inl called))
  · exact Or.inr (Or.inr (Or.inr (Or.inl leftover)))
  · rw [Bool.or_comm] at backlog
    exact absurd backlog quiet

end

theorem step_kept (conn : Conn) (label : Label) (next : Conn) (smooth : Smooth icTx conn label)
    (kept : conn.Kept icTx) (taken : conn.step icTx label = some next) : next.Kept icTx := by
  unfold Conn.step at taken
  by_cases closes : conn.closed = true
  · rw [if_pos closes] at taken
    cases taken
  rw [if_neg closes] at taken
  split at taken
  · -- A push is followed by its producer's wake.
    split at taken
    · cases taken
      exact kept
    · cases taken
      exact Conn.Called.kept (Or.inl (Nat.succ_ne_zero _))
  · split at taken
    · cases taken
      exact kept
    · cases taken
      exact Conn.Called.kept (Or.inl (Nat.succ_ne_zero _))
  · split at taken
    · cases taken
      exact Conn.Called.kept (Or.inr rfl)
    · cases taken
  · cases taken
    exact Or.inr smooth
  · rename_i woken
    cases taken
    exact Kept.clearBacklog kept woken _ _
  · rename_i popping
    cases taken
    exact Kept.pop kept popping
  · rename_i ending
    cases taken
    exact Kept.finish kept ending _ _ _
  · rename_i idle
    cases taken
    exact kept_readable kept idle (Bool.eq_false_of_not_eq_true closes) _ _ smooth
  · rename_i bytes idle
    split at taken
    · cases taken
    · rename_i quiet
      cases taken
      exact kept_keepalive kept idle quiet bytes
  · cases taken

theorem Conn.Kept.attended (kept : conn.Kept icTx) : conn.Attended := by
  intro opened idle awake waiting
  unfold Conn.Kept at kept
  rw [idle] at kept
  unfold Conn.gate
  rcases kept with closes | empty | (waking | pending) | leftover | backlog
  · rw [opened] at closes
    cases closes
  · exact absurd empty waiting
  · exact absurd awake waking
  · simp [pending]
  · simp [leftover]
  · rw [Bool.or_assoc, backlog, Bool.or_true]

end Steps

section Stall

/-- Whenever the worker is between two steps, frames that wait in the queue are
flushed without a further push: in every run in which each flush meets batches
that fit in turn and the readable path never meets a backlog that is all the
waiting frames have left. -/
theorem transmit_never_stalls (icTx : Option Salt) (capacityFrames maxBatchFrames : Nat)
    (labels : List Label) (conn : Conn)
    (reached : Runs.run (Conn.step icTx) (Conn.start capacityFrames maxBatchFrames) labels =
      some conn)
    (smooth : Runs.Along (Conn.step icTx) (Smooth icTx)
      (Conn.start capacityFrames maxBatchFrames) labels) : conn.Attended := by
  have kept : conn.Kept icTx :=
    Runs.invariant_along (Conn.step icTx) (Smooth icTx) (Conn.Kept icTx) step_kept _ conn labels
      reached smooth (kept_start capacityFrames maxBatchFrames)
  exact kept.attended

def Conn.holding (batches : List VpnFrameBatch) (frames : Nat) : Conn :=
  { Conn.start 32 8 with
    queue := { OwnedBatchQueue.new 32 8 with
      batches := batches, frames := frames, framesHint := frames } }

def blockedOnce : List Label :=
  [.push ⟨1, [5], 0⟩, .wake, .flush, .backlog [] true, .pop, .pop,
    .finish true 0 [.wouldBlock], .push ⟨2, [6], 0⟩, .wake, .flush, .backlog [.wrote 11] true,
    .push ⟨3, [7], 0⟩, .pop, .wake, .pop, .finish true 0 [.wrote 22], .push ⟨4, [8], 0⟩, .wake]

theorem transmit_never_stalls_blockedOnce :
    Runs.Along (Conn.step none) (Smooth none) (Conn.start 32 8) blockedOnce ∧
      ∃ conn, Runs.run (Conn.step none) (Conn.start 32 8) blockedOnce = some conn ∧
        conn.waking = 0 ∧ conn.queue.batches ≠ [] ∧ conn.Attended := by
  have smooth : Runs.Along (Conn.step none) (Smooth none) (Conn.start 32 8) blockedOnce := by
    decide +kernel
  have reached : Runs.run (Conn.step none) (Conn.start 32 8) blockedOnce =
      some { Conn.holding [⟨[⟨4, [8], 0⟩], 1⟩] 1 with pending := true } := by
    decide +kernel
  exact ⟨smooth, _, reached, rfl, by decide,
    transmit_never_stalls none 32 8 blockedOnce _ reached smooth⟩

def middlingFrame (seq : Nat) : VpnFrame := ⟨seq, List.replicate 750 0, 0⟩

def middlingFrames (first : Nat) : List VpnFrame :=
  (List.range 8).map fun offset => middlingFrame (first + offset)

def thirdLeft : List Label :=
  [.pushBatch (middlingFrames 1), .wake, .pushBatch (middlingFrames 9), .wake,
    .pushBatch (middlingFrames 17), .wake, .flush, .backlog [] true, .pop, .pop, .pop,
    .finish true 0 [.wrote 12160]]

def drainedElsewhere : List Label :=
  [.push ⟨1, [5], 0⟩, .wake, .flush, .backlog [] true, .pop, .pop,
    .finish true 0 [.wouldBlock], .push ⟨2, [6], 0⟩, .wake, .flush, .backlog [.wouldBlock] true,
    .readable 0 [.wrote 11]]

/-- Either way a frame waits, the worker is idle and nothing makes it flush. -/
theorem transmit_stalls :
    (∃ conn, Runs.run (Conn.step none) (Conn.start 32 8) thirdLeft = some conn ∧
      ¬conn.Attended) ∧
    ∃ conn, Runs.run (Conn.step none) (Conn.start 32 8) drainedElsewhere = some conn ∧
      ¬conn.Attended := by
  constructor
  · refine ⟨Conn.holding [⟨middlingFrames 17, 6000⟩] 8, by decide +kernel, ?_⟩
    intro attended
    have flushed := attended rfl rfl rfl (by decide +kernel)
    exact Bool.false_ne_true flushed
  · refine ⟨Conn.holding [⟨[⟨2, [6], 0⟩], 1⟩] 1, by decide +kernel, ?_⟩
    intro attended
    have flushed := attended rfl rfl rfl (by decide +kernel)
    exact Bool.false_ne_true flushed

end Stall

end TlsVpn.Outbound

import TlsVpn.QueueFifo

/-!
The lock-free hint of a queue's length. Every step of a port works on its queues
through the operations of `QueueOp` alone. All of them but the loop of
`write_payload_batch` store the hint together with the count, so between steps
the hint is the length just if no such loop has taken a frame.
-/

namespace TlsVpn.Port

open Words XorBytes Protocol Fec

section Work

def QueueOp.isPush : QueueOp → Prop
  | .tryPush _ => True
  | _ => False

def QueueOp.stores : QueueOp → Prop
  | .pushUnderLock _ => False
  | _ => True

theorem QueueOp.stores_of_isPush : ∀ op : QueueOp, op.isPush → op.stores
  | .tryPush _, _ => trivial

def Worked (allowed : QueueOp → Prop) : OwnedBatchQueue → OwnedBatchQueue → Prop :=
  Relation.ReflTransGen fun before after => ∃ op, allowed op ∧ before.after op = after

inductive Source (backends : List Backend) (position : Nat) : OwnedBatchQueue → Prop where
  | old (backend : Backend) (there : backends[position]? = some backend) :
      Source backends position backend.queue
  | new (capacityFrames maxBatchFrames : Nat) :
      Source backends position (OwnedBatchQueue.new capacityFrames maxBatchFrames)

def Works (allowed : QueueOp → Prop) (before after : List Backend) : Prop :=
  ∀ (position : Nat) (backend : Backend), after[position]? = some backend →
    ∃ source, Source before position source ∧ Worked allowed source backend.queue

variable {allowed : QueueOp → Prop} {before after : List Backend}
variable {queue : OwnedBatchQueue}

theorem Worked.one (op : QueueOp) (fits : allowed op) : Worked allowed queue (queue.after op) :=
  Relation.ReflTransGen.single ⟨op, fits, rfl⟩

theorem Worked.mono {wider : QueueOp → Prop} {worked : OwnedBatchQueue}
    (wide : ∀ op, allowed op → wider op) (work : Worked allowed queue worked) :
    Worked wider queue worked := by
  refine Relation.ReflTransGen.mono ?_ _ _ work
  rintro _ _ ⟨op, fits, same⟩
  exact ⟨op, wide op fits, same⟩

theorem Works.mono (wider : QueueOp → Prop) (wide : ∀ op, allowed op → wider op)
    (works : Works allowed before after) : Works wider before after := by
  intro position backend there
  obtain ⟨source, origin, work⟩ := works position backend there
  exact ⟨source, origin, work.mono wide⟩

theorem Works.refl (backends : List Backend) : Works allowed backends backends :=
  fun _ backend there => ⟨backend.queue, .old backend there, Relation.ReflTransGen.refl⟩

theorem Works.trans {middle : List Backend} (first : Works allowed before middle)
    (second : Works allowed middle after) : Works allowed before after := by
  intro position backend there
  obtain ⟨source, origin, work⟩ := second position backend there
  cases origin with
  | old mid passed =>
    obtain ⟨first, origin, earlier⟩ := first position mid passed
    exact ⟨first, origin, earlier.trans work⟩
  | new capacityFrames maxBatchFrames => exact ⟨_, .new capacityFrames maxBatchFrames, work⟩

theorem Works.set {target : Nat} {backend changed : Backend}
    (there : before[target]? = some backend) (work : Worked allowed backend.queue changed.queue) :
    Works allowed before (before.set target changed) := by
  intro position found present
  rw [List.getElem?_set] at present
  split at present
  · rename_i same
    subst same
    split at present
    · cases present
      exact ⟨backend.queue, .old backend there, work⟩
    · cases present
  · exact ⟨found.queue, .old found present, Relation.ReflTransGen.refl⟩

theorem Works.map (change : Backend → Backend) (same : ∀ backend, (change backend).queue = backend.queue) :
    Works allowed before (before.map change) := by
  intro position found present
  rw [List.getElem?_map, Option.map_eq_some_iff] at present
  obtain ⟨old, there, rfl⟩ := present
  refine ⟨old.queue, .old old there, ?_⟩
  rw [same]
  exact Relation.ReflTransGen.refl

theorem Works.register (capacityFrames maxBatchFrames : Nat) :
    Works allowed before
      (before ++ [⟨true, OwnedBatchQueue.new capacityFrames maxBatchFrames, 0⟩]) := by
  intro position found present
  rcases Nat.lt_or_ge position before.length with inside | beyond
  · rw [List.getElem?_append_left inside] at present
    exact ⟨found.queue, .old found present, Relation.ReflTransGen.refl⟩
  · rw [List.getElem?_append_right beyond] at present
    rw [List.mem_singleton.mp (List.mem_of_getElem? present)]
    exact ⟨_, .new capacityFrames maxBatchFrames, Relation.ReflTransGen.refl⟩

end Work

section Writes

variable {port : AsyncPort}

theorem tryPush_worked {backend taken : Backend} {frame : VpnFrame}
    (pushed : backend.tryPush frame = some taken) :
    Worked QueueOp.isPush backend.queue taken.queue := by
  obtain ⟨queue, pushes, rfl⟩ := Option.map_eq_some_iff.mp pushed
  have after : backend.queue.after (.tryPush frame) = queue := by
    simp only [OwnedBatchQueue.after, OwnedBatchQueue.serve, pushes]
  rw [← after]
  exact Worked.one (.tryPush frame) trivial

theorem sendData_worked (backend : Backend) (frame : VpnFrame) :
    Worked QueueOp.isPush backend.queue (backend.trySendFenced frame none).1.queue := by
  unfold Backend.trySendFenced
  dsimp only
  cases pushed : backend.tryPush frame with
  | none => exact Relation.ReflTransGen.refl
  | some taken => exact tryPush_worked pushed

theorem trySendFenced_worked (backend : Backend) (frame : VpnFrame)
    (control : Option FecModeControl) :
    Worked QueueOp.isPush backend.queue (backend.trySendFenced frame control).1.queue := by
  cases control with
  | none => exact sendData_worked backend frame
  | some mode =>
    by_cases stale : backend.fecFenceGen < mode.generation
    · cases pushed : backend.tryPush ⟨0, mode.encode, frame.round⟩ with
      | none =>
        simp only [Backend.trySendFenced, if_pos stale, pushed]
        exact Relation.ReflTransGen.refl
      | some fenced =>
        have data := sendData_worked { fenced with fecFenceGen := mode.generation } frame
        simp only [Backend.trySendFenced, if_pos stale, pushed] at data ⊢
        exact (tryPush_worked pushed).trans data
    · have data := sendData_worked backend frame
      simp only [Backend.trySendFenced, if_neg stale] at data ⊢
      exact data

theorem sendParity_works {target : Nat} {backend : Backend}
    (there : port.backends[target]? = some backend) (round : Nat) (record : Bytes) :
    Works QueueOp.isPush port.backends (port.sendParity target backend round record).backends := by
  unfold AsyncPort.sendParity
  split
  · rename_i taken pushed
    exact Works.set there (tryPush_worked pushed)
  · exact Works.refl _

theorem encode_backends (port : AsyncPort) (index seq round : Nat) (payload : Payload) :
    (port.encode index seq round payload).backends = port.backends := by
  unfold AsyncPort.encode
  split
  · split <;> rfl
  · rfl

theorem step_works {next : AsyncPort} {label : WriteLabel} (taken : port.step label = some next) :
    Works QueueOp.isPush port.backends next.backends := by
  cases step_written port next label taken with
  | refused | entered | exhausted | numbered | gaveUp | left => exact Works.refl _
  | encoded index seq round payload found =>
    rw [encode_backends]
    exact Works.refl _
  | attempted index target backend seq round payload parity control found there registered =>
    have sent := Works.set there (trySendFenced_worked backend ⟨seq, payload.bytes, round⟩ control)
    unfold AsyncPort.attempt
    dsimp only
    split <;> exact sent
  | parity index target backend round record found there registered =>
    exact sendParity_works there round record
  | registered capacityFrames maxBatchFrames quiet =>
    exact Works.register capacityFrames maxBatchFrames
  | unregistered target backend there quiet => exact Works.set there Relation.ReflTransGen.refl

end Writes

section Batches

structure Batched (target : Nat) (backend : Backend) (payloads : List Payload)
    (port after : AsyncPort) (frames : List VpnFrame) : Prop where
  backends : after.backends = port.backends.set target
    { backend with queue := backend.queue.after (.pushUnderLock frames) }
  whole : (backend.queue.serve (.pushUnderLock frames)).accepted = frames
  counter : after.txSeq = port.txSeq + frames.length
  takes : frames = [] ↔ payloads = [] ∨
    backend.queue.frames ≥ backend.queue.capacityFrames - 2 ∨ port.txSeq = u32Max

variable {target : Nat} {backend : Backend} {port : AsyncPort} (queue : OwnedBatchQueue)
  (frames : List VpnFrame)

theorem after_pushUnderLock_concat (frame : VpnFrame) :
    queue.serve (.pushUnderLock (frames ++ [frame])) =
      (queue.serve (.pushUnderLock frames)).pushOne frame := by
  change (frames ++ [frame]).foldl QueueOutcome.pushOne _ = _
  rw [List.foldl_concat]
  rfl

theorem serve_capacity :
    (queue.serve (.pushUnderLock frames)).queue.capacityFrames = queue.capacityFrames := by
  induction frames using List.reverseRecOn with
  | nil => rfl
  | append_singleton rest last ih =>
    rw [after_pushUnderLock_concat]
    unfold QueueOutcome.pushOne
    split <;> exact ih

theorem Batched.next {payloads : List Payload} {mid : AsyncPort} {frames : List VpnFrame}
    (there : port.backends[target]? = some backend)
    (batched : Batched target backend payloads port mid frames) (payload : Payload) :
    ∃ more, Batched target backend (payloads ++ [payload]) port
      (AsyncPort.batchOne target mid payload) more := by
  have inside := (List.getElem?_eq_some_iff.mp there).1
  have locked := pushUnderLock_locked backend.queue frames
  have count := locked.count
  have same := serve_capacity backend.queue frames
  have found : mid.backends[target]? =
      some { backend with queue := backend.queue.after (.pushUnderLock frames) } := by
    rw [batched.backends, List.getElem?_set_self inside]
  have some : payloads ++ [payload] ≠ [] :=
    List.append_ne_nil_of_right_ne_nil _ (List.cons_ne_nil _ _)
  rw [batched.whole] at count
  unfold AsyncPort.batchOne
  simp only [found, OwnedBatchQueue.after, same, count]
  split
  · -- at the watermark: if nothing was taken yet, it was full from the start
    rename_i full
    refine ⟨frames, batched.backends, batched.whole, batched.counter, ?_, ?_⟩
    · rintro rfl
      exact Or.inr (Or.inl full)
    · rintro (none | early)
      · exact absurd none some
      · exact batched.takes.mpr (Or.inr early)
  · rename_i free
    split
    · rename_i last
      refine ⟨frames, batched.backends, batched.whole, batched.counter, ?_, ?_⟩
      · rintro rfl
        exact Or.inr (Or.inr (batched.counter.symm.trans last))
      · rintro (none | early)
        · exact absurd none some
        · exact batched.takes.mpr (Or.inr early)
    · rename_i room
      have pushed := after_pushUnderLock_concat backend.queue frames
        ⟨mid.txSeq + 1, payload.bytes, mid.round⟩
      rw [QueueOutcome.pushOne, count, same, if_neg free] at pushed
      refine ⟨frames ++ [⟨mid.txSeq + 1, payload.bytes, mid.round⟩], ?_, ?_, ?_, ?_, ?_⟩
      · simp only [AsyncPort.setQueue, batched.backends, List.set_set, OwnedBatchQueue.after, pushed]
      · rw [pushed]
        exact congrArg (· ++ [_]) batched.whole
      · rw [List.length_append, batched.counter]
        rfl
      · intro none
        exact absurd none (List.append_ne_nil_of_right_ne_nil _ (List.cons_ne_nil _ _))
      · rintro (none | full | last)
        · exact absurd none some
        · omega
        · -- an exhausted counter would have taken nothing so far, and stay exhausted
          have none := batched.takes.mpr (Or.inr (Or.inr last))
          rw [batched.counter, none] at room
          exact absurd last room

theorem batch_batched (there : port.backends[target]? = some backend) (payloads : List Payload) :
    ∃ frames, Batched target backend payloads port
      (payloads.foldl (AsyncPort.batchOne target) port) frames := by
  induction payloads using List.reverseRecOn with
  | nil =>
    refine ⟨[], ?_, rfl, rfl, iff_of_true rfl (Or.inl rfl)⟩
    obtain ⟨inside, at_target⟩ := List.getElem?_eq_some_iff.mp there
    change port.backends = port.backends.set target backend
    rw [← at_target, List.set_getElem_self]
  | append_singleton rest payload ih =>
    obtain ⟨frames, batched⟩ := ih
    rw [List.foldl_concat]
    exact batched.next there payload

end Batches

section Traffic

theorem setQueue_works {port : AsyncPort} {target : Nat} {backend : Backend}
    (there : port.backends[target]? = some backend) (op : QueueOp) :
    Works (· = op) port.backends (port.setQueue target backend (backend.queue.after op)).backends :=
  Works.set there (Worked.one op rfl)

theorem spread_works (targets : List Nat) (port : AsyncPort) (frames : List VpnFrame) :
    Works QueueOp.stores port.backends (port.spread frames targets).backends := by
  induction targets generalizing port frames with
  | nil => exact Works.refl _
  | cons target rest ih =>
    unfold AsyncPort.spread
    split
    · exact Works.refl _
    · rename_i backend there
      have pushed := (setQueue_works there (.tryPushBatch frames)).mono QueueOp.stores (by
        rintro _ rfl
        trivial)
      dsimp only
      split
      · exact pushed
      · exact pushed.trans (ih _ _)

theorem numberOne_backends (payloads : List Payload) (state : AsyncPort × List VpnFrame) :
    (payloads.foldl AsyncPort.numberOne state).1.backends = state.1.backends := by
  induction payloads generalizing state with
  | nil => rfl
  | cons payload rest ih =>
    rw [List.foldl_cons, ih]
    unfold AsyncPort.numberOne
    split <;> rfl

theorem resetEpoch_works (port : AsyncPort) (k : Nat) (ic : Option InnerCipher) :
    Works QueueOp.stores port.backends (port.resetEpoch k ic).backends := by
  refine Works.map _ ?_
  intro backend
  split <;> rfl

theorem traffic_works {port next : AsyncPort} {label : Traffic}
    (other : ∀ target payloads, label ≠ .batch target payloads)
    (taken : port.traffic label = some next) :
    Works QueueOp.stores port.backends next.backends := by
  cases label with
  | write label =>
    have stepped : port.step label = some next := by
      cases label with
      | register capacityFrames maxBatchFrames => cases taken
      | _ => exact taken
    exact (step_works stepped).mono _ QueueOp.stores_of_isPush
  | connect setting =>
    have stepped : port.step (.register 1024 (txBatchSize setting)) = some next := taken
    exact (step_works stepped).mono _ QueueOp.stores_of_isPush
  | reset k ic =>
    cases taken
    exact resetEpoch_works port k ic
  | batch target payloads => exact absurd rfl (other target payloads)
  | dispatch payloads targets =>
    simp only [AsyncPort.traffic] at taken
    split at taken
    · cases taken
      have spread := spread_works targets (payloads.foldl AsyncPort.numberOne (port, [])).1
        (payloads.foldl AsyncPort.numberOne (port, [])).2
      rw [numberOne_backends] at spread
      exact spread
    · cases taken
  | drain target budget =>
    simp only [AsyncPort.traffic] at taken
    split at taken
    · rename_i backend there
      split at taken
      · rename_i popped result
        cases taken
        have after : backend.queue.after (.tryPopFitting budget) = popped.2 := by
          simp only [OwnedBatchQueue.after, OwnedBatchQueue.serve, result]
        rw [← after]
        exact (setQueue_works there (.tryPopFitting budget)).mono _ (by
          rintro _ rfl
          trivial)
      · cases taken
    · cases taken

end Traffic

section Hints

variable {queue : OwnedBatchQueue} {port next : AsyncPort}

theorem Served.stored {op : QueueOp} {outcome : QueueOutcome} (served : Served queue op outcome)
    (stores : op.stores) (exact : queue.framesHint = queue.frames) :
    outcome.queue.framesHint = outcome.queue.frames := by
  cases served with
  | pushed frame after taken =>
    unfold OwnedBatchQueue.tryPush at taken
    split at taken
    · cases taken
    · cases taken
      rfl
  | refused frame full => exact exact
  | batch input => rfl
  | locked frames => cases stores
  | popped budget batch rest taken =>
    unfold OwnedBatchQueue.tryPopFitting at taken
    split at taken
    · cases taken
    · split at taken
      · cases taken
      · cases taken
        rfl
  | kept budget stuck => exact exact

theorem Worked.stored {worked : OwnedBatchQueue} (work : Worked QueueOp.stores queue worked)
    (exact : queue.framesHint = queue.frames) : worked.framesHint = worked.frames := by
  induction work with
  | refl => exact exact
  | tail _ step ih =>
    obtain ⟨op, stores, rfl⟩ := step
    exact (serve_served _ op).stored stores ih

def Exact (backends : List Backend) : Prop :=
  ∀ backend ∈ backends, backend.queue.framesHint = backend.queue.frames

theorem Works.exact {before after : List Backend} (works : Works QueueOp.stores before after)
    (exact : Exact before) : Exact after := by
  intro backend present
  obtain ⟨position, there⟩ := List.getElem?_of_mem present
  obtain ⟨source, origin, work⟩ := works position backend there
  refine work.stored ?_
  cases origin with
  | old old found => exact exact old (List.mem_of_getElem? found)
  | new capacityFrames maxBatchFrames => rfl

/-- A step of the port: one of a `write_payload` call in progress, a batch under
the lock of the only backend's queue, a dispatch, a reset, or a pop. -/
def AsyncPort.call (port : AsyncPort) : WriteLabel ⊕ Traffic → Option AsyncPort
  | .inl label => port.step label
  | .inr label =>
    match label with
    | .batch target payloads =>
      if target ∈ live port.backends then port.traffic (.batch target payloads) else none
    | _ => port.traffic label

def takesUnderLock (port : AsyncPort) : WriteLabel ⊕ Traffic → Prop
  | .inr (.batch target payloads) =>
    payloads ≠ [] ∧ port.txSeq ≠ u32Max ∧
      (port.backends[target]?.any fun backend =>
        decide (backend.queue.frames < backend.queue.capacityFrames - 2)) = true
  | _ => False

/-- Every hint is the length, so the check of `backend_score` and the scheduler's
own say the same of every backend. -/
structure HintsExact (port : AsyncPort) : Prop where
  lengths : Exact port.backends
  health : ∀ load, ∀ position < port.backends.length,
    healthyAt port.backends position = (reading port.backends load position).healthy

theorem healthy_of_hint {backend : Backend}
    (hint : backend.queue.framesHint = backend.queue.frames) :
    backend.healthy = (decide (backend.queue.capacityFrames > 2) &&
      decide (backend.queue.frames < backend.queue.capacityFrames - 2)) := by
  unfold Backend.healthy
  rw [hint, Bool.eq_iff_iff]
  simp only [Bool.not_eq_true', Bool.or_eq_false_iff, decide_eq_false_iff_not, Bool.and_eq_true,
    decide_eq_true_eq]
  omega

theorem Exact.hints (exact : Exact port.backends) : HintsExact port := by
  refine ⟨exact, fun load position inside => ?_⟩
  have hint := exact port.backends[position] (List.getElem_mem inside)
  simp only [healthyAt, reading, List.getElem?_eq_getElem inside, Option.any_some, Option.elim_some,
    Scheduler.Reading.healthy]
  exact healthy_of_hint hint

theorem batch_exact {target : Nat} {payloads : List Payload} (exact : Exact port.backends)
    (listed : target ∈ live port.backends)
    (taken : port.traffic (.batch target payloads) = some next) :
    Exact next.backends ↔ ¬ takesUnderLock port (.inr (.batch target payloads)) := by
  obtain ⟨backend, there, _⟩ := mem_live.mp listed
  have inside := (List.getElem?_eq_some_iff.mp there).1
  simp only [AsyncPort.traffic] at taken
  split at taken
  · cases taken
    obtain ⟨frames, batched⟩ := batch_batched there payloads
    have locked := pushUnderLock_locked backend.queue frames
    have before := exact backend (List.mem_of_getElem? there)
    have condition : takesUnderLock port (.inr (.batch target payloads)) ↔ frames ≠ [] := by
      rw [Ne, batched.takes]
      simp only [takesUnderLock, there, Option.any_some, decide_eq_true_eq, not_or, ge_iff_le,
        Nat.not_le]
      exact and_congr_right fun _ => and_comm
    rw [condition, not_not, batched.backends]
    constructor
    · intro after
      have hinted := after _ (List.mem_of_getElem? (List.getElem?_set_self inside))
      have count := locked.count
      rw [batched.whole] at count
      change (backend.queue.serve _).queue.framesHint = (backend.queue.serve _).queue.frames at hinted
      rw [locked.hint, count, before] at hinted
      exact List.length_eq_zero_iff.mp (by omega)
    · rintro rfl
      exact Holdings.forall_mem_set exact target _ before
  · cases taken

theorem call_exact {label : WriteLabel ⊕ Traffic} (exact : Exact port.backends)
    (taken : port.call label = some next) : Exact next.backends ↔ ¬ takesUnderLock port label := by
  cases label with
  | inl label =>
    have works := (step_works taken).mono _ QueueOp.stores_of_isPush
    exact iff_of_true (works.exact exact) id
  | inr label =>
    by_cases batch : ∃ target payloads, label = .batch target payloads
    · obtain ⟨target, payloads, rfl⟩ := batch
      simp only [AsyncPort.call] at taken
      split at taken
      · rename_i listed
        exact batch_exact exact listed taken
      · cases taken
    · have other : ∀ target payloads, label ≠ .batch target payloads :=
        fun target payloads same => batch ⟨target, payloads, same⟩
      have stepped : port.traffic label = some next ∧ ¬ takesUnderLock port (.inr label) := by
        cases label with
        | batch target payloads => exact absurd rfl (other target payloads)
        | _ => exact ⟨taken, id⟩
      exact iff_of_true ((traffic_works other stepped.1).exact exact) stepped.2

/-- Between steps the hint of every queue is its length, and both health checks
agree, just if no batch has taken a frame under a queue's lock. -/
theorem hints_exact_iff_no_batch_takes (start final : AsyncPort) (labels : List (WriteLabel ⊕ Traffic))
    (exact : Exact start.backends) (reached : Runs.run AsyncPort.call start labels = some final) :
    (Runs.Along AsyncPort.call (fun port _ => HintsExact port) start labels ∧ HintsExact final) ↔
      Runs.Along AsyncPort.call (fun port label => ¬ takesUnderLock port label) start labels := by
  refine Runs.throughout_iff_along AsyncPort.call HintsExact _ start final labels
    (Runs.along_of_all ?_ start labels) reached exact.hints
  intro port label next held taken
  exact Iff.trans ⟨HintsExact.lengths, Exact.hints⟩ (call_exact held.lengths taken)

def singleRun : List (WriteLabel ⊕ Traffic) :=
  [.inl (.register 1024 8), .inl (.enter samplePayload), .inl (.number 0), .inl (.encode 0),
    .inl (.attempt 0 0), .inl (.leave 0), .inr (.drain 0 15872),
    .inr (.dispatch [otherPayload] [0])]

theorem hints_exact_over_singleRun :
    ∃ final, Runs.run AsyncPort.call AsyncPort.new singleRun = some final ∧
      Runs.Along AsyncPort.call (fun port _ => HintsExact port) AsyncPort.new singleRun ∧
      HintsExact final := by
  refine ⟨_, rfl, ?_⟩
  refine (hints_exact_iff_no_batch_takes AsyncPort.new _ singleRun (List.forall_mem_nil _) rfl).mpr ?_
  exact ⟨id, id, id, id, id, id, id, id, trivial⟩

/-- A batch of one payload into an empty queue of 1024 frames: the queue holds a
frame that the hint does not show. -/
theorem batch_leaves_the_hint_behind :
    ∃ final, Runs.run AsyncPort.call AsyncPort.new
        [.inl (.register 1024 8), .inr (.batch 0 [samplePayload])] = some final ∧
      final.backends.map (fun backend => (backend.queue.framesHint, backend.queue.frames)) =
        [(0, 1)] :=
  ⟨_, rfl, rfl⟩

end Hints

end TlsVpn.Port

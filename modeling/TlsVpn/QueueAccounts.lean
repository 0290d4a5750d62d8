import TlsVpn.QueueFifo

/-!
The account `queued_bytes` that a backend's scheduler state keeps, over every
interleaving of sends, flushes and drains. A send adds before it pushes and takes
back what was refused: `try_send_payload_to` for one frame,
`write_payload_batch` turn by turn under the queue's lock, `dispatch_owned_batch`
for all that is left of its frames, of which another backend may take a part
first. The one TLS writer of the backend pops, on the server into a local total
that a successful write moves to `queued_payload_pending`, on the client straight
into that; a drain that leaves nothing to write reports it. `popped` and
`reported` count what happened; no code reads them.
-/

namespace TlsVpn.Port

open Words XorBytes Protocol Fec

section Model

inductive Side where
  | client
  | server
  deriving DecidableEq

inductive Sender where
  | added (frame : VpnFrame)
  | refused (bytes : Nat)
  | dispatching (frames : List VpnFrame) (remainingBytes : Nat)
  | offered (frames : List VpnFrame) (remainingBytes : Nat)
  | pushed (frames : List VpnFrame) (remainingBytes acceptedBytes : Nat)
  | finished
  deriving DecidableEq

/-- The loop that holds the queue's lock: a frame it added and has yet to push,
and the frames left. -/
structure LockHolder where
  added : Option VpnFrame
  rest : List VpnFrame
  deriving DecidableEq

inductive FlushPhase where
  | idle
  | pulling
  | closed
  deriving DecidableEq

structure BackendAccount where
  side : Side
  queue : OwnedBatchQueue
  queuedBytes : Nat
  senders : List Sender
  lock : Option LockHolder
  phase : FlushPhase
  pulledPayload : Nat
  queuedPayloadPending : Nat
  popped : Nat
  reported : Nat
  deriving DecidableEq

def BackendAccount.new (side : Side) (capacityFrames : Nat) (setting : Option Nat) :
    BackendAccount where
  side := side
  queue := OwnedBatchQueue.new capacityFrames (txBatchSize setting)
  queuedBytes := 0
  senders := []
  lock := none
  phase := .idle
  pulledPayload := 0
  queuedPayloadPending := 0
  popped := 0
  reported := 0

inductive AccountLabel where
  | send (frame : VpnFrame)
  | push (sender : Nat)
  | refund (sender : Nat)
  | lock (frames : List VpnFrame)
  | turn (numbered : Bool)
  | pushLocked
  | unlock
  | dispatch (frames : List VpnFrame)
  | offer (sender : Nat)
  | pushBatch (sender : Nat)
  | settle (sender : Nat)
  | elsewhere (sender count : Nat)
  | leave (sender : Nat)
  | flush
  | pop (wireBudget : Nat)
  | write (success : Bool)
  | drain (wantsWrite : Bool)
  deriving DecidableEq

/-- `complete_queued`: the subtraction saturates. -/
def completeQueued (queuedBytes bytes : Nat) : Nat := queuedBytes - bytes

def BackendAccount.setSender (account : BackendAccount) (index : Nat) (sender : Sender) :
    BackendAccount :=
  { account with senders := account.senders.set index sender }

def BackendAccount.step (account : BackendAccount) : AccountLabel → Option BackendAccount
  | .send frame =>
    some { account with
      queuedBytes := account.queuedBytes + frame.data.length
      senders := account.senders ++ [.added frame] }
  | .push index =>
    match account.senders[index]?, account.lock with
    | some (.added frame), none =>
      match account.queue.tryPush frame with
      | some queue => some { account.setSender index .finished with queue := queue }
      | none => some (account.setSender index (.refused frame.data.length))
    | _, _ => none
  | .refund index =>
    match account.senders[index]? with
    | some (.refused bytes) =>
      some { account.setSender index .finished with
        queuedBytes := completeQueued account.queuedBytes bytes }
    | _ => none
  | .lock frames =>
    match account.lock with
    | none => some { account with lock := some ⟨none, frames⟩ }
    | some _ => none
  | .turn numbered =>
    match account.lock with
    | some ⟨none, frame :: rest⟩ =>
      if frame.data = [] ∨ account.queue.frames ≥ account.queue.capacityFrames - 2 ∨
          numbered = false then
        some { account with lock := some ⟨none, rest⟩ }
      else
        some { account with
          queuedBytes := account.queuedBytes + frame.data.length
          lock := some ⟨some frame, rest⟩ }
    | _ => none
  | .pushLocked =>
    match account.lock with
    | some ⟨some frame, rest⟩ =>
      some { account with
        queue := account.queue.pushLocked frame
        lock := some ⟨none, rest⟩ }
    | _ => none
  | .unlock =>
    match account.lock with
    | some ⟨none, []⟩ => some { account with lock := none }
    | _ => none
  | .dispatch frames =>
    -- `seq_bytes`
    some { account with senders := account.senders ++ [.dispatching frames (payloadBytes frames)] }
  | .offer index =>
    match account.senders[index]? with
    | some (.dispatching frames remainingBytes) =>
      some { account.setSender index (.offered frames remainingBytes) with
        queuedBytes := account.queuedBytes + remainingBytes }
    | _ => none
  | .pushBatch index =>
    match account.senders[index]?, account.lock with
    | some (.offered frames remainingBytes), none =>
      let served := account.queue.serve (.tryPushBatch frames)
      some { account.setSender index
          (.pushed served.returned remainingBytes (payloadBytes served.accepted)) with
        queue := served.queue }
    | _, _ => none
  | .settle index =>
    match account.senders[index]? with
    | some (.pushed frames remainingBytes acceptedBytes) =>
      let settled := account.setSender index
        (.dispatching frames (remainingBytes - acceptedBytes))
      if acceptedBytes < remainingBytes then
        some { settled with
          queuedBytes := completeQueued account.queuedBytes (remainingBytes - acceptedBytes) }
      else some settled
    | _ => none
  | .elsewhere index count =>
    match account.senders[index]? with
    | some (.dispatching frames remainingBytes) =>
      some (account.setSender index (.dispatching (frames.drop count)
        (remainingBytes - payloadBytes (frames.take count))))
    | _ => none
  | .leave index =>
    match account.senders[index]? with
    | some (.dispatching _ _) => some (account.setSender index .finished)
    | _ => none
  | .flush =>
    if account.phase = .idle then some { account with phase := .pulling, pulledPayload := 0 }
    else none
  | .pop wireBudget =>
    if account.phase = .pulling ∧ account.lock = none then
      match account.queue.tryPopFitting wireBudget with
      | none => none
      | some (batch, rest) =>
        let after := { account with
          queue := rest
          popped := account.popped + payloadBytes batch.frames }
        match account.side with
        | .server => some { after with pulledPayload := account.pulledPayload + batch.bytes }
        | .client =>
          some { after with
            queuedPayloadPending := account.queuedPayloadPending + batch.bytes }
    else none
  | .write success =>
    if account.phase = .pulling then
      if success then
        match account.side with
        | .server =>
          some { account with
            phase := .idle
            queuedPayloadPending := account.queuedPayloadPending + account.pulledPayload
            pulledPayload := 0 }
        | .client => some { account with phase := .idle }
      else some { account with phase := .closed }
    else none
  | .drain wantsWrite =>
    if account.phase = .idle then
      if wantsWrite then some account
      else
        some { account with
          queuedBytes := completeQueued account.queuedBytes account.queuedPayloadPending
          reported := account.reported + account.queuedPayloadPending
          queuedPayloadPending := 0 }
    else none

def BackendAccount.completes (account : BackendAccount) : AccountLabel → Nat
  | .refund index =>
    match account.senders[index]? with
    | some (.refused bytes) => bytes
    | _ => 0
  | .settle index =>
    match account.senders[index]? with
    | some (.pushed _ remainingBytes acceptedBytes) => remainingBytes - acceptedBytes
    | _ => 0
  | .drain false => account.queuedPayloadPending
  | _ => 0

def BackendAccount.quiet (account : BackendAccount) : Bool :=
  account.senders.all (· == .finished) && account.lock.isNone && account.phase != .pulling

end Model

section Balance

def Sender.underWay : Sender → Nat
  | .added frame => frame.data.length
  | .refused bytes => bytes
  | .dispatching _ _ => 0
  | .offered _ remainingBytes => remainingBytes
  | .pushed _ remainingBytes acceptedBytes => remainingBytes - acceptedBytes
  | .finished => 0

def LockHolder.underWay (holder : LockHolder) : Nat :=
  holder.added.elim 0 fun frame => frame.data.length

def Sender.counted : Sender → Prop
  | .dispatching frames remainingBytes => remainingBytes = payloadBytes frames
  | .offered frames remainingBytes => remainingBytes = payloadBytes frames
  | .pushed frames remainingBytes acceptedBytes =>
    remainingBytes = acceptedBytes + payloadBytes frames
  | _ => True

/-- Every byte on the account is under way, in the queue, or popped and not yet
reported. -/
structure Balance (capacity limit : Nat) (account : BackendAccount) : Prop where
  represents : Represents capacity limit account.queue
  counted : ∀ sender ∈ account.senders, sender.counted
  room : ∀ holder, account.lock = some holder → holder.added ≠ none →
    account.queue.frames < capacity - 2
  equation : account.queuedBytes + account.reported =
    (account.senders.map Sender.underWay).sum + account.lock.elim 0 LockHolder.underWay +
      payloadBytes account.queue.all + account.popped
  taken : account.pulledPayload + account.queuedPayloadPending + account.reported ≤ account.popped

variable {capacity limit : Nat} {account next : BackendAccount}
variable {index : Nat} {sender : Sender} {queue : OwnedBatchQueue} {queuedBytes : Nat}

theorem Balance.new (side : Side) (capacityFrames : Nat) (setting : Option Nat) :
    Balance (max capacityFrames 1) (txBatchSize setting)
      (BackendAccount.new side capacityFrames setting) :=
  ⟨Represents.new _ _, List.forall_mem_nil _, by rintro _ ⟨⟩, rfl, Nat.le_refl _⟩

section

variable (balance : Balance capacity limit account)

include balance

theorem Balance.covers (found : account.senders[index]? = some sender) :
    sender.underWay ≤ account.queuedBytes := by
  have equation := balance.equation
  have taken := balance.taken
  have part : sender.underWay ≤ (account.senders.map Sender.underWay).sum :=
    List.single_le_sum (fun _ _ => Nat.zero_le _) _
      (List.mem_map_of_mem (List.mem_of_getElem? found))
  omega

theorem Balance.covers_pending : account.queuedPayloadPending ≤ account.queuedBytes := by
  have equation := balance.equation
  have taken := balance.taken
  omega

theorem Balance.exchange {old new : Sender} (found : account.senders[index]? = some old)
    (counted : new.counted) (represents : Represents capacity limit queue)
    (locked : account.lock = none ∨ queue = account.queue)
    (moved : queuedBytes + old.underWay + payloadBytes account.queue.all =
      account.queuedBytes + new.underWay + payloadBytes queue.all) :
    Balance capacity limit
      { account.setSender index new with queue := queue, queuedBytes := queuedBytes } := by
  refine ⟨represents, Holdings.forall_mem_set balance.counted index new counted, ?_, ?_, balance.taken⟩
  · intro holder held added
    rcases locked with free | rfl
    · exact absurd (free.symm.trans held) (Option.some_ne_none holder).symm
    · exact balance.room holder held added
  · have equation := balance.equation
    have trade := Holdings.weight_set Sender.underWay account.senders index old new found
    change queuedBytes + account.reported =
      ((account.senders.set index new).map Sender.underWay).sum +
        account.lock.elim 0 LockHolder.underWay + payloadBytes queue.all + account.popped
    omega

theorem Balance.enter (counted : sender.counted)
    (grown : queuedBytes = account.queuedBytes + sender.underWay) :
    Balance capacity limit
      { account with queuedBytes := queuedBytes, senders := account.senders ++ [sender] } := by
  refine ⟨balance.represents, ?_, balance.room, ?_, balance.taken⟩
  · exact List.forall_mem_append.mpr ⟨balance.counted, List.forall_mem_singleton.mpr counted⟩
  · have equation := balance.equation
    simp only [Holdings.weight_concat]
    omega

end

theorem Served.weighs {op : QueueOp} {outcome : QueueOutcome} (served : Served queue op outcome) :
    payloadBytes queue.all + payloadBytes outcome.accepted =
      payloadBytes (outcome.popped.elim [] VpnFrameBatch.frames) + payloadBytes outcome.queue.all := by
  rw [← payloadBytes_append, ← payloadBytes_append, served.moves]

end Balance

section Steps

variable {capacity limit : Nat} {account next : BackendAccount}

theorem Balance.push (positive : 0 < limit) (balance : Balance capacity limit account) (index : Nat)
    (taken : account.step (.push index) = some next) : Balance capacity limit next := by
  simp only [BackendAccount.step] at taken
  split at taken
  · rename_i frame found free
    split at taken
    · rename_i queue pushed
      cases taken
      refine balance.exchange found trivial (balance.represents.tryPush positive pushed)
        (Or.inl free) ?_
      have weighs := (Served.pushed frame queue pushed).weighs
      rw [payloadBytes_singleton] at weighs
      change account.queuedBytes + frame.data.length + payloadBytes account.queue.all =
        account.queuedBytes + 0 + payloadBytes queue.all
      change _ = 0 + payloadBytes queue.all at weighs
      omega
    · cases taken
      exact balance.exchange found trivial balance.represents (Or.inr rfl) rfl
  · cases taken

theorem Balance.refund (balance : Balance capacity limit account) (index : Nat)
    (taken : account.step (.refund index) = some next) : Balance capacity limit next := by
  simp only [BackendAccount.step] at taken
  split at taken
  · rename_i bytes found
    cases taken
    refine balance.exchange found trivial balance.represents (Or.inr rfl) ?_
    have covered : bytes ≤ account.queuedBytes := balance.covers found
    change account.queuedBytes - bytes + bytes + payloadBytes account.queue.all =
      account.queuedBytes + 0 + payloadBytes account.queue.all
    omega
  · cases taken

theorem Balance.turn (balance : Balance capacity limit account) (numbered : Bool)
    (taken : account.step (.turn numbered) = some next) : Balance capacity limit next := by
  have equation := balance.equation
  simp only [BackendAccount.step] at taken
  split at taken
  · rename_i frame rest held
    rw [held] at equation
    split at taken
    · cases taken
      refine ⟨balance.represents, balance.counted, ?_, equation, balance.taken⟩
      rintro _ ⟨⟩ added
      exact absurd rfl added
    · rename_i admitted
      cases taken
      refine ⟨balance.represents, balance.counted, ?_, ?_, balance.taken⟩
      · intro _ _ _
        rw [not_or, not_or, balance.represents.capacityFrames] at admitted
        exact Nat.not_le.mp admitted.2.1
      · change account.queuedBytes + frame.data.length + account.reported =
          _ + frame.data.length + _ + _
        dsimp only
        change account.queuedBytes + account.reported = _ + 0 + _ + _ at equation
        omega
  · cases taken

theorem Balance.pushLocked (positive : 0 < limit) (balance : Balance capacity limit account)
    (taken : account.step .pushLocked = some next) : Balance capacity limit next := by
  have equation := balance.equation
  simp only [BackendAccount.step] at taken
  split at taken
  · rename_i frame rest held
    rw [held] at equation
    cases taken
    have room := balance.room _ held (Option.some_ne_none frame)
    refine ⟨balance.represents.pushLocked positive frame (by omega), balance.counted, ?_, ?_,
      balance.taken⟩
    · rintro _ ⟨⟩ added
      exact absurd rfl added
    · change account.queuedBytes + account.reported =
        _ + 0 + payloadBytes (account.queue.pushLocked frame).all + _
      change account.queuedBytes + account.reported = _ + frame.data.length + _ + _ at equation
      rw [pushLocked_all, payloadBytes_append, payloadBytes_singleton]
      dsimp only
      omega
  · cases taken

theorem Balance.relock (balance : Balance capacity limit account) {lock : Option LockHolder}
    (bare : ∀ holder, lock = some holder → holder.added = none)
    (before : account.lock.elim 0 LockHolder.underWay = 0) :
    Balance capacity limit { account with lock := lock } := by
  refine ⟨balance.represents, balance.counted, ?_, ?_, balance.taken⟩
  · intro holder held added
    exact absurd (bare holder held) added
  · have equation := balance.equation
    have none : lock.elim 0 LockHolder.underWay = 0 := by
      cases lock with
      | none => rfl
      | some holder =>
        change holder.underWay = 0
        unfold LockHolder.underWay
        rw [bare holder rfl]
        rfl
    simp only [none]
    omega

theorem Balance.offer (balance : Balance capacity limit account) (index : Nat)
    (taken : account.step (.offer index) = some next) : Balance capacity limit next := by
  simp only [BackendAccount.step] at taken
  split at taken
  · rename_i frames remainingBytes found
    cases taken
    have counted : remainingBytes = payloadBytes frames :=
      balance.counted _ (List.mem_of_getElem? found)
    exact balance.exchange found counted balance.represents (Or.inr rfl) rfl
  · cases taken

theorem Balance.pushBatch (positive : 0 < limit) (balance : Balance capacity limit account)
    (index : Nat) (taken : account.step (.pushBatch index) = some next) :
    Balance capacity limit next := by
  simp only [BackendAccount.step] at taken
  split at taken
  · rename_i frames remainingBytes found free
    cases taken
    have served := serve_served account.queue (.tryPushBatch frames)
    have weighs := served.weighs
    have whole : (account.queue.serve (.tryPushBatch frames)).accepted ++
        (account.queue.serve (.tryPushBatch frames)).returned = frames := served.honest.1
    have counted : remainingBytes = payloadBytes frames :=
      balance.counted _ (List.mem_of_getElem? found)
    rw [← whole, payloadBytes_append] at counted
    refine balance.exchange found counted (balance.represents.served positive served)
      (Or.inl free) ?_
    change payloadBytes account.queue.all + _ = 0 + _ at weighs
    change account.queuedBytes + remainingBytes + payloadBytes account.queue.all =
      account.queuedBytes + (remainingBytes - _) + _
    omega
  · cases taken

section

variable (balance : Balance capacity limit account)

include balance

theorem Balance.settle (index : Nat) (taken : account.step (.settle index) = some next) :
    Balance capacity limit next := by
  simp only [BackendAccount.step] at taken
  split at taken
  · rename_i frames remainingBytes acceptedBytes found
    have counted : remainingBytes = acceptedBytes + payloadBytes frames :=
      balance.counted _ (List.mem_of_getElem? found)
    have left : Sender.counted (.dispatching frames (remainingBytes - acceptedBytes)) := by
      change _ = payloadBytes frames
      omega
    have covered : remainingBytes - acceptedBytes ≤ account.queuedBytes := balance.covers found
    split at taken
    · cases taken
      refine balance.exchange found left balance.represents (Or.inr rfl) ?_
      change account.queuedBytes - (remainingBytes - acceptedBytes) +
        (remainingBytes - acceptedBytes) + payloadBytes account.queue.all =
          account.queuedBytes + 0 + payloadBytes account.queue.all
      omega
    · cases taken
      refine balance.exchange found left balance.represents (Or.inr rfl) ?_
      change account.queuedBytes + (remainingBytes - acceptedBytes) +
        payloadBytes account.queue.all = account.queuedBytes + 0 + payloadBytes account.queue.all
      omega
  · cases taken

theorem Balance.elsewhere (index count : Nat)
    (taken : account.step (.elsewhere index count) = some next) : Balance capacity limit next := by
  simp only [BackendAccount.step] at taken
  split at taken
  · rename_i frames remainingBytes found
    cases taken
    have counted : remainingBytes = payloadBytes frames :=
      balance.counted _ (List.mem_of_getElem? found)
    have left : Sender.counted (.dispatching (frames.drop count)
        (remainingBytes - payloadBytes (frames.take count))) := by
      change _ = payloadBytes (frames.drop count)
      have parts := payloadBytes_append (frames.take count) (frames.drop count)
      rw [List.take_append_drop] at parts
      omega
    exact balance.exchange found left balance.represents (Or.inr rfl) rfl
  · cases taken

theorem Balance.pop (wireBudget : Nat) (taken : account.step (.pop wireBudget) = some next) :
    Balance capacity limit next := by
  simp only [BackendAccount.step] at taken
  split at taken
  · rename_i ready
    split at taken
    · cases taken
    · rename_i batch rest popped
      obtain ⟨represents, present⟩ := balance.represents.pop popped
      have bytes := (balance.represents.packed batch present).bytes
      have weighs := (Served.popped wireBudget batch rest popped).weighs
      have equation := balance.equation
      have held := balance.taken
      change payloadBytes account.queue.all + 0 = payloadBytes batch.frames + payloadBytes rest.all
        at weighs
      -- the lock is free, so nobody is about to push under it
      have unlocked : ∀ holder, account.lock = some holder → holder.added ≠ none →
          rest.frames < capacity - 2 := by
        intro holder locked
        rw [ready.2] at locked
        cases locked
      split at taken <;> cases taken <;>
        refine ⟨represents, balance.counted, unlocked, ?_, ?_⟩ <;> dsimp only <;> omega
  · cases taken

theorem Balance.write (success : Bool) (taken : account.step (.write success) = some next) :
    Balance capacity limit next := by
  have held := balance.taken
  simp only [BackendAccount.step] at taken
  split at taken
  · split at taken
    · split at taken <;> cases taken <;>
        refine ⟨balance.represents, balance.counted, balance.room, balance.equation, ?_⟩ <;>
        dsimp only <;> omega
    · cases taken
      exact ⟨balance.represents, balance.counted, balance.room, balance.equation, held⟩
  · cases taken

theorem Balance.drain (wantsWrite : Bool) (taken : account.step (.drain wantsWrite) = some next) :
    Balance capacity limit next := by
  have equation := balance.equation
  have held := balance.taken
  have covered := balance.covers_pending
  simp only [BackendAccount.step] at taken
  split at taken
  · split at taken
    · cases taken
      exact balance
    · cases taken
      refine ⟨balance.represents, balance.counted, balance.room, ?_, ?_⟩
      · dsimp only [completeQueued]
        omega
      · dsimp only
        omega
  · cases taken

end

theorem Balance.step (positive : 0 < limit) (balance : Balance capacity limit account)
    (label : AccountLabel) (taken : account.step label = some next) :
    Balance capacity limit next := by
  cases label with
  | send frame =>
    cases taken
    exact balance.enter trivial rfl
  | push index => exact balance.push positive index taken
  | refund index => exact balance.refund index taken
  | lock frames =>
    simp only [BackendAccount.step] at taken
    split at taken
    · rename_i free
      cases taken
      refine balance.relock ?_ (by rw [free]; rfl)
      rintro _ ⟨⟩
      rfl
    · cases taken
  | turn numbered => exact balance.turn numbered taken
  | pushLocked => exact balance.pushLocked positive taken
  | unlock =>
    simp only [BackendAccount.step] at taken
    split at taken
    · rename_i held
      cases taken
      exact balance.relock (by rintro _ ⟨⟩) (by rw [held]; rfl)
    · cases taken
  | dispatch frames =>
    cases taken
    exact balance.enter rfl rfl
  | offer index => exact balance.offer index taken
  | pushBatch index => exact balance.pushBatch positive index taken
  | settle index => exact balance.settle index taken
  | elsewhere index count => exact balance.elsewhere index count taken
  | leave index =>
    simp only [BackendAccount.step] at taken
    split at taken
    · rename_i found
      cases taken
      exact balance.exchange found trivial balance.represents (Or.inr rfl) rfl
    · cases taken
  | flush =>
    have held := balance.taken
    simp only [BackendAccount.step] at taken
    split at taken
    · cases taken
      refine ⟨balance.represents, balance.counted, balance.room, balance.equation, ?_⟩
      dsimp only
      omega
    · cases taken
  | pop wireBudget => exact balance.pop wireBudget taken
  | write success => exact balance.write success taken
  | drain wantsWrite => exact balance.drain wantsWrite taken

theorem Balance.completes_le (balance : Balance capacity limit account) (label : AccountLabel) :
    account.completes label ≤ account.queuedBytes := by
  unfold BackendAccount.completes
  split
  · split
    · rename_i found
      exact balance.covers found
    · exact Nat.zero_le _
  · split
    · rename_i found
      exact balance.covers found
    · exact Nat.zero_le _
  · exact balance.covers_pending
  · exact Nat.zero_le _

theorem Balance.at_rest (balance : Balance capacity limit account) (quiet : account.quiet = true) :
    account.reported ≤ account.popped ∧
      account.queuedBytes =
        payloadBytes account.queue.all + (account.popped - account.reported) := by
  have equation := balance.equation
  have held := balance.taken
  simp only [BackendAccount.quiet, Bool.and_eq_true, List.all_eq_true, beq_iff_eq,
    Option.isNone_iff_eq_none] at quiet
  have idle : (account.senders.map Sender.underWay).sum = 0 := by
    refine List.sum_eq_zero fun weight listed => ?_
    obtain ⟨sender, present, rfl⟩ := List.mem_map.mp listed
    rw [quiet.1.1 sender present]
    rfl
  rw [idle, quiet.1.2] at equation
  change _ = 0 + 0 + _ + _ at equation
  omega

/-- The account over every run of one backend, on either side: no subtraction is
cut short, and between operations it is exact. -/
theorem queued_bytes_balanced (side : Side) (capacityFrames : Nat) (setting : Option Nat)
    (labels : List AccountLabel) (final : BackendAccount)
    (reached : Runs.run BackendAccount.step (BackendAccount.new side capacityFrames setting) labels =
      some final) :
    Runs.Along BackendAccount.step
        (fun account label => account.completes label ≤ account.queuedBytes)
        (BackendAccount.new side capacityFrames setting) labels ∧
      (final.quiet = true →
        final.reported ≤ final.popped ∧
          final.queuedBytes = payloadBytes final.queue.all + (final.popped - final.reported)) := by
  have positive := txBatchSize_pos setting
  have initially := Balance.new side capacityFrames setting
  constructor
  · exact Runs.along_of_invariant BackendAccount.step (fun _ _ => True) _ _
      (fun _ label _ _ balance taken => balance.step positive label taken)
      (fun _ label _ balance => balance.completes_le label) _ labels
      (Runs.along_of_labels _ labels _ fun _ _ => trivial) initially
  · exact (Runs.invariant_run BackendAccount.step _
      (fun _ label _ balance taken => balance.step positive label taken)
      _ final labels reached initially).at_rest

def sampleFrame (seq : Nat) : VpnFrame := ⟨seq, [7, 8, 9], 0⟩

def sampleSends : List AccountLabel :=
  [.send (sampleFrame 1), .push 0, .lock [sampleFrame 2], .turn true, .pushLocked, .unlock,
    .dispatch [sampleFrame 3, sampleFrame 4, sampleFrame 5, sampleFrame 6], .offer 1, .pushBatch 1,
    .settle 1, .leave 1, .flush, .pop 15872, .write true, .drain true, .send (sampleFrame 7), .push 2]

theorem queued_bytes_balanced_sampleSends :
    ∃ final, Runs.run BackendAccount.step (BackendAccount.new .server 4 none) sampleSends =
        some final ∧
      final.quiet = true ∧ final.queuedBytes = 15 ∧
      final.queuedBytes = payloadBytes final.queue.all + (final.popped - final.reported) := by
  have runs : (Runs.run BackendAccount.step (BackendAccount.new .server 4 none) sampleSends).any
      (fun final => final.quiet && final.queuedBytes == 15) = true := by decide +kernel
  obtain ⟨final, reached, rests⟩ := Option.any_eq_true _ _ |>.mp runs
  obtain ⟨quiet, bytes⟩ := (Bool.and_eq_true _ _).mp rests
  exact ⟨final, reached, quiet, beq_iff_eq.mp bytes,
    ((queued_bytes_balanced .server 4 none sampleSends final reached).2 quiet).2⟩

end Steps

end TlsVpn.Port

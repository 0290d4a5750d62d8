import TlsVpn.Port

/-!
Where a sequence number of the port is. A number taken in a round belongs to
one call, then to one queued frame, and whoever drains the queue uses it up. The
ledger says that no number is in two places, and that none is ahead of the
counter.
-/

namespace TlsVpn.Port

open Words XorBytes Protocol Fec Holdings

def frameKey (round seq : Nat) : List (Nat × Nat) := if seq = 0 then [] else [(round, seq)]

def VpnFrame.keys (frame : VpnFrame) : List (Nat × Nat) := frameKey frame.round frame.seq

def Writer.keys : Writer → List (Nat × Nat)
  | .numbered seq round _ => frameKey round seq
  | .encoded seq round _ _ _ => frameKey round seq
  | _ => []

def Backend.keys (backend : Backend) : List (Nat × Nat) := held VpnFrame.keys backend.queue.all

def AsyncPort.keys (port : AsyncPort) : List (Nat × Nat) :=
  held Writer.keys port.writers ++ held Backend.keys port.backends

section Backends

variable (backend : Backend) (frame : VpnFrame)

theorem tryPush_keys (pushed : Backend) (frame : VpnFrame)
    (result : backend.tryPush frame = some pushed) : pushed.keys = backend.keys ++ frame.keys := by
  obtain ⟨queue, taken, rfl⟩ := Option.map_eq_some_iff.mp result
  unfold Backend.keys
  rw [tryPush_all backend.queue queue frame taken, held_append, held_singleton]

theorem trySendFenced_keys (control : Option FecModeControl) :
    (backend.trySendFenced frame control).1.keys =
      backend.keys ++ if (backend.trySendFenced frame control).2 then frame.keys else [] := by
  have plain : ∀ target : Backend, (target.trySendFenced frame none).1.keys =
      target.keys ++ if (target.trySendFenced frame none).2 then frame.keys else [] := by
    intro target
    cases pushed : target.tryPush frame with
    | none =>
      simp only [Backend.trySendFenced, pushed]
      exact (List.append_nil _).symm
    | some taken =>
      simp only [Backend.trySendFenced, pushed]
      exact tryPush_keys target taken frame pushed
  cases control with
  | none => exact plain backend
  | some mode =>
    by_cases stale : backend.fecFenceGen < mode.generation
    · cases pushed : backend.tryPush ⟨0, mode.encode, frame.round⟩ with
      | none =>
        simp only [Backend.trySendFenced, if_pos stale, pushed]
        exact (List.append_nil _).symm
      | some fenced =>
        have fence : fenced.keys = backend.keys := by
          rw [tryPush_keys backend fenced _ pushed]
          exact List.append_nil _
        have sent := plain { fenced with fecFenceGen := mode.generation }
        simp only [Backend.trySendFenced, if_pos stale, pushed] at sent ⊢
        rw [← fence]
        exact sent
    · have sent := plain backend
      simp only [Backend.trySendFenced, if_neg stale] at sent ⊢
      exact sent

end Backends

section Steps

variable {port next : AsyncPort} {label : WriteLabel}
variable (index target : Nat) (backend : Backend) (payload : Payload) (round : Nat)

theorem number_keys (found : port.writers[index]? = some (.entered payload)) :
    (held Writer.keys
      (port.writers.set index (.numbered (port.txSeq + 1) port.round payload))).Perm
      ((port.round, port.txSeq + 1) :: held Writer.keys port.writers) :=
  held_set Writer.keys port.writers index _ (.numbered (port.txSeq + 1) port.round payload) found

theorem attempt_keys (seq round : Nat) (payload : Payload) (parity : Option Bytes)
    (control : Option FecModeControl)
    (found : port.writers[index]? = some (.encoded seq round payload parity control))
    (there : port.backends[target]? = some backend) :
    (port.attempt index target backend seq round payload parity control).keys.Perm port.keys := by
  have sent := trySendFenced_keys backend ⟨seq, payload.bytes, round⟩ control
  have moved := held_set Backend.keys port.backends target backend
    (backend.trySendFenced ⟨seq, payload.bytes, round⟩ control).1 there
  rw [sent, List.append_assoc, List.perm_append_left_iff] at moved
  unfold AsyncPort.attempt
  generalize backend.trySendFenced ⟨seq, payload.bytes, round⟩ control = result at sent moved
  cases taken : result.2 with
  | false =>
    simp only [taken, Bool.false_eq_true, ↓reduceIte, List.nil_append] at moved ⊢
    exact moved.append_left _
  | true =>
    simp only [taken, ↓reduceIte] at moved ⊢
    -- the key leaves the call and joins the queue
    have left := held_set Writer.keys port.writers index _ (.delivered round parity) found
    calc held Writer.keys (port.writers.set index (.delivered round parity)) ++
          held Backend.keys (port.backends.set target result.1)
        _ |>.Perm (held Writer.keys (port.writers.set index (.delivered round parity)) ++
            (frameKey round seq ++ held Backend.keys port.backends)) := moved.append_left _
        _ |>.Perm (frameKey round seq ++ held Writer.keys
            (port.writers.set index (.delivered round parity)) ++
              held Backend.keys port.backends) := by
          rw [← List.append_assoc]
          exact List.perm_append_comm.append_right _
        _ |>.Perm (held Writer.keys port.writers ++ held Backend.keys port.backends) :=
          left.append_right _

theorem sendParity_keys (record : Bytes) (there : port.backends[target]? = some backend) :
    (held Backend.keys (port.sendParity target backend round record).backends).Perm
      (held Backend.keys port.backends) := by
  unfold AsyncPort.sendParity
  split
  · rename_i taken pushed
    refine held_set_same Backend.keys port.backends target backend taken there ?_
    rw [tryPush_keys backend taken _ pushed]
    exact List.append_nil _
  · exact List.Perm.refl _

/-- What a step does to the numbers in flight: it takes the next one, or it
takes none and may lose some. -/
inductive Moves (port next : AsyncPort) : Prop where
  | takes (keys : next.keys.Perm ((port.round, port.txSeq + 1) :: port.keys))
      (counter : next.txSeq = port.txSeq + 1)
  | keeps (keys : next.keys.Subperm port.keys) (counter : next.txSeq = port.txSeq)

theorem writer_lost (old new : Writer) (found : port.writers[index]? = some old)
    (empty : new.keys = []) (kept : List (Nat × Nat)) :
    (held Writer.keys (port.writers.set index new) ++ kept).Subperm
      (held Writer.keys port.writers ++ kept) := by
  have exchange := held_set Writer.keys port.writers index old new found
  rw [empty, List.nil_append] at exchange
  apply (List.subperm_append_right kept).mpr
  exact (List.sublist_append_right _ _).subperm.trans exchange.subperm

section

variable (written : Written port label next)

include written

theorem step_moves : Moves port next ∧ next.round = port.round := by
  cases written with
  | refused payload => exact ⟨.keeps (List.Subperm.refl _) rfl, rfl⟩
  | entered payload =>
    refine ⟨.keeps (List.Perm.subperm ?_) rfl, rfl⟩
    refine List.Perm.append_right _ (List.Perm.of_eq ?_)
    rw [held_append, held_singleton]
    exact List.append_nil _
  | exhausted index payload found last =>
    exact ⟨.keeps (writer_lost index _ .finished found rfl _) rfl, rfl⟩
  | numbered index payload found room =>
    exact ⟨.takes ((number_keys index payload found).append_right _) rfl, rfl⟩
  | encoded index seq round payload found =>
    obtain ⟨counter, turn, _, backends⟩ := encode_fixed port index seq round payload
    obtain ⟨parity, control, writers⟩ := encode_writers port index seq round payload
    refine ⟨.keeps (List.Perm.subperm ?_) counter, turn⟩
    unfold AsyncPort.keys
    rw [writers, backends]
    exact (held_set_same Writer.keys port.writers index _
      (.encoded seq round payload parity control) found rfl).append_right _
  | attempted index target backend seq round payload parity control found there registered =>
    refine ⟨.keeps (attempt_keys index target backend seq round payload parity control found
      there).subperm ?_, ?_⟩ <;> unfold AsyncPort.attempt <;> dsimp only <;> split <;> rfl
  | gaveUp index seq round payload parity control found =>
    exact ⟨.keeps (writer_lost index _ (.delivered round parity) found rfl _) rfl, rfl⟩
  | parity index target backend round record found there registered =>
    have kept := sendParity_keys target backend round record there
    have dropped := writer_lost index _ .finished found rfl
      (held Backend.keys (port.sendParity target backend round record).backends)
    have same : (port.sendParity target backend round record).writers = port.writers ∧
        (port.sendParity target backend round record).txSeq = port.txSeq ∧
        (port.sendParity target backend round record).round = port.round := by
      unfold AsyncPort.sendParity
      split <;> exact ⟨rfl, rfl, rfl⟩
    refine ⟨.keeps ?_ same.2.1, same.2.2⟩
    unfold AsyncPort.keys AsyncPort.setWriter
    rw [same.1]
    exact dropped.trans (kept.append_left _).subperm
  | left index round parity found =>
    exact ⟨.keeps (writer_lost index _ .finished found rfl _) rfl, rfl⟩
  | registered capacityFrames maxBatchFrames quiet =>
    refine ⟨.keeps (List.Perm.subperm (List.Perm.append_left _ (List.Perm.of_eq ?_))) rfl, rfl⟩
    rw [held_append, held_singleton]
    exact List.append_nil _
  | unregistered target backend there quiet =>
    exact ⟨.keeps ((held_set_same Backend.keys port.backends target backend
      { backend with registered := false } there rfl).append_left _).subperm rfl, rfl⟩

theorem step_backend_keys (target : Nat) (after : Backend)
    (there : next.backends[target]? = some after) :
    after.keys = [] ∨ ∃ before, port.backends[target]? = some before ∧
      ∀ key ∈ after.keys, key ∈ before.keys ∨ key ∈ held Writer.keys port.writers := by
  have unchanged : port.backends[target]? = some after → after.keys = [] ∨
      ∃ before, port.backends[target]? = some before ∧
        ∀ key ∈ after.keys, key ∈ before.keys ∨ key ∈ held Writer.keys port.writers :=
    fun same => Or.inr ⟨after, same, fun _ present => Or.inl present⟩
  have replaced : ∀ position old new, port.backends[position]? = some old →
      (∀ key ∈ new.keys, key ∈ old.keys ∨ key ∈ held Writer.keys port.writers) →
      (port.backends.set position new)[target]? = some after → after.keys = [] ∨
        ∃ before, port.backends[target]? = some before ∧
          ∀ key ∈ after.keys, key ∈ before.keys ∨ key ∈ held Writer.keys port.writers := by
    intro position old new found source present
    rcases lookup_set present with ⟨rfl, rfl⟩ | ⟨_, same⟩
    · exact Or.inr ⟨old, found, source⟩
    · exact unchanged same
  cases written with
  | refused payload => exact unchanged there
  | entered payload => exact unchanged there
  | exhausted index payload found last => exact unchanged there
  | numbered index payload found room => exact unchanged there
  | encoded index seq round payload found =>
    rw [(encode_fixed port index seq round payload).2.2.2] at there
    exact unchanged there
  | attempted index position backend seq round payload parity control found here registered =>
    have sent := trySendFenced_keys backend ⟨seq, payload.bytes, round⟩ control
    have mine : ∀ key ∈ frameKey round seq, key ∈ held Writer.keys port.writers :=
      fun key owns => List.mem_flatMap.mpr ⟨_, List.mem_of_getElem? found, owns⟩
    have same : (port.attempt index position backend seq round payload parity control).backends =
        port.backends.set position
          (backend.trySendFenced ⟨seq, payload.bytes, round⟩ control).1 := by
      unfold AsyncPort.attempt
      dsimp only
      split <;> rfl
    rw [same] at there
    refine replaced position backend _ here ?_ there
    intro key present
    rw [sent] at present
    rcases List.mem_append.mp present with old | new
    · exact Or.inl old
    · split at new
      · exact Or.inr (mine key new)
      · cases new
  | gaveUp index seq round payload parity control found => exact unchanged there
  | parity index position backend round record found here registered =>
    simp only [AsyncPort.setWriter, AsyncPort.sendParity] at there
    split at there
    · rename_i taken pushed
      refine replaced position backend taken here ?_ there
      intro key present
      rw [tryPush_keys backend taken _ pushed] at present
      exact Or.inl (by simpa [VpnFrame.keys, frameKey] using present)
    · exact unchanged there
  | left index round parity found => exact unchanged there
  | registered capacityFrames maxBatchFrames quiet =>
    simp only [List.getElem?_append] at there
    split at there
    · exact unchanged there
    · left
      have fresh := List.mem_singleton.mp (List.mem_of_getElem? there)
      rw [fresh]
      rfl
  | unregistered position backend here quiet =>
    exact replaced position backend { backend with registered := false } here
      (fun _ present => Or.inl present) there

theorem step_writer_keys (key : Nat × Nat) (owned : key ∈ held Writer.keys next.writers) :
    key ∈ held Writer.keys port.writers ∨ key.1 = port.round := by
  have moved : ∀ index new, (∀ token ∈ Writer.keys new,
      token ∈ held Writer.keys port.writers ∨ token.1 = port.round) →
      key ∈ held Writer.keys (port.writers.set index new) →
      key ∈ held Writer.keys port.writers ∨ key.1 = port.round := by
    intro index new source present
    rcases mem_held_set Writer.keys port.writers index new key present with fresh | kept
    · exact source key fresh
    · exact Or.inl kept
  cases written with
  | refused payload => exact Or.inl owned
  | entered payload =>
    rw [held_append, held_singleton, Writer.keys.eq_def, List.append_nil] at owned
    exact Or.inl owned
  | exhausted index payload found last => exact moved index .finished (by nofun) owned
  | numbered index payload found room =>
    refine moved index _ ?_ owned
    intro token present
    rw [List.mem_singleton.mp present]
    exact Or.inr rfl
  | encoded index seq round payload found =>
    obtain ⟨parity, control, writers⟩ := encode_writers port index seq round payload
    rw [writers] at owned
    refine moved index _ ?_ owned
    exact fun token present =>
      Or.inl (List.mem_flatMap.mpr ⟨_, List.mem_of_getElem? found, present⟩)
  | attempted index position backend seq round payload parity control found here registered =>
    simp only [AsyncPort.attempt] at owned
    split at owned
    · exact moved index (.delivered round parity) (by nofun) owned
    · exact Or.inl owned
  | gaveUp index seq round payload parity control found =>
    exact moved index (.delivered round parity) (by nofun) owned
  | parity index position backend round record found here registered =>
    have same : (port.sendParity position backend round record).writers = port.writers := by
      unfold AsyncPort.sendParity
      split <;> rfl
    unfold AsyncPort.setWriter at owned
    rw [same] at owned
    exact moved index .finished (by nofun) owned
  | left index round parity found => exact moved index .finished (by nofun) owned
  | registered capacityFrames maxBatchFrames quiet => exact Or.inl owned
  | unregistered position backend here quiet => exact Or.inl owned

end

theorem quiet_keys (quiet : port.quiet = true) : held Writer.keys port.writers = [] := by
  refine List.flatMap_eq_nil_iff.mpr ?_
  intro writer present
  have idle := List.all_eq_true.mp quiet writer present
  cases writer with
  | finished => rfl
  | _ => cases idle

end Steps

section Ledger

structure Ledger (port : AsyncPort) (used : List (Nat × Nat)) : Prop where
  unique : (port.keys ++ used).Nodup
  behind : ∀ key ∈ port.keys ++ used,
    key.1 < port.round ∨ key.1 = port.round ∧ key.2 ≤ port.txSeq

variable {port next : AsyncPort} {used : List (Nat × Nat)}

theorem Ledger.blank (writers : port.writers = []) (backends : port.backends = []) :
    Ledger port [] := by
  have none : port.keys = [] := by
    unfold AsyncPort.keys
    rw [writers, backends]
    rfl
  refine ⟨?_, ?_⟩
  · rw [none]
    exact List.nodup_nil
  · intro key present
    rw [none] at present
    cases present

theorem Ledger.fewer {drained : List (Nat × Nat)} (ledger : Ledger port used)
    (keys : (next.keys ++ drained).Subperm (port.keys ++ used))
    (ahead : port.round < next.round ∨ port.round = next.round ∧ port.txSeq ≤ next.txSeq) :
    Ledger next drained := by
  refine ⟨?_, ?_⟩
  · obtain ⟨part, same, sub⟩ := keys
    exact same.nodup_iff.mp (ledger.unique.sublist sub)
  · intro key present
    rcases ledger.behind key (keys.subset present) with early | ⟨current, bounded⟩
    · rcases ahead with later | same <;> left <;> omega
    · rcases ahead with later | same
      · left
        omega
      · right
        omega

theorem Ledger.step {label : WriteLabel} (ledger : Ledger port used)
    (taken : port.step label = some next) : Ledger next used := by
  obtain ⟨moves, round⟩ := step_moves (step_written port next label taken)
  cases moves with
  | keeps keys counter =>
    exact ledger.fewer ((List.subperm_append_right used).mpr keys) (Or.inr ⟨round.symm, counter.ge⟩)
  | takes keys counter =>
    have whole : (next.keys ++ used).Perm
        ((port.round, port.txSeq + 1) :: (port.keys ++ used)) := keys.append_right used
    refine ⟨whole.nodup_iff.mpr (List.nodup_cons.mpr ⟨?_, ledger.unique⟩), ?_⟩
    · intro present
      rcases ledger.behind _ present with early | current <;> simp only at * <;> omega
    · intro key present
      rcases List.mem_cons.mp (whole.subset present) with rfl | old
      · exact Or.inr ⟨round.symm, counter.ge⟩
      · rcases ledger.behind key old with early | current
        · left
          omega
        · right
          omega

theorem resetFec_keys (port : AsyncPort) (k : Nat) (ic : Option InnerCipher) :
    (port.resetFec k ic).keys = port.keys := by
  unfold AsyncPort.keys AsyncPort.resetFec held
  rw [List.flatMap_map]
  congr 1
  refine List.flatMap_congr fun backend _ => ?_
  split <;> rfl

section

variable (ledger : Ledger port used)

include ledger

theorem Ledger.resetSeq : Ledger port.resetSeq used :=
  ledger.fewer (List.Subperm.refl _) (Or.inl (Nat.lt_succ_self _))

theorem Ledger.resetFec (k : Nat) (ic : Option InnerCipher) : Ledger (port.resetFec k ic) used := by
  refine ledger.fewer ?_ (Or.inr ⟨rfl, Nat.le_refl _⟩)
  rw [resetFec_keys]

theorem Ledger.drain (target : Nat) (backend : Backend) (batch : VpnFrameBatch)
    (rest : OwnedBatchQueue) (budget : Nat) (there : port.backends[target]? = some backend)
    (popped : backend.queue.tryPopFitting budget = some (batch, rest)) :
    Ledger { port with backends := port.backends.set target { backend with queue := rest } }
      (used ++ held VpnFrame.keys batch.frames) := by
  refine ledger.fewer (List.Perm.subperm ?_) (Or.inr ⟨rfl, Nat.le_refl _⟩)
  have split : backend.keys = held VpnFrame.keys batch.frames ++
      Backend.keys { backend with queue := rest } := by
    unfold Backend.keys
    rw [tryPopFitting_all backend.queue rest batch budget popped, held_append]
  have moved := held_set_part Backend.keys port.backends target backend
    { backend with queue := rest } _ there split
  have inserted := (moved.append_left (held Writer.keys port.writers)).append_right used
  refine List.Perm.trans ?_ inserted
  unfold AsyncPort.keys
  simp only [List.append_assoc]
  refine List.Perm.append_left _ ?_
  rw [← List.append_assoc]
  exact List.perm_append_comm

end

end Ledger

section Floors

/-- Nothing on a backend, and no call that can still reach it, was numbered
before round `round`. -/
structure Floor (port : AsyncPort) (target round : Nat) : Prop where
  queued : ∀ backend, port.backends[target]? = some backend →
    ∀ key ∈ backend.keys, round ≤ key.1
  calls : ∀ key ∈ held Writer.keys port.writers, round ≤ key.1
  reached : round ≤ port.round

variable {port : AsyncPort} {target round : Nat}

theorem Floor.step {next : AsyncPort} {label : WriteLabel} (floor : Floor port target round)
    (taken : port.step label = some next) : Floor next target round := by
  have written := step_written port next label taken
  refine ⟨?_, ?_, ?_⟩
  · intro backend there key present
    rcases step_backend_keys written target backend there with empty | ⟨before, found, source⟩
    · rw [empty] at present
      cases present
    · rcases source key present with old | call
      · exact floor.queued before found key old
      · exact floor.calls key call
  · intro key owned
    rcases step_writer_keys written key owned with old | fresh
    · exact floor.calls key old
    · rw [fresh]
      exact floor.reached
  · rw [(step_moves written).2]
    exact floor.reached

theorem Floor.registered (quiet : port.quiet = true) (backend : Backend) (empty : backend.keys = []) :
    Floor { port with backends := port.backends ++ [backend] } port.backends.length port.round := by
  refine ⟨?_, ?_, Nat.le_refl _⟩
  · intro after there key present
    rw [List.getElem?_concat_length] at there
    cases there
    rw [empty] at present
    cases present
  · intro key owned
    change key ∈ held Writer.keys port.writers at owned
    rw [quiet_keys quiet] at owned
    cases owned

section

variable (floor : Floor port target round)

include floor

theorem Floor.weaken {lower : Nat} (below : lower ≤ round) : Floor port target lower :=
  ⟨fun backend there key present => below.trans (floor.queued backend there key present),
    fun key owned => below.trans (floor.calls key owned), below.trans floor.reached⟩

theorem Floor.resetSeq : Floor port.resetSeq target round :=
  ⟨floor.queued, floor.calls, floor.reached.trans (Nat.le_succ _)⟩

theorem Floor.resetFec (k : Nat) (ic : Option InnerCipher) :
    Floor (port.resetFec k ic) target round := by
  refine ⟨?_, floor.calls, floor.reached⟩
  intro backend there key present
  unfold AsyncPort.resetFec at there
  rw [List.getElem?_map] at there
  obtain ⟨before, found, rfl⟩ := Option.map_eq_some_iff.mp there
  refine floor.queued before found key ?_
  split at present <;> exact present

theorem Floor.drain (position : Nat) (backend : Backend) (batch : VpnFrameBatch)
    (rest : OwnedBatchQueue) (budget : Nat) (there : port.backends[position]? = some backend)
    (popped : backend.queue.tryPopFitting budget = some (batch, rest)) :
    Floor { port with backends := port.backends.set position { backend with queue := rest } }
      target round := by
  refine ⟨?_, floor.calls, floor.reached⟩
  intro after found key present
  rcases lookup_set found with ⟨rfl, rfl⟩ | ⟨_, same⟩
  · refine floor.queued backend there key ?_
    unfold Backend.keys
    rw [tryPopFitting_all backend.queue rest batch budget popped, held_append]
    exact List.mem_append_right _ present
  · exact floor.queued after same key present

theorem Floor.drained (backend : Backend) (batch : VpnFrameBatch) (rest : OwnedBatchQueue)
    (budget : Nat) (there : port.backends[target]? = some backend)
    (popped : backend.queue.tryPopFitting budget = some (batch, rest)) (frame : VpnFrame)
    (present : frame ∈ batch.frames) (numbered : frame.seq ≠ 0) : round ≤ frame.round := by
  refine floor.queued backend there (frame.round, frame.seq) ?_
  unfold Backend.keys
  rw [tryPopFitting_all backend.queue rest batch budget popped]
  refine List.mem_flatMap.mpr ⟨frame, List.mem_append_left _ present, ?_⟩
  unfold VpnFrame.keys frameKey
  rw [if_neg numbered]
  exact List.mem_singleton_self _

end

end Floors

section Nonces

universe u

theorem nonces_distinct {Salt Entry : Type u} (salt : Entry → Salt) (frame : Entry → VpnFrame)
    (saltOf : Nat → Option Salt) (entries : List Entry)
    (own : ∀ left right value, saltOf left = some value → saltOf right = some value → left = right)
    (keyed : ∀ entry ∈ entries, (frame entry).seq ≠ 0 ∧
      saltOf (frame entry).round = some (salt entry))
    (unique : (held (fun entry => (frame entry).keys) entries).Nodup) :
    (entries.map fun entry => (salt entry, (frame entry).seq)).Nodup := by
  have keys : ∀ entry ∈ entries, (frame entry).keys =
      [((frame entry).round, (frame entry).seq)] := by
    intro entry present
    unfold VpnFrame.keys frameKey
    rw [if_neg (keyed entry present).1]
  have apart := (List.nodup_flatMap.mp unique).2
  refine List.pairwise_map.mpr (apart.imp_of_mem ?_)
  intro left right first second disjoint same
  have salts := congrArg Prod.fst same
  have seqs := congrArg Prod.snd same
  simp only at salts seqs
  have rounds := own _ _ _ (keyed left first).2 (salts ▸ (keyed right second).2)
  change (frame left).keys.Disjoint (frame right).keys at disjoint
  rw [keys left first, keys right second, rounds, seqs] at disjoint
  exact disjoint (List.mem_singleton_self _) (List.mem_singleton_self _)

end Nonces

end TlsVpn.Port

import TlsVpn.GroupIntegrity

/-!
The order of FEC_MODE controls and data in each backend's queue, under
concurrent calls. `try_send_payload_to_fenced` is taken apart into its atomic
steps: read the backend's remembered generation, enqueue the control, store the
generation, enqueue the data. Two calls may do this on one backend at once and
store their generations in either order. `sending` is where each call stands;
`fifo` logs every record a backend's queue ever took, oldest first, with the
generation that was in force when a data record was dispatched.
-/

namespace TlsVpn.FenceOrder

open Words XorBytes Protocol Fec Port Holdings

section Model

inductive Mark where
  | control (mode : FecModeControl)
  | data (generation : Nat)
  | parity
  deriving DecidableEq

structure Record where
  frame : VpnFrame
  mark : Mark
  deriving DecidableEq

/-- Where a call stands in `try_send_payload_to_fenced` with one backend. -/
inductive Sending where
  | idle
  | stale (target : Nat) (mode : FecModeControl)
  | announced (target : Nat) (mode : FecModeControl)
  | clear (target : Nat)

structure FencePort where
  port : AsyncPort
  sending : Nat → Sending
  fifo : Nat → List Record

def FencePort.start (k : Nat) (ic : Option InnerCipher) : FencePort :=
  ⟨fecPort k ic [], fun _ => .idle, fun _ => []⟩

def governing : Option FecModeControl → Nat
  | none => 0
  | some mode => mode.generation

def FencePort.setBackend (state : FencePort) (target : Nat) (backend : Backend) : AsyncPort :=
  { state.port with backends := state.port.backends.set target backend }

/-- `fec_fence_gen.load`, and the branch it decides. -/
def FencePort.load (state : FencePort) (writer target : Nat) : Option FencePort :=
  match state.port.writers[writer]?, state.port.backends[target]?, state.sending writer with
  | some (.encoded _ _ _ _ control), some backend, .idle =>
    if backend.registered then
      let branch :=
        match control with
        | none => Sending.clear target
        | some mode =>
          if backend.fecFenceGen < mode.generation then .stale target mode else .clear target
      some { state with sending := Function.update state.sending writer branch }
    else none
  | _, _, _ => none

def FencePort.pushControl (state : FencePort) (writer : Nat) : Option FencePort :=
  match state.sending writer with
  | .stale target mode =>
    match state.port.writers[writer]?, state.port.backends[target]? with
    | some (.encoded _ round _ _ _), some backend =>
      match backend.tryPush ⟨0, mode.encode, round⟩ with
      | some taken =>
        some
          { port := state.setBackend target taken
            sending := Function.update state.sending writer (.announced target mode)
            fifo := Function.update state.fifo target
              (state.fifo target ++ [⟨⟨0, mode.encode, round⟩, .control mode⟩]) }
      -- the data must not overtake the control, so the call tries elsewhere
      | none => some { state with sending := Function.update state.sending writer .idle }
    | _, _ => none
  | _ => none

/-- `fec_fence_gen.store`. -/
def FencePort.storeGen (state : FencePort) (writer : Nat) : Option FencePort :=
  match state.sending writer with
  | .announced target mode =>
    match state.port.backends[target]? with
    | some backend =>
      -- a plain store: a racing call may have left a newer generation here
      some { state with
        port := state.setBackend target { backend with fecFenceGen := mode.generation }
        sending := Function.update state.sending writer (.clear target) }
    | none => none
  | _ => none

def FencePort.pushData (state : FencePort) (writer : Nat) : Option FencePort :=
  match state.sending writer with
  | .clear target =>
    match state.port.writers[writer]?, state.port.backends[target]? with
    | some (.encoded seq round payload parity control), some backend =>
      match backend.tryPush ⟨seq, payload.bytes, round⟩ with
      | some taken =>
        some
          { port := (state.setBackend target taken).setWriter writer (.delivered round parity)
            sending := Function.update state.sending writer .idle
            fifo := Function.update state.fifo target
              (state.fifo target ++
                [⟨⟨seq, payload.bytes, round⟩, .data (governing control)⟩]) }
      | none => some { state with sending := Function.update state.sending writer .idle }
    | _, _ => none
  | _ => none

def FencePort.sendParity (state : FencePort) (writer target : Nat) : Option FencePort :=
  match state.port.writers[writer]?, state.port.backends[target]? with
  | some (.delivered round (some record)), some backend =>
    if backend.registered ∧ 2 ≤ state.port.pathCount then
      let port := (state.port.sendParity target backend round record).setWriter writer .finished
      if (backend.tryPush ⟨0, record, round⟩).isSome then
        some { state with
          port := port
          fifo := Function.update state.fifo target
            (state.fifo target ++ [⟨⟨0, record, round⟩, .parity⟩]) }
      else some { state with port := port }
    else none
  | _, _ => none

def FencePort.drain (state : FencePort) (target budget : Nat) : Option FencePort :=
  match state.port.backends[target]? with
  | some backend =>
    match backend.queue.tryPopFitting budget with
    | some (_, rest) =>
      some { state with port := state.setBackend target { backend with queue := rest } }
    | none => none
  | none => none

/-- The steps of `write_payload`, registering and unregistering that send
nothing. A call gives up only between two attempts. -/
def FencePort.plain (state : FencePort) : WriteLabel → Bool
  | .attempt _ _ | .parity _ _ => false
  | .giveUp writer =>
    match state.sending writer with
    | .idle => true
    | _ => false
  | .enter _ | .number _ | .encode _ | .leave _ | .register _ _ | .unregister _ => true

inductive Label where
  | plain (label : WriteLabel)
  | load (writer target : Nat)
  | pushControl (writer : Nat)
  | storeGen (writer : Nat)
  | pushData (writer : Nat)
  | sendParity (writer target : Nat)
  | drain (target budget : Nat)

def FencePort.step (state : FencePort) : Label → Option FencePort
  | .plain label =>
    if state.plain label then
      (state.port.step label).map fun port => { state with port := port }
    else none
  | .load writer target => state.load writer target
  | .pushControl writer => state.pushControl writer
  | .storeGen writer => state.storeGen writer
  | .pushData writer => state.pushData writer
  | .sendParity writer target => state.sendParity writer target
  | .drain target budget => state.drain target budget

end Model

section Order

/-- A control of generation `generation` or newer is in the log; generation 0
needs none. -/
def Announced (log : List Record) (generation : Nat) : Prop :=
  generation = 0 ∨ ∃ record ∈ log, ∃ mode, record.mark = .control mode ∧
    record.frame.seq = 0 ∧ record.frame.data = mode.encode ∧ generation ≤ mode.generation

variable {log : List Record} {generation : Nat} {backends : List Backend} {fifo : Nat → List Record}

theorem Announced.append (known : Announced log generation) (more : List Record) :
    Announced (log ++ more) generation := by
  rcases known with zero | ⟨record, member, rest⟩
  · exact Or.inl zero
  · exact Or.inr ⟨record, List.mem_append_left more member, rest⟩

theorem Announced.older {newer : Nat} (known : Announced log newer) (atMost : generation ≤ newer) :
    Announced log generation := by
  rcases known with rfl | ⟨record, member, mode, mark, seq, data, enough⟩
  · exact Or.inl (Nat.le_zero.mp atMost)
  · exact Or.inr ⟨record, member, mode, mark, seq, data, Nat.le_trans atMost enough⟩

def Fences (log : List Record) : Prop :=
  ∀ before record after generation, log = before ++ record :: after →
    record.mark = .data generation → Announced before generation

theorem Fences.append (fences : Fences log) (record : Record)
    (known : ∀ generation, record.mark = .data generation → Announced log generation) :
    Fences (log ++ [record]) := by
  intro before other after generation split mark
  -- the data record is the new one, or it was there with the same records before it
  rcases List.eq_nil_or_concat after with rfl | ⟨rest, last, rfl⟩
  · have parts := List.append_inj' split rfl
    cases parts.1
    cases parts.2
    exact known generation mark
  · rw [List.concat_eq_append, ← List.cons_append, ← List.append_assoc] at split
    have parts := List.append_inj' split rfl
    exact fences before other rest generation parts.1 mark

def Progress (port : AsyncPort) (fifo : Nat → List Record) (writer : Nat) : Sending → Prop
  | .idle => True
  | .stale _ mode => ∃ seq round payload parity,
      port.writers[writer]? = some (.encoded seq round payload parity (some mode))
  | .announced target mode => (∃ seq round payload parity,
      port.writers[writer]? = some (.encoded seq round payload parity (some mode))) ∧
      Announced (fifo target) mode.generation
  | .clear target => ∃ seq round payload parity control,
      port.writers[writer]? = some (.encoded seq round payload parity control) ∧
        Announced (fifo target) (governing control)

structure Queues (backends : List Backend) (fifo : Nat → List Record) : Prop where
  fresh : ∀ index, backends.length ≤ index → fifo index = []
  stored : ∀ (index : Nat) (backend : Backend), backends[index]? = some backend →
    Announced (fifo index) backend.fecFenceGen
  queued : ∀ (index : Nat) (backend : Backend), backends[index]? = some backend →
    backend.queue.all <:+ (fifo index).map Record.frame
  ordered : ∀ index, Fences (fifo index)

section

variable (queues : Queues backends fifo)

include queues

theorem Queues.push (target : Nat) (backend taken : Backend) (record : Record)
    (there : backends[target]? = some backend) (pushed : backend.tryPush record.frame = some taken)
    (known : ∀ generation, record.mark = .data generation → Announced (fifo target) generation) :
    Queues (backends.set target taken)
      (Function.update fifo target (fifo target ++ [record])) := by
  have inside := (List.getElem?_eq_some_iff.mp there).1
  obtain ⟨queue, pushedQueue, rfl⟩ := Option.map_eq_some_iff.mp pushed
  refine ⟨?_, ?_, ?_, ?_⟩
  · intro index beyond
    rw [List.length_set] at beyond
    rw [Function.update_of_ne (by omega)]
    exact queues.fresh index beyond
  · intro index other found
    rcases lookup_set found with ⟨rfl, rfl⟩ | ⟨apart, before⟩
    · rw [Function.update_self]
      exact (queues.stored index backend there).append [record]
    · rw [Function.update_of_ne apart]
      exact queues.stored index other before
  · intro index other found
    rcases lookup_set found with ⟨rfl, rfl⟩ | ⟨apart, before⟩
    · rw [Function.update_self, List.map_append, tryPush_all backend.queue queue _ pushedQueue]
      obtain ⟨gone, whole⟩ := queues.queued index backend there
      exact ⟨gone, by rw [← List.append_assoc, whole]; rfl⟩
    · rw [Function.update_of_ne apart]
      exact queues.queued index other before
  · intro index
    by_cases same : index = target
    · subst same
      rw [Function.update_self]
      exact (queues.ordered index).append record known
    · rw [Function.update_of_ne same]
      exact queues.ordered index

theorem Queues.replace (target : Nat) (backend changed : Backend)
    (there : backends[target]? = some backend) (known : Announced (fifo target) changed.fecFenceGen)
    (part : changed.queue.all <:+ backend.queue.all) :
    Queues (backends.set target changed) fifo := by
  refine ⟨?_, ?_, ?_, queues.ordered⟩
  · intro index beyond
    rw [List.length_set] at beyond
    exact queues.fresh index beyond
  · intro index other found
    rcases lookup_set found with ⟨rfl, rfl⟩ | ⟨_, kept⟩
    · exact known
    · exact queues.stored index other kept
  · intro index other found
    rcases lookup_set found with ⟨rfl, rfl⟩ | ⟨_, kept⟩
    · exact part.trans (queues.queued index backend there)
    · exact queues.queued index other kept

theorem Queues.register (capacityFrames maxBatchFrames : Nat) :
    Queues (backends ++ [⟨true, OwnedBatchQueue.new capacityFrames maxBatchFrames, 0⟩]) fifo := by
  refine ⟨?_, ?_, ?_, queues.ordered⟩
  · intro index beyond
    rw [List.length_append] at beyond
    exact queues.fresh index (by omega)
  · intro index other found
    rcases lookup_concat found with old | ⟨_, rfl⟩
    · exact queues.stored index other old
    · exact Or.inl rfl
  · intro index other found
    rcases lookup_concat found with old | ⟨_, rfl⟩
    · exact queues.queued index other old
    · exact List.nil_suffix

end

end Order

section Run

structure Fenced (state : FencePort) : Prop where
  queues : Queues state.port.backends state.fifo
  sends : ∀ writer, Progress state.port state.fifo writer (state.sending writer)

variable {port : AsyncPort} {fifo : Nat → List Record} {state next : FencePort}

theorem start_fenced (k : Nat) (ic : Option InnerCipher) : Fenced (FencePort.start k ic) := by
  refine ⟨⟨fun _ _ => rfl, ?_, ?_, ?_⟩, fun _ => trivial⟩
  · intro index backend found
    cases found
  · intro index backend found
    cases found
  · intro index before record after generation split
    have impossible := congrArg List.length split
    simp [FencePort.start] at impossible

theorem Progress.keep {next : AsyncPort} {log : Nat → List Record} {writer : Nat}
    {sending : Sending} (progress : Progress port fifo writer sending)
    (same : ∀ seq round payload parity control,
      port.writers[writer]? = some (.encoded seq round payload parity control) →
        next.writers[writer]? = some (.encoded seq round payload parity control))
    (grown : ∀ target generation, Announced (fifo target) generation →
      Announced (log target) generation) : Progress next log writer sending := by
  cases sending with
  | idle => trivial
  | stale target mode =>
    obtain ⟨seq, round, payload, parity, found⟩ := progress
    exact ⟨seq, round, payload, parity, same _ _ _ _ _ found⟩
  | announced target mode =>
    obtain ⟨⟨seq, round, payload, parity, found⟩, known⟩ := progress
    exact ⟨⟨seq, round, payload, parity, same _ _ _ _ _ found⟩, grown target _ known⟩
  | clear target =>
    obtain ⟨seq, round, payload, parity, control, found, known⟩ := progress
    exact ⟨seq, round, payload, parity, control, same _ _ _ _ _ found, grown target _ known⟩

theorem Fenced.others (fenced : Fenced state) (writer : Nat) (sending : Sending) (next : AsyncPort)
    (log : Nat → List Record)
    (same : ∀ other, other ≠ writer → next.writers[other]? = state.port.writers[other]?)
    (grown : ∀ target generation, Announced (state.fifo target) generation →
      Announced (log target) generation) (own : Progress next log writer sending) (other : Nat) :
    Progress next log other (Function.update state.sending writer sending other) := by
  by_cases this : other = writer
  · subst this
    rw [Function.update_self]
    exact own
  · rw [Function.update_of_ne this]
    exact (fenced.sends other).keep (fun _ _ _ _ _ found => (same other this).trans found) grown

theorem announced_update (target : Nat) (record : Record) (index generation : Nat)
    (known : Announced (fifo index) generation) :
    Announced (Function.update fifo target (fifo target ++ [record]) index) generation := by
  by_cases same : index = target
  · subst same
    rw [Function.update_self]
    exact known.append [record]
  · rw [Function.update_of_ne same]
    exact known

section

variable (fenced : Fenced state)

include fenced

theorem load_fenced (writer target : Nat) (taken : state.load writer target = some next) :
    Fenced next := by
  unfold FencePort.load at taken
  split at taken
  · rename_i seq round payload parity control backend found there idle
    split at taken
    · cases taken
      refine ⟨fenced.queues, fenced.others writer _ state.port state.fifo (fun _ _ => rfl)
        (fun _ _ known => known) ?_⟩
      cases control with
      | none => exact ⟨seq, round, payload, parity, none, found, Or.inl rfl⟩
      | some mode =>
        by_cases older : backend.fecFenceGen < mode.generation
        · simp only [if_pos older]
          exact ⟨seq, round, payload, parity, found⟩
        · simp only [if_neg older]
          -- the remembered generation is announced, and it is at least this one
          refine ⟨seq, round, payload, parity, some mode, found, ?_⟩
          exact (fenced.queues.stored target backend there).older (Nat.le_of_not_lt older)
    · cases taken
  · cases taken

section

variable (writer : Nat)

include writer

theorem pushControl_fenced (taken : state.pushControl writer = some next) : Fenced next := by
  unfold FencePort.pushControl at taken
  split at taken
  · rename_i target mode stale
    split at taken
    · rename_i seq round payload parity control backend found there
      have progress := fenced.sends writer
      rw [stale] at progress
      split at taken
      · rename_i changed pushed
        cases taken
        refine ⟨fenced.queues.push target backend changed ⟨⟨0, mode.encode, round⟩, .control mode⟩
          there pushed (fun _ mark => by cases mark), ?_⟩
        -- from here on the control is in the log, whatever gets stored
        apply fenced.others writer _ _ _ (fun _ _ => rfl) (announced_update target _)
        refine ⟨progress, Or.inr ⟨⟨⟨0, mode.encode, round⟩, .control mode⟩, ?_, mode, rfl, rfl, rfl,
          Nat.le_refl _⟩⟩
        rw [Function.update_self]
        exact List.mem_append_right _ List.mem_cons_self
      · cases taken
        exact ⟨fenced.queues, fenced.others writer .idle state.port state.fifo (fun _ _ => rfl)
          (fun _ _ known => known) trivial⟩
    · cases taken
  · cases taken

theorem storeGen_fenced (taken : state.storeGen writer = some next) : Fenced next := by
  unfold FencePort.storeGen at taken
  split at taken
  · rename_i target mode announced
    split at taken
    · rename_i backend there
      have progress := fenced.sends writer
      rw [announced] at progress
      obtain ⟨⟨seq, round, payload, parity, found⟩, known⟩ := progress
      cases taken
      refine ⟨fenced.queues.replace target backend _ there known List.suffix_rfl, ?_⟩
      apply fenced.others writer _ _ _ (fun _ _ => rfl) (fun _ _ before => before)
      exact ⟨seq, round, payload, parity, some mode, found, known⟩
    · cases taken
  · cases taken

theorem pushData_fenced (taken : state.pushData writer = some next) : Fenced next := by
  unfold FencePort.pushData at taken
  split at taken
  · rename_i target clear
    split at taken
    · rename_i seq round payload parity control backend found there
      have progress := fenced.sends writer
      rw [clear] at progress
      obtain ⟨_, _, _, _, _, foundToo, known⟩ := progress
      rw [found] at foundToo
      cases foundToo
      split at taken
      · rename_i changed pushed
        cases taken
        refine ⟨fenced.queues.push target backend changed
          ⟨⟨seq, payload.bytes, round⟩, .data (governing control)⟩ there pushed ?_, ?_⟩
        · intro generation mark
          cases mark
          exact known
        · apply fenced.others writer .idle _ _ ?_ (announced_update target _) trivial
          intro other differs
          exact List.getElem?_set_ne (Ne.symm differs)
      · cases taken
        exact ⟨fenced.queues, fenced.others writer .idle state.port state.fifo (fun _ _ => rfl)
          (fun _ _ before => before) trivial⟩
    · cases taken
  · cases taken

theorem Fenced.idle_of
    (past : ∀ seq round payload parity control,
      state.port.writers[writer]? ≠ some (.encoded seq round payload parity control)) :
    state.sending writer = .idle := by
  have progress := fenced.sends writer
  cases standing : state.sending writer with
  | idle => rfl
  | stale target mode =>
    rw [standing] at progress
    obtain ⟨seq, round, payload, parity, found⟩ := progress
    exact absurd found (past _ _ _ _ _)
  | announced target mode =>
    rw [standing] at progress
    obtain ⟨⟨seq, round, payload, parity, found⟩, _⟩ := progress
    exact absurd found (past _ _ _ _ _)
  | clear target =>
    rw [standing] at progress
    obtain ⟨seq, round, payload, parity, control, found, _⟩ := progress
    exact absurd found (past _ _ _ _ _)

theorem Fenced.move (port : AsyncPort) (queues : Queues port.backends state.fifo)
    (idle : state.sending writer = .idle)
    (same : ∀ other, other ≠ writer → port.writers[other]? = state.port.writers[other]?) :
    Fenced { state with port := port } := by
  refine ⟨queues, fun other => ?_⟩
  by_cases this : other = writer
  · subst this
    show Progress port state.fifo other (state.sending other)
    rw [idle]
    trivial
  · exact (fenced.sends other).keep (fun _ _ _ _ _ found => (same other this).trans found)
      fun _ _ known => known

end

theorem plain_fenced (label : WriteLabel) (plain : state.plain label = true)
    (taken : state.port.step label = some port) : Fenced { state with port := port } := by
  have others : ∀ (index : Nat) (writer : Writer) (other : Nat), other ≠ index →
      (state.port.writers.set index writer)[other]? = state.port.writers[other]? :=
    fun index writer other differs => List.getElem?_set_ne (Ne.symm differs)
  cases step_written state.port port label taken with
  | refused payload => exact ⟨fenced.queues, fenced.sends⟩
  | entered payload =>
    refine ⟨fenced.queues, fun other => (fenced.sends other).keep ?_ fun _ _ known => known⟩
    intro seq round data parity control found
    have inside := (List.getElem?_eq_some_iff.mp found).1
    exact (List.getElem?_append_left inside).trans found
  | exhausted index payload found last =>
    refine fenced.move index _ fenced.queues (fenced.idle_of index ?_) (others index _)
    intro _ _ _ _ _ encoded
    cases found.symm.trans encoded
  | numbered index payload found room =>
    refine fenced.move index _ fenced.queues (fenced.idle_of index ?_) (others index _)
    intro _ _ _ _ _ encoded
    cases found.symm.trans encoded
  | encoded index seq round payload found =>
    obtain ⟨parity, control, writers⟩ := encode_writers state.port index seq round payload
    have backends := (encode_fixed state.port index seq round payload).2.2.2
    refine fenced.move index _ (by rw [backends]; exact fenced.queues) (fenced.idle_of index ?_) ?_
    · intro _ _ _ _ _ encoded
      cases found.symm.trans encoded
    · intro other differs
      rw [writers]
      exact others index _ other differs
  | attempted index target backend seq round payload parity control found there registered =>
    -- attempts go through the finer steps
    cases plain
  | gaveUp index seq round payload parity control found =>
    refine fenced.move index _ fenced.queues ?_ (others index _)
    simp only [FencePort.plain] at plain
    split at plain
    · assumption
    · cases plain
  | parity index target backend round record found there registered => cases plain
  | left index round parity found =>
    refine fenced.move index _ fenced.queues (fenced.idle_of index ?_) (others index _)
    intro _ _ _ _ _ encoded
    cases found.symm.trans encoded
  | registered capacityFrames maxBatchFrames quiet =>
    exact ⟨fenced.queues.register capacityFrames maxBatchFrames, fenced.sends⟩
  | unregistered target backend there quiet =>
    exact ⟨fenced.queues.replace target backend _ there
      (fenced.queues.stored target backend there) List.suffix_rfl, fenced.sends⟩

theorem sendParity_fenced (writer target : Nat) (taken : state.sendParity writer target = some next) :
    Fenced next := by
  unfold FencePort.sendParity at taken
  split at taken
  · rename_i round record backend found there
    have idle : state.sending writer = .idle := by
      apply fenced.idle_of writer
      intro _ _ _ _ _ encoded
      cases found.symm.trans encoded
    have others : ∀ other, other ≠ writer →
        (state.port.writers.set writer .finished)[other]? = state.port.writers[other]? :=
      fun other differs => List.getElem?_set_ne (Ne.symm differs)
    split at taken
    · cases pushed : backend.tryPush ⟨0, record, round⟩ with
      | none =>
        simp only [pushed, AsyncPort.sendParity, Option.isSome_none, Bool.false_eq_true,
          if_false] at taken
        cases taken
        exact fenced.move writer _ fenced.queues idle others
      | some changed =>
        simp only [pushed, AsyncPort.sendParity, Option.isSome_some, if_true] at taken
        cases taken
        refine ⟨fenced.queues.push target backend changed ⟨⟨0, record, round⟩, .parity⟩ there pushed
          (fun _ mark => by cases mark), fun other => ?_⟩
        by_cases this : other = writer
        · subst this
          dsimp only
          rw [idle]
          trivial
        · exact (fenced.sends other).keep
            (fun _ _ _ _ _ before => (others other this).trans before)
            (announced_update target _)
    · cases taken
  · cases taken

theorem drain_fenced (target budget : Nat) (taken : state.drain target budget = some next) :
    Fenced next := by
  unfold FencePort.drain at taken
  split at taken
  · rename_i backend there
    split at taken
    · rename_i batch rest popped
      cases taken
      refine ⟨fenced.queues.replace target backend _ there
        (fenced.queues.stored target backend there) ?_, fenced.sends⟩
      rw [tryPopFitting_all backend.queue rest batch budget popped]
      exact List.suffix_append _ _
    · cases taken
  · cases taken

end

theorem step_fenced (state : FencePort) (label : Label) (next : FencePort) (fenced : Fenced state)
    (taken : state.step label = some next) : Fenced next := by
  cases label with
  | plain label =>
    simp only [FencePort.step] at taken
    split at taken
    · rename_i plain
      obtain ⟨port, moved, rfl⟩ := Option.map_eq_some_iff.mp taken
      exact plain_fenced fenced label plain moved
    · cases taken
  | load writer target => exact load_fenced fenced writer target taken
  | pushControl writer => exact pushControl_fenced fenced writer taken
  | storeGen writer => exact storeGen_fenced fenced writer taken
  | pushData writer => exact pushData_fenced fenced writer taken
  | sendParity writer target => exact sendParity_fenced fenced writer target taken
  | drain target budget => exact drain_fenced fenced target budget taken

theorem run_fenced (k : Nat) (ic : Option InnerCipher) (labels : List Label) (final : FencePort)
    (reached : Runs.run FencePort.step (FencePort.start k ic) labels = some final) : Fenced final :=
  Runs.invariant_run FencePort.step Fenced step_fenced (FencePort.start k ic) final labels reached
    (start_fenced k ic)

/-- In every interleaving, a data record captured under a generation has a
control of that generation or a newer one before it in its backend's log, and
the queue is always the untransmitted end of that log. -/
theorem fence_precedes_data (k : Nat) (ic : Option InnerCipher) (labels : List Label)
    (final : FencePort)
    (reached : Runs.run FencePort.step (FencePort.start k ic) labels = some final) :
    (∀ (index : Nat) (backend : Backend), final.port.backends[index]? = some backend →
      backend.queue.all <:+ (final.fifo index).map Record.frame) ∧
    ∀ (index : Nat) (before : List Record) (record : Record) (after : List Record)
      (generation : Nat), final.fifo index = before ++ record :: after →
      record.mark = .data generation → generation ≠ 0 →
      ∃ earlier ∈ before, ∃ mode, earlier.mark = .control mode ∧ earlier.frame.seq = 0 ∧
        earlier.frame.data = mode.encode ∧ generation ≤ mode.generation := by
  have fenced := run_fenced k ic labels final reached
  refine ⟨fenced.queues.queued, ?_⟩
  intro index before record after generation split mark governed
  have known := fenced.queues.ordered index before record after generation split mark
  exact known.resolve_left governed

/-- A group over two backends, one of them unregistered; then two calls that
both find the other without a fence and store the generation crosswise. -/
def racingCalls : List Label :=
  [.plain (.register 16 4), .plain (.register 16 4), .plain (.enter samplePayload),
    .plain (.number 0), .plain (.encode 0), .load 0 0, .pushData 0, .plain (.leave 0),
    .plain (.unregister 1), .plain (.enter samplePayload), .plain (.enter otherPayload),
    .plain (.number 1), .plain (.number 2), .plain (.encode 1), .plain (.encode 2),
    .load 1 0, .load 2 0, .pushControl 1, .pushControl 2, .storeGen 2, .pushData 2,
    .storeGen 1, .drain 0 4096, .pushData 1]

def racingLog : List Record :=
  let suspend : FecModeControl := ⟨1, fecModeSuspend, 1⟩
  [⟨⟨1, [7], 1⟩, .data 0⟩, ⟨⟨0, suspend.encode, 1⟩, .control suspend⟩,
    ⟨⟨0, suspend.encode, 1⟩, .control suspend⟩, ⟨⟨3, [8, 9], 1⟩, .data 1⟩,
    ⟨⟨2, [7], 1⟩, .data 1⟩]

theorem fence_precedes_racing_data : ∃ final,
    Runs.run FencePort.step (FencePort.start 2 none) racingCalls = some final ∧
      final.fifo 0 = racingLog ∧
      ∃ earlier ∈ racingLog.take 3, ∃ mode, earlier.mark = .control mode ∧
        earlier.frame.seq = 0 ∧ earlier.frame.data = mode.encode ∧ 1 ≤ mode.generation := by
  have evaluated : (Runs.run FencePort.step (FencePort.start 2 none) racingCalls).map
      (fun final => final.fifo 0) = some racingLog := by decide +kernel
  obtain ⟨final, reached, log⟩ := Option.map_eq_some_iff.mp evaluated
  refine ⟨final, reached, log, ?_⟩
  exact (fence_precedes_data 2 none racingCalls final reached).2 0 (racingLog.take 3)
    ⟨⟨3, [8, 9], 1⟩, .data 1⟩ (racingLog.drop 4) 1 (log.trans rfl) rfl (by decide)

end Run

end TlsVpn.FenceOrder

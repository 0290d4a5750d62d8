import TlsVpn.ServerSession

/-!
Nonces of the server's inner cipher. `flush_outbound` reads the epoch and its
cipher under the lock and seals after releasing it, so a rotation that resets the
sequence counter in between lets the old cipher meet the new numbers. As long as
no frame numbered after such a reset is popped by a flush that checked before it,
every pair of salt and number is sealed once.
-/

namespace TlsVpn.Server

open Words XorBytes Fec Reorder Port Holdings

/-- A flush drains no frame that was numbered after a counter reset later than
its own epoch check, and the epoch counter is not rotated at its maximum. -/
def DrainsOwnRound (session : Session) : Label → Prop
  | .flushPop index =>
    match session.conns[index]? with
    | some conn =>
      match conn.flush with
      | some flush => ∀ frame ∈ session.port.nextFrames conn.backend,
          frame.seq ≠ 0 → frame.round ≤ flush.round
      | none => True
    | none => True
  | .advance =>
    match session.rotation with
    | some rotation => rotation.phase = .portReset → session.epochState.epoch < u64Max
    | none => True
  | _ => True

instance decidableDrainsOwnRound (session : Session) :
    ∀ label, Decidable (DrainsOwnRound session label)
  | .flushPop index => by
    dsimp only [DrainsOwnRound]
    exact match session.conns[index]? with
      | some conn => by
        dsimp only
        exact match conn.flush with
          | some flush => inferInstance
          | none => inferInstance
      | none => inferInstance
  | .advance => by
    dsimp only [DrainsOwnRound]
    exact match session.rotation with
      | some rotation => inferInstance
      | none => inferInstance
  | .write _ | .singlePath | .join | .register _ _ | .flushBegin _ | .flushEnd _ _ | .receive _ _ _
  | .handle _ _ _ | .feed _ _ | .place _ _ _ _ | .timeout _ | .close _ | .exhaust _
  | .rotate _ _ _ => .isTrue trivial

def Phase.old : Phase → Bool
  | .counterReset => false
  | .portReset => false
  | _ => true

structure ConnKeyed (config : Config) (port : AsyncPort) (epoch : EpochState)
    (txSalts : List Salt) (conn : Conn) : Prop where
  known : conn.sessionEpoch ≤ epoch.epoch
  current : conn.sessionEpoch = epoch.epoch → conn.round = epoch.keyRound
  past : conn.round ≤ port.round
  floor : ∀ target, conn.backend = some target → Floor port target conn.round
  flushing : ∀ flush, conn.flush = some flush → flush.round = conn.round ∧
    flush.icTx = txSalts[conn.round]?.bind config.icTx

structure Keyed (config : Config) (session : Session) : Prop where
  ledger : Ledger session.port (held (fun entry => entry.frame.keys) session.sealed)
  distinct : session.txSalts.Nodup
  counted : session.txSalts.length = session.port.round + 1
  drawn : ∀ salt ∈ session.txSalts, salt ∈ session.salts
  pending : ∀ rotation, session.rotation = some rotation →
    if rotation.phase.old then rotation.saltB ∉ session.txSalts
    else session.txSalts[session.port.round]? = some rotation.saltB
  known : ∀ rotation, session.rotation = some rotation → rotation.saltB ∈ session.salts
  installed : session.epochState.icTx =
    session.txSalts[session.epochState.keyRound]?.bind config.icTx
  settled : session.rotation = none → session.epochState.keyRound = session.port.round
  past : session.epochState.keyRound ≤ session.port.round
  bounded : session.epochState.epoch ≤ u64Max
  sealedBy : ∀ entry ∈ session.sealed, entry.frame.seq ≠ 0 ∧
    session.txSalts[entry.frame.round]? = some entry.salt
  conns : ∀ conn ∈ session.conns,
    ConnKeyed config session.port session.epochState session.txSalts conn

variable {config : Config} {session next : Session}

section Ports

variable {port after : AsyncPort} {epoch : EpochState} {txSalts : List Salt} {conn : Conn}

section

variable (keyed : ConnKeyed config port epoch txSalts conn)

include keyed

theorem ConnKeyed.step {label : WriteLabel} (taken : port.step label = some after) :
    ConnKeyed config after epoch txSalts conn := by
  have round := (step_moves (step_written port after label taken)).2
  refine ⟨keyed.known, keyed.current, ?_, ?_, keyed.flushing⟩
  · rw [round]
    exact keyed.past
  · exact fun target mine => (keyed.floor target mine).step taken

theorem ConnKeyed.drain (position : Nat) (backend : Backend) (batch : VpnFrameBatch)
    (rest : OwnedBatchQueue) (budget : Nat) (there : port.backends[position]? = some backend)
    (popped : backend.queue.tryPopFitting budget = some (batch, rest)) :
    ConnKeyed config
      { port with backends := port.backends.set position { backend with queue := rest } } epoch
      txSalts conn :=
  ⟨keyed.known, keyed.current, keyed.past,
    fun target mine =>
      (keyed.floor target mine).drain position backend batch rest budget there popped,
    keyed.flushing⟩

theorem ConnKeyed.resetSeq (salt : Salt) (counted : txSalts.length = port.round + 1) :
    ConnKeyed config port.resetSeq epoch (txSalts ++ [salt]) conn := by
  have past := keyed.past
  refine ⟨keyed.known, keyed.current, past.trans (Nat.le_succ _), ?_, ?_⟩
  · exact fun target mine => (keyed.floor target mine).resetSeq
  · intro flush running
    rw [List.getElem?_append_left (by omega)]
    exact keyed.flushing flush running

theorem ConnKeyed.resetFec (k : Nat) (ic : Option InnerCipher) :
    ConnKeyed config (port.resetFec k ic) epoch txSalts conn :=
  ⟨keyed.known, keyed.current, keyed.past,
    fun target mine => (keyed.floor target mine).resetFec k ic, keyed.flushing⟩

theorem ConnKeyed.raise (later : EpochState)
    (raised : epoch.epoch < later.epoch ∨
      epoch.epoch = later.epoch ∧ epoch.keyRound = later.keyRound) :
    ConnKeyed config port later txSalts conn := by
  have known := keyed.known
  refine ⟨?_, ?_, keyed.past, keyed.floor, keyed.flushing⟩
  · rcases raised with more | same <;> omega
  · intro equal
    rcases raised with more | ⟨same, round⟩
    · omega
    · rw [← round]
      exact keyed.current (equal.trans same.symm)

end

end Ports

section Steps

section

variable (keyed : Keyed config session)

include keyed

theorem Keyed.stores (decoders : List FecDecoder) (reorderBuf : ReorderBuffer)
    (dedup : DeDuplicator) (delivered : Reorder.Delivered) (inserted : List Insertion) :
    Keyed config
      { session with
        decoders := decoders
        reorderBuf := reorderBuf
        dedup := dedup
        delivered := delivered
        inserted := inserted } :=
  { keyed with }

theorem Keyed.setConn (index : Nat) (new : Conn)
    (fresh : ConnKeyed config session.port session.epochState session.txSalts new) :
    Keyed config (session.setConn index new) :=
  { keyed with conns := forall_mem_set keyed.conns index new fresh }

theorem Keyed.port_step {label : WriteLabel} {port : AsyncPort}
    (taken : session.port.step label = some port) : Keyed config { session with port := port } := by
  have round := (step_moves (step_written session.port port label taken)).2
  refine
    { keyed with
      ledger := keyed.ledger.step taken
      counted := ?_
      pending := ?_
      settled := ?_
      past := ?_
      conns := fun conn present => (keyed.conns conn present).step taken }
  · rw [keyed.counted, round]
  · rw [round]
    exact keyed.pending
  · rw [round]
    exact keyed.settled
  · rw [round]
    exact keyed.past

theorem register_keyed (index maxBatchFrames : Nat) (conn : Conn) (port : AsyncPort)
    (found : session.conns[index]? = some conn)
    (taken : session.port.step (.register 1024 maxBatchFrames) = some port) :
    Keyed config
      { session with
        port := port
        conns := session.conns.set index
          { conn with backend := some session.port.backends.length } } := by
  have moved := keyed.port_step taken
  refine { moved with conns := forall_mem_set moved.conns index _ ?_ }
  have mine := moved.conns conn (List.mem_of_getElem? found)
  refine ⟨mine.known, mine.current, mine.past, ?_, mine.flushing⟩
  intro target here
  cases here
  cases step_written session.port port _ taken with
  | registered capacityFrames frames quiet =>
    exact (Floor.registered quiet _ rfl).weaken
      (keyed.conns conn (List.mem_of_getElem? found)).past

theorem flushBegin_keyed (index : Nat) (conn : Conn) (found : session.conns[index]? = some conn)
    (free : session.rotation = none) : Keyed config (session.flushBegin index conn) := by
  have mine := keyed.conns conn (List.mem_of_getElem? found)
  unfold Session.flushBegin
  split
  · exact keyed.setConn index _ ⟨mine.known, mine.current, mine.past, mine.floor, mine.flushing⟩
  · rename_i same
    refine keyed.setConn index _ ⟨mine.known, mine.current, mine.past, mine.floor, ?_⟩
    intro flush running
    cases running
    have round := mine.current (not_not.mp same).symm
    exact ⟨(round.trans (keyed.settled free)).symm, by rw [round]; exact keyed.installed⟩

theorem flushPop_keyed (index : Nat) (conn : Conn) (flush : Flush) (target : Nat)
    (backend : Backend) (found : session.conns[index]? = some conn)
    (running : conn.flush = some flush) (mine : conn.backend = some target)
    (there : session.port.backends[target]? = some backend)
    (own : ∀ frame ∈ session.port.nextFrames conn.backend,
      frame.seq ≠ 0 → frame.round ≤ flush.round)
    (taken : session.flushPop index conn flush target backend = some next) : Keyed config next := by
  unfold Session.flushPop at taken
  split at taken
  · cases taken
  · split at taken
    · cases taken
    · rename_i batch rest popped
      cases taken
      have held := keyed.conns conn (List.mem_of_getElem? found)
      obtain ⟨round, cipher⟩ := held.flushing flush running
      rw [mine, round] at own
      refine
        { keyed with
          ledger := keyed.ledger.seal there popped flush.icTx
          sealedBy := ?_
          conns := ?_ }
      · intro entry present
        rcases List.mem_append.mp present with old | new
        · exact keyed.sealedBy entry old
        · obtain ⟨salt, numbered, same⟩ :=
            (held.floor target mine).sealed there popped own entry new
          refine ⟨numbered, ?_⟩
          rw [same]
          rw [cipher] at salt
          obtain ⟨value, at_, keyedBy⟩ := Option.bind_eq_some_iff.mp salt
          unfold Config.icTx at keyedBy
          split at keyedBy
          · rw [at_, keyedBy]
          · cases keyedBy
      · refine forall_mem_set (fun other present => (keyed.conns other present).drain target backend
          batch rest flush.budget there popped) index _ ?_
        have after := held.drain target backend batch rest flush.budget there popped
        refine ⟨after.known, after.current, after.past, after.floor, ?_⟩
        intro running' same
        cases same
        exact ⟨round, cipher⟩

theorem flushEnd_keyed (index : Nat) (conn : Conn) (flush : Flush) (backend : Backend)
    (failed : Bool) (found : session.conns[index]? = some conn)
    (taken : session.flushEnd index conn flush backend failed = some next) : Keyed config next := by
  unfold Session.flushEnd at taken
  split at taken
  · cases taken
    have mine := keyed.conns conn (List.mem_of_getElem? found)
    refine keyed.setConn index _ ⟨mine.known, mine.current, mine.past, mine.floor, ?_⟩
    intro flush running
    cases running
  · cases taken

theorem exhaust_keyed (suffix : List Char) : Keyed config (session.exhaust suffix) := by
  have bounded := keyed.bounded
  unfold Session.exhaust
  split
  · exact keyed
  · refine { keyed with bounded := ?_, conns := ?_ }
    · change saturatingAdd session.epochState.epoch 1 ≤ u64Max
      unfold saturatingAdd
      omega
    · intro conn present
      refine (keyed.conns conn present).raise _ ?_
      change _ < saturatingAdd session.epochState.epoch 1 ∨
        _ = saturatingAdd session.epochState.epoch 1 ∧ _
      unfold saturatingAdd
      by_cases top : session.epochState.epoch < u64Max
      · left
        omega
      · right
        exact ⟨by omega, rfl⟩

end

theorem resetPort_resetFec (config : Config) (port : AsyncPort) (salt : Salt) :
    ∃ k ic, config.resetPort port salt = port.resetFec k ic := by
  unfold Config.resetPort
  split
  · exact ⟨_, _, rfl⟩
  · exact ⟨_, _, rfl⟩

section

variable (keyed : Keyed config session) (rotation : Rotation)

include keyed rotation

theorem Keyed.reach (phase : Phase)
    (pending : if phase.old then rotation.saltB ∉ session.txSalts
      else session.txSalts[session.port.round]? = some rotation.saltB)
    (known : rotation.saltB ∈ session.salts) : Keyed config (session.reach rotation phase) :=
  { keyed with
    pending := fun later same => by
      cases same
      exact pending
    known := fun later same => by
      cases same
      exact known
    settled := nofun }

theorem counterReset_keyed (fresh : rotation.saltB ∉ session.txSalts)
    (known : rotation.saltB ∈ session.salts) :
    Keyed config
      ({ session with
        port := session.port.resetSeq
        txSalts := session.txSalts ++ [rotation.saltB] }.reach rotation .counterReset) := by
  have past := keyed.past
  have counted := keyed.counted
  refine
    { ledger := keyed.ledger.resetSeq
      distinct := List.nodup_append.mpr ⟨keyed.distinct, List.nodup_singleton _, ?_⟩
      counted := ?_
      drawn := ?_
      pending := ?_
      known := ?_
      installed := ?_
      settled := nofun
      past := past.trans (Nat.le_succ _)
      bounded := keyed.bounded
      sealedBy := ?_
      conns := fun conn present => (keyed.conns conn present).resetSeq rotation.saltB counted }
  · intro old present new same equal
    rw [List.mem_singleton.mp same] at equal
    exact fresh (equal ▸ present)
  · change (session.txSalts ++ [rotation.saltB]).length = session.port.round + 1 + 1
    rw [List.length_append, counted]
    rfl
  · intro old present
    rcases List.mem_append.mp present with before | new
    · exact keyed.drawn old before
    · rw [List.mem_singleton.mp new]
      exact known
  · intro later same
    cases same
    change (session.txSalts ++ [rotation.saltB])[session.port.round + 1]? = _
    rw [← counted]
    exact List.getElem?_concat_length
  · intro later same
    cases same
    exact known
  · change _ = (session.txSalts ++ [rotation.saltB])[session.epochState.keyRound]?.bind _
    rw [List.getElem?_append_left (by omega)]
    exact keyed.installed
  · intro entry present
    obtain ⟨numbered, salt⟩ := keyed.sealedBy entry present
    refine ⟨numbered, ?_⟩
    change (session.txSalts ++ [rotation.saltB])[entry.frame.round]? = _
    rw [List.getElem?_append_left (List.getElem?_eq_some_iff.mp salt).1]
    exact salt

theorem install_keyed (pending : session.txSalts[session.port.round]? = some rotation.saltB)
    (room : session.epochState.epoch < u64Max) (decoders : List FecDecoder) (fecDec : Option Nat) :
    Keyed config
      { session with
        rotation := none
        decoders := decoders
        epochState :=
          { instanceId := rotation.instanceId
            epoch := saturatingAdd session.epochState.epoch 1
            icTx := config.icTx rotation.saltB
            fecDec := fecDec
            keyRound := session.port.round } } := by
  have raised : saturatingAdd session.epochState.epoch 1 = session.epochState.epoch + 1 := by
    unfold saturatingAdd
    omega
  refine
    { keyed with
      pending := nofun
      known := nofun
      installed := ?_
      settled := fun _ => rfl
      past := Nat.le_refl _
      bounded := ?_
      conns := fun conn present => (keyed.conns conn present).raise _ (Or.inl ?_) }
  · change config.icTx rotation.saltB = session.txSalts[session.port.round]?.bind config.icTx
    rw [pending]
    rfl
  · change saturatingAdd session.epochState.epoch 1 ≤ u64Max
    omega
  · change session.epochState.epoch < saturatingAdd session.epochState.epoch 1
    omega

theorem advance_keyed (writing : session.rotation = some rotation)
    (room : rotation.phase = .portReset → session.epochState.epoch < u64Max) :
    Keyed config (session.advance config rotation) := by
  have pending := keyed.pending rotation writing
  have known := keyed.known rotation writing
  cases phase : rotation.phase with
  | begun =>
    simp only [Session.advance, phase] at pending ⊢
    exact (keyed.stores _ _ _ _ _).reach rotation .decoderReset pending known
  | decoderReset =>
    simp only [Session.advance, phase] at pending ⊢
    exact (keyed.stores _ _ _ _ _).reach rotation .reorderReset pending known
  | reorderReset =>
    simp only [Session.advance, phase] at pending ⊢
    exact (keyed.stores _ _ _ _ _).reach rotation .dedupReset pending known
  | dedupReset =>
    simp only [Session.advance, phase] at pending ⊢
    exact counterReset_keyed keyed rotation pending known
  | counterReset =>
    simp only [Session.advance, phase] at pending ⊢
    obtain ⟨k, ic, same⟩ := resetPort_resetFec config session.port rotation.saltB
    rw [same]
    have moved : Keyed config { session with port := session.port.resetFec k ic } :=
      { keyed with
        ledger := keyed.ledger.resetFec k ic
        conns := fun conn present => (keyed.conns conn present).resetFec k ic }
    exact moved.reach rotation .portReset pending known
  | portReset =>
    simp only [Session.advance, phase] at pending ⊢
    exact install_keyed keyed rotation pending (room phase) _ _

end

theorem rotate_keyed (keyed : Keyed config session) (instanceId : List Char) (saltA saltB : Salt)
    (fresh : saltB ∉ session.salts) :
    Keyed config
      { session with
        rotation := some ⟨instanceId, saltA, saltB, .begun⟩
        salts := session.salts ++ [saltA, saltB] } :=
  { keyed with
    drawn := fun salt present => List.mem_append_left _ (keyed.drawn salt present)
    pending := fun rotation same => by
      cases same
      exact fun present => fresh (keyed.drawn saltB present)
    known := fun rotation same => by
      cases same
      exact List.mem_append_right _ (List.mem_cons_of_mem _ (List.mem_singleton_self _))
    settled := nofun }

theorem ConnKeyed.inbox {port : AsyncPort} {epoch : EpochState} {txSalts : List Salt} {conn : Conn}
    (keyed : ConnKeyed config port epoch txSalts conn) (inbox : Inbox) (closed : Bool) :
    ConnKeyed config port epoch txSalts { conn with inbox := inbox, closed := closed } :=
  ⟨keyed.known, keyed.current, keyed.past, keyed.floor, keyed.flushing⟩

section

variable (keyed : Keyed config session)

include keyed

theorem join_keyed (free : session.rotation = none) :
    Keyed config
      { session with
        conns := session.conns ++
          [⟨session.epochState.epoch, none, none, Inbox.new, false,
            session.epochState.keyRound⟩] } := by
  exact { keyed with
    conns := forall_mem_concat keyed.conns
      ⟨Nat.le_refl _, fun _ => rfl, (keyed.settled free).le, nofun, nofun⟩ }

section

variable (index : Nat) (conn : Conn)

include index conn

theorem receive_keyed (seq : Nat) (data : Bytes) (found : session.conns[index]? = some conn) :
    Keyed config (session.receive index conn seq data) := by
  have mine := keyed.conns conn (List.mem_of_getElem? found)
  unfold Session.receive
  split
  · exact keyed.setConn index _ (mine.inbox conn.inbox true)
  · exact keyed.setConn index _ (mine.inbox _ conn.closed)

theorem handleControl_keyed (checked : Checked) (progress : Option Nat)
    (found : session.conns[index]? = some conn) :
    Keyed config (session.handleControl index conn checked progress) := by
  have mine := keyed.conns conn (List.mem_of_getElem? found)
  unfold Session.handleControl
  split
  · exact keyed.setConn index _ (mine.inbox _ true)
  · split
    · exact keyed.setConn index _ (mine.inbox _ true)
    · dsimp only
      split
      · exact (keyed.stores _ _ _ _ _).setConn index _ (mine.inbox _ true)
      · exact (keyed.stores _ _ _ _ _).setConn index _ (mine.inbox _ conn.closed)

theorem handleData_keyed (checked : Checked) (single : Bool)
    (found : session.conns[index]? = some conn) :
    Keyed config (session.handleData config index conn checked single) := by
  have mine := keyed.conns conn (List.mem_of_getElem? found)
  unfold Session.handleData
  dsimp only
  split
  · exact keyed.setConn index _ (mine.inbox _ conn.closed)
  · exact { keyed with conns := forall_mem_set keyed.conns index _ (mine.inbox _ conn.closed) }

theorem feed_keyed (progress : Option Nat) (found : session.conns[index]? = some conn) :
    Keyed config (session.feed index conn progress) := by
  have mine := keyed.conns conn (List.mem_of_getElem? found)
  unfold Session.feed
  dsimp only
  split
  · split
    · exact keyed.setConn index _ (mine.inbox _ conn.closed)
    · exact { keyed with conns := forall_mem_set keyed.conns index _ (mine.inbox _ conn.closed) }
  · exact keyed.setConn index _ (mine.inbox _ conn.closed)

theorem place_keyed (clock : Nat → Nat) (single last : Bool)
    (found : session.conns[index]? = some conn) :
    Keyed config (session.place config index conn clock single last) := by
  have mine := keyed.conns conn (List.mem_of_getElem? found)
  unfold Session.place
  dsimp only
  split
  · exact keyed.setConn index _ (mine.inbox _ conn.closed)
  · exact { keyed with conns := forall_mem_set keyed.conns index _ (mine.inbox _ conn.closed) }

end

end

theorem step_keyed (label : Label) (own : DrainsOwnRound session label)
    (keyed : Keyed config session) (taken : session.step config label = some next) :
    Keyed config next := by
  cases step_stepped label taken with
  | wrote label port stepped => exact keyed.port_step stepped
  | marked place => exact keyed.stores _ _ _ _ _
  | joined free => exact join_keyed keyed free
  | registered index maxBatchFrames conn port found stepped =>
    exact register_keyed keyed index maxBatchFrames conn port found stepped
  | began index conn found free => exact flushBegin_keyed keyed index conn found free
  | popped index conn flush target backend next found running mine there popped =>
    refine flushPop_keyed keyed index conn flush target backend found running mine there ?_
      popped
    simpa only [DrainsOwnRound, found, running] using own
  | ended index failed conn flush backend next found ended =>
    exact flushEnd_keyed keyed index conn flush backend failed found ended
  | received index seq data conn found => exact receive_keyed keyed index conn seq data found
  | control index single progress conn checked found waiting =>
    exact handleControl_keyed keyed index conn checked progress found
  | data index single progress conn checked found waiting =>
    exact handleData_keyed keyed index conn checked single found
  | fed index progress conn found => exact feed_keyed keyed index conn progress found
  | placed index clock single last conn found =>
    exact place_keyed keyed index conn clock single last found
  | expired now => exact keyed.stores _ _ _ _ _
  | dropped index conn found =>
    exact keyed.setConn index _
      ((keyed.conns conn (List.mem_of_getElem? found)).inbox conn.inbox true)
  | closed index conn target port found stepped =>
    have moved := keyed.port_step stepped
    exact moved.setConn index _
      ((moved.conns conn (List.mem_of_getElem? found)).inbox conn.inbox true)
  | exhausted suffix => exact exhaust_keyed keyed suffix
  | rotated instanceId saltA saltB fresh =>
    exact rotate_keyed keyed instanceId saltA saltB fresh
  | advanced rotation writing =>
    exact advance_keyed keyed rotation writing
      (by simpa only [DrainsOwnRound, writing] using own)

theorem new_keyed (config : Config) (instanceId : List Char) (saltA saltB : Salt) :
    Keyed config (Session.new config instanceId saltA saltB) := by
  have round : (Session.new config instanceId saltA saltB).port.round = 0 := by
    unfold Session.new
    dsimp only
    split <;> rfl
  refine
    { ledger := ?_
      distinct := List.nodup_singleton _
      counted := by rw [round]; rfl
      drawn := ?_
      pending := nofun
      known := nofun
      installed := rfl
      settled := fun _ => round.symm
      past := Nat.zero_le _
      bounded := (by decide : 1 ≤ u64Max)
      sealedBy := nofun
      conns := nofun }
  · refine Ledger.blank ?_ ?_ <;> unfold Session.new <;> dsimp only <;> split <;> rfl
  · intro salt present
    rw [List.mem_singleton.mp present]
    exact List.mem_cons_of_mem _ (List.mem_singleton_self _)

/-- In every run in which no flush drains a frame numbered after a counter reset
later than its own check, and no rotation finds the epoch at its maximum, no two
data frames are sealed with the same salt and number. -/
theorem server_nonces_unique (config : Config) (instanceId : List Char) (saltA saltB : Salt)
    (labels : List Label) (final : Session)
    (reached : Runs.run (Session.step config) (Session.new config instanceId saltA saltB) labels =
      some final)
    (own : Runs.Along (Session.step config) DrainsOwnRound
      (Session.new config instanceId saltA saltB) labels) :
    (final.sealed.map fun entry => (entry.salt, entry.frame.seq)).Nodup := by
  have keyed : Keyed config final := Runs.invariant_along (Session.step config) DrainsOwnRound
    (Keyed config) (fun _ label _ guard before taken => step_keyed label guard before taken)
    _ final labels reached own (new_keyed config instanceId saltA saltB)
  refine nonces_distinct Sealing.salt Sealing.frame (fun round => final.txSalts[round]?) final.sealed
    ?_ keyed.sealedBy (List.Nodup.of_append_right keyed.ledger.unique)
  intro left right value first second
  obtain ⟨inside, here⟩ := List.getElem?_eq_some_iff.mp first
  exact (keyed.distinct.getElem_inj_iff).mp
    (here.trans (List.getElem?_eq_some_iff.mp second).2.symm)

def sampleConfig : Config := ⟨true, 0, true, fun _ => zeroTagCipher⟩

def writeCall (writer target : Nat) (payload : Payload) : List Label :=
  [.write (.enter payload), .write (.number writer), .write (.encode writer),
    .write (.attempt writer target), .write (.leave writer)]

def rotatedRun : List Label :=
  [.join, .register 0 8] ++ writeCall 0 0 samplePayload ++
    [.flushBegin 0, .flushPop 0, .flushEnd 0 false, .rotate [] 3 4, .advance, .advance, .advance,
      .advance, .advance, .advance, .join, .register 1 8] ++
    writeCall 1 1 otherPayload ++ [.flushBegin 1, .flushPop 1]

theorem server_nonces_unique_rotated : ∃ final,
    Runs.run (Session.step sampleConfig) (Session.new sampleConfig [] 1 2) rotatedRun =
        some final ∧
      final.sealed.map (fun entry => (entry.salt, entry.frame.seq)) = [(2, 1), (4, 1)] ∧
      (final.sealed.map fun entry => (entry.salt, entry.frame.seq)).Nodup := by
  have evaluated : (Runs.run (Session.step sampleConfig) (Session.new sampleConfig [] 1 2)
      rotatedRun).map (fun session =>
        session.sealed.map fun entry => (entry.salt, entry.frame.seq)) =
          some [(2, 1), (4, 1)] := by decide +kernel
  obtain ⟨final, reached, sealed⟩ := Option.map_eq_some_iff.mp evaluated
  exact ⟨final, reached, sealed,
    server_nonces_unique sampleConfig [] 1 2 rotatedRun final reached (by decide +kernel)⟩

/-- A rotation in the middle of a flush: the counter starts over while the flush
still seals with the old salt, and the next call takes number 1 again. -/
def interruptedFlush : List Label :=
  [.join, .register 0 8] ++ writeCall 0 0 samplePayload ++
    [.flushBegin 0, .flushPop 0, .rotate [] 3 4, .advance, .advance, .advance, .advance, .advance,
      .advance] ++
    writeCall 1 0 otherPayload ++ [.flushPop 0]

theorem interrupted_flush_reuses_nonce : ∃ final first second,
    Runs.run (Session.step sampleConfig) (Session.new sampleConfig [] 1 2) interruptedFlush =
        some final ∧
      final.sealed = [first, second] ∧ first.salt = second.salt ∧
      first.frame.seq = second.frame.seq ∧ first.frame.data ≠ second.frame.data := by
  have evaluated : (Runs.run (Session.step sampleConfig) (Session.new sampleConfig [] 1 2)
      interruptedFlush).map Session.sealed =
        some [⟨2, ⟨1, [7], 0⟩⟩, ⟨2, ⟨1, [8, 9], 1⟩⟩] := by decide +kernel
  obtain ⟨final, reached, sealed⟩ := Option.map_eq_some_iff.mp evaluated
  exact ⟨final, _, _, reached, sealed, rfl, rfl, by decide⟩

end Steps

end TlsVpn.Server

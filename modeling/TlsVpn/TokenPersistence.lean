import TlsVpn.RegistryTokens

/-!
The session token on the client's disk. A process restores its token from the
state file when it starts, and writes the file after a handshake unless the
response's epoch is below the one in the file. Epochs begin at 1 in every new
session, so after the server has lost a session the file can record an epoch that
the new one reaches only after several rotations; the tokens in between are not
written. Restarts of the client are safe while the session is at most one
rotation behind the file.
-/

namespace TlsVpn.Persistence

open Words Registry

section Model

/-- client_state.rs without the MAC, which the handshake does not change. -/
structure ClientState where
  clientId : List Char
  sessionId : List Char
  sessionToken : List Char
  sessionEpoch : Nat
  deriving DecidableEq

def ClientState.absent : ClientState := ⟨[], [], [], 0⟩

structure SessionState where
  serverSessionId : List Char
  sessionEpoch : Nat
  sessionToken : List Char

structure Process where
  instanceId : List Char
  identity : ClientState
  session : SessionState

def restore (clientId : List Char) (identity : ClientState) : SessionState :=
  if identity.clientId == clientId && !identity.sessionId.isEmpty then
    ⟨identity.sessionId, identity.sessionEpoch,
      if !identity.sessionToken.isEmpty then identity.sessionToken else []⟩
  else ⟨[], 0, []⟩

/-- The identity `persist_session_state` leaves, in memory and on disk. -/
def persistSessionState (clientId : List Char) (identity : ClientState)
    (sessionId token : List Char) (epoch : Nat) : ClientState :=
  if epoch < identity.sessionEpoch then identity else ⟨clientId, sessionId, token, epoch⟩

structure Pairing where
  server : Option Session
  file : ClientState
  process : Option Process

def Pairing.new : Pairing := ⟨none, .absent, none⟩

/-- A client process starts or draws a new instance; a handshake runs from the
request to the processed response; the server forgets the session when it
restarts or the session expires. -/
inductive Label where
  | start (instanceId : List Char)
  | rekey (instanceId : List Char)
  | handshake (req : HandshakeReq) (raw : Option (BitVec 256)) (sid : BitVec 128) (draws : Draws)
  | close (now : Nat)
  | exhaust (suffix : List Char)
  | forget

def Process.request (process : Process) (req : HandshakeReq) : HandshakeReq :=
  { req with
    clientInstance := process.instanceId
    sessionToken := process.session.sessionToken }

def drawing (draws : Draws) (raw : Option (BitVec 256)) (sid : BitVec 128) : Draws :=
  { draws with
    token := raw.map newSessionToken
    sessionId := hexText 32 sid.toNat }

/-- `handle_handshake` for this client: the session afterwards and the response.
A limit on the number of sessions counts as a lack of addresses here. -/
def answer (core : ServerCore) (server : Option Session) (req : HandshakeReq) (draws : Draws) :
    Option Session × Option HandshakeResp :=
  if core.admissible req draws then
    match server with
    | some session =>
      let joined := session.join core req draws
      (some joined.1, if joined.2 then some (core.response joined.1) else none)
    | none =>
      if !draws.addresses then (none, none)
      else
        match firstToken req draws with
        | none => (none, none)
        | some token =>
          (some (core.create req draws token), some (core.response (core.create req draws token)))
  else (server, none)

/-- What `dial_and_serve` does with the response. -/
def Process.respond (clientId : List Char) (process : Process) (resp : HandshakeResp) : Process :=
  { process with
    identity := persistSessionState clientId process.identity resp.sessionId resp.sessionToken
      resp.sessionEpoch
    session := ⟨resp.sessionId, resp.sessionEpoch, resp.sessionToken⟩ }

def Pairing.step (core : ServerCore) (clientId : List Char) (pairing : Pairing) :
    Label → Option Pairing
  | .start instanceId =>
    some { pairing with
      process := some ⟨instanceId, pairing.file, restore clientId pairing.file⟩ }
  | .rekey instanceId =>
    pairing.process.map fun process =>
      { pairing with process := some { process with instanceId := instanceId } }
  | .handshake req raw sid draws =>
    pairing.process.map fun process =>
      let answered := answer core pairing.server (process.request req) (drawing draws raw sid)
      match answered.2 with
      | none => { pairing with server := answered.1 }
      | some resp =>
        let after := process.respond clientId resp
        ⟨answered.1, after.identity, some after⟩
  | .close now =>
    pairing.server.map fun session => { pairing with server := some (session.uncount now) }
  | .exhaust suffix =>
    pairing.server.map fun session => { pairing with server := some (session.exhaust suffix) }
  | .forget => some { pairing with server := none }

/-- A handshake that would turn the epoch does so on a session at most one
rotation behind the state file. -/
def Pairing.abreast (pairing : Pairing) : Label → Bool
  | .handshake _ _ _ _ =>
    match pairing.server, pairing.process with
    | some session, some process =>
      session.epochState.instanceId == process.instanceId ||
        decide (pairing.file.sessionEpoch ≤ saturatingAdd session.epochState.epoch 1)
    | _, _ => true
  | _ => true

end Model

section Invariant

/-- The session and the token on disk: it is one of the session's two, and the
current one while the file is ahead. -/
structure Matches (file : ClientState) (session : Session) : Prop where
  token : file.sessionToken = session.epochState.resumeToken ∨
    file.sessionToken = session.epochState.pendingResumeToken ∧
      session.epochState.pendingResumeToken ≠ []
  resume : validSessionTokenFormat session.epochState.resumeToken = true
  pending : session.epochState.pendingResumeToken ≠ [] →
    validSessionTokenFormat session.epochState.pendingResumeToken = true
  ahead : session.epochState.epoch < file.sessionEpoch →
    session.epochState.pendingResumeToken = [] ∧
      file.sessionToken = session.epochState.resumeToken
  named : session.sessionId ≠ []
  bounded : session.epochState.epoch ≤ u64Max

def Written (clientId : List Char) (file : ClientState) : Prop :=
  file.sessionToken = [] ∧ file.sessionEpoch = 0 ∨
    file.clientId = clientId ∧ file.sessionId ≠ [] ∧
      validSessionTokenFormat file.sessionToken = true

structure Kept (clientId : List Char) (pairing : Pairing) : Prop where
  mirror : ∀ process, pairing.process = some process → process.identity = pairing.file
  memory : ∀ process, pairing.process = some process →
    process.session.sessionToken = pairing.file.sessionToken
  written : Written clientId pairing.file
  server : ∀ session, pairing.server = some session → Matches pairing.file session

variable {core : ServerCore} {clientId : List Char} {file : ClientState} {session after : Session}
  {req : HandshakeReq} {draws : Draws} {raw : Option (BitVec 256)} {sid : BitVec 128}
variable {rotated answered : Bool}

theorem restore_token (written : Written clientId file) :
    (restore clientId file).sessionToken = file.sessionToken := by
  unfold restore
  rcases written with ⟨empty, -⟩ | ⟨own, named, valid⟩
  · rw [empty]
    split <;> rfl
  · have full : file.sessionToken ≠ [] := valid_nonempty valid
    simp [own, named, full]

theorem new_kept : Kept clientId Pairing.new := by
  refine ⟨?_, ?_, Or.inl ⟨rfl, rfl⟩, ?_⟩
  · intro process running
    cases running
  · intro process running
    cases running
  · intro session listed
    cases listed

theorem saturating_bounds (epoch : Nat) (bounded : epoch ≤ u64Max) :
    epoch ≤ saturatingAdd epoch 1 ∧ saturatingAdd epoch 1 ≤ u64Max := by
  unfold saturatingAdd
  omega

theorem Matches.later (matched : Matches file session)
    (resume : after.epochState.resumeToken = session.epochState.resumeToken)
    (pending : after.epochState.pendingResumeToken = session.epochState.pendingResumeToken)
    (epoch : session.epochState.epoch ≤ after.epochState.epoch)
    (named : after.sessionId = session.sessionId)
    (bounded : after.epochState.epoch ≤ u64Max) : Matches file after := by
  refine ⟨?_, ?_, ?_, ?_, ?_, bounded⟩
  · rw [resume, pending]
    exact matched.token
  · rw [resume]
    exact matched.resume
  · rw [pending]
    exact matched.pending
  · rw [resume, pending]
    intro behind
    exact matched.ahead (Nat.lt_of_le_of_lt epoch behind)
  · rw [named]
    exact matched.named

theorem exhaust_matches (matched : Matches file session) (suffix : List Char) :
    Matches file (session.exhaust suffix) := by
  unfold Session.exhaust
  split
  · exact matched
  · have bounds := saturating_bounds session.epochState.epoch matched.bounded
    exact matched.later rfl rfl bounds.1 rfl bounds.2

theorem join_sessionId : (session.join core req draws).1.sessionId = session.sessionId := by
  have joined := @join_joined core session req draws
  generalize session.join core req draws = result at joined ⊢
  obtain ⟨after, counted⟩ := result
  cases joined <;> rfl

theorem turned_valid {state : SessionEpochState} {presented resume pending : List Char}
    {fresh : Option (List Char)}
    (turned : Turned state presented fresh rotated answered resume pending)
    (drawn : ∀ token, fresh = some token → validSessionTokenFormat token = true)
    (current : validSessionTokenFormat state.resumeToken = true)
    (waiting : state.pendingResumeToken ≠ [] →
      validSessionTokenFormat state.pendingResumeToken = true) :
    validSessionTokenFormat resume = true ∧
      (pending ≠ [] → validSessionTokenFormat pending = true) := by
  cases turned with
  | kept => exact ⟨current, waiting⟩
  | promoted _ _ shown =>
    exact ⟨waiting (presentsPending_eq shown).2, fun never => absurd rfl never⟩
  | prepared _ fresh => exact ⟨current, fun _ => drawn _ fresh⟩
  | renewed _ fresh shown => exact ⟨waiting (presentsPending_eq shown).2, fun _ => drawn _ fresh⟩

theorem drawing_valid (token : List Char) (drawn : (drawing draws raw sid).token = some token) :
    validSessionTokenFormat token = true := by
  obtain ⟨bytes, -, rfl⟩ := Option.map_eq_some_iff.mp drawn
  exact newSessionToken_valid bytes

theorem response_one_of (state : SessionEpochState) :
    responseResumeToken state = state.resumeToken ∨
      responseResumeToken state = state.pendingResumeToken ∧ state.pendingResumeToken ≠ [] := by
  unfold responseResumeToken
  split
  · exact Or.inl rfl
  · rename_i waits
    exact Or.inr ⟨rfl, fun empty => waits (by rw [empty]; rfl)⟩

section

variable (matched : Matches file session)

include matched

theorem exchanged_epoch (exchanged : Exchanged session req draws after answered rotated) :
    session.epochState.epoch ≤ after.epochState.epoch ∧ after.epochState.epoch ≤ u64Max := by
  rw [exchanged.epoch]
  split
  · exact saturating_bounds session.epochState.epoch matched.bounded
  · exact ⟨Nat.le_refl _, matched.bounded⟩

theorem unanswered_matches (exchanged : Exchanged session req draws after false rotated)
    (drawn : ∀ token, draws.token = some token → validSessionTokenFormat token = true)
    (presents : req.sessionToken = file.sessionToken) (named : after.sessionId = session.sessionId) :
    Matches file after := by
  obtain ⟨later, bounded⟩ := exchanged_epoch matched exchanged
  obtain ⟨valid, validPending⟩ := turned_valid exchanged.tokens drawn matched.resume matched.pending
  have tokens := exchanged.tokens
  rw [presents] at tokens
  refine ⟨?_, valid, validPending, ?_, by rw [named]; exact matched.named, bounded⟩
  · generalize after.epochState.resumeToken = resume at tokens ⊢
    generalize after.epochState.pendingResumeToken = pending at tokens ⊢
    cases tokens with
    | kept => exact matched.token
    | promoted _ _ shown => exact Or.inl (presentsPending_eq shown).1.symm
  · intro behind
    obtain ⟨empty, current⟩ := matched.ahead (Nat.lt_of_le_of_lt later behind)
    generalize after.epochState.resumeToken = resume at tokens ⊢
    generalize after.epochState.pendingResumeToken = pending at tokens ⊢
    cases tokens with
    | kept => exact ⟨empty, current⟩
    | promoted _ _ shown => exact absurd empty (presentsPending_eq shown).2

theorem written_matches (exchanged : Exchanged session req draws after true rotated)
    (drawn : ∀ token, draws.token = some token → validSessionTokenFormat token = true)
    (named : after.sessionId = session.sessionId) :
    Matches ⟨clientId, after.sessionId, responseResumeToken after.epochState, after.epochState.epoch⟩
      after := by
  obtain ⟨-, bounded⟩ := exchanged_epoch matched exchanged
  obtain ⟨valid, validPending⟩ := turned_valid exchanged.tokens drawn matched.resume matched.pending
  exact ⟨response_one_of after.epochState, valid, validPending,
    fun behind => absurd behind (Nat.lt_irrefl _), by rw [named]; exact matched.named, bounded⟩

/-- An answer that is not written: the epoch did not turn, no token was pending,
and the response repeats the current one. -/
theorem skipped_matches (exchanged : Exchanged session req draws after true false)
    (skipped : after.epochState.epoch < file.sessionEpoch)
    (named : after.sessionId = session.sessionId) :
    Matches file after ∧ responseResumeToken after.epochState = file.sessionToken := by
  have same : after.epochState.epoch = session.epochState.epoch := exchanged.epoch
  obtain ⟨empty, current⟩ := matched.ahead (same ▸ skipped)
  have tokens : after.epochState.resumeToken = session.epochState.resumeToken ∧
      after.epochState.pendingResumeToken = session.epochState.pendingResumeToken := by
    have turned := exchanged.tokens
    generalize after.epochState.resumeToken = resume at turned ⊢
    generalize after.epochState.pendingResumeToken = pending at turned ⊢
    cases turned with
    | kept => exact ⟨rfl, rfl⟩
    | promoted _ _ shown => exact absurd empty (presentsPending_eq shown).2
  refine ⟨matched.later tokens.1 tokens.2 (Nat.le_of_eq same.symm) named (same ▸ matched.bounded), ?_⟩
  unfold responseResumeToken
  rw [tokens.2, empty, tokens.1, current]
  rfl

end

end Invariant

section Steps

variable {core : ServerCore} {clientId : List Char} {pairing : Pairing} {session : Session}
  {process : Process} {req : HandshakeReq} {draws : Draws} {raw : Option (BitVec 256)}
  {sid : BitVec 128}

def Pairing.taken (core : ServerCore) (clientId : List Char) (file : ClientState)
    (process : Process) (after : Session) : Pairing :=
  ⟨some after, persistSessionState clientId file after.sessionId
      (responseResumeToken after.epochState) after.epochState.epoch,
    some (process.respond clientId (core.response after))⟩

variable {file : ClientState} {after : Session}

section

variable (mirror : process.identity = file)

include mirror

theorem written_kept
    (matched : Matches ⟨clientId, after.sessionId, responseResumeToken after.epochState,
      after.epochState.epoch⟩ after) (due : ¬ after.epochState.epoch < file.sessionEpoch) :
    Kept clientId (Pairing.taken core clientId file process after) := by
  have saved : persistSessionState clientId file after.sessionId
      (responseResumeToken after.epochState) after.epochState.epoch =
        ⟨clientId, after.sessionId, responseResumeToken after.epochState, after.epochState.epoch⟩ :=
    if_neg due
  have valid : validSessionTokenFormat (responseResumeToken after.epochState) = true := by
    rcases matched.token with same | ⟨same, waits⟩
    · rw [show responseResumeToken after.epochState = _ from same]
      exact matched.resume
    · rw [show responseResumeToken after.epochState = _ from same]
      exact matched.pending waits
  unfold Pairing.taken
  rw [saved]
  refine ⟨?_, ?_, Or.inr ⟨rfl, matched.named, valid⟩, ?_⟩
  · rintro _ ⟨⟩
    rw [← saved, ← mirror]
    rfl
  · rintro _ ⟨⟩
    rfl
  · rintro _ ⟨⟩
    exact matched

theorem skipped_kept (written : Written clientId file) (matched : Matches file after)
    (repeats : responseResumeToken after.epochState = file.sessionToken)
    (skipped : after.epochState.epoch < file.sessionEpoch) :
    Kept clientId (Pairing.taken core clientId file process after) := by
  have same : persistSessionState clientId file after.sessionId
      (responseResumeToken after.epochState) after.epochState.epoch = file := if_pos skipped
  unfold Pairing.taken
  rw [same]
  refine ⟨?_, ?_, written, ?_⟩
  · rintro _ ⟨⟩
    rw [← same, ← mirror]
    rfl
  · rintro _ ⟨⟩
    exact repeats
  · rintro _ ⟨⟩
    exact matched

theorem created_kept {token : List Char} (memory : process.session.sessionToken = file.sessionToken)
    (written : Written clientId file)
    (first : firstToken (process.request req) (drawing draws raw sid) = some token) :
    Kept clientId (Pairing.taken core clientId file process
      (core.create (process.request req) (drawing draws raw sid) token)) := by
  have named : hexText 32 sid.toNat ≠ [] := by
    intro empty
    have long := hexText_length 32 sid.toNat
    rw [empty] at long
    cases long
  unfold firstToken at first
  split at first
  · rename_i valid
    cases first
    have shown : (process.request req).sessionToken = file.sessionToken := memory
    by_cases skipped : 1 < file.sessionEpoch
    · refine skipped_kept mirror written ?_ shown skipped
      exact ⟨Or.inl shown.symm, valid, fun never => absurd rfl never,
        fun _ => ⟨rfl, shown.symm⟩, named, (by decide : 1 ≤ u64Max)⟩
    · refine written_kept mirror ?_ skipped
      exact ⟨Or.inl rfl, valid, fun never => absurd rfl never,
        fun behind => absurd behind (Nat.lt_irrefl _), named, (by decide : 1 ≤ u64Max)⟩
  · rename_i malformed
    have valid := drawing_valid token first
    refine written_kept mirror ?_ ?_
    · exact ⟨Or.inl rfl, valid, fun never => absurd rfl never,
        fun behind => absurd behind (Nat.lt_irrefl _), named, (by decide : 1 ≤ u64Max)⟩
    · -- a file that was written would have supplied a well-formed token
      rcases written with ⟨-, zero⟩ | ⟨-, -, wellFormed⟩
      · rw [zero]
        exact Nat.not_lt_zero _
      · rw [← memory] at wellFormed
        exact absurd wellFormed malformed

end

section

variable (kept : Kept clientId pairing) (running : pairing.process = some process)

include kept running

theorem joined_kept (there : pairing.server = some session)
    (abreast : session.epochState.instanceId = process.instanceId ∨
      pairing.file.sessionEpoch ≤ saturatingAdd session.epochState.epoch 1) :
    let joined := session.join core (process.request req) (drawing draws raw sid)
    Kept clientId (if joined.2 then
        Pairing.taken core clientId pairing.file process joined.1
      else { pairing with server := some joined.1 }) := by
  intro joined
  have mirror := kept.mirror process running
  have matched := kept.server session there
  have named : joined.1.sessionId = session.sessionId := join_sessionId
  obtain ⟨rotated, exchanged⟩ := @join_exchanged core session (process.request req)
    (drawing draws raw sid)
  change Exchanged _ _ _ joined.1 joined.2 rotated at exchanged
  cases answered : joined.2 with
  | false =>
    rw [answered] at exchanged
    refine ⟨kept.mirror, kept.memory, kept.written, ?_⟩
    rintro _ ⟨⟩
    exact unanswered_matches matched exchanged drawing_valid (kept.memory process running) named
  | true =>
    rw [answered] at exchanged
    by_cases skipped : joined.1.epochState.epoch < pairing.file.sessionEpoch
    · cases rotated with
      | true =>
        -- a rotation reaches the epoch on disk
        have turned : joined.1.epochState.epoch = saturatingAdd session.epochState.epoch 1 :=
          exchanged.epoch
        rcases abreast with same | reach
        · exact absurd same (exchanged.other rfl)
        · exact absurd skipped (Nat.not_lt.mpr (turned ▸ reach))
      | false =>
        obtain ⟨after, repeats⟩ := skipped_matches matched exchanged skipped named
        exact skipped_kept mirror kept.written after repeats skipped
    · exact written_kept mirror (written_matches matched exchanged drawing_valid named) skipped

theorem handshake_kept (abreast : pairing.abreast (.handshake req raw sid draws) = true) :
    Kept clientId
      (let answered := answer core pairing.server (process.request req) (drawing draws raw sid)
      match answered.2 with
      | none => { pairing with server := answered.1 }
      | some resp => ⟨answered.1, (process.respond clientId resp).identity,
          some (process.respond clientId resp)⟩) := by
  have mirror := kept.mirror process running
  unfold answer
  by_cases passes : core.admissible (process.request req) (drawing draws raw sid) = true
  · rw [if_pos passes]
    cases there : pairing.server with
    | some session =>
      simp only [Pairing.abreast, there, running, Bool.or_eq_true, beq_iff_eq,
        decide_eq_true_eq] at abreast
      have next := @joined_kept core clientId pairing session process req draws raw sid kept running
        there abreast
      dsimp only at next ⊢
      cases counted : (session.join core (process.request req) (drawing draws raw sid)).2 with
      | true =>
        rw [counted, if_pos rfl, Pairing.taken, ← mirror] at next
        exact next
      | false =>
        rw [counted, if_neg Bool.false_ne_true] at next
        exact next
    | none =>
      have unchanged : ({ pairing with server := none } : Pairing) = pairing := by rw [← there]
      by_cases crowded : (!(drawing draws raw sid).addresses) = true
      · simp only [if_pos crowded]
        rw [unchanged]
        exact kept
      · simp only [if_neg crowded]
        cases first : firstToken (process.request req) (drawing draws raw sid) with
        | none =>
          dsimp only
          rw [unchanged]
          exact kept
        | some token =>
          have next := @created_kept core clientId process req draws raw sid pairing.file mirror
            token (kept.memory process running) kept.written first
          rw [Pairing.taken, ← mirror] at next
          exact next
  · rw [if_neg passes]
    exact kept

end

theorem step_kept (label : Label) (next : Pairing) (abreast : pairing.abreast label = true)
    (kept : Kept clientId pairing) (taken : pairing.step core clientId label = some next) :
    Kept clientId next := by
  cases label with
  | start instanceId =>
    cases taken
    refine ⟨?_, ?_, kept.written, kept.server⟩
    · rintro _ ⟨⟩
      rfl
    · rintro _ ⟨⟩
      exact restore_token kept.written
  | rekey instanceId =>
    obtain ⟨process, running, rfl⟩ := Option.map_eq_some_iff.mp taken
    refine ⟨?_, ?_, kept.written, kept.server⟩
    · rintro _ ⟨⟩
      exact kept.mirror process running
    · rintro _ ⟨⟩
      exact kept.memory process running
  | handshake req raw sid draws =>
    obtain ⟨process, running, rfl⟩ := Option.map_eq_some_iff.mp taken
    exact handshake_kept kept running abreast
  | close now =>
    obtain ⟨session, there, rfl⟩ := Option.map_eq_some_iff.mp taken
    refine ⟨kept.mirror, kept.memory, kept.written, ?_⟩
    rintro _ ⟨⟩
    have matched := kept.server session there
    obtain ⟨version, deadline, left⟩ := uncount_left session now
    rw [left]
    exact matched.later rfl rfl (Nat.le_refl _) rfl matched.bounded
  | exhaust suffix =>
    obtain ⟨session, there, rfl⟩ := Option.map_eq_some_iff.mp taken
    refine ⟨kept.mirror, kept.memory, kept.written, ?_⟩
    rintro _ ⟨⟩
    exact exhaust_matches (kept.server session there) suffix
  | forget =>
    cases taken
    refine ⟨kept.mirror, kept.memory, kept.written, ?_⟩
    rintro _ ⟨⟩

/-- Over every run in which epochs turn only on sessions at most one rotation
behind the state file: while the server has a session, the token on disk is its
current or its pending one, and a process that starts now presents a token that
is accepted for a new instance. -/
theorem persisted_token_accepted (core : ServerCore) (clientId : List Char) (labels : List Label)
    (final : Pairing)
    (reached : Runs.run (Pairing.step core clientId) Pairing.new labels = some final)
    (abreast : Runs.Along (Pairing.step core clientId)
      (fun pairing label => pairing.abreast label = true) Pairing.new labels)
    (session : Session) (there : final.server = some session) :
    (final.file.sessionToken = session.epochState.resumeToken ∨
      final.file.sessionToken = session.epochState.pendingResumeToken ∧
        session.epochState.pendingResumeToken ≠ []) ∧
    (acceptSessionResumeToken session.epochState
      (restore clientId final.file).sessionToken).2 = true := by
  have kept : Kept clientId final :=
    Runs.invariant_along (Pairing.step core clientId) _ (Kept clientId)
      (fun _ label next holds kept taken => step_kept label next holds kept taken) Pairing.new final
      labels reached abreast new_kept
  have matched := kept.server session there
  rw [restore_token kept.written]
  refine ⟨matched.token, accept_known matched.token (valid_length matched.resume) ?_⟩
  exact fun waits => valid_length (matched.pending waits)

end Steps

section Restarts

def startAndJoin (instanceId : List Char) (raw : BitVec 256) : List Label :=
  [.start instanceId, .handshake (sampleReq []) (some raw) 7 sampleDraws]

def Pairing.view (clientId : List Char) (pairing : Pairing) : Option (List (List Char) × Bool) :=
  pairing.server.map fun session =>
    ([pairing.file.sessionToken, session.epochState.resumeToken,
        session.epochState.pendingResumeToken],
      (acceptSessionResumeToken session.epochState
        (restore clientId pairing.file).sessionToken).2)

theorem reach_view (labels : List Label) (value : List (List Char) × Bool)
    (evaluated : (Runs.run (Pairing.step plainCore ['c']) Pairing.new labels).bind
      (Pairing.view ['c']) = some value) :
    ∃ final session, Runs.run (Pairing.step plainCore ['c']) Pairing.new labels = some final ∧
      final.server = some session ∧
      ([final.file.sessionToken, session.epochState.resumeToken,
          session.epochState.pendingResumeToken],
        (acceptSessionResumeToken session.epochState
          (restore ['c'] final.file).sessionToken).2) = value := by
  obtain ⟨final, reached, seen⟩ := Option.bind_eq_some_iff.mp evaluated
  obtain ⟨session, there, value⟩ := Option.map_eq_some_iff.mp seen
  exact ⟨final, session, reached, there, value⟩

def oneRestart : List Label :=
  startAndJoin ['o'] 1 ++ startAndJoin ['p'] 2 ++
    [.forget, .handshake (sampleReq []) none 8 sampleDraws] ++ startAndJoin ['q'] 3

theorem persisted_token_accepted_oneRestart : ∃ final session,
    Runs.run (Pairing.step plainCore ['c']) Pairing.new oneRestart = some final ∧
      final.server = some session ∧
      (final.file.sessionToken = session.epochState.resumeToken ∨
        final.file.sessionToken = session.epochState.pendingResumeToken ∧
          session.epochState.pendingResumeToken ≠ []) := by
  obtain ⟨final, session, reached, there, -⟩ := reach_view oneRestart
    ([newSessionToken 3, newSessionToken 2, newSessionToken 3], true) (by decide +kernel)
  exact ⟨final, session, reached, there,
    (persisted_token_accepted plainCore ['c'] oneRestart final reached (by decide +kernel) session
      there).1⟩

/-- Two restarts of the client bring the file to epoch 3. The server restarts; the
client restarts once more, and a second connection of that process promotes a
token that was not written. -/
def fileAhead : List Label :=
  startAndJoin ['o'] 1 ++ startAndJoin ['p'] 2 ++ startAndJoin ['q'] 3 ++
    [.forget, .handshake (sampleReq []) none 8 sampleDraws] ++ startAndJoin ['r'] 4 ++
    [.handshake (sampleReq []) none 9 sampleDraws]

/-- All responses were delivered, and the token on disk is neither the current nor
a pending one: a process that starts now is refused. -/
theorem fileAhead_locked_out : ∃ final session,
    Runs.run (Pairing.step plainCore ['c']) Pairing.new fileAhead = some final ∧
      final.server = some session ∧
      final.file.sessionToken ≠ session.epochState.resumeToken ∧
      final.file.sessionToken ≠ session.epochState.pendingResumeToken ∧
      (acceptSessionResumeToken session.epochState
        (restore ['c'] final.file).sessionToken).2 = false := by
  obtain ⟨final, session, reached, there, seen⟩ := reach_view fileAhead
    ([newSessionToken 3, newSessionToken 4, []], false) (by decide +kernel)
  obtain ⟨tokens, refused⟩ := Prod.mk.injEq .. ▸ seen
  simp only [List.cons.injEq, and_true] at tokens
  obtain ⟨file, resume, pending⟩ := tokens
  refine ⟨final, session, reached, there, ?_, ?_, refused⟩
  · rw [file, resume]
    decide +kernel
  · rw [file, pending]
    decide +kernel

end Restarts

end TlsVpn.Persistence

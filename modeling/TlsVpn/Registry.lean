import TlsVpn.Sealing

/-!
The session table of server.rs: handshakes that create, join or rotate a session,
connections that close, the timer's exhaustion branch, and the reaper. Workers
run concurrently. A handshake is a section under the write lock of the table,
then the steps after it; closing compares the epoch in one step and decrements in
another; the reaper collects in one section and destroys in others.

Sessions keep their place for good and are `listed` while the table has them; a
worker that holds one goes on with it after it was removed. The checks of a
handshake on credentials, formats and the ban list, the address pools and the
random source are left to the label. A receive actor stands as the decoder it
owns. `reaped` logs what the reaper removed and how many connections were counted
then. Rates, peer information, the switch and the panel are not modelled.
-/

namespace TlsVpn.Registry

open Words XorBytes Fec Port

section Core

/-- The settings of `ServerCore` that handshakes read. The configuration keeps
the accepted group sizes within the protocol's. -/
structure ServerCore where
  encrypt : Bool
  encAlgo : Nat
  maxSessions : Int
  fecGroupMin : Int
  fecGroupMax : Int
  least : (fecMinGroup : Int) ≤ fecGroupMin
  most : fecGroupMax ≤ (fecMaxGroup : Int)
  /-- `InnerCipher::domain_for_algo` for the domain "fec". -/
  fecCipher : Salt → InnerCipher

def ServerCore.fecIc (core : ServerCore) (salt : Salt) : Option InnerCipher :=
  if core.encrypt then some (core.fecCipher salt) else none

structure HandshakeReq where
  clientId : List Char
  mac : List Char
  clientInstance : List Char
  encAlgo : Nat
  fec : Bool
  fecGroup : Int
  brutalConns : Int
  sessionToken : List Char

/-- What a handshake meets outside the table: whether its credentials and formats
pass, whether both pools have an address, whether the ciphers of a rotation can
be set up, and the random source, which may fail for a token. -/
structure Draws where
  authentic : Bool
  addresses : Bool
  cipher : Bool
  token : Option (List Char)
  sessionId : List Char
  saltA : Salt
  saltB : Salt

def ServerCore.admissible (core : ServerCore) (req : HandshakeReq) (draws : Draws) : Bool :=
  draws.authentic && !(core.encrypt && req.encAlgo != core.encAlgo) &&
    !(req.fec && (decide (req.fecGroup < core.fecGroupMin) ||
      decide (req.fecGroup > core.fecGroupMax)))

end Core

section Session

structure SessionEpochState where
  instanceId : List Char
  epoch : Nat
  resumeToken : List Char
  pendingResumeToken : List Char
  encAlgo : Nat
  saltA : Salt
  saltB : Salt
  fecDec : Option FecDecoder

structure Session where
  clientId : List Char
  mac : List Char
  sessionId : List Char
  fecEncK : Int
  rxActor : Option (Option FecDecoder)
  epochState : SessionEpochState
  activeConns : Nat
  disconnectVersion : Nat
  /-- The deadline and the `disconnect_version` it was armed with. -/
  destroyDeadline : Option (Nat × Nat)
  /-- `port.is_sequence_exhausted()`. -/
  sequenceExhausted : Bool
  listed : Bool

def Session.receiving (session : Session) : Option FecDecoder :=
  match session.rxActor with
  | some decoder => decoder
  | none => session.epochState.fecDec

def hexToken (token : List Char) : Bool :=
  token.all fun char =>
    ('0' ≤ char && char ≤ '9') || ('a' ≤ char && char ≤ 'f') || ('A' ≤ char && char ≤ 'F')

def validSessionTokenFormat (token : List Char) : Bool := token.length == 64 && hexToken token

def verifyRandomSessionToken (stored want : List Char) : Bool :=
  stored.length == 64 && want.length == 64 && stored == want

/-- The pending token becomes the current one once the client presents it. -/
def SessionEpochState.promote (state : SessionEpochState) : SessionEpochState :=
  { state with resumeToken := state.pendingResumeToken, pendingResumeToken := [] }

def presentsPending (state : SessionEpochState) (presented : List Char) : Bool :=
  !state.pendingResumeToken.isEmpty && verifyRandomSessionToken state.pendingResumeToken presented

def acceptSessionResumeToken (state : SessionEpochState) (presented : List Char) :
    SessionEpochState × Bool :=
  if verifyRandomSessionToken state.resumeToken presented then (state, true)
  else if presentsPending state presented then (state.promote, true)
  else (state, false)

/-- `none` is the failure of the random source. -/
def ensurePendingResumeToken (state : SessionEpochState) (token : Option (List Char)) :
    Option SessionEpochState :=
  if state.pendingResumeToken.isEmpty then
    token.map fun fresh => { state with pendingResumeToken := fresh }
  else some state

def responseResumeToken (state : SessionEpochState) : List Char :=
  if state.pendingResumeToken.isEmpty then state.resumeToken else state.pendingResumeToken

/-- `FecDecoder::new` with the session's group size, if it has one. -/
def ServerCore.newDecoder (core : ServerCore) (fecEncK : Int) (saltA : Salt) : Option FecDecoder :=
  if fecEncK > 0 then some (FecDecoder.new fecEncK.toNat (core.fecIc saltA)) else none

def ServerCore.rotated (core : ServerCore) (session : Session) (instanceId : List Char)
    (saltA saltB : Salt) : Session :=
  { session with
    rxActor := session.rxActor.map fun _ => core.newDecoder session.fecEncK saltA
    activeConns := 0
    sequenceExhausted := false
    epochState := { session.epochState with
      instanceId := instanceId
      epoch := saturatingAdd session.epochState.epoch 1
      saltA := saltA
      saltB := saltB
      fecDec := if session.rxActor.isNone then core.newDecoder session.fecEncK saltA else none } }

def rotateSessionEpoch (core : ServerCore) (session : Session) (instanceId : List Char)
    (draws : Draws) : Option Session :=
  if core.encrypt && !draws.cipher then none
  else some (core.rotated session instanceId draws.saltA draws.saltB)

/-- From the revival on: clear the deadline, check the limit, count. The flag says
whether the connection was counted. -/
def Session.count (session : Session) : Session × Bool :=
  let revived := { session with destroyDeadline := none }
  -- a refusal at the limit does not bring the deadline back
  if revived.activeConns ≥ 16 then (revived, false)
  else ({ revived with activeConns := wrappingAdd revived.activeConns 1 }, true)

def Session.join (core : ServerCore) (session : Session) (req : HandshakeReq) (draws : Draws) :
    Session × Bool :=
  if req.mac ≠ session.mac then (session, false)
  else if session.epochState.encAlgo ≠ req.encAlgo then (session, false)
  else if session.epochState.instanceId ≠ req.clientInstance then
    let accepted := acceptSessionResumeToken session.epochState req.sessionToken
    let checked := { session with epochState := accepted.1 }
    if !accepted.2 then (checked, false)
    else
      match rotateSessionEpoch core checked req.clientInstance draws with
      | none => (checked, false)
      | some rotated =>
        match ensurePendingResumeToken rotated.epochState draws.token with
        -- refused, but the epoch has turned and the counter is 0
        | none => (rotated, false)
        | some pending => { rotated with epochState := pending }.count
  else
    { session with
      epochState :=
        if presentsPending session.epochState req.sessionToken then session.epochState.promote
        else session.epochState }.count

def ServerCore.create (core : ServerCore) (req : HandshakeReq) (draws : Draws)
    (resumeToken : List Char) : Session :=
  let fecEncK := if req.fec then req.fecGroup else 0
  let decoder := core.newDecoder fecEncK draws.saltA
  let multiRx := decide (req.brutalConns > 1)
  { clientId := req.clientId
    mac := req.mac
    sessionId := draws.sessionId
    fecEncK := fecEncK
    -- later handshakes of this session declare other counts to no effect
    rxActor := if multiRx then some decoder else none
    epochState :=
      { instanceId := req.clientInstance
        epoch := 1
        resumeToken := resumeToken
        pendingResumeToken := []
        encAlgo := if core.encrypt then core.encAlgo else 0
        saltA := draws.saltA
        saltB := draws.saltB
        fecDec := if multiRx then none else decoder }
    activeConns := 1
    disconnectVersion := 0
    destroyDeadline := none
    sequenceExhausted := false
    listed := true }

def firstToken (req : HandshakeReq) (draws : Draws) : Option (List Char) :=
  if validSessionTokenFormat req.sessionToken then some req.sessionToken else draws.token

def exhaustedMark : List Char := "exhausted-".toList

def Session.exhaust (session : Session) (suffix : List Char) : Session :=
  if exhaustedMark.isPrefixOf session.epochState.instanceId then session
  else
    { session with
      activeConns := 0
      epochState := { session.epochState with
        instanceId := exhaustedMark ++ suffix
        epoch := saturatingAdd session.epochState.epoch 1 } }

/-- `set_static_single_path` after the section. -/
def Session.prepare (session : Session) : Session :=
  match session.rxActor with
  | some _ => session
  | none =>
    { session with
      epochState := { session.epochState with
        fecDec := session.epochState.fecDec.map fun decoder => decoder.setStaticSinglePath true } }

def retention : Nat := 120000000000

def Session.uncount (session : Session) (now : Nat) : Session :=
  let version := (session.disconnectVersion + 1) % 18446744073709551616
  let fewer := { session with activeConns := wrappingSub session.activeConns 1 }
  -- `fetch_sub` answers the old value: a counter that wraps arms the deadline too
  if session.activeConns ≤ 1 then
    { fewer with
      disconnectVersion := version
      destroyDeadline := some (now + retention, version) }
  else fewer

def Session.expired (session : Session) (now : Nat) : Bool :=
  session.activeConns == 0 &&
    match session.destroyDeadline with
    | some (deadline, version) => version == session.disconnectVersion && decide (deadline ≤ now)
    | none => false

structure Frame where
  seq : Nat
  data : Bytes
  expected : Nat

def Frame.feedActor (frame : Frame) (decoder : FecDecoder) : FecDecoder :=
  if frame.seq = 0 then (decoder.onControlActor frame.data frame.expected).1
  else (decoder.onDataActor frame.seq frame.data frame.expected).1

def Frame.feedShared (frame : Frame) (decoder : FecDecoder) : FecDecoder :=
  if frame.seq = 0 then
    (decoder.onControl frame.data (some frame.expected) (some frame.expected)).1
  else (decoder.onData frame.seq frame.data (some frame.expected)).1

def Session.feed (session : Session) (frame : Frame) : Session :=
  match session.rxActor with
  | some decoder => { session with rxActor := some (decoder.map frame.feedActor) }
  | none =>
    { session with
      epochState := { session.epochState with
        fecDec := session.epochState.fecDec.map frame.feedShared } }

end Session

section Table

/-- `hex::encode` of a salt. -/
def hexSalt (salt : Salt) : List Char :=
  (List.range 16).map fun place => Nat.digitChar (salt.toNat / 16 ^ (15 - place) % 16)

structure HandshakeResp where
  sessionId : List Char
  sessionEpoch : Nat
  fecGroup : Int
  encrypt : Bool
  encAlgo : Nat
  encSalt : List Char
  encSalt2 : List Char
  sessionToken : List Char
  deriving DecidableEq

def ServerCore.response (core : ServerCore) (session : Session) : HandshakeResp where
  sessionId := session.sessionId
  sessionEpoch := session.epochState.epoch
  fecGroup := session.fecEncK
  encrypt := core.encrypt
  encAlgo := session.epochState.encAlgo
  encSalt := if isInnerAeadAlgo session.epochState.encAlgo then hexSalt session.epochState.saltA
    else []
  encSalt2 := if isInnerAeadAlgo session.epochState.encAlgo then hexSalt session.epochState.saltB
    else []
  sessionToken := responseResumeToken session.epochState

/-- Where a connection stands: counted in the section, past
`set_static_single_path`, up with the epoch of its snapshot, past the epoch
comparison of `on_conn_closed`, and gone. -/
inductive Stage where
  | counted
  | prepared
  | up
  | closing
  | closed
  deriving DecidableEq

structure Conn where
  session : Nat
  stage : Stage
  sessionEpoch : Nat
  response : Option HandshakeResp
  deriving DecidableEq

structure Table where
  sessions : List Session
  conns : List Conn
  /-- What scans have collected and no `destroy_session` call has taken yet. -/
  expired : List Nat
  reaped : List (Nat × Nat)

def Table.new : Table := ⟨[], [], [], []⟩

def Table.find (table : Table) (clientId : List Char) : Option Nat :=
  table.sessions.findIdx? fun session => session.listed && session.clientId == clientId

def Table.setSession (table : Table) (index : Nat) (session : Session) : Table :=
  { table with sessions := table.sessions.set index session }

def Table.setConn (table : Table) (index : Nat) (conn : Conn) : Table :=
  { table with conns := table.conns.set index conn }

def Table.addConn (table : Table) (session : Nat) : Table :=
  { table with conns := table.conns ++ [⟨session, .counted, 0, none⟩] }

/-- `sessions.len() >= max_sessions`, if there is a limit. -/
def Table.full (core : ServerCore) (table : Table) : Bool :=
  decide (core.maxSessions > 0) &&
    decide (core.maxSessions ≤ (table.sessions.countP Session.listed : Int))

/-- The section of `handle_handshake` under the table's write lock. A refused
handshake leaves no connection. -/
def Table.enter (core : ServerCore) (table : Table) (req : HandshakeReq) (draws : Draws) :
    Table :=
  if core.admissible req draws then
    match table.find req.clientId with
    | some index =>
      match table.sessions[index]? with
      | some session =>
        let joined := session.join core req draws
        let after := table.setSession index joined.1
        if joined.2 then after.addConn index else after
      | none => table
    | none =>
      if table.full core || !draws.addresses then table
      else
        match firstToken req draws with
        | none => table
        | some token =>
          { table with
            sessions := table.sessions ++ [core.create req draws token] }.addConn
            table.sessions.length
  else table

/-- `destroy_session`: the table still has this session, or nothing happens. -/
def Table.destroySession (table : Table) (index : Nat) (session : Session) : Table :=
  if session.listed then table.setSession index { session with listed := false } else table

inductive Label where
  | enter (req : HandshakeReq) (draws : Draws)
  | prepare (conn : Nat)
  | snapshot (conn : Nat)
  | frame (conn : Nat) (frame : Frame)
  | closeBegin (conn : Nat)
  | closeEnd (conn : Nat) (now : Nat)
  | runOut (session : Nat)
  | exhaust (conn : Nat) (suffix : List Char)
  | scan (now : Nat)
  | reap (session : Nat)
  | kick (clientId : List Char)

def Table.connStep (core : ServerCore) (table : Table) (index : Nat) (conn : Conn)
    (session : Session) : Label → Option Table
  | .prepare _ =>
    if conn.stage = .counted then
      some ((table.setSession conn.session session.prepare).setConn index
        { conn with stage := .prepared })
    else none
  | .snapshot _ =>
    if conn.stage = .prepared then
      some (table.setConn index
        { conn with
          stage := .up
          sessionEpoch := session.epochState.epoch
          response := some (core.response session) })
    else none
  | .frame _ frame =>
    if conn.stage = .up ∧ conn.sessionEpoch = session.epochState.epoch then
      some (table.setSession conn.session (session.feed frame))
    else none
  | .closeBegin _ =>
    if conn.stage = .up then
      some (table.setConn index
        { conn with
          -- a connection of another epoch leaves without touching the counter
          stage := if session.epochState.epoch ≠ conn.sessionEpoch then .closed else .closing })
    else none
  | .closeEnd _ now =>
    if conn.stage = .closing then
      some ((table.setSession conn.session (session.uncount now)).setConn index
        { conn with stage := .closed })
    else none
  | .exhaust _ suffix =>
    if conn.stage = .up ∧ session.sequenceExhausted then
      some (table.setSession conn.session (session.exhaust suffix))
    else none
  | _ => none

def Label.conn : Label → Option Nat
  | .prepare conn | .snapshot conn | .frame conn _ | .closeBegin conn | .closeEnd conn _
  | .exhaust conn _ => some conn
  | .enter _ _ | .runOut _ | .scan _ | .reap _ | .kick _ => none

def Table.step (core : ServerCore) (table : Table) (label : Label) : Option Table :=
  match label.conn with
  | some index =>
    match table.conns[index]? with
    | some conn =>
      match table.sessions[conn.session]? with
      | some session => table.connStep core index conn session label
      | none => none
    | none => none
  | none =>
    match label with
    | .enter req draws => some (table.enter core req draws)
    | .runOut index =>
      (table.sessions[index]?).map fun session =>
        table.setSession index { session with sequenceExhausted := true }
    | .scan now =>
      some { table with
        expired := table.expired ++
          (table.sessions.zipIdx.filter fun entry =>
            entry.1.listed && entry.1.expired now).map Prod.snd }
    | .reap index =>
      match table.sessions[index]? with
      | some session =>
        if index ∈ table.expired then
          -- the scan's verdict is not looked at again
          let taken := { table with
            expired := table.expired.erase index
            reaped := if session.listed then
                table.reaped ++ [(index, session.activeConns)]
              else table.reaped }
          some (taken.destroySession index session)
        else none
      | none => none
    | .kick clientId =>
      match table.find clientId with
      | some index =>
        (table.sessions[index]?).map fun session => table.destroySession index session
      | none => some table
    | _ => none

end Table

section Inversion

variable {core : ServerCore} {session : Session} {req : HandshakeReq} {draws : Draws}

def Session.withDecoder (session : Session) (actor : Option (Option FecDecoder))
    (shared : Option FecDecoder) : Session :=
  { session with
    rxActor := actor
    epochState := { session.epochState with fecDec := shared } }

theorem prepare_decoder (session : Session) :
    ∃ actor shared, session.prepare = session.withDecoder actor shared := by
  unfold Session.prepare
  split
  · exact ⟨session.rxActor, session.epochState.fecDec, rfl⟩
  · exact ⟨session.rxActor, _, rfl⟩

theorem feed_decoder (session : Session) (frame : Frame) :
    ∃ actor shared, session.feed frame = session.withDecoder actor shared := by
  unfold Session.feed
  split
  · exact ⟨_, session.epochState.fecDec, rfl⟩
  · exact ⟨session.rxActor, _, rfl⟩

theorem uncount_left (session : Session) (now : Nat) :
    ∃ version deadline, session.uncount now = { session with
      activeConns := wrappingSub session.activeConns 1
      disconnectVersion := version
      destroyDeadline := deadline } := by
  unfold Session.uncount
  dsimp only
  split
  · exact ⟨_, _, rfl⟩
  · exact ⟨session.disconnectVersion, session.destroyDeadline, rfl⟩

def Session.withTokens (session : Session) (resume pending : List Char) : Session :=
  { session with
    epochState := { session.epochState with
      resumeToken := resume
      pendingResumeToken := pending } }

def Session.turns (core : ServerCore) (session : Session) (req : HandshakeReq) (draws : Draws) :
    Bool :=
  req.mac == session.mac && session.epochState.encAlgo == req.encAlgo &&
    session.epochState.instanceId != req.clientInstance &&
    (acceptSessionResumeToken session.epochState req.sessionToken).2 &&
    !(core.encrypt && !draws.cipher)

/-- A rotation needs a new pending token and the random source fails. -/
def Session.lacksToken (session : Session) (req : HandshakeReq) (draws : Draws) : Bool :=
  (acceptSessionResumeToken session.epochState req.sessionToken).1.pendingResumeToken.isEmpty &&
    draws.token.isNone

inductive Joined (core : ServerCore) (session : Session) (req : HandshakeReq) (draws : Draws) :
    Session → Bool → Prop where
  | refused (resume pending : List Char) :
      Joined core session req draws (session.withTokens resume pending) false
  | full (resume pending : List Char) (busy : 16 ≤ session.activeConns) :
      Joined core session req draws
        { session.withTokens resume pending with destroyDeadline := none } false
  | counted (resume pending : List Char) (room : session.activeConns < 16) :
      Joined core session req draws
        { session.withTokens resume pending with
          destroyDeadline := none
          activeConns := wrappingAdd session.activeConns 1 } true
  | tokenless (resume pending : List Char) (turns : session.turns core req draws = true)
      (lacks : session.lacksToken req draws = true) :
      Joined core session req draws
        ((core.rotated session req.clientInstance draws.saltA draws.saltB).withTokens resume pending)
        false
  | rotated (resume pending : List Char) (turns : session.turns core req draws = true) :
      Joined core session req draws
        { (core.rotated session req.clientInstance draws.saltA draws.saltB).withTokens resume
            pending with
          destroyDeadline := none
          activeConns := wrappingAdd 0 1 } true

theorem accept_tokens (state : SessionEpochState) (presented : List Char) :
    ∃ resume pending, (acceptSessionResumeToken state presented).1 =
      { state with resumeToken := resume, pendingResumeToken := pending } := by
  unfold acceptSessionResumeToken
  split
  · exact ⟨_, _, rfl⟩
  · split
    · exact ⟨_, _, rfl⟩
    · exact ⟨_, _, rfl⟩

theorem count_joined (resume pending : List Char) :
    Joined core session req draws (session.withTokens resume pending).count.1
      (session.withTokens resume pending).count.2 := by
  unfold Session.count
  dsimp only
  split
  · rename_i busy
    exact .full resume pending busy
  · rename_i room
    exact .counted resume pending (Nat.lt_of_not_ge room)

theorem rotated_count (resume pending : List Char) (turns : session.turns core req draws = true) :
    Joined core session req draws
      ((core.rotated session req.clientInstance draws.saltA draws.saltB).withTokens resume
        pending).count.1
      ((core.rotated session req.clientInstance draws.saltA draws.saltB).withTokens resume
        pending).count.2 :=
  -- nothing is counted right after a rotation, so the limit is not reached
  .rotated resume pending turns

theorem join_joined : Joined core session req draws (session.join core req draws).1
    (session.join core req draws).2 := by
  unfold Session.join
  split
  · exact .refused session.epochState.resumeToken session.epochState.pendingResumeToken
  rename_i sameMac
  split
  · exact .refused session.epochState.resumeToken session.epochState.pendingResumeToken
  rename_i sameAlgo
  split
  · rename_i other
    obtain ⟨resume, pending, tokens⟩ := accept_tokens session.epochState req.sessionToken
    dsimp only
    split
    · rw [tokens]
      exact .refused resume pending
    · rename_i valid
      unfold rotateSessionEpoch
      by_cases broken : (core.encrypt && !draws.cipher) = true
      · rw [if_pos broken, tokens]
        exact .refused resume pending
      · have turns : session.turns core req draws = true := by
          simp only [Session.turns, Bool.and_eq_true, beq_iff_eq, bne_iff_ne, Bool.not_eq_true']
          exact ⟨⟨⟨⟨not_not.mp sameMac, not_not.mp sameAlgo⟩, other⟩, by simpa using valid⟩,
            by simpa using broken⟩
        have checked : ({ session with
            epochState := (acceptSessionResumeToken session.epochState req.sessionToken).1 }
              : Session) = session.withTokens resume pending := by
          rw [tokens]
          rfl
        rw [if_neg broken, checked]
        dsimp only
        unfold ensurePendingResumeToken
        have shown : (core.rotated (session.withTokens resume pending) req.clientInstance draws.saltA
            draws.saltB).epochState.pendingResumeToken = pending := rfl
        rw [shown]
        by_cases empty : pending.isEmpty = true
        · rw [if_pos empty]
          cases fresh : draws.token with
          | none =>
            refine .tokenless resume pending turns ?_
            simp only [Session.lacksToken, tokens, empty, fresh, Option.isNone_none, Bool.and_self]
          | some token => exact rotated_count resume token turns
        · rw [if_neg empty]
          exact rotated_count resume pending turns
  · split
    · exact count_joined _ _
    · exact count_joined session.epochState.resumeToken session.epochState.pendingResumeToken

inductive Moved (core : ServerCore) (table : Table) : Label → Table → Prop where
  | refused (req : HandshakeReq) (draws : Draws) : Moved core table (.enter req draws) table
  | joined (req : HandshakeReq) (draws : Draws) (index : Nat) (session after : Session)
      (admissible : core.admissible req draws = true)
      (found : table.find req.clientId = some index)
      (there : table.sessions[index]? = some session)
      (joined : Joined core session req draws after false) :
      Moved core table (.enter req draws) (table.setSession index after)
  | counted (req : HandshakeReq) (draws : Draws) (index : Nat) (session after : Session)
      (admissible : core.admissible req draws = true)
      (found : table.find req.clientId = some index)
      (there : table.sessions[index]? = some session)
      (joined : Joined core session req draws after true) :
      Moved core table (.enter req draws) ((table.setSession index after).addConn index)
  | created (req : HandshakeReq) (draws : Draws) (token : List Char)
      (admissible : core.admissible req draws = true)
      (absent : table.find req.clientId = none) :
      Moved core table (.enter req draws)
        ({ table with sessions := table.sessions ++ [core.create req draws token] }.addConn
          table.sessions.length)
  | prepared (index : Nat) (conn : Conn) (session : Session)
      (found : table.conns[index]? = some conn)
      (there : table.sessions[conn.session]? = some session) (stage : conn.stage = .counted) :
      Moved core table (.prepare index)
        ((table.setSession conn.session session.prepare).setConn index
          { conn with stage := .prepared })
  | snapshot (index : Nat) (conn : Conn) (session : Session)
      (found : table.conns[index]? = some conn)
      (there : table.sessions[conn.session]? = some session) (stage : conn.stage = .prepared) :
      Moved core table (.snapshot index)
        (table.setConn index
          { conn with
            stage := .up
            sessionEpoch := session.epochState.epoch
            response := some (core.response session) })
  | fed (index : Nat) (conn : Conn) (session : Session) (frame : Frame)
      (found : table.conns[index]? = some conn)
      (there : table.sessions[conn.session]? = some session) :
      Moved core table (.frame index frame) (table.setSession conn.session (session.feed frame))
  | departed (index : Nat) (conn : Conn) (session : Session)
      (found : table.conns[index]? = some conn)
      (there : table.sessions[conn.session]? = some session) (stage : conn.stage = .up)
      (stale : session.epochState.epoch ≠ conn.sessionEpoch) :
      Moved core table (.closeBegin index) (table.setConn index { conn with stage := .closed })
  | closing (index : Nat) (conn : Conn) (session : Session)
      (found : table.conns[index]? = some conn)
      (there : table.sessions[conn.session]? = some session) (stage : conn.stage = .up)
      (current : session.epochState.epoch = conn.sessionEpoch) :
      Moved core table (.closeBegin index) (table.setConn index { conn with stage := .closing })
  | uncounted (index : Nat) (conn : Conn) (session : Session) (now : Nat)
      (found : table.conns[index]? = some conn)
      (there : table.sessions[conn.session]? = some session) (stage : conn.stage = .closing) :
      Moved core table (.closeEnd index now)
        ((table.setSession conn.session (session.uncount now)).setConn index
          { conn with stage := .closed })
  | ranOut (index : Nat) (session : Session) (there : table.sessions[index]? = some session) :
      Moved core table (.runOut index)
        (table.setSession index { session with sequenceExhausted := true })
  | exhausted (index : Nat) (conn : Conn) (session : Session) (suffix : List Char)
      (found : table.conns[index]? = some conn)
      (there : table.sessions[conn.session]? = some session) (stage : conn.stage = .up) :
      Moved core table (.exhaust index suffix)
        (table.setSession conn.session (session.exhaust suffix))
  | scanned (now : Nat) :
      Moved core table (.scan now)
        { table with
          expired := table.expired ++
            (table.sessions.zipIdx.filter fun entry =>
              entry.1.listed && entry.1.expired now).map Prod.snd }
  | reaped (index : Nat) (session : Session) (there : table.sessions[index]? = some session)
      (collected : index ∈ table.expired) (listed : session.listed = true) :
      Moved core table (.reap index)
        { table with
          sessions := table.sessions.set index { session with listed := false }
          expired := table.expired.erase index
          reaped := table.reaped ++ [(index, session.activeConns)] }
  | spared (index : Nat) : Moved core table (.reap index)
      { table with expired := table.expired.erase index }
  | kicked (clientId : List Char) (index : Nat) (session : Session)
      (there : table.sessions[index]? = some session) :
      Moved core table (.kick clientId) (table.setSession index { session with listed := false })
  | missed (clientId : List Char) : Moved core table (.kick clientId) table

theorem enter_moved (table : Table) (req : HandshakeReq) (draws : Draws) :
    Moved core table (.enter req draws) (table.enter core req draws) := by
  unfold Table.enter
  split
  · rename_i admissible
    split
    · rename_i index found
      split
      · rename_i session there
        have joined := @join_joined core session req draws
        dsimp only
        generalize session.join core req draws = result at joined ⊢
        obtain ⟨after, flag⟩ := result
        cases flag with
        | false => exact .joined req draws index session after admissible found there joined
        | true => exact .counted req draws index session after admissible found there joined
      · exact .refused req draws
    · rename_i absent
      split
      · exact .refused req draws
      · split
        · exact .refused req draws
        · rename_i token _
          exact .created req draws token admissible absent
  · exact .refused req draws

theorem connStep_moved {table next : Table} {index : Nat} {conn : Conn} {label : Label}
    (names : label.conn = some index) (found : table.conns[index]? = some conn)
    (there : table.sessions[conn.session]? = some session)
    (taken : table.connStep core index conn session label = some next) :
    Moved core table label next := by
  cases label with
  | prepare place =>
    cases names
    simp only [Table.connStep] at taken
    split at taken
    · rename_i stage
      cases taken
      exact .prepared index conn session found there stage
    · cases taken
  | snapshot place =>
    cases names
    simp only [Table.connStep] at taken
    split at taken
    · rename_i stage
      cases taken
      exact .snapshot index conn session found there stage
    · cases taken
  | frame place frame =>
    cases names
    simp only [Table.connStep] at taken
    split at taken
    · cases taken
      exact .fed index conn session frame found there
    · cases taken
  | closeBegin place =>
    cases names
    simp only [Table.connStep] at taken
    split at taken
    · rename_i stage
      by_cases stale : session.epochState.epoch ≠ conn.sessionEpoch
      · rw [if_pos stale] at taken
        cases taken
        exact .departed index conn session found there stage stale
      · rw [if_neg stale] at taken
        cases taken
        exact .closing index conn session found there stage (not_not.mp stale)
    · cases taken
  | closeEnd place now =>
    cases names
    simp only [Table.connStep] at taken
    split at taken
    · rename_i stage
      cases taken
      exact .uncounted index conn session now found there stage
    · cases taken
  | exhaust place suffix =>
    cases names
    simp only [Table.connStep] at taken
    split at taken
    · rename_i both
      cases taken
      exact .exhausted index conn session suffix found there both.1
    · cases taken
  | _ => cases names

theorem step_moved (table next : Table) (label : Label)
    (taken : table.step core label = some next) : Moved core table label next := by
  unfold Table.step at taken
  split at taken
  · rename_i index names
    split at taken
    · rename_i conn found
      split at taken
      · rename_i session there
        exact connStep_moved names found there taken
      · cases taken
    · cases taken
  · split at taken
    · cases taken
      exact enter_moved table _ _
    · obtain ⟨session, there, rfl⟩ := Option.map_eq_some_iff.mp taken
      exact .ranOut _ session there
    · cases taken
      exact .scanned _
    · split at taken
      · rename_i session there
        split at taken
        · rename_i collected
          cases taken
          cases listed : session.listed with
          | true =>
            simp only [Table.destroySession, listed, if_true, Table.setSession]
            exact .reaped _ session there collected listed
          | false =>
            simp only [Table.destroySession, listed, Bool.false_eq_true, if_false]
            exact .spared _
        · cases taken
      · cases taken
    · split at taken
      · rename_i index _
        obtain ⟨session, there, rfl⟩ := Option.map_eq_some_iff.mp taken
        unfold Table.destroySession
        split
        · exact .kicked _ index session there
        · exact .missed _
      · cases taken
        exact .missed _
    · cases taken

end Inversion

end TlsVpn.Registry

import TlsVpn.AddressText
import TlsVpn.RxActor
import TlsVpn.Sealing

/-!
The client of client.rs: the session state behind one lock, the port all
connections share, the receive actor when there are several, and the connections
themselves. A connection processes its handshake response in one section under
the session lock, then reconfigures the actor if that section asked for it,
registers its backend, takes a producer and enters its loop. Each of these is one
step, so what other connections do falls between them.

A cipher stands as the salt it was keyed with. `round` counts the port's resets
and `roundIds` the identities that made them, `requested` the reconfigures asked
for so far and `ticket` how many there were when a connection had negotiated;
`sealed` logs what was sealed. No code reads them. TLS, the tunnel interface,
hooks, padding, rates, tokens and the receive path without an actor are not
modelled.
-/

namespace TlsVpn.ClientSession

open Words XorBytes Protocol Fec Port RxActor

section Handshake

structure Identity where
  sessionId : List Char
  sessionEpoch : Nat
  deriving DecidableEq

structure Response where
  protocolVersion : Int
  identity : Identity
  encrypt : Bool
  encAlgo : Nat
  encSalt : List Char
  encSalt2 : List Char
  fecGroup : Int

structure Config where
  encrypt : Bool
  encAlgo : Nat
  minEnc : Bool
  fecMode : Bool
  connsCount : Nat
  rxBatchSize : Nat
  /-- `InnerCipher::domain_for_algo` for the domain "fec". -/
  fecCipher : Salt → InnerCipher

def encAlgoNone : Nat := 0

/-- `hex::decode` of a text that must give `ENC_SALT_SIZE` bytes. -/
def decodeSalt (text : List Char) : Option Salt :=
  if text.length = 16 then
    (text.mapM AddressText.hexValue).map fun digits =>
      BitVec.ofNat 64 (digits.foldl (fun value digit => value * 16 + digit) 0)
  else none

structure Keys where
  encAlgo : Nat
  icTx : Option Salt
  icRx : Option Salt

/-- The checks between the response and the session lock. `none` gives the
connection up. -/
def accept (config : Config) (resp : Response) : Option Keys :=
  if resp.protocolVersion ≠ protocolVersion then none
  else if resp.encrypt ≠ config.encrypt then none
  else if config.encrypt then
    if resp.encAlgo ≠ config.encAlgo then none
    else
      match decodeSalt resp.encSalt, decodeSalt resp.encSalt2 with
      | some tx, some rx =>
        if isInnerAeadAlgo resp.encAlgo then some ⟨resp.encAlgo, some tx, some rx⟩ else none
      | _, _ => none
  else if config.minEnc then none
  else some ⟨encAlgoNone, none, none⟩

inductive Accepted (config : Config) (resp : Response) : Keys → Prop where
  | encrypted (tx rx : Salt) (on : config.encrypt = true)
      (decoded : decodeSalt resp.encSalt = some tx) (aead : isInnerAeadAlgo resp.encAlgo = true) :
      Accepted config resp ⟨resp.encAlgo, some tx, some rx⟩
  | plain (off : config.encrypt = false) : Accepted config resp ⟨encAlgoNone, none, none⟩

theorem accept_accepted {config : Config} {resp : Response} {keys : Keys}
    (taken : accept config resp = some keys) : Accepted config resp keys := by
  unfold accept at taken
  split at taken
  · cases taken
  split at taken
  · cases taken
  split at taken
  · rename_i on
    split at taken
    · cases taken
    · split at taken
      · rename_i tx rx first second
        split at taken
        · rename_i aead
          cases taken
          exact .encrypted tx rx on first aead
        · cases taken
      · cases taken
  · rename_i off
    split at taken
    · cases taken
    · cases taken
      exact .plain (by simpa using off)

end Handshake

section State

structure SessionState where
  identity : Identity
  fecNegotiated : Int
  fecAlgo : Nat
  fecSaltKey : List Char
  encAlgo : Nat

inductive Stage where
  | negotiated
  | reconfiguring
  | configured
  | registered
  | up
  | leaving
  | closed
  deriving DecidableEq

structure Conn where
  identity : Identity
  icTx : Option Salt
  /-- The decoder its `reconfigure` would install. -/
  decoder : Option FecDecoder
  stage : Stage
  backend : Option Nat
  producer : Option Nat
  sendBuf : Nat
  round : Nat
  ticket : Nat

structure Client where
  session : SessionState
  txPort : AsyncPort
  fecDec : Option FecDecoder
  rxActor : Option RxSessionActor
  sequenceRekeying : Bool
  instanceId : List Char
  forceGeneration : Nat
  conns : List Conn
  roundIds : List Identity
  requested : Nat
  sealed : List Sealing

/-- The client at start. `restored` is the identity of the persisted session, or
the empty one. -/
def Client.new (config : Config) (instanceId : List Char) (restored : Identity) : Client where
  session := ⟨restored, 0, encAlgoNone, [], encAlgoNone⟩
  txPort := AsyncPort.new
  fecDec := none
  rxActor := if config.connsCount > 1 then some (RxSessionActor.new none) else none
  sequenceRekeying := false
  instanceId := instanceId
  forceGeneration := 0
  conns := []
  roundIds := [restored]
  requested := 0
  sealed := []

def Client.setConn (client : Client) (index : Nat) (conn : Conn) : Client :=
  { client with conns := client.conns.set index conn }

end State

section Negotiation

/-- `st.fec_negotiated` after the response. Once set it is kept. -/
def Client.fecNegotiated (config : Config) (client : Client) (resp : Response) : Int :=
  if config.fecMode ∧ client.session.fecNegotiated = 0 ∧ resp.fecGroup ≥ (fecMinGroup : Int) then
    resp.fecGroup
  else client.session.fecNegotiated

def Client.useXorFec (config : Config) (client : Client) (resp : Response) : Bool :=
  config.fecMode && decide (client.fecNegotiated config resp > 0)

def Client.rekeysFec (client : Client) (keys : Keys) (resp : Response) : Bool :=
  decide (client.session.fecAlgo ≠ keys.encAlgo ∨ client.session.fecSaltKey ≠ resp.encSalt)

def Client.rebuildNeeded (config : Config) (client : Client) (keys : Keys) (resp : Response) :
    Bool :=
  client.useXorFec config resp &&
    (client.rxActor.isNone && client.fecDec.isNone || client.rekeysFec keys resp)

def Client.isNewSession (client : Client) (resp : Response) : Bool :=
  decide (client.session.identity ≠ resp.identity)

/-- The port after the section: the two ways to `reset_epoch`. -/
def Client.negotiatePort (config : Config) (client : Client) (keys : Keys) (resp : Response) :
    AsyncPort :=
  if client.rebuildNeeded config keys resp then
    client.txPort.resetEpoch (client.fecNegotiated config resp).toNat
      (keys.icTx.map config.fecCipher)
  else if client.isNewSession resp && !client.useXorFec config resp then
    client.txPort.resetEpoch 0 none
  else client.txPort

def Client.negotiateSession (config : Config) (client : Client) (keys : Keys) (resp : Response) :
    SessionState where
  identity := resp.identity
  fecNegotiated := client.fecNegotiated config resp
  fecAlgo := if client.rebuildNeeded config keys resp then keys.encAlgo else client.session.fecAlgo
  fecSaltKey :=
    if client.rebuildNeeded config keys resp then resp.encSalt else client.session.fecSaltKey
  encAlgo := keys.encAlgo

def Client.negotiateDecoder (config : Config) (client : Client) (keys : Keys) (resp : Response) :
    Option FecDecoder :=
  let shared :=
    if client.rebuildNeeded config keys resp then
      if client.rxActor.isSome then none
      else
        some (FecDecoder.new (client.fecNegotiated config resp).toNat
          (keys.icRx.map config.fecCipher))
    else client.fecDec
  if client.rxActor.isNone then shared.map fun decoder => decoder.setStaticSinglePath true
  else shared

def Client.actorReconfigure (config : Config) (client : Client) (keys : Keys) (resp : Response) :
    Bool :=
  client.rxActor.isSome && (client.rebuildNeeded config keys resp || client.isNewSession resp)

def Client.actorDecoder (config : Config) (client : Client) (keys : Keys) (resp : Response) :
    Option FecDecoder :=
  if client.useXorFec config resp ∧ (client.fecNegotiated config resp).toNat ≥ fecMinGroup then
    some (FecDecoder.new (client.fecNegotiated config resp).toNat (keys.icRx.map config.fecCipher))
  else none

def Client.respond (config : Config) (client : Client) (keys : Keys) (resp : Response) : Client :=
  let port := client.negotiatePort config keys resp
  let asked := client.actorReconfigure config keys resp
  let requested := client.requested + if asked then 1 else 0
  { client with
    session := client.negotiateSession config keys resp
    txPort := port
    fecDec := client.negotiateDecoder config keys resp
    sequenceRekeying := if client.isNewSession resp then false else client.sequenceRekeying
    roundIds := client.roundIds ++
      if port.round = client.txPort.round then [] else [resp.identity]
    requested := requested
    conns := client.conns ++
      [{ identity := resp.identity
         icTx := keys.icTx
         decoder := client.actorDecoder config keys resp
         stage := if asked then .negotiated else .configured
         backend := none
         producer := none
         sendBuf := 0
         round := port.round
         ticket := requested }] }

/-- The response repeats the session the client is in and, with FEC in effect,
what FEC was last set up with. -/
def Client.Repeats (config : Config) (client : Client) (keys : Keys) (resp : Response) : Prop :=
  resp.identity = client.session.identity ∧
    (client.useXorFec config resp = true →
      client.session.fecAlgo = keys.encAlgo ∧ client.session.fecSaltKey = resp.encSalt)

instance decidableRepeats (config : Config) (client : Client) (keys : Keys) (resp : Response) :
    Decidable (client.Repeats config keys resp) := by
  unfold Client.Repeats
  exact inferInstance

variable {config : Config} {client : Client} {keys : Keys} {resp : Response}

theorem rekeysFec_iff : client.rekeysFec keys resp = false ↔
    client.session.fecAlgo = keys.encAlgo ∧ client.session.fecSaltKey = resp.encSalt := by
  unfold Client.rekeysFec
  rw [decide_eq_false_iff_not, not_or, not_not, not_not]

theorem useXorFec_iff : client.useXorFec config resp = true ↔
    config.fecMode = true ∧ 0 < client.fecNegotiated config resp := by
  unfold Client.useXorFec
  rw [Bool.and_eq_true, decide_eq_true_eq]

theorem fecNegotiated_kept (settled : client.session.fecNegotiated ≠ 0) :
    client.fecNegotiated config resp = client.session.fecNegotiated := by
  unfold Client.fecNegotiated
  rw [if_neg fun adopted => settled adopted.2.1]

theorem rebuildNeeded_of (uses : client.useXorFec config resp = true)
    (other : client.rxActor.isNone ∧ client.fecDec.isNone ∨
      client.session.fecAlgo ≠ keys.encAlgo ∨ client.session.fecSaltKey ≠ resp.encSalt) :
    client.rebuildNeeded config keys resp = true := by
  unfold Client.rebuildNeeded Client.rekeysFec
  rw [uses]
  simpa using other

theorem rebuilt_port (rebuilt : client.rebuildNeeded config keys resp = true) :
    client.negotiatePort config keys resp =
      client.txPort.resetEpoch (client.fecNegotiated config resp).toNat
        (keys.icTx.map config.fecCipher) := by
  unfold Client.negotiatePort
  rw [if_pos rebuilt]

theorem renewed_port (kept : client.rebuildNeeded config keys resp = false)
    (new : resp.identity ≠ client.session.identity) (plain : client.useXorFec config resp = false) :
    client.negotiatePort config keys resp = client.txPort.resetEpoch 0 none := by
  have fresh : client.isNewSession resp = true := decide_eq_true new.symm
  unfold Client.negotiatePort
  rw [kept, fresh, plain]
  rfl

theorem kept_port (kept : client.rebuildNeeded config keys resp = false)
    (old : resp.identity = client.session.identity ∨ client.useXorFec config resp = true) :
    client.negotiatePort config keys resp = client.txPort := by
  unfold Client.negotiatePort Client.isNewSession
  rw [kept]
  rcases old with same | uses
  · simp [same]
  · simp [uses]

end Negotiation

section Steps

inductive Label where
  | write (label : WriteLabel)
  | rx (label : RxActor.Label)
  | respond (resp : Response)
  | reconfigure (conn : Nat)
  | install (conn : Nat)
  | abandon (conn : Nat)
  | register (conn maxBatchFrames : Nat)
  | producer (conn : Nat)
  | pop (conn : Nat)
  | flush (conn : Nat)
  | exhausted (conn : Nat) (instanceId : List Char)
  | leave (conn : Nat)
  | close (conn : Nat)

def Client.pop (client : Client) (index : Nat) (conn : Conn) (target : Nat) (backend : Backend) :
    Option Client :=
  if conn.sendBuf ≥ streamTlsBatchSoftLimit then none
  else
    match backend.queue.tryPopFitting
        (maxTlsPlaintextRecord - streamPadAbsoluteLimit - conn.sendBuf) with
    | none => none
    | some (batch, rest) =>
      some { client with
        txPort := { client.txPort with
          backends := client.txPort.backends.set target { backend with queue := rest } }
        sealed := client.sealed ++ sealBatch conn.icTx batch.frames
        conns := client.conns.set index
          { conn with
            sendBuf := conn.sendBuf + (batch.frames.map (wireLength conn.icTx)).sum } }

/-- The loop's exhaustion check: the first connection to see the flag asks the
others to reconnect under a new instance. -/
def Client.exhausted (client : Client) (index : Nat) (conn : Conn) (instanceId : List Char) :
    Client :=
  { client with
    sequenceRekeying := true
    instanceId := if client.sequenceRekeying then client.instanceId else instanceId
    forceGeneration := client.forceGeneration + if client.sequenceRekeying then 0 else 1
    conns := client.conns.set index { conn with stage := .leaving } }

def Client.connStep (config : Config) (client : Client) (index : Nat) (conn : Conn) :
    Label → Option Client
  | .reconfigure _ =>
    match conn.stage, client.rxActor with
    | .negotiated, some actor =>
      (actor.step config.rxBatchSize (.reconfigure conn.decoder)).map fun after =>
        { client with
          rxActor := some after
          conns := client.conns.set index { conn with stage := .reconfiguring } }
    | _, _ => none
  | .install _ =>
    match conn.stage, client.rxActor with
    | .reconfiguring, some actor =>
      (actor.step config.rxBatchSize .install).map fun after =>
        { client with
          rxActor := some after
          conns := client.conns.set index { conn with stage := .configured } }
    | _, _ => none
  | .abandon _ =>
    if conn.stage = .configured then
      some (client.setConn index { conn with stage := .closed })
    else none
  | .register _ maxBatchFrames =>
    if conn.stage = .configured then
      (client.txPort.step (.register 1024 maxBatchFrames)).map fun port =>
        { client with
          txPort := port
          conns := client.conns.set index
            { conn with stage := .registered, backend := some client.txPort.backends.length } }
    else none
  | .producer _ =>
    if conn.stage = .registered then
      match client.rxActor with
      | none => some (client.setConn index { conn with stage := .up })
      | some actor =>
        (actor.step config.rxBatchSize .produce).map fun after =>
          { client with
            rxActor := some after
            conns := client.conns.set index
              { conn with stage := .up, producer := some actor.producers.length } }
    else none
  | .pop _ =>
    match conn.stage, conn.backend with
    | .up, some target =>
      match client.txPort.backends[target]? with
      | some backend => client.pop index conn target backend
      | none => none
    | _, _ => none
  | .flush _ =>
    if conn.stage = .up then some (client.setConn index { conn with sendBuf := 0 }) else none
  | .exhausted _ instanceId =>
    if conn.stage = .up ∧ client.txPort.sequenceExhausted then
      some (client.exhausted index conn instanceId)
    else none
  | .leave _ =>
    if conn.stage = .up then some (client.setConn index { conn with stage := .leaving })
    else none
  | .close _ =>
    match conn.stage, conn.backend with
    | .leaving, some target =>
      (client.txPort.step (.unregister target)).map fun port =>
        { client with
          txPort := port
          conns := client.conns.set index { conn with stage := .closed } }
    | _, _ => none
  | _ => none

def Label.conn : Label → Option Nat
  | .write _ => none
  | .rx _ => none
  | .respond _ => none
  | .reconfigure index => some index
  | .install index => some index
  | .abandon index => some index
  | .register index _ => some index
  | .producer index => some index
  | .pop index => some index
  | .flush index => some index
  | .exhausted index _ => some index
  | .leave index => some index
  | .close index => some index

def Client.step (config : Config) (client : Client) (label : Label) : Option Client :=
  match label.conn with
  | some index =>
    match client.conns[index]? with
    | some conn => client.connStep config index conn label
    | none => none
  | none =>
    match label with
    | .write label =>
      if isCall label then
        (client.txPort.step label).map fun port => { client with txPort := port }
      else none
    | .rx label =>
      match client.rxActor with
      | some actor =>
        if label.isTraffic then
          (actor.step config.rxBatchSize label).map fun after =>
            { client with rxActor := some after }
        else none
      | none => none
    | .respond resp =>
      (accept config resp).map fun keys => client.respond config keys resp
    | _ => none

inductive Stepped (config : Config) (client : Client) : Label → Client → Prop where
  | wrote (label : WriteLabel) (port : AsyncPort) (taken : client.txPort.step label = some port) :
      Stepped config client (.write label) { client with txPort := port }
  | traffic (label : RxActor.Label) (actor after : RxSessionActor)
      (present : client.rxActor = some actor) (other : label.isTraffic = true)
      (taken : actor.step config.rxBatchSize label = some after) :
      Stepped config client (.rx label) { client with rxActor := some after }
  | responded (resp : Response) (keys : Keys) (accepted : accept config resp = some keys) :
      Stepped config client (.respond resp) (client.respond config keys resp)
  | reconfigured (index : Nat) (conn : Conn) (actor after : RxSessionActor)
      (found : client.conns[index]? = some conn) (asked : conn.stage = .negotiated)
      (present : client.rxActor = some actor)
      (taken : actor.step config.rxBatchSize (.reconfigure conn.decoder) = some after) :
      Stepped config client (.reconfigure index)
        { client with
          rxActor := some after
          conns := client.conns.set index { conn with stage := .reconfiguring } }
  | installed (index : Nat) (conn : Conn) (actor after : RxSessionActor)
      (found : client.conns[index]? = some conn) (began : conn.stage = .reconfiguring)
      (present : client.rxActor = some actor)
      (taken : actor.step config.rxBatchSize .install = some after) :
      Stepped config client (.install index)
        { client with
          rxActor := some after
          conns := client.conns.set index { conn with stage := .configured } }
  | abandoned (index : Nat) (conn : Conn) (found : client.conns[index]? = some conn)
      (ready : conn.stage = .configured) :
      Stepped config client (.abandon index)
        (client.setConn index { conn with stage := .closed })
  | registered (index maxBatchFrames : Nat) (conn : Conn) (port : AsyncPort)
      (found : client.conns[index]? = some conn) (ready : conn.stage = .configured)
      (taken : client.txPort.step (.register 1024 maxBatchFrames) = some port) :
      Stepped config client (.register index maxBatchFrames)
        { client with
          txPort := port
          conns := client.conns.set index
            { conn with stage := .registered, backend := some client.txPort.backends.length } }
  | alone (index : Nat) (conn : Conn) (found : client.conns[index]? = some conn)
      (ready : conn.stage = .registered) (absent : client.rxActor = none) :
      Stepped config client (.producer index) (client.setConn index { conn with stage := .up })
  | produced (index : Nat) (conn : Conn) (actor after : RxSessionActor)
      (found : client.conns[index]? = some conn) (ready : conn.stage = .registered)
      (present : client.rxActor = some actor)
      (taken : actor.step config.rxBatchSize .produce = some after) :
      Stepped config client (.producer index)
        { client with
          rxActor := some after
          conns := client.conns.set index
            { conn with stage := .up, producer := some actor.producers.length } }
  | popped (index : Nat) (conn : Conn) (target budget sendBuf : Nat) (backend : Backend)
      (batch : VpnFrameBatch) (rest : OwnedBatchQueue) (found : client.conns[index]? = some conn)
      (up : conn.stage = .up) (mine : conn.backend = some target)
      (there : client.txPort.backends[target]? = some backend)
      (taken : backend.queue.tryPopFitting budget = some (batch, rest)) :
      Stepped config client (.pop index)
        { client with
          txPort := { client.txPort with
            backends := client.txPort.backends.set target { backend with queue := rest } }
          sealed := client.sealed ++ sealBatch conn.icTx batch.frames
          conns := client.conns.set index { conn with sendBuf := sendBuf } }
  | flushed (index : Nat) (conn : Conn) (found : client.conns[index]? = some conn)
      (up : conn.stage = .up) :
      Stepped config client (.flush index) (client.setConn index { conn with sendBuf := 0 })
  | exhausted (index : Nat) (conn : Conn) (instanceId : List Char)
      (found : client.conns[index]? = some conn) (up : conn.stage = .up) :
      Stepped config client (.exhausted index instanceId) (client.exhausted index conn instanceId)
  | left (index : Nat) (conn : Conn) (found : client.conns[index]? = some conn)
      (up : conn.stage = .up) :
      Stepped config client (.leave index) (client.setConn index { conn with stage := .leaving })
  | closed (index : Nat) (conn : Conn) (target : Nat) (port : AsyncPort)
      (found : client.conns[index]? = some conn) (leaving : conn.stage = .leaving)
      (taken : client.txPort.step (.unregister target) = some port) :
      Stepped config client (.close index)
        { client with
          txPort := port
          conns := client.conns.set index { conn with stage := .closed } }

theorem connStep_stepped {config : Config} {client next : Client} {index : Nat} {conn : Conn}
    (found : client.conns[index]? = some conn) (label : Label) (mine : label.conn = some index)
    (taken : client.connStep config index conn label = some next) :
    Stepped config client label next := by
  cases label with
  | write label => cases mine
  | rx label => cases mine
  | respond resp => cases mine
  | reconfigure other =>
    cases mine
    simp only [Client.connStep] at taken
    split at taken
    · rename_i actor asked present
      obtain ⟨after, stepped, rfl⟩ := Option.map_eq_some_iff.mp taken
      exact .reconfigured index conn actor after found asked present stepped
    · cases taken
  | install other =>
    cases mine
    simp only [Client.connStep] at taken
    split at taken
    · rename_i actor began present
      obtain ⟨after, stepped, rfl⟩ := Option.map_eq_some_iff.mp taken
      exact .installed index conn actor after found began present stepped
    · cases taken
  | abandon other =>
    cases mine
    simp only [Client.connStep] at taken
    split at taken
    · rename_i ready
      cases taken
      exact .abandoned index conn found ready
    · cases taken
  | register other maxBatchFrames =>
    cases mine
    simp only [Client.connStep] at taken
    split at taken
    · rename_i ready
      obtain ⟨port, stepped, rfl⟩ := Option.map_eq_some_iff.mp taken
      exact .registered index maxBatchFrames conn port found ready stepped
    · cases taken
  | producer other =>
    cases mine
    simp only [Client.connStep] at taken
    split at taken
    · rename_i ready
      split at taken
      · rename_i absent
        cases taken
        exact .alone index conn found ready absent
      · rename_i actor present
        obtain ⟨after, stepped, rfl⟩ := Option.map_eq_some_iff.mp taken
        exact .produced index conn actor after found ready present stepped
    · cases taken
  | pop other =>
    cases mine
    simp only [Client.connStep] at taken
    split at taken
    · rename_i target up mine
      split at taken
      · rename_i backend there
        unfold Client.pop at taken
        split at taken
        · cases taken
        · split at taken
          · cases taken
          · rename_i batch rest popped
            cases taken
            exact .popped index conn target _ _ backend batch rest found up mine there popped
      · cases taken
    · cases taken
  | flush other =>
    cases mine
    simp only [Client.connStep] at taken
    split at taken
    · rename_i up
      cases taken
      exact .flushed index conn found up
    · cases taken
  | exhausted other instanceId =>
    cases mine
    simp only [Client.connStep] at taken
    split at taken
    · rename_i seen
      cases taken
      exact .exhausted index conn instanceId found seen.1
    · cases taken
  | leave other =>
    cases mine
    simp only [Client.connStep] at taken
    split at taken
    · rename_i up
      cases taken
      exact .left index conn found up
    · cases taken
  | close other =>
    cases mine
    simp only [Client.connStep] at taken
    split at taken
    · rename_i target leaving mine
      obtain ⟨port, stepped, rfl⟩ := Option.map_eq_some_iff.mp taken
      exact .closed index conn target port found leaving stepped
    · cases taken

theorem step_stepped {config : Config} {client next : Client} {label : Label}
    (taken : client.step config label = some next) : Stepped config client label next := by
  unfold Client.step at taken
  split at taken
  · rename_i index mine
    split at taken
    · rename_i conn found
      exact connStep_stepped found label mine taken
    · cases taken
  · split at taken
    · split at taken
      · obtain ⟨port, stepped, rfl⟩ := Option.map_eq_some_iff.mp taken
        exact .wrote _ port stepped
      · cases taken
    · split at taken
      · rename_i actor present
        split at taken
        · rename_i other
          obtain ⟨after, stepped, rfl⟩ := Option.map_eq_some_iff.mp taken
          exact .traffic _ actor after present other stepped
        · cases taken
      · cases taken
    · obtain ⟨keys, accepted, rfl⟩ := Option.map_eq_some_iff.mp taken
      exact .responded _ keys accepted
    · cases taken

end Steps

end TlsVpn.ClientSession

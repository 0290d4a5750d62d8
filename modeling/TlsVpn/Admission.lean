import TlsVpn.IpPool
import TlsVpn.Registry

/-!
How `handle_handshake` admits a client, with all it touches on the way: the
screening of the request, the address pool with its MAC bindings, the switch's
ports and MAC table, the statistics registry and the session map. A new session
is built under the map's write lock, but every other container has a lock of its
own, so the section is cut where another worker can come between. The same holds
for `destroy_session`, which gives the map's lock back after its first step.

Sessions keep their place for good; a place stands for the session's port and
statistics too, which are made with it. A request that cannot be decoded is
`none`, and the ban list, the UUID that belongs to a MAC and the random token are
given. What happens to a session the map has is the registry's model.
-/

namespace TlsVpn.Admission

open AddressText Pool Registry Protocol

section Mac

abbrev MacKey := List UInt8

/-- `hex::decode` of a field, which has to be one byte. -/
def decodeByte : Text → Option UInt8
  | [high, low] => do
      let high ← hexValue high
      let low ← hexValue low
      return UInt8.ofNat (high * 16 + low)
  | _ => none

def parseMacKey (text : Text) : Option MacKey :=
  let parts := fields ':' text
  if parts.length = 6 then parts.mapM decodeByte else none

def isValidSessionMac (text : Text) : Bool :=
  match parseMacKey text with
  | some key => key != List.replicate 6 0 && key.head?.any (fun byte => byte &&& 1 == 0)
  | none => false

def byteText (byte : UInt8) : Text :=
  [Nat.digitChar (byte.toNat / 16), Nat.digitChar (byte.toNat % 16)]

def macText (key : MacKey) : Text := [':'].intercalate (key.map byteText)

def canonicalMac (text : Text) : Option Text := (parseMacKey text).map macText

end Mac

section Screening

structure Gate where
  settings : ServerCore
  pskHash : Text
  minEnc : Int
  /-- `Uuid::new_v5` of the canonical MAC and the PSK. -/
  expectedId : Text → Text

structure Request extends HandshakeReq where
  psk : Text
  encrypt : Bool
  protocolVersion : Int
  ipv4 : Text
  ipv6 : Text

/-- Why a handshake is refused, in the order of the source. -/
inductive Refusal where
  | malformed
  | wrongPsk
  | otherEncryption
  | weakCipher
  | otherCipher
  | missingId
  | badId
  | badMac
  | badVersion
  | fecPolicy
  | badInstance
  | foreignId
  | banned
  | sessionLimit
  | v4Exhausted
  | v6Exhausted
  | noToken
  deriving DecidableEq

def isHexDigit (char : Char) : Bool := (hexValue char).isSome

def isValidClientId (id : Text) : Bool :=
  id.length == 36 && id.zipIdx.all fun (char, place) =>
    if place = 8 ∨ place = 13 ∨ place = 18 ∨ place = 23 then char == '-' else isHexDigit char

def isValidClientInstance (instanceId : Text) : Bool :=
  decide (16 ≤ instanceId.length) && decide (instanceId.length ≤ 64) &&
    instanceId.all fun char => char.isAlphanum || char == '-'

/-- What the request itself is refused for, in the order of the source: the first
check that strikes decides. -/
def Gate.checks (gate : Gate) (req : Request) : List (Bool × Refusal) :=
  [(req.psk != gate.pskHash, .wrongPsk),
    (req.encrypt != gate.settings.encrypt, .otherEncryption),
    (gate.settings.encrypt && decide (gate.minEnc > 0) && !Port.isInnerAeadAlgo req.encAlgo,
      .weakCipher),
    (gate.settings.encrypt && req.encAlgo != gate.settings.encAlgo, .otherCipher),
    (req.clientId.isEmpty, .missingId),
    (!isValidClientId req.clientId, .badId),
    (!isValidSessionMac req.mac, .badMac),
    (req.protocolVersion != protocolVersion, .badVersion),
    (req.fec && (decide (req.fecGroup < gate.settings.fecGroupMin) ||
      decide (req.fecGroup > gate.settings.fecGroupMax)), .fecPolicy),
    (!isValidClientInstance req.clientInstance, .badInstance)]

/-- Everything before the session map is looked at. What passes has its MAC in
canonical form. -/
def Gate.screen (gate : Gate) (payload : Option Request) (banned : Text → Bool) :
    Except Refusal Request :=
  match payload with
  | none => .error .malformed
  | some req =>
    match (gate.checks req).find? Prod.fst, canonicalMac req.mac with
    | some check, _ => .error check.2
    -- a validated MAC has a canonical form
    | none, none => .error .badMac
    | none, some mac =>
      if req.clientId ≠ gate.expectedId mac then .error .foreignId
      else if banned req.clientId then .error .banned
      else .ok { req with mac := mac }

end Screening

section Server

/-- A session in the map, or how far `destroy_session` has come with it. -/
inductive HostStage where
  | listed
  | unlisted
  | unported
  | unpinned
  | unregistered
  | gone
  deriving DecidableEq

structure Host where
  clientId : Text
  mac : Text
  macBin : MacKey
  ipv4 : Text
  ipv6 : Text
  stage : HostStage
  deriving DecidableEq

structure MacEntry where
  portId : Text
  port : Option Nat
  deriving DecidableEq

/-- How far the building of a session has come: the lock is held, the binding was
looked up, the addresses are taken, a token is there, and then one container
after the other. -/
inductive CreationStage where
  | entered
  | looked (v4 v6 : Text)
  | allocated (v4 v6 : Text)
  | secured (v4 v6 : Text)
  | ported (v4 v6 : Text)
  | resolved (v4 v6 : Text) (port : Option Nat)
  | pinned (v4 v6 : Text)
  | bound (v4 v6 : Text)
  | registered (v4 v6 : Text)

structure Creation where
  req : Request
  draws : Draws
  stage : CreationStage

structure Server where
  hosts : List Host
  creating : Option Creation
  pool : IpPool
  gwV4 : Text
  gwV6 : Text
  ports : Text → Option Nat
  macTable : MacKey → Option MacEntry
  registry : Text → Option Nat

variable (gate : Gate) (v6Format : AddressFormat 128)

def Server.new (v4cidr v6cidr : Text) : Server :=
  let (pool, gwV4, gwV6) := (IpPool.new v6Format v4cidr v6cidr).value
  { hosts := []
    creating := none
    pool := pool
    gwV4 := gwV4
    gwV6 := gwV6
    ports := fun _ => none
    macTable := fun _ => none
    registry := fun _ => none }

def Server.has (server : Server) (clientId : Text) : Bool :=
  server.hosts.any fun host => host.stage == .listed && host.clientId == clientId

def Server.full (server : Server) : Bool :=
  decide (gate.settings.maxSessions > 0) &&
    decide (gate.settings.maxSessions ≤
      (server.hosts.countP (fun host => host.stage == .listed) : Int))

def Server.wanted (server : Server) (req : Request) : Text × Text :=
  if req.mac.isEmpty then (req.ipv4, req.ipv6)
  else (server.pool.macToIp req.mac).getD (req.ipv4, req.ipv6)

def Server.addPort (server : Server) (clientId : Text) (port : Nat) : Server :=
  { server with ports := fun id => if id = clientId then some port else server.ports id }

/-- `add_static_mac`, from the port it resolved on. -/
def Server.pinMac (server : Server) (key : MacKey) (entry : MacEntry) : Server :=
  { server with
    macTable :=
      if key = List.replicate 6 0 then server.macTable
      else fun other => if other = key then some entry else server.macTable other }

def Server.bindMac (server : Server) (mac v4 v6 : Text) : Server :=
  { server with pool := if mac.isEmpty then server.pool else server.pool.bind mac v4 v6 }

def Server.register (server : Server) (clientId : Text) (place : Nat) : Server :=
  { server with registry := fun id => if id = clientId then some place else server.registry id }

/-- `parse_mac_key(&mac).unwrap_or_default()`. -/
def Request.macBin (req : Request) : MacKey := (parseMacKey req.mac).getD (List.replicate 6 0)

def Request.host (req : Request) (v4 v6 : Text) : Host :=
  ⟨req.clientId, req.mac, req.macBin, v4, v6, .listed⟩

/-- The allocation under one lock of the pool, with its two ways out. -/
def IpPool.allocate (pool : IpPool) (wanted : Text × Text) :
    IpPool × Except Refusal (Text × Text) :=
  let first := (pool.allocV4 wanted.1).value
  if first.1.isEmpty then (first.2, .error .v4Exhausted)
  else
    let second := (first.2.allocV6 v6Format wanted.2).value
    if second.1.isEmpty then
      ({ second.2 with usedV4 := second.2.usedV4.erase first.1 }, .error .v6Exhausted)
    else (second.2, .ok (first.1, second.1))

def Server.created (server : Server) (req : Request) (v4 v6 : Text) : Server :=
  let place := server.hosts.length
  let ported := server.addPort req.clientId place
  let pinned := ported.pinMac req.macBin ⟨req.clientId, ported.ports req.clientId⟩
  let registered := (pinned.bindMac req.mac v4 v6).register req.clientId place
  { registered with hosts := registered.hosts ++ [req.host v4 v6] }

/-- `handle_handshake` from one end to the other with nothing in between. The flag
says whether the session was there already. -/
def Server.handle (server : Server) (payload : Option Request) (banned : Text → Bool)
    (draws : Draws) : Server × Except Refusal Bool :=
  match gate.screen payload banned with
  | .error refusal => (server, .error refusal)
  | .ok req =>
    if server.has req.clientId then (server, .ok true)
    else if server.full gate then (server, .error .sessionLimit)
    else
      let (pool, answer) := IpPool.allocate v6Format server.pool (server.wanted req)
      match answer with
      | .error refusal => ({ server with pool := pool }, .error refusal)
      | .ok (v4, v6) =>
        match firstToken req.toHandshakeReq draws with
        | none => ({ server with pool := pool.release req.mac v4 v6 }, .error .noToken)
        | some _ => ({ server with pool := pool }.created req v4 v6, .ok false)

def Server.advance (server : Server) (creation : Creation) : Server :=
  let next := fun stage => some { creation with stage := stage }
  let req := creation.req
  match creation.stage with
  | .entered =>
    let wanted := server.wanted req
    { server with creating := next (.looked wanted.1 wanted.2) }
  | .looked v4 v6 =>
    match IpPool.allocate v6Format server.pool (v4, v6) with
    | (pool, .error _) => { server with pool := pool, creating := none }
    | (pool, .ok (v4, v6)) => { server with pool := pool, creating := next (.allocated v4 v6) }
  | .allocated v4 v6 =>
    match firstToken req.toHandshakeReq creation.draws with
    | none => { server with pool := server.pool.release req.mac v4 v6, creating := none }
    | some _ => { server with creating := next (.secured v4 v6) }
  | .secured v4 v6 =>
    { server.addPort req.clientId server.hosts.length with creating := next (.ported v4 v6) }
  | .ported v4 v6 =>
    { server with creating := next (.resolved v4 v6 (server.ports req.clientId)) }
  | .resolved v4 v6 port =>
    { server.pinMac req.macBin ⟨req.clientId, port⟩ with creating := next (.pinned v4 v6) }
  | .pinned v4 v6 => { server.bindMac req.mac v4 v6 with creating := next (.bound v4 v6) }
  | .bound v4 v6 =>
    { server.register req.clientId server.hosts.length with
      creating := next (.registered v4 v6) }
  | .registered v4 v6 =>
    { server with hosts := server.hosts ++ [req.host v4 v6], creating := none }

def Server.setHost (server : Server) (index : Nat) (host : Host) : Server :=
  { server with hosts := server.hosts.set index host }

def Server.leave (server : Server) (index : Nat) (host : Host) : Option Server :=
  match host.stage with
  | .listed | .gone => none
  | .unlisted =>
    some { server.setHost index { host with stage := .unported } with
      ports := fun id => if id = host.clientId then none else server.ports id }
  | .unported =>
    some { server.setHost index { host with stage := .unpinned } with
      macTable := fun key =>
        (server.macTable key).filter fun entry => entry.portId != host.clientId }
  | .unpinned =>
    some { server.setHost index { host with stage := .unregistered } with
      registry := fun id => if id = host.clientId then none else server.registry id }
  | .unregistered =>
    some { server.setHost index { host with stage := .gone } with
      pool := server.pool.release host.mac host.ipv4 host.ipv6 }

inductive Label where
  | handshake (payload : Option Request) (banned : Text → Bool) (draws : Draws)
  | advance
  | destroy (index : Nat)
  | leave (index : Nat)

/-- A handshake and the first step of `destroy_session` take the map's write lock,
which a session under construction holds. -/
def Server.step (server : Server) (label : Label) : Option Server :=
  match label with
  | .handshake payload banned draws =>
    match server.creating, gate.screen payload banned with
    | some _, _ => none
    | none, .error _ => some server
    | none, .ok req =>
      if server.has req.clientId || server.full gate then some server
      else some { server with creating := some ⟨req, draws, .entered⟩ }
  | .advance => server.creating.map (server.advance v6Format)
  | .destroy index =>
    match server.creating, server.hosts[index]? with
    | none, some host =>
      if host.stage = .listed then some (server.setHost index { host with stage := .unlisted })
      else some server
    | _, _ => none
  | .leave index => (server.hosts[index]?).bind (server.leave index)

def Server.destroySession (server : Server) (index : Nat) : Server :=
  match server.hosts[index]? with
  | none => server
  | some host =>
    if host.stage = .listed then
      { server.setHost index { host with stage := .gone } with
        ports := fun id => if id = host.clientId then none else server.ports id
        macTable := fun key =>
          (server.macTable key).filter fun entry => entry.portId != host.clientId
        registry := fun id => if id = host.clientId then none else server.registry id
        pool := server.pool.release host.mac host.ipv4 host.ipv6 }
    else server

end Server

section Whole

variable {gate : Gate} {v6Format : AddressFormat 128} {server : Server} {req : Request}
  {draws : Draws}

def Server.building (server : Server) (req : Request) (draws : Draws) (stage : CreationStage) :
    Server := { server with creating := some ⟨req, draws, stage⟩ }

def advances (count : Nat) : List Label := List.replicate count .advance

variable {after : IpPool} {v4 v6 : Text} (payload : Option Request) (banned : Text → Bool)

theorem run_advance (stage : CreationStage) (count : Nat) :
    Runs.run (Server.step gate v6Format) (server.building req draws stage) (advances (count + 1)) =
      Runs.run (Server.step gate v6Format)
        ((server.building req draws stage).advance v6Format ⟨req, draws, stage⟩)
        (advances count) := rfl

theorem run_looked (count : Nat) :
    Runs.run (Server.step gate v6Format) (server.building req draws .entered)
        (advances (count + 1)) =
      Runs.run (Server.step gate v6Format)
        (server.building req draws (.looked (server.wanted req).1 (server.wanted req).2))
        (advances count) := rfl

theorem run_refused {refusal : Refusal} (free : server.creating = none)
    (allocated : IpPool.allocate v6Format server.pool (server.wanted req) = (after, .error refusal)) :
    Runs.run (Server.step gate v6Format) (server.building req draws .entered) (advances 2) =
      some { server with pool := after } := by
  rw [run_looked, run_advance]
  have same : (server.building req draws
      (.looked (server.wanted req).1 (server.wanted req).2)).advance v6Format
      ⟨req, draws, .looked (server.wanted req).1 (server.wanted req).2⟩ =
        { server with pool := after, creating := none } := by
    simp only [Server.advance, Server.building, Prod.mk.eta, allocated]
  rw [same, ← free]
  rfl

theorem run_allocated
    (allocated : IpPool.allocate v6Format server.pool (server.wanted req) = (after, .ok (v4, v6)))
    (count : Nat) :
    Runs.run (Server.step gate v6Format) (server.building req draws .entered)
        (advances (count + 2)) =
      Runs.run (Server.step gate v6Format)
        ({ server with pool := after }.building req draws (.allocated v4 v6)) (advances count) := by
  rw [run_looked, run_advance]
  congr 1
  simp only [Server.advance, Server.building, Prod.mk.eta, allocated]

section

variable (free : server.creating = none)
  (allocated : IpPool.allocate v6Format server.pool (server.wanted req) = (after, .ok (v4, v6)))

include free allocated

theorem run_tokenless (lacks : firstToken req.toHandshakeReq draws = none) :
    Runs.run (Server.step gate v6Format) (server.building req draws .entered) (advances 3) =
      some { server with pool := after.release req.mac v4 v6 } := by
  rw [run_allocated allocated, run_advance]
  have same : ({ server with pool := after }.building req draws (.allocated v4 v6)).advance v6Format
      ⟨req, draws, .allocated v4 v6⟩ =
        { server with pool := after.release req.mac v4 v6, creating := none } := by
    simp only [Server.advance, Server.building, lacks]
  rw [same, ← free]
  rfl

theorem run_created {token : Text} (fresh : firstToken req.toHandshakeReq draws = some token) :
    Runs.run (Server.step gate v6Format) (server.building req draws .entered) (advances 9) =
      some ({ server with pool := after }.created req v4 v6) := by
  have secured : ({ server with pool := after }.building req draws (.allocated v4 v6)).advance
      v6Format ⟨req, draws, .allocated v4 v6⟩ =
        { server with pool := after }.building req draws (.secured v4 v6) := by
    simp only [Server.advance, Server.building, fresh]
  have whole : Runs.run (Server.step gate v6Format)
      ({ server with pool := after }.building req draws (.secured v4 v6)) (advances 6) =
        some { { server with pool := after }.created req v4 v6 with creating := none } := rfl
  rw [run_allocated allocated, run_advance, secured, whole, ← free]
  rfl

end

inductive Handled (gate : Gate) (v6Format : AddressFormat 128) (server : Server)
    (payload : Option Request) (banned : Text → Bool) (draws : Draws) :
    Server × Except Refusal Bool → Prop where
  | screened (refusal : Refusal) (fails : gate.screen payload banned = .error refusal) :
      Handled gate v6Format server payload banned draws (server, .error refusal)
  | existing (req : Request) (passes : gate.screen payload banned = .ok req)
      (known : server.has req.clientId = true) :
      Handled gate v6Format server payload banned draws (server, .ok true)
  | limit (req : Request) (passes : gate.screen payload banned = .ok req)
      (absent : server.has req.clientId = false) (busy : server.full gate = true) :
      Handled gate v6Format server payload banned draws (server, .error .sessionLimit)
  | exhausted (req : Request) (after : IpPool) (refusal : Refusal)
      (passes : gate.screen payload banned = .ok req) (absent : server.has req.clientId = false)
      (room : server.full gate = false)
      (allocated : IpPool.allocate v6Format server.pool (server.wanted req) =
        (after, .error refusal)) :
      Handled gate v6Format server payload banned draws
        ({ server with pool := after }, .error refusal)
  | tokenless (req : Request) (after : IpPool) (v4 v6 : Text)
      (passes : gate.screen payload banned = .ok req) (absent : server.has req.clientId = false)
      (room : server.full gate = false)
      (allocated : IpPool.allocate v6Format server.pool (server.wanted req) =
        (after, .ok (v4, v6)))
      (lacks : firstToken req.toHandshakeReq draws = none) :
      Handled gate v6Format server payload banned draws
        ({ server with pool := after.release req.mac v4 v6 }, .error .noToken)
  | created (req : Request) (after : IpPool) (v4 v6 token : Text)
      (passes : gate.screen payload banned = .ok req) (absent : server.has req.clientId = false)
      (room : server.full gate = false)
      (allocated : IpPool.allocate v6Format server.pool (server.wanted req) =
        (after, .ok (v4, v6)))
      (fresh : firstToken req.toHandshakeReq draws = some token) :
      Handled gate v6Format server payload banned draws
        ({ server with pool := after }.created req v4 v6, .ok false)

theorem handle_handled (gate : Gate) (v6Format : AddressFormat 128) (server : Server)
    (payload : Option Request) (banned : Text → Bool) (draws : Draws) :
    Handled gate v6Format server payload banned draws
      (server.handle gate v6Format payload banned draws) := by
  unfold Server.handle
  cases screened : gate.screen payload banned with
  | error refusal => exact .screened refusal screened
  | ok req =>
    simp only
    by_cases known : server.has req.clientId = true
    · rw [if_pos known]
      exact .existing req screened known
    rw [if_neg known]
    have absent := Bool.eq_false_of_not_eq_true known
    by_cases busy : server.full gate = true
    · rw [if_pos busy]
      exact .limit req screened absent busy
    rw [if_neg busy]
    have room := Bool.eq_false_of_not_eq_true busy
    cases allocated : IpPool.allocate v6Format server.pool (server.wanted req) with
    | mk after answer =>
      cases answer with
      | error refusal => exact .exhausted req after refusal screened absent room allocated
      | ok addresses =>
        simp only
        cases fresh : firstToken req.toHandshakeReq draws with
        | none =>
          exact .tokenless req after addresses.1 addresses.2 screened absent room allocated
            fresh
        | some token =>
          exact .created req after addresses.1 addresses.2 token screened absent room
            allocated fresh

theorem run_started {payload : Option Request} {banned : Text → Bool}
    (passes : gate.screen payload banned = .ok req) (free : server.creating = none)
    (absent : server.has req.clientId = false) (room : server.full gate = false) (count : Nat) :
    Runs.run (Server.step gate v6Format) server
        (.handshake payload banned draws :: advances count) =
      Runs.run (Server.step gate v6Format) (server.building req draws .entered)
        (advances count) := by
  simp only [Runs.run, Server.step, free, passes, absent, room, Bool.or_false, Bool.false_eq_true,
    if_false]
  rfl

theorem handle_runs (draws : Draws) (free : server.creating = none) :
    ∃ count, Runs.run (Server.step gate v6Format) server
        (.handshake payload banned draws :: advances count) =
      some (server.handle gate v6Format payload banned draws).1 := by
  have handled := handle_handled gate v6Format server payload banned draws
  generalize server.handle gate v6Format payload banned draws = result at handled
  cases handled with
  | screened refusal fails =>
    refine ⟨0, ?_⟩
    simp [Runs.run, Server.step, free, fails, advances]
  | existing req passes known =>
    refine ⟨0, ?_⟩
    simp [Runs.run, Server.step, free, passes, known, advances]
  | limit req passes absent busy =>
    refine ⟨0, ?_⟩
    simp [Runs.run, Server.step, free, passes, absent, busy, advances]
  | exhausted req after refusal passes absent room allocated =>
    refine ⟨2, ?_⟩
    rw [run_started passes free absent room, run_refused free allocated]
  | tokenless req after v4 v6 passes absent room allocated lacks =>
    refine ⟨3, ?_⟩
    rw [run_started passes free absent room, run_tokenless free allocated lacks]
  | created req after v4 v6 token passes absent room allocated fresh =>
    refine ⟨9, ?_⟩
    rw [run_started passes free absent room, run_created free allocated fresh]

def leaving (index : Nat) : List Label :=
  [.destroy index, .leave index, .leave index, .leave index, .leave index]

theorem destroySession_runs {index : Nat} {host : Host} (free : server.creating = none)
    (there : server.hosts[index]? = some host) (listed : host.stage = .listed) :
    Runs.run (Server.step gate v6Format) server (leaving index) =
      some (server.destroySession index) := by
  have inside := (List.getElem?_eq_some_iff.mp there).1
  simp only [leaving, Runs.run, Server.step, free, there, listed, if_true, Server.setHost,
    List.getElem?_set_self inside, Option.bind_some, Server.leave, List.set_set,
    Server.destroySession]

end Whole

section Passed

variable {gate : Gate} {payload : Option Request} {banned : Text → Bool} {req : Request}

structure Passed (gate : Gate) (req : Request) : Prop where
  cipher : (gate.settings.encrypt && req.encAlgo != gate.settings.encAlgo) = false
  fec : (req.fec && (decide (req.fecGroup < gate.settings.fecGroupMin) ||
    decide (req.fecGroup > gate.settings.fecGroupMax))) = false
  id : req.clientId = gate.expectedId req.mac
  mac : ∃ raw key, parseMacKey raw = some key ∧ req.mac = macText key ∧ key ≠ List.replicate 6 0

theorem screen_passed (passes : gate.screen payload banned = .ok req) : Passed gate req := by
  cases payload with
  | none => cases passes
  | some raw =>
    simp only [Gate.screen, canonicalMac] at passes
    cases struck : (gate.checks raw).find? Prod.fst with
    | some check =>
      rw [struck] at passes
      cases passes
    | none =>
      have clear : ∀ check ∈ gate.checks raw, check.1 = false := by
        intro check member
        exact Bool.eq_false_of_not_eq_true (List.find?_eq_none.mp struck check member)
      have cipher := clear (gate.settings.encrypt && raw.encAlgo != gate.settings.encAlgo,
        .otherCipher) (by simp [Gate.checks])
      have validMac := clear (!isValidSessionMac raw.mac, .badMac) (by simp [Gate.checks])
      have fec := clear (raw.fec && (decide (raw.fecGroup < gate.settings.fecGroupMin) ||
        decide (raw.fecGroup > gate.settings.fecGroupMax)), .fecPolicy) (by simp [Gate.checks])
      cases read : parseMacKey raw.mac with
      | none =>
        rw [struck, read] at passes
        cases passes
      | some key =>
        rw [struck, read] at passes
        simp only [Option.map_some] at passes
        split at passes
        · cases passes
        rename_i id
        split at passes
        · cases passes
        cases passes
        refine ⟨cipher, fec, not_not.mp id, raw.mac, key, read, rfl, ?_⟩
        rintro rfl
        rw [isValidSessionMac, read] at validMac
        cases validMac

end Passed

end TlsVpn.Admission

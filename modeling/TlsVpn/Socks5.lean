import TlsVpn.AddressText
import TlsVpn.XorBytes

/-!
The client's SOCKS5 handshake: the proxy spec, the bytes `connect_over` writes
and the bytes it takes off the socket. A socket is what the proxy will send
before it closes or falls silent, what was written to it, and how many more
writes succeed. The other side of the conversation is read as RFC 1928 and
RFC 1929 have it.
-/

namespace TlsVpn.Socks5

open AddressText XorBytes

section Spec

structure Socks5Proxy where
  host : Text
  port : UInt16
  username : Option Text
  password : Option Text
  deriving DecidableEq

/-- `rsplit_once`. -/
def cutLast (mark : Char) (text : Text) : Option (Text × Text) :=
  match cut mark text.reverse with
  | (after, some before) => some (before.reverse, after.reverse)
  | (_, none) => none

/-- `str::parse::<u16>`. -/
def parseU16 (text : Text) : Option UInt16 :=
  ((parseU32 text).filter fun value => decide (value ≤ 65535)).map UInt16.ofNat

def stripScheme (text : Text) : Option Text :=
  match "socks5h://".toList.isPrefixOf? text with
  | some rest => some rest
  | none =>
    match "socks5://".toList.isPrefixOf? text with
    | some rest => some rest
    | none => if "://".toList <:+: text then none else some text

def splitAuth (text : Text) : Option (Text × Text) × Text :=
  match cutLast '@' text with
  | some (auth, hostport) => (some ((cut ':' auth).1, (cut ':' auth).2.getD []), hostport)
  | none => (none, text)

def isBracket (char : Char) : Bool := char == '[' || char == ']'

def Socks5Proxy.parse (spec : Text) : Option Socks5Proxy := do
  let text ← stripScheme (trim spec)
  let (auth, hostport) := splitAuth text
  let (host, port) ← cutLast ':' hostport
  let port ← parseU16 port
  let host := (host.dropWhile isBracket).rdropWhile isBracket
  if host.isEmpty then none else some ⟨host, port, auth.map Prod.fst, auth.map Prod.snd⟩

end Spec

section Socket

inductive ErrorKind where
  | invalidData
  | permissionDenied
  | connectionRefused

inductive Error where
  /-- What the socket itself reports. -/
  | io
  | custom (kind : ErrorKind) (message : String)

structure ProxyStream where
  configurable : Bool
  incoming : Bytes
  writes : Nat
  outgoing : Bytes

abbrev Handshake := StateT ProxyStream (Except Error)

def setTimeouts : Handshake Unit := fun stream =>
  if stream.configurable then .ok ((), stream) else .error .io

def readExact (count : Nat) : Handshake Bytes := fun stream =>
  if stream.incoming.length < count then .error .io
  else .ok (stream.incoming.take count, { stream with incoming := stream.incoming.drop count })

def writeAll (bytes : Bytes) : Handshake Unit := fun stream =>
  match stream.writes with
  | 0 => .error .io
  | left + 1 =>
    .ok ((), { stream with writes := left, outgoing := stream.outgoing ++ bytes })

def refuse {Value : Type} (kind : ErrorKind) (message : String) : Handshake Value :=
  fun _ => .error (.custom kind message)

/-- One call moved the socket on: it took these bytes off and wrote those. -/
structure Moved (stream after : ProxyStream) (taken written : Bytes) : Prop where
  incoming : stream.incoming = taken ++ after.incoming
  outgoing : after.outgoing = stream.outgoing ++ written

variable {stream middle after : ProxyStream} {First Value : Type}
variable {done : Unit} {bytes : Bytes}

theorem Moved.rest (stream : ProxyStream) : Moved stream stream [] [] :=
  ⟨rfl, (List.append_nil _).symm⟩

theorem Moved.trans {taken written later more : Bytes} (first : Moved stream middle taken written)
    (second : Moved middle after later more) :
    Moved stream after (taken ++ later) (written ++ more) := by
  constructor
  · rw [first.incoming, second.incoming, List.append_assoc]
  · rw [second.outgoing, first.outgoing, List.append_assoc]

theorem bind_ok {call : Handshake First} {next : First → Handshake Value} {value : Value}
    (ended : (call >>= next) stream = .ok (value, after)) :
    ∃ first middle, call stream = .ok (first, middle) ∧ next first middle = .ok (value, after) := by
  cases began : call stream with
  | error error =>
    simp only [bind, StateT.bind, began, Except.bind] at ended
    cases ended
  | ok result =>
    simp only [bind, StateT.bind, began, Except.bind] at ended
    exact ⟨result.1, result.2, rfl, ended⟩

theorem setTimeouts_ok (ended : setTimeouts stream = .ok (done, after)) :
    Moved stream after [] [] := by
  unfold setTimeouts at ended
  split at ended
  · cases ended
    exact Moved.rest stream
  · cases ended

theorem readExact_ok {count : Nat} (ended : readExact count stream = .ok (bytes, after)) :
    bytes.length = count ∧ Moved stream after bytes [] := by
  unfold readExact at ended
  split at ended
  · cases ended
  · rename_i enough
    cases ended
    exact ⟨List.length_take_of_le (Nat.not_lt.mp enough), (List.take_append_drop _ _).symm,
      (List.append_nil _).symm⟩

theorem writeAll_ok (ended : writeAll bytes stream = .ok (done, after)) :
    Moved stream after [] bytes := by
  unfold writeAll at ended
  split at ended
  · cases ended
  · cases ended
    exact ⟨rfl, rfl⟩

end Socket

section Handshake

variable (parseV6 : Text → Option (BitVec 128))

def utf8 (text : Text) : Bytes := text.flatMap String.utf8EncodeChar

/-- A field behind its length, which `as u8` cuts to one byte. -/
def prefixed (bytes : Bytes) : Bytes := UInt8.ofNat bytes.length :: bytes

def octets : Nat → Nat → Bytes
  | 0, _ => []
  | count + 1, value => octets count (value / 256) ++ [UInt8.ofNat value]

def Socks5Proxy.user (proxy : Socks5Proxy) : Bytes := utf8 (proxy.username.getD [])

def Socks5Proxy.secret (proxy : Socks5Proxy) : Bytes := utf8 (proxy.password.getD [])

def Socks5Proxy.greeting (proxy : Socks5Proxy) : Bytes :=
  5 :: prefixed (if proxy.username.isSome then [0, 2] else [0])

def Socks5Proxy.auth (proxy : Socks5Proxy) : Bytes :=
  1 :: (prefixed proxy.user ++ prefixed proxy.secret)

def targetAddress (host : Text) : Bytes :=
  match parseDotted host with
  | some ip => 1 :: octets 4 ip.toNat
  | none =>
    match parseV6 host with
    | some ip => 4 :: octets 16 ip.toNat
    | none => 3 :: prefixed (utf8 host)

def request (host : Text) (port : UInt16) : Bytes :=
  [5, 1, 0] ++ (targetAddress parseV6 host ++ octets 2 port.toNat)

def Socks5Proxy.chooseMethod (proxy : Socks5Proxy) : Handshake Unit := do
  writeAll proxy.greeting
  let response ← readExact 2
  if response.getD 0 0 ≠ 5 then refuse .invalidData "socks5: bad version in server greeting"
  else if response.getD 1 0 = 0 then pure ()
  else if response.getD 1 0 = 2 then do
    writeAll proxy.auth
    let response ← readExact 2
    if response.getD 0 0 ≠ 1 ∨ response.getD 1 0 ≠ 0 then
      refuse .permissionDenied "socks5: username/password auth failed"
    else pure ()
  else
    refuse .invalidData ("socks5: unsupported auth method " ++ toString (response.getD 1 0))

def reason (code : UInt8) : String :=
  match code.toNat with
  | 1 => "general failure"
  | 2 => "connection not allowed by ruleset"
  | 3 => "network unreachable"
  | 4 => "host unreachable"
  | 5 => "connection refused"
  | 6 => "TTL expired"
  | 7 => "command not supported"
  | 8 => "address type not supported"
  | _ => "unknown"

/-- The bound address: a domain's port is left on the socket, and so is whatever
follows a type the code does not know. -/
def readBound (kind : UInt8) : Handshake Bytes :=
  if kind = 1 then readExact 6
  else if kind = 4 then readExact 18
  else if kind = 3 then do
    let length ← readExact 1
    let name ← readExact (length.getD 0 0).toNat
    pure (length ++ name)
  else pure []

def Socks5Proxy.connectOver (proxy : Socks5Proxy) (host : Text) (port : UInt16) :
    Handshake Unit := do
  setTimeouts
  proxy.chooseMethod
  writeAll (request parseV6 host port)
  let head ← readExact 4
  if head.getD 0 0 ≠ 5 then refuse .invalidData "socks5: bad version in connect reply"
  else if head.getD 1 0 ≠ 0 then
    refuse .connectionRefused ("socks5: CONNECT failed (" ++ reason (head.getD 1 0) ++ ")")
  else do
    let _ ← readBound (head.getD 3 0)
    pure ()

end Handshake

section Conversation

variable {stream after : ProxyStream}

inductive Chosen (proxy : Socks5Proxy) : UInt8 → Bytes → Bytes → Prop where
  | none : Chosen proxy 0 [] []
  | password : Chosen proxy 2 [1, 0] proxy.auth

variable {bytes : Bytes} {proxy : Socks5Proxy} {done : Unit}

theorem bytes_listed {count : Nat} (length : bytes.length = count) :
    bytes = (List.range count).map fun place => bytes.getD place 0 := by
  subst length
  apply List.ext_getElem
  · simp
  · intro place inside _
    simp [List.getElem?_eq_getElem inside]

theorem pair_listed (length : bytes.length = 2) : bytes = [bytes.getD 0 0, bytes.getD 1 0] :=
  bytes_listed length

theorem chooseMethod_ok (ended : proxy.chooseMethod stream = .ok (done, after)) :
    ∃ method reply sent, Chosen proxy method reply sent ∧
      Moved stream after ([5, method] ++ reply) (proxy.greeting ++ sent) := by
  obtain ⟨_, greeted, wrote, ended⟩ := bind_ok ended
  obtain ⟨response, answered, read, ended⟩ := bind_ok ended
  obtain ⟨length, taken⟩ := readExact_ok read
  have moved := (writeAll_ok wrote).trans taken
  rw [pair_listed length, List.nil_append] at moved
  split at ended
  · cases ended
  rename_i version
  rw [not_not.mp version] at moved
  split at ended
  · rename_i method
    cases ended
    rw [method] at moved
    exact ⟨0, [], [], .none, moved⟩
  split at ended
  · rename_i method
    obtain ⟨_, offered, wrote, ended⟩ := bind_ok ended
    obtain ⟨verdict, judged, read, ended⟩ := bind_ok ended
    obtain ⟨length, taken⟩ := readExact_ok read
    have later := (writeAll_ok wrote).trans taken
    rw [pair_listed length, List.nil_append, List.append_nil] at later
    rw [method] at moved
    split at ended
    · cases ended
    · rename_i accepted
      obtain ⟨first, second⟩ := not_or.mp accepted
      rw [not_not.mp first, not_not.mp second] at later
      cases ended
      refine ⟨2, [1, 0], proxy.auth, .password, ?_⟩
      have whole := moved.trans later
      rw [List.append_nil] at whole
      exact whole
  · cases ended

inductive BoundRead : UInt8 → Bytes → Prop where
  | v4 (bytes : Bytes) (length : bytes.length = 6) : BoundRead 1 bytes
  | v6 (bytes : Bytes) (length : bytes.length = 18) : BoundRead 4 bytes
  | domain (length : UInt8) (name : Bytes) (whole : name.length = length.toNat) :
    BoundRead 3 (length :: name)
  | unknown (kind : UInt8) (other : kind ≠ 1 ∧ kind ≠ 4 ∧ kind ≠ 3) : BoundRead kind []

theorem readBound_ok {kind : UInt8} {bound : Bytes}
    (ended : readBound kind stream = .ok (bound, after)) :
    BoundRead kind bound ∧ Moved stream after bound [] := by
  unfold readBound at ended
  split at ended
  · rename_i v4
    obtain ⟨length, moved⟩ := readExact_ok ended
    exact ⟨v4 ▸ .v4 bound length, moved⟩
  split at ended
  · rename_i v6
    obtain ⟨length, moved⟩ := readExact_ok ended
    exact ⟨v6 ▸ .v6 bound length, moved⟩
  split at ended
  · rename_i domain
    obtain ⟨count, counted, read, ended⟩ := bind_ok ended
    obtain ⟨name, named, more, ended⟩ := bind_ok ended
    obtain ⟨single, first⟩ := readExact_ok read
    obtain ⟨whole, second⟩ := readExact_ok more
    obtain ⟨length, rfl⟩ := List.length_eq_one_iff.mp single
    cases ended
    exact ⟨domain ▸ .domain length name whole, first.trans second⟩
  · rename_i apart
    cases ended
    exact ⟨.unknown kind ⟨by assumption, by assumption, apart⟩, Moved.rest stream⟩

theorem connectOver_ok {parseV6 : Text → Option (BitVec 128)} {host : Text} {port : UInt16}
    (ended : proxy.connectOver parseV6 host port stream = .ok (done, after)) :
    ∃ method reply sent reserved kind bound, Chosen proxy method reply sent ∧
      BoundRead kind bound ∧
      Moved stream after ([5, method] ++ reply ++ ([5, 0, reserved, kind] ++ bound))
        (proxy.greeting ++ sent ++ request parseV6 host port) := by
  obtain ⟨_, ready, began, ended⟩ := bind_ok ended
  obtain ⟨_, chosen, choice, ended⟩ := bind_ok ended
  obtain ⟨method, reply, sent, which, moved⟩ := chooseMethod_ok choice
  obtain ⟨_, asked, wrote, ended⟩ := bind_ok ended
  obtain ⟨head, answered, read, ended⟩ := bind_ok ended
  obtain ⟨length, taken⟩ := readExact_ok read
  have listed : head = [head.getD 0 0, head.getD 1 0, head.getD 2 0, head.getD 3 0] :=
    bytes_listed length
  split at ended
  · cases ended
  rename_i known
  split at ended
  · cases ended
  rename_i granted
  obtain ⟨bound, bounded, last, ended⟩ := bind_ok ended
  obtain ⟨complete, rest⟩ := readBound_ok last
  cases ended
  rw [listed, not_not.mp known, not_not.mp granted] at taken
  have whole := ((((setTimeouts_ok began).trans moved).trans (writeAll_ok wrote)).trans taken).trans
    rest
  simp only [List.nil_append, List.append_nil, List.append_assoc] at whole ⊢
  exact ⟨method, reply, sent, _, _, bound, which, complete, whole⟩

end Conversation

section Replies

def replyLength : Bytes → Option Nat
  | 5 :: _ :: _ :: kind :: rest =>
    if kind = 1 then some 10
    else if kind = 4 then some 22
    else if kind = 3 then rest.head?.map fun length => 7 + length.toNat
    else none
  | _ => none

theorem replyLength_read {kind : UInt8} {bound : Bytes} (read : BoundRead kind bound)
    (code reserved : UInt8) :
    replyLength (5 :: code :: reserved :: kind :: bound) = some (4 + bound.length) ↔
      kind = 1 ∨ kind = 4 := by
  cases read with
  | v4 bytes length => simp [replyLength, length]
  | v6 bytes length => simp [replyLength, length]
  | domain length name whole =>
    simp only [replyLength, List.head?_cons, Option.map_some, List.length_cons, whole]
    constructor
    · intro same
      have := Option.some.inj same
      omega
    · rintro (same | same) <;> cases same
  | unknown kind other =>
    simp only [replyLength, if_neg other.1, if_neg other.2.1, if_neg other.2.2]
    constructor
    · intro same
      cases same
    · rintro (same | same)
      · exact absurd same other.1
      · exact absurd same other.2.1

/-- What a successful handshake takes off the socket is the method reply, the
authentication reply if there was one to wait for, and a complete CONNECT reply,
exactly if the reply carries an IPv4 or IPv6 address. -/
theorem reply_framing (parseV6 : Text → Option (BitVec 128)) (proxy : Socks5Proxy) (host : Text)
    (port : UInt16) (stream after : ProxyStream)
    (ended : proxy.connectOver parseV6 host port stream = .ok ((), after)) :
    ∃ method auth reply, stream.incoming = method ++ auth ++ reply ++ after.incoming ∧
      method.length = 2 ∧ auth.length = (if method[1]? = some 2 then 2 else 0) ∧
      (replyLength reply = some reply.length ↔ reply[3]? = some 1 ∨ reply[3]? = some 4) := by
  obtain ⟨method, auth, _, reserved, kind, bound, chosen, read, moved⟩ := connectOver_ok ended
  have framed := replyLength_read read 0 reserved
  rw [Nat.add_comm 4] at framed
  refine ⟨[5, method], auth, 5 :: 0 :: reserved :: kind :: bound, moved.incoming, rfl, ?_, ?_⟩
  · cases chosen <;> rfl
  · simpa using framed

def sampleProxy : Socks5Proxy := ⟨"p".toList, 1080, some "u".toList, some "w".toList⟩

def answering (incoming : Bytes) : ProxyStream := ⟨true, incoming, 9, []⟩

/-- A proxy that asks for the password and answers with an IPv4 address; 22 is the
first byte of the tunnel. -/
theorem reply_framing_v4 : ∃ after method auth reply,
    sampleProxy.connectOver (fun _ => none) "1.2.3.4".toList 443
      (answering [5, 2, 1, 0, 5, 0, 0, 1, 10, 0, 0, 1, 0, 80, 22]) = .ok ((), after) ∧
    after.incoming = [22] ∧ [5, 2, 1, 0, 5, 0, 0, 1, 10, 0, 0, 1, 0, 80] = method ++ auth ++ reply ∧
    (replyLength reply = some reply.length ↔ reply[3]? = some 1 ∨ reply[3]? = some 4) := by
  obtain ⟨method, auth, reply, order, _, _, framed⟩ := reply_framing (fun _ => none) sampleProxy
    "1.2.3.4".toList 443 (answering [5, 2, 1, 0, 5, 0, 0, 1, 10, 0, 0, 1, 0, 80, 22]) _ rfl
  exact ⟨_, method, auth, reply, rfl, rfl, @List.append_cancel_right _ _ [22] _ order, framed⟩

/-- The port of a domain name stays on the socket, in front of the tunnel. -/
theorem domain_port_unread : ∃ after,
    sampleProxy.connectOver (fun _ => none) "1.2.3.4".toList 443
      (answering ([5, 0] ++ [5, 0, 0, 3, 1, 97, 0, 80] ++ [22])) = .ok ((), after) ∧
    replyLength [5, 0, 0, 3, 1, 97, 0, 80] = some 8 ∧ after.incoming = [0, 80, 22] :=
  ⟨_, rfl, rfl, rfl⟩

end Replies

section Requests

def bigEndian (bytes : Bytes) : Nat := bytes.foldl (fun value byte => value * 256 + byte.toNat) 0

inductive Target where
  | v4 (address : BitVec 32)
  | v6 (address : BitVec 128)
  | domain (name : Bytes)
  deriving DecidableEq

structure Requested where
  credentials : Option (Bytes × Bytes)
  target : Target
  port : UInt16
  deriving DecidableEq

def splitOff (count : Nat) (bytes : Bytes) : Option (Bytes × Bytes) :=
  if bytes.length < count then none else some (bytes.take count, bytes.drop count)

def decodeField : Bytes → Option (Bytes × Bytes)
  | length :: rest => splitOff length.toNat rest
  | [] => none

def decodeGreeting : Bytes → Option Bytes
  | 5 :: rest => (decodeField rest).map Prod.snd
  | _ => none

/-- RFC 1929. -/
def decodeAuth : Bytes → Option (Option (Bytes × Bytes) × Bytes)
  | 1 :: rest =>
    (decodeField rest).bind fun user =>
      (decodeField user.2).map fun secret => (some (user.1, secret.1), secret.2)
  | _ => none

def decodeTarget : Bytes → Option (Target × Bytes)
  | 1 :: rest =>
    (splitOff 4 rest).map fun parts => (.v4 (BitVec.ofNat 32 (bigEndian parts.1)), parts.2)
  | 4 :: rest =>
    (splitOff 16 rest).map fun parts => (.v6 (BitVec.ofNat 128 (bigEndian parts.1)), parts.2)
  | 3 :: rest => (decodeField rest).map fun parts => (.domain parts.1, parts.2)
  | _ => none

/-- The command is CONNECT, and the port ends the message. -/
def decodeConnect : Bytes → Option (Target × UInt16)
  | 5 :: 1 :: 0 :: rest =>
    (decodeTarget rest).bind fun parts =>
      if parts.2.length = 2 then some (parts.1, UInt16.ofNat (bigEndian parts.2)) else none
  | _ => none

def decode (method : UInt8) (bytes : Bytes) : Option Requested :=
  (decodeGreeting bytes).bind fun rest =>
    (if method = 2 then decodeAuth rest else some (none, rest)).bind fun credentials =>
      (decodeConnect credentials.2).map fun connect => ⟨credentials.1, connect.1, connect.2⟩

/-- The address a host stands for, or its name. -/
def target (parseV6 : Text → Option (BitVec 128)) (host : Text) : Target :=
  match parseDotted host with
  | some ip => .v4 ip
  | none =>
    match parseV6 host with
    | some ip => .v6 ip
    | none => .domain (utf8 host)

def wanted (parseV6 : Text → Option (BitVec 128)) (proxy : Socks5Proxy) (method : UInt8)
    (host : Text) (port : UInt16) : Requested :=
  ⟨if method = 2 then some (proxy.user, proxy.secret) else none, target parseV6 host, port⟩

def Target.Fits : Target → Prop
  | .domain name => name.length ≤ 255
  | _ => True

variable {bytes rest tail : Bytes} {parseV6 : Text → Option (BitVec 128)} {host : Text}
  {port : UInt16}

end Requests

end TlsVpn.Socks5

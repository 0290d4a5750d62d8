import TlsVpn.RegistryDecoding
import TlsVpn.ClientSession

/-!
FEC group sizes on both ends. The server fixes a session's size when the session
is created; the client asks for the size of its configuration, adopts what the
first response with FEC names, and keeps that for as long as the process runs.
The two outlive each other: a session is joined by later processes of the same
client, and a process meets sessions created later.

One client is followed through its processes, with everything else that happens
to the server's table around it. Its requests and the processing of their
responses are separate steps, so handshakes of several connections overlap.
-/

namespace TlsVpn.Agreement

open Words Fec Port Registry Holdings
open ClientSession hiding Conn Label Stage

section Model

/-- One run of the client program. `pending` are the handshakes the server has
accepted and whose response the client has not processed. -/
structure Process where
  config : ClientSession.Config
  fecGroup : Nat
  client : Client
  pending : List Nat

/-- `fec_group_req`, or no group. -/
def askedGroup (config : ClientSession.Config) (fecGroup : Nat) : Int :=
  if config.fecMode then (clampFecGroup (if fecGroup = 0 then 4 else fecGroup) : Nat) else 0

def Process.asked (process : Process) : Int := askedGroup process.config process.fecGroup

def Process.effective (process : Process) : Int :=
  if process.config.fecMode then process.client.session.fecNegotiated else 0

def Process.request (process : Process) (clientId mac instanceId token : List Char) :
    HandshakeReq where
  clientId := clientId
  mac := mac
  clientInstance := instanceId
  encAlgo := if process.config.encrypt then process.config.encAlgo else encAlgoNone
  fec := process.config.fecMode
  fecGroup := process.asked
  brutalConns := process.config.connsCount
  sessionToken := token

def received (resp : HandshakeResp) : Response where
  protocolVersion := Protocol.protocolVersion
  identity := ⟨resp.sessionId, resp.sessionEpoch⟩
  encrypt := resp.encrypt
  encAlgo := resp.encAlgo
  encSalt := resp.encSalt
  encSalt2 := resp.encSalt2
  fecGroup := resp.fecGroup

structure Link where
  table : Table
  process : Option Process

def Link.new : Link := ⟨Table.new, none⟩

inductive Label where
  | start (config : ClientSession.Config) (fecGroup : Nat) (instanceId : List Char)
      (restored : Identity)
  | request (instanceId token : List Char) (draws : Draws)
  | server (label : Registry.Label)
  | respond (conn : Nat)

def foreign (clientId : List Char) : Registry.Label → Bool
  | .enter req _ => req.clientId != clientId
  | _ => true

def Link.request (core : ServerCore) (link : Link) (process : Process) (req : HandshakeReq)
    (draws : Draws) : Link :=
  let table := link.table.enter core req draws
  let counted := if link.table.conns.length < table.conns.length then
      [link.table.conns.length]
    else []
  ⟨table, some { process with pending := process.pending ++ counted }⟩

def Link.step (core : ServerCore) (clientId mac : List Char) (link : Link) :
    Label → Option Link
  | .start config fecGroup instanceId restored =>
    some { link with process := some ⟨config, fecGroup, Client.new config instanceId restored, []⟩ }
  | .request instanceId token draws =>
    link.process.map fun process =>
      link.request core process (process.request clientId mac instanceId token) draws
  | .server label =>
    if foreign clientId label then
      (link.table.step core label).map fun table => { link with table := table }
    else none
  | .respond conn =>
    match link.process, (link.table.conns[conn]?).bind Conn.response with
    | some process, some resp =>
      if conn ∈ process.pending then
        (accept process.config (received resp)).map fun keys =>
          { link with
            process := some { process with
              client := process.client.respond process.config keys (received resp)
              pending := process.pending.erase conn } }
      else none
    | _, _ => none

/-- A process starts while the server has a session of its client only if that
session has no FEC or the group size the process asks for. -/
def Link.steady (clientId : List Char) (link : Link) : Label → Bool
  | .start config fecGroup _ _ =>
    match link.table.locate clientId with
    | some (_, session) =>
      session.fecEncK == 0 || session.fecEncK == askedGroup config fecGroup
    | none => true
  | _ => true

end Model

section Table

variable {core : ServerCore} {table next : Table} {label : Registry.Label}

/-- What no step changes in a session, except that the table may lose it. -/
structure Carried (before after : Session) : Prop where
  clientId : after.clientId = before.clientId
  size : after.fecEncK = before.fecEncK
  listed : after.listed = true → before.listed = true

variable {req : HandshakeReq} {draws : Draws} {clientId : List Char}

theorem Carried.refl (session : Session) : Carried session session := ⟨rfl, rfl, id⟩

theorem joined_carried {session after : Session} {counted : Bool}
    (joined : Joined core session req draws after counted) : Carried session after := by
  cases joined <;> exact ⟨rfl, rfl, id⟩

theorem replaced_sessions {index other : Nat} {session after found : Session}
    (there : table.sessions[index]? = some session) (carried : Carried session after)
    (lookup : (table.sessions.set index after)[other]? = some found) :
    ∃ before, table.sessions[other]? = some before ∧ Carried before found := by
  rcases lookup_set lookup with ⟨rfl, rfl⟩ | ⟨_, before⟩
  · exact ⟨session, there, carried⟩
  · exact ⟨found, before, .refl found⟩

theorem moved_sessions (moved : Moved core table label next) (index : Nat) (after : Session)
    (lookup : next.sessions[index]? = some after) :
    (∃ before, table.sessions[index]? = some before ∧ Carried before after) ∨
      (index = table.sessions.length ∧ ∃ req draws token, label = .enter req draws ∧
        table.find req.clientId = none ∧ after = core.create req draws token) := by
  cases moved with
  | refused req draws => exact Or.inl ⟨after, lookup, .refl after⟩
  | joined req draws place session changed admissible found there joined =>
    exact Or.inl (replaced_sessions there (joined_carried joined) lookup)
  | counted req draws place session changed admissible found there joined =>
    exact Or.inl (replaced_sessions there (joined_carried joined) lookup)
  | created req draws token admissible absent =>
    rcases lookup_concat lookup with old | ⟨last, made⟩
    · exact Or.inl ⟨after, old, .refl after⟩
    · exact Or.inr ⟨last, req, draws, token, rfl, absent, made⟩
  | prepared place conn session found there stage =>
    refine Or.inl (replaced_sessions there ?_ lookup)
    obtain ⟨actor, shared, same⟩ := prepare_decoder session
    rw [same]
    exact ⟨rfl, rfl, id⟩
  | snapshot place conn session found there stage => exact Or.inl ⟨after, lookup, .refl after⟩
  | fed place conn session frame found there =>
    refine Or.inl (replaced_sessions there ?_ lookup)
    obtain ⟨actor, shared, same⟩ := feed_decoder session frame
    rw [same]
    exact ⟨rfl, rfl, id⟩
  | departed place conn session found there stage stale =>
    exact Or.inl ⟨after, lookup, .refl after⟩
  | closing place conn session found there stage current =>
    exact Or.inl ⟨after, lookup, .refl after⟩
  | uncounted place conn session now found there stage =>
    refine Or.inl (replaced_sessions there ?_ lookup)
    obtain ⟨version, deadline, left⟩ := uncount_left session now
    rw [left]
    exact ⟨rfl, rfl, id⟩
  | ranOut place session there =>
    refine Or.inl (replaced_sessions there ?_ lookup)
    exact ⟨rfl, rfl, id⟩
  | exhausted place conn session suffix found there stage =>
    refine Or.inl (replaced_sessions there ?_ lookup)
    unfold Session.exhaust
    split <;> exact ⟨rfl, rfl, id⟩
  | scanned now => exact Or.inl ⟨after, lookup, .refl after⟩
  | reaped place session there collected listed =>
    refine Or.inl (replaced_sessions there ?_ lookup)
    exact ⟨rfl, rfl, fun gone => absurd gone Bool.false_ne_true⟩
  | spared place => exact Or.inl ⟨after, lookup, .refl after⟩
  | kicked clientId place session there =>
    refine Or.inl (replaced_sessions there ?_ lookup)
    exact ⟨rfl, rfl, fun gone => absurd gone Bool.false_ne_true⟩
  | missed clientId => exact Or.inl ⟨after, lookup, .refl after⟩

structure Followed (core : ServerCore) (table : Table) (before after : Conn) : Prop where
  session : after.session = before.session
  response : after.response = before.response ∨
    ∃ session, table.sessions[before.session]? = some session ∧
      after.response = some (core.response session)

theorem Followed.refl (conn : Conn) : Followed core table conn conn := ⟨rfl, Or.inl rfl⟩

theorem replaced_conns {place index : Nat} {conn after found : Conn}
    (there : table.conns[place]? = some conn) (followed : Followed core table conn after)
    (lookup : (table.conns.set place after)[index]? = some found) :
    ∃ before, table.conns[index]? = some before ∧ Followed core table before found := by
  rcases lookup_set lookup with ⟨rfl, rfl⟩ | ⟨_, before⟩
  · exact ⟨conn, there, followed⟩
  · exact ⟨found, before, .refl found⟩

theorem find_listed {index : Nat} (found : table.find clientId = some index) :
    ∃ session, table.sessions[index]? = some session ∧ session.listed = true ∧
      session.clientId = clientId := by
  obtain ⟨inside, passes, _⟩ := List.findIdx?_eq_some_iff_getElem.mp found
  simp only [Bool.and_eq_true, beq_iff_eq] at passes
  exact ⟨table.sessions[index], List.getElem?_eq_getElem inside, passes⟩

theorem find_none (absent : table.find clientId = none) (index : Nat) (session : Session)
    (there : table.sessions[index]? = some session) (listed : session.listed = true) :
    session.clientId ≠ clientId := by
  intro own
  have fails := List.findIdx?_eq_none_iff.mp absent session (List.mem_of_getElem? there)
  simp [listed, own] at fails

theorem moved_conns (moved : Moved core table label next) (index : Nat) (after : Conn)
    (lookup : next.conns[index]? = some after) :
    (∃ before, table.conns[index]? = some before ∧ Followed core table before after) ∨
      (index = table.conns.length ∧ after.response = none ∧
        after.session < next.sessions.length) := by
  cases moved with
  | counted req draws place session changed admissible found there joined =>
    rcases lookup_concat lookup with before | ⟨last, rfl⟩
    · exact Or.inl ⟨after, before, .refl after⟩
    · refine Or.inr ⟨last, rfl, ?_⟩
      simpa [Table.addConn, Table.setSession] using (List.getElem?_eq_some_iff.mp there).1
  | created req draws token admissible absent =>
    rcases lookup_concat lookup with before | ⟨last, rfl⟩
    · exact Or.inl ⟨after, before, .refl after⟩
    · exact Or.inr ⟨last, rfl, by simp [Table.addConn]⟩
  | prepared place conn session found there stage =>
    refine Or.inl (replaced_conns found ?_ lookup)
    exact ⟨rfl, Or.inl rfl⟩
  | snapshot place conn session found there stage =>
    refine Or.inl (replaced_conns found ?_ lookup)
    exact ⟨rfl, Or.inr ⟨session, there, rfl⟩⟩
  | departed place conn session found there stage stale =>
    refine Or.inl (replaced_conns found ?_ lookup)
    exact ⟨rfl, Or.inl rfl⟩
  | closing place conn session found there stage current =>
    refine Or.inl (replaced_conns found ?_ lookup)
    exact ⟨rfl, Or.inl rfl⟩
  | uncounted place conn session now found there stage =>
    refine Or.inl (replaced_conns found ?_ lookup)
    exact ⟨rfl, Or.inl rfl⟩
  | _ => exact Or.inl ⟨after, lookup, .refl after⟩

theorem moved_lengths (moved : Moved core table label next) :
    table.sessions.length ≤ next.sessions.length ∧ table.conns.length ≤ next.conns.length := by
  cases moved <;> simp [Table.setSession, Table.setConn, Table.addConn]

theorem entered_home (moved : Moved core table (.enter req draws) next)
    (grown : table.conns.length < next.conns.length) :
    ∃ conn session, next.conns[table.conns.length]? = some conn ∧
      next.sessions[conn.session]? = some session ∧ session.listed = true ∧
      session.clientId = req.clientId := by
  cases moved with
  | refused => exact absurd grown (Nat.lt_irrefl _)
  | joined => exact absurd grown (Nat.lt_irrefl _)
  | counted _ _ place session changed admissible found there joined =>
    obtain ⟨session', there', listed, own⟩ := find_listed found
    cases there.symm.trans there'
    have inside := (List.getElem?_eq_some_iff.mp there).1
    refine ⟨⟨place, .counted, 0, none⟩, changed, List.getElem?_concat_length,
      List.getElem?_set_self inside, ?_, ?_⟩
    · cases joined <;> exact listed
    · exact (joined_carried joined).clientId.trans own
  | created _ _ token admissible absent =>
    exact ⟨⟨table.sessions.length, .counted, 0, none⟩, core.create req draws token,
      List.getElem?_concat_length, List.getElem?_concat_length, rfl, rfl⟩

end Table

section Consistency

variable {core : ServerCore} {table next : Table} {label : Registry.Label}

structure Consistent (table : Table) : Prop where
  unique : ∀ (first second : Nat) (one other : Session), table.sessions[first]? = some one →
    table.sessions[second]? = some other → one.listed = true → other.listed = true →
    one.clientId = other.clientId → first = second
  placed : ∀ (index : Nat) (conn : Conn), table.conns[index]? = some conn →
    conn.session < table.sessions.length
  answered : ∀ (index : Nat) (conn : Conn) (resp : HandshakeResp) (session : Session),
    table.conns[index]? = some conn → conn.response = some resp →
    table.sessions[conn.session]? = some session → resp.fecGroup = session.fecEncK

theorem new_consistent : Consistent Table.new := by
  refine ⟨?_, ?_, ?_⟩
  · intro first second one other found
    cases found
  · intro index conn found
    cases found
  · intro index conn resp session found
    cases found

theorem Consistent.moved (consistent : Consistent table) (moved : Moved core table label next) :
    Consistent next := by
  obtain ⟨sessionsGrow, _⟩ := moved_lengths moved
  refine ⟨?_, ?_, ?_⟩
  · intro first second one other found found' listed listed' same
    rcases moved_sessions moved first one found with ⟨before, there, carried⟩ |
        ⟨last, req, draws, token, entered, absent, rfl⟩ <;>
      rcases moved_sessions moved second other found' with ⟨before', there', carried'⟩ |
        ⟨last', req', draws', token', entered', absent', rfl⟩
    · exact consistent.unique first second before before' there there' (carried.listed listed)
        (carried'.listed listed') (carried.clientId.symm.trans (same.trans carried'.clientId))
    · -- the new session's client had none
      exact absurd (carried.clientId.symm.trans same)
        (find_none absent' first before there (carried.listed listed))
    · exact absurd (carried'.clientId.symm.trans same.symm)
        (find_none absent second before' there' (carried'.listed listed'))
    · exact last.trans last'.symm
  · intro index conn found
    rcases moved_conns moved index conn found with ⟨before, there, followed⟩ | ⟨_, _, inside⟩
    · rw [followed.session]
      exact Nat.lt_of_lt_of_le (consistent.placed index before there) sessionsGrow
    · exact inside
  · intro index conn resp session found response lookup
    rcases moved_conns moved index conn found with ⟨before, there, followed⟩ | ⟨_, silent, _⟩
    · rw [followed.session] at lookup
      have inside := consistent.placed index before there
      rcases moved_sessions moved before.session session lookup with ⟨earlier, lookup', carried⟩ |
          ⟨last, _⟩
      · rw [carried.size]
        rcases followed.response with same | ⟨current, lookup'', answer⟩
        · exact consistent.answered index before resp earlier there (same.symm.trans response)
            lookup'
        · cases answer.symm.trans response
          cases lookup'.symm.trans lookup''
          rfl
      · omega
    · cases silent.symm.trans response

end Consistency

section Bound

variable {core : ServerCore} {table next : Table} {clientId : List Char} {process : Process}

/-- What ties a process to the sessions of its client. A session of another size
than the one asked for has no FEC; while the table has one, the process has not
adopted a size and all its open handshakes are on that session. -/
structure Bound (clientId : List Char) (table : Table) (process : Process) : Prop where
  adopted : process.client.session.fecNegotiated = 0 ∨
    process.client.session.fecNegotiated = process.asked
  known : ∀ index ∈ process.pending, index < table.conns.length
  opened : ∀ index ∈ process.pending, ∀ (conn : Conn) (session : Session),
    table.conns[index]? = some conn → table.sessions[conn.session]? = some session →
    session.clientId = clientId ∧ (session.fecEncK = 0 ∨ session.fecEncK = process.asked)
  present : ∀ (place : Nat) (session : Session), table.sessions[place]? = some session →
    session.listed = true → session.clientId = clientId →
    session.fecEncK = 0 ∨ session.fecEncK = process.asked
  alone : ∀ (place : Nat) (session : Session), table.sessions[place]? = some session →
    session.listed = true → session.clientId = clientId → session.fecEncK ≠ process.asked →
    process.client.session.fecNegotiated = 0 ∧
      ∀ index ∈ process.pending, ∀ conn : Conn, table.conns[index]? = some conn →
        conn.session = place

variable {resp : Response}

theorem Bound.moved {label : Registry.Label} (bound : Bound clientId table process)
    (consistent : Consistent table) (moved : Moved core table label next)
    (fresh : ∀ req draws token, label = .enter req draws → req.clientId = clientId →
      (core.create req draws token).fecEncK = process.asked) :
    Bound clientId next process := by
  -- the open handshakes are connections from before the step
  have earlier : ∀ index ∈ process.pending, ∀ conn : Conn, next.conns[index]? = some conn →
      ∃ before, table.conns[index]? = some before ∧ conn.session = before.session := by
    intro index member conn found
    rcases moved_conns moved index conn found with ⟨before, there, followed⟩ | ⟨last, _⟩
    · exact ⟨before, there, followed.session⟩
    · exact absurd (bound.known index member) (by omega)
  refine ⟨bound.adopted, ?_, ?_, ?_, ?_⟩
  · intro index member
    exact Nat.lt_of_lt_of_le (bound.known index member) (moved_lengths moved).2
  · intro index member conn session found lookup
    obtain ⟨before, there, same⟩ := earlier index member conn found
    rw [same] at lookup
    have inside := consistent.placed index before there
    rcases moved_sessions moved before.session session lookup with ⟨old, lookup', carried⟩ |
        ⟨last, _⟩
    · rw [carried.clientId, carried.size]
      exact bound.opened index member before old there lookup'
    · omega
  · intro place session lookup listed own
    rcases moved_sessions moved place session lookup with ⟨old, lookup', carried⟩ |
        ⟨_, req, draws, token, entered, _, rfl⟩
    · rw [carried.size]
      exact bound.present place old lookup' (carried.listed listed) (carried.clientId ▸ own)
    · exact Or.inr (fresh req draws token entered own)
  · intro place session lookup listed own other
    rcases moved_sessions moved place session lookup with ⟨old, lookup', carried⟩ |
        ⟨_, req, draws, token, entered, _, rfl⟩
    · obtain ⟨none, there⟩ := bound.alone place old lookup' (carried.listed listed)
        (carried.clientId ▸ own) (carried.size ▸ other)
      refine ⟨none, ?_⟩
      intro index member conn found
      obtain ⟨before, found', same⟩ := earlier index member conn found
      exact same.trans (there index member before found')
    · exact absurd (fresh req draws token entered own) other

theorem Bound.open {index : Nat} {conn : Conn} {session : Session}
    (bound : Bound clientId table process) (consistent : Consistent table)
    (found : table.conns[index]? = some conn)
    (there : table.sessions[conn.session]? = some session) (listed : session.listed = true)
    (own : session.clientId = clientId) :
    Bound clientId table { process with pending := process.pending ++ [index] } := by
  refine ⟨bound.adopted, ?_, ?_, bound.present, ?_⟩
  · exact forall_mem_concat bound.known (List.getElem?_eq_some_iff.mp found).1
  · intro other member conn' session' found' there'
    rcases List.mem_append.mp member with old | new
    · exact bound.opened other old conn' session' found' there'
    · cases List.mem_singleton.mp new
      cases found.symm.trans found'
      cases there.symm.trans there'
      exact ⟨own, bound.present conn.session session there listed own⟩
  · intro place session' there' listed' own' differs
    obtain ⟨none, old⟩ := bound.alone place session' there' listed' own' differs
    refine ⟨none, ?_⟩
    intro other member conn' found'
    rcases List.mem_append.mp member with earlier | new
    · exact old other earlier conn' found'
    · cases List.mem_singleton.mp new
      cases found.symm.trans found'
      exact consistent.unique conn.session place session session' there there' listed listed'
        (own.trans own'.symm)

theorem Process.asked_off (off : process.config.fecMode = false) : process.asked = 0 := by
  simp only [Process.asked, askedGroup, off, Bool.false_eq_true, if_false]

theorem Process.asked_on (on : process.config.fecMode = true) : 2 ≤ process.asked := by
  simp only [Process.asked, askedGroup, on, if_true]
  exact_mod_cast clampFecGroup_least _

theorem adopts_asked
    (adopted : process.client.session.fecNegotiated = 0 ∨
      process.client.session.fecNegotiated = process.asked) (size : resp.fecGroup = process.asked) :
    (if process.config.fecMode then process.client.fecNegotiated process.config resp else 0) =
      process.asked := by
  by_cases mode : process.config.fecMode = true
  · have large := Process.asked_on mode
    rw [if_pos mode]
    unfold Client.fecNegotiated
    rcases adopted with none | same
    · rw [if_pos ⟨mode, none, by rw [size]; exact large⟩, size]
    · rw [if_neg (fun fresh => by omega), same]
  · rw [if_neg mode, Process.asked_off (Bool.eq_false_iff.mpr mode)]

theorem keeps_negotiated (size : resp.fecGroup = 0) :
    process.client.fecNegotiated process.config resp = process.client.session.fecNegotiated := by
  unfold Client.fecNegotiated
  rw [if_neg]
  rintro ⟨_, _, large⟩
  rw [size] at large
  exact absurd large (by decide)

theorem stays_adopted
    (adopted : process.client.session.fecNegotiated = 0 ∨
      process.client.session.fecNegotiated = process.asked)
    (sizes : resp.fecGroup = 0 ∨ resp.fecGroup = process.asked) :
    process.client.fecNegotiated process.config resp = 0 ∨
      process.client.fecNegotiated process.config resp = process.asked := by
  by_cases mode : process.config.fecMode = true
  · rcases sizes with none | asked
    · rw [keeps_negotiated none]
      exact adopted
    · have adopts := adopts_asked adopted asked
      rw [if_pos mode] at adopts
      exact Or.inr adopts
  · have off := Process.asked_off (Bool.eq_false_iff.mpr mode)
    rw [off, or_self] at sizes
    rw [keeps_negotiated sizes]
    exact adopted

end Bound

section Steps

variable {core : ServerCore} {clientId mac : List Char} {link next : Link}

structure Agreed (clientId : List Char) (link : Link) : Prop where
  consistent : Consistent link.table
  bound : ∀ process, link.process = some process → Bound clientId link.table process

theorem new_agreed : Agreed clientId Link.new := by
  refine ⟨new_consistent, ?_⟩
  intro process none
  cases none

variable {process : Process} {instanceId token : List Char} {draws : Draws} {conn : Nat}

theorem create_size {token' : List Char} :
    (core.create (process.request clientId mac instanceId token) draws token').fecEncK =
      process.asked := by
  by_cases mode : process.config.fecMode = true
  · simp only [ServerCore.create, Process.request, mode, if_true]
  · have off := Bool.eq_false_iff.mpr mode
    simp only [ServerCore.create, Process.request, off, Bool.false_eq_true, if_false,
      Process.asked_off off]

theorem start_bound {config : ClientSession.Config} {fecGroup : Nat} {restored : Identity}
    (consistent : Consistent link.table)
    (allowed : link.steady clientId (.start config fecGroup instanceId restored) = true) :
    Bound clientId link.table ⟨config, fecGroup, Client.new config instanceId restored, []⟩ := by
  refine ⟨Or.inl rfl, ?_, ?_, ?_, ?_⟩
  · intro index member
    cases member
  · intro index member
    cases member
  · intro place session there listed own
    cases found : link.table.find clientId with
    | none => exact absurd own (find_none found place session there listed)
    | some other =>
      obtain ⟨session', there', listed', own'⟩ := find_listed found
      -- the table's session of this client is the one the guard looked at
      cases consistent.unique place other session session' there there' listed listed'
        (own.trans own'.symm)
      simp only [Link.steady, locate_eq found there, Bool.or_eq_true, beq_iff_eq] at allowed
      exact allowed
  · intro place session there listed own differs
    refine ⟨rfl, ?_⟩
    intro index member
    cases member

theorem request_agreed (agreed : Agreed clientId link) (running : link.process = some process) :
    Agreed clientId
      (link.request core process (process.request clientId mac instanceId token) draws) := by
  have moved := @enter_moved core link.table (process.request clientId mac instanceId token) draws
  have consistent := agreed.consistent.moved moved
  have bound : Bound clientId _ process := (agreed.bound process running).moved
    agreed.consistent moved (by
      rintro req draws' token' entered _
      cases entered
      exact create_size)
  refine ⟨consistent, ?_⟩
  intro process' same
  cases same
  simp only [Link.request]
  split
  · rename_i grown
    obtain ⟨conn, session, found, there, listed, own⟩ := entered_home moved grown
    exact bound.open consistent found there listed own
  · rw [List.append_nil]
    exact bound

theorem server_agreed {label : Registry.Label} {table : Table} (agreed : Agreed clientId link)
    (apart : foreign clientId label = true) (taken : link.table.step core label = some table) :
    Agreed clientId { link with table := table } := by
  have moved := step_moved link.table table label taken
  refine ⟨agreed.consistent.moved moved, ?_⟩
  intro process running
  apply (agreed.bound process running).moved agreed.consistent moved
  rintro req draws token rfl own
  simp [foreign, own] at apart

structure Responded (link : Link) (conn : Nat) (next : Link) (process : Process) (entry : Conn)
    (resp : HandshakeResp) (keys : Keys) : Prop where
  running : link.process = some process
  found : link.table.conns[conn]? = some entry
  response : entry.response = some resp
  pending : conn ∈ process.pending
  result : next = { link with process := some { process with
    client := process.client.respond process.config keys (received resp)
    pending := process.pending.erase conn } }

theorem respond_responded (taken : link.step core clientId mac (.respond conn) = some next) :
    ∃ process entry resp keys, Responded link conn next process entry resp keys := by
  simp only [Link.step] at taken
  split at taken
  · rename_i process resp running answer
    obtain ⟨entry, found, response⟩ := Option.bind_eq_some_iff.mp answer
    split at taken
    · rename_i pending
      obtain ⟨keys, _, result⟩ := Option.map_eq_some_iff.mp taken
      exact ⟨process, entry, resp, keys, running, found, response, pending, result.symm⟩
    · cases taken
  · cases taken

theorem Agreed.answer {entry : Conn} {resp : HandshakeResp} {keys : Keys}
    (agreed : Agreed clientId link) (responded : Responded link conn next process entry resp keys) :
    ∃ session, link.table.sessions[entry.session]? = some session ∧
      (received resp).fecGroup = session.fecEncK ∧ session.clientId = clientId ∧
      (session.fecEncK = 0 ∨ session.fecEncK = process.asked) := by
  have there := List.getElem?_eq_getElem (agreed.consistent.placed conn entry responded.found)
  refine ⟨_, there, ?_, ?_⟩
  · exact agreed.consistent.answered conn entry resp _ responded.found responded.response there
  · exact (agreed.bound process responded.running).opened conn responded.pending entry _
      responded.found there

theorem respond_agreed (agreed : Agreed clientId link)
    (taken : link.step core clientId mac (.respond conn) = some next) : Agreed clientId next := by
  obtain ⟨process, entry, resp, keys, responded⟩ := respond_responded taken
  obtain ⟨session, there, named, own, sizes⟩ := agreed.answer responded
  have bound := agreed.bound process responded.running
  rw [responded.result]
  refine ⟨agreed.consistent, ?_⟩
  intro process' same
  cases same
  refine ⟨?_, ?_, ?_, bound.present, ?_⟩
  · exact stays_adopted bound.adopted (named ▸ sizes)
  · intro index member
    exact bound.known index (List.mem_of_mem_erase member)
  · intro index member
    exact bound.opened index (List.mem_of_mem_erase member)
  · intro place other there' listed own' differs
    obtain ⟨none, together⟩ := bound.alone place other there' listed own' differs
    -- the response is of that session, which has no FEC
    cases together conn responded.pending entry responded.found
    cases there.symm.trans there'
    have zero := sizes.resolve_right differs
    refine ⟨(keeps_negotiated (named.trans zero)).trans none, ?_⟩
    intro index member
    exact together index (List.mem_of_mem_erase member)

theorem step_agreed (label : Label) (allowed : link.steady clientId label = true)
    (agreed : Agreed clientId link) (taken : link.step core clientId mac label = some next) :
    Agreed clientId next := by
  cases label with
  | start config fecGroup instanceId restored =>
    cases taken
    refine ⟨agreed.consistent, ?_⟩
    intro process same
    cases same
    exact start_bound agreed.consistent allowed
  | request instanceId token draws =>
    obtain ⟨process, running, rfl⟩ := Option.map_eq_some_iff.mp taken
    exact request_agreed agreed running
  | server label =>
    simp only [Link.step] at taken
    split at taken
    · rename_i apart
      obtain ⟨table, moved, rfl⟩ := Option.map_eq_some_iff.mp taken
      exact server_agreed agreed apart moved
    · cases taken
  | respond conn => exact respond_agreed agreed taken

end Steps

section Results

/-- In a run where no process starts over a session of its client with another
FEC size, every processed handshake leaves the client with its session's size. A
session without FEC that the server has destroyed since is left out. -/
theorem fec_groups_agree (core : ServerCore) (clientId mac : List Char) (labels : List Label)
    (before after : Link) (conn : Nat)
    (reached : Runs.run (Link.step core clientId mac) Link.new labels = some before)
    (steady : Runs.Along (Link.step core clientId mac)
      (fun link label => link.steady clientId label = true) Link.new labels)
    (taken : before.step core clientId mac (.respond conn) = some after) :
    ∃ process entry session, after.process = some process ∧
      after.table.conns[conn]? = some entry ∧
      after.table.sessions[entry.session]? = some session ∧
      (session.listed = true ∨ session.fecEncK ≠ 0 → process.effective = session.fecEncK) := by
  have agreed : Agreed clientId before := Runs.invariant_along _ _ (Agreed clientId)
    (fun link label next allowed held taken => step_agreed label allowed held taken)
    Link.new before labels reached steady new_agreed
  obtain ⟨process, entry, resp, keys, responded⟩ := respond_responded taken
  obtain ⟨session, there, named, own, sizes⟩ := agreed.answer responded
  have bound := agreed.bound process responded.running
  rw [responded.result]
  refine ⟨_, entry, session, rfl, responded.found, there, ?_⟩
  intro kept
  by_cases size : session.fecEncK = process.asked
  · rw [size]
    exact adopts_asked bound.adopted (named.trans size)
  · have zero := sizes.resolve_right size
    have listed := kept.resolve_right (absurd zero)
    obtain ⟨none, _⟩ := bound.alone entry.session session there listed own size
    have unchanged : process.client.fecNegotiated process.config (received resp) =
        process.client.session.fecNegotiated := keeps_negotiated (named.trans zero)
    rw [zero]
    simp only [Process.effective, Client.respond, Client.negotiateSession]
    split
    · exact unchanged.trans none
    · rfl

def Link.sizes (link : Link) (conn : Nat) : Option (Int × Int × Bool) :=
  match link.process, link.table.owner conn with
  | some process, some (_, session) =>
    some (process.effective, session.fecEncK, session.listed)
  | _, _ => none

variable {conn : Nat}

theorem sizes_eq {link : Link} {sizes : Int × Int × Bool} (seen : link.sizes conn = some sizes) :
    ∃ process entry session, link.process = some process ∧
      link.table.conns[conn]? = some entry ∧
      link.table.sessions[entry.session]? = some session ∧
      (process.effective, session.fecEncK, session.listed) = sizes := by
  unfold Link.sizes at seen
  split at seen
  · rename_i process entry session running owner
    obtain ⟨entry', found, there⟩ := Option.bind_eq_some_iff.mp owner
    obtain ⟨session', there, same⟩ := Option.map_eq_some_iff.mp there
    cases same
    exact ⟨process, entry, session, running, found, there, Option.some.inj seen⟩
  · cases seen

def plainClient (fecMode : Bool) : ClientSession.Config where
  encrypt := false
  encAlgo := encAlgoNone
  minEnc := false
  fecMode := fecMode
  connsCount := 2
  rxBatchSize := 64
  fecCipher := fun _ => zeroTagCipher

def started (fecMode : Bool) (fecGroup : Nat) : Label :=
  .start (plainClient fecMode) fecGroup [] ⟨[], 0⟩

def asking (instanceId : List Char) (conn : Nat) : List Label :=
  [.request instanceId sampleToken sampleDraws, .server (.prepare conn), .server (.snapshot conn)]

def steadyClient : List Label :=
  started true 4 :: asking ['o'] 0 ++ .respond 0 :: started true 4 :: asking ['n'] 1

theorem reach_sizes (labels : List Label) (conn : Nat) (value : Int × Int × Bool)
    (evaluated : (Runs.run (Link.step plainCore ['c'] ['m']) Link.new labels).bind (fun before =>
      (before.step plainCore ['c'] ['m'] (.respond conn)).bind fun after => after.sizes conn) =
        some value) :
    ∃ before after, Runs.run (Link.step plainCore ['c'] ['m']) Link.new labels = some before ∧
      before.step plainCore ['c'] ['m'] (.respond conn) = some after ∧
      after.sizes conn = some value := by
  obtain ⟨before, reached, rest⟩ := Option.bind_eq_some_iff.mp evaluated
  obtain ⟨after, taken, seen⟩ := Option.bind_eq_some_iff.mp rest
  exact ⟨before, after, reached, taken, seen⟩

theorem fec_groups_agree_steady : ∃ before after process entry session,
    Runs.run (Link.step plainCore ['c'] ['m']) Link.new steadyClient = some before ∧
      before.step plainCore ['c'] ['m'] (.respond 1) = some after ∧
      after.process = some process ∧ after.table.conns[1]? = some entry ∧
      after.table.sessions[entry.session]? = some session ∧ session.fecEncK = 4 ∧
      process.effective = session.fecEncK := by
  obtain ⟨before, after, reached, taken, seen⟩ :=
    reach_sizes steadyClient 1 (4, 4, true) (by decide +kernel)
  obtain ⟨process, entry, session, running, found, there, sizes⟩ := sizes_eq seen
  obtain ⟨process', entry', session', running', found', there', agree⟩ :=
    fec_groups_agree plainCore ['c'] ['m'] steadyClient before after 1 reached
      (by decide +kernel) taken
  cases running.symm.trans running'
  cases found.symm.trans found'
  cases there.symm.trans there'
  simp only [Prod.mk.injEq] at sizes
  exact ⟨before, after, process, entry, session, reached, taken, running, found, there, sizes.2.1,
    agree (Or.inl sizes.2.2)⟩

def restartedWithout : List Label :=
  started true 4 :: asking ['o'] 0 ++ .respond 0 :: started false 0 :: asking ['n'] 1

/-- The client restarts with another size and adopts the session's; the server
then drops the session and the next handshake creates one of the new size. -/
def recreated : List Label :=
  started true 4 :: asking ['o'] 0 ++ .respond 0 :: started true 8 :: asking ['n'] 1 ++
    .respond 1 :: .server (.kick ['c']) :: asking ['n'] 2

def Disagrees (labels : List Label) (conn : Nat) (clientSize serverSize : Int) : Prop :=
  ∃ before after process entry session,
    Runs.run (Link.step plainCore ['c'] ['m']) Link.new labels = some before ∧
      before.step plainCore ['c'] ['m'] (.respond conn) = some after ∧
      after.process = some process ∧ after.table.conns[conn]? = some entry ∧
      after.table.sessions[entry.session]? = some session ∧ session.listed = true ∧
      process.effective = clientSize ∧ session.fecEncK = serverSize ∧ clientSize ≠ serverSize

theorem disagrees_of_sizes {labels : List Label} {clientSize serverSize : Int}
    (reached : ∃ before after,
      Runs.run (Link.step plainCore ['c'] ['m']) Link.new labels = some before ∧
        before.step plainCore ['c'] ['m'] (.respond conn) = some after ∧
        after.sizes conn = some (clientSize, serverSize, true)) (differ : clientSize ≠ serverSize) :
    Disagrees labels conn clientSize serverSize := by
  obtain ⟨before, after, reached, taken, seen⟩ := reached
  obtain ⟨process, entry, session, running, found, there, sizes⟩ := sizes_eq seen
  simp only [Prod.mk.injEq] at sizes
  exact ⟨before, after, process, entry, session, reached, taken, running, found, there,
    sizes.2.2, sizes.1, sizes.2.1, differ⟩

theorem restarted_groups_differ :
    Disagrees restartedWithout 1 0 4 ∧ Disagrees recreated 2 4 8 := by
  constructor
  · exact disagrees_of_sizes
      (reach_sizes restartedWithout 1 (0, 4, true) (by decide +kernel)) (by decide)
  · exact disagrees_of_sizes (reach_sizes recreated 2 (4, 8, true) (by decide +kernel)) (by decide)

end Results

end TlsVpn.Agreement

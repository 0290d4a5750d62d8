import TlsVpn.PoolAccounts

/-!
The session map against the switch, the registry and the pool. A session in the
map has its own port under its client id, its MAC pinned to that port, its own
statistics entry and its addresses, as long as no session is built for a client
id while `destroy_session` is still at work on an earlier one of the same id: the
later steps of that call go by the client id alone.
-/

namespace TlsVpn.Admission

open AddressText Pool Registry Holdings

section MacTexts

variable {key : MacKey} (byte : UInt8)

theorem decodeByte_text : decodeByte (byteText byte) = some byte := by
  have bound := byte.toNat_lt
  have high := (hexValue_digit (byte.toNat / 16) (by omega)).1
  have low := (hexValue_digit (byte.toNat % 16) (by omega)).1
  simp only [byteText, decodeByte, high, low, Option.bind_eq_bind, Option.bind_some]
  rw [Nat.div_add_mod', UInt8.ofNat_toNat]
  rfl

theorem byteText_apart : ':' ∉ byteText byte := by
  have bound := byte.toNat_lt
  have high := (hexValue_digit (byte.toNat / 16) (by omega)).2
  have low := (hexValue_digit (byte.toNat % 16) (by omega)).2
  simp [byteText, high.symm, low.symm]

theorem mapM_decodeByte (key : MacKey) : (key.map byteText).mapM decodeByte = some key := by
  induction key with
  | nil => rfl
  | cons byte rest ih => simp [decodeByte_text, ih]

theorem mapM_length {Entry Result : Type} {decode : Entry → Option Result} {entries : List Entry}
    {results : List Result} (read : entries.mapM decode = some results) :
    results.length = entries.length := by
  induction entries generalizing results with
  | nil =>
    cases read
    rfl
  | cons entry rest ih =>
    rw [List.mapM_cons] at read
    obtain ⟨first, -, tail⟩ := Option.bind_eq_some_iff.mp read
    obtain ⟨others, decoded, joined⟩ := Option.bind_eq_some_iff.mp tail
    cases joined
    exact congrArg Nat.succ (ih decoded)

theorem parseMacKey_length {text : Text} (read : parseMacKey text = some key) : key.length = 6 := by
  unfold parseMacKey at read
  simp only at read
  split at read
  · rename_i six
    rw [← six]
    exact mapM_length read
  · cases read

theorem parseMacKey_text (six : key.length = 6) : parseMacKey (macText key) = some key := by
  cases key with
  | nil => cases six
  | cons byte rest =>
    have apart : ∀ each ∈ (byte :: rest).map byteText, ':' ∉ each := by
      intro each member
      obtain ⟨other, -, rfl⟩ := List.mem_map.mp member
      exact byteText_apart other
    have split : fields ':' (macText (byte :: rest)) = (byte :: rest).map byteText :=
      fields_intercalate ':' (byteText byte) (rest.map byteText) apart
    unfold parseMacKey
    rw [split]
    simp only [List.length_map, six, if_true]
    exact mapM_decodeByte (byte :: rest)

end MacTexts

section Wiring

structure Identified (gate : Gate) (clientId : Text) (key : MacKey) : Prop where
  derived : clientId = gate.expectedId (macText key)
  nonzero : key ≠ List.replicate 6 0

variable {req : Request} {clientId : Text} {stage : CreationStage} {index : Nat} {host : Host}
  {creation : Creation}

theorem Passed.identified {gate : Gate} (passed : Passed gate req) :
    Identified gate req.clientId req.macBin := by
  obtain ⟨raw, key, read, canonical, nonzero⟩ := passed.mac
  have back : req.macBin = key := by
    unfold Request.macBin
    rw [canonical, parseMacKey_text (parseMacKey_length read)]
    rfl
  rw [← back] at canonical nonzero
  exact ⟨canonical ▸ passed.id, nonzero⟩

def Server.hasPort (server : Server) (clientId : Text) (place : Nat) : Prop :=
  server.ports clientId = some place

def Server.hasMac (server : Server) (clientId : Text) (key : MacKey) (place : Nat) : Prop :=
  server.macTable key = some ⟨clientId, some place⟩

def Server.hasStat (server : Server) (clientId : Text) (place : Nat) : Prop :=
  server.registry clientId = some place

def Progress (server : Server) (req : Request) : CreationStage → Prop
  | .entered | .looked _ _ | .allocated _ _ | .secured _ _ => True
  | .ported _ _ => server.hasPort req.clientId server.hosts.length
  | .resolved _ _ port =>
    server.hasPort req.clientId server.hosts.length ∧ port = some server.hosts.length
  | .pinned _ _ | .bound _ _ =>
    server.hasPort req.clientId server.hosts.length ∧
      server.hasMac req.clientId req.macBin server.hosts.length
  | .registered _ _ =>
    server.hasPort req.clientId server.hosts.length ∧
      server.hasMac req.clientId req.macBin server.hosts.length ∧
      server.hasStat req.clientId server.hosts.length

structure Wired (gate : Gate) (server : Server) : Prop where
  identified : ∀ host ∈ server.hosts, Identified gate host.clientId host.macBin
  single : ∀ (first second : Nat) (left right : Host), server.hosts[first]? = some left →
    server.hosts[second]? = some right → left.stage ≠ .gone → right.stage ≠ .gone →
    left.clientId = right.clientId → first = second
  wired : ∀ (place : Nat) (host : Host), server.hosts[place]? = some host →
    host.stage = .listed → server.hasPort host.clientId place ∧
      server.hasMac host.clientId host.macBin place ∧ server.hasStat host.clientId place
  known : ∀ creation, server.creating = some creation →
    Identified gate creation.req.clientId creation.req.macBin
  alone : ∀ creation, server.creating = some creation → ∀ host ∈ server.hosts,
    host.stage ≠ .gone → host.clientId ≠ creation.req.clientId
  progress : ∀ creation, server.creating = some creation →
    Progress server creation.req creation.stage

variable {gate : Gate} {v6Format : AddressFormat 128} {server next : Server}

theorem new_wired (v4cidr v6cidr : Text) : Wired gate (Server.new v6Format v4cidr v6cidr) := by
  constructor
  · rintro host ⟨⟩
  · intro first second left right there
    cases there
  · intro place host there
    cases there
  · rintro creation ⟨⟩
  · rintro creation ⟨⟩
  · rintro creation ⟨⟩

structure SparesOthers (gate : Gate) (clientId : Text) (server next : Server) : Prop where
  ports : ∀ other place, other ≠ clientId → server.hasPort other place → next.hasPort other place
  macs : ∀ other key place, other ≠ clientId → Identified gate other key →
    server.hasMac other key place → next.hasMac other key place
  stats : ∀ other place, other ≠ clientId → server.hasStat other place → next.hasStat other place

theorem SparesOthers.progress (spares : SparesOthers gate clientId server next)
    (places : next.hosts.length = server.hosts.length)
    (known : Identified gate req.clientId req.macBin) (apart : req.clientId ≠ clientId)
    (progress : Progress server req stage) : Progress next req stage := by
  cases stage with
  | entered | looked | allocated | secured => trivial
  | ported v4 v6 =>
    unfold Progress
    rw [places]
    exact spares.ports _ _ apart progress
  | resolved v4 v6 port =>
    unfold Progress
    rw [places]
    exact ⟨spares.ports _ _ apart progress.1, progress.2⟩
  | pinned v4 v6 | bound v4 v6 =>
    unfold Progress
    rw [places]
    exact ⟨spares.ports _ _ apart progress.1, spares.macs _ _ _ apart known progress.2⟩
  | registered v4 v6 =>
    unfold Progress
    rw [places]
    exact ⟨spares.ports _ _ apart progress.1, spares.macs _ _ _ apart known progress.2.1,
      spares.stats _ _ apart progress.2.2⟩

theorem Wired.leaves (wired : Wired gate server) {stage : HostStage}
    (there : server.hosts[index]? = some host) (live : host.stage ≠ .gone) (off : stage ≠ .listed)
    (hosts : next.hosts = server.hosts.set index { host with stage := stage })
    (creating : next.creating = server.creating)
    (spares : SparesOthers gate host.clientId server next) : Wired gate next := by
  have present := List.mem_of_getElem? there
  -- who is not gone afterwards was not gone before, under the same id
  have before : ∀ (place : Nat) (other : Host), next.hosts[place]? = some other → other.stage ≠ .gone →
      ∃ old : Host, server.hosts[place]? = some old ∧ old.stage ≠ .gone ∧
        old.clientId = other.clientId := by
    intro place other found stays
    rw [hosts] at found
    rcases lookup_set found with ⟨rfl, rfl⟩ | ⟨-, old⟩
    · exact ⟨host, there, live, rfl⟩
    · exact ⟨other, old, stays, rfl⟩
  constructor
  · rw [hosts]
    exact forall_mem_set wired.identified index _ (wired.identified host present)
  · intro first second left right leftAt rightAt leftStays rightStays same
    obtain ⟨oldLeft, oldLeftAt, leftLive, leftId⟩ := before first left leftAt leftStays
    obtain ⟨oldRight, oldRightAt, rightLive, rightId⟩ := before second right rightAt rightStays
    exact wired.single first second oldLeft oldRight oldLeftAt oldRightAt leftLive rightLive
      (leftId.trans (same.trans rightId.symm))
  · intro place other found listed
    rw [hosts] at found
    rcases lookup_set found with ⟨-, rfl⟩ | ⟨different, old⟩
    · exact absurd listed off
    · have apart : other.clientId ≠ host.clientId := by
        intro same
        have stays : other.stage ≠ .gone := by
          rw [listed]
          decide
        exact different (wired.single place index other host old there stays live same)
      obtain ⟨port, mac, stat⟩ := wired.wired place other old listed
      have known := wired.identified other (List.mem_of_getElem? old)
      exact ⟨spares.ports _ _ apart port, spares.macs _ _ _ apart known mac,
        spares.stats _ _ apart stat⟩
  · rw [creating]
    exact wired.known
  · rw [creating, hosts]
    intro creation building
    exact forall_mem_set (fun other member => wired.alone creation building other member) index _
      fun _ => wired.alone creation building host present live
  · rw [creating]
    intro creation building
    have apart := (wired.alone creation building host present live).symm
    have places : next.hosts.length = server.hosts.length := by rw [hosts, List.length_set]
    exact spares.progress places (wired.known creation building) apart
      (wired.progress creation building)

theorem Wired.builds (wired : Wired gate server) (building : server.creating = some creation)
    (hosts : next.hosts = server.hosts)
    (creating : next.creating = some { creation with stage := stage })
    (spares : SparesOthers gate creation.req.clientId server next)
    (progress : Progress next creation.req stage) : Wired gate next := by
  constructor
  · rw [hosts]
    exact wired.identified
  · rw [hosts]
    exact wired.single
  · intro place host found listed
    rw [hosts] at found
    have present := List.mem_of_getElem? found
    have apart := wired.alone creation building host present (by rw [listed]; decide)
    obtain ⟨port, mac, stat⟩ := wired.wired place host found listed
    exact ⟨spares.ports _ _ apart port, spares.macs _ _ _ apart (wired.identified host present) mac,
      spares.stats _ _ apart stat⟩
  · intro other same
    rw [creating] at same
    cases same
    exact wired.known creation building
  · intro other same
    rw [creating] at same
    cases same
    rw [hosts]
    exact wired.alone creation building
  · intro other same
    rw [creating] at same
    cases same
    exact progress

theorem Wired.gives_up (wired : Wired gate server) (pool : IpPool) :
    Wired gate { server with pool := pool, creating := none } := by
  refine ⟨wired.identified, wired.single, wired.wired, ?_, ?_, ?_⟩ <;> rintro creation ⟨⟩

theorem SparesOthers.same (ports : next.ports = server.ports)
    (macs : next.macTable = server.macTable) (stats : next.registry = server.registry) :
    SparesOthers gate clientId server next := by
  constructor
  · intro other place _ port
    exact (congrFun ports other).trans port
  · intro other key place _ _ mac
    exact (congrFun macs key).trans mac
  · intro other place _ stat
    exact (congrFun stats other).trans stat

theorem Wired.enters (wired : Wired gate server) {draws : Draws} {v4 v6 : Text}
    (building : server.creating = some ⟨req, draws, .registered v4 v6⟩) :
    Wired gate { server with hosts := server.hosts ++ [req.host v4 v6], creating := none } := by
  have alone := wired.alone _ building
  constructor
  · exact forall_mem_concat wired.identified (wired.known _ building)
  · intro first second left right leftAt rightAt leftLive rightLive same
    rcases lookup_concat leftAt with oldLeft | ⟨rfl, rfl⟩
    · rcases lookup_concat rightAt with oldRight | ⟨rfl, rfl⟩
      · exact wired.single first second left right oldLeft oldRight leftLive rightLive same
      · exact absurd same (alone left (List.mem_of_getElem? oldLeft) leftLive)
    · rcases lookup_concat rightAt with oldRight | ⟨rfl, rfl⟩
      · exact absurd same.symm (alone right (List.mem_of_getElem? oldRight) rightLive)
      · rfl
  · intro place host there listed
    rcases lookup_concat there with old | ⟨rfl, rfl⟩
    · exact wired.wired place host old listed
    · exact wired.progress _ building
  · rintro creation ⟨⟩
  · rintro creation ⟨⟩
  · rintro creation ⟨⟩

theorem advance_wired (wired : Wired gate server) (building : server.creating = some creation) :
    Wired gate (server.advance v6Format creation) := by
  have progress := wired.progress creation building
  have known := wired.known creation building
  obtain ⟨req, draws, stage⟩ := creation
  cases stage with
  | entered => exact wired.builds building rfl rfl (.same rfl rfl rfl) trivial
  | looked v4 v6 =>
    simp only [Server.advance]
    split
    · exact wired.gives_up _
    · exact wired.builds building rfl rfl (.same rfl rfl rfl) trivial
  | allocated v4 v6 =>
    simp only [Server.advance]
    split
    · exact wired.gives_up _
    · exact wired.builds building rfl rfl (.same rfl rfl rfl) trivial
  | secured v4 v6 =>
    refine wired.builds building rfl rfl ?_ ?_
    · exact ⟨fun other place apart port => (if_neg apart).trans port,
        fun other key place _ _ mac => mac, fun other place _ stat => stat⟩
    · exact if_pos rfl
  | ported v4 v6 =>
    exact wired.builds building rfl rfl (.same rfl rfl rfl) ⟨progress, progress⟩
  | resolved v4 v6 port =>
    obtain ⟨ported, rfl⟩ := progress
    -- the MAC is not zero, so it is pinned
    have pins : (server.pinMac req.macBin ⟨req.clientId, some server.hosts.length⟩).macTable =
        fun other => if other = req.macBin then some ⟨req.clientId, some server.hosts.length⟩
          else server.macTable other := if_neg known.nonzero
    refine wired.builds building rfl rfl ?_ ?_
    · refine ⟨fun other place _ port => port, ?_, fun other place _ stat => stat⟩
      intro other key place apart identified mac
      have different : key ≠ req.macBin := by
        rintro rfl
        exact apart (identified.derived.trans known.derived.symm)
      exact (congrFun pins key).trans ((if_neg different).trans mac)
    · exact ⟨ported, (congrFun pins req.macBin).trans (if_pos rfl)⟩
  | pinned v4 v6 => exact wired.builds building rfl rfl (.same rfl rfl rfl) progress
  | bound v4 v6 =>
    refine wired.builds building rfl rfl ?_ ?_
    · exact ⟨fun other place _ port => port, fun other key place _ _ mac => mac,
        fun other place apart stat => (if_neg apart).trans stat⟩
    · exact ⟨progress.1, progress.2, if_pos rfl⟩
  | registered v4 v6 => exact wired.enters building

theorem leave_wired (wired : Wired gate server) (there : server.hosts[index]? = some host)
    (left : server.leave index host = some next) : Wired gate next := by
  unfold Server.leave at left
  split at left
  · cases left
  · cases left
  · rename_i stage
    cases left
    refine wired.leaves there (by rw [stage]; decide) (by decide) rfl rfl ?_
    exact ⟨fun other place apart port => (if_neg apart).trans port,
      fun other key place _ _ mac => mac, fun other place _ stat => stat⟩
  · rename_i stage
    cases left
    refine wired.leaves there (by rw [stage]; decide) (by decide) rfl rfl ?_
    refine ⟨fun other place _ port => port, ?_, fun other place _ stat => stat⟩
    intro other key place apart _ mac
    unfold Server.hasMac at mac ⊢
    dsimp only
    rw [mac]
    exact Option.filter_some_pos (bne_iff_ne.mpr apart)
  · rename_i stage
    cases left
    refine wired.leaves there (by rw [stage]; decide) (by decide) rfl rfl ?_
    exact ⟨fun other place _ port => port, fun other key place _ _ mac => mac,
      fun other place apart stat => (if_neg apart).trans stat⟩
  · rename_i stage
    cases left
    exact wired.leaves there (by rw [stage]; decide) (by decide) rfl rfl (.same rfl rfl rfl)

/-- No `destroy_session` of this client id is between taking the session off the
map and its last step. -/
def Server.settled (server : Server) (clientId : Text) : Bool :=
  server.hosts.all fun host =>
    host.stage == .listed || host.stage == .gone || host.clientId != clientId

/-- A handshake builds a session only for a client id whose earlier sessions are
destroyed to the end. -/
def Server.undisturbed (gate : Gate) (server : Server) : Label → Bool
  | .handshake payload banned _ =>
    match gate.screen payload banned with
    | .error _ => true
    | .ok req => server.has req.clientId || server.settled req.clientId
  | _ => true

theorem settled_alone (settled : server.settled clientId = true)
    (absent : server.has clientId = false) :
    ∀ host ∈ server.hosts, host.stage ≠ .gone → host.clientId ≠ clientId := by
  intro host member live same
  have listed : host.stage = .listed := by
    have choice := List.all_eq_true.mp settled host member
    simpa [live, same] using choice
  have found : server.has clientId = true := by
    apply List.any_eq_true.mpr
    exact ⟨host, member, by simp [listed, same]⟩
  rw [absent] at found
  cases found

theorem step_wired (server : Server) (label : Label) (next : Server)
    (undisturbed : server.undisturbed gate label = true) (wired : Wired gate server)
    (taken : server.step gate v6Format label = some next) : Wired gate next := by
  cases label with
  | handshake payload banned draws =>
    simp only [Server.step] at taken
    split at taken
    · cases taken
    · cases taken
      exact wired
    · rename_i req free passes
      split at taken
      · cases taken
        exact wired
      · rename_i enters
        cases taken
        have absent : server.has req.clientId = false := by
          simp only [Bool.or_eq_true, not_or, Bool.not_eq_true] at enters
          exact enters.1
        have settled : server.settled req.clientId = true := by
          simp only [Server.undisturbed] at undisturbed
          rw [passes] at undisturbed
          simpa [absent] using undisturbed
        refine ⟨wired.identified, wired.single, wired.wired, ?_, ?_, ?_⟩
        · rintro creation ⟨⟩
          exact (screen_passed passes).identified
        · rintro creation ⟨⟩
          exact settled_alone settled absent
        · rintro creation ⟨⟩
          trivial
  | advance =>
    obtain ⟨creation, building, rfl⟩ := Option.map_eq_some_iff.mp taken
    exact advance_wired wired building
  | destroy index =>
    simp only [Server.step] at taken
    split at taken
    · rename_i host free there
      split at taken
      · rename_i listed
        cases taken
        exact wired.leaves there (by rw [listed]; decide) (by decide) rfl rfl (.same rfl rfl rfl)
      · cases taken
        exact wired
    · cases taken
  | leave index =>
    obtain ⟨host, there, left⟩ := Option.bind_eq_some_iff.mp taken
    exact leave_wired wired there left

end Wiring

section Consistency

/-- Every session in the map has its own port under its client id, its MAC pinned
to that port, its own statistics entry, and its addresses marked used. -/
structure Consistent (server : Server) : Prop where
  ports : ∀ (place : Nat) (host : Host), server.hosts[place]? = some host →
    host.stage = .listed → server.ports host.clientId = some place
  macs : ∀ (place : Nat) (host : Host), server.hosts[place]? = some host →
    host.stage = .listed → server.macTable host.macBin = some ⟨host.clientId, some place⟩
  stats : ∀ (place : Nat) (host : Host), server.hosts[place]? = some host →
    host.stage = .listed → server.registry host.clientId = some place
  addresses : ∀ host ∈ server.hosts, host.stage = .listed →
    host.ipv4 ∈ server.pool.usedV4 ∧ host.ipv6 ∈ server.pool.usedV6

def Server.quiet (server : Server) : Bool :=
  server.creating.isNone && server.hosts.all fun host => host.stage == .listed || host.stage == .gone

theorem Wired.consistent {gate : Gate} {server : Server} (wired : Wired gate server)
    (balanced : server.Balanced) : Consistent server := by
  constructor
  · intro place host there listed
    exact (wired.wired place host there listed).1
  · intro place host there listed
    exact (wired.wired place host there listed).2.1
  · intro place host there listed
    exact (wired.wired place host there listed).2.2
  · intro host member listed
    have claimed : ⟨host.mac, host.ipv4, host.ipv6⟩ ∈ server.claims := by
      apply List.mem_append_right
      apply List.mem_flatMap.mpr
      exact ⟨host, member, by rw [listed_claims listed]; exact List.mem_singleton_self _⟩
    constructor
    · apply (balanced.v4.exact _).mpr
      exact List.mem_cons_of_mem _ (List.mem_map_of_mem claimed)
    · apply (balanced.v6.exact _).mpr
      exact List.mem_cons_of_mem _ (List.mem_map_of_mem claimed)

/-- In every run in which each handshake that builds a session finds the earlier
sessions of its client id destroyed to the end, the containers agree in every
state reached, also while operations are under way. -/
theorem sessions_consistent (gate : Gate) (v6Format : AddressFormat 128) (v4cidr v6cidr : Text)
    (labels : List Label) (server : Server)
    (reached : Runs.run (Server.step gate v6Format) (Server.new v6Format v4cidr v6cidr) labels =
      some server)
    (undisturbed : Runs.Along (Server.step gate v6Format)
      (fun server label => server.undisturbed gate label = true)
      (Server.new v6Format v4cidr v6cidr) labels) : Consistent server := by
  have wired : Wired gate server :=
    Runs.invariant_along (Server.step gate v6Format)
      (fun server label => server.undisturbed gate label = true) (Wired gate) step_wired
      _ server labels reached undisturbed (new_wired v4cidr v6cidr)
  exact wired.consistent (run_balanced v4cidr v6cidr labels server reached)

def enter (last : UInt8) : List Label :=
  .handshake (some (sampleRequest last [] sampleToken)) noBans sampleDraws :: advances 9

def sampleServer : Server := Server.new colons "10.1.0.0/24".toList sampleV6Cidr

/-- Two clients enter. While the first one's session is being destroyed a third
client enters, and the first one comes back once the destruction is over. -/
def returnsLater : List Label :=
  enter 1 ++ enter 2 ++ [.destroy 0, .leave 0] ++ enter 3 ++ [.leave 0, .leave 0, .leave 0] ++ enter 1

theorem sessions_consistent_returnsLater : ∃ server,
    Runs.run (Server.step sampleGate colons) sampleServer returnsLater = some server ∧
      server.hosts.map Host.stage = [.gone, .listed, .listed, .listed] ∧ Consistent server := by
  have seen : (Runs.run (Server.step sampleGate colons) sampleServer returnsLater).map
      (fun server => server.hosts.map Host.stage) =
        some [.gone, .listed, .listed, .listed] := by decide +kernel
  obtain ⟨server, reached, stages⟩ := Option.map_eq_some_iff.mp seen
  exact ⟨server, reached, stages, sessions_consistent sampleGate colons "10.1.0.0/24".toList
    sampleV6Cidr returnsLater server reached (by decide +kernel)⟩

/-- The client comes back while its old session is off the map but still in the
switch. The rest of the old destruction then goes by the client id. -/
def returnsEarly : List Label :=
  enter 1 ++ [.destroy 0] ++ enter 1 ++ [.leave 0, .leave 0, .leave 0, .leave 0]

/-- The new session is in the map and nothing is under way, but it has no port, no
pinned MAC and no statistics entry. -/
theorem early_return_unwired : ∃ server,
    Runs.run (Server.step sampleGate colons) sampleServer returnsEarly = some server ∧
      server.quiet = true ∧
      ∃ host, server.hosts[1]? = some host ∧ host.stage = .listed ∧
        server.ports host.clientId = none ∧ server.macTable host.macBin = none ∧
        server.registry host.clientId = none := by
  have seen : ((Runs.run (Server.step sampleGate colons) sampleServer returnsEarly).bind
      fun server => server.hosts[1]?.map fun host =>
        (server.quiet, host.stage, server.ports host.clientId, server.macTable host.macBin,
          server.registry host.clientId)) = some (true, .listed, none, none, none) := by
    decide +kernel
  obtain ⟨server, reached, found⟩ := Option.bind_eq_some_iff.mp seen
  obtain ⟨host, there, view⟩ := Option.map_eq_some_iff.mp found
  simp only [Prod.mk.injEq] at view
  exact ⟨server, reached, view.1, host, there, view.2⟩

end Consistency

end TlsVpn.Admission

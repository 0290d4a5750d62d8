import TlsVpn.ClientTransmit

/-!
Nonces of the client's inner cipher. All connections draw numbers from one
counter and each seals with the salt of its own handshake. A response that starts
the counter over leaves the older connections registered, so the new numbers can
reach an old salt; and a response that starts it over under a salt already used
brings the old numbers back. Without these two every pair of salt and number is
sealed once, whatever the order of responses, if the server gives every identity
a salt of its own.
-/

namespace TlsVpn.ClientSession

open Words XorBytes Fec Port RxActor Holdings

/-- No connection drains a frame numbered after a counter reset later than its
own response, and with encryption a response repeats the current session or comes
with an identity that has not opened a round. -/
def SealsOwnRound (config : Config) (client : Client) : Label → Prop
  | .pop index =>
    match client.conns[index]? with
    | some conn => ∀ frame ∈ client.txPort.nextFrames conn.backend,
        frame.seq ≠ 0 → frame.round ≤ conn.round
    | none => True
  | .respond resp =>
    match accept config resp with
    | some keys => config.encrypt = true →
        resp.identity ∉ client.roundIds ∨ client.Repeats config keys resp
    | none => True
  | _ => True

instance decidableSealsOwnRound (config : Config) (client : Client) :
    ∀ label, Decidable (SealsOwnRound config client label)
  | .pop index => by
    dsimp only [SealsOwnRound]
    exact match client.conns[index]? with
      | some conn => inferInstance
      | none => inferInstance
  | .respond resp => by
    dsimp only [SealsOwnRound]
    exact match accept config resp with
      | some keys => inferInstance
      | none => inferInstance
  | .write _ | .rx _ | .reconfigure _ | .install _ | .abandon _ | .register _ _ | .producer _
  | .flush _ | .exhausted _ _ | .leave _ | .close _ => .isTrue trivial

structure ConnKeyed (config : Config) (issue : Identity → Option Salt) (port : AsyncPort)
    (roundIds : List Identity) (conn : Conn) : Prop where
  past : conn.round ≤ port.round
  floor : ∀ target, conn.backend = some target → Floor port target conn.round
  cipher : ∀ salt, conn.icTx = some salt →
    config.encrypt = true ∧ roundIds[conn.round]?.bind issue = some salt

structure Keyed (config : Config) (issue : Identity → Option Salt) (client : Client) : Prop where
  ledger : Ledger client.txPort (held (fun entry => entry.frame.keys) client.sealed)
  counted : client.roundIds.length = client.txPort.round + 1
  distinct : config.encrypt = true → client.roundIds.Nodup
  current : config.encrypt = true →
    client.roundIds[client.txPort.round]? = some client.session.identity
  unset : client.session.fecNegotiated = 0 → client.session.fecAlgo = encAlgoNone
  fecSalt : config.encrypt = true → config.fecMode = true → 0 < client.session.fecNegotiated →
    decodeSalt client.session.fecSaltKey = issue client.session.identity
  decoder : client.session.fecAlgo ≠ encAlgoNone → client.rxActor = none → client.fecDec.isSome
  sealedBy : ∀ entry ∈ client.sealed, config.encrypt = true ∧ entry.frame.seq ≠ 0 ∧
    client.roundIds[entry.frame.round]?.bind issue = some entry.salt
  conns : ∀ conn ∈ client.conns, ConnKeyed config issue client.txPort client.roundIds conn

variable {config : Config} {issue : Identity → Option Salt} {client next : Client}

section Ports

variable {port after : AsyncPort} {roundIds : List Identity} {conn : Conn}

theorem ConnKeyed.step (keyed : ConnKeyed config issue port roundIds conn) {label : WriteLabel}
    (taken : port.step label = some after) : ConnKeyed config issue after roundIds conn := by
  have round := (step_moves (step_written port after label taken)).2
  refine ⟨?_, fun target mine => (keyed.floor target mine).step taken, keyed.cipher⟩
  rw [round]
  exact keyed.past

theorem ConnKeyed.resetEpoch (keyed : ConnKeyed config issue port roundIds conn)
    (identity : Identity) (counted : roundIds.length = port.round + 1) (group : Nat)
    (ic : Option InnerCipher) :
    ConnKeyed config issue (port.resetEpoch group ic) (roundIds ++ [identity]) conn := by
  have past := keyed.past
  refine ⟨past.trans (Nat.le_succ _), ?_, ?_⟩
  · exact fun target mine => (keyed.floor target mine).resetSeq.resetFec group ic
  · intro salt keyedBy
    rw [List.getElem?_append_left (by omega)]
    exact keyed.cipher salt keyedBy

section

variable (keyed : Keyed config issue client)

include keyed

theorem Keyed.port_step {label : WriteLabel} {port : AsyncPort}
    (taken : client.txPort.step label = some port) :
    Keyed config issue { client with txPort := port } := by
  have round := (step_moves (step_written client.txPort port label taken)).2
  refine
    { keyed with
      ledger := keyed.ledger.step taken
      counted := ?_
      current := ?_
      conns := fun conn present => (keyed.conns conn present).step taken }
  · rw [keyed.counted, round]
  · rw [round]
    exact keyed.current

theorem Keyed.setConn (index : Nat) (conn new : Conn) (found : client.conns[index]? = some conn)
    (round : new.round = conn.round) (icTx : new.icTx = conn.icTx)
    (backend : new.backend = conn.backend) : Keyed config issue (client.setConn index new) := by
  have mine := keyed.conns conn (List.mem_of_getElem? found)
  refine { keyed with conns := forall_mem_set keyed.conns index new ⟨?_, ?_, ?_⟩ }
  · rw [round]
    exact mine.past
  · rw [round, backend]
    exact mine.floor
  · rw [round, icTx]
    exact mine.cipher

theorem Keyed.actor (after : RxSessionActor) :
    Keyed config issue { client with rxActor := some after } :=
  { keyed with decoder := nofun }

end

end Ports

section Respond

variable {keys : Keys} {resp : Response}

theorem respond_unset (keyed : Keyed config issue client)
    (none : client.fecNegotiated config resp = 0) :
    (client.respond config keys resp).session.fecAlgo = encAlgoNone := by
  have idle : client.rebuildNeeded config keys resp = false := by
    have off : client.useXorFec config resp = false := by
      unfold Client.useXorFec
      rw [none]
      simp
    unfold Client.rebuildNeeded
    rw [off]
    rfl
  have before : client.session.fecNegotiated = 0 := by
    by_contra settled
    exact settled ((fecNegotiated_kept settled).symm.trans none)
  change (if client.rebuildNeeded config keys resp then _ else _) = _
  rw [idle]
  exact keyed.unset before

theorem respond_fecSalt (uses : client.useXorFec config resp = true) :
    (client.respond config keys resp).session.fecSaltKey = resp.encSalt := by
  change (if client.rebuildNeeded config keys resp then _ else _) = _
  split
  · rfl
  · rename_i kept
    have same : client.rekeysFec keys resp = false := by
      unfold Client.rebuildNeeded at kept
      rw [uses] at kept
      simp only [Bool.true_and, Bool.or_eq_true, not_or, Bool.not_eq_true] at kept
      exact kept.2
    exact (rekeysFec_iff.mp same).2

theorem respond_decoder (keyed : Keyed config issue client)
    (set : (client.respond config keys resp).session.fecAlgo ≠ encAlgoNone)
    (single : client.rxActor = none) : (client.respond config keys resp).fecDec.isSome := by
  change (if client.rebuildNeeded config keys resp then keys.encAlgo
    else client.session.fecAlgo) ≠ _ at set
  change (client.negotiateDecoder config keys resp).isSome = true
  unfold Client.negotiateDecoder
  rw [single]
  cases rebuilt : client.rebuildNeeded config keys resp with
  | true => rfl
  | false =>
    rw [rebuilt] at set
    simpa using keyed.decoder set single

theorem negotiatePort_cases (config : Config) (client : Client) (keys : Keys) (resp : Response) :
    client.negotiatePort config keys resp = client.txPort ∨
      ∃ group ic, client.negotiatePort config keys resp = client.txPort.resetEpoch group ic := by
  unfold Client.negotiatePort
  split
  · exact Or.inr ⟨_, _, rfl⟩
  · split
    · exact Or.inr ⟨_, _, rfl⟩
    · exact Or.inl rfl

section

variable (keyed : Keyed config issue client)

include keyed

theorem repeated_port (accepted : accept config resp = some keys) (on : config.encrypt = true)
    (repeats : client.Repeats config keys resp) :
    client.negotiatePort config keys resp = client.txPort := by
  refine kept_port ?_ (Or.inl repeats.1)
  cases uses : client.useXorFec config resp with
  | false =>
    unfold Client.rebuildNeeded
    rw [uses]
    rfl
  | true =>
    obtain ⟨algo, salt⟩ := repeats.2 uses
    cases accept_accepted accepted with
    | plain off =>
      rw [off] at on
      cases on
    | encrypted tx rx on decoded aead =>
      have set : client.session.fecAlgo ≠ encAlgoNone := by
        rw [algo]
        intro zero
        rw [show resp.encAlgo = 0 from zero] at aead
        cases aead
      unfold Client.rebuildNeeded
      rw [rekeysFec_iff.mpr ⟨algo, salt⟩]
      cases actor : client.rxActor with
      | some running => simp
      | none =>
        have there := keyed.decoder set actor
        simp [Option.isNone_eq_false_iff.mpr there]

theorem renewed_resets
    (one : ∀ left right salt, issue left = some salt → issue right = some salt → left = right)
    (accepted : accept config resp = some keys) (on : config.encrypt = true)
    (issued : decodeSalt resp.encSalt = issue resp.identity)
    (fresh : resp.identity ∉ client.roundIds) :
    ∃ group ic, client.negotiatePort config keys resp = client.txPort.resetEpoch group ic := by
  have new : resp.identity ≠ client.session.identity := fun same =>
    fresh (same ▸ List.mem_of_getElem? (keyed.current on))
  cases rebuilt : client.rebuildNeeded config keys resp with
  | true => exact ⟨_, _, rebuilt_port rebuilt⟩
  | false =>
    cases uses : client.useXorFec config resp with
    | false => exact ⟨_, _, renewed_port rebuilt new uses⟩
    | true =>
      exfalso
      have same : client.rekeysFec keys resp = false := by
        unfold Client.rebuildNeeded at rebuilt
        rw [uses] at rebuilt
        simp only [Bool.true_and, Bool.or_eq_false_iff] at rebuilt
        exact rebuilt.2
      obtain ⟨algo, text⟩ := rekeysFec_iff.mp same
      obtain ⟨mode, effective⟩ := useXorFec_iff.mp uses
      cases accept_accepted accepted with
      | plain off =>
        rw [off] at on
        cases on
      | encrypted tx rx on decoded aead =>
        have settled : client.session.fecNegotiated ≠ 0 := by
          intro none
          have zero : resp.encAlgo = 0 := algo.symm.trans (keyed.unset none)
          rw [zero] at aead
          cases aead
        rw [fecNegotiated_kept settled] at effective
        have remembered := keyed.fecSalt on mode effective
        rw [text, decoded] at remembered
        exact new (one _ _ tx (issued ▸ decoded) remembered.symm)

theorem Keyed.respond (accepted : accept config resp = some keys)
    (issued : decodeSalt resp.encSalt = issue resp.identity) {port : AsyncPort}
    {ids : List Identity} (moved : client.negotiatePort config keys resp = port)
    (extended : (client.respond config keys resp).roundIds = ids)
    (ledger : Ledger port (held (fun entry => entry.frame.keys) client.sealed))
    (counted : ids.length = port.round + 1) (distinct : config.encrypt = true → ids.Nodup)
    (current : config.encrypt = true → ids[port.round]? = some resp.identity)
    (older : ∀ (round : Nat) salt, client.roundIds[round]?.bind issue = some salt →
      ids[round]?.bind issue = some salt)
    (conns : ∀ conn ∈ client.conns, ConnKeyed config issue port ids conn) :
    Keyed config issue (client.respond config keys resp) := by
  subst moved extended
  refine
    { ledger := ledger
      counted := counted
      distinct := distinct
      current := current
      unset := respond_unset keyed
      fecSalt := ?_
      decoder := respond_decoder keyed
      sealedBy := ?_
      conns := ?_ }
  · intro _ mode effective
    rw [respond_fecSalt (useXorFec_iff.mpr ⟨mode, effective⟩)]
    exact issued
  · intro entry present
    obtain ⟨on, numbered, salt⟩ := keyed.sealedBy entry present
    exact ⟨on, numbered, older _ _ salt⟩
  · refine forall_mem_concat conns ⟨Nat.le_refl _, nofun, ?_⟩
    intro salt keyedBy
    change keys.icTx = some salt at keyedBy
    cases accept_accepted accepted with
    | plain off => cases keyedBy
    | encrypted tx rx on decoded aead =>
      cases keyedBy
      refine ⟨on, ?_⟩
      rw [current on, ← decoded, issued]
      rfl

theorem respond_keyed
    (one : ∀ left right salt, issue left = some salt → issue right = some salt → left = right)
    (accepted : accept config resp = some keys)
    (issued : decodeSalt resp.encSalt = issue resp.identity)
    (own : config.encrypt = true →
      resp.identity ∉ client.roundIds ∨ client.Repeats config keys resp) :
    Keyed config issue (client.respond config keys resp) := by
  have counted := keyed.counted
  rcases negotiatePort_cases config client keys resp with kept | ⟨group, ic, reset⟩
  · have extended : (client.respond config keys resp).roundIds = client.roundIds := by
      simp only [Client.respond, kept, if_true, List.append_nil]
    refine keyed.respond accepted issued kept extended keyed.ledger counted keyed.distinct ?_
      (fun _ _ same => same) keyed.conns
    intro on
    rcases own on with fresh | repeats
    · obtain ⟨group, ic, reset⟩ := renewed_resets keyed one accepted on issued fresh
      have rounds := congrArg AsyncPort.round (kept.symm.trans reset)
      change client.txPort.round = client.txPort.round + 1 at rounds
      omega
    · rw [repeats.1]
      exact keyed.current on
  · have later : (client.txPort.resetEpoch group ic).round = client.txPort.round + 1 := rfl
    have extended : (client.respond config keys resp).roundIds =
        client.roundIds ++ [resp.identity] := by
      have moved : (client.negotiatePort config keys resp).round ≠ client.txPort.round := by
        rw [reset, later]
        omega
      simp only [Client.respond, if_neg moved]
    refine keyed.respond accepted issued reset extended
      (keyed.ledger.resetSeq.resetFec group ic) ?_ ?_ ?_ ?_
      (fun conn present => (keyed.conns conn present).resetEpoch resp.identity counted group ic)
    · rw [List.length_append, counted, later]
      rfl
    · intro on
      refine List.nodup_append.mpr ⟨keyed.distinct on, List.nodup_singleton _, ?_⟩
      intro old present new same equal
      rw [List.mem_singleton.mp same] at equal
      rcases own on with fresh | repeats
      · exact fresh (equal ▸ present)
      · have rounds := congrArg AsyncPort.round
          ((repeated_port keyed accepted on repeats).symm.trans reset)
        rw [later] at rounds
        omega
    · intro on
      rw [later, ← counted]
      exact List.getElem?_concat_length
    · intro round salt keyedBy
      obtain ⟨identity, here, salted⟩ := Option.bind_eq_some_iff.mp keyedBy
      rw [List.getElem?_append_left (List.getElem?_eq_some_iff.mp here).1]
      exact keyedBy

end

end Respond

section Steps

theorem register_keyed (keyed : Keyed config issue client) (index maxBatchFrames : Nat)
    (conn : Conn) (port : AsyncPort) (found : client.conns[index]? = some conn)
    (taken : client.txPort.step (.register 1024 maxBatchFrames) = some port) :
    Keyed config issue
      { client with
        txPort := port
        conns := client.conns.set index
          { conn with stage := .registered, backend := some client.txPort.backends.length } } := by
  have moved := keyed.port_step taken
  refine { moved with conns := forall_mem_set moved.conns index _ ?_ }
  have mine := moved.conns conn (List.mem_of_getElem? found)
  refine ⟨mine.past, ?_, mine.cipher⟩
  intro target here
  cases here
  cases step_written client.txPort port _ taken with
  | registered capacityFrames frames quiet =>
    exact (Floor.registered quiet _ rfl).weaken
      (keyed.conns conn (List.mem_of_getElem? found)).past

theorem pop_keyed (keyed : Keyed config issue client) (index target budget sendBuf : Nat)
    (conn : Conn) (backend : Backend) (batch : VpnFrameBatch) (rest : OwnedBatchQueue)
    (found : client.conns[index]? = some conn) (mine : conn.backend = some target)
    (there : client.txPort.backends[target]? = some backend)
    (popped : backend.queue.tryPopFitting budget = some (batch, rest))
    (own : ∀ frame ∈ client.txPort.nextFrames conn.backend,
      frame.seq ≠ 0 → frame.round ≤ conn.round) :
    Keyed config issue
      { client with
        txPort := { client.txPort with
          backends := client.txPort.backends.set target { backend with queue := rest } }
        sealed := client.sealed ++ sealBatch conn.icTx batch.frames
        conns := client.conns.set index { conn with sendBuf := sendBuf } } := by
  have held := keyed.conns conn (List.mem_of_getElem? found)
  have drained : ∀ other ∈ client.conns, ConnKeyed config issue
      { client.txPort with
        backends := client.txPort.backends.set target { backend with queue := rest } }
      client.roundIds other := fun other present =>
    ⟨(keyed.conns other present).past, fun place its =>
      ((keyed.conns other present).floor place its).drain target backend batch rest budget there
        popped,
      (keyed.conns other present).cipher⟩
  have after := drained conn (List.mem_of_getElem? found)
  rw [mine] at own
  refine
    { keyed with
      ledger := keyed.ledger.seal there popped conn.icTx
      sealedBy := ?_
      conns := forall_mem_set drained index _ ⟨after.past, after.floor, after.cipher⟩ }
  intro entry present
  rcases List.mem_append.mp present with old | new
  · exact keyed.sealedBy entry old
  · obtain ⟨salt, numbered, same⟩ := (held.floor target mine).sealed there popped own entry new
    obtain ⟨on, keyedBy⟩ := held.cipher entry.salt salt
    refine ⟨on, numbered, ?_⟩
    rw [same]
    exact keyedBy

def Issued (issue : Identity → Option Salt) : Label → Prop
  | .respond resp => decodeSalt resp.encSalt = issue resp.identity
  | _ => True

theorem step_keyed
    (one : ∀ left right salt, issue left = some salt → issue right = some salt → left = right)
    (label : Label) (own : SealsOwnRound config client label) (issued : Issued issue label)
    (keyed : Keyed config issue client) (taken : client.step config label = some next) :
    Keyed config issue next := by
  cases step_stepped taken with
  | wrote label port stepped => exact keyed.port_step stepped
  | traffic label actor after present other stepped => exact keyed.actor after
  | responded resp keys accepted =>
    exact respond_keyed keyed one accepted issued
      (by simpa only [SealsOwnRound, accepted] using own)
  | reconfigured index conn actor after found asked present stepped =>
    exact (keyed.actor after).setConn index conn _ found rfl rfl rfl
  | installed index conn actor after found began present stepped =>
    exact (keyed.actor after).setConn index conn _ found rfl rfl rfl
  | abandoned index conn found ready => exact keyed.setConn index conn _ found rfl rfl rfl
  | registered index maxBatchFrames conn port found ready stepped =>
    exact register_keyed keyed index maxBatchFrames conn port found stepped
  | alone index conn found ready absent => exact keyed.setConn index conn _ found rfl rfl rfl
  | produced index conn actor after found ready present stepped =>
    exact (keyed.actor after).setConn index conn _ found rfl rfl rfl
  | popped index conn target budget sendBuf backend batch rest found up mine there popped =>
    exact pop_keyed keyed index target budget sendBuf conn backend batch rest found mine there
      popped (by simpa only [SealsOwnRound, found] using own)
  | flushed index conn found up => exact keyed.setConn index conn _ found rfl rfl rfl
  | exhausted index conn instanceId found up =>
    have left := keyed.setConn index conn { conn with stage := .leaving } found rfl rfl rfl
    exact { left with }
  | left index conn found up => exact keyed.setConn index conn _ found rfl rfl rfl
  | closed index conn target port found leaving stepped =>
    exact (keyed.port_step stepped).setConn index conn _ found rfl rfl rfl

theorem new_keyed (config : Config) (issue : Identity → Option Salt) (instanceId : List Char)
    (restored : Identity) : Keyed config issue (Client.new config instanceId restored) where
  ledger := Ledger.blank rfl rfl
  counted := rfl
  distinct := fun _ => List.nodup_singleton _
  current := fun _ => rfl
  unset := fun _ => rfl
  fecSalt := fun _ _ effective => absurd effective (by decide : ¬(0 : Int) < 0)
  decoder := fun set => absurd rfl set
  sealedBy := nofun
  conns := nofun

/-- The server gives each identity one salt and no salt to two. In every run in
which no connection drains a frame numbered after a reset later than its own
response, and every response repeats the current session or brings a new identity,
no two data frames are sealed with the same salt and number. -/
theorem client_nonces_unique (config : Config) (instanceId : List Char) (restored : Identity)
    (issue : Identity → Option Salt)
    (one : ∀ left right salt, issue left = some salt → issue right = some salt → left = right)
    (labels : List Label) (final : Client)
    (issued : ∀ resp, Label.respond resp ∈ labels →
      decodeSalt resp.encSalt = issue resp.identity)
    (reached : Runs.run (Client.step config) (Client.new config instanceId restored) labels =
      some final)
    (own : Runs.Along (Client.step config) (SealsOwnRound config)
      (Client.new config instanceId restored) labels) :
    (final.sealed.map fun entry => (entry.salt, entry.frame.seq)).Nodup := by
  have all : ∀ label ∈ labels, Issued issue label := by
    intro label present
    cases label with
    | respond resp => exact issued resp present
    | _ => trivial
  have keyed : Keyed config issue final := Runs.invariant_along (Client.step config) _
    (Keyed config issue)
    (fun _ label _ guard before taken => step_keyed one label guard.1 guard.2 before taken)
    _ final labels reached (own.labels labels _ all) (new_keyed config issue instanceId restored)
  cases on : config.encrypt with
  | false =>
    have none : final.sealed = [] := List.eq_nil_iff_forall_not_mem.mpr fun entry present => by
      have sealedOn := (keyed.sealedBy entry present).1
      rw [on] at sealedOn
      cases sealedOn
    rw [none]
    exact List.nodup_nil
  | true =>
    refine nonces_distinct Sealing.salt Sealing.frame
      (fun round => final.roundIds[round]?.bind issue) final.sealed ?_
      (fun entry present => (keyed.sealedBy entry present).2)
      (List.Nodup.of_append_right keyed.ledger.unique)
    intro left right value first second
    obtain ⟨leftId, leftAt, leftSalt⟩ := Option.bind_eq_some_iff.mp first
    obtain ⟨rightId, rightAt, rightSalt⟩ := Option.bind_eq_some_iff.mp second
    have same := one leftId rightId value leftSalt rightSalt
    subst same
    obtain ⟨inside, here⟩ := List.getElem?_eq_some_iff.mp leftAt
    exact ((keyed.distinct on).getElem_inj_iff).mp
      (here.trans (List.getElem?_eq_some_iff.mp rightAt).2.symm)

def setUp (conn : Nat) : List Label :=
  [.reconfigure conn, .install conn, .register conn 8, .producer conn]

def sampleIssue (identity : Identity) : Option Salt :=
  if identity = ⟨['s'], 1⟩ then some 1
  else if identity = ⟨['s'], 2⟩ then some 2
  else none

def renewedRun : List Label :=
  [.respond (encryptedResponse 1 '1')] ++ setUp 0 ++ writeCall 0 0 samplePayload ++
    [.pop 0, .leave 0, .close 0, .respond (encryptedResponse 2 '2')] ++ setUp 1 ++
    writeCall 1 1 otherPayload ++ [.pop 1]

theorem client_nonces_unique_renewed : ∃ final,
    Runs.run (Client.step (pairConfig true)) (Client.new (pairConfig true) [] ⟨[], 0⟩) renewedRun =
        some final ∧
      final.sealed.map (fun entry => (entry.salt, entry.frame.seq)) = [(1, 1), (2, 1)] ∧
      (final.sealed.map fun entry => (entry.salt, entry.frame.seq)).Nodup := by
  have evaluated : (Runs.run (Client.step (pairConfig true))
      (Client.new (pairConfig true) [] ⟨[], 0⟩) renewedRun).map (fun client =>
        client.sealed.map fun entry => (entry.salt, entry.frame.seq)) =
          some [(1, 1), (2, 1)] := by decide +kernel
  obtain ⟨final, reached, sealed⟩ := Option.map_eq_some_iff.mp evaluated
  have one : ∀ left right salt, sampleIssue left = some salt → sampleIssue right = some salt →
      left = right := by
    intro left right salt first second
    unfold sampleIssue at first second
    split_ifs at first with isOne isTwo
    · split_ifs at second with alsoOne alsoTwo
      · exact isOne.trans alsoOne.symm
      · rw [← first] at second
        cases second
    · split_ifs at second with alsoOne alsoTwo
      · rw [← first] at second
        cases second
      · exact isTwo.trans alsoTwo.symm
  have issued : ∀ resp, Label.respond resp ∈ renewedRun →
      decodeSalt resp.encSalt = sampleIssue resp.identity := by
    intro resp present
    simp only [renewedRun, setUp, writeCall, List.cons_append, List.nil_append, List.mem_cons,
      Label.respond.injEq, reduceCtorEq, List.not_mem_nil, false_or, or_false] at present
    rcases present with rfl | rfl <;> decide +kernel
  exact ⟨final, reached, sealed, client_nonces_unique (pairConfig true) [] ⟨[], 0⟩ sampleIssue one
    renewedRun final issued reached (by decide +kernel)⟩

/-- A second connection's response starts the counter over while the first one
stays registered with its old salt. -/
def overlappedRun : List Label :=
  [.respond (encryptedResponse 1 '1')] ++ setUp 0 ++ writeCall 0 0 samplePayload ++
    [.pop 0, .respond (encryptedResponse 2 '2')] ++ writeCall 1 0 otherPayload ++ [.pop 0]

theorem overlapped_response_reuses_nonce : ∃ final first second,
    Runs.run (Client.step (pairConfig true)) (Client.new (pairConfig true) [] ⟨[], 0⟩)
        overlappedRun = some final ∧
      final.sealed = [first, second] ∧ first.salt = second.salt ∧
      first.frame.seq = second.frame.seq ∧ first.frame.data ≠ second.frame.data := by
  have evaluated : (Runs.run (Client.step (pairConfig true))
      (Client.new (pairConfig true) [] ⟨[], 0⟩) overlappedRun).map Client.sealed =
        some [⟨1, ⟨1, [7], 1⟩⟩, ⟨1, ⟨1, [8, 9], 2⟩⟩] := by decide +kernel
  obtain ⟨final, reached, sealed⟩ := Option.map_eq_some_iff.mp evaluated
  exact ⟨final, _, _, reached, sealed, rfl, rfl, by decide⟩

end Steps

end TlsVpn.ClientSession

import TlsVpn.ClientNonces
import TlsVpn.Places

/-!
Receive generations of the client. Whether a response starts a new epoch is
decided under the session lock; the actor is reconfigured later, and a connection
takes its producer, with the actor's generation of that time, later still. At rest
the producer's generation and the response's epoch are current together, if every
producer is taken when the actor has been reconfigured as often as had been asked
for by the connection's response, and a response that asks for it brings an epoch
that no open connection has.
-/

namespace TlsVpn.ClientSession

open Words XorBytes Fec Port RxActor Holdings Places

/-- A response repeats the current session or brings an epoch that no open
connection has; a producer is taken when the actor has seen the reconfigures asked
for up to the connection's own response, and no more. -/
def InStep (config : Config) (client : Client) : Label → Prop
  | .respond resp =>
    match accept config resp with
    | some keys => client.Repeats config keys resp ∨ ∀ conn ∈ client.conns,
        conn.stage ≠ .closed → conn.identity.sessionEpoch ≠ resp.identity.sessionEpoch
    | none => True
  | .producer index =>
    match client.conns[index]?, client.rxActor with
    | some conn, some actor => actor.generation = conn.ticket + 1
    | _, _ => True
  | _ => True

instance decidableInStep (config : Config) (client : Client) :
    ∀ label, Decidable (InStep config client label)
  | .respond resp => by
    dsimp only [InStep]
    exact match accept config resp with
      | some keys => inferInstance
      | none => inferInstance
  | .producer index => by
    dsimp only [InStep]
    exact match client.conns[index]?, client.rxActor with
      | some conn, some actor => inferInstance
      | some conn, none => inferInstance
      | none, some actor => inferInstance
      | none, none => inferInstance
  | .write _ | .rx _ | .reconfigure _ | .install _ | .abandon _ | .register _ _ | .pop _
  | .flush _ | .exhausted _ _ | .leave _ | .close _ => .isTrue trivial

def Client.AtRest (client : Client) : Prop :=
  ∀ conn ∈ client.conns, conn.stage = .up ∨ conn.stage = .leaving ∨ conn.stage = .closed

instance decidableAtRest (client : Client) : Decidable client.AtRest := by
  unfold Client.AtRest
  exact inferInstance

def staged (conns : List Conn) (stage : Stage) : Nat :=
  conns.countP fun conn => conn.stage = stage

structure ConnInStep (session : SessionState) (requested : Nat) (generations : List Nat)
    (conn : Conn) : Prop where
  asked : conn.ticket ≤ requested
  epoch : conn.stage ≠ .closed → (conn.ticket = requested ↔
    conn.identity.sessionEpoch = session.identity.sessionEpoch)
  producer : conn.stage = .up ∨ conn.stage = .leaving →
    conn.producer.bind (fun place => generations[place]?) = some (conn.ticket + 1)

/-- The client with its actor: the generation counts the reconfigures, those asked
for and not begun are the negotiated connections', and the one begun holds the
control lock. -/
structure Agrees (client : Client) (actor : RxSessionActor) : Prop where
  counted : client.requested + 1 = actor.generation + staged client.conns .negotiated
  locked : staged client.conns .reconfiguring = if actor.control.isSome then 1 else 0
  installed : actor.control = none → actor.state.generation = actor.generation
  begun : ∀ generation fec, actor.control = some (generation, fec) →
    generation = actor.generation
  conns : ∀ conn ∈ client.conns, ConnInStep client.session client.requested
    (actor.producers.map RxProducer.generation) conn

variable {config : Config} {client next : Client} {actor after : RxSessionActor}

theorem staged_set {conns : List Conn} {index : Nat} {conn : Conn} (new : Conn) (stage : Stage)
    (found : conns[index]? = some conn) :
    staged (conns.set index new) stage + (if conn.stage = stage then 1 else 0) =
      staged conns stage + if new.stage = stage then 1 else 0 := by
  simpa only [staged, decide_eq_true_eq] using
    countP_set_add (fun conn => decide (conn.stage = stage)) conns index conn new found

section Steps

theorem Agrees.setConn (agrees : Agrees client actor) (index : Nat) (conn new : Conn)
    (found : client.conns[index]? = some conn)
    (waiting : ∀ stage, stage = .negotiated ∨ stage = .reconfiguring →
      (new.stage = stage ↔ conn.stage = stage))
    (fresh : ConnInStep client.session client.requested
      (actor.producers.map RxProducer.generation) new)
    (session : next.session = client.session) (requested : next.requested = client.requested)
    (conns : next.conns = client.conns.set index new) : Agrees next actor := by
  have kept : ∀ stage, stage = .negotiated ∨ stage = .reconfiguring →
      staged next.conns stage = staged client.conns stage := by
    intro stage either
    have counts := staged_set new stage found
    rw [← conns] at counts
    simp only [waiting stage either] at counts
    omega
  refine ⟨?_, ?_, agrees.installed, agrees.begun, ?_⟩
  · rw [kept _ (Or.inl rfl), requested]
    exact agrees.counted
  · rw [kept _ (Or.inr rfl)]
    exact agrees.locked
  · rw [session, requested, conns]
    exact forall_mem_set agrees.conns index new fresh

theorem ConnInStep.move {session : SessionState} {requested : Nat} {generations : List Nat}
    {conn new : Conn} (inStep : ConnInStep session requested generations conn)
    (ticket : new.ticket = conn.ticket) (identity : new.identity = conn.identity)
    (opened : new.stage ≠ .closed → conn.stage ≠ .closed)
    (producer : new.stage = .up ∨ new.stage = .leaving →
      new.producer.bind (fun place => generations[place]?) = some (conn.ticket + 1)) :
    ConnInStep session requested generations new := by
  refine ⟨?_, ?_, ?_⟩
  · rw [ticket]
    exact inStep.asked
  · rw [ticket, identity]
    exact fun open_ => inStep.epoch (opened open_)
  · rw [ticket]
    exact producer

section

variable (agrees : Agrees client actor)

include agrees

theorem Agrees.advance (index : Nat) (conn new : Conn) (found : client.conns[index]? = some conn)
    (ticket : new.ticket = conn.ticket) (identity : new.identity = conn.identity)
    (waiting : ∀ stage, stage = .negotiated ∨ stage = .reconfiguring →
      (new.stage = stage ↔ conn.stage = stage))
    (opened : new.stage ≠ .closed → conn.stage ≠ .closed)
    (serving : new.stage = .up ∨ new.stage = .leaving →
      new.producer = conn.producer ∧ (conn.stage = .up ∨ conn.stage = .leaving))
    (session : next.session = client.session) (requested : next.requested = client.requested)
    (conns : next.conns = client.conns.set index new) : Agrees next actor := by
  have mine := agrees.conns conn (List.mem_of_getElem? found)
  refine agrees.setConn index conn new found waiting
    (mine.move ticket identity opened ?_) session requested conns
  intro stage
  obtain ⟨same, before⟩ := serving stage
  rw [same]
  exact mine.producer before

theorem Agrees.traffic (same : SameGenerations actor after)
    (session : next.session = client.session) (requested : next.requested = client.requested)
    (conns : next.conns = client.conns) : Agrees next after := by
  refine ⟨?_, ?_, ?_, ?_, ?_⟩
  · rw [requested, conns, same.generation]
    exact agrees.counted
  · rw [conns, same.control]
    exact agrees.locked
  · rw [same.control, same.state, same.generation]
    exact agrees.installed
  · rw [same.control, same.generation]
    exact agrees.begun
  · rw [session, requested, conns, same.producers]
    exact agrees.conns

section

variable (batchCap index : Nat) (conn : Conn) (found : client.conns[index]? = some conn)

include found

theorem reconfigure_agrees (asked : conn.stage = .negotiated)
    (taken : actor.step batchCap (.reconfigure conn.decoder) = some after) :
    Agrees
      { client with
        rxActor := some after
        conns := client.conns.set index { conn with stage := .reconfiguring } } after := by
  have mine := agrees.conns conn (List.mem_of_getElem? found)
  have counted := agrees.counted
  have locked := agrees.locked
  have negotiated := staged_set { conn with stage := .reconfiguring } .negotiated found
  have reconfiguring := staged_set { conn with stage := .reconfiguring } .reconfiguring found
  simp only [asked, reduceCtorEq, if_true, if_false] at negotiated reconfiguring
  cases stepped_of_step taken with
  | reconfigure free =>
    rw [free] at locked
    refine ⟨?_, ?_, (fun free => by cases free), ?_, ?_⟩
    · change client.requested + 1 = actor.generation + 1 + staged (client.conns.set index _) _
      omega
    · change staged (client.conns.set index _) _ = 1
      rw [locked] at reconfiguring
      exact reconfiguring
    · intro generation fec same
      cases same
      rfl
    · refine forall_mem_set agrees.conns index _ (mine.move rfl rfl ?_ (by simp))
      intro _ closed
      rw [asked] at closed
      cases closed

theorem install_agrees (began : conn.stage = .reconfiguring)
    (taken : actor.step batchCap .install = some after) :
    Agrees
      { client with
        rxActor := some after
        conns := client.conns.set index { conn with stage := .configured } } after := by
  have mine := agrees.conns conn (List.mem_of_getElem? found)
  have counted := agrees.counted
  have locked := agrees.locked
  have negotiated := staged_set { conn with stage := .configured } .negotiated found
  have reconfiguring := staged_set { conn with stage := .configured } .reconfiguring found
  simp only [began, reduceCtorEq, if_true, if_false] at negotiated reconfiguring
  cases stepped_of_step taken with
  | @install generation fec held =>
    rw [held] at locked
    refine ⟨?_, ?_, fun _ => agrees.begun generation fec held,
      (fun _ _ free => by cases free), ?_⟩
    · change client.requested + 1 = actor.generation + staged (client.conns.set index _) _
      omega
    · change staged (client.conns.set index _) _ = 0
      rw [locked] at reconfiguring
      exact Nat.succ.inj reconfiguring
    · refine forall_mem_set agrees.conns index _ (mine.move rfl rfl ?_ (by simp))
      intro _ closed
      rw [began] at closed
      cases closed

theorem produce_agrees (ready : conn.stage = .registered) (own : actor.generation = conn.ticket + 1)
    (taken : actor.step batchCap .produce = some after) :
    Agrees
      { client with
        rxActor := some after
        conns := client.conns.set index
          { conn with stage := .up, producer := some actor.producers.length } } after := by
  have mine := agrees.conns conn (List.mem_of_getElem? found)
  cases stepped_of_step taken with
  | produce =>
    have more : ∀ other, ConnInStep client.session client.requested
        (actor.producers.map RxProducer.generation) other →
        ConnInStep client.session client.requested
          ((actor.producers ++ [RxProducer.new actor.generation]).map RxProducer.generation)
          other := by
      intro other inStep
      refine ⟨inStep.asked, inStep.epoch, ?_⟩
      intro serving
      obtain ⟨place, its, generation⟩ := Option.bind_eq_some_iff.mp (inStep.producer serving)
      rw [its, Option.bind_some, List.map_append,
        List.getElem?_append_left (List.getElem?_eq_some_iff.mp generation).1]
      exact generation
    have grown : Agrees client
        { actor with producers := actor.producers ++ [RxProducer.new actor.generation] } :=
      ⟨agrees.counted, agrees.locked, agrees.installed, agrees.begun,
        fun other present => more other (agrees.conns other present)⟩
    refine grown.setConn index conn
      { conn with stage := .up, producer := some actor.producers.length } found ?_
      ((more conn mine).move rfl rfl ?_ ?_) rfl rfl rfl
    · rintro stage (rfl | rfl) <;> simp [ready]
    · intro _ closed
      rw [ready] at closed
      cases closed
    · intro _
      have length : actor.producers.length =
          (actor.producers.map RxProducer.generation).length := (List.length_map _).symm
      rw [Option.bind_some, List.map_append, ← own, length]
      exact List.getElem?_concat_length

end

end

end Steps

section Respond

variable {keys : Keys} {resp : Response}

theorem repeated_asks_nothing (present : client.rxActor = some actor)
    (repeats : client.Repeats config keys resp) :
    client.actorReconfigure config keys resp = false := by
  have old : client.isNewSession resp = false := by
    unfold Client.isNewSession
    rw [repeats.1]
    simp
  have kept : client.rebuildNeeded config keys resp = false := by
    unfold Client.rebuildNeeded
    cases uses : client.useXorFec config resp with
    | false => rfl
    | true =>
      rw [rekeysFec_iff.mpr (repeats.2 uses), present]
      rfl
  unfold Client.actorReconfigure
  rw [old, kept]
  simp

theorem unasked_identity (present : client.rxActor = some actor)
    (unasked : client.actorReconfigure config keys resp = false) :
    resp.identity = client.session.identity := by
  unfold Client.actorReconfigure Client.isNewSession at unasked
  rw [present] at unasked
  simp only [Option.isSome_some, Bool.true_and, Bool.or_eq_false_iff, decide_eq_false_iff_not,
    not_not] at unasked
  exact unasked.2.symm

theorem respond_agrees (agrees : Agrees client actor) (present : client.rxActor = some actor)
    (own : client.Repeats config keys resp ∨ ∀ conn ∈ client.conns,
      conn.stage ≠ .closed → conn.identity.sessionEpoch ≠ resp.identity.sessionEpoch) :
    Agrees (client.respond config keys resp) actor := by
  have counted := agrees.counted
  obtain ⟨newcomer, conns, stage, ticket, identity⟩ : ∃ newcomer,
      (client.respond config keys resp).conns = client.conns ++ [newcomer] ∧
        newcomer.stage = (if client.actorReconfigure config keys resp then .negotiated
          else .configured) ∧
        newcomer.ticket = (client.respond config keys resp).requested ∧
        newcomer.identity = resp.identity :=
    ⟨_, rfl, rfl, rfl, rfl⟩
  have requested : (client.respond config keys resp).requested =
      client.requested + if client.actorReconfigure config keys resp then 1 else 0 := rfl
  have session : (client.respond config keys resp).session.identity = resp.identity := rfl
  have staging : ∀ wanted, staged (client.respond config keys resp).conns wanted =
      staged client.conns wanted + if newcomer.stage = wanted then 1 else 0 := by
    intro wanted
    unfold staged
    rw [conns, List.countP_append, List.countP_singleton]
    simp only [decide_eq_true_eq]
  -- The newcomer is current: its identity is the session's, its ticket the last.
  have joined : ConnInStep (client.respond config keys resp).session
      (client.respond config keys resp).requested
      (actor.producers.map RxProducer.generation) newcomer := by
    refine ⟨ticket.le, ?_, ?_⟩
    · intro _
      rw [ticket, identity, session]
      simp
    · intro serving
      rw [stage] at serving
      split at serving <;> simp at serving
  refine ⟨?_, ?_, agrees.installed, agrees.begun, ?_⟩
  · rw [requested, staging, stage]
    split
    · simp only [if_true]
      omega
    · simp only [reduceCtorEq, if_false]
      omega
  · have elsewhere : newcomer.stage ≠ .reconfiguring := by
      rw [stage]
      split <;> simp
    rw [staging, if_neg elsewhere]
    exact agrees.locked
  · rw [conns]
    intro conn member
    rcases List.mem_append.mp member with old | new
    · have mine := agrees.conns conn old
      have asked := mine.asked
      refine ⟨?_, ?_, mine.producer⟩
      · rw [requested]
        omega
      · intro opened
        rw [requested, session]
        cases wants : client.actorReconfigure config keys resp with
        | false =>
          rw [unasked_identity present wants]
          exact mine.epoch opened
        | true =>
          rcases own with repeats | apart
          · rw [repeated_asks_nothing present repeats] at wants
            cases wants
          · have other := apart conn old opened
            constructor
            · intro same
              simp only [if_true] at same
              omega
            · intro same
              exact absurd same other
    · rw [List.mem_singleton.mp new]
      exact joined

end Respond

theorem step_agrees (label : Label) (own : InStep config client label)
    (agrees : ∀ actor, client.rxActor = some actor → Agrees client actor)
    (taken : client.step config label = some next) (running : RxSessionActor)
    (there : next.rxActor = some running) : Agrees next running := by
  cases step_stepped taken with
  | wrote label port stepped => exact { agrees running there with }
  | traffic label actor after present other stepped =>
    cases there
    exact (agrees actor present).traffic (traffic_generations other stepped) rfl rfl rfl
  | responded resp keys accepted =>
    exact respond_agrees (agrees running there) there
      (by simpa only [InStep, accepted] using own)
  | reconfigured index conn actor after found asked present stepped =>
    cases there
    exact reconfigure_agrees (agrees actor present) _ index conn found asked stepped
  | installed index conn actor after found began present stepped =>
    cases there
    exact install_agrees (agrees actor present) _ index conn found began stepped
  | abandoned index conn found ready =>
    refine (agrees running there).advance index conn { conn with stage := .closed } found rfl rfl
      ?_ (by simp) (by simp) rfl rfl rfl
    rintro stage (rfl | rfl) <;> simp [ready]
  | registered index maxBatchFrames conn port found ready stepped =>
    refine (agrees running there).advance index conn
      { conn with stage := .registered, backend := some client.txPort.backends.length } found
      rfl rfl ?_ (by simp [ready]) (by simp) rfl rfl rfl
    rintro stage (rfl | rfl) <;> simp [ready]
  | alone index conn found ready absent =>
    rw [show client.rxActor = some running from there] at absent
    cases absent
  | produced index conn actor after found ready present stepped =>
    cases there
    exact produce_agrees (agrees actor present) _ index conn found ready
      (by simpa only [InStep, found, present] using own) stepped
  | popped index conn target budget sendBuf backend batch rest found up mine here popped =>
    exact (agrees running there).advance index conn { conn with sendBuf := sendBuf } found rfl rfl
      (fun _ _ => Iff.rfl) id (fun serving => ⟨rfl, serving⟩) rfl rfl rfl
  | flushed index conn found up =>
    exact (agrees running there).advance index conn { conn with sendBuf := 0 } found rfl rfl
      (fun _ _ => Iff.rfl) id (fun serving => ⟨rfl, serving⟩) rfl rfl rfl
  | exhausted index conn instanceId found up =>
    refine (agrees running there).advance index conn { conn with stage := .leaving } found rfl rfl
      ?_ (by simp [up]) (fun _ => ⟨rfl, Or.inl up⟩) rfl rfl rfl
    rintro stage (rfl | rfl) <;> simp [up]
  | left index conn found up =>
    refine (agrees running there).advance index conn { conn with stage := .leaving } found rfl rfl
      ?_ (by simp [up]) (fun _ => ⟨rfl, Or.inl up⟩) rfl rfl rfl
    rintro stage (rfl | rfl) <;> simp [up]
  | closed index conn target port found leaving stepped =>
    refine (agrees running there).advance index conn { conn with stage := .closed } found rfl rfl
      ?_ (by simp) (by simp) rfl rfl rfl
    rintro stage (rfl | rfl) <;> simp [leaving]

theorem new_agrees (config : Config) (instanceId : List Char) (restored : Identity)
    (actor : RxSessionActor)
    (present : (Client.new config instanceId restored).rxActor = some actor) :
    Agrees (Client.new config instanceId restored) actor := by
  have fresh : actor = RxSessionActor.new none := by
    unfold Client.new at present
    dsimp only at present
    split at present
    · exact (Option.some.inj present).symm
    · cases present
  subst fresh
  exact ⟨rfl, rfl, fun _ => rfl, nofun, nofun⟩

theorem idle_agrees (agrees : Agrees client actor) (rest : client.AtRest) :
    client.requested + 1 = actor.generation ∧ actor.control = none := by
  have none : ∀ stage, stage = .negotiated ∨ stage = .reconfiguring →
      staged client.conns stage = 0 := by
    intro stage either
    refine List.countP_eq_zero.mpr fun conn present waiting => ?_
    have at_ := of_decide_eq_true waiting
    rcases rest conn present with up | leaving | closed <;> rcases either with rfl | rfl <;>
      simp_all
  have counted := agrees.counted
  have locked := agrees.locked
  rw [none _ (Or.inl rfl)] at counted
  rw [none _ (Or.inr rfl)] at locked
  refine ⟨counted, ?_⟩
  cases held : actor.control with
  | none => rfl
  | some holder => simp [held] at locked

/-- In every run in which responses and producers meet the condition, whenever no
connection is between its negotiation and its producer: the actor's state is of
the actor's generation, and an open connection's producer is of that generation
exactly if the epoch of its handshake is the client's current one. -/
theorem generations_agree_at_rest (config : Config) (instanceId : List Char)
    (restored : Identity) (labels : List Label) (final : Client) (actor : RxSessionActor)
    (reached : Runs.run (Client.step config) (Client.new config instanceId restored) labels =
      some final)
    (own : Runs.Along (Client.step config) (InStep config)
      (Client.new config instanceId restored) labels)
    (present : final.rxActor = some actor) (rest : final.AtRest) :
    actor.state.generation = actor.generation ∧
      ∀ conn ∈ final.conns, conn.stage ≠ .closed → ∃ place producer,
        conn.producer = some place ∧ actor.producers[place]? = some producer ∧
          (producer.generation = actor.generation ↔
            conn.identity.sessionEpoch = final.session.identity.sessionEpoch) := by
  have agrees : Agrees final actor := Runs.invariant_along (Client.step config) (InStep config)
    (fun client => ∀ actor, client.rxActor = some actor → Agrees client actor)
    (fun _ label _ guard before taken => step_agrees label guard before taken)
    _ final labels reached own (new_agrees config instanceId restored) actor present
  obtain ⟨counted, free⟩ := idle_agrees agrees rest
  refine ⟨agrees.installed free, ?_⟩
  intro conn member opened
  have mine := agrees.conns conn member
  have serving : conn.stage = .up ∨ conn.stage = .leaving := by
    rcases rest conn member with up | leaving | closed
    · exact Or.inl up
    · exact Or.inr leaving
    · exact absurd closed opened
  obtain ⟨place, its, generation⟩ := Option.bind_eq_some_iff.mp (mine.producer serving)
  rw [List.getElem?_map] at generation
  obtain ⟨producer, here, same⟩ := Option.map_eq_some_iff.mp generation
  refine ⟨place, producer, its, here, ?_⟩
  rw [← mine.epoch opened, same, ← counted]
  omega

def generationsOf (client : Client) (actor : RxSessionActor) : List (Nat × Option Nat) :=
  client.conns.map fun conn =>
    (conn.identity.sessionEpoch,
      (conn.producer.bind fun place => actor.producers[place]?).map RxProducer.generation)

def orderedSetUps : List Label :=
  [.respond (encryptedResponse 1 '1')] ++ setUp 0 ++
    [.respond (encryptedResponse 1 '1'), .register 1 8, .producer 1,
      .respond (encryptedResponse 2 '2')] ++ setUp 2

theorem generations_agree_ordered : ∃ final actor,
    Runs.run (Client.step (pairConfig true)) (Client.new (pairConfig true) [] ⟨[], 0⟩)
        orderedSetUps = some final ∧
      final.rxActor = some actor ∧ final.AtRest ∧
      generationsOf final actor = [(1, some 2), (1, some 2), (2, some 3)] ∧
      actor.state.generation = actor.generation ∧
      ∀ conn ∈ final.conns, conn.stage ≠ .closed → ∃ place producer,
        conn.producer = some place ∧ actor.producers[place]? = some producer ∧
          (producer.generation = actor.generation ↔
            conn.identity.sessionEpoch = final.session.identity.sessionEpoch) := by
  have evaluated : ((Runs.run (Client.step (pairConfig true))
      (Client.new (pairConfig true) [] ⟨[], 0⟩) orderedSetUps).bind fun final =>
      final.rxActor.map fun actor => (decide final.AtRest, generationsOf final actor)) =
        some (true, [(1, some 2), (1, some 2), (2, some 3)]) := by decide +kernel
  obtain ⟨final, reached, rest⟩ := Option.bind_eq_some_iff.mp evaluated
  obtain ⟨actor, present, facts⟩ := Option.map_eq_some_iff.mp rest
  simp only [Prod.mk.injEq, decide_eq_true_eq] at facts
  exact ⟨final, actor, reached, present, facts.1, facts.2,
    generations_agree_at_rest (pairConfig true) [] ⟨[], 0⟩ orderedSetUps final actor reached
      (by decide +kernel) present facts.1⟩

def earlyProducer : List Label :=
  [.respond (encryptedResponse 1 '1'), .respond (encryptedResponse 1 '1'), .register 1 8,
    .producer 1] ++ setUp 0

theorem early_producer_is_discarded : ∃ final actor conn producer,
    Runs.run (Client.step (pairConfig true)) (Client.new (pairConfig true) [] ⟨[], 0⟩)
        earlyProducer = some final ∧
      final.rxActor = some actor ∧ final.AtRest ∧ final.conns[1]? = some conn ∧
      conn.producer.bind (fun place => actor.producers[place]?) = some producer ∧
      conn.stage = .up ∧
      conn.identity.sessionEpoch = final.session.identity.sessionEpoch ∧
      producer.generation ≠ actor.generation ∧
      ∀ frames clock, processBatch actor.state producer.generation frames clock =
        (actor.state, [], none) := by
  have evaluated : ((Runs.run (Client.step (pairConfig true))
      (Client.new (pairConfig true) [] ⟨[], 0⟩) earlyProducer).bind fun final =>
      final.rxActor.bind fun actor => final.conns[1]?.bind fun conn =>
        (conn.producer.bind fun place => actor.producers[place]?).map fun producer =>
          (decide final.AtRest, decide (conn.stage = .up),
            decide (conn.identity.sessionEpoch = final.session.identity.sessionEpoch),
            producer.generation, actor.generation, actor.state.generation)) =
        some (true, true, true, 1, 2, 2) := by decide +kernel
  obtain ⟨final, reached, rest⟩ := Option.bind_eq_some_iff.mp evaluated
  obtain ⟨actor, present, more⟩ := Option.bind_eq_some_iff.mp rest
  obtain ⟨conn, found, last⟩ := Option.bind_eq_some_iff.mp more
  obtain ⟨producer, its, facts⟩ := Option.map_eq_some_iff.mp last
  simp only [Prod.mk.injEq, decide_eq_true_eq] at facts
  obtain ⟨atRest, up, epoch, own, current, state⟩ := facts
  refine ⟨final, actor, conn, producer, reached, present, atRest, found, its, up, epoch, ?_, ?_⟩
  · omega
  · intro frames clock
    unfold processBatch
    rw [if_pos (by omega)]

end TlsVpn.ClientSession

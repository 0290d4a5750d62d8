import TlsVpn.ClientSession

/-!
The transmit state after a handshake response. Without FEC a new session resets
the port. With FEC the reset and the encoder hang on another question, whether
the cipher or the salt differ from those FEC was last set up with, and without
encryption these never differ. The port is as the session needs it as long as
the two questions have the same answer.
-/

namespace TlsVpn.ClientSession

open Words XorBytes Fec Port RxActor

variable {config : Config} {client next : Client}

/-- No group exceeds the largest one. A response that finds or puts FEC in
effect, and that changes the session or is the first with FEC, names another
cipher or salt than FEC was last set up with, or comes to the only connection
before it has a decoder. -/
def SetsUpFec (config : Config) (client : Client) : Label → Prop
  | .respond resp =>
    match accept config resp with
    | some keys =>
      resp.fecGroup ≤ (fecMaxGroup : Int) ∧
        (client.useXorFec config resp = true →
          resp.identity ≠ client.session.identity ∨ client.session.fecNegotiated = 0 →
          client.rxActor.isNone ∧ client.fecDec.isNone ∨
            client.session.fecAlgo ≠ keys.encAlgo ∨
            client.session.fecSaltKey ≠ resp.encSalt)
    | none => True
  | _ => True

instance decidableSetsUpFec (config : Config) (client : Client) :
    ∀ label, Decidable (SetsUpFec config client label)
  | .respond resp => by
    dsimp only [SetsUpFec]
    exact match accept config resp with
      | some keys => inferInstance
      | none => inferInstance
  | .write _ | .rx _ | .reconfigure _ | .install _ | .abandon _ | .register _ _ | .producer _
  | .pop _ | .flush _ | .exhausted _ _ | .leave _ | .close _ => .isTrue trivial

def EncoderFits (config : Config) (session : SessionState) (port : AsyncPort) : Prop :=
  config.fecMode = true → 0 < session.fecNegotiated →
    port.encoder.map FecEncoder.k = some session.fecNegotiated.toNat ∧ port.encoderEnabled = true

structure FecReady (config : Config) (client : Client) : Prop where
  group : client.session.fecNegotiated = 0 ∨
    2 ≤ client.session.fecNegotiated ∧ client.session.fecNegotiated ≤ 64
  encoder : EncoderFits config client.session client.txPort

section Negotiation

variable {keys : Keys} {resp : Response}

theorem fecNegotiated_group
    (group : client.session.fecNegotiated = 0 ∨
      2 ≤ client.session.fecNegotiated ∧ client.session.fecNegotiated ≤ 64)
    (small : resp.fecGroup ≤ (fecMaxGroup : Int)) :
    client.fecNegotiated config resp = 0 ∨
      2 ≤ client.fecNegotiated config resp ∧ client.fecNegotiated config resp ≤ 64 := by
  unfold Client.fecNegotiated
  split
  · rename_i adopted
    exact Or.inr ⟨adopted.2.2, small⟩
  · exact group

theorem resetEpoch_encoder (port : AsyncPort) (group : Nat) (ic : Option InnerCipher)
    (atLeast : 2 ≤ group) (atMost : group ≤ 64) :
    (port.resetEpoch group ic).encoder.map FecEncoder.k = some group ∧
      (port.resetEpoch group ic).encoderEnabled = true := by
  have size := clampFecGroup_of_bounds atLeast atMost
  have room : group ≥ fecMinGroup := atLeast
  unfold AsyncPort.resetEpoch AsyncPort.resetFec
  simp [room, FecEncoder.new, size]

theorem respond_resets (accepted : accept config resp = some keys)
    (sets : SetsUpFec config client (.respond resp))
    (new : resp.identity ≠ client.session.identity) :
    ∃ group ic, client.negotiatePort config keys resp = client.txPort.resetEpoch group ic := by
  simp only [SetsUpFec, accepted] at sets
  cases uses : client.useXorFec config resp with
  | true => exact ⟨_, _, rebuilt_port (rebuildNeeded_of uses (sets.2 uses (Or.inl new)))⟩
  | false =>
    have kept : client.rebuildNeeded config keys resp = false := by
      unfold Client.rebuildNeeded
      rw [uses]
      rfl
    exact ⟨_, _, renewed_port kept new uses⟩

theorem respond_ready (ready : FecReady config client) (accepted : accept config resp = some keys)
    (sets : SetsUpFec config client (.respond resp)) :
    FecReady config (client.respond config keys resp) := by
  simp only [SetsUpFec, accepted] at sets
  have group : client.fecNegotiated config resp = 0 ∨
      2 ≤ client.fecNegotiated config resp ∧ client.fecNegotiated config resp ≤ 64 :=
    fecNegotiated_group ready.group sets.1
  refine ⟨group, ?_⟩
  intro mode effective
  change 0 < client.fecNegotiated config resp at effective
  change (client.negotiatePort config keys resp).encoder.map FecEncoder.k =
      some (client.fecNegotiated config resp).toNat ∧
    (client.negotiatePort config keys resp).encoderEnabled = true
  have uses : client.useXorFec config resp = true := by
    unfold Client.useXorFec
    rw [mode, decide_eq_true effective]
    rfl
  cases rebuilt : client.rebuildNeeded config keys resp with
  | true =>
    rw [rebuilt_port rebuilt]
    exact resetEpoch_encoder _ _ _ (by omega) (by omega)
  | false =>
    have settled : client.session.fecNegotiated ≠ 0 := by
      intro first
      have needed := rebuildNeeded_of uses (sets.2 uses (Or.inr first))
      rw [rebuilt] at needed
      cases needed
    rw [kept_port rebuilt (Or.inr uses)]
    rw [fecNegotiated_kept settled] at effective ⊢
    exact ready.encoder mode effective

end Negotiation

theorem FecReady.port_step (ready : FecReady config client) {label : WriteLabel}
    {port : AsyncPort} (taken : client.txPort.step label = some port)
    (session : next.session = client.session) (moved : next.txPort = port) :
    FecReady config next := by
  have kept := step_encoder (step_written client.txPort port label taken)
  refine ⟨by rw [session]; exact ready.group, ?_⟩
  rw [session, moved]
  intro mode effective
  rw [kept.1, kept.2]
  exact ready.encoder mode effective

theorem step_ready (label : Label) (sets : SetsUpFec config client label)
    (ready : FecReady config client) (taken : client.step config label = some next) :
    FecReady config next := by
  cases step_stepped taken with
  | wrote label port stepped => exact ready.port_step stepped rfl rfl
  | responded resp keys accepted => exact respond_ready ready accepted sets
  | registered index maxBatchFrames conn port found stage stepped =>
    exact ready.port_step stepped rfl rfl
  | closed index conn target port found leaving stepped => exact ready.port_step stepped rfl rfl
  | _ => exact ⟨ready.group, ready.encoder⟩

/-- In every run whose responses all meet the condition: an encoder of the
negotiated size is installed and enabled whenever FEC is in effect, and a further
such response that changes the session leaves the port with its counter at zero,
not exhausted, and its mode at generation zero. -/
theorem transmit_state_renewed (config : Config) (instanceId : List Char) (restored : Identity)
    (labels : List Label) (final : Client)
    (reached : Runs.run (Client.step config) (Client.new config instanceId restored) labels =
      some final)
    (sets : Runs.Along (Client.step config) (SetsUpFec config)
      (Client.new config instanceId restored) labels) :
    (config.fecMode = true → 2 ≤ final.session.fecNegotiated →
      ∃ encoder, final.txPort.encoder = some encoder ∧ final.txPort.encoderEnabled = true ∧
        encoder.k = final.session.fecNegotiated.toNat) ∧
    ∀ resp next, SetsUpFec config final (.respond resp) →
      final.step config (.respond resp) = some next →
      next.session.identity ≠ final.session.identity →
      next.txPort.txSeq = 0 ∧ next.txPort.sequenceExhausted = false ∧
        next.txPort.fecMode.generation = 0 := by
  have ready : FecReady config final := Runs.invariant_along (Client.step config)
    (SetsUpFec config) (FecReady config)
    (fun _ label _ guard before taken => step_ready label guard before taken)
    _ final labels reached sets ⟨Or.inl rfl, nofun⟩
  refine ⟨?_, ?_⟩
  · intro mode effective
    obtain ⟨size, enabled⟩ := ready.encoder mode (by omega)
    obtain ⟨encoder, installed, k⟩ := Option.map_eq_some_iff.mp size
    exact ⟨encoder, installed, enabled, k⟩
  · intro resp next last taken new
    cases step_stepped taken with
    | responded resp keys accepted =>
      obtain ⟨group, ic, reset⟩ := respond_resets accepted last new
      change (final.negotiatePort config keys resp).txSeq = 0 ∧
        (final.negotiatePort config keys resp).sequenceExhausted = false ∧
        (final.negotiatePort config keys resp).fecMode.generation = 0
      rw [reset]
      exact ⟨rfl, rfl, rfl⟩

def pairConfig (encrypt : Bool) : Config where
  encrypt := encrypt
  encAlgo := 2
  minEnc := false
  fecMode := true
  connsCount := 2
  rxBatchSize := 8
  fecCipher := fun _ => zeroTagCipher

def saltText (digit : Char) : List Char := List.replicate 15 '0' ++ [digit]

def encryptedResponse (epoch : Nat) (digit : Char) : Response :=
  ⟨3, ⟨['s'], epoch⟩, true, 2, saltText digit, saltText 'f', 4⟩

def plainResponse (epoch : Nat) : Response := ⟨3, ⟨['s'], epoch⟩, false, 0, [], [], 4⟩

def writeCall (writer target : Nat) (payload : Payload) : List Label :=
  [.write (.enter payload), .write (.number writer), .write (.encode writer),
    .write (.attempt writer target), .write (.leave writer)]

theorem transmit_state_renewed_encrypted : ∃ final next,
    Runs.run (Client.step (pairConfig true)) (Client.new (pairConfig true) [] ⟨[], 0⟩)
        ([.respond (encryptedResponse 1 '1'), .reconfigure 0, .install 0, .register 0 8] ++
          writeCall 0 0 samplePayload) = some final ∧
      final.step (pairConfig true) (.respond (encryptedResponse 2 '2')) = some next ∧
      final.txPort.txSeq = 1 ∧ final.session.fecNegotiated = 4 ∧
      (∃ encoder, final.txPort.encoder = some encoder ∧ final.txPort.encoderEnabled = true ∧
        encoder.k = final.session.fecNegotiated.toNat) ∧
      next.txPort.txSeq = 0 ∧ next.txPort.sequenceExhausted = false ∧
      next.txPort.fecMode.generation = 0 := by
  have evaluated : ((Runs.run (Client.step (pairConfig true))
      (Client.new (pairConfig true) [] ⟨[], 0⟩)
      ([.respond (encryptedResponse 1 '1'), .reconfigure 0, .install 0, .register 0 8] ++
        writeCall 0 0 samplePayload)).bind fun final =>
      (final.step (pairConfig true) (.respond (encryptedResponse 2 '2'))).map fun next =>
        (final.txPort.txSeq, final.session.fecNegotiated,
          decide (SetsUpFec (pairConfig true) final (.respond (encryptedResponse 2 '2'))),
          decide (next.session.identity ≠ final.session.identity))) =
      some (1, 4, true, true) := by decide +kernel
  obtain ⟨final, reached, rest⟩ := Option.bind_eq_some_iff.mp evaluated
  obtain ⟨next, stepped, facts⟩ := Option.map_eq_some_iff.mp rest
  simp only [Prod.mk.injEq, decide_eq_true_eq] at facts
  obtain ⟨counter, group, sets, new⟩ := facts
  have renewed := transmit_state_renewed (pairConfig true) [] ⟨[], 0⟩ _ final reached
    (by decide +kernel)
  exact ⟨final, next, reached, stepped, counter, group, renewed.1 rfl (by omega),
    renewed.2 _ next sets stepped new⟩

/-- Without encryption cipher and salt are the remembered ones from the start, so
the second epoch goes on with the first one's numbers, and there is no encoder. -/
theorem unencrypted_fec_not_renewed : ∃ final next,
    Runs.run (Client.step (pairConfig false)) (Client.new (pairConfig false) [] ⟨[], 0⟩)
        ([.respond (plainResponse 1), .reconfigure 0, .install 0, .register 0 8] ++
          writeCall 0 0 samplePayload) = some final ∧
      final.step (pairConfig false) (.respond (plainResponse 2)) = some next ∧
      next.session.identity ≠ final.session.identity ∧ next.txPort.txSeq = 1 ∧
      (pairConfig false).fecMode = true ∧ next.session.fecNegotiated = 4 ∧
      next.txPort.encoder.isNone = true := by
  have evaluated : ((Runs.run (Client.step (pairConfig false))
      (Client.new (pairConfig false) [] ⟨[], 0⟩)
      ([.respond (plainResponse 1), .reconfigure 0, .install 0, .register 0 8] ++
        writeCall 0 0 samplePayload)).bind fun final =>
      (final.step (pairConfig false) (.respond (plainResponse 2))).map fun next =>
        (decide (next.session.identity ≠ final.session.identity), next.txPort.txSeq,
          next.session.fecNegotiated, next.txPort.encoder.isNone)) =
      some (true, 1, 4, true) := by decide +kernel
  obtain ⟨final, reached, rest⟩ := Option.bind_eq_some_iff.mp evaluated
  obtain ⟨next, stepped, facts⟩ := Option.map_eq_some_iff.mp rest
  simp only [Prod.mk.injEq, decide_eq_true_eq] at facts
  obtain ⟨new, counter, group, bare⟩ := facts
  exact ⟨final, next, reached, stepped, new, counter, rfl, group, bare⟩

end TlsVpn.ClientSession

import TlsVpn.RegistryAccounts
import TlsVpn.FecCompleteness

/-!
Whether a session's decoder is awake. The handshake that creates a session says
how many connections the client means to open, and a client that says one gets a
decoder in static single-path mode for the session's whole life, however many
connections join later. A session whose first handshake announced more has a
receive actor, whose decoder no handshake puts to sleep.
-/

namespace TlsVpn.Registry

open Words XorBytes Protocol Fec Port Holdings

section Mode

structure SameMode (before after : FecDecoder) : Prop where
  size : after.k = before.k
  mask : after.fullMask = before.fullMask
  single : after.staticSingle = before.staticSingle
  cipher : after.ic = before.ic

variable {decoder : FecDecoder}

theorem SameMode.refl (decoder : FecDecoder) : SameMode decoder decoder := ⟨rfl, rfl, rfl, rfl⟩

theorem SameMode.of_setup {changed : FecDecoder} (same : changed.setup = decoder.setup) :
    SameMode decoder changed := by
  simp only [FecDecoder.setup, Prod.mk.injEq] at same
  obtain ⟨size, mask, single, cipher⟩ := same
  exact ⟨size, mask, single, cipher⟩

theorem feedActor_sameMode (frame : Frame) : SameMode decoder (frame.feedActor decoder) := by
  unfold Frame.feedActor
  split
  · rw [onControlActor_eq]
    exact .of_setup (onControl_called decoder frame.data _ _).setup
  · rw [onDataActor_eq]
    exact .of_setup (onData_called decoder frame.seq frame.data _).setup

end Mode

section Awake

def Table.announced (table : Table) : Label → Bool
  | .enter req _ =>
    (table.find req.clientId).isSome || !req.fec || decide (req.brutalConns > 1)
  | _ => true

/-- The session's group size is one the protocol has, and its decoder belongs to a
receive actor and is awake. -/
structure Awake (core : ServerCore) (session : Session) : Prop where
  sized : session.fecEncK = 0 ∨ (2 ≤ session.fecEncK ∧ session.fecEncK ≤ 64)
  actor : 0 < session.fecEncK → ∃ decoder, session.rxActor = some (some decoder) ∧
    SameMode (FecDecoder.new session.fecEncK.toNat (core.fecIc session.epochState.saltA)) decoder

variable {core : ServerCore} {session after : Session}
variable {req : HandshakeReq} {draws : Draws} (token : List Char)

section

variable (awake : Awake core session)

include awake

theorem Awake.keep (size : after.fecEncK = session.fecEncK)
    (actor : after.rxActor = session.rxActor)
    (salt : after.epochState.saltA = session.epochState.saltA) : Awake core after := by
  refine ⟨size ▸ awake.sized, ?_⟩
  rw [size, actor, salt]
  exact awake.actor

theorem Awake.feed (frame : Frame) : Awake core (session.feed frame) := by
  unfold Session.feed
  split
  · rename_i decoder there
    refine ⟨awake.sized, fun uses => ?_⟩
    obtain ⟨decoder', there', mode⟩ := awake.actor uses
    cases there.symm.trans there'
    have fed := @feedActor_sameMode decoder' frame
    exact ⟨frame.feedActor decoder', rfl, ⟨fed.size.trans mode.size, fed.mask.trans mode.mask,
      fed.single.trans mode.single, fed.cipher.trans mode.cipher⟩⟩
  · -- without an actor the session has no FEC
    exact ⟨awake.sized, awake.actor⟩

theorem Awake.rotated (instanceId : List Char) (saltA saltB : Salt) :
    Awake core (core.rotated session instanceId saltA saltB) := by
  refine ⟨awake.sized, fun uses => ?_⟩
  obtain ⟨decoder, there, _⟩ := awake.actor uses
  refine ⟨FecDecoder.new session.fecEncK.toNat (core.fecIc saltA), ?_, .refl _⟩
  have positive : session.fecEncK > 0 := uses
  simp only [ServerCore.rotated, there, Option.map_some, ServerCore.newDecoder, if_pos positive]

theorem Awake.joined {counted : Bool} (joined : Joined core session req draws after counted) :
    Awake core after := by
  cases joined with
  | refused resume pending => exact awake.keep rfl rfl rfl
  | full resume pending busy => exact awake.keep rfl rfl rfl
  | counted resume pending room => exact awake.keep rfl rfl rfl
  | tokenless resume pending turns lacks =>
    exact (awake.rotated req.clientInstance draws.saltA draws.saltB).keep rfl rfl rfl
  | rotated resume pending turns =>
    exact (awake.rotated req.clientInstance draws.saltA draws.saltB).keep rfl rfl rfl

end

section

variable (admissible : core.admissible req draws = true)

include admissible

theorem admissible_size (asks : req.fec = true) : 2 ≤ req.fecGroup ∧ req.fecGroup ≤ 64 := by
  have least := core.least
  have most := core.most
  simp only [fecMinGroup, fecMaxGroup, Nat.cast_ofNat] at least most
  simp only [ServerCore.admissible, asks, Bool.true_and, Bool.and_eq_true, Bool.not_eq_true',
    Bool.or_eq_false_iff, decide_eq_false_iff_not] at admissible
  omega

theorem create_sized :
    (core.create req draws token).fecEncK = 0 ∨
      (2 ≤ (core.create req draws token).fecEncK ∧ (core.create req draws token).fecEncK ≤ 64) := by
  cases asks : req.fec with
  | false => exact Or.inl (by simp [ServerCore.create, asks])
  | true =>
    right
    simp only [ServerCore.create, asks, if_true]
    exact admissible_size admissible asks

theorem create_awake (announced : req.fec = true → req.brutalConns > 1) :
    Awake core (core.create req draws token) := by
  refine ⟨create_sized token admissible, fun uses => ?_⟩
  have asks : req.fec = true := by
    by_contra refuses
    simp [ServerCore.create, refuses] at uses
  refine ⟨FecDecoder.new (core.create req draws token).fecEncK.toNat (core.fecIc draws.saltA), ?_,
    .refl _⟩
  have positive : (if req.fec then req.fecGroup else 0) > 0 := uses
  simp only [ServerCore.create, announced asks, decide_true, if_true, ServerCore.newDecoder,
    if_pos positive]

end

def AllAwake (core : ServerCore) (table : Table) : Prop :=
  ∀ (index : Nat) (session : Session), table.sessions[index]? = some session → Awake core session

theorem AllAwake.replace {table : Table} {index : Nat} (all : AllAwake core table)
    (awake : Awake core after) : AllAwake core (table.setSession index after) := by
  intro other found lookup
  rcases lookup_set lookup with ⟨rfl, rfl⟩ | ⟨_, before⟩
  · exact awake
  · exact all other found before

theorem moved_awake (table : Table) (label : Label) (next : Table)
    (announced : table.announced label = true) (all : AllAwake core table)
    (moved : Moved core table label next) : AllAwake core next := by
  cases moved with
  | refused req draws => exact all
  | joined req draws index session after admissible found there joined =>
    exact all.replace ((all index session there).joined joined)
  | counted req draws index session after admissible found there joined =>
    exact all.replace ((all index session there).joined joined)
  | created req draws token admissible absent =>
    intro other found lookup
    rcases lookup_concat lookup with old | ⟨_, rfl⟩
    · exact all other found old
    · -- the client has no session, so the guard is about this request
      simp only [Table.announced, absent, Option.isSome_none, Bool.false_or, Bool.or_eq_true,
        Bool.not_eq_true', decide_eq_true_eq] at announced
      apply create_awake token admissible
      intro asks
      exact announced.resolve_left (by simp [asks])
  | prepared place conn session found there stage =>
    refine all.replace ?_
    -- `set_static_single_path` reaches only a decoder outside an actor
    unfold Session.prepare
    split
    · exact all conn.session session there
    · exact (all conn.session session there).keep rfl rfl rfl
  | snapshot place conn session found there stage => exact all
  | fed place conn session frame found there =>
    exact all.replace ((all conn.session session there).feed frame)
  | departed place conn session found there stage stale => exact all
  | closing place conn session found there stage current => exact all
  | uncounted place conn session now found there stage =>
    obtain ⟨version, deadline, left⟩ := uncount_left session now
    rw [left]
    exact all.replace ((all conn.session session there).keep rfl rfl rfl)
  | ranOut index session there =>
    exact all.replace ((all index session there).keep rfl rfl rfl)
  | exhausted place conn session suffix found there stage =>
    refine all.replace ?_
    unfold Session.exhaust
    split
    · exact all conn.session session there
    · exact (all conn.session session there).keep rfl rfl rfl
  | scanned now => exact all
  | reaped index session there collected listed =>
    exact all.replace ((all index session there).keep rfl rfl rfl)
  | spared index => exact all
  | kicked clientId index session there =>
    exact all.replace ((all index session there).keep rfl rfl rfl)
  | missed clientId => exact all

theorem new_awake : AllAwake core Table.new := by
  intro index session found
  cases found

/-- No FEC_MODE control and no frame of the group at `start` has reached the
decoder. -/
structure Unreached (k start : Nat) (decoder : FecDecoder) : Prop where
  unfenced : decoder.fence.windowFrom = 0
  boundary : decoder.cleanupBefore = 0
  retired : decoder.retiredBefore = 0
  whole : AllWhole k decoder.inner.groups
  absent : decoder.inner.groups.lookup start = none
  pending : isDone decoder.inner.done start k = false

theorem SameMode.ready {k start : Nat} {ic : Option InnerCipher} {decoder : FecDecoder}
    (mode : SameMode (FecDecoder.new k ic) decoder) (atLeast : 2 ≤ k) (atMost : k ≤ 64)
    (unreached : Unreached k start decoder) : Ready k ic start decoder := by
  have plain := (@new_ready k ic start atLeast atMost).plain
  exact ⟨⟨mode.size.trans plain.size, mode.cipher.trans plain.cipher, mode.mask.trans plain.mask,
    mode.single.trans plain.multipath, unreached.unfenced, unreached.boundary, unreached.retired⟩,
    unreached.whole, unreached.absent, unreached.pending⟩

/-- If the handshakes that create sessions announce more than one connection, the
decoder of every session with FEC is awake, whatever joins later, and a group
that loses one member gets it back from the others and the parity. -/
theorem announced_session_decodes (core : ServerCore) (labels : List Label) (final : Table)
    (reached : Runs.run (Table.step core) Table.new labels = some final)
    (announced : Runs.Along (Table.step core)
      (fun table label => table.announced label = true) Table.new labels)
    (index : Nat) (session : Session) (there : final.sessions[index]? = some session)
    (uses : 0 < session.fecEncK) :
    ∃ decoder, session.receiving = some decoder ∧ decoder.staticSingle = false ∧
      decoder.k = session.fecEncK.toNat ∧
      ∀ (payloads : Payloads) (start : Nat) (record : Bytes) (inputs : List Input),
        AlignedParity decoder.k (core.fecIc session.epochState.saltA) payloads start record →
        Unreached decoder.k start decoder →
        (∀ input ∈ inputs, Ordinary decoder.k start record input) →
        Runs.Along (respondStep payloads) (Spares payloads decoder.k start) decoder inputs →
        ∀ lost, lost < decoder.k → (∀ input ∈ inputs, ¬ input.Carries (start + lost)) →
          (∀ member, member < decoder.k → member ≠ lost →
            ∃ input ∈ inputs, input.Carries (start + member)) →
          (∃ input ∈ inputs, input.Brings record) →
          ownFrames decoder.k start (respondAll payloads decoder inputs).2 =
            [(start + lost, payloads.bytes (start + lost))] := by
  have awake := Runs.invariant_along (Table.step core) _ (AllAwake core)
    (fun table label next allowed all taken =>
      moved_awake table label next allowed all (step_moved table next label taken))
    Table.new final labels reached announced new_awake index session there
  obtain ⟨decoder, actor, mode⟩ := awake.actor uses
  have sized := awake.sized
  have atLeast : 2 ≤ session.fecEncK.toNat := by omega
  have atMost : session.fecEncK.toNat ≤ 64 := by omega
  have size : decoder.k = session.fecEncK.toNat :=
    mode.size.trans (@new_ready _ (core.fecIc session.epochState.saltA) 1 atLeast atMost).plain.size
  refine ⟨decoder, by rw [Session.receiving, actor], mode.single, size, ?_⟩
  rw [size]
  intro payloads start record inputs parity unreached ordinary spared lost inside never others
    arrives
  exact (mode.ready atLeast atMost unreached).yields_missing inputs atLeast atMost parity ordinary
    spared lost inside never others arrives

def sealedCore : ServerCore := { plainCore with encrypt := true, encAlgo := 2 }

def sealedReq : HandshakeReq := { sampleReq ['o'] with encAlgo := 2, fecGroup := 3 }

def twoPaths : List Label :=
  [.enter sealedReq sampleDraws, .prepare 0, .snapshot 0,
    .enter sealedReq sampleDraws, .prepare 1, .snapshot 1]

theorem announced_session_decodes_twoPaths : ∃ final session decoder,
    Runs.run (Table.step sealedCore) Table.new twoPaths = some final ∧
      final.sessions[0]? = some session ∧ final.current 0 session = 2 ∧
      session.receiving = some decoder ∧ decoder.staticSingle = false ∧ decoder.k = 3 ∧
      ownFrames 3 4 (respondAll samplePayloads decoder interleavedInputs).2 =
        [(5, samplePayloads.bytes 5)] := by
  obtain ⟨final, session, reached, there, seen⟩ := reach_session sealedCore twoPaths
    (fun final session => (final.current 0 session, session.fecEncK, session.epochState.saltA,
      session.receiving))
    (2, 3, 0#64, some (FecDecoder.new 3 (some zeroTagCipher))) rfl
  simp only [Prod.mk.injEq] at seen
  obtain ⟨two, size, salt, fresh⟩ := seen
  obtain ⟨decoder, receiving, awake, own, yields⟩ := announced_session_decodes sealedCore twoPaths
    final reached (by decide +kernel) 0 session there (by rw [size]; decide)
  cases receiving.symm.trans fresh
  obtain ⟨never, others, arrives⟩ := interleavedInputs_arrivals
  have ready := @new_ready 3 (some zeroTagCipher) 4 (by decide) (by decide)
  refine ⟨final, session, _, reached, there, two, receiving, awake, rfl, ?_⟩
  refine yields samplePayloads 4 sampleParity interleavedInputs ?_ ?_ interleavedInputs_ordinary
    interleavedInputs_spared 1 (by decide) never others arrives
  · rw [salt]
    exact sampleParity_aligned
  · exact ⟨rfl, rfl, rfl, ready.whole, ready.absent, ready.pending⟩

def secondPath : List Label :=
  [.enter { sampleReq ['o'] with brutalConns := 1 } sampleDraws, .prepare 0, .snapshot 0] ++
    wholeHandshake ['o'] 1

theorem single_path_deaf (decoder : FecDecoder) (asleep : decoder.staticSingle = true)
    (seq : Nat) (data : Bytes) (before after : Option Nat) :
    decoder.onData seq data before = (decoder, []) ∧
      decoder.onParityStrict data before after = (decoder, .ok []) := by
  constructor
  · unfold FecDecoder.onData
    rw [if_pos (Or.inr (Or.inr asleep))]
  · unfold FecDecoder.onParityStrict
    rw [if_pos asleep]

theorem second_path_undecoded : ∃ final session decoder,
    Runs.run (Table.step plainCore) Table.new secondPath = some final ∧
      final.sessions[0]? = some session ∧ session.fecEncK = 2 ∧ final.current 0 session = 2 ∧
      session.receiving = some decoder ∧ decoder.staticSingle = true ∧
      ∀ seq data before after, decoder.onData seq data before = (decoder, []) ∧
        decoder.onParityStrict data before after = (decoder, .ok []) := by
  obtain ⟨final, session, reached, there, seen⟩ := reach_session plainCore secondPath
    (fun final session => (session.fecEncK, final.current 0 session,
      session.receiving.map FecDecoder.staticSingle)) (2, 2, some true) (by decide +kernel)
  simp only [Prod.mk.injEq] at seen
  obtain ⟨size, two, mode⟩ := seen
  obtain ⟨decoder, receiving, asleep⟩ := Option.map_eq_some_iff.mp mode
  exact ⟨final, session, decoder, reached, there, size, two, receiving, asleep,
    single_path_deaf decoder asleep⟩

end Awake

end TlsVpn.Registry

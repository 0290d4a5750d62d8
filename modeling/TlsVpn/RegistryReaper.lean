import TlsVpn.RegistryAccounts

/-!
The reaper and the deadline it goes by. A scan collects the sessions that are due
and `destroy_session` removes them later, without looking again: a handshake that
revives a session in between loses it. The deadline is armed only by the close
that takes the counter to zero. A turn of the epoch also takes it to zero, and
the closes of the old connections then arm nothing.
-/

namespace TlsVpn.Registry

open Words Fec Port Holdings

section Collected

/-- No handshake meets a collected session, and no connection of it finishes
closing. -/
def Table.unrevived (core : ServerCore) (table : Table) : Label → Bool
  | .enter req draws =>
    match table.find req.clientId with
    | some index => !core.admissible req draws || !table.expired.contains index
    | none => true
  | .closeEnd conn _ =>
    match table.conns[conn]? with
    | some conn => !table.expired.contains conn.session
    | none => true
  | _ => true

structure Idle (table : Table) : Prop where
  collected : ∀ index ∈ table.expired, ∀ session, table.sessions[index]? = some session →
    session.activeConns = 0
  placed : ∀ index ∈ table.expired, index < table.sessions.length
  reaped : ∀ entry ∈ table.reaped, entry.2 = 0

variable {core : ServerCore} {table : Table} {index : Nat} {session after : Session}

theorem new_idle : Idle Table.new := by
  refine ⟨?_, ?_, ?_⟩
  · intro index member
    cases member
  · intro index member
    cases member
  · intro entry member
    cases member

theorem Idle.replace (idle : Idle table) (still : index ∈ table.expired → after.activeConns = 0) :
    Idle (table.setSession index after) := by
  refine ⟨?_, ?_, idle.reaped⟩
  · intro other member found lookup
    rcases lookup_set lookup with ⟨rfl, rfl⟩ | ⟨_, before⟩
    · exact still member
    · exact idle.collected other member found before
  · intro other member
    simpa [Table.setSession] using idle.placed other member

theorem Idle.keep (idle : Idle table) (there : table.sessions[index]? = some session)
    (same : after.activeConns = session.activeConns) : Idle (table.setSession index after) :=
  idle.replace fun member => same.trans (idle.collected index member session there)

theorem Idle.withConns (idle : Idle table) (conns : List Conn) :
    Idle { table with conns := conns } := ⟨idle.collected, idle.placed, idle.reaped⟩

theorem Idle.scan (idle : Idle table) (now : Nat) :
    Idle { table with
      expired := table.expired ++
        (table.sessions.zipIdx.filter fun entry =>
          entry.1.listed && entry.1.expired now).map Prod.snd } := by
  have due : ∀ index, index ∈ (table.sessions.zipIdx.filter fun entry =>
      entry.1.listed && entry.1.expired now).map Prod.snd →
      ∃ session, table.sessions[index]? = some session ∧ session.activeConns = 0 := by
    intro index member
    obtain ⟨⟨session, place⟩, passed, rfl⟩ := List.mem_map.mp member
    obtain ⟨present, due⟩ := List.mem_filter.mp passed
    refine ⟨session, List.mem_zipIdx_iff_getElem?.mp present, ?_⟩
    simp only [Session.expired, Bool.and_eq_true, beq_iff_eq] at due
    exact due.2.1
  refine ⟨?_, ?_, idle.reaped⟩
  · intro index member session there
    rcases List.mem_append.mp member with before | new
    · exact idle.collected index before session there
    · obtain ⟨found, lookup, zero⟩ := due index new
      cases lookup.symm.trans there
      exact zero
  · intro index member
    rcases List.mem_append.mp member with before | new
    · exact idle.placed index before
    · obtain ⟨found, lookup, _⟩ := due index new
      exact (List.getElem?_eq_some_iff.mp lookup).1

theorem moved_idle (table : Table) (label : Label) (next : Table)
    (allowed : table.unrevived core label = true) (idle : Idle table)
    (moved : Moved core table label next) : Idle next := by
  cases moved with
  | refused req draws => exact idle
  | joined req draws index session after admissible found there joined =>
    cases joined with
    | refused resume pending => exact idle.keep there rfl
    | full resume pending busy => exact idle.keep there rfl
    -- an epoch that turns leaves the counter at 0
    | tokenless resume pending turns lacks => exact idle.replace fun _ => rfl
  | counted req draws index session after admissible found there joined =>
    -- a connection counted on a collected session is what the guard forbids
    simp only [Table.unrevived, found, admissible, Bool.not_true, Bool.false_or,
      Bool.not_eq_true', List.contains_eq_mem, decide_eq_false_iff_not] at allowed
    exact (idle.replace fun member => absurd member allowed).withConns _
  | created req draws token admissible absent =>
    refine ⟨?_, ?_, idle.reaped⟩
    · intro index member session there
      have inside := idle.placed index member
      exact idle.collected index member session
        ((List.getElem?_append_left inside).symm.trans there)
    · intro index member
      have inside := idle.placed index member
      simp only [Table.addConn, List.length_append]
      omega
  | prepared place conn session found there stage =>
    obtain ⟨actor, shared, same⟩ := prepare_decoder session
    rw [same]
    have kept : Idle (table.setSession conn.session (session.withDecoder actor shared)) :=
      idle.keep there rfl
    exact kept.withConns _
  | snapshot place conn session found there stage => exact idle.withConns _
  | fed place conn session frame found there =>
    obtain ⟨actor, shared, same⟩ := feed_decoder session frame
    rw [same]
    exact idle.keep there rfl
  | departed place conn session found there stage stale => exact idle.withConns _
  | closing place conn session found there stage current => exact idle.withConns _
  | uncounted place conn session now found there stage =>
    simp only [Table.unrevived, found, Bool.not_eq_true', List.contains_eq_mem,
      decide_eq_false_iff_not] at allowed
    exact (idle.replace fun member => absurd member allowed).withConns _
  | ranOut index session there => exact idle.keep there rfl
  | exhausted place conn session suffix found there stage =>
    refine idle.replace fun member => ?_
    unfold Session.exhaust
    split
    · exact idle.collected conn.session member session there
    · rfl
  | scanned now => exact idle.scan now
  | reaped index session there collected listed =>
    have kept : Idle (table.setSession index { session with listed := false }) :=
      idle.keep there rfl
    refine ⟨fun other member => kept.collected other (List.mem_of_mem_erase member),
      fun other member => kept.placed other (List.mem_of_mem_erase member), ?_⟩
    intro entry member
    rcases List.mem_append.mp member with before | new
    · exact idle.reaped entry before
    · cases List.mem_singleton.mp new
      exact idle.collected index collected session there
  | spared index =>
    exact ⟨fun other member => idle.collected other (List.mem_of_mem_erase member),
      fun other member => idle.placed other (List.mem_of_mem_erase member), idle.reaped⟩
  | kicked clientId index session there => exact idle.keep there rfl
  | missed clientId => exact idle

/-- If nothing reaches a session between the scan that collects it and the call
that destroys it, the reaper removes only sessions with no connection counted. -/
theorem reaper_spares_counted (core : ServerCore) (labels : List Label) (final : Table)
    (reached : Runs.run (Table.step core) Table.new labels = some final)
    (unrevived : Runs.Along (Table.step core)
      (fun table label => table.unrevived core label = true) Table.new labels) :
    ∀ entry ∈ final.reaped, entry.2 = 0 :=
  (Runs.invariant_along (Table.step core) _ Idle
    (fun table label next allowed idle taken =>
      moved_idle table label next allowed idle (step_moved table next label taken))
    Table.new final labels reached unrevived new_idle).reaped

def abandonedSession : List Label :=
  wholeHandshake ['o'] 0 ++ wholeClose 0 0 ++ [.scan retention, .reap 0]

theorem reaper_spares_counted_abandoned : ∃ final,
    Runs.run (Table.step plainCore) Table.new abandonedSession = some final ∧
      final.reaped = [(0, 0)] ∧ ∀ entry ∈ final.reaped, entry.2 = 0 := by
  have evaluated : (Runs.run (Table.step plainCore) Table.new abandonedSession).map Table.reaped =
      some [(0, 0)] := by decide +kernel
  obtain ⟨final, reached, reaped⟩ := Option.map_eq_some_iff.mp evaluated
  exact ⟨final, reached, reaped,
    reaper_spares_counted plainCore abandonedSession final reached (by decide +kernel)⟩

/-- The client comes back between the scan and the call. -/
theorem revived_session_reaped : ∃ final,
    Runs.run (Table.step plainCore) Table.new
      (wholeHandshake ['o'] 0 ++ wholeClose 0 0 ++ [.scan retention] ++ wholeHandshake ['o'] 1 ++
        [.reap 0]) = some final ∧ final.reaped = [(0, 1)] := by
  have evaluated : (Runs.run (Table.step plainCore) Table.new
      (wholeHandshake ['o'] 0 ++ wholeClose 0 0 ++ [.scan retention] ++ wholeHandshake ['o'] 1 ++
        [.reap 0])).map Table.reaped = some [(0, 1)] := by decide +kernel
  exact Option.map_eq_some_iff.mp evaluated

end Collected

section Deadline

def Table.sequential (table : Table) : Label → Bool
  | .enter _ _ => table.conns.all fun conn => conn.stage.rests
  | .closeBegin _ => table.conns.all fun conn => conn.stage.rests
  | .exhaust _ _ => table.conns.all fun conn => conn.stage.rests
  | _ => true

def Session.armed (session : Session) : Bool :=
  match session.destroyDeadline with
  | some (_, version) => version == session.disconnectVersion
  | none => false

/-- An epoch turns without a connection to count, by exhaustion or for want of a
token, only while the deadline is armed; and its counter has room. -/
def Table.covered (core : ServerCore) (table : Table) : Label → Bool
  | .enter req draws =>
    match table.locate req.clientId with
    | some (_, session) =>
      !session.turns core req draws ||
        (decide (session.epochState.epoch < u64Max) &&
          (!session.lacksToken req draws || session.armed))
    | none => true
  | .exhaust conn _ =>
    match table.owner conn with
    | some (_, session) =>
      session.marked || (decide (session.epochState.epoch < u64Max) && session.armed)
    | none => true
  | _ => true

def Armed (table : Table) : Prop :=
  ∀ (index : Nat) (session : Session), table.sessions[index]? = some session →
    session.listed = true → session.activeConns = 0 → session.armed = true

variable {core : ServerCore} {table : Table} {index : Nat} {session after : Session}

theorem settled_of_rests (rests : table.conns.all (fun conn => conn.stage.rests) = true)
    (index : Nat) : table.settled index = true := by
  apply List.all_eq_true.mpr
  intro conn member
  rw [List.all_eq_true.mp rests conn member, Bool.or_true]

theorem sequential_undisturbed {label : Label} (alone : table.sequential label = true)
    (covered : table.covered core label = true) : table.undisturbed core label = true := by
  cases label with
  | enter req draws =>
    have settled := settled_of_rests alone
    simp only [Table.covered, Table.undisturbed] at covered ⊢
    split
    · rename_i index session located
      rw [located] at covered
      simp only [Bool.or_eq_true, Bool.and_eq_true] at covered
      simp only [Table.mayTurn, settled index, Bool.true_and, Bool.or_eq_true]
      exact covered.imp_right And.left
    · rfl
  | exhaust conn suffix =>
    have settled := settled_of_rests alone
    simp only [Table.covered, Table.undisturbed] at covered ⊢
    split
    · rename_i conn session owned
      rw [owned] at covered
      simp only [Bool.or_eq_true, Bool.and_eq_true] at covered
      simp only [Table.mayTurn, settled conn.session, Bool.true_and, Bool.or_eq_true]
      exact covered.imp_right And.left
    · rfl
  | _ => rfl

theorem Armed.replace (armed : Armed table)
    (still : after.listed = true → after.activeConns = 0 → after.armed = true) :
    Armed (table.setSession index after) := by
  intro other found lookup
  rcases lookup_set lookup with ⟨rfl, rfl⟩ | ⟨_, before⟩
  · exact still
  · exact armed other found before

theorem Armed.keep (armed : Armed table) (there : table.sessions[index]? = some session)
    (listed : after.listed = session.listed) (count : after.activeConns = session.activeConns)
    (same : after.armed = session.armed) : Armed (table.setSession index after) := by
  apply armed.replace
  rw [listed, count, same]
  exact armed index session there

theorem uncount_armed (session : Session) (now : Nat) (small : session.activeConns ≤ 16)
    (zero : (session.uncount now).activeConns = 0) : (session.uncount now).armed = true := by
  unfold Session.uncount at zero ⊢
  dsimp only at zero ⊢
  split
  · exact beq_self_eq_true _
  · rename_i several
    rw [if_neg several] at zero
    dsimp only at zero
    rw [wrappingSub_ordered _ _ (by omega) (by unfold u32Max; omega)] at zero
    omega

theorem moved_armed (table : Table) (label : Label) (next : Table)
    (covered : table.covered core label = true) (accounted : Accounted table)
    (armed : Armed table) (moved : Moved core table label next) : Armed next := by
  cases moved with
  | refused req draws => exact armed
  | joined req draws index session after admissible found there joined =>
    cases joined with
    | refused resume pending => exact armed.keep there rfl rfl rfl
    | full resume pending busy =>
      -- the deadline is gone, but sixteen connections are counted
      refine armed.replace fun _ zero => ?_
      have count : session.activeConns = 0 := zero
      omega
    | tokenless resume pending turns lacks =>
      -- nothing is counted in the new epoch: the old deadline has to do
      simp only [Table.covered, locate_eq found there, turns, lacks, Bool.not_true,
        Bool.false_or, Bool.and_eq_true] at covered
      exact armed.replace fun _ _ => covered.2
  | counted req draws index session after admissible found there joined =>
    have positive : after.activeConns ≠ 0 := by
      cases joined with
      | counted resume pending room =>
        rw [wrappingAdd_one_small _ (by unfold u32Max; omega)]
        exact Nat.succ_ne_zero _
      | rotated resume pending turns =>
        rw [wrappingAdd_one_small 0 (by decide)]
        exact Nat.succ_ne_zero 0
    exact armed.replace fun _ zero => absurd zero positive
  | created req draws token admissible absent =>
    intro other found lookup listed zero
    rcases lookup_concat lookup with old | ⟨_, rfl⟩
    · exact armed other found old listed zero
    · -- the new session starts with its connection counted
      cases zero
  | prepared place conn session found there stage =>
    obtain ⟨actor, shared, same⟩ := prepare_decoder session
    rw [same]
    exact armed.keep there rfl rfl rfl
  | snapshot place conn session found there stage => exact armed
  | fed place conn session frame found there =>
    obtain ⟨actor, shared, same⟩ := feed_decoder session frame
    rw [same]
    exact armed.keep there rfl rfl rfl
  | departed place conn session found there stage stale => exact armed
  | closing place conn session found there stage current => exact armed
  | uncounted place conn session now found there stage =>
    have small := accounted.small conn.session session there
    exact armed.replace fun _ zero => uncount_armed session now small zero
  | ranOut index session there => exact armed.keep there rfl rfl rfl
  | exhausted place conn session suffix found there stage =>
    simp only [Table.covered, owner_eq found there, Bool.or_eq_true, Bool.and_eq_true] at covered
    unfold Session.exhaust
    split
    · exact armed.keep there rfl rfl rfl
    · rename_i fresh
      exact armed.replace fun _ _ => (covered.resolve_left fresh).2
  | scanned now => exact armed
  | reaped index session there collected listed =>
    -- a session the table has lost needs no deadline
    exact armed.replace fun listed => absurd listed Bool.false_ne_true
  | spared index => exact armed
  | kicked clientId index session there =>
    exact armed.replace fun listed => absurd listed Bool.false_ne_true
  | missed clientId => exact armed

theorem new_armed : Armed Table.new := by
  intro index session found
  cases found

/-- With operations one after another, and no epoch turned without a connection
to count unless the deadline is armed, a session in the table with no open
connection is due at a deadline, and the reaper's scan takes it from then on. -/
theorem deserted_session_due (core : ServerCore) (labels : List Label) (final : Table)
    (reached : Runs.run (Table.step core) Table.new labels = some final)
    (guarded : Runs.Along (Table.step core)
      (fun table label => table.sequential label = true ∧ table.covered core label = true)
      Table.new labels)
    (index : Nat) (session : Session) (there : final.sessions[index]? = some session)
    (listed : session.listed = true)
    (deserted : ∀ conn ∈ final.conns, conn.session = index → conn.stage = .closed) :
    ∃ deadline, session.destroyDeadline = some (deadline, session.disconnectVersion) ∧
      ∀ now, deadline ≤ now → session.expired now = true := by
  obtain ⟨accounted, armed⟩ := Runs.invariant_along (Table.step core) _
    (fun table => Accounted table ∧ Armed table)
    (fun table label next allowed kept taken =>
      have moved := step_moved table next label taken
      ⟨moved_accounted table label next (sequential_undisturbed allowed.1 allowed.2) kept.1 moved,
        moved_armed table label next allowed.2 kept.1 kept.2 moved⟩)
    Table.new final labels reached guarded ⟨new_accounted, new_armed⟩
  have zero : session.activeConns = 0 := by
    rw [accounted.exact index session there, List.countP_eq_zero]
    intro conn member
    by_cases own : conn.session = index
    · have gone := deserted conn member own
      subst own
      simp [counts_own, gone]
    · simp [counts_other own]
  have due := armed index session there listed zero
  cases set : session.destroyDeadline with
  | none => simp [Session.armed, set] at due
  | some entry =>
    obtain ⟨deadline, version⟩ := entry
    simp only [Session.armed, set, beq_iff_eq] at due
    refine ⟨deadline, by rw [due], ?_⟩
    intro now past
    simp [Session.expired, zero, set, due, past]

def returningClient : List Label :=
  wholeHandshake ['o'] 0 ++ wholeClose 0 0 ++ wholeHandshake ['n'] 1 ++ wholeClose 1 7

theorem deserted_session_due_returning : ∃ final session,
    Runs.run (Table.step plainCore) Table.new returningClient = some final ∧
      final.sessions[0]? = some session ∧ session.epochState.epoch = 2 ∧
      ∃ deadline, session.destroyDeadline = some (deadline, session.disconnectVersion) ∧
        ∀ now, deadline ≤ now → session.expired now = true := by
  obtain ⟨final, session, reached, there, seen⟩ := reach_session plainCore returningClient
    (fun final session => (session.epochState.epoch, session.listed,
      final.conns.map fun conn => (conn.session, conn.stage)))
    (2, true, [(0, .closed), (0, .closed)]) (by decide +kernel)
  simp only [Prod.mk.injEq] at seen
  obtain ⟨epoch, listed, stages⟩ := seen
  refine ⟨final, session, reached, there, epoch, ?_⟩
  apply deserted_session_due plainCore returningClient final reached (by decide +kernel) 0 session
    there listed
  intro conn member _
  have held : (conn.session, conn.stage) ∈ [(0, Stage.closed), (0, Stage.closed)] := by
    rw [← stages]
    exact List.mem_map_of_mem member
  simp only [List.mem_cons, Prod.mk.injEq, List.not_mem_nil, or_false, or_self] at held
  exact held.2

def exhaustedSession : List Label :=
  wholeHandshake ['o'] 0 ++ [.runOut 0, .exhaust 0 ['x'], .closeBegin 0]

def tokenlessRotation : List Label :=
  wholeHandshake ['o'] 0 ++
    [.enter (sampleReq ['n']) { sampleDraws with token := none }, .closeBegin 0]

def Leaks (labels : List Label) : Prop :=
  ∃ final session, Runs.run (Table.step plainCore) Table.new labels = some final ∧
    Runs.Along (Table.step plainCore) (fun table label => table.sequential label = true)
      Table.new labels ∧
    final.sessions[0]? = some session ∧ session.listed = true ∧
    final.conns.map (fun conn => (conn.session, conn.stage)) = [(0, .closed)] ∧
    session.destroyDeadline = none

theorem deserted_session_leaks : Leaks exhaustedSession ∧ Leaks tokenlessRotation := by
  constructor
  · obtain ⟨final, session, reached, there, seen⟩ := reach_session plainCore exhaustedSession
      (fun final session => (session.listed,
        final.conns.map (fun conn => (conn.session, conn.stage)), session.destroyDeadline))
      (true, [(0, .closed)], none) (by decide +kernel)
    simp only [Prod.mk.injEq] at seen
    exact ⟨final, session, reached, by decide +kernel, there, seen⟩
  · obtain ⟨final, session, reached, there, seen⟩ := reach_session plainCore tokenlessRotation
      (fun final session => (session.listed,
        final.conns.map (fun conn => (conn.session, conn.stage)), session.destroyDeadline))
      (true, [(0, .closed)], none) (by decide +kernel)
    simp only [Prod.mk.injEq] at seen
    exact ⟨final, session, reached, by decide +kernel, there, seen⟩

end Deadline

end TlsVpn.Registry

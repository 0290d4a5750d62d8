import TlsVpn.Places
import TlsVpn.Registry

/-!
`active_conns` against the connections it stands for. A handshake counts its
connection in the section under the table's lock and reads the epoch it belongs
to in a later step; closing compares epochs in one step and decrements in the
next; a rotation or an exhaustion in between sets the counter to zero. As long as
epochs turn only while no connection of the session is between two such steps,
the counter is exact and is never taken below zero.
-/

namespace TlsVpn.Registry

open Words Fec Port Holdings Places

section Counting

/-- A connection that `active_conns` stands for while its session is at `epoch`:
counted but without an epoch yet, up in that epoch, or about to be uncounted. -/
def Conn.counts (index epoch : Nat) (conn : Conn) : Bool :=
  conn.session == index &&
    match conn.stage with
    | .counted => true
    | .prepared => true
    | .up => conn.sessionEpoch == epoch
    | .closing => true
    | .closed => false

def Stage.rests (stage : Stage) : Bool := stage == .up || stage == .closed

def Table.settled (table : Table) (index : Nat) : Bool :=
  table.conns.all fun conn => conn.session != index || conn.stage.rests

def Table.mayTurn (table : Table) (index : Nat) (session : Session) : Bool :=
  table.settled index && decide (session.epochState.epoch < u64Max)

def Table.locate (table : Table) (clientId : List Char) : Option (Nat × Session) :=
  (table.find clientId).bind fun index =>
    (table.sessions[index]?).map fun session => (index, session)

def Table.owner (table : Table) (index : Nat) : Option (Conn × Session) :=
  (table.conns[index]?).bind fun conn =>
    (table.sessions[conn.session]?).map fun session => (conn, session)

def Session.marked (session : Session) : Bool :=
  exhaustedMark.isPrefixOf session.epochState.instanceId

/-- Rotations and exhaustions wait for the steps in progress. -/
def Table.undisturbed (core : ServerCore) (table : Table) : Label → Bool
  | .enter req draws =>
    match table.locate req.clientId with
    | some (index, session) => !session.turns core req draws || table.mayTurn index session
    | none => true
  | .exhaust conn _ =>
    match table.owner conn with
    | some (conn, session) => session.marked || table.mayTurn conn.session session
    | none => true
  | _ => true

variable {conn : Conn} {epoch : Nat}

theorem counts_own :
    conn.counts conn.session epoch = match conn.stage with
      | .counted => true
      | .prepared => true
      | .up => conn.sessionEpoch == epoch
      | .closing => true
      | .closed => false := by
  unfold Conn.counts
  rw [beq_self_eq_true, Bool.true_and]

theorem counts_other {index : Nat} (other : conn.session ≠ index) :
    conn.counts index epoch = false := by
  unfold Conn.counts
  rw [beq_eq_false_iff_ne.mpr other, Bool.false_and]

end Counting

section Invariant

structure Accounted (table : Table) : Prop where
  exact : ∀ (index : Nat) (session : Session), table.sessions[index]? = some session →
    session.activeConns = table.conns.countP (Conn.counts index session.epochState.epoch)
  small : ∀ (index : Nat) (session : Session), table.sessions[index]? = some session →
    session.activeConns ≤ 16
  within : ∀ conn ∈ table.conns, ∀ session, table.sessions[conn.session]? = some session →
    conn.sessionEpoch ≤ session.epochState.epoch
  placed : ∀ conn ∈ table.conns, conn.session < table.sessions.length

variable {table : Table} {index : Nat} {session after : Session}

theorem new_accounted : Accounted Table.new := by
  refine ⟨?_, ?_, ?_, ?_⟩
  · intro index session found
    cases found
  · intro index session found
    cases found
  · intro conn member
    cases member
  · intro conn member
    cases member

variable {conn : Conn} {place : Nat}

section

variable (accounted : Accounted table)

include accounted

section

variable (there : table.sessions[index]? = some session)

include there

theorem Accounted.replace
    (exact : after.activeConns = table.conns.countP (Conn.counts index after.epochState.epoch))
    (small : after.activeConns ≤ 16) (later : session.epochState.epoch ≤ after.epochState.epoch) :
    Accounted (table.setSession index after) := by
  refine ⟨?_, ?_, ?_, ?_⟩
  · intro other found lookup
    rcases lookup_set lookup with ⟨rfl, rfl⟩ | ⟨_, before⟩
    · exact exact
    · exact accounted.exact other found before
  · intro other found lookup
    rcases lookup_set lookup with ⟨rfl, rfl⟩ | ⟨_, before⟩
    · exact small
    · exact accounted.small other found before
  · intro conn member found lookup
    rcases lookup_set lookup with ⟨same, rfl⟩ | ⟨_, before⟩
    · have atMost := accounted.within conn member session (by rw [same]; exact there)
      exact Nat.le_trans atMost later
    · exact accounted.within conn member found before
  · intro conn member
    simpa [Table.setSession] using accounted.placed conn member

theorem Accounted.keep (sameCount : after.activeConns = session.activeConns)
    (sameEpoch : after.epochState.epoch = session.epochState.epoch) :
    Accounted (table.setSession index after) := by
  apply accounted.replace there
  · rw [sameCount, sameEpoch]
    exact accounted.exact index session there
  · rw [sameCount]
    exact accounted.small index session there
  · rw [sameEpoch]

theorem Accounted.turn (may : table.mayTurn index session = true) (none : after.activeConns = 0)
    (next : after.epochState.epoch = saturatingAdd session.epochState.epoch 1) :
    Accounted (table.setSession index after) := by
  simp only [Table.mayTurn, Bool.and_eq_true, decide_eq_true_eq] at may
  obtain ⟨settled, room⟩ := may
  have later : after.epochState.epoch = session.epochState.epoch + 1 := by
    rw [next]
    unfold saturatingAdd
    omega
  apply accounted.replace there
  · rw [none, eq_comm, List.countP_eq_zero]
    intro conn member
    by_cases own : conn.session = index
    · have rests := List.all_eq_true.mp settled conn member
      have old := accounted.within conn member session (by rw [own]; exact there)
      subst own
      rw [counts_own]
      cases stage : conn.stage with
      | counted => simp [stage, Stage.rests] at rests
      | prepared => simp [stage, Stage.rests] at rests
      | up => simp; omega
      | closing => simp [stage, Stage.rests] at rests
      | closed => simp
    · simp [counts_other own]
  · omega
  · omega

end

theorem Accounted.moveConn {changed : Conn} (found : table.conns[place]? = some conn)
    (there : table.sessions[conn.session]? = some session) (same : changed.session = conn.session)
    (epoch : changed.sessionEpoch ≤ session.epochState.epoch)
    (counts : changed.counts conn.session session.epochState.epoch =
      conn.counts conn.session session.epochState.epoch) :
    Accounted (table.setConn place changed) := by
  refine ⟨?_, accounted.small, ?_, ?_⟩
  · intro index other lookup
    rw [accounted.exact index other lookup]
    have moved := countP_set_add (Conn.counts index other.epochState.epoch) table.conns place conn
      changed found
    have equal : changed.counts index other.epochState.epoch =
        conn.counts index other.epochState.epoch := by
      by_cases own : conn.session = index
      · subst own
        cases there.symm.trans lookup
        exact counts
      · rw [counts_other own, counts_other (same ▸ own)]
    rw [equal] at moved
    exact (Nat.add_right_cancel moved).symm
  · refine forall_mem_set accounted.within place changed fun other lookup => ?_
    rw [same] at lookup
    cases there.symm.trans lookup
    exact epoch
  · refine forall_mem_set accounted.placed place changed ?_
    rw [same]
    exact (List.getElem?_eq_some_iff.mp there).1

theorem Accounted.addConn (there : table.sessions[index]? = some session)
    (room : session.activeConns < 16) (more : after.activeConns = wrappingAdd session.activeConns 1)
    (sameEpoch : after.epochState.epoch = session.epochState.epoch) :
    Accounted ((table.setSession index after).addConn index) := by
  have inside := (List.getElem?_eq_some_iff.mp there).1
  have one : after.activeConns = session.activeConns + 1 := by
    rw [more, wrappingAdd_one_small _ (by unfold u32Max; omega)]
  refine ⟨?_, ?_, ?_, ?_⟩
  · intro other found lookup
    simp only [Table.addConn, Table.setSession, List.countP_append, List.countP_singleton]
    rcases lookup_set lookup with ⟨rfl, rfl⟩ | ⟨apart, before⟩
    · rw [one, sameEpoch, accounted.exact other session there]
      simp [Conn.counts]
    · rw [accounted.exact other found before, counts_other (Ne.symm apart)]
      simp
  · intro other found lookup
    rcases lookup_set lookup with ⟨rfl, rfl⟩ | ⟨_, before⟩
    · omega
    · exact accounted.small other found before
  · intro conn member found lookup
    rcases List.mem_append.mp member with before | new
    · rcases lookup_set lookup with ⟨same, rfl⟩ | ⟨_, kept⟩
      · rw [sameEpoch]
        exact accounted.within conn before session (by rw [same]; exact there)
      · exact accounted.within conn before found kept
    · cases List.mem_singleton.mp new
      exact Nat.zero_le _
  · intro conn member
    simp only [Table.addConn, Table.setSession, List.length_set]
    rcases List.mem_append.mp member with before | new
    · exact accounted.placed conn before
    · cases List.mem_singleton.mp new
      exact inside

theorem Accounted.turnAddConn (there : table.sessions[index]? = some session)
    (may : table.mayTurn index session = true) (one : after.activeConns = wrappingAdd 0 1)
    (next : after.epochState.epoch = saturatingAdd session.epochState.epoch 1) :
    Accounted ((table.setSession index after).addConn index) := by
  have inside := (List.getElem?_eq_some_iff.mp there).1
  -- the rotation first, with nobody counted, and then the connection
  have between : Accounted (table.setSession index { after with activeConns := 0 }) :=
    accounted.turn there may rfl next
  have again : Accounted (((table.setSession index { after with activeConns := 0 }).setSession index
      after).addConn index) :=
    between.addConn (List.getElem?_set_self inside) (Nat.zero_lt_succ 15) one rfl
  simpa only [Table.setSession, List.set_set] using again

theorem Accounted.uncount (now : Nat) (found : table.conns[place]? = some conn)
    (there : table.sessions[conn.session]? = some session) (stage : conn.stage = .closing) :
    Accounted ((table.setSession conn.session (session.uncount now)).setConn place
      { conn with stage := .closed }) := by
  have counted : conn.counts conn.session session.epochState.epoch = true := by
    rw [counts_own, stage]
  -- this connection is one of those the counter stands for, so it does not wrap
  have positive : 0 < session.activeConns := by
    rw [accounted.exact conn.session session there]
    exact List.countP_pos_iff.mpr ⟨conn, List.mem_of_getElem? found, counted⟩
  have small := accounted.small conn.session session there
  obtain ⟨version, deadline, left⟩ := uncount_left session now
  have fewer : (session.uncount now).activeConns = session.activeConns - 1 := by
    rw [left]
    exact wrappingSub_ordered session.activeConns 1 positive (by unfold u32Max; omega)
  have sameEpoch : (session.uncount now).epochState = session.epochState := by rw [left]
  have gone : ∀ index epoch, ({ conn with stage := .closed } : Conn).counts index epoch = false :=
    fun _ _ => Bool.and_false _
  refine ⟨?_, ?_, ?_, ?_⟩
  · intro other found' lookup
    have moved := countP_set_add (Conn.counts other found'.epochState.epoch) table.conns place conn
      { conn with stage := .closed } found
    rw [gone, if_neg Bool.false_ne_true] at moved
    rcases lookup_set lookup with ⟨rfl, rfl⟩ | ⟨apart, before⟩
    · rw [sameEpoch] at moved ⊢
      rw [counted, if_pos rfl, ← accounted.exact conn.session session there] at moved
      rw [fewer]
      exact (Nat.eq_sub_of_add_eq moved).symm
    · rw [counts_other (Ne.symm apart), if_neg Bool.false_ne_true] at moved
      exact (accounted.exact other found' before).trans moved.symm
  · intro other found' lookup
    rcases lookup_set lookup with ⟨rfl, rfl⟩ | ⟨_, before⟩
    · omega
    · exact accounted.small other found' before
  · intro other member found' lookup
    have kept : ∀ known ∈ table.conns, known.session = other.session →
        known.sessionEpoch ≤ found'.epochState.epoch := by
      intro known present same
      rcases lookup_set lookup with ⟨own, rfl⟩ | ⟨_, before⟩
      · rw [sameEpoch]
        exact accounted.within known present session (by rw [same, own]; exact there)
      · exact accounted.within known present found' (by rw [same]; exact before)
    rcases List.mem_or_eq_of_mem_set member with before | rfl
    · exact kept other before rfl
    · exact kept conn (List.mem_of_getElem? found) rfl
  · simp only [Table.setConn, Table.setSession, List.length_set]
    exact forall_mem_set accounted.placed _ _ (accounted.placed conn (List.mem_of_getElem? found))

theorem Accounted.create (one : session.activeConns = 1) :
    Accounted ({ table with sessions := table.sessions ++ [session] }.addConn
      table.sessions.length) := by
  have shape : ∀ (other : Nat) (found : Session), (table.sessions ++ [session])[other]? = some found →
      table.sessions[other]? = some found ∨ (other = table.sessions.length ∧ found = session) := by
    intro other found lookup
    by_cases old : other < table.sessions.length
    · rw [List.getElem?_append_left old] at lookup
      exact Or.inl lookup
    · have bound := (List.getElem?_eq_some_iff.mp lookup).1
      rw [List.length_append, List.length_singleton] at bound
      have last : other = table.sessions.length := by omega
      subst last
      rw [List.getElem?_concat_length] at lookup
      cases lookup
      exact Or.inr ⟨rfl, rfl⟩
  refine ⟨?_, ?_, ?_, ?_⟩
  · intro other found lookup
    simp only [Table.addConn, List.countP_append, List.countP_singleton]
    rcases shape other found lookup with before | ⟨rfl, rfl⟩
    · have inside := (List.getElem?_eq_some_iff.mp before).1
      rw [accounted.exact other found before, counts_other (by dsimp only; omega)]
      simp
    · -- no earlier connection points past the sessions there were
      have none : table.conns.countP (Conn.counts table.sessions.length found.epochState.epoch) = 0 := by
        rw [List.countP_eq_zero]
        intro conn member
        have inside := accounted.placed conn member
        simp [counts_other (Nat.ne_of_lt inside)]
      rw [none, one]
      simp [Conn.counts]
  · intro other found lookup
    rcases shape other found lookup with before | ⟨rfl, rfl⟩
    · exact accounted.small other found before
    · omega
  · intro conn member found lookup
    rcases List.mem_append.mp member with before | new
    · have inside := accounted.placed conn before
      rcases shape conn.session found lookup with kept | ⟨last, _⟩
      · exact accounted.within conn before found kept
      · omega
    · cases List.mem_singleton.mp new
      exact Nat.zero_le _
  · intro conn member
    simp only [Table.addConn, List.length_append, List.length_singleton]
    rcases List.mem_append.mp member with before | new
    · exact Nat.lt_succ_of_lt (accounted.placed conn before)
    · cases List.mem_singleton.mp new
      exact Nat.lt_succ_self _

end

end Invariant

section Steps

variable {core : ServerCore}
variable {table : Table} {index : Nat} {session : Session}

theorem locate_eq {clientId : List Char} (found : table.find clientId = some index)
    (there : table.sessions[index]? = some session) :
    table.locate clientId = some (index, session) := by
  simp only [Table.locate, found, Option.bind_some, there, Option.map_some]

theorem owner_eq {place : Nat} {conn : Conn} (found : table.conns[place]? = some conn)
    (there : table.sessions[conn.session]? = some session) :
    table.owner place = some (conn, session) := by
  simp only [Table.owner, found, Option.bind_some, there, Option.map_some]

theorem undisturbed_turn {req : HandshakeReq} {draws : Draws}
    (allowed : table.undisturbed core (.enter req draws) = true)
    (found : table.find req.clientId = some index) (there : table.sessions[index]? = some session)
    (turns : session.turns core req draws = true) : table.mayTurn index session = true := by
  simp only [Table.undisturbed, locate_eq found there, turns, Bool.not_true, Bool.false_or] at allowed
  exact allowed

theorem moved_accounted (table : Table) (label : Label) (next : Table)
    (allowed : table.undisturbed core label = true) (accounted : Accounted table)
    (moved : Moved core table label next) : Accounted next := by
  cases moved with
  | refused req draws => exact accounted
  | joined req draws index session after admissible found there joined =>
    cases joined with
    | refused resume pending => exact accounted.keep there rfl rfl
    | full resume pending busy => exact accounted.keep there rfl rfl
    | tokenless resume pending turns lacks =>
      exact accounted.turn there (undisturbed_turn allowed found there turns) rfl rfl
  | counted req draws index session after admissible found there joined =>
    cases joined with
    | counted resume pending room => exact accounted.addConn there room rfl rfl
    | rotated resume pending turns =>
      exact accounted.turnAddConn there (undisturbed_turn allowed found there turns) rfl rfl
  | created req draws token admissible absent => exact accounted.create rfl
  | prepared place conn session found there stage =>
    obtain ⟨actor, shared, same⟩ := prepare_decoder session
    rw [same]
    have kept : Accounted (table.setSession conn.session (session.withDecoder actor shared)) :=
      accounted.keep there rfl rfl
    have inside := (List.getElem?_eq_some_iff.mp there).1
    refine kept.moveConn found (List.getElem?_set_self inside) rfl ?_ ?_
    · exact accounted.within conn (List.mem_of_getElem? found) session there
    · rw [counts_own, stage]
      exact counts_own
  | snapshot place conn session found there stage =>
    refine accounted.moveConn found there rfl (Nat.le_refl _) ?_
    rw [counts_own, stage]
    exact counts_own.trans (beq_self_eq_true _)
  | fed place conn session frame found there =>
    obtain ⟨actor, shared, same⟩ := feed_decoder session frame
    rw [same]
    exact accounted.keep there rfl rfl
  | departed place conn session found there stage stale =>
    refine accounted.moveConn found there rfl
      (accounted.within conn (List.mem_of_getElem? found) session there) ?_
    rw [counts_own, stage]
    exact counts_own.trans (beq_eq_false_iff_ne.mpr (Ne.symm stale)).symm
  | closing place conn session found there stage current =>
    refine accounted.moveConn found there rfl
      (accounted.within conn (List.mem_of_getElem? found) session there) ?_
    rw [counts_own, stage]
    exact counts_own.trans (beq_iff_eq.mpr current.symm).symm
  | uncounted place conn session now found there stage =>
    exact accounted.uncount now found there stage
  | ranOut index session there => exact accounted.keep there rfl rfl
  | exhausted place conn session suffix found there stage =>
    simp only [Table.undisturbed, owner_eq found there, Bool.or_eq_true] at allowed
    unfold Session.exhaust
    split
    · exact accounted.keep there rfl rfl
    · rename_i fresh
      exact accounted.turn there (allowed.resolve_left fresh) rfl rfl
  | scanned now => exact ⟨accounted.exact, accounted.small, accounted.within, accounted.placed⟩
  | reaped index session there collected listed =>
    have kept : Accounted (table.setSession index { session with listed := false }) :=
      accounted.keep there rfl rfl
    exact ⟨kept.exact, kept.small, kept.within, kept.placed⟩
  | spared index => exact ⟨accounted.exact, accounted.small, accounted.within, accounted.placed⟩
  | kicked clientId index session there => exact accounted.keep there rfl rfl
  | missed clientId => exact accounted

theorem run_accounted (labels : List Label) (final : Table)
    (reached : Runs.run (Table.step core) Table.new labels = some final)
    (undisturbed : Runs.Along (Table.step core)
      (fun table label => table.undisturbed core label = true) Table.new labels) :
    Accounted final :=
  Runs.invariant_along (Table.step core) _ Accounted
    (fun table label next allowed accounted taken =>
      moved_accounted table label next allowed accounted (step_moved table next label taken))
    Table.new final labels reached undisturbed new_accounted

end Steps

section Results

def Table.current (table : Table) (index : Nat) (session : Session) : Nat :=
  table.conns.countP fun conn =>
    conn.session == index && conn.stage == .up && conn.sessionEpoch == session.epochState.epoch

theorem counts_settled {table : Table} {index epoch : Nat} {conn : Conn}
    (settled : table.settled index = true) (member : conn ∈ table.conns) :
    conn.counts index epoch =
      (conn.session == index && conn.stage == .up && conn.sessionEpoch == epoch) := by
  by_cases own : conn.session = index
  · have rests := List.all_eq_true.mp settled conn member
    subst own
    rw [counts_own]
    cases stage : conn.stage with
    | counted => simp [stage, Stage.rests] at rests
    | prepared => simp [stage, Stage.rests] at rests
    | up => simp
    | closing => simp [stage, Stage.rests] at rests
    | closed => simp
  · rw [counts_other own, beq_eq_false_iff_ne.mpr own]
    rfl

/-- If epochs turn only on settled sessions, the counter is exact whenever the
session is settled, and whoever is about to decrement it finds it positive. -/
theorem active_conns_exact (core : ServerCore) (labels : List Label) (final : Table)
    (reached : Runs.run (Table.step core) Table.new labels = some final)
    (undisturbed : Runs.Along (Table.step core)
      (fun table label => table.undisturbed core label = true) Table.new labels)
    (index : Nat) (session : Session) (there : final.sessions[index]? = some session) :
    (final.settled index = true → session.activeConns = final.current index session) ∧
      ∀ conn ∈ final.conns, conn.session = index → conn.stage = .closing →
        0 < session.activeConns := by
  have accounted := run_accounted labels final reached undisturbed
  rw [accounted.exact index session there]
  constructor
  · intro settled
    exact List.countP_congr fun conn member => by rw [counts_settled settled member]
  · intro conn member own closing
    apply List.countP_pos_iff.mpr
    subst own
    exact ⟨conn, member, by rw [counts_own, closing]⟩

def plainCore : ServerCore where
  encrypt := false
  encAlgo := 0
  maxSessions := 0
  fecGroupMin := 2
  fecGroupMax := 64
  least := by decide
  most := by decide
  fecCipher := fun _ => zeroTagCipher

def sampleToken : List Char := List.replicate 64 'a'

def sampleReq (clientInstance : List Char) : HandshakeReq where
  clientId := ['c']
  mac := ['m']
  clientInstance := clientInstance
  encAlgo := 0
  fec := true
  fecGroup := 2
  brutalConns := 2
  sessionToken := sampleToken

def sampleDraws : Draws where
  authentic := true
  addresses := true
  cipher := true
  token := some (List.replicate 64 'b')
  sessionId := ['s']
  saltA := 0#64
  saltB := 1#64

def wholeHandshake (clientInstance : List Char) (conn : Nat) : List Label :=
  [.enter (sampleReq clientInstance) sampleDraws, .prepare conn, .snapshot conn]

def wholeClose (conn now : Nat) : List Label := [.closeBegin conn, .closeEnd conn now]

def restartedClient : List Label :=
  wholeHandshake ['o'] 0 ++ wholeHandshake ['n'] 1 ++ wholeHandshake ['n'] 2 ++ wholeClose 1 0

theorem reach_session (core : ServerCore) (labels : List Label) {View : Type}
    (view : Table → Session → View) (value : View)
    (evaluated : (Runs.run (Table.step core) Table.new labels).bind (fun final =>
      (final.sessions[0]?).map (view final)) = some value) :
    ∃ final session, Runs.run (Table.step core) Table.new labels = some final ∧
      final.sessions[0]? = some session ∧ view final session = value := by
  obtain ⟨final, reached, found⟩ := Option.bind_eq_some_iff.mp evaluated
  obtain ⟨session, there, seen⟩ := Option.map_eq_some_iff.mp found
  exact ⟨final, session, reached, there, seen⟩

theorem active_conns_exact_restarted : ∃ final session,
    Runs.run (Table.step plainCore) Table.new restartedClient = some final ∧
      final.sessions[0]? = some session ∧ session.activeConns = 1 ∧
      session.activeConns = final.current 0 session := by
  obtain ⟨final, session, reached, there, seen⟩ := reach_session plainCore
    restartedClient (fun final session => (session.activeConns, final.settled 0)) (1, true)
    (by decide +kernel)
  obtain ⟨one, settled⟩ := Prod.mk.injEq .. ▸ seen
  exact ⟨final, session, reached, there, one,
    (active_conns_exact plainCore restartedClient final reached (by decide +kernel) 0 session
      there).1 settled⟩

def overtakenHandshake : List Label :=
  wholeHandshake ['o'] 0 ++
    [.enter (sampleReq ['o']) sampleDraws, .enter (sampleReq ['n']) sampleDraws,
      .prepare 1, .snapshot 1, .prepare 2, .snapshot 2]

/-- The rotation erased the first one's count and the snapshot took the new
epoch: two connections, a counter of one, and the second close takes it below
zero. -/
theorem overtaken_count_wraps :
    (∃ final session, Runs.run (Table.step plainCore) Table.new overtakenHandshake = some final ∧
      final.sessions[0]? = some session ∧ final.settled 0 = true ∧
      session.activeConns = 1 ∧ final.current 0 session = 2) ∧
    ∃ final session,
      Runs.run (Table.step plainCore) Table.new
        (overtakenHandshake ++ wholeClose 1 0 ++ wholeClose 2 0) = some final ∧
      final.sessions[0]? = some session ∧ final.settled 0 = true ∧
      session.activeConns = 4294967295 := by
  constructor
  · obtain ⟨final, session, reached, there, seen⟩ := reach_session plainCore
      overtakenHandshake
      (fun final session => (final.settled 0, session.activeConns, final.current 0 session))
      (true, 1, 2) (by decide +kernel)
    simp only [Prod.mk.injEq] at seen
    exact ⟨final, session, reached, there, seen⟩
  · obtain ⟨final, session, reached, there, seen⟩ := reach_session plainCore
      (overtakenHandshake ++ wholeClose 1 0 ++ wholeClose 2 0)
      (fun final session => (final.settled 0, session.activeConns)) (true, 4294967295)
      (by decide +kernel)
    simp only [Prod.mk.injEq] at seen
    exact ⟨final, session, reached, there, seen⟩

end Results

end TlsVpn.Registry

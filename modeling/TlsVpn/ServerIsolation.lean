import TlsVpn.ServerSession

/-!
Epoch isolation on the server's shared receive path. A frame's epoch is compared
under the lock and the frame is stored after its release, so a rotation in between
lets it into the next epoch's stores. As long as the epoch is raised only while no
frame is between its check and the stores, every frame is stored in its own epoch.
-/

namespace TlsVpn.Server

open Words XorBytes Fec Reorder Port

/-- The epoch is raised only while every frame that passed an epoch check has
been stored. -/
def RaisesDrained (session : Session) : Label → Prop
  | .advance =>
    match session.rotation with
    | some rotation => rotation.phase = .portReset →
        ∀ conn ∈ session.conns, conn.inbox.drained = true
    | none => True
  | .exhaust _ =>
    exhaustedMark.isPrefixOf session.epochState.instanceId = false →
      ∀ conn ∈ session.conns, conn.inbox.drained = true
  | _ => True

instance decidableRaisesDrained (session : Session) :
    ∀ label, Decidable (RaisesDrained session label)
  | .advance => by
    dsimp only [RaisesDrained]
    exact match session.rotation with
      | some rotation => inferInstance
      | none => inferInstance
  | .exhaust suffix => by
    dsimp only [RaisesDrained]
    exact inferInstance
  | .write _ | .singlePath | .join | .register _ _ | .flushBegin _ | .flushPop _ | .flushEnd _ _
  | .receive _ _ _ | .handle _ _ _ | .feed _ _ | .place _ _ _ _ | .timeout _ | .close _
  | .rotate _ _ _ => .isTrue trivial

structure Isolated (session : Session) : Prop where
  checked : ∀ conn ∈ session.conns, conn.inbox.drained = true ∨
    conn.sessionEpoch = session.epochState.epoch
  stored : ∀ entry ∈ session.inserted, entry.sessionEpoch = entry.connEpoch

variable {config : Config} {session next : Session}

section

variable {inbox : Inbox} (drained : inbox.drained = true)

include drained

theorem drained_checked : inbox.checked = none := by
  unfold Inbox.drained at drained
  simp only [Bool.and_eq_true, Option.isNone_iff_eq_none] at drained
  exact drained.1.1

theorem drained_fecData : inbox.fecData = [] := by
  unfold Inbox.drained at drained
  simp only [Bool.and_eq_true, List.isEmpty_iff] at drained
  exact drained.1.2

theorem drained_reorderInput : inbox.reorderInput = [] := by
  unfold Inbox.drained at drained
  simp only [Bool.and_eq_true, List.isEmpty_iff] at drained
  exact drained.2

end

section Steps

section

variable (isolated : Isolated session)

include isolated

/-- A step that replaces one connection and keeps the epoch: nothing new is on its
way unless the connection is in the session's epoch. -/
theorem Isolated.settle {after : Session} (index : Nat) (new : Conn)
    (conns : after.conns = session.conns.set index new)
    (epoch : after.epochState = session.epochState)
    (fresh : new.inbox.drained = true ∨ new.sessionEpoch = session.epochState.epoch)
    (logged : ∀ entry ∈ after.inserted, entry.sessionEpoch = entry.connEpoch) : Isolated after := by
  refine ⟨?_, logged⟩
  rw [conns, epoch]
  exact Holdings.forall_mem_set isolated.checked index new fresh

theorem Isolated.setConn (index : Nat) (new : Conn)
    (fresh : new.inbox.drained = true ∨ new.sessionEpoch = session.epochState.epoch) :
    Isolated (session.setConn index new) :=
  isolated.settle index new rfl rfl fresh isolated.stored

theorem Isolated.logged (conn : Conn) (store : Store)
    (current : conn.sessionEpoch = session.epochState.epoch) :
    ∀ entry ∈ session.log conn store, entry.sessionEpoch = entry.connEpoch := by
  exact Holdings.forall_mem_concat isolated.stored current.symm

section

variable {index : Nat} {conn : Conn} (found : session.conns[index]? = some conn)

include found

theorem Isolated.current (busy : ¬ conn.inbox.drained = true) :
    conn.sessionEpoch = session.epochState.epoch :=
  (isolated.checked conn (List.mem_of_getElem? found)).resolve_left busy

theorem Isolated.waiting {checked : Checked} (waiting : conn.inbox.checked = some checked) :
    conn.sessionEpoch = session.epochState.epoch := by
  apply isolated.current found
  intro drained
  rw [drained_checked drained] at waiting
  cases waiting

end

section

variable (index : Nat) (conn : Conn)

include index conn

theorem receive_isolated (seq : Nat) (data : Bytes) (found : session.conns[index]? = some conn) :
    Isolated (session.receive index conn seq data) := by
  unfold Session.receive
  split
  · exact isolated.setConn index _ (isolated.checked conn (List.mem_of_getElem? found))
  · rename_i same
    exact isolated.setConn index _ (Or.inr (not_not.mp same))

theorem handleControl_isolated (checked : Checked) (progress : Option Nat)
    (current : conn.sessionEpoch = session.epochState.epoch) :
    Isolated (session.handleControl index conn checked progress) := by
  unfold Session.handleControl
  split
  · exact isolated.setConn index _ (Or.inr current)
  · split
    · exact isolated.setConn index _ (Or.inr current)
    · dsimp only
      split
      · exact isolated.settle index _ rfl rfl (Or.inr current)
          (isolated.logged conn .fec current)
      · exact isolated.settle index _ rfl rfl (Or.inr current)
          (isolated.logged conn .fec current)

theorem handleData_isolated (checked : Checked) (single : Bool)
    (current : conn.sessionEpoch = session.epochState.epoch) :
    Isolated (session.handleData config index conn checked single) := by
  unfold Session.handleData
  dsimp only
  split
  · exact isolated.setConn index _ (Or.inr current)
  · exact isolated.settle index _ rfl rfl (Or.inr current)
      (isolated.logged conn .dedup current)

theorem feed_isolated (progress : Option Nat) (found : session.conns[index]? = some conn) :
    Isolated (session.feed index conn progress) := by
  have before := isolated.checked conn (List.mem_of_getElem? found)
  -- an inbox that was drained stays so: there is nothing to decode
  have emptied : Inbox.drained { conn.inbox with fecData := [], fed := true } = true ∨
      conn.sessionEpoch = session.epochState.epoch := by
    rcases before with drained | current
    · left
      unfold Inbox.drained
      rw [drained_checked drained, drained_reorderInput drained]
      rfl
    · exact Or.inr current
  unfold Session.feed
  dsimp only
  split
  · split
    · exact isolated.setConn index _ emptied
    · rename_i some
      have current := before.resolve_left fun drained => some (drained_fecData drained)
      exact isolated.settle index _ rfl rfl (Or.inr current)
        (isolated.logged conn .fec current)
  · exact isolated.setConn index _ emptied

theorem place_isolated (clock : Nat → Nat) (single last : Bool)
    (found : session.conns[index]? = some conn) :
    Isolated (session.place config index conn clock single last) := by
  have before := isolated.checked conn (List.mem_of_getElem? found)
  unfold Session.place
  dsimp only
  split
  · refine isolated.setConn index _ ?_
    rcases before with drained | current
    · left
      unfold Inbox.drained
      rw [drained_checked drained, drained_fecData drained]
      rfl
    · exact Or.inr current
  · rename_i some
    have current := before.resolve_left fun drained => some (drained_reorderInput drained)
    exact isolated.settle index _ rfl rfl (Or.inr current)
      (isolated.logged conn .reorder current)

end

theorem Isolated.transmit {after : Session} (index : Nat) (conn new : Conn)
    (found : session.conns[index]? = some conn) (conns : after.conns = session.conns.set index new)
    (epoch : after.epochState = session.epochState) (inserted : after.inserted = session.inserted)
    (inbox : new.inbox = conn.inbox) (same : new.sessionEpoch = conn.sessionEpoch) :
    Isolated after := by
  refine isolated.settle index new conns epoch ?_ (inserted ▸ isolated.stored)
  rw [inbox, same]
  exact isolated.checked conn (List.mem_of_getElem? found)

theorem advance_isolated (rotation : Rotation)
    (drained : rotation.phase = .portReset → ∀ conn ∈ session.conns, conn.inbox.drained = true) :
    Isolated (session.advance config rotation) := by
  cases phase : rotation.phase with
  | portReset =>
    simp only [Session.advance, phase]
    exact ⟨fun conn present => Or.inl (drained phase conn present), isolated.stored⟩
  | _ =>
    simp only [Session.advance, phase]
    exact ⟨isolated.checked, isolated.stored⟩

theorem exhaust_isolated (suffix : List Char)
    (drained : exhaustedMark.isPrefixOf session.epochState.instanceId = false →
      ∀ conn ∈ session.conns, conn.inbox.drained = true) : Isolated (session.exhaust suffix) := by
  unfold Session.exhaust
  split
  · exact isolated
  · rename_i unmarked
    exact ⟨fun conn present => Or.inl (drained (Bool.eq_false_iff.mpr unmarked) conn present),
      isolated.stored⟩

end

theorem step_isolated (label : Label) (raises : RaisesDrained session label)
    (isolated : Isolated session) (taken : session.step config label = some next) :
    Isolated next := by
  cases step_stepped label taken with
  | wrote label port stepped => exact ⟨isolated.checked, isolated.stored⟩
  | marked place => exact ⟨isolated.checked, isolated.stored⟩
  | joined free =>
    exact ⟨Holdings.forall_mem_concat isolated.checked (Or.inl rfl), isolated.stored⟩
  | registered index maxBatchFrames conn port found stepped =>
    exact isolated.transmit index conn _ found rfl rfl rfl rfl rfl
  | began index conn found free =>
    unfold Session.flushBegin
    split
    · exact isolated.transmit index conn _ found rfl rfl rfl rfl rfl
    · exact isolated.transmit index conn _ found rfl rfl rfl rfl rfl
  | popped index conn flush target backend next found running mine there popped =>
    simp only [Session.flushPop] at popped
    split at popped
    · cases popped
    · split at popped
      · cases popped
      · cases popped
        exact isolated.transmit index conn _ found rfl rfl rfl rfl rfl
  | ended index failed conn flush backend next found ended =>
    simp only [Session.flushEnd] at ended
    split at ended
    · cases ended
      exact isolated.transmit index conn _ found rfl rfl rfl rfl rfl
    · cases ended
  | received index seq data conn found =>
    exact receive_isolated isolated index conn seq data found
  | control index single progress conn checked found waiting =>
    exact handleControl_isolated isolated index conn checked progress
      (isolated.waiting found waiting)
  | data index single progress conn checked found waiting =>
    exact handleData_isolated isolated index conn checked single (isolated.waiting found waiting)
  | fed index progress conn found => exact feed_isolated isolated index conn progress found
  | placed index clock single last conn found =>
    exact place_isolated isolated index conn clock single last found
  | expired now => exact ⟨isolated.checked, isolated.stored⟩
  | dropped index conn found => exact isolated.transmit index conn _ found rfl rfl rfl rfl rfl
  | closed index conn target port found stepped =>
    exact isolated.transmit index conn _ found rfl rfl rfl rfl rfl
  | exhausted suffix => exact exhaust_isolated isolated suffix raises
  | rotated instanceId saltA saltB fresh => exact ⟨isolated.checked, isolated.stored⟩
  | advanced rotation writing =>
    exact advance_isolated isolated rotation
      (by simpa only [RaisesDrained, writing] using raises)

end Steps

section Runs

/-- In every run that raises the epoch only while no frame is between its epoch
check and the stores, every frame is stored while the session is still in the
epoch of the connection it came on. -/
theorem stored_in_own_epoch (config : Config) (instanceId : List Char) (saltA saltB : Salt)
    (labels : List Label) (final : Session)
    (reached : Runs.run (Session.step config) (Session.new config instanceId saltA saltB) labels =
      some final)
    (raises : Runs.Along (Session.step config) RaisesDrained
      (Session.new config instanceId saltA saltB) labels) :
    ∀ entry ∈ final.inserted, entry.sessionEpoch = entry.connEpoch :=
  (Runs.invariant_along (Session.step config) RaisesDrained Isolated
    (fun _ label _ guard before taken => step_isolated label guard before taken) _ final
    labels reached raises ⟨nofun, nofun⟩).stored

def plainConfig : Config := ⟨false, 0, true, fun _ => zeroTagCipher⟩

def rotation : List Label :=
  [.rotate ['b'] 3 4, .advance, .advance, .advance, .advance, .advance, .advance]

def storedThenRotated : List Label :=
  [.join, .register 0 8, .receive 0 5 [1], .handle 0 false none, .feed 0 none,
    .place 0 (fun _ => 0) false true] ++ rotation ++
    [.join, .register 1 8, .receive 1 1 [2], .handle 1 false none, .feed 1 none,
      .place 1 (fun _ => 0) false true]

theorem stored_in_own_epoch_rotated : ∃ final,
    Runs.run (Session.step plainConfig) (Session.new plainConfig ['a'] 1 2) storedThenRotated =
        some final ∧
      final.inserted = [⟨.dedup, 1, 1⟩, ⟨.reorder, 1, 1⟩, ⟨.dedup, 2, 2⟩, ⟨.reorder, 2, 2⟩] ∧
      ∀ entry ∈ final.inserted, entry.sessionEpoch = entry.connEpoch := by
  have evaluated : (Runs.run (Session.step plainConfig) (Session.new plainConfig ['a'] 1 2)
      storedThenRotated).map Session.inserted =
        some [⟨.dedup, 1, 1⟩, ⟨.reorder, 1, 1⟩, ⟨.dedup, 2, 2⟩, ⟨.reorder, 2, 2⟩] := by
    decide +kernel
  obtain ⟨final, reached, inserted⟩ := Option.map_eq_some_iff.mp evaluated
  exact ⟨final, reached, inserted,
    stored_in_own_epoch plainConfig ['a'] 1 2 storedThenRotated final reached (by decide +kernel)⟩

/-- The rotation comes between the check of a frame and its store: the frame
teaches the fresh reorder buffer its base, and the first frame of the new epoch
is then late. -/
def rotatedBeforeStore : List Label :=
  [.join, .register 0 8, .receive 0 5 [1], .handle 0 false none] ++ rotation ++
    [.feed 0 none, .place 0 (fun _ => 0) false true, .join, .register 1 8, .receive 1 1 [2],
      .handle 1 false none, .feed 1 none, .place 1 (fun _ => 0) false true]

theorem stale_frame_enters_next_epoch : ∃ final,
    Runs.run (Session.step plainConfig) (Session.new plainConfig ['a'] 1 2) rotatedBeforeStore =
        some final ∧
      ⟨.reorder, 1, 2⟩ ∈ final.inserted ∧ final.reorderBuf.expectedSeq = 6 ∧
      final.delivered = [(5, [1])] := by
  have evaluated : (Runs.run (Session.step plainConfig) (Session.new plainConfig ['a'] 1 2)
      rotatedBeforeStore).map (fun session =>
        (session.inserted, session.reorderBuf.expectedSeq, session.delivered)) =
          some ([⟨.dedup, 1, 1⟩, ⟨.reorder, 1, 2⟩, ⟨.dedup, 2, 2⟩, ⟨.reorder, 2, 2⟩], 6,
            [(5, [1])]) := by decide +kernel
  obtain ⟨final, reached, observed⟩ := Option.map_eq_some_iff.mp evaluated
  have inserted := congrArg Prod.fst observed
  have expected := congrArg (fun triple => triple.2.1) observed
  have delivered := congrArg (fun triple => triple.2.2) observed
  refine ⟨final, reached, ?_, expected, delivered⟩
  rw [show final.inserted = _ from inserted]
  decide

end Runs

end TlsVpn.Server

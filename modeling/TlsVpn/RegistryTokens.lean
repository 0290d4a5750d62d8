import TlsVpn.RegistryAccounts

/-!
The session token between one client and the server. The server accepts a new
client instance that presents the session's current token or the pending one; a
pending token becomes the current one when the client presents it, and a new one
is drawn for the response. Any response may be lost: the client then goes on with
the token it has, and that one is never left behind by more than one promotion.
-/

namespace TlsVpn.Registry

open Words

section Drawing

/-- `hex::encode` of a value of so many digits. -/
def hexText (digits value : Nat) : List Char :=
  (List.range digits).map fun place => Nat.digitChar (value / 16 ^ (digits - 1 - place) % 16)

/-- `new_session_token` on the 32 bytes of the random source. -/
def newSessionToken (raw : BitVec 256) : List Char := hexText 64 raw.toNat

def Draws.generating (draws : Draws) (raw : BitVec 256) : Draws :=
  { draws with token := some (newSessionToken raw) }

@[simp] theorem hexText_length (digits value : Nat) : (hexText digits value).length = digits := by
  simp [hexText]

variable {token : List Char}

theorem digitChar_hex (digit : Nat) (small : digit < 16) :
    hexToken [Nat.digitChar digit] = true := by
  interval_cases digit <;> decide

theorem hexText_hex (digits value : Nat) : hexToken (hexText digits value) = true := by
  unfold hexToken hexText
  rw [List.all_map, List.all_eq_true]
  intro place _
  have single := digitChar_hex (value / 16 ^ (digits - 1 - place) % 16) (Nat.mod_lt _ (by decide))
  simpa only [hexToken, List.all_cons, List.all_nil, Bool.and_true, Function.comp_apply] using single

theorem newSessionToken_valid (raw : BitVec 256) :
    validSessionTokenFormat (newSessionToken raw) = true := by
  simp only [validSessionTokenFormat, newSessionToken, hexText_length, hexText_hex, beq_self_eq_true,
    Bool.and_self]

theorem valid_length (valid : validSessionTokenFormat token = true) : token.length = 64 := by
  simp only [validSessionTokenFormat, Bool.and_eq_true, beq_iff_eq] at valid
  exact valid.1

theorem valid_nonempty (valid : validSessionTokenFormat token = true) : token ≠ [] := by
  rintro rfl
  cases valid_length valid

theorem firstToken_valid {req : HandshakeReq} {draws : Draws} {raw : BitVec 256}
    {first : List Char} (created : firstToken req (draws.generating raw) = some first) :
    validSessionTokenFormat first = true := by
  unfold firstToken at created
  split at created
  · rename_i shown
    cases created
    exact shown
  · cases created
    exact newSessionToken_valid raw

end Drawing

section Turning

variable {stored want : List Char} (checked : SessionEpochState)

theorem verify_eq (shown : verifyRandomSessionToken stored want = true) : stored = want := by
  simp only [verifyRandomSessionToken, Bool.and_eq_true, beq_iff_eq] at shown
  exact shown.2

theorem verify_self {token : List Char} (long : token.length = 64) :
    verifyRandomSessionToken token token = true := by
  simp [verifyRandomSessionToken, long]

theorem verify_other (other : stored ≠ want) : verifyRandomSessionToken stored want = false := by
  cases shown : verifyRandomSessionToken stored want with
  | false => rfl
  | true => exact absurd (verify_eq shown) other

theorem presentsPending_eq {state : SessionEpochState} {presented : List Char}
    (shown : presentsPending state presented = true) :
    state.pendingResumeToken = presented ∧ state.pendingResumeToken ≠ [] := by
  simp only [presentsPending, Bool.and_eq_true, Bool.not_eq_true', List.isEmpty_eq_false_iff] at shown
  exact ⟨verify_eq shown.2, shown.1⟩

/-- What a handshake makes of the two tokens of a session. The flags say whether
it turned the epoch and whether it was answered. -/
inductive Turned (state : SessionEpochState) (presented : List Char) (fresh : Option (List Char)) :
    Bool → Bool → List Char → List Char → Prop where
  | kept (rotated answered : Bool) :
      Turned state presented fresh rotated answered state.resumeToken state.pendingResumeToken
  | promoted (rotated answered : Bool) (shown : presentsPending state presented = true) :
      Turned state presented fresh rotated answered state.pendingResumeToken []
  | prepared (token : List Char) (drawn : fresh = some token)
      (none : state.pendingResumeToken = [])
      (shown : verifyRandomSessionToken state.resumeToken presented = true) :
      Turned state presented fresh true true state.resumeToken token
  | renewed (token : List Char) (drawn : fresh = some token)
      (shown : presentsPending state presented = true) :
      Turned state presented fresh true true state.pendingResumeToken token

structure Exchanged (session : Session) (req : HandshakeReq) (draws : Draws) (after : Session)
    (answered rotated : Bool) : Prop where
  tokens : Turned session.epochState req.sessionToken draws.token rotated answered
    after.epochState.resumeToken after.epochState.pendingResumeToken
  epoch : after.epochState.epoch =
    if rotated then saturatingAdd session.epochState.epoch 1 else session.epochState.epoch
  other : rotated = true → session.epochState.instanceId ≠ req.clientInstance

theorem count_epochState (session : Session) : session.count.1.epochState = session.epochState := by
  unfold Session.count
  dsimp only
  split <;> rfl

variable {core : ServerCore} {session : Session} {req : HandshakeReq} {draws : Draws}

theorem refused_exchanged : Exchanged session req draws session false false :=
  ⟨.kept false false, rfl, fun never => absurd never Bool.false_ne_true⟩

theorem rotated_exchanged
    (accepted : acceptSessionResumeToken session.epochState req.sessionToken = (checked, true))
    (other : session.epochState.instanceId ≠ req.clientInstance) :
    let rotated := core.rotated { session with epochState := checked } req.clientInstance draws.saltA
      draws.saltB
    match ensurePendingResumeToken rotated.epochState draws.token with
    | none => Exchanged session req draws rotated false true
    | some pending =>
      Exchanged session req draws { rotated with epochState := pending }.count.1
        { rotated with epochState := pending }.count.2 true := by
  intro rotated
  -- right after a rotation nothing is counted, so the limit is not reached
  unfold acceptSessionResumeToken at accepted
  unfold ensurePendingResumeToken
  split at accepted
  · rename_i known
    cases accepted
    have waiting : rotated.epochState.pendingResumeToken = session.epochState.pendingResumeToken := rfl
    rw [waiting]
    by_cases empty : session.epochState.pendingResumeToken.isEmpty = true
    · rw [if_pos empty]
      cases drawn : draws.token with
      | none => exact ⟨.kept true false, rfl, fun _ => other⟩
      | some token =>
        exact ⟨.prepared token drawn (List.isEmpty_iff.mp empty) known, rfl, fun _ => other⟩
    · rw [if_neg empty]
      exact ⟨.kept true true, rfl, fun _ => other⟩
  · split at accepted
    · rename_i shown
      cases accepted
      rw [if_pos (show (rotated.epochState.pendingResumeToken.isEmpty) = true from rfl)]
      cases drawn : draws.token with
      | none => exact ⟨.promoted true false shown, rfl, fun _ => other⟩
      | some token => exact ⟨.renewed token drawn shown, rfl, fun _ => other⟩
    · cases accepted

theorem unrotated_exchanged {after : Session} (answered : Bool) (checked : SessionEpochState)
    (shown : checked = session.epochState ∨
      presentsPending session.epochState req.sessionToken = true ∧
        checked = session.epochState.promote)
    (left : after.epochState = checked) : Exchanged session req draws after answered false := by
  rcases shown with rfl | ⟨shown, rfl⟩
  · refine ⟨?_, by rw [left]; rfl, fun never => absurd never Bool.false_ne_true⟩
    rw [left]
    exact .kept false answered
  · refine ⟨?_, by rw [left]; rfl, fun never => absurd never Bool.false_ne_true⟩
    rw [left]
    exact .promoted false answered shown

theorem accept_checked (state : SessionEpochState) (presented : List Char) :
    (acceptSessionResumeToken state presented).1 = state ∨
      presentsPending state presented = true ∧
        (acceptSessionResumeToken state presented).1 = state.promote := by
  unfold acceptSessionResumeToken
  split
  · exact Or.inl rfl
  · split
    · rename_i shown
      exact Or.inr ⟨shown, rfl⟩
    · exact Or.inl rfl

theorem join_exchanged : ∃ rotated, Exchanged session req draws (session.join core req draws).1
    (session.join core req draws).2 rotated := by
  unfold Session.join
  split
  · exact ⟨false, refused_exchanged⟩
  split
  · exact ⟨false, refused_exchanged⟩
  split
  · rename_i other
    dsimp only
    have checked := accept_checked session.epochState req.sessionToken
    split
    · exact ⟨false, unrotated_exchanged false _ checked rfl⟩
    · rename_i valid
      unfold rotateSessionEpoch
      by_cases broken : (core.encrypt && !draws.cipher) = true
      · rw [if_pos broken]
        exact ⟨false, unrotated_exchanged false _ checked rfl⟩
      · rw [if_neg broken]
        have accepted : acceptSessionResumeToken session.epochState req.sessionToken =
            ((acceptSessionResumeToken session.epochState req.sessionToken).1, true) :=
          Prod.ext rfl (by simpa using valid)
        have left := @rotated_exchanged _ core session req draws accepted other
        refine ⟨true, ?_⟩
        dsimp only at left ⊢
        generalize ensurePendingResumeToken (core.rotated _ _ _ _).epochState draws.token =
          pending at left ⊢
        cases pending with
        | none => exact left
        | some pending => exact left
  · refine ⟨false, unrotated_exchanged _ _ ?_ (count_epochState _)⟩
    dsimp only
    split
    · rename_i shown
      exact Or.inr ⟨shown, rfl⟩
    · exact Or.inl rfl

end Turning

section Rollover

structure Rollover where
  session : Session
  /-- The client's `session_token`, in memory. -/
  token : List Char

/-- A handshake presents the client's token, whatever the request says, and its
response is processed or lost. Connections close and the server runs out of
numbers in between. -/
inductive Rollover.Label where
  | request (req : HandshakeReq) (raw : BitVec 256) (draws : Draws) (processed : Bool)
  | close (now : Nat)
  | exhaust (suffix : List Char)

def Rollover.Label.fresh : Rollover.Label → Option (List Char)
  | .request _ raw _ _ => some (newSessionToken raw)
  | .close _ => none
  | .exhaust _ => none

def Rollover.step (core : ServerCore) (state : Rollover) : Rollover.Label → Rollover
  | .request req raw draws processed =>
    let shown := { req with sessionToken := state.token }
    let drawn := draws.generating raw
    if core.admissible shown drawn then
      let joined := state.session.join core shown drawn
      ⟨joined.1, if joined.2 && processed then (core.response joined.1).sessionToken
        else state.token⟩
    else state
  | .close now => { state with session := state.session.uncount now }
  | .exhaust suffix => { state with session := state.session.exhaust suffix }

def Rollover.start (core : ServerCore) (req : HandshakeReq) (draws : Draws) (first : List Char) :
    Rollover :=
  ⟨core.create req draws first, (core.response (core.create req draws first)).sessionToken⟩

def Rollover.run (core : ServerCore) (state : Rollover) (labels : List Rollover.Label) : Rollover :=
  labels.foldl (Rollover.step core) state

def Rollover.drawn (labels : List Rollover.Label) : List (List Char) :=
  labels.filterMap Rollover.Label.fresh

inductive Rollover.Moved (state : Rollover) : Rollover.Label → Rollover → Prop where
  | quiet (label : Rollover.Label) (after : Session)
      (resume : after.epochState.resumeToken = state.session.epochState.resumeToken)
      (pending : after.epochState.pendingResumeToken = state.session.epochState.pendingResumeToken) :
      Moved state label ⟨after, state.token⟩
  | turned (req : HandshakeReq) (raw : BitVec 256) (draws : Draws) (processed rotated answered : Bool)
      (after : Session) (token : List Char)
      (tokens : Turned state.session.epochState state.token (some (newSessionToken raw)) rotated
        answered after.epochState.resumeToken after.epochState.pendingResumeToken)
      (client : token = state.token ∨ token = responseResumeToken after.epochState) :
      Moved state (.request req raw draws processed) ⟨after, token⟩

theorem Rollover.step_moved (core : ServerCore) (state : Rollover) (label : Rollover.Label) :
    Rollover.Moved state label (state.step core label) := by
  cases label with
  | request req raw draws processed =>
    unfold Rollover.step
    dsimp only
    split
    · obtain ⟨rotated, exchanged⟩ := @join_exchanged core state.session
        { req with sessionToken := state.token } (draws.generating raw)
      refine .turned req raw draws processed rotated _ _ _ exchanged.tokens ?_
      split
      · exact Or.inr rfl
      · exact Or.inl rfl
    · exact .quiet _ state.session rfl rfl
  | close now =>
    obtain ⟨version, deadline, left⟩ := uncount_left state.session now
    simp only [Rollover.step, left]
    exact .quiet _ _ rfl rfl
  | exhaust suffix =>
    simp only [Rollover.step, Session.exhaust]
    split
    · exact .quiet _ state.session rfl rfl
    · exact .quiet _ _ rfl rfl

/-- The client holds one of the session's tokens; neither is among those still to
be drawn. -/
structure Held (coming : List (List Char)) (resume pending token : List Char) : Prop where
  client : token = resume ∨ token = pending ∧ pending ≠ []
  long : resume.length = 64
  longPending : pending ≠ [] → pending.length = 64
  apart : resume ≠ pending
  unseen : resume ∉ coming
  unseenPending : pending ≠ [] → pending ∉ coming

structure Retired (coming : List (List Char)) (resume pending old : List Char) : Prop where
  long : old.length = 64
  resume : old ≠ resume
  pending : old ≠ pending
  unseen : old ∉ coming

variable {state : SessionEpochState} {resume pending token old fresh : List Char}
  {coming : List (List Char)} {rotated answered : Bool}

theorem long_nonempty (long : token.length = 64) : token ≠ [] := by
  rintro rfl
  cases long

theorem Turned.held (turned : Turned state token (some fresh) rotated answered resume pending)
    (held : Held (fresh :: coming) state.resumeToken state.pendingResumeToken token)
    (long : fresh.length = 64) (once : fresh ∉ coming) : Held coming resume pending token := by
  have unseen : state.resumeToken ≠ fresh ∧ state.resumeToken ∉ coming := by
    simpa using held.unseen
  cases turned with
  | kept =>
    refine ⟨held.client, held.long, held.longPending, held.apart, unseen.2, ?_⟩
    intro waits member
    exact held.unseenPending waits (List.mem_cons_of_mem fresh member)
  | promoted _ _ shown =>
    obtain ⟨same, waits⟩ := presentsPending_eq shown
    refine ⟨Or.inl same.symm, held.longPending waits, fun never => absurd rfl never, waits, ?_,
      fun never => absurd rfl never⟩
    intro member
    exact held.unseenPending waits (List.mem_cons_of_mem fresh member)
  | prepared _ drawn _ shown =>
    cases drawn
    exact ⟨Or.inl (verify_eq shown).symm, held.long, fun _ => long, unseen.1, unseen.2, fun _ => once⟩
  | renewed _ drawn shown =>
    obtain rfl : fresh = pending := Option.some.inj drawn
    obtain ⟨same, waits⟩ := presentsPending_eq shown
    have other : state.pendingResumeToken ≠ fresh ∧ state.pendingResumeToken ∉ coming := by
      simpa using held.unseenPending waits
    exact ⟨Or.inl same.symm, held.longPending waits, fun _ => long, other.1, other.2, fun _ => once⟩

theorem Held.responded {after : SessionEpochState}
    (held : Held coming after.resumeToken after.pendingResumeToken token) :
    Held coming after.resumeToken after.pendingResumeToken (responseResumeToken after) := by
  refine ⟨?_, held.long, held.longPending, held.apart, held.unseen, held.unseenPending⟩
  unfold responseResumeToken
  split
  · exact Or.inl rfl
  · rename_i waits
    exact Or.inr ⟨rfl, fun empty => waits (by rw [empty]; rfl)⟩

section

variable (turned : Turned state token (some fresh) rotated answered resume pending)

include turned

theorem Turned.retired
    (retired : Retired (fresh :: coming) state.resumeToken state.pendingResumeToken old) :
    Retired coming resume pending old := by
  have unseen : old ≠ fresh ∧ old ∉ coming := by simpa using retired.unseen
  cases turned with
  | kept => exact ⟨retired.long, retired.resume, retired.pending, unseen.2⟩
  | promoted => exact ⟨retired.long, retired.pending, long_nonempty retired.long, unseen.2⟩
  | prepared _ drawn =>
    cases drawn
    exact ⟨retired.long, retired.resume, unseen.1, unseen.2⟩
  | renewed _ drawn =>
    cases drawn
    exact ⟨retired.long, retired.pending, unseen.1, unseen.2⟩

section

variable (held : Held (fresh :: coming) state.resumeToken state.pendingResumeToken token)

include held

theorem Turned.replaces (promotes : resume = state.pendingResumeToken) :
    Retired coming resume pending state.resumeToken := by
  have unseen : state.resumeToken ≠ fresh ∧ state.resumeToken ∉ coming := by
    simpa using held.unseen
  cases turned with
  | kept => exact absurd promotes held.apart
  | promoted => exact ⟨held.long, held.apart, long_nonempty held.long, unseen.2⟩
  | prepared => exact absurd promotes held.apart
  | renewed _ drawn =>
    cases drawn
    exact ⟨held.long, held.apart, unseen.1, unseen.2⟩

theorem Turned.succeeds :
    resume = state.resumeToken ∨ Retired coming resume pending state.resumeToken := by
  have replaced := @Turned.replaces _ _ _ _ _ _ _ _ turned held
  cases turned with
  | kept => exact Or.inl rfl
  | promoted => exact Or.inr (replaced rfl)
  | prepared => exact Or.inl rfl
  | renewed => exact Or.inr (replaced rfl)

end

end

end Rollover

section Runs

variable {core : ServerCore}

def Rollover.resume (state : Rollover) : List Char := state.session.epochState.resumeToken

def Rollover.pending (state : Rollover) : List Char := state.session.epochState.pendingResumeToken

def Rollover.Past (coming : List (List Char)) (old : List Char) (state : Rollover) : Prop :=
  state.resume = old ∨ Retired coming state.resume state.pending old

variable (labels : List Rollover.Label) (label : Rollover.Label) (state : Rollover)
  (coming : List (List Char))

theorem drawn_cons (rest : List Rollover.Label) :
    Rollover.drawn (label :: rest) = label.fresh.toList ++ Rollover.drawn rest := by
  unfold Rollover.drawn
  cases label <;> rfl

theorem step_held (label : Rollover.Label) (coming : List (List Char))
    (once : (label.fresh.toList ++ coming).Nodup)
    (held : Held (label.fresh.toList ++ coming) state.resume state.pending state.token) :
    Held coming (state.step core label).resume (state.step core label).pending
      (state.step core label).token := by
  have moved := state.step_moved core label
  generalize state.step core label = next at moved ⊢
  cases moved with
  | quiet _ after resume pending =>
    simp only [Rollover.resume, Rollover.pending, resume, pending]
    refine ⟨held.client, held.long, held.longPending, held.apart, ?_, ?_⟩
    · intro member
      exact held.unseen (List.mem_append_right _ member)
    · intro waits member
      exact held.unseenPending waits (List.mem_append_right _ member)
  | turned req raw draws processed rotated answered after token tokens client =>
    have kept := tokens.held held (hexText_length 64 raw.toNat) (List.nodup_cons.mp once).1
    rcases client with rfl | rfl
    · exact kept
    · exact kept.responded

theorem step_retired (label : Rollover.Label) (coming : List (List Char)) (old : List Char)
    (retired : Retired (label.fresh.toList ++ coming) state.resume state.pending old) :
    Retired coming (state.step core label).resume (state.step core label).pending old := by
  have moved := state.step_moved core label
  generalize state.step core label = next at moved ⊢
  cases moved with
  | quiet _ after resume pending =>
    simp only [Rollover.resume, Rollover.pending, resume, pending]
    refine ⟨retired.long, retired.resume, retired.pending, ?_⟩
    intro member
    exact retired.unseen (List.mem_append_right _ member)
  | turned req raw draws processed rotated answered after token tokens client =>
    exact tokens.retired retired

theorem step_past (label : Rollover.Label) (coming : List (List Char)) (old : List Char)
    (held : Held (label.fresh.toList ++ coming) state.resume state.pending state.token)
    (past : Rollover.Past (label.fresh.toList ++ coming) old state) :
    Rollover.Past coming old (state.step core label) := by
  rcases past with rfl | retired
  · have moved := state.step_moved core label
    generalize state.step core label = next at moved ⊢
    cases moved with
    | quiet _ after resume pending => exact Or.inl resume
    | turned req raw draws processed rotated answered after token tokens client =>
      exact tokens.succeeds held
  · exact Or.inr (step_retired state label coming old retired)

/-- The run lemma: what the client holds, and what became of the tokens that were
current at its start. -/
theorem run_held (state : Rollover) (once : (Rollover.drawn labels ++ coming).Nodup)
    (held : Held (Rollover.drawn labels ++ coming) state.resume state.pending state.token) :
    Held coming (state.run core labels).resume (state.run core labels).pending
      (state.run core labels).token := by
  induction labels generalizing state with
  | nil => exact held
  | cons label rest ih =>
    rw [drawn_cons, List.append_assoc] at once held
    exact ih (state.step core label) (List.nodup_append.mp once).2.1
      (step_held state label _ once held)

theorem run_past (state : Rollover) (old : List Char)
    (once : (Rollover.drawn labels ++ coming).Nodup)
    (held : Held (Rollover.drawn labels ++ coming) state.resume state.pending state.token)
    (past : Rollover.Past (Rollover.drawn labels ++ coming) old state) :
    Rollover.Past coming old (state.run core labels) := by
  induction labels generalizing state with
  | nil => exact past
  | cons label rest ih =>
    rw [drawn_cons, List.append_assoc] at once held past
    exact ih (state.step core label) (List.nodup_append.mp once).2.1
      (step_held state label _ once held) (step_past state label _ old held past)

theorem run_retired (state : Rollover) (old : List Char)
    (retired : Retired (Rollover.drawn labels ++ coming) state.resume state.pending old) :
    Retired coming (state.run core labels).resume (state.run core labels).pending old := by
  induction labels generalizing state with
  | nil => exact retired
  | cons label rest ih =>
    rw [drawn_cons, List.append_assoc] at retired
    exact ih (state.step core label) (step_retired state label _ old retired)

theorem promotion_retires (label : Rollover.Label) (coming : List (List Char)) (old : List Char)
    (held : Held (label.fresh.toList ++ coming) state.resume state.pending state.token)
    (past : Rollover.Past (label.fresh.toList ++ coming) old state)
    (promotes : (state.step core label).resume = state.pending) :
    Retired coming (state.step core label).resume (state.step core label).pending old := by
  rcases past with rfl | retired
  · have moved := state.step_moved core label
    generalize state.step core label = next at moved promotes ⊢
    cases moved with
    | quiet _ after resume pending => exact absurd (resume.symm.trans promotes) held.apart
    | turned req raw draws processed rotated answered after token tokens client =>
      exact tokens.replaces held promotes
  · exact step_retired state label coming old retired

theorem retired_refused (session : Session) (coming : List (List Char)) (old : List Char)
    (retired : Retired coming session.epochState.resumeToken
      session.epochState.pendingResumeToken old)
    (req : HandshakeReq) (draws : Draws) (presents : req.sessionToken = old)
    (new : req.clientInstance ≠ session.epochState.instanceId) :
    session.join core req draws = (session, false) := by
  have unknown : verifyRandomSessionToken session.epochState.resumeToken req.sessionToken = false :=
    verify_other fun same => retired.resume (presents.symm.trans same.symm)
  have unpromised : presentsPending session.epochState req.sessionToken = false := by
    cases shown : presentsPending session.epochState req.sessionToken with
    | false => rfl
    | true =>
      exact absurd (presents.symm.trans (presentsPending_eq shown).1.symm) retired.pending
  have rejected : acceptSessionResumeToken session.epochState req.sessionToken =
      (session.epochState, false) := by
    simp only [acceptSessionResumeToken, unknown, unpromised, Bool.false_eq_true, if_false]
  unfold Session.join
  split
  · rfl
  split
  · rfl
  rw [if_pos new.symm]
  simp only [rejected, Bool.not_false, if_true]

theorem accept_known {state : SessionEpochState} {token : List Char}
    (known : token = state.resumeToken ∨
      token = state.pendingResumeToken ∧ state.pendingResumeToken ≠ [])
    (long : state.resumeToken.length = 64)
    (longPending : state.pendingResumeToken ≠ [] → state.pendingResumeToken.length = 64) :
    (acceptSessionResumeToken state token).2 = true := by
  unfold acceptSessionResumeToken
  rcases known with rfl | ⟨rfl, waits⟩
  · rw [if_pos (verify_self long)]
  · split
    · rfl
    · have shown : presentsPending state state.pendingResumeToken = true := by
        simp only [presentsPending, verify_self (longPending waits), Bool.and_true,
          Bool.not_eq_true', List.isEmpty_eq_false_iff]
        exact waits
      rw [if_pos shown]

theorem start_held (req : HandshakeReq) (draws : Draws) (first : List Char)
    (coming : List (List Char)) (valid : validSessionTokenFormat first = true)
    (unseen : first ∉ coming) :
    Held coming (Rollover.start core req draws first).resume
      (Rollover.start core req draws first).pending (Rollover.start core req draws first).token :=
  ⟨Or.inl rfl, valid_length valid, fun never => absurd rfl never, valid_nonempty valid, unseen,
    fun never => absurd rfl never⟩

/-- From a session whose creation the client knows of, over any handshakes of that
client, with the responses lost or processed one by one: the client's token is the
current or the pending one and is accepted for a new instance; and once a pending
token was promoted, whatever was the current token at or before that moment is
refused for a new instance, whoever presents it. -/
theorem rollover_never_locks_out (core : ServerCore) (req : HandshakeReq) (draws : Draws)
    (raw : BitVec 256) (first : List Char)
    (created : firstToken req (draws.generating raw) = some first)
    (labels : List Rollover.Label) (distinct : (first :: Rollover.drawn labels).Nodup) :
    let start := Rollover.start core req (draws.generating raw) first
    let final := start.run core labels
    ((final.token = final.resume ∨ final.token = final.pending ∧ final.pending ≠ []) ∧
      (acceptSessionResumeToken final.session.epochState final.token).2 = true) ∧
    ∀ (earlier between later : List Rollover.Label) (label : Rollover.Label),
      labels = earlier ++ between ++ label :: later →
      let before := start.run core (earlier ++ between)
      before.pending ≠ [] → (before.step core label).resume = before.pending →
      ∀ (other : HandshakeReq) (drawn : Draws),
        other.sessionToken = (start.run core earlier).resume →
        other.clientInstance ≠ final.session.epochState.instanceId →
        final.session.join core other drawn = (final.session, false) := by
  intro start final
  obtain ⟨unseen, once⟩ := List.nodup_cons.mp distinct
  have held : Held (Rollover.drawn labels) start.resume start.pending start.token :=
    start_held req (draws.generating raw) first _ (firstToken_valid created) unseen
  have ending : Held [] final.resume final.pending final.token := by
    apply run_held labels [] start
    · rwa [List.append_nil]
    · rwa [List.append_nil]
  refine ⟨⟨ending.client, accept_known ending.client ending.long ending.longPending⟩, ?_⟩
  intro earlier between later label split before _ promotes other drawn presents new
  have parts : Rollover.drawn labels = Rollover.drawn earlier ++ (Rollover.drawn between ++
      (label.fresh.toList ++ Rollover.drawn later)) := by
    rw [split, ← drawn_cons]
    simp only [Rollover.drawn, List.filterMap_append, List.append_assoc]
  rw [parts] at once held
  -- the token is current after `earlier`, still that or retired at the promotion
  have heldEarlier := @run_held core earlier _ start once held
  have onceBetween := (List.nodup_append.mp once).2.1
  have heldBefore := @run_held core between _ _ onceBetween heldEarlier
  have past := @run_past core between _ _ (start.run core earlier).resume onceBetween
    heldEarlier (Or.inl rfl)
  have onward : before = (start.run core earlier).run core between := List.foldl_append
  rw [← onward] at heldBefore past
  have gone := promotion_retires before label _ _ heldBefore past promotes
  have stays := @run_retired core later [] (before.step core label) _
    (by rwa [List.append_nil])
  have reached : final = (before.step core label).run core later := by
    simp only [final, before, split, Rollover.run, List.foldl_append, List.foldl_cons]
  rw [← reached] at stays
  exact retired_refused final.session [] _ stays other drawn presents new

def rolledOver : List Rollover.Label :=
  [.request (sampleReq ['n']) 1 sampleDraws false, .request (sampleReq ['o']) 2 sampleDraws true,
    .close 0, .request (sampleReq ['o']) 3 sampleDraws true,
    .request (sampleReq ['p']) 4 sampleDraws false]

theorem rollover_never_locks_out_rolledOver :
    let start := Rollover.start plainCore (sampleReq ['m']) (sampleDraws.generating 0) sampleToken
    let final := start.run plainCore rolledOver
    (acceptSessionResumeToken final.session.epochState final.token).2 = true ∧
      final.session.join plainCore (sampleReq ['q']) sampleDraws = (final.session, false) := by
  have shown := rollover_never_locks_out plainCore (sampleReq ['m']) sampleDraws 0 sampleToken
    (by decide +kernel) rolledOver (by decide +kernel)
  refine ⟨shown.1.2, ?_⟩
  exact shown.2 [] (rolledOver.take 3) (rolledOver.drop 4)
    (.request (sampleReq ['o']) 3 sampleDraws true) rfl (by decide +kernel) (by decide +kernel)
    (sampleReq ['q']) sampleDraws (by decide +kernel) (by decide +kernel)

end Runs

end TlsVpn.Registry

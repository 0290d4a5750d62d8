import TlsVpn.FecFence

/-!
What the decoder checks of a control record before it acts on it. The FEC_MODE
parser does not know the group size and the handler takes the boundary as it
comes, so a boundary inside a group opens a window inside a group. A parity is
looked at only by a decoder that is awake and whose retirement horizon lies at or
below the parity's group: any other one takes it for fine.
-/

namespace TlsVpn.Fec

open Words XorBytes Protocol TlsVpn.Topology

section Life

inductive Action where
  | data (seq : Nat) (frame : Bytes) (progress : Option Nat)
  | control (payload : Bytes) (before after : Option Nat)
  | dataActor (seq : Nat) (frame : Bytes) (expected : Nat)
  | controlActor (payload : Bytes) (expected : Nat)
  | setStaticSinglePath (single : Bool)
  | reset

def FecDecoder.act (decoder : FecDecoder) : Action → FecDecoder
  | .data seq frame progress => (decoder.onData seq frame progress).1
  | .control payload before after => (decoder.onControl payload before after).1
  | .dataActor seq frame expected => (decoder.onDataActor seq frame expected).1
  | .controlActor payload expected => (decoder.onControlActor payload expected).1
  | .setStaticSinglePath single => decoder.setStaticSinglePath single
  | .reset => decoder.reset

def FecDecoder.life (k : Nat) (ic : Option InnerCipher) (actions : List Action) : FecDecoder :=
  actions.foldl FecDecoder.act (FecDecoder.new k ic)

def Action.payload : Action → Option Bytes
  | .control payload _ _ => some payload
  | .controlActor payload _ => some payload
  | _ => none

/-- What an action can do: a call of the one or the other kind, or a change of
the static flag, which clears the decoder when it goes up. -/
inductive Acted (decoder : FecDecoder) (action : Action) : FecDecoder → Prop where
  | data (seq : Nat) (frame : Bytes) (progress : Option Nat) (result : FecDecoder × Delivered)
      (called : DataCall decoder seq frame progress result) : Acted decoder action result.1
  | control (payload : Bytes) (before after : Option Nat)
      (result : FecDecoder × Except String Delivered) (sent : action.payload = some payload)
      (called : ControlCall decoder payload before after result) : Acted decoder action result.1
  | kept : Acted decoder action decoder
  | woken : Acted decoder action { decoder with staticSingle := false }
  | cleared (single : Bool) : Acted decoder action { decoder with staticSingle := single }.reset

theorem act_acted (decoder : FecDecoder) (action : Action) :
    Acted decoder action (decoder.act action) := by
  cases action with
  | data seq frame progress =>
    exact .data seq frame progress _ (onData_called decoder seq frame progress)
  | control payload before after =>
    exact .control payload before after _ rfl (onControl_called decoder payload before after)
  | dataActor seq frame expected =>
    have called := onData_called decoder seq frame (some expected)
    simp only [FecDecoder.act, onDataActor_eq]
    exact .data seq frame (some expected) _ called
  | controlActor payload expected =>
    have called := onControl_called decoder payload (some expected) (some expected)
    simp only [FecDecoder.act, onControlActor_eq]
    exact .control payload (some expected) (some expected) _ rfl called
  | setStaticSinglePath single =>
    simp only [FecDecoder.act, FecDecoder.setStaticSinglePath]
    cases single with
    | false => exact .woken
    | true =>
      by_cases asleep : decoder.staticSingle = true
      · rw [if_pos asleep]
        exact .kept
      · rw [if_neg asleep]
        exact .cleared true
  | reset => exact .cleared decoder.staticSingle

theorem life_invariant (holds : FecDecoder → Prop) (allowed : Action → Prop)
    (preserved : ∀ decoder action next, allowed action → holds decoder →
      Acted decoder action next → holds next)
    (k : Nat) (ic : Option InnerCipher) (initially : holds (FecDecoder.new k ic))
    (actions : List Action) (all : ∀ action ∈ actions, allowed action) :
    holds (FecDecoder.life k ic actions) := by
  refine Runs.invariant_total FecDecoder.act (fun _ action => allowed action) holds ?_
    (FecDecoder.new k ic) actions (Runs.along_of_labels _ actions _ all) initially
  intro decoder action meets held
  exact preserved decoder action _ meets held (act_acted decoder action)

theorem life_fixed (k : Nat) (ic : Option InnerCipher) (actions : List Action) :
    (FecDecoder.life k ic actions).k = clampFecGroup k ∧
      (FecDecoder.life k ic actions).ic = ic := by
  refine life_invariant (fun decoder => decoder.k = clampFecGroup k ∧ decoder.ic = ic)
    (fun _ => True) ?_ k ic ⟨rfl, rfl⟩ actions fun _ _ => trivial
  rintro decoder action next - held acted
  cases acted with
  | data seq frame progress result called =>
    have same := called.setup
    simp only [FecDecoder.setup, Prod.mk.injEq] at same
    exact ⟨same.1.trans held.1, same.2.2.2.trans held.2⟩
  | control payload before after result sent called =>
    have same := called.setup
    simp only [FecDecoder.setup, Prod.mk.injEq] at same
    exact ⟨same.1.trans held.1, same.2.2.2.trans held.2⟩
  | kept => exact held
  | woken => exact held
  | cleared single => exact held

end Life

section Boundaries

variable {k : Nat}

abbrev OnBoundary (k boundary : Nat) : Prop := boundary = 0 ∨ GroupStart k boundary

variable {boundary seq : Nat} {progress : Option Nat} {fence : FecRxFenceState}
  {control : FecModeControl}

theorem groupStart_iff_modEq (positive : 1 ≤ boundary) :
    GroupStart k boundary ↔ boundary ≡ 1 [MOD k] := by
  rw [Nat.ModEq.comm, Nat.modEq_iff_dvd' positive, Nat.dvd_iff_mod_eq_zero]
  exact ⟨fun aligned => aligned.2, fun divides => ⟨positive, divides⟩⟩

theorem groupStartOf_aligned (size : 2 ≤ k) (number : 1 ≤ seq) :
    GroupStart k (groupStartOf k seq) ∧ groupStartOf k seq ≤ seq ∧
      seq < groupStartOf k seq + k := by
  obtain ⟨first, aligned, offset, same⟩ := groupStartOf_spec seq number size
  exact ⟨⟨first, aligned⟩, by omega, by omega⟩

theorem OnBoundary.lt_iff (whole : OnBoundary k boundary) (size : 2 ≤ k) (number : 1 ≤ seq) :
    seq < boundary ↔ groupStartOf k seq < boundary := by
  obtain ⟨aligned, below, above⟩ := groupStartOf_aligned size number
  rcases whole with rfl | start
  · omega
  · refine ⟨fun ahead => by omega, fun ahead => ?_⟩
    have := aligned.next start ahead
    omega

structure Bounded (k : Nat) (decoder : FecDecoder) : Prop where
  size : decoder.k = k
  windowFrom : OnBoundary k decoder.fence.windowFrom
  windowUntil : OnBoundary k decoder.fence.windowUntil
  cleanup : OnBoundary k decoder.cleanupBefore
  retired : OnBoundary k decoder.retiredBefore

variable {decoder : FecDecoder} {before after : Option Nat}

section

variable (bounded : Bounded k decoder)

include bounded

theorem Bounded.maybeRetire (progress : Option Nat) :
    Bounded k (decoder.maybeRetireOldGroupsLocked progress) := by
  obtain ⟨size, windowFrom, windowUntil, cleanup, retired⟩ := bounded
  have swept := maybeRetire_swept decoder progress
  generalize decoder.maybeRetireOldGroupsLocked progress = result at swept ⊢
  cases swept with
  | idle early => exact ⟨size, windowFrom, windowUntil, cleanup, retired⟩
  | retired expected given fresh passed => exact ⟨size, windowFrom, windowUntil, cleanup, cleanup⟩

theorem Bounded.inner (inner : FecDecoderInner) : Bounded k { decoder with inner := inner } :=
  ⟨bounded.size, bounded.windowFrom, bounded.windowUntil, bounded.cleanup, bounded.retired⟩

theorem Bounded.data {frame : Bytes} {result : FecDecoder × Delivered}
    (called : DataCall decoder seq frame progress result) : Bounded k result.1 :=
  called.keeps (Bounded k) bounded (fun _ progress good => good.maybeRetire progress)
    fun _ => bounded.inner _

theorem Bounded.parity {payload : Bytes} {result : FecDecoder × Except String Delivered}
    (called : ParityCall decoder payload before after result) : Bounded k result.1 :=
  called.keeps (Bounded k) bounded (fun _ progress good => good.maybeRetire progress)
    fun _ _ _ _ good _ _ => good.inner _

end

theorem apply_window {next : FecRxFenceState} (applied : fence.apply control = some next) :
    (next.windowFrom = control.boundary ∨ next.windowFrom = 0 ∨
        next.windowFrom = fence.windowFrom) ∧
      (next.windowUntil = 0 ∨ next.windowUntil = control.boundary) := by
  unfold FecRxFenceState.apply at applied
  split at applied
  · cases applied
  · split at applied
    · cases applied
    · split at applied
      · cases applied
        exact ⟨.inl rfl, .inl rfl⟩
      · split at applied <;> cases applied
        · exact ⟨.inr (.inl rfl), .inl rfl⟩
        · exact ⟨.inr (.inr rfl), .inr rfl⟩

theorem Bounded.window (bounded : Bounded k decoder) (aligned : GroupStart k control.boundary)
    (applied : decoder.fence.apply control = some fence) :
    OnBoundary k fence.windowFrom ∧ OnBoundary k fence.windowUntil := by
  obtain ⟨opened, closed⟩ := apply_window applied
  constructor
  · rcases opened with same | zero | old
    · exact .inr (same ▸ aligned)
    · exact .inl zero
    · exact old ▸ bounded.windowFrom
  · rcases closed with zero | same
    · exact .inl zero
    · exact .inr (same ▸ aligned)

theorem Bounded.mode (bounded : Bounded k decoder) {next : FecDecoder}
    (aligned : GroupStart k control.boundary) (called : ModeCall decoder control progress next) :
    Bounded k next := by
  cases called with
  | stale refused => exact bounded
  | lifted fence applied shut =>
    obtain ⟨opened, closed⟩ := bounded.window aligned applied
    exact ⟨bounded.size, opened, closed, bounded.cleanup, bounded.retired⟩
  | raised fence applied open_ =>
    obtain ⟨opened, closed⟩ := bounded.window aligned applied
    have boundary := cleanup_boundary bounded.cleanup (opened.resolve_left open_)
    have fenced : Bounded k (decoder.fenced fence) :=
      ⟨bounded.size, opened, closed, .inr boundary, bounded.retired⟩
    exact fenced.maybeRetire progress

structure WholeGroups (decoder : FecDecoder) : Prop where
  window : ∀ seq, 1 ≤ seq →
    decoder.fence.bypassData seq = decoder.fence.bypassData (groupStartOf decoder.k seq)
  retired : ∀ seq, 1 ≤ seq →
    (seq < decoder.retiredBefore ↔ groupStartOf decoder.k seq < decoder.retiredBefore)
  cleanup : ∀ seq, 1 ≤ seq →
    (seq < decoder.cleanupBefore ↔ groupStartOf decoder.k seq < decoder.cleanupBefore)

theorem Bounded.wholeGroups (bounded : Bounded k decoder) (size : 2 ≤ k) : WholeGroups decoder := by
  obtain ⟨rfl, windowFrom, windowUntil, cleanup, retired⟩ := bounded
  refine ⟨fun seq number => ?_, fun seq number => retired.lt_iff size number,
    fun seq number => cleanup.lt_iff size number⟩
  have opened := windowFrom.lt_iff size number
  have closed := windowUntil.lt_iff size number
  have own := (groupStartOf_aligned size number).1.1
  unfold FecRxFenceState.bypassData
  rw [Bool.eq_iff_iff]
  simp only [Bool.and_eq_true, Bool.or_eq_true, decide_eq_true_eq]
  omega

end Boundaries

section Mode

def modeBoundary (payload : Bytes) : Nat := readBe32 (payload.drop 12)

/-- What the parser refuses in a record of kind FEC_MODE: its length, its flags, its
operation, a zero generation or a zero boundary. -/
def MalformedMode (payload : Bytes) : Prop :=
  payload.length ≠ fecModeWireLen ∨ (byteAt payload 2 ≠ 0 ∨ byteAt payload 3 ≠ 0) ∨
    (byteAt payload 1 ≠ fecModeSuspend ∧ byteAt payload 1 ≠ fecModeResume) ∨
    (readBe64 (payload.drop 4) = 0 ∨ modeBoundary payload = 0)

variable {payload : Bytes} {decoder : FecDecoder}

theorem parse_cases (kind : payload.head? = some controlKindFecMode) :
    (MalformedMode payload ∧ ∃ message, FecModeControl.parse payload = .error message) ∨
      (¬ MalformedMode payload ∧ FecModeControl.parse payload =
        .ok ⟨readBe64 (payload.drop 4), byteAt payload 1, modeBoundary payload⟩) := by
  have first : payload.getD 0 0 = controlKindFecMode := by
    cases payload with
    | nil => cases kind
    | cons byte rest => exact Option.some.inj kind
  by_cases short : payload.length ≠ fecModeWireLen
  · exact .inl ⟨.inl short, _, if_pos short⟩
  rw [FecModeControl.parse, if_neg short, if_neg (not_not.mpr first)]
  by_cases flags : payload.getD 2 0 ≠ 0 ∨ payload.getD 3 0 ≠ 0
  · exact .inl ⟨.inr (.inl flags), _, if_pos flags⟩
  rw [if_neg flags]
  dsimp only
  by_cases op : payload.getD 1 0 ≠ fecModeSuspend ∧ payload.getD 1 0 ≠ fecModeResume
  · exact .inl ⟨.inr (.inr (.inl op)), _, if_pos op⟩
  rw [if_neg op]
  by_cases zero : readBe64 (payload.drop 4) = 0 ∨ readBe32 (payload.drop 12) = 0
  · exact .inl ⟨.inr (.inr (.inr zero)), _, if_pos zero⟩
  · refine .inr ⟨?_, if_neg zero⟩
    rintro (bad | bad | bad | bad)
    · exact short bad
    · exact flags bad
    · exact op bad
    · exact zero bad

def Refused {Answer : Type} (decoder : FecDecoder) (result : FecDecoder × Except String Answer) :
    Prop :=
  (∃ message, result.2 = .error message) ∧ result.1 = decoder

theorem onControl_refuses_mode (decoder : FecDecoder) (before after : Option Nat)
    (kind : payload.head? = some controlKindFecMode) :
    Refused decoder (decoder.onControl payload before after) ↔ MalformedMode payload := by
  have known := controlKind_ok.mpr ⟨kind, .inr rfl⟩
  have other : controlKindFecMode ≠ controlKindFecParity := by decide
  simp only [FecDecoder.onControl, known, if_neg other]
  rcases parse_cases kind with ⟨malformed, message, refused⟩ | ⟨good, parsed⟩
  · rw [refused]
    exact ⟨fun _ => malformed, fun _ => ⟨⟨message, rfl⟩, rfl⟩⟩
  · rw [parsed]
    refine ⟨fun refused => ?_, fun malformed => absurd malformed good⟩
    obtain ⟨⟨message, failed⟩, _⟩ := refused
    cases failed

theorem Refused.map {Answer Other : Type} {result : FecDecoder × Except String Answer}
    (change : Answer → Other) :
    Refused decoder (result.1, result.2.map change) ↔ Refused decoder result := by
  obtain ⟨next, answer⟩ := result
  cases answer <;> simp [Refused, Except.map]

def Action.Validated (k : Nat) (action : Action) : Prop :=
  ∀ payload, action.payload = some payload → payload.head? = some controlKindFecMode →
    modeBoundary payload ≡ 1 [MOD k] ∨ MalformedMode payload

theorem Bounded.act {k : Nat} {next : FecDecoder} {action : Action} (bounded : Bounded k decoder)
    (validated : action.Validated k) (acted : Acted decoder action next) : Bounded k next := by
  cases acted with
  | data seq frame progress result called => exact bounded.data called
  | control payload before after result sent called =>
    cases called with
    | unknown message kind => exact bounded
    | parity kind result called => exact bounded.parity called
    | misread message kind parsed => exact bounded
    | mode control next kind parsed called =>
      have head := (controlKind_ok.mp kind).1
      rcases parse_cases head with ⟨_, message, refused⟩ | ⟨good, exact_⟩
      · cases refused.symm.trans parsed
      · cases exact_.symm.trans parsed
        have congruent := (validated payload sent head).resolve_right good
        have positive : 1 ≤ modeBoundary payload := by
          by_contra zero
          exact good (.inr (.inr (.inr (.inr (by omega)))))
        exact bounded.mode ((groupStart_iff_modEq positive).mpr congruent) called
  | kept => exact bounded
  | woken =>
    exact ⟨bounded.size, bounded.windowFrom, bounded.windowUntil, bounded.cleanup,
      bounded.retired⟩
  | cleared single => exact ⟨bounded.size, .inl rfl, .inl rfl, .inl rfl, .inl rfl⟩

/-- A FEC_MODE record with a boundary inside a group is refused exactly when it is
malformed in another way; and as long as no other record with such a boundary comes,
windows and horizons are made of whole groups. -/
theorem mode_boundaries_validated (k : Nat) (ic : Option InnerCipher) :
    (∀ (decoder : FecDecoder) (payload : Bytes) (before after : Option Nat) (expected : Nat),
      payload.head? = some controlKindFecMode → ¬ modeBoundary payload ≡ 1 [MOD decoder.k] →
      (Refused decoder (decoder.onControl payload before after) ↔ MalformedMode payload) ∧
        (Refused decoder (decoder.onControlActor payload expected) ↔ MalformedMode payload)) ∧
    ∀ actions : List Action, (∀ action ∈ actions, action.Validated (clampFecGroup k)) →
      WholeGroups (FecDecoder.life k ic actions) := by
  constructor
  · intro decoder payload before after expected kind _
    refine ⟨onControl_refuses_mode decoder before after kind, ?_⟩
    rw [onControlActor_eq, Refused.map]
    exact onControl_refuses_mode decoder _ _ kind
  · intro actions validated
    have bounded := life_invariant (Bounded (clampFecGroup k)) (Action.Validated (clampFecGroup k))
      (fun _ _ _ valid held acted => held.act valid acted) k ic
      ⟨rfl, .inl rfl, .inl rfl, .inl rfl, .inl rfl⟩ actions validated
    exact bounded.wholeGroups (clampFecGroup_least k)

theorem mode_boundaries_validated_suspend :
    let suspend := FecModeControl.encode ⟨1, fecModeSuspend, 5⟩
    let decoder := FecDecoder.life 4 none [.control suspend none (some 7)]
    (decoder.fence.windowFrom = 5 ∧ decoder.retiredBefore = 5) ∧ WholeGroups decoder := by
  refine ⟨by decide +kernel, (mode_boundaries_validated 4 none).2 _ ?_⟩
  intro action member payload sent kind
  cases List.mem_singleton.mp member
  cases sent
  exact .inl (by decide)

theorem misaligned_suspend_accepted :
    let suspend := FecModeControl.encode ⟨1, fecModeSuspend, 3⟩
    let decoder := FecDecoder.new 4 none
    (suspend.head? = some controlKindFecMode ∧ ¬ modeBoundary suspend ≡ 1 [MOD decoder.k]) ∧
      (¬ Refused decoder (decoder.onControl suspend none (some 3)) ∧
        ¬ Refused decoder (decoder.onControlActor suspend 3)) ∧
      ¬ WholeGroups (decoder.onControl suspend none (some 3)).1 := by
  refine ⟨by decide +kernel, ⟨?_, ?_⟩, ?_⟩
  · rintro ⟨⟨message, failed⟩, _⟩
    cases failed
  · rintro ⟨⟨message, failed⟩, _⟩
    cases failed
  · intro whole
    -- frame 3 is let through and frame 1, of the same group, is not
    exact absurd (whole.window 3 (by decide)) (by decide +kernel)

end Mode

section Parity

variable {decoder : FecDecoder} {before after : Option Nat}

/-- The verdict on a parity's bytes alone: header, descriptor, member lengths and
body are all good. -/
def WellFormedParity (ic : Option InnerCipher) (k : Nat) (payload : Bytes) : Prop :=
  ∃ start parity, parityHeader k payload = .ok start ∧ readParity ic k payload start = .ok parity

/-- The retirement horizon once a sweep at `progress` is done. -/
def FecDecoder.horizon (decoder : FecDecoder) : Option Nat → Nat
  | none => decoder.retiredBefore
  | some expected =>
    if decoder.retiredBefore < decoder.cleanupBefore ∧ decoder.cleanupBefore ≤ expected then
      decoder.cleanupBefore
    else decoder.retiredBefore

variable {payload : Bytes}

theorem maybeRetire_horizon (decoder : FecDecoder) (progress : Option Nat) :
    (decoder.maybeRetireOldGroupsLocked progress).retiredBefore = decoder.horizon progress := by
  have swept := maybeRetire_swept decoder progress
  generalize decoder.maybeRetireOldGroupsLocked progress = result at swept ⊢
  cases swept with
  | idle early =>
    cases progress with
    | none => rfl
    | some expected =>
      have waiting := early expected rfl
      exact (if_neg (by omega)).symm
  | retired expected given fresh passed =>
    rw [given]
    exact (if_pos ⟨fresh, passed⟩).symm

/-- A decoder in static single-path mode looks at no parity, and one that has retired
a parity's group looks at no more than its header. -/
def Skips (decoder : FecDecoder) (payload : Bytes) (before : Option Nat) : Prop :=
  decoder.staticSingle = true ∨
    ∃ start, parityHeader decoder.k payload = .ok start ∧ start < decoder.horizon before

def Rejects (decoder : FecDecoder) (payload : Bytes) (before after : Option Nat) : Prop :=
  ∃ message, (decoder.onControl payload before after).2 = .error message

theorem ParityCall.rejects {result : FecDecoder × Except String Delivered}
    (called : ParityCall decoder payload before after result) :
    (∃ message, result.2 = .error message) ↔
      ¬ WellFormedParity decoder.ic decoder.k payload ∧ ¬ Skips decoder payload before := by
  -- past the header a call is decided by the horizon first and by the body second
  have accepted : ∀ {out : Delivered},
      (WellFormedParity decoder.ic decoder.k payload ∨ Skips decoder payload before) →
      ((∃ message, (Except.ok out : Except String Delivered) = .error message) ↔
        ¬ WellFormedParity decoder.ic decoder.k payload ∧ ¬ Skips decoder payload before) := by
    intro out either
    refine ⟨fun ⟨message, failed⟩ => (nomatch failed), fun ⟨bad, looked⟩ => ?_⟩
    exact absurd either (not_or.mpr ⟨bad, looked⟩)
  have swept : ∀ cleaned, decoder.maybeRetireOldGroupsLocked before = cleaned →
      cleaned.retiredBefore = decoder.horizon before ∧ cleaned.k = decoder.k ∧
        cleaned.ic = decoder.ic := by
    rintro _ rfl
    exact ⟨maybeRetire_horizon decoder before, maybeRetire_fixed decoder before⟩
  cases called with
  | static single => exact accepted (.inr (.inl single))
  | malformed listening message header =>
    refine ⟨fun _ => ⟨?_, ?_⟩, fun _ => ⟨message, rfl⟩⟩
    · rintro ⟨start, parity, good, _⟩
      cases header.symm.trans good
    · rintro (single | ⟨start, good, _⟩)
      · cases listening.symm.trans single
      · cases header.symm.trans good
  | retired listening start cleaned sweep header old =>
    obtain ⟨horizon, _⟩ := swept cleaned sweep
    exact accepted (.inr (.inr ⟨start, header, horizon ▸ old.2⟩))
  | unreadable listening start cleaned message sweep header young read =>
    obtain ⟨horizon, size, cipher⟩ := swept cleaned sweep
    rw [size, cipher] at read
    refine ⟨fun _ => ⟨?_, ?_⟩, fun _ => ⟨message, rfl⟩⟩
    · rintro ⟨other, parity, good, whole⟩
      cases header.symm.trans good
      cases read.symm.trans whole
    · rintro (single | ⟨other, good, old⟩)
      · cases listening.symm.trans single
      · cases header.symm.trans good
        rw [← horizon] at old
        exact young ⟨by omega, old⟩
  | finished listening start cleaned lens body sweep header young read done =>
    obtain ⟨horizon, size, cipher⟩ := swept cleaned sweep
    rw [size, cipher] at read
    exact accepted (.inl ⟨start, (lens, body), header, read⟩)
  | repeated listening start cleaned lens body sweep header young read pending taken =>
    obtain ⟨horizon, size, cipher⟩ := swept cleaned sweep
    rw [size, cipher] at read
    exact accepted (.inl ⟨start, (lens, body), header, read⟩)
  | stored listening start cleaned lens body out sweep header young read pending taken =>
    obtain ⟨horizon, size, cipher⟩ := swept cleaned sweep
    rw [size, cipher] at read
    exact accepted (.inl ⟨start, (lens, body), header, read⟩)

theorem rejects_parity (decoder : FecDecoder) (before after : Option Nat)
    (kind : payload.head? = some controlKindFecParity) :
    Rejects decoder payload before after ↔
      ¬ WellFormedParity decoder.ic decoder.k payload ∧ ¬ Skips decoder payload before := by
  have known := controlKind_ok.mpr ⟨kind, .inl rfl⟩
  unfold Rejects
  simp only [FecDecoder.onControl, known, if_pos]
  exact (onParityStrict_called decoder payload before after).rejects

/-- Two lives of a decoder agree on a parity exactly when it is well formed, or both
look at it, or neither does. -/
theorem parity_verdicts_agree (k : Nat) (ic : Option InnerCipher) (first second : List Action)
    (payload : Bytes) (kind : payload.head? = some controlKindFecParity)
    (before after otherBefore otherAfter : Option Nat) :
    (Rejects (FecDecoder.life k ic first) payload before after ↔
        Rejects (FecDecoder.life k ic second) payload otherBefore otherAfter) ↔
      (¬ WellFormedParity ic (clampFecGroup k) payload →
        (Skips (FecDecoder.life k ic first) payload before ↔
          Skips (FecDecoder.life k ic second) payload otherBefore)) := by
  obtain ⟨firstSize, firstCipher⟩ := life_fixed k ic first
  obtain ⟨secondSize, secondCipher⟩ := life_fixed k ic second
  rw [rejects_parity _ before after kind, rejects_parity _ otherBefore otherAfter kind,
    firstSize, firstCipher, secondSize, secondCipher, and_congr_right_iff]
  exact imp_congr_right fun _ => not_iff_not

/-- A truncated header, before and after the first data frame. -/
theorem parity_verdicts_agree_header :
    let record : Bytes := [controlKindFecParity, 0, 0]
    Rejects (FecDecoder.life 4 none []) record none none ∧
      Rejects (FecDecoder.life 4 none [.data 1 [7] none]) record none (some 1) := by
  have looked : ∀ actions : List Action, (FecDecoder.life 4 none actions).staticSingle = false →
      ¬ Skips (FecDecoder.life 4 none actions) [controlKindFecParity, 0, 0] none := by
    rintro actions awake (single | ⟨start, header, _⟩)
    · cases awake.symm.trans single
    · cases header
  have first : Rejects (FecDecoder.life 4 none []) [controlKindFecParity, 0, 0] none none :=
    ⟨_, rfl⟩
  refine ⟨first, ((parity_verdicts_agree 4 none [] [.data 1 [7] none] _ rfl none none none
    (some 1)).mpr fun _ => ?_).mp first⟩
  exact iff_of_false (looked [] rfl) (looked _ (by decide +kernel))

/-- The same bytes are an error for a new decoder, and fine in static single-path mode
and below the retirement horizon. -/
theorem malformed_parity_passes :
    let header : Bytes := [controlKindFecParity]
    let descriptor : Bytes := [controlKindFecParity, 0, 0, 0, 1, 4, 0]
    let suspend := FecModeControl.encode ⟨1, fecModeSuspend, 5⟩
    ¬ (Rejects (FecDecoder.life 4 none []) header none none ↔
        Rejects (FecDecoder.life 4 none [.setStaticSinglePath true]) header none none) ∧
      ¬ (Rejects (FecDecoder.life 4 none []) descriptor none none ↔
        Rejects (FecDecoder.life 4 none [.control suspend none (some 5)]) descriptor none none) := by
  constructor
  · intro agree
    obtain ⟨message, failed⟩ := agree.mp ⟨_, rfl⟩
    cases failed
  · intro agree
    obtain ⟨message, failed⟩ := agree.mp ⟨_, rfl⟩
    have fine : ((FecDecoder.life 4 none
        [.control (FecModeControl.encode ⟨1, fecModeSuspend, 5⟩) none (some 5)]).onControl
        [controlKindFecParity, 0, 0, 0, 1, 4, 0] none none).2.toOption = some [] := by
      decide +kernel
    rw [failed] at fine
    cases fine

end Parity

end TlsVpn.Fec

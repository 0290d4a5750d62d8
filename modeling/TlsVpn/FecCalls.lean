import TlsVpn.FecGroups

/-!
What one call of the decoder can do, with the facts its tests established. The
tests of a call are interleaved with its effects: a parity sweeps retired groups
before its descriptor is read, and a mode control drops groups before it sweeps.
Results about the decoder are by cases on these relations and do not unfold the
calls again.
-/

namespace TlsVpn.Fec

open Words XorBytes Protocol

section Data

structure Heard (decoder : FecDecoder) (seq : Nat) (frame : Bytes) : Prop where
  nonempty : frame ≠ []
  numbered : seq ≠ 0
  listening : decoder.staticSingle = false

inductive DataCall (decoder : FecDecoder) (seq : Nat) (frame : Bytes) (progress : Option Nat) :
    FecDecoder × Delivered → Prop where
  | ignored (why : frame = [] ∨ seq = 0 ∨ decoder.staticSingle = true) :
      DataCall decoder seq frame progress (decoder, [])
  | bypassed (heard : Heard decoder seq frame) (fenced : decoder.fence.bypassData seq = true)
      (early : seq % 256 ≠ 0) : DataCall decoder seq frame progress (decoder, [])
  | swept (heard : Heard decoder seq frame) (fenced : decoder.fence.bypassData seq = true)
      (due : seq % 256 = 0) :
      DataCall decoder seq frame progress (decoder.maybeRetireOldGroupsLocked progress, [])
  | retired (heard : Heard decoder seq frame) (protected_ : decoder.fence.bypassData seq = false)
      (old : decoder.retiredBefore ≠ 0 ∧ seq < decoder.retiredBefore) :
      DataCall decoder seq frame progress (decoder, [])
  | absorbed (heard : Heard decoder seq frame) (protected_ : decoder.fence.bypassData seq = false)
      (young : ¬ (decoder.retiredBefore ≠ 0 ∧ seq < decoder.retiredBefore)) :
      DataCall decoder seq frame progress
        ({ decoder with
            inner := (onDataLocked decoder.inner decoder.k decoder.fullMask seq frame).1 },
          (onDataLocked decoder.inner decoder.k decoder.fullMask seq frame).2)

theorem onData_called (decoder : FecDecoder) (seq : Nat) (frame : Bytes) (progress : Option Nat) :
    DataCall decoder seq frame progress (decoder.onData seq frame progress) := by
  unfold FecDecoder.onData
  by_cases why : frame = [] ∨ seq = 0 ∨ decoder.staticSingle = true
  · rw [if_pos why]
    exact .ignored why
  · rw [if_neg why]
    obtain ⟨nonempty, rest⟩ := not_or.mp why
    obtain ⟨numbered, multipath⟩ := not_or.mp rest
    have heard : Heard decoder seq frame :=
      ⟨nonempty, numbered, Bool.eq_false_iff.mpr multipath⟩
    by_cases fenced : decoder.fence.bypassData seq = true
    · rw [if_pos fenced]
      by_cases due : seq % 256 = 0
      · rw [if_pos due]
        exact .swept heard fenced due
      · rw [if_neg due]
        exact .bypassed heard fenced due
    · rw [if_neg fenced]
      by_cases old : decoder.retiredBefore ≠ 0 ∧ seq < decoder.retiredBefore
      · rw [if_pos old]
        exact .retired heard (Bool.eq_false_iff.mpr fenced) old
      · rw [if_neg old]
        exact .absorbed heard (Bool.eq_false_iff.mpr fenced) old

end Data

section Parity

/-- The cases of `on_parity_strict` after its sweep: `cleaned` is the decoder
the sweep left. -/
inductive ParityCall (decoder : FecDecoder) (payload : Bytes) (before after : Option Nat) :
    FecDecoder × Except String Delivered → Prop where
  | static (single : decoder.staticSingle = true) :
      ParityCall decoder payload before after (decoder, .ok [])
  | malformed (listening : decoder.staticSingle = false) (message : String)
      (header : parityHeader decoder.k payload = .error message) :
      ParityCall decoder payload before after (decoder, .error message)
  | retired (listening : decoder.staticSingle = false) (start : Nat) (cleaned : FecDecoder)
      (sweep : decoder.maybeRetireOldGroupsLocked before = cleaned)
      (header : parityHeader decoder.k payload = .ok start)
      (old : cleaned.retiredBefore ≠ 0 ∧ start < cleaned.retiredBefore) :
      ParityCall decoder payload before after (cleaned, .ok [])
  | unreadable (listening : decoder.staticSingle = false) (start : Nat) (cleaned : FecDecoder)
      (message : String) (sweep : decoder.maybeRetireOldGroupsLocked before = cleaned)
      (header : parityHeader decoder.k payload = .ok start)
      (young : ¬ (cleaned.retiredBefore ≠ 0 ∧ start < cleaned.retiredBefore))
      (read : readParity cleaned.ic cleaned.k payload start = .error message) :
      ParityCall decoder payload before after (cleaned, .error message)
  | finished (listening : decoder.staticSingle = false) (start : Nat) (cleaned : FecDecoder)
      (lens : List Nat) (body : Bytes) (sweep : decoder.maybeRetireOldGroupsLocked before = cleaned)
      (header : parityHeader decoder.k payload = .ok start)
      (young : ¬ (cleaned.retiredBefore ≠ 0 ∧ start < cleaned.retiredBefore))
      (read : readParity cleaned.ic cleaned.k payload start = .ok (lens, body))
      (done : isDone cleaned.inner.done start cleaned.k = true) :
      ParityCall decoder payload before after (cleaned, .ok [])
  | repeated (listening : decoder.staticSingle = false) (start : Nat) (cleaned : FecDecoder)
      (lens : List Nat) (body : Bytes) (sweep : decoder.maybeRetireOldGroupsLocked before = cleaned)
      (header : parityHeader decoder.k payload = .ok start)
      (young : ¬ (cleaned.retiredBefore ≠ 0 ∧ start < cleaned.retiredBefore))
      (read : readParity cleaned.ic cleaned.k payload start = .ok (lens, body))
      (pending : isDone cleaned.inner.done start cleaned.k = false)
      (taken : (storeParity cleaned.inner cleaned.k start lens body).2 = none) :
      ParityCall decoder payload before after
        ({ cleaned with inner := (storeParity cleaned.inner cleaned.k start lens body).1 }, .ok [])
  | stored (listening : decoder.staticSingle = false) (start : Nat) (cleaned : FecDecoder)
      (lens : List Nat) (body : Bytes) (out : Delivered)
      (sweep : decoder.maybeRetireOldGroupsLocked before = cleaned)
      (header : parityHeader decoder.k payload = .ok start)
      (young : ¬ (cleaned.retiredBefore ≠ 0 ∧ start < cleaned.retiredBefore))
      (read : readParity cleaned.ic cleaned.k payload start = .ok (lens, body))
      (pending : isDone cleaned.inner.done start cleaned.k = false)
      (taken : (storeParity cleaned.inner cleaned.k start lens body).2 = some out) :
      ParityCall decoder payload before after
        ({ cleaned with
            inner := (storeParity cleaned.inner cleaned.k start lens body).1
          }.maybeRetireOldGroupsLocked after, .ok out)

theorem onParityStrict_called (decoder : FecDecoder) (payload : Bytes) (before after : Option Nat) :
    ParityCall decoder payload before after (decoder.onParityStrict payload before after) := by
  obtain ⟨cleaned, sweep⟩ : ∃ cleaned,
      decoder.maybeRetireOldGroupsLocked before = cleaned := ⟨_, rfl⟩
  simp only [FecDecoder.onParityStrict, sweep]
  by_cases single : decoder.staticSingle = true
  · rw [if_pos single]
    exact .static single
  · rw [if_neg single]
    have listening := Bool.eq_false_iff.mpr single
    cases header : parityHeader decoder.k payload with
    | error message => exact .malformed listening message header
    | ok start =>
      dsimp only
      by_cases old : cleaned.retiredBefore ≠ 0 ∧ start < cleaned.retiredBefore
      · rw [if_pos old]
        exact .retired listening start cleaned sweep header old
      · rw [if_neg old]
        cases read : readParity cleaned.ic cleaned.k payload start with
        | error message => exact .unreadable listening start cleaned message sweep header old read
        | ok parity =>
          obtain ⟨lens, body⟩ := parity
          dsimp only
          by_cases done : isDone cleaned.inner.done start cleaned.k = true
          · rw [if_pos done]
            exact .finished listening start cleaned lens body sweep header old read done
          · rw [if_neg done]
            have pending := Bool.eq_false_iff.mpr done
            cases taken : (storeParity cleaned.inner cleaned.k start lens body).2 with
            | none =>
              have call : ParityCall decoder payload before after _ :=
                .repeated listening start cleaned lens body sweep header old read pending taken
              generalize storeParity cleaned.inner cleaned.k start lens body = result
                at taken call
              obtain ⟨inner, given⟩ := result
              cases taken
              exact call
            | some out =>
              have call : ParityCall decoder payload before after _ :=
                .stored listening start cleaned lens body out sweep header old read pending
                  taken
              generalize storeParity cleaned.inner cleaned.k start lens body = result
                at taken call
              obtain ⟨inner, given⟩ := result
              cases taken
              exact call

end Parity

section Mode

def FecDecoder.fenced (decoder : FecDecoder) (fence : FecRxFenceState) : FecDecoder :=
  { decoder with
    fence := fence
    cleanupBefore := atomicMax decoder.cleanupBefore fence.windowFrom
    inner := { decoder.inner with
      groups := dropGroupsInRange decoder.inner.groups fence.windowFrom fence.windowUntil } }

inductive ModeCall (decoder : FecDecoder) (control : FecModeControl) (progress : Option Nat) :
    FecDecoder → Prop where
  | stale (refused : decoder.fence.apply control = none) : ModeCall decoder control progress decoder
  | lifted (fence : FecRxFenceState) (applied : decoder.fence.apply control = some fence)
      (shut : fence.windowFrom = 0) :
      ModeCall decoder control progress { decoder with fence := fence }
  | raised (fence : FecRxFenceState) (applied : decoder.fence.apply control = some fence)
      (opened : fence.windowFrom ≠ 0) :
      ModeCall decoder control progress
        ((decoder.fenced fence).maybeRetireOldGroupsLocked progress)

variable (decoder : FecDecoder)

theorem handleModeControl_called (control : FecModeControl) (progress : Option Nat) :
    ModeCall decoder control progress (decoder.handleModeControl control progress) := by
  unfold FecDecoder.handleModeControl
  cases applied : decoder.fence.apply control with
  | none => exact .stale applied
  | some fence =>
    dsimp only
    by_cases shut : fence.windowFrom = 0
    · rw [if_pos shut]
      exact .lifted fence applied shut
    · rw [if_neg shut]
      exact .raised fence applied shut

inductive ControlCall (decoder : FecDecoder) (payload : Bytes) (before after : Option Nat) :
    FecDecoder × Except String Delivered → Prop where
  | unknown (message : String) (kind : controlKind payload = .error message) :
      ControlCall decoder payload before after (decoder, .error message)
  | parity (kind : controlKind payload = .ok controlKindFecParity)
      (result : FecDecoder × Except String Delivered)
      (called : ParityCall decoder payload before after result) :
      ControlCall decoder payload before after result
  | misread (message : String) (kind : controlKind payload = .ok controlKindFecMode)
      (parsed : FecModeControl.parse payload = .error message) :
      ControlCall decoder payload before after (decoder, .error message)
  | mode (control : FecModeControl) (next : FecDecoder)
      (kind : controlKind payload = .ok controlKindFecMode)
      (parsed : FecModeControl.parse payload = .ok control)
      (called : ModeCall decoder control after next) :
      ControlCall decoder payload before after (next, .ok [])

theorem controlKind_ok {payload : Bytes} {kind : UInt8} :
    controlKind payload = .ok kind ↔ payload.head? = some kind ∧
      (kind = controlKindFecParity ∨ kind = controlKindFecMode) := by
  cases payload with
  | nil => exact ⟨fun known => (nomatch known), fun known => (nomatch known.1)⟩
  | cons first rest =>
    simp only [controlKind, List.head?_cons, Option.some.injEq]
    by_cases either : first = controlKindFecParity ∨ first = controlKindFecMode
    · rw [if_pos either, Except.ok.injEq]
      exact ⟨fun same => ⟨same, same ▸ either⟩, fun known => known.1⟩
    · rw [if_neg either]
      exact ⟨fun known => (nomatch known), fun known => absurd (known.1 ▸ known.2) either⟩

theorem onControl_called (payload : Bytes) (before after : Option Nat) :
    ControlCall decoder payload before after (decoder.onControl payload before after) := by
  unfold FecDecoder.onControl
  cases kind : controlKind payload with
  | error message => exact .unknown message kind
  | ok which =>
    dsimp only
    by_cases parity : which = controlKindFecParity
    · rw [if_pos parity]
      subst parity
      exact .parity kind _ (onParityStrict_called decoder payload before after)
    · rw [if_neg parity]
      have mode := (controlKind_ok.mp kind).2.resolve_left parity
      subst mode
      cases parsed : FecModeControl.parse payload with
      | error message => exact .misread message kind parsed
      | ok control =>
        exact .mode control _ kind parsed (handleModeControl_called decoder control after)

end Mode

section Rules

variable {decoder : FecDecoder} {before after : Option Nat} (holds : FecDecoder → Prop)
variable {progress : Option Nat}

/-- The rule of a data frame: what a sweep keeps survives if absorbing the frame
keeps it. -/
theorem DataCall.keeps {seq : Nat} {frame : Bytes} {result : FecDecoder × Delivered}
    (called : DataCall decoder seq frame progress result) (initial : holds decoder)
    (sweeps : ∀ other progress, holds other → holds (other.maybeRetireOldGroupsLocked progress))
    (absorbs : Heard decoder seq frame → holds { decoder with
      inner := (onDataLocked decoder.inner decoder.k decoder.fullMask seq frame).1 }) :
    holds result.1 := by
  cases called with
  | swept heard fenced due => exact sweeps decoder progress initial
  | absorbed heard protected_ young => exact absorbs heard
  | _ => exact initial

/-- The rule of a parity: what a sweep keeps survives if storing what was read
keeps it. -/
theorem ParityCall.keeps {payload : Bytes} {result : FecDecoder × Except String Delivered}
    (called : ParityCall decoder payload before after result) (initial : holds decoder)
    (sweeps : ∀ other progress, holds other → holds (other.maybeRetireOldGroupsLocked progress))
    (stores : ∀ cleaned start lens body, holds cleaned →
      parityHeader decoder.k payload = .ok start →
      readParity cleaned.ic cleaned.k payload start = .ok (lens, body) →
      holds { cleaned with inner := (storeParity cleaned.inner cleaned.k start lens body).1 }) :
    holds result.1 := by
  have swept := sweeps decoder before initial
  cases called with
  | static single => exact initial
  | malformed listening message header => exact initial
  | retired listening start cleaned sweep header old => exact sweep ▸ swept
  | unreadable listening start cleaned message sweep header young read => exact sweep ▸ swept
  | finished listening start cleaned lens body sweep header young read done =>
    exact sweep ▸ swept
  | repeated listening start cleaned lens body sweep header young read pending taken =>
    exact stores cleaned start lens body (sweep ▸ swept) header read
  | stored listening start cleaned lens body out sweep header young read pending taken =>
    exact sweeps _ after (stores cleaned start lens body (sweep ▸ swept) header read)

theorem ModeCall.groups {keep : Nat → FecGroupState → Prop} {control : FecModeControl}
    {next : FecDecoder} (called : ModeCall decoder control progress next)
    (all : AllGroups keep decoder.inner.groups) : AllGroups keep next.inner.groups := by
  cases called with
  | stale refused => exact all
  | lifted fence applied shut => exact all
  | raised fence applied opened =>
    apply AllGroups.maybeRetire
    simp only [FecDecoder.fenced, dropGroupsInRange]
    split
    · exact all
    · exact all.eraseAll _

end Rules

section Setup

def FecDecoder.setup (decoder : FecDecoder) : Nat × BitVec 64 × Bool × Option InnerCipher :=
  (decoder.k, decoder.fullMask, decoder.staticSingle, decoder.ic)

variable {decoder : FecDecoder} {before after : Option Nat}
variable {progress : Option Nat} {payload : Bytes} {result : FecDecoder × Except String Delivered}

theorem maybeRetire_setup (decoder : FecDecoder) (progress : Option Nat) :
    (decoder.maybeRetireOldGroupsLocked progress).setup = decoder.setup := by
  have swept := maybeRetire_swept decoder progress
  generalize decoder.maybeRetireOldGroupsLocked progress = swept at *
  cases swept <;> rfl

theorem DataCall.setup {seq : Nat} {frame : Bytes} {result : FecDecoder × Delivered}
    (called : DataCall decoder seq frame progress result) : result.1.setup = decoder.setup :=
  called.keeps (fun other => other.setup = decoder.setup) rfl
    (fun other progress same => (maybeRetire_setup other progress).trans same) fun _ => rfl

theorem ParityCall.setup (called : ParityCall decoder payload before after result) :
    result.1.setup = decoder.setup := by
  apply called.keeps (fun other => other.setup = decoder.setup) rfl
  · exact fun other progress same => (maybeRetire_setup other progress).trans same
  · exact fun cleaned start lens body same header read => same

theorem ModeCall.setup {control : FecModeControl} {next : FecDecoder}
    (called : ModeCall decoder control progress next) : next.setup = decoder.setup := by
  cases called with
  | stale refused => rfl
  | lifted fence applied shut => rfl
  | raised fence applied opened => exact maybeRetire_setup (decoder.fenced fence) progress

theorem ControlCall.setup (called : ControlCall decoder payload before after result) :
    result.1.setup = decoder.setup := by
  cases called with
  | unknown message kind => rfl
  | parity kind result called => exact called.setup
  | misread message kind parsed => rfl
  | mode control next kind parsed called => exact called.setup

end Setup

section Batch

/-- `on_data` called for one frame after the other. -/
def FecDecoder.onDataEach :
    FecDecoder → List (Nat × Bytes × Option Nat) → FecDecoder × Delivered
  | decoder, [] => (decoder, [])
  | decoder, (seq, frame, progress) :: rest =>
    let first := decoder.onData seq frame progress
    let others := first.1.onDataEach rest
    (others.1, first.2 ++ others.2)

variable (decoder : FecDecoder) (entries : List (Nat × Bytes × Option Nat))

theorem onDataEach_static (single : decoder.staticSingle = true) :
    decoder.onDataEach entries = (decoder, []) := by
  induction entries with
  | nil => rfl
  | cons head rest ih =>
    obtain ⟨seq, frame, progress⟩ := head
    have first : decoder.onData seq frame progress = (decoder, []) := by
      simp only [FecDecoder.onData, single, or_true, ↓reduceIte]
    simp only [FecDecoder.onDataEach, first, ih, List.append_nil]

/-- One turn of the loop is one call of `on_data`: the flag it does not look at
was looked at before the loop, and no turn changes it. -/
theorem onDataBatchLoop_cons (seq : Nat) (frame : Bytes) (progress : Option Nat)
    (rest : List (Nat × Bytes × Option Nat)) (listening : decoder.staticSingle = false) :
    decoder.onDataBatchLoop ((seq, frame, progress) :: rest) =
      (((decoder.onData seq frame progress).1.onDataBatchLoop rest).1,
        (decoder.onData seq frame progress).2 ++
          ((decoder.onData seq frame progress).1.onDataBatchLoop rest).2) := by
  have called := onData_called decoder seq frame progress
  rw [FecDecoder.onDataBatchLoop]
  generalize decoder.onData seq frame progress = result at called ⊢
  cases called with
  | ignored why =>
    have skip : seq = 0 ∨ frame = [] := by
      rcases why with empty | zero | single
      · exact Or.inr empty
      · exact Or.inl zero
      · rw [listening] at single
        cases single
    rw [if_pos skip]
    rfl
  | bypassed heard fenced early =>
    rw [if_neg (by simp [heard.nonempty, heard.numbered]), if_pos fenced, if_neg early]
    rfl
  | swept heard fenced due =>
    rw [if_neg (by simp [heard.nonempty, heard.numbered]), if_pos fenced, if_pos due]
    rfl
  | retired heard protected_ old =>
    rw [if_neg (by simp [heard.nonempty, heard.numbered]),
      if_neg (Bool.eq_false_iff.mp protected_), if_pos old]
    rfl
  | absorbed heard protected_ young =>
    rw [if_neg (by simp [heard.nonempty, heard.numbered]),
      if_neg (Bool.eq_false_iff.mp protected_), if_neg young]

theorem onDataBatchLoop_eq (listening : decoder.staticSingle = false) :
    decoder.onDataBatchLoop entries = decoder.onDataEach entries := by
  induction entries generalizing decoder with
  | nil => rfl
  | cons head rest ih =>
    obtain ⟨seq, frame, progress⟩ := head
    have kept := congrArg (fun setup => setup.2.2.1)
      (onData_called decoder seq frame progress).setup
    rw [onDataBatchLoop_cons decoder seq frame progress rest listening,
      ih _ (kept.trans listening)]
    rfl

theorem onDataBatch_eq : decoder.onDataBatch entries = decoder.onDataEach entries := by
  unfold FecDecoder.onDataBatch
  cases single : decoder.staticSingle with
  | true => rw [if_pos (Or.inr rfl), onDataEach_static decoder entries single]
  | false =>
    cases entries with
    | nil => rfl
    | cons head rest => rw [if_neg (by simp), onDataBatchLoop_eq decoder _ single]

end Batch

end TlsVpn.Fec

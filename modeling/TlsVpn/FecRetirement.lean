import TlsVpn.FecValidation
import TlsVpn.RxOrder

/-!
Retirement in the receive actor. The decoder's calls are repeated here with a log
of what retirement took away: groups removed by a sweep, and records ignored
because they lie below the horizon. Forgetting the log gives back the calls.

The horizon moves only to a cleanup boundary that the reorder buffer has passed,
and both the boundary and the pending groups are aligned, so a group below the
horizon lies below the reorder buffer's base with all its members.
-/

namespace TlsVpn.RxActor

open Words XorBytes Protocol Fec Reorder Holdings TlsVpn.Topology

section Log

inductive Drop where
  | group (start : Nat)
  | record (start : Nat)
  deriving DecidableEq

def Drop.start : Drop → Nat
  | .group start => start
  | .record start => start

def sweepLogged (decoder : FecDecoder) (expected : Nat) : FecDecoder × List Drop :=
  let after := decoder.maybeRetireOldGroupsActor expected
  (after, (decoder.inner.groups.keys.filter fun start =>
    (after.inner.groups.lookup start).isNone).map Drop.group)

def onDataLogged (decoder : FecDecoder) (seq : Nat) (frame : Bytes) (expected : Nat) :
    (FecDecoder × Option (Nat × Bytes)) × List Drop :=
  if frame = [] ∨ seq = 0 ∨ decoder.staticSingle then ((decoder, none), [])
  else if decoder.fence.bypassData seq then
    if seq % 256 = 0 then
      let swept := sweepLogged decoder expected
      ((swept.1, none), swept.2)
    else ((decoder, none), [])
  else if decoder.retiredBefore ≠ 0 ∧ seq < decoder.retiredBefore then
    ((decoder, none), [.record (groupStartOf decoder.k seq)])
  else
    -- past the horizon the call neither sweeps nor ignores
    (decoder.onDataActor seq frame expected, [])

def onParityLogged (decoder : FecDecoder) (payload : Bytes) (expected : Nat) :
    (FecDecoder × Except String (Option (Nat × Bytes))) × List Drop :=
  if decoder.staticSingle then ((decoder, .ok none), []) else
    match parityHeader decoder.k payload with
    | .error message => ((decoder, .error message), [])
    | .ok start =>
      let swept := sweepLogged decoder expected
      let cleaned := swept.1
      if cleaned.retiredBefore ≠ 0 ∧ start < cleaned.retiredBefore then
        ((cleaned, .ok none), swept.2 ++ [.record start])
      else
        match readParity cleaned.ic cleaned.k payload start with
        | .error message => ((cleaned, .error message), swept.2)
        | .ok (lens, body) =>
          if isDone cleaned.inner.done start cleaned.k then ((cleaned, .ok none), swept.2) else
            match storeParity cleaned.inner cleaned.k start lens body with
            | (inner, none) => (({ cleaned with inner := inner }, .ok none), swept.2)
            | (inner, some out) =>
              let last := sweepLogged { cleaned with inner := inner } expected
              ((last.1, .ok out.getLast?), swept.2 ++ last.2)

def handleModeControlLogged (decoder : FecDecoder) (control : FecModeControl) (expected : Nat) :
    FecDecoder × List Drop :=
  match decoder.fence.applyActor control with
  | none => (decoder, [])
  | some fence =>
    if fence.windowFrom = 0 then ({ decoder with fence := fence }, [])
    else sweepLogged (decoder.fenced fence) expected

def onControlLogged (decoder : FecDecoder) (payload : Bytes) (expected : Nat) :
    (FecDecoder × Except String (Option (Nat × Bytes))) × List Drop :=
  match controlKind payload with
  | .error message => ((decoder, .error message), [])
  | .ok kind =>
    if kind = controlKindFecParity then onParityLogged decoder payload expected
    else
      match FecModeControl.parse payload with
      | .error message => ((decoder, .error message), [])
      | .ok control =>
        let handled := handleModeControlLogged decoder control expected
        ((handled.1, .ok none), handled.2)

variable (decoder : FecDecoder) (payload : Bytes) (expected : Nat)

theorem onDataLogged_fst (seq : Nat) (frame : Bytes) (expected : Nat) :
    (onDataLogged decoder seq frame expected).1 = decoder.onDataActor seq frame expected := by
  unfold onDataLogged
  by_cases why : frame = [] ∨ seq = 0 ∨ decoder.staticSingle = true
  · rw [if_pos why, FecDecoder.onDataActor, if_pos why]
  · rw [if_neg why]
    by_cases fenced : decoder.fence.bypassData seq = true
    · rw [if_pos fenced, FecDecoder.onDataActor, if_neg why, if_pos fenced]
      split <;> rfl
    · rw [if_neg fenced]
      by_cases old : decoder.retiredBefore ≠ 0 ∧ seq < decoder.retiredBefore
      · rw [if_pos old, FecDecoder.onDataActor, if_neg why, if_neg fenced, if_pos old]
      · rw [if_neg old]

theorem onParityLogged_fst :
    (onParityLogged decoder payload expected).1 = decoder.onParityActor payload expected := by
  obtain ⟨cleaned, sweep⟩ : ∃ cleaned,
      decoder.maybeRetireOldGroupsActor expected = cleaned := ⟨_, rfl⟩
  simp only [onParityLogged, FecDecoder.onParityActor, sweepLogged, sweep]
  by_cases single : decoder.staticSingle = true
  · rw [if_pos single, if_pos single]
  rw [if_neg single, if_neg single]
  cases parityHeader decoder.k payload with
  | error message => rfl
  | ok start =>
    dsimp only
    by_cases old : cleaned.retiredBefore ≠ 0 ∧ start < cleaned.retiredBefore
    · rw [if_pos old, if_pos old]
    rw [if_neg old, if_neg old]
    cases readParity cleaned.ic cleaned.k payload start with
    | error message => rfl
    | ok parity =>
      obtain ⟨lens, body⟩ := parity
      dsimp only
      by_cases done : isDone cleaned.inner.done start cleaned.k = true
      · rw [if_pos done, if_pos done]
      rw [if_neg done, if_neg done]
      obtain ⟨inner, out⟩ := storeParity cleaned.inner cleaned.k start lens body
      cases out <;> rfl

theorem onControlLogged_fst :
    (onControlLogged decoder payload expected).1 = decoder.onControlActor payload expected := by
  unfold onControlLogged FecDecoder.onControlActor
  cases controlKind payload with
  | error message => rfl
  | ok kind =>
    dsimp only
    by_cases parity : kind = controlKindFecParity
    · rw [if_pos parity, if_pos parity]
      exact onParityLogged_fst decoder payload expected
    rw [if_neg parity, if_neg parity]
    cases FecModeControl.parse payload with
    | error message => rfl
    | ok control =>
      simp only [handleModeControlLogged, FecDecoder.handleModeControlActor]
      cases decoder.fence.applyActor control with
      | none => rfl
      | some fence =>
        dsimp only
        by_cases shut : fence.windowFrom = 0
        · rw [if_pos shut, if_pos shut]
        · rw [if_neg shut, if_neg shut]
          rfl

end Log

section Horizon

variable {expected : Nat} {decoder : FecDecoder}

structure Retained (expected : Nat) (decoder : FecDecoder) : Prop where
  size : 2 ≤ decoder.k
  bounded : Bounded decoder.k decoder
  passed : decoder.retiredBefore ≤ expected
  pending : AllStarts (fun start => GroupStart decoder.k start ∧ decoder.retiredBefore ≤ start)
    decoder.inner.groups

variable {before after : FecDecoder}

theorem Retained.mono {later : Nat} (retained : Retained expected decoder)
    (ahead : expected ≤ later) : Retained later decoder :=
  ⟨retained.size, retained.bounded, Nat.le_trans retained.passed ahead, retained.pending⟩

/-- What a call leaves: retirement in order, a horizon that did not move back, and
drops that lie below `expected` with their whole group. -/
structure Settles (expected : Nat) (before after : FecDecoder) (drops : List Drop) : Prop where
  retained : Retained expected after
  size : after.k = before.k
  forward : before.retiredBefore ≤ after.retiredBefore
  harmless : ∀ drop ∈ drops, drop.start + before.k ≤ expected

theorem Settles.refl (retained : Retained expected decoder) : Settles expected decoder decoder [] :=
  ⟨retained, rfl, Nat.le_refl _, by nofun⟩

theorem Settles.trans {middle : FecDecoder} {first second : List Drop}
    (start : Settles expected before middle first) (rest : Settles expected middle after second) :
    Settles expected before after (first ++ second) := by
  refine ⟨rest.retained, rest.size.trans start.size, Nat.le_trans start.forward rest.forward, ?_⟩
  intro drop present
  rcases List.mem_append.mp present with early | late
  · exact start.harmless drop early
  · rw [← start.size]
    exact rest.harmless drop late

theorem Settles.inner {drops : List Drop} (settles : Settles expected before after drops)
    (inner : FecDecoderInner)
    (pending : AllStarts (fun start => GroupStart after.k start ∧ after.retiredBefore ≤ start)
      inner.groups) : Settles expected before { after with inner := inner } drops :=
  ⟨⟨settles.retained.size, settles.retained.bounded.inner inner, settles.retained.passed, pending⟩,
    settles.size, settles.forward, settles.harmless⟩

theorem eraseAll_gone (groups : Groups) (doomed : List Nat) :
    AllStarts (fun start => start ∉ doomed ∧ start ∈ groups) (eraseAll groups doomed) := by
  induction doomed generalizing groups with
  | nil =>
    intro start group found
    exact ⟨List.not_mem_nil, AList.lookup_isSome.mp (Option.isSome_of_eq_some found)⟩
  | cons gone rest ih =>
    intro start group found
    obtain ⟨spared, left⟩ := ih (groups.erase gone) start group found
    obtain ⟨apart, there⟩ := AList.mem_erase.mp left
    exact ⟨fun member => (List.mem_cons.mp member).elim apart spared, there⟩

section

variable (retained : Retained expected decoder)

include retained

theorem sweepLogged_settles :
    Settles expected decoder (sweepLogged decoder expected).1 (sweepLogged decoder expected).2 := by
  have bounded := retained.bounded.maybeRetire (some expected)
  have swept := maybeRetire_swept decoder (some expected)
  simp only [sweepLogged, maybeRetireOldGroupsActor_eq]
  generalize decoder.maybeRetireOldGroupsLocked (some expected) = after at bounded swept ⊢
  cases swept with
  | idle early =>
    refine ⟨retained, rfl, Nat.le_refl _, ?_⟩
    intro drop present
    obtain ⟨start, listed, rfl⟩ := List.mem_map.mp present
    obtain ⟨key, absent⟩ := List.mem_filter.mp listed
    have there := AList.lookup_isSome.mpr (AList.mem_keys.mpr key)
    rw [Option.isNone_iff_eq_none.mp absent] at there
    cases there
  | retired moved given fresh passed =>
    cases given
    have aligned := retained.bounded.cleanup.resolve_left (by omega)
    refine ⟨⟨retained.size, bounded, passed, ?_⟩, rfl, Nat.le_of_lt fresh, ?_⟩
    · intro start group found
      have old := (retained.pending.eraseAll _) start group found
      refine ⟨old.1, ?_⟩
      -- a start below the boundary was among the doomed
      obtain ⟨spared, there⟩ := eraseAll_gone _ _ start group found
      by_contra below
      exact spared (List.mem_filter.mpr
        ⟨AList.mem_keys.mp there, decide_eq_true (Nat.lt_of_not_le below)⟩)
    · intro drop present
      obtain ⟨start, listed, rfl⟩ := List.mem_map.mp present
      obtain ⟨key, absent⟩ := List.mem_filter.mp listed
      obtain ⟨group, found⟩ := Option.isSome_iff_exists.mp
        (AList.lookup_isSome.mpr (AList.mem_keys.mpr key))
      have own := (retained.pending start group found).1
      have below : start < decoder.cleanupBefore := by
        by_contra spared
        have kept := lookup_eraseAll decoder.inner.groups (decoder.inner.groups.keys.filter
          fun start => start < decoder.cleanupBefore) start
          (fun doomed => spared (of_decide_eq_true (List.mem_filter.mp doomed).2))
        rw [Option.isNone_iff_eq_none.mp absent, found] at kept
        cases kept
      have := own.next aligned below
      simp only [Drop.start]
      omega

theorem onDataLogged_settles (seq : Nat) (frame : Bytes) :
    Settles expected decoder (onDataLogged decoder seq frame expected).1.1
      (onDataLogged decoder seq frame expected).2 := by
  unfold onDataLogged
  by_cases why : frame = [] ∨ seq = 0 ∨ decoder.staticSingle = true
  · rw [if_pos why]
    exact .refl retained
  rw [if_neg why]
  have number : 1 ≤ seq := Nat.one_le_iff_ne_zero.mpr fun zero => why (.inr (.inl zero))
  by_cases fenced : decoder.fence.bypassData seq = true
  · rw [if_pos fenced]
    by_cases due : seq % 256 = 0
    · rw [if_pos due]
      exact sweepLogged_settles retained
    · rw [if_neg due]
      exact .refl retained
  rw [if_neg fenced]
  have own := (groupStartOf_aligned retained.size number).1
  have same := retained.bounded.retired.lt_iff retained.size number
  by_cases old : decoder.retiredBefore ≠ 0 ∧ seq < decoder.retiredBefore
  · rw [if_pos old]
    refine ⟨retained, rfl, Nat.le_refl _, ?_⟩
    intro drop present
    cases List.mem_singleton.mp present
    have whole := own.next (retained.bounded.retired.resolve_left old.1) (same.mp old.2)
    have passed := retained.passed
    simp only [Drop.start]
    omega
  · rw [if_neg old, onDataActor_eq]
    have above : decoder.retiredBefore ≤ groupStartOf decoder.k seq := by
      have := own.1
      omega
    simp only [FecDecoder.onData, if_neg why, if_neg fenced, if_neg old]
    exact (Settles.refl retained).inner _
      (onDataLocked_starts _ _ _ _ _ retained.pending ⟨own, above⟩)

theorem onParityLogged_settles (payload : Bytes) :
    Settles expected decoder (onParityLogged decoder payload expected).1.1
      (onParityLogged decoder payload expected).2 := by
  have swept := sweepLogged_settles retained
  unfold onParityLogged
  by_cases single : decoder.staticSingle = true
  · rw [if_pos single]
    exact .refl retained
  rw [if_neg single]
  cases header : parityHeader decoder.k payload with
  | error message => exact .refl retained
  | ok start =>
    dsimp only
    generalize sweepLogged decoder expected = cleaned at swept ⊢
    obtain ⟨cleaned, drops⟩ := cleaned
    have aligned : GroupStart cleaned.k start := by
      rw [swept.size]
      exact parityHeader_boundary payload start header
    dsimp only at swept ⊢
    by_cases old : cleaned.retiredBefore ≠ 0 ∧ start < cleaned.retiredBefore
    · rw [if_pos old]
      refine swept.trans ⟨swept.retained, rfl, Nat.le_refl _, ?_⟩
      intro drop present
      cases List.mem_singleton.mp present
      have whole := aligned.next (swept.retained.bounded.retired.resolve_left old.1) old.2
      have passed := swept.retained.passed
      simp only [Drop.start]
      omega
    rw [if_neg old]
    have above : cleaned.retiredBefore ≤ start := by
      have := aligned.1
      omega
    cases readParity cleaned.ic cleaned.k payload start with
    | error message => exact swept
    | ok parity =>
      obtain ⟨lens, body⟩ := parity
      dsimp only
      by_cases done : isDone cleaned.inner.done start cleaned.k = true
      · rw [if_pos done]
        exact swept
      rw [if_neg done]
      have stored := storeParity_starts cleaned.inner cleaned.k start lens body
        swept.retained.pending ⟨aligned, above⟩
      generalize storeParity cleaned.inner cleaned.k start lens body = result at stored ⊢
      obtain ⟨inner, out⟩ := result
      have changed := swept.inner inner stored
      cases out with
      | none => exact changed
      | some frames => exact changed.trans (sweepLogged_settles changed.retained)

end

def AlignedMode (k : Nat) (payload : Bytes) : Prop :=
  match FecModeControl.parse payload with
  | .ok control => GroupStart k control.boundary
  | .error _ => True

theorem handleModeControlLogged_settles (retained : Retained expected decoder)
    (control : FecModeControl) (aligned : GroupStart decoder.k control.boundary) :
    Settles expected decoder (handleModeControlLogged decoder control expected).1
      (handleModeControlLogged decoder control expected).2 := by
  unfold handleModeControlLogged
  rw [FecRxFenceState.applyActor_eq]
  cases applied : decoder.fence.apply control with
  | none => exact .refl retained
  | some fence =>
    obtain ⟨opened, closed⟩ := retained.bounded.window aligned applied
    dsimp only
    by_cases shut : fence.windowFrom = 0
    · rw [if_pos shut]
      exact ⟨⟨retained.size, ⟨rfl, opened, closed, retained.bounded.cleanup,
        retained.bounded.retired⟩, retained.passed, retained.pending⟩, rfl, Nat.le_refl _, by nofun⟩
    · rw [if_neg shut]
      have boundary := cleanup_boundary retained.bounded.cleanup (opened.resolve_left shut)
      have fenced : Retained expected (decoder.fenced fence) := by
        refine ⟨retained.size, ⟨rfl, opened, closed, .inr boundary, retained.bounded.retired⟩,
          retained.passed, ?_⟩
        simp only [FecDecoder.fenced, dropGroupsInRange, if_neg shut]
        exact retained.pending.eraseAll _
      have settles := sweepLogged_settles fenced
      exact ⟨settles.retained, settles.size, settles.forward, settles.harmless⟩

theorem onControlLogged_settles (retained : Retained expected decoder) (payload : Bytes)
    (aligned : AlignedMode decoder.k payload) :
    Settles expected decoder (onControlLogged decoder payload expected).1.1
      (onControlLogged decoder payload expected).2 := by
  unfold onControlLogged
  cases controlKind payload with
  | error message => exact .refl retained
  | ok kind =>
    dsimp only
    by_cases parity : kind = controlKindFecParity
    · rw [if_pos parity]
      exact onParityLogged_settles retained payload
    rw [if_neg parity]
    unfold AlignedMode at aligned
    cases parsed : FecModeControl.parse payload with
    | error message => exact .refl retained
    | ok control =>
      rw [parsed] at aligned
      exact handleModeControlLogged_settles retained control aligned

end Horizon

section Items

variable {high : Nat} {state : RxActorState}

def RxActorState.itemDrops (state : RxActorState) (item : RxFrame) : List Drop :=
  match state.fec with
  | none => []
  | some decoder =>
    if item.1 = 0 then (onControlLogged decoder item.2 state.reorder.expectedSeq).2
    else (onDataLogged decoder item.1 item.2 state.reorder.expectedSeq).2

def RxActorState.retiredBefore (state : RxActorState) : Nat :=
  match state.fec with
  | none => 0
  | some decoder => decoder.retiredBefore

def Lawful (high : Nat) (size : Option Nat) (item : RxFrame) : Prop :=
  Fits 1 high size item ∧ (item.1 = 0 → ∀ k ∈ size, AlignedMode k item.2)

structure Kept (high : Nat) (state : RxActorState) : Prop where
  sane : Sane 1 high (state.fec.map FecDecoder.k) state
  history : ∃ accepted delivered, History 1 high state.reorder accepted delivered
  retained : ∀ decoder, state.fec = some decoder → Retained state.reorder.expectedSeq decoder

theorem processItem_fec (state : RxActorState) (clock : Nat → Nat) (item : RxFrame) :
    (processItem state clock item).1.fec = state.fec.map fun decoder =>
      if item.1 = 0 then (onControlLogged decoder item.2 state.reorder.expectedSeq).1.1
      else (onDataLogged decoder item.1 item.2 state.reorder.expectedSeq).1.1 := by
  unfold processItem
  by_cases zero : item.1 = 0
  · simp only [if_pos zero, onControlLogged_fst]
    cases present : state.fec with
    | none => exact present
    | some decoder =>
      dsimp only [Option.map_some]
      cases (decoder.onControlActor item.2 state.reorder.expectedSeq).2 <;> rfl
  · simp only [if_neg zero, onDataLogged_fst, Option.map_map]
    rfl

structure Handled (high : Nat) (before after : RxActorState) (drops : List Drop) : Prop where
  kept : Kept high after
  size : after.fec.map FecDecoder.k = before.fec.map FecDecoder.k
  forward : before.retiredBefore ≤ after.retiredBefore
  harmless : ∀ drop ∈ drops, ∀ decoder, before.fec = some decoder →
    drop.start + decoder.k ≤ before.reorder.expectedSeq

theorem processItem_handled (kept : Kept high state) (span : Span 1 high) (clock : Nat → Nat)
    (item : RxFrame) (lawful : Lawful high (state.fec.map FecDecoder.k) item) :
    Handled high state (processItem state clock item).1 (state.itemDrops item) := by
  obtain ⟨accepted, delivered, history⟩ := kept.history
  obtain ⟨sane, entries, inside, reorder, _⟩ :=
    processItem_placed state clock item span.last lawful.1 kept.sane
  obtain ⟨stored, whole⟩ := insertAll_history span clock entries inside history
  have ahead := insertAll_forward span clock entries inside history
  rw [← reorder] at whole ahead
  have decoders := processItem_fec state clock item
  generalize processItem state clock item = result at sane whole ahead decoders ⊢
  have size := sane.size
  cases present : state.fec with
  | none =>
    rw [present] at decoders
    refine ⟨⟨size ▸ sane, ⟨_, _, whole⟩, ?_⟩, size.trans (by rw [present]), ?_, ?_⟩
    · intro decoder there
      cases decoders.symm.trans there
    · simp only [RxActorState.retiredBefore, present]
      exact Nat.zero_le _
    · simp only [RxActorState.itemDrops, present]
      nofun
  | some decoder =>
    have settles : Settles state.reorder.expectedSeq decoder
        (if item.1 = 0 then (onControlLogged decoder item.2 state.reorder.expectedSeq).1.1
          else (onDataLogged decoder item.1 item.2 state.reorder.expectedSeq).1.1)
        (state.itemDrops item) := by
      have retained := kept.retained decoder present
      simp only [RxActorState.itemDrops, present]
      by_cases zero : item.1 = 0
      · rw [if_pos zero, if_pos zero]
        exact onControlLogged_settles retained item.2
          (lawful.2 zero decoder.k (by rw [present]; rfl))
      · rw [if_neg zero, if_neg zero]
        exact onDataLogged_settles retained item.1 item.2
    rw [present, Option.map_some] at decoders
    generalize (if item.1 = 0 then (onControlLogged decoder item.2
        state.reorder.expectedSeq).1.1
      else (onDataLogged decoder item.1 item.2 state.reorder.expectedSeq).1.1) = after
      at decoders settles
    refine ⟨⟨size ▸ sane, ⟨_, _, whole⟩, ?_⟩, size.trans (by rw [present]), ?_, ?_⟩
    · intro other there
      cases decoders.symm.trans there
      exact settles.retained.mono ahead
    · simp only [RxActorState.retiredBefore, present, decoders]
      exact settles.forward
    · intro drop dropped other same
      cases present.symm.trans same
      exact settles.harmless drop dropped

def batchDrops (clock : Nat → Nat) : RxActorState → List RxFrame → List (RxActorState × Drop)
  | _, [] => []
  | state, item :: rest =>
    let first := processItem state clock item
    (state.itemDrops item).map (fun drop => (state, drop)) ++
      match first.2.2 with
      | some _ => []
      | none => batchDrops clock first.1 rest

def Harmless (entry : RxActorState × Drop) : Prop :=
  ∀ decoder, entry.1.fec = some decoder → ∀ member < decoder.k,
    entry.2.start + member < entry.1.reorder.expectedSeq

theorem processItems_handled (kept : Kept high state) (span : Span 1 high) (clock : Nat → Nat)
    (items : List RxFrame)
    (lawful : ∀ item ∈ items, Lawful high (state.fec.map FecDecoder.k) item) :
    Handled high state (processItems clock state items).1 [] ∧
      ∀ entry ∈ batchDrops clock state items, Harmless entry := by
  induction items generalizing state with
  | nil => exact ⟨⟨kept, rfl, Nat.le_refl _, by nofun⟩, by nofun⟩
  | cons item rest ih =>
    have first := processItem_handled kept span clock item (lawful item List.mem_cons_self)
    have here : ∀ entry ∈ (state.itemDrops item).map (fun drop => (state, drop)),
        Harmless entry := by
      rintro _ listed decoder present member small
      obtain ⟨drop, dropped, rfl⟩ := List.mem_map.mp listed
      have := first.harmless drop dropped decoder present
      dsimp only
      omega
    simp only [processItems, batchDrops]
    cases (processItem state clock item).2.2 with
    | some message =>
      rw [List.append_nil]
      exact ⟨⟨first.kept, first.size, first.forward, by nofun⟩, here⟩
    | none =>
      obtain ⟨others, later⟩ := ih first.kept fun other present => by
        rw [first.size]
        exact lawful other (List.mem_cons_of_mem item present)
      refine ⟨⟨others.kept, others.size.trans first.size,
        Nat.le_trans first.forward others.forward, by nofun⟩, ?_⟩
      intro entry listed
      rcases List.mem_append.mp listed with now | soon
      · exact here entry now
      · exact later entry soon

end Items

section Actor

variable {high batchCap : Nat} {actor next : RxSessionActor}

def RxSessionActor.drops (actor : RxSessionActor) : Label → List (RxActorState × Drop)
  | .process index clock =>
    match actor.producers[index]? with
    | some producer =>
      if producer.generation ≠ actor.state.generation then []
      else batchDrops clock actor.state producer.batch
    | none => []
  | _ => []

/-- Pushes of the current generation are lawful, and a new decoder has a group size as
`FecDecoder::new` clamps it. -/
def Ordinary (high : Nat) (actor : RxSessionActor) : Label → Prop
  | .push index seq data =>
    match actor.producers[index]? with
    | some producer => producer.generation = actor.state.generation →
        Lawful high (actor.state.fec.map FecDecoder.k) (seq, data)
    | none => True
  | .reconfigure fec => ∀ decoder ∈ fec, clampFecGroup decoder.k = decoder.k
  | _ => True

instance decidableAlignedMode (k : Nat) (payload : Bytes) : Decidable (AlignedMode k payload) := by
  unfold AlignedMode
  exact match FecModeControl.parse payload with
    | .ok _ => inferInstance
    | .error _ => inferInstance

instance decidableLawful (high : Nat) (size : Option Nat) (item : RxFrame) :
    Decidable (Lawful high size item) := by
  unfold Lawful
  exact inferInstance

instance decidableOrdinary (high : Nat) (actor : RxSessionActor) :
    ∀ label, Decidable (Ordinary high actor label)
  | .push index seq data => by
    dsimp only [Ordinary]
    exact match actor.producers[index]? with
      | some _ => inferInstance
      | none => inferInstance
  | .reconfigure fec => by
    dsimp only [Ordinary]
    exact inferInstance
  | .produce | .process _ _ | .deliver _ | .takeError _ | .timeout _ | .deliverTimeout
  | .install => .isTrue trivial

def Awaited (actor : RxSessionActor) : Prop :=
  match actor.control with
  | none => True
  | some (generation, fec) =>
    (∀ producer ∈ actor.producers, producer.generation < generation) ∧
      generation = actor.generation ∧ ∀ decoder ∈ fec, clampFecGroup decoder.k = decoder.k

structure Tidy (high : Nat) (actor : RxSessionActor) : Prop where
  kept : Kept high actor.state
  young : ∀ producer ∈ actor.producers, producer.generation ≤ actor.generation
  lawful : ∀ producer ∈ actor.producers, producer.generation = actor.state.generation →
    ∀ item ∈ producer.batch, Lawful high (actor.state.fec.map FecDecoder.k) item
  awaited : Awaited actor

theorem fresh_kept {fec : Option FecDecoder} {reorder : ReorderBuffer} {state : RxActorState}
    (decoders : state.fec = fec) (buffer : state.reorder = reorder)
    (history : History 1 high reorder [] [])
    (made : ∀ decoder ∈ fec, ∃ other : FecDecoder,
      decoder = other.reset ∧ clampFecGroup other.k = other.k) : Kept high state := by
  subst decoders buffer
  refine ⟨⟨rfl, ?_⟩, ⟨[], [], history⟩, ?_⟩
  · intro decoder present
    obtain ⟨other, rfl, _⟩ := made decoder present
    exact allGroups_empty
  · intro decoder present
    obtain ⟨other, rfl, size⟩ := made decoder present
    have least := clampFecGroup_least other.k
    rw [size] at least
    exact ⟨least, ⟨rfl, .inl rfl, .inl rfl, .inl rfl, .inl rfl⟩, Nat.zero_le _, allGroups_empty⟩

theorem new_tidy (initial : Option (Nat × Option InnerCipher)) :
    Tidy high (RxSessionActor.new (initialFec initial)) := by
  refine ⟨fresh_kept rfl rfl (fresh_history _ Fresh.new) ?_, by nofun, by nofun, trivial⟩
  intro decoder present
  cases initial with
  | none => cases present
  | some spec =>
    cases present
    exact ⟨FecDecoder.new spec.1 spec.2, rfl, clampFecGroup_twice spec.1⟩

section

variable (tidy : Tidy high actor)

include tidy

theorem Tidy.traffic (same : SameGenerations actor next) (kept : Kept high next.state)
    (lawful : ∀ producer ∈ next.producers, producer.generation = next.state.generation →
      ∀ item ∈ producer.batch, Lawful high (next.state.fec.map FecDecoder.k) item) :
    Tidy high next := by
  have older : ∀ producer ∈ next.producers, ∃ old ∈ actor.producers,
      old.generation = producer.generation := by
    intro producer present
    have listed := List.mem_map_of_mem (f := RxProducer.generation) present
    rw [same.producers] at listed
    exact List.mem_map.mp listed
  refine ⟨kept, ?_, lawful, ?_⟩
  · intro producer present
    obtain ⟨old, there, equal⟩ := older producer present
    rw [same.generation, ← equal]
    exact tidy.young old there
  · have awaited := tidy.awaited
    unfold Awaited at awaited ⊢
    rw [same.control, same.generation]
    generalize actor.control = control at awaited ⊢
    cases control with
    | none => trivial
    | some waiting =>
      obtain ⟨newest, current, made⟩ := awaited
      refine ⟨?_, current, made⟩
      intro producer present
      obtain ⟨old, there, equal⟩ := older producer present
      rw [← equal]
      exact newest old there

theorem push_tidy (index seq : Nat) (data : Bytes)
    (ordinary : Ordinary high actor (.push index seq data))
    (taken : actor.step batchCap (.push index seq data) = some next) :
    Tidy high next ∧ next.state = actor.state := by
  have same := traffic_generations rfl taken
  cases stepped_of_step taken with
  | refuse => exact ⟨tidy, rfl⟩
  | push found =>
    simp only [Ordinary, found] at ordinary
    refine ⟨tidy.traffic same tidy.kept (forall_mem_set tidy.lawful index _ fun current => ?_), rfl⟩
    exact forall_mem_concat (tidy.lawful _ (List.mem_of_getElem? found) current) (ordinary current)

theorem process_tidy (span : Span 1 high) (index : Nat) (clock : Nat → Nat)
    (taken : actor.step batchCap (.process index clock) = some next) :
    Tidy high next ∧ (∀ entry ∈ actor.drops (.process index clock), Harmless entry) ∧
      actor.state.retiredBefore ≤ next.state.retiredBefore := by
  have same := traffic_generations rfl taken
  cases stepped_of_step taken with
  | @process _ _ producer found =>
    simp only [RxSessionActor.drops, found]
    -- a stale batch changes nothing, a current one is handled item by item
    have handled : Handled high actor.state
        (processBatch actor.state producer.generation producer.batch clock).1 [] ∧
        ∀ entry ∈ if producer.generation ≠ actor.state.generation then []
          else batchDrops clock actor.state producer.batch, Harmless entry := by
      unfold processBatch
      by_cases stale : producer.generation ≠ actor.state.generation
      · rw [if_pos stale, if_pos stale]
        exact ⟨⟨tidy.kept, rfl, Nat.le_refl _, List.forall_mem_nil _⟩, List.forall_mem_nil _⟩
      · rw [if_neg stale, if_neg stale]
        exact processItems_handled tidy.kept span clock producer.batch
          (tidy.lawful producer (List.mem_of_getElem? found) (not_not.mp stale))
    refine ⟨tidy.traffic same handled.1.kept ?_, handled.2, handled.1.forward⟩
    have sizes : (actor.process index producer clock).state.fec.map FecDecoder.k =
        actor.state.fec.map FecDecoder.k := handled.1.size
    rw [sizes, same.state]
    exact forall_mem_set tidy.lawful index _ (fun _ => List.forall_mem_nil _)

theorem timeout_tidy (span : Span 1 high) (now : Nat)
    (taken : actor.step batchCap (.timeout now) = some next) :
    Tidy high next ∧ next.state.fec = actor.state.fec := by
  have same := traffic_generations rfl taken
  cases stepped_of_step taken
  obtain ⟨accepted, delivered, history⟩ := tidy.kept.history
  have effect := flushTimeoutInto_effect actor.state.reorder history.settled history.based span now
  refine ⟨tidy.traffic same ⟨⟨rfl, tidy.kept.sane.groups⟩, ⟨_, _, history.extend effect⟩, ?_⟩
    tidy.lawful, rfl⟩
  intro decoder present
  exact (tidy.kept.retained decoder present).mono effect.forward

theorem Tidy.quiet (same : SameGenerations actor next) (state : next.state = actor.state)
    (batches : ∀ producer ∈ next.producers, ∃ old ∈ actor.producers,
      old.generation = producer.generation ∧ old.batch = producer.batch) : Tidy high next := by
  refine tidy.traffic same (state ▸ tidy.kept) ?_
  intro producer present current
  obtain ⟨old, there, generation, batch⟩ := batches producer present
  rw [state] at current ⊢
  rw [← batch]
  exact tidy.lawful old there (generation.trans current)

theorem deliver_tidy (index : Nat) (taken : actor.step batchCap (.deliver index) = some next) :
    Tidy high next ∧ next.state = actor.state := by
  have same := traffic_generations rfl taken
  cases stepped_of_step taken with
  | deliver found =>
    exact ⟨tidy.quiet same rfl (forall_mem_set (fun other present => ⟨other, present, rfl, rfl⟩)
      index _ ⟨_, List.mem_of_getElem? found, rfl, rfl⟩), rfl⟩

theorem takeError_tidy (index : Nat) (taken : actor.step batchCap (.takeError index) = some next) :
    Tidy high next ∧ next.state = actor.state := by
  have same := traffic_generations rfl taken
  cases stepped_of_step taken with
  | takeError found =>
    exact ⟨tidy.quiet same rfl (forall_mem_set (fun other present => ⟨other, present, rfl, rfl⟩)
      index _ ⟨_, List.mem_of_getElem? found, rfl, rfl⟩), rfl⟩

theorem install_tidy (taken : actor.step batchCap .install = some next) : Tidy high next := by
  have awaited := tidy.awaited
  cases stepped_of_step taken with
  | install busy =>
    rw [Awaited, busy] at awaited
    obtain ⟨newest, current, made⟩ := awaited
    obtain ⟨accepted, delivered, history⟩ := tidy.kept.history
    refine ⟨fresh_kept rfl rfl (cleared_history _ history.settled.shape.sized) ?_, tidy.young, ?_,
      trivial⟩
    · intro decoder present
      obtain ⟨other, there, rfl⟩ := Option.mem_map.mp present
      exact ⟨other, rfl, made other there⟩
    · intro producer present same
      exact absurd same (Nat.ne_of_lt (newest producer present))

theorem produce_tidy (taken : actor.step batchCap .produce = some next) :
    Tidy high next ∧ next.state = actor.state := by
  cases stepped_of_step taken with
  | produce idle =>
    exact ⟨⟨tidy.kept, forall_mem_concat tidy.young (Nat.le_refl _),
      forall_mem_concat tidy.lawful fun _ => List.forall_mem_nil _, by simp [Awaited, idle]⟩, rfl⟩

theorem reconfigure_tidy (fec : Option FecDecoder)
    (made : ∀ decoder ∈ fec, clampFecGroup decoder.k = decoder.k)
    (taken : actor.step batchCap (.reconfigure fec) = some next) :
    Tidy high next ∧ next.state = actor.state := by
  cases stepped_of_step taken
  refine ⟨⟨tidy.kept, ?_, tidy.lawful, ?_, rfl, made⟩, rfl⟩
  · exact fun producer present => Nat.le_succ_of_le (tidy.young producer present)
  · exact fun producer present => Nat.lt_succ_of_le (tidy.young producer present)

theorem step_tidy (span : Span 1 high) (label : Label) (ordinary : Ordinary high actor label)
    (taken : actor.step batchCap label = some next) :
    Tidy high next ∧ (∀ entry ∈ actor.drops label, Harmless entry) ∧
      (label ≠ .install → actor.state.retiredBefore ≤ next.state.retiredBefore) := by
  -- all steps but a batch leave the decoder as it is
  have still : Tidy high next ∧ next.state.fec = actor.state.fec →
      Tidy high next ∧ actor.state.retiredBefore ≤ next.state.retiredBefore := by
    rintro ⟨after, same⟩
    refine ⟨after, ?_⟩
    unfold RxActorState.retiredBefore
    rw [same]
  have fixed : Tidy high next ∧ next.state = actor.state →
      Tidy high next ∧ actor.state.retiredBefore ≤ next.state.retiredBefore :=
    fun ⟨after, same⟩ => still ⟨after, congrArg RxActorState.fec same⟩
  cases label with
  | produce =>
    obtain ⟨after, forward⟩ := fixed (produce_tidy tidy taken)
    exact ⟨after, List.forall_mem_nil _, fun _ => forward⟩
  | push index seq data =>
    obtain ⟨after, forward⟩ := fixed (push_tidy tidy index seq data ordinary taken)
    exact ⟨after, List.forall_mem_nil _, fun _ => forward⟩
  | process index clock =>
    obtain ⟨after, harmless, forward⟩ := process_tidy tidy span index clock taken
    exact ⟨after, harmless, fun _ => forward⟩
  | deliver index =>
    obtain ⟨after, forward⟩ := fixed (deliver_tidy tidy index taken)
    exact ⟨after, List.forall_mem_nil _, fun _ => forward⟩
  | takeError index =>
    obtain ⟨after, forward⟩ := fixed (takeError_tidy tidy index taken)
    exact ⟨after, List.forall_mem_nil _, fun _ => forward⟩
  | timeout now =>
    obtain ⟨after, forward⟩ := still (timeout_tidy tidy span now taken)
    exact ⟨after, List.forall_mem_nil _, fun _ => forward⟩
  | deliverTimeout =>
    have same := traffic_generations rfl taken
    cases stepped_of_step taken
    exact ⟨tidy.quiet same rfl fun producer present => ⟨producer, present, rfl, rfl⟩,
      List.forall_mem_nil _, fun _ => Nat.le_refl _⟩
  | reconfigure fec =>
    obtain ⟨after, forward⟩ := fixed (reconfigure_tidy tidy fec ordinary taken)
    exact ⟨after, List.forall_mem_nil _, fun _ => forward⟩
  | install => exact ⟨install_tidy tidy taken, List.forall_mem_nil _, fun other => absurd rfl other⟩

end

/-- Retirement does no harm and is final: at every step of every run, what is dropped
below the horizon has been passed by the reorder buffer with its whole group, no
pending group starts below the horizon, and only a new generation moves it back. -/
theorem retirement_harmless_final (batchCap : Nat) (initial : Option (Nat × Option InnerCipher))
    (labels : List Label) (label : Label) (actor next : RxSessionActor)
    (reached : Runs.run (RxSessionActor.step batchCap)
      (RxSessionActor.new (initialFec initial)) labels = some actor)
    (guarded : Runs.Along (RxSessionActor.step batchCap) (Ordinary (u32Max - 65537))
      (RxSessionActor.new (initialFec initial)) (labels ++ [label]))
    (taken : actor.step batchCap label = some next) :
    (∀ entry ∈ actor.drops label, Harmless entry) ∧
      (∀ decoder, next.state.fec = some decoder →
        AllStarts (fun start => decoder.retiredBefore ≤ start) decoder.inner.groups) ∧
      (label ≠ .install → actor.state.retiredBefore ≤ next.state.retiredBefore) := by
  have span : Span 1 (u32Max - 65537) := ⟨Nat.le_refl _, by decide, by decide⟩
  obtain ⟨before, last⟩ := Runs.along_append reached guarded
  have tidy := Runs.invariant_along (RxSessionActor.step batchCap) (Ordinary (u32Max - 65537))
    (Tidy (u32Max - 65537))
    (fun _ label _ ordinary tidy taken => (step_tidy tidy span label ordinary taken).1)
    _ actor labels reached before (new_tidy initial)
  obtain ⟨after, harmless, forward⟩ := step_tidy tidy span label last.1 taken
  refine ⟨harmless, ?_, forward⟩
  intro decoder present start group found
  exact ((after.kept.retained decoder present).pending start group found).2

def skippedLabels : List Label :=
  [.produce, .push 0 1 [1], .push 0 0 (FecModeControl.encode ⟨1, fecModeSuspend, 3⟩),
    .process 0 (fun _ => 0), .deliver 0, .push 0 3 [3], .process 0 (fun _ => 0),
    .timeout 60000000, .deliverTimeout, .push 0 0 [controlKindFecParity, 0, 0, 0, 1, 2, 0]]

/-- The late parity of the first group makes the sweep that drops the group, and is
itself ignored. -/
theorem retirement_harmless_final_skipped : ∃ actor next,
    Runs.run (RxSessionActor.step 16) (RxSessionActor.new (initialFec (some (2, none))))
      skippedLabels = some actor ∧
    actor.step 16 (.process 0 fun _ => 0) = some next ∧
    (actor.drops (.process 0 fun _ => 0)).map Prod.snd = [.group 1, .record 1] ∧
    (∀ entry ∈ actor.drops (.process 0 fun _ => 0), Harmless entry) ∧
    actor.state.retiredBefore ≤ next.state.retiredBefore := by
  have evaluated : (Runs.run (RxSessionActor.step 16)
      (RxSessionActor.new (initialFec (some (2, none)))) skippedLabels).map (fun actor =>
        ((actor.step 16 (.process 0 fun _ => 0)).isSome,
          (actor.drops (.process 0 fun _ => 0)).map Prod.snd)) =
      some (true, [.group 1, .record 1]) := by decide +kernel
  obtain ⟨actor, reached, both⟩ := Option.map_eq_some_iff.mp evaluated
  obtain ⟨steps, dropped⟩ := Prod.mk.inj both
  obtain ⟨next, taken⟩ := Option.isSome_iff_exists.mp steps
  obtain ⟨harmless, _, forward⟩ := retirement_harmless_final 16 (some (2, none)) skippedLabels
    (.process 0 fun _ => 0) actor next reached (by decide +kernel) taken
  exact ⟨actor, next, reached, taken, dropped, harmless, forward (by rintro ⟨⟩)⟩

end Actor

end TlsVpn.RxActor

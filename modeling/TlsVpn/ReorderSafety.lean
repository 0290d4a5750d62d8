import TlsVpn.ReorderShape

/-!
Safety of whole runs of the reorder buffer. Each operation is first reduced to
an `Effect`: what it accepted, what it handed out, and how it moved
`expectedSeq`. The history invariant is then preserved by any effect at all, so
it does not depend on which operation produced it.

Sequence numbers are confined to a span `low..high` that keeps the signed
32-bit comparison and the wrap to 0 out of reach: `high` is not the last number
of the space, and no number of the span is within one maximal window of another
across the wrap.
-/

namespace TlsVpn.Reorder

open Words Runs

structure Span (low high : Nat) : Prop where
  positive : 1 ≤ low
  last : high < u32Max
  apart : high + 65537 ≤ low + 4294967296

structure Based (low high : Nat) (buffer : ReorderBuffer) : Prop where
  expectedSeq : buffer.expectedSeq = 0 ∨
    (low ≤ buffer.expectedSeq ∧ buffer.expectedSeq ≤ high + 1)
  held : ∀ seq frame, Occupied buffer seq frame → seq ≤ high

/-- One operation seen from outside. `accepted` are the frames it stored or
passed straight through, `out` the frames it delivered. -/
structure Effect (low high : Nat) (before after : ReorderBuffer)
    (accepted out : Delivered) : Prop where
  settled : Settled after
  based : Based low high after
  forward : before.expectedSeq ≤ after.expectedSeq
  ordered : out.Pairwise fun left right => left.1 < right.1
  window : ∀ entry ∈ out, before.expectedSeq ≤ entry.1 ∧ entry.1 < after.expectedSeq
  source : ∀ entry ∈ out, Occupied before entry.1 entry.2 ∨ entry ∈ accepted
  held : ∀ seq frame, Occupied after seq frame →
    Occupied before seq frame ∨ (seq, frame) ∈ accepted
  covered : ∀ seq frame, Occupied before seq frame ∨ (seq, frame) ∈ accepted →
    seq < after.expectedSeq ∨ Occupied after seq frame
  fresh : ∀ entry ∈ accepted, before.expectedSeq ≤ entry.1 ∧
    ∀ frame, ¬ Occupied before entry.1 frame
  distinct : (accepted.map Prod.fst).Nodup

variable {low high : Nat}
variable (buffer before staged : ReorderBuffer) (accepted : Delivered) (now : Nat)

theorem Settled.unlearned_vacant {buffer : ReorderBuffer} (settled : Settled buffer)
    (unlearned : buffer.expectedSeq = 0) (seq : Nat) (frame : Frame) :
    ¬ Occupied buffer seq frame := by
  intro held
  have stored := held.1
  rw [settled.unlearned unlearned] at stored
  cases stored

theorem learn_shape (settled : Settled buffer) (seq : Nat) : Shape (learn buffer seq) := by
  unfold learn
  by_cases unlearned : buffer.expectedSeq = 0
  · rw [if_pos unlearned]
    refine ⟨settled.shape.sized, settled.shape.bits, settled.shape.outside, ?_⟩
    intro index frame stored
    simp [settled.unlearned unlearned] at stored
  · rw [if_neg unlearned]
    exact settled.shape

theorem learn_occupied (seq other : Nat) (frame : Frame) :
    Occupied (learn buffer seq) other frame ↔ Occupied buffer other frame := by
  unfold learn
  split <;> rfl

theorem learn_open (settled : Settled buffer) (seq : Nat) :
    (learn buffer seq).ring ((learn buffer seq).expectedSeq % (learn buffer seq).size) = none := by
  unfold learn
  by_cases unlearned : buffer.expectedSeq = 0
  · rw [if_pos unlearned]
    exact settled.unlearned unlearned _
  · rw [if_neg unlearned]
    exact settled.open_

theorem learn_forward (seq : Nat) : buffer.expectedSeq ≤ (learn buffer seq).expectedSeq := by
  unfold learn
  by_cases unlearned : buffer.expectedSeq = 0
  · rw [unlearned]
    exact Nat.zero_le _
  · rw [if_neg unlearned]

theorem learn_based (based : Based low high buffer) (seq : Nat) (span : Span low high)
    (above : low ≤ seq) (below : seq ≤ high) :
    Based low high (learn buffer seq) ∧ (learn buffer seq).expectedSeq ≠ 0 := by
  have positive := span.positive
  unfold learn
  by_cases unlearned : buffer.expectedSeq = 0
  · rw [if_pos unlearned]
    refine ⟨⟨Or.inr ⟨above, ?_⟩, based.held⟩, ?_⟩
    · change seq ≤ high + 1
      omega
    · change seq ≠ 0
      omega
  · rw [if_neg unlearned]
    exact ⟨based, unlearned⟩

theorem learn_nonzero (seq : Nat) (number : seq ≠ 0) : (learn buffer seq).expectedSeq ≠ 0 := by
  unfold learn
  by_cases unlearned : buffer.expectedSeq = 0
  · rw [if_pos unlearned]
    exact number
  · rw [if_neg unlearned]
    exact unlearned

/-- Both refusals of `insert_into`, the sign test and the window test, come to
one comparison unless the number is within a maximal window across the wrap. -/
theorem room_iff (sized : Sized buffer) (seq : Nat) (base : buffer.expectedSeq ≤ u32Max)
    (below : seq ≤ u32Max) (apart : buffer.expectedSeq + reorderMaxWindow ≤ seq + 4294967296) :
    (¬ asI32 (wrappingSub seq buffer.expectedSeq) < 0 ∧
      makeRoom buffer (asI32 (wrappingSub seq buffer.expectedSeq)).toNat ≠ none) →
    buffer.expectedSeq ≤ seq ∧ seq < buffer.expectedSeq + reorderMaxWindow ∧
      (asI32 (wrappingSub seq buffer.expectedSeq)).toNat = seq - buffer.expectedSeq := by
  rintro ⟨nonneg, room⟩
  have bounded : wrappingSub seq buffer.expectedSeq ≤ u32Max := by
    unfold wrappingSub u32Max
    omega
  have distance := asI32_nonneg _ nonneg bounded
  rw [distance] at room ⊢
  have near : wrappingSub seq buffer.expectedSeq < reorderMaxWindow := by
    by_contra far
    exact room (makeRoom_far buffer sized _ (by omega))
  rcases Nat.lt_or_ge seq buffer.expectedSeq with behind | ahead
  · rw [wrappingSub_wrapped seq buffer.expectedSeq behind base] at near
    omega
  · rw [wrappingSub_ordered seq buffer.expectedSeq ahead below] at near ⊢
    exact ⟨ahead, by omega, rfl⟩

structure Refused (before after : ReorderBuffer) : Prop where
  shape : Shape after
  expectedSeq : after.expectedSeq = before.expectedSeq
  gap : after.gapSince = before.gapSince
  held : ∀ seq frame, Occupied after seq frame ↔ Occupied before seq frame

structure Stored (before after : ReorderBuffer) (seq : Nat) (frame : Frame) : Prop where
  shape : Shape after
  expectedSeq : after.expectedSeq = before.expectedSeq
  ahead : before.expectedSeq ≤ seq
  vacant : ∀ other, ¬ Occupied before seq other
  held : ∀ other content, Occupied after other content ↔
    Occupied before other content ∨ (other = seq ∧ content = frame)

theorem admitFrame_spec (shape : Shape buffer) (base : buffer.expectedSeq ≤ u32Max) (seq : Nat)
    (frame : Frame) (below : seq ≤ u32Max)
    (apart : buffer.expectedSeq + reorderMaxWindow ≤ seq + 4294967296) :
    ((admitFrame buffer seq frame).2 = false ∧ Refused buffer (admitFrame buffer seq frame).1) ∨
    ((admitFrame buffer seq frame).2 = true ∧ Stored buffer (admitFrame buffer seq frame).1 seq frame) := by
  have unchanged : Refused buffer buffer := ⟨shape, rfl, rfl, fun _ _ => Iff.rfl⟩
  have room := room_iff buffer shape.sized seq base below apart
  unfold admitFrame
  generalize asI32 (wrappingSub seq buffer.expectedSeq) = diff at room ⊢
  by_cases old : diff < 0
  · left
    simp only [if_pos old]
    exact ⟨trivial, unchanged⟩
  · simp only [if_neg old]
    cases grown : makeRoom buffer diff.toNat with
    | none =>
      left
      exact ⟨rfl, unchanged⟩
    | some roomy =>
      obtain ⟨ahead, near, distance⟩ := room ⟨old, by rw [grown]; simp⟩
      obtain ⟨other, same, regrown, fits⟩ := makeRoom_near buffer shape
        (seq - buffer.expectedSeq) (by omega)
      rw [distance, same] at grown
      cases grown
      have number : roomy.expectedSeq = buffer.expectedSeq := regrown.expectedSeq
      simp only [regrown.shape.sized.slotOf_eq]
      cases stored : roomy.ring (seq % roomy.size) with
      | some content =>
        left
        exact ⟨rfl, regrown.shape, number, regrown.gap, regrown.held⟩
      | none =>
        right
        refine ⟨rfl, storeFrame_shape roomy regrown.shape seq frame (by omega) (by omega),
          number, ahead, ?_, ?_⟩
        · intro other held
          have ring := ((regrown.held seq other).mpr held).1
          rw [stored] at ring
          cases ring
        · intro other content
          rw [← regrown.held]
          exact storeFrame_occupied roomy regrown.shape seq frame stored other content

theorem Shape.stored_iff {buffer : ReorderBuffer} (shape : Shape buffer) :
    (∃ index, (buffer.ring index).isSome = true) ↔ ∃ seq frame, Occupied buffer seq frame := by
  constructor
  · rintro ⟨index, stored⟩
    obtain ⟨frame, held⟩ := Option.isSome_iff_exists.mp stored
    exact ⟨buffer.seqSlots index, frame, shape.occupied index frame held⟩
  · rintro ⟨seq, frame, held⟩
    exact ⟨seq % buffer.size, by rw [held.1]; rfl⟩

theorem Refused.settled {before after : ReorderBuffer} {seq : Nat} (settled : Settled before)
    (number : seq ≠ 0) (refused : Refused (learn before seq) after) : Settled after := by
  have same : ∀ other frame, Occupied after other frame ↔ Occupied before other frame := by
    intro other frame
    rw [refused.held, learn_occupied]
  have size := refused.shape.sized.size_pos
  have gapSame : (learn before seq).gapSince = before.gapSince := by
    unfold learn
    split <;> rfl
  refine ⟨refused.shape, ?_, ?_, ?_⟩
  · rw [refused.shape.vacant_iff _ (Nat.le_refl _) (by omega), refused.expectedSeq]
    intro frame held
    have learnedShape := learn_shape before settled seq
    have open_ := learn_open before settled seq
    rw [learnedShape.vacant_iff _ (Nat.le_refl _)
      (Nat.lt_add_of_pos_right learnedShape.sized.size_pos)] at open_
    exact open_ frame ((refused.held _ frame).mp held)
  · intro unlearned
    exact absurd (refused.expectedSeq ▸ unlearned) (learn_nonzero before seq number)
  · rw [refused.gap, gapSame, settled.gap, settled.shape.stored_iff, refused.shape.stored_iff]
    simp only [same]

theorem Stored.open_ {buffer placed : ReorderBuffer} {seq : Nat} {frame : Frame}
    (settled : Settled buffer) (stored : Stored (learn buffer seq) placed seq frame)
    (ahead : seq ≠ placed.expectedSeq) : placed.ring (placed.expectedSeq % placed.size) = none := by
  have learnedShape := learn_shape buffer settled seq
  rw [stored.shape.vacant_iff _ (Nat.le_refl _)
    (Nat.lt_add_of_pos_right stored.shape.sized.size_pos), stored.expectedSeq]
  intro other held
  have open_ := learn_open buffer settled seq
  rw [learnedShape.vacant_iff _ (Nat.le_refl _)
    (Nat.lt_add_of_pos_right learnedShape.sized.size_pos)] at open_
  rcases (stored.held _ other).mp held with old | ⟨same, _⟩
  · exact open_ other old
  · exact ahead (by rw [stored.expectedSeq, same])

def acceptedBy (buffer : ReorderBuffer) (seq : Nat) (frame : Frame) : Delivered :=
  if seq ≠ 0 ∧ (place buffer seq frame).2 = true then [(seq, frame)] else []

/-- The two ends of `insert_into`: refused, or stored and then either flushed or
left waiting behind the gap. -/
theorem insertInto_cases (settled : Settled buffer) (seq : Nat) (frame : Frame) (now : Nat)
    (number : seq ≠ 0) (below : seq ≤ u32Max) (base : (learn buffer seq).expectedSeq ≤ u32Max)
    (apart : (learn buffer seq).expectedSeq + reorderMaxWindow ≤ seq + 4294967296) :
    (∃ after, insertInto buffer seq frame now = (after, []) ∧ acceptedBy buffer seq frame = [] ∧
      Refused (learn buffer seq) after) ∨
    ∃ placed, Stored (learn buffer seq) placed seq frame ∧
      acceptedBy buffer seq frame = [(seq, frame)] ∧
      insertInto buffer seq frame now = if seq = placed.expectedSeq then flushLockedInto placed now
        else (refreshGap placed now, []) := by
  have spec := admitFrame_spec (learn buffer seq) (learn_shape buffer settled seq) base seq frame
    below apart
  rw [← place] at spec
  obtain ⟨⟨placed, flag⟩, result⟩ : ∃ pair, place buffer seq frame = pair := ⟨_, rfl⟩
  simp only [insertInto, acceptedBy, if_neg number, result] at spec ⊢
  rcases spec with ⟨rejected, refused⟩ | ⟨taken, stored⟩
  · subst flag
    exact Or.inl ⟨placed, rfl, by simp, refused⟩
  · subst flag
    exact Or.inr ⟨placed, stored, by simp [number], rfl⟩

structure Staged (low high : Nat) (before staged : ReorderBuffer) (accepted : Delivered) :
    Prop where
  shape : Shape staged
  base : low ≤ staged.expectedSeq ∧ staged.expectedSeq ≤ high + 1
  forward : before.expectedSeq ≤ staged.expectedSeq
  held : ∀ seq frame, Occupied staged seq frame ↔
    Occupied before seq frame ∨ (seq, frame) ∈ accepted
  top : ∀ seq frame, Occupied staged seq frame → seq ≤ high
  fresh : ∀ entry ∈ accepted, before.expectedSeq ≤ entry.1 ∧
    ∀ frame, ¬ Occupied before entry.1 frame
  distinct : (accepted.map Prod.fst).Nodup

theorem refreshGap_expectedSeq : (refreshGap buffer now).expectedSeq = buffer.expectedSeq := by
  obtain ⟨_, _, same, _⟩ := refreshGap_cases buffer now
  rw [same]

theorem refreshGap_occupied (seq : Nat) (frame : Frame) :
    Occupied (refreshGap buffer now) seq frame ↔ Occupied buffer seq frame := by
  obtain ⟨_, _, same, _⟩ := refreshGap_cases buffer now
  rw [same]
  rfl

theorem refreshGap_effect (span : Span low high) (ready : Staged low high before staged accepted)
    (open_ : staged.ring (staged.expectedSeq % staged.size) = none) :
    Effect low high before (refreshGap staged now) accepted [] := by
  have positive := span.positive
  have base := ready.base
  refine ⟨refreshGap_settled staged now ready.shape open_ (by omega), ⟨?_, ?_⟩, ?_,
    List.Pairwise.nil, ?_, ?_, ?_, ?_, ready.fresh, ready.distinct⟩
  · rw [refreshGap_expectedSeq]
    exact Or.inr base
  · intro seq frame held
    exact ready.top seq frame ((refreshGap_occupied staged now seq frame).mp held)
  · rw [refreshGap_expectedSeq]
    exact ready.forward
  · intro entry member
    cases member
  · intro entry member
    cases member
  · intro seq frame held
    exact (ready.held seq frame).mp ((refreshGap_occupied staged now seq frame).mp held)
  · intro seq frame here
    right
    exact (refreshGap_occupied staged now seq frame).mpr ((ready.held seq frame).mpr here)

theorem flushLockedInto_flushed (shape : Shape staged)
    (top : ∀ seq frame, Occupied staged seq frame → seq ≤ high) (last : high < u32Max) :
    let cleared : ReorderBuffer := { staged with gapSince := none }
    Flushed cleared (flushLoop staged.size cleared).1 (flushLoop staged.size cleared).2 := by
  intro cleared
  apply flushLoop_stops staged.size (min (high + 1) (staged.expectedSeq + staged.size)) cleared
    ⟨shape.sized, shape.bits, shape.outside, shape.slots⟩
  · intro seq frame held
    have below := top seq frame held
    have window := (shape.occupied_window seq frame held).2
    omega
  · omega
  · exact Nat.min_le_right _ _

theorem flushLockedInto_effect (span : Span low high)
    (ready : Staged low high before staged accepted) :
    Effect low high before (flushLockedInto staged now).1 accepted
      (flushLockedInto staged now).2 := by
  have positive := span.positive
  have last := span.last
  have base := ready.base
  let cleared : ReorderBuffer := { staged with gapSince := none }
  have flushed : Flushed cleared (flushLoop staged.size cleared).1
      (flushLoop staged.size cleared).2 :=
    flushLockedInto_flushed staged ready.shape ready.top last
  let after := (flushLoop staged.size cleared).1
  let out := (flushLoop staged.size cleared).2
  change Effect low high before (refreshGap after now) accepted out
  have advance : staged.expectedSeq ≤ after.expectedSeq := flushed.advance
  have forward := ready.forward
  -- the loop cannot pass `high + 1`, since it only passes stored numbers
  have top : after.expectedSeq ≤ high + 1 := by
    by_contra beyond
    obtain ⟨frame, held, _⟩ := flushed.released (high + 1) base.2 (by change _ < after.expectedSeq; omega)
    have := ready.top (high + 1) frame held
    omega
  refine ⟨refreshGap_settled after now flushed.shape flushed.open_ (by omega), ⟨?_, ?_⟩, ?_,
    flushed.ordered, ?_, ?_, ?_, ?_, ready.fresh, ready.distinct⟩
  · rw [refreshGap_expectedSeq]
    right
    omega
  · intro seq frame held
    have kept := (flushed.kept seq frame).mp ((refreshGap_occupied after now seq frame).mp held)
    exact ready.top seq frame kept.1
  · rw [refreshGap_expectedSeq]
    omega
  · rintro ⟨seq, frame⟩ member
    obtain ⟨lower, upper, _⟩ := flushed.source seq frame member
    rw [refreshGap_expectedSeq]
    change staged.expectedSeq ≤ seq at lower
    exact ⟨by change before.expectedSeq ≤ seq; omega, upper⟩
  · rintro ⟨seq, frame⟩ member
    exact (ready.held seq frame).mp (flushed.source seq frame member).2.2
  · intro seq frame held
    have kept := (flushed.kept seq frame).mp ((refreshGap_occupied after now seq frame).mp held)
    exact (ready.held seq frame).mp kept.1
  · intro seq frame here
    have held : Occupied cleared seq frame := (ready.held seq frame).mpr here
    rw [refreshGap_expectedSeq]
    rcases Nat.lt_or_ge seq after.expectedSeq with below | above
    · exact Or.inl below
    · right
      exact (refreshGap_occupied after now seq frame).mpr ((flushed.kept seq frame).mpr ⟨held, above⟩)

theorem refused_effect (after : ReorderBuffer) (settled : Settled before)
    (based : Based low high before) (span : Span low high) (seq : Nat) (above : low ≤ seq)
    (below : seq ≤ high) (refused : Refused (learn before seq) after) :
    Effect low high before after [] [] := by
  have positive := span.positive
  obtain ⟨learnedBased, nonzero⟩ := learn_based before based seq span above below
  have same : ∀ other frame, Occupied after other frame ↔ Occupied before other frame := by
    intro other frame
    rw [refused.held, learn_occupied]
  have number := refused.expectedSeq
  have forward : before.expectedSeq ≤ after.expectedSeq := by
    rw [number]
    exact learn_forward before seq
  refine ⟨refused.settled settled (by omega), ⟨?_, ?_⟩, forward, List.Pairwise.nil, ?_, ?_, ?_, ?_,
    ?_, List.nodup_nil⟩
  · rw [number]
    exact learnedBased.expectedSeq
  · intro other frame held
    exact based.held other frame ((same other frame).mp held)
  · intro entry member
    cases member
  · intro entry member
    cases member
  · intro other frame held
    exact Or.inl ((same other frame).mp held)
  · rintro other frame (held | member)
    · exact Or.inr ((same other frame).mpr held)
    · cases member
  · intro entry member
    cases member

theorem stored_staged (placed : ReorderBuffer) (based : Based low high buffer)
    (span : Span low high) (seq : Nat) (frame : Frame) (above : low ≤ seq) (below : seq ≤ high)
    (stored : Stored (learn buffer seq) placed seq frame) :
    Staged low high buffer placed [(seq, frame)] := by
  obtain ⟨learnedBased, nonzero⟩ := learn_based buffer based seq span above below
  have base := learnedBased.expectedSeq.resolve_left nonzero
  have forward := learn_forward buffer seq
  have number := stored.expectedSeq
  refine ⟨stored.shape, by omega, by omega, ?_, ?_, ?_, List.nodup_singleton _⟩
  · intro other content
    rw [stored.held, learn_occupied]
    simp
  · intro other content held
    rcases (stored.held other content).mp held with old | ⟨same, _⟩
    · exact based.held other content ((learn_occupied buffer seq other content).mp old)
    · omega
  · intro entry member
    rw [List.mem_singleton] at member
    subst entry
    have ahead := stored.ahead
    refine ⟨Nat.le_trans forward ahead, ?_⟩
    intro other held
    exact stored.vacant other ((learn_occupied buffer seq seq other).mpr held)

theorem insertInto_effect (settled : Settled buffer) (based : Based low high buffer)
    (span : Span low high) (seq : Nat) (frame : Frame) (now : Nat) (above : low ≤ seq)
    (below : seq ≤ high) :
    Effect low high buffer (insertInto buffer seq frame now).1 (acceptedBy buffer seq frame)
      (insertInto buffer seq frame now).2 := by
  have positive := span.positive
  have last := span.last
  have apart := span.apart
  obtain ⟨learnedBased, nonzero⟩ := learn_based buffer based seq span above below
  have base := learnedBased.expectedSeq.resolve_left nonzero
  rcases insertInto_cases buffer settled seq frame now (by omega) (by omega) (by omega)
    (by unfold reorderMaxWindow; omega) with ⟨after, result, none, refused⟩ | ⟨placed, stored, one, result⟩
  · rw [result, none]
    exact refused_effect buffer after settled based span seq above below refused
  · rw [result, one]
    have ready := stored_staged buffer placed based span seq frame above below stored
    by_cases head : seq = placed.expectedSeq
    · rw [if_pos head]
      exact flushLockedInto_effect buffer placed _ now span ready
    · rw [if_neg head]
      exact refreshGap_effect buffer placed _ now span ready (stored.open_ settled head)

theorem unchanged_effect (settled : Settled buffer) (based : Based low high buffer) :
    Effect low high buffer buffer [] [] := by
  refine ⟨settled, based, Nat.le_refl _, List.Pairwise.nil, ?_, ?_, ?_, ?_, ?_, List.nodup_nil⟩
  · intro entry member
    cases member
  · intro entry member
    cases member
  · intro seq frame held
    exact Or.inl held
  · rintro seq frame (held | member)
    · exact Or.inr held
    · cases member
  · intro entry member
    cases member

section Direct

variable (buffer : ReorderBuffer)

theorem advanceOver_seen (last final : Nat) (seen : Bool) (seqs : List Nat) (bound : last ≤ u32Max)
    (passed : advanceOver (wrappingAdd last 1) true seqs = some (final, seen)) :
    seqs = List.range' (last + 1) seqs.length ∧ last + seqs.length ≤ u32Max ∧
      final = wrappingAdd (last + seqs.length) 1 ∧ seen = true := by
  induction seqs generalizing last with
  | nil =>
    cases passed
    exact ⟨rfl, bound, rfl, rfl⟩
  | cons seq rest ih =>
    simp only [advanceOver, Bool.not_true, Bool.false_and, Bool.false_eq_true, ↓reduceIte] at passed
    by_cases stop : seq = 0 ∨ seq ≠ wrappingAdd last 1
    · simp [stop] at passed
    · rw [if_neg stop] at passed
      rw [not_or, not_not] at stop
      have small : last < u32Max := by
        by_contra full
        have top : last = u32Max := by omega
        apply stop.1
        rw [stop.2, top]
        norm_num [wrappingAdd, u32Max]
      have number := wrappingAdd_one_small last small
      rw [number] at passed stop
      obtain ⟨tail, room, sum, flag⟩ := ih (last + 1) small passed
      refine ⟨?_, ?_, ?_, flag⟩
      · rw [List.length_cons, List.range'_succ, ← tail, stop.2]
      · rw [List.length_cons]
        omega
      · rw [sum, List.length_cons]
        congr 1
        omega

/-- A successful validation saw a non-empty run of consecutive numbers that
starts at the base, learned from its first number if need be. -/
theorem tryAdvanceSequences_spec (advanced : ReorderBuffer) (seqs : List Nat)
    (inside : ∀ seq ∈ seqs, seq ≤ u32Max) (passed : tryAdvanceSequences buffer seqs = some advanced) :
    ∃ base, buffer.gapSince = none ∧ seqs ≠ [] ∧ seqs = List.range' base seqs.length ∧
      (buffer.expectedSeq = 0 ∨ buffer.expectedSeq = base) ∧
      base + seqs.length ≤ u32Max + 1 ∧
      advanced = { buffer with expectedSeq := (base + seqs.length) % 4294967296 } := by
  unfold tryAdvanceSequences at passed
  cases idle : buffer.gapSince with
  | some since => simp [idle] at passed
  | none =>
    rw [idle] at passed
    simp only [Option.isSome_none, Bool.false_eq_true, ↓reduceIte] at passed
    cases seqs with
    | nil => simp [advanceOver] at passed
    | cons first rest =>
      have bound := inside first List.mem_cons_self
      simp only [advanceOver, Bool.not_false, Bool.true_and, beq_iff_eq] at passed
      obtain ⟨base, isBase⟩ : ∃ base,
          (if buffer.expectedSeq = 0 then first else buffer.expectedSeq) = base := ⟨_, rfl⟩
      rw [isBase] at passed
      by_cases stop : first = 0 ∨ first ≠ base
      · simp [stop] at passed
      · rw [if_neg stop] at passed
        have same : first = base := by
          by_contra differs
          exact stop (Or.inr differs)
        have origin : buffer.expectedSeq = 0 ∨ buffer.expectedSeq = base := by
          by_cases unlearned : buffer.expectedSeq = 0
          · exact Or.inl unlearned
          · rw [if_neg unlearned] at isBase
            exact Or.inr isBase
        cases walked : advanceOver (wrappingAdd base 1) true rest with
        | none => simp [walked] at passed
        | some pair =>
          obtain ⟨final, flag⟩ := pair
          obtain ⟨tail, room, sum, seen⟩ :=
            advanceOver_seen base final flag rest (by omega) walked
          subst flag
          rw [walked] at passed
          refine ⟨base, rfl, by simp, ?_, origin, ?_, ?_⟩
          · rw [List.length_cons, List.range'_succ, ← tail, same]
          · rw [List.length_cons]
            omega
          · have result := Option.some.inj passed
            rw [← result, sum, List.length_cons, wrappingAdd, Nat.add_assoc]

/-- A batch that passed straight through: nothing was buffered, and the numbers
run from the base to the new one. -/
structure Direct (buffer after : ReorderBuffer) (input out : Delivered) (base : Nat) : Prop where
  empty : ∀ index, buffer.ring index = none
  nonempty : input ≠ []
  run : input.map Prod.fst = List.range' base input.length
  origin : buffer.expectedSeq = 0 ∨ buffer.expectedSeq = base
  room : base + input.length ≤ u32Max + 1
  moved : after = { buffer with expectedSeq := (base + input.length) % 4294967296 }
  passed : out = input.filter fun entry => !entry.2.isEmpty

theorem tryDirectBatch_direct {buffer after : ReorderBuffer} {input out : Delivered}
    (settled : Settled buffer) (inside : ∀ entry ∈ input, entry.1 ≤ u32Max)
    (passed : tryDirectBatch buffer input = some (after, out)) :
    ∃ base, Direct buffer after input out base := by
  unfold tryDirectBatch at passed
  cases advance : tryAdvanceSequences buffer (input.map Prod.fst) with
  | none => simp [advance] at passed
  | some advanced =>
    obtain ⟨base, idle, nonempty, run, origin, room, moved⟩ :=
      tryAdvanceSequences_spec buffer advanced _ (by
        intro seq member
        obtain ⟨entry, present, rfl⟩ := List.mem_map.mp member
        exact inside entry present) advance
    simp only [advance, Option.some.injEq, Prod.mk.injEq] at passed
    obtain ⟨rfl, rfl⟩ := passed
    rw [List.length_map] at run moved room
    refine ⟨base, ?_, ?_, run, origin, room, moved, rfl⟩
    · -- a buffered frame would have armed the gap timer
      intro index
      cases stored : buffer.ring index with
      | none => rfl
      | some frame =>
        have armed := settled.gap.mpr ⟨index, by rw [stored]; rfl⟩
        rw [idle] at armed
        cases armed
    · rintro rfl
      exact nonempty rfl

section

variable {buffer after : ReorderBuffer} {input out : Delivered} {base : Nat}

section

variable (direct : Direct buffer after input out base)

include direct

theorem Direct.settled (settled : Settled buffer) : Settled after := by
  obtain ⟨empty, _, _, _, _, rfl, _⟩ := direct
  refine ⟨⟨settled.shape.sized, settled.shape.bits, settled.shape.outside, ?_⟩, empty _,
    fun _ => empty, settled.gap⟩
  intro index frame stored
  change buffer.ring index = some frame at stored
  rw [empty] at stored
  cases stored

theorem Direct.vacant (seq : Nat) (frame : Frame) :
    ¬ Occupied buffer seq frame ∧ ¬ Occupied after seq frame := by
  have unheld : ¬ Occupied buffer seq frame := by
    intro held
    have stored := held.1
    rw [direct.empty] at stored
    cases stored
  rw [direct.moved]
  exact ⟨unheld, unheld⟩

theorem Direct.count : 0 < input.length :=
  List.length_pos_iff.mpr direct.nonempty

theorem Direct.member (seq : Nat) :
    seq ∈ input.map Prod.fst ↔ base ≤ seq ∧ seq < base + input.length := by
  rw [direct.run, List.mem_range'_1]

theorem Direct.numbers (entry : Nat × Frame) (present : entry ∈ input) :
    base ≤ entry.1 ∧ entry.1 < base + input.length :=
  (direct.member entry.1).mp (List.mem_map.mpr ⟨entry, present, rfl⟩)

theorem Direct.ordered : out.Pairwise fun left right => left.1 < right.1 := by
  have sorted : (input.map Prod.fst).Pairwise (· < ·) := by
    rw [direct.run]
    exact List.pairwise_lt_range'
  rw [direct.passed]
  exact (List.pairwise_map.mp sorted).filter _

theorem Direct.source (entry : Nat × Frame) (present : entry ∈ out) : entry ∈ input := by
  rw [direct.passed] at present
  exact (List.mem_filter.mp present).1

end

end

theorem tryDirectBatch_effect (after : ReorderBuffer) (out : Delivered) (settled : Settled buffer)
    (span : Span low high) (input : List (Nat × Frame))
    (inside : ∀ entry ∈ input, low ≤ entry.1 ∧ entry.1 ≤ high)
    (passed : tryDirectBatch buffer input = some (after, out)) :
    Effect low high buffer after input out := by
  have positive := span.positive
  have last := span.last
  obtain ⟨base, direct⟩ := tryDirectBatch_direct settled
    (fun entry present => by have := (inside entry present).2; omega) passed
  have count := direct.count
  have insideSeq : ∀ seq ∈ input.map Prod.fst, low ≤ seq ∧ seq ≤ high := by
    intro seq member
    obtain ⟨entry, present, rfl⟩ := List.mem_map.mp member
    exact inside entry present
  have first := insideSeq base ((direct.member base).mpr ⟨Nat.le_refl _, by omega⟩)
  have final := insideSeq (base + input.length - 1)
    ((direct.member _).mpr ⟨by omega, by omega⟩)
  have forward : buffer.expectedSeq ≤ base := by
    rcases direct.origin with unlearned | learned <;> omega
  have place : after.expectedSeq = base + input.length := by
    rw [direct.moved]
    exact Nat.mod_eq_of_lt (by unfold u32Max at last; omega)
  refine ⟨direct.settled settled, ⟨?_, ?_⟩, ?_, direct.ordered, ?_, ?_, ?_, ?_, ?_, ?_⟩
  · right
    omega
  · intro seq frame held
    exact absurd held (direct.vacant seq frame).2
  · omega
  · intro entry present
    have bounds := direct.numbers entry (direct.source entry present)
    omega
  · intro entry present
    exact Or.inr (direct.source entry present)
  · intro seq frame held
    exact absurd held (direct.vacant seq frame).2
  · rintro seq frame (held | present)
    · exact absurd held (direct.vacant seq frame).1
    · left
      have bounds := direct.numbers _ present
      omega
  · intro entry present
    have bounds := direct.numbers entry present
    exact ⟨by omega, fun frame => (direct.vacant entry.1 frame).1⟩
  · rw [direct.run]
    exact List.nodup_range'

end Direct

section Timeout

theorem firstHeld_some (buffer : ReorderBuffer) (count delta found : Nat)
    (hit : firstHeld buffer count delta = some found) :
    delta ≤ found ∧ found < delta + count ∧
      (buffer.ring (slotOf buffer (wrappingAdd buffer.expectedSeq found))).isSome = true ∧
      ∀ skipped, delta ≤ skipped → skipped < found →
        buffer.ring (slotOf buffer (wrappingAdd buffer.expectedSeq skipped)) = none := by
  induction count generalizing delta with
  | zero => simp [firstHeld] at hit
  | succ count ih =>
    unfold firstHeld at hit
    by_cases here : (buffer.ring (slotOf buffer (wrappingAdd buffer.expectedSeq delta))).isSome
        = true
    · rw [if_pos here] at hit
      cases hit
      exact ⟨Nat.le_refl _, by omega, here, fun _ low high => by omega⟩
    · rw [if_neg here] at hit
      obtain ⟨lower, upper, stored, skippedNone⟩ := ih (delta + 1) hit
      refine ⟨by omega, by omega, stored, ?_⟩
      intro skipped low high
      rcases Nat.eq_or_lt_of_le low with same | later
      · subst skipped
        simpa using here
      · exact skippedNone skipped later high

theorem firstHeld_none (buffer : ReorderBuffer) (count delta : Nat)
    (miss : firstHeld buffer count delta = none) :
    ∀ scanned, delta ≤ scanned → scanned < delta + count →
      buffer.ring (slotOf buffer (wrappingAdd buffer.expectedSeq scanned)) = none := by
  induction count generalizing delta with
  | zero =>
    intro scanned low high
    omega
  | succ count ih =>
    unfold firstHeld at miss
    by_cases here : (buffer.ring (slotOf buffer (wrappingAdd buffer.expectedSeq delta))).isSome
        = true
    · simp [here] at miss
    · rw [if_neg here] at miss
      intro scanned low high
      rcases Nat.eq_or_lt_of_le low with same | later
      · subst scanned
        simpa using here
      · exact ih (delta + 1) miss scanned later (by omega)

theorem Sized.slot_wrapped {buffer : ReorderBuffer} (sized : Sized buffer) (delta : Nat) :
    slotOf buffer (wrappingAdd buffer.expectedSeq delta) =
      (buffer.expectedSeq + delta) % buffer.size := by
  rw [sized.slotOf_eq]
  obtain ⟨⟨power, _, high, size⟩, _⟩ := sized
  unfold wrappingAdd
  apply Nat.mod_mod_of_dvd
  rw [size, show (4294967296 : Nat) = 2 ^ 32 from rfl]
  exact Nat.pow_dvd_pow 2 (by omega)

structure Skipped (buffer staged : ReorderBuffer) : Prop where
  shape : Shape staged
  held : ∀ seq frame, Occupied staged seq frame ↔ Occupied buffer seq frame
  first : ∃ frame, Occupied buffer staged.expectedSeq frame
  ahead : buffer.expectedSeq < staged.expectedSeq

section

variable {buffer : ReorderBuffer} (shape : Shape buffer)
  (vacant : buffer.ring (buffer.expectedSeq % buffer.size) = none)

include shape vacant

theorem Shape.beyond_open (seq : Nat) (frame : Frame) (here : Occupied buffer seq frame) :
    ∃ delta, 1 ≤ delta ∧ delta < buffer.size ∧ seq = buffer.expectedSeq + delta ∧
      buffer.ring (slotOf buffer (wrappingAdd buffer.expectedSeq delta)) = some frame := by
  obtain ⟨lower, upper⟩ := shape.occupied_window seq frame here
  have apart : seq ≠ buffer.expectedSeq := by
    rintro rfl
    have ring := here.1
    rw [vacant] at ring
    cases ring
  refine ⟨seq - buffer.expectedSeq, by omega, by omega, by omega, ?_⟩
  rw [shape.sized.slot_wrapped,
    show buffer.expectedSeq + (seq - buffer.expectedSeq) = seq by omega, here.1]

theorem Shape.firstHeld_least (stored : ∃ seq frame, Occupied buffer seq frame) :
    ∃ delta frame, firstHeld buffer (buffer.size - 1) 1 = some delta ∧ 1 ≤ delta ∧
      Occupied buffer (buffer.expectedSeq + delta) frame ∧
      ∀ seq other, Occupied buffer seq other → buffer.expectedSeq + delta ≤ seq := by
  cases found : firstHeld buffer (buffer.size - 1) 1 with
  | none =>
    exfalso
    obtain ⟨seq, frame, here⟩ := stored
    obtain ⟨delta, positive, inside, _, ring⟩ := shape.beyond_open vacant seq frame here
    have empty := firstHeld_none buffer (buffer.size - 1) 1 found delta positive (by omega)
    rw [ring] at empty
    cases empty
  | some delta =>
    obtain ⟨lower, upper, hit, skipped⟩ := firstHeld_some buffer _ 1 delta found
    rw [shape.sized.slot_wrapped] at hit
    obtain ⟨frame, ring⟩ := Option.isSome_iff_exists.mp hit
    refine ⟨delta, frame, rfl, lower,
      shape.occupied_of_ring _ frame (by omega) (by omega) ring, ?_⟩
    intro seq other here
    by_contra before
    obtain ⟨earlier, positive, _, number, held⟩ := shape.beyond_open vacant seq other here
    have empty := skipped earlier positive (by omega)
    rw [held] at empty
    cases empty

end

theorem Settled.gap_armed {buffer : ReorderBuffer} (settled : Settled buffer) {since : Nat}
    (armed : buffer.gapSince = some since) :
    hasGap buffer = true ∧ ∃ seq frame, Occupied buffer seq frame := by
  have stored := settled.gap.mp (by rw [armed]; rfl)
  refine ⟨settled.shape.hasGap_iff.mpr ⟨?_, settled.open_, stored⟩,
    settled.shape.stored_iff.mp stored⟩
  intro unlearned
  obtain ⟨index, some⟩ := stored
  rw [settled.unlearned unlearned index] at some
  cases some

/-- The timeout does nothing before its time, and otherwise finds a frame: the
timer is armed only while one is stored, and the scan covers the whole window. -/
theorem flushTimeoutInto_cases (buffer : ReorderBuffer) (settled : Settled buffer)
    (within : ∀ seq frame, Occupied buffer seq frame → seq ≤ u32Max) (now : Nat) :
    (flushTimeoutInto buffer now = (buffer, []) ∧
      ∀ since, buffer.gapSince = some since → now - since < reorderSkipDelay) ∨
    ∃ staged, Skipped buffer staged ∧ flushTimeoutInto buffer now = flushLockedInto staged now := by
  unfold flushTimeoutInto
  cases armed : buffer.gapSince with
  | none => exact Or.inl ⟨rfl, by simp⟩
  | some since =>
    obtain ⟨gap, stored⟩ := settled.gap_armed armed
    by_cases wait : now - since < reorderSkipDelay
    · left
      simp only [if_pos (Or.inl wait : now - since < reorderSkipDelay ∨ hasGap buffer = false)]
      refine ⟨trivial, ?_⟩
      intro other same
      cases same
      exact wait
    · right
      have due : ¬ (now - since < reorderSkipDelay ∨ hasGap buffer = false) := by
        simp [wait, gap]
      simp only [if_neg due]
      obtain ⟨delta, frame, found, positive, held, least⟩ :=
        settled.shape.firstHeld_least settled.open_ stored
      rw [found]
      have top := within _ frame held
      have target : wrappingAdd buffer.expectedSeq delta = buffer.expectedSeq + delta := by
        unfold wrappingAdd
        unfold u32Max at top
        omega
      refine ⟨_, ?_, rfl⟩
      refine ⟨⟨settled.shape.sized, settled.shape.bits, settled.shape.outside, ?_⟩,
        fun _ _ => Iff.rfl, ⟨frame, ?_⟩, ?_⟩
      · intro index other here
        obtain ⟨residue, _, window⟩ := settled.shape.slots index other here
        have reach := least _ other (settled.shape.occupied index other here)
        change buffer.seqSlots index % buffer.size = index ∧
          wrappingAdd buffer.expectedSeq delta ≤ buffer.seqSlots index ∧
          buffer.seqSlots index < wrappingAdd buffer.expectedSeq delta + buffer.size
        rw [target]
        omega
      · change Occupied buffer (wrappingAdd buffer.expectedSeq delta) frame
        rw [target]
        exact held
      · change buffer.expectedSeq < wrappingAdd buffer.expectedSeq delta
        rw [target]
        omega

theorem flushTimeoutInto_effect (buffer : ReorderBuffer) (settled : Settled buffer)
    (based : Based low high buffer) (span : Span low high) (now : Nat) :
    Effect low high buffer (flushTimeoutInto buffer now).1 [] (flushTimeoutInto buffer now).2 := by
  have last := span.last
  have within : ∀ seq frame, Occupied buffer seq frame → seq ≤ u32Max := by
    intro seq frame held
    have := based.held seq frame held
    omega
  rcases flushTimeoutInto_cases buffer settled within now with ⟨idle, _⟩ | ⟨staged, skipped, result⟩
  · rw [idle]
    exact unchanged_effect buffer settled based
  · rw [result]
    have ahead := skipped.ahead
    obtain ⟨frame, first⟩ := skipped.first
    have top := based.held _ frame first
    have base : low ≤ staged.expectedSeq := by
      rcases based.expectedSeq with unlearned | known
      · exact absurd first (settled.unlearned_vacant unlearned _ frame)
      · omega
    apply flushLockedInto_effect buffer staged [] now span
    refine ⟨skipped.shape, ⟨base, by omega⟩, by omega, ?_, ?_, ?_, List.nodup_nil⟩
    · intro seq other
      rw [skipped.held]
      exact ⟨Or.inl, fun here => here.resolve_right (by simp)⟩
    · intro seq other here
      exact based.held seq other ((skipped.held seq other).mp here)
    · intro entry member
      cases member

end Timeout

end TlsVpn.Reorder

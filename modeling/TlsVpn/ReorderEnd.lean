import TlsVpn.ReorderRuns

/-!
The reorder buffer up to the last sequence number. There `expectedSeq` wraps to
0, which is also what a buffer that has not learned its base holds. A buffer's
`place` tells the two apart: it is the base, or one past `u32Max` once the last
number was released. Order and progress are shown for runs that insert nothing
behind the last number and no number a maximal window ahead across the wrap;
what happens otherwise is shown by runs of their own.
-/

namespace TlsVpn.Reorder

open Words

structure Standing (buffer : ReorderBuffer) (place : Nat) : Prop where
  settled : Settled buffer
  base : (buffer.expectedSeq = place ∧ place ≤ u32Max) ∨
    (buffer.expectedSeq = 0 ∧ place = u32Max + 1)
  within : ∀ seq frame, Occupied buffer seq frame → seq ≤ u32Max

variable {place : Nat} {trace : Trace}

theorem Standing.bound {buffer : ReorderBuffer} (standing : Standing buffer place) :
    place ≤ u32Max + 1 := by
  rcases standing.base with ⟨_, bound⟩ | ⟨_, last⟩ <;> omega

theorem Standing.known {buffer : ReorderBuffer} (standing : Standing buffer place)
    (learned : buffer.expectedSeq ≠ 0) : buffer.expectedSeq = place ∧ place ≤ u32Max :=
  standing.base.resolve_right fun ended => learned ended.1

structure Carried (before after : ReorderBuffer) (next : Nat) (out : Delivered) : Prop where
  standing : Standing after next
  forward : before.expectedSeq ≤ next
  ordered : out.Pairwise fun left right => left.1 < right.1
  window : ∀ entry ∈ out, before.expectedSeq ≤ entry.1 ∧ entry.1 < next

section Operations

variable (buffer : ReorderBuffer)

theorem refreshGap_vacant (now : Nat) (shape : Shape buffer)
    (vacant : ∀ seq frame, ¬ Occupied buffer seq frame) : Settled (refreshGap buffer now) := by
  have empty : ∀ index, buffer.ring index = none := by
    intro index
    cases stored : buffer.ring index with
    | none => rfl
    | some frame => exact absurd (shape.occupied index frame stored) (vacant _ frame)
  obtain ⟨gap, stats, same, armed⟩ := refreshGap_cases buffer now
  rw [same]
  refine ⟨⟨shape.sized, shape.bits, shape.outside, shape.slots⟩, empty _, fun _ => empty, ?_⟩
  change gap.isSome = true ↔ ∃ index, (buffer.ring index).isSome = true
  rw [armed, shape.hasGap_iff]
  simp [empty]

theorem flushLockedInto_carried (before staged : ReorderBuffer) (now : Nat) (shape : Shape staged)
    (within : ∀ seq frame, Occupied staged seq frame → seq ≤ u32Max)
    (learned : staged.expectedSeq ≠ 0) (base : staged.expectedSeq ≤ u32Max)
    (forward : before.expectedSeq ≤ staged.expectedSeq) :
    ∃ next, staged.expectedSeq ≤ next ∧ next ≤ staged.expectedSeq + staged.size ∧
      Carried before (flushLockedInto staged now).1 next (flushLockedInto staged now).2 := by
  let cleared : ReorderBuffer := { staged with gapSince := none }
  have clearedShape : Shape cleared := ⟨shape.sized, shape.bits, shape.outside, shape.slots⟩
  obtain ⟨next, passed⟩ := flushLoop_passes staged.size
    (min (u32Max + 1) (staged.expectedSeq + staged.size)) cleared clearedShape (by
      intro seq frame held
      have below := within seq frame held
      have window := (shape.occupied_window seq frame held).2
      omega) (Nat.min_le_left _ _) (Nat.min_le_right _ _)
  have advance : staged.expectedSeq ≤ next := passed.advance
  -- the loop stops right behind a stored number, which is in range and in the window
  have top : next ≤ u32Max + 1 ∧ next ≤ staged.expectedSeq + staged.size := by
    rcases Nat.eq_or_lt_of_le advance with same | moved
    · omega
    · obtain ⟨frame, held, _⟩ := passed.released (next - 1)
        (by change staged.expectedSeq ≤ next - 1; omega) (by omega)
      have below := within (next - 1) frame held
      have window := (shape.occupied_window (next - 1) frame held).2
      omega
  let after := (flushLoop staged.size cleared).1
  let out := (flushLoop staged.size cleared).2
  refine ⟨next, advance, top.2, ?_⟩
  change Carried before (refreshGap after now) next out
  refine ⟨⟨?_, ?_, ?_⟩, by omega, passed.ordered, ?_⟩
  · rcases passed.base with ⟨same, _⟩ | ⟨_, last, _⟩
    · exact refreshGap_settled after now passed.shape passed.open_ (by
        change after.expectedSeq = next at same
        omega)
    · -- the base has wrapped: only numbers past the last one could still be stored
      apply refreshGap_vacant after now passed.shape
      intro seq frame held
      obtain ⟨old, above⟩ := (passed.kept seq frame).mp held
      have := within seq frame old
      omega
  · rw [refreshGap_expectedSeq]
    rcases passed.base with ⟨same, small⟩ | ⟨zero, last, _⟩
    · change next ≤ u32Max ∨ next = staged.expectedSeq at small
      exact Or.inl ⟨same, by omega⟩
    · exact Or.inr ⟨zero, last⟩
  · intro seq frame held
    have kept := (passed.kept seq frame).mp ((refreshGap_occupied after now seq frame).mp held)
    exact within seq frame kept.1
  · rintro ⟨seq, frame⟩ member
    obtain ⟨low, high, _⟩ := passed.source seq frame member
    change staged.expectedSeq ≤ seq at low
    exact ⟨Nat.le_trans forward low, high⟩

theorem learn_base (seq : Nat) :
    (learn buffer seq).expectedSeq = if buffer.expectedSeq = 0 then seq else buffer.expectedSeq := by
  unfold learn
  split <;> rfl

theorem insertInto_carried (settled : Settled buffer)
    (within : ∀ seq frame, Occupied buffer seq frame → seq ≤ u32Max)
    (base : buffer.expectedSeq ≤ u32Max) (seq : Nat) (frame : Frame) (now : Nat) (number : seq ≠ 0)
    (below : seq ≤ u32Max) (apart : buffer.expectedSeq + reorderMaxWindow ≤ seq + 4294967296) :
    ∃ next, Carried buffer (insertInto buffer seq frame now).1 next
        (insertInto buffer seq frame now).2 ∧
      ((next = u32Max + 1 ∨ ∃ other content, Occupied (insertInto buffer seq frame now).1 other content) →
        acceptedBy buffer seq frame ≠ [] ∨ ∃ other content, Occupied buffer other content) := by
  have learned := learn_base buffer seq
  have nonzero := learn_nonzero buffer seq number
  have forward := learn_forward buffer seq
  have learnedBase : (learn buffer seq).expectedSeq ≤ u32Max := by
    rw [learned]
    split <;> assumption
  have learnedApart : (learn buffer seq).expectedSeq + reorderMaxWindow ≤ seq + 4294967296 := by
    rw [learned]
    unfold reorderMaxWindow at apart ⊢
    split <;> omega
  rcases insertInto_cases buffer settled seq frame now number below learnedBase learnedApart with
    ⟨after, result, _, refused⟩ | ⟨placed, stored, one, result⟩
  · -- a refused frame may have taught the base or grown the window, and stored nothing
    have same : ∀ other content, Occupied after other content ↔ Occupied buffer other content := by
      intro other content
      rw [refused.held, learn_occupied]
    have kept := refused.expectedSeq
    rw [result]
    refine ⟨after.expectedSeq, ⟨⟨refused.settled settled number, ?_, ?_⟩, ?_, List.Pairwise.nil, ?_⟩,
      ?_⟩
    · exact Or.inl ⟨rfl, by omega⟩
    · intro other content held
      exact within other content ((same other content).mp held)
    · omega
    · intro entry member
      cases member
    · rintro (ended | ⟨other, content, held⟩)
      · omega
      · exact Or.inr ⟨other, content, (same other content).mp held⟩
  · have kept := stored.expectedSeq
    have placedWithin : ∀ other content, Occupied placed other content → other ≤ u32Max := by
      intro other content held
      rcases (stored.held other content).mp held with old | ⟨same, _⟩
      · exact within other content ((learn_occupied buffer seq other content).mp old)
      · omega
    have accepted : acceptedBy buffer seq frame ≠ [] := by
      rw [one]
      simp
    rw [result]
    by_cases head : seq = placed.expectedSeq
    · -- the flush may run past the last number; the place then is one beyond it
      rw [if_pos head]
      obtain ⟨next, _, _, carried⟩ := flushLockedInto_carried buffer placed now stored.shape
        placedWithin (by omega) (by omega) (by omega)
      exact ⟨next, carried, fun _ => Or.inl accepted⟩
    · rw [if_neg head]
      refine ⟨placed.expectedSeq, ⟨⟨?_, ?_, ?_⟩, by omega, List.Pairwise.nil, ?_⟩,
        fun _ => Or.inl accepted⟩
      · exact refreshGap_settled placed now stored.shape (stored.open_ settled head) (by omega)
      · rw [refreshGap_expectedSeq]
        exact Or.inl ⟨rfl, by omega⟩
      · intro other content held
        exact placedWithin other content ((refreshGap_occupied placed now other content).mp held)
      · intro entry member
        cases member

theorem tryDirectBatch_carried (after : ReorderBuffer) (out : Delivered) (settled : Settled buffer)
    (input : List (Nat × Frame)) (inside : ∀ entry ∈ input, entry.1 ≤ u32Max)
    (passed : tryDirectBatch buffer input = some (after, out)) :
    input ≠ [] ∧ ∃ next, Carried buffer after next out := by
  obtain ⟨base, direct⟩ := tryDirectBatch_direct settled inside passed
  have room := direct.room
  have place : after.expectedSeq = (base + input.length) % 4294967296 := by rw [direct.moved]
  have forward : buffer.expectedSeq ≤ base := by
    rcases direct.origin with unlearned | learned <;> omega
  refine ⟨direct.nonempty, base + input.length,
    ⟨direct.settled settled, ?_, ?_⟩, by omega, direct.ordered, ?_⟩
  · unfold u32Max at room ⊢
    omega
  · intro seq frame held
    exact absurd held (direct.vacant seq frame).2
  · intro entry present
    have bounds := direct.numbers entry (direct.source entry present)
    omega

theorem flushTimeoutInto_carried {place : Nat} (standing : Standing buffer place) (now : Nat) :
    (flushTimeoutInto buffer now = (buffer, []) ∧
      ∀ since, buffer.gapSince = some since → now - since < reorderSkipDelay) ∨
    ∃ next, buffer.expectedSeq < next ∧ next ≤ buffer.expectedSeq + 2 * reorderMaxWindow ∧
      (∃ seq frame, Occupied buffer seq frame) ∧ buffer.expectedSeq ≠ 0 ∧
      Carried buffer (flushTimeoutInto buffer now).1 next (flushTimeoutInto buffer now).2 := by
  rcases flushTimeoutInto_cases buffer standing.settled standing.within now with
    idle | ⟨staged, skipped, result⟩
  · exact Or.inl idle
  · right
    obtain ⟨frame, first⟩ := skipped.first
    have ahead := skipped.ahead
    have top := standing.within _ frame first
    have learned : buffer.expectedSeq ≠ 0 := by
      intro unlearned
      exact standing.settled.unlearned_vacant unlearned _ frame first
    have window := (standing.settled.shape.occupied_window _ frame first).2
    have size := standing.settled.shape.sized.size_le
    have stagedSize := skipped.shape.sized.size_le
    obtain ⟨next, low, high, carried⟩ := flushLockedInto_carried buffer staged now skipped.shape
      (fun seq other held => standing.within seq other ((skipped.held seq other).mp held))
      (by omega) top (by omega)
    rw [result]
    exact ⟨next, by omega, by omega, ⟨_, frame, first⟩, learned, carried⟩

end Operations

/-- What a whole run keeps: where the buffer stands, and that everything
delivered lies in order behind that place. -/
structure Past (trace : Trace) (place : Nat) : Prop where
  standing : Standing trace.buffer place
  accepted : place = u32Max + 1 ∨ (∃ seq frame, Occupied trace.buffer seq frame) →
    trace.accepted ≠ []
  ordered : trace.delivered.Pairwise fun left right => left.1 < right.1
  behind : ∀ entry ∈ trace.delivered, entry.1 < place

/-- The condition on one call: nothing is inserted once the last number was
released (`expectedSeq` is 0 only while nothing was accepted), and no inserted
number lies less than a maximal window ahead across the wrap. -/
def BeforeEnd (trace : Trace) : Op → Prop
  | .insert seq _ _ => seq ≤ u32Max ∧
      (seq ≠ 0 → (trace.buffer.expectedSeq = 0 → trace.accepted = []) ∧
        trace.buffer.expectedSeq + reorderMaxWindow ≤ seq + 4294967296)
  | .direct input => (∀ entry ∈ input, entry.1 ≤ u32Max) ∧
      (trace.buffer.expectedSeq = 0 → trace.accepted = [])
  | .timeout _ => True

instance (trace : Trace) (op : Op) : Decidable (BeforeEnd trace op) := by
  unfold BeforeEnd
  exact match op with
    | .insert _ _ _ => inferInstance
    | .direct _ => inferInstance
    | .timeout _ => .isTrue trivial

theorem Past.base (past : Past trace place)
    (notEnded : trace.buffer.expectedSeq = 0 → trace.accepted = []) :
    trace.buffer.expectedSeq = place ∧ place ≤ u32Max := by
  rcases past.standing.base with known | ⟨zero, last⟩
  · exact known
  · -- past the last number something was accepted, so the guard forbids the call
    exact absurd (notEnded zero) (past.accepted (Or.inl last))

theorem Past.extend {next : Nat} {after : ReorderBuffer} {stored out : Delivered}
    (past : Past trace place) (base : trace.buffer.expectedSeq = place)
    (carried : Carried trace.buffer after next out)
    (accepted : next = u32Max + 1 ∨ (∃ seq frame, Occupied after seq frame) →
      trace.accepted ++ stored ≠ []) :
    Past ⟨after, trace.accepted ++ stored, trace.delivered ++ out⟩ next := by
  have forward := carried.forward
  refine ⟨carried.standing, accepted, ?_, ?_⟩
  · rw [List.pairwise_append]
    refine ⟨past.ordered, carried.ordered, ?_⟩
    intro old oldMember recent recentMember
    have behind := past.behind old oldMember
    have window := (carried.window recent recentMember).1
    omega
  · intro entry member
    rcases List.mem_append.mp member with old | recent
    · have behind := past.behind entry old
      change entry.1 < next
      omega
    · exact (carried.window entry recent).2

theorem perform_past (trace : Trace) (op : Op) (allowed : BeforeEnd trace op)
    (held : ∃ place, Past trace place) : ∃ place, Past (perform trace op) place := by
  obtain ⟨place, past⟩ := held
  cases op with
  | insert seq frame now =>
    by_cases zero : seq = 0
    · -- a control number is dropped at the door
      refine ⟨place, ?_⟩
      simpa [perform, insertInto, acceptedBy, zero] using past
    · obtain ⟨below, rest⟩ := allowed
      obtain ⟨notEnded, apart⟩ := rest zero
      obtain ⟨base, bound⟩ := past.base notEnded
      obtain ⟨next, carried, source⟩ := insertInto_carried trace.buffer past.standing.settled
        past.standing.within (by omega) seq frame now zero below apart
      refine ⟨next, past.extend base carried fun ended => ?_⟩
      rcases source ended with taken | old
      · simp [taken]
      · simp [past.accepted (Or.inr old)]
  | direct input =>
    obtain ⟨inside, notEnded⟩ := allowed
    cases passed : tryDirectBatch trace.buffer input with
    | none => exact ⟨place, by simpa [perform, passed] using past⟩
    | some result =>
      obtain ⟨nonempty, next, carried⟩ := tryDirectBatch_carried trace.buffer result.1 result.2
        past.standing.settled input inside passed
      simp only [perform, passed]
      exact ⟨next, past.extend (past.base notEnded).1 carried fun _ => by simp [nonempty]⟩
  | timeout now =>
    rcases flushTimeoutInto_carried trace.buffer past.standing now with
      ⟨idle, _⟩ | ⟨next, _, _, stored, learned, carried⟩
    · exact ⟨place, by simpa [perform, idle] using past⟩
    · have extended := past.extend (past.standing.known learned).1 carried
        (fun _ => by simpa using past.accepted (Or.inr stored) :
          _ → trace.accepted ++ ([] : Delivered) ≠ [])
      exact ⟨next, by simpa [perform] using extended⟩

theorem fresh_past (buffer : ReorderBuffer) (fresh : Fresh buffer) : Past (start buffer) 0 := by
  have history : History 1 1 buffer [] [] := fresh_history buffer fresh
  have unlearned : buffer.expectedSeq = 0 := by
    cases fresh <;> rfl
  refine ⟨⟨history.settled, Or.inl ⟨unlearned, Nat.zero_le _⟩, ?_⟩, ?_, List.Pairwise.nil, ?_⟩
  · intro seq frame held
    exact absurd held (history.settled.unlearned_vacant unlearned seq frame)
  · rintro (ended | ⟨seq, frame, held⟩)
    · cases ended
    · exact absurd held (history.settled.unlearned_vacant unlearned seq frame)
  · intro entry member
    cases member

theorem run_past (buffer : ReorderBuffer) (ops : List Op) (fresh : Fresh buffer)
    (guarded : Runs.Along (Runs.total perform) BeforeEnd (start buffer) ops) :
    ∃ place, Past (ops.foldl perform (start buffer)) place := by
  exact Runs.invariant_total perform BeforeEnd (fun trace => ∃ place, Past trace place)
    perform_past (start buffer) ops guarded ⟨0, fresh_past buffer fresh⟩

/-- Reorder safety up to the last sequence number: delivery is strictly
increasing, delivers no number twice, and ends with the last number if it
delivers that one at all. -/
theorem delivered_increasing_to_end (buffer : ReorderBuffer) (ops : List Op) (fresh : Fresh buffer)
    (guarded : Runs.Along (Runs.total perform) BeforeEnd (start buffer) ops) :
    let final := ops.foldl perform (start buffer)
    (final.delivered.map Prod.fst).Pairwise (· < ·) ∧
      (final.delivered.map Prod.fst).Nodup ∧
      ∀ earlier later frame, final.delivered = earlier ++ (u32Max, frame) :: later → later = [] := by
  obtain ⟨place, past⟩ := run_past buffer ops fresh guarded
  have increasing := List.pairwise_map.mpr past.ordered
  refine ⟨increasing, increasing.imp Nat.ne_of_lt, ?_⟩
  intro earlier later frame split
  cases later with
  | nil => rfl
  | cons entry rest =>
    have ordered := past.ordered
    rw [split, List.pairwise_append, List.pairwise_cons] at ordered
    have above := ordered.2.1.1 entry List.mem_cons_self
    have behind := past.behind entry (by rw [split]; simp)
    have bound := past.standing.bound
    change u32Max < entry.1 at above
    omega

def lastOps : List Op :=
  [.insert 4294967293 [1] 0, .insert 4294967295 [3] 1, .insert 4294967294 [2] 2,
    .timeout 60000000]

theorem delivered_increasing_lastOps :
    let final := lastOps.foldl perform (start new)
    final.delivered = [(4294967293, [1]), (4294967294, [2]), (u32Max, [3])] ∧
      final.buffer.expectedSeq = 0 ∧
      (final.delivered.map Prod.fst).Pairwise (· < ·) ∧
      (final.delivered.map Prod.fst).Nodup ∧
      ∀ earlier later frame, final.delivered = earlier ++ (u32Max, frame) :: later → later = [] :=
  ⟨by decide +kernel, by decide +kernel,
    delivered_increasing_to_end new lastOps Fresh.new (by decide +kernel)⟩

/-- Behind the last number the base is 0 again, so the next number inserted is
learned as a new base: 5 is delivered after `u32Max`, and `u32Max` a second time. -/
theorem delivered_past_end :
    ([Op.insert 4294967295 [1] 0, .insert 5 [2] 1].foldl perform (start new)).delivered =
        [(u32Max, [1]), (5, [2])] ∧
      ([Op.insert 4294967295 [1] 0, .insert 4294967295 [2] 1].foldl perform (start new)).delivered =
        [(u32Max, [1]), (u32Max, [2])] := by
  constructor <;> decide +kernel

section Progress

variable (buffer : ReorderBuffer)

/-- A stored number never shares the slot of another number less than a window
ahead of the base, on either side of the wrap: the window size divides the
number of sequence values. -/
theorem Shape.slot_of_near {buffer : ReorderBuffer} (shape : Shape buffer)
    (within : ∀ seq frame, Occupied buffer seq frame → seq ≤ u32Max)
    (base : buffer.expectedSeq ≤ u32Max) (seq : Nat) (frame : Frame) (below : seq ≤ u32Max)
    (near : wrappingSub seq buffer.expectedSeq < buffer.size)
    (stored : buffer.ring (seq % buffer.size) = some frame) : Occupied buffer seq frame := by
  obtain ⟨residue, low, high⟩ := shape.slots _ frame stored
  rcases Nat.lt_or_ge seq buffer.expectedSeq with behind | ahead
  · exfalso
    rw [wrappingSub_wrapped seq buffer.expectedSeq behind base] at near
    have divides : buffer.size ∣ 4294967296 := by
      obtain ⟨⟨power, _, top, size⟩, _⟩ := shape.sized
      rw [size, show (4294967296 : Nat) = 2 ^ 32 from rfl]
      exact Nat.pow_dvd_pow 2 (by omega)
    have wrapped : (seq + 4294967296) % buffer.size = seq % buffer.size := by
      obtain ⟨factor, same⟩ := divides
      rw [same, Nat.add_mul_mod_self_left]
    have equal := residue_unique buffer.size buffer.expectedSeq _ (seq + 4294967296)
      (residue.trans wrapped.symm) low high (by unfold u32Max at base; omega) (by omega)
    have bound := within _ frame (shape.occupied _ frame stored)
    unfold u32Max at bound
    omega
  · rw [wrappingSub_ordered seq buffer.expectedSeq ahead below] at near
    exact shape.occupied_of_ring seq frame ahead (by omega) stored

theorem learn_known (seq : Nat) (learned : buffer.expectedSeq ≠ 0) : learn buffer seq = buffer := by
  rw [learn, if_neg learned]

theorem insertInto_near (shape : Shape buffer)
    (within : ∀ seq frame, Occupied buffer seq frame → seq ≤ u32Max)
    (base : buffer.expectedSeq ≤ u32Max) (learned : buffer.expectedSeq ≠ 0) (seq : Nat)
    (frame : Frame) (now : Nat) (number : seq ≠ 0) (below : seq ≤ u32Max)
    (ahead : 0 < asI32 (wrappingSub seq buffer.expectedSeq))
    (near : (asI32 (wrappingSub seq buffer.expectedSeq)).toNat < reorderMaxWindow) :
    Occupied (insertInto buffer seq frame now).1 seq frame ∨
      ∃ content, Occupied buffer seq content := by
  have bounded : wrappingSub seq buffer.expectedSeq ≤ u32Max := by
    unfold wrappingSub u32Max
    omega
  have distance := asI32_nonneg _ (by omega) bounded
  have apart : seq ≠ buffer.expectedSeq := by
    rintro rfl
    rw [wrappingSub_ordered buffer.expectedSeq _ (Nat.le_refl _) base, Nat.sub_self] at ahead
    simp [asI32] at ahead
  obtain ⟨roomy, room, regrown, fits⟩ := makeRoom_near buffer shape _ near
  have kept := regrown.expectedSeq
  cases stored : roomy.ring (seq % roomy.size) with
  | some content =>
    right
    have held : Occupied roomy seq content := by
      apply regrown.shape.slot_of_near ?_ (by omega) seq content below ?_ stored
      · intro other frame here
        exact within other frame ((regrown.held other frame).mp here)
      · rw [kept, ← distance]
        exact fits
    exact ⟨content, (regrown.held seq content).mp held⟩
  | none =>
    left
    have placed : place buffer seq frame = (storeFrame roomy seq frame, true) := by
      rw [place, learn_known buffer seq learned, admitFrame]
      simp only [if_neg (show ¬ asI32 (wrappingSub seq buffer.expectedSeq) < 0 by omega), room,
        regrown.shape.sized.slotOf_eq, stored, Option.isSome_none, Bool.false_eq_true, ↓reduceIte]
    have same : (storeFrame roomy seq frame).expectedSeq = buffer.expectedSeq := kept
    rw [insertInto, if_neg number, placed]
    simp only [↓reduceIte, same, if_neg apart]
    rw [refreshGap_occupied, storeFrame_occupied roomy regrown.shape seq frame stored]
    exact Or.inr ⟨rfl, rfl⟩

theorem insertInto_far (sized : Sized buffer) (learned : buffer.expectedSeq ≠ 0) (seq : Nat)
    (frame : Frame) (now : Nat)
    (far : (reorderMaxWindow : Int) ≤ asI32 (wrappingSub seq buffer.expectedSeq)) :
    insertInto buffer seq frame now = (buffer, []) := by
  have room : makeRoom buffer (asI32 (wrappingSub seq buffer.expectedSeq)).toNat = none :=
    makeRoom_far buffer sized _ (by omega)
  have placed : place buffer seq frame = (buffer, false) := by
    rw [place, learn_known buffer seq learned, admitFrame]
    unfold reorderMaxWindow at far
    simp only [if_neg (show ¬ asI32 (wrappingSub seq buffer.expectedSeq) < 0 by omega), room]
  simp only [insertInto, placed, Bool.false_eq_true, ↓reduceIte, ite_self]

theorem flushTimeoutInto_advances {place : Nat} (standing : Standing buffer place) (seq : Nat)
    (frame : Frame) (held : Occupied buffer seq frame) :
    ∃ since, buffer.gapSince = some since ∧ ∀ later, since + reorderSkipDelay ≤ later →
      0 < asI32 (wrappingSub (flushTimeoutInto buffer later).1.expectedSeq buffer.expectedSeq) := by
  have armed := standing.settled.gap.mpr (standing.settled.shape.stored_iff.mpr ⟨seq, frame, held⟩)
  obtain ⟨since, running⟩ := Option.isSome_iff_exists.mp armed
  refine ⟨since, running, ?_⟩
  intro later due
  rcases flushTimeoutInto_carried buffer standing later with
    ⟨_, early⟩ | ⟨next, moved, limit, _, learned, carried⟩
  · have := early since running
    omega
  · have bound := (standing.known learned)
    have base := carried.standing.base
    unfold reorderMaxWindow at limit
    unfold u32Max at base
    unfold wrappingSub asI32
    unfold u32Max at bound
    split <;> omega

/-- The buffer never goes deaf: a number ahead of the base is buffered, or was,
or the running timer will move the base. Asked of the insert itself: something is
buffered already, or the number is less than a maximal window ahead. -/
theorem ahead_frame_heard (buffer : ReorderBuffer) (ops : List Op) (fresh : Fresh buffer)
    (guarded : Runs.Along (Runs.total perform) BeforeEnd (start buffer) ops)
    (seq : Nat) (frame : Frame) (now : Nat) (number : 1 ≤ seq) (below : seq ≤ u32Max) :
    let reached := (ops.foldl perform (start buffer)).buffer
    let after := insertInto reached seq frame now
    reached.expectedSeq ≠ 0 → 0 < asI32 (wrappingSub seq reached.expectedSeq) →
    (asI32 (wrappingSub seq reached.expectedSeq) < reorderMaxWindow ∨
      ∃ other content, Occupied reached other content) →
    (seq, frame) ∈ after.2 ∨ Occupied after.1 seq frame ∨
      (∃ content, Occupied reached seq content) ∨
      ∃ since, after.1.gapSince = some since ∧ ∀ later, since + reorderSkipDelay ≤ later →
        0 < asI32 (wrappingSub (flushTimeoutInto after.1 later).1.expectedSeq
          after.1.expectedSeq) := by
  intro reached after learned ahead open_
  obtain ⟨place, past⟩ := run_past buffer ops fresh guarded
  have standing : Standing reached place := past.standing
  obtain ⟨base, bound⟩ := standing.known learned
  by_cases near : asI32 (wrappingSub seq reached.expectedSeq) < reorderMaxWindow
  · have heard := insertInto_near reached standing.settled.shape standing.within (by omega) learned
      seq frame now (by omega) below ahead (by omega)
    rcases heard with stored | before
    · exact Or.inr (Or.inl stored)
    · exact Or.inr (Or.inr (Or.inl before))
  · obtain ⟨other, content, held⟩ := open_.resolve_left near
    have dropped : after = (reached, []) :=
      insertInto_far reached standing.settled.shape.sized learned seq frame now (by omega)
    rw [dropped]
    exact Or.inr (Or.inr (Or.inr (flushTimeoutInto_advances reached standing other content held)))

/-- With frame 3 waiting for frame 2, a jump of 70000 numbers finds the timer armed. -/
theorem ahead_frame_heard_gap :
    let reached := ([Op.insert 1 [7] 0, .insert 3 [9] 1].foldl perform (start new)).buffer
    let after := insertInto reached 70000 [5] 2
    (70000, [5]) ∈ after.2 ∨ Occupied after.1 70000 [5] ∨
      (∃ content, Occupied reached 70000 content) ∨
      ∃ since, after.1.gapSince = some since ∧ ∀ later, since + reorderSkipDelay ≤ later →
        0 < asI32 (wrappingSub (flushTimeoutInto after.1 later).1.expectedSeq
          after.1.expectedSeq) :=
  ahead_frame_heard new [.insert 1 [7] 0, .insert 3 [9] 1] Fresh.new (by decide +kernel) 70000 [5] 2
    (by decide) (by decide) (by decide +kernel) (by decide +kernel)
    (Or.inr ⟨3, [9], by decide +kernel, by decide +kernel⟩)

/-- After frame 1 alone, every number from 65538 up to half the space ahead is
dropped: nothing is delivered, stored or armed, and the base stays at 2. -/
theorem far_jump_deaf :
    let reached := ([Op.insert 1 [7] 0].foldl perform (start new)).buffer
    reached.expectedSeq = 2 ∧ reached.gapSince = none ∧
      ∀ seq frame now, 65538 ≤ seq → seq ≤ 2147483649 →
        0 < asI32 (wrappingSub seq reached.expectedSeq) ∧
          insertInto reached seq frame now = (reached, []) := by
  intro reached
  have base : reached.expectedSeq = 2 := by decide +kernel
  have sized : Sized reached := (Reachable.perform (.insert 1 [7] 0) Reachable.new).sized
  refine ⟨base, by decide +kernel, ?_⟩
  intro seq frame now low high
  have far : (reorderMaxWindow : Int) ≤ asI32 (wrappingSub seq reached.expectedSeq) := by
    rw [base, wrappingSub_ordered seq 2 (by omega) (by unfold u32Max; omega)]
    unfold asI32 reorderMaxWindow
    split <;> omega
  refine ⟨?_, insertInto_far reached sized (by omega) seq frame now far⟩
  unfold reorderMaxWindow at far
  omega

end Progress

end TlsVpn.Reorder

import TlsVpn.Reorder

/-!
Representation of the reorder ring. `Occupied` reads the ring as a partial map
from sequence numbers to frames; every operation is described by its effect on
that map and on `expectedSeq`, so later proofs never look at slots, masks or
bitmap words again.
-/

namespace TlsVpn.Reorder

open Words

def Occupied (buffer : ReorderBuffer) (seq : Nat) (frame : Frame) : Prop :=
  buffer.ring (seq % buffer.size) = some frame ∧ buffer.seqSlots (seq % buffer.size) = seq

def Sized (buffer : ReorderBuffer) : Prop :=
  (∃ power, 11 ≤ power ∧ power ≤ 16 ∧ buffer.size = 2 ^ power) ∧
    buffer.windowMask = buffer.size - 1

/-- What holds between any two statements of the buffer's code: the bitmap and
the ring agree, and a stored number sits at its own residue inside the window
that starts at `expectedSeq`. -/
structure Shape (buffer : ReorderBuffer) : Prop where
  sized : Sized buffer
  bits : ∀ index,
    (buffer.ring index).isSome = (buffer.bitmap (index / 64)).getLsbD (index % 64)
  outside : ∀ index, buffer.size ≤ index → buffer.ring index = none
  slots : ∀ index frame, buffer.ring index = some frame →
    buffer.seqSlots index % buffer.size = index ∧
      buffer.expectedSeq ≤ buffer.seqSlots index ∧
      buffer.seqSlots index < buffer.expectedSeq + buffer.size

/-- What holds between two calls: the slot of `expectedSeq` is empty and the gap
timer is armed exactly while something is stored. -/
structure Settled (buffer : ReorderBuffer) : Prop where
  shape : Shape buffer
  open_ : buffer.ring (buffer.expectedSeq % buffer.size) = none
  unlearned : buffer.expectedSeq = 0 → ∀ index, buffer.ring index = none
  gap : buffer.gapSince.isSome = true ↔ ∃ index, (buffer.ring index).isSome = true

variable {buffer : ReorderBuffer}

theorem Sized.size_pos (sized : Sized buffer) : 0 < buffer.size := by
  obtain ⟨⟨power, _, _, size⟩, _⟩ := sized
  rw [size]
  positivity

theorem Sized.slotOf_eq (sized : Sized buffer) (seq : Nat) :
    slotOf buffer seq = seq % buffer.size := by
  obtain ⟨⟨power, _, _, size⟩, mask⟩ := sized
  rw [slotOf, mask, size, Nat.and_two_pow_sub_one_eq_mod]

theorem Sized.size_le (sized : Sized buffer) : buffer.size ≤ reorderMaxWindow := by
  obtain ⟨⟨power, _, high, size⟩, _⟩ := sized
  rw [size]
  exact Nat.pow_le_pow_right (by decide) high

theorem Sized.words (sized : Sized buffer) : 64 * (buffer.size / 64) = buffer.size := by
  obtain ⟨⟨power, low, _, size⟩, _⟩ := sized
  have split : (2 : Nat) ^ power = 64 * 2 ^ (power - 6) := by
    rw [show (64 : Nat) = 2 ^ 6 from rfl, ← pow_add]
    congr 1
    omega
  rw [size, split, Nat.mul_div_cancel_left _ (by decide)]

theorem residue_unique (size base left right : Nat) (same : left % size = right % size)
    (leftLow : base ≤ left) (leftHigh : left < base + size)
    (rightLow : base ≤ right) (rightHigh : right < base + size) : left = right := by
  rcases Nat.le_total left right with ordered | ordered
  · have gap : (right - left) % size = 0 := Nat.sub_mod_eq_zero_of_mod_eq same.symm
    have small : right - left < size := by omega
    rw [Nat.mod_eq_of_lt small] at gap
    omega
  · have gap : (left - right) % size = 0 := Nat.sub_mod_eq_zero_of_mod_eq same
    have small : left - right < size := by omega
    rw [Nat.mod_eq_of_lt small] at gap
    omega

section

variable (shape : Shape buffer)

include shape

theorem Shape.occupied (index : Nat) (frame : Frame) (stored : buffer.ring index = some frame) :
    Occupied buffer (buffer.seqSlots index) frame := by
  have residue := (shape.slots index frame stored).1
  exact ⟨by rw [residue, stored], by rw [residue]⟩

theorem Shape.occupied_window (seq : Nat) (frame : Frame) (held : Occupied buffer seq frame) :
    buffer.expectedSeq ≤ seq ∧ seq < buffer.expectedSeq + buffer.size := by
  have window := (shape.slots _ frame held.1).2
  rw [held.2] at window
  exact window

theorem Shape.occupied_of_ring (seq : Nat) (frame : Frame) (low : buffer.expectedSeq ≤ seq)
    (high : seq < buffer.expectedSeq + buffer.size)
    (stored : buffer.ring (seq % buffer.size) = some frame) : Occupied buffer seq frame := by
  obtain ⟨residue, lower, upper⟩ := shape.slots _ frame stored
  exact ⟨stored, residue_unique buffer.size buffer.expectedSeq _ _ residue lower upper low high⟩

theorem Shape.vacant_iff (seq : Nat) (low : buffer.expectedSeq ≤ seq)
    (high : seq < buffer.expectedSeq + buffer.size) :
    buffer.ring (seq % buffer.size) = none ↔ ∀ frame, ¬ Occupied buffer seq frame := by
  constructor
  · intro empty frame held
    have stored := held.1
    rw [empty] at stored
    cases stored
  · intro vacant
    cases stored : buffer.ring (seq % buffer.size) with
    | none => rfl
    | some frame => exact absurd (shape.occupied_of_ring seq frame low high stored) (vacant frame)

theorem Shape.bitmapAny_iff :
    bitmapAny buffer = true ↔ ∃ index, (buffer.ring index).isSome = true := by
  have words := shape.sized.words
  simp only [bitmapAny, List.any_eq_true, List.mem_range, bne_iff_ne, ne_zero_iff]
  constructor
  · rintro ⟨word, inside, position, small, lit⟩
    refine ⟨64 * word + position, ?_⟩
    rw [shape.bits]
    have quotient : (64 * word + position) / 64 = word := by omega
    have remainder : (64 * word + position) % 64 = position := by omega
    rw [quotient, remainder, lit]
  · rintro ⟨index, stored⟩
    have bound : index < buffer.size := by
      by_contra beyond
      rw [shape.outside index (by omega)] at stored
      cases stored
    refine ⟨index / 64, by omega, index % 64, by omega, ?_⟩
    rw [← shape.bits index, stored]

theorem Shape.hasGap_iff :
    hasGap buffer = true ↔ buffer.expectedSeq ≠ 0 ∧
      buffer.ring (buffer.expectedSeq % buffer.size) = none ∧
      ∃ index, (buffer.ring index).isSome = true := by
  simp only [hasGap, Bool.and_eq_true, bne_iff_ne, shape.sized.slotOf_eq,
    Option.isNone_iff_eq_none, shape.bitmapAny_iff, and_assoc, ne_eq]

end

section RefreshGap

variable (buffer : ReorderBuffer) (now : Nat)

theorem refreshGap_cases :
    ∃ gap stats, refreshGap buffer now = { buffer with gapSince := gap, stats := stats } ∧
      (gap.isSome = true ↔ hasGap buffer = true) := by
  unfold refreshGap
  by_cases gap : hasGap buffer = true
  · by_cases idle : buffer.gapSince.isNone = true
    · rw [if_pos gap, if_pos idle]
      exact ⟨some now, _, rfl, by simp [gap]⟩
    · rw [if_pos gap, if_neg idle]
      refine ⟨buffer.gapSince, buffer.stats, rfl, ?_⟩
      simp only [gap, iff_true]
      cases since : buffer.gapSince with
      | none => simp [since] at idle
      | some instant => rfl
  · rw [if_neg gap]
    exact ⟨none, buffer.stats, rfl, by simp [gap]⟩

theorem refreshGap_settled (shape : Shape buffer)
    (open_ : buffer.ring (buffer.expectedSeq % buffer.size) = none)
    (learned : buffer.expectedSeq ≠ 0) : Settled (refreshGap buffer now) := by
  obtain ⟨gap, stats, same, armed⟩ := refreshGap_cases buffer now
  rw [same]
  refine ⟨⟨shape.sized, shape.bits, shape.outside, shape.slots⟩, open_, ?_, ?_⟩
  · intro unlearned
    exact absurd unlearned learned
  · change gap.isSome = true ↔ _
    rw [armed, shape.hasGap_iff]
    exact ⟨fun gap => gap.2.2, fun stored => ⟨learned, open_, stored⟩⟩

end RefreshGap

section Flush

variable {after : ReorderBuffer} {next : Nat} {frame : Frame} {out : Delivered} (fuel : Nat)
  (buffer : ReorderBuffer) (top : Nat)

theorem Shape.head_seq {buffer : ReorderBuffer} (shape : Shape buffer) (frame : Frame)
    (stored : buffer.ring (buffer.expectedSeq % buffer.size) = some frame) :
    buffer.seqSlots (buffer.expectedSeq % buffer.size) = buffer.expectedSeq :=
  (shape.occupied_of_ring buffer.expectedSeq frame (Nat.le_refl _)
    (Nat.lt_add_of_pos_right shape.sized.size_pos) stored).2

theorem update_bitmap_getLsbD (bitmap : Nat → BitVec 64) (target index : Nat) (word : BitVec 64) :
    (Function.update bitmap (target / 64) word (index / 64)).getLsbD (index % 64) =
      if index / 64 = target / 64 then word.getLsbD (index % 64)
      else (bitmap (index / 64)).getLsbD (index % 64) := by
  by_cases same : index / 64 = target / 64 <;> simp [Function.update, same]

theorem takeSlot_shape (shape : Shape buffer)
    (within : ∀ seq frame, Occupied buffer seq frame → seq ≤ u32Max) :
    Shape (takeSlot buffer (buffer.expectedSeq % buffer.size)) := by
  refine ⟨shape.sized, ?_, ?_, ?_⟩
  · intro index
    have old := shape.bits index
    simp only [takeSlot, update_bitmap_getLsbD]
    by_cases same : index = buffer.expectedSeq % buffer.size
    · subst index
      rw [Function.update_self, if_pos rfl, andNot_bit_getLsbD _ _ _ (Nat.mod_lt _ (by decide))]
      simp
    · rw [Function.update_of_ne same]
      by_cases word : index / 64 = buffer.expectedSeq % buffer.size / 64
      · have position : index % 64 ≠ buffer.expectedSeq % buffer.size % 64 := by omega
        rw [if_pos word, andNot_bit_getLsbD _ _ _ (Nat.mod_lt _ (by decide)), ← word, ← old]
        simp [position]
      · rw [if_neg word, old]
  · intro index outside
    have inside := Nat.mod_lt buffer.expectedSeq shape.sized.size_pos
    have apart : index ≠ buffer.expectedSeq % buffer.size := by
      intro same
      exact absurd outside (by rw [same]; exact Nat.not_le_of_lt inside)
    simp only [takeSlot, Function.update_of_ne apart]
    exact shape.outside index outside
  · intro index other held
    have apart : index ≠ buffer.expectedSeq % buffer.size := by
      rintro rfl
      simp [takeSlot] at held
    simp only [takeSlot, Function.update_of_ne apart] at held ⊢
    obtain ⟨residue, low, high⟩ := shape.slots index other held
    have fresh : buffer.seqSlots index ≠ buffer.expectedSeq := by
      intro same
      rw [same] at residue
      exact apart residue.symm
    have last := within _ other (shape.occupied index other held)
    rw [wrappingAdd_one_small buffer.expectedSeq (by omega)]
    exact ⟨residue, by omega, by omega⟩

theorem takeSlot_occupied (shape : Shape buffer) (frame : Frame)
    (stored : buffer.ring (buffer.expectedSeq % buffer.size) = some frame) (seq : Nat)
    (other : Frame) :
    Occupied (takeSlot buffer (buffer.expectedSeq % buffer.size)) seq other ↔
      Occupied buffer seq other ∧ seq ≠ buffer.expectedSeq := by
  have head := shape.head_seq frame stored
  by_cases slot : seq % buffer.size = buffer.expectedSeq % buffer.size
  · constructor
    · intro held
      have ring := held.1
      simp [takeSlot, slot] at ring
    · rintro ⟨held, apart⟩
      have number := held.2
      rw [slot, head] at number
      exact absurd number.symm apart
  · have apart : seq ≠ buffer.expectedSeq := fun same => slot (by rw [same])
    simp only [Occupied, takeSlot, Function.update_of_ne slot, apart, ne_eq, not_false_eq_true,
      and_true]

/-- The effect of the flush loop: it releases the consecutive frames from
`expectedSeq` on and stops at the first number that is not stored. -/
structure Flushed (before after : ReorderBuffer) (out : Delivered) : Prop where
  shape : Shape after
  size : after.size = before.size
  gap : after.gapSince = before.gapSince
  stats : after.stats = before.stats
  advance : before.expectedSeq ≤ after.expectedSeq
  open_ : after.ring (after.expectedSeq % after.size) = none
  released : ∀ seq, before.expectedSeq ≤ seq → seq < after.expectedSeq →
    ∃ frame, Occupied before seq frame ∧ (frame ≠ [] → (seq, frame) ∈ out)
  kept : ∀ seq frame, Occupied after seq frame ↔
    Occupied before seq frame ∧ after.expectedSeq ≤ seq
  source : ∀ seq frame, (seq, frame) ∈ out →
    before.expectedSeq ≤ seq ∧ seq < after.expectedSeq ∧ Occupied before seq frame
  ordered : out.Pairwise fun left right => left.1 < right.1

/-- The same with the place where the loop stopped counted past the last number:
`next` is `expectedSeq` afterwards, or one past `u32Max` when the base wrapped. -/
structure Passed (before after : ReorderBuffer) (next : Nat) (out : Delivered) : Prop where
  shape : Shape after
  size : after.size = before.size
  gap : after.gapSince = before.gapSince
  stats : after.stats = before.stats
  base : (after.expectedSeq = next ∧ (next ≤ u32Max ∨ next = before.expectedSeq)) ∨
    (after.expectedSeq = 0 ∧ next = u32Max + 1 ∧ before.expectedSeq < next)
  advance : before.expectedSeq ≤ next
  open_ : after.ring (after.expectedSeq % after.size) = none
  released : ∀ seq, before.expectedSeq ≤ seq → seq < next →
    ∃ frame, Occupied before seq frame ∧ (frame ≠ [] → (seq, frame) ∈ out)
  kept : ∀ seq frame, Occupied after seq frame ↔ Occupied before seq frame ∧ next ≤ seq
  source : ∀ seq frame, (seq, frame) ∈ out →
    before.expectedSeq ≤ seq ∧ seq < next ∧ Occupied before seq frame
  ordered : out.Pairwise fun left right => left.1 < right.1

theorem Passed.stay (shape : Shape buffer)
    (open_ : buffer.ring (buffer.expectedSeq % buffer.size) = none) :
    Passed buffer buffer buffer.expectedSeq [] where
  shape := shape
  size := rfl
  gap := rfl
  stats := rfl
  base := Or.inl ⟨rfl, Or.inr rfl⟩
  advance := Nat.le_refl _
  open_ := open_
  released := fun _ low high => absurd high (Nat.not_lt_of_le low)
  kept := fun seq frame => ⟨fun held => ⟨held, (shape.occupied_window seq frame held).1⟩,
    fun held => held.1⟩
  source := fun _ _ member => absurd member List.not_mem_nil
  ordered := List.Pairwise.nil

theorem Passed.turn {buffer : ReorderBuffer} (head : Occupied buffer buffer.expectedSeq frame)
    (advance : buffer.expectedSeq + 1 ≤ next) (shape : Shape after)
    (size : after.size = buffer.size) (gap : after.gapSince = buffer.gapSince)
    (stats : after.stats = buffer.stats)
    (base : (after.expectedSeq = next ∧ next ≤ u32Max) ∨
      (after.expectedSeq = 0 ∧ next = u32Max + 1))
    (open_ : after.ring (after.expectedSeq % after.size) = none)
    (released : ∀ seq, buffer.expectedSeq < seq → seq < next →
      ∃ frame, Occupied buffer seq frame ∧ (frame ≠ [] → (seq, frame) ∈ out))
    (kept : ∀ seq frame, Occupied after seq frame ↔ Occupied buffer seq frame ∧ next ≤ seq)
    (source : ∀ seq frame, (seq, frame) ∈ out →
      buffer.expectedSeq < seq ∧ seq < next ∧ Occupied buffer seq frame)
    (ordered : out.Pairwise fun left right => left.1 < right.1) :
    Passed buffer after next
      (if frame.isEmpty then out else (buffer.expectedSeq, frame) :: out) := by
  have later : ∀ entry, entry ∈ (if frame.isEmpty then out else (buffer.expectedSeq, frame) :: out) ↔
      (frame ≠ [] ∧ entry = (buffer.expectedSeq, frame)) ∨ entry ∈ out := by
    intro entry
    cases frame with
    | nil => simp
    | cons byte rest => simp
  refine ⟨shape, size, gap, stats, ?_, by omega, open_, ?_, kept, ?_, ?_⟩
  · rcases base with ⟨same, small⟩ | ⟨zero, last⟩
    · exact Or.inl ⟨same, Or.inl small⟩
    · exact Or.inr ⟨zero, last, by omega⟩
  · intro seq low high
    rcases Nat.eq_or_lt_of_le low with same | above
    · subst seq
      exact ⟨frame, head, fun nonempty => (later _).mpr (Or.inl ⟨nonempty, rfl⟩)⟩
    · obtain ⟨other, here, given⟩ := released seq above high
      exact ⟨other, here, fun nonempty => (later _).mpr (Or.inr (given nonempty))⟩
  · intro seq other member
    rcases (later _).mp member with ⟨_, same⟩ | inside
    · cases same
      exact ⟨Nat.le_refl _, by omega, head⟩
    · obtain ⟨low, high, here⟩ := source seq other inside
      exact ⟨by omega, high, here⟩
  · cases frame with
    | nil => simpa using ordered
    | cons byte rest =>
      simp only [List.isEmpty_cons, Bool.false_eq_true, ↓reduceIte, List.pairwise_cons]
      exact ⟨fun entry member => (source entry.1 entry.2 member).1, ordered⟩

theorem flushLoop_vacant (vacant : buffer.ring (slotOf buffer buffer.expectedSeq) = none) :
    flushLoop fuel buffer = (buffer, []) := by
  cases fuel with
  | zero => rfl
  | succ fuel => simp only [flushLoop, vacant]

section

variable {buffer : ReorderBuffer} (shape : Shape buffer)
  (held : buffer.ring (buffer.expectedSeq % buffer.size) = some frame)
  (head : Occupied buffer buffer.expectedSeq frame)

include shape held head

theorem Passed.turn_below (below : buffer.expectedSeq < u32Max)
    (rest : Passed (takeSlot buffer (buffer.expectedSeq % buffer.size)) after next out) :
    Passed buffer after next
      (if frame.isEmpty then out else (buffer.expectedSeq, frame) :: out) := by
  have takenHeld := takeSlot_occupied buffer shape frame held
  have takenSeq : (takeSlot buffer (buffer.expectedSeq % buffer.size)).expectedSeq =
      buffer.expectedSeq + 1 :=
    wrappingAdd_one_small buffer.expectedSeq below
  have later := rest.advance
  rw [takenSeq] at later
  refine Passed.turn head later rest.shape rest.size rest.gap rest.stats ?_ rest.open_ ?_ ?_ ?_
    rest.ordered
  · rcases rest.base with ⟨same, bound⟩ | ⟨zero, wrapped, _⟩
    · exact Or.inl ⟨same, by omega⟩
    · exact Or.inr ⟨zero, wrapped⟩
  · intro seq low high
    obtain ⟨other, here, given⟩ := rest.released seq (by rw [takenSeq]; omega) high
    exact ⟨other, ((takenHeld seq other).mp here).1, given⟩
  · intro seq other
    rw [rest.kept, takenHeld]
    constructor
    · rintro ⟨⟨here, _⟩, low⟩
      exact ⟨here, low⟩
    · rintro ⟨here, low⟩
      exact ⟨⟨here, by omega⟩, low⟩
  · intro seq other member
    obtain ⟨low, high, here⟩ := rest.source seq other member
    rw [takenSeq] at low
    exact ⟨by omega, high, ((takenHeld seq other).mp here).1⟩

theorem Passed.turn_last (takenShape : Shape (takeSlot buffer (buffer.expectedSeq % buffer.size)))
    (within : ∀ seq other, Occupied buffer seq other → seq ≤ u32Max)
    (last : buffer.expectedSeq = u32Max) :
    Passed buffer (flushLoop fuel (takeSlot buffer (buffer.expectedSeq % buffer.size))).1
      (u32Max + 1)
      (if frame.isEmpty
        then (flushLoop fuel (takeSlot buffer (buffer.expectedSeq % buffer.size))).2
        else (buffer.expectedSeq, frame) ::
          (flushLoop fuel (takeSlot buffer (buffer.expectedSeq % buffer.size))).2) := by
  have takenHeld := takeSlot_occupied buffer shape frame held
  have takenSeq : (takeSlot buffer (buffer.expectedSeq % buffer.size)).expectedSeq = 0 := by
    change wrappingAdd buffer.expectedSeq 1 = 0
    rw [last]
    norm_num [wrappingAdd, u32Max]
  have vacant : ∀ seq other,
      ¬ Occupied (takeSlot buffer (buffer.expectedSeq % buffer.size)) seq other := by
    intro seq other here
    obtain ⟨old, apart⟩ := (takenHeld seq other).mp here
    have low := (shape.occupied_window seq other old).1
    have high := within seq other old
    omega
  have takenOpen := (takenShape.vacant_iff _ (Nat.le_refl _)
    (Nat.lt_add_of_pos_right takenShape.sized.size_pos)).mpr (vacant _)
  rw [flushLoop_vacant fuel _ (by rw [takenShape.sized.slotOf_eq, takenOpen])]
  refine Passed.turn head (by omega) takenShape rfl rfl rfl (Or.inr ⟨takenSeq, rfl⟩) takenOpen
    ?_ ?_ ?_ List.Pairwise.nil
  · intro seq low high
    omega
  · intro seq other
    constructor
    · intro here
      exact absurd here (vacant seq other)
    · rintro ⟨here, low⟩
      have := within seq other here
      omega
  · intro seq other member
    cases member

end

/-- The loop ends before its fuel does: `top` bounds every stored number, so at
most `top - expectedSeq` slots can be taken one after another. -/
theorem flushLoop_passes (buffer : ReorderBuffer) (shape : Shape buffer)
    (stored : ∀ seq frame, Occupied buffer seq frame → seq < top) (small : top ≤ u32Max + 1)
    (enough : top ≤ buffer.expectedSeq + fuel) :
    ∃ next, Passed buffer (flushLoop fuel buffer).1 next (flushLoop fuel buffer).2 := by
  have within : ∀ seq frame, Occupied buffer seq frame → seq ≤ u32Max := by
    intro seq frame here
    have := stored seq frame here
    omega
  induction fuel generalizing buffer with
  | zero =>
    refine ⟨_, Passed.stay buffer shape ?_⟩
    rw [shape.vacant_iff _ (Nat.le_refl _) (Nat.lt_add_of_pos_right shape.sized.size_pos)]
    intro frame held
    have := stored _ frame held
    omega
  | succ fuel ih =>
    cases held : buffer.ring (buffer.expectedSeq % buffer.size) with
    | none =>
      rw [flushLoop_vacant _ buffer (by rw [shape.sized.slotOf_eq, held])]
      exact ⟨_, Passed.stay buffer shape held⟩
    | some frame =>
      have head : Occupied buffer buffer.expectedSeq frame :=
        shape.occupied_of_ring _ frame (Nat.le_refl _)
          (Nat.lt_add_of_pos_right shape.sized.size_pos) held
      have takenShape := takeSlot_shape buffer shape within
      have takenStored : ∀ seq other,
          Occupied (takeSlot buffer (buffer.expectedSeq % buffer.size)) seq other →
            Occupied buffer seq other :=
        fun seq other here => ((takeSlot_occupied buffer shape frame held seq other).mp here).1
      simp only [flushLoop, shape.sized.slotOf_eq, held]
      rcases Nat.lt_or_ge buffer.expectedSeq u32Max with below | last
      · have takenSeq : (takeSlot buffer (buffer.expectedSeq % buffer.size)).expectedSeq =
            buffer.expectedSeq + 1 :=
          wrappingAdd_one_small buffer.expectedSeq below
        obtain ⟨next, rest⟩ := ih _ takenShape
          (fun seq other here => stored seq other (takenStored seq other here))
          (by rw [takenSeq]; omega)
          (fun seq other here => within seq other (takenStored seq other here))
        exact ⟨next, Passed.turn_below shape held head below rest⟩
      · have bound := within _ frame head
        exact ⟨_, Passed.turn_last fuel shape held head takenShape within (by omega)⟩

theorem flushLoop_stops (buffer : ReorderBuffer) (shape : Shape buffer)
    (stored : ∀ seq frame, Occupied buffer seq frame → seq < top) (small : top ≤ u32Max)
    (enough : top ≤ buffer.expectedSeq + fuel) :
    Flushed buffer (flushLoop fuel buffer).1 (flushLoop fuel buffer).2 := by
  obtain ⟨next, passed⟩ := flushLoop_passes fuel top buffer shape stored (by omega) enough
  have base : (flushLoop fuel buffer).1.expectedSeq = next := by
    rcases passed.base with ⟨same, _⟩ | ⟨_, last, moved⟩
    · exact same
    · obtain ⟨frame, held, _⟩ := passed.released u32Max (by omega) (by omega)
      have := stored u32Max frame held
      omega
  subst next
  exact ⟨passed.shape, passed.size, passed.gap, passed.stats, passed.advance, passed.open_,
    passed.released, passed.kept, passed.source, passed.ordered⟩

end Flush

section Window

variable (buffer : ReorderBuffer)

theorem growSize_power (required fuel power : Nat) (high : power ≤ 16)
    (enough : 16 ≤ power + fuel) :
    ∃ grown, power ≤ grown ∧ grown ≤ 16 ∧ growSize required fuel (2 ^ power) = 2 ^ grown ∧
      (required ≤ reorderMaxWindow → required ≤ 2 ^ grown) := by
  induction fuel generalizing power with
  | zero =>
    have top : power = 16 := by omega
    subst power
    exact ⟨16, Nat.le_refl _, Nat.le_refl _, rfl, fun bound => bound⟩
  | succ fuel ih =>
    by_cases more : 2 ^ power < required ∧ 2 ^ power < reorderMaxWindow
    · have room : power < 16 := by
        by_contra full
        have top : power = 16 := by omega
        rw [top] at more
        exact absurd more.2 (by decide)
      obtain ⟨grown, low, top, same, enough⟩ := ih (power + 1) (by omega) (by omega)
      refine ⟨grown, by omega, top, ?_, enough⟩
      rw [growSize, if_pos more, ← pow_succ, same]
    · refine ⟨power, Nat.le_refl _, high, by rw [growSize, if_neg more], fun bound => ?_⟩
      by_contra short
      apply more
      omega

theorem storeSlot_bits (slots : Slots) (target seq : Nat) (frame : Frame)
    (bits : ∀ index, (slots.ring index).isSome = (slots.bitmap (index / 64)).getLsbD (index % 64))
    (index : Nat) :
    ((storeSlot slots target seq frame).ring index).isSome =
      ((storeSlot slots target seq frame).bitmap (index / 64)).getLsbD (index % 64) := by
  simp only [storeSlot, update_bitmap_getLsbD]
  by_cases same : index = target
  · subst index
    rw [Function.update_self, if_pos rfl, or_bit_getLsbD _ _ _ (Nat.mod_lt _ (by decide))]
    simp
  · rw [Function.update_of_ne same]
    by_cases word : index / 64 = target / 64
    · have position : index % 64 ≠ target % 64 := by omega
      rw [if_pos word, or_bit_getLsbD _ _ _ (Nat.mod_lt _ (by decide)), ← word, ← bits]
      simp [position]
    · rw [if_neg word, bits]

/-- The copied prefix of the old ring: nothing else is in the new ring, and
nothing of the prefix was overwritten, because numbers of one window differ
modulo every larger power of two as well. -/
structure Rehashed (buffer : ReorderBuffer) (newSize count : Nat) (slots : Slots) : Prop where
  bits : ∀ index, (slots.ring index).isSome = (slots.bitmap (index / 64)).getLsbD (index % 64)
  source : ∀ index frame, slots.ring index = some frame → ∃ old, old < count ∧
    buffer.ring old = some frame ∧ slots.seqSlots index = buffer.seqSlots old ∧
    buffer.seqSlots old % newSize = index
  copied : ∀ old frame, old < count → buffer.ring old = some frame →
    slots.ring (buffer.seqSlots old % newSize) = some frame ∧
      slots.seqSlots (buffer.seqSlots old % newSize) = buffer.seqSlots old

theorem rehash_rehashed (shape : Shape buffer) (power count : Nat)
    (larger : buffer.size ≤ 2 ^ power) :
    Rehashed buffer (2 ^ power) count (rehash buffer (2 ^ power - 1) count) := by
  induction count with
  | zero =>
    exact ⟨fun _ => by simp [rehash], fun _ _ stored => by simp [rehash] at stored,
      fun _ _ inside => absurd inside (Nat.not_lt_zero _)⟩
  | succ count ih =>
    cases held : buffer.ring count with
    | none =>
      have same : rehash buffer (2 ^ power - 1) (count + 1) =
          rehash buffer (2 ^ power - 1) count := by simp only [rehash, held]
      rw [same]
      refine ⟨ih.bits, ?_, ?_⟩
      · intro index frame stored
        obtain ⟨old, inside, rest⟩ := ih.source index frame stored
        exact ⟨old, by omega, rest⟩
      · intro old frame inside stored
        have apart : old ≠ count := by
          rintro rfl
          simp [held] at stored
        exact ih.copied old frame (by omega) stored
    | some current =>
      have same : rehash buffer (2 ^ power - 1) (count + 1) =
          storeSlot (rehash buffer (2 ^ power - 1) count)
            (buffer.seqSlots count % 2 ^ power) (buffer.seqSlots count) current := by
        simp only [rehash, held, Nat.and_two_pow_sub_one_eq_mod]
      rw [same]
      refine ⟨storeSlot_bits _ _ _ _ ih.bits, ?_, ?_⟩
      · intro index frame stored
        by_cases here : index = buffer.seqSlots count % 2 ^ power
        · subst index
          simp only [storeSlot, Function.update_self, Option.some.injEq] at stored ⊢
          subst frame
          exact ⟨count, by omega, held, rfl, rfl⟩
        · simp only [storeSlot, Function.update_of_ne here] at stored ⊢
          obtain ⟨old, inside, rest⟩ := ih.source index frame stored
          exact ⟨old, by omega, rest⟩
      · intro old frame inside stored
        rcases Nat.eq_or_lt_of_le (Nat.le_of_lt_succ inside) with here | before
        · subst old
          rw [held] at stored
          cases stored
          simp [storeSlot]
        · -- equal residues of the new size would put both numbers in one old slot
          have apart : buffer.seqSlots old % 2 ^ power ≠ buffer.seqSlots count % 2 ^ power := by
            intro clash
            obtain ⟨oldSlot, oldLow, oldHigh⟩ := shape.slots old frame stored
            obtain ⟨newSlot, newLow, newHigh⟩ := shape.slots count current held
            have equal := residue_unique (2 ^ power) buffer.expectedSeq _ _ clash
              oldLow (by omega) newLow (by omega)
            rw [equal, newSlot] at oldSlot
            omega
          simp only [storeSlot, Function.update_of_ne apart]
          exact ih.copied old frame before stored

structure Regrown (before after : ReorderBuffer) : Prop where
  shape : Shape after
  expectedSeq : after.expectedSeq = before.expectedSeq
  gap : after.gapSince = before.gapSince
  stats : after.stats = before.stats
  held : ∀ seq frame, Occupied after seq frame ↔ Occupied before seq frame

theorem growWindow_regrown (shape : Shape buffer) (required : Nat)
    (below : buffer.size < reorderMaxWindow) (bounded : required ≤ reorderMaxWindow) :
    ∃ grown, growWindow buffer required = some grown ∧ Regrown buffer grown ∧
      required ≤ grown.size := by
  obtain ⟨⟨power, low, high, size⟩, _⟩ := shape.sized
  obtain ⟨larger, above, top, same, enough⟩ := growSize_power required 16 power high (by omega)
  have enough := enough bounded
  have clip : min (growSize required 16 buffer.size) reorderMaxWindow = 2 ^ larger := by
    rw [size, same]
    exact Nat.min_eq_left (Nat.pow_le_pow_right (by decide) top)
  have wider : buffer.size ≤ 2 ^ larger := by
    rw [size]
    exact Nat.pow_le_pow_right (by decide) above
  have copy := rehash_rehashed buffer shape larger buffer.size wider
  let slots := rehash buffer (2 ^ larger - 1) buffer.size
  let grown : ReorderBuffer := { buffer with
    size := 2 ^ larger
    ring := slots.ring
    seqSlots := slots.seqSlots
    bitmap := slots.bitmap
    windowMask := 2 ^ larger - 1 }
  have result : growWindow buffer required = some grown := by
    simp only [growWindow, clip]
    rw [if_neg (by omega), if_neg (by omega)]
  have grownSlots : ∀ index frame, grown.ring index = some frame →
      grown.seqSlots index % grown.size = index ∧
        grown.expectedSeq ≤ grown.seqSlots index ∧
        grown.seqSlots index < grown.expectedSeq + grown.size := by
    intro index frame stored
    obtain ⟨old, _, held, number, residue⟩ := copy.source index frame stored
    obtain ⟨_, lower, upper⟩ := shape.slots old frame held
    change slots.seqSlots index % 2 ^ larger = index ∧ _
    rw [number]
    refine ⟨residue, ?_, ?_⟩
    · change buffer.expectedSeq ≤ slots.seqSlots index
      rw [number]
      exact lower
    · change slots.seqSlots index < buffer.expectedSeq + 2 ^ larger
      rw [number]
      omega
  have grownShape : Shape grown := by
    refine ⟨⟨⟨larger, by omega, top, rfl⟩, rfl⟩, copy.bits, ?_, grownSlots⟩
    intro index outside
    cases stored : grown.ring index with
    | none => rfl
    | some frame =>
      have residue := (grownSlots index frame stored).1
      have inside := Nat.mod_lt (grown.seqSlots index) (show 0 < grown.size from by
        change 0 < 2 ^ larger; positivity)
      omega
  refine ⟨grown, result, ⟨grownShape, rfl, rfl, rfl, ?_⟩, enough⟩
  intro seq frame
  constructor
  · intro held
    obtain ⟨old, _, stored, number, _⟩ := copy.source _ frame held.1
    have seqEqual : buffer.seqSlots old = seq := number.symm.trans held.2
    have back := shape.occupied old frame stored
    rwa [seqEqual] at back
  · intro held
    have inside := Nat.mod_lt seq shape.sized.size_pos
    have copied := copy.copied _ frame inside held.1
    rw [held.2] at copied
    exact copied

theorem makeRoom_near (shape : Shape buffer) (distance : Nat) (near : distance < reorderMaxWindow) :
    ∃ roomy, makeRoom buffer distance = some roomy ∧ Regrown buffer roomy ∧
      distance < roomy.size := by
  unfold makeRoom
  by_cases beyond : distance ≥ buffer.size
  · rw [if_pos beyond, if_neg (by omega)]
    obtain ⟨grown, result, regrown, enough⟩ :=
      growWindow_regrown buffer shape (distance + 1) (by omega) (by omega)
    exact ⟨grown, result, regrown, by omega⟩
  · rw [if_neg beyond]
    exact ⟨buffer, rfl, ⟨shape, rfl, rfl, rfl, fun _ _ => Iff.rfl⟩, by omega⟩

theorem makeRoom_far (sized : Sized buffer) (distance : Nat) (far : reorderMaxWindow ≤ distance) :
    makeRoom buffer distance = none := by
  have bound := sized.size_le
  unfold makeRoom
  rw [if_pos (by omega), if_pos far]

theorem storeFrame_shape (shape : Shape buffer) (seq : Nat) (frame : Frame)
    (low : buffer.expectedSeq ≤ seq) (high : seq < buffer.expectedSeq + buffer.size) :
    Shape (storeFrame buffer seq frame) := by
  refine ⟨shape.sized, storeSlot_bits _ (slotOf buffer seq) seq frame shape.bits, ?_, ?_⟩
  · intro index outside
    have inside := Nat.mod_lt seq shape.sized.size_pos
    have apart : index ≠ slotOf buffer seq := by
      rw [shape.sized.slotOf_eq]
      intro same
      exact absurd outside (by rw [same]; exact Nat.not_le_of_lt inside)
    simp only [storeFrame, storeSlot, Function.update_of_ne apart]
    exact shape.outside index outside
  · intro index other held
    by_cases here : index = slotOf buffer seq
    · subst index
      simp only [storeFrame, storeSlot, Function.update_self]
      rw [shape.sized.slotOf_eq]
      exact ⟨rfl, low, high⟩
    · simp only [storeFrame, storeSlot, Function.update_of_ne here] at held ⊢
      exact shape.slots index other held

theorem storeFrame_occupied (shape : Shape buffer) (seq : Nat) (frame : Frame)
    (vacant : buffer.ring (seq % buffer.size) = none) (other : Nat) (content : Frame) :
    Occupied (storeFrame buffer seq frame) other content ↔
      Occupied buffer other content ∨ (other = seq ∧ content = frame) := by
  simp only [Occupied, storeFrame, storeSlot, shape.sized.slotOf_eq]
  by_cases slot : other % buffer.size = seq % buffer.size
  · rw [slot, Function.update_self, Function.update_self, vacant]
    constructor
    · rintro ⟨stored, number⟩
      exact Or.inr ⟨number.symm, (Option.some.inj stored).symm⟩
    · rintro (⟨stored, _⟩ | ⟨number, same⟩)
      · cases stored
      · exact ⟨by rw [same], number.symm⟩
  · rw [Function.update_of_ne slot, Function.update_of_ne slot]
    constructor
    · exact Or.inl
    · rintro (held | ⟨number, _⟩)
      · exact held
      · exact absurd (by rw [number]) slot

end Window

end TlsVpn.Reorder

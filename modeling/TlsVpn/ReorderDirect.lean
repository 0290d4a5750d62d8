import TlsVpn.ReorderEnd

/-!
The direct reorder path against the normal one. `try_direct_batch` and the owned
delivery of `flush_owned_frames` never look at the ring. On a buffer whose ring
is empty they compute exactly what inserting the batch frame by frame computes,
down to the vacated slots. The code takes an unarmed gap timer for an empty ring;
`Exact` says when it may, and it holds in every run that offers no number across
the wrap.
-/

namespace TlsVpn.Reorder

open Words

/-- `try_direct_batch` with its two vectors: on success the batch is drained and
its non-empty frames are appended to `ready`. -/
def tryDirectBatchInto (buffer : ReorderBuffer) (input ready : Delivered) :
    Bool × ReorderBuffer × Delivered × Delivered :=
  match tryDirectBatch buffer input with
  | some (advanced, out) => (true, advanced, [], ready ++ out)
  | none => (false, buffer, input, ready)

/-- `flush_owned_frames` of client.rs, with the frames it hands to the TAP
delivery: as owned vectors on the direct path, as shared ones otherwise. -/
def flushOwnedFrames (buffer : ReorderBuffer) (clock : Nat → Nat) (input : List (Nat × Frame)) :
    ReorderBuffer × Delivered :=
  if input.isEmpty then (buffer, []) else
    match tryAdvanceSequences buffer (input.map Prod.fst) with
    | some advanced => (advanced, input.filter fun entry => !entry.2.isEmpty)
    | none => insertAll buffer clock input

section Vacated

def Vacated (buffer : ReorderBuffer) : Prop :=
  ∀ index, buffer.ring index = none →
    buffer.seqSlots index = 0 ∧ (buffer.bitmap (index / 64)).getLsbD (index % 64) = false

def Slots.Vacated (slots : Slots) : Prop :=
  ∀ index, slots.ring index = none →
    slots.seqSlots index = 0 ∧ (slots.bitmap (index / 64)).getLsbD (index % 64) = false

theorem storeSlot_vacated (slots : Slots) (target seq : Nat) (frame : Frame)
    (vacated : slots.Vacated) : (storeSlot slots target seq frame).Vacated := by
  intro index empty
  have apart : index ≠ target := by
    rintro rfl
    simp [storeSlot] at empty
  simp only [storeSlot, Function.update_of_ne apart] at empty ⊢
  obtain ⟨number, clear⟩ := vacated index empty
  refine ⟨number, ?_⟩
  rw [update_bitmap_getLsbD]
  by_cases word : index / 64 = target / 64
  · have position : index % 64 ≠ target % 64 := by omega
    rw [if_pos word, or_bit_getLsbD _ _ _ (Nat.mod_lt _ (by decide)), ← word, clear]
    simp [position]
  · rw [if_neg word, clear]

theorem rehash_vacated (buffer : ReorderBuffer) (mask count : Nat) :
    (rehash buffer mask count).Vacated := by
  induction count with
  | zero =>
    intro index _
    simp [rehash]
  | succ count ih =>
    cases stored : buffer.ring count with
    | none => simpa only [rehash, stored] using ih
    | some frame =>
      simp only [rehash, stored]
      exact storeSlot_vacated _ _ _ _ ih

theorem takeSlot_vacated (buffer : ReorderBuffer) (target : Nat) (vacated : Vacated buffer) :
    Vacated (takeSlot buffer target) := by
  intro index empty
  simp only [takeSlot, update_bitmap_getLsbD]
  by_cases same : index = target
  · subst index
    rw [Function.update_self, if_pos rfl, andNot_bit_getLsbD _ _ _ (Nat.mod_lt _ (by decide))]
    simp
  · simp only [takeSlot, Function.update_of_ne same] at empty ⊢
    obtain ⟨number, clear⟩ := vacated index empty
    refine ⟨number, ?_⟩
    by_cases word : index / 64 = target / 64
    · rw [if_pos word, andNot_bit_getLsbD _ _ _ (Nat.mod_lt _ (by decide)), ← word, clear]
      simp
    · rw [if_neg word, clear]

theorem growWindow_vacated {buffer grown : ReorderBuffer} {required : Nat}
    (result : growWindow buffer required = some grown) : Vacated grown := by
  simp only [growWindow] at result
  split at result
  · cases result
  · split at result
    · cases result
    · cases result
      exact rehash_vacated buffer _ buffer.size

theorem vacated_stable : Stable Vacated where
  scalars := fun _ _ _ _ _ vacated => vacated
  grown := fun _ _ _ result _ => growWindow_vacated result
  stored := fun buffer _ frame vacated =>
    storeSlot_vacated ⟨buffer.ring, buffer.seqSlots, buffer.bitmap⟩ _ _ frame vacated
  taken := takeSlot_vacated

theorem Reachable.vacated {buffer : ReorderBuffer} (reachable : Reachable buffer) :
    Vacated buffer := by
  have cleared : ∀ buffer, Vacated (Reorder.reset buffer) := by
    intro buffer index _
    simp [Reorder.reset]
  exact reachable.stable vacated_stable (cleared Reorder.new) fun buffer _ => cleared buffer

end Vacated

section Through

variable (fuel : Nat) (buffer : ReorderBuffer)

theorem or_andNot_bit (word : BitVec 64) (index : Nat) (clear : word.getLsbD index = false) :
    (word ||| bit index) &&& ~~~ bit index = word := by
  apply BitVec.eq_of_getLsbD_eq
  intro position small
  rw [andNot_bit_getLsbD _ _ _ small, or_bit_getLsbD _ _ _ small]
  by_cases same : position = index
  · subst position
    simp [clear]
  · simp [same]

theorem store_take (vacated : Vacated buffer) (seq : Nat) (frame : Frame)
    (empty : buffer.ring (slotOf buffer seq) = none) :
    takeSlot (storeFrame buffer seq frame) (slotOf buffer seq) =
      { buffer with expectedSeq := wrappingAdd buffer.expectedSeq 1 } := by
  obtain ⟨number, clear⟩ := vacated _ empty
  simp only [takeSlot, storeFrame, storeSlot, Function.update_idem, Function.update_self,
    or_andNot_bit _ _ clear, Function.update_eq_self]
  congr 1
  · rw [← empty, Function.update_eq_self]
  · rw [← number, Function.update_eq_self]

theorem flushLoop_turn (frame : Frame)
    (stored : buffer.ring (slotOf buffer buffer.expectedSeq) = some frame) :
    flushLoop (fuel + 1) buffer =
      ((flushLoop fuel (takeSlot buffer (slotOf buffer buffer.expectedSeq))).1,
        if frame.isEmpty then (flushLoop fuel (takeSlot buffer (slotOf buffer buffer.expectedSeq))).2
        else (buffer.expectedSeq, frame) ::
          (flushLoop fuel (takeSlot buffer (slotOf buffer buffer.expectedSeq))).2) := by
  simp only [flushLoop, stored]

theorem learn_base_eq (seq : Nat) (base : buffer.expectedSeq = 0 ∨ buffer.expectedSeq = seq) :
    learn buffer seq = { buffer with expectedSeq := seq } := by
  unfold learn
  rcases base with unlearned | known
  · rw [if_pos unlearned]
  · subst seq
    split <;> rfl

theorem place_at_base (sized : Sized buffer) (seq : Nat) (frame : Frame)
    (base : buffer.expectedSeq = 0 ∨ buffer.expectedSeq = seq) :
    place buffer seq frame =
      if (buffer.ring (slotOf buffer seq)).isSome then ({ buffer with expectedSeq := seq }, false)
      else (storeFrame { buffer with expectedSeq := seq } seq frame, true) := by
  have distance : asI32 (wrappingSub seq seq) = 0 := by
    simp [wrappingSub, asI32]
  have room : makeRoom { buffer with expectedSeq := seq } 0 =
      some { buffer with expectedSeq := seq } := by
    rw [makeRoom, if_neg (Nat.not_le_of_lt sized.size_pos)]
  rw [place, learn_base_eq buffer seq base, admitFrame]
  simp only [distance, lt_self_iff_false, ↓reduceIte, Int.toNat_zero, room]
  rfl

section

variable (sized : Sized buffer) (vacated : Vacated buffer) (unarmed : buffer.gapSince = none)
  (seq : Nat) (frame : Frame) (now : Nat) (number : seq ≠ 0)
  (base : buffer.expectedSeq = 0 ∨ buffer.expectedSeq = seq)
  (empty : buffer.ring (slotOf buffer seq) = none)

include sized vacated unarmed number base empty

theorem insertInto_at_base :
    ∃ turns, turns + 1 = buffer.size ∧
      let rest := flushLoop turns { buffer with expectedSeq := wrappingAdd seq 1 }
      insertInto buffer seq frame now =
        (refreshGap rest.1 now, if frame.isEmpty then rest.2 else (seq, frame) :: rest.2) := by
  obtain ⟨turns, size⟩ := Nat.exists_eq_add_one.mpr sized.size_pos
  let head : ReorderBuffer := { buffer with expectedSeq := seq }
  let staged := storeFrame head seq frame
  have stored : staged.ring (slotOf staged staged.expectedSeq) = some frame := by
    change Function.update buffer.ring (slotOf buffer seq) (some frame) (slotOf buffer seq) = _
    rw [Function.update_self]
  have emptied : takeSlot staged (slotOf staged staged.expectedSeq) =
      { buffer with expectedSeq := wrappingAdd seq 1 } := store_take head vacated seq frame empty
  have loop := flushLoop_turn turns staged frame stored
  rw [emptied, ← size] at loop
  have cleared : { staged with gapSince := none } = staged := by
    have same : staged.gapSince = none := unarmed
    rw [← same]
  have placed : place buffer seq frame = (staged, true) := by
    rw [place_at_base buffer sized seq frame base, empty]
    rfl
  have flushed : flushLockedInto staged now =
      (refreshGap (flushLoop buffer.size staged).1 now, (flushLoop buffer.size staged).2) := by
    rw [flushLockedInto, cleared]
    rfl
  refine ⟨turns, size.symm, ?_⟩
  rw [insertInto, if_neg number, placed]
  change (if seq = seq then flushLockedInto staged now else _) = _
  rw [if_pos rfl, flushed, loop]
  rfl

theorem insertInto_through (next : buffer.ring (slotOf buffer (wrappingAdd seq 1)) = none) :
    insertInto buffer seq frame now =
      (refreshGap { buffer with expectedSeq := wrappingAdd seq 1 } now,
        if frame.isEmpty then [] else [(seq, frame)]) := by
  obtain ⟨turns, _, result⟩ := insertInto_at_base buffer sized vacated unarmed seq frame now number
    base empty
  rw [flushLoop_vacant turns _ next] at result
  exact result

end

theorem tryAdvanceSequences_advance {buffer advanced : ReorderBuffer} {seqs : List Nat}
    (passed : tryAdvanceSequences buffer seqs = some advanced) :
    buffer.gapSince = none ∧ ∃ final, advanceOver buffer.expectedSeq false seqs = some (final, true) ∧
      advanced = { buffer with expectedSeq := final } := by
  unfold tryAdvanceSequences at passed
  cases armed : buffer.gapSince with
  | some since => simp [armed] at passed
  | none =>
    rw [armed] at passed
    simp only [Option.isSome_none, Bool.false_eq_true, ↓reduceIte] at passed
    refine ⟨rfl, ?_⟩
    cases walked : advanceOver buffer.expectedSeq false seqs with
    | none => simp [walked] at passed
    | some pair =>
      obtain ⟨final, flag⟩ := pair
      rw [walked] at passed
      cases flag with
      | false => cases passed
      | true =>
        cases passed
        exact ⟨final, rfl, rfl⟩

theorem tryAdvanceSequences_one (seq : Nat) (unarmed : buffer.gapSince = none) (number : seq ≠ 0)
    (base : buffer.expectedSeq = 0 ∨ buffer.expectedSeq = seq) :
    tryAdvanceSequences buffer [seq] =
      some { buffer with expectedSeq := wrappingAdd seq 1 } := by
  have start : (if buffer.expectedSeq = 0 then seq else buffer.expectedSeq) = seq := by
    rcases base with unlearned | known
    · rw [if_pos unlearned]
    · rw [known]
      split <;> rfl
  simp [tryAdvanceSequences, unarmed, advanceOver, start, number]

end Through

section Exact

/-- The condition under which the direct path is exact: the gap timer is armed,
so the path is not taken, or the ring is empty, or the base is the last number,
its slot and that of 0 are empty, and the only batch the path takes is that one
number. -/
def Exact (buffer : ReorderBuffer) : Prop :=
  buffer.gapSince.isSome = true ∨ (∀ index, buffer.ring index = none) ∨
    (wrappingAdd buffer.expectedSeq 1 = 0 ∧ buffer.ring (slotOf buffer buffer.expectedSeq) = none ∧
      buffer.ring (slotOf buffer 0) = none)

theorem refreshGap_idle (buffer : ReorderBuffer) (now : Nat) (unarmed : buffer.gapSince = none)
    (idle : hasGap buffer = false) : refreshGap buffer now = buffer := by
  rw [refreshGap, idle]
  obtain ⟨expectedSeq, size, ring, seqSlots, bitmap, windowMask, gapSince, stats⟩ := buffer
  subst unarmed
  rfl

theorem refreshGap_arms (buffer : ReorderBuffer) (now : Nat) (unarmed : buffer.gapSince = none)
    (gap : hasGap buffer = true) : (refreshGap buffer now).gapSince = some now := by
  rw [refreshGap, if_pos gap, if_pos (by rw [unarmed]; rfl)]

theorem Vacated.bitmapAny {buffer : ReorderBuffer} (vacated : Vacated buffer)
    (empty : ∀ index, buffer.ring index = none) : bitmapAny buffer = false := by
  have zero : ∀ word, buffer.bitmap word = 0#64 := by
    intro word
    apply BitVec.eq_of_getLsbD_eq
    intro position small
    have clear := (vacated (64 * word + position) (empty _)).2
    have quotient : (64 * word + position) / 64 = word := by omega
    have remainder : (64 * word + position) % 64 = position := by omega
    rw [quotient, remainder] at clear
    rw [clear, BitVec.getLsbD_zero]
  simp [Reorder.bitmapAny, zero]

/-- A batch that passes the validation loop, inserted frame by frame into a buffer
with an empty ring, moves the base to where the loop ended and changes nothing
else. -/
theorem insertAll_empty (buffer : ReorderBuffer) (sized : Sized buffer) (vacated : Vacated buffer)
    (unarmed : buffer.gapSince = none) (empty : ∀ index, buffer.ring index = none)
    (clock : Nat → Nat) (input : List (Nat × Frame)) (seen flag : Bool) (final : Nat)
    (passed : advanceOver buffer.expectedSeq seen (input.map Prod.fst) = some (final, flag)) :
    insertAll buffer clock input =
      ({ buffer with expectedSeq := final }, input.filter fun entry => !entry.2.isEmpty) := by
  induction input generalizing buffer seen with
  | nil =>
    cases passed
    rfl
  | cons entry rest ih =>
    obtain ⟨seq, frame⟩ := entry
    simp only [List.map_cons, advanceOver] at passed
    obtain ⟨base, isBase⟩ : ∃ base,
        (if (!seen && buffer.expectedSeq == 0) = true then seq else buffer.expectedSeq) = base :=
      ⟨_, rfl⟩
    rw [isBase] at passed
    by_cases stop : seq = 0 ∨ seq ≠ base
    · rw [if_pos stop] at passed
      cases passed
    · rw [if_neg stop] at passed
      rw [not_or, not_not] at stop
      obtain ⟨number, rfl⟩ := stop
      have head : buffer.expectedSeq = 0 ∨ buffer.expectedSeq = seq := by
        by_cases unlearned : (!seen && buffer.expectedSeq == 0) = true
        · simp only [Bool.and_eq_true, beq_iff_eq] at unlearned
          exact Or.inl unlearned.2
        · rw [if_neg unlearned] at isBase
          exact Or.inr isBase
      let moved : ReorderBuffer := { buffer with expectedSeq := wrappingAdd seq 1 }
      have one : insertInto buffer seq frame (clock seq) =
          (moved, if frame.isEmpty then [] else [(seq, frame)]) := by
        rw [insertInto_through buffer sized vacated unarmed seq frame (clock seq) number head
          (empty _) (empty _)]
        have idle : hasGap moved = false := by
          have none : bitmapAny moved = false := @Vacated.bitmapAny moved vacated empty
          simp [hasGap, none]
        rw [refreshGap_idle moved (clock seq) unarmed idle]
      have others := ih moved sized vacated unarmed empty true passed
      simp only [insertAll, one, others]
      cases frame with
      | nil => simp [moved]
      | cons byte bytes => simp [moved]

theorem advanceOver_last (expected : Nat) (input : List Nat) (final : Nat)
    (known : expected ≠ 0) (last : wrappingAdd expected 1 = 0)
    (passed : advanceOver expected false input = some (final, true)) :
    input = [expected] ∧ final = 0 := by
  cases input with
  | nil => cases passed
  | cons seq rest =>
    have base : (!false && expected == 0) = false := by simp [known]
    simp only [advanceOver, base, Bool.false_eq_true, ↓reduceIte] at passed
    by_cases stop : seq = 0 ∨ seq ≠ expected
    · rw [if_pos stop] at passed
      cases passed
    · rw [if_neg stop, last] at passed
      rw [not_or, not_not] at stop
      cases rest with
      | nil =>
        cases passed
        exact ⟨by rw [stop.2], rfl⟩
      | cons other later =>
        exfalso
        simp only [advanceOver, Bool.not_true, Bool.false_and, Bool.false_eq_true,
          ↓reduceIte] at passed
        by_cases zero : other = 0
        · simp [zero] at passed
        · simp [zero] at passed

theorem Exact.agrees {buffer advanced : ReorderBuffer} (exact_ : Exact buffer) (sized : Sized buffer)
    (vacated : Vacated buffer) (clock : Nat → Nat) (input : List (Nat × Frame))
    (passed : tryAdvanceSequences buffer (input.map Prod.fst) = some advanced) :
    insertAll buffer clock input = (advanced, input.filter fun entry => !entry.2.isEmpty) := by
  obtain ⟨unarmed, final, walked, rfl⟩ := tryAdvanceSequences_advance passed
  rcases exact_ with armed | empty | ⟨last, head, next⟩
  · rw [unarmed] at armed
    cases armed
  · exact insertAll_empty buffer sized vacated unarmed empty clock input false true final walked
  · have known : buffer.expectedSeq ≠ 0 := by
      intro unlearned
      rw [unlearned] at last
      simp [wrappingAdd] at last
    obtain ⟨single, rfl⟩ := advanceOver_last _ _ final known last walked
    obtain ⟨⟨seq, frame⟩, rfl, number⟩ := List.map_eq_singleton_iff.mp single
    change seq = buffer.expectedSeq at number
    subst seq
    have through := insertInto_through buffer sized vacated unarmed buffer.expectedSeq frame
      (clock buffer.expectedSeq) known (Or.inr rfl) head (by rw [last]; exact next)
    rw [last, refreshGap_idle { buffer with expectedSeq := 0 } _ unarmed (by simp [hasGap])]
      at through
    simp only [insertAll, through]
    cases frame with
    | nil => simp
    | cons byte bytes => simp

def Marked (buffer : ReorderBuffer) : Prop :=
  Sized buffer ∧ ∀ index, (buffer.ring index).isSome = true → index < buffer.size ∧
    (buffer.bitmap (index / 64)).getLsbD (index % 64) = true

def Slots.Marked (slots : Slots) (size : Nat) : Prop :=
  ∀ index, (slots.ring index).isSome = true → index < size ∧
    (slots.bitmap (index / 64)).getLsbD (index % 64) = true

theorem storeSlot_marked (slots : Slots) (size target seq : Nat) (frame : Frame)
    (inside : target < size) (marked : slots.Marked size) :
    (storeSlot slots target seq frame).Marked size := by
  intro index stored
  simp only [storeSlot, update_bitmap_getLsbD]
  by_cases same : index = target
  · subst index
    rw [if_pos rfl, or_bit_getLsbD _ _ _ (Nat.mod_lt _ (by decide))]
    exact ⟨inside, by simp⟩
  · simp only [storeSlot, Function.update_of_ne same] at stored
    obtain ⟨low, lit⟩ := marked index stored
    refine ⟨low, ?_⟩
    by_cases word : index / 64 = target / 64
    · rw [if_pos word, or_bit_getLsbD _ _ _ (Nat.mod_lt _ (by decide)), ← word, lit, Bool.true_or]
    · rw [if_neg word, lit]

theorem rehash_marked (buffer : ReorderBuffer) (size count : Nat) (positive : 0 < size) :
    (rehash buffer (size - 1) count).Marked size := by
  induction count with
  | zero =>
    intro index stored
    simp [rehash] at stored
  | succ count ih =>
    cases stored : buffer.ring count with
    | none => simpa only [rehash, stored] using ih
    | some frame =>
      simp only [rehash, stored]
      refine storeSlot_marked _ size _ _ _ ?_ ih
      have low : buffer.seqSlots count &&& (size - 1) ≤ size - 1 := Nat.and_le_right
      omega

theorem takeSlot_marked (buffer : ReorderBuffer) (target : Nat) (marked : Marked buffer) :
    Marked (takeSlot buffer target) := by
  refine ⟨marked.1.transport rfl rfl, ?_⟩
  intro index stored
  have apart : index ≠ target := by
    rintro rfl
    simp [takeSlot] at stored
  simp only [takeSlot, Function.update_of_ne apart] at stored ⊢
  obtain ⟨low, lit⟩ := marked.2 index stored
  refine ⟨low, ?_⟩
  rw [update_bitmap_getLsbD]
  by_cases word : index / 64 = target / 64
  · have position : index % 64 ≠ target % 64 := by omega
    rw [if_pos word, andNot_bit_getLsbD _ _ _ (Nat.mod_lt _ (by decide)), ← word, lit]
    simp [position]
  · rw [if_neg word, lit]

theorem growWindow_marked {buffer grown : ReorderBuffer} {required : Nat} (sized : Sized buffer)
    (result : growWindow buffer required = some grown) : Marked grown := by
  have regrown := growWindow_sized buffer grown required sized result
  refine ⟨regrown, ?_⟩
  have positive := regrown.size_pos
  simp only [growWindow] at result
  split at result
  · cases result
  · split at result
    · cases result
    · cases result
      exact rehash_marked buffer _ buffer.size positive

theorem marked_stable : Stable Marked where
  scalars := fun _ _ _ _ _ marked => ⟨marked.1.transport rfl rfl, marked.2⟩
  grown := fun _ _ _ result marked => growWindow_marked marked.1 result
  stored := fun buffer seq frame marked =>
    ⟨marked.1.transport rfl rfl,
      storeSlot_marked ⟨buffer.ring, buffer.seqSlots, buffer.bitmap⟩ buffer.size _ seq frame
        (by rw [marked.1.slotOf_eq]; exact Nat.mod_lt _ marked.1.size_pos) marked.2⟩
  taken := takeSlot_marked

theorem Reachable.marked {buffer : ReorderBuffer} (reachable : Reachable buffer) :
    Marked buffer := by
  refine reachable.stable marked_stable ⟨Reachable.new.sized, ?_⟩ ?_
  · intro index stored
    cases stored
  · intro other marked
    refine ⟨marked.1.transport rfl rfl, ?_⟩
    intro index stored
    cases stored

theorem Marked.bitmapAny {buffer : ReorderBuffer} (marked : Marked buffer) (index : Nat)
    (stored : (buffer.ring index).isSome = true) : bitmapAny buffer = true := by
  have words := marked.1.words
  obtain ⟨low, lit⟩ := marked.2 index stored
  simp only [Reorder.bitmapAny, List.any_eq_true, List.mem_range, bne_iff_ne, ne_zero_iff]
  exact ⟨index / 64, by omega, index % 64, by omega, lit⟩

theorem Sized.size_ge {buffer : ReorderBuffer} (sized : Sized buffer) :
    reorderInitialWindow ≤ buffer.size := by
  obtain ⟨⟨power, low, _, size⟩, _⟩ := sized
  calc reorderInitialWindow = 2 ^ 11 := by decide
    _ ≤ 2 ^ power := Nat.pow_le_pow_right (by decide) low
    _ = buffer.size := size.symm

theorem flushLoop_stride (fuel : Nat) (buffer : ReorderBuffer)
    (word : buffer.expectedSeq < 4294967296) :
    ∃ stride, stride ≤ fuel ∧
      (flushLoop fuel buffer).1.expectedSeq = (buffer.expectedSeq + stride) % 4294967296 ∧
      (fuel ≠ 0 → (buffer.ring (slotOf buffer buffer.expectedSeq)).isSome = true → stride ≠ 0) := by
  induction fuel generalizing buffer with
  | zero => exact ⟨0, Nat.le_refl _, (Nat.mod_eq_of_lt word).symm, fun positive => absurd rfl positive⟩
  | succ fuel ih =>
    cases stored : buffer.ring (slotOf buffer buffer.expectedSeq) with
    | none =>
      rw [flushLoop_vacant _ buffer stored]
      exact ⟨0, Nat.zero_le _, (Nat.mod_eq_of_lt word).symm, by simp⟩
    | some frame =>
      have next : (takeSlot buffer (slotOf buffer buffer.expectedSeq)).expectedSeq =
          (buffer.expectedSeq + 1) % 4294967296 := by
        simp [takeSlot, wrappingAdd]
      obtain ⟨stride, small, moved, _⟩ := ih (takeSlot buffer (slotOf buffer buffer.expectedSeq))
        (by omega)
      refine ⟨stride + 1, by omega, ?_, fun _ _ => by omega⟩
      rw [flushLoop_turn fuel buffer frame stored, moved, next]
      omega

theorem Exact.of_agrees {buffer : ReorderBuffer} (marked : Marked buffer) (vacated : Vacated buffer)
    (agrees : ∀ seq frame advanced, tryAdvanceSequences buffer [seq] = some advanced →
      (insertInto buffer seq frame 0).1 = advanced) : Exact buffer := by
  have sized := marked.1
  by_contra inexact
  simp only [Exact, not_or] at inexact
  obtain ⟨armed, filled, corner⟩ := inexact
  have unarmed : buffer.gapSince = none := by simpa using armed
  obtain ⟨index, stored⟩ : ∃ index, (buffer.ring index).isSome = true := by
    by_contra none
    refine filled fun index => ?_
    by_contra some
    exact none ⟨index, Option.isSome_iff_ne_none.mpr some⟩
  obtain ⟨seq, number, base⟩ : ∃ seq, seq ≠ 0 ∧
      (buffer.expectedSeq = 0 ∧ seq = 1 ∨ buffer.expectedSeq = seq) := by
    by_cases unlearned : buffer.expectedSeq = 0
    · exact ⟨1, by decide, Or.inl ⟨unlearned, rfl⟩⟩
    · exact ⟨buffer.expectedSeq, unlearned, Or.inr rfl⟩
  have head : buffer.expectedSeq = 0 ∨ buffer.expectedSeq = seq := base.imp_left And.left
  have same := agrees seq [] _ (tryAdvanceSequences_one buffer seq unarmed number head)
  have step : wrappingAdd seq 1 = (seq + 1) % 4294967296 := by simp [wrappingAdd]
  cases slot : buffer.ring (slotOf buffer seq) with
  | some other =>
    -- the slot is taken: the insert is refused and the base stays
    have refused : (insertInto buffer seq [] 0).1 = { buffer with expectedSeq := seq } := by
      rw [insertInto, if_neg number, place_at_base buffer sized seq [] head, slot]
      rfl
    have stuck := congrArg ReorderBuffer.expectedSeq (refused.symm.trans same)
    change seq = wrappingAdd seq 1 at stuck
    omega
  | none =>
    cases next : buffer.ring (slotOf buffer (wrappingAdd seq 1)) with
    | some other =>
      -- the loop goes on over a frame the direct path leaves behind
      obtain ⟨turns, size, result⟩ := insertInto_at_base buffer sized vacated unarmed seq [] 0
        number head slot
      obtain ⟨stride, small, moved, taken⟩ := flushLoop_stride turns
        { buffer with expectedSeq := wrappingAdd seq 1 } (by
          change wrappingAdd seq 1 < _
          omega)
      have width := sized.size_le
      have wide := sized.size_ge
      have positive := taken (by unfold reorderInitialWindow at wide; omega) (by
        change (buffer.ring (slotOf buffer (wrappingAdd seq 1))).isSome = true
        rw [next]
        rfl)
      have further := congrArg ReorderBuffer.expectedSeq (result ▸ same :
        (refreshGap (flushLoop turns { buffer with expectedSeq := wrappingAdd seq 1 }).1 0) = _)
      rw [refreshGap_expectedSeq, moved] at further
      change (wrappingAdd seq 1 + stride) % 4294967296 = wrappingAdd seq 1 at further
      unfold reorderMaxWindow at width
      unfold reorderInitialWindow at wide
      omega
    | none =>
      rw [insertInto_through buffer sized vacated unarmed seq [] 0 number head slot next] at same
      by_cases wrapped : wrappingAdd seq 1 = 0
      · -- the last number: this is the exception of the condition
        rcases base with ⟨_, one⟩ | known
        · rw [one] at step
          rw [one, step] at wrapped
          cases wrapped
        · subst known
          exact corner ⟨wrapped, slot, wrapped ▸ next⟩
      · -- the insert arms the timer over the frames left in the ring
        have gap : hasGap { buffer with expectedSeq := wrappingAdd seq 1 } = true := by
          have any := marked.bitmapAny index stored
          have here : (buffer.ring (slotOf buffer (wrappingAdd seq 1))).isNone = true := by
            rw [next]
            rfl
          change (wrappingAdd seq 1 != 0 &&
            (buffer.ring (slotOf buffer (wrappingAdd seq 1))).isNone && bitmapAny buffer) = true
          simp [wrapped, here, any]
        have timer := congrArg ReorderBuffer.gapSince same
        rw [refreshGap_arms { buffer with expectedSeq := wrappingAdd seq 1 } 0 unarmed gap] at timer
        exact absurd (timer.trans unarmed) (by simp)

end Exact

section Uncrossed

def Uncrossing (buffer : ReorderBuffer) : Op → Prop
  | .insert seq _ _ => seq ≤ u32Max ∧ (buffer.expectedSeq = 0 ∨ seq = 0 ∨
      buffer.expectedSeq + reorderMaxWindow ≤ seq + 4294967296)
  | .direct input => ∀ entry ∈ input, entry.1 ≤ u32Max
  | .timeout _ => True

inductive Uncrossed : ReorderBuffer → Prop where
  | new : Uncrossed new
  | reset {buffer} : Reachable buffer → Uncrossed (reset buffer)
  | perform {buffer} (op : Op) : Uncrossed buffer → Uncrossing buffer op →
      Uncrossed (perform (start buffer) op).buffer

variable {buffer : ReorderBuffer}

theorem perform_standing (buffer : ReorderBuffer) (op : Op) (uncrossing : Uncrossing buffer op)
    (held : ∃ place, Standing buffer place) :
    ∃ place, Standing (perform (start buffer) op).buffer place := by
  obtain ⟨place, standing⟩ := held
  have base : buffer.expectedSeq ≤ u32Max := by
    rcases standing.base with ⟨same, bound⟩ | ⟨zero, _⟩ <;> omega
  cases op with
  | insert seq frame now =>
    obtain ⟨below, apart⟩ := uncrossing
    change ∃ place, Standing (insertInto buffer seq frame now).1 place
    by_cases zero : seq = 0
    · rw [insertInto, if_pos zero]
      exact ⟨place, standing⟩
    · obtain ⟨next, carried, _⟩ := insertInto_carried buffer standing.settled standing.within base
        seq frame now zero below (by unfold reorderMaxWindow at apart ⊢; omega)
      exact ⟨next, carried.standing⟩
  | direct input =>
    cases passed : tryDirectBatch buffer input with
    | none =>
      simp only [perform, start, passed]
      exact ⟨place, standing⟩
    | some result =>
      obtain ⟨_, next, carried⟩ := tryDirectBatch_carried buffer result.1 result.2
        standing.settled input uncrossing passed
      simp only [perform, start, passed]
      exact ⟨next, carried.standing⟩
  | timeout now =>
    change ∃ place, Standing (flushTimeoutInto buffer now).1 place
    rcases flushTimeoutInto_carried buffer standing now with ⟨idle, _⟩ | ⟨next, _, _, _, _, carried⟩
    · rw [idle]
      exact ⟨place, standing⟩
    · exact ⟨next, carried.standing⟩

theorem Uncrossed.standing (uncrossed : Uncrossed buffer) : ∃ place, Standing buffer place := by
  induction uncrossed with
  | new => exact ⟨0, (fresh_past Reorder.new Fresh.new).standing⟩
  | reset reachable => exact ⟨0, (fresh_past _ (Fresh.reset reachable)).standing⟩
  | perform op _ uncrossing ih => exact perform_standing _ op uncrossing ih

theorem Uncrossed.exact (uncrossed : Uncrossed buffer) : Exact buffer := by
  obtain ⟨place, standing⟩ := uncrossed.standing
  cases armed : buffer.gapSince with
  | some since => exact Or.inl (by rw [armed]; rfl)
  | none =>
    refine Or.inr (Or.inl fun index => ?_)
    cases stored : buffer.ring index with
    | none => rfl
    | some frame =>
      have running := standing.settled.gap.mpr ⟨index, by rw [stored]; rfl⟩
      rw [armed] at running
      cases running

end Uncrossed

/-- The direct path refines the normal one. If `try_direct_batch` fails it changes
nothing. In a reachable state every batch it takes, and every batch
`flush_owned_frames` takes, leaves the buffer and the output that inserting the
frames one by one leaves, exactly when `Exact` holds of the state; and that is so
in every run that offers no number across the wrap. -/
theorem direct_path_refines_inserts (buffer : ReorderBuffer) (reachable : Reachable buffer) :
    (∀ input ready, (tryDirectBatchInto buffer input ready).1 = false →
      (tryDirectBatchInto buffer input ready).2 = (buffer, input, ready)) ∧
    ((∀ input ready clock,
        ((tryDirectBatchInto buffer input ready).1 = true →
          (tryDirectBatchInto buffer input ready).2 =
            ((insertAll buffer clock input).1, [], ready ++ (insertAll buffer clock input).2)) ∧
        flushOwnedFrames buffer clock input = insertAll buffer clock input) ↔ Exact buffer) ∧
    (Uncrossed buffer → Exact buffer) := by
  have marked := reachable.marked
  have vacated := reachable.vacated
  refine ⟨?_, ⟨?_, ?_⟩, Uncrossed.exact⟩
  · intro input ready failed
    unfold tryDirectBatchInto at failed ⊢
    cases passed : tryDirectBatch buffer input with
    | none => rfl
    | some result => simp [passed] at failed
  · intro agrees
    apply Exact.of_agrees marked vacated
    intro seq frame advanced passed
    have owned := (agrees [(seq, frame)] [] fun _ => 0).2
    have walked : tryAdvanceSequences buffer ([(seq, frame)].map Prod.fst) = some advanced := passed
    simp only [flushOwnedFrames, List.isEmpty_cons, Bool.false_eq_true, ↓reduceIte, walked] at owned
    exact (congrArg Prod.fst owned).symm
  · intro exact_ input ready clock
    refine ⟨?_, ?_⟩
    · unfold tryDirectBatchInto tryDirectBatch
      cases passed : tryAdvanceSequences buffer (input.map Prod.fst) with
      | none => simp
      | some advanced =>
        intro _
        rw [exact_.agrees marked.1 vacated clock input passed]
    · unfold flushOwnedFrames
      cases input with
      | nil => rfl
      | cons entry rest =>
        rw [if_neg (by simp)]
        cases passed : tryAdvanceSequences buffer ((entry :: rest).map Prod.fst) with
        | none => rfl
        | some advanced => exact (exact_.agrees marked.1 vacated clock _ passed).symm

/-- The frames 2 and 3 pass a buffer that delivered frame 1. -/
theorem direct_path_refines_second :
    let buffer := (perform (start new) (.insert 1 [7] 0)).buffer
    (tryDirectBatchInto buffer [(2, [8]), (3, [])] []).1 = true ∧
      (tryDirectBatchInto buffer [(2, [8]), (3, [])] []).2 =
        ((insertAll buffer (fun _ => 5) [(2, [8]), (3, [])]).1, [],
          [] ++ (insertAll buffer (fun _ => 5) [(2, [8]), (3, [])]).2) := by
  intro buffer
  have uncrossed : Uncrossed buffer := .perform _ .new ⟨by decide, Or.inl rfl⟩
  have refined := direct_path_refines_inserts buffer (.perform _ .new)
  have passed : (tryDirectBatchInto buffer [(2, [8]), (3, [])] []).1 = true := by decide +kernel
  exact ⟨passed, ((refined.2.1.mpr (refined.2.2 uncrossed)) _ _ _).1 passed⟩

theorem Reachable.run {trace : Trace} (reachable : Reachable trace.buffer) (ops : List Op) :
    Reachable (ops.foldl Reorder.perform trace).buffer := by
  induction ops generalizing trace with
  | nil => exact reachable
  | cons op rest ih =>
    have same : (Reorder.perform trace op).buffer =
        (Reorder.perform (start trace.buffer) op).buffer := by
      cases op with
      | insert seq frame now => rfl
      | timeout now => rfl
      | direct input =>
        cases passed : tryDirectBatch trace.buffer input with
        | none => simp only [Reorder.perform, start, passed]
        | some result => simp only [Reorder.perform, start, passed]
    apply ih
    rw [same]
    exact .perform op reachable

def crossedOps : List Op :=
  [.insert 4294967294 [1] 0, .insert 5 [2] 1, .insert 4294967295 [3] 2]

/-- Frame 5 stays in the ring with no timer armed. The direct path then takes
another frame 5, delivers it and moves the base to 6; `insert_into` refuses it. -/
theorem direct_path_diverges :
    let buffer := (crossedOps.foldl perform (start new)).buffer
    Reachable buffer ∧ buffer.gapSince = none ∧ buffer.ring 5 = some [2] ∧
      (tryDirectBatchInto buffer [(5, [9])] []).1 = true ∧
      (tryDirectBatchInto buffer [(5, [9])] []).2.2.2 = [(5, [9])] ∧
      (tryDirectBatchInto buffer [(5, [9])] []).2.1.expectedSeq = 6 ∧
      (flushOwnedFrames buffer (fun _ => 3) [(5, [9])]).2 = [(5, [9])] ∧
      (insertAll buffer (fun _ => 3) [(5, [9])]).2 = [] ∧
      (insertAll buffer (fun _ => 3) [(5, [9])]).1.expectedSeq = 5 := by
  refine ⟨@Reachable.run (start new) .new crossedOps, ?_⟩
  decide +kernel

end TlsVpn.Reorder

import TlsVpn.ReorderSafety

/-!
Whole runs of the reorder buffer since `new` or `reset`. A trace keeps, beside
the buffer, the frames accepted and the frames delivered so far, both oldest
first. Neither list is read by the code; they are what the results are about.
-/

namespace TlsVpn.Reorder

open Words

inductive Op where
  | insert (seq : Nat) (frame : Frame) (now : Nat)
  | direct (input : List (Nat × Frame))
  | timeout (now : Nat)

def Op.seqs : Op → List Nat
  | .insert seq _ _ => [seq]
  | .direct input => input.map Prod.fst
  | .timeout _ => []

structure Trace where
  buffer : ReorderBuffer
  accepted : Delivered
  delivered : Delivered

def start (buffer : ReorderBuffer) : Trace := ⟨buffer, [], []⟩

/-- One call. A refused direct batch leaves everything as it was; the caller
then inserts its frames one by one, which are operations of their own. -/
def perform (trace : Trace) : Op → Trace
  | .insert seq frame now =>
    let result := insertInto trace.buffer seq frame now
    ⟨result.1, trace.accepted ++ acceptedBy trace.buffer seq frame, trace.delivered ++ result.2⟩
  | .direct input =>
    match tryDirectBatch trace.buffer input with
    | some result => ⟨result.1, trace.accepted ++ input, trace.delivered ++ result.2⟩
    | none => trace
  | .timeout now =>
    let result := flushTimeoutInto trace.buffer now
    ⟨result.1, trace.accepted, trace.delivered ++ result.2⟩

/-- Any buffer a program can hold, with no condition on the numbers it saw. -/
inductive Reachable : ReorderBuffer → Prop where
  | new : Reachable new
  | reset {buffer} : Reachable buffer → Reachable (reset buffer)
  | perform {buffer} (op : Op) : Reachable buffer → Reachable (perform (start buffer) op).buffer

inductive Fresh : ReorderBuffer → Prop where
  | new : Fresh new
  | reset {buffer} : Reachable buffer → Fresh (reset buffer)

section Window

theorem Sized.transport {before after : ReorderBuffer} (sized : Sized before)
    (size : after.size = before.size) (mask : after.windowMask = before.windowMask) :
    Sized after := by
  obtain ⟨power, same⟩ := sized
  exact ⟨by rw [size]; exact power, by rw [size, mask]; exact same⟩

theorem growWindow_sized (buffer grown : ReorderBuffer) (required : Nat) (sized : Sized buffer)
    (result : growWindow buffer required = some grown) : Sized grown := by
  obtain ⟨⟨power, low, high, size⟩, _⟩ := sized
  obtain ⟨larger, above, top, same, _⟩ := growSize_power required 16 power high (by omega)
  have clip : min (growSize required 16 buffer.size) reorderMaxWindow = 2 ^ larger := by
    rw [size, same]
    exact Nat.min_eq_left (Nat.pow_le_pow_right (by decide) top)
  simp only [growWindow, clip] at result
  split at result
  · cases result
  · split at result
    · cases result
    · cases result
      exact ⟨⟨larger, by omega, top, rfl⟩, rfl⟩

end Window

section Stable

theorem tryDirectBatch_moves {buffer : ReorderBuffer} {input : List (Nat × Frame)}
    {result : ReorderBuffer × Delivered} (passed : tryDirectBatch buffer input = some result) :
    ∃ expected, result.1 = { buffer with expectedSeq := expected } := by
  unfold tryDirectBatch tryAdvanceSequences at passed
  split at passed
  · cases passed
  · rename_i advanced moved
    cases passed
    split at moved
    · cases moved
    · split at moved
      · cases moved
        exact ⟨_, rfl⟩
      · cases moved

/-- A property that every elementary change of a buffer keeps, whatever numbers
are involved: the scalar fields, the window, one slot filled, one slot emptied.
The skipped counter changes by a saturating addition only. -/
structure Stable (holds : ReorderBuffer → Prop) : Prop where
  scalars : ∀ buffer expected gap stats,
    stats.skippedFrames = buffer.stats.skippedFrames ∨ stats.skippedFrames ≤ u64Max →
    holds buffer → holds { buffer with expectedSeq := expected, gapSince := gap, stats := stats }
  grown : ∀ buffer grown required, growWindow buffer required = some grown → holds buffer →
    holds grown
  stored : ∀ buffer seq frame, holds buffer → holds (storeFrame buffer seq frame)
  taken : ∀ buffer index, holds buffer → holds (takeSlot buffer index)

variable {holds : ReorderBuffer → Prop}

section

variable (stable : Stable holds)

include stable

theorem Stable.refreshGap (buffer : ReorderBuffer) (now : Nat) (held : holds buffer) :
    holds (refreshGap buffer now) := by
  unfold Reorder.refreshGap
  by_cases gap : hasGap buffer = true
  · by_cases idle : buffer.gapSince.isNone = true
    · rw [if_pos gap, if_pos idle]
      exact stable.scalars buffer _ _ _ (Or.inl rfl) held
    · rw [if_pos gap, if_neg idle]
      exact held
  · rw [if_neg gap]
    exact stable.scalars buffer _ _ _ (Or.inl rfl) held

theorem Stable.flushLoop (fuel : Nat) (buffer : ReorderBuffer) (held : holds buffer) :
    holds (flushLoop fuel buffer).1 := by
  induction fuel generalizing buffer with
  | zero => exact held
  | succ fuel ih =>
    cases stored : buffer.ring (slotOf buffer buffer.expectedSeq) with
    | none => simpa only [Reorder.flushLoop, stored] using held
    | some frame =>
      simp only [Reorder.flushLoop, stored]
      exact ih _ (stable.taken buffer _ held)

theorem Stable.flushLockedInto (buffer : ReorderBuffer) (now : Nat) (held : holds buffer) :
    holds (flushLockedInto buffer now).1 :=
  stable.refreshGap _ now (stable.flushLoop buffer.size _
    (stable.scalars buffer _ none _ (Or.inl rfl) held))

theorem Stable.makeRoom {buffer roomy : ReorderBuffer} {distance : Nat}
    (room : makeRoom buffer distance = some roomy) (held : holds buffer) : holds roomy := by
  unfold Reorder.makeRoom at room
  split at room
  · split at room
    · cases room
    · exact stable.grown buffer roomy _ room held
  · cases room
    exact held

theorem Stable.place (buffer : ReorderBuffer) (seq : Nat) (frame : Frame) (held : holds buffer) :
    holds (place buffer seq frame).1 := by
  have learned : holds (learn buffer seq) := by
    unfold learn
    split
    · exact stable.scalars buffer _ _ _ (Or.inl rfl) held
    · exact held
  simp only [Reorder.place, admitFrame]
  split
  · exact learned
  · split
    · exact learned
    · rename_i roomy room
      have kept := stable.makeRoom room learned
      split
      · exact kept
      · exact stable.stored roomy seq frame kept

theorem Stable.insertInto (buffer : ReorderBuffer) (seq : Nat) (frame : Frame) (now : Nat)
    (held : holds buffer) : holds (insertInto buffer seq frame now).1 := by
  have kept := stable.place buffer seq frame held
  obtain ⟨⟨placed, flag⟩, result⟩ : ∃ pair, Reorder.place buffer seq frame = pair := ⟨_, rfl⟩
  simp only [Reorder.insertInto, result] at kept ⊢
  by_cases zero : seq = 0
  · rw [if_pos zero]
    exact held
  · rw [if_neg zero]
    cases flag with
    | false => exact kept
    | true =>
      by_cases head : seq = placed.expectedSeq
      · simp only [if_pos head, ↓reduceIte]
        exact stable.flushLockedInto placed now kept
      · simp only [if_neg head, ↓reduceIte]
        exact stable.refreshGap placed now kept

theorem Stable.flushTimeoutInto (buffer : ReorderBuffer) (now : Nat) (held : holds buffer) :
    holds (flushTimeoutInto buffer now).1 := by
  unfold Reorder.flushTimeoutInto
  cases buffer.gapSince with
  | none => exact held
  | some since =>
    by_cases wait : now - since < reorderSkipDelay ∨ hasGap buffer = false
    · simp only [if_pos wait]
      exact held
    · simp only [if_neg wait]
      cases firstHeld buffer (buffer.size - 1) 1 with
      | none => exact stable.scalars buffer _ _ _ (Or.inl rfl) held
      | some delta =>
        exact stable.flushLockedInto _ now
          (stable.scalars buffer _ _ _ (Or.inr (saturatingAdd_le _ _)) held)

theorem Stable.perform (trace : Trace) (op : Op) (held : holds trace.buffer) :
    holds (perform trace op).buffer := by
  cases op with
  | insert seq frame now => exact stable.insertInto trace.buffer seq frame now held
  | direct input =>
    cases passed : tryDirectBatch trace.buffer input with
    | none => simpa only [Reorder.perform, passed] using held
    | some result =>
      obtain ⟨expected, same⟩ := tryDirectBatch_moves passed
      simp only [Reorder.perform, passed, same]
      exact stable.scalars trace.buffer _ _ _ (Or.inl rfl) held
  | timeout now => exact stable.flushTimeoutInto trace.buffer now held

end

theorem Reachable.stable {buffer : ReorderBuffer} (reachable : Reachable buffer)
    (stable : Stable holds) (initially : holds Reorder.new)
    (cleared : ∀ buffer, holds buffer → holds (Reorder.reset buffer)) : holds buffer := by
  induction reachable with
  | new => exact initially
  | reset _ ih => exact cleared _ ih
  | perform op _ ih => exact stable.perform _ op ih

theorem sized_stable : Stable Sized where
  scalars := fun _ _ _ _ _ sized => sized.transport rfl rfl
  grown := fun buffer grown required result sized =>
    growWindow_sized buffer grown required sized result
  stored := fun _ _ _ sized => sized.transport rfl rfl
  taken := fun _ _ sized => sized.transport rfl rfl

theorem Reachable.sized {buffer : ReorderBuffer} (reachable : Reachable buffer) : Sized buffer :=
  reachable.stable sized_stable ⟨⟨11, Nat.le_refl _, by decide, rfl⟩, rfl⟩
    fun _ sized => sized.transport rfl rfl

end Stable

structure History (low high : Nat) (buffer : ReorderBuffer) (accepted delivered : Delivered) :
    Prop where
  settled : Settled buffer
  based : Based low high buffer
  ordered : delivered.Pairwise fun left right => left.1 < right.1
  past : ∀ entry ∈ delivered, entry.1 < buffer.expectedSeq
  source : ∀ entry ∈ delivered, entry ∈ accepted
  held : ∀ seq frame, Occupied buffer seq frame → (seq, frame) ∈ accepted
  covered : ∀ entry ∈ accepted, entry.1 < buffer.expectedSeq ∨ Occupied buffer entry.1 entry.2
  distinct : (accepted.map Prod.fst).Nodup

variable {low high : Nat}
variable {accepted delivered : Delivered} (trace : Trace)

theorem cleared_history (buffer : ReorderBuffer) (sized : Sized buffer) :
    History low high (reset buffer) [] [] := by
  have vacant : ∀ seq frame, ¬ Occupied (reset buffer) seq frame := by
    rintro seq frame ⟨stored, _⟩
    cases stored
  have settled : Settled (reset buffer) := by
    refine ⟨⟨sized.transport rfl rfl, ?_, ?_, ?_⟩, rfl, fun _ _ => rfl, ?_⟩
    · intro index
      simp [reset]
    · intro index _
      rfl
    · intro index frame stored
      cases stored
    · simp [reset]
  refine ⟨settled, ⟨Or.inl rfl, ?_⟩, List.Pairwise.nil, ?_, ?_, ?_, ?_, List.nodup_nil⟩
  · intro seq frame held
    exact absurd held (vacant seq frame)
  · intro entry member
    cases member
  · intro entry member
    cases member
  · intro seq frame held
    exact absurd held (vacant seq frame)
  · intro entry member
    cases member

theorem History.extend {before after : ReorderBuffer} {stored out : Delivered}
    (history : History low high before accepted delivered)
    (effect : Effect low high before after stored out) :
    History low high after (accepted ++ stored) (delivered ++ out) := by
  have forward := effect.forward
  refine ⟨effect.settled, effect.based, ?_, ?_, ?_, ?_, ?_, ?_⟩
  · rw [List.pairwise_append]
    refine ⟨history.ordered, effect.ordered, ?_⟩
    intro old oldMember recent recentMember
    exact Nat.lt_of_lt_of_le (history.past old oldMember) (effect.window recent recentMember).1
  · intro entry member
    rcases List.mem_append.mp member with old | recent
    · exact Nat.lt_of_lt_of_le (history.past entry old) forward
    · exact (effect.window entry recent).2
  · intro entry member
    rcases List.mem_append.mp member with old | recent
    · exact List.mem_append_left stored (history.source entry old)
    · rcases effect.source entry recent with kept | taken
      · exact List.mem_append_left stored (history.held _ _ kept)
      · exact List.mem_append_right accepted taken
  · intro seq frame held
    rcases effect.held seq frame held with kept | taken
    · exact List.mem_append_left stored (history.held seq frame kept)
    · exact List.mem_append_right accepted taken
  · intro entry member
    rcases List.mem_append.mp member with old | recent
    · rcases history.covered entry old with passed | kept
      · exact Or.inl (Nat.lt_of_lt_of_le passed forward)
      · exact effect.covered entry.1 entry.2 (Or.inl kept)
    · exact effect.covered entry.1 entry.2 (Or.inr recent)
  · rw [List.map_append, List.nodup_append]
    refine ⟨history.distinct, effect.distinct, ?_⟩
    -- an accepted number is at or above the base and its slot was empty
    rintro seq oldMember _ recentMember rfl
    obtain ⟨old, oldPresent, rfl⟩ := List.mem_map.mp oldMember
    obtain ⟨recent, recentPresent, same⟩ := List.mem_map.mp recentMember
    obtain ⟨above, vacant⟩ := effect.fresh recent recentPresent
    rcases history.covered old oldPresent with passed | kept
    · omega
    · rw [same] at vacant
      exact vacant old.2 kept

theorem perform_history (op : Op) (span : Span low high)
    (inside : ∀ seq ∈ op.seqs, low ≤ seq ∧ seq ≤ high)
    (history : History low high trace.buffer trace.accepted trace.delivered) :
    History low high (perform trace op).buffer (perform trace op).accepted
      (perform trace op).delivered := by
  cases op with
  | insert seq frame now =>
    obtain ⟨above, below⟩ := inside seq (List.mem_singleton_self seq)
    simp only [perform]
    exact history.extend
      (insertInto_effect trace.buffer history.settled history.based span seq frame now above below)
  | direct input =>
    cases passed : tryDirectBatch trace.buffer input with
    | none => simpa [perform, passed] using history
    | some result =>
      simp only [perform, passed]
      refine history.extend (tryDirectBatch_effect trace.buffer result.1 result.2 history.settled
        span input ?_ passed)
      intro entry member
      exact inside entry.1 (List.mem_map.mpr ⟨entry, member, rfl⟩)
  | timeout now =>
    have extended := history.extend
      (flushTimeoutInto_effect trace.buffer history.settled history.based span now)
    simpa [perform] using extended

section

variable {buffer : ReorderBuffer} (span : Span low high) (clock : Nat → Nat)
  (entries : List (Nat × Frame)) (inside : ∀ entry ∈ entries, low ≤ entry.1 ∧ entry.1 ≤ high)
  (history : History low high buffer accepted delivered)

include span inside history

theorem insertAll_history :
    ∃ stored, History low high (insertAll buffer clock entries).1 stored
      (delivered ++ (insertAll buffer clock entries).2) := by
  induction entries generalizing buffer accepted delivered with
  | nil => exact ⟨accepted, by simpa [insertAll] using history⟩
  | cons entry rest ih =>
    obtain ⟨above, below⟩ := inside entry List.mem_cons_self
    have first := history.extend (insertInto_effect buffer history.settled history.based span
      entry.1 entry.2 (clock entry.1) above below)
    obtain ⟨stored, whole⟩ := ih
      (fun other present => inside other (List.mem_cons_of_mem entry present)) first
    refine ⟨stored, ?_⟩
    simp only [insertAll]
    rw [← List.append_assoc]
    exact whole

theorem insertAll_forward :
    buffer.expectedSeq ≤ (insertAll buffer clock entries).1.expectedSeq := by
  induction entries generalizing buffer accepted delivered with
  | nil => exact Nat.le_refl _
  | cons entry rest ih =>
    obtain ⟨above, below⟩ := inside entry List.mem_cons_self
    have effect := insertInto_effect buffer history.settled history.based span entry.1 entry.2
      (clock entry.1) above below
    exact Nat.le_trans effect.forward (ih
      (fun other present => inside other (List.mem_cons_of_mem entry present))
      (history.extend effect))

end

theorem performAll_history (ops : List Op) (span : Span low high)
    (inside : ∀ op ∈ ops, ∀ seq ∈ op.seqs, low ≤ seq ∧ seq ≤ high)
    (history : History low high trace.buffer trace.accepted trace.delivered) :
    History low high (ops.foldl perform trace).buffer (ops.foldl perform trace).accepted
      (ops.foldl perform trace).delivered := by
  induction ops generalizing trace with
  | nil => exact history
  | cons op rest ih =>
    exact ih (perform trace op) (fun other member => inside other (List.mem_cons_of_mem op member))
      (perform_history trace op span (inside op List.mem_cons_self) history)

theorem fresh_history (buffer : ReorderBuffer) (fresh : Fresh buffer) :
    History low high buffer [] [] := by
  cases fresh with
  | new => exact cleared_history new Reachable.new.sized
  | reset reachable => exact cleared_history _ reachable.sized

theorem find_of_distinct (accepted : Delivered) (distinct : (accepted.map Prod.fst).Nodup)
    (entry : Nat × Frame) (member : entry ∈ accepted) :
    accepted.find? (fun other => other.1 == entry.1) = some entry := by
  induction accepted with
  | nil => cases member
  | cons head rest ih =>
    rw [List.map_cons, List.nodup_cons] at distinct
    rcases List.mem_cons.mp member with rfl | later
    · simp
    · have apart : head.1 ≠ entry.1 := by
        intro same
        exact distinct.1 (same ▸ List.mem_map.mpr ⟨entry, later, rfl⟩)
      rw [List.find?_cons_of_neg (by simpa using apart)]
      exact ih distinct.2 later

theorem reorder_span : Span 1 (u32Max - 65536) := by
  refine ⟨Nat.le_refl _, ?_, ?_⟩ <;> decide

/-- Reorder safety: since `new` or `reset`, whatever is inserted in any order
and whenever the timeout fires, delivery is strictly increasing, delivers no
number twice, and hands out the first accepted frame of each number. -/
theorem delivered_increasing_first_accepted (buffer : ReorderBuffer) (ops : List Op)
    (fresh : Fresh buffer)
    (inside : ∀ op ∈ ops, ∀ seq ∈ op.seqs, 1 ≤ seq ∧ seq ≤ u32Max - 65536) :
    let final := ops.foldl perform (start buffer)
    (final.delivered.map Prod.fst).Pairwise (· < ·) ∧
      (final.delivered.map Prod.fst).Nodup ∧
      ∀ entry ∈ final.delivered,
        final.accepted.find? (fun other => other.1 == entry.1) = some entry := by
  have history := performAll_history (start buffer) ops reorder_span inside
    (fresh_history buffer fresh)
  have increasing := List.pairwise_map.mpr history.ordered
  refine ⟨increasing, increasing.imp Nat.ne_of_lt, ?_⟩
  intro entry member
  exact find_of_distinct _ history.distinct entry (history.source entry member)

def gapOps : List Op :=
  [.insert 1 [7] 0, .insert 3 [9] 1, .insert 3 [5] 2, .insert 2 [8] 3, .timeout 60000000]

theorem delivered_increasing_gapOps :
    let final := gapOps.foldl perform (start new)
    final.delivered = [(1, [7]), (2, [8]), (3, [9])] ∧
      (final.delivered.map Prod.fst).Pairwise (· < ·) ∧
      (final.delivered.map Prod.fst).Nodup ∧
      ∀ entry ∈ final.delivered,
        final.accepted.find? (fun other => other.1 == entry.1) = some entry :=
  ⟨by decide +kernel, delivered_increasing_first_accepted new gapOps Fresh.new (by decide +kernel)⟩

section Representation

inductive Call where
  | made (op : Op)
  | reset

def Call.seqs : Call → List Nat
  | .made op => op.seqs
  | .reset => []

def Call.run (buffer : ReorderBuffer) : Call → ReorderBuffer
  | .made op => (perform (start buffer) op).buffer
  | .reset => Reorder.reset buffer

def storedPairs (buffer : ReorderBuffer) : Set (Nat × Frame) :=
  { entry | ∃ index < buffer.size,
    buffer.ring index = some entry.2 ∧ buffer.seqSlots index = entry.1 }

structure Represented (buffer : ReorderBuffer) : Prop where
  size : ∃ power, 11 ≤ power ∧ power ≤ 16 ∧ buffer.size = 2 ^ power
  mask : buffer.windowMask = buffer.size - 1
  bits : ∀ index < buffer.size, (buffer.ring index).isSome = true ↔
    (buffer.bitmap (index / 64)).getLsbD (index % 64) = true
  slots : ∀ index < buffer.size, ∀ frame, buffer.ring index = some frame →
    buffer.seqSlots index % buffer.size = index ∧
      buffer.expectedSeq < buffer.seqSlots index ∧
      buffer.seqSlots index < buffer.expectedSeq + buffer.size
  vacant : buffer.ring (slotOf buffer buffer.expectedSeq) = none
  gap : buffer.gapSince.isSome = true ↔ ∃ index < buffer.size, (buffer.ring index).isSome = true

variable {buffer : ReorderBuffer}

theorem Shape.inside (shape : Shape buffer) {index : Nat}
    (stored : (buffer.ring index).isSome = true) : index < buffer.size := by
  by_contra outside
  rw [shape.outside index (Nat.not_lt.mp outside)] at stored
  cases stored

theorem Settled.represented (settled : Settled buffer) : Represented buffer := by
  have shape := settled.shape
  refine ⟨shape.sized.1, shape.sized.2, fun index _ => by rw [shape.bits], ?_, ?_, ?_⟩
  · intro index _ frame stored
    obtain ⟨residue, lower, upper⟩ := shape.slots index frame stored
    refine ⟨residue, Nat.lt_of_le_of_ne lower ?_, upper⟩
    intro same
    have vacant := settled.open_
    rw [same, residue, stored] at vacant
    cases vacant
  · rw [shape.sized.slotOf_eq]
    exact settled.open_
  · rw [settled.gap]
    exact ⟨fun ⟨index, stored⟩ => ⟨index, shape.inside stored, stored⟩,
      fun ⟨index, _, stored⟩ => ⟨index, stored⟩⟩

theorem Shape.mem_storedPairs (shape : Shape buffer) (entry : Nat × Frame) :
    entry ∈ storedPairs buffer ↔ Occupied buffer entry.1 entry.2 := by
  constructor
  · rintro ⟨index, _, stored, number⟩
    exact number ▸ shape.occupied index entry.2 stored
  · intro held
    exact ⟨_, Nat.mod_lt _ shape.sized.size_pos, held⟩

theorem growWindow_storedPairs {grown : ReorderBuffer} (shape : Shape buffer) {required : Nat}
    (result : growWindow buffer required = some grown) :
    storedPairs grown = storedPairs buffer := by
  have bounds : buffer.size < reorderMaxWindow ∧ required ≤ reorderMaxWindow := by
    simp only [growWindow] at result
    split at result
    · cases result
    · split at result
      · cases result
      · omega
  obtain ⟨other, same, regrown, _⟩ := growWindow_regrown buffer shape required bounds.1 bounds.2
  obtain rfl := Option.some.inj (same.symm.trans result)
  ext entry
  rw [regrown.shape.mem_storedPairs, shape.mem_storedPairs, regrown.held]

theorem storedPairs_learn (buffer : ReorderBuffer) (seq : Nat) :
    storedPairs (learn buffer seq) = storedPairs buffer := by
  unfold learn
  split <;> rfl

theorem perform_buffer (trace : Trace) (op : Op) :
    (perform trace op).buffer = (perform (start trace.buffer) op).buffer := by
  cases op with
  | insert seq frame now => rfl
  | timeout now => rfl
  | direct input =>
    unfold perform
    dsimp only [start]
    cases tryDirectBatch trace.buffer input <;> rfl

theorem calls_history (calls : List Call)
    (inside : ∀ call ∈ calls, ∀ seq ∈ call.seqs, 1 ≤ seq ∧ seq ≤ u32Max - 65536) :
    ∃ accepted delivered,
      History 1 (u32Max - 65536) (calls.foldl Call.run new) accepted delivered := by
  induction calls using List.reverseRecOn with
  | nil => exact ⟨[], [], fresh_history new .new⟩
  | append_singleton calls call ih =>
    obtain ⟨accepted, delivered, history⟩ := ih fun other member =>
      inside other (List.mem_append_left _ member)
    rw [List.foldl_append, List.foldl_cons, List.foldl_nil]
    cases call with
    | reset => exact ⟨[], [], cleared_history _ history.settled.shape.sized⟩
    | made op =>
      have next := perform_history ⟨_, accepted, delivered⟩ op reorder_span
        (inside (.made op) (List.mem_append_right _ (List.mem_singleton_self _))) history
      rw [perform_buffer] at next
      exact ⟨_, _, next⟩

/-- The representation of the ring after every call of a run, and that the window
grows without touching what is stored, also under a base just learned. -/
theorem ring_represented (calls : List Call)
    (inside : ∀ call ∈ calls, ∀ seq ∈ call.seqs, 1 ≤ seq ∧ seq ≤ u32Max - 65536) :
    let buffer := calls.foldl Call.run new
    Represented buffer ∧ ∀ seq required grown,
      growWindow (learn buffer seq) required = some grown →
        storedPairs grown = storedPairs buffer := by
  obtain ⟨_, _, history⟩ := calls_history calls inside
  refine ⟨history.settled.represented, ?_⟩
  intro seq required grown result
  rw [growWindow_storedPairs (learn_shape _ history.settled seq) result, storedPairs_learn]

def resetCalls : List Call := gapOps.map Call.made ++ [Call.reset, Call.made (.insert 9 [1] 7)]

theorem ring_represented_reset : Represented (resetCalls.foldl Call.run new) :=
  (ring_represented resetCalls (by decide +kernel)).1

end Representation

end TlsVpn.Reorder

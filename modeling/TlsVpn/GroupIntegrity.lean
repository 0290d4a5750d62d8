import TlsVpn.Port

/-!
FEC groups under concurrent writers. A call takes its sequence number in one
step and reaches the encoder in a later one, so two calls can reach it in the
opposite order of their numbers; the group they close is then not an aligned
run of numbers. As long as calls reach the encoder in the order of their
numbers, every parity covers a whole aligned group.
-/

namespace TlsVpn.Port

open Words XorBytes Protocol Fec Holdings

variable {k : Nat} {ic : Option InnerCipher}

/-- A parity record that describes the aligned group at `start`. `seqs` are the
numbers the encoder folded into it, `frames` what was numbered so far. -/
structure IntactGroup (k : Nat) (frames : List VpnFrame) (seqs : List Nat) (record : Bytes)
    (start : Nat) : Prop where
  aligned : start % k = 1
  covers : seqs = List.range' start k
  startField : readBe32 (record.drop 1) = start
  sizeField : (byteAt record 5).toNat = k
  lengths : ∀ index, index < k → ∃ frame ∈ frames, frame.seq = start + index ∧
    readBe32 (record.drop (6 + 4 * index)) = frame.data.length

section Encoder

structure Placed (k : Nat) (encoder : FecEncoder) (members : Delivered) (last : Nat) : Prop where
  size : encoder.k = k
  holds : Holds encoder members
  short : members.length < k
  enough : members.length ≤ last
  numbers : members.map Prod.fst = List.range' (last + 1 - members.length) members.length
  aligned : encoder.armed = true → (last - members.length) % k = 0
  idle : encoder.armed = false → members = []
  single : encoder.multipath = false → encoder.armed = false

variable {encoder : FecEncoder} {members : Delivered} {last : Nat}

theorem new_placed (atLeast : 2 ≤ k) (atMost : k ≤ 64) : Placed k (FecEncoder.new k ic) [] 0 := by
  refine ⟨clampFecGroup_of_bounds atLeast atMost, new_holds k ic, by simp; omega, Nat.le_refl _,
    rfl, ?_, fun _ => rfl, ?_⟩
  · intro _
    exact Nat.zero_mod k
  · intro single
    cases single

section

variable (placed : Placed k encoder members last)

include placed

theorem Placed.paths (count : Nat) :
    ∃ kept, (kept = members ∨ kept = []) ∧
      Placed k (encoder.setPhysicalPathCount count) kept last := by
  have short := placed.short
  have positive : ([] : Delivered).length < k := by
    rw [List.length_nil]
    omega
  simp only [FecEncoder.setPhysicalPathCount]
  by_cases same : decide (count ≥ 2) = encoder.multipath
  · rw [if_pos same]
    exact ⟨members, Or.inl rfl, placed⟩
  · rw [if_neg same]
    -- either way the encoder ends disarmed with an empty group
    refine ⟨[], Or.inr rfl, ?_⟩
    cases wide : decide (count ≥ 2) with
    | false =>
      rw [if_pos (by simp)]
      have cleared : Holds (if encoder.seqs ≠ [] ∨ encoder.activeLen ≠ 0 then encoder.reset
          else encoder) [] := by
        split
        · exact reset_holds encoder members placed.holds
        · rename_i clean
          have empty : members = [] := by
            by_contra some
            apply clean
            left
            rw [placed.holds.seqs]
            simpa using some
          rw [← empty]
          exact placed.holds
      have sized : (if encoder.seqs ≠ [] ∨ encoder.activeLen ≠ 0 then encoder.reset
          else encoder).k = k := by
        split <;> exact placed.size
      exact ⟨sized, ⟨cleared.seqs, cleared.lens, cleared.active, cleared.room, cleared.acc⟩,
        positive, Nat.zero_le _, rfl, (fun set => by cases set), fun _ => rfl, fun _ => rfl⟩
    | true =>
      rw [if_neg (by simp)]
      have off : encoder.multipath = false := by
        rw [wide] at same
        simpa using Ne.symm same
      have empty := placed.idle (placed.single off)
      have holds := placed.holds
      rw [empty] at holds
      exact ⟨placed.size, ⟨holds.seqs, holds.lens, holds.active, holds.room, holds.acc⟩,
        positive, Nat.zero_le _, rfl, (fun set => by cases set), fun _ => rfl,
        fun set => by cases set⟩

theorem Placed.joined (data : Bytes) :
    (members ++ [(last + 1, data)]).map Prod.fst =
      List.range' (last + 1 - members.length) (members.length + 1) := by
  have enough := placed.enough
  rw [List.map_append, placed.numbers, List.range'_1_concat, List.map_singleton]
  congr 2
  omega

theorem Placed.opened (opens : Opens encoder (last + 1)) : (last - members.length) % k = 0 := by
  rcases opens.2 with armed | ⟨_, boundary⟩
  · exact placed.aligned armed
  · cases armed : encoder.armed with
    | true => exact placed.aligned armed
    | false =>
      rw [placed.idle armed, List.length_nil, Nat.sub_zero]
      rw [Nat.add_sub_cancel, placed.size] at boundary
      exact boundary

end

/-- What feeding the next number does. The encoder stays placed whichever way it
goes, and a parity that leaves it is that of the aligned group it closes. -/
inductive Fed (k : Nat) (encoder : FecEncoder) (members : Delivered) (last : Nat) (data : Bytes) :
    FecEncoder × Option Bytes → Delivered → Prop where
  | ignored (shut : ¬ Opens encoder (last + 1)) (disarmed : encoder.armed = false)
      (placed : Placed k encoder [] (last + 1)) :
      Fed k encoder members last data (encoder, none) []
  | taken (after : FecEncoder) (opens : Opens encoder (last + 1)) (kept : Kept encoder after)
      (start : (last - members.length) % k = 0)
      (placed : Placed k after (members ++ [(last + 1, data)]) (last + 1)) :
      Fed k encoder members last data (after, none) (members ++ [(last + 1, data)])
  | closed (after : FecEncoder) (body : Bytes) (opens : Opens encoder (last + 1))
      (kept : Kept encoder after) (start : (last - members.length) % k = 0)
      (whole : members.length + 1 = k) (placed : Placed k after [] (last + 1))
      (isBody : IsBody ((members ++ [(last + 1, data)]).map Prod.snd) body) :
      Fed k encoder members last data (after, some (parityRecord encoder.ic
        (last + 1 - members.length)
        ((members ++ [(last + 1, data)]).map fun member => member.2.length) body)) []

theorem Placed.feed (placed : Placed k encoder members last) (data : Bytes) (nonempty : data ≠ []) :
    ∃ kept, Fed k encoder members last data (encoder.add (last + 1) data) kept := by
  have call := add_added encoder members (last + 1) data placed.holds
  have short := placed.short
  have enough := placed.enough
  have joined := placed.joined data
  generalize encoder.add (last + 1) data = result at call
  cases call with
  | ignored why =>
    have shut : ¬ Opens encoder (last + 1) := why.resolve_left nonempty
    have disarmed : encoder.armed = false := by
      cases armed : encoder.armed with
      | false => rfl
      | true =>
        cases multipath : encoder.multipath with
        | true => exact absurd ⟨multipath, Or.inl armed⟩ shut
        | false =>
          rw [placed.single multipath] at armed
          cases armed
    have empty := placed.idle disarmed
    subst members
    refine ⟨[], .ignored shut disarmed ⟨placed.size, placed.holds, short, Nat.zero_le _, rfl, ?_,
      fun _ => rfl, placed.single⟩⟩
    intro armed
    rw [disarmed] at armed
    cases armed
  | taken after opens kept holds room =>
    have start := placed.opened opens
    refine ⟨_, .taken after opens kept start ⟨kept.k.trans placed.size, holds, ?_, ?_, ?_, ?_, ?_,
      ?_⟩⟩
    · rw [List.length_append, List.length_singleton, ← placed.size]
      exact room
    · rw [List.length_append, List.length_singleton]
      omega
    · rw [joined, List.length_append, List.length_singleton]
      congr 1
      omega
    · intro _
      rw [List.length_append, List.length_singleton,
        show last + 1 - (members.length + 1) = last - members.length by omega]
      exact start
    · intro disarmed
      rw [kept.armed] at disarmed
      cases disarmed
    · intro single
      rw [kept.multipath] at single
      cases single
  | closed after body opens kept holds full isBody =>
    have start := placed.opened opens
    rw [placed.size] at full
    have whole : members.length + 1 = k := by omega
    rw [joined, List.range'_succ, List.headD_cons]
    refine ⟨[], .closed after body opens kept start whole ⟨kept.k.trans placed.size, holds, ?_,
      Nat.zero_le _, rfl, ?_, fun _ => rfl, ?_⟩ isBody⟩
    · rw [List.length_nil]
      omega
    · intro _
      rw [List.length_nil, Nat.sub_zero,
        show last + 1 = last - members.length + k by omega, Nat.add_mod_right]
      exact start
    · intro single
      rw [kept.multipath] at single
      cases single

theorem Placed.add (placed : Placed k encoder members last) (atLeast : 2 ≤ k) (data : Bytes)
    (nonempty : data ≠ []) :
    ∃ kept, Placed k (encoder.add (last + 1) data).1 kept (last + 1) ∧
      (∀ member ∈ kept, member ∈ members ∨ member = (last + 1, data)) ∧
      ∀ record, (encoder.add (last + 1) data).2 = some record →
        (last + 1 - members.length) % k = 1 ∧ members.length + 1 = k ∧
          ∃ body, record = parityRecord encoder.ic (last + 1 - members.length)
            ((members ++ [(last + 1, data)]).map fun member => member.2.length) body := by
  have enough := placed.enough
  obtain ⟨kept, fed⟩ := placed.feed data nonempty
  generalize encoder.add (last + 1) data = result at fed
  cases fed with
  | ignored shut disarmed stays =>
    refine ⟨[], stays, ?_, ?_⟩
    · intro member present
      cases present
    · intro record absurd
      cases absurd
  | taken after opens same start stays =>
    refine ⟨_, stays, ?_, ?_⟩
    · intro member present
      rcases List.mem_append.mp present with old | new
      · exact Or.inl old
      · exact Or.inr (List.mem_singleton.mp new)
    · intro record absurd
      cases absurd
  | closed after body opens same start whole stays isBody =>
    refine ⟨[], stays, ?_, ?_⟩
    · intro member present
      cases present
    · intro record given
      refine ⟨?_, whole, body, (Option.some.inj given).symm⟩
      rw [show last + 1 - members.length = last - members.length + 1 by omega, Nat.add_mod,
        start, Nat.zero_add, Nat.mod_mod, Nat.mod_eq_of_lt (by omega)]

end Encoder

section Runs

def Writer.pending : Writer → List Nat
  | .numbered seq _ _ => [seq]
  | _ => []

/-- A call enters the encoder only when no earlier number is still on its way. -/
def EncoderInOrder (port : AsyncPort) : WriteLabel → Prop
  | .encode index =>
    match port.writers[index]? with
    | some (.numbered seq _ _) => ∀ other ∈ held Writer.pending port.writers, seq ≤ other
    | _ => True
  | _ => True

instance decidableEncoderInOrder (port : AsyncPort) :
    ∀ label, Decidable (EncoderInOrder port label)
  | .encode index => by
    dsimp only [EncoderInOrder]
    exact match port.writers[index]? with
      | some (.numbered seq round payload) => inferInstance
      | some (.entered _) | some (.encoded _ _ _ _ _) | some (.delivered _ _) | some .finished
      | none => .isTrue trivial
  | .enter _ | .number _ | .attempt _ _ | .giveUp _ | .parity _ _ | .leave _ | .register _ _
  | .unregister _ => .isTrue trivial

structure Ordered (k : Nat) (port : AsyncPort) (encoder : FecEncoder) (members : Delivered)
    (last : Nat) : Prop where
  attached : port.encoder = some encoder
  enabled : port.encoderEnabled = true
  placed : Placed k encoder members last
  logged : ∀ member ∈ members, ∃ frame ∈ port.numbered,
    frame.seq = member.1 ∧ frame.data = member.2
  reached : last ≤ port.txSeq
  bounded : port.txSeq ≤ u32Max
  pending : (held Writer.pending port.writers).Perm
    (List.range' (last + 1) (port.txSeq - last))
  owners : ∀ seq round payload, Writer.numbered seq round payload ∈ port.writers →
    ⟨seq, payload.bytes, round⟩ ∈ port.numbered
  numbers : port.numbered.map VpnFrame.seq = List.range' 1 port.txSeq
  words : ∀ frame ∈ port.numbered, frame.data.length ≤ u32Max
  intact : ∀ entry ∈ port.emitted, ∃ start, IntactGroup k port.numbered entry.1 entry.2 start

variable {frames : List VpnFrame} {start : Nat} {next : AsyncPort}

theorem IntactGroup.grow {seqs : List Nat} {record : Bytes}
    (intact : IntactGroup k frames seqs record start) (more : List VpnFrame) :
    IntactGroup k (frames ++ more) seqs record start := by
  refine ⟨intact.aligned, intact.covers, intact.startField, intact.sizeField, ?_⟩
  intro index inside
  obtain ⟨frame, present, same⟩ := intact.lengths index inside
  exact ⟨frame, List.mem_append_left more present, same⟩

/-- The record written for a whole aligned group describes that group, as long
as every member is among the numbered frames. -/
theorem parityRecord_intact {group : Delivered} {body : Bytes} (aligned : start % k = 1)
    (consecutive : group.map Prod.fst = List.range' start k) (atMost : k ≤ 64)
    (bounded : start ≤ u32Max)
    (logged : ∀ member ∈ group, ∃ frame ∈ frames, frame.seq = member.1 ∧ frame.data = member.2)
    (fits : ∀ frame ∈ frames, frame.data.length ≤ u32Max) :
    IntactGroup k frames (group.map Prod.fst)
      (parityRecord ic start (group.map fun member => member.2.length) body) start := by
  have whole : group.length = k := by
    rw [← List.length_map Prod.fst, consecutive, List.length_range']
  have count : (group.map fun member => member.2.length).length = k := by
    rw [List.length_map, whole]
  have words : ∀ length ∈ group.map (fun member => member.2.length), length ≤ u32Max := by
    intro length listed
    obtain ⟨member, inGroup, rfl⟩ := List.mem_map.mp listed
    obtain ⟨frame, present, _, data⟩ := logged member inGroup
    rw [← data]
    exact fits frame present
  refine ⟨aligned, consecutive, parityRecord_start _ _ _ _ bounded, ?_, ?_⟩
  · rw [parityRecord_size _ _ _ _ (by omega), count]
  · intro position inside
    have member : position < group.length := by omega
    obtain ⟨frame, present, number, data⟩ := logged _ (List.getElem_mem member)
    refine ⟨frame, present, ?_, ?_⟩
    · have entry : (group.map Prod.fst)[position]? = some frame.seq := by
        rw [number, List.getElem?_map, List.getElem?_eq_getElem member]
        rfl
      rw [consecutive, List.getElem?_range' inside] at entry
      have value := Option.some.inj entry
      omega
    · rw [parityRecord_member _ _ _ _ words position (by omega), data, List.getElem_map]

variable {encoder : FecEncoder} {members : Delivered} {last : Nat}

theorem Ordered.transport {port : AsyncPort} (ordered : Ordered k port encoder members last)
    (attached : next.encoder = port.encoder) (enabled : next.encoderEnabled = port.encoderEnabled)
    (counter : next.txSeq = port.txSeq) (numbered : next.numbered = port.numbered)
    (emitted : next.emitted = port.emitted)
    (pending : (held Writer.pending next.writers).Perm (held Writer.pending port.writers))
    (owners : ∀ seq round payload, Writer.numbered seq round payload ∈ next.writers →
      Writer.numbered seq round payload ∈ port.writers) : Ordered k next encoder members last := by
  refine ⟨attached.trans ordered.attached, enabled.trans ordered.enabled, ordered.placed, ?_, ?_,
    ?_, ?_, ?_, ?_, ?_, ?_⟩
  · rw [numbered]
    exact ordered.logged
  · rw [counter]
    exact ordered.reached
  · rw [counter]
    exact ordered.bounded
  · rw [counter]
    exact pending.trans ordered.pending
  · intro seq round payload present
    rw [numbered]
    exact ordered.owners seq round payload (owners seq round payload present)
  · rw [numbered, counter]
    exact ordered.numbers
  · rw [numbered]
    exact ordered.words
  · rw [numbered, emitted]
    exact ordered.intact

theorem Ordered.moved {port : AsyncPort} (ordered : Ordered k port encoder members last)
    (index : Nat) (old new : Writer) (found : port.writers[index]? = some old)
    (before : old.pending = []) (after : new.pending = [])
    (writers : next.writers = port.writers.set index new) (attached : next.encoder = port.encoder)
    (enabled : next.encoderEnabled = port.encoderEnabled) (counter : next.txSeq = port.txSeq)
    (numbered : next.numbered = port.numbered) (emitted : next.emitted = port.emitted) :
    Ordered k next encoder members last := by
  refine ordered.transport attached enabled counter numbered emitted ?_ ?_
  · rw [writers]
    exact held_set_same Writer.pending port.writers index old new found (after.trans before.symm)
  · intro seq round payload present
    rw [writers] at present
    rcases List.mem_or_eq_of_mem_set present with kept | same
    · exact kept
    · rw [← same] at after
      cases after

theorem ordered_numbered (port : AsyncPort) (ordered : Ordered k port encoder members last)
    (index : Nat) (payload : Payload) (found : port.writers[index]? = some (.entered payload))
    (room : port.txSeq ≠ u32Max) :
    Ordered k
      { port with
        txSeq := port.txSeq + 1
        numbered := port.numbered ++ [⟨port.txSeq + 1, payload.bytes, port.round⟩]
        writers := port.writers.set index (.numbered (port.txSeq + 1) port.round payload) }
      encoder members last := by
  have reached := ordered.reached
  have bounded := ordered.bounded
  refine ⟨ordered.attached, ordered.enabled, ordered.placed, ?_, ?_, ?_, ?_, ?_, ?_, ?_, ?_⟩
  · intro member present
    obtain ⟨frame, logged, same⟩ := ordered.logged member present
    exact ⟨frame, List.mem_append_left _ logged, same⟩
  · change last ≤ port.txSeq + 1
    omega
  · change port.txSeq + 1 ≤ u32Max
    omega
  · have exchange := held_set Writer.pending port.writers index (.entered payload)
      (.numbered (port.txSeq + 1) port.round payload) found
    change (held Writer.pending (port.writers.set index _)).Perm
      (List.range' (last + 1) (port.txSeq + 1 - last))
    rw [show port.txSeq + 1 - last = port.txSeq - last + 1 by omega, List.range'_1_concat,
      show last + 1 + (port.txSeq - last) = port.txSeq + 1 by omega]
    exact exchange.trans ((ordered.pending.cons _).trans (List.perm_append_singleton _ _).symm)
  · intro seq round other present
    rcases List.mem_or_eq_of_mem_set present with kept | same
    · exact List.mem_append_left _ (ordered.owners seq round other kept)
    · cases same
      exact List.mem_append_right _ (List.mem_singleton_self _)
  · change (port.numbered ++ [_]).map VpnFrame.seq = List.range' 1 (port.txSeq + 1)
    rw [List.map_append, ordered.numbers, List.range'_1_concat, Nat.add_comm 1 port.txSeq]
    rfl
  · have fits := payload.fits
    exact forall_mem_concat ordered.words (by simp only; omega)
  · intro entry present
    obtain ⟨start, intact⟩ := ordered.intact entry present
    exact ⟨start, intact.grow _⟩

theorem Ordered.next_number {port : AsyncPort} (ordered : Ordered k port encoder members last)
    (index seq round : Nat) (payload : Payload)
    (found : port.writers[index]? = some (.numbered seq round payload))
    (inOrder : ∀ other ∈ held Writer.pending port.writers, seq ≤ other) :
    seq = last + 1 ∧ last < port.txSeq := by
  have mine : seq ∈ held Writer.pending port.writers :=
    List.mem_flatMap.mpr ⟨_, List.mem_of_getElem? found, List.mem_singleton_self seq⟩
  have bounds := List.mem_range'_1.mp (ordered.pending.subset mine)
  have first := inOrder (last + 1)
    (ordered.pending.symm.subset (List.mem_range'_1.mpr (by omega)))
  omega

theorem ordered_encoded (port : AsyncPort) (ordered : Ordered k port encoder members last)
    (atLeast : 2 ≤ k) (atMost : k ≤ 64) (index seq round : Nat) (payload : Payload)
    (found : port.writers[index]? = some (.numbered seq round payload))
    (inOrder : ∀ other ∈ held Writer.pending port.writers, seq ≤ other) :
    ∃ after kept, Ordered k (port.encode index seq round payload) after kept (last + 1) := by
  obtain ⟨same, more⟩ := ordered.next_number index seq round payload found inOrder
  subst same
  obtain ⟨counter, _, numbered, _⟩ := encode_fixed port index (last + 1) round payload
  obtain ⟨parity, control, writers⟩ := encode_writers port index (last + 1) round payload
  have mine := ordered.owners (last + 1) round payload (List.mem_of_getElem? found)
  obtain ⟨opened, origin, observed⟩ := ordered.placed.paths port.pathCount
  obtain ⟨kept, placed, source, closes⟩ := observed.add atLeast payload.bytes payload.nonempty
  have logged : ∀ member ∈ opened ++ [(last + 1, payload.bytes)], ∃ frame ∈ port.numbered,
      frame.seq = member.1 ∧ frame.data = member.2 := by
    intro member present
    rcases List.mem_append.mp present with old | new
    · rcases origin with rfl | rfl
      · exact ordered.logged member old
      · cases old
    · rw [List.mem_singleton.mp new]
      exact ⟨_, mine, rfl, rfl⟩
  have bounded := ordered.bounded
  refine ⟨_, kept, ⟨?_, ?_, placed, ?_, ?_, ?_, ?_, ?_, ?_, ?_, ?_⟩⟩
  · simp only [AsyncPort.encode, ordered.attached, ordered.enabled, ↓reduceIte]
  · simp only [AsyncPort.encode, ordered.attached, ordered.enabled, ↓reduceIte]
  · rw [numbered]
    intro member present
    apply logged
    rcases source member present with old | new
    · exact List.mem_append_left _ old
    · exact List.mem_append_right _ (List.mem_singleton.mpr new)
  · rw [counter]
    omega
  · rw [counter]
    exact bounded
  · rw [writers, counter]
    have exchange := held_set Writer.pending port.writers index _
      (.encoded (last + 1) round payload parity control) found
    have head : List.range' (last + 1) (port.txSeq - last) =
        (last + 1) :: List.range' (last + 1 + 1) (port.txSeq - (last + 1)) := by
      rw [show port.txSeq - last = port.txSeq - (last + 1) + 1 by omega, List.range'_succ]
    have before := ordered.pending
    rw [head] at before
    exact (List.perm_cons (last + 1)).mp (exchange.trans before)
  · intro other turn data present
    rw [writers] at present
    rw [numbered]
    rcases List.mem_or_eq_of_mem_set present with old | same
    · exact ordered.owners other turn data old
    · cases same
  · rw [numbered, counter]
    exact ordered.numbers
  · rw [numbered]
    exact ordered.words
  · intro entry present
    rw [numbered]
    simp only [AsyncPort.encode, ordered.attached, ordered.enabled, ↓reduceIte] at present
    rcases List.mem_append.mp present with old | new
    · exact ordered.intact entry old
    · obtain ⟨record, result, rfl⟩ := Option.mem_map.mp (Option.mem_toList.mp new)
      obtain ⟨aligned, whole, body, rfl⟩ := closes record result
      have consecutive := observed.joined payload.bytes
      rw [whole] at consecutive
      have folded : (opened ++ [(last + 1, payload.bytes)]).map Prod.fst =
          (encoder.setPhysicalPathCount port.pathCount).seqs ++ [last + 1] := by
        rw [List.map_append, List.map_singleton, observed.holds.seqs]
      rw [← folded]
      exact ⟨_, parityRecord_intact aligned consecutive atMost (by omega) logged ordered.words⟩

theorem ordered_step (port next : AsyncPort) (label : WriteLabel)
    (ordered : Ordered k port encoder members last) (atLeast : 2 ≤ k) (atMost : k ≤ 64)
    (inOrder : EncoderInOrder port label) (taken : port.step label = some next) :
    ∃ after kept final, Ordered k next after kept final := by
  have written := step_written port next label taken
  cases written with
  | refused payload =>
    exact ⟨_, _, _, ordered.transport rfl rfl rfl rfl rfl (List.Perm.refl _) (fun _ _ _ h => h)⟩
  | entered payload =>
    refine ⟨_, _, _, ordered.transport rfl rfl rfl rfl rfl ?_ ?_⟩
    · change (held Writer.pending (port.writers ++ [.entered payload])).Perm _
      rw [held_append, held_singleton]
      exact List.Perm.of_eq (List.append_nil _)
    · intro seq round other present
      rcases List.mem_append.mp present with old | new
      · exact old
      · cases List.mem_singleton.mp new
  | exhausted index payload found full =>
    exact ⟨_, _, _, ordered.moved index _ .finished found rfl rfl rfl rfl rfl rfl rfl rfl⟩
  | numbered index payload found room =>
    exact ⟨_, _, _, ordered_numbered port ordered index payload found room⟩
  | encoded index seq round payload found =>
    obtain ⟨after, kept, done⟩ := ordered_encoded port ordered atLeast atMost index seq round
      payload found (by simpa only [EncoderInOrder, found] using inOrder)
    exact ⟨after, kept, last + 1, done⟩
  | attempted index target backend seq round payload parity control found there registered =>
    simp only [AsyncPort.attempt]
    split
    · exact ⟨_, _, _, ordered.moved index _ (.delivered round parity) found rfl rfl rfl rfl rfl
        rfl rfl rfl⟩
    · exact ⟨_, _, _, ordered.transport rfl rfl rfl rfl rfl (List.Perm.refl _)
        (fun _ _ _ h => h)⟩
  | gaveUp index seq round payload parity control found =>
    exact ⟨_, _, _, ordered.moved index _ (.delivered round parity) found rfl rfl rfl rfl rfl rfl
      rfl rfl⟩
  | parity index target backend round record found there registered =>
    refine ⟨_, _, _, ordered.moved index _ .finished found rfl rfl ?_ ?_ ?_ ?_ ?_ ?_⟩ <;>
      simp only [AsyncPort.setWriter, AsyncPort.sendParity] <;> split <;> rfl
  | left index round parity found =>
    exact ⟨_, _, _, ordered.moved index _ .finished found rfl rfl rfl rfl rfl rfl rfl rfl⟩
  | registered capacityFrames maxBatchFrames quiet =>
    exact ⟨_, _, _, ordered.transport rfl rfl rfl rfl rfl (List.Perm.refl _) (fun _ _ _ h => h)⟩
  | unregistered target backend there quiet =>
    exact ⟨_, _, _, ordered.transport rfl rfl rfl rfl rfl (List.Perm.refl _) (fun _ _ _ h => h)⟩

def fecPort (k : Nat) (ic : Option InnerCipher) (backends : List Backend) : AsyncPort :=
  { AsyncPort.new.resetEpoch k ic with backends := backends }

theorem fecPort_ordered (backends : List Backend) (atLeast : 2 ≤ k) (atMost : k ≤ 64) :
    Ordered k (fecPort k ic backends) (FecEncoder.new k ic) [] 0 := by
  have enough : k ≥ fecMinGroup := atLeast
  refine ⟨?_, ?_, new_placed atLeast atMost, ?_, Nat.le_refl _, Nat.zero_le _, List.Perm.refl _, ?_,
    rfl, ?_, ?_⟩
  · simp [fecPort, AsyncPort.resetEpoch, AsyncPort.resetFec, enough]
  · simp [fecPort, AsyncPort.resetEpoch, AsyncPort.resetFec, enough]
  · intro member present
    cases present
  · intro seq round payload present
    cases present
  · intro frame present
    cases present
  · intro entry present
    cases present

/-- In every run in which calls enter the encoder in the order of their numbers,
every parity record describes a whole aligned group, and a number names one
payload. -/
theorem parity_groups_intact_in_order (k : Nat) (ic : Option InnerCipher)
    (backends : List Backend) (labels : List WriteLabel) (final : AsyncPort)
    (atLeast : 2 ≤ k) (atMost : k ≤ 64)
    (reached : Runs.run AsyncPort.step (fecPort k ic backends) labels = some final)
    (inOrder : Runs.Along AsyncPort.step EncoderInOrder (fecPort k ic backends) labels) :
    (final.numbered.map VpnFrame.seq).Nodup ∧
      ∀ entry ∈ final.emitted, ∃ start, IntactGroup k final.numbered entry.1 entry.2 start := by
  obtain ⟨encoder, members, last, ordered⟩ := Runs.invariant_along AsyncPort.step EncoderInOrder
    (fun port => ∃ encoder members last, Ordered k port encoder members last)
    (fun port label next guard ⟨encoder, members, last, ordered⟩ taken =>
      ordered_step port next label ordered atLeast atMost guard taken)
    (fecPort k ic backends) final labels reached inOrder
    ⟨_, _, _, fecPort_ordered backends atLeast atMost⟩
  refine ⟨?_, ordered.intact⟩
  rw [ordered.numbers]
  exact List.nodup_range'

def twoBackends : List Backend := List.replicate 2 ⟨true, OwnedBatchQueue.new 1024 8, 0⟩

def shortPayload : Payload := ⟨[1], by decide, by decide⟩

def longPayload : Payload := ⟨[2, 3], by decide, by decide⟩

def overlappingCalls : List WriteLabel :=
  [.enter shortPayload, .enter longPayload, .number 0, .number 1, .encode 0, .encode 1,
    .attempt 1 0, .attempt 0 1, .parity 1 1]

theorem parity_groups_intact_overlapping : ∃ final,
    Runs.run AsyncPort.step (fecPort 2 none twoBackends) overlappingCalls = some final ∧
      final.emitted.map Prod.fst = [[1, 2]] ∧
      ∀ entry ∈ final.emitted, ∃ start, IntactGroup 2 final.numbered entry.1 entry.2 start := by
  have evaluated : (Runs.run AsyncPort.step (fecPort 2 none twoBackends) overlappingCalls).map
      (fun port => port.emitted.map Prod.fst) = some [[1, 2]] := by decide +kernel
  obtain ⟨final, reached, emitted⟩ := Option.map_eq_some_iff.mp evaluated
  exact ⟨final, reached, emitted,
    (parity_groups_intact_in_order 2 none twoBackends overlappingCalls final (by decide)
      (by decide) reached (by decide +kernel)).2⟩

/-- The same two calls, the second one first at the encoder: the record that
leaves it starts at 2, and its lengths are swapped. -/
def overtakenCalls : List WriteLabel :=
  [.enter shortPayload, .enter longPayload, .number 0, .number 1, .encode 1, .encode 0]

theorem overtaken_parity_not_intact : ∃ final seqs record,
    Runs.run AsyncPort.step (fecPort 2 none twoBackends) overtakenCalls = some final ∧
      (seqs, record) ∈ final.emitted ∧ readBe32 (record.drop 1) = 2 ∧
      ∀ start, ¬ IntactGroup 2 final.numbered seqs record start := by
  have evaluated : (Runs.run AsyncPort.step (fecPort 2 none twoBackends) overtakenCalls).map
      (fun port => port.emitted) =
        some [([2, 1], [1, 0, 0, 0, 2, 2, 0, 0, 0, 2, 0, 0, 0, 1, 3, 3])] := by decide +kernel
  obtain ⟨final, reached, emitted⟩ := Option.map_eq_some_iff.mp evaluated
  refine ⟨final, [2, 1], [1, 0, 0, 0, 2, 2, 0, 0, 0, 2, 0, 0, 0, 1, 3, 3], reached, ?_, by decide,
    ?_⟩
  · rw [emitted]
    exact List.mem_singleton_self _
  · intro start intact
    have two : start = 2 := intact.startField.symm.trans (by decide)
    have aligned := intact.aligned
    rw [two] at aligned
    cases aligned

end Runs

end TlsVpn.Port

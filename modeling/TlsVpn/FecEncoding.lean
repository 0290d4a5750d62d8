import TlsVpn.Fec

/-!
What the encoder emits, and that the decoder reads the same descriptor and body
back out of it. The encoder's accumulator is the exclusive or of the members it
holds; the record of a full group is a function of those members alone.
-/

namespace TlsVpn.Fec

open Words XorBytes Protocol

def maxLen (members : List Bytes) : Nat := (members.map List.length).foldl max 0

structure IsBody (members : List Bytes) (body : Bytes) : Prop where
  length : body.length = maxLen members
  bytes : ∀ position, byteAt body position = xorAll members position

variable (members : List Bytes) (member : Bytes)

theorem maxLen_concat : maxLen (members ++ [member]) = max (maxLen members) member.length := by
  simp [maxLen]

theorem le_maxLen (present : member ∈ members) : member.length ≤ maxLen members := by
  induction members using List.reverseRecOn with
  | nil => cases present
  | append_singleton rest last ih =>
    rw [maxLen_concat]
    rcases List.mem_append.mp present with old | new
    · exact Nat.le_trans (ih old) (Nat.le_max_left _ _)
    · rw [List.mem_singleton.mp new]
      exact Nat.le_max_right _ _

theorem xorAll_past (position : Nat) (past : maxLen members ≤ position) :
    xorAll members position = 0 := by
  induction members using List.reverseRecOn with
  | nil => rfl
  | append_singleton rest last ih =>
    rw [maxLen_concat] at past
    rw [xorAll_concat, ih (by omega), byteAt_past last position (by omega)]
    rfl

section Encoder

structure Holds (encoder : FecEncoder) (members : Delivered) : Prop where
  seqs : encoder.seqs = members.map Prod.fst
  lens : encoder.lens = members.map fun member => member.2.length
  active : encoder.activeLen = maxLen (members.map Prod.snd)
  room : encoder.activeLen ≤ encoder.acc.length
  acc : ∀ position, byteAt encoder.acc position = xorAll (members.map Prod.snd) position

variable (encoder : FecEncoder) (members : Delivered) (seq paths : Nat) (data : Bytes)

theorem new_holds (k : Nat) (ic : Option InnerCipher) : Holds (FecEncoder.new k ic) [] :=
  ⟨rfl, rfl, rfl, Nat.le_refl _, fun _ => rfl⟩

theorem reset_holds (holds : Holds encoder members) : Holds encoder.reset [] := by
  refine ⟨rfl, rfl, rfl, Nat.zero_le _, ?_⟩
  intro position
  change byteAt (List.replicate encoder.activeLen 0 ++ encoder.acc.drop encoder.activeLen) position
    = 0
  by_cases active : position < encoder.activeLen
  · simp [byteAt, List.getElem?_append, active]
  · have tail : byteAt (List.replicate encoder.activeLen 0 ++ encoder.acc.drop encoder.activeLen)
        position = byteAt encoder.acc position := by
      have sum : encoder.activeLen + (position - encoder.activeLen) = position := by omega
      simp [byteAt, List.getElem?_append, active, sum]
    rw [tail, holds.acc, xorAll_past]
    rw [← holds.active]
    omega

theorem push_holds (holds : Holds encoder members) :
    Holds (encoder.push seq data) (members ++ [(seq, data)]) := by
  have room := holds.room
  refine ⟨?_, ?_, ?_, ?_, ?_⟩
  · simp [FecEncoder.push, holds.seqs]
  · simp [FecEncoder.push, holds.lens]
  · simp [FecEncoder.push, holds.active, maxLen_concat]
  · simp only [FecEncoder.push, xorInto_length, extend_length]
    omega
  · intro position
    simp only [FecEncoder.push, List.map_append, List.map_cons, List.map_nil, xorAll_concat]
    rw [byteAt_xorInto _ _ (by rw [extend_length]; omega), byteAt_extend, holds.acc]

theorem setPhysicalPathCount_holds (holds : Holds encoder members) :
    ∃ kept, (kept = members ∨ kept = []) ∧ Holds (encoder.setPhysicalPathCount paths) kept := by
  have transport : ∀ (source : FecEncoder) (kept : Delivered) (multipath armed : Bool),
      Holds source kept → Holds { source with multipath := multipath, armed := armed } kept :=
    fun _ _ _ _ held => ⟨held.seqs, held.lens, held.active, held.room, held.acc⟩
  simp only [FecEncoder.setPhysicalPathCount]
  split
  · exact ⟨members, Or.inl rfl, holds⟩
  · split
    · split
      · exact ⟨[], Or.inr rfl, transport _ _ _ _ (reset_holds encoder members holds)⟩
      · exact ⟨members, Or.inl rfl, transport _ _ _ _ holds⟩
    · exact ⟨members, Or.inl rfl, transport _ _ _ _ holds⟩

theorem setPhysicalPathCount_fixed :
    (encoder.setPhysicalPathCount paths).k = encoder.k ∧
      (encoder.setPhysicalPathCount paths).ic = encoder.ic := by
  simp only [FecEncoder.setPhysicalPathCount]
  split
  · exact ⟨rfl, rfl⟩
  · split
    · split <;> exact ⟨rfl, rfl⟩
    · exact ⟨rfl, rfl⟩

theorem add_size : (encoder.add seq data).1.k = encoder.k := by
  have armed : (encoder.arm seq).k = encoder.k := by
    unfold FecEncoder.arm
    split
    · rfl
    · split <;> rfl
  simp only [FecEncoder.add]
  split
  · rfl
  · split
    · exact armed
    · split <;> exact armed

theorem buildParity_body (holds : Holds encoder members) :
    ∃ body, encoder.buildParity = parityRecord encoder.ic ((members.map Prod.fst).headD 0)
      (members.map fun member => member.2.length) body ∧ IsBody (members.map Prod.snd) body := by
  refine ⟨encoder.acc.take encoder.activeLen, ?_, ?_, ?_⟩
  · rw [FecEncoder.buildParity, holds.seqs, holds.lens]
  · rw [List.length_take, Nat.min_eq_left holds.room, holds.active]
  · intro position
    rw [← holds.acc]
    by_cases active : position < encoder.activeLen
    · simp [byteAt, active]
    · rw [byteAt_past _ _ (by rw [List.length_take]; omega), holds.acc, xorAll_past]
      rw [← holds.active]
      omega

def Opens (encoder : FecEncoder) (seq : Nat) : Prop :=
  encoder.multipath = true ∧
    (encoder.armed = true ∨ (seq ≠ 0 ∧ (seq - 1) % encoder.k = 0))

structure Kept (encoder after : FecEncoder) : Prop where
  k : after.k = encoder.k
  ic : after.ic = encoder.ic
  multipath : after.multipath = true
  armed : after.armed = true

inductive Added (encoder : FecEncoder) (members : Delivered) (seq : Nat) (data : Bytes) :
    FecEncoder × Option Bytes → Prop where
  | ignored (why : data = [] ∨ ¬ Opens encoder seq) :
      Added encoder members seq data (encoder, none)
  | taken (after : FecEncoder) (opens : Opens encoder seq) (kept : Kept encoder after)
      (holds : Holds after (members ++ [(seq, data)]))
      (short : members.length + 1 < encoder.k) : Added encoder members seq data (after, none)
  | closed (after : FecEncoder) (body : Bytes) (opens : Opens encoder seq)
      (kept : Kept encoder after) (holds : Holds after [])
      (full : encoder.k ≤ members.length + 1)
      (isBody : IsBody ((members ++ [(seq, data)]).map Prod.snd) body) :
      Added encoder members seq data (after, some (parityRecord encoder.ic
        (((members ++ [(seq, data)]).map Prod.fst).headD 0)
        ((members ++ [(seq, data)]).map fun member => member.2.length) body))

theorem arm_cases (multipath : encoder.multipath = true) :
    (¬ Opens encoder seq ∧ encoder.arm seq = encoder ∧ encoder.armed = false) ∨
      (Opens encoder seq ∧ encoder.arm seq = { encoder with armed := true }) := by
  unfold FecEncoder.arm
  cases armed : encoder.armed with
  | true =>
    right
    refine ⟨⟨multipath, Or.inl armed⟩, ?_⟩
    rw [if_pos rfl, ← armed]
  | false =>
    rw [if_neg (by simp)]
    by_cases off : seq = 0 ∨ (seq - 1) % encoder.k ≠ 0
    · left
      rw [if_pos off]
      refine ⟨?_, rfl, rfl⟩
      rintro ⟨_, set | ⟨nonzero, boundary⟩⟩
      · rw [armed] at set
        cases set
      · rcases off with zero | skewed
        · exact nonzero zero
        · exact skewed boundary
    · right
      rw [if_neg off]
      refine ⟨⟨multipath, Or.inr ⟨?_, ?_⟩⟩, rfl⟩
      · exact fun zero => off (Or.inl zero)
      · by_contra skewed
        exact off (Or.inr skewed)

theorem add_added (holds : Holds encoder members) :
    Added encoder members seq data (encoder.add seq data) := by
  simp only [FecEncoder.add]
  by_cases skip : data = [] ∨ encoder.multipath = false
  · rw [if_pos skip]
    exact .ignored (skip.imp_right fun single opens => by
      have set := opens.1
      rw [single] at set
      cases set)
  · rw [if_neg skip]
    have multipath : encoder.multipath = true := by
      by_contra single
      exact skip (Or.inr (by simpa using single))
    rcases arm_cases encoder seq multipath with ⟨shut, same, idle⟩ | ⟨opens, ready⟩
    · rw [same, if_pos idle]
      exact .ignored (Or.inr shut)
    · rw [ready, if_neg (by simp)]
      have armed : Holds { encoder with armed := true } members :=
        ⟨holds.seqs, holds.lens, holds.active, holds.room, holds.acc⟩
      have pushed := push_holds { encoder with armed := true } members seq data armed
      have count : (FecEncoder.push { encoder with armed := true } seq data).seqs.length =
          members.length + 1 := by
        rw [pushed.seqs]
        simp
      have bound : (FecEncoder.push { encoder with armed := true } seq data).k = encoder.k := rfl
      by_cases short : (FecEncoder.push { encoder with armed := true } seq data).seqs.length <
          (FecEncoder.push { encoder with armed := true } seq data).k
      · rw [if_pos short]
        exact .taken _ opens ⟨rfl, rfl, multipath, rfl⟩ pushed (by omega)
      · rw [if_neg short]
        obtain ⟨body, record, isBody⟩ := buildParity_body _ _ pushed
        rw [record]
        refine .closed _ body opens ⟨rfl, rfl, multipath, rfl⟩ ?_ (by omega) isBody
        refine reset_holds _ (members ++ [(seq, data)]) ?_
        exact ⟨pushed.seqs, pushed.lens, pushed.active, pushed.room, pushed.acc⟩

end Encoder

section Stream

/-- Payloads by sequence number: never empty, and sealed they fit the length
field of a frame header. -/
structure Payloads where
  bytes : Nat → Bytes
  nonempty : ∀ seq, bytes seq ≠ []
  fits : ∀ seq, (bytes seq).length + gcmTagSize ≤ u32Max

inductive EncoderOp where
  | add (seq : Nat)
  | paths (count : Nat)

def emitted (payloads : Payloads) : FecEncoder → List EncoderOp → List (List Nat × Bytes)
  | _, [] => []
  | encoder, .paths count :: rest => emitted payloads (encoder.setPhysicalPathCount count) rest
  | encoder, .add seq :: rest =>
    match encoder.add seq (payloads.bytes seq) with
    | (next, some record) => (encoder.seqs ++ [seq], record) :: emitted payloads next rest
    | (next, none) => emitted payloads next rest

def EncoderOp.InRange : EncoderOp → Prop
  | .add seq => seq ≤ u32Max
  | .paths _ => True

/-- A parity some encoder of this size and cipher produced for the aligned group
at `start`, whatever else it was fed before and after. -/
def AlignedParity (k : Nat) (ic : Option InnerCipher) (payloads : Payloads) (start : Nat)
    (record : Bytes) : Prop :=
  start % k = 1 ∧ ∃ ops : List EncoderOp, (∀ op ∈ ops, op.InRange) ∧
    (List.range' start k, record) ∈ emitted payloads (FecEncoder.new k ic) ops

def tagged (payloads : Payloads) (seqs : List Nat) : Delivered :=
  seqs.map fun seq => (seq, payloads.bytes seq)

variable (payloads : Payloads) (seqs : List Nat)

theorem tagged_fst : (tagged payloads seqs).map Prod.fst = seqs := by
  simp [tagged, Function.comp_def]

theorem tagged_snd : (tagged payloads seqs).map Prod.snd = seqs.map payloads.bytes := by
  simp [tagged, Function.comp_def]

structure RecordOf (ic : Option InnerCipher) (payloads : Payloads) (seqs : List Nat)
    (record body : Bytes) : Prop where
  record : record = parityRecord ic (seqs.headD 0)
    (seqs.map fun seq => (payloads.bytes seq).length) body
  body : IsBody (seqs.map payloads.bytes) body
  inRange : ∀ seq ∈ seqs, seq ≤ u32Max

theorem emitted_recordOf (ops : List EncoderOp) (encoder : FecEncoder) (seqs : List Nat)
    (record : Bytes) (inRange : ∀ op ∈ ops, op.InRange) (members : List Nat)
    (holds : Holds encoder (tagged payloads members)) (old : ∀ seq ∈ members, seq ≤ u32Max)
    (member : (seqs, record) ∈ emitted payloads encoder ops) :
    ∃ body, RecordOf encoder.ic payloads seqs record body := by
  induction ops generalizing encoder members with
  | nil => cases member
  | cons op rest ih =>
    have tail : ∀ other ∈ rest, other.InRange :=
      fun other present => inRange other (List.mem_cons_of_mem op present)
    have here := inRange op List.mem_cons_self
    cases op with
    | paths count =>
      obtain ⟨kept, origin, keeps⟩ :=
        setPhysicalPathCount_holds encoder (tagged payloads members) count holds
      have cipher := (setPhysicalPathCount_fixed encoder count).2
      rw [← cipher]
      rcases origin with rfl | rfl
      · exact ih _ tail members keeps old member
      · exact ih _ tail [] keeps (by simp) member
    | add seq =>
      have joined : tagged payloads members ++ [(seq, payloads.bytes seq)] =
          tagged payloads (members ++ [seq]) := by
        simp [tagged]
      have grown : ∀ other ∈ members ++ [seq], other ≤ u32Max := by
        intro other present
        rcases List.mem_append.mp present with before | last
        · exact old other before
        · rw [List.mem_singleton.mp last]
          exact here
      have numbers : encoder.seqs = members := by
        rw [holds.seqs, tagged_fst]
      have call := add_added encoder (tagged payloads members) seq (payloads.bytes seq) holds
      simp only [emitted] at member
      generalize encoder.add seq (payloads.bytes seq) = result at call member
      cases call with
      | ignored _ => exact ih encoder tail members holds old member
      | taken after _ kept keeps _ =>
        rw [joined] at keeps
        rw [← kept.ic]
        exact ih after tail (members ++ [seq]) keeps grown member
      | closed after body _ kept keeps _ isBody =>
        rcases List.mem_cons.mp member with same | later
        · rw [joined, tagged_snd] at isBody
          obtain ⟨rfl, rfl⟩ := Prod.mk.inj same
          rw [numbers, joined]
          refine ⟨body, ?_, isBody, grown⟩
          rw [tagged_fst]
          simp [tagged, Function.comp_def]
        · rw [← kept.ic]
          exact ih after tail [] keeps (by simp) later

theorem AlignedParity.recordOf {k : Nat} {ic : Option InnerCipher} {payloads : Payloads}
    {start : Nat} {record : Bytes} (parity : AlignedParity k ic payloads start record) :
    ∃ body, RecordOf ic payloads (List.range' start k) record body := by
  obtain ⟨_, ops, inRange, member⟩ := parity
  exact emitted_recordOf payloads ops (FecEncoder.new k ic) _ record inRange [] (new_holds k ic)
    (by simp) member

end Stream

section Reading

variable (ic : Option InnerCipher) (start : Nat) (lens : List Nat) (body : Bytes) (index : Nat)

theorem sealBody_length (start : Nat) (nonempty : body ≠ []) :
    (sealBody ic body start).length = body.length + tagLen ic := by
  cases ic with
  | none => simp [sealBody, tagLen]
  | some cipher =>
    simp [sealBody, sealInPlace, nonempty, cipher.seal_length, tagLen]

theorem flatMap_be32_length : (lens.flatMap be32).length = 4 * lens.length := by
  induction lens with
  | nil => rfl
  | cons length rest ih =>
    rw [List.flatMap_cons, List.length_append, ih, be32_length, List.length_cons]
    omega

theorem parityRecord_length (nonempty : body ≠ []) :
    (parityRecord ic start lens body).length =
      6 + 4 * lens.length + (body.length + tagLen ic) := by
  simp only [parityRecord, List.length_append, List.length_cons, be32_length, List.length_nil,
    flatMap_be32_length, sealBody_length ic body start nonempty]

theorem parityRecord_start (bounded : start ≤ u32Max) :
    readBe32 ((parityRecord ic start lens body).drop 1) = start := by
  simp only [parityRecord, List.cons_append, List.drop_succ_cons, List.drop_zero,
    List.append_assoc]
  exact readBe32_be32 start bounded _

theorem parityRecord_size (small : lens.length ≤ 64) :
    (byteAt (parityRecord ic start lens body) 5).toNat = lens.length := by
  have byte : byteAt (parityRecord ic start lens body) 5 = UInt8.ofNat lens.length := rfl
  rw [byte, UInt8.toNat_ofNat']
  omega

theorem parityHeader_parityRecord (k start : Nat) (lens : List Nat) (body : Bytes)
    (nonempty : body ≠ []) (positive : 1 ≤ start) (bounded : start ≤ u32Max)
    (aligned : (start - 1) % k = 0) (size : lens.length = k) (small : k ≤ 64) :
    parityHeader k (parityRecord ic start lens body) = .ok start := by
  have total := parityRecord_length ic start lens body nonempty
  have some : 0 < body.length := List.length_pos_iff.mpr nonempty
  have long : ¬ (parityRecord ic start lens body).length < 7 := by omega
  have kind : byteAt (parityRecord ic start lens body) 0 = controlKindFecParity := rfl
  have number := parityRecord_start ic start lens body bounded
  have count := parityRecord_size ic start lens body (by omega)
  rw [size] at count
  simp only [parityHeader, number, count, aligned, kind]
  rw [if_neg (by simpa using long), if_neg (by simp; omega)]

theorem readLens_flatMap (payload tail : Bytes) (tag room index : Nat) (lens : List Nat)
    (rest : payload.drop (6 + 4 * index) = lens.flatMap be32 ++ tail)
    (bounded : ∀ length ∈ lens, length ≤ u32Max ∧ length + tag ≤ room) :
    readLens payload tag room lens.length index = .ok lens := by
  induction lens generalizing index with
  | nil => rfl
  | cons length lens ih =>
    obtain ⟨word, fits⟩ := bounded length List.mem_cons_self
    have first : readBe32 (payload.drop (6 + 4 * index)) = length := by
      rw [rest, List.flatMap_cons, List.append_assoc]
      exact readBe32_be32 length word _
    have next : payload.drop (6 + 4 * (index + 1)) = lens.flatMap be32 ++ tail := by
      rw [show 6 + 4 * (index + 1) = 6 + 4 * index + 4 by omega, ← List.drop_drop, rest]
      rfl
    have others := ih (index + 1) next
      (fun other member => bounded other (List.mem_cons_of_mem length member))
    simp only [List.length_cons, readLens, first, others]
    rw [if_neg (by omega)]

theorem drop_flatMap_be32 :
    (lens.flatMap be32).drop (4 * index) = (lens.drop index).flatMap be32 := by
  induction index generalizing lens with
  | zero => rfl
  | succ index ih =>
    cases lens with
    | nil => simp
    | cons length rest =>
      rw [List.drop_succ_cons, ← ih rest, Nat.mul_succ, Nat.add_comm, ← List.drop_drop]
      rfl

theorem parityRecord_member (words : ∀ length ∈ lens, length ≤ u32Max) (index : Nat)
    (inside : index < lens.length) :
    readBe32 ((parityRecord ic start lens body).drop (6 + 4 * index)) = lens[index] := by
  have descriptor : (parityRecord ic start lens body).drop 6 =
      lens.flatMap be32 ++ sealBody ic body start := rfl
  have covered : 4 * index ≤ (lens.flatMap be32).length := by
    rw [flatMap_be32_length]
    omega
  rw [← List.drop_drop, descriptor, List.drop_append_of_le_length covered, drop_flatMap_be32,
    List.drop_eq_getElem_cons inside, List.flatMap_cons, List.append_assoc]
  exact readBe32_be32 _ (words _ (List.getElem_mem inside)) _

theorem openBody_sealBody (start : Nat) (nonempty : body ≠ []) :
    openBody ic (sealBody ic body start) start body.length = .ok body := by
  cases ic with
  | none => simp [openBody, sealBody]
  | some cipher =>
    have length := sealBody_length (some cipher) body start nonempty
    have whole : (sealBody (some cipher) body start).take (body.length + gcmTagSize) =
        sealBody (some cipher) body start :=
      List.take_of_length_le (by rw [length]; simp [tagLen])
    have tag : tagLen (some cipher) = gcmTagSize := rfl
    have opened : openTo cipher body.length (sealBody (some cipher) body start) start
        (gcmAad (body.length + gcmTagSize) start) = some body := by
      unfold openTo
      rw [length, tag, if_neg (by omega), if_neg (by omega)]
      simp only [sealBody, sealInPlace, if_neg nonempty]
      exact cipher.open_seal _ _ _
    simp only [openBody, whole, opened]

theorem readParity_parityRecord (k start : Nat) (lens : List Nat) (body : Bytes)
    (nonempty : body ≠ []) (size : lens.length = k)
    (bounded : ∀ length ∈ lens, length ≤ u32Max ∧ length ≤ body.length)
    (longest : lens.foldl max 0 = body.length) :
    readParity ic k (parityRecord ic start lens body) start = .ok (lens, body) := by
  have total := parityRecord_length ic start lens body nonempty
  have descriptor : (parityRecord ic start lens body).drop (6 + 4 * 0) =
      lens.flatMap be32 ++ sealBody ic body start := rfl
  have tail : (parityRecord ic start lens body).drop (6 + 4 * k) = sealBody ic body start := by
    rw [show 6 + 4 * k = 6 + 4 * 0 + 4 * k by omega, ← List.drop_drop, descriptor, ← size,
      ← flatMap_be32_length, List.drop_left]
  have read := readLens_flatMap (parityRecord ic start lens body) (sealBody ic body start)
    (tagLen ic) ((parityRecord ic start lens body).length - (6 + 4 * k)) 0 lens descriptor
    (fun length member => ⟨(bounded length member).1, by
      have := (bounded length member).2
      omega⟩)
  rw [size] at read
  simp only [readParity, read, tail, longest, openBody_sealBody ic body start nonempty]
  rw [if_neg (by omega)]

theorem AlignedParity.reads {k : Nat} {ic : Option InnerCipher} {payloads : Payloads}
    {start : Nat} {record : Bytes} (parity : AlignedParity k ic payloads start record)
    (atLeast : 2 ≤ k) (atMost : k ≤ 64) :
    (1 ≤ start ∧ (start - 1) % k = 0 ∧ start + k ≤ u32Max + 1) ∧
      parityHeader k record = .ok start ∧
      ∃ body, readParity ic k record start =
        .ok ((List.range' start k).map fun seq => (payloads.bytes seq).length, body) ∧
        IsBody ((List.range' start k).map payloads.bytes) body := by
  obtain ⟨body, shape, isBody, inRange⟩ := parity.recordOf
  have residue := parity.1
  have positive : 1 ≤ start := by
    by_contra zero
    have : start = 0 := by omega
    simp [this] at residue
  have aligned : (start - 1) % k = 0 := by
    have split := Nat.div_add_mod start k
    rw [residue] at split
    rw [← split, Nat.add_sub_cancel, Nat.mul_mod_right]
  have last : start + k ≤ u32Max + 1 := by
    have := inRange (start + k - 1) (List.mem_range'_1.mpr (by omega))
    omega
  have head : (List.range' start k).headD 0 = start := by
    obtain ⟨count, rfl⟩ : ∃ count, k = count + 1 := ⟨k - 1, by omega⟩
    rw [List.range'_succ]
    rfl
  have mapped : ((List.range' start k).map payloads.bytes).map List.length =
      (List.range' start k).map fun seq => (payloads.bytes seq).length := by
    rw [List.map_map]
    rfl
  have longest : ((List.range' start k).map fun seq => (payloads.bytes seq).length).foldl max 0 =
      body.length := by
    rw [isBody.length, maxLen, mapped]
  have longer : ∀ seq ∈ List.range' start k, (payloads.bytes seq).length ≤ body.length := by
    intro seq member
    rw [isBody.length]
    exact le_maxLen _ _ (List.mem_map.mpr ⟨seq, member, rfl⟩)
  have nonempty : body ≠ [] := by
    have first := longer start (List.mem_range'_1.mpr (by omega))
    have some := List.length_pos_iff.mpr (payloads.nonempty start)
    exact List.length_pos_iff.mp (by omega)
  rw [head] at shape
  rw [shape]
  refine ⟨⟨positive, aligned, last⟩, ?_, body, ?_, isBody⟩
  · exact parityHeader_parityRecord ic k start _ body nonempty positive (by omega) aligned
      (by simp) atMost
  · apply readParity_parityRecord ic k start _ body nonempty (by simp) _ longest
    intro length member
    obtain ⟨seq, present, rfl⟩ := List.mem_map.mp member
    have fits := payloads.fits seq
    exact ⟨by omega, longer seq present⟩

end Reading

end TlsVpn.Fec

import TlsVpn.Framing

/-!
The receiving half of frame.rs. The scanner keeps a buffer with a consumed front,
which it moves out of the way in one of two modes, and asks the reader for more
bytes only when no complete frame is left in it. However the stream is split into
reads, what is unread in the buffer and what is still to come are together the
records that were not taken yet.
-/

namespace TlsVpn.Framing

open Words XorBytes Fec Delimited

section Scanner

def maxDataLength : Nat := 65535 * 2

def handshakeDataLength : Nat := 16 * 1024

structure Allocator where
  withCapacity : Nat → Nat
  withCapacity_least : ∀ wanted, wanted ≤ withCapacity wanted
  reserve : Nat → Nat → Nat → Nat
  reserve_least : ∀ capacity length additional,
    length + additional ≤ reserve capacity length additional

structure FrameScanner where
  buffer : Bytes
  capacity : Nat
  lazyCompact : Bool
  offset : Nat
  maxDataLen : Nat
  within : offset ≤ buffer.length
  fits : buffer.length ≤ capacity

def FrameScanner.new (allocator : Allocator) (lazyCompact : Bool) : FrameScanner where
  buffer := []
  capacity := allocator.withCapacity handshakeDataLength
  lazyCompact := lazyCompact
  offset := 0
  maxDataLen := maxDataLength
  within := Nat.le_refl 0
  fits := Nat.zero_le _

def FrameScanner.setMaxDataLen (scanner : FrameScanner) (limit : Nat) : FrameScanner :=
  { scanner with maxDataLen := limit }

def FrameScanner.unread (scanner : FrameScanner) : Bytes := scanner.buffer.drop scanner.offset

inductive ReadError where
  /-- `InvalidData`, "invalid frame data length". -/
  | invalidLength
  | transport (code : Nat)
  deriving DecidableEq

/-- The lazy mode leaves a consumed front alone until a read finds the buffer full. -/
def FrameScanner.postpones (scanner : FrameScanner) (beforeRead : Bool) : Bool :=
  scanner.lazyCompact && scanner.offset != scanner.buffer.length &&
    (!beforeRead || decide (scanner.buffer.length < scanner.capacity))

def FrameScanner.compacts (scanner : FrameScanner) : Bool :=
  decide (scanner.offset > 0) && (scanner.offset == scanner.buffer.length ||
    if scanner.lazyCompact then scanner.buffer.length == scanner.capacity
    else decide (scanner.offset > 16384))

def FrameScanner.compactConsumed (scanner : FrameScanner) (beforeRead : Bool) : FrameScanner :=
  if scanner.postpones beforeRead then scanner
  else if scanner.compacts then
    { scanner with
      buffer := scanner.unread
      offset := 0
      within := Nat.zero_le _
      fits := (List.drop_sublist _ _).length_le.trans scanner.fits }
  else scanner

def FrameScanner.advance (scanner : FrameScanner) (count : Nat)
    (there : count ≤ scanner.buffer.length - scanner.offset) : FrameScanner :=
  { scanner with
    offset := scanner.offset + count
    within := by have := scanner.within; omega }

def FrameScanner.takeBufferedFrame (scanner : FrameScanner) :
    Except ReadError (Option (Bytes × UInt32)) × FrameScanner :=
  let available := scanner.buffer.length - scanner.offset
  let header := scanner.buffer.drop scanner.offset
  let dataLen := readBe32 header
  let padLen := readBe16 (header.drop 4)
  let seq := UInt32.ofNat (readBe32 (header.drop 6))
  if available < headerSize then (.ok none, scanner)
  else if dataLen > scanner.maxDataLen then
    (.error .invalidLength,
      { scanner with buffer := [], offset := 0, within := Nat.le_refl 0, fits := Nat.zero_le _ })
  else if short : available < headerSize + (dataLen + padLen) then (.ok none, scanner)
  else
    let data := (scanner.buffer.drop (scanner.offset + headerSize)).take dataLen
    let advanced := scanner.advance (headerSize + (dataLen + padLen)) (Nat.not_lt.mp short)
    (.ok (some (data, seq)), advanced.compactConsumed false)

inductive Arrival where
  | bytes (chunk : Bytes)
  | wouldBlock
  | failed (code : Nat)
  deriving DecidableEq

/-- One `read` into a slice of this length. A chunk that is longer stays for the next. -/
def read (spare : Nat) : List Arrival → Arrival × List Arrival
  | [] => (.wouldBlock, [])
  | .bytes chunk :: rest =>
    if chunk.length ≤ spare then (.bytes chunk, rest)
    else (.bytes (chunk.take spare), .bytes (chunk.drop spare) :: rest)
  | .wouldBlock :: rest => (.wouldBlock, rest)
  | .failed code :: rest => (.failed code, rest)

def Arrival.content : Arrival → Bytes
  | .bytes chunk => chunk
  | .wouldBlock | .failed _ => []

def pendingBytes (arrivals : List Arrival) : Bytes := arrivals.flatMap Arrival.content

structure Follows (arrivals rest : List Arrival) : Prop where
  shorter : rest.length ≤ arrivals.length
  subset : ∀ code, .failed code ∈ rest → .failed code ∈ arrivals

theorem Follows.refl (arrivals : List Arrival) : Follows arrivals arrivals :=
  ⟨Nat.le_refl _, fun _ member => member⟩

theorem Follows.trans {arrivals middle rest : List Arrival} (first : Follows arrivals middle)
    (second : Follows middle rest) : Follows arrivals rest :=
  ⟨second.shorter.trans first.shorter, fun code member => first.subset code (second.subset code member)⟩

theorem Follows.tail (arrival : Arrival) (rest : List Arrival) : Follows (arrival :: rest) rest :=
  ⟨Nat.le_succ _, fun _ member => List.mem_cons_of_mem _ member⟩

structure ReadsInto (spare : Nat) (arrivals : List Arrival) (arrival : Arrival)
    (rest : List Arrival) : Prop where
  room : arrival.content.length ≤ spare
  order : pendingBytes arrivals = arrival.content ++ pendingBytes rest
  follows : Follows arrivals rest
  ends : arrival.content = [] → 0 < spare → arrivals ≠ [] → rest.length < arrivals.length
  failed : ∀ code, arrival = .failed code → .failed code ∈ arrivals

theorem read_reads (spare : Nat) (arrivals : List Arrival) :
    ReadsInto spare arrivals (read spare arrivals).1 (read spare arrivals).2 := by
  cases arrivals with
  | nil =>
    refine ⟨Nat.zero_le spare, rfl, .refl [], ?_, ?_⟩
    · exact fun _ _ nonempty => absurd rfl nonempty
    · rintro code ⟨⟩
  | cons arrival rest =>
    cases arrival with
    | bytes chunk =>
      simp only [read]
      split
      · rename_i short
        refine ⟨short, rfl, .tail _ rest, fun _ _ _ => Nat.lt_succ_self _, ?_⟩
        rintro code ⟨⟩
      · rename_i long
        refine ⟨List.length_take_le _ _, ?_, ⟨Nat.le_refl _, ?_⟩, ?_, ?_⟩
        · change chunk ++ pendingBytes rest =
            chunk.take spare ++ (chunk.drop spare ++ pendingBytes rest)
          rw [← List.append_assoc, List.take_append_drop]
        · intro code member
          rcases List.mem_cons.mp member with same | later
          · cases same
          · exact List.mem_cons_of_mem _ later
        · intro nothing positive _
          have length := congrArg List.length nothing
          simp only [Arrival.content, List.length_take, List.length_nil] at length
          omega
        · rintro code ⟨⟩
    | wouldBlock =>
      refine ⟨Nat.zero_le spare, rfl, .tail _ rest, fun _ _ _ => Nat.lt_succ_self _, ?_⟩
      rintro code ⟨⟩
    | failed code =>
      refine ⟨Nat.zero_le spare, rfl, .tail _ rest, fun _ _ _ => Nat.lt_succ_self _, ?_⟩
      rintro other ⟨⟩
      exact List.mem_cons_self

def FrameScanner.spare (scanner : FrameScanner) : Nat :=
  min (scanner.capacity - scanner.buffer.length) 16384

def FrameScanner.makeRoom (allocator : Allocator) (scanner : FrameScanner) : FrameScanner :=
  let compacted := scanner.compactConsumed true
  if compacted.buffer.length = compacted.capacity then
    { compacted with
      capacity := allocator.reserve compacted.capacity compacted.buffer.length 16384
      fits := (Nat.le_add_right _ _).trans (allocator.reserve_least _ _ _) }
  else compacted

/-- `set_len` after a read into the spare capacity. -/
def FrameScanner.filled (scanner : FrameScanner) (piece : Bytes)
    (room : piece.length ≤ scanner.spare) : FrameScanner :=
  { scanner with
    buffer := scanner.buffer ++ piece
    within := by
      rw [List.length_append]
      exact scanner.within.trans (Nat.le_add_right _ _)
    fits := by
      have := scanner.fits
      unfold FrameScanner.spare at room
      rw [List.length_append]
      omega }

/-- `read_frame` with a log of its reads: the scanner whose spare room the reader is offered, and
the scanner after the read, if it brought bytes. -/
def FrameScanner.readLogged (allocator : Allocator) (scanner : FrameScanner)
    (arrivals : List Arrival) : List (FrameScanner × Option FrameScanner) ×
      Except ReadError (Option (Bytes × UInt32)) × FrameScanner × List Arrival :=
  match scanner.takeBufferedFrame with
  | (.error error, taken) => ([], .error error, taken, arrivals)
  | (.ok (some frame), taken) => ([], .ok (some frame), taken, arrivals)
  | (.ok none, taken) =>
    let ready := taken.makeRoom allocator
    match arrived : read ready.spare arrivals with
    | (.wouldBlock, rest) => ([(ready, none)], .ok none, ready, rest)
    | (.failed code, rest) => ([(ready, none)], .error (.transport code), ready, rest)
    | (.bytes piece, rest) =>
      if empty : piece = [] then ([(ready, none)], .ok none, ready, rest)
      else
        have reads := read_reads ready.spare arrivals
        let after := ready.filled piece (by rw [arrived] at reads; exact reads.room)
        let later := after.readLogged allocator rest
        ((ready, some after) :: later.1, later.2)
termination_by (pendingBytes arrivals).length
decreasing_by
  have order := reads.order
  rw [arrived] at order
  rw [order, List.length_append]
  exact Nat.lt_add_of_pos_left (List.length_pos_iff.mpr empty)

def FrameScanner.readFrame (allocator : Allocator) (scanner : FrameScanner)
    (arrivals : List Arrival) :
    Except ReadError (Option (Bytes × UInt32)) × FrameScanner × List Arrival :=
  (scanner.readLogged allocator arrivals).2

end Scanner

section Decoding

def decodeRecord (limit : Nat) (bytes : Bytes) : Verdict UInt8 (Bytes × UInt32) :=
  let dataLen := readBe32 bytes
  let padLen := readBe16 (bytes.drop 4)
  if bytes.length < headerSize then .more
  else if dataLen > limit then .bad
  else if bytes.length < headerSize + (dataLen + padLen) then .more
  else
    .item ((bytes.drop headerSize).take dataLen, UInt32.ofNat (readBe32 (bytes.drop 6)))
      (bytes.drop (headerSize + (dataLen + padLen)))

abbrev Within (limit : Nat) := { record : Record // record.body.length ≤ limit }

variable (record : Record)

theorem encode_length :
    record.encode.length = headerSize + (record.body.length + record.pad.length) := by
  simp only [Record.encode, List.length_append, be32_length, be16_length, headerSize]
  omega

def Record.header (record : Record) : Bytes :=
  be32 record.body.length ++ (be16 record.pad.length ++ be32 record.seq.toNat)

theorem encode_header : record.encode = record.header ++ (record.body ++ record.pad) := rfl

theorem header_reads (word : record.body.length ≤ u32Max) (rest : Bytes) :
    readBe32 (record.header ++ rest) = record.body.length ∧
      readBe16 ((record.header ++ rest).drop 4) = record.pad.length ∧
      UInt32.ofNat (readBe32 ((record.header ++ rest).drop 6)) = record.seq ∧
      (record.header ++ rest).drop headerSize = rest := by
  refine ⟨?_, ?_, ?_, rfl⟩
  · exact readBe32_be32 record.body.length word _
  · exact readBe16_be16 record.pad.length record.padWord _
  · have bounded : record.seq.toNat ≤ u32Max := Nat.le_of_lt_succ record.seq.toNat_lt
    exact (congrArg UInt32.ofNat (readBe32_be32 record.seq.toNat bounded rest)).trans
      UInt32.ofNat_toNat

section

variable {limit : Nat} (record : Record) (small : record.body.length ≤ limit)
  (word : limit ≤ u32Max)

include small word

variable (rest : Bytes)

theorem decode_record : decodeRecord limit (record.encode ++ rest) = .item record.value rest := by
  have length : (record.encode ++ rest).length =
      headerSize + (record.body.length + record.pad.length) + rest.length := by
    rw [List.length_append, encode_length]
  have whole : (record.encode ++ rest).drop (headerSize + (record.body.length + record.pad.length)) =
      rest := by
    rw [← encode_length]
    exact List.drop_left
  rw [encode_header, List.append_assoc, List.append_assoc] at *
  obtain ⟨dataLen, padLen, seq, body⟩ :=
    header_reads record (small.trans word) (record.body ++ (record.pad ++ rest))
  unfold decodeRecord
  simp only [dataLen, padLen, seq, body, whole, List.take_left]
  rw [if_neg (by omega), if_neg (by omega), if_neg (by omega)]
  rfl

theorem decode_part (part rest : Bytes) (missing : rest ≠ []) (split : record.encode = part ++ rest) :
    decodeRecord limit part = .more := by
  have length := congrArg List.length split
  have positive := List.length_pos_iff.mpr missing
  rw [encode_length, List.length_append] at length
  unfold decodeRecord
  dsimp only
  by_cases short : part.length < headerSize
  · rw [if_pos short]
  · -- the header is there as a whole, so its fields read the same in the part
    have header : record.header <+: part :=
      List.prefix_of_prefix_length_le ⟨_, (encode_header record).symm⟩ ⟨rest, split.symm⟩
        (Nat.not_lt.mp short)
    obtain ⟨tail, rfl⟩ := header
    obtain ⟨dataLen, padLen, -, -⟩ := header_reads record (small.trans word) tail
    rw [dataLen, padLen, if_neg short, if_neg (by omega), if_pos (by omega)]

end

theorem decode_large {limit : Nat} (large : limit < record.body.length)
    (word : record.body.length ≤ u32Max) (tail : Bytes) :
    decodeRecord limit (record.header ++ tail) = .bad := by
  obtain ⟨dataLen, -, -, -⟩ := header_reads record word tail
  have length : (record.header ++ tail).length = headerSize + tail.length := by
    rw [List.length_append]
    rfl
  unfold decodeRecord
  dsimp only
  rw [dataLen, if_neg (by omega), if_pos large]

def recordFormat (limit : Nat) (word : limit ≤ u32Max) :
    Format UInt8 (Within limit) (Bytes × UInt32) where
  encode record := record.1.encode
  value record := record.1.value
  decode := decodeRecord limit
  decode_nil := rfl
  decode_encode record rest := decode_record record.1 record.2 word rest
  decode_part record part rest := decode_part record.1 record.2 word part rest

end Decoding

section Refinement

variable {scanner : FrameScanner}

structure SameUnread (scanner after : FrameScanner) : Prop where
  unread : after.unread = scanner.unread
  limit : after.maxDataLen = scanner.maxDataLen

variable {limit : Nat} {arrivals rest : List Arrival}
  {format : Format UInt8 (Within limit) (Bytes × UInt32)} (allocator : Allocator)

theorem compactConsumed_same (scanner : FrameScanner) (beforeRead : Bool) :
    SameUnread scanner (scanner.compactConsumed beforeRead) := by
  unfold FrameScanner.compactConsumed
  split
  · exact ⟨rfl, rfl⟩
  · split
    · exact ⟨rfl, rfl⟩
    · exact ⟨rfl, rfl⟩

theorem advance_maxDataLen (scanner : FrameScanner) (count : Nat)
    (there : count ≤ scanner.buffer.length - scanner.offset) :
    (scanner.advance count there).maxDataLen = scanner.maxDataLen := rfl

theorem advance_unread (scanner : FrameScanner) (count : Nat)
    (there : count ≤ scanner.buffer.length - scanner.offset) :
    (scanner.advance count there).unread = (scanner.buffer.drop scanner.offset).drop count :=
  List.drop_drop.symm

inductive Taken (scanner : FrameScanner) : Verdict UInt8 (Bytes × UInt32) →
    Except ReadError (Option (Bytes × UInt32)) × FrameScanner → Prop
  | waits : Taken scanner .more (.ok none, scanner)
  | takes (value : Bytes × UInt32) (rest : Bytes) (after : FrameScanner)
      (remains : after.unread = rest) (limit : after.maxDataLen = scanner.maxDataLen) :
      Taken scanner (.item value rest) (.ok (some value), after)
  | refuses (after : FrameScanner) : Taken scanner .bad (.error .invalidLength, after)

theorem takeBufferedFrame_taken (scanner : FrameScanner) :
    Taken scanner (decodeRecord scanner.maxDataLen scanner.unread) scanner.takeBufferedFrame := by
  unfold decodeRecord FrameScanner.takeBufferedFrame FrameScanner.unread
  rw [List.length_drop]
  dsimp only
  split
  · exact .waits
  · split
    · exact .refuses _
    · split
      · exact .waits
      · rename_i whole
        have same := compactConsumed_same (scanner.advance _ (Nat.not_lt.mp whole)) false
        rw [← List.drop_drop (l := scanner.buffer) (i := headerSize)]
        exact .takes _ _ _ (same.unread.trans (advance_unread scanner _ _))
          (same.limit.trans (advance_maxDataLen scanner _ _))

theorem makeRoom_same (scanner : FrameScanner) :
    SameUnread scanner (scanner.makeRoom allocator) := by
  have same := compactConsumed_same scanner true
  unfold FrameScanner.makeRoom
  dsimp only
  split
  · exact ⟨same.unread, same.limit⟩
  · exact same

theorem makeRoom_spare : 0 < (scanner.makeRoom allocator).spare := by
  have enough := allocator.reserve_least (scanner.compactConsumed true).capacity
    (scanner.compactConsumed true).buffer.length 16384
  have fits := (scanner.compactConsumed true).fits
  unfold FrameScanner.makeRoom FrameScanner.spare
  dsimp only
  split
  · dsimp only
    omega
  · omega

theorem filled_unread (scanner : FrameScanner) (piece : Bytes) (room : piece.length ≤ scanner.spare) :
    (scanner.filled piece room).unread = scanner.unread ++ piece :=
  List.drop_append_of_le_length scanner.within

inductive Front (format : Format UInt8 (Within limit) (Bytes × UInt32)) (pending : Bytes)
    (scanner : FrameScanner) : List (Within limit) →
    Except ReadError (Option (Bytes × UInt32)) × FrameScanner → Prop
  | taken (item : Within limit) (items : List (Within limit)) (after : FrameScanner)
      (left : after.maxDataLen = limit)
      (place : after.unread ++ pending = stream format.encode items) :
      Front format pending scanner (item :: items) (.ok (some (format.value item)), after)
  | waiting (items : List (Within limit)) (incomplete : pending = [] → items = []) :
      Front format pending scanner items (.ok none, scanner)

theorem takeBufferedFrame_front (word : limit ≤ u32Max) (scanner : FrameScanner) (pending : Bytes)
    (items : List (Within limit)) (same : scanner.maxDataLen = limit)
    (place : scanner.unread ++ pending = stream (recordFormat limit word).encode items) :
    Front (recordFormat limit word) pending scanner items scanner.takeBufferedFrame := by
  have taken := takeBufferedFrame_taken scanner
  rw [same] at taken
  cases (recordFormat limit word).place items place with
  | complete item rest items reads remains =>
    have verdict : decodeRecord limit scanner.unread = .item _ rest := reads
    rw [verdict] at taken
    generalize scanner.takeBufferedFrame = answer at taken
    cases taken with
    | takes value rest after left limit =>
      exact .taken item items after (limit.trans same) (left ▸ remains)
  | waiting items reads incomplete =>
    have verdict : decodeRecord limit scanner.unread = .more := reads
    rw [verdict] at taken
    generalize scanner.takeBufferedFrame = answer at taken
    cases taken with
    | waits => exact .waiting items incomplete

inductive Ended (format : Format UInt8 (Within limit) (Bytes × UInt32))
    (arrivals : List Arrival) : List (Within limit) →
    Except ReadError (Option (Bytes × UInt32)) × FrameScanner × List Arrival → Prop
  | taken (item : Within limit) (items : List (Within limit)) (after : FrameScanner)
      (rest : List Arrival) (left : after.maxDataLen = limit)
      (place : after.unread ++ pendingBytes rest = stream format.encode items)
      (follows : Follows arrivals rest) :
      Ended format arrivals (item :: items) (.ok (some (format.value item)), after, rest)
  | waiting (items : List (Within limit)) (after : FrameScanner) (rest : List Arrival)
      (left : after.maxDataLen = limit)
      (place : after.unread ++ pendingBytes rest = stream format.encode items)
      (follows : Follows arrivals rest) (progress : items = [] ∨ rest.length < arrivals.length) :
      Ended format arrivals items (.ok none, after, rest)

theorem Ended.later {items : List (Within limit)}
    {answer : Except ReadError (Option (Bytes × UInt32)) × FrameScanner × List Arrival}
    (ended : Ended format rest items answer) (follows : Follows arrivals rest) :
    Ended format arrivals items answer := by
  cases ended with
  | taken item items after final left place further =>
    exact .taken item items after final left place (follows.trans further)
  | waiting items after final left place further progress =>
    refine .waiting items after final left place (follows.trans further) ?_
    exact progress.imp_right fun less => less.trans_le follows.shorter

theorem ended_blocked {items : List (Within limit)} {arrival : Arrival}
    (same : scanner.maxDataLen = limit)
    (place : scanner.unread ++ pendingBytes arrivals = stream format.encode items)
    (incomplete : pendingBytes arrivals = [] → items = [])
    (reads : ReadsInto (scanner.makeRoom allocator).spare arrivals arrival rest)
    (nothing : arrival.content = []) :
    Ended format arrivals items (.ok none, scanner.makeRoom allocator, rest) := by
  have room := makeRoom_same allocator scanner
  have order := reads.order
  rw [nothing, List.nil_append] at order
  apply Ended.waiting
  · exact room.limit.trans same
  · rw [room.unread, ← order]
    exact place
  · exact reads.follows
  · by_cases none : arrivals = []
    · rw [none] at incomplete
      exact Or.inl (incomplete rfl)
    · exact Or.inr (reads.ends nothing (makeRoom_spare allocator) none)

theorem readFrame_ended (word : limit ≤ u32Max) (scanner : FrameScanner) (arrivals : List Arrival)
    (items : List (Within limit)) (sound : ∀ code, .failed code ∉ arrivals)
    (same : scanner.maxDataLen = limit) (place : scanner.unread ++ pendingBytes arrivals = stream
      (recordFormat limit word).encode items) :
    Ended (recordFormat limit word) arrivals items (scanner.readFrame allocator arrivals) := by
  unfold FrameScanner.readFrame
  -- the bytes still to be read get fewer with every turn of the loop
  fun_induction FrameScanner.readLogged allocator scanner arrivals with
  | case1 scanner arrivals error after took =>
    have front := takeBufferedFrame_front word scanner _ items same place
    rw [took] at front
    cases front
  | case2 scanner arrivals frame after took =>
    have front := takeBufferedFrame_front word scanner _ items same place
    rw [took] at front
    cases front with
    | taken item items after left place =>
      exact .taken item items after arrivals left place (.refl arrivals)
  | case3 scanner arrivals after took ready rest arrived =>
    have front := takeBufferedFrame_front word scanner _ items same place
    have reads := read_reads ready.spare arrivals
    rw [took] at front
    rw [arrived] at reads
    cases front with
    | waiting items incomplete =>
      exact ended_blocked allocator same place incomplete reads rfl
  | case4 scanner arrivals after took ready code rest arrived =>
    have reads := read_reads ready.spare arrivals
    rw [arrived] at reads
    exact absurd (reads.failed code rfl) (sound code)
  | case5 scanner arrivals after took ready rest arrived =>
    have front := takeBufferedFrame_front word scanner _ items same place
    have reads := read_reads ready.spare arrivals
    rw [took] at front
    rw [arrived] at reads
    cases front with
    | waiting items incomplete =>
      exact ended_blocked allocator same place incomplete reads rfl
  | case6 scanner arrivals after took ready piece rest arrived filled reads _ _ ih =>
    have front := takeBufferedFrame_front word scanner _ items same place
    rw [took] at front
    rw [arrived] at reads
    cases front with
    | waiting items incomplete =>
      have room := makeRoom_same allocator scanner
      apply Ended.later _ reads.follows
      apply ih
      · exact fun code member => sound code (reads.follows.subset code member)
      · exact room.limit.trans same
      · have grown := congrArg (· ++ pendingBytes rest) (filled_unread ready piece reads.room)
        have order : ready.unread ++ piece ++ pendingBytes rest =
            scanner.unread ++ pendingBytes arrivals := by
          rw [List.append_assoc, reads.order]
          exact congrArg (· ++ (piece ++ pendingBytes rest)) room.unread
        exact grown.trans (order.trans place)

end Refinement

section Receiver

def openInPlace (cipher : InnerCipher) (data : Bytes) (seq wireLen : Nat) : Option Bytes :=
  if data = [] then some data
  else if data.length < gcmTagSize then none
  else cipher.aeadOpen seq (gcmAad wireLen seq) data

def openFrame (ic : Option InnerCipher) (data : Bytes) (seq : UInt32) : Option Frame :=
  match ic with
  | some cipher =>
    if seq ≠ 0 then (openInPlace cipher data seq.toNat data.length).map (Frame.mk seq)
    else some ⟨seq, data⟩
  | none => some ⟨seq, data⟩

variable (allocator : Allocator) (bytes : Bytes)

theorem openFrame_wirePayload (ic : Option InnerCipher) (frame : Frame) (filled : frame.data ≠ []) :
    openFrame ic (wirePayload ic frame) frame.seq = some frame := by
  have length := wirePayload_length ic frame
  have positive := List.length_pos_iff.mpr filled
  cases ic with
  | none => rfl
  | some cipher =>
    by_cases control : frame.seq = 0
    · simp only [openFrame, wirePayload, control, ne_eq, not_true_eq_false, and_false, if_false]
      rw [← control]
    · have tag := encTag_sealed cipher control filled
      have sealed : wirePayload (some cipher) frame = cipher.aeadSeal frame.seq.toNat
          (gcmAad (frame.data.length + gcmTagSize) frame.seq.toNat) frame.data := by
        simp only [wirePayload, tag, sealInPlace, if_pos (And.intro positive control),
          if_neg filled]
      rw [tag] at length
      have opened : openInPlace cipher (wirePayload (some cipher) frame) frame.seq.toNat
          (wirePayload (some cipher) frame).length = some frame.data := by
        unfold openInPlace
        rw [if_neg (List.ne_nil_of_length_pos (by omega)), if_neg (by omega), length, sealed]
        exact cipher.open_seal _ _ _
      simp only [openFrame, if_pos (show frame.seq ≠ 0 from control), opened, Option.map_some]

/-- A connection's read loop: the scanner, what the reader will find, the frames
that were handed on, and the error that closed the connection. -/
structure Receiver where
  scanner : FrameScanner
  arrivals : List Arrival
  received : List Frame
  closed : Option ReadError

def Receiver.start (allocator : Allocator) (lazyCompact : Bool) (limit : Nat)
    (arrivals : List Arrival) : Receiver where
  scanner := (FrameScanner.new allocator lazyCompact).setMaxDataLen limit
  arrivals := arrivals
  received := []
  closed := none

/-- One call of `read_frame` and what the loop does with its answer. Empty frames
are keep-alives. -/
def Receiver.call (allocator : Allocator) (ic : Option InnerCipher) (receiver : Receiver) :
    Receiver :=
  match receiver.closed with
  | some _ => receiver
  | none =>
    match receiver.scanner.readFrame allocator receiver.arrivals with
    | (.error error, scanner, arrivals) => ⟨scanner, arrivals, receiver.received, some error⟩
    | (.ok none, scanner, arrivals) => ⟨scanner, arrivals, receiver.received, none⟩
    | (.ok (some (raw, seq)), scanner, arrivals) =>
      let frames := if raw = [] then [] else (openFrame ic raw seq).toList
      ⟨scanner, arrivals, receiver.received ++ frames, none⟩

structure Underway {limit : Nat} (word : limit ≤ u32Max) (ic : Option InnerCipher)
    (frames : List Frame) (receiver : Receiver) (left : List Frame)
    (items : List (Within limit)) : Prop where
  running : receiver.closed = none
  sound : ∀ code, .failed code ∉ receiver.arrivals
  limited : receiver.scanner.maxDataLen = limit
  place : receiver.scanner.unread ++ pendingBytes receiver.arrivals =
    stream (recordFormat limit word).encode items
  carried : items.map (recordFormat limit word).value = left.map (Frame.onWire ic)
  filled : ∀ frame ∈ left, frame.data ≠ []
  whole : receiver.received ++ left = frames

variable {limit : Nat} {word : limit ≤ u32Max} {ic : Option InnerCipher} {frames left : List Frame}
  {receiver : Receiver} {items : List (Within limit)}

theorem call_underway (underway : Underway word ic frames receiver left items) :
    ∃ later rest, Underway word ic frames (receiver.call allocator ic) later rest ∧
      (left = [] → later = []) ∧
      (left ≠ [] → later.length + (receiver.call allocator ic).arrivals.length <
        left.length + receiver.arrivals.length) := by
  have ended := readFrame_ended allocator word receiver.scanner receiver.arrivals items
    underway.sound underway.limited underway.place
  unfold Receiver.call
  rw [underway.running]
  dsimp only
  generalize receiver.scanner.readFrame allocator receiver.arrivals = answer at ended
  cases ended with
  | taken item items after rest limited place follows =>
    have carried := underway.carried
    cases left with
    | nil => cases carried
    | cons frame left =>
      obtain ⟨first, others⟩ := List.cons.inj carried
      have filled := underway.filled frame List.mem_cons_self
      have body : wirePayload ic frame ≠ [] := by
        apply List.ne_nil_of_length_pos
        rw [wirePayload_length]
        exact Nat.add_pos_left (List.length_pos_iff.mpr filled) _
      rw [first]
      dsimp only [Frame.onWire]
      rw [if_neg body, openFrame_wirePayload ic frame filled]
      refine ⟨left, items, ⟨rfl, ?_, limited, place, others, ?_, ?_⟩,
        fun none => absurd none (List.cons_ne_nil _ _), fun _ => ?_⟩
      · exact fun code member => underway.sound code (follows.subset code member)
      · exact fun other member => underway.filled other (List.mem_cons_of_mem _ member)
      · rw [← underway.whole, List.append_assoc]
        rfl
      · have shorter := follows.shorter
        rw [List.length_cons]
        omega
  | waiting items after rest limited place follows progress =>
    refine ⟨left, items, ⟨rfl, ?_, limited, place, underway.carried, underway.filled,
      underway.whole⟩, id, ?_⟩
    · exact fun code member => underway.sound code (follows.subset code member)
    · intro some
      rcases progress with rfl | less
      · exact absurd (List.map_eq_nil_iff.mp underway.carried.symm) some
      · exact Nat.add_lt_add_left less _

theorem calls_underway (calls : Nat) (underway : Underway word ic frames receiver left items) :
    ∃ later rest, Underway word ic frames ((Receiver.call allocator ic)^[calls] receiver) later rest ∧
      (left = [] → later = []) ∧
      (later = [] ∨ calls + later.length ≤ left.length + receiver.arrivals.length) := by
  induction calls generalizing receiver left items with
  | zero => exact ⟨left, items, underway, id, Or.inr (by omega)⟩
  | succ calls ih =>
    obtain ⟨next, records, after, done, less⟩ := call_underway allocator underway
    obtain ⟨later, rest, final, stays, bound⟩ := ih after
    refine ⟨later, rest, final, fun none => stays (done none), ?_⟩
    by_cases none : left = []
    · exact Or.inl (stays (done none))
    · have progress := less none
      exact bound.imp_right fun most => by omega

/-- The frames of every batch come out as they went in, in order, whatever the
padding, the record limits and the way the stream is split into reads, as long as
the payload and its tag together are within the receiver's limit: no call fails,
what is received is always a front of what was sent, and after one call for each
frame and each arrival it is all of it. -/
theorem frame_stream_round_trip (cache : PaddingCache) (allocator : Allocator)
    (ic : Option InnerCipher) (ops : List Op) (lazyCompact : Bool) (limit : Nat)
    (arrivals : List Arrival) (word : limit ≤ u32Max)
    (filled : ∀ frame ∈ sentFrames ops, frame.data ≠ [])
    (small : ∀ frame ∈ sentFrames ops, frame.data.length + encTag ic frame ≤ limit)
    (sound : ∀ code, .failed code ∉ arrivals)
    (split : pendingBytes arrivals = sentStream cache ic ops) (calls : Nat) :
    ((Receiver.call allocator ic)^[calls]
        (Receiver.start allocator lazyCompact limit arrivals)).closed = none ∧
      ((Receiver.call allocator ic)^[calls]
        (Receiver.start allocator lazyCompact limit arrivals)).received <+: sentFrames ops ∧
      ((sentFrames ops).length + arrivals.length ≤ calls →
        ((Receiver.call allocator ic)^[calls]
          (Receiver.start allocator lazyCompact limit arrivals)).received = sentFrames ops) := by
  obtain ⟨records, encoded, carried⟩ := sentStream_records cache ic ops
  have within : ∀ record ∈ records, record.body.length ≤ limit := by
    intro record member
    have value : record.value ∈ (sentFrames ops).map (Frame.onWire ic) :=
      carried ▸ List.mem_map_of_mem member
    obtain ⟨frame, sent, same⟩ := List.mem_map.mp value
    have body : wirePayload ic frame = record.body := congrArg Prod.fst same
    rw [← body, wirePayload_length]
    exact small frame sent
  obtain ⟨items, rfl⟩ : ∃ items : List (Within limit), items.map Subtype.val = records :=
    ⟨records.attachWith _ within, List.attachWith_map_subtype_val within⟩
  have underway : Underway word ic (sentFrames ops)
      (Receiver.start allocator lazyCompact limit arrivals) (sentFrames ops) items := by
    refine ⟨rfl, sound, rfl, ?_, ?_, filled, rfl⟩
    · exact split.trans (encoded.trans (List.flatMap_map _ _ _))
    · rw [← carried, List.map_map]
      rfl
  obtain ⟨later, rest, after, -, bound⟩ := calls_underway allocator calls underway
  refine ⟨after.running, ⟨later, after.whole⟩, ?_⟩
  intro enough
  have none : later = [] := by
    rcases bound with none | most
    · exact none
    · apply List.eq_nil_of_length_eq_zero
      have start : (Receiver.start allocator lazyCompact limit arrivals).arrivals = arrivals := rfl
      rw [start] at most
      omega
  have whole := after.whole
  rw [none, List.append_nil] at whole
  exact whole

def sampleCache : PaddingCache := ⟨List.replicate 1048576 0, List.length_replicate⟩

def exactAllocator : Allocator where
  withCapacity wanted := wanted
  withCapacity_least := Nat.le_refl
  reserve _ length additional := length + additional
  reserve_least _ _ _ := Nat.le_refl _

def bucketAmbient : Ambient := ⟨.bucket, 3, 5⟩

def sampleOps : List Op :=
  [.append (.padded 0) bucketAmbient ⟨0, [1, 2]⟩, .flush,
    .append .unpadded bucketAmbient ⟨7, [3]⟩,
    .append (.padded 300) bucketAmbient ⟨8, [4, 5]⟩, .padTail bucketAmbient 1408, .flush]

def bytewise (bytes : Bytes) : List Arrival :=
  .wouldBlock :: bytes.map fun byte => .bytes [byte]

theorem bytewise_pending : pendingBytes (bytewise bytes) = bytes := by
  change (bytes.map fun byte => Arrival.bytes [byte]).flatMap Arrival.content = bytes
  rw [List.flatMap_map]
  exact List.flatMap_singleton' bytes

theorem bytewise_sound (code : Nat) : .failed code ∉ bytewise bytes := by
  intro member
  rcases List.mem_cons.mp member with same | later
  · cases same
  · obtain ⟨byte, -, same⟩ := List.mem_map.mp later
    cases same

/-- Three frames through a reader of single bytes. -/
theorem frame_stream_round_trip_bytewise :
    sentFrames sampleOps = [⟨0, [1, 2]⟩, ⟨7, [3]⟩, ⟨8, [4, 5]⟩] ∧
    ∀ calls, (sentFrames sampleOps).length +
        (bytewise (sentStream sampleCache (some zeroTagCipher) sampleOps)).length ≤ calls →
      ((Receiver.call exactAllocator (some zeroTagCipher))^[calls]
        (Receiver.start exactAllocator true maxDataLength
          (bytewise (sentStream sampleCache (some zeroTagCipher) sampleOps)))).received =
        sentFrames sampleOps := by
  refine ⟨rfl, ?_⟩
  intro calls
  have trip := frame_stream_round_trip sampleCache exactAllocator (some zeroTagCipher) sampleOps
    true maxDataLength (bytewise (sentStream sampleCache (some zeroTagCipher) sampleOps))
    (by decide) (by decide) (by decide) (bytewise_sound _) (bytewise_pending _) calls
  exact trip.2.2

end Receiver

section Oversized

variable {limit : Nat} {record : Record} {tail : Bytes} {scanner : FrameScanner}

structure Barred (limit : Nat) (record : Record) (tail : Bytes) (scanner : FrameScanner)
    (arrivals : List Arrival) : Prop where
  limited : scanner.maxDataLen = limit
  place : scanner.unread ++ pendingBytes arrivals = record.encode ++ tail

variable (allocator : Allocator)

theorem Barred.untaken {arrivals : List Arrival} (barred : Barred limit record tail scanner arrivals)
    (large : limit < record.body.length) (word : record.body.length ≤ u32Max)
    (frame : Bytes × UInt32) (after : FrameScanner) :
    scanner.takeBufferedFrame ≠ (.ok (some frame), after) := by
  intro took
  have taken := takeBufferedFrame_taken scanner
  rw [took, barred.limited] at taken
  have verdict : decodeRecord limit scanner.unread = .more ∨
      decodeRecord limit scanner.unread = .bad := by
    by_cases short : scanner.unread.length < headerSize
    · exact Or.inl (if_pos short)
    · have header : record.header <+: scanner.unread := by
        have front : record.header <+: record.encode ++ tail := by
          rw [encode_header, List.append_assoc]
          exact List.prefix_append _ _
        exact List.prefix_of_prefix_length_le front ⟨_, barred.place⟩ (Nat.not_lt.mp short)
      obtain ⟨rest, whole⟩ := header
      rw [← whole]
      exact Or.inr (decode_large record large word rest)
  rcases verdict with more | bad
  · rw [more] at taken
    cases taken
  · rw [bad] at taken
    cases taken

theorem takeBufferedFrame_waits {after : FrameScanner}
    (took : scanner.takeBufferedFrame = (.ok none, after)) : after = scanner := by
  have taken := takeBufferedFrame_taken scanner
  rw [took] at taken
  generalize decodeRecord scanner.maxDataLen scanner.unread = verdict at taken
  cases taken
  rfl

section

variable {arrivals rest : List Arrival} {arrival : Arrival} (allocator : Allocator)
  (barred : Barred limit record tail scanner arrivals)
  (met : ReadsInto (scanner.makeRoom allocator).spare arrivals arrival rest)

include barred met

theorem Barred.reads :
    (scanner.makeRoom allocator).unread ++ arrival.content ++ pendingBytes rest =
      record.encode ++ tail := by
  rw [(makeRoom_same allocator scanner).unread, List.append_assoc, ← met.order]
  exact barred.place

theorem Barred.blocked (nothing : arrival.content = []) :
    Barred limit record tail (scanner.makeRoom allocator) rest := by
  have place := barred.reads allocator met
  rw [nothing, List.append_nil] at place
  exact ⟨(makeRoom_same allocator scanner).limit.trans barred.limited, place⟩

end

theorem readFrame_barred (large : limit < record.body.length) (word : record.body.length ≤ u32Max)
    (scanner : FrameScanner) (arrivals : List Arrival)
    (barred : Barred limit record tail scanner arrivals) :
    (∃ error after rest, scanner.readFrame allocator arrivals = (.error error, after, rest)) ∨
      ∃ after rest, scanner.readFrame allocator arrivals = (.ok none, after, rest) ∧
        Barred limit record tail after rest := by
  unfold FrameScanner.readFrame
  fun_induction FrameScanner.readLogged allocator scanner arrivals with
  | case1 scanner arrivals error after took => exact Or.inl ⟨error, after, arrivals, rfl⟩
  | case2 scanner arrivals frame after took =>
    exact absurd took (barred.untaken large word frame after)
  | case3 scanner arrivals after took ready rest arrived =>
    obtain rfl := takeBufferedFrame_waits took
    have reads := read_reads ready.spare arrivals
    rw [arrived] at reads
    exact Or.inr ⟨ready, rest, rfl, barred.blocked allocator reads rfl⟩
  | case4 scanner arrivals after took ready code rest arrived =>
    exact Or.inl ⟨.transport code, ready, rest, rfl⟩
  | case5 scanner arrivals after took ready rest arrived =>
    obtain rfl := takeBufferedFrame_waits took
    have reads := read_reads ready.spare arrivals
    rw [arrived] at reads
    exact Or.inr ⟨ready, rest, rfl, barred.blocked allocator reads rfl⟩
  | case6 scanner arrivals after took ready piece rest arrived filled reads _ _ ih =>
    obtain rfl := takeBufferedFrame_waits took
    rw [arrived] at reads
    apply ih
    constructor
    · exact (makeRoom_same allocator after).limit.trans barred.limited
    · have grown := congrArg (· ++ pendingBytes rest) (filled_unread ready piece reads.room)
      exact grown.trans (barred.reads allocator reads)

structure Starved (limit : Nat) (record : Record) (tail : Bytes) (receiver : Receiver) : Prop where
  nothing : receiver.received = []
  barred : receiver.closed = none → Barred limit record tail receiver.scanner receiver.arrivals

section

variable (allocator : Allocator) (ic : Option InnerCipher) (large : limit < record.body.length)
  (word : record.body.length ≤ u32Max)

include large word

variable {receiver : Receiver}

theorem call_starved (starved : Starved limit record tail receiver) :
    Starved limit record tail (receiver.call allocator ic) := by
  unfold Receiver.call
  split
  · exact starved
  · rename_i running
    rcases readFrame_barred allocator large word _ _ (starved.barred running) with
      ⟨error, after, rest, refused⟩ | ⟨after, rest, waits, barred⟩
    · rw [refused]
      exact ⟨starved.nothing, fun running => nomatch running⟩
    · rw [waits]
      exact ⟨starved.nothing, fun _ => barred⟩

theorem calls_starved (calls : Nat) (starved : Starved limit record tail receiver) :
    Starved limit record tail ((Receiver.call allocator ic)^[calls] receiver) := by
  induction calls generalizing receiver with
  | zero => exact starved
  | succ calls ih => exact ih (call_starved allocator ic large word starved)

end

theorem oversized_starves (cache : PaddingCache) (allocator : Allocator) (ic : Option InnerCipher)
    (ops : List Op) (lazyCompact : Bool) (arrivals : List Arrival) (frame : Frame)
    (rest : List Frame) (first : sentFrames ops = frame :: rest)
    (large : limit < frame.data.length + encTag ic frame)
    (word : frame.data.length + encTag ic frame ≤ u32Max)
    (split : pendingBytes arrivals = sentStream cache ic ops) (calls : Nat) :
    ((Receiver.call allocator ic)^[calls]
      (Receiver.start allocator lazyCompact limit arrivals)).received = [] := by
  obtain ⟨records, encoded, carried⟩ := sentStream_records cache ic ops
  rw [first] at carried
  cases records with
  | nil => cases carried
  | cons record records =>
    have same : record.value = frame.onWire ic := (List.cons.inj carried).1
    have body : record.body = wirePayload ic frame := congrArg Prod.fst same
    have length : record.body.length = frame.data.length + encTag ic frame := by
      rw [body, wirePayload_length]
    rw [← length] at large word
    have starved : Starved limit record (stream Record.encode records)
        (Receiver.start allocator lazyCompact limit arrivals) :=
      ⟨rfl, fun _ => ⟨rfl, split.trans encoded⟩⟩
    exact (calls_starved allocator ic large word calls starved).nothing

def fullPayload : Bytes := List.replicate maxDataLength 0

theorem fullPayload_length : fullPayload.length = maxDataLength := List.length_replicate

def fullFrame : List Op := [.append .unpadded bucketAmbient ⟨1, fullPayload⟩, .flush]

/-- Its tag makes it too long for the receiver: however the stream is split, the
frame never comes out. -/
theorem full_sealed_frame_lost :
    (∀ frame ∈ sentFrames fullFrame, frame.data ≠ [] ∧ frame.data.length ≤ maxDataLength) ∧
    sentFrames fullFrame ≠ [] ∧
    ∀ (allocator : Allocator) (lazyCompact : Bool) (arrivals : List Arrival) (calls : Nat),
      pendingBytes arrivals = sentStream sampleCache (some zeroTagCipher) fullFrame →
      ((Receiver.call allocator (some zeroTagCipher))^[calls]
        (Receiver.start allocator lazyCompact maxDataLength arrivals)).received = [] := by
  have sent : sentFrames fullFrame = [⟨1, fullPayload⟩] := rfl
  have filled : fullPayload ≠ [] := List.ne_nil_of_length_pos (fullPayload_length ▸ by decide)
  have tag : encTag (some zeroTagCipher) ⟨1, fullPayload⟩ = gcmTagSize :=
    encTag_sealed zeroTagCipher (by decide) filled
  refine ⟨?_, ?_, ?_⟩
  · rw [sent]
    intro frame member
    rw [List.mem_singleton.mp member]
    exact ⟨filled, Nat.le_of_eq fullPayload_length⟩
  · rw [sent]
    exact List.cons_ne_nil _ _
  · intro allocator lazyCompact arrivals calls split
    apply oversized_starves sampleCache allocator (some zeroTagCipher) fullFrame lazyCompact
      arrivals _ [] sent _ _ split calls
    · rw [tag, fullPayload_length]
      decide
    · rw [tag, fullPayload_length]
      decide

end Oversized

end TlsVpn.Framing

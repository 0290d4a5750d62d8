import TlsVpn.Fec
import TlsVpn.Delimited

/-!
The sending half of frame.rs. A frame goes on the wire as a ten-byte header, its
payload, sealed when a cipher is there and the sequence number is not zero, and
cover bytes. The cover is chosen when the frame is appended, and
`pad_stream_batch_tail` rewrites the header of the last frame of a batch to make
room for more of it. Lengths are `usize` words of 64 bits; where the source does
not saturate, the release build wraps.
-/

namespace TlsVpn.Framing

open Words XorBytes Fec Delimited

section Padding

inductive PadMode where
  | off
  | bucket
  deriving DecidableEq

def padBuckets : List Nat := [128, 256, 384, 512, 768, 1024, 1280, 1600, 2048, 4096]

def fallbackTcpMss : Nat := 1440

def tlsRecordOverheadReserve : Nat := 32

def headerSize : Nat := 10

def u16Max : Nat := 65535

/-- `FastRand::gen_range` on the word that is drawn. -/
def genRange (draw : UInt32) (least most : Nat) : Nat :=
  if most ≤ least then least else least + draw.toNat % (most - least)

variable (draw : UInt32)

theorem genRange_lt {least most : Nat} (room : least < most) : genRange draw least most < most := by
  have inside := Nat.mod_lt draw.toNat (Nat.sub_pos_of_lt room)
  unfold genRange
  rw [if_neg (Nat.not_le.mpr room)]
  omega

def bucketTarget (bucket recordLimit : Nat) : Nat :=
  if recordLimit > 0 then min bucket recordLimit else bucket

theorem bucketTarget_le (bucket recordLimit : Nat) : bucketTarget bucket recordLimit ≤ bucket := by
  unfold bucketTarget
  split
  · exact Nat.min_le_left bucket recordLimit
  · exact Nat.le_refl bucket

/-- The loop over the buckets; `none` when no bucket is larger than the record. -/
def bucketPadding (recordLen recordLimit : Nat) : List Nat → Option Nat
  | [] => none
  | bucket :: rest =>
    if recordLen < bucketTarget bucket recordLimit then
      some (bucketTarget bucket recordLimit - recordLen)
    else if recordLimit > 0 ∧ bucket ≥ recordLimit then some 0
    else bucketPadding recordLen recordLimit rest

def padBucketWithLimit (draw : UInt32) (wireLen recordLimit : Nat) : Nat :=
  let recordLen := saturatingAdd 10 wireLen
  if recordLimit > 0 ∧ recordLen ≥ recordLimit then 0
  else
    match bucketPadding recordLen recordLimit padBuckets with
    | some padding => padding
    | none => if recordLimit > 0 then 0 else 1 + genRange draw 0 100

def padLengthWithLimit (mode : PadMode) (draw : UInt32) (wireLen recordLimit : Nat) : Nat :=
  match mode with
  | .off => 0
  | .bucket => padBucketWithLimit draw wireLen recordLimit

theorem bucketPadding_small {recordLen recordLimit padding bound : Nat} {buckets : List Nat}
    (small : ∀ bucket ∈ buckets, bucket ≤ bound)
    (chosen : bucketPadding recordLen recordLimit buckets = some padding) : padding ≤ bound := by
  induction buckets with
  | nil => cases chosen
  | cons bucket rest ih =>
    have first := (bucketTarget_le bucket recordLimit).trans (small bucket List.mem_cons_self)
    simp only [bucketPadding] at chosen
    split at chosen
    · cases chosen
      exact (Nat.sub_le _ recordLen).trans first
    · split at chosen
      · cases chosen
        exact Nat.zero_le bound
      · exact ih (fun other member => small other (List.mem_cons_of_mem bucket member)) chosen

theorem padLength_small (mode : PadMode) (draw : UInt32) (wireLen recordLimit : Nat) :
    padLengthWithLimit mode draw wireLen recordLimit ≤ 4096 := by
  cases mode with
  | off => exact Nat.zero_le 4096
  | bucket =>
    unfold padLengthWithLimit padBucketWithLimit
    dsimp only
    split
    · exact Nat.zero_le 4096
    · split
      · rename_i padding chosen
        exact bucketPadding_small (by decide) chosen
      · have drawn := genRange_lt draw (show 0 < 100 by decide)
        split <;> omega

/-- `PADDING_CACHE`: a mebibyte of random bytes. -/
structure PaddingCache where
  bytes : Bytes
  size : bytes.length = 1048576

def PaddingCache.cover (cache : PaddingCache) (draw : UInt32) (length : Nat) : Bytes :=
  (cache.bytes.drop (genRange draw 0 (cache.bytes.length - length))).take length

theorem PaddingCache.cover_length (cache : PaddingCache) (draw : UInt32) {length : Nat}
    (short : length < 1048576) : (cache.cover draw length).length = length := by
  have inside := genRange_lt draw (show 0 < 1048576 - length by omega)
  unfold PaddingCache.cover
  rw [List.length_take, List.length_drop, cache.size]
  omega

end Padding

section Frames

structure Frame where
  seq : UInt32
  data : Bytes
  deriving DecidableEq

def encTag (ic : Option InnerCipher) (frame : Frame) : Nat :=
  match ic with
  | some _ => if frame.seq ≠ 0 ∧ frame.data.length > 0 then gcmTagSize else 0
  | none => 0

theorem encTag_sealed (cipher : InnerCipher) {frame : Frame} (numbered : frame.seq ≠ 0)
    (filled : frame.data ≠ []) : encTag (some cipher) frame = gcmTagSize :=
  if_pos ⟨numbered, List.length_pos_iff.mpr filled⟩

def wirePayload (ic : Option InnerCipher) (frame : Frame) : Bytes :=
  match ic with
  | some cipher =>
    if frame.data.length > 0 ∧ frame.seq ≠ 0 then
      sealInPlace cipher frame.data frame.seq.toNat (frame.data.length + encTag ic frame)
    else frame.data
  | none => frame.data

theorem wirePayload_length (ic : Option InnerCipher) (frame : Frame) :
    (wirePayload ic frame).length = frame.data.length + encTag ic frame := by
  cases ic with
  | none => rfl
  | some cipher =>
    by_cases sealed : frame.data.length > 0 ∧ frame.seq ≠ 0
    · have filled : frame.data ≠ [] := List.ne_nil_of_length_pos sealed.1
      simp only [wirePayload, encTag, if_pos sealed, if_pos sealed.symm, sealInPlace,
        if_neg filled, cipher.seal_length]
    · have plain : ¬ (frame.seq ≠ 0 ∧ frame.data.length > 0) := fun both => sealed both.symm
      simp only [wirePayload, encTag, if_neg sealed, if_neg plain, Nat.add_zero]

/-- What a call reads of the process: the padding mode and the words its random
source draws. -/
structure Ambient where
  mode : PadMode
  length : UInt32
  offset : UInt32

variable (cache : PaddingCache) (ic : Option InnerCipher)

def appendPaddedFrameWithLimit (ambient : Ambient) (buf : Bytes) (frame : Frame)
    (recordLimit : Nat) : Bytes :=
  let wireLen := frame.data.length + encTag ic frame
  let padLen := padLengthWithLimit ambient.mode ambient.length wireLen recordLimit
  let header := be32 wireLen ++ be16 padLen ++ be32 frame.seq.toNat
  let framed := buf ++ header ++ wirePayload ic frame
  if padLen > 0 then framed ++ cache.cover ambient.offset padLen else framed

def appendUnpaddedFrame (ambient : Ambient) (buf : Bytes) (frame : Frame) : Bytes × Nat :=
  (appendPaddedFrameWithLimit cache ic ambient buf frame 1, buf.length)

def maxTlsPlaintextRecord : Nat := 16384

def streamPadRatioPercent : Nat := 10

def streamPadAbsoluteLimit : Nat := 512

def streamAlignedTlsPlaintextTarget (length recordLimit : Nat) : Nat :=
  if length = 0 then 0
  else
    let limit := saturatingAdd recordLimit tlsRecordOverheadReserve
    let mss := if limit < 256 then fallbackTcpMss else limit
    let segs := (length + tlsRecordOverheadReserve + mss - 1) % (u64Max + 1) / mss
    let target := min (segs * mss) u64Max - tlsRecordOverheadReserve
    if target < length ∨ target > maxTlsPlaintextRecord then length else target

def streamPaddingBudget (batchLen : Nat) : Nat :=
  min (batchLen * streamPadRatioPercent % (u64Max + 1) / 100) streamPadAbsoluteLimit

def tailPadding (mode : PadMode) (buf : Bytes) (start recordLimit : Nat) : Nat :=
  let padLen := streamAlignedTlsPlaintextTarget buf.length recordLimit - buf.length
  if mode = .off ∨ buf = [] then 0
  else if start + 10 > buf.length then 0
  else if padLen = 0 ∨ padLen > u16Max then 0
  else if padLen > streamPaddingBudget buf.length then 0
  else if readBe16 (buf.drop (start + 4)) + padLen > u16Max ∨ padLen ≥ cache.bytes.length then 0
  else padLen

def padStreamBatchTail (ambient : Ambient) (buf : Bytes) (lastFrameStart : Option Nat)
    (recordLimit : Nat) : Bytes × Nat :=
  match lastFrameStart with
  | none => (buf, 0)
  | some start =>
    let padLen := tailPadding cache ambient.mode buf start recordLimit
    if padLen = 0 then (buf, 0)
    else
      let oldPad := readBe16 (buf.drop (start + 4))
      (buf.take (start + 4) ++ be16 (oldPad + padLen) ++ buf.drop (start + 6) ++
        cache.cover ambient.offset padLen, padLen)

end Frames

section Records

structure Record where
  seq : UInt32
  body : Bytes
  pad : Bytes
  padWord : pad.length ≤ u16Max

def Record.encode (record : Record) : Bytes :=
  be32 record.body.length ++ (be16 record.pad.length ++
    (be32 record.seq.toNat ++ (record.body ++ record.pad)))

def Record.value (record : Record) : Bytes × UInt32 := (record.body, record.seq)

def Frame.onWire (ic : Option InnerCipher) (frame : Frame) : Bytes × UInt32 :=
  (wirePayload ic frame, frame.seq)

variable (cache : PaddingCache) (ic : Option InnerCipher)

variable (ambient : Ambient) (before buf : Bytes) (record : Record) (recordLimit : Nat)

theorem append_record (frame : Frame) (recordLimit : Nat) :
    ∃ record : Record, record.value = frame.onWire ic ∧
      appendPaddedFrameWithLimit cache ic ambient buf frame recordLimit = buf ++ record.encode := by
  have small := padLength_small ambient.mode ambient.length
    (frame.data.length + encTag ic frame) recordLimit
  generalize chosen : padLengthWithLimit ambient.mode ambient.length
    (frame.data.length + encTag ic frame) recordLimit = padLen at small
  have length := cache.cover_length ambient.offset (show padLen < 1048576 by omega)
  have word : (cache.cover ambient.offset padLen).length ≤ u16Max := by
    rw [length]
    exact small.trans (by decide)
  refine ⟨⟨frame.seq, wirePayload ic frame, cache.cover ambient.offset padLen, word⟩, rfl, ?_⟩
  simp only [appendPaddedFrameWithLimit, chosen, Record.encode, wirePayload_length, length]
  split
  · simp only [List.append_assoc]
  · rename_i none
    have empty : cache.cover ambient.offset padLen = [] := by
      apply List.eq_nil_of_length_eq_zero
      omega
    simp only [empty, List.append_assoc, List.append_nil]

theorem tailPadding_fits (mode : PadMode) (buf : Bytes) (start recordLimit : Nat) :
    tailPadding cache mode buf start recordLimit = 0 ∨
      readBe16 (buf.drop (start + 4)) + tailPadding cache mode buf start recordLimit ≤ u16Max ∧
        tailPadding cache mode buf start recordLimit < cache.bytes.length := by
  unfold tailPadding
  dsimp only
  split
  · exact Or.inl rfl
  · split
    · exact Or.inl rfl
    · split
      · exact Or.inl rfl
      · split
        · exact Or.inl rfl
        · split
          · exact Or.inl rfl
          · rename_i room
            obtain ⟨word, short⟩ := not_or.mp room
            exact Or.inr ⟨Nat.not_lt.mp word, Nat.not_le.mp short⟩

def Record.padded (record : Record) (extra : Bytes)
    (room : record.pad.length + extra.length ≤ u16Max) : Record :=
  { record with
    pad := record.pad ++ extra
    padWord := by rw [List.length_append]; exact room }

theorem rewrite_record (extra : Bytes) (record : Record)
    (room : record.pad.length + extra.length ≤ u16Max) :
    (before ++ record.encode).take (before.length + 4) ++ be16 (record.pad.length + extra.length) ++
        (before ++ record.encode).drop (before.length + 6) ++ extra =
      before ++ (record.padded extra room).encode := by
  have front : (before ++ record.encode).take (before.length + 4) =
      before ++ be32 record.body.length := by
    rw [List.take_length_add_append]
    rfl
  have back : (before ++ record.encode).drop (before.length + 6) =
      be32 record.seq.toNat ++ (record.body ++ record.pad) := by
    rw [List.drop_length_add_append]
    rfl
  rw [front, back]
  simp only [Record.encode, Record.padded, List.length_append, List.append_assoc]

theorem readBe16_record :
    readBe16 ((before ++ record.encode).drop (before.length + 4)) = record.pad.length := by
  rw [List.drop_length_add_append]
  exact readBe16_be16 record.pad.length record.padWord _

theorem tail_record :
    ∃ last : Record, last.value = record.value ∧
      (padStreamBatchTail cache ambient (before ++ record.encode) (some before.length)
        recordLimit).1 = before ++ last.encode := by
  have choice := tailPadding_fits cache ambient.mode (before ++ record.encode)
    before.length recordLimit
  simp only [padStreamBatchTail]
  generalize tailPadding cache ambient.mode (before ++ record.encode) before.length
    recordLimit = padLen at choice
  rw [readBe16_record] at choice ⊢
  split
  · exact ⟨record, rfl, rfl⟩
  · rename_i chosen
    obtain ⟨room, short⟩ := choice.resolve_left chosen
    have length := cache.cover_length ambient.offset (cache.size ▸ short)
    rw [← length] at room
    refine ⟨record.padded (cache.cover ambient.offset padLen) room, rfl, ?_⟩
    rw [← rewrite_record, length]

end Records

section Sender

inductive Appending where
  | padded (recordLimit : Nat)
  | unpadded

inductive Op where
  | append (how : Appending) (ambient : Ambient) (frame : Frame)
  | padTail (ambient : Ambient) (recordLimit : Nat)
  /-- The batch goes to the TLS writer and `send_buf` is cleared. -/
  | flush

def Op.frames : Op → List Frame
  | .append _ _ frame => [frame]
  | .padTail _ _ | .flush => []

structure Sender where
  written : Bytes
  sendBuf : Bytes
  lastFrameStart : Option Nat

def Sender.new : Sender := ⟨[], [], none⟩

variable (cache : PaddingCache) (ic : Option InnerCipher)

def Sender.perform (sender : Sender) : Op → Sender
  | .append (.padded recordLimit) ambient frame =>
    { sender with
      sendBuf := appendPaddedFrameWithLimit cache ic ambient sender.sendBuf frame recordLimit
      lastFrameStart := some sender.sendBuf.length }
  | .append .unpadded ambient frame =>
    let appended := appendUnpaddedFrame cache ic ambient sender.sendBuf frame
    { sender with sendBuf := appended.1, lastFrameStart := some appended.2 }
  | .padTail ambient recordLimit =>
    { sender with
      sendBuf :=
        (padStreamBatchTail cache ambient sender.sendBuf sender.lastFrameStart recordLimit).1 }
  | .flush => ⟨sender.written ++ sender.sendBuf, [], none⟩

def Sender.stream (sender : Sender) : Bytes := sender.written ++ sender.sendBuf

def sentStream (ops : List Op) : Bytes := (ops.foldl (Sender.perform cache ic) Sender.new).stream

def sentFrames (ops : List Op) : List Frame := ops.flatMap Op.frames

/-- The records of what was written and of the batch in the buffer. -/
structure Framed (sender : Sender) (frames : List Frame) (done batch : List Record) : Prop where
  written : sender.written = stream Record.encode done
  buffered : sender.sendBuf = stream Record.encode batch
  carried : (done ++ batch).map Record.value = frames.map (Frame.onWire ic)
  last : ∀ start, sender.lastFrameStart = some start →
    ∃ earlier record, batch = earlier ++ [record] ∧ start = (stream Record.encode earlier).length

variable {ic : Option InnerCipher} {sender : Sender} {frames : List Frame}
  {done batch : List Record}

variable (ops : List Op)

theorem new_framed (ic : Option InnerCipher) : Framed ic Sender.new [] [] [] := by
  refine ⟨rfl, rfl, rfl, ?_⟩
  rintro start ⟨⟩

section

variable (framed : Framed ic sender frames done batch)

include framed

variable (ambient : Ambient) (recordLimit : Nat)

theorem Framed.append (frame : Frame) (recordLimit : Nat) :
    ∃ record, Framed ic
      { sender with
        sendBuf := appendPaddedFrameWithLimit cache ic ambient sender.sendBuf frame recordLimit
        lastFrameStart := some sender.sendBuf.length }
      (frames ++ [frame]) done (batch ++ [record]) := by
  obtain ⟨record, value, appended⟩ :=
    append_record cache ic ambient sender.sendBuf frame recordLimit
  refine ⟨record, framed.written, ?_, ?_, ?_⟩
  · dsimp only
    rw [appended, framed.buffered, stream_append, stream_cons, stream_nil, List.append_nil]
  · rw [← List.append_assoc, List.map_append, framed.carried, List.map_append]
    exact congrArg (fun last => frames.map (Frame.onWire ic) ++ [last]) value
  · rintro start ⟨⟩
    exact ⟨batch, record, rfl, by rw [framed.buffered]⟩

theorem Framed.padTail :
    ∃ after, Framed ic (sender.perform cache ic (.padTail ambient recordLimit)) frames done
      after := by
  cases start : sender.lastFrameStart with
  | none =>
    refine ⟨batch, framed.written, ?_, framed.carried, framed.last⟩
    simp only [Sender.perform, start, padStreamBatchTail]
    exact framed.buffered
  | some start =>
    obtain ⟨earlier, record, rfl, rfl⟩ := framed.last _ start
    have buffered : sender.sendBuf = stream Record.encode earlier ++ record.encode := by
      rw [framed.buffered, stream_append, stream_cons, stream_nil, List.append_nil]
    obtain ⟨last, value, padded⟩ :=
      tail_record cache ambient (stream Record.encode earlier) record recordLimit
    refine ⟨earlier ++ [last], framed.written, ?_, ?_, ?_⟩
    · simp only [Sender.perform, start, buffered, padded, stream_append, stream_cons, stream_nil,
        List.append_nil]
    · rw [← framed.carried]
      simp only [List.map_append, List.map_cons, List.map_nil, value]
    · intro other same
      cases start.symm.trans same
      exact ⟨earlier, last, rfl, rfl⟩

theorem Framed.flush :
    Framed ic ⟨sender.written ++ sender.sendBuf, [], none⟩ frames (done ++ batch) [] := by
  refine ⟨?_, rfl, ?_, ?_⟩
  · rw [stream_append, framed.written, framed.buffered]
  · rw [List.append_nil]
    exact framed.carried
  · rintro start ⟨⟩

end

theorem perform_framed (op : Op) (framed : Framed ic sender frames done batch) :
    ∃ written buffered, Framed ic (sender.perform cache ic op) (frames ++ op.frames) written
      buffered := by
  cases op with
  | append how ambient frame =>
    cases how with
    | padded recordLimit =>
      obtain ⟨record, after⟩ := framed.append cache ambient frame recordLimit
      exact ⟨done, batch ++ [record], after⟩
    | unpadded =>
      obtain ⟨record, after⟩ := framed.append cache ambient frame 1
      exact ⟨done, batch ++ [record], after⟩
  | padTail ambient recordLimit =>
    obtain ⟨after, padded⟩ := framed.padTail cache ambient recordLimit
    rw [Op.frames, List.append_nil]
    exact ⟨done, after, padded⟩
  | flush =>
    rw [Op.frames, List.append_nil]
    exact ⟨done ++ batch, [], framed.flush⟩

theorem performAll_framed (framed : Framed ic sender frames done batch) :
    ∃ written buffered, Framed ic (ops.foldl (Sender.perform cache ic) sender)
      (frames ++ sentFrames ops) written buffered := by
  induction ops generalizing sender frames done batch with
  | nil =>
    rw [sentFrames, List.flatMap_nil, List.append_nil]
    exact ⟨done, batch, framed⟩
  | cons op ops ih =>
    obtain ⟨written, buffered, after⟩ := perform_framed cache op framed
    have rest := ih after
    rw [List.append_assoc] at rest
    exact rest

theorem sentStream_records (ic : Option InnerCipher) (ops : List Op) :
    ∃ records : List Record, sentStream cache ic ops = stream Record.encode records ∧
      records.map Record.value = (sentFrames ops).map (Frame.onWire ic) := by
  obtain ⟨done, batch, framed⟩ := performAll_framed cache ops (new_framed ic)
  refine ⟨done ++ batch, ?_, framed.carried⟩
  rw [sentStream, Sender.stream, framed.written, framed.buffered, stream_append]

end Sender

end TlsVpn.Framing

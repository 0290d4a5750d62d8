import TlsVpn.Framing
import TlsVpn.QueueAccounts

/-!
What one flush hands to TLS. The loops of both ends pop batches as long as the
estimate of the next one fits into what the send buffer leaves of a plaintext
record, frame them one after another, and pad the last frame. Producers work on
the queue between two turns. The estimate counts 32 bytes a frame where a header
and a tag take 26, and the reserve of 512 bytes is what the padding may add.
-/

namespace TlsVpn.Port

open Words XorBytes Protocol Fec

section Loop

structure SendBuffer where
  bytes : Bytes
  lastFrameStart : Option Nat
  pulled : Nat

def SendBuffer.clear : SendBuffer := ⟨[], none, 0⟩

variable (cache : Framing.PaddingCache) (icTx : Option InnerCipher) (ambient : Framing.Ambient)

def SendBuffer.appendFrame (buffer : SendBuffer) (frame : VpnFrame) : SendBuffer :=
  let ic := if frame.seq ≠ 0 then icTx else none
  let appended := Framing.appendUnpaddedFrame cache ic ambient buffer.bytes
    ⟨UInt32.ofNat frame.seq, frame.data⟩
  { buffer with bytes := appended.1, lastFrameStart := some appended.2 }

def SendBuffer.appendBatch (buffer : SendBuffer) (batch : VpnFrameBatch) : SendBuffer :=
  let appended := batch.frames.foldl (SendBuffer.appendFrame cache icTx ambient) buffer
  { appended with pulled := buffer.pulled + batch.frames.length }

def SendBuffer.stopsBefore (side : Side) (buffer : SendBuffer) : Bool :=
  match side with
  | .server => decide (buffer.bytes.length ≥ streamTlsBatchSoftLimit ∨ buffer.pulled ≥ 2048)
  | .client => false

def SendBuffer.stopsAfter (side : Side) (buffer : SendBuffer) : Bool :=
  match side with
  | .server => false
  | .client => decide (buffer.bytes.length ≥ streamTlsBatchSoftLimit)

def pull (side : Side) : OwnedBatchQueue → SendBuffer → List (List QueueOp) → SendBuffer
  | _, buffer, [] => buffer
  | queue, buffer, work :: turns =>
    let found := work.foldl OwnedBatchQueue.after queue
    if buffer.stopsBefore side then buffer
    else
      match found.tryPopFitting (popBudget buffer.bytes.length) with
      | none => buffer
      | some (batch, rest) =>
        let after := buffer.appendBatch cache icTx ambient batch
        if after.stopsAfter side then after else pull side rest after turns

def SendBuffer.padTail (buffer : SendBuffer) (padRecordLimit : Nat) : Bytes × Nat :=
  if buffer.pulled ≠ 0 then
    Framing.padStreamBatchTail cache ambient buffer.bytes buffer.lastFrameStart padRecordLimit
  else (buffer.bytes, 0)

end Loop

section Sizes

variable (cache : Framing.PaddingCache) (icTx : Option InnerCipher) (ambient : Framing.Ambient)

theorem padLength_unpadded (mode : Framing.PadMode) (draw : UInt32) (wireLen : Nat) :
    Framing.padLengthWithLimit mode draw wireLen 1 = 0 := by
  cases mode with
  | off => rfl
  | bucket =>
    have long : saturatingAdd 10 wireLen ≥ 1 := by
      unfold saturatingAdd u64Max
      omega
    unfold Framing.padLengthWithLimit Framing.padBucketWithLimit
    exact if_pos ⟨Nat.one_pos, long⟩

theorem appendUnpaddedFrame_length (buf : Bytes) (frame : Framing.Frame) :
    (Framing.appendUnpaddedFrame cache icTx ambient buf frame).1.length =
      buf.length + 10 + frame.data.length + Framing.encTag icTx frame := by
  unfold Framing.appendUnpaddedFrame Framing.appendPaddedFrameWithLimit
  simp only [padLength_unpadded, gt_iff_lt, Nat.lt_irrefl, if_false, List.length_append,
    be32_length, be16_length, Framing.wirePayload_length]
  omega

theorem encTag_le (frame : Framing.Frame) : Framing.encTag icTx frame ≤ gcmTagSize := by
  unfold Framing.encTag
  split
  · split
    · exact Nat.le_refl _
    · exact Nat.zero_le _
  · exact Nat.zero_le _

theorem appendFrame_length (buffer : SendBuffer) (frame : VpnFrame) :
    (buffer.appendFrame cache icTx ambient frame).bytes.length ≤
      buffer.bytes.length + frame.data.length + ownedBatchWireOverheadPerFrame := by
  unfold SendBuffer.appendFrame
  dsimp only
  rw [appendUnpaddedFrame_length]
  have tag := encTag_le (if frame.seq ≠ 0 then icTx else none)
    ⟨UInt32.ofNat frame.seq, frame.data⟩
  have overhead : 10 + gcmTagSize ≤ ownedBatchWireOverheadPerFrame := by decide
  dsimp only at tag ⊢
  omega

theorem appendFrames_length (frames : List VpnFrame) (buffer : SendBuffer) :
    (frames.foldl (SendBuffer.appendFrame cache icTx ambient) buffer).bytes.length ≤
      buffer.bytes.length + payloadBytes frames +
        frames.length * ownedBatchWireOverheadPerFrame := by
  induction frames generalizing buffer with
  | nil => exact Nat.le_refl _
  | cons frame rest ih =>
    have first := appendFrame_length cache icTx ambient buffer frame
    have later := ih (buffer.appendFrame cache icTx ambient frame)
    have bytes : payloadBytes (frame :: rest) = frame.data.length + payloadBytes rest := rfl
    rw [List.foldl_cons, List.length_cons, bytes, Nat.succ_mul]
    omega

theorem appendBatch_length {queue rest : OwnedBatchQueue} {batch : VpnFrameBatch}
    {buffer : SendBuffer} (bytes : batch.bytes = payloadBytes batch.frames)
    (popped : queue.tryPopFitting (popBudget buffer.bytes.length) = some (batch, rest))
    (short : buffer.bytes.length ≤ popBudget 0) :
    (buffer.appendBatch cache icTx ambient batch).bytes.length ≤ popBudget 0 := by
  have grown := appendFrames_length cache icTx ambient batch.frames buffer
  have fits : batch.bytes + batch.frames.length * ownedBatchWireOverheadPerFrame ≤
      popBudget buffer.bytes.length := by
    unfold OwnedBatchQueue.tryPopFitting at popped
    split at popped
    · cases popped
    · split at popped
      · cases popped
      · rename_i within
        cases popped
        exact Nat.not_lt.mp within
  have budget : popBudget buffer.bytes.length = popBudget 0 - buffer.bytes.length := rfl
  change (batch.frames.foldl (SendBuffer.appendFrame cache icTx ambient) buffer).bytes.length ≤ _
  omega

end Sizes

section Bound

variable (cache : Framing.PaddingCache) (icTx : Option InnerCipher) (ambient : Framing.Ambient)

theorem pull_length {capacity limit : Nat} (positive : 0 < limit) (side : Side)
    (turns : List (List QueueOp)) (queue : OwnedBatchQueue) (buffer : SendBuffer)
    (represents : Represents capacity limit queue) (short : buffer.bytes.length ≤ popBudget 0) :
    (pull cache icTx ambient side queue buffer turns).bytes.length ≤ popBudget 0 := by
  induction turns generalizing queue buffer with
  | nil => exact short
  | cons work turns ih =>
    have found := represents.run positive work
    unfold pull
    dsimp only
    split
    · exact short
    · split
      · exact short
      · rename_i batch rest popped
        obtain ⟨left, present⟩ := found.pop popped
        have within := appendBatch_length cache icTx ambient (found.packed batch present).bytes
          popped short
        split
        · exact within
        · exact ih rest _ left within

theorem alignedTarget_le (length recordLimit : Nat) :
    Framing.streamAlignedTlsPlaintextTarget length recordLimit ≤
      max length Framing.maxTlsPlaintextRecord := by
  have capped : ∀ target : Nat,
      (if target < length ∨ target > Framing.maxTlsPlaintextRecord then length else target) ≤
        max length Framing.maxTlsPlaintextRecord := by
    intro target
    split <;> omega
  unfold Framing.streamAlignedTlsPlaintextTarget
  split
  · exact Nat.zero_le _
  · exact capped _

theorem tailPadding_bounds (mode : Framing.PadMode) (buf : Bytes) (start recordLimit : Nat)
    (some : Framing.tailPadding cache mode buf start recordLimit ≠ 0) :
    Framing.tailPadding cache mode buf start recordLimit ≤ Framing.streamPaddingBudget buf.length ∧
      buf.length + Framing.tailPadding cache mode buf start recordLimit ≤
        max buf.length Framing.maxTlsPlaintextRecord ∧
      start + 10 ≤ buf.length := by
  have target := alignedTarget_le buf.length recordLimit
  unfold Framing.tailPadding at some ⊢
  dsimp only at some ⊢
  split at some
  · exact absurd rfl some
  · rename_i shaped
    split at some
    · exact absurd rfl some
    · rename_i header
      split at some
      · exact absurd rfl some
      · rename_i word
        split at some
        · exact absurd rfl some
        · rename_i budget
          split at some
          · exact absurd rfl some
          · rename_i room
            rw [if_neg shaped, if_neg header, if_neg word, if_neg budget, if_neg room]
            omega

theorem padStreamBatchTail_bounds (buf : Bytes) (last : Option Nat) (recordLimit : Nat) :
    (Framing.padStreamBatchTail cache ambient buf last recordLimit).1.length =
        buf.length + (Framing.padStreamBatchTail cache ambient buf last recordLimit).2 ∧
      (Framing.padStreamBatchTail cache ambient buf last recordLimit).2 ≤
        Framing.streamPaddingBudget buf.length ∧
      (Framing.padStreamBatchTail cache ambient buf last recordLimit).1.length ≤
        max buf.length Framing.maxTlsPlaintextRecord := by
  cases last with
  | none => exact ⟨rfl, Nat.zero_le _, Nat.le_max_left _ _⟩
  | some start =>
    unfold Framing.padStreamBatchTail
    dsimp only
    split
    · exact ⟨rfl, Nat.zero_le _, Nat.le_max_left _ _⟩
    · rename_i some
      obtain ⟨budget, target, header⟩ :=
        tailPadding_bounds cache ambient.mode buf start recordLimit some
      have small : Framing.streamPaddingBudget buf.length ≤ 512 := Nat.min_le_right _ _
      have cover := cache.cover_length ambient.offset (show
        Framing.tailPadding cache ambient.mode buf start recordLimit < 1048576 by omega)
      have length : (buf.take (start + 4) ++ be16
          (readBe16 (buf.drop (start + 4)) +
            Framing.tailPadding cache ambient.mode buf start recordLimit) ++
          buf.drop (start + 6) ++ cache.cover ambient.offset
            (Framing.tailPadding cache ambient.mode buf start recordLimit)).length =
          buf.length + Framing.tailPadding cache ambient.mode buf start recordLimit := by
        simp only [List.length_append, List.length_take, List.length_drop, be16_length, cover]
        omega
      exact ⟨length, budget, length.trans_le target⟩

/-- One flush of a backend whose queue came about by any operations, on either
side and with any record limit. -/
theorem flush_fits_one_record (capacityFrames : Nat) (setting : Option Nat) (side : Side)
    (earlier : List QueueOp) (turns : List (List QueueOp)) (padRecordLimit : Nat) :
    let queue := earlier.foldl OwnedBatchQueue.after
      (OwnedBatchQueue.new capacityFrames (txBatchSize setting))
    let buffer := pull cache icTx ambient side queue SendBuffer.clear turns
    let padded := buffer.padTail cache ambient padRecordLimit
    padded.1.length = buffer.bytes.length + padded.2 ∧ padded.1.length ≤ 16384 ∧
      padded.2 ≤ 512 ∧ 100 * padded.2 ≤ 10 * buffer.bytes.length := by
  have positive := txBatchSize_pos setting
  intro queue buffer padded
  have represents : Represents (max capacityFrames 1) (txBatchSize setting) queue :=
    (Represents.new capacityFrames _).run positive earlier
  have short : buffer.bytes.length ≤ 15872 :=
    pull_length cache icTx ambient positive side turns queue SendBuffer.clear represents
      (Nat.zero_le _)
  by_cases pulled : buffer.pulled ≠ 0
  · have same : padded = Framing.padStreamBatchTail cache ambient buffer.bytes
        buffer.lastFrameStart padRecordLimit := if_pos pulled
    obtain ⟨length, budget, within⟩ := padStreamBatchTail_bounds cache ambient buffer.bytes
      buffer.lastFrameStart padRecordLimit
    rw [← same] at length budget within
    have record : Framing.maxTlsPlaintextRecord = 16384 := rfl
    have absolute : Framing.streamPaddingBudget buffer.bytes.length ≤ 512 := Nat.min_le_right _ _
    have ratio : Framing.streamPaddingBudget buffer.bytes.length ≤
        buffer.bytes.length * 10 % (u64Max + 1) / 100 := Nat.min_le_left _ _
    have whole : buffer.bytes.length * 10 % (u64Max + 1) ≤ buffer.bytes.length * 10 :=
      Nat.mod_le _ _
    refine ⟨length, ?_, by omega, by omega⟩
    rw [record] at within
    omega
  · have same : padded = (buffer.bytes, 0) := if_neg pulled
    rw [same]
    exact ⟨rfl, by dsimp only; omega, Nat.zero_le _, Nat.zero_le _⟩

end Bound

end TlsVpn.Port

import TlsVpn.Words
import TlsVpn.Runs

/-!
The receive reorder buffer and the duplicate filter of buffer.rs. Vectors indexed
by a ring position are functions on positions together with their length `size`;
instants are nanosecond counts. A delivered frame carries the sequence number it
was released under, which the source drops when it pushes the bare frame.
-/

namespace TlsVpn.Reorder

open Words

abbrev Frame := List UInt8

abbrev Delivered := List (Nat × Frame)

def reorderInitialWindow : Nat := 2048

def reorderMaxWindow : Nat := 65536

/-- `REORDER_SKIP_DELAY`, 50 ms. -/
def reorderSkipDelay : Nat := 50000000

structure ReorderStats where
  gapEvents : Nat
  timeoutFlushes : Nat
  skippedFrames : Nat
  deriving DecidableEq

structure ReorderBuffer where
  expectedSeq : Nat
  size : Nat
  ring : Nat → Option Frame
  seqSlots : Nat → Nat
  bitmap : Nat → BitVec 64
  windowMask : Nat
  gapSince : Option Nat
  stats : ReorderStats

def new : ReorderBuffer where
  expectedSeq := 0
  size := reorderInitialWindow
  ring := fun _ => none
  seqSlots := fun _ => 0
  bitmap := fun _ => 0#64
  windowMask := reorderInitialWindow - 1
  gapSince := none
  stats := ⟨0, 0, 0⟩

def reset (buffer : ReorderBuffer) : ReorderBuffer :=
  { buffer with
    expectedSeq := 0
    ring := fun _ => none
    seqSlots := fun _ => 0
    bitmap := fun _ => 0#64
    gapSince := none }

def slotOf (buffer : ReorderBuffer) (seq : Nat) : Nat := seq &&& buffer.windowMask

def bitmapAny (buffer : ReorderBuffer) : Bool :=
  (List.range (buffer.size / 64)).any fun word => buffer.bitmap word != 0#64

def hasGap (buffer : ReorderBuffer) : Bool :=
  buffer.expectedSeq != 0 && (buffer.ring (slotOf buffer buffer.expectedSeq)).isNone &&
    bitmapAny buffer

def refreshGap (buffer : ReorderBuffer) (now : Nat) : ReorderBuffer :=
  if hasGap buffer then
    if buffer.gapSince.isNone then
      { buffer with
        gapSince := some now
        stats := { buffer.stats with gapEvents := saturatingAdd buffer.stats.gapEvents 1 } }
    else buffer
  else { buffer with gapSince := none }

def takeSlot (buffer : ReorderBuffer) (index : Nat) : ReorderBuffer :=
  { buffer with
    ring := Function.update buffer.ring index none
    seqSlots := Function.update buffer.seqSlots index 0
    bitmap := Function.update buffer.bitmap (index / 64)
      (buffer.bitmap (index / 64) &&& ~~~ bit (index % 64))
    expectedSeq := wrappingAdd buffer.expectedSeq 1 }

/-- The loop of `flush_locked_into`. The ring has `size` slots, so `size` turns
are enough; `flushLoop_stops` shows that the last one meets an empty slot. -/
def flushLoop : Nat → ReorderBuffer → ReorderBuffer × Delivered
  | 0, buffer => (buffer, [])
  | fuel + 1, buffer =>
    let index := slotOf buffer buffer.expectedSeq
    match buffer.ring index with
    | none => (buffer, [])
    | some frame =>
      let rest := flushLoop fuel (takeSlot buffer index)
      (rest.1, if frame.isEmpty then rest.2 else (buffer.expectedSeq, frame) :: rest.2)

def flushLockedInto (buffer : ReorderBuffer) (now : Nat) : ReorderBuffer × Delivered :=
  let flushed := flushLoop buffer.size { buffer with gapSince := none }
  (refreshGap flushed.1 now, flushed.2)

/-- `while new_size < required && new_size < MAX { new_size <<= 1 }`. Sixteen
doublings take any positive size past the maximum. -/
def growSize (required : Nat) : Nat → Nat → Nat
  | 0, size => size
  | fuel + 1, size =>
    if size < required ∧ size < reorderMaxWindow then growSize required fuel (size * 2)
    else size

structure Slots where
  ring : Nat → Option Frame
  seqSlots : Nat → Nat
  bitmap : Nat → BitVec 64

def storeSlot (slots : Slots) (index seq : Nat) (frame : Frame) : Slots where
  ring := Function.update slots.ring index (some frame)
  seqSlots := Function.update slots.seqSlots index seq
  bitmap := Function.update slots.bitmap (index / 64)
    (slots.bitmap (index / 64) ||| bit (index % 64))

def rehash (buffer : ReorderBuffer) (newMask : Nat) : Nat → Slots
  | 0 => ⟨fun _ => none, fun _ => 0, fun _ => 0#64⟩
  | count + 1 =>
    let done := rehash buffer newMask count
    match buffer.ring count with
    | none => done
    | some frame =>
      storeSlot done (buffer.seqSlots count &&& newMask) (buffer.seqSlots count) frame

def growWindow (buffer : ReorderBuffer) (requiredDistance : Nat) : Option ReorderBuffer :=
  if buffer.size ≥ reorderMaxWindow then none else
    let newSize := min (growSize requiredDistance 16 buffer.size) reorderMaxWindow
    if newSize < requiredDistance then none else
      let slots := rehash buffer (newSize - 1) buffer.size
      some { buffer with
        size := newSize
        ring := slots.ring
        seqSlots := slots.seqSlots
        bitmap := slots.bitmap
        windowMask := newSize - 1 }

/-- The window part of `insert_into`: `none` when the frame is too far ahead. -/
def makeRoom (buffer : ReorderBuffer) (distance : Nat) : Option ReorderBuffer :=
  if distance ≥ buffer.size then
    if distance ≥ reorderMaxWindow then none else growWindow buffer (distance + 1)
  else some buffer

def storeFrame (buffer : ReorderBuffer) (seq : Nat) (frame : Frame) : ReorderBuffer :=
  let slots := storeSlot ⟨buffer.ring, buffer.seqSlots, buffer.bitmap⟩ (slotOf buffer seq) seq frame
  { buffer with ring := slots.ring, seqSlots := slots.seqSlots, bitmap := slots.bitmap }

def learn (buffer : ReorderBuffer) (seq : Nat) : ReorderBuffer :=
  if buffer.expectedSeq = 0 then { buffer with expectedSeq := seq } else buffer

/-- `insert_into` from the age test to the store, on a buffer that knows its base. -/
def admitFrame (buffer : ReorderBuffer) (seq : Nat) (frame : Frame) : ReorderBuffer × Bool :=
  let diff := asI32 (wrappingSub seq buffer.expectedSeq)
  if diff < 0 then (buffer, false) else
    match makeRoom buffer diff.toNat with
    | none => (buffer, false)
    | some roomy =>
      if (roomy.ring (slotOf roomy seq)).isSome then (roomy, false)
      else (storeFrame roomy seq frame, true)

/-- `insert_into` up to the store. The flag says whether the frame was accepted;
a refused frame may still have taught the base or grown the window. -/
def place (buffer : ReorderBuffer) (seq : Nat) (frame : Frame) : ReorderBuffer × Bool :=
  admitFrame (learn buffer seq) seq frame

def insertInto (buffer : ReorderBuffer) (seq : Nat) (frame : Frame) (now : Nat) :
    ReorderBuffer × Delivered :=
  if seq = 0 then (buffer, []) else
    let placed := place buffer seq frame
    if placed.2 then
      if seq = placed.1.expectedSeq then flushLockedInto placed.1 now
      else (refreshGap placed.1 now, [])
    else (placed.1, [])

def insertAll (buffer : ReorderBuffer) (clock : Nat → Nat) :
    List (Nat × Frame) → ReorderBuffer × Delivered
  | [] => (buffer, [])
  | (seq, frame) :: rest =>
    let first := insertInto buffer seq frame (clock seq)
    let others := insertAll first.1 clock rest
    (others.1, first.2 ++ others.2)

/-- The validation loop of `try_advance_sequences`; `none` is an early `false`. -/
def advanceOver : Nat → Bool → List Nat → Option (Nat × Bool)
  | expected, seen, [] => some (expected, seen)
  | expected, seen, seq :: rest =>
    let base := if !seen && expected == 0 then seq else expected
    if seq = 0 ∨ seq ≠ base then none else advanceOver (wrappingAdd base 1) true rest

def tryAdvanceSequences (buffer : ReorderBuffer) (seqs : List Nat) : Option ReorderBuffer :=
  if buffer.gapSince.isSome then none else
    match advanceOver buffer.expectedSeq false seqs with
    | some (expected, true) => some { buffer with expectedSeq := expected }
    | _ => none

def tryDirectBatch (buffer : ReorderBuffer) (input : List (Nat × Frame)) :
    Option (ReorderBuffer × Delivered) :=
  match tryAdvanceSequences buffer (input.map Prod.fst) with
  | none => none
  | some advanced => some (advanced, input.filter fun entry => !entry.2.isEmpty)

def firstHeld (buffer : ReorderBuffer) : Nat → Nat → Option Nat
  | 0, _ => none
  | count + 1, delta =>
    if (buffer.ring (slotOf buffer (wrappingAdd buffer.expectedSeq delta))).isSome then some delta
    else firstHeld buffer count (delta + 1)

def flushTimeoutInto (buffer : ReorderBuffer) (now : Nat) : ReorderBuffer × Delivered :=
  match buffer.gapSince with
  | none => (buffer, [])
  | some since =>
    if now - since < reorderSkipDelay ∨ hasGap buffer = false then (buffer, []) else
      match firstHeld buffer (buffer.size - 1) 1 with
      | some delta =>
        flushLockedInto { buffer with
          expectedSeq := wrappingAdd buffer.expectedSeq delta
          gapSince := none
          stats := { buffer.stats with
            timeoutFlushes := saturatingAdd buffer.stats.timeoutFlushes 1
            skippedFrames := saturatingAdd buffer.stats.skippedFrames delta } } now
      | none => ({ buffer with gapSince := none }, [])

section Dedup

def dedupMask : Nat := 4095

structure DeDuplicator where
  slots : Nat → Nat

def DeDuplicator.new : DeDuplicator := ⟨fun _ => 0⟩

/-- `is_duplicate`: one swap in the sequence number's slot. -/
def DeDuplicator.isDuplicate (dedup : DeDuplicator) (seq : Nat) : DeDuplicator × Bool :=
  if seq = 0 then (dedup, false) else
    (⟨Function.update dedup.slots (seq &&& dedupMask) seq⟩,
      decide (dedup.slots (seq &&& dedupMask) = seq))

def DeDuplicator.reset (_ : DeDuplicator) : DeDuplicator := DeDuplicator.new

end Dedup

end TlsVpn.Reorder

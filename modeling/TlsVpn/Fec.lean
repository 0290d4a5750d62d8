import TlsVpn.Protocol
import TlsVpn.XorBytes

/-!
The XOR parity code of fec.rs: the port's encoder and the session's decoder.

The hash map of pending groups is an association list without duplicate keys.
The closure that reports reorder progress is replaced by the value it returns
at the call: `none` when no closure was set. A call that can fail returns its
state beside the result, because a failed parity has already retired groups.
Recycled buffers are fresh zero-filled strings, and the vectorised loops are
their bytewise reading.
-/

namespace TlsVpn.Fec

open Words XorBytes Protocol

abbrev Delivered := List (Nat × Bytes)

def fecMinGroup : Nat := 2

def fecMaxGroup : Nat := 64

def fecMaxPendingGroups : Nat := 512

def fecDoneMask : Nat := 255

def gcmTagSize : Nat := 16

def clampFecGroup (k : Nat) : Nat := max fecMinGroup (min k fecMaxGroup)

theorem clampFecGroup_least (k : Nat) : 2 ≤ clampFecGroup k := by
  unfold clampFecGroup fecMinGroup
  omega

theorem clampFecGroup_most (k : Nat) : clampFecGroup k ≤ 64 := by
  unfold clampFecGroup fecMinGroup fecMaxGroup
  omega

theorem clampFecGroup_of_bounds {k : Nat} (atLeast : 2 ≤ k) (atMost : k ≤ 64) :
    clampFecGroup k = k := by
  unfold clampFecGroup fecMinGroup fecMaxGroup
  omega

theorem clampFecGroup_twice (k : Nat) : clampFecGroup (clampFecGroup k) = clampFecGroup k :=
  clampFecGroup_of_bounds (clampFecGroup_least k) (clampFecGroup_most k)

/-- The inner AEAD under one key and salt, with what its crates document: a
tag's worth of growth, and opening what was sealed under the same number and
associated data. -/
structure InnerCipher where
  aeadSeal : Nat → Bytes → Bytes → Bytes
  aeadOpen : Nat → Bytes → Bytes → Option Bytes
  seal_length : ∀ seq aad plain, (aeadSeal seq aad plain).length = plain.length + gcmTagSize
  open_seal : ∀ seq aad plain, aeadOpen seq aad (aeadSeal seq aad plain) = some plain

/-- A cipher with the two laws, for concrete runs: it appends an all-zero tag. -/
def zeroTagCipher : InnerCipher where
  aeadSeal := fun _ _ plain => plain ++ List.replicate gcmTagSize 0
  aeadOpen := fun _ _ sealed => some (sealed.take (sealed.length - gcmTagSize))
  seal_length := by simp
  open_seal := by simp

def tagLen (ic : Option InnerCipher) : Nat := if ic.isSome then gcmTagSize else 0

def gcmAad (wireLen seq : Nat) : Bytes := be32 wireLen ++ be32 seq

def sealInPlace (cipher : InnerCipher) (plain : Bytes) (seq wireLen : Nat) : Bytes :=
  if plain = [] then List.replicate gcmTagSize 0
  else cipher.aeadSeal seq (gcmAad wireLen seq) plain

def openTo (cipher : InnerCipher) (dstLen : Nat) (src : Bytes) (seq : Nat) (aad : Bytes) :
    Option Bytes :=
  if src.length < gcmTagSize then none
  else if dstLen < src.length - gcmTagSize then none
  else cipher.aeadOpen seq aad src

section Encoder

structure FecEncoder where
  k : Nat
  seqs : List Nat
  lens : List Nat
  acc : Bytes
  activeLen : Nat
  ic : Option InnerCipher
  paritySent : Nat
  multipath : Bool
  armed : Bool

def FecEncoder.new (k : Nat) (ic : Option InnerCipher) : FecEncoder where
  k := clampFecGroup k
  seqs := []
  lens := []
  acc := []
  activeLen := 0
  ic := ic
  paritySent := 0
  multipath := true
  armed := true

def FecEncoder.reset (encoder : FecEncoder) : FecEncoder :=
  { encoder with
    seqs := []
    lens := []
    acc := List.replicate encoder.activeLen 0 ++ encoder.acc.drop encoder.activeLen
    activeLen := 0 }

def FecEncoder.setPhysicalPathCount (encoder : FecEncoder) (paths : Nat) : FecEncoder :=
  let multipath := decide (paths ≥ 2)
  if multipath = encoder.multipath then encoder
  else if !multipath then
    let cleared :=
      if encoder.seqs ≠ [] ∨ encoder.activeLen ≠ 0 then encoder.reset else encoder
    { cleared with multipath := multipath, armed := false }
  else { encoder with multipath := multipath, armed := false }

def sealBody (ic : Option InnerCipher) (body : Bytes) (start : Nat) : Bytes :=
  match ic with
  | none => body
  | some cipher => sealInPlace cipher body start (body.length + gcmTagSize)

def parityRecord (ic : Option InnerCipher) (start : Nat) (lens : List Nat) (body : Bytes) : Bytes :=
  controlKindFecParity :: be32 start ++ [UInt8.ofNat lens.length] ++ lens.flatMap be32 ++
    sealBody ic body start

def FecEncoder.buildParity (encoder : FecEncoder) : Bytes :=
  parityRecord encoder.ic (encoder.seqs.headD 0) encoder.lens (encoder.acc.take encoder.activeLen)

def FecEncoder.arm (encoder : FecEncoder) (seq : Nat) : FecEncoder :=
  if encoder.armed then encoder
  else if seq = 0 ∨ (seq - 1) % encoder.k ≠ 0 then encoder
  else { encoder with armed := true }

def FecEncoder.push (encoder : FecEncoder) (seq : Nat) (data : Bytes) : FecEncoder :=
  { encoder with
    seqs := encoder.seqs ++ [seq]
    lens := encoder.lens ++ [data.length]
    acc := xorInto (extend encoder.acc data.length) data
    activeLen := max encoder.activeLen data.length }

def FecEncoder.add (encoder : FecEncoder) (seq : Nat) (data : Bytes) :
    FecEncoder × Option Bytes :=
  if data = [] ∨ encoder.multipath = false then (encoder, none) else
    let ready := encoder.arm seq
    if ready.armed = false then (ready, none) else
      let filled := ready.push seq data
      if filled.seqs.length < filled.k then (filled, none)
      else
        ({ filled with paritySent := saturatingAdd filled.paritySent 1 }.reset,
          some filled.buildParity)

end Encoder

section Groups

structure FecGroupState where
  k : Nat
  lens : List Nat
  gotMask : BitVec 64
  acc : Bytes
  parity : Option Bytes
  deriving DecidableEq

def FecGroupState.empty : FecGroupState := ⟨0, [], 0#64, [], none⟩

abbrev Groups := AList (fun _ : Nat => FecGroupState)

structure FecDecoderInner where
  groups : Groups
  done : Nat → Nat
  recovered : Nat
  lost : Nat

def doneSlot (start k : Nat) : Nat := (start - 1) / k &&& fecDoneMask

def isDone (done : Nat → Nat) (start k : Nat) : Bool :=
  start ≠ 0 && done (doneSlot start k) = start

def markDone (done : Nat → Nat) (start k : Nat) : Nat → Nat :=
  if start ≠ 0 then Function.update done (doneSlot start k) start else done

def makeSpace (groups : Groups) (start : Nat) : Groups :=
  if groups.keys.length ≥ fecMaxPendingGroups ∧ groups.lookup start = none then
    match groups.keys.min? with
    | some oldest => groups.erase oldest
    | none => groups
  else groups

/-- The map after eviction and the group it now holds at `start`. The caller
writes the group back, so the fresh one is inserted there. -/
def entry (groups : Groups) (start : Nat) : Groups × FecGroupState :=
  let room := makeSpace groups start
  (room, (room.lookup start).getD FecGroupState.empty)

def missingMembers (gotMask : BitVec 64) (k : Nat) : List Nat :=
  (List.range k).filter fun member => gotMask &&& bit member = 0#64

def finishGroup (inner : FecDecoderInner) (start k : Nat) (group : FecGroupState) :
    FecDecoderInner :=
  { inner with
    groups := inner.groups.erase start
    lost := inner.lost + (missingMembers group.gotMask group.k).length
    done := markDone inner.done start k }

def recoverFrame (group : FecGroupState) (parity : Bytes) (missing : Nat) : Bytes :=
  let length := group.lens.getD missing 0
  xorCombine (List.replicate length 0) parity (extend group.acc length)

def tryRecover (inner : FecDecoderInner) (start k : Nat) : FecDecoderInner × Delivered :=
  match inner.groups.lookup start with
  | none => (inner, [])
  | some group =>
    if group.k = 0 then (inner, []) else
      match group.parity with
      | none => (inner, [])
      | some parity =>
        match missingMembers group.gotMask group.k with
        | [] => (finishGroup inner start k group, [])
        | [missing] =>
          let finished := finishGroup inner start k
            { group with gotMask := group.gotMask ||| bit missing }
          ({ finished with recovered := finished.recovered + 1 },
            [(wrappingAdd start missing, recoverFrame group parity missing)])
        | _ => (inner, [])

def FecGroupState.absorb (group : FecGroupState) (member : Nat) (frame : Bytes) : FecGroupState :=
  { group with
    gotMask := group.gotMask ||| bit member
    acc := xorInto (extend group.acc frame.length) frame }

def groupStartOf (k seq : Nat) : Nat := seq - (seq - 1) % k

def onDataLocked (inner : FecDecoderInner) (k : Nat) (fullMask : BitVec 64) (seq : Nat)
    (frame : Bytes) : FecDecoderInner × Delivered :=
  let start := groupStartOf k seq
  if isDone inner.done start k then (inner, []) else
    let (room, group) := entry inner.groups start
    let member := seq - start
    if group.gotMask &&& bit member ≠ 0#64 then
      ({ inner with groups := room.insert start group }, [])
    else if group.gotMask ||| bit member = fullMask then
      ({ inner with
        groups := room.erase start
        done := markDone inner.done start k }, [])
    else
      tryRecover { inner with groups := room.insert start (group.absorb member frame) } start k

def storeParity (inner : FecDecoderInner) (k start : Nat) (lens : List Nat) (body : Bytes) :
    FecDecoderInner × Option Delivered :=
  let (room, group) := entry inner.groups start
  if group.parity.isSome then ({ inner with groups := room.insert start group }, none)
  else
    let result := tryRecover { inner with
      groups := room.insert start { group with k := k, lens := lens, parity := some body } } start k
    (result.1, some result.2)

def eraseAll (groups : Groups) (doomed : List Nat) : Groups :=
  doomed.foldl (fun rest start => rest.erase start) groups

end Groups

section Decoder

structure FecDecoder where
  k : Nat
  fullMask : BitVec 64
  staticSingle : Bool
  fence : FecRxFenceState
  cleanupBefore : Nat
  retiredBefore : Nat
  ic : Option InnerCipher
  inner : FecDecoderInner

def fullMaskOf (k : Nat) : BitVec 64 := if k = 64 then BitVec.allOnes 64 else bit k - 1#64

def FecDecoder.new (k : Nat) (ic : Option InnerCipher) : FecDecoder where
  k := clampFecGroup k
  fullMask := fullMaskOf (clampFecGroup k)
  staticSingle := false
  fence := FecRxFenceState.default
  cleanupBefore := 0
  retiredBefore := 0
  ic := ic
  inner := ⟨∅, fun _ => 0, 0, 0⟩

def FecDecoder.reset (decoder : FecDecoder) : FecDecoder :=
  { decoder with
    inner := { decoder.inner with groups := ∅, done := fun _ => 0 }
    cleanupBefore := 0
    retiredBefore := 0
    fence := FecRxFenceState.default }

def FecDecoder.setStaticSinglePath (decoder : FecDecoder) (single : Bool) : FecDecoder :=
  if !single then { decoder with staticSingle := false }
  else if decoder.staticSingle then decoder
  else { decoder with staticSingle := true }.reset

def atomicMax (current next : Nat) : Nat := if next = 0 then current else max current next

def dropGroupsInRange (groups : Groups) (windowFrom windowUntil : Nat) : Groups :=
  if windowFrom = 0 then groups else
    eraseAll groups (groups.keys.filter fun start =>
      windowFrom ≤ start && (windowUntil = 0 || start < windowUntil))

def FecDecoder.retireOldGroups (decoder : FecDecoder) (expected : Nat) : FecDecoder :=
  if expected = 0 ∨ expected < decoder.cleanupBefore then decoder else
    { decoder with
      retiredBefore := decoder.cleanupBefore
      inner := { decoder.inner with
        groups := eraseAll decoder.inner.groups
          (decoder.inner.groups.keys.filter fun start => start < decoder.cleanupBefore) } }

def FecDecoder.maybeRetireOldGroupsLocked (decoder : FecDecoder) (progress : Option Nat) :
    FecDecoder :=
  if decoder.cleanupBefore = 0 ∨ decoder.retiredBefore ≥ decoder.cleanupBefore then decoder else
    match progress with
    | none => decoder
    | some expected => decoder.retireOldGroups expected

def FecDecoder.handleModeControl (decoder : FecDecoder) (control : FecModeControl)
    (progress : Option Nat) : FecDecoder :=
  match decoder.fence.apply control with
  | none => decoder
  | some fence =>
    if fence.windowFrom = 0 then { decoder with fence := fence } else
      let dropped : FecDecoder :=
        { decoder with
          fence := fence
          cleanupBefore := atomicMax decoder.cleanupBefore fence.windowFrom
          inner := { decoder.inner with
            groups := dropGroupsInRange decoder.inner.groups fence.windowFrom
              fence.windowUntil } }
      dropped.maybeRetireOldGroupsLocked progress

/-- `on_data`. The tests repeated under the lock read what was just read. -/
def FecDecoder.onData (decoder : FecDecoder) (seq : Nat) (frame : Bytes)
    (progress : Option Nat) : FecDecoder × Delivered :=
  if frame = [] ∨ seq = 0 ∨ decoder.staticSingle then (decoder, [])
  else if decoder.fence.bypassData seq then
    if seq % 256 = 0 then (decoder.maybeRetireOldGroupsLocked progress, []) else (decoder, [])
  else if decoder.retiredBefore ≠ 0 ∧ seq < decoder.retiredBefore then (decoder, [])
  else
    let result := onDataLocked decoder.inner decoder.k decoder.fullMask seq frame
    ({ decoder with inner := result.1 }, result.2)

/-- The loop of `on_data_batch`, with the lock held and the reorder progress at
each frame's own moment. Each `continue` of the source is a call on the rest. -/
def FecDecoder.onDataBatchLoop :
    FecDecoder → List (Nat × Bytes × Option Nat) → FecDecoder × Delivered
  | decoder, [] => (decoder, [])
  | decoder, (seq, frame, progress) :: rest =>
    if seq = 0 ∨ frame = [] then decoder.onDataBatchLoop rest
    else if decoder.fence.bypassData seq then
      if seq % 256 = 0 then (decoder.maybeRetireOldGroupsLocked progress).onDataBatchLoop rest
      else decoder.onDataBatchLoop rest
    else if decoder.retiredBefore ≠ 0 ∧ seq < decoder.retiredBefore then
      decoder.onDataBatchLoop rest
    else
      let first := onDataLocked decoder.inner decoder.k decoder.fullMask seq frame
      let others := { decoder with inner := first.1 }.onDataBatchLoop rest
      (others.1, first.2 ++ others.2)

/-- `on_data_batch` looks at the static flag once. -/
def FecDecoder.onDataBatch (decoder : FecDecoder) (entries : List (Nat × Bytes × Option Nat)) :
    FecDecoder × Delivered :=
  if entries = [] ∨ decoder.staticSingle then (decoder, []) else decoder.onDataBatchLoop entries

def parityHeader (k : Nat) (payload : Bytes) : Except String Nat :=
  if payload.length < 7 ∨ byteAt payload 0 ≠ controlKindFecParity then
    .error "malformed FEC_PARITY header"
  else
    let start := readBe32 (payload.drop 1)
    let size := (byteAt payload 5).toNat
    if start = 0 ∨ size ≠ k ∨ (start - 1) % k ≠ 0 then
      .error ("invalid FEC_PARITY start=" ++ toString start ++ " k=" ++ toString size)
    else .ok start

def readLens (payload : Bytes) (tag room : Nat) : Nat → Nat → Except String (List Nat)
  | 0, _ => .ok []
  | count + 1, index =>
    let length := readBe32 (payload.drop (6 + 4 * index))
    if length + tag > room then .error "invalid FEC_PARITY member length" else
      match readLens payload tag room count (index + 1) with
      | .ok rest => .ok (length :: rest)
      | .error message => .error message

def openBody (ic : Option InnerCipher) (body : Bytes) (start maxLen : Nat) :
    Except String Bytes :=
  match ic with
  | none => .ok (body.take maxLen)
  | some cipher =>
    match openTo cipher maxLen (body.take (maxLen + gcmTagSize)) start
        (gcmAad (maxLen + gcmTagSize) start) with
    | some plain => .ok plain
    | none => .error "FEC_PARITY AEAD failure"

def readParity (ic : Option InnerCipher) (k : Nat) (payload : Bytes) (start : Nat) :
    Except String (List Nat × Bytes) :=
  let descLen := 6 + 4 * k
  let tag := tagLen ic
  if payload.length < descLen + tag then .error "truncated FEC_PARITY descriptor/body" else
    match readLens payload tag (payload.length - descLen) k 0 with
    | .error message => .error message
    | .ok lens =>
      match openBody ic (payload.drop descLen) start (lens.foldl max 0) with
      | .error message => .error message
      | .ok body => .ok (lens, body)

/-- `on_parity_strict`. `before` and `after` are the reorder progress at its two
cleanup points. -/
def FecDecoder.onParityStrict (decoder : FecDecoder) (payload : Bytes)
    (before after : Option Nat) : FecDecoder × Except String Delivered :=
  if decoder.staticSingle then (decoder, .ok []) else
    match parityHeader decoder.k payload with
    | .error message => (decoder, .error message)
    | .ok start =>
      let cleaned := decoder.maybeRetireOldGroupsLocked before
      if cleaned.retiredBefore ≠ 0 ∧ start < cleaned.retiredBefore then (cleaned, .ok []) else
        match readParity cleaned.ic cleaned.k payload start with
        | .error message => (cleaned, .error message)
        | .ok (lens, body) =>
          if isDone cleaned.inner.done start cleaned.k then (cleaned, .ok []) else
            match storeParity cleaned.inner cleaned.k start lens body with
            | (inner, none) => ({ cleaned with inner := inner }, .ok [])
            | (inner, some out) =>
              ({ cleaned with inner := inner }.maybeRetireOldGroupsLocked after, .ok out)

def FecDecoder.onControl (decoder : FecDecoder) (payload : Bytes) (before after : Option Nat) :
    FecDecoder × Except String Delivered :=
  match controlKind payload with
  | .error message => (decoder, .error message)
  | .ok kind =>
    if kind = controlKindFecParity then decoder.onParityStrict payload before after
    else
      match FecModeControl.parse payload with
      | .error message => (decoder, .error message)
      | .ok control => (decoder.handleModeControl control after, .ok [])

end Decoder

section Actor

def FecDecoder.maybeRetireOldGroupsActor (decoder : FecDecoder) (expected : Nat) : FecDecoder :=
  if decoder.cleanupBefore = 0 ∨ decoder.retiredBefore ≥ decoder.cleanupBefore then decoder
  else decoder.retireOldGroups expected

def FecDecoder.handleModeControlActor (decoder : FecDecoder) (control : FecModeControl)
    (expected : Nat) : FecDecoder :=
  match decoder.fence.applyActor control with
  | none => decoder
  | some fence =>
    if fence.windowFrom = 0 then { decoder with fence := fence } else
      let dropped : FecDecoder :=
        { decoder with
          fence := fence
          cleanupBefore := atomicMax decoder.cleanupBefore fence.windowFrom
          inner := { decoder.inner with
            groups := dropGroupsInRange decoder.inner.groups fence.windowFrom
              fence.windowUntil } }
      dropped.maybeRetireOldGroupsActor expected

/-- `on_data_actor`, which repeats the body of `on_data_locked` and keeps the
last frame handed to its local callback. -/
def FecDecoder.onDataActor (decoder : FecDecoder) (seq : Nat) (frame : Bytes) (expected : Nat) :
    FecDecoder × Option (Nat × Bytes) :=
  if frame = [] ∨ seq = 0 ∨ decoder.staticSingle then (decoder, none)
  else if decoder.fence.bypassData seq then
    if seq % 256 = 0 then (decoder.maybeRetireOldGroupsActor expected, none) else (decoder, none)
  else if decoder.retiredBefore ≠ 0 ∧ seq < decoder.retiredBefore then (decoder, none)
  else
    let start := seq - (seq - 1) % decoder.k
    let inner := decoder.inner
    if isDone inner.done start decoder.k then (decoder, none) else
      let (room, group) := entry inner.groups start
      let member := seq - start
      if group.gotMask &&& bit member ≠ 0#64 then
        ({ decoder with inner := { inner with groups := room.insert start group } }, none)
      else if group.gotMask ||| bit member = decoder.fullMask then
        ({ decoder with
          inner := { inner with
            groups := room.erase start
            done := markDone inner.done start decoder.k } }, none)
      else
        let result := tryRecover
          { inner with groups := room.insert start (group.absorb member frame) } start decoder.k
        ({ decoder with inner := result.1 }, result.2.getLast?)

def FecDecoder.onParityActor (decoder : FecDecoder) (payload : Bytes) (expected : Nat) :
    FecDecoder × Except String (Option (Nat × Bytes)) :=
  if decoder.staticSingle then (decoder, .ok none) else
    match parityHeader decoder.k payload with
    | .error message => (decoder, .error message)
    | .ok start =>
      let cleaned := decoder.maybeRetireOldGroupsActor expected
      if cleaned.retiredBefore ≠ 0 ∧ start < cleaned.retiredBefore then (cleaned, .ok none) else
        match readParity cleaned.ic cleaned.k payload start with
        | .error message => (cleaned, .error message)
        | .ok (lens, body) =>
          if isDone cleaned.inner.done start cleaned.k then (cleaned, .ok none) else
            match storeParity cleaned.inner cleaned.k start lens body with
            | (inner, none) => ({ cleaned with inner := inner }, .ok none)
            | (inner, some out) =>
              ({ cleaned with inner := inner }.maybeRetireOldGroupsActor expected,
                .ok out.getLast?)

def FecDecoder.onControlActor (decoder : FecDecoder) (payload : Bytes) (expected : Nat) :
    FecDecoder × Except String (Option (Nat × Bytes)) :=
  match controlKind payload with
  | .error message => (decoder, .error message)
  | .ok kind =>
    if kind = controlKindFecParity then decoder.onParityActor payload expected
    else
      match FecModeControl.parse payload with
      | .error message => (decoder, .error message)
      | .ok control => (decoder.handleModeControlActor control expected, .ok none)

end Actor

end TlsVpn.Fec

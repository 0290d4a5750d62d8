import TlsVpn.FecSoundness

/-!
The decoder has two sets of entry points: the locked ones of the direct path,
which ask a callback for the reorder progress, and the actor's, which are given
it. They repeat each other's code; here one is run against the other. The locked
batch call takes the lock once and repeats the tests of the single call in a
loop of its own.
-/

namespace TlsVpn.Fec

open Words XorBytes Protocol

section Calls

inductive Record where
  | data (seq : Nat) (frame : Bytes)
  | control (payload : Bytes)

abbrev Call := Record × Nat

def actorCall (decoder : FecDecoder) : Call → FecDecoder × Except String Delivered
  | (.data seq frame, expected) =>
    let result := decoder.onDataActor seq frame expected
    (result.1, .ok result.2.toList)
  | (.control payload, expected) =>
    let result := decoder.onControlActor payload expected
    (result.1, result.2.map Option.toList)

def lockedCall (decoder : FecDecoder) : Call → FecDecoder × Except String Delivered
  | (.data seq frame, expected) =>
    let result := decoder.onData seq frame (some expected)
    (result.1, .ok result.2)
  | (.control payload, expected) => decoder.onControl payload (some expected) (some expected)

def answers (call : FecDecoder → Call → FecDecoder × Except String Delivered) :
    FecDecoder → List Call → FecDecoder × List (Except String Delivered)
  | decoder, [] => (decoder, [])
  | decoder, input :: rest =>
    let first := call decoder input
    let others := answers call first.1 rest
    (others.1, first.2 :: others.2)

theorem map_getLast_toList {result : Except String Delivered}
    (short : (framesOf result).length ≤ 1) :
    (result.map List.getLast?).map Option.toList = result := by
  cases result with
  | error message => rfl
  | ok out => exact congrArg Except.ok (getLast_toList_of_short out short)

theorem actorCall_eq (decoder : FecDecoder) (call : Call) :
    actorCall decoder call = lockedCall decoder call := by
  obtain ⟨record, expected⟩ := call
  cases record with
  | data seq frame =>
    simp only [actorCall, lockedCall, onDataActor_eq]
    rw [getLast_toList_of_short _ (onData_short decoder seq frame (some expected))]
  | control payload =>
    simp only [actorCall, lockedCall, onControlActor_eq]
    rw [map_getLast_toList (onControl_short decoder payload (some expected) (some expected))]

theorem answers_congr {call other : FecDecoder → Call → FecDecoder × Except String Delivered}
    (same : ∀ decoder input, call decoder input = other decoder input) (decoder : FecDecoder)
    (inputs : List Call) : answers call decoder inputs = answers other decoder inputs := by
  induction inputs generalizing decoder with
  | nil => rfl
  | cons input rest ih => simp only [answers, same, ih]

end Calls

/-- The two decoders are one: from any state, on any records and at any reorder
progress, every call of one returns what the call of the other returns and
leaves the same decoder; and a batch is its frames one by one. -/
theorem actor_matches_locked (decoder : FecDecoder) :
    (∀ calls : List Call, answers actorCall decoder calls = answers lockedCall decoder calls) ∧
      ∀ entries : List (Nat × Bytes × Option Nat),
        decoder.onDataBatch entries = decoder.onDataEach entries := by
  constructor
  · intro calls
    exact answers_congr actorCall_eq decoder calls
  · intro entries
    exact onDataBatch_eq decoder entries

end TlsVpn.Fec

import TlsVpn.PortLedger

/-!
What a connection does with the batches it drains from its backend, at either
end: the frames with a number and a payload are sealed with the cipher at hand,
which stands here as the salt it was keyed with, and the others are sent in the
clear. A sealed frame was numbered in the drain's own round if the queue held
nothing newer.
-/

namespace TlsVpn.Port

open Words XorBytes Fec Holdings

section Drain

/-- A salt of `ENC_SALT_SIZE` bytes. -/
abbrev Salt := BitVec 64

def isInnerAeadAlgo (algo : Nat) : Bool := algo = 2 || algo = 4 || algo = 5 || algo = 6

structure Sealing where
  salt : Salt
  frame : VpnFrame
  deriving DecidableEq

def streamTlsBatchSoftLimit : Nat := 12288

def maxTlsPlaintextRecord : Nat := 16384

def streamPadAbsoluteLimit : Nat := 512

def wireLength (icTx : Option Salt) (frame : VpnFrame) : Nat :=
  10 + frame.data.length +
    if frame.seq ≠ 0 ∧ frame.data.length > 0 ∧ icTx.isSome then gcmTagSize else 0

def sealBatch (icTx : Option Salt) (frames : List VpnFrame) : List Sealing :=
  match icTx with
  | none => []
  | some salt =>
    (frames.filter fun frame => frame.seq ≠ 0 ∧ frame.data.length > 0).map fun frame =>
      ⟨salt, frame⟩

def AsyncPort.nextFrames (port : AsyncPort) (backend : Option Nat) : List VpnFrame :=
  match backend.bind fun target => port.backends[target]? with
  | some backend => (backend.queue.batches.head?.map VpnFrameBatch.frames).getD []
  | none => []

def isCall : WriteLabel → Bool
  | .register _ _ => false
  | .unregister _ => false
  | _ => true

end Drain

section Sealed

variable {port : AsyncPort} {target : Nat} {backend : Backend} {batch : VpnFrameBatch}
  {rest : OwnedBatchQueue} {budget : Nat}

theorem sealBatch_keys (icTx : Option Salt) (frames : List VpnFrame) :
    (held (fun entry => entry.frame.keys) (sealBatch icTx frames)).Sublist
      (held VpnFrame.keys frames) := by
  unfold sealBatch
  split
  · exact List.nil_sublist _
  · unfold held
    rw [List.flatMap_map]
    exact List.filter_sublist.flatMap _

theorem sealBatch_mem {icTx : Option Salt} {frames : List VpnFrame} {entry : Sealing}
    (present : entry ∈ sealBatch icTx frames) :
    icTx = some entry.salt ∧ entry.frame ∈ frames ∧ entry.frame.seq ≠ 0 := by
  unfold sealBatch at present
  split at present
  · cases present
  · obtain ⟨frame, kept, rfl⟩ := List.mem_map.mp present
    obtain ⟨member, numbered⟩ := List.mem_filter.mp kept
    exact ⟨rfl, member, (of_decide_eq_true numbered).1⟩

theorem popped_next (there : port.backends[target]? = some backend)
    (popped : backend.queue.tryPopFitting budget = some (batch, rest)) :
    port.nextFrames (some target) = batch.frames := by
  have front : backend.queue.batches.head? = some batch := by
    unfold OwnedBatchQueue.tryPopFitting at popped
    split at popped
    · cases popped
    · rename_i front tail shape
      split at popped
      · cases popped
      · cases popped
        rw [shape]
        rfl
  simp only [AsyncPort.nextFrames, Option.bind_some, there, front, Option.map_some,
    Option.getD_some]

theorem Ledger.seal {sealed : List Sealing}
    (ledger : Ledger port (held (fun entry => entry.frame.keys) sealed))
    (there : port.backends[target]? = some backend)
    (popped : backend.queue.tryPopFitting budget = some (batch, rest)) (icTx : Option Salt) :
    Ledger { port with backends := port.backends.set target { backend with queue := rest } }
      (held (fun entry => entry.frame.keys) (sealed ++ sealBatch icTx batch.frames)) := by
  have drained := ledger.drain target backend batch rest budget there popped
  refine drained.fewer ?_ (Or.inr ⟨rfl, Nat.le_refl _⟩)
  rw [held_append]
  exact (((sealBatch_keys icTx batch.frames).append_left _).append_left _).subperm

theorem Floor.sealed {round : Nat} (floor : Floor port target round)
    (there : port.backends[target]? = some backend)
    (popped : backend.queue.tryPopFitting budget = some (batch, rest)) {icTx : Option Salt}
    (own : ∀ frame ∈ port.nextFrames (some target), frame.seq ≠ 0 → frame.round ≤ round)
    (entry : Sealing) (present : entry ∈ sealBatch icTx batch.frames) :
    icTx = some entry.salt ∧ entry.frame.seq ≠ 0 ∧ entry.frame.round = round := by
  obtain ⟨salt, member, numbered⟩ := sealBatch_mem present
  have atMost := own entry.frame (popped_next there popped ▸ member) numbered
  have atLeast := floor.drained backend batch rest budget there popped entry.frame member numbered
  exact ⟨salt, numbered, Nat.le_antisymm atMost atLeast⟩

end Sealed

end TlsVpn.Port

import TlsVpn.PortQueues
import TlsVpn.Scheduler

/-!
What a write sees of a port's backends. The `Vec` behind the lock is the list of
positions that are registered, oldest first. `Load` is what the scheduler reads
besides the queues.
-/

namespace TlsVpn.Port

open Words XorBytes Protocol Fec Holdings

section Backends

/-- What `pick` loads of a backend besides its queue. -/
structure Telemetry where
  rttUs : UInt32
  queuedBytes : Nat
  active : Bool
  carryPending : Bool
  virtualFinishNs : Int

structure Load where
  telemetry : Nat → Telemetry
  demandRate : Nat

def live (backends : List Backend) : List Nat :=
  (List.range backends.length).filter fun position => backends[position]?.any Backend.registered

def healthyAt (backends : List Backend) (position : Nat) : Bool :=
  backends[position]?.any Backend.healthy

def reading (backends : List Backend) (load : Load) (position : Nat) : Scheduler.Reading where
  rttUs := (load.telemetry position).rttUs
  -- the scheduler asks the queue itself, not the hint
  queueLen := backends[position]?.elim 0 fun backend => backend.queue.frames
  queueCapacity := backends[position]?.elim 0 fun backend => backend.queue.capacityFrames
  queuedBytes := (load.telemetry position).queuedBytes
  active := (load.telemetry position).active
  carryPending := (load.telemetry position).carryPending
  virtualFinishNs := (load.telemetry position).virtualFinishNs

theorem pushLocked_all (queue : OwnedBatchQueue) (frame : VpnFrame) :
    (queue.pushLocked frame).all = queue.all ++ [frame] :=
  pushBatch_all queue.batches frame frame.data.length queue.maxBatchFrames

theorem mem_live {backends : List Backend} {position : Nat} :
    position ∈ live backends ↔
      ∃ backend, backends[position]? = some backend ∧ backend.registered = true := by
  unfold live
  rw [List.mem_filter, List.mem_range, Option.any_eq_true]
  constructor
  · rintro ⟨_, backend, there, registered⟩
    exact ⟨backend, there, registered⟩
  · rintro ⟨backend, there, registered⟩
    exact ⟨(List.getElem?_eq_some_iff.mp there).1, backend, there, registered⟩

end Backends

end TlsVpn.Port

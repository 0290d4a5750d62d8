import TlsVpn.Places
import TlsVpn.Words

/-!
The path choice of adaptive_multipath.rs: how many paths of a port are active
and which of them takes the next payload. A `Reading` is what `pick` loads of one
backend: its queue, its RTT and the scheduler's counters, which the connections
update on their own threads. What `pick` stores back is again only read by a
later `pick`, whose readings are arbitrary here, and by the web interface.
-/

namespace TlsVpn.Scheduler

open Words Places

section Choice

def active2Pressure : Nat := 24 * 1024

def active3Pressure : Nat := 96 * 1024

def active4Pressure : Nat := 256 * 1024

def fallbackRateBytesPerSec : Nat := 25000000

def active2RateBytesPerSec : Nat := 40000000

def active3RateBytesPerSec : Nat := 100000000

def active4RateBytesPerSec : Nat := 180000000

def carryBonusUs : Nat := 150

def stickyMinUs : Nat := 500

def stickyMaxUs : Nat := 5000

def rttHysteresisMinUs : Nat := 5000

def unknownRttUs : Nat := 50000

structure Reading where
  rttUs : UInt32
  queueLen : Nat
  queueCapacity : Nat
  queuedBytes : Nat
  active : Bool
  carryPending : Bool
  virtualFinishNs : Int

def Reading.healthy (backend : Reading) : Bool :=
  decide (backend.queueCapacity > 2) && decide (backend.queueLen < backend.queueCapacity - 2)

def Reading.rtt (backend : Reading) : Nat :=
  if backend.rttUs = 0 then unknownRttUs else backend.rttUs.toNat

def serviceUs (bytes rate : Nat) : Nat :=
  if bytes = 0 then 0 else min (bytes * 1000000) u64Max / max rate 1

def i64Max : Int := 9223372036854775807

def serviceNs (bytes rate : Nat) : Int :=
  if bytes = 0 then 0 else min (min (bytes * 1000000000) u64Max / max rate 1 : Nat) i64Max

def activeTarget (pressure demandRate eligible : Nat) : Nat :=
  if eligible = 0 then 0
  else
    let want :=
      if pressure ≥ active4Pressure ∨ demandRate ≥ active4RateBytesPerSec then 4
      else if pressure ≥ active3Pressure ∨ demandRate ≥ active3RateBytesPerSec then 3
      else if pressure ≥ active2Pressure ∨ demandRate ≥ active2RateBytesPerSec then 2
      else 1
    min want eligible

structure Candidate where
  idx : Nat
  baseUs : Nat
  rttUs : Nat
  wasActive : Bool
  virtualNs : Int

def minRtt (backends : List Reading) : Nat :=
  (backends.filter Reading.healthy).foldl (fun least backend => min least backend.rtt) u32Max

def candidate (maxRtt incomingBytes : Nat) (entry : Reading × Nat) : Option Candidate :=
  if entry.1.healthy = false ∨ entry.1.rtt > maxRtt then none
  else
    some
      { idx := entry.2
        baseUs := entry.1.rtt / 2 + serviceUs incomingBytes fallbackRateBytesPerSec
        rttUs := entry.1.rtt
        wasActive := entry.1.active
        virtualNs := entry.1.virtualFinishNs }

def candidates (backends : List Reading) (maxRtt incomingBytes : Nat) : List Candidate :=
  backends.zipIdx.filterMap (candidate maxRtt incomingBytes)

/-- The order of `sort_by_key(|c| (c.base_us, c.rtt_us, c.idx))`. -/
def Candidate.before (left right : Candidate) : Prop :=
  left.baseUs < right.baseUs ∨
    left.baseUs = right.baseUs ∧ (left.rttUs < right.rttUs ∨
      left.rttUs = right.rttUs ∧ left.idx ≤ right.idx)

instance : DecidableRel Candidate.before := fun left right => by
  unfold Candidate.before
  infer_instance

def sticky (first : Candidate) (cands : List Candidate) (preferred : Option Nat) : Nat :=
  match preferred with
  | none => first.idx
  | some current =>
    if current = first.idx then first.idx
    else
      match cands.find? fun cand => cand.idx == current with
      | none => first.idx
      | some cand =>
        let slack := max stickyMinUs (min (cand.rttUs / 16) stickyMaxUs)
        if cand.baseUs ≤ saturatingAdd first.baseUs slack then current else first.idx

/-- `i64` arithmetic of a release build. -/
def wrapI64 (value : Int) : Int := value.bmod 18446744073709551616

def saturatingSubI64 (left right : Int) : Int := max (-i64Max - 1) (min (left - right) i64Max)

def epoch (active : List Candidate) : Int :=
  (((active.filter Candidate.wasActive).map Candidate.virtualNs).min?).getD 0

def better (score : Candidate → Int) (chosen cand : Candidate) : Candidate :=
  if score cand < score chosen ∨ score cand = score chosen ∧ cand.rttUs < chosen.rttUs then cand
  else chosen

end Choice

section Health

variable {backends : List Reading}

theorem candidates_nonempty (incomingBytes slack : Nat) (measured : minRtt backends ≠ u32Max) :
    candidates backends (minRtt backends + slack) incomingBytes ≠ [] := by
  rcases foldl_min_attained Reading.rtt (backends.filter Reading.healthy) u32Max with
    none | ⟨backend, found, least⟩
  · exact absurd none measured
  · obtain ⟨present, healthy⟩ := List.mem_filter.mp found
    obtain ⟨index, there⟩ := List.mem_iff_getElem?.mp present
    have within : backend.rtt ≤ minRtt backends + slack :=
      (Nat.le_of_eq least.symm).trans (Nat.le_add_right _ _)
    have admitted : ¬ (backend.healthy = false ∨ backend.rtt > minRtt backends + slack) := by
      rintro (sick | far)
      · rw [healthy] at sick
        cases sick
      · exact absurd far (Nat.not_lt.mpr within)
    exact List.ne_nil_of_mem (List.mem_filterMap.mpr
      ⟨(backend, index), List.mem_zipIdx_iff_getElem?.mpr there, if_neg admitted⟩)

theorem sticky_listed (first : Candidate) (cands : List Candidate) (preferred : Option Nat)
    (listed : first ∈ cands) : ∃ cand ∈ cands, cand.idx = sticky first cands preferred := by
  unfold sticky
  split
  · exact ⟨first, listed, rfl⟩
  · split
    · exact ⟨first, listed, rfl⟩
    · split
      · exact ⟨first, listed, rfl⟩
      · rename_i current _ _ cand found
        dsimp only
        split
        · have same := List.find?_some found
          exact ⟨cand, List.mem_of_find?_eq_some found, by simpa using same⟩
        · exact ⟨first, listed, rfl⟩

theorem better_listed (score : Candidate → Int) (rest cands : List Candidate)
    (part : ∀ cand ∈ rest, cand ∈ cands) (first : Candidate) (listed : first ∈ cands) :
    rest.foldl (better score) first ∈ cands := by
  induction rest generalizing first with
  | nil => exact listed
  | cons cand rest ih =>
    apply ih (fun other present => part other (List.mem_cons_of_mem cand present))
    unfold better
    split
    · exact part cand List.mem_cons_self
    · exact listed

end Health

end TlsVpn.Scheduler

import TlsVpn.Scheduler

/-!
`pick` with everything it stores: the ETA, the active flag and the virtual finish
time of each path, and the port's pressure and number of active paths. Another
thread may change a path's queue, RTT, rate and carry flag between two calls, but
a call runs on its own. The demand rate that `observe_input_demand` returns is a
parameter. What a call leaves behind does not depend on what it found: the active
paths are the first ones of the candidates, and every other path is at rest.
-/

namespace TlsVpn.Scheduler

open Words Places

section Model

/-- A backend's scheduler state, with what `pick` reads of its queue. -/
structure Path extends Reading where
  rateBytesPerSec : Nat
  etaUs : Nat

structure AdaptivePort where
  paths : List Path
  activePaths : Nat
  pressureBytes : Nat

def readings (paths : List Path) : List Reading := paths.map Path.toReading

def rttSlack (least : Nat) : Nat := max rttHysteresisMinUs (least / 4)

def Path.rests (path : Path) : Path := { path with active := false, virtualFinishNs := 0 }

def Path.only (chosen index : Nat) (path : Path) : Path :=
  { path with active := index == chosen, virtualFinishNs := 0 }

def referenceRate (paths : List Path) (maxRtt : Nat) : Nat :=
  paths.foldl (fun best path =>
    if path.rtt ≤ maxRtt then max best path.rateBytesPerSec else best) fallbackRateBytesPerSec

def wrapU64 (value : Nat) : Nat := value % 18446744073709551616

def Path.eta (path : Path) (reference incomingBytes : Nat) : Nat :=
  let rate := if path.rateBytesPerSec = 0 then reference else path.rateBytesPerSec
  let eta := wrapU64 (path.rtt / 2 +
    serviceUs (saturatingAdd path.queuedBytes incomingBytes) (max rate 1))
  if path.carryPending ∧ eta > carryBonusUs then eta - carryBonusUs else eta

def Path.screen (maxRtt reference incomingBytes : Nat) (path : Path) : Path :=
  let timed := { path with etaUs := path.eta reference incomingBytes }
  if path.healthy = false ∨ path.rtt > maxRtt then timed.rests else timed

def Path.join (start : Int) (active : Nat) (entry : Candidate × Nat) (path : Path) : Path :=
  if entry.2 ≥ active then path.rests
  else
    { path with
      virtualFinishNs := if entry.1.wasActive then path.virtualFinishNs else start
      active := true }

def Path.charge (amount : Int) (path : Path) : Path :=
  { path with virtualFinishNs := wrapI64 (path.virtualFinishNs + amount) }

def virtualAt (paths : List Path) (index : Nat) : Int :=
  paths[index]?.elim 0 fun path => path.virtualFinishNs

def admitAll (paths : List Path) (cands : List Candidate) (active : Nat) : List Path :=
  modifyAll (fun entry => entry.1.idx) (Path.join (epoch (cands.take active)) active) paths
    cands.zipIdx

def minVirtual (paths : List Path) (cands : List Candidate) : Int :=
  cands.foldl (fun least cand => min least (virtualAt paths cand.idx)) i64Max

def renormalise (paths : List Path) (active : List Candidate) : List Path :=
  let least := minVirtual paths active
  if least ≠ 0 ∧ least ≠ i64Max then
    modifyAll Candidate.idx (fun _ => Path.charge (-least)) paths active
  else paths

def Path.score (path : Path) : Int :=
  let value := wrapI64 (path.virtualFinishNs +
    serviceNs path.queuedBytes fallbackRateBytesPerSec)
  if path.carryPending then saturatingSubI64 value (carryBonusUs * 1000 : Nat) else value

def scoreAt (paths : List Path) (cand : Candidate) : Int := paths[cand.idx]?.elim 0 Path.score

def leveled (paths : List Path) (cands : List Candidate) (active : Nat) : List Path :=
  renormalise (admitAll paths cands active) (cands.take active)

def bestOf (level : List Path) (first : Candidate) (active : List Candidate) : Candidate :=
  active.tail.foldl (better (scoreAt level)) first

def stripe (paths : List Path) (first : Candidate) (cands : List Candidate)
    (active incomingBytes : Nat) : Nat × List Path :=
  let level := leveled paths cands active
  let chosen := bestOf level first (cands.take active)
  (chosen.idx,
    level.modify chosen.idx (Path.charge (serviceNs incomingBytes fallbackRateBytesPerSec)))

def pressure (backends : List Reading) (incomingBytes : Nat) : Nat :=
  backends.foldl (fun total backend => saturatingAdd total backend.queuedBytes) incomingBytes

def ranked (backends : List Reading) (incomingBytes : Nat) : List Candidate :=
  (candidates backends (minRtt backends + rttSlack (minRtt backends))
    incomingBytes).insertionSort Candidate.before

def AdaptivePort.pick (port : AdaptivePort) (preferred : Option Nat)
    (incomingBytes demandRate : Nat) : Option Nat × AdaptivePort :=
  if port.paths = [] then (none, { port with activePaths := 0 })
  else
    let backends := readings port.paths
    let pressed := { port with pressureBytes := pressure backends incomingBytes }
    let least := minRtt backends
    if least = u32Max then
      (some 0, { pressed with paths := port.paths.mapIdx (Path.only 0), activePaths := 1 })
    else
      let maxRtt := least + rttSlack least
      let screened := port.paths.map
        (Path.screen maxRtt (referenceRate port.paths maxRtt) incomingBytes)
      match ranked backends incomingBytes with
      | [] =>
        (some ((preferred.filter fun index => decide (index < port.paths.length)).getD 0),
          { pressed with paths := screened, activePaths := 1 })
      | first :: rest =>
        let cands := first :: rest
        let active := activeTarget (pressure backends incomingBytes) demandRate cands.length
        if active = 1 then
          let chosen := sticky first cands preferred
          (some chosen,
            { pressed with paths := screened.mapIdx (Path.only chosen), activePaths := 1 })
        else
          let striped := stripe screened first cands active incomingBytes
          (some striped.1, { pressed with paths := striped.2, activePaths := active })

end Model

section Candidates

variable {backends : List Reading} {incomingBytes : Nat}

structure Reads (backends : List Reading) (cand : Candidate) (backend : Reading) : Prop where
  there : backends[cand.idx]? = some backend
  healthy : backend.healthy = true
  near : backend.rtt ≤ minRtt backends + rttSlack (minRtt backends)
  wasActive : cand.wasActive = backend.active
  virtualNs : cand.virtualNs = backend.virtualFinishNs

variable {cand : Candidate}

theorem mem_ranked :
    cand ∈ ranked backends incomingBytes ↔
      cand ∈ candidates backends (minRtt backends + rttSlack (minRtt backends)) incomingBytes :=
  List.mem_insertionSort _

theorem ranked_reads (listed : cand ∈ ranked backends incomingBytes) :
    ∃ backend, Reads backends cand backend := by
  obtain ⟨⟨backend, index⟩, present, made⟩ := List.mem_filterMap.mp (mem_ranked.mp listed)
  unfold candidate at made
  split at made
  · cases made
  · rename_i admitted
    cases made
    obtain ⟨healthy, near⟩ := not_or.mp admitted
    exact ⟨backend, List.mem_zipIdx_iff_getElem?.mp present, Bool.not_eq_false _ ▸ healthy,
      Nat.not_lt.mp near, rfl, rfl⟩

theorem ranked_complete {index : Nat} {backend : Reading} (there : backends[index]? = some backend)
    (absent : index ∉ (ranked backends incomingBytes).map Candidate.idx) :
    backend.healthy = false ∨ backend.rtt > minRtt backends + rttSlack (minRtt backends) := by
  by_contra admitted
  refine absent (List.mem_map.mpr ⟨_, mem_ranked.mpr (List.mem_filterMap.mpr
    ⟨(backend, index), List.mem_zipIdx_iff_getElem?.mpr there, if_neg admitted⟩), rfl⟩)

theorem candidates_distinct (maxRtt : Nat) :
    ((candidates backends maxRtt incomingBytes).map Candidate.idx).Nodup := by
  have indexes : (backends.zipIdx.map Prod.snd).Nodup := by
    rw [List.zipIdx_map_snd]
    exact List.nodup_range'
  rw [List.Nodup, List.pairwise_map] at indexes ⊢
  unfold candidates
  rw [List.pairwise_filterMap]
  refine indexes.imp ?_
  intro left right apart first made second later
  unfold candidate at made later
  split at made
  · cases made
  · split at later
    · cases later
    · cases made
      cases later
      exact apart

theorem ranked_distinct (backends : List Reading) (incomingBytes : Nat) :
    ((ranked backends incomingBytes).map Candidate.idx).Nodup :=
  ((List.perm_insertionSort Candidate.before _).map Candidate.idx).nodup_iff.mpr
    (candidates_distinct _)

theorem minRtt_le {other : Reading} (present : other ∈ backends) (healthy : other.healthy = true) :
    minRtt backends ≤ other.rtt :=
  foldl_min_le_of_mem Reading.rtt u32Max (List.mem_filter.mpr ⟨present, healthy⟩)

theorem minRtt_healthy (measured : minRtt backends ≠ u32Max) :
    ∃ least ∈ backends, least.healthy = true ∧ least.rtt = minRtt backends := by
  rcases foldl_min_attained Reading.rtt (backends.filter Reading.healthy) u32Max with
    none | ⟨least, found, same⟩
  · exact absurd none measured
  · obtain ⟨present, healthy⟩ := List.mem_filter.mp found
    exact ⟨least, present, healthy, same.symm⟩

theorem ranked_nonempty (incomingBytes : Nat) (measured : minRtt backends ≠ u32Max) :
    ranked backends incomingBytes ≠ [] := by
  intro none
  have empty := (List.perm_insertionSort Candidate.before (candidates backends
    (minRtt backends + rttSlack (minRtt backends)) incomingBytes)).symm
  unfold ranked at none
  rw [none] at empty
  exact candidates_nonempty incomingBytes (rttSlack (minRtt backends)) measured empty.eq_nil

end Candidates

section Levels

variable {paths : List Path} {cands : List Candidate} {active : Nat}

def leveling (least : Int) (value : Int) : Int :=
  if least ≠ 0 ∧ least ≠ i64Max then wrapI64 (value - least) else value

variable {cand : Candidate} {index : Nat}

theorem mem_take_ranked (listed : cand ∈ cands.take active) :
    ∃ rank < active, (cand, rank) ∈ cands.zipIdx := by
  obtain ⟨rank, there⟩ := List.mem_iff_getElem?.mp listed
  rw [List.getElem?_take] at there
  split at there
  · rename_i below
    exact ⟨rank, below, List.mem_zipIdx_iff_getElem?.mpr there⟩
  · cases there

theorem zipIdx_distinct (distinct : (cands.map Candidate.idx).Nodup) :
    (cands.zipIdx.map fun entry => entry.1.idx).Nodup := by
  have same : (cands.zipIdx.map fun entry => entry.1.idx) =
      (cands.zipIdx.map Prod.fst).map Candidate.idx := by
    rw [List.map_map]
    rfl
  rw [same, List.zipIdx_map_fst]
  exact distinct

theorem admitAll_active (paths : List Path) (distinct : (cands.map Candidate.idx).Nodup)
    (listed : cand ∈ cands.take active) :
    (admitAll paths cands active)[cand.idx]? = paths[cand.idx]?.map fun path =>
      { path with
        virtualFinishNs := if cand.wasActive then path.virtualFinishNs
          else epoch (cands.take active)
        active := true } := by
  obtain ⟨rank, below, entry⟩ := mem_take_ranked listed
  have hit : (admitAll paths cands active)[cand.idx]? =
      paths[cand.idx]?.map (Path.join (epoch (cands.take active)) active (cand, rank)) :=
    getElem?_modifyAll_hit cands.zipIdx paths (zipIdx_distinct distinct) entry
  refine hit.trans (congrArg (Option.map · paths[cand.idx]?) ?_)
  funext path
  exact if_neg (Nat.not_le.mpr below)

theorem admitAll_beyond (distinct : (cands.map Candidate.idx).Nodup) (listed : cand ∈ cands)
    (beyond : cand ∉ cands.take active) :
    (admitAll paths cands active)[cand.idx]? = paths[cand.idx]?.map Path.rests := by
  obtain ⟨rank, there⟩ := List.mem_iff_getElem?.mp listed
  have entry : (cand, rank) ∈ cands.zipIdx := List.mem_zipIdx_iff_getElem?.mpr there
  have late : active ≤ rank := by
    by_contra early
    refine beyond (List.mem_iff_getElem?.mpr ⟨rank, ?_⟩)
    rw [List.getElem?_take, if_pos (Nat.not_le.mp early)]
    exact there
  have hit : (admitAll paths cands active)[cand.idx]? =
      paths[cand.idx]?.map (Path.join (epoch (cands.take active)) active (cand, rank)) :=
    getElem?_modifyAll_hit cands.zipIdx paths (zipIdx_distinct distinct) entry
  refine hit.trans (congrArg (Option.map · paths[cand.idx]?) ?_)
  funext path
  exact if_pos late

theorem admitAll_other (absent : index ∉ cands.map Candidate.idx) :
    (admitAll paths cands active)[index]? = paths[index]? := by
  refine getElem?_modifyAll_miss cands.zipIdx paths ?_
  intro entry present same
  refine absent (List.mem_map.mpr ⟨entry.1, ?_, same⟩)
  exact List.fst_mem_of_mem_zipIdx present

theorem renormalise_active (distinct : (cands.map Candidate.idx).Nodup) (listed : cand ∈ cands) :
    (renormalise paths cands)[cand.idx]? = paths[cand.idx]?.map fun path =>
      { path with virtualFinishNs := leveling (minVirtual paths cands) path.virtualFinishNs } := by
  unfold renormalise leveling
  dsimp only
  split
  · refine (getElem?_modifyAll_hit cands paths distinct listed).trans ?_
    rfl
  · exact Option.map_id'.symm

theorem renormalise_other (absent : index ∉ cands.map Candidate.idx) :
    (renormalise paths cands)[index]? = paths[index]? := by
  unfold renormalise
  dsimp only
  split
  · exact getElem?_modifyAll_miss cands paths
      fun cand present same => absent (List.mem_map.mpr ⟨cand, present, same⟩)
  · rfl

theorem take_distinct (distinct : (cands.map Candidate.idx).Nodup) (active : Nat) :
    ((cands.take active).map Candidate.idx).Nodup := by
  rw [List.map_take]
  exact (List.take_sublist active _).nodup distinct

def levelOf (paths : List Path) (cands : List Candidate) (active : Nat) (cand : Candidate) : Int :=
  leveling (minVirtual (admitAll paths cands active) (cands.take active))
    (if cand.wasActive then virtualAt paths cand.idx else epoch (cands.take active))

theorem leveled_active (paths : List Path) (distinct : (cands.map Candidate.idx).Nodup)
    (listed : cand ∈ cands.take active) :
    (leveled paths cands active)[cand.idx]? = paths[cand.idx]?.map fun path =>
      { path with virtualFinishNs := levelOf paths cands active cand, active := true } := by
  unfold leveled
  rw [renormalise_active (take_distinct distinct active) listed, admitAll_active paths distinct listed,
    Option.map_map]
  cases found : paths[cand.idx]? with
  | none => rfl
  | some path =>
    unfold levelOf virtualAt
    rw [found]
    rfl

theorem leveled_rests (distinct : (cands.map Candidate.idx).Nodup)
    (absent : index ∉ (cands.take active).map Candidate.idx)
    (others : index ∉ cands.map Candidate.idx → ∀ path, paths[index]? = some path →
      path.active = false ∧ path.virtualFinishNs = 0) (path : Path)
    (found : (leveled paths cands active)[index]? = some path) :
    path.active = false ∧ path.virtualFinishNs = 0 := by
  unfold leveled at found
  rw [renormalise_other absent] at found
  by_cases candidate : index ∈ cands.map Candidate.idx
  · obtain ⟨cand, listed, rfl⟩ := List.mem_map.mp candidate
    have beyond : cand ∉ cands.take active := fun early => absent (List.mem_map_of_mem early)
    rw [admitAll_beyond distinct listed beyond, Option.map_eq_some_iff] at found
    obtain ⟨old, _, rfl⟩ := found
    exact ⟨rfl, rfl⟩
  · rw [admitAll_other candidate] at found
    exact others candidate path found

end Levels

section Choice

structure Settled (port : AdaptivePort) (idx : Nat) : Prop where
  chosen : port.paths[idx]?.any (fun path => path.active) = true
  count : port.paths.countP (fun path => path.active) = port.activePaths
  idle : ∀ path ∈ port.paths, path.active = false → path.virtualFinishNs = 0

variable {cand : Candidate}

theorem only_settled (paths : List Path) {chosen : Nat} (inside : chosen < paths.length)
    (pressureBytes : Nat) : Settled ⟨paths.mapIdx (Path.only chosen), 1, pressureBytes⟩ chosen := by
  have flags : ∀ index, (paths.mapIdx (Path.only chosen))[index]?.any (fun path => path.active) =
      true ↔ index = chosen := by
    intro index
    rw [List.getElem?_mapIdx]
    constructor
    · intro passes
      obtain ⟨path, found, active⟩ := (Option.any_eq_true _ _).mp passes
      obtain ⟨old, _, rfl⟩ := Option.map_eq_some_iff.mp found
      exact beq_iff_eq.mp active
    · rintro rfl
      rw [List.getElem?_eq_getElem inside]
      exact beq_self_eq_true index
  refine ⟨(flags chosen).mpr rfl, ?_, ?_⟩
  · exact countP_eq_length (List.nodup_singleton chosen)
      fun index => List.mem_singleton.trans (flags index).symm
  · intro path present _
    obtain ⟨index, inside, rfl⟩ := List.mem_mapIdx.mp present
    rfl

variable {paths : List Path} {first : Candidate} {rest : List Candidate} {active : Nat}

theorem bestOf_listed (several : 0 < active) (level : List Path) :
    bestOf level first ((first :: rest).take active) ∈ (first :: rest).take active := by
  refine better_listed _ _ _ (fun cand present => List.mem_of_mem_tail present) first ?_
  obtain ⟨less, rfl⟩ := Nat.exists_eq_succ_of_ne_zero (Nat.ne_of_gt several)
  exact List.mem_cons_self

theorem stripe_listed (paths : List Path) (incomingBytes : Nat) (several : 0 < active) :
    ∃ cand ∈ first :: rest,
      cand.idx = (stripe paths first (first :: rest) active incomingBytes).1 :=
  ⟨_, List.mem_of_mem_take (bestOf_listed several (leveled paths (first :: rest) active)), rfl⟩

def OthersRest (paths : List Path) (cands : List Candidate) : Prop :=
  ∀ index, index ∉ cands.map Candidate.idx → ∀ path, paths[index]? = some path →
    path.active = false ∧ path.virtualFinishNs = 0

theorem leveled_flags {cands : List Candidate} (active : Nat)
    (distinct : (cands.map Candidate.idx).Nodup)
    (inside : ∀ cand ∈ cands, cand.idx < paths.length) (others : OthersRest paths cands)
    (index : Nat) :
    (leveled paths cands active)[index]?.any (fun path => path.active) = true ↔
      index ∈ (cands.take active).map Candidate.idx := by
  constructor
  · intro passes
    obtain ⟨path, found, flagged⟩ := (Option.any_eq_true _ _).mp passes
    by_contra absent
    have rests := leveled_rests distinct absent (others index) path found
    rw [rests.1] at flagged
    cases flagged
  · intro listed
    obtain ⟨cand, present, rfl⟩ := List.mem_map.mp listed
    have bound := inside cand (List.mem_of_mem_take present)
    rw [leveled_active paths distinct present, List.getElem?_eq_getElem bound]
    rfl

theorem stripe_settled (distinct : ((first :: rest).map Candidate.idx).Nodup)
    (inside : ∀ cand ∈ first :: rest, cand.idx < paths.length)
    (others : OthersRest paths (first :: rest)) (several : 0 < active)
    (few : active ≤ (first :: rest).length) (incomingBytes pressureBytes : Nat) :
    Settled ⟨(stripe paths first (first :: rest) active incomingBytes).2, active, pressureBytes⟩
      (stripe paths first (first :: rest) active incomingBytes).1 := by
  have listed : bestOf (leveled paths (first :: rest) active) first ((first :: rest).take active) ∈
      (first :: rest).take active := bestOf_listed several _
  have level := leveled_flags active distinct inside others
  unfold stripe
  dsimp only
  generalize bestOf (leveled paths (first :: rest) active) first ((first :: rest).take active) =
    chosen at listed
  generalize serviceNs incomingBytes fallbackRateBytesPerSec = amount
  -- a charge changes no flag
  have flags : ∀ index, ((leveled paths (first :: rest) active).modify chosen.idx
      (Path.charge amount))[index]?.any (fun path => path.active) = true ↔
        index ∈ ((first :: rest).take active).map Candidate.idx := by
    intro index
    have same : ∀ path : Path, (path.charge amount).active = path.active := fun _ => rfl
    rw [any_modify same]
    exact level index
  refine ⟨(flags chosen.idx).mpr (List.mem_map_of_mem listed), ?_, ?_⟩
  · rw [countP_eq_length (take_distinct distinct active) fun index => (flags index).symm,
      List.length_map, List.length_take, Nat.min_eq_left few]
  · intro path present resting
    obtain ⟨index, found⟩ := List.mem_iff_getElem?.mp present
    have absent : index ∉ ((first :: rest).take active).map Candidate.idx := by
      intro among
      have flagged := (flags index).mpr among
      rw [found] at flagged
      rw [Option.any_some, resting] at flagged
      cases flagged
    have apart : chosen.idx ≠ index := fun same => absent (same ▸ List.mem_map_of_mem listed)
    rw [List.getElem?_modify_ne _ _ apart] at found
    exact (leveled_rests distinct absent (others index) path found).2

theorem activeTarget_pos {eligible : Nat} (some : 0 < eligible) (pressure demandRate : Nat) :
    0 < activeTarget pressure demandRate eligible ∧
      activeTarget pressure demandRate eligible ≤ eligible := by
  unfold activeTarget
  rw [if_neg (Nat.ne_of_gt some)]
  dsimp only
  split
  · omega
  · split
    · omega
    · split <;> omega

theorem screened_rest (paths : List Path) (incomingBytes reference : Nat) :
    OthersRest (paths.map (Path.screen (minRtt (readings paths) +
      rttSlack (minRtt (readings paths))) reference incomingBytes))
      (ranked (readings paths) incomingBytes) := by
  intro index absent path found
  rw [List.getElem?_map, Option.map_eq_some_iff] at found
  obtain ⟨old, there, rfl⟩ := found
  have read : (readings paths)[index]? = some old.toReading := by
    unfold readings
    rw [List.getElem?_map, there]
    rfl
  have out := ranked_complete read absent
  unfold Path.screen
  dsimp only
  rw [if_pos out]
  exact ⟨rfl, rfl⟩

theorem ranked_inside {paths : List Path} {incomingBytes : Nat}
    (listed : cand ∈ ranked (readings paths) incomingBytes) : cand.idx < paths.length := by
  obtain ⟨backend, reads⟩ := ranked_reads listed
  have inside := (List.getElem?_eq_some_iff.mp reads.there).1
  unfold readings at inside
  rwa [List.length_map] at inside

/-- A path fit to carry a batch: healthy, and not much slower than the fastest
healthy one. -/
structure WellChosen (paths : List Path) (path : Path) : Prop where
  healthy : path.healthy = true
  near : ∃ least ∈ paths, least.healthy = true ∧
    (∀ other ∈ paths, other.healthy = true → least.rtt ≤ other.rtt) ∧
    path.rtt ≤ least.rtt + rttSlack least.rtt

theorem ranked_wellChosen {paths : List Path} {incomingBytes : Nat}
    (measured : minRtt (readings paths) ≠ u32Max)
    (listed : cand ∈ ranked (readings paths) incomingBytes) :
    ∃ path, paths[cand.idx]? = some path ∧ WellChosen paths path := by
  obtain ⟨backend, reads⟩ := ranked_reads listed
  have there := reads.there
  unfold readings at there
  rw [List.getElem?_map, Option.map_eq_some_iff] at there
  obtain ⟨path, found, rfl⟩ := there
  obtain ⟨least, present, healthy, same⟩ := minRtt_healthy measured
  obtain ⟨fastest, inside, rfl⟩ := List.mem_map.mp present
  refine ⟨path, found, reads.healthy, fastest, inside, healthy, ?_, ?_⟩
  · intro other listed well
    rw [same]
    exact minRtt_le (List.mem_map_of_mem listed) well
  · rw [same]
    exact reads.near

theorem minRtt_measured {paths : List Path} {other : Path} (present : other ∈ paths)
    (healthy : other.healthy = true) (below : other.rttUs.toNat < u32Max) :
    minRtt (readings paths) ≠ u32Max := by
  have le := minRtt_le (List.mem_map_of_mem (f := Path.toReading) present) healthy
  have small : other.rtt < u32Max := by
    unfold Reading.rtt
    split
    · decide
    · exact below
  exact Nat.ne_of_lt (Nat.lt_of_le_of_lt le small)

/-- A call of `pick` on any paths: the index is valid and well chosen, and the
flags, the count and the virtual times it leaves agree. -/
theorem pick_sound (port : AdaptivePort) (preferred : Option Nat) (incomingBytes demandRate : Nat)
    (some_path : port.paths ≠ [])
    (measured : ∀ path ∈ port.paths, path.rttUs.toNat < u32Max) :
    ∃ idx path, (port.pick preferred incomingBytes demandRate).1 = some idx ∧
      port.paths[idx]? = some path ∧
      ((∃ other ∈ port.paths, other.healthy = true) → WellChosen port.paths path) ∧
      Settled (port.pick preferred incomingBytes demandRate).2 idx := by
  have first_there : port.paths[0]? = some (port.paths.head some_path) := by
    rw [← List.head?_eq_getElem?, List.head?_eq_some_head some_path]
  unfold AdaptivePort.pick
  rw [if_neg some_path]
  by_cases unmeasured : minRtt (readings port.paths) = u32Max
  · simp only [if_pos unmeasured]
    refine ⟨0, _, rfl, first_there, ?_, only_settled port.paths
      (List.length_pos_iff.mpr some_path) _⟩
    rintro ⟨other, present, healthy⟩
    exact absurd unmeasured (minRtt_measured present healthy (measured other present))
  · simp only [if_neg unmeasured]
    have listed := ranked_nonempty incomingBytes unmeasured
    have distinct := ranked_distinct (readings port.paths) incomingBytes
    have good : ∀ cand ∈ ranked (readings port.paths) incomingBytes,
        ∃ path, port.paths[cand.idx]? = some path ∧ WellChosen port.paths path :=
      fun cand present => ranked_wellChosen unmeasured present
    have inside : ∀ cand ∈ ranked (readings port.paths) incomingBytes,
        cand.idx < port.paths.length := fun cand present => ranked_inside present
    have others := screened_rest port.paths incomingBytes (referenceRate port.paths
      (minRtt (readings port.paths) + rttSlack (minRtt (readings port.paths))))
    generalize ranked (readings port.paths) incomingBytes = cands at *
    have length : (port.paths.map (Path.screen (minRtt (readings port.paths) +
        rttSlack (minRtt (readings port.paths))) (referenceRate port.paths
          (minRtt (readings port.paths) + rttSlack (minRtt (readings port.paths))))
        incomingBytes)).length = port.paths.length := List.length_map ..
    generalize port.paths.map (Path.screen (minRtt (readings port.paths) +
        rttSlack (minRtt (readings port.paths))) (referenceRate port.paths
          (minRtt (readings port.paths) + rttSlack (minRtt (readings port.paths))))
        incomingBytes) = screened at *
    cases cands with
    | nil => exact absurd rfl listed
    | cons first rest =>
      have target := activeTarget_pos (Nat.succ_pos rest.length)
        (pressure (readings port.paths) incomingBytes) demandRate
      simp only
      split
      · obtain ⟨cand, present, same⟩ := sticky_listed first (first :: rest) preferred
          List.mem_cons_self
        obtain ⟨path, found, well⟩ := good cand present
        rw [same] at found
        refine ⟨_, path, rfl, found, fun _ => well, only_settled _ ?_ _⟩
        rw [length, ← same]
        exact inside cand present
      · obtain ⟨cand, present, same⟩ := stripe_listed screened incomingBytes target.1
        obtain ⟨path, found, well⟩ := good cand present
        rw [same] at found
        refine ⟨_, path, rfl, found, fun _ => well, stripe_settled distinct ?_ others target.1
          target.2 incomingBytes _⟩
        intro cand present
        rw [length]
        exact inside cand present

def stalePort : AdaptivePort :=
  { paths :=
      [{ rttUs := 20000, queueLen := 31, queueCapacity := 32, queuedBytes := 30000, active := true,
         carryPending := false, virtualFinishNs := 700, rateBytesPerSec := 0, etaUs := 0 },
       { rttUs := 0, queueLen := 1, queueCapacity := 32, queuedBytes := 9000, active := false,
         carryPending := true, virtualFinishNs := 3, rateBytesPerSec := 1000, etaUs := 0 },
       { rttUs := 45000, queueLen := 2, queueCapacity := 32, queuedBytes := 9000, active := true,
         carryPending := false, virtualFinishNs := -4, rateBytesPerSec := 0, etaUs := 0 }]
    activePaths := 1
    pressureBytes := 0 }

theorem pick_sound_stalePort :
    (stalePort.pick (some 0) 1500 0).1 = some 1 ∧
      (stalePort.pick (some 0) 1500 0).2.activePaths = 2 ∧
      Settled (stalePort.pick (some 0) 1500 0).2 1 := by
  obtain ⟨idx, path, chosen, _, _, settled⟩ := pick_sound stalePort (some 0) 1500 0
    (List.cons_ne_nil _ _) (by decide)
  have result : (stalePort.pick (some 0) 1500 0).1 = some 1 := by decide +kernel
  cases chosen.symm.trans result
  exact ⟨result, by decide +kernel, settled⟩

end Choice

end TlsVpn.Scheduler

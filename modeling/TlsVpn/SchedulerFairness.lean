import TlsVpn.FairShare
import TlsVpn.Runs
import TlsVpn.SchedulerStores

/-!
Striping over several paths. As long as the candidates keep their order and the
same ones are active, the virtual finish times differ as the service charged
does, up to the wrapping of `i64`: the least one is taken off all of them, and a
path that joins starts level with the others. The call serves the path whose
virtual time plus queue is least, so it is behind every other by no more than a
full queue and the carry bonus. `i64::MAX` doubles as "no active path" in the
search for the least virtual time, so paths that start there are not renormalised
at first and their scores wrap. The choice of one call is that of `pick` on the
readings alone.
-/

namespace TlsVpn.Scheduler

open Words Places

section Words64

variable (value : Int)

theorem wrapI64_modEq : wrapI64 value ≡ value [ZMOD 18446744073709551616] := by
  unfold wrapI64 Int.ModEq
  exact Int.bmod_emod

def InI64 (value : Int) : Prop := -i64Max - 1 ≤ value ∧ value ≤ i64Max

theorem wrapI64_inI64 : InI64 (wrapI64 value) := by
  unfold InI64 wrapI64 i64Max
  rw [Int.bmod_def]
  split <;> omega

theorem InI64.eq_of_modEq {left right : Int} (leftIn : InI64 left) (rightIn : InI64 right)
    (same : left ≡ right [ZMOD 18446744073709551616]) : left = right := by
  unfold InI64 i64Max at *
  unfold Int.ModEq at same
  omega

theorem wrapI64_eq {value : Int} (inside : InI64 value) : wrapI64 value = value :=
  (wrapI64_inI64 value).eq_of_modEq inside (wrapI64_modEq value)

end Words64

section Service

def rawServiceNs (bytes rate : Nat) : Nat := min (bytes * 1000000000) u64Max / max rate 1

variable (bytes rate : Nat)

theorem serviceNs_eq : serviceNs bytes rate = min (rawServiceNs bytes rate : Int) i64Max := by
  unfold serviceNs rawServiceNs
  split
  · rename_i none
    rw [none, Nat.zero_mul, Nat.zero_min, Nat.zero_div]
    rfl
  · rfl

theorem serviceNs_nonneg : 0 ≤ serviceNs bytes rate := by
  rw [serviceNs_eq]
  unfold i64Max
  omega

theorem serviceNs_mono {left right : Nat} (less : left ≤ right) (rate : Nat) :
    serviceNs left rate ≤ serviceNs right rate := by
  have raw : rawServiceNs left rate ≤ rawServiceNs right rate :=
    Nat.div_le_div_right (by omega)
  rw [serviceNs_eq, serviceNs_eq]
  omega

theorem serviceNs_le : serviceNs bytes fallbackRateBytesPerSec ≤ 737869762949 := by
  have raw : rawServiceNs bytes fallbackRateBytesPerSec ≤ 737869762949 :=
    calc
      rawServiceNs bytes fallbackRateBytesPerSec ≤ u64Max / max fallbackRateBytesPerSec 1 :=
        Nat.div_le_div_right (Nat.min_le_right _ _)
      _ ≤ 737869762949 := by decide
  rw [serviceNs_eq]
  omega

end Service

section Scores

theorem better_min (score : Candidate → Int) (rest : List Candidate) (first : Candidate) :
    ∀ cand ∈ first :: rest, score (rest.foldl (better score) first) ≤ score cand := by
  induction rest generalizing first with
  | nil =>
    intro cand listed
    rw [List.mem_singleton.mp listed]
    exact le_refl _
  | cons next rest ih =>
    have kept : score (better score first next) ≤ score first ∧
        score (better score first next) ≤ score next := by
      unfold better
      split
      · rename_i wins
        exact ⟨by omega, le_refl _⟩
      · rename_i loses
        exact ⟨le_refl _, by omega⟩
    have least := ih (better score first next)
    intro cand listed
    rcases List.mem_cons.mp listed with rfl | later
    · exact (least _ List.mem_cons_self).trans kept.1
    · rcases List.mem_cons.mp later with rfl | inside
      · exact (least _ List.mem_cons_self).trans kept.2
      · exact least cand (List.mem_cons_of_mem _ inside)

variable {first : Candidate} {rest : List Candidate} {active : Nat}

theorem bestOf_min (several : 0 < active) (level : List Path) {cand : Candidate}
    (listed : cand ∈ (first :: rest).take active) :
    scoreAt level (bestOf level first ((first :: rest).take active)) ≤ scoreAt level cand := by
  obtain ⟨less, rfl⟩ := Nat.exists_eq_succ_of_ne_zero (Nat.ne_of_gt several)
  exact better_min (scoreAt level) (rest.take less) first cand listed

def Path.bonus (path : Path) : Int := if path.carryPending then 150000 else 0

structure Path.Exact (path : Path) : Prop where
  sum : InI64 (path.virtualFinishNs + serviceNs path.queuedBytes fallbackRateBytesPerSec)
  difference : InI64 (path.virtualFinishNs +
    serviceNs path.queuedBytes fallbackRateBytesPerSec - path.bonus)

theorem Path.Exact.score_eq {path : Path} (exact : path.Exact) :
    path.score = path.virtualFinishNs + serviceNs path.queuedBytes fallbackRateBytesPerSec -
      path.bonus := by
  have difference := exact.difference
  have bonus : ((carryBonusUs * 1000 : Nat) : Int) = 150000 := rfl
  unfold Path.score
  dsimp only
  rw [wrapI64_eq exact.sum]
  unfold Path.bonus at difference ⊢
  split
  · rename_i carries
    rw [if_pos carries] at difference
    unfold saturatingSubI64
    unfold InI64 at difference
    rw [bonus]
    omega
  · exact (Int.sub_zero _).symm

end Scores

section Levels

/-- What a call knows when it admits its candidates: they are distinct paths, and
what was read of them is what they hold. -/
structure Entered (paths : List Path) (cands : List Candidate) : Prop where
  distinct : (cands.map Candidate.idx).Nodup
  reads : ∀ cand ∈ cands, ∃ path, paths[cand.idx]? = some path ∧ cand.wasActive = path.active ∧
    cand.virtualNs = path.virtualFinishNs

variable {paths : List Path} {cands : List Candidate} {active : Nat} {charged : Nat → Int}
  {bound : Int}

def admittedAt (paths : List Path) (active : List Candidate) (cand : Candidate) : Int :=
  if cand.wasActive then virtualAt paths cand.idx else epoch active

variable {path : Path} {cand : Candidate}

theorem virtualAt_eq {index : Nat} (found : paths[index]? = some path) :
    virtualAt paths index = path.virtualFinishNs := by
  unfold virtualAt
  rw [found]
  rfl

section

variable (entered : Entered paths cands) (listed : cand ∈ cands.take active)

include entered listed

theorem virtualAt_admitAll :
    virtualAt (admitAll paths cands active) cand.idx =
      admittedAt paths (cands.take active) cand := by
  obtain ⟨path, found, _⟩ := entered.reads cand (List.mem_of_mem_take listed)
  have admitted := admitAll_active paths entered.distinct listed
  rw [found] at admitted
  unfold admittedAt
  rw [virtualAt_eq admitted, virtualAt_eq found]

theorem virtualAt_leveled :
    virtualAt (leveled paths cands active) cand.idx =
      leveling (minVirtual (admitAll paths cands active) (cands.take active))
        (admittedAt paths (cands.take active) cand) := by
  obtain ⟨path, found, _⟩ := entered.reads cand (List.mem_of_mem_take listed)
  have level := leveled_active paths entered.distinct listed
  rw [found] at level
  exact virtualAt_eq level

end

structure Tracked (paths : List Path) (active : List Candidate) (charged : Nat → Int) : Prop where
  inside : ∀ cand ∈ active, InI64 (admittedAt paths active cand)
  same : ∀ first ∈ active, ∀ second ∈ active,
    admittedAt paths active first - admittedAt paths active second ≡
      charged first.idx - charged second.idx [ZMOD 18446744073709551616]

theorem leveling_eq {least value target : Int} (inside : InI64 value) (finite : least ≠ i64Max)
    (same : value - least ≡ target [ZMOD 18446744073709551616]) (small : InI64 target) :
    leveling least value = target := by
  unfold leveling
  split
  · exact (wrapI64_inI64 _).eq_of_modEq small ((wrapI64_modEq _).trans same)
  · rename_i zero
    have least_zero : least = 0 := by
      by_contra nonzero
      exact zero ⟨nonzero, finite⟩
    rw [least_zero, Int.sub_zero] at same
    exact inside.eq_of_modEq small same

theorem leveling_modEq (least first second : Int) :
    leveling least first - leveling least second ≡ first - second
      [ZMOD 18446744073709551616] := by
  unfold leveling
  split
  · have both := (wrapI64_modEq (first - least)).sub (wrapI64_modEq (second - least))
    rwa [show first - least - (second - least) = first - second by omega] at both
  · exact Int.ModEq.refl _

section

variable (entered : Entered paths cands) (tracked : Tracked paths (cands.take active) charged)
  (within : FairShare.Within ((cands.take active).map Candidate.idx) bound charged)
  (small : bound ≤ 4000000000000)

include entered tracked within small

theorem leveled_exact
    (finite : minVirtual (admitAll paths cands active) (cands.take active) ≠ i64Max) :
    ∃ base ∈ cands.take active, ∀ cand ∈ cands.take active,
      virtualAt (leveled paths cands active) cand.idx = charged cand.idx - charged base.idx ∧
        -bound ≤ charged cand.idx - charged base.idx ∧
        charged cand.idx - charged base.idx ≤ bound := by
  rcases foldl_min_attained (fun cand => virtualAt (admitAll paths cands active) cand.idx)
    (cands.take active) i64Max with none | ⟨base, listed, least⟩
  · exact absurd none finite
  · refine ⟨base, listed, fun cand present => ?_⟩
    have above := within cand.idx (List.mem_map_of_mem present) base.idx (List.mem_map_of_mem listed)
    have below := within base.idx (List.mem_map_of_mem listed) cand.idx (List.mem_map_of_mem present)
    refine ⟨?_, by omega, above⟩
    rw [virtualAt_leveled entered present]
    refine leveling_eq (tracked.inside cand present) finite ?_ ?_
    · rw [virtualAt_admitAll entered listed] at least
      have same := tracked.same cand present base listed
      rwa [← least] at same
    · unfold InI64 i64Max
      omega

theorem charged_eq_of_max
    (mark : minVirtual (admitAll paths cands active) (cands.take active) = i64Max)
    {first second : Candidate} (firstIn : first ∈ cands.take active)
    (secondIn : second ∈ cands.take active) : charged first.idx = charged second.idx := by
  have top : ∀ cand ∈ cands.take active, admittedAt paths (cands.take active) cand = i64Max := by
    intro cand present
    have most := (tracked.inside cand present).2
    have least : minVirtual (admitAll paths cands active) (cands.take active) ≤
        virtualAt (admitAll paths cands active) cand.idx := foldl_min_le_of_mem _ _ present
    rw [mark, virtualAt_admitAll entered present] at least
    exact le_antisymm most least
  have above := within first.idx (List.mem_map_of_mem firstIn) second.idx
    (List.mem_map_of_mem secondIn)
  have below := within second.idx (List.mem_map_of_mem secondIn) first.idx
    (List.mem_map_of_mem firstIn)
  have same := tracked.same first firstIn second secondIn
  rw [top first firstIn, top second secondIn, Int.sub_self] at same
  have zero : 0 = charged first.idx - charged second.idx := by
    refine InI64.eq_of_modEq ?_ ?_ same
    · unfold InI64 i64Max
      omega
    · unfold InI64 i64Max
      omega
  omega

end

def queueSpread (mostQueued : Nat) : Int := serviceNs mostQueued fallbackRateBytesPerSec + 150000

theorem Path.bonus_range (path : Path) : 0 ≤ path.bonus ∧ path.bonus ≤ 150000 := by
  unfold Path.bonus
  split <;> omega

theorem exact_of_small (below : -4000000000000 ≤ path.virtualFinishNs)
    (above : path.virtualFinishNs ≤ 4000000000000) : path.Exact := by
  have service := serviceNs_le path.queuedBytes
  have nonneg := serviceNs_nonneg path.queuedBytes fallbackRateBytesPerSec
  have bonus := path.bonus_range
  constructor
  · unfold InI64 i64Max
    omega
  · unfold InI64 i64Max
    omega

variable {first : Candidate} {rest : List Candidate} {mostQueued : Nat}

theorem leveled_path (entered : Entered paths cands) (listed : cand ∈ cands.take active) :
    ∃ path before, (leveled paths cands active)[cand.idx]? = some path ∧
      paths[cand.idx]? = some before ∧ path.active = true ∧
      path.queuedBytes = before.queuedBytes ∧
      path.virtualFinishNs = virtualAt (leveled paths cands active) cand.idx := by
  obtain ⟨before, found, _⟩ := entered.reads cand (List.mem_of_mem_take listed)
  have level := leveled_active paths entered.distinct listed
  rw [found] at level
  exact ⟨_, before, level, found, rfl, rfl, (virtualAt_eq level).symm⟩

theorem bestOf_behind (several : 0 < active) (entered : Entered paths (first :: rest))
    (tracked : Tracked paths ((first :: rest).take active) charged)
    (within : FairShare.Within (((first :: rest).take active).map Candidate.idx) bound charged)
    (small : bound ≤ 4000000000000)
    (queued : ∀ cand ∈ (first :: rest).take active, ∀ path, paths[cand.idx]? = some path →
      path.queuedBytes ≤ mostQueued) (listed : cand ∈ (first :: rest).take active) :
    charged (bestOf (leveled paths (first :: rest) active) first
      ((first :: rest).take active)).idx - charged cand.idx ≤ queueSpread mostQueued := by
  have chosen : bestOf (leveled paths (first :: rest) active) first ((first :: rest).take active) ∈
      (first :: rest).take active := bestOf_listed several _
  have least := bestOf_min several (leveled paths (first :: rest) active) listed
  generalize bestOf (leveled paths (first :: rest) active) first ((first :: rest).take active) =
    best at chosen least
  have nonneg := serviceNs_nonneg mostQueued fallbackRateBytesPerSec
  unfold queueSpread
  by_cases mark : minVirtual (admitAll paths (first :: rest) active)
      ((first :: rest).take active) = i64Max
  · rw [charged_eq_of_max entered tracked within small mark chosen listed]
    omega
  · obtain ⟨base, _, level⟩ := leveled_exact entered tracked within small mark
    obtain ⟨bestPath, bestBefore, bestAt, bestFound, _, bestQueue, bestVirtual⟩ :=
      leveled_path entered chosen
    obtain ⟨path, before, pathAt, found, _, queue, virtual⟩ := leveled_path entered listed
    obtain ⟨bestLevel, bestLow, bestHigh⟩ := level best chosen
    obtain ⟨otherLevel, low, high⟩ := level cand listed
    unfold scoreAt at least
    rw [bestAt, pathAt] at least
    change bestPath.score ≤ path.score at least
    rw [(exact_of_small (by omega) (by omega) : bestPath.Exact).score_eq,
      (exact_of_small (by omega) (by omega) : path.Exact).score_eq] at least
    have bestBonus := bestPath.bonus_range
    have bonus := path.bonus_range
    have bestService := serviceNs_nonneg bestPath.queuedBytes fallbackRateBytesPerSec
    have service : serviceNs path.queuedBytes fallbackRateBytesPerSec ≤
        serviceNs mostQueued fallbackRateBytesPerSec := by
      rw [queue]
      exact serviceNs_mono (queued cand listed before found) _
    omega

end Levels

section Rounds

/-- What other threads set of a path between two calls. -/
structure Weather where
  rttUs : UInt32
  queueLen : Nat
  queueCapacity : Nat
  queuedBytes : Nat
  carryPending : Bool
  rateBytesPerSec : Nat

def Path.refresh (path : Path) (weather : Weather) : Path :=
  { path with
    rttUs := weather.rttUs
    queueLen := weather.queueLen
    queueCapacity := weather.queueCapacity
    queuedBytes := weather.queuedBytes
    carryPending := weather.carryPending
    rateBytesPerSec := weather.rateBytesPerSec }

structure Round where
  weather : Nat → Weather
  preferred : Option Nat
  incomingBytes : Nat
  demandRate : Nat

def AdaptivePort.refresh (port : AdaptivePort) (weather : Nat → Weather) : AdaptivePort :=
  { port with paths := port.paths.mapIdx fun index path => path.refresh (weather index) }

structure Striping where
  port : AdaptivePort
  charged : Nat → Int

def Striping.step (state : Striping) (round : Round) : Striping :=
  let picked := (state.port.refresh round.weather).pick round.preferred round.incomingBytes
    round.demandRate
  { port := picked.2
    charged := picked.1.elim state.charged fun idx =>
      Function.update state.charged idx
        (state.charged idx + serviceNs round.incomingBytes fallbackRateBytesPerSec) }

def screenedOf (state : Striping) (round : Round) : List Path :=
  let paths := (state.port.refresh round.weather).paths
  let maxRtt := minRtt (readings paths) + rttSlack (minRtt (readings paths))
  paths.map (Path.screen maxRtt (referenceRate paths maxRtt) round.incomingBytes)

def candidatesOf (state : Striping) (round : Round) : List Candidate :=
  ranked (readings (state.port.refresh round.weather).paths) round.incomingBytes

/-- A call that finds the candidates in the given order and makes the first ones
active, with a charge and queues within their limits. -/
structure Steady (order : List Nat) (active mostCharge mostQueued : Nat) (state : Striping)
    (round : Round) : Prop where
  measured : minRtt (readings (state.port.refresh round.weather).paths) ≠ u32Max
  candidates : (candidatesOf state round).map Candidate.idx = order
  target : activeTarget (pressure (readings (state.port.refresh round.weather).paths)
    round.incomingBytes) round.demandRate order.length = active
  charge : round.incomingBytes ≤ mostCharge
  queued : ∀ index ∈ order.take active, (round.weather index).queuedBytes ≤ mostQueued

def ScoresExact (order : List Nat) (active : Nat) (state : Striping) (round : Round) : Prop :=
  ∀ index ∈ order.take active, ∀ path,
    (leveled (screenedOf state round) (candidatesOf state round) active)[index]? = some path →
      path.Exact

variable {paths : List Path} {cand : Candidate} {value : Int}

theorem refresh_at (port : AdaptivePort) (weather : Nat → Weather) (index : Nat) :
    (port.refresh weather).paths[index]? =
      port.paths[index]?.map fun path => path.refresh (weather index) :=
  List.getElem?_mapIdx

theorem screened_candidate {incomingBytes reference : Nat}
    (listed : cand ∈ ranked (readings paths) incomingBytes) :
    ∃ path, paths[cand.idx]? = some path ∧ cand.wasActive = path.active ∧
      cand.virtualNs = path.virtualFinishNs ∧
      (paths.map (Path.screen (minRtt (readings paths) + rttSlack (minRtt (readings paths)))
        reference incomingBytes))[cand.idx]? =
          some { path with etaUs := path.eta reference incomingBytes } := by
  obtain ⟨backend, reads⟩ := ranked_reads listed
  have there := reads.there
  unfold readings at there
  rw [List.getElem?_map, Option.map_eq_some_iff] at there
  obtain ⟨path, found, rfl⟩ := there
  refine ⟨path, found, reads.wasActive, reads.virtualNs, ?_⟩
  have admitted : ¬ (path.healthy = false ∨
      path.rtt > minRtt (readings paths) + rttSlack (minRtt (readings paths))) := by
    rintro (sick | far)
    · rw [reads.healthy] at sick
      cases sick
    · exact absurd reads.near (Nat.not_le.mpr far)
  rw [List.getElem?_map, found]
  exact congrArg some (if_neg admitted)

theorem screened_entered (paths : List Path) (incomingBytes reference : Nat) :
    Entered (paths.map (Path.screen (minRtt (readings paths) +
      rttSlack (minRtt (readings paths))) reference incomingBytes))
      (ranked (readings paths) incomingBytes) := by
  refine ⟨ranked_distinct _ _, fun cand listed => ?_⟩
  obtain ⟨path, _, active, virtual, screened⟩ := screened_candidate listed
  exact ⟨_, screened, active, virtual⟩

/-- Before a call: the virtual times of the members differ as what was charged,
and all of them are active or they are all equal. -/
structure Fair (members : List Nat) (bound : Int) (state : Striping) : Prop where
  within : FairShare.Within members bound state.charged
  inside : ∀ index ∈ members, InI64 (virtualAt state.port.paths index)
  same : ∀ first ∈ members, ∀ second ∈ members,
    virtualAt state.port.paths first - virtualAt state.port.paths second ≡
      state.charged first - state.charged second [ZMOD 18446744073709551616]
  flags : (∀ index ∈ members, state.port.paths[index]?.any (fun path => path.active) = true) ∨
    ∃ value, ∀ index ∈ members, virtualAt state.port.paths index = value

theorem epoch_of_equal {active : List Candidate} (equal : ∀ cand ∈ active, cand.virtualNs = value) :
    epoch active = value ∧ (∃ cand ∈ active, cand.wasActive = true) ∨
      epoch active = 0 ∧ ∀ cand ∈ active, cand.wasActive = false := by
  unfold epoch
  cases least : ((active.filter Candidate.wasActive).map Candidate.virtualNs).min? with
  | none =>
    right
    refine ⟨rfl, fun cand listed => ?_⟩
    rw [List.min?_eq_none_iff, List.map_eq_nil_iff, List.filter_eq_nil_iff] at least
    exact Bool.not_eq_true _ ▸ least cand listed
  | some low =>
    left
    have member := List.min?_mem least
    obtain ⟨cand, listed, rfl⟩ := List.mem_map.mp member
    obtain ⟨present, flagged⟩ := List.mem_filter.mp listed
    exact ⟨equal cand present, cand, present, flagged⟩

variable {state : Striping} {round : Round} {active : Nat} {bound : Int}

theorem candidate_keeps (listed : cand ∈ candidatesOf state round) :
    ∃ path, state.port.paths[cand.idx]? = some path ∧ cand.wasActive = path.active ∧
      cand.virtualNs = path.virtualFinishNs ∧
      ∃ now, (screenedOf state round)[cand.idx]? = some now ∧
        now.virtualFinishNs = path.virtualFinishNs ∧
        now.queuedBytes = (round.weather cand.idx).queuedBytes := by
  obtain ⟨path, found, flag, virtual, screened⟩ := screened_candidate listed
  rw [refresh_at, Option.map_eq_some_iff] at found
  obtain ⟨old, there, rfl⟩ := found
  exact ⟨old, there, flag, virtual, _, screened, rfl, rfl⟩

theorem entered_of (state : Striping) (round : Round) :
    Entered (screenedOf state round) (candidatesOf state round) :=
  screened_entered _ _ _

theorem Fair.tracked
    (fair : Fair (((candidatesOf state round).take active).map Candidate.idx) bound state) :
    Tracked (screenedOf state round) ((candidatesOf state round).take active) state.charged ∧
      ((∀ index ∈ ((candidatesOf state round).take active).map Candidate.idx,
          virtualAt state.port.paths index ≠ i64Max) →
        ∀ cand ∈ (candidatesOf state round).take active,
          admittedAt (screenedOf state round) ((candidatesOf state round).take active) cand ≠
            i64Max) := by
  have keeps : ∀ cand ∈ (candidatesOf state round).take active,
      virtualAt (screenedOf state round) cand.idx = virtualAt state.port.paths cand.idx ∧
        cand.virtualNs = virtualAt state.port.paths cand.idx ∧
        state.port.paths[cand.idx]?.any (fun path => path.active) = cand.wasActive := by
    intro cand listed
    obtain ⟨path, there, flag, virtual, now, screened, same, _⟩ :=
      candidate_keeps (List.mem_of_mem_take listed)
    refine ⟨?_, ?_, ?_⟩
    · rw [virtualAt_eq screened, virtualAt_eq there, same]
    · rw [virtualAt_eq there, virtual]
    · rw [there, flag]
      rfl
  have member : ∀ cand ∈ (candidatesOf state round).take active,
      cand.idx ∈ ((candidatesOf state round).take active).map Candidate.idx :=
    fun cand listed => List.mem_map_of_mem listed
  generalize (candidatesOf state round).take active = joined at *
  rcases fair.flags with flagged | ⟨value, equal⟩
  · -- everyone was active, so nothing changes
    have admitted : ∀ cand ∈ joined, admittedAt (screenedOf state round) joined cand =
        virtualAt state.port.paths cand.idx := by
      intro cand listed
      have active := flagged cand.idx (member cand listed)
      rw [(keeps cand listed).2.2] at active
      unfold admittedAt
      rw [if_pos active, (keeps cand listed).1]
    refine ⟨⟨fun cand listed => ?_, fun first firstIn second secondIn => ?_⟩,
      fun calm cand listed => ?_⟩
    · rw [admitted cand listed]
      exact fair.inside cand.idx (member cand listed)
    · rw [admitted first firstIn, admitted second secondIn]
      exact fair.same first.idx (member first firstIn) second.idx (member second secondIn)
    · rw [admitted cand listed]
      exact calm cand.idx (member cand listed)
  · -- everyone starts level: at the common time, or at zero if nobody was active
    obtain ⟨start, admitted, which⟩ : ∃ start, (∀ cand ∈ joined,
        admittedAt (screenedOf state round) joined cand = start) ∧
          (start = 0 ∨ start = value) := by
      have times : ∀ cand ∈ joined, cand.virtualNs = value := fun cand listed =>
        (keeps cand listed).2.1.trans (equal cand.idx (member cand listed))
      rcases epoch_of_equal times with ⟨common, _⟩ | ⟨zero, nobody⟩
      · refine ⟨value, fun cand listed => ?_, Or.inr rfl⟩
        unfold admittedAt
        split
        · rw [(keeps cand listed).1, equal cand.idx (member cand listed)]
        · exact common
      · refine ⟨0, fun cand listed => ?_, Or.inl rfl⟩
        unfold admittedAt
        rw [nobody cand listed]
        exact zero
    have inside : joined ≠ [] → InI64 start := by
      intro some
      obtain ⟨cand, listed⟩ := List.exists_mem_of_ne_nil joined some
      rcases which with rfl | rfl
      · unfold InI64 i64Max
        omega
      · have range := fair.inside cand.idx (member cand listed)
        rwa [equal cand.idx (member cand listed)] at range
    refine ⟨⟨fun cand listed => ?_, fun first firstIn second secondIn => ?_⟩,
      fun calm cand listed => ?_⟩
    · rw [admitted cand listed]
      exact inside (List.ne_nil_of_mem listed)
    · have same := fair.same first.idx (member first firstIn) second.idx (member second secondIn)
      rw [equal first.idx (member first firstIn), equal second.idx (member second secondIn),
        Int.sub_self] at same
      rwa [admitted first firstIn, admitted second secondIn, Int.sub_self]
    · rw [admitted cand listed]
      rcases which with rfl | rfl
      · decide
      · have apart := calm cand.idx (member cand listed)
        rwa [equal cand.idx (member cand listed)] at apart

variable {order : List Nat} {mostCharge mostQueued : Nat}

section

variable (steady : Steady order active mostCharge mostQueued state round)

include steady

theorem Steady.members :
    order.take active = ((candidatesOf state round).take active).map Candidate.idx := by
  rw [← steady.candidates, List.map_take]

theorem Steady.step_eq (several : 2 ≤ active) :
    ∃ first rest, candidatesOf state round = first :: rest ∧
      (state.step round).port.paths =
        (stripe (screenedOf state round) first (first :: rest) active round.incomingBytes).2 ∧
      (state.step round).charged = Function.update state.charged
        (stripe (screenedOf state round) first (first :: rest) active round.incomingBytes).1
        (state.charged
            (stripe (screenedOf state round) first (first :: rest) active round.incomingBytes).1 +
          serviceNs round.incomingBytes fallbackRateBytesPerSec) := by
  have some_path : (state.port.refresh round.weather).paths ≠ [] := by
    intro none
    refine steady.measured ?_
    rw [none]
    rfl
  have listed := ranked_nonempty round.incomingBytes steady.measured
  have target := steady.target
  rw [← steady.candidates, List.length_map] at target
  obtain ⟨first, rest, shape⟩ := List.exists_cons_of_ne_nil listed
  refine ⟨first, rest, shape, ?_⟩
  have picked : (state.port.refresh round.weather).pick round.preferred round.incomingBytes
      round.demandRate = (some (stripe (screenedOf state round) first (first :: rest) active
        round.incomingBytes).1,
      { state.port.refresh round.weather with
        pressureBytes := pressure (readings (state.port.refresh round.weather).paths)
          round.incomingBytes
        paths := (stripe (screenedOf state round) first (first :: rest) active
          round.incomingBytes).2
        activePaths := active }) := by
    unfold candidatesOf at target
    rw [shape] at target
    unfold AdaptivePort.pick
    rw [if_neg some_path]
    simp only [if_neg steady.measured, shape, target]
    rw [if_neg (show active ≠ 1 by omega)]
    rfl
  unfold Striping.step
  rw [picked]
  exact ⟨rfl, rfl⟩

end

theorem virtualAt_charge {index : Nat} {path : Path} (found : paths[index]? = some path)
    (chosen : Nat) (amount : Int) :
    virtualAt (paths.modify chosen (Path.charge amount)) index =
      if index = chosen then wrapI64 (virtualAt paths index + amount)
      else virtualAt paths index := by
  rw [virtualAt_eq found]
  by_cases same : chosen = index
  · subst same
    have charged : (paths.modify chosen (Path.charge amount))[chosen]? =
        some (path.charge amount) := by
      rw [List.getElem?_modify_eq, found]
      rfl
    rw [virtualAt_eq charged, if_pos rfl]
    rfl
  · have kept : (paths.modify chosen (Path.charge amount))[index]? = some path := by
      rw [List.getElem?_modify_ne _ _ same, found]
    rw [virtualAt_eq kept, if_neg (Ne.symm same)]

theorem leveling_inI64 (least : Int) (inside : InI64 value) : InI64 (leveling least value) := by
  unfold leveling
  split
  · exact wrapI64_inI64 _
  · exact inside

theorem spread_small (mostQueued mostCharge : Nat) :
    queueSpread mostQueued + serviceNs mostCharge fallbackRateBytesPerSec ≤ 4000000000000 := by
  have queued := serviceNs_le mostQueued
  have charge := serviceNs_le mostCharge
  unfold queueSpread
  omega

theorem Steady.queued_paths (steady : Steady order active mostCharge mostQueued state round)
    (listed : cand ∈ (candidatesOf state round).take active) (path : Path)
    (found : (screenedOf state round)[cand.idx]? = some path) : path.queuedBytes ≤ mostQueued := by
  obtain ⟨_, _, _, _, now, screened, _, queue⟩ := candidate_keeps (List.mem_of_mem_take listed)
  rw [found] at screened
  cases screened
  rw [queue]
  refine steady.queued cand.idx ?_
  rw [steady.members]
  exact List.mem_map_of_mem listed

theorem charge_modEq {virtual charged : Nat → Int} {left right : Nat} (chosen : Nat) (amount : Int)
    (same : virtual left - virtual right ≡ charged left - charged right
      [ZMOD 18446744073709551616]) :
    (if left = chosen then wrapI64 (virtual left + amount) else virtual left) -
        (if right = chosen then wrapI64 (virtual right + amount) else virtual right) ≡
      Function.update charged chosen (charged chosen + amount) left -
        Function.update charged chosen (charged chosen + amount) right
      [ZMOD 18446744073709551616] := by
  have moved : ∀ index, (if index = chosen then wrapI64 (virtual index + amount)
      else virtual index) - virtual index ≡
        Function.update charged chosen (charged chosen + amount) index - charged index
        [ZMOD 18446744073709551616] := by
    intro index
    split
    · rename_i here
      subst here
      have wrapped := (wrapI64_modEq (virtual index + amount)).sub_right (virtual index)
      rw [Function.update_self]
      rwa [show virtual index + amount - virtual index =
        charged index + amount - charged index by omega] at wrapped
    · rename_i apart
      rw [Function.update_of_ne apart, Int.sub_self, Int.sub_self]
  have joined := ((moved left).sub (moved right)).add same
  unfold Int.ModEq at joined ⊢
  omega

section

variable (several : 2 ≤ active)
  (fair : Fair (order.take active) (queueSpread mostQueued + serviceNs mostCharge fallbackRateBytesPerSec) state)

include several fair

theorem Fair.step (steady : Steady order active mostCharge mostQueued state round) :
    Fair (order.take active) (queueSpread mostQueued + serviceNs mostCharge fallbackRateBytesPerSec)
      (state.step round) := by
  obtain ⟨first, rest, shape, paths, charged⟩ := steady.step_eq several
  have members := steady.members
  have entered := entered_of state round
  rw [members] at fair
  obtain ⟨tracked, _⟩ := fair.tracked
  have small := spread_small mostQueued mostCharge
  have queued := fun cand listed => @Steady.queued_paths cand state round active order mostCharge
    mostQueued steady listed
  rw [members]
  rw [shape] at entered tracked fair queued ⊢
  have positive : 0 < active := by omega
  -- the level of a member, and what the charge adds to it
  have level : ∀ cand ∈ (first :: rest).take active,
      virtualAt (state.step round).port.paths cand.idx =
        if cand.idx = (stripe (screenedOf state round) first (first :: rest) active
          round.incomingBytes).1 then
          wrapI64 (virtualAt (leveled (screenedOf state round) (first :: rest) active) cand.idx +
            serviceNs round.incomingBytes fallbackRateBytesPerSec)
        else virtualAt (leveled (screenedOf state round) (first :: rest) active) cand.idx := by
    intro cand listed
    obtain ⟨path, _, found, _⟩ := leveled_path entered listed
    rw [paths]
    exact virtualAt_charge found _ _
  refine ⟨?_, ?_, ?_, Or.inl ?_⟩
  · refine fair.within.served ⟨serviceNs_nonneg _ _, serviceNs_mono steady.charge _, ?_, charged⟩
    intro other listed
    obtain ⟨cand, present, rfl⟩ := List.mem_map.mp listed
    exact bestOf_behind positive entered tracked fair.within small queued present
  · intro index listed
    obtain ⟨cand, present, rfl⟩ := List.mem_map.mp listed
    rw [level cand present]
    split
    · exact wrapI64_inI64 _
    · rw [virtualAt_leveled entered present]
      exact leveling_inI64 _ (tracked.inside cand present)
  · intro one oneIn two twoIn
    obtain ⟨left, leftIn, rfl⟩ := List.mem_map.mp oneIn
    obtain ⟨right, rightIn, rfl⟩ := List.mem_map.mp twoIn
    rw [level left leftIn, level right rightIn, charged]
    refine charge_modEq _ _ ?_
    rw [virtualAt_leveled entered leftIn, virtualAt_leveled entered rightIn]
    exact (leveling_modEq _ _ _).trans (tracked.same left leftIn right rightIn)
  · intro index listed
    obtain ⟨cand, present, rfl⟩ := List.mem_map.mp listed
    obtain ⟨path, _, found, _, flagged, _⟩ := leveled_path entered present
    rw [paths]
    have same : ∀ path : Path, (path.charge (serviceNs round.incomingBytes
      fallbackRateBytesPerSec)).active = path.active := fun _ => rfl
    unfold stripe
    dsimp only
    rw [any_modify same, found]
    exact flagged

theorem Fair.calm (calm : ∀ index ∈ order.take active, virtualAt state.port.paths index ≠ i64Max)
    (steady : Steady order active mostCharge mostQueued state round) :
    ScoresExact order active state round ∧
      ∀ index ∈ order.take active, virtualAt (state.step round).port.paths index ≠ i64Max := by
  obtain ⟨first, rest, shape, paths, charged⟩ := steady.step_eq several
  have members := steady.members
  have entered := entered_of state round
  rw [members] at fair calm
  obtain ⟨tracked, admitted⟩ := fair.tracked
  have apart := admitted calm
  have small := spread_small mostQueued mostCharge
  unfold ScoresExact
  rw [members]
  rw [shape] at entered tracked fair apart ⊢
  have finite : minVirtual (admitAll (screenedOf state round) (first :: rest) active)
      ((first :: rest).take active) ≠ i64Max := by
    intro mark
    have listed : first ∈ (first :: rest).take active := by
      obtain ⟨less, rfl⟩ := Nat.exists_eq_succ_of_ne_zero (show active ≠ 0 by omega)
      exact List.mem_cons_self
    have least : minVirtual (admitAll (screenedOf state round) (first :: rest) active)
        ((first :: rest).take active) ≤
          virtualAt (admitAll (screenedOf state round) (first :: rest) active) first.idx :=
      foldl_min_le_of_mem _ _ listed
    rw [mark, virtualAt_admitAll entered listed] at least
    exact apart first listed (le_antisymm (tracked.inside first listed).2 least)
  obtain ⟨base, _, level⟩ := leveled_exact entered tracked fair.within small finite
  constructor
  · intro index listed path found
    obtain ⟨cand, present, rfl⟩ := List.mem_map.mp listed
    obtain ⟨same, low, high⟩ := level cand present
    rw [virtualAt_eq found] at same
    exact exact_of_small (by omega) (by omega)
  · intro index listed
    obtain ⟨cand, present, rfl⟩ := List.mem_map.mp listed
    obtain ⟨path, _, found, _⟩ := leveled_path entered present
    obtain ⟨same, low, high⟩ := level cand present
    have amount := serviceNs_le round.incomingBytes
    have nonneg := serviceNs_nonneg round.incomingBytes fallbackRateBytesPerSec
    rw [paths]
    change virtualAt ((leveled (screenedOf state round) (first :: rest) active).modify _
      (Path.charge _)) cand.idx ≠ i64Max
    rw [virtualAt_charge found, same]
    have top : i64Max = 9223372036854775807 := rfl
    split
    · rw [wrapI64_eq (by unfold InI64; omega)]
      omega
    · omega

end

/-- Striping over a constant set of paths that start level: the service charged to
any two of them stays within one charge, one full queue and the carry bonus, and
unless they start at `i64::MAX` no score overflows. -/
theorem striping_bounded_fair (start : AdaptivePort) (order : List Nat)
    (active mostCharge mostQueued : Nat) (several : 2 ≤ active) (value : Int)
    (inside : InI64 value)
    (level : ∀ index ∈ order.take active, virtualAt start.paths index = value)
    (rounds : List Round)
    (steady : Runs.Along (Runs.total Striping.step) (Steady order active mostCharge mostQueued)
      ⟨start, fun _ => 0⟩ rounds) :
    (∀ first ∈ order.take active, ∀ second ∈ order.take active,
        (rounds.foldl Striping.step ⟨start, fun _ => 0⟩).charged first -
            (rounds.foldl Striping.step ⟨start, fun _ => 0⟩).charged second ≤
          serviceNs mostCharge fallbackRateBytesPerSec +
            serviceNs mostQueued fallbackRateBytesPerSec + 150000) ∧
      (value ≠ i64Max →
        Runs.Along (Runs.total Striping.step) (ScoresExact order active) ⟨start, fun _ => 0⟩
          rounds) := by
  have nonneg := serviceNs_nonneg mostCharge fallbackRateBytesPerSec
  have queueNonneg := serviceNs_nonneg mostQueued fallbackRateBytesPerSec
  have initially : Fair (order.take active)
      (queueSpread mostQueued + serviceNs mostCharge fallbackRateBytesPerSec)
      ⟨start, fun _ => 0⟩ := by
    refine ⟨FairShare.Within.start _ ?_ 0, ?_, ?_, Or.inr ⟨value, level⟩⟩
    · unfold queueSpread
      omega
    · intro index listed
      exact (level index listed).symm ▸ inside
    · intro first firstIn second secondIn
      dsimp only
      rw [level first firstIn, level second secondIn, Int.sub_self, Int.sub_self]
  constructor
  · have finally_fair := Runs.invariant_total Striping.step _ _
      (fun _ _ met fair => Fair.step several fair met) _ rounds steady initially
    intro first firstIn second secondIn
    have close := finally_fair.within first firstIn second secondIn
    unfold queueSpread at close
    omega
  · intro apart
    refine Runs.along_of_invariant _ _
      (fun state => Fair (order.take active)
          (queueSpread mostQueued + serviceNs mostCharge fallbackRateBytesPerSec) state ∧
        ∀ index ∈ order.take active, virtualAt state.port.paths index ≠ i64Max) _
      ?_ ?_ _ rounds steady ⟨initially, fun index listed => (level index listed).symm ▸ apart⟩
    · intro state round next met held taken
      cases taken
      exact ⟨held.1.step several met, (held.1.calm several held.2 met).2⟩
    · intro state round met held
      exact (held.1.calm several held.2 met).1

def twinPath (value : Int) : Path :=
  { rttUs := 20000, queueLen := 0, queueCapacity := 32, queuedBytes := 0, active := true
    carryPending := false, virtualFinishNs := value, rateBytesPerSec := 0, etaUs := 0 }

def twinPort (value : Int) : Striping := ⟨⟨[twinPath value, twinPath value], 2, 0⟩, fun _ => 0⟩

def busyRound : Round := ⟨fun _ => ⟨20000, 0, 32, 20000, false, 0⟩, none, 1500, 0⟩

instance (order : List Nat) (active mostCharge mostQueued : Nat) (state : Striping)
    (round : Round) : Decidable (Steady order active mostCharge mostQueued state round) :=
  decidable_of_iff (minRtt (readings (state.port.refresh round.weather).paths) ≠ u32Max ∧
      (candidatesOf state round).map Candidate.idx = order ∧
      activeTarget (pressure (readings (state.port.refresh round.weather).paths)
        round.incomingBytes) round.demandRate order.length = active ∧
      round.incomingBytes ≤ mostCharge ∧
      ∀ index ∈ order.take active, (round.weather index).queuedBytes ≤ mostQueued)
    ⟨fun ⟨measured, candidates, target, charge, queued⟩ =>
        ⟨measured, candidates, target, charge, queued⟩,
      fun ⟨measured, candidates, target, charge, queued⟩ =>
        ⟨measured, candidates, target, charge, queued⟩⟩

theorem striping_bounded_fair_twins :
    ([busyRound, busyRound, busyRound].foldl Striping.step (twinPort 5)).charged 0 = 120000 ∧
      ([busyRound, busyRound, busyRound].foldl Striping.step (twinPort 5)).charged 0 -
          ([busyRound, busyRound, busyRound].foldl Striping.step (twinPort 5)).charged 1 ≤
        serviceNs 1500 fallbackRateBytesPerSec + serviceNs 20000 fallbackRateBytesPerSec +
          150000 ∧
      Runs.Along (Runs.total Striping.step) (ScoresExact [0, 1] 2) (twinPort 5)
        [busyRound, busyRound, busyRound] := by
  have fair := striping_bounded_fair (twinPort 5).port [0, 1] 2 1500 20000 (by decide) 5
    (by unfold InI64; decide) (by decide) [busyRound, busyRound, busyRound] (by decide +kernel)
  exact ⟨by decide +kernel, fair.1 0 (by decide) 1 (by decide), fair.2 (by decide)⟩

/-- From `i64::MAX` nothing is taken off, and the first sum already wraps. -/
theorem score_wraps_at_the_mark :
    (∀ index ∈ [0, 1], virtualAt (twinPort i64Max).port.paths index = i64Max) ∧
      Steady [0, 1] 2 1500 20000 (twinPort i64Max) busyRound ∧
      ¬ ScoresExact [0, 1] 2 (twinPort i64Max) busyRound := by
  refine ⟨by decide, by decide +kernel, fun exact => ?_⟩
  have found : ∃ path, (leveled (screenedOf (twinPort i64Max) busyRound)
      (candidatesOf (twinPort i64Max) busyRound) 2)[0]? = some path ∧
        path.virtualFinishNs = i64Max ∧ path.queuedBytes = 20000 := ⟨_, rfl, rfl, rfl⟩
  obtain ⟨path, there, virtual, queued⟩ := found
  have sum := (exact 0 (by decide) path there).sum
  rw [virtual, queued] at sum
  exact absurd sum.2 (by decide)

end Rounds

end TlsVpn.Scheduler

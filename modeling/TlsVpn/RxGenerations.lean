import TlsVpn.RxActor
import TlsVpn.Unwinding

/-!
The generation barrier of the receive actor. A producer keeps the generation it
was created at, and a batch touches the state only if that is still the state's.
`reconfigure` publishes the new generation before it replaces the state, both
under the control lock that creating a producer takes as well, so no producer is
ahead of the state. After the replacement nothing that was buffered before has an
effect: the state holds no frame, and the producers that existed might as well
not be there.
-/

namespace TlsVpn.RxActor

open Words XorBytes Fec Reorder

section Steps

variable {batchCap : Nat} {actor next : RxSessionActor} {label : Label}

theorem Stepped.step_eq (stepped : Stepped batchCap actor label next) :
    actor.step batchCap label = some next := by
  cases stepped with
  | produce idle => simp only [RxSessionActor.step, idle]
  | refuse found free failed =>
    simp only [RxSessionActor.step, found, free, and_self, if_true, if_pos failed]
  | push found free well =>
    simp only [RxSessionActor.step, found, free, and_self, if_true, if_neg well]
  | process found ready => simp only [RxSessionActor.step, found, if_pos ready]
  | deliver found waiting => simp only [RxSessionActor.step, found, waiting]
  | takeError found => simp only [RxSessionActor.step, found]
  | timeout idle => simp only [RxSessionActor.step, idle]
  | deliverTimeout waiting => simp only [RxSessionActor.step, waiting]
  | reconfigure idle => simp only [RxSessionActor.step, idle]
  | install busy => simp only [RxSessionActor.step, busy]

end Steps

section Generations

/-- No producer is ahead of the state, and the state is behind the published
generation just while a `reconfigure` is between its two steps. -/
structure Dated (actor : RxSessionActor) : Prop where
  idle : actor.control = none → actor.state.generation = actor.generation
  busy : ∀ generation fec, actor.control = some (generation, fec) →
    generation = actor.generation ∧ actor.state.generation < generation
  producers : ∀ producer ∈ actor.producers, producer.generation ≤ actor.state.generation

theorem Dated.new (initialFec : Option FecDecoder) : Dated (RxSessionActor.new initialFec) where
  idle := fun _ => rfl
  busy := fun _ _ impossible => by cases impossible
  producers := List.forall_mem_nil _

theorem Dated.traffic {actor after : RxSessionActor} (dated : Dated actor)
    (same : SameGenerations actor after) : Dated after where
  idle := fun idle => by
    rw [same.state, same.generation]
    exact dated.idle (same.control ▸ idle)
  busy := fun generation fec busy => by
    rw [same.state, same.generation]
    exact dated.busy generation fec (same.control ▸ busy)
  producers := fun producer listed => by
    have member : producer.generation ∈ actor.producers.map RxProducer.generation :=
      same.producers ▸ List.mem_map_of_mem listed
    obtain ⟨old, present, equal⟩ := List.mem_map.mp member
    rw [← equal, same.state]
    exact dated.producers old present

variable {batchCap : Nat} {actor next : RxSessionActor} {label : Label}

theorem Dated.step (dated : Dated actor) (taken : actor.step batchCap label = some next) :
    Dated next := by
  cases traffic : label.isTraffic with
  | true => exact dated.traffic (traffic_generations traffic taken)
  | false =>
    cases stepped_of_step taken with
    | produce idle =>
      refine ⟨dated.idle, dated.busy, fun producer listed => ?_⟩
      rcases List.mem_append.mp listed with old | new
      · exact dated.producers producer old
      · rw [List.mem_singleton.mp new]
        exact Nat.le_of_eq (dated.idle idle).symm
    | reconfigure idle =>
      refine ⟨fun impossible => (by cases impossible), fun generation fec busy => ?_,
        dated.producers⟩
      cases busy
      exact ⟨rfl, Nat.lt_succ_of_le (Nat.le_of_eq (dated.idle idle))⟩
    | install busy =>
      obtain ⟨published, behind⟩ := dated.busy _ _ busy
      refine ⟨fun _ => published, fun _ _ impossible => (by cases impossible),
        fun producer listed => ?_⟩
      exact (dated.producers producer listed).trans (Nat.le_of_lt behind)
    | _ => cases traffic

def RxSessionActor.creates (actor : RxSessionActor) : Label → List Nat
  | .produce => [actor.generation]
  | _ => []

theorem step_creates (taken : actor.step batchCap label = some next) :
    next.producers.map RxProducer.generation =
      actor.producers.map RxProducer.generation ++ actor.creates label := by
  cases traffic : label.isTraffic with
  | true =>
    rw [(traffic_generations traffic taken).producers]
    cases label with
    | produce => cases traffic
    | _ => exact (List.append_nil _).symm
  | false =>
    cases stepped_of_step taken with
    | produce idle => exact List.map_append
    | reconfigure idle => exact (List.append_nil _).symm
    | install busy => exact (List.append_nil _).symm
    | _ => cases traffic

theorem producers_created (batchCap : Nat) (labels : List Label) (start final : RxSessionActor)
    (reached : Runs.run (RxSessionActor.step batchCap) start labels = some final) :
    final.producers.map RxProducer.generation =
      start.producers.map RxProducer.generation ++
        Unwinding.outputs (RxSessionActor.step batchCap) RxSessionActor.creates start labels := by
  induction labels generalizing start with
  | nil =>
    cases reached
    exact (List.append_nil _).symm
  | cons label rest ih =>
    obtain ⟨next, taken, tail⟩ := Runs.run_cons _ start final label rest reached
    rw [ih next tail, Unwinding.outputs_cons taken, step_creates taken, List.append_assoc]

end Generations

section Barrier

def RxSessionActor.takesOut (actor : RxSessionActor) : Label → Reorder.Delivered
  | .process index clock =>
    match actor.producers[index]? with
    | some producer =>
      (processBatch actor.state producer.generation producer.batch clock).2.1
    | none => []
  | .timeout now => (flushTimeoutInto actor.state.reorder now).2
  | _ => []

variable {batchCap : Nat} {actor next : RxSessionActor} {label : Label}

theorem processBatch_foreign {state : RxActorState} {generation : Nat}
    (foreign : generation ≠ state.generation) (frames : List RxFrame) (clock : Nat → Nat) :
    processBatch state generation frames clock = (state, [], none) := if_pos foreign

theorem state_touched (taken : actor.step batchCap label = some next)
    (touched : next.state ≠ actor.state) :
    (∃ index clock producer, label = .process index clock ∧
        actor.producers[index]? = some producer ∧
        producer.generation = actor.state.generation) ∨
      (∃ now, label = .timeout now) ∨ label = .install := by
  cases stepped_of_step taken with
  | process found ready =>
    rename_i index clock producer
    refine Or.inl ⟨index, clock, producer, rfl, found, ?_⟩
    by_contra foreign
    exact touched (congrArg Prod.fst (processBatch_foreign foreign producer.batch clock))
  | timeout idle => exact Or.inr (Or.inl ⟨_, rfl⟩)
  | install busy => exact Or.inr (Or.inr rfl)
  | _ => exact absurd rfl touched

end Barrier

section Forgetting

def Label.producer : Label → Option Nat
  | .push index _ _ => some index
  | .process index _ => some index
  | .deliver index => some index
  | .takeError index => some index
  | _ => none

def Label.ofFirst (count : Nat) (label : Label) : Bool :=
  label.producer.any fun index => decide (index < count)

structure RxProducer.Like (producer twin : RxProducer) : Prop where
  generation : twin.generation = producer.generation
  batch : twin.batch = producer.batch
  due : twin.due = producer.due
  pending : twin.pending.map Extraction.frames = producer.pending.map Extraction.frames
  verdict : twin.verdict = producer.verdict
  error : twin.error = producer.error

variable {index : Nat} (left right : Nat) (frames : Reorder.Delivered)

theorem RxProducer.Like.refl (producer : RxProducer) : producer.Like producer :=
  ⟨rfl, rfl, rfl, rfl, rfl, rfl⟩

theorem RxProducer.Like.isNone {producer twin : RxProducer} (like : producer.Like twin) :
    twin.pending.isNone = producer.pending.isNone := by
  have same := congrArg Option.isNone like.pending
  rwa [Option.isNone_map, Option.isNone_map] at same

/-- The same actor but for its first producers, the numbers of the extractions,
and what was delivered. -/
structure Alike (count : Nat) (actor twin : RxSessionActor) : Prop where
  generation : twin.generation = actor.generation
  control : twin.control = actor.control
  state : twin.state = actor.state
  timer : twin.timer.map Extraction.frames = actor.timer.map Extraction.frames
  length : twin.producers.length = actor.producers.length
  newer : ∀ index, count ≤ index → ∀ producer, actor.producers[index]? = some producer →
    ∃ other, twin.producers[index]? = some other ∧ producer.Like other

variable {batchCap count : Nat} {actor twin next : RxSessionActor} {label : Label}

theorem extraction_like :
    (extraction left frames).map Extraction.frames =
      (extraction right frames).map Extraction.frames := by
  unfold extraction
  split <;> rfl

theorem extraction_isSome_like :
    (extraction left frames).isSome = (extraction right frames).isSome := by
  unfold extraction
  split <;> rfl

theorem Alike.set (alike : Alike count actor twin) {new other : RxProducer} (like : new.Like other) :
    ∀ position, count ≤ position → ∀ producer,
      (actor.producers.set index new)[position]? = some producer →
      ∃ mate, (twin.producers.set index other)[position]? = some mate ∧ producer.Like mate := by
  intro position above producer found
  rw [List.getElem?_set] at found ⊢
  by_cases here : index = position
  · rw [if_pos here] at found ⊢
    rw [alike.length]
    split at found
    · cases found
      exact ⟨other, if_pos ‹_›, like⟩
    · cases found
  · rw [if_neg here] at found ⊢
    exact alike.newer position above producer found

theorem Alike.set_first (alike : Alike count actor twin) (first : index < count) (new : RxProducer) :
    ∀ position, count ≤ position → ∀ producer,
      (actor.producers.set index new)[position]? = some producer →
      ∃ mate, twin.producers[position]? = some mate ∧ producer.Like mate := by
  intro position above producer found
  rw [List.getElem?_set_ne (Nat.ne_of_lt (Nat.lt_of_lt_of_le first above))] at found
  exact alike.newer position above producer found

structure Fenced (count : Nat) (actor : RxSessionActor) : Prop where
  dated : Dated actor
  counted : count ≤ actor.producers.length
  past : ∀ index < count, ∀ producer, actor.producers[index]? = some producer →
    producer.generation < actor.state.generation

theorem Dated.forward (dated : Dated actor) (taken : actor.step batchCap label = some next) :
    actor.state.generation ≤ next.state.generation := by
  cases traffic : label.isTraffic with
  | true => exact Nat.le_of_eq (traffic_generations traffic taken).state.symm
  | false =>
    cases stepped_of_step taken with
    | install busy => exact Nat.le_of_lt (dated.busy _ _ busy).2
    | produce idle => exact Nat.le_refl _
    | reconfigure idle => exact Nat.le_refl _
    | _ => cases traffic

theorem Fenced.step (fenced : Fenced count actor)
    (taken : actor.step batchCap label = some next) : Fenced count next := by
  have created := step_creates taken
  have length : actor.producers.length ≤ next.producers.length := by
    have lengths := congrArg List.length created
    rw [List.length_append, List.length_map, List.length_map] at lengths
    omega
  refine ⟨fenced.dated.step taken, fenced.counted.trans length, fun index first producer found => ?_⟩
  have inside : index < actor.producers.length := Nat.lt_of_lt_of_le first fenced.counted
  have same : some producer.generation = some actor.producers[index].generation := by
    have here := congrArg (·[index]?) created
    rw [List.getElem?_append_left (by rwa [List.length_map]), List.getElem?_map, List.getElem?_map,
      found, List.getElem?_eq_getElem inside] at here
    exact here
  rw [Option.some.inj same]
  exact Nat.lt_of_lt_of_le
    (fenced.past index first _ (List.getElem?_eq_getElem inside)) (fenced.dated.forward taken)

theorem Alike.skips (fenced : Fenced count actor) (alike : Alike count actor twin)
    (first : label.ofFirst count = true) (taken : actor.step batchCap label = some next) :
    Alike count next twin ∧ actor.takesOut label = [] := by
  cases stepped_of_step taken with
  | refuse found free failed => exact ⟨alike, rfl⟩
  | push found free well =>
    refine ⟨⟨alike.generation, alike.control, alike.state, alike.timer, ?_,
      alike.set_first (of_decide_eq_true first) _⟩, rfl⟩
    rw [List.length_set]
    exact alike.length
  | process found ready =>
    rename_i index clock producer
    have foreign : producer.generation ≠ actor.state.generation :=
      Nat.ne_of_lt (fenced.past index (of_decide_eq_true first) producer found)
    have dropped := processBatch_foreign foreign producer.batch clock
    refine ⟨⟨alike.generation, alike.control, ?_, alike.timer, ?_,
      alike.set_first (of_decide_eq_true first) _⟩, ?_⟩
    · exact alike.state.trans (congrArg Prod.fst dropped).symm
    · exact alike.length.trans List.length_set.symm
    · simp only [RxSessionActor.takesOut, found, dropped]
  | deliver found waiting =>
    refine ⟨⟨alike.generation, alike.control, alike.state, alike.timer, ?_,
      alike.set_first (of_decide_eq_true first) _⟩, rfl⟩
    exact alike.length.trans List.length_set.symm
  | takeError found =>
    refine ⟨⟨alike.generation, alike.control, alike.state, alike.timer, ?_,
      alike.set_first (of_decide_eq_true first) _⟩, rfl⟩
    exact alike.length.trans List.length_set.symm
  | _ => cases first

theorem Alike.follows (alike : Alike count actor twin) (shown : label.ofFirst count = false)
    (taken : actor.step batchCap label = some next) :
    ∃ after, twin.step batchCap label = some after ∧ Alike count next after ∧
      twin.takesOut label = actor.takesOut label := by
  cases stepped_of_step taken with
  | produce idle =>
    refine ⟨_, (Stepped.produce (alike.control.trans idle)).step_eq,
      ⟨alike.generation, alike.control, alike.state, alike.timer, ?_, ?_⟩, rfl⟩
    · rw [List.length_append, List.length_append, alike.length]
      rfl
    · intro position above producer found
      rw [List.getElem?_append] at found ⊢
      rw [alike.length]
      split at found
      · rw [if_pos ‹_›]
        exact alike.newer position above producer found
      · rw [if_neg ‹_›, alike.generation]
        exact ⟨producer, found, .refl producer⟩
  | refuse found free failed =>
    obtain ⟨other, there, like⟩ := alike.newer _ (Nat.not_lt.mp (of_decide_eq_false shown)) _ found
    rw [← like.due, ← like.isNone] at free
    rw [← like.error] at failed
    exact ⟨twin, (Stepped.refuse there free failed).step_eq, alike, rfl⟩
  | push found free well =>
    obtain ⟨other, there, like⟩ := alike.newer _ (Nat.not_lt.mp (of_decide_eq_false shown)) _ found
    rw [← like.due, ← like.isNone] at free
    rw [← like.error] at well
    refine ⟨_, (Stepped.push there free well).step_eq,
      ⟨alike.generation, alike.control, alike.state, alike.timer, ?_, alike.set ?_⟩, rfl⟩
    · rw [List.length_set, List.length_set]
      exact alike.length
    · refine ⟨like.generation, ?_, ?_, like.pending, like.verdict, like.error⟩
      · rw [like.batch]
      · rw [like.batch]
  | process found ready =>
    rename_i index clock producer
    obtain ⟨other, there, like⟩ := alike.newer _ (Nat.not_lt.mp (of_decide_eq_false shown)) _ found
    rw [← like.batch, ← like.isNone] at ready
    have result : processBatch twin.state other.generation other.batch clock =
        processBatch actor.state producer.generation producer.batch clock := by
      rw [alike.state, like.generation, like.batch]
    refine ⟨_, (Stepped.process there ready).step_eq,
      ⟨alike.generation, alike.control, ?_, alike.timer, ?_, alike.set ?_⟩, ?_⟩
    · exact congrArg Prod.fst result
    · exact (List.length_set.trans alike.length).trans List.length_set.symm
    · have owed := extraction_isSome_like twin.tickets actor.tickets
        (processBatch actor.state producer.generation producer.batch clock).2.1
      rw [result]
      refine ⟨like.generation, rfl, rfl, extraction_like _ _ _, ?_, ?_⟩
      · rw [owed]
      · rw [owed, like.error]
    · simp only [RxSessionActor.takesOut, there, found, result]
  | deliver found waiting =>
    obtain ⟨other, there, like⟩ := alike.newer _ (Nat.not_lt.mp (of_decide_eq_false shown)) _ found
    have pending := like.pending
    rw [waiting, Option.map_some, Option.map_eq_some_iff] at pending
    obtain ⟨owed, held, _⟩ := pending
    refine ⟨_, (Stepped.deliver there held).step_eq,
      ⟨alike.generation, alike.control, alike.state, alike.timer, ?_, alike.set ?_⟩, rfl⟩
    · exact (List.length_set.trans alike.length).trans List.length_set.symm
    · refine ⟨like.generation, like.batch, like.due, rfl, rfl, ?_⟩
      rw [like.verdict, like.error]
  | takeError found =>
    obtain ⟨other, there, like⟩ := alike.newer _ (Nat.not_lt.mp (of_decide_eq_false shown)) _ found
    refine ⟨_, (Stepped.takeError there).step_eq,
      ⟨alike.generation, alike.control, alike.state, alike.timer, ?_, alike.set ?_⟩, rfl⟩
    · exact (List.length_set.trans alike.length).trans List.length_set.symm
    · exact ⟨like.generation, like.batch, like.due, like.pending, like.verdict, rfl⟩
  | timeout idle =>
    have empty : twin.timer = none := by
      have timer := alike.timer
      rwa [idle, Option.map_none, Option.map_eq_none_iff] at timer
    refine ⟨_, (Stepped.timeout empty).step_eq,
      ⟨alike.generation, alike.control, ?_, ?_, alike.length, alike.newer⟩, ?_⟩
    · rw [alike.state]
    · rw [alike.state]
      exact extraction_like _ _ _
    · simp only [RxSessionActor.takesOut, alike.state]
  | deliverTimeout waiting =>
    have timer := alike.timer
    rw [waiting, Option.map_some, Option.map_eq_some_iff] at timer
    obtain ⟨owed, held, _⟩ := timer
    exact ⟨_, (Stepped.deliverTimeout held).step_eq,
      ⟨alike.generation, alike.control, alike.state, rfl, alike.length, alike.newer⟩, rfl⟩
  | reconfigure idle =>
    refine ⟨_, (Stepped.reconfigure (alike.control.trans idle)).step_eq,
      ⟨?_, ?_, alike.state, alike.timer, alike.length, alike.newer⟩, rfl⟩
    · rw [alike.generation]
    · rw [alike.generation]
  | install busy =>
    refine ⟨_, (Stepped.install (alike.control.trans busy)).step_eq,
      ⟨alike.generation, rfl, ?_, alike.timer, alike.length, alike.newer⟩, rfl⟩
    rw [alike.state]

def RxSessionActor.forget (actor : RxSessionActor) : RxSessionActor :=
  { actor with producers := actor.producers.map fun producer => RxProducer.new producer.generation }

theorem Alike.forget (actor : RxSessionActor) : Alike actor.producers.length actor actor.forget where
  generation := rfl
  control := rfl
  state := rfl
  timer := rfl
  length := List.length_map ..
  newer := fun index above producer found => by
    rw [List.getElem?_eq_none above] at found
    cases found

structure Cleared (state : RxActorState) : Prop where
  ring : ∀ position, state.reorder.ring position = none
  base : state.reorder.expectedSeq = 0
  dedup : state.dedup = DeDuplicator.new
  groups : ∀ decoder, state.fec = some decoder → decoder.inner.groups = ∅ ∧
    decoder.inner.done = fun _ => 0

theorem cleared_replace (state : RxActorState) (generation : Nat) (fec : Option FecDecoder) :
    Cleared (state.replace generation fec) where
  ring := fun _ => rfl
  base := rfl
  dedup := rfl
  groups := fun decoder found => by
    obtain ⟨given, _, rfl⟩ := Option.map_eq_some_iff.mp found
    exact ⟨rfl, rfl⟩

theorem Dated.fenced (dated : Dated actor) (taken : actor.step batchCap .install = some next) :
    Fenced next.producers.length next := by
  refine ⟨dated.step taken, Nat.le_refl _, fun index _ producer found => ?_⟩
  cases stepped_of_step taken with
  | install busy =>
    exact Nat.lt_of_le_of_lt (dated.producers producer (List.mem_of_getElem? found))
      (dated.busy _ _ busy).2

/-- The barrier, over every run from a new actor: frames touch the state only in a
batch of a producer created at the state's generation, and what the steps after a
`reconfigure` take out is what they would take out had its producers never been
given a frame. -/
theorem generation_barrier (batchCap : Nat) (initialFec : Option FecDecoder)
    (labels : List Label) (actor next : RxSessionActor) (label : Label)
    (reached : Runs.run (RxSessionActor.step batchCap) (RxSessionActor.new initialFec) labels =
      some actor)
    (taken : actor.step batchCap label = some next) :
    ((next.state.dedup, next.state.fec, next.state.reorder) ≠
        (actor.state.dedup, actor.state.fec, actor.state.reorder) →
      (∃ index clock, label = .process index clock ∧
          (Unwinding.outputs (RxSessionActor.step batchCap) RxSessionActor.creates
            (RxSessionActor.new initialFec) labels)[index]? = some actor.state.generation) ∨
        (∃ now, label = .timeout now) ∨ label = .install) ∧
    (label = .install →
      Cleared next.state ∧
        ∀ later final, Runs.run (RxSessionActor.step batchCap) next later = some final →
          ∃ after, Runs.run (RxSessionActor.step batchCap) next.forget
              (Unwinding.purge (Label.ofFirst next.producers.length) later) = some after ∧
            Unwinding.outputs (RxSessionActor.step batchCap) RxSessionActor.takesOut next.forget
                (Unwinding.purge (Label.ofFirst next.producers.length) later) =
              Unwinding.outputs (RxSessionActor.step batchCap) RxSessionActor.takesOut next
                later) := by
  have dated : Dated actor := Runs.invariant_run (RxSessionActor.step batchCap) Dated
    (fun _ _ _ held moved => held.step moved) _ actor labels reached (Dated.new initialFec)
  constructor
  · intro changed
    have touched : next.state ≠ actor.state := by
      intro same
      rw [same] at changed
      exact changed rfl
    refine (state_touched taken touched).imp_left ?_
    rintro ⟨index, clock, producer, rfl, found, current⟩
    refine ⟨index, clock, rfl, ?_⟩
    have created := producers_created batchCap labels _ actor reached
    rw [show (RxSessionActor.new initialFec).producers = [] from rfl, List.map_nil,
      List.nil_append] at created
    rw [← created, List.getElem?_map, found, Option.map_some, current]
  · rintro rfl
    have cleared : Cleared next.state := by
      cases stepped_of_step taken with
      | install busy => exact cleared_replace _ _ _
    refine ⟨cleared, fun later final ran => ?_⟩
    obtain ⟨after, run, _, same⟩ := Unwinding.outputs_purge (RxSessionActor.step batchCap)
      RxSessionActor.takesOut (Label.ofFirst next.producers.length)
      (fun state twin => Fenced next.producers.length state ∧
        Alike next.producers.length state twin)
      (fun state twin label moved held hidden step =>
        have skipped := held.2.skips held.1 hidden step
        ⟨⟨held.1.step step, skipped.1⟩, skipped.2⟩)
      (fun state twin label moved held shown step =>
        have ⟨after, follow, alike, equal⟩ := held.2.follows shown step
        ⟨after, follow, ⟨held.1.step step, alike⟩, equal⟩)
      next next.forget final later ran ⟨dated.fenced taken, Alike.forget next⟩
    exact ⟨after, run, same⟩

def fencedBatch : List Label :=
  [.produce, .push 0 1 [170], .reconfigure none]

def laterBatches : List Label :=
  [.process 0 fun _ => 0, .produce, .push 1 1 [187], .push 0 2 [171], .process 1 fun _ => 0,
    .process 0 fun _ => 0, .timeout 0]

theorem generation_barrier_fencedBatch :
    ∃ actor next, Runs.run (RxSessionActor.step 16) (RxSessionActor.new none) fencedBatch =
        some actor ∧
      actor.step 16 .install = some next ∧
      Unwinding.outputs (RxSessionActor.step 16) RxSessionActor.takesOut next laterBatches =
        [(1, [187])] ∧
      Unwinding.outputs (RxSessionActor.step 16) RxSessionActor.takesOut next.forget
          [.produce, .push 1 1 [187], .process 1 fun _ => 0, .timeout 0] =
        Unwinding.outputs (RxSessionActor.step 16) RxSessionActor.takesOut next laterBatches := by
  refine ⟨_, _, rfl, rfl, ?_, ?_⟩
  · decide +kernel
  · obtain ⟨_, later⟩ := (generation_barrier 16 none fencedBatch _ _ .install rfl rfl).2 rfl
    obtain ⟨_, _, same⟩ := later laterBatches _ rfl
    exact same

end Forgetting

end TlsVpn.RxActor

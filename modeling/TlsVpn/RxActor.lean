import TlsVpn.Fec
import TlsVpn.Holdings
import TlsVpn.Reorder
import TlsVpn.Runs

/-!
The receive actor of rx_actor.rs. Its state is updated under one lock, and what
an update releases is handed to the delivery callback after the lock is dropped,
by the thread that made the update: a producer in `process_batch`, or the timer.
Replacing the state takes two steps under a control lock of its own: the
generation is published first, then the state is replaced.

A step's label names the thread. The delivered frames carry their numbers, which
the callback does not see; `ticket` counts the extractions, `delivered` logs what
the callback got. Recycled vectors, wake-ups and the dashboard are not modelled.
-/

namespace TlsVpn.RxActor

open Words XorBytes Protocol Fec Reorder

abbrev RxFrame := Nat × Bytes

structure RxActorState where
  generation : Nat
  fec : Option FecDecoder
  reorder : ReorderBuffer
  dedup : DeDuplicator
  recoveredBase : Nat
  lostBase : Nat

def RxActorState.new (fec : Option FecDecoder) : RxActorState where
  generation := 1
  fec := fec
  reorder := Reorder.new
  dedup := DeDuplicator.new
  recoveredBase := 0
  lostBase := 0

section Batch

/-- The frames `insert_pair` inserts, in its order: the smaller number first, and
a recovered frame under the data frame's own number not at all. -/
def insertPair (item : RxFrame) : Option RxFrame → List RxFrame
  | none => [item]
  | some recovered =>
    if recovered.1 < item.1 then [recovered, item]
    else if recovered.1 > item.1 then [item, recovered]
    else [item]

/-- `process_item`: the state afterwards, what became ready, and the error. -/
def processItem (state : RxActorState) (clock : Nat → Nat) (item : RxFrame) :
    RxActorState × Reorder.Delivered × Option String :=
  if item.1 = 0 then
    match state.fec with
    | none =>
      (state, [], some ("protocol v" ++ toString protocolVersion ++
        " typed control without negotiated FEC"))
    | some decoder =>
      let result := decoder.onControlActor item.2 state.reorder.expectedSeq
      match result.2 with
      | .ok recovered =>
        let placed := insertAll state.reorder clock recovered.toList
        ({ state with fec := some result.1, reorder := placed.1 }, placed.2, none)
      | .error message =>
        ({ state with fec := some result.1 }, [],
          some ("protocol v3 control error: " ++ message))
  else
    let decoded := state.fec.map fun decoder =>
      decoder.onDataActor item.1 item.2 state.reorder.expectedSeq
    let recovered := decoded.bind fun result => result.2
    let checked := state.dedup.isDuplicate item.1
    let placed := insertAll state.reorder clock
      (if checked.2 then recovered.toList else insertPair item recovered)
    ({ state with
      fec := decoded.map fun result => result.1
      dedup := checked.1
      reorder := placed.1 }, placed.2, none)

/-- The loop of `process_batch`, which stops at the first error. -/
def processItems (clock : Nat → Nat) :
    RxActorState → List RxFrame → RxActorState × Reorder.Delivered × Option String
  | state, [] => (state, [], none)
  | state, item :: rest =>
    let first := processItem state clock item
    match first.2.2 with
    | some message => (first.1, first.2.1, some message)
    | none =>
      let others := processItems clock first.1 rest
      (others.1, first.2.1 ++ others.2.1, others.2.2)

/-- `process_batch` under the state lock. A batch of another generation is
dropped. -/
def processBatch (state : RxActorState) (generation : Nat) (frames : List RxFrame)
    (clock : Nat → Nat) : RxActorState × Reorder.Delivered × Option String :=
  if generation ≠ state.generation then (state, [], none) else processItems clock state frames

/-- The state half of `reconfigure`. -/
def RxActorState.replace (state : RxActorState) (generation : Nat) (fec : Option FecDecoder) :
    RxActorState where
  generation := generation
  fec := fec.map FecDecoder.reset
  reorder := Reorder.reset state.reorder
  dedup := state.dedup.reset
  recoveredBase := match state.fec with
    | some old => saturatingAdd state.recoveredBase old.inner.recovered
    | none => state.recoveredBase
  lostBase := match state.fec with
    | some old => saturatingAdd state.lostBase old.inner.lost
    | none => state.lostBase

end Batch

section Threads

/-- Frames taken out under the lock and not yet handed to the callback. -/
structure Extraction where
  ticket : Nat
  frames : Reorder.Delivered

structure RxProducer where
  generation : Nat
  batch : List RxFrame
  /-- The batch is full or ends in a control, so `push` is about to flush it. -/
  due : Bool
  pending : Option Extraction
  /-- The error of a batch whose frames are still to be delivered. -/
  verdict : Option String
  error : Option String

def RxProducer.new (generation : Nat) : RxProducer := ⟨generation, [], false, none, none, none⟩

structure RxSessionActor where
  generation : Nat
  /-- A `reconfigure` between its two steps. -/
  control : Option (Nat × Option FecDecoder)
  state : RxActorState
  producers : List RxProducer
  timer : Option Extraction
  tickets : Nat
  delivered : Reorder.Delivered

def RxSessionActor.new (initialFec : Option FecDecoder) : RxSessionActor where
  generation := 1
  control := none
  state := RxActorState.new initialFec
  producers := []
  timer := none
  tickets := 0
  delivered := []

inductive Label where
  | produce
  | push (producer seq : Nat) (data : Bytes)
  | process (producer : Nat) (clock : Nat → Nat)
  | deliver (producer : Nat)
  | takeError (producer : Nat)
  | timeout (now : Nat)
  | deliverTimeout
  | reconfigure (fec : Option FecDecoder)
  | install

def extraction (ticket : Nat) (frames : Reorder.Delivered) : Option Extraction :=
  if frames = [] then none else some ⟨ticket, frames⟩

def RxSessionActor.process (actor : RxSessionActor) (index : Nat) (producer : RxProducer)
    (clock : Nat → Nat) : RxSessionActor :=
  let result := processBatch actor.state producer.generation producer.batch clock
  let owed := extraction actor.tickets result.2.1
  { actor with
    state := result.1
    tickets := actor.tickets + 1
    producers := actor.producers.set index
      { producer with
        batch := []
        due := false
        pending := owed
        verdict := if owed.isSome then result.2.2 else none
        error := if owed.isSome then producer.error else result.2.2 <|> producer.error } }

def RxSessionActor.step (batchCap : Nat) (actor : RxSessionActor) : Label → Option RxSessionActor
  | .produce =>
    match actor.control with
    | none =>
      some { actor with producers := actor.producers ++ [RxProducer.new actor.generation] }
    | some _ => none
  | .push index seq data =>
    match actor.producers[index]? with
    | some producer =>
      if producer.due = false ∧ producer.pending.isNone then
        if producer.error.isSome then some actor
        else
          some { actor with
            producers := actor.producers.set index
              { producer with
                batch := producer.batch ++ [(seq, data)]
                due := decide (producer.batch.length + 1 ≥ batchCap ∨ seq = 0) } }
      else none
    | none => none
  | .process index clock =>
    match actor.producers[index]? with
    | some producer =>
      if producer.batch ≠ [] ∧ producer.pending.isNone then
        some (actor.process index producer clock)
      else none
    | none => none
  | .deliver index =>
    match actor.producers[index]? with
    | some producer =>
      match producer.pending with
      | some owed =>
        some { actor with
          delivered := actor.delivered ++ owed.frames
          producers := actor.producers.set index
            { producer with
              pending := none
              verdict := none
              error := producer.verdict <|> producer.error } }
      | none => none
    | none => none
  | .takeError index =>
    match actor.producers[index]? with
    | some producer =>
      some { actor with producers := actor.producers.set index { producer with error := none } }
    | none => none
  | .timeout now =>
    match actor.timer with
    | none =>
      let result := flushTimeoutInto actor.state.reorder now
      some { actor with
        state := { actor.state with reorder := result.1 }
        tickets := actor.tickets + 1
        timer := extraction actor.tickets result.2 }
    | some _ => none
  | .deliverTimeout =>
    match actor.timer with
    | some owed =>
      some { actor with delivered := actor.delivered ++ owed.frames, timer := none }
    | none => none
  | .reconfigure fec =>
    match actor.control with
    | none =>
      some { actor with
        generation := actor.generation + 1
        control := some (actor.generation + 1, fec) }
    | some _ => none
  | .install =>
    match actor.control with
    | some (generation, fec) =>
      some { actor with
        control := none
        state := actor.state.replace generation fec }
    | none => none

end Threads

section Steps

inductive Stepped (batchCap : Nat) (actor : RxSessionActor) : Label → RxSessionActor → Prop where
  | produce (idle : actor.control = none) :
      Stepped batchCap actor .produce
        { actor with producers := actor.producers ++ [RxProducer.new actor.generation] }
  | refuse {index seq : Nat} {data : Bytes} {producer : RxProducer}
      (found : actor.producers[index]? = some producer)
      (free : producer.due = false ∧ producer.pending.isNone)
      (failed : producer.error.isSome) :
      Stepped batchCap actor (.push index seq data) actor
  | push {index seq : Nat} {data : Bytes} {producer : RxProducer}
      (found : actor.producers[index]? = some producer)
      (free : producer.due = false ∧ producer.pending.isNone)
      (well : ¬ producer.error.isSome) :
      Stepped batchCap actor (.push index seq data)
        { actor with
          producers := actor.producers.set index
            { producer with
              batch := producer.batch ++ [(seq, data)]
              due := decide (producer.batch.length + 1 ≥ batchCap ∨ seq = 0) } }
  | process {index : Nat} {clock : Nat → Nat} {producer : RxProducer}
      (found : actor.producers[index]? = some producer)
      (ready : producer.batch ≠ [] ∧ producer.pending.isNone) :
      Stepped batchCap actor (.process index clock) (actor.process index producer clock)
  | deliver {index : Nat} {producer : RxProducer} {owed : Extraction}
      (found : actor.producers[index]? = some producer)
      (waiting : producer.pending = some owed) :
      Stepped batchCap actor (.deliver index)
        { actor with
          delivered := actor.delivered ++ owed.frames
          producers := actor.producers.set index
            { producer with
              pending := none
              verdict := none
              error := producer.verdict <|> producer.error } }
  | takeError {index : Nat} {producer : RxProducer}
      (found : actor.producers[index]? = some producer) :
      Stepped batchCap actor (.takeError index)
        { actor with producers := actor.producers.set index { producer with error := none } }
  | timeout {now : Nat} (idle : actor.timer = none) :
      Stepped batchCap actor (.timeout now)
        { actor with
          state := { actor.state with reorder := (flushTimeoutInto actor.state.reorder now).1 }
          tickets := actor.tickets + 1
          timer := extraction actor.tickets (flushTimeoutInto actor.state.reorder now).2 }
  | deliverTimeout {owed : Extraction} (waiting : actor.timer = some owed) :
      Stepped batchCap actor .deliverTimeout
        { actor with delivered := actor.delivered ++ owed.frames, timer := none }
  | reconfigure {fec : Option FecDecoder} (idle : actor.control = none) :
      Stepped batchCap actor (.reconfigure fec)
        { actor with
          generation := actor.generation + 1
          control := some (actor.generation + 1, fec) }
  | install {generation : Nat} {fec : Option FecDecoder}
      (busy : actor.control = some (generation, fec)) :
      Stepped batchCap actor .install
        { actor with control := none, state := actor.state.replace generation fec }

variable {batchCap : Nat} {actor next : RxSessionActor} {label : Label}

theorem stepped_of_step (taken : actor.step batchCap label = some next) :
    Stepped batchCap actor label next := by
  cases label with
  | produce =>
    simp only [RxSessionActor.step] at taken
    split at taken <;> cases taken
    exact .produce ‹_›
  | push index seq data =>
    simp only [RxSessionActor.step] at taken
    split at taken
    · split at taken
      · split at taken <;> cases taken
        · exact .refuse ‹_› ‹_› ‹_›
        · exact .push ‹_› ‹_› ‹_›
      · cases taken
    · cases taken
  | process index clock =>
    simp only [RxSessionActor.step] at taken
    split at taken
    · split at taken <;> cases taken
      exact .process ‹_› ‹_›
    · cases taken
  | deliver index =>
    simp only [RxSessionActor.step] at taken
    split at taken
    · split at taken <;> cases taken
      exact .deliver ‹_› ‹_›
    · cases taken
  | takeError index =>
    simp only [RxSessionActor.step] at taken
    split at taken <;> cases taken
    exact .takeError ‹_›
  | timeout now =>
    simp only [RxSessionActor.step] at taken
    split at taken <;> cases taken
    exact .timeout ‹_›
  | deliverTimeout =>
    simp only [RxSessionActor.step] at taken
    split at taken <;> cases taken
    exact .deliverTimeout ‹_›
  | reconfigure fec =>
    simp only [RxSessionActor.step] at taken
    split at taken <;> cases taken
    exact .reconfigure ‹_›
  | install =>
    simp only [RxSessionActor.step] at taken
    split at taken <;> cases taken
    exact .install ‹_›

end Steps

section Generations

/-- The steps of frames and timeouts, which leave the set-up of the actor alone. -/
def Label.isTraffic : Label → Bool
  | .produce => false
  | .reconfigure _ => false
  | .install => false
  | _ => true

variable (state : RxActorState) (clock : Nat → Nat)

theorem processItem_generation (item : RxFrame) :
    (processItem state clock item).1.generation = state.generation := by
  unfold processItem
  split
  · split
    · rfl
    · dsimp only
      split <;> rfl
  · rfl

theorem processItems_generation (state : RxActorState) (items : List RxFrame) :
    (processItems clock state items).1.generation = state.generation := by
  induction items generalizing state with
  | nil => rfl
  | cons item rest ih =>
    have first := processItem_generation state clock item
    unfold processItems
    dsimp only
    split
    · exact first
    · exact (ih _).trans first

theorem processBatch_generation (generation : Nat) (frames : List RxFrame) (clock : Nat → Nat) :
    (processBatch state generation frames clock).1.generation = state.generation := by
  unfold processBatch
  split
  · rfl
  · exact processItems_generation clock state frames

structure SameGenerations (actor after : RxSessionActor) : Prop where
  generation : after.generation = actor.generation
  control : after.control = actor.control
  state : after.state.generation = actor.state.generation
  producers : after.producers.map RxProducer.generation =
    actor.producers.map RxProducer.generation

theorem set_generation {producers : List RxProducer} {index : Nat} {old : RxProducer}
    (new : RxProducer) (found : producers[index]? = some old)
    (same : new.generation = old.generation) :
    (producers.set index new).map RxProducer.generation =
      producers.map RxProducer.generation := by
  obtain ⟨inside, here⟩ := List.getElem?_eq_some_iff.mp found
  rw [List.map_set, same, ← here]
  refine List.ext_getElem (by simp) ?_
  intro position _ _
  rw [List.getElem_set]
  split
  · rename_i equal
    subst equal
    rw [List.getElem_map]
  · rfl

theorem traffic_generations {batchCap : Nat} {actor after : RxSessionActor} {label : Label}
    (traffic : label.isTraffic = true) (taken : actor.step batchCap label = some after) :
    SameGenerations actor after := by
  cases stepped_of_step taken with
  | produce => cases traffic
  | reconfigure => cases traffic
  | install => cases traffic
  | refuse => exact ⟨rfl, rfl, rfl, rfl⟩
  | push found => exact ⟨rfl, rfl, rfl, set_generation _ found rfl⟩
  | process found =>
    exact ⟨rfl, rfl, processBatch_generation _ _ _ _, set_generation _ found rfl⟩
  | deliver found => exact ⟨rfl, rfl, rfl, set_generation _ found rfl⟩
  | takeError found => exact ⟨rfl, rfl, rfl, set_generation _ found rfl⟩
  | timeout => exact ⟨rfl, rfl, rfl, rfl⟩
  | deliverTimeout => exact ⟨rfl, rfl, rfl, rfl⟩

end Generations

end TlsVpn.RxActor

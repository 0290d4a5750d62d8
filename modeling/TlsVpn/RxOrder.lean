import TlsVpn.FecSoundness
import TlsVpn.ReorderRuns
import TlsVpn.RxActor

/-!
Order of delivery by the receive actor. The reorder buffer releases frames in
order, but a thread calls the callback only after it left the state lock, so
another thread's later extraction can reach the callback first. As long as the
callback is called in the order of the extractions, and all numbers stay in one
span of the sequence space, delivery is strictly increasing.
-/

namespace TlsVpn.RxActor

open Words XorBytes Protocol Fec Reorder Holdings

variable {low high : Nat}

section Recovery

def Spanned (low high start : Nat) (group : FecGroupState) : Prop :=
  group.parity.isSome = true → low ≤ start ∧ start + group.k ≤ high + 1

def Inside (low high : Nat) (out : Fec.Delivered) : Prop :=
  ∀ entry ∈ out, low ≤ entry.1 ∧ entry.1 ≤ high

variable (inner : FecDecoderInner) (decoder : FecDecoder) (start k seq : Nat) (frame : Bytes)

theorem empty_spanned : Spanned low high start FecGroupState.empty := by
  intro absurd
  cases absurd

theorem tryRecover_spanned (top : high < u32Max) (all : AllGroups (Spanned low high) inner.groups) :
    AllGroups (Spanned low high) (tryRecover inner start k).1.groups ∧
      Inside low high (tryRecover inner start k).2 := by
  have silent : Inside low high [] := by nofun
  unfold tryRecover
  cases found : inner.groups.lookup start with
  | none => exact ⟨all, silent⟩
  | some group =>
    by_cases unset : group.k = 0
    · simp only [if_pos unset]
      exact ⟨all, silent⟩
    · simp only [if_neg unset]
      cases stored : group.parity with
      | none => exact ⟨all, silent⟩
      | some body =>
        obtain ⟨above, below⟩ := all start group found (by rw [stored]; rfl)
        match missed : missingMembers group.gotMask group.k with
        | [] => exact ⟨all.erase start, silent⟩
        | [missing] =>
          refine ⟨all.erase start, ?_⟩
          have present : missing ∈ missingMembers group.gotMask group.k := by
            rw [missed]
            exact List.mem_singleton_self missing
          have member := List.mem_range.mp (List.mem_filter.mp present).1
          have number : wrappingAdd start missing = start + missing := by
            unfold u32Max at top
            unfold wrappingAdd
            omega
          intro entry only
          rw [List.mem_singleton.mp only]
          simp only [number]
          omega
        | _ :: _ :: _ => exact ⟨all, silent⟩

theorem onDataLocked_spanned (fullMask : BitVec 64) (seq : Nat) (frame : Bytes)
    (top : high < u32Max) (all : AllGroups (Spanned low high) inner.groups) :
    AllGroups (Spanned low high) (onDataLocked inner k fullMask seq frame).1.groups ∧
      Inside low high (onDataLocked inner k fullMask seq frame).2 := by
  have silent : Inside low high [] := by nofun
  obtain ⟨room, good⟩ := all.entry (groupStartOf k seq) (empty_spanned _)
  simp only [onDataLocked]
  split
  · exact ⟨all, silent⟩
  · split
    · exact ⟨room.insert _ _ good, silent⟩
    · split
      · exact ⟨room.erase _, silent⟩
      · exact tryRecover_spanned _ _ _ top (room.insert _ _ good)

theorem storeParity_spanned (start : Nat) (lens : List Nat) (body : Bytes) (top : high < u32Max)
    (inside : low ≤ start ∧ start + k ≤ high + 1) (all : AllGroups (Spanned low high) inner.groups) :
    AllGroups (Spanned low high) (storeParity inner k start lens body).1.groups ∧
      ∀ out, (storeParity inner k start lens body).2 = some out → Inside low high out := by
  obtain ⟨room, good⟩ := all.entry start (empty_spanned start)
  simp only [storeParity]
  split
  · exact ⟨room.insert _ _ good, fun entry member => by cases member⟩
  · have recovered := tryRecover_spanned
      { inner with
        groups := ((entry inner.groups start).1.insert start
          { (entry inner.groups start).2 with k := k, lens := lens, parity := some body }) }
      start k top (room.insert _ _ (fun _ => inside))
    refine ⟨recovered.1, ?_⟩
    intro out same
    cases same
    exact recovered.2

/-- What a record names lies in the span: a data frame's number, or the whole
group of a parity for groups of `size`. -/
def Fits (low high : Nat) (size : Option Nat) (item : RxFrame) : Prop :=
  if item.1 = 0 then
    match size with
    | none => True
    | some k =>
      match parityHeader k item.2 with
      | .ok start => low ≤ start ∧ start + k ≤ high + 1
      | .error _ => True
  else low ≤ item.1 ∧ item.1 ≤ high

instance decidableFits (low high : Nat) (size : Option Nat) (item : RxFrame) :
    Decidable (Fits low high size item) := by
  unfold Fits
  split
  · split
    · exact inferInstance
    · split <;> exact inferInstance
  · exact inferInstance

theorem onData_spanned (progress : Option Nat) (top : high < u32Max)
    (all : AllGroups (Spanned low high) decoder.inner.groups) :
    AllGroups (Spanned low high) (decoder.onData seq frame progress).1.inner.groups ∧
      Inside low high (decoder.onData seq frame progress).2 ∧
      (decoder.onData seq frame progress).1.k = decoder.k := by
  have silent : Inside low high [] := by nofun
  have called := onData_called decoder seq frame progress
  generalize decoder.onData seq frame progress = result at called ⊢
  cases called with
  | ignored why => exact ⟨all, silent, rfl⟩
  | bypassed heard fenced early => exact ⟨all, silent, rfl⟩
  | swept heard fenced due =>
    exact ⟨all.maybeRetire progress, silent, (maybeRetire_fixed decoder progress).1⟩
  | retired heard protected_ old => exact ⟨all, silent, rfl⟩
  | absorbed heard protected_ young =>
    obtain ⟨groups, inside⟩ := onDataLocked_spanned decoder.inner decoder.k decoder.fullMask seq
      frame top all
    exact ⟨groups, inside, rfl⟩

theorem parityCall_spanned {decoder : FecDecoder} {payload : Bytes} {before after : Option Nat}
    {result : FecDecoder × Except String Fec.Delivered}
    (called : ParityCall decoder payload before after result) (top : high < u32Max)
    (fits : Fits low high (some decoder.k) (0, payload))
    (all : AllGroups (Spanned low high) decoder.inner.groups) :
    AllGroups (Spanned low high) result.1.inner.groups ∧ Inside low high (framesOf result.2) := by
  have swept : ∀ (other : FecDecoder) (progress : Option Nat),
      AllGroups (Spanned low high) other.inner.groups ∧ other.k = decoder.k →
      AllGroups (Spanned low high) (other.maybeRetireOldGroupsLocked progress).inner.groups ∧
        (other.maybeRetireOldGroupsLocked progress).k = decoder.k := by
    rintro other progress ⟨groups, size⟩
    exact ⟨groups.maybeRetire progress, (maybeRetire_fixed other progress).1.trans size⟩
  simp only [Fits, ↓reduceIte] at fits
  constructor
  · refine (called.keeps (fun other => AllGroups (Spanned low high) other.inner.groups ∧
      other.k = decoder.k) ⟨all, rfl⟩ swept ?_).1
    rintro cleaned start lens body ⟨groups, size⟩ header read
    rw [header, ← size] at fits
    exact ⟨(storeParity_spanned _ _ start lens body top fits groups).1, size⟩
  · apply called.delivers (Inside low high)
    · exact List.forall_mem_nil _
    · intro cleaned start lens body out sweep header read taken
      obtain ⟨groups, size⟩ := sweep ▸ swept decoder before ⟨all, rfl⟩
      rw [header, ← size] at fits
      exact (storeParity_spanned cleaned.inner cleaned.k start lens body top fits groups).2 out taken

theorem onControl_spanned (payload : Bytes) (before after : Option Nat) (top : high < u32Max)
    (fits : Fits low high (some decoder.k) (0, payload))
    (all : AllGroups (Spanned low high) decoder.inner.groups) :
    AllGroups (Spanned low high) (decoder.onControl payload before after).1.inner.groups ∧
      Inside low high (framesOf (decoder.onControl payload before after).2) ∧
      (decoder.onControl payload before after).1.k = decoder.k := by
  have silent : Inside low high [] := List.forall_mem_nil _
  have called := onControl_called decoder payload before after
  generalize decoder.onControl payload before after = result at called ⊢
  have size : result.1.k = decoder.k := congrArg Prod.fst called.setup
  cases called with
  | unknown message kind => exact ⟨all, silent, size⟩
  | parity kind result called =>
    obtain ⟨groups, inside⟩ := parityCall_spanned called top fits all
    exact ⟨groups, inside, size⟩
  | misread message kind parsed => exact ⟨all, silent, size⟩
  | mode control next kind parsed called => exact ⟨called.groups all, silent, size⟩

end Recovery

section Batches

structure Sane (low high : Nat) (size : Option Nat) (state : RxActorState) : Prop where
  size : state.fec.map FecDecoder.k = size
  groups : ∀ decoder, state.fec = some decoder →
    AllGroups (Spanned low high) decoder.inner.groups

variable {size : Option Nat} {accepted delivered : Reorder.Delivered}

def Grows (low high : Nat) (size : Option Nat) (delivered : Reorder.Delivered)
    (result : RxActorState × Reorder.Delivered × Option String) : Prop :=
  Sane low high size result.1 ∧
    ∃ stored, History low high result.1.reorder stored (delivered ++ result.2.1)

structure Placed (low high : Nat) (size : Option Nat) (state : RxActorState) (clock : Nat → Nat)
    (result : RxActorState × Reorder.Delivered × Option String) : Prop where
  sane : Sane low high size result.1
  frames : ∃ entries, Inside low high entries ∧
    result.1.reorder = (insertAll state.reorder clock entries).1 ∧
    result.2.1 = (insertAll state.reorder clock entries).2

variable (state : RxActorState) (clock : Nat → Nat) (item : RxFrame)

theorem processControl_placed (payload : Bytes) (top : high < u32Max)
    (fits : Fits low high size (0, payload)) (sane : Sane low high size state) :
    Placed low high size state clock (processItem state clock (0, payload)) := by
  have silent : Inside low high [] := by nofun
  cases present : state.fec with
  | none =>
    simp only [processItem, present, ↓reduceIte]
    exact ⟨sane, [], silent, rfl, rfl⟩
  | some decoder =>
    have sized : size = some decoder.k := by
      rw [← sane.size, present]
      rfl
    have frames := onControlActor_frames decoder payload state.reorder.expectedSeq
    have same := congrArg Prod.fst (onControlActor_eq decoder payload state.reorder.expectedSeq)
    obtain ⟨groups, inside, k⟩ := onControl_spanned decoder payload
      (some state.reorder.expectedSeq) (some state.reorder.expectedSeq) top
      (sized ▸ fits) (sane.groups decoder present)
    rw [← same] at groups k
    rw [← frames] at inside
    simp only [processItem, present, ↓reduceIte]
    generalize decoder.onControlActor payload state.reorder.expectedSeq = result
      at groups k inside ⊢
    have sane' : ∀ reorder, Sane low high size
        { state with fec := some result.1, reorder := reorder } := by
      intro reorder
      refine ⟨?_, ?_⟩
      · rw [sized, ← k]
        rfl
      · intro other held
        cases held
        exact groups
    cases outcome : result.2 with
    | error message => exact ⟨sane' state.reorder, [], silent, rfl, rfl⟩
    | ok recovered =>
      rw [outcome] at inside
      exact ⟨sane' _, recovered.toList, inside, rfl, rfl⟩

theorem insertPair_inside (recovered : Option RxFrame) (own : low ≤ item.1 ∧ item.1 ≤ high)
    (inside : Inside low high recovered.toList) : Inside low high (insertPair item recovered) := by
  cases recovered with
  | none =>
    intro entry present
    rw [List.mem_singleton.mp present]
    exact own
  | some other =>
    have found := inside other (by simp)
    simp only [insertPair]
    intro entry present
    split at present
    · rcases List.mem_pair.mp present with rfl | rfl
      · exact found
      · exact own
    · split at present
      · rcases List.mem_pair.mp present with rfl | rfl
        · exact own
        · exact found
      · rw [List.mem_singleton.mp present]
        exact own

theorem processData_placed (numbered : item.1 ≠ 0) (top : high < u32Max)
    (own : low ≤ item.1 ∧ item.1 ≤ high) (sane : Sane low high size state) :
    Placed low high size state clock (processItem state clock item) := by
  have decoded : ∃ fec recovered,
      (state.fec.map fun decoder =>
        decoder.onDataActor item.1 item.2 state.reorder.expectedSeq) = fec ∧
      (fec.bind fun result => result.2) = recovered ∧ Inside low high recovered.toList ∧
      ∀ reorder dedup, Sane low high size
        { state with fec := fec.map (fun result => result.1), reorder := reorder, dedup := dedup } := by
    cases present : state.fec with
    | none =>
      refine ⟨none, none, rfl, rfl, by nofun, fun reorder dedup => ⟨?_, by nofun⟩⟩
      rw [← sane.size, present]
      rfl
    | some decoder =>
      obtain ⟨groups, inside, k⟩ := onData_spanned decoder item.1 item.2
        (some state.reorder.expectedSeq) top (sane.groups decoder present)
      refine ⟨_, _, rfl, rfl, ?_, fun reorder dedup => ⟨?_, ?_⟩⟩
      · simp only [Option.map_some, Option.bind_some, onDataActor_eq]
        rw [getLast_toList_of_short _ (onData_short _ _ _ _)]
        exact inside
      · simp only [Option.map_some, onDataActor_eq, k]
        rw [← sane.size, present]
        rfl
      · intro other held
        simp only [Option.map_some, onDataActor_eq, Option.some.injEq] at held
        rw [← held]
        exact groups
  obtain ⟨fec, recovered, same, found, inside, sane'⟩ := decoded
  simp only [processItem, if_neg numbered, same, found]
  have entries : Inside low high (if (state.dedup.isDuplicate item.1).2 then recovered.toList
      else insertPair item recovered) := by
    split
    · exact inside
    · exact insertPair_inside item recovered own inside
  exact ⟨sane' _ _, _, entries, rfl, rfl⟩

theorem processItem_placed (top : high < u32Max) (fits : Fits low high size item)
    (sane : Sane low high size state) :
    Placed low high size state clock (processItem state clock item) := by
  obtain ⟨seq, data⟩ := item
  by_cases zero : seq = 0
  · subst zero
    exact processControl_placed state clock data top fits sane
  · exact processData_placed state clock (seq, data) zero top
      (by simpa only [Fits, if_neg zero] using fits) sane

theorem processItem_grows (span : Span low high) (fits : Fits low high size item)
    (sane : Sane low high size state) (history : History low high state.reorder accepted delivered) :
    Grows low high size delivered (processItem state clock item) := by
  obtain ⟨sane', entries, inside, reorder, ready⟩ :=
    processItem_placed state clock item span.last fits sane
  obtain ⟨stored, whole⟩ := insertAll_history span clock entries inside history
  refine ⟨sane', stored, ?_⟩
  rw [reorder, ready]
  exact whole

theorem processItems_grows (state : RxActorState) (items : List RxFrame) (span : Span low high)
    (fits : ∀ item ∈ items, Fits low high size item) (sane : Sane low high size state)
    (history : History low high state.reorder accepted delivered) :
    Grows low high size delivered (processItems clock state items) := by
  induction items generalizing state accepted delivered with
  | nil =>
    refine ⟨sane, accepted, ?_⟩
    simpa only [processItems, List.append_nil] using history
  | cons item rest ih =>
    obtain ⟨sane', stored, grown⟩ := processItem_grows state clock item span
      (fits item List.mem_cons_self) sane history
    simp only [processItems]
    split
    · exact ⟨sane', stored, grown⟩
    · obtain ⟨last, total, whole⟩ := ih (processItem state clock item).1
        (fun other present => fits other (List.mem_cons_of_mem item present)) sane' grown
      refine ⟨last, total, ?_⟩
      rw [← List.append_assoc]
      exact whole

theorem processBatch_grows (generation : Nat) (items : List RxFrame) (clock : Nat → Nat)
    (span : Span low high) (fits : ∀ item ∈ items, Fits low high size item)
    (sane : Sane low high size state) (history : History low high state.reorder accepted delivered) :
    Grows low high size delivered (processBatch state generation items clock) := by
  unfold processBatch
  split
  · refine ⟨sane, accepted, ?_⟩
    simpa only [List.append_nil] using history
  · exact processItems_grows clock state items span fits sane history

end Batches

section Turns

def RxProducer.owed (producer : RxProducer) : List Extraction := producer.pending.toList

def RxSessionActor.outstanding (actor : RxSessionActor) : List Extraction :=
  actor.timer.toList ++ held RxProducer.owed actor.producers

/-- The callback is called with the oldest extraction first, every number comes
from the span, and the actor is not reconfigured. -/
def InTurn (low high : Nat) (actor : RxSessionActor) : Label → Prop
  | .push _ seq data => Fits low high (actor.state.fec.map FecDecoder.k) (seq, data)
  | .deliver index =>
    match actor.producers[index]? with
    | some producer => ∀ mine ∈ producer.owed, ∀ other ∈ actor.outstanding,
        mine.ticket ≤ other.ticket
    | none => True
  | .deliverTimeout => ∀ mine ∈ actor.timer.toList, ∀ other ∈ actor.outstanding,
      mine.ticket ≤ other.ticket
  | .reconfigure _ => False
  | _ => True

instance decidableInTurn (low high : Nat) (actor : RxSessionActor) :
    ∀ label, Decidable (InTurn low high actor label)
  | .push index seq data =>
    decidableFits low high (actor.state.fec.map FecDecoder.k) (seq, data)
  | .deliver index => by
    dsimp only [InTurn]
    exact match actor.producers[index]? with
      | some producer => inferInstance
      | none => inferInstance
  | .deliverTimeout => by
    dsimp only [InTurn]
    exact inferInstance
  | .reconfigure _ => .isFalse id
  | .produce | .process _ _ | .takeError _ | .timeout _ | .install => .isTrue trivial

/-- `extracted` is everything taken out so far; `waiting` is the part of it the
callback still waits for, oldest first. -/
structure Queued (low high : Nat) (size : Option Nat) (actor : RxSessionActor)
    (accepted extracted : Reorder.Delivered) (waiting : List Extraction) : Prop where
  idle : actor.control = none
  sane : Sane low high size actor.state
  history : History low high actor.state.reorder accepted extracted
  fits : ∀ producer ∈ actor.producers, ∀ item ∈ producer.batch, Fits low high size item
  split : extracted = actor.delivered ++ waiting.flatMap Extraction.frames
  sorted : waiting.Pairwise fun left right => left.ticket < right.ticket
  drawn : ∀ owed ∈ waiting, owed.ticket < actor.tickets
  owed : actor.outstanding.Perm waiting

variable {size : Option Nat} {actor : RxSessionActor} {accepted extracted : Reorder.Delivered}
  {waiting : List Extraction}
variable {next : RxSessionActor} (ticket : Nat) (frames : Reorder.Delivered)

theorem extraction_frames :
    (extraction ticket frames).toList.flatMap Extraction.frames = frames := by
  unfold extraction
  split
  · rename_i none
    rw [none]
    rfl
  · simp

theorem extraction_ticket : ∀ owed ∈ (extraction ticket frames).toList, owed.ticket = ticket := by
  intro owed present
  unfold extraction at present
  split at present
  · cases present
  · cases Option.mem_toList.mp present
    rfl

theorem outstanding_set (index : Nat) (old new : RxProducer)
    (found : actor.producers[index]? = some old)
    (producers : next.producers = actor.producers.set index new) (timer : next.timer = actor.timer) :
    (old.owed ++ next.outstanding).Perm (new.owed ++ actor.outstanding) := by
  have exchange := held_set RxProducer.owed actor.producers index old new found
  unfold RxSessionActor.outstanding
  rw [timer, producers]
  calc old.owed ++ (actor.timer.toList ++ held RxProducer.owed (actor.producers.set index new))
      _ |>.Perm (actor.timer.toList ++
          (old.owed ++ held RxProducer.owed (actor.producers.set index new))) :=
        List.perm_append_comm_assoc _ _ _
      _ |>.Perm (actor.timer.toList ++ (new.owed ++ held RxProducer.owed actor.producers)) :=
        exchange.append_left _
      _ |>.Perm (new.owed ++ (actor.timer.toList ++ held RxProducer.owed actor.producers)) :=
        List.perm_append_comm_assoc _ _ _

theorem Queued.extract (queued : Queued low high size actor accepted extracted waiting)
    (result : RxActorState × Reorder.Delivered × Option String)
    (grows : Grows low high size extracted result) (state : next.state = result.1)
    (control : next.control = none) (tickets : next.tickets = actor.tickets + 1)
    (delivered : next.delivered = actor.delivered)
    (fits : ∀ producer ∈ next.producers, ∀ item ∈ producer.batch, Fits low high size item)
    (owed : next.outstanding.Perm
      ((extraction actor.tickets result.2.1).toList ++ actor.outstanding)) :
    ∃ stored, Queued low high size next stored (extracted ++ result.2.1)
      (waiting ++ (extraction actor.tickets result.2.1).toList) := by
  obtain ⟨sane, stored, history⟩ := grows
  refine ⟨stored, control, state ▸ sane, state ▸ history, fits, ?_, ?_, ?_, ?_⟩
  · rw [delivered, List.flatMap_append, extraction_frames, queued.split, List.append_assoc]
  · refine List.pairwise_append.mpr ⟨queued.sorted, ?_, ?_⟩
    · unfold extraction
      split
      · exact List.Pairwise.nil
      · exact List.pairwise_singleton _ _
    · intro old present new fresh
      rw [extraction_ticket _ _ new fresh]
      exact queued.drawn old present
  · intro one present
    rw [tickets]
    rcases List.mem_append.mp present with old | new
    · exact Nat.lt_succ_of_lt (queued.drawn one old)
    · rw [extraction_ticket _ _ one new]
      exact Nat.lt_succ_self _
  · exact owed.trans ((queued.owed.append_left _).trans List.perm_append_comm)

theorem oldest_first {waiting : List Extraction} {mine : Extraction}
    (sorted : waiting.Pairwise fun left right => left.ticket < right.ticket)
    (present : mine ∈ waiting) (oldest : ∀ other ∈ waiting, mine.ticket ≤ other.ticket) :
    ∃ rest, waiting = mine :: rest := by
  cases waiting with
  | nil => cases present
  | cons head rest =>
    rcases List.mem_cons.mp present with rfl | later
    · exact ⟨rest, rfl⟩
    · have before := (List.pairwise_cons.mp sorted).1 mine later
      have after := oldest head List.mem_cons_self
      omega

theorem Queued.hand (queued : Queued low high size actor accepted extracted waiting)
    (mine : Extraction) (oldest : ∀ other ∈ actor.outstanding, mine.ticket ≤ other.ticket)
    (owed : actor.outstanding.Perm (mine :: next.outstanding))
    (control : next.control = actor.control) (state : next.state = actor.state)
    (tickets : next.tickets = actor.tickets)
    (delivered : next.delivered = actor.delivered ++ mine.frames)
    (fits : ∀ producer ∈ next.producers, ∀ item ∈ producer.batch, Fits low high size item) :
    ∃ rest, Queued low high size next accepted extracted rest := by
  have present : mine ∈ waiting :=
    (owed.symm.trans queued.owed).subset List.mem_cons_self
  obtain ⟨rest, rfl⟩ := oldest_first queued.sorted present
    (fun other waits => oldest other (queued.owed.symm.subset waits))
  refine ⟨rest, control.trans queued.idle, state ▸ queued.sane, state ▸ queued.history, fits, ?_,
    (List.pairwise_cons.mp queued.sorted).2, ?_, (owed.symm.trans queued.owed).cons_inv⟩
  · rw [queued.split, delivered, List.flatMap_cons, List.append_assoc]
  · intro one waits
    rw [tickets]
    exact queued.drawn one (List.mem_cons_of_mem mine waits)

theorem Queued.local (queued : Queued low high size actor accepted extracted waiting) (index : Nat)
    (old new : RxProducer) (found : actor.producers[index]? = some old)
    (producers : next.producers = actor.producers.set index new) (same : new.pending = old.pending)
    (control : next.control = actor.control) (state : next.state = actor.state)
    (tickets : next.tickets = actor.tickets) (delivered : next.delivered = actor.delivered)
    (timer : next.timer = actor.timer) (fits : ∀ item ∈ new.batch, Fits low high size item) :
    Queued low high size next accepted extracted waiting := by
  refine ⟨control.trans queued.idle, state ▸ queued.sane, state ▸ queued.history, ?_, ?_,
    queued.sorted, ?_, ?_⟩
  · rw [producers]
    exact forall_mem_set queued.fits index new fits
  · rw [delivered]
    exact queued.split
  · rw [tickets]
    exact queued.drawn
  · have exchange := outstanding_set index old new found producers timer
    rw [show new.owed = old.owed by unfold RxProducer.owed; rw [same]] at exchange
    exact ((List.perm_append_left_iff _).mp exchange).trans queued.owed

section

variable (queued : Queued low high size actor accepted extracted waiting)

include queued

theorem process_queued (span : Span low high) (index : Nat) (producer : RxProducer)
    (clock : Nat → Nat) (found : actor.producers[index]? = some producer)
    (free : producer.pending = none) :
    ∃ stored out rest, Queued low high size (actor.process index producer clock) stored out rest := by
  have grows := processBatch_grows actor.state producer.generation producer.batch clock span
    (queued.fits producer (List.mem_of_getElem? found)) queued.sane queued.history
  have exchange := @outstanding_set actor (actor.process index producer clock) index producer _
    found rfl rfl
  rw [show producer.owed = [] by unfold RxProducer.owed; rw [free]; rfl] at exchange
  have done : ∃ stored, Queued low high size (actor.process index producer clock) stored _ _ :=
    queued.extract _ grows rfl queued.idle rfl rfl (forall_mem_set queued.fits index _ (by nofun)) exchange
  obtain ⟨stored, done⟩ := done
  exact ⟨stored, _, _, done⟩

theorem timeout_queued (span : Span low high) (now : Nat) (free : actor.timer = none) :
    ∃ stored out rest, Queued low high size
      { actor with
        state := { actor.state with reorder := (flushTimeoutInto actor.state.reorder now).1 }
        tickets := actor.tickets + 1
        timer := extraction actor.tickets (flushTimeoutInto actor.state.reorder now).2 }
      stored out rest := by
  have effect := flushTimeoutInto_effect actor.state.reorder queued.history.settled
    queued.history.based span now
  have history := queued.history.extend effect
  have grows : Grows low high size extracted
      ({ actor.state with reorder := (flushTimeoutInto actor.state.reorder now).1 },
        (flushTimeoutInto actor.state.reorder now).2, none) :=
    ⟨⟨queued.sane.size, queued.sane.groups⟩, _, history⟩
  obtain ⟨stored, done⟩ : ∃ stored, Queued low high size
      { actor with
        state := { actor.state with reorder := (flushTimeoutInto actor.state.reorder now).1 }
        tickets := actor.tickets + 1
        timer := extraction actor.tickets (flushTimeoutInto actor.state.reorder now).2 }
      stored _ _ := by
    refine queued.extract _ grows rfl queued.idle rfl rfl queued.fits ?_
    unfold RxSessionActor.outstanding
    rw [free]
    exact List.Perm.refl _
  exact ⟨stored, _, _, done⟩

theorem deliver_queued (index : Nat) (producer : RxProducer) (mine : Extraction)
    (found : actor.producers[index]? = some producer) (pending : producer.pending = some mine)
    (oldest : ∀ other ∈ actor.outstanding, mine.ticket ≤ other.ticket) (error : Option String) :
    ∃ rest, Queued low high size
      { actor with
        delivered := actor.delivered ++ mine.frames
        producers := actor.producers.set index
          { producer with pending := none, verdict := none, error := error } }
      accepted extracted rest := by
  refine queued.hand mine oldest ?_ rfl rfl rfl rfl
    (forall_mem_set queued.fits index _ (queued.fits producer (List.mem_of_getElem? found)))
  have exchange := @outstanding_set actor
    { actor with
      delivered := actor.delivered ++ mine.frames
      producers := actor.producers.set index
        { producer with pending := none, verdict := none, error := error } }
    index producer _ found rfl rfl
  rw [show producer.owed = [mine] by unfold RxProducer.owed; rw [pending]; rfl] at exchange
  exact exchange.symm

theorem deliverTimeout_queued (mine : Extraction) (pending : actor.timer = some mine)
    (oldest : ∀ other ∈ actor.outstanding, mine.ticket ≤ other.ticket) :
    ∃ rest, Queued low high size
      { actor with delivered := actor.delivered ++ mine.frames, timer := none }
      accepted extracted rest := by
  refine queued.hand mine oldest ?_ rfl rfl rfl rfl queued.fits
  unfold RxSessionActor.outstanding
  rw [pending]
  exact List.Perm.refl _

end

theorem step_queued (batchCap : Nat) (next : RxSessionActor) (label : Label)
    (span : Span low high) (turn : InTurn low high actor label)
    (queued : Queued low high size actor accepted extracted waiting)
    (taken : actor.step batchCap label = some next) :
    ∃ stored out rest, Queued low high size next stored out rest := by
  cases stepped_of_step taken with
  | produce =>
    refine ⟨accepted, extracted, waiting, queued.idle, queued.sane, queued.history,
      forall_mem_concat queued.fits (by nofun), queued.split, queued.sorted, queued.drawn, ?_⟩
    refine List.Perm.trans (List.Perm.append_left _ ?_) queued.owed
    rw [held_append, held_singleton]
    exact List.Perm.of_eq (List.append_nil _)
  | refuse => exact ⟨accepted, extracted, waiting, queued⟩
  | push found =>
    refine ⟨accepted, extracted, waiting, queued.local _ _ _ found rfl rfl rfl rfl rfl rfl rfl ?_⟩
    refine forall_mem_concat (queued.fits _ (List.mem_of_getElem? found)) ?_
    rw [← queued.sane.size]
    exact turn
  | process found ready =>
    exact process_queued queued span _ _ _ found (Option.isNone_iff_eq_none.mp ready.2)
  | @deliver _ producer mine found pending =>
    have oldest : ∀ other ∈ actor.outstanding, mine.ticket ≤ other.ticket := by
      simp only [InTurn, found] at turn
      exact turn mine (by unfold RxProducer.owed; rw [pending]; exact List.mem_singleton_self _)
    obtain ⟨rest, done⟩ := deliver_queued queued _ producer mine found pending oldest
      (producer.verdict <|> producer.error)
    exact ⟨_, _, rest, done⟩
  | @takeError _ producer found =>
    exact ⟨accepted, extracted, waiting, queued.local _ producer _ found rfl rfl rfl rfl rfl rfl rfl
      (queued.fits producer (List.mem_of_getElem? found))⟩
  | timeout free => exact timeout_queued queued span _ free
  | @deliverTimeout mine pending =>
    obtain ⟨rest, done⟩ := deliverTimeout_queued queued mine pending
      (turn mine (by rw [pending]; exact List.mem_singleton_self _))
    exact ⟨_, _, rest, done⟩
  | reconfigure => exact turn.elim
  | install busy => cases queued.idle.symm.trans busy

def initialFec (initial : Option (Nat × Option InnerCipher)) : Option FecDecoder :=
  initial.map fun spec => FecDecoder.new spec.1 spec.2

theorem new_queued (initial : Option (Nat × Option InnerCipher)) :
    Queued low high ((initialFec initial).map FecDecoder.k)
      (RxSessionActor.new (initialFec initial)) [] [] [] := by
  refine ⟨rfl, ⟨rfl, ?_⟩, fresh_history _ Fresh.new, by nofun, rfl, List.Pairwise.nil, by nofun,
    List.Perm.refl _⟩
  intro decoder present
  cases initial with
  | none => cases present
  | some spec =>
    cases present
    exact allGroups_empty

/-- In every run without a reconfigure in which the callback is called with the
oldest extraction first and all numbers come from one span, the frames handed to
the callback have strictly increasing numbers. -/
theorem delivered_in_turn_increasing (batchCap : Nat) (initial : Option (Nat × Option InnerCipher))
    (low high : Nat) (labels : List Label) (final : RxSessionActor) (span : Span low high)
    (reached : Runs.run (RxSessionActor.step batchCap)
      (RxSessionActor.new (initialFec initial)) labels = some final)
    (turns : Runs.Along (RxSessionActor.step batchCap) (InTurn low high)
      (RxSessionActor.new (initialFec initial)) labels) :
    (final.delivered.map Prod.fst).Pairwise (· < ·) := by
  obtain ⟨accepted, extracted, waiting, queued⟩ := Runs.invariant_along
    (RxSessionActor.step batchCap) (InTurn low high)
    (fun actor => ∃ accepted extracted waiting,
      Queued low high ((initialFec initial).map FecDecoder.k) actor accepted extracted waiting)
    (fun _ label next turn ⟨_, _, _, queued⟩ taken =>
      step_queued batchCap next label span turn queued taken)
    _ final labels reached turns ⟨[], [], [], new_queued initial⟩
  have ordered := queued.history.ordered
  rw [queued.split] at ordered
  exact List.pairwise_map.mpr (List.pairwise_append.mp ordered).1

def turnsTaken : List Label :=
  [.produce, .produce, .push 0 1 [1], .push 1 2 [2], .process 0 (fun _ => 0),
    .process 1 (fun _ => 0), .deliver 0, .deliver 1, .push 0 4 [4], .process 0 (fun _ => 0),
    .timeout 60000000, .deliverTimeout]

theorem delivered_in_turn_sample : ∃ final,
    Runs.run (RxSessionActor.step 16) (RxSessionActor.new none) turnsTaken = some final ∧
      final.delivered.map Prod.fst = [1, 2, 4] ∧
      (final.delivered.map Prod.fst).Pairwise (· < ·) := by
  have evaluated : (Runs.run (RxSessionActor.step 16) (RxSessionActor.new none) turnsTaken).map
      (fun actor => actor.delivered.map Prod.fst) = some [1, 2, 4] := by decide +kernel
  obtain ⟨final, reached, delivered⟩ := Option.map_eq_some_iff.mp evaluated
  exact ⟨final, reached, delivered,
    delivered_in_turn_increasing 16 none 1 100 turnsTaken final
      ⟨by decide, by decide, by decide⟩ reached (by decide +kernel)⟩

def turnsSwapped : List Label :=
  [.produce, .produce, .push 0 1 [1], .push 1 2 [2], .process 0 (fun _ => 0),
    .process 1 (fun _ => 0), .deliver 1, .deliver 0]

theorem swapped_delivery_not_increasing : ∃ final,
    Runs.run (RxSessionActor.step 16) (RxSessionActor.new none) turnsSwapped = some final ∧
      final.delivered = [(2, [2]), (1, [1])] := by
  have evaluated : (Runs.run (RxSessionActor.step 16) (RxSessionActor.new none) turnsSwapped).map
      RxSessionActor.delivered = some [(2, [2]), (1, [1])] := by decide +kernel
  exact Option.map_eq_some_iff.mp evaluated

end Turns

end TlsVpn.RxActor

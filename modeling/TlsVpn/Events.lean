import Mathlib

/-!
The events of the dashboard: numbered, kept in a ring, and sent to the streams of
the subscribers. A stream begins with what the ring holds and goes on through a
channel that drops what finds it full. The history of the hub, and what a stream
was asked for, has handed out and has missed, are for the statements only.
-/

namespace TlsVpn.Events

section Source

structure Report where
  time : List Char
  kind : List Char
  level : List Char
  client : List Char
  msg : List Char
  deriving DecidableEq

structure DashboardEvent extends Report where
  seq : Nat
  deriving DecidableEq

structure EventStream where
  backlog : List DashboardEvent
  rx : List DashboardEvent
  /-- The hub has the sending end. -/
  subscribed : Bool
  connected : Bool
  after : Nat
  since : Nat
  given : List DashboardEvent
  missed : List DashboardEvent

structure EventHub where
  seq : Nat
  ring : List DashboardEvent
  streams : List EventStream
  history : List DashboardEvent

inductive Op where
  | emit (report : Report)
  | stream (after : Nat)
  | refill (index : Nat)
  | close (index : Nat)

@[irreducible] def eventCap : Nat := 500

@[irreducible] def channelCap : Nat := 256

/-- `try_send` inside `retain`. -/
def EventStream.trySend (event : DashboardEvent) (stream : EventStream) : EventStream :=
  if ¬stream.subscribed then stream
  else if ¬stream.connected then { stream with subscribed := false }
  else if stream.rx.length < channelCap then { stream with rx := stream.rx ++ [event] }
  else { stream with missed := stream.missed ++ [event] }

def EventStream.refill (stream : EventStream) : EventStream :=
  match stream.backlog, stream.rx with
  | event :: rest, _ => { stream with backlog := rest, given := stream.given ++ [event] }
  | [], event :: rest => { stream with rx := rest, given := stream.given ++ [event] }
  | [], [] => stream

def EventHub.new : EventHub := ⟨0, [], [], []⟩

def EventHub.emit (hub : EventHub) (report : Report) : EventHub :=
  let event : DashboardEvent := ⟨report, hub.seq + 1⟩
  let ring := hub.ring ++ [event]
  ⟨hub.seq + 1, ring.drop (ring.length - eventCap), hub.streams.map (·.trySend event),
    hub.history ++ [event]⟩

def EventHub.stream (hub : EventHub) (after : Nat) : EventHub :=
  { hub with streams := hub.streams ++
      [⟨hub.ring.filter (after < ·.seq), [], true, true, after, hub.history.length, [], []⟩] }

def EventHub.step (hub : EventHub) : Op → EventHub
  | .emit report => hub.emit report
  | .stream after => hub.stream after
  | .refill index => { hub with streams := hub.streams.modify index EventStream.refill }
  | .close index =>
    { hub with streams := hub.streams.modify index fun stream => { stream with connected := false } }

end Source

section Streams

def EventStream.shown (stream : EventStream) : List DashboardEvent :=
  stream.given ++ stream.backlog ++ stream.rx

/-- What the ring held past `after`, and everything since but what was missed. -/
def EventStream.owed (stream : EventStream) (history : List DashboardEvent) : List DashboardEvent :=
  ((history.take stream.since).drop (stream.since - eventCap)).filter (stream.after < ·.seq) ++
    (history.drop stream.since).filter (· ∉ stream.missed)

structure Whole (history : List DashboardEvent) (stream : EventStream) : Prop where
  subscribed : stream.subscribed
  since : stream.since ≤ history.length
  room : stream.rx.length ≤ channelCap
  missed : ∀ event ∈ stream.missed, event ∈ history
  shown : stream.shown = stream.owed history

variable {history : List DashboardEvent} {event : DashboardEvent} {stream : EventStream}

theorem owed_append (since : stream.since ≤ history.length) :
    stream.owed (history ++ [event]) =
      stream.owed history ++ [event].filter (· ∉ stream.missed) := by
  unfold EventStream.owed
  rw [List.take_append_of_le_length since, List.drop_append_of_le_length since, List.filter_append,
    List.append_assoc]

theorem owed_sublist : (stream.owed history).Sublist history := by
  conv_rhs => rw [← List.take_append_drop stream.since history]
  exact (List.filter_sublist.trans (List.drop_sublist _ _)).append List.filter_sublist

theorem Whole.trySend (fresh : event ∉ history) (whole : Whole history stream)
    (connected : stream.connected) : Whole (history ++ [event]) (stream.trySend event) := by
  obtain ⟨subscribed, since, room, missed, shown⟩ := whole
  have longer : stream.since ≤ (history ++ [event]).length := by
    rw [List.length_append]
    omega
  unfold EventStream.trySend
  rw [if_neg (not_not.mpr subscribed), if_neg (not_not.mpr connected)]
  split
  · rename_i free
    have unmissed : event ∉ stream.missed := fun listed => fresh (missed event listed)
    refine ⟨subscribed, longer, by simpa using free,
      fun other listed => List.mem_append_left _ (missed other listed), ?_⟩
    change stream.given ++ stream.backlog ++ (stream.rx ++ [event]) = stream.owed (history ++ [event])
    rw [owed_append since, ← List.append_assoc]
    exact congrArg₂ (· ++ ·) shown (by simp [unmissed])
  · let dropped : EventStream := { stream with missed := stream.missed ++ [event] }
    -- no earlier event is the one that is dropped now
    have same : stream.owed history = dropped.owed history := by
      refine congrArg (_ ++ ·) (List.filter_congr fun other listed => ?_)
      have older : other ≠ event := fun is => fresh (is ▸ List.mem_of_mem_drop listed)
      simp [dropped, older]
    refine ⟨subscribed, longer, room, ?_, ?_⟩
    · simp only [List.mem_append, List.mem_singleton]
      exact fun other => Or.imp (missed other) id
    · change stream.shown = dropped.owed (history ++ [event])
      rw [owed_append (show dropped.since ≤ history.length from since), ← same, shown]
      simp [dropped]

theorem Whole.refill (whole : Whole history stream) : Whole history stream.refill := by
  obtain ⟨subscribed, since, room, missed, shown⟩ := whole
  unfold EventStream.refill
  split
  · rename_i backlog
    refine ⟨subscribed, since, room, missed, Eq.trans ?_ shown⟩
    simp [EventStream.shown, backlog]
  · rename_i backlog rx
    rw [rx] at room
    refine ⟨subscribed, since, Nat.le_of_succ_le room, missed, Eq.trans ?_ shown⟩
    simp [EventStream.shown, backlog, rx]
  · exact ⟨subscribed, since, room, missed, shown⟩

theorem forall_modify {streams : List EventStream} {good : EventStream → Prop}
    {change : EventStream → EventStream} (index : Nat) (held : ∀ stream ∈ streams, good stream)
    (kept : ∀ stream, good stream → good (change stream)) :
    ∀ stream ∈ streams.modify index change, good stream := by
  intro stream listed
  obtain ⟨place, found⟩ := List.mem_iff_getElem?.mp listed
  rw [List.getElem?_modify] at found
  obtain ⟨old, is, rfl⟩ := Option.map_eq_some_iff.mp found
  have before := held old (List.mem_of_getElem? is)
  split
  · exact kept old before
  · exact before

structure Consistent (hub : EventHub) : Prop where
  numbered : hub.history.map (·.seq) = List.range' 1 hub.seq
  ring : hub.ring = hub.history.drop (hub.history.length - eventCap)
  streams : ∀ stream ∈ hub.streams, stream.connected → Whole hub.history stream

variable {hub : EventHub}

theorem Consistent.emit (held : Consistent hub) (report : Report) : Consistent (hub.emit report) := by
  obtain ⟨numbered, ring, streams⟩ := held
  -- the new number is past all earlier ones
  have fresh : (⟨report, hub.seq + 1⟩ : DashboardEvent) ∉ hub.history := by
    intro listed
    have number : hub.seq + 1 ∈ hub.history.map (·.seq) := List.mem_map.mpr ⟨_, listed, rfl⟩
    rw [numbered, List.mem_range'_1] at number
    omega
  refine ⟨?_, ?_, ?_⟩
  · simp [EventHub.emit, numbered, List.range'_concat, Nat.add_comm]
  · simp only [EventHub.emit, ring]
    rw [← List.drop_append_of_le_length (Nat.sub_le ..), List.drop_drop, List.length_drop,
      List.length_append]
    congr 1
    omega
  · intro sent listed connected
    obtain ⟨stream, before, rfl⟩ := List.mem_map.mp listed
    have was : stream.connected := by
      unfold EventStream.trySend at connected
      grind
    exact (streams stream before was).trySend fresh was

theorem Consistent.step (held : Consistent hub) (op : Op) : Consistent (hub.step op) := by
  obtain ⟨numbered, ring, streams⟩ := held
  cases op with
  | emit report => exact Consistent.emit ⟨numbered, ring, streams⟩ report
  | stream after =>
    refine ⟨numbered, ring, fun stream listed connected => ?_⟩
    rcases List.mem_append.mp listed with before | new
    · exact streams stream before connected
    · cases List.mem_singleton.mp new
      refine ⟨rfl, le_rfl, Nat.zero_le _, List.forall_mem_nil _, ?_⟩
      simp [EventStream.shown, EventStream.owed, EventHub.step, EventHub.stream, ring]
  | refill index =>
    refine ⟨numbered, ring, forall_modify index streams fun stream whole connected => ?_⟩
    have was : stream.connected := by
      unfold EventStream.refill at connected
      split at connected <;> exact connected
    exact (whole was).refill
  | close index => exact ⟨numbered, ring, forall_modify index streams fun _ _ closed => by cases closed⟩

end Streams

/-- Over any run of the hub: events are numbered without a gap and the ring has the
newest ones; and a stream that is still read has handed out, or holds, what the
ring had past the number it was asked for and every event since, each once and in
order, but for those that found its channel full. -/
theorem streams_complete (ops : List Op) :
    let hub := ops.foldl EventHub.step .new
    hub.history.map (·.seq) = List.range' 1 hub.seq ∧
      hub.ring = hub.history.drop (hub.history.length - eventCap) ∧
      ∀ stream ∈ hub.streams, stream.connected → stream.shown = stream.owed hub.history ∧
        (stream.shown.map (·.seq)).Pairwise (· < ·) ∧ stream.rx.length ≤ channelCap := by
  have held : Consistent (ops.foldl EventHub.step .new) :=
    List.foldlRecOn ops EventHub.step ⟨rfl, List.drop_nil.symm, List.forall_mem_nil _⟩
      fun _ held op _ => held.step op
  refine ⟨held.numbered, held.ring, fun stream listed connected => ?_⟩
  have whole := held.streams stream listed connected
  refine ⟨whole.shown, ?_, whole.room⟩
  rw [whole.shown]
  refine List.Pairwise.sublist (owed_sublist.map _) ?_
  rw [held.numbered]
  exact List.pairwise_lt_range'

end TlsVpn.Events

import TlsVpn.Admission

/-!
The virtual switch of net.rs: its ports, its MAC table, and what it does with a
frame. A port is known by a handle. Handing a frame to a port is an output; what
the port then does with it is the port's model.

An `Ambient` is what one frame meets outside the switch: the time, the answer of
the ownership callback (true if none is set), and whether the flood budget of its
source port still allows it. The order in which a flood visits the ports is the
map's own; the results do not depend on it.
-/

namespace TlsVpn.Switching

open AddressText Admission

abbrev Frame := List UInt8

abbrev Handed := List (Nat × Frame)

/-- `TAP_PORT_ID`, the port that may carry any source address. -/
def trustedPort : Text := "TAP_LOCAL".toList

structure Entry where
  portId : Text
  port : Option Nat
  updatedAt : Nat
  staticEntry : Bool
  deriving DecidableEq

structure VSwitch where
  ports : AList fun _ : Text => Nat
  macTable : MacKey → Option Entry
  spoofDrops : Nat
  floodDrops : Nat

structure Ambient where
  now : Nat
  accepts : Bool
  budget : Bool

def VSwitch.new : VSwitch := ⟨∅, fun _ => none, 0, 0⟩

section Tables

def VSwitch.addPort (switch : VSwitch) (id : Text) (port : Nat) : VSwitch :=
  { switch with ports := switch.ports.insert id port }

def VSwitch.insertMac (switch : VSwitch) (mac : MacKey) (entry : Entry) : VSwitch :=
  { switch with macTable := fun other => if other = mac then some entry else switch.macTable other }

def zeroMac : MacKey := List.replicate 6 0

def VSwitch.addStaticMac (switch : VSwitch) (portId : Text) (mac : MacKey) (now : Nat) : VSwitch :=
  if mac = zeroMac then switch
  else switch.insertMac mac ⟨portId, switch.ports.lookup portId, now, true⟩

def VSwitch.retain (switch : VSwitch) (keep : Entry → Bool) : VSwitch :=
  { switch with macTable := fun mac => (switch.macTable mac).filter keep }

def VSwitch.removePort (switch : VSwitch) (id : Text) : VSwitch :=
  { switch with ports := switch.ports.erase id }.retain fun entry => entry.portId != id

/-- The collector thread of `with_flood_budgets`, once every 300 s. -/
def VSwitch.collect (switch : VSwitch) (now : Nat) : VSwitch :=
  switch.retain fun entry => entry.staticEntry || decide (now - entry.updatedAt < 1800000000000)

end Tables

section Frames

def dstMac (frame : Frame) : MacKey := frame.take 6

def srcMac (frame : Frame) : MacKey := (frame.drop 6).take 6

def unicast (mac : MacKey) : Bool := mac.headD 0 &&& 1 == 0

def VSwitch.spoofed (switch : VSwitch) : VSwitch :=
  { switch with spoofDrops := (switch.spoofDrops + 1) % 18446744073709551616 }

def VSwitch.flood (switch : VSwitch) (source : Text) (frame : Frame) (ambient : Ambient) :
    VSwitch × Handed :=
  if source ≠ trustedPort ∧ ambient.budget = false then
    ({ switch with floodDrops := (switch.floodDrops + 1) % 18446744073709551616 }, [])
  else
    (switch, (switch.ports.entries.filter fun entry => entry.1 != source).map
      fun entry => (entry.2, frame))

def VSwitch.sourceState (switch : VSwitch) (source : Text) (mac : MacKey) (now : Nat) :
    Bool × Bool :=
  match switch.macTable mac with
  | some entry =>
    if entry.staticEntry then (false, entry.portId != source)
    else (entry.portId != source || decide (now - entry.updatedAt > 5000000000), false)
  | none => (true, false)

def VSwitch.learn (switch : VSwitch) (source : Text) (mac : MacKey) (ambient : Ambient) :
    Option VSwitch :=
  let (needUpdate, staticElsewhere) := switch.sourceState source mac ambient.now
  if staticElsewhere && source != trustedPort then none
  else if !needUpdate then some switch
  else if !ambient.accepts then none
  else
    let learned := switch.ports.lookup source
    match switch.macTable mac with
    | some entry =>
      if entry.staticEntry && entry.portId != source then
        if source != trustedPort then none else some switch
      else some (switch.insertMac mac ⟨source, learned, ambient.now, entry.staticEntry⟩)
    | none => some (switch.insertMac mac ⟨source, learned, ambient.now, false⟩)

/-- The second half of `process_frame_inner`: to the port of the destination, or
to all others. An entry without a cached port is looked up by its id. -/
def VSwitch.forward (switch : VSwitch) (source : Text) (frame : Frame) (ambient : Ambient) :
    VSwitch × Handed :=
  if unicast (dstMac frame) then
    match switch.macTable (dstMac frame) with
    | some entry =>
      if entry.portId = source then (switch, [])
      else
        match entry.port with
        | some port => (switch, [(port, frame)])
        | none =>
          match switch.ports.lookup entry.portId with
          | some port => (switch, [(port, frame)])
          | none => (switch, [])
    | none => switch.flood source frame ambient
  else switch.flood source frame ambient

def VSwitch.processFrameInner (switch : VSwitch) (source : Text) (registered : Option MacKey)
    (frame : Frame) (ambient : Ambient) : VSwitch × Handed :=
  if frame.length < 14 then (switch, [])
  else
    match registered.filter fun mac => mac != zeroMac with
    | some mac =>
      if srcMac frame ≠ mac then (switch.spoofed, [])
      else switch.forward source frame ambient
    | none =>
      match switch.learn source (srcMac frame) ambient with
      | none => (switch.spoofed, [])
      | some learned => learned.forward source frame ambient

def VSwitch.processFrame (switch : VSwitch) (source : Text) (frame : Frame) (ambient : Ambient) :
    VSwitch × Handed :=
  switch.processFrameInner source none frame ambient

def VSwitch.processOwnedFrame (switch : VSwitch) (source : Text) (frame : Frame)
    (ambient : Ambient) : VSwitch × Handed :=
  switch.processFrameInner source none frame ambient

def VSwitch.processSessionFrame (switch : VSwitch) (source : Text) (registered : MacKey)
    (frame : Frame) (ambient : Ambient) : VSwitch × Handed :=
  switch.processFrameInner source (some registered) frame ambient

def VSwitch.runPort (switch : VSwitch) (source : Text) (registered : MacKey) (frame : Frame) :
    Option Nat :=
  if registered ≠ zeroMac ∧ 14 ≤ frame.length ∧ srcMac frame = registered ∧
      unicast (dstMac frame) = true then
    match switch.macTable (dstMac frame) with
    | some entry => if entry.portId ≠ source then entry.port else none
    | none => none
  else none

/-- The frames behind the first that `input.peek()` lets join its run. -/
def joins (registered dst : MacKey) (next : Frame × Ambient) : Bool :=
  decide (14 ≤ next.1.length) && dstMac next.1 == dst && srcMac next.1 == registered

/-- The loop of `process_session_batch`. Each turn takes a frame at least, so as
many turns as frames are enough. -/
def VSwitch.batchLoop (switch : VSwitch) (source : Text) (registered : MacKey) :
    Nat → List (Frame × Ambient) → VSwitch × Handed
  | 0, _ => (switch, [])
  | _ + 1, [] => (switch, [])
  | fuel + 1, (frame, ambient) :: rest =>
    match switch.runPort source registered frame with
    | some port =>
      let members := rest.takeWhile (joins registered (dstMac frame))
      let later := switch.batchLoop source registered fuel
        (rest.dropWhile (joins registered (dstMac frame)))
      (later.1, (frame :: members.map Prod.fst).map (port, ·) ++ later.2)
    | none =>
      let first := switch.processSessionFrame source registered frame ambient
      let later := first.1.batchLoop source registered fuel rest
      (later.1, first.2 ++ later.2)

def VSwitch.processSessionBatch (switch : VSwitch) (source : Text) (registered : MacKey)
    (frames : List (Frame × Ambient)) : VSwitch × Handed :=
  switch.batchLoop source registered frames.length frames

theorem VSwitch.batchLoop_enough (switch : VSwitch) (source : Text) (registered : MacKey)
    (few many : Nat) (frames : List (Frame × Ambient)) (fits : frames.length ≤ few)
    (roomy : frames.length ≤ many) :
    switch.batchLoop source registered few frames =
      switch.batchLoop source registered many frames := by
  induction few generalizing switch many frames with
  | zero =>
    obtain rfl := List.length_eq_zero_iff.mp (Nat.le_zero.mp fits)
    cases many <;> rfl
  | succ few ih =>
    cases frames with
    | nil => cases many <;> rfl
    | cons item rest =>
      obtain ⟨frame, ambient⟩ := item
      cases many with
      | zero => cases roomy
      | succ many =>
        have restFits := Nat.le_of_succ_le_succ fits
        have restRoomy := Nat.le_of_succ_le_succ roomy
        have shorter := (List.dropWhile_suffix (joins registered (dstMac frame))
          (l := rest)).length_le
        simp only [VSwitch.batchLoop]
        rw [ih switch many _ (shorter.trans restFits) (shorter.trans restRoomy),
          ih _ many rest restFits restRoomy]

end Frames

inductive Label where
  | addPort (id : Text) (port : Nat)
  | addStaticMac (portId : Text) (mac : MacKey) (now : Nat)
  | removePort (id : Text)
  | collect (now : Nat)
  | processFrame (source : Text) (frame : Frame) (ambient : Ambient)
  | processOwnedFrame (source : Text) (frame : Frame) (ambient : Ambient)
  | processSessionFrame (source : Text) (registered : MacKey) (frame : Frame) (ambient : Ambient)
  | processSessionBatch (source : Text) (registered : MacKey) (frames : List (Frame × Ambient))

def VSwitch.step (switch : VSwitch) : Label → VSwitch × Handed
  | .addPort id port => (switch.addPort id port, [])
  | .addStaticMac portId mac now => (switch.addStaticMac portId mac now, [])
  | .removePort id => (switch.removePort id, [])
  | .collect now => (switch.collect now, [])
  | .processFrame source frame ambient => switch.processFrame source frame ambient
  | .processOwnedFrame source frame ambient => switch.processOwnedFrame source frame ambient
  | .processSessionFrame source registered frame ambient =>
    switch.processSessionFrame source registered frame ambient
  | .processSessionBatch source registered frames =>
    switch.processSessionBatch source registered frames

/-- A switch with its past: the ports registered under each id since that id was
last removed. -/
structure Trace where
  switch : VSwitch
  registered : Text → List Nat

def Trace.step (trace : Trace) (label : Label) : Trace where
  switch := (trace.switch.step label).1
  registered :=
    match label with
    | .addPort id port => Function.update trace.registered id (port :: trace.registered id)
    | .removePort id => Function.update trace.registered id []
    | _ => trace.registered

def Trace.new : Trace := ⟨VSwitch.new, fun _ => []⟩

section Learning

/-- What processing frames from one port can do to the tables: the ports stay, and
an address is left as it is or, unless it is pinned, taken over by that port. -/
structure Learned (source : Text) (before after : VSwitch) : Prop where
  ports : after.ports = before.ports
  entries : ∀ mac, after.macTable mac = before.macTable mac ∨
    ((∀ entry, before.macTable mac = some entry → entry.staticEntry = false) ∧
      ∃ now, after.macTable mac = some ⟨source, before.ports.lookup source, now, false⟩)

variable {source : Text} {mac : MacKey}

theorem Learned.refl (source : Text) (switch : VSwitch) : Learned source switch switch :=
  ⟨rfl, fun _ => Or.inl rfl⟩

theorem Learned.pinned {before after : VSwitch} (learned : Learned source before after)
    {entry : Entry} (found : before.macTable mac = some entry) (pinned : entry.staticEntry = true) :
    after.macTable mac = some entry := by
  rcases learned.entries mac with same | ⟨dynamic, _⟩
  · rw [same, found]
  · rw [dynamic entry found] at pinned
    cases pinned

theorem Learned.trans {first middle last : VSwitch} (one : Learned source first middle)
    (two : Learned source middle last) : Learned source first last := by
  refine ⟨two.ports.trans one.ports, ?_⟩
  intro mac
  rcases two.entries mac with same | ⟨dynamic, now, fresh⟩
  · rw [same]
    exact one.entries mac
  · right
    refine ⟨?_, now, by rw [fresh, one.ports]⟩
    intro entry found
    by_contra static
    have kept := one.pinned found (by simpa using static)
    exact static (dynamic entry kept)

theorem learn_learned {switch learned : VSwitch} {ambient : Ambient}
    (result : switch.learn source mac ambient = some learned) : Learned source switch learned := by
  have inserted : ∀ now, (∀ entry, switch.macTable mac = some entry → entry.staticEntry = false) →
      Learned source switch
        (switch.insertMac mac ⟨source, switch.ports.lookup source, now, false⟩) := by
    intro now dynamic
    refine ⟨rfl, fun other => ?_⟩
    by_cases same : other = mac
    · subst other
      exact Or.inr ⟨dynamic, now, by simp [VSwitch.insertMac]⟩
    · exact Or.inl (by simp [VSwitch.insertMac, same])
  unfold VSwitch.learn VSwitch.sourceState at result
  cases found : switch.macTable mac with
  | none =>
    cases answer : ambient.accepts with
    | false => simp [found, answer] at result
    | true =>
      simp only [found, answer, Bool.false_and, Bool.false_eq_true, ↓reduceIte, Bool.not_true,
        Option.some.injEq] at result
      subst result
      exact inserted ambient.now (by simp [found])
  | some entry =>
    cases static : entry.staticEntry with
    | true =>
      -- a pinned address is never written: the update is not even asked for
      simp only [found, static, ↓reduceIte, Bool.not_false] at result
      by_cases stop : ((entry.portId != source) && (source != trustedPort)) = true
      · simp [stop] at result
      · rw [if_neg stop] at result
        cases result
        exact Learned.refl source switch
    | false =>
      simp only [found, static, Bool.false_eq_true, ↓reduceIte, Bool.false_and] at result
      by_cases fresh : (!((entry.portId != source) ||
          decide (ambient.now - entry.updatedAt > 5000000000))) = true
      · rw [if_pos fresh] at result
        cases result
        exact Learned.refl source switch
      · rw [if_neg fresh] at result
        cases answer : ambient.accepts with
        | false => simp [answer] at result
        | true =>
          simp only [answer, Bool.not_true, Bool.false_eq_true, ↓reduceIte,
            Option.some.injEq] at result
          subst result
          refine inserted ambient.now ?_
          intro other same
          rw [found] at same
          cases same
          exact static

end Learning

section Processing

def Target (switch : VSwitch) (entry : Entry) (port : Nat) : Prop :=
  entry.port = some port ∨ switch.ports.lookup entry.portId = some port

structure Processed (source : Text) (before after : VSwitch) (handed : Handed) : Prop where
  learned : Learned source before after
  aimed : ∀ item ∈ handed, unicast (dstMac item.2) = true → ∀ entry,
    before.macTable (dstMac item.2) = some entry → entry.staticEntry = true →
    Target before entry item.1

variable {before after middle : VSwitch} {one two : Handed} {port : Nat} (switch : VSwitch)
  (source : Text) (frame : Frame) (ambient : Ambient)

theorem Processed.nothing {source : Text} (learned : Learned source before after) :
    Processed source before after [] := by
  refine ⟨learned, ?_⟩
  intro item member
  cases member

theorem Processed.append {source : Text} (first : Processed source before middle one)
    (second : Processed source middle after two) : Processed source before after (one ++ two) := by
  refine ⟨first.learned.trans second.learned, ?_⟩
  intro item member single entry found pinned
  rcases List.mem_append.mp member with early | late
  · exact first.aimed item early single entry found pinned
  · have target := second.aimed item late single entry (first.learned.pinned found pinned) pinned
    rw [Target, first.learned.ports] at target
    exact target

theorem flood_tables :
    (switch.flood source frame ambient).1.ports = switch.ports ∧
      (switch.flood source frame ambient).1.macTable = switch.macTable ∧
      ∀ item ∈ (switch.flood source frame ambient).2, item.2 = frame := by
  unfold VSwitch.flood
  by_cases spent : source ≠ trustedPort ∧ ambient.budget = false
  · rw [if_pos spent]
    refine ⟨rfl, rfl, ?_⟩
    intro item member
    cases member
  · rw [if_neg spent]
    refine ⟨rfl, rfl, ?_⟩
    intro item member
    obtain ⟨entry, _, rfl⟩ := List.mem_map.mp member
    rfl

theorem Learned.of_tables {source : Text} (ports : after.ports = before.ports)
    (table : after.macTable = before.macTable) : Learned source before after :=
  ⟨ports, fun mac => Or.inl (by rw [table])⟩

theorem forward_spec :
    (switch.forward source frame ambient).1.ports = switch.ports ∧
      (switch.forward source frame ambient).1.macTable = switch.macTable ∧
      ∀ item ∈ (switch.forward source frame ambient).2, item.2 = frame ∧
        (unicast (dstMac frame) = true → ∀ entry, switch.macTable (dstMac frame) = some entry →
          Target switch entry item.1) := by
  obtain ⟨ports, table, content⟩ := flood_tables switch source frame ambient
  unfold VSwitch.forward
  cases single : unicast (dstMac frame) with
  | false =>
    simp only [Bool.false_eq_true, ↓reduceIte]
    exact ⟨ports, table, fun item member => ⟨content item member, fun impossible => by cases impossible⟩⟩
  | true =>
    simp only [↓reduceIte]
    cases found : switch.macTable (dstMac frame) with
    | none => exact ⟨ports, table, fun item member => ⟨content item member, by simp⟩⟩
    | some entry =>
      by_cases own : entry.portId = source
      · simp [own]
      · simp only [own, ↓reduceIte]
        cases cached : entry.port with
        | some port => simp [Target, cached]
        | none =>
          cases current : switch.ports.lookup entry.portId with
          | none => simp
          | some port => simp [Target, current]

theorem forward_processed :
    Processed source switch (switch.forward source frame ambient).1
      (switch.forward source frame ambient).2 := by
  obtain ⟨ports, table, handed⟩ := forward_spec switch source frame ambient
  refine ⟨Learned.of_tables ports table, ?_⟩
  intro item member single entry found _
  obtain ⟨same, aimed⟩ := handed item member
  rw [same] at single found
  exact aimed single entry found

theorem processFrameInner_processed (registered : Option MacKey) (frame : Frame) (ambient : Ambient) :
    Processed source switch (switch.processFrameInner source registered frame ambient).1
      (switch.processFrameInner source registered frame ambient).2 := by
  have dropped : Processed source switch switch.spoofed [] :=
    Processed.nothing (Learned.of_tables rfl rfl)
  unfold VSwitch.processFrameInner
  by_cases short : frame.length < 14
  · rw [if_pos short]
    exact Processed.nothing (Learned.refl source switch)
  · rw [if_neg short]
    cases registered.filter fun mac => mac != zeroMac with
    | some mac =>
      by_cases foreign : srcMac frame ≠ mac
      · simp only [if_pos foreign]
        exact dropped
      · simp only [if_neg foreign]
        exact forward_processed switch source frame ambient
    | none =>
      cases result : switch.learn source (srcMac frame) ambient with
      | none => exact dropped
      | some learned =>
        have first : Processed source switch learned [] :=
          Processed.nothing (learn_learned result)
        exact first.append (forward_processed learned source frame ambient)

theorem runPort_spec {switch : VSwitch} {source : Text} {registered : MacKey} {frame : Frame}
    (result : switch.runPort source registered frame = some port) :
    registered ≠ zeroMac ∧ srcMac frame = registered ∧
      ∃ entry, switch.macTable (dstMac frame) = some entry ∧ entry.port = some port := by
  unfold VSwitch.runPort at result
  by_cases eligible : registered ≠ zeroMac ∧ 14 ≤ frame.length ∧ srcMac frame = registered ∧
      unicast (dstMac frame) = true
  · rw [if_pos eligible] at result
    refine ⟨eligible.1, eligible.2.2.1, ?_⟩
    cases found : switch.macTable (dstMac frame) with
    | none => simp [found] at result
    | some entry =>
      simp only [found] at result
      by_cases other : entry.portId ≠ source
      · rw [if_pos other] at result
        exact ⟨entry, rfl, result⟩
      · rw [if_neg other] at result
        cases result
  · rw [if_neg eligible] at result
    cases result

theorem joins_iff {registered dst : MacKey} {next : Frame × Ambient}
    (joined : joins registered dst next = true) :
    dstMac next.1 = dst ∧ srcMac next.1 = registered := by
  simp only [joins, Bool.and_eq_true, beq_iff_eq, decide_eq_true_eq] at joined
  exact ⟨joined.1.2, joined.2⟩

def runFrames (registered : MacKey) (frame : Frame) (rest : List (Frame × Ambient)) : List Frame :=
  frame :: (rest.takeWhile (joins registered (dstMac frame))).map Prod.fst

theorem runFrames_spec {registered : MacKey} {frame : Frame} {rest : List (Frame × Ambient)}
    (own : srcMac frame = registered) :
    ∀ member ∈ runFrames registered frame rest,
      dstMac member = dstMac frame ∧ srcMac member = registered := by
  intro member present
  rcases List.mem_cons.mp present with rfl | joined
  · exact ⟨rfl, own⟩
  · obtain ⟨next, inside, rfl⟩ := List.mem_map.mp joined
    exact joins_iff (List.mem_takeWhile_imp inside)

theorem run_processed {switch : VSwitch} {source : Text} {registered : MacKey} {frame : Frame}
    (result : switch.runPort source registered frame = some port) (rest : List (Frame × Ambient)) :
    Processed source switch switch ((runFrames registered frame rest).map (port, ·)) := by
  obtain ⟨_, own, entry, found, cached⟩ := runPort_spec result
  refine ⟨Learned.refl source switch, ?_⟩
  intro item member _ other here _
  obtain ⟨content, present, rfl⟩ := List.mem_map.mp member
  rw [(runFrames_spec own content present).1, found] at here
  cases here
  exact Or.inl cached

theorem batchLoop_processed (registered : MacKey) (fuel : Nat) (frames : List (Frame × Ambient)) :
    Processed source switch (switch.batchLoop source registered fuel frames).1
      (switch.batchLoop source registered fuel frames).2 := by
  induction fuel generalizing switch frames with
  | zero => exact Processed.nothing (Learned.refl source switch)
  | succ fuel ih =>
    cases frames with
    | nil => exact Processed.nothing (Learned.refl source switch)
    | cons item rest =>
      obtain ⟨frame, ambient⟩ := item
      cases result : switch.runPort source registered frame with
      | some port =>
        simp only [VSwitch.batchLoop, result]
        exact (run_processed result rest).append (ih switch _)
      | none =>
        simp only [VSwitch.batchLoop, result]
        exact (processFrameInner_processed switch source (some registered) frame ambient).append
          (ih _ rest)

structure Vouched (registered : MacKey) (before after : VSwitch) (handed : Handed) : Prop where
  table : after.macTable = before.macTable
  sources : ∀ item ∈ handed, srcMac item.2 = registered

theorem Vouched.nothing (registered : MacKey) (table : after.macTable = before.macTable) :
    Vouched registered before after [] := by
  refine ⟨table, ?_⟩
  intro item member
  cases member

theorem Vouched.append {registered : MacKey} (first : Vouched registered before middle one)
    (second : Vouched registered middle after two) :
    Vouched registered before after (one ++ two) := by
  refine ⟨second.table.trans first.table, ?_⟩
  intro item member
  rcases List.mem_append.mp member with early | late
  · exact first.sources item early
  · exact second.sources item late

theorem processSessionFrame_eq (registered : MacKey) (frame : Frame) (ambient : Ambient)
    (named : registered ≠ zeroMac) :
    switch.processSessionFrame source registered frame ambient =
      if frame.length < 14 then (switch, [])
      else if srcMac frame ≠ registered then (switch.spoofed, [])
      else switch.forward source frame ambient := by
  have kept : (some registered).filter (fun mac => mac != zeroMac) = some registered := by
    simp [Option.filter, named]
  rw [VSwitch.processSessionFrame, VSwitch.processFrameInner, kept]

theorem processSessionFrame_foreign (registered : MacKey) (frame : Frame) (ambient : Ambient)
    (named : registered ≠ zeroMac) (foreign : srcMac frame ≠ registered) :
    (switch.processSessionFrame source registered frame ambient).2 = [] := by
  rw [processSessionFrame_eq switch source registered frame ambient named, if_pos foreign]
  split <;> rfl

theorem processSessionFrame_vouched (registered : MacKey) (frame : Frame) (ambient : Ambient)
    (named : registered ≠ zeroMac) :
    Vouched registered switch (switch.processSessionFrame source registered frame ambient).1
      (switch.processSessionFrame source registered frame ambient).2 := by
  rw [processSessionFrame_eq switch source registered frame ambient named]
  by_cases short : frame.length < 14
  · rw [if_pos short]
    exact Vouched.nothing registered rfl
  · rw [if_neg short]
    by_cases foreign : srcMac frame ≠ registered
    · rw [if_pos foreign]
      exact Vouched.nothing registered rfl
    · rw [if_neg foreign]
      obtain ⟨_, table, handed⟩ := forward_spec switch source frame ambient
      refine ⟨table, ?_⟩
      intro item member
      rw [(handed item member).1]
      exact not_not.mp foreign

theorem batchLoop_vouched (registered : MacKey) (named : registered ≠ zeroMac) (fuel : Nat)
    (frames : List (Frame × Ambient)) :
    Vouched registered switch (switch.batchLoop source registered fuel frames).1
      (switch.batchLoop source registered fuel frames).2 := by
  induction fuel generalizing switch frames with
  | zero => exact Vouched.nothing registered rfl
  | succ fuel ih =>
    cases frames with
    | nil => exact Vouched.nothing registered rfl
    | cons item rest =>
      obtain ⟨frame, ambient⟩ := item
      cases result : switch.runPort source registered frame with
      | some port =>
        have own := (runPort_spec result).2.1
        simp only [VSwitch.batchLoop, result]
        refine Vouched.append ⟨rfl, ?_⟩ (ih switch _)
        intro item member
        obtain ⟨content, present, rfl⟩ := List.mem_map.mp member
        exact (runFrames_spec own content present).2
      | none =>
        simp only [VSwitch.batchLoop, result]
        exact (processSessionFrame_vouched switch source registered frame ambient named).append
          (ih _ rest)

end Processing

section Pinning

def Label.Releases (mac : MacKey) (portId : Text) : Label → Prop
  | .addStaticMac _ other _ => other = mac
  | .removePort id => id = portId
  | _ => False

def Label.source : Label → Option Text
  | .addPort _ _ => none
  | .addStaticMac _ _ _ => none
  | .removePort _ => none
  | .collect _ => none
  | .processFrame source _ _ => some source
  | .processOwnedFrame source _ _ => some source
  | .processSessionFrame source _ _ _ => some source
  | .processSessionBatch source _ _ => some source

variable {trace : Trace} (switch : VSwitch) (labels : List Label) (label : Label)

theorem step_processed (source : Text) (from_ : label.source = some source) :
    Processed source switch (switch.step label).1 (switch.step label).2 := by
  cases label with
  | addPort id port => cases from_
  | addStaticMac portId mac now => cases from_
  | removePort id => cases from_
  | collect now => cases from_
  | processFrame source frame ambient =>
    cases from_
    exact processFrameInner_processed switch source none frame ambient
  | processOwnedFrame source frame ambient =>
    cases from_
    exact processFrameInner_processed switch source none frame ambient
  | processSessionFrame source registered frame ambient =>
    cases from_
    exact processFrameInner_processed switch source (some registered) frame ambient
  | processSessionBatch source registered frames =>
    cases from_
    exact batchLoop_processed switch source registered frames.length frames

theorem step_silent (none : label.source = none) : (switch.step label).2 = [] := by
  cases label with
  | addPort id port => rfl
  | addStaticMac portId mac now => rfl
  | removePort id => rfl
  | collect now => rfl
  | processFrame source frame ambient => cases none
  | processOwnedFrame source frame ambient => cases none
  | processSessionFrame source registered frame ambient => cases none
  | processSessionBatch source registered frames => cases none

theorem retain_found {switch : VSwitch} {keep : Entry → Bool} {mac : MacKey} {entry : Entry} :
    (switch.retain keep).macTable mac = some entry ↔
      switch.macTable mac = some entry ∧ keep entry = true :=
  Option.filter_eq_some_iff

theorem step_pinned (mac : MacKey) (entry : Entry) (found : switch.macTable mac = some entry)
    (pinned : entry.staticEntry = true) (kept : ¬ label.Releases mac entry.portId) :
    (switch.step label).1.macTable mac = some entry := by
  cases origin : label.source with
  | some source => exact (step_processed switch label source origin).learned.pinned found pinned
  | none =>
    cases label with
    | addPort id port => exact found
    | addStaticMac portId other now =>
      change (switch.addStaticMac portId other now).macTable mac = some entry
      have apart : mac ≠ other := fun same => kept same.symm
      unfold VSwitch.addStaticMac
      by_cases zero : other = zeroMac
      · rw [if_pos zero]
        exact found
      · rw [if_neg zero, VSwitch.insertMac]
        simp only [apart, ↓reduceIte]
        exact found
    | removePort id =>
      refine retain_found.mpr ⟨found, ?_⟩
      simpa using fun same : entry.portId = id => kept same.symm
    | collect now => exact retain_found.mpr ⟨found, by simp [pinned]⟩
    | processFrame source frame ambient => cases origin
    | processOwnedFrame source frame ambient => cases origin
    | processSessionFrame source registered frame ambient => cases origin
    | processSessionBatch source registered frames => cases origin

theorem run_pinned (trace : Trace) (labels : List Label) (mac : MacKey) (entry : Entry)
    (found : trace.switch.macTable mac = some entry) (pinned : entry.staticEntry = true)
    (kept : ∀ label ∈ labels, ¬ label.Releases mac entry.portId) :
    (labels.foldl Trace.step trace).switch.macTable mac = some entry := by
  induction labels generalizing trace with
  | nil => exact found
  | cons label rest ih =>
    exact ih (trace.step label)
      (step_pinned trace.switch label mac entry found pinned (kept label List.mem_cons_self))
      fun other member => kept other (List.mem_cons_of_mem label member)

structure Rooted (trace : Trace) : Prop where
  ports : ∀ id port, trace.switch.ports.lookup id = some port → port ∈ trace.registered id
  entries : ∀ mac entry port, trace.switch.macTable mac = some entry → entry.port = some port →
    port ∈ trace.registered entry.portId

theorem new_rooted : Rooted Trace.new := by
  refine ⟨?_, ?_⟩
  · intro id port found
    simp [Trace.new, VSwitch.new] at found
  · intro mac entry port found
    cases found

theorem Rooted.target (rooted : Rooted trace) {mac : MacKey} {entry : Entry} {port : Nat}
    (found : trace.switch.macTable mac = some entry) (target : Target trace.switch entry port) :
    port ∈ trace.registered entry.portId := by
  rcases target with cached | current
  · exact rooted.entries mac entry port found cached
  · exact rooted.ports entry.portId port current

theorem Learned.rooted {source : Text} {after : VSwitch}
    (learned : Learned source trace.switch after) (rooted : Rooted trace) :
    Rooted ⟨after, trace.registered⟩ := by
  refine ⟨?_, ?_⟩
  · rw [learned.ports]
    exact rooted.ports
  · intro mac entry port found cached
    rcases learned.entries mac with same | ⟨_, now, fresh⟩
    · exact rooted.entries mac entry port (same ▸ found) cached
    · change after.macTable mac = some entry at found
      rw [fresh] at found
      cases found
      exact rooted.ports source port cached

theorem Rooted.addPort (rooted : Rooted trace) (id : Text) (port : Nat) :
    Rooted (trace.step (.addPort id port)) := by
  have grown : ∀ other known, known ∈ trace.registered other →
      known ∈ Function.update trace.registered id (port :: trace.registered id) other := by
    intro other known member
    by_cases same : other = id
    · subst other
      rw [Function.update_self]
      exact List.mem_cons_of_mem port member
    · rw [Function.update_of_ne same]
      exact member
  refine ⟨?_, ?_⟩
  · intro other known found
    change (trace.switch.ports.insert id port).lookup other = some known at found
    change known ∈ Function.update trace.registered id (port :: trace.registered id) other
    by_cases same : other = id
    · rw [same, AList.lookup_insert] at found
      cases found
      rw [same, Function.update_self]
      exact List.mem_cons_self
    · rw [AList.lookup_insert_ne same] at found
      exact grown other known (rooted.ports other known found)
  · intro mac entry known found cached
    exact grown entry.portId known (rooted.entries mac entry known found cached)

theorem Rooted.addStaticMac (rooted : Rooted trace) (portId : Text) (mac : MacKey) (now : Nat) :
    Rooted (trace.step (.addStaticMac portId mac now)) := by
  simp only [Trace.step, VSwitch.step, VSwitch.addStaticMac]
  by_cases zero : mac = zeroMac
  · rw [if_pos zero]
    exact rooted
  · rw [if_neg zero]
    refine ⟨rooted.ports, ?_⟩
    intro other entry port found cached
    simp only [VSwitch.insertMac] at found
    by_cases same : other = mac
    · rw [if_pos same] at found
      cases found
      exact rooted.ports portId port cached
    · rw [if_neg same] at found
      exact rooted.entries other entry port found cached

theorem Rooted.removePort (rooted : Rooted trace) (id : Text) :
    Rooted (trace.step (.removePort id)) := by
  refine ⟨?_, ?_⟩
  · intro other port found
    change (trace.switch.ports.erase id).lookup other = some port at found
    change port ∈ Function.update trace.registered id [] other
    by_cases same : other = id
    · subst other
      rw [AList.lookup_erase] at found
      cases found
    · rw [AList.lookup_erase_ne same] at found
      rw [Function.update_of_ne same]
      exact rooted.ports other port found
  · intro mac entry port found cached
    obtain ⟨before, apart⟩ := retain_found.mp found
    have other : entry.portId ≠ id := by simpa using apart
    change port ∈ Function.update trace.registered id [] entry.portId
    rw [Function.update_of_ne other]
    exact rooted.entries mac entry port before cached

theorem step_rooted (trace : Trace) (label : Label) (rooted : Rooted trace) :
    Rooted (trace.step label) := by
  have processed := step_processed trace.switch label
  cases label with
  | addPort id port => exact rooted.addPort id port
  | addStaticMac portId mac now => exact rooted.addStaticMac portId mac now
  | removePort id => exact rooted.removePort id
  | collect now =>
    refine ⟨rooted.ports, ?_⟩
    intro mac entry port found cached
    exact rooted.entries mac entry port (retain_found.mp found).1 cached
  | processFrame source frame ambient => exact (processed source rfl).learned.rooted rooted
  | processOwnedFrame source frame ambient => exact (processed source rfl).learned.rooted rooted
  | processSessionFrame source registered frame ambient =>
    exact (processed source rfl).learned.rooted rooted
  | processSessionBatch source registered frames =>
    exact (processed source rfl).learned.rooted rooted

theorem run_rooted : Rooted (labels.foldl Trace.step Trace.new) := by
  have reached := Runs.invariant_total Trace.step (fun _ _ => True) Rooted
    (fun trace label _ rooted => step_rooted trace label rooted) Trace.new labels
    (Runs.along_of_labels _ labels Trace.new fun _ _ => trivial) new_rooted
  exact reached

/-- Static MAC pinning resists hijacking. Whatever calls came before: a pin of an
address to a port stays as it is until that address is pinned again or that port
removed; frames processed for a session that registered an address touch no entry
and are handed on only if they come from that address; and a unicast frame to a
pinned address is handed to no port but one registered under the id of the pin. -/
theorem static_pins_hold (labels : List Label) :
    let trace := labels.foldl Trace.step Trace.new
    (∀ mac entry (later : List Label), trace.switch.macTable mac = some entry →
      entry.staticEntry = true →
      (∀ label ∈ later, ¬ Label.Releases mac entry.portId label) →
      (later.foldl Trace.step trace).switch.macTable mac = some entry) ∧
    (∀ source registered frame ambient, registered ≠ zeroMac →
      let result := trace.switch.processSessionFrame source registered frame ambient
      result.1.macTable = trace.switch.macTable ∧
        (srcMac frame ≠ registered → result.2 = [])) ∧
    (∀ source registered frames, registered ≠ zeroMac →
      let result := trace.switch.processSessionBatch source registered frames
      result.1.macTable = trace.switch.macTable ∧
        ∀ item ∈ result.2, srcMac item.2 = registered) ∧
    (∀ label mac entry, trace.switch.macTable mac = some entry → entry.staticEntry = true →
      unicast mac = true → ∀ item ∈ (trace.switch.step label).2, dstMac item.2 = mac →
        item.1 ∈ trace.registered entry.portId) := by
  intro trace
  have rooted : Rooted trace := run_rooted labels
  refine ⟨?_, ?_, ?_, ?_⟩
  · intro mac entry later found pinned kept
    exact run_pinned trace later mac entry found pinned kept
  · intro source registered frame ambient named result
    have vouched := processSessionFrame_vouched trace.switch source registered frame ambient named
    exact ⟨vouched.table,
      processSessionFrame_foreign trace.switch source registered frame ambient named⟩
  · intro source registered frames named result
    have vouched := batchLoop_vouched trace.switch source registered named frames.length frames
    exact ⟨vouched.table, vouched.sources⟩
  · intro label mac entry found pinned single item member aimed
    cases origin : label.source with
    | none =>
      rw [step_silent trace.switch label origin] at member
      cases member
    | some source =>
      subst mac
      exact rooted.target found
        ((step_processed trace.switch label source origin).aimed item member single entry found pinned)

end Pinning

def macOne : MacKey := [2, 0, 0, 0, 0, 1]

def macTwo : MacKey := [2, 0, 0, 0, 0, 2]

def twoClients : List Label :=
  [.addPort "one".toList 1, .addStaticMac "one".toList macOne 0, .addPort "two".toList 2,
    .addStaticMac "two".toList macTwo 0, .addPort trustedPort 3]

/-- Client two and a stranger claim the address of client one, and the TAP port
carries it; the pin stays, the claim goes nowhere, and what the TAP port sends to
client one goes to its port. -/
theorem static_pins_hold_twoClients :
    let trace := twoClients.foldl Trace.step Trace.new
    let ambient : Ambient := ⟨9000000000, true, true⟩
    let claim : Frame := macTwo ++ macOne ++ [8, 0]
    let reply : Frame := macOne ++ macOne ++ [8, 0]
    (([.processFrame "x".toList claim ambient, .processOwnedFrame trustedPort claim ambient,
        .collect 4000000000000].foldl Trace.step trace).switch.macTable macOne =
      some ⟨"one".toList, some 1, 0, true⟩) ∧
    (trace.switch.processSessionFrame "two".toList macTwo claim ambient).2 = [] ∧
    (trace.switch.step (.processOwnedFrame trustedPort reply ambient)).2 = [(1, reply)] ∧
    1 ∈ trace.registered "one".toList := by
  intro trace ambient claim reply
  obtain ⟨kept, refused, _, aimed⟩ := static_pins_hold twoClients
  have pinned : trace.switch.macTable macOne = some ⟨"one".toList, some 1, 0, true⟩ := by
    decide +kernel
  have handed : (trace.switch.step (.processOwnedFrame trustedPort reply ambient)).2 =
      [(1, reply)] := by
    decide +kernel
  refine ⟨kept macOne _ _ pinned rfl ?_, ?_, handed, ?_⟩
  · intro label member
    simp only [List.mem_cons, List.not_mem_nil, or_false] at member
    rcases member with rfl | rfl | rfl <;> exact id
  · exact (refused _ macTwo claim ambient (by decide)).2 (by decide)
  · exact aimed _ macOne _ pinned rfl (by decide) (1, reply) (by rw [handed]; exact List.mem_cons_self)
      (by decide)

end TlsVpn.Switching

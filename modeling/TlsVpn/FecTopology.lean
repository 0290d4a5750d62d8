import TlsVpn.GroupIntegrity

/-!
The sender's two FEC state machines under a changing number of backends, for
calls of `write_payload` that follow one another. The encoder keeps a partial
group and its multipath and armed flags; the mode state keeps its own flags and
publishes SUSPEND and RESUME with boundaries it computes by arithmetic. Neither
reads the other. What a call finds, how many backends are registered and whether
one of them is below its high-water mark, is an input; which backend then takes
the frame does not matter here.
-/

namespace TlsVpn.Topology

open Words XorBytes Protocol Fec Port Holdings

section Model

structure Call where
  paths : Nat
  room : Bool
  payload : Payload

/-- A call that got a number, and what the section under the mode and encoder
locks made of it. `control` is set if this call started a new generation,
`generation` is the one in force afterwards, `parity` comes with the numbers
the encoder folded into it. -/
structure Write where
  seq : Nat
  paths : Nat
  data : Bytes
  control : Option FecModeControl
  generation : Nat
  parity : Option (List Nat × Bytes)
  deriving DecidableEq

structure Sender where
  txSeq : Nat
  encoder : FecEncoder
  mode : FecTxModeState
  writes : List Write

def Sender.new (k : Nat) (ic : Option InnerCipher) : Sender :=
  ⟨0, FecEncoder.new k ic, FecTxModeState.default, []⟩

def currentGeneration (mode : FecTxModeState) : Nat :=
  match mode.current with
  | some control => control.generation
  | none => 0

def Sender.dispatch (sender : Sender) (seq paths : Nat) (data : Bytes) : Sender :=
  let observed := sender.encoder.setPhysicalPathCount paths
  let mode := sender.mode.observe paths seq observed.k
  let result := observed.add seq data
  let parity := if paths < 2 then none else result.2
  { txSeq := seq
    encoder := result.1
    mode := mode.1
    writes := sender.writes ++
      [⟨seq, paths, data, mode.2, currentGeneration mode.1,
        parity.map fun record => (observed.seqs ++ [seq], record)⟩] }

/-- `write_payload` without the queues: a call that finds no backend, no room
anywhere or no number left is dropped before it touches either state machine. -/
def Sender.writePayload (sender : Sender) (call : Call) : Sender :=
  if call.paths = 0 then sender
  else if call.room = false then sender
  else if sender.txSeq = u32Max then sender
  else sender.dispatch (sender.txSeq + 1) call.paths call.payload.bytes

def Sender.run (k : Nat) (ic : Option InnerCipher) (calls : List Call) : Sender :=
  calls.foldl Sender.writePayload (Sender.new k ic)

end Model

section Boundaries

def GroupStart (k start : Nat) : Prop := 1 ≤ start ∧ (start - 1) % k = 0

instance (k start : Nat) : Decidable (GroupStart k start) := by
  unfold GroupStart
  exact inferInstance

variable {k : Nat}
variable {left right : Nat} (seq : Nat)

theorem GroupStart.factor {start : Nat} (aligned : GroupStart k start) :
    ∃ count, start = k * count + 1 := by
  obtain ⟨positive, exact_⟩ := aligned
  obtain ⟨count, same⟩ := Nat.dvd_of_mod_eq_zero exact_
  exact ⟨count, by omega⟩

theorem GroupStart.le_of_lt (leftAligned : GroupStart k left) (rightAligned : GroupStart k right)
    (near : left < right + k) : left ≤ right := by
  obtain ⟨first, rfl⟩ := leftAligned.factor
  obtain ⟨second, rfl⟩ := rightAligned.factor
  have bound : k * first < k * (second + 1) := by
    rw [Nat.mul_add, Nat.mul_one]
    omega
  have small : first ≤ second := Nat.le_of_lt_succ (Nat.lt_of_mul_lt_mul_left bound)
  have := Nat.mul_le_mul_left k small
  omega

theorem GroupStart.next (leftAligned : GroupStart k left) (rightAligned : GroupStart k right)
    (ahead : left < right) : left + k ≤ right := by
  by_contra near
  have := rightAligned.le_of_lt leftAligned (by omega)
  omega

section

variable (atLeast : 2 ≤ k) (atMost : k ≤ 64)

include atLeast atMost

theorem clampGroup_of_bounds : clampGroup k = k := by
  unfold clampGroup
  omega

theorem fecGroupStart_spec (number : 1 ≤ seq) :
    GroupStart k (fecGroupStart seq k) ∧ fecGroupStart seq k ≤ seq ∧
      seq < fecGroupStart seq k + k := by
  have remainder := Nat.mod_lt (seq - 1) (show 0 < k by omega)
  have below := Nat.mod_le (seq - 1) k
  rw [fecGroupStart, if_neg (by omega), clampGroup_of_bounds atLeast atMost]
  refine ⟨⟨by omega, ?_⟩, by omega, by omega⟩
  rw [show seq - (seq - 1) % k - 1 = (seq - 1) - (seq - 1) % k by omega]
  exact Nat.sub_mod_eq_zero_of_mod_eq (Nat.mod_mod _ _).symm

theorem fecNextGroupStart_spec (number : 1 ≤ seq) :
    (fecNextGroupStart seq k ≠ 0 → GroupStart k (fecNextGroupStart seq k) ∧
      seq ≤ fecNextGroupStart seq k ∧
      ∀ start, GroupStart k start → seq ≤ start → fecNextGroupStart seq k ≤ start) ∧
    (fecNextGroupStart seq k = 0 → ∀ start, GroupStart k start → seq ≤ start → u32Max < start) := by
  have remainder := Nat.mod_lt (seq - 1) (show 0 < k by omega)
  have division := Nat.div_add_mod (seq - 1) k
  rw [fecNextGroupStart, if_neg (by omega), clampGroup_of_bounds atLeast atMost]
  simp only
  by_cases start : (seq - 1) % k = 0
  · rw [if_pos start]
    exact ⟨fun _ => ⟨⟨number, start⟩, Nat.le_refl _, fun _ _ ahead => ahead⟩, by omega⟩
  · rw [if_neg start]
    have aligned : GroupStart k (seq + (k - (seq - 1) % k)) := by
      refine ⟨by omega, ?_⟩
      rw [show seq + (k - (seq - 1) % k) - 1 = k * ((seq - 1) / k + 1) by
        rw [Nat.mul_add, Nat.mul_one]; omega]
      exact Nat.mul_mod_right k _
    have least : ∀ other, GroupStart k other → seq ≤ other →
        seq + (k - (seq - 1) % k) ≤ other := by
      intro other otherAligned ahead
      exact aligned.le_of_lt otherAligned (by omega)
    by_cases fits : seq + (k - (seq - 1) % k) ≤ u32Max
    · rw [if_pos fits]
      exact ⟨fun _ => ⟨aligned, by omega, least⟩, by omega⟩
    · rw [if_neg fits]
      refine ⟨fun absurd => by omega, fun _ other otherAligned ahead => ?_⟩
      have := least other otherAligned ahead
      omega

end

end Boundaries

section History

def controls (writes : List Write) : List FecModeControl := writes.filterMap Write.control

/-- `start` lies in no interval from a SUSPEND boundary to the following RESUME
boundary, and not behind a SUSPEND that no RESUME follows. -/
def Unsuspended (history : List FecModeControl) (start : Nat) : Prop :=
  ∀ index suspend, history[index]? = some suspend → suspend.op = fecModeSuspend →
    suspend.boundary ≤ start →
    ∃ resume, history[index + 1]? = some resume ∧ resume.boundary ≤ start

def Wide (writes : List Write) (k start : Nat) : Prop :=
  ∀ write ∈ writes, start ≤ write.seq → write.seq < start + k → 2 ≤ write.paths

def groupData (writes : List Write) (k start : Nat) : List Bytes :=
  ((writes.drop (start - 1)).take k).map Write.data

def ExactParity (k : Nat) (ic : Option InnerCipher) (writes : List Write) (start : Nat)
    (record : Bytes) : Prop :=
  ∃ body, IsBody (groupData writes k start) body ∧
    record = parityRecord ic start ((groupData writes k start).map List.length) body

/-- Where the generations stand to a group protected in generation `current`:
every RESUME so far ends at or before the group, and every later control lies
behind it. -/
structure Governed (history : List FecModeControl) (k start current : Nat) : Prop where
  even : current % 2 = 0
  bound : current ≤ history.length
  earlier : ∀ control ∈ history, control.generation ≤ current →
    control.op = fecModeResume → control.boundary ≤ start
  later : ∀ control ∈ history, current < control.generation → start + k ≤ control.boundary

structure Protected (k : Nat) (ic : Option InnerCipher) (writes : List Write) (index : Nat)
    (write : Write) (seqs : List Nat) (record : Bytes) (start : Nat) : Prop where
  aligned : GroupStart k start
  last : start + k = index + 2
  covers : seqs = List.range' start k
  content : ExactParity k ic writes start record
  unsuspended : Unsuspended (controls writes) start
  governed : Governed (controls writes) k start write.generation
  together : ∀ other ∈ writes, start ≤ other.seq → other.seq < start + k →
    other.generation = write.generation

structure Listed (k : Nat) (history : List FecModeControl) : Prop where
  generation : ∀ index control, history[index]? = some control → control.generation = index + 1
  op : ∀ index control, history[index]? = some control →
    control.op = if index % 2 = 0 then fecModeSuspend else fecModeResume
  boundary : ∀ control ∈ history, GroupStart k control.boundary

variable {history : List FecModeControl} {k : Nat}

theorem controls_append (writes : List Write) (write : Write) :
    controls (writes ++ [write]) = controls writes ++ write.control.toList := by
  unfold controls
  rw [List.filterMap_append]
  cases set : write.control with
  | none => simp [set]
  | some control => simp [set]

theorem Unsuspended.append {start : Nat} (free : Unsuspended history start)
    (control : FecModeControl) (behind : control.op = fecModeSuspend → start < control.boundary) :
    Unsuspended (history ++ [control]) start := by
  intro index suspend found op low
  rcases lookup_concat found with old | ⟨_, rfl⟩
  · obtain ⟨resume, next, high⟩ := free index suspend old op low
    have room := (List.getElem?_eq_some_iff.mp next).1
    exact ⟨resume, by rw [List.getElem?_append_left room, next], high⟩
  · have := behind op
    omega

section

variable (listed : Listed k history)

include listed

theorem Listed.unsuspended (even : history.length % 2 = 0) (start : Nat)
    (past : ∀ control ∈ history, control.op = fecModeResume → control.boundary ≤ start) :
    Unsuspended history start := by
  intro index suspend found op low
  have inside := (List.getElem?_eq_some_iff.mp found).1
  have parity : index % 2 = 0 := by
    by_contra odd
    have other := listed.op index suspend found
    rw [if_neg odd, op] at other
    cases other
  obtain ⟨resume, next⟩ : ∃ resume, history[index + 1]? = some resume :=
    ⟨_, List.getElem?_eq_getElem (by omega)⟩
  refine ⟨resume, next, past resume (List.mem_of_getElem? next) ?_⟩
  rw [listed.op (index + 1) resume next, if_neg (by omega)]

theorem Listed.generation_le (control : FecModeControl) (member : control ∈ history) :
    control.generation ≤ history.length := by
  obtain ⟨index, inside, same⟩ := List.mem_iff_getElem.mp member
  have := listed.generation index control (by rw [List.getElem?_eq_getElem inside, same])
  omega

theorem Listed.append (control : FecModeControl)
    (generation : control.generation = history.length + 1)
    (op : control.op = if history.length % 2 = 0 then fecModeSuspend else fecModeResume)
    (boundary : GroupStart k control.boundary) : Listed k (history ++ [control]) := by
  have split : ∀ index other, (history ++ [control])[index]? = some other →
      history[index]? = some other ∨ (index = history.length ∧ other = control) := by
    intro index other found
    exact lookup_concat found
  refine ⟨?_, ?_, ?_⟩
  · intro index other found
    rcases split index other found with old | ⟨rfl, rfl⟩
    · exact listed.generation index other old
    · exact generation
  · intro index other found
    rcases split index other found with old | ⟨rfl, rfl⟩
    · exact listed.op index other old
    · exact op
  · intro other member
    rcases List.mem_append.mp member with old | new
    · exact listed.boundary other old
    · rw [List.mem_singleton.mp new]
      exact boundary

end

end History

section Observation

inductive Observed (mode : FecTxModeState) (paths seq k : Nat) :
    FecTxModeState × Option FecModeControl → Prop where
  | kept (exhausted : 2 ≤ paths → mode.suspended = true → mode.seenMultipath = true →
        fecNextGroupStart seq k = 0) : Observed mode paths seq k (mode, none)
  | seen (wide : 2 ≤ paths) (first : mode.seenMultipath = false) :
      Observed mode paths seq k ({ mode with seenMultipath := true }, none)
  | resumed (wide : 2 ≤ paths) (known : mode.seenMultipath = true) (was : mode.suspended = true)
      (room : fecNextGroupStart seq k ≠ 0) :
      Observed mode paths seq k
        ({ mode with
          generation := nextGeneration mode.generation
          suspended := false
          current := some ⟨nextGeneration mode.generation, fecModeResume, fecNextGroupStart seq k⟩ },
        some ⟨nextGeneration mode.generation, fecModeResume, fecNextGroupStart seq k⟩)
  | suspended (single : paths = 1) (known : mode.seenMultipath = true)
      (was : mode.suspended = false) :
      Observed mode paths seq k
        ({ mode with
          generation := nextGeneration mode.generation
          suspended := true
          current := some ⟨nextGeneration mode.generation, fecModeSuspend, fecGroupStart seq k⟩ },
        some ⟨nextGeneration mode.generation, fecModeSuspend, fecGroupStart seq k⟩)

theorem observe_observed (mode : FecTxModeState) (paths seq k : Nat) :
    Observed mode paths seq k (mode.observe paths seq k) := by
  unfold FecTxModeState.observe
  by_cases wide : paths ≥ 2
  · rw [if_pos wide]
    cases known : mode.seenMultipath with
    | false => exact .seen wide known
    | true =>
      cases was : mode.suspended with
      | false => exact .kept (by simp [was])
      | true =>
        by_cases last : fecNextGroupStart seq k = 0
        · simp only [last]
          exact .kept (fun _ _ _ => last)
        · simp only [Bool.not_true, Bool.false_eq_true, ↓reduceIte, if_neg last]
          rw [← known]
          exact .resumed wide known was last
  · rw [if_neg wide]
    by_cases collapse : paths = 1 ∧ mode.seenMultipath ∧ !mode.suspended
    · rw [if_pos collapse]
      exact .suspended collapse.1 collapse.2.1 (by simpa using collapse.2.2)
    · rw [if_neg collapse]
      exact .kept (fun two => absurd two wide)

theorem setPhysicalPathCount_cases (encoder : FecEncoder) (paths : Nat) :
    (encoder.setPhysicalPathCount paths = encoder ∧ encoder.multipath = decide (2 ≤ paths)) ∨
      ((encoder.setPhysicalPathCount paths).armed = false ∧
        (encoder.setPhysicalPathCount paths).multipath = decide (2 ≤ paths) ∧
        encoder.multipath ≠ decide (2 ≤ paths)) := by
  simp only [FecEncoder.setPhysicalPathCount]
  by_cases same : decide (paths ≥ 2) = encoder.multipath
  · rw [if_pos same]
    exact Or.inl ⟨rfl, same.symm⟩
  · rw [if_neg same]
    right
    cases wide : decide (paths ≥ 2) with
    | false =>
      rw [if_pos (by simp)]
      exact ⟨rfl, rfl, fun equal => same (by rw [wide]; exact equal.symm)⟩
    | true =>
      rw [if_neg (by simp)]
      exact ⟨rfl, rfl, fun equal => same (by rw [wide]; exact equal.symm)⟩

end Observation

section Simulation

variable {k : Nat} {ic : Option InnerCipher}

structure ModeTracks (k last : Nat) (mode : FecTxModeState) (history : List FecModeControl) :
    Prop where
  count : mode.generation = history.length
  few : history.length ≤ last
  current : currentGeneration mode = history.length
  open_ : mode.suspended = true ↔ history.length % 2 = 1
  known : mode.suspended = true → mode.seenMultipath = true
  listed : Listed k history
  resumes : ∀ control ∈ history, control.op = fecModeResume →
    ∀ start, GroupStart k start → last < start → control.boundary ≤ start

variable {last : Nat} {mode : FecTxModeState} {history : List FecModeControl}
  {result : FecTxModeState × Option FecModeControl} {writes : List Write}

theorem nextGeneration_small (generation : Nat) (small : generation ≤ u32Max) :
    nextGeneration generation = generation + 1 := by
  unfold nextGeneration saturatingAdd
  unfold u32Max at small
  unfold u64Max
  omega

theorem ModeTracks.observe {paths : Nat} (tracks : ModeTracks k last mode history) (atLeast : 2 ≤ k)
    (atMost : k ≤ 64) (room : last < u32Max) (observed : Observed mode paths (last + 1) k result) :
    ModeTracks k (last + 1) result.1 (history ++ result.2.toList) := by
  have count := tracks.count
  have few := tracks.few
  have generation := nextGeneration_small mode.generation (by omega)
  have resumes : ∀ control ∈ history, control.op = fecModeResume →
      ∀ start, GroupStart k start → last + 1 < start → control.boundary ≤ start :=
    fun control member op start aligned ahead => tracks.resumes control member op start aligned
      (by omega)
  cases observed with
  | kept exhausted =>
    simp only [Option.toList_none, List.append_nil]
    exact ⟨count, by omega, tracks.current, tracks.open_, tracks.known, tracks.listed, resumes⟩
  | seen wide first =>
    simp only [Option.toList_none, List.append_nil]
    exact ⟨count, by omega, tracks.current, tracks.open_, fun _ => rfl, tracks.listed, resumes⟩
  | resumed wide known was left =>
    have odd := tracks.open_.mp was
    obtain ⟨boundary, _, least⟩ :=
      (fecNextGroupStart_spec (last + 1) atLeast atMost (by omega)).1 left
    rw [generation]
    refine ⟨?_, ?_, ?_, ?_, ?_, ?_, ?_⟩
    · simp [count]
    · simp only [Option.toList_some, List.length_append, List.length_singleton]
      omega
    · simp [currentGeneration, count]
    · simp only [Option.toList_some, List.length_append, List.length_singleton, Bool.false_eq_true,
        false_iff]
      omega
    · intro open_
      cases open_
    · exact tracks.listed.append _ (by simp [count]) (by simp [odd]) boundary
    · intro control member op start aligned ahead
      rcases List.mem_append.mp member with old | new
      · exact resumes control old op start aligned ahead
      · -- the new boundary is the least group start ahead
        simp only [Option.toList_some, List.mem_singleton] at new
        subst control
        exact least start aligned (by omega)
  | suspended single known was =>
    -- no SUSPEND is open, so this one comes at an even place
    have even : history.length % 2 = 0 := by
      by_contra odd
      have open_ := tracks.open_.mpr (by omega)
      rw [was] at open_
      cases open_
    obtain ⟨boundary, _, _⟩ := fecGroupStart_spec (last + 1) atLeast atMost (by omega)
    rw [generation]
    refine ⟨?_, ?_, ?_, ?_, ?_, ?_, ?_⟩
    · simp [count]
    · simp only [Option.toList_some, List.length_append, List.length_singleton]
      omega
    · simp [currentGeneration, count]
    · simp only [Option.toList_some, List.length_append, List.length_singleton, true_iff]
      omega
    · intro _
      exact known
    · exact tracks.listed.append _ (by simp [count]) (by simp [even]) boundary
    · intro control member op start aligned ahead
      rcases List.mem_append.mp member with old | new
      · exact resumes control old op start aligned ahead
      · simp only [Option.toList_some, List.mem_singleton] at new
        subst control
        cases op

/-- The simulation between the two state machines. `members` is the encoder's
open group. The encoder is armed only while no SUSPEND is open and behind every
RESUME; while one is open it stays disarmed, because it is single-path or the
space has no group start left. -/
structure Simulates (k : Nat) (ic : Option InnerCipher) (sender : Sender) (members : Delivered) :
    Prop where
  placed : Placed k sender.encoder members sender.txSeq
  cipher : sender.encoder.ic = ic
  bounded : sender.txSeq ≤ u32Max
  numbers : sender.writes.map Write.seq = List.range' 1 sender.txSeq
  data : members.map Prod.snd =
    (sender.writes.drop (sender.txSeq - members.length)).map Write.data
  tracks : ModeTracks k sender.txSeq sender.mode (controls sender.writes)
  quiet : sender.mode.suspended = true → sender.encoder.armed = false ∧
    (sender.encoder.multipath = true →
      ∀ start, GroupStart k start → sender.txSeq < start → u32Max < start)
  armed : sender.encoder.armed = true → sender.mode.suspended = false ∧
    (∀ control ∈ controls sender.writes, control.op = fecModeResume →
      control.boundary ≤ sender.txSeq + 1 - members.length) ∧
    ∀ write ∈ sender.writes, sender.txSeq + 1 - members.length ≤ write.seq →
      write.generation = (controls sender.writes).length
  protects : ∀ index write seqs record, sender.writes[index]? = some write →
    write.parity = some (seqs, record) →
    ∃ start, Protected k ic sender.writes index write seqs record start
  filling : ∀ start, GroupStart k start → start ≤ sender.txSeq → sender.txSeq + 1 < start + k →
    Wide sender.writes k start → sender.encoder.multipath = true ∧ sender.encoder.armed = true ∧
      members.length = sender.txSeq + 1 - start
  complete : ∀ start, GroupStart k start → start + k ≤ sender.txSeq + 1 →
    Wide sender.writes k start → ∃ write record, sender.writes[start + k - 2]? = some write ∧
      write.parity = some (List.range' start k, record)

theorem new_simulates (atLeast : 2 ≤ k) (atMost : k ≤ 64) :
    Simulates k ic (Sender.new k ic) [] := by
  refine ⟨new_placed atLeast atMost, rfl, Nat.zero_le _, rfl, rfl, ?_, ?_, ?_, ?_, ?_, ?_⟩
  · refine ⟨rfl, Nat.le_refl _, rfl, by simp [Sender.new, FecTxModeState.default, controls], ?_,
      ⟨?_, ?_, ?_⟩, ?_⟩
    · intro open_
      cases open_
    all_goals simp [Sender.new, controls]
  · intro open_
    cases open_
  · intro _
    simp [Sender.new, FecTxModeState.default, controls]
  · intro index write seqs record found
    simp [Sender.new] at found
  · intro start aligned low
    have positive := aligned.1
    change start ≤ 0 at low
    omega
  · intro start aligned low
    have positive := aligned.1
    change start + k ≤ 0 + 1 at low
    omega

variable {sender : Sender} {members : Delivered}

section

variable (sim : Simulates k ic sender members)

include sim

theorem Simulates.length : sender.writes.length = sender.txSeq := by
  have count := congrArg List.length sim.numbers
  simpa using count

theorem Simulates.seq_bounds (write : Write) (member : write ∈ sender.writes) :
    1 ≤ write.seq ∧ write.seq ≤ sender.txSeq := by
  have inside : write.seq ∈ List.range' 1 sender.txSeq := by
    rw [← sim.numbers]
    exact List.mem_map.mpr ⟨write, member, rfl⟩
  rw [List.mem_range'_1] at inside
  omega

theorem Simulates.observed (paths : Nat) :
    ∃ kept, Placed k (sender.encoder.setPhysicalPathCount paths) kept sender.txSeq ∧
      (sender.encoder.setPhysicalPathCount paths).multipath = decide (2 ≤ paths) ∧
      ((sender.encoder.setPhysicalPathCount paths).armed = true → kept = members ∧
        sender.encoder.armed = true) ∧
      ((sender.encoder.setPhysicalPathCount paths).armed = false → kept = []) ∧
      (sender.encoder.armed = true → sender.encoder.multipath = decide (2 ≤ paths) →
        (sender.encoder.setPhysicalPathCount paths).armed = true) := by
  rcases setPhysicalPathCount_cases sender.encoder paths with ⟨same, wide⟩ | ⟨off, wide, differs⟩
  · rw [same]
    exact ⟨members, sim.placed, wide, fun armed => ⟨rfl, armed⟩, sim.placed.idle,
      fun armed _ => armed⟩
  · obtain ⟨kept, _, placed⟩ := sim.placed.paths paths
    refine ⟨kept, placed, wide, ?_, placed.idle, fun _ same => absurd same differs⟩
    intro armed
    rw [off] at armed
    cases armed

/-- A number the encoder takes into a group comes with no SUSPEND open and lies
behind every RESUME, the one it caused itself included. -/
theorem Simulates.opened (atLeast : 2 ≤ k) (atMost : k ≤ 64) (room : sender.txSeq < u32Max)
    {paths : Nat} {kept : Delivered}
    (observed : Observed sender.mode paths (sender.txSeq + 1) k result)
    (size : (sender.encoder.setPhysicalPathCount paths).k = k)
    (wide : (sender.encoder.setPhysicalPathCount paths).multipath = decide (2 ≤ paths))
    (armed : (sender.encoder.setPhysicalPathCount paths).armed = true → kept = members ∧
      sender.encoder.armed = true)
    (idle : (sender.encoder.setPhysicalPathCount paths).armed = false → kept = [])
    (opens : Opens (sender.encoder.setPhysicalPathCount paths) (sender.txSeq + 1)) :
    2 ≤ paths ∧ result.1.suspended = false ∧
      (∀ control ∈ controls sender.writes ++ result.2.toList, control.op = fecModeResume →
        control.boundary ≤ sender.txSeq + 1 - kept.length) ∧
      ((sender.encoder.setPhysicalPathCount paths).armed = true → result.2 = none) := by
  have two : 2 ≤ paths := by
    have set := opens.1
    rw [wide] at set
    simpa using set
  refine ⟨two, ?_⟩
  cases was : (sender.encoder.setPhysicalPathCount paths).armed with
  | true =>
    obtain ⟨rfl, before⟩ := armed was
    obtain ⟨free, past, _⟩ := sim.armed before
    cases observed with
    | kept exhausted => exact ⟨free, by simpa using past, fun _ => rfl⟩
    | seen _ first => exact ⟨free, by simpa using past, fun _ => rfl⟩
    | resumed _ known open_ left =>
      rw [free] at open_
      cases open_
    | suspended single known closed => omega
  | false =>
    have empty := idle was
    subst empty
    have aligned : GroupStart k (sender.txSeq + 1) := by
      rcases opens.2 with set | ⟨_, boundary⟩
      · rw [was] at set
        cases set
      · rw [size] at boundary
        exact ⟨by omega, boundary⟩
    have past : ∀ control ∈ controls sender.writes, control.op = fecModeResume →
        control.boundary ≤ sender.txSeq + 1 :=
      fun control member op => sim.tracks.resumes control member op _ aligned (by omega)
    cases observed with
    | kept exhausted =>
      refine ⟨?_, by simpa using past, fun set => by cases set⟩
      cases open_ : sender.mode.suspended with
      | false => rfl
      | true =>
        -- this number is a group start, so the space has one left
        have none := exhausted two open_ (sim.tracks.known open_)
        have beyond := (fecNextGroupStart_spec (sender.txSeq + 1) atLeast atMost
          (by omega)).2 none _ aligned (Nat.le_refl _)
        omega
    | seen _ first =>
      refine ⟨?_, by simpa using past, fun set => by cases set⟩
      cases open_ : sender.mode.suspended with
      | false => rfl
      | true =>
        have known := sim.tracks.known open_
        rw [first] at known
        cases known
    | resumed _ known open_ left =>
      refine ⟨rfl, ?_, fun set => by cases set⟩
      intro control member op
      rcases List.mem_append.mp member with old | new
      · exact past control old op
      · simp only [Option.toList_some, List.mem_singleton] at new
        subst control
        exact ((fecNextGroupStart_spec (sender.txSeq + 1) atLeast atMost (by omega)).1 left).2.2 _
          aligned (Nat.le_refl _)
    | suspended single known closed => omega

end

theorem groupData_append (writes : List Write) (write : Write) (start : Nat)
    (inside : start - 1 + k ≤ writes.length) :
    groupData (writes ++ [write]) k start = groupData writes k start := by
  unfold groupData
  rw [List.drop_append_of_le_length (by omega), List.take_append_of_le_length (by simp; omega)]

theorem Protected.append {index : Nat} {write : Write} {seqs : List Nat} {record : Bytes}
    {start : Nat} (given : Protected k ic writes index write seqs record start) (atLeast : 2 ≤ k)
    (next : Write) (inside : index < writes.length) (number : writes.length < next.seq)
    (behind : ∀ control, next.control = some control →
      start + k ≤ control.boundary ∧ (controls writes).length < control.generation) :
    Protected k ic (writes ++ [next]) index write seqs record start := by
  have last := given.last
  have positive := given.aligned.1
  have bound := given.governed.bound
  have data : groupData (writes ++ [next]) k start = groupData writes k start :=
    groupData_append writes next start (by omega)
  refine ⟨given.aligned, last, given.covers, ?_, ?_, ?_, ?_⟩
  · obtain ⟨body, isBody, same⟩ := given.content
    exact ⟨body, by rw [data]; exact isBody, by rw [data]; exact same⟩
  · rw [controls_append]
    cases set : next.control with
    | none => simpa using given.unsuspended
    | some control =>
      have ahead := (behind control set).1
      exact given.unsuspended.append control fun _ => by omega
  · have member : ∀ control ∈ controls (writes ++ [next]), control ∈ controls writes ∨
        next.control = some control := by
      intro control present
      rw [controls_append, List.mem_append] at present
      rcases present with old | new
      · exact Or.inl old
      · exact Or.inr (by simpa using new)
    refine ⟨given.governed.even, ?_, ?_, ?_⟩
    · rw [controls_append, List.length_append]
      omega
    · intro control present generation op
      rcases member control present with old | new
      · exact given.governed.earlier control old generation op
      · have := (behind control new).2
        omega
    · intro control present generation
      rcases member control present with old | new
      · exact given.governed.later control old generation
      · exact (behind control new).1
  · intro other present low high
    rcases List.mem_append.mp present with old | new
    · exact given.together other old low high
    · rw [List.mem_singleton.mp new] at high
      omega

theorem observed_behind {paths : Nat} (tracks : ModeTracks k last mode history) (atLeast : 2 ≤ k)
    (atMost : k ≤ 64) (room : last < u32Max) (observed : Observed mode paths (last + 1) k result)
    (start : Nat) (aligned : GroupStart k start) (done : start + k ≤ last + 1)
    (control : FecModeControl) (published : result.2 = some control) :
    start + k ≤ control.boundary ∧ history.length < control.generation := by
  have count := tracks.count
  have few := tracks.few
  have newer : history.length < nextGeneration mode.generation := by
    rw [nextGeneration_small mode.generation (by omega)]
    omega
  cases observed with
  | kept exhausted => cases published
  | seen wide first => cases published
  | resumed wide known was left =>
    cases published
    have spec := (fecNextGroupStart_spec (last + 1) atLeast atMost (by omega)).1 left
    exact ⟨Nat.le_trans done spec.2.1, newer⟩
  | suspended single known was =>
    cases published
    obtain ⟨boundary, low, high⟩ := fecGroupStart_spec (last + 1) atLeast atMost (by omega)
    have ahead : start < fecGroupStart (last + 1) k := by omega
    exact ⟨aligned.next boundary ahead, newer⟩

theorem wide_append {write : Write} {start : Nat} (wide : Wide (writes ++ [write]) k start) :
    Wide writes k start :=
  fun other member => wide other (List.mem_append_left _ member)

theorem Simulates.extend (sim : Simulates k ic sender members) (atLeast : 2 ≤ k) (write : Write)
    (encoder : FecEncoder) (mode : FecTxModeState) (kept : Delivered)
    (room : sender.txSeq < u32Max) (number : write.seq = sender.txSeq + 1)
    (placed : Placed k encoder kept (sender.txSeq + 1)) (cipher : encoder.ic = ic)
    (data : kept.map Prod.snd =
      ((sender.writes ++ [write]).drop (sender.txSeq + 1 - kept.length)).map Write.data)
    (tracks : ModeTracks k (sender.txSeq + 1) mode (controls (sender.writes ++ [write])))
    (behind : ∀ start, GroupStart k start → start + k ≤ sender.txSeq + 1 →
      ∀ control, write.control = some control →
        start + k ≤ control.boundary ∧ (controls sender.writes).length < control.generation)
    (quiet : mode.suspended = true → encoder.armed = false ∧
      (encoder.multipath = true →
        ∀ start, GroupStart k start → sender.txSeq + 1 < start → u32Max < start))
    (armed : encoder.armed = true → mode.suspended = false ∧
      (∀ control ∈ controls (sender.writes ++ [write]), control.op = fecModeResume →
        control.boundary ≤ sender.txSeq + 1 + 1 - kept.length) ∧
      ∀ other ∈ sender.writes ++ [write], sender.txSeq + 1 + 1 - kept.length ≤ other.seq →
        other.generation = (controls (sender.writes ++ [write])).length)
    (fresh : ∀ seqs record, write.parity = some (seqs, record) →
      ∃ start, Protected k ic (sender.writes ++ [write]) sender.txSeq write seqs record start)
    (filling : ∀ start, GroupStart k start → start ≤ sender.txSeq + 1 →
      sender.txSeq + 1 + 1 < start + k → Wide (sender.writes ++ [write]) k start →
      encoder.multipath = true ∧ encoder.armed = true ∧
        kept.length = sender.txSeq + 1 + 1 - start)
    (closes : ∀ start, GroupStart k start → start + k = sender.txSeq + 2 →
      Wide (sender.writes ++ [write]) k start →
      ∃ record, write.parity = some (List.range' start k, record)) :
    Simulates k ic ⟨sender.txSeq + 1, encoder, mode, sender.writes ++ [write]⟩ kept := by
  have length := sim.length
  refine ⟨placed, cipher, by change sender.txSeq + 1 ≤ u32Max; omega, ?_, data, tracks, quiet, armed,
    ?_, filling, ?_⟩
  · change (sender.writes ++ [write]).map Write.seq = List.range' 1 (sender.txSeq + 1)
    rw [List.map_append, sim.numbers, List.range'_1_concat, List.map_singleton, number,
      Nat.add_comm 1 sender.txSeq]
  · intro index other seqs record found parity
    rcases lookup_concat found with old | ⟨here, rfl⟩
    · have inside := (List.getElem?_eq_some_iff.mp old).1
      obtain ⟨start, given⟩ := sim.protects index other seqs record old parity
      have last := given.last
      exact ⟨start, given.append atLeast write inside (by omega)
        (behind start given.aligned (by omega))⟩
    · rw [here, length]
      exact fresh seqs record parity
  · intro start aligned done wide
    change start + k ≤ sender.txSeq + 1 + 1 at done
    change ∃ other record, (sender.writes ++ [write])[start + k - 2]? = some other ∧ _
    rcases Nat.lt_or_ge (start + k) (sender.txSeq + 2) with earlier | now
    · obtain ⟨other, record, found, parity⟩ :=
        sim.complete start aligned (by omega) (wide_append wide)
      have inside := (List.getElem?_eq_some_iff.mp found).1
      exact ⟨other, record, by rw [List.getElem?_append_left inside, found], parity⟩
    · obtain ⟨record, parity⟩ := closes start aligned (by omega) wide
      refine ⟨write, record, ?_, parity⟩
      rw [List.getElem?_append_right (by omega), length,
        show start + k - 2 - sender.txSeq = 0 by omega]
      rfl

theorem Observed.exhausted {paths : Nat} (observed : Observed mode paths (last + 1) k result)
    (tracks : ModeTracks k last mode history) (atLeast : 2 ≤ k) (atMost : k ≤ 64) (wide : 2 ≤ paths)
    (open_ : result.1.suspended = true) (start : Nat) (aligned : GroupStart k start)
    (ahead : last < start) : u32Max < start := by
  cases observed with
  | kept exhausted =>
    exact (fecNextGroupStart_spec (last + 1) atLeast atMost (by omega)).2
      (exhausted wide open_ (tracks.known open_)) start aligned (by omega)
  | seen _ first =>
    have known := tracks.known open_
    rw [first] at known
    cases known
  | resumed _ known was left => cases open_
  | suspended single known was => omega

theorem placed_start_unique {encoder : FecEncoder} {members : Delivered}
    (placed : Placed k encoder members last) (start : (last - members.length) % k = 0)
    (aligned : GroupStart k (last + 1)) : members.length = 0 := by
  have short := placed.short
  have enough := placed.enough
  have base : GroupStart k (last - members.length + 1) := ⟨by omega, start⟩
  have := aligned.le_of_lt base (by omega)
  omega

structure Facing (k : Nat) (ic : Option InnerCipher) (sender : Sender) (members : Delivered)
    (paths : Nat) (encoder : FecEncoder) (mode : FecTxModeState × Option FecModeControl)
    (shared : Delivered) : Prop where
  placed : Placed k encoder shared sender.txSeq
  cipher : encoder.ic = ic
  multipath : encoder.multipath = decide (2 ≤ paths)
  armed : encoder.armed = true → shared = members ∧ sender.encoder.armed = true
  idle : encoder.armed = false → shared = []
  tracks : ModeTracks k (sender.txSeq + 1) mode.1 (controls sender.writes ++ mode.2.toList)
  behind : ∀ start, GroupStart k start → start + k ≤ sender.txSeq + 1 →
    ∀ control, mode.2 = some control →
      start + k ≤ control.boundary ∧ (controls sender.writes).length < control.generation
  exhausted : 2 ≤ paths → mode.1.suspended = true →
    ∀ start, GroupStart k start → sender.txSeq < start → u32Max < start
  opened : Opens encoder (sender.txSeq + 1) → 2 ≤ paths ∧ mode.1.suspended = false ∧
    (∀ control ∈ controls sender.writes ++ mode.2.toList, control.op = fecModeResume →
      control.boundary ≤ sender.txSeq + 1 - shared.length) ∧
    (encoder.armed = true → mode.2 = none)
  grown : 2 ≤ paths → ∀ start, GroupStart k start → start ≤ sender.txSeq →
    sender.txSeq + 1 < start + k → Wide sender.writes k start →
    encoder.armed = true ∧ shared.length = sender.txSeq + 1 - start

theorem Simulates.facing (sim : Simulates k ic sender members) (atLeast : 2 ≤ k) (atMost : k ≤ 64)
    (room : sender.txSeq < u32Max) (paths : Nat) :
    ∃ shared, Facing k ic sender members paths (sender.encoder.setPhysicalPathCount paths)
      (sender.mode.observe paths (sender.txSeq + 1) k) shared := by
  obtain ⟨shared, placed, multipath, armed, idle, stays⟩ := sim.observed paths
  have observed := observe_observed sender.mode paths (sender.txSeq + 1) k
  refine ⟨shared, placed, (setPhysicalPathCount_fixed sender.encoder paths).2.trans sim.cipher,
    multipath, armed, idle, sim.tracks.observe atLeast atMost room observed,
    observed_behind sim.tracks atLeast atMost room observed,
    observed.exhausted sim.tracks atLeast atMost,
    sim.opened atLeast atMost room observed placed.size multipath armed idle, ?_⟩
  -- a group that was wide so far found the encoder armed, and still does
  intro wide start aligned low high writes
  obtain ⟨before, was, count⟩ := sim.filling start aligned low high writes
  have still := stays was (by rw [before]; simp [wide])
  rw [(armed still).1]
  exact ⟨still, count⟩

section Dispatch

variable {paths : Nat} {encoder : FecEncoder} {mode : FecTxModeState × Option FecModeControl}
  {shared : Delivered} {data : Bytes}

abbrev nextWrite (sender : Sender) (paths : Nat) (data : Bytes)
    (mode : FecTxModeState × Option FecModeControl) (parity : Option (List Nat × Bytes)) : Write :=
  ⟨sender.txSeq + 1, paths, data, mode.2, currentGeneration mode.1, parity⟩

variable {parity : Option (List Nat × Bytes)}
variable {start : Nat} {after : FecEncoder} {body : Bytes}

theorem wide_last (wide : Wide (sender.writes ++ [nextWrite sender paths data mode parity]) k start)
    (low : start ≤ sender.txSeq + 1) (high : sender.txSeq + 1 < start + k) : 2 ≤ paths :=
  wide _ (List.mem_append_right _ (List.mem_singleton_self _)) low high

section

variable (facing : Facing k ic sender members paths encoder mode shared)

include facing

theorem Facing.writes_tracked :
    ModeTracks k (sender.txSeq + 1) mode.1
      (controls (sender.writes ++ [nextWrite sender paths data mode parity])) := by
  rw [controls_append]
  exact facing.tracks

theorem Facing.members_data (sim : Simulates k ic sender members) :
    shared.map Prod.snd =
      (sender.writes.drop (sender.txSeq - shared.length)).map Write.data := by
  cases was : encoder.armed with
  | true =>
    rw [(facing.armed was).1]
    exact sim.data
  | false =>
    rw [facing.idle was]
    simp [← sim.length]

theorem Facing.generations (sim : Simulates k ic sender members)
    (unchanged : encoder.armed = true → mode.2 = none) :
    ∀ other ∈ sender.writes ++ [nextWrite sender paths data mode parity],
      sender.txSeq + 1 - shared.length ≤ other.seq → other.generation =
        (controls (sender.writes ++ [nextWrite sender paths data mode parity])).length := by
  intro other member low
  rw [controls_append]
  dsimp only
  rcases List.mem_append.mp member with old | new
  · have bounds := sim.seq_bounds other old
    cases was : encoder.armed with
    | true =>
      obtain ⟨rfl, before⟩ := facing.armed was
      rw [unchanged was, Option.toList_none, List.append_nil]
      exact (sim.armed before).2.2 other old low
    | false =>
      rw [facing.idle was, List.length_nil] at low
      omega
  · rw [List.mem_singleton.mp new]
    exact facing.tracks.current

theorem Facing.counted (wideNow : 2 ≤ paths) (begun : (sender.txSeq - shared.length) % k = 0)
    (aligned : GroupStart k start) (low : start ≤ sender.txSeq + 1)
    (high : sender.txSeq + 1 < start + k)
    (wide : Wide (sender.writes ++ [nextWrite sender paths data mode parity]) k start) :
    shared.length = sender.txSeq + 1 - start := by
  rcases Nat.eq_or_lt_of_le low with here | earlier
  · subst start
    have := placed_start_unique facing.placed begun aligned
    omega
  · exact (facing.grown wideNow start aligned (by omega) (by omega) (wide_append wide)).2

section

variable (sim : Simulates k ic sender members)

include sim

theorem Facing.ignored (atLeast : 2 ≤ k) (room : sender.txSeq < u32Max)
    (shut : ¬ Opens encoder (sender.txSeq + 1)) (disarmed : encoder.armed = false)
    (after : Placed k encoder [] (sender.txSeq + 1)) :
    Simulates k ic ⟨sender.txSeq + 1, encoder, mode.1,
      sender.writes ++ [nextWrite sender paths data mode none]⟩ [] := by
  have unarmed : encoder.armed ≠ true := by
    rw [disarmed]
    exact Bool.false_ne_true
  refine sim.extend atLeast _ _ _ _ room rfl after facing.cipher ?_ facing.writes_tracked
    facing.behind ?_ (fun set => absurd set unarmed) ?_ ?_ ?_
  · simp [← sim.length]
  · intro open_
    refine ⟨disarmed, fun wide start aligned ahead => ?_⟩
    rw [facing.multipath, decide_eq_true_eq] at wide
    exact facing.exhausted wide open_ start aligned (by omega)
  · intro seqs record parity
    cases parity
  · intro start aligned low high wide
    have wideNow := wide_last wide low (by omega)
    exfalso
    rcases Nat.eq_or_lt_of_le low with here | earlier
    · subst start
      apply shut
      refine ⟨by rw [facing.multipath]; simpa using wideNow, Or.inr ⟨by omega, ?_⟩⟩
      rw [facing.placed.size]
      exact aligned.2
    · exact unarmed (facing.grown wideNow start aligned (by omega) (by omega)
        (wide_append wide)).1
  · intro start aligned done wide
    have wideNow := wide_last wide (by omega) (by omega)
    exact absurd (facing.grown wideNow start aligned (by omega) (by omega) (wide_append wide)).1
      unarmed

theorem Facing.taken (atLeast : 2 ≤ k) (room : sender.txSeq < u32Max)
    (opens : Opens encoder (sender.txSeq + 1)) (same : Kept encoder after)
    (begun : (sender.txSeq - shared.length) % k = 0)
    (stay : Placed k after (shared ++ [(sender.txSeq + 1, data)]) (sender.txSeq + 1)) :
    Simulates k ic ⟨sender.txSeq + 1, after, mode.1,
      sender.writes ++ [nextWrite sender paths data mode none]⟩
      (shared ++ [(sender.txSeq + 1, data)]) := by
  obtain ⟨wideNow, free, past, unchanged⟩ := facing.opened opens
  have length := sim.length
  have enough := facing.placed.enough
  have count : (shared ++ [(sender.txSeq + 1, data)]).length = shared.length + 1 := by simp
  have short := stay.short
  rw [count] at short
  refine sim.extend atLeast _ _ _ _ room rfl stay (same.ic.trans facing.cipher)
    ?_ facing.writes_tracked facing.behind ?_ ?_ ?_ ?_ ?_
  · rw [count, show sender.txSeq + 1 - (shared.length + 1) = sender.txSeq - shared.length by omega,
      List.drop_append_of_le_length (by omega), List.map_append, List.map_append, facing.members_data sim]
    rfl
  · intro open_
    rw [free] at open_
    cases open_
  · intro _
    rw [count, show sender.txSeq + 1 + 1 - (shared.length + 1) = sender.txSeq + 1 - shared.length
      by omega]
    refine ⟨free, ?_, facing.generations sim unchanged⟩
    rw [controls_append]
    exact past
  · intro seqs record parity
    cases parity
  · intro start aligned low high wide
    refine ⟨same.multipath, same.armed, ?_⟩
    rw [count]
    have := facing.counted wideNow begun aligned low (by omega) wide
    omega
  · intro start aligned done wide
    have := facing.counted wideNow begun aligned (by omega) (by omega) wide
    omega

theorem Facing.protected (opens : Opens encoder (sender.txSeq + 1))
    (begun : (sender.txSeq - shared.length) % k = 0) (whole : shared.length + 1 = k)
    (isBody : IsBody ((shared ++ [(sender.txSeq + 1, data)]).map Prod.snd) body) {seqs : List Nat}
    (numbers : seqs = List.range' (sender.txSeq + 1 - shared.length) k) :
    Protected k ic (sender.writes ++ [nextWrite sender paths data mode parity]) sender.txSeq
      (nextWrite sender paths data mode parity) seqs
      (parityRecord encoder.ic (sender.txSeq + 1 - shared.length)
        ((shared ++ [(sender.txSeq + 1, data)]).map fun member => member.2.length) body)
      (sender.txSeq + 1 - shared.length) := by
  obtain ⟨_, free, past, unchanged⟩ := facing.opened opens
  have length := sim.length
  have enough := facing.placed.enough
  have group : groupData (sender.writes ++ [nextWrite sender paths data mode parity]) k
      (sender.txSeq + 1 - shared.length) =
        (shared ++ [(sender.txSeq + 1, data)]).map Prod.snd := by
    unfold groupData
    rw [show sender.txSeq + 1 - shared.length - 1 = sender.txSeq - shared.length by omega,
      List.drop_append_of_le_length (by omega), List.take_of_length_le (by simp; omega),
      List.map_append, List.map_append, facing.members_data sim, List.map_singleton]
    rfl
  have even : (controls sender.writes ++ mode.2.toList).length % 2 = 0 := by
    by_contra odd
    have open_ := facing.tracks.open_.mpr (by omega)
    rw [free] at open_
    cases open_
  refine ⟨⟨by omega, ?_⟩, by omega, numbers, ?_, ?_, ?_, ?_⟩
  · rw [show sender.txSeq + 1 - shared.length - 1 = sender.txSeq - shared.length by omega]
    exact begun
  · refine ⟨body, by rw [group]; exact isBody, ?_⟩
    rw [group, List.map_map, facing.cipher]
    rfl
  · rw [controls_append]
    exact facing.tracks.listed.unsuspended even _ past
  · rw [controls_append]
    change Governed _ k _ (currentGeneration mode.1)
    rw [facing.tracks.current]
    refine ⟨even, Nat.le_refl _, fun control member _ op => past control member op, ?_⟩
    intro control member newer
    have := facing.tracks.listed.generation_le control member
    omega
  · intro other member low _
    rw [facing.generations sim unchanged other member low, controls_append]
    exact facing.tracks.current.symm

theorem Facing.closed (atLeast : 2 ≤ k) (room : sender.txSeq < u32Max)
    (opens : Opens encoder (sender.txSeq + 1)) (same : Kept encoder after)
    (begun : (sender.txSeq - shared.length) % k = 0) (whole : shared.length + 1 = k)
    (stay : Placed k after [] (sender.txSeq + 1))
    (isBody : IsBody ((shared ++ [(sender.txSeq + 1, data)]).map Prod.snd) body) :
    Simulates k ic ⟨sender.txSeq + 1, after, mode.1,
      sender.writes ++ [nextWrite sender paths data mode
        (some (encoder.seqs ++ [sender.txSeq + 1], parityRecord encoder.ic
          (sender.txSeq + 1 - shared.length)
          ((shared ++ [(sender.txSeq + 1, data)]).map fun member => member.2.length) body))]⟩
      [] := by
  obtain ⟨wideNow, free, past, _⟩ := facing.opened opens
  have length := sim.length
  have enough := facing.placed.enough
  have numbers : encoder.seqs ++ [sender.txSeq + 1] =
      List.range' (sender.txSeq + 1 - shared.length) k := by
    have joined := facing.placed.joined data
    rw [List.map_append, ← facing.placed.holds.seqs, whole] at joined
    exact joined
  refine sim.extend atLeast _ _ _ _ room rfl stay (same.ic.trans facing.cipher)
    ?_ facing.writes_tracked facing.behind ?_ ?_ ?_ ?_ ?_
  · simp [← length]
  · intro open_
    rw [free] at open_
    cases open_
  · intro _
    rw [List.length_nil, Nat.sub_zero]
    refine ⟨free, ?_, ?_⟩
    · rw [controls_append]
      intro control member op
      have := past control member op
      omega
    · -- no write is numbered past this one
      intro other member low
      rcases List.mem_append.mp member with old | new
      · have := sim.seq_bounds other old
        omega
      · rw [List.mem_singleton.mp new] at low
        simp at low
  · intro seqs record parity
    cases parity
    exact ⟨_, facing.protected sim opens begun whole isBody numbers⟩
  · intro start aligned low high wide
    have := facing.counted wideNow begun aligned low (by omega) wide
    omega
  · intro start aligned done wide
    have := facing.counted wideNow begun aligned (by omega) (by omega) wide
    rw [numbers, show sender.txSeq + 1 - shared.length = start by omega]
    exact ⟨_, rfl⟩

end

end

end Dispatch

section

variable (sim : Simulates k ic sender members) (atLeast : 2 ≤ k) (atMost : k ≤ 64)

include sim atLeast atMost

theorem Simulates.dispatch (paths : Nat) (data : Bytes) (nonempty : data ≠ [])
    (room : sender.txSeq < u32Max) :
    ∃ kept, Simulates k ic (sender.dispatch (sender.txSeq + 1) paths data) kept := by
  obtain ⟨shared, facing⟩ := sim.facing atLeast atMost room paths
  obtain ⟨kept, fed⟩ := facing.placed.feed data nonempty
  simp only [Sender.dispatch, facing.placed.size]
  generalize sender.mode.observe paths (sender.txSeq + 1) k = mode at *
  generalize sender.encoder.setPhysicalPathCount paths = encoder at *
  generalize encoder.add (sender.txSeq + 1) data = result at fed
  cases fed with
  | ignored shut disarmed after =>
    rw [ite_self]
    exact ⟨[], facing.ignored sim atLeast room shut disarmed after⟩
  | taken after opens same begun stay =>
    rw [ite_self]
    exact ⟨_, facing.taken sim atLeast room opens same begun stay⟩
  | closed after body opens same begun whole stay isBody =>
    have narrow : ¬ paths < 2 := Nat.not_lt.mpr (facing.opened opens).1
    rw [if_neg narrow]
    exact ⟨[], facing.closed sim atLeast room opens same begun whole stay isBody⟩

theorem Simulates.writePayload (call : Call) :
    ∃ kept, Simulates k ic (sender.writePayload call) kept := by
  have bounded := sim.bounded
  unfold Sender.writePayload
  split
  · exact ⟨members, sim⟩
  · split
    · exact ⟨members, sim⟩
    · split
      · exact ⟨members, sim⟩
      · exact sim.dispatch atLeast atMost call.paths call.payload.bytes call.payload.nonempty
          (by omega)

end

theorem run_simulates (calls : List Call) (atLeast : 2 ≤ k) (atMost : k ≤ 64) :
    ∃ kept, Simulates k ic (Sender.run k ic calls) kept := by
  suffices whole : ∀ sender : Sender, (∃ members, Simulates k ic sender members) →
      ∃ kept, Simulates k ic (calls.foldl Sender.writePayload sender) kept from
    whole (Sender.new k ic) ⟨[], new_simulates atLeast atMost⟩
  induction calls with
  | nil => exact fun _ held => held
  | cons call rest ih =>
    rintro sender ⟨members, sim⟩
    exact ih (sender.writePayload call) (sim.writePayload atLeast atMost call)

end Simulation

section Truth

structure Truthful (k : Nat) (ic : Option InnerCipher) (writes : List Write) : Prop where
  numbers : writes.map Write.seq = List.range' 1 writes.length
  listed : Listed k (controls writes)
  parities : ∀ (index : Nat) (write : Write) seqs record, writes[index]? = some write →
    write.parity = some (seqs, record) → ∃ start, GroupStart k start ∧
      seqs = List.range' start k ∧ ExactParity k ic writes start record ∧
      Unsuspended (controls writes) start
  complete : ∀ start, GroupStart k start → start + k ≤ writes.length + 1 → Wide writes k start →
    ∃! index : Nat, ∃ (write : Write) (record : Bytes), writes[index]? = some write ∧
      write.parity = some (List.range' start k, record)

theorem clamped_simulates (k : Nat) (ic : Option InnerCipher) (calls : List Call) :
    ∃ kept, Simulates (clampFecGroup k) ic (Sender.run k ic calls) kept := by
  have same : Sender.run (clampFecGroup k) ic calls = Sender.run k ic calls := by
    rw [Sender.run, Sender.run, Sender.new, Sender.new, FecEncoder.new, FecEncoder.new,
      clampFecGroup_twice]
  rw [← same]
  exact run_simulates calls (clampFecGroup_least k) (clampFecGroup_most k)

/-- Sender truth: over every sequence of calls, whatever each finds registered,
generations count up by one, SUSPEND and RESUME alternate at group starts, no
parity leaves for a group they declare suspended, and every group written wide
gets one parity of exactly its members. -/
theorem sender_controls_truthful (k : Nat) (ic : Option InnerCipher) (calls : List Call) :
    Truthful (clampFecGroup k) ic (Sender.run k ic calls).writes := by
  have atLeast := clampFecGroup_least k
  obtain ⟨members, sim⟩ := clamped_simulates k ic calls
  refine ⟨by rw [sim.length]; exact sim.numbers, sim.tracks.listed, ?_, ?_⟩
  · intro index write seqs record found parity
    obtain ⟨group, given⟩ := sim.protects index write seqs record found parity
    exact ⟨group, given.aligned, given.covers, given.content, given.unsuspended⟩
  · intro group aligned done wide
    rw [sim.length] at done
    obtain ⟨write, record, found, parity⟩ := sim.complete group aligned done wide
    refine ⟨group + clampFecGroup k - 2, ⟨write, record, found, parity⟩, ?_⟩
    rintro index ⟨other, otherRecord, there, given⟩
    obtain ⟨twin, facts⟩ := sim.protects index other _ otherRecord there given
    have covers := facts.covers
    have last := facts.last
    have heads := congrArg List.head? covers
    rw [List.head?_range', List.head?_range', if_neg (by omega), if_neg (by omega)] at heads
    cases heads
    omega

end Truth

end TlsVpn.Topology

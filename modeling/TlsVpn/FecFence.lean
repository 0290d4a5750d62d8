import TlsVpn.FecTopology
import TlsVpn.FecCompleteness

/-!
The receiver's fence against the sender's history. The sender's controls travel
on independent streams, so any of them may be late or missing; the receiver
keeps one window and the newest generation it has applied. A RESUME that finds
an older window closes it, whichever SUSPEND that window came from: if the
SUSPEND and RESUME in between were skipped, the window then covers groups that
were protected in the meantime. The fence is right as long as a RESUME meeting a
window follows directly on the control that opened it, and records arrive
behind the control in force when they were sent.
-/

namespace TlsVpn.Topology

open Words XorBytes Protocol Fec Port

section Keys

variable {keep : Nat → Prop}

abbrev AllStarts (keep : Nat → Prop) (groups : Groups) : Prop :=
  AllGroups (fun start _ => keep start) groups

variable (inner : FecDecoderInner) (decoder : FecDecoder) (k start seq : Nat)
  (progress : Option Nat) (frame : Bytes)

theorem tryRecover_starts (k : Nat) (all : AllStarts keep inner.groups) :
    AllStarts keep (tryRecover inner start k).1.groups := by
  unfold tryRecover
  split
  · exact all
  · split
    · exact all
    · split
      · exact all
      · split
        · exact all.erase start
        · exact all.erase start
        · exact all

theorem onDataLocked_starts (fullMask : BitVec 64) (seq : Nat) (frame : Bytes)
    (all : AllStarts keep inner.groups) (own : keep (groupStartOf k seq)) :
    AllStarts keep (onDataLocked inner k fullMask seq frame).1.groups := by
  obtain ⟨room, _⟩ := all.entry (groupStartOf k seq) own
  simp only [onDataLocked]
  split
  · exact all
  · split
    · exact room.insert _ _ own
    · split
      · exact room.erase _
      · exact tryRecover_starts _ _ _ (room.insert _ _ own)

theorem storeParity_starts (lens : List Nat) (body : Bytes) (all : AllStarts keep inner.groups)
    (own : keep start) : AllStarts keep (storeParity inner k start lens body).1.groups := by
  obtain ⟨room, _⟩ := all.entry start own
  simp only [storeParity]
  split
  · exact room.insert _ _ own
  · exact tryRecover_starts _ _ _ (room.insert _ _ own)

structure SameFence (before after : FecDecoder) : Prop where
  fence : after.fence = before.fence
  cleanup : after.cleanupBefore = before.cleanupBefore
  size : after.k = before.k

theorem SameFence.trans {first second third : FecDecoder} (before : SameFence first second)
    (after : SameFence second third) : SameFence first third :=
  ⟨after.fence.trans before.fence, after.cleanup.trans before.cleanup, after.size.trans before.size⟩

theorem maybeRetire_sameFence :
    SameFence decoder (decoder.maybeRetireOldGroupsLocked progress) := by
  have swept := maybeRetire_swept decoder progress
  generalize decoder.maybeRetireOldGroupsLocked progress = after at swept ⊢
  cases swept <;> exact ⟨rfl, rfl, rfl⟩

theorem onData_fenced (progress : Option Nat) (all : AllStarts keep decoder.inner.groups)
    (own : keep (groupStartOf decoder.k seq)) :
    SameFence decoder (decoder.onData seq frame progress).1 ∧
      AllStarts keep (decoder.onData seq frame progress).1.inner.groups := by
  have called := onData_called decoder seq frame progress
  generalize decoder.onData seq frame progress = result at called ⊢
  cases called with
  | ignored why => exact ⟨⟨rfl, rfl, rfl⟩, all⟩
  | bypassed heard fenced early => exact ⟨⟨rfl, rfl, rfl⟩, all⟩
  | swept heard fenced due =>
    exact ⟨maybeRetire_sameFence decoder progress, all.maybeRetire progress⟩
  | retired heard protected_ old => exact ⟨⟨rfl, rfl, rfl⟩, all⟩
  | absorbed heard protected_ young =>
    exact ⟨⟨rfl, rfl, rfl⟩, onDataLocked_starts _ _ _ _ _ all own⟩

theorem onParityStrict_fenced (payload : Bytes) (before after : Option Nat)
    (all : AllStarts keep decoder.inner.groups)
    (own : ∀ start, parityHeader decoder.k payload = .ok start → keep start) :
    SameFence decoder (decoder.onParityStrict payload before after).1 ∧
      AllStarts keep (decoder.onParityStrict payload before after).1.inner.groups := by
  have called := onParityStrict_called decoder payload before after
  generalize decoder.onParityStrict payload before after = result at called ⊢
  apply called.keeps (fun other => SameFence decoder other ∧ AllStarts keep other.inner.groups)
  · exact ⟨⟨rfl, rfl, rfl⟩, all⟩
  · rintro other progress ⟨same, kept⟩
    exact ⟨same.trans (maybeRetire_sameFence other progress), kept.maybeRetire progress⟩
  · rintro cleaned start lens body ⟨same, kept⟩ header read
    exact ⟨same.trans ⟨rfl, rfl, rfl⟩, storeParity_starts _ _ _ _ _ kept (own start header)⟩

end Keys

section Fence

variable {k : Nat} {history : List FecModeControl}

/-- The window comes from the newest applied control, or from it and the SUSPEND
directly before it. -/
inductive Window (history : List FecModeControl) (fence : FecRxFenceState) : Prop where
  | shut (from_ : fence.windowFrom = 0)
  | open_ (suspend : FecModeControl) (sent : suspend ∈ history)
      (op : suspend.op = fecModeSuspend) (newest : suspend.generation = fence.generation)
      (from_ : fence.windowFrom = suspend.boundary) (until_ : fence.windowUntil = 0)
  | closed (suspend resume : FecModeControl) (sent : suspend ∈ history) (alsoSent : resume ∈ history)
      (op : resume.op = fecModeResume) (newest : resume.generation = fence.generation)
      (next : suspend.generation + 1 = resume.generation)
      (from_ : fence.windowFrom = suspend.boundary) (until_ : fence.windowUntil = resume.boundary)

/-- The condition on a control that arrives: a RESUME that would close a window
follows directly on the newest control applied. -/
def InSuccession (fence : FecRxFenceState) (control : FecModeControl) : Prop :=
  control.op = fecModeResume → fence.windowFrom ≠ 0 → fence.generation < control.generation →
    control.generation = fence.generation + 1

instance (fence : FecRxFenceState) (control : FecModeControl) :
    Decidable (InSuccession fence control) := by
  unfold InSuccession
  exact inferInstance

variable {control : FecModeControl} {fence : FecRxFenceState}

theorem Listed.odd (listed : Listed k history) (sent : control ∈ history) :
    (control.op = fecModeSuspend ∧ control.generation % 2 = 1) ∨
      (control.op = fecModeResume ∧ control.generation % 2 = 0) := by
  obtain ⟨index, inside, same⟩ := List.mem_iff_getElem.mp sent
  have found : history[index]? = some control := by rw [List.getElem?_eq_getElem inside, same]
  have generation := listed.generation index control found
  have op := listed.op index control found
  by_cases even : index % 2 = 0
  · rw [if_pos even] at op
    exact Or.inl ⟨op, by omega⟩
  · rw [if_neg even] at op
    exact Or.inr ⟨op, by omega⟩

theorem suspend_ne_resume : fecModeSuspend ≠ fecModeResume := by decide

theorem Window.apply {after : FecRxFenceState} (window : Window history fence)
    (listed : Listed k history) (sent : control ∈ history) (succession : InSuccession fence control)
    (applied : fence.apply control = some after) :
    Window history after ∧ fence.generation < after.generation := by
  unfold FecRxFenceState.apply at applied
  split at applied
  · cases applied
  · split at applied
    · cases applied
    · rename_i _ newer
      have newer : fence.generation < control.generation := by omega
      split at applied
      · rename_i suspends
        cases applied
        exact ⟨.open_ control sent suspends rfl rfl rfl, newer⟩
      · rename_i notSuspend
        have resumes : control.op = fecModeResume := by
          rcases listed.odd sent with ⟨suspends, _⟩ | ⟨resumes, _⟩
          · exact absurd suspends notSuspend
          · exact resumes
        split at applied
        · cases applied
          exact ⟨.shut rfl, newer⟩
        · rename_i opened
          cases applied
          have next := succession resumes (fun zero => opened (Or.inl zero)) newer
          refine ⟨?_, newer⟩
          cases window with
          | shut from_ => exact absurd (Or.inl from_) opened
          | open_ suspend before op newest from_ until_ =>
            exact .closed suspend control before sent resumes rfl (by omega) from_ rfl
          | closed suspend resume before alsoSent op newest _ from_ until_ =>
            -- the control after a RESUME is a SUSPEND
            exfalso
            rcases listed.odd alsoSent with ⟨suspends, _⟩ | ⟨_, even⟩
            · rw [op] at suspends
              exact suspend_ne_resume suspends.symm
            · rcases listed.odd sent with ⟨suspends, _⟩ | ⟨_, alsoEven⟩
              · exact notSuspend suspends
              · omega

theorem Window.spares {start current seq : Nat} (window : Window history fence)
    (listed : Listed k history) (governed : Governed history k start current)
    (known : current ≤ fence.generation) (low : start ≤ seq) (high : seq < start + k) :
    fence.bypassData seq = false := by
  have even := governed.even
  unfold FecRxFenceState.bypassData
  cases window with
  | shut from_ => simp [from_]
  | open_ suspend sent op newest from_ until_ =>
    -- the group's generation is even, so the SUSPEND is newer and lies behind it
    have odd : suspend.generation % 2 = 1 := by
      rcases listed.odd sent with ⟨_, odd⟩ | ⟨resumes, _⟩
      · exact odd
      · rw [op] at resumes
        exact absurd resumes suspend_ne_resume
    have behind := governed.later suspend sent (by omega)
    have below : ¬ fence.windowFrom ≤ seq := by omega
    simp [below]
  | closed suspend resume sent alsoSent op newest next from_ until_ =>
    have evenToo : resume.generation % 2 = 0 := by
      rcases listed.odd alsoSent with ⟨suspends, _⟩ | ⟨_, evenToo⟩
      · rw [op] at suspends
        exact absurd suspends.symm suspend_ne_resume
      · exact evenToo
    rcases Nat.lt_or_ge current resume.generation with later | same
    · -- by parity the group is older than the SUSPEND too, and lies before the window
      have behind := governed.later suspend sent (by omega)
      have below : ¬ fence.windowFrom ≤ seq := by omega
      simp [below]
    · -- the RESUME was in force when the group was sent: it lies behind the window
      have before := governed.earlier resume alsoSent same op
      have positive := (listed.boundary resume alsoSent).1
      have nonzero : fence.windowUntil ≠ 0 := by omega
      have past : ¬ seq < fence.windowUntil := by omega
      simp [nonzero, past]

end Fence

section Discard

variable (groups : Groups)

variable (decoder : FecDecoder) (home : Nat) (doomed : List Nat) (progress : Option Nat)

theorem lookup_eraseAll (start : Nat) (spared : start ∉ doomed) :
    (eraseAll groups doomed).lookup start = groups.lookup start := by
  induction doomed generalizing groups with
  | nil => rfl
  | cons gone rest ih =>
    have apart : start ≠ gone := fun same => spared (by rw [same]; exact List.mem_cons_self)
    have later := ih (groups.erase gone) fun member => spared (List.mem_cons_of_mem gone member)
    rw [AList.lookup_erase_ne apart] at later
    exact later

theorem dropGroupsInRange_spares (fence : FecRxFenceState) (start : Nat) (positive : 1 ≤ start)
    (spared : fence.bypassData start = false) :
    (dropGroupsInRange groups fence.windowFrom fence.windowUntil).lookup start =
      groups.lookup start := by
  unfold dropGroupsInRange
  split
  · rfl
  · rename_i opened
    apply lookup_eraseAll
    intro member
    have inside := (List.mem_filter.mp member).2
    have number : start ≠ 0 := by omega
    simp only [FecRxFenceState.bypassData, number, opened, ne_eq, not_false_eq_true, decide_true,
      Bool.true_and] at spared
    rw [spared] at inside
    cases inside

theorem maybeRetire_spares {k : Nat} (expected start : Nat) (aligned : GroupStart k start)
    (cleanup : decoder.cleanupBefore = 0 ∨ GroupStart k decoder.cleanupBefore)
    (waiting : expected < start + k) :
    (decoder.maybeRetireOldGroupsActor expected).inner.groups.lookup start =
      decoder.inner.groups.lookup start := by
  unfold FecDecoder.maybeRetireOldGroupsActor FecDecoder.retireOldGroups
  split
  · rfl
  · rename_i set
    split
    · rfl
    · rename_i passed
      apply lookup_eraseAll
      intro member
      have below := (List.mem_filter.mp member).2
      rw [decide_eq_true_eq] at below
      rcases cleanup with zero | boundary
      · exact set (Or.inl zero)
      · have := aligned.next boundary below
        omega

/-- What an arrival may add to a pending group. -/
inductive Grows (group : FecGroupState) : FecGroupState → Prop where
  | refl : Grows group group
  | member (member : Nat) (frame : Bytes) : Grows group (group.absorb member frame)
  | parity (k : Nat) (lens : List Nat) (body : Bytes) :
      Grows group { group with k := k, lens := lens, parity := some body }

/-- The group is still pending with all it had, or it is finished. -/
def Spared (start k : Nat) (group : FecGroupState) (inner : FecDecoderInner) : Prop :=
  (∃ now, Grows group now ∧ inner.groups.lookup start = some now) ∨
    isDone inner.done start k = true

variable {k start : Nat} {group now : FecGroupState} {inner : FecDecoderInner}

theorem tryRecover_spared (positive : 1 ≤ start) (grows : Grows group now)
    (found : inner.groups.lookup start = some now) :
    Spared start k group (tryRecover inner home k).1 := by
  have pending : Spared start k group inner := Or.inl ⟨now, grows, found⟩
  have finished : ∀ other, Spared start k group (finishGroup inner home k other) := by
    intro other
    by_cases own : start = home
    · subst home
      exact Or.inr (isDone_markDone inner.done start positive)
    · exact Or.inl ⟨now, grows, (AList.lookup_erase_ne own).trans found⟩
  -- a call leaves the groups as they are or finishes the one it is for
  unfold tryRecover
  split
  · exact pending
  · split
    · exact pending
    · split
      · exact pending
      · split
        · exact finished _
        · rename_i held _ _ _ _ _ _ missing _
          exact finished { held with gotMask := held.gotMask ||| bit missing }
        · exact pending

/-- An arrival writes back the group it is for; every other one stays as it is. -/
theorem insert_spared (write : FecGroupState → FecGroupState)
    (grows : ∀ held, Grows held (write held)) (found : inner.groups.lookup start = some group) :
    ∃ now, Grows group now ∧
      (inner.groups.insert home (write (ownGroup inner.groups home))).lookup start = some now := by
  by_cases own : start = home
  · subst home
    rw [ownGroup, found, Option.getD_some]
    exact ⟨write group, grows group, AList.lookup_insert _⟩
  · exact ⟨group, .refl, (AList.lookup_insert_ne own).trans found⟩

section Stored

variable (positive : 1 ≤ start) (found : inner.groups.lookup start = some group)
  (room : inner.groups.keys.length < fecMaxPendingGroups)

include positive found room

theorem onDataLocked_spared (fullMask : BitVec 64) (seq : Nat) (frame : Bytes) :
    Spared start k group (onDataLocked inner k fullMask seq frame).1 := by
  simp only [onDataLocked, entry_spared _ _ fun _ => room]
  split
  · exact Or.inl ⟨group, .refl, found⟩
  · split
    · exact Or.inl (insert_spared _ id (fun _ => .refl) found)
    · split
      · by_cases own : start = groupStartOf k seq
        · rw [← own]
          exact Or.inr (isDone_markDone inner.done start positive)
        · exact Or.inl ⟨group, .refl, (AList.lookup_erase_ne own).trans found⟩
      · obtain ⟨now, grows, stored⟩ := insert_spared (groupStartOf k seq)
          (·.absorb (seq - groupStartOf k seq) frame) (fun _ => .member _ frame) found
        exact tryRecover_spared _ positive grows stored

theorem storeParity_spared (home : Nat) (lens : List Nat) (body : Bytes) :
    Spared start k group (storeParity inner k home lens body).1 := by
  simp only [storeParity, entry_spared _ _ fun _ => room]
  split
  · exact Or.inl (insert_spared _ id (fun _ => .refl) found)
  · obtain ⟨now, grows, stored⟩ := insert_spared home
      ({ · with k := k, lens := lens, parity := some body }) (fun _ => .parity k lens body) found
    exact tryRecover_spared _ positive grows stored

end Stored

theorem eraseAll_keys_le (groups : Groups) (doomed : List Nat) :
    (eraseAll groups doomed).keys.length ≤ groups.keys.length := by
  induction doomed generalizing groups with
  | nil => exact Nat.le_refl _
  | cons gone rest ih =>
    refine (ih (groups.erase gone)).trans ?_
    rw [AList.keys_erase]
    exact List.length_erase_le

theorem maybeRetire_keys_le :
    (decoder.maybeRetireOldGroupsLocked progress).inner.groups.keys.length ≤
      decoder.inner.groups.keys.length := by
  have swept := maybeRetire_swept decoder progress
  generalize decoder.maybeRetireOldGroupsLocked progress = after at swept ⊢
  cases swept with
  | idle early => exact Nat.le_refl _
  | retired expected given fresh passed => exact eraseAll_keys_le _ _

section Arrivals

variable {decoder : FecDecoder} {expected : Nat} (aligned : GroupStart k start)
  (cleanup : decoder.cleanupBefore = 0 ∨ GroupStart k decoder.cleanupBefore)
  (waiting : expected < start + k)

include aligned cleanup waiting

theorem maybeRetire_spared (spared : Spared start k group decoder.inner) :
    Spared start k group (decoder.maybeRetireOldGroupsActor expected).inner := by
  rcases spared with ⟨now, grows, found⟩ | done
  · refine Or.inl ⟨now, grows, ?_⟩
    rw [maybeRetire_spares decoder expected start aligned cleanup waiting, found]
  · refine Or.inr ?_
    rwa [maybeRetireOldGroupsActor_eq, (maybeRetire_marks _ _).1]

variable (size : decoder.k = k) (found : decoder.inner.groups.lookup start = some group)
  (room : decoder.inner.groups.keys.length < fecMaxPendingGroups)

include size found room

theorem onDataActor_spared (seq : Nat) (frame : Bytes) :
    Spared start k group (decoder.onDataActor seq frame expected).1.inner := by
  have pending : Spared start k group decoder.inner := Or.inl ⟨group, .refl, found⟩
  have called := onData_called decoder seq frame (some expected)
  rw [onDataActor_eq]
  generalize decoder.onData seq frame (some expected) = result at called ⊢
  cases called with
  | swept heard fenced due => exact maybeRetire_spared aligned cleanup waiting pending
  | absorbed heard protected_ young =>
    rw [size]
    exact onDataLocked_spared aligned.1 found room decoder.fullMask seq frame
  | _ => exact pending

theorem onParityActor_spared (payload : Bytes) :
    Spared start k group (decoder.onParityActor payload expected).1.inner := by
  have pending : Spared start k group decoder.inner := Or.inl ⟨group, .refl, found⟩
  have swept := maybeRetire_spared aligned cleanup waiting pending
  have fewer := (maybeRetire_keys_le decoder (some expected)).trans_lt room
  have same := maybeRetire_sameFence decoder (some expected)
  have still := (maybeRetire_spares decoder expected start aligned cleanup waiting).trans found
  rw [maybeRetireOldGroupsActor_eq] at swept still
  have called := onParityStrict_called decoder payload (some expected) (some expected)
  rw [onParityActor_eq]
  generalize decoder.onParityStrict payload (some expected) (some expected) = result at called ⊢
  -- one sweep comes before the parity is looked at, another after it is stored
  generalize isCleaned : decoder.maybeRetireOldGroupsLocked (some expected) = cleaned at *
  have stored : ∀ home lens body,
      Spared start k group (storeParity cleaned.inner cleaned.k home lens body).1 := by
    intro home lens body
    rw [same.size, size]
    exact storeParity_spared aligned.1 still fewer home lens body
  cases called with
  | static single => exact pending
  | malformed listening message header => exact pending
  | retired listening home other sweep => exact sweep ▸ isCleaned ▸ swept
  | unreadable listening home other message sweep => exact sweep ▸ isCleaned ▸ swept
  | finished listening home other lens body sweep => exact sweep ▸ isCleaned ▸ swept
  | repeated listening home other lens body sweep =>
    cases isCleaned.symm.trans sweep
    exact stored home lens body
  | stored listening home other lens body out sweep =>
    cases isCleaned.symm.trans sweep
    exact maybeRetire_spared aligned (same.cleanup ▸ cleanup) waiting (stored home lens body)

end Arrivals

end Discard

section Receiver

inductive Arrival where
  | control (control : FecModeControl) (expected : Nat)
  | data (write : Write) (expected : Nat)
  | parity (write : Write) (expected : Nat)

def receive (decoder : FecDecoder) : Arrival → FecDecoder
  | .control control expected => decoder.handleModeControlActor control expected
  | .data write expected => (decoder.onDataActor write.seq write.data expected).1
  | .parity write expected =>
    match write.parity with
    | some (_, record) => (decoder.onParityActor record expected).1
    | none => decoder

def Arrival.Sent (writes : List Write) : Arrival → Prop
  | .control mode _ => mode ∈ controls writes
  | .data write _ => write ∈ writes
  | .parity write _ => write ∈ writes

instance (writes : List Write) : ∀ arrival : Arrival, Decidable (arrival.Sent writes)
  | .control _ _ | .data _ _ | .parity _ _ => by
    dsimp only [Arrival.Sent]
    exact inferInstance

/-- The condition on one arrival: a RESUME that closes a window in direct
succession, data and parity behind the control in force when they were sent. -/
def InGeneration (decoder : FecDecoder) : Arrival → Prop
  | .control control _ => InSuccession decoder.fence control
  | .data write _ => write.generation ≤ decoder.fence.generation
  | .parity write _ => write.generation ≤ decoder.fence.generation

instance (decoder : FecDecoder) : ∀ arrival, Decidable (InGeneration decoder arrival)
  | .control _ _ | .data _ _ | .parity _ _ => by
    dsimp only [InGeneration]
    exact inferInstance

def EmitsParity (writes : List Write) (k start : Nat) : Prop :=
  ∃ write ∈ writes, ∃ record, write.parity = some (List.range' start k, record)

variable {k : Nat} {ic : Option InnerCipher} {sender : Sender} {members : Delivered}

structure Covered (k : Nat) (writes : List Write) (start current : Nat) : Prop where
  aligned : GroupStart k start
  governed : Governed (controls writes) k start current
  together : ∀ write ∈ writes, start ≤ write.seq → write.seq < start + k →
    write.generation = current

variable {decoder : FecDecoder} {control : FecModeControl}

theorem Simulates.covered (sim : Simulates k ic sender members) (atLeast : 2 ≤ k) (start : Nat)
    (emits : EmitsParity sender.writes k start) :
    ∃ current, Covered k sender.writes start current := by
  obtain ⟨write, member, record, parity⟩ := emits
  obtain ⟨index, inside, same⟩ := List.mem_iff_getElem.mp member
  obtain ⟨group, given⟩ := sim.protects index write _ record
    (by rw [List.getElem?_eq_getElem inside, same]) parity
  have heads := congrArg List.head? given.covers
  rw [List.head?_range', List.head?_range', if_neg (by omega), if_neg (by omega)] at heads
  cases heads
  exact ⟨_, given.aligned, given.governed, given.together⟩

/-- What the receiver keeps: its window is in shape, and a pending group that
the sender protects belongs to a generation it has reached. -/
structure Guarded (k : Nat) (writes : List Write) (decoder : FecDecoder) : Prop where
  size : decoder.k = k
  window : Window (controls writes) decoder.fence
  cleanup : decoder.cleanupBefore = 0 ∨ GroupStart k decoder.cleanupBefore
  pending : AllStarts (fun start => EmitsParity writes k start →
    ∀ current, Covered k writes start current → current ≤ decoder.fence.generation)
    decoder.inner.groups

theorem parityHeader_start (payload : Bytes) (start : Nat)
    (header : parityHeader k payload = .ok start) : start = readBe32 (payload.drop 1) := by
  simp only [parityHeader] at header
  split at header
  · cases header
  · split at header
    · cases header
    · cases header
      rfl

theorem Simulates.seq_at (sim : Simulates k ic sender members) (index : Nat) (write : Write)
    (found : sender.writes[index]? = some write) : write.seq = index + 1 := by
  have inside := (List.getElem?_eq_some_iff.mp found).1
  have length := sim.length
  have entry : (sender.writes.map Write.seq)[index]? = some write.seq := by
    rw [List.getElem?_map, found]
    rfl
  rw [sim.numbers, List.getElem?_range' (by omega)] at entry
  have value := Option.some.inj entry
  omega

theorem Simulates.header (sim : Simulates k ic sender members) (atLeast : 2 ≤ k)
    (write : Write) (member : write ∈ sender.writes) (seqs : List Nat) (record : Bytes)
    (parity : write.parity = some (seqs, record)) (start : Nat)
    (header : parityHeader k record = .ok start) (current : Nat)
    (covered : Covered k sender.writes start current) : write.generation = current := by
  obtain ⟨index, inside, same⟩ := List.mem_iff_getElem.mp member
  have found : sender.writes[index]? = some write := by rw [List.getElem?_eq_getElem inside, same]
  obtain ⟨group, given⟩ := sim.protects index write seqs record found parity
  obtain ⟨body, _, shape⟩ := given.content
  have last := given.last
  have length := sim.length
  have bounded := sim.bounded
  have seq := sim.seq_at index write found
  have number : start = group := by
    rw [parityHeader_start record start header, shape]
    exact parityRecord_start ic group _ body (by omega)
  exact covered.together write member (by omega) (by omega)

theorem Window.boundary {history : List FecModeControl} {fence : FecRxFenceState}
    (window : Window history fence) (listed : Listed k history) (opened : fence.windowFrom ≠ 0) :
    GroupStart k fence.windowFrom := by
  cases window with
  | shut from_ => exact absurd from_ opened
  | open_ suspend before op newest from_ until_ =>
    rw [from_]
    exact listed.boundary suspend before
  | closed suspend resume before alsoSent op newest next from_ until_ =>
    rw [from_]
    exact listed.boundary suspend before

theorem cleanup_boundary {old new : Nat} (before : old = 0 ∨ GroupStart k old)
    (boundary : GroupStart k new) : GroupStart k (atomicMax old new) := by
  have nonzero : new ≠ 0 := Nat.ne_of_gt boundary.1
  rw [atomicMax, if_neg nonzero]
  rcases before with zero | set
  · rw [zero, Nat.zero_max]
    exact boundary
  · rcases Nat.le_total old new with below | above
    · rw [Nat.max_eq_right below]
      exact boundary
    · rw [Nat.max_eq_left above]
      exact set

theorem handleModeControlActor_guarded (sim : Simulates k ic sender members)
    (guarded : Guarded k sender.writes decoder) (sent : control ∈ controls sender.writes)
    (succession : InSuccession decoder.fence control) (expected : Nat) :
    Guarded k sender.writes (decoder.handleModeControlActor control expected) := by
  unfold FecDecoder.handleModeControlActor
  rw [FecRxFenceState.applyActor_eq]
  cases applied : decoder.fence.apply control with
  | none => exact guarded
  | some fence =>
    obtain ⟨window, newer⟩ := guarded.window.apply sim.tracks.listed sent succession applied
    have known : AllStarts (fun start => EmitsParity sender.writes k start →
        ∀ current, Covered k sender.writes start current → current ≤ fence.generation)
        decoder.inner.groups := by
      intro start group found emits current covered
      have := guarded.pending start group found emits current covered
      omega
    simp only
    split
    · exact ⟨guarded.size, window, guarded.cleanup, known⟩
    · rename_i opened
      have cleanup := cleanup_boundary guarded.cleanup
        (window.boundary sim.tracks.listed opened)
      rw [maybeRetireOldGroupsActor_eq]
      generalize isDropped : ({ decoder with
        fence := fence
        cleanupBefore := atomicMax decoder.cleanupBefore fence.windowFrom
        inner := { decoder.inner with
          groups := dropGroupsInRange decoder.inner.groups fence.windowFrom
            fence.windowUntil } } : FecDecoder) = dropped
      have same := maybeRetire_sameFence dropped (some expected)
      have kept : AllStarts (fun start => EmitsParity sender.writes k start →
          ∀ current, Covered k sender.writes start current → current ≤ fence.generation)
          dropped.inner.groups := by
        rw [← isDropped]
        simp only [dropGroupsInRange]
        split
        · exact known
        · exact known.eraseAll _
      have fenceSame : dropped.fence = fence := by rw [← isDropped]
      refine ⟨?_, ?_, Or.inr ?_, ?_⟩
      · rw [same.size, ← isDropped]
        exact guarded.size
      · rw [same.fence, fenceSame]
        exact window
      · rw [same.cleanup, ← isDropped]
        exact cleanup
      · rw [same.fence, fenceSame]
        exact kept.maybeRetire (some expected)

theorem receive_guarded (sim : Simulates k ic sender members) (atLeast : 2 ≤ k) (decoder : FecDecoder)
    (arrival : Arrival) (sent : arrival.Sent sender.writes) (allowed : InGeneration decoder arrival)
    (guarded : Guarded k sender.writes decoder) :
    Guarded k sender.writes (receive decoder arrival) := by
  have carry : ∀ after : FecDecoder, SameFence decoder after →
      AllStarts (fun start => EmitsParity sender.writes k start →
        ∀ current, Covered k sender.writes start current → current ≤ decoder.fence.generation)
        after.inner.groups → Guarded k sender.writes after := by
    intro after same kept
    refine ⟨same.size.trans guarded.size, ?_, ?_, ?_⟩
    · rw [same.fence]
      exact guarded.window
    · rw [same.cleanup]
      exact guarded.cleanup
    · rw [same.fence]
      exact kept
  cases arrival with
  | control control expected =>
    exact handleModeControlActor_guarded sim guarded sent allowed expected
  | data write expected =>
    simp only [receive, onDataActor_eq]
    obtain ⟨same, kept⟩ := onData_fenced decoder write.seq write.data (some expected)
      guarded.pending (by
        intro _ current covered
        have bounds := sim.seq_bounds write sent
        obtain ⟨_, _, near, sum⟩ := groupStartOf_spec write.seq bounds.1 atLeast
        rw [guarded.size] at covered
        rw [← covered.together write sent (by omega) (by omega)]
        exact allowed)
    exact carry _ same kept
  | parity write expected =>
    cases given : write.parity with
    | none => simpa only [receive, given] using guarded
    | some pair =>
      obtain ⟨seqs, record⟩ := pair
      simp only [receive, given]
      rw [onParityActor_eq]
      obtain ⟨same, kept⟩ := onParityStrict_fenced decoder record (some expected) (some expected)
        guarded.pending (by
          intro start header _ current covered
          rw [guarded.size] at header
          rw [← sim.header atLeast write sent seqs record given start header current covered]
          exact allowed)
      exact carry _ same kept

theorem new_guarded (atLeast : 2 ≤ k) (atMost : k ≤ 64) (writes : List Write) :
    Guarded k writes (FecDecoder.new k ic) := by
  exact ⟨clampFecGroup_of_bounds atLeast atMost, .shut rfl, Or.inl rfl, allGroups_empty⟩

/-- A control in succession leaves the pending state of a group with a parity, as
long as the reorder buffer still waits for one of its members. -/
theorem Guarded.spares_pending {start current : Nat} {group : FecGroupState}
    (guarded : Guarded k sender.writes decoder) (sim : Simulates k ic sender members)
    (atLeast : 2 ≤ k) (emits : EmitsParity sender.writes k start)
    (covered : Covered k sender.writes start current) (sent : control ∈ controls sender.writes)
    (succession : InSuccession decoder.fence control) (expected : Nat)
    (waiting : expected < start + k) (found : decoder.inner.groups.lookup start = some group) :
    (decoder.handleModeControlActor control expected).inner.groups.lookup start = some group := by
  have known := guarded.pending start group found emits current covered
  have kept := handleModeControlActor_guarded sim guarded sent succession expected
  unfold FecDecoder.handleModeControlActor at kept ⊢
  rw [FecRxFenceState.applyActor_eq] at kept ⊢
  cases applied : decoder.fence.apply control with
  | none => exact found
  | some fence =>
    obtain ⟨window, newer⟩ := guarded.window.apply sim.tracks.listed sent succession applied
    have spared := window.spares sim.tracks.listed covered.governed (by omega)
      (Nat.le_refl start) (by omega)
    simp only
    split
    · exact found
    · rename_i opened
      rw [maybeRetire_spares _ expected start covered.aligned ?_ waiting]
      · rw [dropGroupsInRange_spares _ fence start covered.aligned.1 spared]
        exact found
      · simp only [applied, if_neg opened] at kept
        rw [← (maybeRetire_sameFence _ (some expected)).cleanup]
        exact kept.cleanup

theorem run_guarded (k : Nat) (ic : Option InnerCipher) (calls : List Call)
    (arrivals : List Arrival)
    (sent : ∀ arrival ∈ arrivals, arrival.Sent (Sender.run k ic calls).writes)
    (inGeneration : Runs.Along (Runs.total receive) InGeneration (FecDecoder.new k ic) arrivals) :
    Guarded (clampFecGroup k) (Sender.run k ic calls).writes
      (arrivals.foldl receive (FecDecoder.new k ic)) := by
  have atLeast := clampFecGroup_least k
  obtain ⟨members, sim⟩ := clamped_simulates k ic calls
  have clamped : FecDecoder.new (clampFecGroup k) ic = FecDecoder.new k ic := by
    rw [FecDecoder.new, FecDecoder.new, clampFecGroup_twice]
  have fresh : Guarded (clampFecGroup k) (Sender.run k ic calls).writes (FecDecoder.new k ic) := by
    rw [← clamped]
    exact new_guarded atLeast (clampFecGroup_most k) _
  exact Runs.invariant_total receive
    (fun state arrival =>
      InGeneration state arrival ∧ arrival.Sent (Sender.run k ic calls).writes)
    (Guarded (clampFecGroup k) (Sender.run k ic calls).writes)
    (fun state arrival allowed held =>
      receive_guarded sim atLeast state arrival allowed.2 allowed.1 held)
    (FecDecoder.new k ic) arrivals (inGeneration.labels arrivals _ sent) fresh

/-- What the receiver does to the group at `start`: its frames are heard once
their generation is reached; and while the reorder buffer waits for one of its
members, no control and no sweep takes its pending state, and a data frame or a
parity of any group takes it only by finishing it, unless the map is full. -/
structure Respects (writes : List Write) (k start : Nat) (decoder : FecDecoder) : Prop where
  heard : ∀ write ∈ writes, start ≤ write.seq → write.seq < start + k →
    write.generation ≤ decoder.fence.generation → decoder.fence.bypassData write.seq = false
  controls : ∀ control ∈ controls writes, InSuccession decoder.fence control →
    ∀ expected, expected < start + k → ∀ group, decoder.inner.groups.lookup start = some group →
      (decoder.handleModeControlActor control expected).inner.groups.lookup start = some group
  sweeps : ∀ expected, expected < start + k →
    ∀ group, decoder.inner.groups.lookup start = some group →
      (decoder.maybeRetireOldGroupsActor expected).inner.groups.lookup start = some group
  records : ∀ expected, expected < start + k →
    ∀ group, decoder.inner.groups.lookup start = some group →
      decoder.inner.groups.keys.length < fecMaxPendingGroups →
      (∀ seq frame, Spared start k group (decoder.onDataActor seq frame expected).1.inner) ∧
        ∀ payload, Spared start k group (decoder.onParityActor payload expected).1.inner

/-- Fence safety: whatever subset of the sender's records arrives in whatever
order, as long as each arrival is in its generation, the receiver respects every
group for which the sender emits a parity. -/
theorem fence_spares_protected (k : Nat) (ic : Option InnerCipher) (calls : List Call)
    (arrivals : List Arrival) (start : Nat)
    (sent : ∀ arrival ∈ arrivals, arrival.Sent (Sender.run k ic calls).writes)
    (inGeneration : Runs.Along (Runs.total receive) InGeneration (FecDecoder.new k ic) arrivals)
    (emits : EmitsParity (Sender.run k ic calls).writes (clampFecGroup k) start) :
    Respects (Sender.run k ic calls).writes (clampFecGroup k) start
      (arrivals.foldl receive (FecDecoder.new k ic)) := by
  obtain ⟨members, sim⟩ := clamped_simulates k ic calls
  obtain ⟨current, covered⟩ := sim.covered (clampFecGroup_least k) start emits
  have guarded := run_guarded k ic calls arrivals sent inGeneration
  refine ⟨?_, ?_, ?_, ?_⟩
  · intro write member low high known
    rw [covered.together write member low high] at known
    exact guarded.window.spares sim.tracks.listed covered.governed known low high
  · intro control member succession expected waiting group found
    exact guarded.spares_pending sim (clampFecGroup_least k) emits covered member succession
      expected waiting found
  · intro expected waiting group found
    rw [maybeRetire_spares _ expected start covered.aligned guarded.cleanup waiting, found]
  · intro expected waiting group found room
    exact ⟨onDataActor_spared covered.aligned guarded.cleanup waiting guarded.size found room,
      onParityActor_spared covered.aligned guarded.cleanup waiting guarded.size found room⟩

/-- Two backends, one, two again, one, and two: a history with the controls
SUSPEND 3, RESUME 5, SUSPEND 7 and RESUME 9, and a parity for the group at 5. -/
def collapseCalls : List Call :=
  [2, 2, 1, 1, 2, 2, 1, 1, 2].map fun paths => ⟨paths, true, samplePayload⟩

example : controls (Sender.run 2 none collapseCalls).writes =
    [⟨1, fecModeSuspend, 3⟩, ⟨2, fecModeResume, 5⟩, ⟨3, fecModeSuspend, 7⟩,
      ⟨4, fecModeResume, 9⟩] := by
  decide +kernel

def fifthWrite : Write := ⟨5, 2, [7], some ⟨2, fecModeResume, 5⟩, 2, none⟩

def sixthWrite : Write :=
  ⟨6, 2, [7], none, 2, some ([5, 6], [1, 0, 0, 0, 5, 2, 0, 0, 0, 1, 0, 0, 0, 1, 0])⟩

theorem collapseCalls_emits : EmitsParity (Sender.run 2 none collapseCalls).writes 2 5 :=
  ⟨sixthWrite, by decide +kernel, [1, 0, 0, 0, 5, 2, 0, 0, 0, 1, 0, 0, 0, 1, 0], by decide⟩

/-- SUSPEND 3, RESUME 5 and then frame 5, as one stream carries them. -/
theorem fence_spares_in_order :
    let decoder := [Arrival.control ⟨1, fecModeSuspend, 3⟩ 3, .control ⟨2, fecModeResume, 5⟩ 3,
      .data fifthWrite 3].foldl receive (FecDecoder.new 2 none)
    (decoder.inner.groups.lookup 5).isSome = true ∧
      decoder.inner.groups.keys.length < fecMaxPendingGroups ∧
      Respects (Sender.run 2 none collapseCalls).writes (clampFecGroup 2) 5 decoder :=
  ⟨by decide +kernel, by decide +kernel, fence_spares_protected 2 none collapseCalls _ 5
    (by decide +kernel) (by decide +kernel) collapseCalls_emits⟩

/-- The same history with RESUME 5 and SUSPEND 7 still on their way. The window
of the first SUSPEND is closed at 9: the parity that was waiting at 5 is thrown
away, and both its frames are bypassed. -/
theorem skipped_generation_disables_group :
    let waiting := [Arrival.control ⟨1, fecModeSuspend, 3⟩ 3, .parity sixthWrite 3].foldl receive
      (FecDecoder.new 2 none)
    let decoder := receive waiting (.control ⟨4, fecModeResume, 9⟩ 3)
    EmitsParity (Sender.run 2 none collapseCalls).writes 2 5 ∧
      (waiting.inner.groups.lookup 5).isSome = true ∧
      (decoder.inner.groups.lookup 5).isSome = false ∧
      decoder.fence.generation = 4 ∧ decoder.fence.bypassData 5 = true ∧
      decoder.fence.bypassData 6 = true :=
  ⟨collapseCalls_emits, by decide +kernel, by decide +kernel, by decide +kernel, by decide +kernel,
    by decide +kernel⟩

end Receiver

end TlsVpn.Topology

import TlsVpn.ReorderRuns

/-!
Completeness and accounts of the reorder buffer. The flush loop drops the empty
frames it takes from the ring, so the delivered list alone does not say how far
`expectedSeq` moved. A ledger keeps two more columns beside the trace: the
numbered frames handed to `insert_into`, and every frame taken from the ring.
Neither is read by the code.
-/

namespace TlsVpn.Reorder

open Words

section Releases

def releaseLoop : Nat → ReorderBuffer → Delivered
  | 0, _ => []
  | fuel + 1, buffer =>
    let index := slotOf buffer buffer.expectedSeq
    match buffer.ring index with
    | none => []
    | some frame => (buffer.expectedSeq, frame) :: releaseLoop fuel (takeSlot buffer index)

def flushReleases (buffer : ReorderBuffer) : Delivered :=
  releaseLoop buffer.size { buffer with gapSince := none }

def skipOver (buffer : ReorderBuffer) (delta : Nat) : ReorderBuffer :=
  { buffer with
    expectedSeq := wrappingAdd buffer.expectedSeq delta
    gapSince := none
    stats := { buffer.stats with
      timeoutFlushes := saturatingAdd buffer.stats.timeoutFlushes 1
      skippedFrames := saturatingAdd buffer.stats.skippedFrames delta } }

def timeoutReleases (buffer : ReorderBuffer) (now : Nat) : Delivered :=
  match buffer.gapSince with
  | none => []
  | some since =>
    if now - since < reorderSkipDelay ∨ hasGap buffer = false then [] else
      match firstHeld buffer (buffer.size - 1) 1 with
      | some delta => flushReleases (skipOver buffer delta)
      | none => []

def releasedBy (buffer : ReorderBuffer) : Op → Delivered
  | .insert seq frame _ =>
    let placed := place buffer seq frame
    if seq ≠ 0 ∧ placed.2 = true ∧ seq = placed.1.expectedSeq then flushReleases placed.1 else []
  | .direct _ => []
  | .timeout now => timeoutReleases buffer now

def shown (released : Delivered) : Delivered := released.filter fun entry => !entry.2.isEmpty

variable (fuel : Nat) (buffer : ReorderBuffer) (now : Nat)

theorem shown_append (left right : Delivered) : shown (left ++ right) = shown left ++ shown right :=
  List.filter_append left right

theorem releaseLoop_shown : (flushLoop fuel buffer).2 = shown (releaseLoop fuel buffer) := by
  induction fuel generalizing buffer with
  | zero => rfl
  | succ fuel ih =>
    cases stored : buffer.ring (slotOf buffer buffer.expectedSeq) with
    | none => simp [flushLoop, releaseLoop, stored, shown]
    | some frame =>
      simp only [flushLoop, releaseLoop, stored, ih]
      cases frame with
      | nil => simp [shown]
      | cons byte rest => simp [shown]

theorem flushLoop_stats : (flushLoop fuel buffer).1.stats = buffer.stats := by
  induction fuel generalizing buffer with
  | zero => rfl
  | succ fuel ih =>
    cases stored : buffer.ring (slotOf buffer buffer.expectedSeq) with
    | none => simp [flushLoop, stored]
    | some frame =>
      simp only [flushLoop, stored]
      exact ih (takeSlot buffer (slotOf buffer buffer.expectedSeq))

theorem flushLoop_moves (room : buffer.expectedSeq + fuel ≤ u32Max) :
    (flushLoop fuel buffer).1.expectedSeq =
      buffer.expectedSeq + (releaseLoop fuel buffer).length := by
  induction fuel generalizing buffer with
  | zero => rfl
  | succ fuel ih =>
    cases stored : buffer.ring (slotOf buffer buffer.expectedSeq) with
    | none => simp [flushLoop, releaseLoop, stored]
    | some frame =>
      have next : (takeSlot buffer (slotOf buffer buffer.expectedSeq)).expectedSeq =
          buffer.expectedSeq + 1 := wrappingAdd_one_small buffer.expectedSeq (by omega)
      have moved := ih (takeSlot buffer (slotOf buffer buffer.expectedSeq)) (by omega)
      simp only [flushLoop, releaseLoop, stored, List.length_cons]
      omega

theorem refreshGap_skipped :
    (refreshGap buffer now).stats.skippedFrames = buffer.stats.skippedFrames := by
  unfold refreshGap
  by_cases gap : hasGap buffer = true
  · by_cases idle : buffer.gapSince.isNone = true
    · rw [if_pos gap, if_pos idle]
    · rw [if_pos gap, if_neg idle]
  · rw [if_neg gap]

theorem flushLockedInto_moves (room : buffer.expectedSeq + buffer.size ≤ u32Max) :
    (flushLockedInto buffer now).1.expectedSeq =
      buffer.expectedSeq + (flushReleases buffer).length := by
  simp only [flushLockedInto, refreshGap_expectedSeq]
  exact flushLoop_moves buffer.size { buffer with gapSince := none } room

theorem flushLockedInto_skipped :
    (flushLockedInto buffer now).1.stats.skippedFrames = buffer.stats.skippedFrames := by
  simp only [flushLockedInto, refreshGap_skipped, flushLoop_stats]

end Releases

section Columns

variable {buffer : ReorderBuffer}

theorem growWindow_keeps {grown : ReorderBuffer} {required : Nat}
    (result : growWindow buffer required = some grown) :
    grown.expectedSeq = buffer.expectedSeq ∧ grown.stats = buffer.stats := by
  simp only [growWindow] at result
  split at result
  · cases result
  · split at result
    · cases result
    · cases result
      exact ⟨rfl, rfl⟩

theorem makeRoom_keeps {roomy : ReorderBuffer} {distance : Nat}
    (room : makeRoom buffer distance = some roomy) :
    roomy.expectedSeq = buffer.expectedSeq ∧ roomy.stats = buffer.stats := by
  unfold makeRoom at room
  split at room
  · split at room
    · cases room
    · exact growWindow_keeps room
  · cases room
    exact ⟨rfl, rfl⟩

theorem place_keeps (buffer : ReorderBuffer) (seq : Nat) (frame : Frame) :
    (place buffer seq frame).1.expectedSeq = (learn buffer seq).expectedSeq ∧
      (place buffer seq frame).1.stats = buffer.stats := by
  have learned : (learn buffer seq).stats = buffer.stats := by
    unfold learn
    split <;> rfl
  rw [← learned]
  simp only [place, admitFrame]
  split
  · exact ⟨rfl, rfl⟩
  · split
    · exact ⟨rfl, rfl⟩
    · rename_i roomy room
      have kept := makeRoom_keeps room
      split
      · exact kept
      · exact kept

theorem perform_shown (trace : Trace) (op : Op) (queued : ∀ input, op ≠ .direct input) :
    (perform trace op).delivered = trace.delivered ++ shown (releasedBy trace.buffer op) := by
  have flushed : ∀ buffer now, (flushLockedInto buffer now).2 = shown (flushReleases buffer) :=
    fun buffer now => releaseLoop_shown buffer.size { buffer with gapSince := none }
  cases op with
  | direct input => exact absurd rfl (queued input)
  | insert seq frame now =>
    simp only [perform, releasedBy]
    congr 1
    obtain ⟨⟨placed, flag⟩, result⟩ : ∃ pair, place trace.buffer seq frame = pair := ⟨_, rfl⟩
    simp only [insertInto, result]
    by_cases zero : seq = 0
    · rw [if_pos zero, if_neg (fun taken => taken.1 zero)]
      rfl
    · rw [if_neg zero]
      cases flag with
      | false => simp [shown]
      | true =>
        by_cases head : seq = placed.expectedSeq
        · simp only [if_pos head, ↓reduceIte]
          rw [if_pos ⟨zero, trivial, head⟩]
          exact flushed placed now
        · simp only [if_neg head, ↓reduceIte]
          rw [if_neg fun taken => head taken.2.2]
          rfl
  | timeout now =>
    simp only [perform, releasedBy, timeoutReleases, flushTimeoutInto]
    congr 1
    cases trace.buffer.gapSince with
    | none => rfl
    | some since =>
      by_cases wait : now - since < reorderSkipDelay ∨ hasGap trace.buffer = false
      · simp only [if_pos wait]
        rfl
      · simp only [if_neg wait]
        cases firstHeld trace.buffer (trace.buffer.size - 1) 1 with
        | none => rfl
        | some delta => exact flushed (skipOver trace.buffer delta) now

end Columns

section Calls

variable {high : Nat}
variable (staged : ReorderBuffer) (count : Nat) (buffer : ReorderBuffer)

theorem Occupied.unique {buffer : ReorderBuffer} {seq : Nat} {left right : Frame}
    (held : Occupied buffer seq left) (other : Occupied buffer seq right) : left = right :=
  Option.some.inj (held.1.symm.trans other.1)

section

variable (now : Nat) (shape : Shape staged)
  (top : ∀ seq frame, Occupied staged seq frame → seq ≤ high) (last : high < u32Max) (seq : Nat)

include shape top last

theorem flushLockedInto_fills (above : staged.expectedSeq ≤ seq)
    (passed : seq < (flushLockedInto staged now).1.expectedSeq) :
    ∃ frame, Occupied staged seq frame ∧
      (frame ≠ [] → (seq, frame) ∈ (flushLockedInto staged now).2) := by
  have flushed := flushLockedInto_flushed staged shape top last
  simp only [flushLockedInto, refreshGap_expectedSeq] at passed ⊢
  exact flushed.released seq above passed

theorem flushLockedInto_hands (frame : Frame) (held : Occupied staged seq frame)
    (nonempty : frame ≠ []) (passed : seq < (flushLockedInto staged now).1.expectedSeq) :
    (seq, frame) ∈ (flushLockedInto staged now).2 := by
  obtain ⟨content, here, given⟩ := flushLockedInto_fills staged now shape top last seq
    (shape.occupied_window seq frame held).1 passed
  obtain rfl := here.unique held
  exact given nonempty

end

/-- The account of one call: how far the base moved beyond the learned one, what
the counter of skipped numbers grew by, that beyond the skipped numbers it moved
over frames, and that it handed out the non-empty ones. -/
structure Booked (before after : ReorderBuffer) (base : Nat) (accepted released out : Delivered)
    (skipped : Nat) : Prop where
  moved : after.expectedSeq = base + released.length + skipped
  counted : after.stats.skippedFrames = saturatingAdd before.stats.skippedFrames skipped
  filled : ∀ seq, base + skipped ≤ seq → seq < after.expectedSeq →
    ∃ frame, Occupied before seq frame ∨ (seq, frame) ∈ accepted
  handed : ∀ seq frame, Occupied before seq frame ∨ (seq, frame) ∈ accepted → frame ≠ [] →
    seq < after.expectedSeq → (seq, frame) ∈ out

theorem saturatingAdd_zero (bounded : count ≤ u64Max) : saturatingAdd count 0 = count := by
  unfold saturatingAdd
  omega

theorem saturatingAdd_saturatingAdd (first second : Nat) :
    saturatingAdd (saturatingAdd count first) second = saturatingAdd count (first + second) := by
  unfold saturatingAdd
  omega

theorem learn_below (settled : Settled buffer) (seq other : Nat) (frame : Frame)
    (held : Occupied buffer other frame) : (learn buffer seq).expectedSeq ≤ other :=
  ((learn_shape buffer settled seq).occupied_window other frame
    ((learn_occupied buffer seq other frame).mpr held)).1

theorem Booked.still {before after : ReorderBuffer} {base : Nat} {accepted : Delivered}
    (moved : after.expectedSeq = base)
    (stats : after.stats.skippedFrames = before.stats.skippedFrames)
    (bounded : before.stats.skippedFrames ≤ u64Max)
    (ahead : ∀ seq frame, Occupied before seq frame ∨ (seq, frame) ∈ accepted → base ≤ seq) :
    Booked before after base accepted [] [] 0 := by
  refine ⟨moved, ?_, ?_, ?_⟩
  · rw [stats, saturatingAdd_zero _ bounded]
  · intro seq above below
    omega
  · intro seq frame here _ passed
    have := ahead seq frame here
    omega

section

variable (settled : Settled buffer) (based : Based 1 high buffer) (room : high + 65537 ≤ u32Max)
  (bounded : buffer.stats.skippedFrames ≤ u64Max)

include settled based room bounded

theorem insertInto_booked (seq : Nat) (frame : Frame) (now : Nat) (above : 1 ≤ seq)
    (below : seq ≤ high) :
    Booked buffer (insertInto buffer seq frame now).1 (learn buffer seq).expectedSeq
      (acceptedBy buffer seq frame) (releasedBy buffer (.insert seq frame now))
      (insertInto buffer seq frame now).2 0 := by
  have width : u32Max = 4294967295 := rfl
  have span : Span 1 high := ⟨Nat.le_refl _, by omega, by omega⟩
  obtain ⟨learnedBased, nonzero⟩ := learn_based buffer based seq span above below
  have base := learnedBased.expectedSeq.resolve_left nonzero
  obtain ⟨kept, stats⟩ := place_keeps buffer seq frame
  have size := (sized_stable.place buffer seq frame settled.shape.sized).size_le
  have spec := admitFrame_spec (learn buffer seq) (learn_shape buffer settled seq) (by omega) seq
    frame (by omega) (by unfold reorderMaxWindow; omega)
  rw [← place] at spec
  have number : seq ≠ 0 := by omega
  have behind := learn_below buffer settled seq
  obtain ⟨⟨placed, flag⟩, result⟩ : ∃ pair, place buffer seq frame = pair := ⟨_, rfl⟩
  simp only [insertInto, acceptedBy, releasedBy, if_neg number, result] at spec kept stats size ⊢
  rcases spec with ⟨rejected, refused⟩ | ⟨taken, stored⟩
  · subst flag
    simp only [Bool.false_eq_true, ↓reduceIte, and_false, false_and]
    refine Booked.still kept (by rw [stats]) bounded ?_
    rintro other content (held | member)
    · exact behind other content held
    · cases member
  · subst flag
    have here : ∀ other content, Occupied buffer other content ∨
        (other, content) ∈ [(seq, frame)] ↔ Occupied placed other content := by
      intro other content
      rw [stored.held, learn_occupied]
      simp
    have one : (if seq ≠ 0 ∧ true = true then [(seq, frame)] else []) = [(seq, frame)] :=
      if_pos ⟨number, rfl⟩
    rw [one, if_pos rfl]
    by_cases head : seq = placed.expectedSeq
    · have moved := flushLockedInto_moves placed now (by
        unfold reorderMaxWindow at size
        omega)
      rw [if_pos (⟨number, rfl, head⟩ : seq ≠ 0 ∧ true = true ∧ seq = placed.expectedSeq),
        if_pos head]
      have top : ∀ other content, Occupied placed other content → other ≤ high := by
        intro other content held
        rcases (stored.held other content).mp held with old | ⟨same, _⟩
        · exact learnedBased.held other content old
        · omega
      refine ⟨by omega, ?_, ?_, ?_⟩
      · rw [flushLockedInto_skipped, stats, saturatingAdd_zero _ bounded]
      · intro other low passed
        obtain ⟨content, held, _⟩ := flushLockedInto_fills placed now stored.shape top span.last
          other (by omega) passed
        exact ⟨content, (here other content).mpr held⟩
      · intro other content held nonempty passed
        exact flushLockedInto_hands placed now stored.shape top span.last other content
          ((here other content).mp held) nonempty passed
    · rw [if_neg (fun taken => head taken.2.2 :
        ¬ (seq ≠ 0 ∧ true = true ∧ seq = placed.expectedSeq)), if_neg head]
      refine Booked.still ?_ ?_ bounded ?_
      · rw [refreshGap_expectedSeq, kept]
      · rw [refreshGap_skipped, stats]
      · intro other content held
        rw [← kept]
        exact (stored.shape.occupied_window other content ((here other content).mp held)).1

theorem flushTimeoutInto_booked (now : Nat) :
    ∃ skipped, Booked buffer (flushTimeoutInto buffer now).1 buffer.expectedSeq []
      (timeoutReleases buffer now) (flushTimeoutInto buffer now).2 skipped ∧
      (buffer.expectedSeq = 0 → timeoutReleases buffer now = [] ∧ skipped = 0) := by
  have still : Booked buffer buffer buffer.expectedSeq [] [] [] 0 := by
    refine Booked.still rfl rfl bounded ?_
    rintro seq frame (held | member)
    · exact (settled.shape.occupied_window seq frame held).1
    · cases member
  unfold flushTimeoutInto timeoutReleases
  cases armed : buffer.gapSince with
  | none => exact ⟨0, still, fun _ => ⟨rfl, rfl⟩⟩
  | some since =>
    obtain ⟨gap, stored⟩ := settled.gap_armed armed
    by_cases wait : now - since < reorderSkipDelay ∨ hasGap buffer = false
    · simp only [if_pos wait]
      exact ⟨0, still, fun _ => ⟨trivial, rfl⟩⟩
    · simp only [if_neg wait]
      obtain ⟨delta, frame, found, positive, held, least⟩ :=
        settled.shape.firstHeld_least settled.open_ stored
      have learned := (settled.shape.hasGap_iff.mp gap).1
      simp only [found]
      have top := based.held _ frame held
      have size := settled.shape.sized.size_le
      have target : (skipOver buffer delta).expectedSeq = buffer.expectedSeq + delta := by
        unfold u32Max at room
        unfold skipOver wrappingAdd
        exact Nat.mod_eq_of_lt (by omega)
      have shape : Shape (skipOver buffer delta) := by
        refine ⟨settled.shape.sized, settled.shape.bits, settled.shape.outside, ?_⟩
        intro index other here
        obtain ⟨residue, _, window⟩ := settled.shape.slots index other here
        have reach := least _ other (settled.shape.occupied index other here)
        rw [target]
        exact ⟨residue, reach, Nat.lt_of_lt_of_le window (by change _ ≤ _ + buffer.size; omega)⟩
      have moved := flushLockedInto_moves (skipOver buffer delta) now (by
        unfold reorderMaxWindow at size
        rw [target]
        change _ + buffer.size ≤ _
        omega)
      refine ⟨delta, ⟨?_, flushLockedInto_skipped _ now, ?_, ?_⟩, fun unlearned => absurd unlearned learned⟩
      · change (flushLockedInto (skipOver buffer delta) now).1.expectedSeq = _
        rw [moved, target]
        omega
      · intro seq above passed
        obtain ⟨content, here, _⟩ := flushLockedInto_fills (skipOver buffer delta) now shape
          based.held (by omega) seq (by omega) passed
        exact ⟨content, Or.inl here⟩
      · rintro seq content (here | member) nonempty passed
        · exact flushLockedInto_hands (skipOver buffer delta) now shape based.held (by omega) seq
            content here nonempty passed
        · cases member

end

end Calls

section Ledger

/-- A trace with its accounts: the numbered frames handed to `insert_into`, and
every frame taken from the ring, both oldest first. -/
structure Ledger where
  trace : Trace
  arrived : Delivered
  released : Delivered

/-- Number 0 marks a frame outside the sequence, which `insert_into` ignores. -/
def Op.arrival : Op → Delivered
  | .insert seq frame _ => if seq = 0 then [] else [(seq, frame)]
  | .direct _ => []
  | .timeout _ => []

def Op.Queued : Op → Prop
  | .insert _ _ _ => True
  | .direct _ => False
  | .timeout _ => True

instance (op : Op) : Decidable op.Queued :=
  match op with
  | .insert _ _ _ => .isTrue trivial
  | .direct _ => .isFalse id
  | .timeout _ => .isTrue trivial

def Ledger.enter (ledger : Ledger) (op : Op) : Ledger where
  trace := perform ledger.trace op
  arrived := ledger.arrived ++ op.arrival
  released := ledger.released ++ releasedBy ledger.trace.buffer op

def opened (buffer : ReorderBuffer) : Ledger := ⟨start buffer, [], []⟩

theorem enter_trace (ledger : Ledger) (ops : List Op) :
    (ops.foldl Ledger.enter ledger).trace = ops.foldl perform ledger.trace := by
  induction ops generalizing ledger with
  | nil => rfl
  | cons op rest ih => exact ih (ledger.enter op)

theorem enter_zero (ledger : Ledger) (frame : Frame) (now : Nat) :
    ledger.enter (.insert 0 frame now) = ledger := by
  simp [Ledger.enter, perform, insertInto, acceptedBy, releasedBy, Op.arrival]

/-- What holds of the accounts at any time. `before` is the counter of skipped
numbers at the start, which `reset` does not clear. -/
structure Balanced (before : Nat) (ledger : Ledger) : Prop where
  history : History 1 (u32Max - 65537) ledger.trace.buffer ledger.trace.accepted
    ledger.trace.delivered
  bounded : ledger.trace.buffer.stats.skippedFrames ≤ u64Max
  shows : ledger.trace.delivered = shown ledger.released
  handed : ∀ entry ∈ ledger.trace.accepted, entry.2 ≠ [] →
    entry.1 < ledger.trace.buffer.expectedSeq → entry ∈ ledger.trace.delivered
  learned : ledger.arrived = [] ↔ ledger.trace.buffer.expectedSeq = 0
  books : ∃ skipped,
    ledger.trace.buffer.stats.skippedFrames = saturatingAdd before skipped ∧
      (ledger.arrived = [] → ledger.released = [] ∧ skipped = 0) ∧
      ∀ first, ledger.arrived.head? = some first →
        ledger.trace.buffer.expectedSeq = first.1 + ledger.released.length + skipped

theorem handed_extend {before after : ReorderBuffer} {base skipped : Nat}
    {accepted delivered stored released out : Delivered}
    (history : History 1 (u32Max - 65537) before accepted delivered)
    (handed : ∀ entry ∈ accepted, entry.2 ≠ [] → entry.1 < before.expectedSeq → entry ∈ delivered)
    (booked : Booked before after base stored released out skipped) :
    ∀ entry ∈ accepted ++ stored, entry.2 ≠ [] → entry.1 < after.expectedSeq →
      entry ∈ delivered ++ out := by
  intro entry member nonempty passed
  rcases List.mem_append.mp member with old | recent
  · rcases history.covered entry old with behind | kept
    · exact List.mem_append_left out (handed entry old nonempty behind)
    · exact List.mem_append_right delivered
        (booked.handed entry.1 entry.2 (Or.inl kept) nonempty passed)
  · exact List.mem_append_right delivered
      (booked.handed entry.1 entry.2 (Or.inr recent) nonempty passed)

theorem accounts_span : Span 1 (u32Max - 65537) := by
  refine ⟨Nat.le_refl _, ?_, ?_⟩ <;> decide

theorem enter_balanced {before : Nat} (ledger : Ledger) (op : Op)
    (allowed : op.Queued ∧ ∀ seq ∈ op.seqs, seq < u32Max - 65536)
    (balanced : Balanced before ledger) : Balanced before (ledger.enter op) := by
  obtain ⟨skipped, counted, blank, books⟩ := balanced.books
  have history := balanced.history
  have room : u32Max - 65537 + 65537 ≤ u32Max := by decide
  cases op with
  | direct input => exact allowed.1.elim
  | insert seq frame now =>
    by_cases zero : seq = 0
    · subst seq
      rw [enter_zero]
      exact balanced
    · have limit := allowed.2 seq (List.mem_singleton_self seq)
      have booked := insertInto_booked ledger.trace.buffer history.settled history.based room
        balanced.bounded seq frame now (by omega) (by omega)
      have moved := booked.moved
      have shows := perform_shown ledger.trace (.insert seq frame now) (by simp)
      refine ⟨perform_history ledger.trace (.insert seq frame now) accounts_span ?_ history, ?_,
        ?_, handed_extend history balanced.handed booked, ?_, skipped, ?_, ?_, ?_⟩
      · intro number member
        rw [List.mem_singleton.mp member]
        omega
      · exact booked.counted ▸ saturatingAdd_le _ _
      · rw [Ledger.enter, shows, balanced.shows, shown_append]
      · have nonzero := learn_nonzero ledger.trace.buffer seq zero
        simp only [Ledger.enter, Op.arrival, if_neg zero, perform]
        simp only [List.append_eq_nil_iff, List.cons_ne_self, and_false, false_iff]
        omega
      · change (insertInto ledger.trace.buffer seq frame now).1.stats.skippedFrames = _
        rw [booked.counted, counted, saturatingAdd_saturatingAdd, Nat.add_zero]
      · simp [Ledger.enter, Op.arrival, zero]
      · intro first head
        change (insertInto ledger.trace.buffer seq frame now).1.expectedSeq = _
        simp only [Ledger.enter, List.length_append]
        simp only [Ledger.enter, Op.arrival, if_neg zero] at head
        by_cases fresh : ledger.arrived = []
        · -- the first number teaches the base, and nothing was released before it
          obtain ⟨none, unskipped⟩ := blank fresh
          have unlearned := balanced.learned.mp fresh
          rw [fresh, List.nil_append, List.head?_cons] at head
          cases head
          rw [learn, if_pos unlearned] at moved
          rw [none, List.length_nil]
          change _ = seq + _ + _
          change _ = seq + _ + _ at moved
          omega
        · have known : ledger.trace.buffer.expectedSeq ≠ 0 :=
            fun unlearned => fresh (balanced.learned.mpr unlearned)
          rw [List.head?_append_of_ne_nil _ fresh] at head
          have old := books first head
          rw [learn, if_neg known] at moved
          omega
  | timeout now =>
    obtain ⟨delta, booked, quiet⟩ := flushTimeoutInto_booked ledger.trace.buffer
      history.settled history.based room balanced.bounded now
    have moved := booked.moved
    have shows := perform_shown ledger.trace (.timeout now) (by simp)
    have handed := handed_extend history balanced.handed booked
    have arrived : (ledger.enter (.timeout now)).arrived = ledger.arrived :=
      List.append_nil ledger.arrived
    have released : (ledger.enter (.timeout now)).released =
        ledger.released ++ timeoutReleases ledger.trace.buffer now := rfl
    refine ⟨perform_history ledger.trace (.timeout now) accounts_span ?_ history, ?_,
      ?_, ?_, ?_, skipped + delta, ?_, ?_, ?_⟩
    · intro number member
      cases member
    · exact booked.counted ▸ saturatingAdd_le _ _
    · rw [Ledger.enter, shows, balanced.shows, shown_append]
    · rw [List.append_nil] at handed
      exact handed
    · rw [arrived, balanced.learned]
      change _ ↔ (flushTimeoutInto ledger.trace.buffer now).1.expectedSeq = 0
      constructor
      · intro unlearned
        obtain ⟨nothing, unskipped⟩ := quiet unlearned
        rw [nothing, List.length_nil] at moved
        omega
      · omega
    · change (flushTimeoutInto ledger.trace.buffer now).1.stats.skippedFrames = _
      rw [booked.counted, counted, saturatingAdd_saturatingAdd]
    · intro fresh
      rw [arrived] at fresh
      obtain ⟨none, unskipped⟩ := blank fresh
      obtain ⟨nothing, waited⟩ := quiet (balanced.learned.mp fresh)
      rw [released, none, nothing]
      exact ⟨rfl, by omega⟩
    · intro first head
      rw [arrived] at head
      have old := books first head
      rw [released, List.length_append]
      change (flushTimeoutInto ledger.trace.buffer now).1.expectedSeq = _
      omega

theorem Reachable.skipped_le {buffer : ReorderBuffer} (reachable : Reachable buffer) :
    buffer.stats.skippedFrames ≤ u64Max := by
  have stable : Stable fun buffer => buffer.stats.skippedFrames ≤ u64Max := by
    refine ⟨?_, ?_, fun _ _ _ bounded => bounded, fun _ _ bounded => bounded⟩
    · rintro buffer _ _ stats (same | small) bounded
      · exact same ▸ bounded
      · exact small
    · intro buffer grown required result bounded
      rw [(growWindow_keeps result).2]
      exact bounded
  exact reachable.stable stable (Nat.zero_le _) fun _ bounded => bounded

theorem opened_balanced (buffer : ReorderBuffer) (fresh : Fresh buffer) :
    Balanced buffer.stats.skippedFrames (opened buffer) := by
  have unlearned : buffer.expectedSeq = 0 := by
    cases fresh <;> rfl
  have bounded : buffer.stats.skippedFrames ≤ u64Max := by
    cases fresh with
    | new => exact Nat.zero_le _
    | reset reachable => exact reachable.skipped_le
  refine ⟨fresh_history buffer fresh, bounded, rfl, ?_, ?_, 0, ?_, ?_, ?_⟩
  · intro entry member
    cases member
  · exact ⟨fun _ => unlearned, fun _ => rfl⟩
  · exact (saturatingAdd_zero _ bounded).symm
  · exact fun _ => ⟨rfl, rfl⟩
  · intro first head
    cases head

end Ledger

section Complete

variable {before : Nat} (buffer : ReorderBuffer)

theorem acceptedBy_near (settled : Settled buffer) (seq : Nat) (frame : Frame) (number : seq ≠ 0)
    (below : seq ≤ u32Max) (ahead : (learn buffer seq).expectedSeq ≤ seq)
    (near : seq < (learn buffer seq).expectedSeq + reorderMaxWindow)
    (vacant : ∀ content, ¬ Occupied buffer seq content) :
    acceptedBy buffer seq frame = [(seq, frame)] := by
  have distance : asI32 (wrappingSub seq (learn buffer seq).expectedSeq) =
      ((seq - (learn buffer seq).expectedSeq : Nat) : Int) := by
    rw [wrappingSub_ordered seq _ ahead below]
    unfold asI32
    unfold reorderMaxWindow at near
    rw [if_pos (by omega)]
  obtain ⟨roomy, room, regrown, fits⟩ := makeRoom_near (learn buffer seq)
    (learn_shape buffer settled seq) (seq - (learn buffer seq).expectedSeq) (by omega)
  have kept := regrown.expectedSeq
  have open_ : roomy.ring (seq % roomy.size) = none := by
    rw [regrown.shape.vacant_iff seq (by omega) (by omega)]
    intro content held
    exact vacant content ((learn_occupied buffer seq seq content).mp ((regrown.held seq content).mp held))
  have placed : (place buffer seq frame).2 = true := by
    rw [place, admitFrame, distance]
    simp only [if_neg (show ¬ ((seq - (learn buffer seq).expectedSeq : Nat) : Int) < 0 by omega),
      Int.toNat_natCast, room, regrown.shape.sized.slotOf_eq, open_, Option.isSome_none,
      Bool.false_eq_true, ↓reduceIte]
  rw [acceptedBy, if_pos ⟨number, placed⟩]

def Prompt (ledger : Ledger) : Op → Prop
  | .insert seq _ _ => ledger.trace.buffer.expectedSeq ≠ 0 →
      seq < ledger.trace.buffer.expectedSeq + reorderMaxWindow
  | .direct _ => True
  | .timeout now => ∀ since ∈ ledger.trace.buffer.gapSince, now - since < reorderSkipDelay

instance (ledger : Ledger) (op : Op) : Decidable (Prompt ledger op) := by
  unfold Prompt
  exact match op with
    | .insert _ _ _ => inferInstance
    | .direct _ => .isTrue trivial
    | .timeout _ => inferInstance

def Least (ledger : Ledger) (op : Op) : Prop :=
  ∀ first, ledger.arrived.head? = some first → ∀ entry ∈ op.arrival, first.1 ≤ entry.1

theorem arrived_grows (ledger : Ledger) (ops : List Op) :
    ledger.arrived <+: (ops.foldl Ledger.enter ledger).arrived := by
  induction ops generalizing ledger with
  | nil => exact List.prefix_refl _
  | cons op rest ih => exact (List.prefix_append _ _).trans (ih (ledger.enter op))

theorem least_along (ledger : Ledger) (ops : List Op)
    (smallest : ∀ first, (ops.foldl Ledger.enter ledger).arrived.head? = some first →
      ∀ entry ∈ (ops.foldl Ledger.enter ledger).arrived, first.1 ≤ entry.1) :
    Runs.Along (Runs.total Ledger.enter) Least ledger ops := by
  induction ops generalizing ledger with
  | nil => trivial
  | cons op rest ih =>
    refine ⟨?_, ih (ledger.enter op) smallest⟩
    intro first head entry member
    obtain ⟨later, grown⟩ := arrived_grows (ledger.enter op) rest
    apply smallest first
    · rw [List.foldl_cons, ← grown]
      simp only [Ledger.enter, List.head?_append, head, Option.some_or]
    · rw [List.foldl_cons, ← grown]
      exact List.mem_append_left later (List.mem_append_right ledger.arrived member)

/-- While nothing is skipped: what arrived first under each number was accepted,
and the numbers from the first one up to the base all were. -/
structure Unbroken (ledger : Ledger) : Prop where
  source : ∀ entry ∈ ledger.trace.accepted, entry ∈ ledger.arrived
  taken : ∀ entry, ledger.arrived.find? (fun other => other.1 == entry.1) = some entry →
    entry ∈ ledger.trace.accepted
  dense : ∀ first, ledger.arrived.head? = some first → ∀ seq, first.1 ≤ seq →
    seq < ledger.trace.buffer.expectedSeq → seq ∈ ledger.trace.accepted.map Prod.fst

theorem flushTimeoutInto_early (now : Nat)
    (early : ∀ since ∈ buffer.gapSince, now - since < reorderSkipDelay) :
    flushTimeoutInto buffer now = (buffer, []) := by
  unfold flushTimeoutInto
  cases armed : buffer.gapSince with
  | none => rfl
  | some since => simp only [if_pos (Or.inl (early since armed) :
      now - since < reorderSkipDelay ∨ hasGap buffer = false)]

theorem acceptedBy_subset (seq : Nat) (frame : Frame) :
    ∀ entry ∈ acceptedBy buffer seq frame, entry = (seq, frame) := by
  intro entry member
  unfold acceptedBy at member
  split at member
  · exact List.mem_singleton.mp member
  · cases member

theorem Unbroken.accepts {ledger : Ledger} (unbroken : Unbroken ledger)
    (balanced : Balanced before ledger) (seq : Nat) (frame : Frame) (now : Nat) (number : seq ≠ 0)
    (below : seq ≤ u32Max) (prompt : Prompt ledger (.insert seq frame now))
    (least : Least ledger (.insert seq frame now))
    (unseen : ∀ entry ∈ ledger.arrived, entry.1 ≠ seq) :
    acceptedBy ledger.trace.buffer seq frame = [(seq, frame)] := by
  have near : (learn ledger.trace.buffer seq).expectedSeq ≤ seq ∧
      seq < (learn ledger.trace.buffer seq).expectedSeq + reorderMaxWindow := by
    by_cases unlearned : ledger.trace.buffer.expectedSeq = 0
    · rw [learn, if_pos unlearned]
      exact ⟨Nat.le_refl _, Nat.lt_add_of_pos_right (by decide)⟩
    · rw [learn, if_neg unlearned]
      refine ⟨?_, prompt unlearned⟩
      by_contra behind
      cases head : ledger.arrived.head? with
      | none => exact unlearned (balanced.learned.mp (List.head?_eq_none_iff.mp head))
      | some first =>
        have above := least first head (seq, frame) (by simp [Op.arrival, number])
        have accepted := unbroken.dense first head seq above (by omega)
        obtain ⟨entry, member, same⟩ := List.mem_map.mp accepted
        exact unseen entry (unbroken.source entry member) same
  apply acceptedBy_near ledger.trace.buffer balanced.history.settled seq frame number below near.1
    near.2
  intro content held
  exact unseen (seq, content) (unbroken.source _ (balanced.history.held seq content held)) rfl

theorem enter_unbroken (ledger : Ledger) (op : Op)
    (allowed : op.Queued ∧ ∀ seq ∈ op.seqs, seq < u32Max - 65536) (prompt : Prompt ledger op)
    (least : Least ledger op) (balanced : Balanced before ledger) (unbroken : Unbroken ledger) :
    Unbroken (ledger.enter op) := by
  have history := balanced.history
  cases op with
  | direct input => exact allowed.1.elim
  | timeout now =>
    have same : perform ledger.trace (.timeout now) = ledger.trace := by
      simp only [perform, flushTimeoutInto_early _ now prompt, List.append_nil]
    have arrived : (ledger.enter (.timeout now)).arrived = ledger.arrived :=
      List.append_nil ledger.arrived
    refine ⟨?_, ?_, ?_⟩
    · rw [arrived, Ledger.enter, same]
      exact unbroken.source
    · rw [arrived, Ledger.enter, same]
      exact unbroken.taken
    · rw [arrived, Ledger.enter, same]
      exact unbroken.dense
  | insert seq frame now =>
    by_cases zero : seq = 0
    · subst seq
      rw [enter_zero]
      exact unbroken
    · have limit := allowed.2 seq (List.mem_singleton_self seq)
      have arrival : (Op.insert seq frame now).arrival = [(seq, frame)] := if_neg zero
      have arrived : (ledger.enter (.insert seq frame now)).arrived =
          ledger.arrived ++ [(seq, frame)] := by
        rw [Ledger.enter, arrival]
      have booked := insertInto_booked ledger.trace.buffer history.settled history.based
        (by decide : u32Max - 65537 + 65537 ≤ u32Max) balanced.bounded seq frame now (by omega)
        (by omega)
      refine ⟨?_, ?_, ?_⟩
      · rw [arrived]
        intro entry member
        rcases List.mem_append.mp member with old | recent
        · exact List.mem_append_left _ (unbroken.source entry old)
        · rw [acceptedBy_subset _ _ _ entry recent]
          exact List.mem_append_right _ (List.mem_singleton_self _)
      · rw [arrived]
        intro entry found
        rw [List.find?_append] at found
        cases earlier : ledger.arrived.find? (fun other => other.1 == entry.1) with
        | some old =>
          rw [earlier] at found
          cases found
          exact List.mem_append_left _ (unbroken.taken entry earlier)
        | none =>
          rw [earlier, Option.none_or] at found
          have isNew : entry = (seq, frame) := by
            have member := List.mem_of_find?_eq_some found
            exact List.mem_singleton.mp member
          subst entry
          have accepted := unbroken.accepts balanced seq frame now zero (by omega) prompt least
            fun old member same => by
              have miss := List.find?_eq_none.mp earlier old member
              simp [same] at miss
          change (seq, frame) ∈ ledger.trace.accepted ++ acceptedBy ledger.trace.buffer seq frame
          rw [accepted]
          exact List.mem_append_right _ (List.mem_singleton_self _)
      · rw [arrived]
        intro first head other above below
        change other ∈ (ledger.trace.accepted ++ acceptedBy ledger.trace.buffer seq frame).map Prod.fst
        change other < (insertInto ledger.trace.buffer seq frame now).1.expectedSeq at below
        by_cases passed : (learn ledger.trace.buffer seq).expectedSeq ≤ other
        · -- the flush moved over it, so it was stored or is the new frame
          obtain ⟨content, held | recent⟩ := booked.filled other (by omega) below
          · exact List.mem_map.mpr ⟨(other, content),
              List.mem_append_left _ (history.held other content held), rfl⟩
          · exact List.mem_map.mpr ⟨(other, content), List.mem_append_right _ recent, rfl⟩
        · by_cases unlearned : ledger.trace.buffer.expectedSeq = 0
          · -- the first number is the base itself
            rw [balanced.learned.mpr unlearned, List.nil_append, List.head?_cons] at head
            cases head
            rw [learn, if_pos unlearned] at passed
            exact absurd above passed
          · rw [List.head?_append_of_ne_nil _ fun none => unlearned (balanced.learned.mp none)] at head
            rw [learn, if_neg unlearned] at passed
            rw [List.map_append]
            exact List.mem_append_left _ (unbroken.dense first head other above (by omega))

theorem run_balanced (ops : List Op) (fresh : Fresh buffer)
    (allowed : ∀ op ∈ ops, op.Queued ∧ ∀ seq ∈ op.seqs, seq < u32Max - 65536) :
    Balanced buffer.stats.skippedFrames (ops.foldl Ledger.enter (opened buffer)) :=
  Runs.invariant_total Ledger.enter
    (fun _ op => op.Queued ∧ ∀ seq ∈ op.seqs, seq < u32Max - 65536)
    (Balanced buffer.stats.skippedFrames) enter_balanced (opened buffer) ops
    (Runs.along_of_labels (Runs.total Ledger.enter) ops (opened buffer) allowed)
    (opened_balanced buffer fresh)

theorem opened_unbroken : Unbroken (opened buffer) := by
  refine ⟨?_, ?_, ?_⟩
  · intro entry member
    cases member
  · intro entry found
    cases found
  · intro first head
    cases head

theorem run_unbroken (ops : List Op) (fresh : Fresh buffer)
    (allowed : ∀ op ∈ ops, op.Queued ∧ ∀ seq ∈ op.seqs, seq < u32Max - 65536)
    (prompt : Runs.Along (Runs.total Ledger.enter) Prompt (opened buffer) ops)
    (smallest : ∀ first, (ops.foldl Ledger.enter (opened buffer)).arrived.head? = some first →
      ∀ entry ∈ (ops.foldl Ledger.enter (opened buffer)).arrived, first.1 ≤ entry.1) :
    Unbroken (ops.foldl Ledger.enter (opened buffer)) := by
  have guarded := (prompt.and ops _ (least_along (opened buffer) ops smallest)).labels ops _ allowed
  have kept := Runs.invariant_total Ledger.enter _
    (fun ledger => Balanced buffer.stats.skippedFrames ledger ∧ Unbroken ledger)
    (by
      rintro ledger op ⟨⟨promptly, least⟩, allowed⟩ ⟨balanced, unbroken⟩
      exact ⟨enter_balanced ledger op allowed balanced,
        enter_unbroken ledger op allowed promptly least balanced unbroken⟩)
    (opened buffer) ops guarded
    ⟨opened_balanced buffer fresh, opened_unbroken buffer⟩
  exact kept.2

end Complete

/-- Completeness and accounts of the reorder buffer since `new` or `reset`. If the
first number is the smallest, the numbers form an interval, each arrives less
than a maximal window ahead of the base and no timeout fires, then at the end the
ring is empty and the first frame of each number is delivered unless it is empty.
In every run the base is the first number plus the frames delivered, the empty
frames released and the numbers skipped since the start. -/
theorem reorder_complete_and_accounted (buffer : ReorderBuffer) (ops : List Op)
    (fresh : Fresh buffer)
    (allowed : ∀ op ∈ ops, op.Queued ∧ ∀ seq ∈ op.seqs, seq < u32Max - 65536) :
    let final := ops.foldl Ledger.enter (opened buffer)
    let reached := ops.foldl perform (start buffer)
    ((∀ first, final.arrived.head? = some first →
        (∀ entry ∈ final.arrived, first.1 ≤ entry.1) →
        (∀ entry ∈ final.arrived, ∀ seq, first.1 ≤ seq → seq ≤ entry.1 →
          seq ∈ final.arrived.map Prod.fst) →
        Runs.Along (Runs.total Ledger.enter) Prompt (opened buffer) ops →
        (∀ index, reached.buffer.ring index = none) ∧
          ∀ entry, final.arrived.find? (fun other => other.1 == entry.1) = some entry →
            entry.2 ≠ [] → entry ∈ reached.delivered) ∧
      ∀ first, final.arrived.head? = some first → ∃ skipped,
        reached.buffer.expectedSeq = first.1 + reached.delivered.length +
          (final.released.filter fun entry => entry.2.isEmpty).length + skipped ∧
        reached.buffer.stats.skippedFrames =
          saturatingAdd buffer.stats.skippedFrames skipped) := by
  intro final reached
  have same : final.trace = reached := enter_trace (opened buffer) ops
  rw [← same]
  have balanced : Balanced buffer.stats.skippedFrames final := run_balanced buffer ops fresh allowed
  have history := balanced.history
  obtain ⟨skipped, counted, _, books⟩ := balanced.books
  refine ⟨?_, ?_⟩
  · intro first head smallest interval prompt
    have unbroken : Unbroken final := run_unbroken buffer ops fresh allowed prompt (by
      intro other same
      rw [head] at same
      cases same
      exact smallest)
    have base := books first head
    -- a frame still stored would lie above the base, and the base itself arrived
    have empty : ∀ index, final.trace.buffer.ring index = none := by
      intro index
      cases stored : final.trace.buffer.ring index with
      | none => rfl
      | some frame =>
        exfalso
        have held := history.settled.shape.occupied index frame stored
        have window := (history.settled.shape.occupied_window _ frame held).1
        have arrived := interval _ (unbroken.source _ (history.held _ frame held))
          final.trace.buffer.expectedSeq (by omega) window
        obtain ⟨other, member, number⟩ := List.mem_map.mp arrived
        cases found : final.arrived.find? (fun other => other.1 == final.trace.buffer.expectedSeq) with
        | none =>
          have miss := List.find?_eq_none.mp found other member
          simp [number] at miss
        | some entry =>
          have same : entry.1 = final.trace.buffer.expectedSeq := by
            simpa using List.find?_some found
          rw [← same] at found
          rcases history.covered entry (unbroken.taken entry found) with behind | here
          · omega
          · have slot := here.1
            rw [same, history.settled.open_] at slot
            cases slot
    refine ⟨empty, ?_⟩
    intro entry found nonempty
    have accepted := unbroken.taken entry found
    rcases history.covered entry accepted with behind | here
    · exact balanced.handed entry accepted nonempty behind
    · have slot := here.1
      rw [empty] at slot
      cases slot
  · intro first head
    refine ⟨skipped, ?_, counted⟩
    have moved := books first head
    have split := List.length_eq_length_filter_add (l := final.released) fun entry => entry.2.isEmpty
    rw [balanced.shows, shown]
    omega

def intervalOps : List Op :=
  [.insert 1 [7] 0, .insert 3 [9] 1, .insert 3 [5] 2, .timeout 3, .insert 2 [8] 4, .insert 4 [] 5,
    .insert 0 [1] 6]

theorem reorder_complete_interval :
    let final := intervalOps.foldl Ledger.enter (opened new)
    let reached := intervalOps.foldl perform (start new)
    ((∀ index, reached.buffer.ring index = none) ∧
      ∀ entry, final.arrived.find? (fun other => other.1 == entry.1) = some entry →
        entry.2 ≠ [] → entry ∈ reached.delivered) ∧
      ∃ skipped, reached.buffer.expectedSeq = 1 + reached.delivered.length +
          (final.released.filter fun entry => entry.2.isEmpty).length + skipped ∧
        reached.buffer.stats.skippedFrames = saturatingAdd new.stats.skippedFrames skipped := by
  have arrived : (intervalOps.foldl Ledger.enter (opened new)).arrived =
      [(1, [7]), (3, [9]), (3, [5]), (2, [8]), (4, [])] := by
    decide +kernel
  have head : (intervalOps.foldl Ledger.enter (opened new)).arrived.head? = some (1, [7]) := by
    rw [arrived]
    rfl
  have whole := reorder_complete_and_accounted new intervalOps Fresh.new (by decide +kernel)
  refine ⟨whole.1 (1, [7]) head (by decide +kernel) ?_ (by decide +kernel), whole.2 (1, [7]) head⟩
  rw [arrived]
  intro entry member seq low high
  simp only [List.mem_cons, List.not_mem_nil, or_false] at member
  simp only [List.map_cons, List.map_nil, List.mem_cons, List.not_mem_nil, or_false]
  rcases member with rfl | rfl | rfl | rfl | rfl <;> (simp only at low high; omega)

end TlsVpn.Reorder

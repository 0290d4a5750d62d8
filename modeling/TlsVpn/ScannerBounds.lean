import TlsVpn.FrameScanner

/-!
What one call of `read_frame` costs, on any stream and however it is split into
reads: a call that asks for more bytes has less than a frame of the largest size
unread, so every read brings that frame nearer to its end, and no read is asked for
more than 16384 bytes.
-/

namespace TlsVpn.Framing

open Words XorBytes Fec Delimited

section Turns

@[irreducible]
def largestFrame (limit : Nat) : Nat := 10 + limit + 65535

theorem largestFrame_pos (limit : Nat) : 0 < largestFrame limit := by
  unfold largestFrame
  omega

/-- The reads of one call of `read_frame`. -/
def FrameScanner.turns (allocator : Allocator) (scanner : FrameScanner)
    (arrivals : List Arrival) : List (FrameScanner × Option FrameScanner) :=
  (scanner.readLogged allocator arrivals).1

def FrameScanner.successfulReads (allocator : Allocator) (scanner : FrameScanner)
    (arrivals : List Arrival) : Nat :=
  ((scanner.turns allocator arrivals).filterMap Prod.snd).length

def callNext (allocator : Allocator) (state : FrameScanner × List Arrival) :
    FrameScanner × List Arrival :=
  (state.1.readFrame allocator state.2).2

end Turns

section Bounds

structure Bounded (limit : Nat) (scanner : FrameScanner) : Prop where
  limited : scanner.maxDataLen = limit
  unread : scanner.unread.length < largestFrame limit + 16384
  whole : scanner.lazyCompact = false →
    scanner.buffer.length < largestFrame limit + 2 * 16384

structure Asking (limit : Nat) (ready : FrameScanner) : Prop where
  limited : ready.maxDataLen = limit
  unread : ready.unread.length < largestFrame limit
  whole : ready.lazyCompact = false → ready.buffer.length < largestFrame limit + 16384
  spare : 0 < ready.spare

variable {limit : Nat} {scanner : FrameScanner} {allocator : Allocator}
variable {ready after taken : FrameScanner}

theorem Asking.bounded (asking : Asking limit ready) :
    Bounded limit ready where
  limited := asking.limited
  unread := Nat.lt_add_right _ asking.unread
  whole eager := (asking.whole eager).trans (by omega)

theorem Asking.filled (asking : Asking limit ready) (piece : Bytes)
    (room : piece.length ≤ ready.spare) : Bounded limit (ready.filled piece room) := by
  have small : piece.length ≤ 16384 := room.trans (Nat.min_le_right _ _)
  refine ⟨asking.limited, ?_, ?_⟩
  · have unread := asking.unread
    rw [filled_unread, List.length_append]
    omega
  · intro eager
    have whole := asking.whole eager
    change (ready.buffer ++ piece).length < _
    rw [List.length_append]
    omega

theorem compactConsumed_whole (eager : scanner.lazyCompact = false) :
    (scanner.compactConsumed true).buffer.length ≤ scanner.unread.length + 16384 := by
  unfold FrameScanner.compactConsumed FrameScanner.postpones
  rw [eager, if_neg (by simp)]
  split
  · exact Nat.le_add_right _ _
  · rename_i stays
    have unread : scanner.unread.length = scanner.buffer.length - scanner.offset :=
      List.length_drop
    have short : ¬ scanner.offset > 16384 := by
      intro long
      apply stays
      unfold FrameScanner.compacts
      rw [eager, decide_eq_true (by omega : scanner.offset > 0), decide_eq_true long]
      simp
    omega

structure Shrinks (scanner after : FrameScanner) : Prop where
  limit : after.maxDataLen = scanner.maxDataLen
  mode : after.lazyCompact = scanner.lazyCompact
  unread : after.unread.length ≤ scanner.unread.length
  buffer : after.buffer.length ≤ scanner.buffer.length

theorem compactConsumed_shrinks (scanner : FrameScanner) (beforeRead : Bool) :
    Shrinks scanner (scanner.compactConsumed beforeRead) := by
  have same := compactConsumed_same scanner beforeRead
  refine ⟨same.limit, ?_, same.unread ▸ Nat.le_refl _, ?_⟩ <;>
    unfold FrameScanner.compactConsumed <;> split
  · rfl
  · split <;> rfl
  · exact Nat.le_refl _
  · split
    · exact (List.drop_sublist _ _).length_le
    · exact Nat.le_refl _

theorem Shrinks.advanced {count : Nat} {there : count ≤ scanner.buffer.length - scanner.offset}
    (shrinks : Shrinks (scanner.advance count there) after) :
    Shrinks scanner after where
  limit := shrinks.limit
  mode := shrinks.mode
  unread := by
    apply shrinks.unread.trans
    rw [advance_unread, List.length_drop]
    exact Nat.sub_le _ _
  buffer := shrinks.buffer

theorem makeRoom_asking (limited : scanner.maxDataLen = limit)
    (short : scanner.unread.length < largestFrame limit) :
    Asking limit (scanner.makeRoom allocator) := by
  have same := makeRoom_same allocator scanner
  refine ⟨same.limit.trans limited, by rwa [same.unread], ?_, makeRoom_spare allocator⟩
  have buffer : (scanner.makeRoom allocator).buffer = (scanner.compactConsumed true).buffer ∧
      (scanner.makeRoom allocator).lazyCompact = (scanner.compactConsumed true).lazyCompact := by
    unfold FrameScanner.makeRoom
    dsimp only
    split <;> exact ⟨rfl, rfl⟩
  intro eager
  rw [buffer.2, (compactConsumed_shrinks scanner true).mode] at eager
  have whole := compactConsumed_whole eager
  rw [buffer.1]
  omega

theorem Bounded.shrinks (bounded : Bounded limit scanner) (shrinks : Shrinks scanner after) :
    Bounded limit after where
  limited := shrinks.limit.trans bounded.limited
  unread := Nat.lt_of_le_of_lt shrinks.unread bounded.unread
  whole eager := Nat.lt_of_le_of_lt shrinks.buffer (bounded.whole (shrinks.mode ▸ eager))

theorem takeBufferedFrame_shrinks (scanner : FrameScanner) :
    Shrinks scanner scanner.takeBufferedFrame.2 ∧
      ∀ error, scanner.takeBufferedFrame.1 = .error error →
        scanner.takeBufferedFrame.2.buffer = [] := by
  have still : Shrinks scanner scanner := ⟨rfl, rfl, Nat.le_refl _, Nat.le_refl _⟩
  unfold FrameScanner.takeBufferedFrame
  dsimp only
  split
  · exact ⟨still, by rintro error ⟨⟩⟩
  · split
    · exact ⟨⟨rfl, rfl, Nat.zero_le _, Nat.zero_le _⟩, fun _ _ => rfl⟩
    · split
      · exact ⟨still, by rintro error ⟨⟩⟩
      · rename_i whole
        refine ⟨?_, by rintro error ⟨⟩⟩
        exact (compactConsumed_shrinks _ false).advanced

theorem decodeRecord_more {bytes : Bytes} (more : decodeRecord limit bytes = .more) :
    bytes.length < largestFrame limit := by
  have padding := readBe16_word (bytes.drop 4)
  unfold decodeRecord headerSize at more
  unfold largestFrame
  dsimp only at more
  split at more
  · omega
  · split at more
    · cases more
    · split at more
      · omega
      · cases more

theorem waiting_short (limited : scanner.maxDataLen = limit)
    (waits : scanner.takeBufferedFrame = (.ok none, taken)) :
    taken = scanner ∧ scanner.unread.length < largestFrame limit := by
  have verdict := takeBufferedFrame_taken scanner
  rw [waits, limited] at verdict
  generalize decoded : decodeRecord limit scanner.unread = answer at verdict
  cases verdict with
  | waits => exact ⟨rfl, decodeRecord_more decoded⟩

theorem waiting_asking (bounded : Bounded limit scanner)
    (waits : scanner.takeBufferedFrame = (.ok none, taken)) :
    Asking limit (taken.makeRoom allocator) := by
  obtain ⟨rfl, short⟩ := waiting_short bounded.limited waits
  exact makeRoom_asking bounded.limited short

/-- A read that brings nothing leaves the scanner it was offered. -/
theorem Asking.last (asking : Asking limit ready) :
    ∀ turn ∈ [(ready, (none : Option FrameScanner))], Asking limit turn.1 ∧
      ∀ after, turn.2 = some after → Bounded limit after := by
  intro turn member
  rw [List.mem_singleton.mp member]
  exact ⟨asking, by rintro after ⟨⟩⟩

theorem turns_bounded (bounded : Bounded limit scanner) (arrivals : List Arrival) :
    (∀ turn ∈ scanner.turns allocator arrivals, Asking limit turn.1 ∧
        ∀ after, turn.2 = some after → Bounded limit after) ∧
      scanner.successfulReads allocator arrivals ≤ largestFrame limit - scanner.unread.length := by
  unfold FrameScanner.successfulReads FrameScanner.turns
  fun_induction FrameScanner.readLogged allocator scanner arrivals with
  | case1 | case2 => exact ⟨List.forall_mem_nil _, Nat.zero_le _⟩
  | case3 scanner arrivals taken waits ready rest arrived =>
    exact ⟨(waiting_asking bounded waits).last, Nat.zero_le _⟩
  | case4 scanner arrivals taken waits ready code rest arrived =>
    exact ⟨(waiting_asking bounded waits).last, Nat.zero_le _⟩
  | case5 scanner arrivals taken waits ready rest arrived =>
    exact ⟨(waiting_asking bounded waits).last, Nat.zero_le _⟩
  | case6 scanner arrivals taken waits ready piece rest arrived nonempty reads after _ ih =>
    have asking : Asking limit ready := waiting_asking bounded waits
    obtain ⟨rfl, short⟩ := waiting_short bounded.limited waits
    have filled : Bounded limit after := asking.filled piece _
    obtain ⟨later, count⟩ := ih filled
    refine ⟨List.forall_mem_cons.mpr ⟨⟨asking, ?_⟩, later⟩, ?_⟩
    · rintro _ ⟨⟩
      exact filled
    · -- the bytes of this read are one at least, and the frame was not complete without them
      have same : ready.unread = taken.unread := (makeRoom_same allocator taken).unread
      have grown : after.unread = ready.unread ++ piece := filled_unread ready piece _
      have length := congrArg List.length grown
      rw [same, List.length_append] at length
      have brought := List.length_pos_iff.mpr nonempty
      change (List.filterMap Prod.snd (after.readLogged allocator rest).1).length + 1 ≤ _
      omega

theorem readFrame_bounded (bounded : Bounded limit scanner) (arrivals : List Arrival) :
    Bounded limit (scanner.readFrame allocator arrivals).2.1 ∧
      ((scanner.readFrame allocator arrivals).1 = .error .invalidLength →
        (scanner.readFrame allocator arrivals).2.1.buffer = []) := by
  unfold FrameScanner.readFrame
  fun_induction FrameScanner.readLogged allocator scanner arrivals with
  | case1 scanner arrivals error after took =>
    obtain ⟨shrinks, emptied⟩ := takeBufferedFrame_shrinks scanner
    rw [took] at shrinks emptied
    exact ⟨bounded.shrinks shrinks, fun _ => emptied error rfl⟩
  | case2 scanner arrivals frame after took =>
    obtain ⟨shrinks, -⟩ := takeBufferedFrame_shrinks scanner
    rw [took] at shrinks
    exact ⟨bounded.shrinks shrinks, by rintro ⟨⟩⟩
  | case3 scanner arrivals taken waits ready rest arrived =>
    exact ⟨(waiting_asking bounded waits).bounded, by rintro ⟨⟩⟩
  | case4 scanner arrivals taken waits ready code rest arrived =>
    exact ⟨(waiting_asking bounded waits).bounded, by rintro ⟨⟩⟩
  | case5 scanner arrivals taken waits ready rest arrived =>
    exact ⟨(waiting_asking bounded waits).bounded, by rintro ⟨⟩⟩
  | case6 scanner arrivals taken waits ready piece rest arrived nonempty reads _ _ ih =>
    have asking : Asking limit ready := waiting_asking bounded waits
    exact ih (asking.filled piece _)

theorem start_bounded (allocator : Allocator) (lazyCompact : Bool) (limit : Nat) :
    Bounded limit ((FrameScanner.new allocator lazyCompact).setMaxDataLen limit) where
  limited := rfl
  unread := Nat.lt_add_right _ (largestFrame_pos limit)
  whole _ := Nat.lt_add_right _ (largestFrame_pos limit)

/-- A call of `read_frame`: what its reads find and leave, how many succeed, and what is held at
its end, which is nothing after a header over the limit. -/
structure CallBounds (allocator : Allocator) (limit : Nat) (scanner : FrameScanner)
    (arrivals : List Arrival) : Prop where
  offers : ∀ turn ∈ scanner.turns allocator arrivals, 0 < turn.1.spare ∧ Bounded limit turn.1 ∧
    ∀ after, turn.2 = some after → Bounded limit after
  reads : scanner.successfulReads allocator arrivals ≤ 10 + limit + 65535
  holds : Bounded limit (scanner.readFrame allocator arrivals).2.1
  rejects : (scanner.readFrame allocator arrivals).1 = .error .invalidLength →
    (scanner.readFrame allocator arrivals).2.1.buffer = []

theorem Bounded.call (bounded : Bounded limit scanner) (arrivals : List Arrival) :
    CallBounds allocator limit scanner arrivals := by
  obtain ⟨turns, count⟩ := @turns_bounded limit scanner allocator bounded arrivals
  obtain ⟨holds, rejects⟩ := @readFrame_bounded limit scanner allocator bounded arrivals
  refine ⟨?_, ?_, holds, rejects⟩
  · intro turn member
    obtain ⟨asking, after⟩ := turns turn member
    exact ⟨asking.spare, asking.bounded, after⟩
  · unfold largestFrame at count
    omega

/-- Every call keeps to the bounds, whatever the reader brings, however it splits it, and however
many calls there were. -/
theorem scanner_bounds (allocator : Allocator) (lazyCompact : Bool) (limit : Nat)
    (arrivals : List Arrival) (calls : Nat) :
    CallBounds allocator limit
      ((callNext allocator)^[calls]
        ((FrameScanner.new allocator lazyCompact).setMaxDataLen limit, arrivals)).1
      ((callNext allocator)^[calls]
        ((FrameScanner.new allocator lazyCompact).setMaxDataLen limit, arrivals)).2 := by
  apply Bounded.call
  induction calls with
  | zero => exact start_bounded allocator lazyCompact limit
  | succ calls ih =>
    rw [Function.iterate_succ_apply']
    exact (readFrame_bounded ih _).1

end Bounds

end TlsVpn.Framing

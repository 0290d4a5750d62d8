import Mathlib

/-!
The worker behind the client's TAP queue. It sends a batch frame by frame and, in
the same loop, swaps the buffers that go back to the receiver to the front of the
batch; what is left behind them is released. The loops over shared and over owned
frames are the same. An index outside the batch would stop the worker: `none`.
-/

namespace TlsVpn.TapDelivery

variable {Frame : Type}

section Source

def tapReturnFrames : Nat := 32
def tapReturnMaxCapacity : Nat := 2048

/-- `Vec::swap` -/
def swap (items : List Frame) (one other : Nat) : Option (List Frame) := do
  let first ← items[one]?
  let second ← items[other]?
  some ((items.set one second).set other first)

structure Loop (Frame : Type) where
  batch : List Frame
  keep : Nat
  sent : List Frame

variable (recycle : Bool) (capacity : Frame → Nat)

def pass (loop : Loop Frame) (index : Nat) : Option (Loop Frame) := do
  let frame ← loop.batch[index]?
  let sent := loop.sent ++ [frame]
  if recycle ∧ loop.keep < tapReturnFrames ∧ capacity frame = tapReturnMaxCapacity then
    let batch ← swap loop.batch loop.keep index
    some ⟨batch, loop.keep + 1, sent⟩
  else
    some { loop with sent }

structure Delivered (Frame : Type) where
  sent : List Frame
  returned : List Frame
  released : List Frame

def deliver (batch : List Frame) : Option (Delivered Frame) := do
  let loop ← (List.range batch.length).foldlM (pass recycle capacity) ⟨batch, 0, []⟩
  some ⟨loop.sent, loop.batch.take loop.keep, loop.batch.drop loop.keep⟩

end Source

section Swapping

variable (recycle : Bool) (capacity : Frame → Nat)

def kept (frames : List Frame) : List Frame :=
  if recycle then (frames.filter fun frame => capacity frame = tapReturnMaxCapacity).take
    tapReturnFrames
  else []

theorem kept_snoc (done : List Frame) (frame : Frame) :
    kept recycle capacity (done ++ [frame]) = kept recycle capacity done ++
      if recycle ∧ (kept recycle capacity done).length < tapReturnFrames ∧
        capacity frame = tapReturnMaxCapacity then [frame] else [] := by
  cases recycle with
  | false => rfl
  | true =>
    simp only [kept, if_true, List.filter_append, List.take_append, List.length_take, true_and]
    congr 1
    by_cases fits : capacity frame = tapReturnMaxCapacity
    · split
      · rw [List.take_of_length_le (by simp [fits]; omega)]
        simp [fits]
      · rw [show tapReturnFrames - _ = 0 by omega]
        rfl
    · simp [fits]

theorem swap_behind (front middle rest : List Frame) (frame : Frame) :
    ∃ middle', swap (front ++ middle ++ frame :: rest) front.length (front ++ middle).length =
      some (front ++ [frame] ++ middle' ++ rest) ∧ middle'.Perm middle := by
  cases middle with
  | nil => exact ⟨[], by simp [swap], List.Perm.refl _⟩
  | cons first middle =>
    refine ⟨middle ++ [first], ?_, List.perm_append_singleton first middle⟩
    simp [swap, List.set_append_right]

/-- The loop between two frames: the kept ones in front, behind them the others
that were sent, then the unsent ones where they were. -/
structure Passed (done rest : List Frame) (loop : Loop Frame) : Prop where
  sent : loop.sent = done
  keep : loop.keep = (kept recycle capacity done).length
  batch : ∃ middle, loop.batch = kept recycle capacity done ++ middle ++ rest ∧
    (kept recycle capacity done ++ middle).Perm done

variable {recycle capacity} {done rest : List Frame} {frame : Frame} {loop : Loop Frame}

theorem pass_passed (before : Passed recycle capacity done (frame :: rest) loop) :
    ∃ after, pass recycle capacity loop done.length = some after ∧
      Passed recycle capacity (done ++ [frame]) rest after := by
  obtain ⟨sent, keep, middle, batch, all⟩ := before
  have place : (kept recycle capacity done ++ middle).length = done.length := all.length_eq
  have current : loop.batch[done.length]? = some frame := by
    rw [batch, ← place, List.getElem?_append_right (Nat.le_refl _), Nat.sub_self]
    rfl
  have next := kept_snoc recycle capacity done frame
  simp only [pass, current, Option.bind_eq_bind, Option.bind_some]
  rw [← keep] at next
  split at next
  · rename_i back
    obtain ⟨middle', swapped, moved⟩ :=
      swap_behind (kept recycle capacity done) middle rest frame
    rw [← batch, ← keep, place] at swapped
    rw [if_pos back, swapped]
    refine ⟨_, rfl, by rw [sent], by simp [next, keep], middle', by rw [next], ?_⟩
    have joined := (moved.append_right [frame]).append_left (kept recycle capacity done)
    rw [next, List.append_assoc]
    refine ((List.perm_append_singleton frame middle').symm.append_left _).trans (joined.trans ?_)
    rw [← List.append_assoc]
    exact all.append_right _
  · rename_i other
    rw [if_neg other]
    rw [List.append_nil] at next
    refine ⟨_, rfl, by rw [sent], by rw [next, keep], middle ++ [frame], by simp [next, batch], ?_⟩
    rw [next, ← List.append_assoc]
    exact all.append_right _

theorem loop_passed (before : Passed recycle capacity done rest loop) :
    ∃ after, (List.range' done.length rest.length).foldlM (pass recycle capacity) loop = some after ∧
      Passed recycle capacity (done ++ rest) [] after := by
  induction rest generalizing done loop with
  | nil => exact ⟨loop, rfl, by rwa [List.append_nil]⟩
  | cons frame rest ih =>
    obtain ⟨middle, passed, between⟩ := pass_passed before
    obtain ⟨after, run, whole⟩ := ih between
    rw [List.length_append, List.length_singleton] at run
    rw [List.length_cons, List.range'_succ, List.foldlM_cons, passed]
    refine ⟨after, run, ?_⟩
    rwa [List.append_assoc, List.singleton_append] at whole

end Swapping

/-- A batch of any frames is sent as it is. The first 32 buffers of the receiver's
size go back in that order if buffers are recycled, and the rest is released. -/
theorem tap_worker_delivers (recycle : Bool) (capacity : Frame → Nat) (batch : List Frame) :
    ∃ done, deliver recycle capacity batch = some done ∧ done.sent = batch ∧
      done.returned = (if recycle then
        (batch.filter fun frame => capacity frame = 2048).take 32 else []) ∧
      (done.returned ++ done.released).Perm batch := by
  have first : Passed recycle capacity [] batch ⟨batch, 0, []⟩ :=
    ⟨rfl, by cases recycle <;> rfl, [], by cases recycle <;> rfl, by cases recycle <;> rfl⟩
  obtain ⟨loop, run, sent, keep, middle, arranged, all⟩ := loop_passed first
  rw [List.append_nil] at arranged
  rw [List.nil_append] at keep
  have split : loop.batch.take loop.keep = kept recycle capacity batch := by
    rw [arranged, keep, List.nil_append, List.take_left]
  refine ⟨⟨loop.sent, loop.batch.take loop.keep, loop.batch.drop loop.keep⟩, ?_, sent, split, ?_⟩
  · unfold deliver
    rw [List.range_eq_range']
    exact Option.bind_eq_some_iff.mpr ⟨loop, run, rfl⟩
  · rw [List.take_append_drop, arranged]
    exact all

end TlsVpn.TapDelivery

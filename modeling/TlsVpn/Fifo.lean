import TlsVpn.Runs

/-!
First in, first out, as an equation between lists: what was in a queue and what
came in is what went out and what is left. An operation that satisfies it can
take several elements at once, hand several out, or do both. Over a run the
equations join to one.
-/

namespace TlsVpn.Fifo

open Runs

universe u v w

variable {State : Type u} {Label : Type v} {Element : Type w}

section Contract

variable (update : State → Label → State) (contents : State → List Element)
  (accepted popped : State × Label → List Element)

/-- Every operation adds at the back what it accepts and takes off at the front
what it hands out. -/
def Refines : Prop :=
  ∀ state label, contents state ++ accepted (state, label) =
    popped (state, label) ++ contents (update state label)

variable {update contents accepted popped}

section

variable (refines : Refines update contents accepted popped) (start : State) (labels : List Label)

include refines

theorem Refines.run :
    contents start ++ (visits update start labels).flatMap accepted =
      (visits update start labels).flatMap popped ++ contents (labels.foldl update start) := by
  induction labels generalizing start with
  | nil => exact List.append_nil _
  | cons label rest ih =>
    calc
      contents start ++ (accepted (start, label) ++
          (visits update (update start label) rest).flatMap accepted)
      _ = popped (start, label) ++ (contents (update start label) ++
          (visits update (update start label) rest).flatMap accepted) := by
        rw [← List.append_assoc, refines start label, List.append_assoc]
      _ = (popped (start, label) ++
          (visits update (update start label) rest).flatMap popped) ++
            contents (rest.foldl update (update start label)) := by
        rw [ih (update start label), List.append_assoc]

/-- From an empty queue: everything handed out, then everything left, is
everything accepted, in order. -/
theorem Refines.run_empty (empty : contents start = []) :
    (visits update start labels).flatMap popped ++ contents (labels.foldl update start) =
      (visits update start labels).flatMap accepted := by
  rw [← refines.run start labels, empty, List.nil_append]

end

end Contract

end TlsVpn.Fifo

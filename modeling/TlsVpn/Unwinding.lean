import TlsVpn.Runs

/-!
Steps that leave no trace. Some labels are hidden: their steps emit nothing and
keep the state related to one that did not take them, while every other step can
be followed from a related state with the same output. Then a run emits what the
run without the hidden labels emits.
-/

namespace TlsVpn.Unwinding

universe u v w

variable {State : Type u} {Label : Type v} {Output : Type w}

def outputs (step : State → Label → Option State) (emit : State → Label → List Output) :
    State → List Label → List Output
  | _, [] => []
  | state, label :: rest =>
    emit state label ++
      match step state label with
      | some next => outputs step emit next rest
      | none => []

theorem outputs_cons {step : State → Label → Option State} {emit : State → Label → List Output}
    {state next : State} {label : Label} (taken : step state label = some next)
    (rest : List Label) :
    outputs step emit state (label :: rest) =
      emit state label ++ outputs step emit next rest := by
  rw [outputs, taken]

def purge (hidden : Label → Bool) (labels : List Label) : List Label :=
  labels.filter fun label => !hidden label

theorem purge_cons_hidden {hidden : Label → Bool} {label : Label} (hides : hidden label = true)
    (rest : List Label) : purge hidden (label :: rest) = purge hidden rest := by
  simp [purge, hides]

theorem purge_cons_shown {hidden : Label → Bool} {label : Label} (shows : hidden label = false)
    (rest : List Label) : purge hidden (label :: rest) = label :: purge hidden rest := by
  simp [purge, shows]

theorem outputs_purge (step : State → Label → Option State)
    (emit : State → Label → List Output) (hidden : Label → Bool) (related : State → State → Prop)
    (skips : ∀ state other label next, related state other → hidden label = true →
      step state label = some next → related next other ∧ emit state label = [])
    (follows : ∀ state other label next, related state other → hidden label = false →
      step state label = some next →
      ∃ after, step other label = some after ∧ related next after ∧
        emit other label = emit state label)
    (start other final : State) (labels : List Label)
    (reached : Runs.run step start labels = some final) (initially : related start other) :
    ∃ after, Runs.run step other (purge hidden labels) = some after ∧ related final after ∧
      outputs step emit other (purge hidden labels) = outputs step emit start labels := by
  induction labels generalizing start other with
  | nil =>
    cases reached
    exact ⟨other, rfl, initially, rfl⟩
  | cons label rest ih =>
    obtain ⟨next, taken, tail⟩ := Runs.run_cons step start final label rest reached
    cases shown : hidden label with
    | true =>
      -- the other run stays where it is
      obtain ⟨kept, silent⟩ := skips start other label next initially shown taken
      obtain ⟨after, run, last, same⟩ := ih next other tail kept
      rw [purge_cons_hidden shown, outputs_cons taken, silent, List.nil_append]
      exact ⟨after, run, last, same⟩
    | false =>
      obtain ⟨middle, follow, kept, equal⟩ := follows start other label next initially shown taken
      obtain ⟨after, run, last, same⟩ := ih next middle tail kept
      rw [purge_cons_shown shown, outputs_cons taken, outputs_cons follow, equal, same]
      refine ⟨after, ?_, last, rfl⟩
      rw [Runs.run, follow]
      exact run

end TlsVpn.Unwinding

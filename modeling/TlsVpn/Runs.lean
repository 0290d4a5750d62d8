import Mathlib

/-!
Finite runs of a labelled partial step. A label carries every choice the
environment makes at that step, so one label list is one interleaving. A step
that a lock or a program counter forbids is `none`. `Along` is a condition on
the state before each step of one run.
-/

namespace TlsVpn.Runs

universe u v

variable {State : Type u} {Label : Type v} {step : State → Label → Option State}
  {guard : State → Label → Prop}

def run (step : State → Label → Option State) : State → List Label → Option State
  | state, [] => some state
  | state, label :: rest =>
    match step state label with
    | some next => run step next rest
    | none => none

def Along (step : State → Label → Option State) (guard : State → Label → Prop) :
    State → List Label → Prop
  | _, [] => True
  | state, label :: rest =>
    guard state label ∧
      match step state label with
      | some next => Along step guard next rest
      | none => True

instance decidableAlong (step : State → Label → Option State) (guard : State → Label → Prop)
    [∀ state label, Decidable (guard state label)] :
    ∀ state labels, Decidable (Along step guard state labels)
  | _, [] => .isTrue trivial
  | state, label :: rest => by
    unfold Along
    cases step state label with
    | none => exact inferInstance
    | some next =>
      have := decidableAlong step guard next rest
      exact inferInstance

variable (step) in
theorem run_cons (start final : State) (label : Label) (rest : List Label)
    (reached : run step start (label :: rest) = some final) :
    ∃ next, step start label = some next ∧ run step next rest = some final := by
  unfold run at reached
  cases taken : step start label with
  | none => simp [taken] at reached
  | some next => exact ⟨next, rfl, by simpa [taken] using reached⟩

theorem along_cons {start next : State} {label : Label} (taken : step start label = some next)
    (rest : List Label) :
    Along step guard start (label :: rest) ↔ guard start label ∧ Along step guard next rest := by
  rw [Along, taken]

theorem along_append {start middle : State} {labels rest : List Label}
    (reached : run step start labels = some middle)
    (guarded : Along step guard start (labels ++ rest)) :
    Along step guard start labels ∧ Along step guard middle rest := by
  induction labels generalizing start with
  | nil =>
    cases reached
    exact ⟨trivial, guarded⟩
  | cons label labels ih =>
    obtain ⟨next, taken, tail⟩ := run_cons step start middle label labels reached
    obtain ⟨headGuard, later⟩ := (along_cons taken _).mp guarded
    obtain ⟨front, back⟩ := ih tail later
    exact ⟨(along_cons taken _).mpr ⟨headGuard, front⟩, back⟩

theorem Along.and {left right : State → Label → Prop} (labels : List Label) (start : State)
    (one : Along step left start labels) (other : Along step right start labels) :
    Along step (fun state label => left state label ∧ right state label) start labels := by
  induction labels generalizing start with
  | nil => trivial
  | cons label rest ih =>
    obtain ⟨leftHead, leftTail⟩ := one
    obtain ⟨rightHead, rightTail⟩ := other
    refine ⟨⟨leftHead, rightHead⟩, ?_⟩
    cases taken : step start label with
    | none => trivial
    | some next =>
      rw [taken] at leftTail rightTail
      exact ih next leftTail rightTail

variable (step) in
theorem along_of_labels {allowed : Label → Prop} (labels : List Label) (start : State)
    (all : ∀ label ∈ labels, allowed label) :
    Along step (fun _ label => allowed label) start labels := by
  induction labels generalizing start with
  | nil => trivial
  | cons label rest ih =>
    refine ⟨all label List.mem_cons_self, ?_⟩
    cases taken : step start label with
    | none => trivial
    | some next => exact ih next fun other member => all other (List.mem_cons_of_mem label member)

theorem Along.labels {allowed : Label → Prop} (labels : List Label) (start : State)
    (guarded : Along step guard start labels) (all : ∀ label ∈ labels, allowed label) :
    Along step (fun state label => guard state label ∧ allowed label) start labels :=
  guarded.and labels start (along_of_labels step labels start all)

theorem along_of_all (all : ∀ state label, guard state label) (start : State) (labels : List Label) :
    Along step guard start labels := by
  induction labels generalizing start with
  | nil => trivial
  | cons label rest ih =>
    refine ⟨all start label, ?_⟩
    cases taken : step start label with
    | none => trivial
    | some next => exact ih next

variable (step)

/-- The invariant rule: what one guarded step preserves holds at the end of
every run all of whose steps meet the guard. -/
theorem invariant_along (guard : State → Label → Prop) (invariant : State → Prop)
    (preserved : ∀ state label next, guard state label → invariant state →
      step state label = some next → invariant next) (start final : State) (labels : List Label)
    (reached : run step start labels = some final) (guarded : Along step guard start labels)
    (initially : invariant start) : invariant final := by
  induction labels generalizing start with
  | nil =>
    cases reached
    exact initially
  | cons label rest ih =>
    obtain ⟨next, taken, tail⟩ := run_cons step start final label rest reached
    obtain ⟨headGuard, tailGuard⟩ := (along_cons taken rest).mp guarded
    exact ih next tail tailGuard (preserved start label next headGuard initially taken)

theorem invariant_labels (allowed : Label → Prop) (invariant : State → Prop)
    (preserved : ∀ state label next, allowed label → invariant state →
      step state label = some next → invariant next) (start final : State) (labels : List Label)
    (reached : run step start labels = some final) (all : ∀ label ∈ labels, allowed label)
    (initially : invariant start) : invariant final :=
  invariant_along step (fun _ label => allowed label) invariant preserved start final labels reached
    (along_of_labels step labels start all) initially

theorem along_of_invariant (guard : State → Label → Prop) (invariant : State → Prop)
    (implied : State → Label → Prop)
    (preserved : ∀ state label next, guard state label → invariant state →
      step state label = some next → invariant next)
    (implies : ∀ state label, guard state label → invariant state → implied state label)
    (start : State) (labels : List Label) (guarded : Along step guard start labels)
    (initially : invariant start) : Along step implied start labels := by
  induction labels generalizing start with
  | nil => trivial
  | cons label rest ih =>
    obtain ⟨headGuard, tailGuard⟩ := guarded
    refine ⟨implies start label headGuard initially, ?_⟩
    cases taken : step start label with
    | none => trivial
    | some next =>
      rw [taken] at tailGuard
      exact ih next tailGuard (preserved start label next headGuard initially taken)

/-- The exact guard: if each step of a run keeps a property just when it meets the
guard, then the property holds at every state of the run just when every step
meets it. -/
theorem throughout_iff_along (holds : State → Prop) (guard : State → Label → Prop)
    (start final : State) (labels : List Label)
    (exact : Along step (fun state label => ∀ next, holds state → step state label = some next →
      (holds next ↔ guard state label)) start labels)
    (reached : run step start labels = some final) (initially : holds start) :
    (Along step (fun state _ => holds state) start labels ∧ holds final) ↔
      Along step guard start labels := by
  induction labels generalizing start with
  | nil =>
    cases reached
    exact iff_of_true ⟨trivial, initially⟩ trivial
  | cons label rest ih =>
    obtain ⟨next, taken, tail⟩ := run_cons step start final label rest reached
    rw [along_cons taken] at exact
    have kept := exact.1 next initially taken
    rw [along_cons taken, along_cons taken]
    constructor
    · -- the state after this step is the next one looked at, or the last
      rintro ⟨⟨_, later⟩, last⟩
      have held : holds next := by
        cases rest with
        | nil =>
          cases tail
          exact last
        | cons _ _ => exact later.1
      exact ⟨kept.mp held, (ih next exact.2 tail held).mp ⟨later, last⟩⟩
    · rintro ⟨met, later⟩
      obtain ⟨along, last⟩ := (ih next exact.2 tail (kept.mpr met)).mpr later
      exact ⟨⟨initially, along⟩, last⟩

theorem invariant_run (invariant : State → Prop)
    (preserved : ∀ state label next, invariant state → step state label = some next →
      invariant next) (start final : State) (labels : List Label)
    (reached : run step start labels = some final) (initially : invariant start) :
    invariant final :=
  invariant_labels step (fun _ => True) invariant
    (fun state label next _ held taken => preserved state label next held taken)
    start final labels reached (fun _ _ => trivial) initially

section Total

def total (update : State → Label → State) (state : State) (label : Label) : Option State :=
  some (update state label)

variable (update : State → Label → State)

theorem run_total (start : State) (labels : List Label) :
    run (total update) start labels = some (labels.foldl update start) := by
  induction labels generalizing start with
  | nil => rfl
  | cons label rest ih => exact ih (update start label)

theorem invariant_total (guard : State → Label → Prop) (invariant : State → Prop)
    (preserved : ∀ state label, guard state label → invariant state →
      invariant (update state label))
    (start : State) (labels : List Label)
    (guarded : Along (total update) guard start labels) (initially : invariant start) :
    invariant (labels.foldl update start) := by
  apply invariant_along (total update) guard invariant ?_ start _ labels
    (run_total update start labels) guarded initially
  intro state label next allowed held taken
  cases taken
  exact preserved state label allowed held

def visits (update : State → Label → State) : State → List Label → List (State × Label)
  | _, [] => []
  | state, label :: rest => (state, label) :: visits update (update state label) rest

theorem invariant_visits (invariant : State → Prop)
    (preserved : ∀ state label, invariant state → invariant (update state label))
    (start : State) (labels : List Label) (initially : invariant start) :
    ∀ visit ∈ visits update start labels, invariant visit.1 := by
  induction labels generalizing start with
  | nil => exact List.forall_mem_nil _
  | cons label rest ih =>
    exact List.forall_mem_cons.mpr
      ⟨initially, ih (update start label) (preserved start label initially)⟩

end Total

end TlsVpn.Runs

import Mathlib

/-!
One group of a single-erasure code, with no bytes in it. A group of `size`
members collects arrivals of members and of one parity. It closes silently when
the last member arrives, and closes by producing the one absent member as soon
as the parity and all others are there. The two results at the end are what
such a group is for.
-/

namespace TlsVpn.ErasureGroup

inductive Arrival where
  | member (index : Nat)
  | parity
  deriving DecidableEq

inductive Phase where
  | collecting (seen : Finset Nat) (parity : Bool)
  | closed
  deriving DecidableEq

def missing (size : Nat) (seen : Finset Nat) : List Nat :=
  (List.range size).filter fun index => index ∉ seen

def settle (size : Nat) (seen : Finset Nat) : Bool → Phase × Option Nat
  | false => (.collecting seen false, none)
  | true =>
    match missing size seen with
    | [] => (.closed, none)
    | [index] => (.closed, some index)
    | _ => (.collecting seen true, none)

def arrive (size : Nat) : Phase → Arrival → Phase × Option Nat
  | .closed, _ => (.closed, none)
  | .collecting seen parity, .member index =>
    if index ∈ seen then (.collecting seen parity, none)
    else if insert index seen = Finset.range size then (.closed, none)
    else settle size (insert index seen) parity
  | .collecting seen true, .parity => (.collecting seen true, none)
  | .collecting seen false, .parity => settle size seen true

def arriveAll (size : Nat) : Phase → List Arrival → Phase × List Nat
  | phase, [] => (phase, [])
  | phase, arrival :: rest =>
    let first := arrive size phase arrival
    let others := arriveAll size first.1 rest
    (others.1, first.2.toList ++ others.2)

variable {size : Nat}
variable (arrivals : List Arrival) (seen : Finset Nat) (lost : Nat)

theorem mem_missing (index : Nat) : index ∈ missing size seen ↔ index < size ∧ index ∉ seen := by
  simp [missing]

theorem missing_nodup : (missing size seen).Nodup :=
  List.nodup_range.filter _

theorem closed_silent : (arriveAll size .closed arrivals).2 = [] := by
  induction arrivals with
  | nil => rfl
  | cons arrival rest ih => simpa [arriveAll, arrive] using ih

def Short (size lost : Nat) (seen : Finset Nat) : Prop :=
  ∃ other, other < size ∧ other ≠ lost ∧ other ∉ seen

theorem settle_lost (inside : lost < size) (absent : lost ∉ seen) :
    (settle size seen true = (.closed, some lost) ∧ ¬ Short size lost seen) ∨
      (settle size seen true = (.collecting seen true, none) ∧ Short size lost seen) := by
  have present : lost ∈ missing size seen := (mem_missing seen lost).mpr ⟨inside, absent⟩
  have distinct : (missing size seen).Nodup := missing_nodup seen
  unfold settle
  match found : missing size seen with
  | [] =>
    rw [found] at present
    cases present
  | [index] =>
    rw [found, List.mem_singleton] at present
    subst index
    refine Or.inl ⟨rfl, ?_⟩
    rintro ⟨other, bound, apart, unseen⟩
    have member := (mem_missing seen other).mpr ⟨bound, unseen⟩
    rw [found, List.mem_singleton] at member
    exact apart member
  | first :: second :: rest =>
    refine Or.inr ⟨rfl, ?_⟩
    rw [found] at distinct
    have differ : first ≠ second := by
      intro same
      simp [same] at distinct
    have firstIn := (mem_missing seen first).mp (by rw [found]; simp)
    have secondIn := (mem_missing seen second).mp (by rw [found]; simp)
    by_cases head : first = lost
    · exact ⟨second, secondIn.1, fun same => differ (head.trans same.symm), secondIn.2⟩
    · exact ⟨first, firstIn.1, head, firstIn.2⟩

/-- If one member never arrives and everything else does, the group produces
exactly that member, once. -/
theorem recovers_lost (inside : lost < size) (never : Arrival.member lost ∉ arrivals)
    (seen : Finset Nat) (parity : Bool) (absent : lost ∉ seen)
    (waiting : parity = true → Short size lost seen)
    (members : ∀ index, index < size → index ≠ lost →
      index ∈ seen ∨ Arrival.member index ∈ arrivals)
    (parityComes : parity = true ∨ Arrival.parity ∈ arrivals) :
    (arriveAll size (.collecting seen parity) arrivals).2 = [lost] := by
  induction arrivals generalizing seen parity with
  | nil =>
    exfalso
    obtain ⟨other, bound, apart, unseen⟩ := waiting (parityComes.resolve_right (by simp))
    exact unseen ((members other bound apart).resolve_right (by simp))
  | cons arrival rest ih =>
    have later : Arrival.member lost ∉ rest := fun member =>
      never (List.mem_cons_of_mem arrival member)
    -- what is left once this arrival has been counted as `grown`
    have follow : ∀ grown : Finset Nat, lost ∉ grown →
        (∀ index, index < size → index ≠ lost → index ∈ grown ∨ Arrival.member index ∈ rest) →
        ∀ flag : Bool, (flag = true → Short size lost grown) →
        (flag = true ∨ Arrival.parity ∈ rest) →
        (arriveAll size (.collecting grown flag) rest).2 = [lost] :=
      fun grown out covered flag short comes => ih later grown flag out short covered comes
    have recover : ∀ grown : Finset Nat, lost ∉ grown →
        (∀ index, index < size → index ≠ lost → index ∈ grown ∨ Arrival.member index ∈ rest) →
        (settle size grown true).2.toList ++
          (arriveAll size (settle size grown true).1 rest).2 = [lost] := by
      intro grown out covered
      rcases settle_lost grown lost inside out with ⟨result, _⟩ | ⟨result, short⟩
      · rw [result]
        simp [closed_silent]
      · rw [result]
        exact follow grown out covered true (fun _ => short) (Or.inl rfl)
    cases arrival with
    | member index =>
      have apart : index ≠ lost := by
        rintro rfl
        exact never List.mem_cons_self
      have covered : ∀ other, other < size → other ≠ lost →
          other ∈ insert index seen ∨ Arrival.member other ∈ rest := by
        intro other bound differs
        rcases members other bound differs with old | now
        · exact Or.inl (Finset.mem_insert_of_mem old)
        · rcases List.mem_cons.mp now with same | after
          · cases same
            exact Or.inl (Finset.mem_insert_self _ _)
          · exact Or.inr after
      have comes : parity = true ∨ Arrival.parity ∈ rest := by
        rcases parityComes with set | now
        · exact Or.inl set
        · exact Or.inr ((List.mem_cons.mp now).resolve_left (by simp))
      by_cases known : index ∈ seen
      · simp only [arriveAll, arrive, if_pos known, Option.toList_none, List.nil_append]
        rw [Finset.insert_eq_of_mem known] at covered
        exact follow seen absent covered parity waiting comes
      · have out : lost ∉ insert index seen := by
          simp [absent, Ne.symm apart]
        have partly : insert index seen ≠ Finset.range size := by
          intro whole
          exact out (whole ▸ Finset.mem_range.mpr inside)
        simp only [arriveAll, arrive, if_neg known, if_neg partly]
        cases parity with
        | true => exact recover _ out covered
        | false => exact follow _ out covered false (by simp) comes
    | parity =>
      have covered : ∀ other, other < size → other ≠ lost →
          other ∈ seen ∨ Arrival.member other ∈ rest := by
        intro other bound differs
        rcases members other bound differs with old | now
        · exact Or.inl old
        · exact Or.inr ((List.mem_cons.mp now).resolve_left (by simp))
      cases parity with
      | true => exact follow seen absent covered true waiting (Or.inl rfl)
      | false => exact recover seen absent covered

theorem silent_when_complete (bounded : seen ⊆ Finset.range size)
    (partly : seen ≠ Finset.range size)
    (members : ∀ index, Arrival.member index ∈ arrivals → index < size)
    (late : ∀ before after, arrivals = before ++ Arrival.parity :: after →
      ∀ index, index < size → index ∈ seen ∨ Arrival.member index ∈ before) :
    (arriveAll size (.collecting seen false) arrivals).2 = [] := by
  induction arrivals generalizing seen with
  | nil => rfl
  | cons arrival rest ih =>
    cases arrival with
    | parity =>
      exfalso
      apply partly
      apply Finset.Subset.antisymm bounded
      intro index inside
      exact (late [] rest rfl index (Finset.mem_range.mp inside)).resolve_right (by simp)
    | member index =>
      have inRest : ∀ other, Arrival.member other ∈ rest → other < size :=
        fun other later => members other (List.mem_cons_of_mem _ later)
      by_cases known : index ∈ seen
      · simp only [arriveAll, arrive, if_pos known, Option.toList_none, List.nil_append]
        refine ih seen bounded partly inRest ?_
        intro before after split other inside
        rcases late (.member index :: before) after (by rw [split]; rfl) other inside
          with old | now
        · exact Or.inl old
        · rcases List.mem_cons.mp now with same | earlier
          · cases same
            exact Or.inl known
          · exact Or.inr earlier
      · by_cases whole : insert index seen = Finset.range size
        · simp only [arriveAll, arrive, if_neg known, if_pos whole, Option.toList_none,
            List.nil_append]
          exact closed_silent rest
        · simp only [arriveAll, arrive, if_neg known, if_neg whole, settle, Option.toList_none,
            List.nil_append]
          refine ih (insert index seen) ?_ whole inRest ?_
          · intro other present
            rcases Finset.mem_insert.mp present with rfl | old
            · exact Finset.mem_range.mpr (members other List.mem_cons_self)
            · exact bounded old
          · intro before after split other inside
            rcases late (.member index :: before) after (by rw [split]; rfl) other inside
              with old | now
            · exact Or.inl (Finset.mem_insert_of_mem old)
            · rcases List.mem_cons.mp now with same | earlier
              · cases same
                exact Or.inl (Finset.mem_insert_self _ _)
              · exact Or.inr earlier

end TlsVpn.ErasureGroup

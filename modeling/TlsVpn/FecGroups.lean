import TlsVpn.Fec

/-!
Properties of every pending group. Eviction, retirement and fencing only remove
groups, so a property that holds of each group survives them; it has to be shown
only for the group that an arrival writes back.
-/

namespace TlsVpn.Fec

open Words XorBytes Protocol

def AllGroups (holds : Nat → FecGroupState → Prop) (groups : Groups) : Prop :=
  ∀ start group, groups.lookup start = some group → holds start group

variable {holds : Nat → FecGroupState → Prop}

theorem allGroups_empty : AllGroups holds ∅ := by
  intro start group found
  cases found

variable {groups : Groups} (decoder : FecDecoder) (progress : Option Nat)

section

variable (all : AllGroups holds groups)

include all

theorem AllGroups.erase (gone : Nat) : AllGroups holds (groups.erase gone) := by
  intro start group found
  by_cases same : start = gone
  · subst start
    rw [AList.lookup_erase] at found
    cases found
  · rw [AList.lookup_erase_ne same] at found
    exact all start group found

theorem AllGroups.eraseAll (doomed : List Nat) : AllGroups holds (eraseAll groups doomed) := by
  induction doomed generalizing groups with
  | nil => exact all
  | cons gone rest ih => exact ih (all.erase gone)

theorem AllGroups.insert (added : Nat) (group : FecGroupState) (good : holds added group) :
    AllGroups holds (groups.insert added group) := by
  intro start other found
  by_cases same : start = added
  · subst start
    rw [AList.lookup_insert] at found
    cases found
    exact good
  · rw [AList.lookup_insert_ne same] at found
    exact all start other found

theorem AllGroups.entry (start : Nat) (fresh : holds start FecGroupState.empty) :
    AllGroups holds (entry groups start).1 ∧ holds start (entry groups start).2 := by
  have room : AllGroups holds (makeSpace groups start) := by
    unfold makeSpace
    split
    · split
      · exact all.erase _
      · exact all
    · exact all
  refine ⟨room, ?_⟩
  simp only [Fec.entry]
  cases found : (makeSpace groups start).lookup start with
  | none => exact fresh
  | some group => exact room start group found

end

/-- The two ends of a sweep: nothing is due, or everything below the cleanup
boundary goes because the reorder buffer has passed it. -/
inductive Swept (decoder : FecDecoder) (progress : Option Nat) : FecDecoder → Prop where
  | idle (early : ∀ expected, progress = some expected →
        decoder.retiredBefore < decoder.cleanupBefore → expected < decoder.cleanupBefore) :
      Swept decoder progress decoder
  | retired (expected : Nat) (given : progress = some expected)
      (fresh : decoder.retiredBefore < decoder.cleanupBefore)
      (passed : decoder.cleanupBefore ≤ expected) :
      Swept decoder progress
        { decoder with
          retiredBefore := decoder.cleanupBefore
          inner := { decoder.inner with
            groups := eraseAll decoder.inner.groups
              (decoder.inner.groups.keys.filter fun start => start < decoder.cleanupBefore) } }

theorem maybeRetire_swept :
    Swept decoder progress (decoder.maybeRetireOldGroupsLocked progress) := by
  unfold FecDecoder.maybeRetireOldGroupsLocked
  by_cases settled : decoder.cleanupBefore = 0 ∨ decoder.retiredBefore ≥ decoder.cleanupBefore
  · rw [if_pos settled]
    exact .idle fun expected given fresh => by omega
  · rw [if_neg settled]
    cases progress with
    | none => exact .idle fun expected given => nomatch given
    | some expected =>
      dsimp only [FecDecoder.retireOldGroups]
      by_cases early : expected = 0 ∨ expected < decoder.cleanupBefore
      · rw [if_pos early]
        exact .idle fun other given fresh => by cases given; omega
      · rw [if_neg early]
        exact .retired expected rfl (by omega) (by omega)

theorem AllGroups.maybeRetire {decoder : FecDecoder} (all : AllGroups holds decoder.inner.groups)
    (progress : Option Nat) :
    AllGroups holds (decoder.maybeRetireOldGroupsLocked progress).inner.groups := by
  have swept := maybeRetire_swept decoder progress
  generalize decoder.maybeRetireOldGroupsLocked progress = after at swept ⊢
  cases swept with
  | idle early => exact all
  | retired expected given fresh passed => exact all.eraseAll _

theorem maybeRetire_fixed :
    (decoder.maybeRetireOldGroupsLocked progress).k = decoder.k ∧
      (decoder.maybeRetireOldGroupsLocked progress).ic = decoder.ic := by
  have swept := maybeRetire_swept decoder progress
  generalize decoder.maybeRetireOldGroupsLocked progress = after at swept ⊢
  cases swept <;> exact ⟨rfl, rfl⟩

theorem maybeRetire_marks :
    (decoder.maybeRetireOldGroupsLocked progress).inner.done = decoder.inner.done ∧
      (decoder.maybeRetireOldGroupsLocked progress).inner.recovered = decoder.inner.recovered ∧
      (decoder.maybeRetireOldGroupsLocked progress).inner.lost = decoder.inner.lost := by
  have swept := maybeRetire_swept decoder progress
  generalize decoder.maybeRetireOldGroupsLocked progress = after at swept ⊢
  cases swept <;> exact ⟨rfl, rfl, rfl⟩

end TlsVpn.Fec

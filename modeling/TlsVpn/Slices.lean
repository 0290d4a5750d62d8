import Mathlib

/-!
Slices of a language that stops the program at an index out of range; `none` is the
stop. What is in range is the plain reading of the list, so a caller shows its bounds
and goes on with lists.
-/

namespace TlsVpn.Slices

universe u

section Readings

variable {Item : Type u}
variable {items : List Item} {first past : Nat}

@[simp]
theorem some_then {Value Result : Type u} (value : Value) (next : Value → Option Result) :
    ((some value : Option Value) >>= next) = next value := rfl

def index (items : List Item) (position : Nat) : Option Item := items[position]?

/-- `items[first..past]`. -/
def slice (items : List Item) (first past : Nat) : Option (List Item) :=
  if first ≤ past ∧ past ≤ items.length then some ((items.drop first).take (past - first)) else none

def splitAt (items : List Item) (middle : Nat) : Option (List Item × List Item) :=
  if middle ≤ items.length then some (items.take middle, items.drop middle) else none

/-- `target.copy_from_slice(source)`. -/
def copyFrom (target source : List Item) : Option (List Item) :=
  if target.length = source.length then some source else none

/-- The conversion of a slice to an array of `size` items. -/
def exactly (size : Nat) (items : List Item) : Option (List Item) :=
  if items.length = size then some items else none

theorem index_eq {position : Nat} (inside : position < items.length) (other : Item) :
    index items position = some (items.getD position other) := by
  rw [index, List.getD_eq_getElem?_getD, List.getElem?_eq_getElem inside, Option.getD_some]

theorem slice_eq (ordered : first ≤ past) (inside : past ≤ items.length) :
    slice items first past = some ((items.drop first).take (past - first)) :=
  if_pos ⟨ordered, inside⟩

theorem slice_length {piece : List Item} (taken : slice items first past = some piece) :
    first ≤ past ∧ past ≤ items.length ∧ piece.length = past - first := by
  unfold slice at taken
  split at taken
  · rename_i inside
    cases taken
    refine ⟨inside.1, inside.2, ?_⟩
    rw [List.length_take, List.length_drop]
    omega
  · cases taken

theorem slice_rest (inside : first ≤ items.length) :
    slice items first items.length = some (items.drop first) := by
  rw [slice_eq inside (Nat.le_refl _), List.take_of_length_le (by rw [List.length_drop])]

theorem splitAt_eq {middle : Nat} (inside : middle ≤ items.length) :
    splitAt items middle = some (items.take middle, items.drop middle) :=
  if_pos inside

theorem copyFrom_eq {target source : List Item} (same : target.length = source.length) :
    copyFrom target source = some source :=
  if_pos same

theorem exactly_eq {size : Nat} (same : items.length = size) : exactly size items = some items :=
  if_pos same

end Readings

section Overwriting

variable {Item : Type u}

/-- A loop that replaces `count` neighbouring pieces of `width` items, from `first` on. -/
def overwrite (width : Nat) (piece : Nat → List Item → Option (List Item)) :
    Nat → Nat → List Item → Option (List Item)
  | 0, _, target => some target
  | count + 1, first, target => do
      let old ← slice target first (first + width)
      let fresh ← piece first old
      let written ← copyFrom old fresh
      overwrite width piece count (first + width)
        (target.take first ++ written ++ target.drop (first + width))

variable {width : Nat} {piece : Nat → List Item → Option (List Item)} {whole target : List Item}
  {first middle : Nat} (count : Nat)

theorem overwrite_eq (first : Nat) (target : List Item) (same : target.length = whole.length)
    (fits : first + count * width ≤ whole.length)
    (pieces : ∀ place, first ≤ place → place + width ≤ first + count * width →
      piece place ((target.drop place).take width) = some ((whole.drop place).take width)) :
    overwrite width piece count first target =
      some (target.take first ++ (whole.drop first).take (count * width) ++
        target.drop (first + count * width)) := by
  induction count generalizing first target with
  | zero => simp [overwrite]
  | succ count ih =>
    rw [Nat.add_mul, Nat.one_mul] at fits pieces ⊢
    have front : (target.take first ++ (whole.drop first).take width).length = first + width := by
      rw [List.length_append, List.length_take, List.length_take, List.length_drop]
      omega
    -- from the next piece on, the target is still the old one
    have later : ∀ place, first + width ≤ place →
        (target.take first ++ (whole.drop first).take width ++
          target.drop (first + width)).drop place = target.drop place := by
      intro place beyond
      rw [List.drop_append, front, List.drop_eq_nil_of_le (by omega), List.nil_append,
        List.drop_drop, show first + width + (place - (first + width)) = place by omega]
    rw [overwrite, slice_eq (by omega) (by omega), some_then, Nat.add_sub_cancel_left,
      pieces first (Nat.le_refl _) (by omega), some_then,
      copyFrom_eq (by rw [List.length_take, List.length_take, List.length_drop, List.length_drop,
        same]), some_then, ih (first + width) _ ?_ (by omega) ?_]
    · rw [later _ (by omega), List.take_append_of_le_length (by omega),
        List.take_of_length_le (by omega), Nat.add_comm (count * width) width, List.take_add,
        List.drop_drop, ← Nat.add_assoc]
      simp only [List.append_assoc]
    · rw [List.length_append, front, List.length_drop]
      omega
    · intro place beyond inside
      rw [later place beyond]
      exact pieces place (by omega) (by omega)

theorem overwrite_front (same : target.length = whole.length) (fits : count * width ≤ whole.length)
    (pieces : ∀ place, place + width ≤ count * width →
      piece place ((target.drop place).take width) = some ((whole.drop place).take width)) :
    overwrite width piece count 0 target =
      some (whole.take (count * width) ++ target.drop (count * width)) := by
  rw [overwrite_eq count 0 target same (by omega) fun place _ inside => pieces place (by omega)]
  rw [List.take_zero, List.nil_append, List.drop_zero, Nat.zero_add]

theorem overwrite_inside {count : Nat} {result : List Item}
    (ended : overwrite width piece count first target = some result) :
    result.length = target.length ∧ (count = 0 ∨ first + count * width ≤ target.length) := by
  induction count generalizing first target with
  | zero =>
    cases ended
    exact ⟨rfl, Or.inl rfl⟩
  | succ count ih =>
    obtain ⟨old, sliced, ended⟩ := Option.bind_eq_some_iff.mp ended
    obtain ⟨fresh, _, ended⟩ := Option.bind_eq_some_iff.mp ended
    obtain ⟨written, copied, ended⟩ := Option.bind_eq_some_iff.mp ended
    unfold slice at sliced
    split at sliced
    · rename_i inside
      cases sliced
      unfold copyFrom at copied
      split at copied
      · rename_i same
        cases copied
        have kept : (target.take first ++ fresh ++ target.drop (first + width)).length =
            target.length := by
          rw [List.length_append, List.length_append, ← same, List.length_take, List.length_take,
            List.length_drop, List.length_drop]
          omega
        obtain ⟨length, reached⟩ := ih ended
        rw [kept] at length reached
        refine ⟨length, Or.inr ?_⟩
        rw [Nat.add_mul, Nat.one_mul]
        rcases reached with none | reached
        · rw [none, Nat.zero_mul]
          omega
        · omega
      · cases copied
    · cases sliced

theorem take_joined (inside : middle ≤ whole.length) :
    (whole.take middle ++ target.drop middle).take middle = whole.take middle := by
  rw [List.take_append_of_le_length (by rw [List.length_take]; omega), List.take_take, Nat.min_self]

theorem drop_joined {place : Nat} (inside : middle ≤ whole.length) (past : middle ≤ place) :
    (whole.take middle ++ target.drop middle).drop place = target.drop place := by
  rw [List.drop_append, List.length_take, Nat.min_eq_left inside,
    List.drop_eq_nil_of_le (by rw [List.length_take]; omega), List.nil_append, List.drop_drop,
    Nat.add_sub_cancel' past]

theorem three_pieces (whole : List Item) {past : Nat} (ordered : first ≤ past) :
    whole.take first ++ (whole.drop first).take (past - first) ++ whole.drop past = whole := by
  have rest : whole.drop past = (whole.drop first).drop (past - first) := by
    rw [List.drop_drop, Nat.add_sub_cancel' ordered]
  rw [rest, List.append_assoc, List.take_append_drop, List.take_append_drop]

theorem length_joined (same : target.length = whole.length) :
    (whole.take middle ++ target.drop middle).length = whole.length := by
  rw [List.length_append, List.length_take, List.length_drop]
  omega

end Overwriting

end TlsVpn.Slices

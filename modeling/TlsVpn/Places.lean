import Mathlib

/-!
Lists read by position. A pass that changes the items at some distinct places
leaves each of them changed once and the others alone, and the items that pass a
test are as many as the places at which they stand, one more or less when one of
them is replaced. A minimum kept over a pass is
the start or the value of an item, and below all of them.
-/

namespace TlsVpn.Places

universe u v

variable {Item : Type u} {Entry : Type v}

section Passes

variable (place : Entry → Nat) (change : Entry → Item → Item)

def modifyAll (items : List Item) (entries : List Entry) : List Item :=
  entries.foldl (fun items entry => items.modify (place entry) (change entry)) items

variable {place change}
variable (entries : List Entry) (items : List Item)

theorem getElem?_modifyAll_miss {index : Nat} (apart : ∀ entry ∈ entries, place entry ≠ index) :
    (modifyAll place change items entries)[index]? = items[index]? := by
  unfold modifyAll
  induction entries generalizing items with
  | nil => rfl
  | cons entry rest ih =>
    obtain ⟨here, later⟩ := List.forall_mem_cons.mp apart
    rw [List.foldl_cons, ih _ later, List.getElem?_modify_ne _ _ here]

theorem getElem?_modifyAll_hit {entry : Entry} (distinct : (entries.map place).Nodup)
    (listed : entry ∈ entries) :
    (modifyAll place change items entries)[place entry]? =
      items[place entry]?.map (change entry) := by
  unfold modifyAll
  induction entries generalizing items with
  | nil => cases listed
  | cons first rest ih =>
    obtain ⟨fresh, later⟩ := List.nodup_cons.mp distinct
    rw [List.foldl_cons]
    rcases List.mem_cons.mp listed with rfl | inside
    · have apart : ∀ other ∈ rest, place other ≠ place entry :=
        fun other present same => fresh (same ▸ List.mem_map_of_mem present)
      exact (getElem?_modifyAll_miss rest _ apart).trans (List.getElem?_modify_eq ..)
    · have apart : place first ≠ place entry :=
        fun same => fresh (same ▸ List.mem_map_of_mem inside)
      rw [ih _ later inside, List.getElem?_modify_ne _ _ apart]

theorem any_modify {test : Item → Bool} {update : Item → Item}
    (same : ∀ item, test (update item) = test item) (items : List Item) (index other : Nat) :
    (items.modify index update)[other]?.any test = items[other]?.any test := by
  rw [List.getElem?_modify]
  cases items[other]? with
  | none => split <;> rfl
  | some item =>
    split
    · exact same item
    · rfl

end Passes

section Counting

def positions (test : Item → Bool) (items : List Item) : List Nat :=
  (List.range items.length).filter fun index => items[index]?.any test

theorem positions_concat (test : Item → Bool) (items : List Item) (last : Item) :
    positions test (items ++ [last]) =
      positions test items ++ if test last then [items.length] else [] := by
  unfold positions
  rw [List.length_append, List.length_singleton, List.range_succ, List.filter_append,
    List.filter_singleton, List.getElem?_concat_length]
  congr 1
  · refine List.filter_congr fun index below => ?_
    rw [List.getElem?_append_left (List.mem_range.mp below)]
  · exact Bool.cond_eq_ite ..

theorem length_positions (test : Item → Bool) (items : List Item) :
    (positions test items).length = items.countP test := by
  induction items using List.reverseRecOn with
  | nil => rfl
  | append_singleton rest last ih =>
    rw [positions_concat, List.length_append, ih, List.countP_append, List.countP_singleton]
    split <;> rfl

theorem mem_positions {test : Item → Bool} {items : List Item} {index : Nat} :
    index ∈ positions test items ↔ items[index]?.any test = true := by
  unfold positions
  rw [List.mem_filter, List.mem_range, and_iff_right_iff_imp]
  intro passes
  obtain ⟨item, found, _⟩ := (Option.any_eq_true _ _).mp passes
  exact (List.getElem?_eq_some_iff.mp found).1

theorem countP_eq_length {test : Item → Bool} {items : List Item} {places : List Nat}
    (distinct : places.Nodup) (exact : ∀ index, index ∈ places ↔ items[index]?.any test = true) :
    items.countP test = places.length := by
  rw [← length_positions]
  have nodup : (positions test items).Nodup := List.nodup_range.filter _
  refine List.Perm.length_eq ((List.perm_ext_iff_of_nodup nodup distinct).mpr fun index => ?_)
  rw [mem_positions, exact]

theorem countP_set_add (test : Entry → Bool) (entries : List Entry) (place : Nat)
    (old new : Entry) (found : entries[place]? = some old) :
    (entries.set place new).countP test + (if test old then 1 else 0) =
      entries.countP test + if test new then 1 else 0 := by
  obtain ⟨inside, rfl⟩ := List.getElem?_eq_some_iff.mp found
  have held : (if test entries[place] then 1 else 0) ≤ entries.countP test := by
    split
    · rename_i passes
      exact List.countP_pos_iff.mpr ⟨entries[place], List.getElem_mem inside, passes⟩
    · exact Nat.zero_le _
  rw [List.countP_set inside]
  omega

end Counting

section Least

variable {Value : Type v} [LinearOrder Value] (value : Item → Value)
variable (items : List Item) (start : Value)

theorem foldl_min_le_start :
    items.foldl (fun least item => min least (value item)) start ≤ start := by
  induction items generalizing start with
  | nil => exact le_refl _
  | cons item rest ih => exact (ih _).trans (min_le_left _ _)

theorem foldl_min_le_of_mem {items : List Item} {item : Item} (present : item ∈ items) :
    items.foldl (fun least item => min least (value item)) start ≤ value item := by
  induction items generalizing start with
  | nil => cases present
  | cons first rest ih =>
    rcases List.mem_cons.mp present with rfl | later
    · exact (foldl_min_le_start value rest _).trans (min_le_right _ _)
    · exact ih _ later

theorem foldl_min_attained :
    items.foldl (fun least item => min least (value item)) start = start ∨
      ∃ item ∈ items, items.foldl (fun least item => min least (value item)) start = value item := by
  induction items generalizing start with
  | nil => exact Or.inl rfl
  | cons first rest ih =>
    rw [List.foldl_cons]
    rcases ih (min start (value first)) with same | ⟨item, present, reached⟩
    · rcases min_choice start (value first) with kept | lower
      · exact Or.inl (same.trans kept)
      · exact Or.inr ⟨first, List.mem_cons_self, same.trans lower⟩
    · exact Or.inr ⟨item, List.mem_cons_of_mem first present, reached⟩

end Least

end TlsVpn.Places

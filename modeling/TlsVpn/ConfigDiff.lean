import TlsVpn.Json

/-!
The paths at which two configurations differ, as the dashboard reports them.
`diff_value` descends while both sides are objects and reports a path where they
part; the sorted and deduplicated reports are compared with the positions at
which the two values differ.
-/

namespace TlsVpn.ConfigDiff

open TlsVpn.Json

section Source

def dot (path : List Char) (key : Key) : List Char :=
  if path = [] then key else path ++ '.' :: key

/-- What `diff_value` pushes; `dedup` after a sort leaves one of each. -/
def diffValue (path : List Char) (old new : Value) : List (List Char) :=
  match old, new with
  | .object a, .object b =>
    ((a.keys ++ b.keys).insertionSort (· ≤ ·)).dedup.flatMap fun key =>
      match _found : a.get? key, b.get? key with
      | some x, some y => diffValue (dot path key) x y
      | _, _ => [dot path key]
  | _, _ => if old ≠ new then [path] else []
termination_by sizeOf old
decreasing_by
  have below := Members.get?_lt _found
  simp
  omega

def diffPaths (old new : Value) : List (List Char) :=
  ((diffValue [] old new).insertionSort (· ≤ ·)).dedup

end Source

section Parting

/-- The positions at which two values part: both are objects above, and here one
is missing or they differ and are not both objects. -/
inductive Parts : Value → Value → List Key → Prop
  | here {a b : Value} : a ≠ b → (a.isObject && b.isObject) = false → Parts a b []
  | missing {m n : Members} {key : Key} :
    (m.get? key).isSome ≠ (n.get? key).isSome → Parts (.object m) (.object n) [key]
  | under {m n : Members} {key : Key} {x y : Value} {path : List Key} :
    m.get? key = some x → n.get? key = some y → Parts x y path →
      Parts (.object m) (.object n) (key :: path)

/-- A position at which two values differ: it exists on one side only, or what is
there differs and is not an object on both sides. -/
def Differs (a b : Value) (path : List Key) : Prop :=
  a.getPath path ≠ b.getPath path ∧ ∀ x y, a.getPath path = some x → b.getPath path = some y →
    (x.isObject && y.isObject) = false

variable {a b : Value}

variable {path : List Key}

theorem objects_or (a b : Value) : (∃ m n, a = .object m ∧ b = .object n) ∨
    (a.isObject && b.isObject) = false := by
  cases a <;> cases b <;> simp [Value.isObject]

theorem Parts.disagree (parts : Parts a b path) : a.getPath path ≠ b.getPath path := by
  induction parts with
  | here differ _ => exact fun same => differ (Option.some.inj same)
  | @missing m n key one =>
    intro same
    simp only [Value.getPath, Value.get?, Option.bind_eq_bind] at same
    cases left : m.get? key <;> cases right : n.get? key <;> simp_all
  | under left right _ ih => simpa [Value.getPath, Value.get?, left, right] using ih

theorem Parts.unique {one other : List Key} (first : Parts a b one) (second : Parts a b other)
    (front : one <+: other) : one = other := by
  induction first generalizing other with
  | here differ apart => cases second with
    | here => rfl
    | missing => cases apart
    | under => cases apart
  | missing one => cases second with
    | here _ apart => cases apart
    | missing => exact front.eq_of_length rfl
    | under left right =>
      obtain ⟨rfl, _⟩ := List.cons_prefix_cons.mp front
      exact absurd (by rw [left, right]; rfl) one
  | under left right _ ih => cases second with
    | here _ apart => cases apart
    | missing one =>
      obtain ⟨rfl, _⟩ := List.cons_prefix_cons.mp front
      exact absurd (by rw [left, right]; rfl) one
    | under left' right' below =>
      obtain ⟨rfl, rest⟩ := List.cons_prefix_cons.mp front
      cases left.symm.trans left'
      cases right.symm.trans right'
      rw [ih below rest]

theorem Differs.middle {c : Value} (differs : Differs a c path) :
    Differs a b path ∨ Differs b c path := by
  obtain ⟨apart, solid⟩ := differs
  by_cases left : a.getPath path = b.getPath path
  · exact .inr ⟨left ▸ apart, left ▸ solid⟩
  by_cases right : b.getPath path = c.getPath path
  · exact .inl ⟨right ▸ apart, right ▸ solid⟩
  -- an object in the middle is opposite a value that is none
  by_contra! both
  have one : ∃ x y, a.getPath path = some x ∧ b.getPath path = some y ∧
      (x.isObject && y.isObject) = true := by simpa [Differs, left] using both.1
  have two : ∃ x y, b.getPath path = some x ∧ c.getPath path = some y ∧
      (x.isObject && y.isObject) = true := by simpa [Differs, right] using both.2
  obtain ⟨x, _, first, _, xs⟩ := one
  obtain ⟨_, y, _, last, ys⟩ := two
  have := solid x y first last
  simp_all

theorem Differs.parts (differs : Differs a b path) : ∃ front, front <+: path ∧ Parts a b front := by
  induction path generalizing a b with
  | nil => exact ⟨[], List.prefix_rfl, .here (fun same => differs.1 (by rw [same]))
      (differs.2 a b rfl rfl)⟩
  | cons key path ih =>
    rcases objects_or a b with ⟨m, n, rfl, rfl⟩ | apart
    · cases left : m.get? key with
      | none => cases right : n.get? key with
        | none => simp [Differs, Value.getPath, Value.get?, left, right] at differs
        | some y => exact ⟨[key], by simp, .missing (by simp [left, right])⟩
      | some x => cases right : n.get? key with
        | none => exact ⟨[key], by simp, .missing (by simp [left, right])⟩
        | some y =>
          obtain ⟨front, inside, parts⟩ := @ih x y (by
            simpa [Differs, Value.getPath, Value.get?, left, right] using differs)
          exact ⟨key :: front, by simpa using inside, .under left right parts⟩
    · exact ⟨[], by simp, .here (by rintro rfl; exact differs.1 rfl) apart⟩

theorem exists_parts {a b : Value} (first : a.Sorted) (second : b.Sorted) (differ : a ≠ b) :
    ∃ path, Parts a b path := by
  induction a using Value.descend generalizing b with | step a ih
  rcases objects_or a b with ⟨m, n, rfl, rfl⟩ | apart
  · obtain ⟨key, other⟩ : ∃ key, m.get? key ≠ n.get? key := by
      by_contra! same
      exact differ (by rw [Members.Sorted.ext first second same])
    cases left : m.get? key with
    | none => exact ⟨[key], .missing (by cases right : n.get? key <;> simp_all)⟩
    | some x => cases right : n.get? key with
      | none => exact ⟨[key], .missing (by simp [left, right])⟩
      | some y =>
        obtain ⟨path, parts⟩ := ih key x left (Members.Sorted.found first left)
          (Members.Sorted.found second right) (by grind)
        exact ⟨key :: path, .under left right parts⟩
  · exact ⟨[], .here differ apart⟩

theorem mem_diffValue (path text : List Char) (old new : Value) :
    text ∈ diffValue path old new ↔ ∃ keys, Parts old new keys ∧ keys.foldl dot path = text := by
  induction old using Value.descend generalizing path new with | step old ih
  rcases objects_or old new with ⟨m, n, rfl, rfl⟩ | apart
  · rw [diffValue]
    simp only [List.mem_flatMap, List.mem_dedup, List.mem_insertionSort, List.mem_append,
      ← Members.get?_isSome]
    constructor
    · rintro ⟨key, known, listed⟩
      split at listed
      · rename_i x y left right
        obtain ⟨keys, parts, is⟩ := (ih key x left _ y).mp listed
        exact ⟨key :: keys, .under left right parts, is⟩
      · rename_i one
        refine ⟨[key], .missing ?_, (List.mem_singleton.mp listed).symm⟩
        cases left : m.get? key <;> cases right : n.get? key <;> simp_all
    · rintro ⟨keys, parts, is⟩
      cases parts with
      | here _ apart => cases apart
      | @missing _ _ key one =>
        refine ⟨key, by grind, ?_⟩
        split
        · simp_all
        · exact List.mem_singleton.mpr is.symm
      | @under _ _ key x y keys left right parts =>
        refine ⟨key, by simp [left], ?_⟩
        split
        · rename_i x' y' left' right'
          cases left.symm.trans left'
          cases right.symm.trans right'
          exact (ih key x left _ y).mpr ⟨keys, parts, is⟩
        · rename_i none
          exact (none x y left right).elim
  · rw [diffValue]
    · constructor
      · intro listed
        split at listed
        · rename_i differ
          exact ⟨[], .here differ apart, (List.mem_singleton.mp listed).symm⟩
        · cases listed
      · rintro ⟨keys, parts, is⟩
        cases parts with
        | here differ _ =>
          rw [if_pos differ]
          exact List.mem_singleton.mpr is.symm
        | missing => cases apart
        | under => cases apart
    · rintro m n rfl rfl
      cases apart

end Parting

section Texts

def Plain (key : Key) : Prop := key ≠ [] ∧ '.' ∉ key

def dotted (keys : List Key) : List Char := keys.foldl dot []

variable {path : List Key} (keys : List Key)

theorem foldl_dot (path : List Char) (keys : List Key) (inside : path ≠ []) :
    keys.foldl dot path = ['.'].intercalate (path :: keys) := by
  induction keys generalizing path with
  | nil => simp
  | cons key keys ih =>
    rw [List.foldl_cons, dot, if_neg inside, ih _ (by simp)]
    cases keys <;> simp

theorem dotted_cons {key : Key} (plain : Plain key) :
    dotted (key :: keys) = ['.'].intercalate (key :: keys) :=
  foldl_dot key keys plain.1

theorem dotted_inj {one other : List Key} (first : ∀ key ∈ one, Plain key)
    (second : ∀ key ∈ other, Plain key) (same : dotted one = dotted other) : one = other := by
  have filled {key : Key} {keys : List Key} (plain : Plain key) : dotted (key :: keys) ≠ [] := by
    rw [dotted_cons keys plain]
    cases keys <;> simp [plain.1]
  cases one with
  | nil => cases other with
    | nil => rfl
    | cons key keys => exact absurd same.symm (filled (second key (by simp)))
  | cons key keys => cases other with
    | nil => exact absurd same (filled (first key (by simp)))
    | cons key' keys' =>
      rw [dotted_cons keys (first key (by simp)), dotted_cons keys' (second key' (by simp))] at same
      rw [← List.splitOn_intercalate '.' (fun key listed => (first key listed).2) (by simp), same,
        List.splitOn_intercalate '.' (fun key listed => (second key listed).2) (by simp)]

variable {a b : Value}

theorem getPath_plain {value : Value} (plain : a.Keys Plain) (found : a.getPath path = some value) :
    ∀ key ∈ path, Plain key := by
  induction path generalizing a with
  | nil => exact List.forall_mem_nil _
  | cons key path ih =>
    obtain ⟨inner, first, rest⟩ := Option.bind_eq_some_iff.mp found
    cases a with
    | object members =>
      obtain ⟨here, inside⟩ := Members.Keys.found plain first
      exact List.forall_mem_cons.mpr ⟨here, ih inside rest⟩
    | _ => cases first

theorem plain_of_disagree (first : a.Keys Plain) (second : b.Keys Plain)
    (differ : a.getPath path ≠ b.getPath path) : ∀ key ∈ path, Plain key := by
  cases left : a.getPath path with
  | some value => exact getPath_plain first left
  | none => cases right : b.getPath path with
    | some value => exact getPath_plain second right
    | none => exact absurd (left.trans right.symm) differ

theorem mem_diffPaths (text : List Char) (old new : Value) :
    text ∈ diffPaths old new ↔ ∃ keys, Parts old new keys ∧ dotted keys = text := by
  rw [diffPaths, List.mem_dedup, List.mem_insertionSort, mem_diffValue]
  rfl

end Texts

/-- The report is empty exactly for equal values. With keys that can be read back
from a path, each position at which the values differ has one reported path above
it, and the values disagree at every reported path. -/
theorem diff_paths_exact (old new : Value) (oldSorted : old.Sorted) (newSorted : new.Sorted) :
    (diffPaths old new = [] ↔ old = new) ∧
      (old.Keys Plain → new.Keys Plain →
        (∀ path, Differs old new path → ∃! text, text ∈ diffPaths old new ∧
          ∃ front, front <+: path ∧ dotted front = text) ∧
        ∀ text ∈ diffPaths old new, ∃! path, (∀ key ∈ path, Plain key) ∧ dotted path = text ∧
          old.getPath path ≠ new.getPath path) := by
  refine ⟨⟨fun empty => ?_, ?_⟩, fun oldPlain newPlain => ⟨fun path differs => ?_, fun text listed => ?_⟩⟩
  · by_contra differ
    obtain ⟨path, parts⟩ := exists_parts oldSorted newSorted differ
    have listed := (mem_diffPaths (dotted path) old new).mpr ⟨path, parts, rfl⟩
    rw [empty] at listed
    cases listed
  · rintro rfl
    refine List.eq_nil_iff_forall_not_mem.mpr fun text listed => ?_
    obtain ⟨path, parts, _⟩ := (mem_diffPaths text old old).mp listed
    exact parts.disagree rfl
  · obtain ⟨front, inside, parts⟩ := differs.parts
    have plain := plain_of_disagree oldPlain newPlain differs.1
    refine ⟨dotted front, ⟨(mem_diffPaths _ old new).mpr ⟨front, parts, rfl⟩, front, inside, rfl⟩, ?_⟩
    rintro text ⟨listed, front', inside', rfl⟩
    obtain ⟨keys, parts', same⟩ := (mem_diffPaths _ old new).mp listed
    have equal : keys = front' := dotted_inj (plain_of_disagree oldPlain newPlain parts'.disagree)
      (fun key member => plain key (inside'.subset member)) same
    subst equal
    rcases List.prefix_or_prefix_of_prefix inside inside' with before | after
    · rw [parts.unique parts' before]
    · rw [parts'.unique parts after]
  · obtain ⟨path, parts, is⟩ := (mem_diffPaths text old new).mp listed
    have plain := plain_of_disagree oldPlain newPlain parts.disagree
    refine ⟨path, ⟨plain, is, parts.disagree⟩, ?_⟩
    rintro other ⟨otherPlain, same, _⟩
    exact dotted_inj otherPlain plain (same.trans is.symm)

theorem diff_paths_exact_member : ∃ old new : Value, old.Sorted ∧ new.Sorted ∧ old.Keys Plain ∧
    new.Keys Plain ∧ Differs old new [['a']] ∧ diffPaths old new ≠ [] ∧
      ∃! text, text ∈ diffPaths old new ∧ ∃ front, front <+: [['a']] ∧ dotted front = text := by
  let old : Value := .object (.cons ['a'] .null .nil)
  let new : Value := .object (.cons ['a'] (.bool true) .nil)
  have sorted : old.Sorted ∧ new.Sorted := by simp [old, new, Value.Sorted, Members.Sorted, Members.keys]
  have plain : old.Keys Plain ∧ new.Keys Plain := by
    simp [old, new, Value.Keys, Members.Keys, Plain]
  have differs : Differs old new [['a']] := by
    simp [Differs, old, new, Value.getPath, Value.get?, Members.get?, Value.isObject]
  obtain ⟨empty, exact_⟩ := diff_paths_exact old new sorted.1 sorted.2
  refine ⟨old, new, sorted.1, sorted.2, plain.1, plain.2, differs, ?_,
    (exact_ plain.1 plain.2).1 _ differs⟩
  rw [Ne, empty]
  decide

end TlsVpn.ConfigDiff

import Mathlib

/-!
JSON values and their members. An object is kept in the order of its keys, as the
map behind `serde_json::Value` keeps it, so equal objects are equal lists. A
number is compared as an integer or as the rational a float stands for.
-/

namespace TlsVpn.Json

abbrev Key := List Char

inductive Number where
  | integer (value : Int)
  | float (value : Rat)
  deriving DecidableEq

mutual
inductive Value where
  | null
  | bool (value : Bool)
  | number (value : Number)
  | string (text : List Char)
  | array (items : Items)
  | object (members : Members)
  deriving DecidableEq
inductive Items where
  | nil
  | cons (first : Value) (rest : Items)
  deriving DecidableEq
inductive Members where
  | nil
  | cons (key : Key) (value : Value) (rest : Members)
  deriving DecidableEq
end

def Members.get? : Members → Key → Option Value
  | .nil, _ => none
  | .cons key value rest, wanted => if key = wanted then some value else rest.get? wanted

def Members.keys : Members → List Key
  | .nil => []
  | .cons key _ rest => key :: rest.keys

def Members.insert (key : Key) (value : Value) : Members → Members
  | .nil => .cons key value .nil
  | .cons first inner rest =>
    if first = key then .cons key value rest
    else if key < first then .cons key value (.cons first inner rest)
    else .cons first inner (rest.insert key value)

def Value.get? : Value → Key → Option Value
  | .object members, key => members.get? key
  | _, _ => none

def Value.asStr : Value → Option (List Char)
  | .string text => some text
  | _ => none

def Value.isObject : Value → Bool
  | .object _ => true
  | _ => false

def Value.getPath : Value → List Key → Option Value
  | value, [] => some value
  | value, part :: rest => do
    let inner ← value.get? part
    inner.getPath rest

/-- Assignment to `value[key]`: null becomes an object, and what is neither
stops the program. -/
def Value.set : Value → Key → Value → Option Value
  | .null, key, inner => some (.object (.cons key inner .nil))
  | .object members, key, inner => some (.object (members.insert key inner))
  | _, _, _ => none

namespace Members

theorem get?_lt {members : Members} {key : Key} {value : Value}
    (found : members.get? key = some value) : sizeOf value < sizeOf members := by
  cases members with
  | nil => cases found
  | cons first inner rest =>
    rw [get?] at found
    split at found
    · cases found
      simp
      omega
    · have below := get?_lt found
      simp
      omega

theorem get?_isSome (members : Members) (key : Key) :
    (members.get? key).isSome ↔ key ∈ members.keys := by
  cases members with
  | nil => simp [get?, keys]
  | cons first inner rest =>
    rw [get?, keys, List.mem_cons, ← get?_isSome rest key]
    by_cases same : first = key
    · simp [same]
    · simp [same, Ne.symm same]

theorem get?_insert (members : Members) (key : Key) (value : Value) (wanted : Key) :
    (members.insert key value).get? wanted = if key = wanted then some value
      else members.get? wanted := by
  cases members with
  | nil => rfl
  | cons first inner rest =>
    rw [insert]
    split
    · rename_i same
      simp only [get?, same]
      split <;> rfl
    · split
      · rfl
      · simp only [get?, get?_insert rest key value wanted]
        grind

end Members

theorem Value.get?_lt {value inner : Value} {key : Key} (found : value.get? key = some inner) :
    sizeOf inner < sizeOf value := by
  cases value with
  | object members =>
    have below := Members.get?_lt (show members.get? key = some inner from found)
    simp
    omega
  | _ => cases found

/-- Induction along the members of objects. -/
theorem Value.descend {motive : Value → Prop}
    (step : ∀ value, (∀ key inner, value.get? key = some inner → motive inner) → motive value)
    (value : Value) : motive value :=
  step value fun _ inner _found => Value.descend step inner
termination_by sizeOf value
decreasing_by exact Value.get?_lt _found

mutual
/-- Every key of the objects inside, arrays apart, satisfies a predicate. -/
def Value.Keys (good : Key → Prop) : Value → Prop
  | .object members => members.Keys good
  | _ => True
def Members.Keys (good : Key → Prop) : Members → Prop
  | .nil => True
  | .cons key value rest => good key ∧ value.Keys good ∧ rest.Keys good
end

mutual
/-- The members of the objects inside, arrays apart, are in strict order. -/
def Value.Sorted : Value → Prop
  | .object members => members.Sorted
  | _ => True
def Members.Sorted : Members → Prop
  | .nil => True
  | .cons key value rest => (∀ other ∈ rest.keys, key < other) ∧ value.Sorted ∧ rest.Sorted
end

namespace Members

theorem Keys.found {good : Key → Prop} {members : Members} {key : Key} {value : Value}
    (all : members.Keys good) (found : members.get? key = some value) :
    good key ∧ value.Keys good := by
  cases members with
  | nil => cases found
  | cons first inner rest =>
    obtain ⟨here, inside, others⟩ := all
    rw [get?] at found
    split at found
    · rename_i same
      cases found
      exact ⟨same ▸ here, inside⟩
    · exact Keys.found others found

theorem Sorted.found {members : Members} {key : Key} {value : Value} (sorted : members.Sorted)
    (found : members.get? key = some value) : value.Sorted := by
  cases members with
  | nil => cases found
  | cons first inner rest =>
    obtain ⟨_, inside, others⟩ := sorted
    rw [get?] at found
    split at found
    · cases found
      exact inside
    · exact Sorted.found others found

theorem get?_below {members : Members} {key : Key} (below : ∀ other ∈ members.keys, key < other) :
    members.get? key = none := by
  rw [← Option.not_isSome_iff_eq_none, get?_isSome]
  exact fun listed => lt_irrefl key (below key listed)

theorem Sorted.ext {one other : Members} (first : one.Sorted) (second : other.Sorted)
    (same : ∀ key, one.get? key = other.get? key) : one = other := by
  cases one with
  | nil => cases other with
    | nil => rfl
    | cons key value rest => simpa [get?] using same key
  | cons key value rest => cases other with
    | nil => simpa [get?] using same key
    | cons key' value' rest' =>
      obtain ⟨below, _, sorted⟩ := first
      obtain ⟨below', _, sorted'⟩ := second
      have equal : key = key' := by
        by_contra apart
        -- the smaller of two first keys is missing on the other side
        rcases lt_or_gt_of_ne apart with less | more
        · have absent := get?_below fun other listed => less.trans (below' other listed)
          simpa [get?, Ne.symm apart, absent] using same key
        · have absent := get?_below fun other listed => more.trans (below other listed)
          simpa [get?, apart, absent] using same key'
      subst equal
      have values : value = value' := by simpa [get?] using same key
      have rests : rest = rest' := Sorted.ext sorted sorted' fun wanted => by
        by_cases here : key = wanted
        · rw [← here, get?_below below, get?_below below']
        · simpa [get?, here] using same wanted
      rw [values, rests]

end Members

end TlsVpn.Json

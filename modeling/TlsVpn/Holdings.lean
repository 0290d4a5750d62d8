import Mathlib

/-!
Tokens held by the entries of a list. Replacing one entry changes the tokens
held by exactly what that entry held before and holds now, so a token that moves
between two holders is neither lost nor doubled. A log of tokens with the
position each went to is read position by position.
-/

namespace TlsVpn.Holdings

universe u v

variable {Holder : Type u} {Token : Type v}

def held (tokens : Holder → List Token) (holders : List Holder) : List Token :=
  holders.flatMap tokens

variable (tokens : Holder → List Token)

theorem held_append (left right : List Holder) :
    held tokens (left ++ right) = held tokens left ++ held tokens right :=
  List.flatMap_append

theorem held_singleton (holder : Holder) : held tokens [holder] = tokens holder := by
  simp [held]

section

variable (holders : List Holder) (index : Nat)

/-- The exchange law: what the replaced entry held stands against what the new
one holds. -/
theorem held_set (old new : Holder) (found : holders[index]? = some old) :
    (tokens old ++ held tokens (holders.set index new)).Perm
      (tokens new ++ held tokens holders) := by
  obtain ⟨inside, same⟩ := List.getElem?_eq_some_iff.mp found
  have after : (held tokens (holders.set index new)).Perm
      (tokens new ++ held tokens (holders.eraseIdx index)) :=
    (List.set_perm_cons_eraseIdx inside new).flatMap_right tokens
  have before : (tokens old ++ held tokens (holders.eraseIdx index)).Perm
      (held tokens holders) := by
    have whole := (List.getElem_cons_eraseIdx_perm inside).flatMap_right tokens
    rw [same] at whole
    exact whole
  refine (after.append_left (tokens old)).trans (List.Perm.trans ?_ (before.append_left (tokens new)))
  rw [← List.append_assoc, ← List.append_assoc]
  exact List.perm_append_comm.append_right _

theorem held_set_part (old new : Holder) (part : List Token) (found : holders[index]? = some old)
    (split : tokens old = part ++ tokens new) :
    (part ++ held tokens (holders.set index new)).Perm (held tokens holders) := by
  have exchange := held_set tokens holders index old new found
  rw [split] at exchange
  refine (List.perm_append_left_iff (tokens new)).mp (List.Perm.trans ?_ exchange)
  rw [← List.append_assoc]
  exact List.perm_append_comm.append_right _

theorem held_set_same (old new : Holder) (found : holders[index]? = some old)
    (same : tokens new = tokens old) :
    (held tokens (holders.set index new)).Perm (held tokens holders) := by
  have exchange := held_set tokens holders index old new found
  rw [same] at exchange
  exact (List.perm_append_left_iff _).mp exchange

theorem mem_held_set (new : Holder) (token : Token)
    (member : token ∈ held tokens (holders.set index new)) :
    token ∈ tokens new ∨ token ∈ held tokens holders := by
  obtain ⟨holder, present, owns⟩ := List.mem_flatMap.mp member
  rcases List.mem_or_eq_of_mem_set present with old | same
  · exact Or.inr (List.mem_flatMap.mpr ⟨holder, old, owns⟩)
  · exact Or.inl (same ▸ owns)

end

theorem held_apart {tokens : Holder → List Token} {holders : List Holder}
    (nodup : (held tokens holders).Nodup) {first second : Nat} {left right : Holder}
    (leftAt : holders[first]? = some left) (rightAt : holders[second]? = some right)
    {token : Token} (leftOwns : token ∈ tokens left) (rightOwns : token ∈ tokens right) :
    first = second := by
  have disjoint := List.pairwise_iff_getElem.mp (List.nodup_flatMap.mp nodup).2
  obtain ⟨firstInside, rfl⟩ := List.getElem?_eq_some_iff.mp leftAt
  obtain ⟨secondInside, rfl⟩ := List.getElem?_eq_some_iff.mp rightAt
  rcases Nat.lt_trichotomy first second with before | same | after
  · exact absurd rightOwns (disjoint first second firstInside secondInside before leftOwns)
  · exact same
  · exact absurd leftOwns (disjoint second first secondInside firstInside after rightOwns)

theorem lookup_set {holders : List Holder} {index other : Nat} {new found : Holder}
    (lookup : (holders.set index new)[other]? = some found) :
    (other = index ∧ found = new) ∨ (other ≠ index ∧ holders[other]? = some found) := by
  rw [List.getElem?_set] at lookup
  split at lookup
  · rename_i same
    split at lookup
    · exact Or.inl ⟨same.symm, (Option.some.inj lookup).symm⟩
    · cases lookup
  · rename_i apart
    exact Or.inr ⟨Ne.symm apart, lookup⟩

theorem lookup_concat {holders : List Holder} {index : Nat} {last found : Holder}
    (lookup : (holders ++ [last])[index]? = some found) :
    holders[index]? = some found ∨ (index = holders.length ∧ found = last) := by
  rcases Nat.lt_or_ge index holders.length with inside | beyond
  · exact Or.inl ((List.getElem?_append_left inside).symm.trans lookup)
  · have small := (List.getElem?_eq_some_iff.mp lookup).1
    rw [List.length_append, List.length_singleton] at small
    have here : index = holders.length := by omega
    rw [here, List.getElem?_concat_length] at lookup
    exact Or.inr ⟨here, (Option.some.inj lookup).symm⟩

theorem forall_mem_set {holds : Holder → Prop} {holders : List Holder}
    (all : ∀ holder ∈ holders, holds holder) (index : Nat) (new : Holder) (fresh : holds new) :
    ∀ holder ∈ holders.set index new, holds holder := by
  intro holder present
  rcases List.mem_or_eq_of_mem_set present with old | same
  · exact all holder old
  · rw [same]
    exact fresh

theorem forall_mem_concat {holds : Holder → Prop} {holders : List Holder} {new : Holder}
    (all : ∀ holder ∈ holders, holds holder) (fresh : holds new) :
    ∀ holder ∈ holders ++ [new], holds holder :=
  List.forall_mem_append.mpr ⟨all, List.forall_mem_singleton.mpr fresh⟩

section Weights

variable (weight : Holder → Nat) (holders : List Holder)

theorem weight_set (index : Nat) (old new : Holder) (found : holders[index]? = some old) :
    ((holders.set index new).map weight).sum + weight old =
      (holders.map weight).sum + weight new := by
  induction holders generalizing index with
  | nil => cases found
  | cons first rest ih =>
    cases index with
    | zero =>
      cases found
      simp only [List.set_cons_zero, List.map_cons, List.sum_cons]
      omega
    | succ index =>
      have later := ih index found
      simp only [List.set_cons_succ, List.map_cons, List.sum_cons]
      omega

theorem weight_concat (last : Holder) :
    ((holders ++ [last]).map weight).sum = (holders.map weight).sum + weight last := by
  rw [List.map_append, List.sum_append, List.map_singleton, List.sum_singleton]

end Weights

section Tally

structure Tally (used : Finset Token) (tokens : List Token) : Prop where
  nodup : tokens.Nodup
  exact : ∀ token, token ∈ used ↔ token ∈ tokens

variable {used : Finset Token} {tokens others : List Token} {token : Token}

theorem Tally.perm (tally : Tally used tokens) (order : tokens.Perm others) : Tally used others :=
  ⟨order.nodup_iff.mp tally.nodup, fun token => (tally.exact token).trans order.mem_iff⟩

variable [DecidableEq Token]

theorem Tally.add (tally : Tally used tokens) (free : token ∉ used) :
    Tally (insert token used) (token :: tokens) := by
  constructor
  · exact List.nodup_cons.mpr ⟨fun member => free ((tally.exact token).mpr member), tally.nodup⟩
  · intro other
    rw [Finset.mem_insert, List.mem_cons, tally.exact]

theorem Tally.remove (tally : Tally used (token :: tokens)) : Tally (used.erase token) tokens := by
  obtain ⟨absent, rest⟩ := List.nodup_cons.mp tally.nodup
  constructor
  · exact rest
  · intro other
    rw [Finset.mem_erase, tally.exact, List.mem_cons]
    constructor
    · rintro ⟨different, same | member⟩
      · exact absurd same different
      · exact member
    · intro member
      exact ⟨fun same => absent (same ▸ member), Or.inr member⟩

end Tally


end TlsVpn.Holdings

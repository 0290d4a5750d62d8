import Mathlib

/-!
Self-delimiting streams. An item is written as a string of symbols from whose
front a reader can tell, without looking past its end, whether the item is
complete and which value it stands for; several strings may stand for one value.
Whatever part of a stream of such items has arrived, the reader is at an item
that is there as a whole, or it waits for the rest of one.
-/

namespace TlsVpn.Delimited

universe u v w

inductive Verdict (Symbol : Type u) (Value : Type v) where
  | more
  | item (value : Value) (rest : List Symbol)
  | bad

structure Format (Symbol : Type u) (Item : Type w) (Value : Type v) where
  encode : Item → List Symbol
  value : Item → Value
  decode : List Symbol → Verdict Symbol Value
  decode_nil : decode [] = .more
  decode_encode : ∀ item rest, decode (encode item ++ rest) = .item (value item) rest
  decode_part : ∀ item part rest, rest ≠ [] → encode item = part ++ rest → decode part = .more

variable {Symbol : Type u} {Item : Type w} {Value : Type v}

def stream (encode : Item → List Symbol) (items : List Item) : List Symbol := items.flatMap encode

variable (encode : Item → List Symbol) (items : List Item)

@[simp]
theorem stream_nil : stream encode [] = [] := rfl

@[simp]
theorem stream_cons (item : Item) (items : List Item) :
    stream encode (item :: items) = encode item ++ stream encode items := rfl

@[simp]
theorem stream_append (others : List Item) :
    stream encode (items ++ others) = stream encode items ++ stream encode others :=
  List.flatMap_append

inductive Place (format : Format Symbol Item Value) (unread pending : List Symbol) :
    List Item → Prop
  | complete (item : Item) (rest : List Symbol) (items : List Item)
      (reads : format.decode unread = .item (format.value item) rest)
      (remains : rest ++ pending = stream format.encode items) :
      Place format unread pending (item :: items)
  | waiting (items : List Item) (reads : format.decode unread = .more)
      (incomplete : pending = [] → items = []) : Place format unread pending items

theorem Format.place (format : Format Symbol Item Value) {unread pending : List Symbol}
    (items : List Item) (arrived : unread ++ pending = stream format.encode items) :
    Place format unread pending items := by
  cases items with
  | nil =>
    have nothing := List.append_eq_nil_iff.mp arrived
    exact .waiting [] (nothing.1 ▸ format.decode_nil) fun _ => rfl
  | cons item items =>
    rw [stream_cons] at arrived
    -- either the item's string is all there, or what is there is part of it
    rcases List.append_eq_append_iff.mp arrived with ⟨missing, whole, later⟩ | ⟨rest, whole, remains⟩
    · by_cases none : missing = []
      · subst none
        apply Place.complete item [] items
        · rw [← List.append_nil unread, ← whole.trans (List.append_nil unread)]
          exact format.decode_encode item []
        · exact later
      · apply Place.waiting
        · exact format.decode_part item unread missing none whole
        · intro ended
          rw [later] at ended
          exact absurd (List.append_eq_nil_iff.mp ended).1 none
    · apply Place.complete item rest items
      · rw [whole]
        exact format.decode_encode item rest
      · exact remains.symm

end TlsVpn.Delimited

import Mathlib

/-!
Texts as the standard library reads and writes them: whitespace trimmed at both
ends, a text cut at the first of a character or at all of them, decimal counts,
and addresses. An address format is a writer and a reader that reads back what
was written; the dotted one of IPv4 is given in full, that of IPv6 without the
short form for runs of zeros.
-/

namespace TlsVpn.AddressText

abbrev Text := List Char

section Trim

/-- Unicode `White_Space`. -/
def isWhitespace (char : Char) : Bool :=
  let code := char.toNat
  (9 ≤ code && code ≤ 13) || code == 0x20 || code == 0x85 || code == 0xA0 || code == 0x1680 ||
    (0x2000 ≤ code && code ≤ 0x200A) || code == 0x2028 || code == 0x2029 || code == 0x202F ||
    code == 0x205F || code == 0x3000

def trim (text : Text) : Text := (text.dropWhile isWhitespace).rdropWhile isWhitespace

variable {text : Text}

theorem trim_eq_self (first : ∀ char ∈ text.head?, isWhitespace char = false)
    (last : ∀ char ∈ text.getLast?, isWhitespace char = false) : trim text = text := by
  have front : text.dropWhile isWhitespace = text := by
    cases text with
    | nil => rfl
    | cons char rest => simp [first char rfl]
  unfold trim
  rw [front, List.rdropWhile_eq_self_iff]
  intro nonempty
  have ending := last (text.getLast nonempty) (List.getLast?_eq_some_getLast nonempty)
  simp [ending]

theorem trim_of_plain (plain : ∀ char ∈ text, isWhitespace char = false) : trim text = text :=
  trim_eq_self (fun char there => plain char (List.mem_of_mem_head? there))
    fun char there => plain char (List.mem_of_getLast? there)

theorem trim_head (trimmed : trim text = text) :
    ∀ char ∈ text.head?, isWhitespace char = false := by
  intro char there
  cases text with
  | nil => cases there
  | cons front rest =>
    cases there
    by_contra white
    have longer : (trim (char :: rest)).length ≤ rest.length := by
      unfold trim
      rw [List.dropWhile_cons_of_pos (by simpa using white)]
      exact (List.rdropWhile_prefix isWhitespace _).length_le.trans
        (List.dropWhile_sublist isWhitespace).length_le
    rw [trimmed] at longer
    exact absurd longer (Nat.not_le.mpr (Nat.lt_succ_self _))

theorem trim_last (trimmed : trim text = text) :
    ∀ char ∈ text.getLast?, isWhitespace char = false := by
  intro char there
  have nonempty : text ≠ [] := by
    rintro rfl
    cases there
  have whole : (trim text).rdropWhile isWhitespace = trim text := by
    unfold trim
    exact List.rdropWhile_idempotent ..
  rw [trimmed, List.rdropWhile_eq_self_iff] at whole
  have ending := whole nonempty
  rw [List.getLast?_eq_some_getLast nonempty] at there
  cases there
  simpa using ending

end Trim

section Cut

/-- `split_once`, and `splitn(2, _)`: what stands before the first of the
character and, if there is one, what stands behind it. -/
def cut (mark : Char) (text : Text) : Text × Option Text :=
  (text.takeWhile (· != mark), (text.dropWhile (· != mark)).tail?)

theorem cut_joined (mark : Char) (text before after : Text)
    (parts : cut mark text = (before, some after)) : text = before ++ mark :: after := by
  obtain ⟨front, back⟩ := Prod.mk.inj parts
  cases shape : text.dropWhile (· != mark) with
  | nil =>
    rw [shape] at back
    cases back
  | cons char rest =>
    rw [shape] at back
    have tail : rest = after := Option.some.inj back
    have same : char = mark := by
      have stops := List.head?_dropWhile_not (· != mark) text
      rw [shape] at stops
      simpa using stops
    calc text = text.takeWhile (· != mark) ++ text.dropWhile (· != mark) :=
          List.takeWhile_append_dropWhile.symm
      _ = before ++ mark :: after := by rw [front, shape, same, tail]

end Cut

section Fields

/-- `split`. -/
def fields (mark : Char) : Text → List Text
  | [] => [[]]
  | char :: rest =>
    if char = mark then [] :: fields mark rest
    else
      match fields mark rest with
      | [] => [[char]]
      | field :: others => (char :: field) :: others

variable (mark : Char) (part : Text)

theorem fields_append (rest : Text) (field : Text) (others : List Text) (apart : mark ∉ part)
    (split : fields mark rest = field :: others) :
    fields mark (part ++ rest) = (part ++ field) :: others := by
  induction part with
  | nil => exact split
  | cons char part ih =>
    have different : char ≠ mark := fun same => apart (same ▸ List.mem_cons_self)
    have tail := ih fun member => apart (List.mem_cons_of_mem char member)
    simp only [List.cons_append, fields, different, if_false, tail]

theorem fields_intercalate (parts : List Text) (apart : ∀ each ∈ part :: parts, mark ∉ each) :
    fields mark ([mark].intercalate (part :: parts)) = part :: parts := by
  induction parts generalizing part with
  | nil =>
    have single := fields_append mark part [] [] [] (apart part List.mem_cons_self) rfl
    rw [List.append_nil] at single
    rw [List.intercalate_singleton]
    exact single
  | cons next parts ih =>
    have tail := ih next fun each member => apart each (List.mem_cons_of_mem part member)
    have behind : fields mark (mark :: [mark].intercalate (next :: parts)) =
        [] :: next :: parts := by
      rw [fields, if_pos rfl, tail]
    have whole := fields_append mark part _ [] (next :: parts) (apart part List.mem_cons_self)
      behind
    rw [List.append_nil] at whole
    rw [List.intercalate_cons_cons]
    simpa using whole

end Fields

section Counts

def isDigit (char : Char) : Bool := '0' ≤ char && char ≤ '9'

def digitValue (char : Char) : Nat := char.toNat - 48

def decimalValue (digits : Text) : Nat :=
  digits.foldl (fun value char => value * 10 + digitValue char) 0

/-- `str::parse::<u32>`: an optional plus, then digits, without overflow. -/
def parseU32 (text : Text) : Option Nat :=
  let digits := match text with
    | '+' :: rest => rest
    | whole => whole
  if digits.isEmpty || !digits.all isDigit || decide (2 ^ 32 ≤ decimalValue digits) then none
  else some (decimalValue digits)

theorem isDigit_plain {char : Char} (digit : isDigit char = true) : isWhitespace char = false := by
  simp only [isDigit, Bool.and_eq_true, decide_eq_true_eq, Char.le_def, UInt32.le_iff_toNat_le] at digit
  change 48 ≤ char.toNat ∧ char.toNat ≤ 57 at digit
  simp only [isWhitespace, Bool.or_eq_false_iff, Bool.and_eq_false_iff, decide_eq_false_iff_not,
    beq_eq_false_iff_ne]
  omega

theorem parseU32_plain {text : Text} {value : Nat} (read : parseU32 text = some value) :
    ∀ char ∈ text, isWhitespace char = false := by
  have all : ∀ digits : Text, (if digits.isEmpty || !digits.all isDigit ||
      decide (2 ^ 32 ≤ decimalValue digits) then none else some (decimalValue digits)) = some value →
      ∀ char ∈ digits, isWhitespace char = false := by
    intro digits read char there
    split at read
    · cases read
    · rename_i passed
      simp only [Bool.not_eq_true, Bool.or_eq_false_iff, Bool.not_eq_false'] at passed
      exact isDigit_plain (List.all_eq_true.mp passed.1.2 char there)
  unfold parseU32 at read
  split at read
  · exact List.forall_mem_cons.mpr ⟨by decide, all _ read⟩
  · exact all _ read

end Counts

section Format

/-- A way to write addresses of a width that reads back what was written. -/
structure AddressFormat (w : Nat) where
  text : BitVec w → Text
  parse : Text → Option (BitVec w)
  parse_text : ∀ address, parse (text address) = some address
  parse_nil : parse [] = none

variable {w : Nat} (format : AddressFormat w)

theorem AddressFormat.text_injective : Function.Injective format.text := by
  intro address other same
  have read := format.parse_text address
  rw [same, format.parse_text] at read
  exact (Option.some.inj read).symm

theorem AddressFormat.text_ne_nil (address : BitVec w) : format.text address ≠ [] := by
  intro empty
  have read := format.parse_text address
  rw [empty, format.parse_nil] at read
  cases read

end Format

section Dotted

def decimalText (value : Nat) : Text := Nat.toDigits 10 value

/-- `read_number(10, Some(3), false)`: one to three digits, no leading zero. -/
def readOctet (text : Text) : Option (Nat × Text) :=
  let digits := text.takeWhile isDigit
  if digits.isEmpty || decide (3 < digits.length) ||
      (digits.head? == some '0' && decide (1 < digits.length)) ||
      decide (255 < decimalValue digits) then none
  else some (decimalValue digits, text.dropWhile isDigit)

def readDot : Text → Option Text
  | '.' :: rest => some rest
  | _ => none

def fromOctets (a b c d : Nat) : BitVec 32 :=
  BitVec.ofNat 32 (a * 16777216 + b * 65536 + c * 256 + d)

/-- `Ipv4Addr::from_str`. -/
def parseDotted (text : Text) : Option (BitVec 32) :=
  if 15 < text.length then none
  else do
    let (a, rest) ← readOctet text
    let rest ← readDot rest
    let (b, rest) ← readOctet rest
    let rest ← readDot rest
    let (c, rest) ← readOctet rest
    let rest ← readDot rest
    let (d, rest) ← readOctet rest
    if rest.isEmpty then some (fromOctets a b c d) else none

def octet (address : BitVec 32) (place : Nat) : Nat := address.toNat / 256 ^ place % 256

def dottedText (address : BitVec 32) : Text :=
  decimalText (octet address 3) ++ '.' :: decimalText (octet address 2) ++
    '.' :: decimalText (octet address 1) ++ '.' :: decimalText (octet address 0)

theorem decimalText_octet : ∀ value < 256,
    (decimalText value).all isDigit = true ∧ decimalValue (decimalText value) = value ∧
      (decimalText value).length ≤ 3 ∧ (decimalText value).isEmpty = false ∧
      ((decimalText value).head? == some '0' && decide (1 < (decimalText value).length)) =
        false := by
  decide +kernel

variable (address : BitVec 32)

variable {value : Nat} {text rest : Text}

theorem takeWhile_all_append {Entry : Type} (test : Entry → Bool) (front back : List Entry)
    (passes : front.all test = true) (stops : ∀ entry ∈ back.head?, test entry = false) :
    (front ++ back).takeWhile test = front ∧ (front ++ back).dropWhile test = back := by
  have stopped : back.takeWhile test = [] ∧ back.dropWhile test = back := by
    cases back with
    | nil => exact ⟨rfl, rfl⟩
    | cons entry rest => simp [stops entry rfl]
  have all := List.all_eq_true.mp passes
  rw [List.takeWhile_append_of_pos all, List.dropWhile_append_of_pos all, stopped.1, stopped.2]
  exact ⟨List.append_nil _, rfl⟩

theorem readOctet_text (small : value < 256) (rest : Text)
    (stops : ∀ char ∈ rest.head?, isDigit char = false) :
    readOctet (decimalText value ++ rest) = some (value, rest) := by
  obtain ⟨digits, back, short, nonempty, lead⟩ := decimalText_octet value small
  obtain ⟨front, tail⟩ := takeWhile_all_append isDigit (decimalText value) rest digits stops
  unfold readOctet
  simp only [front, tail, back, nonempty, lead, decide_eq_false (Nat.not_lt.mpr short),
    decide_eq_false (Nat.not_lt.mpr (Nat.le_of_lt_succ small)), Bool.or_false, Bool.false_eq_true,
    if_false]

theorem octet_lt (place : Nat) : octet address place < 256 :=
  Nat.mod_lt _ (by decide)

theorem fromOctets_octets :
    fromOctets (octet address 3) (octet address 2) (octet address 1) (octet address 0) =
      address := by
  apply BitVec.eq_of_toNat_eq
  have bound := address.isLt
  unfold fromOctets octet
  rw [BitVec.toNat_ofNat]
  omega

theorem dottedText_length : (dottedText address).length ≤ 15 := by
  have short := fun place => (decimalText_octet _ (octet_lt address place)).2.2.1
  have third := short 3
  have second := short 2
  have first := short 1
  have zeroth := short 0
  unfold dottedText
  simp only [List.length_append, List.length_cons]
  omega

theorem parseDotted_text : parseDotted (dottedText address) = some address := by
  have dot : ∀ rest : Text, ∀ char ∈ ('.' :: rest).head?, isDigit char = false := by
    rintro rest char ⟨⟩
    decide
  have last := readOctet_text (octet_lt address 0) [] (by simp)
  rw [List.append_nil] at last
  unfold parseDotted
  rw [if_neg (Nat.not_lt.mpr (dottedText_length address))]
  simp only [dottedText, List.append_assoc, List.cons_append,
    readOctet_text (octet_lt address _) _ (dot _), Option.bind_eq_bind, Option.bind_some, readDot,
    last, List.isEmpty_nil, if_true, fromOctets_octets]

theorem readOctet_plain (read : readOctet text = some (value, rest))
    (behind : ∀ char ∈ rest, isWhitespace char = false) :
    ∀ char ∈ text, isWhitespace char = false := by
  simp only [readOctet] at read
  split at read
  · cases read
  · cases read
    intro char there
    rw [← List.takeWhile_append_dropWhile (p := isDigit) (l := text), List.mem_append] at there
    rcases there with digit | later
    · exact isDigit_plain (List.mem_takeWhile_imp digit)
    · exact behind char later

theorem readDot_plain (read : readDot text = some rest)
    (behind : ∀ char ∈ rest, isWhitespace char = false) :
    ∀ char ∈ text, isWhitespace char = false := by
  unfold readDot at read
  split at read
  · cases read
    exact List.forall_mem_cons.mpr ⟨by decide, behind⟩
  · cases read

theorem parseDotted_plain {address : BitVec 32} (read : parseDotted text = some address) :
    ∀ char ∈ text, isWhitespace char = false := by
  unfold parseDotted at read
  split at read
  · cases read
  · simp only [Option.bind_eq_bind, Option.bind_eq_some_iff, Prod.exists] at read
    obtain ⟨_, _, a, _, dot, _, _, b, _, dot', _, _, c, _, dot'', _, rest, d, last⟩ := read
    have nothing : rest = [] := by
      by_contra more
      simp [more] at last
    subst nothing
    have final := readOctet_plain d (by simp)
    exact readOctet_plain a (readDot_plain dot (readOctet_plain b (readDot_plain dot'
      (readOctet_plain c (readDot_plain dot'' final)))))

def dotted : AddressFormat 32 where
  text := dottedText
  parse := parseDotted
  parse_text := parseDotted_text
  parse_nil := rfl

end Dotted

section Colons

/-- A digit of `hex::decode` and of `to_digit(16)`. -/
def hexValue (char : Char) : Option Nat :=
  if '0' ≤ char ∧ char ≤ '9' then some (char.toNat - 48)
  else if 'a' ≤ char ∧ char ≤ 'f' then some (char.toNat - 87)
  else if 'A' ≤ char ∧ char ≤ 'F' then some (char.toNat - 55)
  else none

theorem hexValue_digit : ∀ value < 16, hexValue (Nat.digitChar value) = some value ∧
    Nat.digitChar value ≠ ':' := by
  decide

def hexStep (value : Nat) (char : Char) : Option Nat := (hexValue char).map (value * 16 + ·)

/-- `read_number(16, Some(4), true)` of a whole text. -/
def hexGroup (text : Text) : Option Nat :=
  if text.isEmpty || decide (4 < text.length) then none else text.foldlM hexStep 0

theorem hex_digits (value : Nat) :
    (Nat.toDigits 16 value).foldlM hexStep 0 = some value ∧ ':' ∉ Nat.toDigits 16 value := by
  induction value using Nat.strongRecOn with
  | ind value ih =>
    obtain ⟨last, apart⟩ := hexValue_digit (value % 16) (Nat.mod_lt _ (by decide))
    rcases Nat.lt_or_ge value 16 with small | large
    · rw [Nat.toDigits_of_lt_base small]
      rw [Nat.mod_eq_of_lt small] at last apart
      simp [hexStep, last, apart.symm]
    · obtain ⟨front, before⟩ := ih (value / 16) (by omega)
      rw [Nat.toDigits_of_base_le (by decide) large]
      simp [front, hexStep, last, before, apart.symm, Nat.div_add_mod']

theorem hexGroup_digits {value : Nat} (small : value < 65536) :
    hexGroup (Nat.toDigits 16 value) = some value := by
  have short := (Nat.length_toDigits_le_iff (show 1 < 16 by decide) (show 0 < 4 by decide)).mpr small
  simp [hexGroup, (hex_digits value).1, Nat.not_lt.mpr short]

/-- The eight groups of an IPv6 address, with none left out: what the standard
library writes for every address without two adjacent groups of 0. -/
def colonsText (address : BitVec 128) : Text :=
  [':'].intercalate ([7, 6, 5, 4, 3, 2, 1, 0].map fun place =>
    Nat.toDigits 16 (address.toNat / 65536 ^ place % 65536))

def parseColons (text : Text) : Option (BitVec 128) := do
  let groups ← (fields ':' text).mapM hexGroup
  if groups.length = 8 then
    return BitVec.ofNat 128 (groups.foldl (fun value group => value * 65536 + group) 0)
  else none

theorem parseColons_text (address : BitVec 128) :
    parseColons (colonsText address) = some address := by
  have group := fun place => hexGroup_digits
    (Nat.mod_lt (address.toNat / 65536 ^ place) (show 0 < 65536 by decide))
  unfold parseColons colonsText
  rw [List.map_cons, fields_intercalate ':' _ _ fun each member => ?_]
  · simp only [List.map_cons, List.map_nil, List.mapM_cons, List.mapM_nil, group,
      Option.bind_eq_bind, Option.bind_some, Option.pure_def, List.length_cons, List.length_nil,
      if_true, List.foldl_cons, List.foldl_nil]
    have bound := address.isLt
    rw [Option.some_inj]
    apply BitVec.eq_of_toNat_eq
    rw [BitVec.toNat_ofNat]
    omega
  · rcases List.mem_cons.mp member with rfl | later
    · exact (hex_digits _).2
    · obtain ⟨place, -, rfl⟩ := List.mem_map.mp later
      exact (hex_digits _).2

def colons : AddressFormat 128 where
  text := colonsText
  parse := parseColons
  parse_text := parseColons_text
  parse_nil := rfl

end Colons
end TlsVpn.AddressText

import TlsVpn.AddressText
import TlsVpn.Checked

/-!
The two readers of the server's address ranges. `is_valid_cidr` stands in the
configuration check and trims the text, the address and the prefix length;
`parse_v4_cidr` and `parse_v6_cidr` set up the pool, trim nothing and fall back
to a default network or length without a word. On texts with no whitespace at
the ends of the two parts they agree.
-/

namespace TlsVpn.Cidr

open AddressText

section Readers

variable {w : Nat}

def validCidr (parse : Text → Option (BitVec w)) (text : Text) : Bool :=
  let text := trim text
  if text.isEmpty then false
  else
    match cut '/' text with
    | (address, some bits) =>
      match parseU32 (trim bits) with
      | some bits => (parse (trim address)).isSome && decide (bits ≤ w)
      | none => false
    | (_, none) => (parse text).isSome

structure Family (w : Nat) where
  parse : Text → Option (BitVec w)
  /-- The address taken for one that cannot be read. -/
  fallback : BitVec w
  defaultBits : Nat
  mask : Nat → Checked (BitVec w)

/-- The prefix length as written, if it can be read. -/
def writtenBits (text : Text) : Option Nat := (cut '/' text).2.bind parseU32

def Family.writtenAddress (family : Family w) (text : Text) : Option (BitVec w) :=
  family.parse (cut '/' text).1

def Family.parseCidr (family : Family w) (text : Text) : Checked (BitVec w × Nat) := do
  let bits := (writtenBits text).getD family.defaultBits
  let mask ← family.mask bits
  return ((family.writtenAddress text).getD family.fallback &&& mask, min bits w)

def v4Mask (bits : Nat) : Checked (BitVec 32) :=
  if bits = 0 then pure 0
  else do
    let shift ← Checked.subCount 32 (min bits 32)
    Checked.shl (BitVec.allOnes 32) shift

def v6Mask (bits : Nat) : Checked (BitVec 128) :=
  if bits = 0 then pure 0
  else if bits ≥ 128 then pure (BitVec.allOnes 128)
  else do
    let shift ← Checked.subCount 128 bits
    Checked.shl (BitVec.allOnes 128) shift

def v4Family : Family 32 where
  parse := parseDotted
  fallback := fromOctets 10 0 0 1
  defaultBits := 24
  mask := v4Mask

/-- The reader of IPv6 addresses is the standard library's. -/
def v6Family (parse : Text → Option (BitVec 128)) : Family 128 where
  parse := parse
  -- fd00::1
  fallback := 0xfd000000000000000000000000000001#128
  defaultBits := 64
  mask := v6Mask

def parseV4Cidr (text : Text) : Checked (BitVec 32 × Nat) := v4Family.parseCidr text

def parseV6Cidr (parse : Text → Option (BitVec 128)) (text : Text) : Checked (BitVec 128 × Nat) :=
  (v6Family parse).parseCidr text

def isValidCidr (parse : Text → Option (BitVec 128)) (text : Text) (v6 : Bool) : Bool :=
  if v6 then validCidr parse text else validCidr parseDotted text

end Readers

section Networks

variable {w : Nat}

def network (address : BitVec w) (bits : Nat) : BitVec w :=
  (address >>> (w - bits)) <<< (w - bits)

variable (address : BitVec w)

theorem and_shifted (shift : Nat) :
    address &&& BitVec.allOnes w <<< shift = (address >>> shift) <<< shift := by
  ext place inside
  simp only [BitVec.getElem_and, BitVec.getElem_shiftLeft, BitVec.getElem_allOnes]
  by_cases low : place < shift
  · simp [low]
  · have back : shift + (place - shift) = place := by omega
    simp [low, back, BitVec.getLsbD_eq_getElem inside]

theorem network_zero : network address 0 = 0 := by
  unfold network
  rw [Nat.sub_zero, BitVec.ushiftRight_eq_zero (Nat.le_refl w)]
  exact BitVec.zero_shiftLeft w

/-- The masks stay within the width and clear exactly the host bits, and a length
beyond the width counts as the width. -/
structure Masks (family : Family w) : Prop where
  capped : ∀ bits, family.mask bits = family.mask (min bits w)
  fits : ∀ bits ≤ w, (family.mask bits).overflow = false
  clears : ∀ bits ≤ w, ∀ address, address &&& (family.mask bits).value = network address bits

theorem Masks.of_shifted {family : Family w}
    (capped : ∀ bits, family.mask bits = family.mask (min bits w))
    (none : family.mask 0 = ⟨0, false⟩)
    (shifted : ∀ bits ≤ w, bits ≠ 0 →
      family.mask bits = ⟨BitVec.allOnes w <<< (w - bits), false⟩) : Masks family := by
  refine ⟨capped, ?_, ?_⟩
  · intro bits most
    by_cases zero : bits = 0
    · rw [zero, none]
    · rw [shifted bits most zero]
  · intro bits most address
    by_cases zero : bits = 0
    · rw [zero, none, network_zero]
      exact BitVec.and_zero
    · rw [shifted bits most zero]
      exact and_shifted address (w - bits)

theorem v4_masks : Masks v4Family := by
  refine Masks.of_shifted (fun bits => ?_) rfl ?_
  · change v4Mask bits = v4Mask (min bits 32)
    simp [v4Mask]
  intro bits most written
  have short : 32 - bits < 32 := by omega
  change v4Mask bits = _
  unfold v4Mask
  rw [if_neg written, Nat.min_eq_left most, Checked.subCount_eq most (by decide)]
  exact Checked.shl_eq short _

theorem v6_masks (parse : Text → Option (BitVec 128)) : Masks (v6Family parse) := by
  refine Masks.of_shifted (fun bits => ?_) rfl ?_
  · change v6Mask bits = v6Mask (min bits 128)
    rcases Nat.lt_or_ge bits 128 with less | more
    · rw [Nat.min_eq_left less.le]
    · simp [v6Mask, more, show bits ≠ 0 by omega]
  intro bits most written
  change v6Mask bits = _
  unfold v6Mask
  rw [if_neg written]
  rcases Nat.lt_or_eq_of_le most with less | rfl
  · have short : 128 - bits < 128 := by omega
    rw [if_neg (Nat.not_le.mpr less), Checked.subCount_eq most (by decide)]
    exact Checked.shl_eq short _
  · rfl

end Networks

section Agreement

variable {w : Nat}

/-- No whitespace at the ends of the text or next to its first slash. -/
def Tidy (text : Text) : Prop :=
  trim (cut '/' text).1 = (cut '/' text).1 ∧ ∀ bits ∈ (cut '/' text).2, trim bits = bits

instance decidableTidy (text : Text) : Decidable (Tidy text) := by
  dsimp only [Tidy]
  exact inferInstance

theorem slash_not_whitespace : isWhitespace '/' = false := by decide

variable {text bits : Text} {family : Family w}

theorem Tidy.trim (tidy : Tidy text) (written : (cut '/' text).2 = some bits) :
    trim text = text := by
  obtain ⟨front, back⟩ := tidy
  have joined : text = (cut '/' text).1 ++ '/' :: bits :=
    cut_joined '/' text _ bits (Prod.ext rfl written)
  have last := trim_last (back bits written)
  have first := trim_head front
  generalize (cut '/' text).1 = address at joined first
  subst joined
  apply trim_eq_self
  · intro char there
    cases address with
    | nil =>
      cases there
      exact slash_not_whitespace
    | cons front rest => exact first char there
  · intro char there
    rw [List.getLast?_append_cons] at there
    cases bits with
    | nil =>
      cases there
      exact slash_not_whitespace
    | cons front rest =>
      rw [List.getLast?_cons_cons] at there
      exact last char there

theorem validCidr_written {parse : Text → Option (BitVec w)} (tidy : Tidy text)
    (written : (cut '/' text).2 = some bits) (valid : validCidr parse text = true) :
    ∃ address count, parse (cut '/' text).1 = some address ∧
      writtenBits text = some count ∧ count ≤ w := by
  have trimmed := tidy.trim written
  obtain ⟨front, back⟩ := tidy
  unfold validCidr at valid
  rw [trimmed] at valid
  have parts : cut '/' text = ((cut '/' text).1, some bits) := Prod.ext rfl written
  simp only at valid
  split at valid
  · cases valid
  rw [parts] at valid
  simp only [back bits written, front] at valid
  cases read : parseU32 bits with
  | none =>
    rw [read] at valid
    cases valid
  | some count =>
    rw [read] at valid
    obtain ⟨known, most⟩ := Bool.and_eq_true_iff.mp valid
    obtain ⟨address, there⟩ := Option.isSome_iff_exists.mp known
    refine ⟨address, count, there, ?_, of_decide_eq_true most⟩
    unfold writtenBits
    rw [written]
    exact read

theorem Family.parseCidr_eq (masks : Masks family) (text : Text) {address : BitVec w} {bits : Nat}
    (there : (family.writtenAddress text).getD family.fallback = address)
    (length : min ((writtenBits text).getD family.defaultBits) w = bits) :
    family.parseCidr text = ⟨(network address bits, bits), false⟩ := by
  have most : bits ≤ w := length ▸ Nat.min_le_right _ _
  have overflow := masks.fits bits most
  have cleared := masks.clears bits most address
  unfold Family.parseCidr
  dsimp only
  rw [masks.capped, there, length]
  change Checked.mk (address &&& (family.mask bits).value, bits)
    ((family.mask bits).overflow || false) = _
  rw [overflow, cleared]
  rfl

/-- The address and the length are there, so no default is taken, and the network
is the address with the host bits cleared. -/
def Family.ReadsAsWritten (family : Family w) (text : Text) : Prop :=
  ∃ address bits, family.writtenAddress text = some address ∧ writtenBits text = some bits ∧
    bits ≤ w ∧ family.parseCidr text = ⟨(network address bits, bits), false⟩

theorem Family.reads (masks : Masks family) (text : Text) : ∃ address bits, bits ≤ w ∧
    family.parseCidr text = ⟨(network address bits, bits), false⟩ ∧
    (family.ReadsAsWritten text →
      family.writtenAddress text = some address ∧ writtenBits text = some bits) := by
  refine ⟨_, _, Nat.min_le_right _ _, Family.parseCidr_eq masks text rfl rfl, ?_⟩
  rintro ⟨address, bits, known, read, most, -⟩
  rw [known, read, Option.getD_some, Option.getD_some, Nat.min_eq_left most]
  exact ⟨rfl, rfl⟩

theorem Family.accepted_iff (masks : Masks family)
    (plain : ∀ text address, family.parse text = some address → AddressText.trim text = text)
    (valid : validCidr family.parse text = true) :
    family.ReadsAsWritten text ↔ Tidy text ∧ (cut '/' text).2.isSome = true := by
  constructor
  · -- the readers do not trim, and no blank is part of an address or a length
    rintro ⟨address, bits, known, read, -, -⟩
    obtain ⟨length, there, digits⟩ := Option.bind_eq_some_iff.mp read
    refine ⟨⟨plain _ address known, ?_⟩, by rw [there]; rfl⟩
    intro other same
    cases there.symm.trans same
    exact trim_of_plain (parseU32_plain digits)
  · rintro ⟨tidy, written⟩
    obtain ⟨length, there⟩ := Option.isSome_iff_exists.mp written
    obtain ⟨address, bits, known, read, most⟩ := validCidr_written tidy there valid
    refine ⟨address, bits, known, read, most, Family.parseCidr_eq masks text ?_ ?_⟩
    · rw [Family.writtenAddress, known, Option.getD_some]
    · rw [read, Option.getD_some, Nat.min_eq_left most]

/-- A text that the configuration check accepts is read as written, with no default
taken, just when it is tidy and has a prefix length. The reader of IPv6 addresses
is one that takes no whitespace at the ends. -/
theorem cidr_readers_agree (parse : Text → Option (BitVec 128))
    (plain : ∀ text address, parse text = some address → trim text = text) (text : Text) :
    (isValidCidr parse text false = true →
      (v4Family.ReadsAsWritten text ↔ Tidy text ∧ (cut '/' text).2.isSome = true)) ∧
    (isValidCidr parse text true = true →
      ((v6Family parse).ReadsAsWritten text ↔ Tidy text ∧ (cut '/' text).2.isSome = true)) :=
  ⟨Family.accepted_iff v4_masks fun _ _ read => trim_of_plain (parseDotted_plain read),
    Family.accepted_iff (v6_masks parse) plain⟩

def unspecifiedOnly (text : Text) : Option (BitVec 128) :=
  if text = "::".toList then some 0 else none

theorem unspecifiedOnly_plain (text : Text) (address : BitVec 128)
    (read : unspecifiedOnly text = some address) : trim text = text := by
  unfold unspecifiedOnly at read
  split at read
  · rename_i same
    rw [same]
    decide
  · cases read

theorem cidr_readers_agree_on_sixteen :
    isValidCidr unspecifiedOnly "10.1.2.3/+16".toList false = true ∧
      v4Family.ReadsAsWritten "10.1.2.3/+16".toList :=
  ⟨by decide +kernel, ((cidr_readers_agree unspecifiedOnly unspecifiedOnly_plain
    "10.1.2.3/+16".toList).1 (by decide +kernel)).mpr ⟨by decide +kernel, by decide +kernel⟩⟩

/-- The configuration check accepts all three. A blank before the address sets up
10.0.0.0/16, a blank before the length a /24, and so does an address alone. -/
theorem accepted_cidr_falls_back :
    (isValidCidr unspecifiedOnly " 10.1.2.3/16".toList false = true ∧
      v4Family.writtenAddress " 10.1.2.3/16".toList = none ∧
      parseV4Cidr " 10.1.2.3/16".toList = ⟨(fromOctets 10 0 0 0, 16), false⟩ ∧
      (fromOctets 10 0 0 0, 16) ≠ (network (fromOctets 10 1 2 3) 16, 16)) ∧
    (isValidCidr unspecifiedOnly "10.1.2.3/ 16".toList false = true ∧
      writtenBits "10.1.2.3/ 16".toList = none ∧
      parseV4Cidr "10.1.2.3/ 16".toList = ⟨(fromOctets 10 1 2 0, 24), false⟩) ∧
    (isValidCidr unspecifiedOnly "10.1.2.3".toList false = true ∧
      writtenBits "10.1.2.3".toList = none ∧
      parseV4Cidr "10.1.2.3".toList = ⟨(fromOctets 10 1 2 0, 24), false⟩) := by
  have accepted : validCidr parseDotted " 10.1.2.3/16".toList = true ∧
      validCidr parseDotted "10.1.2.3/ 16".toList = true ∧
      validCidr parseDotted "10.1.2.3".toList = true := by decide +kernel
  obtain ⟨leading, inner, bare⟩ := accepted
  exact ⟨⟨leading, by decide +kernel, by decide +kernel, by decide +kernel⟩,
    ⟨inner, by decide +kernel, by decide +kernel⟩, ⟨bare, by decide +kernel, by decide +kernel⟩⟩

end Agreement

end TlsVpn.Cidr

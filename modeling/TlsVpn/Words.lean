import Mathlib

/-!
Machine words of the source, kept as bounded naturals. `u32` and `u64` values
carry their range as explicit premises; only the operators that wrap, saturate
or reinterpret a sign are named here. They are irreducible: unification must
never count to a word's modulus. Single-bit masks are 64-bit vectors because the
source tests, sets and clears bits of `u64` words.
-/

namespace TlsVpn.Words

def u32Max : Nat := 4294967295

def u64Max : Nat := 18446744073709551615

@[irreducible]
def wrappingAdd (left right : Nat) : Nat := (left + right) % 4294967296

@[irreducible]
def wrappingSub (left right : Nat) : Nat := (left + 4294967296 - right) % 4294967296

/-- `word as i32` for a `u32` word. -/
@[irreducible]
def asI32 (word : Nat) : Int :=
  if word < 2147483648 then (word : Int) else (word : Int) - 4294967296

/-- `u64::saturating_add`. -/
@[irreducible]
def saturatingAdd (left right : Nat) : Nat := min (left + right) u64Max

variable (left word right : Nat)

theorem saturatingAdd_le : saturatingAdd left right ≤ u64Max := by
  unfold saturatingAdd
  omega

theorem wrappingAdd_one_small (small : word < u32Max) : wrappingAdd word 1 = word + 1 := by
  unfold wrappingAdd u32Max at *
  omega

theorem wrappingSub_ordered (ordered : right ≤ left) (bounded : left ≤ u32Max) :
    wrappingSub left right = left - right := by
  unfold wrappingSub u32Max at *
  omega

theorem wrappingSub_wrapped (behind : left < right) (bounded : right ≤ u32Max) :
    wrappingSub left right = left + 4294967296 - right := by
  unfold wrappingSub u32Max at *
  omega

theorem asI32_nonneg (nonneg : ¬ asI32 word < 0) (bounded : word ≤ u32Max) :
    (asI32 word).toNat = word := by
  unfold asI32 u32Max at *
  split at nonneg <;> split <;> omega

section Bits

/-- `1u64 << index`. -/
def bit (index : Nat) : BitVec 64 := 1#64 <<< index

variable (word : BitVec 64) (index position : Nat)

theorem bit_getLsbD (inside : position < 64) :
    (bit index).getLsbD position = decide (position = index) := by
  unfold bit
  rw [BitVec.getLsbD_shiftLeft, BitVec.getLsbD_one]
  by_cases same : position = index
  · subst position
    simp [inside]
  · by_cases below : position < index
    · simp [below, same]
    · have apart : position - index ≠ 0 := by omega
      simp [apart, same]

theorem or_bit_getLsbD (inside : position < 64) :
    (word ||| bit index).getLsbD position = (word.getLsbD position || decide (position = index)) := by
  rw [BitVec.getLsbD_or, bit_getLsbD index position inside]

theorem andNot_bit_getLsbD (inside : position < 64) :
    (word &&& ~~~ bit index).getLsbD position =
      (word.getLsbD position && !decide (position = index)) := by
  rw [BitVec.getLsbD_and, BitVec.getLsbD_not, bit_getLsbD index position inside]
  simp [inside]

theorem and_bit_eq_zero (inside : index < 64) :
    word &&& bit index = 0#64 ↔ word.getLsbD index = false := by
  constructor
  · intro clear
    have position := congrArg (fun value => value.getLsbD index) clear
    simpa [bit_getLsbD index index inside] using position
  · intro clear
    apply BitVec.eq_of_getLsbD_eq
    intro position bound
    rw [BitVec.getLsbD_and, bit_getLsbD index position bound]
    by_cases same : position = index
    · subst position
      simp [clear]
    · simp [same]

theorem ne_zero_iff : word ≠ 0#64 ↔ ∃ position, position < 64 ∧ word.getLsbD position = true := by
  constructor
  · intro nonzero
    by_contra empty
    apply nonzero
    apply BitVec.eq_of_getLsbD_eq
    intro position bound
    cases lit : word.getLsbD position with
    | false => simp
    | true => exact absurd ⟨position, bound, lit⟩ empty
  · rintro ⟨position, _, lit⟩ same
    simp [same] at lit

end Bits

section BigEndian

/-- `u32::to_be_bytes`. -/
def be32 (word : Nat) : List UInt8 :=
  [UInt8.ofNat (word / 16777216), UInt8.ofNat (word / 65536),
    UInt8.ofNat (word / 256), UInt8.ofNat word]

/-- `BigEndian::read_u32` on the first four bytes of a slice. -/
def readBe32 (bytes : List UInt8) : Nat :=
  (bytes.getD 0 0).toNat * 16777216 + (bytes.getD 1 0).toNat * 65536 +
    (bytes.getD 2 0).toNat * 256 + (bytes.getD 3 0).toNat

@[simp] theorem be32_length (word : Nat) : (be32 word).length = 4 := rfl

variable (word : Nat)

theorem readBe32_be32 (bounded : word ≤ u32Max) (tail : List UInt8) :
    readBe32 (be32 word ++ tail) = word := by
  unfold u32Max at bounded
  simp only [readBe32, be32, List.cons_append, List.nil_append, List.getD_cons_zero,
    List.getD_cons_succ, UInt8.toNat_ofNat']
  omega

/-- `u16::to_be_bytes`. -/
def be16 (word : Nat) : List UInt8 := [UInt8.ofNat (word / 256), UInt8.ofNat word]

/-- `BigEndian::read_u16` on the first two bytes of a slice. -/
def readBe16 (bytes : List UInt8) : Nat :=
  (bytes.getD 0 0).toNat * 256 + (bytes.getD 1 0).toNat

@[simp] theorem be16_length (word : Nat) : (be16 word).length = 2 := rfl

theorem readBe16_word (bytes : List UInt8) : readBe16 bytes ≤ 65535 := by
  have first := (bytes.getD 0 0).toNat_lt
  have second := (bytes.getD 1 0).toNat_lt
  unfold readBe16
  omega

theorem readBe16_be16 (bounded : word ≤ 65535) (tail : List UInt8) :
    readBe16 (be16 word ++ tail) = word := by
  simp only [readBe16, be16, List.cons_append, List.nil_append, List.getD_cons_zero,
    List.getD_cons_succ, UInt8.toNat_ofNat']
  omega

/-- `u64::to_be_bytes`. -/
def be64 (word : Nat) : List UInt8 := be32 (word / 4294967296) ++ be32 word

/-- `u64::from_be_bytes` on the first eight bytes of a slice. -/
def readBe64 (bytes : List UInt8) : Nat :=
  readBe32 bytes * 4294967296 + readBe32 (bytes.drop 4)

end BigEndian

end TlsVpn.Words

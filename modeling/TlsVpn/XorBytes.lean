import Mathlib

/-!
Byte strings under exclusive or. A string is read as a function on positions
that is zero past its end, so strings of different lengths combine without a
case split on their lengths. `xorMembers` is the exclusive or of a flagged
subset of an indexed family; adding one absent index changes it by that
member's byte, and the same lemma takes a member out again.
-/

namespace TlsVpn.XorBytes

abbrev Bytes := List UInt8

def byteAt (bytes : Bytes) (position : Nat) : UInt8 := bytes.getD position 0

/-- Zero-extend to at least `length` bytes. -/
def extend (bytes : Bytes) (length : Nat) : Bytes :=
  bytes ++ List.replicate (length - bytes.length) 0

/-- `acc[i] ^= data[i]` over the bytes of `data`. -/
def xorInto : Bytes → Bytes → Bytes
  | accByte :: acc, byte :: data => (accByte ^^^ byte) :: xorInto acc data
  | acc, _ => acc

/-- `out[i] = left[i] ^ right[i]` while all three have a byte at `i`. -/
def xorCombine : Bytes → Bytes → Bytes → Bytes
  | _ :: out, leftByte :: left, rightByte :: right =>
    (leftByte ^^^ rightByte) :: xorCombine out left right
  | out, _, _ => out

variable (byte : UInt8) (acc out bytes : Bytes) (length : Nat) (left data right : Bytes)
  (position : Nat)

@[simp]
theorem byteAt_nil : byteAt [] position = 0 := rfl

@[simp]
theorem byteAt_cons_zero : byteAt (byte :: bytes) 0 = byte := rfl

@[simp]
theorem byteAt_cons_succ : byteAt (byte :: bytes) (position + 1) = byteAt bytes position := rfl

theorem byteAt_past (past : bytes.length ≤ position) : byteAt bytes position = 0 := by
  simp [byteAt, past]

theorem byteAt_zeros : byteAt (List.replicate length 0) position = 0 := by
  by_cases inside : position < length
  · simp [byteAt, inside]
  · exact byteAt_past _ _ (by simpa using inside)

theorem ext_byteAt (same : left.length = right.length)
    (agree : ∀ position, position < left.length → byteAt left position = byteAt right position) :
    left = right := by
  apply List.ext_getElem same
  intro position inside other
  have value := agree position inside
  simpa [byteAt, inside, other] using value

theorem byteAt_extend : byteAt (extend bytes length) position = byteAt bytes position := by
  unfold extend
  by_cases inside : position < bytes.length
  · simp [byteAt, List.getElem?_append, inside]
  · rw [byteAt_past bytes position (by omega)]
    have tail : byteAt (bytes ++ List.replicate (length - bytes.length) 0) position =
        byteAt (List.replicate (length - bytes.length) 0) (position - bytes.length) := by
      simp [byteAt, List.getElem?_append, inside]
    rw [tail, byteAt_zeros]

theorem extend_length : (extend bytes length).length = max bytes.length length := by
  simp only [extend, List.length_append, List.length_replicate]
  omega

theorem byteAt_xorInto (fits : data.length ≤ acc.length) (position : Nat) :
    byteAt (xorInto acc data) position = byteAt acc position ^^^ byteAt data position := by
  induction acc generalizing data position with
  | nil =>
    cases data with
    | nil => simp [xorInto]
    | cons byte data => simp at fits
  | cons accByte acc ih =>
    cases data with
    | nil => simp [xorInto]
    | cons byte data =>
      cases position with
      | zero => simp [xorInto]
      | succ position =>
        simp only [xorInto, byteAt_cons_succ]
        exact ih data (by simpa using fits) position

theorem xorCombine_length : (xorCombine out left right).length = out.length := by
  induction out generalizing left right with
  | nil => rfl
  | cons outByte out ih =>
    cases left with
    | nil => rfl
    | cons leftByte left =>
      cases right with
      | nil => rfl
      | cons rightByte right => simp [xorCombine, ih]

theorem xorInto_combine : xorInto acc data = xorCombine acc acc data := by
  induction acc generalizing data with
  | nil => rfl
  | cons accByte acc ih =>
    cases data with
    | nil => rfl
    | cons byte data => exact congrArg ((accByte ^^^ byte) :: ·) (ih data)

theorem xorInto_length : (xorInto acc data).length = acc.length := by
  rw [xorInto_combine, xorCombine_length]

theorem byteAt_xorCombine (inOut : position < out.length) (inLeft : out.length ≤ left.length)
    (inRight : out.length ≤ right.length) :
    byteAt (xorCombine out left right) position =
      byteAt left position ^^^ byteAt right position := by
  induction out generalizing left right position with
  | nil => simp at inOut
  | cons outByte out ih =>
    cases left with
    | nil => simp at inLeft
    | cons leftByte left =>
      cases right with
      | nil => simp at inRight
      | cons rightByte right =>
        cases position with
        | zero => simp [xorCombine]
        | succ position =>
          simp only [xorCombine, byteAt_cons_succ]
          exact ih left right position (by simpa using inOut) (by simpa using inLeft)
            (by simpa using inRight)

section Members

def xorMembers (included : Nat → Bool) (byte : Nat → UInt8) : Nat → UInt8
  | 0 => 0
  | count + 1 => xorMembers included byte count ^^^ (if included count then byte count else 0)

variable (included : Nat → Bool) (byte : Nat → UInt8) (count : Nat)

theorem xorMembers_congr (other : Nat → Bool) (byte : Nat → UInt8) (count : Nat)
    (same : ∀ member, member < count → included member = other member) :
    xorMembers included byte count = xorMembers other byte count := by
  induction count with
  | zero => rfl
  | succ count ih =>
    unfold xorMembers
    rw [ih (fun member inside => same member (by omega)), same count (by omega)]

theorem xorMembers_none (none : ∀ member, member < count → included member = false) :
    xorMembers included byte count = 0 := by
  induction count with
  | zero => rfl
  | succ count ih =>
    unfold xorMembers
    rw [ih (fun member inside => none member (by omega)), none count (by omega)]
    simp

theorem xorMembers_insert (later : Nat → Bool) (byte : Nat → UInt8) (count added : Nat)
    (inside : added < count) (absent : included added = false) (present : later added = true)
    (others : ∀ member, member < count → member ≠ added → later member = included member) :
    xorMembers later byte count = xorMembers included byte count ^^^ byte added := by
  induction count with
  | zero => omega
  | succ count ih =>
    unfold xorMembers
    by_cases last : added = count
    · subst added
      rw [xorMembers_congr later included byte count
        (fun member below => others member (by omega) (by omega)), present, absent]
      simp
    · rw [ih (by omega) (fun member below => others member (by omega)),
        others count (by omega) (by omega), UInt8.xor_assoc, UInt8.xor_assoc,
        UInt8.xor_comm (byte added)]

theorem xorMembers_missing (missing : Nat) (inside : missing < count)
    (absent : included missing = false)
    (others : ∀ member, member < count → member ≠ missing → included member = true) :
    xorMembers (fun _ => true) byte count ^^^ xorMembers included byte count = byte missing := by
  rw [xorMembers_insert included (fun _ => true) byte count missing inside absent rfl
    (fun member below apart => (others member below apart).symm)]
  rw [UInt8.xor_comm (xorMembers included byte count), UInt8.xor_assoc, UInt8.xor_self,
    UInt8.xor_zero]

def xorAll (members : List Bytes) (position : Nat) : UInt8 :=
  members.foldl (fun byte member => byte ^^^ byteAt member position) 0

theorem xorAll_concat (members : List Bytes) (member : Bytes) (position : Nat) :
    xorAll (members ++ [member]) position = xorAll members position ^^^ byteAt member position := by
  simp [xorAll]

theorem xorAll_range (payload : Nat → Bytes) (start count position : Nat) :
    xorAll ((List.range' start count).map payload) position =
      xorMembers (fun _ => true) (fun member => byteAt (payload (start + member)) position)
        count := by
  induction count with
  | zero => rfl
  | succ count ih =>
    rw [List.range'_1_concat, List.map_append, List.map_singleton, xorAll_concat, ih]
    rfl

end Members

end TlsVpn.XorBytes

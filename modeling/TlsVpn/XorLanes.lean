import TlsVpn.Slices
import TlsVpn.XorBytes

/-!
The three ways fec.rs has to compute an exclusive or of byte strings: by words, by
256-bit vectors with a tail of words, and by 128-bit vectors. A vector load is the
slice it touches; past the end the code would not stop but read what is not the
string's.
-/

namespace TlsVpn.XorBytes

open Slices

section Definitions

inductive Lanes where
  | words
  | avx2
  | neon
  deriving DecidableEq

def xorWord (left right : Bytes) : Bytes := List.zipWith (· ^^^ ·) left right

def loadAt (width : Nat) (bytes : Bytes) (place : Nat) : Option Bytes := do
  let piece ← slice bytes place (place + width)
  exactly width piece

def xorPiece (width : Nat) (data : Bytes) (place : Nat) (old : Bytes) : Option Bytes := do
  let accWord ← exactly width old
  let dataWord ← loadAt width data place
  some (xorWord accWord dataWord)

def combinePiece (width : Nat) (parity acc : Bytes) (place : Nat) (_ : Bytes) : Option Bytes := do
  let parityWord ← loadAt width parity place
  let accWord ← loadAt width acc place
  some (xorWord parityWord accWord)

def combineByte (parity acc : Bytes) (place : Nat) (_ : Bytes) : Option Bytes := do
  let parityByte ← index parity place
  let accByte ← index acc place
  some [parityByte ^^^ accByte]

def xorIntoU64 (acc data : Bytes) : Option Bytes := do
  let count := data.length / 8
  let (accFront, accTail) ← splitAt acc (count * 8)
  let (dataFront, dataTail) ← splitAt data (count * 8)
  let front ← overwrite 8 (xorPiece 8 dataFront) count 0 accFront
  some (front ++ xorInto accTail dataTail)

def xorIntoAvx2 (acc data : Bytes) : Option Bytes := do
  let vectors := data.length / 32
  let acc ← overwrite 32 (xorPiece 32 data) vectors 0 acc
  let rest ← slice acc (vectors * 32) acc.length
  let dataRest ← slice data (vectors * 32) data.length
  let count := dataRest.length / 8
  let rest ← overwrite 8 (xorPiece 8 dataRest) count 0 rest
  let tail ← slice rest (count * 8) rest.length
  let dataTail ← slice dataRest (count * 8) dataRest.length
  some (acc.take (vectors * 32) ++ (rest.take (count * 8) ++ xorInto tail dataTail))

def xorIntoNeon (acc data : Bytes) : Option Bytes := do
  let shared := min acc.length data.length
  let vectors := shared / 16
  let acc ← overwrite 16 (xorPiece 16 data) vectors 0 acc
  let tail ← slice acc (vectors * 16) shared
  let dataTail ← slice data (vectors * 16) shared
  some (acc.take (vectors * 16) ++ xorInto tail dataTail ++ acc.drop shared)

def xorIntoBy (lanes : Lanes) (acc data : Bytes) : Option Bytes :=
  match lanes with
  | .words => xorIntoU64 acc data
  | .avx2 => xorIntoAvx2 acc data
  | .neon => xorIntoNeon acc data

def xorCombineU64 (out parity acc : Bytes) : Option Bytes := do
  let shared := min (min out.length parity.length) acc.length
  let count := shared / 8
  let out ← overwrite 8 (combinePiece 8 parity acc) count 0 out
  overwrite 1 (combineByte parity acc) (shared - count * 8) (count * 8) out

def xorCombineAvx2 (out parity acc : Bytes) : Option Bytes := do
  let shared := min (min out.length parity.length) acc.length
  let vectors := shared / 32
  let out ← overwrite 32 (combinePiece 32 parity acc) vectors 0 out
  let outTail ← slice out (vectors * 32) shared
  let parityTail ← slice parity (vectors * 32) shared
  let accTail ← slice acc (vectors * 32) shared
  some (out.take (vectors * 32) ++ xorCombine outTail parityTail accTail ++ out.drop shared)

def xorCombineNeon (out parity acc : Bytes) : Option Bytes := do
  let shared := min (min out.length parity.length) acc.length
  let vectors := shared / 16
  let out ← overwrite 16 (combinePiece 16 parity acc) vectors 0 out
  overwrite 1 (combineByte parity acc) (shared - vectors * 16) (vectors * 16) out

def xorCombineBy (lanes : Lanes) (out parity acc : Bytes) : Option Bytes :=
  match lanes with
  | .words => xorCombineU64 out parity acc
  | .avx2 => xorCombineAvx2 out parity acc
  | .neon => xorCombineNeon out parity acc

end Definitions

section Pieces

variable {bytes parity : Bytes} (out old left right : Bytes) (length : Nat)

theorem xorCombine_take :
    (xorCombine out left right).take length =
      xorCombine (out.take length) (left.take length) (right.take length) := by
  induction out generalizing left right length with
  | nil => cases left <;> cases right <;> cases length <;> rfl
  | cons outByte out ih =>
    cases left with
    | nil => cases length <;> rfl
    | cons leftByte left =>
      cases right with
      | nil => cases length <;> rfl
      | cons rightByte right =>
        cases length with
        | zero => rfl
        | succ length => exact congrArg ((leftByte ^^^ rightByte) :: ·) (ih left right length)

theorem xorCombine_drop :
    (xorCombine out left right).drop length =
      xorCombine (out.drop length) (left.drop length) (right.drop length) := by
  induction out generalizing left right length with
  | nil => cases left <;> cases right <;> cases length <;> simp [xorCombine]
  | cons outByte out ih =>
    cases left with
    | nil => cases length <;> simp [xorCombine]
    | cons leftByte left =>
      cases right with
      | nil => cases length <;> simp [xorCombine]
      | cons rightByte right =>
        cases length with
        | zero => rfl
        | succ length => exact ih left right length

theorem xorCombine_past (past : min (min out.length left.length) right.length ≤ length) :
    (xorCombine out left right).drop length = out.drop length := by
  rw [xorCombine_drop]
  rcases (show out.length ≤ length ∨ left.length ≤ length ∨ right.length ≤ length by omega) with
    short | short | short
  · rw [List.drop_eq_nil_of_le short]
    rfl
  · rw [List.drop_eq_nil_of_le short]
    cases out.drop length <;> rfl
  · rw [List.drop_eq_nil_of_le short]
    cases out.drop length <;> cases left.drop length <;> rfl

theorem xorCombine_word (outSame : out.length = left.length) (same : left.length = right.length) :
    xorCombine out left right = xorWord left right := by
  induction out generalizing left right with
  | nil =>
    rw [List.length_nil, eq_comm, List.length_eq_zero_iff] at outSame
    rw [outSame]
    rfl
  | cons outByte out ih =>
    cases left with
    | nil => cases outSame
    | cons leftByte left =>
      cases right with
      | nil => cases same
      | cons rightByte right =>
        exact congrArg ((leftByte ^^^ rightByte) :: ·)
          (ih left right (Nat.succ.inj outSame) (Nat.succ.inj same))

theorem xorInto_take (acc data : Bytes) :
    (xorInto acc data).take length = xorInto (acc.take length) (data.take length) := by
  rw [xorInto_combine, xorCombine_take, ← xorInto_combine]

theorem xorInto_drop (acc data : Bytes) :
    (xorInto acc data).drop length = xorInto (acc.drop length) (data.drop length) := by
  rw [xorInto_combine, xorCombine_drop, ← xorInto_combine]

theorem xorInto_word (acc data : Bytes) (same : acc.length = data.length) :
    xorInto acc data = xorWord acc data := by
  rw [xorInto_combine, xorCombine_word acc acc data rfl same]

variable {width place : Nat}

theorem piece_length (inside : place + width ≤ bytes.length) :
    ((bytes.drop place).take width).length = width := by
  rw [List.length_take, List.length_drop]
  omega

theorem loadAt_eq (inside : place + width ≤ bytes.length) :
    loadAt width bytes place = some ((bytes.drop place).take width) := by
  rw [loadAt, slice_eq (by omega) inside, some_then, Nat.add_sub_cancel_left,
    exactly_eq (piece_length inside)]

theorem xorPiece_eq {acc data : Bytes} (inAcc : place + width ≤ acc.length)
    (inData : place + width ≤ data.length) :
    xorPiece width data place ((acc.drop place).take width) =
      some (((xorInto acc data).drop place).take width) := by
  rw [xorPiece, exactly_eq (piece_length inAcc), some_then, loadAt_eq inData, some_then,
    xorInto_drop, xorInto_take, xorInto_word _ _ (by rw [piece_length inAcc, piece_length inData])]

theorem combinePiece_eq {out acc : Bytes} (inOut : place + width ≤ out.length)
    (inParity : place + width ≤ parity.length) (inAcc : place + width ≤ acc.length) :
    combinePiece width parity acc place old =
      some (((xorCombine out parity acc).drop place).take width) := by
  rw [combinePiece, loadAt_eq inParity, some_then, loadAt_eq inAcc, some_then, xorCombine_drop,
    xorCombine_take, xorCombine_word _ _ _ (by rw [piece_length inOut, piece_length inParity])
      (by rw [piece_length inParity, piece_length inAcc])]

theorem combineByte_eq {out acc : Bytes} (inOut : place + 1 ≤ out.length)
    (inParity : place + 1 ≤ parity.length) (inAcc : place + 1 ≤ acc.length) :
    combineByte parity acc place old =
      some (((xorCombine out parity acc).drop place).take 1) := by
  have single : ∀ bytes : Bytes, place + 1 ≤ bytes.length →
      (bytes.drop place).take 1 = [bytes.getD place 0] := by
    intro bytes inside
    rw [List.drop_eq_getElem_cons inside, List.take_succ_cons, List.take_zero,
      List.getD_eq_getElem?_getD, List.getElem?_eq_getElem inside, Option.getD_some]
  rw [combineByte, index_eq inParity 0, some_then, index_eq inAcc 0, some_then, xorCombine_drop,
    xorCombine_take, single out inOut, single parity inParity, single acc inAcc]
  rfl

end Pieces

section Folding

variable {acc data : Bytes}
variable {result : Bytes}

theorem xorIntoU64_eq (fits : data.length / 8 * 8 ≤ acc.length) :
    xorIntoU64 acc data = some (xorInto acc data) := by
  unfold xorIntoU64
  dsimp only
  generalize extent : data.length / 8 * 8 = front at fits
  have inData : front ≤ data.length := by omega
  have accLength : (acc.take front).length = front := by
    rw [List.length_take]
    omega
  have dataLength : (data.take front).length = front := by
    rw [List.length_take]
    omega
  have loop : overwrite 8 (xorPiece 8 (data.take front)) (data.length / 8) 0 (acc.take front) =
      some (xorInto (acc.take front) (data.take front)) := by
    have whole := xorInto_length (acc.take front) (data.take front)
    rw [overwrite_front (data.length / 8) whole.symm (by omega) fun place inside =>
      xorPiece_eq (by omega) (by omega), extent, List.take_of_length_le (by omega),
      List.drop_eq_nil_of_le (by omega), List.append_nil]
  rw [splitAt_eq (by omega), some_then]
  dsimp only
  rw [splitAt_eq inData, some_then]
  dsimp only
  rw [loop, some_then, ← xorInto_take, ← xorInto_drop, List.take_append_drop]

theorem xorIntoU64_fits (ended : xorIntoU64 acc data = some result) :
    data.length / 8 * 8 ≤ acc.length := by
  obtain ⟨_, front, _⟩ := Option.bind_eq_some_iff.mp ended
  unfold splitAt at front
  split at front
  · assumption
  · cases front

theorem xorIntoAvx2_eq (fits : data.length / 8 * 8 ≤ acc.length) :
    xorIntoAvx2 acc data = some (xorInto acc data) := by
  have length := xorInto_length acc data
  unfold xorIntoAvx2
  dsimp only
  rw [overwrite_front (data.length / 32) length.symm (by omega) fun place inside =>
    xorPiece_eq (by omega) (by omega), some_then]
  generalize extent : data.length / 32 * 32 = front
  have inData : front ≤ data.length := by omega
  rw [slice_rest (by rw [length_joined length.symm]; omega), some_then, slice_rest inData, some_then,
    drop_joined (by omega) (Nat.le_refl _), take_joined (by omega)]
  -- the same once more for the words after the last vector
  have restFits : (data.drop front).length / 8 * 8 ≤ (acc.drop front).length := by
    rw [List.length_drop, List.length_drop]
    omega
  have restLength := xorInto_length (acc.drop front) (data.drop front)
  rw [overwrite_front ((data.drop front).length / 8) restLength.symm (by omega)
    fun place inside => xorPiece_eq (by omega) (by omega), some_then]
  generalize restExtent : (data.drop front).length / 8 * 8 = middle at restFits
  rw [slice_rest (by rw [length_joined restLength.symm]; omega), some_then, slice_rest (by omega),
    some_then, drop_joined (by omega) (Nat.le_refl _), take_joined (by omega),
    ← xorInto_drop middle (acc.drop front) (data.drop front), List.take_append_drop,
    ← xorInto_drop front acc data, List.take_append_drop]

theorem xorIntoAvx2_fits (ended : xorIntoAvx2 acc data = some result) :
    data.length / 8 * 8 ≤ acc.length := by
  obtain ⟨folded, vectors, ended⟩ := Option.bind_eq_some_iff.mp ended
  obtain ⟨rest, restSlice, ended⟩ := Option.bind_eq_some_iff.mp ended
  obtain ⟨dataRest, dataSlice, ended⟩ := Option.bind_eq_some_iff.mp ended
  obtain ⟨_, words, _⟩ := Option.bind_eq_some_iff.mp ended
  have kept := (overwrite_inside vectors).1
  have restLength := slice_length restSlice
  have dataLength := slice_length dataSlice
  rcases (overwrite_inside words).2 with none | inside
  · omega
  · omega

theorem xorInto_past (acc data : Bytes) (length : Nat) (past : min acc.length data.length ≤ length) :
    (xorInto acc data).drop length = acc.drop length := by
  rw [xorInto_drop]
  rcases (show acc.length ≤ length ∨ data.length ≤ length by omega) with short | short
  · rw [List.drop_eq_nil_of_le short]
    rfl
  · rw [List.drop_eq_nil_of_le short]
    cases acc.drop length <;> rfl

theorem xorIntoNeon_eq (acc data : Bytes) : xorIntoNeon acc data = some (xorInto acc data) := by
  have length := xorInto_length acc data
  unfold xorIntoNeon
  dsimp only
  generalize extent : min acc.length data.length = shared
  rw [overwrite_front (shared / 16) length.symm (by omega) fun place inside =>
    xorPiece_eq (by omega) (by omega), some_then]
  generalize vectors : shared / 16 * 16 = front
  have ordered : front ≤ shared := by omega
  rw [slice_eq ordered (by rw [length_joined length.symm]; omega), some_then,
    slice_eq ordered (by omega), some_then, drop_joined (by omega) (Nat.le_refl _),
    drop_joined (by omega) ordered, take_joined (by omega), ← xorInto_take, ← xorInto_drop,
    ← xorInto_past acc data shared (by omega), three_pieces _ ordered]

end Folding

section Combining

variable (out parity acc : Bytes)

theorem xorCombine_bytewise {width shared : Nat}
    (extent : min (min out.length parity.length) acc.length = shared) :
    (do
      let out ← overwrite width (combinePiece width parity acc) (shared / width) 0 out
      overwrite 1 (combineByte parity acc) (shared - shared / width * width)
        (shared / width * width) out) = some (xorCombine out parity acc) := by
  have length := xorCombine_length out parity acc
  have front := Nat.div_mul_le_self shared width
  rw [overwrite_front (shared / width) length.symm (by omega) fun place inside =>
    combinePiece_eq _ (by omega) (by omega) (by omega), some_then]
  generalize shared / width * width = middle at front ⊢
  rw [overwrite_eq (shared - middle) middle _ (length_joined length.symm) (by omega)
      fun place _ inside => combineByte_eq _ (by omega) (by omega) (by omega),
    Nat.mul_one, Nat.add_sub_cancel' front, take_joined (by omega),
    drop_joined (by omega) front, ← xorCombine_past out parity acc shared (by omega),
    three_pieces _ front]

theorem xorCombineAvx2_eq : xorCombineAvx2 out parity acc = some (xorCombine out parity acc) := by
  have length := xorCombine_length out parity acc
  unfold xorCombineAvx2
  dsimp only
  generalize extent : min (min out.length parity.length) acc.length = shared
  rw [overwrite_front (shared / 32) length.symm (by omega) fun place inside =>
    combinePiece_eq _ (by omega) (by omega) (by omega), some_then]
  generalize vectors : shared / 32 * 32 = front
  have ordered : front ≤ shared := by omega
  rw [slice_eq ordered (by rw [length_joined length.symm]; omega), some_then,
    slice_eq ordered (by omega), some_then, slice_eq ordered (by omega), some_then,
    drop_joined (by omega) (Nat.le_refl _), drop_joined (by omega) ordered, take_joined (by omega),
    ← xorCombine_take, ← xorCombine_drop, ← xorCombine_past out parity acc shared (by omega),
    three_pieces _ ordered]

theorem xorCombineBy_eq (lanes : Lanes) :
    xorCombineBy lanes out parity acc = some (xorCombine out parity acc) := by
  cases lanes with
  | words => exact xorCombine_bytewise out parity acc rfl
  | avx2 => exact xorCombineAvx2_eq out parity acc
  | neon => exact xorCombine_bytewise out parity acc rfl

/-- The vector paths and the bytewise reading. Combining stays inside for any
lengths; folding in by words or by 256-bit vectors does so exactly if the
accumulator covers the whole words of the data. -/
theorem lanes_bytewise (lanes : Lanes) (data : Bytes) :
    (xorIntoBy lanes acc data = some (xorInto acc data) ↔
      lanes = .neon ∨ data.length / 8 * 8 ≤ acc.length) ∧
      xorCombineBy lanes out parity acc = some (xorCombine out parity acc) := by
  refine ⟨?_, xorCombineBy_eq out parity acc lanes⟩
  cases lanes with
  | words => exact ⟨fun ended => Or.inr (xorIntoU64_fits ended),
      fun fits => xorIntoU64_eq (fits.resolve_left (by decide))⟩
  | avx2 => exact ⟨fun ended => Or.inr (xorIntoAvx2_fits ended),
      fun fits => xorIntoAvx2_eq (fits.resolve_left (by decide))⟩
  | neon => exact ⟨fun _ => Or.inl rfl, fun _ => xorIntoNeon_eq acc data⟩

/-- Eight bytes into an empty accumulator: by words the split stops the program,
by vectors a word past the end is taken. -/
theorem short_accumulator_stops :
    xorIntoBy .words [] (List.replicate 8 1) = none ∧
      xorIntoBy .avx2 [] (List.replicate 8 1) = none ∧
      xorIntoBy .avx2 [] (List.replicate 32 1) = none := by
  decide +kernel

end Combining

end TlsVpn.XorBytes

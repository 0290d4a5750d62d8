import Mathlib

/-!
Fixed-width arithmetic as a release build computes it, with a note of whether
anything overflowed on the way: the value wraps, a shift takes its amount modulo
the width, and the note is what a build with overflow checks would stop at.
-/

namespace TlsVpn

structure Checked (Value : Type) where
  value : Value
  overflow : Bool
  deriving DecidableEq

namespace Checked

section Monad

variable {Value Result : Type}

instance : Monad Checked where
  pure value := ⟨value, false⟩
  bind first next := ⟨(next first.value).value, first.overflow || (next first.value).overflow⟩

variable (value : Value) (first : Checked Value) (next : Value → Checked Result)

@[simp]
theorem pure_value : (pure value : Checked Value).value = value := rfl

@[simp]
theorem pure_overflow : (pure value : Checked Value).overflow = false := rfl

@[simp]
theorem bind_value : (first >>= next).value = (next first.value).value := rfl

@[simp]
theorem bind_overflow :
    (first >>= next).overflow = (first.overflow || (next first.value).overflow) := rfl

@[simp]
theorem pure_then : ((pure value : Checked Value) >>= next) = next value := rfl

end Monad

section Words

variable {w : Nat}

def add (x y : BitVec w) : Checked (BitVec w) := ⟨x + y, decide (2 ^ w ≤ x.toNat + y.toNat)⟩

def sub (x y : BitVec w) : Checked (BitVec w) := ⟨x - y, decide (x.toNat < y.toNat)⟩

def shl (x : BitVec w) (amount : Nat) : Checked (BitVec w) :=
  ⟨x <<< (amount % w), decide (w ≤ amount)⟩

def shr (x : BitVec w) (amount : Nat) : Checked (BitVec w) :=
  ⟨x >>> (amount % w), decide (w ≤ amount)⟩

def subCount (x y : Nat) : Checked Nat := ⟨(x + 2 ^ 32 - y) % 2 ^ 32, decide (x < y)⟩

variable {y : BitVec w} {amount : Nat}

theorem add_eq {x : BitVec w} (fits : x.toNat + y.toNat < 2 ^ w) : add x y = ⟨x + y, false⟩ := by
  unfold add
  rw [decide_eq_false (Nat.not_le.mpr fits)]

theorem sub_eq {x : BitVec w} (fits : y.toNat ≤ x.toNat) : sub x y = ⟨x - y, false⟩ := by
  unfold sub
  rw [decide_eq_false (Nat.not_lt.mpr fits)]

theorem shl_eq (fits : amount < w) (x : BitVec w) : shl x amount = ⟨x <<< amount, false⟩ := by
  unfold shl
  rw [decide_eq_false (Nat.not_le.mpr fits), Nat.mod_eq_of_lt fits]

theorem shr_eq (fits : amount < w) (x : BitVec w) : shr x amount = ⟨x >>> amount, false⟩ := by
  unfold shr
  rw [decide_eq_false (Nat.not_le.mpr fits), Nat.mod_eq_of_lt fits]

theorem subCount_eq {x y : Nat} (fits : y ≤ x) (small : x < 2 ^ 32) :
    subCount x y = ⟨x - y, false⟩ := by
  unfold subCount
  rw [decide_eq_false (Nat.not_lt.mpr fits)]
  congr 1
  omega

end Words

section Counts

variable {w x y : Nat}

def addNat (w x y : Nat) : Checked Nat := ⟨(x + y) % 2 ^ w, decide (2 ^ w ≤ x + y)⟩

def mulNat (w x y : Nat) : Checked Nat := ⟨x * y % 2 ^ w, decide (2 ^ w ≤ x * y)⟩

def subNat (w x y : Nat) : Checked Nat := ⟨(x + 2 ^ w - y) % 2 ^ w, decide (x < y)⟩

theorem addNat_eq (fits : x + y < 2 ^ w) : addNat w x y = pure (x + y) := by
  unfold addNat
  rw [decide_eq_false (Nat.not_le.mpr fits), Nat.mod_eq_of_lt fits]
  rfl

theorem mulNat_eq (fits : x * y < 2 ^ w) : mulNat w x y = pure (x * y) := by
  unfold mulNat
  rw [decide_eq_false (Nat.not_le.mpr fits), Nat.mod_eq_of_lt fits]
  rfl

theorem subNat_eq (fits : y ≤ x) (small : x < 2 ^ w) : subNat w x y = pure (x - y) := by
  unfold subNat
  have same : (x + 2 ^ w - y) % 2 ^ w = x - y := by
    rw [show x + 2 ^ w - y = x - y + 2 ^ w by omega, Nat.add_mod_right]
    exact Nat.mod_eq_of_lt (by omega)
  rw [decide_eq_false (Nat.not_lt.mpr fits), same]
  rfl

end Counts

end Checked

end TlsVpn

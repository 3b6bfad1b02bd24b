/-
Fixed-width integers, as natural numbers and integers with the operations that
depend on the width.
-/
import Mathlib.Algebra.Order.Ring.Int

namespace SecureAgnt

/-- `u64::MAX`. -/
def u64Max : Nat := 2 ^ 64 - 1

/-- `u64::saturating_add`. -/
def saturatingAdd (a b : Nat) : Nat := min (a + b) u64Max

/-- A `u64` `as i64`. -/
def asI64 (n : Nat) : Int := if n < 2 ^ 63 then n else (n : Int) - 2 ^ 64

/-- A `usize` `as i32`. -/
def asI32 (n : Nat) : Int :=
  if n % 2 ^ 32 < 2 ^ 31 then (n % 2 ^ 32 : Nat) else ((n % 2 ^ 32 : Nat) : Int) - 2 ^ 32

theorem asI32_le (n : Nat) : asI32 n ≤ n := by
  have hmod : n % 2 ^ 32 ≤ n := Nat.mod_le n _
  unfold asI32
  split <;> omega

theorem asI64_of_lt {n : Nat} (h : n < 2 ^ 63) : asI64 n = n := if_pos h

theorem asI64_nonneg {n : Nat} (h : n < 2 ^ 63) : 0 ≤ asI64 n := by
  rw [asI64_of_lt h]
  exact Int.natCast_nonneg n

/-- Two numbers of 63 bits never saturate. -/
theorem saturatingAdd_of_lt {a b : Nat} (ha : a < 2 ^ 63) (hb : b < 2 ^ 63) :
    saturatingAdd a b = a + b := by
  unfold saturatingAdd u64Max
  omega

theorem saturatingAdd_zero {a : Nat} (h : a ≤ u64Max) : saturatingAdd a 0 = a := Nat.min_eq_left h

theorem zero_saturatingAdd {b : Nat} (h : b ≤ u64Max) : saturatingAdd 0 b = b := by
  rw [saturatingAdd, Nat.zero_add]
  exact Nat.min_eq_left h

theorem le_saturatingAdd (a : Nat) {b : Nat} (h : b ≤ u64Max) : b ≤ saturatingAdd a b :=
  Nat.le_min.mpr ⟨Nat.le_add_left b a, h⟩

/-- Saturated sums add up to the saturated sum. -/
theorem saturatingAdd_min (a b : Nat) : saturatingAdd (min a u64Max) b = min (a + b) u64Max := by
  unfold saturatingAdd
  omega

end SecureAgnt

/-
The text of an integer and `str::parse` for integer types.

A text has an optional sign and at least one decimal digit.  A type accepts it if the
number is in its range, and every number of the range is read back from its own text.
-/
import Mathlib.Algebra.Order.Ring.Int
import Mathlib.Data.List.Basic

namespace SecureAgnt
namespace Integers

/-- Digits, at least one. -/
def parseDigits (digits : List Char) : Option Nat :=
  if digits.isEmpty || !digits.all Char.isDigit then none else some (Nat.ofDigitChars 10 digits 0)

def signed : List Char → Option Int
  | '+' :: digits => (parseDigits digits).map Int.ofNat
  | '-' :: digits => (parseDigits digits).map fun n => -(n : Int)
  | digits => (parseDigits digits).map Int.ofNat

/-- `str::parse` for the signed type of so many bits. -/
def parseInt (bits : Nat) (text : String) : Option Int :=
  (signed text.toList).filter fun n => -2 ^ (bits - 1) ≤ n ∧ n < 2 ^ (bits - 1)

/-- `i64::to_string` and `i32::to_string` of a number that is not negative. -/
def natText (n : Nat) : String := String.ofList (Nat.toDigits 10 n)

theorem isDigit_of_mem_natText {n : Nat} {c : Char} (h : c ∈ (natText n).toList) :
    c.isDigit = true := by
  rw [natText, String.toList_ofList] at h
  exact Nat.isDigit_of_mem_toDigits (by decide) (by decide) h

theorem natText_ne_nil (n : Nat) : (natText n).toList ≠ [] := by
  rw [natText, String.toList_ofList]
  exact Nat.toDigits_ne_nil

theorem parseDigits_natText (n : Nat) : parseDigits (natText n).toList = some n := by
  have hdigits : (natText n).toList.all Char.isDigit = true :=
    List.all_eq_true.mpr fun c hc => isDigit_of_mem_natText hc
  have hsome : (natText n).toList.isEmpty = false := by
    simpa using natText_ne_nil n
  unfold parseDigits
  rw [hdigits, hsome, natText, String.toList_ofList]
  simp [Nat.ofDigitChars_ten_toDigits]

theorem signed_natText (n : Nat) : signed (natText n).toList = some (n : Int) := by
  have hparse := parseDigits_natText n
  obtain ⟨c, cs, hcons⟩ := List.exists_cons_of_ne_nil (natText_ne_nil n)
  have hc : c.isDigit = true := isDigit_of_mem_natText (hcons ▸ List.mem_cons_self)
  rw [hcons] at hparse ⊢
  unfold signed
  split
  · rename_i heq
    rw [(List.cons.inj heq).1] at hc
    cases hc
  · rename_i heq
    rw [(List.cons.inj heq).1] at hc
    cases hc
  · rw [hparse]
    rfl

/-- A number in the range of the type is read from its text. -/
theorem parseInt_natText {bits n : Nat} (h : n < 2 ^ (bits - 1)) :
    parseInt bits (natText n) = some (n : Int) := by
  have hlow : -2 ^ (bits - 1) ≤ (n : Int) := by
    have hpos : (0 : Int) ≤ 2 ^ (bits - 1) := Int.pow_nonneg (by decide)
    omega
  have hhigh : (n : Int) < 2 ^ (bits - 1) := by exact_mod_cast h
  unfold parseInt
  rw [signed_natText]
  simp [Option.filter, hlow, hhigh]

end Integers
end SecureAgnt

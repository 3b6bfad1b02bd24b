/-
Identifiers of 128 bits and their text.

The text of an identifier is its hexadecimal digits in five groups, so it determines
the identifier and has no characters but digits and hyphens.
-/
import Mathlib.Data.List.Basic
import Mathlib.Data.List.FinRange
import Mathlib.Algebra.Order.Ring.Int

namespace SecureAgnt

structure Uuid where
  digits : List (Fin 16)
  length_digits : digits.length = 32
  deriving DecidableEq

def hexDigit (d : Fin 16) : Char := Nat.digitChar d.val

namespace Uuid

variable {u v : Uuid}

def text (u : Uuid) : String :=
  let d := u.digits.map hexDigit
  String.ofList (d.take 8 ++ '-' :: ((d.drop 8).take 4 ++ '-' :: ((d.drop 12).take 4 ++
    '-' :: ((d.drop 16).take 4 ++ '-' :: d.drop 20))))

def pairs : List (Fin 16) → List Nat
  | high :: low :: rest => (16 * high.val + low.val) :: pairs rest
  | _ => []

def bytes (u : Uuid) : List Nat := pairs u.digits

/-- The identifier with one digit throughout. -/
def repeated (d : Nat) : Uuid := ⟨List.replicate 32 (Fin.ofNat 16 d), List.length_replicate⟩

theorem hexDigit_ne_hyphen : ∀ x : Fin 16, hexDigit x ≠ '-' := by decide

theorem hexDigit_injective : Function.Injective hexDigit := by
  unfold Function.Injective
  decide

theorem filter_hexDigits {part : List Char} (h : ∀ c ∈ part, c ∈ u.digits.map hexDigit) :
    part.filter (fun c => c ≠ '-') = part := by
  refine List.filter_eq_self.mpr ?_
  intro c hc
  obtain ⟨x, _, rfl⟩ := List.mem_map.mp (h c hc)
  simp [hexDigit_ne_hyphen x]

/-- Without its hyphens the text of an identifier is its digits. -/
theorem filter_text (u : Uuid) :
    u.text.toList.filter (fun c => c ≠ '-') = u.digits.map hexDigit := by
  have hplain := fun part => @filter_hexDigits u part
  have htake : ∀ m n, ∀ c ∈ ((u.digits.map hexDigit).drop m).take n, c ∈ u.digits.map hexDigit :=
    fun m n c hc => List.mem_of_mem_drop (List.mem_of_mem_take hc)
  generalize hd : u.digits.map hexDigit = d at hplain htake ⊢
  have hfirst := hplain (d.take 8) fun c hc => List.mem_of_mem_take hc
  have hlast := hplain (d.drop 20) fun c hc => List.mem_of_mem_drop hc
  have hhyphen : ∀ cs, ('-' :: cs : List Char).filter (fun c => c ≠ '-') =
      cs.filter fun c => c ≠ '-' := fun cs => List.filter_cons_of_neg (by simp)
  rw [text, hd, String.toList_ofList]
  simp only [List.filter_append, hhyphen, hfirst, hlast, hplain _ (htake 8 4),
    hplain _ (htake 12 4), hplain _ (htake 16 4)]
  rw [show d.drop 20 = (d.drop 16).drop 4 by rw [List.drop_drop], List.take_append_drop,
    show d.drop 16 = (d.drop 12).drop 4 by rw [List.drop_drop], List.take_append_drop,
    show d.drop 12 = (d.drop 8).drop 4 by rw [List.drop_drop], List.take_append_drop,
    List.take_append_drop]

theorem text_injective (h : u.text = v.text) : u = v := by
  have hdigits : u.digits.map hexDigit = v.digits.map hexDigit := by
    rw [← u.filter_text, ← v.filter_text, h]
  have heq : u.digits = v.digits := List.map_injective_iff.mpr hexDigit_injective hdigits
  cases u
  cases v
  cases heq
  rfl

theorem text_ne_empty (u : Uuid) : u.text ≠ "" := by
  intro h
  have hlength := congrArg List.length u.filter_text
  rw [h, List.length_map, u.length_digits] at hlength
  simp at hlength

theorem notMem_text {c : Char} (hhyphen : c ≠ '-') (hhex : ∀ x : Fin 16, hexDigit x ≠ c)
    (u : Uuid) : c ∉ u.text.toList := by
  intro hmem
  have hfilter : c ∈ u.text.toList.filter fun c => c ≠ '-' :=
    List.mem_filter.mpr ⟨hmem, by simpa using hhyphen⟩
  rw [u.filter_text, List.mem_map] at hfilter
  obtain ⟨x, _, hx⟩ := hfilter
  exact hhex x hx

theorem eq_of_mem_text {c : Char} (h : c ∈ u.text.toList) : c = '-' ∨ ∃ x, hexDigit x = c := by
  by_contra hne
  rw [not_or, not_exists] at hne
  exact u.notMem_text hne.1 hne.2 h

def hexValue (c : Char) : Option (Fin 16) := (List.finRange 16).find? fun d => hexDigit d = c

/-- What `Uuid::parse_str` makes of the hyphenated form in lower case. -/
def parseHyphenated (text : String) : Option Uuid :=
  let digits := (text.toList.filter (fun c => c ≠ '-')).filterMap hexValue
  if h : digits.length = 32 then some ⟨digits, h⟩ else none

theorem hexValue_hexDigit : ∀ d, hexValue (hexDigit d) = some d := by decide

theorem parseHyphenated_text (u : Uuid) : parseHyphenated u.text = some u := by
  have hdigits : (u.text.toList.filter (fun c => c ≠ '-')).filterMap hexValue = u.digits := by
    rw [u.filter_text, List.filterMap_map]
    exact (List.filterMap_congr fun d _ => hexValue_hexDigit d).trans List.filterMap_some
  unfold parseHyphenated
  simp only [hdigits, u.length_digits, dite_true]

end Uuid
end SecureAgnt

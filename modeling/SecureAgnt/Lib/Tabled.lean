/-
Functions given by a table.

A digest is known on the texts of a sample only.  `tabled` completes a table by
another function, and the theorem this file exists for is `tabled_injective`: the
completed function is one-to-one if the other one is, takes no value of the table,
and the table has no value twice.  `tabledDigest` is a digest of bytes in hexadecimal
digits made so.
-/
import Mathlib.Data.List.Nodup
import Mathlib.Logic.Function.Basic
import SecureAgnt.Lib.Text

namespace SecureAgnt

section Tabled

variable {α β : Type} [DecidableEq α] {table : List (α × β)} {other : α → β}

def tabled (table : List (α × β)) (other : α → β) (x : α) : β :=
  match table.find? fun entry => entry.1 = x with
  | some entry => entry.2
  | none => other x

/-- A value is one of the table, at its own argument, or one of the other function. -/
theorem tabled_cases (table : List (α × β)) (other : α → β) (x : α) :
    (∃ entry ∈ table, entry.1 = x ∧ tabled table other x = entry.2) ∨
      tabled table other x = other x := by
  unfold tabled
  cases hfind : table.find? fun entry => entry.1 = x with
  | none => exact .inr rfl
  | some entry =>
    have hx : entry.1 = x := by simpa using List.find?_some hfind
    exact .inl ⟨entry, List.mem_of_find?_eq_some hfind, hx, rfl⟩

/-- What holds of the values of both holds of every value. -/
theorem tabled_prop {P : β → Prop} (htable : ∀ entry ∈ table, P entry.2)
    (hother : ∀ x, P (other x)) (x : α) : P (tabled table other x) := by
  rcases tabled_cases table other x with ⟨entry, hmem, -, hvalue⟩ | hvalue
  · rw [hvalue]
    exact htable entry hmem
  · rw [hvalue]
    exact hother x

theorem tabled_injective (hvalues : (table.map (·.2)).Nodup) (hother : Function.Injective other)
    (hapart : ∀ entry ∈ table, ∀ x, entry.2 ≠ other x) :
    Function.Injective (tabled table other) := by
  intro x y h
  rcases tabled_cases table other x with ⟨entry, hmem, hx, hvalue⟩ | hvalue
  · rcases tabled_cases table other y with ⟨entry', hmem', hy, hvalue'⟩ | hvalue'
    · rw [hvalue, hvalue'] at h
      have hsame : entry = entry' := List.inj_on_of_nodup_map hvalues hmem hmem' h
      rw [← hx, ← hy, hsame]
    · rw [hvalue, hvalue'] at h
      exact absurd h (hapart entry hmem y)
  · rcases tabled_cases table other y with ⟨entry', hmem', -, hvalue'⟩ | hvalue'
    · rw [hvalue, hvalue'] at h
      exact absurd h.symm (hapart entry' hmem' x)
    · rw [hvalue, hvalue'] at h
      exact hother h

end Tabled

/-- Texts that begin with another character are other texts. -/
theorem ne_ofList_cons {text : String} {c : Char} (h : text.toList.head? ≠ some c)
    (cs : List Char) : text ≠ String.ofList (c :: cs) := by
  rintro rfl
  rw [String.toList_ofList] at h
  exact h rfl

/-- The digests of a table's texts, and elsewhere a text that is no digest. -/
def tabledDigest (table : List (String × String)) : ByteArray → String :=
  -- the core instance, since a larger import brings another
  @tabled ByteArray String ByteArray.instDecidableEq
    (table.map fun entry => (entry.1.toByteArray, entry.2)) fun bytes =>
      String.ofList ('x' :: (Text.ofBytes bytes).toList)

theorem tabledDigest_injective {table : List (String × String)}
    (hvalues : (table.map (·.2)).Nodup)
    (hdigits : ∀ value ∈ table.map (·.2), value.toList.head? ≠ some 'x') :
    Function.Injective (tabledDigest table) := by
  refine tabled_injective ?_ (fun bytes bytes' h => ?_) fun entry hentry bytes => ?_
  · rw [List.map_map]
    exact hvalues
  · have hlist := (List.cons.inj (String.ofList_injective h)).2
    exact Text.ofBytes_injective (String.toList_inj.mp hlist)
  · obtain ⟨entry', hmem, rfl⟩ := List.mem_map.mp hentry
    exact ne_ofList_cons (hdigits _ (List.mem_map_of_mem hmem)) _

end SecureAgnt

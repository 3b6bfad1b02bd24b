/-
Rows with a unique key.

A table is a list of rows whose keys are distinct.  `find` looks a key up, and a
sum over the table splits into one row's share and the share of the others.
-/
import Mathlib.Algebra.Order.Ring.Int
import Mathlib.Data.List.Nodup
import Mathlib.Algebra.Order.BigOperators.Group.List

namespace SecureAgnt
namespace Table

variable {α κ : Type} [DecidableEq κ] {key : α → κ} {rows : List α} {k : κ} {r : α}

def find (key : α → κ) (rows : List α) (k : κ) : Option α := rows.find? fun r => key r = k

theorem find_cons : find key (r :: rows) k = if key r = k then some r else find key rows k := by
  by_cases h : key r = k <;> simp [find, h]

theorem find_eq_none_iff : find key rows k = none ↔ k ∉ rows.map key := by
  simp [find]

theorem key_of_find (h : find key rows k = some r) : r ∈ rows ∧ key r = k :=
  ⟨List.mem_of_find?_eq_some h, by simpa using List.find?_some h⟩

theorem find_eq_some_iff (hkeys : (rows.map key).Nodup) :
    find key rows k = some r ↔ r ∈ rows ∧ key r = k := by
  refine ⟨key_of_find, ?_⟩
  intro h
  obtain ⟨hmem, hkey⟩ := h
  induction rows with
  | nil => cases hmem
  | cons r' rest ih =>
    rw [List.map_cons, List.nodup_cons] at hkeys
    rw [find_cons]
    rcases List.mem_cons.mp hmem with rfl | hmem
    · rw [if_pos hkey]
    · rw [if_neg, ih hkeys.2 hmem]
      intro hsame
      exact hkeys.1 (hsame.trans hkey.symm ▸ List.mem_map_of_mem hmem)

theorem filter_key (hkeys : (rows.map key).Nodup) (hmem : r ∈ rows) :
    rows.filter (fun r' => key r' = key r) = [r] := by
  induction rows with
  | nil => cases hmem
  | cons r' rest ih =>
    rw [List.map_cons, List.nodup_cons] at hkeys
    rw [List.filter_cons]
    rcases List.mem_cons.mp hmem with rfl | hmem
    · rw [if_pos (decide_eq_true rfl), List.filter_eq_nil_iff.mpr]
      intro r'' hr'' hsame
      exact hkeys.1 (of_decide_eq_true hsame ▸ List.mem_map_of_mem hr'')
    · rw [if_neg, ih hkeys.2 hmem]
      intro hsame
      exact hkeys.1 (of_decide_eq_true hsame ▸ List.mem_map_of_mem hmem)

/-- One entry of every row, where the rows together have every entry once. -/
theorem nodup_entry {β : Type} {entries : α → List β} {f : α → β}
    (hf : ∀ r, [f r].Sublist (entries r)) (h : (rows.flatMap entries).Nodup) :
    (rows.map f).Nodup := by
  refine h.sublist ?_
  clear h
  induction rows with
  | nil => exact .slnil
  | cons r rest ih =>
    rw [List.map_cons, List.flatMap_cons]
    exact (hf r).append ih

omit [DecidableEq κ] in
/-- Only one row gives a value. -/
theorem filterMap_key {β : Type} {g : α → Option β} {y : β} (hkeys : (rows.map key).Nodup)
    (hmem : r ∈ rows) (hr : g r = some y) (hothers : ∀ r' ∈ rows, key r' ≠ key r → g r' = none) :
    rows.filterMap g = [y] := by
  induction rows with
  | nil => cases hmem
  | cons r' rest ih =>
    rw [List.map_cons, List.nodup_cons] at hkeys
    rcases List.mem_cons.mp hmem with rfl | hmem
    · rw [List.filterMap_cons_some hr, List.filterMap_eq_nil_iff.mpr]
      intro r'' hr''
      refine hothers r'' (List.mem_cons_of_mem _ hr'') ?_
      intro hsame
      exact hkeys.1 (hsame ▸ List.mem_map_of_mem hr'')
    · have hne : key r' ≠ key r := fun hsame => hkeys.1 (hsame ▸ List.mem_map_of_mem hmem)
      rw [List.filterMap_cons_none (hothers r' List.mem_cons_self hne)]
      exact ih hkeys.2 hmem fun r'' hr'' => hothers r'' (List.mem_cons_of_mem _ hr'')

omit [DecidableEq κ] in
/-- A row under a new key keeps the keys distinct. -/
theorem nodup_append_row (hkeys : (rows.map key).Nodup) (hnew : key r ∉ rows.map key) :
    ((rows ++ [r]).map key).Nodup := by
  rw [List.map_append, List.map_singleton, List.nodup_append]
  refine ⟨hkeys, List.nodup_singleton _, ?_⟩
  intro k hk k' hk' hsame
  rw [List.mem_singleton] at hk'
  exact hnew (hk' ▸ hsame ▸ hk)

omit [DecidableEq κ] in
/-- Where the rows together have every entry once, one row has an entry. -/
theorem countP_of_flatMap_nodup {β : Type} [DecidableEq β] {entries : α → List β} {x : β}
    (h : (rows.flatMap entries).Nodup) (hx : x ∈ rows.flatMap entries) :
    rows.countP (fun r => (entries r).contains x) = 1 := by
  induction rows with
  | nil => cases hx
  | cons r rest ih =>
    rw [List.flatMap_cons, List.nodup_append] at h
    rw [List.countP_cons]
    by_cases hr : x ∈ entries r
    · have hnone : rest.countP (fun r => (entries r).contains x) = 0 := by
        rw [List.countP_eq_zero]
        intro r' hr' hcontains
        refine h.2.2 x hr x (List.mem_flatMap.mpr ⟨r', hr', ?_⟩) rfl
        exact List.contains_iff_mem.mp hcontains
      rw [hnone, if_pos (List.contains_iff_mem.mpr hr)]
    · have hrest : x ∈ rest.flatMap entries := by
        rcases List.mem_append.mp hx with hx | hx
        · exact absurd hx hr
        · exact hx
      rw [ih h.2.1 hrest, if_neg (by simpa using hr)]

/-- A change of rows that keeps their keys. -/
theorem find_map {f : α → α} (hf : ∀ r, key (f r) = key r) :
    find key (rows.map f) k = (find key rows k).map f := by
  induction rows with
  | nil => rfl
  | cons r rest ih =>
    rw [List.map_cons, find_cons, find_cons, hf]
    split
    · rfl
    · exact ih

/-- The rows under other keys. -/
def others (key : α → κ) (rows : List α) (k : κ) : List α := rows.filter fun r => key r ≠ k

theorem mem_others : r ∈ others key rows k ↔ r ∈ rows ∧ key r ≠ k := by
  simp [others]

theorem others_map {f : α → α} (hf : ∀ r, key (f r) = key r) (hsame : ∀ r, key r ≠ k → f r = r) :
    others key (rows.map f) k = others key rows k := by
  induction rows with
  | nil => rfl
  | cons r rest ih =>
    have ih : List.filter (fun r => key r ≠ k) (rest.map f) =
      List.filter (fun r => key r ≠ k) rest := ih
    simp only [others, List.map_cons, List.filter_cons, hf, ih]
    by_cases hr : key r = k
    · simp [hr]
    · simp [hr, hsame r hr]

theorem sum_eq_find_add_others (g : α → Nat) (hkeys : (rows.map key).Nodup) :
    (rows.map g).sum = ((find key rows k).map g).getD 0 + ((others key rows k).map g).sum := by
  induction rows with
  | nil => rfl
  | cons r rest ih =>
    rw [List.map_cons, List.nodup_cons] at hkeys
    simp only [List.map_cons, List.sum_cons, find_cons, ih hkeys.2]
    by_cases hr : key r = k
    · have hnone : find key rest k = none := find_eq_none_iff.mpr (hr ▸ hkeys.1)
      simp only [others, List.filter_cons, hr, if_true, Option.map_some, Option.getD_some, hnone,
        Option.map_none, Option.getD_none, Nat.zero_add]
      simp
    · simp only [others, List.filter_cons, hr, if_false, List.map_cons, List.sum_cons, ne_eq,
        not_false_eq_true, decide_true, if_true]
      omega

/-- A sum over some rows is at most a sum over others when it is so row by row. -/
theorem sum_filter_le {p q : α → Bool} {f : α → Nat} {g : α → Int}
    (h : ∀ r ∈ rows, ((if p r then f r else 0 : Nat) : Int) ≤ if q r then g r else 0) :
    (((rows.filter p).map f).sum : Int) ≤ ((rows.filter q).map g).sum := by
  induction rows with
  | nil => exact Int.le_refl _
  | cons r rest ih =>
    have hrest := ih fun r' hr' => h r' (List.mem_cons_of_mem _ hr')
    have hfirst := h r List.mem_cons_self
    rw [List.filter_cons, List.filter_cons]
    cases hp : p r <;> cases hq : q r <;>
      simp only [hp, hq, if_true, if_false, Bool.false_eq_true, List.map_cons, List.sum_cons]
        at hfirst ⊢ <;> omega

end Table
end SecureAgnt

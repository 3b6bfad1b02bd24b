/-
Sorted lists.

Insertion sort is stable: a list sorted by `s` and then by `r` is sorted by `r`, and by `s` where
`r` goes both ways.
-/
import Mathlib.Data.List.Sort
import Mathlib.Order.Defs.LinearOrder

namespace SecureAgnt
namespace Sorting

variable {α : Type}

theorem pairwise_key {β : Type} [LinearOrder β] (key : α → β) (rows : List α) :
    (rows.insertionSort fun x y => key x ≤ key y).Pairwise fun x y => key x ≤ key y := by
  have htotal : Std.Total fun x y => key x ≤ key y := ⟨fun x y => le_total _ _⟩
  have htrans : IsTrans α fun x y => key x ≤ key y := ⟨fun _ _ _ => le_trans⟩
  exact List.pairwise_insertionSort _ _

section Stable

variable (r s : α → α → Prop)

/-- Before by `r`, and by `s` where `r` goes both ways. -/
def Before (x y : α) : Prop := r x y ∧ (r y x → s x y)

variable {r s} {rows : List α} {x y : α}

theorem before_of_not [Std.Total r] (h : ¬ r x y) : Before r s y x :=
  ⟨(Std.Total.total x y).resolve_left h, fun hxy => absurd hxy h⟩

variable [DecidableRel r] [Std.Total r] [IsTrans α r]

theorem pairwise_orderedInsert (h : rows.Pairwise (Before r s)) (hx : ∀ y ∈ rows, s x y) :
    (rows.orderedInsert r x).Pairwise (Before r s) := by
  induction rows with
  | nil => exact List.pairwise_singleton _ _
  | cons y rest ih =>
    obtain ⟨hy, hrest⟩ := List.pairwise_cons.mp h
    rw [List.orderedInsert]
    split
    · next hle =>
      refine List.pairwise_cons.mpr ⟨fun z hz => ⟨?_, fun _ => hx z hz⟩, h⟩
      rcases List.mem_cons.mp hz with rfl | hz
      · exact hle
      · exact IsTrans.trans x y z hle (hy z hz).1
    · next hgt =>
      refine List.pairwise_cons.mpr ⟨fun z hz => ?_,
        ih hrest fun z hz => hx z (List.mem_cons_of_mem _ hz)⟩
      rcases (List.mem_orderedInsert r).mp hz with rfl | hz
      · exact before_of_not hgt
      · exact hy z hz

/-- Elements that `r` does not tell apart stay in the order they had. -/
theorem pairwise_insertionSort (h : rows.Pairwise s) :
    (rows.insertionSort r).Pairwise (Before r s) := by
  induction rows with
  | nil => exact .nil
  | cons x rest ih =>
    obtain ⟨hx, hrest⟩ := List.pairwise_cons.mp h
    exact pairwise_orderedInsert (ih hrest) fun y hy => hx y ((List.mem_insertionSort r).mp hy)

/-- The first of a sorted list comes before every other. -/
theorem head_insertionSort (h : rows.Pairwise s) (hx : (rows.insertionSort r).head? = some x)
    (hy : y ∈ rows) : x = y ∨ Before r s x y := by
  obtain ⟨rest, hrows⟩ := List.head?_eq_some_iff.mp hx
  have hsorted := pairwise_insertionSort (r := r) h
  have hmem := (List.mem_insertionSort r).mpr hy
  rw [hrows] at hsorted hmem
  exact (List.mem_cons.mp hmem).imp Eq.symm (List.rel_of_pairwise_cons hsorted)

end Stable

end Sorting
end SecureAgnt

/-
The canonical form of a JSON value.

The fields of every object are sorted by name.  Two values have one canonical form
exactly when they differ in the order of fields only.
-/
import Mathlib.Data.List.Sort
import SecureAgnt.Lib.JsonText

namespace SecureAgnt
namespace Json

def sortByKey (fields : List (String × Json)) : List (String × Json) :=
  fields.insertionSort fun left right => left.1 ≤ right.1

mutual

def canonical : Json → Json
  | .obj fields => .obj (sortByKey (canonicalFields fields))
  | .arr items => .arr (canonicalItems items)
  | .null => .null
  | .bool b => .bool b
  | .num n => .num n
  | .str s => .str s

def canonicalItems : List Json → List Json
  | [] => []
  | item :: items => canonical item :: canonicalItems items

def canonicalFields : List (String × Json) → List (String × Json)
  | [] => []
  | (key, value) :: fields => (key, canonical value) :: canonicalFields fields

end

variable {v w : Json} {fields gs : List (String × Json)}

theorem canonicalItems_eq (items : List Json) : canonicalItems items = items.map canonical := by
  induction items with
  | nil => rw [canonicalItems, List.map_nil]
  | cons item items ih => rw [canonicalItems, ih, List.map_cons]

theorem canonicalFields_eq (fields : List (String × Json)) :
    canonicalFields fields = fields.map fun x => (x.1, canonical x.2) := by
  induction fields with
  | nil => rw [canonicalFields, List.map_nil]
  | cons x fields ih =>
    obtain ⟨key, value⟩ := x
    rw [canonicalFields, ih, List.map_cons]

theorem sortByKey_perm (fields : List (String × Json)) : (sortByKey fields).Perm fields :=
  List.perm_insertionSort _ _

theorem sortByKey_pairwise (fields : List (String × Json)) :
    (sortByKey fields).Pairwise fun left right => left.1 ≤ right.1 := by
  have htotal : Std.Total fun left right : String × Json => left.1 ≤ right.1 :=
    ⟨fun left right => String.le_total left.1 right.1⟩
  have htrans : IsTrans (String × Json) fun left right => left.1 ≤ right.1 :=
    ⟨fun _ _ _ h h' => String.le_trans h h'⟩
  exact List.pairwise_insertionSort _ _

/-- Fields with distinct names are sorted in one way only. -/
theorem sortByKey_eq (hkeys : (fields.map (·.1)).Nodup) (h : fields.Perm gs) :
    sortByKey fields = sortByKey gs := by
  have hperm : (sortByKey fields).Perm (sortByKey gs) :=
    (sortByKey_perm fields).trans (h.trans (sortByKey_perm gs).symm)
  refine hperm.eq_of_pairwise ?_ (sortByKey_pairwise fields) (sortByKey_pairwise gs)
  intro x y hx hy hxy hyx
  have hmem : x ∈ fields := (sortByKey_perm fields).mem_iff.mp hx
  have hmem' : y ∈ fields := h.mem_iff.mpr ((sortByKey_perm gs).mem_iff.mp hy)
  exact List.inj_on_of_nodup_map hkeys hmem hmem' (String.le_antisymm hxy hyx)

theorem nodup_canonicalFields (hkeys : (fields.map (·.1)).Nodup) :
    ((canonicalFields fields).map (·.1)).Nodup := by
  rw [canonicalFields_eq, List.map_map]
  exact hkeys

/-- The canonical form of a value is the value in another order. -/
theorem reordered_canonical (v : Json) (hv : IsValue v) : Reordered v v.canonical := by
  induction hv with
  | null => exact .refl _
  | bool b => exact .refl _
  | num hn => exact .refl _
  | str s => exact .refl _
  | @arr items _ ih =>
    rw [canonical, canonicalItems_eq]
    exact Reordered.items [] ih
  | @obj fields _ _ ih =>
    have hvalues := Reordered.values [] ih
    rw [canonical, canonicalFields_eq]
    exact hvalues.trans (.fields (sortByKey_perm _).symm)

theorem isValue_canonical (hv : IsValue v) : IsValue v.canonical :=
  (reordered_canonical v hv).isValue_iff.mp hv

/-- The order of fields is lost. -/
theorem canonical_eq_of_reordered (h : Reordered v w) (hv : IsValue v) :
    v.canonical = w.canonical := by
  induction h with
  | refl v => rfl
  | symm h ih => exact (ih (h.isValue_iff.mpr hv)).symm
  | trans h _ ih ih' => exact (ih hv).trans (ih' (h.isValue_iff.mp hv))
  | @fields fs gs hperm =>
    cases hv with
    | obj hkeys _ =>
      have hcanonical : (canonicalFields fs).Perm (canonicalFields gs) := by
        rw [canonicalFields_eq, canonicalFields_eq]
        exact hperm.map _
      rw [canonical, canonical, sortByKey_eq (nodup_canonicalFields hkeys) hcanonical]
  | @item before after v w _ ih =>
    cases hv with
    | arr hitems =>
      have hvalue := ih (hitems v (List.mem_append_right _ List.mem_cons_self))
      rw [canonical, canonical, canonicalItems_eq, canonicalItems_eq, List.map_append,
        List.map_append, List.map_cons, List.map_cons, hvalue]
  | @field before after key v w _ ih =>
    cases hv with
    | obj _ hfields =>
      have hvalue := ih (hfields (key, v) (List.mem_append_right _ List.mem_cons_self))
      rw [canonical, canonical, canonicalFields_eq, canonicalFields_eq, List.map_append,
        List.map_append, List.map_cons, List.map_cons, hvalue]

theorem canonical_eq_iff (hv : IsValue v) (hw : IsValue w) :
    v.canonical = w.canonical ↔ Reordered v w := by
  constructor
  · intro h
    have hvw := reordered_canonical v hv
    rw [h] at hvw
    exact hvw.trans (reordered_canonical w hw).symm
  · intro h
    exact canonical_eq_of_reordered h hv

end Json
end SecureAgnt

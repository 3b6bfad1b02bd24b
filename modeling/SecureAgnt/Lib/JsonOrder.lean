/-
JSON values up to the order of the fields of their objects.

A value that a parser returns has distinct keys in every object and numbers in
their normal form.  `Reordered` relates two values that differ in the order of
fields only, at any depth.
-/
import Mathlib.Data.List.Nodup
import Mathlib.Data.List.Perm.Basic
import SecureAgnt.Lib.Json

namespace SecureAgnt

/-- The exponent of a binary64 number has a bit that is not set. -/
def isFinite (bits : UInt64) : Bool := bits.toNat / 2 ^ 52 % 2 ^ 11 ≠ 2 ^ 11 - 1

/-- A negative integer is below zero and a float is finite. -/
def JsonNumber.isNormal : JsonNumber → Bool
  | .posInt _ => true
  | .negInt n => n < 0
  | .float bits => isFinite bits

namespace Json

/-- A value as a parser returns it. -/
inductive IsValue : Json → Prop
  | null : IsValue .null
  | bool (b : Bool) : IsValue (.bool b)
  | num {n : JsonNumber} (hn : n.isNormal = true) : IsValue (.num n)
  | str (s : String) : IsValue (.str s)
  | arr {items : List Json} (h : ∀ v ∈ items, IsValue v) : IsValue (.arr items)
  | obj {fields : List (String × Json)} (hkeys : (fields.map (·.1)).Nodup)
      (h : ∀ f ∈ fields, IsValue f.2) : IsValue (.obj fields)

/-- The least congruence under which the order of fields does not matter. -/
inductive Reordered : Json → Json → Prop
  | refl (v : Json) : Reordered v v
  | symm {v w : Json} (h : Reordered v w) : Reordered w v
  | trans {u v w : Json} (h : Reordered u v) (h' : Reordered v w) : Reordered u w
  | fields {fs gs : List (String × Json)} (h : fs.Perm gs) : Reordered (.obj fs) (.obj gs)
  | item (before after : List Json) {v w : Json} (h : Reordered v w) :
      Reordered (.arr (before ++ v :: after)) (.arr (before ++ w :: after))
  | field (before after : List (String × Json)) (key : String) {v w : Json}
      (h : Reordered v w) :
      Reordered (.obj (before ++ (key, v) :: after)) (.obj (before ++ (key, w) :: after))

variable {v w : Json}

/-! ## Congruences -/

theorem Reordered.items {f : Json → Json} (before : List Json) {items : List Json}
    (h : ∀ v ∈ items, Reordered v (f v)) :
    Reordered (.arr (before ++ items)) (.arr (before ++ items.map f)) := by
  induction items generalizing before with
  | nil => exact .refl _
  | cons v items ih =>
    have hfirst : Reordered (.arr (before ++ v :: items)) (.arr (before ++ f v :: items)) :=
      .item before items (h v List.mem_cons_self)
    have hrest := ih (before ++ [f v]) fun u hu => h u (List.mem_cons_of_mem v hu)
    rw [List.append_assoc, List.append_assoc] at hrest
    exact .trans hfirst hrest

theorem Reordered.values {f : Json → Json} (before : List (String × Json))
    {fields : List (String × Json)} (h : ∀ x ∈ fields, Reordered x.2 (f x.2)) :
    Reordered (.obj (before ++ fields)) (.obj (before ++ fields.map fun x => (x.1, f x.2))) := by
  induction fields generalizing before with
  | nil => exact .refl _
  | cons x fields ih =>
    have hfirst : Reordered (.obj (before ++ x :: fields))
        (.obj (before ++ (x.1, f x.2) :: fields)) :=
      .field before fields x.1 (h x List.mem_cons_self)
    have hrest := ih (before ++ [(x.1, f x.2)]) fun y hy => h y (List.mem_cons_of_mem x hy)
    rw [List.append_assoc, List.append_assoc] at hrest
    exact .trans hfirst hrest

/-! ## What reordering keeps -/

theorem isValue_item {before after : List Json} (h : IsValue v → IsValue w)
    (hv : IsValue (.arr (before ++ v :: after))) : IsValue (.arr (before ++ w :: after)) := by
  cases hv with
  | arr hitems =>
    refine .arr ?_
    intro u hu
    rcases List.mem_append.mp hu with hu | hu
    · exact hitems u (List.mem_append_left _ hu)
    · rcases List.mem_cons.mp hu with rfl | hu
      · exact h (hitems v (List.mem_append_right _ List.mem_cons_self))
      · exact hitems u (List.mem_append_right _ (List.mem_cons_of_mem _ hu))

theorem isValue_field {before after : List (String × Json)} {key : String}
    (h : IsValue v → IsValue w) (hv : IsValue (.obj (before ++ (key, v) :: after))) :
    IsValue (.obj (before ++ (key, w) :: after)) := by
  cases hv with
  | obj hkeys hfields =>
    rw [List.map_append, List.map_cons] at hkeys
    refine .obj ?_ ?_
    · rw [List.map_append, List.map_cons]
      exact hkeys
    · intro x hx
      rcases List.mem_append.mp hx with hx | hx
      · exact hfields x (List.mem_append_left _ hx)
      · rcases List.mem_cons.mp hx with rfl | hx
        · exact h (hfields (key, v) (List.mem_append_right _ List.mem_cons_self))
        · exact hfields x (List.mem_append_right _ (List.mem_cons_of_mem _ hx))

theorem isValue_perm {fs gs : List (String × Json)} (hperm : fs.Perm gs)
    (h : IsValue (.obj fs)) : IsValue (.obj gs) := by
  cases h with
  | obj hkeys hfields =>
    refine .obj ((hperm.map (·.1)).nodup_iff.mp hkeys) ?_
    intro x hx
    exact hfields x (hperm.mem_iff.mpr hx)

theorem Reordered.isValue_iff (h : Reordered v w) : IsValue v ↔ IsValue w := by
  induction h with
  | refl v => exact Iff.rfl
  | symm _ ih => exact ih.symm
  | trans _ _ ih ih' => exact ih.trans ih'
  | fields hperm => exact ⟨isValue_perm hperm, isValue_perm hperm.symm⟩
  | item before after _ ih => exact ⟨isValue_item ih.mp, isValue_item ih.mpr⟩
  | field before after key _ ih => exact ⟨isValue_field ih.mp, isValue_field ih.mpr⟩

/-- Only an object is an object in another order. -/
theorem Reordered.isObject_eq (h : Reordered v w) : v.asObject?.isSome = w.asObject?.isSome := by
  induction h with
  | refl v => rfl
  | symm _ ih => exact ih.symm
  | trans _ _ ih ih' => exact ih.trans ih'
  | fields _ => rfl
  | item _ _ _ _ => rfl
  | field _ _ _ _ _ => rfl

/-! ## What a reader sees -/

theorem Reordered.asStr?_eq (h : Reordered v w) : v.asStr? = w.asStr? := by
  induction h with
  | refl v => rfl
  | symm _ ih => exact ih.symm
  | trans _ _ ih ih' => exact ih.trans ih'
  | fields _ => rfl
  | item _ _ _ _ => rfl
  | field _ _ _ _ _ => rfl

theorem Reordered.asU64?_eq (h : Reordered v w) : v.asU64? = w.asU64? := by
  induction h with
  | refl v => rfl
  | symm _ ih => exact ih.symm
  | trans _ _ ih ih' => exact ih.trans ih'
  | fields _ => rfl
  | item _ _ _ _ => rfl
  | field _ _ _ _ _ => rfl

theorem forall₂_trans {us vs ws : List Json} (h : List.Forall₂ Reordered us vs)
    (h' : List.Forall₂ Reordered vs ws) : List.Forall₂ Reordered us ws := by
  induction h generalizing ws with
  | nil => exact h'
  | cons hfirst _ ih =>
    cases h' with
    | cons hfirst' hrest' => exact .cons (hfirst.trans hfirst') (ih hrest')

/-- Both are arrays, item by item the same up to order, or neither is. -/
theorem Reordered.asArray? (h : Reordered v w) :
    Option.Rel (List.Forall₂ Reordered) v.asArray? w.asArray? := by
  induction h with
  | refl v =>
    cases v with
    | arr items => exact .some (List.forall₂_same.mpr fun u _ => .refl u)
    | _ => exact .none
  | @symm v w _ ih =>
    generalize v.asArray? = x, w.asArray? = y at ih
    cases ih with
    | none => exact .none
    | some hitems => exact .some (hitems.flip.imp fun _ _ h => h.symm)
  | @trans u v w _ _ ih ih' =>
    generalize u.asArray? = x, v.asArray? = y, w.asArray? = z at ih ih'
    cases ih with
    | none => exact ih'
    | some hitems =>
      cases ih' with
      | some hitems' => exact .some (forall₂_trans hitems hitems')
  | fields _ => exact .none
  | item before after h _ =>
    refine .some (List.rel_append (List.forall₂_same.mpr fun u _ => .refl u) (.cons h ?_))
    exact List.forall₂_same.mpr fun u _ => .refl u
  | field _ _ _ _ _ => exact .none

theorem get?_obj_eq_some {fields : List (String × Json)} (hkeys : (fields.map (·.1)).Nodup)
    {key : String} {value : Json} :
    (Json.obj fields).get? key = some value ↔ (key, value) ∈ fields := by
  induction fields with
  | nil => simp [get?]
  | cons x fields ih =>
    obtain ⟨k, v⟩ := x
    rw [List.map_cons, List.nodup_cons] at hkeys
    rw [get?_obj_cons, List.mem_cons, Prod.mk.injEq]
    by_cases hk : k = key
    · have habsent : (key, value) ∉ fields := by
        intro hmem
        have hkey : key ∈ fields.map (·.1) := List.mem_map.mpr ⟨(key, value), hmem, rfl⟩
        exact hkeys.1 (hk ▸ hkey)
      simp [hk, habsent, eq_comm]
    · have hne : key ≠ k := fun h => hk h.symm
      rw [if_neg hk, ih hkeys.2]
      simp [hne]

/-- A field is looked up by its name. -/
theorem Reordered.get? (h : Reordered v w) (hv : IsValue v) (key : String) :
    Option.Rel Reordered (v.get? key) (w.get? key) := by
  induction h with
  | refl v =>
    cases v.get? key with
    | none => exact .none
    | some u => exact .some (.refl u)
  | @symm v w h ih =>
    have ih := ih (h.isValue_iff.mpr hv)
    generalize v.get? key = x, w.get? key = y at ih
    cases ih with
    | none => exact .none
    | some hvalue => exact .some hvalue.symm
  | @trans u v w h _ ih ih' =>
    have hfirst := ih hv
    have hsecond := ih' (h.isValue_iff.mp hv)
    generalize u.get? key = x, v.get? key = y, w.get? key = z at hfirst hsecond
    cases hfirst with
    | none => exact hsecond
    | some hvalue =>
      cases hsecond with
      | some hvalue' => exact .some (hvalue.trans hvalue')
  | @fields fs gs hperm =>
    cases hv with
    | obj hkeys _ =>
      have hkeys' := (hperm.map (·.1)).nodup_iff.mp hkeys
      have heq : (Json.obj fs).get? key = (Json.obj gs).get? key := by
        refine Option.ext fun value => ?_
        rw [get?_obj_eq_some hkeys, get?_obj_eq_some hkeys', hperm.mem_iff]
      rw [heq]
      cases (Json.obj gs).get? key with
      | none => exact .none
      | some u => exact .some (.refl u)
  | item _ _ _ _ => exact .none
  | @field before after k v w h _ =>
    induction before with
    | nil =>
      rw [List.nil_append, List.nil_append, get?_obj_cons, get?_obj_cons]
      by_cases hk : k = key
      · rw [if_pos hk, if_pos hk]
        exact .some h
      · rw [if_neg hk, if_neg hk]
        cases (Json.obj after).get? key with
        | none => exact .none
        | some u => exact .some (.refl u)
    | cons x before ih =>
      obtain ⟨k', u⟩ := x
      rw [List.cons_append, List.cons_append, get?_obj_cons, get?_obj_cons]
      by_cases hk : k' = key
      · rw [if_pos hk, if_pos hk]
        exact .some (.refl u)
      · rw [if_neg hk, if_neg hk]
        refine ih ?_
        cases hv with
        | obj hkeys hfields =>
          rw [List.cons_append, List.map_cons, List.nodup_cons] at hkeys
          exact .obj hkeys.2 fun f hf => hfields f (List.mem_cons_of_mem _ hf)

theorem isValue_get? (hv : IsValue v) {key : String} {u : Json} (h : v.get? key = some u) :
    IsValue u := by
  cases hv with
  | obj hkeys hfields => exact hfields (key, u) ((get?_obj_eq_some hkeys).mp h)
  | _ => cases h

/-! ## A field set to a value -/

/-- Setting a field of an object with distinct keys puts it before the others. -/
theorem perm_insertField {key : String} {fields : List (String × Json)}
    (hkeys : (fields.map (·.1)).Nodup) (value : Json) :
    (insertField key value fields).Perm ((key, value) :: removeField key fields) := by
  induction fields with
  | nil => exact .refl _
  | cons x fields ih =>
    obtain ⟨k, v⟩ := x
    rw [List.map_cons, List.nodup_cons] at hkeys
    simp only [insertField, removeField, List.filter_cons]
    by_cases hk : k = key
    · have hrest : fields.filter (fun f => !(f.1 == key)) = fields := by
        refine List.filter_eq_self.mpr ?_
        intro f hf
        have hmem : f.1 ∈ fields.map (·.1) := List.mem_map_of_mem hf
        have hne : f.1 ≠ key := by
          intro h
          rw [h, ← hk] at hmem
          exact hkeys.1 hmem
        simp [hne]
      simp only [hk, beq_self_eq_true, if_true, Bool.not_true, Bool.false_eq_true, if_false, hrest]
      exact .refl _
    · simp only [beq_eq_false_iff_ne.mpr hk, Bool.false_eq_true, if_false, Bool.not_false, if_true]
      exact ((ih hkeys.2).cons (k, v)).trans (.swap _ _ _)

theorem Reordered.insert_field {key : String} {value : Json} (h : Reordered v w)
    (hv : IsValue v) : Reordered (v.insert key value) (w.insert key value) := by
  induction h with
  | refl v => exact .refl _
  | symm h ih => exact .symm (ih (h.isValue_iff.mpr hv))
  | trans h _ ih ih' => exact .trans (ih hv) (ih' (h.isValue_iff.mp hv))
  | item before after h _ => exact .item before after h
  | fields hperm =>
    cases hv with
    | obj hkeys _ =>
      have hkeys' := (hperm.map (·.1)).nodup_iff.mp hkeys
      refine .fields ((perm_insertField hkeys value).trans ?_)
      refine .trans ?_ (perm_insertField hkeys' value).symm
      exact (hperm.filter _).cons _
  | field before after k h _ =>
    have hw := (Reordered.field before after k h).isValue_iff.mp hv
    cases hv with
    | obj hkeys _ =>
      cases hw with
      | obj hkeys' _ =>
        refine .trans (.fields (perm_insertField hkeys value)) ?_
        refine .trans ?_ (.symm (.fields (perm_insertField hkeys' value)))
        simp only [removeField, List.filter_append, List.filter_cons]
        by_cases hk : k = key
        · simp only [hk, beq_self_eq_true, Bool.not_true, Bool.false_eq_true, if_false]
          exact .refl _
        · simp only [beq_eq_false_iff_ne.mpr hk, Bool.not_false, if_true]
          exact .field ((key, value) :: removeField key before) _ k h

end Json
end SecureAgnt

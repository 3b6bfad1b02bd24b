/-
The key under which a run is found again.

The canonical form of a value is the value with its fields in another order, and the
text of a value determines it, so requests with one key ask for the same run up to
the order of fields.  The order makes no difference to the capabilities granted.
-/
import Mathlib.Data.List.Sort
import SecureAgnt.Runs.Dedupe

namespace SecureAgnt
namespace Runs

open Policy
open Json (IsValue Reordered)

/-! ## The canonical form -/

section Canonical

variable {v w : Json} {fields : List (String × Json)}

theorem canonicalizeItems_eq (items : List Json) :
    canonicalizeItems items = items.map canonicalizeJsonForSemanticDedupe := by
  induction items with
  | nil => rw [canonicalizeItems, List.map_nil]
  | cons item items ih => rw [canonicalizeItems, ih, List.map_cons]

theorem canonicalizeFields_eq (fields : List (String × Json)) :
    canonicalizeFields fields =
      fields.map fun x => (x.1, canonicalizeJsonForSemanticDedupe x.2) := by
  induction fields with
  | nil => rw [canonicalizeFields, List.map_nil]
  | cons x fields ih =>
    obtain ⟨key, value⟩ := x
    rw [canonicalizeFields, ih, List.map_cons]

theorem insertField_of_not_mem {key : String} (value : Json) (h : key ∉ fields.map (·.1)) :
    Json.insertField key value fields = fields ++ [(key, value)] := by
  induction fields with
  | nil => rfl
  | cons x fields ih =>
    obtain ⟨k, v⟩ := x
    rw [List.map_cons, List.mem_cons, not_or] at h
    have hne : (k == key) = false := beq_eq_false_iff_ne.mpr fun hk => h.1 hk.symm
    simp only [Json.insertField, hne, Bool.false_eq_true, if_false, ih h.2, List.cons_append]

/-- Fields with distinct keys are inserted in their order. -/
theorem foldl_insertField (before : List (String × Json))
    (hkeys : ((before ++ fields).map (·.1)).Nodup) :
    fields.foldl (fun canonical field => Json.insertField field.1 field.2 canonical) before =
      before ++ fields := by
  induction fields generalizing before with
  | nil => simp
  | cons x fields ih =>
    have habsent : x.1 ∉ before.map (·.1) := by
      rw [List.map_append, List.nodup_append] at hkeys
      intro hmem
      exact hkeys.2.2 x.1 hmem x.1 (List.mem_map_of_mem List.mem_cons_self) rfl
    rw [List.foldl_cons, insertField_of_not_mem x.2 habsent]
    rw [ih _ (by rw [List.append_assoc]; exact hkeys), List.append_assoc, List.singleton_append]

theorem insertAll_eq (hkeys : (fields.map (·.1)).Nodup) : insertAll fields = fields := by
  have h := foldl_insertField [] hkeys
  rwa [List.nil_append] at h

/-- The canonical form of a value is the value in another order. -/
theorem reordered_canonicalize (hv : IsValue v) :
    Reordered v (canonicalizeJsonForSemanticDedupe v) := by
  induction hv with
  | null => exact .refl _
  | bool b => exact .refl _
  | num hn => exact .refl _
  | str s => exact .refl _
  | @arr items _ ih =>
    rw [canonicalizeJsonForSemanticDedupe, canonicalizeItems_eq]
    exact Reordered.items [] ih
  | @obj fields hkeys _ ih =>
    rw [canonicalizeJsonForSemanticDedupe, canonicalizeFields_eq]
    have hvalues := Reordered.values [] ih
    rw [List.nil_append, List.nil_append] at hvalues
    refine hvalues.trans ?_
    have hsorted := List.perm_insertionSort (fun left right : String × Json => left.1 ≤ right.1)
      (fields.map fun x => (x.1, canonicalizeJsonForSemanticDedupe x.2))
    have hkeys' : ((sortFields (fields.map fun x =>
        (x.1, canonicalizeJsonForSemanticDedupe x.2))).map (·.1)).Nodup := by
      rw [sortFields, (hsorted.map (·.1)).nodup_iff, List.map_map]
      exact hkeys
    rw [insertAll_eq hkeys']
    exact .fields hsorted.symm

theorem isValue_canonicalize (hv : IsValue v) : IsValue (canonicalizeJsonForSemanticDedupe v) :=
  (reordered_canonicalize hv).isValue_iff.mp hv

theorem reordered_of_canonicalize (hv : IsValue v) (hw : IsValue w)
    (h : canonicalizeJsonForSemanticDedupe v = canonicalizeJsonForSemanticDedupe w) :
    Reordered v w := by
  have hvw := reordered_canonicalize hv
  rw [h] at hvw
  exact hvw.trans (reordered_canonicalize hw).symm

end Canonical

/-! ## Requests with one key -/

theorem roleText_injective : Function.Injective roleText := by
  intro role role' h
  cases role <;> cases role' <;> first | rfl | exact absurd h (by decide)

/-- Two requests of tenants that ask for the same run. -/
structure SameRequest (tenantId tenantId' : String) (role role' : RolePreset)
    (req req' : CreateRunRequest) : Prop where
  tenantId : tenantId = tenantId'
  role : role = role'
  agentId : req.agentId = req'.agentId
  triggeredByUserId : req.triggeredByUserId = req'.triggeredByUserId
  recipeId : req.recipeId = req'.recipeId
  input : Reordered req.input req'.input
  requestedCapabilities : Reordered req.requestedCapabilities req'.requestedCapabilities

def userJson (userId : Option Uuid) : Json := (userId.map fun id => Json.str id.text).getD .null

theorem isValue_userJson (userId : Option Uuid) : IsValue (userJson userId) := by
  cases userId with
  | none => exact .null
  | some id => exact .str _

theorem userJson_injective : Function.Injective userJson := by
  intro x y h
  cases x with
  | none =>
    cases y with
    | none => rfl
    | some id => cases h
  | some id =>
    cases y with
    | none => cases h
    | some id' => exact congrArg some (Uuid.text_injective (Json.str.inj h))

theorem isValue_dedupePayload (tenantId : String) (role : RolePreset) (req : CreateRunRequest) :
    IsValue (dedupePayload tenantId role req) := by
  have hkeys : ["agent_id", "input", "recipe_id", "requested_capabilities", "role_preset",
      "tenant_id", "triggered_by_user_id"].Nodup := by decide
  refine .obj hkeys ?_
  simp only [List.forall_mem_cons, List.not_mem_nil, false_implies, implies_true, and_true]
  exact ⟨.str _, isValue_canonicalize req.isValue_input, .str _,
    isValue_canonicalize req.isValue_requested, .str _, .str _, isValue_userJson _⟩

variable {rt : DedupeRuntime} {tenantId tenantId' : String} {role role' : RolePreset}
  {req req' : CreateRunRequest}

theorem sameRequest_of_payload (h : dedupePayload tenantId role req =
    dedupePayload tenantId' role' req') : SameRequest tenantId tenantId' role role' req req' := by
  simp only [dedupePayload, Json.obj.injEq, List.cons.injEq, Prod.mk.injEq, true_and, and_true,
    Json.str.injEq] at h
  obtain ⟨hagent, hinput, hrecipe, hrequested, hrole, htenant, huser⟩ := h
  exact ⟨htenant, roleText_injective hrole, Uuid.text_injective hagent, userJson_injective huser,
    hrecipe, reordered_of_canonicalize req.isValue_input req'.isValue_input hinput,
    reordered_of_canonicalize req.isValue_requested req'.isValue_requested hrequested⟩

/-- The key determines what is asked for. -/
theorem sameRequest_of_key (hsha : Function.Injective rt.digestSha256Hex)
    (h : computeRunSemanticDedupeKey rt tenantId role req =
      computeRunSemanticDedupeKey rt tenantId' role' req') :
    SameRequest tenantId tenantId' role role' req req' := by
  refine sameRequest_of_payload ?_
  refine Json.write_injective (isValue_dedupePayload ..) (isValue_dedupePayload ..)
    (f := rt.floats) ?_
  exact String.ofList_injective (String.toByteArray_inj.mp (hsha h))

/-! ## Grants do not depend on the order of fields -/

section Grants

variable {v w : Json}

theorem strField_eq (h : Reordered v w) (hv : IsValue v) (key : String) :
    (v.get? key).bind Json.asStr? = (w.get? key).bind Json.asStr? := by
  have hrel := h.get? hv key
  generalize v.get? key = x, w.get? key = y at hrel
  cases hrel with
  | none => rfl
  | some hvalue => exact hvalue.asStr?_eq

theorem requestedLimit_eq (h : Reordered v w) (hv : IsValue v) :
    requestedLimit v = requestedLimit w := by
  unfold requestedLimit
  have hrel := h.get? hv "limits"
  cases hx : v.get? "limits" with
  | none =>
    rw [hx] at hrel
    generalize w.get? "limits" = y at hrel ⊢
    cases hrel
    rfl
  | some limits =>
    rw [hx] at hrel
    generalize w.get? "limits" = y at hrel ⊢
    cases hrel with
    | @some _ limits' hlimits =>
      have hmax := hlimits.get? (Json.isValue_get? hv hx) "max_payload_bytes"
      show (limits.get? _).bind _ = (limits'.get? _).bind _
      generalize limits.get? "max_payload_bytes" = x, limits'.get? "max_payload_bytes" = y at hmax
      cases hmax with
      | none => rfl
      | some hvalue => exact hvalue.asU64?_eq

theorem parseRequestedCapability_eq (h : Reordered v w) (hv : IsValue v) :
    parseRequestedCapability v = parseRequestedCapability w := by
  unfold parseRequestedCapability
  rw [strField_eq h hv, strField_eq h hv, requestedLimit_eq h hv]

theorem parseRequestedItems_eq {items items' : List Json} (h : List.Forall₂ Reordered items items')
    (hitems : ∀ v ∈ items, IsValue v) : parseRequestedItems items = parseRequestedItems items' := by
  induction h with
  | nil => rfl
  | cons hfirst _ ih =>
    have hrest := ih fun u hu => hitems u (List.mem_cons_of_mem _ hu)
    simp only [parseRequestedItems, hrest,
      parseRequestedCapability_eq hfirst (hitems _ List.mem_cons_self)]

theorem parseRequestedCapabilities_eq (h : Reordered v w) (hv : IsValue v) :
    parseRequestedCapabilities v = parseRequestedCapabilities w := by
  unfold parseRequestedCapabilities
  have hrel := h.asArray?
  cases hv with
  | @arr items hitems =>
    generalize w.asArray? = y at hrel ⊢
    cases hrel with
    | some hforall => exact parseRequestedItems_eq hforall hitems
  | _ =>
    generalize w.asArray? = y at hrel ⊢
    cases hrel
    rfl

theorem resolveGrantedCapabilities_eq (h : Reordered v w) (hv : IsValue v) (recipeId : String)
    (role : RolePreset) :
    resolveGrantedCapabilities recipeId role v = resolveGrantedCapabilities recipeId role w := by
  unfold resolveGrantedCapabilities
  rw [parseRequestedCapabilities_eq h hv]

end Grants

theorem reordered_injectTraceId {input input' : Json} (h : Reordered input input')
    (hv : IsValue input) (traceId : String) :
    Reordered (injectTraceIdIntoInput input traceId) (injectTraceIdIntoInput input' traceId) := by
  have hobject := h.isObject_eq
  have hwrapped : Reordered (.obj [("_trace", .str traceId), ("input", input)])
      (.obj [("_trace", .str traceId), ("input", input')]) :=
    .field [("_trace", .str traceId)] [] "input" h
  cases input with
  | obj fields =>
    cases input' with
    | obj fields' => exact h.insert_field hv
    | _ => cases hobject
  | _ =>
    cases input' with
    | obj fields' => cases hobject
    | _ => exact hwrapped

end Runs
end SecureAgnt

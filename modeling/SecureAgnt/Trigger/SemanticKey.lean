/-
The semantic key of an event.

The key is the digest of a text that determines the tenant, the trigger and the
payload up to the order of the fields of its objects, and nothing more.
-/
import SecureAgnt.Lib.JsonCanonical
import SecureAgnt.Lib.Tabled
import SecureAgnt.Trigger.Dispatch

namespace SecureAgnt
namespace Trigger

open Json (IsValue Reordered)

mutual

theorem canonicalizeJson_eq : (v : Json) → canonicalizeJson v = v.canonical
  | .null => rfl
  | .bool b => rfl
  | .num n => rfl
  | .str s => rfl
  | .arr items => by rw [canonicalizeJson, Json.canonical, canonicalizeItems_eq items]
  | .obj fields => by
    rw [canonicalizeJson, Json.canonical, canonicalizeFields_eq fields]
    rfl

theorem canonicalizeItems_eq : (items : List Json) →
    canonicalizeItems items = Json.canonicalItems items
  | [] => rfl
  | item :: rest => by
    rw [canonicalizeItems, Json.canonicalItems, canonicalizeJson_eq item, canonicalizeItems_eq rest]

theorem canonicalizeFields_eq : (fields : List (String × Json)) →
    canonicalizeFields fields = Json.canonicalFields fields
  | [] => rfl
  | (key, value) :: rest => by
    rw [canonicalizeFields, Json.canonicalFields, canonicalizeJson_eq value,
      canonicalizeFields_eq rest]

end

/-- What is hashed for an event. -/
def dedupePayload (tenantId triggerId : String) (payload : Json) : Json :=
  .obj [("payload", canonicalizeJson payload), ("tenant_id", .str tenantId),
    ("trigger_id", .str triggerId)]

section Payload

variable {tenantId tenantId' triggerId triggerId' : String} {payload payload' : Json}

theorem isValue_dedupePayload (hpayload : IsValue payload) :
    IsValue (dedupePayload tenantId triggerId payload) := by
  refine .obj (show ["payload", "tenant_id", "trigger_id"].Nodup by decide) ?_
  simp only [List.forall_mem_cons, List.not_mem_nil, false_implies, implies_true, and_true]
  refine ⟨?_, .str tenantId, .str triggerId⟩
  rw [canonicalizeJson_eq]
  exact Json.isValue_canonical hpayload

theorem dedupePayload_eq_iff (hpayload : IsValue payload) (hpayload' : IsValue payload') :
    dedupePayload tenantId triggerId payload = dedupePayload tenantId' triggerId' payload' ↔
      tenantId = tenantId' ∧ triggerId = triggerId' ∧ Reordered payload payload' := by
  rw [← Json.canonical_eq_iff hpayload hpayload', ← canonicalizeJson_eq, ← canonicalizeJson_eq]
  simp only [dedupePayload, Json.obj.injEq, List.cons.injEq, Prod.mk.injEq, true_and, and_true,
    Json.str.injEq]
  constructor
  · intro h
    exact ⟨h.2.1, h.2.2, h.1⟩
  · intro h
    exact ⟨h.2.2, h.1, h.2.1⟩

end Payload

/-- The hash of the runtime is a digest of the text of the value. -/
structure TriggerRuntime.Hashes (rt : TriggerRuntime) (f : FloatText)
    (digest : ByteArray → String) : Prop where
  sha256Hex : ∀ v, rt.sha256Hex v = digest (String.ofList (Json.write f v)).toByteArray

/-- Two payloads have one key exactly when they differ in the order of fields only. -/
theorem semanticDedupeKey_eq_iff {rt : TriggerRuntime} {f : FloatText}
    {digest : ByteArray → String} (hrt : rt.Hashes f digest) (hdigest : Function.Injective digest)
    {payload payload' : Json} (hpayload : IsValue payload) (hpayload' : IsValue payload')
    (tenantId tenantId' triggerId triggerId' : String) :
    computeTriggerEventSemanticDedupeKey rt tenantId triggerId payload =
        computeTriggerEventSemanticDedupeKey rt tenantId' triggerId' payload' ↔
      tenantId = tenantId' ∧ triggerId = triggerId' ∧ Reordered payload payload' := by
  rw [← dedupePayload_eq_iff hpayload hpayload']
  constructor
  · intro h
    have htext : digest _ = digest _ := (hrt.sha256Hex _).symm.trans (h.trans (hrt.sha256Hex _))
    have hwrite := String.ofList_injective (String.toByteArray_inj.mp (hdigest htext))
    exact Json.write_injective (isValue_dedupePayload hpayload) (isValue_dedupePayload hpayload')
      hwrite
  · intro h
    exact congrArg rt.sha256Hex h

/-! ## Fields in another order -/

def swappedDigests : List (String × String) :=
  [("\x7b\"payload\":\x7b\"a\":null,\"b\":null\x7d,\"tenant_id\":\"t\",\"trigger_id\":\"g\"\x7d",
    "f92b6787806be084e170084a22a3758a73b3c3c4c00d4ccae1665b02641a8e9f")]

/-- SHA-256 on the payload below. -/
def swappedDigest : ByteArray → String := tabledDigest swappedDigests

theorem swappedDigest_injective : Function.Injective swappedDigest :=
  tabledDigest_injective (List.nodup_singleton _) (by decide)

def hashedRuntime : TriggerRuntime where
  jitterHash := fun _ _ => 0
  nextCronFireAt := fun _ _ _ => .ok 0
  serializedLen := fun v => (Json.write bitText v).length
  sha256Hex := fun v => swappedDigest (String.ofList (Json.write bitText v)).toByteArray

theorem hashedRuntime_hashes : hashedRuntime.Hashes bitText swappedDigest := ⟨fun _ => rfl⟩

theorem semanticDedupeKey_swapped :
    computeTriggerEventSemanticDedupeKey hashedRuntime "t" "g" (.obj [("a", .null), ("b", .null)]) =
      computeTriggerEventSemanticDedupeKey hashedRuntime "t" "g"
        (.obj [("b", .null), ("a", .null)]) := by
  have hvalue : ∀ keys : List String, keys.Nodup →
      IsValue (.obj (keys.map fun key => (key, .null))) := by
    intro keys hkeys
    refine .obj (by simpa [Function.comp_def] using hkeys) ?_
    intro field hfield
    obtain ⟨key, _, rfl⟩ := List.mem_map.mp hfield
    exact .null
  exact (semanticDedupeKey_eq_iff hashedRuntime_hashes swappedDigest_injective
    (hvalue ["a", "b"] (by decide)) (hvalue ["b", "a"] (by decide)) _ _ _ _).mpr
      ⟨rfl, rfl, .fields (.swap _ _ _)⟩

end Trigger
end SecureAgnt

/-
The capability policy engine: grants, action requests and the decision on them.
-/
import SecureAgnt.Lib.Text

namespace SecureAgnt
namespace Policy

inductive CapabilityKind where
  | objectRead
  | objectWrite
  | memoryRead
  | memoryWrite
  | messageSend
  | messageReceive
  | paymentSend
  | llmInfer
  | localExec
  | dbQuery
  | httpRequest
  deriving DecidableEq, Repr

def CapabilityKind.fromActionType (actionType : String) : Option CapabilityKind :=
  match actionType with
  | "object.read" => some .objectRead
  | "object.write" => some .objectWrite
  | "memory.read" => some .memoryRead
  | "memory.write" => some .memoryWrite
  | "message.send" => some .messageSend
  | "message.receive" => some .messageReceive
  | "payment.send" => some .paymentSend
  | "llm.infer" => some .llmInfer
  | "local.exec" => some .localExec
  | "db.query" => some .dbQuery
  | "http.request" => some .httpRequest
  | _ => none

structure CapabilityLimits where
  maxPayloadBytes : Option Nat := none
  deriving DecidableEq, Repr

structure CapabilityGrant where
  kind : CapabilityKind
  scope : String
  limits : CapabilityLimits := {}
  deriving DecidableEq, Repr

structure GrantSet where
  grants : List CapabilityGrant := []
  deriving DecidableEq, Repr

structure ActionRequest where
  actionType : String
  scope : String
  payloadBytes : Nat
  deriving DecidableEq, Repr

inductive DenyReason where
  | unknownActionType
  | capabilityMissing
  | scopeMismatch
  | payloadTooLarge
  | invalidActionContract
  deriving DecidableEq, Repr

def DenyReason.asStr : DenyReason → String
  | .unknownActionType => "unknown_action_type"
  | .capabilityMissing => "capability_missing"
  | .scopeMismatch => "scope_mismatch"
  | .payloadTooLarge => "payload_too_large"
  | .invalidActionContract => "invalid_action_contract"

inductive PolicyDecision where
  | allow
  | deny (reason : DenyReason)
  deriving DecidableEq, Repr

/-- A scope ending in `*` covers what starts with the text before it; any other
scope covers itself. -/
def scopeMatches (grantScope requestedScope : String) : Bool :=
  match Text.stripSuffixChar grantScope '*' with
  | some stem => Text.startsWith requestedScope stem
  | none => grantScope == requestedScope

def withinLimit (grant : CapabilityGrant) (request : ActionRequest) : Bool :=
  match grant.limits.maxPayloadBytes with
  | some maxPayloadBytes => request.payloadBytes ≤ maxPayloadBytes
  | none => true

def isActionAllowed (grants : GrantSet) (request : ActionRequest) : PolicyDecision :=
  match CapabilityKind.fromActionType request.actionType with
  | none => .deny .unknownActionType
  | some kind =>
    let kindGrants := grants.grants.filter fun grant => grant.kind = kind
    if kindGrants.isEmpty then .deny .capabilityMissing
    else
      let scopedGrants := kindGrants.filter fun grant => scopeMatches grant.scope request.scope
      if scopedGrants.isEmpty then .deny .scopeMismatch
      else if scopedGrants.any fun grant => withinLimit grant request then .allow
      else .deny .payloadTooLarge

/-! ## What an allowed action says about the grants -/

/-- One grant covers a request: same kind, a scope that matches, and the limit
where there is one. -/
def Covers (grant : CapabilityGrant) (request : ActionRequest) : Prop :=
  CapabilityKind.fromActionType request.actionType = some grant.kind ∧
    scopeMatches grant.scope request.scope = true ∧ withinLimit grant request = true

/-- The three filters of `isActionAllowed` agree with a single covering grant. -/
theorem isActionAllowed_eq_allow {grants : GrantSet} {request : ActionRequest} :
    isActionAllowed grants request = .allow ↔ ∃ grant ∈ grants.grants, Covers grant request := by
  unfold isActionAllowed
  cases hk : CapabilityKind.fromActionType request.actionType with
  | none => simp [Covers, hk]
  | some kind =>
    dsimp only
    constructor
    · intro h
      split at h
      · cases h
      split at h
      · cases h
      split at h
      · rename_i hany
        obtain ⟨grant, hmem, hlimit⟩ := List.any_eq_true.mp hany
        simp only [List.mem_filter, decide_eq_true_eq] at hmem
        exact ⟨grant, hmem.1.1, by rw [hk, hmem.1.2], hmem.2, hlimit⟩
      · cases h
    · intro hx
      obtain ⟨grant, hmem, hkind, hscope, hlimit⟩ := hx
      rw [hk, Option.some.injEq] at hkind
      have hkinds : grant ∈ grants.grants.filter fun g => g.kind = kind := by
        simp [hmem, hkind]
      have hscoped : grant ∈ (grants.grants.filter fun g => g.kind = kind).filter
          fun g => scopeMatches g.scope request.scope := by
        rw [List.mem_filter]
        exact ⟨hkinds, hscope⟩
      rw [if_neg (by rw [List.isEmpty_iff]; exact List.ne_nil_of_mem hkinds),
        if_neg (by rw [List.isEmpty_iff]; exact List.ne_nil_of_mem hscoped),
        if_pos (List.any_eq_true.mpr ⟨grant, hscoped, hlimit⟩)]

/-! ## Scope patterns -/

/-- A stem that does not itself end in the wildcard character. -/
def PlainStem (stem : String) : Prop := stem.toList.getLast? ≠ some '*'

/-- What a scope pattern covers starts with every plain stem the pattern starts
with.  The stem must not end in `*`: the pattern `a*` starts with `a*` and
covers `ab`. -/
theorem startsWith_of_scopeMatches {stem pattern scope : String} (hplain : PlainStem stem)
    (hpattern : Text.startsWith pattern stem = true)
    (hmatch : scopeMatches pattern scope = true) : Text.startsWith scope stem = true := by
  unfold scopeMatches at hmatch
  split at hmatch
  · rename_i short hshort
    rw [Text.stripSuffixChar_eq_some] at hshort
    rw [Text.startsWith_iff] at *
    refine List.IsPrefix.trans ?_ hmatch
    rw [hshort] at hpattern
    rcases List.prefix_concat_iff.mp hpattern with heq | hle
    · exact absurd (by rw [heq]; simp) hplain
    · exact hle
  · rw [beq_iff_eq] at hmatch
    exact hmatch ▸ hpattern

/-- A scope that lies within another covers no more than it does. -/
theorem scopeMatches_trans {outer inner scope : String}
    (hplain : ∀ stem, Text.stripSuffixChar outer '*' = some stem → PlainStem stem)
    (houter : scopeMatches outer inner = true) (hinner : scopeMatches inner scope = true) :
    scopeMatches outer scope = true := by
  cases hs : Text.stripSuffixChar outer '*' with
  | some stem =>
    have hstart : Text.startsWith inner stem = true := by simpa [scopeMatches, hs] using houter
    simpa [scopeMatches, hs] using
      startsWith_of_scopeMatches (hplain stem hs) hstart hinner
  | none =>
    have heq : outer = inner := by simpa [scopeMatches, hs] using houter
    rw [heq]
    exact hinner

end Policy
end SecureAgnt

/-
Grant containment across the two components.

The API writes a run's grants as JSON and the worker reads them back into a
`GrantSet`.  `mayDo_iff` describes, for every recipe, role and request, exactly
what the worker then allows; containment and the order of the role presets are
read off it.
-/
import SecureAgnt.Policy.Grants
import SecureAgnt.Policy.Resolve

namespace SecureAgnt
namespace Policy

/-! ## The worker's reading of the grant JSON -/

def parseCapabilityKind (value : String) : Option CapabilityKind :=
  match value with
  | "object.read" | "object_read" => some .objectRead
  | "object.write" | "object_write" => some .objectWrite
  | "memory.read" | "memory_read" => some .memoryRead
  | "memory.write" | "memory_write" => some .memoryWrite
  | "message.send" | "message_send" => some .messageSend
  | "message.receive" | "message_receive" => some .messageReceive
  | "payment.send" | "payment_send" => some .paymentSend
  | "llm.infer" | "llm_infer" => some .llmInfer
  | "local.exec" | "local_exec" => some .localExec
  | "db.query" | "db_query" => some .dbQuery
  | "http.request" | "http_request" => some .httpRequest
  | _ => none

def parseCapabilityGrant (value : Json) : Option CapabilityGrant :=
  ((value.get? "capability").bind Json.asStr?).bind fun capability =>
    ((value.get? "scope").bind Json.asStr?).bind fun scope =>
      (parseCapabilityKind capability).map fun kind =>
        { kind := kind
          scope := scope
          limits := { maxPayloadBytes :=
            (value.get? "limits").bind fun limits =>
              (limits.get? "max_payload_bytes").bind Json.asU64? } }

def parseGrantSet (raw : Json) : GrantSet :=
  match raw.asArray? with
  | none => {}
  | some items => { grants := items.filterMap parseCapabilityGrant }

/-! ## Limits -/

theorem resolveMaxPayloadBytes_le (capability : String) :
    resolveMaxPayloadBytes capability none ≤ maxObjectWritePayloadBytes := by
  unfold resolveMaxPayloadBytes
  dsimp only [Option.bind]
  split <;> decide

theorem cappedMax_le_hardMax (capability : String) (requestedMax bundleMax : Option Nat) :
    cappedMax capability requestedMax bundleMax ≤ resolveMaxPayloadBytes capability none := by
  have hcap : (bundleMax.map (min · (resolveMaxPayloadBytes capability none))).getD
      (resolveMaxPayloadBytes capability none) ≤ resolveMaxPayloadBytes capability none := by
    cases bundleMax with
    | none => exact Nat.le_refl _
    | some b => exact Nat.min_le_right _ _
  unfold cappedMax
  dsimp only
  cases requestedMax.filter (0 < ·) with
  | none => exact hcap
  | some value => exact Nat.le_trans (Nat.min_le_right _ _) hcap

theorem cappedMax_le_requested (capability : String) {requested : Nat} (hpos : 0 < requested)
    (bundleMax : Option Nat) :
    cappedMax capability (some requested) bundleMax ≤ requested := by
  unfold cappedMax
  rw [Option.filter_some, if_pos (by simpa using hpos)]
  exact Nat.min_le_left _ _

/-- A bundle limit equal to the platform limit caps nothing further. -/
theorem cappedMax_hardMax (capability : String) (requestedMax : Option Nat) :
    cappedMax capability requestedMax (some (resolveMaxPayloadBytes capability none)) =
      cappedMax capability requestedMax none := by
  simp [cappedMax]

/-! ## The grant JSON read back -/

theorem parseCapabilityGrant_capabilityJson (capability scope : String)
    (requestedMax bundleMax : Option Nat) :
    parseCapabilityGrant (capabilityJson capability scope requestedMax bundleMax) =
      (parseCapabilityKind capability).map fun kind =>
        { kind := kind
          scope := scope
          limits := { maxPayloadBytes := some (cappedMax capability requestedMax bundleMax) } } := by
  have hlt : cappedMax capability requestedMax bundleMax % 2 ^ 64 =
      cappedMax capability requestedMax bundleMax := by
    refine Nat.mod_eq_of_lt ?_
    calc cappedMax capability requestedMax bundleMax
        ≤ resolveMaxPayloadBytes capability none := cappedMax_le_hardMax _ _ _
      _ ≤ maxObjectWritePayloadBytes := resolveMaxPayloadBytes_le _
      _ < 2 ^ 64 := by decide
  have hnames : ("capability" = "scope") = False ∧ ("capability" = "limits") = False ∧
      ("scope" = "limits") = False := by decide
  simp only [parseCapabilityGrant, capabilityJson, Json.get?_obj_cons, hnames.1, hnames.2.1,
    hnames.2.2, if_true, if_false, Option.bind_some, Json.asStr?, Json.asU64?_nat, hlt]

/-- The canonical capability names; both readers of a name agree on them. -/
def IsCanonical (capability : String) : Prop :=
  (CapabilityKind.fromActionType capability).isSome = true

theorem normalizeCapability_canonical {raw capability : String}
    (h : normalizeCapability raw = some capability) : IsCanonical capability := by
  unfold normalizeCapability at h
  split at h <;> cases h <;> rfl

theorem parseCapabilityKind_canonical {capability : String} (h : IsCanonical capability) :
    parseCapabilityKind capability = CapabilityKind.fromActionType capability := by
  unfold IsCanonical CapabilityKind.fromActionType at h
  split at h
  all_goals first
    | rfl
    | cases h

theorem fromActionType_inj {a b : String} {kind : CapabilityKind}
    (ha : CapabilityKind.fromActionType a = some kind)
    (hb : CapabilityKind.fromActionType b = some kind) : a = b := by
  unfold CapabilityKind.fromActionType at ha
  split at ha <;> cases ha <;>
    (unfold CapabilityKind.fromActionType at hb; split at hb <;> first | rfl | cases hb)

/-- The worker allows a request through one emitted grant exactly when the
request names its capability, lies in its scope and fits its limit. -/
theorem covers_capabilityJson {capability scope : String} {requestedMax bundleMax : Option Nat}
    (hcanonical : IsCanonical capability) (request : ActionRequest) :
    (∃ grant, parseCapabilityGrant (capabilityJson capability scope requestedMax bundleMax) =
        some grant ∧ Covers grant request) ↔
      request.actionType = capability ∧ scopeMatches scope request.scope = true ∧
        request.payloadBytes ≤ cappedMax capability requestedMax bundleMax := by
  obtain ⟨kind, hkind⟩ := Option.isSome_iff_exists.mp hcanonical
  rw [parseCapabilityGrant_capabilityJson, parseCapabilityKind_canonical hcanonical, hkind]
  simp only [Option.map_some, Option.some.injEq, exists_eq_left', Covers, withinLimit,
    decide_eq_true_eq]
  constructor
  · intro h
    obtain ⟨hk, hs, hl⟩ := h
    exact ⟨fromActionType_inj hk hkind, hs, hl⟩
  · intro h
    obtain ⟨hc, hs, hl⟩ := h
    exact ⟨hc ▸ hkind, hs, hl⟩

/-! ## What a role may do -/

/-- The worker allows `request` under the grants the API resolved. -/
def MayDo (recipeId : String) (role : RolePreset) (requested : Json) (request : ActionRequest) :
    Prop :=
  ∃ granted, resolveGrantedCapabilities recipeId role requested = .ok granted ∧
    isActionAllowed (parseGrantSet granted) request = .allow

theorem isActionAllowed_parseGrantSet {items : List Json} {request : ActionRequest} :
    isActionAllowed (parseGrantSet (.arr items)) request = .allow ↔
      ∃ item ∈ items, ∃ grant, parseCapabilityGrant item = some grant ∧ Covers grant request := by
  rw [isActionAllowed_eq_allow]
  simp only [parseGrantSet, Json.asArray?, List.mem_filterMap]
  constructor
  · intro h
    obtain ⟨grant, ⟨item, hitem, hparse⟩, hcovers⟩ := h
    exact ⟨item, hitem, grant, hparse, hcovers⟩
  · intro h
    obtain ⟨item, hitem, grant, hparse, hcovers⟩ := h
    exact ⟨grant, ⟨item, hitem, hparse⟩, hcovers⟩

/-- What a parsed entry says about the array item it came from. -/
structure ParsedFrom (item : Json) (parsed : RequestedCapability) : Prop where
  capability : ∃ raw, (item.get? "capability").bind Json.asStr? = some raw ∧
    normalizeCapability raw = some parsed.capability
  scope : ((item.get? "scope").bind Json.asStr?).map Text.trim = some parsed.scope
  limit : parsed.requestedMaxPayloadBytes = requestedLimit item
  allowed : isScopeAllowedForCapability parsed.capability parsed.scope = true

theorem parseRequestedCapability_some {item : Json} {parsed : RequestedCapability}
    (h : parseRequestedCapability item = .ok (some parsed)) : ParsedFrom item parsed := by
  unfold parseRequestedCapability at h
  split at h
  · cases h
  rename_i raw hraw
  split at h
  · cases h
  rename_i scope hscope
  split at h
  · cases h
  split at h
  · cases h
  rename_i capability hcapability
  split at h
  · cases h
  rename_i hallowed
  cases h
  exact ⟨⟨raw, hraw, hcapability⟩, hscope, rfl, by simpa using hallowed⟩

/-- Every parsed entry comes from an item of the array. -/
theorem parseRequestedItems_mem {items : List Json} {parsed : List RequestedCapability}
    (h : parseRequestedItems items = .ok parsed) :
    ∀ entry ∈ parsed, ∃ item ∈ items, ParsedFrom item entry := by
  induction items generalizing parsed with
  | nil =>
    cases h
    simp
  | cons item rest ih =>
    rw [parseRequestedItems] at h
    split at h
    · cases h
    rename_i head hhead
    split at h
    · cases h
    rename_i tail htail
    cases h
    intro entry hentry
    rcases List.mem_append.mp hentry with hin | hin
    · rw [Option.mem_toList] at hin
      rw [Option.mem_def.mp hin] at hhead
      exact ⟨item, List.mem_cons_self, parseRequestedCapability_some hhead⟩
    · obtain ⟨source, hsource, hfrom⟩ := ih htail entry hin
      exact ⟨source, List.mem_cons_of_mem _ hsource, hfrom⟩

theorem ParsedFrom.canonical {item : Json} {parsed : RequestedCapability}
    (h : ParsedFrom item parsed) : IsCanonical parsed.capability := by
  obtain ⟨raw, -, hnorm⟩ := h.capability
  exact normalizeCapability_canonical hnorm

/-- An invariant of the bundle table: canonical names, the platform limit, and a
wildcard only after a plain stem. -/
structure BundleEntryOk (entry : BundleCapability) : Prop where
  canonical : IsCanonical entry.capability
  limit : entry.maxPayloadBytes = some (resolveMaxPayloadBytes entry.capability none)
  plain : ∀ stem, Text.stripSuffixChar entry.scope '*' = some stem → PlainStem stem

/-- The decidable form of `BundleEntryOk`, evaluated on each row of the table. -/
def bundleEntryOk (entry : BundleCapability) : Bool :=
  (CapabilityKind.fromActionType entry.capability).isSome &&
    entry.maxPayloadBytes == some (resolveMaxPayloadBytes entry.capability none) &&
    ((Text.stripSuffixChar entry.scope '*').all fun stem => stem.toList.getLast? != some '*')

theorem BundleEntryOk.of_bool {entry : BundleCapability} (h : bundleEntryOk entry = true) :
    BundleEntryOk entry := by
  simp only [bundleEntryOk, Bool.and_eq_true, beq_iff_eq] at h
  obtain ⟨⟨hcanonical, hlimit⟩, hplain⟩ := h
  refine ⟨hcanonical, hlimit, fun stem hstem => ?_⟩
  rw [hstem] at hplain
  simpa [PlainStem] using hplain

theorem bundle_ok {recipeId : String} {bundle : List BundleCapability}
    (h : resolveRecipeCapabilityBundle recipeId = some bundle) :
    ∀ entry ∈ bundle, BundleEntryOk entry := by
  have hall : bundle.all bundleEntryOk = true := by
    unfold resolveRecipeCapabilityBundle at h
    split at h <;> cases h <;> decide
  intro entry hentry
  exact .of_bool (List.all_eq_true.mp hall entry hentry)

/-- The grants the API emits for a parsed request, as capability, scope and
limit: every permitted entry when the recipe has no bundle, the permitted bundle
when the parsed request is empty, and their intersection otherwise. -/
inductive Emits (recipeId : String) (role : RolePreset) (parsed : List RequestedCapability) :
    String → String → Nat → Prop
  | unbundled {item : RequestedCapability} (hnone : resolveRecipeCapabilityBundle recipeId = none)
      (hitem : item ∈ parsed) (hrole : roleAllowsCapability role item.capability item.scope = true) :
      Emits recipeId role parsed item.capability item.scope
        (cappedMax item.capability item.requestedMaxPayloadBytes none)
  | defaults {bundle : List BundleCapability} {entry : BundleCapability}
      (hbundle : resolveRecipeCapabilityBundle recipeId = some bundle) (hempty : parsed = [])
      (hentry : entry ∈ bundle)
      (hrole : roleAllowsCapability role entry.capability entry.scope = true) :
      Emits recipeId role parsed entry.capability entry.scope
        (cappedMax entry.capability none none)
  | intersected {bundle : List BundleCapability} {entry : BundleCapability}
      {item : RequestedCapability}
      (hbundle : resolveRecipeCapabilityBundle recipeId = some bundle) (hentry : entry ∈ bundle)
      (hrole : roleAllowsCapability role entry.capability entry.scope = true)
      (hitem : item ∈ parsed) (hcapability : entry.capability = item.capability)
      (hscope : scopeWithin entry.scope item.scope = true) :
      Emits recipeId role parsed item.capability item.scope
        (cappedMax item.capability item.requestedMaxPayloadBytes none)

/-- The entry `find?` picks does not matter: every bundle entry of a capability
carries the platform limit. -/
theorem grantRequested_eq_some {recipeId : String} {role : RolePreset}
    {bundle : List BundleCapability} (hbundle : resolveRecipeCapabilityBundle recipeId = some bundle)
    (item : RequestedCapability) (grant : Json) :
    grantRequested (bundle.filter fun e => roleAllowsCapability role e.capability e.scope) item =
        some grant ↔
      (∃ entry ∈ bundle, roleAllowsCapability role entry.capability entry.scope = true ∧
        entry.capability = item.capability ∧ scopeWithin entry.scope item.scope = true) ∧
      grant = capabilityJson item.capability item.scope item.requestedMaxPayloadBytes none := by
  have hjson : ∀ entry ∈ bundle, entry.capability = item.capability →
      capabilityJson item.capability item.scope item.requestedMaxPayloadBytes
        entry.maxPayloadBytes =
      capabilityJson item.capability item.scope item.requestedMaxPayloadBytes none := by
    intro entry hentry hcap
    rw [(bundle_ok hbundle entry hentry).limit, hcap, capabilityJson, cappedMax_hardMax,
      capabilityJson]
  unfold grantRequested
  rw [Option.map_eq_some_iff]
  constructor
  · intro h
    obtain ⟨entry, hfind, rfl⟩ := h
    have hmem := List.mem_of_find?_eq_some hfind
    have hprop := List.find?_some hfind
    simp only [Bool.and_eq_true, beq_iff_eq] at hprop
    rw [List.mem_filter] at hmem
    exact ⟨⟨entry, hmem.1, hmem.2, hprop.1, hprop.2⟩, hjson entry hmem.1 hprop.1⟩
  · intro h
    obtain ⟨⟨entry, hentry, hrole, hcap, hscope⟩, rfl⟩ := h
    have hsome : ((bundle.filter fun e => roleAllowsCapability role e.capability e.scope).find?
        fun e => e.capability == item.capability && scopeWithin e.scope item.scope).isSome := by
      rw [List.find?_isSome]
      exact ⟨entry, by simp [hentry, hrole], by simp [hcap, hscope]⟩
    obtain ⟨found, hfound⟩ := Option.isSome_iff_exists.mp hsome
    have hmem := List.mem_of_find?_eq_some hfound
    have hprop := List.find?_some hfound
    simp only [Bool.and_eq_true, beq_iff_eq] at hprop
    rw [List.mem_filter] at hmem
    exact ⟨found, hfound, hjson found hmem.1 hprop.1⟩

/-- Some item of the grant JSON covers the request. -/
def GrantsCover (items : List Json) (request : ActionRequest) : Prop :=
  ∃ item ∈ items, ∃ grant, parseCapabilityGrant item = some grant ∧ Covers grant request

/-- Some emitted grant covers the request. -/
def EmitsFor (recipeId : String) (role : RolePreset) (parsed : List RequestedCapability)
    (request : ActionRequest) : Prop :=
  ∃ scope limit, Emits recipeId role parsed request.actionType scope limit ∧
    scopeMatches scope request.scope = true ∧ request.payloadBytes ≤ limit

section Resolved

variable {recipeId : String} {role : RolePreset} {parsed : List RequestedCapability}
  {bundle : List BundleCapability} {request : ActionRequest}

theorem grantsCover_unbundled (hcanonical : ∀ item ∈ parsed, IsCanonical item.capability)
    (hnone : resolveRecipeCapabilityBundle recipeId = none) :
    GrantsCover ((parsed.filter fun item => roleAllowsCapability role item.capability item.scope).map
        fun item => capabilityJson item.capability item.scope item.requestedMaxPayloadBytes none)
      request ↔ EmitsFor recipeId role parsed request := by
  unfold GrantsCover
  simp only [List.mem_map, List.mem_filter, exists_exists_and_eq_and]
  constructor
  · intro h
    obtain ⟨item, ⟨hitem, hrole⟩, hcovers⟩ := h
    obtain ⟨htype, hrest⟩ := (covers_capabilityJson (hcanonical item hitem) request).mp hcovers
    exact ⟨item.scope, _, htype ▸ .unbundled hnone hitem hrole, hrest⟩
  · intro h
    obtain ⟨scope, limit, hemits, hscope, hlimit⟩ := h
    obtain ⟨request, _, _⟩ := request
    cases hemits with
    | @unbundled item _ hitem hrole =>
      exact ⟨item, ⟨hitem, hrole⟩,
        (covers_capabilityJson (hcanonical item hitem) _).mpr ⟨rfl, hscope, hlimit⟩⟩
    | defaults hb => rw [hnone] at hb; cases hb
    | intersected hb => rw [hnone] at hb; cases hb

theorem grantsCover_defaults (hbundle : resolveRecipeCapabilityBundle recipeId = some bundle)
    (hempty : parsed = []) :
    GrantsCover ((bundle.filter fun item => roleAllowsCapability role item.capability item.scope).map
        fun item => capabilityJson item.capability item.scope none item.maxPayloadBytes)
      request ↔ EmitsFor recipeId role parsed request := by
  unfold GrantsCover
  simp only [List.mem_map, List.mem_filter, exists_exists_and_eq_and]
  constructor
  · intro h
    obtain ⟨entry, ⟨hentry, hrole⟩, hcovers⟩ := h
    have hok := bundle_ok hbundle entry hentry
    obtain ⟨htype, hscope, hlimit⟩ := (covers_capabilityJson hok.canonical request).mp hcovers
    rw [hok.limit, cappedMax_hardMax] at hlimit
    exact ⟨entry.scope, _, htype ▸ .defaults hbundle hempty hentry hrole, hscope, hlimit⟩
  · intro h
    obtain ⟨scope, limit, hemits, hscope, hlimit⟩ := h
    obtain ⟨request, _, _⟩ := request
    cases hemits with
    | unbundled hb => rw [hbundle] at hb; cases hb
    | @defaults bundle' entry hb _ hentry hrole =>
      rw [hbundle, Option.some.injEq] at hb
      subst hb
      have hok := bundle_ok hbundle entry hentry
      refine ⟨entry, ⟨hentry, hrole⟩, (covers_capabilityJson hok.canonical _).mpr
        ⟨rfl, hscope, ?_⟩⟩
      rw [hok.limit, cappedMax_hardMax]
      exact hlimit
    | intersected _ _ _ hitem =>
      rw [hempty] at hitem
      cases hitem

theorem grantsCover_intersected (hcanonical : ∀ item ∈ parsed, IsCanonical item.capability)
    (hbundle : resolveRecipeCapabilityBundle recipeId = some bundle) (hne : parsed ≠ []) :
    GrantsCover (parsed.filterMap (grantRequested
        (bundle.filter fun item => roleAllowsCapability role item.capability item.scope)))
      request ↔ EmitsFor recipeId role parsed request := by
  unfold GrantsCover
  simp only [List.mem_filterMap]
  constructor
  · intro h
    obtain ⟨grant, ⟨item, hitem, hgrant⟩, hcovers⟩ := h
    obtain ⟨⟨entry, hentry, hrole, hcap, hwithin⟩, rfl⟩ :=
      (grantRequested_eq_some hbundle item grant).mp hgrant
    obtain ⟨htype, hrest⟩ := (covers_capabilityJson (hcanonical item hitem) request).mp hcovers
    exact ⟨item.scope, _, htype ▸ .intersected hbundle hentry hrole hitem hcap hwithin, hrest⟩
  · intro h
    obtain ⟨scope, limit, hemits, hscope, hlimit⟩ := h
    obtain ⟨request, _, _⟩ := request
    cases hemits with
    | unbundled hb => rw [hbundle] at hb; cases hb
    | defaults _ hnil => exact absurd hnil hne
    | @intersected bundle' entry item hb hentry hrole hitem hcap hwithin =>
      rw [hbundle, Option.some.injEq] at hb
      subst hb
      exact ⟨_, ⟨item, hitem, (grantRequested_eq_some hbundle item _).mpr
        ⟨⟨entry, hentry, hrole, hcap, hwithin⟩, rfl⟩⟩,
        (covers_capabilityJson (hcanonical item hitem) _).mpr ⟨rfl, hscope, hlimit⟩⟩

theorem canonical_of_parsed {requested : Json}
    (hparse : parseRequestedCapabilities requested = .ok parsed) :
    ∀ item ∈ parsed, IsCanonical item.capability := by
  intro item hitem
  unfold parseRequestedCapabilities at hparse
  split at hparse
  · cases hparse
  · obtain ⟨source, -, hfrom⟩ := parseRequestedItems_mem hparse item hitem
    exact hfrom.canonical

end Resolved

/-- The grant JSON of a parsed request holds exactly the emitted grants. -/
theorem grantsCover_resolved (recipeId : String) (role : RolePreset) {requested : Json}
    {parsed : List RequestedCapability} (hparse : parseRequestedCapabilities requested = .ok parsed) :
    ∃ items, resolveGrantedCapabilities recipeId role requested = .ok (.arr items) ∧
      ∀ request, GrantsCover items request ↔ EmitsFor recipeId role parsed request := by
  have hcanonical := canonical_of_parsed hparse
  unfold resolveGrantedCapabilities
  rw [hparse]
  dsimp only
  cases hbundle : resolveRecipeCapabilityBundle recipeId with
  | none => exact ⟨_, rfl, fun request => grantsCover_unbundled hcanonical hbundle⟩
  | some bundle =>
    dsimp only
    by_cases hempty : parsed = []
    · rw [if_pos (by simp [hempty])]
      exact ⟨_, rfl, fun request => grantsCover_defaults hbundle hempty⟩
    · rw [if_neg (by simpa using hempty)]
      exact ⟨_, rfl, fun request => grantsCover_intersected hcanonical hbundle hempty⟩

theorem mayDo_iff {recipeId : String} {role : RolePreset} {requested : Json}
    {request : ActionRequest} :
    MayDo recipeId role requested request ↔
      ∃ parsed, parseRequestedCapabilities requested = .ok parsed ∧
        ∃ scope limit, Emits recipeId role parsed request.actionType scope limit ∧
          scopeMatches scope request.scope = true ∧ request.payloadBytes ≤ limit := by
  cases hparse : parseRequestedCapabilities requested with
  | error e => simp [MayDo, resolveGrantedCapabilities, hparse]
  | ok parsed =>
    obtain ⟨items, hresolve, hitems⟩ := grantsCover_resolved recipeId role hparse
    simp only [MayDo, hresolve, Except.ok.injEq, exists_eq_left', isActionAllowed_parseGrantSet]
    exact hitems request

/-! ## Containment -/

/-- What role, recipe and platform each permit of an allowed action. -/
structure Contained (recipeId : String) (role : RolePreset) (request : ActionRequest) : Prop where
  role : roleAllowsCapability role request.actionType request.scope = true
  bundle : ∀ bundle, resolveRecipeCapabilityBundle recipeId = some bundle →
    ∃ entry ∈ bundle, entry.capability = request.actionType ∧
      scopeWithin entry.scope request.scope = true ∧
      ∀ limit, entry.maxPayloadBytes = some limit → request.payloadBytes ≤ limit
  hardMax : request.payloadBytes ≤ resolveMaxPayloadBytes request.actionType none

/-- A requested entry names the capability of `request` and covers its scope. -/
def EntryNames (item : Json) (request : ActionRequest) : Prop :=
  (∃ raw, (item.get? "capability").bind Json.asStr? = some raw ∧
      normalizeCapability raw = some request.actionType) ∧
    ∃ scope, ((item.get? "scope").bind Json.asStr?).map Text.trim = some scope ∧
      scopeMatches scope request.scope = true

/-- Some requested entry covers `request`, where `stated` reads the limit an
entry states. -/
def RequestCovers (stated : Json → Option Nat) (items : List Json) (request : ActionRequest) :
    Prop :=
  ∃ item ∈ items, EntryNames item request ∧
    ∀ limit, stated item = some limit → request.payloadBytes ≤ limit

/-- A limit of zero counts as none stated. -/
def positiveLimit (item : Json) : Option Nat := (requestedLimit item).filter (0 < ·)

/-- The entry is neither malformed nor skipped. -/
def Recognised (item : Json) : Prop := ∃ parsed, parseRequestedCapability item = .ok (some parsed)

theorem roleAllowsCapability_of_scopeMatches {role : RolePreset} {capability pattern scope : String}
    (hrole : roleAllowsCapability role capability pattern = true)
    (hmatch : scopeMatches pattern scope = true) :
    roleAllowsCapability role capability scope = true := by
  cases role with
  | owner => rfl
  | operator => exact hrole
  | viewer =>
    simp only [roleAllowsCapability, Bool.or_eq_true, Bool.and_eq_true] at hrole ⊢
    refine hrole.imp_right fun ⟨hllm, hlocal⟩ => ⟨hllm, ?_⟩
    exact startsWith_of_scopeMatches (by unfold PlainStem; decide) hlocal hmatch

/-- The presets are ordered: viewer, operator, owner. -/
theorem roleAllowsCapability_operator_of_viewer {capability scope : String}
    (h : roleAllowsCapability .viewer capability scope = true) :
    roleAllowsCapability .operator capability scope = true := by
  simp only [roleAllowsCapability, Bool.or_eq_true, Bool.and_eq_true, beq_iff_eq] at h
  rcases h with rfl | ⟨rfl, -⟩ <;> rfl

theorem Emits.mono {recipeId : String} {role role' : RolePreset}
    {parsed : List RequestedCapability} {capability scope : String} {limit : Nat}
    (hrole : ∀ capability scope, roleAllowsCapability role capability scope = true →
      roleAllowsCapability role' capability scope = true)
    (h : Emits recipeId role parsed capability scope limit) :
    Emits recipeId role' parsed capability scope limit := by
  cases h with
  | unbundled hnone hitem hallows => exact .unbundled hnone hitem (hrole _ _ hallows)
  | defaults hbundle hempty hentry hallows =>
    exact .defaults hbundle hempty hentry (hrole _ _ hallows)
  | intersected hbundle hentry hallows hitem hcap hscope =>
    exact .intersected hbundle hentry (hrole _ _ hallows) hitem hcap hscope

theorem MayDo.mono {recipeId : String} {role role' : RolePreset} {requested : Json}
    {request : ActionRequest}
    (hrole : ∀ capability scope, roleAllowsCapability role capability scope = true →
      roleAllowsCapability role' capability scope = true)
    (h : MayDo recipeId role requested request) : MayDo recipeId role' requested request := by
  obtain ⟨parsed, hparse, scope, limit, hemits, hrest⟩ := mayDo_iff.mp h
  exact mayDo_iff.mpr ⟨parsed, hparse, scope, limit, hemits.mono hrole, hrest⟩

/-- A bundle entry that covers the request's scope covers its payload, because
every emitted limit is below the platform limit and that is the entry's. -/
theorem bundleEntry_covers {recipeId : String} {bundle : List BundleCapability}
    {entry : BundleCapability} {request : ActionRequest}
    (hbundle : resolveRecipeCapabilityBundle recipeId = some bundle) (hentry : entry ∈ bundle)
    (hcap : entry.capability = request.actionType)
    (hscope : scopeMatches entry.scope request.scope = true)
    (hpayload : request.payloadBytes ≤ resolveMaxPayloadBytes request.actionType none) :
    ∀ bundle', resolveRecipeCapabilityBundle recipeId = some bundle' →
      ∃ entry ∈ bundle', entry.capability = request.actionType ∧
        scopeWithin entry.scope request.scope = true ∧
        ∀ limit, entry.maxPayloadBytes = some limit → request.payloadBytes ≤ limit := by
  intro bundle' hbundle'
  rw [hbundle, Option.some.injEq] at hbundle'
  subst hbundle'
  refine ⟨entry, hentry, hcap, hscope, fun limit hlimit => ?_⟩
  rw [(bundle_ok hbundle entry hentry).limit, hcap, Option.some.injEq] at hlimit
  exact hlimit ▸ hpayload

theorem Emits.contained {recipeId : String} {role : RolePreset}
    {parsed : List RequestedCapability} {request : ActionRequest} {scope : String} {limit : Nat}
    (h : Emits recipeId role parsed request.actionType scope limit)
    (hscope : scopeMatches scope request.scope = true) (hlimit : request.payloadBytes ≤ limit) :
    Contained recipeId role request := by
  obtain ⟨actionType, requestScope, payload⟩ := request
  dsimp only at *
  cases h with
  | unbundled hnone _ hrole =>
    refine ⟨roleAllowsCapability_of_scopeMatches hrole hscope, fun bundle hbundle => ?_,
      Nat.le_trans hlimit (cappedMax_le_hardMax _ _ _)⟩
    rw [hnone] at hbundle
    cases hbundle
  | defaults hbundle _ hentry hrole =>
    have hhard := Nat.le_trans hlimit (cappedMax_le_hardMax _ _ _)
    exact ⟨roleAllowsCapability_of_scopeMatches hrole hscope,
      bundleEntry_covers hbundle hentry rfl hscope hhard, hhard⟩
  | intersected hbundle hentry hrole _ hcap hwithin =>
    have hhard := Nat.le_trans hlimit (cappedMax_le_hardMax _ _ _)
    have hentryScope := scopeMatches_trans (bundle_ok hbundle _ hentry).plain hwithin hscope
    exact ⟨hcap ▸ roleAllowsCapability_of_scopeMatches hrole hentryScope,
      bundleEntry_covers hbundle hentry hcap hentryScope hhard, hhard⟩

/-- A parsed entry that emitted the covering grant covers the request itself. -/
theorem ParsedFrom.covers {items : List Json} {item : Json} {parsed : RequestedCapability}
    {request : ActionRequest} {bundleMax : Option Nat} (hfrom : ParsedFrom item parsed)
    (hitem : item ∈ items) (hcap : parsed.capability = request.actionType)
    (hscope : scopeMatches parsed.scope request.scope = true)
    (hlimit : request.payloadBytes ≤
      cappedMax parsed.capability parsed.requestedMaxPayloadBytes bundleMax) :
    RequestCovers positiveLimit items request := by
  obtain ⟨raw, hraw, hnorm⟩ := hfrom.capability
  refine ⟨item, hitem, ⟨⟨raw, hraw, hcap ▸ hnorm⟩, parsed.scope, hfrom.scope, hscope⟩, ?_⟩
  intro limit hstated
  rw [positiveLimit, ← hfrom.limit, Option.filter_eq_some_iff] at hstated
  obtain ⟨hsome, hpos⟩ := hstated
  rw [hsome] at hlimit
  exact Nat.le_trans hlimit (cappedMax_le_requested _ (by simpa using hpos) _)

theorem recognised_of_parsed {items : List Json} {item : Json} {parsed : List RequestedCapability}
    (hparse : parseRequestedItems items = .ok parsed) (hitem : item ∈ items)
    (hrecognised : Recognised item) : parsed ≠ [] := by
  obtain ⟨entry, hentry⟩ := hrecognised
  induction items generalizing parsed with
  | nil => cases hitem
  | cons head rest ih =>
    rw [parseRequestedItems] at hparse
    split at hparse
    · cases hparse
    rename_i first hfirst
    split at hparse
    · cases hparse
    rename_i tail htail
    cases hparse
    rcases List.mem_cons.mp hitem with rfl | hin
    · rw [hentry, Except.ok.injEq] at hfirst
      subst hfirst
      simp
    · simp [ih htail hin]

theorem requestCovers_of_emits {recipeId : String} {role : RolePreset} {items : List Json}
    {parsed : List RequestedCapability} {request : ActionRequest} {scope : String} {limit : Nat}
    (hparse : parseRequestedItems items = .ok parsed)
    (hnamed : resolveRecipeCapabilityBundle recipeId = none ∨ ∃ item ∈ items, Recognised item)
    (h : Emits recipeId role parsed request.actionType scope limit)
    (hscope : scopeMatches scope request.scope = true) (hlimit : request.payloadBytes ≤ limit) :
    RequestCovers positiveLimit items request := by
  obtain ⟨actionType, requestScope, payload⟩ := request
  dsimp only at *
  cases h with
  | unbundled _ hentry _ =>
    obtain ⟨item, hitem, hfrom⟩ := parseRequestedItems_mem hparse _ hentry
    exact hfrom.covers hitem rfl hscope hlimit
  | defaults hbundle hempty =>
    rcases hnamed with hnone | ⟨item, hitem, hrecognised⟩
    · rw [hbundle] at hnone
      cases hnone
    · exact absurd hempty (recognised_of_parsed hparse hitem hrecognised)
  | intersected _ _ _ hentry =>
    obtain ⟨item, hitem, hfrom⟩ := parseRequestedItems_mem hparse _ hentry
    exact hfrom.covers hitem rfl hscope hlimit

/-- Grant containment.  An action the worker allows is permitted by the role,
by a bundle entry of the recipe and by the platform limit.  When the recipe has
no bundle or some requested entry is recognised, a requested entry names its
capability, covers its scope and, where it states a positive limit, its
payload.  The presets are ordered. -/
theorem grant_containment (recipeId : String) (requested : Json) :
    (∀ role request, MayDo recipeId role requested request →
      Contained recipeId role request ∧
        ∀ items, requested.asArray? = some items →
          (resolveRecipeCapabilityBundle recipeId = none ∨ ∃ item ∈ items, Recognised item) →
          RequestCovers positiveLimit items request) ∧
    (∀ request, MayDo recipeId .viewer requested request →
      MayDo recipeId .operator requested request) ∧
    (∀ request, MayDo recipeId .operator requested request →
      MayDo recipeId .owner requested request) := by
  refine ⟨fun role request h => ?_, fun request h => ?_, fun request h => ?_⟩
  · obtain ⟨parsed, hparse, scope, limit, hemits, hscope, hlimit⟩ := mayDo_iff.mp h
    refine ⟨hemits.contained hscope hlimit, fun items hitems hnamed => ?_⟩
    rw [parseRequestedCapabilities, hitems] at hparse
    exact requestCovers_of_emits hparse hnamed hemits hscope hlimit
  · exact h.mono fun _ _ => roleAllowsCapability_operator_of_viewer
  · exact h.mono fun _ _ _ => rfl

/-- A request for local inference of at most 100 bytes. -/
def localInferRequest : Json :=
  .arr [.obj
    [("capability", .str "llm.infer"),
     ("scope", .str "local:qwen*"),
     ("limits", .obj [("max_payload_bytes", .nat 100)])]]

theorem grant_containment_localInfer :
    Contained "llm_local_v1" .viewer ⟨"llm.infer", "local:qwen2.5", 100⟩ ∧
      MayDo "llm_local_v1" .owner localInferRequest ⟨"llm.infer", "local:qwen2.5", 100⟩ := by
  have hviewer : MayDo "llm_local_v1" .viewer localInferRequest
      ⟨"llm.infer", "local:qwen2.5", 100⟩ := ⟨_, rfl, by decide⟩
  obtain ⟨hcontained, hoperator, howner⟩ := grant_containment "llm_local_v1" localInferRequest
  exact ⟨(hcontained .viewer _ hviewer).1, howner _ (hoperator _ hviewer)⟩

/-- The containment property with every requested array that has an entry, and
every stated limit, taken at its word. -/
def StrictContainment (recipeId : String) (role : RolePreset) (requested : Json) : Prop :=
  ∀ request, MayDo recipeId role requested request →
    Contained recipeId role request ∧
      ∀ items, requested.asArray? = some items → items ≠ [] →
        RequestCovers requestedLimit items request

/-- An entry that states a limit of zero. -/
def zeroLimitRequest : Json :=
  .arr [.obj
    [("capability", .str "llm.infer"),
     ("scope", .str "local:*"),
     ("limits", .obj [("max_payload_bytes", .nat 0)])]]

/-- An array whose one entry is skipped. -/
def skippedRequest : Json :=
  .arr [.obj [("capability", .str "http.request"), ("scope", .str "api.github.com")]]

/-- A stated limit of zero is granted the platform limit, and an array whose
entries are all skipped is granted the whole bundle. -/
theorem not_strictContainment :
    ¬ StrictContainment "llm_local_v1" .owner zeroLimitRequest ∧
      ¬ StrictContainment "llm_local_v1" .owner skippedRequest := by
  refine ⟨fun h => ?_, fun h => ?_⟩
  · have hdo : MayDo "llm_local_v1" .owner zeroLimitRequest ⟨"llm.infer", "local:m", 1⟩ :=
      ⟨_, rfl, by decide⟩
    obtain ⟨item, hitem, -, hlimit⟩ := (h _ hdo).2 _ rfl (by simp)
    rw [List.mem_singleton] at hitem
    exact absurd (hlimit 0 (by rw [hitem]; rfl)) (by decide)
  · have hdo : MayDo "llm_local_v1" .owner skippedRequest ⟨"llm.infer", "local:m", 1⟩ :=
      ⟨_, rfl, by decide⟩
    obtain ⟨item, hitem, ⟨⟨raw, hraw, hnorm⟩, -⟩, -⟩ := (h _ hdo).2 _ rfl (by simp)
    rw [List.mem_singleton] at hitem
    have hname : some "http.request" = some raw := by
      rw [hitem] at hraw
      exact hraw
    rw [← Option.some.inj hname] at hnorm
    exact absurd hnorm (by decide)

end Policy
end SecureAgnt

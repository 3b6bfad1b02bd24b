/-
Route, endpoint and model selection, the policy scope of an action and the
remote egress guard.  All of it is pure.
-/
import SecureAgnt.Llm.Prompt

namespace SecureAgnt
namespace Llm

structure RouteDecision where
  route : LlmRoute
  reasonCode : String
  deriving DecidableEq, Repr

structure RouteEndpointSelection where
  endpoint : LlmEndpointConfig
  localTierRequested : Option LlmLocalTier
  localTierSelected : Option LlmLocalTier
  localTierReasonCode : Option String
  deriving DecidableEq, Repr

def selectRouteWithReason (config : LlmConfig) (prefer : Option LlmRoute) :
    Except String RouteDecision :=
  let localAvailable := config.localEndpoint.isSome
  let remoteAvailable := config.remote.isSome
  match config.mode with
  | .localOnly =>
    if !localAvailable then .error "LLM_MODE=local_only but local model is not configured"
    else if prefer = some .remote then
      .error "llm.infer prefer=remote is not allowed when LLM_MODE=local_only"
    else .ok ⟨.local, "mode_local_only"⟩
  | .remoteOnly =>
    if !remoteAvailable then .error "LLM_MODE=remote_only but remote model is not configured"
    else if prefer = some .local then
      .error "llm.infer prefer=local is not allowed when LLM_MODE=remote_only"
    else .ok ⟨.remote, "mode_remote_only"⟩
  | .localFirst =>
    if prefer = some .remote && remoteAvailable then .ok ⟨.remote, "prefer_remote_local_first"⟩
    else if localAvailable then .ok ⟨.local, "local_first_default_local"⟩
    else if remoteAvailable then .ok ⟨.remote, "local_unavailable_remote_fallback"⟩
    else .error "no LLM endpoint is configured (set local and/or remote endpoint env vars)"

def resolveDefaultLocalTier (requestClass : LlmRequestClass) (config : LlmConfig) : LlmLocalTier :=
  match requestClass with
  | .interactive => config.localInteractiveTier
  | .batch => config.localBatchTier

def selectModelForRoute (route : LlmRoute) (localTier : Option LlmLocalTier)
    (requestedModel : Option String) (config : LlmConfig) (defaultModel : String) :
    Except String String :=
  let allowedModels :=
    match route with
    | .local =>
      match localTier with
      | some .small => config.localSmallModels
      | _ => config.localModels
    | .remote => config.remoteModels
  match requestedModel.bind Text.nonEmptyTrimmed with
  | some raw =>
    if allowedModels.isEmpty && defaultModel == raw then .ok raw
    else if allowedModels.contains raw then .ok raw
    else .error ("llm.infer args.model `" ++ raw ++ "` is not permitted for route `" ++
      route.asStr ++ "`")
  | none =>
    match allowedModels.head? with
    | some model => .ok model
    | none =>
      if !Text.isEmpty defaultModel then .ok defaultModel
      else .error ("no model configured for route `" ++ route.asStr ++
        "` and no fallback model exists")

/-- The tier a local request gets and the endpoint serving it. -/
def selectLocalTier (config : LlmConfig) (requested : LlmLocalTier) :
    Except String (LlmLocalTier × LlmEndpointConfig × String) :=
  match requested, config.localEndpoint, config.localSmall with
  | .small, _, some endpoint => .ok (.small, endpoint, "local_tier_small")
  | .small, some endpoint, none =>
    .ok (.workhorse, endpoint, "local_tier_small_fallback_workhorse")
  | .workhorse, some endpoint, _ => .ok (.workhorse, endpoint, "local_tier_workhorse")
  | .workhorse, none, some endpoint => .ok (.small, endpoint, "local_tier_workhorse_fallback_small")
  | _, none, none => .error "local route selected but no local endpoint is configured"

def overrideModel (allowModelOverride : Bool) (route : LlmRoute) (localTier : Option LlmLocalTier)
    (promptPlan : LlmPromptPlan) (config : LlmConfig) (endpoint : LlmEndpointConfig) :
    Except String LlmEndpointConfig :=
  if allowModelOverride then
    match selectModelForRoute route localTier promptPlan.model config endpoint.model with
    | .error e => .error e
    | .ok model => .ok { endpoint with model := model }
  else .ok endpoint

def selectEndpointForRoute (config : LlmConfig) (route : LlmRoute) (promptPlan : LlmPromptPlan)
    (allowModelOverride : Bool) : Except String RouteEndpointSelection :=
  match route with
  | .local =>
    let requested := promptPlan.localTier.getD
      (resolveDefaultLocalTier promptPlan.requestClass config)
    match selectLocalTier config requested with
    | .error e => .error e
    | .ok (selectedTier, endpoint, reasonCode) =>
      match overrideModel allowModelOverride .local (some selectedTier) promptPlan config
          endpoint with
      | .error e => .error e
      | .ok endpoint => .ok ⟨endpoint, some requested, some selectedTier, some reasonCode⟩
  | .remote =>
    match config.remote with
    | none => .error "remote route selected but remote endpoint is not configured"
    | some endpoint =>
      match overrideModel allowModelOverride .remote none promptPlan config endpoint with
      | .error e => .error e
      | .ok endpoint => .ok ⟨endpoint, none, none, none⟩

/-- The scope string of a route and model, as grants write it. -/
def scopeString (route : LlmRoute) (model : String) : String := route.asStr ++ ":" ++ model

/-- Everything an action resolves to before anything is sent. -/
structure Prepared where
  parsed : LlmInferActionArgs
  plan : LlmPromptPlan
  decision : RouteDecision
  selection : RouteEndpointSelection

def prepare (rt : LlmRuntime) (args : Json) (config : LlmConfig) : Except String Prepared :=
  match parseActionArgs args config.maxInputBytes with
  | .error e => .error e
  | .ok parsed =>
    match buildPromptPlan rt parsed config with
    | .error e => .error e
    | .ok plan =>
      match selectRouteWithReason config plan.prefer with
      | .error e => .error e
      | .ok decision =>
        match selectEndpointForRoute config decision.route plan true with
        | .error e => .error e
        | .ok selection => .ok ⟨parsed, plan, decision, selection⟩

def policyScopeForAction (rt : LlmRuntime) (args : Json) (config : LlmConfig) :
    Except String String :=
  (prepare rt args config).map fun prepared =>
    scopeString prepared.decision.route prepared.selection.endpoint.model

/-! ## Remote egress -/

def enforceRemoteEgressPolicy (rt : LlmRuntime) (route : LlmRoute) (endpoint : LlmEndpointConfig)
    (config : LlmConfig) (args : LlmInferActionArgs) : Except String (Option String) :=
  if route ≠ .remote then .ok none
  else if config.remoteEgressClass = .neverLeavesPrem then
    .error "llm.infer remote route blocked: LLM_REMOTE_EGRESS_CLASS=never_leaves_prem"
  else if config.remoteEgressClass = .redactedOnly && !args.redacted then
    .error ("llm.infer remote route blocked: LLM_REMOTE_EGRESS_CLASS=redacted_only requires " ++
      "args.redacted=true")
  else if !config.remoteEgressEnabled then
    .error "llm.infer remote route blocked: LLM_REMOTE_EGRESS_ENABLED is not enabled"
  else if config.remoteHostAllowlist.isEmpty then
    .error "llm.infer remote route blocked: LLM_REMOTE_HOST_ALLOWLIST is empty"
  else
    match rt.urlHost endpoint.baseUrl with
    | .error _ => .error ("invalid remote base URL `" ++ endpoint.baseUrl ++ "`")
    | .ok none => .error ("remote base URL missing host: " ++ endpoint.baseUrl)
    | .ok (some host) =>
      if config.remoteHostAllowlist.any fun allowed => Text.eqIgnoreAsciiCase allowed host then
        .ok (some host)
      else .error ("llm.infer remote host `" ++ host ++ "` is not allowlisted")

/-- The URL a chat request is posted to. -/
def chatUrl (endpoint : LlmEndpointConfig) : String :=
  Text.trimEndChar endpoint.baseUrl '/' ++ "/chat/completions"

/-- Remote egress is open for `host`: the class admits the action's arguments,
the switch is on and the host is on the allowlist. -/
structure EgressOpen (config : LlmConfig) (redacted : Bool) (host : String) : Prop where
  onPrem : config.remoteEgressClass ≠ .neverLeavesPrem
  redacted : config.remoteEgressClass = .redactedOnly → redacted = true
  enabled : config.remoteEgressEnabled = true
  allowlisted : ∃ allowed ∈ config.remoteHostAllowlist, Text.eqIgnoreAsciiCase allowed host = true

theorem enforceRemoteEgressPolicy_local (rt : LlmRuntime) (endpoint : LlmEndpointConfig)
    (config : LlmConfig) (args : LlmInferActionArgs) :
    enforceRemoteEgressPolicy rt .local endpoint config args = .ok none := rfl

/-- The guard passes the remote route exactly for a host egress is open for. -/
theorem enforceRemoteEgressPolicy_remote {rt : LlmRuntime} {endpoint : LlmEndpointConfig}
    {config : LlmConfig} {args : LlmInferActionArgs} {passed : Option String} :
    enforceRemoteEgressPolicy rt .remote endpoint config args = .ok passed ↔
      ∃ host, passed = some host ∧ rt.urlHost endpoint.baseUrl = .ok (some host) ∧
        EgressOpen config args.redacted host := by
  unfold enforceRemoteEgressPolicy
  rw [if_neg (by simp)]
  constructor
  · intro h
    split at h
    · cases h
    rename_i honPrem
    split at h
    · cases h
    rename_i hredacted
    split at h
    · cases h
    rename_i henabled
    split at h
    · cases h
    split at h
    · cases h
    · cases h
    rename_i host hhost
    split at h
    · rename_i hany
      cases h
      refine ⟨host, rfl, hhost, honPrem, fun hclass => ?_, by simpa using henabled,
        by simpa using hany⟩
      simpa [hclass] using hredacted
    · cases h
  · intro hx
    obtain ⟨host, rfl, hhost, honPrem, hredacted, henabled, allowed, hallowed, heq⟩ := hx
    have hne : config.remoteHostAllowlist.isEmpty = false := by
      rw [List.isEmpty_eq_false_iff]
      exact List.ne_nil_of_mem hallowed
    have hblocked : ¬ ((decide (config.remoteEgressClass = .redactedOnly) && !args.redacted) =
        true) := by
      simp only [Bool.and_eq_true, decide_eq_true_eq, Bool.not_eq_true']
      intro hx
      obtain ⟨hclass, hnot⟩ := hx
      rw [hredacted hclass] at hnot
      cases hnot
    rw [if_neg honPrem, if_neg hblocked, if_neg (by simp [henabled]), if_neg (by simp [hne]), hhost]
    exact if_pos (List.any_eq_true.mpr ⟨allowed, hallowed, heq⟩)

end Llm
end SecureAgnt

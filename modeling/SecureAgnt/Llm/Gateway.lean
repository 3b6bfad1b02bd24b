/-
The gateway as a program over its environment: admission, the response caches,
the chat endpoints, the verifier judge and the clock.

`executeLlmInfer` follows the source stage by stage.  The stages share a
`Session`, what every one of them is passed, and the later ones rewrite a
`ControlState`, the mutable variables of `run_llm_with_controls`.
-/
import SecureAgnt.Lib.Prog
import SecureAgnt.Llm.Verifier

namespace SecureAgnt
namespace Llm

/-! ## Messages -/

structure ChatMessage where
  role : String
  content : String
  deriving DecidableEq, Repr

structure ChatCompletionRequest where
  model : String
  messages : List ChatMessage
  maxTokens : Option Nat
  temperature : Option JsonNumber
  deriving DecidableEq, Repr

structure Usage where
  promptTokens : Option UInt32
  completionTokens : Option UInt32
  totalTokens : Option UInt32
  deriving DecidableEq, Repr

/-- A decoded chat answer; `choices` keeps the message contents. -/
structure ChatCompletionResponse where
  choices : List String
  usage : Option Usage
  deriving DecidableEq, Repr

structure CachedCompletion where
  responseText : String
  promptTokens : Option UInt32
  completionTokens : Option UInt32
  totalTokens : Option UInt32
  deriving DecidableEq, Repr

/-- Where a chat request can fail before it has an answer. -/
inductive HttpFailure where
  | build
  | send
  | status
  | decode
  deriving DecidableEq, Repr

/-- Which code path posts a chat request. -/
inductive Sender where
  | completion (route : LlmRoute)
  | judge
  deriving DecidableEq, Repr

/-! ## The environment -/

/-- A row of `llm_token_usage`; `created_at` is the database's. -/
structure NewLlmTokenUsageRecord where
  runId : String
  actionRequestId : String
  tenantId : String
  agentId : String
  route : LlmRoute
  modelKey : String
  consumedTokens : Int
  windowStartedAt : Int
  windowDurationSeconds : Int
  deriving DecidableEq, Repr

/-- Which rows of `llm_token_usage` a budget sums. -/
inductive UsageScope where
  | tenant (tenantId : String)
  | agent (tenantId agentId : String)
  | model (tenantId modelKey : String)
  deriving DecidableEq, Repr

/-- The calls of an `llm.infer` action: those of the gateway, and those of the
worker around it for the clock and the token ledger.  A `post` is one call of a client
that follows redirects; its answer is the last server's. -/
inductive LlmOp where
  | now
  | sumConsumedTokens (scope : UsageScope) (since : Int)
  | createUsage (record : NewLlmTokenUsageRecord)
  | acquireLease (cacheNamespace lane : String) (maxInflight : Nat) (owner : String)
      (leaseMs : Nat)
  | reserveSlot (requestClass : LlmRequestClass) (maxInflight : Nat)
  | getCacheEntry (cacheNamespace cacheKey : String)
  | upsertCacheEntry (cacheNamespace cacheKey : String) (route : LlmRoute) (model : String)
      (completion : CachedCompletion) (ttlSecs : Nat)
  | pruneCache (cacheNamespace : String) (maxEntries : Nat)
  | cacheLookup (cacheKey : String) (ttlSecs : Nat)
  | cacheInsert (cacheKey : String) (completion : CachedCompletion) (maxEntries : Nat)
  | post (sender : Sender) (endpoint : LlmEndpointConfig) (request : ChatCompletionRequest)
      (timeoutMs : Nat)
  | mock (route : LlmRoute) (endpoint : LlmEndpointConfig) (request : ChatCompletionRequest)
  | elapsed
  deriving DecidableEq

/-- The answers.  A stored cache entry that is no completion decodes to `none`.
A `mock` call is computed by the gateway itself and has nothing to answer; it
marks the completion. -/
def LlmAns : LlmOp → Type
  | .now => Int
  | .sumConsumedTokens .. => Except String Int
  | .createUsage .. => Except String Unit
  | .acquireLease .. => Except String Bool
  | .reserveSlot .. => Bool
  | .getCacheEntry .. => Except String (Option (Option CachedCompletion))
  | .upsertCacheEntry .. => Unit
  | .pruneCache .. => Unit
  | .cacheLookup .. => Option CachedCompletion
  | .cacheInsert .. => Unit
  | .post .. => Except HttpFailure ChatCompletionResponse
  | .mock .. => Unit
  | .elapsed => Nat

abbrev LlmProg (α : Type) := Prog LlmOp LlmAns String α

open Prog (ofExcept)

def ask (op : LlmOp) : LlmProg (LlmAns op) := Prog.perform op

/-- What every stage of one call is passed: the configuration, the caller's
cache namespace, whether it has a database pool, the arguments and the plan. -/
structure Session where
  rt : LlmRuntime
  config : LlmConfig
  cacheNamespace : Option String
  pool : Bool
  parsed : LlmInferActionArgs
  plan : LlmPromptPlan

/-! ## Admission -/

def maxInflightOf (requestClass : LlmRequestClass) (config : LlmConfig) : Nat :=
  match requestClass with
  | .interactive => max config.admissionInteractiveMaxInflight 1
  | .batch => max config.admissionBatchMaxInflight 1

def admissionDenied (requestClass : LlmRequestClass) (config : LlmConfig) : String :=
  "llm.infer admission denied: request_class=" ++ requestClass.asStr ++
    " saturated (max_inflight=" ++ toString (maxInflightOf requestClass config) ++ ")"

def acquireLocalAdmission (parsed : LlmInferActionArgs) (config : LlmConfig) (status : String) :
    LlmProg String := do
  let reserved ← ask
    (.reserveSlot parsed.requestClass (maxInflightOf parsed.requestClass config))
  match (reserved : Bool) with
  | true => .pure status
  | false => .fail (admissionDenied parsed.requestClass config)

/-- The admission status; the slot is held by a guard that the modelled code
only drops. -/
def acquireAdmission (parsed : LlmInferActionArgs) (config : LlmConfig)
    (cacheNamespace : Option String) (pool : Bool) : LlmProg String :=
  if !config.admissionEnabled then .pure "disabled"
  else if config.distributedEnabled && config.distributedAdmissionEnabled then
    if pool then do
      let lease ← ask (.acquireLease (cacheNamespace.getD "global") parsed.requestClass.asStr
        (maxInflightOf parsed.requestClass config) config.distributedOwner
        config.distributedAdmissionLeaseMs)
      match (lease : Except String Bool) with
      | .ok true => .pure "distributed_admitted"
      | .ok false => .fail (admissionDenied parsed.requestClass config)
      | .error _ =>
        if !config.distributedFailOpen then
          .fail "llm.infer distributed admission backend failed"
        else acquireLocalAdmission parsed config "distributed_fail_open_local"
    else if !config.distributedFailOpen then
      .fail "llm.infer distributed admission is enabled but no database pool was provided"
    else acquireLocalAdmission parsed config "distributed_fail_open_local"
  else acquireLocalAdmission parsed config "admitted"

/-! ## One completion -/

def buildMessages (system : Option String) (prompt : String) : List ChatMessage :=
  (match system with
    | some system => [⟨"system", system⟩]
    | none => []) ++ [⟨"user", prompt⟩]

/-- `String::truncate`; cutting inside a character panics, which is `none`. -/
def truncateBytes (s : String) (maxBytes : Nat) : Option String :=
  if Text.len s ≤ maxBytes then some s
  else
    let kept := String.ofList (splitAtBytes maxBytes s.toList).1
    if Text.len kept = maxBytes then some kept else none

/-- `str::trim_start_matches("mock://")`: every leading copy goes. -/
def trimStartMock : Nat → List Char → List Char
  | 0, cs => cs
  | fuel + 1, cs =>
    if "mock://".toList.isPrefixOf cs then trimStartMock fuel (cs.drop 7) else cs

def tokensOfBytes (bytes : Nat) : UInt32 :=
  UInt32.ofNat (min ((max bytes 1 + 3) / 4) (2 ^ 32 - 1))

def mockChatCompletion (endpoint : LlmEndpointConfig) (messages : List ChatMessage)
    (parsed : LlmInferActionArgs) (config : LlmConfig) : Except String CachedCompletion :=
  let stripped := trimStartMock endpoint.baseUrl.toList.length endpoint.baseUrl.toList
  let label := Text.toAsciiLowercase
    (Text.trimChar (Text.trim (String.ofList stripped)) '/')
  let tierLabel := if Text.isEmpty label then "default" else label
  let userText := (messages.reverse.find? fun message => message.role == "user").map (·.content)
  let preview := Text.trim (userText.getD "")
  let preview := if Text.isEmpty preview then "no_prompt" else preview
  let full := "mock:" ++ tierLabel ++ ":" ++ endpoint.model ++ ": " ++ preview
  let mockMaxBytes := max (min (max (parsed.maxTokens.getD 512) 1 * 4) (2 ^ 64 - 1)) 16
  match (truncateBytes full mockMaxBytes).bind (truncateBytes · config.maxOutputBytes) with
  | none => .error "assertion failed: self.is_char_boundary(new_len)"
  | some cut =>
    let responseText := if Text.isEmpty cut then "mock:empty" else cut
    let promptTokens := tokensOfBytes (messages.map fun message => Text.len message.content).sum
    let completionTokens := tokensOfBytes (Text.len responseText)
    .ok { responseText := responseText
          promptTokens := some promptTokens
          completionTokens := some completionTokens
          totalTokens := some (UInt32.ofNat
            (min (promptTokens.toNat + completionTokens.toNat) (2 ^ 32 - 1))) }

def completionFailure (route : LlmRoute) : HttpFailure → String
  | .build => "failed building LLM HTTP client"
  | .send => "llm.infer request failed for route " ++ route.asStr
  | .status => "llm.infer endpoint returned error for " ++ route.asStr
  | .decode => "failed decoding llm.infer response JSON"

def completionOfPayload (config : LlmConfig) (payload : ChatCompletionResponse) :
    Except String CachedCompletion :=
  match payload.choices with
  | [] => .error "llm.infer response missing choices[0].message.content"
  | text :: _ =>
    if Text.len text > config.maxOutputBytes then
      .error ("llm.infer output exceeded " ++ toString config.maxOutputBytes ++ " bytes")
    else .ok
      { responseText := text
        promptTokens := payload.usage.bind (·.promptTokens)
        completionTokens := payload.usage.bind (·.completionTokens)
        totalTokens := payload.usage.bind (·.totalTokens) }

def isMockEndpoint (endpoint : LlmEndpointConfig) : Bool :=
  Text.startsWith endpoint.baseUrl "mock://"

def completionRequest (endpoint : LlmEndpointConfig) (messages : List ChatMessage)
    (parsed : LlmInferActionArgs) : ChatCompletionRequest :=
  { model := endpoint.model, messages := messages, maxTokens := parsed.maxTokens,
    temperature := parsed.temperature }

def requestChatCompletion (s : Session) (route : LlmRoute) (endpoint : LlmEndpointConfig)
    (messages : List ChatMessage) : LlmProg CachedCompletion :=
  let request := completionRequest endpoint messages s.parsed
  if isMockEndpoint endpoint then do
    let _ ← ask (.mock route endpoint request)
    ofExcept (mockChatCompletion endpoint messages s.parsed s.config)
  else do
    let answer ← ask (.post (.completion route) endpoint request s.config.timeoutMs)
    match (answer : Except HttpFailure ChatCompletionResponse) with
    | .error failure => .fail (completionFailure route failure)
    | .ok payload => ofExcept (completionOfPayload s.config payload)

/-- A completion with the cache's report and the remote host it passed the
egress guard for. -/
structure RouteCompletion where
  completion : CachedCompletion
  cacheStatus : String
  cacheKeySha256 : Option String
  remoteHost : Option String
  deriving DecidableEq, Repr

def computeCacheKey (rt : LlmRuntime) (cacheNamespace : String) (route : LlmRoute)
    (model : String) (messages : List ChatMessage) (maxTokens : Option Nat)
    (temperature : Option JsonNumber) : String :=
  rt.sha256Hex (cacheNamespace ++ "|" ++ route.asStr ++ "|" ++ model ++ "|" ++
    String.join (messages.map fun msg => msg.role ++ ":" ++ msg.content ++ "|") ++
    toString (maxTokens.getD 0) ++ "|" ++ (temperature.map rt.formatTemperature).getD "")

def usesDistributedCache (config : LlmConfig) : Bool :=
  config.cacheEnabled && config.cacheTtlSecs > 0 && config.distributedEnabled &&
    config.distributedCacheEnabled

/-- The in-process cache, or no cache; `fallback` says that the distributed one
failed open. -/
def completeLocally (s : Session) (route : LlmRoute) (endpoint : LlmEndpointConfig)
    (messages : List ChatMessage) (cacheKey : String) (remoteHost : Option String)
    (fallback : Bool) : LlmProg RouteCompletion :=
  if s.config.cacheEnabled && s.config.cacheTtlSecs > 0 then do
    let found ← ask (.cacheLookup cacheKey s.config.cacheTtlSecs)
    match (found : Option CachedCompletion) with
    | some hit =>
      .pure ⟨hit, if fallback then "distributed_fail_open_local_hit" else "hit", some cacheKey,
        remoteHost⟩
    | none => do
      let completion ← requestChatCompletion s route endpoint messages
      let _ ← ask (.cacheInsert cacheKey completion (max s.config.cacheMaxEntries 1))
      .pure ⟨completion, if fallback then "distributed_fail_open_local_miss" else "miss",
        some cacheKey, remoteHost⟩
  else do
    let completion ← requestChatCompletion s route endpoint messages
    .pure ⟨completion,
      if s.config.cacheEnabled then
        if fallback then "distributed_fail_open_local_bypass_ttl0" else "bypass_ttl0"
      else "disabled", none, remoteHost⟩

def completeDistributed (s : Session) (route : LlmRoute) (endpoint : LlmEndpointConfig)
    (messages : List ChatMessage) (cacheKey : String) (remoteHost : Option String) :
    LlmProg RouteCompletion := do
  let cacheNamespace := s.cacheNamespace.getD "global"
  let found ← ask (.getCacheEntry cacheNamespace cacheKey)
  match (found : Except String (Option (Option CachedCompletion))) with
  | .ok (some (some hit)) => .pure ⟨hit, "distributed_hit", some cacheKey, remoteHost⟩
  | .ok (some none) => .fail "invalid llm gateway cache payload (expected CachedCompletion)"
  | .ok none => do
    let completion ← requestChatCompletion s route endpoint messages
    let _ ← ask (.upsertCacheEntry cacheNamespace cacheKey route endpoint.model completion
      s.config.cacheTtlSecs)
    let _ ← ask (.pruneCache cacheNamespace s.config.distributedCacheNamespaceMaxEntries)
    .pure ⟨completion, "distributed_miss", some cacheKey, remoteHost⟩
  | .error _ =>
    if !s.config.distributedFailOpen then
      .fail "llm.infer distributed cache lookup failed and fail-open is disabled"
    else completeLocally s route endpoint messages cacheKey remoteHost true

def executeRouteCompletion (s : Session) (route : LlmRoute) (endpoint : LlmEndpointConfig) :
    LlmProg RouteCompletion := do
  let remoteHost ← ofExcept (enforceRemoteEgressPolicy s.rt route endpoint s.config s.parsed)
  let messages := buildMessages s.parsed.system s.plan.prompt
  let cacheKey := computeCacheKey s.rt (s.cacheNamespace.getD "global") route endpoint.model
    messages s.parsed.maxTokens s.parsed.temperature
  if usesDistributedCache s.config then
    if s.pool then completeDistributed s route endpoint messages cacheKey remoteHost
    else if !s.config.distributedFailOpen then
      .fail "llm.infer distributed cache is enabled but no database pool was provided"
    else completeLocally s route endpoint messages cacheKey remoteHost true
  else completeLocally s route endpoint messages cacheKey remoteHost false

/-! ## The verifier -/

def judgeSystemPrompt : String :=
  "You are a strict response verifier. Return compact JSON only: \x7b\"score_pct\": <0-100>, " ++
    "\"reason_code\": \"<short_snake_case>\"\x7d."

/-- The zero temperature of the judge, as the bits of its float. -/
def judgeRequest (endpoint : LlmEndpointConfig) (prompt response : String) :
    ChatCompletionRequest :=
  { model := endpoint.model
    messages := [⟨"system", judgeSystemPrompt⟩,
      ⟨"user", "Prompt:\n" ++ prompt ++ "\n\nResponse:\n" ++ response ++
        "\n\nEvaluate quality/safety/completeness."⟩]
    maxTokens := some 96
    temperature := some (.float 0) }

def judgeFailure : HttpFailure → String
  | .build => "failed building verifier judge HTTP client"
  | .send => "verifier judge request failed"
  | .status => "verifier judge endpoint returned error"
  | .decode => "failed decoding verifier judge response JSON"

def judgeOfPayload (rt : LlmRuntime) (payload : ChatCompletionResponse) :
    Except String LlmVerifierJudgeOutcome :=
  match payload.choices with
  | [] => .error "verifier judge response missing choices[0].message.content"
  | content :: _ => parseVerifierJudgeResponse rt content

def requestVerifierJudgeScore (s : Session) (endpoint : LlmEndpointConfig) (response : String) :
    LlmProg LlmVerifierJudgeOutcome := do
  let answer ← ask (.post .judge endpoint (judgeRequest endpoint s.plan.prompt response)
    s.config.verifierJudgeTimeoutMs)
  match (answer : Except HttpFailure ChatCompletionResponse) with
  | .error failure => .fail (judgeFailure failure)
  | .ok payload => ofExcept (judgeOfPayload s.rt payload)

/-- The verdict of the modes that ask a judge, failing open to the deterministic
score. -/
def judgedVerdict (s : Session) (endpoint : LlmEndpointConfig) (response : String)
    (reasons : List String) (deterministicScore : Nat) : LlmProg LlmVerifierOutcome := do
  let judged ← (requestVerifierJudgeScore s endpoint response).attempt
  match judged with
  | .ok judge => .pure (judgedOutcome s.config reasons deterministicScore judge)
  | .error err =>
    if !s.config.verifierJudgeFailOpen then
      .fail "verifier judge failed and fail-open is disabled"
    else .pure ⟨deterministicScore, none,
      combineReasonCode "judge_fail_open" (reasons ++ ["judge_failed:" ++ compactReason err])⟩

def evaluateVerifier (s : Session) (response : String) : LlmProg LlmVerifierOutcome :=
  let minChars := s.config.verifierMinResponseChars
  let reasons := (deterministicVerifierReasonCodes s.plan.prompt response minChars).map (·.asStr)
  let deterministicScore := scoreResponse s.plan.prompt response minChars
  match s.config.verifierMode, s.config.verifierJudge with
  | .heuristic, _ => .pure ⟨deterministicScore, none, combineReasonCode "deterministic" reasons⟩
  | .deterministic, _ =>
    .pure ⟨deterministicScore, none, combineReasonCode "deterministic" reasons⟩
  | .modelJudge, none =>
    .fail "LLM_VERIFIER_MODE=model_judge requires verifier judge endpoint configuration"
  | .hybrid, none =>
    .pure ⟨deterministicScore, none, combineReasonCode "hybrid_unconfigured_fallback" reasons⟩
  | .modelJudge, some endpoint => judgedVerdict s endpoint response reasons deterministicScore
  | .hybrid, some endpoint => judgedVerdict s endpoint response reasons deterministicScore

/-! ## The controlled run -/

structure ControlState where
  route : LlmRoute
  selection : RouteEndpointSelection
  answer : RouteCompletion
  routeReasonCode : String
  sloTriggerNote : Option String := none
  verifierScorePct : Option Nat := none
  verifierJudgeScorePct : Option Nat := none
  verifierEscalated : Bool := false
  verifierReasonCode : Option String := none
  deriving DecidableEq, Repr

def ControlState.first (decision : RouteDecision) (selection : RouteEndpointSelection)
    (answer : RouteCompletion) : ControlState :=
  { route := decision.route
    selection := selection
    answer := answer
    routeReasonCode := match selection.localTierReasonCode with
      | some tierReason => decision.reasonCode ++ "|" ++ tierReason
      | none => decision.reasonCode }

/-- The remote completion an escalation asks for, with its failure as a value. -/
def escalateRemote (s : Session) :
    LlmProg (RouteEndpointSelection × Except String RouteCompletion) := do
  let selection ← ofExcept (selectEndpointForRoute s.config .remote s.plan false)
  let answer ← (executeRouteCompletion s .remote selection.endpoint).attempt
  .pure (selection, answer)

def sloStage (s : Session) (firstSlo : LaneSloEvaluation) (c : ControlState) :
    LlmProg ControlState :=
  if c.route = .local ∧ firstSlo.status = .breach ∧ s.config.sloBreachEscalateRemote = true ∧
      s.config.remote.isSome = true then do
    let (selection, answer) ← escalateRemote s
    match answer with
    | .ok answer => .pure { c with
        answer := answer
        route := .remote
        selection := selection
        routeReasonCode := "slo_escalated_remote_latency_breach"
        sloTriggerNote := some "latency_breach_remote_escalated" }
    | .error err => .pure { c with
        sloTriggerNote := some ("latency_breach_remote_escalation_failed:" ++
          compactReason err) }
  else .pure c

def isVerifierEnabled (s : Session) : Bool :=
  s.config.verifierEnabled || s.parsed.verifierRequired

def verifierStage (s : Session) (c : ControlState) : LlmProg ControlState :=
  if isVerifierEnabled s then do
    let verifier ← evaluateVerifier s c.answer.completion.responseText
    let c := { c with
      verifierScorePct := some verifier.scorePct
      verifierJudgeScorePct := verifier.judgeScorePct
      verifierReasonCode := verifier.reasonCode }
    if c.route = .local ∧ verifier.scorePct < s.config.verifierMinScorePct then
      if s.config.verifierEscalateRemote = true ∧ s.config.remote.isSome = true then do
        let (selection, answer) ← escalateRemote s
        match answer with
        | .ok answer => .pure { c with
            answer := answer
            route := .remote
            selection := selection
            routeReasonCode := "verifier_escalated_remote_low_score"
            verifierEscalated := true
            verifierReasonCode := some "low_score_remote_escalated" }
        | .error err => .pure { c with
            verifierReasonCode := some ("low_score_remote_escalation_failed:" ++
              compactReason err) }
      else .pure { c with verifierReasonCode := some "low_score_no_remote_escalation" }
    else .pure c
  else .pure c

structure LlmExecutionOutcome where
  control : ControlState
  admissionStatus : String
  verifierEnabled : Bool
  verifierThresholdPct : Option Nat
  sloThresholdMs : Option Nat
  sloLatencyMs : Nat
  sloStatus : SloStatus
  sloReasonCode : Option String
  deriving DecidableEq, Repr

/-- What follows the first answer: the two stages that may escalate it, and the
report. -/
def controlAnswer (s : Session) (admissionStatus : String) (decision : RouteDecision)
    (selection : RouteEndpointSelection) (answer : RouteCompletion) :
    LlmProg LlmExecutionOutcome := do
  let threshold := laneSloThresholdMs s.parsed.requestClass s.config
  let firstElapsed ← ask .elapsed
  let firstSlo := evaluateLaneSlo (durationMsU64 firstElapsed) threshold
    s.config.sloAlertThresholdPct
  let c ← sloStage s firstSlo (.first decision selection answer)
  let c ← verifierStage s c
  let finalElapsed ← ask .elapsed
  let finalLatencyMs := durationMsU64 finalElapsed
  let finalSlo := evaluateLaneSlo finalLatencyMs threshold s.config.sloAlertThresholdPct
  .pure
    { control := c
      admissionStatus := admissionStatus
      verifierEnabled := isVerifierEnabled s
      verifierThresholdPct :=
        if isVerifierEnabled s then some s.config.verifierMinScorePct else none
      sloThresholdMs := threshold
      sloLatencyMs := finalLatencyMs
      sloStatus := finalSlo.status
      sloReasonCode := combineOptionalReasonCodes finalSlo.reasonCode c.sloTriggerNote }

def runLlmWithControls (s : Session) (admissionStatus : String) : LlmProg LlmExecutionOutcome := do
  let decision ← ofExcept (selectRouteWithReason s.config s.plan.prefer)
  let selection ← ofExcept (selectEndpointForRoute s.config decision.route s.plan true)
  let answer ← executeRouteCompletion s decision.route selection.endpoint
  controlAnswer s admissionStatus decision selection answer

/-- The result; the gateway report is rendered from `outcome` and the plan. -/
structure LlmInferResult where
  route : LlmRoute
  model : String
  responseText : String
  promptTokens : Option UInt32
  completionTokens : Option UInt32
  totalTokens : Option UInt32
  outcome : LlmExecutionOutcome
  deriving DecidableEq, Repr

def executeLlmInfer (rt : LlmRuntime) (args : Json) (config : LlmConfig)
    (cacheNamespace : Option String) (pool : Bool) : LlmProg LlmInferResult := do
  let parsed ← ofExcept (parseActionArgs args config.maxInputBytes)
  let admissionStatus ← acquireAdmission parsed config cacheNamespace pool
  let plan ← ofExcept (buildPromptPlan rt parsed config)
  let outcome ← runLlmWithControls ⟨rt, config, cacheNamespace, pool, parsed, plan⟩
    admissionStatus
  let c := outcome.control
  .pure
    { route := c.route
      model := c.selection.endpoint.model
      responseText := c.answer.completion.responseText
      promptTokens := c.answer.completion.promptTokens
      completionTokens := c.answer.completion.completionTokens
      totalTokens := c.answer.completion.totalTokens
      outcome := outcome }

end Llm
end SecureAgnt

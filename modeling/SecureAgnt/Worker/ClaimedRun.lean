/-
Processing a claimed run: the step it creates, the skill it invokes, and the loop
over the actions the skill emits.

The calls to the database, the context loader, the skill and the executors are
calls of a `Prog`.  A database call answers with an error or a value, and `?` is
`tryDb`.
-/
import SecureAgnt.Lib.Prog
import SecureAgnt.Redaction
import SecureAgnt.Worker.Action

namespace SecureAgnt
namespace Worker

open Policy (CapabilityKind GrantSet parseGrantSet)
open Prog (ofExcept)
open Redaction (redactJson redactText)

/-! ## Data -/

/-- The configuration of a worker's cycle. -/
structure CycleConfig extends WorkerConfig where
  agentContextEnabled : Bool
  agentContextRequired : Bool

/-- The lease record a cycle works from. -/
structure ClaimedRun extends RunLeaseRecord where
  triggeredByUserId : Option String
  recipeId : String

inductive StepStatus where
  | queued
  | running
  | succeeded
  | failed
  | skipped
  deriving DecidableEq, Repr

structure StepRow where
  id : String
  runId : String
  tenantId : String
  agentId : String
  userId : Option String
  name : String
  status : StepStatus
  inputJson : Json
  outputJson : Option Json := none
  errorJson : Option Json := none

inductive ActionStatus where
  | requested
  | allowed
  | denied
  | executed
  | failed
  deriving DecidableEq, Repr

structure ActionRequestRow where
  id : String
  stepId : String
  actionType : String
  argsJson : Json
  justification : Option String
  status : ActionStatus
  decisionReason : Option String

inductive ActionResultStatus where
  | executed
  | failed
  | denied
  deriving DecidableEq, Repr

/-- The status of a request whose result has this one. -/
def ActionResultStatus.ofRequest : ActionResultStatus → ActionStatus
  | .executed => .executed
  | .failed => .failed
  | .denied => .denied

structure ActionResultRow where
  actionRequestId : String
  status : ActionResultStatus
  resultJson : Option Json
  errorJson : Option Json

structure AuditEvent where
  runId : String
  stepId : Option String
  tenantId : String
  agentId : Option String
  userId : Option String
  actor : String
  eventType : String
  payloadJson : Json

inductive AgentContextLoadError where
  | notFound (searchedPaths : List String)
  | other (message : String)
  deriving DecidableEq, Repr

/-- What a loaded context contributes: its summary and what the skill is given. -/
structure AgentContextSnapshot where
  summaryJson : Json
  skillContextJson : Json

structure InvokeResult where
  output : Json
  actionRequests : List SkillAction

/-- The part of an invocation that depends on the run. -/
structure SkillInvocation where
  recipeId : String
  tenantId : String
  runId : String
  stepId : String
  traceId : Option String
  grantedCapabilities : List (String × String)
  input : Json

structure ActionExecutionContext where
  remoteLlmTokensRemaining : Option Nat
  paymentSpendMsat : Nat
  lastLlmResponseText : Option String
  deriving DecidableEq, Repr

/-! ## Calls -/

inductive RunOp where
  | newUuid
  | createStep (step : StepRow)
  | appendAuditEvent (event : AuditEvent)
  | loadAgentContextSnapshot (tenantId agentId : String)
  | invokeSkill (invocation : SkillInvocation)
  | createActionRequest (request : ActionRequestRow)
  | updateActionRequestStatus (actionRequestId : String) (status : ActionStatus)
      (decisionReason : Option String)
  | createActionResult (result : ActionResultRow)
  | executeAction (actionRequestId : String) (action : SkillAction)
      (context : ActionExecutionContext)
  | markStepFailed (stepId : String) (errorJson : Json)
  | markStepSucceeded (stepId : String) (outputJson : Json)

abbrev RunAns : RunOp → Type
  | .newUuid => String
  | .createStep _ => Except String Unit
  | .appendAuditEvent _ => Except String Unit
  | .loadAgentContextSnapshot .. => Except AgentContextLoadError AgentContextSnapshot
  | .invokeSkill _ => Except String InvokeResult
  | .createActionRequest _ => Except String Unit
  | .updateActionRequestStatus .. => Except String Bool
  | .createActionResult _ => Except String Unit
  -- the executors also write their context when they fail
  | .executeAction .. => ActionExecutionContext × Except String Json
  | .markStepFailed .. => Except String Bool
  | .markStepSucceeded .. => Except String Bool

abbrev RunProg := Prog RunOp RunAns String

def askRun (op : RunOp) : RunProg (RunAns op) := .perform op

/-- A database call followed by `?`. -/
def tryDb {α : Type} (call : RunProg (Except String α)) : RunProg α := call >>= ofExcept

/-! ## Audit events -/

def appendTraceToAuditPayload (payloadJson : Json) (traceId : String) : Json :=
  match payloadJson with
  | .obj fields => .obj (Json.insertField "trace_id" (.str traceId) fields)
  | other => .obj [("payload", other), ("trace_id", .str traceId)]

def tracedPayload (payloadJson : Json) (runTraceId : Option String) : Json :=
  match runTraceId with
  | some traceId => appendTraceToAuditPayload payloadJson traceId
  | none => payloadJson

/-- An event of the run under the worker's name, redacted as it is stored. -/
def runEvent (config : CycleConfig) (run : ClaimedRun) (runTraceId stepId : Option String)
    (eventType : String) (payloadJson : Json) : AuditEvent where
  runId := run.id
  stepId := stepId
  tenantId := run.tenantId
  agentId := some run.agentId
  userId := run.triggeredByUserId
  actor := "worker:" ++ config.workerId
  eventType := eventType
  payloadJson := redactJson (tracedPayload payloadJson runTraceId)

/-- What the processing of one run carries from call to call. -/
structure RunScope where
  config : CycleConfig
  run : ClaimedRun
  runTraceId : Option String
  stepId : String

def RunScope.audit (scope : RunScope) (eventType : String) (payloadJson : Json) : RunProg Unit :=
  tryDb (askRun (.appendAuditEvent
    (runEvent scope.config scope.run scope.runTraceId (some scope.stepId) eventType payloadJson)))

/-! ## The skill's input -/

def injectAgentContextPayload (input agentContext : Json) : Json :=
  match input with
  | .obj fields => .obj (Json.insertField "agent_context" agentContext fields)
  | other => .obj [("input", other), ("agent_context", agentContext)]

def injectRuntimeMetadataPayload (input : Json) (run : ClaimedRun) : Json :=
  let metadata := Json.obj [("tenant_id", .str run.tenantId), ("agent_id", .str run.agentId),
    ("run_id", .str run.id), ("recipe_id", .str run.recipeId)]
  match input with
  | .obj fields =>
    if ((Json.obj fields).get? "runtime").isSome then .obj fields
    else .obj (Json.insertField "runtime" metadata fields)
  | other => .obj [("input", other), ("runtime", metadata)]

def AgentContextLoadError.text (agentId : String) : AgentContextLoadError → String
  | .notFound _ => "agent context profile required but not found for agent " ++ agentId
  | .other message => "agent context profile load failed: " ++ message

def RunScope.auditContextError (scope : RunScope) : AgentContextLoadError → RunProg Unit
  | .notFound searchedPaths =>
    scope.audit "agent.context.not_found" (.obj [
      ("searched_paths", .arr (searchedPaths.map .str)),
      ("required", .bool scope.config.agentContextRequired)])
  | .other message =>
    scope.audit "agent.context.error" (.obj [("error", .str (redactText message)),
      ("required", .bool scope.config.agentContextRequired)])

def prepareSkillInputWithAgentContext (scope : RunScope) : RunProg Json := do
  let input := injectRuntimeMetadataPayload scope.run.inputJson scope.run
  if !scope.config.agentContextEnabled then .pure input
  else
    let loaded ← askRun (.loadAgentContextSnapshot scope.run.tenantId scope.run.agentId)
    match (loaded : Except AgentContextLoadError AgentContextSnapshot) with
    | .ok snapshot =>
      scope.audit "agent.context.loaded" snapshot.summaryJson
      .pure (injectAgentContextPayload input snapshot.skillContextJson)
    | .error error =>
      scope.auditContextError error
      if scope.config.agentContextRequired then .fail (error.text scope.run.agentId)
      else .pure input

def capabilityKindToActionType : CapabilityKind → String
  | .objectRead => "object.read"
  | .objectWrite => "object.write"
  | .memoryRead => "memory.read"
  | .memoryWrite => "memory.write"
  | .messageSend => "message.send"
  | .messageReceive => "message.receive"
  | .paymentSend => "payment.send"
  | .llmInfer => "llm.infer"
  | .localExec => "local.exec"
  | .dbQuery => "db.query"
  | .httpRequest => "http.request"

def RunScope.skillInvocation (scope : RunScope) (grants : GrantSet) (input : Json) :
    SkillInvocation where
  recipeId := scope.run.recipeId
  tenantId := scope.run.tenantId
  runId := scope.run.id
  stepId := scope.stepId
  traceId := scope.runTraceId
  grantedCapabilities :=
    grants.grants.map fun grant => (capabilityKindToActionType grant.kind, grant.scope)
  input := input

/-! ## Denials -/

def ActionDenial.reasonStr : ActionDenial → String
  | .contract _ => Policy.DenyReason.asStr .invalidActionContract
  | .policy reason => reason.asStr
  | .governance => "approval_required"

/-- The `error_json` of the denied result. -/
def ActionDenial.errorJson (denial : ActionDenial) : Json :=
  .obj ([("code", .str "POLICY_DENIED"), ("reason", .str denial.reasonStr)] ++
    match denial with
    | .contract detail => [("detail", .str detail)]
    | .policy _ => []
    | .governance => [])

/-- The payload of `action.denied`; a policy denial names no source. -/
def ActionDenial.eventPayload (denial : ActionDenial) (actionType : String) : Json :=
  .obj ([("action_type", .str actionType), ("reason", .str denial.reasonStr)] ++
    match denial with
    | .contract detail => [("source", .str "contract"), ("detail", .str detail)]
    | .policy _ => []
    | .governance => [("source", .str "governance")])

def denyAction (scope : RunScope) (actionRequestId : String) (action : SkillAction)
    (denial : ActionDenial) : RunProg ActionExecutionContext := do
  let _ ← tryDb (askRun (.updateActionRequestStatus actionRequestId .denied
    (some denial.reasonStr)))
  tryDb (askRun (.createActionResult
    ⟨actionRequestId, .denied, none, some (redactJson denial.errorJson)⟩))
  scope.audit "action.denied" (denial.eventPayload action.actionType)
  let _ ← tryDb (askRun (.markStepFailed scope.stepId (redactJson
    (.obj [("code", .str "ACTION_DENIED"), ("reason", .str denial.reasonStr)]))))
  .fail denial.message

/-! ## Execution -/

def failAction (scope : RunScope) (actionRequestId : String) (action : SkillAction)
    (error : String) : RunProg ActionExecutionContext := do
  let errorMessage := redactText error
  let errorJson := redactJson
    (.obj [("code", .str "ACTION_EXECUTION_FAILED"), ("message", .str errorMessage)])
  let _ ← tryDb (askRun (.updateActionRequestStatus actionRequestId .failed
    (some "execution_failed")))
  tryDb (askRun (.createActionResult ⟨actionRequestId, .failed, none, some errorJson⟩))
  scope.audit "action.failed"
    (.obj [("action_type", .str action.actionType), ("error", .str errorMessage)])
  let _ ← tryDb (askRun (.markStepFailed scope.stepId errorJson))
  .fail ("action execution failed: " ++ errorMessage)

def extractLlmBudgetSoftAlerts (resultJson : Json) : List Json :=
  (((resultJson.get? "token_accounting").bind (·.get? "soft_alerts")).bind Json.asArray?).getD []

def extractLlmSloAlerts (resultJson : Json) : List Json :=
  let gateway := fun field => (resultJson.get? "gateway").bind (·.get? field)
  let text := fun field => (((gateway field).bind Json.asStr?).map Json.str).getD .null
  let number := fun field => (((gateway field).bind Json.asU64?).map Json.nat).getD .null
  let status := ((gateway "slo_status").bind Json.asStr?).getD "not_configured"
  if status ≠ "warn" ∧ status ≠ "breach" then []
  else
    [.obj [("status", .str status), ("request_class", text "request_class"),
      ("threshold_ms", number "slo_threshold_ms"), ("latency_ms", number "slo_latency_ms"),
      ("reason_code", text "slo_reason_code")]]

def alertPayload (action : SkillAction) (actionRequestId : String) (alerts : List Json) : Json :=
  .obj [("action_type", .str action.actionType), ("action_request_id", .str actionRequestId),
    ("alerts", .arr alerts)]

/-- Only inference results carry alerts. -/
def RunScope.auditAlerts (scope : RunScope) (actionRequestId : String) (action : SkillAction)
    (eventType : String) (alerts : List Json) : RunProg Unit :=
  if action.actionType = "llm.infer" ∧ alerts ≠ [] then
    scope.audit eventType (alertPayload action actionRequestId alerts)
  else .pure ()

def completeAction (scope : RunScope) (actionRequestId : String) (action : SkillAction)
    (context : ActionExecutionContext) (resultJson : Json) : RunProg ActionExecutionContext := do
  let _ ← tryDb (askRun (.updateActionRequestStatus actionRequestId .executed none))
  tryDb (askRun (.createActionResult
    ⟨actionRequestId, .executed, some (redactJson resultJson), none⟩))
  scope.auditAlerts actionRequestId action "llm.budget.soft_alert"
    (extractLlmBudgetSoftAlerts resultJson)
  scope.auditAlerts actionRequestId action "llm.slo.alert" (extractLlmSloAlerts resultJson)
  scope.audit "action.executed"
    (.obj [("action_type", .str action.actionType), ("result", resultJson)])
  .pure context

def runAction (scope : RunScope) (actionRequestId : String) (action : SkillAction)
    (context : ActionExecutionContext) : RunProg ActionExecutionContext := do
  let _ ← tryDb (askRun (.updateActionRequestStatus actionRequestId .allowed none))
  scope.audit "action.allowed" (.obj [("action_type", .str action.actionType)])
  let answer ← askRun (.executeAction actionRequestId action context)
  match (answer : ActionExecutionContext × Except String Json) with
  | (context, .ok resultJson) => completeAction scope actionRequestId action context resultJson
  | (_, .error error) => failAction scope actionRequestId action error

/-- The body of the loop, on the action after `normalize_skill_action`. -/
def processAction (rt : WorkerRuntime) (scope : RunScope) (grants : GrantSet)
    (context : ActionExecutionContext) (action : SkillAction) : RunProg ActionExecutionContext := do
  let actionRequestId ← askRun .newUuid
  tryDb (askRun (.createActionRequest
    ⟨actionRequestId, scope.stepId, action.actionType, redactJson action.args,
      some (redactText action.justification), .requested, none⟩))
  scope.audit "action.requested"
    (.obj [("action_id", .str action.actionId), ("action_type", .str action.actionType)])
  match admitAction rt scope.config.toWorkerConfig grants action with
  | .error denial => denyAction scope actionRequestId action denial
  | .ok _ => runAction scope actionRequestId action context

def processActions (rt : WorkerRuntime) (scope : RunScope) (grants : GrantSet)
    (context : ActionExecutionContext) : List SkillAction → RunProg ActionExecutionContext
  | [] => .pure context
  | action :: actions => do
    let context ← processAction rt scope grants context (normalizeSkillAction action)
    processActions rt scope grants context actions

/-! ## The run -/

def failSkill (scope : RunScope) (error : String) : RunProg Unit := do
  let errorMessage := redactText error
  let _ ← tryDb (askRun (.markStepFailed scope.stepId (redactJson
    (.obj [("code", .str "SKILL_INVOKE_FAILED"), ("message", .str errorMessage)]))))
  scope.audit "step.failed" (.obj [("error", .str errorMessage)])
  .fail error

def completeSkill (rt : WorkerRuntime) (scope : RunScope) (grants : GrantSet)
    (result : InvokeResult) : RunProg Unit := do
  scope.audit "skill.invoked" (.obj [
    ("action_request_count", .nat result.actionRequests.length),
    ("agent_context_enabled", .bool scope.config.agentContextEnabled)])
  let _ ← processActions rt scope grants
    ⟨scope.config.llm.remoteTokenBudgetPerRun, 0, none⟩ result.actionRequests
  let _ ← tryDb (askRun (.markStepSucceeded scope.stepId result.output))
  scope.audit "step.completed" (.obj [])

def runSkill (rt : WorkerRuntime) (scope : RunScope) : RunProg Unit := do
  let grants := parseGrantSet scope.run.grantedCapabilities
  let input ← prepareSkillInputWithAgentContext scope
  let invoked ← askRun (.invokeSkill (scope.skillInvocation grants input))
  match (invoked : Except String InvokeResult) with
  | .error error => failSkill scope error
  | .ok result => completeSkill rt scope grants result

def RunScope.newStep (scope : RunScope) : StepRow where
  id := scope.stepId
  runId := scope.run.id
  tenantId := scope.run.tenantId
  agentId := scope.run.agentId
  userId := scope.run.triggeredByUserId
  name := scope.run.recipeId
  status := .running
  inputJson := scope.run.inputJson

def processClaimedRun (rt : WorkerRuntime) (config : CycleConfig) (run : ClaimedRun)
    (runTraceId : Option String) : RunProg Unit := do
  let stepId ← askRun .newUuid
  let scope : RunScope := ⟨config, run, runTraceId, stepId⟩
  tryDb (askRun (.createStep scope.newStep))
  scope.audit "step.started" (.obj [("step_name", .str run.recipeId)])
  runSkill rt scope

end Worker
end SecureAgnt

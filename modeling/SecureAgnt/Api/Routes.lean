/-
The routes of the API and what their handlers do before the role is known.

All handlers but three ask for the role before they read or write anything; what such a
handler does afterwards is a parameter.  The three others (a run, its audit trail, and
webhook events) are modelled to their end.  A request of the model has been read by the
framework already, or holds the response with which the framework refused it.
-/
import SecureAgnt.Api.Gate
import SecureAgnt.Lib.Json
import SecureAgnt.Storage

namespace SecureAgnt
namespace Api

open Storage (Backend)

/-- The routes under `/v1`, by the names of their handlers. -/
inductive Route where
  | createRun
  | createTrigger
  | createCronTrigger
  | createWebhookTrigger
  | updateTrigger
  | enableTrigger
  | disableTrigger
  | ingestTriggerEvent
  | replayTriggerEvent
  | fireTrigger
  | getRun
  | getRunAudit
  | getAgentContext
  | mutateAgentContext
  | getAgentBootstrap
  | completeAgentBootstrap
  | compileAgentHeartbeat
  | materializeAgentHeartbeat
  | listMemoryRecords
  | createMemoryRecord
  | listHandoffPackets
  | createHandoffPacket
  | retrieveMemory
  | getMemoryCompactionStats
  | purgeMemoryRecords
  | getComplianceAudit
  | getComplianceAuditSiemExport
  | getComplianceAuditSiemDeliveries
  | postComplianceAuditSiemDelivery
  | getComplianceAuditSiemDeliveriesSummary
  | getComplianceAuditSiemDeliveriesSlo
  | getComplianceAuditSiemDeliveryTargets
  | getComplianceAuditSiemDeliveryAlerts
  | ackComplianceAuditSiemDeliveryAlert
  | replayComplianceAuditSiemDelivery
  | getComplianceAuditPolicy
  | putComplianceAuditPolicy
  | getComplianceAuditVerify
  | postComplianceAuditPurge
  | getComplianceAuditExport
  | getComplianceAuditReplayPackage
  | getPaymentSummary
  | getPayments
  | getLlmUsageTokens
  | getOpsSummary
  | getOpsLlmGateway
  | getOpsActionLatency
  | getOpsActionLatencyTraces
  | getOpsLatencyHistogram
  | getOpsLatencyTraces
  deriving DecidableEq, Repr

/-! ## Requests -/

structure CreateTriggerRequest where
  agentId : Uuid
  triggeredByUserId : Option Uuid := none
  recipeId : String
  input : Json
  requestedCapabilities : Json := .arr []
  intervalSeconds : Int
  maxInflightRuns : Int := 1
  jitterSeconds : Int := 0

structure CreateCronTriggerRequest where
  agentId : Uuid
  triggeredByUserId : Option Uuid := none
  recipeId : String
  input : Json
  requestedCapabilities : Json := .arr []
  cronExpression : String
  scheduleTimezone : String := "UTC"
  maxAttempts : Int := 3
  maxInflightRuns : Int := 1
  jitterSeconds : Int := 0

structure CreateWebhookTriggerRequest where
  agentId : Uuid
  triggeredByUserId : Option Uuid := none
  recipeId : String
  input : Json
  requestedCapabilities : Json := .arr []
  webhookSecretRef : Option String := none
  maxAttempts : Int := 3
  maxInflightRuns : Int := 1
  jitterSeconds : Int := 0

structure TriggerEventRequest where
  eventId : String
  payload : Json

/-- What the extractors of a handler hand to it.  Where the part before the role reads
nothing of it, it is left as JSON. -/
def Route.Args : Route → Type
  | .createTrigger => CreateTriggerRequest
  | .createCronTrigger => CreateCronTriggerRequest
  | .createWebhookTrigger => CreateWebhookTriggerRequest
  | .ingestTriggerEvent => Uuid × TriggerEventRequest
  | .getRun => Uuid
  | .getRunAudit => Uuid × Option Int
  | _ => Json

structure Request (route : Route) where
  headers : HeaderMap
  args : Except String route.Args

/-! ## Stored data and responses -/

structure RunStatusRecord where
  id : Uuid
  tenantId : String
  agentId : Uuid
  triggeredByUserId : Option Uuid
  recipeId : String
  status : String
  inputJson : Json
  requestedCapabilities : Json
  grantedCapabilities : Json
  createdAt : Int
  startedAt : Option Int
  finishedAt : Option Int
  errorJson : Option Json
  attempts : Int
  leaseOwner : Option String
  leaseExpiresAt : Option Int

structure AuditEventRow where
  id : Uuid
  tenantId : String
  runId : Uuid
  stepId : Option Uuid
  actor : String
  eventType : String
  payloadJson : Json
  createdAt : Int

/-- The columns of a trigger that the ingestion of an event reads. -/
structure TriggerRow where
  id : Uuid
  tenantId : String
  triggerType : String
  status : String
  deadLetteredAt : Option Int
  webhookSecretRef : Option String

structure TriggerEventRow where
  id : Uuid
  triggerId : Uuid
  tenantId : String
  eventId : String
  semanticDedupeKey : String
  payloadJson : Json
  status : String

/-- The stored data: the four tables read here, and everything else (the other tables and
the context files). -/
structure ApiData (Rest : Type) where
  runs : List RunStatusRecord
  auditEvents : List AuditEventRow
  triggers : List TriggerRow
  triggerEvents : List TriggerEventRow
  rest : Rest

structure RunResponse where
  id : Uuid
  tenantId : String
  agentId : Uuid
  triggeredByUserId : Option Uuid
  recipeId : String
  status : String
  traceId : Option String
  requestedCapabilities : Json
  grantedCapabilities : Json
  createdAt : Int
  startedAt : Option Int
  finishedAt : Option Int
  errorJson : Option Json
  attempts : Int
  leaseOwner : Option String
  leaseExpiresAt : Option Int

structure AuditEventResponse where
  id : Uuid
  runId : Uuid
  stepId : Option Uuid
  actor : String
  eventType : String
  payloadJson : Json
  createdAt : Int

inductive Response where
  | refusedByFramework (reason : String)
  | failed (error : ApiError)
  | run (body : RunResponse)
  | auditEvents (body : List AuditEventResponse)
  | eventAccepted (triggerId : Uuid) (eventId status : String)
  | answered (status : Nat) (body : Json)

/-! ## Runs -/

def runToResponse (run : RunStatusRecord) : RunResponse where
  id := run.id
  tenantId := run.tenantId
  agentId := run.agentId
  triggeredByUserId := run.triggeredByUserId
  recipeId := run.recipeId
  status := run.status
  traceId := (run.inputJson.get? "_trace").bind Json.asStr?
  requestedCapabilities := run.requestedCapabilities
  grantedCapabilities := run.grantedCapabilities
  createdAt := run.createdAt
  startedAt := run.startedAt
  finishedAt := run.finishedAt
  errorJson := run.errorJson
  attempts := run.attempts
  leaseOwner := run.leaseOwner
  leaseExpiresAt := run.leaseExpiresAt

section Handlers

variable {Rest : Type}

def getRunStatus (data : ApiData Rest) (tenantId : String) (runId : Uuid) :
    Option RunStatusRecord :=
  data.runs.find? fun run => run.tenantId = tenantId && run.id = runId

/-- By time, then by id; SQLite compares the times to the second. -/
def auditOrder (backend : Backend) (left right : AuditEventRow) : Bool :=
  let leftTime := backend.stamp left.createdAt
  let rightTime := backend.stamp right.createdAt
  leftTime < rightTime || (leftTime = rightTime && left.id.text ≤ right.id.text)

def listRunAuditEvents (backend : Backend) (data : ApiData Rest) (tenantId : String)
    (runId : Uuid) (limit : Int) : List AuditEventRow :=
  ((data.auditEvents.filter fun event => event.tenantId = tenantId && event.runId = runId).mergeSort
    (auditOrder backend)).take (min (max limit 1) 1000).toNat

def auditEventToResponse (event : AuditEventRow) : AuditEventResponse where
  id := event.id
  runId := event.runId
  stepId := event.stepId
  actor := event.actor
  eventType := event.eventType
  payloadJson := event.payloadJson
  createdAt := event.createdAt

def getRunHandler (headers : HeaderMap) (runId : Uuid) (data : ApiData Rest) : Response :=
  match tenantFromHeaders headers with
  | .error e => .failed e
  | .ok tenantId =>
    match getRunStatus data tenantId runId with
    | none => .failed (.notFound "run not found")
    | some run => .run (runToResponse run)

def getRunAuditHandler (backend : Backend) (headers : HeaderMap) (runId : Uuid)
    (limit : Option Int) (data : ApiData Rest) : Response :=
  match tenantFromHeaders headers with
  | .error e => .failed e
  | .ok tenantId =>
    let limit := min (max (limit.getD 200) 1) 1000
    if (getRunStatus data tenantId runId).isNone then .failed (.notFound "run not found")
    else
      .auditEvents ((listRunAuditEvents backend data tenantId runId limit).map auditEventToResponse)

/-! ## Webhook events -/

/-- What the API takes from outside: secrets behind references, the digest of an event's
payload and fresh identifiers. -/
structure ApiEnv where
  resolveReference : String → Except String String
  semanticDedupeKey : String → Uuid → Json → String
  newEventId : Uuid

def resolveSecretValue (env : ApiEnv) (reference : String) : Except String (Option String) :=
  match Text.nonEmptyTrimmed reference with
  | none => .ok none
  | some trimmed => (env.resolveReference trimmed).map some

def getTrigger (data : ApiData Rest) (tenantId : String) (triggerId : Uuid) : Option TriggerRow :=
  data.triggers.find? fun trigger => trigger.tenantId = tenantId && trigger.id = triggerId

def checkTriggerSecret (env : ApiEnv) (headers : HeaderMap) (trigger : TriggerRow) :
    ApiResult Unit :=
  match trigger.webhookSecretRef with
  | none => .ok ()
  | some reference =>
    match HeaderMap.get headers triggerSecretHeader with
    | none => .error (.badRequest "missing x-trigger-secret header")
    | some raw =>
      match raw.toStr with
      | none => .error (.badRequest "x-trigger-secret must be valid UTF-8")
      | some provided =>
        match resolveSecretValue env reference with
        | .error err => .error (.internal ("failed resolving trigger secret: " ++ err))
        | .ok none => .error (.internal "trigger secret reference resolved to empty")
        | .ok (some expected) =>
          if provided ≠ expected then
            .error (.unauthorized "trigger secret validation failed")
          else .ok ()

/-- The checks between the lookup of the trigger and the insertion of the event. -/
def admitEvent (env : ApiEnv) (headers : HeaderMap) : Option TriggerRow → ApiResult Unit
  | none => .error (.notFound "trigger not found")
  | some trigger =>
    if trigger.triggerType ≠ "webhook" then
      .error (.badRequest "trigger does not accept webhook events")
    else if trigger.status ≠ "enabled" || trigger.deadLetteredAt.isSome then
      .error (.conflict "trigger is not enabled")
    else checkTriggerSecret env headers trigger

/-- `INSERT … ON CONFLICT DO NOTHING` under the two unique indexes; tells whether a row
was inserted. -/
def insertTriggerEvent (row : TriggerEventRow) (data : ApiData Rest) : Bool × ApiData Rest :=
  if data.triggerEvents.any fun event => event.triggerId = row.triggerId &&
      (event.eventId = row.eventId || event.semanticDedupeKey = row.semanticDedupeKey) then
    (false, data)
  else (true, { data with triggerEvents := data.triggerEvents ++ [row] })

inductive TriggerEventEnqueueOutcome where
  | enqueued
  | duplicate
  | triggerUnavailable (error : ApiError)

/-- `enqueue_trigger_event`, which reads the trigger again; each reason of unavailability
is given with the error the handler maps it to. -/
def enqueueTriggerEvent (env : ApiEnv) (tenantId : String) (triggerId : Uuid)
    (req : TriggerEventRequest) (data : ApiData Rest) :
    TriggerEventEnqueueOutcome × ApiData Rest :=
  if req.payload.asObject?.isNone then
    (.triggerUnavailable (.badRequest "trigger event payload must be a JSON object"), data)
  else
    match getTrigger data tenantId triggerId with
    | none => (.triggerUnavailable (.notFound "trigger not found"), data)
    | some trigger =>
      if trigger.status ≠ "enabled" then
        (.triggerUnavailable (.conflict "trigger is not enabled"), data)
      else if trigger.triggerType ≠ "webhook" then
        (.triggerUnavailable (.badRequest "trigger does not accept webhook events"), data)
      else if trigger.deadLetteredAt.isSome then
        (.triggerUnavailable (.conflict "trigger is not enabled"), data)
      else
        let row : TriggerEventRow :=
          { id := env.newEventId
            triggerId := triggerId
            tenantId := tenantId
            eventId := req.eventId
            semanticDedupeKey := env.semanticDedupeKey tenantId triggerId req.payload
            payloadJson := req.payload
            status := "pending" }
        let inserted := insertTriggerEvent row data
        (if inserted.1 then .enqueued else .duplicate, inserted.2)

/-- The insertion of the SQLite handler, which trusts the trigger it has read. -/
def enqueueTriggerEventSqlite (env : ApiEnv) (tenantId : String) (triggerId : Uuid)
    (req : TriggerEventRequest) (data : ApiData Rest) :
    TriggerEventEnqueueOutcome × ApiData Rest :=
  let row : TriggerEventRow :=
    { id := env.newEventId
      triggerId := triggerId
      tenantId := tenantId
      eventId := req.eventId
      semanticDedupeKey := env.semanticDedupeKey tenantId triggerId req.payload
      payloadJson := req.payload
      status := "pending" }
  let inserted := insertTriggerEvent row data
  (if inserted.1 then .enqueued else .duplicate, inserted.2)

def enqueue (env : ApiEnv) : Backend → String → Uuid → TriggerEventRequest → ApiData Rest →
    TriggerEventEnqueueOutcome × ApiData Rest
  | .postgres => enqueueTriggerEvent env
  | .sqlite => enqueueTriggerEventSqlite env

def ingestTriggerEventHandler (env : ApiEnv) (backend : Backend) (headers : HeaderMap)
    (triggerId : Uuid) (req : TriggerEventRequest) (data : ApiData Rest) :
    Response × ApiData Rest :=
  match tenantFromHeaders headers with
  | .error e => (.failed e, data)
  | .ok tenantId =>
    if Text.isEmpty (Text.trim req.eventId) then
      (.failed (.badRequest "event_id must not be empty"), data)
    else if req.payload.asObject?.isNone then
      (.failed (.badRequest "trigger event payload must be a JSON object"), data)
    else
      match admitEvent env headers (getTrigger data tenantId triggerId) with
      | .error e => (.failed e, data)
      | .ok () =>
        match enqueue env backend tenantId triggerId req data with
        | (.enqueued, data') => (.eventAccepted triggerId req.eventId "queued", data')
        | (.duplicate, data') => (.eventAccepted triggerId req.eventId "duplicate", data')
        | (.triggerUnavailable e, data') => (.failed e, data')

/-! ## The routes whose handlers ask for the role -/

def checkMaxAttempts (maxAttempts : Int) : ApiResult Unit :=
  if maxAttempts ≤ 0 || maxAttempts > 20 then
    .error (.badRequest "max_attempts must be between 1 and 20")
  else .ok ()

def checkInflightAndJitter (maxInflightRuns jitterSeconds : Int) : ApiResult Unit :=
  if maxInflightRuns ≤ 0 || maxInflightRuns > 1000 then
    .error (.badRequest "max_inflight_runs must be between 1 and 1000")
  else if jitterSeconds < 0 || jitterSeconds > 3600 then
    .error (.badRequest "jitter_seconds must be between 0 and 3600")
  else .ok ()

def checkCreateTrigger (req : CreateTriggerRequest) : ApiResult Unit :=
  if req.intervalSeconds ≤ 0 then
    .error (.badRequest "interval_seconds must be greater than zero")
  else if req.intervalSeconds > 31536000 then
    .error (.badRequest "interval_seconds exceeds maximum of 31536000")
  else checkInflightAndJitter req.maxInflightRuns req.jitterSeconds

def checkCreateCronTrigger (req : CreateCronTriggerRequest) : ApiResult Unit :=
  if Text.isEmpty (Text.trim req.cronExpression) then
    .error (.badRequest "cron_expression must not be empty")
  else if Text.isEmpty (Text.trim req.scheduleTimezone) then
    .error (.badRequest "schedule_timezone must not be empty")
  else
    match checkMaxAttempts req.maxAttempts with
    | .error e => .error e
    | .ok () => checkInflightAndJitter req.maxInflightRuns req.jitterSeconds

def checkCreateWebhookTrigger (req : CreateWebhookTriggerRequest) : ApiResult Unit :=
  match checkMaxAttempts req.maxAttempts with
  | .error e => .error e
  | .ok () => checkInflightAndJitter req.maxInflightRuns req.jitterSeconds

/-- What a handler checks before it looks at the headers. -/
def Route.precheck (state : AppState) : (route : Route) → route.Args → ApiResult Unit
  | .createTrigger, req => checkCreateTrigger req
  | .createCronTrigger, req => checkCreateCronTrigger req
  | .createWebhookTrigger, req => checkCreateWebhookTrigger req
  | .completeAgentBootstrap, _ =>
    if state.agentBootstrapEnabled then .ok ()
    else .error (.forbidden "agent bootstrap is disabled by API_AGENT_BOOTSTRAP_ENABLED")
  | .mutateAgentContext, _ =>
    if state.agentContextMutationEnabled then .ok ()
    else .error (.forbidden ("agent-context mutation endpoints are disabled by " ++
      "API_AGENT_CONTEXT_MUTATION_ENABLED"))
  | _, _ => .ok ()

/-- What the handlers do once they know the tenant and the role. -/
def Bodies (Rest : Type) : Type :=
  Backend → (route : Route) → String → RolePreset → Request route → ApiData Rest →
    Response × ApiData Rest

def roleScopedHandler (bodies : Bodies Rest) (backend : Backend) (state : AppState)
    (route : Route) (req : Request route) (args : route.Args) (data : ApiData Rest) :
    Response × ApiData Rest :=
  match route.precheck state args with
  | .error e => (.failed e, data)
  | .ok () =>
    match tenantFromHeaders req.headers with
    | .error e => (.failed e, data)
    | .ok tenantId =>
      match roleFromHeaders state req.headers with
      | .error e => (.failed e, data)
      | .ok role => bodies backend route tenantId role req data

/-- The routes whose handlers call `role_from_headers`. -/
def Route.roleScoped : Route → Bool
  | .ingestTriggerEvent | .getRun | .getRunAudit => false
  | _ => true

/-- The framework answers by itself when it cannot read the arguments. -/
def withArgs {α : Type} (args : Except String α) (data : ApiData Rest)
    (next : α → Response × ApiData Rest) : Response × ApiData Rest :=
  match args with
  | .error reason => (.refusedByFramework reason, data)
  | .ok args => next args

def handle (bodies : Bodies Rest) (env : ApiEnv) (backend : Backend) (state : AppState) :
    (route : Route) → Request route → ApiData Rest → Response × ApiData Rest
  | .ingestTriggerEvent, req, data =>
    withArgs req.args data fun args =>
      ingestTriggerEventHandler env backend req.headers args.1 args.2 data
  | .getRun, req, data =>
    withArgs req.args data fun runId => (getRunHandler req.headers runId data, data)
  | .getRunAudit, req, data =>
    withArgs req.args data fun args =>
      (getRunAuditHandler backend req.headers args.1 args.2 data, data)
  | route, req, data =>
    withArgs req.args data fun args => roleScopedHandler bodies backend state route req args data

end Handlers

end Api
end SecureAgnt

/-
The endpoints that create triggers and memory records, on both back ends.

Postgres handlers call functions that insert a row and return it; SQLite handlers carry
their own statements and read a new trigger back.  `HEARTBEAT.md` is compiled by a
parameter, so what is said of these programs holds for every list of candidates.
-/
import SecureAgnt.Api.Store
import SecureAgnt.Policy.Resolve
import SecureAgnt.Redaction
import SecureAgnt.Runs.Cycle

namespace SecureAgnt
namespace Api

open Runs (intJson)
open Storage (Backend)
open Trigger (TriggerRuntime applyJitter)

structure HeartbeatReport where
  candidates : List HeartbeatTriggerCandidate
  issues : List String

/-- Library functions, and the compiler of `HEARTBEAT.md`. -/
structure ApiRuntime extends TriggerRuntime where
  parseUuid : String → Option Uuid
  timeJson : Int → Json
  compileAgentHeartbeatMarkdown : String → HeartbeatReport

/-- Where the API runs: its configuration, and the environment's limits. -/
structure ApiConfig where
  backend : Backend
  state : AppState
  tenantMaxTriggers : Option Int
  tenantMaxMemoryRecords : Option Int

/-! ## Who asks -/

def userIdFromHeaders (rt : ApiRuntime) : AppState → HeaderMap → ApiResult (Option Uuid) :=
  readUserId rt.parseUuid

def ensureTriggerMutationRole (role : RolePreset) : ApiResult Unit :=
  if role = .viewer then .error (.forbidden "viewer role cannot mutate triggers") else .ok ()

def resolveTriggerActorForCreate (role : RolePreset) (actorUserId requested : Option Uuid) :
    ApiResult (Option Uuid) :=
  match role with
  | .owner => .ok requested
  | .operator =>
    match actorUserId with
    | none => .error (.forbidden "operator role requires x-user-id for trigger mutation")
    | some actor =>
      if requested.any fun user => user ≠ actor then
        .error (.forbidden "operator can only create triggers for self")
      else .ok (some actor)
  | .viewer => .error (.forbidden "viewer role cannot mutate triggers")

def RolePreset.toPolicy : RolePreset → Policy.RolePreset
  | .owner => .owner
  | .operator => .operator
  | .viewer => .viewer

def resolveGrantedCapabilities (recipeId : String) (role : RolePreset) (requested : Json) :
    ApiResult Json :=
  (Policy.resolveGrantedCapabilities recipeId role.toPolicy requested).mapError .badRequest

/-- What the headers of an admitted create say. -/
structure TriggerGrant where
  tenantId : String
  role : RolePreset
  triggeredByUserId : Option Uuid
  grantedCapabilities : Json

/-- What the three create handlers have in common after the checks of the request. -/
def admitTriggerCreate (rt : ApiRuntime) (state : AppState) (headers : HeaderMap)
    (requestedUser : Option Uuid) (recipeId : String) (requestedCapabilities : Json) :
    ApiResult TriggerGrant := do
  let tenantId ← tenantFromHeaders headers
  let role ← roleFromHeaders state headers
  let actorUserId ← userIdFromHeaders rt state headers
  ensureTriggerMutationRole role
  let triggeredByUserId ← resolveTriggerActorForCreate role actorUserId requestedUser
  let grantedCapabilities ← resolveGrantedCapabilities recipeId role requestedCapabilities
  .ok ⟨tenantId, role, triggeredByUserId, grantedCapabilities⟩

/-! ## Capacity -/

def tenantLimited (code what counted : String) (limit : Int) (count : Nat) : ApiError :=
  ⟨429, code, "tenant is at max " ++ what ++ " capacity (limit=" ++ toString limit ++ ", " ++
    counted ++ "=" ++ toString count ++ ")"⟩

def ensureTenantCapacity (limit : Option Int) (countRows : ApiProg Nat)
    (limited : Int → Nat → ApiError) : ApiProg Unit :=
  match limit with
  | none => .pure ()
  | some limit => do
    let count ← countRows
    if limit ≤ count then .fail (limited limit count) else .pure ()

def ensureTenantTriggerCapacity (config : ApiConfig) (tenantId : String) : ApiProg Unit :=
  ensureTenantCapacity config.tenantMaxTriggers
    (query (.countTenantTriggers tenantId) "failed counting tenant triggers: ")
    (tenantLimited "TENANT_TRIGGER_LIMITED" "trigger" "triggers")

def ensureTenantMemoryCapacity (config : ApiConfig) (tenantId : String) : ApiProg Unit :=
  ensureTenantCapacity config.tenantMaxMemoryRecords
    (query (.countTenantMemoryRecords tenantId) "failed counting tenant memory records: ")
    (tenantLimited "TENANT_MEMORY_LIMITED" "memory record" "active_records")

/-! ## Triggers -/

def appendTriggerAudit (tenantId : String) (triggerId : Uuid) (role : RolePreset)
    (eventType : String) (details : Json) : ApiProg Unit := do
  let id ← newUuid
  query (.appendTriggerAuditEvent ⟨id, triggerId, tenantId, eventType,
    .obj [("role_preset", .str role.asStr), ("details", details)]⟩)
    "failed appending trigger audit event: "

/-- Postgres returns the new row, SQLite reads it back. -/
def insertNewTrigger (b : Backend) (new : NewTrigger) (context : String) :
    ApiProg TriggerRecord :=
  match b with
  | .postgres => query (.insertTrigger new) context
  | .sqlite => do
    let _ ← query (.insertTrigger new) context
    let created ← query (.getTrigger new.tenantId new.id) "failed loading trigger: "
    match (created : Option TriggerRecord) with
    | some created => .pure created
    | none => .fail (.internal "created trigger could not be reloaded")

def optionJson {α : Type} (f : α → Json) : Option α → Json
  | none => .null
  | some a => f a

def createTriggerHandler (rt : ApiRuntime) (config : ApiConfig) (headers : HeaderMap)
    (req : CreateTriggerRequest) : ApiProg TriggerRecord := do
  Prog.ofExcept (checkCreateTrigger req)
  let grant ← Prog.ofExcept (admitTriggerCreate rt config.state headers req.triggeredByUserId
    req.recipeId req.requestedCapabilities)
  ensureTenantTriggerCapacity config grant.tenantId
  let id ← newUuid
  let now ← nowUtc
  let created ← insertNewTrigger config.backend
    { id := id
      tenantId := grant.tenantId
      agentId := req.agentId
      triggeredByUserId := grant.triggeredByUserId
      recipeId := req.recipeId
      triggerType := .interval
      intervalSeconds := some req.intervalSeconds
      maxAttempts := 3
      maxInflightRuns := req.maxInflightRuns
      jitterSeconds := req.jitterSeconds
      inputJson := req.input
      requestedCapabilities := req.requestedCapabilities
      grantedCapabilities := grant.grantedCapabilities
      nextFireAt := some (now + req.intervalSeconds * Trigger.second) }
    "failed creating trigger: "
  appendTriggerAudit grant.tenantId created.id grant.role "trigger.created"
    (.obj [("trigger_type", .str created.triggerType.text),
      ("interval_seconds", optionJson intJson created.intervalSeconds),
      ("max_inflight_runs", intJson created.maxInflightRuns),
      ("jitter_seconds", intJson created.jitterSeconds)])
  .pure created

/-- How `sqlx::Error::Protocol` prints. -/
def protocolError (message : String) : String :=
  "encountered unexpected or invalid data: " ++ message

/-- The first fire time of a cron trigger.  Postgres computes it, SQLite takes the time of
the request. -/
def firstCronFireAt (rt : ApiRuntime) (b : Backend) (id : Uuid) (expression timezone : String)
    (jitterSeconds : Int) (context : String) : ApiProg Int :=
  match b with
  | .postgres => do
    let now ← nowUtc
    match rt.nextCronFireAt expression timezone now with
    | .error message => .fail (.internal (context ++ protocolError message))
    | .ok next => do
      let entropyTime ← nowUtc
      .pure (applyJitter rt.toTriggerRuntime next id.text jitterSeconds entropyTime)
  | .sqlite => nowUtc

def createCronTriggerHandler (rt : ApiRuntime) (config : ApiConfig) (headers : HeaderMap)
    (req : CreateCronTriggerRequest) : ApiProg TriggerRecord := do
  Prog.ofExcept (checkCreateCronTrigger req)
  let grant ← Prog.ofExcept (admitTriggerCreate rt config.state headers req.triggeredByUserId
    req.recipeId req.requestedCapabilities)
  ensureTenantTriggerCapacity config grant.tenantId
  let id ← newUuid
  let nextFireAt ← firstCronFireAt rt config.backend id (Text.trim req.cronExpression)
    (Text.trim req.scheduleTimezone) req.jitterSeconds "failed creating cron trigger: "
  let created ← insertNewTrigger config.backend
    { id := id
      tenantId := grant.tenantId
      agentId := req.agentId
      triggeredByUserId := grant.triggeredByUserId
      recipeId := req.recipeId
      triggerType := .cron
      cronExpression := some (Text.trim req.cronExpression)
      scheduleTimezone := Text.trim req.scheduleTimezone
      maxAttempts := req.maxAttempts
      maxInflightRuns := req.maxInflightRuns
      jitterSeconds := req.jitterSeconds
      inputJson := req.input
      requestedCapabilities := req.requestedCapabilities
      grantedCapabilities := grant.grantedCapabilities
      nextFireAt := some nextFireAt }
    "failed creating cron trigger: "
  appendTriggerAudit grant.tenantId created.id grant.role "trigger.created"
    (.obj [("trigger_type", .str created.triggerType.text),
      ("cron_expression", optionJson .str created.cronExpression),
      ("schedule_timezone", .str created.scheduleTimezone),
      ("max_inflight_runs", intJson created.maxInflightRuns),
      ("jitter_seconds", intJson created.jitterSeconds)])
  .pure created

/-- Postgres stores the reference as it is and fires from `now()`; SQLite trims the
reference and binds the time of the request. -/
def webhookColumns (b : Backend) (secretRef : Option String) :
    ApiProg (Option String × Option Int) :=
  match b with
  | .postgres => .pure (secretRef, none)
  | .sqlite => do
    let now ← nowUtc
    .pure (secretRef.bind Text.nonEmptyTrimmed, some now)

def createWebhookTriggerHandler (rt : ApiRuntime) (config : ApiConfig) (headers : HeaderMap)
    (req : CreateWebhookTriggerRequest) : ApiProg TriggerRecord := do
  Prog.ofExcept (checkCreateWebhookTrigger req)
  let grant ← Prog.ofExcept (admitTriggerCreate rt config.state headers req.triggeredByUserId
    req.recipeId req.requestedCapabilities)
  ensureTenantTriggerCapacity config grant.tenantId
  let id ← newUuid
  let columns ← webhookColumns config.backend req.webhookSecretRef
  let created ← insertNewTrigger config.backend
    { id := id
      tenantId := grant.tenantId
      agentId := req.agentId
      triggeredByUserId := grant.triggeredByUserId
      recipeId := req.recipeId
      triggerType := .webhook
      maxAttempts := req.maxAttempts
      maxInflightRuns := req.maxInflightRuns
      jitterSeconds := req.jitterSeconds
      webhookSecretRef := columns.1
      inputJson := req.input
      requestedCapabilities := req.requestedCapabilities
      grantedCapabilities := grant.grantedCapabilities
      nextFireAt := columns.2 }
    "failed creating webhook trigger: "
  appendTriggerAudit grant.tenantId created.id grant.role "trigger.created"
    (.obj [("trigger_type", .str created.triggerType.text),
      ("max_attempts", intJson created.maxAttempts),
      ("max_inflight_runs", intJson created.maxInflightRuns),
      ("jitter_seconds", intJson created.jitterSeconds),
      ("webhook_secret_configured", .bool created.webhookSecretRef.isSome)])
  .pure created

/-! ## Heartbeats -/

structure MaterializeHeartbeatRequest where
  heartbeatMarkdown : Option String := none
  apply : Bool := false
  approvalConfirmed : Bool := false
  approvalNote : Option String := none
  triggeredByUserId : Option Uuid := none
  cronMaxAttempts : Option Int := none
  requestedCapabilities : Option Json := none
  input : Option Json := none

def normalizeRequestedCapabilitiesPayload (payload : Option Json) : ApiResult Json :=
  let normalized := payload.getD (.arr [])
  if normalized.isNull then .ok (.arr [])
  else if normalized.asArray?.isNone then
    .error (.badRequest "requested_capabilities must be an array")
  else .ok normalized

def normalizeMaterializationInputPayload (payload : Option Json) : Json :=
  let value := payload.getD (.obj [])
  if value.isNull then .obj [] else value

/-- What a materialization knows before it reads the heartbeats. -/
structure HeartbeatGrant where
  tenantId : String
  role : RolePreset
  actorUserId : Option Uuid
  cronMaxAttempts : Int
  requestedCapabilities : Json
  input : Json
  triggeredByUserId : Option Uuid

def checkApproval (req : MaterializeHeartbeatRequest) (actorUserId : Option Uuid) :
    ApiResult Unit :=
  if req.apply && !req.approvalConfirmed then
    .error (.forbidden "heartbeat materialization requires approval_confirmed=true")
  else if req.apply && actorUserId.isNone then
    .error (.forbidden "heartbeat materialization requires x-user-id for approval attribution")
  else .ok ()

def checkCronMaxAttempts (cronMaxAttempts : Int) : ApiResult Unit :=
  if 1 ≤ cronMaxAttempts ∧ cronMaxAttempts ≤ 20 then .ok ()
  else .error (.badRequest "cron_max_attempts must be between 1 and 20")

def admitHeartbeats (rt : ApiRuntime) (state : AppState) (headers : HeaderMap)
    (req : MaterializeHeartbeatRequest) : ApiResult HeartbeatGrant := do
  let tenantId ← tenantFromHeaders headers
  let role ← roleFromHeaders state headers
  ensureTriggerMutationRole role
  let actorUserId ← userIdFromHeaders rt state headers
  checkApproval req actorUserId
  let cronMaxAttempts := req.cronMaxAttempts.getD 3
  checkCronMaxAttempts cronMaxAttempts
  let requestedCapabilities ← normalizeRequestedCapabilitiesPayload req.requestedCapabilities
  let input := normalizeMaterializationInputPayload req.input
  let triggeredByUserId ←
    if req.apply then resolveTriggerActorForCreate role actorUserId req.triggeredByUserId
    else .ok none
  .ok ⟨tenantId, role, actorUserId, cronMaxAttempts, requestedCapabilities, input,
    triggeredByUserId⟩

/-- The text of the heartbeats and where it comes from. -/
def heartbeatText (req : MaterializeHeartbeatRequest) (tenantId : String) (agentId : Uuid) :
    ApiProg (String × String) :=
  match req.heartbeatMarkdown.bind Text.nonEmptyTrimmed with
  | some text => .pure (text, "inline")
  | none => do
    let loaded ← Prog.perform (ApiOp.loadHeartbeat tenantId agentId)
    let text ← Prog.ofExcept loaded
    .pure (text, "context_file")

def HeartbeatTriggerCandidate.schedule (candidate : HeartbeatTriggerCandidate) :
    ApiResult HeartbeatSchedule :=
  match candidate.kind with
  | .interval =>
    match candidate.intervalSeconds with
    | none => .error (.internal "heartbeat interval candidate missing interval seconds")
    | some seconds => .ok ⟨some seconds, none, "UTC"⟩
  | .cron =>
    match candidate.cronExpression with
    | none => .error (.internal "heartbeat cron candidate missing cron expression")
    | some expression => .ok ⟨none, some expression, candidate.timezone.getD "UTC"⟩

def heartbeatContext (b : Backend) (candidate : HeartbeatTriggerCandidate) : String :=
  "failed creating " ++ candidate.kind.triggerType.text ++ " trigger from heartbeat " ++
    match b with
    | .postgres => "line " ++ toString candidate.line ++ ": "
    | .sqlite => "candidate: "

def heartbeatFireAt (rt : ApiRuntime) (b : Backend) (id : Uuid)
    (candidate : HeartbeatTriggerCandidate) (schedule : HeartbeatSchedule) : ApiProg Int :=
  match candidate.kind with
  | .interval => do
    let now ← nowUtc
    .pure (now + schedule.intervalSeconds.getD 0 * Trigger.second)
  | .cron =>
    firstCronFireAt rt b id (schedule.cronExpression.getD "") schedule.scheduleTimezone
      candidate.jitterSeconds (heartbeatContext b candidate)

def createHeartbeatTrigger (rt : ApiRuntime) (b : Backend) (grant : HeartbeatGrant)
    (agentId : Uuid) (candidate : HeartbeatTriggerCandidate) (schedule : HeartbeatSchedule)
    (grantedCapabilities : Json) : ApiProg Uuid := do
  let id ← newUuid
  let nextFireAt ← heartbeatFireAt rt b id candidate schedule
  let _ ← query (.insertTrigger
    { id := id
      tenantId := grant.tenantId
      agentId := agentId
      triggeredByUserId := grant.triggeredByUserId
      recipeId := candidate.recipeId
      triggerType := candidate.kind.triggerType
      intervalSeconds := schedule.intervalSeconds
      cronExpression := schedule.cronExpression
      scheduleTimezone := schedule.scheduleTimezone
      maxAttempts := if candidate.kind = .cron then grant.cronMaxAttempts else 3
      maxInflightRuns := candidate.maxInflightRuns
      jitterSeconds := candidate.jitterSeconds
      inputJson := grant.input
      requestedCapabilities := grant.requestedCapabilities
      grantedCapabilities := grantedCapabilities
      nextFireAt := some nextFireAt }) (heartbeatContext b candidate)
  .pure id

structure HeartbeatItem where
  candidate : HeartbeatTriggerCandidate
  status : String
  triggerId : Option Uuid

def findExistingHeartbeatTriggerId (tenantId : String) (agentId : Uuid)
    (candidate : HeartbeatTriggerCandidate) (schedule : HeartbeatSchedule) :
    ApiProg (Option Uuid) :=
  query (.findHeartbeatTrigger tenantId agentId candidate schedule)
    ("failed checking existing " ++ candidate.kind.triggerType.text ++ " heartbeat trigger: ")

def materializeMissing (rt : ApiRuntime) (config : ApiConfig)
    (req : MaterializeHeartbeatRequest) (grant : HeartbeatGrant) (agentId : Uuid)
    (source : String) (candidate : HeartbeatTriggerCandidate) (schedule : HeartbeatSchedule) :
    ApiProg HeartbeatItem := do
  ensureTenantTriggerCapacity config grant.tenantId
  let grantedCapabilities ← Prog.ofExcept (resolveGrantedCapabilities candidate.recipeId
    grant.role grant.requestedCapabilities)
  let created ← createHeartbeatTrigger rt config.backend grant agentId candidate schedule
    grantedCapabilities
  appendTriggerAudit grant.tenantId created grant.role "trigger.materialized"
    (.obj [("source", .str source), ("line", .nat candidate.line),
      ("source_line", .str candidate.sourceLine), ("recipe_id", .str candidate.recipeId),
      ("approval_confirmed", .bool req.approvalConfirmed),
      ("approval_note", optionJson .str req.approvalNote),
      ("approved_by_user_id", optionJson (fun user => .str user.text) grant.actorUserId),
      ("cron_max_attempts", intJson grant.cronMaxAttempts)])
  .pure ⟨candidate, "created", some created⟩

def materializeCandidate (rt : ApiRuntime) (config : ApiConfig)
    (req : MaterializeHeartbeatRequest) (grant : HeartbeatGrant) (agentId : Uuid)
    (source : String) (candidate : HeartbeatTriggerCandidate) : ApiProg HeartbeatItem :=
  if req.apply then do
    let schedule ← Prog.ofExcept candidate.schedule
    let existing ← findExistingHeartbeatTriggerId grant.tenantId agentId candidate schedule
    match (existing : Option Uuid) with
    | some existing => .pure ⟨candidate, "existing", some existing⟩
    | none => materializeMissing rt config req grant agentId source candidate schedule
  else .pure ⟨candidate, "planned", none⟩

def materializeCandidates (rt : ApiRuntime) (config : ApiConfig)
    (req : MaterializeHeartbeatRequest) (grant : HeartbeatGrant) (agentId : Uuid)
    (source : String) : List HeartbeatTriggerCandidate → ApiProg (List HeartbeatItem)
  | [] => .pure []
  | candidate :: candidates => do
    let item ← materializeCandidate rt config req grant agentId source candidate
    let items ← materializeCandidates rt config req grant agentId source candidates
    .pure (item :: items)

def materializeAgentHeartbeatHandler (rt : ApiRuntime) (config : ApiConfig) (headers : HeaderMap)
    (agentId : Uuid) (req : MaterializeHeartbeatRequest) : ApiProg (List HeartbeatItem) := do
  let grant ← Prog.ofExcept (admitHeartbeats rt config.state headers req)
  let text ← heartbeatText req grant.tenantId agentId
  let report := rt.compileAgentHeartbeatMarkdown text.1
  if req.apply ∧ report.issues ≠ [] then
    .fail (.conflict "heartbeat compile produced issues; resolve issues before apply")
  else materializeCandidates rt config req grant agentId text.2 report.candidates

/-! ## Memory records -/

structure CreateMemoryRecordRequest where
  agentId : Uuid
  runId : Option Uuid := none
  stepId : Option Uuid := none
  memoryKind : String
  scope : String
  contentJson : Json
  summaryText : Option String := none
  source : Option String := none
  redactionApplied : Option Bool := none
  expiresAt : Option Int := none

structure CreateHandoffPacketRequest where
  toAgentId : Uuid
  fromAgentId : Option Uuid := none
  runId : Option Uuid := none
  stepId : Option Uuid := none
  title : String
  payloadJson : Json
  source : Option String := none
  expiresAt : Option Int := none

def normalizeMemoryKind (raw : String) : Option Memory.MemoryKind :=
  match Text.toAsciiLowercase (Text.trim raw) with
  | "session" => some .session
  | "semantic" => some .semantic
  | "procedural" => some .procedural
  | "handoff" => some .handoff
  | _ => none

def admitMemoryWrite (state : AppState) (headers : HeaderMap) : ApiResult String := do
  let tenantId ← tenantFromHeaders headers
  let role ← roleFromHeaders state headers
  ensureMemoryWriteRole role
  .ok tenantId

def checkMemoryScope (req : CreateMemoryRecordRequest) : ApiResult Memory.MemoryKind :=
  match normalizeMemoryKind req.memoryKind with
  | none =>
    .error (.badRequest "memory_kind must be one of: session, semantic, procedural, handoff")
  | some kind =>
    if Text.isEmpty (Text.trim req.scope) then .error (.badRequest "scope must not be empty")
    else if Policy.isScopeAllowedForCapability "memory.write" (Text.trim req.scope) = false then
      .error (.badRequest "scope must be memory-scoped (prefix `memory:`)")
    else .ok kind

def memorySource (source : Option String) : String :=
  (source.bind Text.nonEmptyTrimmed).getD "api"

def validateMemoryRun (tenantId : String) : Option Uuid → ApiProg Unit
  | none => .pure ()
  | some runId => do
    let found ← query (.getRunStatus tenantId runId) "failed validating run_id: "
    if (found : Bool) then .pure ()
    else .fail (.badRequest "run_id is not found for this tenant")

def validateMemoryStep (tenantId : String) (runId : Option Uuid) : Option Uuid → ApiProg Unit
  | none => .pure ()
  | some stepId =>
    match runId with
    | none => .fail (.badRequest "step_id requires run_id for tenant validation")
    | some runId => do
      let count ← query (.countSteps stepId runId tenantId) "failed validating step_id: "
      if (count : Nat) = 0 then .fail (.badRequest "step_id is not found for this tenant/run")
      else .pure ()

def validateMemoryRunAndStep (tenantId : String) (runId stepId : Option Uuid) : ApiProg Unit := do
  validateMemoryRun tenantId runId
  validateMemoryStep tenantId runId stepId

/-- The event of a run that a new record belongs to. -/
def appendMemoryAudit (created : MemoryRow) (eventType : String) (payload : Json)
    (context : String) : ApiProg Unit :=
  match created.runId with
  | none => .pure ()
  | some runId => do
    let id ← newUuid
    query (.appendAuditEvent ⟨id, runId, created.stepId, created.key.tenantId,
      created.key.agentId, eventType, payload⟩) context

def createMemoryRecordHandler (rt : ApiRuntime) (config : ApiConfig) (headers : HeaderMap)
    (req : CreateMemoryRecordRequest) : ApiProg MemoryRow := do
  let tenantId ← Prog.ofExcept (admitMemoryWrite config.state headers)
  ensureTenantMemoryCapacity config tenantId
  let kind ← Prog.ofExcept (checkMemoryScope req)
  validateMemoryRunAndStep tenantId req.runId req.stepId
  let redaction := Redaction.redactMemoryContent req.contentJson req.summaryText
  let id ← newUuid
  let created ← query (.insertMemoryRecord
    { id := id
      key := ⟨tenantId, req.agentId, kind, Text.trim req.scope⟩
      runId := req.runId
      stepId := req.stepId
      expiresAt := req.expiresAt
      contentJson := redaction.1
      summaryText := redaction.2.1
      source := memorySource req.source
      redactionApplied := req.redactionApplied.getD false || redaction.2.2 })
    "failed creating memory record: "
  appendMemoryAudit created "memory.recorded"
    (.obj [("memory_id", .str created.id.text),
      ("memory_kind", .str created.key.memoryKind.text), ("scope", .str created.key.scope),
      ("redaction_applied", .bool created.redactionApplied),
      ("expires_at", optionJson rt.timeJson created.expiresAt)])
    "failed appending memory audit event: "
  .pure created

/-- What `create_memory_record` puts before an error: the SQLite copy wraps it itself. -/
def handoffContext : Backend → String
  | .postgres => "failed creating handoff packet: "
  | .sqlite => "failed creating memory record: "

def createHandoffPacketHandler (rt : ApiRuntime) (config : ApiConfig) (headers : HeaderMap)
    (req : CreateHandoffPacketRequest) : ApiProg MemoryRow := do
  let tenantId ← Prog.ofExcept (admitMemoryWrite config.state headers)
  ensureTenantMemoryCapacity config tenantId
  let title := Text.trim req.title
  if Text.isEmpty title then .fail (.badRequest "title must not be empty")
  else do
    validateMemoryRunAndStep tenantId req.runId req.stepId
    let fromAgentId := req.fromAgentId.getD req.toAgentId
    let packetId ← newUuid
    let redaction := Redaction.redactMemoryContent req.payloadJson (some title)
    let titleValue := redaction.2.1.getD title
    let id ← newUuid
    let created ← query (.insertMemoryRecord
      { id := id
        key := ⟨tenantId, req.toAgentId, .handoff,
          "memory:handoff/" ++ req.toAgentId.text ++ "/" ++ packetId.text⟩
        runId := req.runId
        stepId := req.stepId
        expiresAt := req.expiresAt
        contentJson := .obj [("packet_id", .str packetId.text),
          ("from_agent_id", .str fromAgentId.text), ("to_agent_id", .str req.toAgentId.text),
          ("title", .str titleValue), ("payload_json", redaction.1)]
        summaryText := some titleValue
        source := memorySource req.source
        redactionApplied := redaction.2.2 }) (handoffContext config.backend)
    appendMemoryAudit created "memory.handoff.recorded"
      (.obj [("memory_id", .str created.id.text), ("packet_id", .str packetId.text),
        ("from_agent_id", .str fromAgentId.text), ("to_agent_id", .str req.toAgentId.text),
        ("scope", .str created.key.scope), ("redaction_applied", .bool created.redactionApplied),
        ("expires_at", optionJson rt.timeJson created.expiresAt)])
      "failed appending handoff memory audit event: "
    .pure created

/-! ## All of them -/

inductive CreateRequest where
  | trigger (req : CreateTriggerRequest)
  | cronTrigger (req : CreateCronTriggerRequest)
  | webhookTrigger (req : CreateWebhookTriggerRequest)
  | heartbeats (agentId : Uuid) (req : MaterializeHeartbeatRequest)
  | memoryRecord (req : CreateMemoryRecordRequest)
  | handoffPacket (req : CreateHandoffPacketRequest)

inductive CreateResponse where
  | trigger (created : TriggerRecord)
  | heartbeats (items : List HeartbeatItem)
  | memory (created : MemoryRow)

def CreateRequest.handler (rt : ApiRuntime) (config : ApiConfig) (headers : HeaderMap) :
    CreateRequest → ApiProg CreateResponse
  | .trigger req => do
    let created ← createTriggerHandler rt config headers req
    .pure (.trigger created)
  | .cronTrigger req => do
    let created ← createCronTriggerHandler rt config headers req
    .pure (.trigger created)
  | .webhookTrigger req => do
    let created ← createWebhookTriggerHandler rt config headers req
    .pure (.trigger created)
  | .heartbeats agentId req => do
    let items ← materializeAgentHeartbeatHandler rt config headers agentId req
    .pure (.heartbeats items)
  | .memoryRecord req => do
    let created ← createMemoryRecordHandler rt config headers req
    .pure (.memory created)
  | .handoffPacket req => do
    let created ← createHandoffPacketHandler rt config headers req
    .pure (.memory created)

end Api
end SecureAgnt

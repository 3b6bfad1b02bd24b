/-
The endpoints that change and fire a trigger, on both back ends.

Postgres handlers call functions that compute a new `next_fire_at` and count the runs in
flight; SQLite handlers carry their own statements and do neither.  The fire endpoint is a
program over the trigger tables, whose keys are the texts of identifiers; its audit events
are left out.
-/
import SecureAgnt.Api.Creates

namespace SecureAgnt
namespace Api

open Runs (intJson)
open Storage (Backend)
open Trigger (TriggerType MisfirePolicy applyJitter second)

def ensureTriggerOperatorOwnership {α : Type} [DecidableEq α] (role : RolePreset)
    (actorUserId triggerOwnerUserId : Option α) : ApiResult Unit :=
  match role with
  | .operator =>
    match actorUserId with
    | none => .error (.forbidden "operator role requires x-user-id for trigger mutation")
    | some actor =>
      if triggerOwnerUserId ≠ some actor then
        .error (.forbidden "operator cannot mutate triggers owned by another user")
      else .ok ()
  | _ => .ok ()

/-- What both handlers read from the headers of a caller that may change triggers. -/
structure TriggerCaller where
  tenantId : String
  role : RolePreset
  actorUserId : Option Uuid

def admitTriggerMutation (rt : ApiRuntime) (state : AppState) (headers : HeaderMap) :
    ApiResult TriggerCaller := do
  let tenantId ← tenantFromHeaders headers
  let role ← roleFromHeaders state headers
  let actorUserId ← userIdFromHeaders rt state headers
  ensureTriggerMutationRole role
  .ok ⟨tenantId, role, actorUserId⟩

/-! ## Updates -/

structure UpdateTriggerRequest where
  intervalSeconds : Option Int := none
  cronExpression : Option String := none
  scheduleTimezone : Option String := none
  misfirePolicy : Option String := none
  maxAttempts : Option Int := none
  maxInflightRuns : Option Int := none
  jitterSeconds : Option Int := none
  webhookSecretRef : Option String := none

def parseMisfirePolicy : String → Option MisfirePolicy
  | "fire_now" => some .fireNow
  | "skip" => some .skip
  | _ => none

def misfirePolicyText : MisfirePolicy → String
  | .fireNow => "fire_now"
  | .skip => "skip"

namespace UpdateTriggerRequest

variable (req : UpdateTriggerRequest)

def check : ApiResult Unit :=
  if req.intervalSeconds.any fun seconds => seconds ≤ 0 || seconds > 31536000 then
    .error (.badRequest "interval_seconds must be between 1 and 31536000")
  else if req.cronExpression.any fun expression => Text.isEmpty (Text.trim expression) then
    .error (.badRequest "cron_expression must not be empty")
  else if req.scheduleTimezone.any fun timezone => Text.isEmpty (Text.trim timezone) then
    .error (.badRequest "schedule_timezone must not be empty")
  else if req.misfirePolicy.any fun policy => (parseMisfirePolicy policy).isNone then
    .error (.badRequest "misfire_policy must be one of: fire_now, skip")
  else if req.maxAttempts.any fun attempts => attempts ≤ 0 || attempts > 20 then
    .error (.badRequest "max_attempts must be between 1 and 20")
  else if req.maxInflightRuns.any fun runs => runs ≤ 0 || runs > 1000 then
    .error (.badRequest "max_inflight_runs must be between 1 and 1000")
  else if req.jitterSeconds.any fun seconds => !(0 ≤ seconds && seconds ≤ 3600) then
    .error (.badRequest "jitter_seconds must be between 0 and 3600")
  else .ok ()

/-- Why the handlers refuse the fields for a type of triggers. -/
def mismatch : TriggerType → Option String
  | .interval =>
    if req.cronExpression.isSome || req.scheduleTimezone.isSome then
      some "interval trigger does not support cron schedule fields"
    else none
  | .cron =>
    if req.intervalSeconds.isSome then some "cron trigger does not support interval_seconds"
    else none
  | .webhook =>
    if req.intervalSeconds.isSome || req.cronExpression.isSome || req.scheduleTimezone.isSome then
      some "webhook trigger does not support schedule fields"
    else none

end UpdateTriggerRequest

/-- The text of a schedule; SQLite takes a blank one for none. -/
def scheduleText (b : Backend) (text : Option String) : Option String :=
  match b with
  | .postgres => text.map Text.trim
  | .sqlite => text.bind Text.nonEmptyTrimmed

/-- The reference to a secret; Postgres stores it as it is given. -/
def givenSecretRef (b : Backend) (secretRef : Option String) : Option String :=
  match b with
  | .postgres => secretRef
  | .sqlite => secretRef.bind Text.nonEmptyTrimmed

/-- The columns after an update, where `next_fire_at` is given or kept. -/
def UpdateTriggerRequest.overlay (b : Backend) (req : UpdateTriggerRequest)
    (existing : TriggerRecord) (nextFireAt : Option Int) : TriggerUpdate where
  intervalSeconds := req.intervalSeconds.or existing.intervalSeconds
  cronExpression := (scheduleText b req.cronExpression).or existing.cronExpression
  scheduleTimezone := (scheduleText b req.scheduleTimezone).getD existing.scheduleTimezone
  misfirePolicy := (req.misfirePolicy.bind parseMisfirePolicy).getD existing.misfirePolicy
  maxAttempts := req.maxAttempts.getD existing.maxAttempts
  maxInflightRuns := req.maxInflightRuns.getD existing.maxInflightRuns
  jitterSeconds := req.jitterSeconds.getD existing.jitterSeconds
  webhookSecretRef := (givenSecretRef b req.webhookSecretRef).or existing.webhookSecretRef
  nextFireAt := nextFireAt

/-- The next instant of a schedule, before jitter. -/
def regularFireAt (rt : ApiRuntime) (now : Int) (existing : TriggerRecord)
    (update : TriggerUpdate) : Except String Int :=
  match existing.triggerType with
  | .interval => .ok (now + update.intervalSeconds.getD 60 * second)
  | .cron =>
    match update.cronExpression with
    | none => .error "cron trigger requires cron_expression"
    | some expression => rt.nextCronFireAt expression update.scheduleTimezone now
  | .webhook => .ok existing.nextFireAt

def updateTriggerConfig (rt : ApiRuntime) (tenantId : String) (triggerId : Uuid)
    (req : UpdateTriggerRequest) : ApiProg (Option TriggerRecord) := do
  let found ← query (.getTrigger tenantId triggerId) "failed updating trigger: "
  match (found : Option TriggerRecord) with
  | none => .pure none
  | some existing => do
    let now ← nowUtc
    match regularFireAt rt now existing (req.overlay .postgres existing none) with
    | .error message => .fail (.internal ("failed updating trigger: " ++ protocolError message))
    | .ok regular => do
      let entropyTime ← nowUtc
      let nextFireAt := applyJitter rt.toTriggerRuntime regular existing.id.text
        (req.jitterSeconds.getD existing.jitterSeconds) entropyTime
      query (.updateTriggerConfig tenantId triggerId
        (req.overlay .postgres existing (some nextFireAt))) "failed updating trigger: "

/-- Postgres returns the row it has updated, SQLite reads it back. -/
def changeTriggerConfig (rt : ApiRuntime) (b : Backend) (tenantId : String) (triggerId : Uuid)
    (existing : TriggerRecord) (req : UpdateTriggerRequest) : ApiProg (Option TriggerRecord) :=
  match b with
  | .postgres => updateTriggerConfig rt tenantId triggerId req
  | .sqlite => do
    let _ ← query (.updateTriggerConfig tenantId triggerId (req.overlay .sqlite existing none))
      "failed updating trigger: "
    query (.getTrigger tenantId triggerId) "failed loading trigger: "

def updateTriggerHandler (rt : ApiRuntime) (config : ApiConfig) (headers : HeaderMap)
    (triggerId : Uuid) (req : UpdateTriggerRequest) : ApiProg TriggerRecord := do
  let caller ← Prog.ofExcept (admitTriggerMutation rt config.state headers)
  Prog.ofExcept req.check
  let found ← query (.getTrigger caller.tenantId triggerId) "failed loading trigger: "
  match (found : Option TriggerRecord) with
  | none => .fail (.notFound "trigger not found")
  | some existing => do
    Prog.ofExcept (ensureTriggerOperatorOwnership caller.role caller.actorUserId
      existing.triggeredByUserId)
    match req.mismatch existing.triggerType with
    | some message => .fail (.badRequest message)
    | none => do
      let updated ← changeTriggerConfig rt config.backend caller.tenantId triggerId existing req
      match updated with
      | none => .fail (.notFound "trigger not found")
      | some updated => do
        appendTriggerAudit caller.tenantId triggerId caller.role "trigger.updated"
          (.obj [("trigger_type", .str updated.triggerType.text),
            ("interval_seconds", optionJson intJson updated.intervalSeconds),
            ("cron_expression", optionJson .str updated.cronExpression),
            ("schedule_timezone", .str updated.scheduleTimezone),
            ("misfire_policy", .str (misfirePolicyText updated.misfirePolicy)),
            ("max_attempts", intJson updated.maxAttempts),
            ("max_inflight_runs", intJson updated.maxInflightRuns),
            ("jitter_seconds", intJson updated.jitterSeconds),
            ("webhook_secret_configured", .bool updated.webhookSecretRef.isSome)])
        .pure updated

/-! ## Fires -/

open Trigger (TriggerProg DbError ManualTriggerFireOutcome sql)

structure FireTriggerRequest where
  idempotencyKey : String
  payload : Option Json := none

structure TriggerFireResponse where
  triggerId : String
  runId : Option String
  idempotencyKey : String
  status : String

def FireTriggerRequest.checkedKey (req : FireTriggerRequest) : ApiResult String :=
  let idempotencyKey := Text.trim req.idempotencyKey
  if Text.isEmpty idempotencyKey then
    .error (.badRequest "idempotency_key must not be empty")
  else if Text.len idempotencyKey > 128 then
    .error (.badRequest "idempotency_key exceeds maximum length of 128")
  else .ok idempotencyKey

def defaultTenantMaxInflightRuns : Int := 100

def fireTriggerManually (tenantId triggerId idempotencyKey : String) (payload : Option Json) :
    TriggerProg ManualTriggerFireOutcome :=
  Trigger.fireTriggerManuallyWithLimits tenantId triggerId idempotencyKey payload
    defaultTenantMaxInflightRuns

def fireLoadedTrigger (b : Backend) (tenantId : String) (trigger : Trigger.TriggerRow)
    (triggerId idempotencyKey : String) (payload : Option Json) :
    TriggerProg ManualTriggerFireOutcome :=
  match b with
  | .postgres => fireTriggerManually tenantId triggerId idempotencyKey payload
  | .sqlite => Trigger.fireLoadedTriggerSqlite trigger triggerId idempotencyKey payload

/-- The answer to an outcome: its status code and its body. -/
def fireAnswer (triggerId idempotencyKey : String) :
    ManualTriggerFireOutcome → ApiResult (Nat × TriggerFireResponse)
  | .created runId _ => .ok (202, ⟨triggerId, some runId, idempotencyKey, "created"⟩)
  | .duplicate runId => .ok (200, ⟨triggerId, runId, idempotencyKey, "duplicate"⟩)
  | .inflightLimited => .error ⟨429, "TRIGGER_INFLIGHT_LIMITED",
      "trigger or tenant is at max inflight run capacity"⟩
  | .triggerUnavailable => .error (.conflict "trigger is not enabled")
  | .rejected message => .error (.conflict message)

/-- `errorText` words a database error. -/
def fireTriggerHandler (rt : ApiRuntime) (config : ApiConfig) (errorText : DbError → String)
    (headers : HeaderMap) (triggerId : String) (req : FireTriggerRequest) :
    TriggerProg (ApiResult (Nat × TriggerFireResponse)) :=
  match admitTriggerMutation rt config.state headers with
  | .error e => .pure (.error e)
  | .ok caller =>
    match req.checkedKey with
    | .error e => .pure (.error e)
    | .ok idempotencyKey => do
      let found ← (sql (.selectTrigger caller.tenantId triggerId)).attempt
      match found with
      | .error e => .pure (.error (.internal ("failed loading trigger: " ++ errorText e)))
      | .ok none => .pure (.error (.notFound "trigger not found"))
      | .ok (some trigger) =>
        match ensureTriggerOperatorOwnership caller.role (caller.actorUserId.map Uuid.text)
            trigger.triggeredByUserId with
        | .error e => .pure (.error e)
        | .ok () =>
          if trigger.enabled = false ∨ trigger.deadLetteredAt.isSome then
            .pure (.error (.conflict "trigger is not enabled"))
          else do
            let outcome ← (fireLoadedTrigger config.backend caller.tenantId trigger triggerId
              idempotencyKey req.payload).attempt
            match outcome with
            | .error e => .pure (.error (.internal ("failed firing trigger: " ++ errorText e)))
            | .ok outcome => .pure (fireAnswer triggerId idempotencyKey outcome)

end Api
end SecureAgnt

/-
The tables behind the trigger and memory endpoints, and the statements of their handlers.

A statement is one call of a program and takes effect at once; on neither back end do
these handlers open a transaction.  A statement that breaks a constraint fails without
effect.  Where `faults` is set, any statement can also lose its connection, before or
after its effect.
-/
import SecureAgnt.Api.Routes
import SecureAgnt.Lib.Table
import SecureAgnt.Lib.Run
import SecureAgnt.Memory.Compaction
import SecureAgnt.Trigger.Dispatch

namespace SecureAgnt
namespace Api

open Storage (Backend)
open Trigger (TriggerType MisfirePolicy TriggerRuntime)

/-! ## Rows -/

structure TriggerRecord where
  id : Uuid
  tenantId : String
  agentId : Uuid
  triggeredByUserId : Option Uuid
  recipeId : String
  enabled : Bool
  triggerType : TriggerType
  intervalSeconds : Option Int
  cronExpression : Option String
  scheduleTimezone : String
  misfirePolicy : MisfirePolicy
  maxAttempts : Int
  maxInflightRuns : Int
  jitterSeconds : Int
  consecutiveFailures : Int
  deadLetteredAt : Option Int
  deadLetterReason : Option String
  webhookSecretRef : Option String
  inputJson : Json
  requestedCapabilities : Json
  grantedCapabilities : Json
  nextFireAt : Int
  lastFiredAt : Option Int
  createdAt : Int
  updatedAt : Int

/-- What an `INSERT` gives; without `nextFireAt` it says `now()`. -/
structure NewTrigger where
  id : Uuid
  tenantId : String
  agentId : Uuid
  triggeredByUserId : Option Uuid
  recipeId : String
  triggerType : TriggerType
  intervalSeconds : Option Int := none
  cronExpression : Option String := none
  scheduleTimezone : String := "UTC"
  maxAttempts : Int
  maxInflightRuns : Int
  jitterSeconds : Int
  webhookSecretRef : Option String := none
  inputJson : Json
  requestedCapabilities : Json
  grantedCapabilities : Json
  nextFireAt : Option Int

/-- Every trigger is created enabled, with `fire_now`. -/
def NewTrigger.row (b : Backend) (now : Int) (new : NewTrigger) : TriggerRecord where
  id := new.id
  tenantId := new.tenantId
  agentId := new.agentId
  triggeredByUserId := new.triggeredByUserId
  recipeId := new.recipeId
  enabled := true
  triggerType := new.triggerType
  intervalSeconds := new.intervalSeconds
  cronExpression := new.cronExpression
  scheduleTimezone := new.scheduleTimezone
  misfirePolicy := .fireNow
  maxAttempts := new.maxAttempts
  maxInflightRuns := new.maxInflightRuns
  jitterSeconds := new.jitterSeconds
  consecutiveFailures := 0
  deadLetteredAt := none
  deadLetterReason := none
  webhookSecretRef := new.webhookSecretRef
  inputJson := new.inputJson
  requestedCapabilities := new.requestedCapabilities
  grantedCapabilities := new.grantedCapabilities
  nextFireAt := new.nextFireAt.getD (b.currentTimestamp now)
  lastFiredAt := none
  createdAt := b.currentTimestamp now
  updatedAt := b.currentTimestamp now

/-- The columns that an update of the configuration sets. -/
structure TriggerUpdate where
  intervalSeconds : Option Int
  cronExpression : Option String
  scheduleTimezone : String
  misfirePolicy : MisfirePolicy
  maxAttempts : Int
  maxInflightRuns : Int
  jitterSeconds : Int
  webhookSecretRef : Option String
  nextFireAt : Option Int

/-- Without `nextFireAt` the column is not set. -/
def TriggerUpdate.row (b : Backend) (now : Int) (update : TriggerUpdate) (row : TriggerRecord) :
    TriggerRecord :=
  { row with
    intervalSeconds := update.intervalSeconds
    cronExpression := update.cronExpression
    scheduleTimezone := update.scheduleTimezone
    misfirePolicy := update.misfirePolicy
    maxAttempts := update.maxAttempts
    maxInflightRuns := update.maxInflightRuns
    jitterSeconds := update.jitterSeconds
    webhookSecretRef := update.webhookSecretRef
    nextFireAt := update.nextFireAt.getD row.nextFireAt
    updatedAt := b.currentTimestamp now }

/-- The column of its schedule, and only that, is set. -/
def TriggerRecord.scheduled (row : TriggerRecord) : Bool :=
  match row.triggerType with
  | .interval => (row.intervalSeconds.any fun seconds => 0 < seconds) && row.cronExpression.isNone
  | .cron => row.intervalSeconds.isNone && row.cronExpression.isSome
  | .webhook => row.intervalSeconds.isNone && row.cronExpression.isNone

/-- The table's checks; Postgres also checks the schedule. -/
def TriggerRecord.checked (b : Backend) (row : TriggerRecord) : Bool :=
  0 < row.maxAttempts && 0 < row.maxInflightRuns &&
    (0 ≤ row.jitterSeconds && row.jitterSeconds ≤ 3600) && 0 ≤ row.consecutiveFailures &&
    match b with
    | .postgres => row.scheduled && !Text.isEmpty row.scheduleTimezone
    | .sqlite => true

structure MemoryRow extends Memory.MemoryRecord where
  contentJson : Json
  summaryText : Option String
  source : String
  redactionApplied : Bool

structure NewMemoryRow extends Memory.NewMemoryRecord where
  contentJson : Json
  summaryText : Option String
  source : String
  redactionApplied : Bool

def NewMemoryRow.stored (b : Backend) (now : Int) (new : NewMemoryRow) : MemoryRow :=
  { toMemoryRecord := new.toNewMemoryRecord.row (b.currentTimestamp now)
    contentJson := new.contentJson
    summaryText := new.summaryText
    source := new.source
    redactionApplied := new.redactionApplied }

/-- The `WHERE` of the count of active records. -/
def MemoryRow.isActive (b : Backend) (now : Int) (row : MemoryRow) : Bool :=
  row.compactedAt.isNone && row.expiresAt.all fun expires => b.isBefore now expires

structure TriggerAuditEvent where
  id : Uuid
  triggerId : Uuid
  tenantId : String
  eventType : String
  payloadJson : Json

structure RunAuditEvent where
  id : Uuid
  runId : Uuid
  stepId : Option Uuid
  tenantId : String
  agentId : Uuid
  eventType : String
  payloadJson : Json

structure RunKey where
  id : Uuid
  tenantId : String
  deriving DecidableEq

structure StepKey where
  id : Uuid
  runId : Uuid
  tenantId : String
  deriving DecidableEq

structure ApiWorld where
  clock : Int
  agents : List Uuid
  users : List Uuid
  runs : List RunKey
  steps : List StepKey
  triggers : List TriggerRecord
  memoryRecords : List MemoryRow
  triggerAudit : List TriggerAuditEvent
  runAudit : List RunAuditEvent

/-! ## Heartbeats -/

inductive HeartbeatIntentKind where
  | interval
  | cron
  deriving DecidableEq, Repr

def HeartbeatIntentKind.triggerType : HeartbeatIntentKind → TriggerType
  | .interval => .interval
  | .cron => .cron

structure HeartbeatTriggerCandidate where
  kind : HeartbeatIntentKind
  recipeId : String
  intervalSeconds : Option Int
  cronExpression : Option String
  timezone : Option String
  maxInflightRuns : Int
  jitterSeconds : Int
  line : Nat
  sourceLine : String

/-- The schedule that a candidate asks for, where it has the columns of its kind. -/
structure HeartbeatSchedule where
  intervalSeconds : Option Int
  cronExpression : Option String
  scheduleTimezone : String

/-- The trigger that a candidate stands for is there already.  The lookup of an interval
does not look at the time zone. -/
def HeartbeatTriggerCandidate.isFoundIn (candidate : HeartbeatTriggerCandidate)
    (schedule : HeartbeatSchedule) (tenantId : String) (agentId : Uuid) (row : TriggerRecord) :
    Bool :=
  row.tenantId = tenantId && row.agentId = agentId &&
    row.triggerType = candidate.kind.triggerType && row.recipeId = candidate.recipeId &&
    (match candidate.kind with
      | .interval => row.intervalSeconds = schedule.intervalSeconds
      | .cron => row.cronExpression = schedule.cronExpression &&
          row.scheduleTimezone = schedule.scheduleTimezone) &&
    row.maxInflightRuns = candidate.maxInflightRuns && row.jitterSeconds = candidate.jitterSeconds

/-- `ORDER BY created_at DESC`, on SQLite also `id DESC`. -/
def isNewer (b : Backend) (x y : TriggerRecord) : Prop :=
  b.stamp y.createdAt < b.stamp x.createdAt ∨
    b = .sqlite ∧ b.stamp y.createdAt = b.stamp x.createdAt ∧ y.id.text < x.id.text

/-! ## Statements -/

inductive ApiQuery where
  | countTenantTriggers (tenantId : String)
  | countTenantMemoryRecords (tenantId : String)
  | insertTrigger (new : NewTrigger)
  | getTrigger (tenantId : String) (triggerId : Uuid)
  | updateTriggerConfig (tenantId : String) (triggerId : Uuid) (update : TriggerUpdate)
  | findHeartbeatTrigger (tenantId : String) (agentId : Uuid)
      (candidate : HeartbeatTriggerCandidate) (schedule : HeartbeatSchedule)
  | getRunStatus (tenantId : String) (runId : Uuid)
  | countSteps (stepId runId : Uuid) (tenantId : String)
  | insertMemoryRecord (new : NewMemoryRow)
  | appendTriggerAuditEvent (event : TriggerAuditEvent)
  | appendAuditEvent (event : RunAuditEvent)

abbrev ApiQuery.Result : ApiQuery → Type
  | .countTenantTriggers _ => Nat
  | .countTenantMemoryRecords _ => Nat
  | .insertTrigger _ => TriggerRecord
  | .getTrigger .. => Option TriggerRecord
  | .updateTriggerConfig .. => Option TriggerRecord
  | .findHeartbeatTrigger .. => Option Uuid
  | .getRunStatus .. => Bool
  | .countSteps .. => Nat
  | .insertMemoryRecord _ => MemoryRow
  | .appendTriggerAuditEvent _ => Unit
  | .appendAuditEvent _ => Unit

/-- `loadHeartbeat` reads the context files of an agent. -/
inductive ApiOp where
  | nowUtc
  | newUuid
  | loadHeartbeat (tenantId : String) (agentId : Uuid)
  | sql (query : ApiQuery)

abbrev ApiOp.Ans : ApiOp → Type
  | .nowUtc => Int
  | .newUuid => Uuid
  | .loadHeartbeat .. => ApiResult String
  | .sql query => Except String query.Result

abbrev ApiProg := Prog ApiOp ApiOp.Ans ApiError

/-- A statement whose error is wrapped in a message. -/
def query (q : ApiQuery) (context : String) : ApiProg q.Result := do
  let answer ← Prog.perform (ApiOp.sql q)
  Prog.ofExcept (Except.mapError (fun err => ApiError.internal (context ++ err)) answer)

def nowUtc : ApiProg Int := Prog.perform ApiOp.nowUtc

def newUuid : ApiProg Uuid := Prog.perform ApiOp.newUuid

/-! ## Effects -/

namespace ApiWorld

variable (w : ApiWorld)

def trigger? (tenantId : String) (triggerId : Uuid) : Option TriggerRecord :=
  w.triggers.find? fun row => row.tenantId = tenantId && row.id = triggerId

def tenantTriggers (tenantId : String) : Nat :=
  w.triggers.countP fun row => row.tenantId = tenantId

def activeMemory (b : Backend) (tenantId : String) : Nat :=
  w.memoryRecords.countP fun row => row.key.tenantId = tenantId && row.isActive b w.clock

def updateTrigger (tenantId : String) (triggerId : Uuid) (f : TriggerRecord → TriggerRecord) :
    ApiWorld :=
  { w with triggers := w.triggers.map fun row =>
      if row.tenantId = tenantId && row.id = triggerId then f row else row }

/-- The primary key is free and the referenced rows exist. -/
def AllowsTrigger (b : Backend) (row : TriggerRecord) : Prop :=
  row.id ∉ w.triggers.map (·.id) ∧ row.agentId ∈ w.agents ∧
    (∀ user, row.triggeredByUserId = some user → user ∈ w.users) ∧ row.checked b = true

def AllowsMemory (row : MemoryRow) : Prop :=
  row.id ∉ w.memoryRecords.map (·.id) ∧ row.key.agentId ∈ w.agents ∧
    (∀ run, row.runId = some run → run ∈ w.runs.map (·.id)) ∧
    ∀ step, row.stepId = some step → step ∈ w.steps.map (·.id)

end ApiWorld

/-- What a statement at the time of the world answers and does. -/
def queryEffect (b : Backend) (w : ApiWorld) : (q : ApiQuery) → q.Result → ApiWorld → Prop
  | .countTenantTriggers tenantId, answer, w' => answer = w.tenantTriggers tenantId ∧ w' = w
  | .countTenantMemoryRecords tenantId, answer, w' =>
    answer = w.activeMemory b tenantId ∧ w' = w
  | .insertTrigger new, answer, w' =>
    w.AllowsTrigger b answer ∧ answer = new.row b w.clock ∧
      w' = { w with triggers := w.triggers ++ [answer] }
  | .getTrigger tenantId triggerId, answer, w' =>
    answer = w.trigger? tenantId triggerId ∧ w' = w
  | .updateTriggerConfig tenantId triggerId update, answer, w' =>
    answer = (w.trigger? tenantId triggerId).map (update.row b w.clock) ∧
      (∀ row, answer = some row → row.checked b = true) ∧
      w' = w.updateTrigger tenantId triggerId (update.row b w.clock)
  | .findHeartbeatTrigger tenantId agentId candidate schedule, answer, w' =>
    (∀ row ∈ w.triggers, candidate.isFoundIn schedule tenantId agentId row = true →
        ∃ newest ∈ w.triggers, candidate.isFoundIn schedule tenantId agentId newest = true ∧
          answer = some newest.id ∧ ¬ isNewer b row newest) ∧
      ((∀ row ∈ w.triggers, candidate.isFoundIn schedule tenantId agentId row = false) →
        answer = none) ∧ w' = w
  | .getRunStatus tenantId runId, answer, w' =>
    answer = decide (⟨runId, tenantId⟩ ∈ w.runs) ∧ w' = w
  | .countSteps stepId runId tenantId, answer, w' =>
    answer = w.steps.count ⟨stepId, runId, tenantId⟩ ∧ w' = w
  | .insertMemoryRecord new, answer, w' =>
    w.AllowsMemory answer ∧ answer = new.stored b w.clock ∧
      w' = { w with memoryRecords := w.memoryRecords ++ [answer] }
  | .appendTriggerAuditEvent event, _, w' =>
    event.triggerId ∈ w.triggers.map (·.id) ∧
      w' = { w with triggerAudit := w.triggerAudit ++ [event] }
  | .appendAuditEvent event, _, w' =>
    event.runId ∈ w.runs.map (·.id) ∧ w' = { w with runAudit := w.runAudit ++ [event] }

/-- A statement fails where it has no result, or where its connection is lost. -/
def queryStep (b : Backend) (faults : Bool) (w : ApiWorld) (q : ApiQuery) :
    Except String q.Result → ApiWorld → Prop
  | .ok result, w' => queryEffect b w q result w'
  | .error _, w' => (w' = w ∧ ∀ result w₁, ¬ queryEffect b w q result w₁) ∨
      faults = true ∧ (w' = w ∨ ∃ result, queryEffect b w q result w')

def apiStep (b : Backend) (faults : Bool) (w : ApiWorld) : (op : ApiOp) → op.Ans → ApiWorld → Prop
  | .nowUtc, answer, w' => answer = w.clock ∧ w' = w
  | .newUuid, answer, w' =>
    (answer ∉ w.triggers.map (·.id) ∧ answer ∉ w.memoryRecords.map (·.id)) ∧ w' = w
  | .loadHeartbeat .., _, w' => w' = w
  | .sql q, answer, w' => queryStep b faults w q answer w'

end Api
end SecureAgnt

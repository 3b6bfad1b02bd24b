/-
The functions that change the configuration of a trigger and its status.

An update reads the row, overlays what the caller gives and writes every column of the
configuration back.  Postgres computes a new `next_fire_at` with it, SQLite leaves that
column alone.
-/
import SecureAgnt.Trigger.Dispatch

namespace SecureAgnt
namespace Trigger

open Storage

/-! ## Configurations -/

/-- The columns that an update writes. -/
structure TriggerConfig where
  intervalSeconds : Option { n : Int // 0 < n }
  cronExpression : Option String
  scheduleTimezone : String
  misfirePolicy : MisfirePolicy
  maxAttempts : { n : Int // 0 < n }
  maxInflightRuns : { n : Int // 0 < n }
  jitterSeconds : Int
  webhookSecretRef : Option String

def Schedule.intervalSeconds : Schedule → Option { n : Int // 0 < n }
  | .interval seconds => some seconds
  | _ => none

def Schedule.cronExpression : Schedule → Option String
  | .cron expression => some expression
  | _ => none

def TriggerRow.config (row : TriggerRow) : TriggerConfig where
  intervalSeconds := row.schedule.intervalSeconds
  cronExpression := row.schedule.cronExpression
  scheduleTimezone := row.scheduleTimezone
  misfirePolicy := row.misfirePolicy
  maxAttempts := ⟨row.maxAttempts, row.maxAttempts_pos⟩
  maxInflightRuns := ⟨row.maxInflightRuns, row.maxInflightRuns_pos⟩
  jitterSeconds := row.jitterSeconds
  webhookSecretRef := row.webhookSecretRef

/-- The table's check `triggers_interval_seconds_check` of the columns of a schedule. -/
def TriggerConfig.schedule? (config : TriggerConfig) : TriggerType → Option Schedule
  | .interval =>
    match config.intervalSeconds, config.cronExpression with
    | some seconds, none => some (.interval seconds)
    | _, _ => none
  | .cron =>
    match config.intervalSeconds, config.cronExpression with
    | none, some expression => some (.cron expression)
    | _, _ => none
  | .webhook =>
    match config.intervalSeconds, config.cronExpression with
    | none, none => some .webhook
    | _, _ => none

/-- What the caller gives, each value within the bounds of its column. -/
structure UpdateTriggerParams where
  intervalSeconds : Option { n : Int // 0 < n } := none
  cronExpression : Option String := none
  scheduleTimezone : Option { timezone : String // timezone ≠ "" } := none
  misfirePolicy : Option MisfirePolicy := none
  maxAttempts : Option { n : Int // 0 < n } := none
  maxInflightRuns : Option { n : Int // 0 < n } := none
  jitterSeconds : Option { n : Int // 0 ≤ n ∧ n ≤ 3600 } := none
  webhookSecretRef : Option String := none

namespace UpdateTriggerParams

variable (params : UpdateTriggerParams)

def merge (existing : TriggerConfig) : TriggerConfig where
  intervalSeconds := params.intervalSeconds.or existing.intervalSeconds
  cronExpression := params.cronExpression.or existing.cronExpression
  scheduleTimezone := (params.scheduleTimezone.map (·.val)).getD existing.scheduleTimezone
  misfirePolicy := params.misfirePolicy.getD existing.misfirePolicy
  maxAttempts := params.maxAttempts.getD existing.maxAttempts
  maxInflightRuns := params.maxInflightRuns.getD existing.maxInflightRuns
  jitterSeconds := (params.jitterSeconds.map (·.val)).getD existing.jitterSeconds
  webhookSecretRef := params.webhookSecretRef.or existing.webhookSecretRef

/-- The SQLite handler takes a blank reference for none. -/
def trimmed : UpdateTriggerParams :=
  { params with
    webhookSecretRef := (params.webhookSecretRef.map Text.trim).filter (!Text.isEmpty ·) }

/-- Why the handlers refuse the fields for a type of triggers. -/
def mismatch : TriggerType → Option String
  | .interval =>
    if params.cronExpression.isSome || params.scheduleTimezone.isSome then
      some "interval trigger does not support cron schedule fields"
    else none
  | .cron =>
    if params.intervalSeconds.isSome then some "cron trigger does not support interval_seconds"
    else none
  | .webhook =>
    if params.intervalSeconds.isSome || params.cronExpression.isSome ||
        params.scheduleTimezone.isSome then
      some "webhook trigger does not support schedule fields"
    else none

end UpdateTriggerParams

/-! ## Updates of a row -/

/-- The row with a new configuration, and with a new `next_fire_at` if there is one. -/
def TriggerRow.withConfig (config : TriggerConfig) (nextFireAt : Option Int) (row : TriggerRow) :
    TriggerRow :=
  { row with
    schedule := (config.schedule? row.triggerType).getD row.schedule
    scheduleTimezone := config.scheduleTimezone
    misfirePolicy := config.misfirePolicy
    maxAttempts := config.maxAttempts.val
    maxAttempts_pos := config.maxAttempts.property
    maxInflightRuns := config.maxInflightRuns.val
    maxInflightRuns_pos := config.maxInflightRuns.property
    jitterSeconds := config.jitterSeconds
    webhookSecretRef := config.webhookSecretRef
    nextFireAt := nextFireAt.getD row.nextFireAt }

def TriggerRow.withStatus (enabled : Bool) (row : TriggerRow) : TriggerRow := { row with enabled }

theorem TriggerConfig.triggerType_of_schedule? {config : TriggerConfig} {type : TriggerType}
    {schedule : Schedule} (h : config.schedule? type = some schedule) :
    schedule.triggerType = type := by
  unfold TriggerConfig.schedule? at h
  cases type with
  | interval =>
    dsimp only at h
    split at h
    · cases h
      rfl
    · cases h
  | cron =>
    dsimp only at h
    split at h
    · cases h
      rfl
    · cases h
  | webhook =>
    dsimp only at h
    split at h
    · cases h
      rfl
    · cases h

theorem TriggerRow.withConfig_triggerType (config : TriggerConfig) (nextFireAt : Option Int)
    (row : TriggerRow) : (row.withConfig config nextFireAt).triggerType = row.triggerType := by
  show ((config.schedule? row.triggerType).getD row.schedule).triggerType = row.triggerType
  cases h : config.schedule? row.triggerType with
  | none => rfl
  | some schedule => exact config.triggerType_of_schedule? h

/-- `WHERE tenant_id = ... AND id = ...` -/
def ofTenant (tenantId : String) (change : TriggerRow → TriggerRow) (row : TriggerRow) :
    TriggerRow :=
  if row.tenantId = tenantId then change row else row

def configEdit (tenantId : String) (config : TriggerConfig) (nextFireAt : Option Int) :
    TriggerEdit where
  change := ofTenant tenantId (·.withConfig config nextFireAt)
  keeps_id row := by
    unfold ofTenant
    split <;> rfl
  keeps_type row := by
    unfold ofTenant
    split
    · exact row.withConfig_triggerType config nextFireAt
    · rfl

def statusEdit (tenantId : String) (enabled : Bool) : TriggerEdit where
  change := ofTenant tenantId (·.withStatus enabled)
  keeps_id row := by
    unfold ofTenant
    split <;> rfl
  keeps_type row := by
    unfold ofTenant
    split <;> rfl

/-! ## Postgres -/

/-- `UPDATE ... RETURNING` of one trigger. -/
def updateReturning (tenantId triggerId : String) (edit : TriggerEdit) :
    TriggerProg (Option TriggerRow) :=
  inTransaction do
    sql (.edit (.editTrigger triggerId edit))
    let updated ← sql (.selectTrigger tenantId triggerId)
    commit updated

def updateTriggerStatus (tenantId triggerId : String) (enabled : Bool) :
    TriggerProg (Option TriggerRow) :=
  updateReturning tenantId triggerId (statusEdit tenantId enabled)

/-- The next instant, before jitter, after an update. -/
def regularFireAt (rt : TriggerRuntime) (existing : TriggerRow) (config : TriggerConfig) :
    TriggerProg Int :=
  match existing.triggerType with
  | .interval => do
    let now ← nowUtc
    .pure (now + (config.intervalSeconds.map (·.val)).getD 60 * second)
  | .cron =>
    match config.cronExpression with
    | none => .fail (.protocol "cron trigger requires cron_expression")
    | some expression => do
      let now ← nowUtc
      match rt.nextCronFireAt expression config.scheduleTimezone now with
      | .ok value => .pure value
      | .error message => .fail (.protocol message)
  | .webhook => .pure existing.nextFireAt

def writeConfig (tenantId : String) (existing : TriggerRow) (config : TriggerConfig)
    (nextFireAt : Int) : TriggerProg (Option TriggerRow) :=
  match config.schedule? existing.triggerType with
  | none => .fail (.checkViolation "triggers_interval_seconds_check")
  | some _ => updateReturning tenantId existing.id (configEdit tenantId config (some nextFireAt))

def updateTriggerConfig (rt : TriggerRuntime) (tenantId triggerId : String)
    (params : UpdateTriggerParams) : TriggerProg (Option TriggerRow) := do
  let found ← sql (.selectTrigger tenantId triggerId)
  match (found : Option TriggerRow) with
  | none => .pure none
  | some existing => do
    let config := params.merge existing.config
    let regular ← regularFireAt rt existing config
    let entropyTime ← nowUtc
    let nextFireAt := applyJitter rt regular existing.id config.jitterSeconds entropyTime
    writeConfig tenantId existing config nextFireAt

/-! ## The handlers -/

inductive TriggerMutationOutcome where
  | updated (trigger : TriggerRow)
  | rejected (message : String)

def TriggerMutationOutcome.ofRow : Option TriggerRow → TriggerMutationOutcome
  | some trigger => .updated trigger
  | none => .rejected "trigger not found"

/-- The update of the SQLite handlers; where no row was updated, the lookup after it
finds none. -/
def updateTriggerSqlite (tenantId triggerId : String) (edit : TriggerEdit) :
    TriggerProg (Option TriggerRow) := do
  autocommit (.edit (.editTrigger triggerId edit))
  let updated ← sql (.selectTrigger tenantId triggerId)
  .pure updated

def changeConfig (rt : TriggerRuntime) (b : Backend) (tenantId triggerId : String)
    (existing : TriggerRow) (params : UpdateTriggerParams) : TriggerProg (Option TriggerRow) :=
  match b with
  | .postgres => updateTriggerConfig rt tenantId triggerId params
  | .sqlite =>
    let config := params.trimmed.merge existing.config
    updateTriggerSqlite tenantId triggerId (configEdit tenantId config none)

def changeStatus (b : Backend) (tenantId triggerId : String) (enabled : Bool) :
    TriggerProg (Option TriggerRow) :=
  match b with
  | .postgres => updateTriggerStatus tenantId triggerId enabled
  | .sqlite => updateTriggerSqlite tenantId triggerId (statusEdit tenantId enabled)

/-- The part of `update_trigger_handler` between the caller's credentials and the
audit event. -/
def updateTrigger (rt : TriggerRuntime) (b : Backend) (tenantId triggerId : String)
    (params : UpdateTriggerParams) : TriggerProg TriggerMutationOutcome := do
  let found ← sql (.selectTrigger tenantId triggerId)
  match (found : Option TriggerRow) with
  | none => .pure (.rejected "trigger not found")
  | some existing =>
    match params.mismatch existing.triggerType with
    | some message => .pure (.rejected message)
    | none => do
      let updated ← changeConfig rt b tenantId triggerId existing params
      .pure (.ofRow updated)

/-- The part of `set_trigger_status_handler` between the caller's credentials and the
audit event. -/
def setTriggerStatus (b : Backend) (tenantId triggerId : String) (enabled : Bool) :
    TriggerProg TriggerMutationOutcome := do
  let found ← sql (.selectTrigger tenantId triggerId)
  match (found : Option TriggerRow) with
  | none => .pure (.rejected "trigger not found")
  | some _ => do
    let updated ← changeStatus b tenantId triggerId enabled
    .pure (.ofRow updated)

end Trigger
end SecureAgnt

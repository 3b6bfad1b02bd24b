/-
The functions that fire triggers, on both back ends: the dispatchers of due interval
and cron triggers and of webhook events, the manual fire, and the functions that
enqueue an event and replay a dead-lettered one.
-/
import SecureAgnt.Trigger.Statement

namespace SecureAgnt
namespace Trigger

open Storage
open Runs (RunRow TriggerDispatchRecord)

/-- Library functions: the hash of a trigger and a time, the next instant of a cron
expression in a time zone, the length of a value as JSON text and the hex digest of
that text. -/
structure TriggerRuntime where
  jitterHash : String → Int → Nat
  nextCronFireAt : String → String → Int → Except String Int
  serializedLen : Json → Nat
  sha256Hex : Json → String

/-! ## Values -/

def second : Int := 10 ^ 9

def applyJitter (rt : TriggerRuntime) (scheduledFor : Int) (triggerId : String)
    (jitterSeconds entropyTime : Int) : Int :=
  if jitterSeconds ≤ 0 then scheduledFor
  else scheduledFor + (rt.jitterHash triggerId entropyTime % (jitterSeconds.toNat + 1) : Nat) * second

def mergeJsonObjects (primary overlay : Json) : Json :=
  match primary with
  | .obj fields =>
    match overlay with
    | .obj overlayFields =>
      .obj (overlayFields.foldl (fun merged f => Json.insertField f.1 f.2 merged) fields)
    | _ => .obj fields
  | other => .obj [("input", other), ("_trigger", overlay)]

def injectTraceId (input : Json) (traceId : String) : Json :=
  match input with
  | .obj fields => .obj (Json.insertField "_trace" (.str traceId) fields)
  | other => .obj [("_trace", .str traceId), ("input", other)]

def triggerErrorPayload (code message reasonClass : String) : Json :=
  .obj [("code", .str code), ("message", .str message), ("reason_class", .str reasonClass)]

def misfireSkipped : Json :=
  triggerErrorPayload "MISFIRE_SKIPPED" "interval trigger misfire skipped" "trigger_policy"

def cronComputeFailed (message : String) : Json :=
  triggerErrorPayload "CRON_COMPUTE_FAILED" message "schedule"

def eventPayloadTooLarge : Json :=
  triggerErrorPayload "EVENT_PAYLOAD_TOO_LARGE" "webhook trigger event payload exceeded 64KB"
    "event_payload"

def maxEventPayloadBytes : Nat := 64 * 1024

def TriggerRuntime.tooLarge (rt : TriggerRuntime) (payload : Json) : Bool :=
  rt.serializedLen payload > maxEventPayloadBytes

def webhookEnvelope (triggerId eventId : String) (payload : Json) : Json :=
  .obj [("_trigger", .obj [("type", .str "webhook"), ("trigger_id", .str triggerId),
    ("event_id", .str eventId)]), ("event_payload", payload)]

def manualEnvelope (triggerId idempotencyKey : String) (payload : Option Json) : Json :=
  .obj [("_trigger", .obj [("type", .str "manual"), ("trigger_id", .str triggerId),
    ("idempotency_key", .str idempotencyKey)]), ("manual_payload", payload.getD .null)]

/-- The dedupe key of a manual fire. -/
def manualKey (b : Backend) (idempotencyKey : String) : String :=
  match b with
  | .postgres => "manual:" ++ idempotencyKey
  | .sqlite => idempotencyKey

/-- `unix_timestamp_nanos().to_string()`. -/
def slotKey (scheduledFor : Int) : String := toString scheduledFor

/-- The dedupe key under which each kind of firing is entered. -/
def Source.dedupeKey (b : Backend) : Source → String
  | .slot scheduledFor => slotKey scheduledFor
  | .event eventId => eventId
  | .manual idempotencyKey => manualKey b idempotencyKey

/-- The row of a new run; the statement fills in the time. -/
def newRun (trigger : TriggerRow) (runId : String) (input : Json) : RunRecord where
  id := runId
  tenantId := trigger.tenantId
  agentId := trigger.agentId
  triggeredByUserId := trigger.triggeredByUserId
  recipeId := trigger.recipeId
  status := .queued
  inputJson := input
  grantedCapabilities := trigger.grantedCapabilities
  requestedCapabilities := trigger.requestedCapabilities
  createdAt := 0

def createdRow (b : Backend) (rowId triggerId runId : String) (scheduledFor : Int)
    (source : Source) : TriggerRunRow where
  id := rowId
  triggerId := triggerId
  runId := some runId
  scheduledFor := scheduledFor
  status := .created
  dedupeKey := source.dedupeKey b
  errorJson := none
  source := source

def failedRow (b : Backend) (rowId triggerId : String) (scheduledFor : Int) (source : Source)
    (error : Json) : TriggerRunRow where
  id := rowId
  triggerId := triggerId
  runId := none
  scheduledFor := scheduledFor
  status := .failed
  dedupeKey := source.dedupeKey b
  errorJson := some error
  source := source

def dispatchRecord (trigger : TriggerRow) (triggerType : String) (triggerEventId : Option String)
    (runId : String) (scheduledFor nextFireAt : Int) : TriggerDispatchRecord where
  triggerId := trigger.id
  triggerType := triggerType
  triggerEventId := triggerEventId
  runId := runId
  tenantId := trigger.tenantId
  agentId := trigger.agentId
  triggeredByUserId := trigger.triggeredByUserId
  recipeId := trigger.recipeId
  scheduledFor := scheduledFor
  nextFireAt := nextFireAt

/-! ## Transactions -/

/-- `pool.begin()`; a transaction that is dropped before its commit is rolled back. -/
def inTransaction {α : Type} (body : TriggerProg α) : TriggerProg α := do
  sql .begin
  let result ← body.attempt
  match result with
  | .ok value => .pure value
  | .error e => do
    Prog.perform Stmt.rollback
    .fail e

def commit {α : Type} (value : α) : TriggerProg α := do
  sql .commit
  .pure value

/-- A statement outside a transaction is one of its own. -/
def autocommit (query : Query) : TriggerProg query.Result :=
  inTransaction do
    let result ← sql query
    commit result

def nowUtc : TriggerProg Int := Prog.perform Stmt.nowUtc

def newUuid : TriggerProg String := Prog.perform Stmt.newUuid

/-! ## Scheduled triggers -/

/-- Postgres updates the row it has locked, SQLite only if nothing changed it. -/
def advanceTrigger (b : Backend) (trigger : TriggerRow) (change : TriggerChange) :
    TriggerProg Bool :=
  match b with
  | .postgres => do
    sql (.updateTrigger trigger.id change)
    .pure true
  | .sqlite => sql (.reserveTrigger trigger.id trigger.nextFireAt change)

def insertCreated (b : Backend) (triggerId runId : String) (scheduledFor : Int) (source : Source) :
    TriggerProg Unit := do
  let rowId ← newUuid
  sql (.insertTriggerRun (createdRow b rowId triggerId runId scheduledFor source))

def insertFailed (b : Backend) (triggerId : String) (scheduledFor : Int) (source : Source)
    (error : Json) : TriggerProg Unit := do
  let rowId ← newUuid
  sql (.insertTriggerRun (failedRow b rowId triggerId scheduledFor source error))

/-- A slot that creates no run: the trigger is moved on or taken out, and the ledger
says why. -/
def failSlot (b : Backend) (trigger : TriggerRow) (change : TriggerChange) (error : Json) :
    TriggerProg (Option TriggerDispatchRecord) := do
  let reserved ← advanceTrigger b trigger change
  if reserved then
    insertFailed b trigger.id trigger.nextFireAt (.slot trigger.nextFireAt) error
    commit none
  else
    commit none

/-- Postgres creates the run first, SQLite reserves the slot first. -/
def fireSlot (b : Backend) (trigger : TriggerRow) (triggerType : TriggerType) (nextFireAt : Int) :
    TriggerProg (Option TriggerDispatchRecord) :=
  let scheduledFor := trigger.nextFireAt
  match b with
  | .postgres => do
    let runId ← newUuid
    sql (.insertRun (newRun trigger runId trigger.inputJson))
    sql (.updateTrigger trigger.id (.fire nextFireAt))
    insertCreated .postgres trigger.id runId scheduledFor (.slot scheduledFor)
    commit (some (dispatchRecord trigger triggerType.text none runId scheduledFor nextFireAt))
  | .sqlite => do
    let runId ← newUuid
    let reserved ← sql (.reserveTrigger trigger.id scheduledFor (.fire nextFireAt))
    if reserved then
      sql (.insertRun (newRun trigger runId (injectTraceId trigger.inputJson runId)))
      insertCreated .sqlite trigger.id runId scheduledFor (.slot scheduledFor)
      commit (some (dispatchRecord trigger triggerType.text none runId scheduledFor nextFireAt))
    else
      commit none

def fireInterval (rt : TriggerRuntime) (b : Backend) (trigger : TriggerRow) (seconds : Int) :
    TriggerProg (Option TriggerDispatchRecord) := do
  let scheduledFor := trigger.nextFireAt
  let now ← nowUtc
  let interval := seconds * second
  if trigger.misfirePolicy = .skip ∧ now - scheduledFor ≥ interval then
    let nextFireAt := applyJitter rt (now + interval) trigger.id trigger.jitterSeconds now
    failSlot b trigger (.skip nextFireAt) misfireSkipped
  else
    let nextFireAt := applyJitter rt (scheduledFor + interval) trigger.id trigger.jitterSeconds now
    fireSlot b trigger .interval nextFireAt

def fireCron (rt : TriggerRuntime) (b : Backend) (trigger : TriggerRow) (expression : String) :
    TriggerProg (Option TriggerDispatchRecord) :=
  let scheduledFor := trigger.nextFireAt
  match rt.nextCronFireAt expression trigger.scheduleTimezone scheduledFor with
  | .ok value =>
    let nextFireAt := applyJitter rt value trigger.id trigger.jitterSeconds scheduledFor
    fireSlot b trigger .cron nextFireAt
  | .error message =>
    failSlot b trigger (.deadLetter ("SCHEDULE_COMPUTE_FAILED: " ++ message))
      (cronComputeFailed message)

/-- A due trigger lacks the column of its type only where the table's checks are gone. -/
def fireScheduled (rt : TriggerRuntime) (b : Backend) (type : TriggerType) (trigger : TriggerRow) :
    TriggerProg (Option TriggerDispatchRecord) :=
  match type, trigger.schedule with
  | .interval, .interval seconds => fireInterval rt b trigger seconds.val
  | .cron, .cron expression => fireCron rt b trigger expression
  | _, _ => .fail (.decode "trigger_type")

/-- The frame that the interval and the cron dispatcher share. -/
def dispatchNextDueScheduled (rt : TriggerRuntime) (b : Backend) (type : TriggerType)
    (tenantMaxInflightRuns : Int) : TriggerProg (Option TriggerDispatchRecord) :=
  inTransaction do
    let candidate ← sql (.selectDueTrigger type (max tenantMaxInflightRuns 1))
    match (candidate : Option TriggerRow) with
    | none => commit none
    | some trigger => fireScheduled rt b type trigger

def dispatchNextDueIntervalTriggerWithLimits (rt : TriggerRuntime) (b : Backend)
    (tenantMaxInflightRuns : Int) : TriggerProg (Option TriggerDispatchRecord) :=
  dispatchNextDueScheduled rt b .interval tenantMaxInflightRuns

def dispatchNextDueCronTrigger (rt : TriggerRuntime) (b : Backend) (tenantMaxInflightRuns : Int) :
    TriggerProg (Option TriggerDispatchRecord) :=
  dispatchNextDueScheduled rt b .cron tenantMaxInflightRuns

/-! ## Webhook events -/

/-- Postgres updates the event it has locked, SQLite only if it is still pending. -/
def advanceEvent (b : Backend) (event : EventRow) (change : EventChange) : TriggerProg Bool :=
  match b with
  | .postgres => do
    sql (.updateEvent event.id change)
    .pure true
  | .sqlite =>
    sql (.reserveEvent (fun row => row.id = event.id && row.status = .pending) change)

/-- An attempt that fails because the payload is too large. -/
def failEvent (b : Backend) (event : EventRow) (trigger : TriggerRow) (scheduledFor : Int) :
    TriggerProg (Option TriggerDispatchRecord) := do
  let nextAttempt := event.attempts + 1
  let deadLetter := decide (nextAttempt ≥ trigger.maxAttempts)
  let reserved ← advanceEvent b event (.fail deadLetter eventPayloadTooLarge)
  if reserved then
    insertFailed b trigger.id scheduledFor (.event event.eventId) eventPayloadTooLarge
    commit none
  else
    commit none

def eventRunInput (event : EventRow) (trigger : TriggerRow) (runId : String) : Json :=
  injectTraceId (mergeJsonObjects trigger.inputJson
    (webhookEnvelope trigger.id event.eventId event.payloadJson)) runId

/-- Postgres creates the run first, SQLite reserves the event first. -/
def fireEvent (b : Backend) (event : EventRow) (trigger : TriggerRow) (scheduledFor : Int) :
    TriggerProg (Option TriggerDispatchRecord) :=
  match b with
  | .postgres => do
    let runId ← newUuid
    sql (.insertRun (newRun trigger runId (eventRunInput event trigger runId)))
    sql (.updateEvent event.id .process)
    sql (.updateTrigger trigger.id .touch)
    insertCreated .postgres trigger.id runId scheduledFor (.event event.eventId)
    commit (some (dispatchRecord trigger "webhook" (some event.eventId) runId scheduledFor
      scheduledFor))
  | .sqlite => do
    let reserved ← advanceEvent .sqlite event .process
    if reserved then
      let runId ← newUuid
      sql (.insertRun (newRun trigger runId (eventRunInput event trigger runId)))
      sql (.updateTrigger trigger.id .touch)
      insertCreated .sqlite trigger.id runId scheduledFor (.event event.eventId)
      commit (some (dispatchRecord trigger "webhook" (some event.eventId) runId scheduledFor
        scheduledFor))
    else
      commit none

def dispatchEvent (rt : TriggerRuntime) (b : Backend) (event : EventRow) (trigger : TriggerRow) :
    TriggerProg (Option TriggerDispatchRecord) := do
  let scheduledFor ← nowUtc
  if rt.tooLarge event.payloadJson then
    failEvent b event trigger scheduledFor
  else
    fireEvent b event trigger scheduledFor

def dispatchNextDueWebhookEvent (rt : TriggerRuntime) (b : Backend) (tenantMaxInflightRuns : Int) :
    TriggerProg (Option TriggerDispatchRecord) :=
  inTransaction do
    let candidate ← sql (.selectDueEvent (max tenantMaxInflightRuns 1))
    match (candidate : Option (EventRow × TriggerRow)) with
    | none => commit none
    | some (event, trigger) => dispatchEvent rt b event trigger

/-! ## All kinds in turn -/

/-- What is tried when no webhook event was dispatched. -/
def dispatchNextDueTimer (rt : TriggerRuntime) (b : Backend) (tenantMaxInflightRuns : Int) :
    TriggerProg (Option TriggerDispatchRecord) := do
  let dispatched ← dispatchNextDueCronTrigger rt b tenantMaxInflightRuns
  match (dispatched : Option TriggerDispatchRecord) with
  | some dispatch => .pure (some dispatch)
  | none => dispatchNextDueIntervalTriggerWithLimits rt b tenantMaxInflightRuns

def dispatchNextDueTriggerWithLimits (rt : TriggerRuntime) (b : Backend)
    (tenantMaxInflightRuns : Int) : TriggerProg (Option TriggerDispatchRecord) := do
  let dispatched ← dispatchNextDueWebhookEvent rt b tenantMaxInflightRuns
  match (dispatched : Option TriggerDispatchRecord) with
  | some dispatch => .pure (some dispatch)
  | none => dispatchNextDueTimer rt b tenantMaxInflightRuns

/-! ## Manual fires -/

/-- How a manual fire is answered; `rejected` carries the message of the API. -/
inductive ManualTriggerFireOutcome where
  | created (runId : String) (dispatch : Option TriggerDispatchRecord)
  | duplicate (runId : Option String)
  | triggerUnavailable
  | inflightLimited
  | rejected (message : String)

def fireTriggerManuallyWithLimits (tenantId triggerId idempotencyKey : String)
    (payload : Option Json) (tenantMaxInflightRuns : Int) :
    TriggerProg ManualTriggerFireOutcome :=
  inTransaction do
    let candidate ← sql (.selectTriggerForUpdate tenantId triggerId)
    match (candidate : Option TriggerRow) with
    | none => commit .triggerUnavailable
    | some trigger =>
      let existing ← sql (.selectTriggerRun triggerId (manualKey .postgres idempotencyKey))
      match (existing : Option TriggerRunRow) with
      | some row => commit (.duplicate row.runId)
      | none =>
        let triggerInflight ← sql (.countTriggerInflight triggerId)
        let tenantInflight ← sql (.countTenantInflight trigger.tenantId)
        if (triggerInflight : Nat) ≥ trigger.maxInflightRuns ∨
            (tenantInflight : Nat) ≥ max tenantMaxInflightRuns 1 then
          commit .inflightLimited
        else
          let runId ← newUuid
          let scheduledFor ← nowUtc
          let runInput := injectTraceId (mergeJsonObjects trigger.inputJson
            (manualEnvelope triggerId idempotencyKey payload)) runId
          sql (.insertRun (newRun trigger runId runInput))
          sql (.updateTrigger triggerId .touch)
          insertCreated .postgres triggerId runId scheduledFor (.manual idempotencyKey)
          commit (.created runId (some (dispatchRecord trigger "manual" (some idempotencyKey) runId
            scheduledFor trigger.nextFireAt)))

def fireLoadedTriggerSqlite (trigger : TriggerRow) (triggerId idempotencyKey : String)
    (payload : Option Json) : TriggerProg ManualTriggerFireOutcome :=
  inTransaction do
    let existing ← sql (.selectTriggerRun triggerId (manualKey .sqlite idempotencyKey))
    match (existing : Option TriggerRunRow) with
    | some row =>
      -- a row without a run does not decode as a `String`
      match row.runId with
      | some runId => commit (.duplicate (some runId))
      | none => .fail (.decode "run_id")
    | none =>
      let runId ← newUuid
      let runInput := mergeJsonObjects trigger.inputJson
        (manualEnvelope triggerId idempotencyKey payload)
      sql (.insertRun (newRun trigger runId runInput))
      let scheduledFor ← nowUtc
      insertCreated .sqlite triggerId runId scheduledFor (.manual idempotencyKey)
      sql (.updateTrigger triggerId .touch)
      commit (.created runId none)

/-- The part of the SQLite handler behind the caller's credentials. -/
def fireTriggerSqlite (tenantId triggerId idempotencyKey : String) (payload : Option Json) :
    TriggerProg ManualTriggerFireOutcome :=
  let idempotencyKey := Text.trim idempotencyKey
  if Text.isEmpty idempotencyKey then .pure (.rejected "idempotency_key must not be empty")
  else if Text.len idempotencyKey > 128 then
    .pure (.rejected "idempotency_key exceeds maximum length of 128")
  else do
    let found ← sql (.selectTrigger tenantId triggerId)
    match (found : Option TriggerRow) with
    | none => .pure (.rejected "trigger not found")
    | some trigger =>
      if trigger.enabled = false ∨ trigger.deadLetteredAt.isSome then
        .pure (.rejected "trigger is not enabled")
      else
        fireLoadedTriggerSqlite trigger triggerId idempotencyKey payload

/-! ## Events -/

mutual
/-- `canonicalize_json_for_trigger_event_semantic_dedupe`. -/
def canonicalizeJson : Json → Json
  | .obj fields => .obj ((canonicalizeFields fields).insertionSort fun f g => f.1 ≤ g.1)
  | .arr items => .arr (canonicalizeItems items)
  | other => other

def canonicalizeFields : List (String × Json) → List (String × Json)
  | [] => []
  | (key, value) :: rest => (key, canonicalizeJson value) :: canonicalizeFields rest

def canonicalizeItems : List Json → List Json
  | [] => []
  | item :: rest => canonicalizeJson item :: canonicalizeItems rest
end

def computeTriggerEventSemanticDedupeKey (rt : TriggerRuntime) (tenantId triggerId : String)
    (payload : Json) : String :=
  rt.sha256Hex (.obj [("payload", canonicalizeJson payload), ("tenant_id", .str tenantId),
    ("trigger_id", .str triggerId)])

inductive TriggerEventEnqueueUnavailableReason where
  | triggerNotFound
  | triggerDisabled
  | triggerTypeMismatch
  | triggerScheduleBroken
  | payloadMalformed
  deriving DecidableEq, Repr

inductive TriggerEventEnqueueOutcome where
  | enqueued
  | duplicate
  | triggerUnavailable (reason : TriggerEventEnqueueUnavailableReason)
  | rejected (message : String)

/-- Why a trigger takes no event, in the order in which Postgres checks. -/
def TriggerRow.enqueueReason (trigger : TriggerRow) : Option TriggerEventEnqueueUnavailableReason :=
  if trigger.enabled = false then some .triggerDisabled
  else if trigger.triggerType ≠ .webhook then some .triggerTypeMismatch
  else if trigger.deadLetteredAt.isSome then some .triggerScheduleBroken
  else none

/-- Why a trigger takes no event, in the order in which the SQLite handler checks. -/
def TriggerRow.enqueueRejection (trigger : TriggerRow) : Option String :=
  if trigger.triggerType ≠ .webhook then some "trigger does not accept webhook events"
  else if trigger.enabled = false ∨ trigger.deadLetteredAt.isSome then
    some "trigger is not enabled"
  else none

/-- The statement fills in the times. -/
def newEvent (rt : TriggerRuntime) (rowId tenantId triggerId eventId : String) (payload : Json) :
    EventRow where
  id := rowId
  triggerId := triggerId
  tenantId := tenantId
  eventId := eventId
  semanticDedupeKey := some (computeTriggerEventSemanticDedupeKey rt tenantId triggerId payload)
  payloadJson := payload
  nextAttemptAt := 0
  createdAt := 0

def insertEvent (rt : TriggerRuntime) (tenantId triggerId eventId : String) (payload : Json) :
    TriggerProg TriggerEventEnqueueOutcome := do
  let rowId ← newUuid
  let inserted ← autocommit (.insertEvent (newEvent rt rowId tenantId triggerId eventId payload))
  if (inserted : Bool) then .pure .enqueued else .pure .duplicate

def enqueueTriggerEvent (rt : TriggerRuntime) (tenantId triggerId eventId : String)
    (payload : Json) : TriggerProg TriggerEventEnqueueOutcome :=
  if payload.asObject?.isNone then .pure (.triggerUnavailable .payloadMalformed)
  else do
    let found ← sql (.selectTrigger tenantId triggerId)
    match (found : Option TriggerRow) with
    | none => .pure (.triggerUnavailable .triggerNotFound)
    | some trigger =>
      match trigger.enqueueReason with
      | some reason => .pure (.triggerUnavailable reason)
      | none => insertEvent rt tenantId triggerId eventId payload

/-- The part of the SQLite handler behind the caller's credentials. -/
def ingestTriggerEventSqlite (rt : TriggerRuntime) (tenantId triggerId eventId : String)
    (payload : Json) : TriggerProg TriggerEventEnqueueOutcome :=
  if Text.isEmpty (Text.trim eventId) then .pure (.rejected "event_id must not be empty")
  else if payload.asObject?.isNone then
    .pure (.rejected "trigger event payload must be a JSON object")
  else do
    let found ← sql (.selectTrigger tenantId triggerId)
    match (found : Option TriggerRow) with
    | none => .pure (.rejected "trigger not found")
    | some trigger =>
      match trigger.enqueueRejection with
      | some message => .pure (.rejected message)
      | none => insertEvent rt tenantId triggerId eventId payload

inductive TriggerEventReplayOutcome where
  | requeued
  | notFound
  | notDeadLettered (status : EventStatus)
  deriving DecidableEq, Repr

def requeueDeadLetterTriggerEvent (tenantId triggerId eventId : String) :
    TriggerProg TriggerEventReplayOutcome :=
  inTransaction do
    let existing ← sql (.selectEventForUpdate tenantId triggerId eventId)
    match (existing : Option EventRow) with
    | none => commit .notFound
    | some event =>
      if event.status ≠ .deadLettered then commit (.notDeadLettered event.status)
      else
        let updated ← sql (.reserveEvent (fun row => row.triggerId = triggerId &&
          row.tenantId = tenantId && row.eventId = eventId) .requeue)
        if (updated : Bool) then commit .requeued
        else .fail (.protocol "failed to requeue locked dead-letter trigger event row")

/-- The part of the SQLite handler behind the caller's credentials. -/
def replayTriggerEventSqlite (tenantId triggerId eventId : String) :
    TriggerProg TriggerEventReplayOutcome := do
  let found ← sql (.selectTrigger tenantId triggerId)
  match (found : Option TriggerRow) with
  | none => .pure .notFound
  | some _ =>
    let updated ← autocommit (.reserveEvent (fun row => row.triggerId = triggerId &&
      row.eventId = eventId && row.status = .deadLettered) .requeue)
    if (updated : Bool) then .pure .requeued
    else
      let existing ← sql (.selectEvent triggerId eventId)
      match (existing : Option EventRow) with
      | some event => .pure (.notDeadLettered event.status)
      | none => .pure .notFound

end Trigger
end SecureAgnt

/-
Creating runs through the API.

A request is given a key, the digest of what it asks for.  The row of a new run
carries the key, a partial unique index admits one active run of a tenant under each
key, and a request whose key is taken is answered with the run that has it.  The
insert, the lookup, the audit event and the reload are statements of their own; the
workers go on between any two of them.
-/
import SecureAgnt.Lib.JsonText
import SecureAgnt.Lib.Uuid
import SecureAgnt.Policy.Resolve
import SecureAgnt.Runs.Cycle

namespace SecureAgnt
namespace Runs

open Storage
open Policy
open Worker (AuditEvent)

/-! ## The key of a request -/

/-- What the code takes from other crates: how floats are written, and SHA-256 in
hexadecimal. -/
structure DedupeRuntime where
  floats : FloatText
  digestSha256Hex : ByteArray → String

structure CreateRunRequest where
  agentId : Uuid
  triggeredByUserId : Option Uuid
  recipeId : String
  input : Json
  requestedCapabilities : Json
  isValue_input : input.IsValue
  isValue_requested : requestedCapabilities.IsValue

def roleText : RolePreset → String
  | .owner => "owner"
  | .operator => "operator"
  | .viewer => "viewer"

def sortFields (fields : List (String × Json)) : List (String × Json) :=
  fields.insertionSort fun left right => left.1 ≤ right.1

/-- The fields inserted one after the other into a new map. -/
def insertAll (fields : List (String × Json)) : List (String × Json) :=
  fields.foldl (fun canonical field => Json.insertField field.1 field.2 canonical) []

mutual

def canonicalizeJsonForSemanticDedupe : Json → Json
  | .obj fields => .obj (insertAll (sortFields (canonicalizeFields fields)))
  | .arr items => .arr (canonicalizeItems items)
  | .null => .null
  | .bool b => .bool b
  | .num n => .num n
  | .str s => .str s

def canonicalizeItems : List Json → List Json
  | [] => []
  | item :: items => canonicalizeJsonForSemanticDedupe item :: canonicalizeItems items

def canonicalizeFields : List (String × Json) → List (String × Json)
  | [] => []
  | (key, value) :: fields =>
    (key, canonicalizeJsonForSemanticDedupe value) :: canonicalizeFields fields

end

def dedupePayload (tenantId : String) (role : RolePreset) (req : CreateRunRequest) : Json :=
  .obj [
    ("agent_id", .str req.agentId.text),
    ("input", canonicalizeJsonForSemanticDedupe req.input),
    ("recipe_id", .str req.recipeId),
    ("requested_capabilities", canonicalizeJsonForSemanticDedupe req.requestedCapabilities),
    ("role_preset", .str (roleText role)),
    ("tenant_id", .str tenantId),
    ("triggered_by_user_id", (req.triggeredByUserId.map fun id => Json.str id.text).getD .null)]

def computeRunSemanticDedupeKey (rt : DedupeRuntime) (tenantId : String) (role : RolePreset)
    (req : CreateRunRequest) : String :=
  rt.digestSha256Hex (String.ofList (Json.write rt.floats (dedupePayload tenantId role req))).toByteArray

def injectTraceIdIntoInput (input : Json) (traceId : String) : Json :=
  match input with
  | .obj fields => .obj (Json.insertField "_trace" (.str traceId) fields)
  | other => .obj [("_trace", .str traceId), ("input", other)]

/-! ## The table of runs -/

structure NewRun where
  id : String
  tenantId : String
  agentId : String
  triggeredByUserId : Option String
  recipeId : String
  inputJson : Json
  requestedCapabilities : Json
  grantedCapabilities : Json

def makeNewRun (tenantId : String) (req : CreateRunRequest) (grantedCapabilities : Json)
    (runId : Uuid) : NewRun where
  id := runId.text
  tenantId := tenantId
  agentId := req.agentId.text
  triggeredByUserId := req.triggeredByUserId.map (·.text)
  recipeId := req.recipeId
  inputJson := injectTraceIdIntoInput req.input runId.text
  requestedCapabilities := req.requestedCapabilities
  grantedCapabilities := grantedCapabilities

def NewRun.row (new : NewRun) (createdAt : Int) : RunRow where
  id := new.id
  tenantId := new.tenantId
  agentId := new.agentId
  triggeredByUserId := new.triggeredByUserId
  recipeId := new.recipeId
  status := .queued
  inputJson := new.inputJson
  grantedCapabilities := new.grantedCapabilities
  createdAt := createdAt

/-- The columns of a run that the queue does not look at. -/
structure RunColumns where
  requestedCapabilities : Json
  semanticDedupeKey : Option String

def NewRun.columns (new : NewRun) (semanticDedupeKey : String) : RunColumns :=
  ⟨new.requestedCapabilities, some semanticDedupeKey⟩

/-- What a request did to the table or found in it. -/
inductive StoreNote (ι : Type) where
  | inserted (client : ι) (runId : String)
  | found (client : ι) (run : RunRow)

structure RunStore (ι : Type) where
  queue : QueueWorld
  columns : String → RunColumns
  notes : List (StoreNote ι)

def RunRow.isActive (row : RunRow) : Bool := row.status = .queued || row.status = .running

variable {ι : Type}

def RunStore.rows (s : RunStore ι) : List RunRow := s.queue.runs.rows

def RunStore.ids (s : RunStore ι) : List String := s.rows.map (·.id)

def RunStore.key (s : RunStore ι) (row : RunRow) : Option String :=
  (s.columns row.id).semanticDedupeKey

def RunStore.activeRuns (s : RunStore ι) (tenantId semanticDedupeKey : String) : List RunRow :=
  s.rows.filter fun row =>
    row.tenantId = tenantId && s.key row = some semanticDedupeKey && row.isActive

structure RunStatusRecord extends RunRow where
  requestedCapabilities : Json

def RunStore.record (s : RunStore ι) (row : RunRow) : RunStatusRecord :=
  { row with requestedCapabilities := (s.columns row.id).requestedCapabilities }

/-! ## Statements -/

inductive StoreOp where
  | queue (op : QueueOp)
  | newUuid
  | createRun (new : NewRun) (semanticDedupeKey : String)
  | getActiveRunId (tenantId semanticDedupeKey : String)
  | appendAuditEvent (event : AuditEvent)
  | getRunStatus (tenantId runId : String)

abbrev StoreAns : StoreOp → Type
  | .queue op => QueueAns op
  | .newUuid => Uuid
  | .createRun .. => Except String (Option String)
  | .getActiveRunId .. => Except String (Option String)
  | .appendAuditEvent _ => Except String Unit
  | .getRunStatus .. => Except String (Option RunStatusRecord)

/-- The row is inserted: its identifier is new and its key is free. -/
def RunStore.Inserts (s : RunStore ι) (client : ι) (new : NewRun) (semanticDedupeKey : String)
    (s' : RunStore ι) : Prop :=
  s.activeRuns new.tenantId semanticDedupeKey = [] ∧
    ∃ createdAt, ∃ hnew : (new.row createdAt).id ∉ s.queue.runs.rows.map (·.id),
      s' = {
        queue := { s.queue with runs := s.queue.runs.insert (new.row createdAt) hnew }
        columns := Function.update s.columns new.id (new.columns semanticDedupeKey)
        notes := s.notes ++ [.inserted client new.id] }

def RunStore.appended (s : RunStore ι) (event : AuditEvent) : RunStore ι :=
  { s with queue := { s.queue with
      log := s.queue.log ++ [.audited event.actor event.runId event.eventType] } }

/-- A run that is created by other means than a request has no key. -/
def RunStore.KeepsColumns (s s' : RunStore ι) : Prop :=
  (∀ id ∈ s.ids, s'.columns id = s.columns id) ∧
    ∀ id ∈ s'.ids, id ∉ s.ids → (s'.columns id).semanticDedupeKey = none

/-- A statement of a client.  One that fails may have taken effect before the
connection was lost. -/
def storeStep (b : Backend) (concurrent : Bool) (client : ι) (s : RunStore ι) :
    (op : StoreOp) → StoreAns op → RunStore ι → Prop
  | .queue op, answer, s' =>
    queueStep b concurrent s.queue op answer s'.queue ∧ s.KeepsColumns s' ∧ s'.notes = s.notes
  | .newUuid, _, s' => s' = s
  | .createRun new semanticDedupeKey, .error _, s' =>
    s' = s ∨ s.Inserts client new semanticDedupeKey s'
  | .createRun new semanticDedupeKey, .ok (some id), s' =>
    id = new.id ∧ s.Inserts client new semanticDedupeKey s'
  | .createRun new semanticDedupeKey, .ok none, s' =>
    s.activeRuns new.tenantId semanticDedupeKey ≠ [] ∧ s' = s
  | .getActiveRunId _ _, .error _, s' => s' = s
  | .getActiveRunId tenantId semanticDedupeKey, .ok none, s' =>
    s.activeRuns tenantId semanticDedupeKey = [] ∧ s' = s
  -- any active run under the key, so the order of the query does not matter
  | .getActiveRunId tenantId semanticDedupeKey, .ok (some id), s' =>
    ∃ row ∈ s.activeRuns tenantId semanticDedupeKey, row.id = id ∧
      s' = { s with notes := s.notes ++ [.found client row] }
  | .appendAuditEvent event, .error _, s' => s' = s ∨ s' = s.appended event
  | .appendAuditEvent event, .ok (), s' => s' = s.appended event
  | .getRunStatus _ _, .error _, s' => s' = s
  | .getRunStatus tenantId runId, .ok found, s' =>
    found = (s.rows.find? fun row => row.tenantId = tenantId && row.id = runId).map s.record ∧
      s' = s

def storeHandler (b : Backend) (concurrent : Bool) (client : ι) :
    Handler StoreOp StoreAns (RunStore ι) :=
  ⟨storeStep b concurrent client⟩

/-! ## Requests -/

inductive StatusCode where
  | ok
  | created
  | badRequest
  | conflict
  | internalServerError
  deriving DecidableEq, Repr

structure ApiError where
  status : StatusCode
  code : String
  message : String
  deriving DecidableEq, Repr

def ApiError.badRequest (message : String) : ApiError := ⟨.badRequest, "BAD_REQUEST", message⟩

def ApiError.conflict (message : String) : ApiError := ⟨.conflict, "CONFLICT", message⟩

def ApiError.internal (message : String) : ApiError :=
  ⟨.internalServerError, "INTERNAL", message⟩

structure RunResponse where
  id : String
  tenantId : String
  agentId : String
  triggeredByUserId : Option String
  recipeId : String
  status : RunStatus
  traceId : Option String
  requestedCapabilities : Json
  grantedCapabilities : Json
  createdAt : Int
  startedAt : Option Int
  finishedAt : Option Int
  errorJson : Option Json
  attempts : Int
  leaseOwner : Option String
  leaseExpiresAt : Option Int

def runToResponse (run : RunStatusRecord) : RunResponse where
  id := run.id
  tenantId := run.tenantId
  agentId := run.agentId
  triggeredByUserId := run.triggeredByUserId
  recipeId := run.recipeId
  status := run.status
  traceId := extractTraceIdFromRunInput run.inputJson
  requestedCapabilities := run.requestedCapabilities
  grantedCapabilities := run.grantedCapabilities
  createdAt := run.createdAt
  startedAt := run.startedAt
  finishedAt := run.finishedAt
  errorJson := run.errorJson
  attempts := run.attempts
  leaseOwner := run.leaseOwner
  leaseExpiresAt := run.leaseExpiresAt

abbrev StoreProg := Prog StoreOp StoreAns ApiError

def askStore (op : StoreOp) : StoreProg (StoreAns op) := .perform op

/-- `map_err` of a failed statement. -/
def orInternal {α : Type} (context : String) (result : Except String α) : StoreProg α :=
  match result with
  | .ok a => .pure a
  | .error err => .fail (.internal (context ++ ": " ++ err))

def createdEvent (tenantId : String) (role : RolePreset) (req : CreateRunRequest)
    (grantedCapabilities : Json) (runId : String) : AuditEvent where
  runId := runId
  stepId := none
  tenantId := tenantId
  agentId := some req.agentId.text
  userId := req.triggeredByUserId.map (·.text)
  actor := "api"
  eventType := "run.created"
  payloadJson := .obj [
    ("granted_capability_count", .nat ((grantedCapabilities.asArray?.map (·.length)).getD 0)),
    ("recipe_id", .str req.recipeId),
    ("requested_capability_count",
      .nat ((req.requestedCapabilities.asArray?.map (·.length)).getD 0)),
    ("role_preset", .str (roleText role)),
    ("trace_id", .str runId)]

/-- The answer is the run as it is by then. -/
def respond (status : StatusCode) (tenantId runId : String) :
    StoreProg (Option (StatusCode × RunResponse)) := do
  let loaded ← askStore (.getRunStatus tenantId runId)
  let run ← orInternal "failed loading created run" loaded
  match (run : Option RunStatusRecord) with
  | some run => .pure (some (status, runToResponse run))
  | none => .fail (.internal "created run could not be reloaded")

def createRunGranted (rt : DedupeRuntime) (tenantId : String) (role : RolePreset)
    (req : CreateRunRequest) (grantedCapabilities : Json) :
    StoreProg (Option (StatusCode × RunResponse)) := do
  let semanticDedupeKey := computeRunSemanticDedupeKey rt tenantId role req
  let runId ← askStore .newUuid
  let inserted ← askStore
    (.createRun (makeNewRun tenantId req grantedCapabilities runId) semanticDedupeKey)
  let created ← orInternal "failed creating run" inserted
  match (created : Option String) with
  | some runId =>
    let appended ← askStore
      (.appendAuditEvent (createdEvent tenantId role req grantedCapabilities runId))
    orInternal "failed appending run.created audit event" appended
    respond .created tenantId runId
  | none =>
    let looked ← askStore (.getActiveRunId tenantId semanticDedupeKey)
    let existing ← orInternal "failed checking active run for semantic dedupe key" looked
    match (existing : Option String) with
    | some existingRunId => respond .ok tenantId existingRunId
    | none => .fail (.conflict "run already exists in race with completion; retry request")

def createRunCommon (rt : DedupeRuntime) (tenantId : String) (role : RolePreset)
    (req : CreateRunRequest) : StoreProg (Option (StatusCode × RunResponse)) :=
  match resolveGrantedCapabilities req.recipeId role req.requestedCapabilities with
  | .error message => .fail (.badRequest message)
  | .ok grantedCapabilities => createRunGranted rt tenantId role req grantedCapabilities

/-! ## Everybody who uses the table -/

/-- A program of the queue on the store. -/
def onStore {α : Type} : QueueProg α → StoreProg α
  | .pure a => .pure a
  | .fail e => .fail (.internal e)
  | .call op k => .call (.queue op) fun answer => onStore (k answer)

/-- A manual fire, as far as the table can tell: it creates a run and reports it. -/
def fireTrigger (row : RunRow) (payloadJson : Json) : QueueProg Unit := do
  askQueue (.createRun row)
  tryQueue (askQueue (.appendAuditEvent "api" {
    runId := row.id
    stepId := none
    tenantId := row.tenantId
    agentId := some row.agentId
    userId := row.triggeredByUserId
    actor := "api"
    eventType := "run.created"
    payloadJson := payloadJson }))

inductive StoreClient where
  | createRun (tenantId : String) (role : RolePreset) (req : CreateRunRequest)
  | worker (config : OnceConfig) (calls : List CycleCall)
  | fireTrigger (row : RunRow) (payloadJson : Json)

def unanswered (p : QueueProg Unit) : StoreProg (Option (StatusCode × RunResponse)) := do
  onStore p
  .pure none

def StoreClient.program (rt : DedupeRuntime) (b : Backend) :
    StoreClient → StoreProg (Option (StatusCode × RunResponse))
  | .createRun tenantId role req => createRunCommon rt tenantId role req
  | .worker config calls => unanswered (runCycles b config calls)
  | .fireTrigger row payloadJson => unanswered (Runs.fireTrigger row payloadJson)

def storePool (rt : DedupeRuntime) (b : Backend) (clients : ι → StoreClient) :
    ι → Prog (ι × StoreOp) (fun o => StoreAns o.2) ApiError (Option (StatusCode × RunResponse)) :=
  fun i => ((clients i).program rt b).tag i

end Runs
end SecureAgnt

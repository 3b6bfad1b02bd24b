/-
One cycle of a worker.

`processOnce` puts expired runs back, keeps house, claims a run, processes it and
finishes it.  The processing of a run appends events of its own, none of which
reports the run's end.
-/
import SecureAgnt.Runs.Lease

namespace SecureAgnt
namespace Runs

open Storage
open Redaction (redactJson redactText)
open Worker (AuditEvent CycleConfig runEvent)

/-! ## The cycle -/

structure OnceConfig extends CycleConfig where
  leaseMs : Int
  requeueLimit : Int
  claimMaxInflightRuns : Int
  triggerSchedulerEnabled : Bool
  triggerSchedulerLeaseEnabled : Bool
  triggerTenantMaxInflightRuns : Int
  triggerDispatchMaxInflightRuns : Int
  memoryCompactionEnabled : Bool
  complianceSiemDeliveryEnabled : Bool
  /-- How `serde` writes a time. -/
  timeJson : Int → Json

def intJson (n : Int) : Json :=
  if 0 ≤ n then .nat n.toNat else .num (.negInt (Int64.ofInt n))

inductive WorkerCycleOutcome where
  | claimedAndSucceeded (runId : String)
  | claimedAndFailed (runId : String)
  | idle (requeuedExpiredRuns : Nat)
  deriving DecidableEq, Repr

def askHouse (op : HouseOp) : QueueProg (HouseAns op) := askQueue (.housekeeping op)

def OnceConfig.append (config : OnceConfig) (event : AuditEvent) : QueueProg Unit :=
  tryQueue (askQueue (.appendAuditEvent config.workerId event))

/-- The event of a compacted group; a group without a run has none. -/
def compactionEvent (config : OnceConfig) (group : MemoryCompactionGroupOutcome) :
    Option AuditEvent :=
  group.representativeRunId.map fun runId =>
    { runId := runId
      stepId := group.representativeStepId
      tenantId := group.tenantId
      agentId := some group.agentId
      userId := none
      actor := "worker:" ++ config.workerId
      eventType := "memory.compacted"
      payloadJson := redactJson (.obj [
        ("memory_kind", .str group.memoryKind), ("scope", .str group.scope),
        ("source_count", .nat group.sourceCount), ("source_entry_ids", group.sourceEntryIds)]) }

def appendAll (config : OnceConfig) : List AuditEvent → QueueProg Unit
  | [] => .pure ()
  | event :: events => do
    config.append event
    appendAll config events

def compactMemory (config : OnceConfig) : QueueProg Unit := do
  if config.memoryCompactionEnabled then
    let groups ← askHouse .compactMemoryRecords
    appendAll config ((groups : List _).filterMap (compactionEvent config))
  else .pure ()

def deliverCompliance (config : OnceConfig) : QueueProg Unit :=
  if config.complianceSiemDeliveryEnabled then askHouse .processComplianceSiemDeliveryOutbox
  else .pure ()

def shouldDispatch (config : OnceConfig) : QueueProg Bool := do
  let globalInflight ← askHouse .countInflightRuns
  if (globalInflight : Nat) ≥ config.triggerDispatchMaxInflightRuns then .pure false
  else if config.triggerSchedulerLeaseEnabled then
    askHouse (.tryAcquireSchedulerLease config.workerId)
  else .pure true

def dispatchEvent (config : OnceConfig) (dispatched : TriggerDispatchRecord) : AuditEvent where
  runId := dispatched.runId
  stepId := none
  tenantId := dispatched.tenantId
  agentId := some dispatched.agentId
  userId := dispatched.triggeredByUserId
  actor := "trigger-scheduler:" ++ config.workerId
  eventType := "run.created"
  payloadJson := redactJson (.obj [
    ("recipe_id", .str dispatched.recipeId), ("source", .str "trigger_scheduler"),
    ("trigger_id", .str dispatched.triggerId), ("trigger_type", .str dispatched.triggerType),
    ("trigger_event_id", (dispatched.triggerEventId.map Json.str).getD .null),
    ("scheduled_for", config.timeJson dispatched.scheduledFor),
    ("next_fire_at", config.timeJson dispatched.nextFireAt)])

def dispatchTriggers (config : OnceConfig) : QueueProg Unit := do
  if config.triggerSchedulerEnabled then
    let should ← shouldDispatch config
    if should then
      let dispatched ← askHouse (.dispatchNextDueTrigger config.triggerTenantMaxInflightRuns)
      match (dispatched : Option TriggerDispatchRecord) with
      | some dispatched => config.append (dispatchEvent config dispatched)
      | none => .pure ()
    else .pure ()
  else .pure ()

def extractTraceIdFromRunInput (inputJson : Json) : Option String :=
  (inputJson.get? "_trace").bind Json.asStr?

/-- An event of the claimed run, outside of any step. -/
def auditRun (config : OnceConfig) (run : RunRow) (eventType : String) (payloadJson : Json) :
    QueueProg Unit :=
  config.append (runEvent config.toCycleConfig run.toClaimedRun
    (extractTraceIdFromRunInput run.inputJson) none eventType payloadJson)

def failureJson (code message : String) : Json :=
  redactJson (.obj [("code", .str code), ("message", .str message)])

def finishProcessed (b : Backend) (config : OnceConfig) (run : RunRow) :
    Except String Unit → QueueProg WorkerCycleOutcome
  | .ok () => do
    let completed ← markRunSucceeded b run.id config.workerId
    if completed then
      auditRun config run "run.completed"
        (.obj [("status", .str "succeeded"), ("attempts", intJson run.attempts)])
      .pure (.claimedAndSucceeded run.id)
    else
      let _ ← markRunFailed b run.id config.workerId
        (failureJson "RUN_FINALIZE_FAILED" "worker could not mark run as succeeded")
      .pure (.claimedAndFailed run.id)
  | .error error => do
    let errorMessage := redactText error
    let _ ← markRunFailed b run.id config.workerId
      (failureJson "RUN_EXECUTION_FAILED" errorMessage)
    auditRun config run "run.failed" (.obj [("error", .str errorMessage)])
    .pure (.claimedAndFailed run.id)

def processClaimed (b : Backend) (config : OnceConfig) (requeuedExpiredRuns : Nat)
    (run : RunRow) : QueueProg WorkerCycleOutcome := do
  auditRun config run "run.claimed" (.obj [
    ("attempts", intJson run.attempts),
    ("lease_owner", (run.leaseOwner.map Json.str).getD .null),
    ("lease_expires_at", (run.leaseExpiresAt.map config.timeJson).getD .null)])
  let renewed ← renewRunLease b run.id config.workerId config.leaseMs
  if !renewed then
    auditRun config run "run.lease_renew_failed" (.obj [])
    let _ ← markRunFailed b run.id config.workerId
      (failureJson "LEASE_RENEW_FAILED" "worker failed to renew run lease after claim")
    .pure (.idle requeuedExpiredRuns)
  else
    auditRun config run "run.processing_started"
      (.obj [("recipe_id", .str run.recipeId), ("attempts", intJson run.attempts)])
    let result ← askQueue (.processClaimedRun config.workerId run)
    finishProcessed b config run result

def processOnce (b : Backend) (config : OnceConfig) : QueueProg WorkerCycleOutcome := do
  let requeuedExpiredRuns ← requeueExpiredRuns config.requeueLimit
  compactMemory config
  deliverCompliance config
  dispatchTriggers config
  let claimed ← claimNextQueuedRunWithLimits b config.workerId config.leaseMs
    config.claimMaxInflightRuns config.triggerTenantMaxInflightRuns
  match (claimed : Option RunRow) with
  | some run => processClaimed b config requeuedExpiredRuns run
  | none => .pure (.idle requeuedExpiredRuns)

/-- What goes on beside the queue: cycles of workers and runs that clients create. -/
inductive CycleCall where
  | processOnce
  | createRun (row : RunRow)

/-- `run_forever`, as far as it gets. -/
def runCycles (b : Backend) (config : OnceConfig) : List CycleCall → QueueProg Unit
  | [] => .pure ()
  | .processOnce :: calls => do
    let _ ← processOnce b config
    runCycles b config calls
  | .createRun row :: calls => do
    askQueue (.createRun row)
    runCycles b config calls

/-! ## The events of a run's end -/

def finalEvent : FinalStatus → String
  | .succeeded => "run.completed"
  | .failed => "run.failed"

def isFinalType (eventType : String) : Bool :=
  eventType = "run.completed" || eventType = "run.failed"

/-- The program appends no event of a run's end. -/
def NoFinal {α : Type} (p : Worker.RunProg α) : Prop :=
  ∀ event, p.Issues (.appendAuditEvent event) → isFinalType event.eventType = false

/-- The events that the processing of a run appends. -/
def processedTypes : List String :=
  ["step.started", "step.completed", "step.failed", "skill.invoked", "action.requested",
    "action.allowed", "action.denied", "action.executed", "action.failed",
    "agent.context.loaded", "agent.context.not_found", "agent.context.error",
    "llm.budget.soft_alert", "llm.slo.alert"]

def isProcessedType (eventType : String) : Bool := processedTypes.contains eventType

theorem not_final_of_processed : ∀ eventType ∈ processedTypes, isFinalType eventType = false := by
  decide

def AppendsProcessed {α : Type} (p : Worker.RunProg α) : Prop :=
  ∀ event, p.Issues (.appendAuditEvent event) → isProcessedType event.eventType = true

section Processed

open Worker

variable {α β : Type}

theorem AppendsProcessed.pure (a : α) : AppendsProcessed (.pure a) := nofun

theorem AppendsProcessed.fail (e : String) : AppendsProcessed (.fail e : RunProg α) := nofun

theorem AppendsProcessed.bind {p : RunProg α} {f : α → RunProg β} (hp : AppendsProcessed p)
    (hf : ∀ a, AppendsProcessed (f a)) : AppendsProcessed (p >>= f) := by
  intro event h
  rcases (Prog.issues_bind p f).mp h with h | ⟨a, _, h⟩
  · exact hp event h
  · exact hf a event h

theorem AppendsProcessed.ask {op : RunOp} (hop : ∀ event, op ≠ .appendAuditEvent event) :
    AppendsProcessed (askRun op) := by
  intro event h
  exact absurd ((Prog.issues_perform _).mp h) (hop event)

theorem AppendsProcessed.ofExcept (x : Except String α) : AppendsProcessed (Prog.ofExcept x) := by
  cases x with
  | ok a => exact .pure a
  | error e => exact .fail e

theorem AppendsProcessed.tryDb {p : RunProg (Except String α)} (hp : AppendsProcessed p) :
    AppendsProcessed (tryDb p) := .bind hp .ofExcept

theorem AppendsProcessed.audit (scope : RunScope) {eventType : String} (payloadJson : Json)
    (h : isProcessedType eventType = true) : AppendsProcessed (scope.audit eventType payloadJson) := by
  refine .tryDb fun event hissues => ?_
  cases (Prog.issues_perform _).mp hissues
  exact h

theorem processed_denyAction (scope : RunScope) (actionRequestId : String) (action : SkillAction)
    (denial : ActionDenial) :
    AppendsProcessed (denyAction scope actionRequestId action denial) := by
  refine .bind (.tryDb (.ask nofun)) fun _ => ?_
  refine .bind (.tryDb (.ask nofun)) fun _ => ?_
  refine .bind (.audit scope _ rfl) fun _ => ?_
  exact .bind (.tryDb (.ask nofun)) fun _ => .fail _

theorem processed_failAction (scope : RunScope) (actionRequestId : String) (action : SkillAction)
    (error : String) : AppendsProcessed (failAction scope actionRequestId action error) := by
  refine .bind (.tryDb (.ask nofun)) fun _ => ?_
  refine .bind (.tryDb (.ask nofun)) fun _ => ?_
  refine .bind (.audit scope _ rfl) fun _ => ?_
  exact .bind (.tryDb (.ask nofun)) fun _ => .fail _

theorem processed_auditAlerts (scope : RunScope) (actionRequestId : String) (action : SkillAction)
    {eventType : String} (alerts : List Json) (h : isProcessedType eventType = true) :
    AppendsProcessed (scope.auditAlerts actionRequestId action eventType alerts) := by
  unfold RunScope.auditAlerts
  split
  · exact .audit scope _ h
  · exact .pure ()

theorem processed_completeAction (scope : RunScope) (actionRequestId : String) (action : SkillAction)
    (context : ActionExecutionContext) (resultJson : Json) :
    AppendsProcessed (completeAction scope actionRequestId action context resultJson) := by
  refine .bind (.tryDb (.ask nofun)) fun _ => ?_
  refine .bind (.tryDb (.ask nofun)) fun _ => ?_
  refine .bind (processed_auditAlerts scope _ _ _ rfl) fun _ => ?_
  refine .bind (processed_auditAlerts scope _ _ _ rfl) fun _ => ?_
  exact .bind (.audit scope _ rfl) fun _ => .pure context

theorem processed_processAction (rt : WorkerRuntime) (scope : RunScope) (grants : Policy.GrantSet)
    (context : ActionExecutionContext) (action : SkillAction) :
    AppendsProcessed (processAction rt scope grants context action) := by
  refine .bind (.ask nofun) fun actionRequestId => ?_
  refine .bind (.tryDb (.ask nofun)) fun _ => ?_
  refine .bind (.audit scope _ rfl) fun _ => ?_
  cases admitAction rt scope.config.toWorkerConfig grants action with
  | error denial => exact processed_denyAction scope actionRequestId action denial
  | ok _ =>
    refine .bind (.tryDb (.ask nofun)) fun _ => ?_
    refine .bind (.audit scope _ rfl) fun _ => ?_
    refine .bind (.ask nofun) fun answer => ?_
    obtain ⟨context, resultJson | error⟩ := answer
    · exact processed_failAction scope actionRequestId action _
    · exact processed_completeAction scope actionRequestId action context _

theorem processed_processActions (rt : WorkerRuntime) (scope : RunScope) (grants : Policy.GrantSet)
    (context : ActionExecutionContext) (actions : List SkillAction) :
    AppendsProcessed (processActions rt scope grants context actions) := by
  induction actions generalizing context with
  | nil => exact .pure context
  | cons action actions ih => exact .bind (processed_processAction rt scope grants context _) ih

theorem processed_prepareSkillInput (scope : RunScope) :
    AppendsProcessed (prepareSkillInputWithAgentContext scope) := by
  unfold prepareSkillInputWithAgentContext
  split
  · exact .pure _
  · refine .bind (.ask nofun) fun loaded => ?_
    cases loaded with
    | ok snapshot => exact .bind (.audit scope _ rfl) fun _ => .pure _
    | error error =>
      refine .bind ?_ fun _ => ?_
      · cases error with
        | notFound searchedPaths => exact .audit scope _ rfl
        | other message => exact .audit scope _ rfl
      · split
        · exact .fail _
        · exact .pure _

theorem processed_processClaimedRun (rt : WorkerRuntime) (config : CycleConfig) (run : ClaimedRun)
    (runTraceId : Option String) : AppendsProcessed (processClaimedRun rt config run runTraceId) := by
  refine .bind (.ask nofun) fun stepId => ?_
  refine .bind (.tryDb (.ask nofun)) fun _ => ?_
  refine .bind (.audit _ _ rfl) fun _ => ?_
  refine .bind (processed_prepareSkillInput _) fun input => ?_
  refine .bind (.ask nofun) fun invoked => ?_
  cases invoked with
  | error error =>
    refine .bind (.tryDb (.ask nofun)) fun _ => ?_
    exact .bind (.audit _ _ rfl) fun _ => .fail error
  | ok result =>
    refine .bind (.audit _ _ rfl) fun _ => ?_
    refine .bind (processed_processActions rt _ _ _ _) fun _ => ?_
    exact .bind (.tryDb (.ask nofun)) fun _ => .audit _ _ rfl

end Processed

theorem RunRow.MayAppend.processed {row : RunRow} {event : AuditEvent} (h : row.MayAppend event) :
    event.eventType ∈ processedTypes := by
  obtain ⟨rt, config, runTraceId, hissues⟩ := h
  exact List.contains_iff_mem.mp
    (processed_processClaimedRun rt config row.toClaimedRun runTraceId event hissues)

theorem noFinal_processClaimedRun (rt : Worker.WorkerRuntime) (config : CycleConfig)
    (run : Worker.ClaimedRun) (runTraceId : Option String) :
    NoFinal (Worker.processClaimedRun rt config run runTraceId) := by
  intro event h
  refine not_final_of_processed _ (List.contains_iff_mem.mp ?_)
  exact processed_processClaimedRun rt config run runTraceId event h

/-- The processing of a run does not report its end. -/
theorem RunRow.MayAppend.not_final {row : RunRow} {event : AuditEvent} (h : row.MayAppend event) :
    isFinalType event.eventType = false := by
  obtain ⟨rt, config, runTraceId, hissues⟩ := h
  exact noFinal_processClaimedRun rt config row.toClaimedRun runTraceId event hissues

end Runs
end SecureAgnt

/-
What processing a run leaves behind: its step, its action requests with their
results, and the executions.

The database of `runHandler` answers every call; the skill, the context loader
and the executors behave in any way.  `processClaimedRun_actions` follows the
actions of a run, and `processClaimedRun_closes_step_iff` says exactly when the
step is closed whatever happens.
-/
import SecureAgnt.Lib.Run
import SecureAgnt.Lib.Table
import SecureAgnt.Worker.ClaimedRun
import SecureAgnt.Worker.LlmAction

namespace SecureAgnt
namespace Worker

open Policy (GrantSet isActionAllowed parseGrantSet)
open Redaction (redactJson redactText)
open Handler (wp Finishes)

/-! ## The database -/

/-- The two action tables, with the primary key of the requests, the unique key of
the results and the reference between them. -/
structure ActionTables where
  requests : List ActionRequestRow
  results : List ActionResultRow
  requestKeys : (requests.map (·.id)).Nodup
  resultKeys : (results.map (·.actionRequestId)).Nodup
  references : ∀ row ∈ results, row.actionRequestId ∈ requests.map (·.id)

namespace ActionTables

def empty : ActionTables := ⟨[], [], .nil, .nil, fun _ hrow => absurd hrow List.not_mem_nil⟩

def insertRequest (t : ActionTables) (row : ActionRequestRow)
    (hnew : row.id ∉ t.requests.map (·.id)) : ActionTables where
  requests := t.requests ++ [row]
  results := t.results
  requestKeys := Table.nodup_append_row t.requestKeys hnew
  resultKeys := t.resultKeys
  references := by
    intro result hresult
    rw [List.map_append]
    exact List.mem_append_left _ (t.references result hresult)

def withStatus (actionRequestId : String) (status : ActionStatus) (decisionReason : Option String)
    (row : ActionRequestRow) : ActionRequestRow :=
  if row.id = actionRequestId then { row with status := status, decisionReason := decisionReason }
  else row

theorem withStatus_id (actionRequestId : String) (status : ActionStatus) (reason : Option String)
    (row : ActionRequestRow) : (withStatus actionRequestId status reason row).id = row.id := by
  unfold withStatus
  split <;> rfl

theorem map_withStatus_id (actionRequestId : String) (status : ActionStatus)
    (reason : Option String) (rows : List ActionRequestRow) :
    (rows.map (withStatus actionRequestId status reason)).map (·.id) = rows.map (·.id) := by
  rw [List.map_map]
  apply List.map_congr_left
  intro row _
  exact withStatus_id actionRequestId status reason row

def setRequestStatus (t : ActionTables) (actionRequestId : String) (status : ActionStatus)
    (decisionReason : Option String) : ActionTables where
  requests := t.requests.map (withStatus actionRequestId status decisionReason)
  results := t.results
  requestKeys := by
    rw [map_withStatus_id]
    exact t.requestKeys
  resultKeys := t.resultKeys
  references := by
    rw [map_withStatus_id]
    exact t.references

/-- `ON CONFLICT (action_request_id) DO UPDATE`. -/
def upsertRow (row : ActionResultRow) (rows : List ActionResultRow) : List ActionResultRow :=
  if row.actionRequestId ∈ rows.map (·.actionRequestId) then
    rows.map fun old => if old.actionRequestId = row.actionRequestId then row else old
  else rows ++ [row]

theorem upsertRow_of_new {row : ActionResultRow} {rows : List ActionResultRow}
    (hnew : row.actionRequestId ∉ rows.map (·.actionRequestId)) :
    upsertRow row rows = rows ++ [row] :=
  if_neg hnew

theorem upsertRow_keys (row : ActionResultRow) (rows : List ActionResultRow) :
    (upsertRow row rows).map (·.actionRequestId) =
      if row.actionRequestId ∈ rows.map (·.actionRequestId) then rows.map (·.actionRequestId)
      else rows.map (·.actionRequestId) ++ [row.actionRequestId] := by
  unfold upsertRow
  split
  · rw [List.map_map]
    apply List.map_congr_left
    intro old _
    show (if _ then row else old).actionRequestId = old.actionRequestId
    split
    · rename_i hsame
      exact hsame.symm
    · rfl
  · rw [List.map_append, List.map_singleton]

def putResult (t : ActionTables) (row : ActionResultRow)
    (href : row.actionRequestId ∈ t.requests.map (·.id)) : ActionTables where
  requests := t.requests
  results := upsertRow row t.results
  requestKeys := t.requestKeys
  resultKeys := by
    rw [upsertRow_keys]
    split
    · exact t.resultKeys
    · rename_i hnew
      have hkeys := Table.nodup_append_row (r := row) t.resultKeys hnew
      rwa [List.map_append, List.map_singleton] at hkeys
  references := by
    intro result hresult
    have hkey := List.mem_map_of_mem (f := (·.actionRequestId)) hresult
    rw [upsertRow_keys] at hkey
    split at hkey
    · obtain ⟨old, hold, hsame⟩ := List.mem_map.mp hkey
      exact hsame ▸ t.references old hold
    · rcases List.mem_append.mp hkey with hkey | hkey
      · obtain ⟨old, hold, hsame⟩ := List.mem_map.mp hkey
        exact hsame ▸ t.references old hold
      · rw [List.mem_singleton] at hkey
        exact hkey ▸ href

end ActionTables

/-- One call of an executor, as the world outside sees it. -/
structure Execution where
  actionRequestId : String
  action : SkillAction
  outcome : Except String Json

/-- The tables a run is recorded in, what the skill answered, and the executions. -/
structure RunWorld where
  steps : List StepRow
  actions : ActionTables
  auditEvents : List AuditEvent
  invoked : List InvokeResult
  executions : List Execution

def RunWorld.empty : RunWorld := ⟨[], .empty, [], [], []⟩

/-- `WHERE id = $1 AND status IN ('queued', 'running')`. -/
def isOpenStep (stepId : String) (row : StepRow) : Bool :=
  row.id = stepId ∧ (row.status = .queued ∨ row.status = .running)

def closeStep (stepId : String) (close : StepRow → StepRow) (row : StepRow) : StepRow :=
  if isOpenStep stepId row then close row else row

def failStep (errorJson : Json) (row : StepRow) : StepRow :=
  { row with status := .failed, errorJson := some errorJson }

def succeedStep (outputJson : Json) (row : StepRow) : StepRow :=
  { row with status := .succeeded, outputJson := some outputJson }

/-- The context loader and the skill. -/
structure RunEnv where
  loadAgentContextSnapshot : String → String → Except AgentContextLoadError AgentContextSnapshot
  invokeSkill : SkillInvocation → Except String InvokeResult

/-- A database that answers every call. -/
def runStep (env : RunEnv) (w : RunWorld) : (op : RunOp) → RunAns op → RunWorld → Prop
  | .newUuid, _, w' => w' = w
  | .createStep step, answer, w' =>
    answer = .ok () ∧ step.id ∉ w.steps.map (·.id) ∧ w' = { w with steps := w.steps ++ [step] }
  | .appendAuditEvent event, answer, w' =>
    answer = .ok () ∧ w' = { w with auditEvents := w.auditEvents ++ [event] }
  | .loadAgentContextSnapshot tenantId agentId, answer, w' =>
    answer = env.loadAgentContextSnapshot tenantId agentId ∧ w' = w
  | .invokeSkill invocation, answer, w' =>
    answer = env.invokeSkill invocation ∧
      w' = { w with invoked := w.invoked ++ answer.toOption.toList }
  | .createActionRequest row, answer, w' =>
    answer = .ok () ∧ ∃ hnew, w' = { w with actions := w.actions.insertRequest row hnew }
  | .updateActionRequestStatus id status reason, answer, w' =>
    answer = .ok (decide (id ∈ w.actions.requests.map (·.id))) ∧
      w' = { w with actions := w.actions.setRequestStatus id status reason }
  | .createActionResult row, answer, w' =>
    answer = .ok () ∧ ∃ href, w' = { w with actions := w.actions.putResult row href }
  | .executeAction id action _, answer, w' =>
    w' = { w with executions := w.executions ++ [⟨id, action, answer.2⟩] }
  | .markStepFailed stepId errorJson, answer, w' =>
    answer = .ok (w.steps.any (isOpenStep stepId)) ∧
      w' = { w with steps := w.steps.map (closeStep stepId (failStep errorJson)) }
  | .markStepSucceeded stepId outputJson, answer, w' =>
    answer = .ok (w.steps.any (isOpenStep stepId)) ∧
      w' = { w with steps := w.steps.map (closeStep stepId (succeedStep outputJson)) }

def runHandler (env : RunEnv) : Handler RunOp RunAns RunWorld := ⟨runStep env⟩

/-! ## Rules for the calls -/

section Rules

variable {env : RunEnv} {w : RunWorld} {α : Type} {k : Unit → RunProg α} {kb : Bool → RunProg α}
  {Q : RunWorld → Except String α → Prop}

/-- A run alone in the database, with nothing asked of its calls. -/
def Ensures (env : RunEnv) (p : RunProg α) (Q : RunWorld → Except String α → Prop)
    (w : RunWorld) : Prop :=
  wp (runHandler env) (.alone fun _ _ => True) p Q w

theorem ensures_ask {op : RunOp} {k : RunAns op → RunProg α}
    (h : ∀ r w', runStep env w op r w' → Ensures env (k r) Q w') :
    Ensures env (askRun op >>= k) Q w :=
  Handler.wp_bind (Handler.wp_perform_alone trivial h)

theorem ensures_seq {β : Type} {p : RunProg β} {k : β → RunProg α}
    {R : RunWorld → Except String β → Prop} (h : Ensures env p R w)
    (hok : ∀ w a, R w (.ok a) → Ensures env (k a) Q w)
    (herror : ∀ w e, R w (.error e) → Q w (.error e)) : Ensures env (p >>= k) Q w :=
  Handler.wp_seq h hok herror

theorem ensures_ok {a : α} (h : Q w (.ok a)) : Ensures env (.pure a) Q w :=
  Handler.wp_pure_alone h

theorem ensures_error {e : String} (h : Q w (.error e)) : Ensures env (.fail e) Q w :=
  Handler.wp_fail_alone h

/-- A database call that is answered is as if there were no `?`. -/
theorem ensures_tryDb {β : Type} {call : RunProg (Except String β)} {k : β → RunProg α}
    (h : Ensures env call (fun w r => ∃ b, r = .ok (.ok b) ∧ Ensures env (k b) Q w) w) :
    Ensures env (tryDb call >>= k) Q w := by
  refine ensures_seq (R := fun w r => ∃ b, r = .ok b ∧ Ensures env (k b) Q w)
    (ensures_seq h ?_ ?_) ?_ ?_
  · intro w a ha
    obtain ⟨b, hb, hk⟩ := ha
    cases hb
    exact ensures_ok ⟨b, rfl, hk⟩
  · intro w e he
    obtain ⟨b, hb, _⟩ := he
    cases hb
  · intro w a ha
    obtain ⟨b, hb, hk⟩ := ha
    cases hb
    exact hk
  · intro w e he
    obtain ⟨b, hb, _⟩ := he
    cases hb

theorem ensures_audit {scope : RunScope} {eventType : String} {payloadJson : Json}
    (h : ∀ events, Ensures env (k ()) Q { w with auditEvents := events }) :
    Ensures env (scope.audit eventType payloadJson >>= k) Q w := by
  refine ensures_tryDb (Handler.wp_perform_alone trivial ?_)
  intro r w' hstep
  obtain ⟨rfl, rfl⟩ := hstep
  exact ⟨(), rfl, h _⟩

theorem ensures_setStatus {id : String} {status : ActionStatus} {reason : Option String}
    (h : ∀ moved, Ensures env (kb moved) Q
      { w with actions := w.actions.setRequestStatus id status reason }) :
    Ensures env (tryDb (askRun (.updateActionRequestStatus id status reason)) >>= kb) Q w := by
  refine ensures_tryDb (Handler.wp_perform_alone trivial ?_)
  intro r w' hstep
  obtain ⟨rfl, rfl⟩ := hstep
  exact ⟨_, rfl, h _⟩

theorem ensures_putResult {row : ActionResultRow}
    (h : ∀ href, Ensures env (k ()) Q { w with actions := w.actions.putResult row href }) :
    Ensures env (tryDb (askRun (.createActionResult row)) >>= k) Q w := by
  refine ensures_tryDb (Handler.wp_perform_alone trivial ?_)
  intro r w' hstep
  obtain ⟨rfl, href, rfl⟩ := hstep
  exact ⟨(), rfl, h href⟩

theorem ensures_markStepFailed {stepId : String} {errorJson : Json}
    (h : ∀ moved, Ensures env (kb moved) Q
      { w with steps := w.steps.map (closeStep stepId (failStep errorJson)) }) :
    Ensures env (tryDb (askRun (.markStepFailed stepId errorJson)) >>= kb) Q w := by
  refine ensures_tryDb (Handler.wp_perform_alone trivial ?_)
  intro r w' hstep
  obtain ⟨rfl, rfl⟩ := hstep
  exact ⟨_, rfl, h _⟩

end Rules

/-! ## One action -/

inductive ActionOutcome where
  | denied (denial : ActionDenial)
  | failed (error : String)
  | executed (resultJson : Json)

namespace ActionOutcome

def resultStatus : ActionOutcome → ActionResultStatus
  | .denied _ => .denied
  | .failed _ => .failed
  | .executed _ => .executed

def decisionReason : ActionOutcome → Option String
  | .denied denial => some denial.reasonStr
  | .failed _ => some "execution_failed"
  | .executed _ => none

def storedResult : ActionOutcome → Option Json
  | .denied _ => none
  | .failed _ => none
  | .executed resultJson => some (redactJson resultJson)

def storedError : ActionOutcome → Option Json
  | .denied denial => some (redactJson denial.errorJson)
  | .failed error => some (redactJson
      (.obj [("code", .str "ACTION_EXECUTION_FAILED"), ("message", .str (redactText error))]))
  | .executed _ => none

/-- What the executor answered, when it was called. -/
def executorAnswer : ActionOutcome → Option (Except String Json)
  | .denied _ => none
  | .failed error => some (.error error)
  | .executed resultJson => some (.ok resultJson)

end ActionOutcome

/-- An action as it was recorded. -/
structure ActionEntry where
  id : String
  action : SkillAction
  outcome : ActionOutcome

namespace ActionEntry

def requestRow (stepId id : String) (action : SkillAction) (status : ActionStatus)
    (decisionReason : Option String) : ActionRequestRow :=
  ⟨id, stepId, action.actionType, redactJson action.args,
    some (redactText action.justification), status, decisionReason⟩

def request (stepId : String) (e : ActionEntry) : ActionRequestRow :=
  requestRow stepId e.id e.action e.outcome.resultStatus.ofRequest e.outcome.decisionReason

def result (e : ActionEntry) : ActionResultRow :=
  ⟨e.id, e.outcome.resultStatus, e.outcome.storedResult, e.outcome.storedError⟩

def executions (e : ActionEntry) : List Execution :=
  (e.outcome.executorAnswer.map fun answer => ⟨e.id, e.action, answer⟩).toList

/-- The decision on the action agrees with what became of it. -/
def Judged (rt : WorkerRuntime) (config : WorkerConfig) (grants : GrantSet) (e : ActionEntry) :
    Prop :=
  match e.outcome with
  | .denied denial => admitAction rt config grants e.action = .error denial
  | .failed _ => ∃ request, admitAction rt config grants e.action = .ok request
  | .executed _ => ∃ request, admitAction rt config grants e.action = .ok request

end ActionEntry

/-- Between two worlds exactly these actions were recorded. -/
def Recorded (stepId : String) (w w' : RunWorld) (entries : List ActionEntry) : Prop :=
  w'.actions.requests = w.actions.requests ++ entries.map (·.request stepId) ∧
    w'.actions.results = w.actions.results ++ entries.map (·.result) ∧
    w'.executions = w.executions ++ entries.flatMap (·.executions) ∧
    w'.invoked = w.invoked

theorem Recorded.refl (stepId : String) (w : RunWorld) : Recorded stepId w w [] := by
  simp [Recorded]

theorem Recorded.trans {stepId : String} {w₁ w₂ w₃ : RunWorld} {es es' : List ActionEntry}
    (h : Recorded stepId w₁ w₂ es) (h' : Recorded stepId w₂ w₃ es') :
    Recorded stepId w₁ w₃ (es ++ es') := by
  obtain ⟨hreq, hres, hexec, hinv⟩ := h
  obtain ⟨hreq', hres', hexec', hinv'⟩ := h'
  refine ⟨?_, ?_, ?_, ?_⟩
  · rw [hreq', hreq, List.map_append, List.append_assoc]
  · rw [hres', hres, List.map_append, List.append_assoc]
  · rw [hexec', hexec, List.flatMap_append, List.append_assoc]
  · rw [hinv', hinv]

/-- A request row is open: nothing but its status and its executions changed since
`w₀`, under a new identifier. -/
structure Opened (stepId id : String) (action : SkillAction) (ran : List Execution)
    (w₀ w : RunWorld) : Prop where
  fresh : id ∉ w₀.actions.requests.map (·.id)
  requests : ∃ status reason, w.actions.requests =
    w₀.actions.requests ++ [ActionEntry.requestRow stepId id action status reason]
  results : w.actions.results = w₀.actions.results
  executions : w.executions = w₀.executions ++ ran
  invoked : w.invoked = w₀.invoked
  steps : w.steps = w₀.steps

section Opened

variable {stepId id : String} {action : SkillAction} {ran : List Execution} {w₀ w : RunWorld}

theorem Opened.setStatus_requests (h : Opened stepId id action ran w₀ w) (status : ActionStatus)
    (reason : Option String) :
    (w.actions.setRequestStatus id status reason).requests =
      w₀.actions.requests ++ [ActionEntry.requestRow stepId id action status reason] := by
  obtain ⟨old, oldReason, hreq⟩ := h.requests
  show w.actions.requests.map _ = _
  rw [hreq, List.map_append, List.map_singleton]
  congr 1
  · rw [List.map_congr_left (g := fun row => row), List.map_id']
    intro row hrow
    apply if_neg
    intro hsame
    exact h.fresh (hsame ▸ List.mem_map_of_mem hrow)
  · have hset : ActionTables.withStatus id status reason
        (ActionEntry.requestRow stepId id action old oldReason) =
        ActionEntry.requestRow stepId id action status reason := if_pos rfl
    rw [hset]

theorem Opened.setStatus (h : Opened stepId id action ran w₀ w) (status : ActionStatus)
    (reason : Option String) :
    Opened stepId id action ran w₀
      { w with actions := w.actions.setRequestStatus id status reason } :=
  { h with requests := ⟨status, reason, h.setStatus_requests status reason⟩ }

/-- A new request has no result yet. -/
theorem Opened.no_result (h : Opened stepId id action ran w₀ w) :
    id ∉ w.actions.results.map (·.actionRequestId) := by
  rw [h.results]
  intro hmem
  obtain ⟨row, hrow, hid⟩ := List.mem_map.mp hmem
  exact h.fresh (hid ▸ w₀.actions.references row hrow)

/-- The final status and its result close a request. -/
theorem Opened.close (outcome : ActionOutcome)
    (h : Opened stepId id action (ActionEntry.executions ⟨id, action, outcome⟩) w₀ w)
    (href : id ∈ (w.actions.setRequestStatus id outcome.resultStatus.ofRequest
      outcome.decisionReason).requests.map (·.id)) :
    Recorded stepId w₀
      { w with
        actions := (w.actions.setRequestStatus id outcome.resultStatus.ofRequest
          outcome.decisionReason).putResult (ActionEntry.result ⟨id, action, outcome⟩) href }
      [⟨id, action, outcome⟩] := by
  refine ⟨h.setStatus_requests _ _, ?_, ?_, h.invoked⟩
  · have happend := ActionTables.upsertRow_of_new
      (show (ActionEntry.result ⟨id, action, outcome⟩).actionRequestId ∉ _ from h.no_result)
    rw [h.results] at happend
    show ActionTables.upsertRow _ w.actions.results = _
    rw [h.results]
    exact happend
  · rw [List.flatMap_singleton]
    exact h.executions

end Opened

/-- The step was failed, in the way `mark_step_failed` does it. -/
def StepFailed (stepId : String) (w w' : RunWorld) : Prop :=
  ∃ errorJson, w'.steps = w.steps.map (closeStep stepId (failStep errorJson))

/-- How one action ends: recorded with its result, and the run goes on only after
an execution that succeeded. -/
inductive ActionEnds (rt : WorkerRuntime) (scope : RunScope) (grants : GrantSet)
    (action : SkillAction) (w w' : RunWorld) : Except String ActionExecutionContext → Prop
  | executed {id : String} {resultJson : Json} {context : ActionExecutionContext}
      (hrec : Recorded scope.stepId w w' [⟨id, action, .executed resultJson⟩])
      (hjudged : ActionEntry.Judged rt scope.config.toWorkerConfig grants
        ⟨id, action, .executed resultJson⟩)
      (hsteps : w'.steps = w.steps) : ActionEnds rt scope grants action w w' (.ok context)
  | stopped {id : String} (outcome : ActionOutcome) {message : String}
      (hstop : outcome.resultStatus ≠ .executed)
      (hrec : Recorded scope.stepId w w' [⟨id, action, outcome⟩])
      (hjudged : ActionEntry.Judged rt scope.config.toWorkerConfig grants ⟨id, action, outcome⟩)
      (hstep : StepFailed scope.stepId w w') :
      ActionEnds rt scope grants action w w' (.error message)

section Action

variable {env : RunEnv} {rt : WorkerRuntime} {scope : RunScope} {grants : GrantSet}
  {action : SkillAction} {context : ActionExecutionContext} {id : String} {w₀ w : RunWorld}

theorem ensures_denyAction {denial : ActionDenial}
    (hopen : Opened scope.stepId id action [] w₀ w)
    (hgate : admitAction rt scope.config.toWorkerConfig grants action = .error denial) :
    Ensures env (denyAction scope id action denial) (ActionEnds rt scope grants action w₀) w := by
  have hsteps := hopen.steps
  refine ensures_setStatus fun _ => ensures_putResult fun href => ensures_audit fun events =>
    ensures_markStepFailed fun _ => ensures_error ?_
  exact .stopped (.denied denial) ActionResultStatus.noConfusion (hopen.close (.denied denial) href) hgate
    ⟨_, congrArg (List.map _) hsteps⟩

theorem ensures_failAction {error : String}
    (hopen : Opened scope.stepId id action [⟨id, action, .error error⟩] w₀ w)
    (hgate : ∃ request, admitAction rt scope.config.toWorkerConfig grants action = .ok request) :
    Ensures env (failAction scope id action error) (ActionEnds rt scope grants action w₀) w := by
  have hsteps := hopen.steps
  refine ensures_setStatus fun _ => ensures_putResult fun href => ensures_audit fun events =>
    ensures_markStepFailed fun _ => ensures_error ?_
  exact .stopped (.failed error) ActionResultStatus.noConfusion (hopen.close (.failed error) href) hgate
    ⟨_, congrArg (List.map _) hsteps⟩

theorem ensures_auditAlerts {eventType : String} {alerts : List Json} {α : Type}
    {k : Unit → RunProg α} {Q : RunWorld → Except String α → Prop}
    (h : ∀ events, Ensures env (k ()) Q { w with auditEvents := events }) :
    Ensures env (scope.auditAlerts id action eventType alerts >>= k) Q w := by
  unfold RunScope.auditAlerts
  split
  · exact ensures_audit h
  · exact h w.auditEvents

theorem ensures_completeAction {resultJson : Json}
    (hopen : Opened scope.stepId id action [⟨id, action, .ok resultJson⟩] w₀ w)
    (hgate : ∃ request, admitAction rt scope.config.toWorkerConfig grants action = .ok request) :
    Ensures env (completeAction scope id action context resultJson)
      (ActionEnds rt scope grants action w₀) w := by
  have hsteps := hopen.steps
  refine ensures_setStatus fun _ => ensures_putResult fun href => ensures_auditAlerts fun _ =>
    ensures_auditAlerts fun _ => ensures_audit fun _ => ensures_ok ?_
  exact .executed (hopen.close (.executed resultJson) href) hgate hsteps

theorem ensures_runAction (hopen : Opened scope.stepId id action [] w₀ w)
    (hgate : ∃ request, admitAction rt scope.config.toWorkerConfig grants action = .ok request) :
    Ensures env (runAction scope id action context) (ActionEnds rt scope grants action w₀) w := by
  refine ensures_setStatus fun _ => ensures_audit fun events => ensures_ask ?_
  intro answer w' hstep
  obtain rfl := hstep
  have hallowed := hopen.setStatus .allowed none
  have hran : Opened scope.stepId id action [⟨id, action, answer.2⟩] w₀
      ⟨w.steps, w.actions.setRequestStatus id .allowed none, events, w.invoked,
        w.executions ++ [⟨id, action, answer.2⟩]⟩ := by
    refine ⟨hallowed.fresh, hallowed.requests, hallowed.results, ?_, hallowed.invoked,
      hallowed.steps⟩
    show w.executions ++ _ = _
    rw [hopen.executions, List.append_nil]
  obtain ⟨context', outcome⟩ := answer
  cases outcome with
  | ok resultJson => exact ensures_completeAction hran hgate
  | error error => exact ensures_failAction hran hgate

theorem ensures_processAction :
    Ensures env (processAction rt scope grants context action)
      (ActionEnds rt scope grants action w) w := by
  refine ensures_ask ?_
  intro id w₁ hnew
  obtain rfl := hnew
  refine ensures_tryDb (Handler.wp_perform_alone trivial ?_)
  intro answer w₂ hinsert
  obtain ⟨rfl, hfresh, rfl⟩ := hinsert
  refine ⟨(), rfl, ensures_audit fun events => ?_⟩
  have hopen : Opened scope.stepId id action [] w₁
      { w₁ with
        actions := w₁.actions.insertRequest
          (ActionEntry.requestRow scope.stepId id action .requested none) hfresh
        auditEvents := events } :=
    ⟨hfresh, ⟨.requested, none, rfl⟩, rfl, (List.append_nil _).symm, rfl, rfl⟩
  cases hgate : admitAction rt scope.config.toWorkerConfig grants action with
  | error denial => exact ensures_denyAction hopen hgate
  | ok request => exact ensures_runAction hopen ⟨request, hgate⟩

end Action

/-! ## The actions of a run -/

/-- The shape of the recorded actions: executed ones in the order of the list, up
to its end or up to one that was denied or failed. -/
inductive Processed (rt : WorkerRuntime) (config : WorkerConfig) (grants : GrantSet) :
    List SkillAction → List ActionEntry → Bool → Prop
  | done : Processed rt config grants [] [] true
  | next {action : SkillAction} {actions : List SkillAction} {entries : List ActionEntry}
      {completed : Bool} {id : String} {resultJson : Json}
      (hjudged : ActionEntry.Judged rt config grants
        ⟨id, normalizeSkillAction action, .executed resultJson⟩)
      (hrest : Processed rt config grants actions entries completed) :
      Processed rt config grants (action :: actions)
        (⟨id, normalizeSkillAction action, .executed resultJson⟩ :: entries) completed
  | stop {action : SkillAction} {actions : List SkillAction} {id : String}
      {outcome : ActionOutcome} (hstop : outcome.resultStatus ≠ .executed)
      (hjudged : ActionEntry.Judged rt config grants ⟨id, normalizeSkillAction action, outcome⟩) :
      Processed rt config grants (action :: actions)
        [⟨id, normalizeSkillAction action, outcome⟩] false

/-- How the loop ends. -/
inductive ActionsEnd (rt : WorkerRuntime) (scope : RunScope) (grants : GrantSet)
    (actions : List SkillAction) (w w' : RunWorld) : Except String ActionExecutionContext → Prop
  | completed {entries : List ActionEntry} {context : ActionExecutionContext}
      (hproc : Processed rt scope.config.toWorkerConfig grants actions entries true)
      (hrec : Recorded scope.stepId w w' entries) (hsteps : w'.steps = w.steps) :
      ActionsEnd rt scope grants actions w w' (.ok context)
  | stopped {entries : List ActionEntry} {message : String}
      (hproc : Processed rt scope.config.toWorkerConfig grants actions entries false)
      (hrec : Recorded scope.stepId w w' entries) (hstep : StepFailed scope.stepId w w') :
      ActionsEnd rt scope grants actions w w' (.error message)

theorem ensures_processActions {env : RunEnv} {rt : WorkerRuntime} {scope : RunScope}
    {grants : GrantSet} {context : ActionExecutionContext} {actions : List SkillAction}
    {w : RunWorld} :
    Ensures env (processActions rt scope grants context actions)
      (ActionsEnd rt scope grants actions w) w := by
  induction actions generalizing context w with
  | nil => exact ensures_ok (.completed .done (.refl _ _) rfl)
  | cons action actions ih =>
    refine ensures_seq ensures_processAction ?_ ?_
    · intro w₁ context' hfirst
      obtain ⟨hrec, hjudged, hsteps⟩ | _ := hfirst
      refine Handler.wp_mono ?_ ih
      intro w₂ r hrest
      cases hrest with
      | completed hproc hrec' hsteps' =>
        exact .completed (.next hjudged hproc) (hrec.trans hrec') (hsteps'.trans hsteps)
      | stopped hproc hrec' hstep =>
        obtain ⟨errorJson, hfailed⟩ := hstep
        exact .stopped (.next hjudged hproc) (hrec.trans hrec') ⟨errorJson, hsteps ▸ hfailed⟩
    · intro w₁ message hfirst
      obtain _ | ⟨outcome, hstop, hrec, hjudged, hstep⟩ := hfirst
      exact .stopped (.stop hstop hjudged) hrec hstep

/-! ## The run -/

/-- The context is required and cannot be loaded. -/
def ContextAborts (config : CycleConfig) (run : ClaimedRun) (env : RunEnv) : Prop :=
  config.agentContextEnabled = true ∧ config.agentContextRequired = true ∧
    ∃ error, env.loadAgentContextSnapshot run.tenantId run.agentId = .error error

/-- How the part after the step's creation ends. -/
inductive SkillEnds (env : RunEnv) (rt : WorkerRuntime) (scope : RunScope) (w w' : RunWorld) :
    Except String Unit → Prop
  | aborted {message : String} (habort : ContextAborts scope.config scope.run env)
      (hinvoked : w'.invoked = w.invoked) :
      SkillEnds env rt scope w w' (.error message)
  | invokeFailed {message : String} (hinvoked : w'.invoked = w.invoked)
      (hstep : StepFailed scope.stepId w w') : SkillEnds env rt scope w w' (.error message)
  | stopped {message : String} {result : InvokeResult} {entries : List ActionEntry}
      (hproc : Processed rt scope.config.toWorkerConfig
        (parseGrantSet scope.run.grantedCapabilities) result.actionRequests entries false)
      (hrec : Recorded scope.stepId { w with invoked := w.invoked ++ [result] } w' entries)
      (hstep : StepFailed scope.stepId w w') : SkillEnds env rt scope w w' (.error message)
  | completed {result : InvokeResult} {entries : List ActionEntry}
      (hproc : Processed rt scope.config.toWorkerConfig
        (parseGrantSet scope.run.grantedCapabilities) result.actionRequests entries true)
      (hrec : Recorded scope.stepId { w with invoked := w.invoked ++ [result] } w' entries)
      (hsteps : w'.steps = w.steps.map (closeStep scope.stepId (succeedStep result.output))) :
      SkillEnds env rt scope w w' (.ok ())

section Skill

variable {env : RunEnv} {rt : WorkerRuntime} {scope : RunScope} {w : RunWorld}

/-- Preparing the input only writes audit events, and fails exactly when a required
context cannot be loaded. -/
theorem ensures_prepareSkillInput :
    Ensures env (prepareSkillInputWithAgentContext scope)
      (fun w' r => (∃ events, w' = { w with auditEvents := events }) ∧
        ((∃ e, r = .error e) ↔ ContextAborts scope.config scope.run env)) w := by
  unfold prepareSkillInputWithAgentContext
  by_cases hon : scope.config.agentContextEnabled
  · simp only [hon, Bool.not_true, Bool.false_eq_true, if_false]
    refine ensures_ask ?_
    intro loaded w' hload
    obtain ⟨hanswer, rfl⟩ := hload
    cases loaded with
    | ok snapshot =>
      refine ensures_audit fun events => ensures_ok ⟨⟨events, rfl⟩, ?_⟩
      constructor
      · intro h
        obtain ⟨_, he⟩ := h
        cases he
      · intro h
        obtain ⟨_, _, error, herror⟩ := h
        rw [← hanswer] at herror
        cases herror
    | error error =>
      have haudit : ∀ (k : Unit → RunProg Json) Q, (∀ events, Ensures env (k ()) Q
          { w' with auditEvents := events }) →
          Ensures env (scope.auditContextError error >>= k) Q w' := by
        intro k Q hk
        cases error <;> exact ensures_audit hk
      apply haudit
      intro events
      by_cases hrequired : scope.config.agentContextRequired
      · rw [if_pos hrequired]
        refine ensures_error ⟨⟨events, rfl⟩, ?_⟩
        exact iff_of_true ⟨_, rfl⟩ ⟨hon, hrequired, error, hanswer.symm⟩
      · rw [if_neg hrequired]
        refine ensures_ok ⟨⟨events, rfl⟩, ?_⟩
        refine iff_of_false (fun h => ?_) fun h => hrequired h.2.1
        obtain ⟨_, he⟩ := h
        cases he
  · simp only [hon, Bool.not_false, if_true]
    refine ensures_ok ⟨⟨w.auditEvents, rfl⟩, ?_⟩
    refine iff_of_false (fun h => ?_) fun h => hon h.1
    obtain ⟨_, he⟩ := h
    cases he

theorem ensures_runSkill : Ensures env (runSkill rt scope) (SkillEnds env rt scope w) w := by
  refine ensures_seq ensures_prepareSkillInput ?_ ?_
  · intro w₁ input hprep
    obtain ⟨⟨events, rfl⟩, _⟩ := hprep
    refine ensures_ask ?_
    intro invoked w₂ hinvoke
    obtain ⟨_, rfl⟩ := hinvoke
    cases invoked with
    | error error =>
      refine ensures_markStepFailed fun _ => ensures_audit fun _ => ensures_error ?_
      exact .invokeFailed (List.append_nil _) ⟨_, rfl⟩
    | ok result =>
      refine ensures_audit fun events' => ensures_seq ensures_processActions ?_ ?_
      · intro w₃ context hend
        obtain ⟨hproc, hrec, hsteps⟩ | _ := hend
        refine ensures_tryDb (Handler.wp_perform_alone trivial ?_)
        intro moved w₄ hmark
        obtain ⟨rfl, rfl⟩ := hmark
        refine ⟨_, rfl, Handler.wp_bind (Handler.wp_perform_alone trivial ?_)⟩
        intro answer w₅ haudit
        obtain ⟨rfl, rfl⟩ := haudit
        exact ensures_ok (.completed hproc hrec (congrArg (List.map _) hsteps))
      · intro w₃ message hend
        obtain _ | ⟨hproc, hrec, hstep⟩ := hend
        exact .stopped hproc hrec hstep
  · intro w₁ e hprep
    obtain ⟨⟨events, rfl⟩, haborts⟩ := hprep
    exact .aborted (haborts.mp ⟨e, rfl⟩) rfl

end Skill

/-- A run is its new step and what follows it. -/
theorem ensures_processClaimedRun {env : RunEnv} {rt : WorkerRuntime} {config : CycleConfig}
    {run : ClaimedRun} {runTraceId : Option String} {w : RunWorld} :
    Ensures env (processClaimedRun rt config run runTraceId)
      (fun w' r => ∃ scope : RunScope, scope.config = config ∧ scope.run = run ∧
        scope.stepId ∉ w.steps.map (·.id) ∧
        SkillEnds env rt scope { w with steps := w.steps ++ [scope.newStep] } w' r) w := by
  refine ensures_ask ?_
  intro stepId w₁ hnew
  obtain rfl := hnew
  refine ensures_tryDb (Handler.wp_perform_alone trivial ?_)
  intro answer w₂ hcreate
  obtain ⟨rfl, hfresh, rfl⟩ := hcreate
  refine ⟨(), rfl, ensures_audit fun events => Handler.wp_mono ?_ ensures_runSkill⟩
  intro w₃ r hend
  refine ⟨⟨config, run, runTraceId, stepId⟩, rfl, rfl, hfresh, ?_⟩
  cases hend with
  | aborted habort hinvoked => exact .aborted habort hinvoked
  | invokeFailed hinvoked hstep => exact .invokeFailed hinvoked hstep
  | stopped hproc hrec hstep => exact .stopped hproc hrec hstep
  | completed hproc hrec hsteps => exact .completed hproc hrec hsteps

/-! ## What the actions leave behind -/

/-- The actions whose executor succeeded. -/
def executedActions (ran : List Execution) : List SkillAction :=
  (ran.filter fun x => x.outcome.toOption.isSome).map (·.action)

/-- An action's policy request is allowed, and it has the approval it needs. -/
def PassesGates (rt : WorkerRuntime) (config : CycleConfig) (run : ClaimedRun)
    (action : SkillAction) : Prop :=
  ∃ request, toPolicyRequest rt config.toWorkerConfig action = .ok request ∧
    isActionAllowed (parseGrantSet run.grantedCapabilities) request = .allow ∧
    (requiresGovernanceApproval config.toWorkerConfig request.actionType = true →
      isActionGovernanceApproved action = true)

theorem passesGates_of_admit {rt : WorkerRuntime} {config : CycleConfig} {run : ClaimedRun}
    {action : SkillAction} {request : Policy.ActionRequest}
    (h : admitAction rt config.toWorkerConfig (parseGrantSet run.grantedCapabilities) action =
      .ok request) : PassesGates rt config run action := by
  unfold admitAction at h
  split at h
  · cases h
  · rename_i policyRequest hpolicy
    split at h
    · cases h
    · rename_i hallow
      split at h
      · cases h
      · rename_i hgate
        refine ⟨policyRequest, hpolicy, hallow, fun hneeds => ?_⟩
        rw [hneeds, Bool.true_and, Bool.not_eq_true', Bool.not_eq_false] at hgate
        exact hgate

section Processed

variable {rt : WorkerRuntime} {config : WorkerConfig} {grants : GrantSet}
  {actions : List SkillAction} {entries : List ActionEntry} {completed : Bool}

theorem executedActions_of_stopped {id : String} {action : SkillAction} {outcome : ActionOutcome}
    (hstop : outcome.resultStatus ≠ .executed) :
    executedActions (ActionEntry.executions ⟨id, action, outcome⟩) = [] := by
  cases outcome with
  | denied denial => rfl
  | failed error => rfl
  | executed resultJson => exact absurd rfl hstop

theorem executedActions_cons {id : String} {action : SkillAction} {resultJson : Json} :
    executedActions ((⟨id, action, .executed resultJson⟩ :: entries).flatMap (·.executions)) =
      action :: executedActions (entries.flatMap (·.executions)) := rfl

theorem Processed.executed_isPrefix (h : Processed rt config grants actions entries completed) :
    executedActions (entries.flatMap (·.executions)) <+: actions.map normalizeSkillAction := by
  induction h with
  | done => exact List.nil_prefix
  | next _ _ ih =>
    rw [executedActions_cons, List.map_cons]
    exact (List.prefix_cons_inj _).mpr ih
  | stop hstop _ =>
    rw [List.flatMap_singleton, executedActions_of_stopped hstop]
    exact List.nil_prefix

theorem Processed.executed_all_iff (h : Processed rt config grants actions entries completed) :
    executedActions (entries.flatMap (·.executions)) = actions.map normalizeSkillAction ↔
      completed = true := by
  induction h with
  | done => exact iff_of_true rfl rfl
  | next _ _ ih =>
    rw [executedActions_cons, List.map_cons, List.cons_inj_right]
    exact ih
  | stop hstop _ =>
    rw [List.flatMap_singleton, executedActions_of_stopped hstop, List.map_cons]
    exact iff_of_false (List.cons_ne_nil _ _).symm Bool.false_ne_true

/-- Whatever was handed to an executor had been admitted. -/
theorem Processed.admitted (h : Processed rt config grants actions entries completed) :
    ∀ x ∈ entries.flatMap (·.executions), ∃ request,
      admitAction rt config grants x.action = .ok request := by
  induction h with
  | done => exact fun x hx => absurd hx List.not_mem_nil
  | next hjudged _ ih =>
    intro x hx
    rw [List.flatMap_cons] at hx
    rcases List.mem_append.mp hx with hx | hx
    · obtain rfl := List.mem_singleton.mp hx
      exact hjudged
    · exact ih x hx
  | @stop action actions id outcome _ hjudged =>
    intro x hx
    rw [List.flatMap_singleton] at hx
    cases outcome with
    | denied denial => exact absurd hx List.not_mem_nil
    | failed error =>
      obtain rfl := List.mem_singleton.mp hx
      exact hjudged
    | executed resultJson =>
      obtain rfl := List.mem_singleton.mp hx
      exact hjudged

/-- Nothing is recorded after an action that was denied or failed. -/
theorem Processed.stopped_last (h : Processed rt config grants actions entries completed) :
    ∀ e ∈ entries, e.outcome.resultStatus ≠ .executed → ∃ before, entries = before ++ [e] := by
  induction h with
  | done => exact fun e he => absurd he List.not_mem_nil
  | @next _ _ entries _ id resultJson _ _ ih =>
    intro e he hstop
    rcases List.mem_cons.mp he with rfl | he
    · exact absurd rfl hstop
    · obtain ⟨before, hbefore⟩ := ih e he hstop
      exact ⟨_ :: before, by rw [hbefore, List.cons_append]⟩
  | stop _ _ =>
    intro e he _
    obtain rfl := List.mem_singleton.mp he
    exact ⟨[], rfl⟩

theorem Processed.actions_isPrefix (h : Processed rt config grants actions entries completed) :
    entries.map (·.action) <+: actions.map normalizeSkillAction := by
  induction h with
  | done => exact List.nil_prefix
  | next _ _ ih => exact (List.prefix_cons_inj _).mpr ih
  | stop _ _ => exact (List.prefix_cons_inj _).mpr List.nil_prefix

end Processed

/-- The rows of executed actions are those whose executor succeeded. -/
theorem executed_ids (stepId : String) (entries : List ActionEntry) :
    ((entries.map (·.request stepId)).filter (·.status = .executed)).map (·.id) =
      ((entries.flatMap (·.executions)).filter
        fun x => x.outcome.toOption.isSome).map (·.actionRequestId) := by
  induction entries with
  | nil => rfl
  | cons e entries ih =>
    obtain ⟨id, action, outcome⟩ := e
    rw [List.map_cons, List.filter_cons, List.flatMap_cons, List.filter_append, List.map_append,
      ← ih]
    cases outcome <;> rfl

theorem ActionEntry.request_stopped {stepId : String} {e : ActionEntry}
    (h : (e.request stepId).status = .denied ∨ (e.request stepId).status = .failed) :
    e.outcome.resultStatus ≠ .executed := by
  intro hexec
  have hstatus : (e.request stepId).status = .executed :=
    congrArg ActionResultStatus.ofRequest hexec
  rw [hstatus] at h
  rcases h with h | h <;> cases h

/-- The requests of these actions each have one result, of their own status. -/
theorem Recorded.results_of_requests {stepId : String} {w w' : RunWorld}
    {entries : List ActionEntry} (h : Recorded stepId w w' entries) :
    ∀ row ∈ entries.map (·.request stepId), ∃ result,
      w'.actions.results.filter (·.actionRequestId = row.id) = [result] ∧
        row.status = result.status.ofRequest := by
  intro row hrow
  obtain ⟨e, he, rfl⟩ := List.mem_map.mp hrow
  have hmem : e.result ∈ w'.actions.results := by
    rw [h.2.1]
    exact List.mem_append_right _ (List.mem_map_of_mem he)
  have hone := Table.filter_key w'.actions.resultKeys hmem
  exact ⟨e.result, hone, rfl⟩

/-- The actions of a run whose skill answered `result`.  Those executed are a
prefix of the emitted ones, each of them passed the gates; what was denied or
failed is recorded last; every recorded request has exactly one result, of its own
final status; and the run succeeds exactly when every action was executed. -/
theorem processClaimedRun_actions {env : RunEnv} {rt : WorkerRuntime} {config : CycleConfig}
    {run : ClaimedRun} {runTraceId : Option String} {w w' : RunWorld} {r : Except String Unit}
    {result : InvokeResult}
    (hrun : Finishes (runHandler env) w (processClaimedRun rt config run runTraceId) w' r)
    (hemitted : w'.invoked = w.invoked ++ [result]) :
    ∃ recorded ran, w'.actions.requests = w.actions.requests ++ recorded ∧
      w'.executions = w.executions ++ ran ∧
      executedActions ran <+: result.actionRequests.map normalizeSkillAction ∧
      (∀ x ∈ ran, PassesGates rt config run x.action) ∧
      recorded.map (·.actionType) <+:
        (result.actionRequests.map normalizeSkillAction).map (·.actionType) ∧
      (recorded.filter (·.status = .executed)).map (·.id) =
        (ran.filter fun x => x.outcome.toOption.isSome).map (·.actionRequestId) ∧
      (∀ row ∈ recorded, row.status = .denied ∨ row.status = .failed →
        ∃ before, recorded = before ++ [row]) ∧
      (∀ row ∈ recorded, ∃ resultRow,
        w'.actions.results.filter (·.actionRequestId = row.id) = [resultRow] ∧
          row.status = resultRow.status.ofRequest) ∧
      (r = .ok () ↔ executedActions ran = result.actionRequests.map normalizeSkillAction) := by
  obtain ⟨scope, rfl, rfl, _, hend⟩ := Handler.wp_of_finishes ensures_processClaimedRun hrun
  -- the two endings after an answer of the skill say the same about the actions
  have hactions : ∃ entries completed, Processed rt scope.config.toWorkerConfig
      (parseGrantSet scope.run.grantedCapabilities) result.actionRequests entries completed ∧
      Recorded scope.stepId { w with
        steps := w.steps ++ [scope.newStep], invoked := w.invoked ++ [result] } w' entries ∧
      (r = .ok () ↔ completed = true) := by
    cases hend with
    | aborted _ hinvoked => simp [hinvoked] at hemitted
    | invokeFailed hinvoked _ => simp [hinvoked] at hemitted
    | stopped hproc hrec _ =>
      obtain rfl : result = _ := by simpa [hrec.2.2.2] using hemitted.symm
      exact ⟨_, false, hproc, hrec, by simp⟩
    | completed hproc hrec _ =>
      obtain rfl : result = _ := by simpa [hrec.2.2.2] using hemitted.symm
      exact ⟨_, true, hproc, hrec, by simp⟩
  obtain ⟨entries, completed, hproc, hrec, hok⟩ := hactions
  refine ⟨entries.map (·.request scope.stepId), entries.flatMap (·.executions), hrec.1, hrec.2.2.1,
    hproc.executed_isPrefix, ?_, ?_, executed_ids _ _, ?_, hrec.results_of_requests,
    hok.trans hproc.executed_all_iff.symm⟩
  · intro x hx
    obtain ⟨request, hgate⟩ := hproc.admitted x hx
    exact passesGates_of_admit hgate
  · have htypes := hproc.actions_isPrefix.map (·.actionType)
    rw [List.map_map] at htypes ⊢
    exact htypes
  · intro row hrow hstop
    obtain ⟨e, he, rfl⟩ := List.mem_map.mp hrow
    obtain ⟨before, rfl⟩ := hproc.stopped_last e he (ActionEntry.request_stopped hstop)
    exact ⟨before.map (·.request scope.stepId), by rw [List.map_append, List.map_singleton]⟩

/-! ## The step -/

/-- The one new step is closed, and its status tells how the run ended. -/
def StepClosed (w w' : RunWorld) (r : Except String Unit) : Prop :=
  ∃ row, w'.steps = w.steps ++ [row] ∧ (row.status = .succeeded ↔ r = .ok ()) ∧
    (row.status = .failed ↔ ∃ e, r = .error e)

/-- Closing a new step leaves the older ones alone. -/
theorem map_closeStep_new {steps : List StepRow} {scope : RunScope} {close : StepRow → StepRow}
    (hfresh : scope.stepId ∉ steps.map (·.id)) :
    (steps ++ [scope.newStep]).map (closeStep scope.stepId close) =
      steps ++ [close scope.newStep] := by
  have hopen : isOpenStep scope.stepId scope.newStep = true := by
    simp [isOpenStep, RunScope.newStep]
  rw [List.map_append, List.map_singleton]
  congr 1
  · rw [List.map_congr_left (g := fun row => row), List.map_id']
    intro row hrow
    apply if_neg
    intro hthis
    have hid : row.id = scope.stepId := (of_decide_eq_true hthis).1
    exact hfresh (hid ▸ List.mem_map_of_mem hrow)
  · rw [closeStep, if_pos hopen]

theorem StepFailed.closed {w w' : RunWorld} {scope : RunScope} {message : String}
    (hfresh : scope.stepId ∉ w.steps.map (·.id))
    (h : StepFailed scope.stepId { w with steps := w.steps ++ [scope.newStep] } w') :
    StepClosed w w' (.error message) := by
  obtain ⟨errorJson, hsteps⟩ := h
  rw [map_closeStep_new hfresh] at hsteps
  refine ⟨_, hsteps, iff_of_false ?_ ?_, iff_of_true rfl ⟨message, rfl⟩⟩
  · exact StepStatus.noConfusion
  · intro hok
    cases hok

/-! ## Runs that can be had -/

section Runs

variable {env : RunEnv} {scope : RunScope}

theorem finishes_tryDb {w w' : RunWorld} {α : Type} {call : RunProg (Except String α)} {a : α}
    (h : Finishes (runHandler env) w call w' (.ok (.ok a))) :
    Finishes (runHandler env) w (tryDb call) w' (.ok a) :=
  h.bind_ok (.pure w' a)

theorem finishes_audit (w : RunWorld) (eventType : String) (payloadJson : Json) :
    Finishes (runHandler env) w (scope.audit eventType payloadJson)
      { w with auditEvents := w.auditEvents ++ [runEvent scope.config scope.run scope.runTraceId
        (some scope.stepId) eventType payloadJson] } (.ok ()) :=
  finishes_tryDb (.perform ⟨rfl, rfl⟩)

theorem finishes_auditContextError (env : RunEnv) (scope : RunScope) (w : RunWorld)
    (error : AgentContextLoadError) :
    ∃ events, Finishes (runHandler env) w (scope.auditContextError error)
      { w with auditEvents := events } (.ok ()) := by
  cases error with
  | notFound searchedPaths => exact ⟨_, finishes_audit _ _ _⟩
  | other message => exact ⟨_, finishes_audit _ _ _⟩

theorem finishes_prepareSkillInput_error (w : RunWorld)
    (habort : ContextAborts scope.config scope.run env) :
    ∃ events e, Finishes (runHandler env) w (prepareSkillInputWithAgentContext scope)
      { w with auditEvents := events } (.error e) := by
  obtain ⟨hon, hrequired, error, hload⟩ := habort
  obtain ⟨events, haudit⟩ := finishes_auditContextError env scope w error
  refine ⟨events, error.text scope.run.agentId, ?_⟩
  unfold prepareSkillInputWithAgentContext
  simp only [hon, Bool.not_true, Bool.false_eq_true, if_false]
  refine Finishes.bind_ok (.perform ⟨hload.symm, rfl⟩) (haudit.bind_ok ?_)
  rw [if_pos hrequired]
  exact .fail _ _

/-- A required context that cannot be loaded ends the run before anything closes
its step. -/
theorem finishes_of_contextAborts (rt : WorkerRuntime) {config : CycleConfig} {run : ClaimedRun}
    (runTraceId : Option String) (habort : ContextAborts config run env) :
    ∃ w' e row, Finishes (runHandler env) .empty (processClaimedRun rt config run runTraceId) w'
      (.error e) ∧ w'.steps = [row] ∧ row.status = .running := by
  let scope : RunScope := ⟨config, run, runTraceId, "step-1"⟩
  have habort' : ContextAborts scope.config scope.run env := habort
  obtain ⟨events, e, hprepare⟩ := finishes_prepareSkillInput_error
    ⟨[scope.newStep], .empty, [runEvent config run runTraceId (some "step-1") "step.started"
      (.obj [("step_name", .str run.recipeId)])], [], []⟩ habort'
  have hcreate : Finishes (runHandler env) .empty
      (tryDb (askRun (.createStep scope.newStep))) ⟨[scope.newStep], .empty, [], [], []⟩ (.ok ()) :=
    finishes_tryDb (.perform ⟨rfl, List.not_mem_nil, rfl⟩)
  exact ⟨_, e, scope.newStep, .call "step-1" rfl
    (hcreate.bind_ok ((finishes_audit _ _ _).bind_ok hprepare.bind_error)), rfl, rfl⟩

/-- Such a run leaves its step open although it has ended. -/
theorem open_step_of_contextAborts (rt : WorkerRuntime) {config : CycleConfig} {run : ClaimedRun}
    (runTraceId : Option String) (habort : ContextAborts config run env) :
    ∃ w w' r, Finishes (runHandler env) w (processClaimedRun rt config run runTraceId) w' r ∧
      ¬ StepClosed w w' r := by
  obtain ⟨w', e, row, hrun, hsteps, hrunning⟩ := finishes_of_contextAborts rt runTraceId habort
  refine ⟨.empty, w', .error e, hrun, fun hclosed => ?_⟩
  obtain ⟨row', hsteps', _, hfailed⟩ := hclosed
  obtain rfl : row = row' := by simpa [hsteps, RunWorld.empty] using hsteps'
  have hstatus := hfailed.mpr ⟨e, rfl⟩
  rw [hrunning] at hstatus
  cases hstatus

end Runs

/-- Processing closes the step it created, in every run, exactly when no required
agent context fails to load. -/
theorem processClaimedRun_closes_step_iff (env : RunEnv) (rt : WorkerRuntime)
    (config : CycleConfig) (run : ClaimedRun) (runTraceId : Option String) :
    (∀ w w' r, Finishes (runHandler env) w (processClaimedRun rt config run runTraceId) w' r →
      StepClosed w w' r) ↔ ¬ ContextAborts config run env := by
  constructor
  · intro hclosed habort
    obtain ⟨w, w', r, hrun, hopen⟩ := open_step_of_contextAborts rt runTraceId habort
    exact hopen (hclosed w w' r hrun)
  · intro hloads w w' r hrun
    obtain ⟨scope, rfl, rfl, hfresh, hend⟩ :=
      Handler.wp_of_finishes ensures_processClaimedRun hrun
    cases hend with
    | aborted habort _ => exact absurd habort hloads
    | invokeFailed _ hstep => exact hstep.closed hfresh
    | stopped _ _ hstep => exact hstep.closed hfresh
    | completed _ _ hsteps =>
      rw [map_closeStep_new hfresh] at hsteps
      refine ⟨_, hsteps, iff_of_true rfl rfl, iff_of_false ?_ ?_⟩
      · exact StepStatus.noConfusion
      · intro herror
        obtain ⟨e, he⟩ := herror
        cases he

/-! ## Two concrete runs -/

/-- A run that may write notes. -/
def noteRun : ClaimedRun where
  id := "run-1"
  tenantId := "tenant-1"
  agentId := "agent-1"
  inputJson := .obj []
  grantedCapabilities := .arr [.obj [("capability", .str "object.write"),
    ("scope", .str "notes/*")]]
  triggeredByUserId := none
  recipeId := "notes_v1"

def noteConfig (contextRequired : Bool) : CycleConfig where
  toWorkerConfig := smallTierConfig
  agentContextEnabled := contextRequired
  agentContextRequired := contextRequired

def noteAction : SkillAction where
  actionId := "a1"
  actionType := "object.write"
  args := .obj [("path", .str "notes/a.md"), ("content", .str "hi")]
  justification := "note"

/-- The arguments of the note are 36 bytes of JSON. -/
def noteRuntime : WorkerRuntime := { sampleWorkerRuntime with serializedLen := fun _ => 36 }

/-- No profile is stored for the agent, and the skill writes one note. -/
def noteEnv : RunEnv where
  loadAgentContextSnapshot := fun _ _ => .error (.notFound ["agent_context/tenant-1/agent-1"])
  invokeSkill := fun _ => .ok ⟨.null, [noteAction]⟩

/-- With the profile required, the step of the failed run stays `running`. -/
theorem noteRun_leaves_step_running :
    ¬ ∀ w w' r, Finishes (runHandler noteEnv) w
      (processClaimedRun noteRuntime (noteConfig true) noteRun none) w' r → StepClosed w w' r := by
  intro hclosed
  have habort : ContextAborts (noteConfig true) noteRun noteEnv := ⟨rfl, rfl, _, rfl⟩
  obtain ⟨w, w', r, hrun, hopen⟩ := open_step_of_contextAborts noteRuntime none habort
  exact hopen (hclosed w w' r hrun)

/-- A file outside the notes. -/
def secretAction : SkillAction where
  actionId := "a2"
  actionType := "object.write"
  args := .obj [("path", .str "secret/a.md"), ("content", .str "hi")]
  justification := "note"

/-- The skill writes a note, then elsewhere, then a note again. -/
def secretEnv : RunEnv where
  loadAgentContextSnapshot := fun _ _ => .error (.notFound ["agent_context/tenant-1/agent-1"])
  invokeSkill := fun _ => .ok ⟨.null, [noteAction, secretAction, noteAction]⟩

/-- Where it is not, the first note is written and recorded so, the second action is
denied and recorded last, and the run fails. -/
theorem noteRun_stops_at_denial :
    ∃ w' e, Finishes (runHandler secretEnv) .empty
      (processClaimedRun noteRuntime (noteConfig false) noteRun none) w' (.error e) ∧
      w'.actions.requests.map (·.status) = [.executed, .denied] ∧
      executedActions w'.executions <+:
        [noteAction, secretAction, noteAction].map normalizeSkillAction ∧
      (∀ row ∈ w'.actions.requests, ∃ resultRow,
        w'.actions.results.filter (·.actionRequestId = row.id) = [resultRow] ∧
          row.status = resultRow.status.ofRequest) ∧
      executedActions w'.executions ≠
        [noteAction, secretAction, noteAction].map normalizeSkillAction := by
  obtain ⟨w', e, hrun, hinvoked, hstatus⟩ : ∃ w' e, Finishes (runHandler secretEnv) .empty
      (processClaimedRun noteRuntime (noteConfig false) noteRun none) w' (.error e) ∧
      w'.invoked = [⟨.null, [noteAction, secretAction, noteAction]⟩] ∧
      w'.actions.requests.map (·.status) = [.executed, .denied] := by
    -- the step and the skill's answer, the executed action, the denied one, and the step again
    refine ⟨_, _, .call "step-1" rfl <| .call (.ok ()) ⟨rfl, List.not_mem_nil, rfl⟩ <|
      .call (.ok ()) ⟨rfl, rfl⟩ <|
      .call (.ok ⟨.null, [noteAction, secretAction, noteAction]⟩) ⟨rfl, rfl⟩ <|
      .call (.ok ()) ⟨rfl, rfl⟩ <|
      .call "act-1" rfl <| .call (.ok ()) ⟨rfl, List.not_mem_nil, rfl⟩ <|
      .call (.ok ()) ⟨rfl, rfl⟩ <| .call (.ok true) ⟨rfl, rfl⟩ <| .call (.ok ()) ⟨rfl, rfl⟩ <|
      .call (⟨none, 0, none⟩, .ok .null) rfl <| .call (.ok true) ⟨rfl, rfl⟩ <|
      .call (.ok ()) ⟨rfl, List.mem_singleton_self _, rfl⟩ <| .call (.ok ()) ⟨rfl, rfl⟩ <|
      .call "act-2" rfl <| .call (.ok ()) ⟨rfl, by decide, rfl⟩ <|
      .call (.ok ()) ⟨rfl, rfl⟩ <| .call (.ok true) ⟨rfl, rfl⟩ <|
      .call (.ok ()) ⟨rfl, by decide, rfl⟩ <| .call (.ok ()) ⟨rfl, rfl⟩ <|
      .call (.ok true) ⟨rfl, rfl⟩ <| .fail _ _, rfl, rfl⟩
  obtain ⟨recorded, ran, hrecorded, hran, hprefix, _, _, _, _, hresults, hok⟩ :=
    processClaimedRun_actions hrun hinvoked
  refine ⟨w', e, hrun, hstatus, ?_, ?_, ?_⟩
  · rw [hran]
    exact hprefix
  · rw [hrecorded]
    exact hresults
  · rw [hran]
    exact fun hall => nomatch hok.mpr hall

end Worker
end SecureAgnt

/-
What a request without the trusted proxy's token can learn and change.

A handler that asks for the role answers before it has read anything.  The handlers of a
run and of its audit trail never ask: they answer from the rows of the tenant named in the
header.  Webhook events are let in by the trigger's own secret, where it has one.
-/
import SecureAgnt.Api.Routes

namespace SecureAgnt
namespace Api

open Storage (Backend)

section Sealed

variable {Rest : Type} {bodies : Bodies Rest} {env : ApiEnv} {backend : Backend}
  {state : AppState} {route : Route} {headers : HeaderMap} {data data₁ data₂ : ApiData Rest}

/-! ## Handlers that ask for the role -/

theorem handle_roleScoped (h : route.roleScoped = true) (req : Request route)
    (data : ApiData Rest) :
    handle bodies env backend state route req data =
      withArgs req.args data fun args =>
        roleScopedHandler bodies backend state route req args data := by
  cases route <;> first | (exact absurd h (by decide)) | rfl

/-- Before the role nothing of the stored data is read. -/
theorem roleScopedHandler_refuses (henabled : state.trustedProxyAuthEnabled = true)
    (req : Request route) (htoken : ¬ CorrectToken state req.headers) (args : route.Args) :
    ∃ e, ∀ data : ApiData Rest,
      roleScopedHandler bodies backend state route req args data = (.failed e, data) := by
  obtain ⟨e, he⟩ := roleFromHeaders_of_not_correctToken henabled htoken
  unfold roleScopedHandler
  cases route.precheck state args with
  | error e => exact ⟨e, fun _ => rfl⟩
  | ok _ =>
    cases tenantFromHeaders req.headers with
    | error e => exact ⟨e, fun _ => rfl⟩
    | ok tenantId =>
      rw [he]
      exact ⟨e, fun _ => rfl⟩

theorem roleScoped_refuses (hscoped : route.roleScoped = true)
    (henabled : state.trustedProxyAuthEnabled = true) (req : Request route)
    (htoken : ¬ CorrectToken state req.headers) :
    ∃ response, ∀ data : ApiData Rest,
      handle bodies env backend state route req data = (response, data) := by
  cases hargs : req.args with
  | error reason =>
    refine ⟨.refusedByFramework reason, fun data => ?_⟩
    rw [handle_roleScoped hscoped, hargs, withArgs]
  | ok args =>
    obtain ⟨e, he⟩ := roleScopedHandler_refuses henabled req htoken args
    refine ⟨.failed e, fun data => ?_⟩
    rw [handle_roleScoped hscoped, hargs]
    exact he data

/-! ## The rows of a tenant -/

/-- Two sets of stored data have the same runs, audit events and triggers of a tenant. -/
structure SameTenantRows (tenantId : String) (data₁ data₂ : ApiData Rest) : Prop where
  runs : data₁.runs.filter (·.tenantId = tenantId) = data₂.runs.filter (·.tenantId = tenantId)
  auditEvents : data₁.auditEvents.filter (·.tenantId = tenantId) =
    data₂.auditEvents.filter (·.tenantId = tenantId)
  triggers : data₁.triggers.filter (·.tenantId = tenantId) =
    data₂.triggers.filter (·.tenantId = tenantId)

theorem find?_and {α : Type} (p q : α → Bool) (rows : List α) :
    rows.find? (fun row => p row && q row) = (rows.filter p).find? q := by
  induction rows with
  | nil => rfl
  | cons first rest ih =>
    by_cases hp : p first = true
    · rw [List.filter_cons_of_pos hp, List.find?_cons, List.find?_cons, hp, Bool.true_and, ih]
    · rw [List.filter_cons_of_neg hp, List.find?_cons, ih]
      simp [hp]

theorem getRunStatus_congr {tenantId : String} (h : SameTenantRows tenantId data₁ data₂)
    (runId : Uuid) : getRunStatus data₁ tenantId runId = getRunStatus data₂ tenantId runId := by
  rw [getRunStatus, getRunStatus, find?_and, find?_and]
  exact congrArg (List.find? _) h.runs

theorem getTrigger_congr {tenantId : String} (h : SameTenantRows tenantId data₁ data₂)
    (triggerId : Uuid) :
    getTrigger data₁ tenantId triggerId = getTrigger data₂ tenantId triggerId := by
  rw [getTrigger, getTrigger, find?_and, find?_and]
  exact congrArg (List.find? _) h.triggers

theorem listRunAuditEvents_congr {tenantId : String} (h : SameTenantRows tenantId data₁ data₂)
    (runId : Uuid) (limit : Int) : listRunAuditEvents backend data₁ tenantId runId limit =
      listRunAuditEvents backend data₂ tenantId runId limit := by
  have hfilter : ∀ data : ApiData Rest,
      data.auditEvents.filter (fun event => event.tenantId = tenantId && event.runId = runId) =
        (data.auditEvents.filter (·.tenantId = tenantId)).filter (·.runId = runId) := by
    intro data
    rw [List.filter_filter]
    exact List.filter_congr fun event _ => Bool.and_comm _ _
  rw [listRunAuditEvents, listRunAuditEvents, hfilter, hfilter, h.auditEvents]

/-- The request names the tenant, and the data agree on its rows. -/
def SameRowsFor (headers : HeaderMap) (data₁ data₂ : ApiData Rest) : Prop :=
  ∀ tenantId, tenantFromHeaders headers = .ok tenantId → SameTenantRows tenantId data₁ data₂

theorem getRunHandler_congr (h : SameRowsFor headers data₁ data₂) (runId : Uuid) :
    getRunHandler headers runId data₁ = getRunHandler headers runId data₂ := by
  unfold getRunHandler
  cases htenant : tenantFromHeaders headers with
  | error e => rfl
  | ok tenantId =>
    dsimp only
    rw [getRunStatus_congr (h tenantId htenant)]

theorem getRunAuditHandler_congr (h : SameRowsFor headers data₁ data₂) (runId : Uuid)
    (limit : Option Int) : getRunAuditHandler backend headers runId limit data₁ =
      getRunAuditHandler backend headers runId limit data₂ := by
  unfold getRunAuditHandler
  cases htenant : tenantFromHeaders headers with
  | error e => rfl
  | ok tenantId =>
    dsimp only
    rw [getRunStatus_congr (h tenantId htenant), listRunAuditEvents_congr (h tenantId htenant)]

/-! ## Webhook events -/

/-- The tenant has an enabled webhook trigger of that id, and the trigger has no secret or
the request presents it. -/
def EventAdmitted (env : ApiEnv) (headers : HeaderMap) (triggerId : Uuid)
    (data : ApiData Rest) : Prop :=
  ∃ tenantId, tenantFromHeaders headers = .ok tenantId ∧
    admitEvent env headers (getTrigger data tenantId triggerId) = .ok ()

theorem ingest_refuses {triggerId : Uuid} (event : TriggerEventRequest)
    (h : ¬ EventAdmitted env headers triggerId data₁) (hrows : SameRowsFor headers data₁ data₂) :
    ∃ response, ingestTriggerEventHandler env backend headers triggerId event data₁ =
        (response, data₁) ∧
      ingestTriggerEventHandler env backend headers triggerId event data₂ = (response, data₂) := by
  unfold ingestTriggerEventHandler
  cases htenant : tenantFromHeaders headers with
  | error e => exact ⟨_, rfl, rfl⟩
  | ok tenantId =>
    dsimp only
    split
    · exact ⟨_, rfl, rfl⟩
    split
    · exact ⟨_, rfl, rfl⟩
    rw [← getTrigger_congr (hrows tenantId htenant)]
    cases hadmits : admitEvent env headers (getTrigger data₁ tenantId triggerId) with
    | error e => exact ⟨_, rfl, rfl⟩
    | ok _ => exact absurd ⟨tenantId, htenant, hadmits⟩ h

/-- The request is an event that a trigger lets in. -/
def RequestAdmitted (env : ApiEnv) : (route : Route) → Request route → ApiData Rest → Prop
  | .ingestTriggerEvent, req, data =>
    ∃ triggerId event, req.args = .ok (triggerId, event) ∧
      EventAdmitted env req.headers triggerId data
  | _, _, _ => False

/-! ## All routes -/

theorem open_route_answers (hscoped : route.roleScoped = false) (req : Request route)
    (hadmitted : ¬ RequestAdmitted env route req data₁)
    (hrows : SameRowsFor req.headers data₁ data₂) :
    ∃ response, handle bodies env backend state route req data₁ = (response, data₁) ∧
      handle bodies env backend state route req data₂ = (response, data₂) := by
  obtain ⟨headers, args⟩ := req
  cases route <;> first | (exact absurd hscoped (by decide)) | skip
  case ingestTriggerEvent =>
    cases args with
    | error reason => exact ⟨.refusedByFramework reason, rfl, rfl⟩
    | ok args =>
      obtain ⟨triggerId, event⟩ := args
      exact ingest_refuses event (fun h => hadmitted ⟨triggerId, event, rfl, h⟩) hrows
  case getRun =>
    cases args with
    | error reason => exact ⟨.refusedByFramework reason, rfl, rfl⟩
    | ok runId =>
      have hsame : getRunHandler headers runId data₁ = getRunHandler headers runId data₂ :=
        getRunHandler_congr hrows runId
      exact ⟨_, rfl, congrArg (fun response => (response, data₂)) hsame.symm⟩
  case getRunAudit =>
    cases args with
    | error reason => exact ⟨.refusedByFramework reason, rfl, rfl⟩
    | ok args =>
      obtain ⟨runId, limit⟩ := args
      have hsame : getRunAuditHandler backend headers runId limit data₁ =
          getRunAuditHandler backend headers runId limit data₂ :=
        getRunAuditHandler_congr hrows runId limit
      exact ⟨_, rfl, congrArg (fun response => (response, data₂)) hsame.symm⟩

theorem untrusted_answers (henabled : state.trustedProxyAuthEnabled = true)
    (req : Request route) (htoken : ¬ CorrectToken state req.headers)
    (hadmitted : ¬ RequestAdmitted env route req data₁)
    (hrows : SameRowsFor req.headers data₁ data₂) :
    ∃ response, handle bodies env backend state route req data₁ = (response, data₁) ∧
      handle bodies env backend state route req data₂ = (response, data₂) := by
  cases hscoped : route.roleScoped with
  | true =>
    obtain ⟨response, hresponse⟩ := roleScoped_refuses hscoped henabled req htoken
    exact ⟨response, hresponse data₁, hresponse data₂⟩
  | false => exact open_route_answers hscoped req hadmitted hrows

end Sealed

/-- Without the proxy's token: a handler that asks for the role answers the same whatever
is stored.  No handler changes anything, and none answers from other rows than those of the
tenant in the header, unless the request is an event that a trigger lets in. -/
theorem untrusted_request_sealed {Rest : Type} (bodies : Bodies Rest) (env : ApiEnv)
    (backend : Backend) (state : AppState) (route : Route) (req : Request route)
    (henabled : state.trustedProxyAuthEnabled = true)
    (htoken : ¬ CorrectToken state req.headers) :
    (route.roleScoped = true → ∀ data₁ data₂ : ApiData Rest,
      (handle bodies env backend state route req data₁).1 =
        (handle bodies env backend state route req data₂).1) ∧
    ∀ data₁ : ApiData Rest, ¬ RequestAdmitted env route req data₁ →
      (handle bodies env backend state route req data₁).2 = data₁ ∧
      ∀ data₂ : ApiData Rest, SameRowsFor req.headers data₁ data₂ →
        (handle bodies env backend state route req data₁).1 =
          (handle bodies env backend state route req data₂).1 := by
  constructor
  · intro hscoped data₁ data₂
    obtain ⟨response, hresponse⟩ := roleScoped_refuses hscoped henabled req htoken
    rw [hresponse, hresponse]
  · intro data₁ hadmitted
    constructor
    · have hself : SameRowsFor req.headers data₁ data₁ := fun _ _ => ⟨rfl, rfl, rfl⟩
      obtain ⟨response, hresponse, _⟩ := untrusted_answers henabled req htoken hadmitted hself
      rw [hresponse]
    · intro data₂ hrows
      obtain ⟨response, hleft, hright⟩ := untrusted_answers henabled req htoken hadmitted hrows
      rw [hleft, hright]

/-! ## A run read without the token -/

/-- The request presents the secret that the trigger it names is configured with. -/
def PresentsSecret {Rest : Type} (env : ApiEnv) :
    (route : Route) → Request route → ApiData Rest → Prop
  | .ingestTriggerEvent, req, data =>
    ∃ triggerId event tenantId trigger, req.args = .ok (triggerId, event) ∧
      tenantFromHeaders req.headers = .ok tenantId ∧
      getTrigger data tenantId triggerId = some trigger ∧ trigger.webhookSecretRef.isSome ∧
      checkTriggerSecret env req.headers trigger = .ok ()
  | _, _, _ => False

def proxyState : AppState where
  trustedProxyAuthEnabled := true
  trustedProxyAuthSecret := some "proxy-shared-secret"

def plainEnv : ApiEnv where
  resolveReference _ := .error "no secrets here"
  semanticDedupeKey _ _ _ := "key"
  newEventId := Uuid.repeated 1

/-- Handlers that answer nothing. -/
def silentBodies : Bodies Unit := fun _ _ _ _ _ data => (.answered 204 .null, data)

def tenantHeaders : HeaderMap := [(tenantHeader, ⟨some "acme"⟩)]

def runRequest : Request .getRun := ⟨tenantHeaders, .ok (Uuid.repeated 2)⟩

def emptyData : ApiData Unit := ⟨[], [], [], [], ()⟩

def storedRun : RunStatusRecord where
  id := Uuid.repeated 2
  tenantId := "acme"
  agentId := Uuid.repeated 3
  triggeredByUserId := none
  recipeId := "show_notes_v1"
  status := "running"
  inputJson := .obj []
  requestedCapabilities := .arr []
  grantedCapabilities := .arr []
  createdAt := 0
  startedAt := none
  finishedAt := none
  errorJson := none
  attempts := 0
  leaseOwner := none
  leaseExpiresAt := none

theorem not_correctToken_tenantHeaders : ¬ CorrectToken proxyState tenantHeaders := by
  intro htoken
  obtain ⟨_, token, _, hheader⟩ := htoken
  have hnone : (HeaderMap.get tenantHeaders authProxyTokenHeader).bind HeaderValue.toStr = none :=
    rfl
  rw [hnone] at hheader
  cases hheader

/-! A tenant's trigger and a request to disable it, with a guessed token. -/

/-- Handlers of which one disables the triggers of the tenant and answers with the number of
triggers stored. -/
def disablingBodies : Bodies Unit
  | _, .disableTrigger, tenantId, _, _, data =>
    (.answered 200 (.num (.posInt data.triggers.length.toUInt64)),
      { data with
        triggers := data.triggers.map fun trigger =>
          if trigger.tenantId = tenantId then { trigger with status := "disabled" } else trigger })
  | _, _, _, _, _, data => (.answered 204 .null, data)

def disableRequest (token : String) : Request .disableTrigger :=
  ⟨(authProxyTokenHeader, ⟨some token⟩) :: tenantHeaders, .ok .null⟩

def hourlyTrigger : TriggerRow where
  id := Uuid.repeated 4
  tenantId := "acme"
  triggerType := "interval"
  status := "enabled"
  deadLetteredAt := none
  webhookSecretRef := none

def storedData : ApiData Unit :=
  { emptyData with runs := [storedRun], triggers := [hourlyTrigger] }

theorem not_correctToken_guessed : ¬ CorrectToken proxyState (disableRequest "guessed").headers := by
  rintro ⟨_, token, hexpected, hheader⟩
  have hguessed : token = "guessed" := (Option.some.inj hheader).symm
  subst hguessed
  exact absurd hexpected (by decide)

theorem guessed_token_changes_nothing :
    (handle disablingBodies plainEnv .postgres proxyState .disableTrigger
        (disableRequest "guessed") storedData).2 = storedData ∧
      (handle disablingBodies plainEnv .postgres proxyState .disableTrigger
          (disableRequest "guessed") storedData).1 =
        (handle disablingBodies plainEnv .postgres proxyState .disableTrigger
          (disableRequest "guessed") emptyData).1 ∧
      (handle disablingBodies plainEnv .postgres proxyState .disableTrigger
          (disableRequest "proxy-shared-secret") storedData).2.triggers =
        [{ hourlyTrigger with status := "disabled" }] := by
  have hsealed := untrusted_request_sealed disablingBodies plainEnv .postgres proxyState
    .disableTrigger (disableRequest "guessed") rfl not_correctToken_guessed
  exact ⟨(hsealed.2 storedData fun h => h).1, hsealed.1 rfl storedData emptyData, rfl⟩

/-- Without the token the response tells whether the tenant has the run. -/
theorem run_readable_without_token :
    ¬ ∀ (bodies : Bodies Unit) (env : ApiEnv) (backend : Backend) (state : AppState)
        (route : Route) (req : Request route), state.trustedProxyAuthEnabled = true →
      ¬ CorrectToken state req.headers → ∀ data₁ data₂ : ApiData Unit,
        ¬ PresentsSecret env route req data₁ → ¬ PresentsSecret env route req data₂ →
        (handle bodies env backend state route req data₁).1 =
            (handle bodies env backend state route req data₂).1 ∧
          (handle bodies env backend state route req data₁).2 = data₁ := by
  intro h
  have hsame := (h silentBodies plainEnv .postgres proxyState .getRun runRequest rfl
    not_correctToken_tenantHeaders emptyData { emptyData with runs := [storedRun] }
    (fun h => h) (fun h => h)).1
  have hmissing : (handle silentBodies plainEnv .postgres proxyState .getRun runRequest
      emptyData).1 = .failed (.notFound "run not found") := rfl
  have hfound : (handle silentBodies plainEnv .postgres proxyState .getRun runRequest
      { emptyData with runs := [storedRun] }).1 = .run (runToResponse storedRun) := rfl
  rw [hmissing, hfound] at hsame
  cases hsame

end Api
end SecureAgnt

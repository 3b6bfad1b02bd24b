/-
The worker's `llm.infer` action: the arguments it completes from the run, the
remote token budgets it checks, and the usage it records.

The gate decides on the scope of the arguments as the skill emitted them, and the
action executes the completed ones, so what is sent is covered by the grants only
under a condition, which `completionsGranted_iff` states exactly.
-/
import SecureAgnt.Lib.Machine
import SecureAgnt.Llm.Confinement
import SecureAgnt.Worker.Action

namespace SecureAgnt
namespace Worker

open Llm
open Policy (GrantSet parseGrantSet scopeMatches)
open Prog (ofExcept)

/-! ## Completing the arguments -/

def queueClassOf (inputJson : Json) : Option String :=
  (((inputJson.get? "queue_class").or (inputJson.get? "llm_queue_class")).bind
    Json.asStr?).bind Text.nonEmptyTrimmed

/-- The channel a nested object of the run's input names. -/
def nestedChannel (inputJson : Json) (field : String) : Option String :=
  (((inputJson.get? field).bind (·.get? "channel")).bind Json.asStr?).bind normalizeChannelName

def inferRunLlmChannel (inputJson : Json) : Option String :=
  (((((inputJson.get? "llm_channel").or (inputJson.get? "channel")).bind Json.asStr?).bind
      normalizeChannelName).or
    (nestedChannel inputJson "_trigger")).or (nestedChannel inputJson "event_payload")

/-- Add a field that the arguments lack. -/
def fillField (args : Json) (field : String) (value : Option String) : Json :=
  if (args.get? field).isSome then args
  else
    match value with
    | some value => args.insert field (.str value)
    | none => args

def effectiveArgs (run : RunLeaseRecord) (args : Json) : Json :=
  fillField (fillField args "request_class" (queueClassOf run.inputJson)) "channel"
    (inferRunLlmChannel run.inputJson)

/-! ## The budgets -/

def estimatedTokensOf (args : Json) : Nat := ((args.get? "max_tokens").bind Json.asU64?).getD 512

def budgetWindowSeconds (config : LlmConfig) : Nat := max config.remoteTokenBudgetWindowSecs 1

/-- The window's start, in nanoseconds; a date outside the years the calendar
holds panics. -/
def budgetWindowStart (config : LlmConfig) (now : Int) : Except String Int :=
  let start := now - asI64 (budgetWindowSeconds config) * 10 ^ 9
  if -377705116800 * 10 ^ 9 ≤ start ∧ start < 253402300800 * 10 ^ 9 then .ok start
  else .error "resulting value is out of range"

/-- One window budget: what remains of it, or the refusal. -/
def checkWindowBudget (limit : Option Nat) (scope : UsageScope) (since : Int)
    (estimatedTokens : Nat) (refusal : Nat → String) : LlmProg (Option Nat) :=
  match limit with
  | none => .pure none
  | some limit => do
    let answer ← ask (.sumConsumedTokens scope since)
    match (answer : Except String Int) with
    | .error e => .fail e
    | .ok total =>
      let spent := total.toNat
      if saturatingAdd spent estimatedTokens > limit then .fail (refusal (limit - spent))
      else .pure (some (limit - spent))

def windowRefusal (kind : String) (estimatedTokens windowSecs : Nat) (remaining : Nat) : String :=
  "llm.infer " ++ kind ++ " token budget exceeded (remaining=" ++ toString remaining ++
    ", requested_estimate=" ++ toString estimatedTokens ++ ", window_secs=" ++
    toString windowSecs ++ ")"

def modelRefusal (modelScope : String) (estimatedTokens windowSecs : Nat) (remaining : Nat) :
    String :=
  "llm.infer model token budget exceeded (remaining=" ++ toString remaining ++
    ", requested_estimate=" ++ toString estimatedTokens ++ ", model_scope=" ++ modelScope ++
    ", window_secs=" ++ toString windowSecs ++ ")"

/-- What the run, tenant, agent and model budgets have left. -/
structure BudgetsRemaining where
  run : Option Nat
  tenant : Option Nat := none
  agent : Option Nat := none
  model : Option Nat := none
  deriving DecidableEq, Repr

def checkRunBudget (remaining : Option Nat) (estimatedTokens : Nat) : Except String Unit :=
  match remaining with
  | none => .ok ()
  | some remaining =>
    if estimatedTokens > remaining then
      .error ("llm.infer remote token budget exceeded (remaining=" ++ toString remaining ++
        ", requested_estimate=" ++ toString estimatedTokens ++ ")")
    else .ok ()

def checkRemoteBudgets (config : LlmConfig) (run : RunLeaseRecord) (remaining : Option Nat)
    (scope : String) (since : Int) (estimatedTokens : Nat) : LlmProg BudgetsRemaining := do
  let windowSecs := budgetWindowSeconds config
  let _ ← ofExcept (checkRunBudget remaining estimatedTokens)
  let tenant ← checkWindowBudget config.remoteTokenBudgetPerTenant (.tenant run.tenantId) since
    estimatedTokens (windowRefusal "tenant" estimatedTokens windowSecs)
  let agent ← checkWindowBudget config.remoteTokenBudgetPerAgent
    (.agent run.tenantId run.agentId) since estimatedTokens
    (windowRefusal "agent" estimatedTokens windowSecs)
  let model ← checkWindowBudget config.remoteTokenBudgetPerModel (.model run.tenantId scope) since
    estimatedTokens (modelRefusal scope estimatedTokens windowSecs)
  .pure ⟨remaining, tenant, agent, model⟩

/-- Only an action predicted to run on the remote route is checked. -/
def checkBudgets (config : LlmConfig) (run : RunLeaseRecord) (remaining : Option Nat)
    (scope : String) (since : Int) (estimatedTokens : Nat) : LlmProg BudgetsRemaining :=
  if Text.startsWith scope "remote:" then
    checkRemoteBudgets config run remaining scope since estimatedTokens
  else .pure ⟨remaining, none, none, none⟩

/-! ## The action -/

structure LlmActionOutcome where
  result : LlmInferResult
  estimatedTokens : Nat
  consumedTokens : Nat
  budgets : BudgetsRemaining
  deriving DecidableEq, Repr

def BudgetsRemaining.consume (b : BudgetsRemaining) (consumed : Nat) : BudgetsRemaining :=
  ⟨b.run.map (· - consumed), b.tenant.map (· - consumed), b.agent.map (· - consumed),
    b.model.map (· - consumed)⟩

/-- Account a finished call: a remote one is taken from the budgets and recorded. -/
def accountUsage (config : LlmConfig) (run : RunLeaseRecord) (actionRequestId : String)
    (since : Int) (estimatedTokens : Nat) (budgets : BudgetsRemaining) (result : LlmInferResult) :
    LlmProg LlmActionOutcome :=
  let consumed := (result.totalTokens.map UInt32.toNat).getD estimatedTokens
  match result.route with
  | .local => .pure ⟨result, estimatedTokens, consumed, budgets⟩
  | .remote => do
    let recorded ← ask (.createUsage
      { runId := run.id
        actionRequestId := actionRequestId
        tenantId := run.tenantId
        agentId := run.agentId
        route := .remote
        modelKey := "remote:" ++ result.model
        consumedTokens := asI64 consumed
        windowStartedAt := since
        windowDurationSeconds := asI64 (budgetWindowSeconds config) })
    match (recorded : Except String Unit) with
    | .error e => .fail e
    | .ok () => .pure ⟨result, estimatedTokens, consumed, budgets.consume consumed⟩

def cacheNamespaceOf (run : RunLeaseRecord) : String :=
  "tenant:" ++ run.tenantId ++ ":agent:" ++ run.agentId

/-- `remaining` is what the run's own token budget has left; `postgres` says that
the database is one the gateway can share its admission and cache through. -/
def executeLlmInferAction (rt : LlmRuntime) (config : LlmConfig) (run : RunLeaseRecord)
    (postgres : Bool) (actionRequestId : String) (remaining : Option Nat) (args : Json) :
    LlmProg LlmActionOutcome := do
  let effective := effectiveArgs run args
  let scope ← ofExcept (policyScopeForAction rt effective config)
  let estimatedTokens := estimatedTokensOf effective
  let now ← ask .now
  let since ← ofExcept (budgetWindowStart config now)
  let budgets ← checkBudgets config run remaining scope since estimatedTokens
  let result ← executeLlmInfer rt effective config (some (cacheNamespaceOf run)) postgres
  accountUsage config run actionRequestId since estimatedTokens budgets result

/-! ## What the action sends -/

theorem startsWith_scopeString (route : LlmRoute) (model : String) :
    Text.startsWith (scopeString route model) "remote:" = true ↔ route = .remote := by
  cases route <;> simp [scopeString, LlmRoute.asStr, Text.startsWith]

theorem estimatedTokensOf_lt (args : Json) : estimatedTokensOf args < 2 ^ 64 := by
  unfold estimatedTokensOf
  cases h : (args.get? "max_tokens").bind Json.asU64? with
  | none => decide
  | some n =>
    obtain ⟨field, -, hfield⟩ := Option.bind_eq_some_iff.mp h
    exact Json.asU64?_lt hfield

/-- The budgets can admit an estimate: it fits what the run has left and each
window limit on its own. -/
def BudgetsAdmit (config : LlmConfig) (remaining : Option Nat) (estimatedTokens : Nat) : Prop :=
  ∀ limit ∈ [remaining, config.remoteTokenBudgetPerTenant, config.remoteTokenBudgetPerAgent,
    config.remoteTokenBudgetPerModel], ∀ tokens, limit = some tokens → estimatedTokens ≤ tokens

section Requests

variable {rt : LlmRuntime} {config : LlmConfig} {run : RunLeaseRecord} {postgres : Bool}
  {actionRequestId : String} {remaining : Option Nat} {args : Json} {o : LlmOp}

theorem checkWindowBudget_issues {limit : Option Nat} {scope : UsageScope} {since : Int}
    {estimatedTokens : Nat} {refusal : Nat → String} (ho : o.isRequest = true) :
    ¬ (checkWindowBudget limit scope since estimatedTokens refusal).Issues o := by
  unfold checkWindowBudget
  cases limit with
  | none => exact id
  | some limit =>
    simp only [Prog.issues_bind, issues_ask, yields_ask, true_and]
    intro hx
    rcases hx with rfl | ⟨answer, h⟩
    · cases ho
    · cases answer with
      | error e => exact h
      | ok total => simp at h

theorem checkWindowBudget_yields {limit : Option Nat} {scope : UsageScope} {since : Int}
    {estimatedTokens : Nat} {refusal : Nat → String} (hest : estimatedTokens < 2 ^ 64) :
    (∃ left, (checkWindowBudget limit scope since estimatedTokens refusal).Yields left) ↔
      ∀ tokens, limit = some tokens → estimatedTokens ≤ tokens := by
  unfold checkWindowBudget
  cases limit with
  | none => simp
  | some limit =>
    simp only [Prog.yields_bind, yields_ask, true_and, Option.some.injEq, forall_eq']
    constructor
    · intro hx
      obtain ⟨left, answer, h⟩ := hx
      cases answer with
      | error e => exact h.elim
      | ok total =>
        by_cases hover : saturatingAdd total.toNat estimatedTokens > limit
        · simp [hover] at h
        · exact Nat.le_trans (le_saturatingAdd _ (Nat.le_pred_of_lt hest)) (Nat.not_lt.mp hover)
    · intro hfits
      have hunder : ¬ saturatingAdd (0 : Int).toNat estimatedTokens > limit := by
        show ¬ saturatingAdd 0 estimatedTokens > limit
        rw [zero_saturatingAdd (Nat.le_pred_of_lt hest)]
        exact Nat.not_lt.mpr hfits
      refine ⟨some (limit - (0 : Int).toNat), .ok 0, ?_⟩
      simp only [Prog.yields_ite, hunder, not_false_eq_true, true_and, Prog.yields_pure, or_true]

theorem checkRemoteBudgets_issues {scope : String} {since : Int} {estimatedTokens : Nat}
    (ho : o.isRequest = true) :
    ¬ (checkRemoteBudgets config run remaining scope since estimatedTokens).Issues o := by
  unfold checkRemoteBudgets
  simp [checkWindowBudget_issues ho]

theorem checkRunBudget_ok {estimatedTokens : Nat} :
    (∃ u, checkRunBudget remaining estimatedTokens = .ok u) ↔
      ∀ tokens, remaining = some tokens → estimatedTokens ≤ tokens := by
  unfold checkRunBudget
  cases remaining with
  | none => simp
  | some tokens =>
    by_cases hover : estimatedTokens > tokens
    · simp [hover]
    · simp [hover, Nat.le_of_not_lt hover]

theorem checkRemoteBudgets_yields {scope : String} {since : Int} {estimatedTokens : Nat}
    (hest : estimatedTokens < 2 ^ 64) :
    (∃ left, (checkRemoteBudgets config run remaining scope since estimatedTokens).Yields left) ↔
      BudgetsAdmit config remaining estimatedTokens := by
  unfold checkRemoteBudgets BudgetsAdmit
  simp only [List.forall_mem_cons, List.not_mem_nil, false_implies, implies_true, and_true]
  rw [← checkRunBudget_ok]
  constructor
  · intro hx
    obtain ⟨left, h⟩ := hx
    simp only [Prog.yields_bind, Prog.yields_ofExcept] at h
    obtain ⟨u, hrun, tenant, htenant, agent, hagent, model, hmodel, -⟩ := h
    exact ⟨⟨u, hrun⟩, (checkWindowBudget_yields hest).mp ⟨tenant, htenant⟩,
      (checkWindowBudget_yields hest).mp ⟨agent, hagent⟩,
      (checkWindowBudget_yields hest).mp ⟨model, hmodel⟩⟩
  · intro hx
    obtain ⟨⟨u, hrun⟩, htenant, hagent, hmodel⟩ := hx
    obtain ⟨tenant, htenant⟩ := (checkWindowBudget_yields hest).mpr htenant
    obtain ⟨agent, hagent⟩ := (checkWindowBudget_yields hest).mpr hagent
    obtain ⟨model, hmodel⟩ := (checkWindowBudget_yields hest).mpr hmodel
    simp only [Prog.yields_bind, Prog.yields_ofExcept]
    exact ⟨_, u, hrun, tenant, htenant, agent, hagent, model, hmodel, rfl⟩

theorem checkBudgets_issues {scope : String} {since : Int} {estimatedTokens : Nat}
    (ho : o.isRequest = true) :
    ¬ (checkBudgets config run remaining scope since estimatedTokens).Issues o := by
  unfold checkBudgets
  simp [checkRemoteBudgets_issues ho]

theorem checkBudgets_yields {scope : String} {since : Int} {estimatedTokens : Nat}
    (hest : estimatedTokens < 2 ^ 64) :
    (∃ left, (checkBudgets config run remaining scope since estimatedTokens).Yields left) ↔
      (Text.startsWith scope "remote:" = true → BudgetsAdmit config remaining estimatedTokens) := by
  unfold checkBudgets
  by_cases hremote : Text.startsWith scope "remote:" = true
  · simp only [hremote, if_true, forall_const, checkRemoteBudgets_yields hest]
  · simp [hremote]

theorem accountUsage_issues {since : Int} {estimatedTokens : Nat} {budgets : BudgetsRemaining}
    {result : LlmInferResult} (ho : o.isRequest = true) :
    ¬ (accountUsage config run actionRequestId since estimatedTokens budgets result).Issues o := by
  unfold accountUsage
  cases result.route with
  | «local» => exact id
  | remote =>
    simp only [Prog.issues_bind, issues_ask, yields_ask, true_and]
    intro hx
    rcases hx with rfl | ⟨recorded, h⟩
    · cases ho
    · cases recorded with
      | error e => exact h
      | ok u => exact h

theorem exists_budgetWindowStart (config : LlmConfig) :
    ∃ now since, budgetWindowStart config now = .ok since := by
  refine ⟨asI64 (budgetWindowSeconds config) * 10 ^ 9, 0, ?_⟩
  unfold budgetWindowStart
  simp

/-- The action sends what the gateway sends for the completed arguments, where
the budgets let a remote action through. -/
theorem executeLlmInferAction_issues (ho : o.isRequest = true) :
    (executeLlmInferAction rt config run postgres actionRequestId remaining args).Issues o ↔
      (∃ scope, policyScopeForAction rt (effectiveArgs run args) config = .ok scope ∧
        (Text.startsWith scope "remote:" = true →
          BudgetsAdmit config remaining (estimatedTokensOf (effectiveArgs run args)))) ∧
      (executeLlmInfer rt (effectiveArgs run args) config (some (cacheNamespaceOf run))
        postgres).Issues o := by
  have hest := estimatedTokensOf_lt (effectiveArgs run args)
  unfold executeLlmInferAction
  simp only [Prog.issues_bind, Prog.issues_ofExcept, Prog.yields_ofExcept, false_or, issues_ask,
    yields_ask, true_and, checkBudgets_issues ho, accountUsage_issues ho, and_false, or_false,
    exists_false]
  constructor
  · intro h
    obtain ⟨scope, hscope, rfl | ⟨now, since, hsince, left, hleft, hgateway⟩⟩ := h
    · cases ho
    · exact ⟨⟨scope, hscope, (checkBudgets_yields hest).mp ⟨left, hleft⟩⟩, hgateway⟩
  · intro h
    obtain ⟨⟨scope, hscope, hadmits⟩, hgateway⟩ := h
    obtain ⟨now, since, hsince⟩ := exists_budgetWindowStart config
    obtain ⟨left, hleft⟩ := (checkBudgets_yields hest).mpr hadmits
    exact ⟨scope, hscope, .inr ⟨now, since, hsince, left, hleft, hgateway⟩⟩

end Requests

/-! ## Grants -/

/-- Some grant for `llm.infer` covers the scope. -/
def ScopeGranted (grants : GrantSet) (scope : String) : Prop :=
  ∃ grant ∈ grants.grants, grant.kind = .llmInfer ∧ scopeMatches grant.scope scope = true

/-- The run lets the action execute as an `llm.infer` action. -/
def AdmitsLlm (rt : WorkerRuntime) (config : WorkerConfig) (run : RunLeaseRecord)
    (action : SkillAction) : Prop :=
  (normalizeSkillAction action).actionType = "llm.infer" ∧
    ∃ request, admitAction rt config (parseGrantSet run.grantedCapabilities)
      (normalizeSkillAction action) = .ok request

/-- Every completion request of an executed action has a granted scope. -/
def CompletionsGranted (rt : WorkerRuntime) (config : WorkerConfig) (run : RunLeaseRecord)
    (postgres : Bool) (actionRequestId : String) (remaining : Option Nat) (action : SkillAction) :
    Prop :=
  AdmitsLlm rt config run action →
    ∀ o route model, (executeLlmInferAction rt.llm config.llm run postgres actionRequestId remaining
      (normalizeSkillAction action).args).Issues o →
    o.completionOn? = some (route, model) →
    ScopeGranted (parseGrantSet run.grantedCapabilities) (scopeString route model)

/-- The first attempt of an action can be sent: its arguments resolve, and
admission, the cache, the egress guard and the budgets can let it through. -/
structure FirstAttemptOpen (rt : LlmRuntime) (config : LlmConfig) (run : RunLeaseRecord)
    (postgres : Bool) (remaining : Option Nat) (args : Json) (p : Prepared) : Prop where
  prepared : prepare rt (effectiveArgs run args) config = .ok p
  admission : AdmissionOpen config postgres
  cache : CacheOpen config postgres
  egress : PassesEgress (p.session rt config (some (cacheNamespaceOf run)) postgres)
    p.decision.route p.selection.endpoint
  budgets : p.decision.route = .remote →
    BudgetsAdmit config remaining (estimatedTokensOf (effectiveArgs run args))

theorem policyScopeForAction_eq_ok {rt : LlmRuntime} {args : Json} {config : LlmConfig}
    {p : Prepared} (hp : prepare rt args config = .ok p) :
    policyScopeForAction rt args config =
      .ok (scopeString p.decision.route p.selection.endpoint.model) := by
  unfold policyScopeForAction
  rw [hp]
  rfl

/-- Where the action's completions go: its first attempt, or an escalation. -/
theorem completionOn?_executeLlmInferAction {rt : LlmRuntime} {config : LlmConfig}
    {run : RunLeaseRecord} {postgres : Bool} {actionRequestId : String} {remaining : Option Nat}
    {args : Json} {route : LlmRoute} {model : String} :
    (∃ o, (executeLlmInferAction rt config run postgres actionRequestId remaining args).Issues o ∧
      o.completionOn? = some (route, model)) ↔
      (∃ p, FirstAttemptOpen rt config run postgres remaining args p ∧
        p.decision.route = route ∧ p.selection.endpoint.model = model) ∨
      (RemoteEscalation rt (effectiveArgs run args) config (some (cacheNamespaceOf run)) postgres ∧
        route = .remote ∧ config.remote.map (·.model) = some model) := by
  constructor
  · intro h
    obtain ⟨o, hissues, ho⟩ := h
    obtain ⟨⟨scope, hscope, hadmits⟩, hgateway⟩ :=
      (executeLlmInferAction_issues (isRequest_of_completionOn? ho)).mp hissues
    obtain ⟨p, hp, hopenAdmission, hopenCache, hpass, hsends⟩ :=
      (executeLlmInfer_issues (LlmOp.isTracked_of_isRequest (isRequest_of_completionOn? ho))).mp hgateway
    cases hsends with
    | first =>
      simp only [completionOn?_completionOp, Option.some.injEq, Prod.mk.injEq] at ho
      refine .inl ⟨p, ⟨hp, hopenAdmission, hopenCache, hpass, fun hremote => ?_⟩, ho⟩
      rw [policyScopeForAction_eq_ok hp] at hscope
      cases hscope
      exact hadmits ((startsWith_scopeString _ _).mpr hremote)
    | @escalation remote hcan hesc =>
      simp only [completionOn?_completionOp, Option.some.injEq, Prod.mk.injEq] at ho
      obtain ⟨rfl, rfl⟩ := ho
      have hremote : config.remote = some remote := hesc.1
      refine .inr ⟨⟨p, hp, hopenAdmission, hcan, remote, hesc⟩, rfl, ?_⟩
      rw [hremote]
      rfl
    | judge => cases ho
  · intro h
    rcases h with ⟨p, hopen, rfl, rfl⟩ | ⟨hesc, rfl, hmodel⟩
    · have hon := completionOn?_completionOp
        (p.session rt config (some (cacheNamespaceOf run)) postgres) p.decision.route
        p.selection.endpoint
      refine ⟨_, (executeLlmInferAction_issues (isRequest_of_completionOn? hon)).mpr
        ⟨⟨_, policyScopeForAction_eq_ok hopen.prepared, fun hremote => ?_⟩, ?_⟩, hon⟩
      · exact hopen.budgets ((startsWith_scopeString _ _).mp hremote)
      · exact (executeLlmInfer_issues (LlmOp.isTracked_of_isRequest
          (isRequest_of_completionOn? hon))).mpr
          ⟨p, hopen.prepared, hopen.admission, hopen.cache, hopen.egress, .first⟩
    · obtain ⟨o, remote, hremote, hissues, hon⟩ := issues_of_remoteEscalation hesc
      obtain ⟨p, hp, -, ⟨hlocal, -⟩, -⟩ := hesc
      rw [hremote] at hmodel
      cases hmodel
      refine ⟨o, (executeLlmInferAction_issues (isRequest_of_completionOn? hon)).mpr
        ⟨⟨_, policyScopeForAction_eq_ok hp, fun hstart => ?_⟩, hissues⟩, hon⟩
      -- an action that escalates starts on the local route, where no budget is checked
      rw [startsWith_scopeString, hlocal] at hstart
      cases hstart

/-- The completions of an executed action are granted exactly when the scope of
its completed arguments is, where a first attempt with them can be sent, and the
scope of the configured remote model is, where an escalation can happen. -/
theorem completionsGranted_iff (rt : WorkerRuntime) (config : WorkerConfig) (run : RunLeaseRecord)
    (postgres : Bool) (actionRequestId : String) (remaining : Option Nat) (action : SkillAction) :
    CompletionsGranted rt config run postgres actionRequestId remaining action ↔
      (AdmitsLlm rt config run action →
        (∀ p, FirstAttemptOpen rt.llm config.llm run postgres remaining
            (normalizeSkillAction action).args p →
          ScopeGranted (parseGrantSet run.grantedCapabilities)
            (scopeString p.decision.route p.selection.endpoint.model)) ∧
        (RemoteEscalation rt.llm (effectiveArgs run (normalizeSkillAction action).args) config.llm
            (some (cacheNamespaceOf run)) postgres →
          ∀ remote, config.llm.remote = some remote →
            ScopeGranted (parseGrantSet run.grantedCapabilities)
              (scopeString .remote remote.model))) := by
  refine forall_congr' fun _ => ⟨fun hgranted => ⟨fun p hopen => ?_, fun hesc remote hremote => ?_⟩,
    fun ⟨hfirst, hesc⟩ o route model hissues ho => ?_⟩
  · obtain ⟨o, hissues, hon⟩ := completionOn?_executeLlmInferAction.mpr (.inl ⟨p, hopen, rfl, rfl⟩)
    exact hgranted o _ _ hissues hon
  · obtain ⟨o, hissues, hon⟩ :=
      completionOn?_executeLlmInferAction.mpr (.inr ⟨hesc, rfl, by rw [hremote]; rfl⟩)
    exact hgranted o _ _ hissues hon
  · rcases completionOn?_executeLlmInferAction.mp ⟨o, hissues, ho⟩ with
      ⟨p, hopen, rfl, rfl⟩ | ⟨hcan, rfl, hmodel⟩
    · exact hfirst p hopen
    · obtain ⟨remote, hremote, rfl⟩ := Option.map_eq_some_iff.mp hmodel
      exact hesc hcan remote hremote

/-- The sample worker with a small local model besides the workhorse. -/
def smallTierConfig : WorkerConfig where
  workerId := "worker-1"
  llm := { sampleConfig with
    localSmall := some ⟨"http://127.0.0.1:11435/v1", "qwen2.5-small", none⟩
    localSmallModels := ["qwen2.5-small"] }

def sampleWorkerRuntime : WorkerRuntime where
  llm := sampleRuntime
  serializedLen := fun _ => 15

/-- A run from the inbox channel, granted the workhorse model only. -/
def inboxRun : RunLeaseRecord where
  id := "run-1"
  tenantId := "tenant-1"
  agentId := "agent-1"
  inputJson := .obj [("channel", .str "inbox")]
  grantedCapabilities := .arr [.obj [("capability", .str "llm.infer"),
    ("scope", .str "local:qwen2.5")]]

def inboxAction : SkillAction where
  actionId := "a1"
  actionType := "llm.infer"
  args := .obj [("prompt", .str "hi")]
  justification := "answer"

/-- The gate allows `local:qwen2.5`; the inbox channel then moves the action to
the small tier. -/
theorem inboxAction_not_granted :
    ¬ CompletionsGranted sampleWorkerRuntime smallTierConfig inboxRun false "req-1" none
      inboxAction := by
  intro hgranted
  have hadmits : AdmitsLlm sampleWorkerRuntime smallTierConfig inboxRun inboxAction :=
    ⟨by decide, ⟨_, rfl⟩⟩
  obtain ⟨p, hp, hroute, hmodel⟩ : ∃ p, prepare sampleRuntime
      (effectiveArgs inboxRun (normalizeSkillAction inboxAction).args) smallTierConfig.llm = .ok p ∧
      p.decision.route = .local ∧ p.selection.endpoint.model = "qwen2.5-small" :=
    ⟨_, rfl, rfl, rfl⟩
  have hopen : FirstAttemptOpen sampleRuntime smallTierConfig.llm inboxRun false none
      (normalizeSkillAction inboxAction).args p := by
    refine ⟨hp, fun hon => absurd hon (by decide), fun huses => absurd huses (by decide), ?_, ?_⟩
    · rw [hroute]
      exact passesEgress_local _ _
    · rw [hroute]
      exact fun hremote => nomatch hremote
  obtain ⟨o, hissues, hon⟩ :=
    completionOn?_executeLlmInferAction.mpr (.inl ⟨p, hopen, hroute, hmodel⟩)
  obtain ⟨grant, hmem, -, hscope⟩ := hgranted hadmits o _ _ hissues hon
  have hgrants : parseGrantSet inboxRun.grantedCapabilities =
      ⟨[⟨.llmInfer, "local:qwen2.5", ⟨none⟩⟩]⟩ := rfl
  rw [hgrants, List.mem_singleton] at hmem
  subst hmem
  exact absurd hscope (by decide)

end Worker
end SecureAgnt

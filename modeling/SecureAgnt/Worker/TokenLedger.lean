/-
The token ledger and what a gateway call does to it.

`TokenWorld` is the token ledger, the clock, the remote calls a run completed and
the scopes it has summed for a request it has yet to send.  `tokenHandler` says
what the calls of an `llm.infer` action do to it; other runs add their rows to
the ledger before each of them.  The main result is `wp_executeLlmInfer`: a
gateway call takes nothing from the ledger and completes at most one remote call,
which its result names, and none when it fails, unless the verifier can fail on a
completed remote answer.
-/
import SecureAgnt.Lib.Run
import SecureAgnt.Worker.LlmAction

namespace SecureAgnt
namespace Llm

open Prog

/-! ## How the verifier can fail -/

/-- The verifier can end a call with an error: it needs a judge and has none, or
its judge's failures are not let through. -/
def VerifierCanFail (config : LlmConfig) : Prop :=
  (config.verifierMode = .modelJudge ∧ config.verifierJudge = none) ∨
    ∃ endpoint, UsesJudge config endpoint ∧ config.verifierJudgeFailOpen = false

variable {s : Session} {cs cs' : ControlState} {e : String}

theorem judgedVerdict_fails {endpoint : LlmEndpointConfig} {response : String}
    {reasons : List String} {score : Nat}
    (h : (judgedVerdict s endpoint response reasons score).Fails e) :
    s.config.verifierJudgeFailOpen = false := by
  unfold judgedVerdict at h
  simp only [fails_bind, fails_attempt, false_or] at h
  obtain ⟨judged, -, h⟩ := h
  cases judged with
  | ok judge => exact h.elim
  | error err =>
    simp only [fails_ite, fails_fail, fails_pure, and_false, or_false] at h
    simpa using h.1

theorem evaluateVerifier_fails {response : String} (h : (evaluateVerifier s response).Fails e) :
    VerifierCanFail s.config := by
  unfold evaluateVerifier at h
  cases hjudge : s.config.verifierJudge with
  | none =>
    cases hmode : s.config.verifierMode <;> simp only [hmode, hjudge, fails_pure] at h
    exact .inl ⟨hmode, hjudge⟩
  | some endpoint =>
    cases hmode : s.config.verifierMode <;> simp only [hmode, hjudge, fails_pure] at h
    · exact .inr ⟨endpoint, ⟨.inl hmode, hjudge⟩, judgedVerdict_fails h⟩
    · exact .inr ⟨endpoint, ⟨.inr hmode, hjudge⟩, judgedVerdict_fails h⟩

/-- The verifier leaves an answer of the remote route where it is. -/
theorem verifierStage_remote (hremote : cs.route = .remote) :
    (∀ cs', (verifierStage s cs).Yields cs' →
      cs'.route = .remote ∧ cs'.selection = cs.selection) ∧
    (∀ e, (verifierStage s cs).Fails e →
      isVerifierEnabled s = true ∧ VerifierCanFail s.config) := by
  unfold verifierStage
  by_cases hon : isVerifierEnabled s = true
  · have hnot (v : LlmVerifierOutcome) : ¬ (cs.route = .local ∧
        v.scorePct < s.config.verifierMinScorePct) := by
      rw [hremote]
      exact fun h => nomatch h.1
    simp only [hon, if_true, yields_bind, fails_bind, hnot, if_false, yields_pure, fails_pure,
      and_false, exists_false, or_false, true_and]
    refine ⟨?_, fun e h => evaluateVerifier_fails h⟩
    intro cs' hx
    obtain ⟨v, -, rfl⟩ := hx
    exact ⟨hremote, rfl⟩
  · rw [if_neg hon]
    exact ⟨fun cs' h => h ▸ ⟨hremote, rfl⟩, fun e h => h.elim⟩

theorem sloStage_remote {slo : LaneSloEvaluation} (hremote : cs.route = .remote) :
    sloStage s slo cs = .pure cs := by
  unfold sloStage
  rw [if_neg]
  rw [hremote]
  exact fun h => nomatch h.1

end Llm

namespace Worker

open Llm
open Policy (parseGrantSet)

/-! ## The ledger -/

/-- A stored row; the table's check keeps the count nonnegative. -/
structure UsageRow where
  record : NewLlmTokenUsageRecord
  createdAt : Int
  nonneg : 0 ≤ record.consumedTokens

def UsageRow.inScope (row : UsageRow) : UsageScope → Bool
  | .tenant tenantId => row.record.tenantId == tenantId
  | .agent tenantId agentId => row.record.tenantId == tenantId && row.record.agentId == agentId
  | .model tenantId modelKey => row.record.tenantId == tenantId && row.record.modelKey == modelKey

/-- The remote tokens of a scope since an instant. -/
def windowSum (usage : List UsageRow) (scope : UsageScope) (since : Int) : Nat :=
  ((usage.filter fun row => row.inScope scope && row.record.route = .remote &&
    since ≤ row.createdAt).map fun row => row.record.consumedTokens.toNat).sum

/-- The ledger and the clock, the remote calls a run completed and the scopes it
has summed since it last sent a request or recorded one. -/
structure TokenWorld where
  now : Int
  usage : List UsageRow
  completed : List String
  summed : List UsageScope

/-- The model key of a remote call that its answer completes. -/
def completedKey (config : LlmConfig) : (op : LlmOp) → LlmAns op → Option String
  | .post (.completion .remote) endpoint _ _, answer =>
    match (answer : Except HttpFailure ChatCompletionResponse) with
    | .ok payload =>
      match completionOfPayload config payload with
      | .ok _ => some ("remote:" ++ endpoint.model)
      | .error _ => none
    | .error _ => none
  | _, _ => none

def storedRow (now : Int) : (op : LlmOp) → LlmAns op → Option UsageRow
  | .createUsage record, answer =>
    match (answer : Except String Unit) with
    | .ok () => if h : 0 ≤ record.consumedTokens then some ⟨record, now, h⟩ else none
    | .error _ => none
  | _, _ => none

/-- The answers of the clock and of a working database: sums are of the rows
there are, or an error, and a record the table accepts is stored. -/
def answersTruly (w : TokenWorld) : (op : LlmOp) → LlmAns op → Prop
  | .now, answer => (answer : Int) = w.now
  | .sumConsumedTokens scope since, answer =>
    match (answer : Except String Int) with
    | .ok total => total = windowSum w.usage scope since ∧ total < 2 ^ 63
    | .error _ => True
  | .createUsage record, answer =>
    match (answer : Except String Unit) with
    | .ok () => 0 ≤ record.consumedTokens
    | .error _ => record.consumedTokens < 0
  | _, _ => True

/-- A sum adds its scope; a remote request and a record end what the sums were for. -/
def summedAfter (op : LlmOp) (summed : List UsageScope) : List UsageScope :=
  match op with
  | .sumConsumedTokens scope _ => scope :: summed
  | .post (.completion .remote) .. => []
  | .createUsage .. => []
  | _ => summed

/-- Each call takes effect on the ledger at its instant, and time passes. -/
def tokenHandler (config : LlmConfig) : Handler LlmOp LlmAns TokenWorld where
  step w op answer w' :=
    answersTruly w op answer ∧ w.now ≤ w'.now ∧
      w'.usage = (storedRow w.now op answer).toList ++ w.usage ∧
      w'.completed = (completedKey config op answer).toList ++ w.completed ∧
      w'.summed = summedAfter op w.summed

/-! ## The other runs -/

/-- Time passes and other runs add rows. -/
structure OthersAdd (rows : List UsageRow) (w w' : TokenWorld) : Prop where
  now : w.now ≤ w'.now
  usage : w'.usage = rows ++ w.usage
  completed : w'.completed = w.completed
  summed : w'.summed = w.summed

/-- Other runs record what they use, whenever they do. -/
def othersRecord (w w' : TokenWorld) : Prop := ∃ rows, OthersAdd rows w w'

/-- Other runs record no remote tokens in a scope that a run has summed and not
yet used. -/
def othersWait (w w' : TokenWorld) : Prop :=
  ∃ rows, OthersAdd rows w w' ∧ ∀ row ∈ rows, row.record.route = .remote →
    ∀ scope ∈ w.summed, row.inScope scope = false

/-- The ledger among other runs that wait. -/
def sharedLedger (config : LlmConfig) : Handler LlmOp LlmAns TokenWorld :=
  (tokenHandler config).interfered othersWait

/-! ## Budgets -/

/-- The start of the budget window at an instant. -/
def windowStartAt (config : LlmConfig) (now : Int) : Int :=
  now - asI64 (budgetWindowSeconds config) * 10 ^ 9

/-- A call to `model` with this estimate fits every configured budget now. -/
structure FitsBudgets (config : LlmConfig) (run : RunLeaseRecord) (remaining : Option Nat)
    (estimate : Nat) (model : String) (w : TokenWorld) : Prop where
  forRun : ∀ tokens, remaining = some tokens → estimate ≤ tokens
  forTenant : ∀ limit, config.remoteTokenBudgetPerTenant = some limit →
    windowSum w.usage (.tenant run.tenantId) (windowStartAt config w.now) + estimate ≤ limit
  forAgent : ∀ limit, config.remoteTokenBudgetPerAgent = some limit →
    windowSum w.usage (.agent run.tenantId run.agentId) (windowStartAt config w.now) + estimate ≤
      limit
  forModel : ∀ limit, config.remoteTokenBudgetPerModel = some limit →
    windowSum w.usage (.model run.tenantId ("remote:" ++ model)) (windowStartAt config w.now) +
      estimate ≤ limit

/-- Every remote completion an action asks for fits the budgets. -/
def RemoteFits (config : LlmConfig) (run : RunLeaseRecord) (remaining : Option Nat)
    (estimate : Nat) (w : TokenWorld) (o : LlmOp) : Prop :=
  ∀ model, o.completionOn? = some (.remote, model) →
    FitsBudgets config run remaining estimate model w

/-- It fits them whatever the others do before it is sent. -/
def RemainsFit (others : TokenWorld → TokenWorld → Prop) (config : LlmConfig)
    (run : RunLeaseRecord) (remaining : Option Nat) (estimate : Nat) (w : TokenWorld) (o : LlmOp) :
    Prop :=
  ∀ w', others w w' → RemoteFits config run remaining estimate w' o

/-- A later window holds no more than an earlier one. -/
theorem windowSum_anti (usage : List UsageRow) (scope : UsageScope) {since since' : Int}
    (h : since ≤ since') : windowSum usage scope since' ≤ windowSum usage scope since := by
  unfold windowSum
  induction usage with
  | nil => exact le_refl _
  | cons row rest ih =>
    simp only [List.filter_cons]
    by_cases hnew : (row.inScope scope && decide (row.record.route = .remote) &&
        decide (since' ≤ row.createdAt)) = true
    · have hold : (row.inScope scope && decide (row.record.route = .remote) &&
          decide (since ≤ row.createdAt)) = true := by
        simp only [Bool.and_eq_true, decide_eq_true_eq] at hnew ⊢
        exact ⟨hnew.1, le_trans h hnew.2⟩
      simp only [hnew, hold, if_true, List.map_cons, List.sum_cons]
      exact Nat.add_le_add_left ih _
    · simp only [hnew, Bool.false_eq_true, if_false]
      split
      · simp only [List.map_cons, List.sum_cons]
        omega
      · exact ih

/-- Rows outside a scope add nothing to its sum. -/
theorem windowSum_append {rows usage : List UsageRow} {scope : UsageScope} {since : Int}
    (h : ∀ row ∈ rows, row.record.route = .remote → row.inScope scope = false) :
    windowSum (rows ++ usage) scope since = windowSum usage scope since := by
  have hnone : rows.filter (fun row => row.inScope scope && row.record.route = .remote &&
      since ≤ row.createdAt) = [] := by
    refine List.filter_eq_nil_iff.mpr fun row hrow => ?_
    by_cases hremote : row.record.route = .remote
    · simp [h row hrow hremote]
    · simp [hremote]
  unfold windowSum
  rw [List.filter_append, hnone, List.nil_append]

/-- A call that is no remote completion. -/
def NotRemote (o : LlmOp) : Prop := ∀ model, o.completionOn? ≠ some (.remote, model)

theorem NotRemote.of_none {o : LlmOp} (h : o.completionOn? = none) : NotRemote o := by
  intro model
  rw [h]
  simp

theorem NotRemote.completionOp_local (s : Session) (endpoint : LlmEndpointConfig) :
    NotRemote (completionOp s .local endpoint) := by
  intro model
  simp

/-! ## Quiet calls -/

/-- The calls that touch neither the ledger nor the list of completed calls. -/
def isQuiet : LlmOp → Bool
  | .post (.completion .remote) .. => false
  | .createUsage .. => false
  | _ => true

/-- The ledger has the given rows, the completed calls are as given, and an
instant has come. -/
structure Holding (usage : List UsageRow) (since : Int) (completed : List String)
    (w : TokenWorld) : Prop where
  usage : usage <:+ w.usage
  now : since ≤ w.now
  completed : w.completed = completed

/-- A condition on the ledger that other runs and quiet calls keep. -/
structure Kept (config : LlmConfig) (J : TokenWorld → Prop) : Prop where
  others : ∀ {w w'}, J w → othersWait w w' → J w'
  quiet : ∀ {w o answer w'}, isQuiet o = true → (tokenHandler config).step w o answer w' →
    J w → J w'

section Wp

variable {config : LlmConfig} {safe : TokenWorld → LlmOp → Prop} {usage : List UsageRow}
  {t : Int} {completed : List String} {w w' : TokenWorld} {o : LlmOp} {α : Type} {p : LlmProg α}

/-- What a quiet call does. -/
theorem quiet_step {answer : LlmAns o} (hquiet : isQuiet o = true)
    (hstep : (tokenHandler config).step w o answer w') :
    w.now ≤ w'.now ∧ w'.usage = w.usage ∧ w'.completed = w.completed ∧
      ∀ scope ∈ w.summed, scope ∈ w'.summed := by
  obtain ⟨-, hnow, husage, hcompleted, hsummed⟩ := hstep
  have hrow : storedRow w.now o answer = none := by
    cases o <;> first | rfl | cases hquiet
  have hkey : completedKey config o answer = none := by
    unfold completedKey
    split
    · cases hquiet
    · rfl
  rw [hrow] at husage
  rw [hkey] at hcompleted
  refine ⟨hnow, husage, hcompleted, fun scope hscope => ?_⟩
  rw [hsummed]
  unfold summedAfter
  split
  · exact List.mem_cons_of_mem _ hscope
  · cases hquiet
  · cases hquiet
  · exact hscope

theorem kept_true : Kept config fun _ => True := ⟨fun _ _ => trivial, fun _ _ _ => trivial⟩

theorem Kept.and {J J' : TokenWorld → Prop} (hJ : Kept config J) (hJ' : Kept config J') :
    Kept config fun w => J w ∧ J' w :=
  ⟨fun h hmove => ⟨hJ.others h.1 hmove, hJ'.others h.2 hmove⟩,
    fun hquiet hstep h => ⟨hJ.quiet hquiet hstep h.1, hJ'.quiet hquiet hstep h.2⟩⟩

variable (config) in
theorem kept_holding : Kept config (Holding usage t completed) where
  others hw hmove := by
    obtain ⟨rows, hadd, -⟩ := hmove
    refine ⟨?_, le_trans hw.now hadd.now, hadd.completed.trans hw.completed⟩
    rw [hadd.usage]
    exact hw.usage.trans (List.suffix_append _ _)
  quiet hquiet hstep hw := by
    obtain ⟨hnow, husage, hcompleted, -⟩ := quiet_step hquiet hstep
    exact ⟨husage ▸ hw.usage, le_trans hw.now hnow, hcompleted.trans hw.completed⟩

variable {J : TokenWorld → Prop}

/-- A quiet call among other runs keeps what is kept. -/
theorem Kept.step {answer : LlmAns o} (hJ : Kept config J) (hquiet : isQuiet o = true)
    (hstep : (sharedLedger config).step w o answer w') (hw : J w) : J w' := by
  obtain ⟨w₁, hmove, hcall⟩ := hstep
  exact hJ.quiet hquiet hcall (hJ.others hw hmove)

theorem wp_ask {Q : TokenWorld → Except String (LlmAns o) → Prop} (hsafe : safe w o)
    (hQ : ∀ answer w', (sharedLedger config).step w o answer w' → Q w' (.ok answer)) :
    (sharedLedger config).wp (.alone safe) (ask o) Q w :=
  Handler.wp_perform_alone hsafe hQ

/-- A program of quiet calls keeps what is kept. -/
theorem wp_quiet (hJ : Kept config J)
    (hcalls : ∀ o, p.Issues o → isQuiet o = true ∧ ∀ w, safe w o) (hw : J w) :
    (sharedLedger config).wp (.alone safe) p (fun w r => J w ∧ p.Ends r) w := by
  refine Handler.wp_ends (Handler.wp_of_issues ?_ (fun o ho w hw => ?_) hw)
  · rintro _ _ h rfl
    exact h
  · obtain ⟨hquiet, hsafe⟩ := hcalls o ho
    exact ⟨hsafe w, fun answer w' hstep => ⟨trivial, hJ.step hquiet hstep hw⟩⟩

theorem isQuiet_of_not_isTracked (h : ¬ o.isTracked = true) : isQuiet o = true := by
  cases o <;> first | rfl | exact absurd rfl h

theorem notRemote_of_not_isTracked (h : ¬ o.isTracked = true) : NotRemote o := by
  refine .of_none ?_
  cases o <;> first | rfl | exact absurd rfl h

theorem isQuiet_completionOp_local (s : Session) (endpoint : LlmEndpointConfig) :
    isQuiet (completionOp s .local endpoint) = true := by
  unfold completionOp
  split <;> rfl

/-! ## A remote completion -/

/-- A remote completion ends with at most its own call added to the completed
ones, and with none when it fails. -/
def CompletesOnce {α : Type} (usage : List UsageRow) (t : Int) (completed : List String)
    (key : String) (w : TokenWorld) : Except String α → Prop
  | .ok _ => Holding usage t completed w ∨ Holding usage t (key :: completed) w
  | .error _ => Holding usage t completed w

theorem CompletesOnce.of_holding {key : String} {r : Except String α}
    (hw : Holding usage t completed w) : CompletesOnce usage t completed key w r := by
  cases r with
  | ok a => exact .inl hw
  | error e => exact hw

variable {s : Session} {endpoint : LlmEndpointConfig}

theorem wp_requestChatCompletion (hconfig : s.config = config)
    (hsafe : ∀ w, J w → safe w (completionOp s .remote endpoint)) (hj : J w)
    (hw : Holding usage t completed w) :
    (sharedLedger config).wp (.alone safe)
      (requestChatCompletion s .remote endpoint (buildMessages s.parsed.system s.plan.prompt))
      (CompletesOnce usage t completed ("remote:" ++ endpoint.model)) w := by
  subst hconfig
  unfold completionOp at hsafe
  unfold requestChatCompletion
  by_cases hmock : isMockEndpoint endpoint = true
  · simp only [hmock, if_true] at hsafe ⊢
    refine Handler.wp_bind (wp_ask (hsafe w hj) fun answer w' hstep => Handler.wp_ofExcept_alone ?_)
    exact .of_holding ((kept_holding s.config).step rfl hstep hw)
  · simp only [hmock, Bool.false_eq_true, if_false] at hsafe ⊢
    refine Handler.wp_bind (wp_ask (hsafe w hj) fun answer w' hstep => ?_)
    obtain ⟨w₁, hmove, -, hnow, husage, hcompleted, -⟩ := hstep
    have hw₁ : Holding usage t completed w₁ :=
      (kept_holding s.config).others hw hmove
    have husage' : usage <:+ w'.usage := by
      rw [husage]
      exact hw₁.usage.trans (List.suffix_append _ _)
    have hnow' : t ≤ w'.now := le_trans hw₁.now hnow
    cases answer with
    | error failure =>
      exact Handler.wp_fail_alone ⟨husage', hnow', hcompleted.trans hw₁.completed⟩
    | ok payload =>
      refine Handler.wp_ofExcept_alone ?_
      simp only [completedKey] at hcompleted
      cases hparsed : completionOfPayload s.config payload with
      | error e =>
        rw [hparsed] at hcompleted
        exact ⟨husage', hnow', hcompleted.trans hw₁.completed⟩
      | ok c =>
        rw [hparsed] at hcompleted
        refine .inr ⟨husage', hnow', hcompleted.trans ?_⟩
        rw [hw₁.completed]
        rfl

section Cached

variable {cacheKey : String} {remoteHost : Option String}

/-- A quiet call after a completion keeps how it ended. -/
theorem CompletesOnce.of_quiet {key : String} {β : Type} {a : α} {b : β} {answer : LlmAns o}
    (hquiet : isQuiet o = true) (hstep : (sharedLedger config).step w o answer w')
    (hw : CompletesOnce usage t completed key w (.ok a)) :
    CompletesOnce usage t completed key w' (.ok b) := by
  rcases hw with hw | hw
  · exact .inl ((kept_holding config).step hquiet hstep hw)
  · exact .inr ((kept_holding config).step hquiet hstep hw)

variable (hJ : Kept config J) (hplain : ∀ o, NotRemote o → ∀ w, safe w o)
  (hsafe : ∀ w, J w → safe w (completionOp s .remote endpoint))
include hJ hplain hsafe

theorem wp_completeLocally {fallback : Bool} (hconfig : s.config = config) (hj : J w)
    (hw : Holding usage t completed w) :
    (sharedLedger config).wp (.alone safe)
      (completeLocally s .remote endpoint (buildMessages s.parsed.system s.plan.prompt) cacheKey
        remoteHost fallback)
      (CompletesOnce usage t completed ("remote:" ++ endpoint.model)) w := by
  unfold completeLocally
  split
  · refine Handler.wp_bind (wp_ask (hplain _ (.of_none rfl) w)
      fun found w' hstep => ?_)
    have hw' := (kept_holding config).step rfl hstep hw
    cases found with
    | some hit =>
      exact Handler.wp_pure_alone (.inl hw')
    | none =>
      refine Handler.wp_bind (Handler.wp_mono ?_
        (wp_requestChatCompletion hconfig hsafe (hJ.step rfl hstep hj) hw'))
      intro w'' r hend
      cases r with
      | error e => exact hend
      | ok completion =>
        refine Handler.wp_bind (wp_ask (hplain _ (.of_none rfl) w'')
          fun u w₃ hinsert => ?_)
        exact Handler.wp_pure_alone (.of_quiet rfl hinsert hend)
  · refine Handler.wp_bind (Handler.wp_mono ?_ (wp_requestChatCompletion hconfig hsafe hj hw))
    intro w' r hend
    cases r with
    | error e => exact hend
    | ok completion => exact Handler.wp_pure_alone hend

theorem wp_completeDistributed (hconfig : s.config = config) (hj : J w)
    (hw : Holding usage t completed w) :
    (sharedLedger config).wp (.alone safe)
      (completeDistributed s .remote endpoint (buildMessages s.parsed.system s.plan.prompt) cacheKey
        remoteHost)
      (CompletesOnce usage t completed ("remote:" ++ endpoint.model)) w := by
  unfold completeDistributed
  refine Handler.wp_bind (wp_ask (hplain _ (.of_none rfl) w) fun found w' hstep => ?_)
  have hj' := hJ.step rfl hstep hj
  have hw' := (kept_holding config).step rfl hstep hw
  match found with
  | .ok (some (some hit)) =>
    exact Handler.wp_pure_alone (.inl hw')
  | .ok (some none) =>
    exact Handler.wp_fail_alone hw'
  | .ok none =>
    refine Handler.wp_bind (Handler.wp_mono ?_ (wp_requestChatCompletion hconfig hsafe hj' hw'))
    intro w'' r hend
    cases r with
    | error e => exact hend
    | ok completion =>
      refine Handler.wp_bind (wp_ask (hplain _ (.of_none rfl) w'')
        fun u w₃ hupsert => ?_)
      refine Handler.wp_bind (wp_ask (hplain _ (.of_none rfl) w₃)
        fun u w₄ hprune => ?_)
      refine Handler.wp_pure_alone ?_
      have hkept : CompletesOnce usage t completed ("remote:" ++ endpoint.model) w₃ (.ok ()) :=
        .of_quiet rfl hupsert hend
      exact .of_quiet rfl hprune hkept
  | .error e =>
    show Handler.wp _ _ (if !s.config.distributedFailOpen then _ else _) _ _
    split
    · exact Handler.wp_fail_alone hw'
    · exact wp_completeLocally hJ hplain hsafe hconfig hj' hw'

theorem wp_executeRouteCompletion (hconfig : s.config = config) (hj : J w)
    (hw : Holding usage t completed w) :
    (sharedLedger config).wp (.alone safe) (executeRouteCompletion s .remote endpoint)
      (CompletesOnce usage t completed ("remote:" ++ endpoint.model)) w := by
  unfold executeRouteCompletion
  refine Handler.wp_bind (Handler.wp_ofExcept_alone ?_)
  cases enforceRemoteEgressPolicy s.rt .remote endpoint s.config s.parsed with
  | error e => exact hw
  | ok remoteHost =>
    dsimp only
    split
    · split
      · exact wp_completeDistributed hJ hplain hsafe hconfig hj hw
      · split
        · exact Handler.wp_fail_alone hw
        · exact wp_completeLocally hJ hplain hsafe hconfig hj hw
    · exact wp_completeLocally hJ hplain hsafe hconfig hj hw

end Cached

/-! ## A gateway call -/

/-- How a call ends: it completes at most one remote call, which its result
names, and none when it fails. -/
def EndsOnce {α : Type} (usage : List UsageRow) (t : Int) (completed : List String)
    (calledBy : α → LlmRoute × String) (w : TokenWorld) : Except String α → Prop
  | .ok a => Holding usage t completed w ∨ ((calledBy a).1 = .remote ∧
      Holding usage t (("remote:" ++ (calledBy a).2) :: completed) w)
  | .error _ => Holding usage t completed w

/-- The route and model a control state answers with. -/
def calledByControl (cs : ControlState) : LlmRoute × String :=
  (cs.route, cs.selection.endpoint.model)

section Stages

variable {cs : ControlState} (hplain : ∀ o, NotRemote o → ∀ w, safe w o)
  (hsafe : ∀ remote, s.config.remote = some remote → ∀ w, safe w (completionOp s .remote remote))
include hplain hsafe

theorem wp_escalateRemote (hconfig : s.config = config) (hw : Holding usage t completed w) :
    (sharedLedger config).wp (.alone safe) (escalateRemote s) (fun w r => match r with
      | .ok (selection, .ok _) => Holding usage t completed w ∨
          Holding usage t (("remote:" ++ selection.endpoint.model) :: completed) w
      | _ => Holding usage t completed w) w := by
  unfold escalateRemote
  refine Handler.wp_bind (Handler.wp_ofExcept_alone ?_)
  cases hremote : s.config.remote with
  | none =>
    simp only [selectEndpointForRoute, hremote]
    exact hw
  | some remote =>
    rw [selectEndpointForRoute_remote s.plan hremote]
    refine Handler.wp_bind (Handler.wp_attempt (Handler.wp_mono ?_
      (wp_executeRouteCompletion kept_true hplain (fun w _ => hsafe remote hremote w) hconfig trivial
        hw)))
    intro w' r hend
    cases r with
    | error e => exact Handler.wp_pure_alone hend
    | ok answer => exact Handler.wp_pure_alone hend

theorem wp_sloStage {slo : LaneSloEvaluation} (hconfig : s.config = config)
    (hw : Holding usage t completed w) :
    (sharedLedger config).wp (.alone safe) (sloStage s slo cs)
      (EndsOnce usage t completed calledByControl) w := by
  unfold sloStage
  split
  · refine Handler.wp_bind (Handler.wp_mono ?_ (wp_escalateRemote hplain hsafe hconfig hw))
    rintro w' (e | ⟨selection, e | answer⟩) hend
    · exact hend
    · exact Handler.wp_pure_alone (.inl hend)
    · exact Handler.wp_pure_alone (hend.imp id fun h => ⟨rfl, h⟩)
  · exact Handler.wp_pure_alone (.inl hw)

/-- The verifier on an answer of the local route. -/
theorem wp_verifierStage_local (hconfig : s.config = config) (hw : Holding usage t completed w) :
    (sharedLedger config).wp (.alone safe) (verifierStage s cs)
      (EndsOnce usage t completed calledByControl) w := by
  unfold verifierStage
  split
  · refine Handler.wp_bind (Handler.wp_mono ?_ (wp_quiet (kept_holding config) (fun o ho => ?_) hw))
    swap
    · obtain ⟨endpoint, -, rfl⟩ := evaluateVerifier_issues.mp ho
      exact ⟨rfl, fun w => hplain _ (.of_none rfl) w⟩
    rintro w' (e | v) ⟨hw', -⟩
    · exact hw'
    dsimp only
    split
    · split
      · refine Handler.wp_bind (Handler.wp_mono ?_ (wp_escalateRemote hplain hsafe hconfig hw'))
        rintro w'' (e | ⟨selection, e | answer⟩) hend
        · exact hend
        · exact Handler.wp_pure_alone (.inl hend)
        · exact Handler.wp_pure_alone (hend.imp id fun h => ⟨rfl, h⟩)
      · exact Handler.wp_pure_alone (.inl hw')
    · exact Handler.wp_pure_alone (.inl hw')
  · exact Handler.wp_pure_alone (.inl hw)

end Stages

/-- The verifier on an answer of the remote route keeps it, unless it fails. -/
theorem wp_verifierStage_remote {cs : ControlState} {c : List String}
    (hplain : ∀ o, NotRemote o → ∀ w, safe w o) (hremote : cs.route = .remote)
    (hverifier : ¬ (isVerifierEnabled s = true ∧ VerifierCanFail s.config))
    (hw : Holding usage t c w) :
    (sharedLedger config).wp (.alone safe) (verifierStage s cs) (fun w r => Holding usage t c w ∧
      ∃ cs', r = .ok cs' ∧ calledByControl cs' = calledByControl cs) w := by
  refine Handler.wp_mono ?_ (wp_quiet (kept_holding config) (fun o ho => ?_) hw)
  · rintro w' (e | cs') ⟨hw', hend⟩
    · exact absurd ((verifierStage_remote hremote).2 e hend) hverifier
    · obtain ⟨hroute, hselection⟩ := (verifierStage_remote hremote).1 cs' hend
      exact ⟨hw', cs', rfl, by simp only [calledByControl, hroute, hselection, hremote]⟩
  · by_cases htracked : o.isTracked = true
    · rcases (verifierStage_issues htracked).mp ho with ⟨-, endpoint, -, rfl⟩ | ⟨hlocal, -⟩
      · exact ⟨rfl, fun w => hplain _ (.of_none rfl) w⟩
      · rw [hremote] at hlocal
        cases hlocal
    · exact ⟨isQuiet_of_not_isTracked htracked,
        fun w => hplain _ (notRemote_of_not_isTracked htracked) w⟩

section Call

variable (hplain : ∀ o, NotRemote o → ∀ w, safe w o)
include hplain

theorem wp_verifierStage {cs : ControlState} (hconfig : s.config = config)
    (hsafe : cs.route = .local → ∀ remote, s.config.remote = some remote →
      ∀ w, safe w (completionOp s .remote remote))
    (hverifier : cs.route = .remote → ¬ (isVerifierEnabled s = true ∧ VerifierCanFail s.config))
    (hw : EndsOnce usage t completed calledByControl w (.ok cs)) :
    (sharedLedger config).wp (.alone safe) (verifierStage s cs)
      (EndsOnce usage t completed calledByControl) w := by
  cases hroute : cs.route with
  | «local» =>
    have hquiet : Holding usage t completed w := by
      rcases hw with hw | ⟨hremote, -⟩
      · exact hw
      · rw [calledByControl, hroute] at hremote
        cases hremote
    exact wp_verifierStage_local hplain (hsafe hroute) hconfig hquiet
  | remote =>
    rcases hw with hw | ⟨hremote, hw⟩
    · refine Handler.wp_mono ?_ (wp_verifierStage_remote hplain hroute (hverifier hroute) hw)
      intro w' r h
      obtain ⟨hw', cs', rfl, -⟩ := h
      exact .inl hw'
    · refine Handler.wp_mono ?_ (wp_verifierStage_remote hplain hroute (hverifier hroute) hw)
      intro w' r h
      obtain ⟨hw', cs', rfl, hcalled⟩ := h
      exact .inr (by rw [hcalled]; exact ⟨hremote, hw'⟩)

/-- The stages after the first answer.  `hverifier` is needed where a completed
remote call is in the verifier's hands. -/
theorem wp_controlAnswer {status : String} {decision : RouteDecision}
    {selection : RouteEndpointSelection} {answer : RouteCompletion} (hconfig : s.config = config)
    (hsafe : decision.route = .local → ∀ remote, s.config.remote = some remote →
      ∀ w, safe w (completionOp s .remote remote))
    (hverifier : decision.route = .remote ∨ SloEscalates s →
      ¬ (isVerifierEnabled s = true ∧ VerifierCanFail s.config))
    (hw : EndsOnce usage t completed calledByControl w
      (.ok (ControlState.first decision selection answer))) :
    (sharedLedger config).wp (.alone safe)
      (controlAnswer s status decision selection answer)
      (EndsOnce usage t completed fun outcome => calledByControl outcome.control) w := by
  have hquiet {α β : Type} {calledBy : α → LlmRoute × String} {calledBy' : β → LlmRoute × String}
      {a : α} {b : β} {w w' : TokenWorld} {answer : LlmAns .elapsed}
      (hsame : calledBy' b = calledBy a)
      (hstep : (sharedLedger config).step w .elapsed answer w')
      (h : EndsOnce usage t completed calledBy w (.ok a)) :
      EndsOnce usage t completed calledBy' w' (.ok b) := by
    rcases h with h | ⟨hremote, h⟩
    · exact .inl ((kept_holding config).step rfl hstep h)
    · exact .inr (by rw [hsame]; exact ⟨hremote, (kept_holding config).step rfl hstep h⟩)
  unfold controlAnswer
  refine Handler.wp_bind (wp_ask (hplain _ (.of_none rfl) w) fun elapsed w₁ hstep => ?_)
  have hw₁ := hquiet rfl hstep hw
  -- after the latency stage the answer may be a remote one that stage asked for
  have hslo : (sharedLedger config).wp (.alone safe) (sloStage s (evaluateLaneSlo
      (durationMsU64 elapsed) (laneSloThresholdMs s.parsed.requestClass s.config)
      s.config.sloAlertThresholdPct) (.first decision selection answer))
      (fun w r => EndsOnce usage t completed calledByControl w r ∧ ∀ cs, r = .ok cs →
        (cs.route = .local → decision.route = .local) ∧
        (cs.route = .remote → decision.route = .remote ∨ SloEscalates s)) w₁ := by
    cases hroute : decision.route with
    | remote =>
      rw [sloStage_remote (show (ControlState.first decision selection answer).route = _ from hroute)]
      refine Handler.wp_pure_alone ?_
      refine ⟨hw₁, ?_⟩
      rintro cs hcs
      cases hcs
      exact ⟨fun hlocal => hroute.symm.trans hlocal, fun _ => .inl rfl⟩
    | «local» =>
      have hfirst : Holding usage t completed w₁ := by
        rcases hw₁ with h | ⟨hremote, -⟩
        · exact h
        · rw [calledByControl, ControlState.first, hroute] at hremote
          cases hremote
      refine Handler.wp_mono ?_ (Handler.wp_ends (wp_sloStage hplain (hsafe hroute) hconfig hfirst))
      intro w' r hx
      obtain ⟨hend, hways⟩ := hx
      refine ⟨hend, ?_⟩
      rintro cs rfl
      refine ⟨fun _ => rfl, fun hremote => .inr ?_⟩
      rcases sloStage_yields hways with ⟨hsame, -⟩ | ⟨-, -, hbreach, hflag, -⟩
      · rw [hsame, ControlState.first, hroute] at hremote
        cases hremote
      · exact ⟨exists_breach_iff.mp ⟨elapsed, hbreach⟩, hflag⟩
  refine Handler.wp_bind (Handler.wp_mono ?_ hslo)
  rintro w₂ (e | cs) ⟨hw₂, hroutes⟩
  · exact hw₂
  obtain ⟨hlocal, hremote⟩ := hroutes cs rfl
  refine Handler.wp_bind (Handler.wp_mono ?_ (wp_verifierStage hplain hconfig
    (fun h => hsafe (hlocal h)) (fun h => hverifier (hremote h)) hw₂))
  intro w₃ r hw₃
  cases r with
  | error e => exact hw₃
  | ok cs' =>
    refine Handler.wp_bind (wp_ask (hplain _ (.of_none rfl) w₃) fun elapsed w₄ hstep => ?_)
    exact Handler.wp_pure_alone (hquiet rfl hstep hw₃)

section Runs

variable {rt : LlmRuntime} {cacheNamespace : Option String} {pool : Bool} {p : Prepared}
  (hJ : Kept config J)
  (hfirst : p.decision.route = .remote → ∀ w, J w →
    safe w (completionOp (p.session rt config cacheNamespace pool) .remote p.selection.endpoint))
  (hescalated : p.decision.route = .local → ∀ remote, config.remote = some remote →
    ∀ w, safe w (completionOp (p.session rt config cacheNamespace pool) .remote remote))
  (hverifier : p.decision.route = .remote ∨
      SloEscalates (p.session rt config cacheNamespace pool) →
    ¬ (isVerifierEnabled (p.session rt config cacheNamespace pool) = true ∧
      VerifierCanFail config))
include hJ hfirst hescalated hverifier

theorem wp_runLlmWithControls {status : String}
    (hdecision : selectRouteWithReason config p.plan.prefer = .ok p.decision)
    (hselection : selectEndpointForRoute config p.decision.route p.plan true = .ok p.selection)
    (hj : J w) (hw : Holding usage t completed w) :
    (sharedLedger config).wp (.alone safe)
      (runLlmWithControls (p.session rt config cacheNamespace pool) status)
      (EndsOnce usage t completed fun outcome => calledByControl outcome.control) w := by
  unfold runLlmWithControls
  refine Handler.wp_bind (Handler.wp_ofExcept_alone ?_)
  rw [show selectRouteWithReason (p.session rt config cacheNamespace pool).config
    (p.session rt config cacheNamespace pool).plan.prefer = .ok p.decision from hdecision]
  refine Handler.wp_bind (Handler.wp_ofExcept_alone ?_)
  rw [show selectEndpointForRoute (p.session rt config cacheNamespace pool).config p.decision.route
    (p.session rt config cacheNamespace pool).plan true = .ok p.selection from hselection]
  have hanswer : (sharedLedger config).wp (.alone safe)
      (executeRouteCompletion (p.session rt config cacheNamespace pool) p.decision.route
        p.selection.endpoint)
      (EndsOnce usage t completed fun answer =>
        calledByControl (ControlState.first p.decision p.selection answer)) w := by
    cases hroute : p.decision.route with
    | remote =>
      refine Handler.wp_mono ?_
        (wp_executeRouteCompletion hJ hplain (hfirst hroute) rfl hj hw)
      intro w' r hend
      cases r with
      | error e => exact hend
      | ok answer => exact hend.imp id fun h => ⟨hroute, h⟩
    | «local» =>
      refine Handler.wp_mono ?_ (wp_quiet (kept_holding config) (fun o ho => ?_) hw)
      · rintro w' (e | answer) ⟨hw', -⟩
        · exact hw'
        · exact .inl hw'
      · by_cases htracked : o.isTracked = true
        · obtain ⟨-, -, rfl⟩ := (executeRouteCompletion_issues htracked).mp ho
          exact ⟨isQuiet_completionOp_local _ _, fun w => hplain _ (.completionOp_local _ _) w⟩
        · exact ⟨isQuiet_of_not_isTracked htracked,
            fun w => hplain _ (notRemote_of_not_isTracked htracked) w⟩
  refine Handler.wp_bind (Handler.wp_mono ?_ hanswer)
  intro w' r hend
  cases r with
  | error e => exact hend
  | ok answer => exact wp_controlAnswer hplain rfl hescalated hverifier hend

/-- A gateway call completes at most one remote call, which its result names. -/
theorem wp_executeLlmInfer {args : Json} (hp : prepare rt args config = .ok p) (hj : J w)
    (hw : Holding usage t completed w) :
    (sharedLedger config).wp (.alone safe) (executeLlmInfer rt args config cacheNamespace pool)
      (EndsOnce usage t completed fun result => (result.route, result.model)) w := by
  obtain ⟨hparsed, hplan, hdecision, hselection⟩ := prepare_eq_ok.mp hp
  unfold executeLlmInfer
  refine Handler.wp_bind (Handler.wp_ofExcept_alone ?_)
  rw [hparsed]
  refine Handler.wp_bind (Handler.wp_mono ?_
    (wp_quiet ((kept_holding config).and hJ) (fun o ho => ?_) ⟨hw, hj⟩))
  swap
  · have htracked : ¬ o.isTracked = true := fun htracked => acquireAdmission_issues htracked ho
    exact ⟨isQuiet_of_not_isTracked htracked,
      fun w => hplain o (notRemote_of_not_isTracked htracked) w⟩
  rintro w' (e | status) ⟨⟨hw', hj'⟩, -⟩
  · exact hw'
  refine Handler.wp_bind (Handler.wp_ofExcept_alone ?_)
  rw [hplan]
  refine Handler.wp_bind (Handler.wp_mono ?_ (wp_runLlmWithControls hplain hJ hfirst hescalated
    hverifier hdecision hselection hj' hw'))
  intro w'' r hend
  cases r with
  | error e => exact hend
  | ok outcome => exact Handler.wp_pure_alone hend

end Runs

end Call

end Wp

end Worker
end SecureAgnt

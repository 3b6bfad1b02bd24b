/-
Which chat requests a gateway call can send.

Each stage has one lemma saying which requests it can issue (`issues`) and one
saying which results it can return (`yields`), over every behaviour of the
endpoints, the caches and the clock.  `executeLlmInfer_issues` assembles them: a call can send its first
attempt, one escalation to the remote endpoint, and the judge's request, each
under a condition on the configuration and the arguments.
-/
import SecureAgnt.Llm.Gateway

namespace SecureAgnt
namespace Llm

open Prog

/-- The calls that carry the prompt: the chat requests and the mock completions. -/
def LlmOp.isRequest : LlmOp → Bool
  | .post .. => true
  | .mock .. => true
  | _ => false

/-- The calls the results below are about: the requests, and the usage records,
which the gateway never writes itself. -/
def LlmOp.isTracked : LlmOp → Bool
  | .post .. => true
  | .mock .. => true
  | .createUsage .. => true
  | _ => false

theorem LlmOp.isTracked_of_isRequest {o : LlmOp} (h : o.isRequest = true) :
    o.isTracked = true := by
  cases o <;> first | rfl | cases h

@[simp] theorem issues_ask (op o : LlmOp) : (ask op).Issues o ↔ op = o := issues_perform op

@[simp] theorem yields_ask (op : LlmOp) (r : LlmAns op) : (ask op).Yields r ↔ True :=
  yields_perform op r

/-! ## One completion -/

/-- The call a completion on `route` makes. -/
def completionOp (s : Session) (route : LlmRoute) (endpoint : LlmEndpointConfig) : LlmOp :=
  let request := completionRequest endpoint (buildMessages s.parsed.system s.plan.prompt) s.parsed
  if isMockEndpoint endpoint then .mock route endpoint request
  else .post (.completion route) endpoint request s.config.timeoutMs

/-- An endpoint's own answer can be `c`: a mock computes it, any other can answer
every text within the output limit. -/
def CanAnswer (s : Session) (endpoint : LlmEndpointConfig) (c : CachedCompletion) : Prop :=
  if isMockEndpoint endpoint then
    mockChatCompletion endpoint (buildMessages s.parsed.system s.plan.prompt) s.parsed s.config =
      .ok c
  else Text.len c.responseText ≤ s.config.maxOutputBytes

/-- The completion can be `c`: a cache can hold any. -/
def Attainable (s : Session) (endpoint : LlmEndpointConfig) (c : CachedCompletion) : Prop :=
  (s.config.cacheEnabled = true ∧ s.config.cacheTtlSecs > 0) ∨ CanAnswer s endpoint c

/-- The distributed cache does not refuse the call for want of a pool. -/
def CacheOpen (config : LlmConfig) (pool : Bool) : Prop :=
  usesDistributedCache config = true → pool = true ∨ config.distributedFailOpen = true

variable {s : Session} {route : LlmRoute} {endpoint : LlmEndpointConfig} {o : LlmOp}
  {c : CachedCompletion}

theorem completionOfPayload_ok {config : LlmConfig} :
    (∃ payload, completionOfPayload config payload = .ok c) ↔
      Text.len c.responseText ≤ config.maxOutputBytes := by
  constructor
  · intro hx
    obtain ⟨payload, h⟩ := hx
    unfold completionOfPayload at h
    split at h
    · cases h
    · split at h
      · cases h
      · rename_i hle
        cases h
        exact Nat.le_of_not_lt hle
  · intro hle
    refine ⟨⟨[c.responseText], some ⟨c.promptTokens, c.completionTokens, c.totalTokens⟩⟩, ?_⟩
    simp [completionOfPayload, Nat.not_lt.mpr hle]

theorem requestChatCompletion_issues :
    (requestChatCompletion s route endpoint (buildMessages s.parsed.system s.plan.prompt)).Issues
      o ↔ completionOp s route endpoint = o := by
  unfold requestChatCompletion completionOp
  by_cases hmock : isMockEndpoint endpoint = true
  · simp [hmock]
  · simp only [hmock, issues_bind, issues_ask, yields_ask, true_and, Bool.false_eq_true, if_false]
    refine or_iff_left ?_
    intro hx
    obtain ⟨answer, h⟩ := hx
    cases answer with
    | error failure => exact h
    | ok payload => exact (issues_ofExcept _).mp h

theorem requestChatCompletion_yields :
    (requestChatCompletion s route endpoint (buildMessages s.parsed.system s.plan.prompt)).Yields
      c ↔ CanAnswer s endpoint c := by
  unfold requestChatCompletion CanAnswer
  by_cases hmock : isMockEndpoint endpoint = true
  · simp only [hmock, if_true, yields_bind, yields_ask, true_and, yields_ofExcept]
    constructor
    · intro hx
      obtain ⟨-, h⟩ := hx
      exact h
    · exact fun h => ⟨(), h⟩
  · simp only [hmock, Bool.false_eq_true, if_false, yields_bind, yields_ask, true_and,
      ← completionOfPayload_ok]
    constructor
    · intro hx
      obtain ⟨answer, h⟩ := hx
      cases answer with
      | error failure => exact h.elim
      | ok payload => exact ⟨payload, (yields_ofExcept _).mp h⟩
    · intro hx
      obtain ⟨payload, h⟩ := hx
      exact ⟨.ok payload, (yields_ofExcept _).mpr h⟩

section Cached

variable {cacheKey : String} {remoteHost : Option String} {fallback : Bool}

theorem completeLocally_issues (ho : o.isTracked = true) :
    (completeLocally s route endpoint (buildMessages s.parsed.system s.plan.prompt) cacheKey
      remoteHost fallback).Issues o ↔ completionOp s route endpoint = o := by
  unfold completeLocally
  by_cases hcache : (s.config.cacheEnabled && decide (s.config.cacheTtlSecs > 0)) = true
  · rw [if_pos hcache]
    simp only [issues_bind, issues_ask, yields_ask, true_and]
    constructor
    · intro hx
      rcases hx with rfl | ⟨found, h⟩
      · cases ho
      · cases found with
        | some hit => exact h.elim
        | none =>
          simp only [issues_bind, requestChatCompletion_issues, issues_ask, issues_pure] at h
          rcases h with h | ⟨_, -, rfl | ⟨_, _, h⟩⟩
          · exact h
          · cases ho
          · exact h.elim
    · intro h
      refine .inr ⟨none, ?_⟩
      simp only [issues_bind, requestChatCompletion_issues]
      exact .inl h
  · rw [if_neg hcache]
    simp [requestChatCompletion_issues]

theorem completeLocally_yields (route : LlmRoute) (cacheKey : String) (remoteHost : Option String)
    (fallback : Bool) :
    (∃ a, (completeLocally s route endpoint (buildMessages s.parsed.system s.plan.prompt) cacheKey
      remoteHost fallback).Yields a ∧ a.completion = c) ↔ Attainable s endpoint c := by
  unfold completeLocally Attainable
  by_cases hcache : (s.config.cacheEnabled && decide (s.config.cacheTtlSecs > 0)) = true
  · rw [if_pos hcache]
    simp only [Bool.and_eq_true, decide_eq_true_eq] at hcache
    refine iff_of_true ?_ (.inl hcache)
    simp only [yields_bind, yields_ask, true_and]
    exact ⟨_, ⟨some c, rfl⟩, rfl⟩
  · rw [if_neg hcache]
    simp only [Bool.and_eq_true, decide_eq_true_eq] at hcache
    simp only [hcache, false_or, yields_bind, requestChatCompletion_yields, yields_pure]
    constructor
    · intro h
      obtain ⟨_, ⟨c', hc', rfl⟩, rfl⟩ := h
      exact hc'
    · intro hc
      exact ⟨_, ⟨c, hc, rfl⟩, rfl⟩

theorem completeDistributed_issues (ho : o.isTracked = true) :
    (completeDistributed s route endpoint (buildMessages s.parsed.system s.plan.prompt) cacheKey
      remoteHost).Issues o ↔ completionOp s route endpoint = o := by
  unfold completeDistributed
  simp only [issues_bind, issues_ask, yields_ask, true_and]
  constructor
  · intro hx
    rcases hx with rfl | ⟨found, h⟩
    · cases ho
    · rcases found with e | (- | - | hit)
      · simp only [issues_ite, issues_fail, and_false, false_or] at h
        exact (completeLocally_issues ho).mp h.2
      · simp only [issues_bind, requestChatCompletion_issues, issues_ask, issues_pure] at h
        rcases h with h | ⟨_, -, rfl | ⟨_, -, rfl | ⟨_, _, h⟩⟩⟩
        · exact h
        · cases ho
        · cases ho
        · exact h.elim
      · exact h.elim
      · exact h.elim
  · intro h
    refine .inr ⟨.ok none, ?_⟩
    simp only [issues_bind, requestChatCompletion_issues]
    exact .inl h

/-- The distributed cache can hold any completion. -/
theorem completeDistributed_yields (c : CachedCompletion) :
    (completeDistributed s route endpoint (buildMessages s.parsed.system s.plan.prompt) cacheKey
      remoteHost).Yields ⟨c, "distributed_hit", some cacheKey, remoteHost⟩ := by
  unfold completeDistributed
  simp only [yields_bind, yields_ask, true_and]
  exact ⟨.ok (some (some c)), rfl⟩

end Cached

/-- The egress guard passes `endpoint` on `route`. -/
def PassesEgress (s : Session) (route : LlmRoute) (endpoint : LlmEndpointConfig) : Prop :=
  ∃ host, enforceRemoteEgressPolicy s.rt route endpoint s.config s.parsed = .ok host

theorem executeRouteCompletion_issues (ho : o.isTracked = true) :
    (executeRouteCompletion s route endpoint).Issues o ↔
      PassesEgress s route endpoint ∧ CacheOpen s.config s.pool ∧
        completionOp s route endpoint = o := by
  unfold executeRouteCompletion PassesEgress CacheOpen
  simp only [issues_bind, issues_ofExcept, false_or, yields_ofExcept, issues_ite, issues_fail,
    completeDistributed_issues ho, completeLocally_issues ho]
  cases usesDistributedCache s.config <;> cases s.pool <;> cases s.config.distributedFailOpen <;>
    simp

theorem executeRouteCompletion_yields :
    (∃ a, (executeRouteCompletion s route endpoint).Yields a ∧ a.completion = c) ↔
      PassesEgress s route endpoint ∧ CacheOpen s.config s.pool ∧ Attainable s endpoint c := by
  unfold executeRouteCompletion
  simp only [yields_bind, yields_ofExcept, yields_ite, yields_fail]
  constructor
  · intro hx
    obtain ⟨a, ⟨host, hguard, h⟩, rfl⟩ := hx
    refine ⟨⟨host, hguard⟩, ?_⟩
    rcases h with ⟨hdist, ⟨hpool, -⟩ | ⟨hpool, ⟨-, h⟩ | ⟨hopen, h⟩⟩⟩ | ⟨hdist, h⟩
    · simp only [usesDistributedCache, Bool.and_eq_true, decide_eq_true_eq] at hdist
      exact ⟨fun _ => .inl hpool, .inl hdist.1.1⟩
    · exact h.elim
    · exact ⟨fun _ => .inr (by simpa using hopen), (completeLocally_yields ..).mp ⟨a, h, rfl⟩⟩
    · exact ⟨fun hd => absurd hd hdist, (completeLocally_yields ..).mp ⟨a, h, rfl⟩⟩
  · intro hx
    obtain ⟨⟨host, hguard⟩, hopen, hc⟩ := hx
    generalize computeCacheKey s.rt (s.cacheNamespace.getD "global") route endpoint.model
      (buildMessages s.parsed.system s.plan.prompt) s.parsed.maxTokens s.parsed.temperature = key
    have hlocal (fallback : Bool) := (completeLocally_yields route key host fallback).mpr hc
    by_cases hdist : usesDistributedCache s.config = true
    · by_cases hpool : s.pool = true
      · exact ⟨_, ⟨host, hguard, .inl ⟨hdist, .inl ⟨hpool, completeDistributed_yields c⟩⟩⟩, rfl⟩
      · obtain ⟨a, ha, rfl⟩ := hlocal true
        have hfail := (hopen hdist).resolve_left hpool
        exact ⟨a, ⟨host, hguard, .inl ⟨hdist, .inr ⟨hpool, .inr ⟨by simp [hfail], ha⟩⟩⟩⟩, rfl⟩
    · obtain ⟨a, ha, rfl⟩ := hlocal false
      exact ⟨a, ⟨host, hguard, .inr ⟨hdist, ha⟩⟩, rfl⟩

/-! ## The verifier -/

/-- The configuration sends responses to the judge at `endpoint`. -/
def UsesJudge (config : LlmConfig) (endpoint : LlmEndpointConfig) : Prop :=
  (config.verifierMode = .modelJudge ∨ config.verifierMode = .hybrid) ∧
    config.verifierJudge = some endpoint

def judgeOp (s : Session) (endpoint : LlmEndpointConfig) (response : String) : LlmOp :=
  .post .judge endpoint (judgeRequest endpoint s.plan.prompt response)
    s.config.verifierJudgeTimeoutMs

/-- Some answer of a judge is read as `score`. -/
def JudgeScores (rt : LlmRuntime) (score : Nat) : Prop :=
  ∃ raw judge, parseVerifierJudgeResponse rt raw = .ok judge ∧ judge.scorePct = score

/-- The verifier can give `response` the score `score`. -/
def CanScore (s : Session) (response : String) (score : Nat) : Prop :=
  let own := scoreResponse s.plan.prompt response s.config.verifierMinResponseChars
  match s.config.verifierMode, s.config.verifierJudge with
  | .heuristic, _ => own = score
  | .deterministic, _ => own = score
  | .modelJudge, none => False
  | .hybrid, none => own = score
  | .modelJudge, some _ =>
    JudgeScores s.rt score ∨ (s.config.verifierJudgeFailOpen = true ∧ own = score)
  | .hybrid, some _ =>
    (∃ judge, JudgeScores s.rt judge ∧ (own + judge) / 2 = score) ∨
      (s.config.verifierJudgeFailOpen = true ∧ own = score)

variable {response : String}

theorem requestVerifierJudgeScore_issues :
    (requestVerifierJudgeScore s endpoint response).Issues o ↔ judgeOp s endpoint response = o := by
  unfold requestVerifierJudgeScore
  simp only [issues_bind, issues_ask, yields_ask, true_and]
  refine or_iff_left ?_
  intro hx
  obtain ⟨answer, h⟩ := hx
  cases answer with
  | error failure => exact h
  | ok payload => exact (issues_ofExcept _).mp h

theorem requestVerifierJudgeScore_yields {judge : LlmVerifierJudgeOutcome} :
    (requestVerifierJudgeScore s endpoint response).Yields judge ↔
      ∃ raw, parseVerifierJudgeResponse s.rt raw = .ok judge := by
  unfold requestVerifierJudgeScore
  simp only [yields_bind, yields_ask, true_and]
  constructor
  · intro hx
    obtain ⟨answer, h⟩ := hx
    cases answer with
    | error failure => exact h.elim
    | ok payload =>
      have hparsed := (yields_ofExcept _).mp h
      unfold judgeOfPayload at hparsed
      split at hparsed
      · cases hparsed
      · exact ⟨_, hparsed⟩
  · intro hx
    obtain ⟨raw, h⟩ := hx
    exact ⟨.ok ⟨[raw], none⟩, (yields_ofExcept _).mpr h⟩

/-- The judge's request can always fail to be sent. -/
theorem requestVerifierJudgeScore_fails :
    (requestVerifierJudgeScore s endpoint response).Fails "verifier judge request failed" := by
  unfold requestVerifierJudgeScore
  simp only [fails_bind, yields_ask, true_and]
  exact .inr ⟨.error .send, rfl⟩

theorem judgedVerdict_issues {reasons : List String} {score : Nat} :
    (judgedVerdict s endpoint response reasons score).Issues o ↔
      judgeOp s endpoint response = o := by
  unfold judgedVerdict
  simp only [issues_bind, issues_attempt, requestVerifierJudgeScore_issues]
  refine or_iff_left ?_
  intro hx
  obtain ⟨judged, -, h⟩ := hx
  cases judged with
  | ok judge => exact h
  | error err => simp at h

theorem judgedVerdict_scores {reasons : List String} {own score : Nat} :
    (∃ v, (judgedVerdict s endpoint response reasons own).Yields v ∧ v.scorePct = score) ↔
      (∃ judge, JudgeScores s.rt judge ∧
        (if s.config.verifierMode = .hybrid then (own + judge) / 2 else judge) = score) ∨
      (s.config.verifierJudgeFailOpen = true ∧ own = score) := by
  unfold judgedVerdict
  simp only [yields_bind]
  constructor
  · intro hx
    obtain ⟨v, ⟨judged, hjudged, h⟩, rfl⟩ := hx
    cases judged with
    | ok judge =>
      obtain ⟨raw, hraw⟩ := requestVerifierJudgeScore_yields.mp ((yields_attempt_ok _).mp hjudged)
      cases h
      exact .inl ⟨judge.scorePct, ⟨raw, judge, hraw, rfl⟩, by simp [judgedOutcome]⟩
    | error err =>
      simp only [yields_ite, yields_fail, and_false, false_or] at h
      obtain ⟨hopen, rfl⟩ := h
      exact .inr ⟨by simpa using hopen, rfl⟩
  · intro hx
    rcases hx with ⟨_, ⟨raw, judge, hraw, rfl⟩, rfl⟩ | ⟨hopen, rfl⟩
    · refine ⟨_, ⟨.ok judge, ?_, rfl⟩, by simp [judgedOutcome]⟩
      exact (yields_attempt_ok _).mpr (requestVerifierJudgeScore_yields.mpr ⟨raw, hraw⟩)
    · refine ⟨⟨own, none, combineReasonCode "judge_fail_open" (reasons ++
        ["judge_failed:" ++ compactReason "verifier judge request failed"])⟩, ⟨.error _,
          (yields_attempt_error _).mpr requestVerifierJudgeScore_fails, ?_⟩, rfl⟩
      simp [hopen]

theorem evaluateVerifier_issues :
    (evaluateVerifier s response).Issues o ↔
      ∃ endpoint, UsesJudge s.config endpoint ∧ judgeOp s endpoint response = o := by
  unfold evaluateVerifier UsesJudge
  cases hmode : s.config.verifierMode <;> cases hjudge : s.config.verifierJudge <;>
    simp [judgedVerdict_issues]

theorem evaluateVerifier_scores {score : Nat} :
    (∃ v, (evaluateVerifier s response).Yields v ∧ v.scorePct = score) ↔
      CanScore s response score := by
  unfold evaluateVerifier CanScore
  cases hmode : s.config.verifierMode <;> cases hjudge : s.config.verifierJudge <;>
    simp [judgedVerdict_scores, hmode]

/-! ## The stages -/

/-- A remote endpoint is configured and an escalation to it passes the guard. -/
def EscalatesTo (s : Session) (remote : LlmEndpointConfig) : Prop :=
  s.config.remote = some remote ∧ PassesEgress s .remote remote ∧ CacheOpen s.config s.pool

/-- Escalations go to the configured remote model, whatever the action asks for. -/
theorem selectEndpointForRoute_remote {config : LlmConfig} {remote : LlmEndpointConfig}
    (plan : LlmPromptPlan) (hremote : config.remote = some remote) :
    selectEndpointForRoute config .remote plan false = .ok ⟨remote, none, none, none⟩ := by
  simp [selectEndpointForRoute, hremote, overrideModel]

theorem escalateRemote_issues (ho : o.isTracked = true) :
    (escalateRemote s).Issues o ↔
      ∃ remote, EscalatesTo s remote ∧ completionOp s .remote remote = o := by
  unfold escalateRemote EscalatesTo
  cases hremote : s.config.remote with
  | none => simp [selectEndpointForRoute, hremote]
  | some remote =>
    simp [selectEndpointForRoute_remote s.plan hremote, executeRouteCompletion_issues ho, and_assoc]

/-- What an escalation returns: the remote endpoint with one of its completions,
or a failure. -/
theorem escalateRemote_yields_ok {selection : RouteEndpointSelection} {answer : RouteCompletion}
    (h : (escalateRemote s).Yields (selection, .ok answer)) :
    ∃ remote, EscalatesTo s remote ∧ selection = ⟨remote, none, none, none⟩ ∧
      Attainable s remote answer.completion := by
  unfold escalateRemote at h
  cases hremote : s.config.remote with
  | none => simp [selectEndpointForRoute, hremote] at h
  | some remote =>
    simp only [selectEndpointForRoute_remote s.plan hremote, yields_bind, yields_ofExcept,
      Except.ok.injEq, exists_eq_left', yields_pure, Prod.mk.injEq] at h
    obtain ⟨_, hanswer, rfl, rfl⟩ := h
    obtain ⟨hpass, hopen, hc⟩ := executeRouteCompletion_yields.mp
      ⟨answer, (yields_attempt_ok _).mp hanswer, rfl⟩
    exact ⟨remote, ⟨hremote, hpass, hopen⟩, rfl, hc⟩

theorem escalateRemote_can_yield {remote : LlmEndpointConfig} (hesc : EscalatesTo s remote)
    (hc : Attainable s remote c) :
    ∃ answer, (escalateRemote s).Yields (⟨remote, none, none, none⟩, .ok answer) ∧
      answer.completion = c := by
  obtain ⟨hremote, hpass, hopen⟩ := hesc
  obtain ⟨answer, hanswer, rfl⟩ := executeRouteCompletion_yields.mpr ⟨hpass, hopen, hc⟩
  refine ⟨answer, ?_, rfl⟩
  unfold escalateRemote
  simp [selectEndpointForRoute_remote s.plan hremote, hanswer]

section Stages

variable {slo : LaneSloEvaluation} {cs cs' : ControlState}

theorem sloStage_issues (ho : o.isTracked = true) :
    (sloStage s slo cs).Issues o ↔
      cs.route = .local ∧ slo.status = .breach ∧ s.config.sloBreachEscalateRemote = true ∧
        ∃ remote, EscalatesTo s remote ∧ completionOp s .remote remote = o := by
  have hsome : ∀ remote, EscalatesTo s remote → s.config.remote.isSome = true := by
    intro remote hesc
    rw [hesc.1]
    rfl
  unfold sloStage
  simp only [issues_ite, issues_bind, escalateRemote_issues ho, issues_pure, and_false, or_false]
  constructor
  · intro hx
    obtain ⟨⟨hlocal, hbreach, hflag, -⟩, h | ⟨⟨selection, answer⟩, -, h⟩⟩ := hx
    · exact ⟨hlocal, hbreach, hflag, h⟩
    · cases answer with
      | ok answer => exact h.elim
      | error err => exact h.elim
  · intro hx
    obtain ⟨hlocal, hbreach, hflag, remote, hesc, hop⟩ := hx
    exact ⟨⟨hlocal, hbreach, hflag, hsome remote hesc⟩, .inl ⟨remote, hesc, hop⟩⟩

/-- After the latency stage the answer is the first one on the first route, or a
remote one. -/
theorem sloStage_yields (h : (sloStage s slo cs).Yields cs') :
    (cs'.route = cs.route ∧ cs'.answer = cs.answer) ∨
      (cs'.route = .remote ∧ cs.route = .local ∧ slo.status = .breach ∧
        s.config.sloBreachEscalateRemote = true ∧
        ∃ remote, EscalatesTo s remote ∧ Attainable s remote cs'.answer.completion) := by
  unfold sloStage at h
  simp only [yields_ite, yields_bind, yields_pure] at h
  rcases h with ⟨⟨hlocal, hbreach, hflag, -⟩, ⟨selection, answer⟩, hesc, h⟩ | ⟨-, rfl⟩
  · cases answer with
    | ok answer =>
      cases h
      obtain ⟨remote, hto, -, hc⟩ := escalateRemote_yields_ok hesc
      exact .inr ⟨rfl, hlocal, hbreach, hflag, remote, hto, hc⟩
    | error err =>
      cases h
      exact .inl ⟨rfl, rfl⟩
  · exact .inl ⟨rfl, rfl⟩

theorem sloStage_skips (hslo : slo.status ≠ .breach) : (sloStage s slo cs).Yields cs := by
  unfold sloStage
  rw [if_neg (fun h => hslo h.2.1)]
  rfl

theorem sloStage_escalates {remote : LlmEndpointConfig} (hlocal : cs.route = .local)
    (hbreach : slo.status = .breach) (hflag : s.config.sloBreachEscalateRemote = true)
    (hesc : EscalatesTo s remote) (hc : Attainable s remote c) :
    ∃ cs', (sloStage s slo cs).Yields cs' ∧ cs'.answer.completion = c := by
  obtain ⟨answer, hanswer, rfl⟩ := escalateRemote_can_yield hesc hc
  unfold sloStage
  rw [if_pos ⟨hlocal, hbreach, hflag, by rw [hesc.1]; rfl⟩]
  simp only [yields_bind]
  exact ⟨_, ⟨_, hanswer, rfl⟩, rfl⟩

/-- The verifier can score `response` below the minimum and is set to escalate. -/
def VerifierEscalates (s : Session) (response : String) : Prop :=
  isVerifierEnabled s = true ∧ s.config.verifierEscalateRemote = true ∧
    ∃ score < s.config.verifierMinScorePct, CanScore s response score

theorem verifierStage_issues (ho : o.isTracked = true) :
    (verifierStage s cs).Issues o ↔
      (isVerifierEnabled s = true ∧ ∃ endpoint, UsesJudge s.config endpoint ∧
        judgeOp s endpoint cs.answer.completion.responseText = o) ∨
      (cs.route = .local ∧ VerifierEscalates s cs.answer.completion.responseText ∧
        ∃ remote, EscalatesTo s remote ∧ completionOp s .remote remote = o) := by
  unfold verifierStage VerifierEscalates
  simp only [issues_ite, issues_bind, evaluateVerifier_issues, escalateRemote_issues ho,
    issues_pure, and_false, or_false]
  constructor
  · intro hx
    obtain ⟨hon, hjudge | ⟨v, hv, ⟨hlocal, hlow⟩, ⟨hflag, -⟩, h | ⟨⟨_, answer⟩, -, h⟩⟩⟩ := hx
    · exact .inl ⟨hon, hjudge⟩
    · exact .inr ⟨hlocal, ⟨hon, hflag, v.scorePct, hlow, evaluateVerifier_scores.mp ⟨v, hv, rfl⟩⟩, h⟩
    · cases answer with
      | ok answer => exact h.elim
      | error err => exact h.elim
  · intro hx
    rcases hx with ⟨hon, hjudge⟩ | ⟨hlocal, ⟨hon, hflag, score, hlow, hscore⟩, remote, hesc, hop⟩
    · exact ⟨hon, .inl hjudge⟩
    · obtain ⟨v, hv, rfl⟩ := evaluateVerifier_scores.mpr hscore
      refine ⟨hon, .inr ⟨v, hv, ⟨hlocal, hlow⟩, ⟨hflag, ?_⟩, .inl ⟨remote, hesc, hop⟩⟩⟩
      rw [hesc.1]
      rfl

end Stages

/-! ## The whole call -/

/-- Admission does not refuse the call for want of a pool. -/
def AdmissionOpen (config : LlmConfig) (pool : Bool) : Prop :=
  config.admissionEnabled = true → config.distributedEnabled = true →
    config.distributedAdmissionEnabled = true → pool = true ∨ config.distributedFailOpen = true

theorem acquireLocalAdmission_issues {parsed : LlmInferActionArgs} {config : LlmConfig}
    {status : String} (ho : o.isTracked = true) :
    ¬ (acquireLocalAdmission parsed config status).Issues o := by
  unfold acquireLocalAdmission
  simp only [issues_bind, issues_ask, yields_ask, true_and]
  intro hx
  rcases hx with rfl | ⟨reserved, h⟩
  · cases ho
  · cases reserved with
    | true => exact h
    | false => exact h

theorem acquireLocalAdmission_yields (parsed : LlmInferActionArgs) (config : LlmConfig)
    (status : String) : (acquireLocalAdmission parsed config status).Yields status := by
  unfold acquireLocalAdmission
  simp only [yields_bind, yields_ask, true_and]
  exact ⟨true, rfl⟩

theorem acquireAdmission_issues {parsed : LlmInferActionArgs} {config : LlmConfig}
    {cacheNamespace : Option String} {pool : Bool} (ho : o.isTracked = true) :
    ¬ (acquireAdmission parsed config cacheNamespace pool).Issues o := by
  unfold acquireAdmission
  have hlocal (status : String) : (acquireLocalAdmission parsed config status).Issues o ↔ False :=
    iff_false_intro (acquireLocalAdmission_issues ho)
  simp only [issues_ite, issues_pure, issues_fail, hlocal, and_false, or_false, false_or,
    issues_bind, issues_ask, yields_ask, true_and]
  intro hx
  obtain ⟨-, -, -, rfl | ⟨lease, h⟩⟩ := hx
  · cases ho
  · rcases lease with e | granted
    · simp [hlocal] at h
    · cases granted <;> exact h

theorem acquireAdmission_yields {parsed : LlmInferActionArgs} {config : LlmConfig}
    {cacheNamespace : Option String} {pool : Bool} :
    (∃ status, (acquireAdmission parsed config cacheNamespace pool).Yields status) ↔
      AdmissionOpen config pool := by
  unfold acquireAdmission AdmissionOpen
  have hlocal (status : String) :
      ∃ st, (acquireLocalAdmission parsed config status).Yields st :=
    ⟨status, acquireLocalAdmission_yields parsed config status⟩
  by_cases hon : config.admissionEnabled = true
  · by_cases hdist : config.distributedEnabled = true ∧ config.distributedAdmissionEnabled = true
    · by_cases hpool : pool = true
      · simp only [hon, hdist, hpool, Bool.not_true, Bool.and_self, if_true, Bool.false_eq_true,
          if_false, true_or, implies_true, iff_true, yields_bind, yields_ask, true_and]
        exact ⟨"distributed_admitted", .ok true, rfl⟩
      · by_cases hopen : config.distributedFailOpen = true
        · simpa [hon, hdist, hpool, hopen] using hlocal _
        · simp [hon, hdist, hpool, hopen]
    · have hskip : (config.distributedEnabled && config.distributedAdmissionEnabled) = false := by
        rw [Bool.eq_false_iff]
        simpa using hdist
      simp only [hon, hskip, Bool.not_true, Bool.false_eq_true, if_false]
      exact iff_of_true (hlocal _) fun _ h1 h2 => absurd ⟨h1, h2⟩ hdist
  · simp [hon]

/-- The latency stage can escalate the action. -/
def SloEscalates (s : Session) : Prop :=
  LaneCanBreach s.config s.parsed.requestClass ∧ s.config.sloBreachEscalateRemote = true

/-- The action's first attempt is local and some completion of it is escalated:
for its latency, or for its score. -/
def CanEscalate (s : Session) (p : Prepared) : Prop :=
  p.decision.route = .local ∧ ∃ c, Attainable s p.selection.endpoint c ∧
    (SloEscalates s ∨ VerifierEscalates s c.responseText)

/-- `response` can be the answer that reaches the verifier. -/
inductive ReachesVerifier (s : Session) (p : Prepared) : String → Prop
  | first {c : CachedCompletion} (hc : Attainable s p.selection.endpoint c) :
      ReachesVerifier s p c.responseText
  | escalated {first c : CachedCompletion} {remote : LlmEndpointConfig}
      (hlocal : p.decision.route = .local) (hfirst : Attainable s p.selection.endpoint first)
      (hslo : SloEscalates s) (hesc : EscalatesTo s remote) (hc : Attainable s remote c) :
      ReachesVerifier s p c.responseText

/-- The requests a call can send once its first attempt is let through. -/
inductive Sends (s : Session) (p : Prepared) : LlmOp → Prop
  | first : Sends s p (completionOp s p.decision.route p.selection.endpoint)
  | escalation {remote : LlmEndpointConfig} (hcan : CanEscalate s p)
      (hesc : EscalatesTo s remote) : Sends s p (completionOp s .remote remote)
  | judge {endpoint : LlmEndpointConfig} {response : String} (hon : isVerifierEnabled s = true)
      (huses : UsesJudge s.config endpoint) (hreach : ReachesVerifier s p response) :
      Sends s p (judgeOp s endpoint response)

theorem runLlmWithControls_issues {p : Prepared} {status : String} (ho : o.isTracked = true)
    (hdecision : selectRouteWithReason s.config s.plan.prefer = .ok p.decision)
    (hselection : selectEndpointForRoute s.config p.decision.route s.plan true = .ok p.selection) :
    (runLlmWithControls s status).Issues o ↔
      PassesEgress s p.decision.route p.selection.endpoint ∧ CacheOpen s.config s.pool ∧
        Sends s p o := by
  unfold runLlmWithControls controlAnswer
  simp only [issues_bind, issues_ofExcept, yields_ofExcept, false_or, hdecision, hselection,
    Except.ok.injEq, exists_eq_left', executeRouteCompletion_issues ho, issues_ask, yields_ask,
    true_and, sloStage_issues ho, verifierStage_issues ho, issues_pure, and_false, exists_false,
    or_false]
  constructor
  · intro h
    rcases h with ⟨hpass, hopen, rfl⟩ | ⟨answer, hanswer, rfl | ⟨elapsed, hlater⟩⟩
    · exact ⟨hpass, hopen, .first⟩
    · cases ho
    · obtain ⟨hpass, hopen, hc⟩ := executeRouteCompletion_yields.mp ⟨answer, hanswer, rfl⟩
      refine ⟨hpass, hopen, ?_⟩
      rcases hlater with ⟨hlocal, hbreach, hflag, remote, hesc, rfl⟩ | ⟨cs, hcs, hlater⟩
      · exact .escalation ⟨hlocal, _, hc, .inl ⟨exists_breach_iff.mp ⟨elapsed, hbreach⟩, hflag⟩⟩ hesc
      rcases hlater with (⟨hon, endpoint, huses, rfl⟩ | ⟨hlocal, hver, remote, hesc, rfl⟩) | ⟨_, -, rfl⟩
      · -- the judge sees the first answer, or the one the latency stage replaced it with
        rcases sloStage_yields hcs with ⟨-, heq⟩ | ⟨-, hlocal, hbreach, hflag, remote, hesc, hrc⟩
        · rw [heq]
          exact .judge hon huses (.first hc)
        · exact .judge hon huses (.escalated hlocal hc
            ⟨exists_breach_iff.mp ⟨elapsed, hbreach⟩, hflag⟩ hesc hrc)
      · -- only an answer still on the local route is escalated for its score
        rcases sloStage_yields hcs with ⟨hroute, heq⟩ | ⟨hroute, -⟩
        · rw [heq] at hver
          exact .escalation ⟨hroute.symm.trans hlocal, _, hc, .inr hver⟩ hesc
        · rw [hroute] at hlocal
          cases hlocal
      · cases ho
  · intro h
    obtain ⟨hpass, hopen, hsends⟩ := h
    cases hsends with
    | first => exact .inl ⟨hpass, hopen, rfl⟩
    | @escalation remote hcan hesc =>
      obtain ⟨hlocal, c, hc, hwhy⟩ := hcan
      obtain ⟨answer, hanswer, rfl⟩ := executeRouteCompletion_yields.mpr ⟨hpass, hopen, hc⟩
      refine .inr ⟨answer, hanswer, .inr ?_⟩
      rcases hwhy with ⟨hbreach, hflag⟩ | hver
      · obtain ⟨millis, hmillis⟩ := exists_breach_iff.mpr hbreach
        exact ⟨millis, .inl ⟨hlocal, hmillis, hflag, remote, hesc, rfl⟩⟩
      · refine ⟨(0 : Nat), .inr ⟨_, sloStage_skips (evaluateLaneSlo_zero s.config _), .inl (.inr ?_)⟩⟩
        exact ⟨hlocal, hver, remote, hesc, rfl⟩
    | @judge endpoint response hon huses hreach =>
      cases hreach with
      | first hc =>
        obtain ⟨answer, hanswer, rfl⟩ := executeRouteCompletion_yields.mpr ⟨hpass, hopen, hc⟩
        refine .inr ⟨answer, hanswer, .inr ⟨(0 : Nat), .inr ⟨_,
          sloStage_skips (evaluateLaneSlo_zero s.config _), .inl (.inl ?_)⟩⟩⟩
        exact ⟨hon, endpoint, huses, rfl⟩
      | @escalated first c remote hlocal hfirst hslo hesc hc =>
        obtain ⟨answer, hanswer, rfl⟩ := executeRouteCompletion_yields.mpr ⟨hpass, hopen, hfirst⟩
        obtain ⟨millis, hmillis⟩ := exists_breach_iff.mpr hslo.1
        have hfirst : (ControlState.first p.decision p.selection answer).route = .local := hlocal
        obtain ⟨cs, hcs, rfl⟩ := sloStage_escalates hfirst hmillis hslo.2 hesc hc
        exact .inr ⟨answer, hanswer, .inr ⟨millis, .inr ⟨cs, hcs, .inl (.inl
          ⟨hon, endpoint, huses, rfl⟩)⟩⟩⟩

/-- A call that sends anything has selected a route and an endpoint. -/
theorem runLlmWithControls_selects {status : String} (h : (runLlmWithControls s status).Issues o) :
    ∃ decision selection, selectRouteWithReason s.config s.plan.prefer = .ok decision ∧
      selectEndpointForRoute s.config decision.route s.plan true = .ok selection := by
  unfold runLlmWithControls at h
  simp only [issues_bind, issues_ofExcept, yields_ofExcept, false_or] at h
  obtain ⟨decision, hdecision, selection, hselection, -⟩ := h
  exact ⟨decision, selection, hdecision, hselection⟩

def Prepared.session (p : Prepared) (rt : LlmRuntime) (config : LlmConfig)
    (cacheNamespace : Option String) (pool : Bool) : Session :=
  ⟨rt, config, cacheNamespace, pool, p.parsed, p.plan⟩

theorem prepare_eq_ok {rt : LlmRuntime} {args : Json} {config : LlmConfig} {p : Prepared} :
    prepare rt args config = .ok p ↔
      parseActionArgs args config.maxInputBytes = .ok p.parsed ∧
        buildPromptPlan rt p.parsed config = .ok p.plan ∧
        selectRouteWithReason config p.plan.prefer = .ok p.decision ∧
        selectEndpointForRoute config p.decision.route p.plan true = .ok p.selection := by
  unfold prepare
  constructor
  · intro h
    split at h
    · cases h
    rename_i parsed hparsed
    split at h
    · cases h
    rename_i plan hplan
    split at h
    · cases h
    rename_i decision hdecision
    split at h
    · cases h
    rename_i selection hselection
    cases h
    exact ⟨hparsed, hplan, hdecision, hselection⟩
  · intro hx
    obtain ⟨hparsed, hplan, hdecision, hselection⟩ := hx
    rw [hparsed]
    dsimp only
    rw [hplan]
    dsimp only
    rw [hdecision]
    dsimp only
    rw [hselection]

/-- What a call can send, in terms of its configuration and arguments. -/
theorem executeLlmInfer_issues {rt : LlmRuntime} {args : Json} {config : LlmConfig}
    {cacheNamespace : Option String} {pool : Bool} (ho : o.isTracked = true) :
    (executeLlmInfer rt args config cacheNamespace pool).Issues o ↔
      ∃ p, prepare rt args config = .ok p ∧ AdmissionOpen config pool ∧ CacheOpen config pool ∧
        PassesEgress (p.session rt config cacheNamespace pool) p.decision.route
          p.selection.endpoint ∧
        Sends (p.session rt config cacheNamespace pool) p o := by
  unfold executeLlmInfer
  simp only [issues_bind, issues_ofExcept, yields_ofExcept, false_or, acquireAdmission_issues ho,
    issues_pure, and_false, exists_false, or_false]
  constructor
  · intro h
    obtain ⟨parsed, hparsed, status, hstatus, plan, hplan, hrun⟩ := h
    have hadmits := acquireAdmission_yields.mp ⟨status, hstatus⟩
    obtain ⟨decision, selection, hdecision, hselection⟩ := runLlmWithControls_selects hrun
    obtain ⟨hpass, hopen, hsends⟩ :=
      (runLlmWithControls_issues (p := ⟨parsed, plan, decision, selection⟩) ho hdecision
        hselection).mp hrun
    exact ⟨⟨parsed, plan, decision, selection⟩,
      prepare_eq_ok.mpr ⟨hparsed, hplan, hdecision, hselection⟩, hadmits, hopen, hpass, hsends⟩
  · intro h
    obtain ⟨p, hp, hadmits, hopen, hpass, hsends⟩ := h
    obtain ⟨hparsed, hplan, hdecision, hselection⟩ := prepare_eq_ok.mp hp
    obtain ⟨status, hstatus⟩ := acquireAdmission_yields.mpr hadmits
    exact ⟨p.parsed, hparsed, status, hstatus, p.plan, hplan,
      (runLlmWithControls_issues ho hdecision hselection).mpr ⟨hpass, hopen, hsends⟩⟩

end Llm
end SecureAgnt

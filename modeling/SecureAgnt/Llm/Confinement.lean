/-
Where a gateway call can send text.

Two properties of `executeLlmInfer` over every behaviour of its environment: it
keeps to the configured mode, and every request stays on a configured local
endpoint or on a host the egress policy is open for.  Neither holds for every
configuration.  Each is shown equivalent to a condition on the configuration, the
arguments and the servers, which names the paths that leave: an escalation under
`local_only`; the judge's request, which passes no egress guard; and a redirect, on
which the client sends the request's body again wherever the server says.
-/
import SecureAgnt.Lib.Http
import SecureAgnt.Lib.Tabled
import SecureAgnt.Llm.Reach

namespace SecureAgnt
namespace Llm

variable {rt : LlmRuntime} {args : Json} {config : LlmConfig} {cacheNamespace : Option String}
  {pool : Bool}

/-- The route and model a completion call is made on. -/
def LlmOp.completionOn? : LlmOp → Option (LlmRoute × String)
  | .post (.completion route) endpoint _ _ => some (route, endpoint.model)
  | .mock route endpoint _ => some (route, endpoint.model)
  | _ => none

theorem isRequest_of_completionOn? {o : LlmOp} {r : LlmRoute × String}
    (h : o.completionOn? = some r) : o.isRequest = true := by
  unfold LlmOp.completionOn? at h
  split at h
  · rfl
  · rfl
  · cases h

@[simp] theorem completionOn?_completionOp (s : Session) (route : LlmRoute)
    (endpoint : LlmEndpointConfig) :
    (completionOp s route endpoint).completionOn? = some (route, endpoint.model) := by
  unfold completionOp
  split <;> rfl

theorem passesEgress_local (s : Session) (endpoint : LlmEndpointConfig) :
    PassesEgress s .local endpoint :=
  ⟨none, enforceRemoteEgressPolicy_local s.rt endpoint s.config s.parsed⟩

/-! ## The configured mode -/

/-- The mode decides the route of the first attempt. -/
theorem selectRouteWithReason_route {prefer : Option LlmRoute} {decision : RouteDecision}
    (h : selectRouteWithReason config prefer = .ok decision) :
    (config.mode = .localOnly → decision.route = .local) ∧
      (config.mode = .remoteOnly → decision.route = .remote) := by
  constructor
  · intro hmode
    simp only [selectRouteWithReason, hmode] at h
    split at h
    · cases h
    · split at h <;> cases h
      rfl
  · intro hmode
    simp only [selectRouteWithReason, hmode] at h
    split at h
    · cases h
    · split at h <;> cases h
      rfl

/-- Some run of the call asks the remote endpoint again after a local answer. -/
def RemoteEscalation (rt : LlmRuntime) (args : Json) (config : LlmConfig)
    (cacheNamespace : Option String) (pool : Bool) : Prop :=
  ∃ p, prepare rt args config = .ok p ∧ AdmissionOpen config pool ∧
    CanEscalate (p.session rt config cacheNamespace pool) p ∧
    ∃ remote, EscalatesTo (p.session rt config cacheNamespace pool) remote

/-- No run completes on a route the mode excludes. -/
def KeepsMode (rt : LlmRuntime) (args : Json) (config : LlmConfig)
    (cacheNamespace : Option String) (pool : Bool) : Prop :=
  ∀ o route model, (executeLlmInfer rt args config cacheNamespace pool).Issues o →
    o.completionOn? = some (route, model) →
    (config.mode = .localOnly → route = .local) ∧ (config.mode = .remoteOnly → route = .remote)

/-- A call completes on the first route of its action, or on the remote route by
an escalation. -/
theorem completions_of_executeLlmInfer {o : LlmOp} {route : LlmRoute} {model : String}
    (ho : o.completionOn? = some (route, model)) :
    (executeLlmInfer rt args config cacheNamespace pool).Issues o →
      ∃ p, prepare rt args config = .ok p ∧
        ((route = p.decision.route ∧ model = p.selection.endpoint.model) ∨
          (route = .remote ∧ RemoteEscalation rt args config cacheNamespace pool ∧
            config.remote.map (·.model) = some model)) := by
  intro hissues
  obtain ⟨p, hp, hadmits, -, -, hsends⟩ :=
    (executeLlmInfer_issues (LlmOp.isTracked_of_isRequest (isRequest_of_completionOn? ho))).mp hissues
  refine ⟨p, hp, ?_⟩
  cases hsends with
  | first =>
    simp only [completionOn?_completionOp, Option.some.injEq, Prod.mk.injEq] at ho
    exact .inl ⟨ho.1.symm, ho.2.symm⟩
  | @escalation remote hcan hesc =>
    simp only [completionOn?_completionOp, Option.some.injEq, Prod.mk.injEq] at ho
    refine .inr ⟨ho.1.symm, ⟨p, hp, hadmits, hcan, remote, hesc⟩, ?_⟩
    have hremote : config.remote = some remote := hesc.1
    rw [hremote, ← ho.2]
    rfl
  | judge =>
    -- the judge's answer is no completion
    cases ho

/-- An escalation that can happen is sent to the configured remote model. -/
theorem issues_of_remoteEscalation
    (h : RemoteEscalation rt args config cacheNamespace pool) :
    ∃ o remote, config.remote = some remote ∧
      (executeLlmInfer rt args config cacheNamespace pool).Issues o ∧
      o.completionOn? = some (.remote, remote.model) := by
  obtain ⟨p, hp, hadmits, hcan, remote, hesc⟩ := h
  refine ⟨completionOp (p.session rt config cacheNamespace pool) .remote remote, remote, hesc.1,
    ?_, completionOn?_completionOp ..⟩
  refine (executeLlmInfer_issues ?_).mpr ⟨p, hp, hadmits, hesc.2.2, ?_, .escalation hcan hesc⟩
  · exact LlmOp.isTracked_of_isRequest
      (isRequest_of_completionOn? (completionOn?_completionOp ..))
  · rw [hcan.1]
    exact passesEgress_local _ _

/-- A call keeps to its mode exactly when, under `local_only`, no escalation to
the remote endpoint can happen. -/
theorem keepsMode_iff (rt : LlmRuntime) (args : Json) (config : LlmConfig)
    (cacheNamespace : Option String) (pool : Bool) :
    KeepsMode rt args config cacheNamespace pool ↔
      (config.mode = .localOnly → ¬ RemoteEscalation rt args config cacheNamespace pool) := by
  constructor
  · intro hkeeps hmode hesc
    obtain ⟨o, remote, -, hissues, hon⟩ := issues_of_remoteEscalation hesc
    have hlocal := (hkeeps o .remote remote.model hissues hon).1 hmode
    cases hlocal
  · intro hcond o route model hissues ho
    obtain ⟨p, hp, hwhere⟩ := completions_of_executeLlmInfer ho hissues
    have hroute := selectRouteWithReason_route (prepare_eq_ok.mp hp).2.2.1
    rcases hwhere with ⟨rfl, -⟩ | ⟨rfl, hesc, -⟩
    · exact hroute
    · exact ⟨fun hmode => absurd hesc (hcond hmode), fun _ => rfl⟩

/-- A worker set up for tests of the gateway: a local endpoint, a remote one on
an allowlisted host, every optional control off. -/
def sampleConfig : LlmConfig where
  mode := .localOnly
  timeoutMs := 12000
  maxInputBytes := 262144
  maxPromptBytes := 32000
  maxOutputBytes := 64000
  largeInputThresholdBytes := 12000
  largeInputPolicy := .summarizeFirst
  largeInputSummaryTargetBytes := 8000
  contextRetrievalTopK := 6
  contextRetrievalMaxBytes := 24000
  contextRetrievalChunkBytes := 2048
  admissionEnabled := false
  admissionInteractiveMaxInflight := 8
  admissionBatchMaxInflight := 2
  cacheEnabled := false
  cacheTtlSecs := 300
  cacheMaxEntries := 1024
  distributedEnabled := false
  distributedFailOpen := true
  distributedOwner := "worker-1"
  distributedAdmissionEnabled := false
  distributedAdmissionLeaseMs := 30000
  distributedCacheEnabled := false
  distributedCacheNamespaceMaxEntries := 4096
  verifierEnabled := false
  verifierMode := .heuristic
  verifierMinScorePct := 65
  verifierEscalateRemote := false
  verifierMinResponseChars := 48
  verifierJudge := none
  verifierJudgeTimeoutMs := 5000
  verifierJudgeFailOpen := true
  sloInteractiveMaxLatencyMs := none
  sloBatchMaxLatencyMs := none
  sloAlertThresholdPct := none
  sloBreachEscalateRemote := false
  localEndpoint := some ⟨"http://127.0.0.1:11434/v1", "qwen2.5", none⟩
  localModels := ["qwen2.5"]
  localSmall := none
  localSmallModels := []
  localInteractiveTier := .workhorse
  localBatchTier := .workhorse
  remote := some ⟨"https://llm.example", "gpt-4o-mini", none⟩
  remoteModels := ["gpt-4o-mini"]
  remoteEgressEnabled := true
  remoteEgressClass := .cloudAllowed
  remoteHostAllowlist := ["llm.example"]
  remoteTokenBudgetPerRun := none
  remoteTokenBudgetPerTenant := none
  remoteTokenBudgetPerAgent := none
  remoteTokenBudgetPerModel := none
  remoteTokenBudgetWindowSecs := 86400

/-- The URL parser on the URLs of the sample endpoints. -/
def sampleUrlHost (url : String) : Except String (Option String) :=
  if url = "https://llm.example" ∨ url = "https://llm.example/chat/completions" then
    .ok (some "llm.example")
  else if url = "https://judge.example" ∨ url = "https://judge.example/chat/completions" then
    .ok (some "judge.example")
  else .error "relative URL without a base"

/-- The cache keys that the samples use. -/
def sampleDigests : List (String × String) :=
  [("tenant:t:agent:00000000-0000-0000-0000-000000000000|local|qwen2.5|user:b|0|",
      "25d64fb859f6283f084536a96ac76b608d5b87c0b7877a081189a19e07afaa0b"),
    ("tenant:t:agent:00000000-0000-0000-0000-000000000000|local|qwen2.5|system:a|user:b|user:c|0|",
      "0de1fca0f7e166ae13e70214eaf39ae07a8d2d69a1d7dc8498aaecce785930ab")]

/-- SHA-256 on the texts of the samples. -/
def sampleSha256Hex (text : String) : String := tabledDigest sampleDigests text.toByteArray

theorem sampleSha256Hex_injective : Function.Injective sampleSha256Hex := by
  have hdigest : Function.Injective (tabledDigest sampleDigests) :=
    tabledDigest_injective (by decide) (by decide)
  exact fun text text' h => String.toByteArray_inj.mp (hdigest h)

def sampleRuntime : LlmRuntime where
  channelDefaultsJson := none
  parseJson := fun _ => none
  urlHost := sampleUrlHost
  sha256Hex := sampleSha256Hex
  formatTemperature := fun _ => "0.0000"

/-- A `local_only` worker whose interactive lane may escalate after a second. -/
def localOnlySloConfig : LlmConfig :=
  { sampleConfig with sloInteractiveMaxLatencyMs := some 1000, sloBreachEscalateRemote := true }

/-- It answers a slow local completion by asking the remote endpoint. -/
theorem localOnlySloConfig_leaves_mode :
    ¬ KeepsMode sampleRuntime (.obj [("prompt", .str "hi")]) localOnlySloConfig none false := by
  have hesc : RemoteEscalation sampleRuntime (.obj [("prompt", .str "hi")]) localOnlySloConfig none
      false := by
    obtain ⟨p, hp, hroute, hclass, hplain⟩ : ∃ p,
        prepare sampleRuntime (.obj [("prompt", .str "hi")]) localOnlySloConfig = .ok p ∧
        p.decision.route = .local ∧ p.parsed.requestClass = .interactive ∧
        isMockEndpoint p.selection.endpoint = false := ⟨_, rfl, rfl, rfl, by decide⟩
    have hopen : CacheOpen localOnlySloConfig false := fun huses => absurd huses (by decide)
    refine ⟨p, hp, fun hon => absurd hon (by decide),
      ⟨hroute, ⟨"", none, none, none⟩, .inr ?_, .inl ⟨⟨1000, ?_, ?_⟩, rfl⟩⟩,
      ⟨"https://llm.example", "gpt-4o-mini", none⟩, rfl, ⟨some "llm.example", ?_⟩, hopen⟩
    · simp [CanAnswer, hplain, Text.len]
    · simp only [Prepared.session, hclass]
      rfl
    · decide
    · rfl
  intro hkeeps
  obtain ⟨o, remote, -, hissues, hon⟩ := issues_of_remoteEscalation hesc
  have hlocal := (hkeeps o .remote remote.model hissues hon).1 rfl
  cases hlocal

/-! ## Egress -/

/-- The URL parser finds the host of the base URL in the URL of a request. -/
def SameHost (rt : LlmRuntime) : Prop :=
  ∀ endpoint host host', rt.urlHost endpoint.baseUrl = .ok (some host) →
    rt.urlHost (chatUrl endpoint) = .ok (some host') → host' = host

/-- The URL is one of a configured local endpoint: it continues its base URL. -/
def IsLocalUrl (config : LlmConfig) (url : String) : Prop :=
  ∃ configured path,
    (config.localEndpoint = some configured ∨ config.localSmall = some configured) ∧
      url = Text.trimEndChar configured.baseUrl '/' ++ "/" ++ path

def redactedFlag (args : Json) : Bool := ((args.get? "redacted").bind Json.asBool?).getD false

/-- The URL is of a configured local endpoint or of a host egress is open for. -/
def Inside (rt : LlmRuntime) (args : Json) (config : LlmConfig) (url : String) : Prop :=
  IsLocalUrl config url ∨
    ∀ host, rt.urlHost url = .ok (some host) → EgressOpen config (redactedFlag args) host

/-- What the requests of every run carry stays inside, where the servers redirect as
`redirects` says: every URL that gets the body of a request is inside. -/
def KeepsEgress (rt : LlmRuntime) (redirects : String → String → Prop) (args : Json)
    (config : LlmConfig) (cacheNamespace : Option String) (pool : Bool) : Prop :=
  ∀ sender endpoint request timeoutMs,
    (executeLlmInfer rt args config cacheNamespace pool).Issues
      (.post sender endpoint request timeoutMs) →
    ∀ hops : Http.Hops, hops.Along redirects (chatUrl endpoint) →
      ∀ url ∈ hops.receivers (chatUrl endpoint), Inside rt args config url

/-- The judge at `endpoint` is asked in some run: the first attempt passes and
has an answer, and the verifier is on and uses that judge. -/
def AsksJudge (rt : LlmRuntime) (args : Json) (config : LlmConfig)
    (cacheNamespace : Option String) (pool : Bool) (endpoint : LlmEndpointConfig) : Prop :=
  ∃ p, prepare rt args config = .ok p ∧ AdmissionOpen config pool ∧ CacheOpen config pool ∧
    PassesEgress (p.session rt config cacheNamespace pool) p.decision.route p.selection.endpoint ∧
    isVerifierEnabled (p.session rt config cacheNamespace pool) = true ∧
    UsesJudge config endpoint ∧
    ∃ c, Attainable (p.session rt config cacheNamespace pool) p.selection.endpoint c

/-- Some run of the call posts to `endpoint`: its first attempt, an escalation, or the
request to a judge. -/
inductive PostsTo (rt : LlmRuntime) (args : Json) (config : LlmConfig)
    (cacheNamespace : Option String) (pool : Bool) : LlmEndpointConfig → Prop
  | first {p : Prepared} (hp : prepare rt args config = .ok p) (hadmits : AdmissionOpen config pool)
      (hopen : CacheOpen config pool)
      (hpass : PassesEgress (p.session rt config cacheNamespace pool) p.decision.route
        p.selection.endpoint)
      (hpost : isMockEndpoint p.selection.endpoint = false) :
      PostsTo rt args config cacheNamespace pool p.selection.endpoint
  | escalation {p : Prepared} {remote : LlmEndpointConfig} (hp : prepare rt args config = .ok p)
      (hadmits : AdmissionOpen config pool)
      (hcan : CanEscalate (p.session rt config cacheNamespace pool) p)
      (hesc : EscalatesTo (p.session rt config cacheNamespace pool) remote)
      (hpost : isMockEndpoint remote = false) :
      PostsTo rt args config cacheNamespace pool remote
  | judge {endpoint : LlmEndpointConfig}
      (hasks : AsksJudge rt args config cacheNamespace pool endpoint) :
      PostsTo rt args config cacheNamespace pool endpoint

theorem overrideModel_baseUrl {allow : Bool} {route : LlmRoute} {tier : Option LlmLocalTier}
    {plan : LlmPromptPlan} {endpoint endpoint' : LlmEndpointConfig}
    (h : overrideModel allow route tier plan config endpoint = .ok endpoint') :
    endpoint'.baseUrl = endpoint.baseUrl := by
  unfold overrideModel at h
  split at h
  · split at h <;> cases h
    rfl
  · cases h
    rfl

theorem selectLocalTier_configured {requested tier : LlmLocalTier} {endpoint : LlmEndpointConfig}
    {reason : String} (h : selectLocalTier config requested = .ok (tier, endpoint, reason)) :
    config.localEndpoint = some endpoint ∨ config.localSmall = some endpoint := by
  unfold selectLocalTier at h
  split at h <;> cases h
  all_goals simp_all

theorem isLocalUrl_chatUrl {endpoint configured : LlmEndpointConfig}
    (hconfigured : config.localEndpoint = some configured ∨ config.localSmall = some configured)
    (hbase : endpoint.baseUrl = configured.baseUrl) : IsLocalUrl config (chatUrl endpoint) := by
  refine ⟨configured, "chat/completions", hconfigured, ?_⟩
  rw [chatUrl, hbase, String.append_assoc]
  rfl

theorem selectEndpointForRoute_local {plan : LlmPromptPlan} {selection : RouteEndpointSelection}
    (h : selectEndpointForRoute config .local plan true = .ok selection) :
    IsLocalUrl config (chatUrl selection.endpoint) := by
  simp only [selectEndpointForRoute] at h
  split at h
  · cases h
  rename_i tier endpoint reason htier
  split at h
  · cases h
  rename_i chosen hchosen
  cases h
  exact isLocalUrl_chatUrl (selectLocalTier_configured htier) (overrideModel_baseUrl hchosen)

theorem parseActionArgs_redacted {maxInputBytes : Nat} {parsed : LlmInferActionArgs}
    (h : parseActionArgs args maxInputBytes = .ok parsed) : parsed.redacted = redactedFlag args := by
  unfold parseActionArgs at h
  split at h
  · cases h
  split at h
  · cases h
  simp only [bind, Except.bind, pure, Except.pure] at h
  split at h
  · cases h
  split at h
  · cases h
  split at h
  · cases h
  split at h
  · cases h
    rfl
  · split at h
    · cases h
    · cases h
      rfl

theorem completionOp_eq_post {s : Session} {route : LlmRoute} {endpoint target : LlmEndpointConfig}
    {sender : Sender} {request : ChatCompletionRequest} {timeoutMs : Nat}
    (h : completionOp s route endpoint = .post sender target request timeoutMs) :
    target = endpoint ∧ isMockEndpoint endpoint = false := by
  unfold completionOp at h
  split at h
  · cases h
  · rename_i hplain
    cases h
    exact ⟨rfl, by simpa using hplain⟩

theorem exists_post_of_plain (s : Session) (route : LlmRoute) {endpoint : LlmEndpointConfig}
    (hplain : isMockEndpoint endpoint = false) :
    ∃ request timeoutMs, completionOp s route endpoint =
      .post (.completion route) endpoint request timeoutMs := by
  unfold completionOp
  rw [hplain]
  exact ⟨_, _, rfl⟩

theorem issues_of_asksJudge {endpoint : LlmEndpointConfig}
    (h : AsksJudge rt args config cacheNamespace pool endpoint) :
    ∃ request timeoutMs, (executeLlmInfer rt args config cacheNamespace pool).Issues
      (.post .judge endpoint request timeoutMs) := by
  obtain ⟨p, hp, hadmits, hopen, hpass, hon, huses, c, hc⟩ := h
  exact ⟨_, _, (executeLlmInfer_issues rfl).mpr
    ⟨p, hp, hadmits, hopen, hpass, .judge hon huses (.first hc)⟩⟩

/-- The endpoints that a call posts to. -/
theorem issues_post_iff {endpoint : LlmEndpointConfig} :
    (∃ sender request timeoutMs, (executeLlmInfer rt args config cacheNamespace pool).Issues
      (.post sender endpoint request timeoutMs)) ↔
      PostsTo rt args config cacheNamespace pool endpoint := by
  constructor
  · rintro ⟨sender, request, timeoutMs, hissues⟩
    obtain ⟨p, hp, hadmits, hopen, hpass, hsends⟩ := (executeLlmInfer_issues rfl).mp hissues
    generalize hop : LlmOp.post sender endpoint request timeoutMs = o at hsends
    cases hsends with
    | first =>
      obtain ⟨rfl, hplain⟩ := completionOp_eq_post hop.symm
      exact .first hp hadmits hopen hpass hplain
    | escalation hcan hesc =>
      obtain ⟨rfl, hplain⟩ := completionOp_eq_post hop.symm
      exact .escalation hp hadmits hcan hesc hplain
    | judge hon huses hreach =>
      cases hop
      refine .judge ⟨p, hp, hadmits, hopen, hpass, hon, huses, ?_⟩
      cases hreach with
      | first hc => exact ⟨_, hc⟩
      | escalated hlocal hfirst hslo hesc hc => exact ⟨_, hfirst⟩
  · intro h
    cases h with
    | @first p hp hadmits hopen hpass hpost =>
      obtain ⟨request, timeoutMs, hop⟩ := exists_post_of_plain
        (p.session rt config cacheNamespace pool) p.decision.route hpost
      refine ⟨.completion p.decision.route, request, timeoutMs, (executeLlmInfer_issues rfl).mpr
        ⟨p, hp, hadmits, hopen, hpass, ?_⟩⟩
      exact hop ▸ .first
    | @escalation p remote hp hadmits hcan hesc hpost =>
      obtain ⟨request, timeoutMs, hop⟩ := exists_post_of_plain
        (p.session rt config cacheNamespace pool) .remote hpost
      have hpass : PassesEgress (p.session rt config cacheNamespace pool) p.decision.route
          p.selection.endpoint := by
        rw [hcan.1]
        exact passesEgress_local _ _
      refine ⟨.completion .remote, request, timeoutMs, (executeLlmInfer_issues rfl).mpr
        ⟨p, hp, hadmits, hesc.2.2, hpass, ?_⟩⟩
      exact hop ▸ .escalation hcan hesc
    | judge hasks =>
      obtain ⟨request, timeoutMs, hissues⟩ := issues_of_asksJudge hasks
      exact ⟨.judge, request, timeoutMs, hissues⟩

/-- What passes the guard on its route stays inside: a local endpoint is a
configured one, and a remote one has a host egress is open for. -/
theorem inside_of_passesEgress {p : Prepared} {route : LlmRoute}
    {endpoint : LlmEndpointConfig} (hhost : SameHost rt)
    (hparsed : parseActionArgs args config.maxInputBytes = .ok p.parsed)
    (hlocal : route = .local → IsLocalUrl config (chatUrl endpoint))
    (hpass : PassesEgress (p.session rt config cacheNamespace pool) route endpoint) :
    Inside rt args config (chatUrl endpoint) := by
  cases route with
  | «local» => exact .inl (hlocal rfl)
  | remote =>
    obtain ⟨passed, hguard⟩ := hpass
    obtain ⟨host, -, hbase, hopen⟩ := enforceRemoteEgressPolicy_remote.mp hguard
    refine .inr fun host' hchat => ?_
    rw [hhost endpoint host host' hbase hchat, ← parseActionArgs_redacted hparsed]
    exact hopen

/-- What a call posts is inside, where the judge's requests are. -/
theorem inside_of_postsTo {endpoint : LlmEndpointConfig} (hhost : SameHost rt)
    (hjudge : ∀ endpoint, AsksJudge rt args config cacheNamespace pool endpoint →
      Inside rt args config (chatUrl endpoint))
    (h : PostsTo rt args config cacheNamespace pool endpoint) :
    Inside rt args config (chatUrl endpoint) := by
  cases h with
  | first hp _ _ hpass _ =>
    obtain ⟨hparsed, -, -, hselection⟩ := prepare_eq_ok.mp hp
    refine inside_of_passesEgress hhost hparsed (fun hlocal => ?_) hpass
    rw [hlocal] at hselection
    exact selectEndpointForRoute_local hselection
  | escalation hp _ _ hesc _ =>
    exact inside_of_passesEgress hhost (prepare_eq_ok.mp hp).1 (by simp) hesc.2.1
  | judge hasks => exact hjudge endpoint hasks

/-- Everything a call posts stays inside exactly when the judge's requests do, wherever
the call can ask one, and no server that the call posts to has it sent on to outside. -/
theorem keepsEgress_iff (rt : LlmRuntime) (redirects : String → String → Prop) (args : Json)
    (config : LlmConfig) (cacheNamespace : Option String) (pool : Bool) (hhost : SameHost rt) :
    KeepsEgress rt redirects args config cacheNamespace pool ↔
      (∀ endpoint, AsksJudge rt args config cacheNamespace pool endpoint →
        Inside rt args config (chatUrl endpoint)) ∧
      ∀ endpoint, PostsTo rt args config cacheNamespace pool endpoint →
        ∀ hops : Http.Hops, hops.Along redirects (chatUrl endpoint) →
          ∀ url ∈ hops.resent, Inside rt args config url := by
  constructor
  · intro hkeeps
    refine ⟨fun endpoint hasks => ?_, fun endpoint hposts hops halong url hurl => ?_⟩
    · obtain ⟨request, timeoutMs, hissues⟩ := issues_of_asksJudge hasks
      exact hkeeps .judge endpoint request timeoutMs hissues .none Http.Hops.along_none _
        (Http.Hops.mem_receivers.mpr (.inl rfl))
    · obtain ⟨sender, request, timeoutMs, hissues⟩ := issues_post_iff.mpr hposts
      exact hkeeps sender endpoint request timeoutMs hissues hops halong url
        (Http.Hops.mem_receivers.mpr (.inr hurl))
  · rintro ⟨hjudge, hservers⟩ sender endpoint request timeoutMs hissues hops halong url hurl
    have hposts := issues_post_iff.mp ⟨sender, request, timeoutMs, hissues⟩
    rcases Http.Hops.mem_receivers.mp hurl with rfl | hresent
    · exact inside_of_postsTo hhost hjudge hposts
    · exact hservers endpoint hposts hops halong url hresent

/-- The sample URLs are looked up as they stand, so both sides are computed. -/
theorem sameHost_sampleRuntime : SameHost sampleRuntime := by
  intro endpoint host host' hbase hchat
  simp only [sampleRuntime, chatUrl] at hbase hchat
  generalize endpoint.baseUrl = url at hbase hchat
  have hsame : ∀ known ∈ ["https://llm.example", "https://llm.example/chat/completions",
      "https://judge.example", "https://judge.example/chat/completions"],
      sampleUrlHost (Text.trimEndChar known '/' ++ "/chat/completions") = sampleUrlHost known ∨
      sampleUrlHost (Text.trimEndChar known '/' ++ "/chat/completions") =
        .error "relative URL without a base" := by
    decide
  have hknown : url ∈ ["https://llm.example", "https://llm.example/chat/completions",
      "https://judge.example", "https://judge.example/chat/completions"] := by
    unfold sampleUrlHost at hbase
    split at hbase
    · rename_i hurl
      rcases hurl with rfl | rfl <;> simp
    split at hbase
    · rename_i hurl
      rcases hurl with rfl | rfl <;> simp
    · cases hbase
  rcases hsame url hknown with heq | herr
  · rw [heq, hbase] at hchat
    cases hchat
    rfl
  · rw [herr] at hchat
    cases hchat

/-- The local server's path was moved. -/
def sampleRedirects (url location : String) : Prop :=
  url = "http://127.0.0.1:11434/v1/chat/completions" ∧
    location = "http://127.0.0.1:11434/v1/openai/chat/completions"

/-- Without a verifier the sample worker keeps every request inside, also where the local
server redirects it. -/
theorem keepsEgress_sampleConfig :
    SameHost sampleRuntime ∧
      KeepsEgress sampleRuntime sampleRedirects (.obj [("prompt", .str "hi")]) sampleConfig none
        false := by
  refine ⟨sameHost_sampleRuntime, (keepsEgress_iff sampleRuntime sampleRedirects
    (.obj [("prompt", .str "hi")]) sampleConfig none false sameHost_sampleRuntime).mpr ⟨?_, ?_⟩⟩
  · intro endpoint h
    obtain ⟨p, -, -, -, -, -, ⟨-, hjudge⟩, -⟩ := h
    cases hjudge
  · intro endpoint _ hops halong url hurl
    obtain ⟨_, -, rfl⟩ := halong.redirected url hurl
    exact .inl ⟨⟨"http://127.0.0.1:11434/v1", "qwen2.5", none⟩, "openai/chat/completions", .inl rfl,
      by decide⟩

/-- A worker that never lets text leave the premises, with a judge elsewhere. -/
def onPremJudgeConfig : LlmConfig :=
  { sampleConfig with
    verifierEnabled := true
    verifierMode := .modelJudge
    verifierJudge := some ⟨"https://judge.example", "judge-1", none⟩
    remoteEgressEnabled := false
    remoteEgressClass := .neverLeavesPrem }

/-- It posts the prompt and the local answer to the judge, without any redirect. -/
theorem onPremJudgeConfig_leaks :
    ¬ KeepsEgress sampleRuntime (fun _ _ => False) (.obj [("prompt", .str "hi")])
      onPremJudgeConfig none false := by
  intro hkeeps
  obtain ⟨p, hp, hroute, hplain⟩ : ∃ p,
      prepare sampleRuntime (.obj [("prompt", .str "hi")]) onPremJudgeConfig = .ok p ∧
      p.decision.route = .local ∧ isMockEndpoint p.selection.endpoint = false :=
    ⟨_, rfl, rfl, by decide⟩
  have hopen : CacheOpen onPremJudgeConfig false := fun huses => absurd huses (by decide)
  have hanswer : Attainable (p.session sampleRuntime onPremJudgeConfig none false)
      p.selection.endpoint ⟨"", none, none, none⟩ := .inr (by simp [CanAnswer, hplain, Text.len])
  have hasks : AsksJudge sampleRuntime (.obj [("prompt", .str "hi")]) onPremJudgeConfig none false
      ⟨"https://judge.example", "judge-1", none⟩ := by
    refine ⟨p, hp, fun hon => absurd hon (by decide), hopen, ?_, rfl, ⟨.inl rfl, rfl⟩, _, hanswer⟩
    rw [hroute]
    exact passesEgress_local _ _
  obtain ⟨request, timeoutMs, hissues⟩ := issues_of_asksJudge hasks
  rcases hkeeps _ _ _ _ hissues .none Http.Hops.along_none _
    (Http.Hops.mem_receivers.mpr (.inl rfl)) with ⟨configured, path, hlocal | hsmall, hurl⟩ | hhost
  · cases hlocal
    -- the judge's URL has an `s` where the local one has a colon
    have hfifth := congrArg (fun url => url.toList[4]?) hurl
    simp only [String.toList_append, List.append_assoc] at hfifth
    rw [List.getElem?_append_left (by decide)] at hfifth
    exact absurd hfifth (by decide)
  · cases hsmall
  · exact (hhost "judge.example" rfl).onPrem rfl

end Llm
end SecureAgnt

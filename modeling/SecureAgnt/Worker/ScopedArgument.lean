/-
The scope a decision is about and the argument an executor uses.

The decision trims the argument of the action's type, and the executor takes it as it is.
Normalisation has trimmed it before, so the two are one text, whatever names the skill
gave its arguments; the memory actions are decided on but have no executor.
-/
import SecureAgnt.Worker.GrantedPath

namespace SecureAgnt
namespace Worker

open Payment (ParsedPaymentDestination PaymentArgs parsePaymentArgs stringArg)

/-! ## The executors -/

inductive Executor where
  | objectWrite
  | messageSend
  | messageReceive
  | paymentSend
  | llmInfer
  | localExec
  deriving DecidableEq, Repr

/-- The dispatch of `execute_action`. -/
def executorOf (actionType : String) : Except String Executor :=
  match actionType with
  | "object.write" => .ok .objectWrite
  | "message.send" => .ok .messageSend
  | "message.receive" => .ok .messageReceive
  | "payment.send" => .ok .paymentSend
  | "llm.infer" => .ok .llmInfer
  | "local.exec" => .ok .localExec
  | other => .error ("unsupported action type: " ++ other)

/-- The field an executor takes its path, destination or source from. -/
def Executor.field? : Executor → Option String
  | .objectWrite => some "path"
  | .messageSend => some "destination"
  | .messageReceive => some "source"
  | .paymentSend => some "destination"
  | .llmInfer => none
  | .localExec => none

def Executor.argument? (executor : Executor) (args : Json) : Option String :=
  executor.field?.bind (stringArg args)

/-- The types of the actions whose scope is an argument of an executor. -/
def scopedTypes : List String := ["object.write", "message.send", "message.receive", "payment.send"]

/-- Their scope is an argument too, of no executor. -/
def memoryTypes : List String := ["memory.read", "memory.write"]

/-! ## What the executors do with it -/

section Executors

variable {env : ArtifactEnv} {config : ArtifactConfig} {run : RunLeaseRecord} {args : Json}
  {fileId artifactId : Uuid} {written : Written} {scope : String}

theorem objectWrite_at {artifactRoot : PathBuf} (hscope : stringArg args "path" = some scope)
    (h : executeObjectWriteAction env artifactRoot run args artifactId = .ok written) :
    sanitizeRelativePath scope = .ok written.artifact.path.toList := by
  obtain ⟨cleaned, _, hclean, _, hpath, _⟩ := executeObjectWriteAction_eq_ok h hscope
  rw [hclean, hpath, String.toList_ofList]

theorem content_of_writeArtifact {artifactRoot relativePath : PathBuf}
    {dirError fileError contentType content : String}
    (h : writeArtifact env artifactRoot run dirError fileError contentType relativePath content
      artifactId = .ok written) : written.content = content := by
  unfold writeArtifact at h
  split at h
  · cases h
  dsimp only at h
  split at h
  · cases h
  split at h
  · cases h
  generalize env.persistArtifactMetadata _ = answer at h
  cases answer with
  | error e => cases h
  | ok _ =>
    cases h
    rfl

theorem messageReceive_from (hscope : stringArg args "source" = some scope)
    (h : executeMessageReceiveAction env config run args fileId artifactId = .ok written) :
    ∃ parsed content, ParsedMessageDestination.parse "message.receive" scope = .ok parsed ∧
      written.content = env.toPretty (.obj [("direction", .str "inbound"),
        ("provider", .str parsed.provider.asStr), ("source", .str scope),
        ("target", .str parsed.target), ("text", .str content)]) := by
  unfold stringArg at hscope
  unfold executeMessageReceiveAction at h
  rw [hscope] at h
  cases hcontent : messageContent? args with
  | none =>
    rw [hcontent] at h
    cases h
  | some content =>
    rw [hcontent] at h
    dsimp only at h
    cases hparse : ParsedMessageDestination.parse "message.receive" scope with
    | error e =>
      rw [hparse] at h
      cases h
    | ok parsed =>
      rw [hparse] at h
      dsimp only at h
      split at h
      · cases h
      · exact ⟨parsed, content, rfl, content_of_writeArtifact h⟩

theorem messageSend_to {lastLlmResponseText : Option String}
    (hscope : stringArg args "destination" = some scope)
    (h : executeMessageSendAction env config run lastLlmResponseText args fileId artifactId =
      .ok written) :
    ∃ parsed content delivery,
      ParsedMessageDestination.parse "message.send" scope = .ok parsed ∧
        env.deliver parsed.provider parsed.target content = .ok delivery := by
  unfold stringArg at hscope
  unfold executeMessageSendAction at h
  rw [hscope] at h
  cases hcontent : messageContent? args with
  | none =>
    rw [hcontent] at h
    cases h
  | some rawContent =>
    rw [hcontent] at h
    dsimp only at h
    split at h
    · cases h
    rename_i content _
    cases hparse : ParsedMessageDestination.parse "message.send" scope with
    | error e =>
      rw [hparse] at h
      cases h
    | ok parsed =>
      rw [hparse] at h
      dsimp only at h
      split at h
      · cases h
      split at h
      · cases h
      rename_i delivery hdeliver
      exact ⟨parsed, content, delivery, rfl, hdeliver⟩

theorem payment_to {p : PaymentArgs} (hscope : stringArg args "destination" = some scope)
    (h : parsePaymentArgs args = .ok p) :
    p.destination = scope ∧ ParsedPaymentDestination.parse scope = .ok p.parsedDestination := by
  unfold parsePaymentArgs at h
  rw [hscope] at h
  simp only [Payment.required, bind, Except.bind] at h
  cases hparse : ParsedPaymentDestination.parse scope with
  | error e =>
    rw [hparse] at h
    cases h
  | ok parsed =>
    rw [hparse] at h
    dsimp only at h
    repeat' split at h
    all_goals cases h
    exact ⟨rfl, rfl⟩

end Executors

/-! ## Normalised actions -/

/-- The fields of normalised arguments. -/
structure CanonicalArgs (fields : List (String × Json)) (args : Json) : Prop where
  aliases : ∀ family ∈ argFamilies, ∀ name ∈ family.2, args.get? name = none
  given : ∀ family ∈ argFamilies, ∀ value, (Json.obj fields).get? family.1 = some value →
    args.get? family.1 = some (trimString value)
  firstAlias : ∀ family ∈ argFamilies, (Json.obj fields).get? family.1 = none →
    args.get? family.1 = (family.2.findSome? (Json.obj fields).get?).map trimString
  others : ∀ name ∉ familiesNames argFamilies, args.get? name = (Json.obj fields).get? name

/-- The executor of the action takes the scope for its argument and acts on it. -/
structure ActsOn (action : SkillAction) (executor : Executor) (scope : String) : Prop where
  dispatched : executorOf action.actionType = .ok executor
  argument : executor.argument? action.args = some scope
  writes : executor = .objectWrite → ∀ env artifactRoot run artifactId written,
    executeObjectWriteAction env artifactRoot run action.args artifactId = .ok written →
      sanitizeRelativePath scope = .ok written.artifact.path.toList
  sends : executor = .messageSend → ∀ env config run lastText fileId artifactId written,
    executeMessageSendAction env config run lastText action.args fileId artifactId = .ok written →
      ∃ parsed content delivery,
        ParsedMessageDestination.parse "message.send" scope = .ok parsed ∧
          env.deliver parsed.provider parsed.target content = .ok delivery
  receives : executor = .messageReceive → ∀ env config run fileId artifactId written,
    executeMessageReceiveAction env config run action.args fileId artifactId = .ok written →
      ∃ parsed content, ParsedMessageDestination.parse "message.receive" scope = .ok parsed ∧
        written.content = env.toPretty (.obj [("direction", .str "inbound"),
          ("provider", .str parsed.provider.asStr), ("source", .str scope),
          ("target", .str parsed.target), ("text", .str content)])
  pays : executor = .paymentSend → ∀ p, parsePaymentArgs action.args = .ok p →
    p.destination = scope ∧ ParsedPaymentDestination.parse scope = .ok p.parsedDestination

section Normalised

variable {action : SkillAction} {scope : String}

theorem canonicalArgs (fields : List (String × Json)) :
    CanonicalArgs fields (.obj (normalFields fields)) where
  aliases := fun family hfamily name hname => alias_fields hfamily hname
  given := by
    intro family hfamily value hvalue
    rw [canonical_fields hfamily, familyValue, familyNames, List.findSome?_cons, hvalue]
    rfl
  firstAlias := by
    intro family hfamily hnone
    rw [canonical_fields hfamily, familyValue, familyNames, List.findSome?_cons, hnone]
  others := fun name hname => other_fields hname

/-- The argument is read under the name of the scope. -/
theorem actsOn_of_argument {executor : Executor}
    (hdispatched : executorOf action.actionType = .ok executor)
    (hargument : executor.argument? action.args = some scope) : ActsOn action executor scope where
  dispatched := hdispatched
  argument := hargument
  writes := by
    rintro rfl env artifactRoot run artifactId written h
    exact objectWrite_at hargument h
  sends := by
    rintro rfl env config run lastText fileId artifactId written h
    exact messageSend_to hargument h
  receives := by
    rintro rfl env config run fileId artifactId written h
    exact messageReceive_from hargument h
  pays := by
    rintro rfl p h
    exact payment_to hargument h

theorem argument_of_policyScope {rt : WorkerRuntime} {config : WorkerConfig}
    (hscoped : (normalizeSkillAction action).actionType ∈ scopedTypes)
    (h : policyScope rt config (normalizeSkillAction action) = .ok scope) :
    ∃ executor, executorOf (normalizeSkillAction action).actionType = .ok executor ∧
      executor.argument? (normalizeSkillAction action).args = some scope := by
  rw [policyScope] at h
  simp only [scopedTypes, List.mem_cons, List.not_mem_nil, or_false] at hscoped
  rcases hscoped with htype | htype | htype | htype
  · rw [htype] at h ⊢
    exact ⟨.objectWrite, rfl, arg_of_requiredTrimmedArg (by simp [argFamilies]) h⟩
  · rw [htype] at h ⊢
    exact ⟨.messageSend, rfl, arg_of_requiredTrimmedArg (by simp [argFamilies]) h⟩
  · rw [htype] at h ⊢
    exact ⟨.messageReceive, rfl, arg_of_requiredTrimmedArg (by simp [argFamilies]) h⟩
  · rw [htype] at h ⊢
    exact ⟨.paymentSend, rfl, arg_of_requiredTrimmedArg (by simp [argFamilies]) h⟩

theorem memory_scope {rt : WorkerRuntime} {config : WorkerConfig}
    (hmemory : (normalizeSkillAction action).actionType ∈ memoryTypes)
    (h : policyScope rt config (normalizeSkillAction action) = .ok scope) :
    stringArg (normalizeSkillAction action).args "scope" = some scope ∧
      executorOf (normalizeSkillAction action).actionType =
        .error ("unsupported action type: " ++ (normalizeSkillAction action).actionType) := by
  rw [policyScope] at h
  simp only [memoryTypes, List.mem_cons, List.not_mem_nil, or_false] at hmemory
  rcases hmemory with htype | htype
  · rw [htype] at h ⊢
    exact ⟨arg_of_requiredTrimmedArg (by simp [argFamilies]) h, rfl⟩
  · rw [htype] at h ⊢
    exact ⟨arg_of_requiredTrimmedArg (by simp [argFamilies]) h, rfl⟩

end Normalised

/-- What normalisation does to the arguments, and what the decision takes from them. -/
structure Normalises (rt : WorkerRuntime) (config : WorkerConfig) (action : SkillAction) :
    Prop where
  once : normalizeSkillAction (normalizeSkillAction action) = normalizeSkillAction action
  canonical : ∀ fields, action.args = .obj fields →
    CanonicalArgs fields (normalizeSkillAction action).args
  sameScope : ∀ request, toPolicyRequest rt config (normalizeSkillAction action) = .ok request →
    (normalizeSkillAction action).actionType ∈ scopedTypes →
      ∃ executor, ActsOn (normalizeSkillAction action) executor request.scope
  memory : ∀ request, toPolicyRequest rt config (normalizeSkillAction action) = .ok request →
    (normalizeSkillAction action).actionType ∈ memoryTypes →
      stringArg (normalizeSkillAction action).args "scope" = some request.scope ∧
        executorOf (normalizeSkillAction action).actionType =
          .error ("unsupported action type: " ++ (normalizeSkillAction action).actionType)

theorem normalizes (rt : WorkerRuntime) (config : WorkerConfig) (action : SkillAction) :
    Normalises rt config action where
  once := normalizeSkillAction_twice action
  canonical := by
    intro fields hfields
    show CanonicalArgs fields (normalizeArgs action.args)
    rw [hfields, normalizeArgs_obj]
    exact canonicalArgs fields
  sameScope := by
    intro request hrequest hscoped
    obtain ⟨-, hscope⟩ := toPolicyRequest_eq_ok hrequest
    obtain ⟨executor, hdispatched, hargument⟩ := argument_of_policyScope hscoped hscope
    exact ⟨executor, actsOn_of_argument hdispatched hargument⟩
  memory := by
    intro request hrequest hmemory
    exact memory_scope hmemory (toPolicyRequest_eq_ok hrequest).2

/-- A memory action is decided on, and then no executor takes its scope. -/
theorem memory_read_unsupported :
    ¬ ∀ (rt : WorkerRuntime) (config : WorkerConfig) (action : SkillAction) request,
      toPolicyRequest rt config (normalizeSkillAction action) = .ok request →
      (normalizeSkillAction action).actionType ∈ scopedTypes ++ memoryTypes →
        ∃ executor, executorOf (normalizeSkillAction action).actionType = .ok executor ∧
          executor.argument? (normalizeSkillAction action).args = some request.scope := by
  intro h
  have haction := h sampleWorkerRuntime shownotesConfig
    { actionId := "a1", actionType := "memory.read", args := .obj [("scope", .str "memory:notes")],
      justification := "recall" }
    ⟨"memory.read", "memory:notes", sampleWorkerRuntime.serializedLen
      (.obj [("scope", .str "memory:notes")])⟩ (by decide +kernel) (by decide +kernel)
  obtain ⟨executor, hdispatched, -⟩ := haction
  have hunsupported : executorOf (normalizedActionType "memory.read") =
      .error "unsupported action type: memory.read" := by decide +kernel
  cases hunsupported.symm.trans hdispatched

end Worker
end SecureAgnt

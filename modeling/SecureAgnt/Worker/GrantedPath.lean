/-
The path a policy decision is about and the path that is written.

The decision reads the trimmed text of `args.path`; the write goes to the cleaned path.
The two are one text exactly when no segment is dropped.
-/
import SecureAgnt.Worker.ArtifactPaths
import SecureAgnt.Worker.LlmAction
import SecureAgnt.Worker.Normalised

namespace SecureAgnt
namespace Worker

open Policy (CapabilityGrant CapabilityKind GrantSet isActionAllowed)

/-! ## The path of a normalised action -/

section NormalisedPath

variable {action : SkillAction}

theorem toPolicyRequest_objectWrite {rt : WorkerRuntime} {config : WorkerConfig}
    {request : Policy.ActionRequest} (htype : action.actionType = "object.write")
    (h : toPolicyRequest rt config action = .ok request) :
    request.actionType = "object.write" ∧
      ∃ raw, (action.args.get? "path").bind Json.asStr? = some raw ∧
        request.scope = Text.trim raw := by
  obtain ⟨hsame, hscope⟩ := toPolicyRequest_eq_ok h
  have hpath : policyScope rt config action =
      requiredTrimmedArg action "path" "object.write args.path" := by
    rw [policyScope, htype]
    rfl
  exact ⟨hsame.trans htype, requiredTrimmedArg_eq_ok (hpath ▸ hscope)⟩

end NormalisedPath

/-! ## The written path -/

section WrittenPath

variable {rt : WorkerRuntime} {workerConfig : WorkerConfig} {env : ArtifactEnv}
  {artifactRoot : PathBuf} {run : RunLeaseRecord} {action : SkillAction}
  {request : Policy.ActionRequest} {artifactId : Uuid} {written : Written} {path : String}

theorem executeObjectWriteAction_eq_ok {args : Json}
    (h : executeObjectWriteAction env artifactRoot run args artifactId = .ok written)
    (hpath : (args.get? "path").bind Json.asStr? = some path) :
    ∃ cleaned tenantRoot, sanitizeRelativePath path = .ok cleaned ∧
      tenantScopedArtifactRoot artifactRoot run.tenantId = .ok tenantRoot ∧
      written.artifact.path = String.ofList cleaned ∧
      written.file = Path.push tenantRoot cleaned := by
  unfold executeObjectWriteAction at h
  rw [hpath] at h
  dsimp only at h
  split at h
  · cases h
  split at h
  · cases h
  rename_i cleaned hclean
  obtain ⟨tenantRoot, hroot, hfile, _, hartifact⟩ := writeArtifact_eq_ok h
  exact ⟨cleaned, tenantRoot, hclean, hroot, hartifact, hfile⟩

/-- The grant of everything whose path starts with the text asked for. -/
def textGrants (scope : String) : GrantSet :=
  ⟨[{ kind := .objectWrite, scope := scope ++ "*" }]⟩

theorem textGrants_allow (request : Policy.ActionRequest)
    (htype : request.actionType = "object.write") (scope : String) :
    isActionAllowed (textGrants scope) request = .allow ↔
      scope.toList <+: request.scope.toList := by
  have hstem : Text.stripSuffixChar (scope ++ "*") '*' = some scope := by
    rw [Text.stripSuffixChar_eq_some, String.toList_append]
    rfl
  rw [Policy.isActionAllowed_eq_allow, ← Text.startsWith_iff]
  simp [textGrants, Policy.Covers, Policy.scopeMatches, hstem, Policy.withinLimit, htype,
    CapabilityKind.fromActionType]

/-- Whatever grants allow a request allow it with another scope. -/
def StaysAllowed (request : Policy.ActionRequest) (scope : String) : Prop :=
  ∀ grants : GrantSet, isActionAllowed grants request = .allow →
    isActionAllowed grants { request with scope := scope } = .allow

theorem staysAllowed_iff (htype : request.actionType = "object.write") {cleaned : PathBuf}
    (hclean : sanitizeRelativePath request.scope = .ok cleaned) :
    StaysAllowed request (String.ofList cleaned) ↔
      ∀ part ∈ Path.segments request.scope.toList, part ≠ [] ∧ part ≠ ['.'] := by
  have hcleaned := (sanitizeRelativePath_eq_ok.mp hclean).2.2.2
  have hfront := Path.prefix_join_kept_iff (sanitizeRelativePath_eq_ok.mp hclean).2.2.1
  rw [← hcleaned] at hfront
  rw [← hfront]
  constructor
  · intro h
    have hallow := h (textGrants request.scope)
      ((textGrants_allow request htype request.scope).mpr List.prefix_rfl)
    have hstarts := (textGrants_allow { request with scope := String.ofList cleaned } htype
      request.scope).mp hallow
    rwa [String.toList_ofList] at hstarts
  · intro h grants hallow
    have heq : request.scope.toList = cleaned := by
      have hle := Path.length_join_kept_le (sanitizeRelativePath_eq_ok.mp hclean).2.2.1
      rw [← hcleaned] at hle
      exact h.eq_of_length_le hle
    rw [← heq, String.ofList_toList]
    exact hallow

/-- Whatever object.write executes, the grants that allowed it cover the path that is
written exactly when no segment of the path asked for is empty or a dot; that path is
relative, clean and without `..` in any case. -/
theorem written_path_allowed_iff
    (htype : (normalizeSkillAction action).actionType = "object.write")
    (hpath : ((normalizeSkillAction action).args.get? "path").bind Json.asStr? = some path)
    (hrequest : toPolicyRequest rt workerConfig (normalizeSkillAction action) = .ok request)
    (hexec : executeObjectWriteAction env artifactRoot run (normalizeSkillAction action).args
      artifactId = .ok written) :
    (StaysAllowed request written.artifact.path ↔
      ∀ part ∈ Path.segments path.toList, part ≠ [] ∧ part ≠ ['.']) ∧
    (∃ tenantRoot, tenantScopedArtifactRoot artifactRoot run.tenantId = .ok tenantRoot ∧
      written.file = Path.push tenantRoot written.artifact.path.toList) ∧
    .parentDir ∉ Path.components written.artifact.path.toList ∧
    Path.isAbsolute written.artifact.path.toList = false ∧
    sanitizeRelativePath written.artifact.path = .ok written.artifact.path.toList := by
  obtain ⟨cleaned, tenantRoot, hclean, hroot, hartifact, hfile⟩ :=
    executeObjectWriteAction_eq_ok hexec hpath
  obtain ⟨hrequestType, raw, hraw, hscope⟩ := toPolicyRequest_objectWrite htype hrequest
  rw [hpath, Option.some.injEq] at hraw
  have hscopePath : request.scope = path := by
    rw [hscope, ← hraw, trim_normalised_arg (by simp [argFamilies]) hpath]
  rw [← hscopePath] at hclean
  have hallowed := staysAllowed_iff hrequestType hclean
  rw [hscopePath] at hallowed
  rw [hartifact, String.toList_ofList]
  exact ⟨hallowed, ⟨tenantRoot, hroot, hfile⟩, parentDir_notMem_sanitized hclean,
    isAbsolute_sanitized hclean, sanitizeRelativePath_sanitized hclean⟩

/-- An action that writes a note under a path. -/
def shownotesAction (path : String) : SkillAction where
  actionId := "action-1"
  actionType := "object.write"
  args := .obj [("path", .str path), ("content", .str "notes")]
  justification := "keep the notes"

def shownotesConfig : WorkerConfig := { workerId := "worker-1", llm := Llm.sampleConfig }

def shownotesRequest (path : String) : Policy.ActionRequest := ⟨"object.write", path, 15⟩

def shownotesWritten (path : String) : Written where
  file := ("artifacts/tenants/acme/" ++ path).toList
  content := "notes"
  artifact :=
    { id := Uuid.repeated 0
      runId := "run"
      path := path
      contentType := "text/markdown"
      sizeBytes := 5
      checksum := none
      storageRef := "artifacts/tenants/acme/" ++ path }

theorem note_path_allowed :
    StaysAllowed (shownotesRequest "shownotes/today.md") "shownotes/today.md" := by
  have hstays := @written_path_allowed_iff sampleWorkerRuntime shownotesConfig willingEnv
    "artifacts".toList (tenantRun "acme") (shownotesAction "shownotes/today.md")
    (shownotesRequest "shownotes/today.md") (Uuid.repeated 0)
    (shownotesWritten "shownotes/today.md") "shownotes/today.md" rfl rfl rfl rfl
  exact hstays.1.mpr (by decide)

/-- A grant of what is below a directory does not cover the directory's own name, which
is what the path of the directory is cleaned to. -/
theorem directory_path_not_allowed :
    ¬ ∀ (grants : GrantSet) (rt : WorkerRuntime) (workerConfig : WorkerConfig) (env : ArtifactEnv)
        (artifactRoot : PathBuf) (run : RunLeaseRecord) (action : SkillAction)
        (request : Policy.ActionRequest) (artifactId : Uuid) (written : Written),
      (normalizeSkillAction action).actionType = "object.write" →
      toPolicyRequest rt workerConfig (normalizeSkillAction action) = .ok request →
      isActionAllowed grants request = .allow →
      executeObjectWriteAction env artifactRoot run (normalizeSkillAction action).args
        artifactId = .ok written →
      isActionAllowed grants { request with scope := written.artifact.path } = .allow := by
  intro h
  have hallow := h ⟨[{ kind := .objectWrite, scope := "shownotes/*" }]⟩ sampleWorkerRuntime
    shownotesConfig willingEnv "artifacts".toList (tenantRun "acme") (shownotesAction "shownotes/")
    (shownotesRequest "shownotes/") (Uuid.repeated 0) (shownotesWritten "shownotes") rfl rfl
    (by decide) rfl
  exact absurd hallow (by decide)

end WrittenPath

end Worker
end SecureAgnt

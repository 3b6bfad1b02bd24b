/-
The bootstrap of an agent: the query of its status and the owner's completion.

A completion appends a line to a session file, and the query reads that file through the
loader of the agent's snapshot.
-/
import SecureAgnt.Api.Context
import SecureAgnt.Lib.JsonText

namespace SecureAgnt
namespace Api

def bootstrapNames : Names := ["BOOTSTRAP.md".toList]

def statusName : List Char := "bootstrap.status.jsonl".toList

def statusNames : Names := [sessionsDir, statusName]

def bootstrapStatusFilePath : String := "sessions/bootstrap.status.jsonl"

/-- Library functions. -/
structure BootstrapRuntime where
  /-- `serde_json::from_str`. -/
  fromStr : String → Except String Json
  floatText : FloatText
  formatRfc3339 : Int → Except String String
  parseRfc3339 : String → Except String Int
  /-- `Uuid::parse_str`. -/
  parseUuid : String → Option Uuid

/-- What was written is read back. -/
structure BootstrapRuntime.Lawful (rt : BootstrapRuntime) : Prop where
  fromStr_write : ∀ v, Json.IsValue v →
    rt.fromStr (String.ofList (Json.write rt.floatText v)) = .ok v
  parse_format : ∀ t text, rt.formatRfc3339 t = .ok text → rt.parseRfc3339 text = .ok t
  parseUuid_text : ∀ u, rt.parseUuid u.text = some u

/-! ## The status file -/

structure BootstrapCompletionRecord where
  completedAt : Int
  completedByUserId : Uuid
  completionNote : Option String
  updatedFiles : List String
  deriving DecidableEq

def decodeCompletedAt (rt : BootstrapRuntime) (value : Json) : ApiResult Int :=
  match (value.get? "completed_at").bind Json.asStr? with
  | none => .error (.internal "bootstrap completion status is missing completed_at timestamp")
  | some raw =>
    match rt.parseRfc3339 raw with
    | .error err =>
      .error (.internal ("invalid bootstrap completion timestamp `" ++ raw ++ "`: " ++ err))
    | .ok completedAt => .ok completedAt

def decodeCompletedByUserId (rt : BootstrapRuntime) (value : Json) : ApiResult Uuid :=
  match (value.get? "completed_by_user_id").bind Json.asStr? with
  | none => .error (.internal "bootstrap completion status is missing completed_by_user_id")
  | some raw =>
    match rt.parseUuid raw with
    | none => .error (.internal ("invalid bootstrap completion user id `" ++ raw ++ "`"))
    | some id => .ok id

/-- A line of the status file; only a `completed` one is a record. -/
def decodeStatusLine (rt : BootstrapRuntime) (line : List Char) :
    ApiResult (Option BootstrapCompletionRecord) :=
  let trimmed := Text.trim (String.ofList line)
  if Text.isEmpty trimmed then .ok none
  else
    match rt.fromStr trimmed with
    | .error err => .error (.internal ("failed decoding bootstrap status line in " ++
        bootstrapStatusFilePath ++ ": " ++ err))
    | .ok value =>
      if (value.get? "status").bind Json.asStr? ≠ some "completed" then .ok none
      else
        match decodeCompletedAt rt value, decodeCompletedByUserId rt value with
        | .error e, _ => .error e
        | .ok _, .error e => .error e
        | .ok completedAt, .ok completedByUserId => .ok (some
          { completedAt := completedAt
            completedByUserId := completedByUserId
            completionNote := (value.get? "completion_note").bind Json.asStr?
            updatedFiles := (((value.get? "updated_files").bind Json.asArray?).map fun items =>
              items.filterMap Json.asStr?).getD [] })

/-- The loop over the lines, which keeps the last record. -/
def latestRecord (rt : BootstrapRuntime) (latest : Option BootstrapCompletionRecord) :
    List (List Char) → ApiResult (Option BootstrapCompletionRecord)
  | [] => .ok latest
  | line :: rest =>
    match decodeStatusLine rt line with
    | .error e => .error e
    | .ok none => latestRecord rt latest rest
    | .ok (some record) => latestRecord rt (some record) rest

def isStatusFile (file : AgentContextFile) : Bool :=
  Text.eqIgnoreAsciiCase file.relativePath bootstrapStatusFilePath

def findLatestBootstrapCompletion (rt : BootstrapRuntime) (sessionFiles : List AgentContextFile) :
    ApiResult (Option BootstrapCompletionRecord) :=
  match sessionFiles.find? isStatusFile with
  | none => .ok none
  | some file => latestRecord rt none (Lines.lines file.content.toList)

/-! ## The query -/

structure AgentBootstrapInspectResponse where
  tenantId : String
  agentId : Uuid
  enabled : Bool
  status : String
  sourceDir : String := ""
  bootstrapPresent : Bool := false
  bootstrapPath : Option String := none
  bootstrapBytes : Option Nat := none
  bootstrapMarkdown : Option String := none
  completedAt : Option Int := none
  completedByUserId : Option Uuid := none
  completionNote : Option String := none
  updatedFiles : List String := []

def loadSnapshot (env : ContextEnv) (site : Option SourceDir) : ApiResult AgentContextSnapshot :=
  (loadAgentContextSnapshot env.loader site).mapError (mapAgentContextLoadError env)

def Contents.text? : Contents → Option String
  | .text s => some s
  | .binary _ => none

/-- The response about a snapshot and the latest completion. -/
def inspectResponse (env : ContextEnv) (tenantId : String) (snapshot : AgentContextSnapshot)
    (completion : Option BootstrapCompletionRecord) : AgentBootstrapInspectResponse :=
  let contents := snapshot.sourceDir.contents? bootstrapNames
  let markdown := contents.bind Contents.text?
  { tenantId := tenantId
    agentId := env.agentId
    enabled := true
    status :=
      if completion.isSome then "completed"
      else if markdown.isSome then "pending"
      else "not_configured"
    sourceDir := snapshot.sourceDir.path
    bootstrapPresent := markdown.isSome
    bootstrapPath := markdown.map fun _ => snapshot.sourceDir.display bootstrapNames
    bootstrapBytes := contents.map Contents.size
    bootstrapMarkdown := markdown
    completedAt := completion.map (·.completedAt)
    completedByUserId := completion.map (·.completedByUserId)
    completionNote := completion.bind (·.completionNote)
    updatedFiles := (completion.map (·.updatedFiles)).getD [] }

theorem inspectResponse_completed_iff {env : ContextEnv} {tenantId : String}
    {snapshot : AgentContextSnapshot} {completion : Option BootstrapCompletionRecord} :
    (inspectResponse env tenantId snapshot completion).status = "completed" ↔
      completion.isSome = true := by
  cases completion with
  | some record => exact iff_of_true rfl rfl
  | none =>
    refine iff_of_false ?_ Bool.false_ne_true
    show ¬ (if _ then "pending" else "not_configured") = "completed"
    split
    · decide
    · decide

def getAgentBootstrap (env : ContextEnv) (rt : BootstrapRuntime) (site : Option SourceDir)
    (headers : HeaderMap) : ApiResult AgentBootstrapInspectResponse := do
  let tenantId ← tenantFromHeaders headers
  let role ← roleFromHeaders env.state headers
  ensureUsageQueryRole role
  if !env.state.agentBootstrapEnabled then
    .ok { tenantId := tenantId, agentId := env.agentId, enabled := false, status := "disabled" }
  else
    let snapshot ← loadSnapshot env site
    let completion ← findLatestBootstrapCompletion rt snapshot.sessionFiles
    .ok (inspectResponse env tenantId snapshot completion)

/-! ## The completion -/

structure CompleteBootstrapRequest where
  identityMarkdown : Option String := none
  soulMarkdown : Option String := none
  userMarkdown : Option String := none
  heartbeatMarkdown : Option String := none
  completionNote : Option String := none
  force : Bool := false

structure BootstrapFileWrite where
  relativePath : String
  bytes : Nat
  deriving DecidableEq

structure AgentBootstrapCompleteResponse where
  tenantId : String
  agentId : Uuid
  status : String
  sourceDir : String
  completedAt : Int
  completedByUserId : Uuid
  completionNote : Option String
  force : Bool
  updatedFiles : List BootstrapFileWrite
  statusRecordRelativePath : String

def normalizeOptionalText (value : Option String) : Option String :=
  (value.map Text.trim).filter fun candidate => !Text.isEmpty candidate

/-- A completion that passed the checks. -/
structure AdmittedCompletion where
  tenantId : String
  actorUserId : Uuid
  sourceDir : SourceDir

def admitCompletion (env : ContextEnv) (rt : BootstrapRuntime) (site : Option SourceDir)
    (headers : HeaderMap) (req : CompleteBootstrapRequest) : ApiResult AdmittedCompletion := do
  if !env.state.agentBootstrapEnabled then
    .error (.forbidden "agent bootstrap is disabled by API_AGENT_BOOTSTRAP_ENABLED")
  let tenantId ← tenantFromHeaders headers
  let role ← roleFromHeaders env.state headers
  ensureOwnerRole role "only owner role can complete agent bootstrap workflow"
  match ← readUserId rt.parseUuid env.state headers with
  | none => .error (.forbidden "bootstrap completion requires x-user-id for attribution")
  | some actorUserId =>
    let snapshot ← loadSnapshot env site
    if !snapshot.sourceDir.isFile bootstrapNames then
      .error (.conflict "BOOTSTRAP.md is missing; add the file before completing bootstrap")
    let existingCompletion ← findLatestBootstrapCompletion rt snapshot.sessionFiles
    if existingCompletion.isSome && !req.force then
      .error (.conflict ("bootstrap is already completed; pass force=true to record a new " ++
        "completion event"))
    .ok ⟨tenantId, actorUserId, snapshot.sourceDir⟩

def CompleteBootstrapRequest.updates (req : CompleteBootstrapRequest) : List (String × String) :=
  [("IDENTITY.md", req.identityMarkdown), ("SOUL.md", req.soulMarkdown),
    ("USER.md", req.userMarkdown), ("HEARTBEAT.md", req.heartbeatMarkdown)].filterMap
      fun update => (normalizeOptionalText update.2).map fun content => (update.1, content)

/-- The profile files one after the other; those before a failure stay written. -/
def writeUpdates (env : ContextEnv) (dir : SourceDir) :
    List (String × String) → ApiResult (List BootstrapFileWrite) × SourceDir
  | [] => (.ok [], dir)
  | (relativePath, content) :: rest =>
    if env.loader.maxFileBytes < Text.len content then
      (.error (.badRequest (relativePath ++ " exceeds max file size (" ++
        toString env.loader.maxFileBytes ++ " bytes)")), dir)
    else
      match dir.write [relativePath.toList] content with
      | .error failure => (.error (.internal ("failed writing bootstrap target " ++
          dir.display [relativePath.toList] ++ ": " ++ env.ioText failure)), dir)
      | .ok dir' =>
        let (written, last) := writeUpdates env dir' rest
        (written.map (⟨relativePath, Text.len content⟩ :: ·), last)

/-- `json!`, whose keys are in order. -/
def statusRecord (completedAt : String) (actorUserId : Uuid) (note : Option String)
    (updatedFiles : List String) : Json :=
  .obj [("completed_at", .str completedAt), ("completed_by_user_id", .str actorUserId.text),
    ("completion_note", (note.map Json.str).getD .null), ("schema_version", .str "v1"),
    ("status", .str "completed"), ("updated_files", .arr (updatedFiles.map Json.str))]

def appendContextJsonlLine (env : ContextEnv) (dir : SourceDir) (names : Names)
    (line : List Char) : ApiResult Unit × SourceDir :=
  match createContextDirectory env dir names with
  | .error e => (.error e, dir)
  | .ok dir =>
    let payload := String.ofList (Lines.close line)
    if env.loader.maxFileBytes < env.metadataLen dir names + Text.len payload then
      (.error (.badRequest (names.text ++ " exceeds max file size (" ++
        toString env.loader.maxFileBytes ++ " bytes)")), dir)
    else
      match writeMutation env dir names payload .append with
      | .error e => (.error e, dir)
      | .ok dir' => (.ok (), dir')

/-- What follows the checks: the profile files, then the line of the status file. -/
def recordCompletion (env : ContextEnv) (rt : BootstrapRuntime) (a : AdmittedCompletion)
    (now : Int) (req : CompleteBootstrapRequest) :
    ApiResult AgentBootstrapCompleteResponse × SourceDir :=
  match writeUpdates env a.sourceDir req.updates with
  | (.error e, dir) => (.error e, dir)
  | (.ok written, dir) =>
    let note := normalizeOptionalText req.completionNote
    match rt.formatRfc3339 now with
    | .error err =>
      (.error (.internal ("failed formatting bootstrap completion timestamp: " ++ err)), dir)
    | .ok completedAt =>
      let record := statusRecord completedAt a.actorUserId note (written.map (·.relativePath))
      match appendContextJsonlLine env dir statusNames (Json.write rt.floatText record) with
      | (.error e, dir) => (.error e, dir)
      | (.ok (), dir) => (.ok
        { tenantId := a.tenantId
          agentId := env.agentId
          status := "completed"
          sourceDir := a.sourceDir.path
          completedAt := now
          completedByUserId := a.actorUserId
          completionNote := note
          force := req.force
          updatedFiles := written
          statusRecordRelativePath := bootstrapStatusFilePath }, dir)

def completeAgentBootstrap (env : ContextEnv) (rt : BootstrapRuntime) (site : Option SourceDir)
    (headers : HeaderMap) (now : Int) (req : CompleteBootstrapRequest) :
    ApiResult AgentBootstrapCompleteResponse × Option SourceDir :=
  match admitCompletion env rt site headers req with
  | .error e => (.error e, site)
  | .ok a =>
    let (result, dir) := recordCompletion env rt a now req
    (result, some dir)

/-! ## Reading the status file -/

section Status

variable {rt : BootstrapRuntime} {latest : Option BootstrapCompletionRecord}

theorem latestRecord_append (xs ys : List (List Char)) :
    latestRecord rt latest (xs ++ ys) =
      match latestRecord rt latest xs with
      | .error e => .error e
      | .ok latest' => latestRecord rt latest' ys := by
  induction xs generalizing latest with
  | nil => rfl
  | cons line xs ih =>
    rw [List.cons_append, latestRecord, latestRecord]
    cases decodeStatusLine rt line with
    | error e => rfl
    | ok record =>
      cases record with
      | none => exact ih
      | some record => exact ih

/-- Lines without a record leave the latest one. -/
theorem latestRecord_of_none {lines : List (List Char)}
    (h : ∀ line ∈ lines, decodeStatusLine rt line = .ok none) :
    latestRecord rt latest lines = .ok latest := by
  induction lines with
  | nil => rfl
  | cons line lines ih =>
    rw [latestRecord, h line List.mem_cons_self]
    exact ih fun line' hline' => h line' (List.mem_cons_of_mem _ hline')

theorem isValue_statusRecord (completedAt : String) (id : Uuid) (note : Option String)
    (files : List String) : Json.IsValue (statusRecord completedAt id note files) := by
  refine .obj ?_ ?_
  · show ["completed_at", "completed_by_user_id", "completion_note", "schema_version", "status",
      "updated_files"].Nodup
    decide
  intro field hfield
  simp only [List.mem_cons, List.not_mem_nil, or_false] at hfield
  rcases hfield with rfl | rfl | rfl | rfl | rfl | rfl
  · exact .str _
  · exact .str _
  · cases note with
    | none => exact .null
    | some note => exact .str _
  · exact .str _
  · exact .str _
  · refine .arr ?_
    intro v hv
    obtain ⟨file, _, rfl⟩ := List.mem_map.mp hv
    exact .str _

/-- The line that a completion appends. -/
def statusLine (rt : BootstrapRuntime) (completedAt : String) (id : Uuid) (note : Option String)
    (files : List String) : List Char :=
  Json.write rt.floatText (statusRecord completedAt id note files)

theorem getLast?_statusLine (rt : BootstrapRuntime) (completedAt : String) (id : Uuid)
    (note : Option String) (files : List String) :
    (statusLine rt completedAt id note files).getLast? = some '\x7d' := by
  rw [statusLine, statusRecord, Json.write, List.getLast?_cons, Json.getLast?_writeFields]
  rfl

theorem lines_close_statusLine (rt : BootstrapRuntime) (completedAt : String) (id : Uuid)
    (note : Option String) (files : List String) :
    Lines.lines (Lines.close (statusLine rt completedAt id note files)) =
      [statusLine rt completedAt id note files] := by
  have hlast := getLast?_statusLine rt completedAt id note files
  have hnewline : '\n' ∉ statusLine rt completedAt id note files :=
    Json.newline_notMem_write (isValue_statusRecord completedAt id note files)
  have hopen : (statusLine rt completedAt id note files).getLast? ≠ some '\n' := by
    rw [hlast]
    decide
  rw [Lines.close, if_neg hopen]
  refine Lines.lines_line hnewline ?_
  rw [hlast]
  decide

theorem trim_statusLine (completedAt : String) (id : Uuid) (note : Option String)
    (files : List String) : Text.trim (String.ofList (statusLine rt completedAt id note files)) =
      String.ofList (statusLine rt completedAt id note files) := by
  have hhead : (String.ofList (statusLine rt completedAt id note files)).toList.head? =
      some '\x7b' := by
    rw [String.toList_ofList]
    rfl
  have hlast : (String.ofList (statusLine rt completedAt id note files)).toList.getLast? =
      some '\x7d' := by
    rw [String.toList_ofList]
    exact getLast?_statusLine rt completedAt id note files
  exact Text.trim_eq_self hhead hlast (by decide) (by decide)

/-- What a completion appends is read as its record. -/
theorem decode_statusLine (laws : rt.Lawful) {now : Int} {completedAt : String}
    (hformat : rt.formatRfc3339 now = .ok completedAt) (id : Uuid) (note : Option String)
    (files : List String) : decodeStatusLine rt (statusLine rt completedAt id note files) =
      .ok (some ⟨now, id, note, files⟩) := by
  have hfrom : rt.fromStr (String.ofList (statusLine rt completedAt id note files)) =
      .ok (statusRecord completedAt id note files) :=
    laws.fromStr_write _ (isValue_statusRecord completedAt id note files)
  have hempty :
      Text.isEmpty (String.ofList (statusLine rt completedAt id note files)) = false := by
    rw [Text.isEmpty, String.toList_ofList]
    rfl
  have hfiles : (files.map Json.str).filterMap Json.asStr? = files := by
    rw [List.filterMap_map]
    exact List.filterMap_some
  have hnote : ((note.map Json.str).getD .null).asStr? = note := by
    cases note with
    | none => rfl
    | some note => rfl
  unfold decodeStatusLine
  simp only [trim_statusLine, hempty, Bool.false_eq_true, if_false, hfrom]
  simp [decodeCompletedAt, decodeCompletedByUserId, statusRecord, Json.asStr?, Json.asArray?,
    laws.parse_format _ _ hformat, laws.parseUuid_text, hfiles]
  exact hnote

end Status

/-! ## What a completion writes -/

section Complete

variable {env : ContextEnv} {rt : BootstrapRuntime} {names : Names}

/-- The record that a response is about. -/
def AgentBootstrapCompleteResponse.record (response : AgentBootstrapCompleteResponse) :
    BootstrapCompletionRecord where
  completedAt := response.completedAt
  completedByUserId := response.completedByUserId
  completionNote := response.completionNote
  updatedFiles := response.updatedFiles.map (·.relativePath)

theorem contents?_writeUpdates (dir : SourceDir) (updates : List (String × String))
    (h : names.length ≠ 1) :
    (writeUpdates env dir updates).2.contents? names = dir.contents? names := by
  induction updates generalizing dir with
  | nil => rfl
  | cons update rest ih =>
    unfold writeUpdates
    simp only
    split
    · rfl
    · split
      · rfl
      · rename_i dir' hwrite
        have hne : names ≠ [update.1.toList] := by
          intro heq
          rw [heq] at h
          exact h rfl
        exact (ih dir').trans ((wrote_write hwrite).elsewhere names hne)

theorem appendContextJsonlLine_spec (env : ContextEnv) (dir : SourceDir) (names : Names)
    (line : List Char) :
    ((∃ e, (appendContextJsonlLine env dir names line).1 = .error e) ∧
      ∀ names', (appendContextJsonlLine env dir names line).2.contents? names' =
        dir.contents? names') ∨
    ((appendContextJsonlLine env dir names line).1 = .ok () ∧
      Wrote dir names (dir.appended names (String.ofList (Lines.close line)))
        (appendContextJsonlLine env dir names line).2 ∧
      (dir.appended names (String.ofList (Lines.close line))).size ≤ env.loader.maxFileBytes) := by
  unfold appendContextJsonlLine
  cases hcreate : createContextDirectory env dir names with
  | error e => exact .inl ⟨⟨e, rfl⟩, fun _ => rfl⟩
  | ok made =>
    have hsame := contents?_createContextDirectory hcreate
    simp only
    split
    · exact .inl ⟨⟨_, rfl⟩, hsame⟩
    · rename_i hlen
      split
      · exact .inl ⟨⟨_, rfl⟩, hsame⟩
      · rename_i dir' hwrite
        obtain ⟨hwrote, hsize⟩ := wrote_writeMutation_append hwrite
        rw [appended_congr hsame] at hwrote hsize
        refine .inr ⟨rfl, hwrote.of_same hsame, ?_⟩
        rw [hsize]
        omega

/-- A completion that fails changes profile files at most. -/
structure CompletionFailed (dir dir' : SourceDir)
    (result : ApiResult AgentBootstrapCompleteResponse) : Prop where
  failed : ∃ e, result = .error e
  same : ∀ names, names.length ≠ 1 → dir'.contents? names = dir.contents? names

/-- A completion that succeeds also appends its line. -/
structure CompletionRecorded (env : ContextEnv) (rt : BootstrapRuntime) (dir dir' : SourceDir)
    (response : AgentBootstrapCompleteResponse) : Prop where
  appended : ∃ completedAt, rt.formatRfc3339 response.completedAt = .ok completedAt ∧
    dir'.contents? statusNames = some (dir.appended statusNames (String.ofList (Lines.close
      (statusLine rt completedAt response.completedByUserId response.completionNote
        (response.updatedFiles.map (·.relativePath))))))
  fits : ∀ contents, dir'.contents? statusNames = some contents →
    contents.size ≤ env.loader.maxFileBytes
  same : ∀ names, names.length ≠ 1 → names ≠ statusNames →
    dir'.contents? names = dir.contents? names

theorem recordCompletion_spec (env : ContextEnv) (rt : BootstrapRuntime) (a : AdmittedCompletion)
    (now : Int) (req : CompleteBootstrapRequest) :
    CompletionFailed a.sourceDir (recordCompletion env rt a now req).2
        (recordCompletion env rt a now req).1 ∨
      ∃ response, (recordCompletion env rt a now req).1 = .ok response ∧
        CompletionRecorded env rt a.sourceDir (recordCompletion env rt a now req).2 response := by
  have hupdates : ∀ names, names.length ≠ 1 →
      (writeUpdates env a.sourceDir req.updates).2.contents? names =
        a.sourceDir.contents? names :=
    fun names h => contents?_writeUpdates a.sourceDir req.updates h
  unfold recordCompletion
  split
  · rename_i e dir hwritten
    rw [hwritten] at hupdates
    exact .inl ⟨⟨e, rfl⟩, hupdates⟩
  · rename_i written dir hwritten
    rw [hwritten] at hupdates
    simp only
    cases hformat : rt.formatRfc3339 now with
    | error err => exact .inl ⟨⟨_, rfl⟩, hupdates⟩
    | ok completedAt =>
      have hline := appendContextJsonlLine_spec env dir statusNames
        (statusLine rt completedAt a.actorUserId (normalizeOptionalText req.completionNote)
          (written.map (·.relativePath)))
      unfold statusLine at hline
      generalize happend : appendContextJsonlLine env dir statusNames (Json.write rt.floatText
        (statusRecord completedAt a.actorUserId (normalizeOptionalText req.completionNote)
          (written.map (·.relativePath)))) = outcome at hline
      obtain ⟨result, dir'⟩ := outcome
      simp only [happend]
      rcases hline with ⟨⟨e, hfailed⟩, hsame⟩ | ⟨hok, hwrote, hsize⟩
      · cases hfailed
        exact .inl ⟨⟨e, rfl⟩, fun names h => (hsame names).trans (hupdates names h)⟩
      · cases hok
        have hstatus := hupdates statusNames (by decide)
        refine .inr ⟨_, rfl, ⟨completedAt, hformat, ?_⟩, ?_, ?_⟩
        · rw [hwrote.there, SourceDir.appended, SourceDir.appended, hstatus]
          rfl
        · intro contents hcontents
          rw [hwrote.there] at hcontents
          cases hcontents
          exact hsize
        · intro names hlength hne
          exact (hwrote.elsewhere names hne).trans (hupdates names hlength)

end Complete

end Api
end SecureAgnt

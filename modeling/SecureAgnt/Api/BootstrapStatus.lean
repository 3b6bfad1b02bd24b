/-
Runs of mutations and completions, and what the bootstrap query says after them.

The query reads a session file that mutations may write as well, through a loader that
may leave files out.  The theorem this file exists for is `status_holds`: where no
mutation writes a record and the loader has room for the file, the query reports exactly
the completions that succeeded.

The requests of a run are those that lead to one directory.
-/
import SecureAgnt.Api.Bootstrap

namespace SecureAgnt
namespace Api

inductive ContextRequest where
  | mutate (headers : HeaderMap) (req : MutateAgentContextRequest)
  | complete (headers : HeaderMap) (now : Int) (req : CompleteBootstrapRequest)

inductive ContextAnswer where
  | mutated (result : ApiResult AgentContextMutationResponse)
  | completed (result : ApiResult AgentBootstrapCompleteResponse)

def handleContext (env : ContextEnv) (rt : BootstrapRuntime) (site : Option SourceDir) :
    ContextRequest → ContextAnswer × Option SourceDir
  | .mutate headers req =>
    let (result, site') := mutateAgentContext env site headers req
    (.mutated result, site')
  | .complete headers now req =>
    let (result, site') := completeAgentBootstrap env rt site headers now req
    (.completed result, site')

/-- The directory after a run, and what its requests were answered. -/
structure ContextRun where
  site : Option SourceDir
  answers : List ContextAnswer

def ContextRun.step (env : ContextEnv) (rt : BootstrapRuntime) (run : ContextRun)
    (req : ContextRequest) : ContextRun :=
  let (answer, site) := handleContext env rt run.site req
  ⟨site, run.answers ++ [answer]⟩

def runRequests (env : ContextEnv) (rt : BootstrapRuntime) (site : Option SourceDir)
    (requests : List ContextRequest) : ContextRun :=
  requests.foldl (ContextRun.step env rt) ⟨site, []⟩

def ContextAnswer.completion? : ContextAnswer → Option AgentBootstrapCompleteResponse
  | .completed (.ok response) => some response
  | _ => none

/-- The latest completion that succeeded. -/
def latestCompletion (answers : List ContextAnswer) : Option AgentBootstrapCompleteResponse :=
  (answers.filterMap ContextAnswer.completion?).getLast?

/-- The query reports the latest completion that succeeded, and no other follows it
without force. -/
structure StatusHolds (env : ContextEnv) (rt : BootstrapRuntime) (run : ContextRun) : Prop where
  reported : ∀ headers tenantId role, tenantFromHeaders headers = .ok tenantId →
    roleFromHeaders env.state headers = .ok role → role ≠ .viewer → run.site ≠ none →
    ∃ response, getAgentBootstrap env rt run.site headers = .ok response ∧
      (response.status = "completed" ↔ (latestCompletion run.answers).isSome = true) ∧
      response.completedByUserId = (latestCompletion run.answers).map (·.completedByUserId)
  once : (latestCompletion run.answers).isSome = true → ∀ headers now req, req.force = false →
    ∃ e, (completeAgentBootstrap env rt run.site headers now req).1 = .error e

/-! ## Where it holds -/

/-- The status file's name in any case. -/
def IsStatusName (name : List Char) : Prop := name.map Text.asciiLower = statusName

/-- The directory is as it was before the first completion. -/
def NoStatusFile (site : Option SourceDir) : Prop :=
  ∀ dir, site = some dir → ∀ name, IsStatusName name → dir.isFile [sessionsDir, name] = false

/-- A mutation of the status file, or of one that differs from it in case only, appends
lines that are blank or JSON of another status. -/
def AppendsNoRecord (rt : BootstrapRuntime) : ContextRequest → Prop
  | .mutate _ req => ∀ name, IsStatusName name →
      normalizeContextMutationPath req.relativePath = .ok [sessionsDir, name] →
      ∀ line ∈ Lines.lines (Lines.close req.content.toList), decodeStatusLine rt line = .ok none
  | .complete .. => True

/-- The session files that are loaded before the status file. -/
def sessionsAhead (dir : SourceDir) : List (List Char) :=
  (dynamicNames dir sessionsDir "jsonl").takeWhile fun name => name ≠ statusName

/-- The bytes that are loaded before the status file. -/
def bytesAhead (config : AgentContextLoaderConfig) (dir : SourceDir) : Nat :=
  (loadContextFiles config dir (loadBeforeSessions config dir).2.2
    ((sessionsAhead dir).map (dynamicEntry sessionsDir "session"))).2.loadedBytes

/-- A status file with a completion is within the loader's limits. -/
def HasRoom (config : AgentContextLoaderConfig) (rt : BootstrapRuntime)
    (site : Option SourceDir) : Prop :=
  ∀ dir text record, site = some dir → dir.contents? statusNames = some (.text text) →
    latestRecord rt none (Lines.lines text.toList) = .ok (some record) →
    (sessionsAhead dir).length < config.maxDynamicFilesPerDir ∧
      bytesAhead config dir + Text.len text ≤ config.maxTotalBytes

/-! ## The log that a directory keeps -/

/-- The status file holds the latest record, and files of the same name in another case
hold none. -/
structure StatusLog (env : ContextEnv) (rt : BootstrapRuntime) (dir : SourceDir)
    (latest : Option BootstrapCompletionRecord) : Prop where
  read : ∀ name contents, IsStatusName name →
    dir.contents? [sessionsDir, name] = some contents → ∃ text, contents = .text text ∧
      Lines.Closed text.toList ∧ latestRecord rt none (Lines.lines text.toList) =
        .ok (if name = statusName then latest else none)
  fits : ∀ contents, dir.contents? statusNames = some contents →
    contents.size ≤ env.loader.maxFileBytes
  kept : latest ≠ none → dir.contents? statusNames ≠ none

/-- What is kept along a run. -/
structure RunLogged (env : ContextEnv) (rt : BootstrapRuntime) (run : ContextRun) : Prop where
  absent : run.site = none → latestCompletion run.answers = none
  log : ∀ dir, run.site = some dir → StatusLog env rt dir
    ((latestCompletion run.answers).map AgentBootstrapCompleteResponse.record)
  enabled : latestCompletion run.answers ≠ none → env.state.agentBootstrapEnabled = true

section Names

theorem isStatusName_statusName : IsStatusName statusName := by
  unfold IsStatusName
  decide

theorem le_asciiLower (c : Char) : c ≤ Text.asciiLower c := by
  have hupper : ∀ n, n < 91 → 65 ≤ n → Char.ofNat n ≤ Char.ofNat (n + 32) := by decide
  unfold Text.asciiLower
  split
  · rename_i h
    simp only [Bool.and_eq_true, decide_eq_true_eq] at h
    have hle := hupper c.toNat (by omega) h.1
    rw [Char.ofNat_toNat] at hle
    exact hle
  · exact le_refl c

theorem le_map_asciiLower (name : List Char) : name ≤ name.map Text.asciiLower := by
  induction name with
  | nil => exact le_refl _
  | cons c rest ih =>
    rw [List.map_cons]
    rcases (le_asciiLower c).lt_or_eq with hlt | heq
    · exact le_of_lt (List.Lex.rel hlt)
    · rw [← heq]
      exact List.cons_le_cons c ih

/-- The status file is the greatest of the files of its name. -/
theorem IsStatusName.le {name : List Char} (h : IsStatusName name) : name ≤ statusName :=
  h ▸ le_map_asciiLower name

theorem toList_sessionText (name : List Char) :
    (Names.text [sessionsDir, name]).toList = "sessions/".toList ++ name := by
  have hdir : "sessions/".toList = sessionsDir ++ ['/'] := by decide
  rw [Names.text, String.toList_ofList, hdir]
  simp [Path.join, List.intercalate]

theorem isStatusFile_iff {file : AgentContextFile} {name : List Char}
    (h : file.relativePath = Names.text [sessionsDir, name]) :
    isStatusFile file = true ↔ IsStatusName name := by
  have hdir : "sessions/".toList.map Text.asciiLower = "sessions/".toList := by decide
  have hpath : bootstrapStatusFilePath.toList.map Text.asciiLower =
      "sessions/".toList ++ statusName := by decide
  unfold isStatusFile Text.eqIgnoreAsciiCase Text.toAsciiLowercase
  rw [beq_iff_eq, String.ofList_inj, h, toList_sessionText, hpath, List.map_append, hdir,
    List.append_cancel_left_eq]
  rfl

end Names

/-! ## What the query finds -/

section Query

variable {env : ContextEnv} {rt : BootstrapRuntime} {dir : SourceDir}
  {latest : Option BootstrapCompletionRecord} {snapshot : AgentContextSnapshot}

theorem split_at_mem {names : List (List Char)} {name : List Char} (h : name ∈ names) :
    ∃ more, names = names.takeWhile (fun name' => name' ≠ name) ++ name :: more := by
  induction names with
  | nil => cases h
  | cons first rest ih =>
    by_cases heq : first = name
    · exact ⟨rest, by simp [heq]⟩
    · obtain ⟨more, hmore⟩ := ih (List.mem_of_ne_of_mem (Ne.symm heq) h)
      refine ⟨more, ?_⟩
      rw [List.takeWhile_cons_of_pos (by simpa using heq), List.cons_append, ← hmore]

theorem sessionNames_split (hmem : statusName ∈ dynamicNames dir sessionsDir "jsonl") :
    ∃ more, dynamicNames dir sessionsDir "jsonl" = sessionsAhead dir ++ statusName :: more :=
  split_at_mem hmem

/-- Files that come before the status file have none of its names. -/
theorem not_isStatusName_of_ahead {name : List Char} (h : name ∈ sessionsAhead dir)
    (hmem : statusName ∈ dynamicNames dir sessionsDir "jsonl") : ¬ IsStatusName name := by
  intro hname
  have hne : name ≠ statusName := by simpa using List.mem_takeWhile_imp h
  obtain ⟨more, hsplit⟩ := sessionNames_split hmem
  have hsorted := @dynamicNames_pairwise dir sessionsDir "jsonl"
  rw [hsplit] at hsorted
  have hge := (List.pairwise_append.mp hsorted).2.2 name h statusName List.mem_cons_self
  exact hne (le_antisymm hname.le hge)

/-- The status file is found where the loader has room for it. -/
theorem find?_of_room {text : String} (hfits : Text.len text ≤ env.loader.maxFileBytes)
    (hcontents : dir.contents? statusNames = some (.text text))
    (hahead : (sessionsAhead dir).length < env.loader.maxDynamicFilesPerDir)
    (hbytes : bytesAhead env.loader dir + Text.len text ≤ env.loader.maxTotalBytes) :
    ∃ file, (loadDynamicContextFiles env.loader dir sessionsDir "jsonl" "session"
      (loadBeforeSessions env.loader dir).2.2).1.find? isStatusFile = some file ∧
      file.content = text := by
  have hmem : statusName ∈ dynamicNames dir sessionsDir "jsonl" :=
    mem_dynamicNames hcontents (by decide)
  obtain ⟨more, hsplit⟩ := sessionNames_split hmem
  obtain ⟨kept, hkept⟩ : ∃ kept, (dynamicNames dir sessionsDir "jsonl").take
      env.loader.maxDynamicFilesPerDir = sessionsAhead dir ++ statusName :: kept := by
    obtain ⟨room, hroom⟩ : ∃ room, env.loader.maxDynamicFilesPerDir -
        (sessionsAhead dir).length = room + 1 := ⟨_, (Nat.sub_add_cancel (by omega)).symm⟩
    refine ⟨more.take room, ?_⟩
    rw [hsplit, List.take_append, List.take_of_length_le hahead.le, hroom, List.take_succ_cons]
  have hfirst : ∀ file, some file ∈ (loadContextFiles env.loader dir
      (loadBeforeSessions env.loader dir).2.2
      ((sessionsAhead dir).map (dynamicEntry sessionsDir "session"))).1 →
      isStatusFile file = false := by
    intro file hfile
    obtain ⟨entry, hentry, hpath, _⟩ := mem_loadContextFiles hfile
    obtain ⟨name, hname, rfl⟩ := List.mem_map.mp hentry
    rw [← Bool.not_eq_true, isStatusFile_iff hpath]
    exact not_isStatusName_of_ahead hname hmem
  have hnone : ((loadContextFiles env.loader dir (loadBeforeSessions env.loader dir).2.2
      ((sessionsAhead dir).map (dynamicEntry sessionsDir "session"))).1.filterMap id).find?
        isStatusFile = none := by
    rw [List.find?_eq_none]
    intro file hfile
    obtain ⟨file?, hmem, hsome⟩ := List.mem_filterMap.mp hfile
    rw [id_eq] at hsome
    rw [hsome] at hmem
    rw [hfirst file hmem]
    exact Bool.false_ne_true
  refine ⟨⟨(dynamicEntry sessionsDir "session" statusName).2.1, Names.text statusNames,
    Text.len text, text⟩, ?_, rfl⟩
  unfold loadDynamicContextFiles
  simp only
  rw [hkept, List.map_append, loadContextFiles_append, List.filterMap_append, List.find?_append,
    hnone, Option.none_or, List.map_cons]
  show List.find? isStatusFile (List.filterMap id ((loadContextFile env.loader dir statusNames _ _
    _).1 :: _)) = _
  rw [loadContextFile_of_room hcontents hfits hbytes]
  show List.find? isStatusFile (_ :: List.filterMap id _) = _
  rw [List.find?_cons_of_pos]
  · rfl
  · exact (isStatusFile_iff rfl).mpr isStatusName_statusName

theorem sessionFiles_of_load (h : loadAgentContextSnapshot env.loader (some dir) = .ok snapshot) :
    snapshot.sourceDir = dir ∧ snapshot.sessionFiles =
      (loadDynamicContextFiles env.loader dir sessionsDir "jsonl" "session"
        (loadBeforeSessions env.loader dir).2.2).1 := by
  unfold loadAgentContextSnapshot at h
  split at h
  · cases h
  · cases h
    exact ⟨rfl, rfl⟩

/-- What the query reads is the log. -/
theorem findLatest_eq (hlog : StatusLog env rt dir latest)
    (hroom : HasRoom env.loader rt (some dir))
    (hload : loadAgentContextSnapshot env.loader (some dir) = .ok snapshot) :
    findLatestBootstrapCompletion rt snapshot.sessionFiles = .ok latest := by
  obtain ⟨_, hfiles⟩ := sessionFiles_of_load hload
  unfold findLatestBootstrapCompletion
  rw [hfiles]
  cases latest with
  | none =>
    split
    · rfl
    · rename_i file hfound
      obtain ⟨name, hpath, hcontents⟩ :=
        mem_loadDynamicContextFiles (List.mem_of_find?_eq_some hfound)
      have hname := (isStatusFile_iff hpath).mp (List.find?_some hfound)
      obtain ⟨text, htext, _, hread⟩ := hlog.read name _ hname hcontents
      cases htext
      rw [hread, ite_self]
  | some record =>
    obtain ⟨contents, hcontents⟩ := Option.ne_none_iff_exists'.mp (hlog.kept (by simp))
    obtain ⟨text, rfl, _, hread⟩ := hlog.read statusName _ isStatusName_statusName hcontents
    rw [if_pos rfl] at hread
    obtain ⟨hahead, hbytes⟩ := hroom dir text record rfl hcontents hread
    obtain ⟨file, hfound, hcontent⟩ := find?_of_room (hlog.fits _ hcontents) hcontents hahead hbytes
    rw [hfound]
    simp only [hcontent, hread]

end Query

/-! ## What a request leaves of the log -/

section Step

variable {env : ContextEnv} {rt : BootstrapRuntime} {dir dir' : SourceDir}
  {latest : Option BootstrapCompletionRecord} {payload : String}

theorem StatusLog.of_same (hlog : StatusLog env rt dir latest)
    (h : ∀ name, IsStatusName name →
      dir'.contents? [sessionsDir, name] = dir.contents? [sessionsDir, name]) :
    StatusLog env rt dir' latest where
  read name contents hname hcontents := hlog.read name contents hname (h name hname ▸ hcontents)
  fits contents hcontents := hlog.fits contents (h statusName isStatusName_statusName ▸ hcontents)
  kept hlatest := by
    show dir'.contents? [sessionsDir, statusName] ≠ none
    rw [h statusName isStatusName_statusName]
    exact hlog.kept hlatest

/-- A closed text that is appended is read after what was there. -/
theorem StatusLog.read_appended (hlog : StatusLog env rt dir latest) {name : List Char}
    (hname : IsStatusName name) (hclosed : Lines.Closed payload.toList) :
    ∃ text, dir.appended [sessionsDir, name] payload = .text text ∧ Lines.Closed text.toList ∧
      latestRecord rt none (Lines.lines text.toList) =
        latestRecord rt (if name = statusName then latest else none)
          (Lines.lines payload.toList) := by
  unfold SourceDir.appended
  cases hcontents : dir.contents? [sessionsDir, name] with
  | none =>
    have hlatest : (if name = statusName then latest else none) = none := by
      split
      · rename_i heq
        by_contra hne
        rw [heq] at hcontents
        exact hlog.kept hne hcontents
      · rfl
    exact ⟨payload, rfl, hclosed, by rw [hlatest]⟩
  | some contents =>
    obtain ⟨text, rfl, htext, hread⟩ := hlog.read name contents hname hcontents
    refine ⟨text ++ payload, rfl, ?_, ?_⟩
    · rw [String.toList_append]
      exact Lines.closed_append hclosed htext
    · rw [String.toList_append, Lines.lines_append htext, latestRecord_append, hread]

/-- A file of the status file's name is written, and what it then holds is read. -/
theorem StatusLog.of_wrote (hlog : StatusLog env rt dir latest) {name : List Char} {text : String}
    {latest' : Option BootstrapCompletionRecord}
    (there : dir'.contents? [sessionsDir, name] = some (.text text))
    (elsewhere : ∀ name', IsStatusName name' → name' ≠ name →
      dir'.contents? [sessionsDir, name'] = dir.contents? [sessionsDir, name'])
    (hclosed : Lines.Closed text.toList) (hsize : Text.len text ≤ env.loader.maxFileBytes)
    (hread : latestRecord rt none (Lines.lines text.toList) =
      .ok (if name = statusName then latest' else none))
    (hlatest : name ≠ statusName → latest' = latest) : StatusLog env rt dir' latest' where
  read name' contents hname' hcontents := by
    by_cases heq : name' = name
    · rw [heq, there] at hcontents
      cases hcontents
      exact ⟨text, rfl, hclosed, heq ▸ hread⟩
    · rw [elsewhere name' hname' heq] at hcontents
      obtain ⟨text', htext', hclosed', hread'⟩ := hlog.read name' contents hname' hcontents
      refine ⟨text', htext', hclosed', hread'.trans ?_⟩
      by_cases hstatus : name' = statusName
      · rw [if_pos hstatus, if_pos hstatus, hlatest fun hname => heq (hstatus.trans hname.symm)]
      · rw [if_neg hstatus, if_neg hstatus]
  fits contents hcontents := by
    by_cases heq : statusName = name
    · rw [statusNames, heq, there] at hcontents
      cases hcontents
      exact hsize
    · have hsame := elsewhere statusName isStatusName_statusName heq
      exact hlog.fits contents (hsame ▸ hcontents)
  kept hne := by
    by_cases heq : statusName = name
    · rw [statusNames, heq, there]
      simp
    · show dir'.contents? [sessionsDir, statusName] ≠ none
      rw [elsewhere statusName isStatusName_statusName heq]
      rw [hlatest fun hname => heq hname.symm] at hne
      exact hlog.kept hne

theorem append_of_sessions {mode : ContextMutationMode} {names : Names}
    {mutability : AgentContextMutability}
    (h : validateContextMutationMode mode names.text mutability = .ok ())
    (hsessions : Text.startsWith names.text "sessions/" = true) : mode = .append := by
  unfold validateContextMutationMode at h
  rw [hsessions] at h
  cases mode with
  | append => rfl
  | replace =>
    simp only [Bool.true_and] at h
    split at h
    · cases h
    split at h
    · cases h
    split at h
    · cases h
    · cases h

theorem startsWith_sessions (name : List Char) :
    Text.startsWith (Names.text [sessionsDir, name]) "sessions/" = true := by
  rw [Text.startsWith_iff, toList_sessionText]
  exact List.prefix_append _ _

theorem StatusLog.mutate (hlog : StatusLog env rt dir latest) {headers : HeaderMap}
    {req : MutateAgentContextRequest} {m : ContextMutation}
    (hcheck : checkMutation env headers req = .ok m)
    (hrecord : AppendsNoRecord rt (.mutate headers req)) :
    StatusLog env rt (applyMutation env dir m req.content).2 latest := by
  obtain ⟨_, hpath, _, hmode⟩ := checkMutation_spec hcheck
  rcases applyMutation_spec env dir m req.content with hsame | ⟨contents, hwrote, happend⟩
  · exact hlog.of_same fun name _ => hsame _
  by_cases hstatus : ∃ name, IsStatusName name ∧ m.names = [sessionsDir, name]
  · obtain ⟨name, hname, hnames⟩ := hstatus
    rw [hnames] at hpath hmode hwrote happend
    have happended := append_of_sessions hmode (startsWith_sessions name)
    obtain ⟨hcontents, hsize⟩ := happend happended
    have hpayload : mutationPayload m.mode [sessionsDir, name] req.content =
        String.ofList (Lines.close req.content.toList) := by
      rw [mutationPayload, if_pos ⟨happended, startsWith_sessions name⟩]
    have hlines : Lines.Closed
        (mutationPayload m.mode [sessionsDir, name] req.content).toList := by
      rw [hpayload, String.toList_ofList]
      exact Lines.closed_close _
    obtain ⟨text, htext, hclosed, hread⟩ := hlog.read_appended hname hlines
    rw [hpayload, String.toList_ofList, latestRecord_of_none (hrecord name hname hpath)] at hread
    rw [hcontents, htext] at hsize
    have hthere := hwrote.there
    rw [hcontents, htext] at hthere
    refine hlog.of_wrote hthere ?_ hclosed hsize hread fun _ => rfl
    intro name' _ hne
    refine hwrote.elsewhere _ fun heq => hne ?_
    exact (List.cons.inj (List.cons.inj heq).2).1
  · refine hlog.of_same fun name hname => hwrote.elsewhere _ fun heq => ?_
    exact hstatus ⟨name, hname, heq.symm⟩

theorem StatusLog.failed {result : ApiResult AgentBootstrapCompleteResponse}
    (hlog : StatusLog env rt dir latest) (h : CompletionFailed dir dir' result) :
    StatusLog env rt dir' latest :=
  hlog.of_same fun name _ => h.same [sessionsDir, name] (by simp)

/-- A completion that succeeds is the latest one of the log. -/
theorem StatusLog.recorded {response : AgentBootstrapCompleteResponse} (laws : rt.Lawful)
    (hlog : StatusLog env rt dir latest) (h : CompletionRecorded env rt dir dir' response) :
    StatusLog env rt dir' (some response.record) := by
  obtain ⟨completedAt, hformat, hthere⟩ := h.appended
  have hlines := lines_close_statusLine rt completedAt response.completedByUserId
    response.completionNote (response.updatedFiles.map (·.relativePath))
  have hdecode := decode_statusLine laws hformat response.completedByUserId
    response.completionNote (response.updatedFiles.map (·.relativePath))
  generalize statusLine rt completedAt response.completedByUserId response.completionNote
    (response.updatedFiles.map (·.relativePath)) = line at hthere hlines hdecode
  have hclosed : Lines.Closed (String.ofList (Lines.close line)).toList := by
    rw [String.toList_ofList]
    exact Lines.closed_close _
  obtain ⟨text, htext, htextClosed, hread⟩ :=
    hlog.read_appended isStatusName_statusName hclosed
  have hthere' : dir'.contents? [sessionsDir, statusName] = some (.text text) :=
    hthere.trans (congrArg some htext)
  refine hlog.of_wrote hthere' ?_ htextClosed (h.fits _ hthere') ?_ fun hne => absurd rfl hne
  · intro name' _ hne
    refine h.same _ (by simp) fun heq => hne ?_
    exact (List.cons.inj (List.cons.inj heq).2).1
  · rw [hread, String.toList_ofList, hlines, latestRecord, hdecode, if_pos rfl]
    rfl

/-- What an admitted completion has seen. -/
structure CompletionAdmitted (env : ContextEnv) (rt : BootstrapRuntime) (site : Option SourceDir)
    (req : CompleteBootstrapRequest) (a : AdmittedCompletion) : Prop where
  enabled : env.state.agentBootstrapEnabled = true
  there : site = some a.sourceDir
  seen : ∃ snapshot existing, loadAgentContextSnapshot env.loader site = .ok snapshot ∧
    findLatestBootstrapCompletion rt snapshot.sessionFiles = .ok existing ∧
    (existing.isSome && !req.force) = false

theorem loadSnapshot_eq_ok {site : Option SourceDir} {snapshot : AgentContextSnapshot}
    (h : loadSnapshot env site = .ok snapshot) :
    loadAgentContextSnapshot env.loader site = .ok snapshot ∧
      site = some snapshot.sourceDir := by
  unfold loadSnapshot at h
  cases hload : loadAgentContextSnapshot env.loader site with
  | error e =>
    rw [hload] at h
    cases h
  | ok loaded =>
    rw [hload] at h
    cases h
    refine ⟨rfl, ?_⟩
    cases site with
    | none =>
      unfold loadAgentContextSnapshot at hload
      split at hload
      · cases hload
      · cases hload
    | some dir => rw [(sessionFiles_of_load hload).1]

theorem admitCompletion_spec {site : Option SourceDir} {headers : HeaderMap}
    {req : CompleteBootstrapRequest} {a : AdmittedCompletion}
    (h : admitCompletion env rt site headers req = .ok a) :
    CompletionAdmitted env rt site req a := by
  unfold admitCompletion at h
  simp only [bind, Except.bind] at h
  split at h
  · cases h
  rename_i henabled
  split at h
  · cases h
  split at h
  · cases h
  split at h
  · cases h
  split at h
  · cases h
  split at h
  · cases h
  split at h
  · cases h
  rename_i snapshot hload
  split at h
  · cases h
  split at h
  · cases h
  rename_i existing hfind
  split at h
  · cases h
  rename_i hforce
  cases h
  obtain ⟨hsnapshot, hsite⟩ := loadSnapshot_eq_ok hload
  refine ⟨?_, hsite, snapshot, existing, hsnapshot, hfind, ?_⟩
  · simpa using henabled
  · simpa using hforce

end Step

/-! ## Along a run -/

section Run

variable {env : ContextEnv} {rt : BootstrapRuntime} {run : ContextRun} {site : Option SourceDir}

theorem latestCompletion_concat (answers : List ContextAnswer) (answer : ContextAnswer) :
    latestCompletion (answers ++ [answer]) =
      answer.completion?.or (latestCompletion answers) := by
  unfold latestCompletion
  rw [List.filterMap_append, List.getLast?_append]
  cases hanswer : answer.completion? <;> simp [hanswer]

theorem runRequests_concat (requests : List ContextRequest) (req : ContextRequest) :
    runRequests env rt site (requests ++ [req]) =
      (runRequests env rt site requests).step env rt req :=
  List.foldl_concat ..

theorem runLogged_start (h : NoStatusFile site) : RunLogged env rt ⟨site, []⟩ where
  absent _ := rfl
  log dir hsite :=
    { read := by
        intro name contents hname hcontents
        rw [contents?_of_not_isFile (h dir hsite name hname)] at hcontents
        cases hcontents
      fits := by
        intro contents hcontents
        have hnone := contents?_of_not_isFile (h dir hsite statusName isStatusName_statusName)
        rw [statusNames, hnone] at hcontents
        cases hcontents
      kept := fun hne => absurd rfl hne }
  enabled hne := absurd rfl hne

theorem statusLog_empty (path : String) : StatusLog env rt ⟨path, ∅⟩ none where
  read _ _ _ hcontents := by cases hcontents
  fits _ hcontents := by cases hcontents
  kept hne := absurd rfl hne

theorem RunLogged.at_dir {dir : SourceDir} (hsite : run.site = some dir)
    (hlog : StatusLog env rt dir
      ((latestCompletion run.answers).map AgentBootstrapCompleteResponse.record))
    (henabled : latestCompletion run.answers ≠ none → env.state.agentBootstrapEnabled = true) :
    RunLogged env rt run where
  absent hnone := by
    rw [hsite] at hnone
    cases hnone
  log dir' hdir' := by
    rw [hsite] at hdir'
    cases hdir'
    exact hlog
  enabled := henabled

theorem RunLogged.of_same {run' : ContextRun} (hlog : RunLogged env rt run)
    (hlatest : latestCompletion run'.answers = latestCompletion run.answers)
    (hsite : run'.site = run.site) : RunLogged env rt run' where
  absent := by
    rw [hlatest, hsite]
    exact hlog.absent
  log := by
    rw [hlatest, hsite]
    exact hlog.log
  enabled := by
    rw [hlatest]
    exact hlog.enabled

theorem RunLogged.mutate (hlog : RunLogged env rt run) {headers : HeaderMap}
    {req : MutateAgentContextRequest} (hrecord : AppendsNoRecord rt (.mutate headers req)) :
    RunLogged env rt (run.step env rt (.mutate headers req)) := by
  have hlatest : latestCompletion (run.step env rt (.mutate headers req)).answers =
      latestCompletion run.answers := latestCompletion_concat _ _
  have hsite : (run.step env rt (.mutate headers req)).site =
      (mutateAgentContext env run.site headers req).2 := rfl
  rw [mutateAgentContext] at hsite
  split at hsite
  · exact hlog.of_same hlatest hsite
  · rename_i m hcheck
    have hbefore : StatusLog env rt (run.site.getD ⟨env.newSourceDir, ∅⟩)
        ((latestCompletion run.answers).map AgentBootstrapCompleteResponse.record) := by
      cases hthere : run.site with
      | none =>
        rw [hlog.absent hthere]
        exact statusLog_empty _
      | some dir => exact hlog.log dir hthere
    refine .at_dir hsite ?_ ?_
    · rw [hlatest]
      exact hbefore.mutate hcheck hrecord
    · rw [hlatest]
      exact hlog.enabled

theorem RunLogged.complete (laws : rt.Lawful) (hlog : RunLogged env rt run) (headers : HeaderMap)
    (now : Int) (req : CompleteBootstrapRequest) :
    RunLogged env rt (run.step env rt (.complete headers now req)) := by
  have hlatest : latestCompletion (run.step env rt (.complete headers now req)).answers =
      (ContextAnswer.completed
        (completeAgentBootstrap env rt run.site headers now req).1).completion?.or
          (latestCompletion run.answers) := latestCompletion_concat _ _
  have hsite : (run.step env rt (.complete headers now req)).site =
      (completeAgentBootstrap env rt run.site headers now req).2 := rfl
  unfold completeAgentBootstrap at hlatest hsite
  cases hadmitting : admitCompletion env rt run.site headers req with
  | error e =>
    rw [hadmitting] at hlatest hsite
    exact hlog.of_same hlatest hsite
  | ok a =>
    rw [hadmitting] at hlatest hsite
    have hadmitted := admitCompletion_spec hadmitting
    have hdir := hlog.log _ hadmitted.there
    have hspec := recordCompletion_spec env rt a now req
    simp only at hlatest hsite
    generalize recordCompletion env rt a now req = outcome at hlatest hsite hspec
    obtain ⟨result, dir'⟩ := outcome
    refine .at_dir hsite ?_ fun _ => hadmitted.enabled
    rcases hspec with hfailed | ⟨response, hok, hrecorded⟩
    · obtain ⟨e, he⟩ := hfailed.failed
      cases he
      rw [hlatest]
      exact hdir.failed hfailed
    · cases hok
      rw [hlatest]
      exact hdir.recorded laws hrecorded

theorem runLogged (laws : rt.Lawful) (hstart : NoStatusFile site) {requests : List ContextRequest}
    (h : ∀ req ∈ requests, AppendsNoRecord rt req) :
    RunLogged env rt (runRequests env rt site requests) := by
  induction requests using List.reverseRecOn with
  | nil => exact runLogged_start hstart
  | append_singleton requests req ih =>
    have hbefore := ih fun req' hreq' => h req' (List.mem_append_left _ hreq')
    have hreq := h req (List.mem_append_right _ List.mem_cons_self)
    rw [runRequests_concat]
    cases req with
    | mutate headers req => exact hbefore.mutate hreq
    | complete headers now req => exact hbefore.complete laws headers now req

/-- A run whose log is kept is reported, where the loader has room for it. -/
theorem RunLogged.statusHolds (hlog : RunLogged env rt run)
    (hconfig : validateLoaderConfig env.loader = .ok ())
    (hroom : HasRoom env.loader rt run.site) : StatusHolds env rt run := by
  constructor
  · intro headers tenantId role htenant hrole hviewer hsite
    have hquery : ensureUsageQueryRole role = .ok () := if_neg hviewer
    unfold getAgentBootstrap
    simp only [bind, Except.bind, htenant, hrole, hquery]
    cases henabled : env.state.agentBootstrapEnabled with
    | false =>
      have hnone : latestCompletion run.answers = none := by
        by_contra hne
        rw [hlog.enabled hne] at henabled
        cases henabled
      rw [hnone]
      exact ⟨_, rfl, by simp, rfl⟩
    | true =>
      obtain ⟨dir, hdir⟩ := Option.ne_none_iff_exists'.mp hsite
      rw [hdir] at hroom ⊢
      obtain ⟨snapshot, hload⟩ : ∃ snapshot,
          loadAgentContextSnapshot env.loader (some dir) = .ok snapshot := by
        unfold loadAgentContextSnapshot
        rw [hconfig]
        exact ⟨_, rfl⟩
      have hfind := findLatest_eq (hlog.log dir hdir) hroom hload
      have hsnapshot : loadSnapshot env (some dir) = .ok snapshot := by
        rw [loadSnapshot, hload]
        rfl
      simp only [hsnapshot, hfind]
      refine ⟨_, rfl, ?_, ?_⟩
      · rw [inspectResponse_completed_iff, Option.isSome_map]
      · show Option.map _ (Option.map _ _) = _
        rw [Option.map_map]
        rfl
  · intro hsome headers now req hforce
    unfold completeAgentBootstrap
    cases hadmitting : admitCompletion env rt run.site headers req with
    | error e => exact ⟨e, rfl⟩
    | ok a =>
      have hadmitted := admitCompletion_spec hadmitting
      obtain ⟨snapshot, existing, hload, hfind, hnone⟩ := hadmitted.seen
      rw [hadmitted.there] at hload hroom
      rw [findLatest_eq (hlog.log _ hadmitted.there) hroom hload] at hfind
      cases hfind
      rw [hforce, Option.isSome_map, hsome] at hnone
      cases hnone

end Run

/-- After every run from a directory without a status file, in which no mutation appends a
record, the status holds where the loader has room for the status file. -/
theorem status_holds (env : ContextEnv) (rt : BootstrapRuntime) (laws : rt.Lawful)
    (hconfig : validateLoaderConfig env.loader = .ok ()) (site : Option SourceDir)
    (hstart : NoStatusFile site) (requests : List ContextRequest)
    (hrecords : ∀ req ∈ requests, AppendsNoRecord rt req)
    (hroom : HasRoom env.loader rt (runRequests env rt site requests).site) :
    StatusHolds env rt (runRequests env rt site requests) :=
  (runLogged laws hstart hrecords).statusHolds hconfig hroom

/-! ## A line that is no JSON -/

def soloEnv : ContextEnv where
  state := { agentContextMutationEnabled := true }
  loader := ⟨[], 64 * 1024, 256 * 1024, 8⟩
  agentId := .repeated 10
  newSourceDir := "single/a"
  searchedPaths := ["single/a", "a"]
  dirLen := 4096
  ioText _ := "os error"

/-- A directory with `BOOTSTRAP.md` and nothing else. -/
def soloDir : SourceDir := SourceDir.put ⟨"single/a", ∅⟩ bootstrapNames (.file (.text "#"))

/-- The library at the start of 1970 and at a text that is no JSON. -/
def soloRuntime : BootstrapRuntime where
  fromStr _ := .error "expected ident at line 1 column 2"
  floatText := bitText
  formatRfc3339 t := if t = 0 then .ok "1970-01-01T00:00:00Z" else .error "out of range"
  parseRfc3339 text := if text = "1970-01-01T00:00:00Z" then .ok 0 else .error "not a time"
  parseUuid := Uuid.parseHyphenated

def operatorHeaders : HeaderMap :=
  [("x-tenant-id", ⟨some "single"⟩), ("x-user-role", ⟨some "operator"⟩)]

def appendNoJson : ContextRequest :=
  .mutate operatorHeaders ⟨"sessions/bootstrap.status.jsonl", "not json", "append"⟩

/-- An operator appends a line to the status file, and every query fails. -/
theorem status_fails_after_append : ¬ StatusHolds soloEnv soloRuntime
    (runRequests soloEnv soloRuntime (some soloDir) [appendNoJson]) := by
  intro h
  have hfails : (getAgentBootstrap soloEnv soloRuntime
      (runRequests soloEnv soloRuntime (some soloDir) [appendNoJson]).site
      operatorHeaders).toBool = false := by decide +kernel
  obtain ⟨response, hresponse, _⟩ := h.reported operatorHeaders "single" .operator rfl rfl
    (by decide) (by decide +kernel)
  rw [hresponse] at hfails
  cases hfails

/-! ## One completion -/

open Classical in
/-- The inverse of the serializer. -/
noncomputable def readBack (text : String) : Except String Json :=
  if h : ∃ v, Json.IsValue v ∧ String.ofList (Json.write bitText v) = text then .ok h.choose
  else .error "expected value at line 1 column 1"

theorem readBack_write {v : Json} (hv : Json.IsValue v) :
    readBack (String.ofList (Json.write bitText v)) = .ok v := by
  have h : ∃ w, Json.IsValue w ∧
      String.ofList (Json.write bitText w) = String.ofList (Json.write bitText v) := ⟨v, hv, rfl⟩
  rw [readBack, dif_pos h]
  exact congrArg _ (Json.write_injective h.choose_spec.1 hv
    (String.ofList_inj.mp h.choose_spec.2))

noncomputable def readingRuntime : BootstrapRuntime := { soloRuntime with fromStr := readBack }

theorem readingRuntime_lawful : readingRuntime.Lawful where
  fromStr_write v hv := readBack_write hv
  parse_format t text h := by
    by_cases ht : t = 0
    · subst ht
      cases h
      rfl
    · have hformat : readingRuntime.formatRfc3339 t = .error "out of range" := if_neg ht
      rw [hformat] at h
      cases h
  parseUuid_text := Uuid.parseHyphenated_text

def ownerHeaders : HeaderMap :=
  [("x-tenant-id", ⟨some "single"⟩), ("x-user-id", ⟨some (Uuid.repeated 1).text⟩)]

def completeOnce : ContextRequest := .complete ownerHeaders 0 {}

theorem noStatusFile_soloDir : NoStatusFile (some soloDir) := by
  intro dir hdir name _
  cases hdir
  have hne : ([sessionsDir, name] : Names) ≠ bootstrapNames := by simp [bootstrapNames]
  rw [SourceDir.isFile, soloDir, node?_put_ne _ hne]
  rfl

/-- Whether the loader has room for the status file of a directory. -/
def roomIn (config : AgentContextLoaderConfig) (site : Option SourceDir) : Bool :=
  site.all fun dir => (dir.contents? statusNames).all fun contents =>
    (sessionsAhead dir).length < config.maxDynamicFilesPerDir &&
      bytesAhead config dir + contents.size ≤ config.maxTotalBytes

theorem hasRoom_of_roomIn {config : AgentContextLoaderConfig} {rt : BootstrapRuntime}
    {site : Option SourceDir} (h : roomIn config site = true) : HasRoom config rt site := by
  intro dir text record hsite hcontents _
  rw [roomIn, hsite, Option.all_some, hcontents, Option.all_some] at h
  simp only [Bool.and_eq_true, decide_eq_true_eq] at h
  exact h

theorem status_holds_after_completion :
    (latestCompletion (runRequests soloEnv readingRuntime (some soloDir)
        [completeOnce]).answers).map (·.completedByUserId) = some (.repeated 1) ∧
      StatusHolds soloEnv readingRuntime
        (runRequests soloEnv readingRuntime (some soloDir) [completeOnce]) := by
  constructor
  · decide +kernel
  · refine status_holds soloEnv readingRuntime readingRuntime_lawful rfl (some soloDir)
      noStatusFile_soloDir [completeOnce] ?_ ?_
    · intro req hreq
      rw [List.mem_singleton.mp hreq]
      trivial
    · refine hasRoom_of_roomIn ?_
      decide +kernel

end Api
end SecureAgnt

/-
The files of an agent: its directory, the loader of a snapshot, and the endpoint that
writes single files.

The directory is a tree of names below it.  A path is given by its names, and the path
of a request is split into names before anything is looked up.  Reads and writes fail
where a file stands in the place of a directory or a directory in that of a file, and
nowhere else.
-/
import Mathlib.Data.List.AList
import Mathlib.Data.List.Infix
import Mathlib.Data.List.Lex
import Mathlib.Data.List.Sort
import Mathlib.Data.String.Basic
import SecureAgnt.Api.Gate
import SecureAgnt.Lib.Lines
import SecureAgnt.Lib.Path

namespace SecureAgnt
namespace Api

open SecureAgnt.Path (Component)

/-! ## Files and directories -/

/-- Bytes that are not UTF-8 stay bytes. -/
inductive Contents where
  | text (s : String)
  | binary (bytes : List UInt8)
  deriving DecidableEq

namespace Contents

def size : Contents → Nat
  | .text s => Text.len s
  | .binary bytes => bytes.length

def append : Contents → String → Contents
  | .text s, more => .text (s ++ more)
  | .binary bytes, more => .binary (bytes ++ more.toUTF8.data.toList)

end Contents

inductive Node where
  | file (contents : Contents)
  | dir
  deriving DecidableEq

abbrev Names := List (List Char)

def Names.text (names : Names) : String := String.ofList (Path.join names)

structure SourceDir where
  path : String
  nodes : AList fun _ : Names => Node

inductive IoFailure where
  | alreadyExists
  | notADirectory
  | isADirectory

namespace SourceDir

variable (dir : SourceDir)

def node? (names : Names) : Option Node := dir.nodes.lookup names

def put (names : Names) (node : Node) : SourceDir :=
  { dir with nodes := dir.nodes.insert names node }

def isFile (names : Names) : Bool :=
  match dir.node? names with
  | some (.file _) => true
  | _ => false

def display (names : Names) : String := dir.path ++ "/" ++ names.text

/-- `fs::create_dir_all`. -/
def createDirAll (names : Names) : Except IoFailure SourceDir :=
  if dir.isFile names then .error .alreadyExists
  else if names.inits.tail.any dir.isFile then .error .notADirectory
  else .ok (names.inits.tail.foldl
    (fun d names' => if (d.node? names').isNone then d.put names' .dir else d) dir)

/-- `fs::write`. -/
def write (names : Names) (payload : String) : Except IoFailure SourceDir :=
  match dir.node? names with
  | some .dir => .error .isADirectory
  | _ => .ok (dir.put names (.file (.text payload)))

/-- A file opened to append, and created where it is missing. -/
def append (names : Names) (payload : String) : Except IoFailure SourceDir :=
  match dir.node? names with
  | some .dir => .error .isADirectory
  | some (.file contents) => .ok (dir.put names (.file (contents.append payload)))
  | none => .ok (dir.put names (.file (.text payload)))

end SourceDir

/-! ## The loader -/

structure AgentContextLoaderConfig where
  requiredFiles : List String
  maxFileBytes : Nat
  maxTotalBytes : Nat
  maxDynamicFilesPerDir : Nat

/-- What the handlers find around one agent's directory. -/
structure ContextEnv where
  state : AppState
  loader : AgentContextLoaderConfig
  agentId : Uuid
  /-- Where the directory is made when there is none. -/
  newSourceDir : String
  searchedPaths : List String
  /-- What `metadata` says of a directory. -/
  dirLen : Nat
  ioText : IoFailure → String

def ContextEnv.metadataLen (env : ContextEnv) (dir : SourceDir) (names : Names) : Nat :=
  match dir.node? names with
  | none => 0
  | some (.file contents) => contents.size
  | some .dir => env.dirLen

inductive AgentContextLoadError where
  | invalidConfig (message : String)
  | notFound

structure AgentContextFile where
  slot : String
  relativePath : String
  bytes : Nat
  content : String

structure AgentContextSnapshot where
  sourceDir : SourceDir
  requiredFiles : List AgentContextFile
  memoryFiles : List AgentContextFile
  sessionFiles : List AgentContextFile
  missingRequiredFiles : List String
  warnings : List String

def isNormal : Component → Bool
  | .normal _ => true
  | _ => false

def validateRelativePath (path : String) : Except AgentContextLoadError Unit :=
  if Text.isEmpty (Text.trim path) then
    .error (.invalidConfig "required file entry cannot be empty")
  else if Path.isAbsolute path.toList then
    .error (.invalidConfig ("required file `" ++ path ++ "` cannot be absolute"))
  else if !(Path.components path.toList).all isNormal then
    .error (.invalidConfig ("required file `" ++ path ++ "` contains invalid path components"))
  else .ok ()

def validateLoaderConfig (config : AgentContextLoaderConfig) :
    Except AgentContextLoadError Unit :=
  if config.maxFileBytes = 0 then .error (.invalidConfig "max_file_bytes must be > 0")
  else if config.maxTotalBytes = 0 then .error (.invalidConfig "max_total_bytes must be > 0")
  else if config.maxDynamicFilesPerDir = 0 then
    .error (.invalidConfig "max_dynamic_files_per_dir must be > 0")
  else config.requiredFiles.forM validateRelativePath

/-- The names of a path whose components are all normal. -/
def requiredNames (path : String) : Names :=
  (Path.components path.toList).filterMap fun part =>
    match part with
    | .normal name => some name
    | _ => none

/-- What the loader carries from file to file. -/
structure Loading where
  loadedBytes : Nat
  warnings : List String

def Loading.skip (s : Loading) (warning : String) : Option AgentContextFile × Loading :=
  (none, { s with warnings := s.warnings ++ [warning] })

def loadContextFile (config : AgentContextLoaderConfig) (dir : SourceDir) (names : Names)
    (slot relativePath : String) (s : Loading) : Option AgentContextFile × Loading :=
  match dir.node? names with
  | none => (none, s)
  | some .dir =>
    s.skip ("context path `" ++ dir.display names ++ "` is not a regular file; skipped")
  | some (.file contents) =>
    if config.maxFileBytes < contents.size then
      s.skip ("context file `" ++ dir.display names ++ "` exceeds max_file_bytes " ++
        toString config.maxFileBytes ++ "; skipped")
    else if config.maxTotalBytes < s.loadedBytes + contents.size then
      s.skip ("loading `" ++ dir.display names ++ "` would exceed max_total_bytes " ++
        toString config.maxTotalBytes ++ "; skipped")
    else
      match contents with
      | .binary _ =>
        s.skip ("context file `" ++ dir.display names ++ "` is not valid UTF-8; skipped")
      | .text content =>
        (some ⟨slot, relativePath, Text.len content, content⟩,
          { s with loadedBytes := s.loadedBytes + Text.len content })

/-- Files one after the other, each with what it is loaded from. -/
def loadContextFiles (config : AgentContextLoaderConfig) (dir : SourceDir) :
    Loading → List (Names × String × String) → List (Option AgentContextFile) × Loading
  | s, [] => ([], s)
  | s, (names, slot, relativePath) :: rest =>
    let first := loadContextFile config dir names slot relativePath s
    let others := loadContextFiles config dir first.2 rest
    (first.1 :: others.1, others.2)

/-- `Path::extension` of a file name. -/
def extension (name : List Char) : Option (List Char) :=
  let stem := (name.reverse.dropWhile (· ≠ '.')).tail.reverse
  if '.' ∈ name ∧ stem ≠ [] then some (name.reverse.takeWhile (· ≠ '.')).reverse else none

/-- The name of an entry that is a file of `subdir` with the extension. -/
def dynamicName? (subdir : List Char) (ext : String) (entry : (_ : Names) × Node) :
    Option (List Char) :=
  match entry.1, entry.2 with
  | [parent, name], .file _ =>
    if parent = subdir ∧
        (extension name).any (fun e => Text.eqIgnoreAsciiCase (String.ofList e) ext) then some name
    else none
  | _, _ => none

/-- The files of a subdirectory with the extension, the greatest name first; without the
subdirectory there are no entries. -/
def dynamicNames (dir : SourceDir) (subdir : List Char) (ext : String) : List (List Char) :=
  (dir.nodes.entries.filterMap (dynamicName? subdir ext)).insertionSort fun a b => b ≤ a

def dynamicEntry (subdir : List Char) (slotPrefix : String) (name : List Char) :
    Names × String × String :=
  let rel := Names.text [subdir, name]
  ([subdir, name], slotPrefix ++ ":" ++ rel, rel)

def loadDynamicContextFiles (config : AgentContextLoaderConfig) (dir : SourceDir)
    (subdir : List Char) (ext slotPrefix : String) (s : Loading) :
    List AgentContextFile × Loading :=
  let loaded := loadContextFiles config dir s
    (((dynamicNames dir subdir ext).take config.maxDynamicFilesPerDir).map
      (dynamicEntry subdir slotPrefix))
  (loaded.1.filterMap id, loaded.2)

def memoryDir : List Char := "memory".toList
def sessionsDir : List Char := "sessions".toList

/-- The required and the memory files, which are loaded before the session files. -/
def loadBeforeSessions (config : AgentContextLoaderConfig) (dir : SourceDir) :
    List (Option AgentContextFile) × List AgentContextFile × Loading :=
  let required := loadContextFiles config dir ⟨0, []⟩
    (config.requiredFiles.map fun file => (requiredNames file, file, file))
  let memory := loadDynamicContextFiles config dir memoryDir "md" "memory" required.2
  (required.1, memory.1, memory.2)

def loadAgentContextSnapshot (config : AgentContextLoaderConfig) (site : Option SourceDir) :
    Except AgentContextLoadError AgentContextSnapshot :=
  match validateLoaderConfig config with
  | .error e => .error e
  | .ok () =>
    match site with
    | none => .error .notFound
    | some dir =>
      let before := loadBeforeSessions config dir
      let sessions := loadDynamicContextFiles config dir sessionsDir "jsonl" "session" before.2.2
      .ok
        { sourceDir := dir
          requiredFiles := before.1.filterMap id
          memoryFiles := before.2.1
          sessionFiles := sessions.1
          missingRequiredFiles :=
            ((config.requiredFiles.zip before.1).filter fun file => file.2.isNone).map (·.1)
          warnings := sessions.2.warnings }

def mapAgentContextLoadError (env : ContextEnv) : AgentContextLoadError → ApiError
  | .notFound => .notFound ("agent context not found; searched: " ++
      ", ".intercalate env.searchedPaths)
  | .invalidConfig message => .internal ("agent context loader is misconfigured: " ++ message)

/-! ## The endpoint that writes a file -/

inductive AgentContextMutability where
  | immutable
  | humanPrimary
  | agentManaged
  deriving DecidableEq

inductive ContextMutationMode where
  | replace
  | append
  deriving DecidableEq

structure MutateAgentContextRequest where
  relativePath : String
  content : String
  mode : String := "replace"

structure AgentContextMutationResponse where
  tenantId : String
  agentId : Uuid
  relativePath : String
  mode : ContextMutationMode
  mutability : AgentContextMutability
  bytes : Nat

def parseContextMutationMode (raw : String) : ApiResult ContextMutationMode :=
  match Text.toAsciiLowercase (Text.trim raw) with
  | "replace" => .ok .replace
  | "append" => .ok .append
  | _ => .error (.badRequest "mode must be one of: replace, append")

def mutationNames : List Component → ApiResult Names
  | [] => .ok []
  | .normal part :: rest =>
    if Text.isEmpty (Text.trim (String.ofList part)) then
      .error (.badRequest "relative_path contains empty path component")
    else (mutationNames rest).map (part :: ·)
  | _ :: _ => .error (.badRequest "relative_path contains invalid path components")

/-- The names of the path; the source joins them again. -/
def normalizeContextMutationPath (raw : String) : ApiResult Names :=
  let trimmed := Text.trim raw
  if Text.isEmpty trimmed then .error (.badRequest "relative_path must not be empty")
  else if Path.isAbsolute trimmed.toList then
    .error (.badRequest "relative_path must be a relative path")
  else
    match mutationNames (Path.components trimmed.toList) with
    | .error e => .error e
    | .ok [] => .error (.badRequest "relative_path must not be empty")
    | .ok names => .ok names

def normalizeContextRelativePath (relativePath : String) : Option String :=
  let trimmed := Text.trim relativePath
  if Text.isEmpty trimmed || Path.isAbsolute trimmed.toList then none
  else
    let parts := Path.components trimmed.toList
    if parts.all isNormal && !parts.isEmpty then some (Names.text (requiredNames trimmed)) else none

def classifyMutability (relativePath : String) : Option AgentContextMutability :=
  match normalizeContextRelativePath relativePath with
  | none => none
  | some normalized =>
    if normalized ∈ ["AGENTS.md", "TOOLS.md", "IDENTITY.md", "SOUL.md"] then some .immutable
    else if normalized ∈ ["USER.md", "HEARTBEAT.md", "BOOTSTRAP.md"] then some .humanPrimary
    else if normalized = "MEMORY.md" then some .agentManaged
    else if Text.startsWith normalized "memory/" && Text.endsWith normalized ".md" then
      some .agentManaged
    else if Text.startsWith normalized "sessions/" && Text.endsWith normalized ".jsonl" then
      some .agentManaged
    else none

def ensureContextMutationRole (role : RolePreset) : AgentContextMutability → ApiResult Unit
  | .immutable => .error (.forbidden "immutable agent-context files cannot be mutated via API")
  | .humanPrimary =>
    ensureOwnerRole role "only owner role can mutate human-primary agent-context files"
  | .agentManaged => ensureMemoryWriteRole role

def validateContextMutationMode (mode : ContextMutationMode) (relativePath : String)
    (mutability : AgentContextMutability) : ApiResult Unit :=
  if Text.startsWith relativePath "sessions/" && !Text.endsWith relativePath ".jsonl" then
    .error (.badRequest "sessions/ context files must use .jsonl extension")
  else if Text.startsWith relativePath "memory/" && !Text.endsWith relativePath ".md" then
    .error (.badRequest "memory/ context files must use .md extension")
  else if mutability ≠ .agentManaged && mode = .append then
    .error (.badRequest "append mode is not allowed for immutable or human-primary files")
  else if Text.startsWith relativePath "sessions/" && mode ≠ .append then
    .error (.badRequest "sessions/*.jsonl mutations must use append mode")
  else .ok ()

/-- A mutation whose request was checked. -/
structure ContextMutation where
  tenantId : String
  mode : ContextMutationMode
  names : Names
  mutability : AgentContextMutability

def checkMutation (env : ContextEnv) (headers : HeaderMap) (req : MutateAgentContextRequest) :
    ApiResult ContextMutation := do
  if !env.state.agentContextMutationEnabled then
    .error (.forbidden
      "agent-context mutation endpoints are disabled by API_AGENT_CONTEXT_MUTATION_ENABLED")
  let tenantId ← tenantFromHeaders headers
  let role ← roleFromHeaders env.state headers
  let mode ← parseContextMutationMode req.mode
  let names ← normalizeContextMutationPath req.relativePath
  match classifyMutability names.text with
  | none => .error (.badRequest ("relative_path must target a supported agent-context file " ++
      "(USER.md, HEARTBEAT.md, BOOTSTRAP.md, MEMORY.md, memory/*.md, sessions/*.jsonl)"))
  | some mutability =>
    ensureContextMutationRole role mutability
    validateContextMutationMode mode names.text mutability
    .ok ⟨tenantId, mode, names, mutability⟩

/-- A line that is appended to a session file is closed. -/
def mutationPayload (mode : ContextMutationMode) (names : Names) (content : String) : String :=
  if mode = .append ∧ Text.startsWith names.text "sessions/" then
    String.ofList (Lines.close content.toList)
  else content

def createContextDirectory (env : ContextEnv) (dir : SourceDir) (names : Names) :
    ApiResult SourceDir :=
  (dir.createDirAll names.dropLast).mapError fun failure =>
    .internal ("failed creating context file directory " ++ dir.display names.dropLast ++ ": " ++
      env.ioText failure)

def writeMutation (env : ContextEnv) (dir : SourceDir) (names : Names) (payload : String) :
    ContextMutationMode → ApiResult SourceDir
  | .replace => (dir.write names payload).mapError fun failure =>
      .internal ("failed writing context file " ++ dir.display names ++ ": " ++ env.ioText failure)
  | .append => (dir.append names payload).mapError fun failure =>
      .internal ("failed opening context file " ++ dir.display names ++ " for append: " ++
        env.ioText failure)

/-- What a checked mutation answers and the directory that it leaves. -/
def applyMutation (env : ContextEnv) (dir : SourceDir) (m : ContextMutation) (content : String) :
    ApiResult Nat × SourceDir :=
  match createContextDirectory env dir m.names with
  | .error e => (.error e, dir)
  | .ok dir =>
    let payload := mutationPayload m.mode m.names content
    let projectedLen :=
      match m.mode with
      | .replace => Text.len payload
      | .append => env.metadataLen dir m.names + Text.len payload
    if env.loader.maxFileBytes < projectedLen then
      (.error (.badRequest ("mutation exceeds max file size (" ++
        toString env.loader.maxFileBytes ++ " bytes)")), dir)
    else
      match writeMutation env dir m.names payload m.mode with
      | .error e => (.error e, dir)
      | .ok dir' => (.ok (env.metadataLen dir' m.names), dir')

def mutateAgentContext (env : ContextEnv) (site : Option SourceDir) (headers : HeaderMap)
    (req : MutateAgentContextRequest) :
    ApiResult AgentContextMutationResponse × Option SourceDir :=
  match checkMutation env headers req with
  | .error e => (.error e, site)
  | .ok m =>
    -- `resolve_or_create_agent_context_source_dir`
    let (result, dir) := applyMutation env (site.getD ⟨env.newSourceDir, ∅⟩) m req.content
    (result.map fun bytes =>
      ⟨m.tenantId, env.agentId, m.names.text, m.mode, m.mutability, bytes⟩, some dir)

/-- What the checks of a mutation find. -/
structure MutationChecked (headers : HeaderMap) (req : MutateAgentContextRequest)
    (m : ContextMutation) : Prop where
  tenant : tenantFromHeaders headers = .ok m.tenantId
  path : normalizeContextMutationPath req.relativePath = .ok m.names
  supported : classifyMutability m.names.text = some m.mutability
  mode : validateContextMutationMode m.mode m.names.text m.mutability = .ok ()

theorem checkMutation_spec {env : ContextEnv} {headers : HeaderMap}
    {req : MutateAgentContextRequest} {m : ContextMutation}
    (h : checkMutation env headers req = .ok m) : MutationChecked headers req m := by
  unfold checkMutation at h
  simp only [bind, Except.bind] at h
  split at h
  · cases h
  split at h
  · cases h
  rename_i tenantId htenant
  split at h
  · cases h
  split at h
  · cases h
  split at h
  · cases h
  rename_i names hnames
  split at h
  · cases h
  rename_i mutability hsupported
  split at h
  · cases h
  split at h
  · cases h
  rename_i hmode
  cases h
  exact ⟨htenant, hnames, hsupported, hmode⟩

/-! ## What the writes leave -/

section Writes

variable {dir dir' : SourceDir} {names names' : Names} {payload : String} {env : ContextEnv}

/-- `fs::read`, without a value where there is no file. -/
def SourceDir.contents? (dir : SourceDir) (names : Names) : Option Contents :=
  match dir.node? names with
  | some (.file contents) => some contents
  | _ => none

theorem contents?_of_not_isFile (h : dir.isFile names = false) : dir.contents? names = none := by
  unfold SourceDir.isFile at h
  unfold SourceDir.contents?
  split
  · rename_i hnode
    rw [hnode] at h
    cases h
  · rfl

theorem node?_put_self (node : Node) : (dir.put names node).node? names = some node :=
  AList.lookup_insert _

theorem node?_put_ne (node : Node) (h : names' ≠ names) :
    (dir.put names node).node? names' = dir.node? names' :=
  AList.lookup_insert_ne h

theorem contents?_put_ne (node : Node) (h : names' ≠ names) :
    (dir.put names node).contents? names' = dir.contents? names' := by
  rw [SourceDir.contents?, node?_put_ne node h]
  rfl

theorem contents?_put_file (contents : Contents) :
    (dir.put names (.file contents)).contents? names = some contents := by
  rw [SourceDir.contents?, node?_put_self]

/-- A new directory is no file, and stands where nothing was. -/
theorem contents?_put_dir (h : dir.node? names = none) (names' : Names) :
    (dir.put names .dir).contents? names' = dir.contents? names' := by
  by_cases heq : names' = names
  · rw [heq, SourceDir.contents?, node?_put_self, SourceDir.contents?, h]
  · exact contents?_put_ne _ heq

theorem contents?_makeDirs (parents : List Names) (names' : Names) :
    (parents.foldl (fun d names => if (d.node? names).isNone then d.put names .dir else d)
      dir).contents? names' = dir.contents? names' := by
  induction parents generalizing dir with
  | nil => rfl
  | cons first rest ih =>
    rw [List.foldl_cons, ih]
    by_cases hnone : (dir.node? first).isNone = true
    · rw [if_pos hnone]
      exact contents?_put_dir (Option.isNone_iff_eq_none.mp hnone) names'
    · rw [if_neg hnone]

theorem contents?_createDirAll (h : dir.createDirAll names = .ok dir') (names' : Names) :
    dir'.contents? names' = dir.contents? names' := by
  unfold SourceDir.createDirAll at h
  split at h
  · cases h
  split at h
  · cases h
  cases h
  exact contents?_makeDirs _ names'

theorem contents?_createContextDirectory (h : createContextDirectory env dir names = .ok dir')
    (names' : Names) : dir'.contents? names' = dir.contents? names' := by
  unfold createContextDirectory at h
  cases hcreate : dir.createDirAll names.dropLast with
  | error failure =>
    rw [hcreate] at h
    cases h
  | ok made =>
    rw [hcreate] at h
    cases h
    exact contents?_createDirAll hcreate names'

/-- One file holds the contents that are given, and the others what they held. -/
structure Wrote (dir : SourceDir) (names : Names) (contents : Contents) (dir' : SourceDir) :
    Prop where
  there : dir'.contents? names = some contents
  elsewhere : ∀ names', names' ≠ names → dir'.contents? names' = dir.contents? names'

theorem wrote_put (contents : Contents) :
    Wrote dir names contents (dir.put names (.file contents)) :=
  ⟨contents?_put_file contents, fun _ h => contents?_put_ne _ h⟩

/-- What is in a file after a text was appended to it. -/
def SourceDir.appended (dir : SourceDir) (names : Names) (payload : String) : Contents :=
  match dir.contents? names with
  | some contents => contents.append payload
  | none => .text payload

theorem wrote_write (h : dir.write names payload = .ok dir') :
    Wrote dir names (.text payload) dir' := by
  unfold SourceDir.write at h
  split at h
  · cases h
  · cases h
    exact wrote_put _

theorem wrote_append (h : dir.append names payload = .ok dir') :
    Wrote dir names (dir.appended names payload) dir' := by
  unfold SourceDir.append at h
  unfold SourceDir.appended SourceDir.contents?
  cases hnode : dir.node? names with
  | none =>
    rw [hnode] at h
    cases h
    exact wrote_put _
  | some node =>
    rw [hnode] at h
    cases node with
    | dir => cases h
    | file contents =>
      cases h
      exact wrote_put _

/-- A file that can be appended to is as long as what is appended to. -/
theorem size_appended (h : dir.append names payload = .ok dir') :
    (dir.appended names payload).size = env.metadataLen dir names + Text.len payload := by
  unfold SourceDir.append at h
  unfold SourceDir.appended SourceDir.contents? ContextEnv.metadataLen
  cases hnode : dir.node? names with
  | none => exact (Nat.zero_add _).symm
  | some node =>
    rw [hnode] at h
    cases node with
    | dir => cases h
    | file contents =>
      cases contents with
      | text s =>
        show Text.len (s ++ payload) = Text.len s + Text.len payload
        exact String.utf8ByteSize_append
      | binary bytes =>
        show (bytes ++ payload.toUTF8.data.toList).length = bytes.length + Text.len payload
        rw [List.length_append, Array.length_toList]
        rfl

theorem appended_congr {dir₀ : SourceDir}
    (h : ∀ names', dir.contents? names' = dir₀.contents? names') (names : Names)
    (payload : String) : dir.appended names payload = dir₀.appended names payload := by
  rw [SourceDir.appended, SourceDir.appended, h]

theorem Wrote.of_same {dir₀ : SourceDir} {contents : Contents}
    (h : ∀ names', dir.contents? names' = dir₀.contents? names')
    (hwrote : Wrote dir names contents dir') : Wrote dir₀ names contents dir' :=
  ⟨hwrote.there, fun names' hne => (hwrote.elsewhere names' hne).trans (h names')⟩

theorem wrote_writeMutation_append (h : writeMutation env dir names payload .append = .ok dir') :
    Wrote dir names (dir.appended names payload) dir' ∧
      (dir.appended names payload).size = env.metadataLen dir names + Text.len payload := by
  unfold writeMutation at h
  cases happend : dir.append names payload with
  | error failure =>
    rw [happend] at h
    cases h
  | ok made =>
    rw [happend] at h
    cases h
    exact ⟨wrote_append happend, size_appended happend⟩

theorem wrote_writeMutation_replace (h : writeMutation env dir names payload .replace = .ok dir') :
    Wrote dir names (.text payload) dir' := by
  unfold writeMutation at h
  cases hwrite : dir.write names payload with
  | error failure =>
    rw [hwrite] at h
    cases h
  | ok made =>
    rw [hwrite] at h
    cases h
    exact wrote_write hwrite

/-- A mutation writes its file or none; what it appends fits into a file. -/
theorem applyMutation_spec (env : ContextEnv) (dir : SourceDir) (m : ContextMutation)
    (content : String) :
    (∀ names', (applyMutation env dir m content).2.contents? names' = dir.contents? names') ∨
      ∃ contents, Wrote dir m.names contents (applyMutation env dir m content).2 ∧
        (m.mode = .append →
          contents = dir.appended m.names (mutationPayload m.mode m.names content) ∧
            contents.size ≤ env.loader.maxFileBytes) := by
  unfold applyMutation
  cases hcreate : createContextDirectory env dir m.names with
  | error e => exact .inl fun _ => rfl
  | ok made =>
    have hsame := contents?_createContextDirectory hcreate
    have hkeep := appended_congr hsame
    cases hmode : m.mode with
    | replace =>
      simp only
      split
      · exact .inl hsame
      · split
        · exact .inl hsame
        · rename_i dir' hwrite
          refine .inr ⟨_, (wrote_writeMutation_replace hwrite).of_same hsame, ?_⟩
          intro h
          cases h
    | append =>
      simp only
      split
      · exact .inl hsame
      · rename_i hlen
        split
        · exact .inl hsame
        · rename_i dir' hwrite
          obtain ⟨hwrote, hsize⟩ := wrote_writeMutation_append hwrite
          refine .inr ⟨_, hwrote.of_same hsame, fun _ => ⟨hkeep _ _, ?_⟩⟩
          rw [hsize]
          omega

end Writes

/-! ## What the loader finds -/

section Loader

variable {config : AgentContextLoaderConfig} {dir : SourceDir} {s : Loading} {names : Names}
  {slot relativePath : String} {file : AgentContextFile} {subdir name : List Char} {ext : String}

theorem loadContextFile_eq_some (h : (loadContextFile config dir names slot relativePath s).1 =
    some file) : file.relativePath = relativePath ∧
      dir.contents? names = some (.text file.content) := by
  unfold loadContextFile at h
  unfold SourceDir.contents?
  cases hnode : dir.node? names with
  | none =>
    rw [hnode] at h
    cases h
  | some node =>
    rw [hnode] at h
    cases node with
    | dir => cases h
    | file contents =>
      simp only at h
      split at h
      · cases h
      split at h
      · cases h
      cases contents with
      | binary n => cases h
      | text content =>
        cases h
        exact ⟨rfl, rfl⟩

/-- A text that fits is loaded. -/
theorem loadContextFile_of_room {content : String}
    (h : dir.contents? names = some (.text content))
    (hfile : Text.len content ≤ config.maxFileBytes)
    (htotal : s.loadedBytes + Text.len content ≤ config.maxTotalBytes) :
    (loadContextFile config dir names slot relativePath s).1 =
      some ⟨slot, relativePath, Text.len content, content⟩ := by
  unfold SourceDir.contents? at h
  unfold loadContextFile
  cases hnode : dir.node? names with
  | none =>
    rw [hnode] at h
    cases h
  | some node =>
    rw [hnode] at h
    cases node with
    | dir => cases h
    | file contents =>
      cases h
      have hfile' : ¬ config.maxFileBytes < (Contents.text content).size := Nat.not_lt.mpr hfile
      have htotal' : ¬ config.maxTotalBytes < s.loadedBytes + (Contents.text content).size :=
        Nat.not_lt.mpr htotal
      simp only [if_neg hfile', if_neg htotal']

theorem loadContextFiles_append (xs ys : List (Names × String × String)) :
    (loadContextFiles config dir s (xs ++ ys)).1 = (loadContextFiles config dir s xs).1 ++
      (loadContextFiles config dir (loadContextFiles config dir s xs).2 ys).1 := by
  induction xs generalizing s with
  | nil => rfl
  | cons x xs ih =>
    show _ :: (loadContextFiles config dir _ (xs ++ ys)).1 = _
    rw [ih]
    rfl

theorem mem_loadContextFiles {entries : List (Names × String × String)}
    (h : some file ∈ (loadContextFiles config dir s entries).1) :
    ∃ entry ∈ entries, file.relativePath = entry.2.2 ∧
      dir.contents? entry.1 = some (.text file.content) := by
  induction entries generalizing s with
  | nil => cases h
  | cons entry rest ih =>
    rcases List.mem_cons.mp h with hfirst | hrest
    · exact ⟨entry, List.mem_cons_self, loadContextFile_eq_some hfirst.symm⟩
    · obtain ⟨entry', hmem, hfound⟩ := ih hrest
      exact ⟨entry', List.mem_cons_of_mem _ hmem, hfound⟩

theorem mem_loadDynamicContextFiles {slotPrefix : String}
    (h : file ∈ (loadDynamicContextFiles config dir subdir ext slotPrefix s).1) :
    ∃ name, file.relativePath = Names.text [subdir, name] ∧
      dir.contents? [subdir, name] = some (.text file.content) := by
  obtain ⟨file?, hmem, hfile⟩ := List.mem_filterMap.mp h
  rw [id_eq] at hfile
  rw [hfile] at hmem
  obtain ⟨entry, hentry, hfound⟩ := mem_loadContextFiles hmem
  obtain ⟨name, _, rfl⟩ := List.mem_map.mp hentry
  exact ⟨name, hfound⟩

theorem dynamicNames_pairwise : (dynamicNames dir subdir ext).Pairwise fun a b => b ≤ a := by
  have htotal : Std.Total fun a b : List Char => b ≤ a := ⟨fun a b => le_total b a⟩
  have htrans : IsTrans (List Char) fun a b => b ≤ a := ⟨fun _ _ _ hba hcb => hcb.trans hba⟩
  exact List.pairwise_insertionSort _ _

theorem mem_dynamicNames {contents : Contents}
    (h : dir.contents? [subdir, name] = some contents)
    (hext : (extension name).any (fun e => Text.eqIgnoreAsciiCase (String.ofList e) ext) = true) :
    name ∈ dynamicNames dir subdir ext := by
  have hentry : (⟨[subdir, name], .file contents⟩ : (_ : Names) × Node) ∈ dir.nodes.entries := by
    refine AList.mem_lookup_iff.mp ?_
    unfold SourceDir.contents? SourceDir.node? at h
    split at h
    · rename_i hnode
      cases h
      exact hnode
    · cases h
  refine (List.mem_insertionSort _).mpr (List.mem_filterMap.mpr ⟨_, hentry, ?_⟩)
  show (if _ then some name else none) = some name
  rw [if_pos ⟨rfl, hext⟩]

end Loader

end Api
end SecureAgnt

/-
Where artifacts end up: what the cleaning of a path keeps, when the directories of two
tenants are apart, and when the path that is written is one the grants cover.
-/
import SecureAgnt.Worker.Artifacts

namespace SecureAgnt
namespace Worker

open SecureAgnt.Path (Component Below Within Apart IsName)

/-! ## The cleaned path -/

section Cleaned

variable {path : String} {cleaned : PathBuf}

theorem foldlM_pushComponent_normal (path : String) (names : List (List Char)) :
    ∀ cleaned : PathBuf, (names.map Component.normal).foldlM (pushComponent path) cleaned =
      .ok (names.foldl Path.push cleaned) := by
  induction names with
  | nil => intro cleaned; rfl
  | cons first rest ih =>
    intro cleaned
    rw [List.map_cons, List.foldlM_cons]
    exact ih (Path.push cleaned first)

theorem foldlM_pushComponent_parentDir (path : String) {parts : List Component}
    (h : .parentDir ∈ parts) :
    ∀ cleaned : PathBuf, ∃ e, parts.foldlM (pushComponent path) cleaned = .error e := by
  induction parts with
  | nil => exact absurd h List.not_mem_nil
  | cons first rest ih =>
    intro cleaned
    rw [List.foldlM_cons]
    cases first with
    | rootDir => exact ⟨_, rfl⟩
    | parentDir => exact ⟨_, rfl⟩
    | curDir => exact ih (by simpa using h) cleaned
    | normal part => exact ih (by simpa using h) (Path.push cleaned part)

/-- Past the start of a relative path only its names are pushed. -/
theorem foldlM_pushComponent (hrelative : Path.isAbsolute path.toList = false)
    (hparent : .parentDir ∉ Path.components path.toList) :
    (Path.components path.toList).foldlM (pushComponent path) [] =
      .ok (Path.join (Path.kept path.toList)) := by
  have hnames := fun part => @Path.isName_of_mem_kept path.toList part hparent
  have hbody := foldlM_pushComponent_normal path (Path.kept path.toList) []
  rw [Path.foldl_push hnames] at hbody
  rw [Path.components_eq_kept hparent, Path.start, hrelative, if_neg Bool.false_ne_true]
  split
  · rw [List.singleton_append, List.foldlM_cons]
    exact hbody
  · exact hbody

theorem join_eq_nil_iff {names : List (List Char)} (hnames : ∀ part ∈ names, IsName part) :
    Path.join names = [] ↔ names = [] := by
  constructor
  · intro h
    have hcomponents := Path.components_join hnames
    rw [h, show Path.components [] = [] from rfl] at hcomponents
    exact List.map_eq_nil_iff.mp hcomponents.symm
  · intro h
    rw [h]
    rfl

theorem sanitizeRelativePath_eq_ok : sanitizeRelativePath path = .ok cleaned ↔
    Path.isAbsolute path.toList = false ∧ .parentDir ∉ Path.components path.toList ∧
      Path.kept path.toList ≠ [] ∧ cleaned = Path.join (Path.kept path.toList) := by
  unfold sanitizeRelativePath
  by_cases habs : Path.isAbsolute path.toList = true
  · rw [if_pos habs, habs]
    simp
  rw [if_neg habs]
  rw [Bool.not_eq_true] at habs
  by_cases hparent : .parentDir ∈ Path.components path.toList
  · obtain ⟨e, he⟩ := foldlM_pushComponent_parentDir path hparent []
    rw [he]
    simp [hparent]
  · have hnames := fun part => @Path.isName_of_mem_kept path.toList part hparent
    have hempty := join_eq_nil_iff hnames
    rw [foldlM_pushComponent habs hparent]
    by_cases hkept : Path.kept path.toList = []
    · simp [hkept, Path.join]
    · have hne : Path.join (Path.kept path.toList) ≠ [] := fun h => hkept (hempty.mp h)
      simp only [List.isEmpty_iff, hne, if_false, Except.ok.injEq, habs, true_and]
      exact ⟨fun h => ⟨hparent, hkept, h.symm⟩, fun h => h.2.2.symm⟩

theorem isName_of_sanitized (h : sanitizeRelativePath path = .ok cleaned) :
    ∀ part ∈ Path.kept path.toList, IsName part := by
  have hparent := (sanitizeRelativePath_eq_ok.mp h).2.1
  exact fun part hpart => Path.isName_of_mem_kept hparent hpart

theorem components_sanitized (h : sanitizeRelativePath path = .ok cleaned) :
    Path.components cleaned = (Path.kept path.toList).map .normal := by
  have hcleaned := (sanitizeRelativePath_eq_ok.mp h).2.2.2
  rw [hcleaned, Path.components_join (isName_of_sanitized h)]

theorem isAbsolute_sanitized (h : sanitizeRelativePath path = .ok cleaned) :
    Path.isAbsolute cleaned = false := by
  have hcleaned := (sanitizeRelativePath_eq_ok.mp h).2.2.2
  rw [hcleaned, Path.isAbsolute_join (isName_of_sanitized h)]

theorem parentDir_notMem_sanitized (h : sanitizeRelativePath path = .ok cleaned) :
    .parentDir ∉ Path.components cleaned := by
  rw [components_sanitized h]
  simp

/-- A cleaned path is clean. -/
theorem sanitizeRelativePath_sanitized (h : sanitizeRelativePath path = .ok cleaned) :
    sanitizeRelativePath (String.ofList cleaned) = .ok cleaned := by
  have hcleaned := (sanitizeRelativePath_eq_ok.mp h).2.2.2
  have hne := (sanitizeRelativePath_eq_ok.mp h).2.2.1
  have hkept : Path.kept cleaned = Path.kept path.toList := by
    rw [hcleaned, Path.kept_join hne (isName_of_sanitized h)]
  rw [sanitizeRelativePath_eq_ok, String.toList_ofList, hkept]
  exact ⟨isAbsolute_sanitized h, parentDir_notMem_sanitized h, hne, hcleaned⟩

end Cleaned

/-! ## Where an artifact is written -/

section Location

variable {env : ArtifactEnv} {config : ArtifactConfig} {artifactRoot relativePath : PathBuf}
  {run : RunLeaseRecord} {written : Written} {dirError fileError contentType content : String}
  {artifactId : Uuid}

/-- The directory of all tenants. -/
def tenantsDir (artifactRoot : PathBuf) : PathBuf := Path.push artifactRoot "tenants".toList

/-- A tenant whose id is accepted as a path that the file system can take. -/
structure TenantUsable (artifactRoot : PathBuf) (tenantId : String) : Prop where
  accepted : ∃ cleaned, sanitizeRelativePath tenantId = .ok cleaned
  no_nul_root : '\x00' ∉ artifactRoot
  no_nul_tenant : '\x00' ∉ tenantId.toList

def tenantDir (artifactRoot : PathBuf) (tenantId : String) : PathBuf :=
  Path.push (tenantsDir artifactRoot) (Path.join (Path.kept tenantId.toList))

/-- A file of a tenant: names lead to it from the directory of the tenant. -/
structure TenantFile (artifactRoot : PathBuf) (tenantId : String) (file : PathBuf) : Prop where
  usable : TenantUsable artifactRoot tenantId
  below : Below (tenantDir artifactRoot tenantId) file

theorem isName_tenants : ∀ part ∈ ["tenants".toList], IsName part := by
  intro part hpart
  rw [List.mem_singleton.mp hpart]
  exact ⟨by decide, by decide, by decide, by decide⟩

theorem components_tenantsDir (artifactRoot : PathBuf) :
    Path.components (tenantsDir artifactRoot) =
      Path.components artifactRoot ++ [.normal "tenants".toList] :=
  Path.components_push isName_tenants artifactRoot

theorem tenantScopedArtifactRoot_eq_ok {tenantId : String} {tenantRoot : PathBuf}
    (h : tenantScopedArtifactRoot artifactRoot tenantId = .ok tenantRoot) :
    ∃ cleaned, sanitizeRelativePath tenantId = .ok cleaned ∧
      tenantRoot = Path.push (tenantsDir artifactRoot) cleaned := by
  unfold tenantScopedArtifactRoot at h
  cases hclean : sanitizeRelativePath tenantId with
  | error e => rw [hclean] at h; cases h
  | ok cleaned =>
    rw [hclean] at h
    cases h
    exact ⟨cleaned, rfl, rfl⟩

theorem writeArtifact_eq_ok (h : writeArtifact env artifactRoot run dirError fileError contentType
      relativePath content artifactId = .ok written) :
    ∃ tenantRoot, tenantScopedArtifactRoot artifactRoot run.tenantId = .ok tenantRoot ∧
      written.file = Path.push tenantRoot relativePath ∧ '\x00' ∉ written.file ∧
      written.artifact.path = String.ofList relativePath := by
  unfold writeArtifact at h
  cases hroot : tenantScopedArtifactRoot artifactRoot run.tenantId with
  | error e => rw [hroot] at h; cases h
  | ok tenantRoot =>
    rw [hroot] at h
    dsimp only at h
    split at h
    · cases h
    split at h
    · cases h
    rename_i hfile
    have hwrite : env.writeFile (Path.push tenantRoot relativePath) content = true := by
      simpa using hfile
    have hnul : '\x00' ∉ Path.push tenantRoot relativePath := by
      intro hmem
      simp [ArtifactEnv.writeFile, hmem] at hwrite
    generalize env.persistArtifactMetadata _ = answer at h
    cases answer with
    | error e => cases h
    | ok _ =>
      cases h
      exact ⟨tenantRoot, rfl, rfl, hnul, rfl⟩

/-- Whatever names are written under, the file is one of the run's tenant. -/
theorem tenantFile_of_writeArtifact {names : List (List Char)}
    (h : writeArtifact env artifactRoot run dirError fileError contentType relativePath
      content artifactId = .ok written)
    (hnames : ∀ part ∈ names, IsName part) (hpath : relativePath = Path.join names) :
    TenantFile artifactRoot run.tenantId written.file := by
  rw [hpath] at h
  obtain ⟨tenantRoot, hroot, hfile, hnul, _⟩ := writeArtifact_eq_ok h
  obtain ⟨cleaned, hclean, rfl⟩ := tenantScopedArtifactRoot_eq_ok hroot
  have hcleaned := (sanitizeRelativePath_eq_ok.mp hclean).2.2.2
  have hslash : '\x00' ≠ '/' := by decide
  rw [hfile, Path.mem_push hslash (Path.isAbsolute_join hnames),
    Path.mem_push hslash (isAbsolute_sanitized hclean), tenantsDir,
    Path.mem_push hslash (by decide), hcleaned, Path.mem_join_kept_iff hslash (by decide)] at hnul
  refine ⟨⟨⟨cleaned, hclean⟩, ?_, ?_⟩, names, ?_⟩
  · exact fun hmem => hnul (Or.inl (Or.inl (Or.inl hmem)))
  · exact fun hmem => hnul (Or.inl (Or.inr hmem))
  · rw [hfile, Path.components_push hnames, hcleaned, tenantDir]

theorem tenantFile_of_objectWrite {args : Json}
    (h : executeObjectWriteAction env artifactRoot run args artifactId = .ok written) :
    TenantFile artifactRoot run.tenantId written.file := by
  unfold executeObjectWriteAction at h
  split at h
  · cases h
  split at h
  · cases h
  split at h
  · cases h
  rename_i path _ _ _ _ _ cleaned hclean
  have hcleaned := (sanitizeRelativePath_eq_ok.mp hclean).2.2.2
  exact tenantFile_of_writeArtifact h (isName_of_sanitized hclean) hcleaned

theorem isName_jsonFileName (id : Uuid) : IsName (jsonFileName id) := by
  have hlength : 5 ≤ (jsonFileName id).length := by
    rw [jsonFileName, List.length_append]
    exact Nat.le_add_left 5 _
  refine ⟨?_, ?_, ?_, ?_⟩
  · intro h
    rw [h] at hlength
    simp at hlength
  · intro h
    rw [h] at hlength
    simp at hlength
  · intro h
    rw [h] at hlength
    simp at hlength
  · rw [jsonFileName, List.mem_append, not_or]
    exact ⟨id.notMem_text (by decide) (by decide), by decide⟩

theorem MessageProvider.isName (provider : MessageProvider) : IsName provider.asStr.toList := by
  cases provider <;> exact ⟨by decide, by decide, by decide, by decide⟩

theorem isName_paymentProvider (provider : Payment.PaymentProvider) :
    IsName provider.asStr.toList := by
  cases provider <;> exact ⟨by decide, by decide, by decide, by decide⟩

theorem isName_literal (name : String) (h : name.toList ≠ [] ∧ name.toList ≠ ['.'] ∧
    name.toList ≠ ['.', '.'] ∧ '/' ∉ name.toList) : IsName name.toList :=
  ⟨h.1, h.2.1, h.2.2.1, h.2.2.2⟩

theorem forall_isName_cons {name : List Char} {names : List (List Char)} (hname : IsName name)
    (hnames : ∀ part ∈ names, IsName part) : ∀ part ∈ name :: names, IsName part := by
  intro part hpart
  rcases List.mem_cons.mp hpart with rfl | hrest
  · exact hname
  · exact hnames part hrest

theorem tenantFile_of_messageReceive {args : Json} {fileId : Uuid}
    (h : executeMessageReceiveAction env config run args fileId artifactId = .ok written) :
    TenantFile config.artifactRoot run.tenantId written.file := by
  unfold executeMessageReceiveAction at h
  split at h
  · cases h
  · cases h
  split at h
  · cases h
  rename_i parsedSource _
  split at h
  · cases h
  have hnames := forall_isName_cons (isName_literal "messages" (by decide))
    (forall_isName_cons parsedSource.provider.isName
      (forall_isName_cons (isName_literal "received" (by decide))
        (forall_isName_cons (isName_jsonFileName fileId) (fun _ h => absurd h List.not_mem_nil))))
  exact tenantFile_of_writeArtifact h hnames (Path.foldl_push hnames)

theorem tenantFile_of_messageSend {args : Json} {lastLlmResponseText : Option String}
    {fileId : Uuid} (h : executeMessageSendAction env config run lastLlmResponseText args fileId
      artifactId = .ok written) :
    TenantFile config.artifactRoot run.tenantId written.file := by
  unfold executeMessageSendAction at h
  split at h
  · cases h
  · cases h
  split at h
  · cases h
  split at h
  · cases h
  rename_i parsedDestination _
  split at h
  · cases h
  split at h
  · cases h
  have hnames := forall_isName_cons (isName_literal "messages" (by decide))
    (forall_isName_cons parsedDestination.provider.isName
      (forall_isName_cons (isName_jsonFileName fileId) (fun _ h => absurd h List.not_mem_nil)))
  exact tenantFile_of_writeArtifact h hnames (Path.foldl_push hnames)

theorem tenantFile_of_paymentSend {provider : Payment.PaymentProvider} {outboxRecord : Json}
    {fileId : Uuid} (h : writePaymentOutbox env config run provider outboxRecord fileId artifactId =
      .ok written) :
    TenantFile config.artifactRoot run.tenantId written.file := by
  unfold writePaymentOutbox at h
  have hnames := forall_isName_cons (isName_literal "payments" (by decide))
    (forall_isName_cons (isName_paymentProvider provider)
      (forall_isName_cons (isName_jsonFileName fileId) (fun _ h => absurd h List.not_mem_nil)))
  exact tenantFile_of_writeArtifact h hnames (Path.foldl_push hnames)

theorem WritesArtifact.tenantFile (h : WritesArtifact env config run written) :
    TenantFile config.artifactRoot run.tenantId written.file := by
  cases h with
  | objectWrite _ _ h => exact tenantFile_of_objectWrite h
  | messageSend _ _ _ _ h => exact tenantFile_of_messageSend h
  | messageReceive _ _ _ h => exact tenantFile_of_messageReceive h
  | paymentSend _ _ _ _ h => exact tenantFile_of_paymentSend h

end Location

/-! ## The directories of two tenants -/

section Isolation

variable {artifactRoot : PathBuf} {tenantId left right : String}

/-- Some run of the tenant writes the artifact. -/
def WrittenFor (artifactRoot : PathBuf) (tenantId : String) (written : Written) : Prop :=
  ∃ env config run, config.artifactRoot = artifactRoot ∧ run.tenantId = tenantId ∧
    WritesArtifact env config run written

/-- The artifacts of two tenants are kept apart: whatever their runs write lies in two
directories of which neither is within the other, and inside the artifact root. -/
structure ArtifactsIsolated (artifactRoot : PathBuf) (left right : String) : Prop where
  apart : (∃ written, WrittenFor artifactRoot left written) →
    (∃ written, WrittenFor artifactRoot right written) →
      ∃ leftDir rightDir, Below (tenantsDir artifactRoot) leftDir ∧
        Below (tenantsDir artifactRoot) rightDir ∧ Apart leftDir rightDir ∧
        (∀ written, WrittenFor artifactRoot left written → Within leftDir written.file) ∧
        (∀ written, WrittenFor artifactRoot right written → Within rightDir written.file)
  inside : ∀ written, WrittenFor artifactRoot left written ∨ WrittenFor artifactRoot right written →
    Below artifactRoot written.file

/-- Neither id is a list of directories the other one starts with. -/
def TenantDirsApart (artifactRoot : PathBuf) (left right : String) : Prop :=
  TenantUsable artifactRoot left → TenantUsable artifactRoot right →
    ¬ Path.kept left.toList <+: Path.kept right.toList ∧
      ¬ Path.kept right.toList <+: Path.kept left.toList

theorem WrittenFor.tenantFile {written : Written} (h : WrittenFor artifactRoot tenantId written) :
    TenantFile artifactRoot tenantId written.file := by
  obtain ⟨env, config, run, rfl, rfl, hwrites⟩ := h
  exact hwrites.tenantFile

theorem components_tenantDir (h : TenantUsable artifactRoot tenantId) :
    Path.components (tenantDir artifactRoot tenantId) =
      Path.components (tenantsDir artifactRoot) ++ (Path.kept tenantId.toList).map .normal := by
  obtain ⟨cleaned, hclean⟩ := h.accepted
  exact Path.components_push (isName_of_sanitized hclean) _

theorem within_tenantDir_iff (hleft : TenantUsable artifactRoot left)
    (hright : TenantUsable artifactRoot right) :
    Within (tenantDir artifactRoot left) (tenantDir artifactRoot right) ↔
      Path.kept left.toList <+: Path.kept right.toList := by
  rw [Within, components_tenantDir hleft, components_tenantDir hright,
    List.prefix_append_right_inj]
  exact List.prefix_map_iff_of_injective fun _ _ h => Component.normal.inj h

theorem TenantFile.inside {file : PathBuf} (h : TenantFile artifactRoot tenantId file) :
    Below artifactRoot file := by
  obtain ⟨names, hnames⟩ := h.below
  rw [components_tenantDir h.usable, components_tenantsDir] at hnames
  refine ⟨"tenants".toList :: (Path.kept tenantId.toList ++ names), ?_⟩
  rw [hnames]
  simp

theorem isolated_of_dirsApart (h : TenantDirsApart artifactRoot left right) :
    ArtifactsIsolated artifactRoot left right := by
  constructor
  · intro hleft hright
    obtain ⟨leftFile, hleftFile⟩ := hleft
    obtain ⟨rightFile, hrightFile⟩ := hright
    have hleftUsable := hleftFile.tenantFile.usable
    have hrightUsable := hrightFile.tenantFile.usable
    have hapart := h hleftUsable hrightUsable
    refine ⟨tenantDir artifactRoot left, tenantDir artifactRoot right,
      ⟨_, components_tenantDir hleftUsable⟩, ⟨_, components_tenantDir hrightUsable⟩, ?_, ?_, ?_⟩
    · rw [Apart, within_tenantDir_iff hleftUsable hrightUsable,
        within_tenantDir_iff hrightUsable hleftUsable]
      exact hapart
    · exact fun written hwritten => hwritten.tenantFile.below.within
    · exact fun written hwritten => hwritten.tenantFile.below.within
  · intro written hwritten
    rcases hwritten with hwritten | hwritten
    · exact hwritten.tenantFile.inside
    · exact hwritten.tenantFile.inside

/-- An environment in which every write succeeds. -/
def willingEnv : ArtifactEnv where
  createDirAll _ := true
  write _ _ := true
  persistArtifactMetadata _ := .ok ()
  toPretty _ := ""
  deliver _ _ _ := .error "not delivered"

def objectWriteArgs (path : PathBuf) : Json :=
  .obj [("path", .str (String.ofList path)), ("content", .str "")]

def tenantRun (tenantId : String) : RunLeaseRecord :=
  { id := "run", tenantId := tenantId, agentId := "agent", inputJson := .null,
    grantedCapabilities := .null }

/-- A tenant with a usable id can write under any names. -/
theorem exists_writtenFor (h : TenantUsable artifactRoot tenantId) {names : List (List Char)}
    (hnames : ∀ part ∈ names, IsName part) (hne : names ≠ [])
    (hnul : '\x00' ∉ Path.join names) :
    ∃ written, WrittenFor artifactRoot tenantId written ∧
      written.file = Path.push (tenantDir artifactRoot tenantId) (Path.join names) := by
  obtain ⟨cleaned, hclean⟩ := h.accepted
  have hcleaned := (sanitizeRelativePath_eq_ok.mp hclean).2.2.2
  have hpath : sanitizeRelativePath (String.ofList (Path.join names)) = .ok (Path.join names) := by
    rw [sanitizeRelativePath_eq_ok, String.toList_ofList, Path.kept_join hne hnames,
      Path.components_join hnames]
    exact ⟨Path.isAbsolute_join hnames, by simp, hne, rfl⟩
  have hroot : tenantScopedArtifactRoot artifactRoot tenantId =
      .ok (tenantDir artifactRoot tenantId) := by
    rw [tenantScopedArtifactRoot, hclean, hcleaned]
    rfl
  have hslash : '\x00' ≠ '/' := by decide
  have hfile : '\x00' ∉ Path.push (tenantDir artifactRoot tenantId) (Path.join names) := by
    rw [Path.mem_push hslash (Path.isAbsolute_join hnames), tenantDir, ← hcleaned,
      Path.mem_push hslash (isAbsolute_sanitized hclean), tenantsDir,
      Path.mem_push hslash (by decide), hcleaned, Path.mem_join_kept_iff hslash (by decide)]
    simp [h.no_nul_root, h.no_nul_tenant, hnul]
  have hexec : ∃ written, executeObjectWriteAction willingEnv artifactRoot (tenantRun tenantId)
      (objectWriteArgs (Path.join names)) (Uuid.repeated 0) = .ok written ∧
      written.file = Path.push (tenantDir artifactRoot tenantId) (Path.join names) := by
    unfold executeObjectWriteAction
    rw [show ((objectWriteArgs (Path.join names)).get? "path").bind Json.asStr? =
        some (String.ofList (Path.join names)) from rfl,
      show ((objectWriteArgs (Path.join names)).get? "content").bind Json.asStr? = some "" from rfl]
    dsimp only
    rw [hpath]
    dsimp only
    unfold writeArtifact
    rw [show (tenantRun tenantId).tenantId = tenantId from rfl, hroot]
    dsimp only
    rw [if_neg (by simp [willingEnv]),
      if_neg (by simpa [ArtifactEnv.writeFile, willingEnv] using hfile)]
    exact ⟨_, rfl, rfl⟩
  obtain ⟨written, hwritten, hpath⟩ := hexec
  exact ⟨written, ⟨willingEnv, ⟨artifactRoot, [], []⟩, tenantRun tenantId, rfl, rfl,
    .objectWrite _ _ hwritten⟩, hpath⟩

/-- When the directories of one tenant start those of another, both can write the file. -/
theorem not_isolated_of_prefix (hleft : TenantUsable artifactRoot left)
    (hright : TenantUsable artifactRoot right)
    (hlead : Path.kept left.toList <+: Path.kept right.toList) :
    ¬ ArtifactsIsolated artifactRoot left right := by
  obtain ⟨rest, hrest⟩ := hlead
  obtain ⟨cleaned, hclean⟩ := hright.accepted
  have hx : ∀ part ∈ ["x".toList], IsName part :=
    forall_isName_cons (isName_literal "x" (by decide)) (fun _ h => absurd h List.not_mem_nil)
  have hnames : ∀ part ∈ rest ++ ["x".toList], IsName part := by
    intro part hpart
    rcases List.mem_append.mp hpart with hpart | hpart
    · exact isName_of_sanitized hclean part (by rw [← hrest]; exact List.mem_append_right _ hpart)
    · exact hx part hpart
  have hslash : '\x00' ≠ '/' := by decide
  have hnul : '\x00' ∉ Path.join (rest ++ ["x".toList]) := by
    rw [Path.mem_join_iff hslash]
    intro hex
    obtain ⟨part, hpart, hc⟩ := hex
    rcases List.mem_append.mp hpart with hpart | hpart
    · refine hright.no_nul_tenant ((Path.mem_join_kept_iff hslash (by decide)).mp ?_)
      refine (Path.mem_join_iff hslash).mpr ⟨part, ?_, hc⟩
      rw [← hrest]
      exact List.mem_append_right _ hpart
    · rw [List.mem_singleton.mp hpart] at hc
      exact absurd hc (by decide)
  obtain ⟨leftFile, hleftFile, hleftPath⟩ := exists_writtenFor hleft hnames (by simp) hnul
  obtain ⟨rightFile, hrightFile, hrightPath⟩ :=
    exists_writtenFor hright hx (List.cons_ne_nil _ _) (by decide)
  intro hisolated
  obtain ⟨leftDir, rightDir, _, _, hapart, hinLeft, hinRight⟩ :=
    hisolated.apart ⟨leftFile, hleftFile⟩ ⟨rightFile, hrightFile⟩
  have hsame : Path.components leftFile.file = Path.components rightFile.file := by
    rw [hleftPath, hrightPath, Path.components_push hnames, Path.components_push hx,
      components_tenantDir hleft, components_tenantDir hright, ← hrest]
    simp
  have hinRight' : Within rightDir leftFile.file := by
    rw [Within, hsame]
    exact hinRight rightFile hrightFile
  exact Path.not_apart_of_within (hinLeft leftFile hleftFile) hinRight' hapart

theorem ArtifactsIsolated.symm (h : ArtifactsIsolated artifactRoot left right) :
    ArtifactsIsolated artifactRoot right left := by
  constructor
  · intro hright hleft
    obtain ⟨leftDir, rightDir, hinLeft, hinRight, hapart, hleftFiles, hrightFiles⟩ :=
      h.apart hleft hright
    exact ⟨rightDir, leftDir, hinRight, hinLeft, ⟨hapart.2, hapart.1⟩, hrightFiles, hleftFiles⟩
  · exact fun written hwritten => h.inside written hwritten.symm

/-- The artifacts of two tenants are kept apart exactly when neither id, read as a list of
directories, starts the other. -/
theorem artifacts_isolated_iff (artifactRoot : PathBuf) (left right : String) :
    ArtifactsIsolated artifactRoot left right ↔ TenantDirsApart artifactRoot left right := by
  constructor
  · intro h hleft hright
    constructor
    · exact fun hlead => not_isolated_of_prefix hleft hright hlead h
    · exact fun hlead => not_isolated_of_prefix hright hleft hlead h.symm
  · exact isolated_of_dirsApart

theorem nested_tenants_share_files :
    ¬ ∀ (artifactRoot : PathBuf) (left right : String), left ≠ right →
      ArtifactsIsolated artifactRoot left right := by
  intro h
  have husable : ∀ tenantId ∈ ["acme", "acme/west"],
      TenantUsable "artifacts".toList tenantId := by
    intro tenantId hmem
    simp only [List.mem_cons, List.not_mem_nil, or_false] at hmem
    rcases hmem with rfl | rfl
    · exact ⟨⟨_, rfl⟩, by decide, by decide⟩
    · exact ⟨⟨_, rfl⟩, by decide, by decide⟩
  have hlead : Path.kept "acme".toList <+: Path.kept "acme/west".toList := by decide
  exact not_isolated_of_prefix (husable _ (by simp)) (husable _ (by simp)) hlead
    (h "artifacts".toList "acme" "acme/west" (by decide))

end Isolation

end Worker
end SecureAgnt

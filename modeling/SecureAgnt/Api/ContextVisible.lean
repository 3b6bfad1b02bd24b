/-
What an accepted mutation leaves, and what a load of the directory returns of it.

The path of a request is split, classified, checked against the role and the extension,
and read back by a scan that looks into two directories, not below them.  The theorem this
file exists for is `mutation_visible_iff`: the written file is one that the role may write
and is returned by the loader exactly where the path ends in no blank and names a file
right in one of the two directories that the scan can read.
-/
import SecureAgnt.Api.BootstrapStatus
import SecureAgnt.Api.TenantContext

namespace SecureAgnt
namespace Api

open SecureAgnt.Path (Component)

/-! ## Confined and visible -/

/-- The files that a role may write. -/
inductive RoleWrites : RolePreset → Names → Prop where
  | profile (name : String) (hname : name ∈ ["USER.md", "HEARTBEAT.md", "BOOTSTRAP.md"]) :
      RoleWrites .owner [name.toList]
  | longTerm (role : RolePreset) (hrole : role ≠ .viewer) : RoleWrites role ["MEMORY.md".toList]
  | memory (role : RolePreset) (name : List Char) (hrole : role ≠ .viewer)
      (hext : ".md".toList <:+ name) : RoleWrites role [memoryDir, name]
  | session (role : RolePreset) (name : List Char) (hrole : role ≠ .viewer)
      (hext : ".jsonl".toList <:+ name) : RoleWrites role [sessionsDir, name]

/-- The file is in one of the directories that the loader scans. -/
def InScanned (names : Names) : Prop :=
  names.head? = some memoryDir ∨ names.head? = some sessionsDir

/-- What the file holds after a mutation. -/
def ContextMutation.resulting (m : ContextMutation) (content : String) :
    Option Contents → Contents
  | none => .text (mutationPayload m.mode m.names content)
  | some old =>
    match m.mode with
    | .replace => .text (mutationPayload m.mode m.names content)
    | .append => old.append (mutationPayload m.mode m.names content)

/-- What was there is a prefix of what is there. -/
def Extends : Option Contents → Option Contents → Prop
  | none, _ => True
  | some (.text old), after => ∃ more, after = some (.text (old ++ more))
  | some (.binary old), after => ∃ more, after = some (.binary (old ++ more))

def fileSize (dir : SourceDir) (names : Names) : Nat :=
  ((dir.contents? names).map Contents.size).getD 0

/-- The sizes of all files that a load looks at. -/
def loadableBytes (config : AgentContextLoaderConfig) (dir : SourceDir) : Nat :=
  ((config.requiredFiles.map requiredNames).map (fileSize dir)).sum +
    ((dynamicNames dir memoryDir "md").map fun name => fileSize dir [memoryDir, name]).sum +
    ((dynamicNames dir sessionsDir "jsonl").map fun name => fileSize dir [sessionsDir, name]).sum

/-- A load does not exceed its limits. -/
structure WithinLimits (config : AgentContextLoaderConfig) (dir : SourceDir) : Prop where
  valid : validateLoaderConfig config = .ok ()
  memory : (dynamicNames dir memoryDir "md").length ≤ config.maxDynamicFilesPerDir
  sessions : (dynamicNames dir sessionsDir "jsonl").length ≤ config.maxDynamicFilesPerDir
  total : loadableBytes config dir ≤ config.maxTotalBytes

/-- A load returns the file as it is. -/
def Returns (config : AgentContextLoaderConfig) (dir : SourceDir) (names : Names) : Prop :=
  ∃ snapshot, loadAgentContextSnapshot config (some dir) = .ok snapshot ∧
    ∃ file ∈ snapshot.memoryFiles ++ snapshot.sessionFiles,
      file.relativePath = names.text ∧ dir.contents? names = some (.text file.content)

/-- One file of the agent's directory is written, which the role may write, and a load of
the directory returns it. -/
structure ConfinedAndVisible (srv : ContextServer) (tree tree' : Tree) (role : RolePreset)
    (path : List Char) (m : ContextMutation) (content : String) : Prop where
  inside : ∀ name ∈ m.names, Path.IsName name
  only : ∀ names, tree'.contents? names ≠ tree.contents? names →
    names = srv.placeOf path ++ m.names
  written : tree'.contents? (srv.placeOf path ++ m.names) =
    some (m.resulting content (tree.contents? (srv.placeOf path ++ m.names)))
  allowed : RoleWrites role m.names
  kept : m.names.head? = some sessionsDir → Extends
    (tree.contents? (srv.placeOf path ++ m.names)) (tree'.contents? (srv.placeOf path ++ m.names))
  returned : InScanned m.names → WithinLimits srv.loader (srv.sourceDir tree' path) →
    Returns srv.loader (srv.sourceDir tree' path) m.names

/-- The path ends in no blank, and a file in a scanned directory is right in it, has a name
with an extension and is none that bytes were appended to. -/
structure WellPlaced (srv : ContextServer) (tree tree' : Tree) (path : List Char)
    (m : ContextMutation) : Prop where
  plain : Text.trim m.names.text = m.names.text
  direct : InScanned m.names → m.names.length = 2
  readable : InScanned m.names → WithinLimits srv.loader (srv.sourceDir tree' path) →
    (∀ name ∈ m.names.getLast?, extension name ≠ none) ∧
      (m.mode = .append → ∀ bytes,
        tree.contents? (srv.placeOf path ++ m.names) ≠ some (.binary bytes))

/-! ## The names of a path -/

section Names

variable {names : Names} {raw : String}

theorem mutationNames_eq_ok {parts : List Component} (h : mutationNames parts = .ok names) :
    parts = names.map .normal := by
  induction parts generalizing names with
  | nil =>
    cases h
    rfl
  | cons part rest ih =>
    cases part with
    | normal name =>
      unfold mutationNames at h
      split at h
      · cases h
      cases hrest : mutationNames rest with
      | error e =>
        rw [hrest] at h
        cases h
      | ok others =>
        rw [hrest] at h
        cases h
        rw [List.map_cons, ih hrest]
    | rootDir => cases h
    | curDir => cases h
    | parentDir => cases h

theorem isName_of_normal_mem {path name : List Char}
    (h : .normal name ∈ Path.components path) : Path.IsName name := by
  unfold Path.components Path.start at h
  rcases List.mem_append.mp h with h | h
  · split at h
    · simp at h
    · split at h
      · simp at h
      · cases h
  · obtain ⟨part, hpart, hcomponent⟩ := List.mem_filterMap.mp h
    have hslash := Path.slash_notMem_of_mem_segments hpart
    unfold Path.component? at hcomponent
    split at hcomponent
    · cases hcomponent
    · cases hcomponent
    · cases hcomponent
    · rename_i hnil hdot hdots
      cases hcomponent
      exact ⟨hnil, hdot, hdots, hslash⟩

theorem isName_of_normalized (h : normalizeContextMutationPath raw = .ok names) :
    names ≠ [] ∧ ∀ name ∈ names, Path.IsName name := by
  unfold normalizeContextMutationPath at h
  simp only at h
  split at h
  · cases h
  split at h
  · cases h
  split at h
  · cases h
  · cases h
  · rename_i hsome hnames
    cases h
    refine ⟨hsome, ?_⟩
    intro name hname
    have hmem : .normal name ∈ Path.components (Text.trim raw).toList := by
      rw [mutationNames_eq_ok hnames]
      exact List.mem_map_of_mem hname
    exact isName_of_normal_mem hmem

theorem segments_text (hne : names ≠ []) (h : ∀ name ∈ names, Path.IsName name) :
    Path.segments names.text.toList = names := by
  rw [Names.text, String.toList_ofList]
  exact Path.segments_join (fun name hname => (h name hname).no_slash) hne

/-- A path that ends in no blank is normalised to itself. -/
theorem normalizeContextRelativePath_text (hne : names ≠ [])
    (h : ∀ name ∈ names, Path.IsName name) (hplain : Text.trim names.text = names.text) :
    normalizeContextRelativePath names.text = some names.text := by
  have habs : Path.isAbsolute names.text.toList = false := by
    rw [Names.text, String.toList_ofList]
    exact Path.isAbsolute_join h
  have hcomponents : Path.components names.text.toList = names.map .normal := by
    rw [Names.text, String.toList_ofList]
    exact Path.components_join h
  have hempty : Text.isEmpty names.text = false := by
    rw [Text.isEmpty, List.isEmpty_eq_false_iff]
    intro hnil
    have hsegments := segments_text hne h
    rw [hnil] at hsegments
    exact (h [] (hsegments ▸ by decide)).ne_nil rfl
  have hrequired : requiredNames names.text = names := by
    unfold requiredNames
    rw [hcomponents, List.filterMap_map]
    exact List.filterMap_some
  have hnormal : (names.map Component.normal).all isNormal = true := by
    rw [List.all_map]
    exact List.all_eq_true.mpr fun _ _ => rfl
  unfold normalizeContextRelativePath
  simp only [hplain, hempty, habs, hcomponents, hnormal, hrequired]
  simp [hne]

theorem names_of_text {name : String} (hne : names ≠ []) (h : ∀ name ∈ names, Path.IsName name)
    (hname : Path.IsName name.toList) (htext : names.text = name) : names = [name.toList] := by
  have hone := @segments_text [name.toList] (List.cons_ne_nil _ _) (by simpa using hname)
  have hsingle : Names.text [name.toList] = name := by
    rw [Names.text, Path.join, List.intercalate_singleton, String.ofList_toList]
  rw [← segments_text hne h, htext, ← hone, hsingle]

/-- A path that starts with a directory has it as its first name. -/
theorem names_of_startsWith {subdir : List Char} {start : String} (hne : names ≠ [])
    (h : ∀ name ∈ names, Path.IsName name) (hstart : start.toList = subdir ++ ['/'])
    (hsubdir : '/' ∉ subdir) (htext : Text.startsWith names.text start = true) :
    ∃ rest, names = subdir :: Path.segments rest ∧
      names.text.toList = subdir ++ '/' :: rest := by
  obtain ⟨rest, hrest⟩ := Text.startsWith_iff.mp htext
  rw [hstart, List.append_assoc, List.singleton_append] at hrest
  refine ⟨rest, ?_, hrest.symm⟩
  have hfirst : Path.segments subdir = [subdir] := List.splitOn_eq_singleton hsubdir
  rw [← segments_text hne h, ← hrest, Path.segments_append, hfirst]
  rfl

end Names

/-! ## What a role may write -/

section Roles

variable {names : Names} {role : RolePreset} {mutability : AgentContextMutability}

theorem not_inScanned_of_isName {name : String}
    (h : name.toList ≠ memoryDir ∧ name.toList ≠ sessionsDir) : ¬ InScanned [name.toList] := by
  rintro (hhead | hhead)
  · exact h.1 (Option.some.inj hhead)
  · exact h.2 (Option.some.inj hhead)

theorem trim_text_eq {names : Names} {first last : Char}
    (hhead : names.text.toList.head? = some first) (hlast : names.text.toList.getLast? = some last)
    (hfirst : Text.isWhitespace first = false) (hblank : Text.isWhitespace last = false) :
    Text.trim names.text = names.text := Text.trim_eq_self hhead hlast hfirst hblank

theorem toList_text_pair (subdir name : List Char) :
    (Names.text [subdir, name]).toList = subdir ++ '/' :: name := by
  rw [Names.text, String.toList_ofList]
  simp [Path.join]

/-- A name with an extension gives the path its last character. -/
theorem getLast?_text_pair {subdir name ext : List Char} {last : Char}
    (h : ext <:+ name) (hlast : ext.getLast? = some last) :
    (Names.text [subdir, name]).toList.getLast? = some last := by
  obtain ⟨stem, rfl⟩ := h
  have hext : ext ≠ [] := by
    intro hnil
    rw [hnil] at hlast
    cases hlast
  rw [toList_text_pair, ← List.cons_append, ← List.append_assoc,
    List.getLast?_append_of_ne_nil _ hext, hlast]

theorem RoleWrites.plain (h : RoleWrites role names) :
    Text.trim names.text = names.text ∧ (InScanned names → names.length = 2) := by
  cases h with
  | profile name hname =>
    have hplain : ∀ name ∈ ["USER.md", "HEARTBEAT.md", "BOOTSTRAP.md"],
        Text.trim (Names.text [name.toList]) = Names.text [name.toList] ∧
          name.toList ≠ memoryDir ∧ name.toList ≠ sessionsDir := by decide
    obtain ⟨htrim, hapart⟩ := hplain name hname
    exact ⟨htrim, fun hscanned => absurd hscanned (not_inScanned_of_isName hapart)⟩
  | longTerm role hrole =>
    have hapart : "MEMORY.md".toList ≠ memoryDir ∧ "MEMORY.md".toList ≠ sessionsDir := by decide
    exact ⟨by decide, fun hscanned => absurd hscanned (not_inScanned_of_isName hapart)⟩
  | memory role name hrole hext =>
    refine ⟨?_, fun _ => rfl⟩
    exact trim_text_eq (by rw [toList_text_pair]; rfl) (getLast?_text_pair hext rfl) (by decide)
      (by decide)
  | session role name hrole hext =>
    refine ⟨?_, fun _ => rfl⟩
    exact trim_text_eq (by rw [toList_text_pair]; rfl) (getLast?_text_pair hext rfl) (by decide)
      (by decide)

/-- A file of a scanned directory that a role may write. -/
theorem RoleWrites.scanned (h : RoleWrites role names) (hscanned : InScanned names) :
    ∃ subdir name ext, names = [subdir, name] ∧
      (subdir = memoryDir ∧ ext = "md" ∨ subdir = sessionsDir ∧ ext = "jsonl") ∧
      '.' :: ext.toList <:+ name := by
  cases h with
  | profile name hname =>
    have hapart : ∀ name ∈ ["USER.md", "HEARTBEAT.md", "BOOTSTRAP.md"],
        name.toList ≠ memoryDir ∧ name.toList ≠ sessionsDir := by decide
    exact absurd hscanned (not_inScanned_of_isName (hapart name hname))
  | longTerm => exact absurd hscanned (not_inScanned_of_isName (by decide))
  | memory role name hrole hext => exact ⟨memoryDir, name, "md", rfl, .inl ⟨rfl, rfl⟩, hext⟩
  | session role name hrole hext =>
    exact ⟨sessionsDir, name, "jsonl", rfl, .inr ⟨rfl, rfl⟩, hext⟩

/-- The extension of a path is that of its last name. -/
theorem suffix_of_endsWith {subdir name ext : List Char} (hslash : '/' ∉ ext)
    (h : ext <:+ subdir ++ '/' :: name) : ext <:+ name := by
  have hname : name <:+ subdir ++ '/' :: name := ⟨subdir ++ ['/'], by simp⟩
  rcases List.suffix_or_suffix_of_suffix h hname with hshort | hlong
  · exact hshort
  · obtain ⟨more, hmore⟩ := hlong
    cases hcases : more.reverse with
    | nil =>
      rw [List.reverse_eq_nil_iff] at hcases
      rw [← hmore, hcases]
      exact List.suffix_refl _
    | cons c others =>
      exfalso
      have hsplit : more = others.reverse ++ [c] := by
        rw [← List.reverse_reverse more, hcases, List.reverse_cons]
      obtain ⟨front, hfront⟩ := h
      rw [← hmore, ← List.append_assoc, hsplit] at hfront
      have hwhole : front ++ (others.reverse ++ [c]) ++ name = subdir ++ ['/'] ++ name := by
        rw [hfront, List.append_assoc, List.singleton_append]
      have hcut := List.append_cancel_right hwhole
      rw [← List.append_assoc] at hcut
      have hc : c = '/' := by
        have hlast := congrArg List.getLast? hcut
        simpa using hlast
      refine hslash ?_
      rw [← hmore, hsplit, hc]
      simp

/-- A supported path of a scanned directory, of two names. -/
theorem roleWrites_of_scanned (subdir : List Char) {start ext : String}
    (hne : names ≠ []) (hnames : ∀ name ∈ names, Path.IsName name)
    (hstart : start.toList = subdir ++ ['/']) (hsubdir : '/' ∉ subdir) (hslash : '/' ∉ ext.toList)
    (htext : (Text.startsWith names.text start && Text.endsWith names.text ext) = true)
    (hlength : names.head? = some subdir → names.length = 2) :
    ∃ name, names = [subdir, name] ∧ ext.toList <:+ name := by
  obtain ⟨hstarts, hends⟩ := Bool.and_eq_true_iff.mp htext
  obtain ⟨rest, heq, hlist⟩ := names_of_startsWith hne hnames hstart hsubdir hstarts
  have htwo := hlength (by rw [heq]; rfl)
  have hone : (Path.segments rest).length = 1 := by
    rw [heq, List.length_cons] at htwo
    omega
  obtain ⟨name, hname⟩ := List.length_eq_one_iff.mp hone
  have hrest : rest = name := by
    rw [← Path.join_segments rest, hname, Path.join, List.intercalate_singleton]
  refine ⟨name, by rw [heq, hname], ?_⟩
  have hsuffix : ext.toList <:+ names.text.toList := List.isSuffixOf_iff_suffix.mp hends
  rw [hlist, hrest] at hsuffix
  exact suffix_of_endsWith hslash hsuffix

/-- An accepted path is one that the role may write exactly where it is plain. -/
theorem roleWrites_iff (hne : names ≠ []) (hnames : ∀ name ∈ names, Path.IsName name)
    (hsupported : classifyMutability names.text = some mutability)
    (hrole : ensureContextMutationRole role mutability = .ok ()) :
    RoleWrites role names ↔
      Text.trim names.text = names.text ∧ (InScanned names → names.length = 2) := by
  refine ⟨RoleWrites.plain, ?_⟩
  rintro ⟨hplain, hlength⟩
  have hviewer : ensureMemoryWriteRole role = .ok () → role ≠ .viewer := by
    intro hok heq
    rw [ensureMemoryWriteRole, if_pos heq] at hok
    cases hok
  unfold classifyMutability at hsupported
  rw [normalizeContextRelativePath_text hne hnames hplain] at hsupported
  simp only at hsupported
  split at hsupported
  · cases hsupported
    cases hrole
  split at hsupported
  · rename_i hmem
    cases hsupported
    have howner : role = .owner := by
      unfold ensureContextMutationRole ensureOwnerRole at hrole
      by_contra hother
      rw [if_neg hother] at hrole
      cases hrole
    have hisName : ∀ name ∈ ["USER.md", "HEARTBEAT.md", "BOOTSTRAP.md"],
        Path.IsName name.toList := by
      intro name hname
      simp only [List.mem_cons, List.not_mem_nil, or_false] at hname
      rcases hname with rfl | rfl | rfl
      all_goals exact ⟨by decide, by decide, by decide, by decide⟩
    rw [names_of_text hne hnames (hisName _ hmem) rfl, howner]
    exact .profile _ hmem
  split at hsupported
  · rename_i htext
    cases hsupported
    rw [names_of_text hne hnames ⟨by decide, by decide, by decide, by decide⟩ htext]
    exact .longTerm role (hviewer hrole)
  split at hsupported
  · rename_i htext
    cases hsupported
    obtain ⟨name, rfl, hext⟩ := roleWrites_of_scanned memoryDir hne hnames (by decide)
      (by decide) (by decide) htext fun hhead => hlength (.inl hhead)
    exact .memory role name (hviewer hrole) hext
  split at hsupported
  · rename_i htext
    cases hsupported
    obtain ⟨name, rfl, hext⟩ := roleWrites_of_scanned sessionsDir hne hnames (by decide)
      (by decide) (by decide) htext fun hhead => hlength (.inr hhead)
    exact .session role name (hviewer hrole) hext
  · cases hsupported

end Roles

/-! ## What is written -/

section Written

variable {env : ContextEnv} {dir : SourceDir} {m : ContextMutation} {content : String} {bytes : Nat}

theorem resulting_append (hmode : m.mode = .append) :
    m.resulting content (dir.contents? m.names) =
      dir.appended m.names (mutationPayload m.mode m.names content) := by
  unfold ContextMutation.resulting SourceDir.appended
  cases dir.contents? m.names with
  | none => rfl
  | some old => simp only [hmode]

theorem resulting_replace (hmode : m.mode = .replace) (old : Option Contents) :
    m.resulting content old = .text (mutationPayload m.mode m.names content) := by
  unfold ContextMutation.resulting
  cases old with
  | none => rfl
  | some old => simp only [hmode]

/-- A mutation that succeeds writes its file, which fits. -/
theorem applyMutation_ok (h : (applyMutation env dir m content).1 = .ok bytes) :
    Wrote dir m.names (m.resulting content (dir.contents? m.names))
        (applyMutation env dir m content).2 ∧
      (m.resulting content (dir.contents? m.names)).size ≤ env.loader.maxFileBytes := by
  unfold applyMutation at h ⊢
  cases hcreate : createContextDirectory env dir m.names with
  | error e =>
    rw [hcreate] at h
    cases h
  | ok made =>
    have hsame := contents?_createContextDirectory hcreate
    rw [hcreate] at h
    cases hmode : m.mode with
    | replace =>
      rw [resulting_replace hmode, hmode]
      simp only [hmode] at h ⊢
      split at h
      · cases h
      rename_i hlen
      rw [if_neg hlen]
      split at h
      · cases h
      rename_i dir' hwrite
      refine ⟨(wrote_writeMutation_replace hwrite).of_same hsame, ?_⟩
      show Text.len _ ≤ _
      omega
    | append =>
      rw [resulting_append hmode, hmode]
      simp only [hmode] at h ⊢
      split at h
      · cases h
      rename_i hlen
      rw [if_neg hlen]
      split at h
      · cases h
      rename_i dir' hwrite
      obtain ⟨hwrote, hsize⟩ := wrote_writeMutation_append hwrite
      rw [appended_congr hsame] at hwrote hsize
      rw [hsize]
      exact ⟨hwrote.of_same hsame, by omega⟩

theorem extends_append (old : Option Contents) (hmode : m.mode = .append) :
    Extends old (some (m.resulting content old)) := by
  unfold ContextMutation.resulting
  cases old with
  | none => trivial
  | some old =>
    simp only [hmode]
    cases old with
    | text s => exact ⟨_, rfl⟩
    | binary bytes => exact ⟨_, rfl⟩

/-- The result is a text unless bytes were appended to. -/
theorem resulting_text_iff (content : String) (old : Option Contents) :
    (∃ text, m.resulting content old = .text text) ↔
      (m.mode = .append → ∀ bytes, old ≠ some (.binary bytes)) := by
  cases hmode : m.mode with
  | replace =>
    rw [resulting_replace hmode]
    exact iff_of_true ⟨_, rfl⟩ fun h => (nomatch h)
  | append =>
    unfold ContextMutation.resulting
    cases old with
    | none => exact iff_of_true ⟨_, rfl⟩ fun _ _ h => (nomatch h)
    | some old =>
      simp only [hmode]
      cases old with
      | text s => exact iff_of_true ⟨_, rfl⟩ fun _ _ h => (nomatch h)
      | binary bytes =>
        refine iff_of_false ?_ fun h => h trivial bytes rfl
        intro h
        obtain ⟨text, htext⟩ := h
        cases htext

end Written

/-! ## What the loader returns -/

section Returned

variable {config : AgentContextLoaderConfig} {dir : SourceDir} {s : Loading}
  {subdir name : List Char} {ext : String}

theorem extension_of_suffix {ext : List Char} (hdot : '.' ∉ ext) (h : '.' :: ext <:+ name) :
    extension name = none ∨ extension name = some ext := by
  obtain ⟨stem, rfl⟩ := h
  have htake : ((stem ++ '.' :: ext).reverse.takeWhile (· ≠ '.')).reverse = ext := by
    have hall : ∀ c ∈ ext.reverse, decide (c ≠ '.') = true := by
      intro c hc
      rw [decide_eq_true_iff]
      rintro rfl
      exact hdot (List.mem_reverse.mp hc)
    rw [List.reverse_append, List.reverse_cons, List.append_assoc,
      List.takeWhile_append_of_pos hall]
    simp
  unfold extension
  simp only [htake]
  split
  · exact .inr rfl
  · exact .inl rfl

theorem extension_of_mem_dynamicNames (h : name ∈ dynamicNames dir subdir ext) :
    (extension name).any (fun e => Text.eqIgnoreAsciiCase (String.ofList e) ext) = true := by
  obtain ⟨entry, _, hname⟩ := List.mem_filterMap.mp ((List.mem_insertionSort _).mp h)
  unfold dynamicName? at hname
  split at hname
  · split at hname
    · rename_i hcond
      cases hname
      exact hcond.2
    · cases hname
  · cases hname

theorem loadContextFile_bytes (config : AgentContextLoaderConfig) (dir : SourceDir) (s : Loading)
    (names : Names) (slot relativePath : String) :
    (loadContextFile config dir names slot relativePath s).2.loadedBytes ≤
      s.loadedBytes + fileSize dir names := by
  unfold loadContextFile fileSize SourceDir.contents?
  cases dir.node? names with
  | none => exact Nat.le_add_right _ _
  | some node =>
    cases node with
    | dir => exact Nat.le_add_right _ _
    | file contents =>
      simp only
      split
      · exact Nat.le_add_right _ _
      split
      · exact Nat.le_add_right _ _
      · cases contents with
        | text content => exact Nat.le_refl _
        | binary bytes => exact Nat.le_add_right _ _

theorem loadContextFiles_bytes (config : AgentContextLoaderConfig) (dir : SourceDir) (s : Loading)
    (entries : List (Names × String × String)) :
    (loadContextFiles config dir s entries).2.loadedBytes ≤
      s.loadedBytes + (entries.map fun entry => fileSize dir entry.1).sum := by
  induction entries generalizing s with
  | nil => exact Nat.le_refl _
  | cons entry rest ih =>
    obtain ⟨names, slot, relativePath⟩ := entry
    have hfirst := loadContextFile_bytes config dir s names slot relativePath
    have hrest := ih (loadContextFile config dir names slot relativePath s).2
    rw [List.map_cons, List.sum_cons]
    show (loadContextFiles config dir (loadContextFile config dir names slot relativePath s).2
      rest).2.loadedBytes ≤ s.loadedBytes + (fileSize dir names + _)
    omega

/-- Where all files together fit, a text that fits is loaded. -/
theorem mem_loadContextFiles_of_room {entries : List (Names × String × String)} {content : String}
    {entry : Names × String × String} (hentry : entry ∈ entries)
    (h : dir.contents? entry.1 = some (.text content))
    (hfile : Text.len content ≤ config.maxFileBytes)
    (htotal : s.loadedBytes + (entries.map fun entry => fileSize dir entry.1).sum ≤
      config.maxTotalBytes) :
    some ⟨entry.2.1, entry.2.2, Text.len content, content⟩ ∈
      (loadContextFiles config dir s entries).1 := by
  induction entries generalizing s with
  | nil => cases hentry
  | cons first rest ih =>
    obtain ⟨names, slot, relativePath⟩ := first
    rw [List.map_cons, List.sum_cons] at htotal
    rcases List.mem_cons.mp hentry with heq | hmem
    · subst heq
      have hsize : fileSize dir names = Text.len content := by
        rw [fileSize, h]
        rfl
      have hroom : s.loadedBytes + Text.len content ≤ config.maxTotalBytes := by
        simp only at htotal
        omega
      show _ ∈ (loadContextFile config dir names slot relativePath s).1 :: _
      rw [loadContextFile_of_room h hfile hroom]
      exact List.mem_cons_self
    · have hfirst := loadContextFile_bytes config dir s names slot relativePath
      refine List.mem_cons_of_mem _ (ih hmem ?_)
      simp only at htotal
      omega

/-- The sizes of the files that a scan of a directory lists. -/
def scannedBytes (dir : SourceDir) (subdir : List Char) (ext : String) : Nat :=
  ((dynamicNames dir subdir ext).map fun name => fileSize dir [subdir, name]).sum

theorem sum_dynamicEntries (dir : SourceDir) (subdir : List Char) (slotPrefix : String)
    (names : List (List Char)) :
    ((names.map (dynamicEntry subdir slotPrefix)).map fun entry => fileSize dir entry.1).sum =
      (names.map fun name => fileSize dir [subdir, name]).sum := by
  rw [List.map_map]
  rfl

theorem loadDynamicContextFiles_bytes (config : AgentContextLoaderConfig) (slotPrefix : String)
    (s : Loading) (hcount : (dynamicNames dir subdir ext).length ≤ config.maxDynamicFilesPerDir) :
    (loadDynamicContextFiles config dir subdir ext slotPrefix s).2.loadedBytes ≤
      s.loadedBytes + scannedBytes dir subdir ext := by
  have hbytes := loadContextFiles_bytes config dir s
    (((dynamicNames dir subdir ext).take config.maxDynamicFilesPerDir).map
      (dynamicEntry subdir slotPrefix))
  rw [sum_dynamicEntries, List.take_of_length_le hcount] at hbytes
  unfold loadDynamicContextFiles scannedBytes
  rw [List.take_of_length_le hcount]
  exact hbytes

theorem mem_loadDynamicContextFiles_of_room (slotPrefix : String) {content : String}
    (hname : name ∈ dynamicNames dir subdir ext)
    (hcount : (dynamicNames dir subdir ext).length ≤ config.maxDynamicFilesPerDir)
    (h : dir.contents? [subdir, name] = some (.text content))
    (hfile : Text.len content ≤ config.maxFileBytes)
    (htotal : s.loadedBytes + scannedBytes dir subdir ext ≤ config.maxTotalBytes) :
    ∃ file ∈ (loadDynamicContextFiles config dir subdir ext slotPrefix s).1,
      file.relativePath = Names.text [subdir, name] ∧ file.content = content := by
  have hentry : dynamicEntry subdir slotPrefix name ∈
      (dynamicNames dir subdir ext).map (dynamicEntry subdir slotPrefix) :=
    List.mem_map_of_mem hname
  have hroom : s.loadedBytes + (((dynamicNames dir subdir ext).map
      (dynamicEntry subdir slotPrefix)).map fun entry => fileSize dir entry.1).sum ≤
        config.maxTotalBytes := by
    rw [sum_dynamicEntries]
    exact htotal
  have hmem := mem_loadContextFiles_of_room hentry h hfile hroom
  refine ⟨⟨slotPrefix ++ ":" ++ Names.text [subdir, name], Names.text [subdir, name],
    Text.len content, content⟩, List.mem_filterMap.mpr ⟨_, ?_, rfl⟩, rfl, rfl⟩
  rw [List.take_of_length_le hcount]
  exact hmem

/-- What a scan returns is listed. -/
theorem mem_dynamicNames_of_returned {slotPrefix : String} {file : AgentContextFile}
    (h : file ∈ (loadDynamicContextFiles config dir subdir ext slotPrefix s).1) :
    ∃ name ∈ dynamicNames dir subdir ext, file.relativePath = Names.text [subdir, name] := by
  obtain ⟨file?, hmem, hfile⟩ := List.mem_filterMap.mp h
  rw [id_eq] at hfile
  rw [hfile] at hmem
  obtain ⟨entry, hentry, hfound, _⟩ := mem_loadContextFiles hmem
  obtain ⟨name, hname, rfl⟩ := List.mem_map.mp hentry
  exact ⟨name, List.mem_of_mem_take hname, hfound⟩

theorem text_pair_inj {subdir' name' : List Char} (hslash : '/' ∉ subdir) (hslash' : '/' ∉ subdir')
    (h : Names.text [subdir, name] = Names.text [subdir', name']) :
    subdir = subdir' ∧ name = name' := by
  have hlist := congrArg String.toList h
  rw [toList_text_pair, toList_text_pair] at hlist
  have hsegments := congrArg Path.segments hlist
  have hone : ∀ part : List Char, '/' ∉ part → Path.segments part = [part] :=
    fun part hpart => List.splitOn_eq_singleton hpart
  rw [Path.segments_append, Path.segments_append, hone _ hslash, hone _ hslash',
    List.singleton_append, List.singleton_append] at hsegments
  have hsubdir := (List.cons.inj hsegments).1
  rw [hsubdir] at hlist
  exact ⟨hsubdir, (List.cons.inj (List.append_cancel_left hlist)).2⟩

/-- The two lists of a snapshot. -/
theorem snapshot_of_valid (dir : SourceDir) (hvalid : validateLoaderConfig config = .ok ()) :
    ∃ snapshot, loadAgentContextSnapshot config (some dir) = .ok snapshot ∧
      snapshot.memoryFiles = (loadBeforeSessions config dir).2.1 ∧
      snapshot.sessionFiles = (loadDynamicContextFiles config dir sessionsDir "jsonl" "session"
        (loadBeforeSessions config dir).2.2).1 := by
  unfold loadAgentContextSnapshot
  rw [hvalid]
  exact ⟨_, rfl, rfl, rfl⟩

/-- Within the limits there is room for both scans. -/
theorem WithinLimits.room (h : WithinLimits config dir) :
    ∃ s, loadBeforeSessions config dir = ⟨(loadContextFiles config dir ⟨0, []⟩
        (config.requiredFiles.map fun file => (requiredNames file, file, file))).1,
        loadDynamicContextFiles config dir memoryDir "md" "memory" s⟩ ∧
      s.loadedBytes + scannedBytes dir memoryDir "md" ≤ config.maxTotalBytes ∧
      (loadBeforeSessions config dir).2.2.loadedBytes + scannedBytes dir sessionsDir "jsonl" ≤
        config.maxTotalBytes := by
  have htotal := h.total
  unfold loadableBytes at htotal
  have hrequired : (loadContextFiles config dir ⟨0, []⟩ (config.requiredFiles.map fun file =>
      (requiredNames file, file, file))).2.loadedBytes ≤
        0 + ((config.requiredFiles.map requiredNames).map (fileSize dir)).sum := by
    have hbytes := loadContextFiles_bytes config dir ⟨0, []⟩
      (config.requiredFiles.map fun file => (requiredNames file, file, file))
    rw [List.map_map] at hbytes
    rw [List.map_map]
    exact hbytes
  have hmemory := loadDynamicContextFiles_bytes config "memory" (loadContextFiles config dir ⟨0, []⟩
    (config.requiredFiles.map fun file => (requiredNames file, file, file))).2 h.memory
  refine ⟨_, rfl, ?_, ?_⟩
  · unfold scannedBytes
    omega
  · show (loadDynamicContextFiles config dir memoryDir "md" "memory" _).2.loadedBytes + _ ≤ _
    unfold scannedBytes at hmemory ⊢
    omega

theorem any_extension {ext : String} (hdot : '.' ∉ ext.toList) (h : '.' :: ext.toList <:+ name)
    (hsome : extension name ≠ none) :
    (extension name).any (fun e => Text.eqIgnoreAsciiCase (String.ofList e) ext) = true := by
  rcases extension_of_suffix hdot h with hnone | hext
  · exact absurd hnone hsome
  · rw [hext, Option.any_some, String.ofList_toList]
    exact beq_self_eq_true _

theorem extension_of_returned (h : Returns config dir [subdir, name]) (hslash : '/' ∉ subdir) :
    extension name ≠ none ∧ ∃ text, dir.contents? [subdir, name] = some (.text text) := by
  obtain ⟨snapshot, hload, file, hfile, hrel, hcontents⟩ := h
  refine ⟨?_, file.content, hcontents⟩
  have hvalid : validateLoaderConfig config = .ok () := by
    unfold loadAgentContextSnapshot at hload
    split at hload
    · cases hload
    · assumption
  obtain ⟨snapshot', hload', hmemory, hsessions⟩ := snapshot_of_valid dir hvalid
  rw [hload, Except.ok.injEq] at hload'
  rw [hload', hmemory, hsessions] at hfile
  have hlisted : ∀ {subdir' : List Char} {ext : String} {names : List (List Char)},
      names = dynamicNames dir subdir' ext → '/' ∉ subdir' →
      (∃ name' ∈ names, file.relativePath = Names.text [subdir', name']) →
      extension name ≠ none := by
    intro subdir' ext names hnames hslash' h hnone
    obtain ⟨name', hname', hrel'⟩ := h
    rw [hrel] at hrel'
    obtain ⟨_, rfl⟩ := text_pair_inj hslash hslash' hrel'
    have hany := extension_of_mem_dynamicNames (hnames ▸ hname')
    rw [hnone] at hany
    cases hany
  rcases List.mem_append.mp hfile with hmem | hmem
  · exact hlisted rfl (by decide) (mem_dynamicNames_of_returned hmem)
  · exact hlisted rfl (by decide) (mem_dynamicNames_of_returned hmem)

/-- Within the limits a file of a scanned directory is returned where it has an extension and
is a text. -/
theorem returns_iff (hlimits : WithinLimits config dir) {ext : String}
    (hscan : subdir = memoryDir ∧ ext = "md" ∨ subdir = sessionsDir ∧ ext = "jsonl")
    (hext : '.' :: ext.toList <:+ name) {contents : Contents}
    (hthere : dir.contents? [subdir, name] = some contents)
    (hfile : contents.size ≤ config.maxFileBytes) :
    Returns config dir [subdir, name] ↔
      extension name ≠ none ∧ ∃ text, contents = .text text := by
  have hslash : '/' ∉ subdir := by
    rcases hscan with ⟨rfl, _⟩ | ⟨rfl, _⟩
    · decide
    · decide
  constructor
  · intro h
    obtain ⟨hsome, text, htext⟩ := extension_of_returned h hslash
    rw [hthere, Option.some.injEq] at htext
    exact ⟨hsome, text, htext⟩
  · rintro ⟨hsome, text, rfl⟩
    obtain ⟨snapshot, hload, hmemory, hsessions⟩ := snapshot_of_valid dir hlimits.valid
    obtain ⟨s, hbefore, hroom, hroom'⟩ := hlimits.room
    refine ⟨snapshot, hload, ?_⟩
    have hdot : '.' ∉ ext.toList := by
      rcases hscan with ⟨_, rfl⟩ | ⟨_, rfl⟩
      · decide
      · decide
    have hlisted := mem_dynamicNames hthere (any_extension hdot hext hsome)
    rcases hscan with ⟨rfl, rfl⟩ | ⟨rfl, rfl⟩
    · obtain ⟨file, hmem, hrel, hcontent⟩ := mem_loadDynamicContextFiles_of_room
        "memory" hlisted hlimits.memory hthere hfile hroom
      refine ⟨file, List.mem_append_left _ ?_, hrel, hcontent ▸ hthere⟩
      rw [hmemory, hbefore]
      exact hmem
    · obtain ⟨file, hmem, hrel, hcontent⟩ := mem_loadDynamicContextFiles_of_room
        "session" hlisted hlimits.sessions hthere hfile hroom'
      refine ⟨file, List.mem_append_right _ ?_, hrel, hcontent ▸ hthere⟩
      rw [hsessions]
      exact hmem

end Returned

/-! ## Accepted mutations -/

section Accepted

variable {srv : ContextServer} {tree made : Tree} {agentId : Uuid} {headers : HeaderMap}
  {req : MutateAgentContextRequest} {response : AgentContextMutationResponse}
  {role : RolePreset} {m : ContextMutation} {path : List Char} {env : ContextEnv}

theorem checkMutation_role (hrole : roleFromHeaders env.state headers = .ok role)
    (h : checkMutation env headers req = .ok m) :
    ensureContextMutationRole role m.mutability = .ok () := by
  unfold checkMutation at h
  simp only [bind, Except.bind, hrole] at h
  split at h
  · cases h
  split at h
  · cases h
  split at h
  · cases h
  split at h
  · cases h
  split at h
  · cases h
  split at h
  · cases h
  · rename_i hok
    split at h
    · cases h
    · cases h
      exact hok

/-- What an accepted mutation has done. -/
theorem mutate_accepted
    (hcheck : checkMutation (srv.contextEnv "" agentId) headers req = .ok m)
    (hpath : srv.resolveOrCreateSourceDir tree m.tenantId agentId = (.ok path, made))
    (hok : (srv.mutate tree agentId headers req).1 = .ok response) :
    (srv.mutate tree agentId headers req).2 = made.mutated (srv.placeOf path) path
        (srv.contextEnv m.tenantId agentId) m req.content ∧
      ∃ bytes, (applyMutation (srv.contextEnv m.tenantId agentId)
        (made.below (srv.placeOf path) path) m req.content).1 = .ok bytes := by
  have hstate : (srv.contextEnv "" agentId).state = (srv.contextEnv m.tenantId agentId).state := rfl
  have hcheck' := checkMutation_congr hstate ▸ hcheck
  unfold ContextServer.mutate at hok ⊢
  rw [hcheck] at hok ⊢
  simp only at hok ⊢
  unfold ContextServer.mutateSourceDir at hok ⊢
  rw [hpath] at hok ⊢
  simp only [mutateAgentContext, hcheck', Option.getD_some] at hok ⊢
  refine ⟨rfl, ?_⟩
  unfold ContextServer.sourceDir at hok
  generalize (applyMutation (srv.contextEnv m.tenantId agentId)
    (made.below (srv.placeOf path) path) m req.content).1 = result at hok ⊢
  cases result with
  | error e => cases hok
  | ok bytes => exact ⟨bytes, rfl⟩

/-- One file of the tree is written, and it fits. -/
structure FileWritten (srv : ContextServer) (tree tree' : Tree) (path : List Char)
    (m : ContextMutation) (content : String) : Prop where
  only : ∀ names, tree'.contents? names ≠ tree.contents? names →
    names = srv.placeOf path ++ m.names
  written : tree'.contents? (srv.placeOf path ++ m.names) =
    some (m.resulting content (tree.contents? (srv.placeOf path ++ m.names)))
  fits : (m.resulting content (tree.contents? (srv.placeOf path ++ m.names))).size ≤
    srv.loader.maxFileBytes

theorem contents?_below {here rest : Names} (hrest : rest ≠ []) (path : List Char) :
    (tree.below here path).contents? rest = tree.contents? (here ++ rest) := by
  unfold SourceDir.contents? Tree.contents?
  rcases hnode : tree.node? (here ++ rest) with _ | ⟨contents⟩ | _
  all_goals simp only [node?_below hrest, hnode]

theorem contents?_graft_below {here rest : Names} {dir : SourceDir} (hrest : rest ≠ []) :
    (tree.graft here dir).contents? (here ++ rest) = dir.contents? rest := by
  unfold SourceDir.contents? Tree.contents?
  rcases hnode : dir.node? rest with _ | ⟨contents⟩ | _
  all_goals simp only [node?_graft_below hrest, hnode]

theorem mutate_written
    (hcheck : checkMutation (srv.contextEnv "" agentId) headers req = .ok m)
    (hpath : srv.resolveOrCreateSourceDir tree m.tenantId agentId = (.ok path, made))
    (hok : (srv.mutate tree agentId headers req).1 = .ok response) :
    FileWritten srv tree (srv.mutate tree agentId headers req).2 path m req.content := by
  obtain ⟨htree, bytes, happly⟩ := mutate_accepted hcheck hpath hok
  obtain ⟨hne, _⟩ := isName_of_normalized (checkMutation_spec hcheck).path
  obtain ⟨hwrote, hfits⟩ := applyMutation_ok happly
  have hmade : ∀ names, made.contents? names = tree.contents? names := by
    have hdirs := madeDirs_resolveOrCreate srv tree m.tenantId agentId
    rw [hpath] at hdirs
    exact hdirs.contents
  rw [contents?_below hne, hmade] at hwrote hfits
  rw [htree]
  refine ⟨?_, ?_, hfits⟩
  · intro names hchanged
    by_contra hother
    refine hchanged ?_
    rw [← hmade]
    rcases after_cases (srv.placeOf path) names with hnone | ⟨rest, hrest, rfl⟩
    · exact contents?_eq_of_node? (node?_graft_elsewhere hnone)
    · unfold Tree.mutated
      rw [contents?_graft_below hrest, hwrote.elsewhere rest fun heq => hother (heq ▸ rfl),
        contents?_below hrest]
  · unfold Tree.mutated
    rw [contents?_graft_below hne, hwrote.there]

/-- A load returns the written file of a scanned directory where it can be read. -/
theorem returns_written_iff {tree' : Tree} {content : String}
    (hwritten : FileWritten srv tree tree' path m content)
    (hallowed : RoleWrites role m.names) (hscanned : InScanned m.names)
    (hlimits : WithinLimits srv.loader (srv.sourceDir tree' path)) :
    Returns srv.loader (srv.sourceDir tree' path) m.names ↔
      (∀ name ∈ m.names.getLast?, extension name ≠ none) ∧
        (m.mode = .append → ∀ bytes,
          tree.contents? (srv.placeOf path ++ m.names) ≠ some (.binary bytes)) := by
  obtain ⟨_, hthere, hfits⟩ := hwritten
  rw [← resulting_text_iff content]
  obtain ⟨subdir, name, ext, hnames, hscan, hext⟩ := hallowed.scanned hscanned
  have hlast : (∀ last ∈ m.names.getLast?, extension last ≠ none) ↔ extension name ≠ none := by
    rw [hnames]
    simp
  rw [hlast]
  have hdir : (srv.sourceDir tree' path).contents? m.names =
      some (m.resulting content (tree.contents? (srv.placeOf path ++ m.names))) := by
    unfold ContextServer.sourceDir
    rw [contents?_below (by rw [hnames]; simp), hthere]
  generalize m.resulting content (tree.contents? (srv.placeOf path ++ m.names)) = contents
    at hdir hfits
  rw [hnames] at hdir ⊢
  exact returns_iff hlimits hscan hext hdir hfits

end Accepted

/-! ## Where the next load works -/

section Resolved

variable {srv : ContextServer} {tree tree' made : Tree} {tenantId : String} {agentId : Uuid}
  {m : ContextMutation} {path : List Char}

theorem reaches_of_makeDirs {b : Bool} {here : Names} {parts : List Component}
    (h : tree.makeDirs b here parts = (none, tree')) : tree'.reaches here parts = true := by
  induction parts generalizing tree b here with
  | nil => rfl
  | cons part rest ih =>
    have hdirs := fun tree b => (madeDirs_makeDirs tree b (stepTo here part) rest).dirs
    unfold Tree.makeDirs at h
    simp only at h
    refine Bool.and_eq_true_iff.mpr ?_
    split at h
    · rename_i hdir
      have hkept := hdirs tree b
      rw [h] at hkept
      exact ⟨hkept _ hdir, ih h⟩
    · split at h
      · cases h
      · have hkept := hdirs (tree.put (stepTo here part) .dir) true
        rw [h] at hkept
        refine ⟨hkept _ (isDirAt_iff.mpr (.inr ?_)), ih h⟩
        rw [node?_put, if_pos rfl]

/-- A directory that is there or is made has every directory on its way. -/
theorem isDir_resolveOrCreate
    (hpath : srv.resolveOrCreateSourceDir tree tenantId agentId = (.ok path, made)) :
    srv.isDir made path = true := by
  unfold ContextServer.resolveOrCreateSourceDir at hpath
  split at hpath
  · rename_i hresolved
    cases hpath
    unfold ContextServer.resolveSourceDir at hresolved
    split at hresolved
    · rename_i hown
      cases hresolved
      exact hown
    · split at hresolved
      · rename_i hshared
        cases hresolved
        exact hshared
      · cases hresolved
  · simp only at hpath
    split at hpath
    · rename_i hmakes
      cases hpath
      exact reaches_of_makeDirs hmakes
    · cases hpath

theorem isDir_tenantAgent_iff (h : OneName tenantId) :
    srv.isDir tree (srv.tenantAgent tenantId agentId) = true ↔
      tree.reaches srv.cwd (Path.components srv.rootDir) = true ∧
        tree.isDirAt (srv.root ++ [(Text.trim tenantId).toList]) = true ∧
        tree.isDirAt (srv.root ++ [(Text.trim tenantId).toList, agentId.text.toList]) = true := by
  have hlast : srv.root ++ [(Text.trim tenantId).toList, agentId.text.toList] =
      srv.root ++ [(Text.trim tenantId).toList] ++ [agentId.text.toList] := by
    rw [List.append_assoc, List.singleton_append]
  unfold ContextServer.isDir
  rw [components_tenantAgent h, reaches_append, Bool.and_eq_true, hlast]
  simp only [Tree.reaches, Bool.and_true, Bool.and_eq_true]
  rfl

theorem reaches_root_of_flatAgent (h : srv.isDir tree (srv.flatAgent agentId) = true) :
    tree.reaches srv.cwd (Path.components srv.rootDir) = true := by
  have hname := isName_text agentId
  have hpush := @Path.components_push [agentId.text.toList] (by simpa using hname) srv.rootDir
  rw [Path.join, List.intercalate_singleton] at hpush
  unfold ContextServer.isDir ContextServer.flatAgent at h
  rw [hpush, reaches_append] at h
  exact (Bool.and_eq_true_iff.mp h).1

/-- A file written in the shared directory makes none for the tenant. -/
theorem node?_mutated_shared {env : ContextEnv} {content : String} {names : Names}
    (hsupported : classifyMutability m.names.text = some m.mutability)
    (hnames : names = [(Text.trim tenantId).toList] ∨
      names = [(Text.trim tenantId).toList, agentId.text.toList]) :
    (tree.mutated (srv.sharedDir agentId) path env m content).node? (srv.root ++ names) =
      tree.node? (srv.root ++ names) := by
  rcases after_cases (srv.sharedDir agentId) (srv.root ++ names) with hnone | ⟨rest, hrest, heq⟩
  · exact node?_graft_elsewhere hnone
  · rw [heq]
    refine node?_mutated_below hrest fun hfront => ?_
    unfold ContextServer.sharedDir at heq
    rw [List.append_assoc] at heq
    have hbelow := List.append_cancel_left heq
    rcases hnames with rfl | rfl
    · exact hrest (List.cons.inj hbelow).2.symm
    · have hfirst : rest = [agentId.text.toList] := (List.cons.inj hbelow).2.symm
      obtain ⟨more, hmore⟩ := hfront
      refine head?_ne_text hsupported agentId ?_
      rw [← hmore, hfirst]
      rfl

/-- After a mutation the directory is found that it has written in. -/
theorem resolveSourceDir_mutated {env : ContextEnv} {content : String} (hone : OneName tenantId)
    (hsupported : classifyMutability m.names.text = some m.mutability)
    (hpath : srv.resolveOrCreateSourceDir tree tenantId agentId = (.ok path, made)) :
    srv.resolveSourceDir (made.mutated (srv.placeOf path) path env m content) tenantId agentId =
      some path := by
  have hthere : srv.isDir (made.mutated (srv.placeOf path) path env m content) path = true :=
    reaches_mono (fun _ => isDirAt_mutated) (isDir_resolveOrCreate hpath)
  by_cases hown : path = srv.tenantAgent tenantId agentId
  · rw [hown] at hthere ⊢
    exact if_pos hthere
  · obtain ⟨hresolved, rfl⟩ : srv.resolveSourceDir tree tenantId agentId = some path ∧
        tree = made := by
      unfold ContextServer.resolveOrCreateSourceDir at hpath
      split at hpath
      · rename_i hresolved
        cases hpath
        exact ⟨hresolved, rfl⟩
      · simp only at hpath
        split at hpath
        · cases hpath
          exact absurd rfl hown
        · cases hpath
    unfold ContextServer.resolveSourceDir at hresolved ⊢
    split at hresolved
    · cases hresolved
      exact absurd rfl hown
    rename_i hnotOwn
    split at hresolved
    · rename_i hshared
      cases hresolved
      rw [if_neg, if_pos hthere]
      refine fun hmade => hnotOwn ?_
      have hnode := fun names => @node?_mutated_shared srv tree tenantId agentId m
        (srv.flatAgent agentId) env content names hsupported
      have hdir : ∀ names, names = [(Text.trim tenantId).toList] ∨
          names = [(Text.trim tenantId).toList, agentId.text.toList] →
          (tree.mutated (srv.sharedDir agentId) (srv.flatAgent agentId) env m content).isDirAt
            (srv.root ++ names) = tree.isDirAt (srv.root ++ names) := by
        intro names hnames
        unfold Tree.isDirAt
        rw [hnode names hnames]
      rw [placeOf_flatAgent] at hmade
      exact (isDir_tenantAgent_iff hone).mpr ⟨reaches_root_of_flatAgent hshared,
        hdir _ (.inl rfl) ▸ ((isDir_tenantAgent_iff hone).mp hmade).2.1,
        hdir _ (.inr rfl) ▸ ((isDir_tenantAgent_iff hone).mp hmade).2.2⟩
    · cases hresolved

end Resolved

/-- An accepted mutation is confined and visible exactly where its path is well placed.  The
load that it is visible to is, for a tenant of one name, the one that the endpoint serves. -/
theorem mutation_visible_iff {srv : ContextServer} {tree made : Tree} {agentId : Uuid}
    {headers : HeaderMap} {req : MutateAgentContextRequest}
    {response : AgentContextMutationResponse} {role : RolePreset} {m : ContextMutation}
    {path : List Char} (hrole : roleFromHeaders srv.state headers = .ok role)
    (hcheck : checkMutation (srv.contextEnv "" agentId) headers req = .ok m)
    (hpath : srv.resolveOrCreateSourceDir tree m.tenantId agentId = (.ok path, made))
    (hok : (srv.mutate tree agentId headers req).1 = .ok response) :
    (ConfinedAndVisible srv tree (srv.mutate tree agentId headers req).2 role path m req.content ↔
      WellPlaced srv tree (srv.mutate tree agentId headers req).2 path m) ∧
    (OneName m.tenantId →
      srv.loadSnapshot (srv.mutate tree agentId headers req).2 m.tenantId agentId =
        loadAgentContextSnapshot srv.loader
          (some (srv.sourceDir (srv.mutate tree agentId headers req).2 path))) := by
  have hchecked := checkMutation_spec hcheck
  obtain ⟨hne, hnames⟩ := isName_of_normalized hchecked.path
  have hwritten := mutate_written hcheck hpath hok
  have hallowed := roleWrites_iff hne hnames hchecked.supported (checkMutation_role hrole hcheck)
  refine ⟨⟨?_, ?_⟩, ?_⟩
  · intro h
    obtain ⟨hplain, hdirect⟩ := h.allowed.plain
    refine ⟨hplain, hdirect, fun hscanned hlimits => ?_⟩
    exact (returns_written_iff hwritten h.allowed hscanned hlimits).mp (h.returned hscanned hlimits)
  · intro h
    have hrole := hallowed.mpr ⟨h.plain, h.direct⟩
    refine ⟨hnames, hwritten.only, hwritten.written, hrole, ?_, fun hscanned hlimits => ?_⟩
    · intro hsession
      have hmode : m.mode = .append := by
        obtain ⟨subdir, name, ext, heq, _, _⟩ := hrole.scanned (.inr hsession)
        have hvalid := hchecked.mode
        rw [heq] at hsession hvalid
        rw [Option.some.inj hsession] at hvalid
        exact append_of_sessions hvalid (startsWith_sessions name)
      rw [hwritten.written]
      exact extends_append _ hmode
    · exact (returns_written_iff hwritten hrole hscanned hlimits).mpr (h.readable hscanned hlimits)
  · intro hone
    unfold ContextServer.loadSnapshot
    rw [(mutate_accepted hcheck hpath hok).1, resolveSourceDir_mutated hone hchecked.supported hpath]
    rfl

/-! ## A file below a scanned directory -/

def noteRequest (relativePath : String) : MutateAgentContextRequest :=
  ⟨relativePath, "note", "replace"⟩

def noteMutation (names : Names) : ContextMutation := ⟨"a", .replace, names, .agentManaged⟩

/-- The tree after an operator wrote a note. -/
def treeWithNote (relativePath : String) : Tree :=
  (ctxServer.mutate ownTree ctxAgent (headersOf "a") (noteRequest relativePath)).2

/-- The directory that the notes are written in. -/
def noteDir (relativePath : String) : SourceDir :=
  ctxServer.sourceDir (treeWithNote relativePath) (ctxServer.tenantAgent "a" ctxAgent)

theorem withinLimits_note (relativePath : String)
    (h : (dynamicNames (noteDir relativePath) memoryDir "md").length ≤ 8 ∧
      (dynamicNames (noteDir relativePath) sessionsDir "jsonl").length ≤ 8 ∧
      loadableBytes ctxServer.loader (noteDir relativePath) ≤ 256 * 1024) :
    WithinLimits ctxServer.loader (noteDir relativePath) :=
  ⟨rfl, h.1, h.2.1, h.2.2⟩

/-- An operator writes a note below `memory/`, and no load returns it. -/
theorem nested_note_invisible : ¬ ∀ (srv : ContextServer) (tree made : Tree) (agentId : Uuid)
    (headers : HeaderMap) (req : MutateAgentContextRequest)
    (response : AgentContextMutationResponse) (role : RolePreset) (m : ContextMutation)
    (path : List Char), roleFromHeaders srv.state headers = .ok role →
      checkMutation (srv.contextEnv "" agentId) headers req = .ok m →
      srv.resolveOrCreateSourceDir tree m.tenantId agentId = (.ok path, made) →
      (srv.mutate tree agentId headers req).1 = .ok response →
      ConfinedAndVisible srv tree (srv.mutate tree agentId headers req).2 role path m
        req.content := by
  intro h
  have hvisible := h ctxServer ownTree ownTree ctxAgent (headersOf "a")
    (noteRequest "memory/notes/today.md") _ .operator
    (noteMutation [memoryDir, "notes".toList, "today.md".toList])
    (ctxServer.tenantAgent "a" ctxAgent) rfl rfl rfl rfl
  obtain ⟨snapshot, hload, file, hfile, _⟩ := hvisible.returned (.inl rfl)
    (withinLimits_note "memory/notes/today.md" (by decide +kernel))
  have hnone : ((loadAgentContextSnapshot ctxServer.loader
      (some (noteDir "memory/notes/today.md"))).toOption.map fun snapshot =>
        (snapshot.memoryFiles ++ snapshot.sessionFiles).length) = some 0 := by decide +kernel
  have hload' : loadAgentContextSnapshot ctxServer.loader
      (some (noteDir "memory/notes/today.md")) = .ok snapshot := hload
  rw [hload'] at hnone
  rw [List.length_eq_zero_iff.mp (Option.some.inj hnone)] at hfile
  cases hfile

/-- A note right in `memory/` is returned. -/
theorem note_visible :
    ConfinedAndVisible ctxServer ownTree (treeWithNote "memory/today.md") .operator
      (ctxServer.tenantAgent "a" ctxAgent) (noteMutation [memoryDir, "today.md".toList]) "note" ∧
    WithinLimits ctxServer.loader (noteDir "memory/today.md") ∧
    ctxServer.loadSnapshot (treeWithNote "memory/today.md") "a" ctxAgent =
      loadAgentContextSnapshot ctxServer.loader (some (noteDir "memory/today.md")) := by
  have hlimits : WithinLimits ctxServer.loader (noteDir "memory/today.md") :=
    withinLimits_note "memory/today.md" (by decide +kernel)
  have hplaced : WellPlaced ctxServer ownTree (treeWithNote "memory/today.md")
      (ctxServer.tenantAgent "a" ctxAgent) (noteMutation [memoryDir, "today.md".toList]) := by
    refine ⟨by decide, fun _ => rfl, fun _ _ => ⟨?_, fun hmode => nomatch hmode⟩⟩
    intro name hname
    rw [← Option.some.inj hname]
    decide
  have hvisible := @mutation_visible_iff ctxServer ownTree ownTree ctxAgent (headersOf "a")
    (noteRequest "memory/today.md") _ .operator (noteMutation [memoryDir, "today.md".toList])
    (ctxServer.tenantAgent "a" ctxAgent) rfl rfl rfl rfl
  have hone : OneName "a" := ⟨by decide, by decide, by decide, by decide⟩
  exact ⟨hvisible.1.mpr hplaced, hlimits, hvisible.2 hone⟩

end Api
end SecureAgnt

/-
What a mutation touches of a directory, and what a snapshot of a directory depends on.

A mutation writes the entries on the way to its file and no others, and the first of the
names on that way is no identifier.  A snapshot depends on what each name of the directory
stands for, not on the order the names come in.
-/
import SecureAgnt.Api.Context

namespace SecureAgnt
namespace Api

/-! ## The entries that a mutation touches -/

/-- Only the entries on the way to a file are written, and a directory stays one. -/
structure Touched (names : Names) (dir dir' : SourceDir) : Prop where
  elsewhere : ∀ names', ¬ names' <+: names → dir'.node? names' = dir.node? names'
  dirs : ∀ names', dir.node? names' = some .dir → dir'.node? names' = some .dir

section Touched

variable {dir dir' dir'' : SourceDir} {names names' : Names} {payload content : String}
  {env : ContextEnv}

theorem Touched.refl (names : Names) (dir : SourceDir) : Touched names dir dir :=
  ⟨fun _ _ => rfl, fun _ h => h⟩

theorem Touched.trans (h : Touched names dir dir') (h' : Touched names dir' dir'') :
    Touched names dir dir'' where
  elsewhere names' hout := (h'.elsewhere names' hout).trans (h.elsewhere names' hout)
  dirs names' hdir := h'.dirs names' (h.dirs names' hdir)

theorem touched_put (node : Node) (hway : names' <+: names)
    (hdir : dir.node? names' ≠ some .dir) : Touched names dir (dir.put names' node) where
  elsewhere other hout := by
    refine node?_put_ne node ?_
    intro heq
    exact hout (heq ▸ hway)
  dirs other hother := by
    have hne : other ≠ names' := fun heq => hdir (heq ▸ hother)
    rw [node?_put_ne node hne]
    exact hother

theorem touched_makeDirs (parents : List Names) (hway : ∀ names' ∈ parents, names' <+: names) :
    Touched names dir (parents.foldl
      (fun d names' => if (d.node? names').isNone then d.put names' .dir else d) dir) := by
  induction parents generalizing dir with
  | nil => exact Touched.refl names dir
  | cons first rest ih =>
    have hrest := fun dir' => @ih dir' fun names' h => hway names' (List.mem_cons_of_mem _ h)
    rw [List.foldl_cons]
    refine Touched.trans ?_ (hrest _)
    by_cases hnone : (dir.node? first).isNone = true
    · rw [if_pos hnone]
      refine touched_put .dir (hway first List.mem_cons_self) ?_
      rw [Option.isNone_iff_eq_none.mp hnone]
      intro h
      cases h
    · rw [if_neg hnone]
      exact Touched.refl names dir

theorem touched_createDirAll (h : dir.createDirAll names.dropLast = .ok dir') :
    Touched names dir dir' := by
  unfold SourceDir.createDirAll at h
  split at h
  · cases h
  split at h
  · cases h
  cases h
  refine touched_makeDirs _ ?_
  intro names' hmem
  have hfront : names' <+: names.dropLast := (List.mem_inits _ _).mp (List.mem_of_mem_tail hmem)
  exact hfront.trans (List.dropLast_prefix names)

theorem touched_createContextDirectory (h : createContextDirectory env dir names = .ok dir') :
    Touched names dir dir' := by
  unfold createContextDirectory at h
  cases hcreate : dir.createDirAll names.dropLast with
  | error failure =>
    rw [hcreate] at h
    cases h
  | ok made =>
    rw [hcreate] at h
    cases h
    exact touched_createDirAll hcreate

theorem touched_write (h : dir.write names payload = .ok dir') : Touched names dir dir' := by
  unfold SourceDir.write at h
  split at h
  · cases h
  · rename_i hnode
    cases h
    exact touched_put _ (List.prefix_refl names) hnode

theorem touched_append (h : dir.append names payload = .ok dir') : Touched names dir dir' := by
  unfold SourceDir.append at h
  split at h
  · cases h
  all_goals
    rename_i hnode
    cases h
    refine touched_put _ (List.prefix_refl names) ?_
    rw [hnode]
    intro heq
    cases heq

theorem touched_writeMutation {mode : ContextMutationMode}
    (h : writeMutation env dir names payload mode = .ok dir') : Touched names dir dir' := by
  unfold writeMutation at h
  cases mode with
  | replace =>
    cases hwrite : dir.write names payload with
    | error failure =>
      simp only [hwrite, Except.mapError] at h
      cases h
    | ok made =>
      simp only [hwrite, Except.mapError] at h
      cases h
      exact touched_write hwrite
  | append =>
    cases happend : dir.append names payload with
    | error failure =>
      simp only [happend, Except.mapError] at h
      cases h
    | ok made =>
      simp only [happend, Except.mapError] at h
      cases h
      exact touched_append happend

theorem touched_applyMutation (env : ContextEnv) (dir : SourceDir) (m : ContextMutation)
    (content : String) : Touched m.names dir (applyMutation env dir m content).2 := by
  unfold applyMutation
  cases hcreate : createContextDirectory env dir m.names with
  | error e => exact Touched.refl _ _
  | ok made =>
    have hmade := touched_createContextDirectory hcreate
    cases m.mode
    all_goals
      simp only
      split
      · exact hmade
      split
      · exact hmade
      · rename_i written hwrite
        exact hmade.trans (touched_writeMutation hwrite)

end Touched

/-! ## What a snapshot depends on -/

/-- What a snapshot holds; of the directory it names the path. -/
structure ContextView where
  sourceDir : String
  requiredFiles : List AgentContextFile
  memoryFiles : List AgentContextFile
  sessionFiles : List AgentContextFile
  missingRequiredFiles : List String
  warnings : List String

def AgentContextSnapshot.view (snapshot : AgentContextSnapshot) : ContextView :=
  ⟨snapshot.sourceDir.path, snapshot.requiredFiles, snapshot.memoryFiles, snapshot.sessionFiles,
    snapshot.missingRequiredFiles, snapshot.warnings⟩

/-- Two directories on one path whose names stand for the same. -/
structure SameFiles (dir dir' : SourceDir) : Prop where
  path : dir'.path = dir.path
  nodes : ∀ names, dir'.node? names = dir.node? names

section Same

variable {config : AgentContextLoaderConfig} {dir dir' : SourceDir}

theorem loadContextFile_congr (h : SameFiles dir dir') (names : Names)
    (slot relativePath : String) (s : Loading) :
    loadContextFile config dir' names slot relativePath s =
      loadContextFile config dir names slot relativePath s := by
  unfold loadContextFile SourceDir.display
  rw [h.nodes, h.path]

theorem loadContextFiles_congr (h : SameFiles dir dir') (s : Loading)
    (entries : List (Names × String × String)) :
    loadContextFiles config dir' s entries = loadContextFiles config dir s entries := by
  induction entries generalizing s with
  | nil => rfl
  | cons entry rest ih =>
    simp only [loadContextFiles, loadContextFile_congr h, ih]

/-- The names come in the order of the names, whatever order the entries are in. -/
theorem dynamicNames_congr (h : SameFiles dir dir') (subdir : List Char) (ext : String) :
    dynamicNames dir' subdir ext = dynamicNames dir subdir ext := by
  have hentries : dir'.nodes.entries.Perm dir.nodes.entries := by
    refine List.lookup_ext dir'.nodes.nodupKeys dir.nodes.nodupKeys ?_
    intro names node
    have hnode : dir'.nodes.entries.dlookup names = dir.nodes.entries.dlookup names :=
      h.nodes names
    rw [hnode]
  have hperm : (dynamicNames dir' subdir ext).Perm (dynamicNames dir subdir ext) :=
    (List.perm_insertionSort _ _).trans
      ((hentries.filterMap _).trans (List.perm_insertionSort _ _).symm)
  exact List.Perm.eq_of_pairwise (fun _ _ _ _ hba hab => le_antisymm hab hba)
    dynamicNames_pairwise dynamicNames_pairwise hperm

theorem loadDynamicContextFiles_congr (h : SameFiles dir dir') (subdir : List Char)
    (ext slotPrefix : String) (s : Loading) :
    loadDynamicContextFiles config dir' subdir ext slotPrefix s =
      loadDynamicContextFiles config dir subdir ext slotPrefix s := by
  unfold loadDynamicContextFiles
  rw [dynamicNames_congr h, loadContextFiles_congr h]

theorem loadBeforeSessions_congr (h : SameFiles dir dir') :
    loadBeforeSessions config dir' = loadBeforeSessions config dir := by
  unfold loadBeforeSessions
  rw [loadContextFiles_congr h]
  simp only
  rw [loadDynamicContextFiles_congr h]

theorem loadAgentContextSnapshot_congr (h : SameFiles dir dir') :
    (loadAgentContextSnapshot config (some dir')).map AgentContextSnapshot.view =
      (loadAgentContextSnapshot config (some dir)).map AgentContextSnapshot.view := by
  unfold loadAgentContextSnapshot
  split
  · rfl
  · simp only [Except.map, AgentContextSnapshot.view]
    rw [loadBeforeSessions_congr h, loadDynamicContextFiles_congr h, h.path]

end Same

/-! ## The first name of a file that can be written

No such name is the text of an identifier: it starts with a letter that is no digit.
-/

section FirstNames

theorem isName_text (agentId : Uuid) : Path.IsName agentId.text.toList where
  ne_nil h := agentId.text_ne_empty (String.toList_eq_nil_iff.mp h)
  ne_dot h := agentId.notMem_text (by decide) (by decide) (h ▸ List.mem_singleton_self '.')
  ne_dots h := agentId.notMem_text (by decide) (by decide) (h ▸ List.mem_cons_self)
  no_slash := agentId.notMem_text (by decide) (by decide)

/-- What the supported files start with. -/
def supportedStarts : List Char := ['A', 'T', 'I', 'S', 'U', 'H', 'B', 'M', 'm', 's']

theorem supportedStarts_notMem_text {c : Char} (h : c ∈ supportedStarts) (id : Uuid) :
    c ∉ id.text.toList := by
  intro hmem
  rcases id.eq_of_mem_text hmem with rfl | ⟨x, rfl⟩
  · simp [supportedStarts] at h
  · have hnone : ∀ x : Fin 16, hexDigit x ∉ supportedStarts := by decide
    exact hnone x h

theorem head?_of_startsWith {s start : String} {c : Char} (h : Text.startsWith s start = true)
    (hstart : start.toList.head? = some c) : s.toList.head? = some c := by
  obtain ⟨rest, hrest⟩ := Text.startsWith_iff.mp h
  rw [← hrest]
  cases hlist : start.toList with
  | nil =>
    rw [hlist] at hstart
    cases hstart
  | cons first more =>
    rw [hlist] at hstart
    exact hstart

theorem classifyMutability_start {path : String} {mutability : AgentContextMutability}
    (h : classifyMutability path = some mutability) :
    ∃ normalized c, normalizeContextRelativePath path = some normalized ∧
      normalized.toList.head? = some c ∧ c ∈ supportedStarts := by
  unfold classifyMutability at h
  split at h
  · cases h
  rename_i normalized hnormalized
  refine ⟨normalized, ?_⟩
  have hstarts : ∀ names : List String,
      (names.all fun name => name.toList.head?.any supportedStarts.contains) = true →
      normalized ∈ names → ∃ c, normalized.toList.head? = some c ∧ c ∈ supportedStarts := by
    intro names hnames hmem
    have hstart := List.all_eq_true.mp hnames normalized hmem
    obtain ⟨c, hhead, hc⟩ := (Option.any_eq_true _ _).mp hstart
    exact ⟨c, hhead, List.contains_iff_mem.mp hc⟩
  suffices hstart : ∃ c, normalized.toList.head? = some c ∧ c ∈ supportedStarts by
    obtain ⟨c, hhead, hc⟩ := hstart
    exact ⟨c, hnormalized, hhead, hc⟩
  split at h
  · rename_i hmem
    exact hstarts _ (by decide) hmem
  split at h
  · rename_i hmem
    exact hstarts _ (by decide) hmem
  split at h
  · rename_i heq
    exact ⟨'M', heq ▸ by decide, by decide⟩
  split at h
  · rename_i hmemory
    exact ⟨'m', head?_of_startsWith (Bool.and_eq_true_iff.mp hmemory).1 (by decide), by decide⟩
  split at h
  · rename_i hsessions
    exact ⟨'s', head?_of_startsWith (Bool.and_eq_true_iff.mp hsessions).1 (by decide), by decide⟩
  · cases h

theorem trimEnd_cons {c : Char} (h : Text.isWhitespace c = false) (cs : List Char) :
    Text.trimEnd (c :: cs) = c :: Text.trimEnd cs := by
  unfold Text.trimEnd
  rw [List.reverse_cons, List.dropWhile_append]
  split
  · rename_i hempty
    rw [List.isEmpty_iff.mp hempty, List.dropWhile_cons_of_neg (by simp [h])]
    rfl
  · rw [List.reverse_append]
    rfl

theorem trim_cons {s : String} {c : Char} {cs : List Char} (h : s.toList = c :: cs)
    (hc : Text.isWhitespace c = false) : (Text.trim s).toList = c :: Text.trimEnd cs := by
  unfold Text.trim Text.trimStart
  rw [String.toList_ofList, h, List.dropWhile_cons_of_neg (by simp [hc]), trimEnd_cons hc]

/-- A path that starts with neither a slash nor a dot starts with a name. -/
theorem components_cons {c : Char} (hslash : c ≠ '/') (hdot : c ≠ '.') (cs : List Char) :
    ∃ name more, Path.components (c :: cs) = .normal (c :: name) :: more := by
  have hsegments : ∃ first others, Path.segments (c :: cs) = (c :: first) :: others := by
    unfold Path.segments
    rw [List.splitOn_cons_eq_if_modifyHead, if_neg (by simpa using hslash)]
    cases hrest : cs.splitOn '/' with
    | nil => exact absurd hrest (List.splitOn_ne_nil _ _)
    | cons first others => exact ⟨first, others, rfl⟩
  obtain ⟨first, others, hsegments⟩ := hsegments
  refine ⟨first, others.filterMap Path.component?, ?_⟩
  have hstart : Path.start (c :: cs) = [] := by
    have habs : Path.isAbsolute (c :: cs) = false := by simpa [Path.isAbsolute] using hslash
    unfold Path.start
    rw [habs, hsegments, if_neg Bool.false_ne_true, if_neg]
    simp [hdot]
  have hpart : Path.component? (c :: first) = some (.normal (c :: first)) := by
    unfold Path.component?
    split
    · rename_i heq
      cases heq
    · rename_i heq
      cases heq
      exact absurd rfl hdot
    · rename_i heq
      cases heq
      exact absurd rfl hdot
    · rfl
  rw [Path.components, hstart, hsegments, List.filterMap_cons_some hpart, List.nil_append]

theorem head?_text_cons {c : Char} (name : List Char) (names : Names) :
    (Names.text ((c :: name) :: names)).toList.head? = some c := by
  unfold Names.text Path.join
  rw [String.toList_ofList]
  cases names with
  | nil => rfl
  | cons second others =>
    rw [List.intercalate_cons_cons]
    rfl

theorem head?_normalizeContextRelativePath {path normalized : String} {c : Char}
    (h : normalizeContextRelativePath path = some normalized)
    (hhead : path.toList.head? = some c) (hspace : Text.isWhitespace c = false)
    (hslash : c ≠ '/') (hdot : c ≠ '.') : normalized.toList.head? = some c := by
  obtain ⟨cs, hcs⟩ := List.head?_eq_some_iff.mp hhead
  have htrim := trim_cons hcs hspace
  obtain ⟨name, more, hparts⟩ := components_cons hslash hdot (Text.trimEnd cs)
  unfold normalizeContextRelativePath at h
  simp only at h
  split at h
  · cases h
  split at h
  · rw [Option.some.injEq] at h
    obtain ⟨rest, hrest⟩ : ∃ rest, requiredNames (Text.trim path) = (c :: name) :: rest := by
      unfold requiredNames
      rw [htrim, hparts]
      exact ⟨_, rfl⟩
    rw [← h, hrest]
    exact head?_text_cons name rest
  · cases h

/-- The first name of a file that can be written is no identifier's text. -/
theorem head?_ne_text {names : Names} {mutability : AgentContextMutability}
    (h : classifyMutability names.text = some mutability) (id : Uuid) :
    names.head? ≠ some id.text.toList := by
  intro hfirst
  obtain ⟨rest, rfl⟩ := List.head?_eq_some_iff.mp hfirst
  obtain ⟨normalized, start, hnormalized, hstart, hmem⟩ := classifyMutability_start h
  cases htext : id.text.toList with
  | nil => exact (isName_text id).ne_nil htext
  | cons c cs =>
    have hc : c ∈ id.text.toList := by
      rw [htext]
      exact List.mem_cons_self
    have hplain : Text.isWhitespace c = false ∧ c ≠ '/' ∧ c ≠ '.' := by
      rcases id.eq_of_mem_text hc with rfl | ⟨x, rfl⟩
      · decide
      · have hdigits : ∀ x : Fin 16, Text.isWhitespace (hexDigit x) = false ∧
          hexDigit x ≠ '/' ∧ hexDigit x ≠ '.' := by decide
        exact hdigits x
    have hhead : (Names.text (id.text.toList :: rest)).toList.head? = some c := by
      rw [htext]
      exact head?_text_cons cs rest
    have hsame := head?_normalizeContextRelativePath hnormalized hhead hplain.1 hplain.2.1
      hplain.2.2
    rw [hstart, Option.some.injEq] at hsame
    exact supportedStarts_notMem_text hmem id (hsame ▸ hc)

end FirstNames

end Api
end SecureAgnt

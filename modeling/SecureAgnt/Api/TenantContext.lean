/-
The context files of tenants, on the whole tree of files.

A tenant whose id is a relative path that never leads up works below the configured root:
in the directory of its agent, or in that of the agent right below the root, which the
tenants share where a tenant has none of its own.  Ids that are single names keep the
directories of tenants apart: what a tenant loads from its own directory is the same
before and after any run of the mutations of others.
-/
import SecureAgnt.Api.ContextFrame
import SecureAgnt.Api.ContextTree

namespace SecureAgnt
namespace Api

open SecureAgnt.Path (Component)

/-! ## Entries below a directory -/

section Entries

variable {tree : Tree} {here names rest : Names} {dir : SourceDir}

theorem after_cases (here names : Names) :
    here.after names = none ∨ ∃ rest, rest ≠ [] ∧ names = here ++ rest := by
  cases hafter : here.after names with
  | none => exact .inl rfl
  | some rest => exact .inr ⟨rest, after_eq_some.mp hafter⟩

theorem mem_entriesBelow {entries : List ((_ : Names) × Node)} {node : Node} (hrest : rest ≠ []) :
    ⟨rest, node⟩ ∈ entriesBelow here entries ↔ ⟨here ++ rest, node⟩ ∈ entries := by
  unfold entriesBelow
  rw [List.mem_filterMap]
  constructor
  · intro h
    obtain ⟨entry, hentry, hafter⟩ := h
    obtain ⟨rest', hrest', heq⟩ := Option.map_eq_some_iff.mp hafter
    cases heq
    rw [← (after_eq_some.mp hrest').2]
    exact hentry
  · intro h
    refine ⟨_, h, ?_⟩
    rw [after_eq_some.mpr ⟨hrest, rfl⟩]
    rfl

theorem mem_entriesElsewhere {entries : List ((_ : Names) × Node)} {node : Node} :
    ⟨names, node⟩ ∈ entriesElsewhere here entries ↔
      ⟨names, node⟩ ∈ entries ∧ here.after names = none := by
  unfold entriesElsewhere
  rw [List.mem_filter, Option.isNone_iff_eq_none]

theorem mem_entriesFrom {entries : List ((_ : Names) × Node)} {node : Node} :
    ⟨names, node⟩ ∈ entriesFrom here entries ↔
      ∃ rest, rest ≠ [] ∧ names = here ++ rest ∧ ⟨rest, node⟩ ∈ entries := by
  unfold entriesFrom
  rw [List.mem_map]
  constructor
  · intro h
    obtain ⟨entry, hentry, heq⟩ := h
    obtain ⟨hmem, hne⟩ := List.mem_filter.mp hentry
    cases heq
    exact ⟨entry.1, by simpa using hne, rfl, hmem⟩
  · intro h
    obtain ⟨rest, hrest, rfl, hmem⟩ := h
    exact ⟨⟨rest, node⟩, List.mem_filter.mpr ⟨hmem, by simpa using hrest⟩, rfl⟩

theorem node?_below (hrest : rest ≠ []) (path : List Char) :
    (tree.below here path).node? rest = tree.node? (here ++ rest) := by
  refine Option.ext fun node => ?_
  exact AList.mem_lookup_iff.trans ((mem_entriesBelow hrest).trans AList.mem_lookup_iff.symm)

theorem node?_graft_below (hrest : rest ≠ []) :
    (tree.graft here dir).node? (here ++ rest) = dir.node? rest := by
  refine Option.ext fun node => ?_
  refine AList.mem_lookup_iff.trans (Iff.trans ?_ AList.mem_lookup_iff.symm)
  have hafter : here.after (here ++ rest) = some rest := after_eq_some.mpr ⟨hrest, rfl⟩
  show _ ∈ entriesElsewhere here tree.nodes.entries ++ entriesFrom here dir.nodes.entries ↔ _
  rw [List.mem_append, mem_entriesElsewhere, mem_entriesFrom, hafter]
  constructor
  · intro h
    rcases h with ⟨_, hnone⟩ | ⟨rest', _, heq, hmem⟩
    · cases hnone
    · rw [List.append_cancel_left heq]
      exact hmem
  · intro h
    exact .inr ⟨rest, hrest, rfl, h⟩

theorem node?_graft_elsewhere (h : here.after names = none) :
    (tree.graft here dir).node? names = tree.node? names := by
  refine Option.ext fun node => ?_
  refine AList.mem_lookup_iff.trans (Iff.trans ?_ AList.mem_lookup_iff.symm)
  show _ ∈ entriesElsewhere here tree.nodes.entries ++ entriesFrom here dir.nodes.entries ↔ _
  rw [List.mem_append, mem_entriesElsewhere, mem_entriesFrom]
  constructor
  · intro hmem
    rcases hmem with ⟨hmem, _⟩ | ⟨rest, hrest, rfl, _⟩
    · exact hmem
    · rw [after_eq_some.mpr ⟨hrest, rfl⟩] at h
      cases h
  · intro hmem
    exact .inl ⟨hmem, h⟩

theorem node?_put (names' : Names) (node : Node) :
    (tree.put names node).node? names' = if names' = names then some node else tree.node? names' := by
  unfold Tree.put Tree.node?
  by_cases heq : names' = names
  · rw [if_pos heq, heq]
    exact AList.lookup_insert _
  · rw [if_neg heq]
    exact AList.lookup_insert_ne heq

end Entries

/-! ## Places -/

section Places

variable {tree : Tree} {here : Names}

theorem isDirAt_iff : tree.isDirAt here = true ↔ here = [] ∨ tree.node? here = some .dir := by
  simp [Tree.isDirAt]

theorem place_append (here : Names) (parts more : List Component) :
    place here (parts ++ more) = place (place here parts) more := List.foldl_append

theorem place_normals (here names : Names) : place here (names.map .normal) = here ++ names := by
  induction names generalizing here with
  | nil => exact (List.append_nil here).symm
  | cons name rest ih =>
    show place (here ++ [name]) (rest.map .normal) = _
    rw [ih, List.append_assoc, List.singleton_append]

/-- Where a path leads is decided by its parts and by whether it is absolute. -/
theorem place_components (cwd : Names) (path : List Char) :
    place cwd (Path.components path) = place (if Path.isAbsolute path then [] else cwd)
      ((Path.segments path).filterMap Path.component?) := by
  unfold Path.components
  rw [place_append]
  unfold Path.start
  by_cases habs : Path.isAbsolute path = true
  · rw [if_pos habs, if_pos habs]
    rfl
  · rw [if_neg habs, if_neg habs]
    split <;> rfl

theorem place_push {part : List Char} (cwd : Names) (base : List Char)
    (habs : Path.isAbsolute part = false) (hparent : .parentDir ∉ Path.components part) :
    place cwd (Path.components (Path.push base part)) =
      place cwd (Path.components base) ++ Path.kept part := by
  rw [place_components, Path.isAbsolute_push habs, Path.parts_push habs,
    Path.parts_eq_kept hparent, place_append, place_normals, ← place_components]

theorem reaches_append (tree : Tree) (here : Names) (parts more : List Component) :
    tree.reaches here (parts ++ more) =
      (tree.reaches here parts && tree.reaches (place here parts) more) := by
  induction parts generalizing here with
  | nil => rfl
  | cons part rest ih =>
    show (_ && tree.reaches _ (rest ++ more)) = ((_ && tree.reaches _ rest) && _)
    rw [ih, Bool.and_assoc]
    rfl

theorem reaches_mono {tree' : Tree} (h : ∀ names, tree.isDirAt names → tree'.isDirAt names)
    {parts : List Component} (hreach : tree.reaches here parts = true) :
    tree'.reaches here parts = true := by
  induction parts generalizing here with
  | nil => rfl
  | cons part rest ih =>
    obtain ⟨hfirst, hrest⟩ := Bool.and_eq_true_iff.mp hreach
    exact Bool.and_eq_true_iff.mpr ⟨h _ hfirst, ih hrest⟩

end Places

/-! ## What changes on the tree -/

def Tree.contents? (tree : Tree) (names : Names) : Option Contents :=
  match tree.node? names with
  | some (.file contents) => some contents
  | _ => none

theorem contents?_eq_of_node? {tree tree' : Tree} {names : Names}
    (h : tree'.node? names = tree.node? names) : tree'.contents? names = tree.contents? names := by
  unfold Tree.contents?
  rw [h]

/-- Directories are made on a way, and nothing else is changed. -/
structure MadeDirs (way : Names → Prop) (tree tree' : Tree) : Prop where
  elsewhere : ∀ names, ¬ way names → tree'.node? names = tree.node? names
  dirs : ∀ names, tree.isDirAt names → tree'.isDirAt names
  contents : ∀ names, tree'.contents? names = tree.contents? names

section Making

variable {tree tree' : Tree} {here names : Names} {parts : List Component} {way way' : Names → Prop}

theorem MadeDirs.refl (way : Names → Prop) (tree : Tree) : MadeDirs way tree tree :=
  ⟨fun _ _ => rfl, fun _ h => h, fun _ => rfl⟩

theorem MadeDirs.trans {tree'' : Tree} (h : MadeDirs way tree tree')
    (h' : MadeDirs way tree' tree'') : MadeDirs way tree tree'' where
  elsewhere names hout := (h'.elsewhere names hout).trans (h.elsewhere names hout)
  dirs names hdir := h'.dirs names (h.dirs names hdir)
  contents names := (h'.contents names).trans (h.contents names)

theorem MadeDirs.mono (hway : ∀ names, way names → way' names) (h : MadeDirs way tree tree') :
    MadeDirs way' tree tree' :=
  ⟨fun names hout => h.elsewhere names fun hin => hout (hway names hin), h.dirs, h.contents⟩

theorem madeDirs_put (hnone : tree.node? names = none) (hway : way names) :
    MadeDirs way tree (tree.put names .dir) where
  elsewhere other hout := by
    rw [node?_put, if_neg]
    intro heq
    exact hout (heq ▸ hway)
  dirs other hdir := by
    unfold Tree.isDirAt at hdir ⊢
    rw [node?_put]
    by_cases heq : other = names
    · rw [if_pos heq]
      simp
    · rw [if_neg heq]
      exact hdir
  contents other := by
    unfold Tree.contents?
    rw [node?_put]
    by_cases heq : other = names
    · rw [if_pos heq, heq, hnone]
    · rw [if_neg heq]

/-- A name that the first steps of a way lead to. -/
def OnWay (here : Names) (parts : List Component) (names : Names) : Prop :=
  ∃ front, front <+: parts ∧ names = place here front

theorem onWay_cons (part : Component) (h : OnWay (stepTo here part) parts names) :
    OnWay here (part :: parts) names := by
  obtain ⟨front, hfront, rfl⟩ := h
  exact ⟨part :: front, (List.prefix_cons_inj part).mpr hfront, rfl⟩

theorem onWay_first (part : Component) : OnWay here (part :: parts) (stepTo here part) :=
  ⟨[part], ⟨parts, rfl⟩, rfl⟩

theorem madeDirs_makeDirs (tree : Tree) (made : Bool) (here : Names) (parts : List Component) :
    MadeDirs (OnWay here parts) tree (tree.makeDirs made here parts).2 := by
  induction parts generalizing tree made here with
  | nil => exact MadeDirs.refl _ _
  | cons part rest ih =>
    have hrest := fun tree made =>
      (ih tree made (stepTo here part)).mono fun names => onWay_cons part
    unfold Tree.makeDirs
    simp only
    split
    · exact hrest tree made
    · rename_i hdir
      split
      · exact MadeDirs.refl _ _
      · rename_i hfile
        have hnone : tree.node? (stepTo here part) = none := by
          cases hnode : tree.node? (stepTo here part) with
          | none => rfl
          | some node =>
            cases node with
            | file contents => exact absurd hnode (hfile contents)
            | dir =>
              unfold Tree.isDirAt at hdir
              simp [hnode] at hdir
        exact (madeDirs_put hnone (onWay_first part)).trans (hrest _ true)

/-- The directories that a way leads through are there already. -/
theorem makeDirs_of_reaches {made : Bool} (h : tree.reaches here parts = true)
    (more : List Component) :
    tree.makeDirs made here (parts ++ more) = tree.makeDirs made (place here parts) more := by
  induction parts generalizing here with
  | nil => rfl
  | cons part rest ih =>
    obtain ⟨hfirst, hrest⟩ := Bool.and_eq_true_iff.mp h
    rw [List.cons_append, Tree.makeDirs]
    simp only [hfirst, if_true]
    exact ih hrest

end Making

section Grafting

variable {tree : Tree} {here names : Names} {path : List Char} {env : ContextEnv}
  {m : ContextMutation} {content : String}

/-- The tree after a mutation in one of its directories. -/
def Tree.mutated (tree : Tree) (here : Names) (path : List Char) (env : ContextEnv)
    (m : ContextMutation) (content : String) : Tree :=
  tree.graft here (applyMutation env (tree.below here path) m content).2

theorem node?_mutated_below {rest : Names} (hrest : rest ≠ []) (hout : ¬ rest <+: m.names) :
    (tree.mutated here path env m content).node? (here ++ rest) = tree.node? (here ++ rest) := by
  unfold Tree.mutated
  rw [node?_graft_below hrest,
    (touched_applyMutation env (tree.below here path) m content).elsewhere rest hout,
    node?_below hrest]

theorem contents?_mutated (h : ∀ rest, rest ≠ [] → names ≠ here ++ rest) :
    (tree.mutated here path env m content).contents? names = tree.contents? names := by
  rcases after_cases here names with hnone | ⟨rest, hrest, heq⟩
  · exact contents?_eq_of_node? (node?_graft_elsewhere hnone)
  · exact absurd heq (h rest hrest)

theorem isDirAt_mutated (h : tree.isDirAt names = true) :
    (tree.mutated here path env m content).isDirAt names = true := by
  rw [isDirAt_iff, or_iff_not_imp_left] at h ⊢
  intro hne
  unfold Tree.mutated
  rcases after_cases here names with hnone | ⟨rest, hrest, rfl⟩
  · rw [node?_graft_elsewhere hnone]
    exact h hne
  · rw [node?_graft_below hrest]
    refine (touched_applyMutation env (tree.below here path) m content).dirs rest ?_
    rw [node?_below hrest]
    exact h hne

end Grafting

/-! ## The directories of tenants -/

/-- The id is a relative path that never leads up. -/
structure StaysBelow (tenantId : String) : Prop where
  relative : Path.isAbsolute (Text.trim tenantId).toList = false
  noParent : .parentDir ∉ Path.components (Text.trim tenantId).toList

def tenantNames (tenantId : String) : Names := Path.kept (Text.trim tenantId).toList

def OneName (tenantId : String) : Prop := Path.IsName (Text.trim tenantId).toList

theorem OneName.staysBelow {tenantId : String} (h : OneName tenantId) : StaysBelow tenantId :=
  ⟨Path.isAbsolute_of_isName h, Path.parentDir_notMem_of_isName h⟩

theorem OneName.tenantNames_eq {tenantId : String} (h : OneName tenantId) :
    tenantNames tenantId = [(Text.trim tenantId).toList] := Path.kept_of_isName h

section Directories

variable {srv : ContextServer} {tree : Tree} {tenantId : String} {agentId : Uuid}

def ContextServer.root (srv : ContextServer) : Names := srv.placeOf srv.rootDir

def ContextServer.ownDir (srv : ContextServer) (tenantId : String) (agentId : Uuid) : Names :=
  srv.root ++ (tenantNames tenantId ++ [agentId.text.toList])

def ContextServer.sharedDir (srv : ContextServer) (agentId : Uuid) : Names :=
  srv.root ++ [agentId.text.toList]

theorem placeOf_push_agent (base : List Char) (agentId : Uuid) :
    srv.placeOf (Path.push base agentId.text.toList) = srv.placeOf base ++ [agentId.text.toList] := by
  have hname := isName_text agentId
  unfold ContextServer.placeOf
  rw [place_push _ _ (Path.isAbsolute_of_isName hname) (Path.parentDir_notMem_of_isName hname),
    Path.kept_of_isName hname]

theorem placeOf_tenantAgent (h : StaysBelow tenantId) :
    srv.placeOf (srv.tenantAgent tenantId agentId) = srv.ownDir tenantId agentId := by
  unfold ContextServer.tenantAgent ContextServer.ownDir ContextServer.root tenantNames
  rw [placeOf_push_agent, ← List.append_assoc]
  unfold ContextServer.placeOf
  rw [place_push srv.cwd srv.rootDir h.relative h.noParent]

theorem placeOf_flatAgent : srv.placeOf (srv.flatAgent agentId) = srv.sharedDir agentId :=
  placeOf_push_agent srv.rootDir agentId

/-- The directory of the tenant's agent, or the one that tenants share without it. -/
inductive WorksIn (srv : ContextServer) (tree : Tree) (tenantId : String) (agentId : Uuid) :
    Names → Prop
  | own : WorksIn srv tree tenantId agentId (srv.ownDir tenantId agentId)
  | shared (hown : srv.isDir tree (srv.tenantAgent tenantId agentId) = false)
      (hshared : srv.isDir tree (srv.flatAgent agentId) = true) :
      WorksIn srv tree tenantId agentId (srv.sharedDir agentId)

theorem worksIn_resolved {path : List Char} (h : StaysBelow tenantId)
    (hpath : srv.resolveSourceDir tree tenantId agentId = some path) :
    WorksIn srv tree tenantId agentId (srv.placeOf path) := by
  unfold ContextServer.resolveSourceDir at hpath
  split at hpath
  · cases hpath
    rw [placeOf_tenantAgent h]
    exact .own
  · rename_i hown
    split at hpath
    · rename_i hshared
      cases hpath
      rw [placeOf_flatAgent]
      exact .shared (Bool.not_eq_true _ ▸ hown) hshared
    · cases hpath

/-- Where a call works is below the root. -/
theorem WorksIn.root_prefix {here : Names} (h : WorksIn srv tree tenantId agentId here) :
    srv.root <+: here := by
  cases h with
  | own => exact List.prefix_append _ _
  | shared => exact List.prefix_append _ _

end Directories

/-! ## What a mutation leaves of the tree -/

section Mutations

variable {srv : ContextServer} {tree made : Tree} {tenantId : String} {agentId : Uuid}
  {headers : HeaderMap} {req : MutateAgentContextRequest}

/-- The directories that are made for a tenant's agent. -/
theorem madeDirs_resolveOrCreate (srv : ContextServer) (tree : Tree) (tenantId : String)
    (agentId : Uuid) :
    MadeDirs (OnWay srv.cwd (Path.components (srv.tenantAgent tenantId agentId))) tree
      (srv.resolveOrCreateSourceDir tree tenantId agentId).2 := by
  have hmade := madeDirs_makeDirs tree false srv.cwd
    (Path.components (srv.tenantAgent tenantId agentId))
  unfold ContextServer.resolveOrCreateSourceDir
  split
  · exact MadeDirs.refl _ _
  · simp only
    split
    · rename_i htree
      rw [htree] at hmade
      exact hmade
    · rename_i htree
      rw [htree] at hmade
      exact hmade

theorem worksIn_resolveOrCreate {path : List Char} (h : StaysBelow tenantId)
    (hpath : srv.resolveOrCreateSourceDir tree tenantId agentId = (.ok path, made)) :
    WorksIn srv tree tenantId agentId (srv.placeOf path) := by
  unfold ContextServer.resolveOrCreateSourceDir at hpath
  split at hpath
  · rename_i hresolved
    cases hpath
    exact worksIn_resolved h hresolved
  · simp only at hpath
    split at hpath
    · cases hpath
      rw [placeOf_tenantAgent h]
      exact .own
    · cases hpath

/-- A mutation is refused, or makes directories, or also writes in the one it works in. -/
inductive MutationEffect (srv : ContextServer) (tree : Tree) (agentId : Uuid)
    (headers : HeaderMap) (req : MutateAgentContextRequest) : Tree → Prop
  | refused : MutationEffect srv tree agentId headers req tree
  | made (m : ContextMutation) (hcheck : MutationChecked headers req m) :
      MutationEffect srv tree agentId headers req
        (srv.resolveOrCreateSourceDir tree m.tenantId agentId).2
  | wrote (m : ContextMutation) (path : List Char) (made : Tree) (env : ContextEnv)
      (hcheck : MutationChecked headers req m)
      (hpath : srv.resolveOrCreateSourceDir tree m.tenantId agentId = (.ok path, made)) :
      MutationEffect srv tree agentId headers req
        (made.mutated (srv.placeOf path) path env m req.content)

/-- The checks do not ask where the directory is. -/
theorem checkMutation_congr {env env' : ContextEnv} (h : env.state = env'.state) :
    checkMutation env headers req = checkMutation env' headers req := by
  unfold checkMutation
  rw [h]

theorem mutate_spec (srv : ContextServer) (tree : Tree) (agentId : Uuid) (headers : HeaderMap)
    (req : MutateAgentContextRequest) :
    MutationEffect srv tree agentId headers req (srv.mutate tree agentId headers req).2 := by
  unfold ContextServer.mutate
  cases hcheck : checkMutation (srv.contextEnv "" agentId) headers req with
  | error e => exact .refused
  | ok m =>
    have hchecked := checkMutation_spec hcheck
    have hstate : (srv.contextEnv "" agentId).state = (srv.contextEnv m.tenantId agentId).state := rfl
    rw [checkMutation_congr hstate] at hcheck
    simp only
    unfold ContextServer.mutateSourceDir
    have hmade : MutationEffect srv tree agentId headers req
        (srv.resolveOrCreateSourceDir tree m.tenantId agentId).2 := .made m hchecked
    rcases hresolve : srv.resolveOrCreateSourceDir tree m.tenantId agentId with ⟨result, made⟩
    rw [hresolve] at hmade
    cases result with
    | error e => exact hmade
    | ok path =>
      simp only [mutateAgentContext, hcheck, Option.getD_some]
      exact .wrote m path made _ hchecked hresolve

end Mutations

/-! ## Tenants apart -/

section Apart

variable {srv : ContextServer} {tree made : Tree} {tenantId other : String}
  {agentId otherAgent : Uuid} {headers : HeaderMap} {req : MutateAgentContextRequest}

/-- A tenant's agent has a directory of its own. -/
def OwnsDir (srv : ContextServer) (tree : Tree) (tenantId : String) (agentId : Uuid) : Prop :=
  srv.isDir tree (srv.tenantAgent tenantId agentId) = true

theorem OneName.ownDir_eq (h : OneName tenantId) :
    srv.ownDir tenantId agentId = srv.root ++ [(Text.trim tenantId).toList, agentId.text.toList] := by
  unfold ContextServer.ownDir
  rw [h.tenantNames_eq]
  rfl

theorem components_tenantAgent (h : OneName tenantId) :
    Path.components (srv.tenantAgent tenantId agentId) = Path.components srv.rootDir ++
      [.normal (Text.trim tenantId).toList, .normal agentId.text.toList] := by
  have hname : ∀ name : List Char, Path.IsName name → ∀ base,
      Path.components (Path.push base name) = Path.components base ++ [.normal name] := by
    intro name hname base
    have hpush := @Path.components_push [name] (by simpa using hname) base
    rwa [Path.join, List.intercalate_singleton, List.map_singleton] at hpush
  unfold ContextServer.tenantAgent
  rw [hname _ (isName_text agentId), hname _ h, List.append_assoc, List.singleton_append]

theorem OwnsDir.reaches_root (hown : OwnsDir srv tree tenantId agentId) (h : OneName tenantId) :
    tree.reaches srv.cwd (Path.components srv.rootDir) = true := by
  unfold OwnsDir ContextServer.isDir at hown
  rw [components_tenantAgent h, reaches_append] at hown
  exact (Bool.and_eq_true_iff.mp hown).1

/-- Where the root is there, only directories of the tenant itself are made. -/
theorem node?_resolveOrCreate (hroot : tree.reaches srv.cwd (Path.components srv.rootDir) = true)
    (hother : OneName other) (hne : Text.trim other ≠ Text.trim tenantId) (rest : Names) :
    (srv.resolveOrCreateSourceDir tree other otherAgent).2.node?
        (srv.root ++ (Text.trim tenantId).toList :: rest) =
      tree.node? (srv.root ++ (Text.trim tenantId).toList :: rest) := by
  have hmade := madeDirs_makeDirs tree false srv.root
    [.normal (Text.trim other).toList, .normal otherAgent.text.toList]
  have hsame : (tree.makeDirs false srv.cwd (Path.components (srv.tenantAgent other otherAgent))) =
      tree.makeDirs false srv.root
        [.normal (Text.trim other).toList, .normal otherAgent.text.toList] := by
    rw [components_tenantAgent hother]
    exact makeDirs_of_reaches hroot _
  have hout : ¬ OnWay srv.root [.normal (Text.trim other).toList, .normal otherAgent.text.toList]
      (srv.root ++ (Text.trim tenantId).toList :: rest) := by
    intro h
    obtain ⟨front, hfront, heq⟩ := h
    cases front with
    | nil =>
      have hlength := congrArg List.length heq
      simp [place] at hlength
    | cons first more =>
      obtain ⟨rfl, hmore⟩ := List.cons_prefix_cons.mp hfront
      have hnames : ∃ names : Names, more = names.map .normal := by
        cases more with
        | nil => exact ⟨[], rfl⟩
        | cons second others =>
          obtain ⟨rfl, hothers⟩ := List.cons_prefix_cons.mp hmore
          rw [List.prefix_nil.mp hothers]
          exact ⟨[otherAgent.text.toList], rfl⟩
      obtain ⟨names, rfl⟩ := hnames
      have hplace := place_normals srv.root ((Text.trim other).toList :: names)
      rw [List.map_cons] at hplace
      rw [hplace] at heq
      have hhead := (List.cons.inj (List.append_cancel_left heq)).1
      exact hne (String.toList_inj.mp hhead).symm
  have helsewhere := hmade.elsewhere _ hout
  unfold ContextServer.resolveOrCreateSourceDir
  split
  · rfl
  · simp only
    rw [hsame]
    split
    · rename_i htree
      rw [htree] at helsewhere
      exact helsewhere
    · rename_i htree
      rw [htree] at helsewhere
      exact helsewhere

/-- A mutation in another directory leaves a tenant's own one alone. -/
theorem node?_mutated_apart {here rest : Names} {path : List Char} {env : ContextEnv}
    {m : ContextMutation} {content : String} (hworks : WorksIn srv made other otherAgent here)
    (hother : OneName other) (hne : Text.trim other ≠ Text.trim tenantId)
    (hsupported : classifyMutability m.names.text = some m.mutability) :
    (tree.mutated here path env m content).node?
        (srv.root ++ (Text.trim tenantId).toList :: agentId.text.toList :: rest) =
      tree.node? (srv.root ++ (Text.trim tenantId).toList :: agentId.text.toList :: rest) := by
  rcases after_cases here (srv.root ++ (Text.trim tenantId).toList :: agentId.text.toList :: rest)
    with hnone | ⟨below, hbelow, heq⟩
  · exact node?_graft_elsewhere hnone
  · rw [heq]
    refine node?_mutated_below hbelow ?_
    intro hfront
    cases hworks with
    | own =>
      rw [hother.ownDir_eq, List.append_assoc] at heq
      have hhead := (List.cons.inj (List.append_cancel_left heq)).1
      exact hne (String.toList_inj.mp hhead).symm
    | shared =>
      -- below the shared directory the file would start with the text of an identifier
      unfold ContextServer.sharedDir at heq
      rw [List.append_assoc] at heq
      have hrest : agentId.text.toList :: rest = below :=
        (List.cons.inj (List.append_cancel_left heq)).2
      obtain ⟨more, hmore⟩ := hfront
      refine head?_ne_text hsupported agentId ?_
      rw [← hmore, ← hrest]
      rfl

/-- A mutation, its tenant another one with an id of one name or refused for its header. -/
structure MutationCall where
  agentId : Uuid
  headers : HeaderMap
  req : MutateAgentContextRequest

def MutationCall.OfOther (tenantId : String) (call : MutationCall) : Prop :=
  ∀ other, tenantFromHeaders call.headers = .ok other →
    OneName other ∧ Text.trim other ≠ Text.trim tenantId

def ContextServer.step (srv : ContextServer) (tree : Tree) (call : MutationCall) : Tree :=
  (srv.mutate tree call.agentId call.headers call.req).2

def ContextServer.run (srv : ContextServer) (tree : Tree) (calls : List MutationCall) : Tree :=
  calls.foldl srv.step tree

/-- The directory of a tenant's agent is there and holds what it held. -/
structure Unchanged (srv : ContextServer) (tenantId : String) (agentId : Uuid)
    (tree tree' : Tree) : Prop where
  owns : OwnsDir srv tree' tenantId agentId
  nodes : ∀ rest, tree'.node? (srv.ownDir tenantId agentId ++ rest) =
    tree.node? (srv.ownDir tenantId agentId ++ rest)

/-- No mutation takes a directory away. -/
theorem OwnsDir.mutate (hown : OwnsDir srv tree tenantId agentId) (call : MutationCall) :
    OwnsDir srv (srv.step tree call) tenantId agentId := by
  have hmade := fun m : ContextMutation =>
    (madeDirs_resolveOrCreate srv tree m.tenantId call.agentId).dirs
  have heffect := mutate_spec srv tree call.agentId call.headers call.req
  unfold OwnsDir ContextServer.isDir ContextServer.step at *
  generalize (srv.mutate tree call.agentId call.headers call.req).2 = after at heffect ⊢
  cases heffect with
  | refused => exact hown
  | made m => exact reaches_mono (hmade m) hown
  | wrote m path made env hcheck hpath =>
    have hdirs := hmade m
    rw [hpath] at hdirs
    exact reaches_mono (fun names h => isDirAt_mutated (hdirs names h)) hown

theorem unchanged_step (h : OneName tenantId) (hown : OwnsDir srv tree tenantId agentId)
    {call : MutationCall} (hcall : call.OfOther tenantId) :
    Unchanged srv tenantId agentId tree (srv.step tree call) where
  owns := hown.mutate call
  nodes rest := by
    have hroot := hown.reaches_root h
    have heffect := mutate_spec srv tree call.agentId call.headers call.req
    rw [h.ownDir_eq, List.append_assoc]
    unfold ContextServer.step
    generalize (srv.mutate tree call.agentId call.headers call.req).2 = after at heffect ⊢
    cases heffect with
    | refused => rfl
    | made m hcheck =>
      obtain ⟨hother, hne⟩ := hcall m.tenantId hcheck.tenant
      exact node?_resolveOrCreate hroot hother hne _
    | wrote m path made env hcheck hpath =>
      obtain ⟨hother, hne⟩ := hcall m.tenantId hcheck.tenant
      have hmade := @node?_resolveOrCreate srv tree tenantId m.tenantId call.agentId hroot hother hne
        (agentId.text.toList :: rest)
      rw [hpath] at hmade
      exact (node?_mutated_apart (worksIn_resolveOrCreate hother.staysBelow hpath) hother hne
        hcheck.supported).trans hmade

theorem unchanged_run (h : OneName tenantId) (hown : OwnsDir srv tree tenantId agentId)
    {calls : List MutationCall} (hcalls : ∀ call ∈ calls, call.OfOther tenantId) :
    Unchanged srv tenantId agentId tree (srv.run tree calls) := by
  induction calls generalizing tree with
  | nil => exact ⟨hown, fun _ => rfl⟩
  | cons call rest ih =>
    have hfirst := unchanged_step h hown (hcalls call List.mem_cons_self)
    have hrest := ih hfirst.owns fun call hcall => hcalls call (List.mem_cons_of_mem _ hcall)
    exact ⟨hrest.owns, fun names => (hrest.nodes names).trans (hfirst.nodes names)⟩

end Apart

/-! ## Confinement -/

section Confinement

variable {srv : ContextServer} {tree tree' : Tree} {tenantId : String} {agentId : Uuid}

/-- What a load answers depends on where it works and on the files there. -/
theorem loadSnapshot_congr (hsite : srv.resolveSourceDir tree' tenantId agentId =
      srv.resolveSourceDir tree tenantId agentId)
    (hnodes : ∀ path, srv.resolveSourceDir tree tenantId agentId = some path → ∀ rest, rest ≠ [] →
      tree'.node? (srv.placeOf path ++ rest) = tree.node? (srv.placeOf path ++ rest)) :
    (srv.loadSnapshot tree' tenantId agentId).map AgentContextSnapshot.view =
      (srv.loadSnapshot tree tenantId agentId).map AgentContextSnapshot.view := by
  unfold ContextServer.loadSnapshot
  rw [hsite]
  cases hpath : srv.resolveSourceDir tree tenantId agentId with
  | none => rfl
  | some path =>
    refine loadAgentContextSnapshot_congr ⟨rfl, ?_⟩
    intro names
    by_cases hnil : names = []
    · have hnone : ∀ tree : Tree, (srv.sourceDir tree path).node? [] = none := by
        intro tree
        refine AList.lookup_eq_none.mpr ?_
        intro hmem
        obtain ⟨entry, hentry, hkey⟩ := List.mem_map.mp hmem
        obtain ⟨source, _, hafter⟩ := List.mem_filterMap.mp hentry
        obtain ⟨rest, hrest, rfl⟩ := Option.map_eq_some_iff.mp hafter
        exact (after_eq_some.mp hrest).1 hkey
      rw [hnil, hnone, hnone]
    · exact (node?_below hnil path).trans
        ((hnodes path hpath names hnil).trans (node?_below hnil path).symm)

/-- What a load answers depends on the files below one directory. -/
def LoadsBelow (srv : ContextServer) (tree : Tree) (tenantId : String) (agentId : Uuid)
    (here : Names) : Prop :=
  ∀ tree' : Tree, srv.resolveSourceDir tree' tenantId agentId =
      srv.resolveSourceDir tree tenantId agentId →
    (∀ rest, rest ≠ [] → tree'.node? (here ++ rest) = tree.node? (here ++ rest)) →
    (srv.loadSnapshot tree' tenantId agentId).map AgentContextSnapshot.view =
      (srv.loadSnapshot tree tenantId agentId).map AgentContextSnapshot.view

theorem loadsBelow (h : StaysBelow tenantId) :
    ∃ here, WorksIn srv tree tenantId agentId here ∧ LoadsBelow srv tree tenantId agentId here := by
  cases hpath : srv.resolveSourceDir tree tenantId agentId with
  | none =>
    refine ⟨_, .own, ?_⟩
    intro tree' hsite _
    refine loadSnapshot_congr hsite ?_
    intro path hsome
    rw [hpath] at hsome
    cases hsome
  | some path =>
    refine ⟨_, worksIn_resolved h hpath, ?_⟩
    intro tree' hsite hnodes
    refine loadSnapshot_congr hsite ?_
    intro path' hsome
    rw [hpath] at hsome
    cases hsome
    exact hnodes

/-- The files that a mutation writes are below the directory it works in. -/
theorem writesBelow {headers : HeaderMap} {req : MutateAgentContextRequest} {names : Names}
    (hbelow : ∀ tenantId, tenantFromHeaders headers = .ok tenantId → StaysBelow tenantId)
    (hchanged : (srv.mutate tree agentId headers req).2.contents? names ≠ tree.contents? names) :
    ∃ tenantId here rest, tenantFromHeaders headers = .ok tenantId ∧
      WorksIn srv tree tenantId agentId here ∧ rest ≠ [] ∧ names = here ++ rest := by
  have hmade := fun m : ContextMutation =>
    (madeDirs_resolveOrCreate srv tree m.tenantId agentId).contents names
  have heffect := mutate_spec srv tree agentId headers req
  generalize (srv.mutate tree agentId headers req).2 = after at hchanged heffect
  cases heffect with
  | refused => exact absurd rfl hchanged
  | made m => exact absurd (hmade m) hchanged
  | wrote m path made env hcheck hpath =>
    have hcontents := hmade m
    rw [hpath] at hcontents
    by_contra hnone
    refine hchanged ((contents?_mutated ?_).trans hcontents)
    intro rest hrest heq
    exact hnone ⟨m.tenantId, srv.placeOf path, rest, hcheck.tenant,
      worksIn_resolveOrCreate (hbelow _ hcheck.tenant) hpath, hrest, heq⟩

theorem resolveSourceDir_of_owns (hown : OwnsDir srv tree tenantId agentId) :
    srv.resolveSourceDir tree tenantId agentId = some (srv.tenantAgent tenantId agentId) :=
  if_pos hown

/-- What a tenant loads from its own directory is not changed by others. -/
theorem loadSnapshot_unchanged (h : OneName tenantId) (hown : OwnsDir srv tree tenantId agentId)
    (hunchanged : Unchanged srv tenantId agentId tree tree') :
    (srv.loadSnapshot tree' tenantId agentId).map AgentContextSnapshot.view =
      (srv.loadSnapshot tree tenantId agentId).map AgentContextSnapshot.view := by
  refine loadSnapshot_congr ?_ ?_
  · rw [resolveSourceDir_of_owns hown, resolveSourceDir_of_owns hunchanged.owns]
  · intro path hpath rest _
    rw [resolveSourceDir_of_owns hown, Option.some.injEq] at hpath
    rw [← hpath, placeOf_tenantAgent h.staysBelow]
    exact hunchanged.nodes rest

/-- Where loads and mutations of tenants work, and what they leave of each other. -/
structure ContextsConfined (srv : ContextServer) : Prop where
  belowRoot : ∀ tree tenantId agentId here, WorksIn srv tree tenantId agentId here →
    srv.root <+: here
  loads : ∀ tree tenantId agentId, StaysBelow tenantId →
    ∃ here, WorksIn srv tree tenantId agentId here ∧ LoadsBelow srv tree tenantId agentId here
  writes : ∀ tree agentId headers req,
    (∀ tenantId, tenantFromHeaders headers = .ok tenantId → StaysBelow tenantId) →
    ∀ names, (srv.mutate tree agentId headers req).2.contents? names ≠ tree.contents? names →
      ∃ tenantId here rest, tenantFromHeaders headers = .ok tenantId ∧
        WorksIn srv tree tenantId agentId here ∧ rest ≠ [] ∧ names = here ++ rest
  apart : ∀ tree tenantId agentId calls, OneName tenantId → OwnsDir srv tree tenantId agentId →
    (∀ call ∈ calls, MutationCall.OfOther tenantId call) →
    Unchanged srv tenantId agentId tree (srv.run tree calls) ∧
      (srv.loadSnapshot (srv.run tree calls) tenantId agentId).map AgentContextSnapshot.view =
        (srv.loadSnapshot tree tenantId agentId).map AgentContextSnapshot.view

theorem contexts_confined (srv : ContextServer) : ContextsConfined srv where
  belowRoot _ _ _ _ hworks := hworks.root_prefix
  loads _ _ _ h := loadsBelow h
  writes _ _ _ _ hbelow _ hchanged := writesBelow hbelow hchanged
  apart tree tenantId agentId calls h hown hcalls := by
    have hunchanged := unchanged_run h hown hcalls
    exact ⟨hunchanged, loadSnapshot_unchanged h hown hunchanged⟩

end Confinement

/-! ## A directory that tenants share -/

def ctxServer : ContextServer where
  state := { agentContextMutationEnabled := true }
  loader := ⟨["MEMORY.md"], 64 * 1024, 256 * 1024, 8⟩
  rootDir := "/ctx".toList
  cwd := []
  dirLen := 4096
  ioText _ := "os error"

/-- A tree with the directories that lead to one, and a memory file in it. -/
def treeOf (names : Names) (content : String) : Tree :=
  let dirs := names.inits.tail.foldl (fun (tree : Tree) here => tree.put here .dir) ⟨∅⟩
  dirs.put (names ++ ["MEMORY.md".toList]) (.file (.text content))

def ctxAgent : Uuid := .repeated 10

def headersOf (tenantId : String) : HeaderMap :=
  [("x-tenant-id", ⟨some tenantId⟩), ("x-user-role", ⟨some "operator"⟩)]

def memoryCall (tenantId : String) : MutationCall :=
  ⟨ctxAgent, headersOf tenantId, ⟨"MEMORY.md", "of " ++ tenantId, "replace"⟩⟩

/-- The required files that a tenant loads. -/
def loadedBy (tree : Tree) (tenantId : String) : Option (List String) :=
  (ctxServer.loadSnapshot tree tenantId ctxAgent).toOption.map fun snapshot =>
    snapshot.requiredFiles.map (·.content)

def sharedTree : Tree := treeOf ["ctx".toList, ctxAgent.text.toList] "of a"

/-- Without directories of their own, one tenant writes what the other one reads. -/
theorem shared_file_changed : ¬ ∀ (srv : ContextServer) (tree : Tree) (tenantId other : String)
    (agentId : Uuid) (headers : HeaderMap) (req : MutateAgentContextRequest),
    tenantFromHeaders headers = .ok other → other ≠ tenantId →
    (srv.loadSnapshot (srv.mutate tree agentId headers req).2 tenantId agentId).map
        AgentContextSnapshot.view =
      (srv.loadSnapshot tree tenantId agentId).map AgentContextSnapshot.view := by
  intro h
  have hsame := h ctxServer sharedTree "a" "b" ctxAgent (headersOf "b") (memoryCall "b").req
    (by decide) (by decide)
  have hfiles := congrArg (fun result => result.toOption.map fun view : ContextView =>
    view.requiredFiles.map (·.content)) hsame
  have hdiffer : loadedBy (ctxServer.step sharedTree (memoryCall "b")) "a" = some ["of b"] ∧
      loadedBy sharedTree "a" = some ["of a"] := by decide +kernel
  have hview : ∀ tree, ((ctxServer.loadSnapshot tree "a" ctxAgent).map
      AgentContextSnapshot.view).toOption.map (fun view => view.requiredFiles.map (·.content)) =
        loadedBy tree "a" := by
    intro tree
    unfold loadedBy
    cases ctxServer.loadSnapshot tree "a" ctxAgent <;> rfl
  simp only [hview] at hfiles
  rw [hdiffer.2] at hfiles
  have hafter := hdiffer.1.symm.trans hfiles
  revert hafter
  decide

def ownTree : Tree := treeOf ["ctx".toList, "a".toList, ctxAgent.text.toList] "of a"

/-- Another tenant writes its own file, and the first one reads what it read. -/
theorem confined_with_own :
    loadedBy (ctxServer.run ownTree [memoryCall "b"]) "b" = some ["of b"] ∧
      (ctxServer.loadSnapshot (ctxServer.run ownTree [memoryCall "b"]) "a" ctxAgent).map
          AgentContextSnapshot.view =
        (ctxServer.loadSnapshot ownTree "a" ctxAgent).map AgentContextSnapshot.view := by
  have hname : OneName "a" := ⟨by decide, by decide, by decide, by decide⟩
  refine ⟨by decide +kernel, ?_⟩
  refine ((contexts_confined ctxServer).apart ownTree "a" ctxAgent [memoryCall "b"] hname ?_ ?_).2
  · unfold OwnsDir
    decide +kernel
  · intro call hcall other hother
    rw [List.mem_singleton.mp hcall] at hother
    cases hother
    exact ⟨⟨by decide, by decide, by decide, by decide⟩, by decide⟩

end Api
end SecureAgnt

/-
Where the context of an agent is: the configured root, the directories of a tenant and of
an agent below it, and the loader and the writing endpoint on the whole tree of files.

Paths are joined as text, and where a path leads is read off its components: there are no
symbolic links, so `..` leads to the directory above.
-/
import SecureAgnt.Api.Context

namespace SecureAgnt
namespace Api

open SecureAgnt.Path (Component)

/-! ## The tree of files -/

/-- What a file or directory is called below another one. -/
def Names.after (here names : Names) : Option Names :=
  if here <+: names ∧ names ≠ here then some (names.drop here.length) else none

/-- The files and directories of a machine, by their names from the root on. -/
structure Tree where
  nodes : AList fun _ : Names => Node

section Entries

variable {here : Names}

theorem after_eq_some {names rest : Names} :
    here.after names = some rest ↔ rest ≠ [] ∧ names = here ++ rest := by
  unfold Names.after
  constructor
  · intro h
    split at h
    · rename_i hbelow
      obtain ⟨⟨more, hmore⟩, hne⟩ := hbelow
      cases h
      rw [← hmore, List.drop_left]
      refine ⟨?_, rfl⟩
      intro hnil
      rw [hnil, List.append_nil] at hmore
      exact hne hmore.symm
    · cases h
  · intro h
    obtain ⟨hne, rfl⟩ := h
    have hlong : here ++ rest ≠ here := by simpa using hne
    rw [if_pos ⟨List.prefix_append _ _, hlong⟩, List.drop_left]

/-- The entries below a directory, with their names from there on. -/
def entriesBelow (here : Names) (entries : List ((_ : Names) × Node)) :
    List ((_ : Names) × Node) :=
  entries.filterMap fun entry => (here.after entry.1).map fun rest => ⟨rest, entry.2⟩

def entriesElsewhere (here : Names) (entries : List ((_ : Names) × Node)) :
    List ((_ : Names) × Node) :=
  entries.filter fun entry => (here.after entry.1).isNone

/-- The entries of a directory, with their names from the root on. -/
def entriesFrom (here : Names) (entries : List ((_ : Names) × Node)) :
    List ((_ : Names) × Node) :=
  (entries.filter fun entry => entry.1 ≠ []).map fun entry => ⟨here ++ entry.1, entry.2⟩

theorem nodupKeys_below {entries : List ((_ : Names) × Node)} (h : entries.NodupKeys) :
    (entriesBelow here entries).NodupKeys := by
  have hkeys : (entriesBelow here entries).keys = entries.keys.filterMap here.after := by
    unfold entriesBelow List.keys
    rw [List.map_filterMap, List.filterMap_map]
    refine List.filterMap_congr ?_
    intro entry _
    show ((here.after entry.1).map _).map _ = here.after entry.1
    cases here.after entry.1 <;> rfl
  show (entriesBelow here entries).keys.Nodup
  rw [hkeys]
  refine List.Nodup.filterMap ?_ h
  intro names names' rest hrest hrest'
  rw [(after_eq_some.mp hrest).2, (after_eq_some.mp hrest').2]

theorem nodupKeys_graft {entries below : List ((_ : Names) × Node)} (h : entries.NodupKeys)
    (hbelow : below.NodupKeys) :
    (entriesElsewhere here entries ++ entriesFrom here below).NodupKeys := by
  have hfrom : (entriesFrom here below).keys =
      (below.filter fun entry => entry.1 ≠ []).keys.map (here ++ ·) := by
    unfold entriesFrom List.keys
    rw [List.map_map, List.map_map]
    rfl
  have hnodup : ∀ {l l' : List ((_ : Names) × Node)}, l.Sublist l' → l'.NodupKeys → l.NodupKeys :=
    fun hsub hl => (hsub.map Sigma.fst).nodup hl
  show ((entriesElsewhere here entries ++ entriesFrom here below).map Sigma.fst).Nodup
  rw [List.map_append]
  refine List.Nodup.append (hnodup List.filter_sublist h) ?_ ?_
  · show (entriesFrom here below).keys.Nodup
    rw [hfrom]
    refine List.Nodup.map ?_ (hnodup List.filter_sublist hbelow)
    intro rest rest' heq
    exact List.append_cancel_left heq
  · intro names hleft hright
    obtain ⟨entry, hentry, rfl⟩ := List.mem_map.mp hleft
    obtain ⟨entry', hentry', heq⟩ := List.mem_map.mp hright
    obtain ⟨source, hsource, rfl⟩ := List.mem_map.mp hentry'
    have hnone := (List.mem_filter.mp hentry).2
    have hsome : here.after entry.1 = some source.1 :=
      after_eq_some.mpr ⟨by simpa using (List.mem_filter.mp hsource).2, heq.symm⟩
    rw [hsome] at hnone
    cases hnone

end Entries

namespace Tree

variable (tree : Tree)

def node? (here : Names) : Option Node := tree.nodes.lookup here

def put (here : Names) (node : Node) : Tree := ⟨tree.nodes.insert here node⟩

def isDirAt (here : Names) : Bool := here = [] || tree.node? here = some .dir

/-- What is below a directory, under the path that led there. -/
def below (here : Names) (path : List Char) : SourceDir :=
  ⟨String.ofList path, ⟨entriesBelow here tree.nodes.entries, nodupKeys_below tree.nodes.nodupKeys⟩⟩

/-- What is below a directory is replaced. -/
def graft (here : Names) (dir : SourceDir) : Tree :=
  ⟨⟨entriesElsewhere here tree.nodes.entries ++ entriesFrom here dir.nodes.entries,
    nodupKeys_graft tree.nodes.nodupKeys dir.nodes.nodupKeys⟩⟩

end Tree

/-! ## Where a path leads -/

def stepTo (here : Names) : Component → Names
  | .rootDir => []
  | .curDir => here
  | .parentDir => here.dropLast
  | .normal name => here ++ [name]

def place (here : Names) (parts : List Component) : Names := parts.foldl stepTo here

/-- Every step of the way ends in a directory. -/
def Tree.reaches (tree : Tree) : Names → List Component → Bool
  | _, [] => true
  | here, part :: rest =>
    tree.isDirAt (stepTo here part) && tree.reaches (stepTo here part) rest

/-- `fs::create_dir_all` goes the way and makes the directories that are missing; it stops
at a file.  Where nothing was missing before it, the failure is that of the whole path. -/
def Tree.makeDirs : Tree → Bool → Names → List Component → Option IoFailure × Tree
  | tree, _, _, [] => (none, tree)
  | tree, made, here, part :: rest =>
    let next := stepTo here part
    if tree.isDirAt next then tree.makeDirs made next rest
    else
      match tree.node? next with
      | some (.file _) =>
        (some (if made ∨ rest = [] then .alreadyExists else .notADirectory), tree)
      | _ => (tree.put next .dir).makeDirs true next rest

/-! ## The directory of an agent -/

/-- What the loader and the endpoint are configured with, and the directory they run in. -/
structure ContextServer where
  state : AppState
  loader : AgentContextLoaderConfig
  rootDir : List Char
  cwd : Names
  dirLen : Nat
  ioText : IoFailure → String

namespace ContextServer

variable (srv : ContextServer)

def placeOf (path : List Char) : Names := place srv.cwd (Path.components path)

/-- `Path::is_dir`. -/
def isDir (tree : Tree) (path : List Char) : Bool :=
  tree.reaches srv.cwd (Path.components path)

def tenantAgent (tenantId : String) (agentId : Uuid) : List Char :=
  Path.push (Path.push srv.rootDir (Text.trim tenantId).toList) agentId.text.toList

def flatAgent (agentId : Uuid) : List Char := Path.push srv.rootDir agentId.text.toList

def resolveSourceDir (tree : Tree) (tenantId : String) (agentId : Uuid) : Option (List Char) :=
  if srv.isDir tree (srv.tenantAgent tenantId agentId) then some (srv.tenantAgent tenantId agentId)
  else if srv.isDir tree (srv.flatAgent agentId) then some (srv.flatAgent agentId)
  else none

def sourceDir (tree : Tree) (path : List Char) : SourceDir := tree.below (srv.placeOf path) path

/-- The loader on the tree. -/
def loadSnapshot (tree : Tree) (tenantId : String) (agentId : Uuid) :
    Except AgentContextLoadError AgentContextSnapshot :=
  loadAgentContextSnapshot srv.loader
    ((srv.resolveSourceDir tree tenantId agentId).map (srv.sourceDir tree))

def contextEnv (tenantId : String) (agentId : Uuid) : ContextEnv where
  state := srv.state
  loader := srv.loader
  agentId := agentId
  newSourceDir := String.ofList (srv.tenantAgent tenantId agentId)
  searchedPaths := [String.ofList (srv.tenantAgent tenantId agentId),
    String.ofList (srv.flatAgent agentId)]
  dirLen := srv.dirLen
  ioText := srv.ioText

/-- The directory with the tree it is in, or the tree that a failure leaves. -/
def resolveOrCreateSourceDir (tree : Tree) (tenantId : String) (agentId : Uuid) :
    ApiResult (List Char) × Tree :=
  match srv.resolveSourceDir tree tenantId agentId with
  | some path => (.ok path, tree)
  | none =>
    let path := srv.tenantAgent tenantId agentId
    match tree.makeDirs false srv.cwd (Path.components path) with
    | (none, tree') => (.ok path, tree')
    | (some failure, tree') => (.error (.internal ("failed creating agent context directory " ++
        String.ofList path ++ ": " ++ srv.ioText failure)), tree')

/-- A mutation whose request was checked, on the directory that is resolved for it. -/
def mutateSourceDir (tree : Tree) (agentId : Uuid) (headers : HeaderMap)
    (req : MutateAgentContextRequest) (m : ContextMutation) :
    ApiResult AgentContextMutationResponse × Tree :=
  match srv.resolveOrCreateSourceDir tree m.tenantId agentId with
  | (.error e, tree') => (.error e, tree')
  | (.ok path, tree') =>
    let answer := mutateAgentContext (srv.contextEnv m.tenantId agentId)
      (some (srv.sourceDir tree' path)) headers req
    (answer.1, match answer.2 with
      | some dir => tree'.graft (srv.placeOf path) dir
      | none => tree')

/-- The endpoint on the tree.  The checks come before the directory is looked for. -/
def mutate (tree : Tree) (agentId : Uuid) (headers : HeaderMap)
    (req : MutateAgentContextRequest) : ApiResult AgentContextMutationResponse × Tree :=
  match checkMutation (srv.contextEnv "" agentId) headers req with
  | .error e => (.error e, tree)
  | .ok m => srv.mutateSourceDir tree agentId headers req m

end ContextServer

end Api
end SecureAgnt

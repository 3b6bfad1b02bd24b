/-
Files, directories and symbolic links, and where a path leads.

A location is the list of names from the root.  A walk goes along the segments of a path
and is always in a directory; at a link it goes on along the target of the link, and a
system follows no more than so many links on one path.  `resolve_real` is what a
canonical path is good for: along directories a walk only adds names.
-/
import SecureAgnt.Lib.Path

namespace SecureAgnt

inductive Entry where
  | file
  | special
  | dir
  | link (target : List Char)
  deriving DecidableEq

abbrev Location := List (List Char)

/-- What has which name in which directory, and how many links are followed. -/
structure FileSystem where
  entry : Location → Option Entry
  maxLinks : Nat

/-- Where a path ends: at something that is no link, or at a name that its directory
does not have. -/
inductive Place where
  | existing (here : Location) (entry : Entry)
  | missing (here : Location)
  deriving DecidableEq

def Place.location : Place → Location
  | .existing here _ => here
  | .missing here => here

/-- The text of a location. -/
def Location.path (here : Location) : List Char := '/' :: Path.join here

namespace FileSystem

variable (fs : FileSystem)

/-- The walk from a directory; `follow` goes on at a link. -/
def walk (follow : Location → List (List Char) → Option Place) :
    Location → List (List Char) → Option Place
  | here, [] => some (.existing here .dir)
  | here, part :: rest =>
    if part = [] ∨ part = ['.'] then walk follow here rest
    else if part = ['.', '.'] then walk follow here.dropLast rest
    else
      match fs.entry (here ++ [part]) with
      | none => if rest = [] then some (.missing (here ++ [part])) else none
      | some .dir => walk follow (here ++ [part]) rest
      | some (.link target) =>
        follow (if Path.isAbsolute target then [] else here) (Path.segments target ++ rest)
      | some entry => if rest = [] then some (.existing (here ++ [part]) entry) else none

/-- The walk with so many links left. -/
def resolve : Nat → Location → List (List Char) → Option Place
  | 0 => fs.walk fun _ _ => none
  | links + 1 => fs.walk (resolve links)

/-- Where an absolute path leads. -/
def locate (path : List Char) : Option Place := fs.resolve fs.maxLinks [] (Path.segments path)

/-- Where the target of a link in a directory leads, the link itself counted. -/
def throughLink (here : Location) (target : List Char) : Option Place :=
  match fs.maxLinks with
  | 0 => none
  | links + 1 =>
    fs.resolve links (if Path.isAbsolute target then [] else here) (Path.segments target)

/-- `fs::canonicalize` of an absolute path. -/
def canonicalize (path : List Char) : Option (Location × Entry) :=
  match fs.locate path with
  | some (.existing here entry) => some (here, entry)
  | _ => none

/-- Every step from the root to the location is a directory with an ordinary name. -/
def Real (here : Location) : Prop :=
  ∀ front name, front ++ [name] <+: here → Path.IsName name ∧ fs.entry (front ++ [name]) = some .dir

/-- What a walk can end at: the names up to the last are real directories. -/
def Reached : Place → Prop
  | .existing here entry => (∀ target, entry ≠ .link target) ∧ (entry = .dir ∧ fs.Real here ∨
      entry ≠ .dir ∧ ∃ front name, here = front ++ [name] ∧ fs.Real front ∧ Path.IsName name ∧
        fs.entry here = some entry)
  | .missing here => ∃ front name, here = front ++ [name] ∧ fs.Real front ∧ Path.IsName name ∧
      fs.entry here = none

section Real

variable {fs} {here front names : Location} {name part : List Char}

theorem real_nil : fs.Real [] := by
  intro front name h
  rw [List.prefix_nil] at h
  exact absurd h (by simp)

theorem Real.of_prefix (h : fs.Real here) (hfront : front <+: here) : fs.Real front :=
  fun before name hbefore => h before name (hbefore.trans hfront)

theorem real_append (h : fs.Real here) (hname : Path.IsName name)
    (hentry : fs.entry (here ++ [name]) = some .dir) : fs.Real (here ++ [name]) := by
  intro front last hlast
  rcases List.prefix_concat_iff.mp hlast with heq | hlast
  · obtain ⟨rfl, hsame⟩ := List.append_inj' heq rfl
    rw [List.singleton_inj] at hsame
    rw [hsame]
    exact ⟨hname, hentry⟩
  · exact h front last hlast

theorem Real.isName (h : fs.Real here) : ∀ name ∈ here, Path.IsName name := by
  intro name hname
  obtain ⟨front, after, rfl⟩ := List.append_of_mem hname
  exact (h front name ⟨after, by simp⟩).1

end Real

/-! ## What a walk ends at -/

section Walk

variable {fs} {follow : Location → List (List Char) → Option Place} {here : Location}
  {parts : List (List Char)} {place : Place}

theorem isName_of_segment {part : List Char} (hslash : '/' ∉ part)
    (hdot : ¬ (part = [] ∨ part = ['.'])) (hdots : part ≠ ['.', '.']) : Path.IsName part :=
  ⟨fun h => hdot (.inl h), fun h => hdot (.inr h), hdots, hslash⟩

/-- A walk ends at what it may end at, if it does so where it follows a link. -/
theorem reached_walk
    (hfollow : ∀ here parts place, fs.Real here → (∀ part ∈ parts, '/' ∉ part) →
      follow here parts = some place → fs.Reached place)
    (hreal : fs.Real here) (hparts : ∀ part ∈ parts, '/' ∉ part)
    (h : fs.walk follow here parts = some place) : fs.Reached place := by
  induction parts generalizing here with
  | nil =>
    rw [walk, Option.some.injEq] at h
    rw [← h]
    exact ⟨nofun, .inl ⟨rfl, hreal⟩⟩
  | cons part rest ih =>
    have hrest : ∀ part ∈ rest, '/' ∉ part := fun p hp => hparts p (List.mem_cons_of_mem _ hp)
    have hslash := hparts part List.mem_cons_self
    rw [walk] at h
    by_cases hdot : part = [] ∨ part = ['.']
    · rw [if_pos hdot] at h
      exact ih hreal hrest h
    rw [if_neg hdot] at h
    by_cases hdots : part = ['.', '.']
    · rw [if_pos hdots] at h
      exact ih (hreal.of_prefix (List.dropLast_prefix here)) hrest h
    rw [if_neg hdots] at h
    have hname := isName_of_segment hslash hdot hdots
    cases hentry : fs.entry (here ++ [part]) with
    | none =>
      simp only [hentry] at h
      split at h
      · rw [Option.some.injEq] at h
        rw [← h]
        exact ⟨here, part, rfl, hreal, hname, hentry⟩
      · cases h
    | some entry =>
      cases entry with
      | dir =>
        simp only [hentry] at h
        exact ih (real_append hreal hname hentry) hrest h
      | link target =>
        simp only [hentry] at h
        refine hfollow _ _ _ ?_ ?_ h
        · split
          · exact real_nil
          · exact hreal
        · intro p hp
          rcases List.mem_append.mp hp with hp | hp
          · exact Path.slash_notMem_of_mem_segments hp
          · exact hrest p hp
      | file =>
        simp only [hentry] at h
        split at h
        · rw [Option.some.injEq] at h
          rw [← h]
          exact ⟨nofun, .inr ⟨nofun, here, part, rfl, hreal, hname, hentry⟩⟩
        · cases h
      | special =>
        simp only [hentry] at h
        split at h
        · rw [Option.some.injEq] at h
          rw [← h]
          exact ⟨nofun, .inr ⟨nofun, here, part, rfl, hreal, hname, hentry⟩⟩
        · cases h

theorem reached_resolve {links : Nat} (hreal : fs.Real here) (hparts : ∀ part ∈ parts, '/' ∉ part)
    (h : fs.resolve links here parts = some place) : fs.Reached place := by
  induction links generalizing here parts place with
  | zero => exact reached_walk (fun _ _ _ _ _ hnone => by cases hnone) hreal hparts h
  | succ links ih =>
    exact reached_walk (fun _ _ _ hreal hparts hsome => ih hreal hparts hsome) hreal hparts h

theorem reached_locate {path : List Char} (h : fs.locate path = some place) : fs.Reached place :=
  reached_resolve real_nil (fun _ => Path.slash_notMem_of_mem_segments) h

/-- Along directories a walk only adds names. -/
theorem walk_real {names : Location} (hreal : fs.Real (here ++ names)) :
    fs.walk follow here (names ++ parts) = fs.walk follow (here ++ names) parts := by
  induction names generalizing here with
  | nil => rw [List.nil_append, List.append_nil]
  | cons name rest ih =>
    have happend : here ++ name :: rest = (here ++ [name]) ++ rest := by simp
    obtain ⟨hname, hentry⟩ := hreal here name ⟨rest, happend.symm⟩
    rw [List.cons_append, walk, if_neg (by simp [hname.ne_nil, hname.ne_dot]),
      if_neg hname.ne_dots, hentry]
    rw [happend] at hreal ⊢
    exact ih hreal

theorem resolve_real {links : Nat} {names : Location} (hreal : fs.Real (here ++ names)) :
    fs.resolve links here (names ++ parts) = fs.resolve links (here ++ names) parts := by
  cases links with
  | zero => exact walk_real hreal
  | succ links => exact walk_real hreal

theorem resolve_nil {links : Nat} :
    fs.resolve links here ([] :: parts) = fs.resolve links here parts := by
  cases links with
  | zero => rw [resolve, walk, if_pos (.inl rfl)]
  | succ links => rw [resolve, walk, if_pos (.inl rfl)]

/-- A last step that is taken by an ordinary name. -/
theorem resolve_name {links : Nat} {name : List Char} (hname : Path.IsName name) :
    fs.resolve links here [name] =
      match fs.entry (here ++ [name]) with
      | none => some (.missing (here ++ [name]))
      | some (.link target) =>
        match links with
        | 0 => none
        | links + 1 =>
          fs.resolve links (if Path.isAbsolute target then [] else here) (Path.segments target)
      | some entry => some (.existing (here ++ [name]) entry) := by
  have hdot : ¬ (name = [] ∨ name = ['.']) := by simp [hname.ne_nil, hname.ne_dot]
  cases links with
  | zero =>
    rw [resolve, walk, if_neg hdot, if_neg hname.ne_dots]
    cases fs.entry (here ++ [name]) with
    | none => rfl
    | some entry => cases entry <;> rfl
  | succ links =>
    rw [resolve, walk, if_neg hdot, if_neg hname.ne_dots]
    cases fs.entry (here ++ [name]) with
    | none => rfl
    | some entry =>
      cases entry with
      | link target => simp only [List.append_nil]
      | _ => rfl

end Walk

/-! ## The text of a location -/

section Texts

variable {fs} {here : Location} {name : List Char}

theorem segments_path (hnames : ∀ name ∈ here, Path.IsName name) (hne : here ≠ []) :
    Path.segments here.path = [] :: here := by
  have hsplit := Path.segments_append [] (Path.join here)
  rw [Path.segments_join (fun name hname => (hnames name hname).no_slash) hne] at hsplit
  exact hsplit

theorem components_path (hnames : ∀ name ∈ here, Path.IsName name) :
    Path.components here.path = .rootDir :: here.map .normal := by
  have hstart : Path.start here.path = [.rootDir] := rfl
  rw [Path.components, hstart]
  by_cases hne : here = []
  · rw [hne]
    rfl
  · rw [segments_path hnames hne, List.filterMap_cons_none rfl,
      Path.filterMap_component?_of_isName hnames]
    rfl

/-- Paths of names contain one another as the lists of names do. -/
theorem within_path {outer : Location} (houter : ∀ name ∈ outer, Path.IsName name)
    (hnames : ∀ name ∈ here, Path.IsName name) :
    Path.Within outer.path here.path ↔ outer <+: here := by
  rw [Path.Within, components_path houter, components_path hnames, List.prefix_cons_inj]
  have hinjective : Function.Injective Path.Component.normal := fun _ _ h => by cases h; rfl
  exact List.prefix_map_iff_of_injective hinjective

theorem push_path (hnames : ∀ name ∈ here, Path.IsName name) (hname : Path.IsName name) :
    Path.push here.path name = Location.path (here ++ [name]) := by
  have hpush := Path.push_join hnames hname
  rw [Path.push, Path.isAbsolute_of_isName hname, if_neg Bool.false_ne_true] at hpush ⊢
  unfold Location.path
  by_cases hne : here = []
  · rw [hne]
    simp [Path.join]
  · have hjoin : Path.join here ≠ [] := by
      intro hnil
      have hsegments := Path.segments_join (fun name hname => (hnames name hname).no_slash) hne
      rw [hnil] at hsegments
      exact (hnames [] (hsegments ▸ List.mem_singleton_self _)).ne_nil rfl
    rw [List.getLast?_cons_of_ne_nil hjoin]
    by_cases hslash : (Path.join here).getLast? = some '/'
    · rw [if_pos (.inr hslash)] at hpush ⊢
      rw [← hpush, List.cons_append]
    · rw [if_neg (by simp [hslash, hjoin])] at hpush
      rw [if_neg (by simp [hslash]), ← hpush, List.cons_append]

/-- Where the text of a name in a real directory leads. -/
theorem locate_path (hreal : fs.Real here) (hname : Path.IsName name) :
    fs.locate (Location.path (here ++ [name])) = fs.resolve fs.maxLinks here [name] := by
  have hnames : ∀ part ∈ here ++ [name], Path.IsName part := by
    intro part hpart
    rcases List.mem_append.mp hpart with hpart | hpart
    · exact hreal.isName part hpart
    · rw [List.mem_singleton.mp hpart]
      exact hname
  rw [locate, segments_path hnames (by simp), resolve_nil]
  exact resolve_real (by rwa [List.nil_append])

/-- What a walk has ended at is where the text of its location leads. -/
theorem locate_existing {entry : Entry} (h : fs.Reached (.existing here entry)) :
    fs.locate here.path = some (.existing here entry) := by
  obtain ⟨hlink, ⟨rfl, hreal⟩ | ⟨_, front, name, rfl, hreal, hname, hentry⟩⟩ := h
  · rcases List.eq_nil_or_concat' here with rfl | ⟨front, name, rfl⟩
    · have hroot : Path.segments (Location.path []) = [[], []] := rfl
      rw [locate, hroot, resolve_nil, resolve_nil]
      cases fs.maxLinks <;> rfl
    · obtain ⟨hname, hentry⟩ := hreal front name (List.prefix_refl _)
      rw [locate_path (hreal.of_prefix (List.prefix_append _ _)) hname, resolve_name hname, hentry]
  · rw [locate_path hreal hname, resolve_name hname, hentry]
    cases entry with
    | link target => exact absurd rfl (hlink target)
    | _ => rfl

/-- Nothing is below what is neither a directory nor a link. -/
theorem locate_below {entry : Entry} {last : List Char} (hreached : fs.Reached (.existing here entry))
    (hdir : entry ≠ .dir) (hlast : Path.IsName last) :
    fs.locate (Location.path (here ++ [last])) = none := by
  obtain ⟨hlink, ⟨heq, _⟩ | ⟨_, front, name, rfl, hreal, hname, hentry⟩⟩ := hreached
  · exact absurd heq hdir
  have hnames : ∀ part ∈ front ++ [name] ++ [last], Path.IsName part := by
    intro part hpart
    simp only [List.mem_append, List.mem_singleton] at hpart
    rcases hpart with (hpart | rfl) | rfl
    · exact hreal.isName part hpart
    · exact hname
    · exact hlast
  have hdot : ¬ (name = [] ∨ name = ['.']) := by simp [hname.ne_nil, hname.ne_dot]
  rw [locate, segments_path hnames (by simp), resolve_nil, List.append_assoc,
    resolve_real (by rwa [List.nil_append]), List.nil_append]
  have hwalk : ∀ follow, fs.walk follow front ([name] ++ [last]) = none := by
    intro follow
    rw [List.singleton_append, walk, if_neg hdot, if_neg hname.ne_dots, hentry]
    cases entry with
    | dir => exact absurd rfl hdir
    | link target => exact absurd rfl (hlink target)
    | _ => rfl
  cases fs.maxLinks with
  | zero => exact hwalk _
  | succ links => exact hwalk _

theorem Reached.isName {place : Place} (h : fs.Reached place) :
    ∀ name ∈ place.location, Path.IsName name := by
  have hlast : ∀ {front : Location} {name : List Char}, fs.Real front → Path.IsName name →
      ∀ part ∈ front ++ [name], Path.IsName part := by
    intro front name hreal hname part hpart
    rcases List.mem_append.mp hpart with hpart | hpart
    · exact hreal.isName part hpart
    · rw [List.mem_singleton.mp hpart]
      exact hname
  cases place with
  | existing here entry =>
    obtain ⟨_, ⟨_, hreal⟩ | ⟨_, front, name, rfl, hreal, hname, _⟩⟩ := h
    · exact hreal.isName
    · exact hlast hreal hname
  | missing here =>
    obtain ⟨front, name, rfl, hreal, hname, _⟩ := h
    exact hlast hreal hname

end Texts

end FileSystem
end SecureAgnt

/-
Unix paths as text: their components, and pushing one path onto another.

A path is the list of its characters.  Its components are what is between the
slashes, less the empty segments and the dots; only a slash or a dot at the very
start counts as a component of its own.
-/
import Mathlib.Algebra.Order.BigOperators.Group.List
import Mathlib.Algebra.Order.Ring.Nat
import Mathlib.Data.List.Induction

namespace SecureAgnt
namespace Path

inductive Component where
  | rootDir
  | curDir
  | parentDir
  | normal (part : List Char)
  deriving DecidableEq

def isAbsolute (path : List Char) : Bool := path.head? == some '/'

def segments (path : List Char) : List (List Char) := path.splitOn '/'

/-- What a segment stands for once the start of the path is read. -/
def component? : List Char → Option Component
  | [] => none
  | ['.'] => none
  | ['.', '.'] => some .parentDir
  | part => some (.normal part)

def start (path : List Char) : List Component :=
  if isAbsolute path then [.rootDir]
  else if (segments path).head? = some ['.'] then [.curDir]
  else []

/-- `Path::components`. -/
def components (path : List Char) : List Component :=
  start path ++ (segments path).filterMap component?

/-- `PathBuf::push`: an absolute path replaces what is there. -/
def push (base part : List Char) : List Char :=
  if isAbsolute part then part
  else if base = [] ∨ base.getLast? = some '/' then base ++ part
  else base ++ '/' :: part

/-- `Path::parent`, for a path that ends in a name below a directory. -/
def parent (path : List Char) : List Char := ['/'].intercalate (segments path).dropLast

/-- `Path::starts_with`: the second path is the first one or an ancestor of it. -/
def Within (base path : List Char) : Prop := components base <+: components path

instance (base path : List Char) : Decidable (Within base path) :=
  inferInstanceAs (Decidable (components base <+: components path))

/-- A path that names alone lead to from another one. -/
def Below (base path : List Char) : Prop :=
  ∃ names : List (List Char), components path = components base ++ names.map .normal

/-- Neither of two paths is the other one or inside it. -/
def Apart (left right : List Char) : Prop := ¬ Within left right ∧ ¬ Within right left

/-- A segment that is the name of a file or directory. -/
structure IsName (part : List Char) : Prop where
  ne_nil : part ≠ []
  ne_dot : part ≠ ['.']
  ne_dots : part ≠ ['.', '.']
  no_slash : '/' ∉ part

def join (names : List (List Char)) : List Char := ['/'].intercalate names

/-- The segments that are neither empty nor a dot. -/
def kept (path : List Char) : List (List Char) :=
  (segments path).filter fun part => part ≠ [] ∧ part ≠ ['.']

/-! ## Segments -/

section Segments

variable {path left right part : List Char} {names : List (List Char)}

theorem segments_ne_nil (path : List Char) : segments path ≠ [] := List.splitOn_ne_nil _ _

theorem segments_append (left right : List Char) :
    segments (left ++ '/' :: right) = segments left ++ segments right :=
  List.splitOn_append_cons_self left right

theorem join_segments (path : List Char) : join (segments path) = path :=
  List.intercalate_splitOn '/'

theorem segments_join (hnames : ∀ part ∈ names, '/' ∉ part) (hne : names ≠ []) :
    segments (join names) = names :=
  List.splitOn_intercalate '/' hnames hne

theorem slash_notMem_of_mem_segments (h : part ∈ segments path) : '/' ∉ part := by
  induction path generalizing part with
  | nil =>
    rw [show segments [] = [[]] from rfl, List.mem_singleton] at h
    rw [h]
    exact List.not_mem_nil
  | cons c rest ih =>
    unfold segments at h ih
    rw [List.splitOn_cons_eq_if_modifyHead] at h
    cases hrest : rest.splitOn '/' with
    | nil => exact absurd hrest (List.splitOn_ne_nil _ _)
    | cons first others =>
      rw [hrest] at h ih
      by_cases hc : c = '/'
      · rw [if_pos (by rw [hc]; rfl), List.mem_cons] at h
        rcases h with rfl | h
        · exact List.not_mem_nil
        · exact ih h
      · rw [if_neg (by simpa using hc), List.modifyHead_cons, List.mem_cons] at h
        rcases h with rfl | h
        · have hfirst := ih (List.mem_cons_self ..)
          simp only [List.mem_cons, not_or]
          exact ⟨fun h => hc h.symm, hfirst⟩
        · exact ih (List.mem_cons_of_mem _ h)

theorem join_append {more : List (List Char)} (hne : names ≠ []) (hmore : more ≠ []) :
    join (names ++ more) = join names ++ '/' :: join more := by
  induction names with
  | nil => exact absurd rfl hne
  | cons first rest ih =>
    cases rest with
    | nil =>
      cases more with
      | nil => exact absurd rfl hmore
      | cons second others => simp [join]
    | cons second others =>
      have hrest := ih (List.cons_ne_nil _ _)
      simp only [join, List.cons_append, List.intercalate_cons_cons] at hrest ⊢
      rw [hrest]
      simp

theorem mem_join_iff {c : Char} (hc : c ≠ '/') : c ∈ join names ↔ ∃ part ∈ names, c ∈ part := by
  induction names with
  | nil => simp [join]
  | cons first rest ih =>
    cases rest with
    | nil => simp [join]
    | cons second others =>
      have hcons : join (first :: second :: others) = first ++ '/' :: join (second :: others) := by
        simp [join]
      rw [hcons, List.mem_append, List.mem_cons, ih]
      simp only [List.mem_cons, hc, false_or, exists_eq_or_imp]

theorem mem_kept : part ∈ kept path ↔ part ∈ segments path ∧ part ≠ [] ∧ part ≠ ['.'] := by
  simp [kept]

end Segments

/-! ## Components -/

section Components

variable {path base part : List Char} {names : List (List Char)}

theorem component?_of_isName (h : IsName part) : component? part = some (.normal part) := by
  unfold component?
  split
  · exact absurd rfl h.ne_nil
  · exact absurd rfl h.ne_dot
  · exact absurd rfl h.ne_dots
  · rfl

theorem filterMap_component?_of_isName (h : ∀ part ∈ names, IsName part) :
    names.filterMap component? = names.map .normal := by
  induction names with
  | nil => rfl
  | cons first rest ih =>
    have hfirst := component?_of_isName (h first (List.mem_cons_self ..))
    have hrest := ih fun part hpart => h part (List.mem_cons_of_mem _ hpart)
    rw [List.filterMap_cons_some hfirst, hrest, List.map_cons]

theorem head?_ne_slash_of_isName (h : IsName part) (rest : List Char) :
    (part ++ rest).head? ≠ some '/' := by
  cases part with
  | nil => exact absurd rfl h.ne_nil
  | cons c cs =>
    intro heq
    rw [List.cons_append, List.head?_cons, Option.some.injEq] at heq
    exact h.no_slash (heq ▸ List.mem_cons_self ..)

theorem isAbsolute_join (h : ∀ part ∈ names, IsName part) : isAbsolute (join names) = false := by
  cases names with
  | nil => rfl
  | cons first rest =>
    have hfirst := h first (List.mem_cons_self ..)
    have hne : (join (first :: rest)).head? ≠ some '/' := by
      cases rest with
      | nil => simpa [join] using head?_ne_slash_of_isName hfirst []
      | cons second others =>
        simp only [join, List.intercalate_cons_cons, List.append_assoc]
        exact head?_ne_slash_of_isName hfirst _
    simpa [isAbsolute] using hne

theorem isAbsolute_of_isName (h : IsName part) : isAbsolute part = false := by
  have habs := @isAbsolute_join [part] (by simpa using h)
  simpa [join] using habs

theorem start_join (h : ∀ part ∈ names, IsName part) : start (join names) = [] := by
  cases names with
  | nil => rfl
  | cons first rest =>
    have hfirst := h first (List.mem_cons_self ..)
    have hsegments := segments_join (fun part hpart => (h part hpart).no_slash)
      (List.cons_ne_nil first rest)
    have hhead : (segments (join (first :: rest))).head? ≠ some ['.'] := by
      rw [hsegments, List.head?_cons]
      exact fun heq => hfirst.ne_dot (Option.some.inj heq)
    rw [start, isAbsolute_join h, if_neg Bool.false_ne_true, if_neg hhead]

theorem components_join (h : ∀ part ∈ names, IsName part) :
    components (join names) = names.map .normal := by
  rw [components, start_join h, List.nil_append]
  cases hnames : names with
  | nil => rfl
  | cons first rest =>
    rw [← hnames, segments_join (fun part hpart => (h part hpart).no_slash) (by simp [hnames]),
      filterMap_component?_of_isName h]

theorem start_congr (hhead : (segments path).head? = (segments base).head?)
    (hfirst : path.head? = base.head?) : start path = start base := by
  rw [start, start, isAbsolute, isAbsolute, hhead, hfirst]

theorem head?_segments_append (left right : List Char) :
    (segments (left ++ '/' :: right)).head? = (segments left).head? := by
  rw [segments_append]
  exact List.head?_append_of_ne_nil _ (segments_ne_nil left)

theorem isAbsolute_push (habs : isAbsolute part = false) (base : List Char) :
    isAbsolute (push base part) = isAbsolute base := by
  rw [push, habs, if_neg Bool.false_ne_true]
  cases base with
  | nil => exact habs
  | cons c cs => split <;> rfl

/-- A relative path that is pushed brings its own parts. -/
theorem parts_push (habs : isAbsolute part = false) (base : List Char) :
    (segments (push base part)).filterMap component? =
      (segments base).filterMap component? ++ (segments part).filterMap component? := by
  rw [push, habs, if_neg Bool.false_ne_true]
  by_cases hbase : base = []
  · rw [if_pos (Or.inl hbase), hbase]
    rfl
  by_cases hslash : base.getLast? = some '/'
  · -- the slash is there already: its last segment is empty and goes
    obtain ⟨front, rfl⟩ := List.getLast?_eq_some_iff.mp hslash
    rw [if_pos (Or.inr hslash), List.append_assoc, List.singleton_append, segments_append,
      segments_append, List.filterMap_append, List.filterMap_append]
    simp [segments, component?]
  · rw [if_neg (by simp [hbase, hslash]), segments_append, List.filterMap_append]

theorem start_push (habs : isAbsolute part = false) (hstart : start part = [])
    (base : List Char) : start (push base part) = start base := by
  rw [push, habs, if_neg Bool.false_ne_true]
  by_cases hbase : base = []
  · rw [if_pos (Or.inl hbase), hbase]
    exact hstart
  by_cases hslash : base.getLast? = some '/'
  · obtain ⟨front, rfl⟩ := List.getLast?_eq_some_iff.mp hslash
    rw [if_pos (Or.inr hslash), List.append_assoc, List.singleton_append]
    refine start_congr ?_ ?_
    · rw [head?_segments_append, head?_segments_append]
    · cases front <;> rfl
  · rw [if_neg (by simp [hbase, hslash])]
    refine start_congr (head?_segments_append _ _) ?_
    cases base with
    | nil => exact absurd rfl hbase
    | cons c cs => rfl

/-- Pushing names appends their components. -/
theorem components_push (h : ∀ part ∈ names, IsName part) (base : List Char) :
    components (push base (join names)) = components base ++ names.map .normal := by
  have hjoin := components_join h
  rw [components, start_join h, List.nil_append] at hjoin
  rw [components, start_push (isAbsolute_join h) (start_join h), parts_push (isAbsolute_join h),
    hjoin, components, List.append_assoc]

theorem mem_push {c : Char} (hc : c ≠ '/') (habs : isAbsolute part = false) :
    c ∈ push base part ↔ c ∈ base ∨ c ∈ part := by
  rw [push, habs, if_neg Bool.false_ne_true]
  split
  · exact List.mem_append
  · rw [List.mem_append, List.mem_cons]
    simp only [hc, false_or]

theorem push_join (h : ∀ part ∈ names, IsName part) (hpart : IsName part) :
    push (join names) part = join (names ++ [part]) := by
  rw [push, isAbsolute_of_isName hpart, if_neg Bool.false_ne_true]
  rcases List.eq_nil_or_concat names with rfl | hconcat
  · simp [join]
  obtain ⟨front, last, rfl⟩ := hconcat
  have hlast := h last (by simp)
  have hends : ∃ before, join (front ++ [last]) = before ++ last := by
    by_cases hfront : front = []
    · exact ⟨[], by simp [hfront, join]⟩
    · refine ⟨join front ++ ['/'], ?_⟩
      rw [join_append hfront (List.cons_ne_nil _ _)]
      simp [join]
  obtain ⟨before, hbefore⟩ := hends
  have hne : join (front ++ [last]) ≠ [] := by
    rw [hbefore]
    simp [hlast.ne_nil]
  have hslash : (join (front ++ [last])).getLast? ≠ some '/' := by
    rw [hbefore, List.getLast?_append_of_ne_nil _ hlast.ne_nil]
    exact fun heq => hlast.no_slash (List.mem_of_getLast? heq)
  rw [if_neg (by simp [hne, hslash]), join_append (by simp) (List.cons_ne_nil _ _)]
  simp [join]

theorem foldl_push (h : ∀ part ∈ names, IsName part) : names.foldl push [] = join names := by
  induction names using List.reverseRecOn with
  | nil => rfl
  | append_singleton front last ih =>
    have hfront : ∀ part ∈ front, IsName part := fun part hpart => h part (by simp [hpart])
    rw [List.foldl_append, ih hfront]
    exact push_join hfront (h last (by simp))

end Components

/-! ## The segments that are kept -/

section Kept

variable {path part : List Char} {names : List (List Char)}

theorem isName_of_mem_kept (hparent : .parentDir ∉ components path) (h : part ∈ kept path) :
    IsName part := by
  obtain ⟨hmem, hnil, hdot⟩ := mem_kept.mp h
  refine ⟨hnil, hdot, ?_, slash_notMem_of_mem_segments hmem⟩
  intro hdots
  refine hparent (List.mem_append_right _ (List.mem_filterMap.mpr ⟨part, hmem, ?_⟩))
  rw [hdots]
  rfl

theorem filterMap_kept (parts : List (List Char)) :
    (parts.filter fun part => part ≠ [] ∧ part ≠ ['.']).filterMap component? =
      parts.filterMap component? := by
  induction parts with
  | nil => rfl
  | cons first rest ih =>
    by_cases hfirst : first ≠ [] ∧ first ≠ ['.']
    · rw [List.filter_cons_of_pos (by simpa using hfirst), List.filterMap_cons,
        List.filterMap_cons, ih]
    · have hnone : component? first = none := by
        rw [not_and_or, not_not, not_not] at hfirst
        rcases hfirst with rfl | rfl <;> rfl
      rw [List.filter_cons_of_neg (by simpa using hfirst), List.filterMap_cons_none hnone, ih]

theorem components_eq_kept (hparent : .parentDir ∉ components path) :
    components path = start path ++ (kept path).map .normal := by
  rw [components, ← filterMap_kept]
  congr 1
  exact filterMap_component?_of_isName fun part hpart => isName_of_mem_kept hparent hpart

theorem mem_join_kept_iff {c : Char} (hslash : c ≠ '/') (hdot : c ≠ '.') :
    c ∈ join (kept path) ↔ c ∈ path := by
  have hpath : c ∈ path ↔ ∃ part ∈ segments path, c ∈ part := by
    rw [← mem_join_iff hslash, join_segments]
  rw [mem_join_iff hslash, hpath]
  constructor
  · intro h
    obtain ⟨part, hpart, hc⟩ := h
    exact ⟨part, (mem_kept.mp hpart).1, hc⟩
  · intro h
    obtain ⟨part, hpart, hc⟩ := h
    refine ⟨part, mem_kept.mpr ⟨hpart, ?_, ?_⟩, hc⟩
    · exact List.ne_nil_of_mem hc
    · intro heq
      rw [heq, List.mem_singleton] at hc
      exact hdot hc

theorem length_join (hne : names ≠ []) :
    (join names).length + 1 = (names.map fun part => part.length + 1).sum := by
  induction names with
  | nil => exact absurd rfl hne
  | cons first rest ih =>
    cases rest with
    | nil => simp [join]
    | cons second others =>
      have hrest := ih (List.cons_ne_nil _ _)
      simp only [join, List.intercalate_cons_cons, List.length_append, List.length_singleton,
        List.map_cons, List.sum_cons] at hrest ⊢
      omega

theorem length_join_kept_le (hne : kept path ≠ []) : (join (kept path)).length ≤ path.length := by
  have hkept := length_join hne
  have hall := length_join (segments_ne_nil path)
  have hsum : ((kept path).map fun part => part.length + 1).sum ≤
      ((segments path).map fun part => part.length + 1).sum :=
    (List.filter_sublist.map _).sum_le_sum fun _ _ => Nat.zero_le _
  rw [join_segments] at hall
  omega

/-- A path starts the text of its kept segments only when it is that text. -/
theorem prefix_join_kept_iff (hne : kept path ≠ []) :
    path <+: join (kept path) ↔ ∀ part ∈ segments path, part ≠ [] ∧ part ≠ ['.'] := by
  constructor
  · intro h part hpart
    have heq : path = join (kept path) := h.eq_of_length_le (length_join_kept_le hne)
    have hsegments : segments path = kept path := by
      have hslash : ∀ part ∈ kept path, '/' ∉ part :=
        fun part hpart => slash_notMem_of_mem_segments (mem_kept.mp hpart).1
      rw [← segments_join hslash hne, ← heq]
    rw [hsegments] at hpart
    exact (mem_kept.mp hpart).2
  · intro h
    have hkept : kept path = segments path :=
      List.filter_eq_self.mpr fun part hpart => by simpa using h part hpart
    have heq : join (kept path) = path := by rw [hkept, join_segments]
    exact ⟨[], by rw [List.append_nil, heq]⟩

theorem kept_join (hne : names ≠ []) (h : ∀ part ∈ names, IsName part) :
    kept (join names) = names := by
  rw [kept, segments_join (fun part hpart => (h part hpart).no_slash) hne]
  refine List.filter_eq_self.mpr ?_
  intro part hpart
  simp [(h part hpart).ne_nil, (h part hpart).ne_dot]

/-- The parts of a path that never leads up are the segments that are kept. -/
theorem parts_eq_kept (hparent : .parentDir ∉ components path) :
    (segments path).filterMap component? = (kept path).map .normal :=
  List.append_cancel_left (components_eq_kept hparent)

theorem kept_of_isName (h : IsName part) : kept part = [part] := by
  have hkept := @kept_join [part] (List.cons_ne_nil _ _) (by simpa using h)
  simpa [join] using hkept

theorem parentDir_notMem_of_isName (h : IsName part) : .parentDir ∉ components part := by
  have hparts := @components_join [part] (by simpa using h)
  simp only [join, List.intercalate_singleton] at hparts
  simp [hparts]

end Kept

/-! ## The last component -/

def trimSegments (parts : List (List Char)) : List (List Char) :=
  (parts.reverse.dropWhile fun part => part = [] ∨ part = ['.']).reverse

/-- The last component of an absolute path and the segments before it. -/
def splitLast (path : List Char) : Option (List (List Char) × List Char) :=
  (trimSegments (segments path)).getLast?.map fun last =>
    ((trimSegments (segments path)).dropLast, last)

/-- `Path::parent` of an absolute path; the root has none. -/
def parent? (path : List Char) : Option (List Char) :=
  (splitLast path).map fun (front, _) =>
    let kept := trimSegments front
    if kept = [] then ['/'] else join kept

/-- `Path::file_name` of an absolute path: its last component, if that is a name. -/
def fileName? (path : List Char) : Option (List Char) :=
  (splitLast path).bind fun (_, last) => if last = ['.', '.'] then none else some last

example : parent? "/a//b/./".toList = some "/a".toList ∧
    fileName? "/a//b/./".toList = some "b".toList ∧ fileName? "/a/..".toList = none := by
  decide +kernel

section Last

variable {path part : List Char}

theorem isName_of_fileName? (h : fileName? path = some part) : IsName part := by
  unfold fileName? splitLast at h
  cases hlast : (trimSegments (segments path)).getLast? with
  | none =>
    rw [hlast] at h
    cases h
  | some last =>
    rw [hlast] at h
    by_cases hdots : last = ['.', '.']
    · simp [hdots] at h
    · simp only [Option.map_some, Option.bind_some, hdots, if_false, Option.some.injEq] at h
      subst h
      unfold trimSegments at hlast
      rw [List.getLast?_reverse] at hlast
      have hmem : last ∈ segments path := by
        have hdropped := List.mem_of_mem_head? hlast
        exact List.mem_reverse.mp ((List.dropWhile_sublist _).subset hdropped)
      have hkept := List.head?_dropWhile_not (fun part => decide (part = [] ∨ part = ['.']))
        (segments path).reverse
      rw [hlast] at hkept
      simp only [decide_eq_false_iff_not, not_or] at hkept
      exact ⟨hkept.1, hkept.2, hdots, slash_notMem_of_mem_segments hmem⟩

end Last

/-! ## Two paths -/

section Pairs

variable {base left right path : List Char}

theorem Below.within (h : Below base path) : Within base path := by
  obtain ⟨names, hnames⟩ := h
  rw [Within, hnames]
  exact List.prefix_append _ _

/-- Two paths that a third one is within are not apart. -/
theorem not_apart_of_within (hleft : Within left path) (hright : Within right path) :
    ¬ Apart left right := by
  intro hapart
  rcases List.prefix_or_prefix_of_prefix hleft hright with h | h
  · exact hapart.1 h
  · exact hapart.2 h

end Pairs

end Path
end SecureAgnt

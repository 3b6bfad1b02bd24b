/-
The files that `local.exec` may read and write.

A path that is read is resolved as a whole before it is compared with the roots.  Of a
path that is written only the directory is resolved, and the file name is put back
unresolved, so a symbolic link of that name is followed by the command afterwards.
`local_exec_confined_iff` says of which paths the location still is below a root.
-/
import SecureAgnt.Lib.FileSystem
import SecureAgnt.Lib.Json
import SecureAgnt.Lib.Text

namespace SecureAgnt
namespace Worker

/-! ## Roots -/

structure LocalExecRoots where
  readRoots : List (List Char)
  writeRoots : List (List Char)

def parseRootsFromEnv (fs : FileSystem) (label : String) :
    List String → Except String (List (List Char))
  | [] => .ok []
  | value :: raw =>
    if Path.isAbsolute value.toList = false then
      .error (label ++ " entry must be absolute path: " ++ value)
    else
      match fs.canonicalize value.toList with
      | none => .error ("failed to canonicalize " ++ label ++ " entry `" ++ value ++
          "` (ensure directory exists)")
      | some (here, entry) =>
        if entry ≠ .dir then
          .error (label ++ " entry must be a directory: " ++ String.ofList here.path)
        else (parseRootsFromEnv fs label raw).map (here.path :: ·)

def pathIsWithinRoots (path : List Char) (roots : List (List Char)) : Bool :=
  roots.any fun root => Path.Within root path

/-! ## Checks of a path -/

def validateReadPath (fs : FileSystem) (pathRaw : String) (roots : List (List Char)) :
    Except String (List Char) :=
  if Path.isAbsolute pathRaw.toList = false then
    .error ("local.exec read path must be absolute: " ++ pathRaw)
  else
    match fs.canonicalize pathRaw.toList with
    | none => .error ("failed to resolve local.exec read path `" ++ pathRaw ++ "`")
    | some (here, entry) =>
      if entry ≠ .file then
        .error ("local.exec read path must resolve to a file: " ++ String.ofList here.path)
      else if pathIsWithinRoots here.path roots = false then
        .error ("local.exec read path `" ++ String.ofList here.path ++ "` is outside allowed roots")
      else .ok here.path

def validateWritePath (fs : FileSystem) (pathRaw : String) (roots : List (List Char)) :
    Except String (List Char) :=
  if Path.isAbsolute pathRaw.toList = false then
    .error ("local.exec write path must be absolute: " ++ pathRaw)
  else
    match Path.parent? pathRaw.toList with
    | none => .error ("local.exec write path must have a parent: " ++ pathRaw)
    | some parent =>
      match fs.canonicalize parent with
      | none => .error ("failed to resolve parent for local.exec write path `" ++
          String.ofList parent ++ "`")
      | some (here, _) =>
        if pathIsWithinRoots here.path roots = false then
          .error ("local.exec write path parent `" ++ String.ofList here.path ++
            "` is outside allowed roots")
        else
          match Path.fileName? pathRaw.toList with
          | none => .error ("local.exec write path missing file name: " ++ pathRaw)
          | some name => .ok (Path.push here.path name)

/-! ## Commands -/

structure CommandSpec where
  program : String
  args : List String
  deriving DecidableEq

def requiredPathArg (args : Json) (key : String) : Except String String :=
  match ((args.get? key).bind Json.asStr?).bind Text.nonEmptyTrimmed with
  | none => .error ("local.exec args." ++ key ++ " is required")
  | some value => .ok value

def headLines (args : Json) : Except String Nat :=
  let lines := ((args.get? "lines").bind Json.asU64?).getD 20
  if lines = 0 ∨ 200 < lines then
    .error "local.exec file.head lines must be between 1 and 200"
  else .ok lines

def buildCommandFromTemplate (fs : FileSystem) (roots : LocalExecRoots) (templateId : String)
    (args : Json) : Except String CommandSpec :=
  match templateId with
  | "file.head" => do
    let raw ← requiredPathArg args "path"
    let path ← validateReadPath fs raw roots.readRoots
    let lines ← headLines args
    .ok ⟨"head", ["-n", toString lines, String.ofList path]⟩
  | "file.word_count" => do
    let raw ← requiredPathArg args "path"
    let path ← validateReadPath fs raw roots.readRoots
    .ok ⟨"wc", ["-w", String.ofList path]⟩
  | "file.touch" => do
    let raw ← requiredPathArg args "path"
    let path ← validateWritePath fs raw roots.writeRoots
    .ok ⟨"touch", [String.ofList path]⟩
  | other => .error ("unknown local.exec template `" ++ other ++
      "` (allowed: file.head, file.word_count, file.touch)")

/-! ## Inside the roots -/

/-- The location is a root or below one. -/
def InRoots (roots : List (List Char)) (here : Location) : Prop :=
  ∃ dir : Location, dir.path ∈ roots ∧ dir <+: here

/-- A path that is accepted for reading leads to a file in a root. -/
def ReadConfined (fs : FileSystem) (roots : List (List Char)) (pathRaw : String) : Prop :=
  ∀ path, validateReadPath fs pathRaw roots = .ok path →
    ∃ here, fs.locate path = some (.existing here .file) ∧ InRoots roots here

/-- A path that is accepted for writing leads to a location in a root, whether or not
there is something yet. -/
def WriteConfined (fs : FileSystem) (roots : List (List Char)) (pathRaw : String) : Prop :=
  ∀ path, validateWritePath fs pathRaw roots = .ok path →
    ∃ place, fs.locate path = some place ∧ InRoots roots place.location

/-- What the path names in its directory, if that is in a root: the directory is one, and
there is no link under the file name but one whose target is in a root. -/
def LastStepConfined (fs : FileSystem) (roots : List (List Char)) (pathRaw : String) : Prop :=
  ∀ parent name here entry, Path.isAbsolute pathRaw.toList = true →
    Path.parent? pathRaw.toList = some parent → Path.fileName? pathRaw.toList = some name →
    fs.canonicalize parent = some (here, entry) → pathIsWithinRoots here.path roots = true →
      entry = .dir ∧ ∀ target, fs.entry (here ++ [name]) = some (.link target) →
        ∃ place, fs.throughLink here target = some place ∧ InRoots roots place.location

section Roots

variable {fs₀ fs : FileSystem} {label : String} {raw : List String} {roots : List (List Char)}
  {here : Location} {entry : Entry}

theorem reached_of_canonicalize {path : List Char} (h : fs.canonicalize path = some (here, entry)) :
    fs.Reached (.existing here entry) := by
  unfold FileSystem.canonicalize at h
  split at h
  · rename_i there entry' hlocate
    rw [Option.some.injEq, Prod.mk.injEq] at h
    rw [← h.1, ← h.2]
    exact FileSystem.reached_locate hlocate
  · cases h

/-- Every root is the path of a directory. -/
theorem parseRootsFromEnv_real (h : parseRootsFromEnv fs₀ label raw = .ok roots) :
    ∀ root ∈ roots, ∃ dir : Location, root = dir.path ∧ fs₀.Real dir := by
  induction raw generalizing roots with
  | nil =>
    cases h
    exact nofun
  | cons value raw ih =>
    rw [parseRootsFromEnv] at h
    split at h
    · cases h
    · split at h
      · cases h
      · rename_i dir entry hcanonical
        by_cases hdir : entry = .dir
        · rw [if_neg (not_not.mpr hdir)] at h
          cases hrest : parseRootsFromEnv fs₀ label raw with
          | error e =>
            rw [hrest] at h
            cases h
          | ok rest =>
            rw [hrest] at h
            cases h
            intro root hroot
            rcases List.mem_cons.mp hroot with rfl | hroot
            · obtain ⟨_, ⟨_, hreal⟩ | ⟨hne, _⟩⟩ := reached_of_canonicalize hcanonical
              · exact ⟨dir, rfl, hreal⟩
              · exact absurd hdir hne
            · exact ih hrest root hroot
        · rw [if_pos hdir] at h
          cases h

/-- The comparison of paths is that of the locations. -/
theorem pathIsWithinRoots_iff (hroots : parseRootsFromEnv fs₀ label raw = .ok roots)
    (hnames : ∀ name ∈ here, Path.IsName name) :
    pathIsWithinRoots here.path roots = true ↔ InRoots roots here := by
  unfold pathIsWithinRoots
  rw [List.any_eq_true]
  constructor
  · intro h
    obtain ⟨root, hroot, hwithin⟩ := h
    obtain ⟨dir, rfl, hreal⟩ := parseRootsFromEnv_real hroots root hroot
    exact ⟨dir, hroot, (FileSystem.within_path hreal.isName hnames).mp (of_decide_eq_true hwithin)⟩
  · intro h
    obtain ⟨dir, hdir, hfront⟩ := h
    have hdirNames : ∀ name ∈ dir, Path.IsName name :=
      fun name hname => hnames name (hfront.subset hname)
    exact ⟨dir.path, hdir,
      decide_eq_true ((FileSystem.within_path hdirNames hnames).mpr hfront)⟩

end Roots

/-! ## What the checks accept -/

section Checks

variable {fs : FileSystem} {roots : List (List Char)} {pathRaw : String} {path : List Char}

theorem validateReadPath_eq_ok (h : validateReadPath fs pathRaw roots = .ok path) :
    ∃ here : Location, path = here.path ∧ fs.Reached (.existing here .file) ∧
      pathIsWithinRoots here.path roots = true := by
  unfold validateReadPath at h
  split at h
  · cases h
  · split at h
    · cases h
    · rename_i here entry hcanonical
      by_cases hfile : entry = .file
      · rw [if_neg (not_not.mpr hfile)] at h
        split at h
        · cases h
        · rename_i hwithin
          rw [Except.ok.injEq] at h
          rw [hfile] at hcanonical
          exact ⟨here, h.symm, reached_of_canonicalize hcanonical, by simpa using hwithin⟩
      · rw [if_pos hfile] at h
        cases h

theorem validateWritePath_eq_ok : validateWritePath fs pathRaw roots = .ok path ↔
    Path.isAbsolute pathRaw.toList = true ∧ ∃ parent name here entry,
      Path.parent? pathRaw.toList = some parent ∧ Path.fileName? pathRaw.toList = some name ∧
      fs.canonicalize parent = some (here, entry) ∧ pathIsWithinRoots here.path roots = true ∧
      path = Path.push here.path name := by
  unfold validateWritePath
  cases habsolute : Path.isAbsolute pathRaw.toList with
  | false => simp
  | true =>
    cases hparent : Path.parent? pathRaw.toList with
    | none => simp
    | some parent =>
      cases hcanonical : fs.canonicalize parent with
      | none => simp [hcanonical]
      | some found =>
        obtain ⟨here, entry⟩ := found
        cases hwithin : pathIsWithinRoots here.path roots with
        | false => simp [hcanonical, hwithin]
        | true =>
          cases hname : Path.fileName? pathRaw.toList with
          | none => simp [hcanonical, hwithin]
          | some name =>
            simp only [hcanonical, hwithin, Bool.true_eq_false, if_false, Except.ok.injEq, true_and]
            constructor
            · intro h
              exact ⟨parent, name, here, entry, rfl, rfl, hcanonical, hwithin, h.symm⟩
            · intro h
              obtain ⟨_, _, _, _, hparent', hname', hcanonical', _, hpath⟩ := h
              rw [Option.some.injEq] at hparent' hname'
              rw [← hparent', hcanonical, Option.some.injEq, Prod.mk.injEq] at hcanonical'
              rw [hpath, ← hname', ← hcanonical'.1]

end Checks

/-! ## Where accepted paths lead -/

section Confined

variable {fs₀ fs : FileSystem} {label : String} {raw : List String} {roots : List (List Char)}

theorem readConfined (hroots : parseRootsFromEnv fs₀ label raw = .ok roots) (pathRaw : String) :
    ReadConfined fs roots pathRaw := by
  intro path hpath
  obtain ⟨here, rfl, hreached, hwithin⟩ := validateReadPath_eq_ok hpath
  exact ⟨here, FileSystem.locate_existing hreached,
    (pathIsWithinRoots_iff hroots hreached.isName).mp hwithin⟩

/-- A file name in a real directory of a root leads below the root, or through a link. -/
theorem locate_push {here : Location} {name : List Char} (hreal : fs.Real here)
    (hname : Path.IsName name) (hwithin : InRoots roots here) :
    (∃ place, fs.locate (Path.push here.path name) = some place ∧ InRoots roots place.location) ↔
      ∀ target, fs.entry (here ++ [name]) = some (.link target) →
        ∃ place, fs.throughLink here target = some place ∧ InRoots roots place.location := by
  have hbelow : InRoots roots (here ++ [name]) :=
    hwithin.imp fun dir hdir => ⟨hdir.1, hdir.2.trans (List.prefix_append here [name])⟩
  rw [FileSystem.push_path hreal.isName hname, FileSystem.locate_path hreal hname,
    FileSystem.resolve_name hname]
  cases hentry : fs.entry (here ++ [name]) with
  | none => exact ⟨fun _ => nofun, fun _ => ⟨_, rfl, hbelow⟩⟩
  | some entry =>
    cases entry with
    | link target =>
      show (∃ place, fs.throughLink here target = some place ∧ InRoots roots place.location) ↔ _
      constructor
      · intro h target' htarget
        rw [Option.some.injEq, Entry.link.injEq] at htarget
        rw [← htarget]
        exact h
      · intro h
        exact h target rfl
    | _ => exact ⟨fun _ => nofun, fun _ => ⟨_, rfl, hbelow⟩⟩

theorem writeConfined_iff (hroots : parseRootsFromEnv fs₀ label raw = .ok roots)
    (pathRaw : String) : WriteConfined fs roots pathRaw ↔ LastStepConfined fs roots pathRaw := by
  constructor
  · intro h parent name here entry habsolute hparent hname hcanonical hwithin
    have hreached := reached_of_canonicalize hcanonical
    have hisName := Path.isName_of_fileName? hname
    obtain ⟨place, hlocate, hinside⟩ := h _ (validateWritePath_eq_ok.mpr
      ⟨habsolute, parent, name, here, entry, hparent, hname, hcanonical, hwithin, rfl⟩)
    have hnames : ∀ name ∈ here, Path.IsName name := hreached.isName
    have hin := (pathIsWithinRoots_iff hroots hnames).mp hwithin
    have hdir : entry = .dir := by
      by_contra hdir
      rw [FileSystem.push_path hnames hisName,
        FileSystem.locate_below hreached hdir hisName] at hlocate
      cases hlocate
    obtain ⟨_, ⟨_, hreal⟩ | ⟨hne, _⟩⟩ := hreached
    · exact ⟨hdir, (locate_push hreal hisName hin).mp ⟨place, hlocate, hinside⟩⟩
    · exact absurd hdir hne
  · intro h path hpath
    obtain ⟨habsolute, parent, name, here, entry, hparent, hname, hcanonical, hwithin, rfl⟩ :=
      validateWritePath_eq_ok.mp hpath
    obtain ⟨hdir, hlinks⟩ := h parent name here entry habsolute hparent hname hcanonical hwithin
    have hreached := reached_of_canonicalize hcanonical
    have hin := (pathIsWithinRoots_iff hroots hreached.isName).mp hwithin
    obtain ⟨_, ⟨_, hreal⟩ | ⟨hne, _⟩⟩ := hreached
    · exact (locate_push hreal (Path.isName_of_fileName? hname) hin).mpr hlinks
    · exact absurd hdir hne

end Confined

/-- The path that a command is given is one that the check of its template accepted. -/
def PathChecked (fs : FileSystem) (roots : LocalExecRoots) (templateId : String) (args : Json)
    (command : CommandSpec) : Prop :=
  ∃ pathRaw path, requiredPathArg args "path" = .ok pathRaw ∧
    command.args.getLast? = some (String.ofList path) ∧
    if templateId = "file.touch" then validateWritePath fs pathRaw roots.writeRoots = .ok path
    else validateReadPath fs pathRaw roots.readRoots = .ok path

theorem command_checked {fs : FileSystem} {roots : LocalExecRoots} {templateId : String}
    {args : Json} {command : CommandSpec}
    (h : buildCommandFromTemplate fs roots templateId args = .ok command) :
    PathChecked fs roots templateId args command := by
  unfold buildCommandFromTemplate at h
  simp only [bind, Except.bind] at h
  split at h
  · split at h
    · cases h
    · rename_i raw hraw
      split at h
      · cases h
      · rename_i path hpath
        split at h
        · cases h
        · cases h
          exact ⟨raw, path, hraw, rfl, hpath⟩
  · split at h
    · cases h
    · rename_i raw hraw
      split at h
      · cases h
      · rename_i path hpath
        cases h
        exact ⟨raw, path, hraw, rfl, hpath⟩
  · split at h
    · cases h
    · rename_i raw hraw
      split at h
      · cases h
      · rename_i path hpath
        cases h
        exact ⟨raw, path, hraw, rfl, hpath⟩
  · cases h

/-- For roots that were parsed, on whatever tree of files they were: every path that is
accepted for reading leads to a file in a root, and a path leads into a root wherever it is
accepted for writing exactly if its last step is confined.  A command is given an accepted
path. -/
theorem local_exec_confined_iff {fs₀ : FileSystem} {label : String} {raw : List String}
    {roots : List (List Char)} (hroots : parseRootsFromEnv fs₀ label raw = .ok roots)
    (fs : FileSystem) (pathRaw : String) :
    ReadConfined fs roots pathRaw ∧
      (WriteConfined fs roots pathRaw ↔ LastStepConfined fs roots pathRaw) ∧
      ∀ execRoots templateId args command,
        buildCommandFromTemplate fs execRoots templateId args = .ok command →
          PathChecked fs execRoots templateId args command :=
  ⟨readConfined hroots pathRaw, writeConfined_iff hroots pathRaw,
    fun _ _ _ _ h => command_checked h⟩

/-! ## A link in a root -/

/-- A directory for output, with a link in it to a file elsewhere. -/
def linkedFiles : FileSystem where
  entry here :=
    if here = ["out".toList] ∨ here = ["etc".toList] then some .dir
    else if here = ["etc".toList, "passwd".toList] then some .file
    else if here = ["out".toList, "log".toList] then some (.link "/etc/passwd".toList)
    else none
  maxLinks := 40

theorem outRoots : parseRootsFromEnv linkedFiles "WORKER_LOCAL_EXEC_WRITE_ROOTS" ["/out"] =
    .ok ["/out".toList] := by decide +kernel

def outExecRoots : LocalExecRoots := ⟨["/out".toList], ["/out".toList]⟩

def touchArgs : Json := .obj [("path", .str "/out/new")]

/-- A new file in the root is confined, which the link is not, and the command that touches
it is given its path. -/
theorem new_file_confined : WriteConfined linkedFiles ["/out".toList] "/out/new" ∧
    PathChecked linkedFiles outExecRoots "file.touch" touchArgs ⟨"touch", ["/out/new"]⟩ := by
  have hconfined := local_exec_confined_iff outRoots linkedFiles "/out/new"
  refine ⟨hconfined.2.1.mpr ?_, hconfined.2.2 _ _ _ _ (by decide +kernel)⟩
  intro parent name here entry _ hparent hname hcanonical _
  have hout : linkedFiles.canonicalize "/out".toList = some (["out".toList], .dir) := by
    decide +kernel
  have hparent' : parent = "/out".toList := by
    have h : Path.parent? "/out/new".toList = some "/out".toList := by decide +kernel
    exact Option.some.inj (hparent.symm.trans h)
  have hname' : name = "new".toList := by
    have h : Path.fileName? "/out/new".toList = some "new".toList := by decide +kernel
    exact Option.some.inj (hname.symm.trans h)
  rw [hparent', hout, Option.some.injEq, Prod.mk.injEq] at hcanonical
  rw [hname', ← hcanonical.1, ← hcanonical.2]
  have hnone : linkedFiles.entry (["out".toList] ++ ["new".toList]) = none := by decide +kernel
  exact ⟨rfl, fun target htarget => by rw [hnone] at htarget; cases htarget⟩

/-- The link is accepted for writing, and it leads out of the root. -/
theorem link_accepted : ¬ ∀ (fs₀ fs : FileSystem) (label : String) (raw : List String)
    (roots : List (List Char)) (pathRaw : String),
    parseRootsFromEnv fs₀ label raw = .ok roots → WriteConfined fs roots pathRaw := by
  intro h
  have hconfined := h linkedFiles linkedFiles _ _ _ "/out/log" outRoots
  have haccepted : validateWritePath linkedFiles "/out/log" ["/out".toList] =
      .ok "/out/log".toList := by decide +kernel
  obtain ⟨place, hlocate, hinside⟩ := hconfined _ haccepted
  have hfound : linkedFiles.locate "/out/log".toList =
      some (.existing ["etc".toList, "passwd".toList] .file) := by decide +kernel
  have hreached := FileSystem.reached_locate hfound
  rw [hfound, Option.some.injEq] at hlocate
  rw [← hlocate, ← pathIsWithinRoots_iff outRoots hreached.isName] at hinside
  exact absurd hinside (by decide +kernel)

end Worker
end SecureAgnt

/-
What a bootstrap completion leaves when it fails and when it succeeds.

The sizes of the files are checked one by one between the writes, and the length of the
status file after them.  The theorem this file exists for is `completion_atomic_iff`: a
completion is all or nothing exactly where a check that fails finds nothing changed, and
where the line it appends starts a line of the status file.
-/
import SecureAgnt.Api.BootstrapStatus

namespace SecureAgnt
namespace Api

/-! ## All or nothing -/

/-- What the errors of the file system start with. -/
def ioFailureTexts : List String :=
  ["failed creating context file directory ", "failed writing bootstrap target ",
    "failed reading bootstrap target ", "failed opening context file ",
    "failed appending context file "]

def isIoFailure (e : ApiError) : Bool := ioFailureTexts.any (Text.startsWith e.message)

/-- The file of an agent that may have no directory yet. -/
def contentsAt? (site : Option SourceDir) (names : Names) : Option Contents :=
  site.bind fun dir => dir.contents? names

/-- A file has one more line, the given one. -/
def GainedLine (line : List Char) : Option Contents → Option Contents → Prop
  | none, after => ∃ text, after = some (.text text) ∧ Lines.lines text.toList = [line]
  | some (.text old), after => ∃ text, after = some (.text text) ∧
      Lines.lines text.toList = Lines.lines old.toList ++ [line]
  | some (.binary old), after => (old = [] ∨ old.getLast? = some 10) ∧
      after = some ((Contents.binary old).append (String.ofList (line ++ ['\n'])))

/-- Nothing has changed after an error that is none of the file system, and after a
success everything that was supplied is there. -/
structure CompletionAtomic (rt : BootstrapRuntime) (req : CompleteBootstrapRequest)
    (site site' : Option SourceDir) (result : ApiResult AgentBootstrapCompleteResponse) :
    Prop where
  failed : ∀ e, result = .error e → isIoFailure e = false →
    ∀ names, contentsAt? site' names = contentsAt? site names
  supplied : ∀ response, result = .ok response → ∀ update ∈ req.updates,
    contentsAt? site' [update.1.toList] = some (.text update.2)
  recorded : ∀ response, result = .ok response →
    ∃ completedAt, rt.formatRfc3339 response.completedAt = .ok completedAt ∧
      GainedLine (statusLine rt completedAt response.completedByUserId response.completionNote
        (req.updates.map (·.1))) (contentsAt? site statusNames) (contentsAt? site' statusNames)

/-! ## Where it holds -/

/-- The supplied files ahead of the first one that is too long. -/
def fitting (env : ContextEnv) (updates : List (String × String)) : List (String × String) :=
  updates.takeWhile fun update => Text.len update.2 ≤ env.loader.maxFileBytes

/-- No directory stands in the place of a file. -/
def Replaceable (dir : SourceDir) (updates : List (String × String)) : Prop :=
  ∀ update ∈ updates, dir.node? [update.1.toList] ≠ some .dir

/-- What the status file is to gain. -/
def completionPayload (rt : BootstrapRuntime) (a : AdmittedCompletion) (completedAt : String)
    (req : CompleteBootstrapRequest) : String :=
  String.ofList (Lines.close (statusLine rt completedAt a.actorUserId
    (normalizeOptionalText req.completionNote) (req.updates.map (·.1))))

/-- The length that the status file is to have. -/
def projectedLen (env : ContextEnv) (rt : BootstrapRuntime) (a : AdmittedCompletion)
    (completedAt : String) (req : CompleteBootstrapRequest) : Nat :=
  env.metadataLen a.sourceDir statusNames + Text.len (completionPayload rt a completedAt req)

/-- A check between or after the writes fails: a supplied file or the status file is too
long, or the time has no text. -/
def LateCheckFails (env : ContextEnv) (rt : BootstrapRuntime) (a : AdmittedCompletion) (now : Int)
    (req : CompleteBootstrapRequest) : Prop :=
  fitting env req.updates ≠ req.updates ∨
    match rt.formatRfc3339 now with
    | .error _ => True
    | .ok completedAt => a.sourceDir.isFile [sessionsDir] = false ∧
        env.loader.maxFileBytes < projectedLen env rt a completedAt req

/-- All checks pass, and the status file can be opened. -/
def ChecksPass (env : ContextEnv) (rt : BootstrapRuntime) (a : AdmittedCompletion) (now : Int)
    (req : CompleteBootstrapRequest) : Prop :=
  fitting env req.updates = req.updates ∧
    match rt.formatRfc3339 now with
    | .error _ => False
    | .ok completedAt => a.sourceDir.isFile [sessionsDir] = false ∧
        projectedLen env rt a completedAt req ≤ env.loader.maxFileBytes ∧
        a.sourceDir.node? statusNames ≠ some .dir

/-- The last line of a file is finished. -/
def Contents.Finished : Contents → Prop
  | .text s => Lines.Closed s.toList
  | .binary bytes => bytes = [] ∨ bytes.getLast? = some 10

/-- A late check that fails finds the files as supplied already, and a line that is
appended starts a line. -/
structure NothingHalfDone (env : ContextEnv) (rt : BootstrapRuntime) (a : AdmittedCompletion)
    (now : Int) (req : CompleteBootstrapRequest) : Prop where
  unchanged : Replaceable a.sourceDir (fitting env req.updates) →
    LateCheckFails env rt a now req → ∀ update ∈ fitting env req.updates,
      a.sourceDir.contents? [update.1.toList] = some (.text update.2)
  finished : Replaceable a.sourceDir req.updates → ChecksPass env rt a now req →
    ∀ contents, a.sourceDir.contents? statusNames = some contents → contents.Finished

/-! ## The errors -/

theorem startsWith_append_eq_false {text more start : String}
    (h : ¬ start.toList <+: text.toList) (h' : ¬ text.toList <+: start.toList) :
    Text.startsWith (text ++ more) start = false := by
  rw [Bool.eq_false_iff]
  intro hstarts
  have hstart := Text.startsWith_iff.mp hstarts
  rw [String.toList_append] at hstart
  rcases List.prefix_or_prefix_of_prefix hstart (List.prefix_append _ _) with hle | hle
  · exact h hle
  · exact h' hle

theorem isIoFailure_eq_true {e : ApiError} {start : String} (hstart : start ∈ ioFailureTexts)
    (h : ∃ more, e.message = start ++ more) : isIoFailure e = true := by
  obtain ⟨more, h⟩ := h
  refine List.any_eq_true.mpr ⟨start, hstart, ?_⟩
  rw [h]
  exact Text.startsWith_iff.mpr ⟨more.toList, String.toList_append.symm⟩

theorem isIoFailure_eq_false {e : ApiError} (text : String) (h : ∃ more, e.message = text ++ more)
    (hapart : ∀ start ∈ ioFailureTexts,
      ¬ start.toList <+: text.toList ∧ ¬ text.toList <+: start.toList) :
    isIoFailure e = false := by
  obtain ⟨more, h⟩ := h
  rw [Bool.eq_false_iff]
  intro hany
  obtain ⟨start, hstart, hstarts⟩ := List.any_eq_true.mp hany
  rw [h, startsWith_append_eq_false (hapart start hstart).1 (hapart start hstart).2] at hstarts
  cases hstarts

/-! ## The writes -/

/-- All files written one after the other. -/
def writeAll (dir : SourceDir) (updates : List (String × String)) : SourceDir :=
  updates.foldl (fun d update => d.put [update.1.toList] (.file (.text update.2))) dir

section Writes

variable {env : ContextEnv} {dir : SourceDir} {names : Names} {updates : List (String × String)}
  {update : String × String}

theorem node?_writeAll (h : ∀ update ∈ updates, names ≠ [update.1.toList]) :
    (writeAll dir updates).node? names = dir.node? names := by
  induction updates generalizing dir with
  | nil => rfl
  | cons first rest ih =>
    have hrest : (writeAll (dir.put [first.1.toList] (.file (.text first.2))) rest).node? names =
        (dir.put [first.1.toList] (.file (.text first.2))).node? names :=
      ih fun update hmem => h update (List.mem_cons_of_mem _ hmem)
    exact hrest.trans (node?_put_ne _ (h first List.mem_cons_self))

theorem contents?_writeAll (h : ∀ update ∈ updates, names ≠ [update.1.toList]) :
    (writeAll dir updates).contents? names = dir.contents? names := by
  rw [SourceDir.contents?, node?_writeAll h]
  rfl

/-- No name is written twice, so what is written stays. -/
theorem contents?_writeAll_of_mem (hnodup : (updates.map (·.1)).Nodup) (h : update ∈ updates) :
    (writeAll dir updates).contents? [update.1.toList] = some (.text update.2) := by
  induction updates generalizing dir with
  | nil => cases h
  | cons first rest ih =>
    obtain ⟨hfirst, hrest⟩ := List.nodup_cons.mp hnodup
    rcases List.mem_cons.mp h with heq | hmem
    · rw [heq]
      have hlater : ∀ update ∈ rest, [first.1.toList] ≠ [update.1.toList] := by
        intro other hother heq
        refine hfirst (List.mem_map.mpr ⟨other, hother, ?_⟩)
        exact (String.toList_inj.mp (List.cons.inj heq).1).symm
      exact (contents?_writeAll hlater).trans (contents?_put_file _)
    · exact ih hrest hmem

/-- Files that hold what is written are as they were. -/
theorem contents?_writeAll_same (hnodup : (updates.map (·.1)).Nodup)
    (h : ∀ update ∈ updates, dir.contents? [update.1.toList] = some (.text update.2))
    (names : Names) : (writeAll dir updates).contents? names = dir.contents? names := by
  by_cases hmem : ∃ update ∈ updates, names = [update.1.toList]
  · obtain ⟨update, hupdate, rfl⟩ := hmem
    rw [contents?_writeAll_of_mem hnodup hupdate, h update hupdate]
  · refine contents?_writeAll fun update hupdate heq => hmem ⟨update, hupdate, heq⟩

theorem Replaceable.rest {first : String × String} (h : Replaceable dir (first :: updates)) :
    Replaceable (dir.put [first.1.toList] (.file (.text first.2))) updates := by
  intro update hmem
  by_cases heq : [update.1.toList] = [first.1.toList]
  · rw [heq, node?_put_self]
    simp
  · rw [node?_put_ne _ heq]
    exact h update (List.mem_cons_of_mem _ hmem)

theorem fitting_cons_of_fits {first : String × String}
    (h : Text.len first.2 ≤ env.loader.maxFileBytes) :
    fitting env (first :: updates) = first :: fitting env updates :=
  List.takeWhile_cons_of_pos (decide_eq_true h)

theorem fitting_cons_of_too_long {first : String × String}
    (h : env.loader.maxFileBytes < Text.len first.2) :
    fitting env (first :: updates) = [] :=
  List.takeWhile_cons_of_neg (by simpa using h)

/-- What the writes answer: all were written, or the first file that is too long. -/
inductive WritesAnswer (env : ContextEnv) (updates : List (String × String)) :
    ApiResult (List BootstrapFileWrite) → Prop where
  | all (written : List BootstrapFileWrite) (hall : fitting env updates = updates)
      (hnames : written.map (·.relativePath) = updates.map (·.1)) :
      WritesAnswer env updates (.ok written)
  | tooLong (update : String × String) (hmem : update ∈ updates)
      (hrest : fitting env updates ≠ updates) :
      WritesAnswer env updates (.error (.badRequest (update.1 ++ " exceeds max file size (" ++
        toString env.loader.maxFileBytes ++ " bytes)")))

/-- Without a directory in the way the files that fit are written. -/
theorem writeUpdates_of_replaceable (h : Replaceable dir (fitting env updates)) :
    WritesAnswer env updates (writeUpdates env dir updates).1 ∧
      (writeUpdates env dir updates).2 = writeAll dir (fitting env updates) := by
  induction updates generalizing dir with
  | nil => exact ⟨.all [] rfl rfl, rfl⟩
  | cons first rest ih =>
    unfold writeUpdates
    by_cases hlong : env.loader.maxFileBytes < Text.len first.2
    · rw [if_pos hlong, fitting_cons_of_too_long hlong]
      refine ⟨.tooLong first List.mem_cons_self ?_, rfl⟩
      rw [fitting_cons_of_too_long hlong]
      exact List.cons_ne_nil _ _ |>.symm
    · have hfits : Text.len first.2 ≤ env.loader.maxFileBytes := by omega
      rw [fitting_cons_of_fits hfits] at h ⊢
      have hwrite : dir.write [first.1.toList] first.2 =
          .ok (dir.put [first.1.toList] (.file (.text first.2))) := by
        have hfree := h first List.mem_cons_self
        unfold SourceDir.write
        split
        · rename_i hnode
          exact absurd hnode hfree
        · rfl
      obtain ⟨hanswer, hdir⟩ := ih h.rest
      rw [if_neg hlong]
      simp only [hwrite]
      refine ⟨?_, hdir⟩
      generalize (writeUpdates env (dir.put [first.1.toList] (.file (.text first.2))) rest).1 =
        answer at hanswer
      cases hanswer with
      | all written hall hnames =>
        refine .all (⟨first.1, Text.len first.2⟩ :: written) ?_ ?_
        · rw [fitting_cons_of_fits hfits, hall]
        · rw [List.map_cons, List.map_cons, hnames]
      | tooLong update hmem hrest =>
        refine .tooLong update (List.mem_cons_of_mem _ hmem) ?_
        rw [fitting_cons_of_fits hfits]
        exact fun heq => hrest (List.cons.inj heq).2

/-- A directory in the way is a failure of the file system. -/
theorem writeUpdates_of_not_replaceable (h : ¬ Replaceable dir (fitting env updates)) :
    ∃ more, (writeUpdates env dir updates).1 =
      .error (.internal ("failed writing bootstrap target " ++ more)) := by
  induction updates generalizing dir with
  | nil => exact absurd (fun _ hmem => absurd hmem List.not_mem_nil) h
  | cons first rest ih =>
    unfold writeUpdates
    by_cases hlong : env.loader.maxFileBytes < Text.len first.2
    · rw [fitting_cons_of_too_long hlong] at h
      exact absurd (fun _ hmem => absurd hmem List.not_mem_nil) h
    · have hfits : Text.len first.2 ≤ env.loader.maxFileBytes := by omega
      rw [fitting_cons_of_fits hfits] at h
      rw [if_neg hlong]
      cases hwrite : dir.write [first.1.toList] first.2 with
      | error failure =>
        refine ⟨dir.display [first.1.toList] ++ ": " ++ env.ioText failure, ?_⟩
        simp only [String.append_assoc]
      | ok dir' =>
        unfold SourceDir.write at hwrite
        split at hwrite
        · cases hwrite
        rename_i hfree
        cases hwrite
        have hrest : ¬ Replaceable (dir.put [first.1.toList] (.file (.text first.2)))
            (fitting env rest) := by
          intro hreplaceable
          refine h fun update hmem => ?_
          rcases List.mem_cons.mp hmem with heq | hmem
          · exact heq ▸ hfree
          · by_cases heq : [update.1.toList] = [first.1.toList]
            · exact heq ▸ hfree
            · rw [← node?_put_ne (.file (.text first.2)) heq]
              exact hreplaceable update hmem
        obtain ⟨more, hfails⟩ := ih hrest
        refine ⟨more, ?_⟩
        simp only [hfails]
        rfl

end Writes

/-! ## The line of the status file -/

section Line

variable {env : ContextEnv} {dir : SourceDir} {line : List Char}

theorem createContextDirectory_sessions_of_isFile (env : ContextEnv)
    (h : dir.isFile [sessionsDir] = true) :
    ∃ more, createContextDirectory env dir statusNames =
      .error (.internal ("failed creating context file directory " ++ more)) := by
  have hcreate : dir.createDirAll statusNames.dropLast = .error .alreadyExists := if_pos h
  refine ⟨dir.display statusNames.dropLast ++ ": " ++ env.ioText .alreadyExists, ?_⟩
  rw [createContextDirectory, hcreate]
  simp only [Except.mapError, String.append_assoc]

theorem createContextDirectory_sessions (env : ContextEnv)
    (h : dir.isFile [sessionsDir] = false) :
    ∃ dir', createContextDirectory env dir statusNames = .ok dir' ∧
      dir'.node? statusNames = dir.node? statusNames := by
  have hfree : ¬ dir.isFile [sessionsDir] = true := by rw [h]; simp
  have hcreate : dir.createDirAll statusNames.dropLast =
      .ok (if (dir.node? [sessionsDir]).isNone then dir.put [sessionsDir] .dir else dir) := by
    show (if dir.isFile [sessionsDir] = true then _ else
      if (dir.isFile [sessionsDir] || false) = true then _ else _) = _
    rw [Bool.or_false, if_neg hfree, if_neg hfree]
    rfl
  rw [createContextDirectory, hcreate]
  refine ⟨_, rfl, ?_⟩
  split
  · exact node?_put_ne _ (by decide)
  · rfl

theorem append_of_not_dir {names : Names} {payload : String} (h : dir.node? names ≠ some .dir) :
    ∃ dir', dir.append names payload = .ok dir' := by
  unfold SourceDir.append
  split
  · rename_i hnode
    exact absurd hnode h
  · exact ⟨_, rfl⟩
  · exact ⟨_, rfl⟩

/-- What appending a line to the status file answers. -/
inductive LineAnswer (env : ContextEnv) (dir : SourceDir) (payload : String) :
    ApiResult Unit × SourceDir → Prop where
  | io (e : ApiError) (dir' : SourceDir) (hio : isIoFailure e = true)
      (hblocked : dir.isFile [sessionsDir] = false →
        env.metadataLen dir statusNames + Text.len payload ≤ env.loader.maxFileBytes ∧
          dir.node? statusNames = some .dir) :
      LineAnswer env dir payload (.error e, dir')
  | tooLong (e : ApiError) (dir' : SourceDir) (hio : isIoFailure e = false)
      (hfree : dir.isFile [sessionsDir] = false)
      (hlong : env.loader.maxFileBytes < env.metadataLen dir statusNames + Text.len payload)
      (hsame : ∀ names, dir'.contents? names = dir.contents? names) :
      LineAnswer env dir payload (.error e, dir')
  | appended (dir' : SourceDir) (hfree : dir.isFile [sessionsDir] = false)
      (hfits : env.metadataLen dir statusNames + Text.len payload ≤ env.loader.maxFileBytes)
      (hnode : dir.node? statusNames ≠ some .dir)
      (hwrote : Wrote dir statusNames (dir.appended statusNames payload) dir') :
      LineAnswer env dir payload (.ok (), dir')

theorem appendContextJsonlLine_answer :
    LineAnswer env dir (String.ofList (Lines.close line))
      (appendContextJsonlLine env dir statusNames line) := by
  have hstatus : ∀ start ∈ ioFailureTexts, ¬ start.toList <+: statusNames.text.toList ∧
      ¬ statusNames.text.toList <+: start.toList := by decide
  unfold appendContextJsonlLine
  cases hsessions : dir.isFile [sessionsDir] with
  | true =>
    obtain ⟨more, hcreate⟩ := createContextDirectory_sessions_of_isFile env hsessions
    simp only [hcreate]
    refine .io _ _ (isIoFailure_eq_true (by simp [ioFailureTexts]) ⟨more, rfl⟩) fun h => ?_
    rw [hsessions] at h
    cases h
  | false =>
    obtain ⟨made, hcreate, hnode⟩ := createContextDirectory_sessions env hsessions
    have hsame := contents?_createContextDirectory hcreate
    have hlen : env.metadataLen made statusNames = env.metadataLen dir statusNames := by
      rw [ContextEnv.metadataLen, hnode]
      rfl
    simp only [hcreate, hlen]
    by_cases hlong : env.loader.maxFileBytes <
        env.metadataLen dir statusNames + Text.len (String.ofList (Lines.close line))
    · rw [if_pos hlong]
      refine .tooLong _ _ (isIoFailure_eq_false statusNames.text ⟨" exceeds max file size (" ++
        (toString env.loader.maxFileBytes ++ " bytes)"), ?_⟩ hstatus) hsessions hlong hsame
      simp only [ApiError.badRequest, String.append_assoc]
    · rw [if_neg hlong]
      by_cases hdir : dir.node? statusNames = some .dir
      · have happend : made.append statusNames (String.ofList (Lines.close line)) =
            .error .isADirectory := by
          unfold SourceDir.append
          rw [hnode, hdir]
        simp only [writeMutation, happend, Except.mapError]
        have hopening : "failed opening context file " ∈ ioFailureTexts := by
          simp [ioFailureTexts]
        refine .io _ _ (isIoFailure_eq_true hopening ⟨made.display statusNames ++
          (" for append: " ++ env.ioText .isADirectory), ?_⟩) fun _ => ⟨by omega, hdir⟩
        simp only [ApiError.internal, String.append_assoc]
      · obtain ⟨dir', happend⟩ : ∃ dir', made.append statusNames
            (String.ofList (Lines.close line)) = .ok dir' := append_of_not_dir (hnode ▸ hdir)
        have hwrote := wrote_append happend
        rw [appended_congr hsame] at hwrote
        simp only [writeMutation, happend, Except.mapError]
        exact .appended dir' hsessions (by omega) hdir (hwrote.of_same hsame)

/-- A line is gained where the last line before it is finished. -/
theorem gainedLine_iff {names : Names} (hline : '\n' ∉ line) (hcr : line.getLast? ≠ some '\r') :
    GainedLine line (dir.contents? names)
        (some (dir.appended names (String.ofList (Lines.close line)))) ↔
      ∀ contents, dir.contents? names = some contents → contents.Finished := by
  have hopen : line.getLast? ≠ some '\n' := fun h => hline (List.mem_of_getLast? h)
  rw [Lines.close, if_neg hopen, SourceDir.appended]
  cases dir.contents? names with
  | none =>
    refine iff_of_true ⟨_, rfl, ?_⟩ fun _ h => by cases h
    rw [String.toList_ofList]
    exact Lines.lines_line hline hcr
  | some contents =>
    cases contents with
    | text old =>
      have htext : (old ++ String.ofList (line ++ ['\n'])).toList =
          old.toList ++ (line ++ ['\n']) := by
        rw [String.toList_append, String.toList_ofList]
      constructor
      · rintro ⟨text, htext', hlines⟩ contents hcontents
        cases hcontents
        cases htext'
        rw [htext] at hlines
        exact Lines.closed_of_lines_append hline hlines
      · intro h
        have hclosed : Lines.Closed old.toList := h _ rfl
        refine ⟨_, rfl, ?_⟩
        rw [htext, Lines.lines_append hclosed, Lines.lines_line hline hcr]
    | binary old =>
      constructor
      · rintro ⟨hlast, _⟩ contents hcontents
        cases hcontents
        exact hlast
      · intro h
        exact ⟨h _ rfl, rfl⟩

end Line

/-! ## The outcome -/

section Outcome

variable {env : ContextEnv} {rt : BootstrapRuntime} {a : AdmittedCompletion} {now : Int}
  {req : CompleteBootstrapRequest}

theorem updateNames_nodup (req : CompleteBootstrapRequest) : (req.updates.map (·.1)).Nodup := by
  have hsublist : ∀ files : List (String × Option String),
      ((files.filterMap fun update => (normalizeOptionalText update.2).map fun content =>
        (update.1, content)).map (·.1)).Sublist (files.map (·.1)) := by
    intro files
    induction files with
    | nil => exact .slnil
    | cons file rest ih =>
      cases hcontent : normalizeOptionalText file.2 with
      | none => simpa [hcontent] using ih.cons file.1
      | some content => simpa [hcontent] using ih
  refine (hsublist _).nodup ?_
  show ["IDENTITY.md", "SOUL.md", "USER.md", "HEARTBEAT.md"].Nodup
  decide

theorem updateName_mem {update : String × String} (h : update ∈ req.updates) :
    update.1 ∈ ["IDENTITY.md", "SOUL.md", "USER.md", "HEARTBEAT.md"] := by
  obtain ⟨file, hfile, hupdate⟩ := List.mem_filterMap.mp h
  obtain ⟨content, _, heq⟩ := Option.map_eq_some_iff.mp hupdate
  rw [← heq]
  exact List.mem_map_of_mem (f := (·.1)) hfile

theorem fitting_subset {updates : List (String × String)} {update : String × String}
    (h : update ∈ fitting env updates) : update ∈ updates :=
  (List.takeWhile_sublist _).subset h

theorem statusNode_writeAll (dir : SourceDir) (updates : List (String × String)) :
    (writeAll dir updates).node? statusNames = dir.node? statusNames := by
  refine node?_writeAll fun update _ heq => ?_
  have hlength := congrArg List.length heq
  simp [statusNames] at hlength

theorem sessionsNode_writeAll (dir : SourceDir) {updates : List (String × String)}
    (h : ∀ update ∈ updates, update ∈ req.updates) :
    (writeAll dir updates).node? [sessionsDir] = dir.node? [sessionsDir] := by
  have hother : ∀ name ∈ ["IDENTITY.md", "SOUL.md", "USER.md", "HEARTBEAT.md"],
      [sessionsDir] ≠ [name.toList] := by decide
  exact node?_writeAll fun update hmem => hother update.1 (updateName_mem (h update hmem))

theorem not_lateCheckFails (h : ChecksPass env rt a now req) :
    ¬ LateCheckFails env rt a now req := by
  obtain ⟨hall, hrest⟩ := h
  rintro (hlate | hlate)
  · exact hlate hall
  · cases hformat : rt.formatRfc3339 now with
    | error err =>
      rw [hformat] at hrest
      exact hrest
    | ok completedAt =>
      rw [hformat] at hrest hlate
      simp only at hrest hlate
      omega

/-- How a completion that was admitted ends. -/
inductive CompletionOutcome (env : ContextEnv) (rt : BootstrapRuntime) (a : AdmittedCompletion)
    (now : Int) (req : CompleteBootstrapRequest) :
    ApiResult AgentBootstrapCompleteResponse × SourceDir → Prop where
  | io (e : ApiError) (dir : SourceDir) (hio : isIoFailure e = true)
      (hlate : Replaceable a.sourceDir (fitting env req.updates) →
        ¬ LateCheckFails env rt a now req)
      (hpass : Replaceable a.sourceDir req.updates → ¬ ChecksPass env rt a now req) :
      CompletionOutcome env rt a now req (.error e, dir)
  | rejected (e : ApiError) (dir : SourceDir) (hio : isIoFailure e = false)
      (hfree : Replaceable a.sourceDir (fitting env req.updates))
      (hlate : LateCheckFails env rt a now req)
      (hsame : ∀ names, dir.contents? names =
        (writeAll a.sourceDir (fitting env req.updates)).contents? names) :
      CompletionOutcome env rt a now req (.error e, dir)
  | recorded (response : AgentBootstrapCompleteResponse) (dir : SourceDir) (completedAt : String)
      (hfree : Replaceable a.sourceDir req.updates) (hpass : ChecksPass env rt a now req)
      (hformat : rt.formatRfc3339 now = .ok completedAt)
      (hresponse : response.completedAt = now ∧ response.completedByUserId = a.actorUserId ∧
        response.completionNote = normalizeOptionalText req.completionNote)
      (hwrote : Wrote (writeAll a.sourceDir req.updates) statusNames
        (a.sourceDir.appended statusNames (completionPayload rt a completedAt req)) dir) :
      CompletionOutcome env rt a now req (.ok response, dir)

theorem recordCompletion_outcome (env : ContextEnv) (rt : BootstrapRuntime)
    (a : AdmittedCompletion) (now : Int) (req : CompleteBootstrapRequest) :
    CompletionOutcome env rt a now req (recordCompletion env rt a now req) := by
  have hwriting : "failed writing bootstrap target " ∈ ioFailureTexts := by simp [ioFailureTexts]
  by_cases hfree : Replaceable a.sourceDir (fitting env req.updates)
  · obtain ⟨hanswer, hdir⟩ := writeUpdates_of_replaceable hfree
    unfold recordCompletion
    generalize writeUpdates env a.sourceDir req.updates = outcome at hanswer hdir
    obtain ⟨answer, dir⟩ := outcome
    simp only at hanswer hdir
    cases hanswer with
    | tooLong update hmem hrest =>
      refine .rejected _ dir (isIoFailure_eq_false update.1 ⟨" exceeds max file size (" ++
        (toString env.loader.maxFileBytes ++ " bytes)"), ?_⟩ ?_) hfree (.inl hrest) ?_
      · simp only [ApiError.badRequest, String.append_assoc]
      · have hapart : ∀ name ∈ ["IDENTITY.md", "SOUL.md", "USER.md", "HEARTBEAT.md"],
            ∀ start ∈ ioFailureTexts,
              ¬ start.toList <+: name.toList ∧ ¬ name.toList <+: start.toList := by decide
        exact hapart update.1 (updateName_mem hmem)
      · exact fun names => by rw [hdir]
    | all written hall hnames =>
      cases hformat : rt.formatRfc3339 now with
      | error err =>
        have hio := isIoFailure_eq_false "failed formatting bootstrap completion timestamp: "
          (e := .internal ("failed formatting bootstrap completion timestamp: " ++ err))
          ⟨err, rfl⟩ (by decide)
        refine .rejected _ dir hio hfree (.inr ?_) ?_
        · rw [hformat]
          trivial
        · exact fun names => by rw [hdir]
      | ok completedAt =>
        have hlen : env.metadataLen dir statusNames = env.metadataLen a.sourceDir statusNames := by
          rw [ContextEnv.metadataLen, hdir, statusNode_writeAll]
          rfl
        have hsessions : dir.isFile [sessionsDir] = a.sourceDir.isFile [sessionsDir] := by
          rw [SourceDir.isFile, hdir, sessionsNode_writeAll _ fun update => fitting_subset]
          rfl
        have hline : LineAnswer env dir (completionPayload rt a completedAt req)
            (appendContextJsonlLine env dir statusNames (statusLine rt completedAt a.actorUserId
              (normalizeOptionalText req.completionNote) (req.updates.map (·.1)))) :=
          appendContextJsonlLine_answer
        unfold statusLine at hline
        simp only [hnames]
        generalize appendContextJsonlLine env dir statusNames (Json.write rt.floatText
          (statusRecord completedAt a.actorUserId (normalizeOptionalText req.completionNote)
            (req.updates.map (·.1)))) = outcome at hline ⊢
        cases hline with
        | io e dir' hio hblocked =>
          rw [hlen, hsessions, hdir, statusNode_writeAll] at hblocked
          refine .io e dir' hio ?_ ?_
          · rintro _ (hlate | hlate)
            · exact hlate hall
            · rw [hformat] at hlate
              have hfits := (hblocked hlate.1).1
              have hlong := hlate.2
              rw [projectedLen] at hlong
              omega
          · intro _ hpass
            have hrest := hpass.2
            rw [hformat] at hrest
            exact hrest.2.2 (hblocked hrest.1).2
        | tooLong e dir' hio hopen hlong hsame =>
          rw [hlen] at hlong
          rw [hsessions] at hopen
          refine .rejected e dir' hio hfree (.inr ?_) fun names => ?_
          · rw [hformat]
            exact ⟨hopen, hlong⟩
          · rw [hsame, hdir]
        | appended dir' hopen hfits hnode hwrote =>
          rw [hlen] at hfits
          rw [hsessions] at hopen
          rw [hdir, statusNode_writeAll] at hnode
          have hkept : dir.appended statusNames (completionPayload rt a completedAt req) =
              a.sourceDir.appended statusNames (completionPayload rt a completedAt req) := by
            rw [SourceDir.appended, SourceDir.contents?, hdir, statusNode_writeAll]
            rfl
          rw [hkept, hdir, hall] at hwrote
          refine .recorded _ dir' completedAt (hall ▸ hfree) ⟨hall, ?_⟩ hformat
            ⟨rfl, rfl, rfl⟩ hwrote
          rw [hformat]
          exact ⟨hopen, hfits, hnode⟩
  · obtain ⟨more, hfails⟩ := writeUpdates_of_not_replaceable hfree
    unfold recordCompletion
    generalize writeUpdates env a.sourceDir req.updates = outcome at hfails
    obtain ⟨answer, dir⟩ := outcome
    cases hfails
    refine .io _ dir (isIoFailure_eq_true hwriting ⟨more, rfl⟩) (fun h => absurd h hfree) ?_
    intro hall hpass
    exact hfree (hpass.1.symm ▸ hall)

/-- The line of a completion stands on its own where the last line before it is finished. -/
theorem gainedLine_completion_iff (completedAt : String) {dir : SourceDir} :
    GainedLine (statusLine rt completedAt a.actorUserId (normalizeOptionalText req.completionNote)
        (req.updates.map (·.1))) (dir.contents? statusNames)
        (some (dir.appended statusNames (completionPayload rt a completedAt req))) ↔
      ∀ contents, dir.contents? statusNames = some contents → contents.Finished := by
  refine gainedLine_iff (Json.newline_notMem_write (isValue_statusRecord _ _ _ _)) ?_
  rw [getLast?_statusLine]
  decide

theorem atomic_of_nothingHalfDone {result : ApiResult AgentBootstrapCompleteResponse}
    {dir : SourceDir} (h : NothingHalfDone env rt a now req)
    (houtcome : CompletionOutcome env rt a now req (result, dir)) :
    CompletionAtomic rt req (some a.sourceDir) (some dir) result := by
  cases houtcome with
  | io e _ hio _ _ =>
    refine ⟨?_, fun _ hok => (nomatch hok), fun _ hok => (nomatch hok)⟩
    intro e' he hnot
    cases he
    rw [hio] at hnot
    cases hnot
  | rejected e _ _ hfree hlate hsame =>
    refine ⟨?_, fun _ hok => (nomatch hok), fun _ hok => (nomatch hok)⟩
    intro _ _ _ names
    have hnodup : ((fitting env req.updates).map (·.1)).Nodup :=
      ((List.takeWhile_sublist _).map _).nodup (updateNames_nodup req)
    exact (hsame names).trans (contents?_writeAll_same hnodup (h.unchanged hfree hlate) names)
  | recorded response _ completedAt hfree hpass hformat hresponse hwrote =>
    obtain ⟨hat, hby, hnote⟩ := hresponse
    refine ⟨fun _ he => (nomatch he), ?_, ?_⟩
    · intro _ _ update hmem
      have hne : [update.1.toList] ≠ statusNames := by
        intro heq
        have hlength := congrArg List.length heq
        simp [statusNames] at hlength
      exact (hwrote.elsewhere _ hne).trans
        (contents?_writeAll_of_mem (updateNames_nodup req) hmem)
    · intro response' hok
      cases hok
      refine ⟨completedAt, hat ▸ hformat, ?_⟩
      rw [hby, hnote]
      show GainedLine _ (a.sourceDir.contents? statusNames) (dir.contents? statusNames)
      rw [hwrote.there]
      exact (gainedLine_completion_iff completedAt).mpr (h.finished hfree hpass)

theorem nothingHalfDone_of_atomic {result : ApiResult AgentBootstrapCompleteResponse}
    {dir : SourceDir} (houtcome : CompletionOutcome env rt a now req (result, dir))
    (h : CompletionAtomic rt req (some a.sourceDir) (some dir) result) :
    NothingHalfDone env rt a now req := by
  cases houtcome with
  | io e _ _ hlate hpass =>
    exact ⟨fun hfree hfails => absurd hfails (hlate hfree),
      fun hfree hchecks => absurd hchecks (hpass hfree)⟩
  | rejected e _ hio _ hlate hsame =>
    refine ⟨?_, fun _ hchecks => absurd hlate (not_lateCheckFails hchecks)⟩
    intro _ _ update hmem
    have hnodup : ((fitting env req.updates).map (·.1)).Nodup :=
      ((List.takeWhile_sublist _).map _).nodup (updateNames_nodup req)
    have hkept : dir.contents? [update.1.toList] = a.sourceDir.contents? [update.1.toList] :=
      h.failed e rfl hio [update.1.toList]
    rw [← hkept, hsame]
    exact contents?_writeAll_of_mem hnodup hmem
  | recorded response _ completedAt _ hpass hformat hresponse hwrote =>
    obtain ⟨hat, hby, hnote⟩ := hresponse
    refine ⟨fun _ hlate => absurd hlate (not_lateCheckFails hpass), fun _ _ => ?_⟩
    obtain ⟨completedAt', hformat', hgained⟩ := h.recorded response rfl
    rw [hat, hformat] at hformat'
    cases hformat'
    rw [hby, hnote] at hgained
    have hthere : contentsAt? (some dir) statusNames =
        some (a.sourceDir.appended statusNames (completionPayload rt a completedAt req)) :=
      hwrote.there
    rw [hthere] at hgained
    exact (gainedLine_completion_iff completedAt).mp hgained

end Outcome

/-- A completion is all or nothing exactly where no late check fails after a change, and
where what it appends starts a line. -/
theorem completion_atomic_iff (env : ContextEnv) (rt : BootstrapRuntime) (site : Option SourceDir)
    (headers : HeaderMap) (now : Int) (req : CompleteBootstrapRequest) :
    CompletionAtomic rt req site (completeAgentBootstrap env rt site headers now req).2
        (completeAgentBootstrap env rt site headers now req).1 ↔
      ∀ a, admitCompletion env rt site headers req = .ok a →
        NothingHalfDone env rt a now req := by
  unfold completeAgentBootstrap
  cases hadmits : admitCompletion env rt site headers req with
  | error e =>
    refine iff_of_true
      ⟨fun _ _ _ _ => rfl, fun _ hok => (nomatch hok), fun _ hok => (nomatch hok)⟩ ?_
    intro a ha
    cases ha
  | ok a =>
    have houtcome := recordCompletion_outcome env rt a now req
    rw [(admitCompletion_spec hadmits).there]
    cases hrecord : recordCompletion env rt a now req with
    | mk result dir =>
    rw [hrecord] at houtcome
    simp only [hrecord]
    constructor
    · intro h a' ha'
      cases ha'
      exact nothingHalfDone_of_atomic houtcome h
    · intro h
      exact atomic_of_nothingHalfDone (h a rfl) houtcome

/-! ## A file that is too long -/

/-- Eight bytes a file. -/
def narrowEnv : ContextEnv := { soloEnv with loader := ⟨[], 8, 256 * 1024, 8⟩ }

/-- The second profile file has nine bytes. -/
def longProfile : CompleteBootstrapRequest :=
  { identityMarkdown := some "# me", userMarkdown := some "# the user" }

/-- The completion is refused for its second file, and the first one was replaced. -/
theorem identity_replaced : ¬ CompletionAtomic soloRuntime longProfile (some soloDir)
    (completeAgentBootstrap narrowEnv soloRuntime (some soloDir) ownerHeaders 0 longProfile).2
    (completeAgentBootstrap narrowEnv soloRuntime (some soloDir) ownerHeaders 0 longProfile).1 := by
  intro h
  have hrefused : (match (completeAgentBootstrap narrowEnv soloRuntime (some soloDir) ownerHeaders
      0 longProfile).1 with
    | .error e => !isIoFailure e
    | .ok _ => false) = true := by decide +kernel
  have hwritten : contentsAt? (completeAgentBootstrap narrowEnv soloRuntime (some soloDir)
      ownerHeaders 0 longProfile).2 ["IDENTITY.md".toList] = some (.text "# me") := by
    decide +kernel
  cases hresult : (completeAgentBootstrap narrowEnv soloRuntime (some soloDir) ownerHeaders 0
      longProfile).1 with
  | ok response =>
    rw [hresult] at hrefused
    cases hrefused
  | error e =>
    rw [hresult] at hrefused
    have hio : isIoFailure e = false := by simpa using hrefused
    have hsame := h.failed e hresult hio ["IDENTITY.md".toList]
    have hbefore : contentsAt? (some soloDir) ["IDENTITY.md".toList] = none := by decide +kernel
    rw [hwritten, hbefore] at hsame
    cases hsame

end Api
end SecureAgnt

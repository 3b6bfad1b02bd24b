/-
How long the prompt of a plan gets.

Every cut is made at a boundary between characters.  A text cut to a budget keeps to it,
but a summary is never cut below 64 bytes and an excerpt is allowed as many whatever is
left of the budget, so a prompt keeps to the larger of its limit and 64 bytes and the
documents to less than 64 bytes more than theirs.
-/
import SecureAgnt.Lib.Slice
import SecureAgnt.Llm.Confinement

namespace SecureAgnt
namespace Llm

open Text (bytes cutAt sliceTo sliceFrom sliceBetween backToBoundary)

/-! ## Cuts at boundaries -/

def clampUtf8Boundary (value : String) (idx : Nat) : Nat :=
  backToBoundary value.toList (min idx (Text.len value))

theorem splitAtBytes_append (n : Nat) (cs : List Char) :
    (splitAtBytes n cs).1 ++ (splitAtBytes n cs).2 = cs := by
  induction cs generalizing n with
  | nil => simp [splitAtBytes]
  | cons c cs ih =>
    rw [splitAtBytes]
    by_cases hle : c.utf8Size ≤ n
    · rw [if_pos hle]
      show c :: _ ++ _ = _
      rw [List.cons_append, ih]
    · rw [if_neg hle]
      rfl

theorem bytes_splitAtBytes (n : Nat) (cs : List Char) : bytes (splitAtBytes n cs).1 ≤ n := by
  induction cs generalizing n with
  | nil => simp [splitAtBytes]
  | cons c cs ih =>
    rw [splitAtBytes]
    by_cases hle : c.utf8Size ≤ n
    · rw [if_pos hle]
      show bytes (c :: _) ≤ n
      have hrest := ih (n - c.utf8Size)
      rw [Text.bytes_cons]
      omega
    · rw [if_neg hle]
      exact Nat.zero_le n

theorem splitAtBytes_next {n : Nat} {cs : List Char} {c : Char} {rest : List Char}
    (h : (splitAtBytes n cs).2 = c :: rest) : n < bytes (splitAtBytes n cs).1 + c.utf8Size := by
  induction cs generalizing n with
  | nil => simp [splitAtBytes] at h
  | cons d cs ih =>
    rw [splitAtBytes] at h ⊢
    by_cases hle : d.utf8Size ≤ n
    · rw [if_pos hle] at h ⊢
      have hrest := ih h
      show n < bytes (d :: _) + _
      rw [Text.bytes_cons]
      omega
    · rw [if_neg hle] at h ⊢
      have hhead : d = c := (List.cons.inj h).1
      rw [hhead] at hle
      show n < 0 + c.utf8Size
      omega

/-- The clamped offset is where the text splits. -/
theorem clampUtf8Boundary_eq {value : String} {idx : Nat} (hidx : idx ≤ Text.len value) :
    clampUtf8Boundary value idx = bytes (splitAtBytes idx value.toList).1 := by
  have hsplit := splitAtBytes_append idx value.toList
  have hback := Text.backToBoundary_append (bytes_splitAtBytes idx value.toList)
    fun c rest h => splitAtBytes_next h
  rw [hsplit] at hback
  rw [clampUtf8Boundary, Nat.min_eq_left hidx]
  exact hback

theorem cutAt_clamped {value : String} {idx : Nat} (hidx : idx ≤ Text.len value) :
    cutAt (clampUtf8Boundary value idx) value.toList = some (splitAtBytes idx value.toList) := by
  have hcut := Text.cutAt_append (splitAtBytes idx value.toList).1 (splitAtBytes idx value.toList).2
  rw [splitAtBytes_append] at hcut
  rw [clampUtf8Boundary_eq hidx]
  exact hcut

/-- The slices that are taken of a text, of which a chunk begins where the one before it
ended, are those of the model, so none of them cuts a character. -/
structure CutsAtBoundaries (value : String) (budgetBytes : Nat) : Prop where
  start : budgetBytes < Text.len value → sliceTo value (clampUtf8Boundary value budgetBytes) =
    some (String.ofList (splitAtBytes budgetBytes value.toList).1)
  stop : sliceFrom value (clampUtf8Boundary value (Text.len value - budgetBytes)) =
    some (String.ofList (splitAtBytes (Text.len value - budgetBytes) value.toList).2)
  chunk : ∀ before rest, value.toList = before ++ rest →
    sliceBetween value.toList (bytes before)
      (clampUtf8Boundary value (min (bytes before + budgetBytes) (Text.len value))) =
        some (splitAtBytes budgetBytes rest).1

theorem backToBoundary_chunk (before rest : List Char) (chunkBytes : Nat) :
    backToBoundary (before ++ rest) (min (bytes before + chunkBytes) (bytes (before ++ rest))) =
      bytes (before ++ (splitAtBytes chunkBytes rest).1) := by
  have hsplit := splitAtBytes_append chunkBytes rest
  have hfit := bytes_splitAtBytes chunkBytes rest
  have hrest : bytes rest =
      bytes (splitAtBytes chunkBytes rest).1 + bytes (splitAtBytes chunkBytes rest).2 := by
    rw [← Text.bytes_append, hsplit]
  have hback := @Text.backToBoundary_append (before ++ (splitAtBytes chunkBytes rest).1)
    (splitAtBytes chunkBytes rest).2 (min (bytes before + chunkBytes) (bytes (before ++ rest)))
    (by
      simp only [Text.bytes_append]
      omega)
    (by
      intro c more h
      have hnext := splitAtBytes_next h
      simp only [Text.bytes_append]
      omega)
  rwa [List.append_assoc, hsplit] at hback

theorem cutsAtBoundaries (value : String) (budgetBytes : Nat) :
    CutsAtBoundaries value budgetBytes where
  start := by
    intro hlong
    rw [sliceTo, cutAt_clamped (Nat.le_of_lt hlong)]
    rfl
  stop := by
    rw [sliceFrom, cutAt_clamped (Nat.sub_le _ _)]
    rfl
  chunk := by
    intro before rest hvalue
    have hlen : Text.len value = bytes (before ++ rest) := by rw [Text.len_eq, hvalue]
    have hsplit := splitAtBytes_append budgetBytes rest
    rw [clampUtf8Boundary, hlen, hvalue, Nat.min_assoc, Nat.min_self, backToBoundary_chunk]
    have hcut := Text.cutAt_append (before ++ (splitAtBytes budgetBytes rest).1)
      (splitAtBytes budgetBytes rest).2
    rw [List.append_assoc, hsplit] at hcut
    rw [sliceBetween, hcut]
    show (cutAt (bytes before) (before ++ _)).map _ = _
    rw [Text.cutAt_append]
    rfl

/-! ## Budgets -/

theorem len_truncateTextForBudget (value : String) (budgetBytes : Nat) :
    Text.len (truncateTextForBudget value budgetBytes) ≤ budgetBytes := by
  unfold truncateTextForBudget
  split
  · exact Nat.zero_le _
  · split
    · assumption
    · rw [Text.len_ofList]
      exact bytes_splitAtBytes _ _

theorem len_summarizeTextForBudget (text : String) (budgetBytes : Nat) :
    Text.len (summarizeTextForBudget text budgetBytes) ≤ max budgetBytes 64 := by
  unfold summarizeTextForBudget
  split
  · omega
  · exact len_truncateTextForBudget _ _

def totalBytes (documents : List LlmContextDocument) : Nat :=
  (documents.map fun doc => Text.len doc.text).sum

theorem length_selectDocuments (maxBytes usedBytes : Nat) (documents : List LlmContextDocument) :
    (selectDocuments maxBytes usedBytes documents).length ≤ documents.length := by
  induction documents generalizing usedBytes with
  | nil => exact Nat.le_refl _
  | cons doc rest ih =>
    rw [selectDocuments]
    split
    · exact Nat.zero_le _
    · dsimp only
      split
      · exact Nat.le_succ_of_le (ih _)
      · exact Nat.succ_le_succ (ih _)

/-- A document is reached only while bytes are left, and takes 64 at most beyond them. -/
theorem totalBytes_selectDocuments (maxBytes usedBytes : Nat)
    (documents : List LlmContextDocument) :
    usedBytes + totalBytes (selectDocuments maxBytes usedBytes documents) ≤
      max usedBytes (maxBytes + 63) := by
  induction documents generalizing usedBytes with
  | nil => exact Nat.le_max_left _ _
  | cons doc rest ih =>
    rw [selectDocuments]
    split
    · exact Nat.le_max_left _ _
    · dsimp only
      split
      · exact ih _
      · have hexcerpt := len_truncateTextForBudget doc.text (max (maxBytes - usedBytes) 64)
        have hrest := ih (usedBytes +
          Text.len (truncateTextForBudget doc.text (max (maxBytes - usedBytes) 64)))
        show usedBytes + (Text.len (truncateTextForBudget doc.text _) + totalBytes _) ≤ _
        omega

section Select

variable {query : String} {documents : List LlmContextDocument} {topK maxBytes : Nat}

theorem length_rankAndSelectDocuments (hk : 1 ≤ topK) :
    (rankAndSelectDocuments query documents topK maxBytes).length ≤ topK := by
  unfold rankAndSelectDocuments
  dsimp only
  split
  · exact hk
  · refine (length_selectDocuments _ _ _).trans ?_
    rw [List.length_take]
    exact Nat.min_le_left _ _

theorem totalBytes_rankAndSelectDocuments (hbytes : 1 ≤ maxBytes) :
    totalBytes (rankAndSelectDocuments query documents topK maxBytes) ≤ maxBytes + 63 := by
  unfold rankAndSelectDocuments
  dsimp only
  split
  · rename_i first rest _
    have hfirst := len_truncateTextForBudget first.text (max maxBytes 64)
    show Text.len (truncateTextForBudget first.text _) + 0 ≤ _
    omega
  · refine Nat.le_trans (Nat.le_add_left _ 0) ((totalBytes_selectDocuments maxBytes 0 _).trans ?_)
    omega

end Select

/-! ## The plan -/

section Plan

variable {rt : LlmRuntime} {args : Json} {config : LlmConfig} {parsed : LlmInferActionArgs}
  {plan : LlmPromptPlan}

def contextTopK (parsed : LlmInferActionArgs) (config : LlmConfig) : Nat :=
  min (max (parsed.contextTopK.getD config.contextRetrievalTopK) 1) 32

def contextMaxBytes (parsed : LlmInferActionArgs) (config : LlmConfig) : Nat :=
  max (parsed.contextMaxBytes.getD config.contextRetrievalMaxBytes) 256

/-- The documents that a retrieved prompt is made of. -/
def selectedDocuments (parsed : LlmInferActionArgs) (config : LlmConfig) :
    List LlmContextDocument :=
  rankAndSelectDocuments (parsed.contextQuery.getD parsed.prompt)
    (if parsed.contextDocuments.isEmpty then
      splitTextChunks parsed.prompt config.contextRetrievalChunkBytes
    else parsed.contextDocuments) (contextTopK parsed config) (contextMaxBytes parsed config)

theorem selectedDocuments_of_retrieved (parsed : LlmInferActionArgs) (config : LlmConfig) :
    (buildRetrievedPrompt parsed config).selectedDocuments =
      (selectedDocuments parsed config).length := by
  unfold buildRetrievedPrompt selectedDocuments contextTopK contextMaxBytes
  cases parsed.contextDocuments.isEmpty <;> rfl

/-- What keeps a plan within its limits. -/
structure WithinBudgets (config : LlmConfig) (parsed : LlmInferActionArgs)
    (plan : LlmPromptPlan) : Prop where
  prompt : Text.len plan.prompt ≤ max config.maxPromptBytes 64
  documents : (selectedDocuments parsed config).length ≤ contextTopK parsed config
  reported : plan.retrievalSelectedDocuments = 0 ∨
    plan.retrievalSelectedDocuments = (selectedDocuments parsed config).length
  total : totalBytes (selectedDocuments parsed config) < contextMaxBytes parsed config + 64
  boundaries : ∀ value budgetBytes, CutsAtBoundaries value budgetBytes

theorem len_trimToPromptBudget (config : LlmConfig) (shaped : ShapedPrompt) :
    Text.len (trimToPromptBudget config shaped).prompt ≤ max config.maxPromptBytes 64 := by
  unfold trimToPromptBudget
  split
  · exact len_summarizeTextForBudget _ _
  · omega

theorem selectedDocuments_trimToPromptBudget (config : LlmConfig) (shaped : ShapedPrompt) :
    (trimToPromptBudget config shaped).selectedDocuments = shaped.selectedDocuments := by
  unfold trimToPromptBudget
  split <;> rfl

theorem selectedDocuments_shapePrompt (parsed : LlmInferActionArgs) (config : LlmConfig)
    (prefer : Option LlmRoute) :
    (shapePrompt parsed config prefer).selectedDocuments = 0 ∨
      (shapePrompt parsed config prefer).selectedDocuments =
        (selectedDocuments parsed config).length := by
  rw [← selectedDocuments_of_retrieved]
  unfold shapePrompt
  split
  · split
    · exact .inl rfl
    · exact .inl rfl
    · exact .inr rfl
    · exact .inl rfl
  · split
    · exact .inr rfl
    · exact .inl rfl

theorem plan_shaped (hplan : buildPromptPlan rt parsed config = .ok plan) :
    ∃ prefer, plan.prompt = (trimToPromptBudget config (shapePrompt parsed config prefer)).prompt ∧
      plan.retrievalSelectedDocuments = (shapePrompt parsed config prefer).selectedDocuments := by
  unfold buildPromptPlan at hplan
  split at hplan
  · cases hplan
  · dsimp only at hplan
    split at hplan
    · cases hplan
    · cases hplan
      exact ⟨_, rfl, selectedDocuments_trimToPromptBudget _ _⟩

/-- Every plan keeps within its budgets. -/
theorem plan_withinBudgets (hplan : buildPromptPlan rt parsed config = .ok plan) :
    WithinBudgets config parsed plan := by
  have hk : 1 ≤ contextTopK parsed config := by
    unfold contextTopK
    omega
  have hbytes : 1 ≤ contextMaxBytes parsed config := by
    unfold contextMaxBytes
    omega
  obtain ⟨prefer, hprompt, hselected⟩ := plan_shaped hplan
  refine ⟨?_, length_rankAndSelectDocuments hk, ?_, ?_, cutsAtBoundaries⟩
  · rw [hprompt]
    exact len_trimToPromptBudget _ _
  · rw [hselected]
    exact selectedDocuments_shapePrompt _ _ _
  · exact Nat.lt_succ_of_le (totalBytes_rankAndSelectDocuments hbytes)

/-- A question with three documents, of which two may be taken. -/
def notesQuestion (fields : List (String × Json)) : Json :=
  .obj (fields ++ [("prompt", .str "What became of it?"), ("context_query", .str "editor"),
    ("context_documents", .arr [
      .obj [("id", .str "sky"), ("text", .str "Rain.")],
      .obj [("id", .str "old"), ("text", .str "A café editor.")],
      .obj [("path", .str "new"), ("text", .str "An editor.")]]),
    ("context_top_k", .nat 2)])

def notesArgs : LlmInferActionArgs where
  prompt := "What became of it?"
  channel := some "monitoring"
  system := none
  prefer := none
  preferExplicit := false
  requestClass := .interactive
  requestClassExplicit := false
  localTier := none
  localTierExplicit := false
  model := none
  largeInputPolicy := none
  redacted := false
  contextDocuments := [⟨"sky", "Rain."⟩,
    ⟨"old", "A café editor."⟩,
    ⟨"new", "An editor."⟩]
  contextQuery := some "editor"
  contextTopK := some 2
  contextMaxBytes := none
  verifierRequired := false
  maxTokens := none
  temperature := none

/-- A worker that admits requests and whose limit falls inside a character of a document. -/
def tightConfig : LlmConfig := { sampleConfig with maxPromptBytes := 82, admissionEnabled := true }

/-- The plan on the channel `monitoring`, whose defaults it takes. -/
def notesPlan : LlmPromptPlan where
  prompt := "[summary-trimmed]\nQuery:\neditor\n\nRelevant context:\n---- old ----\nA caf\n...\nnew ---"
  channel := some "monitoring"
  channelDefaultsApplied := true
  prefer := none
  requestClass := .batch
  localTier := some .small
  model := none
  largeInputPolicy := .summarizeFirst
  largeInputApplied := true
  largeInputReasonCode := "context_retrieval_applied"
  promptBytesOriginal := 18
  promptBytesEffective := 82
  retrievalCandidateDocuments := 3
  retrievalSelectedDocuments := 2

theorem buildPromptPlan_notes :
    buildPromptPlan sampleRuntime notesArgs tightConfig = .ok notesPlan := by
  decide +kernel

theorem plan_withinBudgets_notes :
    parseActionArgs (notesQuestion [("channel", .str "#Monitoring")]) tightConfig.maxInputBytes =
        .ok notesArgs ∧
      buildPromptPlan sampleRuntime notesArgs tightConfig = .ok notesPlan ∧
      (selectedDocuments notesArgs tightConfig).map (·.id) = ["old", "new"] ∧
      WithinBudgets tightConfig notesArgs notesPlan :=
  ⟨by decide +kernel, buildPromptPlan_notes, by decide +kernel,
    plan_withinBudgets buildPromptPlan_notes⟩

/-! ## Limits exceeded -/

def narrowConfig : LlmConfig := { sampleConfig with maxPromptBytes := 8 }

/-- A text of one letter. -/
def letters (n : Nat) : String := String.ofList (List.replicate n 'x')

theorem isEmpty_letters (n : Nat) : Text.isEmpty (letters (n + 1)) = false := by
  rw [Text.isEmpty, letters, String.toList_ofList]
  rfl

theorem nonEmptyTrimmed_letters (n : Nat) :
    Text.nonEmptyTrimmed (letters (n + 1)) = some (letters (n + 1)) := by
  have hhead : (letters (n + 1)).toList.head? = some 'x' := by
    rw [letters, String.toList_ofList]
    rfl
  have hlast : (letters (n + 1)).toList.getLast? = some 'x' := by
    rw [letters, String.toList_ofList, List.replicate_succ', List.getLast?_concat]
  have htrim := Text.trim_eq_self hhead hlast (by decide) (by decide)
  simp [Text.nonEmptyTrimmed, htrim, isEmpty_letters]

def twoDocuments (a b : String) : Json :=
  .obj [("prompt", .str "p"), ("context_documents", .arr [.obj [("text", .str a)],
    .obj [("text", .str b)]]), ("context_max_bytes", .nat 256)]

theorem parseContextDocuments_two {a b : String} (ha : Text.nonEmptyTrimmed a = some a)
    (hb : Text.nonEmptyTrimmed b = some b) :
    parseContextDocuments (some (.arr [.obj [("text", .str a)], .obj [("text", .str b)]])) =
      [⟨"doc-1", a⟩, ⟨"doc-2", b⟩] := by
  have hone : ("doc-" ++ (1 : Nat).repr) = "doc-1" := by decide
  have htwo : ("doc-" ++ (2 : Nat).repr) = "doc-2" := by decide
  simp [parseContextDocuments, parseContextDocument, textField, Json.asArray?, Json.asStr?,
    Json.get?, ha, hb, hone, htwo]

theorem parse_twoDocuments {a b : String} (ha : Text.nonEmptyTrimmed a = some a)
    (hb : Text.nonEmptyTrimmed b = some b) : ∃ parsed,
    parseActionArgs (twoDocuments a b) 64 = .ok parsed ∧
    parsed.contextDocuments = [⟨"doc-1", a⟩, ⟨"doc-2", b⟩] ∧
    parsed.prompt = "p" ∧ parsed.contextQuery = none ∧ parsed.contextTopK = none ∧
    parsed.contextMaxBytes = some 256 := by
  have hdocuments := parseContextDocuments_two ha hb
  refine ⟨{ prompt := "p"
            channel := none
            system := none
            prefer := none
            preferExplicit := false
            requestClass := .interactive
            requestClassExplicit := false
            localTier := none
            localTierExplicit := false
            model := none
            largeInputPolicy := none
            redacted := false
            contextDocuments := [⟨"doc-1", a⟩, ⟨"doc-2", b⟩]
            contextQuery := none
            contextTopK := none
            contextMaxBytes := some 256
            verifierRequired := false
            maxTokens := none
            temperature := none }, ?_, rfl, rfl, rfl, rfl, rfl⟩
  rw [← hdocuments]
  rfl

theorem len_letters (n : Nat) : Text.len (letters n) = n := by
  rw [letters, Text.len_ofList]
  induction n with
  | zero => rfl
  | succ n ih =>
    have hone : 'x'.utf8Size = 1 := by decide
    rw [List.replicate_succ, Text.bytes_cons, ih, hone]
    omega

theorem truncateTextForBudget_short {value : String} {budgetBytes : Nat}
    (hnonempty : Text.isEmpty value = false) (h : Text.len value ≤ budgetBytes) :
    truncateTextForBudget value budgetBytes = value := by
  unfold truncateTextForBudget
  rw [if_pos h, hnonempty, Bool.or_false]
  split
  · rename_i hzero
    have hlen : Text.len value = 0 := by
      have hbudget := of_decide_eq_true hzero
      omega
    rw [Text.len_eq, Text.bytes_eq_zero] at hlen
    rw [Text.isEmpty, hlen] at hnonempty
    cases hnonempty
  · rfl

/-- Two documents, of which the first leaves one byte of the budget. -/
theorem selected_two {a b : String} (ha : Text.isEmpty a = false) (hb : Text.isEmpty b = false)
    (hlena : Text.len a = 255) (hlenb : Text.len b = 64) :
    rankAndSelectDocuments "p" [⟨"doc-1", a⟩, ⟨"doc-2", b⟩] 6 256 =
      [⟨"doc-1", a⟩, ⟨"doc-2", b⟩] := by
  have htokens : tokenize "p" = [] := by decide
  have hfirst : truncateTextForBudget a 256 = a := truncateTextForBudget_short ha (by omega)
  have hsecond : truncateTextForBudget b 64 = b := truncateTextForBudget_short hb (by omega)
  simp [rankAndSelectDocuments, htokens, tokenOverlapScore, rankBefore, selectDocuments, hfirst,
    hlena, hsecond, ha, hb]

/-- A prompt of ten bytes that is to have no more than eight has more, and two documents
take 319 of 256 bytes. -/
theorem limits_exceeded :
    (∃ parsed plan, parseActionArgs (.obj [("prompt", .str "0123456789")])
        narrowConfig.maxInputBytes = .ok parsed ∧
      buildPromptPlan sampleRuntime parsed narrowConfig = .ok plan ∧
      narrowConfig.maxPromptBytes < Text.len plan.prompt) ∧
    ∃ parsed, parseActionArgs (twoDocuments (letters 255) (letters 64)) 64 = .ok parsed ∧
      contextMaxBytes parsed sampleConfig < totalBytes (selectedDocuments parsed sampleConfig) := by
  refine ⟨⟨_, _, rfl, rfl, by decide⟩, ?_⟩
  obtain ⟨parsed, hparsed, hdocuments, hprompt, hquery, htopK, hmaxBytes⟩ :=
    parse_twoDocuments (nonEmptyTrimmed_letters 254) (nonEmptyTrimmed_letters 63)
  refine ⟨parsed, hparsed, ?_⟩
  have hselected : selectedDocuments parsed sampleConfig =
      [⟨"doc-1", letters 255⟩, ⟨"doc-2", letters 64⟩] := by
    rw [selectedDocuments, contextTopK, contextMaxBytes, hdocuments, hprompt, hquery, htopK,
      hmaxBytes]
    exact selected_two (isEmpty_letters 254) (isEmpty_letters 63) (len_letters 255) (len_letters 64)
  rw [hselected, contextMaxBytes, hmaxBytes]
  simp only [totalBytes, List.map_cons, List.map_nil, List.sum_cons, List.sum_nil, len_letters]
  decide

end Plan

end Llm
end SecureAgnt

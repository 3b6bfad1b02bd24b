/-
The arguments of an `llm.infer` action and the prompt plan made from them: the
channel's routing defaults, the large-input policy and context retrieval.

Byte budgets cut a text at a character boundary, so every cut is a prefix or a
suffix of the character list.
-/
import Mathlib.Data.List.Sort
import SecureAgnt.Llm.Config

namespace SecureAgnt
namespace Llm

structure LlmContextDocument where
  id : String
  text : String
  deriving DecidableEq, Repr

structure LlmInferActionArgs where
  prompt : String
  channel : Option String
  system : Option String
  prefer : Option LlmRoute
  preferExplicit : Bool
  requestClass : LlmRequestClass
  requestClassExplicit : Bool
  localTier : Option LlmLocalTier
  localTierExplicit : Bool
  model : Option String
  largeInputPolicy : Option LlmLargeInputPolicy
  redacted : Bool
  contextDocuments : List LlmContextDocument
  contextQuery : Option String
  contextTopK : Option Nat
  contextMaxBytes : Option Nat
  verifierRequired : Bool
  maxTokens : Option Nat
  temperature : Option JsonNumber
  deriving DecidableEq, Repr

/-! ## Reading the arguments -/

def textField (args : Json) (key : String) : Option String :=
  ((args.get? key).bind Json.asStr?).bind Text.nonEmptyTrimmed

def parseContextDocument (idx : Nat) (item : Json) : Option LlmContextDocument :=
  (textField item "text").map fun text =>
    let idField := ((item.get? "id").or ((item.get? "path").or (item.get? "source")))
    { id := ((idField.bind Json.asStr?).bind Text.nonEmptyTrimmed).getD
        ("doc-" ++ toString (idx + 1))
      text := text }

def parseContextDocuments (value : Option Json) : List LlmContextDocument :=
  match value.bind Json.asArray? with
  | none => []
  | some items => items.zipIdx.filterMap fun (item, idx) => parseContextDocument idx item

def parseActionArgs (args : Json) (maxInputBytes : Nat) : Except String LlmInferActionArgs := do
  match textField args "prompt" with
  | none => .error "llm.infer args.prompt is required"
  | some prompt =>
    if Text.len prompt > maxInputBytes then
      .error ("llm.infer prompt exceeded " ++ toString maxInputBytes ++ " bytes")
    else
      let preferRaw := textField args "prefer"
      let prefer ← parseTextField (args.get? "prefer") parseRoutePreference
      let requestClassField := (args.get? "request_class").or (args.get? "queue_class")
      let requestClassRaw := (requestClassField.bind Json.asStr?).bind Text.nonEmptyTrimmed
      let requestClass ← parseTextField requestClassField LlmRequestClass.parse
      let localTierRaw := textField args "local_tier"
      let localTier ← parseTextField (args.get? "local_tier")
        (LlmLocalTier.parse · "llm.infer args.local_tier")
      let largeInputPolicy ←
        match (args.get? "large_input_policy").bind Json.asStr? with
        | none => .ok none
        | some raw => (LlmLargeInputPolicy.parse raw).map some
      return {
        prompt := prompt
        channel := (((args.get? "channel").or (args.get? "llm_channel")).bind
          Json.asStr?).bind normalizeChannelName
        system := textField args "system"
        prefer := prefer
        preferExplicit := preferRaw.isSome
        requestClass := requestClass.getD .interactive
        requestClassExplicit := requestClassRaw.isSome
        localTier := localTier
        localTierExplicit := localTierRaw.isSome
        model := textField args "model"
        largeInputPolicy := largeInputPolicy
        redacted := ((args.get? "redacted").bind Json.asBool?).getD false
        contextDocuments := parseContextDocuments (args.get? "context_documents")
        contextQuery := textField args "context_query"
        contextTopK := ((args.get? "context_top_k").bind Json.asU64?).map fun v => min (max v 1) 32
        contextMaxBytes := ((args.get? "context_max_bytes").bind Json.asU64?).map fun v =>
          min (max v 256) (512 * 1024)
        verifierRequired := (((args.get? "verify").or (args.get? "verifier_required")).bind
          Json.asBool?).getD false
        maxTokens := ((args.get? "max_tokens").bind Json.asU64?).map (min · (2 ^ 32 - 1))
        temperature := (args.get? "temperature").bind Json.asNumber? }

/-! ## Cutting text to a byte budget -/

/-- The longest prefix of at most `budget` bytes, and the rest. -/
def splitAtBytes : Nat → List Char → List Char × List Char
  | _, [] => ([], [])
  | budget, c :: cs =>
    if c.utf8Size ≤ budget then
      let (before, after) := splitAtBytes (budget - c.utf8Size) cs
      (c :: before, after)
    else ([], c :: cs)

def truncateTextForBudget (value : String) (budgetBytes : Nat) : String :=
  if budgetBytes = 0 || Text.isEmpty value then ""
  else if Text.len value ≤ budgetBytes then value
  else String.ofList (splitAtBytes budgetBytes value.toList).1

def truncateTextFromEndForBudget (value : String) (budgetBytes : Nat) : String :=
  if budgetBytes = 0 || Text.isEmpty value then ""
  else if Text.len value ≤ budgetBytes then value
  else String.ofList (splitAtBytes (Text.len value - budgetBytes) value.toList).2

/-- The shares `0.65` and `0.25` of the budget are `13/20` and `1/4` exactly on
every budget below `2 ^ 48`, which a budget smaller than the text always is. -/
def summarizeTextForBudget (text : String) (budgetBytes : Nat) : String :=
  if Text.len text ≤ budgetBytes then text
  else
    let budgetBytes := max budgetBytes 64
    let headText := truncateTextForBudget text (max (budgetBytes * 13 / 20) 16)
    let tailText := truncateTextFromEndForBudget text (max (budgetBytes / 4) 16)
    truncateTextForBudget ("[summary-trimmed]\n" ++ headText ++ "\n...\n" ++ tailText) budgetBytes

/-- Each chunk is a nonempty prefix of what is left, so `fuel` of one per
character suffices; a chunk that takes nothing ends the loop. -/
def splitTextChunksAux (chunkBytes : Nat) : Nat → Nat → List Char → List LlmContextDocument
  | 0, _, _ => []
  | fuel + 1, count, rest =>
    match splitAtBytes chunkBytes rest with
    | ([], _) => []
    | (chunk, after) =>
      { id := "chunk-" ++ toString (count + 1), text := String.ofList chunk } ::
        splitTextChunksAux chunkBytes fuel (count + 1) after

def splitTextChunks (text : String) (chunkBytes : Nat) : List LlmContextDocument :=
  splitTextChunksAux (max chunkBytes 256) text.toList.length 0 text.toList

/-! ## Context retrieval -/

def isAsciiAlphanumeric (c : Char) : Bool :=
  (48 ≤ c.toNat && c.toNat ≤ 57) || (65 ≤ c.toNat && c.toNat ≤ 90) ||
    (97 ≤ c.toNat && c.toNat ≤ 122)

def tokenize (value : String) : List String :=
  (((Text.split value fun c => !isAsciiAlphanumeric c).filter fun token =>
    Text.len token > 2).map Text.toAsciiLowercase).dedup

def tokenOverlapScore (queryTokens : List String) (text : String) : Nat :=
  (queryTokens.filter fun token => (tokenize text).contains token).length

/-- Documents by descending score, then by position. -/
def rankBefore (a b : Nat × Nat × LlmContextDocument) : Bool :=
  b.2.1 < a.2.1 || (a.2.1 = b.2.1 && a.1 ≤ b.1)

def selectDocuments (maxBytes : Nat) :
    Nat → List LlmContextDocument → List LlmContextDocument
  | _, [] => []
  | usedBytes, doc :: rest =>
    if usedBytes ≥ maxBytes then []
    else
      let excerpt := truncateTextForBudget doc.text (max (maxBytes - usedBytes) 64)
      if Text.isEmpty excerpt then selectDocuments maxBytes usedBytes rest
      else
        { id := doc.id, text := excerpt } ::
          selectDocuments maxBytes (usedBytes + Text.len excerpt) rest

def rankAndSelectDocuments (query : String) (documents : List LlmContextDocument)
    (topK maxBytes : Nat) : List LlmContextDocument :=
  let queryTokens := tokenize query
  let scored := documents.zipIdx.map fun (doc, index) =>
    (index, tokenOverlapScore queryTokens doc.text, doc)
  let ranked := (scored.insertionSort fun a b => rankBefore a b = true).map fun entry => entry.2.2
  match selectDocuments maxBytes 0 (ranked.take topK), documents with
  | [], first :: _ =>
    [{ id := first.id, text := truncateTextForBudget first.text (max maxBytes 64) }]
  | selected, _ => selected

def buildRetrievalPrompt (query : String) (selected : List LlmContextDocument)
    (maxBytes : Nat) : String :=
  let body := selected.foldl (fun output doc =>
    output ++ "---- " ++ doc.id ++ " ----\n" ++ doc.text ++ "\n") ""
  truncateTextForBudget ("Query:\n" ++ query ++ "\n\nRelevant context:\n" ++ body)
    (max maxBytes 256)

structure RetrievalOutput where
  prompt : String
  candidateDocuments : Nat
  selectedDocuments : Nat
  reasonCode : String

def buildRetrievedPrompt (parsed : LlmInferActionArgs) (config : LlmConfig) : RetrievalOutput :=
  let contextTopK := min (max (parsed.contextTopK.getD config.contextRetrievalTopK) 1) 32
  let contextMaxBytes := max (parsed.contextMaxBytes.getD config.contextRetrievalMaxBytes) 256
  let contextQuery := parsed.contextQuery.getD parsed.prompt
  let (documents, reasonCode) :=
    if parsed.contextDocuments.isEmpty then
      (splitTextChunks parsed.prompt config.contextRetrievalChunkBytes,
        "large_input_chunk_retrieve_prompt")
    else (parsed.contextDocuments, "large_input_chunk_retrieve_documents")
  let selected := rankAndSelectDocuments contextQuery documents contextTopK contextMaxBytes
  { prompt := buildRetrievalPrompt (truncateTextForBudget contextQuery 1024) selected
      contextMaxBytes
    candidateDocuments := documents.length
    selectedDocuments := selected.length
    reasonCode := reasonCode }

/-! ## The prompt plan -/

structure LlmPromptPlan where
  prompt : String
  channel : Option String
  channelDefaultsApplied : Bool
  prefer : Option LlmRoute
  requestClass : LlmRequestClass
  localTier : Option LlmLocalTier
  model : Option String
  largeInputPolicy : LlmLargeInputPolicy
  largeInputApplied : Bool
  largeInputReasonCode : String
  promptBytesOriginal : Nat
  promptBytesEffective : Nat
  retrievalCandidateDocuments : Nat
  retrievalSelectedDocuments : Nat
  deriving DecidableEq, Repr

/-- A default of the channel's policy, where the action does not set the field. -/
def channelDefault {α : Type} (explicit : Bool) (own default : Option α) : Option α :=
  if explicit then own else default.or own

/-- What the large-input stage does to the prompt and the route preference. -/
structure ShapedPrompt where
  prompt : String
  prefer : Option LlmRoute
  applied : Bool
  reasonCode : String
  candidateDocuments : Nat := 0
  selectedDocuments : Nat := 0

def shapePrompt (parsed : LlmInferActionArgs) (config : LlmConfig)
    (prefer : Option LlmRoute) : ShapedPrompt :=
  if Text.len parsed.prompt > config.largeInputThresholdBytes then
    match parsed.largeInputPolicy.getD config.largeInputPolicy with
    | .direct => ⟨parsed.prompt, prefer, false, "large_input_direct", 0, 0⟩
    | .summarizeFirst =>
      ⟨summarizeTextForBudget parsed.prompt config.largeInputSummaryTargetBytes, prefer, true,
        "large_input_summarize_first", 0, 0⟩
    | .chunkAndRetrieve =>
      let retrieval := buildRetrievedPrompt parsed config
      ⟨retrieval.prompt, prefer, true, retrieval.reasonCode, retrieval.candidateDocuments,
        retrieval.selectedDocuments⟩
    | .escalateRemote =>
      ⟨parsed.prompt, some .remote, true, "large_input_escalate_remote", 0, 0⟩
  else if !parsed.contextDocuments.isEmpty then
    let retrieval := buildRetrievedPrompt parsed config
    ⟨retrieval.prompt, prefer, true, "context_retrieval_applied", retrieval.candidateDocuments,
      retrieval.selectedDocuments⟩
  else ⟨parsed.prompt, prefer, false, "direct", 0, 0⟩

def trimToPromptBudget (config : LlmConfig) (shaped : ShapedPrompt) : ShapedPrompt :=
  if Text.len shaped.prompt > config.maxPromptBytes then
    { shaped with
      prompt := summarizeTextForBudget shaped.prompt config.maxPromptBytes
      applied := true
      reasonCode :=
        if shaped.reasonCode == "direct" || shaped.reasonCode == "large_input_direct" then
          "prompt_trimmed_to_budget"
        else shaped.reasonCode }
  else shaped

def buildPromptPlan (rt : LlmRuntime) (parsed : LlmInferActionArgs) (config : LlmConfig) :
    Except String LlmPromptPlan :=
  match resolveChannelDefaultsFromEnv rt with
  | .error e => .error e
  | .ok channelDefaults =>
    let policy := (parsed.channel.bind channelDefaults.get).getD {}
    let shaped := trimToPromptBudget config (shapePrompt parsed config
      (channelDefault parsed.preferExplicit parsed.prefer policy.prefer))
    if Text.isEmpty (Text.trim shaped.prompt) then
      .error "llm.infer prompt became empty after large-input policy processing"
    else .ok
      { prompt := shaped.prompt
        channel := parsed.channel
        channelDefaultsApplied :=
          (!parsed.preferExplicit && policy.prefer.isSome) ||
            (!parsed.requestClassExplicit && policy.requestClass.isSome) ||
            (!parsed.localTierExplicit && policy.localTier.isSome)
        prefer := shaped.prefer
        requestClass := (channelDefault parsed.requestClassExplicit (some parsed.requestClass)
          policy.requestClass).getD parsed.requestClass
        localTier := channelDefault parsed.localTierExplicit parsed.localTier policy.localTier
        model := parsed.model
        largeInputPolicy := parsed.largeInputPolicy.getD config.largeInputPolicy
        largeInputApplied := shaped.applied
        largeInputReasonCode := shaped.reasonCode
        promptBytesOriginal := Text.len parsed.prompt
        promptBytesEffective := Text.len shaped.prompt
        retrievalCandidateDocuments := shaped.candidateDocuments
        retrievalSelectedDocuments := shaped.selectedDocuments }

end Llm
end SecureAgnt

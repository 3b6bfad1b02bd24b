/-
The messages between the runner and a skill, as lines of JSON.

`json` and `readMessage` are what `serde` derives for the messages; how JSON is read from
bytes is a parameter.  A message is one line, and a reader of the line has the message.
-/
import SecureAgnt.Lib.JsonCanonical
import SecureAgnt.Skill.Runner

namespace SecureAgnt
namespace Skill

/-! ## Writing -/

def grantJson (grant : CapabilityGrant) : Json := .obj [
  ("capability", .str grant.capability),
  ("scope", .str grant.scope)]

def optionalText : Option String → Json
  | none => .null
  | some text => .str text

def contextJson (context : InvokeContext) : Json := .obj ([
  ("tenant_id", .str context.tenantId),
  ("run_id", .str context.runId),
  ("step_id", .str context.stepId),
  ("time_budget_ms", .nat context.timeBudgetMs)] ++
  -- `skip_serializing_if = "Option::is_none"`
  (context.traceId.toList.map fun traceId => ("trace_id", .str traceId)) ++
  [("granted_capabilities", .arr (context.grantedCapabilities.map grantJson))])

def actionJson (action : ActionRequest) : Json := .obj [
  ("action_id", .str action.actionId),
  ("action_type", .str action.actionType),
  ("args", action.args),
  ("justification", .str action.justification),
  ("action_contract_version", optionalText action.actionContractVersion),
  ("action_schema_id", optionalText action.actionSchemaId)]

def skillJson (skill : SkillDescription) : Json := .obj [
  ("name", .str skill.name),
  ("version", .str skill.version),
  ("description", .str skill.description),
  ("inputs_schema", skill.inputsSchema),
  ("outputs_schema", skill.outputsSchema),
  ("requested_capabilities", .arr (skill.requestedCapabilities.map grantJson)),
  ("action_types", .arr (skill.actionTypes.map .str))]

def errorJson (error : ProtocolError) : Json := .obj [
  ("code", .str error.code),
  ("message", .str error.message),
  ("details", error.details)]

/-- The fields of a message behind its tag. -/
def SkillMessage.fields : SkillMessage → List (String × Json)
  | .describe id => [("id", .str id)]
  | .describeResult id skill => [("id", .str id), ("skill", skillJson skill)]
  | .invoke id context input =>
    [("id", .str id), ("context", contextJson context), ("input", input)]
  | .invokeResult id output actionRequests =>
    [("id", .str id), ("output", output), ("action_requests", .arr (actionRequests.map actionJson))]
  | .error id failure => [("id", .str id), ("error", errorJson failure)]

def SkillMessage.json (message : SkillMessage) : Json :=
  .obj (("type", .str (messageTypeName message)) :: message.fields)

/-! ## Reading -/

section Reading

variable {α : Type}

def required (v : Json) (key : String) (read : Json → Option α) : Option α :=
  (v.get? key).bind read

/-- `#[serde(default)]`, and every `Option`. -/
def defaulted (v : Json) (key : String) (default : α) (read : Json → Option α) : Option α :=
  match v.get? key with
  | none => some default
  | some field => read field

def readOption (read : Json → Option α) : Json → Option (Option α)
  | .null => some none
  | v => (read v).map some

def readList (read : Json → Option α) : Json → Option (List α)
  | .arr items => items.mapM read
  | _ => none

/-- A map of `serde_json` has its keys in order. -/
def readValue (v : Json) : Option Json := some v.canonical

def readText (v : Json) (key : String) : Option String := required v key Json.asStr?

def readOptionalText (v : Json) (key : String) : Option (Option String) :=
  defaulted v key none (readOption Json.asStr?)

end Reading

def readGrant (v : Json) : Option CapabilityGrant := do
  return ⟨← readText v "capability", ← readText v "scope"⟩

def readContext (v : Json) : Option InvokeContext := do
  return {
    tenantId := ← readText v "tenant_id"
    runId := ← readText v "run_id"
    stepId := ← readText v "step_id"
    timeBudgetMs := ← required v "time_budget_ms" Json.asU64?
    traceId := ← readOptionalText v "trace_id"
    grantedCapabilities := ← defaulted v "granted_capabilities" [] (readList readGrant) }

def readAction (v : Json) : Option ActionRequest := do
  return {
    actionId := ← readText v "action_id"
    actionType := ← readText v "action_type"
    args := ← required v "args" readValue
    justification := ← readText v "justification"
    actionContractVersion := ← readOptionalText v "action_contract_version"
    actionSchemaId := ← readOptionalText v "action_schema_id" }

def readSkill (v : Json) : Option SkillDescription := do
  return {
    name := ← readText v "name"
    version := ← readText v "version"
    description := ← readText v "description"
    inputsSchema := ← required v "inputs_schema" readValue
    outputsSchema := ← required v "outputs_schema" readValue
    requestedCapabilities := ← defaulted v "requested_capabilities" [] (readList readGrant)
    actionTypes := ← defaulted v "action_types" [] (readList Json.asStr?) }

def readError (v : Json) : Option ProtocolError := do
  return {
    code := ← readText v "code"
    message := ← readText v "message"
    details := ← defaulted v "details" .null readValue }

def readTagged (v : Json) (tag : String) : Option SkillMessage := do
  let id ← readText v "id"
  if tag = "describe" then return .describe id
  else if tag = "describe_result" then return .describeResult id (← required v "skill" readSkill)
  else if tag = "invoke" then
    return .invoke id (← required v "context" readContext) (← required v "input" readValue)
  else if tag = "invoke_result" then
    return .invokeResult id (← required v "output" readValue)
      (← defaulted v "action_requests" [] (readList readAction))
  else if tag = "error" then return .error id (← required v "error" readError)
  else none

def readMessage (v : Json) : Option SkillMessage := do
  readTagged v (← readText v "type")

/-! ## Reading what was written -/

/-- A value as `serde_json` holds it, with its keys in order. -/
structure Held (v : Json) : Prop where
  isValue : v.IsValue
  sorted : v.canonical = v

/-- The values of a message are held so, and its `u64` is one. -/
def SkillMessage.Kept : SkillMessage → Prop
  | .describe _ => True
  | .describeResult _ skill => Held skill.inputsSchema ∧ Held skill.outputsSchema
  | .invoke _ context input => context.timeBudgetMs < 2 ^ 64 ∧ Held input
  | .invokeResult _ output actionRequests =>
    Held output ∧ ∀ action ∈ actionRequests, Held action.args
  | .error _ failure => Held failure.details

section RoundTrip

theorem readList_map {α : Type} {read : Json → Option α} {write : α → Json} {items : List α}
    (h : ∀ a ∈ items, read (write a) = some a) :
    readList read (.arr (items.map write)) = some items := by
  show (items.map write).mapM read = some items
  induction items with
  | nil => rfl
  | cons a items ih =>
    rw [List.map_cons, List.mapM_cons, h a List.mem_cons_self,
      ih fun b hb => h b (List.mem_cons_of_mem _ hb)]
    rfl

theorem readOption_optionalText (text : Option String) :
    readOption Json.asStr? (optionalText text) = some text := by
  cases text <;> rfl

theorem readGrant_grantJson (grant : CapabilityGrant) : readGrant (grantJson grant) = some grant :=
  rfl

theorem asU64?_nat {n : Nat} (h : n < 2 ^ 64) : (Json.nat n).asU64? = some n :=
  congrArg some (UInt64.toNat_ofNat_of_lt' h)

theorem readContext_contextJson {context : InvokeContext} (h : context.timeBudgetMs < 2 ^ 64) :
    readContext (contextJson context) = some context := by
  obtain ⟨tenantId, runId, stepId, timeBudgetMs, traceId, grants⟩ := context
  have hgrants := readList_map fun grant (_ : grant ∈ grants) => readGrant_grantJson grant
  cases traceId with
  | none =>
    simp [readContext, contextJson, readText, readOptionalText, required, defaulted, Json.get?,
      Json.asStr?, asU64?_nat h, hgrants]
  | some traceId =>
    simp [readContext, contextJson, readText, readOptionalText, required, defaulted, Json.get?,
      Json.asStr?, asU64?_nat h, hgrants, readOption]

theorem readAction_actionJson {action : ActionRequest}
    (h : Held action.args) : readAction (actionJson action) = some action := by
  simp [readAction, actionJson, readText, readOptionalText, required, defaulted, Json.get?,
    Json.asStr?, readValue, h.sorted, readOption_optionalText]

theorem readSkill_skillJson {skill : SkillDescription}
    (hinputs : Held skill.inputsSchema) (houtputs : Held skill.outputsSchema) :
    readSkill (skillJson skill) = some skill := by
  have hgrants := readList_map fun grant (_ : grant ∈ skill.requestedCapabilities) =>
    readGrant_grantJson grant
  have htypes : readList Json.asStr? (.arr (skill.actionTypes.map .str)) = some skill.actionTypes :=
    readList_map fun _ _ => rfl
  simp [readSkill, skillJson, readText, required, defaulted, Json.get?, Json.asStr?, readValue,
    hinputs.sorted, houtputs.sorted, hgrants, htypes]

theorem readError_errorJson {error : ProtocolError} (h : Held error.details) :
    readError (errorJson error) = some error := by
  simp [readError, errorJson, readText, required, defaulted, Json.get?, Json.asStr?, readValue,
    h.sorted]

/-- A message is read as it was written. -/
theorem readMessage_json {message : SkillMessage} (h : message.Kept) :
    readMessage message.json = some message := by
  cases message with
  | describe id => rfl
  | describeResult id skill =>
    simp [readMessage, readTagged, SkillMessage.json, SkillMessage.fields, messageTypeName,
      readText, required, Json.get?, Json.asStr?, readSkill_skillJson h.1 h.2]
  | invoke id context input =>
    simp [readMessage, readTagged, SkillMessage.json, SkillMessage.fields, messageTypeName,
      readText, required, Json.get?, Json.asStr?, readContext_contextJson h.1, readValue,
      h.2.sorted]
  | invokeResult id output actionRequests =>
    have hactions := readList_map fun action haction => readAction_actionJson (h.2 action haction)
    simp [readMessage, readTagged, SkillMessage.json, SkillMessage.fields, messageTypeName,
      readText, required, defaulted, Json.get?, Json.asStr?, readValue, h.1.sorted, hactions]
  | error id failure =>
    simp [readMessage, readTagged, SkillMessage.json, SkillMessage.fields, messageTypeName,
      readText, required, Json.get?, Json.asStr?, readError_errorJson h]

end RoundTrip

section Values

theorem isValue_obj_iff {fields : List (String × Json)} :
    (Json.obj fields).IsValue ↔ (fields.map (·.1)).Nodup ∧ ∀ f ∈ fields, f.2.IsValue := by
  constructor
  · intro h
    cases h with
    | obj hkeys hfields => exact ⟨hkeys, hfields⟩
  · intro h
    exact .obj h.1 h.2

theorem isValue_arr_map {α : Type} {write : α → Json} {items : List α}
    (h : ∀ a ∈ items, (write a).IsValue) : (Json.arr (items.map write)).IsValue := by
  refine .arr fun v hv => ?_
  obtain ⟨a, ha, rfl⟩ := List.mem_map.mp hv
  exact h a ha

theorem isValue_str (text : String) : (Json.str text).IsValue := .str text

theorem isValue_nat (n : Nat) : (Json.nat n).IsValue := .num rfl

theorem isValue_optionalText (text : Option String) : (optionalText text).IsValue := by
  cases text with
  | none => exact .null
  | some text => exact .str text

theorem isValue_grantJson (grant : CapabilityGrant) : (grantJson grant).IsValue := by
  simp [grantJson, isValue_obj_iff, isValue_str]

theorem isValue_contextJson (context : InvokeContext) : (contextJson context).IsValue := by
  have hgrants := isValue_arr_map fun grant (_ : grant ∈ context.grantedCapabilities) =>
    isValue_grantJson grant
  cases htrace : context.traceId with
  | none => simp [contextJson, htrace, isValue_obj_iff, isValue_str, isValue_nat, hgrants]
  | some traceId => simp [contextJson, htrace, isValue_obj_iff, isValue_str, isValue_nat, hgrants]

theorem isValue_actionJson {action : ActionRequest} (h : Held action.args) :
    (actionJson action).IsValue := by
  simp [actionJson, isValue_obj_iff, isValue_str, isValue_optionalText, h.isValue]

theorem isValue_skillJson {skill : SkillDescription} (hinputs : Held skill.inputsSchema)
    (houtputs : Held skill.outputsSchema) : (skillJson skill).IsValue := by
  have hgrants := isValue_arr_map fun grant (_ : grant ∈ skill.requestedCapabilities) =>
    isValue_grantJson grant
  have htypes := isValue_arr_map fun text (_ : text ∈ skill.actionTypes) => isValue_str text
  simp [skillJson, isValue_obj_iff, isValue_str, hinputs.isValue, houtputs.isValue, hgrants,
    htypes]

theorem isValue_json {message : SkillMessage} (h : message.Kept) : message.json.IsValue := by
  cases message with
  | describe id =>
    simp [SkillMessage.json, SkillMessage.fields, isValue_obj_iff, isValue_str]
  | describeResult id skill =>
    simp [SkillMessage.json, SkillMessage.fields, isValue_obj_iff, isValue_str,
      isValue_skillJson h.1 h.2]
  | invoke id context input =>
    simp [SkillMessage.json, SkillMessage.fields, isValue_obj_iff, isValue_str,
      isValue_contextJson, h.2.isValue]
  | invokeResult id output actionRequests =>
    have hactions := isValue_arr_map fun action haction => isValue_actionJson (h.2 action haction)
    simp [SkillMessage.json, SkillMessage.fields, isValue_obj_iff, isValue_str, h.1.isValue,
      hactions]
  | error id failure =>
    simp [SkillMessage.json, SkillMessage.fields, errorJson, isValue_obj_iff, isValue_str,
      Held.isValue h]

end Values

end Skill
end SecureAgnt

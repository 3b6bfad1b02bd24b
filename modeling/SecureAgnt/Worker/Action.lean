/-
From an action a skill emits to the decision to execute it: normalisation, the
contract check, the policy request and the gates of `process_claimed_run`.
-/
import SecureAgnt.Llm.Route
import SecureAgnt.Policy.Containment
import SecureAgnt.Worker.Config

namespace SecureAgnt
namespace Worker

open Policy (DenyReason GrantSet isActionAllowed parseGrantSet)

/-- `skillrunner::ActionRequest`. -/
structure SkillAction where
  actionId : String
  actionType : String
  args : Json
  justification : String
  actionContractVersion : Option String := none
  actionSchemaId : Option String := none

def normalizedActionType (value : String) : String := Text.toAsciiLowercase (Text.trim value)

/-! ## Normalisation -/

/-- One alias of the loop: it goes, and its value is kept while there is none. -/
def takeAlias (taken : Option Json × List (String × Json)) (name : String) :
    Option Json × List (String × Json) :=
  (taken.1.or ((Json.obj taken.2).get? name), Json.removeField name taken.2)

def canonicalizeActionArgAlias (canonical : String) (aliases : List String)
    (fields : List (String × Json)) : List (String × Json) :=
  let taken := aliases.foldl takeAlias
    ((Json.obj fields).get? canonical, Json.removeField canonical fields)
  match taken.1 with
  | some value => Json.insertField canonical value taken.2
  | none => taken.2

def trimString : Json → Json
  | .str value => .str (Text.trim value)
  | other => other

/-- Trim the text of a field in place. -/
def trimField (fields : List (String × Json)) (name : String) : List (String × Json) :=
  fields.map fun field => if field.1 = name then (field.1, trimString field.2) else field

def canonicalizeActionArgAliases (fields : List (String × Json)) : List (String × Json) :=
  let fields := canonicalizeActionArgAlias "path" ["file_path", "filepath", "source_path"] fields
  let fields := canonicalizeActionArgAlias "destination" ["to", "recipient", "recipient_id"] fields
  let fields := canonicalizeActionArgAlias "source" ["from", "sender", "sender_id"] fields
  let fields := canonicalizeActionArgAlias "scope" ["scope_name", "scope-name"] fields
  let fields := canonicalizeActionArgAlias "template_id"
    ["template", "template-id", "template_name"] fields
  ["path", "destination", "scope", "template_id"].foldl trimField fields

def normalizeArgs : Json → Json
  | .obj fields => .obj (["path", "destination", "source", "scope", "template_id"].foldl trimField
      (canonicalizeActionArgAliases fields))
  | other => other

def normalizeSkillAction (action : SkillAction) : SkillAction :=
  { action with
    actionType := normalizedActionType action.actionType
    actionContractVersion := action.actionContractVersion.bind Text.nonEmptyTrimmed
    actionSchemaId := action.actionSchemaId.bind Text.nonEmptyTrimmed
    args := normalizeArgs action.args }

/-! ## The contract check -/

def normalizeContractVersion (rawVersion : String) : Option String :=
  match Text.trim rawVersion with
  | "1" | "v1" | "V1" => some "1"
  | _ => none

def supportedActionTypes : List String :=
  ["object.read", "memory.read", "memory.write", "object.write", "message.send",
    "message.receive", "payment.send", "llm.infer", "local.exec"]

def validateSchemaId (actionType version schemaId : String) : Except String Unit :=
  match Text.splitOnce schemaId ':' with
  | none => .error "action_schema_id must use `<action_type>:<version>` format"
  | some (schemaActionType, rawSchemaVersion) =>
    match normalizeContractVersion rawSchemaVersion with
    | none => .error ("unsupported action_contract_version `" ++ schemaId ++ "`")
    | some schemaVersion =>
      if normalizedActionType (Text.trim schemaActionType) ≠ actionType then
        .error "action_schema_id action type does not match action_type"
      else if schemaVersion ≠ version then
        .error "action_schema_id version does not match action_contract_version"
      else if Text.contains schemaId ".." then
        .error "action_schema_id contains disallowed path segments"
      else .ok ()

/-- The contract check; every failure has the reason `invalid_action_contract`. -/
def validateActionContract (action : SkillAction) : Except String Unit :=
  match action.actionContractVersion.bind Text.nonEmptyTrimmed,
      action.actionSchemaId.bind Text.nonEmptyTrimmed with
  | none, none => .ok ()
  | some _, none | none, some _ =>
    .error "action_contract_version and action_schema_id must be provided together"
  | some version, some schemaId =>
    match normalizeContractVersion version with
    | none => .error ("unsupported action_contract_version `" ++ version ++ "`")
    | some normalizedVersion =>
      let actionType := normalizedActionType action.actionType
      if !supportedActionTypes.contains actionType then .ok ()
      else validateSchemaId actionType normalizedVersion schemaId

/-! ## The policy request -/

def requiredTrimmedArg (action : SkillAction) (field label : String) : Except String String :=
  match ((action.args.get? field).bind Json.asStr?).bind Text.nonEmptyTrimmed with
  | some value => .ok value
  | none => .error (label ++ " is required and must not be empty")

def policyScope (rt : WorkerRuntime) (config : WorkerConfig) (action : SkillAction) :
    Except String String :=
  match action.actionType with
  | "object.write" => requiredTrimmedArg action "path" "object.write args.path"
  | "message.send" => requiredTrimmedArg action "destination" "message.send args.destination"
  | "message.receive" => requiredTrimmedArg action "source" "message.receive args.source"
  | "payment.send" => requiredTrimmedArg action "destination" "payment.send args.destination"
  | "memory.read" | "memory.write" => requiredTrimmedArg action "scope" "memory action args.scope"
  | "llm.infer" => Llm.policyScopeForAction rt.llm action.args config.llm
  | "local.exec" =>
    (requiredTrimmedArg action "template_id" "local.exec args.template_id").map
      ("local.exec:" ++ ·)
  | _ => .ok ""

def toPolicyRequest (rt : WorkerRuntime) (config : WorkerConfig) (action : SkillAction) :
    Except String Policy.ActionRequest :=
  match validateActionContract action with
  | .error detail => .error detail
  | .ok () =>
    (policyScope rt config action).map fun scope =>
      ⟨action.actionType, scope, rt.serializedLen action.args⟩

/-! ## The gates -/

def requiresGovernanceApproval (config : WorkerConfig) (actionType : String) : Bool :=
  config.approvalRequiredActionTypes.contains (normalizedActionType actionType)

def argFlag (args : Json) (field : String) : Bool :=
  ((args.get? field).bind Json.asBool?).getD false

def isActionGovernanceApproved (action : SkillAction) : Bool :=
  argFlag action.args "approved" ||
    (action.actionType == "payment.send" && argFlag action.args "payment_approved")

/-- Why an action is not executed. -/
inductive ActionDenial where
  | contract (detail : String)
  | policy (reason : DenyReason)
  | governance
  deriving DecidableEq, Repr

def ActionDenial.message : ActionDenial → String
  | .contract _ => "action denied by contract validation"
  | .policy reason => "action denied by policy: " ++ reason.asStr
  | .governance => "action denied by governance approval gate: approval_required"

/-- The decision on one normalised action; `ok` lets it execute. -/
def admitAction (rt : WorkerRuntime) (config : WorkerConfig) (grants : GrantSet)
    (action : SkillAction) : Except ActionDenial Policy.ActionRequest :=
  match toPolicyRequest rt config action with
  | .error detail => .error (.contract detail)
  | .ok request =>
    match isActionAllowed grants request with
    | .deny reason => .error (.policy reason)
    | .allow =>
      if requiresGovernanceApproval config request.actionType &&
          !isActionGovernanceApproved action then
        .error .governance
      else .ok request

end Worker
end SecureAgnt

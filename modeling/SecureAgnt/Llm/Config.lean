/-
The LLM gateway's configuration and the enumerations it is written in.

Durations and byte counts are natural numbers.  The two fields that only feed
the spend report of a finished call (its cost rate and soft alert threshold) are
left out.
-/
import SecureAgnt.Lib.Json
import SecureAgnt.Lib.Text

namespace SecureAgnt
namespace Llm

inductive LlmMode where
  | localOnly
  | localFirst
  | remoteOnly
  deriving DecidableEq, Repr

inductive LlmRoute where
  | local
  | remote
  deriving DecidableEq, Repr

def LlmRoute.asStr : LlmRoute → String
  | .local => "local"
  | .remote => "remote"

inductive LlmRequestClass where
  | interactive
  | batch
  deriving DecidableEq, Repr

def LlmRequestClass.asStr : LlmRequestClass → String
  | .interactive => "interactive"
  | .batch => "batch"

def LlmRequestClass.parse (raw : String) : Except String LlmRequestClass :=
  match Text.toAsciiLowercase (Text.trim raw) with
  | "" | "interactive" => .ok .interactive
  | "batch" => .ok .batch
  | other => .error
    ("invalid llm request class `" ++ other ++ "` (supported: interactive, batch)")

inductive LlmLargeInputPolicy where
  | direct
  | summarizeFirst
  | chunkAndRetrieve
  | escalateRemote
  deriving DecidableEq, Repr

def LlmLargeInputPolicy.parse (raw : String) : Except String LlmLargeInputPolicy :=
  match Text.toAsciiLowercase (Text.trim raw) with
  | "" | "summarize_first" => .ok .summarizeFirst
  | "direct" => .ok .direct
  | "chunk_and_retrieve" | "chunk_retrieve" => .ok .chunkAndRetrieve
  | "escalate_remote" | "remote" => .ok .escalateRemote
  | other => .error
    ("invalid LLM_LARGE_INPUT_POLICY `" ++ other ++
      "` (supported: direct, summarize_first, chunk_and_retrieve, escalate_remote)")

inductive LlmRemoteEgressClass where
  | neverLeavesPrem
  | redactedOnly
  | cloudAllowed
  deriving DecidableEq, Repr

inductive LlmVerifierMode where
  | heuristic
  | deterministic
  | modelJudge
  | hybrid
  deriving DecidableEq, Repr

def LlmVerifierMode.asStr : LlmVerifierMode → String
  | .heuristic => "heuristic"
  | .deterministic => "deterministic"
  | .modelJudge => "model_judge"
  | .hybrid => "hybrid"

inductive LlmLocalTier where
  | workhorse
  | small
  deriving DecidableEq, Repr

def LlmLocalTier.asStr : LlmLocalTier → String
  | .workhorse => "workhorse"
  | .small => "small"

def LlmLocalTier.parse (raw keyName : String) : Except String LlmLocalTier :=
  match Text.toAsciiLowercase (Text.trim raw) with
  | "" | "workhorse" | "default" => .ok .workhorse
  | "small" => .ok .small
  | other => .error
    ("invalid " ++ keyName ++ " `" ++ other ++ "` (supported: workhorse, small)")

def parseRoutePreference (raw : String) : Except String LlmRoute :=
  match Text.toAsciiLowercase raw with
  | "local" => .ok .local
  | "remote" => .ok .remote
  | other => .error
    ("invalid llm.infer args.prefer `" ++ other ++ "` (supported: local, remote)")

structure LlmEndpointConfig where
  baseUrl : String
  model : String
  apiKey : Option String := none
  deriving DecidableEq, Repr

structure LlmConfig where
  mode : LlmMode
  timeoutMs : Nat
  maxInputBytes : Nat
  maxPromptBytes : Nat
  maxOutputBytes : Nat
  largeInputThresholdBytes : Nat
  largeInputPolicy : LlmLargeInputPolicy
  largeInputSummaryTargetBytes : Nat
  contextRetrievalTopK : Nat
  contextRetrievalMaxBytes : Nat
  contextRetrievalChunkBytes : Nat
  admissionEnabled : Bool
  admissionInteractiveMaxInflight : Nat
  admissionBatchMaxInflight : Nat
  cacheEnabled : Bool
  cacheTtlSecs : Nat
  cacheMaxEntries : Nat
  distributedEnabled : Bool
  distributedFailOpen : Bool
  distributedOwner : String
  distributedAdmissionEnabled : Bool
  distributedAdmissionLeaseMs : Nat
  distributedCacheEnabled : Bool
  distributedCacheNamespaceMaxEntries : Nat
  verifierEnabled : Bool
  verifierMode : LlmVerifierMode
  verifierMinScorePct : Nat
  verifierEscalateRemote : Bool
  verifierMinResponseChars : Nat
  verifierJudge : Option LlmEndpointConfig
  verifierJudgeTimeoutMs : Nat
  verifierJudgeFailOpen : Bool
  sloInteractiveMaxLatencyMs : Option Nat
  sloBatchMaxLatencyMs : Option Nat
  sloAlertThresholdPct : Option Nat
  sloBreachEscalateRemote : Bool
  localEndpoint : Option LlmEndpointConfig
  localModels : List String
  localSmall : Option LlmEndpointConfig
  localSmallModels : List String
  localInteractiveTier : LlmLocalTier
  localBatchTier : LlmLocalTier
  remote : Option LlmEndpointConfig
  remoteModels : List String
  remoteEgressEnabled : Bool
  remoteEgressClass : LlmRemoteEgressClass
  remoteHostAllowlist : List String
  remoteTokenBudgetPerRun : Option Nat
  remoteTokenBudgetPerTenant : Option Nat
  remoteTokenBudgetPerAgent : Option Nat
  remoteTokenBudgetPerModel : Option Nat
  remoteTokenBudgetWindowSecs : Nat
  deriving DecidableEq, Repr

/-! ## Channel defaults -/

structure LlmChannelRouteDefaults where
  prefer : Option LlmRoute := none
  requestClass : Option LlmRequestClass := none
  localTier : Option LlmLocalTier := none
  deriving DecidableEq, Repr

/-- The channel map; a later entry of a channel replaces an earlier one. -/
abbrev LlmChannelDefaultsConfig := List (String × LlmChannelRouteDefaults)

namespace LlmChannelDefaultsConfig

def get (defaults : LlmChannelDefaultsConfig) (channel : String) :
    Option LlmChannelRouteDefaults :=
  (defaults.find? fun entry => entry.1 == channel).map (·.2)

def remove (defaults : LlmChannelDefaultsConfig) (channel : String) : LlmChannelDefaultsConfig :=
  defaults.filter fun entry => !(entry.1 == channel)

def insert (defaults : LlmChannelDefaultsConfig) (channel : String)
    (value : LlmChannelRouteDefaults) : LlmChannelDefaultsConfig :=
  (channel, value) :: remove defaults channel

end LlmChannelDefaultsConfig

def normalizeChannelName (raw : String) : Option String :=
  let trimmed := Text.trim raw
  let trimmed := Text.trim ((Text.stripPrefixChar trimmed '#').getD trimmed)
  if Text.isEmpty trimmed then none else some (Text.toAsciiLowercase trimmed)

def defaultChannelDefaults : LlmChannelDefaultsConfig :=
  [("general", { requestClass := some .interactive, localTier := some .workhorse }),
   ("inbox", { requestClass := some .interactive, localTier := some .small }),
   ("monitoring", { requestClass := some .batch, localTier := some .small })]

/-- A nonempty trimmed string field, parsed where it is present. -/
def parseTextField {α : Type} (field : Option Json) (parse : String → Except String α) :
    Except String (Option α) :=
  match (field.bind Json.asStr?).bind Text.nonEmptyTrimmed with
  | none => .ok none
  | some raw => (parse raw).map some

def parseChannelDefaultsEntry (channel : String) (value : Json) :
    Except String LlmChannelRouteDefaults := do
  match value.asObject? with
  | none => .error ("LLM_CHANNEL_DEFAULTS_JSON." ++ channel ++
      " must be an object (or null to disable built-in default)")
  | some _ =>
    let prefer ← (parseTextField (value.get? "prefer") parseRoutePreference).mapError fun _ =>
      "invalid LLM channel default `prefer` for channel `" ++ channel ++ "`"
    let requestClass ← (parseTextField
        ((value.get? "request_class").or (value.get? "queue_class"))
        LlmRequestClass.parse).mapError fun _ =>
      "invalid LLM channel default `request_class` for channel `" ++ channel ++ "`"
    let localTier ← (parseTextField (value.get? "local_tier")
        (LlmLocalTier.parse · "LLM_CHANNEL_DEFAULTS_JSON.local_tier")).mapError fun _ =>
      "invalid LLM channel default `local_tier` for `" ++ channel ++ "`"
    return { prefer := prefer, requestClass := requestClass, localTier := localTier }

def applyChannelDefaults (defaults : LlmChannelDefaultsConfig) :
    List (String × Json) → Except String LlmChannelDefaultsConfig
  | [] => .ok defaults
  | (channelRaw, value) :: rest =>
    match normalizeChannelName channelRaw with
    | none => applyChannelDefaults defaults rest
    | some channel =>
      if value.isNull then applyChannelDefaults (defaults.remove channel) rest
      else
        match parseChannelDefaultsEntry channel value with
        | .error e => .error e
        | .ok entry => applyChannelDefaults (defaults.insert channel entry) rest

/-- What the process and its libraries supply: the parsed value of
`LLM_CHANNEL_DEFAULTS_JSON` (`none` when unset, an error when it is no JSON),
the JSON and URL parsers, the digest and the rendering of a temperature in a
cache key. -/
structure LlmRuntime where
  channelDefaultsJson : Option (Except String Json)
  parseJson : String → Option Json
  urlHost : String → Except String (Option String)
  sha256Hex : String → String
  formatTemperature : JsonNumber → String

def resolveChannelDefaultsFromEnv (rt : LlmRuntime) : Except String LlmChannelDefaultsConfig :=
  match rt.channelDefaultsJson with
  | none => .ok defaultChannelDefaults
  | some (.error e) => .error e
  | some (.ok payload) =>
    match payload.asObject? with
    | none => .error
        "LLM_CHANNEL_DEFAULTS_JSON must be a JSON object mapping channel->defaults"
    | some object => applyChannelDefaults defaultChannelDefaults object

end Llm
end SecureAgnt

/-
The API's half of the capability policy: a run request names capabilities, and
`resolveGrantedCapabilities` intersects them with the recipe's bundle and the
role preset and emits the grant JSON stored with the run.
-/
import SecureAgnt.Lib.Json
import SecureAgnt.Lib.Text

namespace SecureAgnt
namespace Policy

inductive RolePreset where
  | owner
  | operator
  | viewer
  deriving DecidableEq, Repr

structure RequestedCapability where
  capability : String
  scope : String
  requestedMaxPayloadBytes : Option Nat
  deriving DecidableEq, Repr

structure BundleCapability where
  capability : String
  scope : String
  maxPayloadBytes : Option Nat
  deriving DecidableEq, Repr

def maxObjectWritePayloadBytes : Nat := 500000
def maxMessageSendPayloadBytes : Nat := 20000
def maxObjectReadPayloadBytes : Nat := 128000
def maxLocalExecPayloadBytes : Nat := 4096
def maxLlmInferPayloadBytes : Nat := 32000
def maxPaymentSendPayloadBytes : Nat := 16000
def maxMemoryReadPayloadBytes : Nat := 64000
def maxMemoryWritePayloadBytes : Nat := 64000

def normalizeCapability (raw : String) : Option String :=
  match Text.toAsciiLowercase (Text.trim raw) with
  | "object.read" | "object_read" => some "object.read"
  | "object.write" | "object_write" => some "object.write"
  | "memory.read" | "memory_read" => some "memory.read"
  | "memory.write" | "memory_write" => some "memory.write"
  | "message.send" | "message_send" => some "message.send"
  | "message.receive" | "message_receive" => some "message.receive"
  | "payment.send" | "payment_send" => some "payment.send"
  | "llm.infer" | "llm_infer" => some "llm.infer"
  | "local.exec" | "local_exec" => some "local.exec"
  | "db.query" | "db_query" => some "db.query"
  | "http.request" | "http_request" => some "http.request"
  | _ => none

def isScopeAllowedForCapability (capability scope : String) : Bool :=
  if Text.contains scope ".." || Text.contains scope "\x00" then false
  else
    match capability with
    | "object.read" => Text.startsWith scope "podcasts/"
    | "object.write" => Text.startsWith scope "shownotes/"
    | "memory.read" | "memory.write" => Text.startsWith scope "memory:"
    | "message.send" | "message.receive" =>
      Text.startsWith scope "whitenoise:" || Text.startsWith scope "slack:"
    | "payment.send" => Text.startsWith scope "nwc:" || Text.startsWith scope "cashu:"
    | "llm.infer" => Text.startsWith scope "local:" || Text.startsWith scope "remote:"
    | "local.exec" => Text.startsWith scope "local.exec:"
    -- `db.query` and `http.request` are disabled in the MVP.
    | _ => false

/-- The requested limit of a capability entry: an unsigned integer under
`limits.max_payload_bytes`, and nothing for any other value there. -/
def requestedLimit (item : Json) : Option Nat :=
  (item.get? "limits").bind fun limits =>
    (limits.get? "max_payload_bytes").bind Json.asU64?

/-- One pass of the loop in `parse_requested_capabilities`.  An entry without a
string `capability` or a nonempty `scope` fails the request; an unknown
capability or a scope outside the capability's families is skipped. -/
def parseRequestedCapability (item : Json) : Except String (Option RequestedCapability) :=
  match (item.get? "capability").bind Json.asStr? with
  | none => .error "capability entry missing string `capability`"
  | some capabilityRaw =>
    match ((item.get? "scope").bind Json.asStr?).map Text.trim with
    | none => .error "capability entry missing string `scope`"
    | some scope =>
      if Text.isEmpty scope then .error "capability scope must not be empty"
      else
        match normalizeCapability capabilityRaw with
        | none => .ok none
        | some capability =>
          if !isScopeAllowedForCapability capability scope then .ok none
          else .ok (some
            { capability := capability
              scope := scope
              requestedMaxPayloadBytes := requestedLimit item })

def parseRequestedItems : List Json → Except String (List RequestedCapability)
  | [] => .ok []
  | item :: rest =>
    match parseRequestedCapability item with
    | .error e => .error e
    | .ok parsed =>
      match parseRequestedItems rest with
      | .error e => .error e
      | .ok tail => .ok (parsed.toList ++ tail)

def parseRequestedCapabilities (requested : Json) : Except String (List RequestedCapability) :=
  match requested.asArray? with
  | none => .error "requested_capabilities must be an array"
  | some items => parseRequestedItems items

def resolveMaxPayloadBytes (capability : String) (limits : Option Json) : Nat :=
  let hardMax :=
    match capability with
    | "object.read" => maxObjectReadPayloadBytes
    | "object.write" => maxObjectWritePayloadBytes
    | "memory.read" => maxMemoryReadPayloadBytes
    | "memory.write" => maxMemoryWritePayloadBytes
    | "message.send" | "message.receive" => maxMessageSendPayloadBytes
    | "payment.send" => maxPaymentSendPayloadBytes
    | "llm.infer" => maxLlmInferPayloadBytes
    | "local.exec" => maxLocalExecPayloadBytes
    | _ => 0
  match limits.bind Json.asU64? with
  | some value => if value > 0 then min value hardMax else hardMax
  | none => hardMax

/-- The limit a grant carries: the requested one where it is positive, capped by
the bundle's and by the platform's. -/
def cappedMax (capability : String) (requestedMax bundleMax : Option Nat) : Nat :=
  let hardMax := resolveMaxPayloadBytes capability none
  let bundleCap := (bundleMax.map (min · hardMax)).getD hardMax
  ((requestedMax.filter (0 < ·)).map (min · bundleCap)).getD bundleCap

def capabilityJson (capability scope : String) (requestedMax bundleMax : Option Nat) : Json :=
  .obj
    [("capability", .str capability),
     ("scope", .str scope),
     ("limits", .obj [("max_payload_bytes", .nat (cappedMax capability requestedMax bundleMax))])]

def scopeWithin (grantScope requestedScope : String) : Bool :=
  match Text.stripSuffixChar grantScope '*' with
  | some stem => Text.startsWith requestedScope stem
  | none => grantScope == requestedScope

def roleAllowsCapability (role : RolePreset) (capability scope : String) : Bool :=
  match role with
  | .owner => true
  | .operator => capability != "local.exec"
  | .viewer =>
    capability == "object.read" ||
      (capability == "llm.infer" && Text.startsWith scope "local:")

def resolveRecipeCapabilityBundle (recipeId : String) : Option (List BundleCapability) :=
  match recipeId with
  | "show_notes_v1" => some
    [⟨"object.read", "podcasts/*", some maxObjectReadPayloadBytes⟩,
     ⟨"object.write", "shownotes/*", some maxObjectWritePayloadBytes⟩,
     ⟨"message.send", "whitenoise:*", some maxMessageSendPayloadBytes⟩,
     ⟨"llm.infer", "local:*", some maxLlmInferPayloadBytes⟩,
     ⟨"local.exec", "local.exec:file.head", some maxLocalExecPayloadBytes⟩]
  | "notify_v1" => some
    [⟨"message.send", "whitenoise:*", some maxMessageSendPayloadBytes⟩,
     ⟨"message.send", "slack:*", some maxMessageSendPayloadBytes⟩,
     ⟨"llm.infer", "local:*", some maxLlmInferPayloadBytes⟩]
  | "operator_reply_v1" => some
    [⟨"message.send", "whitenoise:*", some maxMessageSendPayloadBytes⟩]
  | "operator_chat_v1" => some
    [⟨"message.send", "whitenoise:*", some maxMessageSendPayloadBytes⟩,
     ⟨"message.send", "slack:*", some maxMessageSendPayloadBytes⟩,
     ⟨"llm.infer", "local:*", some maxLlmInferPayloadBytes⟩,
     ⟨"llm.infer", "remote:*", some maxLlmInferPayloadBytes⟩]
  | "payments_v1" => some [⟨"payment.send", "nwc:*", some maxPaymentSendPayloadBytes⟩]
  | "payments_cashu_v1" => some [⟨"payment.send", "cashu:*", some maxPaymentSendPayloadBytes⟩]
  | "memory_v1" => some
    [⟨"memory.read", "memory:*", some maxMemoryReadPayloadBytes⟩,
     ⟨"memory.write", "memory:*", some maxMemoryWritePayloadBytes⟩]
  | "llm_local_v1" => some [⟨"llm.infer", "local:*", some maxLlmInferPayloadBytes⟩]
  | "llm_remote_v1" => some [⟨"llm.infer", "remote:*", some maxLlmInferPayloadBytes⟩]
  | "local_exec_v1" => some
    [⟨"local.exec", "local.exec:file.head", some maxLocalExecPayloadBytes⟩,
     ⟨"local.exec", "local.exec:file.word_count", some maxLocalExecPayloadBytes⟩]
  | _ => none

/-- The grant of one requested entry: the first bundle entry of its capability
whose scope contains the requested one caps it. -/
def grantRequested (bundle : List BundleCapability) (item : RequestedCapability) : Option Json :=
  (bundle.find? fun entry =>
      entry.capability == item.capability && scopeWithin entry.scope item.scope).map
    fun entry => capabilityJson item.capability item.scope item.requestedMaxPayloadBytes
      entry.maxPayloadBytes

def resolveGrantedCapabilities (recipeId : String) (role : RolePreset) (requested : Json) :
    Except String Json :=
  match parseRequestedCapabilities requested with
  | .error e => .error e
  | .ok requested =>
    match resolveRecipeCapabilityBundle recipeId with
    | none => .ok (.arr
        ((requested.filter fun item => roleAllowsCapability role item.capability item.scope).map
          fun item => capabilityJson item.capability item.scope item.requestedMaxPayloadBytes none))
    | some bundle =>
      let bundle := bundle.filter fun item => roleAllowsCapability role item.capability item.scope
      if requested.isEmpty then
        .ok (.arr (bundle.map fun item =>
          capabilityJson item.capability item.scope none item.maxPayloadBytes))
      else .ok (.arr (requested.filterMap (grantRequested bundle)))

end Policy
end SecureAgnt

/-
The artifacts a run leaves on disk: cleaned paths, the tenant's directory below the
artifact root, and the actions that write there.

What the file system and the database answer, the serializer and the delivery of a
message are the environment; the paths are computed as the worker computes them.
-/
import SecureAgnt.Lib.Path
import SecureAgnt.Lib.Uuid
import SecureAgnt.Payment.Request
import SecureAgnt.Worker.Action

namespace SecureAgnt
namespace Worker

open SecureAgnt.Path (Component)

/-- `PathBuf`: its text. -/
abbrev PathBuf := List Char

/-! ## Cleaned paths -/

def pushComponent (path : String) (cleaned : PathBuf) : Component → Except String PathBuf
  | .curDir => .ok cleaned
  | .normal part => .ok (Path.push cleaned part)
  | .parentDir | .rootDir => .error ("unsafe path component in " ++ path)

def sanitizeRelativePath (path : String) : Except String PathBuf :=
  if Path.isAbsolute path.toList then .error ("absolute paths are not allowed: " ++ path)
  else
    match (Path.components path.toList).foldlM (pushComponent path) [] with
    | .error e => .error e
    | .ok cleaned =>
      if cleaned.isEmpty then .error "empty artifact path is not allowed" else .ok cleaned

def tenantScopedArtifactRoot (artifactRoot : PathBuf) (tenantId : String) :
    Except String PathBuf :=
  (sanitizeRelativePath tenantId).map fun safeTenantPath =>
    Path.push (Path.push artifactRoot "tenants".toList) safeTenantPath

/-! ## Writing an artifact -/

structure NewArtifact where
  id : Uuid
  runId : String
  path : String
  contentType : String
  sizeBytes : Nat
  checksum : Option String
  storageRef : String

inductive MessageProvider where
  | whiteNoise
  | slack
  deriving DecidableEq, Repr

def MessageProvider.asStr : MessageProvider → String
  | .whiteNoise => "whitenoise"
  | .slack => "slack"

/-- How the delivery of a message went, with the signer it took. -/
structure MessageDelivery where
  nostrSignerMode : Json
  nostrPublicKey : Json
  deliveryState : String
  deliveryResult : Json
  deliveryError : Json
  deliveryContext : Json

structure ArtifactEnv where
  createDirAll : PathBuf → Bool
  write : PathBuf → String → Bool
  persistArtifactMetadata : NewArtifact → Except String Unit
  toPretty : Json → String
  deliver : MessageProvider → String → String → Except String MessageDelivery

/-- `fs::write`: a path with a NUL character never reaches the file system. -/
def ArtifactEnv.writeFile (env : ArtifactEnv) (path : PathBuf) (content : String) : Bool :=
  !path.contains '\x00' && env.write path content

/-- An artifact that was written: the file, what it holds and its row. -/
structure Written where
  file : PathBuf
  content : String
  artifact : NewArtifact

/-- What the four actions have in common, from the tenant's directory on. -/
def writeArtifact (env : ArtifactEnv) (artifactRoot : PathBuf) (run : RunLeaseRecord)
    (dirError fileError contentType : String) (relativePath : PathBuf) (content : String)
    (artifactId : Uuid) : Except String Written :=
  match tenantScopedArtifactRoot artifactRoot run.tenantId with
  | .error e => .error e
  | .ok tenantRoot =>
    let fullPath := Path.push tenantRoot relativePath
    let artifact : NewArtifact :=
      { id := artifactId
        runId := run.id
        path := String.ofList relativePath
        contentType := contentType
        sizeBytes := Text.len content
        checksum := none
        storageRef := String.ofList fullPath }
    if !env.createDirAll (Path.parent fullPath) then
      .error (dirError ++ String.ofList (Path.parent fullPath))
    else if !env.writeFile fullPath content then .error (fileError ++ String.ofList fullPath)
    else (env.persistArtifactMetadata artifact).map fun _ => ⟨fullPath, content, artifact⟩

def executeObjectWriteAction (env : ArtifactEnv) (artifactRoot : PathBuf) (run : RunLeaseRecord)
    (args : Json) (artifactId : Uuid) : Except String Written :=
  match (args.get? "path").bind Json.asStr? with
  | none => .error "object.write args.path is required"
  | some path =>
    match (args.get? "content").bind Json.asStr? with
    | none => .error "object.write args.content is required"
    | some content =>
      match sanitizeRelativePath path with
      | .error e => .error e
      | .ok safeRelPath =>
        writeArtifact env artifactRoot run "failed to create artifact directory "
          "failed writing artifact " "text/markdown" safeRelPath content artifactId

/-! ## Messages -/

structure ParsedMessageDestination where
  provider : MessageProvider
  target : String

def ParsedMessageDestination.parse (actionType raw : String) :
    Except String ParsedMessageDestination :=
  match Text.splitOnce raw ':' with
  | none => .error (actionType ++ " destination must be provider-scoped")
  | some (providerRaw, targetRaw) =>
    let target := Text.trim targetRaw
    let ofProvider (provider : MessageProvider) : Except String ParsedMessageDestination :=
      if Text.isEmpty target then
        .error (actionType ++ " destination target must not be empty: " ++ raw)
      else .ok ⟨provider, target⟩
    match Text.toAsciiLowercase (Text.trim providerRaw) with
    | "whitenoise" => ofProvider .whiteNoise
    | "slack" => ofProvider .slack
    | other =>
      .error (actionType ++ " provider `" ++ other ++
        "` is unsupported (expected whitenoise or slack)")

/-- The fields of the worker's configuration that artifacts read. -/
structure ArtifactConfig where
  artifactRoot : PathBuf
  messageWhitenoiseDestinationAllowlist : List String := []
  messageSlackDestinationAllowlist : List String := []

def ArtifactConfig.allowlist (config : ArtifactConfig) : MessageProvider → List String
  | .whiteNoise => config.messageWhitenoiseDestinationAllowlist
  | .slack => config.messageSlackDestinationAllowlist

def enforceMessageDestinationAllowlist (config : ArtifactConfig)
    (destination : ParsedMessageDestination) (actionType : String) : Except String Unit :=
  let allowlist := config.allowlist destination.provider
  let target := Text.trim destination.target
  if allowlist.isEmpty || allowlist.any fun candidate => Text.trim candidate == target then .ok ()
  else
    .error (actionType ++ " target `" ++ target ++ "` is not allowlisted for provider `" ++
      destination.provider.asStr ++ "`")

def messageContent? (args : Json) : Option String :=
  ((args.get? "text").bind Json.asStr?).or ((args.get? "content").bind Json.asStr?)

def jsonFileName (id : Uuid) : PathBuf := id.text.toList ++ ".json".toList

def executeMessageReceiveAction (env : ArtifactEnv) (config : ArtifactConfig)
    (run : RunLeaseRecord) (args : Json) (fileId artifactId : Uuid) : Except String Written :=
  match (args.get? "source").bind Json.asStr?, messageContent? args with
  | none, _ => .error "message.receive args.source is required"
  | some _, none => .error "message.receive args.text (or args.content) is required"
  | some source, some content =>
    match ParsedMessageDestination.parse "message.receive" source with
    | .error e => .error e
    | .ok parsedSource =>
      match enforceMessageDestinationAllowlist config parsedSource "message.receive" with
      | .error e => .error e
      | .ok () =>
        let receiveMessage : Json := .obj
          [("direction", .str "inbound"), ("provider", .str parsedSource.provider.asStr),
            ("source", .str source), ("target", .str parsedSource.target),
            ("text", .str content)]
        let relativePath := Path.push (Path.push (Path.push "messages".toList
          parsedSource.provider.asStr.toList) "received".toList) (jsonFileName fileId)
        writeArtifact env config.artifactRoot run "failed to create message receive dir "
          "failed writing message receive artifact " "application/json" relativePath
          (env.toPretty receiveMessage) artifactId

/-- `str::replace`, for a pattern that is not empty; the fuel is the length of the text. -/
def replaceText (pattern replacement : List Char) : Nat → List Char → List Char
  | 0, text => text
  | _ + 1, [] => []
  | fuel + 1, c :: rest =>
    if pattern.isPrefixOf (c :: rest) then
      replacement ++ replaceText pattern replacement fuel ((c :: rest).drop pattern.length)
    else c :: replaceText pattern replacement fuel rest

def llmResponsePlaceholder : String := "\x7b\x7bllm_response\x7d\x7d"

def resolveMessageContent (lastLlmResponseText : Option String) (content : String) :
    Except String String :=
  if Text.contains content llmResponsePlaceholder then
    match lastLlmResponseText with
    | none => .error "message.send content placeholder requires prior llm.infer result"
    | some response =>
      .ok (String.ofList (replaceText llmResponsePlaceholder.toList response.toList
        content.toList.length content.toList))
  else .ok content

def executeMessageSendAction (env : ArtifactEnv) (config : ArtifactConfig)
    (run : RunLeaseRecord) (lastLlmResponseText : Option String) (args : Json)
    (fileId artifactId : Uuid) : Except String Written :=
  match (args.get? "destination").bind Json.asStr?, messageContent? args with
  | none, _ => .error "message.send args.destination is required"
  | some _, none => .error "message.send args.text (or args.content) is required"
  | some destination, some rawContent =>
    match resolveMessageContent lastLlmResponseText rawContent with
    | .error e => .error e
    | .ok content =>
      match ParsedMessageDestination.parse "message.send" destination with
      | .error e => .error e
      | .ok parsedDestination =>
        match enforceMessageDestinationAllowlist config parsedDestination "message.send" with
        | .error e => .error e
        | .ok () =>
          match env.deliver parsedDestination.provider parsedDestination.target content with
          | .error e => .error e
          | .ok delivery =>
            let outboxMessage : Json := .obj
              [("provider", .str parsedDestination.provider.asStr),
                ("destination", .str destination), ("target", .str parsedDestination.target),
                ("text", .str content), ("nostr_signer_mode", delivery.nostrSignerMode),
                ("nostr_public_key", delivery.nostrPublicKey),
                ("delivery_state", .str delivery.deliveryState),
                ("delivery_result", delivery.deliveryResult),
                ("delivery_error", delivery.deliveryError),
                ("delivery_context", delivery.deliveryContext)]
            let relativePath := Path.push (Path.push "messages".toList
              parsedDestination.provider.asStr.toList) (jsonFileName fileId)
            writeArtifact env config.artifactRoot run "failed to create message outbox dir "
              "failed writing message outbox " "application/json" relativePath
              (env.toPretty outboxMessage) artifactId

/-- The end of `execute_payment_send_action`, from the outbox record on. -/
def writePaymentOutbox (env : ArtifactEnv) (config : ArtifactConfig) (run : RunLeaseRecord)
    (provider : Payment.PaymentProvider) (outboxRecord : Json) (fileId artifactId : Uuid) :
    Except String Written :=
  let relativePath := Path.push (Path.push "payments".toList provider.asStr.toList)
    (jsonFileName fileId)
  writeArtifact env config.artifactRoot run "failed to create payment outbox dir "
    "failed writing payment outbox " "application/json" relativePath (env.toPretty outboxRecord)
    artifactId

/-- The artifacts the actions of a run can write. -/
inductive WritesArtifact (env : ArtifactEnv) (config : ArtifactConfig) (run : RunLeaseRecord)
    (written : Written) : Prop where
  | objectWrite (args : Json) (artifactId : Uuid)
      (h : executeObjectWriteAction env config.artifactRoot run args artifactId = .ok written)
  | messageSend (lastLlmResponseText : Option String) (args : Json) (fileId artifactId : Uuid)
      (h : executeMessageSendAction env config run lastLlmResponseText args fileId artifactId =
        .ok written)
  | messageReceive (args : Json) (fileId artifactId : Uuid)
      (h : executeMessageReceiveAction env config run args fileId artifactId = .ok written)
  | paymentSend (provider : Payment.PaymentProvider) (outboxRecord : Json)
      (fileId artifactId : Uuid)
      (h : writePaymentOutbox env config run provider outboxRecord fileId artifactId =
        .ok written)

end Worker
end SecureAgnt

/-
Publishing a note to the configured relays, posting to the Slack webhook, and the
`message.send` action around them.

A note counts as published when some relay acknowledges it, a Slack message as
delivered when a post succeeds; either way the outbox record says how it went.
-/
import SecureAgnt.Message.RemoteSigner

namespace SecureAgnt
namespace Message

open Payment (Delivery)
open Worker (MessageProvider MessageDelivery ParsedMessageDestination ArtifactConfig ArtifactEnv
  RunLeaseRecord Written)

/-! ## Relays -/

structure RelayPublishResult where
  relay : String
  ok : Bool
  message : String
  deriving DecidableEq, Repr

def RelayPublishResult.toJson (result : RelayPublishResult) : Json :=
  .obj [("relay", .str result.relay), ("ok", .bool result.ok), ("message", .str result.message)]

structure NostrPublishResult where
  eventId : String
  acceptedRelays : Nat
  relayResults : List RelayPublishResult
  deriving DecidableEq, Repr

def NostrPublishResult.toJson (result : NostrPublishResult) : Json :=
  .obj [("event_id", .str result.eventId), ("accepted_relays", .nat result.acceptedRelays),
    ("relay_results", .arr (result.relayResults.map RelayPublishResult.toJson))]

/-- The text of an acknowledgement, read for the event it is for. -/
def parseAckText (rt : NostrRuntime) (text eventId : String) : Except String (Bool × String) :=
  match rt.parseJson text with
  | .error e => .error ("invalid ACK JSON: " ++ e)
  | .ok (.arr (label :: ackEventId :: status :: message :: _)) =>
    if label.asStr? ≠ some "OK" then .error "ACK message is not OK type"
    else
      match ackEventId.asStr? with
      | none => .error "ACK event id is not string"
      | some ackEventId =>
        if ackEventId ≠ eventId then .error "ACK event id mismatch"
        else
          match status.asBool? with
          | none => .error "ACK success flag is not bool"
          | some ok => .ok (ok, message.asStr?.getD "")
  | .ok (.arr _) => .error "ACK message missing expected fields"
  | .ok _ => .error "ACK message must be array"

def parseAckMessage (rt : NostrRuntime) (relay eventId : String) :
    Delivery → Except String (Bool × String)
  | .expired => .error ("timeout waiting ACK from relay " ++ relay ++ ": deadline has elapsed")
  | .closed => .error ("relay " ++ relay ++ " closed connection without ACK")
  | .frameError e => .error ("relay " ++ relay ++ " ACK stream error: " ++ e)
  | .otherFrame => .error "unexpected non-text ACK frame"
  | .text text => parseAckText rt text eventId

/-- What a relay made of the event. -/
def PublishAttempt.outcome (rt : NostrRuntime) (relay eventId : String)
    (attempt : PublishAttempt) : Except String (Bool × String) := do
  attempt.connected.check ("timeout connecting relay " ++ relay)
    ("failed connecting relay " ++ relay)
  attempt.sent.check ("timeout sending event to relay " ++ relay)
    ("failed sending event to relay " ++ relay)
  parseAckMessage rt relay eventId attempt.ack

def PublishAttempt.result (rt : NostrRuntime) (relay eventId : String)
    (attempt : PublishAttempt) : RelayPublishResult :=
  match attempt.outcome rt relay eventId with
  | .ok (ok, message) => ⟨relay, ok, message⟩
  | .error e => ⟨relay, false, "relay publish attempt failed for " ++ relay ++ ": " ++ e⟩

def publishToRelays (rt : NostrRuntime) (event : SignedEvent) (accepted : Nat)
    (results : List RelayPublishResult) :
    List String → MessageProg (Nat × List RelayPublishResult)
  | [] => return (accepted, results)
  | relay :: rest => do
    let attempt ← Call.publish relay event
    let result := attempt.result rt relay event.id
    publishToRelays rt event (if result.ok then accepted + 1 else accepted) (results ++ [result])
      rest

def publishSignedEvent (rt : NostrRuntime) (event : SignedEvent) (relays : List String) :
    MessageProg NostrPublishResult :=
  if relays.isEmpty then Prog.fail "Nostr relay list is empty"
  else do
    let (accepted, results) ← publishToRelays rt event 0 [] relays
    if accepted = 0 then
      Prog.fail ("Nostr publish failed on all relays for event " ++ event.id)
    else return ⟨event.id, accepted, results⟩

def parseRecipient (rt : NostrRuntime) (recipient : String) : Except String PublicKey :=
  withContext "message.send destination target must be npub/hex for whitenoise"
    (rt.parsePublicKey recipient)

def publishTextNote (rt : NostrRuntime) (secretKey : SecretKey) (recipient text : String)
    (relays : List String) : MessageProg NostrPublishResult := do
  let recipientPubkey ← Prog.ofExcept (parseRecipient rt recipient)
  if relays.isEmpty then Prog.fail "Nostr relay list is empty"
  else do
    let now ← Call.now
    let signed ← (signWithKeys rt secretKey
      (rt.textNote (rt.publicKey secretKey) recipientPubkey text now)).attempt
    let event ← Prog.ofExcept (withContext "failed to build/sign Nostr text note event" signed)
    publishSignedEvent rt event relays

/-! ## White Noise -/

/-- The configuration of both providers. -/
structure SendConfig where
  nostrSigner : NostrSignerConfig
  nostrRelays : List String
  slackWebhookUrl : Option String
  slackMaxAttempts : UInt32
  /-- `slack_retry_backoff`, in milliseconds. -/
  slackRetryBackoff : UInt64

/-- A note published, with the context of a remote signature. -/
abbrev Published := NostrPublishResult × Option Json

/-- `attempt_whitenoise_publish`, its error as the failure. -/
def attemptWhitenoisePublish (rt : NostrRuntime) (config : SendConfig)
    (signerIdentity : NostrSignerIdentity) (recipient content : String) :
    MessageProg Published := do
  let recipientPubkey ← Prog.ofExcept (parseRecipient rt recipient)
  match config.nostrSigner.mode with
  | .localKey => do
    let localSecretKey ← resolveLocalSecretKeyForPublish rt config.nostrSigner
    let result ← publishTextNote rt localSecretKey recipient content config.nostrRelays
    return (result, none)
  | .nip46Signer => do
    let signerPubkey ← Prog.ofExcept (rt.parsePublicKey signerIdentity.publicKey)
    let now ← Call.now
    let unsigned := rt.textNote signerPubkey recipientPubkey content now
    match config.nostrSigner.nip46BunkerUri with
    | none => Prog.fail "NOSTR_NIP46_BUNKER_URI is required for NIP-46 publish"
    | some bunkerUri => do
      let outcome ← signEventWithBunker rt unsigned bunkerUri
        config.nostrSigner.nip46ClientSecretKey
      let result ← publishSignedEvent rt outcome.signedEvent config.nostrRelays
      return (result, some (.obj [("nip46_signer_relay", .str outcome.signerRelay),
        ("nip46_client_public_key", .str outcome.appPublicKey)]))

/-- How a delivery went, before the signer is added to it. -/
structure DeliveryReport where
  state : String
  result : Json
  error : Json
  context : Json

/-- `Option::map(..)` into a value of `json!`. -/
def orNull {α : Type} (toJson : α → Json) : Option α → Json
  | none => .null
  | some a => toJson a

def deliverWhitenoise (rt : NostrRuntime) (config : SendConfig)
    (identity : NostrSignerIdentity) (target content : String) : MessageProg DeliveryReport :=
  if config.nostrRelays.isEmpty then
    return ⟨"queued_local_outbox", .null, .null, .obj [("transport", .str "outbox_only")]⟩
  else do
    match ← (attemptWhitenoisePublish rt config identity target content).attempt with
    | .ok (result, context) =>
      return ⟨"published_nostr", result.toJson, .null, orNull id context⟩
    | .error e => return ⟨"queued_local_outbox", .null, .str e, .null⟩

/-! ## Slack -/

structure SlackSendResult where
  channel : String
  statusCode : Nat
  response : String
  deriving DecidableEq, Repr

/-- `StatusCode::is_success`. -/
def isSuccess (status : Nat) : Bool := 200 ≤ status && status < 300

def WebhookAttempt.result (channel : String) (attempt : WebhookAttempt) :
    Except String SlackSendResult := do
  withContext "failed building Slack webhook HTTP client" attempt.client
  let status ← withContext "failed sending Slack webhook request" attempt.sent
  let body ← withContext "failed reading Slack webhook response body" attempt.body
  if isSuccess status then return ⟨channel, status, body⟩
  else .error ("Slack webhook returned HTTP " ++ toString status ++ " body=" ++ body)

def slackBody (channel text : String) : Json :=
  .obj [("text", .str text), ("channel", .str channel)]

/-- The pause after a failed attempt: doubled each time up to six times. -/
def slackBackoff (base : UInt64) (attempt : Nat) : Nat :=
  min (base.toNat * 2 ^ min (attempt - 1) 6) (2 ^ 64 - 1)

/-- What `attempt_slack_send` keeps through its attempts. -/
structure SlackSend where
  webhookUrl : String
  channel : String
  content : String
  backoff : UInt64
  maxAttempts : Nat

def SlackSend.context (slack : SlackSend) (status : String) (attempt : Nat)
    (errors : List (String × Json)) : Json :=
  .obj ([("transport", .str "slack_webhook"), ("status", .str status), ("attempts", .nat attempt),
    ("max_attempts", .nat slack.maxAttempts), ("retry_backoff_ms", .nat slack.backoff.toNat)] ++
      errors)

def SlackSend.delivered (slack : SlackSend) (attempt : Nat) (result : SlackSendResult) :
    DeliveryReport where
  state := "delivered_slack"
  result := .obj [("channel", .str result.channel), ("status_code", .nat result.statusCode),
    ("response", .str result.response), ("attempts", .nat attempt)]
  error := .null
  context := slack.context "delivered" attempt []

def SlackSend.deadLettered (slack : SlackSend) (attempt : Nat) (errors : List String)
    (error : String) : DeliveryReport where
  state := "dead_lettered_local_outbox"
  result := .null
  error := .str error
  context := slack.context "dead_lettered" attempt [("errors", .arr (errors.map .str))]

def SlackSend.attempt (slack : SlackSend) (attempt : Nat)
    (failed : String → MessageProg DeliveryReport) : MessageProg DeliveryReport := do
  let answer ← Call.postWebhook slack.webhookUrl (slackBody slack.channel slack.content)
  match answer.result slack.channel with
  | .ok result => return slack.delivered attempt result
  | .error e => failed e

/-- The loop, from an attempt on; the last argument counts the attempts after it. -/
def SlackSend.attempts (slack : SlackSend) (errors : List String) (attempt : Nat) :
    Nat → MessageProg DeliveryReport
  | 0 => slack.attempt attempt fun e => return slack.deadLettered attempt (errors ++ [e]) e
  | left + 1 => slack.attempt attempt fun e => do
    Call.sleep (slackBackoff slack.backoff attempt)
    slack.attempts (errors ++ [e]) (attempt + 1) left

def SendConfig.slackSend (config : SendConfig) (webhookUrl channel content : String) :
    SlackSend where
  webhookUrl := webhookUrl
  channel := channel
  content := content
  backoff := config.slackRetryBackoff
  maxAttempts := max config.slackMaxAttempts.toNat 1

def attemptSlackSend (config : SendConfig) (channel content : String) :
    MessageProg DeliveryReport :=
  match config.slackWebhookUrl with
  | none =>
    return ⟨"queued_local_outbox", .null, .null, .obj [("transport", .str "outbox_only"),
      ("reason", .str "SLACK_WEBHOOK_URL is not configured"),
      ("status", .str "queued_without_transport")]⟩
  | some webhookUrl =>
    let slack := config.slackSend webhookUrl channel content
    slack.attempts [] 1 (slack.maxAttempts - 1)

/-! ## The action -/

/-- The report with the signer's identity, where there is one. -/
def DeliveryReport.delivery (report : DeliveryReport) (identity : Option NostrSignerIdentity) :
    MessageDelivery where
  nostrSignerMode := orNull (fun identity => .str identity.mode.asStr) identity
  nostrPublicKey := orNull (fun identity => .str identity.publicKey) identity
  deliveryState := report.state
  deliveryResult := report.result
  deliveryError := report.error
  deliveryContext := report.context

def deliverMessage (rt : NostrRuntime) (config : SendConfig) (target content : String) :
    MessageProvider → MessageProg MessageDelivery
  | .whiteNoise => do
    match ← config.nostrSigner.resolveIdentity rt with
    | none =>
      Prog.fail "message.send to White Noise requires a configured Nostr signer identity"
    | some identity => do
      let report ← deliverWhitenoise rt config identity target content
      return report.delivery (some identity)
  | .slack => do
    let report ← attemptSlackSend config target content
    return report.delivery none

/-- Where the message goes and what it says, once the destination is allowed. -/
def messageToSend (config : ArtifactConfig) (lastLlmResponseText : Option String) (args : Json) :
    Except String (ParsedMessageDestination × String) :=
  match (args.get? "destination").bind Json.asStr?, Worker.messageContent? args with
  | none, _ => .error "message.send args.destination is required"
  | some _, none => .error "message.send args.text (or args.content) is required"
  | some destination, some rawContent => do
    let content ← Worker.resolveMessageContent lastLlmResponseText rawContent
    let parsedDestination ← ParsedMessageDestination.parse "message.send" destination
    Worker.enforceMessageDestinationAllowlist config parsedDestination "message.send"
    return (parsedDestination, content)

/-- `execute_message_send_action`: the delivery, and the outbox record of it. -/
def executeMessageSend (rt : NostrRuntime) (sendConfig : SendConfig) (env : ArtifactEnv)
    (config : ArtifactConfig) (run : RunLeaseRecord) (lastLlmResponseText : Option String)
    (args : Json) (fileId artifactId : Uuid) : MessageProg Written := do
  let (destination, content) ← Prog.ofExcept (messageToSend config lastLlmResponseText args)
  let delivery ← deliverMessage rt sendConfig destination.target content destination.provider
  Prog.ofExcept (Worker.executeMessageSendAction { env with deliver := fun _ _ _ => .ok delivery }
    config run lastLlmResponseText args fileId artifactId)

end Message
end SecureAgnt

/-
Signing over the relays of a NIP-46 bunker (`nip46_signer.rs`).

For each relay of the bunker's URI the app connects, asks for the session to be
acknowledged and then for the signature; the first relay over which it gets one
ends the search.
-/
import SecureAgnt.Message.Signer

namespace SecureAgnt
namespace Message

open Payment (Delivery RelayMessage)

structure Nip46SignOutcome where
  signedEvent : SignedEvent
  signerRelay : String
  appPublicKey : String
  deriving DecidableEq, Repr

/-- Whom a request goes to, over which relay and in whose name. -/
structure SignerSession where
  relay : String
  remoteSigner : PublicKey
  appKey : SecretKey

/-- The loop that waits for the response to a request. -/
def awaitResponse (rt : NostrRuntime) (session : SignerSession) (method : ConnectMethod)
    (requestId : String) (request : Payment.Event) : List Delivery → Except String ConnectResponse
  | [] => .error ("timeout waiting for NIP-46 relay frame from " ++ session.relay ++
      ": deadline has elapsed")
  | .expired :: _ => .error ("timeout waiting for NIP-46 response from relay " ++ session.relay)
  | .closed :: _ =>
    .error ("relay " ++ session.relay ++ " closed connection during NIP-46 request")
  | .frameError e :: _ => .error ("NIP-46 relay frame error from " ++ session.relay ++ ": " ++ e)
  | .otherFrame :: rest => awaitResponse rt session method requestId request rest
  | .text text :: rest =>
    match rt.parseRelayMessage text with
    | some (.ok eventId status message) =>
      if eventId = request.id ∧ status = false then
        .error ("relay " ++ session.relay ++ " rejected NIP-46 request event: " ++ message)
      else awaitResponse rt session method requestId request rest
    | some (.event event) =>
      if event.kind ≠ nostrConnect ∨ event.pubkey ≠ session.remoteSigner then
        awaitResponse rt session method requestId request rest
      else
        match rt.decrypt session.appKey session.remoteSigner event.content with
        | .error e => .error ("failed decrypting NIP-46 response content: " ++ e)
        | .ok plaintext =>
          match rt.parseConnectMessage plaintext with
          | .error e => .error ("failed decoding NIP-46 response message: " ++ e)
          | .ok message =>
            if message.id ≠ requestId then
              awaitResponse rt session method requestId request rest
            else
              match rt.toResponse message method with
              | .error e =>
                .error ("invalid NIP-46 response for method " ++ method.text ++ ": " ++ e)
              | .ok response =>
                match response.error with
                | some error => .error ("NIP-46 signer returned error: " ++ error)
                | none => .ok response
    | some .other | none => awaitResponse rt session method requestId request rest

/-- What comes of a request, from composing its event on. -/
def RequestExchange.response (rt : NostrRuntime) (session : SignerSession)
    (method : ConnectMethod) (exchange : RequestExchange) : Except String ConnectResponse := do
  withContext "failed composing NIP-46 request event" exchange.composed
  let requestEvent ← withContext "failed signing NIP-46 request event" exchange.signed
  exchange.published.check "timeout sending NIP-46 request EVENT"
    "failed sending NIP-46 request EVENT"
  awaitResponse rt session method exchange.requestId requestEvent exchange.deliveries

def sendRequestAndWaitResponse (rt : NostrRuntime) (session : SignerSession)
    (request : ConnectRequest) : MessageProg ConnectResponse := do
  let exchange ← Call.request session.relay request
  Prog.ofExcept (exchange.response rt session request.method)

def ResponseResult.toAck (rt : NostrRuntime) : ResponseResult → Except String Unit
  | .ack => .ok ()
  | _ => .error rt.unexpectedResult

def ResponseResult.toSignEvent (rt : NostrRuntime) : ResponseResult → Except String SignedEvent
  | .signEvent event => .ok event
  | _ => .error rt.unexpectedResult

def connectAcknowledged (rt : NostrRuntime) (response : ConnectResponse) : Except String Unit :=
  match response.result with
  | none => .error "missing NIP-46 connect result"
  | some result =>
    withContext "NIP-46 connect request was not acknowledged" (result.toAck rt)

def signatureIn (rt : NostrRuntime) (response : ConnectResponse) : Except String SignedEvent :=
  match response.result with
  | none => .error "missing NIP-46 sign_event result"
  | some result => withContext "invalid NIP-46 sign_event response payload" (result.toSignEvent rt)

def signEventWithRelay (rt : NostrRuntime) (unsigned : UnsignedEvent) (session : SignerSession)
    (bunkerSecret : Option String) : MessageProg SignedEvent := do
  let opened ← Call.openSigner session.relay
  Prog.ofExcept (opened.check ("timeout connecting NIP-46 relay " ++ session.relay)
    ("failed connecting NIP-46 relay " ++ session.relay))
  let subscribed ← Call.subscribe session.relay session.remoteSigner (rt.publicKey session.appKey)
  Prog.ofExcept (subscribed.check "timeout sending NIP-46 REQ" "failed sending NIP-46 REQ")
  -- The request names the app's own key where the signer's is expected.
  let connected ← sendRequestAndWaitResponse rt session
    (.connect (rt.publicKey session.appKey) bunkerSecret)
  Prog.ofExcept (connectAcknowledged rt connected)
  let response ← sendRequestAndWaitResponse rt session (.signEvent unsigned)
  let signedEvent ← Prog.ofExcept (signatureIn rt response)
  Call.closeSigner session.relay
  return signedEvent

/-- The relays of the bunker in turn. -/
def signOverRelays (rt : NostrRuntime) (unsigned : UnsignedEvent) (remoteSigner : PublicKey)
    (bunkerSecret : Option String) (appKey : SecretKey) (errors : List String) :
    List String → MessageProg Nip46SignOutcome
  | [] => Prog.fail ("all NIP-46 relays failed for signing: " ++ String.intercalate " | " errors)
  | relay :: rest => do
    match ← (signEventWithRelay rt unsigned ⟨relay, remoteSigner, appKey⟩ bunkerSecret).attempt with
    | .ok signedEvent => return ⟨signedEvent, relay, rt.publicKey appKey⟩
    | .error e =>
      signOverRelays rt unsigned remoteSigner bunkerSecret appKey (errors ++ [relay ++ ": " ++ e])
        rest

/-- The key of the app: configured, or made for this signature. -/
def resolveAppKey (rt : NostrRuntime) (appSecretKey : Option String) : MessageProg SecretKey :=
  match appSecretKey.bind Text.nonEmptyTrimmed with
  | some secret =>
    Prog.ofExcept
      (withContext "failed to parse NOSTR_NIP46_CLIENT_SECRET_KEY" (rt.parseSecretKey secret))
  | none => Call.generateKey

def signEventWithBunker (rt : NostrRuntime) (unsigned : UnsignedEvent) (bunkerUri : String)
    (appSecretKey : Option String) : MessageProg Nip46SignOutcome :=
  match withContext "failed to parse NIP-46 bunker URI" (rt.parseConnectUri bunkerUri) with
  | .error e => Prog.fail e
  | .ok .client =>
    Prog.fail "NOSTR_NIP46_BUNKER_URI must use bunker:// scheme for remote signer mode"
  | .ok (.bunker remoteSigner relays bunkerSecret) =>
    if relays.isEmpty then Prog.fail "NIP-46 bunker URI does not include relay endpoints"
    else do
      let appKey ← resolveAppKey rt appSecretKey
      signOverRelays rt unsigned remoteSigner bunkerSecret appKey [] relays

end Message
end SecureAgnt

/-
What sending a message asks of its environment.

The Nostr library is a parameter: reading keys, URIs and relay messages, composing
a note, decrypting.  Every call that reaches the outside is an operation with the
answer it gets, so a run of the sender is its calls in order.
-/
import SecureAgnt.Lib.Http
import SecureAgnt.Lib.Traces
import SecureAgnt.Payment.Wallet
import SecureAgnt.Worker.Artifacts

namespace SecureAgnt
namespace Message

open Payment (Delivery RelayMessage)

/-! ## Events -/

/-- A public key, in hex. -/
abbrev PublicKey := String

abbrev SecretKey := String

structure UnsignedEvent where
  pubkey : PublicKey
  createdAt : Nat
  kind : Nat
  tags : List (List String)
  content : String
  deriving DecidableEq, Repr

structure SignedEvent extends UnsignedEvent where
  id : String
  sig : String
  deriving DecidableEq, Repr

/-! ## NIP-46 messages -/

/-- `Kind::NostrConnect`. -/
def nostrConnect : Nat := 24133

inductive ConnectMethod where
  | connect
  | signEvent
  deriving DecidableEq, Repr

def ConnectMethod.text : ConnectMethod → String
  | .connect => "connect"
  | .signEvent => "sign_event"

inductive ConnectRequest where
  | connect (remoteSignerPublicKey : PublicKey) (secret : Option String)
  | signEvent (unsigned : UnsignedEvent)
  deriving DecidableEq, Repr

def ConnectRequest.method : ConnectRequest → ConnectMethod
  | .connect _ _ => .connect
  | .signEvent _ => .signEvent

inductive ConnectMessage where
  | request (id : String) (method : String) (params : List String)
  | response (id : String) (result error : Option String)
  deriving DecidableEq, Repr

def ConnectMessage.id : ConnectMessage → String
  | .request id _ _ => id
  | .response id _ _ => id

inductive ResponseResult where
  | ack
  | signEvent (event : SignedEvent)
  | other (text : String)
  deriving DecidableEq, Repr

structure ConnectResponse where
  result : Option ResponseResult
  error : Option String
  deriving DecidableEq, Repr

/-- `NostrConnectURI`, its relays as the text of their URLs. -/
inductive ConnectUri where
  | bunker (remoteSignerPublicKey : PublicKey) (relays : List String) (secret : Option String)
  | client
  deriving DecidableEq, Repr

/-- What the sender takes from its libraries. -/
structure NostrRuntime where
  parsePublicKey : String → Except String PublicKey
  parseSecretKey : String → Except String SecretKey
  publicKey : SecretKey → PublicKey
  toBech32 : PublicKey → Except String String
  parseConnectUri : String → Except String ConnectUri
  /-- `EventBuilder::text_note` with a tag for the recipient, built at a time. -/
  textNote : PublicKey → PublicKey → String → Nat → UnsignedEvent
  eventId : UnsignedEvent → String
  parseRelayMessage : String → Option RelayMessage
  decrypt : SecretKey → PublicKey → String → Except String String
  parseConnectMessage : String → Except String ConnectMessage
  toResponse : ConnectMessage → ConnectMethod → Except String ConnectResponse
  unexpectedResult : String
  parseJson : String → Except String Json

/-! ## Calls -/

/-- A step under `timeout`. -/
inductive Timed where
  | done
  | failed (error : String)
  | elapsed
  deriving DecidableEq, Repr

/-- `error` with a context before it, as `{:#}` shows them. -/
def withContext {α : Type} (context : String) (x : Except String α) : Except String α :=
  x.mapError fun e => context ++ ": " ++ e

def Timed.check (timeoutContext failContext : String) : Timed → Except String Unit
  | .done => .ok ()
  | .elapsed => .error (timeoutContext ++ ": deadline has elapsed")
  | .failed e => .error (failContext ++ ": " ++ e)

theorem withContext_eq_ok {α : Type} {context : String} {x : Except String α} {a : α} :
    withContext context x = .ok a ↔ x = .ok a := by
  cases x <;> simp [withContext, Except.mapError]

theorem Timed.check_eq_ok {timeoutContext failContext : String} {step : Timed} :
    step.check timeoutContext failContext = .ok () ↔ step = .done := by
  cases step <;> simp [Timed.check]

theorem bind_eq_ok {α β : Type} {x : Except String α} {f : α → Except String β} {b : β} :
    (x >>= f) = .ok b ↔ ∃ a, x = .ok a ∧ f a = .ok b := by
  cases x <;> simp [bind, Except.bind]

theorem bind_unit_eq_ok {β : Type} {x : Except String Unit} {f : Unit → Except String β} {b : β} :
    (x >>= f) = .ok b ↔ x = .ok () ∧ f () = .ok b := by
  cases x <;> simp [bind, Except.bind]

/-- A request to the signer: the identifier drawn for it, its event, and the frames
that come back. -/
structure RequestExchange where
  requestId : String
  composed : Except String Unit
  signed : Except String Payment.Event
  published : Timed
  deliveries : List Delivery

/-- An event handed to a relay, and the frame that comes back first. -/
structure PublishAttempt where
  connected : Timed
  sent : Timed
  ack : Delivery

/-- A post by a client that follows redirects: where they led, and the last answer. -/
structure WebhookAttempt where
  client : Except String Unit
  redirects : Http.Hops
  sent : Except String Nat
  body : Except String String

inductive MessageOp where
  | now
  | readFile (path : String)
  | fileMode (path : String)
  | generateKey
  /-- The signature of an event. -/
  | sign (key : SecretKey) (unsigned : UnsignedEvent)
  | openSigner (relay : String)
  | subscribe (relay : String) (author recipient : PublicKey)
  | request (relay : String) (request : ConnectRequest)
  | closeSigner (relay : String)
  /-- `["EVENT", event]` on a connection of its own. -/
  | publish (relay : String) (event : SignedEvent)
  | postWebhook (url : String) (body : Json)
  | sleep (milliseconds : Nat)

def MessageOp.Ans : MessageOp → Type
  | .now => Nat
  | .readFile _ => Except String String
  | .fileMode _ => Except String Nat
  | .generateKey => SecretKey
  | .sign _ _ => Except String String
  | .openSigner _ => Timed
  | .subscribe _ _ _ => Timed
  | .request _ _ => RequestExchange
  | .closeSigner _ => Unit
  | .publish _ _ => PublishAttempt
  | .postWebhook _ _ => WebhookAttempt
  | .sleep _ => Unit

abbrev MessageProg := Prog MessageOp MessageOp.Ans String

/-- A call with its answer. -/
abbrev MessageCall := (op : MessageOp) × op.Ans

namespace Call

abbrev now : MessageProg Nat := Prog.perform MessageOp.now

abbrev readFile (path : String) : MessageProg (Except String String) :=
  Prog.perform (MessageOp.readFile path)

abbrev fileMode (path : String) : MessageProg (Except String Nat) :=
  Prog.perform (MessageOp.fileMode path)

abbrev generateKey : MessageProg SecretKey := Prog.perform MessageOp.generateKey

abbrev sign (key : SecretKey) (unsigned : UnsignedEvent) : MessageProg (Except String String) :=
  Prog.perform (MessageOp.sign key unsigned)

abbrev openSigner (relay : String) : MessageProg Timed := Prog.perform (MessageOp.openSigner relay)

abbrev subscribe (relay : String) (author recipient : PublicKey) : MessageProg Timed :=
  Prog.perform (MessageOp.subscribe relay author recipient)

abbrev request (relay : String) (request : ConnectRequest) : MessageProg RequestExchange :=
  Prog.perform (MessageOp.request relay request)

abbrev closeSigner (relay : String) : MessageProg Unit := Prog.perform (MessageOp.closeSigner relay)

abbrev publish (relay : String) (event : SignedEvent) : MessageProg PublishAttempt :=
  Prog.perform (MessageOp.publish relay event)

abbrev postWebhook (url : String) (body : Json) : MessageProg WebhookAttempt :=
  Prog.perform (MessageOp.postWebhook url body)

abbrev sleep (milliseconds : Nat) : MessageProg Unit := Prog.perform (MessageOp.sleep milliseconds)

end Call

/-- `UnsignedEvent::sign_with_keys`. -/
def signWithKeys (rt : NostrRuntime) (key : SecretKey) (unsigned : UnsignedEvent) :
    MessageProg SignedEvent := do
  let answer ← Call.sign key unsigned
  let sig ← Prog.ofExcept answer
  return { unsigned with id := rt.eventId unsigned, sig := sig }

end Message
end SecureAgnt

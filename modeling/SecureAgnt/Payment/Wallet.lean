/-
NIP-47 requests over the relays of a wallet (`nip47_wallet.rs`).

What the Nostr library does is a parameter: reading a connection URI and a relay
message, and decrypting a response.  `RelayAttempt` is what one attempt over a
relay meets, with the frames its stream delivers before the deadline, in any
number and any order.

A request subscribes to responses that refer to its own event, but the loop then
takes the first response event under the wallet's key that it can decrypt.  The
main result is `answers_correlated_iff`: a call's answer is one the wallet made
for its request exactly when no relay it reached delivers first a response that
was made for other requests only.
-/
import SecureAgnt.Lib.Prog
import Mathlib.Tactic.Common

namespace SecureAgnt
namespace Payment

/-! ## Messages -/

/-- `NostrWalletConnectURI`. -/
structure WalletConnectUri where
  publicKey : String
  secret : String
  relays : List String
  deriving DecidableEq, Repr

inductive NwcRequest where
  | payInvoice (invoice : String) (amount : Option Nat)
  | makeInvoice (amount : Nat) (description : Option String)
  | getBalance
  deriving DecidableEq, Repr

inductive NwcResult where
  | payInvoice (preimage : String) (feesPaid : Option Nat)
  | makeInvoice (invoice : String) (paymentHash : Option String) (amount : Option Nat)
  | getBalance (balance : Nat)
  deriving DecidableEq, Repr

structure NwcResponse where
  error : Option String := none
  result : Option NwcResult
  deriving DecidableEq, Repr

structure Event where
  id : String
  kind : Nat
  pubkey : String
  content : String
  deriving DecidableEq, Repr

/-- `Kind::WalletConnectResponse`. -/
def walletConnectResponse : Nat := 23195

inductive RelayMessage where
  | ok (eventId : String) (status : Bool) (message : String)
  | event (event : Event)
  | other
  deriving DecidableEq, Repr

structure NwcRequestOutcome where
  relay : String
  requestEventId : String
  responseEventId : String
  response : NwcResponse
  deriving DecidableEq, Repr

structure WalletRuntime where
  parseUri : String → Except String WalletConnectUri
  parseRelayMessage : String → Option RelayMessage
  decodeResponse : WalletConnectUri → String → Except String NwcResponse

/-! ## One relay -/

/-- What `stream.next()` gives the waiting loop. -/
inductive Delivery where
  | text (text : String)
  | otherFrame
  | frameError (error : String)
  | closed
  /-- The budget is used up when the loop looks at the clock. -/
  | expired
  deriving DecidableEq, Repr

/-- What an attempt over a relay meets.  The request event is signed anew for
each attempt; the deliveries end when no further frame comes in time. -/
structure RelayAttempt where
  connected : Except String Unit
  requestEvent : Except String Event
  subscribed : Except String Unit
  published : Except String Unit
  deliveries : List Delivery

/-- The loop that waits for the response. -/
def awaitResponse (rt : WalletRuntime) (uri : WalletConnectUri) (request : Event)
    (relayUrl : String) : List Delivery → Except String NwcRequestOutcome
  | [] => .error ("timeout waiting for NIP-47 relay frame from " ++ relayUrl)
  | .expired :: _ => .error ("timeout waiting for NIP-47 response from relay " ++ relayUrl)
  | .closed :: _ =>
    .error ("relay " ++ relayUrl ++ " closed connection during NIP-47 request")
  | .frameError e :: _ => .error ("NIP-47 relay frame error from " ++ relayUrl ++ ": " ++ e)
  | .otherFrame :: rest => awaitResponse rt uri request relayUrl rest
  | .text text :: rest =>
    match rt.parseRelayMessage text with
    | some (.ok eventId status message) =>
      if eventId = request.id ∧ status = false then
        .error ("relay " ++ relayUrl ++ " rejected NIP-47 request event: " ++ message)
      else awaitResponse rt uri request relayUrl rest
    | some (.event event) =>
      if event.kind ≠ walletConnectResponse ∨ event.pubkey ≠ uri.publicKey then
        awaitResponse rt uri request relayUrl rest
      else
        match rt.decodeResponse uri event.content with
        | .error e => .error ("failed parsing/decrypting NIP-47 response event: " ++ e)
        | .ok response => .ok ⟨relayUrl, request.id, event.id, response⟩
    | some .other | none => awaitResponse rt uri request relayUrl rest

/-- The request event of an attempt that gets as far as waiting. -/
def RelayAttempt.opened (attempt : RelayAttempt) : Except String Event := do
  attempt.connected
  let requestEvent ← attempt.requestEvent
  attempt.subscribed
  attempt.published
  return requestEvent

def sendNwcRequestToRelay (rt : WalletRuntime) (uri : WalletConnectUri) (relayUrl : String)
    (attempt : RelayAttempt) : Except String NwcRequestOutcome := do
  let requestEvent ← attempt.opened
  awaitResponse rt uri requestEvent relayUrl attempt.deliveries

/-! ## The relays in turn -/

section Send

variable {Op : Type} {Ans : Op → Type} (meet : String → Prog Op Ans String RelayAttempt)

def tryRelays (rt : WalletRuntime) (uri : WalletConnectUri) (errors : List String) :
    List String → Prog Op Ans String NwcRequestOutcome
  | [] => .fail ("all NIP-47 relays failed for request: " ++ String.intercalate " | " errors)
  | relayUrl :: rest => do
    let attempt ← meet relayUrl
    match sendNwcRequestToRelay rt uri relayUrl attempt with
    | .ok outcome => .pure outcome
    | .error e => tryRelays rt uri (errors ++ [relayUrl ++ ": " ++ e]) rest

def sendNwcRequest (rt : WalletRuntime) (uriRaw : String) : Prog Op Ans String NwcRequestOutcome :=
  match rt.parseUri uriRaw with
  | .error e => .fail ("failed to parse Nostr Wallet Connect URI: " ++ e)
  | .ok uri =>
    if uri.relays.isEmpty then
      .fail "Nostr Wallet Connect URI does not include relay endpoints"
    else tryRelays meet rt uri [] uri.relays

end Send

/-! ## What a relay's frames decide -/

section Frames

variable {rt : WalletRuntime} {uri : WalletConnectUri} {request : Event} {relayUrl : String}
  {attempt : RelayAttempt} {outcome : NwcRequestOutcome}

/-- The first response event under the wallet's key that comes before the
stream ends or the relay rejects the request. -/
def firstWalletEvent (rt : WalletRuntime) (uri : WalletConnectUri) (request : Event) :
    List Delivery → Option Event
  | .otherFrame :: rest => firstWalletEvent rt uri request rest
  | .text text :: rest =>
    match rt.parseRelayMessage text with
    | some (.ok eventId status _) =>
      if eventId = request.id ∧ status = false then none else firstWalletEvent rt uri request rest
    | some (.event event) =>
      if event.kind ≠ walletConnectResponse ∨ event.pubkey ≠ uri.publicKey then
        firstWalletEvent rt uri request rest
      else some event
    | some .other | none => firstWalletEvent rt uri request rest
  | _ => none

theorem awaitResponse_eq_ok_iff {deliveries : List Delivery} :
    awaitResponse rt uri request relayUrl deliveries = .ok outcome ↔
      ∃ event response, firstWalletEvent rt uri request deliveries = some event ∧
        rt.decodeResponse uri event.content = .ok response ∧
        outcome = ⟨relayUrl, request.id, event.id, response⟩ := by
  induction deliveries with
  | nil => simp [awaitResponse, firstWalletEvent]
  | cons delivery rest ih =>
    cases delivery with
    | expired => simp [awaitResponse, firstWalletEvent]
    | closed => simp [awaitResponse, firstWalletEvent]
    | frameError e => simp [awaitResponse, firstWalletEvent]
    | otherFrame => exact ih
    | text text =>
      unfold awaitResponse firstWalletEvent
      cases hmessage : rt.parseRelayMessage text with
      | none => exact ih
      | some message =>
        cases message with
        | other => exact ih
        | ok eventId status message =>
          by_cases hrejected : eventId = request.id ∧ status = false
          · simp [hrejected]
          · simpa only [if_neg hrejected] using ih
        | event event =>
          by_cases hskip : event.kind ≠ walletConnectResponse ∨ event.pubkey ≠ uri.publicKey
          · simpa only [if_pos hskip] using ih
          · simp only [if_neg hskip]
            cases hdecode : rt.decodeResponse uri event.content with
            | error e => simp [hdecode]
            | ok response => simp [hdecode, eq_comm]

theorem sendNwcRequestToRelay_eq_ok_iff :
    sendNwcRequestToRelay rt uri relayUrl attempt = .ok outcome ↔
      ∃ requestEvent event response, attempt.opened = .ok requestEvent ∧
        firstWalletEvent rt uri requestEvent attempt.deliveries = some event ∧
        rt.decodeResponse uri event.content = .ok response ∧
        outcome = ⟨relayUrl, requestEvent.id, event.id, response⟩ := by
  unfold sendNwcRequestToRelay
  cases hopened : attempt.opened with
  | error e => simp [bind, Except.bind]
  | ok requestEvent =>
    show awaitResponse rt uri requestEvent relayUrl attempt.deliveries = _ ↔ _
    rw [awaitResponse_eq_ok_iff]
    constructor
    · intro hx
      obtain ⟨event, response, h⟩ := hx
      exact ⟨requestEvent, event, response, rfl, h⟩
    · intro hx
      obtain ⟨requestEvent', event, response, hsame, h⟩ := hx
      cases hsame
      exact ⟨event, response, h⟩

end Frames

/-! ## Correlation -/

/-- The one call of a request: an attempt over a relay. -/
inductive RelayOp where
  | attempt (relayUrl : String)

def RelayOp.Ans : RelayOp → Type
  | .attempt _ => RelayAttempt

def meetRelay (relayUrl : String) : Prog RelayOp RelayOp.Ans String RelayAttempt :=
  .perform (.attempt relayUrl)

/-- A response the wallet made, with the event of the request it answers. -/
structure WalletReply where
  requestEventId : String
  content : String
  deriving DecidableEq, Repr

/-- Content that decrypts under the client's key was made by the wallet, whatever
request it was made for. -/
def OnlyWalletReplies (rt : WalletRuntime) (uri : WalletConnectUri) (replies : List WalletReply) :
    Prop :=
  ∀ content response, rt.decodeResponse uri content = .ok response →
    ∃ reply ∈ replies, reply.content = content

/-- The wallet made this response for this request event. -/
def AnswersRequest (rt : WalletRuntime) (uri : WalletConnectUri) (replies : List WalletReply)
    (requestEventId : String) (response : NwcResponse) : Prop :=
  ∃ reply ∈ replies, reply.requestEventId = requestEventId ∧
    rt.decodeResponse uri reply.content = .ok response

/-- The first response event under the wallet's key that the relay delivers
repeats a response the wallet made, but not for this request. -/
def DeliversForeign (rt : WalletRuntime) (uri : WalletConnectUri) (replies : List WalletReply)
    (attempt : RelayAttempt) : Prop :=
  ∃ requestEvent event, attempt.opened = .ok requestEvent ∧
    firstWalletEvent rt uri requestEvent attempt.deliveries = some event ∧
    ∃ reply ∈ replies, reply.content = event.content ∧
      ∃ response, rt.decodeResponse uri reply.content = .ok response ∧
        ¬ AnswersRequest rt uri replies requestEvent.id response

section Correlation

variable {rt : WalletRuntime} {uri : WalletConnectUri} {replies : List WalletReply}
  {attempt : RelayAttempt} {r : Except String NwcRequestOutcome}

/-- An attempt that fails delivers nothing foreign first, and one that succeeds
does so exactly when its answer is for another request. -/
theorem deliversForeign_iff (relayUrl : String) (hwallet : OnlyWalletReplies rt uri replies) :
    DeliversForeign rt uri replies attempt ↔
      ∃ outcome, sendNwcRequestToRelay rt uri relayUrl attempt = .ok outcome ∧
        ¬ AnswersRequest rt uri replies outcome.requestEventId outcome.response := by
  constructor
  · intro h
    obtain ⟨requestEvent, event, hopened, hfirst, reply, -, hcontent, response, hdecode, hforeign⟩ := h
    rw [hcontent] at hdecode
    exact ⟨_, sendNwcRequestToRelay_eq_ok_iff.mpr
      ⟨requestEvent, event, response, hopened, hfirst, hdecode, rfl⟩, hforeign⟩
  · intro h
    obtain ⟨outcome, hsent, hforeign⟩ := h
    obtain ⟨requestEvent, event, response, hopened, hfirst, hdecode, rfl⟩ :=
      sendNwcRequestToRelay_eq_ok_iff.mp hsent
    obtain ⟨reply, hreply, hcontent⟩ := hwallet _ _ hdecode
    exact ⟨requestEvent, event, hopened, hfirst, reply, hreply, hcontent, response,
      hcontent ▸ hdecode, hforeign⟩

/-- What a run over the relays met: every attempt but the last failed, and the
run ends as the last one does or, with every relay failed, in an error. -/
theorem tryRelays_runs {errors : List String} {relays : List String}
    {trace : List ((op : RelayOp) × op.Ans)} (hwallet : OnlyWalletReplies rt uri replies)
    (hrun : (tryRelays meetRelay rt uri errors relays).Runs trace r) :
    (∀ outcome, r = .ok outcome →
        AnswersRequest rt uri replies outcome.requestEventId outcome.response) ↔
      ∀ relayUrl attempt, ⟨.attempt relayUrl, attempt⟩ ∈ trace →
        ¬ DeliversForeign rt uri replies attempt := by
  induction relays generalizing errors trace with
  | nil =>
    cases hrun
    simp
  | cons relay rest ih =>
    cases hrun with
    | @call _ _ tail _ attempt hrest =>
      cases hsent : sendNwcRequestToRelay rt uri relay attempt with
      | error e =>
        have hrest : (tryRelays meetRelay rt uri (errors ++ [relay ++ ": " ++ e]) rest).Runs
            tail r := by
          simpa only [Prog.bind, hsent] using hrest
        have hnot : ¬ DeliversForeign rt uri replies attempt := by
          intro hforeign
          obtain ⟨outcome, hok, -⟩ := (deliversForeign_iff relay hwallet).mp hforeign
          rw [hsent] at hok
          cases hok
        rw [ih hrest]
        constructor
        · rintro h relayUrl attempt' hmem
          rcases List.mem_cons.mp hmem with heq | hmem
          · cases heq
            exact hnot
          · exact h relayUrl attempt' hmem
        · intro h relayUrl attempt' hmem
          exact h relayUrl attempt' (List.mem_cons_of_mem _ hmem)
      | ok outcome =>
        have hrest : (Prog.pure outcome : Prog RelayOp RelayOp.Ans String _).Runs tail r := by
          simpa only [Prog.bind, hsent] using hrest
        cases hrest
        have hforeign : DeliversForeign rt uri replies attempt ↔ _ := deliversForeign_iff relay hwallet
        simp only [hsent, Except.ok.injEq, exists_eq_left'] at hforeign
        simp only [List.mem_singleton, Except.ok.injEq, forall_eq']
        constructor
        · rintro h relayUrl attempt' heq
          cases heq
          exact fun hbad => hforeign.mp hbad h
        · intro h
          by_contra hbad
          exact h relay attempt rfl (hforeign.mpr hbad)

/-- A call whose first relay answers. -/
theorem runs_of_first_relay {uriRaw relay : String} {rest : List String}
    {outcome : NwcRequestOutcome} (huri : rt.parseUri uriRaw = .ok uri)
    (hrelays : uri.relays = relay :: rest)
    (hsent : sendNwcRequestToRelay rt uri relay attempt = .ok outcome) :
    (sendNwcRequest meetRelay rt uriRaw).Runs [⟨.attempt relay, attempt⟩] (.ok outcome) := by
  unfold sendNwcRequest
  rw [huri]
  simp only [hrelays]
  have hend : (Prog.pure outcome : Prog RelayOp RelayOp.Ans String _).Runs [] (.ok outcome) :=
    .pure outcome
  refine @Prog.Runs.call RelayOp RelayOp.Ans _ _ (.attempt relay) _ _ _ attempt ?_
  simpa only [Prog.bind, hsent] using hend

/-- A call's answer is one the wallet made for its request exactly when no relay
it reached delivers first a response made for other requests only. -/
theorem answers_correlated_iff (rt : WalletRuntime) (uriRaw : String) (uri : WalletConnectUri)
    (replies : List WalletReply) (trace : List ((op : RelayOp) × op.Ans))
    (r : Except String NwcRequestOutcome) (huri : rt.parseUri uriRaw = .ok uri)
    (hwallet : OnlyWalletReplies rt uri replies)
    (hrun : (sendNwcRequest meetRelay rt uriRaw).Runs trace r) :
    (∀ outcome, r = .ok outcome →
        AnswersRequest rt uri replies outcome.requestEventId outcome.response) ↔
      ∀ relayUrl attempt, ⟨.attempt relayUrl, attempt⟩ ∈ trace →
        ¬ DeliversForeign rt uri replies attempt := by
  unfold sendNwcRequest at hrun
  rw [huri] at hrun
  dsimp only at hrun
  split at hrun
  · cases hrun
    simp
  · exact tryRelays_runs hwallet hrun

end Correlation

/-! ## A replayed response -/

def hexKey (c : Char) : String := String.ofList (List.replicate 64 c)

def sampleWalletUri : WalletConnectUri where
  publicKey := hexKey 'a'
  secret := hexKey 'b'
  relays := ["wss://relay.example"]

def sampleWalletUriRaw : String :=
  "nostr+walletconnect://" ++ hexKey 'a' ++ "?relay=wss://relay.example&secret=" ++ hexKey 'b'

/-- The event of the request being made, and a response event under the wallet's
key. -/
def sampleRequestEvent : Event := ⟨hexKey '1', 23194, hexKey 'c', "cGF5?iv=MQ=="⟩

def sampleResponseEvent : Event := ⟨hexKey '2', walletConnectResponse, hexKey 'a', "cGFpZA==?iv=Mg=="⟩

def samplePaid : NwcResponse := { result := some (.payInvoice "preimage-1" (some 0)) }

/-- The text of a relay's `EVENT` message. -/
def eventFrame (event : Event) : String :=
  "[\"EVENT\",\"sub\",\x7b\"id\":\"" ++ event.id ++ "\",\"pubkey\":\"" ++ event.pubkey ++
    "\",\"created_at\":1,\"kind\":23195,\"tags\":[],\"content\":\"" ++ event.content ++
    "\",\"sig\":\"" ++ hexKey '3' ++ hexKey '3' ++ "\"\x7d]"

/-- The library on the sample's texts. -/
def sampleWalletRuntime : WalletRuntime where
  parseUri raw :=
    if raw = sampleWalletUriRaw then .ok sampleWalletUri else .error "invalid NIP47 URI"
  parseRelayMessage text :=
    if text = eventFrame sampleResponseEvent then some (.event sampleResponseEvent) else none
  decodeResponse _ content :=
    if content = sampleResponseEvent.content then .ok samplePaid else .error "invalid content"

def sampleAttempt : RelayAttempt where
  connected := .ok ()
  requestEvent := .ok sampleRequestEvent
  subscribed := .ok ()
  published := .ok ()
  deliveries := [.text (eventFrame sampleResponseEvent)]

def sampleWalletOutcome : NwcRequestOutcome :=
  ⟨"wss://relay.example", sampleRequestEvent.id, sampleResponseEvent.id, samplePaid⟩

theorem sampleAttempt_answers :
    sendNwcRequestToRelay sampleWalletRuntime sampleWalletUri "wss://relay.example" sampleAttempt =
      .ok sampleWalletOutcome := by
  have hparse : sampleWalletRuntime.parseRelayMessage (eventFrame sampleResponseEvent) =
      some (.event sampleResponseEvent) := by
    simp only [sampleWalletRuntime, if_true]
  have hdecode : sampleWalletRuntime.decodeResponse sampleWalletUri sampleResponseEvent.content =
      .ok samplePaid := by
    simp only [sampleWalletRuntime, if_true]
  refine sendNwcRequestToRelay_eq_ok_iff.mpr
    ⟨sampleRequestEvent, sampleResponseEvent, samplePaid, rfl, ?_, hdecode, rfl⟩
  simp only [sampleAttempt, firstWalletEvent, hparse]
  rfl

theorem sampleWalletUri_parsed :
    sampleWalletRuntime.parseUri sampleWalletUriRaw = .ok sampleWalletUri := by
  simp only [sampleWalletRuntime, if_true]

theorem sample_runs :
    (sendNwcRequest meetRelay sampleWalletRuntime sampleWalletUriRaw).Runs
      [⟨.attempt "wss://relay.example", sampleAttempt⟩] (.ok sampleWalletOutcome) :=
  runs_of_first_relay sampleWalletUri_parsed rfl sampleAttempt_answers

theorem sampleReply_only (requestEventId : String) :
    OnlyWalletReplies sampleWalletRuntime sampleWalletUri
      [⟨requestEventId, sampleResponseEvent.content⟩] := by
  intro content response hdecode
  by_cases hcontent : content = sampleResponseEvent.content
  · exact ⟨_, List.mem_singleton_self _, hcontent.symm⟩
  · have hfails : sampleWalletRuntime.decodeResponse sampleWalletUri content =
        .error "invalid content" := if_neg hcontent
    rw [hfails] at hdecode
    cases hdecode

/-- A relay replays the wallet's response to an earlier payment, and the call
returns it for this one. -/
theorem replayed_reply_taken :
    OnlyWalletReplies sampleWalletRuntime sampleWalletUri
        [⟨hexKey '0', sampleResponseEvent.content⟩] ∧
      ¬ ∀ trace r, (sendNwcRequest meetRelay sampleWalletRuntime sampleWalletUriRaw).Runs trace r →
        ∀ outcome, r = .ok outcome → AnswersRequest sampleWalletRuntime sampleWalletUri
          [⟨hexKey '0', sampleResponseEvent.content⟩] outcome.requestEventId outcome.response := by
  refine ⟨sampleReply_only _, fun h => ?_⟩
  obtain ⟨reply, hreply, hid, -⟩ := h _ _ sample_runs sampleWalletOutcome rfl
  rw [List.mem_singleton.mp hreply] at hid
  exact absurd hid (by decide)

/-- The wallet's response to the request itself. -/
theorem answers_correlated_sample :
    AnswersRequest sampleWalletRuntime sampleWalletUri
      [⟨sampleRequestEvent.id, sampleResponseEvent.content⟩] sampleRequestEvent.id samplePaid := by
  refine (answers_correlated_iff sampleWalletRuntime sampleWalletUriRaw sampleWalletUri
    [⟨sampleRequestEvent.id, sampleResponseEvent.content⟩] _ _ sampleWalletUri_parsed
    (sampleReply_only _) sample_runs).mpr ?_ sampleWalletOutcome rfl
  intro relayUrl attempt hmem h
  obtain ⟨requestEvent, event, hopened, -, reply, -, -, response, hdecode, hno⟩ := h
  cases List.mem_singleton.mp hmem
  cases hopened
  by_cases hcontent : reply.content = sampleResponseEvent.content
  · rw [hcontent] at hdecode
    exact hno ⟨_, List.mem_singleton_self _, rfl, hdecode⟩
  · have hfails : sampleWalletRuntime.decodeResponse sampleWalletUri reply.content =
        .error "invalid content" := if_neg hcontent
    rw [hfails] at hdecode
    cases hdecode

end Payment
end SecureAgnt

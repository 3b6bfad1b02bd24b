/-
A signature comes from the signer's answer to the request for it.

Only the signer and the app can make content that decrypts in their session, and the
identifier of a request is inside it.  So what a relay replays, holds back or sends
out of order never passes for the answer to another request: `signature_correlated`.
-/
import SecureAgnt.Message.RemoteSigner

namespace SecureAgnt
namespace Message

open Payment (Delivery)

/-! ## The signer's side -/

/-- What the signer sent in answer to a request. -/
structure SignerReply where
  requestId : String
  request : ConnectRequest
  message : ConnectMessage
  sameId : message.id = requestId

/-- What has passed between an app's key and a signer: the requests the app has sent,
and the signer's replies. -/
structure SignerHistory (rt : NostrRuntime) (remoteSigner : PublicKey) (appKey : SecretKey) where
  sent : List (String × ConnectRequest)
  replies : List SignerReply
  ids_apart : (sent.map Prod.fst).Nodup
  answered : ∀ reply ∈ replies, (reply.requestId, reply.request) ∈ sent
  /-- A response that decrypts in the session is a reply of the signer. -/
  authentic : ∀ content plaintext message method response,
    rt.decrypt appKey remoteSigner content = .ok plaintext →
    rt.parseConnectMessage plaintext = .ok message →
    rt.toResponse message method = .ok response →
    ∃ reply ∈ replies, reply.message = message

/-- The requests of a run are among those the app has sent. -/
def SignerHistory.Covers {rt : NostrRuntime} {remoteSigner : PublicKey} {appKey : SecretKey}
    (history : SignerHistory rt remoteSigner appKey) (trace : List MessageCall) : Prop :=
  ∀ relay request exchange, (⟨.request relay request, exchange⟩ : MessageCall) ∈ trace →
    (RequestExchange.requestId exchange, request) ∈ history.sent

/-- The reply grants the session. -/
def SignerReply.Acknowledges (rt : NostrRuntime) (reply : SignerReply) : Prop :=
  rt.toResponse reply.message .connect = .ok ⟨some .ack, none⟩

/-- The reply holds the signed event. -/
def SignerReply.Signs (rt : NostrRuntime) (reply : SignerReply) (event : SignedEvent) : Prop :=
  rt.toResponse reply.message .signEvent = .ok ⟨some (.signEvent event), none⟩

/-! ## One request -/

section Request

variable {rt : NostrRuntime} {session : SignerSession} {method : ConnectMethod}
  {requestId : String} {request : Payment.Event} {response : ConnectResponse}
  {exchange : RequestExchange}

/-- What makes a response the answer to the request with an identifier. -/
def Answers (rt : NostrRuntime) (session : SignerSession) (method : ConnectMethod)
    (requestId : String) (response : ConnectResponse) : Prop :=
  ∃ content plaintext message, rt.decrypt session.appKey session.remoteSigner content =
      .ok plaintext ∧ rt.parseConnectMessage plaintext = .ok message ∧ message.id = requestId ∧
    rt.toResponse message method = .ok response ∧ response.error = none

theorem answers_of_awaitResponse {deliveries : List Delivery}
    (h : awaitResponse rt session method requestId request deliveries = .ok response) :
    Answers rt session method requestId response := by
  induction deliveries with
  | nil => simp [awaitResponse] at h
  | cons delivery rest ih =>
    cases delivery with
    | expired => simp [awaitResponse] at h
    | closed => simp [awaitResponse] at h
    | frameError e => simp [awaitResponse] at h
    | otherFrame => exact ih h
    | text text =>
      unfold awaitResponse at h
      cases hmessage : rt.parseRelayMessage text with
      | none => exact ih (by simpa only [hmessage] using h)
      | some relayMessage =>
        cases relayMessage with
        | other => exact ih (by simpa only [hmessage] using h)
        | ok eventId status text =>
          by_cases hrejected : eventId = request.id ∧ status = false
          · simp [hmessage, hrejected] at h
          · exact ih (by simpa only [hmessage, if_neg hrejected] using h)
        | event event =>
          by_cases hskip : event.kind ≠ nostrConnect ∨ event.pubkey ≠ session.remoteSigner
          · exact ih (by simpa only [hmessage, if_pos hskip] using h)
          · simp only [hmessage, if_neg hskip] at h
            cases hplain : rt.decrypt session.appKey session.remoteSigner event.content with
            | error e => simp [hplain] at h
            | ok plaintext =>
              cases hparse : rt.parseConnectMessage plaintext with
              | error e => simp [hplain, hparse] at h
              | ok message =>
                by_cases hid : message.id = requestId
                · cases hresponse : rt.toResponse message method with
                  | error e => simp [hplain, hparse, hid, hresponse] at h
                  | ok given =>
                    cases herror : given.error with
                    | some e => simp [hplain, hparse, hid, hresponse, herror] at h
                    | none =>
                      have hsame : given = response := by
                        simpa [hplain, hparse, hid, hresponse, herror] using h
                      rw [← hsame]
                      exact ⟨event.content, plaintext, message, hplain, hparse, hid, hresponse,
                        herror⟩
                · exact ih (by simpa only [hplain, hparse, if_pos hid] using h)

theorem answers_of_response (h : exchange.response rt session method = .ok response) :
    Answers rt session method exchange.requestId response := by
  simp only [RequestExchange.response, bind_unit_eq_ok] at h
  obtain ⟨requestEvent, -, hrest⟩ := bind_eq_ok.mp h.2
  have hawait := (bind_unit_eq_ok.mp hrest).2
  exact answers_of_awaitResponse hawait

/-- A request that goes out is decided by the frames that come back. -/
theorem response_of_sent (hcomposed : exchange.composed = .ok ())
    (hsigned : exchange.signed = .ok request) (hpublished : exchange.published = .done) :
    exchange.response rt session method =
      awaitResponse rt session method exchange.requestId request exchange.deliveries := by
  unfold RequestExchange.response
  rw [hcomposed, hsigned, hpublished]
  rfl

/-- Replies are told apart by the requests they answer. -/
theorem exists_reply {request : ConnectRequest} {remoteSigner : PublicKey} {appKey : SecretKey}
    {relay : String} (history : SignerHistory rt remoteSigner appKey)
    (hsent : (requestId, request) ∈ history.sent)
    (h : Answers rt ⟨relay, remoteSigner, appKey⟩ method requestId response) :
    ∃ reply ∈ history.replies, reply.request = request ∧
      rt.toResponse reply.message method = .ok ⟨response.result, none⟩ := by
  obtain ⟨content, plaintext, message, hplain, hparse, hid, hresponse, herror⟩ := h
  obtain ⟨reply, hreply, hmessage⟩ :=
    history.authentic content plaintext message method response hplain hparse hresponse
  have hanswered := history.answered reply hreply
  have hsame : reply.requestId = requestId := by
    rw [← reply.sameId, hmessage, hid]
  have hpair : (reply.requestId, reply.request) = (requestId, request) :=
    List.inj_on_of_nodup_map history.ids_apart hanswered hsent hsame
  refine ⟨reply, hreply, congrArg Prod.snd hpair, ?_⟩
  rw [hmessage, hresponse, ← herror]

end Request

/-! ## The session -/

section Session

variable {rt : NostrRuntime} {unsigned : UnsignedEvent} {session : SignerSession}
  {bunkerSecret : Option String} {event : SignedEvent} {trace : List MessageCall}

theorem connectAcknowledged_eq_ok {response : ConnectResponse} :
    connectAcknowledged rt response = .ok () ↔ response.result = some .ack := by
  unfold connectAcknowledged
  cases response.result with
  | none => simp
  | some result => cases result <;> simp [withContext_eq_ok, ResponseResult.toAck]

theorem signatureIn_eq_ok {response : ConnectResponse} :
    signatureIn rt response = .ok event ↔ response.result = some (.signEvent event) := by
  unfold signatureIn
  cases response.result with
  | none => simp
  | some result => cases result <;> simp [withContext_eq_ok, ResponseResult.toSignEvent]

/-- A request whose answer is taken: the call it was, and what was taken. -/
theorem request_runs_ok {request : ConnectRequest} {response : ConnectResponse}
    (h : (sendRequestAndWaitResponse rt session request).Runs trace (.ok response)) :
    ∃ exchange, trace = [⟨.request session.relay request, exchange⟩] ∧
      Answers rt session request.method (RequestExchange.requestId exchange) response := by
  unfold sendRequestAndWaitResponse at h
  obtain ⟨exchange, rest, htrace, h⟩ := Prog.runs_perform_bind_iff.mp h
  have hrest := Prog.runs_ofExcept_iff.mp h
  refine ⟨exchange, ?_, answers_of_response hrest.2.symm⟩
  rw [htrace, hrest.1]

/-- A signature over a relay is the second answer of its session; the first one was
the acknowledgement. -/
theorem signEventWithRelay_runs_ok
    (h : (signEventWithRelay rt unsigned session bunkerSecret).Runs trace (.ok event)) :
    ∃ connecting signing : RequestExchange,
      ⟨.request session.relay (.connect (rt.publicKey session.appKey) bunkerSecret),
        connecting⟩ ∈ trace ∧
      ⟨.request session.relay (.signEvent unsigned), signing⟩ ∈ trace ∧
      (∃ response, Answers rt session .connect connecting.requestId response ∧
        response.result = some .ack) ∧
      ∃ response, Answers rt session .signEvent signing.requestId response ∧
        response.result = some (.signEvent event) := by
  unfold signEventWithRelay at h
  obtain ⟨opened, rest₁, htrace, h⟩ := Prog.runs_perform_bind_iff.mp h
  obtain ⟨-, first₂, rest₂, hrest₁, -, h⟩ := Prog.runs_bind_ok_iff.mp h
  obtain ⟨subscribed, rest₃, hrest₂, h⟩ := Prog.runs_perform_bind_iff.mp h
  obtain ⟨-, first₄, rest₄, hrest₃, -, h⟩ := Prog.runs_bind_ok_iff.mp h
  obtain ⟨connected, first₅, rest₅, hrest₄, hconnect, h⟩ := Prog.runs_bind_ok_iff.mp h
  obtain ⟨⟨⟩, first₆, rest₆, hrest₅, hack, h⟩ := Prog.runs_bind_ok_iff.mp h
  obtain ⟨response, first₇, rest₇, hrest₆, hsign, h⟩ := Prog.runs_bind_ok_iff.mp h
  obtain ⟨signed, first₈, rest₈, hrest₇, hsigned, h⟩ := Prog.runs_bind_ok_iff.mp h
  obtain ⟨-, rest₉, -, h⟩ := Prog.runs_perform_bind_iff.mp h
  have hlast := Prog.runs_pure_iff.mp h
  have hsame : event = signed := Except.ok.inj hlast.2
  obtain ⟨connecting, hfirst₅, hconnecting⟩ := request_runs_ok hconnect
  obtain ⟨signing, hfirst₇, hsigning⟩ := request_runs_ok hsign
  have hgranted := connectAcknowledged_eq_ok.mp (Prog.runs_ofExcept_iff.mp hack).2.symm
  have hholds := signatureIn_eq_ok.mp (Prog.runs_ofExcept_iff.mp hsigned).2.symm
  refine ⟨connecting, signing, ?_, ?_, ⟨connected, hconnecting, hgranted⟩, response, hsigning, ?_⟩
  · rw [htrace, hrest₁, hrest₂, hrest₃, hrest₄, hfirst₅]
    simp
  · rw [htrace, hrest₁, hrest₂, hrest₃, hrest₄, hrest₅, hrest₆, hfirst₇]
    simp
  · rw [hholds, hsame]

/-- Over several relays, the signature comes from the last one tried. -/
theorem signOverRelays_runs_ok {remoteSigner : PublicKey} {appKey : SecretKey}
    {errors relays : List String} {outcome : Nip46SignOutcome}
    (h : (signOverRelays rt unsigned remoteSigner bunkerSecret appKey errors relays).Runs trace
      (.ok outcome)) :
    outcome.signerRelay ∈ relays ∧ outcome.appPublicKey = rt.publicKey appKey ∧
      ∃ first last, trace = first ++ last ∧
        (signEventWithRelay rt unsigned ⟨outcome.signerRelay, remoteSigner, appKey⟩
          bunkerSecret).Runs last (.ok outcome.signedEvent) := by
  induction relays generalizing errors trace with
  | nil =>
    unfold signOverRelays at h
    simp at h
  | cons relay rest ih =>
    unfold signOverRelays at h
    obtain ⟨tried, first, last, htrace, hattempt, h⟩ := Prog.runs_bind_ok_iff.mp h
    obtain ⟨x, hx, hrelay⟩ := Prog.runs_attempt_iff.mp hattempt
    have hsame : tried = x := Except.ok.inj hx
    rw [hsame] at h
    cases x with
    | ok signedEvent =>
      have hend := Prog.runs_pure_iff.mp h
      have houtcome : outcome = ⟨signedEvent, relay, rt.publicKey appKey⟩ := Except.ok.inj hend.2
      rw [houtcome]
      refine ⟨List.mem_cons_self, rfl, [], first, ?_, hrelay⟩
      rw [htrace, hend.1]
      simp
    | error e =>
      obtain ⟨hmem, hkey, first', last', hlast, hruns⟩ := ih h
      refine ⟨List.mem_cons_of_mem _ hmem, hkey, first ++ first', last', ?_, hruns⟩
      rw [htrace, hlast, List.append_assoc]

/-- The key is the one a run takes for the app: the configured one, or one made in it. -/
def UsesKey (rt : NostrRuntime) (appSecretKey : Option String) (appKey : SecretKey)
    (trace : List MessageCall) : Prop :=
  ∃ calls, calls ⊆ trace ∧ (resolveAppKey rt appSecretKey).Runs calls (.ok appKey)

/-- The signer and its relays, and the app's key for them: where a signature came from. -/
theorem signEventWithBunker_runs_ok {bunkerUri : String} {appSecretKey : Option String}
    {outcome : Nip46SignOutcome}
    (h : (signEventWithBunker rt unsigned bunkerUri appSecretKey).Runs trace (.ok outcome)) :
    ∃ remoteSigner relays secret appKey calls,
      rt.parseConnectUri bunkerUri = .ok (.bunker remoteSigner relays secret) ∧
      outcome.signerRelay ∈ relays ∧ outcome.appPublicKey = rt.publicKey appKey ∧
      UsesKey rt appSecretKey appKey trace ∧ calls ⊆ trace ∧
      (signEventWithRelay rt unsigned ⟨outcome.signerRelay, remoteSigner, appKey⟩ secret).Runs
        calls (.ok outcome.signedEvent) := by
  unfold signEventWithBunker at h
  cases huri : withContext "failed to parse NIP-46 bunker URI" (rt.parseConnectUri bunkerUri) with
  | error e =>
    rw [huri] at h
    cases h
  | ok uri =>
    rw [huri] at h
    cases uri with
    | client => cases h
    | bunker remoteSigner relays secret =>
      dsimp only at h
      by_cases hrelays : relays.isEmpty = true
      · rw [if_pos hrelays] at h
        cases h
      · rw [if_neg hrelays] at h
        obtain ⟨appKey, first, rest, htrace, happ, h⟩ := Prog.runs_bind_ok_iff.mp h
        obtain ⟨hrelay, hkey, before, last, hrest, hruns⟩ := signOverRelays_runs_ok h
        refine ⟨remoteSigner, relays, secret, appKey, last, withContext_eq_ok.mp huri, hrelay, hkey,
          ⟨first, ?_, happ⟩, ?_, hruns⟩
        · rw [htrace]
          exact List.subset_append_left _ _
        · rw [htrace, hrest]
          intro call hmem
          simp [hmem]

/-- The session the signature came from was granted, and the signature asked for, by
requests the signer answered. -/
theorem exists_signature {relay : String} {remoteSigner : PublicKey} {appKey : SecretKey}
    {secret : Option String} {calls : List MessageCall}
    (h : (signEventWithRelay rt unsigned ⟨relay, remoteSigner, appKey⟩ secret).Runs calls
      (.ok event))
    (history : SignerHistory rt remoteSigner appKey) (hcovers : history.Covers calls) :
    (∃ reply ∈ history.replies, reply.request = .connect (rt.publicKey appKey) secret ∧
        reply.Acknowledges rt) ∧
      ∃ reply ∈ history.replies, reply.request = .signEvent unsigned ∧ reply.Signs rt event := by
  obtain ⟨connecting, signing, hconnecting, hsigning, ⟨granted, hgranted, hack⟩, signed, hsigned,
    hevent⟩ := signEventWithRelay_runs_ok h
  obtain ⟨reply, hreply, hrequest, hresponse⟩ :=
    exists_reply history (hcovers _ _ _ hconnecting) hgranted
  obtain ⟨reply', hreply', hrequest', hresponse'⟩ :=
    exists_reply history (hcovers _ _ _ hsigning) hsigned
  rw [hack] at hresponse
  rw [hevent] at hresponse'
  exact ⟨⟨reply, hreply, hrequest, hresponse⟩, reply', hreply', hrequest', hresponse'⟩

end Session

/-- Over whichever relay a signature comes, it is what the signer sent in answer to the
request for it, in a session the signer granted. -/
theorem signature_correlated (rt : NostrRuntime) (unsigned : UnsignedEvent) (bunkerUri : String)
    (appSecretKey : Option String) (trace : List MessageCall) (outcome : Nip46SignOutcome)
    (hrun : (signEventWithBunker rt unsigned bunkerUri appSecretKey).Runs trace (.ok outcome)) :
    ∃ remoteSigner relays secret appKey,
      rt.parseConnectUri bunkerUri = .ok (.bunker remoteSigner relays secret) ∧
      outcome.signerRelay ∈ relays ∧ outcome.appPublicKey = rt.publicKey appKey ∧
      UsesKey rt appSecretKey appKey trace ∧
      ∀ history : SignerHistory rt remoteSigner appKey, history.Covers trace →
        (∃ reply ∈ history.replies, reply.request = .connect (rt.publicKey appKey) secret ∧
            reply.Acknowledges rt) ∧
          ∃ reply ∈ history.replies, reply.request = .signEvent unsigned ∧
            reply.Signs rt outcome.signedEvent := by
  obtain ⟨remoteSigner, relays, secret, appKey, calls, huri, hrelay, hkey, happ, hcalls, hruns⟩ :=
    signEventWithBunker_runs_ok hrun
  refine ⟨remoteSigner, relays, secret, appKey, huri, hrelay, hkey, happ, fun history hcovers => ?_⟩
  exact exists_signature hruns history fun relay request exchange hmem =>
    hcovers relay request exchange (hcalls hmem)

/-! ## A signature over the first relay -/

section FirstRelay

variable {rt : NostrRuntime} {unsigned : UnsignedEvent} {event : SignedEvent} {relay : String}
  {remoteSigner : PublicKey} {appKey : SecretKey} {secret : Option String}
  {connecting signing : RequestExchange}

/-- The calls of a session in which everything goes well. -/
def sessionCalls (rt : NostrRuntime) (relay : String) (remoteSigner : PublicKey)
    (appKey : SecretKey) (secret : Option String) (unsigned : UnsignedEvent)
    (connecting signing : RequestExchange) : List MessageCall :=
  [⟨.openSigner relay, Timed.done⟩,
    ⟨.subscribe relay remoteSigner (rt.publicKey appKey), Timed.done⟩,
    ⟨.request relay (.connect (rt.publicKey appKey) secret), connecting⟩,
    ⟨.request relay (.signEvent unsigned), signing⟩, ⟨.closeSigner relay, ()⟩]

theorem signEventWithRelay_runs
    (hconnect : connecting.response rt ⟨relay, remoteSigner, appKey⟩ .connect =
      .ok ⟨some .ack, none⟩)
    (hsign : signing.response rt ⟨relay, remoteSigner, appKey⟩ .signEvent =
      .ok ⟨some (.signEvent event), none⟩) :
    (signEventWithRelay rt unsigned ⟨relay, remoteSigner, appKey⟩ secret).Runs
      (sessionCalls rt relay remoteSigner appKey secret unsigned connecting signing)
      (.ok event) := by
  unfold signEventWithRelay
  refine Prog.runs_perform_bind_iff.mpr ⟨.done, _, rfl, ?_⟩
  refine Prog.runs_bind_ok_iff.mpr ⟨(), [], _, rfl, Prog.runs_ofExcept_iff.mpr ⟨rfl, rfl⟩, ?_⟩
  refine Prog.runs_perform_bind_iff.mpr ⟨.done, _, rfl, ?_⟩
  refine Prog.runs_bind_ok_iff.mpr ⟨(), [], _, rfl, Prog.runs_ofExcept_iff.mpr ⟨rfl, rfl⟩, ?_⟩
  refine Prog.runs_bind_ok_iff.mpr ⟨_, [_], _, rfl,
    Prog.runs_perform_bind_iff.mpr ⟨connecting, [], rfl, Prog.runs_ofExcept_iff.mpr
      ⟨rfl, hconnect.symm⟩⟩, ?_⟩
  refine Prog.runs_bind_ok_iff.mpr ⟨(), [], _, rfl, Prog.runs_ofExcept_iff.mpr ⟨rfl, rfl⟩, ?_⟩
  refine Prog.runs_bind_ok_iff.mpr ⟨_, [_], _, rfl,
    Prog.runs_perform_bind_iff.mpr ⟨signing, [], rfl, Prog.runs_ofExcept_iff.mpr
      ⟨rfl, hsign.symm⟩⟩, ?_⟩
  refine Prog.runs_bind_ok_iff.mpr ⟨event, [], _, rfl, Prog.runs_ofExcept_iff.mpr ⟨rfl, rfl⟩, ?_⟩
  exact Prog.runs_perform_bind_iff.mpr ⟨(), [], rfl, Prog.runs_pure_iff.mpr ⟨rfl, rfl⟩⟩

theorem signEventWithBunker_runs {bunkerUri appSecret : String} {rest : List String}
    (huri : rt.parseConnectUri bunkerUri = .ok (.bunker remoteSigner (relay :: rest) secret))
    (happ : Text.nonEmptyTrimmed appSecret = some appSecret)
    (hkey : rt.parseSecretKey appSecret = .ok appKey)
    (hconnect : connecting.response rt ⟨relay, remoteSigner, appKey⟩ .connect =
      .ok ⟨some .ack, none⟩)
    (hsign : signing.response rt ⟨relay, remoteSigner, appKey⟩ .signEvent =
      .ok ⟨some (.signEvent event), none⟩) :
    (signEventWithBunker rt unsigned bunkerUri (some appSecret)).Runs
      (sessionCalls rt relay remoteSigner appKey secret unsigned connecting signing)
      (.ok ⟨event, relay, rt.publicKey appKey⟩) := by
  unfold signEventWithBunker
  rw [withContext_eq_ok.mpr huri]
  refine Prog.runs_bind_ok_iff.mpr ⟨appKey, [], _, rfl, ?_, ?_⟩
  · unfold resolveAppKey
    rw [Option.bind_some, happ]
    exact Prog.runs_ofExcept_iff.mpr ⟨rfl, (withContext_eq_ok.mpr hkey).symm⟩
  · unfold signOverRelays
    refine Prog.runs_bind_ok_iff.mpr ⟨.ok event, _, [], (List.append_nil _).symm,
      Prog.runs_attempt_iff.mpr ⟨.ok event, rfl, signEventWithRelay_runs hconnect hsign⟩, ?_⟩
    exact Prog.runs_pure_iff.mpr ⟨rfl, rfl⟩

end FirstRelay

/-! ## A reply that comes late -/

def signerKey : PublicKey := Payment.hexKey 'a'

def bunkerText : String := "bunker://" ++ signerKey ++ "?relay=wss://relay.example"

def plainNote : UnsignedEvent :=
  ⟨signerKey, 1700000000, 1, [["p", Payment.hexKey 'd']], "hello"⟩

def signedNote : SignedEvent :=
  { plainNote with id := Payment.hexKey '5', sig := Payment.hexKey '6' ++ Payment.hexKey '6' }

/-- The contents of the signer's replies as they travel, and what they decrypt to. -/
def ackContent : String := "AmFjaw=="

def noteContent : String := "Am5vdGU="

def ackPlaintext : String := "\x7b\"id\":\"1\",\"result\":\"ack\"\x7d"

def notePlaintext : String := "\x7b\"id\":\"2\",\"result\":\"\x7b..\x7d\"\x7d"

def replyFrame (content : String) : String :=
  "[\"EVENT\",\"sub\",\x7b\"id\":\"" ++ Payment.hexKey '7' ++ "\",\"pubkey\":\"" ++ signerKey ++
    "\",\"created_at\":1700000001,\"kind\":24133,\"tags\":[],\"content\":\"" ++ content ++
    "\",\"sig\":\"" ++ Payment.hexKey '8' ++ Payment.hexKey '8' ++ "\"\x7d]"

def replyEvent (content : String) : Payment.Event :=
  ⟨Payment.hexKey '7', nostrConnect, signerKey, content⟩

def ackMessage : ConnectMessage := .response "1" (some "ack") none

def noteMessage : ConnectMessage := .response "2" (some "\x7b..\x7d") none

/-- The library on the sample's texts. -/
def bunkerRuntime : NostrRuntime where
  parsePublicKey text := .ok text
  parseSecretKey text := .ok text
  publicKey _ := Payment.hexKey 'c'
  toBech32 key := .ok ("npub1" ++ key)
  parseConnectUri _ := .ok (.bunker signerKey ["wss://relay.example"] none)
  textNote _ _ _ _ := plainNote
  eventId _ := signedNote.id
  parseRelayMessage text :=
    if text = replyFrame ackContent then some (.event (replyEvent ackContent))
    else if text = replyFrame noteContent then some (.event (replyEvent noteContent))
    else none
  decrypt _ _ content :=
    if content = ackContent then .ok ackPlaintext
    else if content = noteContent then .ok notePlaintext
    else .error "invalid payload"
  parseConnectMessage plaintext :=
    if plaintext = ackPlaintext then .ok ackMessage
    else if plaintext = notePlaintext then .ok noteMessage
    else .error "invalid message"
  toResponse message method :=
    if message = ackMessage ∧ method = .connect then .ok ⟨some .ack, none⟩
    else if message = noteMessage ∧ method = .signEvent then
      .ok ⟨some (.signEvent signedNote), none⟩
    else .error "unexpected response"
  unexpectedResult := "unexpected result"
  parseJson _ := .error "not JSON"

/-- Two requests of a session; the reply to the first comes again before the reply to
the second. -/
def requestEvent : Payment.Event := ⟨Payment.hexKey '9', nostrConnect, Payment.hexKey 'c', "Ag=="⟩

def connecting : RequestExchange :=
  ⟨"1", .ok (), .ok requestEvent, .done, [.text (replyFrame ackContent)]⟩

def signing : RequestExchange :=
  ⟨"2", .ok (), .ok requestEvent, .done,
    [.text (replyFrame ackContent), .text (replyFrame noteContent)]⟩

def appSession : SignerSession := ⟨"wss://relay.example", signerKey, Payment.hexKey 'b'⟩

theorem frames_differ : replyFrame noteContent ≠ replyFrame ackContent := by decide +kernel

theorem contents_differ : noteContent ≠ ackContent := by decide

theorem plaintexts_differ : notePlaintext ≠ ackPlaintext := by decide

theorem messages_differ : noteMessage ≠ ackMessage := by decide

theorem parse_ackFrame : bunkerRuntime.parseRelayMessage (replyFrame ackContent) =
    some (.event (replyEvent ackContent)) := by
  simp only [bunkerRuntime, if_true]

theorem parse_noteFrame : bunkerRuntime.parseRelayMessage (replyFrame noteContent) =
    some (.event (replyEvent noteContent)) := by
  simp only [bunkerRuntime, if_neg frames_differ, if_true]

theorem decrypt_ack (key : SecretKey) (signer : PublicKey) :
    bunkerRuntime.decrypt key signer ackContent = .ok ackPlaintext := by
  simp only [bunkerRuntime, if_true]

theorem decrypt_note (key : SecretKey) (signer : PublicKey) :
    bunkerRuntime.decrypt key signer noteContent = .ok notePlaintext := by
  simp only [bunkerRuntime, if_neg contents_differ, if_true]

theorem parse_ack : bunkerRuntime.parseConnectMessage ackPlaintext = .ok ackMessage := by
  simp only [bunkerRuntime, if_true]

theorem parse_note : bunkerRuntime.parseConnectMessage notePlaintext = .ok noteMessage := by
  simp only [bunkerRuntime, if_neg plaintexts_differ, if_true]

theorem toResponse_ack : bunkerRuntime.toResponse ackMessage .connect =
    .ok ⟨some .ack, none⟩ := by
  simp only [bunkerRuntime, and_self, if_true]

theorem toResponse_note : bunkerRuntime.toResponse noteMessage .signEvent =
    .ok ⟨some (.signEvent signedNote), none⟩ := by
  simp only [bunkerRuntime, messages_differ, false_and, if_false, and_self, if_true]

theorem connecting_response : connecting.response bunkerRuntime appSession .connect =
    .ok ⟨some .ack, none⟩ := by
  have hid : ackMessage.id = "1" := rfl
  have hsent : connecting.response bunkerRuntime appSession .connect = awaitResponse bunkerRuntime
      appSession .connect "1" requestEvent connecting.deliveries := response_of_sent rfl rfl rfl
  rw [hsent]
  simp only [connecting, awaitResponse, parse_ackFrame, replyEvent, appSession, decrypt_ack,
    parse_ack, hid, toResponse_ack, ne_eq, not_true_eq_false, or_self, if_false]

theorem signing_response : signing.response bunkerRuntime appSession .signEvent =
    .ok ⟨some (.signEvent signedNote), none⟩ := by
  have hlate : ackMessage.id ≠ "2" := by decide
  have hid : noteMessage.id = "2" := rfl
  have hsent : signing.response bunkerRuntime appSession .signEvent = awaitResponse bunkerRuntime
      appSession .signEvent "2" requestEvent signing.deliveries := response_of_sent rfl rfl rfl
  rw [hsent]
  simp only [signing, awaitResponse, parse_ackFrame, parse_noteFrame, replyEvent, appSession,
    decrypt_ack, decrypt_note, parse_ack, parse_note, hid, toResponse_note, ne_eq, hlate,
    not_true_eq_false, not_false_eq_true, or_self, if_false, if_true]

/-- The requests and replies of the sample. -/
def bunkerHistory (appKey : SecretKey) : SignerHistory bunkerRuntime signerKey appKey where
  sent := [("1", .connect (Payment.hexKey 'c') none), ("2", .signEvent plainNote)]
  replies := [⟨"1", .connect (Payment.hexKey 'c') none, ackMessage, rfl⟩,
    ⟨"2", .signEvent plainNote, noteMessage, rfl⟩]
  ids_apart := by decide
  answered := by
    intro reply hreply
    rcases List.mem_pair.mp hreply with heq | heq
    · rw [heq]
      exact List.mem_cons_self
    · rw [heq]
      exact List.mem_cons_of_mem _ List.mem_cons_self
  authentic := by
    intro content plaintext message method response _ hparse _
    simp only [bunkerRuntime] at hparse
    by_cases hack : plaintext = ackPlaintext
    · rw [if_pos hack] at hparse
      exact ⟨_, List.mem_cons_self, Except.ok.inj hparse⟩
    · rw [if_neg hack] at hparse
      by_cases hnote : plaintext = notePlaintext
      · rw [if_pos hnote] at hparse
        exact ⟨_, List.mem_cons_of_mem _ List.mem_cons_self, Except.ok.inj hparse⟩
      · rw [if_neg hnote] at hparse
        cases hparse

theorem bunkerHistory_covers (appKey : SecretKey) :
    (bunkerHistory appKey).Covers (sessionCalls bunkerRuntime "wss://relay.example" signerKey
      (Payment.hexKey 'b') none plainNote connecting signing) := by
  intro relay request exchange hmem
  simp only [sessionCalls, List.mem_cons, List.not_mem_nil, or_false] at hmem
  rcases hmem with h | h | h | h | h
  · cases h
  · cases h
  · cases h
    exact List.mem_cons_self
  · cases h
    exact List.mem_cons_of_mem _ List.mem_cons_self
  · cases h

/-- The late reply is passed by, and the signature is the signer's. -/
theorem late_reply_passed_by :
    ∃ reply ∈ (bunkerHistory (Payment.hexKey 'b')).replies,
      reply.request = .signEvent plainNote ∧ reply.Signs bunkerRuntime signedNote := by
  have hkey : Text.nonEmptyTrimmed (Payment.hexKey 'b') = some (Payment.hexKey 'b') := by
    decide +kernel
  have hruns : (signEventWithBunker bunkerRuntime plainNote bunkerText
      (some (Payment.hexKey 'b'))).Runs _ _ :=
    signEventWithBunker_runs rfl hkey rfl connecting_response signing_response
  obtain ⟨remoteSigner, relays, secret, appKey, huri, -, -, -, h⟩ :=
    signature_correlated bunkerRuntime plainNote bunkerText (some (Payment.hexKey 'b')) _ _ hruns
  cases huri
  exact (h (bunkerHistory appKey) (bunkerHistory_covers appKey)).2

end Message
end SecureAgnt

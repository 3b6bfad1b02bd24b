/-
What a run of `message.send` hands to the relays and to Slack.

`attemptWhitenoisePublish_runs` and `slackAttempts_runs` say what a delivery can do,
call by call; the results after them are read off these.
-/
import SecureAgnt.Message.Correlated
import SecureAgnt.Message.Send

namespace SecureAgnt
namespace Message

open Payment (Delivery)
open Worker (MessageProvider MessageDelivery ParsedMessageDestination ArtifactConfig ArtifactEnv
  RunLeaseRecord Written)

/-! ## Acknowledgements -/

/-- The relay took the event and said so in its first frame. -/
def PublishAttempt.Acknowledges (rt : NostrRuntime) (eventId : String)
    (attempt : PublishAttempt) : Prop :=
  attempt.connected = .done ∧ attempt.sent = .done ∧
    ∃ text message rest, attempt.ack = .text text ∧ rt.parseJson text =
      .ok (.arr (.str "OK" :: .str eventId :: .bool true :: message :: rest))

/-- The post came back with a status of success and a body. -/
def WebhookAttempt.Accepted (attempt : WebhookAttempt) : Prop :=
  attempt.client = .ok () ∧
    ∃ status body, attempt.sent = .ok status ∧ 200 ≤ status ∧ status < 300 ∧ attempt.body = .ok body

section Acknowledgements

variable {rt : NostrRuntime} {relay eventId text : String} {attempt : PublishAttempt}

theorem asStr?_eq_some {value : Json} {s : String} : value.asStr? = some s ↔ value = .str s := by
  cases value <;> simp [Json.asStr?]

theorem asBool?_eq_some {value : Json} {b : Bool} : value.asBool? = some b ↔ value = .bool b := by
  cases value <;> simp [Json.asBool?]

theorem parseAckText_accepts {message : String}
    (h : parseAckText rt text eventId = .ok (true, message)) :
    ∃ answer rest, rt.parseJson text =
      .ok (.arr (.str "OK" :: .str eventId :: .bool true :: answer :: rest)) := by
  unfold parseAckText at h
  split at h
  · simp at h
  · next label ackEventId status answer rest hparse =>
    by_cases hlabel : label.asStr? = some "OK"
    · simp only [hlabel, ne_eq, not_true_eq_false, if_false] at h
      cases hid : ackEventId.asStr? with
      | none => simp [hid] at h
      | some id =>
        by_cases hsame : id = eventId
        · cases hstatus : status.asBool? with
          | none => simp [hid, hsame, hstatus] at h
          | some ok =>
            have hok : ok = true := by
              simp only [hid, hsame, hstatus, not_true_eq_false, if_false, Except.ok.injEq,
                Prod.mk.injEq] at h
              exact h.1
            rw [hok] at hstatus
            refine ⟨answer, rest, ?_⟩
            rw [hparse, asStr?_eq_some.mp hlabel, asStr?_eq_some.mp hid, hsame,
              asBool?_eq_some.mp hstatus]
        · simp [hid, hsame] at h
    · simp [hlabel] at h
  · simp at h
  · simp at h

theorem parseAckText_of_accepts {answer : Json} {rest : List Json}
    (h : rt.parseJson text =
      .ok (.arr (.str "OK" :: .str eventId :: .bool true :: answer :: rest))) :
    parseAckText rt text eventId = .ok (true, answer.asStr?.getD "") := by
  simp [parseAckText, h, Json.asStr?, Json.asBool?]

theorem outcome_eq_ok {out : Bool × String} :
    attempt.outcome rt relay eventId = .ok out ↔ attempt.connected = .done ∧
      attempt.sent = .done ∧ parseAckMessage rt relay eventId attempt.ack = .ok out := by
  simp only [PublishAttempt.outcome, bind_unit_eq_ok, Timed.check_eq_ok]

/-- A relay's result counts it among the accepting ones exactly when it acknowledged
the event. -/
theorem result_ok_iff :
    (attempt.result rt relay eventId).ok = true ↔ attempt.Acknowledges rt eventId := by
  constructor
  · intro h
    unfold PublishAttempt.result at h
    cases hout : attempt.outcome rt relay eventId with
    | error e => simp [hout] at h
    | ok out =>
      have htrue : out.1 = true := by simpa [hout] using h
      have hparts := outcome_eq_ok.mp hout
      refine ⟨hparts.1, hparts.2.1, ?_⟩
      cases hack : attempt.ack with
      | text text =>
        have hparse : parseAckText rt text eventId = .ok (true, out.2) := by
          have hmessage := hparts.2.2
          rw [hack] at hmessage
          rw [← htrue]
          exact hmessage
        obtain ⟨answer, rest, haccepts⟩ := parseAckText_accepts hparse
        exact ⟨text, answer, rest, rfl, haccepts⟩
      | otherFrame => simp [hack, parseAckMessage] at hparts
      | frameError e => simp [hack, parseAckMessage] at hparts
      | closed => simp [hack, parseAckMessage] at hparts
      | expired => simp [hack, parseAckMessage] at hparts
  · intro h
    obtain ⟨hconnected, hsent, text, answer, rest, hack, haccepts⟩ := h
    have hout : attempt.outcome rt relay eventId = .ok (true, answer.asStr?.getD "") := by
      refine outcome_eq_ok.mpr ⟨hconnected, hsent, ?_⟩
      rw [hack]
      exact parseAckText_of_accepts haccepts
    simp [PublishAttempt.result, hout]

theorem webhook_result_eq_ok {channel : String} {answer : WebhookAttempt}
    {result : SlackSendResult} :
    answer.result channel = .ok result ↔ answer.client = .ok () ∧
      ∃ status body, answer.sent = .ok status ∧ 200 ≤ status ∧ status < 300 ∧
        answer.body = .ok body ∧ result = ⟨channel, status, body⟩ := by
  simp only [WebhookAttempt.result, bind_unit_eq_ok]
  simp only [bind_eq_ok, withContext_eq_ok]
  constructor
  · intro h
    obtain ⟨hclient, status, hsent, body, hbody, h⟩ := h
    by_cases hsuccess : isSuccess status = true
    · have hrange : 200 ≤ status ∧ status < 300 := by simpa [isSuccess] using hsuccess
      have hsame : result = ⟨channel, status, body⟩ := by
        simpa [hsuccess, pure, Except.pure, eq_comm] using h
      exact ⟨hclient, status, body, hsent, hrange.1, hrange.2, hbody, hsame⟩
    · simp [hsuccess] at h
  · intro h
    obtain ⟨hclient, status, body, hsent, hlow, hhigh, hbody, hresult⟩ := h
    have hsuccess : isSuccess status = true := by simp [isSuccess, hlow, hhigh]
    refine ⟨hclient, status, hsent, body, hbody, ?_⟩
    rw [if_pos hsuccess, hresult]
    rfl

theorem accepted_iff {channel : String} {answer : WebhookAttempt} :
    answer.Accepted ↔ ∃ result, answer.result channel = .ok result := by
  constructor
  · intro h
    obtain ⟨hclient, status, body, hsent, hlow, hhigh, hbody⟩ := h
    exact ⟨_, webhook_result_eq_ok.mpr ⟨hclient, status, body, hsent, hlow, hhigh, hbody, rfl⟩⟩
  · intro h
    obtain ⟨result, hresult⟩ := h
    obtain ⟨hclient, status, body, hsent, hlow, hhigh, hbody, -⟩ := webhook_result_eq_ok.mp hresult
    exact ⟨hclient, status, body, hsent, hlow, hhigh, hbody⟩

end Acknowledgements

/-! ## Calls that send -/

/-- The call hands the message to somebody other than the signer. -/
def MessageOp.IsSend : MessageOp → Bool
  | .publish _ _ => true
  | .postWebhook _ _ => true
  | _ => false

/-- No run of the program sends anything. -/
def Silent {α : Type} (p : MessageProg α) : Prop := ∀ op, p.Issues op → op.IsSend = false

section Silence

variable {rt : NostrRuntime} {config : NostrSignerConfig} {α β : Type} {trace : List MessageCall}

theorem silent_bind {p : MessageProg α} {f : α → MessageProg β} (hp : Silent p)
    (hf : ∀ a, Silent (f a)) : Silent (p >>= f) := by
  intro op h
  rcases (Prog.issues_bind p f).mp h with h | ⟨a, -, h⟩
  · exact hp op h
  · exact hf a op h

theorem silent_pure (a : α) : Silent (pure a) := fun _ h => h.elim

theorem silent_fail (e : String) : Silent (Prog.fail e : MessageProg α) := fun _ h => h.elim

theorem silent_ofExcept (x : Except String α) : Silent (Prog.ofExcept x) := fun _ h =>
  ((Prog.issues_ofExcept x).mp h).elim

theorem silent_perform {op : MessageOp} (h : op.IsSend = false) :
    Silent (Prog.perform op : MessageProg op.Ans) := by
  intro issued hissued
  rw [← (Prog.issues_perform op).mp hissued]
  exact h

theorem silent_attempt {p : MessageProg α} (h : Silent p) : Silent p.attempt := fun op hissued =>
  h op ((Prog.issues_attempt p).mp hissued)

theorem Silent.calls {p : MessageProg α} {r : Except String α} (h : Silent p)
    (hrun : p.Runs trace r) : ∀ call ∈ trace, call.1.IsSend = false := by
  intro call hmem
  exact h call.1 (Prog.issues_of_runs hrun hmem)

theorem silent_enforceSecretFilePermissions (path : String) :
    Silent (enforceSecretFilePermissions path) := by
  refine silent_bind (silent_perform rfl) fun metadata =>
    silent_bind (silent_ofExcept _) fun mode => ?_
  dsimp only
  split
  · exact silent_fail _
  · exact silent_pure _

theorem silent_loadLocalSecretKey : Silent (config.loadLocalSecretKey rt) := by
  unfold NostrSignerConfig.loadLocalSecretKey
  split
  · exact silent_bind (silent_ofExcept _) fun key => silent_pure _
  · split
    · exact silent_pure _
    · refine silent_bind (silent_enforceSecretFilePermissions _) fun _ =>
        silent_bind (silent_perform rfl) fun answer =>
          silent_bind (silent_ofExcept _) fun content => ?_
      split
      · exact silent_fail _
      · exact silent_bind (silent_ofExcept _) fun key => silent_pure _

theorem silent_resolveLocalSecretKeyForPublish :
    Silent (resolveLocalSecretKeyForPublish rt config) := by
  unfold resolveLocalSecretKeyForPublish
  split
  · exact silent_ofExcept _
  · split
    · exact silent_fail _
    · refine silent_bind (silent_perform rfl) fun answer =>
        silent_bind (silent_ofExcept _) fun content => ?_
      split
      · exact silent_fail _
      · exact silent_ofExcept _

theorem silent_resolveIdentity : Silent (config.resolveIdentity rt) := by
  unfold NostrSignerConfig.resolveIdentity
  cases config.mode with
  | nip46Signer => exact silent_ofExcept _
  | localKey =>
    refine silent_bind silent_loadLocalSecretKey fun key => ?_
    cases key with
    | none => exact silent_pure _
    | some key => exact silent_bind (silent_ofExcept _) fun _ => silent_pure _

theorem silent_signWithKeys {key : SecretKey} {unsigned : UnsignedEvent} :
    Silent (signWithKeys rt key unsigned) :=
  silent_bind (silent_perform rfl) fun _ => silent_bind (silent_ofExcept _) fun _ => silent_pure _

theorem silent_sendRequest {session : SignerSession} {request : ConnectRequest} :
    Silent (sendRequestAndWaitResponse rt session request) :=
  silent_bind (silent_perform rfl) fun _ => silent_ofExcept _

theorem silent_signEventWithRelay {unsigned : UnsignedEvent} {session : SignerSession}
    {bunkerSecret : Option String} :
    Silent (signEventWithRelay rt unsigned session bunkerSecret) :=
  silent_bind (silent_perform rfl) fun _ => silent_bind (silent_ofExcept _) fun _ =>
    silent_bind (silent_perform rfl) fun _ => silent_bind (silent_ofExcept _) fun _ =>
    silent_bind silent_sendRequest fun _ => silent_bind (silent_ofExcept _) fun _ =>
    silent_bind silent_sendRequest fun _ => silent_bind (silent_ofExcept _) fun _ =>
    silent_bind (silent_perform rfl) fun _ => silent_pure _

theorem silent_signOverRelays {unsigned : UnsignedEvent} {remoteSigner : PublicKey}
    {bunkerSecret : Option String} {appKey : SecretKey} {errors relays : List String} :
    Silent (signOverRelays rt unsigned remoteSigner bunkerSecret appKey errors relays) := by
  induction relays generalizing errors with
  | nil => exact silent_fail _
  | cons relay rest ih =>
    refine silent_bind (silent_attempt silent_signEventWithRelay) fun tried => ?_
    cases tried with
    | ok signedEvent => exact silent_pure _
    | error e => exact ih

theorem silent_signEventWithBunker {unsigned : UnsignedEvent} {bunkerUri : String}
    {appSecretKey : Option String} :
    Silent (signEventWithBunker rt unsigned bunkerUri appSecretKey) := by
  unfold signEventWithBunker
  split
  · exact silent_fail _
  · exact silent_fail _
  · split
    · exact silent_fail _
    · refine silent_bind ?_ fun appKey => silent_signOverRelays
      unfold resolveAppKey
      split
      · exact silent_ofExcept _
      · exact silent_perform rfl

end Silence

/-! ## Relays -/

section Relays

variable {rt : NostrRuntime} {event : SignedEvent} {relays : List String}
  {trace : List MessageCall}

/-- The event handed to a relay, with what came back. -/
def publishCall (event : SignedEvent) (a : String × PublishAttempt) : MessageCall :=
  ⟨.publish a.1 event, a.2⟩

def relayResults (rt : NostrRuntime) (event : SignedEvent)
    (attempts : List (String × PublishAttempt)) : List RelayPublishResult :=
  attempts.map fun a => a.2.result rt a.1 event.id

def acceptedRelays (rt : NostrRuntime) (event : SignedEvent)
    (attempts : List (String × PublishAttempt)) : Nat :=
  (relayResults rt event attempts).countP (·.ok)

/-- What publishing reports for the attempts it made. -/
def ReportsAttempts (rt : NostrRuntime) (event : SignedEvent)
    (attempts : List (String × PublishAttempt)) (r : Except String NostrPublishResult) : Prop :=
  (acceptedRelays rt event attempts = 0 ∧ ∃ e, r = .error e) ∨
    (0 < acceptedRelays rt event attempts ∧
      r = .ok ⟨event.id, acceptedRelays rt event attempts, relayResults rt event attempts⟩)

/-- Every relay is tried, in order, whatever the others answered. -/
theorem publishToRelays_runs {accepted : Nat} {results : List RelayPublishResult}
    {r : Except String (Nat × List RelayPublishResult)}
    (h : (publishToRelays rt event accepted results relays).Runs trace r) :
    ∃ attempts : List (String × PublishAttempt), attempts.map Prod.fst = relays ∧
      trace = attempts.map (publishCall event) ∧
      r = .ok (accepted + acceptedRelays rt event attempts,
        results ++ relayResults rt event attempts) := by
  induction relays generalizing accepted results trace with
  | nil =>
    have hend := Prog.runs_pure_iff.mp h
    refine ⟨[], rfl, hend.1, ?_⟩
    simp [hend.2, acceptedRelays, relayResults]
  | cons relay rest ih =>
    unfold publishToRelays at h
    obtain ⟨attempt, tail, htrace, h⟩ := Prog.runs_perform_bind_iff.mp h
    obtain ⟨attempts, hrelays, htail, hr⟩ := ih h
    refine ⟨(relay, attempt) :: attempts, ?_, ?_, ?_⟩
    · rw [List.map_cons, hrelays]
    · rw [htrace, htail]
      rfl
    · rw [hr]
      cases hok : (PublishAttempt.result rt relay event.id attempt).ok with
      | true =>
        simp [acceptedRelays, relayResults, hok]
        omega
      | false => simp [acceptedRelays, relayResults, hok]

theorem publishSignedEvent_runs {r : Except String NostrPublishResult}
    (h : (publishSignedEvent rt event relays).Runs trace r) (hrelays : relays ≠ []) :
    ∃ attempts : List (String × PublishAttempt), attempts.map Prod.fst = relays ∧
      trace = attempts.map (publishCall event) ∧ ReportsAttempts rt event attempts r := by
  unfold publishSignedEvent at h
  have hsome : relays.isEmpty = false := by
    cases relays with
    | nil => exact absurd rfl hrelays
    | cons relay rest => rfl
  rw [hsome] at h
  rcases Prog.runs_bind_iff.mp h with ⟨e, -, h⟩ | ⟨counted, first, rest, htrace, h, hend⟩
  · obtain ⟨attempts, -, -, herror⟩ := publishToRelays_runs h
    cases herror
  · obtain ⟨attempts, hfst, hfirst, hcounted⟩ := publishToRelays_runs h
    have hpair : counted = (acceptedRelays rt event attempts, relayResults rt event attempts) := by
      simpa using hcounted
    rw [hpair] at hend
    dsimp only at hend
    by_cases hzero : acceptedRelays rt event attempts = 0
    · rw [if_pos hzero] at hend
      have hlast := Prog.runs_fail_iff.mp hend
      refine ⟨attempts, hfst, ?_, .inl ⟨hzero, _, hlast.2⟩⟩
      rw [htrace, hfirst, hlast.1, List.append_nil]
    · rw [if_neg hzero] at hend
      have hlast := Prog.runs_pure_iff.mp hend
      refine ⟨attempts, hfst, ?_, .inr ⟨Nat.pos_of_ne_zero hzero, hlast.2⟩⟩
      rw [htrace, hfirst, hlast.1, List.append_nil]

end Relays

/-! ## White Noise -/

/-- How an event for the relays came to be signed, in the calls before it. -/
inductive SignedNote (rt : NostrRuntime) (config : NostrSignerConfig)
    (identity : NostrSignerIdentity) (recipient : PublicKey) (content : String)
    (before : List MessageCall) : SignedEvent → Prop where
  | locally {key : SecretKey} {now : Nat} {sig : String} {reads : List MessageCall}
      (hmode : config.mode = .localKey) (hreads : reads ⊆ before)
      (hkey : (resolveLocalSecretKeyForPublish rt config).Runs reads (.ok key))
      (hsign : ⟨.sign key (rt.textNote (rt.publicKey key) recipient content now), .ok sig⟩ ∈
        before) :
      SignedNote rt config identity recipient content before
        { rt.textNote (rt.publicKey key) recipient content now with
          id := rt.eventId (rt.textNote (rt.publicKey key) recipient content now), sig := sig }
  | remotely {author : PublicKey} {now : Nat} {bunkerUri : String} {outcome : Nip46SignOutcome}
      {asked : List MessageCall} (hmode : config.mode = .nip46Signer) (hasked : asked ⊆ before)
      (hauthor : rt.parsePublicKey identity.publicKey = .ok author)
      (huri : config.nip46BunkerUri = some bunkerUri)
      (houtcome : (signEventWithBunker rt (rt.textNote author recipient content now) bunkerUri
        config.nip46ClientSecretKey).Runs asked (.ok outcome)) :
      SignedNote rt config identity recipient content before outcome.signedEvent

/-- What a delivery to White Noise does: nothing goes out and it fails, or one event is
signed for it and handed to every relay. -/
inductive NoteRun (rt : NostrRuntime) (config : SendConfig) (identity : NostrSignerIdentity)
    (target content : String) (trace : List MessageCall) (r : Except String Published) : Prop where
  | silent (e : String) (hr : r = .error e) (hcalls : ∀ call ∈ trace, call.1.IsSend = false)
  | published (before : List MessageCall) (event : SignedEvent)
      (attempts : List (String × PublishAttempt)) (recipient : PublicKey)
      (htrace : trace = before ++ attempts.map (publishCall event))
      (hbefore : ∀ call ∈ before, call.1.IsSend = false)
      (hrelays : attempts.map Prod.fst = config.nostrRelays)
      (hrecipient : rt.parsePublicKey target = .ok recipient)
      (hsigned : SignedNote rt config.nostrSigner identity recipient content before event)
      (hreport : ReportsAttempts rt event attempts (r.map Prod.fst))

section Note

variable {rt : NostrRuntime} {config : SendConfig} {identity : NostrSignerIdentity}
  {target content : String} {trace : List MessageCall}

theorem publishTextNote_runs {key : SecretKey} {r : Except String NostrPublishResult}
    (hrelays : config.nostrRelays ≠ [])
    (h : (publishTextNote rt key target content config.nostrRelays).Runs trace r) :
    ((∃ e, r = .error e) ∧ ∀ call ∈ trace, call.1.IsSend = false) ∨
    ∃ before now sig recipient attempts,
      trace = before ++ attempts.map (publishCall
        { rt.textNote (rt.publicKey key) recipient content now with
          id := rt.eventId (rt.textNote (rt.publicKey key) recipient content now), sig := sig }) ∧
      (∀ call ∈ before, call.1.IsSend = false) ∧
      ⟨.sign key (rt.textNote (rt.publicKey key) recipient content now), .ok sig⟩ ∈ before ∧
      rt.parsePublicKey target = .ok recipient ∧ attempts.map Prod.fst = config.nostrRelays ∧
      ReportsAttempts rt { rt.textNote (rt.publicKey key) recipient content now with
        id := rt.eventId (rt.textNote (rt.publicKey key) recipient content now), sig := sig }
        attempts r := by
  have hsome : config.nostrRelays.isEmpty = false := by
    cases hlist : config.nostrRelays with
    | nil => exact absurd hlist hrelays
    | cons relay rest => rfl
  unfold publishTextNote at h
  rcases Prog.runs_ofExcept_bind_iff.mp h with ⟨e, -, htrace, hr⟩ | ⟨recipient, hparse, h⟩
  · refine .inl ⟨⟨e, hr⟩, ?_⟩
    simp [htrace]
  rw [hsome, if_neg Bool.false_ne_true] at h
  obtain ⟨now, rest, htrace, h⟩ := Prog.runs_perform_bind_iff.mp h
  rcases Prog.runs_bind_iff.mp h with ⟨e, hr, hsign⟩ | ⟨signed, first, rest', hrest, hsign, h⟩
  · obtain ⟨x, hx, -⟩ := Prog.runs_attempt_iff.mp hsign
    cases hx
  obtain ⟨x, hx, hsign⟩ := Prog.runs_attempt_iff.mp hsign
  have hsame : signed = x := Except.ok.inj hx
  rw [hsame] at h
  have hquiet : ∀ call ∈ (⟨.now, now⟩ : MessageCall) :: first, call.1.IsSend = false := by
    intro call hmem
    rcases List.mem_cons.mp hmem with heq | hmem
    · rw [heq]
      rfl
    · exact silent_signWithKeys.calls hsign call hmem
  rcases Prog.runs_ofExcept_bind_iff.mp h with ⟨e, -, hrest', hr⟩ | ⟨event, hevent, h⟩
  · refine .inl ⟨⟨e, hr⟩, ?_⟩
    rw [htrace, hrest, hrest', List.append_nil]
    exact hquiet
  have hx' : x = .ok event := withContext_eq_ok.mp hevent
  rw [hx'] at hsign
  obtain ⟨attempts, hfst, hlast, hreport⟩ := publishSignedEvent_runs h hrelays
  unfold signWithKeys at hsign
  obtain ⟨answer, rest₁, hfirst, hsign⟩ := Prog.runs_perform_bind_iff.mp hsign
  rcases Prog.runs_ofExcept_bind_iff.mp hsign with ⟨e, -, -, herror⟩ | ⟨sig, hanswer, hsign⟩
  · cases herror
  have hmade := Except.ok.inj (Prog.runs_pure_iff.mp hsign).2
  rw [hmade] at hlast hreport
  refine .inr ⟨⟨.now, now⟩ :: first, now, sig, recipient, attempts, ?_, hquiet, ?_,
    withContext_eq_ok.mp hparse, hfst, hreport⟩
  · rw [htrace, hrest, hlast]
    rfl
  · rw [hfirst, hanswer]
    simp

theorem attemptWhitenoisePublish_local {r : Except String Published}
    (hrelays : config.nostrRelays ≠ []) (hmode : config.nostrSigner.mode = .localKey)
    (h : (attemptWhitenoisePublish rt config identity target content).Runs trace r) :
    NoteRun rt config identity target content trace r := by
  unfold attemptWhitenoisePublish at h
  rcases Prog.runs_ofExcept_bind_iff.mp h with ⟨e, -, htrace, hr⟩ | ⟨recipient, -, h⟩
  · exact .silent e hr (by simp [htrace])
  rw [hmode] at h
  rcases Prog.runs_bind_iff.mp h with ⟨e, hr, hkey⟩ | ⟨key, reads, rest, htrace, hkey, h⟩
  · exact .silent e hr (silent_resolveLocalSecretKeyForPublish.calls hkey)
  have hreads := silent_resolveLocalSecretKeyForPublish.calls hkey
  rcases Prog.runs_bind_iff.mp h with ⟨e, hr, hpublish⟩ | ⟨result, first, last, hrest, hpublish, h⟩
  · rcases publishTextNote_runs hrelays hpublish with
      ⟨-, hquiet⟩ | ⟨before, now, sig, recipient, attempts, hrest, hquiet, hsign, hparse, hfst,
        hreport⟩
    · refine .silent e hr fun call hmem => ?_
      rw [htrace] at hmem
      rcases List.mem_append.mp hmem with hmem | hmem
      · exact hreads call hmem
      · exact hquiet call hmem
    · refine .published (reads ++ before) _ attempts recipient ?_ ?_ hfst hparse
        (.locally hmode (List.subset_append_left _ _) hkey (List.mem_append_right _ hsign)) ?_
      · rw [htrace, hrest, List.append_assoc]
      · intro call hmem
        rcases List.mem_append.mp hmem with hmem | hmem
        · exact hreads call hmem
        · exact hquiet call hmem
      · rw [hr]
        exact hreport
  · have hend := Prog.runs_pure_iff.mp h
    rcases publishTextNote_runs hrelays hpublish with
      ⟨⟨e, herror⟩, -⟩ | ⟨before, now, sig, recipient, attempts, hfirst, hquiet, hsign, hparse,
        hfst, hreport⟩
    · cases herror
    · refine .published (reads ++ before) _ attempts recipient ?_ ?_ hfst hparse
        (.locally hmode (List.subset_append_left _ _) hkey (List.mem_append_right _ hsign)) ?_
      · rw [htrace, hrest, hfirst, hend.1, List.append_nil, List.append_assoc]
      · intro call hmem
        rcases List.mem_append.mp hmem with hmem | hmem
        · exact hreads call hmem
        · exact hquiet call hmem
      · rw [hend.2]
        exact hreport

theorem attemptWhitenoisePublish_remote {r : Except String Published}
    (hrelays : config.nostrRelays ≠ []) (hmode : config.nostrSigner.mode = .nip46Signer)
    (h : (attemptWhitenoisePublish rt config identity target content).Runs trace r) :
    NoteRun rt config identity target content trace r := by
  unfold attemptWhitenoisePublish at h
  rcases Prog.runs_ofExcept_bind_iff.mp h with ⟨e, -, htrace, hr⟩ | ⟨recipient, hparse, h⟩
  · exact .silent e hr (by simp [htrace])
  rw [hmode] at h
  rcases Prog.runs_ofExcept_bind_iff.mp h with ⟨e, -, htrace, hr⟩ | ⟨author, hauthor, h⟩
  · exact .silent e hr (by simp [htrace])
  obtain ⟨now, rest, htrace, h⟩ := Prog.runs_perform_bind_iff.mp h
  have hclock : (⟨.now, now⟩ : MessageCall).1.IsSend = false := rfl
  cases huri : config.nostrSigner.nip46BunkerUri with
  | none =>
    rw [huri] at h
    have hend := Prog.runs_fail_iff.mp h
    refine .silent _ hend.2 fun call hmem => ?_
    rw [htrace, hend.1, List.mem_singleton] at hmem
    rw [hmem]
    exact hclock
  | some bunkerUri =>
    rw [huri] at h
    have hquiet : ∀ {asked : List MessageCall} {out : Except String Nip46SignOutcome},
        (signEventWithBunker rt (rt.textNote author recipient content now) bunkerUri
          config.nostrSigner.nip46ClientSecretKey).Runs asked out →
        ∀ call ∈ (⟨.now, now⟩ : MessageCall) :: asked, call.1.IsSend = false := by
      intro asked out hasked call hmem
      rcases List.mem_cons.mp hmem with heq | hmem
      · rw [heq]
        exact hclock
      · exact silent_signEventWithBunker.calls hasked call hmem
    rcases Prog.runs_bind_iff.mp h with ⟨e, hr, hsign⟩ | ⟨outcome, asked, rest', hrest, hsign, h⟩
    · refine .silent e hr ?_
      rw [htrace]
      exact hquiet hsign
    have hsigned : SignedNote rt config.nostrSigner identity recipient content
        (⟨.now, now⟩ :: asked) outcome.signedEvent :=
      .remotely hmode (List.subset_cons_self _ _) hauthor huri hsign
    rcases Prog.runs_bind_iff.mp h with
      ⟨e, hr, hpublish⟩ | ⟨result, first, last, hrest', hpublish, h⟩
    · obtain ⟨attempts, hfst, hcalls, hreport⟩ := publishSignedEvent_runs hpublish hrelays
      refine .published (⟨.now, now⟩ :: asked) _ attempts recipient ?_ (hquiet hsign) hfst
        (withContext_eq_ok.mp hparse) hsigned ?_
      · rw [htrace, hrest, hcalls]
        rfl
      · rw [hr]
        exact hreport
    · have hend := Prog.runs_pure_iff.mp h
      obtain ⟨attempts, hfst, hcalls, hreport⟩ := publishSignedEvent_runs hpublish hrelays
      refine .published (⟨.now, now⟩ :: asked) _ attempts recipient ?_ (hquiet hsign) hfst
        (withContext_eq_ok.mp hparse) hsigned ?_
      · rw [htrace, hrest, hrest', hcalls, hend.1, List.append_nil]
        rfl
      · rw [hend.2]
        exact hreport

theorem attemptWhitenoisePublish_runs {r : Except String Published}
    (hrelays : config.nostrRelays ≠ [])
    (h : (attemptWhitenoisePublish rt config identity target content).Runs trace r) :
    NoteRun rt config identity target content trace r := by
  cases hmode : config.nostrSigner.mode with
  | localKey => exact attemptWhitenoisePublish_local hrelays hmode h
  | nip46Signer => exact attemptWhitenoisePublish_remote hrelays hmode h

end Note

/-! ## Slack -/

section Slack

variable {slack : SlackSend} {trace : List MessageCall}

/-- A post to the webhook, with what came back. -/
def SlackSend.call (slack : SlackSend) (answer : WebhookAttempt) : MessageCall :=
  ⟨.postWebhook slack.webhookUrl (slackBody slack.channel slack.content), answer⟩

def pauseCall (milliseconds : Nat) : MessageCall := ⟨.sleep milliseconds, ()⟩

/-- The failed posts of an attempt and those after it, each with the pause it earns. -/
def SlackSend.failedCalls (slack : SlackSend) : Nat → List WebhookAttempt → List MessageCall
  | _, [] => []
  | attempt, answer :: rest =>
    slack.call answer :: pauseCall (slackBackoff slack.backoff attempt) ::
      slack.failedCalls (attempt + 1) rest

/-- The errors of failed posts, in order. -/
def SlackSend.Failed (slack : SlackSend) (failures : List WebhookAttempt) (errors : List String) :
    Prop :=
  List.Forall₂ (fun answer e => WebhookAttempt.result slack.channel answer = .error e) failures
    errors

/-- A post: it ends the attempts, or what comes after a failure goes on. -/
theorem slackAttempt_runs {attempt : Nat} {failed : String → MessageProg DeliveryReport}
    {r : Except String DeliveryReport} (h : (slack.attempt attempt failed).Runs trace r) :
    ∃ answer rest, trace = slack.call answer :: rest ∧
      ((∃ result, answer.result slack.channel = .ok result ∧ rest = [] ∧
          r = .ok (slack.delivered attempt result)) ∨
        ∃ e, answer.result slack.channel = .error e ∧ (failed e).Runs rest r) := by
  unfold SlackSend.attempt at h
  obtain ⟨answer, rest, htrace, h⟩ := Prog.runs_perform_bind_iff.mp h
  refine ⟨answer, rest, htrace, ?_⟩
  cases hresult : WebhookAttempt.result slack.channel answer with
  | ok result =>
    rw [hresult] at h
    have hend := Prog.runs_pure_iff.mp h
    exact .inl ⟨result, rfl, hend.1, hend.2⟩
  | error e =>
    rw [hresult] at h
    exact .inr ⟨e, rfl, h⟩

/-- The attempts end with the first post that succeeds, or with the last one there may
be. -/
theorem slackAttempts_runs {errors : List String} {attempt left : Nat}
    {r : Except String DeliveryReport} (h : (slack.attempts errors attempt left).Runs trace r) :
    ∃ failures errs last, slack.Failed failures errs ∧
      trace = slack.failedCalls attempt failures ++ [slack.call last] ∧
      ((∃ result, last.result slack.channel = .ok result ∧ failures.length ≤ left ∧
          r = .ok (slack.delivered (attempt + failures.length) result)) ∨
        ∃ e, last.result slack.channel = .error e ∧ failures.length = left ∧
          r = .ok (slack.deadLettered (attempt + left) (errors ++ errs ++ [e]) e)) := by
  induction left generalizing errors attempt trace with
  | zero =>
    obtain ⟨answer, rest, htrace, hend⟩ := slackAttempt_runs h
    rcases hend with ⟨result, hresult, hrest, hr⟩ | ⟨e, hresult, hend⟩
    · refine ⟨[], [], answer, .nil, ?_, .inl ⟨result, hresult, Nat.le_refl 0, hr⟩⟩
      rw [htrace, hrest]
      rfl
    · have hlast := Prog.runs_pure_iff.mp hend
      refine ⟨[], [], answer, .nil, ?_, .inr ⟨e, hresult, rfl, ?_⟩⟩
      · rw [htrace, hlast.1]
        rfl
      · rw [hlast.2, List.append_nil]
        rfl
  | succ left ih =>
    obtain ⟨answer, rest, htrace, hend⟩ := slackAttempt_runs h
    rcases hend with ⟨result, hresult, hrest, hr⟩ | ⟨e, hresult, hend⟩
    · refine ⟨[], [], answer, .nil, ?_, .inl ⟨result, hresult, Nat.zero_le _, hr⟩⟩
      rw [htrace, hrest]
      rfl
    · obtain ⟨⟨⟩, rest', hrest, hmore⟩ := Prog.runs_perform_bind_iff.mp hend
      obtain ⟨failures, errs, last, hfailed, hcalls, hout⟩ := ih hmore
      refine ⟨answer :: failures, e :: errs, last, .cons hresult hfailed, ?_, ?_⟩
      · rw [htrace, hrest, hcalls]
        rfl
      · have hcount : attempt + (failures.length + 1) = attempt + 1 + failures.length := by omega
        rcases hout with ⟨result, hlast, hle, hr⟩ | ⟨e', hlast, hlen, hr⟩
        · refine .inl ⟨result, hlast, ?_, ?_⟩
          · rw [List.length_cons]
            omega
          · rw [hr, List.length_cons, hcount]
        · refine .inr ⟨e', hlast, ?_, ?_⟩
          · rw [List.length_cons, hlen]
          · have htotal : attempt + (left + 1) = attempt + 1 + left := by omega
            rw [hr, htotal]
            simp

/-- The pauses of a run, in milliseconds. -/
def pauses (trace : List MessageCall) : List Nat :=
  trace.filterMap fun call =>
    match call.1 with
    | .sleep milliseconds => some milliseconds
    | _ => none

theorem pauses_failedCalls (attempt : Nat) (failures : List WebhookAttempt) :
    pauses (slack.failedCalls attempt failures) =
      (List.range failures.length).map fun i => slackBackoff slack.backoff (attempt + i) := by
  induction failures generalizing attempt with
  | nil => rfl
  | cons answer rest ih =>
    have hrest := ih (attempt + 1)
    have hcalls : pauses (slack.failedCalls attempt (answer :: rest)) =
        slackBackoff slack.backoff attempt :: pauses (slack.failedCalls (attempt + 1) rest) := rfl
    rw [hcalls, hrest, List.length_cons, List.range_succ_eq_map, List.map_cons, List.map_map]
    congr 1
    refine List.map_congr_left fun i _ => ?_
    have hsame : attempt + 1 + i = attempt + (i + 1) := by omega
    rw [hsame]
    rfl

end Slack

/-- A message to Slack is posted until a post succeeds, at most as often as configured and
at least once; each failure but the last there may be is followed by its pause, and these
double six times.  It is dead-lettered exactly when every post there may be has failed,
with all their errors. -/
theorem slack_retries (config : SendConfig) (webhookUrl channel content : String)
    (trace : List MessageCall) (r : Except String DeliveryReport)
    (hurl : config.slackWebhookUrl = some webhookUrl)
    (hrun : (attemptSlackSend config channel content).Runs trace r) :
    ∃ (failures : List WebhookAttempt) (errors : List String) (last : WebhookAttempt),
      (config.slackSend webhookUrl channel content).Failed failures errors ∧
      trace = (config.slackSend webhookUrl channel content).failedCalls 1 failures ++
        [(config.slackSend webhookUrl channel content).call last] ∧
      pauses trace = (List.range failures.length).map (fun i =>
        min (config.slackRetryBackoff.toNat * 2 ^ min i 6) (2 ^ 64 - 1)) ∧
      ((∃ result, last.result channel = .ok result ∧
          failures.length + 1 ≤ max config.slackMaxAttempts.toNat 1 ∧
          r = .ok ((config.slackSend webhookUrl channel content).delivered (failures.length + 1)
            result)) ∨
        ∃ e, last.result channel = .error e ∧
          failures.length + 1 = max config.slackMaxAttempts.toNat 1 ∧
          r = .ok ((config.slackSend webhookUrl channel content).deadLettered
            (failures.length + 1) (errors ++ [e]) e)) := by
  unfold attemptSlackSend at hrun
  rw [hurl] at hrun
  obtain ⟨failures, errs, last, hfailed, htrace, hout⟩ := slackAttempts_runs hrun
  have hpost : 1 ≤ max config.slackMaxAttempts.toNat 1 := Nat.le_max_right _ _
  have hmax : (config.slackSend webhookUrl channel content).maxAttempts =
    max config.slackMaxAttempts.toNat 1 := rfl
  rw [hmax] at hout
  refine ⟨failures, errs, last, hfailed, htrace, ?_, ?_⟩
  · have hnone : pauses [(config.slackSend webhookUrl channel content).call last] = [] := rfl
    have happend : ∀ before after : List MessageCall,
        pauses (before ++ after) = pauses before ++ pauses after :=
      fun before after => List.filterMap_append
    rw [htrace, happend, hnone, List.append_nil, pauses_failedCalls]
    refine List.map_congr_left fun i _ => ?_
    have hexponent : 1 + i - 1 = i := by omega
    show min (config.slackRetryBackoff.toNat * 2 ^ min (1 + i - 1) 6) _ = _
    rw [hexponent]
  · rcases hout with ⟨result, hok, hle, hr⟩ | ⟨e, herror, hlen, hr⟩
    · refine .inl ⟨result, hok, by omega, ?_⟩
      rw [hr, Nat.add_comm 1]
    · have hcount : 1 + (max config.slackMaxAttempts.toNat 1 - 1) = failures.length + 1 := by omega
      refine .inr ⟨e, herror, by omega, ?_⟩
      rw [hr, hcount, List.nil_append]

/-! ## A post that fails once -/

def retryConfig : SendConfig where
  nostrSigner := {}
  nostrRelays := []
  slackWebhookUrl := some "https://hooks.example/T"
  slackMaxAttempts := 3
  slackRetryBackoff := 500

def unavailable : WebhookAttempt := ⟨.ok (), .none, .ok 503, .ok "busy"⟩

def accepted : WebhookAttempt := ⟨.ok (), .none, .ok 200, .ok "ok"⟩

def retriedCalls : List MessageCall :=
  [⟨.postWebhook "https://hooks.example/T" (slackBody "C1" "hello"), unavailable⟩, pauseCall 500,
    ⟨.postWebhook "https://hooks.example/T" (slackBody "C1" "hello"), accepted⟩]

theorem retried_runs : (attemptSlackSend retryConfig "C1" "hello").Runs retriedCalls
    (.ok ((retryConfig.slackSend "https://hooks.example/T" "C1" "hello").delivered 2
      ⟨"C1", 200, "ok"⟩)) := by
  refine Prog.runs_perform_bind_iff.mpr ⟨unavailable, _, rfl, ?_⟩
  refine Prog.runs_perform_bind_iff.mpr ⟨(), _, rfl, ?_⟩
  refine Prog.runs_perform_bind_iff.mpr ⟨accepted, _, rfl, ?_⟩
  exact Prog.runs_pure_iff.mpr ⟨rfl, rfl⟩

/-- One failure, its pause, and the second post is the last. -/
theorem retried_once : ∃ failure last,
    retriedCalls =
      [(retryConfig.slackSend "https://hooks.example/T" "C1" "hello").call failure, pauseCall 500,
        (retryConfig.slackSend "https://hooks.example/T" "C1" "hello").call last] := by
  obtain ⟨failures, errors, last, -, htrace, -, -⟩ :=
    slack_retries retryConfig "https://hooks.example/T" "C1" "hello" _ _ rfl retried_runs
  cases failures with
  | nil => cases htrace
  | cons failure rest =>
    cases rest with
    | nil => exact ⟨failure, last, htrace⟩
    | cons second rest =>
      have hlength := congrArg List.length htrace
      simp [retriedCalls, SlackSend.failedCalls] at hlength

end Message
end SecureAgnt

/-
What a message's outbox record says, and whom the message reached.

The record calls a message delivered exactly when a relay or the webhook acknowledged
it, and nothing is handed to anybody but the relays and the webhook of the
configuration.
-/
import SecureAgnt.Lib.JsonText
import SecureAgnt.Message.Published
import SecureAgnt.Worker.ScopedArgument

namespace SecureAgnt
namespace Message

open Worker (MessageProvider MessageDelivery ParsedMessageDestination ArtifactConfig ArtifactEnv
  RunLeaseRecord Written)

/-! ## One delivery -/

/-- The other side took the message. -/
def Acknowledged (rt : NostrRuntime) : MessageCall → Prop
  | ⟨.publish _ event, attempt⟩ => PublishAttempt.Acknowledges rt event.id attempt
  | ⟨.postWebhook _ _, answer⟩ => WebhookAttempt.Accepted answer
  | _ => False

/-- The record calls the message delivered. -/
def IsDelivered (state : String) : Prop := state = "published_nostr" ∨ state = "delivered_slack"

/-- A report agrees with what the relays and the webhook answered; where the message was
published, it has every relay's answer, in order, and the number of those that took
it. -/
structure DeliveryReport.Agrees (rt : NostrRuntime) (config : SendConfig)
    (trace : List MessageCall) (report : DeliveryReport) : Prop where
  delivered_iff : IsDelivered report.state ↔ ∃ call ∈ trace, Acknowledged rt call
  published : report.state = "published_nostr" → ∃ event attempts,
    trace.filter (fun call => call.1.IsSend) = attempts.map (publishCall event) ∧
    attempts.map Prod.fst = config.nostrRelays ∧
    report.result = NostrPublishResult.toJson
      ⟨event.id, acceptedRelays rt event attempts, relayResults rt event attempts⟩

section Delivery

variable {rt : NostrRuntime} {config : SendConfig} {identity : NostrSignerIdentity}
  {target content : String} {trace : List MessageCall}

theorem not_acknowledged_of_silent {call : MessageCall} (h : call.1.IsSend = false) :
    ¬ Acknowledged rt call := by
  obtain ⟨op, answer⟩ := call
  cases op with
  | publish relay event => exact absurd h (by simp [MessageOp.IsSend])
  | postWebhook url body => exact absurd h (by simp [MessageOp.IsSend])
  | _ => exact fun hack => hack

theorem acknowledged_publishCall {event : SignedEvent} {a : String × PublishAttempt} :
    Acknowledged rt (publishCall event a) ↔ (a.2.result rt a.1 event.id).ok = true :=
  result_ok_iff.symm

/-- Some relay accepted the event exactly when the count of those that did is not
zero. -/
theorem acceptedRelays_pos_iff {event : SignedEvent} {attempts : List (String × PublishAttempt)} :
    0 < acceptedRelays rt event attempts ↔
      ∃ call ∈ attempts.map (publishCall event), Acknowledged rt call := by
  unfold acceptedRelays relayResults
  rw [List.countP_map, List.countP_pos_iff]
  constructor
  · intro h
    obtain ⟨a, hmem, hok⟩ := h
    exact ⟨_, List.mem_map_of_mem hmem, acknowledged_publishCall.mpr hok⟩
  · intro h
    obtain ⟨call, hmem, hack⟩ := h
    obtain ⟨a, ha, hcall⟩ := List.mem_map.mp hmem
    rw [← hcall] at hack
    exact ⟨a, ha, acknowledged_publishCall.mp hack⟩

theorem agrees_of_silent {report : DeliveryReport} (hstate : ¬ IsDelivered report.state)
    (hcalls : ∀ call ∈ trace, call.1.IsSend = false) : report.Agrees rt config trace where
  delivered_iff := by
    constructor
    · exact fun h => absurd h hstate
    · intro h
      obtain ⟨call, hmem, hack⟩ := h
      exact absurd hack (not_acknowledged_of_silent (hcalls call hmem))
  published h := absurd (.inl h) hstate

/-- Calls before a delivery that send nothing leave its report as it is. -/
theorem DeliveryReport.Agrees.after {before : List MessageCall} {report : DeliveryReport}
    (h : report.Agrees rt config trace) (hbefore : ∀ call ∈ before, call.1.IsSend = false) :
    report.Agrees rt config (before ++ trace) where
  delivered_iff := by
    rw [h.delivered_iff]
    constructor
    · intro hex
      obtain ⟨call, hmem, hack⟩ := hex
      exact ⟨call, List.mem_append_right _ hmem, hack⟩
    · intro hex
      obtain ⟨call, hmem, hack⟩ := hex
      rcases List.mem_append.mp hmem with hmem | hmem
      · exact absurd hack (not_acknowledged_of_silent (hbefore call hmem))
      · exact ⟨call, hmem, hack⟩
  published hstate := by
    obtain ⟨event, attempts, hsends, hrelays, hresult⟩ := h.published hstate
    have hnone : before.filter (fun call => call.1.IsSend) = [] := by
      rw [List.filter_eq_nil_iff]
      intro call hmem
      rw [hbefore call hmem]
      exact Bool.false_ne_true
    refine ⟨event, attempts, ?_, hrelays, hresult⟩
    rw [List.filter_append, hnone, List.nil_append, hsends]

/-- What is reported of a note, from how publishing it ended. -/
def noteReport : Except String Published → DeliveryReport
  | .ok (result, context) => ⟨"published_nostr", result.toJson, .null, orNull id context⟩
  | .error e => ⟨"queued_local_outbox", .null, .str e, .null⟩

theorem not_delivered_queued : ¬ IsDelivered "queued_local_outbox" := by
  unfold IsDelivered
  decide

theorem not_delivered_deadLettered : ¬ IsDelivered "dead_lettered_local_outbox" := by
  unfold IsDelivered
  decide

theorem filter_publishCalls {event : SignedEvent} (attempts : List (String × PublishAttempt)) :
    (attempts.map (publishCall event)).filter (fun call => call.1.IsSend) =
      attempts.map (publishCall event) := by
  rw [List.filter_eq_self]
  intro call hmem
  obtain ⟨a, -, hcall⟩ := List.mem_map.mp hmem
  rw [← hcall]
  rfl

theorem NoteRun.agrees {x : Except String Published}
    (h : NoteRun rt config identity target content trace x) :
    (noteReport x).Agrees rt config trace := by
  cases h with
  | silent e hr hcalls =>
    rw [hr]
    exact agrees_of_silent not_delivered_queued hcalls
  | published before event attempts recipient htrace hbefore hrelays hrecipient hsigned hreport =>
    rw [htrace]
    refine DeliveryReport.Agrees.after ?_ hbefore
    rcases hreport with ⟨hzero, e, hr⟩ | ⟨hpos, hr⟩
    · cases x with
      | ok p => cases hr
      | error e' =>
        refine ⟨⟨fun hstate => absurd hstate not_delivered_queued, fun hex => ?_⟩,
          fun hstate => absurd (.inl hstate) not_delivered_queued⟩
        have hpos := acceptedRelays_pos_iff.mpr hex
        omega
    · cases x with
      | error e' => cases hr
      | ok p =>
        obtain ⟨result, context⟩ := p
        have hresult : result = _ := Except.ok.inj hr
        refine ⟨⟨fun _ => acceptedRelays_pos_iff.mp hpos, fun _ => .inl rfl⟩, fun _ => ?_⟩
        refine ⟨event, attempts, filter_publishCalls attempts, hrelays, ?_⟩
        rw [← hresult]
        rfl

theorem deliverWhitenoise_runs {r : Except String DeliveryReport}
    (h : (deliverWhitenoise rt config identity target content).Runs trace r) :
    (trace = [] ∧ ∃ context, r = .ok ⟨"queued_local_outbox", .null, .null, context⟩) ∨
      ∃ x, NoteRun rt config identity target content trace x ∧ r = .ok (noteReport x) := by
  unfold deliverWhitenoise at h
  by_cases hrelays : config.nostrRelays = []
  · rw [hrelays] at h
    have hend := Prog.runs_pure_iff.mp h
    exact .inl ⟨hend.1, _, hend.2⟩
  · have hsome : config.nostrRelays.isEmpty = false := by
      cases hlist : config.nostrRelays with
      | nil => exact absurd hlist hrelays
      | cons relay rest => rfl
    rw [hsome, if_neg Bool.false_ne_true] at h
    rcases Prog.runs_bind_iff.mp h with ⟨e, -, hnote⟩ | ⟨tried, first, last, htrace, hnote, h⟩
    · obtain ⟨x, hx, -⟩ := Prog.runs_attempt_iff.mp hnote
      cases hx
    obtain ⟨x, hx, hnote⟩ := Prog.runs_attempt_iff.mp hnote
    have hsame : tried = x := Except.ok.inj hx
    rw [hsame] at h
    have hrun := attemptWhitenoisePublish_runs hrelays hnote
    refine .inr ⟨x, ?_⟩
    cases x with
    | ok p =>
      have hend := Prog.runs_pure_iff.mp h
      rw [htrace, hend.1, List.append_nil]
      exact ⟨hrun, hend.2⟩
    | error e =>
      have hend := Prog.runs_pure_iff.mp h
      rw [htrace, hend.1, List.append_nil]
      exact ⟨hrun, hend.2⟩

/-! ### Slack -/

theorem acknowledged_call {slack : SlackSend} {answer : WebhookAttempt} :
    Acknowledged rt (slack.call answer) ↔ ∃ result, answer.result slack.channel = .ok result :=
  accepted_iff

theorem not_acknowledged_of_failed {slack : SlackSend} {failures : List WebhookAttempt}
    {errors : List String} (h : slack.Failed failures errors) (attempt : Nat) :
    ∀ call ∈ slack.failedCalls attempt failures, ¬ Acknowledged rt call := by
  induction h generalizing attempt with
  | nil => simp [SlackSend.failedCalls]
  | cons hresult _ ih =>
    intro call hmem hack
    rcases List.mem_cons.mp hmem with heq | hmem
    · rw [heq] at hack
      obtain ⟨result, hok⟩ := acknowledged_call.mp hack
      rw [hresult] at hok
      cases hok
    · rcases List.mem_cons.mp hmem with heq | hmem
      · rw [heq] at hack
        exact hack
      · exact ih (attempt + 1) call hmem hack

theorem attemptSlackSend_agrees {channel : String} {r : Except String DeliveryReport}
    (h : (attemptSlackSend config channel content).Runs trace r) :
    ∃ report, r = .ok report ∧ report.Agrees rt config trace := by
  unfold attemptSlackSend at h
  split at h
  · have hend := Prog.runs_pure_iff.mp h
    refine ⟨_, hend.2, agrees_of_silent not_delivered_queued ?_⟩
    rw [hend.1]
    exact fun call hmem => absurd hmem List.not_mem_nil
  · obtain ⟨failures, errs, last, hfailed, htrace, hout⟩ := slackAttempts_runs h
    have hposted : ¬ "delivered_slack" = "published_nostr" := by decide
    rcases hout with ⟨result, hlast, -, hr⟩ | ⟨e, hlast, -, hr⟩
    · refine ⟨_, hr, ⟨fun _ => ?_, fun _ => .inr rfl⟩, fun hstate => absurd hstate hposted⟩
      refine ⟨_, ?_, acknowledged_call.mpr ⟨result, hlast⟩⟩
      rw [htrace]
      exact List.mem_append_right _ (List.mem_singleton_self _)
    · refine ⟨_, hr, ⟨fun hstate => absurd hstate not_delivered_deadLettered, fun hex => ?_⟩,
        fun hstate => absurd (.inl hstate) not_delivered_deadLettered⟩
      obtain ⟨call, hmem, hack⟩ := hex
      rw [htrace] at hmem
      rcases List.mem_append.mp hmem with hmem | hmem
      · exact absurd hack (not_acknowledged_of_failed hfailed 1 call hmem)
      · rw [List.mem_singleton.mp hmem] at hack
        obtain ⟨result, hok⟩ := acknowledged_call.mp hack
        rw [hlast] at hok
        cases hok

/-! ### Either provider -/

/-- The identity is settled before anything is sent, and the report is the delivery's. -/
theorem deliverMessage_runs {provider : MessageProvider} {r : Except String MessageDelivery}
    (h : (deliverMessage rt config target content provider).Runs trace r) :
    ((∃ e, r = .error e) ∧ ∀ call ∈ trace, call.1.IsSend = false) ∨
    ∃ (report : DeliveryReport) (identity : Option NostrSignerIdentity),
      r = .ok (report.delivery identity) ∧ report.Agrees rt config trace := by
  cases provider with
  | slack =>
    rcases Prog.runs_bind_iff.mp h with ⟨e, -, hsend⟩ | ⟨given, first, last, htrace, hsend, h⟩
    · obtain ⟨report, hr, -⟩ := @attemptSlackSend_agrees rt config content trace target _ hsend
      cases hr
    · obtain ⟨report, hr, hagrees⟩ := attemptSlackSend_agrees hsend
      have hsame : given = report := Except.ok.inj hr
      have hend := Prog.runs_pure_iff.mp h
      refine .inr ⟨report, none, ?_, ?_⟩
      · rw [hend.2, hsame]
      · rw [htrace, hend.1, List.append_nil]
        exact hagrees
  | whiteNoise =>
    rcases Prog.runs_bind_iff.mp h with ⟨e, hr, hident⟩ | ⟨found, first, rest, htrace, hident, h⟩
    · exact .inl ⟨⟨e, hr⟩, silent_resolveIdentity.calls hident⟩
    have hsilent := silent_resolveIdentity.calls hident
    cases found with
    | none =>
      have hend := Prog.runs_fail_iff.mp h
      refine .inl ⟨⟨_, hend.2⟩, ?_⟩
      rw [htrace, hend.1, List.append_nil]
      exact hsilent
    | some identity =>
      rcases Prog.runs_bind_iff.mp h with ⟨e, -, hsend⟩ | ⟨given, calls, last, hrest, hsend, h⟩
      · rcases deliverWhitenoise_runs hsend with ⟨-, context, hr⟩ | ⟨x, -, hr⟩
        · cases hr
        · cases hr
      have hend := Prog.runs_pure_iff.mp h
      have hcalls : trace = first ++ calls := by
        rw [htrace, hrest, hend.1, List.append_nil]
      refine .inr ⟨given, some identity, hend.2, ?_⟩
      rw [hcalls]
      refine DeliveryReport.Agrees.after ?_ hsilent
      rcases deliverWhitenoise_runs hsend with ⟨hnone, context, hr⟩ | ⟨x, hnote, hr⟩
      · have hgiven := Except.ok.inj hr
        rw [hgiven, hnone]
        exact agrees_of_silent not_delivered_queued fun call hmem => absurd hmem List.not_mem_nil
      · have hgiven := Except.ok.inj hr
        rw [hgiven]
        exact hnote.agrees

end Delivery

/-! ## Whom a message reaches -/

/-- How the event of a note for a recipient was signed. -/
inductive NoteSent (rt : NostrRuntime) (config : NostrSignerConfig) (trace : List MessageCall)
    (recipient : PublicKey) (content : String) : SignedEvent → Prop where
  | locally {key : SecretKey} {now : Nat} {sig : String} {reads : List MessageCall}
      (hmode : config.mode = .localKey) (hreads : reads ⊆ trace)
      (hkey : (resolveLocalSecretKeyForPublish rt config).Runs reads (.ok key))
      (hsign : ⟨.sign key (rt.textNote (rt.publicKey key) recipient content now), .ok sig⟩ ∈
        trace) :
      NoteSent rt config trace recipient content
        { rt.textNote (rt.publicKey key) recipient content now with
          id := rt.eventId (rt.textNote (rt.publicKey key) recipient content now), sig := sig }
  /-- The signer's answer to the request for a note under the configured identity. -/
  | remotely {event : SignedEvent} {identity : NostrSignerIdentity} {author : PublicKey} {now : Nat}
      {bunkerUri : String} {remoteSigner : PublicKey} {relays : List String}
      {secret : Option String} {appKey : SecretKey} (hmode : config.mode = .nip46Signer)
      (hidentity : config.resolveNip46Identity rt = .ok (some identity))
      (hauthor : rt.parsePublicKey identity.publicKey = .ok author)
      (huri : config.nip46BunkerUri = some bunkerUri)
      (hbunker : rt.parseConnectUri bunkerUri = .ok (.bunker remoteSigner relays secret))
      (hkey : UsesKey rt config.nip46ClientSecretKey appKey trace)
      (hanswer : ∀ history : SignerHistory rt remoteSigner appKey, history.Covers trace →
        ∃ reply ∈ history.replies,
          reply.request = .signEvent (rt.textNote author recipient content now) ∧
          reply.Signs rt event) :
      NoteSent rt config trace recipient content event

/-- A call that sends the content where the configuration says the destination is.  `redirects`
says which URL is redirected where with the body of a post. -/
inductive ConfinedSend (rt : NostrRuntime) (redirects : String → String → Prop)
    (config : SendConfig) (trace : List MessageCall) (target content : String) :
    MessageProvider → MessageCall → Prop where
  | publish {relay : String} {event : SignedEvent} {attempt : PublishAttempt}
      {recipient : PublicKey} (hrelay : relay ∈ config.nostrRelays)
      (hrecipient : rt.parsePublicKey target = .ok recipient)
      (hnote : NoteSent rt config.nostrSigner trace recipient content event) :
      ConfinedSend rt redirects config trace target content .whiteNoise
        ⟨.publish relay event, attempt⟩
  | post {webhookUrl : String} {answer : WebhookAttempt}
      (hurl : config.slackWebhookUrl = some webhookUrl)
      (hreached : ∀ receiver ∈ answer.redirects.receivers webhookUrl,
        Relation.ReflTransGen redirects webhookUrl receiver) :
      ConfinedSend rt redirects config trace target content .slack
        ⟨.postWebhook webhookUrl (slackBody target content), answer⟩

/-- The servers redirect the posts of a run as `redirects` says. -/
def RedirectedAlong (redirects : String → String → Prop) (trace : List MessageCall) : Prop :=
  ∀ url body, ∀ answer : WebhookAttempt, ⟨.postWebhook url body, answer⟩ ∈ trace →
    answer.redirects.Along redirects url

section Sends

variable {rt : NostrRuntime} {redirects : String → String → Prop} {config : SendConfig}
  {identity : NostrSignerIdentity} {target content : String} {trace : List MessageCall}
  {call : MessageCall}

theorem send_of_failedCalls {slack : SlackSend} {failures : List WebhookAttempt} {attempt : Nat}
    (hmem : call ∈ slack.failedCalls attempt failures) (hsend : call.1.IsSend = true) :
    ∃ answer, call = slack.call answer := by
  induction failures generalizing attempt with
  | nil => exact absurd hmem List.not_mem_nil
  | cons answer rest ih =>
    rcases List.mem_cons.mp hmem with heq | hmem
    · exact ⟨answer, heq⟩
    · rcases List.mem_cons.mp hmem with heq | hmem
      · rw [heq] at hsend
        cases hsend
      · exact ih hmem

theorem attemptSlackSend_sends {r : Except String DeliveryReport}
    (h : (attemptSlackSend config target content).Runs trace r) (hmem : call ∈ trace)
    (hsend : call.1.IsSend = true) (halong : RedirectedAlong redirects trace)
    {calls : List MessageCall} :
    ConfinedSend rt redirects config calls target content .slack call := by
  unfold attemptSlackSend at h
  cases hurl : config.slackWebhookUrl with
  | none =>
    rw [hurl] at h
    rw [(Prog.runs_pure_iff.mp h).1] at hmem
    exact absurd hmem List.not_mem_nil
  | some webhookUrl =>
    rw [hurl] at h
    obtain ⟨failures, errs, last, -, htrace, -⟩ := slackAttempts_runs h
    have hpost : ∃ answer,
        call = (config.slackSend webhookUrl target content).call answer := by
      rw [htrace] at hmem
      rcases List.mem_append.mp hmem with hmem | hmem
      · exact send_of_failedCalls hmem hsend
      · exact ⟨last, List.mem_singleton.mp hmem⟩
    obtain ⟨answer, rfl⟩ := hpost
    exact .post hurl (halong _ _ answer hmem).reached

/-- What was signed for a note, as far as the configuration determines it. -/
theorem SignedNote.sent {recipient : PublicKey} {before : List MessageCall} {event : SignedEvent}
    {found : List MessageCall}
    (h : SignedNote rt config.nostrSigner identity recipient content before event)
    (hbefore : before ⊆ trace)
    (hidentity : (config.nostrSigner.resolveIdentity rt).Runs found (.ok (some identity))) :
    NoteSent rt config.nostrSigner trace recipient content event := by
  cases h with
  | locally hmode hreads hkey hsign =>
    exact .locally hmode (List.Subset.trans hreads hbefore) hkey (hbefore hsign)
  | @remotely author now bunkerUri outcome asked hmode hasked hauthor huri houtcome =>
    obtain ⟨remoteSigner, relays, secret, appKey, calls, hbunker, -, -, hkey, hcalls, hruns⟩ :=
      signEventWithBunker_runs_ok houtcome
    have hin : asked ⊆ trace := List.Subset.trans hasked hbefore
    obtain ⟨drawn, hdrawn, hresolved⟩ := hkey
    have hnip46 : config.nostrSigner.resolveNip46Identity rt = .ok (some identity) := by
      unfold NostrSignerConfig.resolveIdentity at hidentity
      rw [hmode] at hidentity
      exact (Prog.runs_ofExcept_iff.mp hidentity).2.symm
    have hanswer : ∀ history : SignerHistory rt remoteSigner appKey, history.Covers trace →
        ∃ reply ∈ history.replies,
          reply.request = .signEvent (rt.textNote author recipient content now) ∧
          reply.Signs rt outcome.signedEvent := by
      intro history hcovers
      exact (exists_signature hruns history fun relay request exchange hmem =>
        hcovers relay request exchange (hin (hcalls hmem))).2
    exact .remotely hmode hnip46 hauthor huri hbunker
      ⟨drawn, List.Subset.trans hdrawn hin, hresolved⟩ hanswer

theorem deliverWhitenoise_sends {r : Except String DeliveryReport} {found before : List MessageCall}
    (hidentity : (config.nostrSigner.resolveIdentity rt).Runs found (.ok (some identity)))
    (h : (deliverWhitenoise rt config identity target content).Runs before r)
    (hbefore : before ⊆ trace) (hmem : call ∈ before) (hsend : call.1.IsSend = true) :
    ConfinedSend rt redirects config trace target content .whiteNoise call := by
  rcases deliverWhitenoise_runs h with ⟨hnone, -⟩ | ⟨x, hnote, -⟩
  · rw [hnone] at hmem
    exact absurd hmem List.not_mem_nil
  · cases hnote with
    | silent e hr hcalls =>
      rw [hcalls call hmem] at hsend
      cases hsend
    | published first event attempts recipient htrace hfirst hrelays hrecipient hsigned hreport =>
      rw [htrace] at hmem hbefore
      rcases List.mem_append.mp hmem with hmem | hmem
      · rw [hfirst call hmem] at hsend
        cases hsend
      · obtain ⟨a, ha, hcall⟩ := List.mem_map.mp hmem
        rw [← hcall]
        have hrelay : a.1 ∈ config.nostrRelays := by
          rw [← hrelays]
          exact List.mem_map_of_mem ha
        have hsubset : first ⊆ trace := fun c hc => hbefore (List.mem_append_left _ hc)
        exact .publish hrelay hrecipient (hsigned.sent hsubset hidentity)

theorem deliverMessage_sends {provider : MessageProvider} {r : Except String MessageDelivery}
    (h : (deliverMessage rt config target content provider).Runs trace r) (hmem : call ∈ trace)
    (hsend : call.1.IsSend = true) (halong : RedirectedAlong redirects trace) :
    ConfinedSend rt redirects config trace target content provider call := by
  cases provider with
  | slack =>
    rcases Prog.runs_bind_iff.mp h with ⟨e, -, hrun⟩ | ⟨given, first, last, htrace, hrun, h⟩
    · exact attemptSlackSend_sends hrun hmem hsend halong
    · rw [htrace, (Prog.runs_pure_iff.mp h).1, List.append_nil] at hmem halong
      exact attemptSlackSend_sends hrun hmem hsend halong
  | whiteNoise =>
    rcases Prog.runs_bind_iff.mp h with ⟨e, -, hident⟩ | ⟨found, first, rest, htrace, hident, h⟩
    · rw [silent_resolveIdentity.calls hident call hmem] at hsend
      cases hsend
    have hlater : call ∈ rest := by
      rw [htrace] at hmem
      rcases List.mem_append.mp hmem with hmem | hmem
      · rw [silent_resolveIdentity.calls hident call hmem] at hsend
        cases hsend
      · exact hmem
    have hrest : rest ⊆ trace := by
      rw [htrace]
      exact List.subset_append_right _ _
    cases found with
    | none =>
      rw [(Prog.runs_fail_iff.mp h).1] at hlater
      exact absurd hlater List.not_mem_nil
    | some identity =>
      rcases Prog.runs_bind_iff.mp h with ⟨e, -, hrun⟩ | ⟨given, calls, last, hcalls, hrun, h⟩
      · exact deliverWhitenoise_sends hident hrun hrest hlater hsend
      · have hall : rest = calls := by
          rw [hcalls, (Prog.runs_pure_iff.mp h).1, List.append_nil]
        rw [hall] at hrest hlater
        exact deliverWhitenoise_sends hident hrun hrest hlater hsend

/-- A destination that passes the allowlist of its provider. -/
def Allowed (config : ArtifactConfig) (destination : ParsedMessageDestination) : Prop :=
  config.allowlist destination.provider = [] ∨
    ∃ candidate ∈ config.allowlist destination.provider,
      Text.trim candidate = Text.trim destination.target

theorem allowed_of_messageToSend {artifacts : ArtifactConfig} {lastLlmResponseText : Option String}
    {args : Json} {destination : ParsedMessageDestination}
    (h : messageToSend artifacts lastLlmResponseText args = .ok (destination, content)) :
    Allowed artifacts destination := by
  unfold messageToSend at h
  split at h
  · cases h
  · cases h
  · obtain ⟨resolved, -, h⟩ := bind_eq_ok.mp h
    obtain ⟨parsed, -, h⟩ := bind_eq_ok.mp h
    obtain ⟨hallowed, h⟩ := bind_unit_eq_ok.mp h
    have hsame : parsed = destination := by
      have hpair := Except.ok.inj h
      exact congrArg Prod.fst hpair
    rw [hsame] at hallowed
    unfold Worker.enforceMessageDestinationAllowlist at hallowed
    dsimp only at hallowed
    split at hallowed
    · next hcond =>
      rcases (Bool.or_eq_true _ _).mp hcond with hempty | hany
      · exact .inl (List.isEmpty_iff.mp hempty)
      · obtain ⟨candidate, hmem, htrim⟩ := List.any_eq_true.mp hany
        exact .inr ⟨candidate, hmem, beq_iff_eq.mp htrim⟩
    · cases hallowed

end Sends

/-! ## The outbox record -/

/-- The outbox file holds the delivery's state, its result, its error and its context. -/
def Records (env : ArtifactEnv) (written : Written) (report : DeliveryReport) : Prop :=
  ∃ fields, written.content = env.toPretty (.obj (fields ++
    [("delivery_state", .str report.state), ("delivery_result", report.result),
      ("delivery_error", report.error), ("delivery_context", report.context)]))

section Record

variable {rt : NostrRuntime} {sendConfig : SendConfig} {env : ArtifactEnv} {config : ArtifactConfig}
  {run : RunLeaseRecord} {lastLlmResponseText : Option String} {args : Json}
  {fileId artifactId : Uuid} {trace : List MessageCall}

theorem records_delivery {report : DeliveryReport} {identity : Option NostrSignerIdentity}
    {written : Written}
    (h : Worker.executeMessageSendAction
      { env with deliver := fun _ _ _ => .ok (report.delivery identity) } config run
      lastLlmResponseText args fileId artifactId = .ok written) :
    Records env written report := by
  unfold Worker.executeMessageSendAction at h
  split at h
  · cases h
  · cases h
  · split at h
    · cases h
    · split at h
      · cases h
      · split at h
        · cases h
        · dsimp only at h
          have hcontent := Worker.content_of_writeArtifact h
          exact ⟨[_, _, _, _, _, _], hcontent⟩

/-- The message that is sent, and the record of its delivery. -/
theorem executeMessageSend_runs {r : Except String Written}
    (h : (executeMessageSend rt sendConfig env config run lastLlmResponseText args fileId
      artifactId).Runs trace r) :
    (trace = [] ∧ ∃ e, r = .error e) ∨
    ∃ destination content out,
      messageToSend config lastLlmResponseText args = .ok (destination, content) ∧
      (deliverMessage rt sendConfig destination.target content destination.provider).Runs trace
        out ∧
      r = out.bind fun delivery => Worker.executeMessageSendAction
        { env with deliver := fun _ _ _ => .ok delivery } config run lastLlmResponseText args
        fileId artifactId := by
  unfold executeMessageSend at h
  rcases Prog.runs_ofExcept_bind_iff.mp h with ⟨e, -, htrace, hr⟩ | ⟨message, hmessage, h⟩
  · exact .inl ⟨htrace, e, hr⟩
  obtain ⟨destination, content⟩ := message
  refine .inr ⟨destination, content, ?_⟩
  rcases Prog.runs_bind_iff.mp h with ⟨e, hr, hsend⟩ | ⟨delivery, first, last, htrace, hsend, h⟩
  · exact ⟨.error e, hmessage, hsend, hr⟩
  · have hend := Prog.runs_ofExcept_iff.mp h
    refine ⟨.ok delivery, hmessage, ?_, hend.2⟩
    rw [htrace, hend.1, List.append_nil]
    exact hsend

end Record

/-- An outbox record calls its message delivered exactly when a relay or the webhook
acknowledged it. -/
theorem outbox_record_true (rt : NostrRuntime) (sendConfig : SendConfig) (env : ArtifactEnv)
    (config : ArtifactConfig) (run : RunLeaseRecord) (lastLlmResponseText : Option String)
    (args : Json) (fileId artifactId : Uuid) (trace : List MessageCall) (written : Written)
    (hrun : (executeMessageSend rt sendConfig env config run lastLlmResponseText args fileId
      artifactId).Runs trace (.ok written)) :
    ∃ report : DeliveryReport, Records env written report ∧
      report.Agrees rt sendConfig trace := by
  rcases executeMessageSend_runs hrun with ⟨-, e, hr⟩ | ⟨destination, content, out, -, hsend, hr⟩
  · cases hr
  · rcases deliverMessage_runs hsend with ⟨⟨e, hout⟩, -⟩ | ⟨report, identity, hout, hagrees⟩
    · rw [hout] at hr
      cases hr
    · rw [hout] at hr
      exact ⟨report, records_delivery hr.symm, hagrees⟩

/-- Whatever comes of a message, it is handed over only when its destination is allowed,
and then only to the relays or the webhook of the configuration: to a relay as a note
signed for the recipient, to the webhook as its text, which goes on from there only as far
as the redirects of the webhook lead. -/
theorem sends_confined (rt : NostrRuntime) (redirects : String → String → Prop)
    (sendConfig : SendConfig) (env : ArtifactEnv) (config : ArtifactConfig) (run : RunLeaseRecord)
    (lastLlmResponseText : Option String) (args : Json) (fileId artifactId : Uuid)
    (trace : List MessageCall) (r : Except String Written) (call : MessageCall)
    (hrun : (executeMessageSend rt sendConfig env config run lastLlmResponseText args fileId
      artifactId).Runs trace r)
    (halong : RedirectedAlong redirects trace) (hmem : call ∈ trace)
    (hsend : call.1.IsSend = true) :
    ∃ destination content,
      messageToSend config lastLlmResponseText args = .ok (destination, content) ∧
      Allowed config destination ∧
      ConfinedSend rt redirects sendConfig trace destination.target content destination.provider
        call := by
  rcases executeMessageSend_runs hrun with
    ⟨hnone, -⟩ | ⟨destination, content, out, hmessage, hsent, -⟩
  · rw [hnone] at hmem
    exact absurd hmem List.not_mem_nil
  · exact ⟨destination, content, hmessage, allowed_of_messageToSend hmessage,
      deliverMessage_sends hsent hmem hsend halong⟩

/-! ## A note that one relay refuses, and a post that is redirected -/

def noteConfig : SendConfig where
  nostrSigner := { localSecretKey := some (Payment.hexKey 'b') }
  nostrRelays := ["wss://refuses.example", "wss://takes.example"]
  slackWebhookUrl := some "https://hooks.example/T"
  slackMaxAttempts := 3
  slackRetryBackoff := 500

example : NostrSignerConfig.fromEnv (fun name =>
    if name = "NOSTR_SECRET_KEY" then some (Payment.hexKey 'b') else none) =
      .ok noteConfig.nostrSigner := by
  rfl

def ackJson (status : Bool) : Json :=
  .arr [.str "OK", .str signedNote.id, .bool status, .str ""]

def ackText (status : String) : String :=
  "[\"OK\",\"" ++ signedNote.id ++ "\"," ++ status ++ ",\"\"]"

/-- The library on the sample's texts. -/
def noteRuntime : NostrRuntime :=
  { bunkerRuntime with
    parseJson := fun text =>
      if text = ackText "true" then .ok (ackJson true)
      else if text = ackText "false" then .ok (ackJson false)
      else .error "not JSON" }

/-- The world of the samples: the first relay refuses the event, the second takes it, and
the webhook has moved. -/
def noteAnswers : (op : MessageOp) → op.Ans
  | .now => (1700000000 : Nat)
  | .readFile _ => (.error "No such file" : Except String String)
  | .fileMode _ => (.error "No such file" : Except String Nat)
  | .generateKey => Payment.hexKey 'b'
  | .sign _ _ => (.ok signedNote.sig : Except String String)
  | .openSigner _ => Timed.elapsed
  | .subscribe _ _ _ => Timed.elapsed
  | .request _ _ => (⟨"1", .ok (), .ok requestEvent, .elapsed, []⟩ : RequestExchange)
  | .closeSigner _ => ()
  | .publish relay _ =>
    (⟨.done, .done, .text (ackText (if relay = "wss://takes.example" then "true" else "false"))⟩ :
      PublishAttempt)
  | .postWebhook _ _ => 
    (⟨.ok (), .resend "https://moved.example/T", .ok 200, .ok "ok"⟩ : WebhookAttempt)
  | .sleep _ => ()

def noteEnv : ArtifactEnv where
  createDirAll _ := true
  write _ _ := true
  persistArtifactMetadata _ := .ok ()
  toPretty value := String.ofList (Json.write bitText value)
  deliver _ _ _ := .error "not delivered"

def noteArgs : Json :=
  .obj [("destination", .str "whitenoise:npub1friend"), ("text", .str "hello")]

def slackArgs : Json := .obj [("destination", .str "slack:C1"), ("text", .str "hello")]

def noteRun : RunLeaseRecord := ⟨"run", "acme", "agent", .null, .null⟩

def noteArtifacts : ArtifactConfig := { artifactRoot := "/srv/artifacts".toList }

def sampleSend (args : Json) : MessageProg Written :=
  executeMessageSend noteRuntime noteConfig noteEnv noteArtifacts noteRun none args (.repeated 1)
    (.repeated 2)

/-- A sample's calls, and what it ends with. -/
def sent (args : Json) : List MessageCall × Except String Written :=
  (sampleSend args).answered noteAnswers

theorem sent_runs (args : Json) : (sampleSend args).Runs (sent args).1 (sent args).2 :=
  Prog.runs_answered noteAnswers _

def moved (_ location : String) : Prop := location = "https://moved.example/T"

theorem sent_redirected (args : Json) : RedirectedAlong moved (sent args).1 := by
  intro url body answer hmem
  have hanswer : answer = noteAnswers (.postWebhook url body) :=
    Prog.answer_of_answered noteAnswers (sampleSend args) _ hmem
  rw [hanswer]
  exact Http.Hops.along_resend rfl

theorem sent_written : ∀ args ∈ [noteArgs, slackArgs], ∃ written, (sent args).2 = .ok written := by
  intro args hargs
  have hsome : ∀ args ∈ [noteArgs, slackArgs], (sent args).2.toOption.isSome = true := by
    decide +kernel
  have hthis := hsome args hargs
  cases hout : (sent args).2 with
  | ok written => exact ⟨written, rfl⟩
  | error e =>
    rw [hout] at hthis
    cases hthis

/-- The record of a sample is true of its calls. -/
def SentRecordTrue (args : Json) : Prop :=
  ∃ written report, (sent args).2 = .ok written ∧ Records noteEnv written report ∧
    report.Agrees noteRuntime noteConfig (sent args).1

theorem sent_records_true : SentRecordTrue noteArgs ∧ SentRecordTrue slackArgs := by
  have htrue : ∀ args ∈ [noteArgs, slackArgs], SentRecordTrue args := by
    intro args hargs
    obtain ⟨written, hwritten⟩ := sent_written args hargs
    have hruns := sent_runs args
    rw [hwritten] at hruns
    obtain ⟨report, hrecords, hagrees⟩ := outbox_record_true noteRuntime noteConfig noteEnv
      noteArtifacts noteRun none args (.repeated 1) (.repeated 2) (sent args).1 written hruns
    exact ⟨written, report, hwritten, hrecords, hagrees⟩
  exact ⟨htrue _ List.mem_cons_self, htrue _ (List.mem_cons_of_mem _ List.mem_cons_self)⟩

/-- A sample sends something, where it may. -/
def SentConfined (args : Json) : Prop :=
  ∃ call ∈ (sent args).1, call.1.IsSend = true ∧ ∃ destination content,
    messageToSend noteArtifacts none args = .ok (destination, content) ∧
    Allowed noteArtifacts destination ∧ ConfinedSend noteRuntime moved noteConfig (sent args).1
      destination.target content destination.provider call

theorem sent_confined : SentConfined noteArgs ∧ SentConfined slackArgs := by
  have hconfined : ∀ args ∈ [noteArgs, slackArgs], SentConfined args := by
    intro args hargs
    have hany : ∀ args ∈ [noteArgs, slackArgs],
        (sent args).1.any (fun call => call.1.IsSend) = true := by
      decide +kernel
    obtain ⟨call, hmem, hsend⟩ := List.any_eq_true.mp (hany args hargs)
    exact ⟨call, hmem, hsend, sends_confined noteRuntime moved noteConfig noteEnv noteArtifacts
      noteRun none args (.repeated 1) (.repeated 2) (sent args).1 (sent args).2 call
      (sent_runs args) (sent_redirected args) hmem hsend⟩
  exact ⟨hconfined _ List.mem_cons_self, hconfined _ (List.mem_cons_of_mem _ List.mem_cons_self)⟩

end Message
end SecureAgnt

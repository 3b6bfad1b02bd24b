/-
Applies of one heartbeat text, one after the other.

An apply can stop anywhere: at the tenant's limit, at a refused capability, at a lost
connection.  `heartbeats_once` is the theorem this file exists for: however many applies
there were, an agent has at most one trigger for a candidate, after one that succeeded it
has exactly one, and every later apply finds it.

What else goes on neither creates nor patches a trigger that a candidate stands for.
-/
import SecureAgnt.Api.Heartbeat
import SecureAgnt.Api.HeartbeatKept

namespace SecureAgnt
namespace Api

open Handler (wp Finishes)
open Storage (Backend)

/-! ## A whole apply -/

section Apply

variable {rt : ApiRuntime} {config : ApiConfig} {agent : AgentRef}
  {candidates : List HeartbeatTriggerCandidate} {w : ApiWorld}
  {req : MaterializeHeartbeatRequest} {grant : HeartbeatGrant}

/-- An apply: what is asked, what `HEARTBEAT.md` holds, and whether connections can be lost. -/
structure HeartbeatApply where
  headers : HeaderMap
  req : MaterializeHeartbeatRequest
  file : String
  faults : Bool

def HeartbeatApply.text (a : HeartbeatApply) : String :=
  (a.req.heartbeatMarkdown.bind Text.nonEmptyTrimmed).getD a.file

/-- The apply is one of a text for an agent. -/
structure HeartbeatApply.IsOf (a : HeartbeatApply) (agent : AgentRef) (text : String) : Prop where
  apply : a.req.apply = true
  tenant : tenantFromHeaders a.headers = .ok agent.tenantId
  text : a.text = text

def HeartbeatApply.program (rt : ApiRuntime) (config : ApiConfig) (agent : AgentRef)
    (a : HeartbeatApply) : ApiProg (List HeartbeatItem) :=
  materializeAgentHeartbeatHandler rt config a.headers agent.agentId a.req

/-- Its headers and its request are in order. -/
def HeartbeatApply.Admitted (rt : ApiRuntime) (config : ApiConfig) (a : HeartbeatApply) : Prop :=
  ∃ grant, admitHeartbeats rt config.state a.headers a.req = .ok grant

theorem tenantId_of_admit {state : AppState} {headers : HeaderMap} {tenantId : String}
    (htenant : tenantFromHeaders headers = .ok tenantId)
    (h : admitHeartbeats rt state headers req = .ok grant) : grant.tenantId = tenantId := by
  unfold admitHeartbeats at h
  rw [htenant] at h
  simp only [bind, Except.bind] at h
  repeat' split at h
  all_goals first
    | cases h; rfl
    | cases h

theorem wp_heartbeatText {a : HeartbeatApply} (tenantId : String) (agentId : Uuid) :
    wp ⟨applyStep config.backend a.faults a.file⟩ (applyContract agent candidates)
      (heartbeatText a.req tenantId agentId)
      (fun w' out => SameFound agent candidates w w' ∧ (∀ text, out = .ok text → text.1 = a.text) ∧
        ∀ e, out = .error e → a.faults = true) w := by
  unfold heartbeatText HeartbeatApply.text
  cases a.req.heartbeatMarkdown.bind Text.nonEmptyTrimmed with
  | some text =>
    intro s hrely
    refine ⟨hrely, fun out hout => ?_, fun _ h => (nomatch h)⟩
    cases hout
    rfl
  | none =>
    refine Handler.wp_perform_bind fun s hrely => ⟨fun _ => rfl, fun answer s' hstep => ?_⟩
    obtain ⟨hanswer, rfl⟩ := hstep
    refine ⟨fun _ _ hne => hne, ?_⟩
    rcases hanswer with rfl | ⟨hfaults, e, rfl⟩
    · intro s'' hrely'
      refine ⟨(applyContract agent candidates).rely_trans hrely hrely', fun out hout => ?_,
        fun _ h => (nomatch h)⟩
      cases hout
      rfl
    · intro s'' hrely'
      exact ⟨(applyContract agent candidates).rely_trans hrely hrely', fun _ h => (nomatch h),
        fun _ _ => hfaults⟩

/-- What is known after an apply. -/
structure ApplyDone (rt : ApiRuntime) (config : ApiConfig) (a : HeartbeatApply) (agent : AgentRef)
    (report : HeartbeatReport) (w w' : ApiWorld) (out : ApiResult (List HeartbeatItem)) : Prop where
  kept : Kept agent report.candidates w w'
  settled : ∀ items, out = .ok items →
    report.issues = [] ∧ List.Forall₂ (Settled agent w w') report.candidates items
  answers : report.issues = [] → (∀ candidate ∈ report.candidates,
      w.found agent candidate.key ≠ [] ∧ ∃ schedule, candidate.schedule = .ok schedule) →
    a.faults = false → a.Admitted rt config → ∃ items, out = .ok items

theorem wp_program {a : HeartbeatApply} {text : String} (ha : a.IsOf agent text)
    (hone : AtMostOne agent (rt.compileAgentHeartbeatMarkdown text).candidates w) :
    wp ⟨applyStep config.backend a.faults a.file⟩
      (applyContract agent (rt.compileAgentHeartbeatMarkdown text).candidates)
      (a.program rt config agent)
      (ApplyDone rt config a agent (rt.compileAgentHeartbeatMarkdown text) w) w := by
  unfold HeartbeatApply.program materializeAgentHeartbeatHandler
  cases hadmits : admitHeartbeats rt config.state a.headers a.req with
  | error e =>
    intro s hrely
    refine ⟨Kept.of_same hone hrely, fun _ h => (nomatch h), fun _ _ _ hadmitted => ?_⟩
    obtain ⟨grant, hgrant⟩ := hadmitted
    rw [hadmits] at hgrant
    cases hgrant
  | ok grant =>
    have htenant := tenantId_of_admit ha.tenant hadmits
    have hagent : agent = ⟨grant.tenantId, agent.agentId⟩ := by rw [htenant]
    show wp _ _ (heartbeatText a.req grant.tenantId agent.agentId >>= _) _ w
    refine Handler.wp_seq (wp_heartbeatText grant.tenantId agent.agentId) (fun s found h => ?_)
      fun s e h => ?_
    · obtain ⟨hsame, hfound, _⟩ := h
      have hkept := Kept.of_same hone hsame
      have htext : found.1 = text := (hfound found rfl).trans ha.text
      simp only [htext]
      refine Handler.wp_ite (fun hissues => ?_) fun hissues => ?_
      · intro s' hrely
        exact ⟨hkept.trans (Kept.of_same hkept.atMostOne hrely), fun _ h => (nomatch h),
          fun hnone => absurd hnone hissues.2⟩
      · have hnone : (rt.compileAgentHeartbeatMarkdown text).issues = [] := by
          by_contra hsome
          exact hissues ⟨ha.apply, hsome⟩
        refine Handler.wp_mono (fun s' out hdone => ?_) (wp_materializeCandidates ha.apply hagent
          (fun _ hmem => hmem) hkept.atMostOne)
        refine ⟨hkept.trans hdone.kept, fun items hitems => ⟨hnone, ?_⟩, fun _ hall hfaults _ => ?_⟩
        · refine ((List.forall₂_and_left _ _).mpr ⟨fun _ hmem => hmem,
            hdone.settled items hitems⟩).imp ?_
          rintro candidate item ⟨hmem, hsettled⟩
          exact hsettled.of_kept hmem hkept
        · refine hdone.answers (fun candidate hmem => ?_) hfaults
          rw [hsame candidate hmem]
          exact hall candidate hmem
    · obtain ⟨hsame, _, hfaults⟩ := h
      refine ⟨Kept.of_same hone hsame, fun _ h => (nomatch h), fun _ _ hfalse => ?_⟩
      rw [hfaults e rfl] at hfalse
      cases hfalse

end Apply

/-! ## Applies one after the other -/

section Applied

variable {rt : ApiRuntime} {config : ApiConfig} {agent : AgentRef} {text : String}
  {w w' : ApiWorld} {outs : List (ApiResult (List HeartbeatItem))}

/-- The calls of an apply, with everything else that goes on. -/
def HeartbeatApply.handler (rt : ApiRuntime) (config : ApiConfig) (agent : AgentRef)
    (text : String) (a : HeartbeatApply) : Handler ApiOp ApiOp.Ans ApiWorld :=
  applyHandler config.backend a.faults a.file agent
    (rt.compileAgentHeartbeatMarkdown text).candidates

/-- Applies of a text for an agent that had no trigger for it, and what they answered. -/
inductive Applied (rt : ApiRuntime) (config : ApiConfig) (agent : AgentRef) (text : String) :
    ApiWorld → List (ApiResult (List HeartbeatItem)) → Prop
  | start (w : ApiWorld) (hnone : ∀ candidate ∈ (rt.compileAgentHeartbeatMarkdown text).candidates,
      w.found agent candidate.key = []) : Applied rt config agent text w []
  | others {w w' : ApiWorld} {outs : List (ApiResult (List HeartbeatItem))}
      (h : Applied rt config agent text w outs)
      (hsame : SameFound agent (rt.compileAgentHeartbeatMarkdown text).candidates w w') :
      Applied rt config agent text w' outs
  | apply {w w' : ApiWorld} {outs : List (ApiResult (List HeartbeatItem))}
      {out : ApiResult (List HeartbeatItem)} (h : Applied rt config agent text w outs)
      (a : HeartbeatApply) (ha : a.IsOf agent text)
      (hfin : Finishes (a.handler rt config agent text) w (a.program rt config agent) w' out) :
      Applied rt config agent text w' (outs ++ [out])

/-- There is one trigger for every candidate. -/
structure AllFound (agent : AgentRef) (report : HeartbeatReport) (w : ApiWorld) : Prop where
  issues : report.issues = []
  one : ∀ candidate ∈ report.candidates, ∃ id, w.found agent candidate.key = [id]
  schedules : ∀ candidate ∈ report.candidates, ∃ schedule, candidate.schedule = .ok schedule

theorem AllFound.of_kept {report : HeartbeatReport} (h : AllFound agent report w)
    (hkept : Kept agent report.candidates w w') : AllFound agent report w' := by
  refine ⟨h.issues, fun candidate hmem => ?_, h.schedules⟩
  obtain ⟨id, hid⟩ := h.one candidate hmem
  exact ⟨id, by rw [hkept.stays candidate hmem (by simp [hid]), hid]⟩

theorem AllFound.of_settled {report : HeartbeatReport} {items : List HeartbeatItem}
    (hissues : report.issues = [])
    (h : List.Forall₂ (Settled agent w w') report.candidates items) : AllFound agent report w' := by
  have hall : List.Forall₂ (fun candidate _ => ((∃ id, w'.found agent candidate.key = [id]) ∧
      ∃ schedule, candidate.schedule = .ok schedule) ∧ True) report.candidates items := by
    refine h.imp fun candidate item hsettled => ⟨⟨?_, hsettled.schedule⟩, trivial⟩
    obtain ⟨id, hid, _⟩ := hsettled.named
    exact ⟨id, hid⟩
  have hleft := ((List.forall₂_and_left _ _).mp hall).1
  exact ⟨hissues, fun candidate hmem => (hleft candidate hmem).1,
    fun candidate hmem => (hleft candidate hmem).2⟩

/-- What one apply does among the moves of everything else. -/
theorem applyDone_of_finishes {a : HeartbeatApply} {out : ApiResult (List HeartbeatItem)}
    (ha : a.IsOf agent text)
    (hone : AtMostOne agent (rt.compileAgentHeartbeatMarkdown text).candidates w)
    (hfin : Finishes (a.handler rt config agent text) w (a.program rt config agent) w' out) :
    ApplyDone rt config a agent (rt.compileAgentHeartbeatMarkdown text) w w' out := by
  have hframed : wp (a.handler rt config agent text) (.alone fun _ _ => True)
      (a.program rt config agent) (fun s out => True ∧
        ApplyDone rt config a agent (rt.compileAgentHeartbeatMarkdown text) w s out) w :=
    Handler.wp_framed (F := fun _ => True) (fun _ _ _ hsame => ⟨hsame, trivial⟩)
      (fun _ _ _ _ => trivial) (fun _ _ _ _ => trivial) trivial (wp_program ha hone)
  exact (Handler.wp_of_finishes hframed hfin).2

theorem allFound_of_applied (h : Applied rt config agent text w outs) :
    AtMostOne agent (rt.compileAgentHeartbeatMarkdown text).candidates w ∧
      ((∃ items, .ok items ∈ outs) →
        AllFound agent (rt.compileAgentHeartbeatMarkdown text) w) := by
  induction h with
  | start w hnone =>
    refine ⟨fun candidate hmem => ?_, fun ⟨_, hmem⟩ => nomatch hmem⟩
    rw [hnone candidate hmem]
    exact Nat.zero_le 1
  | others h hsame ih =>
    exact ⟨ih.1.of_same hsame, fun hok => (ih.2 hok).of_kept (Kept.of_same ih.1 hsame)⟩
  | apply h a ha hfin ih =>
    have hdone := applyDone_of_finishes ha ih.1 hfin
    refine ⟨hdone.kept.atMostOne, fun ⟨items, hmem⟩ => ?_⟩
    rcases List.mem_append.mp hmem with hmem | hmem
    · exact (ih.2 ⟨items, hmem⟩).of_kept hdone.kept
    · obtain ⟨hissues, hsettled⟩ := hdone.settled items (List.mem_singleton.mp hmem).symm
      exact AllFound.of_settled hissues hsettled

/-- An item says that a trigger was there already. -/
structure ReportsExisting (agent : AgentRef) (w : ApiWorld) (candidate : HeartbeatTriggerCandidate)
    (item : HeartbeatItem) : Prop where
  about : item.candidate = candidate
  existing : item.status = "existing"
  named : ∃ id, item.triggerId = some id ∧ w.found agent candidate.key = [id]

/-- Where everything is found, an apply inserts nothing and reports what there is. -/
theorem apply_found {a : HeartbeatApply} {out : ApiResult (List HeartbeatItem)}
    (ha : a.IsOf agent text)
    (hall : AllFound agent (rt.compileAgentHeartbeatMarkdown text) w)
    (hfin : Finishes (a.handler rt config agent text) w (a.program rt config agent) w' out) :
    Finishes ((a.handler rt config agent text).guarded fun _ op => op.insertsTrigger = false) w
        (a.program rt config agent) w' out ∧
      SameFound agent (rt.compileAgentHeartbeatMarkdown text).candidates w w' ∧
      (∀ items, out = .ok items → List.Forall₂ (ReportsExisting agent w)
        (rt.compileAgentHeartbeatMarkdown text).candidates items) ∧
      (a.faults = false → a.Admitted rt config → ∃ items, out = .ok items) := by
  have hne : ∀ candidate ∈ (rt.compileAgentHeartbeatMarkdown text).candidates,
      w.found agent candidate.key ≠ [] := by
    intro candidate hmem
    obtain ⟨id, hid⟩ := hall.one candidate hmem
    rw [hid]
    exact List.cons_ne_nil _ _
  have hone : AtMostOne agent (rt.compileAgentHeartbeatMarkdown text).candidates w := by
    intro candidate hmem
    obtain ⟨id, hid⟩ := hall.one candidate hmem
    rw [hid]
    exact Nat.le_refl 1
  have hdone := applyDone_of_finishes ha hone hfin
  have hsame : SameFound agent (rt.compileAgentHeartbeatMarkdown text).candidates w w' :=
    fun candidate hmem => hdone.kept.stays candidate hmem (hne candidate hmem)
  refine ⟨?_, hsame, fun items hitems => ?_, fun hfaults hadmitted => ?_⟩
  · have hframed : wp (a.handler rt config agent text) (.alone fun _ op => op.insertsTrigger = false)
        (a.program rt config agent) (fun s out =>
          (∀ candidate ∈ (rt.compileAgentHeartbeatMarkdown text).candidates,
            s.found agent candidate.key ≠ []) ∧
          ApplyDone rt config a agent (rt.compileAgentHeartbeatMarkdown text) w s out) w := by
      refine Handler.wp_framed (fun s s' hfound hrely => ⟨hrely, fun candidate hmem => ?_⟩)
        (fun s s' hfound hguar => ?_) (fun s op hfound hsafe => ?_) hne (wp_program ha hone)
      · rw [hrely candidate hmem]
        exact hfound candidate hmem
      · exact fun candidate hmem => hguar candidate hmem (hfound candidate hmem)
      · exact hsafe hfound
    exact Finishes.guarded hframed (fun _ _ h => h) hfin
  · refine ((List.forall₂_and_left _ _).mpr ⟨fun _ hmem => hmem,
      (hdone.settled items hitems).2⟩).imp ?_
    rintro candidate item ⟨hmem, hsettled⟩
    obtain ⟨id, hid, hitem⟩ := hsettled.named
    exact ⟨hsettled.about, hsettled.existing (hne candidate hmem),
      ⟨id, hitem, (hsame candidate hmem).symm.trans hid⟩⟩
  · exact hdone.answers hall.issues
      (fun candidate hmem => ⟨hne candidate hmem, hall.schedules candidate hmem⟩) hfaults hadmitted

/-- After any number of applies there is at most one trigger for a candidate.  After one
that succeeded there is exactly one, and every later apply inserts nothing and, once
admitted, reports each candidate as existing with that trigger, unless a connection is lost. -/
theorem heartbeats_once (h : Applied rt config agent text w outs) :
    AtMostOne agent (rt.compileAgentHeartbeatMarkdown text).candidates w ∧
      ((∃ items, .ok items ∈ outs) →
        (∀ candidate ∈ (rt.compileAgentHeartbeatMarkdown text).candidates,
          ∃ id, w.found agent candidate.key = [id]) ∧
        ∀ a : HeartbeatApply, a.IsOf agent text → ∀ w' out,
          Finishes (a.handler rt config agent text) w (a.program rt config agent) w' out →
            Finishes ((a.handler rt config agent text).guarded fun _ op =>
                op.insertsTrigger = false) w (a.program rt config agent) w' out ∧
              SameFound agent (rt.compileAgentHeartbeatMarkdown text).candidates w w' ∧
              (∀ items, out = .ok items → List.Forall₂ (ReportsExisting agent w)
                (rt.compileAgentHeartbeatMarkdown text).candidates items) ∧
              (a.faults = false → a.Admitted rt config → ∃ items, out = .ok items)) := by
  obtain ⟨hone, hsucceeded⟩ := allFound_of_applied h
  refine ⟨hone, fun hok => ?_⟩
  have hall := hsucceeded hok
  exact ⟨hall.one, fun a ha w' out hfin => apply_found ha hall hfin⟩

/-! ## Two applies of a line that stands twice -/

/-- A runtime with the compiler of `HEARTBEAT.md`. -/
def heartbeatRuntime : ApiRuntime where
  jitterHash := fun _ _ => 0
  nextCronFireAt := fun _ _ now => .ok now
  serializedLen := fun _ => 0
  sha256Hex := fun _ => ""
  parseUuid := fun _ => some anAgent
  timeJson := fun _ => .null
  compileAgentHeartbeatMarkdown := fun text =>
    let report := compileHeartbeatMarkdown ⟨fun _ => none, fun _ => true⟩ text
    ⟨report.candidates, report.issues.map (·.message)⟩

def everyMinuteText : String := "every 60 recipe=recipe\nevery 60 recipe=recipe"

def approvedApply : HeartbeatApply where
  headers := [("x-tenant-id", ⟨some "tenant-1"⟩), ("x-user-id", ⟨some "user"⟩)]
  req := { heartbeatMarkdown := some everyMinuteText, apply := true, approvalConfirmed := true }
  file := ""
  faults := false

/-- The row that the apply inserts. -/
def heartbeatTrigger : NewTrigger := { minuteTrigger true with inputJson := .obj [] }

def minuteAgent : AgentRef := ⟨"tenant-1", anAgent⟩

def heartbeatCandidate (line : Nat) : HeartbeatTriggerCandidate :=
  ⟨.interval, "recipe", some 60, none, none, 1, 0, line, "every 60 recipe=recipe"⟩

def minuteCandidates : List HeartbeatTriggerCandidate := [heartbeatCandidate 1, heartbeatCandidate 2]

theorem report_everyMinute :
    heartbeatRuntime.compileAgentHeartbeatMarkdown everyMinuteText = ⟨minuteCandidates, []⟩ := by
  rfl

def minuteGrant : HeartbeatGrant :=
  ⟨"tenant-1", .owner, some anAgent, 3, .arr [], .obj [], none⟩

theorem admit_minute : admitHeartbeats heartbeatRuntime oneTrigger.state approvedApply.headers
    approvedApply.req = .ok minuteGrant := by
  rfl

theorem program_minute : approvedApply.program heartbeatRuntime oneTrigger minuteAgent =
    materializeCandidates heartbeatRuntime oneTrigger approvedApply.req minuteGrant anAgent "inline"
      minuteCandidates := by
  have hgrant : ∀ f : HeartbeatGrant → ApiProg (List HeartbeatItem),
      Prog.ofExcept (.ok minuteGrant) >>= f = f minuteGrant := fun _ => rfl
  have htext : ∀ f : String × String → ApiProg (List HeartbeatItem),
      heartbeatText approvedApply.req minuteGrant.tenantId minuteAgent.agentId >>= f =
        f (everyMinuteText, "inline") := fun _ => rfl
  unfold HeartbeatApply.program materializeAgentHeartbeatHandler
  rw [admit_minute, hgrant, htext, report_everyMinute]
  exact if_neg fun h => h.2 rfl

/-- What an apply reports of a line. -/
def minuteItem (line : Nat) (status : String) : HeartbeatItem :=
  ⟨heartbeatCandidate line, status, some heartbeatTrigger.id⟩

/-- The trigger is found for either line. -/
theorem found_minute {w : ApiWorld} (h : w.triggers = [heartbeatTrigger.row .postgres 0])
    (line : Nat) : queryEffect .postgres w (.findHeartbeatTrigger "tenant-1" anAgent
      (heartbeatCandidate line) ⟨some 60, none, "UTC"⟩) (some heartbeatTrigger.id) w := by
  have hfinds : (heartbeatCandidate line).isFoundIn ⟨some 60, none, "UTC"⟩ "tenant-1" anAgent
      (heartbeatTrigger.row .postgres 0) = true := rfl
  refine ⟨fun row hrow _ => ⟨heartbeatTrigger.row .postgres 0, ?_, hfinds, rfl, ?_⟩,
    fun hnone => ?_, rfl⟩
  · rw [h]
    exact List.mem_cons_self
  · rw [h, List.mem_singleton] at hrow
    rw [hrow]
    rintro (hlater | ⟨hsqlite, _⟩)
    · exact lt_irrefl _ hlater
    · cases hsqlite
  · rw [hnone _ (h ▸ List.mem_cons_self)] at hfinds
    cases hfinds

/-- The first apply inserts the trigger for one line and finds it for the other. -/
theorem finishes_first : ∃ w, w.triggers = [heartbeatTrigger.row .postgres 0] ∧
    Finishes (applyHandler .postgres false "" minuteAgent minuteCandidates) noTriggers
      (materializeCandidates heartbeatRuntime oneTrigger approvedApply.req minuteGrant anAgent
        "inline" minuteCandidates) w
      (.ok [minuteItem 1 "created", minuteItem 2 "existing"]) := by
  refine ⟨?_, ?_, ?_⟩
  rotate_left 2
  · refine .call (.ok none) ⟨noTriggers, fun _ _ => rfl, fun _ hrow => (nomatch hrow),
      fun _ => rfl, rfl⟩ ?_
    refine .call (.ok (0 : Nat)) ⟨noTriggers, fun _ _ => rfl, rfl, rfl⟩ ?_
    refine .call (triggerIdOf true) ⟨noTriggers, fun _ _ => rfl, by decide, rfl⟩ ?_
    refine .call (0 : Int) ⟨noTriggers, fun _ _ => rfl, rfl, rfl⟩ ?_
    refine .call (.ok (heartbeatTrigger.row .postgres 0)) ⟨noTriggers, fun _ _ => rfl,
      ⟨by decide, by decide, nofun, by decide⟩, rfl, rfl⟩ ?_
    refine .call (triggerIdOf false) ⟨_, fun _ _ => rfl, by decide, rfl⟩ ?_
    refine .call (.ok ()) ⟨_, fun _ _ => rfl, by decide, rfl⟩ ?_
    refine .call (.ok (some heartbeatTrigger.id)) ⟨_, fun _ _ => rfl, by exact found_minute rfl 2⟩ ?_
    exact .pure _ _
  · rfl

/-- The second finds it for both. -/
theorem finishes_second {w : ApiWorld} (h : w.triggers = [heartbeatTrigger.row .postgres 0]) :
    Finishes (applyHandler .postgres false "" minuteAgent minuteCandidates) w
      (materializeCandidates heartbeatRuntime oneTrigger approvedApply.req minuteGrant anAgent
        "inline" minuteCandidates) w
      (.ok [minuteItem 1 "existing", minuteItem 2 "existing"]) := by
  refine .call (.ok (some heartbeatTrigger.id)) ⟨w, fun _ _ => rfl, found_minute h 1⟩ ?_
  refine .call (.ok (some heartbeatTrigger.id)) ⟨w, fun _ _ => rfl, found_minute h 2⟩ ?_
  exact .pure _ _

/-- One trigger for a line that stands twice, and a second apply that inserts none. -/
theorem heartbeats_once_minute : ∃ w items items',
    Applied heartbeatRuntime oneTrigger minuteAgent everyMinuteText w [.ok items] ∧
      items.map (·.status) = ["created", "existing"] ∧
      (∀ candidate ∈ minuteCandidates, ∃ id, w.found minuteAgent candidate.key = [id]) ∧
      Finishes ((approvedApply.handler heartbeatRuntime oneTrigger minuteAgent
          everyMinuteText).guarded fun _ op => op.insertsTrigger = false) w
        (approvedApply.program heartbeatRuntime oneTrigger minuteAgent) w (.ok items') ∧
      List.Forall₂ (ReportsExisting minuteAgent w) minuteCandidates items' := by
  obtain ⟨w, htriggers, hfirst⟩ := finishes_first
  have happly : approvedApply.IsOf minuteAgent everyMinuteText := ⟨rfl, rfl, rfl⟩
  have happlied : Applied heartbeatRuntime oneTrigger minuteAgent everyMinuteText w
      ([] ++ [.ok [minuteItem 1 "created", minuteItem 2 "existing"]]) := by
    refine .apply (.start noTriggers fun _ _ => rfl) approvedApply happly ?_
    rw [program_minute, HeartbeatApply.handler, report_everyMinute]
    exact hfirst
  have hsecond : Finishes (approvedApply.handler heartbeatRuntime oneTrigger minuteAgent
      everyMinuteText) w (approvedApply.program heartbeatRuntime oneTrigger minuteAgent) w
      (.ok [minuteItem 1 "existing", minuteItem 2 "existing"]) := by
    rw [program_minute, HeartbeatApply.handler, report_everyMinute]
    exact finishes_second htriggers
  obtain ⟨hone, hlater⟩ := (heartbeats_once happlied).2 ⟨_, List.mem_cons_self⟩
  obtain ⟨hguarded, _, hreports, _⟩ := hlater approvedApply happly w _ hsecond
  have hexisting := hreports _ rfl
  rw [report_everyMinute] at hone hexisting
  exact ⟨w, _, _, happlied, rfl, hone, hguarded, hexisting⟩

end Applied

end Api
end SecureAgnt

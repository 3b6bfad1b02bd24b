/-
One candidate of a heartbeat text and one apply's list of them.

A candidate is looked up and inserted where nothing is found.  The lookups of both kinds
compare the columns of a key, so whatever becomes of an insertion there is at most one
trigger for a key, and what is found stays.
-/
import SecureAgnt.Api.Capacity

namespace SecureAgnt
namespace Api

open Handler (wp Finishes)
open Storage (Backend)
open Trigger (TriggerType)

/-! ## What a candidate stands for -/

/-- The columns by which triggers of heartbeats are told apart. -/
structure HeartbeatKey where
  triggerType : TriggerType
  recipeId : String
  intervalSeconds : Option Int
  cron : Option (String × String)
  maxInflightRuns : Int
  jitterSeconds : Int
  deriving DecidableEq

def HeartbeatTriggerCandidate.key (candidate : HeartbeatTriggerCandidate) : HeartbeatKey where
  triggerType := candidate.kind.triggerType
  recipeId := candidate.recipeId
  intervalSeconds :=
    match candidate.kind with
    | .interval => candidate.intervalSeconds
    | .cron => none
  cron :=
    match candidate.kind with
    | .interval => none
    | .cron => candidate.cronExpression.map fun expression =>
        (expression, candidate.timezone.getD "UTC")
  maxInflightRuns := candidate.maxInflightRuns
  jitterSeconds := candidate.jitterSeconds

def TriggerRecord.heartbeatKey (row : TriggerRecord) : HeartbeatKey where
  triggerType := row.triggerType
  recipeId := row.recipeId
  intervalSeconds :=
    match row.triggerType with
    | .interval => row.intervalSeconds
    | _ => none
  cron :=
    match row.triggerType with
    | .cron => row.cronExpression.map fun expression => (expression, row.scheduleTimezone)
    | _ => none
  maxInflightRuns := row.maxInflightRuns
  jitterSeconds := row.jitterSeconds

/-- An agent of a tenant. -/
structure AgentRef where
  tenantId : String
  agentId : Uuid

def TriggerRecord.standsFor (agent : AgentRef) (key : HeartbeatKey) (row : TriggerRecord) : Bool :=
  row.tenantId = agent.tenantId && row.agentId = agent.agentId && row.heartbeatKey = key

/-- The agent's triggers for a key, in the order of their creation. -/
def ApiWorld.found (w : ApiWorld) (agent : AgentRef) (key : HeartbeatKey) : List Uuid :=
  (w.triggers.filter (TriggerRecord.standsFor agent key)).map (·.id)

section Keys

variable {agent : AgentRef} {candidate : HeartbeatTriggerCandidate} {schedule : HeartbeatSchedule}

/-- A lookup compares exactly the columns of the key. -/
theorem isFoundIn_eq (h : candidate.schedule = .ok schedule) (row : TriggerRecord) :
    candidate.isFoundIn schedule agent.tenantId agent.agentId row =
      row.standsFor agent candidate.key := by
  rw [Bool.eq_iff_iff]
  unfold HeartbeatTriggerCandidate.schedule at h
  unfold HeartbeatTriggerCandidate.isFoundIn TriggerRecord.standsFor TriggerRecord.heartbeatKey
    HeartbeatTriggerCandidate.key
  cases hkind : candidate.kind with
  | interval =>
    rw [hkind] at h
    cases hseconds : candidate.intervalSeconds with
    | none =>
      rw [hseconds] at h
      cases h
    | some seconds =>
      rw [hseconds] at h
      cases h
      cases htype : row.triggerType with
      | interval => simp [HeartbeatIntentKind.triggerType, and_assoc]
      | cron => simp [HeartbeatIntentKind.triggerType]
      | webhook => simp [HeartbeatIntentKind.triggerType]
  | cron =>
    rw [hkind] at h
    cases hexpression : candidate.cronExpression with
    | none =>
      rw [hexpression] at h
      cases h
    | some expression =>
      rw [hexpression] at h
      cases h
      cases htype : row.triggerType with
      | interval => simp [HeartbeatIntentKind.triggerType]
      | webhook => simp [HeartbeatIntentKind.triggerType]
      | cron =>
        cases hcron : row.cronExpression with
        | none => simp [HeartbeatIntentKind.triggerType]
        | some cron => simp [HeartbeatIntentKind.triggerType, and_assoc]

end Keys

/-! ## Calls of an apply -/

/-- A call of an apply, where `HEARTBEAT.md` holds `file`. -/
def applyStep (b : Backend) (faults : Bool) (file : String) (w : ApiWorld) :
    (op : ApiOp) → op.Ans → ApiWorld → Prop
  | .loadHeartbeat _ _, answer, w' =>
    (answer = .ok file ∨ faults = true ∧ ∃ e, answer = .error e) ∧ w' = w
  | op, answer, w' => apiStep b faults w op answer w'

/-- The agent has the same triggers for every candidate. -/
def SameFound (agent : AgentRef) (candidates : List HeartbeatTriggerCandidate)
    (w w' : ApiWorld) : Prop :=
  ∀ candidate ∈ candidates, w'.found agent candidate.key = w.found agent candidate.key

/-- Calls of an apply among the moves of everything else. -/
def applyHandler (b : Backend) (faults : Bool) (file : String) (agent : AgentRef)
    (candidates : List HeartbeatTriggerCandidate) : Handler ApiOp ApiOp.Ans ApiWorld :=
  Handler.interfered ⟨applyStep b faults file⟩ (SameFound agent candidates)

def ApiOp.insertsTrigger : ApiOp → Bool
  | .sql (.insertTrigger _) => true
  | _ => false

/-- The call neither inserts nor patches a trigger. -/
def ApiOp.keepsTriggers : ApiOp → Bool
  | .sql (.insertTrigger _) => false
  | .sql (.updateTriggerConfig ..) => false
  | _ => true

/-- Where a trigger is found for every candidate nothing is inserted. -/
def applyContract (agent : AgentRef) (candidates : List HeartbeatTriggerCandidate) :
    Contract ApiWorld ApiOp where
  rely := SameFound agent candidates
  guarantee := fun w w' => ∀ candidate ∈ candidates, w.found agent candidate.key ≠ [] →
    w'.found agent candidate.key ≠ []
  safe := fun w op => (∀ candidate ∈ candidates, w.found agent candidate.key ≠ []) →
    op.insertsTrigger = false
  rely_refl := fun _ _ _ => rfl
  rely_trans := fun h h' candidate hmem => (h' candidate hmem).trans (h candidate hmem)

section Calls

variable {b : Backend} {faults : Bool} {file : String} {agent : AgentRef}
  {candidates : List HeartbeatTriggerCandidate} {w w' : ApiWorld}

theorem found_congr (h : w'.triggers = w.triggers) (key : HeartbeatKey) :
    w'.found agent key = w.found agent key := by
  unfold ApiWorld.found
  rw [h]

theorem triggers_of_effect {q : ApiQuery} {result : q.Result}
    (hkeeps : (ApiOp.sql q).keepsTriggers = true) (h : queryEffect b w q result w') :
    w'.triggers = w.triggers := by
  cases q with
  | insertTrigger new => cases hkeeps
  | updateTriggerConfig tenantId triggerId update => cases hkeeps
  | countTenantTriggers tenantId => rw [h.2]
  | countTenantMemoryRecords tenantId => rw [h.2]
  | getTrigger tenantId triggerId => rw [h.2]
  | findHeartbeatTrigger tenantId agentId candidate schedule => rw [h.2.2]
  | getRunStatus tenantId runId => rw [h.2]
  | countSteps stepId runId tenantId => rw [h.2]
  | insertMemoryRecord new => rw [h.2.2]
  | appendTriggerAuditEvent event => rw [h.2]
  | appendAuditEvent event => rw [h.2]

theorem triggers_of_step {op : ApiOp} {answer : op.Ans} (hkeeps : op.keepsTriggers = true)
    (h : applyStep b faults file w op answer w') : w'.triggers = w.triggers := by
  cases op with
  | nowUtc => rw [h.2]
  | newUuid => rw [h.2]
  | loadHeartbeat tenantId agentId => rw [h.2]
  | sql q =>
    cases answer with
    | ok result => exact triggers_of_effect hkeeps h
    | error message =>
      rcases h with ⟨hsame, _⟩ | ⟨_, hsame | ⟨result, heffect⟩⟩
      · rw [hsame]
      · rw [hsame]
      · exact triggers_of_effect hkeeps heffect

theorem insertsTrigger_of_keeps {op : ApiOp} (h : op.keepsTriggers = true) :
    op.insertsTrigger = false := by
  unfold ApiOp.keepsTriggers at h
  unfold ApiOp.insertsTrigger
  split
  · cases h
  · rfl

/-- A part of an apply that only reads, or writes something else. -/
theorem wp_keeps {α : Type} {p : ApiProg α} (hp : ∀ op, p.Issues op → op.keepsTriggers = true) :
    wp ⟨applyStep b faults file⟩ (applyContract agent candidates) p
      (fun w' _ => SameFound agent candidates w w') w := by
  refine Handler.wp_of_issues (fun _ _ h hrely => (applyContract agent candidates).rely_trans h hrely)
    ?_ fun _ _ => rfl
  intro op hop s hs
  refine ⟨fun _ => insertsTrigger_of_keeps (hp op hop), fun answer s' hstep => ?_⟩
  have hsame := triggers_of_step (hp op hop) hstep
  constructor
  · intro candidate _ hne
    rw [found_congr hsame]
    exact hne
  · intro candidate hmem
    rw [found_congr hsame]
    exact hs candidate hmem

/-- The triggers for a key after an insertion. -/
theorem found_insert {new : NewTrigger} (key : HeartbeatKey) :
    ApiWorld.found { w with triggers := w.triggers ++ [new.row b w.clock] } agent key =
      w.found agent key ++
        if (new.row b w.clock).standsFor agent key = true then [new.id] else [] := by
  unfold ApiWorld.found
  rw [List.filter_append, List.map_append]
  by_cases h : (new.row b w.clock).standsFor agent key = true
  · rw [List.filter_cons_of_pos h, if_pos h]
    rfl
  · rw [List.filter_cons_of_neg h, if_neg h]
    rfl

end Calls

/-! ## What an apply leaves -/

/-- At most one trigger for every candidate. -/
def AtMostOne (agent : AgentRef) (candidates : List HeartbeatTriggerCandidate) (w : ApiWorld) :
    Prop :=
  ∀ candidate ∈ candidates, (w.found agent candidate.key).length ≤ 1

/-- At most one, and those that were there stay. -/
structure Kept (agent : AgentRef) (candidates : List HeartbeatTriggerCandidate)
    (w w' : ApiWorld) : Prop where
  atMostOne : AtMostOne agent candidates w'
  stays : ∀ candidate ∈ candidates, w.found agent candidate.key ≠ [] →
    w'.found agent candidate.key = w.found agent candidate.key

/-- An item names the one trigger of its candidate, and says whether it was there. -/
structure Settled (agent : AgentRef) (w w' : ApiWorld) (candidate : HeartbeatTriggerCandidate)
    (item : HeartbeatItem) : Prop where
  schedule : ∃ schedule, candidate.schedule = .ok schedule
  named : ∃ id, w'.found agent candidate.key = [id] ∧ item.triggerId = some id
  about : item.candidate = candidate
  existing : w.found agent candidate.key ≠ [] → item.status = "existing"

section Kept

variable {agent : AgentRef} {candidates : List HeartbeatTriggerCandidate} {w w' w'' : ApiWorld}
  {candidate : HeartbeatTriggerCandidate} {item : HeartbeatItem}

theorem AtMostOne.of_same (h : AtMostOne agent candidates w)
    (hsame : SameFound agent candidates w w') : AtMostOne agent candidates w' := by
  intro candidate hmem
  rw [hsame candidate hmem]
  exact h candidate hmem

theorem Kept.of_same (h : AtMostOne agent candidates w) (hsame : SameFound agent candidates w w') :
    Kept agent candidates w w' :=
  ⟨h.of_same hsame, fun candidate hmem _ => hsame candidate hmem⟩

theorem Kept.trans (h : Kept agent candidates w w') (h' : Kept agent candidates w' w'') :
    Kept agent candidates w w'' := by
  refine ⟨h'.atMostOne, fun candidate hmem hne => ?_⟩
  have hfirst := h.stays candidate hmem hne
  rw [h'.stays candidate hmem (hfirst ▸ hne), hfirst]

theorem Settled.trans (hmem : candidate ∈ candidates) (h : Settled agent w w' candidate item)
    (h' : Kept agent candidates w' w'') : Settled agent w w'' candidate item := by
  obtain ⟨id, hfound, hitem⟩ := h.named
  refine ⟨h.schedule, ⟨id, ?_, hitem⟩, h.about, h.existing⟩
  rw [h'.stays candidate hmem (by rw [hfound]; exact List.cons_ne_nil _ _), hfound]

theorem Settled.of_kept (hmem : candidate ∈ candidates) (h : Kept agent candidates w w')
    (h' : Settled agent w' w'' candidate item) : Settled agent w w'' candidate item :=
  ⟨h'.schedule, h'.named, h'.about, fun hne => h'.existing (by
    rw [h.stays candidate hmem hne]
    exact hne)⟩

end Kept

/-! ## One candidate -/

section Candidate

variable {rt : ApiRuntime} {config : ApiConfig} {faults : Bool} {file : String}
  {agent : AgentRef} {candidates : List HeartbeatTriggerCandidate}
  {candidate : HeartbeatTriggerCandidate} {schedule : HeartbeatSchedule} {w : ApiWorld}
  {req : MaterializeHeartbeatRequest} {grant : HeartbeatGrant} {source : String}

/-- The columns of the trigger that is inserted for a candidate. -/
structure NewFor (agent : AgentRef) (candidate : HeartbeatTriggerCandidate)
    (schedule : HeartbeatSchedule) (new : NewTrigger) : Prop where
  tenantId : new.tenantId = agent.tenantId
  agentId : new.agentId = agent.agentId
  triggerType : new.triggerType = candidate.kind.triggerType
  recipeId : new.recipeId = candidate.recipeId
  intervalSeconds : new.intervalSeconds = schedule.intervalSeconds
  cronExpression : new.cronExpression = schedule.cronExpression
  scheduleTimezone : new.scheduleTimezone = schedule.scheduleTimezone
  maxInflightRuns : new.maxInflightRuns = candidate.maxInflightRuns
  jitterSeconds : new.jitterSeconds = candidate.jitterSeconds

/-- What is inserted for a candidate is what its lookup finds. -/
theorem NewFor.isFoundIn {new : NewTrigger} (h : NewFor agent candidate schedule new) (b : Backend)
    (now : Int) :
    candidate.isFoundIn schedule agent.tenantId agent.agentId (new.row b now) = true := by
  unfold HeartbeatTriggerCandidate.isFoundIn NewTrigger.row
  simp only [h.tenantId, h.agentId, h.triggerType, h.recipeId, h.intervalSeconds,
    h.cronExpression, h.scheduleTimezone, h.maxInflightRuns, h.jitterSeconds]
  cases candidate.kind <;> simp

theorem NewFor.standsFor_iff {new : NewTrigger} (h : NewFor agent candidate schedule new)
    (hschedule : candidate.schedule = .ok schedule) (b : Backend) (now : Int)
    (key : HeartbeatKey) : (new.row b now).standsFor agent key = true ↔ key = candidate.key := by
  have hown := h.isFoundIn b now
  rw [isFoundIn_eq hschedule] at hown
  unfold TriggerRecord.standsFor at hown ⊢
  simp only [Bool.and_eq_true, decide_eq_true_eq] at hown ⊢
  rw [hown.2]
  constructor
  · exact fun h => h.2.symm
  · exact fun h => ⟨hown.1, h.symm⟩

/-- An insertion where nothing was found. -/
theorem kept_insert {b : Backend} {new : NewTrigger} (hnew : NewFor agent candidate schedule new)
    (hschedule : candidate.schedule = .ok schedule) (hone : AtMostOne agent candidates w)
    (hnone : w.found agent candidate.key = []) :
    Kept agent candidates w { w with triggers := w.triggers ++ [new.row b w.clock] } ∧
      ApiWorld.found { w with triggers := w.triggers ++ [new.row b w.clock] } agent
        candidate.key = [new.id] := by
  have hfound : ∀ key, ApiWorld.found { w with triggers := w.triggers ++ [new.row b w.clock] }
      agent key = w.found agent key ++ if key = candidate.key then [new.id] else [] := by
    intro key
    rw [found_insert]
    simp only [hnew.standsFor_iff hschedule]
  refine ⟨⟨fun other hmem => ?_, fun other hmem hne => ?_⟩, ?_⟩
  · rw [hfound]
    by_cases hkey : other.key = candidate.key
    · rw [if_pos hkey, hkey, hnone]
      exact Nat.le_refl 1
    · rw [if_neg hkey, List.append_nil]
      exact hone other hmem
  · have hkey : other.key ≠ candidate.key := by
      intro heq
      rw [heq] at hne
      exact hne hnone
    rw [hfound, if_neg hkey, List.append_nil]
  · rw [hfound, if_pos rfl, hnone]
    rfl

theorem wp_insertTrigger (b : Backend) (faults : Bool) (file context : String) {new : NewTrigger}
    (hmem : candidate ∈ candidates) (hnew : NewFor agent candidate schedule new)
    (hschedule : candidate.schedule = .ok schedule) (hone : AtMostOne agent candidates w)
    (hnone : w.found agent candidate.key = []) :
    wp ⟨applyStep b faults file⟩ (applyContract agent candidates)
      (query (.insertTrigger new) context)
      (fun w' out => Kept agent candidates w w' ∧
        ∀ row, out = .ok row → w'.found agent candidate.key = [new.id]) w := by
  refine Handler.wp_perform_bind fun s hrely => ?_
  have hnone' : s.found agent candidate.key = [] := (hrely candidate hmem).trans hnone
  have hkept := Kept.of_same hone hrely
  refine ⟨fun hall => absurd hnone' (hall candidate hmem), fun answer s' hstep => ?_⟩
  have heffect : ∀ {row s₁}, queryEffect b s (.insertTrigger new) row s₁ →
      Kept agent candidates s s₁ ∧ s₁.found agent candidate.key = [new.id] := by
    rintro row s₁ ⟨_, rfl, rfl⟩
    exact kept_insert hnew hschedule hkept.atMostOne hnone'
  have hsame : ∀ {s₁}, s₁ = s → Kept agent candidates s s₁ := by
    rintro s₁ rfl
    exact Kept.of_same hkept.atMostOne fun _ _ => rfl
  have hdone : Kept agent candidates s s' ∧
      ∀ row, answer = .ok row → s'.found agent candidate.key = [new.id] := by
    cases answer with
    | ok row => exact ⟨(heffect hstep).1, fun _ _ => (heffect hstep).2⟩
    | error message =>
      refine ⟨?_, fun _ h => nomatch h⟩
      rcases hstep with ⟨h, _⟩ | ⟨_, h | ⟨row, h⟩⟩
      · exact hsame h
      · exact hsame h
      · exact (heffect h).1
  constructor
  · intro other hother hne
    rw [hdone.1.stays other hother hne]
    exact hne
  · refine Handler.wp_ofExcept fun s'' hrely' => ?_
    refine ⟨(hkept.trans hdone.1).trans (Kept.of_same hdone.1.atMostOne hrely'), fun row hrow => ?_⟩
    have hfound : s'.found agent candidate.key = [new.id] := by
      cases answer with
      | ok stored => exact hdone.2 stored rfl
      | error message => cases hrow
    exact (hrely' candidate hmem).trans hfound

theorem keepsTriggers_newUuid : ∀ op, newUuid.Issues op → op.keepsTriggers = true := by
  intro op hop
  rw [issues_newUuid.mp hop]
  rfl

theorem keepsTriggers_query {q : ApiQuery} {context : String}
    (h : (ApiOp.sql q).keepsTriggers = true) :
    ∀ op, (query q context).Issues op → op.keepsTriggers = true := by
  intro op hop
  rw [issues_query.mp hop]
  exact h

theorem keepsTriggers_bind {α β : Type} {p : ApiProg α} {f : α → ApiProg β}
    (hp : ∀ op, p.Issues op → op.keepsTriggers = true)
    (hf : ∀ a op, (f a).Issues op → op.keepsTriggers = true) :
    ∀ op, (p >>= f).Issues op → op.keepsTriggers = true := by
  intro op hop
  rcases (Prog.issues_bind p f).mp hop with hop | ⟨a, _, hop⟩
  · exact hp op hop
  · exact hf a op hop

theorem keepsTriggers_nowUtc : ∀ op, nowUtc.Issues op → op.keepsTriggers = true := by
  intro op hop
  rw [issues_nowUtc.mp hop]
  rfl

theorem keepsTriggers_audit {tenantId eventType : String} {id : Uuid} {role : RolePreset}
    {details : Json} : ∀ op, (appendTriggerAudit tenantId id role eventType details).Issues op →
      op.keepsTriggers = true :=
  keepsTriggers_bind keepsTriggers_newUuid fun _ => keepsTriggers_query rfl

theorem keepsTriggers_fireAt (b : Backend) (id : Uuid) :
    ∀ op, (heartbeatFireAt rt b id candidate schedule).Issues op → op.keepsTriggers = true := by
  unfold heartbeatFireAt
  cases candidate.kind with
  | interval => exact keepsTriggers_bind keepsTriggers_nowUtc fun _ _ hop => hop.elim
  | cron =>
    simp only
    unfold firstCronFireAt
    cases b with
    | sqlite => exact keepsTriggers_nowUtc
    | postgres =>
      refine keepsTriggers_bind keepsTriggers_nowUtc fun now => ?_
      cases rt.nextCronFireAt (schedule.cronExpression.getD "") schedule.scheduleTimezone now with
      | error message => exact fun _ hop => hop.elim
      | ok next => exact keepsTriggers_bind keepsTriggers_nowUtc fun _ _ hop => hop.elim

theorem keepsTriggers_capacity (config : ApiConfig) (tenantId : String) :
    ∀ op, (ensureTenantTriggerCapacity config tenantId).Issues op → op.keepsTriggers = true := by
  unfold ensureTenantTriggerCapacity ensureTenantCapacity
  cases config.tenantMaxTriggers with
  | none => exact fun _ hop => hop.elim
  | some limit =>
    refine keepsTriggers_bind (keepsTriggers_query rfl) fun count => ?_
    split
    · exact fun _ hop => hop.elim
    · exact fun _ hop => hop.elim

theorem wp_createHeartbeatTrigger {b : Backend} {agentId : Uuid} {granted : Json}
    (hagent : agent = ⟨grant.tenantId, agentId⟩) (hmem : candidate ∈ candidates)
    (hschedule : candidate.schedule = .ok schedule) (hone : AtMostOne agent candidates w)
    (hnone : w.found agent candidate.key = []) :
    wp ⟨applyStep b faults file⟩ (applyContract agent candidates)
      (createHeartbeatTrigger rt b grant agentId candidate schedule granted)
      (fun w' out => Kept agent candidates w w' ∧
        ∀ id, out = .ok id → w'.found agent candidate.key = [id]) w := by
  have hfailed : ∀ (s : ApiWorld) (e : ApiError), SameFound agent candidates w s →
      Kept agent candidates w s ∧ ∀ id, (Except.error e : ApiResult Uuid) = .ok id →
        s.found agent candidate.key = [id] :=
    fun s e hsame => ⟨Kept.of_same hone hsame, fun _ h => nomatch h⟩
  refine Handler.wp_seq (wp_keeps keepsTriggers_newUuid) (fun s id hsame => ?_) hfailed
  refine Handler.wp_seq (wp_keeps (keepsTriggers_fireAt b id)) (fun s' next hsame' => ?_)
    fun s' e hsame' => hfailed s' e ((applyContract agent candidates).rely_trans hsame hsame')
  have hboth : SameFound agent candidates w s' :=
    (applyContract agent candidates).rely_trans hsame hsame'
  have hinsert := wp_insertTrigger b faults file (heartbeatContext b candidate) hmem
    (⟨by rw [hagent], by rw [hagent], rfl, rfl, rfl, rfl, rfl, rfl, rfl⟩ :
      NewFor agent candidate schedule
        { id := id
          tenantId := grant.tenantId
          agentId := agentId
          triggeredByUserId := grant.triggeredByUserId
          recipeId := candidate.recipeId
          triggerType := candidate.kind.triggerType
          intervalSeconds := schedule.intervalSeconds
          cronExpression := schedule.cronExpression
          scheduleTimezone := schedule.scheduleTimezone
          maxAttempts := if candidate.kind = .cron then grant.cronMaxAttempts else 3
          maxInflightRuns := candidate.maxInflightRuns
          jitterSeconds := candidate.jitterSeconds
          inputJson := grant.input
          requestedCapabilities := grant.requestedCapabilities
          grantedCapabilities := granted
          nextFireAt := some next })
    hschedule (hone.of_same hboth) ((hboth candidate hmem).trans hnone)
  refine Handler.wp_seq hinsert ?_ ?_
  · intro s'' row h s₃ hrely
    obtain ⟨hkept, hfound⟩ := h
    refine ⟨((Kept.of_same hone hboth).trans hkept).trans (Kept.of_same hkept.atMostOne hrely), ?_⟩
    intro id' hid
    cases hid
    exact (hrely candidate hmem).trans (hfound row rfl)
  · intro s'' e h
    exact ⟨(Kept.of_same hone hboth).trans h.1, fun _ h => nomatch h⟩

/-- What is known after a candidate was looked at. -/
structure CandidateDone (faults : Bool) (agent : AgentRef)
    (candidates : List HeartbeatTriggerCandidate) (candidate : HeartbeatTriggerCandidate)
    (w w' : ApiWorld) (out : ApiResult HeartbeatItem) : Prop where
  kept : Kept agent candidates w w'
  settled : ∀ item, out = .ok item → Settled agent w w' candidate item
  answers : w.found agent candidate.key ≠ [] → faults = false →
    (∃ schedule, candidate.schedule = .ok schedule) → ∃ item, out = .ok item

theorem wp_materializeMissing {agentId : Uuid} (hagent : agent = ⟨grant.tenantId, agentId⟩)
    (hmem : candidate ∈ candidates) (hschedule : candidate.schedule = .ok schedule)
    (hone : AtMostOne agent candidates w) (hnone : w.found agent candidate.key = []) :
    wp ⟨applyStep config.backend faults file⟩ (applyContract agent candidates)
      (materializeMissing rt config req grant agentId source candidate schedule)
      (CandidateDone faults agent candidates candidate w) w := by
  have hfailed : ∀ (s : ApiWorld) (e : ApiError), Kept agent candidates w s →
      CandidateDone faults agent candidates candidate w s (.error e) :=
    fun s e hkept => ⟨hkept, fun _ h => (nomatch h), fun hne => absurd hnone hne⟩
  refine Handler.wp_seq (wp_keeps (keepsTriggers_capacity config grant.tenantId))
    (fun s _ hsame => ?_) fun s e hsame => hfailed s e (Kept.of_same hone hsame)
  have hgranted : ∀ op, (Prog.ofExcept (resolveGrantedCapabilities candidate.recipeId grant.role
      grant.requestedCapabilities) : ApiProg Json).Issues op → op.keepsTriggers = true := by
    intro op hop
    simp at hop
  refine Handler.wp_seq (wp_keeps hgranted) (fun s₁ granted hsame₁ => ?_) fun s₁ e hsame₁ =>
    hfailed s₁ e (Kept.of_same hone ((applyContract agent candidates).rely_trans hsame hsame₁))
  have hboth : SameFound agent candidates w s₁ :=
    (applyContract agent candidates).rely_trans hsame hsame₁
  have hbefore := Kept.of_same hone hboth
  refine Handler.wp_seq (wp_createHeartbeatTrigger hagent hmem hschedule hbefore.atMostOne
    ((hboth candidate hmem).trans hnone)) (fun s₂ id h => ?_)
    fun s₂ e h => hfailed s₂ e (hbefore.trans h.1)
  obtain ⟨hkept, hfound⟩ := h
  refine Handler.wp_seq (wp_keeps keepsTriggers_audit) (fun s₃ _ hsame₃ s₄ hrely => ?_)
    fun s₃ e hsame₃ =>
    hfailed s₃ e ((hbefore.trans hkept).trans (Kept.of_same hkept.atMostOne hsame₃))
  have hafter : SameFound agent candidates s₂ s₄ :=
    (applyContract agent candidates).rely_trans hsame₃ hrely
  refine ⟨(hbefore.trans hkept).trans (Kept.of_same hkept.atMostOne hafter), ?_,
    fun hne => absurd hnone hne⟩
  intro item hitem
  cases hitem
  refine ⟨⟨schedule, hschedule⟩, ⟨id, ?_, rfl⟩, rfl, fun hne => absurd hnone hne⟩
  exact (hafter candidate hmem).trans (hfound id rfl)

/-- What a lookup of a candidate answers. -/
theorem find_result {b : Backend} {result : Option Uuid} {w' : ApiWorld}
    (hschedule : candidate.schedule = .ok schedule)
    (h : queryEffect b w (.findHeartbeatTrigger agent.tenantId agent.agentId candidate schedule)
      result w') :
    (result = none ∧ w.found agent candidate.key = []) ∨
      ∃ id, result = some id ∧ id ∈ w.found agent candidate.key := by
  obtain ⟨hfound, hnone, _⟩ := h
  simp only [isFoundIn_eq hschedule] at hfound hnone
  by_cases hany : ∃ row ∈ w.triggers, row.standsFor agent candidate.key = true
  · obtain ⟨row, hrow, hstands⟩ := hany
    obtain ⟨newest, hnewest, hstands', hresult, _⟩ := hfound row hrow hstands
    refine .inr ⟨newest.id, hresult, ?_⟩
    exact List.mem_map_of_mem (List.mem_filter.mpr ⟨hnewest, hstands'⟩)
  · have hall : ∀ row ∈ w.triggers, row.standsFor agent candidate.key = false := by
      intro row hrow
      rw [← Bool.not_eq_true]
      exact fun hstands => hany ⟨row, hrow, hstands⟩
    refine .inl ⟨hnone hall, ?_⟩
    unfold ApiWorld.found
    rw [List.map_eq_nil_iff, List.filter_eq_nil_iff]
    intro row hrow
    rw [hall row hrow]
    exact Bool.false_ne_true

/-- A lookup has an answer where at most one row stands for the candidate. -/
theorem find_answers (b : Backend) (hschedule : candidate.schedule = .ok schedule)
    (hone : (w.found agent candidate.key).length ≤ 1) :
    ∃ result, queryEffect b w
      (.findHeartbeatTrigger agent.tenantId agent.agentId candidate schedule) result w := by
  unfold queryEffect
  simp only [isFoundIn_eq hschedule]
  unfold ApiWorld.found at hone
  rw [List.length_map] at hone
  cases hrows : w.triggers.filter (TriggerRecord.standsFor agent candidate.key) with
  | nil =>
    have hall := List.filter_eq_nil_iff.mp hrows
    exact ⟨none, fun row hrow hstands => absurd hstands (hall row hrow), fun _ => rfl, trivial⟩
  | cons row rows =>
    have hrest : rows = [] := by
      rw [hrows, List.length_cons] at hone
      exact List.eq_nil_of_length_eq_zero (by omega)
    have hmem : ∀ other, other ∈ w.triggers → other.standsFor agent candidate.key = true →
        other = row := by
      intro other hother hstands
      have hfiltered := List.mem_filter.mpr ⟨hother, hstands⟩
      rw [hrows, hrest] at hfiltered
      exact List.mem_singleton.mp hfiltered
    have hrow : row ∈ w.triggers ∧ row.standsFor agent candidate.key = true := by
      rw [← List.mem_filter, hrows]
      exact List.mem_cons_self
    refine ⟨some row.id, fun other hother hstands => ⟨row, hrow.1, hrow.2, rfl, ?_⟩,
      fun hall => ?_, trivial⟩
    · rw [hmem other hother hstands]
      unfold isNewer
      simp
    · rw [hall row hrow.1] at hrow
      exact absurd hrow.2 Bool.false_ne_true

theorem wp_findExisting {b : Backend} {agentId : Uuid} (hagent : agent = ⟨grant.tenantId, agentId⟩)
    (hmem : candidate ∈ candidates) (hschedule : candidate.schedule = .ok schedule)
    (hone : AtMostOne agent candidates w) :
    wp ⟨applyStep b faults file⟩ (applyContract agent candidates)
      (findExistingHeartbeatTriggerId grant.tenantId agentId candidate schedule)
      (fun w' out => SameFound agent candidates w w' ∧
        (∀ result, out = .ok result → (result = none ∧ w.found agent candidate.key = []) ∨
          ∃ id, result = some id ∧ id ∈ w.found agent candidate.key) ∧
        ∀ e, out = .error e → faults = true) w := by
  subst hagent
  refine Handler.wp_perform_bind fun s hrely => ?_
  refine ⟨fun _ => rfl, fun answer s' hstep => ?_⟩
  have hsame : s'.triggers = s.triggers :=
    triggers_of_step rfl (show applyStep b faults file s
      (.sql (.findHeartbeatTrigger grant.tenantId agentId candidate schedule)) answer s' from hstep)
  constructor
  · intro other _ hne
    rw [found_congr hsame]
    exact hne
  refine Handler.wp_ofExcept fun s'' hrely' => ?_
  refine ⟨fun other hother => ?_, fun result hresult => ?_, fun e he => ?_⟩
  · rw [hrely' other hother, found_congr hsame, hrely other hother]
  · cases answer with
    | error message => cases hresult
    | ok found =>
      cases hresult
      rw [← hrely candidate hmem]
      exact find_result hschedule hstep
  · cases answer with
    | ok found => cases he
    | error message =>
      rcases hstep with ⟨_, hnever⟩ | ⟨hfaults, _⟩
      · have hlength := hone.of_same hrely candidate hmem
        obtain ⟨result, heffect⟩ := find_answers b hschedule hlength
        exact absurd heffect (hnever result s)
      · exact hfaults

theorem wp_materializeCandidate {agentId : Uuid} (happly : req.apply = true)
    (hagent : agent = ⟨grant.tenantId, agentId⟩) (hmem : candidate ∈ candidates)
    (hone : AtMostOne agent candidates w) :
    wp ⟨applyStep config.backend faults file⟩ (applyContract agent candidates)
      (materializeCandidate rt config req grant agentId source candidate)
      (CandidateDone faults agent candidates candidate w) w := by
  unfold materializeCandidate
  rw [if_pos happly]
  cases hschedule : candidate.schedule with
  | error e =>
    intro s hrely
    refine ⟨Kept.of_same hone hrely, fun _ h => (nomatch h), fun _ _ hok => ?_⟩
    rw [hschedule] at hok
    obtain ⟨_, hok⟩ := hok
    cases hok
  | ok schedule =>
    show wp _ _ (findExistingHeartbeatTriggerId grant.tenantId agentId candidate schedule >>= _) _ w
    refine Handler.wp_seq (wp_findExisting hagent hmem hschedule hone) (fun s existing h => ?_)
      fun s e h => ?_
    · obtain ⟨hsame, hresult, _⟩ := h
      have hkept := Kept.of_same hone hsame
      rcases hresult existing rfl with ⟨rfl, hnone⟩ | ⟨id, rfl, hid⟩
      · refine Handler.wp_mono (fun s' out hdone => ?_) (wp_materializeMissing hagent hmem hschedule
          hkept.atMostOne ((hsame candidate hmem).trans hnone))
        exact ⟨hkept.trans hdone.kept, fun item hitem => (hdone.settled item hitem).of_kept hmem hkept,
          fun hne => absurd hnone hne⟩
      · have hfound : w.found agent candidate.key = [id] := by
          have hlength := hone candidate hmem
          cases hids : w.found agent candidate.key with
          | nil =>
            rw [hids] at hid
            cases hid
          | cons first rest =>
            rw [hids] at hid hlength
            have hrest : rest = [] := List.eq_nil_of_length_eq_zero (by simpa using hlength)
            subst hrest
            rw [List.mem_singleton.mp hid]
        intro s' hrely
        have hboth := (applyContract agent candidates).rely_trans hsame hrely
        refine ⟨Kept.of_same hone hboth, fun item hitem => ?_, fun _ _ _ => ⟨_, rfl⟩⟩
        cases hitem
        exact ⟨⟨schedule, hschedule⟩, ⟨id, (hboth candidate hmem).trans hfound, rfl⟩, rfl,
          fun _ => rfl⟩
    · obtain ⟨hsame, _, hfaults⟩ := h
      refine ⟨Kept.of_same hone hsame, fun _ h => (nomatch h), fun _ hfalse _ => ?_⟩
      rw [hfaults e rfl] at hfalse
      cases hfalse

end Candidate

/-! ## All candidates -/

section Apply

variable {rt : ApiRuntime} {config : ApiConfig} {faults : Bool} {file : String}
  {agent : AgentRef} {candidates : List HeartbeatTriggerCandidate} {w : ApiWorld}
  {req : MaterializeHeartbeatRequest} {grant : HeartbeatGrant} {source : String}

/-- What is known after some of the candidates were looked at. -/
structure CandidatesDone (faults : Bool) (agent : AgentRef)
    (candidates todo : List HeartbeatTriggerCandidate) (w w' : ApiWorld)
    (out : ApiResult (List HeartbeatItem)) : Prop where
  kept : Kept agent candidates w w'
  settled : ∀ items, out = .ok items → List.Forall₂ (Settled agent w w') todo items
  answers : (∀ candidate ∈ todo, w.found agent candidate.key ≠ [] ∧
      ∃ schedule, candidate.schedule = .ok schedule) → faults = false → ∃ items, out = .ok items

theorem wp_materializeCandidates {agentId : Uuid} {todo : List HeartbeatTriggerCandidate}
    (happly : req.apply = true) (hagent : agent = ⟨grant.tenantId, agentId⟩)
    (htodo : ∀ candidate ∈ todo, candidate ∈ candidates) (hone : AtMostOne agent candidates w) :
    wp ⟨applyStep config.backend faults file⟩ (applyContract agent candidates)
      (materializeCandidates rt config req grant agentId source todo)
      (CandidatesDone faults agent candidates todo w) w := by
  induction todo generalizing w with
  | nil =>
    intro s hrely
    refine ⟨Kept.of_same hone hrely, fun items hitems => ?_, fun _ _ => ⟨_, rfl⟩⟩
    cases hitems
    exact .nil
  | cons candidate todo ih =>
    have hmem := htodo candidate List.mem_cons_self
    refine Handler.wp_seq (wp_materializeCandidate happly hagent hmem hone) (fun s item hfirst => ?_)
      fun s e hfirst => ?_
    · have hrest := ih (fun other hother => htodo other (List.mem_cons_of_mem _ hother))
        hfirst.kept.atMostOne
      refine Handler.wp_seq hrest (fun s' items hdone s'' hrely => ?_) fun s' e hdone => ?_
      · have hlast := Kept.of_same hdone.kept.atMostOne hrely
        refine ⟨(hfirst.kept.trans hdone.kept).trans hlast, fun out hout => ?_, fun _ _ => ⟨_, rfl⟩⟩
        cases hout
        refine .cons ((hfirst.settled item rfl).trans hmem (hdone.kept.trans hlast)) ?_
        have hthose : ∀ other ∈ todo, other ∈ candidates :=
          fun other hother => htodo other (List.mem_cons_of_mem _ hother)
        refine ((List.forall₂_and_left _ _).mpr ⟨hthose, hdone.settled items rfl⟩).imp ?_
        rintro other item' ⟨hother, hsettled⟩
        exact (hsettled.of_kept hother hfirst.kept).trans hother hlast
      · refine ⟨hfirst.kept.trans hdone.kept, fun _ h => (nomatch h), fun hall hfaults => ?_⟩
        refine absurd (hdone.answers (fun other hother => ?_) hfaults) fun ⟨_, h⟩ => nomatch h
        obtain ⟨hne, hschedule⟩ := hall other (List.mem_cons_of_mem _ hother)
        rw [hfirst.kept.stays other (htodo other (List.mem_cons_of_mem _ hother)) hne]
        exact ⟨hne, hschedule⟩
    · refine ⟨hfirst.kept, fun _ h => (nomatch h), fun hall hfaults => ?_⟩
      obtain ⟨hne, hschedule⟩ := hall candidate List.mem_cons_self
      exact absurd (hfirst.answers hne hfaults hschedule) fun ⟨_, h⟩ => nomatch h

end Apply

end Api
end SecureAgnt

/-
When cron triggers are created alike on the two back ends.

The same request is made to both from the same tables at the same instant.  They agree if
they answer with the same status, and, where they accept, store the same columns: the
times that the database fills in to the second, `next_fire_at` up to the jitter.
-/
import SecureAgnt.Api.Instant
import SecureAgnt.Api.Manage
import SecureAgnt.Trigger.Plan

namespace SecureAgnt
namespace Api

open Storage (Backend)
open Trigger (TriggerRuntime TriggerType applyJitter second)

/-! ## Agreement -/

/-- What Postgres stores is what SQLite stores, or that with the jitter of the trigger. -/
def SameDue (rt : TriggerRuntime) (now : Int) (row row' : TriggerRecord) : Prop :=
  row.nextFireAt = row'.nextFireAt ∨
    row.nextFireAt = applyJitter rt row'.nextFireAt row'.id.text row'.jitterSeconds now

/-- The columns that no clock fills in. -/
def TriggerRecord.settings (row : TriggerRecord) : TriggerRecord :=
  { row with nextFireAt := 0, createdAt := 0, updatedAt := 0 }

structure SameTrigger (rt : TriggerRuntime) (now : Int) (row row' : TriggerRecord) : Prop where
  settings : row.settings = row'.settings
  due : SameDue rt now row row'
  created : Backend.sqlite.stamp row.createdAt = Backend.sqlite.stamp row'.createdAt
  updated : Backend.sqlite.stamp row.updatedAt = Backend.sqlite.stamp row'.updatedAt

/-- Both accept, or both refuse with the same status and code. -/
def SameReply {α : Type} (same : α → α → Prop) : ApiResult α → ApiResult α → Prop
  | .ok a, .ok a' => same a a'
  | .error e, .error e' => e.status = e'.status ∧ e.code = e'.code
  | _, _ => False

/-- The replies agree, and so do the tables after them. -/
structure ManagedAlike (rt : TriggerRuntime) (now : Int)
    (pg sq : ApiResult TriggerRecord × ApiWorld) : Prop where
  reply : SameReply (SameTrigger rt now) pg.1 sq.1
  stored : List.Forall₂ (SameTrigger rt now) pg.2.triggers sq.2.triggers

/-- The same configuration on a back end. -/
def ApiConfig.on (config : ApiConfig) (b : Backend) : ApiConfig := { config with backend := b }

section Rules

variable {rt : TriggerRuntime} {now : Int} {row row' : TriggerRecord}

theorem SameTrigger.refl (rt : TriggerRuntime) (now : Int) (row : TriggerRecord) :
    SameTrigger rt now row row :=
  ⟨rfl, .inl rfl, rfl, rfl⟩

theorem forall₂_sameTrigger_refl (rt : TriggerRuntime) (now : Int) (rows : List TriggerRecord) :
    List.Forall₂ (SameTrigger rt now) rows rows :=
  List.forall₂_same.mpr fun row _ => SameTrigger.refl rt now row

/-- Two refusals with the tables unchanged. -/
theorem managedAlike_refused {w : ApiWorld} {e e' : ApiError} (hstatus : e.status = e'.status)
    (hcode : e.code = e'.code) : ManagedAlike rt now (.error e, w) (.error e', w) :=
  ⟨⟨hstatus, hcode⟩, forall₂_sameTrigger_refl rt now w.triggers⟩

/-- The times that the two databases fill in are the same to the second. -/
theorem stamp_alike (now : Int) : Backend.sqlite.stamp (Backend.postgres.currentTimestamp now) =
    Backend.sqlite.stamp (Backend.sqlite.currentTimestamp now) := by
  show now / 10 ^ 9 = now / 10 ^ 9 * 10 ^ 9 / 10 ^ 9
  omega

/-- The jitter of one trigger at one time is a constant. -/
theorem applyJitter_inj {id : String} {jitterSeconds s t : Int} :
    applyJitter rt s id jitterSeconds now = applyJitter rt t id jitterSeconds now ↔ s = t := by
  unfold applyJitter
  split
  · exact Iff.rfl
  · exact Int.add_left_inj _

/-- A time with jitter agrees with a time exactly if one of the two times is that time. -/
theorem sameDue_jittered (row row' : TriggerRecord) (due : Int) (hid : row.id = row'.id)
    (hjitter : row.jitterSeconds = row'.jitterSeconds)
    (hdue : row.nextFireAt = applyJitter rt due row.id.text row.jitterSeconds now) :
    SameDue rt now row row' ↔ due = row'.nextFireAt ∨
      applyJitter rt due row.id.text row.jitterSeconds now = row'.nextFireAt := by
  unfold SameDue
  rw [hdue, ← hid, ← hjitter, applyJitter_inj]
  exact Or.comm

end Rules

/-! ## Statements -/

section Statements

variable {env : ApiInstant} {b : Backend} {w : ApiWorld}

theorem exec_query (q : ApiQuery) (context : String) :
    (query q context).exec (env.answer b) w =
      ((env.answerQuery b w q).1.mapError fun err => .internal (context ++ err),
        (env.answerQuery b w q).2) := by
  rw [query, Prog.exec_perform_bind, Prog.exec_ofExcept]
  rfl

@[simp] theorem exec_nowUtc : nowUtc.exec (env.answer b) w = (.ok w.clock, w) := rfl

@[simp] theorem exec_newUuid : newUuid.exec (env.answer b) w = (.ok (env.newId w), w) := rfl

theorem exec_getTrigger (tenantId : String) (triggerId : Uuid) (context : String) :
    (query (.getTrigger tenantId triggerId) context).exec (env.answer b) w =
      (.ok (w.trigger? tenantId triggerId), w) := exec_query _ _

/-- The handlers end with the audit event of a trigger that is there. -/
theorem exec_audited {α : Type} {triggerId : Uuid} (h : triggerId ∈ w.triggers.map (·.id))
    (tenantId : String) (role : RolePreset) (eventType : String) (details : Json) (a : α) :
    ∃ events, (appendTriggerAudit tenantId triggerId role eventType details >>= fun _ =>
      Prog.pure a).exec (env.answer b) w = (.ok a, { w with triggerAudit := events }) := by
  have hanswer : ∀ event : TriggerAuditEvent, event.triggerId = triggerId →
      env.answerQuery b w (.appendTriggerAuditEvent event) =
        (.ok (), { w with triggerAudit := w.triggerAudit ++ [event] }) :=
    fun event hevent => if_pos (decide_eq_true (hevent ▸ h))
  unfold appendTriggerAudit
  rw [Prog.exec_bind, Prog.exec_bind, exec_newUuid, Prog.thenExec_ok, exec_query, hanswer _ rfl]
  exact ⟨_, rfl⟩

theorem exec_insertNewTrigger (new : NewTrigger) (context : String) :
    (insertNewTrigger b new context).exec (env.answer b) w =
      if w.AllowsTrigger b (new.row b w.clock) then
        (.ok (new.row b w.clock), { w with triggers := w.triggers ++ [new.row b w.clock] })
      else (.error (.internal (context ++ env.constraintText b)), w) := by
  have hinsert : (query (.insertTrigger new) context).exec (env.answer b) w =
      if w.AllowsTrigger b (new.row b w.clock) then
        (.ok (new.row b w.clock), { w with triggers := w.triggers ++ [new.row b w.clock] })
      else (.error (.internal (context ++ env.constraintText b)), w) := by
    rw [exec_query]
    show (Except.mapError _ (env.orFail b w _ _ _).1, (env.orFail b w _ _ _).2) = _
    unfold ApiInstant.orFail
    by_cases h : w.AllowsTrigger b (new.row b w.clock)
    · simp only [h, decide_true, if_true, Except.mapError]
    · simp only [h, decide_false, if_false, Bool.false_eq_true, Except.mapError]
  cases b with
  | postgres => exact hinsert
  | sqlite =>
    show (query (.insertTrigger new) context >>= _).exec (env.answer .sqlite) w = _
    rw [Prog.exec_bind, hinsert]
    by_cases h : w.AllowsTrigger .sqlite (new.row .sqlite w.clock)
    · have hread : ({ w with triggers := w.triggers ++ [new.row .sqlite w.clock] } :
          ApiWorld).trigger? new.tenantId new.id = some (new.row .sqlite w.clock) := by
        have hnone : w.triggers.find? (fun row => row.tenantId = new.tenantId && row.id = new.id) =
            none := by
          refine List.find?_eq_none.mpr fun row hrow htest => h.1 ?_
          simp only [Bool.and_eq_true, decide_eq_true_eq] at htest
          exact List.mem_map.mpr ⟨row, hrow, htest.2⟩
        show (w.triggers ++ [new.row .sqlite w.clock]).find? _ = _
        rw [List.find?_append, hnone, Option.none_or]
        exact List.find?_cons_of_pos (by simp [NewTrigger.row])
      rw [if_pos h, Prog.thenExec_ok, Prog.exec_bind, exec_getTrigger, hread]
      rfl
    · rw [if_neg h]
      rfl

end Statements

/-! ## Creating a cron trigger -/

section Creates

variable (rt : ApiRuntime) (config : ApiConfig) (env : ApiInstant) (headers : HeaderMap)
  (req : CreateCronTriggerRequest) (w : ApiWorld)

/-- How a back end answers the request, and the tables after it. -/
def createOn (b : Backend) : ApiResult TriggerRecord × ApiWorld :=
  (createCronTriggerHandler rt (config.on b) headers req).exec (env.answer b) w

def CreatesAlike : Prop :=
  ManagedAlike rt.toTriggerRuntime w.clock (createOn rt config env headers req w .postgres)
    (createOn rt config env headers req w .sqlite)

/-- What both handlers grant the caller. -/
def createGrant : ApiResult TriggerGrant := do
  checkCreateCronTrigger req
  admitTriggerCreate rt config.state headers req.triggeredByUserId req.recipeId
    req.requestedCapabilities

/-- The tenant has no room for another trigger. -/
def TenantFull (tenantId : String) : Prop :=
  ∃ limit, config.tenantMaxTriggers = some limit ∧ limit ≤ w.tenantTriggers tenantId

/-- The row of the new trigger would break a key. -/
def BreaksKey (grant : TriggerGrant) : Prop :=
  env.newId w ∈ w.triggers.map (·.id) ∨ req.agentId ∉ w.agents ∨
    ∃ user, grant.triggeredByUserId = some user ∧ user ∉ w.users

/-- Both back ends refuse the request: its fields or its caller, a full tenant, or a row that
breaks a key. -/
def CreateRefused : Prop :=
  ∀ grant, createGrant rt config headers req = .ok grant →
    TenantFull config w grant.tenantId ∨ BreaksKey env req w grant

/-- The first `next_fire_at` on each back end, without jitter. -/
def firstDue (b : Backend) : Except String Int :=
  match b with
  | .postgres => rt.nextCronFireAt (Text.trim req.cronExpression) (Text.trim req.scheduleTimezone)
    w.clock
  | .sqlite => .ok w.clock

/-- What a back end stores for an instant. -/
def storedDue (rt : ApiRuntime) (now : Int) (id : Uuid) (jitterSeconds : Int) (b : Backend)
    (due : Int) : Int :=
  match b with
  | .postgres => applyJitter rt.toTriggerRuntime due id.text jitterSeconds now
  | .sqlite => due

/-- What a back end inserts for a first instant. -/
abbrev newCronTrigger (grant : TriggerGrant) (b : Backend) (due : Int) : NewTrigger where
  id := env.newId w
  tenantId := grant.tenantId
  agentId := req.agentId
  triggeredByUserId := grant.triggeredByUserId
  recipeId := req.recipeId
  triggerType := .cron
  cronExpression := some (Text.trim req.cronExpression)
  scheduleTimezone := Text.trim req.scheduleTimezone
  maxAttempts := req.maxAttempts
  maxInflightRuns := req.maxInflightRuns
  jitterSeconds := req.jitterSeconds
  inputJson := req.input
  requestedCapabilities := req.requestedCapabilities
  grantedCapabilities := grant.grantedCapabilities
  nextFireAt := some (storedDue rt w.clock (env.newId w) req.jitterSeconds b due)

abbrev createdTrigger (grant : TriggerGrant) (b : Backend) (due : Int) : TriggerRecord :=
  (newCronTrigger rt env req w grant b due).row b w.clock

end Creates

section CreateRules

variable {rt : ApiRuntime} {config : ApiConfig} (env : ApiInstant) {headers : HeaderMap}
  {req : CreateCronTriggerRequest} {w : ApiWorld} {b : Backend} {grant : TriggerGrant}

theorem exec_capacity_of_room {tenantId : String} (h : ¬ TenantFull config w tenantId) :
    (ensureTenantTriggerCapacity (config.on b) tenantId).exec (env.answer b) w = (.ok (), w) := by
  unfold ensureTenantTriggerCapacity ensureTenantCapacity
  rw [show (config.on b).tenantMaxTriggers = config.tenantMaxTriggers from rfl]
  cases hlimit : config.tenantMaxTriggers with
  | none => rfl
  | some limit =>
    have hroom : ¬ limit ≤ w.tenantTriggers tenantId := fun hle => h ⟨limit, hlimit, hle⟩
    dsimp only
    rw [Prog.exec_bind, exec_query]
    show Prog.exec _ (if limit ≤ w.tenantTriggers tenantId then _ else _) w = _
    rw [if_neg hroom]
    rfl

theorem exec_capacity_of_full {tenantId : String} (h : TenantFull config w tenantId) :
    ∃ e, ∀ b, (ensureTenantTriggerCapacity (config.on b) tenantId).exec (env.answer b) w =
      (.error e, w) := by
  obtain ⟨limit, hlimit, hle⟩ := h
  refine ⟨tenantLimited "TENANT_TRIGGER_LIMITED" "trigger" "triggers" limit
    (w.tenantTriggers tenantId), fun b => ?_⟩
  unfold ensureTenantTriggerCapacity ensureTenantCapacity
  rw [show (config.on b).tenantMaxTriggers = some limit from hlimit]
  dsimp only
  rw [Prog.exec_bind, exec_query]
  show Prog.exec _ (if limit ≤ w.tenantTriggers tenantId then _ else _) w = _
  rw [if_pos hle]
  rfl

theorem exec_firstCronFireAt (id : Uuid) (context : String) :
    (firstCronFireAt rt b id (Text.trim req.cronExpression) (Text.trim req.scheduleTimezone)
      req.jitterSeconds context).exec (env.answer b) w =
    match firstDue rt req w b with
    | .error message => (.error (.internal (context ++ protocolError message)), w)
    | .ok due => (.ok (storedDue rt w.clock id req.jitterSeconds b due), w) := by
  cases b with
  | sqlite => rfl
  | postgres =>
    unfold firstCronFireAt firstDue
    dsimp only
    rw [Prog.exec_bind, exec_nowUtc, Prog.thenExec_ok]
    cases rt.nextCronFireAt (Text.trim req.cronExpression) (Text.trim req.scheduleTimezone)
      w.clock <;> rfl

/-- Both back ends stop before they look at the schedule. -/
theorem create_stopped (h : ∀ grant, createGrant rt config headers req = .ok grant →
    TenantFull config w grant.tenantId) :
    ∃ e, ∀ b, createOn rt config env headers req w b = (.error e, w) := by
  unfold createGrant at h
  unfold createOn createCronTriggerHandler
  cases hcheck : checkCreateCronTrigger req with
  | error e =>
    refine ⟨e, fun b => ?_⟩
    rw [Prog.exec_bind, Prog.exec_ofExcept, Prog.thenExec_error]
  | ok u =>
    cases hgranted : admitTriggerCreate rt config.state headers req.triggeredByUserId req.recipeId
      req.requestedCapabilities with
    | error e =>
      refine ⟨e, fun b => ?_⟩
      rw [Prog.exec_bind, Prog.exec_ofExcept, Prog.thenExec_ok, Prog.exec_bind, Prog.exec_ofExcept,
        show (config.on b).state = config.state from rfl, hgranted, Prog.thenExec_error]
    | ok grant =>
      rw [hcheck, hgranted] at h
      obtain ⟨e, he⟩ := exec_capacity_of_full env (h grant rfl)
      refine ⟨e, fun b => ?_⟩
      rw [Prog.exec_bind, Prog.exec_ofExcept, Prog.thenExec_ok, Prog.exec_bind, Prog.exec_ofExcept,
        show (config.on b).state = config.state from rfl, hgranted, Prog.thenExec_ok,
        Prog.exec_bind, he, Prog.thenExec_error]

/-- Past the checks a back end computes the first instant and stores the row. -/
theorem create_scheduled (hgrant : createGrant rt config headers req = .ok grant)
    (hroom : ¬ TenantFull config w grant.tenantId) :
    match firstDue rt req w b with
    | .error _ =>
      ∃ message, createOn rt config env headers req w b = (.error (.internal message), w)
    | .ok due =>
      if w.AllowsTrigger b (createdTrigger rt env req w grant b due) then
        ∃ events, createOn rt config env headers req w b =
          (.ok (createdTrigger rt env req w grant b due), { w with
            triggers := w.triggers ++ [createdTrigger rt env req w grant b due]
            triggerAudit := events })
      else ∃ message, createOn rt config env headers req w b = (.error (.internal message), w) := by
  unfold createGrant at hgrant
  cases hcheck : checkCreateCronTrigger req with
  | error e =>
    rw [hcheck] at hgrant
    cases hgrant
  | ok u =>
  rw [hcheck] at hgrant
  have hgranted : admitTriggerCreate rt config.state headers req.triggeredByUserId req.recipeId
      req.requestedCapabilities = .ok grant := hgrant
  unfold createOn createCronTriggerHandler
  rw [Prog.exec_bind, Prog.exec_ofExcept, hcheck, Prog.thenExec_ok, Prog.exec_bind,
    Prog.exec_ofExcept, show (config.on b).state = config.state from rfl, hgranted,
    Prog.thenExec_ok, Prog.exec_bind, exec_capacity_of_room env hroom, Prog.thenExec_ok,
    Prog.exec_bind, exec_newUuid, Prog.thenExec_ok, Prog.exec_bind,
    show (config.on b).backend = b from rfl, exec_firstCronFireAt]
  cases firstDue rt req w b with
  | error message => exact ⟨_, rfl⟩
  | ok due =>
    dsimp only
    rw [Prog.thenExec_ok, Prog.exec_bind,
      exec_insertNewTrigger (newCronTrigger rt env req w grant b due)]
    by_cases hallows : w.AllowsTrigger b (createdTrigger rt env req w grant b due)
    · rw [if_pos hallows, if_pos hallows, Prog.thenExec_ok]
      refine exec_audited ?_ _ _ _ _ _
      exact List.mem_map_of_mem (List.mem_append_right _ List.mem_cons_self)
    · rw [if_neg hallows, if_neg hallows]
      exact ⟨_, rfl⟩

theorem checked_createdTrigger (hgrant : createGrant rt config headers req = .ok grant)
    (due : Int) : (createdTrigger rt env req w grant b due).checked b = true := by
  cases hcheck : checkCreateCronTrigger req with
  | error e =>
    unfold createGrant at hgrant
    rw [hcheck] at hgrant
    cases hgrant
  | ok u =>
    unfold checkCreateCronTrigger checkMaxAttempts checkInflightAndJitter at hcheck
    split at hcheck
    · cases hcheck
    split at hcheck
    · cases hcheck
    rename_i htimezone
    split at hcheck
    · cases hcheck
    rename_i hanswer
    split at hanswer
    · cases hanswer
    rename_i hattempts
    split at hcheck
    · cases hcheck
    rename_i hinflight
    split at hcheck
    · cases hcheck
    rename_i hjitter
    simp only [Bool.or_eq_true, decide_eq_true_eq] at hattempts hinflight hjitter
    have hnumbers : 0 < req.maxAttempts ∧ 0 < req.maxInflightRuns ∧ 0 ≤ req.jitterSeconds ∧
        req.jitterSeconds ≤ 3600 := by omega
    cases b <;> simp [TriggerRecord.checked, NewTrigger.row, TriggerRecord.scheduled, hnumbers,
      htimezone]

/-- With the checks passed, only a key stops the row. -/
theorem allows_createdTrigger (hgrant : createGrant rt config headers req = .ok grant)
    (due : Int) : w.AllowsTrigger b (createdTrigger rt env req w grant b due) ↔
      ¬ BreaksKey env req w grant := by
  unfold BreaksKey
  constructor
  · intro h hbreaks
    rcases hbreaks with htaken | hagent | ⟨user, huser, hmissing⟩
    · exact h.1 htaken
    · exact hagent h.2.1
    · exact hmissing (h.2.2.1 user huser)
  · intro h
    simp only [not_or, not_exists, not_and, not_not] at h
    exact ⟨h.1, h.2.1, h.2.2, checked_createdTrigger env hgrant due⟩

/-- The two rows differ at most in the instant. -/
theorem sameTrigger_created (grant : TriggerGrant) (due due' : Int) :
    SameTrigger rt.toTriggerRuntime w.clock (createdTrigger rt env req w grant .postgres due)
        (createdTrigger rt env req w grant .sqlite due') ↔ due = due' ∨
      applyJitter rt.toTriggerRuntime due (env.newId w).text req.jitterSeconds w.clock = due' := by
  have hdue : SameDue rt.toTriggerRuntime w.clock (createdTrigger rt env req w grant .postgres due)
      (createdTrigger rt env req w grant .sqlite due') ↔ due = due' ∨
        applyJitter rt.toTriggerRuntime due (env.newId w).text req.jitterSeconds w.clock = due' :=
    sameDue_jittered (createdTrigger rt env req w grant .postgres due)
      (createdTrigger rt env req w grant .sqlite due') due rfl rfl rfl
  refine Iff.trans ?_ hdue
  constructor
  · intro h
    exact h.due
  · intro h
    exact ⟨rfl, h, stamp_alike w.clock, stamp_alike w.clock⟩

end CreateRules

/-- Creates agree exactly if both back ends refuse, or the expression's next instant, with or
without jitter, is the very time of the request. -/
theorem creates_alike_iff (rt : ApiRuntime) (config : ApiConfig) (env : ApiInstant)
    (headers : HeaderMap) (req : CreateCronTriggerRequest) (w : ApiWorld) :
    CreatesAlike rt config env headers req w ↔ CreateRefused rt config env headers req w ∨
      ∃ due, rt.nextCronFireAt (Text.trim req.cronExpression) (Text.trim req.scheduleTimezone)
        w.clock = .ok due ∧ (due = w.clock ∨ applyJitter rt.toTriggerRuntime due
          (env.newId w).text req.jitterSeconds w.clock = w.clock) := by
  by_cases hstop : ∀ grant, createGrant rt config headers req = .ok grant →
      TenantFull config w grant.tenantId
  · obtain ⟨e, he⟩ := create_stopped env hstop
    refine iff_of_true ?_ (.inl fun grant hgrant => .inl (hstop grant hgrant))
    unfold CreatesAlike
    rw [he, he]
    exact managedAlike_refused rfl rfl
  simp only [not_forall] at hstop
  obtain ⟨grant, hgrant, hroom⟩ := hstop
  by_cases hbreaks : BreaksKey env req w grant
  · have herror : ∀ b, ∃ message, createOn rt config env headers req w b =
        (.error (.internal message), w) := by
      intro b
      have hend := create_scheduled env (b := b) hgrant hroom
      cases hnext : firstDue rt req w b with
      | error message =>
        rw [hnext] at hend
        exact hend
      | ok due =>
        have hallows := mt (allows_createdTrigger (b := b) env hgrant due).mp (not_not.mpr hbreaks)
        rw [hnext] at hend
        dsimp only at hend
        rwa [if_neg hallows] at hend
    obtain ⟨message, hpg⟩ := herror .postgres
    obtain ⟨message', hsq⟩ := herror .sqlite
    refine iff_of_true ?_ (.inl fun grant' hgrant' => .inr ?_)
    · unfold CreatesAlike
      rw [hpg, hsq]
      exact managedAlike_refused rfl rfl
    · cases hgrant.symm.trans hgrant'
      exact hbreaks
  · have hrefused : ¬ CreateRefused rt config env headers req w := by
      intro h
      rcases h grant hgrant with hfull | h
      · exact hroom hfull
      · exact hbreaks h
    have hpg := create_scheduled env (b := .postgres) hgrant hroom
    have hsq := create_scheduled env (b := .sqlite) hgrant hroom
    simp only [firstDue] at hpg hsq
    rw [if_pos ((allows_createdTrigger env hgrant w.clock).mpr hbreaks)] at hsq
    obtain ⟨events', hsq⟩ := hsq
    unfold CreatesAlike
    rw [hsq, or_iff_right hrefused]
    cases hnext : rt.nextCronFireAt (Text.trim req.cronExpression) (Text.trim req.scheduleTimezone)
      w.clock with
    | error message =>
      rw [hnext] at hpg
      obtain ⟨text, hpg⟩ := hpg
      rw [hpg]
      refine iff_of_false (fun h => h.reply) ?_
      rintro ⟨due, hdue, _⟩
      cases hdue
    | ok due =>
      rw [hnext] at hpg
      dsimp only at hpg
      rw [if_pos ((allows_createdTrigger env hgrant due).mpr hbreaks)] at hpg
      obtain ⟨events, hpg⟩ := hpg
      rw [hpg]
      simp only [Except.ok.injEq, exists_eq_left']
      constructor
      · intro h
        exact (sameTrigger_created env grant due w.clock).mp h.reply
      · intro h
        have hsame := (sameTrigger_created env grant due w.clock).mpr h
        exact ⟨hsame, List.rel_append (forall₂_sameTrigger_refl _ _ w.triggers)
          (.cons hsame .nil)⟩

end Api
end SecureAgnt

/-
When updates of a trigger end alike on the two back ends.

`updateTarget` is what both handlers check, `UpdatePasses` what they know after it.  Postgres
then computes a new `next_fire_at` from the schedule; SQLite keeps the old one, and does not
evaluate the schedule.
-/
import SecureAgnt.Api.CreatesAlike

namespace SecureAgnt
namespace Api

open Storage (Backend)
open Trigger (TriggerType applyJitter)

/-- Tables that either back end can hold: the keys are unique and the rows pass the checks of
Postgres. -/
structure SharedTables extends ApiWorld where
  ids_nodup : (triggers.map (·.id)).Nodup
  rows_checked : ∀ row ∈ triggers, row.checked .postgres = true

section Updates

variable (rt : ApiRuntime) (config : ApiConfig) (env : ApiInstant) (headers : HeaderMap)
  (triggerId : Uuid) (req : UpdateTriggerRequest) (w : ApiWorld)

def updateOn (b : Backend) : ApiResult TriggerRecord × ApiWorld :=
  (updateTriggerHandler rt (config.on b) headers triggerId req).exec (env.answer b) w

def UpdatesAlike : Prop :=
  ManagedAlike rt.toTriggerRuntime w.clock
    (updateOn rt config env headers triggerId req w .postgres)
    (updateOn rt config env headers triggerId req w .sqlite)

/-- The checks that both handlers make, and the trigger they let through. -/
def updateTarget : ApiResult (TriggerCaller × TriggerRecord) := do
  let caller ← admitTriggerMutation rt config.state headers
  req.check
  match w.trigger? caller.tenantId triggerId with
  | none => .error (.notFound "trigger not found")
  | some existing => do
    ensureTriggerOperatorOwnership caller.role caller.actorUserId existing.triggeredByUserId
    match req.mismatch existing.triggerType with
    | some message => .error (.badRequest message)
    | none => .ok (caller, existing)

/-- The row that an update leaves, with a new `next_fire_at` if there is one. -/
def updatedTrigger (existing : TriggerRecord) (b : Backend) (nextFireAt : Option Int) :
    TriggerRecord :=
  (req.overlay b existing nextFireAt).row b w.clock existing

/-- The new `next_fire_at` of Postgres, before jitter. -/
def regularDue (existing : TriggerRecord) : Except String Int :=
  regularFireAt rt w.clock existing (req.overlay .postgres existing none)

/-- The new `next_fire_at` of Postgres. -/
def jitteredDue (existing : TriggerRecord) (due : Int) : Int :=
  applyJitter rt.toTriggerRuntime due existing.id.text
    (req.jitterSeconds.getD existing.jitterSeconds) w.clock

/-- The reference to the secret is the same with and without the trimming of SQLite. -/
def KeepsSecret (existing : TriggerRecord) : Prop :=
  (givenSecretRef .postgres req.webhookSecretRef).or existing.webhookSecretRef =
    (givenSecretRef .sqlite req.webhookSecretRef).or existing.webhookSecretRef

end Updates

section UpdateRules

variable {rt : ApiRuntime} {config : ApiConfig} {env : ApiInstant} {headers : HeaderMap}
  {triggerId : Uuid} {req : UpdateTriggerRequest} {w : ApiWorld} {b : Backend}
  {caller : TriggerCaller} {existing : TriggerRecord}

/-- Both back ends stop at the same check. -/
theorem update_stopped {e : ApiError}
    (h : updateTarget rt config headers triggerId req w = .error e) (b : Backend) : updateOn rt config env headers triggerId req w b = (.error e, w) := by
  unfold updateTarget at h
  unfold updateOn updateTriggerHandler
  rw [Prog.exec_bind, Prog.exec_ofExcept, show (config.on b).state = config.state from rfl]
  cases hcaller : admitTriggerMutation rt config.state headers with
  | error e' =>
    rw [hcaller] at h
    cases h
    rfl
  | ok caller =>
    rw [hcaller] at h
    rw [Prog.thenExec_ok, Prog.exec_bind, Prog.exec_ofExcept]
    cases hcheck : req.check with
    | error e' =>
      simp only [hcheck, bind, Except.bind] at h
      cases h
      rfl
    | ok u =>
      rw [Prog.thenExec_ok, Prog.exec_bind, exec_getTrigger, Prog.thenExec_ok]
      simp only [hcheck, bind, Except.bind] at h
      cases hfound : w.trigger? caller.tenantId triggerId with
      | none =>
        rw [hfound] at h
        cases h
        rfl
      | some existing =>
        rw [hfound] at h
        dsimp only at h ⊢
        rw [Prog.exec_bind, Prog.exec_ofExcept]
        cases howner : ensureTriggerOperatorOwnership caller.role caller.actorUserId
          existing.triggeredByUserId with
        | error e' =>
          rw [howner] at h
          cases h
          rfl
        | ok u =>
          rw [howner] at h
          rw [Prog.thenExec_ok]
          cases hmismatch : req.mismatch existing.triggerType with
          | some message =>
            rw [hmismatch] at h
            cases h
            rfl
          | none =>
            rw [hmismatch] at h
            cases h

/-- What the checks have found. -/
structure UpdatePasses (rt : ApiRuntime) (config : ApiConfig) (headers : HeaderMap)
    (triggerId : Uuid) (req : UpdateTriggerRequest) (w : ApiWorld) (caller : TriggerCaller)
    (existing : TriggerRecord) : Prop where
  admitted : admitTriggerMutation rt config.state headers = .ok caller
  checked : req.check = .ok ()
  found : w.trigger? caller.tenantId triggerId = some existing
  owned : ensureTriggerOperatorOwnership caller.role caller.actorUserId
    existing.triggeredByUserId = .ok ()
  fits : req.mismatch existing.triggerType = none

theorem updatePasses (h : updateTarget rt config headers triggerId req w = .ok (caller, existing)) :
    UpdatePasses rt config headers triggerId req w caller existing := by
  unfold updateTarget at h
  cases hcaller : admitTriggerMutation rt config.state headers with
  | error e =>
    rw [hcaller] at h
    cases h
  | ok caller' =>
  cases hcheck : req.check with
  | error e =>
    simp only [hcaller, hcheck, bind, Except.bind] at h
    cases h
  | ok checked =>
  simp only [hcaller, hcheck, bind, Except.bind] at h
  cases hfound : w.trigger? caller'.tenantId triggerId with
  | none =>
    rw [hfound] at h
    cases h
  | some existing' =>
  rw [hfound] at h
  dsimp only at h
  cases howner : ensureTriggerOperatorOwnership caller'.role caller'.actorUserId
    existing'.triggeredByUserId with
  | error e =>
    rw [howner] at h
    cases h
  | ok owned =>
  rw [howner] at h
  cases hmismatch : req.mismatch existing'.triggerType with
  | some message =>
    rw [hmismatch] at h
    cases h
  | none =>
    rw [hmismatch] at h
    cases h
    cases checked
    cases owned
    exact ⟨hcaller, hcheck, hfound, howner, hmismatch⟩

/-- Past the checks a back end answers what the change answers. -/
theorem UpdatePasses.ends (h : UpdatePasses rt config headers triggerId req w caller existing)
    {out : ApiResult (Option TriggerRecord)} {w' : ApiWorld}
    (hchange : (changeTriggerConfig rt b caller.tenantId triggerId existing req).exec
      (env.answer b) w = (out, w')) :
    (∀ e, out = .error e → updateOn rt config env headers triggerId req w b = (.error e, w')) ∧
    ∀ row, out = .ok (some row) → triggerId ∈ w'.triggers.map (·.id) → ∃ events,
      updateOn rt config env headers triggerId req w b =
        (.ok row, { w' with triggerAudit := events }) := by
  unfold updateOn updateTriggerHandler
  rw [Prog.exec_bind, Prog.exec_ofExcept, show (config.on b).state = config.state from rfl,
    h.admitted, Prog.thenExec_ok, Prog.exec_bind, Prog.exec_ofExcept, h.checked, Prog.thenExec_ok,
    Prog.exec_bind, exec_getTrigger, h.found, Prog.thenExec_ok]
  dsimp only
  rw [Prog.exec_bind, Prog.exec_ofExcept, h.owned, Prog.thenExec_ok, h.fits]
  dsimp only
  rw [Prog.exec_bind, show (config.on b).backend = b from rfl, hchange]
  constructor
  · rintro e rfl
    rfl
  · rintro row rfl hmem
    exact exec_audited hmem _ _ _ _ _

theorem exec_updateQuery {tenantId : String} (update : TriggerUpdate) (context : String)
    (hfound : w.trigger? tenantId triggerId = some existing)
    (hchecked : (update.row b w.clock existing).checked b = true) :
    (query (.updateTriggerConfig tenantId triggerId update) context).exec (env.answer b) w =
      (.ok (some (update.row b w.clock existing)),
        w.updateTrigger tenantId triggerId (update.row b w.clock)) := by
  have hanswer : env.answerQuery b w (.updateTriggerConfig tenantId triggerId update) =
      (.ok (some (update.row b w.clock existing)),
        w.updateTrigger tenantId triggerId (update.row b w.clock)) := by
    show env.orFail b w (((w.trigger? tenantId triggerId).map _).all _) _ _ = _
    rw [hfound]
    exact if_pos hchecked
  rw [exec_query, hanswer]
  rfl

/-- The row that was changed is the one that is read back. -/
theorem trigger?_updateTrigger {tenantId : String} (update : TriggerUpdate)
    (hfound : w.trigger? tenantId triggerId = some existing) :
    (w.updateTrigger tenantId triggerId (update.row b w.clock)).trigger? tenantId triggerId =
      some (update.row b w.clock existing) := by
  unfold ApiWorld.trigger? at hfound ⊢
  unfold ApiWorld.updateTrigger
  dsimp only
  have htest : ∀ row : TriggerRecord,
      ((if row.tenantId = tenantId && row.id = triggerId then update.row b w.clock row
        else row).tenantId = tenantId && (if row.tenantId = tenantId && row.id = triggerId then
          update.row b w.clock row else row).id = triggerId : Bool) =
        (row.tenantId = tenantId && row.id = triggerId : Bool) := by
    intro row
    split <;> rfl
  rw [List.find?_map]
  simp only [Function.comp_def, htest]
  rw [hfound]
  have hrow := List.find?_some hfound
  exact congrArg some (if_pos hrow)

theorem exec_change_sqlite (env : ApiInstant)
    (h : UpdatePasses rt config headers triggerId req w caller existing)
    (hchecked : (updatedTrigger req w existing .sqlite none).checked .sqlite = true) :
    (changeTriggerConfig rt .sqlite caller.tenantId triggerId existing req).exec
      (env.answer .sqlite) w = (.ok (some (updatedTrigger req w existing .sqlite none)),
        w.updateTrigger caller.tenantId triggerId
          ((req.overlay .sqlite existing none).row .sqlite w.clock)) := by
  unfold changeTriggerConfig
  dsimp only
  rw [Prog.exec_bind, exec_updateQuery _ _ h.found hchecked, Prog.thenExec_ok, exec_getTrigger,
    trigger?_updateTrigger _ h.found]
  rfl

theorem exec_change_postgres (env : ApiInstant)
    (h : UpdatePasses rt config headers triggerId req w caller existing)
    {due : Int} (hdue : regularDue rt req w existing = .ok due)
    (hchecked : (updatedTrigger req w existing .postgres
      (some (jitteredDue rt req w existing due))).checked .postgres = true) :
    (changeTriggerConfig rt .postgres caller.tenantId triggerId existing req).exec
      (env.answer .postgres) w = (.ok (some (updatedTrigger req w existing .postgres
          (some (jitteredDue rt req w existing due)))),
        w.updateTrigger caller.tenantId triggerId ((req.overlay .postgres existing
          (some (jitteredDue rt req w existing due))).row .postgres w.clock)) := by
  unfold changeTriggerConfig updateTriggerConfig
  dsimp only
  rw [Prog.exec_bind, exec_getTrigger, h.found, Prog.thenExec_ok]
  dsimp only
  rw [Prog.exec_bind, exec_nowUtc, Prog.thenExec_ok,
    show regularFireAt rt w.clock existing _ = .ok due from hdue]
  dsimp only
  rw [Prog.exec_bind, exec_nowUtc, Prog.thenExec_ok]
  exact exec_updateQuery _ _ h.found hchecked

theorem exec_change_unscheduled (env : ApiInstant)
    (h : UpdatePasses rt config headers triggerId req w caller existing)
    {message : String} (hdue : regularDue rt req w existing = .error message) :
    (changeTriggerConfig rt .postgres caller.tenantId triggerId existing req).exec
      (env.answer .postgres) w =
        (.error (.internal ("failed updating trigger: " ++ protocolError message)), w) := by
  unfold changeTriggerConfig updateTriggerConfig
  dsimp only
  rw [Prog.exec_bind, exec_getTrigger, h.found, Prog.thenExec_ok]
  dsimp only
  rw [Prog.exec_bind, exec_nowUtc, Prog.thenExec_ok,
    show regularFireAt rt w.clock existing _ = .error message from hdue]
  rfl

/-- What the check says of each field. -/
structure CheckedRequest (req : UpdateTriggerRequest) : Prop where
  interval : ∀ seconds, req.intervalSeconds = some seconds → 0 < seconds
  cron : ∀ text, req.cronExpression = some text → Text.isEmpty (Text.trim text) = false
  timezone : ∀ text, req.scheduleTimezone = some text → Text.isEmpty (Text.trim text) = false
  attempts : ∀ n, req.maxAttempts = some n → 0 < n
  inflight : ∀ n, req.maxInflightRuns = some n → 0 < n
  jitter : ∀ n, req.jitterSeconds = some n → 0 ≤ n ∧ n ≤ 3600

theorem checkedRequest (h : req.check = .ok ()) : CheckedRequest req := by
  unfold UpdateTriggerRequest.check at h
  split at h
  · cases h
  rename_i hinterval
  split at h
  · cases h
  rename_i hcron
  split at h
  · cases h
  rename_i htimezone
  split at h
  · cases h
  split at h
  · cases h
  rename_i hattempts
  split at h
  · cases h
  rename_i hinflight
  split at h
  · cases h
  rename_i hjitter
  simp only [Bool.not_eq_true, Option.any_eq_false] at hcron htimezone
  simp only [Bool.not_eq_true, Option.any_eq_false, Bool.or_eq_false_iff,
    decide_eq_false_iff_not] at hinterval hattempts hinflight
  simp only [Bool.not_eq_true, Option.any_eq_false, Bool.not_eq_false', Bool.and_eq_true,
    decide_eq_true_eq] at hjitter
  refine ⟨fun n hn => ?_, hcron, htimezone, fun n hn => ?_, fun n hn => ?_, hjitter⟩
  · have hbounds := hinterval n hn
    omega
  · have hbounds := hattempts n hn
    omega
  · have hbounds := hinflight n hn
    omega

theorem nonEmptyTrimmed_of_not_empty {text : String} (h : Text.isEmpty (Text.trim text) = false) :
    Text.nonEmptyTrimmed text = some (Text.trim text) := by
  unfold Text.nonEmptyTrimmed
  simp [h]

/-- Past the check the two back ends read the same texts. -/
theorem scheduleText_alike {text : Option String}
    (h : ∀ t, text = some t → Text.isEmpty (Text.trim t) = false) (b : Backend) :
    scheduleText b text = text.map Text.trim := by
  cases b with
  | postgres => rfl
  | sqlite =>
    cases text with
    | none => rfl
    | some t =>
      rw [scheduleText, Option.bind_some, nonEmptyTrimmed_of_not_empty (h t rfl), Option.map_some]

/-- An update that fits the type of a trigger leaves it with its schedule. -/
theorem scheduled_updatedTrigger
    (h : UpdatePasses rt config headers triggerId req w caller existing)
    (hscheduled : existing.scheduled = true) (nextFireAt : Option Int) :
    (updatedTrigger req w existing .postgres nextFireAt).scheduled = true := by
  have hreq := checkedRequest h.checked
  have hfits := h.fits
  unfold TriggerRecord.scheduled at hscheduled ⊢
  dsimp only [updatedTrigger, UpdateTriggerRequest.overlay, TriggerUpdate.row, scheduleText]
  unfold UpdateTriggerRequest.mismatch at hfits
  cases htype : existing.triggerType with
  | interval =>
    rw [htype] at hfits hscheduled
    cases hcron : req.cronExpression with
    | some text => simp [hcron] at hfits
    | none =>
      cases hgiven : req.intervalSeconds with
      | none => simpa using hscheduled
      | some seconds =>
        have hpos := hreq.interval seconds hgiven
        simp only [Bool.and_eq_true] at hscheduled
        simp [hpos, hscheduled.2]
  | cron =>
    rw [htype] at hfits hscheduled
    cases hgiven : req.intervalSeconds with
    | some seconds => simp [hgiven] at hfits
    | none =>
      simp only [Bool.and_eq_true] at hscheduled
      cases hcron : req.cronExpression with
      | none => simp [hscheduled]
      | some text => simp [hscheduled.1]
  | webhook =>
    rw [htype] at hfits hscheduled
    cases hgiven : req.intervalSeconds with
    | some seconds => simp [hgiven] at hfits
    | none =>
      cases hcron : req.cronExpression with
      | some text => simp [hcron] at hfits
      | none => simpa using hscheduled

/-- A row that passes the checks of Postgres still does after an update. -/
theorem checked_updatedTrigger (h : UpdatePasses rt config headers triggerId req w caller existing)
    (hvalid : existing.checked .postgres = true) (b : Backend) (nextFireAt : Option Int) :
    (updatedTrigger req w existing b nextFireAt).checked b = true := by
  have hreq := checkedRequest h.checked
  have hfits := h.fits
  simp only [TriggerRecord.checked, Bool.and_eq_true, decide_eq_true_eq] at hvalid
  obtain ⟨⟨⟨⟨hattempts, hinflight⟩, hjitter⟩, hfailures⟩, hscheduled, htimezone⟩ := hvalid
  have hattempts' : 0 < req.maxAttempts.getD existing.maxAttempts := by
    cases hgiven : req.maxAttempts with
    | none => exact hattempts
    | some n => exact hreq.attempts n hgiven
  have hinflight' : 0 < req.maxInflightRuns.getD existing.maxInflightRuns := by
    cases hgiven : req.maxInflightRuns with
    | none => exact hinflight
    | some n => exact hreq.inflight n hgiven
  have hjitter' : 0 ≤ req.jitterSeconds.getD existing.jitterSeconds ∧
      req.jitterSeconds.getD existing.jitterSeconds ≤ 3600 := by
    cases hgiven : req.jitterSeconds with
    | none => exact hjitter
    | some n => exact hreq.jitter n hgiven
  unfold TriggerRecord.checked
  simp only [Bool.and_eq_true, decide_eq_true_eq]
  refine ⟨⟨⟨⟨hattempts', hinflight'⟩, hjitter'⟩, hfailures⟩, ?_⟩
  cases b with
  | sqlite => rfl
  | postgres =>
    rw [scheduled_updatedTrigger h hscheduled, Bool.true_and]
    show (!Text.isEmpty ((req.scheduleTimezone.map Text.trim).getD
      existing.scheduleTimezone)) = true
    cases hgiven : req.scheduleTimezone with
    | none => exact htimezone
    | some text =>
      have hnonempty := hreq.timezone text hgiven
      simp [hnonempty]

/-- The two rows differ at most in the reference to the secret and in the instant. -/
theorem sameTrigger_updated (h : UpdatePasses rt config headers triggerId req w caller existing)
    (due : Int) :
    SameTrigger rt.toTriggerRuntime w.clock
        (updatedTrigger req w existing .postgres (some (jitteredDue rt req w existing due)))
        (updatedTrigger req w existing .sqlite none) ↔
      KeepsSecret req existing ∧ (due = existing.nextFireAt ∨
        jitteredDue rt req w existing due = existing.nextFireAt) := by
  have hreq := checkedRequest h.checked
  have hdue : SameDue rt.toTriggerRuntime w.clock
      (updatedTrigger req w existing .postgres (some (jitteredDue rt req w existing due)))
      (updatedTrigger req w existing .sqlite none) ↔ due = existing.nextFireAt ∨
        jitteredDue rt req w existing due = existing.nextFireAt :=
    sameDue_jittered _ _ due rfl rfl rfl
  constructor
  · intro hsame
    exact ⟨congrArg TriggerRecord.webhookSecretRef hsame.settings, hdue.mp hsame.due⟩
  · rintro ⟨hsecret, hinstant⟩
    refine ⟨?_, hdue.mpr hinstant, rfl, stamp_alike w.clock⟩
    unfold updatedTrigger TriggerUpdate.row UpdateTriggerRequest.overlay TriggerRecord.settings
    simp only [scheduleText_alike hreq.cron, scheduleText_alike hreq.timezone]
    rw [show (givenSecretRef .postgres req.webhookSecretRef).or existing.webhookSecretRef = _ from
      hsecret]

/-- With unique keys an update changes the row that was found and no other. -/
theorem forall₂_updated {f g : TriggerRecord → TriggerRecord} {tenantId : String}
    (hnodup : (w.triggers.map (·.id)).Nodup)
    (hfound : w.trigger? tenantId triggerId = some existing)
    (hsame : SameTrigger rt.toTriggerRuntime now (f existing) (g existing)) :
    List.Forall₂ (SameTrigger rt.toTriggerRuntime now) (w.updateTrigger tenantId triggerId f).triggers
      (w.updateTrigger tenantId triggerId g).triggers := by
  have hmem := List.mem_of_find?_eq_some hfound
  have htest := List.find?_some hfound
  simp only [Bool.and_eq_true, decide_eq_true_eq] at htest
  refine List.forall₂_map_left_iff.mpr (List.forall₂_map_right_iff.mpr
    (List.forall₂_same.mpr fun row hrow => ?_))
  by_cases hkey : (row.tenantId = tenantId && row.id = triggerId : Bool) = true
  · have hid : row.id = existing.id := by
      simp only [Bool.and_eq_true, decide_eq_true_eq] at hkey
      rw [hkey.2, htest.2]
    rw [if_pos hkey, if_pos hkey, List.inj_on_of_nodup_map hnodup hrow hmem hid]
    exact hsame
  · rw [if_neg hkey, if_neg hkey]
    exact SameTrigger.refl _ _ row

end UpdateRules

/-- Updates agree exactly if a check stops both, or the schedule can be evaluated, the
reference to the secret is kept, and the new instant of Postgres, with or without jitter, is
the stored one. -/
theorem updates_alike_iff (rt : ApiRuntime) (config : ApiConfig) (env : ApiInstant)
    (headers : HeaderMap) (triggerId : Uuid) (req : UpdateTriggerRequest) (t : SharedTables) :
    UpdatesAlike rt config env headers triggerId req t.toApiWorld ↔
      (∃ e, updateTarget rt config headers triggerId req t.toApiWorld = .error e) ∨
      ∃ caller existing due,
        updateTarget rt config headers triggerId req t.toApiWorld = .ok (caller, existing) ∧
        regularDue rt req t.toApiWorld existing = .ok due ∧ KeepsSecret req existing ∧
        (due = existing.nextFireAt ∨
          jitteredDue rt req t.toApiWorld existing due = existing.nextFireAt) := by
  cases htarget : updateTarget rt config headers triggerId req t.toApiWorld with
  | error e =>
    refine iff_of_true ?_ (.inl ⟨e, rfl⟩)
    unfold UpdatesAlike
    rw [update_stopped htarget, update_stopped htarget]
    exact managedAlike_refused rfl rfl
  | ok target =>
    obtain ⟨caller, existing⟩ := target
    have h := updatePasses htarget
    have hvalid := t.rows_checked existing (List.mem_of_find?_eq_some h.found)
    have hmem : ∀ update : TriggerRecord → TriggerRecord, (∀ row, (update row).id = row.id) →
        triggerId ∈ (t.toApiWorld.updateTrigger caller.tenantId triggerId update).triggers.map
          (·.id) := by
      intro update hkeeps
      have htest := List.find?_some h.found
      refine List.mem_map.mpr ⟨update existing, ?_, ?_⟩
      · refine List.mem_map.mpr ⟨existing, List.mem_of_find?_eq_some h.found, ?_⟩
        exact if_pos htest
      · simp only [Bool.and_eq_true, decide_eq_true_eq] at htest
        exact (hkeeps existing).trans htest.2
    have hsq := (h.ends (exec_change_sqlite env h
      (checked_updatedTrigger h hvalid .sqlite none))).2 _ rfl (hmem _ fun _ => rfl)
    obtain ⟨events', hsq⟩ := hsq
    unfold UpdatesAlike
    rw [hsq]
    cases hdue : regularDue rt req t.toApiWorld existing with
    | error message =>
      rw [(h.ends (exec_change_unscheduled env h hdue)).1 _ rfl]
      refine iff_of_false (fun halike => halike.reply) ?_
      rintro (⟨e, he⟩ | ⟨_, _, due, hother, hregular, _⟩)
      · cases he
      · cases hother
        rw [hdue] at hregular
        cases hregular
    | ok due =>
      obtain ⟨events, hpg⟩ := (h.ends (exec_change_postgres env h hdue
        (checked_updatedTrigger h hvalid .postgres _))).2 _ rfl (hmem _ fun _ => rfl)
      rw [hpg]
      have hrows := sameTrigger_updated h due
      constructor
      · intro halike
        exact .inr ⟨caller, existing, due, rfl, hdue, hrows.mp halike.reply⟩
      · rintro (⟨e, he⟩ | ⟨_, _, due', hother, hregular, hkept⟩)
        · cases he
        · cases hother
          rw [hdue] at hregular
          cases hregular
          have hsame := hrows.mpr hkept
          exact ⟨hsame, forall₂_updated t.ids_nodup h.found hsame⟩

end Api
end SecureAgnt

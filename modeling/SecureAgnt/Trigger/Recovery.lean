/-
Triggers that were taken out, and what brings them back.

`Eligible` asks the dispatchers' queries, the ingestion of events and the manual fire
whether they take a trigger.  They do so if it is enabled and not dead-lettered, and
neither an update of the configuration nor an enable call takes the mark of a dead
letter away.
-/
import SecureAgnt.Trigger.Config
import SecureAgnt.Trigger.Locks
import SecureAgnt.Trigger.Once

namespace SecureAgnt
namespace Trigger

open Storage
open Handler
open Runs (TriggerDispatchRecord)

/-! ## The calls that change a row -/

/-- One row was rewritten, and the answer is the row as it is then. -/
structure Rewritten (tenantId triggerId : String) (edit : TriggerEdit) (db db' : Db)
    (r : Except DbError (Option TriggerRow)) : Prop where
  db : db' = db.changeTrigger triggerId edit.change
  answer : r = .ok ((db'.trigger? triggerId).filter (·.tenantId = tenantId))

section Rules

variable {rt : TriggerRuntime} {b : Backend} {i : Nat} {db : Db} {since : Int}
  {tenantId triggerId : String} {edit : TriggerEdit}

theorem atRest_updateReturning : AtRest b i db since (updateReturning tenantId triggerId edit)
    (Rewritten tenantId triggerId edit db) :=
  atRest_inTransaction (alone_edit nofun (alone_selectTrigger (alone_commit ⟨rfl, rfl⟩)))

theorem atRest_updateTriggerSqlite :
    AtRest b i db since (updateTriggerSqlite tenantId triggerId edit)
      (Rewritten tenantId triggerId edit db) := by
  have hwrite : AtRest b i db since (autocommit (.edit (.editTrigger triggerId edit)))
      (fun db' r => db' = db.changeTrigger triggerId edit.change ∧ r = .ok ()) :=
    atRest_inTransaction (alone_edit nofun (alone_commit ⟨rfl, rfl⟩))
  refine atRest_bind hwrite ?_ ?_
  · intro db' u hdb'
    refine atRest_selectTrigger (atRest_pure ?_)
    exact ⟨hdb'.1, rfl⟩
  · intro db' e hdb'
    cases hdb'.2

/-- The row that a rewrite leaves, which is also its answer. -/
theorem Rewritten.row {db' : Db} {r : Except DbError (Option TriggerRow)} {before : TriggerRow}
    {f : TriggerRow → TriggerRow} (h : Rewritten tenantId triggerId edit db db' r)
    (hchange : edit.change = ofTenant tenantId f) (hkeeps : ∀ row, (f row).tenantId = row.tenantId)
    (hfound : (db.trigger? triggerId).filter (·.tenantId = tenantId) = some before) :
    r = .ok (some (f before)) ∧ db'.trigger? triggerId = some (f before) := by
  obtain ⟨hfind, htenant⟩ := Option.filter_eq_some_iff.mp hfound
  rw [decide_eq_true_eq] at htenant
  have hrow : db'.trigger? triggerId = some (f before) := by
    rw [h.db, trigger?_changeTrigger edit.keeps_id, hfind, Option.map_some,
      if_pos (Table.key_of_find hfind).2, hchange, ofTenant, if_pos htenant]
  refine ⟨?_, hrow⟩
  rw [h.answer, hrow, Option.filter_some, if_pos]
  rw [decide_eq_true_eq, hkeeps, htenant]

theorem atRest_rewrite {p : TriggerProg (Option TriggerRow)} {before : TriggerRow}
    {f : TriggerRow → TriggerRow}
    (h : AtRest b i db since p (Rewritten tenantId triggerId edit db))
    (hchange : edit.change = ofTenant tenantId f) (hkeeps : ∀ row, (f row).tenantId = row.tenantId)
    (hfound : (db.trigger? triggerId).filter (·.tenantId = tenantId) = some before) :
    AtRest b i db since p (fun db' r => r = .ok (some (f before)) ∧
      db'.trigger? triggerId = some (f before)) :=
  atRest_mono (fun _ _ hdb' => hdb'.row hchange hkeeps hfound) h

/-- An update that the handlers let through passes the table's check. -/
theorem schedule?_of_mismatch {params : UpdateTriggerParams} {existing : TriggerRow}
    (h : params.mismatch existing.triggerType = none) :
    ∃ schedule, (params.merge existing.config).schedule? existing.triggerType = some schedule := by
  unfold TriggerRow.triggerType at h ⊢
  unfold UpdateTriggerParams.merge TriggerRow.config
  cases hschedule : existing.schedule <;> rw [hschedule] at h <;>
    simp only [UpdateTriggerParams.mismatch, Schedule.triggerType] at h <;>
    cases hinterval : params.intervalSeconds <;> cases hcron : params.cronExpression <;>
    simp_all [Schedule.intervalSeconds, Schedule.cronExpression, TriggerConfig.schedule?,
      Schedule.triggerType]

end Rules

/-! ## Eligible triggers -/

/-- The answer says that the trigger cannot be fired. -/
def ManualTriggerFireOutcome.unavailable : ManualTriggerFireOutcome → Bool
  | .triggerUnavailable => true
  | .rejected message => message = "trigger not found" || message = "trigger is not enabled"
  | _ => false

/-- The answer says that the trigger takes no events. -/
def TriggerEventEnqueueOutcome.unavailable : TriggerEventEnqueueOutcome → Bool
  | .triggerUnavailable reason => reason ≠ .payloadMalformed
  | .rejected message => message = "trigger not found" || message = "trigger is not enabled" ||
      message = "trigger does not accept webhook events"
  | _ => false

/-- There is room for another run of the trigger. -/
def Db.hasRoom (db : Db) (tenantMaxInflightRuns : Int) (row : TriggerRow) : Prop :=
  db.triggerInflight row.id < row.maxInflightRuns ∧
    db.tenantInflight row.tenantId < tenantMaxInflightRuns

/-- Where no transaction is open, the trigger is dispatched and takes events and
manual fires. -/
structure Eligible (rt : TriggerRuntime) (b : Backend) (w : TriggerWorld) (trigger : TriggerRow) :
    Prop where
  due : ∀ now tenantMax, w.tx.db.hasRoom tenantMax trigger →
    b.stamp trigger.nextFireAt ≤ b.stamp now →
      trigger ∈ dueTriggers b now w.tx.db trigger.triggerType tenantMax
  events : trigger.triggerType = .webhook → ∀ event ∈ w.tx.db.events,
    event.triggerId = trigger.id → event.status = .pending →
      ∀ now tenantMax, w.tx.db.hasRoom tenantMax trigger →
        b.stamp event.nextAttemptAt ≤ b.stamp now →
          (event, trigger) ∈ dueEvents b now w.tx.db tenantMax
  ingests : trigger.triggerType = .webhook → ∀ i eventId payload w' outcome,
    Finishes (session b false i) w (enqueueEvent rt b trigger.tenantId trigger.id eventId payload)
      w' (.ok outcome) → outcome.unavailable = false
  fires : ∀ i idempotencyKey payload tenantMax w' outcome,
    Finishes (session b false i) w
      (fireTrigger b trigger.tenantId trigger.id idempotencyKey payload tenantMax) w'
      (.ok outcome) → outcome.unavailable = false

/-- The trigger is enabled and was not taken out. -/
def TriggerRow.isLive (row : TriggerRow) : Bool := row.enabled && row.deadLetteredAt.isNone

theorem TriggerRow.isLive_iff {row : TriggerRow} :
    row.isLive = true ↔ row.enabled = true ∧ row.deadLetteredAt = none := by
  simp [TriggerRow.isLive]

section Live

variable {rt : TriggerRuntime} {b : Backend} {i : Nat} {db : Db} {since : Int}
  {tenantId triggerId : String} {trigger : TriggerRow} {w w' : TriggerWorld}

theorem mayFire_of_room {tenantMax : Int} (hlive : trigger.isLive = true)
    (hroom : db.hasRoom tenantMax trigger) : db.mayFire tenantMax trigger = true := by
  obtain ⟨henabled, halive⟩ := TriggerRow.isLive_iff.mp hlive
  simp [Db.mayFire, henabled, halive, hroom.1, hroom.2]

theorem finishes_selectTrigger {α : Type} {k : Option TriggerRow → TriggerProg α}
    {r : Except DbError α} (hclosed : w.tx.sessions i = none)
    (h : Finishes (session b false i) w (sql (.selectTrigger tenantId triggerId) >>= k) w' r) :
    ∃ w₁, Finishes (session b false i) w₁
      (k ((w.tx.db.trigger? triggerId).filter (·.tenantId = tenantId))) w' r := by
  cases h with
  | call answer hstep hrest =>
    obtain ⟨now, _, hstep | ⟨hfault, _⟩⟩ := hstep
    · obtain ⟨rfl, rfl⟩ := hstep
      rw [view_of_closed hclosed] at hrest
      exact ⟨_, hrest⟩
    · cases hfault

theorem finishes_ends {α : Type} {p : TriggerProg α} {r : Except DbError α}
    (h : Finishes (session b false i) w p w' r) : p.Ends r := by
  induction h with
  | pure s a => exact rfl
  | fail s e => exact rfl
  | @call _ _ _ _ _ out answer _ _ ih =>
    cases out with
    | ok a => exact ⟨answer, ih⟩
    | error e => exact ⟨answer, ih⟩

theorem insertEvent_available {eventId : String} {payload : Json}
    {outcome : TriggerEventEnqueueOutcome}
    (h : Finishes (session b false i) w (insertEvent rt tenantId triggerId eventId payload) w'
      (.ok outcome)) : outcome.unavailable = false := by
  replace h : (insertEvent rt tenantId triggerId eventId payload).Yields outcome := finishes_ends h
  simp only [insertEvent, Prog.yields_bind, Prog.yields_ite, Prog.yields_pure] at h
  obtain ⟨_, _, inserted, _, ⟨_, rfl⟩ | ⟨_, rfl⟩⟩ := h
  · rfl
  · rfl

/-- What ingestion asks of a trigger that is there. -/
theorem enqueue_available {eventId : String} {payload : Json}
    {outcome : TriggerEventEnqueueOutcome} (hclosed : w.tx.sessions i = none)
    (hfound : w.tx.db.trigger? trigger.id = some trigger) (hlive : trigger.isLive = true)
    (htype : trigger.triggerType = .webhook)
    (h : Finishes (session b false i) w
      (enqueueEvent rt b trigger.tenantId trigger.id eventId payload) w' (.ok outcome)) :
    outcome.unavailable = false := by
  obtain ⟨henabled, halive⟩ := TriggerRow.isLive_iff.mp hlive
  have hfilter : (w.tx.db.trigger? trigger.id).filter (·.tenantId = trigger.tenantId) =
      some trigger := by
    rw [hfound, Option.filter_some, if_pos (decide_eq_true rfl)]
  cases b with
  | postgres =>
    replace h : Finishes _ w (enqueueTriggerEvent ..) w' (.ok outcome) := h
    unfold enqueueTriggerEvent at h
    split at h
    · cases h
      rfl
    · obtain ⟨w₁, hrest⟩ := finishes_selectTrigger hclosed h
      have hreason : trigger.enqueueReason = none := by
        simp [TriggerRow.enqueueReason, henabled, halive, htype]
      rw [hfilter] at hrest
      dsimp only at hrest
      rw [hreason] at hrest
      exact insertEvent_available hrest
  | sqlite =>
    replace h : Finishes _ w (ingestTriggerEventSqlite ..) w' (.ok outcome) := h
    unfold ingestTriggerEventSqlite at h
    split at h
    · cases h
      simp [TriggerEventEnqueueOutcome.unavailable]
    · split at h
      · cases h
        simp [TriggerEventEnqueueOutcome.unavailable]
      · obtain ⟨w₁, hrest⟩ := finishes_selectTrigger hclosed h
        have hreason : trigger.enqueueRejection = none := by
          simp [TriggerRow.enqueueRejection, henabled, halive, htype]
        rw [hfilter] at hrest
        dsimp only at hrest
        rw [hreason] at hrest
        exact insertEvent_available hrest

/-! ## Manual fires -/

/-- An answer other than that the trigger cannot be fired. -/
def Available (_ : Db) (r : Except DbError ManualTriggerFireOutcome) : Prop :=
  ∀ outcome, r = .ok outcome → outcome.unavailable = false

theorem available_ok {outcome : ManualTriggerFireOutcome} (h : outcome.unavailable = false) :
    Available db (.ok outcome) := by
  intro outcome' heq
  cases heq
  exact h

theorem available_error {e : DbError} : Available db (.error e) := nofun

theorem alone_insertCreated {writes : List Write} {runId : String} {scheduledFor : Int}
    {source : Source} {k : Unit → TriggerProg ManualTriggerFireOutcome}
    (h : ∀ row, Alone b i db since (writes ++ [.insertTriggerRun row]) (k ()) Available) :
    Alone b i db since writes (insertCreated b triggerId runId scheduledFor source >>= k)
      Available := by
  rw [insertCreated, Prog.bind_assoc]
  exact alone_newUuid fun rowId _ hrowId => alone_insertTriggerRun hrowId
    (fun _ => available_error) fun _ => h _

theorem atRest_fireTriggerManually (idempotencyKey : String) (payload : Option Json)
    (tenantMax : Int) (hfound : db.trigger? trigger.id = some trigger)
    (hlive : trigger.isLive = true) :
    AtRest .postgres i db since (fireTriggerManuallyWithLimits trigger.tenantId trigger.id
      idempotencyKey payload tenantMax) Available := by
  obtain ⟨henabled, halive⟩ := TriggerRow.isLive_iff.mp hlive
  refine atRest_inTransaction (alone_selectTriggerForUpdate ?_)
  rw [hfound, Option.filter_some, if_pos (by simp [henabled, halive])]
  refine alone_selectTriggerRun ?_
  dsimp only
  split
  · exact alone_commit (available_ok rfl)
  · refine alone_countTriggerInflight (alone_countTenantInflight ?_)
    split
    · exact alone_commit (available_ok rfl)
    · refine alone_newUuid fun runId hrunId _ => alone_nowUtc fun scheduledFor _ =>
        alone_insertRun hrunId fun created => alone_updateTrigger fun now' _ =>
          alone_insertCreated fun row => alone_commit (available_ok rfl)

theorem atRest_fireTriggerSqlite (idempotencyKey : String) (payload : Option Json)
    (hfound : db.trigger? trigger.id = some trigger) (hlive : trigger.isLive = true) :
    AtRest .sqlite i db since (fireTriggerSqlite trigger.tenantId trigger.id idempotencyKey payload)
      Available := by
  obtain ⟨henabled, halive⟩ := TriggerRow.isLive_iff.mp hlive
  unfold fireTriggerSqlite
  dsimp only
  split
  · exact atRest_pure (available_ok (by simp [ManualTriggerFireOutcome.unavailable]))
  · split
    · exact atRest_pure (available_ok (by simp [ManualTriggerFireOutcome.unavailable]))
    · refine atRest_selectTrigger ?_
      rw [hfound, Option.filter_some, if_pos (decide_eq_true rfl)]
      dsimp only
      rw [if_neg (by simp [henabled, halive])]
      refine atRest_inTransaction (alone_selectTriggerRun ?_)
      dsimp only
      split
      · split
        · exact alone_commit (available_ok rfl)
        · exact alone_fail available_error
      · refine alone_newUuid fun runId hrunId _ => alone_insertRun hrunId fun created =>
          alone_nowUtc fun scheduledFor _ => alone_insertCreated fun row =>
            alone_updateTrigger fun now' _ => alone_commit (available_ok rfl)

theorem atRest_fireTrigger (idempotencyKey : String) (payload : Option Json) (tenantMax : Int)
    (hfound : db.trigger? trigger.id = some trigger) (hlive : trigger.isLive = true) :
    AtRest b i db since
      (fireTrigger b trigger.tenantId trigger.id idempotencyKey payload tenantMax) Available := by
  cases b with
  | postgres => exact atRest_fireTriggerManually idempotencyKey payload tenantMax hfound hlive
  | sqlite => exact atRest_fireTriggerSqlite idempotencyKey payload hfound hlive

/-- A trigger that is disabled or taken out cannot be fired. -/
theorem atRest_fireTrigger_dead (hfound : db.trigger? trigger.id = some trigger)
    (hdead : trigger.isLive = false) :
    AtRest b i db since (fireTrigger b trigger.tenantId trigger.id "key" none 1)
      (fun _ r => ∃ outcome, r = .ok outcome ∧ outcome.unavailable = true) := by
  cases b with
  | postgres =>
    refine atRest_inTransaction (alone_selectTriggerForUpdate ?_)
    have hnone : (some trigger).filter (fun row => row.tenantId = trigger.tenantId &&
        row.enabled && row.deadLetteredAt.isNone) = none := by
      rw [Option.filter_some, if_neg]
      simp only [decide_true, Bool.true_and]
      rw [Bool.not_eq_true]
      exact hdead
    rw [hfound, hnone]
    exact alone_commit ⟨_, rfl, rfl⟩
  | sqlite =>
    refine atRest_selectTrigger ?_
    rw [hfound, Option.filter_some, if_pos (decide_eq_true rfl)]
    dsimp only
    rw [if_pos]
    · exact atRest_pure ⟨_, rfl, by simp [ManualTriggerFireOutcome.unavailable]⟩
    · cases henabled : trigger.enabled with
      | false => exact .inl rfl
      | true =>
        right
        simpa [TriggerRow.isLive, henabled] using hdead

/-- A trigger is eligible exactly if it is enabled and was not taken out. -/
theorem eligible_iff (hrest : Resting db since w) (hfound : db.trigger? trigger.id = some trigger) :
    Eligible rt b w trigger ↔ trigger.isLive = true := by
  have hdb := hrest.db
  obtain ⟨hmem, _⟩ := Table.key_of_find hfound
  constructor
  · intro h
    by_contra hdead
    rw [Bool.not_eq_true] at hdead
    have hcall : AtRest b 0 db since (fireTrigger b trigger.tenantId trigger.id "key" none 1) _ :=
      atRest_fireTrigger_dead hfound hdead
    obtain ⟨w', out, hfinish⟩ : ∃ w' out, Finishes (session b false 0) w
        (fireTrigger b trigger.tenantId trigger.id "key" none 1) w' out :=
      exists_finish (fun j _ => hrest.closed j) _
    obtain ⟨_, _, outcome, rfl, hunavailable⟩ := wp_of_finishes (hcall.run w hrest) hfinish
    have havailable := h.fires _ _ _ _ _ _ hfinish
    rw [hunavailable] at havailable
    cases havailable
  · intro hlive
    refine ⟨?_, ?_, ?_, ?_⟩
    · intro now tenantMax hroom hdue
      rw [hdb] at hroom ⊢
      exact mem_dueTriggers.mpr ⟨hmem, mayFire_of_room hlive hroom, rfl, hdue⟩
    · intro htype event hevent hparent hpending now tenantMax hroom hdue
      rw [hdb] at hevent hroom ⊢
      refine mem_dueEvents.mpr ⟨hevent, hparent ▸ hfound, ?_⟩
      simp [isDueEvent, hpending, hdue, mayFire_of_room hlive hroom, htype]
    · intro htype i eventId payload w' outcome hfinish
      exact enqueue_available (hrest.closed i) (hdb ▸ hfound) hlive htype hfinish
    · intro i idempotencyKey payload tenantMax w' outcome hfinish
      have hcall : AtRest b i db since
          (fireTrigger b trigger.tenantId trigger.id idempotencyKey payload tenantMax) Available :=
        atRest_fireTrigger idempotencyKey payload tenantMax hfound hlive
      obtain ⟨_, _, havailable⟩ := wp_of_finishes (hcall.run w hrest) hfinish
      exact havailable outcome rfl

end Live

/-! ## An update and an enable call -/

section Calls

variable {rt : TriggerRuntime} {b : Backend} {i : Nat} {db : Db} {since : Int}
  {tenantId triggerId : String}

/-- A status call sets the status and nothing else. -/
theorem atRest_setTriggerStatus (enabled : Bool) :
    AtRest b i db since (setTriggerStatus b tenantId triggerId enabled)
      (fun db' r => match (db.trigger? triggerId).filter (·.tenantId = tenantId) with
        | none => r = .ok (.rejected "trigger not found")
        | some before => r = .ok (.updated (before.withStatus enabled)) ∧
          db'.trigger? triggerId = some (before.withStatus enabled)) := by
  refine atRest_selectTrigger ?_
  cases hfound : (db.trigger? triggerId).filter (·.tenantId = tenantId) with
  | none => exact atRest_pure rfl
  | some before =>
    have hstatus : AtRest b i db since (changeStatus b tenantId triggerId enabled)
        (fun db' r => r = .ok (some (before.withStatus enabled)) ∧
          db'.trigger? triggerId = some (before.withStatus enabled)) := by
      cases b with
      | postgres => exact atRest_rewrite atRest_updateReturning rfl (fun _ => rfl) hfound
      | sqlite => exact atRest_rewrite atRest_updateTriggerSqlite rfl (fun _ => rfl) hfound
    refine atRest_bind hstatus ?_ ?_
    · intro db' updated hdb'
      cases hdb'.1
      exact atRest_pure ⟨rfl, hdb'.2⟩
    · intro db' e hdb'
      cases hdb'.1

/-- The cron expression, if there is one, has a next instant at every time. -/
def TriggerConfig.Evaluates (rt : TriggerRuntime) (config : TriggerConfig) : Prop :=
  ∀ expression, config.cronExpression = some expression →
    ∀ now, ∃ value, rt.nextCronFireAt expression config.scheduleTimezone now = .ok value

/-- An update of the configuration: the next instant cannot be computed, or the row has
the columns of a configuration and is as it was otherwise. -/
inductive ConfigUpdated (rt : TriggerRuntime) (params : UpdateTriggerParams) (triggerId : String)
    (before : TriggerRow) (db : Db) : Db → Except DbError TriggerMutationOutcome → Prop
  | refused {e : DbError} (hcompute : ¬ (params.merge before.config).Evaluates rt) :
      ConfigUpdated rt params triggerId before db db (.error e)
  | written {db' : Db} (config : TriggerConfig) (nextFireAt : Option Int)
      (hrow : db'.trigger? triggerId = some (before.withConfig config nextFireAt)) :
      ConfigUpdated rt params triggerId before db db'
        (.ok (.updated (before.withConfig config nextFireAt)))

theorem atRest_regularFireAt {α : Type} {Q : Db → Except DbError α → Prop} {existing : TriggerRow}
    {config : TriggerConfig} {schedule : Schedule} {k : Int → TriggerProg α}
    (hschedule : config.schedule? existing.triggerType = some schedule)
    (herror : ∀ e, ¬ config.Evaluates rt → Q db (.error e))
    (hok : ∀ regular, AtRest b i db since (k regular) Q) :
    AtRest b i db since (regularFireAt rt existing config >>= k) Q := by
  unfold regularFireAt
  cases htype : existing.triggerType with
  | interval =>
    dsimp only
    rw [Prog.bind_assoc]
    exact atRest_nowUtc fun now _ => hok _
  | webhook => exact hok _
  | cron =>
    rw [htype] at hschedule
    cases hexpression : config.cronExpression with
    | none =>
      unfold TriggerConfig.schedule? at hschedule
      rw [hexpression] at hschedule
      cases hinterval : config.intervalSeconds <;> rw [hinterval] at hschedule <;> cases hschedule
    | some expression =>
      dsimp only
      rw [Prog.bind_assoc]
      refine atRest_nowUtc fun now _ => ?_
      cases hcompute : rt.nextCronFireAt expression config.scheduleTimezone now with
      | ok value => exact hok value
      | error message =>
        refine atRest_fail (herror _ fun hevaluates => ?_)
        obtain ⟨value, hvalue⟩ := hevaluates expression hexpression now
        rw [hcompute] at hvalue
        cases hvalue

theorem atRest_changeConfig {before : TriggerRow} {params : UpdateTriggerParams}
    (hfound : (db.trigger? triggerId).filter (·.tenantId = tenantId) = some before)
    (hmismatch : params.mismatch before.triggerType = none) :
    AtRest b i db since (do
      let updated ← changeConfig rt b tenantId triggerId before params
      .pure (.ofRow updated)) (ConfigUpdated rt params triggerId before db) := by
  have hid : before.id = triggerId :=
    (Table.key_of_find (Option.filter_eq_some_iff.mp hfound).1).2
  -- the rewrite decides, whichever back end makes it
  have hwrite : ∀ {p : TriggerProg (Option TriggerRow)} (config : TriggerConfig)
      (nextFireAt : Option Int),
      AtRest b i db since p (Rewritten tenantId triggerId
        (configEdit tenantId config nextFireAt) db) →
      AtRest b i db since (do
        let updated ← p
        .pure (.ofRow updated)) (ConfigUpdated rt params triggerId before db) := by
    intro p config nextFireAt hp
    have hrewrite : AtRest b i db since p
        (fun db' r => r = .ok (some (before.withConfig config nextFireAt)) ∧
          db'.trigger? triggerId = some (before.withConfig config nextFireAt)) :=
      atRest_rewrite hp rfl (fun _ => rfl) hfound
    refine atRest_bind hrewrite ?_ ?_
    · intro db' updated hdb'
      cases hdb'.1
      exact atRest_pure (.written config nextFireAt hdb'.2)
    · intro db' e hdb'
      cases hdb'.1
  cases b with
  | sqlite => exact hwrite _ none atRest_updateTriggerSqlite
  | postgres =>
    obtain ⟨schedule, hschedule⟩ := schedule?_of_mismatch hmismatch
    show AtRest _ _ _ _ (updateTriggerConfig .. >>= _) _
    unfold updateTriggerConfig
    rw [Prog.bind_assoc]
    refine atRest_selectTrigger ?_
    rw [hfound]
    dsimp only
    rw [Prog.bind_assoc]
    refine atRest_regularFireAt hschedule (fun e hcompute => .refused hcompute) fun regular => ?_
    rw [Prog.bind_assoc]
    refine atRest_nowUtc fun entropyTime _ => ?_
    unfold writeConfig
    rw [hschedule, hid]
    exact hwrite _ _ atRest_updateReturning

theorem atRest_updateFound {before : TriggerRow} {params : UpdateTriggerParams}
    (hfound : (db.trigger? triggerId).filter (·.tenantId = tenantId) = some before)
    (hmismatch : params.mismatch before.triggerType = none) :
    AtRest b i db since (updateTrigger rt b tenantId triggerId params)
      (ConfigUpdated rt params triggerId before db) := by
  refine atRest_selectTrigger ?_
  rw [hfound]
  dsimp only
  rw [hmismatch]
  exact atRest_changeConfig hfound hmismatch

/-- An update that the caller is told of was made to the row of the caller's tenant. -/
theorem atRest_updateTrigger {params : UpdateTriggerParams} :
    AtRest b i db since (updateTrigger rt b tenantId triggerId params)
      (fun db' r => (∃ message, r = .ok (.rejected message)) ∨
        ∃ before, (db.trigger? triggerId).filter (·.tenantId = tenantId) = some before ∧
          ConfigUpdated rt params triggerId before db db' r) := by
  cases hfound : (db.trigger? triggerId).filter (·.tenantId = tenantId) with
  | none =>
    refine atRest_selectTrigger ?_
    rw [hfound]
    exact atRest_pure (.inl ⟨_, rfl⟩)
  | some before =>
    cases hmismatch : params.mismatch before.triggerType with
    | some message =>
      refine atRest_selectTrigger ?_
      rw [hfound]
      dsimp only
      rw [hmismatch]
      exact atRest_pure (.inl ⟨_, rfl⟩)
    | none =>
      refine atRest_mono (fun _ _ hdb' => .inr ⟨before, rfl, hdb'⟩) ?_
      exact atRest_updateFound hfound hmismatch

/-- A caller's update and enable call of a row of its tenant. -/
theorem exists_update {w : TriggerWorld} {before : TriggerRow} {params : UpdateTriggerParams}
    (hrest : Resting db since w) (hfound : db.trigger? triggerId = some before)
    (htenant : before.tenantId = tenantId) (hmismatch : params.mismatch before.triggerType = none)
    (hevaluates : (params.merge before.config).Evaluates rt) :
    ∃ w₁ w₂ updated enabled,
      Finishes (session b false 0) w (updateTrigger rt b tenantId triggerId params) w₁
        (.ok (.updated updated)) ∧
      Finishes (session b false 0) w₁ (setTriggerStatus b tenantId triggerId true) w₂
        (.ok (.updated enabled)) := by
  have hfilter : (db.trigger? triggerId).filter (·.tenantId = tenantId) = some before :=
    Option.filter_eq_some_iff.mpr ⟨hfound, decide_eq_true htenant⟩
  obtain ⟨w₁, out, hupdate⟩ : ∃ w₁ out, Finishes (session b false 0) w
      (updateTrigger rt b tenantId triggerId params) w₁ out :=
    exists_finish (fun j _ => hrest.closed j) _
  obtain ⟨db₁, hrest₁, hconfig⟩ :=
    wp_of_finishes ((atRest_updateFound hfilter hmismatch).run w hrest) hupdate
  cases hconfig with
  | refused hcompute => exact absurd hevaluates hcompute
  | written config nextFireAt hrow =>
    obtain ⟨w₂, out, henable⟩ : ∃ w₂ out, Finishes (session b false 0) w₁
        (setTriggerStatus b tenantId triggerId true) w₂ out :=
      exists_finish (fun j _ => hrest₁.closed j) _
    obtain ⟨db₂, hrest₂, hstatus⟩ :=
      wp_of_finishes ((atRest_setTriggerStatus true).run w₁ hrest₁) henable
    have htenant' : (before.withConfig config nextFireAt).tenantId = tenantId := htenant
    rw [hrow, Option.filter_some, if_pos (decide_eq_true htenant')] at hstatus
    obtain ⟨rfl, _⟩ := hstatus
    exact ⟨w₁, w₂, _, _, hupdate, henable⟩

end Calls

/-- What the two calls make of a row. -/
theorem eligible_after {rt : TriggerRuntime} {b : Backend} {i j : Nat} {db : Db} {since : Int}
    {tenantId triggerId : String} {params : UpdateTriggerParams} {w w₁ w₂ : TriggerWorld}
    {before updated enabled : TriggerRow} (hrest : Resting db since w)
    (hbefore : db.trigger? triggerId = some before)
    (hupdate : Finishes (session b false i) w (updateTrigger rt b tenantId triggerId params) w₁
      (.ok (.updated updated)))
    (henable : Finishes (session b false j) w₁ (setTriggerStatus b tenantId triggerId true) w₂
      (.ok (.updated enabled))) :
    enabled.enabled = true ∧ w₂.tx.db.trigger? triggerId = some enabled ∧
      (Eligible rt b w₂ enabled ↔ before.deadLetteredAt = none) := by
  obtain ⟨db₁, hrest₁, ⟨_, hrejected⟩ | ⟨before', hfound, hconfig⟩⟩ :=
    wp_of_finishes (atRest_updateTrigger.run w hrest) hupdate
  · cases hrejected
  · obtain rfl : before' = before := by
      rw [hbefore] at hfound
      exact (Option.some.inj (Option.filter_eq_some_iff.mp hfound).1).symm
    cases hconfig with
    | written config nextFireAt hrow =>
      obtain ⟨db₂, hrest₂, hstatus⟩ :=
        wp_of_finishes ((atRest_setTriggerStatus true).run w₁ hrest₁) henable
      cases hfilter : (db₁.trigger? triggerId).filter (·.tenantId = tenantId) with
      | none =>
        rw [hfilter] at hstatus
        cases hstatus
      | some row =>
        rw [hfilter] at hstatus
        obtain ⟨hanswer, hrow₂⟩ := hstatus
        cases hanswer
        have hsame : row = before'.withConfig config nextFireAt := by
          rw [hrow] at hfilter
          exact (Option.some.inj (Option.filter_eq_some_iff.mp hfilter).1).symm
        have hid : (row.withStatus true).id = triggerId := (Table.key_of_find hrow₂).2
        refine ⟨rfl, ?_, ?_⟩
        · rw [hrest₂.db]
          exact hrow₂
        · rw [eligible_iff hrest₂ (hid.symm ▸ hrow₂), TriggerRow.isLive_iff, hsame]
          exact and_iff_right rfl

/-- After any history, an update that is accepted and an enable call make a trigger
eligible again exactly if it was not dead-lettered before. -/
theorem eligible_again_iff (rt : TriggerRuntime) (b : Backend) (faults : Bool)
    (calls : Nat → TriggerCall) (i j : Nat) (tenantId triggerId : String)
    (params : UpdateTriggerParams) {clock : Int} {db : Db} {w w₁ w₂ : TriggerWorld}
    {ps : Nat → Prog (Nat × Stmt) (fun o => o.2.Ans) DbError TriggerOutcome}
    {before updated enabled : TriggerRow} (hkeys : db.entries.Nodup)
    (hreach : PoolReaches (sessions b faults) (.start clock db, callPool rt b calls) (w, ps))
    (hclosed : ∀ k, w.tx.sessions k = none) (hbefore : w.tx.db.trigger? triggerId = some before)
    (hupdate : Finishes (session b false i) w (updateTrigger rt b tenantId triggerId params) w₁
      (.ok (.updated updated)))
    (henable : Finishes (session b false j) w₁ (setTriggerStatus b tenantId triggerId true) w₂
      (.ok (.updated enabled))) :
    enabled.enabled = true ∧ w₂.tx.db.trigger? triggerId = some enabled ∧
      (Eligible rt b w₂ enabled ↔ before.deadLetteredAt = none) := by
  have hkeys' : w.tx.db.entries.Nodup :=
    (invariant_of_sessions (I := fun _ => True) (fun _ _ _ _ _ _ => trivial) hkeys trivial
      hreach).1.entries
  have hrest : Resting w.tx.db w.clock w := ⟨⟨rfl, hclosed, Int.le_refl _⟩, hkeys'⟩
  exact eligible_after hrest hbefore hupdate henable

/-! ## A schedule that comes to an end -/

theorem cron_attempts_pos : (0 : Int) < 3 := by decide

/-- A trigger that is due at the epoch. -/
def cronTrigger (expression : String) : TriggerRow :=
  { hookTrigger ⟨3, cron_attempts_pos⟩ with id := "cron", schedule := .cron expression }

def cronDb (expression : String) : Db := ⟨[cronTrigger expression], [], [], []⟩

/-- Every full hour, and a year that is over. -/
def hourlyRuntime : TriggerRuntime :=
  { plainRuntime with
    nextCronFireAt := fun expression _ after =>
      if expression = "0 0 * * * *" then .ok ((after / (3600 * second) + 1) * (3600 * second))
      else .error "cron schedule has no next fire time" }

theorem hourlyRuntime_evaluates (timezone : String) (now : Int) :
    ∃ value, hourlyRuntime.nextCronFireAt "0 0 * * * *" timezone now = .ok value := by
  refine ⟨(now / (3600 * second) + 1) * (3600 * second), ?_⟩
  simp [hourlyRuntime]

theorem cronDb_resting (expression : String) :
    Resting (cronDb expression) 0 (.start 0 (cronDb expression)) := by
  refine ⟨⟨rfl, fun _ => rfl, Int.le_refl 0⟩, ?_⟩
  simp [TriggerWorld.start, cronDb, Db.entries]

def lastDb : Db := cronDb "0 0 0 1 1 * 2026"

/-- The trigger was taken out. -/
def TakenOut (db : Db) : Prop :=
  ∃ row, db.triggers = [row] ∧ row.id = "cron" ∧ row.tenantId = "acme" ∧
    row.schedule = .cron "0 0 0 1 1 * 2026" ∧ row.deadLetteredAt ≠ none

theorem lastDb_due {now : Int} (htime : Backend.postgres.stamp 0 ≤ Backend.postgres.stamp now) :
    cronTrigger "0 0 0 1 1 * 2026" ∈ dueTriggers .postgres now lastDb .cron (max 1 1) := by
  refine mem_dueTriggers.mpr ⟨List.mem_cons_self, ?_, rfl, htime⟩
  simp [Db.mayFire, Db.triggerInflight, Db.tenantInflight, lastDb, cronDb, cronTrigger, hookTrigger]

/-- A schedule without a next instant is taken out when it is due. -/
theorem atRest_lastCron :
    AtRest .postgres 0 lastDb 0 (dispatchNextDueScheduled hourlyRuntime .postgres .cron 1)
      (fun db' r => r = .ok none ∧ TakenOut db') := by
  have hcall : AtRest .postgres 0 lastDb 0
      (dispatchNextDueScheduled hourlyRuntime .postgres .cron 1)
      (PlanStage hourlyRuntime .postgres .cron 1 lastDb 0) := atRest_plan (by nofun) 1
  refine atRest_mono (fun db' r hstage => ?_) hcall
  cases hstage with
  | idle htime hfirst =>
    have hdue := lastDb_due htime
    rw [List.head?_eq_none_iff.mp hfirst] at hdue
    cases hdue
  | clash htime hfirst htaken =>
    obtain ⟨_, hrow, _⟩ := htaken
    cases hrow
  | @planned now now' trigger plan run rowId stamp htime hfirst hfree hnow hplan =>
    obtain ⟨hmem, _⟩ := mem_dueTriggers.mp (List.mem_of_head? hfirst)
    obtain rfl := List.mem_singleton.mp hmem
    have hended : (cronTrigger "0 0 0 1 1 * 2026").plan hourlyRuntime now' =
        some (.deadLetter "cron schedule has no next fire time") := rfl
    rw [hended] at hplan
    cases hplan
    exact ⟨rfl, _, rfl, rfl, rfl, rfl, nofun⟩

/-- No interval trigger is there to be dispatched. -/
theorem atRest_lastInterval {db : Db} (h : TakenOut db) :
    AtRest .postgres 0 db 0 (dispatchNextDueScheduled hourlyRuntime .postgres .interval 1)
      (fun db' _ => TakenOut db') := by
  have hnone : ∀ now row, (dueTriggers .postgres now db .interval (max 1 1)).head? ≠ some row := by
    intro now row hfirst
    obtain ⟨hmem, _, htype, _⟩ := mem_dueTriggers.mp (List.mem_of_head? hfirst)
    obtain ⟨only, honly, _, _, hschedule, _⟩ := h
    rw [honly] at hmem
    rw [List.mem_singleton.mp hmem, TriggerRow.triggerType, hschedule] at htype
    cases htype
  have hcall : AtRest .postgres 0 db 0
      (dispatchNextDueScheduled hourlyRuntime .postgres .interval 1)
      (PlanStage hourlyRuntime .postgres .interval 1 db 0) := 
    atRest_plan (fun h => by cases h) 1
  refine atRest_mono (fun db' r hstage => ?_) hcall
  cases hstage with
  | idle htime hfirst => exact h
  | clash htime hfirst htaken => exact absurd hfirst (hnone _ _)
  | planned run rowId stamp htime hfirst => exact absurd hfirst (hnone _ _)

theorem atRest_lastDispatch :
    AtRest .postgres 0 lastDb 0 (dispatchNextDueTriggerWithLimits hourlyRuntime .postgres 1)
      (fun db' _ => TakenOut db') := by
  refine atRest_bind (atRest_dispatchNextDueWebhookEvent 1) ?_ ?_
  · intro db' dispatched hstage
    cases hstage with
    | idle htime hfirst =>
      refine atRest_bind atRest_lastCron ?_ ?_
      · intro db₁ dispatched hcron
        cases hcron.1
        exact atRest_lastInterval hcron.2
      · intro db₁ e hcron
        cases hcron.1
    | failed row htime hfirst => cases hfirst
    | fired run row htime hfirst => cases hfirst
  · intro db' e hstage
    cases hstage with
    | clash htime hfirst => cases hfirst

/-- A healthy trigger is eligible after the calls. -/
theorem hourly_eligible_again : ∃ w₁ w₂ updated enabled,
    Finishes (session .postgres false 0) (.start 0 (cronDb "0 0 * * * *"))
      (updateTrigger hourlyRuntime .postgres "acme" "cron" {}) w₁ (.ok (.updated updated)) ∧
    Finishes (session .postgres false 0) w₁ (setTriggerStatus .postgres "acme" "cron" true) w₂
      (.ok (.updated enabled)) ∧
    Eligible hourlyRuntime .postgres w₂ enabled := by
  have hrest := cronDb_resting "0 0 * * * *"
  have hfound : (cronDb "0 0 * * * *").trigger? "cron" = some (cronTrigger "0 0 * * * *") :=
    Table.find_cons.trans (if_pos rfl)
  have hevaluates : (UpdateTriggerParams.merge {} (cronTrigger "0 0 * * * *").config).Evaluates
      hourlyRuntime := by
    intro expression hexpression now
    cases hexpression
    exact hourlyRuntime_evaluates _ now
  obtain ⟨w₁, w₂, updated, enabled, hupdate, henable⟩ :=
    exists_update hrest hfound rfl rfl hevaluates
  exact ⟨w₁, w₂, updated, enabled, hupdate, henable,
    (eligible_again_iff hourlyRuntime .postgres false (fun _ => .dispatch 1) 0 0 "acme" "cron" {}
      hrest.keys .refl (fun _ => rfl) hfound hupdate henable).2.2.mpr rfl⟩

/-- A trigger is taken out by the dispatcher.  It is given a schedule that goes on and is
enabled, and is fired no more. -/
theorem hourly_not_eligible_again : ∃ w ps w₁ w₂ updated enabled,
    PoolReaches (sessions .postgres false)
      (.start 0 lastDb, callPool hourlyRuntime .postgres fun _ => .dispatch 1) (w, ps) ∧
    (∀ k, w.tx.sessions k = none) ∧
    Finishes (session .postgres false 0) w (updateTrigger hourlyRuntime .postgres "acme" "cron"
      { cronExpression := some "0 0 * * * *" }) w₁ (.ok (.updated updated)) ∧
    (∀ timezone now, ∃ value,
      hourlyRuntime.nextCronFireAt "0 0 * * * *" timezone now = .ok value) ∧
    Finishes (session .postgres false 0) w₁ (setTriggerStatus .postgres "acme" "cron" true) w₂
      (.ok (.updated enabled)) ∧
    enabled.enabled = true ∧ w₂.tx.db.trigger? "cron" = some enabled ∧
    ¬ Eligible hourlyRuntime .postgres w₂ enabled := by
  have hrest : Resting lastDb 0 (.start 0 lastDb) := cronDb_resting _
  obtain ⟨w, ps, out, hreach, hdispatch⟩ := exists_poolDispatch hourlyRuntime .postgres 1 0 lastDb
  obtain ⟨db, hrest', row, honly, hid, htenant, hschedule, hdead⟩ :=
    wp_of_finishes (atRest_lastDispatch.run _ hrest) hdispatch
  have hfound : db.trigger? "cron" = some row := by
    show Table.find _ db.triggers _ = _
    rw [honly, Table.find_cons, if_pos hid]
  let params : UpdateTriggerParams := { cronExpression := some "0 0 * * * *" }
  have hmismatch : params.mismatch row.triggerType = none := by
    rw [TriggerRow.triggerType, hschedule]
    rfl
  have hevaluates : (params.merge row.config).Evaluates hourlyRuntime := by
    intro expression hexpression now
    cases hexpression
    exact hourlyRuntime_evaluates _ now
  obtain ⟨w₁, w₂, updated, enabled, hupdate, henable⟩ :=
    exists_update hrest' hfound htenant hmismatch hevaluates
  obtain ⟨henabled, hrow, heligible⟩ := eligible_after hrest' hfound hupdate henable
  exact ⟨w, ps, w₁, w₂, updated, enabled, hreach, hrest'.closed, hupdate, hourlyRuntime_evaluates,
    henable, henabled, hrow, fun h => hdead (heligible.mp h)⟩

end Trigger
end SecureAgnt

/-
What one dispatch does when nothing else runs.

`EventStage`, `SlotStage` and `TimerStage` say how the tables and the answer follow
from the tables before: the first due row decides, and the ledger refuses a key that
is taken.  Every call comes to an end.
-/
import SecureAgnt.Trigger.Alone
import SecureAgnt.Trigger.Plan
import SecureAgnt.Trigger.Publish

namespace SecureAgnt
namespace Trigger

open Storage
open Handler
open Runs (TriggerDispatchRecord)

/-! ## The first due event -/

/-- An event that alone is due comes first. -/
theorem dueEvents_only {b : Backend} {now tenantMax : Int} {db : Db} {event : EventRow}
    {trigger : TriggerRow} (hkeys : db.entries.Nodup) (hevent : event ∈ db.events)
    (htrigger : db.trigger? event.triggerId = some trigger)
    (hdue : isDueEvent b now db tenantMax (event, trigger) = true)
    (hothers : ∀ row ∈ db.events, row.id ≠ event.id → ∀ t, db.trigger? row.triggerId = some t →
      isDueEvent b now db tenantMax (row, t) = false) :
    dueEvents b now db tenantMax = [(event, trigger)] := by
  have hfilter : (db.events.filterMap fun row => (db.trigger? row.triggerId).map (row, ·)).filter
      (isDueEvent b now db tenantMax) = [(event, trigger)] := by
    rw [List.filter_filterMap]
    refine Table.filterMap_key (nodup_events hkeys) hevent ?_ ?_
    · rw [htrigger]
      exact Option.filter_eq_some_iff.mpr ⟨rfl, hdue⟩
    · intro row hrow hne
      cases ht : db.trigger? row.triggerId with
      | none => rfl
      | some t =>
        rw [Option.map_some, Option.filter_some, hothers row hrow hne t ht]
        rfl
  rw [dueEvents, hfilter]
  rfl

/-! ## Webhook events -/

/-- `dispatch_next_due_webhook_event` from the tables `db`, called not before `since`. -/
inductive EventStage (rt : TriggerRuntime) (b : Backend) (tenantMax : Int) (db : Db) (since : Int) :
    Db → Except DbError (Option TriggerDispatchRecord) → Prop
  | idle {now : Int} (htime : b.stamp since ≤ b.stamp now)
      (hfirst : (dueEvents b now db (max tenantMax 1)).head? = none) :
      EventStage rt b tenantMax db since db (.ok none)
  | clash {now : Int} {event : EventRow} {trigger : TriggerRow}
      (htime : b.stamp since ≤ b.stamp now)
      (hfirst : (dueEvents b now db (max tenantMax 1)).head? = some (event, trigger))
      (htaken : db.KeyTaken trigger.id event.eventId) :
      EventStage rt b tenantMax db since db
        (.error (.uniqueViolation (.dedupeKey trigger.id event.eventId)))
  | failed {now now' : Int} {event : EventRow} {trigger : TriggerRow} (row : TriggerRunRow)
      (htime : b.stamp since ≤ b.stamp now)
      (hfirst : (dueEvents b now db (max tenantMax 1)).head? = some (event, trigger))
      (hfree : ¬ db.KeyTaken trigger.id event.eventId)
      (hlarge : rt.tooLarge event.payloadJson = true) (htime' : b.stamp since ≤ b.stamp now')
      (hid : row.triggerId = trigger.id) (hrow : row.Fails b (.event event.eventId)) :
      EventStage rt b tenantMax db since
        ((db.insertTriggerRun row).changeEvent event.id (EventChange.row now'
          (.fail (decide (event.attempts + 1 ≥ trigger.maxAttempts)) eventPayloadTooLarge)))
        (.ok none)
  | fired {now now₁ now₂ scheduledFor : Int} {event : EventRow} {trigger : TriggerRow}
      (run : RunRecord) (row : TriggerRunRow) (htime : b.stamp since ≤ b.stamp now)
      (hfirst : (dueEvents b now db (max tenantMax 1)).head? = some (event, trigger))
      (hfree : ¬ db.KeyTaken trigger.id event.eventId)
      (hfits : rt.tooLarge event.payloadJson = false) (hid : row.triggerId = trigger.id)
      (hrow : row.Creates b run (.event event.eventId)) :
      EventStage rt b tenantMax db since
        ((((db.insertRun run).insertTriggerRun row).changeEvent event.id
          (EventChange.row now₁ .process)).changeTrigger trigger.id
            (TriggerChange.row now₂ .touch))
        (.ok (some (dispatchRecord trigger "webhook" (some event.eventId) run.id scheduledFor
          scheduledFor)))

section Rules

variable {rt : TriggerRuntime} {b : Backend} {i : Nat} {tenantMax : Int} {db : Db} {since : Int}

theorem dedupeKey_mem_run {writes : List Write} {triggerId dedupeKey : String}
    (h : .dedupeKey triggerId dedupeKey ∉ triggerStore.added writes) :
    .dedupeKey triggerId dedupeKey ∈ (triggerStore.run writes db).entries ↔
      db.KeyTaken triggerId dedupeKey := by
  rw [mem_entries_run, dedupeKey_mem_entries]
  exact or_iff_left h

theorem alone_failEvent {now scheduledFor : Int} {event : EventRow} {trigger : TriggerRow}
    (htime : b.stamp since ≤ b.stamp now)
    (hfirst : (dueEvents b now db (max tenantMax 1)).head? = some (event, trigger))
    (hlarge : rt.tooLarge event.payloadJson = true) :
    Alone b i db since [] (failEvent b event trigger scheduledFor)
      (EventStage rt b tenantMax db since) := by
  obtain ⟨hevent, _, hdue⟩ := mem_dueEvents.mp (List.mem_of_head? hfirst)
  have hpending : event.status = .pending := by
    simp only [isDueEvent, Bool.and_eq_true, decide_eq_true_eq] at hdue
    exact hdue.1.1.1
  -- both back ends go on alike once the event is updated
  have hrest : ∀ now', b.stamp since ≤ b.stamp now' → Alone b i db since
      [.changeEvent event.id now' (.fail (decide (event.attempts + 1 ≥ trigger.maxAttempts))
        eventPayloadTooLarge)]
      (do
        insertFailed b trigger.id scheduledFor (.event event.eventId) eventPayloadTooLarge
        commit none)
      (EventStage rt b tenantMax db since) := by
    intro now' htime'
    rw [insertFailed, Prog.bind_assoc]
    refine alone_newUuid fun rowId _ hrowId => alone_insertTriggerRun hrowId ?_ ?_
    · intro htaken
      exact .clash htime hfirst ((dedupeKey_mem_run (by simp [TxStore.added, triggerStore,
        Write.adds])).mp htaken)
    · intro hfree
      rw [dedupeKey_mem_run (by simp [TxStore.added, triggerStore, Write.adds])] at hfree
      exact alone_commit (.failed (failedRow b rowId trigger.id scheduledFor (.event event.eventId)
        eventPayloadTooLarge) htime hfirst hfree hlarge htime' rfl ⟨rfl, rfl, rfl⟩)
  unfold failEvent
  cases b with
  | postgres =>
    simp only [advanceEvent, Prog.bind_assoc]
    exact alone_updateEvent hrest
  | sqlite =>
    refine alone_reserveEvent event.id ⟨event, hevent, by simp [hpending]⟩ ?_ hrest
    intro row _ hrow
    simp only [Bool.and_eq_true, decide_eq_true_eq] at hrow
    exact hrow.1

theorem alone_fireEvent {now scheduledFor : Int} {event : EventRow} {trigger : TriggerRow}
    (htime : b.stamp since ≤ b.stamp now)
    (hfirst : (dueEvents b now db (max tenantMax 1)).head? = some (event, trigger))
    (hfits : rt.tooLarge event.payloadJson = false) :
    Alone b i db since [] (fireEvent b event trigger scheduledFor)
      (EventStage rt b tenantMax db since) := by
  obtain ⟨hevent, _, hdue⟩ := mem_dueEvents.mp (List.mem_of_head? hfirst)
  have hpending : event.status = .pending := by
    simp only [isDueEvent, Bool.and_eq_true, decide_eq_true_eq] at hdue
    exact hdue.1.1.1
  cases b with
  | postgres =>
    refine alone_newUuid fun runId hrunId _ => alone_insertRun hrunId fun created =>
      alone_updateEvent fun now₁ _ => alone_updateTrigger fun now₂ _ => ?_
    rw [insertCreated, Prog.bind_assoc]
    refine alone_newUuid fun rowId _ hrowId => alone_insertTriggerRun hrowId ?_ ?_
    · intro htaken
      exact .clash htime hfirst ((dedupeKey_mem_run (by simp [TxStore.added, triggerStore,
        Write.adds])).mp htaken)
    · intro hfree
      rw [dedupeKey_mem_run (by simp [TxStore.added, triggerStore, Write.adds])] at hfree
      exact alone_commit (.fired { newRun trigger runId (eventRunInput event trigger runId) with
        createdAt := created } (createdRow .postgres rowId trigger.id runId scheduledFor
          (.event event.eventId)) htime hfirst hfree hfits rfl ⟨rfl, rfl, rfl⟩)
  | sqlite =>
    refine alone_reserveEvent event.id ⟨event, hevent, by simp [hpending]⟩ ?_ fun now₁ _ => ?_
    · intro row _ hrow
      simp only [Bool.and_eq_true, decide_eq_true_eq] at hrow
      exact hrow.1
    · rw [if_pos rfl]
      refine alone_newUuid fun runId hrunId _ => alone_insertRun hrunId fun created =>
        alone_updateTrigger fun now₂ _ => ?_
      rw [insertCreated, Prog.bind_assoc]
      refine alone_newUuid fun rowId _ hrowId => alone_insertTriggerRun hrowId ?_ ?_
      · intro htaken
        exact .clash htime hfirst ((dedupeKey_mem_run (by simp [TxStore.added, triggerStore,
          Write.adds])).mp htaken)
      · intro hfree
        rw [dedupeKey_mem_run (by simp [TxStore.added, triggerStore, Write.adds])] at hfree
        exact alone_commit (.fired { newRun trigger runId (eventRunInput event trigger runId) with
          createdAt := created } (createdRow .sqlite rowId trigger.id runId scheduledFor
            (.event event.eventId)) htime hfirst hfree hfits rfl ⟨rfl, rfl, rfl⟩)

theorem atRest_dispatchNextDueWebhookEvent (tenantMax : Int) :
    AtRest b i db since (dispatchNextDueWebhookEvent rt b tenantMax)
      (EventStage rt b tenantMax db since) := by
  apply atRest_inTransaction
  refine alone_selectDueEvent fun now pick htime hfirst => ?_
  rcases pick with _ | ⟨event, trigger⟩
  · exact alone_commit (.idle htime hfirst)
  · refine alone_nowUtc fun scheduledFor _ => ?_
    split
    · rename_i hlarge
      exact alone_failEvent htime hfirst hlarge
    · rename_i hfits
      exact alone_fireEvent htime hfirst (Bool.eq_false_iff.mpr hfits)

/-- The event is due and comes first, whenever from then on the dispatcher looks. -/
def FirstInLine (b : Backend) (tenantMax since : Int) (db : Db) (event : EventRow)
    (trigger : TriggerRow) : Prop :=
  ∀ now, b.stamp since ≤ b.stamp now →
    (dueEvents b now db (max tenantMax 1)).head? = some (event, trigger)

/-- What becomes of the first event: its key is taken and the call fails on it, or an
attempt is counted, or it is fired. -/
theorem eventStage_first {event : EventRow} {trigger : TriggerRow} {db' : Db}
    {r : Except DbError (Option TriggerDispatchRecord)}
    (hfirst : FirstInLine b tenantMax since db event trigger)
    (h : EventStage rt b tenantMax db since db' r) :
    (db.KeyTaken trigger.id event.eventId ∧ db' = db ∧
      r = .error (.uniqueViolation (.dedupeKey trigger.id event.eventId))) ∨
    (¬ db.KeyTaken trigger.id event.eventId ∧ rt.tooLarge event.payloadJson = true ∧
      r = .ok none ∧ ∃ row now', b.stamp since ≤ b.stamp now' ∧ row.triggerId = trigger.id ∧
        row.Fails b (.event event.eventId) ∧ db' = (db.insertTriggerRun row).changeEvent event.id
          (EventChange.row now' (.fail (decide (event.attempts + 1 ≥ trigger.maxAttempts))
            eventPayloadTooLarge))) ∨
    (¬ db.KeyTaken trigger.id event.eventId ∧ rt.tooLarge event.payloadJson = false ∧
      ∃ run row now₁ now₂ scheduledFor, row.triggerId = trigger.id ∧
        row.Creates b run (.event event.eventId) ∧
        db' = (((db.insertRun run).insertTriggerRun row).changeEvent event.id
          (EventChange.row now₁ .process)).changeTrigger trigger.id
            (TriggerChange.row now₂ .touch) ∧
        r = .ok (some (dispatchRecord trigger "webhook" (some event.eventId) run.id scheduledFor
          scheduledFor))) := by
  cases h with
  | idle htime hnone =>
    rw [hfirst _ htime] at hnone
    cases hnone
  | clash htime hsome htaken =>
    cases (hfirst _ htime).symm.trans hsome
    exact .inl ⟨htaken, rfl, rfl⟩
  | failed row htime hsome hfree hlarge htime' hid hrow =>
    cases (hfirst _ htime).symm.trans hsome
    exact .inr (.inl ⟨hfree, hlarge, rfl, row, _, htime', hid, hrow, rfl⟩)
  | fired run row htime hsome hfree hfits hid hrow =>
    cases (hfirst _ htime).symm.trans hsome
    exact .inr (.inr ⟨hfree, hfits, run, row, _, _, _, hid, hrow, rfl, rfl⟩)

end Rules

/-! ## Scheduled triggers -/

/-- The dispatcher of a type of scheduled triggers from the tables `db`. -/
inductive SlotStage (b : Backend) (type : TriggerType) (tenantMax : Int) (db : Db) (since : Int) :
    Db → Except DbError (Option TriggerDispatchRecord) → Prop
  | idle {now : Int} (htime : b.stamp since ≤ b.stamp now)
      (hfirst : (dueTriggers b now db type (max tenantMax 1)).head? = none) :
      SlotStage b type tenantMax db since db (.ok none)
  | clash {now : Int} {trigger : TriggerRow} (htime : b.stamp since ≤ b.stamp now)
      (hfirst : (dueTriggers b now db type (max tenantMax 1)).head? = some trigger)
      (htaken : db.KeyTaken trigger.id (slotKey trigger.nextFireAt)) :
      SlotStage b type tenantMax db since db
        (.error (.uniqueViolation (.dedupeKey trigger.id (slotKey trigger.nextFireAt))))
  | skipped {now now' : Int} {trigger : TriggerRow} (row : TriggerRunRow) (change : TriggerChange)
      (htime : b.stamp since ≤ b.stamp now)
      (hfirst : (dueTriggers b now db type (max tenantMax 1)).head? = some trigger)
      (hfree : ¬ db.KeyTaken trigger.id (slotKey trigger.nextFireAt))
      (hid : row.triggerId = trigger.id) (hrow : row.Fails b (.slot trigger.nextFireAt)) :
      SlotStage b type tenantMax db since
        ((db.insertTriggerRun row).changeTrigger trigger.id (change.row now')) (.ok none)
  | fired {now now' nextFireAt : Int} {trigger : TriggerRow} (run : RunRecord)
      (row : TriggerRunRow) (htime : b.stamp since ≤ b.stamp now)
      (hfirst : (dueTriggers b now db type (max tenantMax 1)).head? = some trigger)
      (hfree : ¬ db.KeyTaken trigger.id (slotKey trigger.nextFireAt))
      (hid : row.triggerId = trigger.id) (hrow : row.Creates b run (.slot trigger.nextFireAt)) :
      SlotStage b type tenantMax db since
        (((db.insertRun run).insertTriggerRun row).changeTrigger trigger.id
          (TriggerChange.row now' (.fire nextFireAt)))
        (.ok (some (dispatchRecord trigger type.text none run.id trigger.nextFireAt nextFireAt)))

section Rules

variable {rt : TriggerRuntime} {b : Backend} {i : Nat} {tenantMax : Int} {db : Db} {since : Int}
  {type : TriggerType}

/-- The first due trigger is still as it was read. -/
theorem reservable {now : Int} {trigger : TriggerRow} (hkeys : db.entries.Nodup)
    (hfirst : (dueTriggers b now db type (max tenantMax 1)).head? = some trigger) :
    ∃ row, db.trigger? trigger.id = some row ∧ row.enabled = true ∧ row.deadLetteredAt = none ∧
      row.nextFireAt = trigger.nextFireAt := by
  obtain ⟨hmem, hmay, _⟩ := mem_dueTriggers.mp (List.mem_of_head? hfirst)
  simp only [Db.mayFire, Bool.and_eq_true, Option.isNone_iff_eq_none] at hmay
  refine ⟨trigger, ?_, hmay.1.1.1, hmay.1.1.2, rfl⟩
  exact (Table.find_eq_some_iff (nodup_triggers hkeys)).mpr ⟨hmem, rfl⟩

theorem alone_failSlot {now : Int} {trigger : TriggerRow} (change : TriggerChange) (error : Json)
    {Q : Db → Except DbError (Option TriggerDispatchRecord) → Prop} (hkeys : db.entries.Nodup)
    (hfirst : (dueTriggers b now db type (max tenantMax 1)).head? = some trigger)
    (hclash : db.KeyTaken trigger.id (slotKey trigger.nextFireAt) →
      Q db (.error (.uniqueViolation (.dedupeKey trigger.id (slotKey trigger.nextFireAt)))))
    (hdone : ¬ db.KeyTaken trigger.id (slotKey trigger.nextFireAt) → ∀ rowId stamp,
      Q ((db.insertTriggerRun (failedRow b rowId trigger.id trigger.nextFireAt
        (.slot trigger.nextFireAt) error)).changeTrigger trigger.id (change.row stamp)) (.ok none)) :
    Alone b i db since [] (failSlot b trigger change error) Q := by
  have hrest : ∀ now', b.stamp since ≤ b.stamp now' → Alone b i db since
      [.changeTrigger trigger.id now' change]
      (do
        insertFailed b trigger.id trigger.nextFireAt (.slot trigger.nextFireAt) error
        commit none) Q := by
    intro now' _
    rw [insertFailed, Prog.bind_assoc]
    refine alone_newUuid fun rowId _ hrowId => alone_insertTriggerRun hrowId ?_ ?_
    · intro htaken
      exact hclash ((dedupeKey_mem_run (by simp [TxStore.added, triggerStore,
        Write.adds])).mp htaken)
    · intro hfree
      rw [dedupeKey_mem_run (by simp [TxStore.added, triggerStore, Write.adds])] at hfree
      exact alone_commit (hdone hfree rowId now')
  unfold failSlot
  cases b with
  | postgres =>
    simp only [advanceTrigger, Prog.bind_assoc]
    exact alone_updateTrigger hrest
  | sqlite => exact alone_reserveTrigger (reservable hkeys hfirst) hrest

theorem alone_fireSlot {now : Int} {trigger : TriggerRow} (nextFireAt : Int)
    {Q : Db → Except DbError (Option TriggerDispatchRecord) → Prop} (hkeys : db.entries.Nodup)
    (hfirst : (dueTriggers b now db type (max tenantMax 1)).head? = some trigger)
    (hclash : db.KeyTaken trigger.id (slotKey trigger.nextFireAt) →
      Q db (.error (.uniqueViolation (.dedupeKey trigger.id (slotKey trigger.nextFireAt)))))
    (hdone : ¬ db.KeyTaken trigger.id (slotKey trigger.nextFireAt) → ∀ (run : RunRecord) rowId stamp,
      Q (((db.insertRun run).insertTriggerRun (createdRow b rowId trigger.id run.id
        trigger.nextFireAt (.slot trigger.nextFireAt))).changeTrigger trigger.id
          (TriggerChange.row stamp (.fire nextFireAt)))
        (.ok (some (dispatchRecord trigger type.text none run.id trigger.nextFireAt nextFireAt)))) :
    Alone b i db since [] (fireSlot b trigger type nextFireAt) Q := by
  cases b with
  | postgres =>
    refine alone_newUuid fun runId hrunId _ => alone_insertRun hrunId fun created =>
      alone_updateTrigger fun now' _ => ?_
    rw [insertCreated, Prog.bind_assoc]
    refine alone_newUuid fun rowId _ hrowId => alone_insertTriggerRun hrowId ?_ ?_
    · intro htaken
      exact hclash ((dedupeKey_mem_run (by simp [TxStore.added, triggerStore,
        Write.adds])).mp htaken)
    · intro hfree
      rw [dedupeKey_mem_run (by simp [TxStore.added, triggerStore, Write.adds])] at hfree
      exact alone_commit (hdone hfree { newRun trigger runId trigger.inputJson with
        createdAt := created } rowId now')
  | sqlite =>
    refine alone_newUuid fun runId hrunId _ => alone_reserveTrigger (reservable hkeys hfirst)
      fun now' _ => ?_
    rw [if_pos rfl]
    have hrunId' : .runKey runId ∉ (triggerStore.run [.changeTrigger trigger.id now'
        (.fire nextFireAt)] db).entries := by
      rw [mem_entries_run]
      intro h
      rcases h with h | h
      · exact hrunId h
      · simp [TxStore.added, triggerStore, Write.adds] at h
    refine alone_insertRun hrunId' fun created => ?_
    rw [insertCreated, Prog.bind_assoc]
    refine alone_newUuid fun rowId _ hrowId => alone_insertTriggerRun hrowId ?_ ?_
    · intro htaken
      exact hclash ((dedupeKey_mem_run (by simp [TxStore.added, triggerStore,
        Write.adds])).mp htaken)
    · intro hfree
      rw [dedupeKey_mem_run (by simp [TxStore.added, triggerStore, Write.adds])] at hfree
      exact alone_commit (hdone hfree { newRun trigger runId (injectTraceId trigger.inputJson runId)
        with createdAt := created } rowId now')

/-- A plan for the first due trigger is carried out, unless its key is taken. -/
theorem alone_execute {now : Int} {trigger : TriggerRow} (plan : SlotPlan)
    {Q : Db → Except DbError (Option TriggerDispatchRecord) → Prop} (hkeys : db.entries.Nodup)
    (hfirst : (dueTriggers b now db type (max tenantMax 1)).head? = some trigger)
    (hclash : db.KeyTaken trigger.id (slotKey trigger.nextFireAt) →
      Q db (.error (.uniqueViolation (.dedupeKey trigger.id (slotKey trigger.nextFireAt)))))
    (hdone : ¬ db.KeyTaken trigger.id (slotKey trigger.nextFireAt) → ∀ (run : RunRecord) rowId stamp,
      Q (plan.publish b trigger run rowId stamp db) (.ok (plan.record trigger run.id))) :
    Alone b i db since [] (plan.execute b type trigger) Q := by
  obtain ⟨_, _, htype, _⟩ := mem_dueTriggers.mp (List.mem_of_head? hfirst)
  cases plan with
  | fire nextFireAt =>
    refine alone_fireSlot nextFireAt hkeys hfirst hclash fun hfree run rowId stamp => ?_
    rw [← htype]
    exact hdone hfree run rowId stamp
  | skip nextFireAt =>
    exact alone_failSlot _ _ hkeys hfirst hclash fun hfree rowId stamp =>
      hdone hfree (newRun trigger "" .null) rowId stamp
  | deadLetter message =>
    exact alone_failSlot _ _ hkeys hfirst hclash fun hfree rowId stamp =>
      hdone hfree (newRun trigger "" .null) rowId stamp

/-- The dispatcher of a type of scheduled triggers, with its decision. -/
inductive PlanStage (rt : TriggerRuntime) (b : Backend) (type : TriggerType) (tenantMax : Int)
    (db : Db) (since : Int) : Db → Except DbError (Option TriggerDispatchRecord) → Prop
  | idle {now : Int} (htime : b.stamp since ≤ b.stamp now)
      (hfirst : (dueTriggers b now db type (max tenantMax 1)).head? = none) :
      PlanStage rt b type tenantMax db since db (.ok none)
  | clash {now : Int} {trigger : TriggerRow} (htime : b.stamp since ≤ b.stamp now)
      (hfirst : (dueTriggers b now db type (max tenantMax 1)).head? = some trigger)
      (htaken : db.KeyTaken trigger.id (slotKey trigger.nextFireAt)) :
      PlanStage rt b type tenantMax db since db
        (.error (.uniqueViolation (.dedupeKey trigger.id (slotKey trigger.nextFireAt))))
  | planned {now now' : Int} {trigger : TriggerRow} {plan : SlotPlan} (run : RunRecord)
      (rowId : String) (stamp : Int) (htime : b.stamp since ≤ b.stamp now)
      (hfirst : (dueTriggers b now db type (max tenantMax 1)).head? = some trigger)
      (hfree : ¬ db.KeyTaken trigger.id (slotKey trigger.nextFireAt)) (hnow : since ≤ now')
      (hplan : trigger.plan rt now' = some plan) :
      PlanStage rt b type tenantMax db since (plan.publish b trigger run rowId stamp db)
        (.ok (plan.record trigger run.id))

theorem PlanStage.slotStage {db' : Db} {r : Except DbError (Option TriggerDispatchRecord)}
    (h : PlanStage rt b type tenantMax db since db' r) : SlotStage b type tenantMax db since db' r := by
  cases h with
  | idle htime hfirst => exact .idle htime hfirst
  | clash htime hfirst htaken => exact .clash htime hfirst htaken
  | @planned now now' trigger plan run rowId stamp htime hfirst hfree hnow hplan =>
    obtain ⟨_, _, htype, _⟩ := mem_dueTriggers.mp (List.mem_of_head? hfirst)
    cases plan with
    | fire nextFireAt =>
      subst htype
      exact .fired run _ htime hfirst hfree rfl ⟨rfl, rfl, rfl⟩
    | skip nextFireAt => exact .skipped _ (.skip nextFireAt) htime hfirst hfree rfl ⟨rfl, rfl, rfl⟩
    | deadLetter message => exact .skipped _ _ htime hfirst hfree rfl ⟨rfl, rfl, rfl⟩

theorem alone_fireScheduled {now : Int} {trigger : TriggerRow} (hkeys : db.entries.Nodup)
    (htype : type ≠ .webhook) (htime : b.stamp since ≤ b.stamp now)
    (hfirst : (dueTriggers b now db type (max tenantMax 1)).head? = some trigger) :
    Alone b i db since [] (fireScheduled rt b type trigger)
      (PlanStage rt b type tenantMax db since) := by
  obtain ⟨_, _, hrow, _⟩ := mem_dueTriggers.mp (List.mem_of_head? hfirst)
  have hplanned : ∀ now' plan, since ≤ now' → trigger.plan rt now' = some plan →
      Alone b i db since [] (plan.execute b type trigger)
        (PlanStage rt b type tenantMax db since) :=
    fun now' plan hnow hplan => alone_execute plan hkeys hfirst (.clash htime hfirst)
      fun hfree run rowId stamp => .planned run rowId stamp htime hfirst hfree hnow hplan
  unfold TriggerRow.triggerType at hrow
  cases hschedule : trigger.schedule with
  | interval seconds =>
    rw [hschedule] at hrow
    obtain rfl : TriggerType.interval = type := hrow
    rw [fireScheduled_interval b hschedule]
    refine alone_nowUtc fun now' hnow => hplanned now' _ hnow ?_
    unfold TriggerRow.plan SlotColumns.plan
    rw [show trigger.slotColumns.schedule = _ from hschedule]
  | cron expression =>
    rw [hschedule] at hrow
    obtain rfl : TriggerType.cron = type := hrow
    rw [fireScheduled_cron b hschedule]
    refine hplanned since _ (Int.le_refl since) ?_
    unfold TriggerRow.plan SlotColumns.plan
    rw [show trigger.slotColumns.schedule = _ from hschedule]
  | webhook =>
    rw [hschedule] at hrow
    exact absurd hrow.symm htype

theorem atRest_plan (htype : type ≠ .webhook) (tenantMax : Int) :
    AtRest b i db since (dispatchNextDueScheduled rt b type tenantMax)
      (PlanStage rt b type tenantMax db since) := by
  refine atRest_keys fun hkeys => atRest_inTransaction ?_
  refine alone_selectDueTrigger fun now pick htime hfirst => ?_
  cases pick with
  | none => exact alone_commit (.idle htime hfirst)
  | some trigger => exact alone_fireScheduled hkeys htype htime hfirst

theorem atRest_dispatchNextDueScheduled (htype : type ≠ .webhook) (tenantMax : Int) :
    AtRest b i db since (dispatchNextDueScheduled rt b type tenantMax)
      (SlotStage b type tenantMax db since) := by
  have hplan : AtRest b i db since (dispatchNextDueScheduled rt b type tenantMax)
      (PlanStage rt b type tenantMax db since) := atRest_plan htype tenantMax
  exact atRest_mono (fun _ _ => PlanStage.slotStage) hplan

end Rules

/-! ## A whole call -/

/-- The cron triggers, and the interval triggers if none of them was dispatched. -/
inductive TimerStage (b : Backend) (tenantMax : Int) (db : Db) (since : Int) :
    Db → Except DbError (Option TriggerDispatchRecord) → Prop
  | cron {db' : Db} {r : Except DbError (Option TriggerDispatchRecord)}
      (h : SlotStage b .cron tenantMax db since db' r) (hend : r ≠ .ok none) :
      TimerStage b tenantMax db since db' r
  | interval {db₁ db' : Db} {r : Except DbError (Option TriggerDispatchRecord)}
      (h : SlotStage b .cron tenantMax db since db₁ (.ok none)) (hkeys : db₁.entries.Nodup)
      (h' : SlotStage b .interval tenantMax db₁ since db' r) : TimerStage b tenantMax db since db' r

/-- A call of the dispatcher of all kinds, from beginning to end. -/
def Dispatches (rt : TriggerRuntime) (b : Backend) (i : Nat) (tenantMax : Int) (w w' : TriggerWorld)
    (out : Except DbError (Option TriggerDispatchRecord)) : Prop :=
  Finishes (session b false i) w (dispatchNextDueTriggerWithLimits rt b tenantMax) w' out

section Rules

variable {rt : TriggerRuntime} {b : Backend} {i : Nat} {db db' : Db} {since : Int}
  {r : Except DbError (Option TriggerDispatchRecord)}

theorem atRest_dispatchNextDueTimer (tenantMax : Int) :
    AtRest b i db since (dispatchNextDueTimer rt b tenantMax) (TimerStage b tenantMax db since) := by
  refine atRest_bind (atRest_dispatchNextDueScheduled (by nofun) tenantMax) ?_ ?_
  · intro db' dispatched hcron
    cases dispatched with
    | some dispatch => exact atRest_pure (.cron hcron (by nofun))
    | none =>
      refine ⟨fun w hrest => wp_mono ?_
        ((atRest_dispatchNextDueScheduled (by nofun) tenantMax).run w hrest)⟩
      intro s r hs
      obtain ⟨db'', hrest', hinterval⟩ := hs
      exact ⟨db'', hrest', .interval hcron (hrest.db ▸ hrest.keys) hinterval⟩
  · exact fun db' e he => .cron he (by nofun)

theorem exists_dispatch {w : TriggerWorld} (h : ∀ j, w.tx.sessions j = none) (tenantMax : Int) :
    ∃ w' out, Dispatches rt b i tenantMax w w' out :=
  exists_finish (fun j _ => h j) _

/-- The webhook events come first; the scheduled triggers follow if none of them was
dispatched and none failed. -/
theorem dispatches_cases {tenantMax : Int} {w w' : TriggerWorld}
    {out : Except DbError (Option TriggerDispatchRecord)} (hrest : Resting db since w)
    (h : Dispatches rt b i tenantMax w w' out) :
    ∃ db₁ w₁ r, EventStage rt b tenantMax db since db₁ r ∧ Resting db₁ since w₁ ∧
      (r ≠ .ok none ∧ w₁ = w' ∧ out = r ∨
        r = .ok none ∧
          Finishes (session b false i) w (dispatchNextDueWebhookEvent rt b tenantMax) w₁
            (.ok none) ∧
          Finishes (session b false i) w₁ (dispatchNextDueTimer rt b tenantMax) w' out) := by
  have hevents : AtRest b i db since (dispatchNextDueWebhookEvent rt b tenantMax)
      (EventStage rt b tenantMax db since) := atRest_dispatchNextDueWebhookEvent tenantMax
  have hwp := hevents.run w hrest
  rcases Finishes.of_bind h with ⟨e, hfail, rfl⟩ | ⟨w₁, dispatched, hevent, htail⟩
  · obtain ⟨db₁, hrest₁, hstage⟩ := wp_of_finishes hwp hfail
    exact ⟨db₁, w', .error e, hstage, hrest₁, .inl ⟨nofun, rfl, rfl⟩⟩
  · obtain ⟨db₁, hrest₁, hstage⟩ := wp_of_finishes hwp hevent
    refine ⟨db₁, w₁, .ok dispatched, hstage, hrest₁, ?_⟩
    cases dispatched with
    | some dispatch =>
      cases htail with
      | pure _ _ => exact .inl ⟨nofun, rfl, rfl⟩
    | none => exact .inr ⟨rfl, hevent, htail⟩

theorem finishes_timer {tenantMax : Int} {w w' : TriggerWorld}
    {out : Except DbError (Option TriggerDispatchRecord)} (hrest : Resting db since w)
    (h : Finishes (session b false i) w (dispatchNextDueTimer rt b tenantMax) w' out) :
    ∃ db', Resting db' since w' ∧ TimerStage b tenantMax db since db' out :=
  wp_of_finishes ((atRest_dispatchNextDueTimer tenantMax).run w hrest) h

end Rules

end Trigger
end SecureAgnt

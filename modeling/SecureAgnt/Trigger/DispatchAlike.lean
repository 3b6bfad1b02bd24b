/-
The dispatchers of the two back ends, one call after the other at the same instants.

Both read the same rows in the same way, but Postgres compares the exact instant and SQLite
whole seconds, and they break ties differently; SQLite adds a trace to the input of a slot's
run.  `dispatchers_agree` says that nothing else differs: as long as the first due rows are the
same, every call is answered alike and leaves alike tables.  The instants are whole
microseconds, for a column of Postgres drops what is below, and SQLite keeps the text of it.
-/
import SecureAgnt.Lib.Paired
import SecureAgnt.Trigger.Decided

namespace SecureAgnt
namespace Trigger

open Storage
open Runs (TriggerDispatchRecord)

/-! ## Alike tables -/

/-- Times that are the same to the second. -/
def SameSecond (s t : Int) : Prop := Backend.sqlite.stamp s = Backend.sqlite.stamp t

def SameSecond? (s t : Option Int) : Prop :=
  s.map Backend.sqlite.stamp = t.map Backend.sqlite.stamp

/-- The same trigger, the times of the database to the second. -/
structure AlikeTrigger (row row' : TriggerRow) : Prop where
  columns : { row with lastFiredAt := none, deadLetteredAt := none, createdAt := 0 } =
    { row' with lastFiredAt := none, deadLetteredAt := none, createdAt := 0 }
  lastFiredAt : SameSecond? row.lastFiredAt row'.lastFiredAt
  deadLetteredAt : SameSecond? row.deadLetteredAt row'.deadLetteredAt
  createdAt : SameSecond row.createdAt row'.createdAt

/-- The same event, the times of the database to the second. -/
structure AlikeEvent (row row' : EventRow) : Prop where
  columns : { row with
      nextAttemptAt := 0, createdAt := 0, processedAt := none, deadLetteredAt := none } =
    { row' with nextAttemptAt := 0, createdAt := 0, processedAt := none, deadLetteredAt := none }
  nextAttemptAt : SameSecond row.nextAttemptAt row'.nextAttemptAt
  createdAt : SameSecond row.createdAt row'.createdAt
  processedAt : SameSecond? row.processedAt row'.processedAt
  deadLetteredAt : SameSecond? row.deadLetteredAt row'.deadLetteredAt

/-- The same run; its input may have the trace that SQLite adds. -/
structure AlikeRun (run run' : RunRecord) : Prop where
  columns : { run with inputJson := .null, createdAt := 0 } =
    { run' with inputJson := .null, createdAt := 0 }
  inputJson : run'.inputJson = run.inputJson ∨
    run'.inputJson = injectTraceId run.inputJson run.id
  createdAt : SameSecond run.createdAt run'.createdAt

/-- The tables of Postgres and those of SQLite. -/
structure AlikeDb (db db' : Db) : Prop where
  triggers : List.Forall₂ AlikeTrigger db.triggers db'.triggers
  events : List.Forall₂ AlikeEvent db.events db'.events
  runs : List.Forall₂ AlikeRun db.runs db'.runs
  ledger : db.ledger = db'.ledger

theorem AlikeTrigger.refl (row : TriggerRow) : AlikeTrigger row row := ⟨rfl, rfl, rfl, rfl⟩

theorem AlikeEvent.refl (row : EventRow) : AlikeEvent row row := ⟨rfl, rfl, rfl, rfl, rfl⟩

theorem AlikeRun.refl (run : RunRecord) : AlikeRun run run := ⟨rfl, .inl rfl, rfl⟩

theorem AlikeDb.refl (db : Db) : AlikeDb db db where
  triggers := List.forall₂_same.mpr fun row _ => .refl row
  events := List.forall₂_same.mpr fun row _ => .refl row
  runs := List.forall₂_same.mpr fun run _ => .refl run
  ledger := rfl

section Rows

variable {row row' : TriggerRow} {event event' : EventRow} {run run' : RunRecord} {db db' : Db}

theorem AlikeTrigger.id (h : AlikeTrigger row row') : row.id = row'.id :=
  congrArg (fun r => r.id) h.columns

theorem AlikeEvent.id (h : AlikeEvent event event') : event.id = event'.id :=
  congrArg (fun e => e.id) h.columns

theorem AlikeEvent.triggerId (h : AlikeEvent event event') : event.triggerId = event'.triggerId :=
  congrArg (fun e => e.triggerId) h.columns

theorem AlikeEvent.entries (h : AlikeEvent event event') : event.entries = event'.entries := by
  have hentries := congrArg EventRow.entries h.columns
  exact hentries

theorem AlikeRun.id (h : AlikeRun run run') : run.id = run'.id :=
  congrArg (fun r => r.id) h.columns

theorem AlikeRun.tenantId (h : AlikeRun run run') : run.tenantId = run'.tenantId :=
  congrArg (fun r => r.tenantId) h.columns

theorem AlikeRun.isInflight (h : AlikeRun run run') : run.isInflight = run'.isInflight := by
  have hinflight := congrArg RunRecord.isInflight h.columns
  exact hinflight

theorem AlikeDb.entries (h : AlikeDb db db') : db.entries = db'.entries := by
  unfold Db.entries
  rw [Paired.map_eq (fun _ _ hrow => congrArg Resource.triggerKey hrow.id) h.triggers,
    Paired.flatMap_eq (fun _ _ hrow => hrow.entries) h.events,
    Paired.map_eq (fun _ _ hrow => congrArg Resource.runKey hrow.id) h.runs, h.ledger]

theorem AlikeDb.triggerInflight (h : AlikeDb db db') (triggerId : String) :
    db.triggerInflight triggerId = db'.triggerInflight triggerId := by
  unfold Db.triggerInflight
  rw [h.ledger]
  congr 1
  funext row
  rw [Paired.any_eq (fun run run' hrun => by rw [hrun.id, hrun.isInflight]) h.runs]

theorem AlikeDb.tenantInflight (h : AlikeDb db db') (tenantId : String) :
    db.tenantInflight tenantId = db'.tenantInflight tenantId :=
  Paired.countP_eq (fun run run' hrun => by rw [hrun.tenantId, hrun.isInflight]) h.runs

theorem AlikeTrigger.alive (h : AlikeTrigger row row') :
    row.deadLetteredAt.isNone = row'.deadLetteredAt.isNone := by
  have hdead := congrArg Option.isNone h.deadLetteredAt
  rwa [Option.isNone_map, Option.isNone_map] at hdead

theorem AlikeDb.mayFire (h : AlikeDb db db') (hrow : AlikeTrigger row row') (tenantMax : Int) :
    db.mayFire tenantMax row = db'.mayFire tenantMax row' := by
  have henabled : row.enabled = row'.enabled := congrArg (fun r => r.enabled) hrow.columns
  have hmax : row.maxInflightRuns = row'.maxInflightRuns :=
    congrArg (fun r => r.maxInflightRuns) hrow.columns
  have htenant : row.tenantId = row'.tenantId := congrArg (fun r => r.tenantId) hrow.columns
  unfold Db.mayFire
  rw [henabled, hrow.alive, hmax, htenant, hrow.id, h.triggerInflight, h.tenantInflight]

theorem AlikeDb.keyTaken (h : AlikeDb db db') {triggerId dedupeKey : String} :
    db.KeyTaken triggerId dedupeKey ↔ db'.KeyTaken triggerId dedupeKey := by
  unfold Db.KeyTaken
  rw [h.ledger]

/-- Rows with one id correspond. -/
theorem AlikeDb.triggerRow (h : AlikeDb db db') (hkeys : db.entries.Nodup) (hrow : row ∈ db.triggers)
    (hrow' : row' ∈ db'.triggers) (hid : row.id = row'.id) : AlikeTrigger row row' := by
  have hids := nodup_triggers hkeys
  exact Paired.related_of_key (fun _ _ hrel => hrel.id) hids h.triggers hrow hrow' hid

theorem AlikeDb.eventRow (h : AlikeDb db db') (hkeys : db.entries.Nodup) (hevent : event ∈ db.events)
    (hevent' : event' ∈ db'.events) (hid : event.id = event'.id) : AlikeEvent event event' := by
  have hids := nodup_events hkeys
  exact Paired.related_of_key (fun _ _ hrel => hrel.id) hids h.events hevent hevent' hid

end Rows

/-! ## The same writes -/

theorem sameSecond_now (now : Int) :
    SameSecond (Backend.postgres.currentTimestamp now) (Backend.sqlite.currentTimestamp now) := by
  show now / 10 ^ 9 = now / 10 ^ 9 * 10 ^ 9 / 10 ^ 9
  omega

section Writes

variable {row row' : TriggerRow} {event event' : EventRow} {db db' : Db} (now : Int)

theorem AlikeTrigger.change (h : AlikeTrigger row row') (change : TriggerChange) :
    AlikeTrigger (change.row (Backend.postgres.currentTimestamp now) row)
      (change.row (Backend.sqlite.currentTimestamp now) row') := by
  have hnow := congrArg some (sameSecond_now now)
  cases change with
  | fire nextFireAt =>
    exact ⟨congrArg (fun r => { r with nextFireAt, consecutiveFailures := 0 }) h.columns, hnow,
      h.deadLetteredAt, h.createdAt⟩
  | touch =>
    exact ⟨congrArg (fun r => { r with consecutiveFailures := 0 }) h.columns, hnow,
      h.deadLetteredAt, h.createdAt⟩
  | skip nextFireAt =>
    exact ⟨congrArg (fun r => { r with nextFireAt }) h.columns, h.lastFiredAt, h.deadLetteredAt,
      h.createdAt⟩
  | deadLetter reason =>
    exact ⟨congrArg (fun r => { r with deadLetterReason := some reason }) h.columns,
      h.lastFiredAt, hnow, h.createdAt⟩

theorem AlikeEvent.change (h : AlikeEvent event event') (change : EventChange) :
    AlikeEvent (change.row (Backend.postgres.currentTimestamp now) event)
      (change.row (Backend.sqlite.currentTimestamp now) event') := by
  have hnow := sameSecond_now now
  have hattempts : event.attempts = event'.attempts := congrArg (fun e => e.attempts) h.columns
  cases change with
  | process =>
    exact ⟨congrArg (fun e => { e with attempts := e.attempts + 1, status := .processed })
      h.columns, hnow, h.createdAt, congrArg some hnow, h.deadLetteredAt⟩
  | fail deadLetter eventError =>
    cases deadLetter with
    | true =>
      exact ⟨congrArg (fun e => { e with
        attempts := e.attempts + 1, status := .deadLettered, lastErrorJson := some eventError })
        h.columns, hnow, h.createdAt, h.processedAt, congrArg some hnow⟩
    | false =>
      refine ⟨congrArg (fun e => { e with
        attempts := e.attempts + 1, status := .pending, lastErrorJson := some eventError })
        h.columns, ?_, h.createdAt, h.processedAt, rfl⟩
      show (now + thirtySeconds) / 10 ^ 9 = (now / 10 ^ 9 * 10 ^ 9 + thirtySeconds) / 10 ^ 9
      unfold thirtySeconds
      omega
  | requeue =>
    exact ⟨congrArg (fun e => { e with attempts := 0, status := .pending, lastErrorJson := none })
      h.columns, hnow, h.createdAt, rfl, rfl⟩

theorem forall₂_changeRow {α : Type} {R : α → α → Prop} {key : α → String} {id : String}
    {f g : α → α} {rows rows' : List α} (hkey : ∀ a b, R a b → key a = key b)
    (hfg : ∀ a b, R a b → R (f a) (g b)) (h : List.Forall₂ R rows rows') :
    List.Forall₂ R (changeRow key id f rows) (changeRow key id g rows') := by
  refine List.rel_map (fun a b hab => ?_) h
  by_cases hid : key a = id
  · rw [if_pos hid, if_pos (hkey a b hab ▸ hid)]
    exact hfg a b hab
  · rw [if_neg hid, if_neg (hkey a b hab ▸ hid)]
    exact hab

theorem AlikeDb.changeTrigger (h : AlikeDb db db') (id : String) (change : TriggerChange) :
    AlikeDb (db.changeTrigger id (change.row (Backend.postgres.currentTimestamp now)))
      (db'.changeTrigger id (change.row (Backend.sqlite.currentTimestamp now))) where
  triggers := forall₂_changeRow (fun _ _ hrow => hrow.id) (fun _ _ hrow => hrow.change now change)
    h.triggers
  events := h.events
  runs := h.runs
  ledger := h.ledger

theorem AlikeDb.changeEvent (h : AlikeDb db db') (id : String) (change : EventChange) :
    AlikeDb (db.changeEvent id (change.row (Backend.postgres.currentTimestamp now)))
      (db'.changeEvent id (change.row (Backend.sqlite.currentTimestamp now))) where
  triggers := h.triggers
  events := forall₂_changeRow (fun _ _ hrow => hrow.id) (fun _ _ hrow => hrow.change now change)
    h.events
  runs := h.runs
  ledger := h.ledger

theorem AlikeDb.insertRun {run run' : RunRecord} (h : AlikeDb db db') (hrun : AlikeRun run run') :
    AlikeDb (db.insertRun run) (db'.insertRun run') where
  triggers := h.triggers
  events := h.events
  runs := List.rel_append h.runs (.cons hrun .nil)
  ledger := h.ledger

theorem AlikeDb.insertTriggerRun {entry entry' : TriggerRunRow} (h : AlikeDb db db')
    (hentry : entry = entry') :
    AlikeDb (db.insertTriggerRun entry) (db'.insertTriggerRun entry') where
  triggers := h.triggers
  events := h.events
  runs := h.runs
  ledger := by
    show db.ledger ++ [entry] = db'.ledger ++ [entry']
    rw [h.ledger, hentry]

end Writes

/-! ## The first due rows -/

def firstEvent (b : Backend) (now tenantMax : Int) (db : Db) : Option (EventRow × TriggerRow) :=
  (dueEvents b (b.currentTimestamp now) db (max tenantMax 1)).head?

def firstTrigger (b : Backend) (now tenantMax : Int) (type : TriggerType) (db : Db) :
    Option TriggerRow :=
  (dueTriggers b (b.currentTimestamp now) db type (max tenantMax 1)).head?

/-- Both back ends find the same event, the same cron and the same interval trigger first. -/
structure SameFirst (now tenantMax : Int) (db db' : Db) : Prop where
  event : (firstEvent .postgres now tenantMax db).map (·.1.id) =
    (firstEvent .sqlite now tenantMax db').map (·.1.id)
  cron : (firstTrigger .postgres now tenantMax .cron db).map (·.id) =
    (firstTrigger .sqlite now tenantMax .cron db').map (·.id)
  interval : (firstTrigger .postgres now tenantMax .interval db).map (·.id) =
    (firstTrigger .sqlite now tenantMax .interval db').map (·.id)

/-- A call is answered alike, and the tables after it are alike. -/
structure AlikeOutcome (out out' : DispatchOutcome) : Prop where
  answer : out.1 = out'.1
  tables : AlikeDb out.2 out'.2

section Stages

variable {rt : TriggerRuntime} {now tenantMax : Int} {keys : KeySource} {db db' : Db}
  {row row' : TriggerRow} {event event' : EventRow} {type : TriggerType}

theorem AlikeTrigger.plan (h : AlikeTrigger row row') : row.plan rt now = row'.plan rt now := by
  have hplan := congrArg (TriggerRow.plan rt now) h.columns
  exact hplan

theorem AlikeTrigger.dispatchRecord (h : AlikeTrigger row row') (triggerType : String)
    (triggerEventId : Option String) (runId : String) (scheduledFor nextFireAt : Int) :
    dispatchRecord row triggerType triggerEventId runId scheduledFor nextFireAt =
      dispatchRecord row' triggerType triggerEventId runId scheduledFor nextFireAt := by
  have hrecord := congrArg (fun r =>
    Trigger.dispatchRecord r triggerType triggerEventId runId scheduledFor nextFireAt) h.columns
  exact hrecord

theorem AlikeTrigger.nextFireAt (h : AlikeTrigger row row') : row.nextFireAt = row'.nextFireAt :=
  congrArg (fun r => r.nextFireAt) h.columns

theorem AlikeTrigger.triggerType (h : AlikeTrigger row row') :
    row.triggerType = row'.triggerType := by
  have htype := congrArg TriggerRow.triggerType h.columns
  exact htype

theorem AlikeTrigger.record (h : AlikeTrigger row row') (runId : String) (plan : SlotPlan) :
    plan.record row runId = plan.record row' runId := by
  cases plan with
  | fire nextFireAt =>
    show some _ = some _
    rw [h.dispatchRecord, h.triggerType, h.nextFireAt]
  | skip nextFireAt => rfl
  | deadLetter message => rfl

/-- The runs of a slot differ by the trace. -/
theorem AlikeTrigger.slotRun (h : AlikeTrigger row row') (runId : String) :
    AlikeRun (slotRun .postgres now runId row) (slotRun .sqlite now runId row') where
  columns := by
    have hcolumns := congrArg (fun r => newRun r runId .null) h.columns
    exact hcolumns
  inputJson := by
    have hinput : row.inputJson = row'.inputJson := congrArg (fun r => r.inputJson) h.columns
    right
    show injectTraceId row'.inputJson runId = injectTraceId row.inputJson runId
    rw [hinput]
  createdAt := sameSecond_now now

theorem alikeRun_event (hrow : AlikeTrigger row row') (hevent : AlikeEvent event event')
    (runId : String) :
    AlikeRun (eventRun .postgres now runId event row) (eventRun .sqlite now runId event' row') where
  columns := by
    have hcolumns := congrArg (fun r => newRun r runId .null) hrow.columns
    exact hcolumns
  inputJson := by
    have hinput : row.inputJson = row'.inputJson := congrArg (fun r => r.inputJson) hrow.columns
    have hid : event.eventId = event'.eventId := congrArg (fun e => e.eventId) hevent.columns
    have hpayload : event.payloadJson = event'.payloadJson :=
      congrArg (fun e => e.payloadJson) hevent.columns
    left
    show eventRunInput event' row' runId = eventRunInput event row runId
    unfold eventRunInput
    rw [hinput, hid, hpayload, hrow.id]
  createdAt := sameSecond_now now

theorem AlikeDb.keyTaken_of_eq (h : AlikeDb db db') {triggerId triggerId' key key' : String}
    (htrigger : triggerId = triggerId') (hkey : key = key') :
    db.KeyTaken triggerId key ↔ db'.KeyTaken triggerId' key' := by
  rw [htrigger, hkey]
  exact h.keyTaken

/-- A planned slot comes out alike. -/
theorem alike_planOutcome (h : AlikeDb db db') (hrow : AlikeTrigger row row') (plan : SlotPlan) :
    AlikeOutcome (plan.outcome .postgres now keys row db)
      (plan.outcome .sqlite now keys row' db') := by
  have htaken := h.keyTaken_of_eq hrow.id (congrArg slotKey hrow.nextFireAt)
  have hrun : AlikeRun (slotRun .postgres now (keys.next db.entries) row)
      (slotRun .sqlite now (keys.next db'.entries) row') := by
    rw [h.entries]
    exact hrow.slotRun _
  unfold SlotPlan.outcome
  dsimp only
  by_cases hkey : db.KeyTaken row.id (slotKey row.nextFireAt)
  · rw [if_pos hkey, if_pos (htaken.mp hkey), hrow.id, hrow.nextFireAt]
    exact ⟨rfl, h⟩
  · rw [if_neg hkey, if_neg fun hkey' => hkey (htaken.mpr hkey')]
    constructor
    · show Except.ok _ = Except.ok _
      rw [hrow.record, hrun.id]
    · cases plan with
      | fire nextFireAt =>
        have hentered := h.insertRun hrun
        unfold SlotPlan.publish SlotPlan.entered SlotPlan.entry
        dsimp only
        rw [hentered.entries, hrow.id, hrow.nextFireAt, hrun.id]
        exact (hentered.insertTriggerRun rfl).changeTrigger now _ _
      | skip nextFireAt =>
        unfold SlotPlan.publish SlotPlan.entered SlotPlan.entry
        dsimp only
        rw [h.entries, hrow.id, hrow.nextFireAt]
        exact (h.insertTriggerRun rfl).changeTrigger now _ _
      | deadLetter message =>
        unfold SlotPlan.publish SlotPlan.entered SlotPlan.entry
        dsimp only
        rw [h.entries, hrow.id, hrow.nextFireAt]
        exact (h.insertTriggerRun rfl).changeTrigger now _ _

theorem alike_slotOutcome (h : AlikeDb db db') (hkeys : db.entries.Nodup)
    (hfirst : (firstTrigger .postgres now tenantMax type db).map (·.id) =
      (firstTrigger .sqlite now tenantMax type db').map (·.id)) :
    AlikeOutcome (slotOutcome rt .postgres now keys tenantMax type db)
      (slotOutcome rt .sqlite now keys tenantMax type db') := by
  unfold firstTrigger at hfirst
  unfold slotOutcome
  cases hpg : (dueTriggers .postgres (Backend.postgres.currentTimestamp now) db type
      (max tenantMax 1)).head? with
  | none =>
    rw [hpg, Option.map_none, eq_comm, Option.map_eq_none_iff] at hfirst
    rw [hfirst]
    exact ⟨rfl, h⟩
  | some row =>
    rw [hpg, Option.map_some, eq_comm, Option.map_eq_some_iff] at hfirst
    obtain ⟨row', hsq, hid⟩ := hfirst
    have hrow := h.triggerRow hkeys (mem_dueTriggers.mp (List.mem_of_head? hpg)).1
      (mem_dueTriggers.mp (List.mem_of_head? hsq)).1 hid.symm
    rw [hsq]
    dsimp only
    rw [hrow.plan]
    cases row'.plan rt now with
    | none => exact ⟨rfl, h⟩
    | some plan => exact alike_planOutcome h hrow plan

theorem alike_attemptOutcome (h : AlikeDb db db') (hrow : AlikeTrigger row row')
    (hevent : AlikeEvent event event') :
    AlikeOutcome (attemptOutcome rt .postgres now keys event row db)
      (attemptOutcome rt .sqlite now keys event' row' db') := by
  have hid : event.eventId = event'.eventId := congrArg (fun e => e.eventId) hevent.columns
  have hpayload : event.payloadJson = event'.payloadJson :=
    congrArg (fun e => e.payloadJson) hevent.columns
  have htaken := h.keyTaken_of_eq hrow.id hid
  unfold attemptOutcome
  by_cases hkey : db.KeyTaken row.id event.eventId
  · rw [if_pos hkey, if_pos (htaken.mp hkey), hrow.id, hid]
    exact ⟨rfl, h⟩
  rw [if_neg hkey, if_neg fun hkey' => hkey (htaken.mpr hkey'), hpayload]
  by_cases hlarge : rt.tooLarge event'.payloadJson = true
  · have hattempts : event.attempts = event'.attempts :=
      congrArg (fun e => e.attempts) hevent.columns
    have hmax : row.maxAttempts = row'.maxAttempts := congrArg (fun r => r.maxAttempts) hrow.columns
    rw [if_pos hlarge, if_pos hlarge]
    unfold failedOutcome
    rw [h.entries, hrow.id, hid, hevent.id, hattempts, hmax]
    exact ⟨rfl, (h.insertTriggerRun rfl).changeEvent now _ _⟩
  · have hrun : AlikeRun (eventRun .postgres now (keys.next db.entries) event row)
        (eventRun .sqlite now (keys.next db'.entries) event' row') := by
      rw [h.entries]
      exact alikeRun_event hrow hevent _
    have hentered := h.insertRun hrun
    rw [if_neg hlarge, if_neg hlarge]
    unfold firedOutcome
    dsimp only
    rw [hentered.entries, hrow.id, hid, hevent.id, hrun.id, hrow.dispatchRecord]
    exact ⟨rfl, ((hentered.insertTriggerRun rfl).changeEvent now _ _).changeTrigger now _ _⟩

theorem alike_eventOutcome (h : AlikeDb db db') (hkeys : db.entries.Nodup)
    (hfirst : (firstEvent .postgres now tenantMax db).map (·.1.id) =
      (firstEvent .sqlite now tenantMax db').map (·.1.id)) :
    AlikeOutcome (eventOutcome rt .postgres now keys tenantMax db)
      (eventOutcome rt .sqlite now keys tenantMax db') := by
  unfold firstEvent at hfirst
  unfold eventOutcome
  cases hpg : (dueEvents .postgres (Backend.postgres.currentTimestamp now) db
      (max tenantMax 1)).head? with
  | none =>
    rw [hpg, Option.map_none, eq_comm, Option.map_eq_none_iff] at hfirst
    rw [hfirst]
    exact ⟨rfl, h⟩
  | some found =>
    rw [hpg, Option.map_some, eq_comm, Option.map_eq_some_iff] at hfirst
    obtain ⟨found', hsq, hid⟩ := hfirst
    obtain ⟨hevent, htrigger, -⟩ := mem_dueEvents.mp (List.mem_of_head? hpg)
    obtain ⟨hevent', htrigger', -⟩ := mem_dueEvents.mp (List.mem_of_head? hsq)
    have halike := h.eventRow hkeys hevent hevent' hid.symm
    obtain ⟨hmem, hkey⟩ := Table.key_of_find htrigger
    obtain ⟨hmem', hkey'⟩ := Table.key_of_find htrigger'
    have hrow := h.triggerRow hkeys hmem hmem' (by rw [hkey, hkey', halike.triggerId])
    rw [hsq]
    exact alike_attemptOutcome h hrow halike

end Stages

/-! ## One call -/

theorem filter_changeRow {α : Type} {key : α → String} {id : String} {f : α → α} {p : α → Bool}
    {rows : List α} (h : ∀ row ∈ rows, key row = id → p row = false ∧ p (f row) = false) :
    (changeRow key id f rows).filter p = rows.filter p := by
  induction rows with
  | nil => rfl
  | cons row rest ih =>
    have hrest := ih fun row' hrow' => h row' (List.mem_cons_of_mem _ hrow')
    show ((if key row = id then f row else row) :: changeRow key id f rest).filter p = _
    by_cases hid : key row = id
    · obtain ⟨hbefore, hafter⟩ := h row List.mem_cons_self hid
      rw [if_pos hid, List.filter_cons, List.filter_cons, hbefore, hafter]
      exact hrest
    · rw [if_neg hid, List.filter_cons, List.filter_cons, hrest]

section Calls

variable {rt : TriggerRuntime} {b : Backend} {now tenantMax : Int} {keys : KeySource} {db db' : Db}
  {row : TriggerRow} {type : TriggerType} {entry : TriggerRunRow}

/-- A ledger row without a run takes no room. -/
theorem mayFire_insertTriggerRun (hrun : entry.runId = none) :
    (db.insertTriggerRun entry).mayFire tenantMax = db.mayFire tenantMax := by
  funext row
  have hinflight : (db.insertTriggerRun entry).triggerInflight row.id =
      db.triggerInflight row.id := by
    unfold Db.triggerInflight Db.insertTriggerRun
    rw [List.countP_append, List.countP_singleton, hrun]
    simp
  unfold Db.mayFire
  rw [hinflight]
  rfl

theorem dueTriggers_insertTriggerRun (hrun : entry.runId = none) :
    dueTriggers b now (db.insertTriggerRun entry) type tenantMax =
      dueTriggers b now db type tenantMax := by
  unfold dueTriggers
  rw [mayFire_insertTriggerRun hrun]
  rfl

/-- What becomes of a trigger of another type does not matter. -/
theorem dueTriggers_changeTrigger (hkeys : db.entries.Nodup) (hrow : row ∈ db.triggers)
    (htype : row.triggerType ≠ type) (stamp : Int) (change : TriggerChange) :
    dueTriggers b now (db.changeTrigger row.id (change.row stamp)) type tenantMax =
      dueTriggers b now db type tenantMax := by
  unfold dueTriggers
  show orderBy _ (((changeRow (·.id) row.id (change.row stamp) db.triggers).filter fun r =>
    db.mayFire tenantMax r && r.triggerType = type &&
      b.stamp r.nextFireAt ≤ b.stamp now).insertionSort _) = _
  rw [filter_changeRow]
  intro row' hrow' hid
  have hsame := List.inj_on_of_nodup_map (nodup_triggers hkeys) hrow' hrow hid
  subst hsame
  have hchanged : (change.row stamp row').triggerType ≠ type := by
    rw [change.row_triggerType]
    exact htype
  simp [htype, hchanged]

theorem dueTriggers_changeEvent (id : String) (f : EventRow → EventRow) :
    dueTriggers b now (db.changeEvent id f) type tenantMax = dueTriggers b now db type tenantMax :=
  rfl

/-- Where no event was dispatched, the ledger has at most a row without a run more. -/
theorem eventOutcome_none (hnone : (eventOutcome rt b now keys tenantMax db).1 = .ok none) :
    (eventOutcome rt b now keys tenantMax db).2 = db ∨ ∃ entry id f, entry.runId = none ∧
      (eventOutcome rt b now keys tenantMax db).2 =
        (db.insertTriggerRun entry).changeEvent id f := by
  unfold eventOutcome at hnone ⊢
  cases hfirst : (dueEvents b (b.currentTimestamp now) db (max tenantMax 1)).head? with
  | none => exact .inl rfl
  | some found =>
    rw [hfirst] at hnone
    dsimp only at hnone ⊢
    unfold attemptOutcome at hnone ⊢
    by_cases hkey : db.KeyTaken found.2.id found.1.eventId
    · rw [if_pos hkey] at hnone
      cases hnone
    · rw [if_neg hkey] at hnone ⊢
      by_cases hlarge : rt.tooLarge found.1.payloadJson = true
      · rw [if_pos hlarge]
        exact .inr ⟨_, _, _, rfl, rfl⟩
      · rw [if_neg hlarge] at hnone
        cases hnone

theorem firstTrigger_eventOutcome
    (hnone : (eventOutcome rt b now keys tenantMax db).1 = .ok none) :
    firstTrigger b now tenantMax type (eventOutcome rt b now keys tenantMax db).2 =
      firstTrigger b now tenantMax type db := by
  unfold firstTrigger
  rcases eventOutcome_none hnone with hsame | ⟨entry, id, f, hrun, hchanged⟩
  · rw [hsame]
  · rw [hchanged, dueTriggers_changeEvent, dueTriggers_insertTriggerRun hrun]

/-- Where no trigger of a type was dispatched, one of them has changed at most. -/
theorem slotOutcome_none (hnone : (slotOutcome rt b now keys tenantMax type db).1 = .ok none) :
    (slotOutcome rt b now keys tenantMax type db).2 = db ∨ ∃ entry row stamp change,
      entry.runId = none ∧ row ∈ db.triggers ∧ row.triggerType = type ∧
        (slotOutcome rt b now keys tenantMax type db).2 =
          (db.insertTriggerRun entry).changeTrigger row.id (TriggerChange.row stamp change) := by
  unfold slotOutcome at hnone ⊢
  cases hfirst : (dueTriggers b (b.currentTimestamp now) db type (max tenantMax 1)).head? with
  | none => exact .inl rfl
  | some row =>
    obtain ⟨hrow, -, htype, -⟩ := mem_dueTriggers.mp (List.mem_of_head? hfirst)
    rw [hfirst] at hnone
    dsimp only at hnone ⊢
    cases hplan : row.plan rt now with
    | none =>
      rw [hplan] at hnone
      cases hnone
    | some plan =>
      rw [hplan] at hnone
      dsimp only at hnone ⊢
      unfold SlotPlan.outcome at hnone ⊢
      dsimp only at hnone ⊢
      by_cases hkey : db.KeyTaken row.id (slotKey row.nextFireAt)
      · rw [if_pos hkey] at hnone
        cases hnone
      · rw [if_neg hkey] at hnone ⊢
        cases plan with
        | fire nextFireAt => cases hnone
        | skip nextFireAt => exact .inr ⟨_, row, _, _, rfl, hrow, htype, rfl⟩
        | deadLetter message => exact .inr ⟨_, row, _, _, rfl, hrow, htype, rfl⟩

/-- A cron trigger that creates no run leaves the interval triggers as they were. -/
theorem firstTrigger_slotOutcome (hkeys : db.entries.Nodup)
    (hnone : (slotOutcome rt b now keys tenantMax .cron db).1 = .ok none) :
    firstTrigger b now tenantMax .interval (slotOutcome rt b now keys tenantMax .cron db).2 =
      firstTrigger b now tenantMax .interval db := by
  unfold firstTrigger
  rcases slotOutcome_none hnone with hsame |
    ⟨entry, row, stamp, change, hrun, hrow, htype, hchanged⟩
  · rw [hsame]
  · have hother : row.triggerType ≠ .interval := by
      rw [htype]
      decide
    have hdue := @dueTriggers_changeTrigger b (b.currentTimestamp now) (max tenantMax 1) db row
      .interval hkeys hrow hother stamp change
    have hentered := @dueTriggers_insertTriggerRun b (b.currentTimestamp now) (max tenantMax 1)
      (db.changeTrigger row.id (change.row stamp)) .interval entry hrun
    rw [hchanged, ← hdue, ← hentered]
    rfl

theorem alike_orTry {out out' : DispatchOutcome} {next next' : Db → DispatchOutcome}
    (h : AlikeOutcome out out')
    (hnext : out.1 = .ok none → AlikeOutcome (next out.2) (next' out'.2)) :
    AlikeOutcome (out.orTry next) (out'.orTry next') := by
  obtain ⟨r, after⟩ := out
  obtain ⟨r', after'⟩ := out'
  obtain rfl : r = r' := h.answer
  rcases r with e | (_ | dispatch)
  · exact h
  · exact hnext rfl
  · exact h

theorem alike_dispatchOutcome (h : AlikeDb db db') (hkeys : db.entries.Nodup)
    (hfirst : SameFirst now tenantMax db db') :
    AlikeOutcome (dispatchOutcome rt .postgres now keys tenantMax db)
      (dispatchOutcome rt .sqlite now keys tenantMax db') := by
  have hevent := @alike_eventOutcome rt now tenantMax keys db db' h hkeys hfirst.event
  refine alike_orTry hevent fun hnone => ?_
  have hnone' : (eventOutcome rt .sqlite now keys tenantMax db').1 = .ok none :=
    hevent.answer.symm.trans hnone
  have hkeys₁ := @nodup_eventOutcome rt .postgres now keys tenantMax db hkeys
  have hcron := @alike_slotOutcome rt now tenantMax keys _ _ .cron hevent.tables hkeys₁ (by
    rw [firstTrigger_eventOutcome hnone, firstTrigger_eventOutcome hnone']
    exact hfirst.cron)
  refine alike_orTry hcron fun hidle => alike_slotOutcome hcron.tables
    (nodup_slotOutcome hkeys₁ (by decide)) ?_
  rw [firstTrigger_slotOutcome hkeys₁ hidle, firstTrigger_slotOutcome
    (hevent.tables.entries ▸ hkeys₁) (hcron.answer.symm.trans hidle),
    firstTrigger_eventOutcome hnone, firstTrigger_eventOutcome hnone']
  exact hfirst.interval

end Calls

/-! ## Whole microseconds -/

/-- An instant that a column of Postgres keeps as it is bound. -/
def Microseconds (t : Int) : Prop := t % 10 ^ 3 = 0

instance (t : Int) : Decidable (Microseconds t) := inferInstanceAs (Decidable (_ = _))

/-- A cron schedule names no instant below the microsecond. -/
def CronKept (rt : TriggerRuntime) : Prop :=
  ∀ expression timezone t fireAt,
    rt.nextCronFireAt expression timezone t = .ok fireAt → Microseconds fireAt

/-- The columns whose instants the dispatchers compute and bind. -/
structure KeptTimes (db : Db) : Prop where
  triggers : ∀ row ∈ db.triggers, Microseconds row.nextFireAt
  ledger : ∀ entry ∈ db.ledger, Microseconds entry.scheduledFor

/-- What the first try and the next one keep. -/
theorem orTry_keeps {P : Db → Prop} {out : DispatchOutcome} {next : Db → DispatchOutcome}
    (hout : P out.2) (hnext : ∀ db, P db → P (next db).2) : P (out.orTry next).2 := by
  obtain ⟨r, after⟩ := out
  rcases r with e | (_ | dispatch)
  · exact hout
  · exact hnext _ hout
  · exact hout

section Kept

variable {rt : TriggerRuntime} {b : Backend} {now : Int} {keys : KeySource} {tenantMax : Int}
  {db : Db} {t : Int}

theorem Microseconds.add_seconds (h : Microseconds t) (n : Int) : Microseconds (t + n * second) := by
  unfold Microseconds second at *
  omega

theorem Microseconds.applyJitter (h : Microseconds t) (triggerId : String)
    (jitterSeconds entropyTime : Int) :
    Microseconds (applyJitter rt t triggerId jitterSeconds entropyTime) := by
  unfold Trigger.applyJitter
  split
  · exact h
  · exact h.add_seconds _

/-- The next slot of a trigger is one, too. -/
theorem microseconds_plan {row : TriggerRow} {plan : SlotPlan} (hnow : Microseconds now)
    (hcron : CronKept rt) (hrow : Microseconds row.nextFireAt) (h : row.plan rt now = some plan) :
    Microseconds (plan.next row.nextFireAt) := by
  unfold TriggerRow.plan SlotColumns.plan at h
  split at h
  · cases h
    unfold intervalPlan
    split
    · exact (hnow.add_seconds _).applyJitter ..
    · exact (hrow.add_seconds _).applyJitter ..
  · cases h
    unfold cronPlan
    split
    · next hvalue => exact (hcron _ _ _ _ hvalue).applyJitter ..
    · exact hrow
  · cases h

theorem KeptTimes.insertRun (h : KeptTimes db) (run : RunRecord) : KeptTimes (db.insertRun run) :=
  ⟨h.triggers, h.ledger⟩

theorem KeptTimes.changeEvent (h : KeptTimes db) (id : String) (f : EventRow → EventRow) :
    KeptTimes (db.changeEvent id f) := ⟨h.triggers, h.ledger⟩

theorem KeptTimes.insertTriggerRun {entry : TriggerRunRow} (h : KeptTimes db)
    (hentry : Microseconds entry.scheduledFor) : KeptTimes (db.insertTriggerRun entry) where
  triggers := h.triggers
  ledger := fun other hother => by
    rcases List.mem_append.mp hother with hother | hother
    · exact h.ledger other hother
    · rw [List.mem_singleton.mp hother]
      exact hentry

theorem KeptTimes.changeTrigger {f : TriggerRow → TriggerRow} (h : KeptTimes db) (id : String)
    (hf : ∀ row ∈ db.triggers, Microseconds (f row).nextFireAt) :
    KeptTimes (db.changeTrigger id f) where
  triggers := fun row hrow => by
    obtain ⟨old, hold, rfl⟩ := List.mem_map.mp hrow
    split
    · exact hf old hold
    · exact h.triggers old hold
  ledger := h.ledger

theorem kept_slotOutcome {type : TriggerType} (hnow : Microseconds now)
    (hcron : CronKept rt) (h : KeptTimes db) : KeptTimes (slotOutcome rt b now keys tenantMax type db).2 := by
  unfold slotOutcome
  split
  · exact h
  · next row hfirst =>
    have hrow := h.triggers row (mem_dueTriggers.mp (List.mem_of_head? hfirst)).1
    split
    · exact h
    · next plan hplan =>
      have hnext := microseconds_plan hnow hcron hrow hplan
      unfold SlotPlan.outcome
      dsimp only
      split
      · exact h
      · unfold SlotPlan.publish
        cases plan with
        | fire nextFireAt =>
          exact ((h.insertRun _).insertTriggerRun hrow).changeTrigger _ fun _ _ => hnext
        | skip nextFireAt => exact (h.insertTriggerRun hrow).changeTrigger _ fun _ _ => hnext
        | deadLetter message =>
          exact (h.insertTriggerRun hrow).changeTrigger _ fun old hold => h.triggers old hold

theorem kept_eventOutcome (hnow : Microseconds now) (h : KeptTimes db) :
    KeptTimes (eventOutcome rt b now keys tenantMax db).2 := by
  unfold eventOutcome
  split
  · exact h
  · unfold attemptOutcome
    split
    · exact h
    · split
      · exact (h.insertTriggerRun hnow).changeEvent _ _
      · exact (((h.insertRun _).insertTriggerRun hnow).changeEvent _ _).changeTrigger _
          fun old hold => h.triggers old hold

theorem kept_dispatchOutcome (hnow : Microseconds now) (hcron : CronKept rt)
    (h : KeptTimes db) : KeptTimes (dispatchOutcome rt b now keys tenantMax db).2 :=
  orTry_keeps (kept_eventOutcome hnow h) fun _ hkept =>
    orTry_keeps (kept_slotOutcome hnow hcron hkept) fun _ hkept =>
      kept_slotOutcome hnow hcron hkept

end Kept

/-! ## Call after call -/

section Histories

variable (rt : TriggerRuntime) (keys : KeySource) (tenantMax : Int)

/-- One call after the other, each at its instant: the answers, and the state after them. -/
def dispatchCalls (b : Backend) :
    List Int → Moment → List (Except DbError (Option TriggerDispatchRecord)) × Moment
  | [], m => ([], m)
  | now :: rest, m =>
    let out := (dispatchNextDueTriggerWithLimits rt b tenantMax).exec (answer b now keys.ids) m
    let later := dispatchCalls b rest out.2
    (out.1 :: later.1, later.2)

/-- At each call the two back ends find the same rows first. -/
def FirstsAgree : List Int → Moment → Moment → Prop
  | [], _, _ => True
  | now :: rest, m, m' => SameFirst now tenantMax m.db m'.db ∧ FirstsAgree rest
    ((dispatchNextDueTriggerWithLimits rt .postgres tenantMax).exec
      (answer .postgres now keys.ids) m).2
    ((dispatchNextDueTriggerWithLimits rt .sqlite tenantMax).exec
      (answer .sqlite now keys.ids) m').2

theorem nodup_dispatchOutcome {rt : TriggerRuntime} {b : Backend} {now : Int} {keys : KeySource}
    {tenantMax : Int} {db : Db} (hkeys : db.entries.Nodup) :
    (dispatchOutcome rt b now keys tenantMax db).2.entries.Nodup :=
  orTry_keeps (P := fun db => db.entries.Nodup) (nodup_eventOutcome hkeys) fun _ hkeys' =>
    orTry_keeps (P := fun db => db.entries.Nodup) (nodup_slotOutcome hkeys' (by decide))
      fun _ hkeys'' => nodup_slotOutcome hkeys'' (by decide)

/-- From alike tables the dispatchers of both back ends give the same answers, call after call,
and leave alike tables, as long as they find the same rows first.  With a clock and a schedule
of whole microseconds, every instant that they bind is one that Postgres keeps as it is. -/
theorem dispatchers_agree (instants : List Int) (db db' : Db) (h : AlikeDb db db')
    (hkeys : db.entries.Nodup) (hcron : CronKept rt)
    (hinstants : ∀ now ∈ instants, Microseconds now) (hkept : KeptTimes db)
    (hfirsts : FirstsAgree rt keys tenantMax instants ⟨db, none⟩ ⟨db', none⟩) :
    (dispatchCalls rt keys tenantMax .postgres instants ⟨db, none⟩).1 =
        (dispatchCalls rt keys tenantMax .sqlite instants ⟨db', none⟩).1 ∧
      AlikeDb (dispatchCalls rt keys tenantMax .postgres instants ⟨db, none⟩).2.db
        (dispatchCalls rt keys tenantMax .sqlite instants ⟨db', none⟩).2.db ∧
      KeptTimes (dispatchCalls rt keys tenantMax .postgres instants ⟨db, none⟩).2.db := by
  induction instants generalizing db db' with
  | nil => exact ⟨rfl, h, hkept⟩
  | cons now rest ih =>
    have hkeys' : db'.entries.Nodup := h.entries ▸ hkeys
    obtain ⟨hfirst, hrest⟩ := hfirsts
    have hout := @alike_dispatchOutcome rt now tenantMax keys db db' h hkeys hfirst
    have hlater := @kept_dispatchOutcome rt .postgres now keys tenantMax db
      (hinstants now List.mem_cons_self) hcron hkept
    rw [exec_dispatchNextDueTrigger hkeys, exec_dispatchNextDueTrigger hkeys'] at hrest
    obtain ⟨hanswers, htables⟩ := ih _ _ hout.tables (nodup_dispatchOutcome hkeys)
      (fun t ht => hinstants t (List.mem_cons_of_mem _ ht)) hlater hrest
    unfold dispatchCalls
    dsimp only
    rw [exec_dispatchNextDueTrigger hkeys, exec_dispatchNextDueTrigger hkeys']
    exact ⟨List.cons_eq_cons.mpr ⟨hout.answer, hanswers⟩, htables⟩

end Histories

/-! ## A webhook event and an interval -/

section Minute

def minuteRuntime : TriggerRuntime where
  jitterHash := fun _ _ => 0
  nextCronFireAt := fun _ _ t => .ok (t / second * second + 60 * second)
  serializedLen := fun _ => 2
  sha256Hex := fun _ => "digest"

theorem three_attempts_pos : (0 : Int) < 3 := by decide

def sampleTrigger (id : String) (schedule : Schedule) : TriggerRow where
  id := id
  tenantId := "t"
  agentId := "a"
  triggeredByUserId := none
  recipeId := "r"
  enabled := true
  schedule := schedule
  scheduleTimezone := "UTC"
  misfirePolicy := .fireNow
  maxAttempts := 3
  maxAttempts_pos := three_attempts_pos
  maxInflightRuns := 1
  maxInflightRuns_pos := Int.one_pos
  jitterSeconds := 0
  inputJson := .obj []
  requestedCapabilities := .arr []
  grantedCapabilities := .arr []
  nextFireAt := 0
  createdAt := 0

def minuteDb : Db where
  triggers := [sampleTrigger "every-minute" (.interval ⟨60, by decide⟩),
    sampleTrigger "hook" .webhook]
  events := [{
    id := "e"
    triggerId := "hook"
    tenantId := "t"
    eventId := "delivery-1"
    semanticDedupeKey := none
    payloadJson := .obj []
    nextAttemptAt := 0
    createdAt := 0 }]
  runs := []
  ledger := []

theorem minuteRuntime_cronKept : CronKept minuteRuntime := by
  intro expression timezone t fireAt h
  have hvalue : t / second * second + 60 * second = fireAt := Except.ok.inj h
  unfold Microseconds
  unfold second at hvalue
  omega

/-- Two instants that are no whole seconds. -/
def minuteCalls : List Int := [second + 7000, second + 9000]

/-- The event is dispatched first and the interval trigger after it, on both back ends. -/
theorem minute_dispatched_alike :
    (dispatchCalls minuteRuntime longKeys 5 .postgres minuteCalls ⟨minuteDb, none⟩).1 =
        (dispatchCalls minuteRuntime longKeys 5 .sqlite minuteCalls ⟨minuteDb, none⟩).1 ∧
      AlikeDb
        (dispatchCalls minuteRuntime longKeys 5 .postgres minuteCalls ⟨minuteDb, none⟩).2.db
        (dispatchCalls minuteRuntime longKeys 5 .sqlite minuteCalls ⟨minuteDb, none⟩).2.db ∧
      KeptTimes
        (dispatchCalls minuteRuntime longKeys 5 .postgres minuteCalls ⟨minuteDb, none⟩).2.db :=
  dispatchers_agree minuteRuntime longKeys 5 minuteCalls minuteDb minuteDb (.refl minuteDb)
    (by decide +kernel) minuteRuntime_cronKept (by decide) ⟨by decide, by decide⟩
    ⟨⟨by decide +kernel, by decide +kernel, by decide +kernel⟩,
      ⟨by decide +kernel, by decide +kernel, by decide +kernel⟩, trivial⟩

example : (dispatchCalls minuteRuntime longKeys 5 .sqlite minuteCalls ⟨minuteDb, none⟩).1.map
    (fun r => r.toOption.map (·.map (·.triggerId))) =
      [some (some "hook"), some (some "every-minute")] := by decide +kernel

end Minute

end Trigger
end SecureAgnt

/-
The tables behind the triggers: triggers, webhook events, runs and the ledger of
trigger runs, with their unique indexes.

A transaction collects `Write`s.  `triggerStore` says what each does to the tables
and which index entries it adds.
-/
import SecureAgnt.Lib.Transaction
import SecureAgnt.Runs.Queue

namespace SecureAgnt
namespace Trigger

open Storage
open Runs (RunRow TriggerDispatchRecord)

/-! ## Rows -/

/-- `trigger_type` with the column that the table's checks demand for it. -/
inductive Schedule where
  | interval (seconds : { n : Int // 0 < n })
  | cron (expression : String)
  | webhook
  deriving DecidableEq, Repr

inductive TriggerType where
  | interval
  | cron
  | webhook
  deriving DecidableEq, Repr

def TriggerType.text : TriggerType → String
  | .interval => "interval"
  | .cron => "cron"
  | .webhook => "webhook"

def Schedule.triggerType : Schedule → TriggerType
  | .interval _ => .interval
  | .cron _ => .cron
  | .webhook => .webhook

inductive MisfirePolicy where
  | fireNow
  | skip
  deriving DecidableEq, Repr

structure TriggerRow where
  id : String
  tenantId : String
  agentId : String
  triggeredByUserId : Option String
  recipeId : String
  enabled : Bool
  schedule : Schedule
  scheduleTimezone : String
  misfirePolicy : MisfirePolicy
  maxAttempts : Int
  maxAttempts_pos : 0 < maxAttempts
  maxInflightRuns : Int
  maxInflightRuns_pos : 0 < maxInflightRuns
  jitterSeconds : Int
  consecutiveFailures : Int := 0
  deadLetteredAt : Option Int := none
  deadLetterReason : Option String := none
  webhookSecretRef : Option String := none
  inputJson : Json
  requestedCapabilities : Json
  grantedCapabilities : Json
  nextFireAt : Int
  lastFiredAt : Option Int := none
  createdAt : Int

def TriggerRow.triggerType (row : TriggerRow) : TriggerType := row.schedule.triggerType

inductive EventStatus where
  | pending
  | processed
  | deadLettered
  deriving DecidableEq, Repr

structure EventRow where
  id : String
  triggerId : String
  tenantId : String
  eventId : String
  semanticDedupeKey : Option String
  payloadJson : Json
  status : EventStatus := .pending
  attempts : Int := 0
  nextAttemptAt : Int
  lastErrorJson : Option Json := none
  createdAt : Int
  processedAt : Option Int := none
  deadLetteredAt : Option Int := none

structure RunRecord extends RunRow where
  requestedCapabilities : Json

/-- What a trigger fired for. -/
inductive Source where
  | slot (scheduledFor : Int)
  | event (eventId : String)
  | manual (idempotencyKey : String)
  deriving DecidableEq, Repr

inductive TriggerRunStatus where
  | created
  | failed
  deriving DecidableEq, Repr

/-- A row of `trigger_runs`.  `source` is not a column: it notes what the row was
written for. -/
structure TriggerRunRow where
  id : String
  triggerId : String
  runId : Option String
  scheduledFor : Int
  status : TriggerRunStatus
  dedupeKey : String
  errorJson : Option Json
  source : Source

structure Db where
  triggers : List TriggerRow
  events : List EventRow
  runs : List RunRecord
  ledger : List TriggerRunRow

namespace Db

def trigger? (db : Db) (id : String) : Option TriggerRow := Table.find (·.id) db.triggers id

def event? (db : Db) (triggerId eventId : String) : Option EventRow :=
  db.events.find? fun row => row.triggerId = triggerId && row.eventId = eventId

/-- The row under a dedupe key. -/
def triggerRun? (db : Db) (triggerId dedupeKey : String) : Option TriggerRunRow :=
  db.ledger.find? fun row => row.triggerId = triggerId && row.dedupeKey = dedupeKey

end Db

/-! ## Writes -/

/-- What the firing functions write to a trigger. -/
inductive TriggerChange where
  | fire (nextFireAt : Int)
  | touch
  | skip (nextFireAt : Int)
  | deadLetter (reason : String)

def TriggerChange.row (now : Int) (change : TriggerChange) (row : TriggerRow) : TriggerRow :=
  match change with
  | .fire nextFireAt =>
    { row with nextFireAt, lastFiredAt := some now, consecutiveFailures := 0 }
  | .touch => { row with lastFiredAt := some now, consecutiveFailures := 0 }
  | .skip nextFireAt => { row with nextFireAt }
  | .deadLetter reason =>
    { row with deadLetteredAt := some now, deadLetterReason := some reason }

def thirtySeconds : Int := 30 * 10 ^ 9

/-- What the dispatcher and the replay write to an event. -/
inductive EventChange where
  | process
  | fail (deadLetter : Bool) (eventError : Json)
  | requeue

def EventChange.row (now : Int) (change : EventChange) (row : EventRow) : EventRow :=
  match change with
  | .process =>
    { row with
      attempts := row.attempts + 1
      status := .processed
      processedAt := some now
      nextAttemptAt := now }
  | .fail deadLetter eventError =>
    { row with
      attempts := row.attempts + 1
      status := if deadLetter then .deadLettered else .pending
      nextAttemptAt := if deadLetter then now else now + thirtySeconds
      lastErrorJson := some eventError
      deadLetteredAt := if deadLetter then some now else none }
  | .requeue =>
    { row with
      status := .pending
      attempts := 0
      nextAttemptAt := now
      lastErrorJson := none
      processedAt := none
      deadLetteredAt := none }

/-- A change of a trigger by the rest of the program: its status and configuration
can change, its identity and type do not. -/
structure TriggerEdit where
  change : TriggerRow → TriggerRow
  keeps_id : ∀ row, (change row).id = row.id
  keeps_type : ∀ row, (change row).triggerType = row.triggerType

structure RunEdit where
  change : RunRecord → RunRecord
  keeps_id : ∀ row, (change row).id = row.id

inductive Write where
  | insertTrigger (row : TriggerRow)
  | insertEvent (row : EventRow)
  | insertRun (row : RunRecord)
  | insertTriggerRun (row : TriggerRunRow)
  | changeTrigger (id : String) (now : Int) (change : TriggerChange)
  | changeEvent (id : String) (now : Int) (change : EventChange)
  | editTrigger (id : String) (edit : TriggerEdit)
  | editRun (id : String) (edit : RunEdit)

/-- A change of the row with an id. -/
def changeRow {α : Type} (key : α → String) (id : String) (f : α → α) (rows : List α) : List α :=
  rows.map fun row => if key row = id then f row else row

namespace Db

def insertTrigger (row : TriggerRow) (db : Db) : Db := { db with triggers := db.triggers ++ [row] }

def insertEvent (row : EventRow) (db : Db) : Db := { db with events := db.events ++ [row] }

def insertRun (row : RunRecord) (db : Db) : Db := { db with runs := db.runs ++ [row] }

def insertTriggerRun (row : TriggerRunRow) (db : Db) : Db :=
  { db with ledger := db.ledger ++ [row] }

def changeTrigger (id : String) (f : TriggerRow → TriggerRow) (db : Db) : Db :=
  { db with triggers := changeRow (·.id) id f db.triggers }

def changeEvent (id : String) (f : EventRow → EventRow) (db : Db) : Db :=
  { db with events := changeRow (·.id) id f db.events }

def changeRun (id : String) (f : RunRecord → RunRecord) (db : Db) : Db :=
  { db with runs := changeRow (·.id) id f db.runs }

end Db

def Write.apply : Write → Db → Db
  | .insertTrigger row => Db.insertTrigger row
  | .insertEvent row => Db.insertEvent row
  | .insertRun row => Db.insertRun row
  | .insertTriggerRun row => Db.insertTriggerRun row
  | .changeTrigger id now change => Db.changeTrigger id (change.row now)
  | .changeEvent id now change => Db.changeEvent id (change.row now)
  | .editTrigger id edit => Db.changeTrigger id edit.change
  | .editRun id edit => Db.changeRun id edit.change

/-! ## Indexes and locks -/

/-- The entries of the unique indexes, the row locks, and the lock of a whole SQLite
database. -/
inductive Resource where
  | triggerKey (id : String)
  | eventKey (id : String)
  | runKey (id : String)
  | triggerRunKey (id : String)
  | eventId (triggerId eventId : String)
  | semanticKey (triggerId semanticDedupeKey : String)
  | dedupeKey (triggerId dedupeKey : String)
  | triggerRow (id : String)
  | eventRow (id : String)
  | database
  deriving DecidableEq, Repr

def EventRow.entries (row : EventRow) : List Resource :=
  [.eventKey row.id, .eventId row.triggerId row.eventId] ++
    (row.semanticDedupeKey.map (Resource.semanticKey row.triggerId)).toList

def TriggerRunRow.entries (row : TriggerRunRow) : List Resource :=
  [.triggerRunKey row.id, .dedupeKey row.triggerId row.dedupeKey]

def Db.entries (db : Db) : List Resource :=
  db.triggers.map (.triggerKey ·.id) ++ db.events.flatMap (·.entries) ++
    db.runs.map (.runKey ·.id) ++ db.ledger.flatMap (·.entries)

def Write.adds : Write → List Resource
  | .insertTrigger row => [.triggerKey row.id]
  | .insertEvent row => row.entries
  | .insertRun row => [.runKey row.id]
  | .insertTriggerRun row => row.entries
  | _ => []

/-- What a write has to hold: the entries it adds, on Postgres the row it updates and
on SQLite the database. -/
def Write.needs (b : Backend) (x : Write) : List Resource :=
  x.adds ++ match b, x with
    | .sqlite, _ => [.database]
    | .postgres, .changeTrigger id _ _ => [.triggerRow id]
    | .postgres, .editTrigger id _ => [.triggerRow id]
    | .postgres, .changeEvent id _ _ => [.eventRow id]
    | .postgres, _ => []

/-- The ledger has a row of the trigger under the key. -/
def Db.KeyTaken (db : Db) (triggerId dedupeKey : String) : Prop :=
  ∃ row ∈ db.ledger, row.triggerId = triggerId ∧ row.dedupeKey = dedupeKey

theorem dedupeKey_mem_entries {db : Db} {triggerId dedupeKey : String} :
    .dedupeKey triggerId dedupeKey ∈ db.entries ↔ db.KeyTaken triggerId dedupeKey := by
  simp only [Db.entries, List.mem_append, List.mem_map, List.mem_flatMap, Db.KeyTaken]
  constructor
  · intro h
    rcases h with ((⟨row, _, hrow⟩ | ⟨row, _, hrow⟩) | ⟨row, _, hrow⟩) | ⟨row, hmem, hrow⟩
    · cases hrow
    · cases hkey : row.semanticDedupeKey <;> simp [EventRow.entries, hkey] at hrow
    · cases hrow
    · simp only [TriggerRunRow.entries, List.mem_cons, Resource.dedupeKey.injEq, reduceCtorEq,
        false_or, List.not_mem_nil, or_false] at hrow
      exact ⟨row, hmem, hrow.1.symm, hrow.2.symm⟩
  · intro h
    obtain ⟨row, hmem, rfl, rfl⟩ := h
    exact .inr ⟨row, hmem, List.mem_cons_of_mem _ List.mem_cons_self⟩

theorem keyTaken_insertTriggerRun {db : Db} {row : TriggerRunRow} {triggerId dedupeKey : String} :
    (db.insertTriggerRun row).KeyTaken triggerId dedupeKey ↔
      db.KeyTaken triggerId dedupeKey ∨ row.triggerId = triggerId ∧ row.dedupeKey = dedupeKey := by
  simp only [Db.KeyTaken, Db.insertTriggerRun, List.mem_append, List.mem_singleton, or_and_right,
    exists_or, exists_eq_left]

section Keys

variable {db : Db}

theorem nodup_triggers (h : db.entries.Nodup) : (db.triggers.map (·.id)).Nodup := by
  have htriggers : (db.triggers.map fun row => Resource.triggerKey row.id).Nodup :=
    (List.nodup_append.mp (List.nodup_append.mp (List.nodup_append.mp h).1).1).1
  refine List.Nodup.of_map Resource.triggerKey ?_
  rw [List.map_map]
  exact htriggers

theorem nodup_eventEntries (h : db.entries.Nodup) : (db.events.flatMap (·.entries)).Nodup :=
  (List.nodup_append.mp (List.nodup_append.mp (List.nodup_append.mp h).1).1).2.1

theorem nodup_events (h : db.entries.Nodup) : (db.events.map (·.id)).Nodup := by
  have hevents : (db.events.map fun row => Resource.eventKey row.id).Nodup :=
    Table.nodup_entry (fun _ => .cons_cons _ (List.nil_sublist _)) (nodup_eventEntries h)
  refine List.Nodup.of_map Resource.eventKey ?_
  rw [List.map_map]
  exact hevents

theorem nodup_eventIds (h : db.entries.Nodup) :
    (db.events.map fun row => (row.triggerId, row.eventId)).Nodup := by
  have hevents : (db.events.map fun row => Resource.eventId row.triggerId row.eventId).Nodup :=
    Table.nodup_entry (fun _ => .cons _ (.cons_cons _ (List.nil_sublist _))) (nodup_eventEntries h)
  refine List.Nodup.of_map (fun key => Resource.eventId key.1 key.2) ?_
  rw [List.map_map]
  exact hevents

theorem nodup_dedupeKeys (h : db.entries.Nodup) :
    (db.ledger.map fun row => (row.triggerId, row.dedupeKey)).Nodup := by
  have hledger : (db.ledger.map fun row => Resource.dedupeKey row.triggerId row.dedupeKey).Nodup :=
    Table.nodup_entry (fun _ => .cons _ (.cons_cons _ (List.nil_sublist _)))
      (List.nodup_append.mp h).2.1
  refine List.Nodup.of_map (fun key => Resource.dedupeKey key.1 key.2) ?_
  rw [List.map_map]
  exact hledger

end Keys

theorem map_changeRow {α β : Type} {key : α → String} {id : String} {f : α → α} {g : α → β}
    (h : ∀ row, g (f row) = g row) (rows : List α) :
    (changeRow key id f rows).map g = rows.map g := by
  rw [changeRow, List.map_map]
  apply List.map_congr_left
  intro row _
  show g (if key row = id then f row else row) = g row
  split
  · exact h row
  · rfl

theorem mem_changeRow_other {α : Type} {key : α → String} {id : String} {f : α → α} {rows : List α}
    {row : α} (hrow : row ∈ rows) (hne : key row ≠ id) : row ∈ changeRow key id f rows :=
  List.mem_map.mpr ⟨row, hrow, if_neg hne⟩

theorem mem_changeRow_same {α : Type} {key : α → String} {id : String} {f : α → α} {rows : List α}
    {row : α} (hrow : row ∈ rows) (hid : key row = id) : f row ∈ changeRow key id f rows :=
  List.mem_map.mpr ⟨row, hrow, if_pos hid⟩

theorem TriggerChange.row_id (now : Int) (change : TriggerChange) (row : TriggerRow) :
    (change.row now row).id = row.id := by
  cases change <;> rfl

theorem TriggerChange.row_triggerType (now : Int) (change : TriggerChange) (row : TriggerRow) :
    (change.row now row).triggerType = row.triggerType := by
  cases change <;> rfl

theorem EventChange.row_entries (now : Int) (change : EventChange) (row : EventRow) :
    (change.row now row).entries = row.entries := by
  cases change <;> rfl

theorem entries_changeEvent (id : String) (now : Int) (change : EventChange)
    (rows : List EventRow) :
    (changeRow (·.id) id (change.row now) rows).flatMap (·.entries) = rows.flatMap (·.entries) := by
  rw [List.flatMap_def, List.flatMap_def, map_changeRow (change.row_entries now)]

/-- An update leaves the indexes alone, an insert adds its entries. -/
theorem entries_apply (x : Write) (db : Db) :
    (x.apply db).entries.Perm (db.entries ++ x.adds) := by
  rw [List.perm_iff_count]
  intro r
  cases x with
  | insertTrigger row =>
    simp only [Write.apply, Db.insertTrigger, Db.entries, Write.adds, List.map_append,
      List.map_singleton, List.count_append]
    omega
  | insertEvent row =>
    simp only [Write.apply, Db.insertEvent, Db.entries, Write.adds, List.flatMap_append,
      List.flatMap_singleton, List.count_append]
    omega
  | insertRun row =>
    simp only [Write.apply, Db.insertRun, Db.entries, Write.adds, List.map_append,
      List.map_singleton, List.count_append]
    omega
  | insertTriggerRun row =>
    simp only [Write.apply, Db.insertTriggerRun, Db.entries, Write.adds, List.flatMap_append,
      List.flatMap_singleton, List.count_append]
    omega
  | changeTrigger id now change =>
    simp only [Write.apply, Db.changeTrigger, Db.entries, Write.adds, List.append_nil]
    rw [map_changeRow fun row => by rw [change.row_id now row]]
  | changeEvent id now change =>
    simp only [Write.apply, Db.changeEvent, Db.entries, Write.adds, List.append_nil]
    rw [entries_changeEvent]
  | editTrigger id edit =>
    simp only [Write.apply, Db.changeTrigger, Db.entries, Write.adds, List.append_nil]
    rw [map_changeRow fun row => by rw [edit.keeps_id row]]
  | editRun id edit =>
    simp only [Write.apply, Db.changeRun, Db.entries, Write.adds, List.append_nil]
    rw [map_changeRow fun row => by rw [edit.keeps_id row]]

def triggerStore : TxStore Db Write Resource where
  apply := Write.apply
  entries := Db.entries
  adds := Write.adds
  entries_apply := entries_apply

theorem mem_entries_run {writes : List Write} {db : Db} {r : Resource} :
    r ∈ (triggerStore.run writes db).entries ↔ r ∈ db.entries ∨ r ∈ triggerStore.added writes := by
  rw [← List.mem_append]
  exact (triggerStore.entries_run writes db).mem_iff

theorem Write.adds_nodup (x : Write) : x.adds.Nodup := by
  cases x with
  | insertEvent row => cases h : row.semanticDedupeKey <;> simp [Write.adds, EventRow.entries, h]
  | insertTrigger row => simp [Write.adds]
  | insertRun row => simp [Write.adds]
  | insertTriggerRun row => simp [Write.adds, TriggerRunRow.entries]
  | changeTrigger id now change => simp [Write.adds]
  | changeEvent id now change => simp [Write.adds]
  | editTrigger id edit => simp [Write.adds]
  | editRun id edit => simp [Write.adds]

end Trigger
end SecureAgnt

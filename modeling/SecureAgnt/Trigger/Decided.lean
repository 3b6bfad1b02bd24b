/-
What each dispatcher decides at one instant.

Nothing else runs, so a dispatch is a function of the tables, the instant and the new
identifiers.  `dispatchOutcome` computes it from the first due rows, and
`exec_dispatchNextDueTrigger` says that the dispatcher of either back end ends so.
-/
import Mathlib.Algebra.Order.Group.Nat
import SecureAgnt.Trigger.Instant
import SecureAgnt.Trigger.Stage

namespace SecureAgnt
namespace Trigger

open Storage
open Handler
open Runs (TriggerDispatchRecord)

/-! ## New identifiers -/

/-- Identifiers that depend on the keys in use and on nothing else. -/
structure KeySource where
  next : List Resource → String
  unused : ∀ taken, Resource.eventKey (next taken) ∉ taken ∧
    Resource.runKey (next taken) ∉ taken ∧ Resource.triggerRunKey (next taken) ∉ taken

/-- A text longer than the ids in use. -/
def Resource.width : Resource → Nat
  | .eventKey id | .runKey id | .triggerRunKey id => id.toList.length
  | _ => 0

/-- A text of one letter that is longer than all of them is new. -/
theorem unused_replicate (c : Char) (taken : List Resource) :
    let id := String.ofList (List.replicate ((taken.map Resource.width).sum + 1) c)
    Resource.eventKey id ∉ taken ∧ Resource.runKey id ∉ taken ∧ Resource.triggerRunKey id ∉ taken := by
  have hlong : ∀ r ∈ taken, r.width < (String.ofList (List.replicate
      ((taken.map Resource.width).sum + 1) c)).toList.length := by
    intro r hr
    have hle : r.width ≤ (taken.map Resource.width).sum :=
      List.le_sum_of_mem (List.mem_map_of_mem hr)
    rw [String.toList_ofList, List.length_replicate]
    omega
  exact ⟨fun h => absurd (hlong _ h) (Nat.lt_irrefl _),
    fun h => absurd (hlong _ h) (Nat.lt_irrefl _), fun h => absurd (hlong _ h) (Nat.lt_irrefl _)⟩

def longKeys : KeySource where
  next taken := String.ofList (List.replicate ((taken.map Resource.width).sum + 1) 'k')
  unused := unused_replicate 'k'

def KeySource.ids (keys : KeySource) : IdSource where
  next db := keys.next db.entries
  unused db := keys.unused db.entries

instance (db : Db) (triggerId dedupeKey : String) : Decidable (db.KeyTaken triggerId dedupeKey) :=
  inferInstanceAs (Decidable (∃ row ∈ db.ledger, _ ∧ _))

/-! ## Outcomes -/

/-- How a dispatch is answered, and the tables after it. -/
abbrev DispatchOutcome := Except DbError (Option TriggerDispatchRecord) × Db

/-- What is tried when nothing was dispatched. -/
def DispatchOutcome.orTry (next : Db → DispatchOutcome) : DispatchOutcome → DispatchOutcome
  | (.ok none, db) => next db
  | out => out

def keyClash (triggerId dedupeKey : String) : Except DbError (Option TriggerDispatchRecord) :=
  .error (.uniqueViolation (.dedupeKey triggerId dedupeKey))

/-- SQLite adds the trace to the input of a slot's run, Postgres does not. -/
def slotInput (b : Backend) (trigger : TriggerRow) (runId : String) : Json :=
  match b with
  | .postgres => trigger.inputJson
  | .sqlite => injectTraceId trigger.inputJson runId

section Outcomes

variable (rt : TriggerRuntime) (b : Backend) (now : Int) (keys : KeySource) (tenantMax : Int)

def slotRun (runId : String) (trigger : TriggerRow) : RunRecord :=
  { newRun trigger runId (slotInput b trigger runId) with createdAt := b.currentTimestamp now }

def eventRun (runId : String) (event : EventRow) (trigger : TriggerRow) : RunRecord :=
  { newRun trigger runId (eventRunInput event trigger runId) with
    createdAt := b.currentTimestamp now }

/-- The tables with the run of a slot. -/
def SlotPlan.entered (run : RunRecord) (db : Db) : SlotPlan → Db
  | .fire _ => db.insertRun run
  | _ => db

def SlotPlan.outcome (trigger : TriggerRow) (db : Db) (plan : SlotPlan) : DispatchOutcome :=
  let run := slotRun b now (keys.next db.entries) trigger
  if db.KeyTaken trigger.id (slotKey trigger.nextFireAt) then
    (keyClash trigger.id (slotKey trigger.nextFireAt), db)
  else
    (.ok (plan.record trigger run.id), plan.publish b trigger run
      (keys.next (plan.entered run db).entries) (b.currentTimestamp now) db)

def slotOutcome (type : TriggerType) (db : Db) : DispatchOutcome :=
  match (dueTriggers b (b.currentTimestamp now) db type (max tenantMax 1)).head? with
  | none => (.ok none, db)
  | some trigger =>
    match trigger.plan rt now with
    | none => (.error (.decode "trigger_type"), db)
    | some plan => plan.outcome b now keys trigger db

/-- An attempt whose payload is too large. -/
def failedOutcome (event : EventRow) (trigger : TriggerRow) (db : Db) : DispatchOutcome :=
  (.ok none, (db.insertTriggerRun (failedRow b (keys.next db.entries) trigger.id now
    (.event event.eventId) eventPayloadTooLarge)).changeEvent event.id
      (EventChange.row (b.currentTimestamp now)
        (.fail (decide (event.attempts + 1 ≥ trigger.maxAttempts)) eventPayloadTooLarge)))

def firedOutcome (event : EventRow) (trigger : TriggerRow) (db : Db) : DispatchOutcome :=
  let run := eventRun b now (keys.next db.entries) event trigger
  (.ok (some (dispatchRecord trigger "webhook" (some event.eventId) run.id now now)),
    (((db.insertRun run).insertTriggerRun (createdRow b (keys.next (db.insertRun run).entries)
      trigger.id run.id now (.event event.eventId))).changeEvent event.id
        (EventChange.row (b.currentTimestamp now) .process)).changeTrigger trigger.id
          (TriggerChange.row (b.currentTimestamp now) .touch))

def attemptOutcome (event : EventRow) (trigger : TriggerRow) (db : Db) : DispatchOutcome :=
  if db.KeyTaken trigger.id event.eventId then (keyClash trigger.id event.eventId, db)
  else if rt.tooLarge event.payloadJson then failedOutcome b now keys event trigger db
  else firedOutcome b now keys event trigger db

def eventOutcome (db : Db) : DispatchOutcome :=
  match (dueEvents b (b.currentTimestamp now) db (max tenantMax 1)).head? with
  | none => (.ok none, db)
  | some (event, trigger) => attemptOutcome rt b now keys event trigger db

def timerOutcome (db : Db) : DispatchOutcome :=
  (slotOutcome rt b now keys tenantMax .cron db).orTry
    (slotOutcome rt b now keys tenantMax .interval)

def dispatchOutcome (db : Db) : DispatchOutcome :=
  (eventOutcome rt b now keys tenantMax db).orTry (timerOutcome rt b now keys tenantMax)

end Outcomes

/-! ## Transactions at an instant -/

/-- From these writes the rest of a transaction ends so, and leaves no transaction open. -/
def Closes (b : Backend) (now : Int) (ids : IdSource) (db : Db) (writes : List Write)
    {α : Type} (p : TriggerProg α) (out : Except DbError α × Db) : Prop :=
  closeTx (p.exec (answer b now ids) ⟨db, some writes⟩) = (out.1, ⟨out.2, none⟩)

section Rules

variable {b : Backend} {now : Int} {ids : IdSource} {db : Db} {writes writes' : List Write}
  {α : Type} {out : Except DbError α × Db}

theorem exec_of_closes {body : TriggerProg α} (h : Closes b now ids db [] body out) :
    (inTransaction body).exec (answer b now ids) ⟨db, none⟩ = (out.1, ⟨out.2, none⟩) :=
  (exec_inTransaction body).trans h

theorem closes_commit (value : α) :
    Closes b now ids db writes (commit value) (.ok value, triggerStore.run writes db) := rfl

theorem closes_nowUtc {k : Int → TriggerProg α} (h : Closes b now ids db writes (k now) out) :
    Closes b now ids db writes (nowUtc >>= k) out := h

theorem closes_newUuid {k : String → TriggerProg α}
    (h : Closes b now ids db writes (k (ids.next (triggerStore.run writes db))) out) :
    Closes b now ids db writes (newUuid >>= k) out := h

theorem closes_sql {query : Query} {k : query.Result → TriggerProg α} {a : query.Result}
    (hanswer : answerQuery b now ⟨db, some writes⟩ query = (.ok a, ⟨db, some writes'⟩))
    (h : Closes b now ids db writes' (k a) out) :
    Closes b now ids db writes (sql query >>= k) out := by
  unfold Closes
  rw [Prog.exec_bind, exec_sql, hanswer, Prog.thenExec_ok]
  exact h

theorem closes_insertRun {row : RunRecord} {k : Unit → TriggerProg α}
    (hid : .runKey row.id ∉ (triggerStore.run writes db).entries)
    (h : Closes b now ids db
      (writes ++ [.insertRun { row with createdAt := b.currentTimestamp now }]) (k ()) out) :
    Closes b now ids db writes (sql (.insertRun row) >>= k) out := by
  refine closes_sql (write_free fun r hr => ?_) h
  rw [List.mem_singleton.mp hr]
  exact hid

theorem closes_updateTrigger {triggerId : String} {change : TriggerChange}
    {k : Unit → TriggerProg α}
    (h : Closes b now ids db
      (writes ++ [.changeTrigger triggerId (b.currentTimestamp now) change]) (k ()) out) :
    Closes b now ids db writes (sql (.updateTrigger triggerId change) >>= k) out := by
  have hwrite := @write_free db writes (.changeTrigger triggerId (b.currentTimestamp now) change)
    fun r hr => absurd hr List.not_mem_nil
  exact closes_sql hwrite h

theorem closes_updateEvent {eventRowId : String} {change : EventChange} {k : Unit → TriggerProg α}
    (h : Closes b now ids db
      (writes ++ [.changeEvent eventRowId (b.currentTimestamp now) change]) (k ()) out) :
    Closes b now ids db writes (sql (.updateEvent eventRowId change) >>= k) out := by
  have hwrite := @write_free db writes (.changeEvent eventRowId (b.currentTimestamp now) change)
    fun r hr => absurd hr List.not_mem_nil
  exact closes_sql hwrite h

/-- A write of nothing but an update, made where it is possible. -/
theorem writeIf_update {possible : Bool} {x : Write} (hpossible : possible = true)
    (hadds : x.adds = []) :
    Moment.writeIf ⟨db, some writes⟩ possible x = (.ok true, ⟨db, some (writes ++ [x])⟩) := by
  have hwrite : Moment.write ⟨db, some writes⟩ x = (.ok (), ⟨db, some (writes ++ [x])⟩) := by
    refine write_free fun r hr => ?_
    rw [hadds] at hr
    exact absurd hr List.not_mem_nil
  unfold Moment.writeIf
  rw [if_pos hpossible, hwrite]
  rfl

theorem write_taken {x : Write} {taken : Resource}
    (h : x.adds.find? (fun r => r ∈ (triggerStore.run writes db).entries) = some taken) :
    Moment.write ⟨db, some writes⟩ x = (.error (.uniqueViolation taken), ⟨db, some writes⟩) := by
  unfold Moment.write
  split
  · next hclosed => exact absurd hclosed (by simp)
  · next held hheld =>
    have hview : (Moment.view ⟨db, some writes⟩).entries = (triggerStore.run writes db).entries := rfl
    rw [hview, h]

theorem answer_reserveEvent {m : Moment} {selects : EventRow → Bool} {change : EventChange}
    {row : EventRow} (h : m.view.events.find? selects = some row) :
    answerQuery b now m (.reserveEvent selects change) =
      m.writeIf true (.changeEvent row.id (b.currentTimestamp now) change) := by
  simp only [answerQuery, h]

/-- SQLite moves on a trigger that is still as it was read. -/
theorem closes_reserveTrigger {trigger row : TriggerRow} {change : TriggerChange}
    {k : Bool → TriggerProg α} (hrow : (triggerStore.run writes db).trigger? trigger.id = some row)
    (henabled : row.enabled = true) (halive : row.deadLetteredAt = none)
    (hslot : row.nextFireAt = trigger.nextFireAt)
    (h : Closes b now ids db
      (writes ++ [.changeTrigger trigger.id (b.currentTimestamp now) change]) (k true) out) :
    Closes b now ids db writes
      (sql (.reserveTrigger trigger.id trigger.nextFireAt change) >>= k) out := by
  refine closes_sql (writeIf_update ?_ rfl) h
  show ((triggerStore.run writes db).trigger? trigger.id).any _ = true
  rw [hrow]
  simp [henabled, halive, hslot]

theorem closes_advanceTrigger {trigger row : TriggerRow} {change : TriggerChange}
    {k : Bool → TriggerProg α} (hrow : (triggerStore.run writes db).trigger? trigger.id = some row)
    (henabled : row.enabled = true) (halive : row.deadLetteredAt = none)
    (hslot : row.nextFireAt = trigger.nextFireAt)
    (h : Closes b now ids db
      (writes ++ [.changeTrigger trigger.id (b.currentTimestamp now) change]) (k true) out) :
    Closes b now ids db writes (advanceTrigger b trigger change >>= k) out := by
  cases b with
  | postgres =>
    unfold advanceTrigger
    rw [Prog.bind_assoc]
    exact closes_updateTrigger h
  | sqlite => exact closes_reserveTrigger hrow henabled halive hslot h

theorem closes_advanceEvent {event : EventRow} {change : EventChange} {k : Bool → TriggerProg α}
    (hkeys : db.entries.Nodup) (hevent : event ∈ db.events) (hpending : event.status = .pending)
    (h : Closes b now ids db [.changeEvent event.id (b.currentTimestamp now) change] (k true)
      out) :
    Closes b now ids db [] (advanceEvent b event change >>= k) out := by
  cases b with
  | postgres =>
    unfold advanceEvent
    rw [Prog.bind_assoc]
    exact closes_updateEvent h
  | sqlite =>
    have hfind : db.events.find? (fun row => row.id = event.id && row.status = .pending) =
        some event := by
      cases hrow : db.events.find? (fun row => row.id = event.id && row.status = .pending) with
      | none =>
        have htest := List.find?_eq_none.mp hrow event hevent
        simp [hpending] at htest
      | some row =>
        have htest := List.find?_some hrow
        simp only [Bool.and_eq_true, decide_eq_true_eq] at htest
        have hsame := List.inj_on_of_nodup_map (nodup_events hkeys)
          (List.mem_of_find?_eq_some hrow) hevent htest.1
        rw [hsame]
    exact closes_sql ((answer_reserveEvent (m := ⟨db, some []⟩) hfind).trans
      (writeIf_update rfl rfl)) h

/-- The last row of a transaction goes in where its key is free. -/
theorem closes_enter {row : String → TriggerRunRow} {triggerId dedupeKey : String}
    (hid : ∀ rowId, (row rowId).id = rowId) (htrigger : ∀ rowId, (row rowId).triggerId = triggerId)
    (hkey : ∀ rowId, (row rowId).dedupeKey = dedupeKey) (value : α) :
    Closes b now ids db writes (do
      let rowId ← newUuid
      sql (.insertTriggerRun (row rowId))
      commit value)
      (if (triggerStore.run writes db).KeyTaken triggerId dedupeKey then
        (.error (.uniqueViolation (.dedupeKey triggerId dedupeKey)), db)
      else (.ok value, (triggerStore.run writes db).insertTriggerRun
        (row (ids.next (triggerStore.run writes db))))) := by
  refine closes_newUuid ?_
  generalize hrow : row (ids.next (triggerStore.run writes db)) = entry
  have hnew : .triggerRunKey entry.id ∉ (triggerStore.run writes db).entries := by
    rw [← hrow, hid]
    exact (ids.unused _).2.2
  have hentry : Resource.dedupeKey entry.triggerId entry.dedupeKey =
      .dedupeKey triggerId dedupeKey := by
    rw [← hrow, htrigger, hkey]
  by_cases htaken : (triggerStore.run writes db).KeyTaken triggerId dedupeKey
  · rw [if_pos htaken]
    have hfind : (Write.insertTriggerRun entry).adds.find?
        (fun r => r ∈ (triggerStore.run writes db).entries) =
          some (.dedupeKey triggerId dedupeKey) := by
      have hmem := dedupeKey_mem_entries.mpr htaken
      simp [Write.adds, TriggerRunRow.entries, hnew, hentry, hmem]
    have hclash : answerQuery b now ⟨db, some writes⟩ (.insertTriggerRun entry) =
        (.error (.uniqueViolation (.dedupeKey triggerId dedupeKey)), ⟨db, some writes⟩) := by
      exact write_taken hfind
    unfold Closes
    rw [Prog.exec_bind, exec_sql, hclash]
    rfl
  · rw [if_neg htaken]
    have hfree : answerQuery b now ⟨db, some writes⟩ (.insertTriggerRun entry) =
        (.ok (), ⟨db, some (writes ++ [.insertTriggerRun entry])⟩) := by
      refine write_free fun r hr => ?_
      rcases List.mem_cons.mp hr with rfl | hr
      · exact hnew
      · rw [List.mem_singleton.mp hr, hentry, dedupeKey_mem_entries]
        exact htaken
    have hrun := triggerStore.run_append writes (.insertTriggerRun entry) db
    refine closes_sql hfree ?_
    unfold Closes
    rw [exec_commit, hrun]
    rfl

theorem closes_insertFailed {triggerId : String} {scheduledFor : Int} {source : Source}
    {error : Json} (value : α) :
    Closes b now ids db writes (do
      insertFailed b triggerId scheduledFor source error
      commit value)
      (if (triggerStore.run writes db).KeyTaken triggerId (source.dedupeKey b) then
        (.error (.uniqueViolation (.dedupeKey triggerId (source.dedupeKey b))), db)
      else (.ok value, (triggerStore.run writes db).insertTriggerRun (failedRow b
        (ids.next (triggerStore.run writes db)) triggerId scheduledFor source error))) := by
  rw [insertFailed, Prog.bind_assoc]
  exact @closes_enter b now ids db writes α
    (fun rowId => failedRow b rowId triggerId scheduledFor source error) triggerId
    (source.dedupeKey b) (fun _ => rfl) (fun _ => rfl) (fun _ => rfl) value

theorem closes_insertCreated {triggerId runId : String} {scheduledFor : Int} {source : Source}
    (value : α) :
    Closes b now ids db writes (do
      insertCreated b triggerId runId scheduledFor source
      commit value)
      (if (triggerStore.run writes db).KeyTaken triggerId (source.dedupeKey b) then
        (.error (.uniqueViolation (.dedupeKey triggerId (source.dedupeKey b))), db)
      else (.ok value, (triggerStore.run writes db).insertTriggerRun (createdRow b
        (ids.next (triggerStore.run writes db)) triggerId runId scheduledFor source))) := by
  rw [insertCreated, Prog.bind_assoc]
  exact @closes_enter b now ids db writes α
    (fun rowId => createdRow b rowId triggerId runId scheduledFor source) triggerId
    (source.dedupeKey b) (fun _ => rfl) (fun _ => rfl) (fun _ => rfl) value

end Rules

/-! ## The dispatchers -/

theorem entries_changeTrigger (db : Db) (id : String) (stamp : Int) (change : TriggerChange) :
    (db.changeTrigger id (change.row stamp)).entries = db.entries := by
  simp only [Db.changeTrigger, Db.entries]
  rw [map_changeRow fun row => by rw [change.row_id stamp row]]

theorem entries_changedEvent (db : Db) (id : String) (stamp : Int) (change : EventChange) :
    (db.changeEvent id (change.row stamp)).entries = db.entries := by
  simp only [Db.changeEvent, Db.entries]
  rw [entries_changeEvent]

section Dispatchers

variable {rt : TriggerRuntime} {b : Backend} {now : Int} {keys : KeySource} {tenantMax : Int}
  {db : Db} {type : TriggerType} {trigger : TriggerRow} {event : EventRow}

theorem closes_failSlot (change : TriggerChange) (error : Json) (hkeys : db.entries.Nodup)
    (hfirst : (dueTriggers b (b.currentTimestamp now) db type (max tenantMax 1)).head? =
      some trigger) :
    Closes b now keys.ids db [] (failSlot b trigger change error)
      (if db.KeyTaken trigger.id (slotKey trigger.nextFireAt) then
        (keyClash trigger.id (slotKey trigger.nextFireAt), db)
      else (.ok none, (db.insertTriggerRun (failedRow b (keys.next db.entries) trigger.id
        trigger.nextFireAt (.slot trigger.nextFireAt) error)).changeTrigger trigger.id
          (change.row (b.currentTimestamp now)))) := by
  obtain ⟨row, hrow, henabled, halive, hslot⟩ := reservable hkeys hfirst
  unfold failSlot
  refine closes_advanceTrigger hrow henabled halive hslot ?_
  rw [if_pos rfl, ← entries_changeTrigger db trigger.id (b.currentTimestamp now) change]
  exact closes_insertFailed none

theorem closes_fireSlot (nextFireAt : Int) (hkeys : db.entries.Nodup)
    (hfirst : (dueTriggers b (b.currentTimestamp now) db type (max tenantMax 1)).head? =
      some trigger) :
    Closes b now keys.ids db [] (fireSlot b trigger type nextFireAt)
      ((SlotPlan.fire nextFireAt).outcome b now keys trigger db) := by
  obtain ⟨row, hrow, henabled, halive, hslot⟩ := reservable hkeys hfirst
  obtain ⟨_, _, rfl, _⟩ := mem_dueTriggers.mp (List.mem_of_head? hfirst)
  have hnew := (keys.unused db.entries).2.1
  have hentered := entries_changeTrigger
    (db.insertRun (slotRun b now (keys.next db.entries) trigger)) trigger.id
    (b.currentTimestamp now) (.fire nextFireAt)
  unfold SlotPlan.outcome SlotPlan.entered
  dsimp only
  cases b with
  | postgres =>
    refine closes_newUuid (closes_insertRun hnew (closes_updateTrigger ?_))
    rw [← hentered]
    exact closes_insertCreated _
  | sqlite =>
    refine closes_newUuid (closes_reserveTrigger hrow henabled halive hslot ?_)
    rw [if_pos rfl]
    refine closes_insertRun ?_ ?_
    · show Resource.runKey _ ∉ (db.changeTrigger trigger.id _).entries
      rw [entries_changeTrigger]
      exact hnew
    · rw [← hentered]
      exact closes_insertCreated _

/-- The first due trigger is dealt with as planned, unless the key of its slot is taken. -/
theorem closes_execute (plan : SlotPlan) (hkeys : db.entries.Nodup)
    (hfirst : (dueTriggers b (b.currentTimestamp now) db type (max tenantMax 1)).head? =
      some trigger) :
    Closes b now keys.ids db [] (plan.execute b type trigger)
      (plan.outcome b now keys trigger db) := by
  cases plan with
  | fire nextFireAt => exact closes_fireSlot nextFireAt hkeys hfirst
  | skip nextFireAt => exact closes_failSlot _ _ hkeys hfirst
  | deadLetter message => exact closes_failSlot _ _ hkeys hfirst

theorem exec_dispatchNextDueScheduled (hkeys : db.entries.Nodup) (htype : type ≠ .webhook) :
    (dispatchNextDueScheduled rt b type tenantMax).exec (answer b now keys.ids) ⟨db, none⟩ =
      ((slotOutcome rt b now keys tenantMax type db).1,
        ⟨(slotOutcome rt b now keys tenantMax type db).2, none⟩) := by
  refine exec_of_closes (closes_sql rfl ?_)
  rw [show (⟨db, some []⟩ : Moment).view = db from rfl]
  unfold slotOutcome
  cases hfirst : (dueTriggers b (b.currentTimestamp now) db type (max tenantMax 1)).head? with
  | none => exact closes_commit none
  | some trigger =>
    dsimp only
    obtain ⟨_, _, hrow, _⟩ := mem_dueTriggers.mp (List.mem_of_head? hfirst)
    unfold TriggerRow.triggerType at hrow
    unfold TriggerRow.plan SlotColumns.plan
    rw [show trigger.slotColumns.schedule = trigger.schedule from rfl]
    cases hschedule : trigger.schedule with
    | interval seconds =>
      rw [hschedule] at hrow
      obtain rfl : TriggerType.interval = type := hrow
      rw [fireScheduled_interval b hschedule]
      exact closes_nowUtc (closes_execute _ hkeys hfirst)
    | cron expression =>
      rw [hschedule] at hrow
      obtain rfl : TriggerType.cron = type := hrow
      rw [fireScheduled_cron b hschedule]
      exact closes_execute _ hkeys hfirst
    | webhook =>
      rw [hschedule] at hrow
      exact absurd hrow.symm htype

theorem closes_failEvent (hkeys : db.entries.Nodup) (hevent : event ∈ db.events)
    (hpending : event.status = .pending) :
    Closes b now keys.ids db [] (failEvent b event trigger now)
      (if db.KeyTaken trigger.id event.eventId then (keyClash trigger.id event.eventId, db)
      else failedOutcome b now keys event trigger db) := by
  unfold failEvent
  refine closes_advanceEvent hkeys hevent hpending ?_
  rw [if_pos rfl, failedOutcome,
    ← entries_changedEvent db event.id (b.currentTimestamp now)
      (.fail (decide (event.attempts + 1 ≥ trigger.maxAttempts)) eventPayloadTooLarge)]
  exact closes_insertFailed none

theorem closes_fireEvent (hkeys : db.entries.Nodup) (hevent : event ∈ db.events)
    (hpending : event.status = .pending) :
    Closes b now keys.ids db [] (fireEvent b event trigger now)
      (if db.KeyTaken trigger.id event.eventId then (keyClash trigger.id event.eventId, db)
      else firedOutcome b now keys event trigger db) := by
  have hnew := (keys.unused db.entries).2.1
  have hentered := (entries_changeTrigger ((db.insertRun (eventRun b now (keys.next db.entries)
    event trigger)).changeEvent event.id (EventChange.row (b.currentTimestamp now) .process))
    trigger.id (b.currentTimestamp now) .touch).trans (entries_changedEvent _ _ _ _)
  unfold firedOutcome
  dsimp only
  cases b with
  | postgres =>
    refine closes_newUuid (closes_insertRun hnew (closes_updateEvent
      (closes_updateTrigger ?_)))
    rw [← hentered]
    exact closes_insertCreated _
  | sqlite =>
    refine closes_advanceEvent hkeys hevent hpending ?_
    rw [if_pos rfl]
    refine closes_newUuid (closes_insertRun ?_ (closes_updateTrigger ?_))
    · exact (keys.unused _).2.1
    · rw [← hentered, ← entries_changedEvent db event.id (Backend.sqlite.currentTimestamp now)
        .process]
      exact closes_insertCreated _

theorem exec_dispatchNextDueWebhookEvent (hkeys : db.entries.Nodup) :
    (dispatchNextDueWebhookEvent rt b tenantMax).exec (answer b now keys.ids) ⟨db, none⟩ =
      ((eventOutcome rt b now keys tenantMax db).1,
        ⟨(eventOutcome rt b now keys tenantMax db).2, none⟩) := by
  refine exec_of_closes (closes_sql rfl ?_)
  rw [show (⟨db, some []⟩ : Moment).view = db from rfl]
  unfold eventOutcome
  cases hfirst : (dueEvents b (b.currentTimestamp now) db (max tenantMax 1)).head? with
  | none => exact closes_commit none
  | some row =>
    obtain ⟨event, trigger⟩ := row
    obtain ⟨hevent, _, hdue⟩ := mem_dueEvents.mp (List.mem_of_head? hfirst)
    simp only [isDueEvent, Bool.and_eq_true, decide_eq_true_eq] at hdue
    unfold dispatchEvent attemptOutcome
    refine closes_nowUtc ?_
    by_cases hlarge : rt.tooLarge event.payloadJson = true
    · simp only [if_pos hlarge]
      exact closes_failEvent hkeys hevent hdue.1.1.1
    · simp only [if_neg hlarge]
      exact closes_fireEvent hkeys hevent hdue.1.1.1

/-- A program that ends at rest leaves the indexes in order. -/
theorem nodup_exec {α : Type} {p : TriggerProg α} {Q : Db → Except DbError α → Prop}
    (hkeys : db.entries.Nodup) (h : AtRest b 0 db now p Q) :
    (p.exec (answer b now keys.ids) ⟨db, none⟩).2.db.entries.Nodup := by
  let w : TriggerWorld := ⟨now, fun _ => now, ⟨db, fun _ => none⟩⟩
  have hrest : Resting db now w := ⟨⟨rfl, fun _ => rfl, Int.le_refl now⟩, hkeys⟩
  have hstands : Moment.StandsFor 0 now ⟨db, none⟩ w := ⟨rfl, rfl, fun _ _ => rfl, rfl, rfl⟩
  obtain ⟨w', hfinish, hstands'⟩ := finishes_instant (b := b) keys.ids hstands p
  obtain ⟨db', hrest', -⟩ := wp_of_finishes (h.run w hrest) hfinish
  rw [← hstands'.db]
  exact hrest'.keys

theorem nodup_eventOutcome (hkeys : db.entries.Nodup) :
    (eventOutcome rt b now keys tenantMax db).2.entries.Nodup := by
  have h := @nodup_exec b now keys db _ _ _ hkeys
    (@atRest_dispatchNextDueWebhookEvent rt b 0 db now tenantMax)
  rw [exec_dispatchNextDueWebhookEvent hkeys] at h
  exact h

theorem nodup_slotOutcome (hkeys : db.entries.Nodup) (htype : type ≠ .webhook) :
    (slotOutcome rt b now keys tenantMax type db).2.entries.Nodup := by
  have h := @nodup_exec b now keys db _ _ _ hkeys
    (@atRest_plan rt b 0 db now type htype tenantMax)
  rw [exec_dispatchNextDueScheduled hkeys htype] at h
  exact h

/-- The next dispatcher has its turn where nothing was dispatched. -/
theorem exec_orTry {first second : TriggerProg (Option TriggerDispatchRecord)}
    {out : DispatchOutcome} {next : Db → DispatchOutcome}
    (hfirst : first.exec (answer b now keys.ids) ⟨db, none⟩ = (out.1, ⟨out.2, none⟩))
    (hnext : out.1 = .ok none → second.exec (answer b now keys.ids) ⟨out.2, none⟩ =
      ((next out.2).1, ⟨(next out.2).2, none⟩)) :
    (first >>= fun dispatched => match (dispatched : Option TriggerDispatchRecord) with
      | some dispatch => Prog.pure (some dispatch)
      | none => second).exec (answer b now keys.ids) ⟨db, none⟩ =
        ((out.orTry next).1, ⟨(out.orTry next).2, none⟩) := by
  rw [Prog.exec_bind, hfirst]
  obtain ⟨r, db'⟩ := out
  rcases r with e | (_ | dispatch)
  · rfl
  · exact hnext rfl
  · rfl

theorem exec_dispatchNextDueTimer (hkeys : db.entries.Nodup) :
    (dispatchNextDueTimer rt b tenantMax).exec (answer b now keys.ids) ⟨db, none⟩ =
      ((timerOutcome rt b now keys tenantMax db).1,
        ⟨(timerOutcome rt b now keys tenantMax db).2, none⟩) :=
  exec_orTry (exec_dispatchNextDueScheduled hkeys (by decide)) fun _ =>
    exec_dispatchNextDueScheduled (nodup_slotOutcome hkeys (by decide)) (by decide)

/-- The dispatcher of all kinds ends as computed. -/
theorem exec_dispatchNextDueTrigger (hkeys : db.entries.Nodup) :
    (dispatchNextDueTriggerWithLimits rt b tenantMax).exec (answer b now keys.ids) ⟨db, none⟩ =
      ((dispatchOutcome rt b now keys tenantMax db).1,
        ⟨(dispatchOutcome rt b now keys tenantMax db).2, none⟩) :=
  exec_orTry (exec_dispatchNextDueWebhookEvent hkeys) fun _ =>
    exec_dispatchNextDueTimer (nodup_eventOutcome hkeys)

end Dispatchers

end Trigger
end SecureAgnt

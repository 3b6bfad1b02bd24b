/-
When one dispatch comes to the same on both back ends.

Both back ends hold the same tables and dispatch at the same instant.  `StepCondition` says how
they come to the same: each queue that has its turn begins with one row, and no slot of a timer
creates a run, for SQLite adds a trace to its input.  A slot that is skipped is computed from a
clock of whole microseconds, for Postgres keeps no more of it.
-/
import SecureAgnt.Trigger.QueueHead

namespace SecureAgnt
namespace Trigger

open Storage
open Runs (TriggerDispatchRecord)

/-! ## The same tables -/

/-- Tables that either back end can hold: the indexes are in order, and the slots are whole
microseconds. -/
structure SharedDb extends Db where
  keys_nodup : toDb.entries.Nodup
  slots_kept : ∀ row ∈ triggers, Microseconds row.nextFireAt

/-- What `timestamptz` keeps of an instant: whole microseconds, counted from 2000 on. -/
def keptInstant (t : Int) : Int :=
  let epoch := 946684800 * second
  epoch + (t - epoch).tdiv 1000 * 1000

theorem keptInstant_eq_iff {t : Int} : keptInstant t = t ↔ Microseconds t := by
  unfold keptInstant Microseconds second
  dsimp only
  constructor
  · intro h
    omega
  · intro h
    have hdvd : (1000 : Int) ∣ t - 946684800 * 10 ^ 9 := by omega
    rw [Int.tdiv_mul_cancel hdvd]
    omega

/-- The same run, created at the same second. -/
structure SameRun (run run' : RunRecord) : Prop where
  columns : { run with createdAt := 0 } = { run' with createdAt := 0 }
  createdAt : SameSecond run.createdAt run'.createdAt

/-- What Postgres keeps of a trigger, and the trigger of SQLite. -/
def KeptTrigger (row row' : TriggerRow) : Prop :=
  AlikeTrigger { row with nextFireAt := keptInstant row.nextFireAt } row'

/-- What Postgres has stored and what SQLite has: times of the database are the same to the
second, and slots as far as Postgres keeps them.  The `scheduled_for` of an event's row is the
reading of the clock. -/
structure SameTables (db db' : Db) : Prop where
  triggers : List.Forall₂ KeptTrigger db.triggers db'.triggers
  events : List.Forall₂ AlikeEvent db.events db'.events
  runs : List.Forall₂ SameRun db.runs db'.runs
  ledger : db.ledger.map (fun entry => { entry with scheduledFor := 0 }) =
    db'.ledger.map fun entry => { entry with scheduledFor := 0 }

theorem KeptTrigger.id {row row' : TriggerRow} (h : KeptTrigger row row') : row.id = row'.id := by
  have hid := AlikeTrigger.id h
  exact hid

theorem KeptTrigger.nextFireAt {row row' : TriggerRow} (h : KeptTrigger row row') :
    keptInstant row.nextFireAt = row'.nextFireAt := by
  have hnext := AlikeTrigger.nextFireAt h
  exact hnext

section Step

variable (rt : TriggerRuntime) (now tenantMax : Int)

/-- How a back end answers one dispatch, and the tables after it. -/
def dispatchOn (keys : KeySource) (b : Backend) (db : Db) : DispatchOutcome :=
  let out :=
    (dispatchNextDueTriggerWithLimits rt b tenantMax).exec (answer b now keys.ids) ⟨db, none⟩
  (out.1, out.2.db)

/-- Whatever the new identifiers are, the back ends answer the same and leave the same tables. -/
def StepsAlike (db : Db) : Prop :=
  ∀ keys, (dispatchOn rt now tenantMax keys .postgres db).1 =
      (dispatchOn rt now tenantMax keys .sqlite db).1 ∧
    SameTables (dispatchOn rt now tenantMax keys .postgres db).2
      (dispatchOn rt now tenantMax keys .sqlite db).2

theorem dispatchOn_eq {rt : TriggerRuntime} {now tenantMax : Int} {db : Db}
    (hkeys : db.entries.Nodup) (keys : KeySource) (b : Backend) :
    dispatchOn rt now tenantMax keys b db = dispatchOutcome rt b now keys tenantMax db := by
  unfold dispatchOn
  rw [exec_dispatchNextDueTrigger hkeys]

end Step

/-! ## The condition -/

section Condition

variable (rt : TriggerRuntime) (now tenantMax : Int) (db : Db)

/-- An event for which no run is created, so that the timers have their turn. -/
def EventPasses (found : EventRow × TriggerRow) : Prop :=
  ¬ db.KeyTaken found.2.id found.1.eventId ∧ rt.tooLarge found.1.payloadJson = true

/-- A slot that is not fired; where it is skipped, the next one can be kept. -/
def SlotIdle (row : TriggerRow) : Prop :=
  match row.schedule with
  | .interval seconds => row.misfirePolicy = .skip ∧
      now - row.nextFireAt ≥ seconds.val * second ∧ Microseconds now
  | .cron expression => ∃ message,
      rt.nextCronFireAt expression row.scheduleTimezone row.nextFireAt = .error message
  | .webhook => True

/-- A slot without a run: its key is taken, or it is not fired. -/
def SlotWithoutRun (row : TriggerRow) : Prop :=
  db.KeyTaken row.id (slotKey row.nextFireAt) ∨ SlotIdle rt now row

/-- A type of timer whose turn it is: the same trigger is the first, and its slot creates no run. -/
structure TimerAlike (type : TriggerType) : Prop where
  first : FirstTriggerAgrees now tenantMax db type
  noRun : ∀ row, (triggerQueue now tenantMax db .postgres type).head? = some row →
    SlotWithoutRun rt now db row

/-- The interval triggers have their turn after the cron triggers, and these after the events. -/
structure StepCondition : Prop where
  event : FirstEventAgrees now tenantMax db
  cron : (∀ found, (eventQueue now tenantMax db .postgres).head? = some found →
    EventPasses rt db found) → TimerAlike rt now tenantMax db .cron
  interval : (∀ found, (eventQueue now tenantMax db .postgres).head? = some found →
      EventPasses rt db found) →
    (∀ row, (triggerQueue now tenantMax db .postgres .cron).head? = some row →
      ¬ db.KeyTaken row.id (slotKey row.nextFireAt)) → TimerAlike rt now tenantMax db .interval

end Condition

/-! ## Level tables -/

/-- The tables of Postgres and SQLite after the same steps; every slot is one that Postgres
keeps. -/
structure LevelDb (db db' : Db) : Prop where
  alike : AlikeDb db db'
  inputs : db.runs.map (·.inputJson) = db'.runs.map (·.inputJson)
  slots : ∀ row ∈ db.triggers, Microseconds row.nextFireAt

theorem AlikeRun.same {run run' : RunRecord} (h : AlikeRun run run')
    (hinput : run.inputJson = run'.inputJson) : SameRun run run' where
  columns := by
    have hcolumns := congrArg (fun r => { r with inputJson := run.inputJson }) h.columns
    dsimp only at hcolumns
    rw [← hinput] at *
    exact hcolumns
  createdAt := h.createdAt

/-- Runs that are alike and have the same inputs are the same. -/
theorem sameRuns {runs runs' : List RunRecord} (h : List.Forall₂ AlikeRun runs runs')
    (hinputs : runs.map (·.inputJson) = runs'.map (·.inputJson)) :
    List.Forall₂ SameRun runs runs' := by
  induction h with
  | nil => exact .nil
  | cons hrun _ ih =>
    obtain ⟨hinput, hrest⟩ := List.cons_eq_cons.mp hinputs
    exact .cons (hrun.same hinput) (ih hrest)

theorem LevelDb.sameTables {db db' : Db} (h : LevelDb db db') : SameTables db db' where
  triggers := (Paired.with_mem h.alike.triggers).imp fun row row' hrow => by
    unfold KeptTrigger
    rw [keptInstant_eq_iff.mpr (h.slots row hrow.2.1)]
    exact hrow.1
  events := h.alike.events
  runs := sameRuns h.alike.runs h.inputs
  ledger := by rw [h.alike.ledger]

/-! ## The keys of a call -/

/-- The key under which the ledger had a row already. -/
def clashKeys : Except DbError (Option TriggerDispatchRecord) → List (String × String)
  | .error (.uniqueViolation (.dedupeKey triggerId dedupeKey)) => [(triggerId, dedupeKey)]
  | _ => []

/-- The keys of the events and slots that a call tried: those of the rows it entered, and the
one that was taken. -/
structure Tries (db : Db) (out : DispatchOutcome) (tried : List (String × String)) : Prop where
  entered : ∃ entries, out.2.ledger = db.ledger ++ entries ∧
    tried = entries.map (fun entry => (entry.triggerId, entry.dedupeKey)) ++ clashKeys out.1

section Keys

variable {db : Db} {out : DispatchOutcome} {tried tried' : List (String × String)}
  {triggerId dedupeKey : String}

theorem Tries.keyTaken (h : Tries db out tried) (htaken : db.KeyTaken triggerId dedupeKey) :
    out.2.KeyTaken triggerId dedupeKey := by
  obtain ⟨entries, hledger, -⟩ := h.entered
  obtain ⟨entry, hentry, hkey⟩ := htaken
  exact ⟨entry, hledger ▸ List.mem_append_left _ hentry, hkey⟩

theorem Tries.keyTaken_before (h : Tries db out tried)
    (htaken : out.2.KeyTaken triggerId dedupeKey) :
    db.KeyTaken triggerId dedupeKey ∨ (triggerId, dedupeKey) ∈ tried := by
  obtain ⟨entries, hledger, rfl⟩ := h.entered
  obtain ⟨entry, hentry, rfl, rfl⟩ := htaken
  rw [hledger] at hentry
  rcases List.mem_append.mp hentry with hentry | hentry
  · exact .inl ⟨entry, hentry, rfl, rfl⟩
  · exact .inr (List.mem_append_left _ (List.mem_map_of_mem hentry))

/-- What is tried next adds its keys. -/
theorem Tries.orTry {next : Db → DispatchOutcome} (h : Tries db out tried)
    (hnone : out.1 = .ok none) (hnext : Tries out.2 (next out.2) tried') :
    Tries db (out.orTry next) (tried ++ tried') := by
  obtain ⟨r, after⟩ := out
  obtain rfl : r = .ok none := hnone
  obtain ⟨entries, hledger, rfl⟩ := h.entered
  obtain ⟨entries', hledger', rfl⟩ := hnext.entered
  refine ⟨entries ++ entries', ?_, ?_⟩
  · show (next after).2.ledger = _
    rw [hledger', hledger, List.append_assoc]
  · rw [List.map_append, List.append_assoc]
    show _ ++ ([] ++ _) = _
    rw [List.nil_append]
    exact (List.append_assoc ..).symm

theorem Tries.orTry_end {next : Db → DispatchOutcome} (h : Tries db out tried)
    (hend : out.1 ≠ .ok none) : Tries db (out.orTry next) tried := by
  obtain ⟨r, after⟩ := out
  rcases r with e | (_ | dispatch)
  · exact h
  · exact absurd rfl hend
  · exact h

end Keys

section Stages

variable {rt : TriggerRuntime} {b : Backend} {now tenantMax : Int} {keys : KeySource} {db : Db}
  {type : TriggerType}

def eventKeys (found : Option (EventRow × TriggerRow)) : List (String × String) :=
  found.toList.map fun row => (row.2.id, row.1.eventId)

def slotKeys (found : Option TriggerRow) : List (String × String) :=
  found.toList.map fun row => (row.id, slotKey row.nextFireAt)

theorem tries_eventOutcome : Tries db (eventOutcome rt b now keys tenantMax db)
    (eventKeys (firstEvent b now tenantMax db)) := by
  unfold eventOutcome firstEvent
  cases (dueEvents b (b.currentTimestamp now) db (max tenantMax 1)).head? with
  | none => exact ⟨[], (List.append_nil _).symm, rfl⟩
  | some found =>
    dsimp only
    unfold attemptOutcome
    split
    · exact ⟨[], (List.append_nil _).symm, rfl⟩
    · split
      · exact ⟨[_], rfl, rfl⟩
      · exact ⟨[_], rfl, rfl⟩

theorem exists_plan {row : TriggerRow} (hrow : row.triggerType ≠ .webhook) :
    ∃ plan, row.plan rt now = some plan := by
  unfold TriggerRow.plan SlotColumns.plan
  rw [show row.slotColumns.schedule = row.schedule from rfl]
  unfold TriggerRow.triggerType at hrow
  cases hschedule : row.schedule with
  | interval seconds => exact ⟨_, rfl⟩
  | cron expression => exact ⟨_, rfl⟩
  | webhook =>
    rw [hschedule] at hrow
    exact absurd rfl hrow

theorem tries_slotOutcome (htype : type ≠ .webhook) :
    Tries db (slotOutcome rt b now keys tenantMax type db)
      (slotKeys (firstTrigger b now tenantMax type db)) := by
  unfold slotOutcome firstTrigger
  cases hfirst : (dueTriggers b (b.currentTimestamp now) db type (max tenantMax 1)).head? with
  | none => exact ⟨[], (List.append_nil _).symm, rfl⟩
  | some row =>
    obtain ⟨-, -, hrow, -⟩ := mem_dueTriggers.mp (List.mem_of_head? hfirst)
    obtain ⟨plan, hplan⟩ := @exists_plan rt now row (hrow ▸ htype)
    dsimp only
    rw [hplan]
    dsimp only
    unfold SlotPlan.outcome
    dsimp only
    split
    · exact ⟨[], (List.append_nil _).symm, rfl⟩
    · cases plan with
      | fire nextFireAt => exact ⟨[_], rfl, rfl⟩
      | skip nextFireAt => exact ⟨[_], rfl, rfl⟩
      | deadLetter message => exact ⟨[_], rfl, rfl⟩

end Stages

/-! ## Stage by stage -/

/-- Outcomes with one answer and level tables. -/
structure LevelOutcome (out out' : DispatchOutcome) : Prop where
  answer : out.1 = out'.1
  tables : LevelDb out.2 out'.2

theorem LevelOutcome.orTry {out out' : DispatchOutcome} {next next' : Db → DispatchOutcome}
    (h : LevelOutcome out out')
    (hnext : out.1 = .ok none → LevelOutcome (next out.2) (next' out'.2)) :
    LevelOutcome (out.orTry next) (out'.orTry next') := by
  obtain ⟨r, after⟩ := out
  obtain ⟨r', after'⟩ := out'
  obtain rfl : r = r' := h.answer
  rcases r with e | (_ | dispatch)
  · exact h
  · exact hnext rfl
  · exact h

theorem slots_changeTrigger {db : Db} {id : String} {f : TriggerRow → TriggerRow}
    (h : ∀ row ∈ db.triggers, Microseconds row.nextFireAt)
    (hf : ∀ row ∈ db.triggers, Microseconds (f row).nextFireAt) :
    ∀ row ∈ (db.changeTrigger id f).triggers, Microseconds row.nextFireAt := by
  intro row hrow
  obtain ⟨old, hold, rfl⟩ := List.mem_map.mp hrow
  split
  · exact hf old hold
  · exact h old hold

section Stages

variable {rt : TriggerRuntime} {b : Backend} {now tenantMax : Int} {keys : KeySource} {db db' : Db}
  {row : TriggerRow} {event : EventRow} {type : TriggerType}

theorem attemptOutcome_inputs :
    (attemptOutcome rt .postgres now keys event row db).2.runs.map (·.inputJson) =
      (attemptOutcome rt .sqlite now keys event row db).2.runs.map (·.inputJson) := by
  unfold attemptOutcome
  split
  · rfl
  · split
    · rfl
    · show (db.runs ++ [eventRun .postgres now (keys.next db.entries) event row]).map _ =
        (db.runs ++ [eventRun .sqlite now (keys.next db.entries) event row]).map _
      rw [List.map_append, List.map_append]
      rfl

theorem attemptOutcome_slots (hslots : ∀ row ∈ db.triggers, Microseconds row.nextFireAt) :
    ∀ row' ∈ (attemptOutcome rt b now keys event row db).2.triggers,
      Microseconds row'.nextFireAt := by
  unfold attemptOutcome
  split
  · exact hslots
  · split
    · exact hslots
    · exact slots_changeTrigger hslots hslots

theorem level_eventOutcome (hkeys : db.entries.Nodup)
    (hslots : ∀ row ∈ db.triggers, Microseconds row.nextFireAt)
    (hfirst : firstEvent .postgres now tenantMax db = firstEvent .sqlite now tenantMax db) :
    LevelOutcome (eventOutcome rt .postgres now keys tenantMax db)
      (eventOutcome rt .sqlite now keys tenantMax db) := by
  have halike := @alike_eventOutcome rt now tenantMax keys db db (.refl db) hkeys (by rw [hfirst])
  refine ⟨halike.answer, halike.tables, ?_, ?_⟩
  · unfold firstEvent at hfirst
    unfold eventOutcome
    rw [hfirst]
    split
    · rfl
    · exact attemptOutcome_inputs
  · unfold eventOutcome
    split
    · exact hslots
    · exact attemptOutcome_slots hslots

theorem microseconds_add_seconds {t : Int} (n : Int) :
    Microseconds (t + n * second) ↔ Microseconds t := by
  unfold Microseconds second
  omega

theorem microseconds_applyJitter {t : Int} (triggerId : String) (jitterSeconds entropyTime : Int) :
    Microseconds (applyJitter rt t triggerId jitterSeconds entropyTime) ↔ Microseconds t := by
  unfold applyJitter
  split
  · rfl
  · exact microseconds_add_seconds _

/-- What is planned creates no run, and Postgres keeps the next slot. -/
def SlotPlan.Idle : SlotPlan → Prop
  | .fire _ => False
  | .skip nextFireAt => Microseconds nextFireAt
  | .deadLetter _ => True

theorem slotIdle_iff {plan : SlotPlan} (hplan : row.plan rt now = some plan) :
    SlotIdle rt now row ↔ plan.Idle := by
  unfold TriggerRow.plan SlotColumns.plan at hplan
  rw [show row.slotColumns.schedule = row.schedule from rfl] at hplan
  unfold SlotIdle
  cases hschedule : row.schedule with
  | interval seconds =>
    rw [hschedule] at hplan
    cases hplan
    unfold intervalPlan
    by_cases hskip : row.misfirePolicy = .skip ∧ now - row.nextFireAt ≥ seconds.val * second
    · rw [if_pos (show row.slotColumns.misfirePolicy = .skip ∧ _ from hskip)]
      have hkept : (SlotPlan.skip (applyJitter rt (now + seconds.val * second) row.id
          row.slotColumns.jitterSeconds now)).Idle ↔ Microseconds now :=
        (microseconds_applyJitter ..).trans (microseconds_add_seconds _)
      rw [hkept]
      exact ⟨fun h => h.2.2, fun h => ⟨hskip.1, hskip.2, h⟩⟩
    · rw [if_neg (show ¬ (row.slotColumns.misfirePolicy = .skip ∧ _) from hskip)]
      exact ⟨fun h => hskip ⟨h.1, h.2.1⟩, False.elim⟩
  | cron expression =>
    rw [hschedule] at hplan
    cases hplan
    unfold cronPlan
    rw [show row.slotColumns.scheduleTimezone = row.scheduleTimezone from rfl]
    dsimp only
    cases hnext : rt.nextCronFireAt expression row.scheduleTimezone row.nextFireAt with
    | ok value => exact iff_of_false (fun h => nomatch h.choose_spec) id
    | error message => exact ⟨fun _ => trivial, fun _ => ⟨message, rfl⟩⟩
  | webhook =>
    rw [hschedule] at hplan
    cases hplan

theorem SlotWithoutRun.idle {plan : SlotPlan} (h : SlotWithoutRun rt now db row)
    (hplan : row.plan rt now = some plan) (hfree : ¬ db.KeyTaken row.id (slotKey row.nextFireAt)) :
    plan.Idle :=
  (slotIdle_iff hplan).mp (h.resolve_left hfree)

/-- A slot without a run adds none and leaves slots that can be kept. -/
theorem slotOutcome_idle (hslots : ∀ row ∈ db.triggers, Microseconds row.nextFireAt)
    (hidle : ∀ row, firstTrigger b now tenantMax type db = some row →
      SlotWithoutRun rt now db row) :
    (slotOutcome rt b now keys tenantMax type db).2.runs = db.runs ∧
      ∀ row ∈ (slotOutcome rt b now keys tenantMax type db).2.triggers,
        Microseconds row.nextFireAt := by
  unfold firstTrigger at hidle
  unfold slotOutcome
  split
  · exact ⟨rfl, hslots⟩
  · next row hfirst =>
    split
    · exact ⟨rfl, hslots⟩
    · next plan hplan =>
      unfold SlotPlan.outcome
      dsimp only
      split
      · exact ⟨rfl, hslots⟩
      · next hfree =>
        have hkept := (hidle row hfirst).idle hplan hfree
        unfold SlotPlan.publish
        cases plan with
        | fire nextFireAt => exact hkept.elim
        | skip nextFireAt => exact ⟨rfl, slots_changeTrigger hslots fun _ _ => hkept⟩
        | deadLetter message => exact ⟨rfl, slots_changeTrigger hslots hslots⟩

theorem SlotWithoutRun.mono (h : SlotWithoutRun rt now db row)
    (htaken : db.KeyTaken row.id (slotKey row.nextFireAt) →
      db'.KeyTaken row.id (slotKey row.nextFireAt)) : SlotWithoutRun rt now db' row :=
  h.imp htaken id

theorem level_slotOutcome (h : LevelDb db db') (hkeys : db.entries.Nodup)
    (hfirst : firstTrigger .postgres now tenantMax type db =
      firstTrigger .sqlite now tenantMax type db')
    (hidle : ∀ row, firstTrigger .postgres now tenantMax type db = some row →
      SlotWithoutRun rt now db row) :
    LevelOutcome (slotOutcome rt .postgres now keys tenantMax type db)
      (slotOutcome rt .sqlite now keys tenantMax type db') := by
  have halike := @alike_slotOutcome rt now tenantMax keys db db' type h.alike hkeys (by rw [hfirst])
  have hslots' : ∀ row ∈ db'.triggers, Microseconds row.nextFireAt := by
    intro row' hrow'
    obtain ⟨row, hrow, hrel⟩ := Paired.exists_left h.alike.triggers hrow'
    rw [← hrel.nextFireAt]
    exact h.slots row hrow
  obtain ⟨hruns, hslots⟩ := @slotOutcome_idle rt .postgres now tenantMax keys db type h.slots hidle
  obtain ⟨hruns', -⟩ := @slotOutcome_idle rt .sqlite now tenantMax keys db' type hslots'
    fun row hrow => (hidle row (hfirst.trans hrow)).mono h.alike.keyTaken.mp
  exact ⟨halike.answer, halike.tables, by rw [hruns, hruns', h.inputs], hslots⟩

theorem eventPasses_of_none (hnone : (eventOutcome rt b now keys tenantMax db).1 = .ok none) :
    ∀ found, firstEvent b now tenantMax db = some found → EventPasses rt db found := by
  intro found hfirst
  unfold firstEvent at hfirst
  unfold eventOutcome at hnone
  rw [hfirst] at hnone
  dsimp only at hnone
  unfold attemptOutcome at hnone
  by_cases htaken : db.KeyTaken found.2.id found.1.eventId
  · rw [if_pos htaken] at hnone
    cases hnone
  · by_cases hlarge : rt.tooLarge found.1.payloadJson = true
    · exact ⟨htaken, hlarge⟩
    · rw [if_neg htaken, if_neg hlarge] at hnone
      cases hnone

theorem free_of_none (htype : type ≠ .webhook)
    (hnone : (slotOutcome rt b now keys tenantMax type db).1 = .ok none) :
    ∀ row, firstTrigger b now tenantMax type db = some row →
      ¬ db.KeyTaken row.id (slotKey row.nextFireAt) := by
  intro row hfirst htaken
  unfold firstTrigger at hfirst
  obtain ⟨-, -, hrow, -⟩ := mem_dueTriggers.mp (List.mem_of_head? hfirst)
  obtain ⟨plan, hplan⟩ := @exists_plan rt now row (hrow ▸ htype)
  unfold slotOutcome at hnone
  rw [hfirst] at hnone
  dsimp only at hnone
  rw [hplan] at hnone
  dsimp only at hnone
  unfold SlotPlan.outcome at hnone
  rw [if_pos htaken] at hnone
  cases hnone

/-- Under the condition both back ends come to the same. -/
theorem StepCondition.level (h : StepCondition rt now tenantMax db) (hkeys : db.entries.Nodup)
    (hslots : ∀ row ∈ db.triggers, Microseconds row.nextFireAt) :
    LevelOutcome (dispatchOutcome rt .postgres now keys tenantMax db)
      (dispatchOutcome rt .sqlite now keys tenantMax db) := by
  have hevent := @level_eventOutcome rt now tenantMax keys db hkeys hslots
    ((firstEventAgrees_iff hkeys).mp h.event)
  refine hevent.orTry fun hnone => ?_
  have hnone' := hevent.answer.symm.trans hnone
  have hkeys₁ := @nodup_eventOutcome rt .postgres now keys tenantMax db hkeys
  have hpass := eventPasses_of_none hnone
  have hcron := h.cron hpass
  have htried := @tries_eventOutcome rt .postgres now tenantMax keys db
  have hslot := @level_slotOutcome rt now tenantMax keys _ _ .cron hevent.tables hkeys₁
    (by rw [firstTrigger_eventOutcome hnone, firstTrigger_eventOutcome hnone',
      (firstTriggerAgrees_iff hkeys).mp hcron.first])
    fun row hrow => (hcron.noRun row ((firstTrigger_eventOutcome hnone).symm.trans hrow)).mono
      htried.keyTaken
  refine hslot.orTry fun hidle => ?_
  have hidle' := hslot.answer.symm.trans hidle
  have hfree := free_of_none (by decide) hidle
  have hinterval := h.interval hpass fun row hrow htaken =>
    hfree row ((firstTrigger_eventOutcome hnone).trans hrow) (htried.keyTaken htaken)
  have hfirst := (firstTrigger_slotOutcome hkeys₁ hidle).trans (firstTrigger_eventOutcome hnone)
  have hfirst' := (firstTrigger_slotOutcome (hevent.tables.alike.entries ▸ hkeys₁) hidle').trans
    (firstTrigger_eventOutcome hnone')
  have htried' := @tries_slotOutcome rt .postgres now tenantMax keys
    (eventOutcome rt .postgres now keys tenantMax db).2 .cron (by decide)
  refine level_slotOutcome hslot.tables (nodup_slotOutcome hkeys₁ (by decide)) ?_ ?_
  · rw [hfirst, hfirst', (firstTriggerAgrees_iff hkeys).mp hinterval.first]
  · intro row hrow
    exact (hinterval.noRun row (hfirst.symm.trans hrow)).mono fun htaken =>
      htried'.keyTaken (htried.keyTaken htaken)

theorem StepCondition.alike (h : StepCondition rt now tenantMax db) (hkeys : db.entries.Nodup)
    (hslots : ∀ row ∈ db.triggers, Microseconds row.nextFireAt) :
    StepsAlike rt now tenantMax db := by
  intro keys
  rw [dispatchOn_eq hkeys, dispatchOn_eq hkeys]
  have hlevel := @StepCondition.level rt now tenantMax keys db h hkeys hslots
  exact ⟨hlevel.answer, hlevel.tables.sameTables⟩

end Stages

end Trigger
end SecureAgnt

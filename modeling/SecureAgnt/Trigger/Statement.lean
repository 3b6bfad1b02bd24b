/-
The statements of the trigger functions, and sessions that execute them.

Sessions share the tables.  A session's writes wait in its transaction; it reads the
committed tables with its own writes on top, and it waits for what another open
transaction holds.  Where `faults` is set, any statement can lose its connection: the
transaction is gone and the caller gets an error, which is also what is left of a
caller that crashes.  A commit that loses its connection may have taken effect.
-/
import SecureAgnt.Trigger.Store

namespace SecureAgnt
namespace Trigger

open Storage
open Runs (RunStatus)

/-! ## What the queries read -/

def RunRecord.isInflight (row : RunRecord) : Bool :=
  row.status = .queued || row.status = .running

namespace Db

def triggerInflight (db : Db) (triggerId : String) : Nat :=
  db.ledger.countP fun row => row.triggerId = triggerId &&
    db.runs.any fun run => row.runId = some run.id && run.isInflight

def tenantInflight (db : Db) (tenantId : String) : Nat :=
  db.runs.countP fun run => run.tenantId = tenantId && run.isInflight

/-- The trigger is enabled and there is room for another run of it. -/
def mayFire (db : Db) (tenantMaxInflightRuns : Int) (row : TriggerRow) : Bool :=
  row.enabled && row.deadLetteredAt.isNone &&
    db.triggerInflight row.id < row.maxInflightRuns &&
    db.tenantInflight row.tenantId < tenantMaxInflightRuns

end Db

/-- The last column of the order: Postgres takes the older trigger first. -/
def tieBreak (b : Backend) (x y : TriggerRow) : Bool :=
  match b with
  | .postgres => x.createdAt ≤ y.createdAt
  | .sqlite => x.id ≤ y.id

/-- The due triggers of a type in the order they are tried. -/
def dueTriggers (b : Backend) (now : Int) (db : Db) (type : TriggerType)
    (tenantMaxInflightRuns : Int) : List TriggerRow :=
  orderBy (fun row => (queuePriority b now row.inputJson row.nextFireAt, b.stamp row.nextFireAt))
    ((db.triggers.filter fun row => db.mayFire tenantMaxInflightRuns row &&
      row.triggerType = type && b.stamp row.nextFireAt ≤ b.stamp now).insertionSort
        fun x y => tieBreak b x y = true)

def isDueEvent (b : Backend) (now : Int) (db : Db) (tenantMaxInflightRuns : Int)
    (row : EventRow × TriggerRow) : Bool :=
  row.1.status = .pending && b.stamp row.1.nextAttemptAt ≤ b.stamp now &&
    db.mayFire tenantMaxInflightRuns row.2 && row.2.triggerType = .webhook

/-- The due webhook events with their triggers, in the order they are tried. -/
def dueEvents (b : Backend) (now : Int) (db : Db) (tenantMaxInflightRuns : Int) :
    List (EventRow × TriggerRow) :=
  orderBy (fun row => (queuePriority b now row.2.inputJson row.1.createdAt,
      b.stamp row.1.createdAt))
    (((db.events.filterMap fun event => (db.trigger? event.triggerId).map (event, ·)).filter
      (isDueEvent b now db tenantMaxInflightRuns)).insertionSort fun x y => x.1.id ≤ y.1.id)

theorem mem_dueTriggers {b : Backend} {now : Int} {db : Db} {type : TriggerType} {tenantMax : Int}
    {row : TriggerRow} : row ∈ dueTriggers b now db type tenantMax ↔ row ∈ db.triggers ∧
      db.mayFire tenantMax row = true ∧ row.triggerType = type ∧
        b.stamp row.nextFireAt ≤ b.stamp now := by
  rw [dueTriggers, mem_orderBy, List.mem_insertionSort, List.mem_filter]
  simp only [Bool.and_eq_true, decide_eq_true_eq, and_assoc]

theorem mem_dueEvents {b : Backend} {now : Int} {db : Db} {tenantMax : Int}
    {row : EventRow × TriggerRow} : row ∈ dueEvents b now db tenantMax ↔
      row.1 ∈ db.events ∧ db.trigger? row.1.triggerId = some row.2 ∧
        isDueEvent b now db tenantMax row = true := by
  rw [dueEvents, mem_orderBy, List.mem_insertionSort, List.mem_filter, List.mem_filterMap]
  constructor
  · intro h
    obtain ⟨⟨event, hevent, hmap⟩, hdue⟩ := h
    obtain ⟨trigger, htrigger, rfl⟩ := Option.map_eq_some_iff.mp hmap
    exact ⟨hevent, htrigger, hdue⟩
  · intro h
    obtain ⟨hevent, htrigger, hdue⟩ := h
    refine ⟨⟨row.1, hevent, ?_⟩, hdue⟩
    rw [htrigger]
    rfl

/-! ## Statements -/

/-- `sqlx::Error`, as far as it matters here. -/
inductive DbError where
  | uniqueViolation (entry : Resource)
  | connection (message : String)
  | decode (column : String)
  | protocol (message : String)
  | checkViolation (constraint : String)
  deriving DecidableEq, Repr

inductive Query where
  | begin
  | commit
  | selectDueTrigger (type : TriggerType) (tenantMaxInflightRuns : Int)
  | selectDueEvent (tenantMaxInflightRuns : Int)
  | selectTrigger (tenantId triggerId : String)
  | selectTriggerForUpdate (tenantId triggerId : String)
  | selectEvent (triggerId eventId : String)
  | selectEventForUpdate (tenantId triggerId eventId : String)
  | selectTriggerRun (triggerId dedupeKey : String)
  | countTriggerInflight (triggerId : String)
  | countTenantInflight (tenantId : String)
  | insertRun (row : RunRecord)
  | insertTriggerRun (row : TriggerRunRow)
  | insertEvent (row : EventRow)
  | updateTrigger (triggerId : String) (change : TriggerChange)
  | reserveTrigger (triggerId : String) (scheduledFor : Int) (change : TriggerChange)
  | updateEvent (eventRowId : String) (change : EventChange)
  | reserveEvent (selects : EventRow → Bool) (change : EventChange)
  | edit (x : Write)

/-- An update that counts its rows answers whether there was one. -/
abbrev Query.Result : Query → Type
  | .begin => Unit
  | .commit => Unit
  | .selectDueTrigger .. => Option TriggerRow
  | .selectDueEvent _ => Option (EventRow × TriggerRow)
  | .selectTrigger .. => Option TriggerRow
  | .selectTriggerForUpdate .. => Option TriggerRow
  | .selectEvent .. => Option EventRow
  | .selectEventForUpdate .. => Option EventRow
  | .selectTriggerRun .. => Option TriggerRunRow
  | .countTriggerInflight _ => Nat
  | .countTenantInflight _ => Nat
  | .insertRun _ => Unit
  | .insertTriggerRun _ => Unit
  | .insertEvent _ => Bool
  | .updateTrigger .. => Unit
  | .reserveTrigger .. => Bool
  | .updateEvent .. => Unit
  | .reserveEvent .. => Bool
  | .edit _ => Unit

inductive Stmt where
  | nowUtc
  | newUuid
  | rollback
  | sql (query : Query)

abbrev Stmt.Ans : Stmt → Type
  | .nowUtc => Int
  | .newUuid => String
  | .rollback => Unit
  | .sql query => Except DbError query.Result

abbrev TriggerProg := Prog Stmt Stmt.Ans DbError

def sql (query : Query) : TriggerProg query.Result := do
  let answer ← Prog.perform (.sql query)
  Prog.ofExcept answer

/-! ## Sessions -/

/-- `started` is the time at which a session's transaction began. -/
structure TriggerWorld where
  clock : Int
  started : Nat → Int
  tx : TxWorld Db Write Resource

namespace TriggerWorld

variable (w : TriggerWorld) (i : Nat)

def tick (now : Int) : TriggerWorld := { w with clock := now }

def setTx (tx : Option (Tx Write Resource)) : TriggerWorld := { w with tx := w.tx.setSession i tx }

/-- What a session sees. -/
def view : Db :=
  match w.tx.sessions i with
  | none => w.tx.db
  | some tx => triggerStore.run tx.writes w.tx.db

/-- Postgres answers `now()` with the start of the transaction, `CURRENT_TIMESTAMP` of
SQLite is the whole second of the statement. -/
def sqlNow (b : Backend) (now : Int) : Int :=
  match b with
  | .postgres => w.started i
  | .sqlite => now / 10 ^ 9 * 10 ^ 9

/-- The commit of an open transaction. -/
def publish (tx : Tx Write Resource) : TriggerWorld :=
  { w with tx := { w.tx with db := triggerStore.run tx.writes w.tx.db }.setSession i none }

end TriggerWorld

/-- `LIMIT 1`, with `SKIP LOCKED` where rows can be locked. -/
def Picks {α : Type} (free : α → Prop) (rows : List α) : Option α → Prop
  | none => ∀ row ∈ rows, ¬ free row
  | some row => ∃ skipped rest, rows = skipped ++ row :: rest ∧ (∀ r ∈ skipped, ¬ free r) ∧ free row

theorem Picks.mem {α : Type} {free : α → Prop} {rows : List α} {row : α}
    (h : Picks free rows (some row)) : row ∈ rows := by
  obtain ⟨skipped, rest, rfl, _⟩ := h
  exact List.mem_append_right _ List.mem_cons_self

def triggerLocks (b : Backend) (row : TriggerRow) : List Resource :=
  match b with
  | .postgres => [.triggerRow row.id]
  | .sqlite => []

/-- `FOR UPDATE` of a join locks the rows of both tables. -/
def eventLocks (b : Backend) (row : EventRow × TriggerRow) : List Resource :=
  match b with
  | .postgres => [.eventRow row.1.id, .triggerRow row.2.id]
  | .sqlite => []

section Steps

variable (b : Backend) (i : Nat) (now : Int) (w : TriggerWorld)

/-- A statement that locks rows, none of them locked by another transaction. -/
def LockStep (rs : List Resource) (w' : TriggerWorld) : Prop :=
  (∀ r ∈ rs, w.tx.Free i r) ∧ match w.tx.sessions i with
    | none => w' = w.tick now
    | some tx => w' = (w.tick now).setTx i (some ⟨tx.writes, tx.holds ++ rs⟩)

def notInTransaction : DbError := .protocol "cannot write outside a transaction"

/-- A write waits for what it needs, and fails if an entry it adds is there. -/
def WriteStep (x : Write) (answer : Except DbError Unit) (w' : TriggerWorld) : Prop :=
  match w.tx.sessions i with
  | none => answer = .error notInTransaction ∧ w' = w.tick now
  | some tx => (∀ r ∈ x.needs b, w.tx.Free i r) ∧
    ((answer = .ok () ∧ (∀ r ∈ x.adds, r ∉ (w.view i).entries) ∧
        w' = (w.tick now).setTx i (some ⟨tx.writes ++ [x], tx.holds ++ x.needs b⟩)) ∨
      ∃ r ∈ x.adds, r ∈ (w.view i).entries ∧ answer = .error (.uniqueViolation r) ∧
        w' = w.tick now)

/-- A write that is made only where there is something to write. -/
def WriteIfStep (possible : Prop) (x : Write) (answer : Except DbError Bool) (w' : TriggerWorld) :
    Prop :=
  (possible ∧ ∃ r, WriteStep b i now w x r w' ∧ answer = r.map fun _ => true) ∨
    (¬ possible ∧ answer = .ok false ∧ w' = w.tick now)

def BeginStep (answer : Except DbError Unit) (w' : TriggerWorld) : Prop :=
  match w.tx.sessions i with
  | none => answer = .ok () ∧ w' = { (w.tick now).setTx i (some ⟨[], []⟩) with
      started := Function.update w.started i now }
  | some _ => answer = .error (.protocol "transaction already open") ∧ w' = w.tick now

def CommitStep (answer : Except DbError Unit) (w' : TriggerWorld) : Prop :=
  match w.tx.sessions i with
  | none => answer = .error notInTransaction ∧ w' = w.tick now
  | some tx => answer = .ok () ∧ w' = (w.tick now).publish i tx

def QueryStep : (query : Query) → Except DbError query.Result → TriggerWorld → Prop
  | .begin, answer, w' => BeginStep i now w answer w'
  | .commit, answer, w' => CommitStep i now w answer w'
  | .selectDueTrigger type tenantMax, answer, w' => ∃ pick, answer = .ok pick ∧
    Picks (fun row => ∀ r ∈ triggerLocks b row, w.tx.Free i r)
      (dueTriggers b (w.sqlNow i b now) (w.view i) type tenantMax) pick ∧
    LockStep i now w (pick.toList.flatMap (triggerLocks b)) w'
  | .selectDueEvent tenantMax, answer, w' => ∃ pick, answer = .ok pick ∧
    Picks (fun row => ∀ r ∈ eventLocks b row, w.tx.Free i r)
      (dueEvents b (w.sqlNow i b now) (w.view i) tenantMax) pick ∧
    LockStep i now w (pick.toList.flatMap (eventLocks b)) w'
  | .selectTrigger tenantId triggerId, answer, w' =>
    answer = .ok (((w.view i).trigger? triggerId).filter (·.tenantId = tenantId)) ∧ w' = w.tick now
  | .selectTriggerForUpdate tenantId triggerId, answer, w' => ∃ found, answer = .ok found ∧
    found = ((w.view i).trigger? triggerId).filter
      (fun row => row.tenantId = tenantId && row.enabled && row.deadLetteredAt.isNone) ∧
    LockStep i now w (found.toList.flatMap (triggerLocks .postgres)) w'
  | .selectEvent triggerId eventId, answer, w' =>
    answer = .ok ((w.view i).event? triggerId eventId) ∧ w' = w.tick now
  | .selectEventForUpdate tenantId triggerId eventId, answer, w' => ∃ found, answer = .ok found ∧
    found = ((w.view i).event? triggerId eventId).filter (·.tenantId = tenantId) ∧
    LockStep i now w (found.toList.map (.eventRow ·.id)) w'
  | .selectTriggerRun triggerId dedupeKey, answer, w' =>
    answer = .ok ((w.view i).triggerRun? triggerId dedupeKey) ∧ w' = w.tick now
  | .countTriggerInflight triggerId, answer, w' =>
    answer = .ok ((w.view i).triggerInflight triggerId) ∧ w' = w.tick now
  | .countTenantInflight tenantId, answer, w' =>
    answer = .ok ((w.view i).tenantInflight tenantId) ∧ w' = w.tick now
  | .insertRun row, answer, w' =>
    WriteStep b i now w (.insertRun { row with createdAt := w.sqlNow i b now }) answer w'
  | .insertTriggerRun row, answer, w' => WriteStep b i now w (.insertTriggerRun row) answer w'
  | .insertEvent row, answer, w' =>
    let row := { row with createdAt := w.sqlNow i b now, nextAttemptAt := w.sqlNow i b now }
    WriteIfStep b i now w (∀ r ∈ row.entries, r ∉ (w.view i).entries) (.insertEvent row) answer w'
  | .updateTrigger triggerId change, answer, w' =>
    WriteStep b i now w (.changeTrigger triggerId (w.sqlNow i b now) change) answer w'
  | .reserveTrigger triggerId scheduledFor change, answer, w' =>
    WriteIfStep b i now w (∃ row, (w.view i).trigger? triggerId = some row ∧ row.enabled = true ∧
        row.deadLetteredAt = none ∧ row.nextFireAt = scheduledFor)
      (.changeTrigger triggerId (w.sqlNow i b now) change) answer w'
  | .updateEvent eventRowId change, answer, w' =>
    WriteStep b i now w (.changeEvent eventRowId (w.sqlNow i b now) change) answer w'
  | .reserveEvent selects change, answer, w' =>
    (∃ row ∈ (w.view i).events, selects row = true ∧
      ∃ r, WriteStep b i now w (.changeEvent row.id (w.sqlNow i b now) change) r w' ∧
        answer = r.map fun _ => true) ∨
    ((∀ row ∈ (w.view i).events, selects row = false) ∧ answer = .ok false ∧ w' = w.tick now)
  | .edit x, answer, w' => WriteStep b i now w x answer w'

/-- The connection is lost, at a commit perhaps too late to stop it. -/
def LostStep (query : Query) (answer : Except DbError query.Result) (w' : TriggerWorld) : Prop :=
  (∃ message, answer = .error (.connection message)) ∧
    (w' = (w.tick now).setTx i none ∨
      ∃ tx, query = .commit ∧ w.tx.sessions i = some tx ∧ w' = (w.tick now).publish i tx)

def stmtStep (faults : Bool) : (stmt : Stmt) → stmt.Ans → TriggerWorld → Prop
  | .nowUtc, answer, w' => answer = now ∧ w' = w.tick now
  | .newUuid, answer, w' =>
    (.eventKey answer ∉ (w.view i).entries ∧ .runKey answer ∉ (w.view i).entries ∧
      .triggerRunKey answer ∉ (w.view i).entries) ∧ w' = w.tick now
  | .rollback, _, w' => w' = (w.tick now).setTx i none
  | .sql query, answer, w' =>
    QueryStep b i now w query answer w' ∨ (faults = true ∧ LostStep i now w query answer w')

end Steps

/-- Session `i` of a database; its clock does not go back. -/
def session (b : Backend) (faults : Bool) (i : Nat) : Handler Stmt Stmt.Ans TriggerWorld where
  step w stmt answer w' := ∃ now, w.clock ≤ now ∧ stmtStep b i now w faults stmt answer w'

end Trigger
end SecureAgnt

/-
The queue of runs: claiming, leases, requeueing and finishing, on both back ends.

A statement is one call of a `Prog` and takes effect at once.  The functions of
the source are programs of such calls.  `queueHandler` runs the statements on the
table of runs at a clock that does not go back, and notes in a log which counts,
claims, finishes and audit events took place.  A statement that ends a run or appends an
event can fail, before or after its effect.
-/
import SecureAgnt.Lib.Run
import SecureAgnt.Lib.Table
import SecureAgnt.Storage
import SecureAgnt.Worker.ClaimedRun

namespace SecureAgnt
namespace Runs

open Storage
open Worker (AuditEvent)

/-! ## Rows -/

inductive RunStatus where
  | queued
  | running
  | succeeded
  | failed
  | canceled
  deriving DecidableEq, Repr

/-- How a worker finishes a run. -/
inductive FinalStatus where
  | succeeded
  | failed
  deriving DecidableEq, Repr

def FinalStatus.toRunStatus : FinalStatus → RunStatus
  | .succeeded => .succeeded
  | .failed => .failed

structure RunRow where
  id : String
  tenantId : String
  agentId : String
  triggeredByUserId : Option String
  recipeId : String
  status : RunStatus
  inputJson : Json
  grantedCapabilities : Json
  createdAt : Int
  startedAt : Option Int := none
  finishedAt : Option Int := none
  errorJson : Option Json := none
  attempts : Int := 0
  leaseOwner : Option String := none
  leaseExpiresAt : Option Int := none

structure RunTable where
  rows : List RunRow
  keys : (rows.map (·.id)).Nodup

/-- An `UPDATE`: the rows of its `WHERE` and the change to each. -/
structure RunUpdate where
  selects : RunRow → Bool
  change : RunRow → RunRow
  keeps_id : ∀ row, (change row).id = row.id
  keeps_tenant : ∀ row, (change row).tenantId = row.tenantId

def RunUpdate.row (u : RunUpdate) (row : RunRow) : RunRow :=
  if u.selects row then u.change row else row

theorem RunUpdate.row_id (u : RunUpdate) (row : RunRow) : (u.row row).id = row.id := by
  unfold RunUpdate.row
  split
  · exact u.keeps_id row
  · rfl

theorem RunUpdate.row_tenantId (u : RunUpdate) (row : RunRow) :
    (u.row row).tenantId = row.tenantId := by
  unfold RunUpdate.row
  split
  · exact u.keeps_tenant row
  · rfl

theorem RunUpdate.map_row_id (u : RunUpdate) (rows : List RunRow) :
    (rows.map u.row).map (·.id) = rows.map (·.id) := by
  rw [List.map_map]
  apply List.map_congr_left
  intro row _
  exact u.row_id row

def RunTable.apply (t : RunTable) (u : RunUpdate) : RunTable where
  rows := t.rows.map u.row
  keys := by
    rw [u.map_row_id]
    exact t.keys

def RunTable.insert (t : RunTable) (row : RunRow) (hnew : row.id ∉ t.rows.map (·.id)) :
    RunTable where
  rows := t.rows ++ [row]
  keys := Table.nodup_append_row t.keys hnew

/-- Some row is updated. -/
def RunTable.affected (t : RunTable) (u : RunUpdate) : Bool := t.rows.any u.selects

/-! ## Statements -/

def RunRow.isClaimable (b : Backend) (now : Int) (row : RunRow) : Bool :=
  row.status = .queued && row.leaseExpiresAt.all fun expires => b.isBefore expires now

/-- The claimable runs in the order they are offered. -/
def claimQueue (b : Backend) (now : Int) (t : RunTable) : List RunRow :=
  orderBy (fun row => (queuePriority b now row.inputJson row.createdAt, b.stamp row.createdAt))
    (t.rows.filter (·.isClaimable b now))

def RunTable.running (t : RunTable) : Nat := t.rows.countP (·.status = .running)

def RunTable.tenantRunning (t : RunTable) (tenantId : String) : Nat :=
  t.rows.countP fun row => row.tenantId = tenantId ∧ row.status = .running

def leaseEnd (now leaseMs : Int) : Int := now + leaseMs * 10 ^ 6

/-- Postgres computes times from its own clock, SQLite is given them. -/
def claimUpdate (b : Backend) (now : Int) (runId workerId : String) (clientNow : Option Int)
    (leaseMs : Int) : RunUpdate where
  selects := fun row => row.id = runId && row.isClaimable b now
  change := fun row => { row with
    status := .running
    startedAt := some (row.startedAt.getD (clientNow.getD now))
    attempts := row.attempts + 1
    leaseOwner := some workerId
    leaseExpiresAt := some (leaseEnd (clientNow.getD now) leaseMs) }
  keeps_id := fun _ => rfl
  keeps_tenant := fun _ => rfl

def renewUpdate (b : Backend) (now : Int) (runId workerId : String) (clientNow : Option Int)
    (leaseMs : Int) : RunUpdate where
  selects := fun row => row.id = runId && row.status = .running &&
    row.leaseOwner = some workerId && row.leaseExpiresAt.any fun expires => b.isBefore now expires
  change := fun row => { row with
    leaseExpiresAt := some (leaseEnd (clientNow.getD now) leaseMs) }
  keeps_id := fun _ => rfl
  keeps_tenant := fun _ => rfl

/-- SQLite also lets a worker finish a run that has no owner. -/
def mayFinish (b : Backend) (workerId : String) (row : RunRow) : Bool :=
  match b with
  | .postgres => row.leaseOwner = some workerId
  | .sqlite => row.leaseOwner = some workerId || row.leaseOwner = none

def finishUpdate (b : Backend) (now : Int) (runId workerId : String) (clientNow : Option Int)
    (status : FinalStatus) (errorJson : Option Json) : RunUpdate where
  selects := fun row => row.id = runId && row.status = .running && mayFinish b workerId row
  change := fun row => { row with
    status := status.toRunStatus
    finishedAt := some (clientNow.getD now)
    errorJson := errorJson.or row.errorJson
    leaseOwner := none
    leaseExpiresAt := none }
  keeps_id := fun _ => rfl
  keeps_tenant := fun _ => rfl

def RunRow.isExpired (b : Backend) (now : Int) (row : RunRow) : Bool :=
  row.status = .running && row.leaseExpiresAt.any fun expires => b.isBefore expires now

/-- The expired runs that are put back, the longest expired first. -/
def expiredRuns (b : Backend) (now : Int) (locked : List String) (limit : Int) (t : RunTable) :
    List RunRow :=
  ((orderBy (fun row => (0, b.stamp (row.leaseExpiresAt.getD 0)))
    (t.rows.filter (·.isExpired b now))).filter (!locked.contains ·.id)).take limit.toNat

def requeueUpdate (ids : List String) : RunUpdate where
  selects := fun row => ids.contains row.id
  change := fun row => { row with status := .queued, leaseOwner := none, leaseExpiresAt := none }
  keeps_id := fun _ => rfl
  keeps_tenant := fun _ => rfl

/-! ## Calls -/

structure MemoryCompactionGroupOutcome where
  tenantId : String
  agentId : String
  memoryKind : String
  scope : String
  sourceCount : Nat
  sourceEntryIds : Json
  representativeRunId : Option String
  representativeStepId : Option String

structure TriggerDispatchRecord where
  triggerId : String
  triggerType : String
  triggerEventId : Option String
  runId : String
  tenantId : String
  agentId : String
  triggeredByUserId : Option String
  recipeId : String
  scheduledFor : Int
  nextFireAt : Int

/-- What a cycle does before it claims, as far as the queue can tell. -/
inductive HouseOp where
  | compactMemoryRecords
  | processComplianceSiemDeliveryOutbox
  | countInflightRuns
  | tryAcquireSchedulerLease (leaseOwner : String)
  | dispatchNextDueTrigger (tenantMaxInflightRuns : Int)

abbrev HouseAns : HouseOp → Type
  | .compactMemoryRecords => List MemoryCompactionGroupOutcome
  | .processComplianceSiemDeliveryOutbox => Unit
  | .countInflightRuns => Nat
  | .tryAcquireSchedulerLease _ => Bool
  | .dispatchNextDueTrigger _ => Option TriggerDispatchRecord

inductive QueueOp where
  | clientClock
  | selectCandidates (limit : Nat)
  | countRunning (workerId : String)
  | countTenantRunning (tenantId : String)
  | claimRun (runId workerId : String) (clientNow : Option Int) (leaseMs : Int)
  | selectRun (runId : String)
  | renewRunLease (runId workerId : String) (clientNow : Option Int) (leaseMs : Int)
  | finishRun (runId workerId : String) (clientNow : Option Int) (status : FinalStatus)
      (errorJson : Option Json)
  | requeueExpiredRuns (limit : Int)
  | createRun (row : RunRow)
  | housekeeping (op : HouseOp)
  | processClaimedRun (workerId : String) (run : RunRow)
  | appendAuditEvent (workerId : String) (event : AuditEvent)

abbrev QueueAns : QueueOp → Type
  | .clientClock => Int
  | .selectCandidates _ => List RunRow
  | .countRunning _ => Nat
  | .countTenantRunning _ => Nat
  | .claimRun .. => Option RunRow
  | .selectRun _ => Option RunRow
  | .renewRunLease .. => Bool
  | .finishRun .. => Except String Bool
  | .requeueExpiredRuns _ => Nat
  | .createRun _ => Unit
  | .housekeeping op => HouseAns op
  | .processClaimedRun .. => Except String Unit
  | .appendAuditEvent .. => Except String Unit

abbrev QueueProg := Prog QueueOp QueueAns String

def askQueue (op : QueueOp) : QueueProg (QueueAns op) := .perform op

/-- A statement followed by `?`. -/
def tryQueue {α : Type} (call : QueueProg (Except String α)) : QueueProg α :=
  call >>= Prog.ofExcept

/-- `OffsetDateTime::now_utc`, which only the SQLite forms read. -/
def clientNow (b : Backend) : QueueProg (Option Int) :=
  match b with
  | .postgres => .pure none
  | .sqlite => do
    let now ← askQueue .clientClock
    .pure (some now)

/-! ## The functions of the source -/

/-- Postgres returns the updated row, SQLite reads it again. -/
def claimedRow (b : Backend) (row : RunRow) : QueueProg (Option RunRow) :=
  match b with
  | .postgres => .pure (some row)
  | .sqlite => do
    let found ← askQueue (.selectRun row.id)
    match (found : Option RunRow) with
    | some row => .pure (some row)
    | none => .fail "no rows returned by a query that expected to return at least one row"

def claimCandidates (b : Backend) (workerId : String) (clientNow : Option Int)
    (leaseMs tenantCap : Int) : List RunRow → QueueProg (Option RunRow)
  | [] => .pure none
  | candidate :: candidates => do
    let tenantInflightCount ← askQueue (.countTenantRunning candidate.tenantId)
    if (tenantInflightCount : Nat) ≥ tenantCap then
      claimCandidates b workerId clientNow leaseMs tenantCap candidates
    else
      let claimed ← askQueue (.claimRun candidate.id workerId clientNow leaseMs)
      match (claimed : Option RunRow) with
      | some row => claimedRow b row
      | none => claimCandidates b workerId clientNow leaseMs tenantCap candidates

def candidateLimit : Nat := 64

def claimNextQueuedRunWithLimits (b : Backend) (workerId : String)
    (leaseMs globalMaxInflightRuns tenantMaxInflightRuns : Int) : QueueProg (Option RunRow) := do
  let now ← clientNow b
  let candidates ← askQueue (.selectCandidates candidateLimit)
  if (candidates : List RunRow).isEmpty then .pure none
  else
    let globalInflightCount ← askQueue (.countRunning workerId)
    if (globalInflightCount : Nat) ≥ max globalMaxInflightRuns 1 then .pure none
    else
      claimCandidates b workerId now leaseMs (max tenantMaxInflightRuns 1) candidates

/-- The SQLite form without limits tries the first of the queue three times. -/
def claimFirst (workerId : String) (now : Option Int) (leaseMs : Int) :
    Nat → QueueProg (Option RunRow)
  | 0 => .pure none
  | tries + 1 => do
    let candidates ← askQueue (.selectCandidates 1)
    match (candidates : List RunRow) with
    | [] => .pure none
    | candidate :: _ =>
      let claimed ← askQueue (.claimRun candidate.id workerId now leaseMs)
      match (claimed : Option RunRow) with
      | some row => claimedRow .sqlite row
      | none => claimFirst workerId now leaseMs tries

def i64Max : Int := 2 ^ 63 - 1

def claimNextQueuedRun (b : Backend) (workerId : String) (leaseMs : Int) :
    QueueProg (Option RunRow) :=
  match b with
  | .postgres => claimNextQueuedRunWithLimits .postgres workerId leaseMs i64Max i64Max
  | .sqlite => do
    let now ← clientNow .sqlite
    claimFirst workerId now leaseMs 3

def renewRunLease (b : Backend) (runId workerId : String) (leaseMs : Int) : QueueProg Bool := do
  let now ← clientNow b
  askQueue (.renewRunLease runId workerId now leaseMs)

def markRunSucceeded (b : Backend) (runId workerId : String) : QueueProg Bool := do
  let now ← clientNow b
  tryQueue (askQueue (.finishRun runId workerId now .succeeded none))

def markRunFailed (b : Backend) (runId workerId : String) (errorJson : Json) : QueueProg Bool := do
  let now ← clientNow b
  tryQueue (askQueue (.finishRun runId workerId now .failed (some errorJson)))

def requeueExpiredRuns (limit : Int) : QueueProg Nat := askQueue (.requeueExpiredRuns limit)

/-! ## The table under the statements -/

/-- What the log notes.  A count is the first one of a claim. -/
inductive QueueEvent where
  | counted (workerId : String)
  | claimed (workerId runId : String)
  | finished (workerId runId : String) (status : FinalStatus)
  | audited (workerId runId eventType : String)
  deriving DecidableEq, Repr

def QueueEvent.workerId : QueueEvent → String
  | .counted workerId => workerId
  | .claimed workerId _ => workerId
  | .finished workerId _ _ => workerId
  | .audited workerId _ _ => workerId

structure QueueWorld where
  clock : Int
  runs : RunTable
  log : List QueueEvent

/-- An update and the event it is noted as, if it changes a row. -/
def QueueWorld.update (w : QueueWorld) (now : Int) (u : RunUpdate) (events : List QueueEvent) :
    QueueWorld where
  clock := now
  runs := w.runs.apply u
  log := w.log ++ if w.runs.affected u then events else []

def QueueWorld.audit (w : QueueWorld) (now : Int) (workerId : String) (event : AuditEvent) :
    QueueWorld :=
  { w with clock := now, log := w.log ++ [.audited workerId event.runId event.eventType] }

/-- A run as it is created. -/
def RunRow.IsNew (row : RunRow) : Prop :=
  row.status = .queued ∧ row.leaseOwner = none ∧ row.leaseExpiresAt = none

/-- The record of the run that `process_claimed_run` is given. -/
def RunRow.toClaimedRun (row : RunRow) : Worker.ClaimedRun where
  id := row.id
  tenantId := row.tenantId
  agentId := row.agentId
  inputJson := row.inputJson
  grantedCapabilities := row.grantedCapabilities
  triggeredByUserId := row.triggeredByUserId
  recipeId := row.recipeId

/-- An event that the processing of the run can append. -/
def RunRow.MayAppend (row : RunRow) (event : AuditEvent) : Prop :=
  ∃ rt config runTraceId,
    (Worker.processClaimedRun rt config row.toClaimedRun runTraceId).Issues (.appendAuditEvent event)

/-- `FOR UPDATE SKIP LOCKED` leaves out rows that a concurrent statement has locked,
when there can be one. -/
def MayBeLocked (b : Backend) (concurrent : Bool) (locked : List String) : Prop :=
  concurrent = false ∨ b = .sqlite → locked = []

/-- A dispatched trigger creates a run. -/
def houseStepAt (now : Int) (w : QueueWorld) : (op : HouseOp) → HouseAns op → QueueWorld → Prop
  | .countInflightRuns, count, w' =>
    count = w.runs.rows.countP (fun row => row.status = .queued ∨ row.status = .running) ∧
      w' = { w with clock := now }
  | .dispatchNextDueTrigger _, some dispatched, w' =>
    ∃ row, row.id = dispatched.runId ∧ row.IsNew ∧
      ∃ hnew, w' = { w with clock := now, runs := w.runs.insert row hnew }
  | _, _, w' => w' = { w with clock := now }

/-- A statement at the time `now`.  One that ends a run or appends an event can fail, and
may then have taken effect before the connection was lost. -/
def queueStepAt (b : Backend) (concurrent : Bool) (now : Int) (w : QueueWorld) :
    (op : QueueOp) → QueueAns op → QueueWorld → Prop
  | .clientClock, _, w' => w' = { w with clock := now }
  | .selectCandidates limit, candidates, w' =>
    (∃ locked, MayBeLocked b concurrent locked ∧
      candidates = ((claimQueue b now w.runs).filter (!locked.contains ·.id)).take limit) ∧
    w' = { w with clock := now }
  | .countRunning workerId, count, w' =>
    count = w.runs.running ∧ w' = { w with clock := now, log := w.log ++ [.counted workerId] }
  | .countTenantRunning tenantId, count, w' =>
    count = w.runs.tenantRunning tenantId ∧ w' = { w with clock := now }
  | .claimRun runId workerId clientNow leaseMs, claimed, w' =>
    let u := claimUpdate b now runId workerId clientNow leaseMs
    claimed = (w.runs.rows.find? u.selects).map u.change ∧
      w' = w.update now u [.claimed workerId runId]
  | .selectRun runId, found, w' =>
    found = Table.find (·.id) w.runs.rows runId ∧ w' = { w with clock := now }
  | .renewRunLease runId workerId clientNow leaseMs, renewed, w' =>
    let u := renewUpdate b now runId workerId clientNow leaseMs
    renewed = w.runs.affected u ∧ w' = w.update now u []
  | .finishRun runId workerId clientNow status errorJson, .ok moved, w' =>
    let u := finishUpdate b now runId workerId clientNow status errorJson
    moved = w.runs.affected u ∧ w' = w.update now u [.finished workerId runId status]
  | .finishRun runId workerId clientNow status errorJson, .error _, w' =>
    let u := finishUpdate b now runId workerId clientNow status errorJson
    w' = { w with clock := now } ∨ w' = w.update now u [.finished workerId runId status]
  | .requeueExpiredRuns limit, requeued, w' =>
    ∃ locked, MayBeLocked b concurrent locked ∧
      requeued = (expiredRuns b now locked limit w.runs).length ∧
      w' = w.update now (requeueUpdate ((expiredRuns b now locked limit w.runs).map (·.id))) []
  | .createRun row, _, w' =>
    row.IsNew ∧ ∃ hnew, w' = { w with clock := now, runs := w.runs.insert row hnew }
  | .housekeeping op, answer, w' => houseStepAt now w op answer w'
  | .processClaimedRun workerId run, _, w' =>
    ∃ events : List AuditEvent, (∀ event ∈ events, run.MayAppend event) ∧
      w' = { w with
        clock := now
        log := w.log ++ events.map fun event => .audited workerId event.runId event.eventType }
  | .appendAuditEvent workerId event, .ok (), w' => w' = w.audit now workerId event
  | .appendAuditEvent workerId event, .error _, w' =>
    w' = { w with clock := now } ∨ w' = w.audit now workerId event

/-- The clock does not go back. -/
def queueStep (b : Backend) (concurrent : Bool) (w : QueueWorld) (op : QueueOp)
    (answer : QueueAns op) (w' : QueueWorld) : Prop :=
  ∃ now, w.clock ≤ now ∧ queueStepAt b concurrent now w op answer w'

def queueHandler (b : Backend) (concurrent : Bool) : Handler QueueOp QueueAns QueueWorld :=
  ⟨queueStep b concurrent⟩

/-! ## What a statement can do -/

/-- What a statement notes that changes no row. -/
def QueueOp.Notes : QueueOp → QueueEvent → Prop
  | .countRunning workerId, e => e = .counted workerId
  | .processClaimedRun workerId run, e =>
    ∃ event, run.MayAppend event ∧ e = .audited workerId event.runId event.eventType
  | .appendAuditEvent workerId event, e => e = .audited workerId event.runId event.eventType
  | _, _ => False

/-- Such an event is a count or an audit event. -/
theorem QueueOp.Notes.cases {op : QueueOp} {e : QueueEvent} (h : op.Notes e) :
    (∃ workerId, op = .countRunning workerId ∧ e = .counted workerId) ∨
      ∃ workerId runId eventType, e = .audited workerId runId eventType := by
  cases op with
  | countRunning workerId => exact .inl ⟨workerId, rfl, h⟩
  | processClaimedRun workerId run =>
    obtain ⟨event, _, rfl⟩ := h
    exact .inr ⟨_, _, _, rfl⟩
  | appendAuditEvent workerId event => exact .inr ⟨_, _, _, h⟩
  | _ => exact h.elim

inductive QueueEffect (b : Backend) (w : QueueWorld) (now : Int) (op : QueueOp) :
    QueueWorld → Prop
  | noted (events : List QueueEvent) (hnotes : ∀ e ∈ events, op.Notes e) :
      QueueEffect b w now op { w with clock := now, log := w.log ++ events }
  | created (row : RunRow) (hrow : row.IsNew) (hnew : row.id ∉ w.runs.rows.map (·.id)) :
      QueueEffect b w now op { w with clock := now, runs := w.runs.insert row hnew }
  | claimed (runId workerId : String) (clientNow : Option Int) (leaseMs : Int)
      (hop : op = .claimRun runId workerId clientNow leaseMs) :
      QueueEffect b w now op
        (w.update now (claimUpdate b now runId workerId clientNow leaseMs)
          [.claimed workerId runId])
  | renewed (runId workerId : String) (clientNow : Option Int) (leaseMs : Int)
      (hop : op = .renewRunLease runId workerId clientNow leaseMs) :
      QueueEffect b w now op
        (w.update now (renewUpdate b now runId workerId clientNow leaseMs) [])
  | finished (runId workerId : String) (clientNow : Option Int) (status : FinalStatus)
      (errorJson : Option Json) (hop : op = .finishRun runId workerId clientNow status errorJson) :
      QueueEffect b w now op
        (w.update now (finishUpdate b now runId workerId clientNow status errorJson)
          [.finished workerId runId status])
  | requeued (locked : List String) (limit : Int) (hop : op = .requeueExpiredRuns limit) :
      QueueEffect b w now op
        (w.update now (requeueUpdate ((expiredRuns b now locked limit w.runs).map (·.id))) [])

theorem QueueEffect.quiet {b : Backend} {w : QueueWorld} {now : Int} {op : QueueOp} :
    QueueEffect b w now op { w with clock := now } := by
  have h : QueueEffect b w now op { w with clock := now, log := w.log ++ [] } := .noted [] nofun
  rwa [List.append_nil] at h

theorem effect_of_house {b : Backend} {w w' : QueueWorld} {now : Int} {op : HouseOp}
    {answer : HouseAns op} (hstep : houseStepAt now w op answer w') :
    QueueEffect b w now (.housekeeping op) w' := by
  cases op with
  | compactMemoryRecords => exact hstep ▸ .quiet
  | processComplianceSiemDeliveryOutbox => exact hstep ▸ .quiet
  | countInflightRuns => exact hstep.2 ▸ .quiet
  | tryAcquireSchedulerLease leaseOwner => exact hstep ▸ .quiet
  | dispatchNextDueTrigger tenantMaxInflightRuns =>
    cases answer with
    | none => exact hstep ▸ .quiet
    | some dispatched =>
      obtain ⟨row, _, hrow, hnew, rfl⟩ := hstep
      exact .created row hrow hnew

/-- Everything a statement can do. -/
theorem effect_of_step {b : Backend} {concurrent : Bool} {w w' : QueueWorld} {op : QueueOp}
    {answer : QueueAns op} (hstep : queueStep b concurrent w op answer w') :
    ∃ now, w.clock ≤ now ∧ QueueEffect b w now op w' := by
  obtain ⟨now, hclock, hstep⟩ := hstep
  refine ⟨now, hclock, ?_⟩
  cases op with
  | clientClock => exact hstep ▸ .quiet
  | selectCandidates limit => exact hstep.2 ▸ .quiet
  | countRunning workerId =>
    obtain ⟨_, rfl⟩ := hstep
    exact .noted [.counted workerId] fun e he => List.mem_singleton.mp he
  | countTenantRunning tenantId => exact hstep.2 ▸ .quiet
  | claimRun runId workerId clientNow leaseMs => exact hstep.2 ▸ .claimed _ _ _ _ rfl
  | selectRun runId => exact hstep.2 ▸ .quiet
  | renewRunLease runId workerId clientNow leaseMs => exact hstep.2 ▸ .renewed _ _ _ _ rfl
  | finishRun runId workerId clientNow status errorJson =>
    cases answer with
    | ok moved => exact hstep.2 ▸ .finished _ _ _ _ _ rfl
    | error message =>
      rcases hstep with rfl | rfl
      · exact .quiet
      · exact .finished _ _ _ _ _ rfl
  | requeueExpiredRuns limit =>
    obtain ⟨locked, _, _, rfl⟩ := hstep
    exact .requeued locked limit rfl
  | createRun row =>
    obtain ⟨hrow, hnew, rfl⟩ := hstep
    exact .created row hrow hnew
  | housekeeping op => exact effect_of_house hstep
  | processClaimedRun workerId run =>
    obtain ⟨events, hevents, rfl⟩ := hstep
    refine .noted _ fun e he => ?_
    obtain ⟨event, hmem, rfl⟩ := List.mem_map.mp he
    exact ⟨event, hevents event hmem, rfl⟩
  | appendAuditEvent workerId event =>
    have hnoted : QueueEffect b w now (.appendAuditEvent workerId event)
        (w.audit now workerId event) := .noted [_] fun e he => List.mem_singleton.mp he
    cases answer with
    | ok => exact hstep ▸ hnoted
    | error message =>
      rcases hstep with rfl | rfl
      · exact .quiet
      · exact hnoted

theorem QueueWorld.update_log (w : QueueWorld) (now : Int) (u : RunUpdate)
    (events : List QueueEvent) :
    (w.update now u events).log = w.log ∨
      w.runs.affected u = true ∧ (w.update now u events).log = w.log ++ events := by
  by_cases haff : w.runs.affected u = true
  · refine .inr ⟨haff, ?_⟩
    show w.log ++ (if _ then _ else _) = _
    rw [if_pos haff]
  · refine .inl ?_
    show w.log ++ (if _ then _ else _) = _
    rw [if_neg haff, List.append_nil]

/-- What an update notes if it takes effect. -/
def QueueOp.Moves : QueueOp → QueueEvent → Prop
  | .claimRun runId workerId _ _, e => e = .claimed workerId runId
  | .finishRun runId workerId _ status _, e => e = .finished workerId runId status
  | _, _ => False

/-- The log grows by the statement's own events. -/
theorem log_step {b : Backend} {concurrent : Bool} {w w' : QueueWorld} {op : QueueOp}
    {answer : QueueAns op} (hstep : queueStep b concurrent w op answer w') :
    ∃ events, w'.log = w.log ++ events ∧ ∀ e ∈ events, op.Notes e ∨ op.Moves e := by
  obtain ⟨now, _, heffect⟩ := effect_of_step hstep
  have hupdate : ∀ {u events}, (∀ e ∈ events, op.Notes e ∨ op.Moves e) →
      ∃ events', (w.update now u events).log = w.log ++ events' ∧
        ∀ e ∈ events', op.Notes e ∨ op.Moves e := by
    intro u events hevents
    rcases w.update_log now u events with hsame | ⟨_, hlog⟩
    · exact ⟨[], hsame.trans (List.append_nil _).symm, nofun⟩
    · exact ⟨events, hlog, hevents⟩
  cases heffect with
  | noted events hnotes => exact ⟨events, rfl, fun e he => .inl (hnotes e he)⟩
  | created row hrow hnew => exact ⟨[], (List.append_nil _).symm, nofun⟩
  | claimed runId workerId clientNow leaseMs hop =>
    subst hop
    exact hupdate fun e he => .inr (List.mem_singleton.mp he)
  | renewed runId workerId clientNow leaseMs hop => exact hupdate nofun
  | finished runId workerId clientNow status errorJson hop =>
    subst hop
    exact hupdate fun e he => .inr (List.mem_singleton.mp he)
  | requeued locked limit hop => exact hupdate nofun

end Runs
end SecureAgnt

/-
The retention policy of the compliance audit plane.

An owner changes a tenant's policy and purges what it lets go.  Both handlers read the
policy in one statement and act on it in a later one, so the statements of other calls
come between.  A call that fails may have had its effect.

Times are microseconds since the epoch.
-/
import SecureAgnt.Api.Gate
import SecureAgnt.Compliance.Chain
import SecureAgnt.Lib.Run
import SecureAgnt.Storage

namespace SecureAgnt
namespace Compliance

open Api (ApiError ApiResult AppState HeaderMap tenantFromHeaders roleFromHeaders
  ensureOwnerRole ensureUsageQueryRole)
open Storage (Backend)

variable {J : Type}

structure ComplianceAuditPolicyRecord where
  tenantId : String
  complianceHotRetentionDays : Int
  complianceArchiveRetentionDays : Int
  legalHold : Bool
  legalHoldReason : Option String
  updatedAt : Option Int
  deriving DecidableEq

/-- What is read for a tenant without a row. -/
def ComplianceAuditPolicyRecord.default (tenantId : String) : ComplianceAuditPolicyRecord :=
  ⟨tenantId, 180, 2555, false, none, none⟩

structure UpdateComplianceAuditPolicyRequest where
  complianceHotRetentionDays : Option Int
  complianceArchiveRetentionDays : Option Int
  legalHold : Option Bool
  legalHoldReason : Option String

/-! ## The handlers -/

inductive RetentionOp (J : Type) where
  | nowUtc
  | getPolicy (tenantId : String)
  | upsertPolicy (tenantId : String) (hotDays archiveDays : Int) (legalHold : Bool)
      (legalHoldReason : Option String)
  | deleteBefore (tenantId : String) (cutoffAt : Int)
  | insertAuditEvent (event : AuditEvent J)

abbrev RetentionOp.Ans : RetentionOp J → Type
  | .nowUtc => Int
  | .getPolicy .. => Except String ComplianceAuditPolicyRecord
  | .upsertPolicy .. => Except String ComplianceAuditPolicyRecord
  | .deleteBefore .. => Except String Nat
  | .insertAuditEvent .. => Except String Unit

inductive RequestFailure where
  | rejected (error : ApiError)
  | panicked (message : String)

abbrev RetentionProg (J α : Type) := Prog (RetentionOp J) RetentionOp.Ans RequestFailure α

/-- A check that reads no table. -/
def gated {α : Type} (check : ApiResult α) : RetentionProg J α :=
  Prog.ofExcept (check.mapError .rejected)

/-- The answer of a statement, whose error is reported after a text of the handler. -/
def reported {α : Type} (context : String) (answer : Except String α) : RetentionProg J α :=
  gated (answer.mapError fun err => .internal (context ++ err))

def getTenantComplianceAuditPolicy (context tenantId : String) :
    RetentionProg J ComplianceAuditPolicyRecord := do
  let answer ← Prog.perform (RetentionOp.getPolicy tenantId)
  reported context answer

def upsertTenantComplianceAuditPolicy (tenantId : String) (hotDays archiveDays : Int)
    (legalHold : Bool) (legalHoldReason : Option String) :
    RetentionProg J ComplianceAuditPolicyRecord := do
  let answer ← Prog.perform
    (RetentionOp.upsertPolicy tenantId hotDays archiveDays legalHold legalHoldReason)
  reported "failed updating compliance policy: " answer

/-- The handlers of both back ends, which differ in the name of the function that reads. -/
def getComplianceAuditPolicyHandler (b : Backend) (state : AppState) (headers : HeaderMap) :
    RetentionProg J ComplianceAuditPolicyRecord := do
  let tenantId ← gated (tenantFromHeaders headers)
  let rolePreset ← gated (roleFromHeaders state headers)
  let _ ← gated (ensureUsageQueryRole rolePreset)
  match b with
  | .postgres => getTenantComplianceAuditPolicy "failed fetching compliance policy: " tenantId
  | .sqlite => getTenantComplianceAuditPolicy "failed loading compliance policy: " tenantId

def checkRetentionDays (hotDays archiveDays : Int) : ApiResult Unit :=
  if hotDays ≤ 0 then
    .error (.badRequest "compliance_hot_retention_days must be greater than zero")
  else if archiveDays ≤ 0 then
    .error (.badRequest "compliance_archive_retention_days must be greater than zero")
  else if archiveDays < hotDays then
    .error (.badRequest
      "compliance_archive_retention_days must be >= compliance_hot_retention_days")
  else .ok ()

/-- What the request leaves out is taken from the policy as it was read; a reason is not. -/
def putComplianceAuditPolicyHandler (state : AppState) (headers : HeaderMap)
    (req : UpdateComplianceAuditPolicyRequest) : RetentionProg J ComplianceAuditPolicyRecord := do
  let tenantId ← gated (tenantFromHeaders headers)
  let rolePreset ← gated (roleFromHeaders state headers)
  let _ ← gated (ensureOwnerRole rolePreset "only owner can update compliance policy")
  let existing ← getTenantComplianceAuditPolicy "failed loading compliance policy: " tenantId
  let hotDays := req.complianceHotRetentionDays.getD existing.complianceHotRetentionDays
  let archiveDays :=
    req.complianceArchiveRetentionDays.getD existing.complianceArchiveRetentionDays
  let legalHold := req.legalHold.getD existing.legalHold
  let legalHoldReason :=
    (req.legalHoldReason.map Text.trim).filter fun value => !Text.isEmpty value
  let _ ← gated (checkRetentionDays hotDays archiveDays)
  upsertTenantComplianceAuditPolicy tenantId hotDays archiveDays legalHold legalHoldReason

def purgeOutcome (policy : ComplianceAuditPolicyRecord) (cutoffAt : Int) (legalHold : Bool)
    (deletedCount : Nat) : PurgeOutcome where
  tenantId := policy.tenantId
  deletedCount := deletedCount
  legalHold := legalHold
  cutoffAt := cutoffAt
  complianceHotRetentionDays := policy.complianceHotRetentionDays
  complianceArchiveRetentionDays := policy.complianceArchiveRetentionDays

def ComplianceAuditPolicyRecord.cutoff (policy : ComplianceAuditPolicyRecord) (asOf : Int) : Int :=
  asOf - policy.complianceHotRetentionDays * day

/-- The first instant of a `timestamptz`, in 4714 BC. -/
def earliestTimestamptz : Int := -210866803200 * 10 ^ 6

/-- The first instant of an `OffsetDateTime`, in the year -9999. -/
def earliestOffsetDateTime : Int := -377705116800 * 10 ^ 6

/-- The first instant that `Rfc3339` writes, in the year 0. -/
def earliestRfc3339 : Int := -62167219200 * 10 ^ 6

/-- The SQL function of this name; its two statements each see what has been committed
when they start, and an error of either undoes it as a whole. -/
def purgeExpiredTenantComplianceAuditEvents (tenantId : String) (asOf : Int) :
    RetentionProg J PurgeOutcome := do
  let policy ← getTenantComplianceAuditPolicy purgeFailed tenantId
  let cutoffAt := policy.cutoff asOf
  let _ ← reported purgeFailed
    (if cutoffAt < earliestTimestamptz then .error "timestamp out of range" else .ok ())
  if policy.legalHold then .pure (purgeOutcome policy cutoffAt true 0)
  else do
    let answer ← Prog.perform (RetentionOp.deleteBefore tenantId cutoffAt)
    let deletedCount ← reported purgeFailed answer
    .pure (purgeOutcome policy cutoffAt false deletedCount)
where
  purgeFailed : String := "failed purging expired compliance audit events: "

def purgeSqlite (tenantId : String) : RetentionProg J PurgeOutcome := do
  let policy ← getTenantComplianceAuditPolicy "failed loading compliance policy: " tenantId
  let now ← Prog.perform RetentionOp.nowUtc
  let cutoffAt := policy.cutoff now
  if cutoffAt < earliestOffsetDateTime then
    .fail (.panicked "resulting value is out of range")
  else if policy.legalHold then .pure (purgeOutcome policy cutoffAt true 0)
  else do
    let _ ← reported "failed formatting compliance purge cutoff timestamp: "
      (if cutoffAt < earliestRfc3339 then
        .error "The year component cannot be formatted into the requested format."
      else .ok ())
    let answer ← Prog.perform (RetentionOp.deleteBefore tenantId cutoffAt)
    let deletedCount ← reported "failed purging expired compliance audit events: " answer
    .pure (purgeOutcome policy cutoffAt false deletedCount)

def postComplianceAuditPurgeHandler (b : Backend) (state : AppState) (headers : HeaderMap) :
    RetentionProg J PurgeOutcome := do
  let tenantId ← gated (tenantFromHeaders headers)
  let rolePreset ← gated (roleFromHeaders state headers)
  let _ ← gated (ensureOwnerRole rolePreset "only owner can purge compliance audit data")
  match b with
  | .postgres => do
    let now ← Prog.perform RetentionOp.nowUtc
    purgeExpiredTenantComplianceAuditEvents tenantId now
  | .sqlite => purgeSqlite tenantId

/-! ## Calls -/

/-- A request to the API, or an event that the worker or the API puts on the audit plane. -/
inductive RetentionCall (J : Type) where
  | getPolicy (headers : HeaderMap)
  | putPolicy (headers : HeaderMap) (req : UpdateComplianceAuditPolicyRequest)
  | purge (headers : HeaderMap)
  | audit (event : AuditEvent J)

inductive RetentionAnswer where
  | policy (record : ComplianceAuditPolicyRecord)
  | purged (outcome : PurgeOutcome)
  | recorded

def RetentionCall.program (b : Backend) (state : AppState) :
    RetentionCall J → RetentionProg J RetentionAnswer
  | .getPolicy headers => do
    let record ← getComplianceAuditPolicyHandler b state headers
    .pure (.policy record)
  | .putPolicy headers req => do
    let record ← putComplianceAuditPolicyHandler state headers req
    .pure (.policy record)
  | .purge headers => do
    let outcome ← postComplianceAuditPurgeHandler b state headers
    .pure (.purged outcome)
  | .audit event => do
    let answer ← Prog.perform (RetentionOp.insertAuditEvent event)
    let _ ← reported "failed appending audit event: " answer
    .pure .recorded

/-! ## The tables -/

/-- `compliance_audit_events`, and what `compliance_audit_policies` has held for each tenant,
the newest first. -/
structure RetentionWorld (J : Type) where
  clock : Int
  events : List (ComplianceEvent J)
  policies : String → List ComplianceAuditPolicyRecord

/-- The policy in force. -/
def RetentionWorld.policy (w : RetentionWorld J) (tenantId : String) :
    ComplianceAuditPolicyRecord :=
  (w.policies tenantId).headD (.default tenantId)

def RetentionWorld.setPolicy (w : RetentionWorld J) (tenantId : String)
    (row : ComplianceAuditPolicyRecord) : RetentionWorld J :=
  { w with policies := Function.update w.policies tenantId (row :: w.policies tenantId) }

/-- The table's own checks; that of SQLite does not compare the two. -/
def allowsDays : Backend → Int → Int → Bool
  | .postgres, hotDays, archiveDays => 0 < hotDays && 0 < archiveDays && hotDays ≤ archiveDays
  | .sqlite, hotDays, archiveDays => 0 < hotDays && 0 < archiveDays

/-- What the `DELETE` compares: instants, or on SQLite whole seconds. -/
def isOlder : Backend → Int → Int → Bool
  | .postgres, createdAt, cutoffAt => createdAt < cutoffAt
  | .sqlite, createdAt, cutoffAt => createdAt / 10 ^ 6 < cutoffAt / 10 ^ 6

def isDeleted (b : Backend) (tenantId : String) (cutoffAt : Int) (row : ComplianceEvent J) : Bool :=
  decide (row.tenantId = tenantId) && isOlder b row.createdAt cutoffAt

/-- `now()`; SQLite's `CURRENT_TIMESTAMP` is in whole seconds. -/
def stamped : Backend → Int → Int
  | .postgres, now => now
  | .sqlite, now => now / 10 ^ 6 * 10 ^ 6

/-- The trigger on `audit_events`, which only Postgres has. -/
def routed (b : Backend) (pg : Postgres J) (events : List (ComplianceEvent J)) (e : AuditEvent J) :
    List (ComplianceEvent J) :=
  match b with
  | .postgres => routeAuditEventToCompliance pg events e
  | .sqlite => events

/-- A statement that can be lost, or whose answer can. -/
def settles {α σ : Type} (effect : α → σ → Prop) (s : σ) : Except String α → σ → Prop
  | .ok result, s' => effect result s'
  | .error _, s' => s' = s ∨ ∃ result, effect result s'

def retentionStep (b : Backend) (pg : Postgres J) (w : RetentionWorld J) :
    (op : RetentionOp J) → op.Ans → RetentionWorld J → Prop
  | .nowUtc, now, w' => now = w.clock ∧ w' = w
  | .getPolicy tenantId, answer, w' =>
    settles (fun record w' => record = { w.policy tenantId with tenantId := tenantId } ∧ w' = w)
      w answer w'
  | .upsertPolicy tenantId hotDays archiveDays legalHold reason, answer, w' =>
    settles (fun record w' => allowsDays b hotDays archiveDays = true ∧
      record = ⟨tenantId, hotDays, archiveDays, legalHold, reason, some (stamped b w.clock)⟩ ∧
      w' = w.setPolicy tenantId record) w answer w'
  | .deleteBefore tenantId cutoffAt, answer, w' =>
    settles (fun deletedCount w' =>
      deletedCount = w.events.countP (isDeleted b tenantId cutoffAt) ∧
      w' = { w with events := w.events.filter fun row => !isDeleted b tenantId cutoffAt row })
      w answer w'
  | .insertAuditEvent e, answer, w' =>
    settles (fun _ w' => w' = { w with events := routed b pg w.events e }) w answer w'

/-- Time passes before a call takes effect. -/
def retentionHandler (b : Backend) (pg : Postgres J) :
    Handler (RetentionOp J) RetentionOp.Ans (RetentionWorld J) where
  step w op answer w' := ∃ now, w.clock ≤ now ∧
    retentionStep b pg { w with clock := now } op answer w'

end Compliance
end SecureAgnt

/-
The delivery of compliance exports: the outbox table, its statements on both back
ends, and the worker's pass over it.

A worker claims a batch of records, which moves them to `processing` under a lease,
attempts each and marks it delivered, failed or dead-lettered.  A statement is one call
of a `Prog` and takes effect at once; any of them can end in a database error, before
or after its effect.  The world keeps, beside the table, the claims that have not been
marked and a log of claims, marks and requeues.
-/
import SecureAgnt.Compliance.Chain
import SecureAgnt.Lib.Fallible
import SecureAgnt.Lib.Log
import SecureAgnt.Lib.Table
import SecureAgnt.Storage

namespace SecureAgnt
namespace Compliance

open Storage

/-! ## Records -/

inductive DeliveryStatus where
  | pending
  | processing
  | failed
  | delivered
  | deadLettered
  deriving DecidableEq, Repr

structure DeliveryRecord where
  id : Uuid
  tenantId : String
  runId : Option Uuid
  adapter : String
  deliveryTarget : String
  contentType : String
  payloadNdjson : String
  status : DeliveryStatus
  attempts : Int
  maxAttempts : Int
  nextAttemptAt : Int
  leasedBy : Option String
  leaseExpiresAt : Option Int
  lastError : Option String
  lastHttpStatus : Option Int
  createdAt : Int
  updatedAt : Int
  deliveredAt : Option Int

/-- The table with its key and the check on `max_attempts`. -/
structure Outbox where
  rows : List DeliveryRecord
  keys : (rows.map (·.id)).Nodup
  checks : ∀ row ∈ rows, 1 ≤ row.maxAttempts

/-- The `SET` of an update. -/
structure DeliveryChange where
  change : DeliveryRecord → DeliveryRecord
  keeps_id : ∀ row, (change row).id = row.id
  keeps_max : ∀ row, (change row).maxAttempts = row.maxAttempts

def DeliveryChange.row (u : DeliveryChange) (id : Uuid) (row : DeliveryRecord) : DeliveryRecord :=
  if row.id = id then u.change row else row

theorem DeliveryChange.row_id (u : DeliveryChange) (id : Uuid) (row : DeliveryRecord) :
    (u.row id row).id = row.id := by
  unfold DeliveryChange.row
  split
  · exact u.keeps_id row
  · rfl

theorem DeliveryChange.row_max (u : DeliveryChange) (id : Uuid) (row : DeliveryRecord) :
    (u.row id row).maxAttempts = row.maxAttempts := by
  unfold DeliveryChange.row
  split
  · exact u.keeps_max row
  · rfl

theorem DeliveryChange.map_row_id (u : DeliveryChange) (id : Uuid) (rows : List DeliveryRecord) :
    (rows.map (u.row id)).map (·.id) = rows.map (·.id) := by
  rw [List.map_map]
  apply List.map_congr_left
  intro row _
  exact u.row_id id row

/-- `UPDATE .. WHERE id = ..`. -/
def Outbox.update (t : Outbox) (id : Uuid) (u : DeliveryChange) : Outbox where
  rows := t.rows.map (u.row id)
  keys := by
    rw [u.map_row_id]
    exact t.keys
  checks := by
    intro row hrow
    obtain ⟨before, hbefore, rfl⟩ := List.mem_map.mp hrow
    rw [u.row_max]
    exact t.checks before hbefore

def Outbox.insert (t : Outbox) (row : DeliveryRecord) (hnew : row.id ∉ t.rows.map (·.id))
    (hmax : 1 ≤ row.maxAttempts) : Outbox where
  rows := t.rows ++ [row]
  keys := Table.nodup_append_row t.keys hnew
  checks := by
    intro row' hrow
    rcases List.mem_append.mp hrow with hrow | hrow
    · exact t.checks row' hrow
    · rw [List.mem_singleton.mp hrow]
      exact hmax

/-! ## Statements -/

/-- The `WHERE` of a claim. -/
def DeliveryRecord.isClaimable (b : Backend) (now : Int) (row : DeliveryRecord) : Bool :=
  (row.status = .pending || row.status = .failed) &&
    decide (b.stamp row.nextAttemptAt ≤ b.stamp now) &&
    row.leaseExpiresAt.all fun expires => b.stamp expires ≤ b.stamp now

/-- `ORDER BY next_attempt_at ASC, created_at ASC, id ASC`. -/
def DeliveryRecord.precedes (b : Backend) (row row' : DeliveryRecord) : Prop :=
  b.stamp row.nextAttemptAt < b.stamp row'.nextAttemptAt ∨
    b.stamp row.nextAttemptAt = b.stamp row'.nextAttemptAt ∧
      (b.stamp row.createdAt < b.stamp row'.createdAt ∨
        b.stamp row.createdAt = b.stamp row'.createdAt ∧ row.id.text ≤ row'.id.text)

instance (b : Backend) : DecidableRel (DeliveryRecord.precedes b) := fun row row' =>
  inferInstanceAs (Decidable (b.stamp row.nextAttemptAt < b.stamp row'.nextAttemptAt ∨
    b.stamp row.nextAttemptAt = b.stamp row'.nextAttemptAt ∧
      (b.stamp row.createdAt < b.stamp row'.createdAt ∨
        b.stamp row.createdAt = b.stamp row'.createdAt ∧ row.id.text ≤ row'.id.text)))

/-- `limit.clamp(1, 100)`. -/
def clampLimit (limit : Int) : Nat := (min (max limit 1) 100).toNat

/-- The records that a claim finds, those locked by other statements left out. -/
def pendingIds (b : Backend) (now : Int) (locked : List Uuid) (limit : Int) (t : Outbox) :
    List Uuid :=
  (((t.rows.filter fun row => row.isClaimable b now && !locked.contains row.id).insertionSort
    (DeliveryRecord.precedes b)).take (clampLimit limit)).map (·.id)

def claimChange (leaseOwner : String) (expires now : Int) : DeliveryChange where
  change := fun row => { row with
    status := .processing
    leasedBy := some leaseOwner
    leaseExpiresAt := some expires
    updatedAt := now }
  keeps_id := fun _ => rfl
  keeps_max := fun _ => rfl

/-- How a mark leaves a record. -/
inductive DeliveryMark where
  | delivered
  | failed
  | deadLettered
  deriving DecidableEq, Repr

def DeliveryMark.status : DeliveryMark → DeliveryStatus
  | .delivered => .delivered
  | .failed => .failed
  | .deadLettered => .deadLettered

/-- A change that marks the end of an attempt. -/
structure MarkChange extends DeliveryChange where
  outcome : DeliveryRecord → DeliveryMark
  status_eq : ∀ row, (change row).status = (outcome row).status

def deliveredChange (httpStatus : Option Int) (now : Int) : MarkChange where
  change := fun row => { row with
    status := .delivered
    attempts := row.attempts + 1
    lastError := none
    lastHttpStatus := httpStatus
    leasedBy := none
    leaseExpiresAt := none
    deliveredAt := some now
    updatedAt := now }
  keeps_id := fun _ => rfl
  keeps_max := fun _ => rfl
  outcome := fun _ => .delivered
  status_eq := fun _ => rfl

/-- The last attempt that is allowed dead-letters the record. -/
def failedChange (error : String) (httpStatus : Option Int) (retryAt now : Int) :
    MarkChange where
  change := fun row => { row with
    attempts := row.attempts + 1
    status := if row.attempts + 1 ≥ row.maxAttempts then .deadLettered else .failed
    lastError := some error
    lastHttpStatus := httpStatus
    leasedBy := none
    leaseExpiresAt := none
    nextAttemptAt := if row.attempts + 1 ≥ row.maxAttempts then now else retryAt
    updatedAt := now }
  keeps_id := fun _ => rfl
  keeps_max := fun _ => rfl
  outcome := fun row => if row.attempts + 1 ≥ row.maxAttempts then .deadLettered else .failed
  status_eq := by
    intro row
    by_cases h : row.attempts + 1 ≥ row.maxAttempts <;> simp [h, DeliveryMark.status]

def deadLetteredChange (error : String) (httpStatus : Option Int) (now : Int) :
    MarkChange where
  change := fun row => { row with
    attempts := row.attempts + 1
    status := .deadLettered
    lastError := some error
    lastHttpStatus := httpStatus
    leasedBy := none
    leaseExpiresAt := none
    nextAttemptAt := now
    updatedAt := now }
  keeps_id := fun _ => rfl
  keeps_max := fun _ => rfl
  outcome := fun _ => .deadLettered
  status_eq := fun _ => rfl

def requeueChange (retryAt now : Int) : DeliveryChange where
  change := fun row => { row with
    status := .pending
    attempts := 0
    nextAttemptAt := retryAt
    leasedBy := none
    leaseExpiresAt := none
    lastError := none
    lastHttpStatus := none
    updatedAt := now }
  keeps_id := fun _ => rfl
  keeps_max := fun _ => rfl

structure NewDeliveryRecord where
  id : Uuid
  tenantId : String
  runId : Option Uuid
  adapter : String
  deliveryTarget : String
  contentType : String
  payloadNdjson : String
  maxAttempts : Int

/-- The row of an insert; the API bounds `max_attempts` by 20 on SQLite. -/
def NewDeliveryRecord.row (b : Backend) (new : NewDeliveryRecord) (now : Int) : DeliveryRecord where
  id := new.id
  tenantId := new.tenantId
  runId := new.runId
  adapter := new.adapter
  deliveryTarget := new.deliveryTarget
  contentType := new.contentType
  payloadNdjson := new.payloadNdjson
  status := .pending
  attempts := 0
  maxAttempts := match b with
    | .postgres => min (max new.maxAttempts 1) 100
    | .sqlite => min (max new.maxAttempts 1) 20
  nextAttemptAt := now
  leasedBy := none
  leaseExpiresAt := none
  lastError := none
  lastHttpStatus := none
  createdAt := now
  updatedAt := now
  deliveredAt := none

theorem NewDeliveryRecord.one_le_max (b : Backend) (new : NewDeliveryRecord) (now : Int) :
    1 ≤ (new.row b now).maxAttempts := by
  cases b with
  | postgres =>
    show 1 ≤ min (max new.maxAttempts 1) 100
    omega
  | sqlite =>
    show 1 ≤ min (max new.maxAttempts 1) 20
    omega

/-! ## Calls -/

/-- A delivery over HTTP: an answer with its status and body, or an error. -/
inductive HttpOutcome where
  | response (status : Nat) (body : String)
  | error (message : String)

inductive DeliveryOp where
  | clientClock
  | claimPending (leaseOwner : String) (leaseMs limit : Int)
  | selectCandidates (limit : Int)
  | claimCandidate (recordId : Uuid) (leaseOwner : String) (leaseExpiresAt : Int)
  | selectRecord (recordId : Uuid)
  | buildHttpClient
  | post (target contentType adapter : String) (auth : Option (String × String)) (body : String)
  | markDelivered (recordId : Uuid) (httpStatus : Option Int)
  | markFailed (recordId : Uuid) (error : String) (httpStatus : Option Int) (retryAt : Int)
  | markDeadLettered (recordId : Uuid) (error : String) (httpStatus : Option Int)
  | requeueDeadLetter (tenantId : String) (recordId : Uuid) (retryAt : Int)
  | create (new : NewDeliveryRecord)

abbrev DeliveryResult : DeliveryOp → Type
  | .clientClock => Int
  | .claimPending .. => List DeliveryRecord
  | .selectCandidates _ => List Uuid
  | .claimCandidate .. => Nat
  | .selectRecord _ => Option DeliveryRecord
  | .buildHttpClient => Unit
  | .post .. => HttpOutcome
  | .markDelivered .. => DeliveryRecord
  | .markFailed .. => DeliveryRecord
  | .markDeadLettered .. => DeliveryRecord
  | .requeueDeadLetter .. => Option DeliveryRecord
  | .create _ => DeliveryRecord

abbrev DeliveryProg := Prog DeliveryOp (Fallible DeliveryResult) String

def ask (op : DeliveryOp) : DeliveryProg (DeliveryResult op) := Prog.ask op

/-! ## The functions of the source -/

/-- The loop of the SQLite claim: candidates that others have taken are passed over. -/
def claimCandidates (leaseOwner : String) (leaseExpiresAt : Int) :
    List Uuid → DeliveryProg (List DeliveryRecord)
  | [] => .pure []
  | candidate :: candidates => do
    let affected ← ask (.claimCandidate candidate leaseOwner leaseExpiresAt)
    if (affected : Nat) ≠ 1 then claimCandidates leaseOwner leaseExpiresAt candidates
    else
      let found ← ask (.selectRecord candidate)
      match (found : Option DeliveryRecord) with
      | none => .fail "no rows returned by a query that expected to return at least one row"
      | some row => do
        let claimed ← claimCandidates leaseOwner leaseExpiresAt candidates
        .pure (row :: claimed)

def claimPendingComplianceSiemDeliveryRecords (b : Backend) (leaseOwner : String)
    (leaseMs limit : Int) : DeliveryProg (List DeliveryRecord) :=
  match b with
  | .postgres => ask (.claimPending leaseOwner leaseMs limit)
  | .sqlite => do
    let now ← ask .clientClock
    let candidates ← ask (.selectCandidates limit)
    claimCandidates leaseOwner ((now : Int) + leaseMs * 10 ^ 6) candidates

structure DeliveryConfig where
  workerId : String
  leaseMs : Int
  batchSize : Int
  httpEnabled : Bool
  httpAuthHeader : String
  httpAuthToken : Option String
  retryBackoffMs : Int
  retryJitterMaxMs : Int

inductive DeliveryAttempt where
  | delivered (httpStatus : Option Int)
  | failed (httpStatus : Option Int) (error : String) (retryable : Bool)

def isNonRetryableSiemHttpStatus (status : Nat) : Bool :=
  [400, 401, 403, 404, 405, 410, 422].contains status

def withOptionalAuthHeader (config : DeliveryConfig) : Option (String × String) :=
  match config.httpAuthToken.bind Text.nonEmptyTrimmed with
  | none => none
  | some rawToken =>
    if Text.eqIgnoreAsciiCase config.httpAuthHeader "authorization" ∧
        Text.startsWith (Text.toAsciiLowercase rawToken) "bearer " = false then
      some (config.httpAuthHeader, "Bearer " ++ rawToken)
    else some (config.httpAuthHeader, rawToken)

def attemptOf : HttpOutcome → DeliveryAttempt
  | .response status body =>
    if 200 ≤ status ∧ status < 300 then .delivered (some status)
    else
      let truncated := String.ofList (body.toList.take 512)
      .failed (some status)
        ("http delivery failed: status=" ++ toString status ++ " body=" ++ truncated)
        (!isNonRetryableSiemHttpStatus status)
  | .error message => .failed none ("http delivery request failed: " ++ message) true

inductive DeliveryTarget where
  | mockSuccess
  | mockFail
  | http
  | unsupported

@[irreducible] def deliveryTarget (target : String) : DeliveryTarget :=
  if Text.eqIgnoreAsciiCase target "mock://success" then .mockSuccess
  else if Text.eqIgnoreAsciiCase target "mock://fail" then .mockFail
  else if Text.startsWith target "http://" || Text.startsWith target "https://" then .http
  else .unsupported

def attemptAt (config : DeliveryConfig) (httpClient : Bool) (record : DeliveryRecord)
    (target : String) : DeliveryTarget → DeliveryProg DeliveryAttempt
  | .mockSuccess => .pure (.delivered (some 200))
  | .mockFail => .pure (.failed none "mock failure target" true)
  | .http =>
    if !config.httpEnabled then
      .pure (.failed none "HTTP delivery is disabled by WORKER_COMPLIANCE_SIEM_HTTP_ENABLED" false)
    else if !httpClient then .pure (.failed none "HTTP delivery client not configured" false)
    else do
      let outcome ← Prog.perform (DeliveryOp.post target record.contentType record.adapter
        (withOptionalAuthHeader config) record.payloadNdjson)
      match (outcome : Except String HttpOutcome) with
      | .ok outcome => .pure (attemptOf outcome)
      | .error message => .pure (attemptOf (.error message))
  | .unsupported => .pure (.failed none ("unsupported SIEM delivery target scheme: " ++ target) false)

def attemptComplianceSiemDelivery (config : DeliveryConfig) (httpClient : Bool)
    (record : DeliveryRecord) : DeliveryProg DeliveryAttempt :=
  let target := Text.trim record.deliveryTarget
  attemptAt config httpClient record target (deliveryTarget target)

def deterministicRetryJitterMs (recordId : Uuid) (attemptCount jitterMaxMs : Int) : Int :=
  if jitterMaxMs ≤ 0 then 0
  else
    let accum := recordId.bytes.foldl (fun accum byte => (accum * 131 + byte) % 2 ^ 64) 0
    let salted := (accum + (max attemptCount 0).toNat) % 2 ^ 64
    (salted % jitterMaxMs.toNat : Nat)

def i64Max : Int := 2 ^ 63 - 1

def markAttempt (config : DeliveryConfig) (record : DeliveryRecord) :
    DeliveryAttempt → DeliveryProg Unit
  | .delivered httpStatus => do
    let _ ← ask (.markDelivered record.id httpStatus)
  | .failed httpStatus error retryable =>
    if retryable then do
      let retryMs := min (max config.retryBackoffMs 1) i64Max
      let jitterMs := deterministicRetryJitterMs record.id record.attempts
        (min (max config.retryJitterMaxMs 0) i64Max)
      let now ← ask .clientClock
      let retryAt := (now : Int) + min (retryMs + jitterMs) i64Max * 10 ^ 6
      let _ ← ask (.markFailed record.id error httpStatus retryAt)
    else do
      let _ ← ask (.markDeadLettered record.id error httpStatus)

def deliverRecords (config : DeliveryConfig) (httpClient : Bool) :
    List DeliveryRecord → DeliveryProg Unit
  | [] => .pure ()
  | record :: records => do
    let attempt ← attemptComplianceSiemDelivery config httpClient record
    markAttempt config record attempt
    deliverRecords config httpClient records

def processComplianceSiemDeliveryOutbox (b : Backend) (config : DeliveryConfig) :
    DeliveryProg Unit := do
  let records ← claimPendingComplianceSiemDeliveryRecords b config.workerId config.leaseMs
    config.batchSize
  if records.isEmpty then .pure ()
  else if config.httpEnabled then do
    ask .buildHttpClient
    deliverRecords config true records
  else deliverRecords config false records

/-! ## The world -/

/-- One claim of one record; no two claims have the same number. -/
structure DeliveryClaim where
  worker : Nat
  record : Uuid
  number : Nat
  deriving DecidableEq

/-- A claim, the mark of a claim, and a requeue. -/
inductive DeliveryEvent where
  | claimed (claim : DeliveryClaim)
  | marked (claim : DeliveryClaim) (mark : DeliveryMark)
  | requeued (record : Uuid)

def DeliveryEvent.record : DeliveryEvent → Uuid
  | .claimed claim => claim.record
  | .marked claim _ => claim.record
  | .requeued record => record

structure DeliveryWorld where
  outbox : Outbox
  outstanding : List DeliveryClaim
  log : List DeliveryEvent
  issued : Nat

def DeliveryWorld.start : DeliveryWorld where
  outbox := ⟨[], List.nodup_nil, fun _ h => nomatch h⟩
  outstanding := []
  log := []
  issued := 0

def DeliveryWorld.find (w : DeliveryWorld) (id : Uuid) : Option DeliveryRecord :=
  Table.find (·.id) w.outbox.rows id

def DeliveryWorld.claim (w : DeliveryWorld) (worker : Nat) (u : DeliveryChange) (id : Uuid) :
    DeliveryWorld :=
  let claim := ⟨worker, id, w.issued⟩
  { outbox := w.outbox.update id u
    outstanding := w.outstanding ++ [claim]
    log := w.log ++ [.claimed claim]
    issued := w.issued + 1 }

def DeliveryWorld.claimAll (w : DeliveryWorld) (worker : Nat) (u : DeliveryChange)
    (ids : List Uuid) : DeliveryWorld := ids.foldl (fun w id => w.claim worker u id) w

/-- The worker's claim of a record that it has not marked. -/
def DeliveryWorld.held (w : DeliveryWorld) (worker : Nat) (id : Uuid) : Option DeliveryClaim :=
  w.outstanding.find? fun claim => claim.worker = worker && claim.record = id

def DeliveryWorld.mark (w : DeliveryWorld) (worker : Nat) (u : MarkChange)
    (row : DeliveryRecord) : DeliveryWorld :=
  let outbox := w.outbox.update row.id u.toDeliveryChange
  match w.held worker row.id with
  | some claim =>
    { w with
      outbox := outbox
      outstanding := w.outstanding.erase claim
      log := w.log ++ [.marked claim (u.outcome row)] }
  | none => { w with outbox := outbox }

def DeliveryWorld.requeue (w : DeliveryWorld) (u : DeliveryChange) (id : Uuid) : DeliveryWorld :=
  { w with outbox := w.outbox.update id u, log := w.log ++ [.requeued id] }

def DeliveryWorld.markStep (w : DeliveryWorld) (worker : Nat) (u : MarkChange) (id : Uuid)
    (answer : DeliveryRecord) (w' : DeliveryWorld) : Prop :=
  ∃ row, w.find id = some row ∧ answer = u.change row ∧ w' = w.mark worker u row

/-- The guarded update of the SQLite claim and the number of rows it affects. -/
def DeliveryWorld.claimStep (w : DeliveryWorld) (b : Backend) (worker : Nat) (now : Int)
    (u : DeliveryChange) (id : Uuid) (answer : Nat) (w' : DeliveryWorld) : Prop :=
  if w.outbox.rows.any fun row => decide (row.id = id) && row.isClaimable b now then
    answer = 1 ∧ w' = w.claim worker u id
  else answer = 0 ∧ w' = w

/-- What a call by a worker answers and does at the instant `now`. -/
def deliveryEffect (b : Backend) (worker : Nat) (now : Int) (w : DeliveryWorld) :
    (op : DeliveryOp) → DeliveryResult op → DeliveryWorld → Prop
  | .clientClock, answer, w' => answer = now ∧ w' = w
  | .claimPending leaseOwner leaseMs limit, answer, w' => ∃ locked,
      let ids := pendingIds b now locked limit w.outbox
      w' = w.claimAll worker (claimChange leaseOwner (now + leaseMs * 10 ^ 6) now) ids ∧
        answer.Perm (w'.outbox.rows.filter fun row => ids.contains row.id)
  | .selectCandidates limit, answer, w' => answer = pendingIds b now [] limit w.outbox ∧ w' = w
  | .claimCandidate id leaseOwner expires, answer, w' =>
      w.claimStep b worker now (claimChange leaseOwner expires now) id answer w'
  | .selectRecord id, answer, w' => answer = w.find id ∧ w' = w
  | .buildHttpClient, _, w' => w' = w
  | .post .., _, w' => w' = w
  | .markDelivered id httpStatus, answer, w' =>
      w.markStep worker (deliveredChange httpStatus now) id answer w'
  | .markFailed id error httpStatus retryAt, answer, w' =>
      w.markStep worker (failedChange error httpStatus retryAt now) id answer w'
  | .markDeadLettered id error httpStatus, answer, w' =>
      w.markStep worker (deadLetteredChange error httpStatus now) id answer w'
  | .requeueDeadLetter tenantId id retryAt, answer, w' =>
      (∃ row, w.find id = some row ∧ row.tenantId = tenantId ∧ row.status = .deadLettered ∧
        answer = some ((requeueChange retryAt now).change row) ∧
        w' = w.requeue (requeueChange retryAt now) id) ∨
      (∀ row, w.find id = some row → row.tenantId = tenantId → row.status ≠ .deadLettered) ∧
        answer = none ∧ w' = w
  | .create new, answer, w' => answer = new.row b now ∧
      ∃ hnew, w' = { w with
        outbox := w.outbox.insert (new.row b now) hnew (new.one_le_max b now) }

def deliveryHandler (b : Backend) (worker : Nat) :
    Handler DeliveryOp (Fallible DeliveryResult) DeliveryWorld :=
  .fallible fun w op result w' => ∃ now, deliveryEffect b worker now w op result w'

/-- A worker marks a record only while it has a claim of it that it has not marked. -/
def MayCall (worker : Nat) (w : DeliveryWorld) : DeliveryOp → Prop
  | .markDelivered id _ => (w.held worker id).isSome
  | .markFailed id _ _ _ => (w.held worker id).isSome
  | .markDeadLettered id _ _ => (w.held worker id).isSome
  | _ => True

/-- One call of one worker. -/
def DeliveryMove (b : Backend) (w w' : DeliveryWorld) : Prop :=
  ∃ worker op answer, MayCall worker w op ∧ (deliveryHandler b worker).step w op answer w'

/-- The worlds that workers can reach, in any order and however many of them stop. -/
def DeliveryReaches (b : Backend) : DeliveryWorld → DeliveryWorld → Prop :=
  Relation.ReflTransGen (DeliveryMove b)

end Compliance
end SecureAgnt

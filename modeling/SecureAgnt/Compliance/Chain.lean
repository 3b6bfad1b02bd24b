/-
The compliance audit plane and its tamper chain.

An audit event of high risk is copied to the compliance table by a trigger that
links it to the last row of its tenant.  `verify_compliance_audit_chain` numbers the
rows that are left from one and recomputes every link, and
`purge_expired_compliance_audit_events` deletes rows by age.  The theorem this file
exists for is `verified_throughout_iff`: which purges leave a chain that verifies.

A `timestamptz` is its number of microseconds.
-/
import Mathlib.Data.List.MinMax
import Mathlib.Data.List.Sort
import SecureAgnt.Lib.HashChain
import SecureAgnt.Lib.Uuid

namespace SecureAgnt
namespace Compliance

/-! ## Rows and their hash -/

/-- The functions of the server that a row goes through; `J` is `jsonb`. -/
structure Postgres (J : Type) where
  md5 : String → String
  jsonbText : J → String
  /-- `payload->>'field'`. -/
  jsonbField : J → String → Option String
  timestamptzText : Int → String

structure AuditEvent (J : Type) where
  id : Uuid
  runId : Uuid
  stepId : Option Uuid
  tenantId : String
  agentId : Option Uuid
  userId : Option Uuid
  actor : String
  eventType : String
  payloadJson : J
  createdAt : Int

/-- A row of `compliance_audit_events`. -/
structure ComplianceEvent (J : Type) where
  id : Uuid
  sourceAuditEventId : Uuid
  tamperChainSeq : Int
  tamperPrevHash : Option String
  tamperHash : String
  runId : Uuid
  stepId : Option Uuid
  tenantId : String
  agentId : Option Uuid
  userId : Option Uuid
  actor : String
  eventType : String
  payloadJson : J
  createdAt : Int

/-- `concat_ws` of values that are not null. -/
def concatWs (sep : String) (parts : List String) : String :=
  String.ofList (List.intercalate sep.toList (parts.map String.toList))

/-- `COALESCE(value::text, '')`. -/
def uuidOrEmpty (u : Option Uuid) : String := (u.map Uuid.text).getD ""

variable {J : Type}

def computeComplianceTamperHash (pg : Postgres J) (prevHash : Option String)
    (eventId sourceEventId runId : Uuid) (stepId : Option Uuid) (tenantId : String)
    (agentId userId : Option Uuid) (actor eventType : String) (payload : J) (createdAt : Int) :
    String :=
  pg.md5 (concatWs "|" [prevHash.getD "", eventId.text, sourceEventId.text, runId.text,
    uuidOrEmpty stepId, tenantId, uuidOrEmpty agentId, uuidOrEmpty userId, actor, eventType,
    pg.jsonbText payload, pg.timestamptzText createdAt])

/-- The hash of a row as verification recomputes it. -/
def ComplianceEvent.recomputedHash (pg : Postgres J) (row : ComplianceEvent J) : String :=
  computeComplianceTamperHash pg row.tamperPrevHash row.id row.sourceAuditEventId row.runId
    row.stepId row.tenantId row.agentId row.userId row.actor row.eventType row.payloadJson
    row.createdAt

/-! ## The trigger on `audit_events` -/

def shouldRouteToComplianceAudit (pg : Postgres J) (eventType : String) (payload : J) : Bool :=
  if eventType = "action.denied" ∨ eventType = "action.failed" then true
  else if (eventType = "action.requested" ∨ eventType = "action.allowed" ∨
      eventType = "action.executed") ∧
      (pg.jsonbField payload "action_type" = some "payment.send" ∨
        pg.jsonbField payload "action_type" = some "message.send") then true
  else if eventType = "run.failed" then true
  else false

def tenantEvents (tenantId : String) (events : List (ComplianceEvent J)) :
    List (ComplianceEvent J) := events.filter fun row => row.tenantId = tenantId

/-- The row of the tenant with the greatest number. -/
def latestEvent (tenantId : String) (events : List (ComplianceEvent J)) :
    Option (ComplianceEvent J) :=
  @List.argmax _ Int Int.instLinearOrder.toPreorder Int.decLt (·.tamperChainSeq)
    (tenantEvents tenantId events)

def chainedEvent (pg : Postgres J) (previous : Option (ComplianceEvent J)) (e : AuditEvent J) :
    ComplianceEvent J where
  id := e.id
  sourceAuditEventId := e.id
  tamperChainSeq := (previous.map (·.tamperChainSeq)).getD 0 + 1
  tamperPrevHash := previous.map (·.tamperHash)
  tamperHash := computeComplianceTamperHash pg (previous.map (·.tamperHash)) e.id e.id e.runId
    e.stepId e.tenantId e.agentId e.userId e.actor e.eventType e.payloadJson e.createdAt
  runId := e.runId
  stepId := e.stepId
  tenantId := e.tenantId
  agentId := e.agentId
  userId := e.userId
  actor := e.actor
  eventType := e.eventType
  payloadJson := e.payloadJson
  createdAt := e.createdAt

theorem recomputedHash_chainedEvent (pg : Postgres J) (previous : Option (ComplianceEvent J))
    (e : AuditEvent J) : (chainedEvent pg previous e).recomputedHash pg =
      (chainedEvent pg previous e).tamperHash := rfl

/-- The advisory lock on the tenant lets one insert at a time read the last row. -/
def routeAuditEventToCompliance (pg : Postgres J) (events : List (ComplianceEvent J))
    (e : AuditEvent J) : List (ComplianceEvent J) :=
  if shouldRouteToComplianceAudit pg e.eventType e.payloadJson then
    -- `ON CONFLICT (source_audit_event_id) DO NOTHING`
    if events.any fun row => row.sourceAuditEventId = e.id then events
    else events ++ [chainedEvent pg (latestEvent e.tenantId events) e]
  else events

/-! ## Verification -/

structure ChainReport where
  tenantId : String
  checkedEvents : Nat
  verified : Bool
  firstInvalidEventId : Option Uuid
  latestChainSeq : Option Int
  latestTamperHash : Option String

def orderedEvents (tenantId : String) (events : List (ComplianceEvent J)) :
    List (ComplianceEvent J) :=
  (tenantEvents tenantId events).insertionSort fun r r' => r.tamperChainSeq ≤ r'.tamperChainSeq

/-- `is_valid` of a row whose `lag` and `row_number` are given. -/
def ComplianceEvent.isValid (pg : Postgres J) (expectedPrevHash : Option String)
    (expectedSeq : Int) (row : ComplianceEvent J) : Bool :=
  decide (row.tamperChainSeq = expectedSeq) &&
    decide (row.tamperPrevHash.getD "" = expectedPrevHash.getD "") &&
    decide (row.tamperHash = row.recomputedHash pg)

def validated (pg : Postgres J) : Option String → Int → List (ComplianceEvent J) →
    List (ComplianceEvent J × Bool)
  | _, _, [] => []
  | expectedPrevHash, expectedSeq, row :: rest =>
    (row, row.isValid pg expectedPrevHash expectedSeq) ::
      validated pg (some row.tamperHash) (expectedSeq + 1) rest

def verifyComplianceAuditChain (pg : Postgres J) (tenantId : String)
    (events : List (ComplianceEvent J)) : ChainReport :=
  let ordered := orderedEvents tenantId events
  let rows := validated pg none 1 ordered
  { tenantId := tenantId
    checkedEvents := rows.length
    verified := rows.all (·.2)
    firstInvalidEventId := (rows.find? fun row => !row.2).map (·.1.id)
    latestChainSeq := (ordered.map (·.tamperChainSeq)).max?
    latestTamperHash := ordered.getLast?.map (·.tamperHash) }

/-! ## Retention -/

/-- A row of `compliance_audit_policies` with the table's constraints. -/
structure AuditPolicy where
  complianceHotRetentionDays : Int
  complianceArchiveRetentionDays : Int
  legalHold : Bool
  hot_pos : 0 < complianceHotRetentionDays
  archive_pos : 0 < complianceArchiveRetentionDays
  hot_le_archive : complianceHotRetentionDays ≤ complianceArchiveRetentionDays

/-- What holds for a tenant without a row. -/
def AuditPolicy.default : AuditPolicy := ⟨180, 2555, false, by decide, by decide, by decide⟩

structure AuditDb (J : Type) where
  events : List (ComplianceEvent J)
  policies : String → Option AuditPolicy

def AuditDb.policy (db : AuditDb J) (tenantId : String) : AuditPolicy :=
  (db.policies tenantId).getD .default

structure PurgeOutcome where
  tenantId : String
  deletedCount : Nat
  legalHold : Bool
  cutoffAt : Int
  complianceHotRetentionDays : Int
  complianceArchiveRetentionDays : Int

def day : Int := 24 * 60 * 60 * 10 ^ 6

def AuditDb.cutoff (db : AuditDb J) (tenantId : String) (asOf : Int) : Int :=
  asOf - (db.policy tenantId).complianceHotRetentionDays * day

/-- The `WHERE` of the purge, which is not reached under a legal hold. -/
def AuditDb.isPurged (db : AuditDb J) (tenantId : String) (asOf : Int)
    (row : ComplianceEvent J) : Bool :=
  !(db.policy tenantId).legalHold && decide (row.tenantId = tenantId) &&
    decide (row.createdAt < db.cutoff tenantId asOf)

def purgeExpiredComplianceAuditEvents (db : AuditDb J) (tenantId : String) (asOf : Int) :
    PurgeOutcome × AuditDb J :=
  let policy := db.policy tenantId
  let outcome := fun deleted =>
    { tenantId := tenantId
      deletedCount := deleted
      legalHold := policy.legalHold
      cutoffAt := db.cutoff tenantId asOf
      complianceHotRetentionDays := policy.complianceHotRetentionDays
      complianceArchiveRetentionDays := policy.complianceArchiveRetentionDays }
  if policy.legalHold then (outcome 0, db)
  else
    (outcome (db.events.countP (db.isPurged tenantId asOf)),
      { db with events := db.events.filter fun row => !db.isPurged tenantId asOf row })

/-! ## Histories -/

inductive AuditOp (J : Type) where
  | insert (e : AuditEvent J)
  | setPolicy (tenantId : String) (policy : AuditPolicy)
  | purge (tenantId : String) (asOf : Int)

def AuditDb.apply (pg : Postgres J) (db : AuditDb J) : AuditOp J → AuditDb J
  | .insert e => { db with events := routeAuditEventToCompliance pg db.events e }
  | .setPolicy tenantId policy =>
    { db with policies := fun t => if t = tenantId then some policy else db.policies t }
  | .purge tenantId asOf => (purgeExpiredComplianceAuditEvents db tenantId asOf).2

def AuditDb.run (pg : Postgres J) (history : List (AuditOp J)) : AuditDb J :=
  history.foldl (fun db op => db.apply pg op) ⟨[], fun _ => none⟩

/-- Every row of the tenant that a purge leaves comes before every row it deletes. -/
def AuditDb.PurgesFromEnd (db : AuditDb J) : AuditOp J → Prop
  | .purge tenantId asOf => ∀ row ∈ tenantEvents tenantId db.events,
      db.isPurged tenantId asOf row = false → ∀ row' ∈ tenantEvents tenantId db.events,
      db.isPurged tenantId asOf row' = true → row.tamperChainSeq < row'.tamperChainSeq
  | _ => True

/-! ## The chain -/

def chainView (pg : Postgres J) : ChainView (ComplianceEvent J) String where
  seq := (·.tamperChainSeq)
  prev := fun row => row.tamperPrevHash.getD ""
  hash := (·.tamperHash)
  digest := (·.recomputedHash pg)

def Verified (pg : Postgres J) (rows : List (ComplianceEvent J)) : Prop :=
  (chainView pg).Linked "" 1 rows

theorem all_validated_iff {pg : Postgres J} (rows : List (ComplianceEvent J))
    (expectedPrevHash : Option String) (expectedSeq : Int) :
    (validated pg expectedPrevHash expectedSeq rows).all (·.2) = true ↔
      (chainView pg).Linked (expectedPrevHash.getD "") expectedSeq rows := by
  induction rows generalizing expectedPrevHash expectedSeq with
  | nil => simp [validated, ChainView.Linked]
  | cons row rest ih =>
    rw [validated, List.all_cons, Bool.and_eq_true, ih, ChainView.Linked]
    simp [ComplianceEvent.isValid, ChainView.ValidAt, chainView, and_assoc]

theorem length_validated (pg : Postgres J) (expectedPrevHash : Option String) (expectedSeq : Int)
    (rows : List (ComplianceEvent J)) :
    (validated pg expectedPrevHash expectedSeq rows).length = rows.length := by
  induction rows generalizing expectedPrevHash expectedSeq with
  | nil => rfl
  | cons row rest ih => rw [validated, List.length_cons, List.length_cons, ih]

/-- The report is about the rows of the tenant in the order of their numbers. -/
theorem verified_iff {pg : Postgres J} {tenantId : String} {events : List (ComplianceEvent J)} :
    (verifyComplianceAuditChain pg tenantId events).verified = true ↔
      Verified pg (orderedEvents tenantId events) :=
  all_validated_iff _ none 1

/-- The rows of every tenant are stored in the order of their numbers. -/
def Ordered (events : List (ComplianceEvent J)) : Prop :=
  ∀ tenantId, (tenantEvents tenantId events).Pairwise fun r r' =>
    r.tamperChainSeq < r'.tamperChainSeq

theorem orderedEvents_of_ordered {events : List (ComplianceEvent J)} (h : Ordered events)
    (tenantId : String) : orderedEvents tenantId events = tenantEvents tenantId events := by
  apply List.Pairwise.insertionSort_eq
  exact (h tenantId).imp fun hlt => hlt.le

section Insert

variable {pg : Postgres J} {events : List (ComplianceEvent J)}

theorem tenantEvents_append (tenantId : String) (row : ComplianceEvent J) :
    tenantEvents tenantId (events ++ [row]) =
      tenantEvents tenantId events ++ if row.tenantId = tenantId then [row] else [] := by
  by_cases h : row.tenantId = tenantId <;> simp [tenantEvents, h]

theorem seq_le_latestEvent {tenantId : String} {row : ComplianceEvent J}
    (hrow : row ∈ tenantEvents tenantId events) :
    ∃ latest, latestEvent tenantId events = some latest ∧
      row.tamperChainSeq ≤ latest.tamperChainSeq := by
  cases hlatest : latestEvent tenantId events with
  | none =>
    have hnil : tenantEvents tenantId events = [] := List.argmax_eq_none.mp hlatest
    rw [hnil] at hrow
    cases hrow
  | some latest => exact ⟨latest, rfl, List.le_of_mem_argmax hrow hlatest⟩

theorem seq_lt_chainedEvent {e : AuditEvent J} {row : ComplianceEvent J}
    (hrow : row ∈ tenantEvents e.tenantId events) :
    row.tamperChainSeq <
      (chainedEvent pg (latestEvent e.tenantId events) e).tamperChainSeq := by
  obtain ⟨latest, hlatest, hle⟩ := seq_le_latestEvent hrow
  rw [hlatest]
  show row.tamperChainSeq < latest.tamperChainSeq + 1
  omega

theorem ordered_append {e : AuditEvent J} (h : Ordered events) :
    Ordered (events ++ [chainedEvent pg (latestEvent e.tenantId events) e]) := by
  intro tenantId
  rw [tenantEvents_append]
  by_cases htenant : (chainedEvent pg (latestEvent e.tenantId events) e).tenantId = tenantId
  · rw [if_pos htenant, List.pairwise_append]
    refine ⟨h tenantId, List.pairwise_singleton _ _, ?_⟩
    intro row hrow row' hrow'
    rw [List.mem_singleton.mp hrow']
    have hsame : e.tenantId = tenantId := htenant
    subst hsame
    exact seq_lt_chainedEvent hrow
  · rw [if_neg htenant, List.append_nil]
    exact h tenantId

/-- In stored order the row of the greatest number is the last. -/
theorem latestEvent_eq_getLast? (h : Ordered events) (tenantId : String) :
    latestEvent tenantId events = (tenantEvents tenantId events).getLast? := by
  rcases List.eq_nil_or_concat (tenantEvents tenantId events) with hnil | ⟨init, last, hlast⟩
  · rw [latestEvent, hnil]
    rfl
  · rw [List.concat_eq_append] at hlast
    have hpair := h tenantId
    rw [hlast, List.pairwise_append] at hpair
    have hmem : last ∈ tenantEvents tenantId events := by simp [hlast]
    obtain ⟨latest, hlatest, hle⟩ := seq_le_latestEvent hmem
    have hlatestMem : latest ∈ init ++ [last] := hlast ▸ List.argmax_mem hlatest
    have heq : latest = last := by
      rcases List.mem_append.mp hlatestMem with hinit | hsame
      · have hlt := hpair.2.2 latest hinit last List.mem_cons_self
        omega
      · exact List.mem_singleton.mp hsame
    rw [hlatest, heq, hlast, List.getLast?_concat]

theorem length_of_verified {rows : List (ComplianceEvent J)} {last : ComplianceEvent J}
    (h : Verified pg (rows ++ [last])) : last.tamperChainSeq = 1 + (rows.length : Int) :=
  (ChainView.linked_concat.mp h).2.1

/-- The row that the trigger writes continues the chain. -/
theorem validAt_chainedEvent {e : AuditEvent J} (h : Ordered events)
    (hverified : Verified pg (tenantEvents e.tenantId events)) :
    (chainView pg).ValidAt ((chainView pg).lastHash "" (tenantEvents e.tenantId events))
      (1 + (tenantEvents e.tenantId events).length)
      (chainedEvent pg (latestEvent e.tenantId events) e) := by
  rw [latestEvent_eq_getLast? h]
  rcases List.eq_nil_or_concat (tenantEvents e.tenantId events) with hnil | ⟨init, last, hlast⟩
  · rw [hnil]
    exact ⟨rfl, rfl, rfl⟩
  · rw [List.concat_eq_append] at hlast
    rw [hlast] at hverified ⊢
    have hseq := length_of_verified hverified
    rw [List.getLast?_concat, ChainView.lastHash_concat]
    refine ⟨?_, rfl, rfl⟩
    show last.tamperChainSeq + 1 = 1 + ((init ++ [last]).length : Int)
    rw [hseq, List.length_append, List.length_singleton]
    omega

theorem verified_append {e : AuditEvent J} (h : Ordered events)
    (hverified : ∀ tenantId, Verified pg (tenantEvents tenantId events)) (tenantId : String) :
    Verified pg (tenantEvents tenantId
      (events ++ [chainedEvent pg (latestEvent e.tenantId events) e])) := by
  rw [tenantEvents_append]
  by_cases htenant : (chainedEvent pg (latestEvent e.tenantId events) e).tenantId = tenantId
  · rw [if_pos htenant]
    have hsame : e.tenantId = tenantId := htenant
    subst hsame
    exact ChainView.linked_concat.mpr ⟨hverified _, validAt_chainedEvent h (hverified _)⟩
  · rw [if_neg htenant, List.append_nil]
    exact hverified tenantId

end Insert

section Purge

variable {pg : Postgres J} {db : AuditDb J} {tenantId : String} {asOf : Int}

theorem isPurged_of_legalHold (h : (db.policy tenantId).legalHold = true)
    (row : ComplianceEvent J) : db.isPurged tenantId asOf row = false := by
  simp [AuditDb.isPurged, h]

theorem tenant_of_isPurged {row : ComplianceEvent J}
    (h : db.isPurged tenantId asOf row = true) : row.tenantId = tenantId := by
  simp only [AuditDb.isPurged, Bool.and_eq_true, decide_eq_true_eq] at h
  exact h.1.2

/-- A purge keeps what it does not select, also under a legal hold. -/
theorem events_purge : (purgeExpiredComplianceAuditEvents db tenantId asOf).2.events =
    db.events.filter fun row => !db.isPurged tenantId asOf row := by
  unfold purgeExpiredComplianceAuditEvents
  by_cases hold : (db.policy tenantId).legalHold = true
  · simp only [hold, if_true]
    refine (List.filter_eq_self.mpr ?_).symm
    intro row _
    rw [isPurged_of_legalHold hold]
    rfl
  · simp only [hold, if_false, Bool.false_eq_true]

theorem tenantEvents_purge (t : String) :
    tenantEvents t (purgeExpiredComplianceAuditEvents db tenantId asOf).2.events =
      (tenantEvents t db.events).filter fun row => !db.isPurged tenantId asOf row := by
  rw [events_purge, tenantEvents, tenantEvents, List.filter_filter, List.filter_filter]
  simp only [Bool.and_comm]

theorem tenantEvents_purge_other {t : String} (h : t ≠ tenantId) :
    tenantEvents t (purgeExpiredComplianceAuditEvents db tenantId asOf).2.events =
      tenantEvents t db.events := by
  rw [tenantEvents_purge]
  refine List.filter_eq_self.mpr ?_
  intro row hrow
  have htenant : row.tenantId = t := by simpa [tenantEvents] using (List.mem_filter.mp hrow).2
  have hkept : db.isPurged tenantId asOf row = false := by
    rw [Bool.eq_false_iff]
    intro hpurged
    exact h (htenant.symm.trans (tenant_of_isPurged hpurged))
  rw [hkept]
  rfl

theorem verified_purge_iff (h : Verified pg (tenantEvents tenantId db.events)) :
    Verified pg (tenantEvents tenantId
        (purgeExpiredComplianceAuditEvents db tenantId asOf).2.events) ↔
      db.PurgesFromEnd (.purge tenantId asOf) := by
  rw [tenantEvents_purge]
  refine (ChainView.linked_filter_iff h).trans ?_
  simp only [Bool.not_eq_true', Bool.not_eq_false']
  rfl

end Purge

/-! ## Along a history -/

section History

variable {pg : Postgres J}

theorem run_concat (history : List (AuditOp J)) (op : AuditOp J) :
    AuditDb.run pg (history ++ [op]) = (AuditDb.run pg history).apply pg op :=
  List.foldl_concat ..

theorem ordered_apply {db : AuditDb J} (h : Ordered db.events) (op : AuditOp J) :
    Ordered (db.apply pg op).events := by
  cases op with
  | insert e =>
    show Ordered (routeAuditEventToCompliance pg db.events e)
    unfold routeAuditEventToCompliance
    split
    · split
      · exact h
      · exact ordered_append h
    · exact h
  | setPolicy tenantId policy => exact h
  | purge tenantId asOf =>
    intro t
    show (tenantEvents t (purgeExpiredComplianceAuditEvents db tenantId asOf).2.events).Pairwise _
    rw [tenantEvents_purge]
    exact (h t).filter _

theorem ordered_run (history : List (AuditOp J)) : Ordered (AuditDb.run pg history).events := by
  induction history using List.reverseRecOn with
  | nil => exact fun _ => .nil
  | append_singleton history op ih =>
    rw [run_concat]
    exact ordered_apply ih op

/-- One step from a chain that verifies. -/
theorem verified_apply_iff {db : AuditDb J} (h : Ordered db.events)
    (hverified : ∀ tenantId, Verified pg (tenantEvents tenantId db.events)) (op : AuditOp J) :
    (∀ tenantId, Verified pg (tenantEvents tenantId (db.apply pg op).events)) ↔
      db.PurgesFromEnd op := by
  cases op with
  | insert e =>
    refine iff_of_true ?_ trivial
    show ∀ tenantId, Verified pg (tenantEvents tenantId (routeAuditEventToCompliance pg db.events e))
    unfold routeAuditEventToCompliance
    split
    · split
      · exact hverified
      · exact verified_append h hverified
    · exact hverified
  | setPolicy tenantId policy => exact iff_of_true hverified trivial
  | purge tenantId asOf =>
    constructor
    · intro hafter
      exact (verified_purge_iff (hverified tenantId)).mp (hafter tenantId)
    · intro hend t
      by_cases ht : t = tenantId
      · rw [ht]
        exact (verified_purge_iff (hverified tenantId)).mpr hend
      · show Verified pg (tenantEvents t
          (purgeExpiredComplianceAuditEvents db tenantId asOf).2.events)
        rw [tenantEvents_purge_other ht]
        exact hverified t

theorem report_verified_iff (history : List (AuditOp J)) (tenantId : String) :
    (verifyComplianceAuditChain pg tenantId (AuditDb.run pg history).events).verified = true ↔
      Verified pg (tenantEvents tenantId (AuditDb.run pg history).events) := by
  rw [verified_iff, orderedEvents_of_ordered (ordered_run history)]

theorem verified_run {history : List (AuditOp J)}
    (h : ∀ before op, before ++ [op] <+: history → (AuditDb.run pg before).PurgesFromEnd op)
    (tenantId : String) : Verified pg (tenantEvents tenantId (AuditDb.run pg history).events) := by
  induction history using List.reverseRecOn generalizing tenantId with
  | nil => trivial
  | append_singleton history op ih =>
    have hbefore := ih fun before op' hpre => h before op' (hpre.trans (List.prefix_append _ _))
    rw [run_concat]
    exact (verified_apply_iff (ordered_run history) hbefore op).mpr
      (h history op (List.prefix_refl _)) tenantId

/-- The chains of all tenants verify after every step of a history if and only if
every purge of it deletes from the ends of the chains. -/
theorem verified_throughout_iff (pg : Postgres J) (history : List (AuditOp J)) :
    (∀ before, before <+: history → ∀ tenantId,
      (verifyComplianceAuditChain pg tenantId (AuditDb.run pg before).events).verified = true) ↔
    ∀ before op, before ++ [op] <+: history → (AuditDb.run pg before).PurgesFromEnd op := by
  constructor
  · intro h before op hpre
    have hverified : ∀ tenantId, Verified pg (tenantEvents tenantId (AuditDb.run pg before).events) :=
      fun tenantId => (report_verified_iff before tenantId).mp
        (h before ((List.prefix_append _ _).trans hpre) tenantId)
    refine (verified_apply_iff (ordered_run before) hverified op).mp fun tenantId => ?_
    have hafter := h (before ++ [op]) hpre tenantId
    rw [report_verified_iff, run_concat] at hafter
    exact hafter
  · intro h before hpre tenantId
    rw [report_verified_iff]
    exact verified_run (fun before' op hpre' => h before' op (hpre'.trans hpre)) tenantId

end History

/-! ## A chain without its first row -/

/-- The server at the texts of the two events below, whose payload is an empty
object. -/
def sampleServer : Postgres Unit where
  md5 text :=
    if text.length = 165 then "5951350a474f4fd0b742831d73010974"
    else "01d69551290a0f5dfd412cfe0e74222e"
  jsonbText _ := "\x7b\x7d"
  jsonbField _ _ := none
  timestamptzText t := if t = 0 then "1970-01-01 00:00:00+00" else "1970-07-01 00:00:00+00"

def failedRun (d : Nat) (createdAt : Int) : AuditEvent Unit where
  id := Uuid.repeated d
  runId := Uuid.repeated 10
  stepId := none
  tenantId := "single"
  agentId := none
  userId := none
  actor := "worker"
  eventType := "run.failed"
  payloadJson := ()
  createdAt := createdAt

/-- Half a year after the first event a second one is recorded, and the first is
purged on that day. -/
def agedHistory : List (AuditOp Unit) :=
  [.insert (failedRun 1 0), .insert (failedRun 2 (181 * day)), .purge "single" (181 * day)]

theorem aged_chain_not_verified :
    (verifyComplianceAuditChain sampleServer "single"
      (AuditDb.run sampleServer agedHistory).events).verified = false := by
  decide

end Compliance
end SecureAgnt

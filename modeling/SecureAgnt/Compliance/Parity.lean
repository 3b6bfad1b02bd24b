/-
The compliance plane on the two back ends.

On Postgres the trigger on `audit_events` fills the compliance table and verification
recomputes every hash.  On SQLite no trigger is created, and the verify handler asks of
a hash only that it is not blank.  The theorem this file exists for is `planes_agree_iff`: which
events are routed alike, and which rows are verified alike.

`J` is `jsonb`, and a `timestamptz` is its number of microseconds.
-/
import Mathlib.Data.Prod.Lex
import Mathlib.Data.String.Basic
import Mathlib.Order.WithBot
import SecureAgnt.Api.Gate
import SecureAgnt.Compliance.Chain
import SecureAgnt.Lib.Sorting

namespace SecureAgnt
namespace Compliance

variable {J : Type}

/-! ## Rows of the SQLite table -/

/-- The columns of `compliance_audit_events` that routing and verification are about;
the chain's columns may be null. -/
structure SqliteComplianceEvent where
  id : String
  sourceAuditEventId : String
  tamperChainSeq : Option Int
  tamperPrevHash : Option String
  tamperHash : Option String
  tenantId : String
  createdAt : String

/-- The functions that a row on SQLite goes through. -/
structure Sqlite where
  timestampText : Int → String
  /-- Null for a text that is no time. -/
  datetime : String → WithBot String
  /-- `Uuid::parse_str`, whose error is the text in front of the value. -/
  parseUuid : String → Except String Uuid

/-- The row on SQLite whose columns have the values of a row on Postgres. -/
def ComplianceEvent.onSqlite (lite : Sqlite) (row : ComplianceEvent J) :
    SqliteComplianceEvent where
  id := row.id.text
  sourceAuditEventId := row.sourceAuditEventId.text
  tamperChainSeq := some row.tamperChainSeq
  tamperPrevHash := row.tamperPrevHash
  tamperHash := some row.tamperHash
  tenantId := row.tenantId
  createdAt := lite.timestampText row.createdAt

/-! ## Appending -/

/-- The audit table, which is the same on both back ends, and the compliance table. -/
structure AuditTables (J Row : Type) where
  auditEvents : List (AuditEvent J)
  complianceAuditEvents : List Row

/-- The insert and the trigger after it; a taken primary key refuses both. -/
def appendAuditEvent (pg : Postgres J) (tables : AuditTables J (ComplianceEvent J))
    (e : AuditEvent J) : AuditTables J (ComplianceEvent J) :=
  if tables.auditEvents.any fun e' => e'.id = e.id then tables
  else
    { auditEvents := tables.auditEvents ++ [e]
      complianceAuditEvents := routeAuditEventToCompliance pg tables.complianceAuditEvents e }

/-- The insert alone: the SQLite schema has no trigger. -/
def appendAuditEventSqlite (tables : AuditTables J SqliteComplianceEvent) (e : AuditEvent J) :
    AuditTables J SqliteComplianceEvent :=
  if tables.auditEvents.any fun e' => e'.id = e.id then tables
  else { tables with auditEvents := tables.auditEvents ++ [e] }

def appendAll (pg : Postgres J) (events : List (AuditEvent J)) :
    AuditTables J (ComplianceEvent J) := events.foldl (appendAuditEvent pg) ⟨[], []⟩

def appendAllSqlite (events : List (AuditEvent J)) : AuditTables J SqliteComplianceEvent :=
  events.foldl appendAuditEventSqlite ⟨[], []⟩

/-- The same events are in the compliance tables, under the same numbers. -/
def RoutedAlike (pg : Postgres J) (events : List (AuditEvent J)) : Prop :=
  (appendAll pg events).complianceAuditEvents.map
      (fun row => (row.tenantId, row.sourceAuditEventId.text, some row.tamperChainSeq)) =
    (appendAllSqlite events).complianceAuditEvents.map
      fun row => (row.tenantId, row.sourceAuditEventId, row.tamperChainSeq)

/-- No event that is the first with its identifier is of a kind that the trigger routes. -/
def NothingToRoute (pg : Postgres J) (events : List (AuditEvent J)) : Prop :=
  ∀ before e, before ++ [e] <+: events → (∀ e' ∈ before, e'.id ≠ e.id) →
    shouldRouteToComplianceAudit pg e.eventType e.payloadJson = false

/-! ## Verification on SQLite -/

/-- The key of `ORDER BY`, in which a null comes first. -/
def SqliteComplianceEvent.orderKey (lite : Sqlite) (row : SqliteComplianceEvent) :
    Lex (Int × Lex (WithBot String × String)) :=
  toLex (row.tamperChainSeq.getD 0, toLex (lite.datetime row.createdAt, row.id))

def orderedEventsSqlite (lite : Sqlite) (tenantId : String) (rows : List SqliteComplianceEvent) :
    List SqliteComplianceEvent :=
  (rows.filter fun row => row.tenantId = tenantId).insertionSort fun r r' =>
    r.orderKey lite ≤ r'.orderKey lite

/-- How the handler ends without a report; a null hash makes `row.get` panic. -/
inductive HandlerFailure where
  | error (e : Api.ApiError)
  | panicked

def invalidUuid (err raw : String) : Api.ApiError :=
  .internal ("invalid uuid in column `id`: " ++ err ++ " (value=" ++ raw ++ ")")

/-- The variables of the handler's loop. -/
structure VerifyState where
  firstInvalidEventId : Option Uuid
  latestChainSeq : Option Int
  latestTamperHash : Option String
  expectedPrevHash : Option String

def latestSeq : Option Int → Option Int → Option Int
  | some currentMax, some candidate => some (max currentMax candidate)
  | none, some candidate => some candidate
  | current, none => current

/-- The test of a row whose hash is given. -/
def SqliteComplianceEvent.isValid (expectedPrevHash : Option String) (expectedSeq : Int)
    (tamperHash : String) (row : SqliteComplianceEvent) : Bool :=
  decide (row.tamperChainSeq = some expectedSeq) &&
    decide (row.tamperPrevHash.getD "" = expectedPrevHash.getD "") &&
    !Text.isEmpty (Text.trim tamperHash)

def VerifyState.afterRow (s : VerifyState) (expectedSeq : Int) (eventId : Uuid)
    (tamperHash : String) (row : SqliteComplianceEvent) : VerifyState where
  firstInvalidEventId :=
    if s.firstInvalidEventId.isNone && !row.isValid s.expectedPrevHash expectedSeq tamperHash then
      some eventId
    else s.firstInvalidEventId
  latestChainSeq := latestSeq s.latestChainSeq row.tamperChainSeq
  latestTamperHash := some tamperHash
  expectedPrevHash := some tamperHash

def verifyRowsSqlite (lite : Sqlite) :
    Int → VerifyState → List SqliteComplianceEvent → Except HandlerFailure VerifyState
  | _, s, [] => .ok s
  | expectedSeq, s, row :: rest =>
    match lite.parseUuid row.id with
    | .error err => .error (.error (invalidUuid err row.id))
    | .ok eventId =>
      match row.tamperHash with
      | none => .error .panicked
      | some tamperHash =>
        verifyRowsSqlite lite (expectedSeq + 1) (s.afterRow expectedSeq eventId tamperHash row) rest

/-- `get_compliance_audit_verify_sqlite_handler` for a request that it admits. -/
def verifyComplianceAuditSqlite (lite : Sqlite) (tenantId : String)
    (rows : List SqliteComplianceEvent) : Except HandlerFailure ChainReport :=
  let ordered := orderedEventsSqlite lite tenantId rows
  match verifyRowsSqlite lite 1 ⟨none, none, none, none⟩ ordered with
  | .error e => .error e
  | .ok s => .ok
    { tenantId := tenantId
      checkedEvents := ordered.length
      verified := s.firstInvalidEventId.isNone
      firstInvalidEventId := s.firstInvalidEventId
      latestChainSeq := s.latestChainSeq
      latestTamperHash := s.latestTamperHash }

/-- The SQLite handler reports on the rows, and reports `verified` as Postgres does. -/
def VerifiedAlike (pg : Postgres J) (lite : Sqlite) (tenantId : String)
    (rows : List (ComplianceEvent J)) : Prop :=
  ∃ report, verifyComplianceAuditSqlite lite tenantId
      (rows.map (ComplianceEvent.onSqlite lite)) = .ok report ∧
    report.verified = (verifyComplianceAuditChain pg tenantId rows).verified

/-- The tenant's rows are numbered from one, and each names the hash of the one before. -/
def Chained (pg : Postgres J) (tenantId : String) (rows : List (ComplianceEvent J)) : Prop :=
  (chainView pg).links.Linked "" 1 (orderedEvents tenantId rows)

/-! ## What is routed -/

section Append

variable {pg : Postgres J}

theorem appendAll_concat (events : List (AuditEvent J)) (e : AuditEvent J) :
    appendAll pg (events ++ [e]) = appendAuditEvent pg (appendAll pg events) e :=
  List.foldl_concat ..

theorem appendAllSqlite_concat (events : List (AuditEvent J)) (e : AuditEvent J) :
    appendAllSqlite (events ++ [e]) = appendAuditEventSqlite (appendAllSqlite events) e :=
  List.foldl_concat ..

theorem complianceAuditEvents_sqlite (events : List (AuditEvent J)) :
    (appendAllSqlite events).complianceAuditEvents = [] := by
  induction events using List.reverseRecOn with
  | nil => rfl
  | append_singleton events e ih =>
    rw [appendAllSqlite_concat]
    unfold appendAuditEventSqlite
    split
    · exact ih
    · exact ih

theorem routedAlike_iff (events : List (AuditEvent J)) :
    RoutedAlike pg events ↔ (appendAll pg events).complianceAuditEvents = [] := by
  rw [RoutedAlike, complianceAuditEvents_sqlite, List.map_nil, List.map_eq_nil_iff]

/-- The identifiers that are taken are those of the events so far. -/
theorem taken_iff (pg : Postgres J) (events : List (AuditEvent J)) (id : Uuid) :
    ((appendAll pg events).auditEvents.any fun e => e.id = id) = true ↔
      ∃ e ∈ events, e.id = id := by
  induction events using List.reverseRecOn with
  | nil => simp [appendAll]
  | append_singleton events last ih =>
    rw [appendAll_concat]
    by_cases hlast : (appendAll pg events).auditEvents.any fun e => e.id = last.id
    · rw [appendAuditEvent, if_pos hlast, ih]
      constructor
      · rintro ⟨e, he, hid⟩
        exact ⟨e, List.mem_append_left _ he, hid⟩
      · rintro ⟨e, he, hid⟩
        rcases List.mem_append.mp he with he | he
        · exact ⟨e, he, hid⟩
        · rw [← ih, ← hid, List.mem_singleton.mp he]
          exact hlast
    · rw [appendAuditEvent, if_neg hlast, List.any_append, Bool.or_eq_true, ih]
      simp [or_and_right, exists_or]

theorem route_eq_nil_iff {rows : List (ComplianceEvent J)} {e : AuditEvent J} :
    routeAuditEventToCompliance pg rows e = [] ↔
      rows = [] ∧ shouldRouteToComplianceAudit pg e.eventType e.payloadJson = false := by
  unfold routeAuditEventToCompliance
  cases hroute : shouldRouteToComplianceAudit pg e.eventType e.payloadJson with
  | false => simp
  | true =>
    cases rows with
    | nil => simp
    | cons row rest =>
      rw [if_pos rfl]
      split
      · simp
      · simp

theorem nothingToRoute_concat {events : List (AuditEvent J)} {e : AuditEvent J} :
    NothingToRoute pg (events ++ [e]) ↔ NothingToRoute pg events ∧
      ((∀ e' ∈ events, e'.id ≠ e.id) →
        shouldRouteToComplianceAudit pg e.eventType e.payloadJson = false) := by
  constructor
  · intro h
    refine ⟨?_, h events e (List.prefix_refl _)⟩
    intro before e' hpre
    exact h before e' (hpre.trans (List.prefix_append _ _))
  · rintro ⟨hbefore, hlast⟩ before e' hpre
    rcases List.prefix_concat_iff.mp hpre with heq | hpre
    · obtain ⟨hsame, hone⟩ := List.append_inj' heq rfl
      rw [hsame, List.singleton_inj.mp hone]
      exact hlast
    · exact hbefore before e' hpre

theorem routed_nothing_iff (events : List (AuditEvent J)) :
    (appendAll pg events).complianceAuditEvents = [] ↔ NothingToRoute pg events := by
  induction events using List.reverseRecOn with
  | nil =>
    refine iff_of_true rfl ?_
    intro before e hpre
    exact absurd (List.prefix_nil.mp hpre) (by simp)
  | append_singleton events e ih =>
    have htaken := taken_iff pg events e.id
    rw [nothingToRoute_concat, ← ih, appendAll_concat, appendAuditEvent]
    split
    · rename_i hany
      obtain ⟨e', he', hid⟩ := htaken.mp hany
      refine (and_iff_left ?_).symm
      intro hfresh
      exact absurd hid (hfresh e' he')
    · rename_i hany
      have hfresh : ∀ e' ∈ events, e'.id ≠ e.id := fun e' he' hid =>
        hany (htaken.mpr ⟨e', he', hid⟩)
      rw [route_eq_nil_iff]
      exact and_congr_right fun _ => ⟨fun h _ => h, fun h => h hfresh⟩

end Append

/-! ## What is verified -/

section Verify

variable {pg : Postgres J} {lite : Sqlite} {tenantId : String} {rows : List (ComplianceEvent J)}

/-- The tenant's rows in the order of the SQLite query. -/
def queryOrder (lite : Sqlite) (tenantId : String) (rows : List (ComplianceEvent J)) :
    List (ComplianceEvent J) :=
  (tenantEvents tenantId rows).insertionSort fun r r' =>
    (r.onSqlite lite).orderKey lite ≤ (r'.onSqlite lite).orderKey lite

theorem orderedEventsSqlite_map : orderedEventsSqlite lite tenantId
    (rows.map (ComplianceEvent.onSqlite lite)) =
      (queryOrder lite tenantId rows).map (ComplianceEvent.onSqlite lite) := by
  rw [orderedEventsSqlite, List.filter_map, queryOrder, tenantEvents]
  refine Eq.symm ?_
  apply List.map_insertionSort
  intro _ _ _ _
  rfl

theorem queryOrder_perm : (queryOrder lite tenantId rows).Perm (tenantEvents tenantId rows) :=
  List.perm_insertionSort ..

theorem orderedEvents_perm : (orderedEvents tenantId rows).Perm (tenantEvents tenantId rows) :=
  List.perm_insertionSort ..

theorem orderedEvents_pairwise : (orderedEvents tenantId rows).Pairwise fun r r' =>
    r.tamperChainSeq ≤ r'.tamperChainSeq :=
  Sorting.pairwise_key _ _

theorem queryOrder_pairwise : (queryOrder lite tenantId rows).Pairwise fun r r' =>
    r.tamperChainSeq ≤ r'.tamperChainSeq := by
  refine (Sorting.pairwise_key _ _).imp ?_
  intro r r' hle
  rcases Prod.Lex.toLex_le_toLex.mp hle with hlt | heq
  · exact hlt.le
  · exact heq.1.le

/-- The order of the query and that of Postgres are the same for a chain. -/
theorem chained_iff_queryOrder (lite : Sqlite) : Chained pg tenantId rows ↔
    (chainView pg).links.Linked "" 1 (queryOrder lite tenantId rows) := by
  have hperm : (queryOrder lite tenantId rows).Perm (orderedEvents tenantId rows) :=
    queryOrder_perm.trans orderedEvents_perm.symm
  constructor
  · intro h
    rw [ChainView.eq_of_linked_of_perm h hperm queryOrder_pairwise]
    exact h
  · intro h
    rw [Chained, ChainView.eq_of_linked_of_perm h hperm.symm orderedEvents_pairwise]
    exact h

theorem verified_postgres_iff :
    (verifyComplianceAuditChain pg tenantId rows).verified = true ↔
      Chained pg tenantId rows ∧
        ∀ row ∈ tenantEvents tenantId rows, row.tamperHash = row.recomputedHash pg := by
  rw [verified_iff, Verified, ChainView.linked_iff_links]
  refine and_congr_right fun _ => ?_
  simp only [orderedEvents_perm.mem_iff]
  rfl

theorem isValid_onSqlite (pg : Postgres J) {row : ComplianceEvent J} {prev : Option String}
    {n : Int} : (row.onSqlite lite).isValid prev n row.tamperHash = true ↔
      (chainView pg).links.ValidAt (prev.getD "") n row ∧
        Text.isEmpty (Text.trim row.tamperHash) = false := by
  simp only [SqliteComplianceEvent.isValid, ComplianceEvent.onSqlite, Bool.and_eq_true,
    decide_eq_true_eq, Option.some.injEq, Bool.not_eq_true']
  exact and_congr_left fun _ => and_congr_right fun _ =>
    decide_eq_true_iff.trans (and_iff_left rfl).symm

theorem firstInvalid_afterRow {s : VerifyState} {n : Int} {id : Uuid} {hash : String}
    {row : SqliteComplianceEvent} : (s.afterRow n id hash row).firstInvalidEventId = none ↔
      s.firstInvalidEventId = none ∧ row.isValid s.expectedPrevHash n hash = true := by
  unfold VerifyState.afterRow
  cases hfirst : s.firstInvalidEventId with
  | some id' => simp
  | none => simp

/-- What the handler's loop has found after the rows. -/
theorem verifyRowsSqlite_spec (hparse : ∀ u, lite.parseUuid u.text = .ok u)
    (pg : Postgres J) (rows : List (ComplianceEvent J)) (s : VerifyState) (n : Int) :
    ∃ s', verifyRowsSqlite lite n s (rows.map (ComplianceEvent.onSqlite lite)) = .ok s' ∧
      (s'.firstInvalidEventId = none ↔ s.firstInvalidEventId = none ∧
        (chainView pg).links.Linked (s.expectedPrevHash.getD "") n rows ∧
        ∀ row ∈ rows, Text.isEmpty (Text.trim row.tamperHash) = false) := by
  induction rows generalizing s n with
  | nil => exact ⟨s, rfl, by simp [ChainView.Linked]⟩
  | cons row rest ih =>
    obtain ⟨s', hrun, hiff⟩ := ih (s.afterRow n row.id row.tamperHash (row.onSqlite lite)) (n + 1)
    refine ⟨s', ?_, hiff.trans ?_⟩
    · rw [List.map_cons, verifyRowsSqlite]
      show (match lite.parseUuid row.id.text with | .error err => _ | .ok eventId => _) = _
      rw [hparse]
      exact hrun
    · rw [firstInvalid_afterRow, isValid_onSqlite pg, ChainView.Linked,
        List.forall_mem_cons]
      show (_ ∧ _ ∧ _) ∧ (chainView pg).links.Linked row.tamperHash (n + 1) rest ∧ _ ↔ _
      constructor
      · intro h
        exact ⟨h.1.1, ⟨h.1.2.1, h.2.1⟩, h.1.2.2, h.2.2⟩
      · intro h
        exact ⟨⟨h.1, h.2.1.1, h.2.2.1⟩, h.2.1.2, h.2.2.2⟩

theorem verified_sqlite (hparse : ∀ u, lite.parseUuid u.text = .ok u) (pg : Postgres J)
    (tenantId : String) (rows : List (ComplianceEvent J)) :
    ∃ report, verifyComplianceAuditSqlite lite tenantId
        (rows.map (ComplianceEvent.onSqlite lite)) = .ok report ∧
      (report.verified = true ↔ Chained pg tenantId rows ∧
        ∀ row ∈ tenantEvents tenantId rows, Text.isEmpty (Text.trim row.tamperHash) = false) := by
  obtain ⟨s, hrun, hiff⟩ := verifyRowsSqlite_spec hparse pg (queryOrder lite tenantId rows)
    ⟨none, none, none, none⟩ 1
  refine ⟨_, by rw [verifyComplianceAuditSqlite, orderedEventsSqlite_map, hrun], ?_⟩
  show s.firstInvalidEventId.isNone = true ↔ _
  rw [Option.isNone_iff_eq_none, hiff, chained_iff_queryOrder lite]
  simp only [queryOrder_perm.mem_iff]
  exact and_iff_right trivial

/-- The reports agree unless linked rows with no blank hash have a hash that is not that
of its row. -/
theorem verifiedAlike_iff (hparse : ∀ u, lite.parseUuid u.text = .ok u)
    (hmd5 : ∀ text, Text.isEmpty (Text.trim (pg.md5 text)) = false) :
    VerifiedAlike pg lite tenantId rows ↔
      (Chained pg tenantId rows →
        (∃ row ∈ tenantEvents tenantId rows, Text.isEmpty (Text.trim row.tamperHash) = true) ∨
        ∀ row ∈ tenantEvents tenantId rows, row.tamperHash = row.recomputedHash pg) := by
  obtain ⟨report, hreport, hlite⟩ := verified_sqlite hparse pg tenantId rows
  have halike : VerifiedAlike pg lite tenantId rows ↔
      (report.verified = true ↔
        (verifyComplianceAuditChain pg tenantId rows).verified = true) := by
    rw [← Bool.eq_iff_iff]
    constructor
    · rintro ⟨report', hreport', hsame⟩
      rw [hreport] at hreport'
      cases hreport'
      exact hsame
    · intro hsame
      exact ⟨report, hreport, hsame⟩
  have hnonblank : (∀ row ∈ tenantEvents tenantId rows, row.tamperHash = row.recomputedHash pg) →
      ∀ row ∈ tenantEvents tenantId rows, Text.isEmpty (Text.trim row.tamperHash) = false := by
    intro hall row hrow
    rw [hall row hrow]
    exact hmd5 _
  rw [halike, hlite, verified_postgres_iff]
  constructor
  · intro hiff hchained
    by_cases hblank : ∃ row ∈ tenantEvents tenantId rows,
        Text.isEmpty (Text.trim row.tamperHash) = true
    · exact .inl hblank
    · refine .inr (hiff.mp ⟨hchained, ?_⟩).2
      intro row hrow
      rw [← Bool.not_eq_true]
      exact fun hempty => hblank ⟨row, hrow, hempty⟩
  · intro hcondition
    refine and_congr_right fun hchained => ⟨fun hfilled => ?_, hnonblank⟩
    rcases hcondition hchained with ⟨row, hrow, hempty⟩ | hall
    · rw [hfilled row hrow] at hempty
      cases hempty
    · exact hall

end Verify

/-- The two compliance planes agree on a sequence of events if and only if it has nothing
to route, and on stored rows if and only if a chain of them has a blank hash or the hashes
of its rows. -/
theorem planes_agree_iff {J : Type} (pg : Postgres J) (lite : Sqlite)
    (hparse : ∀ u, lite.parseUuid u.text = .ok u)
    (hmd5 : ∀ text, Text.isEmpty (Text.trim (pg.md5 text)) = false)
    (events : List (AuditEvent J)) (tenantId : String) (rows : List (ComplianceEvent J)) :
    (RoutedAlike pg events ↔ NothingToRoute pg events) ∧
      (VerifiedAlike pg lite tenantId rows ↔
        (Chained pg tenantId rows →
          (∃ row ∈ tenantEvents tenantId rows, Text.isEmpty (Text.trim row.tamperHash) = true) ∨
          ∀ row ∈ tenantEvents tenantId rows, row.tamperHash = row.recomputedHash pg)) :=
  ⟨(routedAlike_iff events).trans (routed_nothing_iff events), verifiedAlike_iff hparse hmd5⟩

/-! ## A failed run and a changed row -/

def sampleSqlite : Sqlite where
  timestampText _ := "1970-01-01T00:00:00Z"
  datetime _ := "1970-01-01 00:00:00"
  parseUuid text :=
    match Uuid.parseHyphenated text with
    | some id => .ok id
    | none => .error "invalid length"

theorem sampleSqlite_parseUuid (u : Uuid) : sampleSqlite.parseUuid u.text = .ok u := by
  simp only [sampleSqlite, Uuid.parseHyphenated_text]

/-- The server at the text of the event below and, by the other hash, at that of the
changed row. -/
def changedServer : Postgres Unit where
  md5 text := if text.utf8ByteSize = 165 then "5951350a474f4fd0b742831d73010974"
    else "ba0a23426f2e2cf018e9772258bd83b8"
  jsonbText _ := "\x7b\x7d"
  jsonbField _ _ := none
  timestamptzText _ := "1970-01-01 00:00:00+00"

/-- The row of the event, in which the actor was changed afterwards. -/
def changedRow : ComplianceEvent Unit :=
  { chainedEvent changedServer none (failedRun 1 0) with actor := "admin" }

theorem changedServer_md5 (text : String) :
    Text.isEmpty (Text.trim (changedServer.md5 text)) = false := by
  by_cases h : text.utf8ByteSize = 165
  · simp only [changedServer, if_pos h]
    decide
  · simp only [changedServer, if_neg h]
    decide

/-- A failed run is routed on Postgres alone, and a changed row is verified on SQLite
alone. -/
theorem failed_run_and_changed_row : ¬ RoutedAlike changedServer [failedRun 1 0] ∧
    ¬ VerifiedAlike changedServer sampleSqlite "single" [changedRow] := by
  constructor
  · unfold RoutedAlike
    decide
  · rw [verifiedAlike_iff sampleSqlite_parseUuid changedServer_md5]
    intro hcondition
    have hmem : changedRow ∈ tenantEvents "single" [changedRow] := List.mem_cons_self
    have hfilled : Text.isEmpty (Text.trim changedRow.tamperHash) = false := by decide +kernel
    have hchained : Chained changedServer "single" [changedRow] := ⟨⟨rfl, rfl, rfl⟩, trivial⟩
    rcases hcondition hchained with ⟨row, hrow, hempty⟩ | hall
    · rw [List.mem_singleton.mp hrow, hfilled] at hempty
      cases hempty
    · exact absurd (hall changedRow hmem) (by decide +kernel)

/-- An event that is routed on neither. -/
def completedRun : AuditEvent Unit := { failedRun 1 0 with eventType := "run.completed" }

/-- The row as it was stored. -/
def storedRow : ComplianceEvent Unit := chainedEvent changedServer none (failedRun 1 0)

/-- A completed run is routed on neither back end, and both verify the stored row. -/
theorem planes_agree_sample : RoutedAlike changedServer [completedRun] ∧
    VerifiedAlike changedServer sampleSqlite "single" [storedRow] := by
  have hagree := planes_agree_iff changedServer sampleSqlite sampleSqlite_parseUuid
    changedServer_md5 [completedRun] "single" [storedRow]
  refine ⟨hagree.1.mpr ?_, hagree.2.mpr fun _ => .inr fun row hrow => ?_⟩
  · intro before e hprefix _
    have hmem : e ∈ [completedRun] := hprefix.subset (List.mem_append_right _ List.mem_cons_self)
    rw [List.mem_singleton.mp hmem]
    decide
  · rw [List.mem_singleton.mp hrow, storedRow, recomputedHash_chainedEvent]

end Compliance
end SecureAgnt

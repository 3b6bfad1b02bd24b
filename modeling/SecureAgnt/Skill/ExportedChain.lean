/-
The verifier skill on what the compliance plane exports.

Both sides name the fields of the chain alike, but the plane hashes with MD5 and the skill
with SHA-256: `no_export_verified` says that the skill finds fault with every event.
-/
import SecureAgnt.Compliance.Export
import SecureAgnt.Skill.AuditChain

namespace SecureAgnt
namespace Skill
namespace AuditChain

open Compliance

variable {rt : AuditRuntime} {er : ExportRuntime} {pg : Postgres Json} {config : VerifyConfig}
  {event : ComplianceAuditEventDetailRecord} {events : List ComplianceAuditEventDetailRecord}
  {st : VerifyState} {index : Nat}

/-- A row of the plane carries its own hash. -/
theorem hashed_of_run (history : List (AuditOp Json)) :
    ∀ row ∈ (AuditDb.run pg history).events, row.tamperHash = row.recomputedHash pg := by
  induction history using List.reverseRecOn with
  | nil =>
    intro row hrow
    cases hrow
  | append_singleton history op ih =>
    rw [AuditDb.run, List.foldl_append, ← AuditDb.run]
    show ∀ row ∈ ((AuditDb.run pg history).apply pg op).events, _
    intro row hrow
    cases op with
    | insert e =>
      rw [show ((AuditDb.run pg history).apply pg (.insert e)).events =
        routeAuditEventToCompliance pg (AuditDb.run pg history).events e from rfl,
        routeAuditEventToCompliance] at hrow
      split at hrow
      · split at hrow
        · exact ih row hrow
        · rcases List.mem_append.mp hrow with hrow | hrow
          · exact ih row hrow
          · rw [List.mem_singleton.mp hrow]
            rfl
      · exact ih row hrow
    | setPolicy tenantId policy => exact ih row hrow
    | purge tenantId asOf =>
      rw [show ((AuditDb.run pg history).apply pg (.purge tenantId asOf)).events =
        (purgeExpiredComplianceAuditEvents (AuditDb.run pg history) tenantId asOf).2.events
        from rfl, purgeExpiredComplianceAuditEvents] at hrow
      dsimp only at hrow
      split at hrow
      · exact ih row hrow
      · exact ih row (List.mem_of_mem_filter hrow)

/-- An issue about the hash of the event at a place. -/
def HasHashIssue (st : VerifyState) (index : Nat) : Prop :=
  ∃ issue ∈ st.issues, issue.index = index ∧ issue.code = "HASH_MISMATCH"

/-- The fields of an exported event. -/
def exportedFields (er : ExportRuntime) (event : ComplianceAuditEventDetailRecord) :
    List (String × Json) := ((complianceEventToJsonValue er event).asObject?).getD []

theorem strField_exported :
    strField (exportedFields er event) "tamper_hash" = some event.tamperHash := by
  simp [strField, exportedFields, complianceEventToJsonValue, Json.asObject?, Json.get?,
    Json.asStr?]

/-- The hash of an exported event is too short for the verifier. -/
theorem verifyEvent_exported (hfield : config.hashField = "tamper_hash")
    (hsha : ∀ text, (rt.sha256Hex text).length = 64) (hmd5 : event.tamperHash.length = 32) :
    HasHashIssue (verifyEvent rt config st (complianceEventToJsonValue er event, index)) index ∧
      (verifyEvent rt config st (complianceEventToJsonValue er event, index)).verifiedCount =
        st.verifiedCount := by
  have hprovided : (strField (exportedFields er event) config.hashField).getD "" =
      event.tamperHash := by
    rw [hfield, strField_exported]
    rfl
  have hne : event.tamperHash ≠ expectedHash rt config index st.expectedPrev
      (exportedFields er event) := by
    intro heq
    have hlength := congrArg String.length heq
    rw [hmd5, expectedHash, hsha] at hlength
    exact absurd hlength (by decide)
  have hverify : verifyEvent rt config st (complianceEventToJsonValue er event, index) =
      verifyEvent rt config st (.obj (exportedFields er event), index) := rfl
  rw [hverify]
  unfold verifyEvent
  simp only [Json.asObject?, hprovided]
  constructor
  · unfold HasHashIssue
    rw [if_pos hne]
    exact ⟨_, List.mem_append_right _ (List.mem_singleton_self _), rfl, rfl⟩
  · rw [if_neg fun h => hne h.1]

theorem HasHashIssue.later {entry : Json × Nat} (h : HasHashIssue st index) :
    HasHashIssue (verifyEvent rt config st entry) index := by
  obtain ⟨issue, hissue, hindex, hcode⟩ := h
  obtain ⟨found, hissues, -⟩ :=
    @issues_verifyEvent rt config entry.1 st entry.2
  refine ⟨issue, ?_, hindex, hcode⟩
  rw [show verifyEvent rt config st entry = verifyEvent rt config st (entry.1, entry.2) from rfl,
    hissues]
  exact List.mem_append_left _ hissue

/-- The walk over exported events. -/
theorem verifyEvents_exported (hfield : config.hashField = "tamper_hash")
    (hsha : ∀ text, (rt.sha256Hex text).length = 64)
    (hmd5 : ∀ event ∈ events, event.tamperHash.length = 32) :
    (verifyEvents rt config (events.map (complianceEventToJsonValue er))).verifiedCount = 0 ∧
      ∀ i < events.length,
        HasHashIssue (verifyEvents rt config (events.map (complianceEventToJsonValue er))) i := by
  induction events using List.reverseRecOn with
  | nil => exact ⟨rfl, fun i hi => absurd hi (Nat.not_lt_zero i)⟩
  | append_singleton events event ih =>
    obtain ⟨hcount, hissues⟩ := ih fun other hother => hmd5 other (List.mem_append_left _ hother)
    have hone := @verifyEvent_exported rt er config event
      (verifyEvents rt config (events.map (complianceEventToJsonValue er))) events.length hfield
      hsha (hmd5 event (List.mem_append_right _ (List.mem_singleton_self _)))
    rw [List.map_append, List.map_singleton, verifyEvents_concat, List.length_map]
    refine ⟨hone.2.trans hcount, fun i hi => ?_⟩
    rw [List.length_append, List.length_singleton] at hi
    by_cases hlast : i = events.length
    · rw [hlast]
      exact hone.1
    · exact (hissues i (by omega)).later

/-- Whatever was recorded, purged and selected: a skill that reads the hash of an event in its
own field, whatever seed and other fields it is given, verifies no exported event and
reports the hash of each as wrong. -/
theorem no_export_verified (history : List (AuditOp Json))
    (hevents : ∀ event ∈ events, event.toComplianceEvent ∈ (AuditDb.run pg history).events)
    (hfield : config.hashField = "tamper_hash")
    (hmd5 : ∀ text, (pg.md5 text).length = 32) (hsha : ∀ text, (rt.sha256Hex text).length = 64) :
    (verifyChain rt (events.map (complianceEventToJsonValue er)) config).1 = 0 ∧
      (verifyChain rt (events.map (complianceEventToJsonValue er)) config).2.2 = events.isEmpty ∧
      ∀ i < events.length,
        ∃ issue ∈ (verifyChain rt (events.map (complianceEventToJsonValue er)) config).2.1,
          issue.index = i ∧ issue.code = "HASH_MISMATCH" := by
  have hlength : ∀ event ∈ events, event.tamperHash.length = 32 := by
    intro event hevent
    rw [hashed_of_run history _ (hevents event hevent)]
    exact hmd5 _
  obtain ⟨hcount, hissues⟩ := @verifyEvents_exported rt er config events hfield hsha
    hlength
  refine ⟨hcount, ?_, hissues⟩
  cases events with
  | nil => rfl
  | cons event events =>
    obtain ⟨issue, hissue, -⟩ := hissues 0 (Nat.zero_lt_succ _)
    show List.isEmpty (verifyEvents rt config
      ((event :: events).map (complianceEventToJsonValue er))).issues = false
    exact List.isEmpty_eq_false_iff_exists_mem.mpr ⟨issue, hissue⟩

/-! ## One exported event -/

def md5Text : String := "0123456789abcdef0123456789abcdef"

def shaText : String := "0123456789abcdef0123456789abcdef0123456789abcdef0123456789abcdef"

def exportingServer : Postgres Json where
  md5 := fun _ => md5Text
  jsonbText := fun _ => "\x7b\x7d"
  jsonbField := fun _ _ => none
  timestamptzText := fun _ => "1970-01-01 00:00:00+00"

def failedRunEvent : AuditEvent Json where
  id := Uuid.repeated 1
  runId := Uuid.repeated 2
  stepId := none
  tenantId := "single"
  agentId := none
  userId := none
  actor := "worker"
  eventType := "run.failed"
  payloadJson := .null
  createdAt := 0

def exportedEvent : ComplianceAuditEventDetailRecord where
  toComplianceEvent := chainedEvent exportingServer none failedRunEvent
  recordedAt := 0
  seq_range := by decide
  isValue := .null
  sorted := rfl

def fixedSha : AuditRuntime := ⟨bitText, fun _ => shaText⟩

def unnamedFields : Json := .obj [("events", .arr []), ("seed", .str "genesis")]

/-- With the fields that the skill reads unless told otherwise. -/
theorem no_export_verified_failedRun : ∃ config,
    parseConfig fixedSha.floats unnamedFields = .ok config ∧
    (verifyChain fixedSha ([exportedEvent].map (complianceEventToJsonValue countedExport))
      config).1 = 0 ∧
    (verifyChain fixedSha ([exportedEvent].map (complianceEventToJsonValue countedExport))
      config).2.2 = false := by
  have hevents : ∀ event ∈ [exportedEvent], event.toComplianceEvent ∈
      (AuditDb.run exportingServer [.insert failedRunEvent]).events := by
    intro event hevent
    rw [List.mem_singleton.mp hevent]
    exact List.mem_singleton_self _
  have hrefused := @no_export_verified fixedSha countedExport exportingServer
    ⟨"genesis", "tamper_chain_seq", "tamper_prev_hash", "tamper_hash"⟩ _ [.insert failedRunEvent]
    hevents rfl (fun _ => (by decide : md5Text.length = 32))
    (fun _ => (by decide : shaText.length = 64))
  exact ⟨_, rfl, hrefused.1, hrefused.2.1⟩

end AuditChain
end Skill
end SecureAgnt

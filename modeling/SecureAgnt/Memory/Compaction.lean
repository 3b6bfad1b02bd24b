/-
The compaction of memory records, on both back ends.

A compaction selects groups of old records, marks the records of a group as compacted,
which hides them, and then inserts a row that summarises them.  The statements are
calls of a `Prog`; any of them can end in a database error, before or after its effect,
and a caller can stop between any two.  The world keeps, beside the tables, which marks
have not been followed by their caller's summary.
-/
import Mathlib.Data.List.Dedup
import Mathlib.Data.String.Basic
import SecureAgnt.Lib.Fallible
import SecureAgnt.Lib.Table
import SecureAgnt.Lib.Uuid
import SecureAgnt.Storage

namespace SecureAgnt
namespace Memory

open Storage

/-! ## Records and summaries -/

inductive MemoryKind where
  | session
  | semantic
  | procedural
  | handoff
  deriving DecidableEq, Repr

def MemoryKind.text : MemoryKind → String
  | .session => "session"
  | .semantic => "semantic"
  | .procedural => "procedural"
  | .handoff => "handoff"

structure GroupKey where
  tenantId : String
  agentId : Uuid
  memoryKind : MemoryKind
  scope : String
  deriving DecidableEq

structure MemoryRecord where
  id : Uuid
  key : GroupKey
  runId : Option Uuid
  stepId : Option Uuid
  expiresAt : Option Int
  createdAt : Int
  updatedAt : Int
  compactedAt : Option Int

structure MemoryTable where
  rows : List MemoryRecord
  keys : (rows.map (·.id)).Nodup

/-- A row of `memory_compactions`. -/
structure CompactionRow where
  id : Uuid
  key : GroupKey
  sourceCount : Int
  sourceEntryIds : List Uuid

/-! ## Statements -/

/-- The `WHERE` of the queries that look for records to compact. -/
def MemoryRecord.isDue (b : Backend) (now cutoff : Int) (row : MemoryRecord) : Bool :=
  row.compactedAt.isNone &&
    (row.expiresAt.all fun expires => decide (b.stamp now < b.stamp expires)) &&
    decide (b.stamp row.createdAt ≤ b.stamp cutoff)

/-- `ORDER BY created_at ASC, id ASC`. -/
def MemoryRecord.isOlder (b : Backend) (row row' : MemoryRecord) : Prop :=
  b.stamp row.createdAt < b.stamp row'.createdAt ∨
    b.stamp row.createdAt = b.stamp row'.createdAt ∧ row.id.text ≤ row'.id.text

instance (b : Backend) : DecidableRel (MemoryRecord.isOlder b) := fun row row' =>
  inferInstanceAs (Decidable (b.stamp row.createdAt < b.stamp row'.createdAt ∨
    b.stamp row.createdAt = b.stamp row'.createdAt ∧ row.id.text ≤ row'.id.text))

/-- The records of a group that are due, the oldest first. -/
def dueRecords (b : Backend) (now cutoff : Int) (t : MemoryTable) (key : GroupKey) :
    List MemoryRecord :=
  (t.rows.filter fun row => row.isDue b now cutoff && decide (row.key = key)).insertionSort
    (MemoryRecord.isOlder b)

structure CompactionCandidate where
  key : GroupKey
  sourceCount : Nat
  sourceEntryIds : List Uuid
  representativeRunId : Option Uuid
  representativeStepId : Option Uuid

def candidateOf (key : GroupKey) (rows : List MemoryRecord) : CompactionCandidate where
  key := key
  sourceCount := rows.length
  sourceEntryIds := rows.map (·.id)
  representativeRunId := rows.getLast?.bind (·.runId)
  representativeStepId := rows.getLast?.bind (·.stepId)

/-- What the groups are ordered by: the least time, and on Postgres the least
identifier and the columns of the group. -/
def groupOrder (b : Backend) (key : GroupKey) (rows : List MemoryRecord) : Int × List String :=
  (((rows.map fun row => b.stamp row.createdAt).min?).getD 0,
    match b with
    | .postgres => [((rows.map (·.id.text)).min?).getD "", key.tenantId, key.agentId.text,
        key.memoryKind.text, key.scope]
    | .sqlite => [])

/-- The groups of at least `minRecords` due records, in order. -/
def compactionCandidates (b : Backend) (now cutoff minRecords maxGroups : Int) (t : MemoryTable) :
    List CompactionCandidate :=
  let keys := ((t.rows.filter (·.isDue b now cutoff)).map (·.key)).dedup
  let order := fun key => groupOrder b key (dueRecords b now cutoff t key)
  let groups := (keys.filter fun key =>
    decide (minRecords ≤ (dueRecords b now cutoff t key).length)).insertionSort fun key key' =>
      (order key).1 < (order key').1 ∨
        (order key).1 = (order key').1 ∧ ¬ (order key').2 < (order key).2
  (groups.take maxGroups.toNat).map fun key => candidateOf key (dueRecords b now cutoff t key)

/-! ## Calls -/

structure NewMemoryRecord where
  id : Uuid
  key : GroupKey
  runId : Option Uuid
  stepId : Option Uuid
  expiresAt : Option Int

inductive MemoryOp where
  | selectGroups (cutoff minRecords maxGroups : Int)
  | markAll (ids : List Uuid)
  | selectSources (key : GroupKey) (cutoff : Int)
  | markOne (id : Uuid)
  | insertCompaction (row : CompactionRow)
  | createRecord (new : NewMemoryRecord)
  | purgeExpired (tenantId : String) (asOf : Int)

abbrev MemoryResult : MemoryOp → Type
  | .selectGroups .. => List CompactionCandidate
  | .markAll _ => List Uuid
  | .selectSources .. => List Uuid
  | .markOne _ => Nat
  | .insertCompaction _ => Unit
  | .createRecord _ => Unit
  | .purgeExpired .. => Nat

abbrev MemoryProg := Prog MemoryOp (Fallible MemoryResult) String

def ask (op : MemoryOp) : MemoryProg (MemoryResult op) := Prog.ask op

/-! ## The functions of the source -/

structure CompactionOutcome where
  key : GroupKey
  sourceCount : Nat
  sourceEntryIds : List Uuid
  representativeRunId : Option Uuid
  representativeStepId : Option Uuid

structure CompactionStats where
  processedGroups : Nat
  compactedSourceRecords : Nat
  groups : List CompactionOutcome

def i32Max : Int := 2 ^ 31 - 1

/-- `compacted_count.clamp(1, i32::MAX as i64) as i32`. -/
def clampCount (count : Nat) : Int := min (max (count : Int) 1) i32Max

/-- The summary of what was marked, if enough was. -/
def summarise (minRecords : Int) (newId : Uuid) (candidate : CompactionCandidate)
    (ids : List Uuid) : MemoryProg (Option CompactionOutcome) :=
  if (ids.length : Int) < minRecords then .pure none
  else do
    ask (.insertCompaction ⟨newId, candidate.key, clampCount ids.length, ids⟩)
    .pure (some ⟨candidate.key, ids.length, ids, candidate.representativeRunId,
      candidate.representativeStepId⟩)

/-- The loop of the SQLite form marks one record at a time. -/
def markEach : List Uuid → MemoryProg (List Uuid)
  | [] => .pure []
  | id :: ids => do
    let affected ← ask (.markOne id)
    let rest ← markEach ids
    .pure (if (affected : Nat) = 1 then id :: rest else rest)

def compactGroup (b : Backend) (cutoff minRecords : Int) (newId : Uuid)
    (candidate : CompactionCandidate) : MemoryProg (Option CompactionOutcome) :=
  match b with
  | .postgres =>
    if (candidate.sourceEntryIds.length : Int) < minRecords then .pure none
    else do
      let ids ← ask (.markAll candidate.sourceEntryIds)
      summarise minRecords newId candidate ids
  | .sqlite => do
    let sources ← ask (.selectSources candidate.key cutoff)
    let ids ← markEach sources
    summarise minRecords newId candidate ids

/-- `newIds` are the identifiers that `Uuid::new_v4` gives the summaries. -/
def compactGroups (b : Backend) (cutoff minRecords : Int) (newIds : Nat → Uuid) :
    List CompactionCandidate → MemoryProg (List CompactionOutcome)
  | [] => .pure []
  | candidate :: candidates => do
    let outcome ← compactGroup b cutoff minRecords (newIds candidates.length) candidate
    let outcomes ← compactGroups b cutoff minRecords newIds candidates
    .pure (outcome.toList ++ outcomes)

def compactMemoryRecords (b : Backend) (olderThanOrEqual minRecords maxGroups : Int)
    (newIds : Nat → Uuid) : MemoryProg CompactionStats := do
  let candidates ← ask (.selectGroups olderThanOrEqual (max minRecords 2) (max maxGroups 1))
  let groups ← compactGroups b olderThanOrEqual (max minRecords 2) newIds candidates
  .pure ⟨groups.length, (groups.map (·.sourceCount)).sum, groups⟩

/-! ## The world -/

/-- A record marked by a caller that has not summarised it. -/
structure MemoryMark where
  caller : Nat
  record : Uuid
  deriving DecidableEq

/-- `seen` are the identifiers of all records so far: `Uuid::new_v4` repeats none. -/
structure MemoryWorld where
  records : MemoryTable
  compactions : List CompactionRow
  marks : List MemoryMark
  seen : List Uuid

def MemoryWorld.start : MemoryWorld := ⟨⟨[], List.nodup_nil⟩, [], [], []⟩

def MemoryRecord.mark (ids : List Uuid) (now : Int) (row : MemoryRecord) : MemoryRecord :=
  if ids.contains row.id then { row with compactedAt := some now, updatedAt := now } else row

theorem MemoryRecord.mark_id (ids : List Uuid) (now : Int) (row : MemoryRecord) :
    (row.mark ids now).id = row.id := by
  unfold MemoryRecord.mark
  split <;> rfl

def MemoryTable.mark (t : MemoryTable) (ids : List Uuid) (now : Int) : MemoryTable where
  rows := t.rows.map (·.mark ids now)
  keys := by
    have hsame : (t.rows.map (·.mark ids now)).map (·.id) = t.rows.map (·.id) := by
      rw [List.map_map]
      exact List.map_congr_left fun row _ => row.mark_id ids now
    rw [hsame]
    exact t.keys

def MemoryTable.insert (t : MemoryTable) (row : MemoryRecord) (hnew : row.id ∉ t.rows.map (·.id)) :
    MemoryTable where
  rows := t.rows ++ [row]
  keys := Table.nodup_append_row t.keys hnew

def MemoryTable.delete (t : MemoryTable) (gone : MemoryRecord → Bool) : MemoryTable where
  rows := t.rows.filter fun row => !gone row
  keys := t.keys.sublist (List.filter_sublist.map _)

def NewMemoryRecord.row (new : NewMemoryRecord) (now : Int) : MemoryRecord :=
  ⟨new.id, new.key, new.runId, new.stepId, new.expiresAt, now, now, none⟩

/-- The records with these identifiers that are not compacted. -/
def MemoryWorld.markable (w : MemoryWorld) (ids : List Uuid) : List Uuid :=
  (w.records.rows.filter fun row => ids.contains row.id && row.compactedAt.isNone).map (·.id)

def MemoryWorld.mark (w : MemoryWorld) (caller : Nat) (ids : List Uuid) (now : Int) : MemoryWorld :=
  { w with
    records := w.records.mark ids now
    marks := w.marks ++ ids.map fun id => ⟨caller, id⟩ }

def MemoryWorld.summarise (w : MemoryWorld) (caller : Nat) (row : CompactionRow) : MemoryWorld :=
  { w with
    compactions := w.compactions ++ [row]
    marks := w.marks.filter fun mark =>
      !(decide (mark.caller = caller) && row.sourceEntryIds.contains mark.record) }

def isPurgeable (b : Backend) (tenantId : String) (asOf : Int) (row : MemoryRecord) : Bool :=
  decide (row.key.tenantId = tenantId) &&
    row.expiresAt.any fun expires => decide (b.stamp expires ≤ b.stamp asOf)

/-- What a call answers and does at the instant `now`. -/
def memoryEffect (b : Backend) (caller : Nat) (now : Int) (w : MemoryWorld) :
    (op : MemoryOp) → MemoryResult op → MemoryWorld → Prop
  | .selectGroups cutoff minRecords maxGroups, answer, w' =>
    answer = compactionCandidates b now cutoff minRecords maxGroups w.records ∧ w' = w
  | .markAll ids, answer, w' =>
    answer.Perm (w.markable ids) ∧ w' = w.mark caller answer now
  | .selectSources key cutoff, answer, w' =>
    answer = (dueRecords b now cutoff w.records key).map (·.id) ∧ w' = w
  | .markOne id, answer, w' =>
    answer = (w.markable [id]).length ∧ w' = w.mark caller (w.markable [id]) now
  | .insertCompaction row, _, w' =>
    row.id ∉ w.compactions.map (·.id) ∧ w' = w.summarise caller row
  | .createRecord new, _, w' => new.id ∉ w.seen ∧ ∃ hnew,
    w' = { w with records := w.records.insert (new.row now) hnew, seen := new.id :: w.seen }
  | .purgeExpired tenantId asOf, answer, w' =>
    answer = w.records.rows.countP (isPurgeable b tenantId asOf) ∧
      w' = { w with records := w.records.delete (isPurgeable b tenantId asOf) }

def memoryHandler (b : Backend) (caller : Nat) :
    Handler MemoryOp (Fallible MemoryResult) MemoryWorld :=
  .fallible fun w op result w' => ∃ now, memoryEffect b caller now w op result w'

/-- A summary lists records that its caller has marked and not summarised, each once,
and counts them. -/
def MayCall (caller : Nat) (w : MemoryWorld) : MemoryOp → Prop
  | .insertCompaction row => row.sourceEntryIds.Nodup ∧ row.sourceEntryIds ≠ [] ∧
      row.sourceCount = clampCount row.sourceEntryIds.length ∧
      ∀ id ∈ row.sourceEntryIds, ⟨caller, id⟩ ∈ w.marks
  | _ => True

/-- One call of one caller. -/
def MemoryMove (b : Backend) (w w' : MemoryWorld) : Prop :=
  ∃ caller op answer, MayCall caller w op ∧ (memoryHandler b caller).step w op answer w'

def MemoryReaches (b : Backend) : MemoryWorld → MemoryWorld → Prop :=
  Relation.ReflTransGen (MemoryMove b)

end Memory
end SecureAgnt

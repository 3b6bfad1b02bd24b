/-
The rows that the queues of the two back ends begin with.

From the same tables a queue of SQLite has the rows of the Postgres queue, for whole seconds
only round down, and its own order has no ties.  `firstTriggerAgrees_iff` and
`firstEventAgrees_iff` say that both queues begin with one row when the first row for Postgres
is also the least for SQLite.
-/
import Mathlib.Data.Prod.Lex
import Mathlib.Data.String.Basic
import SecureAgnt.Trigger.DispatchOrder

namespace SecureAgnt
namespace Trigger

open Storage

/-! ## The first of a queue -/

/-- The first of a queue is also the least of another one in the order of `rank`; the other one
is empty if the first is. -/
structure SameHead {α β : Type} [LE β] (queue queue' : List α) (rank : α → β) : Prop where
  first : ∀ x, queue.head? = some x → ∀ y ∈ queue', rank x ≤ rank y
  idle : queue = [] → queue' = []

theorem sameHead_iff {α β : Type} [PartialOrder β] {queue queue' : List α} {rank : α → β}
    (hsub : ∀ x ∈ queue, x ∈ queue') (hinj : ∀ x ∈ queue', ∀ y ∈ queue', rank x = rank y → x = y)
    (hfirst : ∀ x, queue'.head? = some x → ∀ y ∈ queue', rank x ≤ rank y) :
    SameHead queue queue' rank ↔ queue.head? = queue'.head? := by
  constructor
  · intro h
    cases hq : queue with
    | nil => rw [h.idle hq]
    | cons x rest =>
      have hx : x ∈ queue' := hsub x (hq ▸ List.mem_cons_self)
      cases hq' : queue' with
      | nil =>
        rw [hq'] at hx
        cases hx
      | cons x' rest' =>
        have hx' : x' ∈ queue' := hq' ▸ List.mem_cons_self
        have hle := h.first x (by rw [hq]; rfl) x' hx'
        have hge := hfirst x' (by rw [hq']; rfl) x hx
        rw [hinj x hx x' hx' (le_antisymm hle hge)]
        rfl
  · intro h
    refine ⟨fun x hx => hfirst x (h ▸ hx), ?_⟩
    rintro rfl
    exact List.head?_eq_none_iff.mp h.symm

/-- Where SQLite has a row of a queue: by priority, by whole seconds and by id. -/
def sqliteRank (now : Int) (input : Json) (since : Int) (id : String) : Nat ×ₗ Int ×ₗ String :=
  toLex (queuePriority .sqlite (Backend.sqlite.currentTimestamp now) input since,
    toLex (Backend.sqlite.stamp since, id))

section Queues

variable (now tenantMax : Int) (db : Db)

def triggerQueue (b : Backend) (type : TriggerType) : List TriggerRow :=
  dueTriggers b (b.currentTimestamp now) db type (max tenantMax 1)

def eventQueue (b : Backend) : List (EventRow × TriggerRow) :=
  dueEvents b (b.currentTimestamp now) db (max tenantMax 1)

/-- The trigger of a type that Postgres takes first, if there is one, is the least for SQLite. -/
def FirstTriggerAgrees (type : TriggerType) : Prop :=
  SameHead (triggerQueue now tenantMax db .postgres type)
    (triggerQueue now tenantMax db .sqlite type)
    fun row => sqliteRank now row.inputJson row.nextFireAt row.id

/-- So is the event. -/
def FirstEventAgrees : Prop :=
  SameHead (eventQueue now tenantMax db .postgres) (eventQueue now tenantMax db .sqlite)
    fun row => sqliteRank now row.2.inputJson row.1.createdAt row.1.id

end Queues

section Heads

variable {now tenantMax : Int} {db : Db} {type : TriggerType}

theorem sqliteRank_le {input input' : Json} {since since' : Int} {id id' : String} :
    sqliteRank now input since id ≤ sqliteRank now input' since' id' ↔
      queuePriority .sqlite (Backend.sqlite.currentTimestamp now) input since <
          queuePriority .sqlite (Backend.sqlite.currentTimestamp now) input' since' ∨
        queuePriority .sqlite (Backend.sqlite.currentTimestamp now) input since =
            queuePriority .sqlite (Backend.sqlite.currentTimestamp now) input' since' ∧
          (Backend.sqlite.stamp since < Backend.sqlite.stamp since' ∨
            Backend.sqlite.stamp since = Backend.sqlite.stamp since' ∧ id ≤ id') := by
  unfold sqliteRank
  rw [Prod.Lex.toLex_le_toLex, Prod.Lex.toLex_le_toLex]

/-- What is due for Postgres is due for SQLite, which rounds down. -/
theorem stamp_le_of_postgres {t : Int}
    (h : Backend.postgres.stamp t ≤
      Backend.postgres.stamp (Backend.postgres.currentTimestamp now)) :
    Backend.sqlite.stamp t ≤ Backend.sqlite.stamp (Backend.sqlite.currentTimestamp now) := by
  replace h : t ≤ now := h
  show t / 10 ^ 9 ≤ now / 10 ^ 9 * 10 ^ 9 / 10 ^ 9
  omega

theorem sqliteRank_id {input input' : Json} {since since' : Int} {id id' : String}
    (h : sqliteRank now input since id = sqliteRank now input' since' id') : id = id' := by
  have hlater := congrArg (fun rank => (ofLex (ofLex rank).2).2) h
  exact hlater

theorem pairwise_tieBreak (rows : List TriggerRow) :
    (rows.insertionSort fun x y => tieBreak .sqlite x y = true).Pairwise
      fun x y => x.id ≤ y.id := by
  have htie : ∀ x y, tieBreak .sqlite x y = true ↔ x.id ≤ y.id := fun x y => decide_eq_true_iff
  have htotal : Std.Total fun x y => tieBreak .sqlite x y = true := ⟨fun x y => by
    rw [htie, htie]
    exact le_total x.id y.id⟩
  have htrans : IsTrans TriggerRow fun x y => tieBreak .sqlite x y = true := ⟨fun x y z => by
    rw [htie, htie, htie]
    exact le_trans⟩
  exact (List.pairwise_insertionSort _ rows).imp (htie _ _).mp

theorem firstTriggerAgrees_iff (hkeys : db.entries.Nodup) :
    FirstTriggerAgrees now tenantMax db type ↔
      firstTrigger .postgres now tenantMax type db =
        firstTrigger .sqlite now tenantMax type db := by
  refine sameHead_iff ?_ ?_ ?_
  · intro row hrow
    obtain ⟨hmem, hfire, htype, hdue⟩ := mem_dueTriggers.mp hrow
    exact mem_dueTriggers.mpr ⟨hmem, hfire, htype, stamp_le_of_postgres hdue⟩
  · intro x hx y hy h
    exact List.inj_on_of_nodup_map (nodup_triggers hkeys) (mem_dueTriggers.mp hx).1
      (mem_dueTriggers.mp hy).1 (sqliteRank_id h)
  · intro x hx y hy
    rcases orderBy_first (pairwise_tieBreak _) hx (mem_orderBy.mp hy) with rfl | hle
    · exact le_rfl
    · exact sqliteRank_le.mpr hle

theorem firstEventAgrees_iff (hkeys : db.entries.Nodup) :
    FirstEventAgrees now tenantMax db ↔
      firstEvent .postgres now tenantMax db = firstEvent .sqlite now tenantMax db := by
  refine sameHead_iff ?_ ?_ ?_
  · intro row hrow
    obtain ⟨hmem, htrigger, hdue⟩ := mem_dueEvents.mp hrow
    refine mem_dueEvents.mpr ⟨hmem, htrigger, ?_⟩
    simp only [isDueEvent, Bool.and_eq_true, decide_eq_true_eq] at hdue ⊢
    exact ⟨⟨⟨hdue.1.1.1, stamp_le_of_postgres hdue.1.1.2⟩, hdue.1.2⟩, hdue.2⟩
  · intro x hx y hy h
    obtain ⟨hevent, htrigger, -⟩ := mem_dueEvents.mp hx
    obtain ⟨hevent', htrigger', -⟩ := mem_dueEvents.mp hy
    have hsame : x.1 = y.1 :=
      List.inj_on_of_nodup_map (nodup_events hkeys) hevent hevent' (sqliteRank_id h)
    rw [hsame, htrigger', Option.some.injEq] at htrigger
    exact Prod.ext hsame htrigger.symm
  · intro x hx y hy
    have hsorted := Sorting.pairwise_key (fun row : EventRow × TriggerRow => row.1.id)
    rcases orderBy_first (hsorted _) hx (mem_orderBy.mp hy) with rfl | hle
    · exact le_rfl
    · exact sqliteRank_le.mpr hle

end Heads

end Trigger
end SecureAgnt

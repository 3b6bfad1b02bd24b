/-
The two database back ends, as far as a query depends on which of them runs it.

Times are nanoseconds since the epoch.
-/
import Mathlib.Data.List.Sort
import SecureAgnt.Lib.Json
import SecureAgnt.Lib.Text

namespace SecureAgnt
namespace Storage

inductive Backend where
  | postgres
  | sqlite
  deriving DecidableEq, Repr

/-- What a comparison of two times looks at: Postgres compares the instants, and
SQLite passes both through `datetime`, which keeps whole seconds. -/
def Backend.stamp : Backend → Int → Int
  | .postgres, t => t
  | .sqlite, t => t / 10 ^ 9

def Backend.isBefore (b : Backend) (s t : Int) : Bool := b.stamp s < b.stamp t

theorem Backend.stamp_mono (b : Backend) {s t : Int} (h : s ≤ t) : b.stamp s ≤ b.stamp t := by
  cases b with
  | postgres => exact h
  | sqlite => exact Int.ediv_le_ediv (by decide) h

/-- What is before an instant is before every later one. -/
theorem Backend.isBefore_mono {b : Backend} {s t t' : Int} (h : b.isBefore s t = true)
    (hle : t ≤ t') : b.isBefore s t' = true := by
  have hlt : b.stamp s < b.stamp t := of_decide_eq_true h
  have hmono := b.stamp_mono hle
  exact decide_eq_true (by omega)

/-- `now()` and `CURRENT_TIMESTAMP`: SQLite writes whole seconds. -/
def Backend.currentTimestamp : Backend → Int → Int
  | .postgres, now => now
  | .sqlite, now => now / 10 ^ 9 * 10 ^ 9

/-! ## The order of the queues -/

/-- The text of a field in SQL; `null` and a missing field are `NULL`.  No value
but a string has the text of a queue class. -/
def fieldText (input : Json) (field : String) : Option String :=
  match input.get? field with
  | none => none
  | some .null => none
  | some (.str text) => some text
  | some _ => some ""

def queueClass (input : Json) : String :=
  Text.toAsciiLowercase
    (((fieldText input "queue_class").or (fieldText input "llm_queue_class")).getD "interactive")

def fifteenMinutes : Int := 15 * 60 * 10 ^ 9

/-- The `CASE` of the queue queries: batch work waits for the rest until it is a
quarter of an hour old. -/
def queuePriority (b : Backend) (now : Int) (input : Json) (since : Int) : Nat :=
  if queueClass input = "batch" ∧ b.stamp since ≤ b.stamp (now - fifteenMinutes) then 0
  else if queueClass input = "interactive" then 0
  else if queueClass input = "batch" then 1
  else 0

/-- `ORDER BY` two columns; rows that agree on both stay in the order of the scan. -/
def orderBy {α : Type} (key : α → Nat × Int) (rows : List α) : List α :=
  rows.insertionSort fun x y =>
    (key x).1 < (key y).1 ∨ (key x).1 = (key y).1 ∧ (key x).2 ≤ (key y).2

theorem mem_orderBy {α : Type} {key : α → Nat × Int} {rows : List α} {x : α} :
    x ∈ orderBy key rows ↔ x ∈ rows :=
  List.mem_insertionSort _

end Storage
end SecureAgnt

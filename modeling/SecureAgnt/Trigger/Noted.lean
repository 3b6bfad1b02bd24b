/-
Runs with their history.

Every statement of a session is noted with its answer, so that a condition on a run can
speak of what a session has read.  What a call commits without a history it commits with
one.
-/
import SecureAgnt.Trigger.Tracked

namespace SecureAgnt
namespace Trigger

open Storage
open Handler

/-! ## Histories -/

/-- A statement of a session with its answer, whether the tables changed with it, and the
tables after it. -/
structure Event where
  session : Nat
  stmt : Stmt
  answer : stmt.Ans
  changed : Bool
  db : Db

def noted (i : Nat) (w : TriggerWorld) (stmt : Stmt) (answer : stmt.Ans) (w' : TriggerWorld)
    (event : Event) : Prop :=
  ∃ changed, event = ⟨i, stmt, answer, changed, w'.tx.db⟩ ∧ (changed = true ↔ w'.tx.db ≠ w.tx.db)

/-- The row that a lookup found. -/
def Event.row? : Event → Option TriggerRow
  | ⟨_, .sql (.selectTrigger _ _), .ok (some row), _, _⟩ => some row
  | _ => none

/-- The time that the clock showed. -/
def Event.time? : Event → Option Int
  | ⟨_, .nowUtc, now, _, _⟩ => some now
  | _ => none

section Reads

variable (history : List Event) (i : Nat)

/-- What session `i` did. -/
def own : List Event := history.filter (·.session = i)

/-- The row that session `i` found first. -/
def readBy : Option TriggerRow := (own history i).findSome? Event.row?

/-- The times that session `i` has read from the clock. -/
def clockReads : List Int := (own history i).filterMap Event.time?

/-- The time that session `i` has read from the clock first, with the tables at it. -/
def firstReading : Option (Int × Db) :=
  (own history i).findSome? fun event => event.time?.map (·, event.db)

end Reads

/-- Session `i` with its history, in the runs whose statements meet `cond`. -/
def notedSession (faults : Bool) (cond : TriggerWorld × List Event → Stmt → Prop) (i : Nat) :
    Handler Stmt Stmt.Ans (TriggerWorld × List Event) :=
  ((session .postgres faults i).recorded (noted i)).guarded cond

/-! ## Contracts -/

/-- What session `i` relies on and promises: every statement is noted as that of its
session. -/
def notedContract (moves : TriggerWorld × List Event → Db → Prop) (i : Nat) :
    Contract (TriggerWorld × List Event) Stmt where
  rely t t' := LeftAlone .postgres i t.1 t'.1 ∧ own t'.2 i = own t.2 i
  guarantee t t' := (∀ j, j ≠ i → LeftAlone .postgres j t.1 t'.1) ∧
    (∃ event : Event, event.session = i ∧ t'.2 = t.2 ++ [event]) ∧
      (t'.1.tx.db = t.1.tx.db ∨ moves t t'.1.tx.db)
  safe := fun _ _ => True
  rely_refl t := ⟨(moveContract .postgres (fun _ _ _ => True) i).rely_refl t.1, rfl⟩
  rely_trans h h' := ⟨(moveContract .postgres (fun _ _ _ => True) i).rely_trans h.1 h'.1,
    h'.2.trans h.2⟩

section Histories

variable {i j : Nat} {history : List Event} {event : Event} {read : TriggerRow} {now : Int}
  {tables : Db}

theorem own_concat_self (hown : event.session = i) :
    own (history ++ [event]) i = own history i ++ [event] := by
  unfold own
  rw [List.filter_append, List.filter_cons_of_pos (by simpa using hown), List.filter_nil]

theorem own_concat_other (hother : event.session ≠ i) :
    own (history ++ [event]) i = own history i := by
  unfold own
  rw [List.filter_append, List.filter_cons_of_neg (by simpa using hother), List.filter_nil,
    List.append_nil]

/-- What a session read first it has read first ever after. -/
theorem readBy_append (events : List Event) (h : readBy history i = some read) :
    readBy (history ++ events) i = some read := by
  unfold readBy own at h ⊢
  rw [List.filter_append, List.findSome?_append, h]
  rfl

theorem clockReads_append (events : List Event) {k : Nat}
    (h : (clockReads history i)[k]? = some now) :
    (clockReads (history ++ events) i)[k]? = some now := by
  unfold clockReads own at h ⊢
  rw [List.filter_append, List.filterMap_append, List.getElem?_append_left, h]
  exact (List.getElem?_eq_some_iff.mp h).1

theorem firstReading_of_clockReads (h : (clockReads history i)[0]? = some now) :
    ∃ tables, firstReading history i = some (now, tables) := by
  unfold clockReads at h
  rw [← List.head?_eq_getElem?, List.head?_filterMap] at h
  obtain ⟨before, event, after, hown, htime, hnone⟩ := List.findSome?_eq_some_iff.mp h
  refine ⟨event.db, List.findSome?_eq_some_iff.mpr ⟨before, event, after, hown, ?_, ?_⟩⟩
  · rw [htime]
    rfl
  · intro other hother
    rw [hnone other hother]
    rfl

theorem exists_of_firstReading (h : firstReading history i = some (now, tables)) :
    ∃ event ∈ history, event.time? = some now ∧ event.db = tables := by
  obtain ⟨event, hmem, hreading⟩ := List.exists_of_findSome?_eq_some h
  obtain ⟨time, htime, heq⟩ := Option.map_eq_some_iff.mp hreading
  cases heq
  exact ⟨event, (List.mem_filter.mp hmem).1, htime, rfl⟩

end Histories

section Steps

variable {faults : Bool} {cond : TriggerWorld × List Event → Stmt → Prop} {i : Nat}
  {moves : TriggerWorld × List Event → Db → Prop} {t t' : TriggerWorld × List Event}

/-- A statement and its note. -/
theorem noted_step {stmt : Stmt} {answer : stmt.Ans}
    (h : (notedSession faults cond i).step t stmt answer t') :
    (session .postgres faults i).step t.1 stmt answer t'.1 ∧ ∃ changed,
      t'.2 = t.2 ++ [⟨i, stmt, answer, changed, t'.1.tx.db⟩] ∧
        (changed = true ↔ t'.1.tx.db ≠ t.1.tx.db) := by
  obtain ⟨_, hcall, event, ⟨changed, rfl, hchanged⟩, hhistory⟩ := h
  exact ⟨hcall, changed, hhistory, hchanged⟩

theorem noted_guarantee {stmt : Stmt} {answer : stmt.Ans} (hlock : LockInv .postgres t.1)
    (h : (notedSession faults cond i).step t stmt answer t')
    (hdb : t'.1.tx.db = t.1.tx.db ∨ moves t t'.1.tx.db) :
    (notedContract moves i).guarantee t t' := by
  obtain ⟨hcall, changed, hhistory, _⟩ := noted_step h
  exact ⟨leftAlone_of_step hlock hcall, ⟨_, rfl, hhistory⟩, hdb⟩

/-- A call that follows its moves without a history does so with one; `I` is what the
history says of it all along. -/
theorem noted_of_follows {α : Type} {moves' : Int → Db → Db → Prop} {since : Int}
    {p : TriggerProg α} {I : TriggerWorld × List Event → Prop}
    (hlock : ∀ t stmt, cond t stmt → LockInv .postgres t.1)
    (hrely : ∀ t t', I t → (notedContract moves i).rely t t' → I t')
    (hstep : ∀ t stmt answer t', I t → (notedSession faults cond i).step t stmt answer t' → I t')
    (hmoves : ∀ t db', I t → moves' t.1.clock t.1.tx.db db' → moves t db')
    (h : Follows .postgres faults (fun _ => True) moves' i since p)
    (hclosed : t.1.tx.sessions i = none) (hsince : since ≤ t.1.clock) (hI : I t) :
    wp (notedSession faults cond i) (notedContract moves i) p (fun _ _ => True) t := by
  refine wp_mono (fun _ _ _ => trivial) (wp_lift (π := Prod.fst) (I := I) hrely hstep
    ?_ (fun _ _ h => h.1) (fun _ _ _ => trivial) ?_ hI (h.run t.1 hclosed hsince))
  · intro t stmt answer t' hcall
    exact ⟨⟨hlock t stmt hcall.1, trivial⟩, (noted_step hcall).1⟩
  · intro t stmt answer t' hI hcall hguar
    exact noted_guarantee (hlock t stmt hcall.1) hcall (hguar.2.imp_right (hmoves t _ hI))

end Steps

end Trigger
end SecureAgnt

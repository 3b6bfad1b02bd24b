/-
What the locks keep.

A transaction that holds the row of a trigger, or on SQLite the database, has that row
to itself until it ends: `trigger?_kept` says that no other session changes it.  The
reason is `LockInv`: an open transaction holds what its writes need, and no two hold
the same.
-/
import SecureAgnt.Trigger.Session

namespace SecureAgnt
namespace Trigger

open Storage

/-- What a transaction has to hold to write a trigger. -/
def guardOf (b : Backend) (id : String) : Resource :=
  match b with
  | .postgres => .triggerRow id
  | .sqlite => .database

structure LockInv (b : Backend) (w : TriggerWorld) : Prop where
  tx : TxInv triggerStore w.tx
  needs : ∀ i tx, w.tx.sessions i = some tx → ∀ x ∈ tx.writes, ∀ r ∈ x.needs b, r ∈ tx.holds

/-! ## What becomes of a session's transaction -/

/-- The transaction of session `i` after a statement. -/
inductive OwnMove (b : Backend) (i : Nat) (w w' : TriggerWorld) : Prop
  | closed (h : w'.tx.sessions i = none)
  | begun (h : w'.tx.sessions i = some ⟨[], []⟩)
  | same (h : w'.tx.sessions i = w.tx.sessions i)
  | locked {tx : Tx Write Resource} (rs : List Resource) (h : w.tx.sessions i = some tx)
      (h' : w'.tx.sessions i = some ⟨tx.writes, tx.holds ++ rs⟩)
  | written {tx : Tx Write Resource} (x : Write) (h : w.tx.sessions i = some tx)
      (h' : w'.tx.sessions i = some ⟨tx.writes ++ [x], tx.holds ++ x.needs b⟩)

section Steps

variable {b : Backend} {faults : Bool} {i : Nat} {now : Int} {w w' : TriggerWorld}

theorem ownMove_lock {rs : List Resource} (h : LockStep i now w rs w') : OwnMove b i w w' := by
  obtain ⟨_, h⟩ := h
  split at h
  · subst h
    exact .same rfl
  · rename_i tx htx
    subst h
    exact .locked rs htx (w.tx.setSession_same i _)

theorem ownMove_write {x : Write} {answer : Except DbError Unit}
    (h : WriteStep b i now w x answer w') : OwnMove b i w w' := by
  unfold WriteStep at h
  split at h
  · rw [h.2]
    exact .same rfl
  · rename_i tx htx
    rcases h.2 with ⟨_, _, rfl⟩ | ⟨_, _, _, _, rfl⟩
    · exact .written x htx (w.tx.setSession_same i _)
    · exact .same rfl

theorem ownMove_writeIf {possible : Prop} {x : Write} {answer : Except DbError Bool}
    (h : WriteIfStep b i now w possible x answer w') : OwnMove b i w w' := by
  rcases h with ⟨_, _, h, _⟩ | ⟨_, _, rfl⟩
  · exact ownMove_write h
  · exact .same rfl

theorem ownMove_query {query : Query} {answer : Except DbError query.Result}
    (h : QueryStep b i now w query answer w') : OwnMove b i w w' := by
  have htick : w' = w.tick now → OwnMove b i w w' := by
    rintro rfl
    exact .same rfl
  cases query with
  | begin =>
    replace h : BeginStep i now w answer w' := h
    unfold BeginStep at h
    split at h
    · rw [h.2]
      exact .begun (w.tx.setSession_same i _)
    · exact htick h.2
  | commit =>
    replace h : CommitStep i now w answer w' := h
    unfold CommitStep at h
    split at h
    · exact htick h.2
    · rw [h.2]
      exact .closed (publish_closed i w now _)
  | selectDueTrigger type tenantMax =>
    obtain ⟨_, _, _, h⟩ := h
    exact ownMove_lock h
  | selectDueEvent tenantMax =>
    obtain ⟨_, _, _, h⟩ := h
    exact ownMove_lock h
  | selectTrigger tenantId triggerId => exact htick h.2
  | selectTriggerForUpdate tenantId triggerId =>
    obtain ⟨_, _, _, h⟩ := h
    exact ownMove_lock h
  | selectEvent triggerId eventId => exact htick h.2
  | selectEventForUpdate tenantId triggerId eventId =>
    obtain ⟨_, _, _, h⟩ := h
    exact ownMove_lock h
  | selectTriggerRun triggerId dedupeKey => exact htick h.2
  | countTriggerInflight triggerId => exact htick h.2
  | countTenantInflight tenantId => exact htick h.2
  | insertRun row => exact ownMove_write h
  | insertTriggerRun row => exact ownMove_write h
  | insertEvent row => exact ownMove_writeIf h
  | updateTrigger triggerId change => exact ownMove_write h
  | reserveTrigger triggerId scheduledFor change => exact ownMove_writeIf h
  | updateEvent eventRowId change => exact ownMove_write h
  | reserveEvent selects change =>
    rcases h with ⟨_, _, _, _, h, _⟩ | ⟨_, _, h⟩
    · exact ownMove_write h
    · exact htick h
  | edit x => exact ownMove_write h

theorem ownMove_stmt {stmt : Stmt} {answer : stmt.Ans}
    (h : stmtStep b i now w faults stmt answer w') : OwnMove b i w w' := by
  cases stmt with
  | nowUtc =>
    rw [h.2]
    exact .same rfl
  | newUuid =>
    rw [h.2]
    exact .same rfl
  | rollback =>
    obtain rfl : w' = (w.tick now).setTx i none := h
    exact .closed (w.tx.setSession_same i none)
  | sql query =>
    rcases h with h | ⟨_, _, rfl | ⟨tx, _, _, rfl⟩⟩
    · exact ownMove_query h
    · exact .closed (w.tx.setSession_same i none)
    · exact .closed (publish_closed i w now tx)

/-- The tables change only as a whole transaction is committed. -/
theorem db_of_stmt {stmt : Stmt} {answer : stmt.Ans}
    (h : stmtStep b i now w faults stmt answer w') : w'.tx.db = w.tx.db ∨
      ∃ tx, w.tx.sessions i = some tx ∧ w'.tx.db = triggerStore.run tx.writes w.tx.db := by
  cases stmt with
  | nowUtc => exact .inl (h.2 ▸ rfl)
  | newUuid => exact .inl (h.2 ▸ rfl)
  | rollback =>
    obtain rfl : w' = (w.tick now).setTx i none := h
    exact .inl rfl
  | sql query =>
    rcases h with h | ⟨_, _, rfl | ⟨tx, _, htx, rfl⟩⟩
    · by_cases hcommit : query = .commit
      · subst hcommit
        replace h : CommitStep i now w answer w' := h
        unfold CommitStep at h
        split at h
        · exact .inl (h.2 ▸ rfl)
        · rename_i tx htx
          exact .inr ⟨tx, htx, h.2 ▸ rfl⟩
      · exact .inl (quiet_query hcommit h).db
    · exact .inl rfl
    · exact .inr ⟨tx, htx, rfl⟩

/-- Only a commit changes the tables. -/
theorem commit_of_changed {stmt : Stmt} {answer : stmt.Ans}
    (h : stmtStep b i now w faults stmt answer w') (hchanged : w'.tx.db ≠ w.tx.db) :
    stmt = .sql .commit := by
  cases stmt with
  | nowUtc => exact absurd (h.2 ▸ rfl) hchanged
  | newUuid => exact absurd (h.2 ▸ rfl) hchanged
  | rollback =>
    obtain rfl : w' = (w.tick now).setTx i none := h
    exact absurd rfl hchanged
  | sql query =>
    by_cases hcommit : query = .commit
    · rw [hcommit]
    · rcases h with h | ⟨_, _, rfl | ⟨tx, hquery, _⟩⟩
      · exact absurd (quiet_query hcommit h).db hchanged
      · exact absurd rfl hchanged
      · exact absurd hquery hcommit

theorem clock_lock {rs : List Resource} (h : LockStep i now w rs w') : w'.clock = now := by
  obtain ⟨_, h⟩ := h
  split at h
  · exact h ▸ rfl
  · exact h ▸ rfl

theorem clock_write {x : Write} {answer : Except DbError Unit}
    (h : WriteStep b i now w x answer w') : w'.clock = now := by
  unfold WriteStep at h
  split at h
  · exact h.2 ▸ rfl
  · rcases h.2 with ⟨_, _, rfl⟩ | ⟨_, _, _, _, rfl⟩
    · rfl
    · rfl

theorem clock_writeIf {possible : Prop} {x : Write} {answer : Except DbError Bool}
    (h : WriteIfStep b i now w possible x answer w') : w'.clock = now := by
  rcases h with ⟨_, _, h, _⟩ | ⟨_, _, rfl⟩
  · exact clock_write h
  · rfl

theorem clock_query {query : Query} {answer : Except DbError query.Result}
    (h : QueryStep b i now w query answer w') : w'.clock = now := by
  cases query with
  | begin =>
    replace h : BeginStep i now w answer w' := h
    unfold BeginStep at h
    split at h
    · exact h.2 ▸ rfl
    · exact h.2 ▸ rfl
  | commit =>
    replace h : CommitStep i now w answer w' := h
    unfold CommitStep at h
    split at h
    · exact h.2 ▸ rfl
    · exact h.2 ▸ rfl
  | selectDueTrigger type tenantMax =>
    obtain ⟨_, _, _, h⟩ := h
    exact clock_lock h
  | selectDueEvent tenantMax =>
    obtain ⟨_, _, _, h⟩ := h
    exact clock_lock h
  | selectTrigger tenantId triggerId => exact h.2 ▸ rfl
  | selectTriggerForUpdate tenantId triggerId =>
    obtain ⟨_, _, _, h⟩ := h
    exact clock_lock h
  | selectEvent triggerId eventId => exact h.2 ▸ rfl
  | selectEventForUpdate tenantId triggerId eventId =>
    obtain ⟨_, _, _, h⟩ := h
    exact clock_lock h
  | selectTriggerRun triggerId dedupeKey => exact h.2 ▸ rfl
  | countTriggerInflight triggerId => exact h.2 ▸ rfl
  | countTenantInflight tenantId => exact h.2 ▸ rfl
  | insertRun row => exact clock_write h
  | insertTriggerRun row => exact clock_write h
  | insertEvent row => exact clock_writeIf h
  | updateTrigger triggerId change => exact clock_write h
  | reserveTrigger triggerId scheduledFor change => exact clock_writeIf h
  | updateEvent eventRowId change => exact clock_write h
  | reserveEvent selects change =>
    rcases h with ⟨_, _, _, _, h, _⟩ | ⟨_, _, h⟩
    · exact clock_write h
    · exact h ▸ rfl
  | edit x => exact clock_write h

theorem clock_stmt {stmt : Stmt} {answer : stmt.Ans}
    (h : stmtStep b i now w faults stmt answer w') : w'.clock = now := by
  cases stmt with
  | nowUtc => exact h.2 ▸ rfl
  | newUuid => exact h.2 ▸ rfl
  | rollback =>
    obtain rfl : w' = (w.tick now).setTx i none := h
    rfl
  | sql query =>
    rcases h with h | ⟨_, _, rfl | ⟨_, _, _, rfl⟩⟩
    · exact clock_query h
    · rfl
    · rfl

theorem lockInv_session {stmt : Stmt} {answer : stmt.Ans} (h : LockInv b w)
    (hstep : (session b faults i).step w stmt answer w') : LockInv b w' := by
  refine ⟨txInv_session h.tx hstep, fun j tx htx x hx r hr => ?_⟩
  obtain ⟨now, _, hstmt⟩ := hstep
  by_cases hj : j = i
  · subst hj
    rcases ownMove_stmt hstmt with hown | hown | hown | ⟨rs, hbefore, hown⟩ | ⟨y, hbefore, hown⟩
    · rw [hown] at htx
      cases htx
    · rw [hown] at htx
      cases htx
      cases hx
    · rw [hown] at htx
      exact h.needs j tx htx x hx r hr
    · rw [hown] at htx
      cases htx
      exact List.mem_append_left _ (h.needs j _ hbefore x hx r hr)
    · rw [hown] at htx
      cases htx
      rcases List.mem_append.mp hx with hx | hx
      · exact List.mem_append_left _ (h.needs j _ hbefore x hx r hr)
      · rw [List.mem_singleton.mp hx] at hr
        exact List.mem_append_right _ hr
  · rw [(othersKept_stmt hstmt).sessions j hj] at htx
    exact h.needs j tx htx x hx r hr

end Steps

/-! ## A row that is held -/

section Rows

variable {b : Backend} {db : Db} {id : String} {row : TriggerRow}

theorem trigger?_changeTrigger {f : TriggerRow → TriggerRow} (hf : ∀ row, (f row).id = row.id)
    (id' : String) : (db.changeTrigger id' f).trigger? id =
      (db.trigger? id).map fun row => if row.id = id' then f row else row := by
  refine Table.find_map fun row => ?_
  split
  · exact hf row
  · rfl

theorem trigger?_insertTrigger {new : TriggerRow} (h : db.trigger? id = some row) :
    (db.insertTrigger new).trigger? id = some row := by
  show (db.triggers ++ [new]).find? _ = some row
  rw [List.find?_append]
  replace h : db.triggers.find? _ = some row := h
  rw [h]
  rfl

/-- A write that does not need the row leaves it as it is. -/
theorem trigger?_apply (x : Write) (hfree : guardOf b id ∉ x.needs b)
    (h : db.trigger? id = some row) : (x.apply db).trigger? id = some row := by
  have hid : row.id = id := (Table.key_of_find h).2
  cases b with
  | sqlite => exact absurd (List.mem_append_right _ List.mem_cons_self) hfree
  | postgres =>
    cases x with
    | insertTrigger new => exact trigger?_insertTrigger h
    | insertEvent new => exact h
    | insertRun new => exact h
    | insertTriggerRun new => exact h
    | changeEvent id' now change => exact h
    | editRun id' edit => exact h
    | changeTrigger id' now change =>
      have hne : row.id ≠ id' := by
        rintro rfl
        rw [hid] at hfree
        exact hfree (List.mem_append_right _ List.mem_cons_self)
      show (db.changeTrigger id' (change.row now)).trigger? id = some row
      rw [trigger?_changeTrigger (change.row_id now), h, Option.map_some, if_neg hne]
    | editTrigger id' edit =>
      have hne : row.id ≠ id' := by
        rintro rfl
        rw [hid] at hfree
        exact hfree (List.mem_append_right _ List.mem_cons_self)
      show (db.changeTrigger id' edit.change).trigger? id = some row
      rw [trigger?_changeTrigger edit.keeps_id, h, Option.map_some, if_neg hne]

theorem trigger?_run {writes : List Write} (hfree : ∀ x ∈ writes, guardOf b id ∉ x.needs b)
    (h : db.trigger? id = some row) : (triggerStore.run writes db).trigger? id = some row := by
  induction writes generalizing db with
  | nil => exact h
  | cons x writes ih =>
    exact ih (fun y hy => hfree y (List.mem_cons_of_mem _ hy))
      (trigger?_apply x (hfree x List.mem_cons_self) h)

/-- A row that session `j` holds is changed by no other session. -/
theorem trigger?_kept {faults : Bool} {i j : Nat} {w w' : TriggerWorld} {tx : Tx Write Resource}
    {stmt : Stmt} {answer : stmt.Ans} (hlock : LockInv b w)
    (htx : w.tx.sessions j = some tx) (hguard : guardOf b id ∈ tx.holds) (hne : i ≠ j)
    (hstep : (session b faults i).step w stmt answer w') (h : w.tx.db.trigger? id = some row) :
    w'.tx.db.trigger? id = some row := by
  obtain ⟨now, _, hstmt⟩ := hstep
  rcases db_of_stmt hstmt with hsame | ⟨tx', htx', hdb⟩
  · rw [hsame]
    exact h
  · rw [hdb]
    refine trigger?_run (b := b) (fun x hx hneeds => ?_) h
    exact hlock.tx.exclusive j i tx tx' hne.symm htx htx' _ hguard
      (hlock.needs i tx' htx' x hx _ hneeds)

end Rows

/-- Nothing is locked where no transaction is open. -/
theorem LockInv.start {b : Backend} {db : Db} {clock : Int} {started : Nat → Int}
    (h : db.entries.Nodup) : LockInv b ⟨clock, started, ⟨db, fun _ => none⟩⟩ :=
  ⟨.start h, fun _ _ htx => nomatch htx⟩

end Trigger
end SecureAgnt

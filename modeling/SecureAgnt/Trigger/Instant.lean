/-
One session at one instant.

Nothing else goes on, no connection is lost, and every statement is executed at the same
time.  Then a statement has one answer: `Moment` is what a session sees and has written,
and `answer` computes the answer to each call and the state after it.
`finishes_session` connects it with the sessions.
-/
import SecureAgnt.Lib.Exec
import SecureAgnt.Trigger.Alone

namespace SecureAgnt
namespace Trigger

open Storage
open Handler

/-- The committed tables, and the writes of the transaction where one is open. -/
structure Moment where
  db : Db
  tx : Option (List Write)

namespace Moment

def view (m : Moment) : Db :=
  match m.tx with
  | none => m.db
  | some writes => triggerStore.run writes m.db

def write (m : Moment) (x : Write) : Except DbError Unit × Moment :=
  match m.tx with
  | none => (.error notInTransaction, m)
  | some writes =>
    match x.adds.find? fun r => r ∈ m.view.entries with
    | some taken => (.error (.uniqueViolation taken), m)
    | none => (.ok (), { m with tx := some (writes ++ [x]) })

/-- A write that is made only where there is something to write. -/
def writeIf (m : Moment) (possible : Bool) (x : Write) : Except DbError Bool × Moment :=
  if possible then ((m.write x).1.map fun _ => true, (m.write x).2) else (.ok false, m)

end Moment

/-- New identifiers, none of them the key of a row. -/
structure IdSource where
  next : Db → String
  unused : ∀ db : Db, Resource.eventKey (next db) ∉ db.entries ∧
    Resource.runKey (next db) ∉ db.entries ∧ Resource.triggerRunKey (next db) ∉ db.entries

def answerQuery (b : Backend) (now : Int) (m : Moment) :
    (query : Query) → Except DbError query.Result × Moment
  | .begin =>
    match m.tx with
    | none => (.ok (), { m with tx := some [] })
    | some _ => (.error (.protocol "transaction already open"), m)
  | .commit =>
    match m.tx with
    | none => (.error notInTransaction, m)
    | some _ => (.ok (), ⟨m.view, none⟩)
  | .selectDueTrigger type tenantMax =>
    (.ok (dueTriggers b (b.currentTimestamp now) m.view type tenantMax).head?, m)
  | .selectDueEvent tenantMax =>
    (.ok (dueEvents b (b.currentTimestamp now) m.view tenantMax).head?, m)
  | .selectTrigger tenantId triggerId =>
    (.ok ((m.view.trigger? triggerId).filter (·.tenantId = tenantId)), m)
  | .selectTriggerForUpdate tenantId triggerId =>
    (.ok ((m.view.trigger? triggerId).filter fun row =>
      row.tenantId = tenantId && row.enabled && row.deadLetteredAt.isNone), m)
  | .selectEvent triggerId eventId => (.ok (m.view.event? triggerId eventId), m)
  | .selectEventForUpdate tenantId triggerId eventId =>
    (.ok ((m.view.event? triggerId eventId).filter (·.tenantId = tenantId)), m)
  | .selectTriggerRun triggerId dedupeKey => (.ok (m.view.triggerRun? triggerId dedupeKey), m)
  | .countTriggerInflight triggerId => (.ok (m.view.triggerInflight triggerId), m)
  | .countTenantInflight tenantId => (.ok (m.view.tenantInflight tenantId), m)
  | .insertRun row => m.write (.insertRun { row with createdAt := b.currentTimestamp now })
  | .insertTriggerRun row => m.write (.insertTriggerRun row)
  | .insertEvent row =>
    let row := { row with
      createdAt := b.currentTimestamp now
      nextAttemptAt := b.currentTimestamp now }
    m.writeIf (row.entries.all fun r => r ∉ m.view.entries) (.insertEvent row)
  | .updateTrigger triggerId change =>
    m.write (.changeTrigger triggerId (b.currentTimestamp now) change)
  | .reserveTrigger triggerId scheduledFor change =>
    m.writeIf ((m.view.trigger? triggerId).any fun row =>
        row.enabled && row.deadLetteredAt.isNone && row.nextFireAt = scheduledFor)
      (.changeTrigger triggerId (b.currentTimestamp now) change)
  | .updateEvent eventRowId change =>
    m.write (.changeEvent eventRowId (b.currentTimestamp now) change)
  | .reserveEvent selects change =>
    match m.view.events.find? selects with
    | none => (.ok false, m)
    | some row => m.writeIf true (.changeEvent row.id (b.currentTimestamp now) change)
  | .edit x => m.write x

def answer (b : Backend) (now : Int) (ids : IdSource) (m : Moment) :
    (stmt : Stmt) → stmt.Ans × Moment
  | .nowUtc => (now, m)
  | .newUuid => (ids.next m.view, m)
  | .rollback => ((), { m with tx := none })
  | .sql query => answerQuery b now m query

/-! ## The sessions behind it -/

/-- Session `i` is the only one with a transaction, and its statements began at this
instant. -/
structure Moment.StandsFor (i : Nat) (now : Int) (m : Moment) (w : TriggerWorld) : Prop where
  db : w.tx.db = m.db
  own : (w.tx.sessions i).map Tx.writes = m.tx
  others : ∀ j, j ≠ i → w.tx.sessions j = none
  clock : w.clock = now
  started : w.started i = now

section Sessions

variable {b : Backend} {i : Nat} {now : Int} {ids : IdSource} {m : Moment} {w : TriggerWorld}

theorem Moment.StandsFor.view (h : m.StandsFor i now w) : w.view i = m.view := by
  have hown := h.own
  unfold TriggerWorld.view Moment.view
  rw [← hown, h.db]
  cases w.tx.sessions i with
  | none => rfl
  | some tx => rfl

theorem Moment.StandsFor.sqlNow (h : m.StandsFor i now w) :
    w.sqlNow i b now = b.currentTimestamp now := by
  cases b with
  | postgres => exact h.started
  | sqlite => rfl

theorem Moment.StandsFor.tick (h : m.StandsFor i now w) : m.StandsFor i now (w.tick now) :=
  ⟨h.db, h.own, h.others, rfl, h.started⟩

theorem Moment.StandsFor.setTx (h : m.StandsFor i now w) (tx : Option (Tx Write Resource))
    {writes : Option (List Write)} (htx : tx.map Tx.writes = writes) :
    Moment.StandsFor i now ⟨m.db, writes⟩ ((w.tick now).setTx i tx) := by
  refine ⟨h.db, ?_, ?_, rfl, h.started⟩
  · show (((w.tick now).tx.setSession i tx).sessions i).map _ = _
    rw [TxWorld.setSession_same, htx]
  · intro j hne
    exact ((w.tick now).tx.setSession_other tx hne).trans (h.others j hne)

theorem Moment.StandsFor.free (h : m.StandsFor i now w) (rs : List Resource) :
    ∀ r ∈ rs, w.tx.Free i r :=
  fun r _ => free_of_others h.others r

theorem Moment.StandsFor.lock (h : m.StandsFor i now w) (rs : List Resource) :
    ∃ w', LockStep i now w rs w' ∧ m.StandsFor i now w' := by
  have hown := h.own
  unfold LockStep
  cases hs : w.tx.sessions i with
  | none => exact ⟨w.tick now, ⟨h.free rs, rfl⟩, h.tick⟩
  | some tx =>
    rw [hs] at hown
    exact ⟨_, ⟨h.free rs, rfl⟩, h.setTx (some ⟨tx.writes, tx.holds ++ rs⟩) hown⟩

theorem Moment.StandsFor.write (h : m.StandsFor i now w) (x : Write) :
    ∃ w', WriteStep b i now w x (m.write x).1 w' ∧ (m.write x).2.StandsFor i now w' := by
  have hown := h.own
  have hview := h.view
  unfold WriteStep Moment.write
  cases hs : w.tx.sessions i with
  | none =>
    rw [hs] at hown
    rw [← hown]
    exact ⟨w.tick now, ⟨rfl, rfl⟩, h.tick⟩
  | some tx =>
    rw [hs] at hown
    rw [← hown, hview]
    dsimp only [Option.map_some]
    split
    · rename_i taken htaken
      have hmem := List.mem_of_find?_eq_some htaken
      have htest := List.find?_some htaken
      exact ⟨w.tick now, ⟨h.free _, .inr ⟨taken, hmem, of_decide_eq_true htest, rfl, rfl⟩⟩, h.tick⟩
    · rename_i hnone
      refine ⟨_, ⟨h.free _, .inl ⟨rfl, ?_, rfl⟩⟩, h.setTx _ rfl⟩
      intro r hr hmem
      have htest := List.find?_eq_none.mp hnone r hr
      exact htest (decide_eq_true hmem)

theorem Moment.StandsFor.writeIf (h : m.StandsFor i now w) (x : Write) {P : Prop}
    {possible : Bool} (hpossible : possible = true ↔ P) :
    ∃ w', WriteIfStep b i now w P x (m.writeIf possible x).1 w' ∧
      (m.writeIf possible x).2.StandsFor i now w' := by
  unfold WriteIfStep Moment.writeIf
  by_cases hP : P
  · rw [if_pos (hpossible.mpr hP)]
    obtain ⟨w', hwrite, hw'⟩ := h.write x
    exact ⟨w', .inl ⟨hP, _, hwrite, rfl⟩, hw'⟩
  · rw [if_neg (fun htrue => hP (hpossible.mp htrue))]
    exact ⟨w.tick now, .inr ⟨hP, rfl, rfl⟩, h.tick⟩

theorem picks_head? {α : Type} {free : α → Prop} (hfree : ∀ row, free row) (rows : List α) :
    Picks free rows rows.head? := by
  cases rows with
  | nil => simp [Picks]
  | cons row rest => exact ⟨[], rest, rfl, by simp, hfree row⟩

/-- An answer of the moment is an answer of the session. -/
theorem standsFor_answerQuery (h : m.StandsFor i now w) (query : Query) :
    ∃ w', QueryStep b i now w query (answerQuery b now m query).1 w' ∧
      (answerQuery b now m query).2.StandsFor i now w' := by
  have hown := h.own
  have hview := h.view
  have hnow := h.sqlNow (b := b)
  cases query with
  | begin =>
    show ∃ w', BeginStep i now w _ w' ∧ _
    unfold BeginStep
    cases hs : w.tx.sessions i with
    | none =>
      rw [hs] at hown
      have hset := h.setTx (some ⟨[], []⟩) rfl
      rw [answerQuery, ← hown]
      exact ⟨_, ⟨rfl, rfl⟩, hset.db, hset.own, hset.others, rfl, Function.update_self ..⟩
    | some tx =>
      rw [hs] at hown
      rw [answerQuery, ← hown]
      exact ⟨w.tick now, ⟨rfl, rfl⟩, h.tick⟩
  | commit =>
    show ∃ w', CommitStep i now w _ w' ∧ _
    unfold CommitStep
    cases hs : w.tx.sessions i with
    | none =>
      rw [hs] at hown
      rw [answerQuery, ← hown]
      exact ⟨w.tick now, ⟨rfl, rfl⟩, h.tick⟩
    | some tx =>
      have hset := h.setTx none rfl
      rw [hs] at hown
      rw [answerQuery, ← hown]
      refine ⟨_, ⟨rfl, rfl⟩, ?_, hset.own, hset.others, rfl, h.started⟩
      rw [← hview, TriggerWorld.view, hs]
      rfl
  | selectDueTrigger type tenantMax =>
    obtain ⟨w', hlock, hw'⟩ := h.lock ((dueTriggers b (b.currentTimestamp now) m.view type
      tenantMax).head?.toList.flatMap (triggerLocks b))
    refine ⟨w', ⟨_, rfl, ?_, hlock⟩, hw'⟩
    rw [hview, hnow]
    exact picks_head? (fun row => h.free _) _
  | selectDueEvent tenantMax =>
    obtain ⟨w', hlock, hw'⟩ := h.lock ((dueEvents b (b.currentTimestamp now) m.view
      tenantMax).head?.toList.flatMap (eventLocks b))
    refine ⟨w', ⟨_, rfl, ?_, hlock⟩, hw'⟩
    rw [hview, hnow]
    exact picks_head? (fun row => h.free _) _
  | selectTrigger tenantId triggerId =>
    refine ⟨w.tick now, ⟨?_, rfl⟩, h.tick⟩
    rw [hview]
    rfl
  | selectTriggerForUpdate tenantId triggerId =>
    obtain ⟨w', hlock, hw'⟩ := h.lock (((m.view.trigger? triggerId).filter fun row =>
      row.tenantId = tenantId && row.enabled && row.deadLetteredAt.isNone).toList.flatMap
        (triggerLocks .postgres))
    refine ⟨w', ⟨_, rfl, ?_, hlock⟩, hw'⟩
    rw [hview]
  | selectEvent triggerId eventId =>
    refine ⟨w.tick now, ⟨?_, rfl⟩, h.tick⟩
    rw [hview]
    rfl
  | selectEventForUpdate tenantId triggerId eventId =>
    obtain ⟨w', hlock, hw'⟩ := h.lock (((m.view.event? triggerId eventId).filter
      (·.tenantId = tenantId)).toList.map (.eventRow ·.id))
    refine ⟨w', ⟨_, rfl, ?_, hlock⟩, hw'⟩
    rw [hview]
  | selectTriggerRun triggerId dedupeKey =>
    refine ⟨w.tick now, ⟨?_, rfl⟩, h.tick⟩
    rw [hview]
    rfl
  | countTriggerInflight triggerId =>
    refine ⟨w.tick now, ⟨?_, rfl⟩, h.tick⟩
    rw [hview]
    rfl
  | countTenantInflight tenantId =>
    refine ⟨w.tick now, ⟨?_, rfl⟩, h.tick⟩
    rw [hview]
    rfl
  | insertRun row =>
    show ∃ w', WriteStep b i now w (.insertRun { row with createdAt := w.sqlNow i b now }) _ w' ∧ _
    rw [hnow]
    exact h.write _
  | insertTriggerRun row => exact h.write _
  | insertEvent row =>
    show ∃ w', WriteIfStep b i now w (∀ r ∈ EventRow.entries { row with
      createdAt := w.sqlNow i b now, nextAttemptAt := w.sqlNow i b now }, r ∉ (w.view i).entries)
      (.insertEvent { row with
        createdAt := w.sqlNow i b now, nextAttemptAt := w.sqlNow i b now }) _ w' ∧ _
    rw [hnow, hview]
    exact h.writeIf _ (by simp only [List.all_eq_true, decide_eq_true_eq])
  | updateTrigger triggerId change =>
    show ∃ w', WriteStep b i now w (.changeTrigger triggerId (w.sqlNow i b now) change) _ w' ∧ _
    rw [hnow]
    exact h.write _
  | reserveTrigger triggerId scheduledFor change =>
    show ∃ w', WriteIfStep b i now w (∃ row, (w.view i).trigger? triggerId = some row ∧
      row.enabled = true ∧ row.deadLetteredAt = none ∧ row.nextFireAt = scheduledFor)
      (.changeTrigger triggerId (w.sqlNow i b now) change) _ w' ∧ _
    rw [hnow, hview]
    refine h.writeIf _ ?_
    simp only [Option.any_eq_true, Bool.and_eq_true, decide_eq_true_eq, Option.isNone_iff_eq_none,
      and_assoc]
  | updateEvent eventRowId change =>
    show ∃ w', WriteStep b i now w (.changeEvent eventRowId (w.sqlNow i b now) change) _ w' ∧ _
    rw [hnow]
    exact h.write _
  | reserveEvent selects change =>
    show ∃ w', ((∃ row ∈ (w.view i).events, selects row = true ∧ ∃ r, WriteStep b i now w
      (.changeEvent row.id (w.sqlNow i b now) change) r w' ∧ _) ∨ _) ∧ _
    rw [hnow, hview, answerQuery]
    cases hfind : m.view.events.find? selects with
    | none =>
      refine ⟨w.tick now, .inr ⟨?_, rfl, rfl⟩, h.tick⟩
      intro row hrow
      exact Bool.eq_false_iff.mpr (List.find?_eq_none.mp hfind row hrow)
    | some row =>
      obtain ⟨w', hwrite, hw'⟩ :=
        h.write (b := b) (.changeEvent row.id (b.currentTimestamp now) change)
      exact ⟨w', .inl ⟨row, List.mem_of_find?_eq_some hfind, List.find?_some hfind, _, hwrite,
        rfl⟩, hw'⟩
  | edit x => exact h.write x

theorem standsFor_answer (ids : IdSource) (h : m.StandsFor i now w) (stmt : Stmt) :
    ∃ w', (session b false i).step w stmt (answer b now ids m stmt).1 w' ∧
      (answer b now ids m stmt).2.StandsFor i now w' := by
  have hclock : w.clock ≤ now := Int.le_of_eq h.clock
  cases stmt with
  | nowUtc => exact ⟨w.tick now, ⟨now, hclock, rfl, rfl⟩, h.tick⟩
  | newUuid =>
    refine ⟨w.tick now, ⟨now, hclock, ?_, rfl⟩, h.tick⟩
    rw [h.view]
    exact ids.unused m.view
  | rollback => exact ⟨_, ⟨now, hclock, rfl⟩, h.setTx none rfl⟩
  | sql query =>
    obtain ⟨w', hstep, hw'⟩ := standsFor_answerQuery (b := b) h query
    exact ⟨w', ⟨now, hclock, .inl hstep⟩, hw'⟩

/-- What is computed at an instant is a run of the session. -/
theorem finishes_instant {α : Type} (ids : IdSource) (h : m.StandsFor i now w)
    (p : TriggerProg α) :
    ∃ w', Finishes (session b false i) w p w' (p.exec (answer b now ids) m).1 ∧
      (p.exec (answer b now ids) m).2.StandsFor i now w' :=
  Prog.finishes_exec (Moment.StandsFor i now)
    (fun _ _ stmt _ hstands => standsFor_answer ids hstands stmt)
    (Prog.along_of_forall (fun _ _ => trivial) p) h

end Sessions

/-! ## Programs at an instant -/

section Programs

variable {b : Backend} {now : Int} {ids : IdSource} {db : Db} {writes : List Write} {α : Type}

theorem exec_sql (query : Query) (m : Moment) :
    (sql query).exec (answer b now ids) m = answerQuery b now m query := by
  rw [sql, Prog.exec_perform_bind, Prog.exec_ofExcept]
  rfl

@[simp] theorem exec_nowUtc (m : Moment) : nowUtc.exec (answer b now ids) m = (.ok now, m) := rfl

@[simp] theorem exec_newUuid (m : Moment) :
    newUuid.exec (answer b now ids) m = (.ok (ids.next m.view), m) := rfl

@[simp] theorem exec_selectTrigger (tenantId triggerId : String) (m : Moment) :
    (sql (.selectTrigger tenantId triggerId)).exec (answer b now ids) m =
      (.ok ((m.view.trigger? triggerId).filter (·.tenantId = tenantId)), m) := rfl

@[simp] theorem exec_selectTriggerForUpdate (tenantId triggerId : String) (m : Moment) :
    (sql (.selectTriggerForUpdate tenantId triggerId)).exec (answer b now ids) m =
      (.ok ((m.view.trigger? triggerId).filter fun row =>
        row.tenantId = tenantId && row.enabled && row.deadLetteredAt.isNone), m) := rfl

@[simp] theorem exec_selectTriggerRun (triggerId dedupeKey : String) (m : Moment) :
    (sql (.selectTriggerRun triggerId dedupeKey)).exec (answer b now ids) m =
      (.ok (m.view.triggerRun? triggerId dedupeKey), m) := rfl

@[simp] theorem exec_countTriggerInflight (triggerId : String) (m : Moment) :
    (sql (.countTriggerInflight triggerId)).exec (answer b now ids) m =
      (.ok (m.view.triggerInflight triggerId), m) := rfl

@[simp] theorem exec_countTenantInflight (tenantId : String) (m : Moment) :
    (sql (.countTenantInflight tenantId)).exec (answer b now ids) m =
      (.ok (m.view.tenantInflight tenantId), m) := rfl

/-- A transaction whose body fails is rolled back. -/
def closeTx : Except DbError α × Moment → Except DbError α × Moment
  | (.ok value, m) => (.ok value, m)
  | (.error e, m) => (.error e, { m with tx := none })

theorem exec_inTransaction (body : TriggerProg α) :
    (inTransaction body).exec (answer b now ids) ⟨db, none⟩ =
      closeTx (body.exec (answer b now ids) ⟨db, some []⟩) := by
  unfold inTransaction
  rw [Prog.exec_bind, exec_sql]
  show Prog.thenExec (.ok (), (⟨db, some []⟩ : Moment)) _ = _
  rw [Prog.thenExec_ok, Prog.exec_bind, Prog.exec_attempt, Prog.thenExec_ok]
  rcases body.exec (answer b now ids) ⟨db, some []⟩ with ⟨_ | _, m⟩ <;> rfl

theorem exec_commit (value : α) :
    (commit value).exec (answer b now ids) ⟨db, some writes⟩ =
      (.ok value, (⟨triggerStore.run writes db, none⟩ : Moment)) := rfl

/-- A write whose entries are free is made. -/
theorem write_free {x : Write} (h : ∀ r ∈ x.adds, r ∉ (triggerStore.run writes db).entries) :
    Moment.write ⟨db, some writes⟩ x = (.ok (), (⟨db, some (writes ++ [x])⟩ : Moment)) := by
  unfold Moment.write
  have hnone : x.adds.find? (fun r => r ∈ (triggerStore.run writes db).entries) = none :=
    List.find?_eq_none.mpr fun r hr htaken => h r hr (of_decide_eq_true htaken)
  show (match x.adds.find? (fun r => r ∈ (triggerStore.run writes db).entries) with
    | some taken => _ | none => _ : Except DbError Unit × Moment) = _
  rw [hnone]

theorem exec_insertRun {row : RunRecord}
    (h : .runKey row.id ∉ (triggerStore.run writes db).entries) :
    (sql (.insertRun row)).exec (answer b now ids) ⟨db, some writes⟩ = (.ok (),
      (⟨db, some (writes ++ [.insertRun { row with createdAt := b.currentTimestamp now }])⟩ :
        Moment)) := by
  rw [exec_sql]
  refine write_free fun r hr => ?_
  rw [List.mem_singleton.mp hr]
  exact h

theorem exec_updateTrigger (triggerId : String) (change : TriggerChange) :
    (sql (.updateTrigger triggerId change)).exec (answer b now ids) ⟨db, some writes⟩ = (.ok (),
      (⟨db, some (writes ++ [.changeTrigger triggerId (b.currentTimestamp now) change])⟩ :
        Moment)) := by
  rw [exec_sql]
  show Moment.write ⟨db, some writes⟩ (.changeTrigger triggerId (b.currentTimestamp now) change) = _
  exact write_free fun r hr => absurd hr List.not_mem_nil

/-- The row of a firing goes in where its key is free. -/
theorem exec_insertCreated {triggerId runId : String} {scheduledFor : Int} {source : Source}
    (h : ¬ (triggerStore.run writes db).KeyTaken triggerId (source.dedupeKey b)) :
    (insertCreated b triggerId runId scheduledFor source).exec (answer b now ids)
      ⟨db, some writes⟩ = (.ok (), (⟨db, some (writes ++ [.insertTriggerRun (createdRow b
        (ids.next (triggerStore.run writes db)) triggerId runId scheduledFor source)])⟩ :
          Moment)) := by
  unfold insertCreated
  rw [Prog.exec_bind, exec_newUuid, Prog.thenExec_ok, exec_sql]
  refine write_free fun r hr => ?_
  rcases List.mem_cons.mp hr with rfl | hr
  · exact (ids.unused _).2.2
  · rw [List.mem_singleton.mp hr, dedupeKey_mem_entries]
    exact h

end Programs

end Trigger
end SecureAgnt

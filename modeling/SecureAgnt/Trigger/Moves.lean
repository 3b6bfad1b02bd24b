/-
What the calls commit, with the clock and the locks.

`SlotMove` says which decision a dispatcher carries out, on which row, and when it was
taken; `Aside` is a commit that has nothing to do with slots.  `Tracks` carries what a
transaction knows from statement to statement: how far the clock has come, and the row
that its locks keep as it was read.
-/
import SecureAgnt.Trigger.Calls
import SecureAgnt.Trigger.Locks
import SecureAgnt.Trigger.Plan

namespace SecureAgnt
namespace Trigger

open Storage
open Handler
open Runs (TriggerDispatchRecord)

/-! ## Commits -/

/-- The row of a trigger is enabled and at the slot at which it was read. -/
structure AtSlot (seen row : TriggerRow) : Prop where
  id : row.id = seen.id
  nextFireAt : row.nextFireAt = seen.nextFireAt
  enabled : row.enabled = true
  alive : row.deadLetteredAt = none

/-- A slot of a trigger is carried out.  `seen` is the trigger as it was read: Postgres
has it locked since, SQLite finds it at the same slot.  The decision was taken at
`now`. -/
inductive SlotMove (rt : TriggerRuntime) (b : Backend) (Seen : TriggerRow → Prop)
    (since clock : Int) (db : Db) : Db → Prop
  | mk {seen trigger : TriggerRow} {plan : SlotPlan} {now : Int} (run : RunRecord) (rowId : String)
      (stamp : Int) (hseen : Seen seen) (hslot : AtSlot seen trigger)
      (hlocked : b = .postgres → seen = trigger) (hfound : db.trigger? seen.id = some trigger)
      (hplan : seen.plan rt now = some plan) (hsince : since ≤ now) (hclock : now ≤ clock)
      (hdue : b.stamp trigger.nextFireAt ≤ b.stamp clock) :
      SlotMove rt b Seen since clock db (plan.publish b seen run rowId stamp db)

/-- The row is as it was, but for the time of its last fire. -/
def Touched (row row' : TriggerRow) : Prop :=
  row' = row ∨ ∃ now, row' = TriggerChange.row now .touch row

/-- No slot is entered, and every trigger keeps its configuration and its slot. -/
structure Aside (db db' : Db) : Prop where
  ledger : ∃ rows, db'.ledger = db.ledger ++ rows ∧
    ∀ row ∈ rows, ∀ scheduledFor, row.source ≠ .slot scheduledFor
  triggers : ∀ id row, db.trigger? id = some row →
    ∃ row', db'.trigger? id = some row' ∧ Touched row row'

section Aside

variable {db db' db'' : Db}

theorem Touched.trans {row row' row'' : TriggerRow} (h : Touched row row')
    (h' : Touched row' row'') : Touched row row'' := by
  rcases h with rfl | ⟨now, rfl⟩
  · exact h'
  · rcases h' with rfl | ⟨now', rfl⟩
    · exact .inr ⟨now, rfl⟩
    · exact .inr ⟨now', rfl⟩

theorem Aside.trans (h : Aside db db') (h' : Aside db' db'') : Aside db db'' := by
  obtain ⟨⟨rows, hledger, hrows⟩, htriggers⟩ := h
  obtain ⟨⟨rows', hledger', hrows'⟩, htriggers'⟩ := h'
  refine ⟨⟨rows ++ rows', by rw [hledger', hledger, List.append_assoc], ?_⟩, ?_⟩
  · intro row hrow
    rcases List.mem_append.mp hrow with hrow | hrow
    · exact hrows row hrow
    · exact hrows' row hrow
  · intro id row hrow
    obtain ⟨row', hrow', htouched⟩ := htriggers id row hrow
    obtain ⟨row'', hrow'', htouched'⟩ := htriggers' id row' hrow'
    exact ⟨row'', hrow'', htouched.trans htouched'⟩

theorem aside_insertRun (db : Db) (run : RunRecord) : Aside db (db.insertRun run) :=
  ⟨⟨[], (List.append_nil _).symm, nofun⟩, fun _ row hrow => ⟨row, hrow, .inl rfl⟩⟩

theorem aside_insertEvent (db : Db) (row : EventRow) : Aside db (db.insertEvent row) :=
  ⟨⟨[], (List.append_nil _).symm, nofun⟩, fun _ row hrow => ⟨row, hrow, .inl rfl⟩⟩

theorem aside_changeEvent (db : Db) (id : String) (f : EventRow → EventRow) :
    Aside db (db.changeEvent id f) :=
  ⟨⟨[], (List.append_nil _).symm, nofun⟩, fun _ row hrow => ⟨row, hrow, .inl rfl⟩⟩

theorem aside_insertTriggerRun (db : Db) {row : TriggerRunRow}
    (hrow : ∀ scheduledFor, row.source ≠ .slot scheduledFor) :
    Aside db (db.insertTriggerRun row) := by
  refine ⟨⟨[row], rfl, fun row' hrow' => ?_⟩, fun _ row hrow => ⟨row, hrow, .inl rfl⟩⟩
  rw [List.mem_singleton.mp hrow']
  exact hrow

theorem aside_touch (db : Db) (id : String) (now : Int) :
    Aside db (db.changeTrigger id (TriggerChange.row now .touch)) := by
  refine ⟨⟨[], (List.append_nil _).symm, nofun⟩, fun id' row hrow => ?_⟩
  rw [trigger?_changeTrigger (TriggerChange.row_id now .touch), hrow]
  refine ⟨_, rfl, ?_⟩
  show Touched row (if row.id = id then TriggerChange.row now .touch row else row)
  split
  · exact .inr ⟨now, rfl⟩
  · exact .inl rfl

/-- Calls that are not about slots leave them alone. -/
theorem aside_admits {b : Backend} : Admits b (fun _ _ => True) Aside where
  event db run row rowId eventId now now' _ _ hrow := by
    have hsource : ∀ scheduledFor, row.source ≠ .slot scheduledFor := by
      rw [hrow.source]
      nofun
    exact (((aside_insertRun db run).trans (aside_insertTriggerRun _ hsource)).trans
      (aside_changeEvent _ rowId _)).trans (aside_touch _ row.triggerId now')
  eventFailed db row rowId eventId now deadLetter eventError _ _ hrow := by
    have hsource : ∀ scheduledFor, row.source ≠ .slot scheduledFor := by
      rw [hrow.source]
      nofun
    exact (aside_insertTriggerRun db hsource).trans (aside_changeEvent _ rowId _)
  manual db run row idempotencyKey now _ hrow := by
    have hsource : ∀ scheduledFor, row.source ≠ .slot scheduledFor := by
      rw [hrow.source]
      nofun
    exact ((aside_insertRun db run).trans (aside_insertTriggerRun _ hsource)).trans
      (aside_touch _ row.triggerId now)
  enqueued db row _ _ := aside_insertEvent db row
  requeued db rowId now := aside_changeEvent db rowId _

end Aside

/-! ## Contracts -/

/-- Nothing of session `j` changed, nor any row that it holds. -/
structure LeftAlone (b : Backend) (j : Nat) (w w' : TriggerWorld) : Prop where
  session : w'.tx.sessions j = w.tx.sessions j
  started : w'.started j = w.started j
  clock : w.clock ≤ w'.clock
  grows : Grows w.tx.db w'.tx.db
  held : ∀ tx id row, w.tx.sessions j = some tx → guardOf b id ∈ tx.holds →
    w.tx.db.trigger? id = some row → w'.tx.db.trigger? id = some row

/-- What session `i` relies on and what it promises: `moves` lists its commits, by the
clock and the tables before. -/
def moveContract (b : Backend) (moves : Int → Db → Db → Prop) (i : Nat) :
    Contract TriggerWorld Stmt where
  rely w w' := LeftAlone b i w w'
  guarantee w w' := (∀ j, j ≠ i → LeftAlone b j w w') ∧
    (w'.tx.db = w.tx.db ∨ moves w.clock w.tx.db w'.tx.db)
  safe := fun _ _ => True
  rely_refl := fun _ => ⟨rfl, rfl, Int.le_refl _, .refl _, fun _ _ _ _ _ hrow => hrow⟩
  rely_trans := fun h h' => ⟨h'.session.trans h.session, h'.started.trans h.started,
    Int.le_trans h.clock h'.clock, h.grows.trans h'.grows, fun tx id row htx hguard hrow =>
      h'.held tx id row (h.session.trans htx) hguard (h.held tx id row htx hguard hrow)⟩

/-- Session `i` in the runs whose states meet `cond`, with its locks in order. -/
def lockedSession (b : Backend) (faults : Bool) (cond : TriggerWorld → Prop) (i : Nat) :
    Handler Stmt Stmt.Ans TriggerWorld :=
  sessionIn b faults (fun w => LockInv b w ∧ cond w) i

section Rules

variable {b : Backend} {faults : Bool} {cond : TriggerWorld → Prop}
  {moves : Int → Db → Db → Prop} {i : Nat} {w w' : TriggerWorld}

theorem clock_session {stmt : Stmt} {answer : stmt.Ans}
    (h : (session b faults i).step w stmt answer w') : w.clock ≤ w'.clock := by
  obtain ⟨now, hnow, hstmt⟩ := h
  rw [clock_stmt hstmt]
  exact hnow

/-- A statement leaves the other sessions alone, whatever it does. -/
theorem leftAlone_of_step {stmt : Stmt} {answer : stmt.Ans} (hlock : LockInv b w)
    (h : (session b faults i).step w stmt answer w') (j : Nat) (hne : j ≠ i) :
    LeftAlone b j w w' := by
  have hclock := clock_session h
  have hheld : ∀ tx id row, w.tx.sessions j = some tx → guardOf b id ∈ tx.holds →
      w.tx.db.trigger? id = some row → w'.tx.db.trigger? id = some row :=
    fun _ _ _ htx hguard hrow => trigger?_kept hlock htx hguard hne.symm h hrow
  obtain ⟨now, hnow, hstmt⟩ := h
  have hothers := othersKept_stmt hstmt
  refine ⟨hothers.sessions j hne, hothers.started j hne, hclock, ?_, hheld⟩
  rcases db_of_stmt hstmt with hsame | ⟨tx, _, hdb⟩
  · rw [hsame]
    exact .refl _
  · rw [hdb]
    exact grows_run tx.writes w.tx.db

theorem guarantee_of_step {op : Stmt} {answer : op.Ans}
    (h : (lockedSession b faults cond i).step w op answer w')
    (hdb : w'.tx.db = w.tx.db ∨ moves w.clock w.tx.db w'.tx.db) :
    (moveContract b moves i).guarantee w w' :=
  ⟨leftAlone_of_step h.1.1 h.2, hdb⟩

/-! ## Programs inside a transaction -/

/-- The transaction of session `i` is open with these writes, the clock has come so far,
and the row is locked as it is. -/
structure Stance (b : Backend) (i : Nat) (upTo : Int) (locked : Option TriggerRow)
    (writes : List Write) (w : TriggerWorld) : Prop where
  session : ∃ holds, w.tx.sessions i = some ⟨writes, holds⟩ ∧
    ∀ row, locked = some row → guardOf b row.id ∈ holds
  row : ∀ row, locked = some row → w.tx.db.trigger? row.id = some row
  clock : upTo ≤ w.clock
  started : w.started i ≤ w.clock

section Stance

variable {upTo now : Int} {locked : Option TriggerRow} {writes : List Write}

theorem Stance.stable (h : Stance b i upTo locked writes w) (hrely : LeftAlone b i w w') :
    Stance b i upTo locked writes w' := by
  obtain ⟨⟨holds, hs, hguard⟩, hrow, hclock, hstarted⟩ := h
  refine ⟨⟨holds, hrely.session.trans hs, hguard⟩, fun row hlocked => ?_,
    Int.le_trans hclock hrely.clock, ?_⟩
  · exact hrely.held _ row.id row hs (hguard row hlocked) (hrow row hlocked)
  · rw [hrely.started]
    exact Int.le_trans hstarted hrely.clock

theorem Stance.later {upTo' : Int} (h : Stance b i upTo locked writes w) (hle : upTo' ≤ w.clock) :
    Stance b i upTo' locked writes w :=
  ⟨h.session, h.row, hle, h.started⟩

theorem Stance.tick (h : Stance b i upTo locked writes w) (hnow : w.clock ≤ now) :
    Stance b i now locked writes (w.tick now) :=
  ⟨h.session, h.row, Int.le_refl now, Int.le_trans h.started hnow⟩

theorem Stance.lock {rs : List Resource} (h : Stance b i upTo locked writes w)
    (hnow : w.clock ≤ now) (hstep : LockStep i now w rs w') :
    Stance b i now locked writes w' ∧ ∃ holds, w'.tx.sessions i = some ⟨writes, holds⟩ ∧
      ∀ r ∈ rs, r ∈ holds := by
  obtain ⟨⟨holds, hs, hguard⟩, hrow, hclock, hstarted⟩ := h
  obtain ⟨_, hstep⟩ := hstep
  rw [hs] at hstep
  obtain rfl : w' = _ := hstep
  refine ⟨⟨⟨holds ++ rs, w.tx.setSession_same i _, fun row hlocked => ?_⟩, hrow, Int.le_refl now,
    Int.le_trans hstarted hnow⟩, holds ++ rs, w.tx.setSession_same i _, fun r hr => ?_⟩
  · exact List.mem_append_left _ (hguard row hlocked)
  · exact List.mem_append_right _ hr

/-- A row is written. -/
theorem Stance.write {x : Write} {answer : Except DbError Unit}
    (h : Stance b i upTo locked writes w) (hnow : w.clock ≤ now)
    (hstep : WriteStep b i now w x answer w') (hok : answer = .ok ()) :
    Stance b i now locked (writes ++ [x]) w' ∧
      ∃ holds, w'.tx.sessions i = some ⟨writes ++ [x], holds⟩ ∧ ∀ r ∈ x.needs b, r ∈ holds := by
  obtain ⟨⟨holds, hs, hguard⟩, hrow, hclock, hstarted⟩ := h
  unfold WriteStep at hstep
  rw [hs] at hstep
  rcases hstep.2 with ⟨_, _, rfl⟩ | ⟨_, _, _, herror, _⟩
  · refine ⟨⟨⟨holds ++ x.needs b, w.tx.setSession_same i _, fun row hlocked => ?_⟩, hrow,
      Int.le_refl now, Int.le_trans hstarted hnow⟩, holds ++ x.needs b,
      w.tx.setSession_same i _, fun r hr => ?_⟩
    · exact List.mem_append_left _ (hguard row hlocked)
    · exact List.mem_append_right _ hr
  · rw [hok] at herror
    cases herror

theorem Stance.view (h : Stance b i upTo locked [] w) : w.view i = w.tx.db := by
  obtain ⟨⟨holds, hs, _⟩, _⟩ := h
  unfold TriggerWorld.view
  rw [hs]
  rfl

/-- A statement's time is not after the clock. -/
theorem Stance.sqlNow_le (h : Stance b i upTo locked writes w) (hnow : w.clock ≤ now) :
    b.stamp (w.sqlNow i b now) ≤ b.stamp now := by
  cases b with
  | postgres => exact Int.le_trans h.started hnow
  | sqlite =>
    show now / 10 ^ 9 * 10 ^ 9 / 10 ^ 9 ≤ now / 10 ^ 9
    omega

end Stance

/-- From inside a transaction the program commits only what `moves` lists, and a result
means that it did commit. -/
structure Tracks {α : Type} (b : Backend) (faults : Bool) (cond : TriggerWorld → Prop)
    (moves : Int → Db → Db → Prop) (i : Nat) (upTo : Int) (locked : Option TriggerRow)
    (writes : List Write) (p : TriggerProg α) : Prop where
  run : ∀ w, Stance b i upTo locked writes w →
    wp (lockedSession b faults cond i) (moveContract b moves i) p
      (fun w r => ∀ a, r = .ok a → w.tx.sessions i = none) w

section Tracks

variable {α : Type} {upTo : Int} {locked : Option TriggerRow} {writes : List Write}

theorem tracks_fail (e : DbError) :
    Tracks b faults cond moves i upTo locked writes (.fail e : TriggerProg α) := by
  refine ⟨fun w _ w' _ a ha => ?_⟩
  cases ha

/-- A statement that commits nothing. -/
theorem tracks_sql {query : Query} {k : query.Result → TriggerProg α} (hcommit : query ≠ .commit)
    (h : ∀ w now a w', Stance b i upTo locked writes w → LockInv b w → cond w → w.clock ≤ now →
      QueryStep b i now w query (.ok a) w' →
        ∃ upTo' locked' writes', Stance b i upTo' locked' writes' w' ∧
          Tracks b faults cond moves i upTo' locked' writes' (k a)) :
    Tracks b faults cond moves i upTo locked writes (sql query >>= k) := by
  refine ⟨fun w hstance => ?_⟩
  apply wp_sql
  intro w' hrely
  refine ⟨trivial, fun answer w'' hcall => ?_⟩
  have hstep := hcall
  obtain ⟨⟨hlock, hcond⟩, now, hnow, hstep | ⟨_, ⟨message, hanswer⟩, hlost⟩⟩ := hstep
  · refine ⟨guarantee_of_step hcall (.inl (quiet_query hcommit hstep).db), ?_, ?_⟩
    · rintro a rfl
      obtain ⟨upTo', locked', writes', hstance', hrest⟩ :=
        h w' now a w'' (hstance.stable hrely) hlock hcond hnow hstep
      exact hrest.run w'' hstance'
    · intro e _ w₃ _ a ha
      cases ha
  · rcases hlost with rfl | ⟨tx, hquery, _⟩
    · refine ⟨guarantee_of_step hcall (.inl rfl), ?_, ?_⟩
      · rintro a rfl
        cases hanswer
      · intro e _ w₃ _ a ha
        cases ha
    · exact absurd hquery hcommit

theorem tracks_nowUtc {k : Int → TriggerProg α}
    (h : ∀ now, upTo ≤ now → Tracks b faults cond moves i now locked writes (k now)) :
    Tracks b faults cond moves i upTo locked writes (nowUtc >>= k) := by
  refine ⟨fun w hstance => ?_⟩
  apply wp_perform_bind
  intro w' hrely
  refine ⟨trivial, fun answer w'' hcall => ?_⟩
  have hstep := hcall
  obtain ⟨_, now, hnow, hanswer, rfl⟩ := hstep
  have hstance' := hstance.stable hrely
  refine ⟨guarantee_of_step hcall (.inl rfl), ?_⟩
  rw [hanswer]
  exact (h now (Int.le_trans hstance'.clock hnow)).run _ (hstance'.tick hnow)

theorem tracks_newUuid {k : String → TriggerProg α}
    (h : ∀ id, Tracks b faults cond moves i upTo locked writes (k id)) :
    Tracks b faults cond moves i upTo locked writes (newUuid >>= k) := by
  refine ⟨fun w hstance => ?_⟩
  apply wp_perform_bind
  intro w' hrely
  refine ⟨trivial, fun answer w'' hcall => ?_⟩
  have hstep := hcall
  obtain ⟨_, now, hnow, _, rfl⟩ := hstep
  have hstance' := hstance.stable hrely
  refine ⟨guarantee_of_step hcall (.inl rfl), (h answer).run _ ?_⟩
  exact (hstance'.tick hnow).later (Int.le_trans hstance'.clock hnow)

theorem tracks_write {query : Query} {k : query.Result → TriggerProg α} {x : Int → Write}
    (hcommit : query ≠ .commit)
    (hquery : ∀ w now a w', QueryStep b i now w query (.ok a) w' →
      WriteStep b i now w (x (w.sqlNow i b now)) (.ok ()) w')
    (h : ∀ now a, Tracks b faults cond moves i upTo locked (writes ++ [x now]) (k a)) :
    Tracks b faults cond moves i upTo locked writes (sql query >>= k) := by
  refine tracks_sql hcommit fun w now a w' hstance _ _ hnow hstep => ?_
  obtain ⟨hstance', _⟩ := hstance.write hnow (hquery w now a w' hstep) rfl
  have hle : upTo ≤ w'.clock := by
    rw [clock_query hstep]
    exact Int.le_trans hstance.clock hnow
  exact ⟨upTo, locked, _, hstance'.later hle, h _ a⟩

theorem tracks_insertRun {row : RunRecord} {k : Unit → TriggerProg α}
    (h : ∀ now, Tracks b faults cond moves i upTo locked
      (writes ++ [.insertRun { row with createdAt := now }]) (k ())) :
    Tracks b faults cond moves i upTo locked writes (sql (.insertRun row) >>= k) :=
  tracks_write (x := fun now => .insertRun { row with createdAt := now }) nofun
    (fun _ _ _ _ hstep => hstep) fun now _ => h now

theorem tracks_insertTriggerRun {row : TriggerRunRow} {k : Unit → TriggerProg α}
    (h : Tracks b faults cond moves i upTo locked (writes ++ [.insertTriggerRun row]) (k ())) :
    Tracks b faults cond moves i upTo locked writes (sql (.insertTriggerRun row) >>= k) :=
  tracks_write (x := fun _ => .insertTriggerRun row) nofun (fun _ _ _ _ hstep => hstep)
    fun _ _ => h

theorem tracks_updateTrigger {id : String} {change : TriggerChange} {k : Unit → TriggerProg α}
    (h : ∀ now, Tracks b faults cond moves i upTo locked
      (writes ++ [.changeTrigger id now change]) (k ())) :
    Tracks b faults cond moves i upTo locked writes (sql (.updateTrigger id change) >>= k) :=
  tracks_write (x := fun now => .changeTrigger id now change) nofun (fun _ _ _ _ hstep => hstep)
    fun now _ => h now

theorem tracks_edit {x : Write} {k : Unit → TriggerProg α}
    (h : Tracks b faults cond moves i upTo locked (writes ++ [x]) (k ())) :
    Tracks b faults cond moves i upTo locked writes (sql (.edit x) >>= k) :=
  tracks_write (x := fun _ => x) nofun (fun _ _ _ _ hstep => hstep) fun _ _ => h

theorem tracks_selectTrigger {tenantId triggerId : String} {k : Option TriggerRow → TriggerProg α}
    (h : ∀ found, Tracks b faults cond moves i upTo locked writes (k found)) :
    Tracks b faults cond moves i upTo locked writes
      (sql (.selectTrigger tenantId triggerId) >>= k) := by
  refine tracks_sql nofun fun w now a w' hstance _ _ hnow hstep => ?_
  obtain rfl : w' = w.tick now := hstep.2
  exact ⟨upTo, locked, writes, (hstance.tick hnow).later (Int.le_trans hstance.clock hnow), h a⟩

/-- A row that is at its slot is locked and written, on SQLite with the database. -/
theorem tracks_reserveTrigger {id : String} {scheduledFor : Int} {change : TriggerChange}
    {k : Bool → TriggerProg α}
    (htrue : ∀ row now, row.id = id → row.enabled = true → row.deadLetteredAt = none →
      row.nextFireAt = scheduledFor → Tracks .sqlite faults cond moves i upTo (some row)
        [.changeTrigger id now change] (k true))
    (hfalse : Tracks .sqlite faults cond moves i upTo locked [] (k false)) :
    Tracks .sqlite faults cond moves i upTo locked []
      (sql (.reserveTrigger id scheduledFor change) >>= k) := by
  refine tracks_sql nofun fun w now a w' hstance _ _ hnow hstep => ?_
  have hle : upTo ≤ now := Int.le_trans hstance.clock hnow
  rcases hstep with ⟨⟨row, hfound, henabled, halive, hslot⟩, r, hwrite, hanswer⟩ |
    ⟨_, hanswer, rfl⟩
  · rw [hstance.view] at hfound
    have hid : row.id = id := (Table.key_of_find hfound).2
    cases r with
    | error e => cases hanswer
    | ok u =>
      cases hanswer
      obtain ⟨hstance', holds, hs, hneeds⟩ := hstance.write hnow hwrite rfl
      refine ⟨upTo, some row, _, ⟨⟨holds, hs, fun row' _ => ?_⟩, fun row' hrow' => ?_, ?_,
        hstance'.started⟩, htrue row _ hid henabled halive hslot⟩
      · exact hneeds _ (List.mem_append_right _ List.mem_cons_self)
      · cases hrow'
        rw [(quiet_write hwrite).db, hid]
        exact hfound
      · rw [clock_write hwrite]
        exact hle
  · cases hanswer
    exact ⟨upTo, locked, [], (hstance.tick hnow).later hle, hfalse⟩

/-- On Postgres the row that is picked stays locked. -/
def lockedRow (b : Backend) (row : TriggerRow) : Option TriggerRow :=
  match b with
  | .postgres => some row
  | .sqlite => none

/-- A due trigger is there, enabled and not taken out, and was due at some time so
far. -/
theorem tracks_selectDueTrigger {type : TriggerType} {tenantMax : Int}
    {k : Option TriggerRow → TriggerProg α}
    (hnone : Tracks b faults cond moves i upTo locked [] (k none))
    (hsome : ∀ row now, (∃ w, cond w ∧ row ∈ w.tx.db.triggers) → upTo ≤ now →
      row.triggerType = type → row.enabled = true → row.deadLetteredAt = none →
      b.stamp row.nextFireAt ≤ b.stamp now →
        Tracks b faults cond moves i now (lockedRow b row) [] (k (some row))) :
    Tracks b faults cond moves i upTo locked []
      (sql (.selectDueTrigger type tenantMax) >>= k) := by
  refine tracks_sql nofun fun w now a w' hstance hlock hcond hnow hstep => ?_
  obtain ⟨pick, hanswer, hpick, hlocks⟩ := hstep
  cases hanswer
  have hle : upTo ≤ now := Int.le_trans hstance.clock hnow
  have hclock : w'.clock = now := clock_lock hlocks
  obtain ⟨hstance', holds, hs, hheld⟩ := hstance.lock hnow hlocks
  cases a with
  | none => exact ⟨upTo, locked, [], hstance'.later (hclock ▸ hle), hnone⟩
  | some row =>
    obtain ⟨hmem, hmay, htype, hdue⟩ := mem_dueTriggers.mp hpick.mem
    rw [hstance.view] at hmem hmay
    simp only [Db.mayFire, Bool.and_eq_true, Option.isNone_iff_eq_none] at hmay
    have hrow : w'.tx.db.trigger? row.id = some row := by
      rw [(quiet_lock hlocks).db]
      exact (Table.find_eq_some_iff (nodup_triggers hlock.tx.entries)).mpr ⟨hmem, rfl⟩
    refine ⟨now, lockedRow b row, [], ⟨⟨holds, hs, ?_⟩, ?_, hstance'.clock, hstance'.started⟩,
      hsome row now ⟨w, hcond, hmem⟩ hle htype hmay.1.1.1 hmay.1.1.2
        (Int.le_trans hdue (hstance.sqlNow_le hnow))⟩
    · intro row' hrow'
      cases b with
      | sqlite => cases hrow'
      | postgres =>
        cases hrow'
        exact hheld _ (List.mem_append_left _ List.mem_cons_self)
    · intro row' hrow'
      cases b with
      | sqlite => cases hrow'
      | postgres =>
        cases hrow'
        exact hrow

/-- The end of a transaction. -/
theorem tracks_commit {a : α}
    (h : ∀ clock db, upTo ≤ clock → (∀ row, locked = some row → db.trigger? row.id = some row) →
      triggerStore.run writes db = db ∨ moves clock db (triggerStore.run writes db)) :
    Tracks b faults cond moves i upTo locked writes (commit a) := by
  refine ⟨fun w hstance => ?_⟩
  apply wp_sql
  intro w' hrely
  refine ⟨trivial, fun answer w'' hcall => ?_⟩
  obtain ⟨⟨holds, hs, _⟩, hrow, hclock, _⟩ := hstance.stable hrely
  have hpublish := h w'.clock w'.tx.db hclock hrow
  have hstep := hcall
  obtain ⟨_, now, hnow, hstep | ⟨_, ⟨message, hanswer⟩, hlost⟩⟩ := hstep
  · replace hstep : CommitStep i now w' answer w'' := hstep
    unfold CommitStep at hstep
    rw [hs] at hstep
    obtain ⟨rfl, rfl⟩ := hstep
    refine ⟨guarantee_of_step hcall hpublish, ?_, nofun⟩
    intro _ _ w₃ hrely₃ a' _
    exact hrely₃.session.trans (publish_closed i w' now _)
  · subst hanswer
    refine ⟨guarantee_of_step hcall ?_, nofun, ?_⟩
    · rcases hlost with rfl | ⟨tx, _, htx, rfl⟩
      · exact .inl rfl
      · rw [hs] at htx
        cases htx
        exact hpublish
    · intro e _ w₃ _ a' ha'
      cases ha'

theorem tracks_commit_nothing {a : α} :
    Tracks b faults cond moves i upTo locked [] (commit a) :=
  tracks_commit fun _ _ _ _ => .inl rfl

end Tracks

/-! ## Slots -/

section Slots

variable {rt : TriggerRuntime} {upTo : Int} {seen : TriggerRow} {type : TriggerType}

/-- What becomes of the row that a slot is entered for. -/
def Publishes (b : Backend) (moves : Int → Db → Db → Prop) (upTo : Int) (seen : TriggerRow)
    (publish : Db → Db) : Prop :=
  ∀ row clock db, AtSlot seen row → (b = .postgres → seen = row) → upTo ≤ clock →
    db.trigger? row.id = some row → moves clock db (publish db)

theorem tracks_failSlot (change : TriggerChange) (error : Json) (hseen : AtSlot seen seen)
    (hpublish : ∀ rowId stamp, Publishes b moves upTo seen fun db =>
      (db.insertTriggerRun (failedRow b rowId seen.id seen.nextFireAt (.slot seen.nextFireAt)
        error)).changeTrigger seen.id (change.row stamp)) :
    Tracks b faults cond moves i upTo (lockedRow b seen) [] (failSlot b seen change error) := by
  have hrest : ∀ row stamp, AtSlot seen row → (b = .postgres → seen = row) →
      Tracks b faults cond moves i upTo (some row) [.changeTrigger seen.id stamp change] (do
        insertFailed b seen.id seen.nextFireAt (.slot seen.nextFireAt) error
        commit none : TriggerProg (Option TriggerDispatchRecord)) := by
    intro row stamp hrow hlocked
    rw [insertFailed, Prog.bind_assoc]
    refine tracks_newUuid fun rowId => tracks_insertTriggerRun (tracks_commit ?_)
    intro clock db hclock hfound
    exact .inr (hpublish rowId stamp row clock db hrow hlocked hclock (hfound row rfl))
  unfold failSlot
  cases b with
  | postgres =>
    simp only [advanceTrigger, Prog.bind_assoc]
    exact tracks_updateTrigger fun now => hrest seen now hseen fun _ => rfl
  | sqlite =>
    refine tracks_reserveTrigger (fun row now hid henabled halive hslot => ?_)
      tracks_commit_nothing
    exact hrest row now ⟨hid, hslot, henabled, halive⟩ fun h => by cases h

theorem tracks_fireSlot (nextFireAt : Int) (hseen : AtSlot seen seen)
    (hpublish : ∀ (run : RunRecord) rowId stamp, Publishes b moves upTo seen fun db =>
      ((db.insertRun run).insertTriggerRun (createdRow b rowId seen.id run.id seen.nextFireAt
        (.slot seen.nextFireAt))).changeTrigger seen.id
          (TriggerChange.row stamp (.fire nextFireAt))) :
    Tracks b faults cond moves i upTo (lockedRow b seen) [] (fireSlot b seen type nextFireAt) := by
  cases b with
  | postgres =>
    refine tracks_newUuid fun runId => tracks_insertRun fun created =>
      tracks_updateTrigger fun stamp => ?_
    rw [insertCreated, Prog.bind_assoc]
    refine tracks_newUuid fun rowId => tracks_insertTriggerRun (tracks_commit ?_)
    intro clock db hclock hfound
    exact .inr (hpublish { newRun seen runId seen.inputJson with createdAt := created } rowId stamp
      seen clock db hseen (fun _ => rfl) hclock (hfound seen rfl))
  | sqlite =>
    refine tracks_newUuid fun runId => tracks_reserveTrigger
      (fun row stamp hid henabled halive hslot => ?_) tracks_commit_nothing
    rw [if_pos rfl]
    refine tracks_insertRun fun created => ?_
    rw [insertCreated, Prog.bind_assoc]
    refine tracks_newUuid fun rowId => tracks_insertTriggerRun (tracks_commit ?_)
    intro clock db hclock hfound
    exact .inr (hpublish { newRun seen runId (injectTraceId seen.inputJson runId) with
      createdAt := created } rowId stamp row clock db ⟨hid, hslot, henabled, halive⟩
        (fun h => by cases h) hclock (hfound row rfl))

/-- A decision about the trigger that was read is carried out as it was taken. -/
theorem tracks_execute {Seen : TriggerRow → Prop} {since now : Int} {plan : SlotPlan}
    (hmoves : ∀ clock db db', SlotMove rt b Seen since clock db db' → moves clock db db')
    (hseen : Seen seen) (hslot : AtSlot seen seen) (hplan : seen.plan rt now = some plan)
    (hsince : since ≤ now) (hnow : now ≤ upTo) (hdue : b.stamp seen.nextFireAt ≤ b.stamp upTo) :
    Tracks b faults cond moves i upTo (lockedRow b seen) [] (plan.execute b type seen) := by
  have hpublish : ∀ (run : RunRecord) rowId stamp, Publishes b moves upTo seen
      (plan.publish b seen run rowId stamp) := by
    intro run rowId stamp row clock db hrow hlocked hclock hfound
    refine hmoves clock db _ (.mk run rowId stamp hseen hrow hlocked (hrow.id ▸ hfound) hplan
      hsince (Int.le_trans hnow hclock) ?_)
    rw [hrow.nextFireAt]
    exact Int.le_trans hdue (b.stamp_mono hclock)
  cases plan with
  | fire nextFireAt => exact tracks_fireSlot nextFireAt hslot hpublish
  | skip nextFireAt => exact tracks_failSlot _ _ hslot (hpublish (newRun seen "" .null))
  | deadLetter message => exact tracks_failSlot _ _ hslot (hpublish (newRun seen "" .null))

theorem tracks_fireScheduled {Seen : TriggerRow → Prop} {since : Int}
    (hmoves : ∀ clock db db', SlotMove rt b Seen since clock db db' → moves clock db db')
    (hseen : Seen seen) (hslot : AtSlot seen seen) (htype : seen.triggerType = type)
    (hsince : since ≤ upTo) (hdue : b.stamp seen.nextFireAt ≤ b.stamp upTo) :
    Tracks b faults cond moves i upTo (lockedRow b seen) [] (fireScheduled rt b type seen) := by
  unfold TriggerRow.triggerType at htype
  cases hschedule : seen.schedule with
  | interval seconds =>
    rw [hschedule] at htype
    obtain rfl : TriggerType.interval = type := htype
    rw [fireScheduled_interval b hschedule]
    refine tracks_nowUtc fun now hnow => tracks_execute hmoves hseen hslot ?_
      (Int.le_trans hsince hnow) (Int.le_refl now) (Int.le_trans hdue (b.stamp_mono hnow))
    unfold TriggerRow.plan SlotColumns.plan
    rw [show seen.slotColumns.schedule = _ from hschedule]
  | cron expression =>
    rw [hschedule] at htype
    obtain rfl : TriggerType.cron = type := htype
    rw [fireScheduled_cron b hschedule]
    refine tracks_execute hmoves hseen hslot ?_ hsince (Int.le_refl upTo) hdue
    unfold TriggerRow.plan SlotColumns.plan
    rw [show seen.slotColumns.schedule = _ from hschedule]
  | webhook =>
    rw [hschedule] at htype
    obtain rfl : TriggerType.webhook = type := htype
    unfold fireScheduled
    rw [hschedule]
    exact tracks_fail _

end Slots

end Rules

end Trigger
end SecureAgnt

/-
What a transaction publishes.

`Published` lists the changes of the tables that a commit can make: a run never
appears without its row of the ledger and the change of its trigger or event.
`Settles` says of a program inside a transaction, given the writes that wait so far,
that whatever it commits is one of these changes; there is one rule for each
statement.  Other sessions may commit in between, so a program only carries over
facts that no commit undoes.
-/
import SecureAgnt.Lib.Run
import SecureAgnt.Trigger.Dispatch
import SecureAgnt.Trigger.Session

namespace SecureAgnt
namespace Trigger

open Storage
open Handler

/-! ## Changes of the tables -/

def Db.HasTrigger (db : Db) (id : String) (type : TriggerType) : Prop :=
  ∃ row ∈ db.triggers, row.id = id ∧ row.triggerType = type

def Db.HasEvent (db : Db) (rowId triggerId eventId : String) : Prop :=
  ∃ row ∈ db.events, row.id = rowId ∧ row.triggerId = triggerId ∧ row.eventId = eventId

/-- The row of the ledger for a new run. -/
structure TriggerRunRow.Creates (b : Backend) (row : TriggerRunRow) (run : RunRecord)
    (source : Source) : Prop where
  runId : row.runId = some run.id
  dedupeKey : row.dedupeKey = source.dedupeKey b
  source : row.source = source

/-- The row of the ledger for an attempt without a run. -/
structure TriggerRunRow.Fails (b : Backend) (row : TriggerRunRow) (source : Source) : Prop where
  runId : row.runId = none
  dedupeKey : row.dedupeKey = source.dedupeKey b
  source : row.source = source

/-- A write of the rest of the program. -/
inductive Write.IsEdit : Write → Prop
  | createTrigger (row : TriggerRow) : IsEdit (.insertTrigger row)
  | editTrigger (id : String) (edit : TriggerEdit) : IsEdit (.editTrigger id edit)
  | createRun (row : RunRecord) : IsEdit (.insertRun row)
  | editRun (id : String) (edit : RunEdit) : IsEdit (.editRun id edit)

/-- What a commit makes visible.  `seen` holds of the instants that a trigger was
scheduled for, `fires` of the keys with which it is fired by hand, and `edits` of the writes that
the rest of the program makes. -/
inductive Published (b : Backend) (seen : String → Int → Prop) (fires : String → String → Prop)
    (edits : Write → Prop) (db : Db) : Db → Prop
  | slot (run : RunRecord) (row : TriggerRunRow) {type : TriggerType} {scheduledFor : Int}
      (now nextFireAt : Int) (htype : type ≠ .webhook) (htrigger : db.HasTrigger row.triggerId type)
      (hseen : seen row.triggerId scheduledFor) (hrow : row.Creates b run (.slot scheduledFor)) :
      Published b seen fires edits db (((db.insertRun run).insertTriggerRun row).changeTrigger
        row.triggerId (TriggerChange.row now (.fire nextFireAt)))
  | slotSkipped (row : TriggerRunRow) {type : TriggerType} {scheduledFor : Int} (now : Int)
      (change : TriggerChange) (htype : type ≠ .webhook)
      (htrigger : db.HasTrigger row.triggerId type) (hseen : seen row.triggerId scheduledFor)
      (hrow : row.Fails b (.slot scheduledFor)) :
      Published b seen fires edits db ((db.insertTriggerRun row).changeTrigger row.triggerId
        (change.row now))
  | event (run : RunRecord) (row : TriggerRunRow) {rowId eventId : String} (now now' : Int)
      (htrigger : db.HasTrigger row.triggerId .webhook)
      (hevent : db.HasEvent rowId row.triggerId eventId) (hrow : row.Creates b run (.event eventId)) :
      Published b seen fires edits db ((((db.insertRun run).insertTriggerRun row).changeEvent rowId
        (EventChange.row now .process)).changeTrigger row.triggerId (TriggerChange.row now' .touch))
  | eventFailed (row : TriggerRunRow) {rowId eventId : String} (now : Int) (deadLetter : Bool)
      (eventError : Json) (htrigger : db.HasTrigger row.triggerId .webhook)
      (hevent : db.HasEvent rowId row.triggerId eventId) (hrow : row.Fails b (.event eventId)) :
      Published b seen fires edits db ((db.insertTriggerRun row).changeEvent rowId
        (EventChange.row now (.fail deadLetter eventError)))
  | manual (run : RunRecord) (row : TriggerRunRow) {idempotencyKey : String} (now : Int)
      (hfires : fires row.triggerId idempotencyKey)
      (hrow : row.Creates b run (.manual idempotencyKey)) :
      Published b seen fires edits db (((db.insertRun run).insertTriggerRun row).changeTrigger
        row.triggerId (TriggerChange.row now .touch))
  | enqueued (row : EventRow) (htrigger : db.HasTrigger row.triggerId .webhook)
      (hpending : row.status = .pending) :
      Published b seen fires edits db (db.insertEvent row)
  | requeued (rowId : String) (now : Int) :
      Published b seen fires edits db (db.changeEvent rowId (EventChange.row now .requeue))
  | edited {x : Write} (hedits : edits x) (hedit : x.IsEdit) :
      Published b seen fires edits db (x.apply db)

/-- The commits of the calls that are not about slots are allowed. -/
structure Admits (b : Backend) (fires : String → String → Prop) (publishes : Db → Db → Prop) :
    Prop where
  event : ∀ (db : Db) (run : RunRecord) (row : TriggerRunRow) (rowId eventId : String)
    (now now' : Int), db.HasTrigger row.triggerId .webhook →
      db.HasEvent rowId row.triggerId eventId → row.Creates b run (.event eventId) →
      publishes db ((((db.insertRun run).insertTriggerRun row).changeEvent rowId
        (EventChange.row now .process)).changeTrigger row.triggerId (TriggerChange.row now' .touch))
  eventFailed : ∀ (db : Db) (row : TriggerRunRow) (rowId eventId : String) (now : Int)
    (deadLetter : Bool) (eventError : Json), db.HasTrigger row.triggerId .webhook →
      db.HasEvent rowId row.triggerId eventId → row.Fails b (.event eventId) →
      publishes db ((db.insertTriggerRun row).changeEvent rowId
        (EventChange.row now (.fail deadLetter eventError)))
  manual : ∀ (db : Db) (run : RunRecord) (row : TriggerRunRow) (idempotencyKey : String)
    (now : Int), fires row.triggerId idempotencyKey → row.Creates b run (.manual idempotencyKey) →
      publishes db (((db.insertRun run).insertTriggerRun row).changeTrigger row.triggerId
        (TriggerChange.row now .touch))
  enqueued : ∀ (db : Db) (row : EventRow), db.HasTrigger row.triggerId .webhook →
    row.status = .pending → publishes db (db.insertEvent row)
  requeued : ∀ (db : Db) (rowId : String) (now : Int),
    publishes db (db.changeEvent rowId (EventChange.row now .requeue))

theorem published_admits {b : Backend} {seen : String → Int → Prop}
    {fires : String → String → Prop} {edits : Write → Prop} :
    Admits b fires (Published b seen fires edits) where
  event _ run row _ _ now now' := .event run row now now'
  eventFailed _ row _ _ now deadLetter eventError := .eventFailed row now deadLetter eventError
  manual _ run row _ now := .manual run row now
  enqueued _ row := .enqueued row
  requeued _ rowId now := .requeued rowId now

/-! ## Facts that last -/

/-- No trigger or event is gone, no trigger has another type, and the ledger has
every row it had. -/
structure Grows (db db' : Db) : Prop where
  triggers : ∀ id type, db.HasTrigger id type → db'.HasTrigger id type
  events : ∀ rowId triggerId eventId, db.HasEvent rowId triggerId eventId →
    db'.HasEvent rowId triggerId eventId
  ledger : ∀ row ∈ db.ledger, row ∈ db'.ledger

theorem Grows.refl (db : Db) : Grows db db :=
  ⟨fun _ _ h => h, fun _ _ _ h => h, fun _ h => h⟩

theorem Grows.trans {db₁ db₂ db₃ : Db} (h : Grows db₁ db₂) (h' : Grows db₂ db₃) :
    Grows db₁ db₃ :=
  ⟨fun id type ht => h'.triggers id type (h.triggers id type ht),
    fun r t e he => h'.events r t e (h.events r t e he),
    fun row hrow => h'.ledger row (h.ledger row hrow)⟩

theorem mem_changeRow {α : Type} {key : α → String} {id : String} {f : α → α} {rows : List α}
    {row : α} (h : row ∈ rows) : (if key row = id then f row else row) ∈ changeRow key id f rows :=
  List.mem_map_of_mem h

theorem grows_changeTrigger (db : Db) (id : String) {f : TriggerRow → TriggerRow}
    (hid : ∀ row, (f row).id = row.id) (htype : ∀ row, (f row).triggerType = row.triggerType) :
    Grows db (db.changeTrigger id f) := by
  refine ⟨?_, fun _ _ _ h => h, fun _ h => h⟩
  intro id' type h
  obtain ⟨row, hmem, hrow⟩ := h
  refine ⟨_, mem_changeRow hmem, ?_⟩
  split
  · rw [hid, htype]
    exact hrow
  · exact hrow

theorem grows_changeEvent (db : Db) (id : String) (now : Int) (change : EventChange) :
    Grows db (db.changeEvent id (change.row now)) := by
  refine ⟨fun _ _ h => h, ?_, fun _ h => h⟩
  intro rowId triggerId eventId h
  obtain ⟨row, hmem, hrow⟩ := h
  refine ⟨_, mem_changeRow hmem, ?_⟩
  split
  · cases change <;> exact hrow
  · exact hrow

theorem grows_insertTriggerRun (db : Db) (row : TriggerRunRow) :
    Grows db (db.insertTriggerRun row) :=
  ⟨fun _ _ h => h, fun _ _ _ h => h, fun _ h => List.mem_append_left _ h⟩

/-- No write takes anything away. -/
theorem grows_apply (x : Write) (db : Db) : Grows db (x.apply db) := by
  cases x with
  | insertTrigger row =>
    refine ⟨?_, fun _ _ _ h => h, fun _ h => h⟩
    intro id type h
    obtain ⟨row', hmem, hrow⟩ := h
    exact ⟨row', List.mem_append_left _ hmem, hrow⟩
  | insertEvent row =>
    refine ⟨fun _ _ h => h, ?_, fun _ h => h⟩
    intro rowId triggerId eventId h
    obtain ⟨row', hmem, hrow⟩ := h
    exact ⟨row', List.mem_append_left _ hmem, hrow⟩
  | insertRun row => exact ⟨fun _ _ h => h, fun _ _ _ h => h, fun _ h => h⟩
  | insertTriggerRun row => exact grows_insertTriggerRun db row
  | changeTrigger id now change =>
    exact grows_changeTrigger db id (change.row_id now) (change.row_triggerType now)
  | changeEvent id now change => exact grows_changeEvent db id now change
  | editTrigger id edit => exact grows_changeTrigger db id edit.keeps_id edit.keeps_type
  | editRun id edit => exact ⟨fun _ _ h => h, fun _ _ _ h => h, fun _ h => h⟩

theorem grows_run (writes : List Write) (db : Db) : Grows db (triggerStore.run writes db) := by
  induction writes generalizing db with
  | nil => exact .refl db
  | cons x writes ih => exact (grows_apply x db).trans (ih (x.apply db))

/-- A statement about the tables that no commit undoes. -/
structure Fact where
  holds : Db → Prop
  lasts : ∀ db db', holds db → Grows db db' → holds db'

namespace Fact

def trivial : Fact := ⟨fun _ => True, fun _ _ _ _ => True.intro⟩

def hasTrigger (id : String) (type : TriggerType) : Fact :=
  ⟨fun db => db.HasTrigger id type, fun _ _ h hg => hg.triggers id type h⟩

def hasEvent (rowId triggerId eventId : String) : Fact :=
  ⟨fun db => db.HasEvent rowId triggerId eventId, fun _ _ h hg => hg.events _ _ _ h⟩

def hasTriggerRun (row : TriggerRunRow) : Fact :=
  ⟨fun db => row ∈ db.ledger, fun _ _ h hg => hg.ledger row h⟩

def and (F G : Fact) : Fact :=
  ⟨fun db => F.holds db ∧ G.holds db,
    fun db db' h hg => ⟨F.lasts db db' h.1 hg, G.lasts db db' h.2 hg⟩⟩

end Fact

/-! ## Programs inside a transaction -/

/-- What session `i` relies on and what it promises: it commits nothing but what
`publishes` allows. -/
def sessionContract (publishes : Db → Db → Prop) (i : Nat) : Contract TriggerWorld Stmt where
  rely w w' := w'.tx.sessions i = w.tx.sessions i ∧ Grows w.tx.db w'.tx.db
  guarantee w w' := OthersKept i w w' ∧ (w'.tx.db = w.tx.db ∨ publishes w.tx.db w'.tx.db)
  safe := fun _ _ => True
  rely_refl := fun w => ⟨rfl, .refl w.tx.db⟩
  rely_trans := fun h h' => ⟨h'.1.trans h.1, h.2.trans h'.2⟩

/-- The transaction of session `i` is open with these writes. -/
structure Ready (i : Nat) (F : Fact) (writes : List Write) (w : TriggerWorld) : Prop where
  session : ∃ holds, w.tx.sessions i = some ⟨writes, holds⟩
  fact : F.holds w.tx.db

section Rules

variable {b : Backend} {faults : Bool} {cond : TriggerWorld → Prop} {publishes : Db → Db → Prop}
  {i : Nat} {α β : Type} {F : Fact} {writes : List Write} {R : α → Fact} {w : TriggerWorld}

/-- Session `i` in the runs whose states meet `cond`. -/
def sessionIn (b : Backend) (faults : Bool) (cond : TriggerWorld → Prop) (i : Nat) :
    Handler Stmt Stmt.Ans TriggerWorld :=
  (session b faults i).guarded fun w _ => cond w

/-- From inside a transaction the program commits only what is allowed, and a result
means that it did commit. -/
structure Settles (b : Backend) (faults : Bool) (cond : TriggerWorld → Prop)
    (publishes : Db → Db → Prop) (i : Nat) (F : Fact) (writes : List Write) (p : TriggerProg α)
    (R : α → Fact) : Prop where
  run : ∀ w, Ready i F writes w → wp (sessionIn b faults cond i) (sessionContract publishes i) p
    (fun w r => ∀ a, r = .ok a → w.tx.sessions i = none ∧ (R a).holds w.tx.db) w

theorem Ready.stable {w' : TriggerWorld} (h : Ready i F writes w)
    (hrely : (sessionContract publishes i).rely w w') : Ready i F writes w' := by
  obtain ⟨⟨holds, hs⟩, hfact⟩ := h
  exact ⟨⟨holds, hrely.1.trans hs⟩, F.lasts _ _ hfact hrely.2⟩

theorem Quiet.guarantee {w' : TriggerWorld} (h : Quiet i w w') :
    (sessionContract publishes i).guarantee w w' :=
  ⟨h.toOthersKept, .inl h.db⟩

theorem settles_fail (e : DbError) :
    Settles b faults cond publishes i F writes (.fail e : TriggerProg α) R := by
  refine ⟨fun w _ w' _ a ha => ?_⟩
  cases ha

/-- A statement that commits nothing: what its answer says of the session and the
tables is known to the rest. -/
theorem settles_sql {query : Query} {k : query.Result → TriggerProg α} (hcommit : query ≠ .commit)
    (h : ∀ w now a w', Ready i F writes w → cond w → QueryStep b i now w query (.ok a) w' →
      ∃ F' writes', Ready i F' writes' w' ∧
        Settles b faults cond publishes i F' writes' (k a) R) :
    Settles b faults cond publishes i F writes (sql query >>= k) R := by
  refine ⟨fun w hready => ?_⟩
  apply wp_sql
  intro w' hrely
  refine ⟨trivial, fun answer w'' hstep => ?_⟩
  obtain ⟨hcond, now, _, hstep | ⟨_, ⟨message, hanswer⟩, hlost⟩⟩ := hstep
  · refine ⟨(quiet_query hcommit hstep).guarantee, ?_, ?_⟩
    · rintro a rfl
      obtain ⟨F', writes', hready', hrest⟩ := h w' now a w'' (hready.stable hrely) hcond hstep
      exact hrest.run w'' hready'
    · intro e _ w₃ _ a ha
      cases ha
  · rcases hlost with rfl | ⟨tx, hquery, _⟩
    · refine ⟨(quiet_setTx i w' now none).guarantee, ?_, ?_⟩
      · rintro a rfl
        cases hanswer
      · intro e _ w₃ _ a ha
        cases ha
    · exact absurd hquery hcommit

/-- A call that touches neither the session nor the tables. -/
theorem settles_perform {stmt : Stmt} {k : stmt.Ans → TriggerProg α}
    (hstmt : ∀ now w answer w', stmtStep b i now w faults stmt answer w' → w' = w.tick now)
    (h : ∀ answer, Settles b faults cond publishes i F writes (k answer) R) :
    Settles b faults cond publishes i F writes (Prog.perform stmt >>= k) R := by
  refine ⟨fun w hready => ?_⟩
  apply wp_perform_bind
  intro w' hrely
  refine ⟨trivial, fun answer w'' hstep => ?_⟩
  obtain ⟨_, now, _, hstep⟩ := hstep
  obtain rfl := hstmt now w' answer w'' hstep
  have hready' := hready.stable hrely
  exact ⟨(quiet_tick i w' now).guarantee, (h answer).run _ ⟨hready'.session, hready'.fact⟩⟩

theorem settles_nowUtc {k : Int → TriggerProg α}
    (h : ∀ now, Settles b faults cond publishes i F writes (k now) R) :
    Settles b faults cond publishes i F writes (nowUtc >>= k) R :=
  settles_perform (fun _ _ _ _ hstep => hstep.2) h

theorem settles_newUuid {k : String → TriggerProg α}
    (h : ∀ id, Settles b faults cond publishes i F writes (k id) R) :
    Settles b faults cond publishes i F writes (newUuid >>= k) R :=
  settles_perform (fun _ _ _ _ hstep => hstep.2) h

/-- The end of a transaction. -/
theorem settles_commit {a : α} (hR : ∀ db, F.holds db → (R a).holds db)
    (h : ∀ db, F.holds db → triggerStore.run writes db = db ∨
      publishes db (triggerStore.run writes db)) :
    Settles b faults cond publishes i F writes (commit a) R := by
  refine ⟨fun w hready => ?_⟩
  apply wp_sql
  intro w' hrely
  refine ⟨trivial, fun answer w'' hstep => ?_⟩
  obtain ⟨⟨holds, hs⟩, hfact⟩ := hready.stable hrely
  have hpublish : ∀ now, (sessionContract publishes i).guarantee w'
      ((w'.tick now).publish i ⟨writes, holds⟩) :=
    fun now => ⟨publish_others i w' now _, h w'.tx.db hfact⟩
  obtain ⟨_, now, _, hstep | ⟨_, ⟨message, hanswer⟩, hlost⟩⟩ := hstep
  · replace hstep : CommitStep i now w' answer w'' := hstep
    unfold CommitStep at hstep
    rw [hs] at hstep
    obtain ⟨rfl, rfl⟩ := hstep
    refine ⟨hpublish now, ?_, nofun⟩
    intro _ _ w₃ hrely₃ a' ha'
    cases ha'
    refine ⟨hrely₃.1.trans (publish_closed i w' now _), ?_⟩
    exact (R a).lasts _ _ ((R a).lasts _ _ (hR _ hfact) (grows_run writes w'.tx.db)) hrely₃.2
  · subst hanswer
    refine ⟨?_, nofun, ?_⟩
    · rcases hlost with rfl | ⟨tx, _, htx, rfl⟩
      · exact (quiet_setTx i w' now none).guarantee
      · rw [hs] at htx
        cases htx
        exact hpublish now
    · intro e _ w₃ _ a' ha'
      cases ha'

/-- The rest of the program when one row is written. -/
theorem ready_write {now : Int} {x : Write} {answer : Except DbError Unit} {w' : TriggerWorld}
    (hready : Ready i F writes w) (hstep : WriteStep b i now w x answer w') (hok : answer = .ok ()) :
    Ready i F (writes ++ [x]) w' := by
  obtain ⟨⟨holds, hs⟩, hfact⟩ := hready
  have hdb : w'.tx.db = w.tx.db := (quiet_write hstep).db
  unfold WriteStep at hstep
  rw [hs] at hstep
  rcases hstep.2 with ⟨_, _, rfl⟩ | ⟨_, _, _, herror, _⟩
  · exact ⟨⟨_, w.tx.setSession_same i _⟩, hfact⟩
  · rw [hok] at herror
    cases herror

theorem ready_quiet {w' : TriggerWorld} (hready : Ready i F writes w)
    (hs : w'.tx.sessions i = w.tx.sessions i) (hdb : w'.tx.db = w.tx.db) : Ready i F writes w' := by
  obtain ⟨⟨holds, hs'⟩, hfact⟩ := hready
  exact ⟨⟨holds, hs.trans hs'⟩, hdb ▸ hfact⟩

theorem ready_lock {now : Int} {rs : List Resource} {w' : TriggerWorld}
    (hready : Ready i F writes w) (hstep : LockStep i now w rs w') : Ready i F writes w' := by
  obtain ⟨⟨holds, hs⟩, hfact⟩ := hready
  obtain ⟨_, hstep⟩ := hstep
  rw [hs] at hstep
  obtain rfl : w' = _ := hstep
  exact ⟨⟨_, w.tx.setSession_same i _⟩, hfact⟩

/-- Before the first write a session sees the tables themselves. -/
theorem Ready.view (hready : Ready i F [] w) : w.view i = w.tx.db := by
  obtain ⟨⟨holds, hs⟩, _⟩ := hready
  unfold TriggerWorld.view
  rw [hs]
  rfl

/-! ## One rule for each statement -/

theorem settles_insertRun {row : RunRecord} {k : Unit → TriggerProg α}
    (h : ∀ now, Settles b faults cond publishes i F
      (writes ++ [.insertRun { row with createdAt := now }]) (k ()) R) :
    Settles b faults cond publishes i F writes (sql (.insertRun row) >>= k) R :=
  settles_sql nofun fun _ _ _ _ hready _ hstep => ⟨F, _, ready_write hready hstep rfl, h _⟩

theorem settles_insertTriggerRun {row : TriggerRunRow} {k : Unit → TriggerProg α}
    (h : Settles b faults cond publishes i F (writes ++ [.insertTriggerRun row]) (k ()) R) :
    Settles b faults cond publishes i F writes (sql (.insertTriggerRun row) >>= k) R :=
  settles_sql nofun fun _ _ _ _ hready _ hstep => ⟨F, _, ready_write hready hstep rfl, h⟩

theorem settles_updateTrigger {id : String} {change : TriggerChange} {k : Unit → TriggerProg α}
    (h : ∀ now, Settles b faults cond publishes i F (writes ++ [.changeTrigger id now change])
      (k ()) R) :
    Settles b faults cond publishes i F writes (sql (.updateTrigger id change) >>= k) R :=
  settles_sql nofun fun _ _ _ _ hready _ hstep => ⟨F, _, ready_write hready hstep rfl, h _⟩

theorem settles_updateEvent {id : String} {change : EventChange} {k : Unit → TriggerProg α}
    (h : ∀ now, Settles b faults cond publishes i F (writes ++ [.changeEvent id now change])
      (k ()) R) :
    Settles b faults cond publishes i F writes (sql (.updateEvent id change) >>= k) R :=
  settles_sql nofun fun _ _ _ _ hready _ hstep => ⟨F, _, ready_write hready hstep rfl, h _⟩

theorem settles_edit {x : Write} {k : Unit → TriggerProg α}
    (h : Settles b faults cond publishes i F (writes ++ [x]) (k ()) R) :
    Settles b faults cond publishes i F writes (sql (.edit x) >>= k) R :=
  settles_sql nofun fun _ _ _ _ hready _ hstep => ⟨F, _, ready_write hready hstep rfl, h⟩

/-- Either the row is written or nothing is. -/
theorem ready_writeIf {now : Int} {possible : Prop} {x : Write} {wrote : Bool} {w' : TriggerWorld}
    (hready : Ready i F writes w) (hstep : WriteIfStep b i now w possible x (.ok wrote) w') :
    wrote = true ∧ Ready i F (writes ++ [x]) w' ∨ wrote = false ∧ Ready i F writes w' := by
  rcases hstep with ⟨_, r, hstep, hanswer⟩ | ⟨_, hanswer, rfl⟩
  · cases r with
    | ok _ =>
      cases hanswer
      exact .inl ⟨rfl, ready_write hready hstep rfl⟩
    | error e => cases hanswer
  · cases hanswer
    exact .inr ⟨rfl, ready_quiet hready rfl rfl⟩

theorem settles_reserveTrigger {id : String} {scheduledFor : Int} {change : TriggerChange}
    {k : Bool → TriggerProg α}
    (htrue : ∀ now, Settles b faults cond publishes i F (writes ++ [.changeTrigger id now change])
      (k true) R)
    (hfalse : Settles b faults cond publishes i F writes (k false) R) :
    Settles b faults cond publishes i F writes
      (sql (.reserveTrigger id scheduledFor change) >>= k) R := by
  refine settles_sql nofun fun w now a w' hready _ hstep => ?_
  rcases ready_writeIf hready hstep with ⟨rfl, hready'⟩ | ⟨rfl, hready'⟩
  · exact ⟨F, _, hready', htrue _⟩
  · exact ⟨F, _, hready', hfalse⟩

theorem settles_insertEvent {row : EventRow} {k : Bool → TriggerProg α}
    (htrue : ∀ now, Settles b faults cond publishes i F
      (writes ++ [.insertEvent { row with createdAt := now, nextAttemptAt := now }]) (k true) R)
    (hfalse : Settles b faults cond publishes i F writes (k false) R) :
    Settles b faults cond publishes i F writes (sql (.insertEvent row) >>= k) R := by
  refine settles_sql nofun fun w now a w' hready _ hstep => ?_
  rcases ready_writeIf hready hstep with ⟨rfl, hready'⟩ | ⟨rfl, hready'⟩
  · exact ⟨F, _, hready', htrue _⟩
  · exact ⟨F, _, hready', hfalse⟩

theorem settles_reserveEvent {selects : EventRow → Bool} {change : EventChange}
    {k : Bool → TriggerProg α}
    (htrue : ∀ row now, selects row = true → Settles b faults cond publishes i F
      (writes ++ [.changeEvent row.id now change]) (k true) R)
    (hfalse : Settles b faults cond publishes i F writes (k false) R) :
    Settles b faults cond publishes i F writes (sql (.reserveEvent selects change) >>= k) R := by
  refine settles_sql nofun fun w now a w' hready _ hstep => ?_
  rcases hstep with ⟨row, _, hrow, r, hstep, hanswer⟩ | ⟨_, hanswer, rfl⟩
  · cases r with
    | ok _ =>
      cases hanswer
      exact ⟨F, _, ready_write hready hstep rfl, htrue row _ hrow⟩
    | error e => cases hanswer
  · cases hanswer
    exact ⟨F, _, ready_quiet hready rfl rfl, hfalse⟩

/-- A due trigger is there, has the type asked for, and is scheduled for its instant. -/
theorem settles_selectDueTrigger {seen : String → Int → Prop} {type : TriggerType}
    {tenantMax : Int} {k : Option TriggerRow → TriggerProg α}
    (hseen : ∀ w, cond w → ∀ row ∈ w.tx.db.triggers, row.triggerType ≠ .webhook →
      seen row.id row.nextFireAt) (htype : type ≠ .webhook)
    (hnone : Settles b faults cond publishes i F [] (k none) R)
    (hsome : ∀ row, seen row.id row.nextFireAt →
      Settles b faults cond publishes i (.hasTrigger row.id type) [] (k (some row)) R) :
    Settles b faults cond publishes i F [] (sql (.selectDueTrigger type tenantMax) >>= k) R := by
  refine settles_sql nofun fun w now a w' hready hcond hstep => ?_
  obtain ⟨pick, hanswer, hpick, hlock⟩ := hstep
  cases hanswer
  cases a with
  | none => exact ⟨F, [], ready_lock hready hlock, hnone⟩
  | some row =>
    obtain ⟨hmem, _, hrow, _⟩ := mem_dueTriggers.mp hpick.mem
    rw [hready.view] at hmem
    have hfact : w'.tx.db.HasTrigger row.id type := by
      rw [(quiet_lock hlock).db]
      exact ⟨row, hmem, rfl, hrow⟩
    have hready' := ready_lock hready hlock
    exact ⟨.hasTrigger row.id type, [], ⟨hready'.session, hfact⟩,
      hsome row (hseen w hcond row hmem (hrow ▸ htype))⟩

/-- A due event is there, and its trigger is a webhook. -/
theorem settles_selectDueEvent {tenantMax : Int}
    {k : Option (EventRow × TriggerRow) → TriggerProg α}
    (hnone : Settles b faults cond publishes i F [] (k none) R)
    (hsome : ∀ event trigger, Settles b faults cond publishes i
      (.and (.hasTrigger trigger.id .webhook) (.hasEvent event.id trigger.id event.eventId)) []
      (k (some (event, trigger))) R) :
    Settles b faults cond publishes i F [] (sql (.selectDueEvent tenantMax) >>= k) R := by
  refine settles_sql nofun fun w now a w' hready hcond hstep => ?_
  obtain ⟨pick, hanswer, hpick, hlock⟩ := hstep
  cases hanswer
  have hready' := ready_lock hready hlock
  rcases a with _ | ⟨event, trigger⟩
  · exact ⟨F, [], hready', hnone⟩
  · obtain ⟨hevent, hfind, hdue⟩ := mem_dueEvents.mp hpick.mem
    rw [hready.view] at hevent hfind
    obtain ⟨htrigger, hid⟩ := Table.key_of_find hfind
    have htype : trigger.triggerType = .webhook := by
      simp only [isDueEvent, Bool.and_eq_true, decide_eq_true_eq] at hdue
      exact hdue.2
    refine ⟨_, [], ⟨hready'.session, ?_⟩, hsome event trigger⟩
    rw [(quiet_lock hlock).db]
    exact ⟨⟨trigger, htrigger, rfl, htype⟩, ⟨event, hevent, rfl, hid.symm, rfl⟩⟩

/-- A statement that reads. -/
theorem settles_read {query : Query} {k : query.Result → TriggerProg α} (hcommit : query ≠ .commit)
    (hread : ∀ w now a w', Ready i F writes w → QueryStep b i now w query (.ok a) w' →
      Ready i F writes w')
    (h : ∀ a, Settles b faults cond publishes i F writes (k a) R) :
    Settles b faults cond publishes i F writes (sql query >>= k) R :=
  settles_sql hcommit fun w now a w' hready _ hstep =>
    ⟨F, writes, hread w now a w' hready hstep, h a⟩

theorem settles_selectTriggerForUpdate {tenantId triggerId : String}
    {k : Option TriggerRow → TriggerProg α}
    (h : ∀ found, Settles b faults cond publishes i F writes (k found) R) :
    Settles b faults cond publishes i F writes
      (sql (.selectTriggerForUpdate tenantId triggerId) >>= k) R := by
  refine settles_read nofun (fun w now a w' hready hstep => ?_) h
  obtain ⟨_, _, _, hlock⟩ := hstep
  exact ready_lock hready hlock

theorem settles_selectEventForUpdate {tenantId triggerId eventId : String}
    {k : Option EventRow → TriggerProg α}
    (h : ∀ found, Settles b faults cond publishes i F writes (k found) R) :
    Settles b faults cond publishes i F writes
      (sql (.selectEventForUpdate tenantId triggerId eventId) >>= k) R := by
  refine settles_read nofun (fun w now a w' hready hstep => ?_) h
  obtain ⟨_, _, _, hlock⟩ := hstep
  exact ready_lock hready hlock

theorem settles_countTriggerInflight {triggerId : String} {k : Nat → TriggerProg α}
    (h : ∀ count, Settles b faults cond publishes i F writes (k count) R) :
    Settles b faults cond publishes i F writes (sql (.countTriggerInflight triggerId) >>= k) R :=
  settles_read nofun (fun _ _ _ _ hready hstep => hstep.2 ▸ ready_quiet hready rfl rfl) h

theorem settles_countTenantInflight {tenantId : String} {k : Nat → TriggerProg α}
    (h : ∀ count, Settles b faults cond publishes i F writes (k count) R) :
    Settles b faults cond publishes i F writes (sql (.countTenantInflight tenantId) >>= k) R :=
  settles_read nofun (fun _ _ _ _ hready hstep => hstep.2 ▸ ready_quiet hready rfl rfl) h

/-- A row that is found stays in the ledger. -/
theorem settles_selectTriggerRun {triggerId dedupeKey : String}
    {k : Option TriggerRunRow → TriggerProg α}
    (hnone : Settles b faults cond publishes i F [] (k none) R)
    (hsome : ∀ row, row.triggerId = triggerId → row.dedupeKey = dedupeKey →
      Settles b faults cond publishes i (.hasTriggerRun row) [] (k (some row)) R) :
    Settles b faults cond publishes i F [] (sql (.selectTriggerRun triggerId dedupeKey) >>= k) R := by
  refine settles_sql nofun fun w now a w' hready _ hstep => ?_
  obtain ⟨hanswer, rfl⟩ := hstep
  rw [hready.view] at hanswer
  have hready' : Ready i F [] (w.tick now) := ready_quiet hready rfl rfl
  cases a with
  | none => exact ⟨F, [], hready', hnone⟩
  | some row =>
    have hfind : w.tx.db.triggerRun? triggerId dedupeKey = some row := (Except.ok.inj hanswer).symm
    have hkeys := List.find?_some hfind
    simp only [Bool.and_eq_true, decide_eq_true_eq] at hkeys
    exact ⟨.hasTriggerRun row, [], ⟨hready'.session, List.mem_of_find?_eq_some hfind⟩,
      hsome row hkeys.1 hkeys.2⟩

end Rules

end Trigger
end SecureAgnt

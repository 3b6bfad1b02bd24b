/-
One session while the others are at rest and no connection is lost.

Then nothing is locked by anyone else, a statement fails only on a unique index, and
what a call does is a function of the tables, the time and the new identifiers.
`Alone` is the judgement for programs inside a transaction, with one rule for each
statement.
-/
import Mathlib.Data.Fintype.EquivFin
import Mathlib.Data.Set.Finite.List
import SecureAgnt.Lib.Run
import SecureAgnt.Trigger.Dispatch
import SecureAgnt.Trigger.Locks

namespace SecureAgnt
namespace Trigger

open Storage
open Handler

/-! ## States -/

/-- No transaction is open. -/
structure Idle (db : Db) (since : Int) (w : TriggerWorld) : Prop where
  db : w.tx.db = db
  closed : ∀ j, w.tx.sessions j = none
  clock : since ≤ w.clock

/-- No transaction is open, and the indexes are in order. -/
structure Resting (db : Db) (since : Int) (w : TriggerWorld) : Prop extends Idle db since w where
  keys : w.tx.db.entries.Nodup

/-- Session `i` has the only open transaction, with these writes. -/
structure Doing (i : Nat) (db : Db) (since : Int) (writes : List Write) (w : TriggerWorld) :
    Prop where
  db : w.tx.db = db
  own : ∃ holds, w.tx.sessions i = some ⟨writes, holds⟩
  others : ∀ j, j ≠ i → w.tx.sessions j = none
  clock : since ≤ w.clock
  started : since ≤ w.started i

section Rules

variable {b : Backend} {i : Nat} {db : Db} {since now : Int} {writes : List Write}
  {w w' : TriggerWorld} {α : Type} {Q : Db → Except DbError α → Prop}

theorem free_of_others (h : ∀ j, j ≠ i → w.tx.sessions j = none) (r : Resource) :
    w.tx.Free i r := by
  intro j tx hne hj
  rw [h j hne] at hj
  cases hj

theorem Doing.view (h : Doing i db since writes w) : w.view i = triggerStore.run writes db := by
  obtain ⟨holds, hs⟩ := h.own
  unfold TriggerWorld.view
  rw [hs, h.db]

theorem Resting.view (h : Resting db since w) : w.view i = db := by
  unfold TriggerWorld.view
  rw [h.closed i, h.db]

/-- The time of a statement is not before the call. -/
theorem Doing.stamp_le (h : Doing i db since writes w) (hnow : w.clock ≤ now) :
    b.stamp since ≤ b.stamp (w.sqlNow i b now) := by
  have hclock := h.clock
  have hstarted := h.started
  cases b with
  | postgres => exact hstarted
  | sqlite =>
    show since / 10 ^ 9 ≤ now / 10 ^ 9 * 10 ^ 9 / 10 ^ 9
    omega

theorem Doing.setTx (h : Doing i db since writes w) (hnow : w.clock ≤ now) (writes' : List Write)
    (holds : List Resource) :
    Doing i db since writes' ((w.tick now).setTx i (some ⟨writes', holds⟩)) := by
  refine ⟨h.db, ⟨holds, w.tx.setSession_same i _⟩, ?_, ?_, h.started⟩
  · intro j hne
    exact (w.tx.setSession_other _ hne).trans (h.others j hne)
  · exact Int.le_trans h.clock hnow

theorem Doing.tick (h : Doing i db since writes w) (hnow : w.clock ≤ now) :
    Doing i db since writes (w.tick now) :=
  ⟨h.db, h.own, h.others, Int.le_trans h.clock hnow, h.started⟩

theorem Doing.lock {rs : List Resource} (h : Doing i db since writes w) (hnow : w.clock ≤ now)
    (hstep : LockStep i now w rs w') : Doing i db since writes w' := by
  obtain ⟨holds, hs⟩ := h.own
  obtain ⟨_, hstep⟩ := hstep
  rw [hs] at hstep
  obtain rfl : w' = _ := hstep
  exact h.setTx hnow writes _

/-- A write is made or finds one of its entries taken. -/
theorem Doing.write {x : Write} {answer : Except DbError Unit} (h : Doing i db since writes w)
    (hnow : w.clock ≤ now) (hstep : WriteStep b i now w x answer w') :
    answer = .ok () ∧ (∀ r ∈ x.adds, r ∉ (triggerStore.run writes db).entries) ∧
        Doing i db since (writes ++ [x]) w' ∨
      ∃ r ∈ x.adds, r ∈ (triggerStore.run writes db).entries ∧
        answer = .error (.uniqueViolation r) ∧ Doing i db since writes w' := by
  have hview := h.view
  obtain ⟨holds, hs⟩ := h.own
  unfold WriteStep at hstep
  rw [hs] at hstep
  rcases hstep.2 with ⟨hok, hnew, rfl⟩ | ⟨r, hr, hmem, herror, rfl⟩
  · rw [hview] at hnew
    exact .inl ⟨hok, hnew, h.setTx hnow _ _⟩
  · rw [hview] at hmem
    exact .inr ⟨r, hr, hmem, herror, h.tick hnow⟩

/-! ## Programs inside a transaction -/

/-- From inside its transaction the program ends as `Q` says of the tables after it: a
result means that it has committed, an error that the tables are as they were. -/
structure Alone (b : Backend) (i : Nat) (db : Db) (since : Int) (writes : List Write)
    (p : TriggerProg α) (Q : Db → Except DbError α → Prop) : Prop where
  run : ∀ w, Doing i db since writes w →
    wp (session b false i) (.alone fun _ _ => True) p (fun w r =>
      (∀ a, r = .ok a → ∃ db', Idle db' since w ∧ Q db' r) ∧
      (∀ e, r = .error e → (∃ writes', Doing i db since writes' w) ∧ Q db r)) w

theorem alone_sql {query : Query} {k : query.Result → TriggerProg α}
    (h : ∀ w now answer w', Doing i db since writes w → w.clock ≤ now →
      QueryStep b i now w query answer w' →
        (∀ a, answer = .ok a → ∃ writes', Doing i db since writes' w' ∧
          Alone b i db since writes' (k a) Q) ∧
        (∀ e, answer = .error e → Doing i db since writes w' ∧ Q db (.error e))) :
    Alone b i db since writes (sql query >>= k) Q := by
  refine ⟨fun w hdoing => ?_⟩
  rintro _ rfl
  refine ⟨trivial, fun answer w' hstep => ⟨trivial, ?_⟩⟩
  obtain ⟨now, hnow, hstep | ⟨hfault, _⟩⟩ := hstep
  · obtain ⟨hok, herror⟩ := h w now answer w' hdoing hnow hstep
    cases answer with
    | ok a =>
      obtain ⟨writes', hdoing', hrest⟩ := hok a rfl
      exact hrest.run w' hdoing'
    | error e =>
      rintro _ rfl
      refine ⟨nofun, ?_⟩
      intro _ _
      exact ⟨⟨writes, (herror e rfl).1⟩, (herror e rfl).2⟩
  · cases hfault

theorem alone_perform {stmt : Stmt} {k : stmt.Ans → TriggerProg α}
    (h : ∀ w now answer w', Doing i db since writes w → w.clock ≤ now →
      stmtStep b i now w false stmt answer w' →
        w' = w.tick now ∧ Alone b i db since writes (k answer) Q) :
    Alone b i db since writes (Prog.perform stmt >>= k) Q := by
  refine ⟨fun w hdoing => ?_⟩
  rintro _ rfl
  refine ⟨trivial, fun answer w' hstep => ⟨trivial, ?_⟩⟩
  obtain ⟨now, hnow, hstep⟩ := hstep
  obtain ⟨rfl, hrest⟩ := h w now answer w' hdoing hnow hstep
  exact hrest.run _ (hdoing.tick hnow)

theorem alone_nowUtc {k : Int → TriggerProg α}
    (h : ∀ now, since ≤ now → Alone b i db since writes (k now) Q) :
    Alone b i db since writes (nowUtc >>= k) Q := by
  refine alone_perform fun w now answer w' hdoing hnow hstep => ⟨hstep.2, ?_⟩
  obtain ⟨rfl, _⟩ := hstep
  exact h _ (Int.le_trans hdoing.clock hnow)

/-- A new identifier is the key of no row. -/
theorem alone_newUuid {k : String → TriggerProg α}
    (h : ∀ id, .runKey id ∉ (triggerStore.run writes db).entries →
      .triggerRunKey id ∉ (triggerStore.run writes db).entries →
        Alone b i db since writes (k id) Q) :
    Alone b i db since writes (newUuid >>= k) Q := by
  refine alone_perform fun w now answer w' hdoing hnow hstep => ⟨hstep.2, ?_⟩
  obtain ⟨⟨_, hrun, hrow⟩, _⟩ := hstep
  rw [hdoing.view] at hrun hrow
  exact h answer hrun hrow

/-- A write that adds no entry that is taken. -/
theorem alone_write {query : Query} {k : query.Result → TriggerProg α} {x : Int → Write}
    {a : query.Result}
    (hquery : ∀ w now answer w', Doing i db since writes w → QueryStep b i now w query answer w' →
      ∃ r, WriteStep b i now w (x (w.sqlNow i b now)) r w' ∧ (r = .ok () → answer = .ok a) ∧
        ∀ e, answer = .error e → r = .error e)
    (hfresh : ∀ now, ∀ r ∈ (x now).adds, r ∉ (triggerStore.run writes db).entries)
    (h : ∀ now, b.stamp since ≤ b.stamp now → Alone b i db since (writes ++ [x now]) (k a) Q) :
    Alone b i db since writes (sql query >>= k) Q := by
  refine alone_sql fun w now answer w' hdoing hnow hstep => ?_
  obtain ⟨r, hwrite, hok, herror⟩ := hquery w now answer w' hdoing hstep
  rcases hdoing.write hnow hwrite with ⟨rfl, _, hdoing'⟩ | ⟨r', hr', hmem, _, _⟩
  · obtain rfl := hok rfl
    refine ⟨?_, nofun⟩
    intro a' ha'
    cases ha'
    exact ⟨_, hdoing', h _ (hdoing.stamp_le hnow)⟩
  · exact absurd hmem (hfresh _ r' hr')

/-- A plain update or insert is a write of its own. -/
theorem write_of_unit {x : Write} {answer : Except DbError Unit}
    (h : WriteStep b i now w x answer w') :
    ∃ r, WriteStep b i now w x r w' ∧ (r = .ok () → answer = .ok ()) ∧
      ∀ e, answer = .error e → r = .error e :=
  ⟨answer, h, id, fun _ he => he⟩

theorem alone_insertRun {row : RunRecord} {k : Unit → TriggerProg α}
    (hfresh : .runKey row.id ∉ (triggerStore.run writes db).entries)
    (h : ∀ now, Alone b i db since (writes ++ [.insertRun { row with createdAt := now }]) (k ()) Q) :
    Alone b i db since writes (sql (.insertRun row) >>= k) Q := by
  refine alone_write (x := fun now => .insertRun { row with createdAt := now })
    (fun w now answer w' _ hstep => write_of_unit hstep) ?_ fun now _ => h now
  intro now r hr
  rw [List.mem_singleton.mp hr]
  exact hfresh

theorem alone_updateTrigger {id : String} {change : TriggerChange} {k : Unit → TriggerProg α}
    (h : ∀ now, b.stamp since ≤ b.stamp now →
      Alone b i db since (writes ++ [.changeTrigger id now change]) (k ()) Q) :
    Alone b i db since writes (sql (.updateTrigger id change) >>= k) Q :=
  alone_write (x := fun now => .changeTrigger id now change)
    (fun _ _ _ _ _ hstep => write_of_unit hstep) nofun h

theorem alone_updateEvent {id : String} {change : EventChange} {k : Unit → TriggerProg α}
    (h : ∀ now, b.stamp since ≤ b.stamp now →
      Alone b i db since (writes ++ [.changeEvent id now change]) (k ()) Q) :
    Alone b i db since writes (sql (.updateEvent id change) >>= k) Q :=
  alone_write (x := fun now => .changeEvent id now change)
    (fun _ _ _ _ _ hstep => write_of_unit hstep) nofun h

/-- The ledger takes a row under a key that is free, and refuses it under one that is
taken. -/
theorem alone_insertTriggerRun {row : TriggerRunRow} {k : Unit → TriggerProg α}
    (hfresh : .triggerRunKey row.id ∉ (triggerStore.run writes db).entries)
    (htaken : .dedupeKey row.triggerId row.dedupeKey ∈ (triggerStore.run writes db).entries →
      Q db (.error (.uniqueViolation (.dedupeKey row.triggerId row.dedupeKey))))
    (hfree : .dedupeKey row.triggerId row.dedupeKey ∉ (triggerStore.run writes db).entries →
      Alone b i db since (writes ++ [.insertTriggerRun row]) (k ()) Q) :
    Alone b i db since writes (sql (.insertTriggerRun row) >>= k) Q := by
  refine alone_sql fun w now answer w' hdoing hnow hstep => ?_
  rcases hdoing.write hnow hstep with ⟨rfl, hnew, hdoing'⟩ | ⟨r, hr, hmem, rfl, hdoing'⟩
  · refine ⟨?_, nofun⟩
    intro _ _
    have hdedupe : Resource.dedupeKey row.triggerId row.dedupeKey ∈ row.entries :=
      List.mem_cons_of_mem _ List.mem_cons_self
    exact ⟨_, hdoing', hfree (hnew _ hdedupe)⟩
  · refine ⟨nofun, ?_⟩
    rintro _ ⟨⟩
    refine ⟨hdoing', ?_⟩
    rcases List.mem_cons.mp hr with rfl | hr
    · exact absurd hmem hfresh
    · obtain rfl := List.mem_singleton.mp hr
      exact htaken hmem

/-- A row that is as it was read is written. -/
theorem alone_reserveTrigger {id : String} {scheduledFor : Int} {change : TriggerChange}
    {k : Bool → TriggerProg α}
    (hrow : ∃ row, (triggerStore.run writes db).trigger? id = some row ∧ row.enabled = true ∧
      row.deadLetteredAt = none ∧ row.nextFireAt = scheduledFor)
    (h : ∀ now, b.stamp since ≤ b.stamp now →
      Alone b i db since (writes ++ [.changeTrigger id now change]) (k true) Q) :
    Alone b i db since writes (sql (.reserveTrigger id scheduledFor change) >>= k) Q := by
  refine alone_write (x := fun now => .changeTrigger id now change) ?_ nofun h
  intro w now answer w' hdoing hstep
  rcases hstep with ⟨_, r, hwrite, rfl⟩ | ⟨himpossible, _⟩
  · refine ⟨r, hwrite, ?_, ?_⟩
    · rintro rfl
      rfl
    · intro e he
      cases r with
      | ok _ => cases he
      | error e' =>
        cases he
        rfl
  · rw [hdoing.view] at himpossible
    exact absurd hrow himpossible

theorem alone_reserveEvent {selects : EventRow → Bool} {change : EventChange}
    {k : Bool → TriggerProg α} (id : String)
    (hrow : ∃ row ∈ (triggerStore.run writes db).events, selects row = true)
    (hid : ∀ row ∈ (triggerStore.run writes db).events, selects row = true → row.id = id)
    (h : ∀ now, b.stamp since ≤ b.stamp now →
      Alone b i db since (writes ++ [.changeEvent id now change]) (k true) Q) :
    Alone b i db since writes (sql (.reserveEvent selects change) >>= k) Q := by
  refine alone_write (x := fun now => .changeEvent id now change) ?_ nofun h
  intro w now answer w' hdoing hstep
  rcases hstep with ⟨row, hmem, hselects, r, hwrite, rfl⟩ | ⟨hnone, _⟩
  · rw [hdoing.view] at hmem
    rw [hid row hmem hselects] at hwrite
    refine ⟨r, hwrite, ?_, ?_⟩
    · rintro rfl
      rfl
    · intro e he
      cases r with
      | ok _ => cases he
      | error e' =>
        cases he
        rfl
  · obtain ⟨row, hmem, hselects⟩ := hrow
    rw [hdoing.view] at hnone
    rw [hnone row hmem] at hselects
    cases hselects

/-- A write of the rest of the program that adds no entry that is taken. -/
theorem alone_edit {x : Write} {k : Unit → TriggerProg α}
    (hfresh : ∀ r ∈ x.adds, r ∉ (triggerStore.run writes db).entries)
    (h : Alone b i db since (writes ++ [x]) (k ()) Q) :
    Alone b i db since writes (sql (.edit x) >>= k) Q :=
  alone_write (x := fun _ => x) (fun _ _ _ _ _ hstep => write_of_unit hstep) (fun _ => hfresh)
    fun _ _ => h

theorem alone_commit {a : α} (h : Q (triggerStore.run writes db) (.ok a)) :
    Alone b i db since writes (commit a) Q := by
  refine ⟨fun w hdoing => ?_⟩
  rintro _ rfl
  refine ⟨trivial, fun answer w' hstep => ⟨trivial, ?_⟩⟩
  obtain ⟨holds, hs⟩ := hdoing.own
  obtain ⟨now, hnow, hstep | ⟨hfault, _⟩⟩ := hstep
  · replace hstep : CommitStep i now w answer w' := hstep
    unfold CommitStep at hstep
    rw [hs] at hstep
    obtain ⟨rfl, rfl⟩ := hstep
    rintro _ rfl
    refine ⟨?_, nofun⟩
    intro _ _
    refine ⟨triggerStore.run writes db, ⟨?_, ?_, ?_⟩, h⟩
    · show triggerStore.run writes w.tx.db = _
      rw [hdoing.db]
    · intro j
      by_cases hj : j = i
      · subst hj
        exact publish_closed j w now _
      · exact ((publish_others i w now _).sessions j hj).trans (hdoing.others j hj)
    · exact Int.le_trans hdoing.clock hnow
  · cases hfault

theorem alone_fail {e : DbError} (h : Q db (.error e)) : Alone b i db since writes (.fail e) Q := by
  refine ⟨fun w hdoing => ?_⟩
  rintro _ rfl
  exact ⟨nofun, fun _ _ => ⟨⟨writes, hdoing⟩, h⟩⟩

/-- Where nothing is locked the first row is picked. -/
theorem picks_head {β : Type} {free : β → Prop} {rows : List β} {pick : Option β}
    (hfree : ∀ row, free row) (h : Picks free rows pick) : rows.head? = pick := by
  cases pick with
  | none =>
    rw [List.head?_eq_none_iff, List.eq_nil_iff_forall_not_mem]
    exact fun row hrow => h row hrow (hfree row)
  | some row =>
    obtain ⟨skipped, rest, rfl, hskipped, _⟩ := h
    cases skipped with
    | nil => rfl
    | cons x _ => exact absurd (hfree x) (hskipped x List.mem_cons_self)

theorem alone_selectDueTrigger {type : TriggerType} {tenantMax : Int}
    {k : Option TriggerRow → TriggerProg α}
    (h : ∀ now pick, b.stamp since ≤ b.stamp now →
      (dueTriggers b now db type tenantMax).head? = pick → Alone b i db since [] (k pick) Q) :
    Alone b i db since [] (sql (.selectDueTrigger type tenantMax) >>= k) Q := by
  refine alone_sql fun w now answer w' hdoing hnow hstep => ?_
  obtain ⟨pick, rfl, hpick, hlock⟩ := hstep
  rw [hdoing.view] at hpick
  have hhead := picks_head (fun row r _ => free_of_others hdoing.others r) hpick
  refine ⟨?_, nofun⟩
  rintro _ ⟨⟩
  exact ⟨[], hdoing.lock hnow hlock, h _ _ (hdoing.stamp_le hnow) hhead⟩

theorem alone_selectDueEvent {tenantMax : Int} {k : Option (EventRow × TriggerRow) → TriggerProg α}
    (h : ∀ now pick, b.stamp since ≤ b.stamp now →
      (dueEvents b now db tenantMax).head? = pick → Alone b i db since [] (k pick) Q) :
    Alone b i db since [] (sql (.selectDueEvent tenantMax) >>= k) Q := by
  refine alone_sql fun w now answer w' hdoing hnow hstep => ?_
  obtain ⟨pick, rfl, hpick, hlock⟩ := hstep
  rw [hdoing.view] at hpick
  have hhead := picks_head (fun row r _ => free_of_others hdoing.others r) hpick
  refine ⟨?_, nofun⟩
  rintro _ ⟨⟩
  exact ⟨[], hdoing.lock hnow hlock, h _ _ (hdoing.stamp_le hnow) hhead⟩

theorem alone_selectEventForUpdate {tenantId triggerId eventId : String}
    {k : Option EventRow → TriggerProg α}
    (h : Alone b i db since [] (k ((db.event? triggerId eventId).filter (·.tenantId = tenantId)))
      Q) :
    Alone b i db since [] (sql (.selectEventForUpdate tenantId triggerId eventId) >>= k) Q := by
  refine alone_sql fun w now answer w' hdoing hnow hstep => ?_
  obtain ⟨found, rfl, rfl, hlock⟩ := hstep
  rw [hdoing.view] at hlock ⊢
  refine ⟨?_, nofun⟩
  rintro _ ⟨⟩
  exact ⟨[], hdoing.lock hnow hlock, h⟩

theorem alone_selectTriggerForUpdate {tenantId triggerId : String}
    {k : Option TriggerRow → TriggerProg α}
    (h : Alone b i db since [] (k ((db.trigger? triggerId).filter
      fun row => row.tenantId = tenantId && row.enabled && row.deadLetteredAt.isNone)) Q) :
    Alone b i db since [] (sql (.selectTriggerForUpdate tenantId triggerId) >>= k) Q := by
  refine alone_sql fun w now answer w' hdoing hnow hstep => ?_
  obtain ⟨found, rfl, rfl, hlock⟩ := hstep
  rw [hdoing.view] at hlock ⊢
  refine ⟨?_, nofun⟩
  rintro _ ⟨⟩
  exact ⟨[], hdoing.lock hnow hlock, h⟩

/-- A read that only takes its time. -/
theorem alone_read {query : Query} {a : query.Result} {k : query.Result → TriggerProg α}
    (hquery : ∀ w now answer w', Doing i db since writes w → QueryStep b i now w query answer w' →
      answer = .ok a ∧ w' = w.tick now)
    (h : Alone b i db since writes (k a) Q) : Alone b i db since writes (sql query >>= k) Q := by
  refine alone_sql fun w now answer w' hdoing hnow hstep => ?_
  obtain ⟨rfl, rfl⟩ := hquery w now answer w' hdoing hstep
  refine ⟨?_, nofun⟩
  rintro _ ⟨⟩
  exact ⟨writes, hdoing.tick hnow, h⟩

/-- A transaction reads its own writes. -/
theorem alone_selectTrigger {tenantId triggerId : String} {k : Option TriggerRow → TriggerProg α}
    (h : Alone b i db since writes
      (k (((triggerStore.run writes db).trigger? triggerId).filter (·.tenantId = tenantId))) Q) :
    Alone b i db since writes (sql (.selectTrigger tenantId triggerId) >>= k) Q :=
  alone_read (fun _ _ _ _ hdoing hstep => ⟨hstep.1.trans (by rw [hdoing.view]), hstep.2⟩) h

theorem alone_selectTriggerRun {triggerId dedupeKey : String}
    {k : Option TriggerRunRow → TriggerProg α}
    (h : Alone b i db since [] (k (db.triggerRun? triggerId dedupeKey)) Q) :
    Alone b i db since [] (sql (.selectTriggerRun triggerId dedupeKey) >>= k) Q :=
  alone_read (fun _ _ _ _ hdoing hstep => ⟨hstep.1.trans (by rw [hdoing.view]; rfl), hstep.2⟩) h

theorem alone_countTriggerInflight {triggerId : String} {k : Nat → TriggerProg α}
    (h : Alone b i db since [] (k (db.triggerInflight triggerId)) Q) :
    Alone b i db since [] (sql (.countTriggerInflight triggerId) >>= k) Q :=
  alone_read (fun _ _ _ _ hdoing hstep => ⟨hstep.1.trans (by rw [hdoing.view]; rfl), hstep.2⟩) h

theorem alone_countTenantInflight {tenantId : String} {k : Nat → TriggerProg α}
    (h : Alone b i db since [] (k (db.tenantInflight tenantId)) Q) :
    Alone b i db since [] (sql (.countTenantInflight tenantId) >>= k) Q :=
  alone_read (fun _ _ _ _ hdoing hstep => ⟨hstep.1.trans (by rw [hdoing.view]; rfl), hstep.2⟩) h

/-! ## Whole calls -/

/-- From rest the program ends at rest, as `Q` says of the tables after it. -/
structure AtRest (b : Backend) (i : Nat) (db : Db) (since : Int) (p : TriggerProg α)
    (Q : Db → Except DbError α → Prop) : Prop where
  run : ∀ w, Resting db since w → wp (session b false i) (.alone fun _ _ => True) p
    (fun w r => ∃ db', Resting db' since w ∧ Q db' r) w

theorem atRest_pure {a : α} (h : Q db (.ok a)) : AtRest b i db since (.pure a) Q := by
  refine ⟨fun w hrest => ?_⟩
  rintro _ rfl
  exact ⟨db, hrest, h⟩

theorem atRest_mono {p : TriggerProg α} {P : Db → Except DbError α → Prop}
    (hP : ∀ db' r, P db' r → Q db' r) (h : AtRest b i db since p P) : AtRest b i db since p Q := by
  refine ⟨fun w hrest => wp_mono ?_ (h.run w hrest)⟩
  intro s r hs
  obtain ⟨db', hrest', hr⟩ := hs
  exact ⟨db', hrest', hP db' r hr⟩

/-- What is known of the indexes before the call. -/
theorem atRest_keys {p : TriggerProg α} (h : db.entries.Nodup → AtRest b i db since p Q) :
    AtRest b i db since p Q :=
  ⟨fun w hrest => (h (hrest.db ▸ hrest.keys)).run w hrest⟩

theorem atRest_bind {β : Type} {p : TriggerProg β} {f : β → TriggerProg α}
    {P : Db → Except DbError β → Prop} (h : AtRest b i db since p P)
    (hok : ∀ db' a, P db' (.ok a) → AtRest b i db' since (f a) Q)
    (herror : ∀ db' e, P db' (.error e) → Q db' (.error e)) : AtRest b i db since (p >>= f) Q := by
  refine ⟨fun w hrest => wp_seq (h.run w hrest) ?_ ?_⟩
  · intro s a hs
    obtain ⟨db', hrest', ha⟩ := hs
    exact (hok db' a ha).run s hrest'
  · intro s e hs
    obtain ⟨db', hrest', he⟩ := hs
    exact ⟨db', hrest', herror db' e he⟩

theorem atRest_fail {e : DbError} (h : Q db (.error e)) : AtRest b i db since (.fail e) Q := by
  refine ⟨fun w hrest => ?_⟩
  rintro _ rfl
  exact ⟨db, hrest, h⟩

theorem atRest_nowUtc {k : Int → TriggerProg α}
    (h : ∀ now, since ≤ now → AtRest b i db since (k now) Q) :
    AtRest b i db since (nowUtc >>= k) Q := by
  refine ⟨fun w hrest => ?_⟩
  rintro _ rfl
  refine ⟨trivial, fun answer w' hstep => ⟨trivial, ?_⟩⟩
  obtain ⟨now, hnow, hanswer, rfl⟩ := hstep
  have hsince : since ≤ now := Int.le_trans hrest.clock hnow
  rw [hanswer]
  exact (h now hsince).run _ ⟨⟨hrest.db, hrest.closed, hsince⟩, hrest.keys⟩

/-- A lookup outside a transaction. -/
theorem atRest_selectTrigger {tenantId triggerId : String} {k : Option TriggerRow → TriggerProg α}
    (h : AtRest b i db since (k ((db.trigger? triggerId).filter (·.tenantId = tenantId))) Q) :
    AtRest b i db since (sql (.selectTrigger tenantId triggerId) >>= k) Q := by
  refine ⟨fun w hrest => ?_⟩
  rintro _ rfl
  refine ⟨trivial, fun answer w' hstep => ⟨trivial, ?_⟩⟩
  obtain ⟨now, hnow, hstep | ⟨hfault, _⟩⟩ := hstep
  · obtain ⟨rfl, rfl⟩ := hstep
    rw [hrest.view]
    exact h.run _ ⟨⟨hrest.db, hrest.closed, Int.le_trans hrest.clock hnow⟩, hrest.keys⟩
  · cases hfault

theorem Resting.txInv (h : Resting db since w) : TxInv triggerStore w.tx := by
  refine ⟨h.keys, ?_, ?_, ?_⟩
  · intro j _ tx _ _ hj
    rw [h.closed j] at hj
    cases hj
  · intro j tx hj
    rw [h.closed j] at hj
    cases hj
  · intro j tx hj
    rw [h.closed j] at hj
    cases hj

/-- The indexes are still in order at the end. -/
theorem atRest_of_idle {p : TriggerProg α}
    (h : ∀ w, Resting db since w → wp (session b false i) (.alone fun _ _ => True) p
      (fun w r => ∃ db', Idle db' since w ∧ Q db' r) w) : AtRest b i db since p Q := by
  refine ⟨fun w hrest => wp_mono ?_ (wp_invariant ?_ (fun _ _ _ _ => txInv_session) hrest.txInv
    (h w hrest))⟩
  · intro s r hs
    obtain ⟨⟨db', hidle, hQ⟩, hinv⟩ := hs
    exact ⟨db', ⟨hidle, hinv.entries⟩, hQ⟩
  · rintro s _ hinv rfl
    exact hinv

theorem atRest_inTransaction {body : TriggerProg α} (h : Alone b i db since [] body Q) :
    AtRest b i db since (inTransaction body) Q := by
  refine atRest_of_idle fun w hrest => ?_
  apply wp_sql
  rintro _ rfl
  refine ⟨trivial, fun answer w' hstep => ⟨trivial, ?_⟩⟩
  obtain ⟨now, hnow, hstep | ⟨hfault, _⟩⟩ := hstep
  · replace hstep : BeginStep i now w answer w' := hstep
    unfold BeginStep at hstep
    rw [hrest.closed i] at hstep
    obtain ⟨rfl, rfl⟩ := hstep
    refine ⟨fun _ _ => ?_, nofun⟩
    have hsince : since ≤ now := Int.le_trans hrest.clock hnow
    have hdoing : Doing i db since [] { (w.tick now).setTx i (some ⟨[], []⟩) with
        started := Function.update w.started i now } := by
      refine ⟨hrest.db, ⟨[], w.tx.setSession_same i _⟩, ?_, hsince, ?_⟩
      · intro j hne
        exact (w.tx.setSession_other _ hne).trans (hrest.closed j)
      · show since ≤ Function.update w.started i now i
        rw [Function.update_self]
        exact hsince
    have hattempt : wp (session b false i) (.alone fun _ _ => True) body.attempt
        (fun s r => ∃ x, r = .ok x ∧
          (∀ a, x = .ok a → ∃ db', Idle db' since s ∧ Q db' x) ∧
          (∀ e, x = .error e → (∃ writes', Doing i db since writes' s) ∧ Q db x)) _ :=
      wp_attempt (wp_mono (fun s r hr => ⟨r, rfl, hr⟩) (h.run _ hdoing))
    refine wp_seq hattempt ?_ (fun s e he => by obtain ⟨_, hx, _⟩ := he; cases hx)
    intro s r hr
    obtain ⟨_, hx, hok, herror⟩ := hr
    cases hx
    cases r with
    | ok a =>
      rintro _ rfl
      exact hok a rfl
    | error e =>
      obtain ⟨⟨writes', hdoing'⟩, hQ⟩ := herror e rfl
      rintro _ rfl
      refine ⟨trivial, fun _ s' hstep' => ⟨trivial, ?_⟩⟩
      obtain ⟨now', hnow', rfl⟩ := hstep'
      rintro _ rfl
      refine ⟨db, ⟨hdoing'.db, ?_, Int.le_trans hdoing'.clock hnow'⟩, hQ⟩
      intro j
      by_cases hj : j = i
      · subst hj
        exact s.tx.setSession_same j none
      · exact (s.tx.setSession_other none hj).trans (hdoing'.others j hj)
  · cases hfault

/-! ## Every call comes to an end -/

theorem exists_lock (hothers : ∀ j, j ≠ i → w.tx.sessions j = none) (now : Int)
    (rs : List Resource) : ∃ w', LockStep i now w rs w' := by
  unfold LockStep
  cases hs : w.tx.sessions i with
  | none => exact ⟨_, fun r _ => free_of_others hothers r, rfl⟩
  | some tx => exact ⟨_, fun r _ => free_of_others hothers r, rfl⟩

theorem exists_write (hothers : ∀ j, j ≠ i → w.tx.sessions j = none) (now : Int) (x : Write) :
    ∃ answer w', WriteStep b i now w x answer w' := by
  unfold WriteStep
  cases hs : w.tx.sessions i with
  | none => exact ⟨_, _, rfl, rfl⟩
  | some tx =>
    by_cases hnew : ∀ r ∈ x.adds, r ∉ (w.view i).entries
    · exact ⟨_, _, fun r _ => free_of_others hothers r, .inl ⟨rfl, hnew, rfl⟩⟩
    · simp only [not_forall, not_not] at hnew
      obtain ⟨r, hr, hmem⟩ := hnew
      exact ⟨_, _, fun r _ => free_of_others hothers r, .inr ⟨r, hr, hmem, rfl, rfl⟩⟩

theorem exists_writeIf (hothers : ∀ j, j ≠ i → w.tx.sessions j = none) (now : Int)
    (possible : Prop) (x : Write) : ∃ answer w', WriteIfStep b i now w possible x answer w' := by
  by_cases hp : possible
  · obtain ⟨answer, w', hstep⟩ := exists_write (b := b) hothers now x
    exact ⟨_, w', .inl ⟨hp, answer, hstep, rfl⟩⟩
  · exact ⟨_, _, .inr ⟨hp, rfl, rfl⟩⟩

theorem exists_pick {β : Type} {free : β → Prop} (hfree : ∀ row, free row) (rows : List β) :
    ∃ pick, Picks free rows pick := by
  cases rows with
  | nil => exact ⟨none, nofun⟩
  | cons row rest => exact ⟨some row, [], rest, rfl, nofun, hfree row⟩

theorem exists_query (hothers : ∀ j, j ≠ i → w.tx.sessions j = none) (now : Int) (query : Query) :
    ∃ answer w', QueryStep b i now w query answer w' := by
  cases query with
  | begin =>
    show ∃ answer w', BeginStep i now w answer w'
    unfold BeginStep
    cases w.tx.sessions i with
    | none => exact ⟨_, _, rfl, rfl⟩
    | some tx => exact ⟨_, _, rfl, rfl⟩
  | commit =>
    show ∃ answer w', CommitStep i now w answer w'
    unfold CommitStep
    cases w.tx.sessions i with
    | none => exact ⟨_, _, rfl, rfl⟩
    | some tx => exact ⟨_, _, rfl, rfl⟩
  | selectDueTrigger type tenantMax =>
    obtain ⟨pick, hpick⟩ := exists_pick (fun row r _ => free_of_others hothers r)
      (dueTriggers b (w.sqlNow i b now) (w.view i) type tenantMax)
    obtain ⟨w', hlock⟩ := exists_lock hothers now (pick.toList.flatMap (triggerLocks b))
    exact ⟨_, w', pick, rfl, hpick, hlock⟩
  | selectDueEvent tenantMax =>
    obtain ⟨pick, hpick⟩ := exists_pick (fun row r _ => free_of_others hothers r)
      (dueEvents b (w.sqlNow i b now) (w.view i) tenantMax)
    obtain ⟨w', hlock⟩ := exists_lock hothers now (pick.toList.flatMap (eventLocks b))
    exact ⟨_, w', pick, rfl, hpick, hlock⟩
  | selectTrigger tenantId triggerId => exact ⟨_, _, rfl, rfl⟩
  | selectTriggerForUpdate tenantId triggerId =>
    obtain ⟨w', hlock⟩ := exists_lock hothers now _
    exact ⟨_, w', _, rfl, rfl, hlock⟩
  | selectEvent triggerId eventId => exact ⟨_, _, rfl, rfl⟩
  | selectEventForUpdate tenantId triggerId eventId =>
    obtain ⟨w', hlock⟩ := exists_lock hothers now _
    exact ⟨_, w', _, rfl, rfl, hlock⟩
  | selectTriggerRun triggerId dedupeKey => exact ⟨_, _, rfl, rfl⟩
  | countTriggerInflight triggerId => exact ⟨_, _, rfl, rfl⟩
  | countTenantInflight tenantId => exact ⟨_, _, rfl, rfl⟩
  | insertRun row => exact exists_write hothers now _
  | insertTriggerRun row => exact exists_write hothers now _
  | insertEvent row => exact exists_writeIf hothers now _ _
  | updateTrigger triggerId change => exact exists_write hothers now _
  | reserveTrigger triggerId scheduledFor change => exact exists_writeIf hothers now _ _
  | updateEvent eventRowId change => exact exists_write hothers now _
  | reserveEvent selects change =>
    by_cases hrow : ∃ row ∈ (w.view i).events, selects row = true
    · obtain ⟨row, hmem, hselects⟩ := hrow
      obtain ⟨answer, w', hstep⟩ := exists_write (b := b) hothers now
        (.changeEvent row.id (w.sqlNow i b now) change)
      exact ⟨_, w', .inl ⟨row, hmem, hselects, answer, hstep, rfl⟩⟩
    · refine ⟨.ok false, _, .inr ⟨?_, rfl, rfl⟩⟩
      intro row hmem
      exact Bool.eq_false_iff.mpr fun hselects => hrow ⟨row, hmem, hselects⟩
  | edit x => exact exists_write hothers now _

/-- There is always another identifier. -/
theorem exists_newUuid (entries : List Resource) :
    ∃ id, .eventKey id ∉ entries ∧ .runKey id ∉ entries ∧ .triggerRunKey id ∉ entries := by
  have hfinite : ∀ f : String → Resource, Function.Injective f →
      (Set.preimage f { r | r ∈ entries }).Finite :=
    fun f hf => (List.finite_toSet entries).preimage hf.injOn
  have hunion := ((hfinite .eventKey fun _ _ h => by cases h; rfl).union
    (hfinite .runKey fun _ _ h => by cases h; rfl)).union
      (hfinite .triggerRunKey fun _ _ h => by cases h; rfl)
  obtain ⟨id, hid⟩ := hunion.infinite_compl.nonempty
  simp only [Set.mem_compl_iff, Set.mem_union, Set.mem_preimage, Set.mem_ofPred_eq, not_or] at hid
  exact ⟨id, hid.1.1, hid.1.2, hid.2⟩

/-- While the others are at rest every program comes to an end, at once if time allows. -/
theorem exists_finish_now (hothers : ∀ j, j ≠ i → w.tx.sessions j = none) (p : TriggerProg α) :
    ∃ w' r, Finishes (session b false i) w p w' r ∧ w'.clock = w.clock := by
  induction p generalizing w with
  | pure a => exact ⟨w, _, .pure w a, rfl⟩
  | fail e => exact ⟨w, _, .fail w e, rfl⟩
  | call stmt k ih =>
    have hanswer : ∃ answer w', stmtStep b i w.clock w false stmt answer w' := by
      cases stmt with
      | nowUtc => exact ⟨_, _, rfl, rfl⟩
      | newUuid =>
        obtain ⟨id, hid⟩ := exists_newUuid (w.view i).entries
        exact ⟨id, _, hid, rfl⟩
      | rollback => exact ⟨(), _, rfl⟩
      | sql query =>
        obtain ⟨answer, w', hstep⟩ := exists_query (b := b) hothers w.clock query
        exact ⟨answer, w', .inl hstep⟩
    obtain ⟨answer, w', hstep⟩ := hanswer
    have hothers' : ∀ j, j ≠ i → w'.tx.sessions j = none :=
      fun j hne => ((othersKept_stmt hstep).sessions j hne).trans (hothers j hne)
    obtain ⟨w'', r, hfinish, hclock⟩ := ih answer hothers'
    exact ⟨w'', r, .call answer ⟨w.clock, Int.le_refl _, hstep⟩ hfinish,
      hclock.trans (clock_stmt hstep)⟩

theorem exists_finish (hothers : ∀ j, j ≠ i → w.tx.sessions j = none) (p : TriggerProg α) :
    ∃ w' r, Finishes (session b false i) w p w' r := by
  obtain ⟨w', r, hfinish, _⟩ := exists_finish_now (b := b) hothers p
  exact ⟨w', r, hfinish⟩

end Rules

end Trigger
end SecureAgnt

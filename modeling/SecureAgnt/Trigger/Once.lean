/-
Any number of sessions at once.

Whatever the sessions' calls are and however their statements interleave, with
connections lost at any point, the ledger has one row for a trigger and what it fired
for, and every change of the tables is one that `Published` lists.
-/
import SecureAgnt.Trigger.Calls
import SecureAgnt.Trigger.Instant
import SecureAgnt.Trigger.Stage

namespace SecureAgnt
namespace Trigger

open Storage
open Handler

/-- The tables at rest. -/
def TriggerWorld.start (clock : Int) (db : Db) : TriggerWorld where
  clock := clock
  started := fun _ => clock
  tx := ⟨db, fun _ => none⟩

/-- All sessions of a database. -/
def sessions (b : Backend) (faults : Bool) :
    Handler (Nat × Stmt) (fun o => o.2.Ans) TriggerWorld :=
  Handler.tagged (session b faults)

/-- All sessions, in the runs whose states meet `cond`. -/
def sessionsIn (b : Backend) (faults : Bool) (cond : TriggerWorld → Prop) :
    Handler (Nat × Stmt) (fun o => o.2.Ans) TriggerWorld :=
  Handler.tagged (sessionIn b faults cond)

theorem sessions_le {b : Backend} {faults : Bool} (w : TriggerWorld) (op : Nat × Stmt)
    (r : op.2.Ans) (w' : TriggerWorld) (h : (sessions b faults).step w op r w') :
    (sessionsIn b faults fun _ => True).step w op r w' :=
  ⟨trivial, h⟩

/-- One call in every session. -/
def callPool (rt : TriggerRuntime) (b : Backend) (calls : Nat → TriggerCall) (i : Nat) :
    Prog (Nat × Stmt) (fun o => o.2.Ans) DbError TriggerOutcome :=
  ((calls i).program rt b).tag i

/-- Some call fires the trigger by hand with the key. -/
def FiredBy (b : Backend) (calls : Nat → TriggerCall) (triggerId idempotencyKey : String) : Prop :=
  ∃ i, (calls i).Fires b triggerId idempotencyKey

section Pool

variable {rt : TriggerRuntime} {b : Backend} {faults : Bool} {cond : TriggerWorld → Prop}
  {seen : String → Int → Prop} {calls : Nat → TriggerCall} {db : Db} {clock : Int}

theorem grows_published {fires : String → String → Prop} {edits : Write → Prop} {db' : Db}
    (h : Published b seen fires edits db db') : Grows db db' := by
  cases h with
  | slot run row now nextFireAt =>
    exact grows_run [.insertRun run, .insertTriggerRun row, .changeTrigger row.triggerId now _] db
  | slotSkipped row now change =>
    exact grows_run [.insertTriggerRun row, .changeTrigger row.triggerId now change] db
  | event run row now now' =>
    exact grows_run [.insertRun run, .insertTriggerRun row, .changeEvent _ now _,
      .changeTrigger row.triggerId now' _] db
  | eventFailed row now deadLetter eventError =>
    exact grows_run [.insertTriggerRun row, .changeEvent _ now _] db
  | manual run row now =>
    exact grows_run [.insertRun run, .insertTriggerRun row, .changeTrigger row.triggerId now _] db
  | enqueued row => exact grows_apply (.insertEvent row) db
  | requeued rowId now => exact grows_changeEvent db rowId now .requeue
  | edited hedits hedit => exact grows_apply _ db

/-- The contract of the session with the number. -/
def callContract (b : Backend) (seen : String → Int → Prop) (calls : Nat → TriggerCall) (i : Nat) :
    Contract TriggerWorld (Nat × Stmt) :=
  (sessionContract (Published b seen (FiredBy b calls) (calls i).Edits) i).tagged Nat

theorem callContract_compat (i j : Nat) (hne : i ≠ j) (w w' : TriggerWorld)
    (h : (callContract b seen calls i).guarantee w w') :
    (callContract b seen calls j).rely w w' := by
  obtain ⟨hothers, hdb⟩ := h
  refine ⟨hothers.sessions j hne.symm, ?_⟩
  rcases hdb with hdb | hdb
  · rw [hdb]
    exact .refl _
  · exact grows_published hdb

theorem callPool_wp (hseen : ∀ w, cond w → ∀ row ∈ w.tx.db.triggers, row.triggerType ≠ .webhook →
      seen row.id row.nextFireAt) (i : Nat) :
    wp (sessionsIn b faults cond) (callContract b seen calls i) (callPool rt b calls i)
      (fun w r => w.tx.sessions i = none ∧
        ∀ a, r = .ok a → ((calls i).answerFact b a).holds w.tx.db) (.start clock db) := by
  refine wp_tag ?_
  have hkeeps : Keeps b faults cond (Published b seen (FiredBy b calls) (calls i).Edits) i
      .trivial ((calls i).program rt b) ((calls i).answerFact b) :=
    keeps_call hseen fun _ _ h => ⟨i, h⟩
  exact hkeeps.run _ rfl True.intro

/-! ## The ledger -/

/-- Why the ledger has a row. -/
inductive Entered (seen : String → Int → Prop) (fires : String → String → Prop) (db : Db)
    (row : TriggerRunRow) : Prop
  | slot {type : TriggerType} {scheduledFor : Int} (hsource : row.source = .slot scheduledFor)
      (htype : type ≠ .webhook) (htrigger : db.HasTrigger row.triggerId type)
      (hseen : seen row.triggerId scheduledFor)
  | event {rowId eventId : String} (hsource : row.source = .event eventId)
      (htrigger : db.HasTrigger row.triggerId .webhook)
      (hevent : db.HasEvent rowId row.triggerId eventId)
  | manual {idempotencyKey : String} (hsource : row.source = .manual idempotencyKey)
      (hfires : fires row.triggerId idempotencyKey)

/-- A commit enters at most one row, under the key of what it was written for. -/
theorem published_ledger {fires : String → String → Prop} {edits : Write → Prop} {db' : Db}
    (h : Published b seen fires edits db db') :
    db'.ledger = db.ledger ∨ ∃ row, db'.ledger = db.ledger ++ [row] ∧
      row.dedupeKey = row.source.dedupeKey b ∧ Entered seen fires db row := by
  cases h with
  | slot run row now nextFireAt htype htrigger hseen hrow =>
    exact .inr ⟨row, rfl, hrow.source ▸ hrow.dedupeKey, .slot hrow.source htype htrigger hseen⟩
  | slotSkipped row now change htype htrigger hseen hrow =>
    exact .inr ⟨row, rfl, hrow.source ▸ hrow.dedupeKey, .slot hrow.source htype htrigger hseen⟩
  | event run row now now' htrigger hevent hrow =>
    exact .inr ⟨row, rfl, hrow.source ▸ hrow.dedupeKey, .event hrow.source htrigger hevent⟩
  | eventFailed row now deadLetter eventError htrigger hevent hrow =>
    exact .inr ⟨row, rfl, hrow.source ▸ hrow.dedupeKey, .event hrow.source htrigger hevent⟩
  | manual run row now hfires hrow =>
    exact .inr ⟨row, rfl, hrow.source ▸ hrow.dedupeKey, .manual hrow.source hfires⟩
  | enqueued row htrigger hpending => exact .inl rfl
  | requeued rowId now => exact .inl rfl
  | edited hedits hedit => cases hedit <;> exact .inl rfl

/-- Every row stands under the key of what it was written for. -/
def Db.LedgerKeyed (b : Backend) (db : Db) : Prop :=
  ∀ row ∈ db.ledger, row.dedupeKey = row.source.dedupeKey b

theorem ledgerKeyed_published {fires : String → String → Prop} {edits : Write → Prop} {db' : Db}
    (hkeyed : db.LedgerKeyed b) (h : Published b seen fires edits db db') :
    db'.LedgerKeyed b := by
  intro row hrow
  rcases published_ledger h with hsame | ⟨new, hledger, hkey, _⟩
  · exact hkeyed row (hsame ▸ hrow)
  · rw [hledger] at hrow
    rcases List.mem_append.mp hrow with hrow | hrow
    · exact hkeyed row hrow
    · rw [List.mem_singleton.mp hrow]
      exact hkey

/-- No trigger is entered twice for the same thing. -/
theorem nodup_sources (hkeys : db.entries.Nodup) (hkeyed : db.LedgerKeyed b) :
    (db.ledger.map fun row => (row.triggerId, row.source)).Nodup := by
  have hnodup := nodup_dedupeKeys hkeys
  refine List.Nodup.of_map (fun key => (key.1, key.2.dedupeKey b)) ?_
  rw [List.map_map]
  have hsame : db.ledger.map ((fun key => (key.1, Source.dedupeKey b key.2)) ∘
      fun row => (row.triggerId, row.source)) =
        db.ledger.map fun row => (row.triggerId, row.dedupeKey) := by
    apply List.map_congr_left
    intro row hrow
    show (row.triggerId, row.source.dedupeKey b) = (row.triggerId, row.dedupeKey)
    rw [hkeyed row hrow]
  rw [hsame]
  exact hnodup

/-- The rest of the program adds a run with the id. -/
def CreatedBy (calls : Nat → TriggerCall) (runId : String) : Prop :=
  ∃ i row, calls i = .edit (.createRun row) ∧ row.id = runId

/-- A run was there before, was added by the rest of the program, or has its row of the ledger. -/
def Db.RunsEntered (before : Db) (calls : Nat → TriggerCall) (db : Db) : Prop :=
  ∀ run ∈ db.runs, (∃ old ∈ before.runs, old.id = run.id) ∨ CreatedBy calls run.id ∨
    ∃ row ∈ db.ledger, row.runId = some run.id

theorem runsEntered_start : db.RunsEntered calls db := fun run hrun => .inl ⟨run, hrun, rfl⟩

section Entered

variable {before db' : Db}

theorem Db.RunsEntered.keep (h : before.RunsEntered calls db) (hgrows : Grows db db')
    (hruns : ∀ run ∈ db'.runs, ∃ old ∈ db.runs, old.id = run.id) :
    before.RunsEntered calls db' := by
  intro run hrun
  obtain ⟨old, hold, hid⟩ := hruns run hrun
  rw [← hid]
  rcases h old hold with hbefore | hcreated | ⟨row, hrow, hrunId⟩
  · exact .inl hbefore
  · exact .inr (.inl hcreated)
  · exact .inr (.inr ⟨row, hgrows.ledger row hrow, hrunId⟩)

theorem Db.RunsEntered.add {run : RunRecord} (h : before.RunsEntered calls db)
    (hgrows : Grows db db') (hruns : db'.runs = db.runs ++ [run])
    (hrun : CreatedBy calls run.id ∨ ∃ row ∈ db'.ledger, row.runId = some run.id) :
    before.RunsEntered calls db' := by
  intro other hother
  rw [hruns] at hother
  rcases List.mem_append.mp hother with hold | hnew
  · rcases h other hold with hbefore | hcreated | ⟨row, hrow, hrunId⟩
    · exact .inl hbefore
    · exact .inr (.inl hcreated)
    · exact .inr (.inr ⟨row, hgrows.ledger row hrow, hrunId⟩)
  · rw [List.mem_singleton.mp hnew]
    exact .inr hrun

theorem runsEntered_published {fires : String → String → Prop} {i : Nat}
    (h : before.RunsEntered calls db)
    (hpublished : Published b seen fires (calls i).Edits db db') :
    before.RunsEntered calls db' := by
  have hgrows := grows_published hpublished
  cases hpublished with
  | slot run row now nextFireAt htype htrigger hseen hrow =>
    exact h.add hgrows rfl (.inr ⟨row, List.mem_append_right _ (List.mem_singleton_self _),
      hrow.runId⟩)
  | event run row now now' htrigger hevent hrow =>
    exact h.add hgrows rfl (.inr ⟨row, List.mem_append_right _ (List.mem_singleton_self _),
      hrow.runId⟩)
  | manual run row now hfires hrow =>
    exact h.add hgrows rfl (.inr ⟨row, List.mem_append_right _ (List.mem_singleton_self _),
      hrow.runId⟩)
  | slotSkipped row now change => exact h.keep hgrows fun run hrun => ⟨run, hrun, rfl⟩
  | eventFailed row now deadLetter eventError =>
    exact h.keep hgrows fun run hrun => ⟨run, hrun, rfl⟩
  | enqueued row => exact h.keep hgrows fun run hrun => ⟨run, hrun, rfl⟩
  | requeued rowId now => exact h.keep hgrows fun run hrun => ⟨run, hrun, rfl⟩
  | edited hedits hedit =>
    obtain ⟨change, hcall, rfl⟩ := hedits
    cases change with
    | createTrigger row => exact h.keep hgrows fun run hrun => ⟨run, hrun, rfl⟩
    | editTrigger id edit => exact h.keep hgrows fun run hrun => ⟨run, hrun, rfl⟩
    | createRun row => exact h.add hgrows rfl (.inl ⟨i, row, hcall, rfl⟩)
    | editRun id edit =>
      refine h.keep hgrows fun run hrun => ?_
      obtain ⟨old, hold, rfl⟩ := List.mem_map.mp hrun
      refine ⟨old, hold, ?_⟩
      split
      · exact (edit.keeps_id old).symm
      · rfl

end Entered

/-- What every commit keeps, in the states that meet `cond`, holds along every run. -/
theorem invariant_of_callPool {I : Db → Prop} {w : TriggerWorld}
    {ps : Nat → Prog (Nat × Stmt) (fun o => o.2.Ans) DbError TriggerOutcome}
    (hseen : ∀ w, cond w → ∀ row ∈ w.tx.db.triggers, row.triggerType ≠ .webhook →
      seen row.id row.nextFireAt)
    (hkeep : ∀ w db' i, cond w → w.tx.db.entries.Nodup → I w.tx.db →
      Published b seen (FiredBy b calls) (calls i).Edits w.tx.db db' → I db')
    (hkeys : db.entries.Nodup) (hI : I db)
    (hreach : PoolReaches (sessionsIn b faults cond) (.start clock db, callPool rt b calls)
      (w, ps)) : TxInv triggerStore w.tx ∧ I w.tx.db := by
  refine invariant_of_pool (I := fun w => TxInv triggerStore w.tx ∧ I w.tx.db) callContract_compat
    ?_ (callPool_wp hseen) ⟨.start hkeys, hI⟩ hreach
  intro i s op r s' hs _ hstep hguar
  refine ⟨txInv_session hs.1 hstep.2, ?_⟩
  rcases hguar.2 with hsame | hpublished
  · rw [hsame]
    exact hs.2
  · exact hkeep s s'.tx.db i hstep.1 hs.1.entries hs.2 hpublished

theorem invariant_of_sessions {I : Db → Prop} {w : TriggerWorld}
    {ps : Nat → Prog (Nat × Stmt) (fun o => o.2.Ans) DbError TriggerOutcome}
    (hkeep : ∀ db db' i, db.entries.Nodup → I db →
      Published b (fun _ _ => True) (FiredBy b calls) (calls i).Edits db db' → I db')
    (hkeys : db.entries.Nodup) (hI : I db)
    (hreach : PoolReaches (sessions b faults) (.start clock db, callPool rt b calls) (w, ps)) :
    TxInv triggerStore w.tx ∧ I w.tx.db := by
  refine invariant_of_callPool ?_ (fun w db' i _ => hkeep w.tx.db db' i) hkeys hI
    (hreach.mono sessions_le)
  exact fun _ _ _ _ _ => trivial

end Pool

/-! ## Every interleaving -/

/-- Whatever the calls are, however they interleave and wherever they are cut off: a
trigger is entered at most once for a slot, an event or a key of a manual fire; a run that
the calls have created, other than for the rest of the program, has its row of the ledger; and
each change that a session makes to the tables is published as a whole. -/
theorem triggers_fire_once (rt : TriggerRuntime) (b : Backend) (faults : Bool)
    (calls : Nat → TriggerCall) {clock : Int} {db : Db} {w : TriggerWorld}
    {ps : Nat → Prog (Nat × Stmt) (fun o => o.2.Ans) DbError TriggerOutcome}
    (hkeys : db.entries.Nodup) (hkeyed : db.LedgerKeyed b)
    (hreach : PoolReaches (sessions b faults) (.start clock db, callPool rt b calls) (w, ps)) :
    (w.tx.db.ledger.map fun row => (row.triggerId, row.source)).Nodup ∧
    db.RunsEntered calls w.tx.db ∧
    ∀ i w' p', Step (sessions b faults) (w, ps i) (w', p') →
      w'.tx.db = w.tx.db ∨
        Published b (fun _ _ => True) (FiredBy b calls) (calls i).Edits w.tx.db w'.tx.db := by
  refine ⟨?_, ?_, ?_⟩
  · have hinv := invariant_of_sessions (I := Db.LedgerKeyed b)
      (fun _ _ _ _ hs hpublished => ledgerKeyed_published hs hpublished) hkeys hkeyed hreach
    exact nodup_sources hinv.1.entries hinv.2
  · exact (invariant_of_sessions (I := db.RunsEntered calls)
      (fun _ _ _ _ hs hpublished => runsEntered_published hs hpublished) hkeys runsEntered_start
      hreach).2
  · intro i w' p' hstep
    have hwp : ∀ i, wp (sessionsIn b faults fun _ => True)
        (callContract b (fun _ _ => True) calls i) (callPool rt b calls i) _ (.start clock db) :=
      callPool_wp fun _ _ _ _ _ => trivial
    have hone : Step (sessionsIn b faults fun _ => True) (w, ps i) (w', p') :=
      hstep.mono sessions_le
    exact (wp_of_step (wp_of_pool callContract_compat hwp (hreach.mono sessions_le) i) hone).1.2

/-- While the others are at rest, a session can make its call. -/
theorem exists_poolCall {rt : TriggerRuntime} {b : Backend} {calls : Nat → TriggerCall}
    {w : TriggerWorld} {ps : Nat → Prog (Nat × Stmt) (fun o => o.2.Ans) DbError TriggerOutcome}
    {start : TriggerWorld × (Nat → Prog (Nat × Stmt) (fun o => o.2.Ans) DbError TriggerOutcome)}
    (hreach : PoolReaches (sessions b false) start (w, ps))
    (hclosed : ∀ j, w.tx.sessions j = none) (i : Nat) (hcall : ps i = callPool rt b calls i) :
    ∃ w' out, Finishes (session b false i) w ((calls i).program rt b) w' out ∧
      PoolReaches (sessions b false) start (w', Function.update ps i (Prog.ofExcept out)) := by
  obtain ⟨w', out, hfinish⟩ : ∃ w' out, Finishes (session b false i) w
      ((calls i).program rt b) w' out := exists_finish (fun j _ => hclosed j) _
  have hstart : PoolReaches (sessions b false) start
      (w, Function.update ps i (((calls i).program rt b).tag i)) := hreach.focus hcall
  exact ⟨w', out, hfinish, hstart.then_finish hfinish⟩

/-! ## Calls at an instant -/

/-- Every session is at rest, and its statements are executed at the instant. -/
structure AtInstant (now : Int) (db : Db) (w : TriggerWorld) : Prop where
  db : w.tx.db = db
  closed : ∀ j, w.tx.sessions j = none
  clock : w.clock = now
  started : ∀ j, w.started j = now

theorem atInstant_start (now : Int) (db : Db) : AtInstant now db (.start now db) :=
  ⟨rfl, fun _ => rfl, rfl, fun _ => rfl⟩

/-- A session makes the call that is computed; `cond` holds of the tables at each statement. -/
theorem AtInstant.finishes {b : Backend} {now : Int} {db : Db} {w : TriggerWorld} {α : Type}
    {cond : Db → Prop} (h : AtInstant now db w) (ids : IdSource) (i : Nat) (p : TriggerProg α)
    (hcond : p.Along (fun m _ => cond m.db) (answer b now ids) ⟨db, none⟩)
    (hdone : (p.exec (answer b now ids) ⟨db, none⟩).2.tx = none) :
    ∃ w', Finishes (sessionIn b false (fun w => cond w.tx.db) i) w p w'
        (p.exec (answer b now ids) ⟨db, none⟩).1 ∧
      AtInstant now (p.exec (answer b now ids) ⟨db, none⟩).2.db w' := by
  have hstands : Moment.StandsFor i now ⟨db, none⟩ w := by
    refine ⟨h.db, ?_, fun j _ => h.closed j, h.clock, h.started i⟩
    rw [h.closed i]
    rfl
  obtain ⟨w', hfinish, hstands', hstarted⟩ := Prog.finishes_exec
    (H := sessionIn b false (fun w => cond w.tx.db) i)
    (fun m w => m.StandsFor i now w ∧ ∀ j, w.started j = now)
    (fun m w stmt hm hw => by
      obtain ⟨w', hstep, hw'⟩ := standsFor_answer ids hw.1 stmt
      have hmet : cond w.tx.db := hw.1.db.symm ▸ hm
      refine ⟨w', ⟨hmet, hstep⟩, hw', fun j => ?_⟩
      obtain ⟨_, _, hstmt⟩ := hstep
      by_cases hj : j = i
      · rw [hj]
        exact hw'.started
      · rw [(othersKept_stmt hstmt).started j hj]
        exact hw.2 j) hcond ⟨hstands, h.started⟩
  refine ⟨w', hfinish, hstands'.db, fun j => ?_, hstands'.clock, hstarted⟩
  by_cases hj : j = i
  · have hown := hstands'.own
    rw [hdone] at hown
    rw [hj]
    exact Option.map_eq_none_iff.mp hown
  · exact hstands'.others j hj

/-- The computed call as a part of a run. -/
theorem AtInstant.poolCall {rt : TriggerRuntime} {b : Backend} {calls : Nat → TriggerCall}
    {now : Int} {db : Db} {w : TriggerWorld} {cond : Db → Prop}
    {ps : Nat → Prog (Nat × Stmt) (fun o => o.2.Ans) DbError TriggerOutcome}
    {start : TriggerWorld × (Nat → Prog (Nat × Stmt) (fun o => o.2.Ans) DbError TriggerOutcome)}
    (h : AtInstant now db w) (ids : IdSource) (i : Nat) (hcall : ps i = callPool rt b calls i)
    (hcond : ((calls i).program rt b).Along (fun m _ => cond m.db) (answer b now ids) ⟨db, none⟩)
    (hdone : (((calls i).program rt b).exec (answer b now ids) ⟨db, none⟩).2.tx = none)
    (hreach : PoolReaches (sessionsIn b false fun w => cond w.tx.db) start (w, ps)) :
    ∃ w', AtInstant now (((calls i).program rt b).exec (answer b now ids) ⟨db, none⟩).2.db w' ∧
      PoolReaches (sessionsIn b false fun w => cond w.tx.db) start (w', Function.update ps i
        (Prog.ofExcept (((calls i).program rt b).exec (answer b now ids) ⟨db, none⟩).1)) := by
  obtain ⟨w', hfinish, hw'⟩ := h.finishes ids i ((calls i).program rt b) hcond hdone
  exact ⟨w', hw', (hreach.focus hcall).then_finish hfinish⟩

/-! ## The dispatcher in a pool -/

/-- What a call of the dispatcher answers is what the dispatcher answered. -/
theorem finishes_dispatch {rt : TriggerRuntime} {b : Backend} {i : Nat} {tenantMax : Int}
    {w w' : TriggerWorld} {out : Except DbError TriggerOutcome}
    (h : Finishes (session b false i) w ((TriggerCall.dispatch tenantMax).program rt b) w' out) :
    ∃ out', Dispatches rt b i tenantMax w w' out' := by
  rcases Finishes.of_bind h with ⟨e, hfail, _⟩ | ⟨w₁, dispatched, hdispatch, hpure⟩
  · exact ⟨_, hfail⟩
  · cases hpure with
    | pure _ _ => exact ⟨_, hdispatch⟩

/-- A session can dispatch while the others have not begun. -/
theorem exists_poolDispatch (rt : TriggerRuntime) (b : Backend) (tenantMax clock : Int) (db : Db) :
    ∃ w ps out, PoolReaches (sessions b false)
        (.start clock db, callPool rt b fun _ => .dispatch tenantMax) (w, ps) ∧
      Dispatches rt b 0 tenantMax (.start clock db) w out := by
  have hstart : PoolReaches (sessions b false)
      (.start clock db, callPool rt b fun _ => .dispatch tenantMax) _ := .refl
  obtain ⟨w, out, hfinish, hreach⟩ := exists_poolCall hstart (fun _ => rfl) 0 rfl
  obtain ⟨out', hdispatch⟩ := finishes_dispatch hfinish
  exact ⟨w, _, out', hreach, hdispatch⟩

/-! ## A webhook and its event -/

def hookTrigger (maxAttempts : { n : Int // 0 < n }) : TriggerRow where
  id := "hook"
  tenantId := "acme"
  agentId := "agent"
  triggeredByUserId := none
  recipeId := "recipe"
  enabled := true
  schedule := .webhook
  scheduleTimezone := "UTC"
  misfirePolicy := .fireNow
  maxAttempts := maxAttempts.val
  maxAttempts_pos := maxAttempts.property
  maxInflightRuns := 1
  maxInflightRuns_pos := by decide
  jitterSeconds := 0
  inputJson := .obj []
  requestedCapabilities := .arr []
  grantedCapabilities := .arr []
  nextFireAt := 0
  createdAt := 0

def hookEvent (eventId : String) (payload : Json) : EventRow where
  id := "row"
  triggerId := "hook"
  tenantId := "acme"
  eventId := eventId
  semanticDedupeKey := none
  payloadJson := payload
  nextAttemptAt := 0
  createdAt := 0

def hookDb (maxAttempts : { n : Int // 0 < n }) (event : EventRow) : Db :=
  ⟨[hookTrigger maxAttempts], [event], [], []⟩

/-- The lengths of an empty object and of an object with one plain text field. -/
def plainLen : Json → Nat
  | .obj [(key, .str text)] => 7 + Text.len key + Text.len text
  | _ => 2

def plainRuntime : TriggerRuntime where
  jitterHash := fun _ _ => 0
  nextCronFireAt := fun _ _ _ => .error "cron schedule has no next fire time"
  serializedLen := plainLen
  sha256Hex := fun _ => ""

theorem hookDb_keys (maxAttempts : { n : Int // 0 < n }) (eventId : String) (payload : Json) :
    (hookDb maxAttempts (hookEvent eventId payload)).entries.Nodup := by
  simp [hookDb, Db.entries, EventRow.entries, hookEvent]

theorem hookDb_first (b : Backend) (maxAttempts : { n : Int // 0 < n }) (eventId : String)
    (payload : Json) : FirstInLine b 1 0 (hookDb maxAttempts (hookEvent eventId payload))
      (hookEvent eventId payload) (hookTrigger maxAttempts) := by
  intro now htime
  have hdue : isDueEvent b now (hookDb maxAttempts (hookEvent eventId payload)) (max 1 1)
      (hookEvent eventId payload, hookTrigger maxAttempts) = true := by
    simp [isDueEvent, Db.mayFire, Db.triggerInflight, Db.tenantInflight, TriggerRow.triggerType,
      Schedule.triggerType, hookDb, hookEvent, hookTrigger, htime]
  have honly := dueEvents_only (hookDb_keys maxAttempts eventId payload) List.mem_cons_self
    (Table.find_cons.trans (if_pos rfl)) hdue ?_
  · rw [honly]
    rfl
  · intro row hrow hne
    rw [List.mem_singleton.mp hrow] at hne
    exact absurd rfl hne

/-- A session that dispatches the event of a webhook enters it once. -/
theorem event_entered_once : ∃ w ps,
    PoolReaches (sessions .postgres false)
      (.start 0 (hookDb ⟨3, by decide⟩ (hookEvent "delivery" (.obj []))),
        callPool plainRuntime .postgres fun _ => .dispatch 1) (w, ps) ∧
    (∃ row run, w.tx.db.ledger = [row] ∧ row.source = .event "delivery" ∧
      w.tx.db.runs = [run] ∧ row.runId = some run.id) ∧
    (w.tx.db.ledger.map fun row => (row.triggerId, row.source)).Nodup ∧
    (hookDb ⟨3, by decide⟩ (hookEvent "delivery" (.obj []))).RunsEntered (fun _ => .dispatch 1)
      w.tx.db := by
  let db := hookDb ⟨3, by decide⟩ (hookEvent "delivery" (.obj []))
  have hkeys : db.entries.Nodup := hookDb_keys _ _ _
  have hrest : Resting db 0 (.start 0 db) := ⟨⟨rfl, fun _ => rfl, Int.le_refl 0⟩, hkeys⟩
  obtain ⟨w, ps, out, hreach, hdispatch⟩ := exists_poolDispatch plainRuntime .postgres 1 0 db
  have honce := triggers_fire_once plainRuntime .postgres false (fun _ => .dispatch 1) hkeys nofun
    hreach
  refine ⟨w, ps, hreach, ?_, honce.1, honce.2.1⟩
  have hfirst := hookDb_first .postgres ⟨3, by decide⟩ "delivery" (.obj [])
  obtain ⟨db₁, w₁, r, hstage, hrest₁, hend⟩ := dispatches_cases hrest hdispatch
  rcases eventStage_first hfirst hstage with ⟨⟨_, hmem, _⟩, _⟩ | ⟨_, hlarge, _⟩ |
    ⟨_, _, run, row, _, _, _, _, hrow, rfl, rfl⟩
  · cases hmem
  · cases hlarge
  · rcases hend with ⟨_, rfl, _⟩ | ⟨hnone, _⟩
    · rw [hrest₁.db]
      exact ⟨row, run, rfl, hrow.source, rfl, hrow.runId⟩
    · cases hnone

end Trigger
end SecureAgnt

/-
The calls that sessions make, and what each of them publishes.

A call takes its sessions' transactions through the rules of `Settles`: in every
branch of every function the writes that wait at the commit are a change that
`Published` lists.
-/
import SecureAgnt.Trigger.Publish

namespace SecureAgnt
namespace Trigger

open Storage
open Handler
open Runs (TriggerDispatchRecord)

/-- What the rest of the program does to triggers and runs. -/
inductive Edit where
  | createTrigger (row : TriggerRow)
  | editTrigger (id : String) (edit : TriggerEdit)
  | createRun (row : RunRecord)
  | editRun (id : String) (edit : RunEdit)

def Edit.write : Edit → Write
  | .createTrigger row => .insertTrigger row
  | .editTrigger id edit => .editTrigger id edit
  | .createRun row => .insertRun row
  | .editRun id edit => .editRun id edit

theorem Edit.write_isEdit (edit : Edit) : edit.write.IsEdit := by
  cases edit <;> constructor

inductive TriggerCall where
  | dispatch (tenantMaxInflightRuns : Int)
  | dispatchInterval (tenantMaxInflightRuns : Int)
  | fire (tenantId triggerId idempotencyKey : String) (payload : Option Json)
      (tenantMaxInflightRuns : Int)
  | enqueue (tenantId triggerId eventId : String) (payload : Json)
  | replay (tenantId triggerId eventId : String)
  | edit (change : Edit)

inductive TriggerOutcome where
  | dispatched (dispatch : Option TriggerDispatchRecord)
  | fired (outcome : ManualTriggerFireOutcome)
  | enqueued (outcome : TriggerEventEnqueueOutcome)
  | replayed (outcome : TriggerEventReplayOutcome)
  | edited

def fireTrigger (b : Backend) (tenantId triggerId idempotencyKey : String) (payload : Option Json)
    (tenantMaxInflightRuns : Int) : TriggerProg ManualTriggerFireOutcome :=
  match b with
  | .postgres => fireTriggerManuallyWithLimits tenantId triggerId idempotencyKey payload
      tenantMaxInflightRuns
  | .sqlite => fireTriggerSqlite tenantId triggerId idempotencyKey payload

def enqueueEvent (rt : TriggerRuntime) (b : Backend) (tenantId triggerId eventId : String)
    (payload : Json) : TriggerProg TriggerEventEnqueueOutcome :=
  match b with
  | .postgres => enqueueTriggerEvent rt tenantId triggerId eventId payload
  | .sqlite => ingestTriggerEventSqlite rt tenantId triggerId eventId payload

def replayEvent (b : Backend) (tenantId triggerId eventId : String) :
    TriggerProg TriggerEventReplayOutcome :=
  match b with
  | .postgres => requeueDeadLetterTriggerEvent tenantId triggerId eventId
  | .sqlite => replayTriggerEventSqlite tenantId triggerId eventId

def TriggerCall.program (rt : TriggerRuntime) (b : Backend) :
    TriggerCall → TriggerProg TriggerOutcome
  | .dispatch tenantMax => do
    let dispatched ← dispatchNextDueTriggerWithLimits rt b tenantMax
    .pure (.dispatched dispatched)
  | .dispatchInterval tenantMax => do
    let dispatched ← dispatchNextDueIntervalTriggerWithLimits rt b tenantMax
    .pure (.dispatched dispatched)
  | .fire tenantId triggerId idempotencyKey payload tenantMax => do
    let outcome ← fireTrigger b tenantId triggerId idempotencyKey payload tenantMax
    .pure (.fired outcome)
  | .enqueue tenantId triggerId eventId payload => do
    let outcome ← enqueueEvent rt b tenantId triggerId eventId payload
    .pure (.enqueued outcome)
  | .replay tenantId triggerId eventId => do
    let outcome ← replayEvent b tenantId triggerId eventId
    .pure (.replayed outcome)
  | .edit change => do
    autocommit (.edit change.write)
    .pure .edited

/-- The key that a manual fire uses. -/
def usedKey (b : Backend) (idempotencyKey : String) : String :=
  match b with
  | .postgres => idempotencyKey
  | .sqlite => Text.trim idempotencyKey

/-- The call is a manual fire of the trigger with the key. -/
def TriggerCall.Fires (b : Backend) (call : TriggerCall) (triggerId idempotencyKey : String) :
    Prop :=
  ∃ tenantId key payload tenantMax,
    call = .fire tenantId triggerId key payload tenantMax ∧ usedKey b key = idempotencyKey

/-- The call makes the write for the rest of the program. -/
def TriggerCall.Edits (call : TriggerCall) (x : Write) : Prop :=
  ∃ change : Edit, call = .edit change ∧ change.write = x

section Programs

variable {rt : TriggerRuntime} {b : Backend} {faults : Bool} {cond : TriggerWorld → Prop}
  {seen : String → Int → Prop} {fires : String → String → Prop} {edits : Write → Prop}
  {publishes : Db → Db → Prop} {i : Nat}

/-! ## Scheduled triggers -/

theorem settles_advanceTrigger {α : Type} {F : Fact}
    {writes : List Write} {R : α → Fact} {trigger : TriggerRow} {change : TriggerChange}
    {k : Bool → TriggerProg α}
    (htrue : ∀ now, Settles b faults cond publishes i F
      (writes ++ [.changeTrigger trigger.id now change]) (k true) R)
    (hfalse : Settles b faults cond publishes i F writes (k false) R) :
    Settles b faults cond publishes i F writes (advanceTrigger b trigger change >>= k) R := by
  cases b with
  | postgres =>
    unfold advanceTrigger
    rw [Prog.bind_assoc]
    exact settles_updateTrigger htrue
  | sqlite => exact settles_reserveTrigger htrue hfalse

/-- A transaction that ends without a write. -/
theorem settles_commit_nothing {α : Type} {F : Fact} {a : α} :
    Settles b faults cond publishes i F [] (commit a) fun _ => .trivial :=
  settles_commit (fun _ _ => True.intro) fun _ _ => .inl rfl

theorem settles_failSlot {trigger : TriggerRow} {type : TriggerType} (change : TriggerChange)
    (error : Json) (htype : type ≠ .webhook) (hseen : seen trigger.id trigger.nextFireAt) :
    Settles b faults cond (Published b seen fires edits) i (.hasTrigger trigger.id type) []
      (failSlot b trigger change error) fun _ => .trivial := by
  refine settles_advanceTrigger (fun now => ?_) settles_commit_nothing
  rw [if_pos rfl, insertFailed, Prog.bind_assoc]
  refine settles_newUuid fun rowId => settles_insertTriggerRun (settles_commit ?_ ?_)
  · exact fun _ _ => True.intro
  · intro db htrigger
    let row := failedRow b rowId trigger.id trigger.nextFireAt (.slot trigger.nextFireAt) error
    exact .inr (.slotSkipped row now change htype htrigger hseen ⟨rfl, rfl, rfl⟩)

theorem settles_fireSlot {trigger : TriggerRow} {type : TriggerType} (nextFireAt : Int)
    (htype : type ≠ .webhook) (hseen : seen trigger.id trigger.nextFireAt) :
    Settles b faults cond (Published b seen fires edits) i (.hasTrigger trigger.id type) []
      (fireSlot b trigger type nextFireAt) fun _ => .trivial := by
  have hpublished : ∀ (run : RunRecord) (rowId : String) (now : Int) (db : Db),
      (Fact.hasTrigger trigger.id type).holds db → Published b seen fires edits db
        (((db.insertRun run).insertTriggerRun (createdRow b rowId trigger.id run.id
          trigger.nextFireAt (.slot trigger.nextFireAt))).changeTrigger trigger.id
            (TriggerChange.row now (.fire nextFireAt))) := by
    intro run rowId now db htrigger
    let row := createdRow b rowId trigger.id run.id trigger.nextFireAt (.slot trigger.nextFireAt)
    exact .slot run row now nextFireAt htype htrigger hseen ⟨rfl, rfl, rfl⟩
  cases b with
  | postgres =>
    refine settles_newUuid fun runId => settles_insertRun fun created =>
      settles_updateTrigger fun now => ?_
    rw [insertCreated, Prog.bind_assoc]
    refine settles_newUuid fun rowId => settles_insertTriggerRun (settles_commit ?_ ?_)
    · exact fun _ _ => True.intro
    · exact fun db htrigger => .inr (hpublished _ rowId now db htrigger)
  | sqlite =>
    refine settles_newUuid fun runId => settles_reserveTrigger (fun now => ?_)
      settles_commit_nothing
    rw [if_pos rfl]
    refine settles_insertRun fun created => ?_
    rw [insertCreated, Prog.bind_assoc]
    refine settles_newUuid fun rowId => settles_insertTriggerRun (settles_commit ?_ ?_)
    · exact fun _ _ => True.intro
    · exact fun db htrigger => .inr (hpublished _ rowId now db htrigger)

theorem settles_fireScheduled {trigger : TriggerRow} {type : TriggerType}
    (htype : type ≠ .webhook) (hseen : seen trigger.id trigger.nextFireAt) :
    Settles b faults cond (Published b seen fires edits) i (.hasTrigger trigger.id type) []
      (fireScheduled rt b type trigger) fun _ => .trivial := by
  unfold fireScheduled
  split
  · refine settles_nowUtc fun now => ?_
    dsimp only
    split
    · exact settles_failSlot _ _ htype hseen
    · exact settles_fireSlot _ htype hseen
  · unfold fireCron
    dsimp only
    split
    · exact settles_fireSlot _ htype hseen
    · exact settles_failSlot _ _ htype hseen
  · exact settles_fail _

/-! ## Webhook events -/

theorem settles_advanceEvent {α : Type} {F : Fact}
    {writes : List Write} {R : α → Fact} {event : EventRow} {change : EventChange}
    {k : Bool → TriggerProg α}
    (htrue : ∀ now, Settles b faults cond publishes i F
      (writes ++ [.changeEvent event.id now change]) (k true) R)
    (hfalse : Settles b faults cond publishes i F writes (k false) R) :
    Settles b faults cond publishes i F writes (advanceEvent b event change >>= k) R := by
  cases b with
  | postgres =>
    unfold advanceEvent
    rw [Prog.bind_assoc]
    exact settles_updateEvent htrue
  | sqlite =>
    refine settles_reserveEvent (fun row now hrow => ?_) hfalse
    simp only [Bool.and_eq_true, decide_eq_true_eq] at hrow
    rw [hrow.1]
    exact htrue now

/-- What is known of a due event: it is there, and its trigger is a webhook. -/
def eventFact (event : EventRow) (trigger : TriggerRow) : Fact :=
  .and (.hasTrigger trigger.id .webhook) (.hasEvent event.id trigger.id event.eventId)

theorem settles_failEvent (hadmits : Admits b fires publishes) (event : EventRow)
    (trigger : TriggerRow) (scheduledFor : Int) :
    Settles b faults cond publishes i (eventFact event trigger) []
      (failEvent b event trigger scheduledFor) fun _ => .trivial := by
  refine settles_advanceEvent (fun now => ?_) settles_commit_nothing
  rw [if_pos rfl, insertFailed, Prog.bind_assoc]
  refine settles_newUuid fun rowId => settles_insertTriggerRun (settles_commit ?_ ?_)
  · exact fun _ _ => True.intro
  · intro db hfact
    let row := failedRow b rowId trigger.id scheduledFor (.event event.eventId) eventPayloadTooLarge
    exact .inr (hadmits.eventFailed db row _ _ now _ _ hfact.1 hfact.2 ⟨rfl, rfl, rfl⟩)

theorem settles_fireEvent (hadmits : Admits b fires publishes) (event : EventRow)
    (trigger : TriggerRow) (scheduledFor : Int) :
    Settles b faults cond publishes i (eventFact event trigger) []
      (fireEvent b event trigger scheduledFor) fun _ => .trivial := by
  have hpublished : ∀ (run : RunRecord) (rowId : String) (now now' : Int) (db : Db),
      (eventFact event trigger).holds db → publishes db
        ((((db.insertRun run).insertTriggerRun (createdRow b rowId trigger.id run.id scheduledFor
          (.event event.eventId))).changeEvent event.id (EventChange.row now .process)).changeTrigger
            trigger.id (TriggerChange.row now' .touch)) := by
    intro run rowId now now' db hfact
    let row := createdRow b rowId trigger.id run.id scheduledFor (.event event.eventId)
    exact hadmits.event db run row _ _ now now' hfact.1 hfact.2 ⟨rfl, rfl, rfl⟩
  cases b with
  | postgres =>
    refine settles_newUuid fun runId => settles_insertRun fun created =>
      settles_updateEvent fun now => settles_updateTrigger fun now' => ?_
    rw [insertCreated, Prog.bind_assoc]
    refine settles_newUuid fun rowId => settles_insertTriggerRun (settles_commit ?_ ?_)
    · exact fun _ _ => True.intro
    · exact fun db hfact => .inr (hpublished _ rowId now now' db hfact)
  | sqlite =>
    refine settles_advanceEvent (fun now => ?_) settles_commit_nothing
    rw [if_pos rfl]
    refine settles_newUuid fun runId => settles_insertRun fun created =>
      settles_updateTrigger fun now' => ?_
    rw [insertCreated, Prog.bind_assoc]
    refine settles_newUuid fun rowId => settles_insertTriggerRun (settles_commit ?_ ?_)
    · exact fun _ _ => True.intro
    · exact fun db hfact => .inr (hpublished _ rowId now now' db hfact)

theorem settles_dispatchEvent (hadmits : Admits b fires publishes) (event : EventRow)
    (trigger : TriggerRow) :
    Settles b faults cond publishes i (eventFact event trigger) []
      (dispatchEvent rt b event trigger) fun _ => .trivial := by
  refine settles_nowUtc fun scheduledFor => ?_
  split
  · exact settles_failEvent hadmits event trigger scheduledFor
  · exact settles_fireEvent hadmits event trigger scheduledFor

/-! ## Manual fires -/

/-- Some row of the trigger stands under the key. -/
def keyTaken (triggerId dedupeKey : String) : Fact where
  holds db := db.KeyTaken triggerId dedupeKey
  lasts := by
    intro db db' h hg
    obtain ⟨row, hmem, hrow⟩ := h
    exact ⟨row, hg.ledger row hmem, hrow⟩

/-- A fire answered as a duplicate has found its key. -/
def fireFact (triggerId dedupeKey : String) : ManualTriggerFireOutcome → Fact
  | .duplicate _ => keyTaken triggerId dedupeKey
  | _ => .trivial

theorem admits_manual {triggerId idempotencyKey : String} (hadmits : Admits b fires publishes)
    (hfires : fires triggerId idempotencyKey) (run : RunRecord) (rowId : String)
    (scheduledFor now : Int) (db : Db) :
    publishes db (((db.insertRun run).insertTriggerRun (createdRow b rowId triggerId run.id
      scheduledFor (.manual idempotencyKey))).changeTrigger triggerId
        (TriggerChange.row now .touch)) := by
  let row := createdRow b rowId triggerId run.id scheduledFor (.manual idempotencyKey)
  exact hadmits.manual db run row idempotencyKey now hfires ⟨rfl, rfl, rfl⟩

theorem settles_duplicate {row : TriggerRunRow}
    {triggerId dedupeKey : String} (runId : Option String) (hid : row.triggerId = triggerId)
    (hkey : row.dedupeKey = dedupeKey) :
    Settles b faults cond publishes i (.hasTriggerRun row) [] (commit (.duplicate runId))
      (fireFact triggerId dedupeKey) :=
  settles_commit (fun _ hmem => ⟨row, hmem, hid, hkey⟩) fun _ _ => .inl rfl

end Programs

/-! ## Whole calls -/

section Calls

variable {rt : TriggerRuntime} {b : Backend} {faults : Bool} {cond : TriggerWorld → Prop}
  {publishes : Db → Db → Prop} {i : Nat} {α β : Type} {F : Fact} {R : α → Fact}

/-- From outside a transaction the program commits only what is allowed and leaves no
transaction open. -/
structure Keeps (b : Backend) (faults : Bool) (cond : TriggerWorld → Prop)
    (publishes : Db → Db → Prop) (i : Nat) (F : Fact) (p : TriggerProg α) (R : α → Fact) :
    Prop where
  run : ∀ w, w.tx.sessions i = none → F.holds w.tx.db →
    wp (sessionIn b faults cond i) (sessionContract publishes i) p
      (fun w r => w.tx.sessions i = none ∧ ∀ a, r = .ok a → (R a).holds w.tx.db) w

theorem keeps_pure {a : α} (h : ∀ db, F.holds db → (R a).holds db) :
    Keeps b faults cond publishes i F (.pure a) R := by
  refine ⟨fun w hclosed hfact w' hrely => ?_⟩
  refine ⟨hrely.1.trans hclosed, ?_⟩
  intro a' ha'
  cases ha'
  exact (R a).lasts _ _ (h _ hfact) hrely.2

theorem keeps_bind {p : TriggerProg α} {f : α → TriggerProg β} {R' : β → Fact}
    (h : Keeps b faults cond publishes i F p R)
    (h' : ∀ a, Keeps b faults cond publishes i (R a) (f a) R') :
    Keeps b faults cond publishes i F (p >>= f) R' := by
  refine ⟨fun w hclosed hfact => ?_⟩
  refine wp_seq (h.run w hclosed hfact) ?_ ?_
  · intro s a hs
    exact (h' a).run s hs.1 (hs.2 a rfl)
  · intro s e hs
    exact ⟨hs.1, nofun⟩

theorem keeps_inTransaction {body : TriggerProg α}
    (h : Settles b faults cond publishes i F [] body R) :
    Keeps b faults cond publishes i F (inTransaction body) R := by
  refine ⟨fun w hclosed hfact => ?_⟩
  apply wp_sql
  intro w' hrely
  refine ⟨trivial, fun answer w'' hstep => ?_⟩
  have hclosed' : w'.tx.sessions i = none := hrely.1.trans hclosed
  have hfact' := F.lasts _ _ hfact hrely.2
  obtain ⟨_, now, _, hstep | ⟨_, ⟨message, rfl⟩, hlost⟩⟩ := hstep
  · refine ⟨(quiet_query (by nofun) hstep).guarantee, ?_⟩
    replace hstep : BeginStep i now w' answer w'' := hstep
    unfold BeginStep at hstep
    rw [hclosed'] at hstep
    obtain ⟨rfl, rfl⟩ := hstep
    refine ⟨?_, nofun⟩
    intro _ _
    have hready : Ready i F [] { (w'.tick now).setTx i (some ⟨[], []⟩) with
        started := Function.update w'.started i now } :=
      ⟨⟨[], w'.tx.setSession_same i _⟩, hfact'⟩
    have hattempt : wp (sessionIn b faults cond i) (sessionContract publishes i) body.attempt
        (fun s r => ∃ x, r = .ok x ∧ ∀ a, x = .ok a →
          s.tx.sessions i = none ∧ (R a).holds s.tx.db) _ :=
      wp_attempt (wp_mono (fun s r hr => ⟨r, rfl, hr⟩) (h.run _ hready))
    refine wp_seq hattempt ?_ (fun s e he => by obtain ⟨_, hx, _⟩ := he; cases hx)
    intro s r hr
    obtain ⟨_, hx, hr⟩ := hr
    cases hx
    cases r with
    | ok a =>
      have hend := hr a rfl
      exact (keeps_pure fun _ hdb => hdb).run s hend.1 hend.2
    | error e =>
      -- whatever the body left open is dropped
      apply wp_perform_bind
      intro s' hrely'
      refine ⟨trivial, fun _ s'' hstep' => ?_⟩
      obtain ⟨_, now', _, rfl⟩ := hstep'
      refine ⟨(quiet_setTx i s' now' none).guarantee, ?_⟩
      intro s₃ hrely₃
      exact ⟨hrely₃.1.trans (TxWorld.setSession_same ..), nofun⟩
  · obtain rfl : w'' = (w'.tick now).setTx i none := by
      rcases hlost with h | ⟨_, hquery, _⟩
      · exact h
      · cases hquery
    refine ⟨(quiet_setTx i w' now none).guarantee, nofun, ?_⟩
    intro e _ w₃ hrely₃
    exact ⟨hrely₃.1.trans (TxWorld.setSession_same ..), nofun⟩

theorem view_of_closed {w : TriggerWorld} (h : w.tx.sessions i = none) : w.view i = w.tx.db := by
  unfold TriggerWorld.view
  rw [h]

/-- A query outside a transaction. -/
theorem keeps_read {query : Query} {k : query.Result → TriggerProg α} (hcommit : query ≠ .commit)
    (hquiet : ∀ w now answer w', QueryStep b i now w query answer w' → w' = w.tick now)
    (h : ∀ w now a, w.view i = w.tx.db → QueryStep b i now w query (.ok a) (w.tick now) →
      ∃ F', (F.holds w.tx.db → F'.holds w.tx.db) ∧
        Keeps b faults cond publishes i F' (k a) R) :
    Keeps b faults cond publishes i F (sql query >>= k) R := by
  refine ⟨fun w hclosed hfact => ?_⟩
  apply wp_sql
  intro w' hrely
  refine ⟨trivial, fun answer w'' hstep => ?_⟩
  have hclosed' : w'.tx.sessions i = none := hrely.1.trans hclosed
  have hfact' := F.lasts _ _ hfact hrely.2
  obtain ⟨_, now, _, hstep | ⟨_, ⟨message, rfl⟩, hlost⟩⟩ := hstep
  · obtain rfl := hquiet w' now answer w'' hstep
    refine ⟨(quiet_tick i w' now).guarantee, ?_, ?_⟩
    · rintro a rfl
      obtain ⟨F', hF', hrest⟩ := h w' now a (view_of_closed hclosed') hstep
      exact hrest.run _ hclosed' (hF' hfact')
    · intro e _ w₃ hrely₃
      exact ⟨hrely₃.1.trans hclosed', nofun⟩
  · rcases hlost with rfl | ⟨_, hquery, _⟩
    · refine ⟨(quiet_setTx i w' now none).guarantee, nofun, ?_⟩
      intro e _ w₃ hrely₃
      exact ⟨hrely₃.1.trans (TxWorld.setSession_same ..), nofun⟩
    · exact absurd hquery hcommit

/-- A trigger that is found stays, with its type. -/
theorem keeps_selectTrigger {tenantId triggerId : String} {k : Option TriggerRow → TriggerProg α}
    (hnone : Keeps b faults cond publishes i .trivial (k none) R)
    (hsome : ∀ row, Keeps b faults cond publishes i (.hasTrigger triggerId row.triggerType)
      (k (some row)) R) :
    Keeps b faults cond publishes i F (sql (.selectTrigger tenantId triggerId) >>= k) R := by
  refine keeps_read nofun (fun _ _ _ _ hstep => hstep.2) fun w now a hview hstep => ?_
  have hfind : (w.tx.db.trigger? triggerId).filter (·.tenantId = tenantId) = a := by
    rw [← hview]
    exact (Except.ok.inj hstep.1).symm
  cases a with
  | none => exact ⟨.trivial, fun _ => True.intro, hnone⟩
  | some row =>
    obtain ⟨hrow, _⟩ := Option.filter_eq_some_iff.mp hfind
    obtain ⟨hmem, hid⟩ := Table.key_of_find hrow
    exact ⟨.hasTrigger triggerId row.triggerType, fun _ => ⟨row, hmem, hid, rfl⟩, hsome row⟩

theorem keeps_selectEvent {triggerId eventId : String} {k : Option EventRow → TriggerProg α}
    (h : ∀ found, Keeps b faults cond publishes i F (k found) R) :
    Keeps b faults cond publishes i F (sql (.selectEvent triggerId eventId) >>= k) R :=
  keeps_read nofun (fun _ _ _ _ hstep => hstep.2) fun _ _ a _ _ => ⟨F, id, h a⟩

theorem keeps_newUuid {k : String → TriggerProg α}
    (h : ∀ id, Keeps b faults cond publishes i F (k id) R) :
    Keeps b faults cond publishes i F (newUuid >>= k) R := by
  refine ⟨fun w hclosed hfact => ?_⟩
  apply wp_perform_bind
  intro w' hrely
  refine ⟨trivial, fun answer w'' hstep => ?_⟩
  obtain ⟨_, now, _, _, rfl⟩ := hstep
  exact ⟨(quiet_tick i w' now).guarantee,
    (h answer).run _ (hrely.1.trans hclosed) (F.lasts _ _ hfact hrely.2)⟩

theorem keeps_trivial {p : TriggerProg α} (h : Keeps b faults cond publishes i .trivial p R) :
    Keeps b faults cond publishes i F p R :=
  ⟨fun w hclosed _ => h.run w hclosed True.intro⟩

end Calls

section Published

variable {rt : TriggerRuntime} {b : Backend} {faults : Bool} {cond : TriggerWorld → Prop}
  {seen : String → Int → Prop} {fires : String → String → Prop} {edits : Write → Prop}
  {publishes : Db → Db → Prop} {i : Nat}

theorem keeps_dispatchNextDueScheduled (type : TriggerType)
    (hseen : ∀ w, cond w → ∀ row ∈ w.tx.db.triggers, row.triggerType ≠ .webhook →
      seen row.id row.nextFireAt) (htype : type ≠ .webhook) (tenantMax : Int) :
    Keeps b faults cond (Published b seen fires edits) i .trivial
      (dispatchNextDueScheduled rt b type tenantMax) fun _ => .trivial := by
  apply keeps_inTransaction
  refine settles_selectDueTrigger hseen htype settles_commit_nothing fun row hrow => ?_
  exact settles_fireScheduled htype hrow

theorem keeps_dispatchNextDueWebhookEvent (hadmits : Admits b fires publishes) (tenantMax : Int) :
    Keeps b faults cond publishes i .trivial
      (dispatchNextDueWebhookEvent rt b tenantMax) fun _ => .trivial := by
  apply keeps_inTransaction
  exact settles_selectDueEvent settles_commit_nothing (settles_dispatchEvent hadmits)

theorem keeps_dispatchNextDueTrigger
    (hseen : ∀ w, cond w → ∀ row ∈ w.tx.db.triggers, row.triggerType ≠ .webhook →
      seen row.id row.nextFireAt) (tenantMax : Int) :
    Keeps b faults cond (Published b seen fires edits) i .trivial
      (dispatchNextDueTriggerWithLimits rt b tenantMax) fun _ => .trivial := by
  refine keeps_bind (keeps_dispatchNextDueWebhookEvent published_admits tenantMax) fun dispatched => ?_
  cases dispatched with
  | some dispatch => exact keeps_pure fun _ h => h
  | none =>
    refine keeps_bind (keeps_dispatchNextDueScheduled .cron hseen nofun tenantMax) fun dispatched => ?_
    cases dispatched with
    | some dispatch => exact keeps_pure fun _ h => h
    | none => exact keeps_dispatchNextDueScheduled .interval hseen nofun tenantMax

theorem keeps_fireTriggerManually {tenantId triggerId idempotencyKey : String}
    (hadmits : Admits .postgres fires publishes) (payload : Option Json) (tenantMax : Int)
    (hfires : fires triggerId idempotencyKey) :
    Keeps .postgres faults cond publishes i .trivial
      (fireTriggerManuallyWithLimits tenantId triggerId idempotencyKey payload tenantMax)
      (fireFact triggerId (manualKey .postgres idempotencyKey)) := by
  apply keeps_inTransaction
  refine settles_selectTriggerForUpdate fun candidate => ?_
  cases candidate with
  | none => exact settles_commit (fun _ _ => True.intro) fun _ _ => .inl rfl
  | some trigger =>
    refine settles_selectTriggerRun ?_ fun row hid hkey => settles_duplicate _ hid hkey
    refine settles_countTriggerInflight fun triggerInflight =>
      settles_countTenantInflight fun tenantInflight => ?_
    dsimp only
    split
    · exact settles_commit (fun _ _ => True.intro) fun _ _ => .inl rfl
    · refine settles_newUuid fun runId => settles_nowUtc fun scheduledFor =>
        settles_insertRun fun created => settles_updateTrigger fun now => ?_
      rw [insertCreated, Prog.bind_assoc]
      refine settles_newUuid fun rowId => settles_insertTriggerRun (settles_commit ?_ ?_)
      · exact fun _ _ => True.intro
      · exact fun db _ => .inr (admits_manual hadmits hfires _ rowId scheduledFor now db)

theorem keeps_fireLoadedTriggerSqlite {trigger : TriggerRow} {triggerId idempotencyKey : String}
    (hadmits : Admits .sqlite fires publishes) (payload : Option Json)
    (hfires : fires triggerId idempotencyKey) :
    Keeps .sqlite faults cond publishes i .trivial
      (fireLoadedTriggerSqlite trigger triggerId idempotencyKey payload)
      (fireFact triggerId (manualKey .sqlite idempotencyKey)) := by
  apply keeps_inTransaction
  refine settles_selectTriggerRun ?_ fun row hid hkey => ?_
  · refine settles_newUuid fun runId => settles_insertRun fun created =>
      settles_nowUtc fun scheduledFor => ?_
    rw [insertCreated, Prog.bind_assoc]
    refine settles_newUuid fun rowId => settles_insertTriggerRun
      (settles_updateTrigger fun now => settles_commit ?_ ?_)
    · exact fun _ _ => True.intro
    · exact fun db _ => .inr (admits_manual hadmits hfires _ rowId scheduledFor now db)
  · dsimp only
    split
    · exact settles_duplicate _ hid hkey
    · exact settles_fail _

theorem keeps_fireTriggerSqlite {tenantId triggerId idempotencyKey : String}
    (hadmits : Admits .sqlite fires publishes) (payload : Option Json)
    (hfires : fires triggerId (Text.trim idempotencyKey)) :
    Keeps .sqlite faults cond publishes i .trivial
      (fireTriggerSqlite tenantId triggerId idempotencyKey payload)
      (fireFact triggerId (manualKey .sqlite (Text.trim idempotencyKey))) := by
  unfold fireTriggerSqlite
  dsimp only
  split
  · exact keeps_pure fun _ h => h
  · split
    · exact keeps_pure fun _ h => h
    · refine keeps_selectTrigger (keeps_pure fun _ h => h) fun trigger => ?_
      dsimp only
      split
      · exact keeps_pure fun _ _ => True.intro
      · exact keeps_trivial (keeps_fireLoadedTriggerSqlite hadmits payload hfires)

theorem keeps_fireTrigger {tenantId triggerId idempotencyKey : String}
    (hadmits : Admits b fires publishes) (payload : Option Json) (tenantMax : Int)
    (hfires : fires triggerId (usedKey b idempotencyKey)) :
    Keeps b faults cond publishes i .trivial
      (fireTrigger b tenantId triggerId idempotencyKey payload tenantMax)
      (fireFact triggerId (manualKey b (usedKey b idempotencyKey))) := by
  cases b with
  | postgres => exact keeps_fireTriggerManually hadmits payload tenantMax hfires
  | sqlite => exact keeps_fireTriggerSqlite hadmits payload hfires

theorem keeps_insertEvent (hadmits : Admits b fires publishes)
    (tenantId triggerId eventId : String) (payload : Json) :
    Keeps b faults cond publishes i (.hasTrigger triggerId .webhook)
      (insertEvent rt tenantId triggerId eventId payload) fun _ => .trivial := by
  refine keeps_newUuid fun rowId => keeps_bind (keeps_inTransaction ?_)
    (fun inserted => ?_) (R := fun _ => .trivial)
  · refine settles_insertEvent (fun now => settles_commit ?_ ?_) settles_commit_nothing
    · exact fun _ _ => True.intro
    · exact fun db htrigger => .inr (hadmits.enqueued db _ htrigger rfl)
  · split
    · exact keeps_pure fun _ h => h
    · exact keeps_pure fun _ h => h

theorem webhook_of_enqueueReason {trigger : TriggerRow} (h : trigger.enqueueReason = none) :
    trigger.triggerType = .webhook := by
  unfold TriggerRow.enqueueReason at h
  split at h
  · cases h
  · split at h
    · cases h
    · rename_i htype
      exact not_not.mp htype

theorem webhook_of_enqueueRejection {trigger : TriggerRow} (h : trigger.enqueueRejection = none) :
    trigger.triggerType = .webhook := by
  unfold TriggerRow.enqueueRejection at h
  split at h
  · cases h
  · rename_i htype
    exact not_not.mp htype

theorem keeps_enqueueEvent (hadmits : Admits b fires publishes)
    (tenantId triggerId eventId : String) (payload : Json) :
    Keeps b faults cond publishes i .trivial
      (enqueueEvent rt b tenantId triggerId eventId payload) fun _ => .trivial := by
  cases b with
  | postgres =>
    show Keeps _ _ _ _ _ _ (enqueueTriggerEvent ..) _
    unfold enqueueTriggerEvent
    split
    · exact keeps_pure fun _ h => h
    · refine keeps_selectTrigger (keeps_pure fun _ h => h) fun trigger => ?_
      dsimp only
      split
      · exact keeps_pure fun _ _ => True.intro
      · rename_i hreason
        rw [webhook_of_enqueueReason hreason]
        exact keeps_insertEvent hadmits tenantId triggerId eventId payload
  | sqlite =>
    show Keeps _ _ _ _ _ _ (ingestTriggerEventSqlite ..) _
    unfold ingestTriggerEventSqlite
    split
    · exact keeps_pure fun _ h => h
    · split
      · exact keeps_pure fun _ h => h
      · refine keeps_selectTrigger (keeps_pure fun _ h => h) fun trigger => ?_
        dsimp only
        split
        · exact keeps_pure fun _ _ => True.intro
        · rename_i hreason
          rw [webhook_of_enqueueRejection hreason]
          exact keeps_insertEvent hadmits tenantId triggerId eventId payload

theorem settles_requeue {F : Fact} {α : Type} {selects : EventRow → Bool}
    {k : Bool → TriggerProg α} (hadmits : Admits b fires publishes)
    (htrue : ∀ writes, (∀ db, publishes db (triggerStore.run writes db)) →
      Settles b faults cond publishes i F writes (k true) fun _ => .trivial)
    (hfalse : Settles b faults cond publishes i F [] (k false) fun _ => .trivial) :
    Settles b faults cond publishes i F [] (sql (.reserveEvent selects .requeue) >>= k)
      fun _ => .trivial :=
  settles_reserveEvent (fun row now _ => htrue _ fun db => hadmits.requeued db row.id now) hfalse

theorem keeps_replayEvent (hadmits : Admits b fires publishes)
    (tenantId triggerId eventId : String) :
    Keeps b faults cond publishes i .trivial
      (replayEvent b tenantId triggerId eventId) fun _ => .trivial := by
  cases b with
  | postgres =>
    apply keeps_inTransaction
    refine settles_selectEventForUpdate fun existing => ?_
    cases existing with
    | none => exact settles_commit_nothing
    | some event =>
      dsimp only
      split
      · exact settles_commit_nothing
      · refine settles_requeue hadmits (fun writes hwrites => ?_) (settles_fail _)
        exact settles_commit (fun _ _ => True.intro) fun db _ => .inr (hwrites db)
  | sqlite =>
    refine keeps_selectTrigger (keeps_pure fun _ h => h) fun trigger => ?_
    refine keeps_bind (keeps_inTransaction ?_) (fun updated => ?_) (R := fun _ => .trivial)
    · refine settles_requeue hadmits (fun writes hwrites => ?_) settles_commit_nothing
      exact settles_commit (fun _ _ => True.intro) fun db _ => .inr (hwrites db)
    · split
      · exact keeps_pure fun _ h => h
      · refine keeps_selectEvent fun found => ?_
        cases found with
        | none => exact keeps_pure fun _ h => h
        | some event => exact keeps_pure fun _ h => h

/-- What the answer of a call says of the tables from then on. -/
def TriggerCall.answerFact (b : Backend) : TriggerCall → TriggerOutcome → Fact
  | .fire _ triggerId idempotencyKey _ _, .fired outcome =>
    fireFact triggerId (manualKey b (usedKey b idempotencyKey)) outcome
  | _, _ => .trivial

/-- Every call commits nothing but what `Published` lists. -/
theorem keeps_call
    (hseen : ∀ w, cond w → ∀ row ∈ w.tx.db.triggers, row.triggerType ≠ .webhook →
      seen row.id row.nextFireAt) {call : TriggerCall}
    (hfires : ∀ triggerId idempotencyKey, call.Fires b triggerId idempotencyKey →
      fires triggerId idempotencyKey) :
    Keeps b faults cond (Published b seen fires call.Edits) i .trivial (call.program rt b)
      (call.answerFact b) := by
  cases call with
  | dispatch tenantMax =>
    exact keeps_bind (keeps_dispatchNextDueTrigger hseen tenantMax) fun _ => keeps_pure fun _ h => h
  | dispatchInterval tenantMax =>
    exact keeps_bind (keeps_dispatchNextDueScheduled .interval hseen nofun tenantMax) fun _ =>
      keeps_pure fun _ h => h
  | fire tenantId triggerId idempotencyKey payload tenantMax =>
    have hkey := hfires triggerId _ ⟨tenantId, idempotencyKey, payload, tenantMax, rfl, rfl⟩
    exact keeps_bind (keeps_fireTrigger published_admits payload tenantMax hkey) fun _ =>
      keeps_pure fun _ h => h
  | enqueue tenantId triggerId eventId payload =>
    exact keeps_bind (keeps_enqueueEvent published_admits tenantId triggerId eventId payload) fun _ =>
      keeps_pure fun _ h => h
  | replay tenantId triggerId eventId =>
    exact keeps_bind (keeps_replayEvent published_admits tenantId triggerId eventId) fun _ =>
      keeps_pure fun _ h => h
  | edit change =>
    refine keeps_bind (keeps_inTransaction (settles_edit (settles_commit ?_ ?_)))
      (fun _ => keeps_pure fun _ h => h) (R := fun _ => .trivial)
    · exact fun _ _ => True.intro
    · exact fun _ _ => .inr (.edited ⟨change, rfl, rfl⟩ change.write_isEdit)

end Published

end Trigger
end SecureAgnt

/-
Replays of dead-lettered events.

A replay resets the event's row and leaves the ledger as it is.  `AsFresh` states what
a new event can expect of the dispatch that reaches it.  A replayed event can expect
the same exactly if the ledger has no row under its identifier, and every attempt that
dead-letters an event enters such a row.
-/
import SecureAgnt.Trigger.Oversize

namespace SecureAgnt
namespace Trigger

open Storage
open Handler
open Runs (TriggerDispatchRecord)

/-! ## New events -/

/-- The dispatch created one run for the event, entered it and marked the event. -/
structure Fired (b : Backend) (event : EventRow) (trigger : TriggerRow) (db db' : Db)
    (out : Except DbError (Option TriggerDispatchRecord)) : Prop where
  run : ∃ run row scheduledFor, db'.runs = db.runs ++ [run] ∧ db'.ledger = db.ledger ++ [row] ∧
    row.triggerId = trigger.id ∧ row.Creates b run (.event event.eventId) ∧
    out = .ok (some (dispatchRecord trigger "webhook" (some event.eventId) run.id scheduledFor
      scheduledFor))
  processed : ∃ event' ∈ db'.events, event'.id = event.id ∧ event'.status = .processed

/-- The dispatch counted the first attempt on the event. -/
def FirstAttempt (event : EventRow) (trigger : TriggerRow) (db db' : Db) : Prop :=
  db'.runs = db.runs ∧ ∃ event' ∈ db'.events, event'.id = event.id ∧ event'.attempts = 1 ∧
    event'.status = if trigger.maxAttempts = 1 then .deadLettered else .pending

/-- What a new event can expect, whatever happens elsewhere before a dispatch reaches
it. -/
def AsFresh (rt : TriggerRuntime) (b : Backend) (event₀ : EventRow) (trigger₀ : TriggerRow)
    (start : TriggerWorld) : Prop :=
  ∀ w, Elsewhere event₀ trigger₀ start w →
    ∀ i tenantMax event trigger, event.id = event₀.id →
      FirstInLine b tenantMax w.clock w.tx.db event trigger →
      (∃ w' out, Dispatches rt b i tenantMax w w' out) ∧
      ∀ w' out, Dispatches rt b i tenantMax w w' out →
        out ≠ .error (.uniqueViolation (.dedupeKey trigger₀.id event₀.eventId)) ∧
        (rt.tooLarge event.payloadJson = false → Fired b event trigger w.tx.db w'.tx.db out) ∧
        (rt.tooLarge event.payloadJson = true →
          ∃ w₁, Finishes (session b false i) w (dispatchNextDueWebhookEvent rt b tenantMax) w₁
              (.ok none) ∧
            FirstAttempt event trigger w.tx.db w₁.tx.db ∧
            Finishes (session b false i) w₁ (dispatchNextDueTimer rt b tenantMax) w' out)

section Fresh

variable {rt : TriggerRuntime} {b : Backend} {event₀ : EventRow} {trigger₀ : TriggerRow}
  {w : TriggerWorld} {event : EventRow} {trigger : TriggerRow}

theorem status_fail (now : Int) (hattempts : event.attempts = 0) :
    (EventChange.row now (.fail (decide (event.attempts + 1 ≥ trigger.maxAttempts))
      eventPayloadTooLarge) event).status =
        if trigger.maxAttempts = 1 then .deadLettered else .pending := by
  have hpos := trigger.maxAttempts_pos
  show (if decide (event.attempts + 1 ≥ trigger.maxAttempts) = true then EventStatus.deadLettered
    else .pending) = _
  by_cases hmax : trigger.maxAttempts = 1
  · rw [if_pos hmax, if_pos (decide_eq_true (by omega))]
  · rw [if_neg hmax, if_neg (by rw [decide_eq_true_eq]; omega)]

/-- The dispatch that comes to the event. -/
theorem asFresh_dispatch {i : Nat} {tenantMax : Int} {w' : TriggerWorld}
    {out : Except DbError (Option TriggerDispatchRecord)}
    (h : Watched event₀ trigger₀ w.tx.db event trigger) (hclosed : ∀ j, w.tx.sessions j = none)
    (hattempts : event.attempts = 0) (hfree : ¬ w.tx.db.KeyTaken trigger₀.id event₀.eventId)
    (hfirst : FirstInLine b tenantMax w.clock w.tx.db event trigger)
    (hcall : Dispatches rt b i tenantMax w w' out) :
    out ≠ .error (.uniqueViolation (.dedupeKey trigger₀.id event₀.eventId)) ∧
    (rt.tooLarge event.payloadJson = false → Fired b event trigger w.tx.db w'.tx.db out) ∧
    (rt.tooLarge event.payloadJson = true →
      ∃ w₁, Finishes (session b false i) w (dispatchNextDueWebhookEvent rt b tenantMax) w₁
          (.ok none) ∧
        FirstAttempt event trigger w.tx.db w₁.tx.db ∧
        Finishes (session b false i) w₁ (dispatchNextDueTimer rt b tenantMax) w' out) := by
  have hrest : Resting w.tx.db w.clock w := ⟨⟨rfl, hclosed, Int.le_refl _⟩, h.keys⟩
  obtain ⟨db₁, w₁, r, hstage, hrest₁, hend⟩ := dispatches_cases hrest hcall
  rcases eventStage_first hfirst hstage with ⟨htaken, _⟩ |
    ⟨_, hlarge, rfl, row, now, _, _, _, hdb₁⟩ |
    ⟨_, hfits, run, row, _, _, scheduledFor, hid, hrow, hdb₁, rfl⟩
  · rw [h.sameTrigger.id, h.sameEvent.eventId] at htaken
    exact absurd htaken hfree
  · rcases hend with ⟨hnone, _⟩ | ⟨_, hevents, htimer⟩
    · exact absurd rfl hnone
    · have h₁ := h.fail hdb₁ (hrest₁.db ▸ hrest₁.keys)
      obtain ⟨db', _, hstage'⟩ := finishes_timer hrest₁ htimer
      refine ⟨(timerStage_untouched h₁ hstage').2 _, ?_, fun _ => ⟨w₁, hevents, ?_, htimer⟩⟩
      · intro hfits
        rw [hlarge] at hfits
        cases hfits
      · rw [hrest₁.db, hdb₁]
        refine ⟨rfl, _, mem_changeRow_same h.eventMem rfl, rfl, ?_, status_fail now hattempts⟩
        show event.attempts + 1 = 1
        omega
  · rcases hend with ⟨_, rfl, rfl⟩ | ⟨hnone, _⟩
    · refine ⟨nofun, fun _ => ⟨⟨run, row, scheduledFor, ?_, ?_, hid, hrow, rfl⟩, ?_⟩, ?_⟩
      · rw [hrest₁.db, hdb₁]
        rfl
      · rw [hrest₁.db, hdb₁]
        rfl
      · rw [hrest₁.db, hdb₁]
        exact ⟨_, mem_changeRow_same h.eventMem rfl, rfl, rfl⟩
      · intro hlarge
        rw [hlarge] at hfits
        cases hfits
    · cases hnone

/-- A new event can expect it exactly if its key is free. -/
theorem asFresh_iff (h : Watched event₀ trigger₀ w.tx.db event trigger)
    (hclosed : ∀ j, w.tx.sessions j = none) (hpending : event.status = .pending)
    (hattempts : event.attempts = 0) :
    AsFresh rt b event₀ trigger₀ w ↔ ¬ w.tx.db.KeyTaken trigger₀.id event₀.eventId := by
  constructor
  · intro hfresh htaken
    obtain ⟨⟨w', out, hcall⟩, hcalls⟩ := hfresh _ (elsewhere_later h hclosed) 0 1 event trigger
      h.sameEvent.id (firstInLine_later h hpending)
    exact (hcalls w' out hcall).1 (clash_later h hclosed hpending htaken hcall)
  · intro hfree w' helse i tenantMax event' trigger' hid hfirst
    obtain ⟨trigger₁, h'⟩ := h.untouched helse.db helse.keys
    have hfree' : ¬ w'.tx.db.KeyTaken trigger₀.id event₀.eventId := fun htaken =>
      hfree (helse.db.ledger.mp htaken)
    rcases h'.due_cases (hfirst w'.clock (Int.le_refl _)) with ⟨rfl, rfl, _⟩ | ⟨hne, _⟩
    · exact ⟨exists_dispatch helse.closed tenantMax, fun w'' out hcall =>
        asFresh_dispatch h' helse.closed hattempts hfree' hfirst hcall⟩
    · exact absurd hid hne

end Fresh

/-! ## The replay -/

section Replay

variable {b : Backend} {i : Nat} {db : Db} {since : Int} {event : EventRow} {tenantId : String}

/-- The event's row is reset.  The answer is this if the caller's tenant has the event,
which SQLite judges by the trigger. -/
def Requeues (tenantId : String) (event : EventRow) (db db' : Db)
    (r : Except DbError TriggerEventReplayOutcome) : Prop :=
  (r = .ok .requeued → ∃ now, db' = db.changeEvent event.id (EventChange.row now .requeue)) ∧
    (event.tenantId = tenantId →
      (∃ trigger, db.trigger? event.triggerId = some trigger ∧ trigger.tenantId = tenantId) →
      r = .ok .requeued)

theorem event_unique (hkeys : db.entries.Nodup) (hevent : event ∈ db.events) {row : EventRow}
    (hrow : row ∈ db.events) (htrigger : row.triggerId = event.triggerId)
    (hid : row.eventId = event.eventId) : row = event := by
  refine List.inj_on_of_nodup_map (nodup_eventIds hkeys) hrow hevent ?_
  rw [htrigger, hid]

theorem event?_of_mem (hkeys : db.entries.Nodup) (hevent : event ∈ db.events) :
    db.event? event.triggerId event.eventId = some event := by
  cases hfound : db.event? event.triggerId event.eventId with
  | none =>
    have hnone := List.find?_eq_none.mp hfound event hevent
    simp at hnone
  | some found =>
    have hselected := List.find?_some hfound
    simp only [Bool.and_eq_true, decide_eq_true_eq] at hselected
    rw [event_unique hkeys hevent (List.mem_of_find?_eq_some hfound) hselected.1 hselected.2]

theorem atRest_requeueDeadLetterTriggerEvent (hkeys : db.entries.Nodup)
    (hevent : event ∈ db.events) (hdead : event.status = .deadLettered) :
    AtRest b i db since
      (requeueDeadLetterTriggerEvent tenantId event.triggerId event.eventId)
      (Requeues tenantId event db) := by
  refine atRest_inTransaction (alone_selectEventForUpdate ?_)
  cases hfound : (db.event? event.triggerId event.eventId).filter (·.tenantId = tenantId) with
  | none =>
    refine alone_commit ⟨nofun, fun htenant _ => ?_⟩
    rw [event?_of_mem hkeys hevent, Option.filter_some, if_pos (decide_eq_true htenant)] at hfound
    cases hfound
  | some found =>
    rw [event?_of_mem hkeys hevent] at hfound
    obtain ⟨hsome, htenant⟩ := Option.filter_eq_some_iff.mp hfound
    cases hsome
    dsimp only
    rw [if_neg (not_not.mpr hdead)]
    refine alone_reserveEvent event.id ⟨event, hevent, ?_⟩ ?_ fun now _ => ?_
    · rw [of_decide_eq_true htenant]
      simp
    · intro row hrow hselects
      simp only [Bool.and_eq_true, decide_eq_true_eq] at hselects
      rw [event_unique hkeys hevent hrow hselects.1.1 hselects.2]
    · rw [if_pos rfl]
      exact alone_commit ⟨fun _ => ⟨now, rfl⟩, fun _ _ => rfl⟩

theorem atRest_replayTriggerEventSqlite (hkeys : db.entries.Nodup) (hevent : event ∈ db.events)
    (hdead : event.status = .deadLettered) :
    AtRest b i db since (replayTriggerEventSqlite tenantId event.triggerId event.eventId)
      (Requeues tenantId event db) := by
  refine atRest_selectTrigger ?_
  cases hfound : (db.trigger? event.triggerId).filter (·.tenantId = tenantId) with
  | none =>
    refine atRest_pure ⟨nofun, fun _ hknown => ?_⟩
    obtain ⟨trigger, htrigger, htenant⟩ := hknown
    rw [htrigger, Option.filter_some, if_pos (decide_eq_true htenant)] at hfound
    cases hfound
  | some trigger =>
    have hreserve : AtRest b i db since (autocommit (.reserveEvent (fun row =>
        row.triggerId = event.triggerId && row.eventId = event.eventId &&
          row.status = .deadLettered) .requeue))
        (fun db' r => r = .ok true ∧
          ∃ now, db' = db.changeEvent event.id (EventChange.row now .requeue)) := by
      refine atRest_inTransaction ?_
      refine alone_reserveEvent event.id ⟨event, hevent, by simp [hdead]⟩ ?_ fun now _ => ?_
      · intro row hrow hselects
        simp only [Bool.and_eq_true, decide_eq_true_eq] at hselects
        rw [event_unique hkeys hevent hrow hselects.1.1 hselects.1.2]
      · exact alone_commit ⟨rfl, now, rfl⟩
    refine atRest_bind hreserve ?_ ?_
    · intro db' updated hdb'
      obtain ⟨hupdated, hchange⟩ := hdb'
      cases hupdated
      exact atRest_pure ⟨fun _ => hchange, fun _ _ => rfl⟩
    · intro db' e he
      cases he.1

theorem atRest_replayEvent (hkeys : db.entries.Nodup) (hevent : event ∈ db.events)
    (hdead : event.status = .deadLettered) :
    AtRest b i db since (replayEvent b tenantId event.triggerId event.eventId)
      (Requeues tenantId event db) := by
  cases b with
  | postgres => exact atRest_requeueDeadLetterTriggerEvent hkeys hevent hdead
  | sqlite => exact atRest_replayTriggerEventSqlite hkeys hevent hdead

/-- A replayed event is a new one, with the ledger as before. -/
theorem replayed {event₀ : EventRow} {trigger₀ trigger : TriggerRow} {w w' : TriggerWorld}
    (h : Watched event₀ trigger₀ w.tx.db event trigger) (hclosed : ∀ j, w.tx.sessions j = none)
    (hdead : event.status = .deadLettered)
    (hreplay : Finishes (session b false i) w
      (replayEvent b tenantId event.triggerId event.eventId) w' (.ok .requeued)) :
    (∀ j, w'.tx.sessions j = none) ∧ w'.tx.db.ledger = w.tx.db.ledger ∧
      ∃ now, Watched event₀ trigger₀ w'.tx.db (EventChange.row now .requeue event) trigger := by
  have hrest : Resting w.tx.db w.clock w := ⟨⟨rfl, hclosed, Int.le_refl _⟩, h.keys⟩
  have hreset : AtRest b i w.tx.db w.clock (replayEvent b tenantId event.triggerId event.eventId)
      (Requeues tenantId event w.tx.db) := atRest_replayEvent h.keys h.eventMem hdead
  obtain ⟨db', hrest', hrequeues, _⟩ := wp_of_finishes (hreset.run w hrest) hreplay
  obtain ⟨now, rfl⟩ := hrequeues rfl
  have hkeys' := hrest'.keys
  rw [hrest'.db] at hkeys' ⊢
  exact ⟨hrest'.closed, rfl, now, hkeys', mem_changeRow_same h.eventMem rfl,
    h.sameEvent.change now .requeue, h.triggerMem, h.sameTrigger, h.parent⟩

/-- A dead letter of the caller's tenant is requeued. -/
theorem exists_replay {w : TriggerWorld} {trigger : TriggerRow} (hkeys : w.tx.db.entries.Nodup)
    (hclosed : ∀ j, w.tx.sessions j = none) (hevent : event ∈ w.tx.db.events)
    (hdead : event.status = .deadLettered)
    (htrigger : w.tx.db.trigger? event.triggerId = some trigger)
    (htenant : event.tenantId = tenantId) (htenant' : trigger.tenantId = tenantId) :
    ∃ w', Finishes (session b false i) w
      (replayEvent b tenantId event.triggerId event.eventId) w' (.ok .requeued) := by
  obtain ⟨w', out, hfinish⟩ : ∃ w' out, Finishes (session b false i) w
      (replayEvent b tenantId event.triggerId event.eventId) w' out :=
    exists_finish (fun j _ => hclosed j) _
  have hreset : AtRest b i w.tx.db w.clock (replayEvent b tenantId event.triggerId event.eventId)
      (Requeues tenantId event w.tx.db) := atRest_replayEvent hkeys hevent hdead
  obtain ⟨_, _, _, hanswer⟩ :=
    wp_of_finishes (hreset.run w ⟨⟨rfl, hclosed, Int.le_refl _⟩, hkeys⟩) hfinish
  rw [hanswer htenant ⟨trigger, htrigger, htenant'⟩] at hfinish
  exact ⟨w', hfinish⟩

end Replay

/-! ## Dead letters -/

/-- The ledger has a row for every dead letter. -/
def Db.DeadLettersKeyed (db : Db) : Prop :=
  ∀ event ∈ db.events, event.status = .deadLettered → db.KeyTaken event.triggerId event.eventId

section DeadLetters

variable {b : Backend} {seen : String → Int → Prop} {fires : String → String → Prop}
  {edits : Write → Prop} {db db' : Db}

theorem deadLettersKeyed_of_events (h : db.DeadLettersKeyed) (hgrows : Grows db db')
    (hevents : ∀ event ∈ db'.events, event.status = .deadLettered → event ∈ db.events ∨
      db'.KeyTaken event.triggerId event.eventId) : db'.DeadLettersKeyed := by
  intro event hevent hdead
  rcases hevents event hevent hdead with hold | htaken
  · exact (keyTaken _ _).lasts db db' (h event hold hdead) hgrows
  · exact htaken

/-- A commit that dead-letters an event enters it. -/
theorem deadLettersKeyed_published (hkeys : db.entries.Nodup) (h : db.DeadLettersKeyed)
    (hpublished : Published b seen fires edits db db') : db'.DeadLettersKeyed := by
  refine deadLettersKeyed_of_events h (grows_published hpublished) fun event hevent hdead => ?_
  cases hpublished with
  | slot run row now nextFireAt => exact .inl hevent
  | slotSkipped row now change => exact .inl hevent
  | manual run row now => exact .inl hevent
  | edited hedits hedit => cases hedit <;> exact .inl hevent
  | event run row now now' =>
    obtain ⟨before, hbefore, rfl⟩ := List.mem_map.mp hevent
    split at hdead
    · cases hdead
    · rename_i hne
      rw [if_neg hne]
      exact .inl hbefore
  | eventFailed row now deadLetter eventError htrigger hhas hrow =>
    obtain ⟨before, hbefore, rfl⟩ := List.mem_map.mp hevent
    split
    · rename_i hid
      obtain ⟨found, hfound, hfoundId, hfoundTrigger, hfoundEvent⟩ := hhas
      obtain rfl : before = found := List.inj_on_of_nodup_map (nodup_events hkeys) hbefore hfound
        (hid.trans hfoundId.symm)
      refine .inr (keyTaken_insertTriggerRun.mpr (.inr ⟨hfoundTrigger.symm, ?_⟩))
      exact hrow.dedupeKey.trans hfoundEvent.symm
    · exact .inl hbefore
  | enqueued row htrigger hpending =>
    rcases List.mem_append.mp hevent with hold | hnew
    · exact .inl hold
    · rw [List.mem_singleton.mp hnew, hpending] at hdead
      cases hdead
  | requeued rowId now =>
    obtain ⟨before, hbefore, rfl⟩ := List.mem_map.mp hevent
    split at hdead
    · cases hdead
    · rename_i hne
      rw [if_neg hne]
      exact .inl hbefore

end DeadLetters

/-! ## Every history -/

/-- After any history of calls: a replayed event can expect what a new one can exactly
if the ledger has no row under its identifier.  It has one for every dead letter,
unless it lacked one to begin with. -/
theorem replay_as_fresh_iff (rt : TriggerRuntime) (b : Backend) (faults : Bool)
    (calls : Nat → TriggerCall) (i : Nat) (tenantId : String) {clock : Int} {db : Db}
    {w w' : TriggerWorld}
    {ps : Nat → Prog (Nat × Stmt) (fun o => o.2.Ans) DbError TriggerOutcome} {event : EventRow}
    {trigger : TriggerRow} (hkeys : db.entries.Nodup)
    (hreach : PoolReaches (sessions b faults) (.start clock db, callPool rt b calls) (w, ps))
    (hclosed : ∀ j, w.tx.sessions j = none) (hevent : event ∈ w.tx.db.events)
    (hdead : event.status = .deadLettered) (htrigger : trigger ∈ w.tx.db.triggers)
    (hparent : event.triggerId = trigger.id) (henabled : trigger.enabled = true)
    (halive : trigger.deadLetteredAt = none) (hwebhook : trigger.triggerType = .webhook)
    (hreplay : Finishes (session b false i) w
      (replayEvent b tenantId event.triggerId event.eventId) w' (.ok .requeued)) :
    (AsFresh rt b event trigger w' ↔ ¬ w.tx.db.KeyTaken trigger.id event.eventId) ∧
      (db.DeadLettersKeyed → w.tx.db.KeyTaken trigger.id event.eventId) := by
  have hkeys' : w.tx.db.entries.Nodup :=
    (invariant_of_sessions (I := fun _ => True) (fun _ _ _ _ _ _ => trivial) hkeys trivial
      hreach).1.entries
  have hwatched : Watched event trigger w.tx.db event trigger :=
    .start hkeys' hevent htrigger hparent henabled halive hwebhook
  constructor
  · obtain ⟨hclosed', hledger, now, hwatched'⟩ := replayed hwatched hclosed hdead hreplay
    rw [asFresh_iff hwatched' hclosed' rfl rfl]
    unfold Db.KeyTaken
    rw [hledger]
  · intro hkeyed
    have hkeyed' := (invariant_of_sessions (I := Db.DeadLettersKeyed) (fun _ _ _ hkeys hs hpublished =>
      deadLettersKeyed_published hkeys hs hpublished) hkeys hkeyed hreach).2
    rw [← hparent]
    exact hkeyed' event hevent hdead

/-- A dead letter that was never attempted, as an operator might set one. -/
def setAside : EventRow :=
  { hookEvent "delivery" (.obj []) with
    status := .deadLettered
    attempts := 3
    deadLetteredAt := some 0 }

theorem set_aside_replayed : ∃ w',
    Finishes (session .sqlite false 0) (.start 0 (hookDb ⟨3, by decide⟩ setAside))
      (replayEvent .sqlite "acme" "hook" "delivery") w' (.ok .requeued) ∧
    AsFresh plainRuntime .sqlite setAside (hookTrigger ⟨3, by decide⟩) w' := by
  let db := hookDb ⟨3, by decide⟩ setAside
  have hkeys : db.entries.Nodup := by
    simp [db, hookDb, Db.entries, EventRow.entries, setAside, hookEvent]
  have htrigger : db.trigger? "hook" = some (hookTrigger ⟨3, by decide⟩) :=
    Table.find_cons.trans (if_pos rfl)
  obtain ⟨w', hreplay⟩ : ∃ w', Finishes (session .sqlite false 0) (.start 0 db)
      (replayEvent .sqlite "acme" setAside.triggerId setAside.eventId) w' (.ok .requeued) :=
    exists_replay hkeys (fun _ => rfl) List.mem_cons_self rfl htrigger rfl rfl
  refine ⟨w', hreplay, ((replay_as_fresh_iff plainRuntime .sqlite false (fun _ => .dispatch 1) 0
    "acme" (w := .start 0 db) hkeys .refl (fun _ => rfl) List.mem_cons_self rfl
    List.mem_cons_self rfl rfl rfl rfl hreplay).1).mpr ?_⟩
  intro htaken
  obtain ⟨_, hrow, _⟩ := htaken
  cases hrow

/-- An event is dead-lettered by the dispatcher and replayed, and is refused. -/
theorem dead_letter_replayed_in_vain : ∃ w ps w' event,
    PoolReaches (sessions .postgres false)
      (.start 0 (hookDb ⟨1, by decide⟩ (hookEvent "delivery" largePayload)),
        callPool plainRuntime .postgres fun _ => .dispatch 1) (w, ps) ∧
    event ∈ w.tx.db.events ∧ event.status = .deadLettered ∧
    Finishes (session .postgres false 0) w
      (replayEvent .postgres "acme" event.triggerId event.eventId) w' (.ok .requeued) ∧
    ¬ AsFresh plainRuntime .postgres (hookEvent "delivery" largePayload)
      (hookTrigger ⟨1, by decide⟩) w' := by
  let db := hookDb ⟨1, by decide⟩ (hookEvent "delivery" largePayload)
  have hstart : Watched (hookEvent "delivery" largePayload) (hookTrigger ⟨1, by decide⟩) db
      (hookEvent "delivery" largePayload) (hookTrigger ⟨1, by decide⟩) :=
    .start (hookDb_keys _ _ _) List.mem_cons_self List.mem_cons_self rfl rfl rfl rfl
  have hfree : ¬ db.KeyTaken "hook" "delivery" := by
    intro htaken
    obtain ⟨_, hrow, _⟩ := htaken
    cases hrow
  obtain ⟨w, ps, out, hreach, hdispatch⟩ := exists_poolDispatch plainRuntime .postgres 1 0 db
  obtain ⟨now, trigger, h, htaken, hclosed⟩ := attempt_first (w := .start 0 db) hstart
    (fun _ => rfl) largePayload_tooLarge hfree (hookDb_first _ _ _ _) hdispatch
  obtain ⟨w', hreplay⟩ : ∃ w', Finishes (session .postgres false 0) w
      (replayEvent .postgres "acme" "hook" "delivery") w' (.ok .requeued) :=
    exists_replay h.keys hclosed h.eventMem rfl h.trigger? rfl h.sameTrigger.tenantId
  refine ⟨w, ps, w', _, hreach, h.eventMem, rfl, hreplay, ?_⟩
  obtain ⟨hclosed', hledger, now', h'⟩ := replayed h hclosed rfl hreplay
  rw [asFresh_iff h' hclosed' rfl rfl]
  unfold Db.KeyTaken
  rw [hledger]
  exact fun hnot => hnot htaken

end Trigger
end SecureAgnt

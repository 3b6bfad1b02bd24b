/-
One event among all the others.

`Untouched` says that a change of the tables has nothing to do with the event, its
trigger and its entry in the ledger.  Scheduled triggers and other events never touch
it.  When everything else has settled and its time has come, the event is the next in
line.
-/
import SecureAgnt.Trigger.Stage

namespace SecureAgnt
namespace Trigger

open Storage
open Handler
open Runs (TriggerDispatchRecord)

/-! ## What stays the same -/

/-- The same event, at whatever stage. -/
structure SameEvent (event₀ event : EventRow) : Prop where
  id : event.id = event₀.id
  triggerId : event.triggerId = event₀.triggerId
  eventId : event.eventId = event₀.eventId
  payloadJson : event.payloadJson = event₀.payloadJson

theorem SameEvent.change {event₀ event : EventRow} (now : Int) (change : EventChange)
    (h : SameEvent event₀ event) : SameEvent event₀ (change.row now event) := by
  cases change with
  | process => exact ⟨h.id, h.triggerId, h.eventId, h.payloadJson⟩
  | fail deadLetter eventError => exact ⟨h.id, h.triggerId, h.eventId, h.payloadJson⟩
  | requeue => exact ⟨h.id, h.triggerId, h.eventId, h.payloadJson⟩

/-- The same trigger, open for events and with the same number of attempts. -/
structure SameTrigger (trigger₀ trigger : TriggerRow) : Prop where
  id : trigger.id = trigger₀.id
  tenantId : trigger.tenantId = trigger₀.tenantId
  enabled : trigger.enabled = true
  alive : trigger.deadLetteredAt = none
  webhook : trigger.triggerType = .webhook
  maxAttempts : trigger.maxAttempts = trigger₀.maxAttempts

/-- The event, its trigger and its entry in the ledger are as before. -/
structure Untouched (event₀ : EventRow) (trigger₀ : TriggerRow) (db db' : Db) : Prop where
  event : ∀ event ∈ db.events, event.id = event₀.id → event ∈ db'.events
  trigger : ∀ trigger ∈ db.triggers, SameTrigger trigger₀ trigger →
    ∃ trigger' ∈ db'.triggers, SameTrigger trigger₀ trigger'
  ledger : db'.KeyTaken trigger₀.id event₀.eventId ↔ db.KeyTaken trigger₀.id event₀.eventId

/-- Time passes, and anything may happen to other triggers, events and runs. -/
structure Elsewhere (event₀ : EventRow) (trigger₀ : TriggerRow) (w w' : TriggerWorld) : Prop where
  clock : w.clock ≤ w'.clock
  closed : ∀ j, w'.tx.sessions j = none
  keys : w'.tx.db.entries.Nodup
  db : Untouched event₀ trigger₀ w.tx.db w'.tx.db

section Steps

variable {b : Backend} {event₀ : EventRow} {trigger₀ : TriggerRow}
  {db db' : Db} {since tenantMax : Int}

theorem Untouched.refl (event₀ : EventRow) (trigger₀ : TriggerRow) (db : Db) :
    Untouched event₀ trigger₀ db db :=
  ⟨fun _ hevent _ => hevent, fun trigger htrigger hsame => ⟨trigger, htrigger, hsame⟩, Iff.rfl⟩

theorem Untouched.trans {db'' : Db} (h : Untouched event₀ trigger₀ db db')
    (h' : Untouched event₀ trigger₀ db' db'') : Untouched event₀ trigger₀ db db'' := by
  refine ⟨?_, ?_, h'.ledger.trans h.ledger⟩
  · intro event hevent hid
    exact h'.event event (h.event event hevent hid) hid
  · intro trigger htrigger hsame
    obtain ⟨trigger', htrigger', hsame'⟩ := h.trigger trigger htrigger hsame
    exact h'.trigger trigger' htrigger' hsame'

/-- A run is of no matter here. -/
theorem untouched_insertRun (run : RunRecord) :
    Untouched event₀ trigger₀ db (db.insertRun run) :=
  ⟨fun _ hevent _ => hevent, fun trigger htrigger hsame => ⟨trigger, htrigger, hsame⟩, Iff.rfl⟩

theorem untouched_insertTriggerRun {row : TriggerRunRow}
    (hne : ¬ (row.triggerId = trigger₀.id ∧ row.dedupeKey = event₀.eventId)) :
    Untouched event₀ trigger₀ db (db.insertTriggerRun row) := by
  refine ⟨fun _ hevent _ => hevent, fun trigger htrigger hsame => ⟨trigger, htrigger, hsame⟩, ?_⟩
  rw [keyTaken_insertTriggerRun]
  exact or_iff_left hne

theorem untouched_changeEvent {id : String} (hne : id ≠ event₀.id) (f : EventRow → EventRow) :
    Untouched event₀ trigger₀ db (db.changeEvent id f) := by
  refine ⟨?_, fun trigger htrigger hsame => ⟨trigger, htrigger, hsame⟩, Iff.rfl⟩
  intro event hevent hid
  exact mem_changeRow_other hevent fun heq => hne (heq.symm.trans hid)

theorem untouched_changeTrigger {id : String} {f : TriggerRow → TriggerRow}
    (hf : id = trigger₀.id → ∀ trigger, SameTrigger trigger₀ trigger →
      SameTrigger trigger₀ (f trigger)) :
    Untouched event₀ trigger₀ db (db.changeTrigger id f) := by
  refine ⟨fun _ hevent _ => hevent, ?_, Iff.rfl⟩
  intro trigger htrigger hsame
  by_cases hid : trigger.id = id
  · exact ⟨f trigger, mem_changeRow_same htrigger hid, hf (hid.symm.trans hsame.id) trigger hsame⟩
  · exact ⟨trigger, mem_changeRow_other htrigger hid, hsame⟩

theorem SameTrigger.touch {trigger : TriggerRow} (now : Int) (h : SameTrigger trigger₀ trigger) :
    SameTrigger trigger₀ (TriggerChange.row now .touch trigger) :=
  ⟨h.id, h.tenantId, h.enabled, h.alive, h.webhook, h.maxAttempts⟩

/-- The event in the tables with its trigger. -/
structure Watched (event₀ : EventRow) (trigger₀ : TriggerRow) (db : Db) (event : EventRow)
    (trigger : TriggerRow) : Prop where
  keys : db.entries.Nodup
  eventMem : event ∈ db.events
  sameEvent : SameEvent event₀ event
  triggerMem : trigger ∈ db.triggers
  sameTrigger : SameTrigger trigger₀ trigger
  parent : event₀.triggerId = trigger₀.id

/-- The rows as they stand in the tables. -/
theorem Watched.start (hkeys : db.entries.Nodup) (hevent : event₀ ∈ db.events)
    (htrigger : trigger₀ ∈ db.triggers) (hparent : event₀.triggerId = trigger₀.id)
    (henabled : trigger₀.enabled = true) (halive : trigger₀.deadLetteredAt = none)
    (hwebhook : trigger₀.triggerType = .webhook) : Watched event₀ trigger₀ db event₀ trigger₀ :=
  ⟨hkeys, hevent, ⟨rfl, rfl, rfl, rfl⟩, htrigger, ⟨rfl, rfl, henabled, halive, hwebhook, rfl⟩,
    hparent⟩

theorem Watched.trigger? {event : EventRow} {trigger : TriggerRow}
    (h : Watched event₀ trigger₀ db event trigger) :
    db.trigger? event.triggerId = some trigger := by
  refine (Table.find_eq_some_iff (nodup_triggers h.keys)).mpr ⟨h.triggerMem, ?_⟩
  rw [h.sameTrigger.id, ← h.parent, ← h.sameEvent.triggerId]

theorem Watched.untouched {event : EventRow} {trigger : TriggerRow}
    (h : Watched event₀ trigger₀ db event trigger) (hdb : Untouched event₀ trigger₀ db db')
    (hkeys : db'.entries.Nodup) : ∃ trigger', Watched event₀ trigger₀ db' event trigger' := by
  obtain ⟨trigger', hmem, hsame⟩ := hdb.trigger trigger h.triggerMem h.sameTrigger
  exact ⟨trigger', hkeys, hdb.event event h.eventMem h.sameEvent.id, h.sameEvent, hmem, hsame,
    h.parent⟩

/-- An attempt on the event itself. -/
theorem Watched.fail {event : EventRow} {trigger : TriggerRow} {row : TriggerRunRow} {now : Int}
    {change : EventChange} (h : Watched event₀ trigger₀ db event trigger)
    (hdb : db' = (db.insertTriggerRun row).changeEvent event.id (change.row now))
    (hkeys : db'.entries.Nodup) :
    Watched event₀ trigger₀ db' (change.row now event) trigger := by
  subst hdb
  exact ⟨hkeys, mem_changeRow_same h.eventMem rfl, h.sameEvent.change now change, h.triggerMem,
    h.sameTrigger, h.parent⟩

/-- A scheduled trigger is another one. -/
theorem Watched.scheduled_ne {now : Int} {type : TriggerType} {event : EventRow}
    {trigger due : TriggerRow} (h : Watched event₀ trigger₀ db event trigger)
    (htype : type ≠ .webhook)
    (hfirst : (dueTriggers b now db type tenantMax).head? = some due) : due.id ≠ trigger₀.id := by
  intro hid
  obtain ⟨hdue, _, hdueType, _⟩ := mem_dueTriggers.mp (List.mem_of_head? hfirst)
  have heq : due = trigger := List.inj_on_of_nodup_map (nodup_triggers h.keys) hdue h.triggerMem
    (hid.trans h.sameTrigger.id.symm)
  rw [heq, h.sameTrigger.webhook] at hdueType
  exact htype hdueType.symm

theorem slotStage_untouched {type : TriggerType} {event : EventRow} {trigger : TriggerRow}
    {r : Except DbError (Option TriggerDispatchRecord)}
    (h : Watched event₀ trigger₀ db event trigger) (htype : type ≠ .webhook)
    (hstage : SlotStage b type tenantMax db since db' r) :
    Untouched event₀ trigger₀ db db' ∧
      ∀ key, r ≠ .error (.uniqueViolation (.dedupeKey trigger₀.id key)) := by
  cases hstage with
  | idle _ _ => exact ⟨.refl _ _ db, nofun⟩
  | clash _ hfirst _ =>
    have hne := h.scheduled_ne htype hfirst
    refine ⟨.refl _ _ db, fun key heq => hne ?_⟩
    simp only [Except.error.injEq, DbError.uniqueViolation.injEq, Resource.dedupeKey.injEq] at heq
    exact heq.1
  | skipped row change _ hfirst _ hid _ =>
    have hne := h.scheduled_ne htype hfirst
    refine ⟨?_, nofun⟩
    exact (untouched_insertTriggerRun fun heq => hne (hid.symm.trans heq.1)).trans
      (untouched_changeTrigger fun heq => absurd heq hne)
  | fired run row _ hfirst _ hid _ =>
    have hne := h.scheduled_ne htype hfirst
    refine ⟨?_, nofun⟩
    exact ((untouched_insertRun run).trans
      (untouched_insertTriggerRun fun heq => hne (hid.symm.trans heq.1))).trans
        (untouched_changeTrigger fun heq => absurd heq hne)

/-- The scheduled triggers leave the event alone. -/
theorem timerStage_untouched {event : EventRow} {trigger : TriggerRow}
    {r : Except DbError (Option TriggerDispatchRecord)}
    (h : Watched event₀ trigger₀ db event trigger)
    (hstage : TimerStage b tenantMax db since db' r) :
    Untouched event₀ trigger₀ db db' ∧
      ∀ key, r ≠ .error (.uniqueViolation (.dedupeKey trigger₀.id key)) := by
  cases hstage with
  | cron hcron _ => exact slotStage_untouched h (by nofun) hcron
  | interval hcron hkeys₁ hinterval =>
    obtain ⟨hdb₁, _⟩ := slotStage_untouched h (by nofun) hcron
    obtain ⟨trigger₁, h₁⟩ := h.untouched hdb₁ hkeys₁
    obtain ⟨hdb', herror⟩ := slotStage_untouched h₁ (by nofun) hinterval
    exact ⟨hdb₁.trans hdb', herror⟩

/-- A due event is the watched one with its trigger, or it has another row and
another entry in the ledger. -/
theorem Watched.due_cases {now : Int} {event due : EventRow} {trigger dueTrigger : TriggerRow}
    (h : Watched event₀ trigger₀ db event trigger)
    (hfirst : (dueEvents b now db tenantMax).head? = some (due, dueTrigger)) :
    due = event ∧ dueTrigger = trigger ∧ event.status = .pending ∨
      due.id ≠ event₀.id ∧ ¬ (dueTrigger.id = trigger₀.id ∧ due.eventId = event₀.eventId) := by
  obtain ⟨hdue, hdueTrigger, hisDue⟩ := mem_dueEvents.mp (List.mem_of_head? hfirst)
  by_cases heq : due = event
  · subst heq
    have hsome : some dueTrigger = some trigger := hdueTrigger.symm.trans h.trigger?
    simp only [isDueEvent, Bool.and_eq_true, decide_eq_true_eq] at hisDue
    exact .inl ⟨rfl, Option.some.inj hsome, hisDue.1.1.1⟩
  · refine .inr ⟨?_, ?_⟩
    · intro hid
      exact heq (List.inj_on_of_nodup_map (nodup_events h.keys) hdue h.eventMem
        (hid.trans h.sameEvent.id.symm))
    · intro hkey
      have htriggerId : due.triggerId = dueTrigger.id := (Table.key_of_find hdueTrigger).2.symm
      refine heq (List.inj_on_of_nodup_map (nodup_eventIds h.keys) hdue h.eventMem ?_)
      rw [htriggerId, hkey.1, hkey.2, h.sameEvent.triggerId, h.parent, h.sameEvent.eventId]

end Steps

/-! ## Its turn -/

/-- The other events are processed and all runs are over. -/
def Db.quiet (db : Db) (eventRowId : String) : Db :=
  { db with
    events := db.events.map fun row =>
      if row.id = eventRowId then row else { row with status := .processed }
    runs := db.runs.map fun run => { run with status := .succeeded } }

/-- The tables are quiet and the event's next attempt is due. -/
def TriggerWorld.later (w : TriggerWorld) (event : EventRow) : TriggerWorld :=
  { w with
    clock := max w.clock event.nextAttemptAt
    tx := { w.tx with db := w.tx.db.quiet event.id } }

section Turn

variable {b : Backend} {event₀ : EventRow} {trigger₀ : TriggerRow} {db : Db}

theorem entries_quiet (eventRowId : String) : (db.quiet eventRowId).entries = db.entries := by
  have hevents : (db.quiet eventRowId).events.flatMap (·.entries) =
      db.events.flatMap (·.entries) := by
    rw [List.flatMap_def, List.flatMap_def]
    show List.flatten (List.map _ (List.map _ db.events)) = _
    rw [List.map_map]
    congr 1
    apply List.map_congr_left
    intro row _
    show EventRow.entries (if row.id = eventRowId then row else _) = _
    split
    · rfl
    · rfl
  have hruns : (db.quiet eventRowId).runs.map (Resource.runKey ·.id) =
      db.runs.map (Resource.runKey ·.id) := by
    show List.map _ (List.map _ db.runs) = _
    rw [List.map_map]
    rfl
  unfold Db.entries
  rw [hevents, hruns]
  rfl

theorem mem_events_quiet {event : EventRow} (h : event ∈ db.events) :
    event ∈ (db.quiet event.id).events :=
  List.mem_map.mpr ⟨event, h, if_pos rfl⟩

theorem quiet_others {eventRowId : String} {row : EventRow}
    (h : row ∈ (db.quiet eventRowId).events) (hne : row.id ≠ eventRowId) :
    row.status = .processed := by
  obtain ⟨before, _, rfl⟩ := List.mem_map.mp h
  split at hne
  · rename_i hid
    exact absurd hid hne
  · rename_i hid
    rw [if_neg hid]

theorem quiet_inflight {eventRowId : String} {run : RunRecord}
    (h : run ∈ (db.quiet eventRowId).runs) : run.isInflight = false := by
  obtain ⟨before, _, rfl⟩ := List.mem_map.mp h
  rfl

theorem quiet_mayFire {eventRowId : String} {trigger : TriggerRow}
    (h : SameTrigger trigger₀ trigger) : (db.quiet eventRowId).mayFire 1 trigger = true := by
  have htrigger : (db.quiet eventRowId).triggerInflight trigger.id = 0 := by
    refine List.countP_eq_zero.mpr fun row _ hcounted => ?_
    simp only [Bool.and_eq_true, List.any_eq_true] at hcounted
    obtain ⟨_, run, hrun, _, hinflight⟩ := hcounted
    rw [quiet_inflight hrun] at hinflight
    cases hinflight
  have htenant : (db.quiet eventRowId).tenantInflight trigger.tenantId = 0 := by
    refine List.countP_eq_zero.mpr fun run hrun hcounted => ?_
    simp only [Bool.and_eq_true] at hcounted
    rw [quiet_inflight hrun] at hcounted
    cases hcounted.2
  have hpos := trigger.maxInflightRuns_pos
  simp only [Db.mayFire, h.enabled, h.alive, htrigger, htenant, Option.isNone_none, Bool.true_and,
    Bool.and_eq_true, decide_eq_true_eq]
  omega

variable {w : TriggerWorld} {event : EventRow} {trigger : TriggerRow}

theorem elsewhere_later (h : Watched event₀ trigger₀ w.tx.db event trigger)
    (hclosed : ∀ j, w.tx.sessions j = none) : Elsewhere event₀ trigger₀ w (w.later event) := by
  refine ⟨Int.le_max_left _ _, hclosed, ?_, ?_, fun trigger htrigger hsame =>
    ⟨trigger, htrigger, hsame⟩, Iff.rfl⟩
  · show (w.tx.db.quiet event.id).entries.Nodup
    rw [entries_quiet]
    exact h.keys
  · intro row hrow hid
    exact List.mem_map.mpr ⟨row, hrow, if_pos (hid.trans h.sameEvent.id.symm)⟩

theorem watched_later (h : Watched event₀ trigger₀ w.tx.db event trigger) :
    Watched event₀ trigger₀ (w.later event).tx.db event trigger := by
  refine ⟨?_, mem_events_quiet h.eventMem, h.sameEvent, h.triggerMem, h.sameTrigger, h.parent⟩
  show (w.tx.db.quiet event.id).entries.Nodup
  rw [entries_quiet]
  exact h.keys

theorem firstInLine_later (h : Watched event₀ trigger₀ w.tx.db event trigger)
    (hpending : event.status = .pending) :
    FirstInLine b 1 (w.later event).clock (w.later event).tx.db event trigger := by
  intro now hnow
  have hlater := watched_later h
  have hstamp : b.stamp event.nextAttemptAt ≤ b.stamp now :=
    Int.le_trans (b.stamp_mono (Int.le_max_right _ _)) hnow
  have hdue : isDueEvent b now (w.later event).tx.db (max 1 1) (event, trigger) = true := by
    simp only [isDueEvent, hpending, hstamp, h.sameTrigger.webhook, decide_true, Bool.true_and,
      Bool.and_true]
    exact quiet_mayFire h.sameTrigger
  rw [dueEvents_only hlater.keys hlater.eventMem hlater.trigger? hdue]
  · rfl
  · intro row hrow hne other _
    simp [isDueEvent, quiet_others hrow hne]

theorem resting_later (h : Watched event₀ trigger₀ w.tx.db event trigger)
    (hclosed : ∀ j, w.tx.sessions j = none) :
    Resting (w.later event).tx.db (w.later event).clock (w.later event) :=
  ⟨⟨rfl, hclosed, Int.le_refl _⟩, (watched_later h).keys⟩

/-- When its turn comes and its key is taken, the call fails. -/
theorem clash_later {rt : TriggerRuntime} {i : Nat} {w' : TriggerWorld}
    {out : Except DbError (Option TriggerDispatchRecord)}
    (h : Watched event₀ trigger₀ w.tx.db event trigger) (hclosed : ∀ j, w.tx.sessions j = none)
    (hpending : event.status = .pending) (htaken : w.tx.db.KeyTaken trigger₀.id event₀.eventId)
    (hcall : Dispatches rt b i 1 (w.later event) w' out) :
    out = .error (.uniqueViolation (.dedupeKey trigger₀.id event₀.eventId)) := by
  obtain ⟨db₁, w₁, r, hstage, _, hend⟩ := dispatches_cases (resting_later h hclosed) hcall
  have htaken' : (w.later event).tx.db.KeyTaken trigger.id event.eventId := by
    rw [h.sameTrigger.id, h.sameEvent.eventId]
    exact htaken
  rcases eventStage_first (firstInLine_later h hpending) hstage with ⟨_, _, hr⟩ | ⟨hfree, _⟩ |
    ⟨hfree, _⟩
  · rw [h.sameTrigger.id, h.sameEvent.eventId] at hr
    rcases hend with ⟨_, _, hout⟩ | ⟨hnone, _⟩
    · exact hout.trans hr
    · rw [hr] at hnone
      cases hnone
  · exact absurd htaken' hfree
  · exact absurd htaken' hfree

/-- An attempt on too large a payload is counted and entered. -/
theorem attempt_first {rt : TriggerRuntime} {i : Nat} {tenantMax : Int} {w' : TriggerWorld}
    {out : Except DbError (Option TriggerDispatchRecord)}
    (h : Watched event₀ trigger₀ w.tx.db event trigger) (hclosed : ∀ j, w.tx.sessions j = none)
    (hlarge : rt.tooLarge event₀.payloadJson = true)
    (hfree : ¬ w.tx.db.KeyTaken trigger₀.id event₀.eventId)
    (hfirst : FirstInLine b tenantMax w.clock w.tx.db event trigger)
    (hcall : Dispatches rt b i tenantMax w w' out) :
    ∃ now trigger', Watched event₀ trigger₀ w'.tx.db (EventChange.row now
        (.fail (decide (event.attempts + 1 ≥ trigger.maxAttempts)) eventPayloadTooLarge) event)
        trigger' ∧
      w'.tx.db.KeyTaken trigger₀.id event₀.eventId ∧ ∀ j, w'.tx.sessions j = none := by
  have hrest : Resting w.tx.db w.clock w := ⟨⟨rfl, hclosed, Int.le_refl _⟩, h.keys⟩
  obtain ⟨db₁, w₁, r, hstage, hrest₁, hend⟩ := dispatches_cases hrest hcall
  rcases eventStage_first hfirst hstage with ⟨htaken, _⟩ |
    ⟨_, _, rfl, row, now, _, hid, hrow, hdb₁⟩ | ⟨_, hfits, _⟩
  · rw [h.sameTrigger.id, h.sameEvent.eventId] at htaken
    exact absurd htaken hfree
  · have h₁ := h.fail hdb₁ (hrest₁.db ▸ hrest₁.keys)
    have htaken₁ : db₁.KeyTaken trigger₀.id event₀.eventId := by
      rw [hdb₁]
      exact keyTaken_insertTriggerRun.mpr (.inr ⟨hid.trans h.sameTrigger.id,
        hrow.dedupeKey.trans h.sameEvent.eventId⟩)
    -- the scheduled triggers leave all this as it is
    rcases hend with ⟨hnone, _⟩ | ⟨_, _, htimer⟩
    · exact absurd rfl hnone
    · obtain ⟨db', hrest', htimer⟩ := finishes_timer hrest₁ htimer
      obtain ⟨hdb', _⟩ := timerStage_untouched h₁ htimer
      obtain ⟨trigger', h'⟩ := h₁.untouched hdb' (hrest'.db ▸ hrest'.keys)
      rw [hrest'.db]
      exact ⟨now, trigger', h', hdb'.ledger.mpr htaken₁, hrest'.closed⟩
  · rw [h.sameEvent.payloadJson, hlarge] at hfits
    cases hfits

end Turn

end Trigger
end SecureAgnt

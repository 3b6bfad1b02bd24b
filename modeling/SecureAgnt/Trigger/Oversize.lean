/-
A webhook event whose payload is too large.

Each attempt on such an event is meant to fail and be counted until the event is
dead-lettered.  `DeadLetters` states this of every sequence of dispatch calls with
anything else happening in between.  An attempt enters the ledger under the event's
own identifier, so a second attempt is refused by the unique index, and with it the
whole call: the event is dead-lettered as meant exactly if one attempt is enough.
-/
import SecureAgnt.Trigger.Once
import SecureAgnt.Trigger.Watch

namespace SecureAgnt
namespace Trigger

open Storage
open Handler
open Runs (TriggerDispatchRecord)

/-! ## Rounds -/

inductive Round (rt : TriggerRuntime) (b : Backend) (event₀ : EventRow) (trigger₀ : TriggerRow)
    (w w' : TriggerWorld) : Prop
  | elsewhere (h : Elsewhere event₀ trigger₀ w w')
  | call {i : Nat} {tenantMax : Int} {out : Except DbError (Option TriggerDispatchRecord)}
      (h : Dispatches rt b i tenantMax w w' out)

/-- Not dead-lettered before the last attempt, and then for good. -/
def Counted (trigger₀ : TriggerRow) (event : EventRow) : Prop :=
  event.status = .pending ∧ event.attempts < trigger₀.maxAttempts ∨
    event.status = .deadLettered ∧ event.attempts = trigger₀.maxAttempts

/-- The event got one more attempt and stands back: it is not due again for half a
minute. -/
def Attempted (b : Backend) (since : Int) (event : EventRow) (db : Db) : Prop :=
  ∃ event' ∈ db.events, event'.id = event.id ∧ event'.attempts = event.attempts + 1 ∧
    ∀ now tenantMax trigger, b.stamp now < b.stamp (since + thirtySeconds) →
      isDueEvent b now db tenantMax (event', trigger) = false

/-- What is meant to happen to the event, whatever comes in between: its attempts are
counted up to the dead letter, every call returns and none fails on it, and a call
that reaches it counts an attempt and goes on to the other kinds of triggers. -/
def DeadLetters (rt : TriggerRuntime) (b : Backend) (event₀ : EventRow) (trigger₀ : TriggerRow)
    (start : TriggerWorld) : Prop :=
  ∀ w, Relation.ReflTransGen (Round rt b event₀ trigger₀) start w →
    (∃ event ∈ w.tx.db.events, event.id = event₀.id ∧ Counted trigger₀ event) ∧
    ∀ i tenantMax, (∃ w' out, Dispatches rt b i tenantMax w w' out) ∧
      ∀ w' out, Dispatches rt b i tenantMax w w' out →
        out ≠ .error (.uniqueViolation (.dedupeKey trigger₀.id event₀.eventId)) ∧
        ∀ event trigger, event.id = event₀.id →
          FirstInLine b tenantMax w.clock w.tx.db event trigger →
          ∃ w₁, Finishes (session b false i) w (dispatchNextDueWebhookEvent rt b tenantMax) w₁
              (.ok none) ∧
            Attempted b w.clock event w₁.tx.db ∧
            Finishes (session b false i) w₁ (dispatchNextDueTimer rt b tenantMax) w' out

section Steps

variable {rt : TriggerRuntime} {b : Backend} {event₀ : EventRow} {trigger₀ : TriggerRow}
  {db db' : Db} {since tenantMax : Int}

/-- The call looks elsewhere, or it fails on the event's key, or it counts an attempt
on the event. -/
theorem eventStage_cases {event : EventRow} {trigger : TriggerRow}
    {r : Except DbError (Option TriggerDispatchRecord)}
    (h : Watched event₀ trigger₀ db event trigger)
    (hlarge : rt.tooLarge event₀.payloadJson = true)
    (hstage : EventStage rt b tenantMax db since db' r) :
    (Untouched event₀ trigger₀ db db' ∧
      r ≠ .error (.uniqueViolation (.dedupeKey trigger₀.id event₀.eventId))) ∨
    (event.status = .pending ∧ db.KeyTaken trigger₀.id event₀.eventId) ∨
    (event.status = .pending ∧ ¬ db.KeyTaken trigger₀.id event₀.eventId ∧ r = .ok none ∧
      ∃ row now, row.triggerId = trigger₀.id ∧ row.dedupeKey = event₀.eventId ∧
        db' = (db.insertTriggerRun row).changeEvent event.id (EventChange.row now
          (.fail (decide (event.attempts + 1 ≥ trigger.maxAttempts)) eventPayloadTooLarge))) := by
  cases hstage with
  | idle _ _ => exact .inl ⟨.refl _ _ db, nofun⟩
  | clash _ hfirst htaken =>
    rcases h.due_cases hfirst with ⟨rfl, rfl, hpending⟩ | ⟨_, hne⟩
    · rw [h.sameTrigger.id, h.sameEvent.eventId] at htaken
      exact .inr (.inl ⟨hpending, htaken⟩)
    · refine .inl ⟨.refl _ _ db, fun heq => hne ?_⟩
      simpa using heq
  | failed row _ hfirst hfree _ _ hid hrow =>
    rcases h.due_cases hfirst with ⟨rfl, rfl, hpending⟩ | ⟨hne, hne'⟩
    · rw [h.sameTrigger.id, h.sameEvent.eventId] at hfree
      refine .inr (.inr ⟨hpending, hfree, rfl, row, _, hid.trans h.sameTrigger.id, ?_, rfl⟩)
      exact hrow.dedupeKey.trans h.sameEvent.eventId
    · refine .inl ⟨(untouched_insertTriggerRun ?_).trans (untouched_changeEvent hne _), nofun⟩
      rw [hid, hrow.dedupeKey]
      exact hne'
  | fired run row _ hfirst _ hfits hid hrow =>
    rcases h.due_cases hfirst with ⟨rfl, _, _⟩ | ⟨hne, hne'⟩
    · rw [h.sameEvent.payloadJson, hlarge] at hfits
      cases hfits
    · refine .inl ⟨(((untouched_insertRun run).trans (untouched_insertTriggerRun ?_)).trans
        (untouched_changeEvent hne _)).trans
          (untouched_changeTrigger fun _ trigger hsame => hsame.touch _), nofun⟩
      rw [hid, hrow.dedupeKey]
      exact hne'

end Steps

/-! ## One attempt is enough -/

/-- The event waits for its only attempt, with its key free, or had it. -/
def OnTime (event₀ : EventRow) (trigger₀ : TriggerRow) (db : Db) (event : EventRow) : Prop :=
  event.status = .pending ∧ event.attempts = 0 ∧ ¬ db.KeyTaken trigger₀.id event₀.eventId ∨
    event.status = .deadLettered ∧ event.attempts = 1

section OneAttempt

variable {rt : TriggerRuntime} {b : Backend} {event₀ : EventRow} {trigger₀ : TriggerRow}
  {db db' : Db} {since tenantMax : Int}

/-- The invariant of the rounds. -/
def OneShot (event₀ : EventRow) (trigger₀ : TriggerRow) (db : Db) : Prop :=
  ∃ event trigger, Watched event₀ trigger₀ db event trigger ∧ OnTime event₀ trigger₀ db event

theorem OneShot.keys (h : OneShot event₀ trigger₀ db) : db.entries.Nodup := by
  obtain ⟨_, _, hwatched, _⟩ := h
  exact hwatched.keys

theorem OneShot.untouched (h : OneShot event₀ trigger₀ db)
    (hdb : Untouched event₀ trigger₀ db db') (hkeys : db'.entries.Nodup) :
    OneShot event₀ trigger₀ db' := by
  obtain ⟨event, trigger, hwatched, htime⟩ := h
  obtain ⟨trigger', hwatched'⟩ := hwatched.untouched hdb hkeys
  refine ⟨event, trigger', hwatched', ?_⟩
  unfold OnTime
  rw [hdb.ledger]
  exact htime

/-- The attempt dead-letters the event. -/
theorem OneShot.failed {event : EventRow} {trigger : TriggerRow} {row : TriggerRunRow} {now : Int}
    (hmax : trigger₀.maxAttempts = 1) (h : Watched event₀ trigger₀ db event trigger)
    (hattempts : event.attempts = 0)
    (hdb : db' = (db.insertTriggerRun row).changeEvent event.id (EventChange.row now
      (.fail (decide (event.attempts + 1 ≥ trigger.maxAttempts)) eventPayloadTooLarge)))
    (hkeys : db'.entries.Nodup) : OneShot event₀ trigger₀ db' := by
  have hlast : decide (event.attempts + 1 ≥ trigger.maxAttempts) = true := by
    rw [hattempts, h.sameTrigger.maxAttempts, hmax]
    rfl
  rw [hlast] at hdb
  refine ⟨_, trigger, h.fail hdb hkeys, .inr ⟨rfl, ?_⟩⟩
  show event.attempts + 1 = 1
  omega

theorem OneShot.eventStage {r : Except DbError (Option TriggerDispatchRecord)}
    (hmax : trigger₀.maxAttempts = 1) (hlarge : rt.tooLarge event₀.payloadJson = true)
    (h : OneShot event₀ trigger₀ db) (hstage : EventStage rt b tenantMax db since db' r)
    (hkeys : db'.entries.Nodup) :
    OneShot event₀ trigger₀ db' ∧
      r ≠ .error (.uniqueViolation (.dedupeKey trigger₀.id event₀.eventId)) := by
  have hshot := h
  obtain ⟨event, trigger, hwatched, htime⟩ := h
  rcases eventStage_cases hwatched hlarge hstage with ⟨hdb, herror⟩ | ⟨hpending, htaken⟩ |
    ⟨hpending, _, rfl, row, now, _, _, hdb⟩
  · exact ⟨hshot.untouched hdb hkeys, herror⟩
  · rcases htime with ⟨_, _, hfree⟩ | ⟨hdead, _⟩
    · exact absurd htaken hfree
    · rw [hdead] at hpending
      cases hpending
  · rcases htime with ⟨_, hattempts, _⟩ | ⟨hdead, _⟩
    · exact ⟨.failed hmax hwatched hattempts hdb hkeys, nofun⟩
    · rw [hdead] at hpending
      cases hpending

theorem OneShot.timerStage {r : Except DbError (Option TriggerDispatchRecord)}
    (h : OneShot event₀ trigger₀ db) (hstage : TimerStage b tenantMax db since db' r)
    (hkeys : db'.entries.Nodup) :
    OneShot event₀ trigger₀ db' ∧
      r ≠ .error (.uniqueViolation (.dedupeKey trigger₀.id event₀.eventId)) := by
  have hshot := h
  obtain ⟨event, trigger, hwatched, _⟩ := h
  obtain ⟨hdb, herror⟩ := timerStage_untouched hwatched hstage
  exact ⟨hshot.untouched hdb hkeys, herror _⟩

/-- A whole call keeps the invariant and does not fail on the event. -/
theorem OneShot.dispatches {i : Nat} {w w' : TriggerWorld}
    {out : Except DbError (Option TriggerDispatchRecord)} (hmax : trigger₀.maxAttempts = 1)
    (hlarge : rt.tooLarge event₀.payloadJson = true) (h : OneShot event₀ trigger₀ db)
    (hrest : Resting db since w) (hcall : Dispatches rt b i tenantMax w w' out) :
    (∃ db', OneShot event₀ trigger₀ db' ∧ Resting db' since w') ∧
      out ≠ .error (.uniqueViolation (.dedupeKey trigger₀.id event₀.eventId)) := by
  obtain ⟨db₁, w₁, r, hstage, hrest₁, hend⟩ := dispatches_cases hrest hcall
  obtain ⟨h₁, herror⟩ := h.eventStage hmax hlarge hstage (hrest₁.db ▸ hrest₁.keys)
  rcases hend with ⟨_, rfl, rfl⟩ | ⟨_, _, htimer⟩
  · exact ⟨⟨db₁, h₁, hrest₁⟩, herror⟩
  · obtain ⟨db', hrest', htimer⟩ := finishes_timer hrest₁ htimer
    obtain ⟨h', herror'⟩ := h₁.timerStage htimer (hrest'.db ▸ hrest'.keys)
    exact ⟨⟨db', h', hrest'⟩, herror'⟩

/-- A call that comes to the event counts its attempt and goes on. -/
theorem OneShot.attempted {i : Nat} {w w' : TriggerWorld}
    {out : Except DbError (Option TriggerDispatchRecord)} {event : EventRow} {trigger : TriggerRow}
    (hmax : trigger₀.maxAttempts = 1) (hlarge : rt.tooLarge event₀.payloadJson = true)
    (h : OneShot event₀ trigger₀ db) (hrest : Resting db since w)
    (hcall : Dispatches rt b i tenantMax w w' out) (hid : event.id = event₀.id)
    (hfirst : FirstInLine b tenantMax since db event trigger) :
    ∃ w₁, Finishes (session b false i) w (dispatchNextDueWebhookEvent rt b tenantMax) w₁
        (.ok none) ∧
      Attempted b since event w₁.tx.db ∧
      Finishes (session b false i) w₁ (dispatchNextDueTimer rt b tenantMax) w' out := by
  obtain ⟨event', trigger', hwatched, htime⟩ := h
  rcases hwatched.due_cases (hfirst since (Int.le_refl _)) with ⟨rfl, rfl, hpending⟩ | ⟨hne, _⟩
  · have hwaits : event.attempts = 0 ∧ ¬ db.KeyTaken trigger₀.id event₀.eventId := by
      rcases htime with ⟨_, hwaits⟩ | ⟨hdead, _⟩
      · exact hwaits
      · rw [hdead] at hpending
        cases hpending
    obtain ⟨db₁, w₁, r, hstage, hrest₁, hend⟩ := dispatches_cases hrest hcall
    rcases eventStage_first hfirst hstage with ⟨htaken, _, _⟩ |
      ⟨_, _, rfl, row, now, _, _, _, rfl⟩ | ⟨_, hfits, _⟩
    · rw [hwatched.sameTrigger.id, hwatched.sameEvent.eventId] at htaken
      exact absurd htaken hwaits.2
    · have hlast : decide (event.attempts + 1 ≥ trigger.maxAttempts) = true := by
        rw [hwaits.1, hwatched.sameTrigger.maxAttempts, hmax]
        rfl
      rcases hend with ⟨hnone, _⟩ | ⟨_, hevents, htimer⟩
      · exact absurd rfl hnone
      · refine ⟨w₁, hevents, ?_, htimer⟩
        rw [hrest₁.db, hlast]
        refine ⟨_, mem_changeRow_same hwatched.eventMem rfl, rfl, rfl, ?_⟩
        intro _ _ _ _
        rfl
    · rw [hwatched.sameEvent.payloadJson, hlarge] at hfits
      cases hfits
  · exact absurd hid hne

theorem oneShot_rounds {w w' : TriggerWorld} (hmax : trigger₀.maxAttempts = 1)
    (hlarge : rt.tooLarge event₀.payloadJson = true)
    (hstart : OneShot event₀ trigger₀ w.tx.db) (hclosed : ∀ j, w.tx.sessions j = none)
    (hrounds : Relation.ReflTransGen (Round rt b event₀ trigger₀) w w') :
    OneShot event₀ trigger₀ w'.tx.db ∧ ∀ j, w'.tx.sessions j = none := by
  induction hrounds with
  | refl => exact ⟨hstart, hclosed⟩
  | @tail w₁ w₂ _ hround ih =>
    obtain ⟨hshot, hclosed₁⟩ := ih
    cases hround with
    | elsewhere helse => exact ⟨hshot.untouched helse.db helse.keys, helse.closed⟩
    | call hcall =>
      have hrest : Resting w₁.tx.db w₁.clock w₁ := ⟨⟨rfl, hclosed₁, Int.le_refl _⟩, hshot.keys⟩
      obtain ⟨⟨db', hshot', hrest'⟩, _⟩ := hshot.dispatches hmax hlarge hrest hcall
      exact ⟨hrest'.db ▸ hshot', hrest'.closed⟩

theorem deadLetters_of_oneShot {w : TriggerWorld} (hmax : trigger₀.maxAttempts = 1)
    (hlarge : rt.tooLarge event₀.payloadJson = true)
    (hstart : OneShot event₀ trigger₀ w.tx.db) (hclosed : ∀ j, w.tx.sessions j = none) :
    DeadLetters rt b event₀ trigger₀ w := by
  intro w' hrounds
  obtain ⟨hshot, hclosed'⟩ := oneShot_rounds hmax hlarge hstart hclosed hrounds
  have hrest : Resting w'.tx.db w'.clock w' := ⟨⟨rfl, hclosed', Int.le_refl _⟩, hshot.keys⟩
  constructor
  · obtain ⟨event, trigger, hwatched, htime⟩ := hshot
    refine ⟨event, hwatched.eventMem, hwatched.sameEvent.id, ?_⟩
    rcases htime with ⟨hpending, hattempts, _⟩ | ⟨hdead, hattempts⟩
    · exact .inl ⟨hpending, by omega⟩
    · exact .inr ⟨hdead, by omega⟩
  · intro i tenantMax
    refine ⟨exists_dispatch hclosed' tenantMax, ?_⟩
    intro w'' out hcall
    refine ⟨(hshot.dispatches hmax hlarge hrest hcall).2, ?_⟩
    intro event trigger hid hfirst
    exact hshot.attempted hmax hlarge hrest hcall hid hfirst

end OneAttempt

/-! ## A second attempt -/

section SecondAttempt

variable {rt : TriggerRuntime} {b : Backend} {event₀ : EventRow} {trigger₀ : TriggerRow}
  {w : TriggerWorld} {event : EventRow} {trigger : TriggerRow}

/-- A pending event whose key is taken is in the way. -/
theorem not_deadLetters_of_taken {start : TriggerWorld}
    (hreach : Relation.ReflTransGen (Round rt b event₀ trigger₀) start w)
    (h : Watched event₀ trigger₀ w.tx.db event trigger) (hclosed : ∀ j, w.tx.sessions j = none)
    (hpending : event.status = .pending)
    (htaken : w.tx.db.KeyTaken trigger₀.id event₀.eventId) :
    ¬ DeadLetters rt b event₀ trigger₀ start := by
  intro hgood
  obtain ⟨w', out, hcall⟩ : ∃ w' out, Dispatches rt b 0 1 (w.later event) w' out :=
    exists_dispatch (resting_later h hclosed).closed 1
  have hrounds := hreach.tail (.elsewhere (elsewhere_later h hclosed))
  obtain ⟨herror, _⟩ := ((hgood _ hrounds).2 0 1).2 w' out hcall
  exact herror (clash_later h hclosed hpending htaken hcall)

/-- The first of several attempts takes the key and leaves the event pending. -/
theorem not_deadLetters_of_retries (h : Watched event₀ trigger₀ w.tx.db event trigger)
    (hclosed : ∀ j, w.tx.sessions j = none) (hpending : event.status = .pending)
    (hattempts : event.attempts = 0) (hlarge : rt.tooLarge event₀.payloadJson = true)
    (hfree : ¬ w.tx.db.KeyTaken trigger₀.id event₀.eventId) (hmax : 1 < trigger₀.maxAttempts) :
    ¬ DeadLetters rt b event₀ trigger₀ w := by
  obtain ⟨w', out, hcall⟩ : ∃ w' out, Dispatches rt b 0 1 (w.later event) w' out :=
    exists_dispatch (resting_later h hclosed).closed 1
  obtain ⟨now, trigger', h', htaken, hclosed'⟩ := attempt_first (watched_later h)
    (resting_later h hclosed).closed hlarge hfree (firstInLine_later h hpending) hcall
  have hlast : decide (event.attempts + 1 ≥ trigger.maxAttempts) = false := by
    rw [hattempts, h.sameTrigger.maxAttempts]
    exact decide_eq_false (by omega)
  rw [hlast] at h'
  have hrounds : Relation.ReflTransGen (Round rt b event₀ trigger₀) w w' :=
    (Relation.ReflTransGen.single (.elsewhere (elsewhere_later h hclosed))).tail (.call hcall)
  exact not_deadLetters_of_taken hrounds h' hclosed' rfl htaken

end SecondAttempt

/-! ## The exact condition -/

/-- A new event with too large a payload is dead-lettered as meant exactly if its
trigger allows one attempt and its key is free. -/
theorem oversize_dead_letters_iff (rt : TriggerRuntime) (b : Backend) (clock : Int) {db : Db}
    {event : EventRow} {trigger : TriggerRow} (hkeys : db.entries.Nodup)
    (hevent : event ∈ db.events) (htrigger : trigger ∈ db.triggers)
    (hparent : event.triggerId = trigger.id) (hpending : event.status = .pending)
    (hattempts : event.attempts = 0) (henabled : trigger.enabled = true)
    (halive : trigger.deadLetteredAt = none) (hwebhook : trigger.triggerType = .webhook)
    (hlarge : rt.tooLarge event.payloadJson = true) :
    DeadLetters rt b event trigger (.start clock db) ↔
      trigger.maxAttempts = 1 ∧ ¬ db.KeyTaken trigger.id event.eventId := by
  have hwatched : Watched event trigger db event trigger :=
    .start hkeys hevent htrigger hparent henabled halive hwebhook
  constructor
  · intro hgood
    have hfree : ¬ db.KeyTaken trigger.id event.eventId := by
      intro htaken
      exact not_deadLetters_of_taken (w := .start clock db) .refl hwatched (fun _ => rfl) hpending
        htaken hgood
    refine ⟨?_, hfree⟩
    by_contra hmax
    have hpos := trigger.maxAttempts_pos
    exact not_deadLetters_of_retries (w := .start clock db) hwatched (fun _ => rfl) hpending
      hattempts hlarge hfree (by omega) hgood
  · intro hcond
    exact deadLetters_of_oneShot hcond.1 hlarge
      ⟨event, trigger, hwatched, .inl ⟨hpending, hattempts, hcond.2⟩⟩ (fun _ => rfl)

def bodyPayload (n : Nat) : Json := .obj [("body", .str (String.ofList (List.replicate n 'x')))]

/-- A payload of 64 KiB and the few bytes around it. -/
def largePayload : Json := bodyPayload maxEventPayloadBytes

theorem len_replicate (n : Nat) : Text.len (String.ofList (List.replicate n 'x')) = n := by
  induction n with
  | zero => rfl
  | succ n ih =>
    have hlast : (String.ofList ['x']).utf8ByteSize = 1 := by decide
    rw [List.replicate_succ', String.ofList_append, Text.len, String.utf8ByteSize_append, hlast]
    exact congrArg (· + 1) ih

theorem bodyPayload_tooLarge {n : Nat} (h : maxEventPayloadBytes ≤ n) :
    plainRuntime.tooLarge (bodyPayload n) = true := by
  have hlen : plainRuntime.serializedLen (bodyPayload n) = 7 + Text.len "body" + n := by
    show 7 + Text.len "body" + Text.len (String.ofList (List.replicate n 'x')) = _
    rw [len_replicate]
  rw [TriggerRuntime.tooLarge, hlen]
  exact decide_eq_true (by omega)

theorem largePayload_tooLarge : plainRuntime.tooLarge largePayload = true :=
  bodyPayload_tooLarge (Nat.le_refl _)

theorem single_attempt_dead_letters :
    DeadLetters plainRuntime .postgres (hookEvent "delivery" largePayload)
      (hookTrigger ⟨1, by decide⟩)
      (.start 0 (hookDb ⟨1, by decide⟩ (hookEvent "delivery" largePayload))) := by
  refine (oversize_dead_letters_iff plainRuntime .postgres 0 (hookDb_keys _ _ _)
    List.mem_cons_self List.mem_cons_self rfl rfl rfl rfl rfl rfl largePayload_tooLarge).mpr
      ⟨rfl, ?_⟩
  intro htaken
  obtain ⟨_, hrow, _⟩ := htaken
  cases hrow

/-- With three attempts the second one is refused by the ledger. -/
theorem second_attempt_refused : plainRuntime.tooLarge largePayload = true ∧
    ¬ DeadLetters plainRuntime .postgres (hookEvent "delivery" largePayload)
      (hookTrigger ⟨3, by decide⟩)
      (.start 0 (hookDb ⟨3, by decide⟩ (hookEvent "delivery" largePayload))) := by
  refine ⟨largePayload_tooLarge, ?_⟩
  have hwatched : Watched (hookEvent "delivery" largePayload) (hookTrigger ⟨3, by decide⟩)
      (hookDb ⟨3, by decide⟩ (hookEvent "delivery" largePayload))
      (hookEvent "delivery" largePayload) (hookTrigger ⟨3, by decide⟩) :=
    .start (hookDb_keys _ _ _) List.mem_cons_self List.mem_cons_self rfl rfl rfl rfl
  refine not_deadLetters_of_retries (w := .start 0 _) hwatched (fun _ => rfl) rfl rfl
    largePayload_tooLarge ?_ (by decide)
  intro htaken
  obtain ⟨_, hrow, _⟩ := htaken
  cases hrow

end Trigger
end SecureAgnt

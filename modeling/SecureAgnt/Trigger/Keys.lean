/-
The kinds of firing share one column of dedupe keys.

A manual fire with a key and an event with that key, prefixed on Postgres and bare on
SQLite, fall on the same entry of the ledger, and on SQLite so does a key that reads
as an instant.  In the runs where no such keys meet, a fire is answered as a duplicate
only of a fire, and what stands under the identifier of an event was written for it.
-/
import SecureAgnt.Trigger.Decided
import SecureAgnt.Trigger.Once

namespace SecureAgnt
namespace Trigger

open Storage
open Handler

/-! ## Keys of different kinds -/

theorem manualKey_injective (b : Backend) : Function.Injective (manualKey b) := by
  intro k k' h
  cases b with
  | postgres => exact String.append_right_inj _ |>.mp h
  | sqlite => exact h

/-- No instant has an `m` in it. -/
theorem slotKey_ne_manual (scheduledFor : Int) (idempotencyKey : String) :
    slotKey scheduledFor ≠ manualKey .postgres idempotencyKey := by
  have hdigit : ∀ n : Nat, 'm' ∉ n.repr.toList := by
    intro n hmem
    rw [Nat.toList_repr] at hmem
    have hisDigit := Nat.isDigit_of_mem_toDigits (by decide) (by decide) hmem
    cases hisDigit
  have hslot : 'm' ∉ (slotKey scheduledFor).toList := by
    cases scheduledFor with
    | ofNat n => exact hdigit n
    | negSucc n =>
      show 'm' ∉ ("-" ++ (n + 1).repr).toList
      rw [String.toList_append, List.mem_append, not_or]
      exact ⟨by decide, hdigit (n + 1)⟩
  intro heq
  apply hslot
  rw [heq]
  show 'm' ∈ ("manual:" ++ idempotencyKey).toList
  rw [String.toList_append]
  exact List.mem_append_left _ (by decide)

/-- No key with which a trigger is fired by hand falls on one of its events or, where
keys have no prefix, on the instant it is scheduled for. -/
def Db.KeysApart (b : Backend) (calls : Nat → TriggerCall) (db : Db) : Prop :=
  ∀ triggerId idempotencyKey, FiredBy b calls triggerId idempotencyKey →
    (∀ event ∈ db.events, event.triggerId = triggerId →
      event.eventId ≠ manualKey b idempotencyKey) ∧
    (b = .sqlite → ∀ trigger ∈ db.triggers, trigger.id = triggerId →
      trigger.triggerType ≠ .webhook → slotKey trigger.nextFireAt ≠ manualKey b idempotencyKey)

/-- An instant on which no key of a manual fire falls. -/
def InstantApart (b : Backend) (calls : Nat → TriggerCall) (triggerId : String)
    (scheduledFor : Int) : Prop :=
  ∀ idempotencyKey, FiredBy b calls triggerId idempotencyKey →
    slotKey scheduledFor ≠ manualKey b idempotencyKey

/-- Every event is of a webhook, and every row of the ledger was entered for a
reason. -/
structure Accounted (b : Backend) (calls : Nat → TriggerCall) (db : Db) : Prop where
  keyed : db.LedgerKeyed b
  hooks : ∀ event ∈ db.events, db.HasTrigger event.triggerId .webhook
  entered : ∀ row ∈ db.ledger, Entered (InstantApart b calls) (FiredBy b calls) db row

section Invariant

variable {b : Backend} {calls : Nat → TriggerCall} {db db' : Db}

theorem instantApart (h : db.KeysApart b calls) {trigger : TriggerRow}
    (htrigger : trigger ∈ db.triggers) (htype : trigger.triggerType ≠ .webhook) :
    InstantApart b calls trigger.id trigger.nextFireAt := by
  intro idempotencyKey hfired
  cases b with
  | postgres => exact slotKey_ne_manual _ _
  | sqlite => exact (h trigger.id idempotencyKey hfired).2 rfl trigger htrigger rfl htype

theorem Entered.mono {seen : String → Int → Prop} {fires : String → String → Prop}
    {row : TriggerRunRow} (h : Entered seen fires db row) (hgrows : Grows db db') :
    Entered seen fires db' row := by
  cases h with
  | slot hsource htype htrigger hseen =>
    exact .slot hsource htype (hgrows.triggers _ _ htrigger) hseen
  | event hsource htrigger hevent =>
    exact .event hsource (hgrows.triggers _ _ htrigger) (hgrows.events _ _ _ hevent)
  | manual hsource hfires => exact .manual hsource hfires

/-- A commit adds an event only to a webhook. -/
theorem hooks_published {seen : String → Int → Prop} {fires : String → String → Prop}
    (hhooks : ∀ event ∈ db.events, db.HasTrigger event.triggerId .webhook)
    {edits : Write → Prop} (h : Published b seen fires edits db db') :
    ∀ event ∈ db'.events, db'.HasTrigger event.triggerId .webhook := by
  intro event hevent
  refine (grows_published h).triggers _ _ ?_
  cases h with
  | slot run row now nextFireAt => exact hhooks event hevent
  | slotSkipped row now change => exact hhooks event hevent
  | manual run row now => exact hhooks event hevent
  | edited hedits hedit => cases hedit <;> exact hhooks event hevent
  | event run row now now' =>
    obtain ⟨before, hbefore, rfl⟩ := List.mem_map.mp hevent
    split <;> exact hhooks before hbefore
  | eventFailed row now deadLetter eventError =>
    obtain ⟨before, hbefore, rfl⟩ := List.mem_map.mp hevent
    split <;> exact hhooks before hbefore
  | requeued rowId now =>
    obtain ⟨before, hbefore, rfl⟩ := List.mem_map.mp hevent
    split <;> exact hhooks before hbefore
  | enqueued row htrigger hpending =>
    rcases List.mem_append.mp hevent with hold | hnew
    · exact hhooks event hold
    · rw [List.mem_singleton.mp hnew]
      exact htrigger

theorem accounted_published (h : Accounted b calls db)
    {edits : Write → Prop}
    (hpublished : Published b (InstantApart b calls) (FiredBy b calls) edits db db') :
    Accounted b calls db' := by
  refine ⟨ledgerKeyed_published h.keyed hpublished, hooks_published h.hooks hpublished, ?_⟩
  intro row hrow
  refine Entered.mono ?_ (grows_published hpublished)
  rcases published_ledger hpublished with hsame | ⟨new, hledger, _, hentered⟩
  · exact h.entered row (hsame ▸ hrow)
  · rw [hledger] at hrow
    rcases List.mem_append.mp hrow with hold | hnew
    · exact h.entered row hold
    · rw [List.mem_singleton.mp hnew]
      exact hentered

/-- What stands under the key of a manual fire was written for such a fire. -/
theorem Accounted.manual {row : TriggerRunRow} {triggerId idempotencyKey : String}
    (h : Accounted b calls db) (hapart : db.KeysApart b calls) (hrow : row ∈ db.ledger)
    (hfired : FiredBy b calls triggerId idempotencyKey) (hid : row.triggerId = triggerId)
    (hkey : row.dedupeKey = manualKey b idempotencyKey) :
    row.source = .manual idempotencyKey := by
  subst hid
  have hkeyed := (h.keyed row hrow).symm.trans hkey
  cases h.entered row hrow with
  | slot hsource _ _ hseen =>
    rw [hsource] at hkeyed
    exact absurd hkeyed (hseen idempotencyKey hfired)
  | event hsource _ hevent =>
    rw [hsource] at hkeyed
    obtain ⟨event, hmem, _, htrigger, heventId⟩ := hevent
    exact absurd (heventId.trans hkeyed) ((hapart _ _ hfired).1 event hmem htrigger)
  | manual hsource _ =>
    rw [hsource] at hkeyed
    rw [hsource, manualKey_injective b hkeyed]

/-- What stands under the identifier of an event was written for the event. -/
theorem Accounted.event {row : TriggerRunRow} {event : EventRow} (h : Accounted b calls db)
    (hkeys : db.entries.Nodup) (hapart : db.KeysApart b calls) (hevent : event ∈ db.events)
    (hrow : row ∈ db.ledger) (hid : row.triggerId = event.triggerId)
    (hkey : row.dedupeKey = event.eventId) : row.source = .event event.eventId := by
  have hkeyed := (h.keyed row hrow).symm.trans hkey
  cases h.entered row hrow with
  | slot _ htype htrigger _ =>
    -- the trigger of an event is a webhook and fires at no instant
    obtain ⟨trigger, hmem, htriggerId, hscheduled⟩ := htrigger
    obtain ⟨hook, hmem', hhookId, hwebhook⟩ := h.hooks event hevent
    obtain rfl : trigger = hook := List.inj_on_of_nodup_map (nodup_triggers hkeys) hmem hmem'
      (by rw [htriggerId, hhookId, hid])
    exact absurd (hscheduled.symm.trans hwebhook) htype
  | event hsource _ _ =>
    rw [hsource] at hkeyed
    rw [hsource]
    exact congrArg _ hkeyed
  | manual hsource hfires =>
    rw [hsource] at hkeyed
    rw [hid] at hfires
    exact absurd hkeyed.symm ((hapart _ _ hfires).1 event hevent rfl)

end Invariant

/-! ## Every run -/

/-- In every run that begins with an empty ledger and whose states keep the keys
apart: a manual fire is answered as a duplicate only if a manual fire with the same key
was entered, and what stands in the way of an event in the ledger was written for that
event. -/
theorem dedupe_keys_apart (rt : TriggerRuntime) (b : Backend) (faults : Bool)
    (calls : Nat → TriggerCall) {clock : Int} {db : Db} {w : TriggerWorld}
    {ps : Nat → Prog (Nat × Stmt) (fun o => o.2.Ans) DbError TriggerOutcome}
    (hkeys : db.entries.Nodup) (hempty : db.ledger = [])
    (hhooks : ∀ event ∈ db.events, db.HasTrigger event.triggerId .webhook)
    (hreach : PoolReaches (sessionsIn b faults fun w => w.tx.db.KeysApart b calls)
      (.start clock db, callPool rt b calls) (w, ps))
    (hapart : w.tx.db.KeysApart b calls) :
    (∀ i tenantId triggerId idempotencyKey payload tenantMax runId,
      calls i = .fire tenantId triggerId idempotencyKey payload tenantMax →
      ps i = .pure (.fired (.duplicate runId)) →
      ∃ row ∈ w.tx.db.ledger, row.triggerId = triggerId ∧
        row.source = .manual (usedKey b idempotencyKey)) ∧
    ∀ event ∈ w.tx.db.events, ∀ row ∈ w.tx.db.ledger, row.triggerId = event.triggerId →
      row.dedupeKey = event.eventId → row.source = .event event.eventId := by
  have hseen : ∀ w : TriggerWorld, w.tx.db.KeysApart b calls → ∀ row ∈ w.tx.db.triggers,
      row.triggerType ≠ .webhook → InstantApart b calls row.id row.nextFireAt :=
    fun w hw row hrow htype => instantApart hw hrow htype
  have hstart : Accounted b calls db := by
    refine ⟨?_, hhooks, ?_⟩
    · intro row hrow
      rw [hempty] at hrow
      cases hrow
    · intro row hrow
      rw [hempty] at hrow
      cases hrow
  obtain ⟨htx, haccounted⟩ := invariant_of_callPool (I := Accounted b calls) hseen
    (fun _ _ _ _ _ hs hpublished => accounted_published hs hpublished) hkeys hstart hreach
  constructor
  · intro i tenantId triggerId idempotencyKey payload tenantMax runId hcall hdone
    have hwp := wp_of_pool callContract_compat (callPool_wp hseen) hreach i
    rw [hdone] at hwp
    have hfact := (hwp w ((callContract b (InstantApart b calls) calls i).rely_refl w)).2 _ rfl
    rw [hcall] at hfact
    obtain ⟨row, hrow, hid, hkey⟩ := hfact
    have hfired : FiredBy b calls triggerId (usedKey b idempotencyKey) :=
      ⟨i, tenantId, idempotencyKey, payload, tenantMax, hcall, rfl⟩
    exact ⟨row, hrow, hid, haccounted.manual hapart hrow hfired hid hkey⟩
  · intro event hevent row hrow hid hkey
    exact haccounted.event htx.entries hapart hevent hrow hid hkey

/-! ## An event, a fire and the fire again -/

section Sample

def busyDb : Db :=
  { hookDb ⟨3, by decide⟩ (hookEvent "delivery" (.obj [])) with
    triggers := [{ hookTrigger ⟨3, by decide⟩ with
      maxInflightRuns := 5
      maxInflightRuns_pos := by decide }] }

/-- The dispatcher takes the event, and then two fires have one key. -/
def busyCalls (i : Nat) : TriggerCall :=
  if i = 0 then .dispatch 5 else .fire "acme" "hook" "k" none 5

/-- The tables after the calls before `n`. -/
def busyAfter : Nat → Db
  | 0 => busyDb
  | n + 1 => (((busyCalls n).program plainRuntime .postgres).exec
      (answer .postgres 0 longKeys.ids) ⟨busyAfter n, none⟩).2.db

def busyAnswer (n : Nat) : Except DbError TriggerOutcome :=
  (((busyCalls n).program plainRuntime .postgres).exec (answer .postgres 0 longKeys.ids)
    ⟨busyAfter n, none⟩).1

/-- The one event is as it was sent. -/
def Delivered (db : Db) : Prop := db.events.map (·.eventId) = ["delivery"]

instance (db : Db) : Decidable (Delivered db) := inferInstanceAs (Decidable (_ = _))

theorem keysApart_of_delivered {db : Db} (h : Delivered db) :
    db.KeysApart .postgres busyCalls := by
  intro triggerId idempotencyKey hfired
  refine ⟨fun event hevent _ => ?_, nofun⟩
  have hid : event.eventId ∈ db.events.map (·.eventId) := List.mem_map_of_mem hevent
  rw [h] at hid
  obtain ⟨i, _, key, _, _, hcall, rfl⟩ := hfired
  unfold busyCalls at hcall
  split at hcall
  · cases hcall
  · cases hcall
    rw [List.mem_singleton.mp hid]
    decide

/-- The sample's calls, one after the other. -/
theorem busy_run (n : Nat) (hn : n ≤ 3) : ∃ w ps, AtInstant 0 (busyAfter n) w ∧
    PoolReaches (sessionsIn .postgres false fun w => Delivered w.tx.db)
      (.start 0 busyDb, callPool plainRuntime .postgres busyCalls) (w, ps) ∧
    (∀ i < n, ps i = Prog.ofExcept (busyAnswer i)) ∧
    ∀ i, n ≤ i → ps i = callPool plainRuntime .postgres busyCalls i := by
  induction n with
  | zero => exact ⟨_, _, atInstant_start 0 busyDb, .refl, nofun, fun _ _ => rfl⟩
  | succ n ih =>
    obtain ⟨w, ps, hw, hreach, hdone, hleft⟩ := ih (Nat.le_of_succ_le hn)
    have hcalls : ∀ n < 3, ((busyCalls n).program plainRuntime .postgres).Along
        (fun m _ => Delivered m.db) (answer .postgres 0 longKeys.ids) ⟨busyAfter n, none⟩ ∧
        (((busyCalls n).program plainRuntime .postgres).exec (answer .postgres 0 longKeys.ids)
          ⟨busyAfter n, none⟩).2.tx.isNone = true := by
      decide +kernel
    obtain ⟨hcond, hclosed⟩ := hcalls n (by omega)
    obtain ⟨w', hw', hreach'⟩ := hw.poolCall longKeys.ids n (hleft n (Nat.le_refl n)) hcond
      (Option.isNone_iff_eq_none.mp hclosed) hreach
    refine ⟨w', _, hw', hreach', fun i hi => ?_, fun i hi => ?_⟩
    · rcases Nat.lt_succ_iff_lt_or_eq.mp hi with hlt | rfl
      · rw [Function.update_of_ne (Nat.ne_of_lt hlt), hdone i hlt]
      · exact Function.update_self ..
    · rw [Function.update_of_ne (Nat.ne_of_gt hi), hleft i (Nat.le_of_succ_le hi)]

def TriggerOutcome.duplicateOf : TriggerOutcome → Option (Option String)
  | .fired (.duplicate runId) => some runId
  | _ => none

theorem duplicate_of_duplicateOf {out : TriggerOutcome} {runId : Option String}
    (h : out.duplicateOf = some runId) : out = .fired (.duplicate runId) := by
  unfold TriggerOutcome.duplicateOf at h
  split at h
  · cases h
    rfl
  · cases h

/-- The second fire is answered as a duplicate of the first, and the event stands under its own
identifier. -/
theorem busy_keys_apart : ∃ w ps runId,
    PoolReaches (sessionsIn .postgres false fun w => w.tx.db.KeysApart .postgres busyCalls)
      (.start 0 busyDb, callPool plainRuntime .postgres busyCalls) (w, ps) ∧
    ps 2 = .pure (.fired (.duplicate runId)) ∧
    (∃ row ∈ w.tx.db.ledger, row.triggerId = "hook" ∧ row.source = .manual "k") ∧
    (∃ event ∈ w.tx.db.events, ∃ row ∈ w.tx.db.ledger, row.triggerId = event.triggerId ∧
      row.dedupeKey = event.eventId) ∧
    ∀ event ∈ w.tx.db.events, ∀ row ∈ w.tx.db.ledger, row.triggerId = event.triggerId →
      row.dedupeKey = event.eventId → row.source = .event event.eventId := by
  obtain ⟨w, ps, hw, hreach, hdone, -⟩ := busy_run 3 (Nat.le_refl 3)
  have hle : ∀ w op r w', (sessionsIn .postgres false fun w => Delivered w.tx.db).step w op r w' →
      (sessionsIn .postgres false fun w => w.tx.db.KeysApart .postgres busyCalls).step w op r w' :=
    fun w op r w' hstep => ⟨keysApart_of_delivered hstep.1, hstep.2⟩
  have hapart := hreach.mono hle
  have hduplicate : ((busyAnswer 2).toOption.bind (·.duplicateOf)).isSome = true := by
    decide +kernel
  obtain ⟨runId, out, hsome, hof⟩ : ∃ runId out, (busyAnswer 2).toOption = some out ∧
      out.duplicateOf = some runId := by
    obtain ⟨runId, hrunId⟩ := Option.isSome_iff_exists.mp hduplicate
    obtain ⟨out, hout⟩ := Option.bind_eq_some_iff.mp hrunId
    exact ⟨runId, out, hout⟩
  have hfire : ps 2 = .pure (.fired (.duplicate runId)) := by
    have hok : busyAnswer 2 = .ok out := by
      cases hanswer : busyAnswer 2 with
      | error e =>
        rw [hanswer] at hsome
        cases hsome
      | ok value =>
        rw [hanswer] at hsome
        cases hsome
        rfl
    rw [hdone 2 (by decide), hok, duplicate_of_duplicateOf hof]
    rfl
  have hentered : ∃ event ∈ (busyAfter 3).events, ∃ row ∈ (busyAfter 3).ledger,
      row.triggerId = event.triggerId ∧ row.dedupeKey = event.eventId := by
    decide +kernel
  have hkeys : busyDb.entries.Nodup := by decide +kernel
  have hhooks : ∀ event ∈ busyDb.events, busyDb.HasTrigger event.triggerId .webhook := by
    intro event hevent
    rw [List.mem_singleton.mp hevent]
    exact ⟨_, List.mem_cons_self, rfl, rfl⟩
  have hend : w.tx.db.KeysApart .postgres busyCalls := by
    rw [hw.db]
    exact keysApart_of_delivered (by decide +kernel)
  have hresult := dedupe_keys_apart plainRuntime .postgres false busyCalls hkeys rfl hhooks hapart
    hend
  refine ⟨w, ps, runId, hapart, hfire, ?_, ?_, hresult.2⟩
  · exact hresult.1 2 "acme" "hook" "k" none 5 runId rfl hfire
  · rw [hw.db]
    exact hentered

end Sample

/-! ## An event in the way of a fire -/

theorem atRest_fireDuplicate {i : Nat} {db : Db} {since tenantMax : Int}
    {tenantId triggerId idempotencyKey : String} {payload : Option Json} {trigger : TriggerRow}
    {row : TriggerRunRow}
    (htrigger : (db.trigger? triggerId).filter (fun row => row.tenantId = tenantId &&
      row.enabled && row.deadLetteredAt.isNone) = some trigger)
    (hrow : db.triggerRun? triggerId (manualKey .postgres idempotencyKey) = some row) :
    AtRest .postgres i db since
      (fireTriggerManuallyWithLimits tenantId triggerId idempotencyKey payload tenantMax)
      (fun db' r => db' = db ∧ r = .ok (.duplicate row.runId)) := by
  refine atRest_inTransaction (alone_selectTriggerForUpdate ?_)
  rw [htrigger]
  refine alone_selectTriggerRun ?_
  rw [hrow]
  exact alone_commit ⟨rfl, rfl⟩

theorem atRest_fireCall {rt : TriggerRuntime} {i : Nat} {db : Db} {since tenantMax : Int}
    {tenantId triggerId idempotencyKey : String} {payload : Option Json} {trigger : TriggerRow}
    {row : TriggerRunRow}
    (htrigger : (db.trigger? triggerId).filter (fun row => row.tenantId = tenantId &&
      row.enabled && row.deadLetteredAt.isNone) = some trigger)
    (hrow : db.triggerRun? triggerId (manualKey .postgres idempotencyKey) = some row) :
    AtRest .postgres i db since
      ((TriggerCall.fire tenantId triggerId idempotencyKey payload tenantMax).program rt .postgres)
      (fun db' r => db' = db ∧ r = .ok (.fired (.duplicate row.runId))) := by
  refine atRest_bind (atRest_fireDuplicate htrigger hrow) ?_ ?_
  · intro db' outcome h
    cases h.2
    exact atRest_pure ⟨h.1, rfl⟩
  · intro db' e h
    cases h.2

/-- An event with the identifier `manual:k` is dispatched, and the first fire with the
key `k` is answered as a duplicate. -/
theorem first_fire_refused : ∃ w ps runId,
    PoolReaches (sessions .postgres false)
      (.start 0 (hookDb ⟨3, by decide⟩ (hookEvent "manual:k" (.obj []))),
        callPool plainRuntime .postgres
          fun i => if i = 0 then .dispatch 1 else .fire "acme" "hook" "k" none 1) (w, ps) ∧
    ps 1 = .pure (.fired (.duplicate runId)) ∧
    ∀ row ∈ w.tx.db.ledger, ∀ key, row.source ≠ .manual key := by
  let db := hookDb ⟨3, by decide⟩ (hookEvent "manual:k" (.obj []))
  let calls : Nat → TriggerCall :=
    fun i => if i = 0 then .dispatch 1 else .fire "acme" "hook" "k" none 1
  let ps := callPool plainRuntime .postgres calls
  have hrest : Resting db 0 (.start 0 db) :=
    ⟨⟨rfl, fun _ => rfl, Int.le_refl 0⟩, hookDb_keys _ _ _⟩
  have hstart : PoolReaches (sessions .postgres false) (.start 0 db, ps) (.start 0 db, ps) := .refl
  obtain ⟨w, out, hfinish, hreach⟩ := exists_poolCall hstart hrest.closed 0 rfl
  obtain ⟨_, hdispatch⟩ := finishes_dispatch hfinish
  obtain ⟨db₁, w₁, r, hstage, hrest₁, hend⟩ := dispatches_cases hrest hdispatch
  have hfirst := hookDb_first .postgres ⟨3, by decide⟩ "manual:k" (.obj [])
  rcases eventStage_first hfirst hstage with ⟨⟨_, hmem, _⟩, _⟩ | ⟨_, hlarge, _⟩ |
    ⟨_, _, run, row, _, now, _, hid, hrow, hdb₁, rfl⟩
  · cases hmem
  · cases hlarge
  · have hledger : db₁.ledger = [row] := by
      rw [hdb₁]
      rfl
    have htrigger : (db₁.trigger? "hook").filter (fun row => row.tenantId = "acme" &&
        row.enabled && row.deadLetteredAt.isNone) =
          some (TriggerChange.row now .touch (hookTrigger ⟨3, by decide⟩)) := by
      rw [hdb₁]
      rfl
    rcases hend with ⟨_, rfl, _⟩ | ⟨hnone, _⟩
    · obtain ⟨w', out', hfinish', hreach'⟩ := exists_poolCall hreach hrest₁.closed 1 rfl
      have hfound : db₁.triggerRun? "hook" (manualKey .postgres "k") = some row := by
        refine List.find?_eq_some_iff_append.mpr ⟨?_, [], [], hledger, nofun⟩
        rw [hid, hrow.dedupeKey]
        decide
      have hfire : AtRest .postgres 1 db₁ 0 ((calls 1).program plainRuntime .postgres)
          (fun db' r => db' = db₁ ∧ r = .ok (.fired (.duplicate row.runId))) :=
        atRest_fireCall htrigger hfound
      obtain ⟨_, hrest', rfl, rfl⟩ := wp_of_finishes (hfire.run w₁ hrest₁) hfinish'
      refine ⟨w', _, row.runId, hreach', Function.update_self 1 _ _, ?_⟩
      intro row' hrow' key
      rw [hrest'.db, hledger] at hrow'
      rw [List.mem_singleton.mp hrow', hrow.source]
      nofun
    · cases hnone

end Trigger
end SecureAgnt

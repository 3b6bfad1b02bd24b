/-
What sets one dispatch on the two back ends apart.

`steps_alike_iff` says that one dispatch comes to the same exactly under `StepCondition`.  What a
call tried can be read off its answer and the ledger, for every event and slot leaves its key
there, and the type of the trigger says which queue the key is from.
-/
import SecureAgnt.Trigger.StepAlike

namespace SecureAgnt
namespace Trigger

open Storage
open Runs (TriggerDispatchRecord)

/-! ## Keys and the queues they are from -/

/-- Keys of triggers of one type. -/
def OfType (db : Db) (type : TriggerType) (tried : List (String × String)) : Prop :=
  ∀ key ∈ tried, ∃ row ∈ db.triggers, row.id = key.1 ∧ row.triggerType = type

def isOfType (db : Db) (type : TriggerType) (key : String × String) : Bool :=
  db.triggers.any fun row => row.id = key.1 && row.triggerType = type

section Types

variable {db : Db} {type type' : TriggerType} {tried : List (String × String)}

theorem OfType.nil : OfType db type [] := fun _ hkey => nomatch hkey

theorem OfType.filter (h : OfType db type tried) : tried.filter (isOfType db type) = tried := by
  refine List.filter_eq_self.mpr fun key hkey => ?_
  obtain ⟨row, hrow, hid, htype⟩ := h key hkey
  exact List.any_eq_true.mpr ⟨row, hrow, by simp [hid, htype]⟩

theorem OfType.filter_other (h : OfType db type tried) (hkeys : db.entries.Nodup)
    (hne : type ≠ type') : tried.filter (isOfType db type') = [] := by
  refine List.filter_eq_nil_iff.mpr fun key hkey hother => ?_
  obtain ⟨row, hrow, hid, htype⟩ := h key hkey
  obtain ⟨row', hrow', hsame⟩ := List.any_eq_true.mp hother
  simp only [Bool.and_eq_true, decide_eq_true_eq] at hsame
  obtain rfl := List.inj_on_of_nodup_map (nodup_triggers hkeys) hrow hrow' (hid.trans hsame.1.symm)
  exact hne (htype.symm.trans hsame.2)

theorem OfType.separate {event event' cron cron' interval interval' : List (String × String)}
    (hkeys : db.entries.Nodup) (hevent : OfType db .webhook event)
    (hevent' : OfType db .webhook event') (hcron : OfType db .cron cron)
    (hcron' : OfType db .cron cron') (hinterval : OfType db .interval interval)
    (hinterval' : OfType db .interval interval')
    (h : event ++ cron ++ interval = event' ++ cron' ++ interval') :
    event = event' ∧ cron = cron' ∧ interval = interval' := by
  have hfilter := fun type => congrArg (List.filter (isOfType db type)) h
  simp only [List.filter_append] at hfilter
  refine ⟨?_, ?_, ?_⟩
  · have hwebhook := hfilter .webhook
    rwa [hevent.filter, hevent'.filter, hcron.filter_other hkeys (by decide),
      hcron'.filter_other hkeys (by decide), hinterval.filter_other hkeys (by decide),
      hinterval'.filter_other hkeys (by decide), List.append_nil, List.append_nil,
      List.append_nil, List.append_nil] at hwebhook
  · have hcrons := hfilter .cron
    rwa [hevent.filter_other hkeys (by decide), hevent'.filter_other hkeys (by decide),
      hcron.filter, hcron'.filter, hinterval.filter_other hkeys (by decide),
      hinterval'.filter_other hkeys (by decide), List.nil_append, List.nil_append,
      List.append_nil, List.append_nil] at hcrons
  · have hintervals := hfilter .interval
    rwa [hevent.filter_other hkeys (by decide), hevent'.filter_other hkeys (by decide),
      hcron.filter_other hkeys (by decide), hcron'.filter_other hkeys (by decide),
      hinterval.filter, hinterval'.filter, List.nil_append, List.nil_append,
      List.nil_append] at hintervals

/-- The answer and the ledger say what was tried. -/
theorem Tries.unique {out out' : DispatchOutcome} {tried tried' : List (String × String)}
    (h : Tries db out tried) (h' : Tries db out' tried') (hanswer : out.1 = out'.1)
    (htables : SameTables out.2 out'.2) : tried = tried' := by
  obtain ⟨entries, hledger, rfl⟩ := h.entered
  obtain ⟨entries', hledger', rfl⟩ := h'.entered
  have hkeys := congrArg (List.map fun entry : TriggerRunRow =>
    (entry.triggerId, entry.dedupeKey)) htables.ledger
  rw [List.map_map, List.map_map, hledger, hledger', List.map_append, List.map_append] at hkeys
  have hentries := List.append_cancel_left hkeys
  rw [hanswer]
  congr 1

end Types

/-! ## One stage after the other -/

section Stages

variable {rt : TriggerRuntime} {b : Backend} {now tenantMax : Int} {keys : KeySource} {db : Db}
  {row : TriggerRow} {type : TriggerType}

theorem orTry_none {out : DispatchOutcome} {next : Db → DispatchOutcome} (h : out.1 = .ok none) :
    out.orTry next = next out.2 := by
  obtain ⟨r, after⟩ := out
  obtain rfl : r = .ok none := h
  rfl

theorem orTry_end {out : DispatchOutcome} {next : Db → DispatchOutcome} (h : out.1 ≠ .ok none) :
    out.orTry next = out := by
  obtain ⟨r, after⟩ := out
  rcases r with e | (_ | dispatch)
  · rfl
  · exact absurd rfl h
  · rfl

theorem eventKeys_type : OfType db .webhook (eventKeys (firstEvent b now tenantMax db)) := by
  intro key hkey
  obtain ⟨found, hfound, rfl⟩ := List.mem_map.mp hkey
  obtain ⟨-, htrigger, hdue⟩ :=
    mem_dueEvents.mp (List.mem_of_head? (Option.mem_toList.mp hfound))
  simp only [isDueEvent, Bool.and_eq_true, decide_eq_true_eq] at hdue
  exact ⟨found.2, (Table.key_of_find htrigger).1, rfl, hdue.2⟩

theorem slotKeys_type : OfType db type (slotKeys (firstTrigger b now tenantMax type db)) := by
  intro key hkey
  obtain ⟨row, hrow, rfl⟩ := List.mem_map.mp hkey
  obtain ⟨hmem, -, htype, -⟩ :=
    mem_dueTriggers.mp (List.mem_of_head? (Option.mem_toList.mp hrow))
  exact ⟨row, hmem, rfl, htype⟩

variable (rt b now tenantMax keys db) in
/-- What one dispatch tries: an event, then a cron trigger, then an interval trigger. -/
structure TriedInTurn (cron interval : List (String × String)) : Prop where
  tries : Tries db (dispatchOutcome rt b now keys tenantMax db)
    (eventKeys (firstEvent b now tenantMax db) ++ cron ++ interval)
  cron_type : OfType db .cron cron
  interval_type : OfType db .interval interval
  cron_eq : (eventOutcome rt b now keys tenantMax db).1 = .ok none →
    cron = slotKeys (firstTrigger b now tenantMax .cron db)
  interval_eq : (eventOutcome rt b now keys tenantMax db).1 = .ok none →
    (slotOutcome rt b now keys tenantMax .cron (eventOutcome rt b now keys tenantMax db).2).1 =
      .ok none → interval = slotKeys (firstTrigger b now tenantMax .interval db)

theorem exists_triedInTurn (hkeys : db.entries.Nodup) :
    ∃ cron interval, TriedInTurn rt b now tenantMax keys db cron interval := by
  have hevent := @tries_eventOutcome rt b now tenantMax keys db
  by_cases hnone : (eventOutcome rt b now keys tenantMax db).1 = .ok none
  · have hkeys₁ := @nodup_eventOutcome rt b now keys tenantMax db hkeys
    have hcron := @tries_slotOutcome rt b now tenantMax keys
      (eventOutcome rt b now keys tenantMax db).2 .cron (by decide)
    rw [firstTrigger_eventOutcome hnone] at hcron
    by_cases hidle : (slotOutcome rt b now keys tenantMax .cron
        (eventOutcome rt b now keys tenantMax db).2).1 = .ok none
    · have hinterval := @tries_slotOutcome rt b now tenantMax keys (slotOutcome rt b now keys
        tenantMax .cron (eventOutcome rt b now keys tenantMax db).2).2 .interval (by decide)
      rw [firstTrigger_slotOutcome hkeys₁ hidle, firstTrigger_eventOutcome hnone] at hinterval
      refine ⟨_, _, ?_, slotKeys_type, slotKeys_type, fun _ => rfl, fun _ _ => rfl⟩
      rw [List.append_assoc]
      exact hevent.orTry hnone (hcron.orTry hidle hinterval)
    · refine ⟨_, [], ?_, slotKeys_type, .nil, fun _ => rfl, fun _ h => absurd h hidle⟩
      rw [List.append_nil]
      exact hevent.orTry hnone (hcron.orTry_end hidle)
  · refine ⟨[], [], ?_, .nil, .nil, fun h => absurd h hnone, fun h => absurd h hnone⟩
    rw [List.append_nil, List.append_nil]
    exact hevent.orTry_end hnone

theorem eq_of_eventKeys (hkeys : db.entries.Nodup)
    (h : eventKeys (firstEvent .postgres now tenantMax db) =
      eventKeys (firstEvent .sqlite now tenantMax db)) :
    firstEvent .postgres now tenantMax db = firstEvent .sqlite now tenantMax db := by
  have hmem : ∀ {b found}, firstEvent b now tenantMax db = some found → found.1 ∈ db.events ∧
      db.trigger? found.1.triggerId = some found.2 := fun hfound =>
    ⟨(mem_dueEvents.mp (List.mem_of_head? hfound)).1,
      (mem_dueEvents.mp (List.mem_of_head? hfound)).2.1⟩
  cases hpg : firstEvent .postgres now tenantMax db with
  | none =>
    cases hsq : firstEvent .sqlite now tenantMax db with
    | none => rfl
    | some found =>
      rw [hpg, hsq] at h
      cases h
  | some found =>
    cases hsq : firstEvent .sqlite now tenantMax db with
    | none =>
      rw [hpg, hsq] at h
      cases h
    | some found' =>
      rw [hpg, hsq] at h
      obtain ⟨hevent, htrigger⟩ := hmem hpg
      obtain ⟨hevent', htrigger'⟩ := hmem hsq
      obtain ⟨hid, hkey⟩ := Prod.mk.inj (List.cons_eq_cons.mp h).1
      have hsame : found.1 = found'.1 := by
        refine List.inj_on_of_nodup_map (nodup_eventIds hkeys) hevent hevent' (Prod.ext ?_ hkey)
        show found.1.triggerId = found'.1.triggerId
        rw [← (Table.key_of_find htrigger).2, ← (Table.key_of_find htrigger').2, hid]
      rw [hsame, htrigger', Option.some.injEq] at htrigger
      rw [Prod.ext hsame htrigger.symm]

theorem eq_of_slotKeys (hkeys : db.entries.Nodup)
    (h : slotKeys (firstTrigger .postgres now tenantMax type db) =
      slotKeys (firstTrigger .sqlite now tenantMax type db)) :
    firstTrigger .postgres now tenantMax type db = firstTrigger .sqlite now tenantMax type db := by
  have hmem : ∀ {b row}, firstTrigger b now tenantMax type db = some row → row ∈ db.triggers :=
    fun hrow => (mem_dueTriggers.mp (List.mem_of_head? hrow)).1
  cases hpg : firstTrigger .postgres now tenantMax type db with
  | none =>
    cases hsq : firstTrigger .sqlite now tenantMax type db with
    | none => rfl
    | some row =>
      rw [hpg, hsq] at h
      cases h
  | some row =>
    cases hsq : firstTrigger .sqlite now tenantMax type db with
    | none =>
      rw [hpg, hsq] at h
      cases h
    | some row' =>
      rw [hpg, hsq] at h
      obtain ⟨hid, -⟩ := Prod.mk.inj (List.cons_eq_cons.mp h).1
      rw [List.inj_on_of_nodup_map (nodup_triggers hkeys) (hmem hpg) (hmem hsq) hid]

theorem none_of_eventPasses
    (hpass : ∀ found, firstEvent b now tenantMax db = some found → EventPasses rt db found) :
    (eventOutcome rt b now keys tenantMax db).1 = .ok none := by
  unfold firstEvent at hpass
  unfold eventOutcome
  split
  · rfl
  · next event trigger hfirst =>
    obtain ⟨hfree, hlarge⟩ := hpass _ hfirst
    unfold attemptOutcome
    rw [if_neg hfree, if_pos hlarge]
    rfl

theorem eventOutcome_runs (hnone : (eventOutcome rt b now keys tenantMax db).1 = .ok none) :
    (eventOutcome rt b now keys tenantMax db).2.runs = db.runs := by
  rcases eventOutcome_none hnone with hsame | ⟨entry, id, f, -, hchanged⟩
  · rw [hsame]
  · rw [hchanged]
    rfl

theorem slotOutcome_runs (hnone : (slotOutcome rt b now keys tenantMax type db).1 = .ok none) :
    (slotOutcome rt b now keys tenantMax type db).2.runs = db.runs := by
  rcases slotOutcome_none hnone with hsame | ⟨entry, row, stamp, change, -, -, -, hchanged⟩
  · rw [hsame]
  · rw [hchanged]
    rfl

/-! ## A slot that is fired -/

/-- The first trigger of a type, with a slot that is free. -/
structure FreeSlot (b : Backend) (now tenantMax : Int) (type : TriggerType) (row : TriggerRow)
    (db : Db) : Prop where
  first : firstTrigger b now tenantMax type db = some row
  free : ¬ db.KeyTaken row.id (slotKey row.nextFireAt)

theorem FreeSlot.outcome {plan : SlotPlan} (h : FreeSlot b now tenantMax type row db)
    (hplan : row.plan rt now = some plan) :
    slotOutcome rt b now keys tenantMax type db =
      (.ok (plan.record row (slotRun b now (keys.next db.entries) row).id),
        plan.publish b row (slotRun b now (keys.next db.entries) row)
          (keys.next (plan.entered (slotRun b now (keys.next db.entries) row) db).entries)
          (b.currentTimestamp now) db) := by
  have hfirst := h.first
  unfold firstTrigger at hfirst
  unfold slotOutcome
  rw [hfirst]
  dsimp only
  rw [hplan]
  dsimp only
  unfold SlotPlan.outcome
  rw [if_neg h.free]

/-- The run that is fired has the trace on SQLite only. -/
theorem traced_of_sameTables {db' : Db} {nextFireAt : Int}
    (h : FreeSlot .postgres now tenantMax type row db)
    (h' : FreeSlot .sqlite now tenantMax type row db')
    (hplan : row.plan rt now = some (.fire nextFireAt)) (hruns : db.runs = db'.runs)
    (htables : SameTables (slotOutcome rt .postgres now keys tenantMax type db).2
      (slotOutcome rt .sqlite now keys tenantMax type db').2) :
    row.inputJson = injectTraceId row.inputJson (keys.next db'.entries) := by
  rw [h.outcome hplan, h'.outcome hplan] at htables
  have hinputs := Paired.map_eq (f := fun run : RunRecord => run.inputJson)
    (g := fun run => run.inputJson)
    (fun run run' hrun => congrArg (fun r => r.inputJson) hrun.columns) htables.runs
  have hsplit : (db.runs ++ [slotRun .postgres now (keys.next db.entries) row]).map
      (fun run => run.inputJson) =
        (db'.runs ++ [slotRun .sqlite now (keys.next db'.entries) row]).map
          fun run => run.inputJson := hinputs
  rw [List.map_append, List.map_append, hruns] at hsplit
  exact (List.cons_eq_cons.mp (List.append_cancel_left hsplit)).1

/-- Postgres keeps the slot after one that is skipped. -/
theorem kept_of_sameTables {db' : Db} {nextFireAt : Int}
    (h : FreeSlot .postgres now tenantMax type row db)
    (h' : FreeSlot .sqlite now tenantMax type row db')
    (hplan : row.plan rt now = some (.skip nextFireAt))
    (hkeys : (slotOutcome rt .postgres now keys tenantMax type db).2.entries.Nodup)
    (htables : SameTables (slotOutcome rt .postgres now keys tenantMax type db).2
      (slotOutcome rt .sqlite now keys tenantMax type db').2) : Microseconds nextFireAt := by
  rw [h.outcome hplan, h'.outcome hplan] at htables
  rw [h.outcome hplan] at hkeys
  let skipped (b : Backend) : TriggerRow :=
    TriggerChange.row (b.currentTimestamp now) (.skip nextFireAt) row
  have hpg : skipped .postgres ∈ (changeRow (·.id) row.id
      (TriggerChange.row (Backend.postgres.currentTimestamp now) (.skip nextFireAt))
        db.triggers) :=
    mem_changeRow_same (mem_dueTriggers.mp (List.mem_of_head? h.first)).1 rfl
  have hsq : skipped .sqlite ∈ (changeRow (·.id) row.id
      (TriggerChange.row (Backend.sqlite.currentTimestamp now) (.skip nextFireAt))
        db'.triggers) :=
    mem_changeRow_same (mem_dueTriggers.mp (List.mem_of_head? h'.first)).1 rfl
  have hskipped : KeptTrigger (skipped .postgres) (skipped .sqlite) :=
    @Paired.related_of_key TriggerRow TriggerRow String KeptTrigger _ _ (·.id) (·.id)
      (fun _ _ hrel => hrel.id) (nodup_triggers hkeys) htables.triggers _ _ hpg hsq rfl
  exact keptInstant_eq_iff.mp hskipped.nextFireAt

end Stages

/-! ## Two traces -/

theorem get?_insertField (key : String) (value : Json) (fields : List (String × Json)) :
    (Json.obj (Json.insertField key value fields)).get? key = some value := by
  induction fields with
  | nil => simp [Json.insertField]
  | cons field rest ih =>
    obtain ⟨k, v⟩ := field
    by_cases hk : k = key
    · simp [Json.insertField, hk]
    · simp [Json.insertField, hk, ih]

theorem get?_injectTraceId (input : Json) (traceId : String) :
    (injectTraceId input traceId).get? "_trace" = some (.str traceId) := by
  unfold injectTraceId
  split
  · exact get?_insertField ..
  · exact Json.get?_obj_cons ..

/-- Other identifiers than those of `longKeys`. -/
def otherKeys : KeySource where
  next taken := String.ofList (List.replicate ((taken.map Resource.width).sum + 1) 'l')
  unused := unused_replicate 'l'

theorem longKeys_ne_otherKeys (taken taken' : List Resource) :
    longKeys.next taken ≠ otherKeys.next taken' := by
  intro h
  have hletters := congrArg (fun id : String => id.toList.head?) h
  simp [longKeys, otherKeys, List.replicate_succ] at hletters

/-- No input has the trace of whatever run is created. -/
theorem not_traced {input : Json} {taken taken' : List Resource}
    (h : input = injectTraceId input (longKeys.next taken)) :
    input ≠ injectTraceId input (otherKeys.next taken') := by
  intro h'
  have htrace := get?_injectTraceId input (longKeys.next taken)
  have htrace' := get?_injectTraceId input (otherKeys.next taken')
  rw [← h] at htrace
  rw [← h', htrace, Option.some.injEq, Json.str.injEq] at htrace'
  exact longKeys_ne_otherKeys taken taken' htrace'

/-! ## The condition from what is alike -/

section Apart

variable {rt : TriggerRuntime} {b : Backend} {now tenantMax : Int} {keys : KeySource} {db : Db}
  {row : TriggerRow} {type : TriggerType}

theorem dispatch_eq_cron (hnone : (eventOutcome rt b now keys tenantMax db).1 = .ok none)
    (hend : (slotOutcome rt b now keys tenantMax .cron
      (eventOutcome rt b now keys tenantMax db).2).1 ≠ .ok none) :
    dispatchOutcome rt b now keys tenantMax db = slotOutcome rt b now keys tenantMax .cron
      (eventOutcome rt b now keys tenantMax db).2 := by
  unfold dispatchOutcome
  rw [orTry_none hnone]
  exact orTry_end hend

theorem dispatch_eq_interval (hnone : (eventOutcome rt b now keys tenantMax db).1 = .ok none)
    (hidle : (slotOutcome rt b now keys tenantMax .cron
      (eventOutcome rt b now keys tenantMax db).2).1 = .ok none) :
    dispatchOutcome rt b now keys tenantMax db = slotOutcome rt b now keys tenantMax .interval
      (slotOutcome rt b now keys tenantMax .cron
        (eventOutcome rt b now keys tenantMax db).2).2 := by
  unfold dispatchOutcome
  rw [orTry_none hnone]
  exact orTry_none hidle

/-- The key of another type's trigger does not take the slot. -/
theorem FreeSlot.of_tries {out : DispatchOutcome} {tried : List (String × String)}
    {other : TriggerType} (h : FreeSlot b now tenantMax type row db) (hkeys : db.entries.Nodup)
    (htried : Tries db out tried) (hother : OfType db other tried) (hne : other ≠ type)
    (hfirst : firstTrigger b now tenantMax type out.2 = firstTrigger b now tenantMax type db) :
    FreeSlot b now tenantMax type row out.2 := by
  refine ⟨hfirst.trans h.first, fun htaken => ?_⟩
  rcases htried.keyTaken_before htaken with hbefore | hmem
  · exact h.free hbefore
  · obtain ⟨hrow, -, htype, -⟩ := mem_dueTriggers.mp (List.mem_of_head? h.first)
    obtain ⟨row', hrow', hid, htype'⟩ := hother _ hmem
    obtain rfl := List.inj_on_of_nodup_map (nodup_triggers hkeys) hrow' hrow hid
    exact hne (htype'.symm.trans htype)

theorem FreeSlot.after_event (h : FreeSlot b now tenantMax type row db) (hkeys : db.entries.Nodup)
    (htype : type ≠ .webhook) (hnone : (eventOutcome rt b now keys tenantMax db).1 = .ok none) :
    FreeSlot b now tenantMax type row (eventOutcome rt b now keys tenantMax db).2 :=
  h.of_tries hkeys tries_eventOutcome eventKeys_type htype.symm (firstTrigger_eventOutcome hnone)

theorem FreeSlot.after_cron (h : FreeSlot b now tenantMax .interval row db)
    (hkeys : db.entries.Nodup)
    (hidle : (slotOutcome rt b now keys tenantMax .cron db).1 = .ok none) :
    FreeSlot b now tenantMax .interval row (slotOutcome rt b now keys tenantMax .cron db).2 :=
  h.of_tries hkeys (tries_slotOutcome (by decide)) slotKeys_type (by decide)
    (firstTrigger_slotOutcome hkeys hidle)

theorem FreeSlot.planned (h : FreeSlot b now tenantMax type row db) (htype : type ≠ .webhook) :
    ∃ plan, row.plan rt now = some plan := by
  obtain ⟨-, -, hrow, -⟩ := mem_dueTriggers.mp (List.mem_of_head? h.first)
  exact exists_plan (hrow ▸ htype)

theorem slotOutcome_none_of_idle (htype : type ≠ .webhook)
    (h : ∀ row, firstTrigger b now tenantMax type db = some row →
      FreeSlot b now tenantMax type row db ∧ SlotIdle rt now row) :
    (slotOutcome rt b now keys tenantMax type db).1 = .ok none := by
  cases hfirst : firstTrigger b now tenantMax type db with
  | none =>
    unfold firstTrigger at hfirst
    unfold slotOutcome
    rw [hfirst]
  | some row =>
    obtain ⟨hfree, hidle⟩ := h row hfirst
    obtain ⟨plan, hplan⟩ := @FreeSlot.planned rt b now tenantMax db row type hfree htype
    rw [hfree.outcome hplan]
    rw [slotIdle_iff hplan] at hidle
    cases plan with
    | fire nextFireAt => exact hidle.elim
    | skip nextFireAt => rfl
    | deadLetter message => rfl

/-- A slot that is fired tells the back ends apart, whatever the tables at its turn are. -/
theorem not_fired {s : KeySource → Backend → Db}
    (hfree : ∀ keys b, FreeSlot b now tenantMax type row (s keys b))
    (hruns : ∀ keys, (s keys .postgres).runs = (s keys .sqlite).runs)
    (htables : ∀ keys, (∀ b, (slotOutcome rt b now keys tenantMax type (s keys b)).1 ≠ .ok none) →
      SameTables (slotOutcome rt .postgres now keys tenantMax type (s keys .postgres)).2
        (slotOutcome rt .sqlite now keys tenantMax type (s keys .sqlite)).2) (nextFireAt : Int) :
    row.plan rt now ≠ some (.fire nextFireAt) := by
  intro hplan
  have htraced : ∀ keys : KeySource,
      row.inputJson = injectTraceId row.inputJson (keys.next (s keys .sqlite).entries) := by
    intro keys
    refine traced_of_sameTables (hfree keys .postgres) (hfree keys .sqlite) hplan (hruns keys)
      (htables keys fun b => ?_)
    rw [(hfree keys b).outcome hplan]
    exact fun hnone => nomatch hnone
  exact not_traced (htraced longKeys) (htraced otherKeys)

theorem cron_not_skipped {nextFireAt : Int} (hrow : row.triggerType = .cron) :
    row.plan rt now ≠ some (.skip nextFireAt) := by
  unfold TriggerRow.triggerType at hrow
  unfold TriggerRow.plan SlotColumns.plan
  rw [show row.slotColumns.schedule = row.schedule from rfl]
  cases hschedule : row.schedule with
  | cron expression =>
    dsimp only
    unfold cronPlan
    split
    · exact fun h => nomatch h
    · exact fun h => nomatch h
  | interval seconds =>
    rw [hschedule] at hrow
    cases hrow
  | webhook =>
    rw [hschedule] at hrow
    cases hrow

/-- On both back ends no event is dispatched, and the tables after the call are the same. -/
structure SameTurn (rt : TriggerRuntime) (now tenantMax : Int) (db : Db) : Prop where
  keys_nodup : db.entries.Nodup
  steps : ∀ keys, SameTables (dispatchOutcome rt .postgres now keys tenantMax db).2
    (dispatchOutcome rt .sqlite now keys tenantMax db).2
  passed : ∀ keys b, (eventOutcome rt b now keys tenantMax db).1 = .ok none

theorem SameTurn.cron_noRun (h : SameTurn rt now tenantMax db)
    (hfirst : ∀ b, firstTrigger b now tenantMax .cron db = some row) :
    SlotWithoutRun rt now db row := by
  by_cases htaken : db.KeyTaken row.id (slotKey row.nextFireAt)
  · exact .inl htaken
  right
  have hfree : ∀ keys b, FreeSlot b now tenantMax .cron row
      (eventOutcome rt b now keys tenantMax db).2 := fun keys b =>
    FreeSlot.after_event ⟨hfirst b, htaken⟩ h.keys_nodup (by decide) (h.passed keys b)
  obtain ⟨plan, hplan⟩ := @FreeSlot.planned rt .postgres now tenantMax _ row .cron
    (hfree longKeys .postgres) (by decide)
  rw [slotIdle_iff hplan]
  obtain ⟨-, -, hrow, -⟩ := mem_dueTriggers.mp (List.mem_of_head? (hfirst .postgres))
  cases plan with
  | fire nextFireAt =>
    refine absurd hplan (not_fired hfree (fun keys => ?_) (fun keys hend => ?_) nextFireAt)
    · rw [eventOutcome_runs (h.passed keys .postgres), eventOutcome_runs (h.passed keys .sqlite)]
    · rw [← dispatch_eq_cron (h.passed keys .postgres) (hend .postgres),
        ← dispatch_eq_cron (h.passed keys .sqlite) (hend .sqlite)]
      exact h.steps keys
  | skip nextFireAt => exact absurd hplan (cron_not_skipped hrow)
  | deadLetter message => trivial

theorem SameTurn.interval_noRun (h : SameTurn rt now tenantMax db)
    (hidle : ∀ keys b, (slotOutcome rt b now keys tenantMax .cron
      (eventOutcome rt b now keys tenantMax db).2).1 = .ok none)
    (hfirst : ∀ b, firstTrigger b now tenantMax .interval db = some row) :
    SlotWithoutRun rt now db row := by
  by_cases htaken : db.KeyTaken row.id (slotKey row.nextFireAt)
  · exact .inl htaken
  right
  have hkeys₁ := fun keys b => @nodup_eventOutcome rt b now keys tenantMax db h.keys_nodup
  have hfree : ∀ keys b, FreeSlot b now tenantMax .interval row (slotOutcome rt b now keys tenantMax
      .cron (eventOutcome rt b now keys tenantMax db).2).2 := fun keys b =>
    (FreeSlot.after_event ⟨hfirst b, htaken⟩ h.keys_nodup (by decide) (h.passed keys b)).after_cron
      (hkeys₁ keys b) (hidle keys b)
  have htables : ∀ keys, SameTables
      (slotOutcome rt .postgres now keys tenantMax .interval (slotOutcome rt .postgres now keys
        tenantMax .cron (eventOutcome rt .postgres now keys tenantMax db).2).2).2
      (slotOutcome rt .sqlite now keys tenantMax .interval (slotOutcome rt .sqlite now keys
        tenantMax .cron (eventOutcome rt .sqlite now keys tenantMax db).2).2).2 := by
    intro keys
    rw [← dispatch_eq_interval (h.passed keys .postgres) (hidle keys .postgres),
      ← dispatch_eq_interval (h.passed keys .sqlite) (hidle keys .sqlite)]
    exact h.steps keys
  obtain ⟨plan, hplan⟩ := @FreeSlot.planned rt .postgres now tenantMax _ row .interval
    (hfree longKeys .postgres) (by decide)
  rw [slotIdle_iff hplan]
  cases plan with
  | fire nextFireAt =>
    refine absurd hplan (not_fired hfree (fun keys => ?_) (fun keys _ => htables keys) nextFireAt)
    rw [slotOutcome_runs (hidle keys .postgres), slotOutcome_runs (hidle keys .sqlite),
      eventOutcome_runs (h.passed keys .postgres), eventOutcome_runs (h.passed keys .sqlite)]
  | skip nextFireAt =>
    exact kept_of_sameTables (hfree longKeys .postgres) (hfree longKeys .sqlite) hplan
      (nodup_slotOutcome (nodup_slotOutcome (hkeys₁ longKeys .postgres) (by decide)) (by decide))
      (htables longKeys)
  | deadLetter message => trivial

theorem StepsAlike.condition (h : StepsAlike rt now tenantMax db) (hkeys : db.entries.Nodup) :
    StepCondition rt now tenantMax db := by
  unfold StepsAlike at h
  simp only [dispatchOn_eq hkeys] at h
  obtain ⟨cron, interval, hpg⟩ := @exists_triedInTurn rt .postgres now tenantMax longKeys db hkeys
  obtain ⟨cron', interval', hsq⟩ := @exists_triedInTurn rt .sqlite now tenantMax longKeys db hkeys
  obtain ⟨hevent, hcron, hinterval⟩ := OfType.separate hkeys eventKeys_type eventKeys_type
    hpg.cron_type hsq.cron_type hpg.interval_type hsq.interval_type
    (hpg.tries.unique hsq.tries (h longKeys).1 (h longKeys).2)
  have hfound := eq_of_eventKeys hkeys hevent
  -- where the first event passes, it passes on both back ends
  have hturn : (∀ found, firstEvent .postgres now tenantMax db = some found →
      EventPasses rt db found) → SameTurn rt now tenantMax db := by
    intro hpass
    refine ⟨hkeys, fun keys => (h keys).2, fun keys b => none_of_eventPasses fun found hfirst => ?_⟩
    cases b with
    | postgres => exact hpass found hfirst
    | sqlite => exact hpass found (hfound.trans hfirst)
  have hcrons : SameTurn rt now tenantMax db → firstTrigger .postgres now tenantMax .cron db =
      firstTrigger .sqlite now tenantMax .cron db := fun hsame =>
    eq_of_slotKeys hkeys (by rw [← hpg.cron_eq (hsame.passed ..), ← hsq.cron_eq (hsame.passed ..),
      hcron])
  have hnoRun : SameTurn rt now tenantMax db → ∀ row,
      firstTrigger .postgres now tenantMax .cron db = some row → SlotWithoutRun rt now db row := by
    intro hsame row hrow
    refine hsame.cron_noRun fun b => ?_
    cases b with
    | postgres => exact hrow
    | sqlite => exact (hcrons hsame).symm.trans hrow
  refine ⟨(firstEventAgrees_iff hkeys).mpr hfound, fun hpass => ?_, fun hpass hfree => ?_⟩
  · exact ⟨(firstTriggerAgrees_iff hkeys).mpr (hcrons (hturn hpass)), hnoRun (hturn hpass)⟩
  · have hsame := hturn hpass
    have hidle : ∀ keys b, (slotOutcome rt b now keys tenantMax .cron
        (eventOutcome rt b now keys tenantMax db).2).1 = .ok none := by
      intro keys b
      refine slotOutcome_none_of_idle (by decide) fun row hrow => ?_
      rw [firstTrigger_eventOutcome (hsame.passed keys b)] at hrow
      have hrow' : firstTrigger .postgres now tenantMax .cron db = some row := by
        cases b with
        | postgres => exact hrow
        | sqlite => exact (hcrons hsame).trans hrow
      exact ⟨FreeSlot.after_event ⟨hrow, hfree row hrow'⟩ hkeys (by decide) (hsame.passed keys b),
        (hnoRun hsame row hrow').resolve_left (hfree row hrow')⟩
    have hintervals : firstTrigger .postgres now tenantMax .interval db =
        firstTrigger .sqlite now tenantMax .interval db := eq_of_slotKeys hkeys (by
      rw [← hpg.interval_eq (hsame.passed ..) (hidle ..),
        ← hsq.interval_eq (hsame.passed ..) (hidle ..), hinterval])
    refine ⟨(firstTriggerAgrees_iff hkeys).mpr hintervals, fun row hrow => ?_⟩
    refine hsame.interval_noRun hidle fun b => ?_
    cases b with
    | postgres => exact hrow
    | sqlite => exact hintervals.symm.trans hrow

end Apart

/-- One dispatch comes to the same on both back ends exactly where each queue that has its turn
begins with one row, no slot is fired, and a slot that is skipped leads to one that Postgres
keeps. -/
theorem steps_alike_iff (rt : TriggerRuntime) (now tenantMax : Int) (db : SharedDb) :
    StepsAlike rt now tenantMax db.toDb ↔ StepCondition rt now tenantMax db.toDb :=
  ⟨fun h => h.condition db.keys_nodup, fun h => h.alike db.keys_nodup db.slots_kept⟩

section Hourly

def hourlyDb (misfirePolicy : MisfirePolicy) : Db where
  triggers := [{ sampleTrigger "hourly" hourly with misfirePolicy }]
  events := []
  runs := []
  ledger := []

def hourlyTables : SharedDb where
  toDb := hourlyDb .fireNow
  keys_nodup := List.nodup_singleton _
  slots_kept := by
    intro row hrow
    rw [List.mem_singleton.mp hrow]
    rfl

/-- Which runs have a trace after a dispatch. -/
def hourlyTraces (b : Backend) : List Bool :=
  (dispatchOn minuteRuntime (10 * second) 5 longKeys b hourlyTables.toDb).2.runs.map
    fun run => (run.inputJson.get? "_trace").isSome

/-- Both back ends fire the one trigger that is due, but only SQLite adds the trace to the input
of its run. -/
theorem hourly_run_apart : hourlyTraces .postgres = [false] ∧ hourlyTraces .sqlite = [true] ∧
    ¬ StepsAlike minuteRuntime (10 * second) 5 hourlyTables.toDb := by
  have hpg : hourlyTraces .postgres = [false] := by decide +kernel
  have hsq : hourlyTraces .sqlite = [true] := by decide +kernel
  refine ⟨hpg, hsq, fun h => ?_⟩
  have htraces : hourlyTraces .postgres = hourlyTraces .sqlite :=
    Paired.map_eq (fun run run' hrun =>
      congrArg (fun r => (r.inputJson.get? "_trace").isSome) hrun.columns) (h longKeys).2.runs
  rw [hpg, hsq] at htraces
  cases htraces

/-- An event is dispatched alike, while the interval trigger waits its turn. -/
example : StepsAlike minuteRuntime (second + 7000) 5 minuteDb := by
  have hkeys : minuteDb.entries.Nodup := by decide +kernel
  have hcondition : StepCondition minuteRuntime (second + 7000) 5 minuteDb := by
    have hevent := @eq_of_eventKeys (second + 7000) 5 _ hkeys (by decide +kernel)
    refine ⟨(firstEventAgrees_iff hkeys).mpr hevent, fun hpass => ?_, fun hpass => ?_⟩
    · exact absurd (hpass _ rfl).2 (by decide)
    · exact absurd (hpass _ rfl).2 (by decide)
  exact hcondition.alike hkeys (by decide)

/-- An hour that was missed is skipped alike. -/
example : StepsAlike minuteRuntime (7200 * second + 7000) 5 (hourlyDb .skip) := by
  have hkeys : (hourlyDb .skip).entries.Nodup := List.nodup_singleton _
  have hevent := @eq_of_eventKeys (7200 * second + 7000) 5 _ hkeys (by decide +kernel)
  have hcron := @eq_of_slotKeys (7200 * second + 7000) 5 _ .cron hkeys (by decide +kernel)
  have hinterval := @eq_of_slotKeys (7200 * second + 7000) 5 _ .interval hkeys (by decide +kernel)
  have hcondition : StepCondition minuteRuntime (7200 * second + 7000) 5 (hourlyDb .skip) := by
    refine ⟨(firstEventAgrees_iff hkeys).mpr hevent,
      fun _ => ⟨(firstTriggerAgrees_iff hkeys).mpr hcron, fun row hrow => nomatch hrow⟩,
      fun _ _ => ⟨(firstTriggerAgrees_iff hkeys).mpr hinterval, fun row hrow => ?_⟩⟩
    cases hrow
    refine .inr ⟨rfl, ?_, by decide⟩
    show 7200 * second + 7000 - 0 ≥ 3600 * second
    unfold second
    omega
  exact hcondition.alike hkeys (by decide)

end Hourly

end Trigger
end SecureAgnt

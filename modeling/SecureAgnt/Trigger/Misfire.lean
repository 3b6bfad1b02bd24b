/-
What the misfire policy does with the slots that were missed.

An interval trigger with the policy `skip` comes out of a downtime with one entry at
most: for the slot that it stood at, with a run if that slot is less than an interval old
and without one otherwise, and its next slot is ahead.  A cron trigger is fired whatever
its policy says.
-/
import SecureAgnt.Trigger.Jitter
import SecureAgnt.Trigger.Recovery

namespace SecureAgnt
namespace Trigger

open Storage
open Handler

/-! ## Decisions of an interval trigger that skips -/

section Slots

variable {rt : TriggerRuntime} {b : Backend} {columns : SlotColumns} {triggerId : String}
  {seconds : { n : Int // 0 < n }} {first next clock : Int} {rows : List TriggerRunRow}

/-- The slot is skipped if it is an interval old, and fired otherwise. -/
theorem skipping_plan {slot now : Int} {plan : SlotPlan}
    (hinterval : columns.schedule = .interval seconds) (hskip : columns.misfirePolicy = .skip)
    (hplan : columns.plan rt triggerId slot now = some plan) :
    (∃ nextFireAt, plan = .skip nextFireAt ∧ slot + seconds.val * second ≤ now ∧
      now + seconds.val * second ≤ nextFireAt) ∨
    ∃ nextFireAt, plan = .fire nextFireAt ∧ now < slot + seconds.val * second ∧
      slot + seconds.val * second ≤ nextFireAt := by
  unfold SlotColumns.plan at hplan
  rw [hinterval] at hplan
  dsimp only at hplan
  unfold intervalPlan at hplan
  split at hplan
  · rename_i hlate
    cases hplan
    exact .inl ⟨_, rfl, by omega, (applyJitter_bounds _ _ _ _ _).1⟩
  · rename_i hlate
    have hearly : ¬ now - slot ≥ seconds.val * second := fun h => hlate ⟨hskip, h⟩
    cases hplan
    exact .inr ⟨_, rfl, by omega, (applyJitter_bounds _ _ _ _ _).1⟩

/-- What the entries of a trigger show that stood at `first` when the clock showed
`clock`. -/
structure Skipped (seconds : { n : Int // 0 < n }) (clock : Int) (rows : List TriggerRunRow)
    (next : Int) : Prop where
  skipped : ∀ row ∈ rows, row.status = .failed → row.errorJson = some misfireSkipped
  fired : ∀ row ∈ rows, row.status = .created → clock < row.scheduledFor + seconds.val * second
  once : (rows.map (·.scheduledFor)).Pairwise (· < ·)
  past : ∀ row ∈ rows, row.scheduledFor < next
  missed : rows.countP (·.scheduledFor ≤ clock) ≤ 1
  ahead : rows ≠ [] → clock < next

/-- One more entry. -/
theorem Skipped.snoc {slot nextFireAt : Int} {row : TriggerRunRow}
    (h : Skipped seconds clock rows slot) (hslot : row.scheduledFor = slot)
    (hskipped : row.status = .failed → row.errorJson = some misfireSkipped)
    (hfired : row.status = .created → clock < slot + seconds.val * second)
    (hlater : slot < nextFireAt) (hahead : clock < nextFireAt) :
    Skipped seconds clock (rows ++ [row]) nextFireAt := by
  obtain ⟨hskipped', hfired', honce, hpast, hmissed, hahead'⟩ := h
  have hmem : ∀ row' ∈ rows ++ [row], row' ∈ rows ∨ row' = row := by
    intro row' hrow'
    rcases List.mem_append.mp hrow' with hrow' | hrow'
    · exact .inl hrow'
    · exact .inr (List.mem_singleton.mp hrow')
  refine ⟨?_, ?_, ?_, ?_, ?_, fun _ => hahead⟩
  · intro row' hrow' hfailed
    rcases hmem row' hrow' with hrow' | rfl
    · exact hskipped' row' hrow' hfailed
    · exact hskipped hfailed
  · intro row' hrow' hcreated
    rcases hmem row' hrow' with hrow' | rfl
    · exact hfired' row' hrow' hcreated
    · rw [hslot]
      exact hfired hcreated
  · rw [List.map_append, List.pairwise_append]
    refine ⟨honce, List.pairwise_singleton _ _, fun x hx y hy => ?_⟩
    obtain ⟨row', hrow', rfl⟩ := List.mem_map.mp hx
    obtain rfl : y = row.scheduledFor := List.mem_singleton.mp hy
    rw [hslot]
    exact hpast row' hrow'
  · intro row' hrow'
    rcases hmem row' hrow' with hrow' | rfl
    · have hbefore := hpast row' hrow'
      omega
    · omega
  · rw [List.countP_append, List.countP_singleton, hslot]
    by_cases hnil : rows = []
    · -- the first entry may be for a slot that was missed
      rw [hnil, List.countP_nil]
      split
      · exact Nat.le_refl 1
      · exact Nat.zero_le 1
    · have hnew := hahead' hnil
      rw [if_neg (by simp only [decide_eq_true_eq]; omega)]
      exact hmissed

/-- Every decision after `clock` keeps to this. -/
theorem Decided.skipped (hinterval : columns.schedule = .interval seconds)
    (hskip : columns.misfirePolicy = .skip)
    (h : Decided rt b columns triggerId (fun _ now => clock ≤ now) first rows next) :
    Skipped seconds clock rows next := by
  induction h with
  | start => exact ⟨nofun, nofun, .nil, nofun, Nat.zero_le 1, fun h => absurd rfl h⟩
  | @slot rows slot now plan rowId runId h hnow hplan ih =>
    have hpos : 0 < seconds.val * second := Int.mul_pos seconds.property (by decide)
    rcases skipping_plan hinterval hskip hplan with ⟨nextFireAt, rfl, hlate, hnext⟩ |
      ⟨nextFireAt, rfl, hearly, hnext⟩
    · exact ih.snoc rfl (fun _ => rfl) nofun (by show slot < nextFireAt; omega)
        (by show clock < nextFireAt; omega)
    · exact ih.snoc rfl nofun (fun _ => by omega) (by show slot < nextFireAt; omega)
        (by show clock < nextFireAt; omega)

end Slots

/-! ## One dispatch -/

/-- The trigger is the first that is due, whenever from now on a dispatcher of its type
looks. -/
def FirstDue (b : Backend) (type : TriggerType) (tenantMax : Int) (w : TriggerWorld)
    (trigger : TriggerRow) : Prop :=
  ∀ now, b.stamp w.clock ≤ b.stamp now →
    (dueTriggers b now w.tx.db type (max tenantMax 1)).head? = some trigger

/-- What the dispatch of the first due trigger makes of the tables. -/
inductive Dispatched (rt : TriggerRuntime) (b : Backend) (trigger : TriggerRow)
    (since : Int) (db db' : Db) : Prop
  | mk {plan : SlotPlan} {now : Int} (run : RunRecord) (rowId : String) (stamp : Int)
      (hnow : since ≤ now) (hplan : trigger.plan rt now = some plan)
      (hdb : db' = plan.publish b trigger run rowId stamp db)

section Dispatch

variable {rt : TriggerRuntime} {b : Backend} {i : Nat} {tenantMax : Int} {type : TriggerType}
  {w w' : TriggerWorld} {trigger : TriggerRow}
  {out : Except DbError (Option Runs.TriggerDispatchRecord)}

/-- A due trigger whose slot has no entry is dispatched as it is decided. -/
theorem dispatched_first (htype : type ≠ .webhook) (hclosed : ∀ j, w.tx.sessions j = none)
    (hkeys : w.tx.db.entries.Nodup) (hfirst : FirstDue b type tenantMax w trigger)
    (hfree : ¬ w.tx.db.KeyTaken trigger.id (slotKey trigger.nextFireAt))
    (hfinish : Finishes (session b false i) w (dispatchNextDueScheduled rt b type tenantMax) w'
      out) :
    Dispatched rt b trigger w.clock w.tx.db w'.tx.db := by
  have hrest : Resting w.tx.db w.clock w := ⟨⟨rfl, hclosed, Int.le_refl _⟩, hkeys⟩
  obtain ⟨db', hrest', hstage⟩ := wp_of_finishes ((atRest_plan htype tenantMax).run w hrest) hfinish
  rw [hrest'.db]
  cases hstage with
  | idle htime hnone =>
    rw [hfirst _ htime] at hnone
    cases hnone
  | clash htime hsome htaken =>
    cases (hfirst _ htime).symm.trans hsome
    exact absurd htaken hfree
  | planned run rowId stamp htime hsome _ hnow hplan =>
    cases (hfirst _ htime).symm.trans hsome
    exact .mk run rowId stamp hnow hplan rfl

/-- A cron trigger is fired if its next instant can be computed. -/
theorem cron_plan (trigger : TriggerRow) {expression : String} {value now : Int}
    (hcron : trigger.schedule = .cron expression)
    (hvalue : rt.nextCronFireAt expression trigger.scheduleTimezone trigger.nextFireAt =
      .ok value) : trigger.plan rt now = some (.fire
        (applyJitter rt value trigger.id trigger.jitterSeconds trigger.nextFireAt)) := by
  unfold TriggerRow.plan SlotColumns.plan
  rw [show trigger.slotColumns.schedule = _ from hcron]
  show some (cronPlan rt trigger.slotColumns trigger.id expression trigger.nextFireAt) = _
  unfold cronPlan
  rw [show rt.nextCronFireAt expression trigger.slotColumns.scheduleTimezone _ = _ from hvalue]
  rfl

/-- The first due trigger is in the tables. -/
theorem FirstDue.trigger? (hkeys : w.tx.db.entries.Nodup)
    (hfirst : FirstDue b type tenantMax w trigger) :
    w.tx.db.trigger? trigger.id = some trigger := by
  obtain ⟨hmem, _⟩ := mem_dueTriggers.mp (List.mem_of_head? (hfirst w.clock (Int.le_refl _)))
  exact (Table.find_eq_some_iff (nodup_triggers hkeys)).mpr ⟨hmem, rfl⟩

end Dispatch

/-! ## Every run -/

/-- On both back ends: the dispatch of an interval trigger with the policy `skip` whose
slot is an interval old creates no run, enters the slot as skipped and moves the trigger
on past the time of the dispatch.  Over any run, whatever is called in it, no slot is
entered twice, none that was an interval old at the beginning has a run, of all slots up
to the beginning at most one is entered at all, and from the first entry on the next slot
is after the beginning.  A cron trigger whose next instant can be computed is fired,
whatever its policy. -/
theorem missed_slots_skipped (rt : TriggerRuntime) (b : Backend) (faults : Bool)
    (calls : Nat → TriggerCall) {clock : Int} {db : Db} {w : TriggerWorld}
    {ps : Nat → Prog (Nat × Stmt) (fun o => o.2.Ans) DbError TriggerOutcome} {trigger : TriggerRow}
    {seconds : { n : Int // 0 < n }} (hkeys : db.entries.Nodup)
    (hfound : db.trigger? trigger.id = some trigger)
    (hinterval : trigger.schedule = .interval seconds) (hskip : trigger.misfirePolicy = .skip)
    (hedits : ∀ change, EditedBy calls change → change.KeepsSlots trigger.id)
    (hreach : PoolReaches (sessions b faults) (.start clock db, callPool rt b calls) (w, ps)) :
    (∃ entered row, w.tx.db.ledger = db.ledger ++ entered ∧
      w.tx.db.trigger? trigger.id = some row ∧
      Skipped seconds clock (slotRows trigger.id entered) row.nextFireAt) ∧
    ((∀ j, w.tx.sessions j = none) →
      (∀ i tenantMax row, row.id = trigger.id → FirstDue b .interval tenantMax w row →
        ¬ w.tx.db.KeyTaken row.id (slotKey row.nextFireAt) →
        row.nextFireAt + seconds.val * second ≤ w.clock →
        (∃ w' out, Finishes (session b false i) w
          (dispatchNextDueIntervalTriggerWithLimits rt b tenantMax) w' out) ∧
        ∀ w' out, Finishes (session b false i) w
          (dispatchNextDueIntervalTriggerWithLimits rt b tenantMax) w' out →
            w'.tx.db.runs = w.tx.db.runs ∧
            (∃ rowId, w'.tx.db.ledger = w.tx.db.ledger ++ [failedRow b rowId row.id row.nextFireAt
              (.slot row.nextFireAt) misfireSkipped]) ∧
            ∃ row' now, w'.tx.db.trigger? row.id = some row' ∧ w.clock ≤ now ∧
              now < row'.nextFireAt) ∧
      ∀ i tenantMax row expression value, row.schedule = .cron expression →
        FirstDue b .cron tenantMax w row →
        ¬ w.tx.db.KeyTaken row.id (slotKey row.nextFireAt) →
        rt.nextCronFireAt expression row.scheduleTimezone row.nextFireAt = .ok value →
        ∀ w' out, Finishes (session b false i) w (dispatchNextDueCronTrigger rt b tenantMax) w' out →
          ∃ run rowId, w'.tx.db.runs = w.tx.db.runs ++ [run] ∧
            w'.tx.db.ledger = w.tx.db.ledger ++ [createdRow b rowId row.id run.id row.nextFireAt
              (.slot row.nextFireAt)]) := by
  have hrun := hreach.mono sessions_le
  have hkeys' : w.tx.db.entries.Nodup := (lockInv_of_reaches hkeys hrun).tx.entries
  constructor
  · have hhistory : History rt b trigger (fun _ now => clock ≤ now) db.ledger w.tx.db :=
      slots_decided hkeys hfound hedits (fun _ _ _ _ _ hle _ => hle) hrun
    obtain ⟨entered, row, hledger, hrow, _, hdecided⟩ := hhistory
    exact ⟨entered, row, hledger, hrow, hdecided.skipped hinterval hskip⟩
  · intro hclosed
    constructor
    · intro i tenantMax row hid hfirst hfree hlate
      refine ⟨exists_finish (fun j _ => hclosed j) _, fun w' out hfinish => ?_⟩
      have hrow := hfirst.trigger? hkeys'
      -- the schedule is still the one that the run began with
      obtain ⟨row', hrow', hcolumns⟩ := scheduled_of_reaches hkeys hfound hedits hrun
      obtain rfl : row' = row := by
        rw [hid, hrow'] at hrow
        exact Option.some.inj hrow
      obtain ⟨run, rowId, stamp, hnow, hplan, hdb⟩ :=
        dispatched_first (by nofun) hclosed hkeys' hfirst hfree hfinish
      have hinterval' : row'.slotColumns.schedule = .interval seconds :=
        (congrArg SlotColumns.schedule hcolumns).trans hinterval
      have hskip' : row'.slotColumns.misfirePolicy = .skip :=
        (congrArg SlotColumns.misfirePolicy hcolumns).trans hskip
      rcases skipping_plan hinterval' hskip' hplan with
        ⟨nextFireAt, rfl, _, hnext⟩ | ⟨nextFireAt, rfl, hearly, _⟩
      · have hpos : 0 < seconds.val * second := Int.mul_pos seconds.property (by decide)
        rw [hdb]
        refine ⟨rfl, ⟨rowId, rfl⟩, _, _, SlotPlan.trigger?_publish _ _ _ _ _ hrow, hnow, ?_⟩
        rw [if_pos rfl]
        show _ < nextFireAt
        omega
      · omega
    · intro i tenantMax row expression value hcron hfirst hfree hvalue w' out hfinish
      obtain ⟨run, rowId, stamp, _, hplan, hdb⟩ :=
        dispatched_first (by nofun) hclosed hkeys' hfirst hfree hfinish
      rw [cron_plan row hcron hvalue] at hplan
      cases hplan
      rw [hdb]
      exact ⟨run, rowId, rfl, rfl⟩

/-! ## After a downtime -/

section Only

variable {b : Backend} {type : TriggerType} {tenantMax now : Int} {db : Db} {row : TriggerRow}

/-- A trigger that is alone in the tables is first if it is due. -/
theorem head_of_only (honly : db.triggers = [row])
    (hdue : row ∈ dueTriggers b now db type tenantMax) :
    (dueTriggers b now db type tenantMax).head? = some row := by
  cases hhead : (dueTriggers b now db type tenantMax).head? with
  | none =>
    rw [List.head?_eq_none_iff.mp hhead] at hdue
    cases hdue
  | some first =>
    obtain ⟨hmem, _⟩ := mem_dueTriggers.mp (List.mem_of_head? hhead)
    rw [honly] at hmem
    rw [List.mem_singleton.mp hmem]

end Only

/-- Due at the epoch, to be skipped if that was missed. -/
def skippingDb (schedule : Schedule) : Db :=
  ⟨[{ beatTrigger with schedule, misfirePolicy := .skip }], [], [], []⟩

theorem skippingDb_keys (schedule : Schedule) : (skippingDb schedule).entries.Nodup := by
  simp [skippingDb, Db.entries]

theorem skippingDb_first (b : Backend) (schedule : Schedule) {clock : Int}
    (hclock : b.stamp 0 ≤ b.stamp clock) :
    FirstDue b schedule.triggerType 1 (.start clock (skippingDb schedule))
      { beatTrigger with schedule, misfirePolicy := .skip } := by
  intro now htime
  refine head_of_only rfl (mem_dueTriggers.mpr ⟨List.mem_cons_self, ?_, rfl, ?_⟩)
  · simp [Db.mayFire, Db.triggerInflight, Db.tenantInflight, TriggerWorld.start, skippingDb,
      beatTrigger, hookTrigger]
  · exact Int.le_trans hclock htime

/-- The interval trigger stood still for a hundred seconds. -/
theorem interval_slot_skipped : ∃ w' out,
    Finishes (session .sqlite false 0)
      (.start (100 * second) (skippingDb (.interval ⟨10, by decide⟩)))
      (dispatchNextDueIntervalTriggerWithLimits beatRuntime .sqlite 1) w' out ∧
    w'.tx.db.runs = [] ∧
    (∃ rowId, w'.tx.db.ledger = [failedRow .sqlite rowId "beat" 0 (.slot 0) misfireSkipped]) ∧
    ∃ row now, w'.tx.db.trigger? "beat" = some row ∧ 100 * second ≤ now ∧
      now < row.nextFireAt := by
  let db := skippingDb (.interval ⟨10, by decide⟩)
  let trigger : TriggerRow :=
    { beatTrigger with schedule := .interval ⟨10, by decide⟩, misfirePolicy := .skip }
  have hfound : db.trigger? trigger.id = some trigger := Table.find_cons.trans (if_pos rfl)
  have hfree : ¬ db.KeyTaken "beat" (slotKey 0) := by
    rintro ⟨_, hrow, _⟩
    cases hrow
  have hedits : ∀ change, EditedBy beatCalls change → change.KeepsSlots trigger.id :=
    fun change hchange => absurd hchange.choose_spec (beatCalls_edit _ change)
  have hreach : PoolReaches (sessions .sqlite false)
      (.start (100 * second) db, callPool beatRuntime .sqlite beatCalls)
      (.start (100 * second) db, callPool beatRuntime .sqlite beatCalls) := .refl
  obtain ⟨_, hdispatch⟩ := missed_slots_skipped beatRuntime .sqlite false beatCalls
    (skippingDb_keys _) hfound rfl rfl hedits hreach
  have hfirst : FirstDue .sqlite .interval 1 (.start (100 * second) db) trigger :=
    skippingDb_first .sqlite (.interval ⟨10, by decide⟩) (by decide)
  obtain ⟨⟨w', out, hfinish⟩, hskipped⟩ := (hdispatch fun _ => rfl).1 0 1 trigger rfl hfirst hfree
    (by decide)
  exact ⟨w', out, hfinish, hskipped w' out hfinish⟩

/-- The cron trigger stood still for ten hours, in which it was due every hour.  It is to
skip what it missed and is fired for it. -/
theorem cron_slot_not_skipped : ∃ w' out run rowId row,
    Finishes (session .postgres false 0)
      (.start (36000 * second) (skippingDb (.cron "0 0 * * * *")))
      (dispatchNextDueCronTrigger hourlyRuntime .postgres 1) w' out ∧
    hourlyRuntime.nextCronFireAt "0 0 * * * *" "UTC" 0 = .ok (3600 * second) ∧
    w'.tx.db.runs = [run] ∧
    w'.tx.db.ledger = [createdRow .postgres rowId "beat" run.id 0 (.slot 0)] ∧
    w'.tx.db.trigger? "beat" = some row ∧ row.misfirePolicy = .skip ∧
    row.nextFireAt < 36000 * second := by
  let trigger : TriggerRow :=
    { beatTrigger with schedule := .cron "0 0 * * * *", misfirePolicy := .skip }
  have hvalue : hourlyRuntime.nextCronFireAt "0 0 * * * *" "UTC" 0 = .ok (3600 * second) := rfl
  have hfree : ¬ (skippingDb (.cron "0 0 * * * *")).KeyTaken "beat" (slotKey 0) := by
    rintro ⟨_, hrow, _⟩
    cases hrow
  obtain ⟨w', out, hfinish⟩ : ∃ w' out, Finishes (session .postgres false 0)
      (.start (36000 * second) (skippingDb (.cron "0 0 * * * *")))
      (dispatchNextDueCronTrigger hourlyRuntime .postgres 1) w' out :=
    exists_finish (fun _ _ => rfl) _
  have hfirst : FirstDue .postgres .cron 1
      (.start (36000 * second) (skippingDb (.cron "0 0 * * * *"))) trigger :=
    skippingDb_first .postgres (.cron "0 0 * * * *") (by decide)
  obtain ⟨run, rowId, stamp, _, hplan, hdb⟩ := dispatched_first (by nofun) (fun _ => rfl)
    (skippingDb_keys _) hfirst hfree hfinish
  rw [cron_plan trigger rfl hvalue] at hplan
  cases hplan
  have hrow : (TriggerWorld.start (36000 * second) (skippingDb (.cron "0 0 * * * *"))).tx.db.trigger?
      "beat" = some trigger := hfirst.trigger? (skippingDb_keys _)
  let next := applyJitter hourlyRuntime (3600 * second) "beat" 1 0
  let row := TriggerChange.row stamp (.fire next) trigger
  have hnext : next < 36000 * second := by decide
  refine ⟨w', out, run, rowId, row, hfinish, hvalue, ?_, ?_, ?_, rfl, hnext⟩
  · rw [hdb]
    rfl
  · rw [hdb]
    rfl
  · rw [hdb, SlotPlan.trigger?_publish _ _ _ _ _ hrow, if_pos rfl]
    rfl

end Trigger
end SecureAgnt

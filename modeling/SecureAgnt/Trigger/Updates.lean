/-
Updates of a trigger among each other and among dispatchers, over runs of any length.

Where at the commit of each update what it has read still stands, no committed change is
lost: `updates_keep_changes`.  `update_lost` is a run of two updates, one of which undoes
what the other has committed.
-/
import SecureAgnt.Trigger.ConfigCalls

namespace SecureAgnt
namespace Trigger

open Storage
open Handler

/-! ## Slots -/

/-- The next instant of a cron expression is after the one that it is asked for. -/
def TriggerRuntime.CronAdvances (rt : TriggerRuntime) : Prop :=
  ∀ expression timezone after value,
    rt.nextCronFireAt expression timezone after = .ok value → after < value

section Slots

variable {rt : TriggerRuntime} {b : Backend} {triggerId : String}

theorem firedSlots_append (rows rows' : List TriggerRunRow) :
    firedSlots triggerId (rows ++ rows') =
      firedSlots triggerId rows ++ firedSlots triggerId rows' := by
  unfold firedSlots fired
  rw [slotRows_append, List.filter_append, List.map_append]

theorem firedSlots_of_aside {rows : List TriggerRunRow}
    (h : ∀ row ∈ rows, ∀ scheduledFor, row.source ≠ .slot scheduledFor) :
    firedSlots triggerId rows = [] := by
  unfold firedSlots
  rw [slotRows_of_aside h]
  rfl

theorem firedSlots_entry_other {id : String} (hne : id ≠ triggerId) (plan : SlotPlan)
    (rowId runId : String) (scheduledFor : Int) :
    firedSlots triggerId [plan.entry b rowId id runId scheduledFor] = [] := by
  unfold firedSlots
  rw [slotRows_entry_other hne]
  rfl

theorem slot_of_entry {slot : Int} (plan : SlotPlan) {rowId runId : String} {scheduledFor : Int}
    (h : slot ∈ firedSlots triggerId [plan.entry b rowId triggerId runId scheduledFor]) :
    slot = scheduledFor := by
  unfold firedSlots at h
  rw [slotRows_entry] at h
  cases plan with
  | fire => exact List.mem_singleton.mp h
  | skip => cases h
  | deadLetter => cases h

/-- A decision moves a trigger on from the slot it fires, and never back. -/
theorem slots_before_next {columns : SlotColumns} {scheduledFor now : Int} {plan : SlotPlan}
    (hcron : rt.CronAdvances) (hplan : columns.plan rt triggerId scheduledFor now = some plan)
    (rowId runId : String) :
    scheduledFor ≤ plan.next scheduledFor ∧
      ∀ slot ∈ firedSlots triggerId [plan.entry b rowId triggerId runId scheduledFor],
        slot < plan.next scheduledFor := by
  unfold firedSlots
  rw [slotRows_entry]
  unfold SlotColumns.plan at hplan
  cases hschedule : columns.schedule with
  | interval seconds =>
    rw [hschedule] at hplan
    dsimp only at hplan
    have hpos : 0 < seconds.val * second := Int.mul_pos seconds.property (by decide)
    unfold intervalPlan at hplan
    split at hplan
    · rename_i hlate
      cases hplan
      have hbounds := applyJitter_bounds rt (now + seconds.val * second) triggerId
        columns.jitterSeconds now
      refine ⟨?_, nofun⟩
      show scheduledFor ≤ applyJitter rt (now + seconds.val * second) triggerId
        columns.jitterSeconds now
      omega
    · cases hplan
      have hbounds := applyJitter_bounds rt (scheduledFor + seconds.val * second) triggerId
        columns.jitterSeconds now
      have hlt : scheduledFor < applyJitter rt (scheduledFor + seconds.val * second) triggerId
          columns.jitterSeconds now := by omega
      refine ⟨le_of_lt hlt, fun slot hslot => ?_⟩
      rw [List.mem_singleton.mp hslot]
      exact hlt
  | cron expression =>
    rw [hschedule] at hplan
    dsimp only at hplan
    unfold cronPlan at hplan
    split at hplan
    · rename_i value hvalue
      cases hplan
      have hbounds := applyJitter_bounds rt value triggerId columns.jitterSeconds
        scheduledFor
      have hlt : scheduledFor < applyJitter rt value triggerId columns.jitterSeconds scheduledFor :=
        lt_of_lt_of_le (hcron _ _ _ _ hvalue) hbounds.1
      refine ⟨le_of_lt hlt, fun slot hslot => ?_⟩
      rw [List.mem_singleton.mp hslot]
      exact hlt
    · cases hplan
      exact ⟨le_refl scheduledFor, nofun⟩
  | webhook =>
    rw [hschedule] at hplan
    cases hplan

/-- The next instant of a schedule is after the reading of the clock. -/
theorem lt_regularAfter {type : TriggerType} {config : TriggerConfig} {now regular : Int}
    (hcron : rt.CronAdvances) (h : regularAfter rt type config now = some regular) : now < regular := by
  unfold regularAfter at h
  cases type with
  | interval =>
    cases h
    have hpos : 0 < (config.intervalSeconds.map (·.val)).getD 60 := by
      cases config.intervalSeconds with
      | none => decide
      | some seconds => exact seconds.property
    have hlater : 0 < (config.intervalSeconds.map (·.val)).getD 60 * second :=
      Int.mul_pos hpos (by decide)
    omega
  | cron =>
    obtain ⟨expression, _, hvalue⟩ := Option.bind_eq_some_iff.mp h
    cases hnext : rt.nextCronFireAt expression config.scheduleTimezone now with
    | error message =>
      rw [hnext] at hvalue
      cases hvalue
    | ok value =>
      rw [hnext] at hvalue
      cases hvalue
      exact hcron _ _ _ _ hnext
  | webhook => cases h

end Slots

/-! ## What a change keeps -/

/-- The row after a change at time `now` that keeps its configuration and its slots in
order. -/
structure Follower (triggerId : String) (row : TriggerRow) (now : Int) (db db' : Db)
    (row' : TriggerRow) : Prop where
  found : db'.trigger? triggerId = some row'
  config : row'.config = row.config
  type : row'.triggerType = row.triggerType
  slots : (∀ slot ∈ firedSlots triggerId db.ledger, slot < row.nextFireAt) →
    ∀ slot ∈ firedSlots triggerId db'.ledger, slot < row'.nextFireAt
  past : (∀ slot ∈ firedSlots triggerId db.ledger, slot ≤ now) →
    ∀ slot ∈ firedSlots triggerId db'.ledger, slot ≤ now
  webhook : row.triggerType = .webhook →
    firedSlots triggerId db'.ledger = firedSlots triggerId db.ledger

section Changes

variable {rt : TriggerRuntime} {calls : Nat → ConfigCall} {Seen : TriggerRow → Prop}
  {since now : Int} {triggerId : String} {db db' : Db} {row : TriggerRow}

theorem Touched.config {row row' : TriggerRow} (h : Touched row row') :
    row'.config = row.config := by
  rcases h with rfl | ⟨now, rfl⟩
  · rfl
  · exact TriggerChange.row_config now .touch row

theorem TriggerRow.triggerType_of_slotColumns {row row' : TriggerRow}
    (h : row'.slotColumns = row.slotColumns) : row'.triggerType = row.triggerType :=
  congrArg (fun columns => columns.schedule.triggerType) h

theorem follower_of_slot
    (hcron : rt.CronAdvances) (hrow : db.trigger? triggerId = some row)
    (h : SlotMove rt .postgres Seen since now db db') :
    ∃ row', Follower triggerId row now db db' row' := by
  obtain @⟨seen, found, plan, decided, run, rowId, stamp, _, _, hlocked, hfound, hplan, _, _,
    hdue⟩ := h
  obtain rfl : seen = found := hlocked rfl
  have hid : row.id = triggerId := (Table.key_of_find hrow).2
  refine ⟨_, plan.trigger?_publish seen run rowId stamp hrow, ?_, ?_, ?_, ?_, ?_⟩
  · split
    · exact TriggerChange.row_config stamp plan.change row
    · rfl
  · split
    · exact TriggerRow.triggerType_of_slotColumns (TriggerChange.row_slotColumns stamp plan.change row)
    · rfl
  · intro hslots
    rw [plan.ledger_publish, firedSlots_append]
    by_cases hsame : row.id = seen.id
    · -- the slot is the one at which the trigger is
      obtain rfl : seen = row := by
        rw [← hsame, hid, hrow] at hfound
        exact (Option.some.inj hfound).symm
      obtain ⟨hle, hentry⟩ := slots_before_next hcron hplan (b := .postgres) rowId run.id
      rw [if_pos rfl, plan.nextFireAt_change]
      intro slot hslot
      rcases List.mem_append.mp hslot with hslot | hslot
      · exact lt_of_lt_of_le (hslots slot hslot) hle
      · rw [hid] at hslot hentry
        exact hentry slot hslot
    · rw [if_neg hsame, firedSlots_entry_other (fun heq => hsame (hid.trans heq.symm)),
        List.append_nil]
      exact hslots
  · intro hpast slot hslot
    rw [plan.ledger_publish, firedSlots_append] at hslot
    rcases List.mem_append.mp hslot with hslot | hslot
    · exact hpast slot hslot
    · by_cases hsame : seen.id = triggerId
      · rw [hsame] at hslot
        rw [slot_of_entry plan hslot]
        exact hdue
      · rw [firedSlots_entry_other hsame] at hslot
        cases hslot
  · intro hwebhook
    rw [plan.ledger_publish, firedSlots_append]
    by_cases hsame : row.id = seen.id
    · obtain rfl : seen = row := by
        rw [← hsame, hid, hrow] at hfound
        exact (Option.some.inj hfound).symm
      exfalso
      unfold TriggerRow.plan SlotColumns.plan at hplan
      have hschedule : seen.slotColumns.schedule.triggerType = .webhook := hwebhook
      cases hcase : seen.slotColumns.schedule with
      | interval seconds =>
        rw [hcase] at hschedule
        cases hschedule
      | cron expression =>
        rw [hcase] at hschedule
        cases hschedule
      | webhook =>
        rw [hcase] at hplan
        cases hplan
    · rw [firedSlots_entry_other (fun heq => hsame (hid.trans heq.symm)), List.append_nil]

/-- Nothing but an update changes the configuration of a trigger, and dispatchers move it on
past the slots they fire. -/
theorem follower_of_moved
    (hcron : rt.CronAdvances)
    (hedits : ∀ change, EditedIn calls change → change.KeepsConfig triggerId)
    (hrow : db.trigger? triggerId = some row)
    (h : Moved rt .postgres Seen (EditedIn calls) since now db db') :
    ∃ row', Follower triggerId row now db db' row' := by
  have hid : row.id = triggerId := (Table.key_of_find hrow).2
  cases h with
  | slot hslot => exact follower_of_slot hcron hrow hslot
  | aside haside =>
    obtain ⟨⟨rows, hledger, hnone⟩, htriggers⟩ := haside
    obtain ⟨row', hrow', htouched⟩ := htriggers _ row hrow
    have hfired : firedSlots triggerId db'.ledger = firedSlots triggerId db.ledger := by
      rw [hledger, firedSlots_append, firedSlots_of_aside hnone, List.append_nil]
    refine ⟨row', hrow', htouched.config,
      TriggerRow.triggerType_of_slotColumns htouched.slotColumns, ?_, ?_, fun _ => hfired⟩
    · rw [hfired, htouched.nextFireAt]
      exact id
    · rw [hfired]
      exact id
  | @edited change hedit =>
    have hkeeps := hedits change hedit
    cases change with
    | createTrigger new =>
      exact ⟨row, trigger?_insertTrigger hrow, rfl, rfl, id, id, fun _ => rfl⟩
    | createRun new => exact ⟨row, hrow, rfl, rfl, id, id, fun _ => rfl⟩
    | editRun id' edit => exact ⟨row, hrow, rfl, rfl, id, id, fun _ => rfl⟩
    | editTrigger id' edit =>
      have hfound := trigger?_changed edit.keeps_id id' hrow
      by_cases hsame : row.id = id'
      · obtain ⟨hconfig, hnext⟩ := hkeeps (hsame.symm.trans hid) row
        rw [if_pos hsame] at hfound
        refine ⟨edit.change row, hfound, hconfig, edit.keeps_type row, ?_, id, fun _ => rfl⟩
        rw [hnext]
        exact id
      · rw [if_neg hsame] at hfound
        exact ⟨row, hfound, rfl, rfl, id, id, fun _ => rfl⟩

end Changes

/-! ## Along a run -/

/-- The row of the trigger has every committed change, and its slot is after those that were
dispatched, none of which was dispatched before it was due. -/
structure InOrder (calls : Nat → ConfigCall) (trigger : TriggerRow)
    (t : TriggerWorld × List Event) (row : TriggerRow) : Prop where
  found : t.1.tx.db.trigger? trigger.id = some row
  type : row.triggerType = trigger.triggerType
  config : row.config = lastConfig trigger.config (committed calls trigger.id t.2)
  others : row = ((otherChanges calls trigger.id t.2).getLastD trigger).withConfig row.config
    (some row.nextFireAt)
  slots : ∀ slot ∈ firedSlots trigger.id t.1.tx.db.ledger, slot < row.nextFireAt
  past : ∀ slot ∈ firedSlots trigger.id t.1.tx.db.ledger, slot ≤ t.1.clock
  readings : ∀ event ∈ t.2, ∀ now, event.time? = some now →
    ∀ slot ∈ firedSlots trigger.id event.db.ledger, slot ≤ now
  webhook : trigger.triggerType = .webhook → firedSlots trigger.id t.1.tx.db.ledger = []

section Changes

variable {calls : Nat → ConfigCall} {triggerId : String} {history : List Event} {event : Event}
  {params : UpdateTriggerParams} {row : TriggerRow}

theorem committed_quiet (h : event.changed = false) :
    committed calls triggerId (history ++ [event]) = committed calls triggerId history := by
  unfold committed
  rw [List.filterMap_append]
  simp [h]

theorem otherChanges_quiet (h : event.changed = false) :
    otherChanges calls triggerId (history ++ [event]) = otherChanges calls triggerId history := by
  unfold otherChanges
  rw [List.filterMap_append]
  simp [h]

theorem committed_other (h : (calls event.session).params? triggerId = none) :
    committed calls triggerId (history ++ [event]) = committed calls triggerId history := by
  unfold committed
  rw [List.filterMap_append]
  simp [h]

theorem otherChanges_other (h : (calls event.session).params? triggerId = none)
    (hchanged : event.changed = true) (hrow : event.db.trigger? triggerId = some row) :
    otherChanges calls triggerId (history ++ [event]) =
      otherChanges calls triggerId history ++ [row] := by
  unfold otherChanges
  rw [List.filterMap_append]
  simp [h, hchanged, hrow]

theorem committed_update (h : (calls event.session).params? triggerId = some params)
    (hchanged : event.changed = true) :
    committed calls triggerId (history ++ [event]) =
      committed calls triggerId history ++ [params] := by
  unfold committed
  rw [List.filterMap_append]
  simp [h, hchanged]

theorem otherChanges_update (h : (calls event.session).params? triggerId = some params) :
    otherChanges calls triggerId (history ++ [event]) = otherChanges calls triggerId history := by
  unfold otherChanges
  rw [List.filterMap_append]
  simp [h]

end Changes

/-- To change the rows of an id into themselves changes nothing. -/
theorem changeTrigger_eq_self {db : Db} {id : String} {f : TriggerRow → TriggerRow}
    (h : ∀ row ∈ db.triggers, row.id = id → f row = row) : db.changeTrigger id f = db := by
  have hrows : changeRow (·.id) id f db.triggers = db.triggers := by
    unfold changeRow
    refine (List.map_congr_left fun row hrow => ?_).trans (List.map_id _)
    by_cases hid : row.id = id
    · rw [if_pos hid]
      exact h row hrow hid
    · rw [if_neg hid]
      rfl
  unfold Db.changeTrigger
  rw [hrows]

/-- A step with its note: the clock does not go back, and the time that the note shows is
one at which the tables were as before the step. -/
structure Noting (t t' : TriggerWorld × List Event) (event : Event) : Prop where
  history : t'.2 = t.2 ++ [event]
  clock : t.1.clock ≤ t'.1.clock
  time : ∀ now, event.time? = some now → t.1.clock ≤ now ∧ event.db = t.1.tx.db

section Steps

variable {rt : TriggerRuntime} {calls : Nat → ConfigCall} {trigger row row' : TriggerRow}
  {t t' : TriggerWorld × List Event} {event : Event} {since : Int} {i : Nat}

theorem noting_of_step {faults : Bool} {stmt : Stmt} {answer : stmt.Ans} {changed : Bool}
    (h : (session .postgres faults i).step t.1 stmt answer t'.1)
    (hhistory : t'.2 = t.2 ++ [⟨i, stmt, answer, changed, t'.1.tx.db⟩]) :
    Noting t t' ⟨i, stmt, answer, changed, t'.1.tx.db⟩ := by
  refine ⟨hhistory, clock_session h, fun now htime => ?_⟩
  cases stmt with
  | nowUtc =>
    obtain ⟨shown, hshown, hanswer, hworld⟩ := h
    obtain rfl : answer = now := Option.some.inj htime
    exact ⟨hanswer ▸ hshown, congrArg (·.tx.db) hworld⟩
  | _ => cases htime

/-- What the clock has shown stays after the slots that had been dispatched. -/
theorem InOrder.readings_concat (h : InOrder calls trigger t row) (hnote : Noting t t' event) :
    ∀ event ∈ t'.2, ∀ now, event.time? = some now →
      ∀ slot ∈ firedSlots trigger.id event.db.ledger, slot ≤ now := by
  intro other hother now htime slot hslot
  rw [hnote.history] at hother
  rcases List.mem_append.mp hother with hother | hother
  · exact h.readings other hother now htime slot hslot
  · obtain rfl := List.mem_singleton.mp hother
    obtain ⟨hle, hdb⟩ := hnote.time now htime
    exact Int.le_trans (h.past slot (hdb ▸ hslot)) hle

theorem InOrder.quiet (h : InOrder calls trigger t row) (hdb : t'.1.tx.db = t.1.tx.db)
    (hnote : Noting t t' event) (hchanged : event.changed = false) :
    InOrder calls trigger t' row := by
  refine ⟨hdb ▸ h.found, h.type, ?_, ?_, hdb ▸ h.slots, ?_, h.readings_concat hnote,
    hdb ▸ h.webhook⟩
  · rw [hnote.history, committed_quiet hchanged]
    exact h.config
  · rw [hnote.history, otherChanges_quiet hchanged]
    exact h.others
  · intro slot hslot
    exact Int.le_trans (h.past slot (hdb ▸ hslot)) hnote.clock

/-- A change by another call is the last of its kind. -/
theorem InOrder.other (h : InOrder calls trigger t row)
    (hfollows : Follower trigger.id row t.1.clock t.1.tx.db t'.1.tx.db row')
    (hnote : Noting t t' event) (hchanged : event.changed = true)
    (hdb : event.db = t'.1.tx.db) (hcall : (calls event.session).params? trigger.id = none) :
    InOrder calls trigger t' row' := by
  refine ⟨hfollows.found, hfollows.type.trans h.type, ?_, ?_, hfollows.slots h.slots, ?_,
    h.readings_concat hnote, ?_⟩
  · rw [hnote.history, committed_other hcall, hfollows.config]
    exact h.config
  · rw [hnote.history, otherChanges_other hcall hchanged (hdb ▸ hfollows.found), List.getLastD_concat]
    exact row'.withConfig_self.symm
  · intro slot hslot
    exact Int.le_trans (hfollows.past h.past slot hslot) hnote.clock
  · intro hwebhook
    rw [hfollows.webhook (h.type.trans hwebhook)]
    exact h.webhook hwebhook

/-- An update that commits in time adds its patch to what is there. -/
theorem InOrder.update {tenantId : String} {params : UpdateTriggerParams} {read : TriggerRow}
    {schedule : Schedule} {nextFireAt : Int} (hcron : rt.CronAdvances)
    (h : InOrder calls trigger t row) (htenant : row.tenantId = tenantId)
    (hread : readBy t.2 i = some read) (htype : read.triggerType = row.triggerType)
    (hschedule : (params.merge read.config).schedule? read.triggerType = some schedule)
    (hnext : PutsOff rt trigger.id read.triggerType (params.merge read.config) (clockReads t.2 i)
      nextFireAt)
    (hstands : StillStands trigger.id params i t.2 t.1.tx.db)
    (hdb : t'.1.tx.db = t.1.tx.db.changeTrigger trigger.id
      (configEdit tenantId (params.merge read.config) (some nextFireAt)).change)
    (hnote : Noting t t' event) (hchanged : event.changed = true)
    (hcall : (calls event.session).params? trigger.id = some params) :
    InOrder calls trigger t' (row.withConfig (params.merge read.config) (some nextFireAt)) := by
  have hid : row.id = trigger.id := (Table.key_of_find h.found).2
  have hmerge : params.merge read.config = params.merge row.config :=
    merge_eq_merge_iff.mpr (hstands.columns read row hread h.found)
  rw [htype] at hschedule
  have hconfig := row.config_withConfig (some nextFireAt) hschedule
  have hledger : t'.1.tx.db.ledger = t.1.tx.db.ledger := hdb ▸ rfl
  refine ⟨?_, (row.withConfig_triggerType _ _).trans h.type, ?_, ?_, ?_, ?_,
    h.readings_concat hnote, hledger ▸ h.webhook⟩
  · rw [hdb, trigger?_changed (configEdit tenantId _ (some nextFireAt)).keeps_id trigger.id h.found,
      if_pos hid]
    exact congrArg some (if_pos htenant)
  · rw [hconfig, hmerge, hnote.history, committed_update hcall hchanged, lastConfig_concat, ← h.config]
  · rw [hconfig, hnote.history, otherChanges_update hcall]
    have hlast := h.others
    generalize (otherChanges calls trigger.id t.2).getLastD trigger = last at hlast ⊢
    have hsame : last.triggerType = row.triggerType := by
      rw [hlast, last.withConfig_triggerType]
    rw [← hsame] at hschedule
    exact (congrArg (fun row => row.withConfig (params.merge read.config) (some nextFireAt))
      hlast).trans (last.withConfig_withConfig row.nextFireAt nextFireAt hschedule)
  · rw [hledger]
    intro slot hslot
    by_cases hwebhook : read.triggerType = .webhook
    · rw [h.webhook (h.type.symm.trans (htype.symm.trans hwebhook))] at hslot
      cases hslot
    · obtain ⟨now, entropyTime, regular, hnow, _, hregular, rfl⟩ := hnext hwebhook
      obtain ⟨tables, hreading⟩ := firstReading_of_clockReads hnow
      -- what was dispatched before the reading of the clock was due by then
      have hdue : slot ≤ now := by
        rcases hstands.slots now tables hreading slot hslot with hbefore | hdue
        · obtain ⟨event, hmem, htime, rfl⟩ := exists_of_firstReading hreading
          exact h.readings event hmem now htime slot hbefore
        · exact hdue
      have hlt := lt_regularAfter hcron hregular
      have hle := (applyJitter_bounds rt regular trigger.id
        (params.merge read.config).jitterSeconds entropyTime).1
      show slot < applyJitter rt regular trigger.id _ entropyTime
      omega
  · rw [hledger]
    intro slot hslot
    exact Int.le_trans (h.past slot hslot) hnote.clock

/-- Every change of the tables that is listed keeps the row in order. -/
theorem InOrder.move (hcron : rt.CronAdvances)
    (hedits : ∀ change, EditedIn calls change → change.KeepsConfig trigger.id)
    (hkeys : t.1.tx.db.entries.Nodup) (h : InOrder calls trigger t row) {db' : Db}
    (hmove : ConfigMove rt calls since i t db') (hne : db' ≠ t.1.tx.db)
    (hstands : ∀ params, (calls i).params? trigger.id = some params →
      StillStands trigger.id params i t.2 t.1.tx.db)
    (hdb : t'.1.tx.db = db') (hnote : Noting t t' event) (hsession : event.session = i)
    (hchanged : event.changed = true) (heventDb : event.db = t'.1.tx.db) :
    ∃ row', InOrder calls trigger t' row' := by
  have hid : row.id = trigger.id := (Table.key_of_find h.found).2
  cases hmove with
  | @other call _ hcall hmoved =>
    obtain ⟨row', hfollows⟩ := follower_of_moved hcron hedits h.found hmoved
    refine ⟨row', h.other (hdb.symm ▸ hfollows) hnote hchanged heventDb ?_⟩
    rw [hsession, hcall]
    rfl
  | @update tenantId id params read schedule nextFireAt hcall hread htype hschedule hnext =>
    let edit := configEdit tenantId (params.merge read.config) (some nextFireAt)
    by_cases hsame : id = trigger.id
    · subst hsame
      have hparams : (calls i).params? trigger.id = some params := by
        rw [hcall]
        exact if_pos rfl
      have honly : ∀ row' ∈ t.1.tx.db.triggers, row'.id = trigger.id → row' = row := by
        intro row' hmem hrow'
        have hfind := (Table.find_eq_some_iff (nodup_triggers hkeys)).mpr ⟨hmem, hrow'⟩
        exact Option.some.inj (hfind.symm.trans h.found)
      have htypes : read.triggerType = row.triggerType := by
        obtain ⟨row', hmem, hrow', htype'⟩ := htype
        rw [← htype', honly row' hmem hrow']
      -- a row of another tenant is not changed
      have htenant : row.tenantId = tenantId := by
        by_contra hother
        refine hne (changeTrigger_eq_self fun row' hmem hrow' => ?_)
        rw [honly row' hmem hrow']
        exact if_neg hother
      exact ⟨_, h.update hcron htenant hread htypes hschedule hnext (hstands params hparams) hdb
        hnote hchanged (hsession ▸ hparams)⟩
    · have hfound := trigger?_changed edit.keeps_id id h.found
      rw [if_neg fun heq => hsame (heq.symm.trans hid)] at hfound
      have hfollows : Follower trigger.id row t.1.clock t.1.tx.db
          (t.1.tx.db.changeTrigger id edit.change) row :=
        ⟨hfound, rfl, rfl, fun hslots => hslots, fun hpast => hpast, fun _ => rfl⟩
      refine ⟨row, h.other (hdb.symm ▸ hfollows) hnote hchanged heventDb ?_⟩
      rw [hsession, hcall]
      exact if_neg hsame

end Steps

section Runs

variable {rt : TriggerRuntime} {faults : Bool} {calls : Nat → ConfigCall} {triggerId : String}
  {clock : Int} {db : Db} {t : TriggerWorld × List Event}
  {ps : Nat → Prog (Nat × Stmt) (fun o => o.2.Ans) DbError ConfigOutcome}

/-- A run in which updates commit in time, with its locks in order. -/
theorem locked_of_timely (hkeys : db.entries.Nodup)
    (hreach : PoolReaches (timelySessions faults calls triggerId)
      ((.start clock db, []), configPool rt calls) (t, ps)) :
    PoolReaches (Handler.tagged fun i => notedSession faults (fun t stmt =>
        LockInv .postgres t.1 ∧ CommitsInTime calls triggerId i t stmt) i)
      ((.start clock db, []), configPool rt calls) (t, ps) := by
  have hlock : ∀ t ps, PoolReaches (timelySessions faults calls triggerId)
      ((.start clock db, []), configPool rt calls) (t, ps) → LockInv .postgres t.1 := by
    intro t ps hreach
    refine hreach.invariant (I := fun t => LockInv .postgres t.1) ?_ (LockInv.start hkeys)
    exact fun t op r t' h hcall => lockInv_session h (noted_step hcall).1
  refine (PoolReaches.guarded hlock hreach).mono ?_
  exact fun _ _ _ _ h => ⟨⟨h.1, h.2.1⟩, h.2.2⟩

end Runs

/-- The part of an update behind its lookup. -/
def patchRow (rt : TriggerRuntime) (tenantId : String) (params : UpdateTriggerParams)
    (existing : TriggerRow) : TriggerProg (Option TriggerRow) := do
  let config := params.merge existing.config
  let regular ← regularFireAt rt existing config
  let entropyTime ← nowUtc
  writeConfig tenantId existing config
    (applyJitter rt regular existing.id config.jitterSeconds entropyTime)

section Alone

variable {rt : TriggerRuntime} {cond : TriggerWorld × List Event → Stmt → Prop} {i : Nat}
  {w : TriggerWorld} {history : List Event} {existing row : TriggerRow} {tenantId : String}
  {params : UpdateTriggerParams} {seconds : { n : Int // 0 < n }}

/-- A statement that leaves the tables as they are, and its note. -/
theorem quiet_noted {stmt : Stmt} {answer : stmt.Ans} {w' : TriggerWorld} {history : List Event}
    (hcond : cond (w, history) stmt)
    (hstep : stmtStep .postgres i w.clock w false stmt answer w') (hdb : w'.tx.db = w.tx.db) :
    (notedSession false cond i).step (w, history) stmt answer
      (w', history ++ [⟨i, stmt, answer, false, w'.tx.db⟩]) :=
  ⟨hcond, ⟨w.clock, Int.le_refl _, hstep⟩, _, ⟨false, rfl, nofun, fun hne => absurd hdb hne⟩, rfl⟩

theorem patchRow_eq (hinterval : existing.triggerType = .interval)
    (hschedule : (params.merge existing.config).schedule? .interval = some (.interval seconds)) :
    patchRow rt tenantId params existing = nowUtc >>= fun now => nowUtc >>= fun entropyTime =>
      updateReturning tenantId existing.id (configEdit tenantId (params.merge existing.config)
        (some (applyJitter rt
          (now + ((params.merge existing.config).intervalSeconds.map (·.val)).getD 60 * second)
          existing.id (params.merge existing.config).jitterSeconds entropyTime))) := by
  unfold patchRow regularFireAt writeConfig
  simp only [hinterval, hschedule]
  rfl

/-- Without anyone else an update of an interval trigger behind its lookup comes to its end,
and changes the tables once. -/
theorem finishes_patchRow (rt : TriggerRuntime)
    (cond : TriggerWorld × List Event → Stmt → Prop) (i : Nat) (history : List Event)
    (hclosed : ∀ j, w.tx.sessions j = none) (hinterval : existing.triggerType = .interval)
    (hrow : w.tx.db.trigger? existing.id = some row) (htenant : row.tenantId = tenantId)
    (htype : row.triggerType = .interval)
    (hschedule : (params.merge existing.config).schedule? .interval = some (.interval seconds))
    (hne : params.merge existing.config ≠ row.config)
    (hcond : ∀ t stmt, t.1.tx.db = w.tx.db → history <+: t.2 → cond t stmt) :
    ∃ w' history' nextFireAt,
      Finishes (notedSession false cond i) (w, history) (patchRow rt tenantId params existing)
        (w', history')
        (.ok (some (row.withConfig (params.merge existing.config) (some nextFireAt)))) ∧
      (∀ j, w'.tx.sessions j = none) ∧
      w'.tx.db = w.tx.db.changeTrigger existing.id
        (configEdit tenantId (params.merge existing.config) (some nextFireAt)).change ∧
      history <+: history' ∧ ∀ calls triggerId, (calls i).params? triggerId = some params →
        committed calls triggerId history' = committed calls triggerId history ++ [params] := by
  let config := params.merge existing.config
  let nextFireAt := applyJitter rt
    (w.clock + (config.intervalSeconds.map (·.val)).getD 60 * second) existing.id
      config.jitterSeconds w.clock
  let edit := configEdit tenantId config (some nextFireAt)
  let write : Write := .editTrigger existing.id edit
  let begun : TriggerWorld := { w.setTx i (some ⟨[], []⟩) with
    started := Function.update w.started i w.clock }
  let written : TriggerWorld := begun.setTx i (some ⟨[write], write.needs .postgres⟩)
  let h₁ := history ++ [⟨i, .nowUtc, w.clock, false, w.tx.db⟩]
  let h₂ := h₁ ++ [⟨i, .nowUtc, w.clock, false, w.tx.db⟩]
  let h₃ := h₂ ++ [⟨i, .sql .begin, .ok (), false, w.tx.db⟩]
  let h₄ := h₃ ++ [⟨i, .sql (.edit write), .ok (), false, w.tx.db⟩]
  let h₅ := h₄ ++ [⟨i, .sql (.selectTrigger tenantId existing.id),
    .ok (some (row.withConfig config (some nextFireAt))), false, w.tx.db⟩]
  have hfront₁ : history <+: h₁ := List.prefix_append ..
  have hfront₂ : history <+: h₂ := hfront₁.trans (List.prefix_append ..)
  have hfront₃ : history <+: h₃ := hfront₂.trans (List.prefix_append ..)
  have hfront₄ : history <+: h₄ := hfront₃.trans (List.prefix_append ..)
  have hfront₅ : history <+: h₅ := hfront₄.trans (List.prefix_append ..)
  have hfree : ∀ r, begun.tx.Free i r := by
    refine free_of_others fun j hj => ?_
    exact (w.tx.setSession_other _ hj).trans (hclosed j)
  have hbegun : begun.tx.sessions i = some ⟨[], []⟩ := w.tx.setSession_same i _
  have hown : written.tx.sessions i = some ⟨[write], write.needs .postgres⟩ :=
    begun.tx.setSession_same i _
  have hbegin : BeginStep i w.clock w (.ok ()) begun := by
    unfold BeginStep
    rw [hclosed i]
    exact ⟨rfl, rfl⟩
  have hwrite : WriteStep .postgres i begun.clock begun write (.ok ()) written := by
    unfold WriteStep
    rw [hbegun]
    exact ⟨fun r _ => hfree r, .inl ⟨rfl, nofun, rfl⟩⟩
  have hchange : edit.change row = row.withConfig config (some nextFireAt) := if_pos htenant
  have hfound : (w.tx.db.changeTrigger existing.id edit.change).trigger? existing.id =
      some (row.withConfig config (some nextFireAt)) := by
    rw [trigger?_changed edit.keeps_id existing.id hrow, if_pos (Table.key_of_find hrow).2, hchange]
  have hreturn : some (row.withConfig config (some nextFireAt)) =
      ((written.view i).trigger? existing.id).filter (·.tenantId = tenantId) := by
    have hview : written.view i = w.tx.db.changeTrigger existing.id edit.change := by
      unfold TriggerWorld.view
      rw [hown]
      rfl
    rw [hview, hfound, Option.filter_some,
      if_pos (decide_eq_true (show (row.withConfig _ _).tenantId = tenantId from htenant))]
  have hchanged : w.tx.db.changeTrigger existing.id edit.change ≠ w.tx.db := by
    intro hsame
    rw [hsame, hrow] at hfound
    refine hne ((row.config_withConfig (some nextFireAt) (htype.symm ▸ hschedule)).symm.trans ?_)
    exact congrArg TriggerRow.config (Option.some.inj hfound).symm
  let after := written.publish i ⟨[write], write.needs .postgres⟩
  let h₆ := h₅ ++ [⟨i, .sql .commit, .ok (), true, after.tx.db⟩]
  have hcommit : (notedSession false cond i).step (written, h₅) (.sql .commit) (.ok ())
      (after, h₆) := by
    have hstep : CommitStep i written.clock written (.ok ()) after := by
      unfold CommitStep
      rw [hown]
      exact ⟨rfl, rfl⟩
    exact ⟨hcond _ _ rfl hfront₅, ⟨written.clock, Int.le_refl _, .inl hstep⟩, _,
      ⟨true, rfl, fun _ => hchanged, fun _ => rfl⟩, rfl⟩
  refine ⟨after, h₆, nextFireAt, ?_, ?_, rfl, hfront₅.trans (List.prefix_append ..), ?_⟩
  · rw [patchRow_eq hinterval hschedule]
    refine .call w.clock (quiet_noted (hcond _ _ rfl (List.prefix_refl _)) ⟨rfl, rfl⟩ rfl)
      (.call w.clock (quiet_noted (hcond _ _ rfl hfront₁) ⟨rfl, rfl⟩ rfl)
      (.call (.ok ()) (quiet_noted (hcond _ _ rfl hfront₂) (.inl hbegin) rfl)
      (.call (.ok ()) (quiet_noted (hcond _ _ rfl hfront₃) (.inl hwrite) rfl)
      (.call (.ok (some (row.withConfig config (some nextFireAt))))
        (quiet_noted (hcond _ _ rfl hfront₄) (.inl ⟨congrArg Except.ok hreturn, rfl⟩) rfl)
      (.call (.ok ()) hcommit (.pure _ _))))))
  · intro j
    by_cases hj : j = i
    · subst hj
      exact publish_closed j written written.clock _
    · exact ((TxWorld.setSession_other _ none hj).trans (begun.tx.setSession_other _ hj)).trans
        ((w.tx.setSession_other _ hj).trans (hclosed j))
  · intro calls triggerId hparams
    rw [committed_update hparams rfl, committed_quiet rfl, committed_quiet rfl, committed_quiet rfl,
      committed_quiet rfl, committed_quiet rfl]

/-- The lookup of a trigger that is there. -/
theorem lookup_noted {triggerId : String} {history : List Event}
    (hclosed : ∀ j, w.tx.sessions j = none) (hrow : w.tx.db.trigger? triggerId = some row)
    (htenant : row.tenantId = tenantId)
    (hcond : cond (w, history) (.sql (.selectTrigger tenantId triggerId))) :
    (notedSession false cond i).step (w, history) (.sql (.selectTrigger tenantId triggerId))
      (.ok (some row)) (w, history ++ [⟨i, .sql (.selectTrigger tenantId triggerId),
        .ok (some row), false, w.tx.db⟩]) := by
  have hview : w.view i = w.tx.db := by
    unfold TriggerWorld.view
    rw [hclosed i]
  have hfound : some row = ((w.view i).trigger? triggerId).filter (·.tenantId = tenantId) := by
    rw [hview, hrow, Option.filter_some, if_pos (decide_eq_true htenant)]
  exact quiet_noted hcond (.inl ⟨congrArg Except.ok hfound, rfl⟩) rfl

end Alone

/-! ## Two updates of one trigger -/

def inflightPatch : UpdateTriggerParams := { maxInflightRuns := some ⟨7, by decide⟩ }

theorem five_attempts_pos : (0 : Int) < 5 := by decide

def attemptsPatch : UpdateTriggerParams := { maxAttempts := some ⟨5, five_attempts_pos⟩ }

def twoUpdates : Nat → ConfigCall
  | 0 => .update "acme" "beat" inflightPatch
  | 1 => .update "acme" "beat" attemptsPatch
  | _ => .update "acme" "none" {}

/-- The row that both updates find. -/
def beatLookup (i : Nat) : Event :=
  ⟨i, .sql (.selectTrigger "acme" "beat"), .ok (some beatTrigger), false, beatDb⟩

theorem beatDb_trigger? : beatDb.trigger? "beat" = some beatTrigger :=
  Table.find_cons.trans (if_pos rfl)

/-- The second update alone, behind its lookup. -/
theorem finishes_attempts (cond : TriggerWorld × List Event → Stmt → Prop)
    (history : List Event)
    (hcond : ∀ t stmt, t.1.tx.db = beatDb → history <+: t.2 → cond t stmt) :
    ∃ w' history' nextFireAt,
      Finishes (notedSession false cond 1) (.start 0 beatDb, history)
        (patchRow beatRuntime "acme" attemptsPatch beatTrigger) (w', history')
        (.ok (some (beatTrigger.withConfig (attemptsPatch.merge beatTrigger.config)
          (some nextFireAt)))) ∧
      (∀ j, w'.tx.sessions j = none) ∧
      w'.tx.db.trigger? "beat" = some (beatTrigger.withConfig
        (attemptsPatch.merge beatTrigger.config) (some nextFireAt)) ∧
      history <+: history' ∧
      committed twoUpdates "beat" history' =
        committed twoUpdates "beat" history ++ [attemptsPatch] := by
  have hne : attemptsPatch.merge beatTrigger.config ≠ beatTrigger.config := fun hsame =>
    absurd (show (5 : Int) = 3 from congrArg (·.maxAttempts.val) hsame) (by decide)
  have hfound : beatDb.trigger? beatTrigger.id = some beatTrigger := beatDb_trigger?
  obtain ⟨w', history', nextFireAt, hfinish, hclosed, hdb, hfront, hcommitted⟩ :=
    finishes_patchRow (w := .start 0 beatDb) beatRuntime cond 1 history (fun _ => rfl) rfl hfound
      rfl rfl rfl hne hcond
  refine ⟨w', history', nextFireAt, hfinish, hclosed, ?_, hfront, hcommitted _ _ rfl⟩
  rw [hdb]
  exact (trigger?_changed (configEdit "acme" _ _).keeps_id "beat" beatDb_trigger?).trans rfl

/-- The first step of an update, and the rest of it. -/
theorem finishes_of_patchRow {cond : TriggerWorld × List Event → Stmt → Prop} {i : Nat}
    {params : UpdateTriggerParams} {t' : TriggerWorld × List Event} {found : Option TriggerRow}
    (hcond : cond (.start 0 beatDb, []) (.sql (.selectTrigger "acme" "beat")))
    (h : Finishes (notedSession false cond i) (.start 0 beatDb, [beatLookup i])
      (patchRow beatRuntime "acme" params beatTrigger) t' (.ok found)) :
    Finishes (notedSession false cond i) (.start 0 beatDb, [])
      ((ConfigCall.update "acme" "beat" params).program beatRuntime) t' (.ok (.updated found)) :=
  .call (.ok (some beatTrigger)) (lookup_noted (fun _ => rfl) beatDb_trigger? rfl hcond)
    (h.bind_ok (.pure _ _))

theorem twoUpdates_edit (change : Edit) : ¬ EditedIn twoUpdates change := by
  intro hedit
  obtain ⟨i, hcall⟩ := hedit
  match i, hcall with
  | 0, hcall => cases hcall
  | 1, hcall => cases hcall
  | _ + 2, hcall => cases hcall

end Trigger
end SecureAgnt

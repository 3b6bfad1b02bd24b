/-
The slots of one trigger, one after the other.

`Decided` is a sequence of decisions about a trigger: each is about the slot that the one
before it left.  `slots_decided` is that the entries of the trigger in the ledger are such
a sequence, whatever else is called at the same time, as long as nobody edits the
schedule of the trigger or its slot.
-/
import SecureAgnt.Trigger.Tracked

namespace SecureAgnt
namespace Trigger

open Storage
open Handler

/-! ## Decisions in a row -/

/-- From the slot `first` on, the decisions made these entries and left this slot;
`taken` holds of each slot and the time of its decision. -/
inductive Decided (rt : TriggerRuntime) (b : Backend) (columns : SlotColumns) (triggerId : String)
    (taken : Int → Int → Prop) (first : Int) : List TriggerRunRow → Int → Prop
  | start : Decided rt b columns triggerId taken first [] first
  | slot {rows : List TriggerRunRow} {scheduledFor now : Int} {plan : SlotPlan}
      (rowId runId : String) (h : Decided rt b columns triggerId taken first rows scheduledFor)
      (htaken : taken scheduledFor now)
      (hplan : columns.plan rt triggerId scheduledFor now = some plan) :
      Decided rt b columns triggerId taken first
        (rows ++ [plan.entry b rowId triggerId runId scheduledFor]) (plan.next scheduledFor)

def Source.isSlot : Source → Bool
  | .slot _ => true
  | _ => false

/-- The entries for slots of a trigger. -/
def slotRows (triggerId : String) (rows : List TriggerRunRow) : List TriggerRunRow :=
  rows.filter fun row => row.triggerId = triggerId && row.source.isSlot

/-- The edit changes neither the schedule of the trigger nor its slot. -/
def Edit.KeepsSlots (triggerId : String) : Edit → Prop
  | .editTrigger id edit => id = triggerId → ∀ row,
      (edit.change row).slotColumns = row.slotColumns ∧
        (edit.change row).nextFireAt = row.nextFireAt
  | _ => True

section Rows

variable {rt : TriggerRuntime} {b : Backend} {triggerId : String}

theorem slotRows_append (rows rows' : List TriggerRunRow) :
    slotRows triggerId (rows ++ rows') = slotRows triggerId rows ++ slotRows triggerId rows' :=
  List.filter_append ..

theorem slotRows_of_aside {rows : List TriggerRunRow}
    (h : ∀ row ∈ rows, ∀ scheduledFor, row.source ≠ .slot scheduledFor) :
    slotRows triggerId rows = [] := by
  refine List.filter_eq_nil_iff.mpr fun row hrow hcounted => ?_
  simp only [Bool.and_eq_true] at hcounted
  cases hsource : row.source with
  | slot scheduledFor => exact h row hrow scheduledFor hsource
  | event eventId =>
    rw [hsource] at hcounted
    cases hcounted.2
  | manual idempotencyKey =>
    rw [hsource] at hcounted
    cases hcounted.2

theorem SlotPlan.entry_triggerId (plan : SlotPlan) (rowId runId : String) (scheduledFor : Int) :
    (plan.entry b rowId triggerId runId scheduledFor).triggerId = triggerId := by
  cases plan <;> rfl

theorem SlotPlan.entry_source (plan : SlotPlan) (rowId runId : String) (scheduledFor : Int) :
    (plan.entry b rowId triggerId runId scheduledFor).source = .slot scheduledFor := by
  cases plan <;> rfl

theorem slotRows_entry (plan : SlotPlan) (rowId runId : String) (scheduledFor : Int) :
    slotRows triggerId [plan.entry b rowId triggerId runId scheduledFor] =
      [plan.entry b rowId triggerId runId scheduledFor] := by
  unfold slotRows
  rw [List.filter_cons_of_pos, List.filter_nil]
  rw [plan.entry_triggerId, plan.entry_source]
  simp [Source.isSlot]

theorem slotRows_entry_other {id : String} (hne : id ≠ triggerId) (plan : SlotPlan)
    (rowId runId : String) (scheduledFor : Int) :
    slotRows triggerId [plan.entry b rowId id runId scheduledFor] = [] := by
  unfold slotRows
  rw [List.filter_cons_of_neg, List.filter_nil]
  rw [plan.entry_triggerId]
  simp [hne]

theorem SlotPlan.ledger_publish (plan : SlotPlan) (trigger : TriggerRow) (run : RunRecord)
    (rowId : String) (stamp : Int) (db : Db) : (plan.publish b trigger run rowId stamp db).ledger =
      db.ledger ++ [plan.entry b rowId trigger.id run.id trigger.nextFireAt] := by
  cases plan <;> rfl

theorem trigger?_changed {db : Db} {row : TriggerRow} {f : TriggerRow → TriggerRow}
    (hf : ∀ row, (f row).id = row.id) (id : String) (hrow : db.trigger? triggerId = some row) :
    (db.changeTrigger id f).trigger? triggerId = some (if row.id = id then f row else row) := by
  rw [trigger?_changeTrigger hf, hrow]
  rfl

theorem SlotPlan.trigger?_publish {db : Db} {row : TriggerRow} (plan : SlotPlan)
    (trigger : TriggerRow) (run : RunRecord) (rowId : String) (stamp : Int)
    (hrow : db.trigger? triggerId = some row) :
    (plan.publish b trigger run rowId stamp db).trigger? triggerId =
      some (if row.id = trigger.id then TriggerChange.row stamp plan.change row else row) := by
  cases plan <;> exact trigger?_changed (TriggerChange.row_id stamp _) trigger.id hrow

theorem SlotPlan.nextFireAt_change (plan : SlotPlan) (stamp : Int) (row : TriggerRow) :
    (TriggerChange.row stamp plan.change row).nextFireAt = plan.next row.nextFireAt := by
  cases plan <;> rfl

theorem TriggerChange.row_slotColumns (stamp : Int) (change : TriggerChange) (row : TriggerRow) :
    (change.row stamp row).slotColumns = row.slotColumns := by
  cases change <;> rfl

theorem Touched.slotColumns {row row' : TriggerRow} (h : Touched row row') :
    row'.slotColumns = row.slotColumns := by
  rcases h with rfl | ⟨now, rfl⟩
  · rfl
  · exact TriggerChange.row_slotColumns now .touch row

theorem Touched.nextFireAt {row row' : TriggerRow} (h : Touched row row') :
    row'.nextFireAt = row.nextFireAt := by
  rcases h with rfl | ⟨now, rfl⟩
  · rfl
  · rfl

/-- An edit leaves the ledger, and the slots that it is to keep. -/
theorem edited_keeps {change : Edit} {db : Db} {row : TriggerRow}
    (hkeeps : change.KeepsSlots triggerId) (hrow : db.trigger? triggerId = some row) :
    (change.write.apply db).ledger = db.ledger ∧
      ∃ row', (change.write.apply db).trigger? triggerId = some row' ∧
        row'.slotColumns = row.slotColumns ∧ row'.nextFireAt = row.nextFireAt := by
  cases change with
  | createTrigger new => exact ⟨rfl, row, trigger?_insertTrigger hrow, rfl, rfl⟩
  | createRun new => exact ⟨rfl, row, hrow, rfl, rfl⟩
  | editRun id edit => exact ⟨rfl, row, hrow, rfl, rfl⟩
  | editTrigger id edit =>
    refine ⟨rfl, _, trigger?_changed edit.keeps_id id hrow, ?_⟩
    by_cases hid : row.id = id
    · rw [if_pos hid]
      exact hkeeps (hid.symm.trans (Table.key_of_find hrow).2) row
    · rw [if_neg hid]
      exact ⟨rfl, rfl⟩

end Rows

/-! ## Along a run -/

section Runs

variable {rt : TriggerRuntime} {b : Backend} {faults : Bool} {cond : TriggerWorld → Prop}
  {calls : Nat → TriggerCall} {clock : Int} {db : Db} {w : TriggerWorld} {trigger : TriggerRow}
  {ps : Nat → Prog (Nat × Stmt) (fun o => o.2.Ans) DbError TriggerOutcome}

/-- The trigger is there with its schedule. -/
def Scheduled (trigger : TriggerRow) (db : Db) : Prop :=
  ∃ row, db.trigger? trigger.id = some row ∧ row.slotColumns = trigger.slotColumns

/-- Nothing but an edit changes a schedule. -/
theorem scheduled_moved {Seen : TriggerRow → Prop} {now : Int} {db' : Db}
    (hedits : ∀ change, EditedBy calls change → change.KeepsSlots trigger.id)
    (h : Scheduled trigger db) (hmoved : Moved rt b Seen (EditedBy calls) clock now db db') :
    Scheduled trigger db' := by
  obtain ⟨row, hrow, hcolumns⟩ := h
  cases hmoved with
  | slot hslot =>
    obtain @⟨seen, _, plan, _, run, rowId, stamp, _, _, _, _, _, _, _, _⟩ := hslot
    refine ⟨_, plan.trigger?_publish seen run rowId stamp hrow, ?_⟩
    split
    · rw [TriggerChange.row_slotColumns, hcolumns]
    · exact hcolumns
  | aside haside =>
    obtain ⟨row', hrow', htouched⟩ := haside.triggers _ row hrow
    exact ⟨row', hrow', htouched.slotColumns.trans hcolumns⟩
  | @edited change hedit =>
    obtain ⟨_, row', hrow', hcolumns', _⟩ := edited_keeps (hedits change hedit) hrow
    exact ⟨row', hrow', hcolumns'.trans hcolumns⟩

/-- The entries of the trigger since the ledger was `ledger`. -/
def History (rt : TriggerRuntime) (b : Backend) (trigger : TriggerRow) (taken : Int → Int → Prop)
    (ledger : List TriggerRunRow) (db : Db) : Prop :=
  ∃ entered row, db.ledger = ledger ++ entered ∧ db.trigger? trigger.id = some row ∧
    row.slotColumns = trigger.slotColumns ∧
    Decided rt b trigger.slotColumns trigger.id taken trigger.nextFireAt
      (slotRows trigger.id entered) row.nextFireAt

theorem history_moved {Seen : TriggerRow → Prop} {taken : Int → Int → Prop} {now : Int}
    {ledger : List TriggerRunRow} {db' : Db}
    (hedits : ∀ change, EditedBy calls change → change.KeepsSlots trigger.id)
    (hseen : ∀ row, Seen row → row.id = trigger.id → row.slotColumns = trigger.slotColumns)
    (htaken : ∀ row decided, db.trigger? trigger.id = some row → clock ≤ decided → decided ≤ now →
      taken row.nextFireAt decided)
    (h : History rt b trigger taken ledger db)
    (hmoved : Moved rt b Seen (EditedBy calls) clock now db db') :
    History rt b trigger taken ledger db' := by
  obtain ⟨entered, row, hledger, hrow, hcolumns, hdecided⟩ := h
  have hid : row.id = trigger.id := (Table.key_of_find hrow).2
  cases hmoved with
  | slot hslot =>
    obtain @⟨seen, found, plan, decided, run, rowId, stamp, hsaw, hat, _, hfound, hplan, hsince,
      hclock, _⟩ := hslot
    let entry := plan.entry b rowId seen.id run.id seen.nextFireAt
    refine ⟨entered ++ [entry], _, ?_, plan.trigger?_publish seen run rowId stamp hrow, ?_, ?_⟩
    · rw [plan.ledger_publish, hledger, List.append_assoc]
    · split
      · rw [TriggerChange.row_slotColumns, hcolumns]
      · exact hcolumns
    · rw [slotRows_append]
      by_cases hsame : seen.id = trigger.id
      · -- the row that is found is the one that the history has come to
        have hfoundRow : found = row := by
          rw [hsame, hrow] at hfound
          exact (Option.some.inj hfound).symm
        have hslotAt : seen.nextFireAt = row.nextFireAt := by
          rw [← hat.nextFireAt, hfoundRow]
        have hplan' : trigger.slotColumns.plan rt trigger.id row.nextFireAt decided = some plan := by
          rw [← hseen seen hsaw hsame, ← hsame, ← hslotAt]
          exact hplan
        rw [if_pos (hid.trans hsame.symm), plan.nextFireAt_change]
        show Decided rt b _ _ _ _ (_ ++ slotRows trigger.id
          [plan.entry b rowId seen.id run.id seen.nextFireAt]) _
        rw [hsame, hslotAt, slotRows_entry]
        exact .slot rowId run.id hdecided (htaken row decided hrow hsince hclock) hplan'
      · have hother : row.id ≠ seen.id := fun heq => hsame (heq.symm.trans hid)
        rw [if_neg hother, slotRows_entry_other hsame, List.append_nil]
        exact hdecided
  | aside haside =>
    obtain ⟨⟨rows, hrows, hnone⟩, htriggers⟩ := haside
    obtain ⟨row', hrow', htouched⟩ := htriggers _ row hrow
    refine ⟨entered ++ rows, row', by rw [hrows, hledger, List.append_assoc], hrow',
      htouched.slotColumns.trans hcolumns, ?_⟩
    rw [slotRows_append, slotRows_of_aside hnone, List.append_nil, htouched.nextFireAt]
    exact hdecided
  | @edited change hedit =>
    obtain ⟨hsame, row', hrow', hcolumns', hnext⟩ := edited_keeps (hedits change hedit) hrow
    exact ⟨entered, row', hsame.trans hledger, hrow', hcolumns'.trans hcolumns, hnext ▸ hdecided⟩

/-- The schedule stays along every run. -/
theorem scheduled_of_reaches (hkeys : db.entries.Nodup)
    (hfound : db.trigger? trigger.id = some trigger)
    (hedits : ∀ change, EditedBy calls change → change.KeepsSlots trigger.id)
    (hreach : PoolReaches (sessionsIn b faults cond) (.start clock db, callPool rt b calls)
      (w, ps)) : Scheduled trigger w.tx.db := by
  have hrun := invariant_of_moves (I := fun _ db => Scheduled trigger db)
    (S := fun _ => True) (fun _ _ _ _ => trivial) (fun _ _ _ _ h => h)
    (fun _ _ _ _ _ h hmoved => scheduled_moved hedits h hmoved) hkeys
    ⟨trigger, hfound, rfl⟩ hreach
  exact hrun.2

/-- Whatever is called at the same time, the entries of a trigger are decisions in a row,
and the last of them left the slot at which the trigger is. -/
theorem slots_decided {taken : Int → Int → Prop} (hkeys : db.entries.Nodup)
    (hfound : db.trigger? trigger.id = some trigger)
    (hedits : ∀ change, EditedBy calls change → change.KeepsSlots trigger.id)
    (htaken : ∀ w row decided, cond w → w.tx.db.trigger? trigger.id = some row →
      clock ≤ decided → decided ≤ w.clock → taken row.nextFireAt decided)
    (hreach : PoolReaches (sessionsIn b faults cond) (.start clock db, callPool rt b calls)
      (w, ps)) : History rt b trigger taken db.ledger w.tx.db := by
  let Seen : TriggerRow → Prop := fun row =>
    row.id = trigger.id → row.slotColumns = trigger.slotColumns
  let cond' : TriggerWorld → Prop := fun w =>
    (LockInv b w ∧ cond w) ∧ Scheduled trigger w.tx.db
  have hguarded : PoolReaches (sessionsIn b faults cond') (.start clock db, callPool rt b calls)
      (w, ps) := by
    have hlocked := locked_of_reaches hkeys hreach
    refine (PoolReaches.guarded (fun _ _ h => scheduled_of_reaches hkeys hfound hedits h)
      hlocked).mono ?_
    exact fun _ _ _ _ h => ⟨⟨h.2.1, h.1⟩, h.2.2⟩
  have hseen : ∀ w, cond' w → ∀ row ∈ w.tx.db.triggers, Seen row := by
    intro w hw row hmem hid
    obtain ⟨row', hrow', hcolumns⟩ := hw.2
    have hfind : w.tx.db.trigger? trigger.id = some row :=
      (Table.find_eq_some_iff (nodup_triggers hw.1.1.tx.entries)).mpr ⟨hmem, hid⟩
    rw [hfind] at hrow'
    cases hrow'
    exact hcolumns
  have hrun := invariant_of_moves (S := Seen)
    (I := fun _ db' => History rt b trigger taken db.ledger db') hseen
    (fun _ _ _ _ h => h)
    (fun w db' hw _ _ h hmoved => history_moved hedits (fun _ h => h)
      (fun row decided => htaken w row decided hw.1.2) h hmoved) hkeys
    ⟨[], trigger, (List.append_nil _).symm, hfound, rfl, .start⟩ hguarded
  exact hrun.2

end Runs

end Trigger
end SecureAgnt

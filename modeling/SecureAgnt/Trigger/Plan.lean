/-
What the dispatchers decide about a due slot.

The decision is a function of the trigger as it was read and of one reading of the
clock.  `SlotPlan.publish` is what the transaction that carries it out commits, and
`fireScheduled_interval` and `fireScheduled_cron` say that the dispatchers decide so.
-/
import SecureAgnt.Trigger.Dispatch

namespace SecureAgnt
namespace Trigger

open Storage
open Runs (TriggerDispatchRecord)

/-- The columns that say when a trigger fires. -/
structure SlotColumns where
  schedule : Schedule
  scheduleTimezone : String
  misfirePolicy : MisfirePolicy
  jitterSeconds : Int
  deriving DecidableEq

def TriggerRow.slotColumns (row : TriggerRow) : SlotColumns where
  schedule := row.schedule
  scheduleTimezone := row.scheduleTimezone
  misfirePolicy := row.misfirePolicy
  jitterSeconds := row.jitterSeconds

/-- What becomes of a due slot. -/
inductive SlotPlan where
  | fire (nextFireAt : Int)
  | skip (nextFireAt : Int)
  | deadLetter (message : String)

def intervalPlan (rt : TriggerRuntime) (columns : SlotColumns) (triggerId : String)
    (seconds scheduledFor now : Int) : SlotPlan :=
  if columns.misfirePolicy = .skip ∧ now - scheduledFor ≥ seconds * second then
    .skip (applyJitter rt (now + seconds * second) triggerId columns.jitterSeconds now)
  else .fire (applyJitter rt (scheduledFor + seconds * second) triggerId columns.jitterSeconds now)

def cronPlan (rt : TriggerRuntime) (columns : SlotColumns) (triggerId expression : String)
    (scheduledFor : Int) : SlotPlan :=
  match rt.nextCronFireAt expression columns.scheduleTimezone scheduledFor with
  | .ok value => .fire (applyJitter rt value triggerId columns.jitterSeconds scheduledFor)
  | .error message => .deadLetter message

/-- A webhook has no slots. -/
def SlotColumns.plan (rt : TriggerRuntime) (columns : SlotColumns) (triggerId : String)
    (scheduledFor now : Int) : Option SlotPlan :=
  match columns.schedule with
  | .interval seconds => some (intervalPlan rt columns triggerId seconds.val scheduledFor now)
  | .cron expression => some (cronPlan rt columns triggerId expression scheduledFor)
  | .webhook => none

def TriggerRow.plan (rt : TriggerRuntime) (now : Int) (trigger : TriggerRow) : Option SlotPlan :=
  trigger.slotColumns.plan rt trigger.id trigger.nextFireAt now

namespace SlotPlan

def change : SlotPlan → TriggerChange
  | .fire nextFireAt => .fire nextFireAt
  | .skip nextFireAt => .skip nextFireAt
  | .deadLetter message => .deadLetter ("SCHEDULE_COMPUTE_FAILED: " ++ message)

/-- When the trigger is scheduled for next. -/
def next (scheduledFor : Int) : SlotPlan → Int
  | .fire nextFireAt => nextFireAt
  | .skip nextFireAt => nextFireAt
  | .deadLetter _ => scheduledFor

/-- The row of the ledger for a slot. -/
def entry (b : Backend) (rowId triggerId runId : String) (scheduledFor : Int) :
    SlotPlan → TriggerRunRow
  | .fire _ => createdRow b rowId triggerId runId scheduledFor (.slot scheduledFor)
  | .skip _ => failedRow b rowId triggerId scheduledFor (.slot scheduledFor) misfireSkipped
  | .deadLetter message =>
    failedRow b rowId triggerId scheduledFor (.slot scheduledFor) (cronComputeFailed message)

/-- The tables after a slot of a trigger. -/
def publish (b : Backend) (trigger : TriggerRow) (run : RunRecord) (rowId : String) (stamp : Int)
    (plan : SlotPlan) (db : Db) : Db :=
  let entered := match plan with
    | .fire _ => db.insertRun run
    | _ => db
  (entered.insertTriggerRun (plan.entry b rowId trigger.id run.id trigger.nextFireAt)).changeTrigger
    trigger.id (TriggerChange.row stamp plan.change)

/-- What the dispatcher answers. -/
def record (trigger : TriggerRow) (runId : String) : SlotPlan → Option TriggerDispatchRecord
  | .fire nextFireAt => some (dispatchRecord trigger trigger.triggerType.text none runId
      trigger.nextFireAt nextFireAt)
  | _ => none

/-- The part of a dispatcher behind its decision. -/
def execute (b : Backend) (type : TriggerType) (trigger : TriggerRow) :
    SlotPlan → TriggerProg (Option TriggerDispatchRecord)
  | .fire nextFireAt => fireSlot b trigger type nextFireAt
  | .skip nextFireAt => failSlot b trigger (.skip nextFireAt) misfireSkipped
  | .deadLetter message => failSlot b trigger
      (.deadLetter ("SCHEDULE_COMPUTE_FAILED: " ++ message)) (cronComputeFailed message)

end SlotPlan

section Decision

variable {rt : TriggerRuntime} {trigger : TriggerRow}

theorem fireScheduled_interval (b : Backend) {seconds : { n : Int // 0 < n }}
    (hschedule : trigger.schedule = .interval seconds) :
    fireScheduled rt b .interval trigger = (do
      let now ← nowUtc
      (intervalPlan rt trigger.slotColumns trigger.id seconds.val trigger.nextFireAt now).execute b
        .interval trigger) := by
  unfold fireScheduled
  rw [hschedule]
  show (nowUtc >>= fun now => _) = nowUtc >>= fun now => _
  congr 1
  funext now
  unfold intervalPlan
  by_cases h : trigger.misfirePolicy = .skip ∧ now - trigger.nextFireAt ≥ seconds.val * second
  · rw [if_pos h, if_pos (show trigger.slotColumns.misfirePolicy = .skip ∧ _ from h)]
    rfl
  · rw [if_neg h, if_neg (show ¬ (trigger.slotColumns.misfirePolicy = .skip ∧ _) from h)]
    rfl

theorem fireScheduled_cron (b : Backend) {expression : String}
    (hschedule : trigger.schedule = .cron expression) :
    fireScheduled rt b .cron trigger =
      (cronPlan rt trigger.slotColumns trigger.id expression trigger.nextFireAt).execute b .cron
        trigger := by
  unfold fireScheduled
  rw [hschedule]
  show fireCron rt b trigger expression = _
  unfold fireCron cronPlan
  show (match rt.nextCronFireAt expression trigger.scheduleTimezone trigger.nextFireAt with
    | .ok value => _
    | .error message => _) = SlotPlan.execute b .cron trigger
      (match rt.nextCronFireAt expression trigger.scheduleTimezone trigger.nextFireAt with
        | .ok value => _
        | .error message => _)
  cases rt.nextCronFireAt expression trigger.scheduleTimezone trigger.nextFireAt <;> rfl

/-- Jitter moves an instant by no more than its seconds. -/
theorem applyJitter_bounds (rt : TriggerRuntime) (scheduledFor : Int) (triggerId : String)
    (jitterSeconds entropyTime : Int) :
    scheduledFor ≤ applyJitter rt scheduledFor triggerId jitterSeconds entropyTime ∧
      applyJitter rt scheduledFor triggerId jitterSeconds entropyTime ≤
        scheduledFor + max jitterSeconds 0 * second := by
  unfold applyJitter second
  by_cases h : jitterSeconds ≤ 0
  · rw [if_pos h]
    omega
  · rw [if_neg h]
    have hpos : 0 < jitterSeconds.toNat + 1 := Nat.succ_pos _
    have hlt := Nat.mod_lt (rt.jitterHash triggerId entropyTime) hpos
    have hmax : max jitterSeconds 0 = jitterSeconds := max_eq_left (by omega)
    rw [hmax]
    have hnat : ((rt.jitterHash triggerId entropyTime % (jitterSeconds.toNat + 1) : Nat) : Int) ≤
        jitterSeconds := by omega
    omega

end Decision

end Trigger
end SecureAgnt

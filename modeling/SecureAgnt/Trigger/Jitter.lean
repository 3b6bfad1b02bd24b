/-
What jitter does to the slots of a trigger, over runs of any length.

The slot that is stored is the jittered one, and the next slot is counted from it.  So an
interval trigger is behind its unjittered slots by up to the jitter once for every
dispatch, while a cron trigger comes back to an instant of its expression each time: it
is never behind by more than the jitter, as long as its instants are further apart.
-/
import Mathlib.Data.List.Chain
import Mathlib.Order.Bounds.Defs
import SecureAgnt.Trigger.History

namespace SecureAgnt
namespace Trigger

open Storage
open Handler

/-! ## Sequences of instants -/

/-- The `k`-th instant after `first`. -/
inductive NthAfter (instants : Int → Prop) (first : Int) : Nat → Int → Prop
  | zero : NthAfter instants first 0 first
  | succ {k : Nat} {t t' : Int} (h : NthAfter instants first k t)
      (hleast : IsLeast { u | t < u ∧ instants u } t') : NthAfter instants first (k + 1) t'

/-- What a step preserves holds at every place of a chain. -/
theorem index_of_chain {α : Type} {R : α → α → Prop} {P : Nat → α → Prop}
    (hstep : ∀ k x y, P k x → R x y → P (k + 1) y) {xs : List α} {first : α}
    (hchain : xs.IsChain R) (hhead : xs.head? = some first) (hfirst : P 0 first) :
    ∀ k x, xs[k]? = some x → P k x := by
  intro k
  induction k with
  | zero =>
    intro x hx
    rw [← List.head?_eq_getElem?, hhead] at hx
    cases hx
    exact hfirst
  | succ k ih =>
    intro y hy
    obtain ⟨hlt, rfl⟩ := List.getElem?_eq_some_iff.mp hy
    exact hstep k _ _ (ih xs[k] (List.getElem?_eq_getElem (by omega)))
      (List.isChain_iff_getElem.mp hchain k hlt)

/-! ## Slots in a row -/

/-- The slots of the entries that have a run. -/
def fired (rows : List TriggerRunRow) : List Int :=
  (rows.filter (·.status = .created)).map (·.scheduledFor)

/-- The slots that a trigger was fired for. -/
def firedSlots (triggerId : String) (rows : List TriggerRunRow) : List Int :=
  fired (slotRows triggerId rows)

/-- The jitter of a trigger in nanoseconds. -/
def SlotColumns.jitter (columns : SlotColumns) : Int := max columns.jitterSeconds 0 * second

/-- The trigger is not overdue by its interval, if that would have its slot skipped. -/
def Prompt (trigger : TriggerRow) (w : TriggerWorld) : Prop :=
  ∀ row seconds, w.tx.db.trigger? trigger.id = some row →
    trigger.schedule = .interval seconds → trigger.misfirePolicy = .skip →
      w.clock < row.nextFireAt + seconds.val * second

section Slots

variable {rt : TriggerRuntime} {b : Backend} {columns : SlotColumns} {triggerId : String}
  {taken : Int → Int → Prop} {first next : Int} {rows : List TriggerRunRow}

theorem fired_fire (rowId runId : String) (scheduledFor nextFireAt : Int) :
    fired (rows ++ [(SlotPlan.fire nextFireAt).entry b rowId triggerId runId scheduledFor]) =
      fired rows ++ [scheduledFor] := by
  unfold fired
  rw [List.filter_append, List.map_append]
  rfl

theorem fired_deadLetter (rowId runId message : String) (scheduledFor : Int) :
    fired (rows ++ [(SlotPlan.deadLetter message).entry b rowId triggerId runId scheduledFor]) =
      fired rows := by
  unfold fired
  rw [List.filter_append, List.map_append]
  exact List.append_nil _

/-- Where no slot is skipped, the slots that were fired and the next one follow each
other. -/
theorem Decided.chain {R : Int → Int → Prop}
    (hskip : ∀ slot now nextFireAt, taken slot now →
      columns.plan rt triggerId slot now ≠ some (.skip nextFireAt))
    (hfire : ∀ slot now nextFireAt, taken slot now →
      columns.plan rt triggerId slot now = some (.fire nextFireAt) → R slot nextFireAt)
    (h : Decided rt b columns triggerId taken first rows next) :
    (fired rows ++ [next]).IsChain R ∧ (fired rows ++ [next]).head? = some first := by
  induction h with
  | start => exact ⟨List.isChain_singleton _, rfl⟩
  | @slot rows slot now plan rowId runId h htaken hplan ih =>
    obtain ⟨hchain, hhead⟩ := ih
    cases plan with
    | fire nextFireAt =>
      rw [fired_fire]
      constructor
      · refine List.isChain_append.mpr ⟨hchain, List.isChain_singleton _, fun x hx y hy => ?_⟩
        rw [List.getLast?_concat] at hx
        cases hx
        cases hy
        exact hfire slot now nextFireAt htaken hplan
      · rw [List.head?_append_of_ne_nil _ (List.concat_ne_nil _ _)]
        exact hhead
    | skip nextFireAt => exact absurd hplan (hskip slot now nextFireAt htaken)
    | deadLetter message =>
      rw [fired_deadLetter]
      exact ⟨hchain, hhead⟩

/-- Only the policy of an interval trigger skips a slot, and only one overdue by its
interval. -/
theorem plan_ne_skip {slot now nextFireAt : Int}
    (h : ∀ seconds, columns.schedule = .interval seconds → columns.misfirePolicy = .skip →
      now < slot + seconds.val * second) :
    columns.plan rt triggerId slot now ≠ some (.skip nextFireAt) := by
  unfold SlotColumns.plan
  cases hschedule : columns.schedule with
  | interval seconds =>
    dsimp only
    unfold intervalPlan
    split
    · rename_i hlate
      have hnow := h seconds hschedule hlate.1
      omega
    · nofun
  | cron expression =>
    dsimp only
    unfold cronPlan
    split
    · nofun
    · nofun
  | webhook => nofun

/-- The slot after one of an interval trigger. -/
theorem interval_next {seconds : { n : Int // 0 < n }} {slot now nextFireAt : Int}
    (hschedule : columns.schedule = .interval seconds)
    (hplan : columns.plan rt triggerId slot now = some (.fire nextFireAt)) :
    slot + seconds.val * second ≤ nextFireAt ∧
      nextFireAt ≤ slot + seconds.val * second + columns.jitter := by
  unfold SlotColumns.plan at hplan
  rw [hschedule] at hplan
  dsimp only at hplan
  unfold intervalPlan at hplan
  split at hplan
  · cases hplan
  · cases hplan
    exact applyJitter_bounds _ _ _ _ _

/-- The slot after one of a cron trigger. -/
theorem cron_next {expression : String} {instants : Int → Prop} {slot now nextFireAt : Int}
    (hcron : ∀ after value,
      rt.nextCronFireAt expression columns.scheduleTimezone after = .ok value →
        IsLeast { u | after < u ∧ instants u } value)
    (hschedule : columns.schedule = .cron expression)
    (hplan : columns.plan rt triggerId slot now = some (.fire nextFireAt)) :
    ∃ t, IsLeast { u | slot < u ∧ instants u } t ∧ t ≤ nextFireAt ∧
      nextFireAt ≤ t + columns.jitter := by
  unfold SlotColumns.plan at hplan
  rw [hschedule] at hplan
  dsimp only at hplan
  unfold cronPlan at hplan
  split at hplan
  · rename_i value hvalue
    cases hplan
    exact ⟨value, hcron slot value hvalue, applyJitter_bounds _ _ _ _ _⟩
  · cases hplan

/-- A slot that is behind its instant by less than the next one is ahead has that one
next. -/
theorem least_of_spaced {instants : Int → Prop} {jitter t slot t' : Int}
    (hspaced : ∀ u, instants u → t < u → t + jitter < u) (hle : t ≤ slot)
    (hlate : slot ≤ t + jitter) (hleast : IsLeast { u | slot < u ∧ instants u } t') :
    IsLeast { u | t < u ∧ instants u } t' := by
  refine ⟨⟨lt_of_le_of_lt hle hleast.1.1, hleast.1.2⟩, fun u hu => hleast.2 ⟨?_, hu.2⟩⟩
  exact lt_of_le_of_lt hlate (hspaced u hu.2 hu.1)

end Slots

/-! ## Along a run -/

/-- Whatever is called at the same time, a trigger whose configuration stays, dispatched
before its policy would skip a slot, moves on to a later slot each time.  The slots of an
interval trigger are its intervals apart and behind by up to one more jitter each time.
Each slot of a cron trigger is behind an instant by up to the jitter, that instant is the
next one after the slot before, and where instants are further apart than the jitter no
instant is left out. -/
theorem slots_on_schedule (rt : TriggerRuntime) (b : Backend) (faults : Bool)
    (calls : Nat → TriggerCall) (instants : Int → Prop) {clock : Int} {db : Db} {w : TriggerWorld}
    {ps : Nat → Prog (Nat × Stmt) (fun o => o.2.Ans) DbError TriggerOutcome} {trigger : TriggerRow}
    (hkeys : db.entries.Nodup) (hfound : db.trigger? trigger.id = some trigger)
    (hedits : ∀ change, EditedBy calls change → change.KeepsSlots trigger.id)
    (hcron : ∀ expression after value, trigger.schedule = .cron expression →
      rt.nextCronFireAt expression trigger.scheduleTimezone after = .ok value →
        IsLeast { u | after < u ∧ instants u } value)
    (hreach : PoolReaches (sessionsIn b faults (Prompt trigger))
      (.start clock db, callPool rt b calls) (w, ps)) :
    ∃ entered row slots, w.tx.db.ledger = db.ledger ++ entered ∧
      w.tx.db.trigger? trigger.id = some row ∧
      slots = firedSlots trigger.id entered ++ [row.nextFireAt] ∧
      slots.head? = some trigger.nextFireAt ∧ slots.Pairwise (· < ·) ∧
      (∀ seconds, trigger.schedule = .interval seconds → ∀ (k : Nat) (slot : Int),
        slots[k]? = some slot →
          trigger.nextFireAt + k * (seconds.val * second) ≤ slot ∧
          slot ≤ trigger.nextFireAt + k * (seconds.val * second + trigger.slotColumns.jitter)) ∧
      (∀ expression, trigger.schedule = .cron expression →
        slots.IsChain (fun slot slot' => ∃ t, IsLeast { u | slot < u ∧ instants u } t ∧
          t ≤ slot' ∧ slot' ≤ t + trigger.slotColumns.jitter) ∧
        ∀ instant, instants instant → instant ≤ trigger.nextFireAt →
          trigger.nextFireAt ≤ instant + trigger.slotColumns.jitter →
          (∀ t u, instants t → instants u → t < u → t + trigger.slotColumns.jitter < u) →
            ∀ (k : Nat) (slot : Int), slots[k]? = some slot → ∃ t, NthAfter instants instant k t ∧
              t ≤ slot ∧ slot ≤ t + trigger.slotColumns.jitter) := by
  let taken : Int → Int → Prop := fun slot now => ∀ seconds,
    trigger.schedule = .interval seconds → trigger.misfirePolicy = .skip →
      now < slot + seconds.val * second
  have htaken : ∀ w row decided, Prompt trigger w → w.tx.db.trigger? trigger.id = some row →
      clock ≤ decided → decided ≤ w.clock → taken row.nextFireAt decided := by
    intro w row decided hprompt hrow _ hle seconds hschedule hskip
    exact lt_of_le_of_lt hle (hprompt row seconds hrow hschedule hskip)
  obtain ⟨entered, row, hledger, hrow, _, hdecided⟩ :=
    slots_decided hkeys hfound hedits htaken hreach
  have hskip : ∀ slot now nextFireAt, taken slot now →
      trigger.slotColumns.plan rt trigger.id slot now ≠ some (.skip nextFireAt) :=
    fun slot now nextFireAt h => plan_ne_skip h
  have hnext : ∀ slot now nextFireAt, taken slot now →
      trigger.slotColumns.plan rt trigger.id slot now = some (.fire nextFireAt) →
        slot < nextFireAt := by
    intro slot now nextFireAt _ hplan
    cases hschedule : trigger.schedule with
    | interval seconds =>
      have hbounds := interval_next hschedule hplan
      have hpos : 0 < seconds.val * second := Int.mul_pos seconds.property (by decide)
      omega
    | cron expression =>
      obtain ⟨t, hleast, hle, _⟩ := cron_next (fun after value => hcron expression after value
        hschedule) hschedule hplan
      exact lt_of_lt_of_le hleast.1.1 hle
    | webhook =>
      unfold SlotColumns.plan at hplan
      rw [show trigger.slotColumns.schedule = _ from hschedule] at hplan
      cases hplan
  obtain ⟨hchain, hhead⟩ := hdecided.chain hskip hnext
  refine ⟨entered, row, _, hledger, hrow, rfl, hhead, List.isChain_iff_pairwise.mp hchain, ?_, ?_⟩
  · intro seconds hschedule
    have hsteps := (hdecided.chain hskip fun slot now nextFireAt _ hplan =>
      interval_next hschedule hplan).1
    refine index_of_chain ?_ hsteps hhead (by simp)
    intro k slot slot' hslot hstep
    push_cast
    rw [Int.add_mul, Int.add_mul, Int.one_mul, Int.one_mul]
    omega
  · intro expression hschedule
    have hsteps := (hdecided.chain hskip fun slot now nextFireAt _ hplan =>
      cron_next (fun after value => hcron expression after value hschedule) hschedule hplan).1
    refine ⟨hsteps, fun instant hinstant hle hlate hspaced k slot hslot => ?_⟩
    -- the instant that a slot belongs to is one of the expression's
    have hindex := index_of_chain (P := fun k slot => ∃ t, NthAfter instants instant k t ∧
      instants t ∧ t ≤ slot ∧ slot ≤ t + trigger.slotColumns.jitter) ?_ hsteps hhead
      ⟨instant, .zero, hinstant, hle, hlate⟩ k slot hslot
    · obtain ⟨t, hnth, _, hbounds⟩ := hindex
      exact ⟨t, hnth, hbounds⟩
    · intro k slot slot' hk hstep
      obtain ⟨t, hnth, ht, hle, hlate⟩ := hk
      obtain ⟨t', hleast, hbounds⟩ := hstep
      exact ⟨t', hnth.succ (least_of_spaced (fun u hu => hspaced t u ht hu) hle hlate hleast),
        hleast.1.2, hbounds⟩

/-! ## A trigger that falls behind -/

theorem beatAttempts_pos : (0 : Int) < 3 := by decide

/-- Every ten seconds, with a second of jitter. -/
def beatTrigger : TriggerRow :=
  { hookTrigger ⟨3, beatAttempts_pos⟩ with
    id := "beat"
    schedule := .interval ⟨10, by decide⟩
    jitterSeconds := 1
    maxInflightRuns := 4
    maxInflightRuns_pos := by decide }

def beatDb : Db := ⟨[beatTrigger], [], [], []⟩

/-- The jitter is a second each time. -/
def beatRuntime : TriggerRuntime := { plainRuntime with jitterHash := fun _ _ => 1 }

/-- Another caller takes up the time until the next dispatcher comes. -/
def beatCalls (i : Nat) : TriggerCall :=
  if i % 2 = 0 then .replay "acme" "none" "none" else .dispatchInterval 4

theorem beatCalls_edit (i : Nat) (change : Edit) : beatCalls i ≠ .edit change := by
  intro hcall
  unfold beatCalls at hcall
  split at hcall
  · cases hcall
  · cases hcall

/-- The trigger was fired for these slots and is at the next one. -/
structure Beats (slots : List Int) (next : Int) (db : Db) : Prop where
  trigger : ∃ row, db.triggers = [row] ∧ row.slotColumns = beatTrigger.slotColumns ∧
    row.id = "beat" ∧ row.enabled = true ∧ row.deadLetteredAt = none ∧ row.maxInflightRuns = 4 ∧
      row.nextFireAt = next
  runs : db.runs.length = slots.length
  ledger : db.ledger.length = slots.length
  keys : ∀ row ∈ db.ledger, row.dedupeKey ∈ slots.map slotKey
  fired : firedSlots "beat" db.ledger = slots

section Beats

variable {slots : List Int} {next since : Int} {db : Db}

theorem Beats.due (h : Beats slots next db) (hroom : slots.length < 4) {now : Int}
    (htime : Backend.sqlite.stamp next ≤ Backend.sqlite.stamp now) :
    ∃ row ∈ db.triggers, row ∈ dueTriggers .sqlite now db .interval (max 4 1) := by
  obtain ⟨row, honly, hcolumns, _, henabled, halive, hmax, hnext⟩ := h.trigger
  have hmem : row ∈ db.triggers := honly ▸ List.mem_cons_self
  have htype : row.triggerType = .interval := congrArg Schedule.triggerType
    (show row.slotColumns.schedule = beatTrigger.slotColumns.schedule from congrArg _ hcolumns)
  refine ⟨row, hmem, mem_dueTriggers.mpr ⟨hmem, ?_, htype, hnext ▸ htime⟩⟩
  have htrigger : db.triggerInflight row.id ≤ db.ledger.length := List.countP_le_length
  have htenant : db.tenantInflight row.tenantId ≤ db.runs.length := List.countP_le_length
  have hledger := h.ledger
  have hruns := h.runs
  simp only [Db.mayFire, henabled, halive, hmax, Option.isNone_none, Bool.true_and,
    Bool.and_eq_true, decide_eq_true_eq]
  omega

/-- A dispatcher fires the trigger and puts off its next slot by the jitter. -/
theorem atRest_beat {i : Nat} (h : Beats slots next db) (hroom : slots.length < 4)
    (hfresh : slotKey next ∉ slots.map slotKey)
    (hdue : Backend.sqlite.stamp next ≤ Backend.sqlite.stamp since) :
    AtRest .sqlite i db since ((TriggerCall.dispatchInterval 4).program beatRuntime .sqlite)
      (fun db' _ => Beats (slots ++ [next]) (next + 11 * second) db') := by
  have hcall : AtRest .sqlite i db since
      (dispatchNextDueScheduled beatRuntime .sqlite .interval 4)
      (PlanStage beatRuntime .sqlite .interval 4 db since) := atRest_plan (by nofun) 4
  have hbeat : AtRest .sqlite i db since
      (dispatchNextDueScheduled beatRuntime .sqlite .interval 4)
      (fun db' r => ∃ dispatched, r = .ok dispatched ∧
        Beats (slots ++ [next]) (next + 11 * second) db') := by
    refine atRest_mono (fun db' r hstage => ?_) hcall
    obtain ⟨row, honly, hcolumns, hid, henabled, halive, hmax, hnext⟩ := h.trigger
    cases hstage with
    | idle htime hfirst =>
      obtain ⟨_, _, hmem⟩ := h.due hroom (Int.le_trans hdue htime)
      rw [List.head?_eq_none_iff.mp hfirst] at hmem
      cases hmem
    | clash htime hfirst htaken =>
      obtain ⟨hmem, _⟩ := mem_dueTriggers.mp (List.mem_of_head? hfirst)
      rw [honly] at hmem
      obtain rfl := List.mem_singleton.mp hmem
      obtain ⟨entry, hentry, _, hkey⟩ := htaken
      have htaken := h.keys entry hentry
      rw [hkey, hnext] at htaken
      exact absurd htaken hfresh
    | @planned now now' trigger plan run rowId stamp htime hfirst hfree hnow hplan =>
      obtain ⟨hmem, _⟩ := mem_dueTriggers.mp (List.mem_of_head? hfirst)
      rw [honly] at hmem
      obtain rfl := List.mem_singleton.mp hmem
      have hbeat : trigger.plan beatRuntime now' = some (.fire (next + 11 * second)) := by
        unfold TriggerRow.plan
        rw [hcolumns, hnext, hid]
        show some (intervalPlan beatRuntime beatTrigger.slotColumns "beat" 10 next now') = _
        unfold intervalPlan
        rw [if_neg (fun hskip => nomatch hskip.1)]
        show some (SlotPlan.fire (next + 10 * second + 1 * second)) = _
        rw [Int.add_assoc, ← Int.add_mul]
        rfl
      rw [hbeat] at hplan
      cases hplan
      let after := TriggerChange.row stamp (.fire (next + 11 * second)) trigger
      refine ⟨_, rfl, ⟨after, ?_, hcolumns, hid, henabled, halive, hmax, rfl⟩, ?_, ?_, ?_, ?_⟩
      · show changeRow (·.id) trigger.id _ db.triggers = _
        rw [honly]
        exact congrArg (fun row => [row]) (if_pos rfl)
      · show (db.runs ++ [run]).length = (slots ++ [next]).length
        rw [List.length_append, List.length_append, h.runs]
        rfl
      · rw [SlotPlan.ledger_publish, List.length_append, List.length_append, h.ledger]
        rfl
      · intro entry hentry
        rw [SlotPlan.ledger_publish] at hentry
        rcases List.mem_append.mp hentry with hentry | hentry
        · obtain ⟨slot, hslot, hkey⟩ := List.mem_map.mp (h.keys entry hentry)
          exact List.mem_map.mpr ⟨slot, List.mem_append_left _ hslot, hkey⟩
        · rw [List.mem_singleton.mp hentry]
          exact List.mem_map.mpr ⟨next, List.mem_append_right _ List.mem_cons_self,
            congrArg slotKey hnext.symm⟩
      · rw [SlotPlan.ledger_publish, firedSlots, slotRows_append, hid, slotRows_entry, fired_fire,
          hnext]
        exact congrArg (· ++ [next]) h.fired
  refine atRest_bind hbeat ?_ ?_
  · intro db' dispatched hdb'
    obtain ⟨_, _, hbeats⟩ := hdb'
    exact atRest_pure hbeats
  · intro db' e hdb'
    obtain ⟨_, herror, _⟩ := hdb'
    cases herror

/-- What the run has come to: the next two callers have not begun. -/
structure BeatRun (n : Nat) (slots : List Int) (next : Int) (w : TriggerWorld)
    (ps : Nat → Prog (Nat × Stmt) (fun o => o.2.Ans) DbError TriggerOutcome) : Prop where
  closed : ∀ j, w.tx.sessions j = none
  keys : w.tx.db.entries.Nodup
  beats : Beats slots next w.tx.db
  waiting : ∀ j, 2 * n ≤ j → ps j = callPool beatRuntime .sqlite beatCalls j

/-- The trigger is fired at the moment that it is due. -/
theorem exists_beat {n : Nat} {w : TriggerWorld}
    {ps : Nat → Prog (Nat × Stmt) (fun o => o.2.Ans) DbError TriggerOutcome}
    (h : BeatRun n slots next w ps) (hroom : slots.length < 4) (hfresh : slotKey next ∉ slots.map slotKey)
    (hclock : w.clock ≤ next) :
    ∃ w' ps', PoolReaches (sessions .sqlite false) (w, ps) (w', ps') ∧ w'.clock = next ∧
      BeatRun (n + 1) (slots ++ [next]) (next + 11 * second) w' ps' := by
  -- nobody has a dead letter to replay, but time passes
  have hreplay : beatCalls (2 * n) = .replay "acme" "none" "none" := by
    unfold beatCalls
    rw [if_pos (Nat.mul_mod_right 2 n)]
  have hdispatch : beatCalls (2 * n + 1) = .dispatchInterval 4 := by
    unfold beatCalls
    rw [if_neg (by omega)]
  obtain ⟨row, honly, _, hid, _⟩ := h.beats.trigger
  have hnone : (w.view (2 * n)).trigger? "none" = none := by
    unfold TriggerWorld.view
    rw [h.closed]
    show Table.find _ w.tx.db.triggers _ = none
    rw [honly]
    exact Table.find_cons.trans (if_neg (by rw [hid]; decide))
  have hwait : Finishes (session .sqlite false (2 * n)) w
      ((beatCalls (2 * n)).program beatRuntime .sqlite) (w.tick next)
      (.ok (.replayed .notFound)) := by
    rw [hreplay]
    refine .call (.ok none) ⟨next, hclock, .inl ⟨?_, rfl⟩⟩ (.pure _ _)
    rw [hnone]
    rfl
  have hfocus : PoolReaches (sessions .sqlite false) (w, ps) (w, Function.update ps (2 * n)
      (((beatCalls (2 * n)).program beatRuntime .sqlite).tag (2 * n))) :=
    PoolReaches.focus .refl (h.waiting (2 * n) (Nat.le_refl _))
  have hwaited := hfocus.then_finish hwait
  have hrest : Resting w.tx.db next (w.tick next) :=
    ⟨⟨rfl, h.closed, Int.le_refl next⟩, h.keys⟩
  obtain ⟨w', out, hfinish, hclock'⟩ : ∃ w' out, Finishes (session .sqlite false (2 * n + 1))
      (w.tick next) ((beatCalls (2 * n + 1)).program beatRuntime .sqlite) w' out ∧
        w'.clock = (w.tick next).clock := exists_finish_now (fun j _ => hrest.closed j) _
  have hfocus' := hwaited.focus (i := 2 * n + 1)
    ((Function.update_of_ne (by omega) _ _).trans (h.waiting (2 * n + 1) (by omega)))
  have hbeat := atRest_beat (i := 2 * n + 1) h.beats hroom hfresh (Int.le_refl _)
  rw [← hdispatch] at hbeat
  obtain ⟨db', hrest', hbeats⟩ := wp_of_finishes (hbeat.run _ hrest) hfinish
  refine ⟨w', _, hfocus'.then_finish hfinish, hclock', hrest'.closed, hrest'.keys, ?_, ?_⟩
  · rw [hrest'.db]
    exact hbeats
  · intro j hj
    rw [Function.update_of_ne (by omega), Function.update_of_ne (by omega)]
    exact h.waiting j (by omega)

theorem beatRun_start : BeatRun 0 [] 0 (.start 0 beatDb)
    (callPool beatRuntime .sqlite beatCalls) where
  closed := fun _ => rfl
  keys := by simp [TriggerWorld.start, beatDb, Db.entries]
  beats := ⟨⟨_, rfl, rfl, rfl, rfl, rfl, rfl, rfl⟩, rfl, rfl, nofun, rfl⟩
  waiting := fun _ _ => rfl

end Beats

/-- The first three dispatches, each at the moment that it is due. -/
theorem exists_beats : ∃ w₁ ps₁ w₂ ps₂ w₃ ps₃,
    PoolReaches (sessions .sqlite false)
      (.start 0 beatDb, callPool beatRuntime .sqlite beatCalls) (w₁, ps₁) ∧
    w₁.clock = 0 ∧ firedSlots "beat" w₁.tx.db.ledger = [0] ∧
    PoolReaches (sessions .sqlite false) (w₁, ps₁) (w₂, ps₂) ∧
    w₂.clock = 11 * second ∧ firedSlots "beat" w₂.tx.db.ledger = [0, 11 * second] ∧
    PoolReaches (sessions .sqlite false) (w₂, ps₂) (w₃, ps₃) ∧
    w₃.clock = 22 * second ∧
    firedSlots "beat" w₃.tx.db.ledger = [0, 11 * second, 22 * second] := by
  obtain ⟨w₁, ps₁, hreach₁, hclock₁, h₁⟩ := exists_beat beatRun_start (by decide) (by nofun)
    (Int.le_refl 0)
  obtain ⟨w₂, ps₂, hreach₂, hclock₂, h₂⟩ := exists_beat h₁ (by decide) (by decide)
    (by rw [hclock₁]; decide)
  obtain ⟨w₃, ps₃, hreach₃, hclock₃, h₃⟩ := exists_beat h₂ (by decide) (by decide)
    (by rw [hclock₂]; decide)
  exact ⟨w₁, ps₁, w₂, ps₂, w₃, ps₃, hreach₁, hclock₁, h₁.beats.fired, hreach₂, hclock₂,
    h₂.beats.fired, hreach₃, hclock₃, h₃.beats.fired⟩

/-- Its slots are all the same as late as its jitter allows. -/
theorem beat_on_schedule : ∃ w ps row slots,
    PoolReaches (sessionsIn .sqlite false (Prompt beatTrigger))
      (.start 0 beatDb, callPool beatRuntime .sqlite beatCalls) (w, ps) ∧
    w.tx.db.trigger? "beat" = some row ∧ slots = [0, 11 * second, 22 * second, row.nextFireAt] ∧
    slots.Pairwise (· < ·) ∧ ∀ (k : Nat) (slot : Int), slots[k]? = some slot →
      0 + k * (10 * second) ≤ slot ∧ slot ≤ 0 + k * (10 * second + 1 * second) := by
  obtain ⟨w₁, ps₁, w₂, ps₂, w₃, ps₃, hreach₁, _, _, hreach₂, _, _, hreach₃, _, h₃⟩ := exists_beats
  have hprompt : ∀ w, Prompt beatTrigger w := by
    intro _ _ _ _ _ hskip
    cases hskip
  have hreach : PoolReaches (sessionsIn .sqlite false (Prompt beatTrigger))
      (.start 0 beatDb, callPool beatRuntime .sqlite beatCalls) (w₃, ps₃) :=
    PoolReaches.mono (fun w _ _ _ h => ⟨hprompt w, h⟩) ((hreach₁.trans hreach₂).trans hreach₃)
  have hedits : ∀ change, EditedBy beatCalls change → change.KeepsSlots beatTrigger.id := by
    intro change hchange
    obtain ⟨i, hcall⟩ := hchange
    exact absurd hcall (beatCalls_edit i change)
  have hnever : ∀ expression : String, beatTrigger.schedule ≠ .cron expression := by
    intro _ hschedule
    cases hschedule
  obtain ⟨entered, row, slots, hledger, hrow, hslots, _, hmono, hinterval, _⟩ :=
    slots_on_schedule beatRuntime .sqlite false beatCalls (fun _ => False) beatRun_start.keys
      (Table.find_cons.trans (if_pos rfl)) hedits
      (fun _ _ _ hschedule => absurd hschedule (hnever _)) hreach
  refine ⟨w₃, ps₃, row, slots, hreach, hrow, ?_, hmono, ?_⟩
  · rw [hslots]
    rw [hledger] at h₃
    exact congrArg (· ++ [row.nextFireAt]) h₃
  · intro k slot hslot
    exact hinterval _ rfl k slot hslot

/-- A trigger that is dispatched on the second is behind by more than its jitter with the
third slot. -/
theorem jitter_adds_up : ∃ w₁ ps₁ w₂ ps₂ w₃ ps₃,
    PoolReaches (sessions .sqlite false)
      (.start 0 beatDb, callPool beatRuntime .sqlite beatCalls) (w₁, ps₁) ∧
    w₁.clock = 0 ∧ firedSlots "beat" w₁.tx.db.ledger = [0] ∧
    PoolReaches (sessions .sqlite false) (w₁, ps₁) (w₂, ps₂) ∧
    w₂.clock = 11 * second ∧ firedSlots "beat" w₂.tx.db.ledger = [0, 11 * second] ∧
    PoolReaches (sessions .sqlite false) (w₂, ps₂) (w₃, ps₃) ∧
    w₃.clock = 22 * second ∧
    firedSlots "beat" w₃.tx.db.ledger = [0, 11 * second, 22 * second] ∧
    (∀ i change, beatCalls i ≠ .edit change) ∧ beatTrigger.jitterSeconds = 1 ∧
    ¬ 22 * second ≤ (0 + 2 * (10 * second)) + 1 * second := by
  obtain ⟨w₁, ps₁, w₂, ps₂, w₃, ps₃, hreach₁, hclock₁, h₁, hreach₂, hclock₂, h₂, hreach₃, hclock₃,
    h₃⟩ := exists_beats
  exact ⟨w₁, ps₁, w₂, ps₂, w₃, ps₃, hreach₁, hclock₁, h₁, hreach₂, hclock₂, h₂, hreach₃, hclock₃,
    h₃, beatCalls_edit, rfl, by decide⟩

end Trigger
end SecureAgnt

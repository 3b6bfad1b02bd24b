/-
When the two back ends find the same rows first.

Postgres compares instants and SQLite whole seconds, and triggers that are due at the same
time are taken in the order of their creation or of their ids.  Where every time is a whole
second and no two triggers of a type are scheduled for the same one, neither matters.
-/
import SecureAgnt.Lib.Sorting
import SecureAgnt.Trigger.DispatchAlike

namespace SecureAgnt
namespace Trigger

open Storage
open Runs (TriggerDispatchRecord)

/-! ## Whole seconds -/

def WholeSecond (t : Int) : Prop := t % 10 ^ 9 = 0

instance (t : Int) : Decidable (WholeSecond t) := inferInstanceAs (Decidable (_ = _))

/-- Every time is a whole second, and no two triggers of a type share one. -/
structure Orderly (db : Db) : Prop where
  triggers : ∀ row ∈ db.triggers, WholeSecond row.nextFireAt
  events : ∀ row ∈ db.events, WholeSecond row.nextAttemptAt ∧ WholeSecond row.createdAt
  apart : ∀ x ∈ db.triggers, ∀ y ∈ db.triggers, x.triggerType = y.triggerType →
    x.nextFireAt = y.nextFireAt → x.id = y.id

section Seconds

variable {s t now : Int}

theorem stamp_le_iff (hs : WholeSecond s) (ht : WholeSecond t) :
    Backend.sqlite.stamp s ≤ Backend.sqlite.stamp t ↔
      Backend.postgres.stamp s ≤ Backend.postgres.stamp t := by
  show s / 10 ^ 9 ≤ t / 10 ^ 9 ↔ s ≤ t
  unfold WholeSecond at hs ht
  omega

theorem eq_of_sameSecond (hs : WholeSecond s) (ht : WholeSecond t) (h : SameSecond s t) :
    s = t := by
  replace h : s / 10 ^ 9 = t / 10 ^ 9 := h
  unfold WholeSecond at hs ht
  omega

theorem currentTimestamp_whole (b : Backend) (hnow : WholeSecond now) :
    b.currentTimestamp now = now := by
  cases b with
  | postgres => rfl
  | sqlite =>
    show now / 10 ^ 9 * 10 ^ 9 = now
    unfold WholeSecond at hnow
    omega

theorem queuePriority_whole (hnow : WholeSecond now) (hs : WholeSecond s) (input : Json) :
    queuePriority .sqlite now input s = queuePriority .postgres now input s := by
  have hbefore : WholeSecond (now - fifteenMinutes) := by
    unfold WholeSecond fifteenMinutes at *
    omega
  unfold queuePriority
  simp only [stamp_le_iff hs hbefore]

end Seconds

/-! ## Triggers -/

/-- The first row of a queue comes before every other, also among the rows with its key. -/
theorem orderBy_first {α : Type} {key : α → Nat × Int} {s : α → α → Prop} {rows : List α} {x y : α}
    (h : rows.Pairwise s) (hx : (orderBy key rows).head? = some x) (hy : y ∈ rows) :
    x = y ∨ (key x).1 < (key y).1 ∨ (key x).1 = (key y).1 ∧
      ((key x).2 < (key y).2 ∨ (key x).2 = (key y).2 ∧ s x y) := by
  let r : α → α → Prop := fun x y =>
    (key x).1 < (key y).1 ∨ (key x).1 = (key y).1 ∧ (key x).2 ≤ (key y).2
  have htotal : Std.Total r := ⟨fun a b => by
    show ((key a).1 < (key b).1 ∨ _) ∨ ((key b).1 < (key a).1 ∨ _)
    omega⟩
  have htrans : IsTrans α r := ⟨fun a b c hab hbc => by
    replace hab : (key a).1 < (key b).1 ∨ (key a).1 = (key b).1 ∧ (key a).2 ≤ (key b).2 := hab
    replace hbc : (key b).1 < (key c).1 ∨ (key b).1 = (key c).1 ∧ (key b).2 ≤ (key c).2 := hbc
    show (key a).1 < (key c).1 ∨ (key a).1 = (key c).1 ∧ (key a).2 ≤ (key c).2
    omega⟩
  refine (Sorting.head_insertionSort (r := r) h hx hy).imp id fun hbefore => ?_
  obtain ⟨hxy, hties⟩ := hbefore
  replace hxy : (key x).1 < (key y).1 ∨ (key x).1 = (key y).1 ∧ (key x).2 ≤ (key y).2 := hxy
  rcases hxy with hlt | ⟨heq, hle⟩
  · exact .inl hlt
  · refine .inr ⟨heq, (Int.lt_or_eq_of_le hle).imp id fun hsame => ⟨hsame, hties ?_⟩⟩
    exact .inr ⟨heq.symm, hsame.ge⟩

theorem orderBy_head {α : Type} {key : α → Nat × Int} {rows : List α} {x y : α}
    (hx : (orderBy key rows).head? = some x) (hy : y ∈ rows) :
    (key x).1 < (key y).1 ∨ (key x).1 = (key y).1 ∧ (key x).2 ≤ (key y).2 := by
  have hrows : rows.Pairwise fun _ _ => True := List.pairwise_of_forall fun _ _ => trivial
  rcases orderBy_first hrows hx hy with rfl | hfirst
  · exact .inr ⟨rfl, Int.le_refl _⟩
  · omega

section Triggers

variable {now tenantMax : Int} {db db' : Db} {row row' : TriggerRow} {type : TriggerType}

theorem mem_dueTriggers_alike (h : AlikeDb db db') (hnow : WholeSecond now)
    (hwhole : ∀ row ∈ db.triggers, WholeSecond row.nextFireAt) (hrow : AlikeTrigger row row')
    (hmem : row ∈ db.triggers) (hmem' : row' ∈ db'.triggers) :
    row ∈ dueTriggers .postgres now db type tenantMax ↔
      row' ∈ dueTriggers .sqlite now db' type tenantMax := by
  rw [mem_dueTriggers, mem_dueTriggers, h.mayFire hrow, ← hrow.triggerType, ← hrow.nextFireAt,
    stamp_le_iff (hwhole row hmem) hnow]
  simp only [hmem, hmem', true_and]

theorem sameFirst_triggers (h : AlikeDb db db') (hnow : WholeSecond now) (ho : Orderly db) :
    (firstTrigger .postgres now tenantMax type db).map (·.id) =
      (firstTrigger .sqlite now tenantMax type db').map (·.id) := by
  unfold firstTrigger
  rw [currentTimestamp_whole .postgres hnow, currentTimestamp_whole .sqlite hnow]
  generalize max tenantMax 1 = limit
  have hdue : ∀ x x', AlikeTrigger x x' → x ∈ db.triggers → x' ∈ db'.triggers →
      (x ∈ dueTriggers .postgres now db type limit ↔ x' ∈ dueTriggers .sqlite now db' type limit) :=
    fun x x' hx hmem hmem' => mem_dueTriggers_alike h hnow ho.triggers hx hmem hmem'
  -- every due row has its counterpart, so both queues are empty or neither is
  have hright : ∀ x ∈ dueTriggers .postgres now db type limit, ∃ x' ∈ db'.triggers,
      AlikeTrigger x x' ∧ x' ∈ dueTriggers .sqlite now db' type limit := by
    intro x hx
    have hmem := (mem_dueTriggers.mp hx).1
    obtain ⟨x', hmem', hrel⟩ := Paired.exists_right h.triggers hmem
    exact ⟨x', hmem', hrel, (hdue x x' hrel hmem hmem').mp hx⟩
  have hleft : ∀ x' ∈ dueTriggers .sqlite now db' type limit, ∃ x ∈ db.triggers,
      AlikeTrigger x x' ∧ x ∈ dueTriggers .postgres now db type limit := by
    intro x' hx'
    have hmem' := (mem_dueTriggers.mp hx').1
    obtain ⟨x, hmem, hrel⟩ := Paired.exists_left h.triggers hmem'
    exact ⟨x, hmem, hrel, (hdue x x' hrel hmem hmem').mpr hx'⟩
  cases hpg : (dueTriggers .postgres now db type limit).head? with
  | none =>
    cases hsq : (dueTriggers .sqlite now db' type limit).head? with
    | none => rfl
    | some y' =>
      obtain ⟨y, -, -, hy⟩ := hleft y' (List.mem_of_head? hsq)
      rw [List.head?_eq_none_iff.mp hpg] at hy
      cases hy
  | some x =>
    obtain ⟨x', hx', hxrel, hxdue⟩ := hright x (List.mem_of_head? hpg)
    cases hsq : (dueTriggers .sqlite now db' type limit).head? with
    | none =>
      rw [List.head?_eq_none_iff.mp hsq] at hxdue
      cases hxdue
    | some y' =>
      obtain ⟨y, hy, hyrel, hydue⟩ := hleft y' (List.mem_of_head? hsq)
      obtain ⟨hx, -, hxtype, -⟩ := mem_dueTriggers.mp (List.mem_of_head? hpg)
      obtain ⟨-, -, hytype, -⟩ := mem_dueTriggers.mp hydue
      have hpgFirst := orderBy_head hpg (mem_orderBy.mp hydue)
      have hsqFirst := orderBy_head hsq (mem_orderBy.mp hxdue)
      have hinput : x.inputJson = x'.inputJson := congrArg (fun r => r.inputJson) hxrel.columns
      have hinput' : y.inputJson = y'.inputJson := congrArg (fun r => r.inputJson) hyrel.columns
      have hwhole := ho.triggers x hx
      have hwhole' := ho.triggers y hy
      rw [← hinput', ← hinput, ← hyrel.nextFireAt, ← hxrel.nextFireAt,
        queuePriority_whole hnow hwhole, queuePriority_whole hnow hwhole'] at hsqFirst
      dsimp only at hpgFirst hsqFirst
      rw [stamp_le_iff hwhole' hwhole] at hsqFirst
      have hslot : Backend.postgres.stamp x.nextFireAt = Backend.postgres.stamp y.nextFireAt := by
        omega
      have hid := ho.apart x hx y hy (hxtype.trans hytype.symm) hslot
      rw [Option.map_some, Option.map_some, hid, hyrel.id]

end Triggers

/-! ## Events -/

section Events

variable {now tenantMax : Int} {db db' : Db}

/-- Events with their triggers on both back ends, the times of the events the same. -/
structure AlikeDue (row row' : EventRow × TriggerRow) : Prop where
  event : AlikeEvent row.1 row'.1
  trigger : AlikeTrigger row.2 row'.2
  next : row.1.nextAttemptAt = row'.1.nextAttemptAt
  created : row.1.createdAt = row'.1.createdAt
  nextWhole : WholeSecond row.1.nextAttemptAt
  createdWhole : WholeSecond row.1.createdAt

theorem AlikeDb.eventTriggers (h : AlikeDb db db') (ho : Orderly db) (ho' : Orderly db') :
    List.Forall₂ AlikeDue
      (db.events.filterMap fun event => (db.trigger? event.triggerId).map (event, ·))
      (db'.events.filterMap fun event => (db'.trigger? event.triggerId).map (event, ·)) := by
  have htrigger : ∀ id, Option.Rel AlikeTrigger (db.trigger? id) (db'.trigger? id) :=
    fun id => Paired.find? (fun _ _ hrow => congrArg (fun key => decide (key = id)) hrow.id)
      h.triggers
  refine List.rel_filterMap (fun event event' hevent => ?_) (Paired.with_mem h.events)
  obtain ⟨hrel, hmem, hmem'⟩ := hevent
  obtain ⟨hnext, hcreated⟩ := ho.events event hmem
  obtain ⟨hnext', hcreated'⟩ := ho'.events event' hmem'
  have hfound := htrigger event.triggerId
  rw [← hrel.triggerId]
  cases hpg : db.trigger? event.triggerId with
  | none =>
    cases hsq : db'.trigger? event.triggerId with
    | none => exact .none
    | some row' =>
      rw [hpg, hsq] at hfound
      cases hfound
  | some row =>
    cases hsq : db'.trigger? event.triggerId with
    | none =>
      rw [hpg, hsq] at hfound
      cases hfound
    | some row' =>
      rw [hpg, hsq] at hfound
      cases hfound with
      | some hrow => exact .some ⟨hrel, hrow, eq_of_sameSecond hnext hnext' hrel.nextAttemptAt,
          eq_of_sameSecond hcreated hcreated' hrel.createdAt, hnext, hcreated⟩

theorem isDueEvent_alike (h : AlikeDb db db') (hnow : WholeSecond now)
    {row row' : EventRow × TriggerRow} (hrow : AlikeDue row row') :
    isDueEvent .postgres now db tenantMax row = isDueEvent .sqlite now db' tenantMax row' := by
  have hstatus : row.1.status = row'.1.status := congrArg (fun e => e.status) hrow.event.columns
  unfold isDueEvent
  rw [hstatus, h.mayFire hrow.trigger, hrow.trigger.triggerType, ← hrow.next]
  simp only [stamp_le_iff hrow.nextWhole hnow]

theorem sameFirst_events (h : AlikeDb db db') (hnow : WholeSecond now) (ho : Orderly db)
    (ho' : Orderly db') :
    (firstEvent .postgres now tenantMax db).map (·.1.id) =
      (firstEvent .sqlite now tenantMax db').map (·.1.id) := by
  unfold firstEvent
  rw [currentTimestamp_whole .postgres hnow, currentTimestamp_whole .sqlite hnow]
  refine Paired.head?_map_eq (fun _ _ hrow => hrow.event.id) (Paired.insertionSort ?_
    (Paired.insertionSort ?_ (Paired.filter (fun _ _ hrow => isDueEvent_alike h hnow hrow)
      (h.eventTriggers ho ho'))))
  · intro x x' hx y y' hy
    have hinput : x.2.inputJson = x'.2.inputJson :=
      congrArg (fun r => r.inputJson) hx.trigger.columns
    have hinput' : y.2.inputJson = y'.2.inputJson :=
      congrArg (fun r => r.inputJson) hy.trigger.columns
    dsimp only
    rw [← hinput, ← hinput', ← hx.created, ← hy.created,
      queuePriority_whole hnow hx.createdWhole, queuePriority_whole hnow hy.createdWhole,
      stamp_le_iff hx.createdWhole hy.createdWhole]
  · intro x x' hx y y' hy
    rw [hx.event.id, hy.event.id]

/-- In orderly tables the order of the rows does not depend on the back end. -/
theorem sameFirst_of_orderly (h : AlikeDb db db') (hnow : WholeSecond now) (ho : Orderly db)
    (ho' : Orderly db') : SameFirst now tenantMax db db' where
  event := sameFirst_events h hnow ho ho'
  cron := sameFirst_triggers h hnow ho
  interval := sameFirst_triggers h hnow ho

end Events

/-! ## Rows in other orders -/

section Queue

/-- A trigger; the database wrote when it was created. -/
def queuedTrigger (b : Backend) (id : String) (schedule : Schedule) (nextFireAt created : Int) :
    TriggerRow :=
  { sampleTrigger id schedule with nextFireAt, createdAt := b.currentTimestamp created }

def queuedEvent (id : String) (createdAt : Int) : EventRow where
  id := id
  triggerId := "hook"
  tenantId := "t"
  eventId := id
  semanticDedupeKey := none
  payloadJson := .obj []
  nextAttemptAt := 3 * second
  createdAt := createdAt

def hourly : Schedule := .interval ⟨3600, by decide⟩

/-- Of the intervals the first slot is that of the trigger created first, of the cron triggers that
of the smaller id; the event received first is the second row. -/
def queueTables (b : Backend) : Db where
  triggers := [queuedTrigger b "interval-a" hourly (2 * second) (5 * second + 25),
    queuedTrigger b "interval-b" hourly second (4 * second + 75),
    queuedTrigger b "cron-a" (.cron "0 0 * * * *") second (5 * second + 25),
    queuedTrigger b "cron-b" (.cron "0 0 * * * *") (2 * second) (4 * second + 75),
    queuedTrigger b "hook" .webhook 0 0]
  events := [queuedEvent "event-a" (2 * second), queuedEvent "event-b" second]
  runs := [slotRun b (6 * second + 50) "run" (queuedTrigger b "interval-a" hourly 0 0)]
  ledger := []

theorem queuedTrigger_alike (id : String) (schedule : Schedule) (nextFireAt created : Int) :
    AlikeTrigger (queuedTrigger .postgres id schedule nextFireAt created)
      (queuedTrigger .sqlite id schedule nextFireAt created) :=
  ⟨rfl, rfl, rfl, sameSecond_now created⟩

theorem queueTables_alike : AlikeDb (queueTables .postgres) (queueTables .sqlite) where
  triggers := .cons (queuedTrigger_alike ..) (.cons (queuedTrigger_alike ..)
    (.cons (queuedTrigger_alike ..) (.cons (queuedTrigger_alike ..)
      (.cons (queuedTrigger_alike ..) .nil))))
  events := .cons (.refl _) (.cons (.refl _) .nil)
  runs := .cons ((queuedTrigger_alike ..).slotRun "run") .nil
  ledger := rfl

theorem queueTables_orderly (b : Backend) : Orderly (queueTables b) where
  triggers := by cases b <;> decide
  events := by cases b <;> decide
  apart := by cases b <;> decide

/-- Neither order of the rows moves a later slot or event to the front. -/
theorem queue_sameFirst : SameFirst (10 * second) 5 (queueTables .postgres) (queueTables .sqlite) :=
  sameFirst_of_orderly queueTables_alike (by decide) (queueTables_orderly .postgres)
    (queueTables_orderly .sqlite)

example (b : Backend) :
    (firstEvent b (10 * second) 5 (queueTables b)).map (·.1.id) = some "event-b" ∧
      (firstTrigger b (10 * second) 5 .cron (queueTables b)).map (·.id) = some "cron-a" ∧
      (firstTrigger b (10 * second) 5 .interval (queueTables b)).map (·.id) =
        some "interval-b" := by
  cases b <;> decide +kernel

end Queue

end Trigger
end SecureAgnt

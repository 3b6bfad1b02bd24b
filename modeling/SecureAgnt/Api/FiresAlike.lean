/-
When manual fires end alike on the two back ends.

Postgres asks its ledger for `manual:` and the key, and counts the runs in flight; SQLite
asks for the bare key and counts nothing.  Where both create a run they change the trigger
alike.
-/
import SecureAgnt.Api.UpdatesAlike
import SecureAgnt.Trigger.Instant

namespace SecureAgnt
namespace Api

open Storage (Backend)
open Trigger (TriggerProg DbError ManualTriggerFireOutcome TriggerChange TriggerRunRow Db Moment
  IdSource Write sql manualKey triggerStore)

/-! ## Agreement -/

/-- The same trigger, its last firing to the second. -/
structure SameFired (row row' : Trigger.TriggerRow) : Prop where
  settings : { row with lastFiredAt := none } = { row' with lastFiredAt := none }
  lastFired : row.lastFiredAt.map Backend.sqlite.stamp = row'.lastFiredAt.map Backend.sqlite.stamp

abbrev FireEnd := Except DbError (ApiResult (Nat × TriggerFireResponse)) × Moment

/-- The same status, and the same triggers after it. -/
structure FiredAlike (pg sq : FireEnd) : Prop where
  reply : ∃ r r', pg.1 = .ok r ∧ sq.1 = .ok r' ∧
    SameReply (fun a a' => a.1 = a'.1 ∧ a.2.status = a'.2.status) r r'
  stored : List.Forall₂ SameFired pg.2.db.triggers sq.2.db.triggers

section Fires

variable (rt : ApiRuntime) (config : ApiConfig) (errorText : DbError → String)
  (headers : HeaderMap) (triggerId : String) (req : FireTriggerRequest) (now : Int) (ids : IdSource)
  (db : Db)

def fireOn (b : Backend) : FireEnd :=
  (fireTriggerHandler rt (config.on b) errorText headers triggerId req).exec
    (Trigger.answer b now ids) ⟨db, none⟩

def FiresAlike : Prop :=
  FiredAlike (fireOn rt config errorText headers triggerId req now ids db .postgres)
    (fireOn rt config errorText headers triggerId req now ids db .sqlite)

/-- The checks that both handlers make, and the key and the trigger they let through. -/
def fireTarget : ApiResult (String × Trigger.TriggerRow) := do
  let caller ← admitTriggerMutation rt config.state headers
  let idempotencyKey ← req.checkedKey
  match (db.trigger? triggerId).filter (·.tenantId = caller.tenantId) with
  | none => .error (.notFound "trigger not found")
  | some trigger => do
    ensureTriggerOperatorOwnership caller.role (caller.actorUserId.map Uuid.text)
      trigger.triggeredByUserId
    if trigger.enabled = false ∨ trigger.deadLetteredAt.isSome then
      .error (.conflict "trigger is not enabled")
    else .ok (idempotencyKey, trigger)

/-- There is room for another run, of the trigger and of its tenant. -/
def FireRoom (trigger : Trigger.TriggerRow) : Prop :=
  db.triggerInflight triggerId < trigger.maxInflightRuns ∧
    db.tenantInflight trigger.tenantId < defaultTenantMaxInflightRuns

/-- The key has fired on both back ends, or on neither and there is room. -/
def FirePasses (idempotencyKey : String) (trigger : Trigger.TriggerRow) : Prop :=
  ((db.triggerRun? triggerId (manualKey .postgres idempotencyKey)).isSome = true ∧
    ∃ row, db.triggerRun? triggerId (manualKey .sqlite idempotencyKey) = some row ∧
      row.runId.isSome = true) ∨
  (db.triggerRun? triggerId (manualKey .postgres idempotencyKey) = none ∧
    db.triggerRun? triggerId (manualKey .sqlite idempotencyKey) = none ∧
    FireRoom triggerId db trigger)

end Fires

section FireRules

variable {b : Backend} {now : Int} {ids : IdSource} {db : Db} {trigger : Trigger.TriggerRow}
  {tenantId triggerId idempotencyKey : String} {payload : Option Json}

theorem SameFired.refl (row : Trigger.TriggerRow) : SameFired row row := ⟨rfl, rfl⟩

/-- A touch of the same trigger at the same time. -/
theorem forall₂_touched (now : Int) (db : Db) (triggerId : String) :
    List.Forall₂ SameFired
      (db.changeTrigger triggerId
        (TriggerChange.row (Backend.postgres.currentTimestamp now) .touch)).triggers
      (db.changeTrigger triggerId
        (TriggerChange.row (Backend.sqlite.currentTimestamp now) .touch)).triggers := by
  refine List.forall₂_map_left_iff.mpr (List.forall₂_map_right_iff.mpr
    (List.forall₂_same.mpr fun row _ => ?_))
  by_cases hkey : row.id = triggerId
  · rw [if_pos hkey, if_pos hkey]
    exact ⟨rfl, congrArg some (stamp_alike now)⟩
  · rw [if_neg hkey, if_neg hkey]
    exact SameFired.refl row

/-- The trigger that the handler has loaded is the one that Postgres locks. -/
theorem selectedForUpdate (hfound : (db.trigger? triggerId).filter (·.tenantId = tenantId) =
      some trigger)
    (henabled : trigger.enabled = true) (halive : trigger.deadLetteredAt = none) :
    ((db.trigger? triggerId).filter fun row =>
      row.tenantId = tenantId && row.enabled && row.deadLetteredAt.isNone) = some trigger := by
  rw [Option.filter_eq_some_iff] at hfound ⊢
  exact ⟨hfound.1, by simpa [henabled, halive] using hfound.2⟩

theorem keyFree_of_none {dedupeKey : String} (h : db.triggerRun? triggerId dedupeKey = none) :
    ¬ db.KeyTaken triggerId dedupeKey := by
  intro htaken
  obtain ⟨row, hrow, hid, hkey⟩ := htaken
  have htest := List.find?_eq_none.mp h row hrow
  simp [hid, hkey] at htest

/-- A run is created, and the trigger is touched. -/
def Fired (b : Backend) (now : Int) (db : Db) (triggerId : String)
    (fired : Except DbError ManualTriggerFireOutcome × Moment) : Prop :=
  ∃ runId dispatch db', fired = (.ok (.created runId dispatch), ⟨db', none⟩) ∧
    db'.triggers = (db.changeTrigger triggerId
      (TriggerChange.row (b.currentTimestamp now) .touch)).triggers

/-- Postgres answers from the ledger, or where there is no room, or creates a run. -/
theorem exec_fireTriggerManually
    (hfound : (db.trigger? triggerId).filter (·.tenantId = tenantId) = some trigger)
    (henabled : trigger.enabled = true) (halive : trigger.deadLetteredAt = none)
    {fired : Except DbError ManualTriggerFireOutcome × Moment}
    (hfired : fired = (fireTriggerManually tenantId triggerId idempotencyKey payload).exec
      (Trigger.answer .postgres now ids) ⟨db, none⟩) :
    (∃ row, db.triggerRun? triggerId (manualKey .postgres idempotencyKey) = some row ∧
      fired = (.ok (.duplicate row.runId), ⟨db, none⟩)) ∨
    (db.triggerRun? triggerId (manualKey .postgres idempotencyKey) = none ∧
      (¬ FireRoom triggerId db trigger ∧ fired = (.ok .inflightLimited, ⟨db, none⟩) ∨
        FireRoom triggerId db trigger ∧ Fired .postgres now db triggerId fired)) := by
  have hview : (⟨db, some []⟩ : Moment).view = db := rfl
  subst hfired
  unfold fireTriggerManually Trigger.fireTriggerManuallyWithLimits
  rw [Trigger.exec_inTransaction, Prog.exec_bind, Trigger.exec_selectTriggerForUpdate,
    Prog.thenExec_ok, hview, selectedForUpdate hfound henabled halive]
  dsimp only
  rw [Prog.exec_bind, Trigger.exec_selectTriggerRun, Prog.thenExec_ok, hview]
  cases hrow : db.triggerRun? triggerId (manualKey .postgres idempotencyKey) with
  | some row => exact .inl ⟨row, rfl, rfl⟩
  | none =>
    right
    dsimp only
    rw [Prog.exec_bind, Trigger.exec_countTriggerInflight, Prog.thenExec_ok, Prog.exec_bind,
      Trigger.exec_countTenantInflight, Prog.thenExec_ok, hview]
    by_cases hroom : FireRoom triggerId db trigger
    · obtain ⟨htriggerRoom, htenantRoom⟩ := hroom
      have hkey := keyFree_of_none hrow
      rw [if_neg (by unfold defaultTenantMaxInflightRuns at *; omega), Prog.exec_bind,
        Trigger.exec_newUuid, Prog.thenExec_ok, hview, Prog.exec_bind, Trigger.exec_nowUtc,
        Prog.thenExec_ok, Prog.exec_bind, Trigger.exec_insertRun (ids.unused db).2.1,
        Prog.thenExec_ok, Prog.exec_bind, Trigger.exec_updateTrigger, Prog.thenExec_ok,
        Prog.exec_bind, Trigger.exec_insertCreated (by exact hkey), Prog.thenExec_ok]
      exact ⟨rfl, .inr ⟨⟨htriggerRoom, htenantRoom⟩, _, _, _, rfl, rfl⟩⟩
    · rw [if_pos (by unfold FireRoom defaultTenantMaxInflightRuns at *; omega)]
      exact ⟨rfl, .inl ⟨hroom, rfl⟩⟩

/-- SQLite answers from the ledger, or creates a run; a row without a run is an error. -/
theorem exec_fireLoadedTriggerSqlite
    {fired : Except DbError ManualTriggerFireOutcome × Moment}
    (hfired : fired = (Trigger.fireLoadedTriggerSqlite trigger triggerId idempotencyKey
      payload).exec (Trigger.answer .sqlite now ids) ⟨db, none⟩) :
    (∃ row, db.triggerRun? triggerId (manualKey .sqlite idempotencyKey) = some row ∧
      fired = (row.runId.elim (.error (.decode "run_id")) fun runId => .ok (.duplicate runId),
        ⟨db, none⟩)) ∨
    (db.triggerRun? triggerId (manualKey .sqlite idempotencyKey) = none ∧
      Fired .sqlite now db triggerId fired) := by
  have hview : (⟨db, some []⟩ : Moment).view = db := rfl
  subst hfired
  unfold Trigger.fireLoadedTriggerSqlite
  rw [Trigger.exec_inTransaction, Prog.exec_bind, Trigger.exec_selectTriggerRun,
    Prog.thenExec_ok, hview]
  cases hrow : db.triggerRun? triggerId (manualKey .sqlite idempotencyKey) with
  | some row =>
    refine .inl ⟨row, rfl, ?_⟩
    cases hrun : row.runId with
    | none => simp only [hrun]; rfl
    | some runId => simp only [hrun]; rfl
  | none =>
    right
    have hkey := keyFree_of_none hrow
    dsimp only
    rw [Prog.exec_bind, Trigger.exec_newUuid, Prog.thenExec_ok, hview, Prog.exec_bind,
      Trigger.exec_insertRun (ids.unused db).2.1, Prog.thenExec_ok, Prog.exec_bind,
      Trigger.exec_nowUtc, Prog.thenExec_ok, Prog.exec_bind,
      Trigger.exec_insertCreated (by exact hkey), Prog.thenExec_ok, Prog.exec_bind,
      Trigger.exec_updateTrigger, Prog.thenExec_ok]
    exact ⟨rfl, _, _, _, rfl, rfl⟩

/-- How the handler ends once the trigger is loaded. -/
def fireEnd (errorText : DbError → String) (triggerId idempotencyKey : String)
    (fired : Except DbError ManualTriggerFireOutcome × Moment) : FireEnd :=
  (.ok (match fired.1 with
    | .error e => .error (.internal ("failed firing trigger: " ++ errorText e))
    | .ok outcome => fireAnswer triggerId idempotencyKey outcome), fired.2)

variable {rt : ApiRuntime} {config : ApiConfig} (errorText : DbError → String)
  {headers : HeaderMap} {req : FireTriggerRequest}

theorem fireOn_eq (b : Backend) :
    fireOn rt config errorText headers triggerId req now ids db b =
      match fireTarget rt config headers triggerId req db with
      | .error e => (.ok (.error e), ⟨db, none⟩)
      | .ok (key, loaded) => fireEnd errorText triggerId key ((fireLoadedTrigger b loaded.tenantId
        loaded triggerId key req.payload).exec (Trigger.answer b now ids) ⟨db, none⟩) := by
  unfold fireOn fireTarget fireTriggerHandler
  rw [show (config.on b).state = config.state from rfl]
  cases hcaller : admitTriggerMutation rt config.state headers with
  | error e => rfl
  | ok caller =>
  cases hkey : req.checkedKey with
  | error e => rfl
  | ok key =>
  dsimp only
  rw [Prog.exec_bind, Prog.exec_attempt, Trigger.exec_selectTrigger, Prog.thenExec_ok]
  have hview : (⟨db, none⟩ : Moment).view = db := rfl
  rw [hview]
  show _ = (match (match (db.trigger? triggerId).filter (·.tenantId = caller.tenantId) with
    | none => _ | some loaded => _ : ApiResult (String × Trigger.TriggerRow)) with
    | .error e => _ | .ok (key, loaded) => _ : FireEnd)
  cases hfound : (db.trigger? triggerId).filter (·.tenantId = caller.tenantId) with
  | none => rfl
  | some loaded =>
    have htenant : loaded.tenantId = caller.tenantId :=
      of_decide_eq_true (Option.filter_eq_some_iff.mp hfound).2
    dsimp only
    cases hown : ensureTriggerOperatorOwnership caller.role (caller.actorUserId.map Uuid.text)
      loaded.triggeredByUserId with
    | error e => rfl
    | ok u =>
      dsimp only
      by_cases hoff : loaded.enabled = false ∨ loaded.deadLetteredAt.isSome
      · rw [if_pos hoff, if_pos hoff]
        rfl
      · rw [if_neg hoff, if_neg hoff, Prog.exec_bind, Prog.exec_attempt, Prog.thenExec_ok,
          show (config.on b).backend = b from rfl, ← htenant]
        show _ = fireEnd errorText triggerId key _
        rcases (fireLoadedTrigger b loaded.tenantId loaded triggerId key req.payload).exec
          (Trigger.answer b now ids) ⟨db, none⟩ with ⟨e | outcome, m⟩ <;> rfl

theorem fireTarget_ok (h : fireTarget rt config headers triggerId req db =
      .ok (idempotencyKey, trigger)) :
    (db.trigger? triggerId).filter (·.tenantId = trigger.tenantId) = some trigger ∧
      trigger.enabled = true ∧ trigger.deadLetteredAt = none := by
  unfold fireTarget at h
  cases hcaller : admitTriggerMutation rt config.state headers with
  | error e => rw [hcaller] at h; cases h
  | ok caller =>
  rw [hcaller] at h
  cases hkey : req.checkedKey with
  | error e => rw [hkey] at h; cases h
  | ok key =>
  rw [hkey] at h
  cases hfound : (db.trigger? triggerId).filter (·.tenantId = caller.tenantId) with
  | none =>
    simp only [bind, Except.bind, hfound] at h
    cases h
  | some loaded =>
    simp only [bind, Except.bind, hfound] at h
    split at h
    · cases h
    · split at h
      · cases h
      · rename_i hon
        cases h
        have htenant : trigger.tenantId = caller.tenantId :=
          of_decide_eq_true (Option.filter_eq_some_iff.mp hfound).2
        rw [htenant]
        simp only [not_or, Bool.not_eq_false, Bool.not_eq_true, Option.isSome_eq_false_iff,
          Option.isNone_iff_eq_none] at hon
        exact ⟨hfound, hon⟩

/-- Two ends without a change of the triggers are alike if their replies are. -/
theorem firedAlike_unchanged {r r' : ApiResult (Nat × TriggerFireResponse)}
    (h : SameReply (fun a a' => a.1 = a'.1 ∧ a.2.status = a'.2.status) r r') :
    FiredAlike (.ok r, ⟨db, none⟩) (.ok r', ⟨db, none⟩) :=
  ⟨⟨r, r', rfl, rfl, h⟩, List.forall₂_same.mpr fun row _ => SameFired.refl row⟩

theorem not_firedAlike {r r' : ApiResult (Nat × TriggerFireResponse)} {m m' : Moment}
    (h : ¬ SameReply (fun a a' => a.1 = a'.1 ∧ a.2.status = a'.2.status) r r') :
    ¬ FiredAlike (.ok r, m) (.ok r', m') := by
  intro halike
  obtain ⟨r₁, r₁', hr, hr', hsame⟩ := halike.reply
  cases hr
  cases hr'
  exact h hsame

/-- A trigger that is let through is fired alike exactly if the fire passes. -/
theorem fireEnds_alike_iff
    (hfound : (db.trigger? triggerId).filter (·.tenantId = trigger.tenantId) = some trigger)
    (henabled : trigger.enabled = true) (halive : trigger.deadLetteredAt = none)
    (key : String) (payload : Option Json) :
    FiredAlike
      (fireEnd errorText triggerId key ((fireLoadedTrigger .postgres trigger.tenantId trigger
        triggerId key payload).exec (Trigger.answer .postgres now ids) ⟨db, none⟩))
      (fireEnd errorText triggerId key ((fireLoadedTrigger .sqlite trigger.tenantId trigger
        triggerId key payload).exec (Trigger.answer .sqlite now ids) ⟨db, none⟩)) ↔
      FirePasses triggerId db key trigger := by
  generalize hpg : (fireLoadedTrigger .postgres trigger.tenantId trigger triggerId key
    payload).exec (Trigger.answer .postgres now ids) ⟨db, none⟩ = pg
  generalize hsq : (fireLoadedTrigger .sqlite trigger.tenantId trigger triggerId key
    payload).exec (Trigger.answer .sqlite now ids) ⟨db, none⟩ = sq
  rcases exec_fireTriggerManually hfound henabled halive hpg.symm with
    ⟨row, hrow, rfl⟩ | ⟨hfree, ⟨hfull, rfl⟩ | ⟨hroom, runId, dispatch, after, rfl, hafter⟩⟩ <;>
  rcases exec_fireLoadedTriggerSqlite hsq.symm with
    ⟨row', hrow', rfl⟩ | ⟨hfree', runId', dispatch', after', rfl, hafter'⟩
  · cases hrun : row'.runId with
    | none => exact iff_of_false (not_firedAlike id) (by simp [FirePasses, hrow, hrow', hrun])
    | some runId =>
      exact iff_of_true (firedAlike_unchanged ⟨rfl, rfl⟩) (by simp [FirePasses, hrow, hrow', hrun])
  · have hstatus : (200 : Nat) ≠ 202 := by decide
    exact iff_of_false (not_firedAlike fun h => hstatus h.1) (by simp [FirePasses, hrow, hfree'])
  · refine iff_of_false (not_firedAlike ?_) (by simp [FirePasses, hfree, hrow'])
    have hstatus : (429 : Nat) ≠ 500 := by decide
    cases row'.runId with
    | none => exact fun h => hstatus h.1
    | some runId => exact id
  · exact iff_of_false (not_firedAlike id) (by simp [FirePasses, hfree, hfree', hfull])
  · refine iff_of_false (not_firedAlike ?_) (by simp [FirePasses, hfree, hrow'])
    have hstatus : (202 : Nat) ≠ 200 := by decide
    cases row'.runId with
    | none => exact id
    | some runId' => exact fun h => hstatus h.1
  · refine iff_of_true ⟨⟨_, _, rfl, rfl, rfl, rfl⟩, ?_⟩ (.inr ⟨hfree, hfree', hroom⟩)
    show List.Forall₂ SameFired after.triggers after'.triggers
    rw [hafter, hafter']
    exact forall₂_touched now db triggerId

end FireRules

/-- Fires agree exactly if a check stops both, or the key has fired on both back ends, or on
neither and there is room for the run. -/
theorem fires_alike_iff (rt : ApiRuntime) (config : ApiConfig) (errorText : DbError → String)
    (headers : HeaderMap) (triggerId : String) (req : FireTriggerRequest) (now : Int)
    (ids : IdSource) (db : Db) :
    FiresAlike rt config errorText headers triggerId req now ids db ↔
      (∃ e, fireTarget rt config headers triggerId req db = .error e) ∨
      ∃ key trigger, fireTarget rt config headers triggerId req db = .ok (key, trigger) ∧
        FirePasses triggerId db key trigger := by
  unfold FiresAlike
  rw [fireOn_eq, fireOn_eq]
  cases htarget : fireTarget rt config headers triggerId req db with
  | error e => exact iff_of_true (firedAlike_unchanged ⟨rfl, rfl⟩) (.inl ⟨e, rfl⟩)
  | ok target =>
    obtain ⟨key, trigger⟩ := target
    obtain ⟨hfound, henabled, halive⟩ := fireTarget_ok htarget
    rw [fireEnds_alike_iff errorText hfound henabled halive]
    simp

end Api
end SecureAgnt

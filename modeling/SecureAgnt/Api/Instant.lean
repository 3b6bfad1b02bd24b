/-
One request at one instant.

Nothing else goes on and no connection is lost.  Then every call of a handler has one
answer, which `answer` computes with the tables after it; `finishes_instant` says that what
is computed this way is a run of the statements.
-/
import Mathlib.Data.String.Basic
import SecureAgnt.Api.Store
import SecureAgnt.Lib.Exec

namespace SecureAgnt
namespace Api

open Storage (Backend)

/-! ## The newest row -/

instance (b : Backend) (x y : TriggerRecord) : Decidable (isNewer b x y) :=
  inferInstanceAs (Decidable (_ ∨ _ ∧ _ ∧ _))

def newest (b : Backend) : List TriggerRecord → Option TriggerRecord
  | [] => none
  | row :: rest =>
    match newest b rest with
    | none => some row
    | some best => if isNewer b best row then some best else some row

/-- A row between a row and one newer than it is newer than the one or older than the
other. -/
theorem isNewer_between {b : Backend} {x z : TriggerRecord} (h : isNewer b x z)
    (y : TriggerRecord) : isNewer b x y ∨ isNewer b y z := by
  unfold isNewer at *
  rcases h with h | ⟨hb, hstamp, hid⟩
  · by_cases hy : b.stamp z.createdAt < b.stamp y.createdAt
    · exact .inr (.inl hy)
    · exact .inl (.inl (by omega))
  · rcases lt_trichotomy (b.stamp y.createdAt) (b.stamp x.createdAt) with hy | hy | hy
    · exact .inl (.inl hy)
    · rcases lt_or_ge y.id.text x.id.text with htext | htext
      · exact .inl (.inr ⟨hb, hy, htext⟩)
      · exact .inr (.inr ⟨hb, by omega, lt_of_lt_of_le hid htext⟩)
    · exact .inr (.inl (by omega))

theorem isNewer_asymm {b : Backend} {x y : TriggerRecord} (h : isNewer b x y) :
    ¬ isNewer b y x := by
  intro h'
  unfold isNewer at *
  rcases h with h | ⟨_, hstamp, hid⟩
  · rcases h' with h' | ⟨_, hstamp', _⟩ <;> omega
  · rcases h' with h' | ⟨_, _, hid'⟩
    · omega
    · exact lt_asymm hid hid'

theorem newest_eq_none {b : Backend} {rows : List TriggerRecord} (h : newest b rows = none) :
    rows = [] := by
  cases rows with
  | nil => rfl
  | cons first rest =>
    unfold newest at h
    split at h
    · cases h
    · split at h <;> cases h

theorem newest_spec {b : Backend} {rows : List TriggerRecord} {best : TriggerRecord}
    (h : newest b rows = some best) : best ∈ rows ∧ ∀ row ∈ rows, ¬ isNewer b row best := by
  induction rows generalizing best with
  | nil => cases h
  | cons first rest ih =>
    have hself : ¬ isNewer b first first := fun hnewer => isNewer_asymm hnewer hnewer
    unfold newest at h
    cases hrest : newest b rest with
    | none =>
      rw [hrest] at h
      cases h
      rw [newest_eq_none hrest]
      simpa using hself
    | some last =>
      obtain ⟨hmem, hlast⟩ := ih hrest
      rw [hrest] at h
      dsimp only at h
      split at h
      · rename_i hnewer
        cases h
        exact ⟨List.mem_cons_of_mem _ hmem,
          List.forall_mem_cons.mpr ⟨isNewer_asymm hnewer, hlast⟩⟩
      · rename_i holder
        cases h
        refine ⟨List.mem_cons_self, List.forall_mem_cons.mpr ⟨hself, ?_⟩⟩
        intro row hrow hnewer
        rcases isNewer_between hnewer last with hx | hx
        · exact hlast row hrow hx
        · exact holder hx

/-! ## Answers -/

section Answers

variable (b : Backend) (w : ApiWorld)

instance (row : TriggerRecord) : Decidable (w.AllowsTrigger b row) :=
  decidable_of_iff (row.id ∉ w.triggers.map (·.id) ∧ row.agentId ∈ w.agents ∧
    (row.triggeredByUserId.all fun user => user ∈ w.users) = true ∧ row.checked b = true) (by
      unfold ApiWorld.AllowsTrigger
      simp only [Option.all_eq_true, decide_eq_true_eq])

instance (row : MemoryRow) : Decidable (w.AllowsMemory row) :=
  decidable_of_iff (row.id ∉ w.memoryRecords.map (·.id) ∧ row.key.agentId ∈ w.agents ∧
    (row.runId.all fun run => run ∈ w.runs.map (·.id)) = true ∧
    (row.stepId.all fun step => step ∈ w.steps.map (·.id)) = true) (by
      unfold ApiWorld.AllowsMemory
      simp only [Option.all_eq_true, decide_eq_true_eq])

end Answers

/-- New identifiers, the wording of a broken constraint, and what the context files hold. -/
structure ApiInstant where
  newId : ApiWorld → Uuid
  constraintText : Backend → String
  heartbeat : String → Uuid → ApiResult String

namespace ApiInstant

variable (env : ApiInstant) (b : Backend) (w : ApiWorld)

/-- A statement has its effect, or breaks a constraint. -/
def orFail {α : Type} (allowed : Bool) (result : α) (w' : ApiWorld) : Except String α × ApiWorld :=
  if allowed then (.ok result, w') else (.error (env.constraintText b), w)

def answerQuery : (q : ApiQuery) → Except String q.Result × ApiWorld
  | .countTenantTriggers tenantId => (.ok (w.tenantTriggers tenantId), w)
  | .countTenantMemoryRecords tenantId => (.ok (w.activeMemory b tenantId), w)
  | .insertTrigger new =>
    let row := new.row b w.clock
    env.orFail b w (w.AllowsTrigger b row) row { w with triggers := w.triggers ++ [row] }
  | .getTrigger tenantId triggerId => (.ok (w.trigger? tenantId triggerId), w)
  | .updateTriggerConfig tenantId triggerId update =>
    let updated := (w.trigger? tenantId triggerId).map (update.row b w.clock)
    env.orFail b w (updated.all (·.checked b)) updated
      (w.updateTrigger tenantId triggerId (update.row b w.clock))
  | .findHeartbeatTrigger tenantId agentId candidate schedule =>
    (.ok ((newest b (w.triggers.filter (candidate.isFoundIn schedule tenantId agentId))).map
      (·.id)), w)
  | .getRunStatus tenantId runId => (.ok (decide (⟨runId, tenantId⟩ ∈ w.runs)), w)
  | .countSteps stepId runId tenantId => (.ok (w.steps.count ⟨stepId, runId, tenantId⟩), w)
  | .insertMemoryRecord new =>
    let row := new.stored b w.clock
    env.orFail b w (w.AllowsMemory row) row { w with memoryRecords := w.memoryRecords ++ [row] }
  | .appendTriggerAuditEvent event =>
    env.orFail b w (event.triggerId ∈ w.triggers.map (·.id)) ()
      { w with triggerAudit := w.triggerAudit ++ [event] }
  | .appendAuditEvent event =>
    env.orFail b w (event.runId ∈ w.runs.map (·.id)) ()
      { w with runAudit := w.runAudit ++ [event] }

def answer : (op : ApiOp) → op.Ans × ApiWorld
  | .nowUtc => (w.clock, w)
  | .newUuid => (env.newId w, w)
  | .loadHeartbeat tenantId agentId => (env.heartbeat tenantId agentId, w)
  | .sql q => env.answerQuery b w q

end ApiInstant

/-! ## The statements behind it -/

/-- Nothing else goes on, and no time passes. -/
def instantHandler (b : Backend) : Handler ApiOp ApiOp.Ans ApiWorld where
  step w op answer w' := apiStep b false w op answer w'

section Steps

variable {env : ApiInstant} {b : Backend} {w : ApiWorld}

theorem queryStep_orFail {q : ApiQuery} {allowed : Bool} {result : q.Result} {w' : ApiWorld}
    (hok : allowed = true → queryEffect b w q result w')
    (herror : allowed = false → ∀ result' w₁, ¬ queryEffect b w q result' w₁) :
    queryStep b false w q (env.orFail b w allowed result w').1
      (env.orFail b w allowed result w').2 := by
  cases allowed with
  | true => exact hok rfl
  | false => exact .inl ⟨rfl, herror rfl⟩

theorem queryStep_answer (q : ApiQuery) :
    queryStep b false w q (env.answerQuery b w q).1 (env.answerQuery b w q).2 := by
  cases q with
  | countTenantTriggers tenantId => exact ⟨rfl, rfl⟩
  | countTenantMemoryRecords tenantId => exact ⟨rfl, rfl⟩
  | insertTrigger new =>
    refine queryStep_orFail ?_ ?_
    · intro h
      exact ⟨of_decide_eq_true h, rfl, rfl⟩
    · intro h result' w₁ heffect
      obtain ⟨hallows, rfl, _⟩ := heffect
      exact of_decide_eq_false h hallows
  | getTrigger tenantId triggerId => exact ⟨rfl, rfl⟩
  | updateTriggerConfig tenantId triggerId update =>
    refine queryStep_orFail ?_ ?_
    · intro h
      refine ⟨rfl, ?_, rfl⟩
      intro row hrow
      rw [hrow] at h
      exact h
    · intro h result' w₁ heffect
      obtain ⟨rfl, hchecked, _⟩ := heffect
      rw [Option.all_eq_false] at h
      obtain ⟨row, hrow, hbad⟩ := h
      rw [hchecked row hrow] at hbad
      cases hbad
  | findHeartbeatTrigger tenantId agentId candidate schedule =>
    refine ⟨?_, ?_, rfl⟩
    · intro row hrow hfound
      cases hbest : newest b (w.triggers.filter
        (candidate.isFoundIn schedule tenantId agentId)) with
      | none =>
        have hnone := newest_eq_none hbest
        have hmem := List.mem_filter.mpr ⟨hrow, hfound⟩
        rw [hnone] at hmem
        cases hmem
      | some best =>
        obtain ⟨hmem, hnewest⟩ := newest_spec hbest
        obtain ⟨hin, hbestFound⟩ := List.mem_filter.mp hmem
        exact ⟨best, hin, hbestFound, rfl, hnewest row (List.mem_filter.mpr ⟨hrow, hfound⟩)⟩
    · intro hnone
      have hempty : w.triggers.filter (candidate.isFoundIn schedule tenantId agentId) = [] := by
        simp only [List.filter_eq_nil_iff, Bool.not_eq_true]
        exact hnone
      rw [hempty]
      rfl
  | getRunStatus tenantId runId => exact ⟨rfl, rfl⟩
  | countSteps stepId runId tenantId => exact ⟨rfl, rfl⟩
  | insertMemoryRecord new =>
    refine queryStep_orFail ?_ ?_
    · intro h
      exact ⟨of_decide_eq_true h, rfl, rfl⟩
    · intro h result' w₁ heffect
      obtain ⟨hallows, rfl, _⟩ := heffect
      exact of_decide_eq_false h hallows
  | appendTriggerAuditEvent event =>
    refine queryStep_orFail ?_ ?_
    · intro h
      exact ⟨of_decide_eq_true h, rfl⟩
    · intro h result' w₁ heffect
      exact of_decide_eq_false h heffect.1
  | appendAuditEvent event =>
    refine queryStep_orFail ?_ ?_
    · intro h
      exact ⟨of_decide_eq_true h, rfl⟩
    · intro h result' w₁ heffect
      exact of_decide_eq_false h heffect.1

/-- An identifier is new where it is made. -/
def ApiInstant.NewIdUnused (env : ApiInstant) (w : ApiWorld) (op : ApiOp) : Prop :=
  op = .newUuid → env.newId w ∉ w.triggers.map (·.id) ∧ env.newId w ∉ w.memoryRecords.map (·.id)

instance (env : ApiInstant) (w : ApiWorld) : (op : ApiOp) → Decidable (env.NewIdUnused w op)
  | .newUuid => decidable_of_iff (env.newId w ∉ w.triggers.map (·.id) ∧
      env.newId w ∉ w.memoryRecords.map (·.id)) ⟨fun h _ => h, fun h => h rfl⟩
  | .nowUtc => isTrue nofun
  | .loadHeartbeat .. => isTrue nofun
  | .sql _ => isTrue nofun

theorem apiStep_answer {op : ApiOp} (h : env.NewIdUnused w op) :
    apiStep b false w op (env.answer b w op).1 (env.answer b w op).2 := by
  cases op with
  | nowUtc => exact ⟨rfl, rfl⟩
  | newUuid => exact ⟨h rfl, rfl⟩
  | loadHeartbeat tenantId agentId => exact rfl
  | sql q => exact queryStep_answer q

/-- What is computed at an instant is a run of the statements. -/
theorem finishes_instant {α : Type} {p : ApiProg α}
    (hp : p.Along env.NewIdUnused (env.answer b) w) :
    Handler.Finishes (instantHandler b) w p (p.exec (env.answer b) w).2
      (p.exec (env.answer b) w).1 := by
  have hstep : ∀ (s t : ApiWorld) (op : ApiOp), env.NewIdUnused s op → s = t → ∃ t',
      (instantHandler b).step t op (env.answer b s op).1 t' ∧ (env.answer b s op).2 = t' := by
    rintro s _ op hid rfl
    exact ⟨_, apiStep_answer hid, rfl⟩
  obtain ⟨w', hfinish, rfl⟩ := Prog.finishes_exec Eq hstep hp (Eq.refl w)
  exact hfinish

end Steps

end Api
end SecureAgnt

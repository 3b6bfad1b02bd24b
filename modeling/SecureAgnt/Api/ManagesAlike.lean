/-
Where managing a trigger depends on the back end.

Creating a cron trigger, updating a trigger and firing one by hand are each alike on the two
back ends under an exact condition.  A cron expression that has no next instant is one that
only Postgres refuses.

The texts here are those that both databases hold.  Postgres takes no U+0000 in a text or in
JSON, SQLite does, and a request with one is outside of the model.
-/
import SecureAgnt.Api.Capacity
import SecureAgnt.Api.FiresAlike

namespace SecureAgnt
namespace Api

open Storage (Backend)
open Trigger (DbError Db IdSource applyJitter)

/-- Each operation is the same on both back ends exactly under its condition.  What is compared
are runs of the handlers, with new identifiers where they are made. -/
theorem manages_alike_iff (rt : ApiRuntime) (config : ApiConfig) (headers : HeaderMap) :
    (∀ (env : ApiInstant) (req : CreateCronTriggerRequest) (w : ApiWorld),
      CreatesAlike rt config env headers req w ↔ CreateRefused rt config env headers req w ∨
        ∃ due, rt.nextCronFireAt (Text.trim req.cronExpression) (Text.trim req.scheduleTimezone)
          w.clock = .ok due ∧ (due = w.clock ∨ applyJitter rt.toTriggerRuntime due
            (env.newId w).text req.jitterSeconds w.clock = w.clock)) ∧
    (∀ (env : ApiInstant) (triggerId : Uuid) (req : UpdateTriggerRequest) (t : SharedTables),
      UpdatesAlike rt config env headers triggerId req t.toApiWorld ↔
        (∃ e, updateTarget rt config headers triggerId req t.toApiWorld = .error e) ∨
        ∃ caller existing due,
          updateTarget rt config headers triggerId req t.toApiWorld = .ok (caller, existing) ∧
          regularDue rt req t.toApiWorld existing = .ok due ∧ KeepsSecret req existing ∧
          (due = existing.nextFireAt ∨
            jitteredDue rt req t.toApiWorld existing due = existing.nextFireAt)) ∧
    (∀ (errorText : DbError → String) (triggerId : String) (req : FireTriggerRequest) (now : Int)
      (ids : IdSource) (db : Db),
      FiresAlike rt config errorText headers triggerId req now ids db ↔
        (∃ e, fireTarget rt config headers triggerId req db = .error e) ∨
        ∃ key trigger, fireTarget rt config headers triggerId req db = .ok (key, trigger) ∧
          FirePasses triggerId db key trigger) ∧
    (∀ (env : ApiInstant) (b : Backend) (req : CreateCronTriggerRequest) (w : ApiWorld),
      (createCronTriggerHandler rt (config.on b) headers req).Along env.NewIdUnused (env.answer b)
        w →
      Handler.Finishes (instantHandler b) w (createCronTriggerHandler rt (config.on b) headers req)
        (createOn rt config env headers req w b).2 (createOn rt config env headers req w b).1) ∧
    ∀ (env : ApiInstant) (b : Backend) (triggerId : Uuid) (req : UpdateTriggerRequest)
      (w : ApiWorld),
      (updateTriggerHandler rt (config.on b) headers triggerId req).Along env.NewIdUnused
        (env.answer b) w →
      Handler.Finishes (instantHandler b) w (updateTriggerHandler rt (config.on b) headers triggerId
        req) (updateOn rt config env headers triggerId req w b).2
        (updateOn rt config env headers triggerId req w b).1 := by
  refine ⟨?_, ?_, ?_, ?_, ?_⟩
  · intro env req w
    exact creates_alike_iff rt config env headers req w
  · intro env triggerId req t
    exact updates_alike_iff rt config env headers triggerId req t
  · intro errorText triggerId req now ids db
    exact fires_alike_iff rt config errorText headers triggerId req now ids db
  · intro env b req w
    exact finishes_instant
  · intro env b triggerId req w
    exact finishes_instant

/-! ## An expression without a next instant -/

/-- No expression can be evaluated. -/
def noSchedules : ApiRuntime :=
  { bareRuntime with nextCronFireAt := fun _ _ _ => .error "invalid cron expression" }

def noLimits : ApiConfig := ⟨.postgres, {}, none, none⟩

def cronHeaders : HeaderMap := [("x-tenant-id", ⟨some "tenant-1"⟩)]

def notACron : CreateCronTriggerRequest where
  agentId := anAgent
  recipeId := "recipe"
  input := .null
  cronExpression := "not a cron"

def fixedInstant : ApiInstant := ⟨fun _ => anAgent, fun _ => "", fun _ _ => .ok ""⟩

/-- The identifier of the first trigger, and another one after it. -/
def twoIds : ApiInstant :=
  { fixedInstant with newId := fun w => triggerIdOf w.triggers.isEmpty }

example : (createCronTriggerHandler noSchedules (noLimits.on .sqlite) cronHeaders notACron).Along
      twoIds.NewIdUnused (twoIds.answer .sqlite) noTriggers ∧
    (createOn noSchedules noLimits twoIds cronHeaders notACron noTriggers
      .sqlite).2.triggers.length = 1 := by
  decide +kernel

def cronGrant : TriggerGrant := ⟨"tenant-1", .owner, none, .arr []⟩

theorem createGrant_notACron : createGrant noSchedules noLimits cronHeaders notACron =
    .ok cronGrant := by
  rfl

/-- SQLite stores a trigger that Postgres refuses. -/
theorem not_creates_alike :
    ¬ CreatesAlike noSchedules noLimits fixedInstant cronHeaders notACron noTriggers := by
  rw [creates_alike_iff]
  rintro (hrefused | ⟨due, hdue, _⟩)
  · rcases hrefused cronGrant createGrant_notACron with ⟨limit, hlimit, _⟩ | hbreaks
    · cases hlimit
    · rcases hbreaks with htaken | hagent | ⟨user, huser, _⟩
      · exact absurd htaken List.not_mem_nil
      · exact hagent List.mem_cons_self
      · cases huser
  · cases hdue

end Api
end SecureAgnt

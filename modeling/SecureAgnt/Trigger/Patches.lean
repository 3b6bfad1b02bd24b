/-
The columns of a trigger and who wrote them last.

A patch sets some columns of the configuration.  `lastConfig` has in each column the
value of the last patch that sets it.  An update merges its patch into the configuration
that it read; where the columns that the patch leaves alone are still the same, that is
the same as to merge it into the configuration that is there.
-/
import SecureAgnt.Trigger.Config

namespace SecureAgnt
namespace Trigger

open Storage

/-! ## The last of several writes -/

/-- The value of a column after writes, each of which may leave it alone. -/
def lastWrite {α : Type} (initial : α) (writes : List (Option α)) : α :=
  (writes.filterMap id).getLast?.getD initial

theorem lastWrite_concat {α : Type} (initial : α) (writes : List (Option α)) (write : Option α) :
    lastWrite initial (writes ++ [write]) = write.getD (lastWrite initial writes) := by
  unfold lastWrite
  cases write with
  | none =>
    rw [List.filterMap_append]
    simp
  | some value =>
    rw [List.filterMap_append]
    simp

/-- Each column as the last patch that sets it left it. -/
def lastConfig (initial : TriggerConfig) (patches : List UpdateTriggerParams) : TriggerConfig where
  intervalSeconds := lastWrite initial.intervalSeconds (patches.map (·.intervalSeconds.map some))
  cronExpression := lastWrite initial.cronExpression (patches.map (·.cronExpression.map some))
  scheduleTimezone :=
    lastWrite initial.scheduleTimezone (patches.map (·.scheduleTimezone.map (·.val)))
  misfirePolicy := lastWrite initial.misfirePolicy (patches.map (·.misfirePolicy))
  maxAttempts := lastWrite initial.maxAttempts (patches.map (·.maxAttempts))
  maxInflightRuns := lastWrite initial.maxInflightRuns (patches.map (·.maxInflightRuns))
  jitterSeconds := lastWrite initial.jitterSeconds (patches.map (·.jitterSeconds.map (·.val)))
  webhookSecretRef := lastWrite initial.webhookSecretRef (patches.map (·.webhookSecretRef.map some))

theorem getD_map_some {α : Type} (x y : Option α) : (x.map some).getD y = x.or y := by
  cases x <;> rfl

theorem lastConfig_concat (initial : TriggerConfig) (patches : List UpdateTriggerParams)
    (params : UpdateTriggerParams) : lastConfig initial (patches ++ [params]) =
      params.merge (lastConfig initial patches) := by
  unfold lastConfig UpdateTriggerParams.merge
  simp only [List.map_append, List.map_singleton, lastWrite_concat, getD_map_some]

/-- The columns that the patch leaves alone are the same in both configurations. -/
structure UpdateTriggerParams.LeavesSame (params : UpdateTriggerParams)
    (config config' : TriggerConfig) : Prop where
  intervalSeconds : params.intervalSeconds = none →
    config.intervalSeconds = config'.intervalSeconds
  cronExpression : params.cronExpression = none → config.cronExpression = config'.cronExpression
  scheduleTimezone : params.scheduleTimezone = none →
    config.scheduleTimezone = config'.scheduleTimezone
  misfirePolicy : params.misfirePolicy = none → config.misfirePolicy = config'.misfirePolicy
  maxAttempts : params.maxAttempts = none → config.maxAttempts = config'.maxAttempts
  maxInflightRuns : params.maxInflightRuns = none →
    config.maxInflightRuns = config'.maxInflightRuns
  jitterSeconds : params.jitterSeconds = none → config.jitterSeconds = config'.jitterSeconds
  webhookSecretRef : params.webhookSecretRef = none →
    config.webhookSecretRef = config'.webhookSecretRef

section Columns

variable {α : Type} {x : Option α}

theorem getD_eq_getD_iff {y y' : α} : x.getD y = x.getD y' ↔ (x = none → y = y') := by
  cases x <;> simp

theorem or_eq_or_iff {y y' : Option α} : x.or y = x.or y' ↔ (x = none → y = y') := by
  cases x <;> simp

end Columns

/-- The merges agree exactly where the columns left alone do. -/
theorem merge_eq_merge_iff {params : UpdateTriggerParams} {config config' : TriggerConfig} :
    params.merge config = params.merge config' ↔ params.LeavesSame config config' := by
  unfold UpdateTriggerParams.merge
  simp only [TriggerConfig.mk.injEq, or_eq_or_iff, getD_eq_getD_iff, Option.map_eq_none_iff]
  constructor
  · intro h
    obtain ⟨h₁, h₂, h₃, h₄, h₅, h₆, h₇, h₈⟩ := h
    exact ⟨h₁, h₂, h₃, h₄, h₅, h₆, h₇, h₈⟩
  · intro h
    exact ⟨h.1, h.2, h.3, h.4, h.5, h.6, h.7, h.8⟩

/-! ## Rows -/

section Rows

variable {config config' : TriggerConfig} {type : TriggerType} {schedule : Schedule}
  {row : TriggerRow}

theorem config_of_schedule? (h : config.schedule? type = some schedule) :
    schedule.intervalSeconds = config.intervalSeconds ∧
      schedule.cronExpression = config.cronExpression := by
  unfold TriggerConfig.schedule? at h
  cases type with
  | interval =>
    dsimp only at h
    split at h
    · rename_i hseconds hexpression
      cases h
      exact ⟨hseconds.symm, hexpression.symm⟩
    · cases h
  | cron =>
    dsimp only at h
    split at h
    · rename_i hseconds hexpression
      cases h
      exact ⟨hseconds.symm, hexpression.symm⟩
    · cases h
  | webhook =>
    dsimp only at h
    split at h
    · rename_i hseconds hexpression
      cases h
      exact ⟨hseconds.symm, hexpression.symm⟩
    · cases h

/-- The row has the columns that are written to it. -/
theorem TriggerRow.config_withConfig (nextFireAt : Option Int)
    (h : config.schedule? row.triggerType = some schedule) :
    (row.withConfig config nextFireAt).config = config := by
  obtain ⟨hseconds, hexpression⟩ := config_of_schedule? h
  unfold TriggerRow.withConfig TriggerRow.config
  simp only [h, Option.getD_some, hseconds, hexpression]

theorem TriggerRow.schedule?_config (row : TriggerRow) :
    row.config.schedule? row.triggerType = some row.schedule := by
  unfold TriggerRow.triggerType TriggerConfig.schedule? TriggerRow.config
  cases row.schedule <;> rfl

/-- To write a row its own columns changes nothing. -/
theorem TriggerRow.withConfig_self (row : TriggerRow) :
    row.withConfig row.config (some row.nextFireAt) = row := by
  unfold TriggerRow.withConfig
  rw [row.schedule?_config]
  rfl

/-- Columns that are written twice are as they were written last. -/
theorem TriggerRow.withConfig_withConfig (nextFireAt nextFireAt' : Int)
    (h : config'.schedule? row.triggerType = some schedule) :
    (row.withConfig config (some nextFireAt)).withConfig config' (some nextFireAt') =
      row.withConfig config' (some nextFireAt') := by
  have hsame : config'.schedule? (row.withConfig config (some nextFireAt)).triggerType =
      some schedule := by
    rw [row.withConfig_triggerType, h]
  unfold TriggerRow.withConfig at hsame ⊢
  rw [hsame, h]
  rfl

theorem TriggerChange.row_config (stamp : Int) (change : TriggerChange) (row : TriggerRow) :
    (change.row stamp row).config = row.config := by
  cases change <;> rfl

end Rows

end Trigger
end SecureAgnt

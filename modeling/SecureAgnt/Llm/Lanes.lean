/-
The lanes of one gateway call.

A request is admitted and measured in the lane its arguments name.  The plan, and with
it the local tier and the report, is in the lane of the channel where the arguments
name none.  The two are one lane unless the channel's default moves the plan.
-/
import SecureAgnt.Llm.Budget

namespace SecureAgnt
namespace Llm

open Prog (ofExcept)

/-! ## The report -/

def LlmMode.asStr : LlmMode → String
  | .localOnly => "local_only"
  | .localFirst => "local_first"
  | .remoteOnly => "remote_only"

def LlmLargeInputPolicy.asStr : LlmLargeInputPolicy → String
  | .direct => "direct"
  | .summarizeFirst => "summarize_first"
  | .chunkAndRetrieve => "chunk_and_retrieve"
  | .escalateRemote => "escalate_remote"

def LlmRemoteEgressClass.asStr : LlmRemoteEgressClass → String
  | .neverLeavesPrem => "never_leaves_prem"
  | .redactedOnly => "redacted_only"
  | .cloudAllowed => "cloud_allowed"

structure LlmGatewayDecision where
  version : String
  mode : String
  channel : Option String
  channelDefaultsApplied : Bool
  requestClass : String
  queueLane : String
  selectedRoute : String
  reasonCode : String
  localTierRequested : Option String
  localTierSelected : Option String
  localTierReasonCode : Option String
  prefer : Option String
  largeInputPolicy : String
  largeInputApplied : Bool
  largeInputReasonCode : String
  promptBytesOriginal : Nat
  promptBytesEffective : Nat
  retrievalCandidateDocuments : Nat
  retrievalSelectedDocuments : Nat
  admissionStatus : String
  cacheStatus : String
  cacheKeySha256 : Option String
  verifierEnabled : Bool
  verifierMode : String
  verifierScorePct : Option Nat
  verifierJudgeScorePct : Option Nat
  verifierThresholdPct : Option Nat
  verifierEscalated : Bool
  verifierReasonCode : Option String
  sloThresholdMs : Option Nat
  sloLatencyMs : Nat
  sloStatus : String
  sloReasonCode : Option String
  localAvailable : Bool
  remoteAvailable : Bool
  remoteEgressClass : String
  remoteHost : Option String

def buildGatewayDecision (config : LlmConfig) (outcome : LlmExecutionOutcome)
    (promptPlan : LlmPromptPlan) : LlmGatewayDecision :=
  let c := outcome.control
  { version := "m14i.v1"
    mode := config.mode.asStr
    channel := promptPlan.channel
    channelDefaultsApplied := promptPlan.channelDefaultsApplied
    requestClass := promptPlan.requestClass.asStr
    queueLane := promptPlan.requestClass.asStr
    selectedRoute := c.route.asStr
    reasonCode := c.routeReasonCode
    localTierRequested := c.selection.localTierRequested.map (·.asStr)
    localTierSelected := c.selection.localTierSelected.map (·.asStr)
    localTierReasonCode := c.selection.localTierReasonCode
    prefer := promptPlan.prefer.map (·.asStr)
    largeInputPolicy := promptPlan.largeInputPolicy.asStr
    largeInputApplied := promptPlan.largeInputApplied
    largeInputReasonCode := promptPlan.largeInputReasonCode
    promptBytesOriginal := promptPlan.promptBytesOriginal
    promptBytesEffective := promptPlan.promptBytesEffective
    retrievalCandidateDocuments := promptPlan.retrievalCandidateDocuments
    retrievalSelectedDocuments := promptPlan.retrievalSelectedDocuments
    admissionStatus := outcome.admissionStatus
    cacheStatus := c.answer.cacheStatus
    cacheKeySha256 := c.answer.cacheKeySha256
    verifierEnabled := outcome.verifierEnabled
    verifierMode := config.verifierMode.asStr
    verifierScorePct := c.verifierScorePct
    verifierJudgeScorePct := c.verifierJudgeScorePct
    verifierThresholdPct := outcome.verifierThresholdPct
    verifierEscalated := c.verifierEscalated
    verifierReasonCode := c.verifierReasonCode
    sloThresholdMs := outcome.sloThresholdMs
    sloLatencyMs := outcome.sloLatencyMs
    sloStatus := outcome.sloStatus.asStr
    sloReasonCode := outcome.sloReasonCode
    localAvailable := config.localEndpoint.isSome || config.localSmall.isSome
    remoteAvailable := config.remote.isSome
    remoteEgressClass := config.remoteEgressClass.asStr
    remoteHost := c.answer.remoteHost }

/-! ## The lanes -/

/-- The lane a call is admitted in, the lane whose latency bound it is held to, the lane
that picks the local tier and the lane of the report. -/
structure Lanes where
  admission : LlmRequestClass
  slo : LlmRequestClass
  tier : LlmRequestClass
  queue : LlmRequestClass

/-- One lane for everything. -/
structure Lanes.Agree (l : Lanes) : Prop where
  admission : l.admission = l.queue
  slo : l.slo = l.queue
  tier : l.tier = l.queue

def lanesOf (parsed : LlmInferActionArgs) (plan : LlmPromptPlan) : Lanes where
  admission := parsed.requestClass
  slo := parsed.requestClass
  tier := plan.requestClass
  queue := plan.requestClass

/-- A call each of whose stages is put in a lane of its own. -/
def executeOnLanes (l : Lanes) (rt : LlmRuntime) (args : Json) (config : LlmConfig)
    (cacheNamespace : Option String) (pool : Bool) :
    LlmProg (LlmExecutionOutcome × LlmGatewayDecision) := do
  let parsed ← ofExcept (parseActionArgs args config.maxInputBytes)
  let admissionStatus ← acquireAdmission { parsed with requestClass := l.admission } config
    cacheNamespace pool
  let plan ← ofExcept (buildPromptPlan rt parsed config)
  let outcome ← runLlmWithControls ⟨rt, config, cacheNamespace, pool,
    { parsed with requestClass := l.slo }, { plan with requestClass := l.tier }⟩ admissionStatus
  .pure (outcome, buildGatewayDecision config outcome { plan with requestClass := l.queue })

/-- What `execute_llm_infer` reports of a call, beside its answer. -/
def executeReported (rt : LlmRuntime) (args : Json) (config : LlmConfig)
    (cacheNamespace : Option String) (pool : Bool) :
    LlmProg (LlmExecutionOutcome × LlmGatewayDecision) := do
  let result ← executeLlmInfer rt args config cacheNamespace pool
  let parsed ← ofExcept (parseActionArgs args config.maxInputBytes)
  let plan ← ofExcept (buildPromptPlan rt parsed config)
  .pure (result.outcome, buildGatewayDecision config result.outcome plan)

variable {rt : LlmRuntime} {args : Json} {config : LlmConfig} {parsed : LlmInferActionArgs}
  {plan : LlmPromptPlan}

theorem ofExcept_ok {α β : Type} (a : α) (f : α → LlmProg β) :
    (ofExcept (.ok a) >>= f : LlmProg β) = f a := rfl

/-- The lanes of the code. -/
theorem executeReported_eq (hparsed : parseActionArgs args config.maxInputBytes = .ok parsed)
    (hplan : buildPromptPlan rt parsed config = .ok plan) (cacheNamespace : Option String)
    (pool : Bool) :
    executeReported rt args config cacheNamespace pool =
      executeOnLanes (lanesOf parsed plan) rt args config cacheNamespace pool := by
  unfold executeReported executeOnLanes executeLlmInfer
  simp only [hparsed, ofExcept_ok, Prog.bind_assoc, hplan]
  rfl

/-! ## The lane of the channel -/

/-- The lane that the defaults of the channel give to its requests. -/
def channelRequestClass (rt : LlmRuntime) (channel : Option String) : Option LlmRequestClass :=
  match resolveChannelDefaultsFromEnv rt with
  | .error _ => none
  | .ok channelDefaults => (channel.bind channelDefaults.get).bind (·.requestClass)

theorem requestClass_of_buildPromptPlan (hplan : buildPromptPlan rt parsed config = .ok plan) :
    plan.requestClass = if parsed.requestClassExplicit then parsed.requestClass
      else (channelRequestClass rt parsed.channel).getD parsed.requestClass := by
  unfold buildPromptPlan at hplan
  unfold channelRequestClass
  cases hdefaults : resolveChannelDefaultsFromEnv rt with
  | error e =>
    rw [hdefaults] at hplan
    cases hplan
  | ok channelDefaults =>
    rw [hdefaults] at hplan
    dsimp only at hplan ⊢
    split at hplan
    · cases hplan
    · cases hplan
      unfold channelDefault
      cases parsed.requestClassExplicit with
      | true => rfl
      | false =>
        cases parsed.channel.bind channelDefaults.get with
        | none => rfl
        | some policy => cases hclass : policy.requestClass <;> simp [hclass]

theorem requestClass_of_parseTextField {field : Option Json} {requestClass : Option LlmRequestClass}
    (h : parseTextField field LlmRequestClass.parse = .ok requestClass)
    (hnone : ((field.bind Json.asStr?).bind Text.nonEmptyTrimmed).isSome = false) :
    requestClass.getD .interactive = .interactive := by
  unfold parseTextField at h
  rw [Option.isSome_eq_false_iff, Option.isNone_iff_eq_none] at hnone
  rw [hnone] at h
  cases h
  rfl

/-- Arguments that name no lane are of the interactive one. -/
theorem requestClass_of_not_explicit {maxInputBytes : Nat}
    (hparsed : parseActionArgs args maxInputBytes = .ok parsed)
    (h : parsed.requestClassExplicit = false) : parsed.requestClass = .interactive := by
  unfold parseActionArgs at hparsed
  split at hparsed
  · cases hparsed
  split at hparsed
  · cases hparsed
  simp only [bind, Except.bind, pure, Except.pure] at hparsed
  split at hparsed
  · cases hparsed
  split at hparsed
  · cases hparsed
  rename_i hclass
  split at hparsed
  · cases hparsed
  split at hparsed
  · cases hparsed
    exact requestClass_of_parseTextField hclass h
  · split at hparsed
    · cases hparsed
    · cases hparsed
      exact requestClass_of_parseTextField hclass h

/-- A call is on the lanes its stages are put in, and they are one lane exactly when the
arguments name it or the channel does not make them batch work. -/
theorem lanes_agree_iff (hparsed : parseActionArgs args config.maxInputBytes = .ok parsed)
    (hplan : buildPromptPlan rt parsed config = .ok plan) (cacheNamespace : Option String)
    (pool : Bool) :
    executeReported rt args config cacheNamespace pool =
        executeOnLanes (lanesOf parsed plan) rt args config cacheNamespace pool ∧
      ((lanesOf parsed plan).Agree ↔ parsed.requestClassExplicit = true ∨
        channelRequestClass rt parsed.channel ≠ some .batch) := by
  refine ⟨executeReported_eq hparsed hplan cacheNamespace pool, ?_⟩
  have hqueue := requestClass_of_buildPromptPlan hplan
  have hagree : (lanesOf parsed plan).Agree ↔ parsed.requestClass = plan.requestClass := by
    constructor
    · intro h
      exact h.admission
    · intro h
      exact ⟨h, h, rfl⟩
  rw [hagree, hqueue]
  cases hexplicit : parsed.requestClassExplicit with
  | true => simp
  | false =>
    rw [requestClass_of_not_explicit hparsed hexplicit]
    cases channelRequestClass rt parsed.channel with
    | none => simp
    | some lane => cases lane <;> simp

def batchNotesArgs : LlmInferActionArgs :=
  { notesArgs with requestClass := .batch, requestClassExplicit := true }

/-- A question that names the lane of its channel, and a prompt on a channel of interactive
work. -/
theorem lanes_agree_notes :
    parseActionArgs (notesQuestion [("channel", .str "#Monitoring"),
        ("request_class", .str "batch")]) tightConfig.maxInputBytes = .ok batchNotesArgs ∧
      (lanesOf batchNotesArgs notesPlan).Agree ∧
      ∃ parsed plan, parseActionArgs (.obj [("prompt", .str "hi"), ("llm_channel", .str "Inbox")])
          sampleConfig.maxInputBytes = .ok parsed ∧
        buildPromptPlan sampleRuntime parsed sampleConfig = .ok plan ∧
        plan.channelDefaultsApplied = true ∧ (lanesOf parsed plan).Agree := by
  have hread : parseActionArgs (notesQuestion [("channel", .str "#Monitoring"),
      ("request_class", .str "batch")]) tightConfig.maxInputBytes = .ok batchNotesArgs := by
    decide +kernel
  have hbatch : buildPromptPlan sampleRuntime batchNotesArgs tightConfig = .ok notesPlan := by
    rw [← buildPromptPlan_notes]
    rfl
  obtain ⟨parsed, plan, hparsed, hplan, happlied, hinbox⟩ : ∃ parsed plan,
      parseActionArgs (.obj [("prompt", .str "hi"), ("llm_channel", .str "Inbox")])
        sampleConfig.maxInputBytes = .ok parsed ∧
      buildPromptPlan sampleRuntime parsed sampleConfig = .ok plan ∧
      plan.channelDefaultsApplied = true ∧
      channelRequestClass sampleRuntime parsed.channel ≠ some .batch :=
    ⟨_, _, rfl, rfl, rfl, by decide⟩
  exact ⟨hread, (lanes_agree_iff hread hbatch none false).2.mpr (.inl rfl),
    parsed, plan, hparsed, hplan, happlied,
    (lanes_agree_iff hparsed hplan none false).2.mpr (.inr hinbox)⟩

/-! ## A channel of batch work -/

/-- A worker that admits requests and holds the interactive ones to a second. -/
def admittingConfig : LlmConfig :=
  { sampleConfig with admissionEnabled := true, sloInteractiveMaxLatencyMs := some 1000 }

theorem issues_reserveSlot (hparsed : parseActionArgs args config.maxInputBytes = .ok parsed)
    (henabled : config.admissionEnabled = true) (hlocal : config.distributedEnabled = false)
    (cacheNamespace : Option String) (pool : Bool) :
    (executeLlmInfer rt args config cacheNamespace pool).Issues
      (.reserveSlot parsed.requestClass (maxInflightOf parsed.requestClass config)) := by
  have hadmission : acquireAdmission parsed config cacheNamespace pool =
      acquireLocalAdmission parsed config "admitted" := by
    simp [acquireAdmission, henabled, hlocal]
  unfold executeLlmInfer
  rw [hparsed, ofExcept_ok, hadmission]
  exact .inl rfl

/-- A request on the channel `monitoring` takes an interactive slot and is reported as
batch work. -/
theorem monitoring_takes_interactive_slot : ∃ parsed plan,
    parseActionArgs (.obj [("prompt", .str "p"), ("channel", .str "monitoring")])
      admittingConfig.maxInputBytes = .ok parsed ∧
    buildPromptPlan sampleRuntime parsed admittingConfig = .ok plan ∧
    (executeLlmInfer sampleRuntime (.obj [("prompt", .str "p"), ("channel", .str "monitoring")])
      admittingConfig none false).Issues (.reserveSlot .interactive 8) ∧
    laneSloThresholdMs parsed.requestClass admittingConfig = some 1000 ∧
    (∀ outcome, (buildGatewayDecision admittingConfig outcome plan).queueLane = "batch") ∧
    ¬ (lanesOf parsed plan).Agree := by
  obtain ⟨parsed, plan, hparsed, hplan, hclass, hlane⟩ : ∃ parsed plan,
      parseActionArgs (.obj [("prompt", .str "p"), ("channel", .str "monitoring")])
        admittingConfig.maxInputBytes = .ok parsed ∧
      buildPromptPlan sampleRuntime parsed admittingConfig = .ok plan ∧
      parsed.requestClass = .interactive ∧ plan.requestClass = .batch := ⟨_, _, rfl, rfl, rfl, rfl⟩
  have hslot := @issues_reserveSlot sampleRuntime _ _ _ hparsed rfl rfl none false
  rw [hclass] at hslot
  refine ⟨parsed, plan, hparsed, hplan, hslot, ?_, fun _ => ?_, fun h => ?_⟩
  · rw [hclass]
    rfl
  · show plan.requestClass.asStr = "batch"
    rw [hlane]
    rfl
  · have hsame : parsed.requestClass = plan.requestClass := h.admission
    rw [hclass, hlane] at hsame
    cases hsame

end Llm
end SecureAgnt

/-
Scoring a response: the deterministic checks, the judge's answer and the latency
objective of a lane.  All of it is pure.
-/
import SecureAgnt.Llm.Route

namespace SecureAgnt
namespace Llm

/-! ## Deterministic checks -/

inductive VerifierReason where
  | shortResponse
  | uncertainResponse
  | jsonExpectedNonJsonResponse
  | longPromptUnderanswered
  deriving DecidableEq, Repr

def VerifierReason.asStr : VerifierReason → String
  | .shortResponse => "short_response"
  | .uncertainResponse => "uncertain_response"
  | .jsonExpectedNonJsonResponse => "json_expected_non_json_response"
  | .longPromptUnderanswered => "long_prompt_underanswered"

def VerifierReason.penalty : VerifierReason → Int
  | .shortResponse => 35
  | .uncertainResponse => 20
  | .jsonExpectedNonJsonResponse => 25
  | .longPromptUnderanswered => 15

def uncertainPhrases : List String :=
  ["i'm not sure", "i am not sure", "i do not know", "i don't know", "cannot assist"]

def deterministicVerifierReasonCodes (prompt response : String) (minChars : Nat) :
    List VerifierReason :=
  let responseTrimmed := Text.toAsciiLowercase (Text.trim response)
  let startsJson := Text.startsWith responseTrimmed "\x7b" || Text.startsWith responseTrimmed "["
  (if Text.len responseTrimmed < minChars then [.shortResponse] else []) ++
  (if uncertainPhrases.any (Text.contains responseTrimmed) then [.uncertainResponse] else []) ++
  (if Text.contains (Text.toAsciiLowercase prompt) "json" && !startsJson then
    [.jsonExpectedNonJsonResponse] else []) ++
  (if Text.len prompt > 512 && Text.len responseTrimmed < min (minChars * 2) (2 ^ 64 - 1) then
    [.longPromptUnderanswered] else [])

def scoreResponse (prompt response : String) (minChars : Nat) : Nat :=
  let score := (deterministicVerifierReasonCodes prompt response minChars).foldl
    (fun score reason => score - reason.penalty) (100 : Int)
  (max 0 (min 100 score)).toNat

/-! ## The judge's answer -/

structure LlmVerifierOutcome where
  scorePct : Nat
  judgeScorePct : Option Nat
  reasonCode : Option String
  deriving DecidableEq, Repr

structure LlmVerifierJudgeOutcome where
  scorePct : Nat
  reasonCode : Option String
  deriving DecidableEq, Repr

def isAsciiDigit (c : Char) : Bool := 48 ≤ c.toNat && c.toNat ≤ 57

/-- `str::parse::<u16>` on a token of digits. -/
def parseU16 (token : String) : Option Nat :=
  let value := token.toList.foldl (fun value c => value * 10 + (c.toNat - 48)) 0
  if value < 2 ^ 16 then some value else none

def firstScoreToken (raw : String) : Option Nat :=
  (Text.split raw fun c => !isAsciiDigit c).findSome? fun token =>
    if Text.isEmpty token then none
    else (parseU16 token).filter (· ≤ 100)

def parseVerifierJudgeResponse (rt : LlmRuntime) (raw : String) :
    Except String LlmVerifierJudgeOutcome :=
  let scored := (rt.parseJson raw).bind fun parsed =>
    ((parsed.get? "score_pct").bind Json.asU64?).map fun value =>
      (⟨min value 100, textField parsed "reason_code"⟩ : LlmVerifierJudgeOutcome)
  match scored with
  | some outcome => .ok outcome
  | none =>
    match firstScoreToken raw with
    | some score => .ok ⟨score, none⟩
    | none =>
      .error "verifier judge response did not include a parseable score_pct (0..100)"

def combineReasonCode (start : String) (reasons : List String) : Option String :=
  if reasons.isEmpty then none else some (start ++ ":" ++ "|".intercalate reasons)

def compactReason (raw : String) : String :=
  String.ofList ((raw.toList.map fun c =>
    if isAsciiAlphanumeric c || c = '_' || c = '-' then c else '_').take 80)

/-- What the verifier reports when the judge answered. -/
def judgedOutcome (config : LlmConfig) (reasons : List String) (deterministicScore : Nat)
    (judge : LlmVerifierJudgeOutcome) : LlmVerifierOutcome :=
  let hybrid := config.verifierMode = .hybrid
  { scorePct := if hybrid then (deterministicScore + judge.scorePct) / 2 else judge.scorePct
    judgeScorePct := some judge.scorePct
    reasonCode := combineReasonCode (if hybrid then "hybrid" else "model_judge")
      (reasons ++ [match judge.reasonCode with
        | some code => "judge:" ++ code
        | none => "judge:ok"]) }

/-! ## The latency objective -/

inductive SloStatus where
  | notConfigured
  | ok
  | warn
  | breach
  deriving DecidableEq, Repr

def SloStatus.asStr : SloStatus → String
  | .notConfigured => "not_configured"
  | .ok => "ok"
  | .warn => "warn"
  | .breach => "breach"

structure LaneSloEvaluation where
  status : SloStatus
  reasonCode : Option String
  deriving DecidableEq, Repr

def laneSloThresholdMs (requestClass : LlmRequestClass) (config : LlmConfig) : Option Nat :=
  match requestClass with
  | .interactive => config.sloInteractiveMaxLatencyMs
  | .batch => config.sloBatchMaxLatencyMs

def evaluateLaneSlo (latencyMs : Nat) (thresholdMs alertThresholdPct : Option Nat) :
    LaneSloEvaluation :=
  match thresholdMs with
  | none => ⟨.notConfigured, none⟩
  | some threshold =>
    if threshold = 0 then ⟨.notConfigured, some "threshold_zero_disabled"⟩
    else if latencyMs > threshold then
      ⟨.breach, some ("latency_threshold_breach:" ++ toString latencyMs ++ ">" ++
        toString threshold)⟩
    else
      match alertThresholdPct with
      | none => ⟨.ok, none⟩
      | some alert =>
        let usagePct := min (latencyMs * 100) (2 ^ 64 - 1) / threshold
        if alert > 0 ∧ usagePct ≥ alert then
          ⟨.warn, some ("latency_threshold_near:" ++ toString usagePct ++ "pct>=" ++
            toString alert ++ "pct")⟩
        else ⟨.ok, none⟩

def durationMsU64 (millis : Nat) : Nat := min millis (2 ^ 64 - 1)

def combineOptionalReasonCodes : Option String → Option String → Option String
  | none, none => none
  | some primary, none => some primary
  | none, some secondary => some secondary
  | some primary, some secondary => some (primary ++ "|" ++ secondary)

/-- A lane can breach: it has a threshold, not zero, that a millisecond count of
64 bits can pass. -/
def LaneCanBreach (config : LlmConfig) (requestClass : LlmRequestClass) : Prop :=
  ∃ threshold, laneSloThresholdMs requestClass config = some threshold ∧ threshold ≠ 0 ∧
    threshold < 2 ^ 64 - 1

theorem evaluateLaneSlo_breach {latencyMs : Nat} {thresholdMs alert : Option Nat} :
    (evaluateLaneSlo latencyMs thresholdMs alert).status = .breach ↔
      ∃ threshold, thresholdMs = some threshold ∧ threshold ≠ 0 ∧ threshold < latencyMs := by
  unfold evaluateLaneSlo
  cases thresholdMs with
  | none => simp
  | some threshold =>
    by_cases hzero : threshold = 0
    · simp [hzero]
    by_cases hover : latencyMs > threshold
    · simp [hzero, hover]
    · simp only [hzero, hover, if_false]
      have hnot : ¬ ∃ t, some threshold = some t ∧ t ≠ 0 ∧ t < latencyMs := by
        intro hx
        obtain ⟨t, ht, -, hlt⟩ := hx
        cases ht
        exact hover hlt
      refine iff_of_false (fun h => ?_) hnot
      split at h
      · cases h
      · split at h <;> cases h

/-- Some measured latency breaches the lane's objective exactly when it can. -/
theorem exists_breach_iff {config : LlmConfig} {requestClass : LlmRequestClass} :
    (∃ millis, (evaluateLaneSlo (durationMsU64 millis) (laneSloThresholdMs requestClass config)
      config.sloAlertThresholdPct).status = .breach) ↔ LaneCanBreach config requestClass := by
  constructor
  · intro hx
    obtain ⟨millis, h⟩ := hx
    obtain ⟨threshold, heq, hne, hlt⟩ := evaluateLaneSlo_breach.mp h
    have hle : durationMsU64 millis ≤ 2 ^ 64 - 1 := min_le_right _ _
    exact ⟨threshold, heq, hne, by omega⟩
  · intro hx
    obtain ⟨threshold, heq, hne, hlt⟩ := hx
    refine ⟨2 ^ 64 - 1, evaluateLaneSlo_breach.mpr ⟨threshold, heq, hne, ?_⟩⟩
    simpa [durationMsU64] using hlt

/-- An instant call breaches nothing. -/
theorem evaluateLaneSlo_zero (config : LlmConfig) (requestClass : LlmRequestClass) :
    (evaluateLaneSlo (durationMsU64 0) (laneSloThresholdMs requestClass config)
      config.sloAlertThresholdPct).status ≠ .breach := by
  intro h
  obtain ⟨threshold, -, -, hlt⟩ := evaluateLaneSlo_breach.mp h
  simp [durationMsU64] at hlt

end Llm
end SecureAgnt

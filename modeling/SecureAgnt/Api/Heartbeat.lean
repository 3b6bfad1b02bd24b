/-
The compiler of `HEARTBEAT.md`.

A line is cut into words, where double quotes keep white space in a word.  The first word
is a directive and the others are options, and what is left of a line after every check
is a candidate for a trigger.  The parsers of cron expressions and of time zones are
parameters.
-/
import SecureAgnt.Api.Store
import SecureAgnt.Lib.Integers
import SecureAgnt.Lib.Lines
import SecureAgnt.Lib.Text

namespace SecureAgnt
namespace Api

open Integers (parseInt)

structure HeartbeatRuntime where
  /-- What the cron parser says of an expression it does not accept. -/
  cronError : String → Option String
  isTimezone : String → Bool

structure HeartbeatCompileIssue where
  line : Nat
  code : String
  message : String
  deriving DecidableEq, Repr

structure HeartbeatCompileReport where
  candidates : List HeartbeatTriggerCandidate
  issues : List HeartbeatCompileIssue

/-! ## Words -/

structure TokenState where
  out : List String
  current : List Char
  inQuotes : Bool

def TokenState.next (st : TokenState) (ch : Char) : TokenState :=
  if ch = '"' then { st with inQuotes := !st.inQuotes }
  else if Text.isWhitespace ch && !st.inQuotes then
    if st.current ≠ [] then { st with out := st.out ++ [String.ofList st.current], current := [] }
    else st
  else { st with current := st.current ++ [ch] }

def TokenState.finish (st : TokenState) : List String :=
  if st.current ≠ [] then st.out ++ [String.ofList st.current] else st.out

def tokenizeHeartbeatLine (line : String) : List String :=
  (line.toList.foldl TokenState.next ⟨[], [], false⟩).finish

/-! ## Options -/

structure HeartbeatOptions where
  recipeId : Option String
  timezone : Option String
  maxInflightRuns : Int
  jitterSeconds : Int

/-- An integer between two bounds; the issues are codes with their messages. -/
def boundedOption (line : Nat) (value : String) (low high : Int)
    (parseIssue boundIssue : String × String) : Except HeartbeatCompileIssue Int :=
  match parseInt 32 value with
  | none => .error ⟨line, parseIssue.1, parseIssue.2⟩
  | some parsed =>
    if low ≤ parsed ∧ parsed ≤ high then .ok parsed else .error ⟨line, boundIssue.1, boundIssue.2⟩

def maxInflightOption (line : Nat) (value : String) : Except HeartbeatCompileIssue Int :=
  boundedOption line value 1 1000
    ("invalid_max_inflight", "max_inflight must be an integer, got `" ++ value ++ "`")
    ("max_inflight_out_of_bounds", "max_inflight must be between 1 and 1000")

def jitterOption (line : Nat) (value : String) : Except HeartbeatCompileIssue Int :=
  boundedOption line value 0 3600
    ("invalid_jitter", "jitter must be an integer, got `" ++ value ++ "`")
    ("jitter_out_of_bounds", "jitter must be between 0 and 3600 seconds")

/-- A later option of one name replaces an earlier one. -/
def setHeartbeatOption (line : Nat) (opts : HeartbeatOptions) (key value : String) :
    Except HeartbeatCompileIssue HeartbeatOptions :=
  match key with
  | "recipe" | "recipe_id" => .ok { opts with recipeId := some value }
  | "timezone" | "tz" => .ok { opts with timezone := some value }
  | "max_inflight" | "max_inflight_runs" =>
    (maxInflightOption line value).map fun parsed => { opts with maxInflightRuns := parsed }
  | "jitter" | "jitter_seconds" =>
    (jitterOption line value).map fun parsed => { opts with jitterSeconds := parsed }
  | _ => .error ⟨line, "unknown_option", "unsupported heartbeat option `" ++ key ++ "`"⟩

def parseHeartbeatOption (line : Nat) (opts : HeartbeatOptions) (token : String) :
    Except HeartbeatCompileIssue HeartbeatOptions :=
  match Text.splitOnce token '=' with
  | none => .error ⟨line, "invalid_option", "option `" ++ token ++ "` must use key=value format"⟩
  | some (rawKey, rawValue) =>
    if Text.isEmpty (Text.trim rawValue) then
      .error ⟨line, "invalid_option", "option `" ++ token ++ "` has an empty value"⟩
    else
      setHeartbeatOption line opts (Text.toAsciiLowercase (Text.trim rawKey)) (Text.trim rawValue)

def parseHeartbeatOptions (tokens : List String) (line : Nat) :
    Except HeartbeatCompileIssue HeartbeatOptions :=
  tokens.foldlM (parseHeartbeatOption line) ⟨none, none, 1, 0⟩

def requiredRecipe (opts : HeartbeatOptions) (line : Nat) : Except HeartbeatCompileIssue String :=
  match opts.recipeId with
  | some recipeId => .ok recipeId
  | none => .error ⟨line, "missing_recipe", "heartbeat directive requires recipe=<recipe_id>"⟩

/-! ## Directives -/

def parseIntervalHeartbeatLine (tokens : List String) (line : Nat) (sourceLine : String) :
    Except HeartbeatCompileIssue HeartbeatTriggerCandidate :=
  match tokens with
  | _ :: rawSeconds :: option :: options =>
    match parseInt 64 rawSeconds with
    | none =>
      .error ⟨line, "invalid_interval_seconds", "interval seconds must be a positive integer"⟩
    | some seconds =>
      if ¬ (60 ≤ seconds ∧ seconds ≤ 31536000) then
        .error ⟨line, "interval_out_of_bounds",
          "interval seconds must be between 60 and 31536000"⟩
      else
        match parseHeartbeatOptions (option :: options) line with
        | .error issue => .error issue
        | .ok opts =>
          match requiredRecipe opts line with
          | .error issue => .error issue
          | .ok recipeId => .ok {
              kind := .interval
              recipeId := recipeId
              intervalSeconds := some seconds
              cronExpression := none
              timezone := none
              maxInflightRuns := opts.maxInflightRuns
              jitterSeconds := opts.jitterSeconds
              line := line
              sourceLine := sourceLine }
  | _ => .error ⟨line, "invalid_interval_syntax",
      "interval syntax: every <seconds> recipe=<recipe_id> [max_inflight=<n>] [jitter=<sec>]"⟩

def parseCronHeartbeatLine (rt : HeartbeatRuntime) (tokens : List String) (line : Nat)
    (sourceLine : String) : Except HeartbeatCompileIssue HeartbeatTriggerCandidate :=
  match tokens with
  | _ :: rawExpression :: option :: options =>
    let cronExpression := Text.trim rawExpression
    if Text.isEmpty cronExpression then
      .error ⟨line, "invalid_cron_expression", "cron expression must not be empty"⟩
    else
      match rt.cronError cronExpression with
      | some err => .error ⟨line, "invalid_cron_expression", "cron parse error: " ++ err⟩
      | none =>
        match parseHeartbeatOptions (option :: options) line with
        | .error issue => .error issue
        | .ok opts =>
          match requiredRecipe opts line with
          | .error issue => .error issue
          | .ok recipeId =>
            let timezone := opts.timezone.getD "UTC"
            if rt.isTimezone timezone then .ok {
              kind := .cron
              recipeId := recipeId
              intervalSeconds := none
              cronExpression := some cronExpression
              timezone := some timezone
              maxInflightRuns := opts.maxInflightRuns
              jitterSeconds := opts.jitterSeconds
              line := line
              sourceLine := sourceLine }
            else .error ⟨line, "invalid_timezone",
              "timezone `" ++ timezone ++ "` is not a valid IANA timezone"⟩
  | _ => .error ⟨line, "invalid_cron_syntax",
      "cron syntax: cron \"<expr>\" recipe=<recipe_id> [timezone=<iana>] [max_inflight=<n>] [jitter=<sec>]"⟩

def parseHeartbeatLine (rt : HeartbeatRuntime) (directive : String) (tokens : List String)
    (line : Nat) (sourceLine : String) : Except HeartbeatCompileIssue HeartbeatTriggerCandidate :=
  match directive with
  | "every" | "interval" => parseIntervalHeartbeatLine tokens line sourceLine
  | "cron" => parseCronHeartbeatLine rt tokens line sourceLine
  | _ => .error ⟨line, "unsupported_directive",
      "unsupported heartbeat directive `" ++ directive ++ "`"⟩

/-! ## The file -/

def maxCandidates : Nat := 128

def limitIssue (line : Nat) : HeartbeatCompileIssue :=
  ⟨line, "candidate_limit_exceeded",
    "maximum heartbeat candidate limit (128) exceeded; remaining lines skipped"⟩

/-- Blank lines and comments say nothing. -/
def isSkipped (rawLine : String) : Bool :=
  Text.isEmpty (Text.trim rawLine) || Text.startsWith (Text.trim rawLine) "#"

/-- A line without the mark of a list item. -/
def normalizedLine (rawLine : String) : String :=
  let trimmed := Text.trim rawLine
  ((Text.stripStart trimmed "- ").or (Text.stripStart trimmed "* ")).getD trimmed

/-- What the loop does at a line. -/
inductive LineRead where
  | passed
  | noRoom
  | parsed (result : Except HeartbeatCompileIssue HeartbeatTriggerCandidate)

def readHeartbeatLine (rt : HeartbeatRuntime) (found : Nat) (rawLine : String) (lineNumber : Nat) :
    LineRead :=
  if isSkipped rawLine then .passed
  else if Text.isEmpty (normalizedLine rawLine) then .passed
  else if maxCandidates ≤ found then .noRoom
  else
    match tokenizeHeartbeatLine (normalizedLine rawLine) with
    | [] => .passed
    | first :: others => .parsed (parseHeartbeatLine rt (Text.toAsciiLowercase first)
        (first :: others) lineNumber (normalizedLine rawLine))

/-- The lines from one on, with their numbers. -/
def compileLines (rt : HeartbeatRuntime) :
    List (String × Nat) → HeartbeatCompileReport → HeartbeatCompileReport
  | [], report => report
  | entry :: rest, report =>
    match readHeartbeatLine rt report.candidates.length entry.1 entry.2 with
    | .passed => compileLines rt rest report
    | .noRoom => { report with issues := report.issues ++ [limitIssue entry.2] }
    | .parsed (.ok candidate) =>
      compileLines rt rest { report with candidates := report.candidates ++ [candidate] }
    | .parsed (.error issue) =>
      compileLines rt rest { report with issues := report.issues ++ [issue] }

def numberedLines (markdown : String) : List (String × Nat) :=
  ((Lines.lines markdown.toList).map String.ofList).zipIdx 1

def compileHeartbeatMarkdown (rt : HeartbeatRuntime) (markdown : String) : HeartbeatCompileReport :=
  compileLines rt (numberedLines markdown) ⟨[], []⟩

end Api
end SecureAgnt

/-
What the compiler of `HEARTBEAT.md` makes of each line.

Every line up to one place gives what it would give alone: nothing, a candidate or an
issue.  A candidate is within every bound, and its texts have neither quotes nor newlines
and no white space at their ends, so it can be written as a line again.
-/
import SecureAgnt.Api.Heartbeat

namespace SecureAgnt
namespace Api

open Integers (parseInt natText)

variable {rt : HeartbeatRuntime} {line : Nat} {token value key rawLine sourceLine : String}

/-! ## Texts that can be written between quotes -/

/-- No quote and no newline. -/
def Plain (text : String) : Prop := '"' ∉ text.toList ∧ '\n' ∉ text.toList

structure Writable (value : String) : Prop where
  nonempty : value.toList ≠ []
  trimmed : Text.trim value = value
  plain : Plain value

theorem writable_trim (h : Plain value) (hsome : Text.isEmpty (Text.trim value) = false) :
    Writable (Text.trim value) where
  nonempty := by simpa [Text.isEmpty] using hsome
  trimmed := Text.trim_trim value
  plain := ⟨fun hc => h.1 (Text.mem_of_mem_trim hc), fun hc => h.2 (Text.mem_of_mem_trim hc)⟩

/-! ## Words -/

/-- What the words of a state are made of. -/
def TokenState.From (st : TokenState) (chars : List Char) : Prop :=
  (∀ token ∈ st.out, ∀ c ∈ token.toList, c ∈ chars ∧ c ≠ '"') ∧
    ∀ c ∈ st.current, c ∈ chars ∧ c ≠ '"'

theorem from_next {st : TokenState} {chars : List Char} {ch : Char} (h : st.From chars)
    (hch : ch ∈ chars) : (st.next ch).From chars := by
  unfold TokenState.next
  by_cases hquote : ch = '"'
  · rw [if_pos hquote]
    exact h
  rw [if_neg hquote]
  split
  · split
    · refine ⟨?_, fun c hc => nomatch hc⟩
      intro token htoken
      rcases List.mem_append.mp htoken with htoken | htoken
      · exact h.1 token htoken
      · rw [List.mem_singleton.mp htoken, String.toList_ofList]
        exact h.2
    · exact h
  · refine ⟨h.1, ?_⟩
    intro c hc
    rcases List.mem_append.mp hc with hc | hc
    · exact h.2 c hc
    · rw [List.mem_singleton.mp hc]
      exact ⟨hch, hquote⟩

theorem from_foldl {st : TokenState} {chars cs : List Char} (h : st.From chars)
    (hcs : ∀ c ∈ cs, c ∈ chars) : (cs.foldl TokenState.next st).From chars := by
  induction cs generalizing st with
  | nil => exact h
  | cons c cs ih =>
    exact ih (from_next h (hcs c List.mem_cons_self))
      fun d hd => hcs d (List.mem_cons_of_mem _ hd)

/-- A word has characters of its line and no quotes. -/
theorem mem_token (htoken : token ∈ tokenizeHeartbeatLine rawLine) :
    ∀ c ∈ token.toList, c ∈ rawLine.toList ∧ c ≠ '"' := by
  have hstart : (⟨[], [], false⟩ : TokenState).From rawLine.toList :=
    ⟨fun _ ht => (List.not_mem_nil ht).elim, fun _ hc => (List.not_mem_nil hc).elim⟩
  obtain ⟨hout, hcurrent⟩ := from_foldl hstart fun c hc => hc
  unfold tokenizeHeartbeatLine TokenState.finish at htoken
  split at htoken
  · rcases List.mem_append.mp htoken with htoken | htoken
    · exact hout token htoken
    · rw [List.mem_singleton.mp htoken, String.toList_ofList]
      exact hcurrent
  · exact hout token htoken

theorem plain_of_token (hline : '\n' ∉ rawLine.toList)
    (htoken : token ∈ tokenizeHeartbeatLine rawLine) : Plain token :=
  ⟨fun hc => (mem_token htoken _ hc).2 rfl, fun hc => hline (mem_token htoken _ hc).1⟩

/-! ## Options -/

structure HeartbeatOptions.Valid (opts : HeartbeatOptions) : Prop where
  recipeId : ∀ recipeId, opts.recipeId = some recipeId → Writable recipeId
  timezone : ∀ timezone, opts.timezone = some timezone → Writable timezone
  maxInflightRuns : 1 ≤ opts.maxInflightRuns ∧ opts.maxInflightRuns ≤ 1000
  jitterSeconds : 0 ≤ opts.jitterSeconds ∧ opts.jitterSeconds ≤ 3600

theorem boundedOption_ok {low high parsed : Int} {parseIssue boundIssue : String × String}
    (h : boundedOption line value low high parseIssue boundIssue = .ok parsed) :
    low ≤ parsed ∧ parsed ≤ high := by
  unfold boundedOption at h
  split at h
  · cases h
  split at h
  · rename_i hbounds
    cases h
    exact hbounds
  · cases h

theorem valid_setHeartbeatOption {opts opts' : HeartbeatOptions} (hopts : opts.Valid)
    (hvalue : Writable value) (h : setHeartbeatOption line opts key value = .ok opts') :
    opts'.Valid := by
  unfold setHeartbeatOption at h
  split at h
  case h_1 | h_2 =>
    cases h
    exact { hopts with recipeId := fun r hr => Option.some.inj hr ▸ hvalue }
  case h_3 | h_4 =>
    cases h
    exact { hopts with timezone := fun r hr => Option.some.inj hr ▸ hvalue }
  case h_5 | h_6 =>
    cases hparsed : maxInflightOption line value with
    | error issue =>
      rw [hparsed] at h
      cases h
    | ok parsed =>
      rw [hparsed] at h
      cases h
      exact { hopts with maxInflightRuns := boundedOption_ok hparsed }
  case h_7 | h_8 =>
    cases hparsed : jitterOption line value with
    | error issue =>
      rw [hparsed] at h
      cases h
    | ok parsed =>
      rw [hparsed] at h
      cases h
      exact { hopts with jitterSeconds := boundedOption_ok hparsed }
  case h_9 => cases h

theorem valid_parseHeartbeatOption {opts opts' : HeartbeatOptions} (hopts : opts.Valid)
    (htoken : Plain token) (h : parseHeartbeatOption line opts token = .ok opts') :
    opts'.Valid := by
  unfold parseHeartbeatOption at h
  split at h
  · cases h
  rename_i rawKey rawValue hsplit
  split at h
  · cases h
  rename_i hsome
  have hlist := Text.splitOnce_eq_some hsplit
  have hplain : Plain rawValue := by
    have hmem : ∀ c ∈ rawValue.toList, c ∈ token.toList := by
      intro c hc
      rw [hlist]
      exact List.mem_append_right _ (List.mem_cons_of_mem _ hc)
    exact ⟨fun hc => htoken.1 (hmem _ hc), fun hc => htoken.2 (hmem _ hc)⟩
  exact valid_setHeartbeatOption hopts (writable_trim hplain (Bool.eq_false_iff.mpr hsome)) h

theorem valid_foldlM {tokens : List String} {opts opts' : HeartbeatOptions} (hopts : opts.Valid)
    (htokens : ∀ token ∈ tokens, Plain token)
    (h : tokens.foldlM (parseHeartbeatOption line) opts = .ok opts') : opts'.Valid := by
  induction tokens generalizing opts with
  | nil =>
    cases h
    exact hopts
  | cons token tokens ih =>
    rw [List.foldlM_cons] at h
    cases hfirst : parseHeartbeatOption line opts token with
    | error issue =>
      rw [hfirst] at h
      cases h
    | ok opts₁ =>
      rw [hfirst] at h
      exact ih (valid_parseHeartbeatOption hopts (htokens token List.mem_cons_self) hfirst)
        (fun t ht => htokens t (List.mem_cons_of_mem _ ht)) h

theorem valid_parseHeartbeatOptions {tokens : List String} {opts : HeartbeatOptions}
    (htokens : ∀ token ∈ tokens, Plain token) (h : parseHeartbeatOptions tokens line = .ok opts) :
    opts.Valid := by
  refine valid_foldlM ⟨?_, ?_, by decide, by decide⟩ htokens h
  · intro recipeId hrecipe
    cases hrecipe
  · intro timezone htimezone
    cases htimezone

/-! ## Candidates -/

/-- The schedule of a candidate, which its parsers accept. -/
inductive HeartbeatTriggerCandidate.Scheduled (rt : HeartbeatRuntime)
    (candidate : HeartbeatTriggerCandidate) : Prop
  | interval (seconds : Int) (hkind : candidate.kind = .interval)
      (hseconds : candidate.intervalSeconds = some seconds)
      (hbounds : 60 ≤ seconds ∧ seconds ≤ 31536000)
      (hcron : candidate.cronExpression = none) (htimezone : candidate.timezone = none)
  | cron (expression timezone : String) (hkind : candidate.kind = .cron)
      (hseconds : candidate.intervalSeconds = none)
      (hcron : candidate.cronExpression = some expression) (hexpression : Writable expression)
      (haccepted : rt.cronError expression = none) (htimezone : candidate.timezone = some timezone)
      (hzone : Writable timezone) (hknown : rt.isTimezone timezone = true)

structure HeartbeatTriggerCandidate.Valid (rt : HeartbeatRuntime)
    (candidate : HeartbeatTriggerCandidate) : Prop where
  recipeId : Writable candidate.recipeId
  maxInflightRuns : 1 ≤ candidate.maxInflightRuns ∧ candidate.maxInflightRuns ≤ 1000
  jitterSeconds : 0 ≤ candidate.jitterSeconds ∧ candidate.jitterSeconds ≤ 3600
  scheduled : candidate.Scheduled rt

theorem recipe_of_requiredRecipe {opts : HeartbeatOptions} {recipeId : String}
    (h : requiredRecipe opts line = .ok recipeId) : opts.recipeId = some recipeId := by
  unfold requiredRecipe at h
  split at h
  · rename_i heq
    cases h
    exact heq
  · cases h

variable {tokens : List String} {candidate : HeartbeatTriggerCandidate}

theorem valid_interval (htokens : ∀ token ∈ tokens, Plain token)
    (h : parseIntervalHeartbeatLine tokens line sourceLine = .ok candidate) :
    candidate.Valid rt ∧ candidate.line = line ∧ candidate.sourceLine = sourceLine := by
  unfold parseIntervalHeartbeatLine at h
  split at h
  · rename_i first rawSeconds option options
    split at h
    · cases h
    rename_i seconds _
    split at h
    · cases h
    rename_i hbounds
    rw [not_not] at hbounds
    split at h
    · cases h
    rename_i opts hopts
    split at h
    · cases h
    rename_i recipeId hrecipe
    have hvalid := valid_parseHeartbeatOptions
      (fun t ht => htokens t (List.mem_cons_of_mem _ (List.mem_cons_of_mem _ ht))) hopts
    cases h
    exact ⟨⟨hvalid.recipeId _ (recipe_of_requiredRecipe hrecipe), hvalid.maxInflightRuns,
      hvalid.jitterSeconds, .interval seconds rfl rfl hbounds rfl rfl⟩, rfl, rfl⟩
  · cases h

theorem writable_utc : Writable "UTC" := ⟨by decide, by decide, by decide, by decide⟩

theorem valid_cron (htokens : ∀ token ∈ tokens, Plain token)
    (h : parseCronHeartbeatLine rt tokens line sourceLine = .ok candidate) :
    candidate.Valid rt ∧ candidate.line = line ∧ candidate.sourceLine = sourceLine := by
  unfold parseCronHeartbeatLine at h
  split at h
  · rename_i first rawExpression option options
    dsimp only at h
    split at h
    · cases h
    rename_i hsome
    split at h
    · cases h
    rename_i haccepted
    split at h
    · cases h
    rename_i opts hopts
    split at h
    · cases h
    rename_i recipeId hrecipe
    split at h
    · rename_i hknown
      have hvalid := valid_parseHeartbeatOptions
        (fun t ht => htokens t (List.mem_cons_of_mem _ (List.mem_cons_of_mem _ ht))) hopts
      have hexpression : Writable (Text.trim rawExpression) :=
        writable_trim (htokens _ (List.mem_cons_of_mem _ List.mem_cons_self))
          (Bool.eq_false_iff.mpr hsome)
      have hzone : Writable (opts.timezone.getD "UTC") := by
        cases htimezone : opts.timezone with
        | none => exact writable_utc
        | some timezone => exact hvalid.timezone timezone htimezone
      cases h
      exact ⟨⟨hvalid.recipeId _ (recipe_of_requiredRecipe hrecipe), hvalid.maxInflightRuns,
        hvalid.jitterSeconds,
        .cron _ _ rfl rfl rfl hexpression haccepted rfl hzone hknown⟩, rfl, rfl⟩
    · cases h
  · cases h

theorem valid_parseHeartbeatLine {directive : String} (htokens : ∀ token ∈ tokens, Plain token)
    (h : parseHeartbeatLine rt directive tokens line sourceLine = .ok candidate) :
    candidate.Valid rt ∧ candidate.line = line ∧ candidate.sourceLine = sourceLine := by
  unfold parseHeartbeatLine at h
  split at h
  case h_1 | h_2 => exact valid_interval htokens h
  case h_3 => exact valid_cron htokens h
  case h_4 => cases h

/-! ## Issues name their line -/

section Issues

variable {issue : HeartbeatCompileIssue}

theorem line_boundedOption {low high : Int} {parseIssue boundIssue : String × String}
    (h : boundedOption line value low high parseIssue boundIssue = .error issue) :
    issue.line = line := by
  unfold boundedOption at h
  split at h
  · cases h
    rfl
  split at h
  · cases h
  · cases h
    rfl

theorem line_setHeartbeatOption {opts : HeartbeatOptions}
    (h : setHeartbeatOption line opts key value = .error issue) : issue.line = line := by
  unfold setHeartbeatOption at h
  split at h
  case h_1 | h_2 | h_3 | h_4 => cases h
  case h_5 | h_6 =>
    cases hparsed : maxInflightOption line value with
    | ok parsed =>
      rw [hparsed] at h
      cases h
    | error found =>
      rw [hparsed] at h
      cases h
      exact line_boundedOption hparsed
  case h_7 | h_8 =>
    cases hparsed : jitterOption line value with
    | ok parsed =>
      rw [hparsed] at h
      cases h
    | error found =>
      rw [hparsed] at h
      cases h
      exact line_boundedOption hparsed
  case h_9 =>
    cases h
    rfl

theorem line_parseHeartbeatOption {opts : HeartbeatOptions}
    (h : parseHeartbeatOption line opts token = .error issue) : issue.line = line := by
  unfold parseHeartbeatOption at h
  split at h
  · cases h
    rfl
  split at h
  · cases h
    rfl
  · exact line_setHeartbeatOption h

theorem line_foldlM {opts : HeartbeatOptions}
    (h : tokens.foldlM (parseHeartbeatOption line) opts = .error issue) : issue.line = line := by
  induction tokens generalizing opts with
  | nil => cases h
  | cons token tokens ih =>
    rw [List.foldlM_cons] at h
    cases hfirst : parseHeartbeatOption line opts token with
    | error found =>
      rw [hfirst] at h
      cases h
      exact line_parseHeartbeatOption hfirst
    | ok opts₁ =>
      rw [hfirst] at h
      exact ih h

theorem line_requiredRecipe {opts : HeartbeatOptions}
    (h : requiredRecipe opts line = .error issue) : issue.line = line := by
  unfold requiredRecipe at h
  split at h
  · cases h
  · cases h
    rfl

theorem line_interval (h : parseIntervalHeartbeatLine tokens line sourceLine = .error issue) :
    issue.line = line := by
  unfold parseIntervalHeartbeatLine at h
  split at h
  · split at h
    · cases h
      rfl
    split at h
    · cases h
      rfl
    split at h
    · rename_i found hopts
      cases h
      exact line_foldlM hopts
    split at h
    · rename_i found hrecipe
      cases h
      exact line_requiredRecipe hrecipe
    · cases h
  · cases h
    rfl

theorem line_cron (h : parseCronHeartbeatLine rt tokens line sourceLine = .error issue) :
    issue.line = line := by
  unfold parseCronHeartbeatLine at h
  split at h
  · dsimp only at h
    split at h
    · cases h
      rfl
    split at h
    · cases h
      rfl
    split at h
    · rename_i found hopts
      cases h
      exact line_foldlM hopts
    split at h
    · rename_i found hrecipe
      cases h
      exact line_requiredRecipe hrecipe
    split at h
    · cases h
    · cases h
      rfl
  · cases h
    rfl

theorem line_parseHeartbeatLine {directive : String}
    (h : parseHeartbeatLine rt directive tokens line sourceLine = .error issue) :
    issue.line = line := by
  unfold parseHeartbeatLine at h
  split at h
  case h_1 | h_2 => exact line_interval h
  case h_3 => exact line_cron h
  case h_4 =>
    cases h
    rfl

end Issues

/-! ## Line by line -/

/-- What a line gives by itself. -/
def outcome (rt : HeartbeatRuntime) (entry : String × Nat) :
    Option (Except HeartbeatCompileIssue HeartbeatTriggerCandidate) :=
  if isSkipped entry.1 then none
  else
    match tokenizeHeartbeatLine (normalizedLine entry.1) with
    | [] => none
    | first :: others => some (parseHeartbeatLine rt (Text.toAsciiLowercase first)
        (first :: others) entry.2 (normalizedLine entry.1))

def candidateOf (rt : HeartbeatRuntime) (entry : String × Nat) : Option HeartbeatTriggerCandidate :=
  match outcome rt entry with
  | some (.ok candidate) => some candidate
  | _ => none

def issueOf (rt : HeartbeatRuntime) (entry : String × Nat) : Option HeartbeatCompileIssue :=
  match outcome rt entry with
  | some (.error issue) => some issue
  | _ => none

theorem mem_normalizedLine {c : Char} (h : c ∈ (normalizedLine rawLine).toList) :
    c ∈ rawLine.toList := by
  refine Text.mem_of_mem_trim ?_
  unfold normalizedLine at h
  dsimp only at h
  cases hdash : Text.stripStart (Text.trim rawLine) "- " with
  | some rest =>
    rw [hdash] at h
    exact Text.mem_of_mem_stripStart hdash h
  | none =>
    rw [hdash, Option.none_or] at h
    cases hstar : Text.stripStart (Text.trim rawLine) "* " with
    | some rest =>
      rw [hstar] at h
      exact Text.mem_of_mem_stripStart hstar h
    | none =>
      rw [hstar] at h
      exact h

/-- A mark with nothing after it is no item: its space is trimmed. -/
theorem normalizedLine_ne_empty (h : isSkipped rawLine = false) :
    Text.isEmpty (normalizedLine rawLine) = false := by
  have htrim := Text.trim_trim rawLine
  have hsome : Text.isEmpty (Text.trim rawLine) = false := (Bool.or_eq_false_iff.mp h).1
  have hmark : ∀ start rest : String, Text.trim start ≠ start →
      Text.stripStart (Text.trim rawLine) start = some rest → Text.isEmpty rest = false := by
    intro start rest hstart hstrip
    unfold Text.stripStart at hstrip
    split at hstrip
    · rename_i hlead
      cases hstrip
      obtain ⟨more, hmore⟩ := Text.startsWith_iff.mp hlead
      by_contra hempty
      rw [Bool.not_eq_false, ← hmore, List.drop_left, Text.isEmpty, String.toList_ofList,
        List.isEmpty_iff] at hempty
      rw [hempty, List.append_nil] at hmore
      rw [← String.toList_inj.mp hmore] at htrim
      exact hstart htrim
    · cases hstrip
  unfold normalizedLine
  dsimp only
  cases hdash : Text.stripStart (Text.trim rawLine) "- " with
  | some rest => exact hmark "- " rest (by decide) hdash
  | none =>
    rw [Option.none_or]
    cases hstar : Text.stripStart (Text.trim rawLine) "* " with
    | some rest => exact hmark "* " rest (by decide) hstar
    | none => exact hsome

theorem outcome_eq_none_iff {entry : String × Nat} : outcome rt entry = none ↔
    isSkipped entry.1 = true ∨ tokenizeHeartbeatLine (normalizedLine entry.1) = [] := by
  unfold outcome
  by_cases hskip : isSkipped entry.1 = true
  · simp [hskip]
  · rw [if_neg hskip]
    cases tokenizeHeartbeatLine (normalizedLine entry.1) with
    | nil => simp
    | cons first others => simp [hskip]

theorem outcome_candidate {entry : String × Nat} (hline : '\n' ∉ entry.1.toList)
    (h : outcome rt entry = some (.ok candidate)) :
    candidate.Valid rt ∧ candidate.line = entry.2 ∧
      candidate.sourceLine = normalizedLine entry.1 := by
  unfold outcome at h
  split at h
  · cases h
  split at h
  · cases h
  rename_i first others htokens
  refine valid_parseHeartbeatLine ?_ (Option.some.inj h)
  intro token htoken
  rw [← htokens] at htoken
  exact plain_of_token (fun hc => hline (mem_normalizedLine hc)) htoken

theorem outcome_issue {entry : String × Nat} {issue : HeartbeatCompileIssue}
    (h : outcome rt entry = some (.error issue)) : issue.line = entry.2 := by
  unfold outcome at h
  split at h
  · cases h
  split at h
  · cases h
  exact line_parseHeartbeatLine (Option.some.inj h)

theorem candidateOf_eq_some {entry : String × Nat} :
    candidateOf rt entry = some candidate ↔ outcome rt entry = some (.ok candidate) := by
  unfold candidateOf
  split
  · rename_i found hfound
    simp [hfound]
  · rename_i hnot
    constructor
    · intro h
      cases h
    · intro h
      exact absurd h (hnot candidate)

/-! ## Up to the limit -/

/-- Lines that are neither blank nor comments. -/
def isDirective (rawLine : String) : Bool := !isSkipped rawLine

theorem readHeartbeatLine_room {found : Nat} (h : found < maxCandidates) (entry : String × Nat) :
    readHeartbeatLine rt found entry.1 entry.2 =
      match outcome rt entry with
      | none => .passed
      | some result => .parsed result := by
  unfold readHeartbeatLine outcome
  by_cases hskip : isSkipped entry.1 = true
  · rw [if_pos hskip, if_pos hskip]
  · rw [if_neg hskip, if_neg hskip, normalizedLine_ne_empty (Bool.eq_false_iff.mpr hskip),
      if_neg Bool.false_ne_true, if_neg (by omega)]
    cases tokenizeHeartbeatLine (normalizedLine entry.1) <;> rfl

theorem readHeartbeatLine_full {found : Nat} (h : maxCandidates ≤ found) (entry : String × Nat) :
    readHeartbeatLine rt found entry.1 entry.2 =
      if isDirective entry.1 then .noRoom else .passed := by
  unfold readHeartbeatLine isDirective
  by_cases hskip : isSkipped entry.1 = true
  · rw [hskip]
    rfl
  · rw [if_neg hskip, normalizedLine_ne_empty (Bool.eq_false_iff.mpr hskip),
      if_neg Bool.false_ne_true, if_pos h, Bool.eq_false_iff.mpr hskip]
    rfl

theorem compileLines_candidate {entry : String × Nat} {rest : List (String × Nat)}
    {report : HeartbeatCompileReport} (h : outcome rt entry = some (.ok candidate))
    (hroom : report.candidates.length < maxCandidates) :
    compileLines rt (entry :: rest) report =
      compileLines rt rest { report with candidates := report.candidates ++ [candidate] } := by
  rw [compileLines, readHeartbeatLine_room hroom, h]

/-- What the compiler reads of the entries: all of them, or all before the first of those that
count for which there is no room. -/
structure ReadTo (rt : HeartbeatRuntime) (counts : String → Bool) (entries : List (String × Nat))
    (start report : HeartbeatCompileReport) (read rest : List (String × Nat)) : Prop where
  entries : entries = read ++ rest
  candidates : report.candidates = start.candidates ++ read.filterMap (candidateOf rt)
  issues : report.issues = start.issues ++ read.filterMap (issueOf rt) ++
    (rest.head?.map fun entry => limitIssue entry.2).toList
  ended : ∀ entry, rest.head? = some entry →
    counts entry.1 = true ∧ report.candidates.length = maxCandidates
  started : ∀ before entry after, read = before ++ entry :: after → counts entry.1 = true →
    (start.candidates ++ before.filterMap (candidateOf rt)).length < maxCandidates

section Lines

variable {entries read rest : List (String × Nat)} {start report : HeartbeatCompileReport}
  {entry : String × Nat}

/-- A line that has been read goes in front. -/
theorem readTo_cons {next : HeartbeatCompileReport}
    (hcandidates : next.candidates = start.candidates ++ (candidateOf rt entry).toList)
    (hissues : next.issues = start.issues ++ (issueOf rt entry).toList)
    (hroom : isDirective entry.1 = true → start.candidates.length < maxCandidates)
    (h : ReadTo rt isDirective entries next report read rest) :
    ReadTo rt isDirective (entry :: entries) start report (entry :: read) rest where
  entries := by rw [h.entries, List.cons_append]
  candidates := by
    rw [h.candidates, hcandidates, List.append_assoc, List.filterMap_cons]
    cases candidateOf rt entry <;> rfl
  issues := by
    rw [h.issues, hissues, List.filterMap_cons]
    cases issueOf rt entry <;> simp
  ended := h.ended
  started := by
    intro before later after hread hcounts
    cases before with
    | nil =>
      have hentry : entry = later := (List.cons.inj hread).1
      rw [List.filterMap_nil, List.append_nil]
      exact hroom (hentry ▸ hcounts)
    | cons first before =>
      have hcons := List.cons.inj hread
      have hlater := h.started before later after hcons.2 hcounts
      rw [hcandidates, List.append_assoc] at hlater
      rw [← hcons.1, List.filterMap_cons]
      cases hcandidate : candidateOf rt entry with
      | none =>
        rw [hcandidate] at hlater
        exact hlater
      | some found =>
        rw [hcandidate] at hlater
        exact hlater

theorem readTo_nil : ReadTo rt isDirective [] start start [] [] where
  entries := rfl
  candidates := (List.append_nil _).symm
  issues := by simp
  ended := by
    intro entry hentry
    cases hentry
  started := by
    intro before entry after hread
    simp at hread

/-- The first line for which there is no room is the last that is looked at. -/
theorem readTo_limit (hcounts : isDirective entry.1 = true)
    (hfull : start.candidates.length = maxCandidates) :
    ReadTo rt isDirective (entry :: entries) start
      { start with issues := start.issues ++ [limitIssue entry.2] } [] (entry :: entries) where
  entries := rfl
  candidates := (List.append_nil _).symm
  issues := by simp
  ended := by
    intro first hfirst
    cases hfirst
    exact ⟨hcounts, hfull⟩
  started := by
    intro before entry after hread
    simp at hread

theorem readTo_compileLines (hlength : start.candidates.length ≤ maxCandidates) :
    ∃ read rest,
      ReadTo rt isDirective entries start (compileLines rt entries start) read rest := by
  induction entries generalizing start with
  | nil => exact ⟨[], [], readTo_nil⟩
  | cons entry entries ih =>
    rw [compileLines]
    by_cases hfull : maxCandidates ≤ start.candidates.length
    · rw [readHeartbeatLine_full hfull]
      by_cases hcounts : isDirective entry.1 = true
      · rw [if_pos hcounts]
        exact ⟨[], entry :: entries, readTo_limit hcounts (by omega)⟩
      · have hskip : isSkipped entry.1 = true := by simpa [isDirective] using hcounts
        have hnone : outcome rt entry = none := outcome_eq_none_iff.mpr (.inl hskip)
        rw [if_neg hcounts]
        obtain ⟨read, rest, h⟩ := ih hlength
        refine ⟨_, rest, readTo_cons ?_ ?_ (fun h => absurd h hcounts) h⟩
        · simp [candidateOf, hnone]
        · simp [issueOf, hnone]
    · have hroom : start.candidates.length < maxCandidates := by omega
      rw [readHeartbeatLine_room hroom]
      cases houtcome : outcome rt entry with
      | none =>
        obtain ⟨read, rest, h⟩ := ih hlength
        refine ⟨_, rest, readTo_cons ?_ ?_ (fun _ => hroom) h⟩
        · simp [candidateOf, houtcome]
        · simp [issueOf, houtcome]
      | some result =>
        cases result with
        | ok candidate =>
          have hnext : (start.candidates ++ [candidate]).length ≤ maxCandidates := by
            rw [List.length_append, List.length_singleton]
            omega
          obtain ⟨read, rest, h⟩ :=
            @ih { start with candidates := start.candidates ++ [candidate] } hnext
          refine ⟨_, rest, readTo_cons ?_ ?_ (fun _ => hroom) h⟩
          · simp [candidateOf, houtcome]
          · simp [issueOf, houtcome]
        | error issue =>
          obtain ⟨read, rest, h⟩ :=
            @ih { start with issues := start.issues ++ [issue] } hlength
          refine ⟨_, rest, readTo_cons ?_ ?_ (fun _ => hroom) h⟩
          · simp [candidateOf, houtcome]
          · simp [issueOf, houtcome]

end Lines

theorem readTo_compileHeartbeatMarkdown (rt : HeartbeatRuntime) (markdown : String) :
    ∃ read rest, ReadTo rt isDirective (numberedLines markdown) ⟨[], []⟩
      (compileHeartbeatMarkdown rt markdown) read rest := by
  have hroom : (⟨[], []⟩ : HeartbeatCompileReport).candidates.length ≤ maxCandidates :=
    Nat.zero_le _
  exact readTo_compileLines hroom

/-- The lines of a text have no newlines. -/
theorem newline_notMem_numberedLines {markdown : String} {entry : String × Nat}
    (h : entry ∈ numberedLines markdown) : '\n' ∉ entry.1.toList := by
  unfold numberedLines at h
  have hline := List.fst_mem_of_mem_zipIdx h
  obtain ⟨text, htext, heq⟩ := List.mem_map.mp hline
  rw [← heq, String.toList_ofList]
  exact Lines.newline_notMem_lines htext

theorem valid_of_mem_candidates {markdown : String}
    (h : candidate ∈ (compileHeartbeatMarkdown rt markdown).candidates) : candidate.Valid rt := by
  obtain ⟨read, rest, hread⟩ := readTo_compileHeartbeatMarkdown rt markdown
  rw [hread.candidates, List.nil_append] at h
  obtain ⟨entry, hentry, hcandidate⟩ := List.mem_filterMap.mp h
  have hmem : entry ∈ numberedLines markdown := by
    rw [hread.entries]
    exact List.mem_append_left _ hentry
  exact (outcome_candidate (newline_notMem_numberedLines hmem)
    (candidateOf_eq_some.mp hcandidate)).1

end Api
end SecureAgnt

/-
The verifier of tamper chains, `audit_chain_verifier`.

An event names the hash of the event before it and carries the hash of its sequence
token, of that hash and of its own payload.  The verifier walks the events once, and what
it expects next is the hash that the last event carried, right or wrong.
-/
import SecureAgnt.Lib.HashChain
import SecureAgnt.Lib.JoinedText
import SecureAgnt.Lib.JsonCanonical
import SecureAgnt.Lib.Text

namespace SecureAgnt
namespace Skill
namespace AuditChain

structure AuditRuntime where
  floats : FloatText
  sha256Hex : String → String

/-! ## Options -/

structure VerifyConfig where
  seed : String
  seqField : String
  prevField : String
  hashField : String

def valueToString (f : FloatText) (value : Option Json) (defaultValue : String) : String :=
  let prepared := value.bind fun
    | .str raw => if Text.trim raw ≠ "" then some raw else none
    | .num n => some (String.ofList (numberText f n))
    | .bool b => some (if b then "true" else "false")
    | _ => none
  (prepared.filter fun text => Text.trim text ≠ "").getD defaultValue

def parseConfig (f : FloatText) (input : Json) : Except String VerifyConfig :=
  match input.asObject? with
  | none => .error "Input must be a JSON object."
  | some _ =>
    match input.get? "events" with
    | none => .error "Missing `events` field."
    | some _ => .ok {
        seed := valueToString f (input.get? "seed") "GENESIS"
        seqField := valueToString f (input.get? "seq_field") "tamper_chain_seq"
        prevField := valueToString f (input.get? "prev_hash_field") "tamper_prev_hash"
        hashField := valueToString f (input.get? "hash_field") "tamper_hash" }

/-! ## What is hashed -/

def strField (event : List (String × Json)) (key : String) : Option String :=
  ((Json.obj event).get? key).bind Json.asStr?

/-- The token of an event without the field is its place. -/
def seqToken (rt : AuditRuntime) (config : VerifyConfig) (index : Nat)
    (event : List (String × Json)) : String :=
  match (Json.obj event).get? config.seqField with
  | some value => valueToString rt.floats (some value) ""
  | none => toString index

def isScrubbed (config : VerifyConfig) (key : String) : Bool :=
  key == config.hashField || key == config.prevField || key == config.seqField ||
    key == "id" || key == "event_id"

def scrubbed (config : VerifyConfig) (event : List (String × Json)) : Json :=
  Json.canonical (.obj (event.filter fun field => !isScrubbed config field.1))

def scrubEvent (rt : AuditRuntime) (config : VerifyConfig) (event : List (String × Json)) :
    String :=
  String.ofList ((scrubbed config event).write rt.floats)

def expectedHash (rt : AuditRuntime) (config : VerifyConfig) (index : Nat) (prev : String)
    (event : List (String × Json)) : String :=
  rt.sha256Hex (seqToken rt config index event ++ "|" ++ prev ++ "|" ++ scrubEvent rt config event)

/-! ## The walk -/

structure AuditVerificationIssue where
  index : Nat
  eventId : Option String
  code : String
  detail : String
  severity : String

def eventId (event : List (String × Json)) : Option String :=
  (strField event "id").or (strField event "event_id")

def invalidEvent (index : Nat) : AuditVerificationIssue where
  index := index
  eventId := none
  code := "INVALID_EVENT"
  detail := "Event must be an object."
  severity := "high"

def prevMismatch (index : Nat) (event : List (String × Json)) (expectedPrev providedPrev : String) :
    AuditVerificationIssue where
  index := index
  eventId := eventId event
  code := "CHAIN_PREV_MISMATCH"
  detail := "Expected prev hash `" ++ expectedPrev ++ "` but received `" ++ providedPrev ++ "`."
  severity := "high"

def hashMismatch (index : Nat) (event : List (String × Json)) (expected provided : String)
    (severity : String) : AuditVerificationIssue where
  index := index
  eventId := eventId event
  code := "HASH_MISMATCH"
  detail := "Expected tamper hash `" ++ expected ++ "` but received `" ++ provided ++ "`."
  severity := severity

structure VerifyState where
  issues : List AuditVerificationIssue
  expectedPrev : String
  verifiedCount : Nat

/-- One event; one that is no object leaves the expected hash as it is. -/
def verifyEvent (rt : AuditRuntime) (config : VerifyConfig) (st : VerifyState)
    (entry : Json × Nat) : VerifyState :=
  match entry.1.asObject? with
  | none => { st with issues := st.issues ++ [invalidEvent entry.2] }
  | some event =>
    let providedPrev := (strField event config.prevField).getD ""
    let providedHash := (strField event config.hashField).getD ""
    let expected := expectedHash rt config entry.2 st.expectedPrev event
    let prevIssues := if providedPrev ≠ st.expectedPrev then
      [prevMismatch entry.2 event st.expectedPrev providedPrev] else []
    let hashIssues := if providedHash ≠ expected then
      [hashMismatch entry.2 event expected providedHash
        (if providedPrev ≠ st.expectedPrev then "high" else "medium")] else []
    { issues := st.issues ++ prevIssues ++ hashIssues
      expectedPrev := providedHash
      verifiedCount := if providedHash = expected ∧ providedPrev = st.expectedPrev then
        st.verifiedCount + 1 else st.verifiedCount }

def verifyEvents (rt : AuditRuntime) (config : VerifyConfig) (events : List Json) : VerifyState :=
  events.zipIdx.foldl (verifyEvent rt config) ⟨[], config.seed, 0⟩

def verifyChain (rt : AuditRuntime) (events : List Json) (config : VerifyConfig) :
    Nat × List AuditVerificationIssue × Bool :=
  let st := verifyEvents rt config events
  (st.verifiedCount, st.issues, st.issues.isEmpty)

/-! ## Chained events -/

/-- The hash that the event at a place comes after. -/
def previousHash (config : VerifyConfig) (events : List Json) : Nat → Option String
  | 0 => some config.seed
  | i + 1 => events[i]?.bind fun event => (event.get? config.hashField).bind Json.asStr?

/-- The event is an object that names `prev` and has the hash that goes with it. -/
def Follows (rt : AuditRuntime) (config : VerifyConfig) (index : Nat) (prev : String)
    (event : Json) : Prop :=
  ∃ fields, event = .obj fields ∧ strField fields config.prevField = some prev ∧
    strField fields config.hashField = some (expectedHash rt config index prev fields)

def ChainedAt (rt : AuditRuntime) (config : VerifyConfig) (events : List Json) (i : Nat) : Prop :=
  ∃ event prev, events[i]? = some event ∧ previousHash config events i = some prev ∧
    Follows rt config i prev event

variable {rt : AuditRuntime} {config : VerifyConfig} {events more : List Json} {event : Json}
  {st : VerifyState} {i index : Nat} {prev : String}

section Options

variable {f : FloatText} {input : Json}

theorem valueToString_ne_empty {value : Option Json} {defaultValue : String}
    (h : defaultValue ≠ "") : valueToString f value defaultValue ≠ "" := by
  unfold valueToString
  generalize value.bind _ = prepared
  cases prepared with
  | none => exact h
  | some text =>
    by_cases htext : Text.trim text ≠ ""
    · have hne : text ≠ "" := by
        intro hempty
        rw [hempty] at htext
        exact htext rfl
      simpa [Option.filter, htext] using hne
    · simpa [Option.filter, htext] using h

theorem seed_ne_empty (h : parseConfig f input = .ok config) : config.seed ≠ "" := by
  unfold parseConfig at h
  split at h
  · cases h
  split at h
  · cases h
  cases h
  exact valueToString_ne_empty (by decide)

end Options

/-! ## One event -/

theorem previousHash_append (h : i ≤ events.length) :
    previousHash config (events ++ more) i = previousHash config events i := by
  cases i with
  | zero => rfl
  | succ i =>
    show (events ++ more)[i]?.bind _ = events[i]?.bind _
    rw [List.getElem?_append_left (by omega)]

theorem chainedAt_append (h : i < events.length) :
    ChainedAt rt config (events ++ more) i ↔ ChainedAt rt config events i := by
  unfold ChainedAt
  rw [previousHash_append (by omega), List.getElem?_append_left h]

theorem chainedAt_last (h : previousHash config events events.length = some prev) :
    ChainedAt rt config (events ++ [event]) events.length ↔
      Follows rt config events.length prev event := by
  unfold ChainedAt
  rw [previousHash_append (le_refl _), List.getElem?_concat_length, h]
  constructor
  · intro hchained
    obtain ⟨_, _, hevent, hprev, hfollows⟩ := hchained
    cases hevent
    cases hprev
    exact hfollows
  · intro hfollows
    exact ⟨event, prev, rfl, rfl, hfollows⟩

theorem verifyEvents_concat : verifyEvents rt config (events ++ [event]) =
    verifyEvent rt config (verifyEvents rt config events) (event, events.length) := by
  unfold verifyEvents
  rw [List.zipIdx_append, List.foldl_append, Nat.zero_add]
  rfl

/-- The issues of an event are its own and come after those found before. -/
theorem issues_verifyEvent : ∃ found, (verifyEvent rt config st (event, index)).issues =
    st.issues ++ found ∧ ∀ issue ∈ found, issue.index = index := by
  cases event with
  | obj fields =>
    refine ⟨_, List.append_assoc _ _ _, ?_⟩
    intro issue hissue
    rcases List.mem_append.mp hissue with hissue | hissue
    · split at hissue
      · rw [List.mem_singleton.mp hissue]
        rfl
      · cases hissue
    · split at hissue
      · rw [List.mem_singleton.mp hissue]
        rfl
      · cases hissue
  | _ =>
    refine ⟨_, rfl, ?_⟩
    intro issue hissue
    rw [List.mem_singleton.mp hissue]
    rfl

theorem getD_eq_iff {value : Option String} {text : String} (h : text ≠ "") :
    value.getD "" = text ↔ value = some text := by
  cases value with
  | none => simpa using h.symm
  | some other => simp

/-- How SHA-256 is written: hexadecimal digits, at least one. -/
structure HexText (sha256Hex : String → String) : Prop where
  digits : ∀ text, ∀ c ∈ (sha256Hex text).toList, c ∈ "0123456789abcdef".toList
  nonempty : ∀ text, sha256Hex text ≠ ""

/-- An event gives no issue where it follows the one before. -/
theorem issues_eq_nil_iff (hsha : HexText rt.sha256Hex) (hprev : st.expectedPrev ≠ "") :
    (verifyEvent rt config st (event, index)).issues = [] ↔
      st.issues = [] ∧ Follows rt config index st.expectedPrev event := by
  cases event with
  | obj fields =>
    have hhash := hsha.nonempty (seqToken rt config index fields ++ "|" ++ st.expectedPrev ++ "|" ++
      scrubEvent rt config fields)
    simp only [verifyEvent, Json.asObject?, List.append_eq_nil_iff, ite_eq_right_iff]
    constructor
    · intro h
      have hnamed := h.1.2
      have hcarried := h.2
      simp only [List.cons_ne_nil, imp_false, not_not] at hnamed hcarried
      exact ⟨h.1.1, fields, rfl, (getD_eq_iff hprev).mp hnamed, (getD_eq_iff hhash).mp hcarried⟩
    · intro h
      obtain ⟨hst, _, hfields, hnamed, hcarried⟩ := h
      cases hfields
      refine ⟨⟨hst, fun hne => ?_⟩, fun hne => ?_⟩
      · exact absurd ((getD_eq_iff hprev).mpr hnamed) hne
      · exact absurd ((getD_eq_iff hhash).mpr hcarried) hne
  | _ =>
    constructor
    · intro h
      simp [verifyEvent, Json.asObject?] at h
    · intro h
      obtain ⟨_, _, hfields, _⟩ := h
      cases hfields

theorem expectedPrev_of_follows (h : Follows rt config index st.expectedPrev event) :
    (event.get? config.hashField).bind Json.asStr? =
      some (verifyEvent rt config st (event, index)).expectedPrev := by
  obtain ⟨fields, rfl, _, hcarried⟩ := h
  have hget : strField fields config.hashField =
      some ((strField fields config.hashField).getD "") := by
    rw [hcarried]
    rfl
  exact hget

/-! ## The whole walk -/

/-- While nothing is wrong, the expected hash is that of the last event. -/
theorem expectedPrev_of_issues (hsha : HexText rt.sha256Hex) (hseed : config.seed ≠ "")
    (h : (verifyEvents rt config events).issues = []) :
    (verifyEvents rt config events).expectedPrev ≠ "" ∧
      previousHash config events events.length =
        some (verifyEvents rt config events).expectedPrev := by
  induction events using List.reverseRecOn with
  | nil => exact ⟨hseed, rfl⟩
  | append_singleton events event ih =>
    rw [verifyEvents_concat] at h ⊢
    obtain ⟨found, hissues, _⟩ := @issues_verifyEvent rt config event
      (verifyEvents rt config events) events.length
    have hbefore : (verifyEvents rt config events).issues = [] := by
      rw [hissues] at h
      exact (List.append_eq_nil_iff.mp h).1
    obtain ⟨hne, _⟩ := ih hbefore
    have hfollows := ((issues_eq_nil_iff hsha hne).mp h).2
    have hget := expectedPrev_of_follows hfollows
    obtain ⟨fields, rfl, _, hcarried⟩ := hfollows
    have hlength : (events ++ [Json.obj fields]).length = events.length + 1 := by simp
    have hprevious : previousHash config (events ++ [Json.obj fields])
        (events ++ [Json.obj fields]).length = (strField fields config.hashField) := by
      rw [hlength]
      show (events ++ [Json.obj fields])[events.length]?.bind _ = _
      rw [List.getElem?_concat_length]
      rfl
    refine ⟨?_, hprevious.trans hget⟩
    rw [show (verifyEvent rt config (verifyEvents rt config events) (Json.obj fields,
      events.length)).expectedPrev = (strField fields config.hashField).getD "" from rfl, hcarried]
    exact hsha.nonempty _

/-- Nothing is wrong exactly when every event is chained. -/
theorem issues_verifyEvents (hsha : HexText rt.sha256Hex) (hseed : config.seed ≠ "") :
    (verifyEvents rt config events).issues = [] ↔
      ∀ i < events.length, ChainedAt rt config events i := by
  induction events using List.reverseRecOn with
  | nil => simp [verifyEvents]
  | append_singleton events event ih =>
    have hall : (∀ i < (events ++ [event]).length, ChainedAt rt config (events ++ [event]) i) ↔
        (∀ i < events.length, ChainedAt rt config events i) ∧
          ChainedAt rt config (events ++ [event]) events.length := by
      have hlength : (events ++ [event]).length = events.length + 1 := by simp
      rw [hlength, Nat.forall_lt_succ_right]
      refine and_congr_left fun _ => forall₂_congr fun i hi => ?_
      exact chainedAt_append hi
    rw [hall, ← ih, verifyEvents_concat]
    by_cases hbefore : (verifyEvents rt config events).issues = []
    · obtain ⟨hne, hprevious⟩ := expectedPrev_of_issues hsha hseed hbefore
      rw [issues_eq_nil_iff hsha hne, chainedAt_last hprevious]
    · obtain ⟨found, hissues, _⟩ := @issues_verifyEvent rt config event
        (verifyEvents rt config events) events.length
      rw [hissues, List.append_eq_nil_iff]
      constructor
      · intro h
        exact absurd h.1 hbefore
      · intro h
        exact absurd h.1 hbefore

/-- The first issue is about the first event that is not chained. -/
theorem first_issue (hsha : HexText rt.sha256Hex) (hseed : config.seed ≠ "")
    {first : AuditVerificationIssue} {rest : List AuditVerificationIssue}
    (h : (verifyEvents rt config events).issues = first :: rest) :
    first.index < events.length ∧ ¬ ChainedAt rt config events first.index ∧
      ∀ j < first.index, ChainedAt rt config events j := by
  induction events using List.reverseRecOn generalizing rest with
  | nil => cases h
  | append_singleton events event ih =>
    have hlength : (events ++ [event]).length = events.length + 1 := by simp
    have hiff := @issues_verifyEvents rt config (events ++ [event]) hsha hseed
    rw [verifyEvents_concat] at h hiff
    obtain ⟨found, hissues, hindex⟩ := @issues_verifyEvent rt config event
      (verifyEvents rt config events) events.length
    cases hbefore : (verifyEvents rt config events).issues with
    | nil =>
      rw [hissues, hbefore, List.nil_append] at h
      have hat : first.index = events.length := hindex first (h ▸ List.mem_cons_self)
      have hchained := (issues_verifyEvents hsha hseed).mp hbefore
      rw [hissues, hbefore, List.nil_append, h] at hiff
      have hnot : ¬ ChainedAt rt config (events ++ [event]) events.length := by
        intro hlast
        refine List.cons_ne_nil _ _ (hiff.mpr ?_)
        intro i hi
        rcases Nat.lt_succ_iff_lt_or_eq.mp (hlength ▸ hi) with hi | rfl
        · exact (chainedAt_append hi).mpr (hchained i hi)
        · exact hlast
      rw [hat, hlength]
      refine ⟨by omega, hnot, ?_⟩
      intro j hj
      exact (chainedAt_append hj).mpr (hchained j hj)
    | cons first' rest' =>
      rw [hissues, hbefore, List.cons_append] at h
      obtain ⟨rfl, _⟩ := List.cons.inj h
      obtain ⟨hlt, hnot, hchained⟩ := ih hbefore
      refine ⟨by omega, ?_, ?_⟩
      · rw [chainedAt_append hlt]
        exact hnot
      · intro j hj
        exact (chainedAt_append (by omega)).mpr (hchained j hj)

end AuditChain
end Skill
end SecureAgnt

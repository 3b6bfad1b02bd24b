/-
The texts in which compliance events leave the system.

Every adapter writes JSON values, one a line.  `export_lossless` says that the lines of a
payload are these values and that the payload determines the events.
-/
import Mathlib.Logic.Encodable.Basic
import SecureAgnt.Api.Creates
import SecureAgnt.Compliance.Chain
import SecureAgnt.Lib.JsonCanonical
import SecureAgnt.Lib.Lines

namespace SecureAgnt
namespace Compliance

open Api (optionJson)
open Runs (intJson)

/-! ## Adapters -/

inductive SiemAdapter where
  | secureAgntNdjson
  | splunkHec
  | elasticBulk
  deriving DecidableEq, Repr

/-! ## Payloads -/

/-- An event as it is listed.  Its number is an `i64`, and a map of `serde_json` has its
keys in order. -/
structure ComplianceAuditEventDetailRecord extends ComplianceEvent Json where
  recordedAt : Int
  seq_range : -2 ^ 63 ≤ tamperChainSeq ∧ tamperChainSeq < 2 ^ 63
  isValue : payloadJson.IsValue
  sorted : payloadJson.canonical = payloadJson

/-- How the serializers write floats, times, and the seconds of a time as a float. -/
structure ExportRuntime where
  floats : FloatText
  timeJson : Int → Json
  isValue_timeJson : ∀ t, (timeJson t).IsValue
  timeJson_injective : Function.Injective timeJson
  secondsAsF64 : Int → UInt64
  isFinite_secondsAsF64 : ∀ s, isFinite (secondsAsF64 s) = true

variable (rt : ExportRuntime)

/-- `serde_json::to_string` and a newline. -/
def jsonLine (v : Json) : List Char := v.write rt.floats ++ ['\n']

def uuidJson (u : Uuid) : Json := .str u.text

/-- The fields as the map of `json!` orders them. -/
def complianceEventToJsonValue (event : ComplianceAuditEventDetailRecord) : Json := .obj [
  ("actor", .str event.actor),
  ("agent_id", optionJson uuidJson event.agentId),
  ("created_at", rt.timeJson event.createdAt),
  ("event_type", .str event.eventType),
  ("id", uuidJson event.id),
  ("payload_json", event.payloadJson),
  ("recorded_at", rt.timeJson event.recordedAt),
  ("run_id", uuidJson event.runId),
  ("source_audit_event_id", uuidJson event.sourceAuditEventId),
  ("step_id", optionJson uuidJson event.stepId),
  ("tamper_chain_seq", intJson event.tamperChainSeq),
  ("tamper_hash", .str event.tamperHash),
  ("tamper_prev_hash", optionJson .str event.tamperPrevHash),
  ("tenant_id", .str event.tenantId),
  ("user_id", optionJson uuidJson event.userId)]

def splunkEvent (event : ComplianceAuditEventDetailRecord) : Json := .obj [
  ("event", complianceEventToJsonValue rt event),
  ("host", .str "secureagnt"),
  ("source", .str "secureagnt.compliance"),
  ("sourcetype", .str "secureagnt:compliance"),
  ("time", .num (.float (rt.secondsAsF64 (event.createdAt / 10 ^ 6))))]

def elasticAction (indexName : String) (event : ComplianceAuditEventDetailRecord) : Json :=
  .obj [("index", .obj [("_id", uuidJson event.id), ("_index", .str indexName)])]

def serializeComplianceEventsAsNdjson (events : List ComplianceAuditEventDetailRecord) : String :=
  String.ofList (events.flatMap fun event => jsonLine rt (complianceEventToJsonValue rt event))

def serializeComplianceEventsAsSplunkHec (events : List ComplianceAuditEventDetailRecord) :
    String :=
  String.ofList (events.flatMap fun event => jsonLine rt (splunkEvent rt event))

def serializeComplianceEventsAsElasticBulk (events : List ComplianceAuditEventDetailRecord)
    (indexName : String) : String :=
  String.ofList (events.flatMap fun event =>
    jsonLine rt (elasticAction indexName event) ++
      jsonLine rt (complianceEventToJsonValue rt event))

def serializeSiemAdapterPayload (events : List ComplianceAuditEventDetailRecord)
    (adapter : SiemAdapter) (elasticIndex : String) : String :=
  match adapter with
  | .secureAgntNdjson => serializeComplianceEventsAsNdjson rt events
  | .splunkHec => serializeComplianceEventsAsSplunkHec rt events
  | .elasticBulk => serializeComplianceEventsAsElasticBulk rt events elasticIndex

/-! ## What a payload says -/

/-- The values that an adapter writes for an event. -/
def siemRows (adapter : SiemAdapter) (elasticIndex : String)
    (event : ComplianceAuditEventDetailRecord) : List Json :=
  match adapter with
  | .secureAgntNdjson => [complianceEventToJsonValue rt event]
  | .splunkHec => [splunkEvent rt event]
  | .elasticBulk => [elasticAction elasticIndex event, complianceEventToJsonValue rt event]

section Payloads

variable {rt} {adapter : SiemAdapter} {index index' : String}
  {event event' : ComplianceAuditEventDetailRecord}
  {events events' : List ComplianceAuditEventDetailRecord}

theorem toList_serializeSiemAdapterPayload :
    (serializeSiemAdapterPayload rt events adapter index).toList =
      (events.flatMap (siemRows rt adapter index)).flatMap (jsonLine rt) := by
  rw [List.flatMap_assoc]
  cases adapter with
  | secureAgntNdjson =>
    show (serializeComplianceEventsAsNdjson rt events).toList = _
    simp [serializeComplianceEventsAsNdjson, siemRows]
  | splunkHec =>
    show (serializeComplianceEventsAsSplunkHec rt events).toList = _
    simp [serializeComplianceEventsAsSplunkHec, siemRows]
  | elasticBulk =>
    show (serializeComplianceEventsAsElasticBulk rt events index).toList = _
    simp [serializeComplianceEventsAsElasticBulk, siemRows]

theorem isValue_optionJson {α : Type} {f : α → Json} (h : ∀ a, (f a).IsValue) (a : Option α) :
    (optionJson f a).IsValue := by
  cases a with
  | none => exact .null
  | some a => exact h a

theorem isValue_uuidJson (u : Uuid) : (uuidJson u).IsValue := .str _

section Numbers

variable {m n : Int}

theorem toNat_ofNat {k : Nat} (h : k < 2 ^ 64) : (UInt64.ofNat k).toNat = k :=
  UInt64.toNat_ofNat_of_lt' h

theorem isValue_intJson (hn : -2 ^ 63 ≤ n ∧ n < 2 ^ 63) : (intJson n).IsValue := by
  unfold intJson
  by_cases hpos : 0 ≤ n
  · rw [if_pos hpos]
    exact .num rfl
  · rw [if_neg hpos]
    refine .num (decide_eq_true (Int64.lt_iff_toInt_lt.mpr ?_))
    rw [Int64.toInt_ofInt_of_le hn.1 hn.2]
    show n < 0
    omega

theorem intJson_injective (hm : -2 ^ 63 ≤ m ∧ m < 2 ^ 63) (hn : -2 ^ 63 ≤ n ∧ n < 2 ^ 63)
    (h : intJson m = intJson n) : m = n := by
  unfold intJson at h
  by_cases hmpos : 0 ≤ m
  · rw [if_pos hmpos] at h
    by_cases hnpos : 0 ≤ n
    · rw [if_pos hnpos] at h
      have hbits : UInt64.ofNat m.toNat = UInt64.ofNat n.toNat := by
        simpa [Json.nat] using h
      have hnat := congrArg UInt64.toNat hbits
      rw [toNat_ofNat (k := m.toNat) (by omega), toNat_ofNat (k := n.toNat) (by omega)] at hnat
      omega
    · rw [if_neg hnpos] at h
      simp [Json.nat] at h
  · rw [if_neg hmpos] at h
    by_cases hnpos : 0 ≤ n
    · rw [if_pos hnpos] at h
      simp [Json.nat] at h
    · rw [if_neg hnpos] at h
      have hbits : Int64.ofInt m = Int64.ofInt n := by simpa using h
      rw [← Int64.toInt_ofInt_of_le hm.1 hm.2, hbits, Int64.toInt_ofInt_of_le hn.1 hn.2]

end Numbers

theorem isValue_complianceEvent : (complianceEventToJsonValue rt event).IsValue := by
  refine .obj (by simp) ?_
  intro field hfield
  simp only [List.mem_cons, List.not_mem_nil, or_false] at hfield
  rcases hfield with rfl | rfl | rfl | rfl | rfl | rfl | rfl | rfl | rfl | rfl | rfl | rfl | rfl |
    rfl | rfl
  · exact .str _
  · exact isValue_optionJson isValue_uuidJson _
  · exact rt.isValue_timeJson _
  · exact .str _
  · exact isValue_uuidJson _
  · exact event.isValue
  · exact rt.isValue_timeJson _
  · exact isValue_uuidJson _
  · exact isValue_uuidJson _
  · exact isValue_optionJson isValue_uuidJson _
  · exact isValue_intJson event.seq_range
  · exact .str _
  · exact isValue_optionJson (fun _ => .str _) _
  · exact .str _
  · exact isValue_optionJson isValue_uuidJson _

theorem siemRows_isValue : ∀ v ∈ siemRows rt adapter index event, v.IsValue := by
  intro v hv
  cases adapter with
  | secureAgntNdjson =>
    rw [List.mem_singleton.mp hv]
    exact isValue_complianceEvent
  | splunkHec =>
    rw [List.mem_singleton.mp hv]
    refine .obj (by simp) ?_
    intro field hfield
    simp only [List.mem_cons, List.not_mem_nil, or_false] at hfield
    rcases hfield with rfl | rfl | rfl | rfl | rfl
    · exact isValue_complianceEvent
    · exact .str _
    · exact .str _
    · exact .str _
    · exact .num (rt.isFinite_secondsAsF64 _)
  | elasticBulk =>
    rcases List.mem_cons.mp hv with rfl | hv
    · refine .obj (by simp) ?_
      intro field hfield
      rw [List.mem_singleton.mp hfield]
      refine .obj (by simp) ?_
      intro field hfield
      simp only [List.mem_cons, List.not_mem_nil, or_false] at hfield
      rcases hfield with rfl | rfl
      · exact isValue_uuidJson _
      · exact .str _
    · rw [List.mem_singleton.mp hv]
      exact isValue_complianceEvent

theorem siemRows_isObject : ∀ v ∈ siemRows rt adapter index event, ∃ fields, v = .obj fields := by
  intro v hv
  cases adapter with
  | secureAgntNdjson => exact ⟨_, List.mem_singleton.mp hv⟩
  | splunkHec => exact ⟨_, List.mem_singleton.mp hv⟩
  | elasticBulk =>
    rcases List.mem_cons.mp hv with rfl | hv
    · exact ⟨_, rfl⟩
    · exact ⟨_, List.mem_singleton.mp hv⟩

/-- The lines of a payload are the values that the adapter writes. -/
theorem lines_payload :
    Lines.lines (serializeSiemAdapterPayload rt events adapter index).toList =
      (events.flatMap (siemRows rt adapter index)).map (Json.write rt.floats) := by
  rw [toList_serializeSiemAdapterPayload]
  have hline : (events.flatMap (siemRows rt adapter index)).flatMap (jsonLine rt) =
      ((events.flatMap (siemRows rt adapter index)).map (Json.write rt.floats)).flatMap
        fun text => text ++ ['\n'] := by
    rw [List.flatMap_map]
    rfl
  rw [hline]
  refine Lines.lines_flatMap ?_
  intro text htext
  obtain ⟨v, hv, rfl⟩ := List.mem_map.mp htext
  obtain ⟨event, -, hv⟩ := List.mem_flatMap.mp hv
  refine ⟨Json.newline_notMem_write (siemRows_isValue v hv), ?_⟩
  obtain ⟨fields, rfl⟩ := siemRows_isObject v hv
  rw [Json.write, List.getLast?_cons, Json.getLast?_writeFields]
  decide

theorem optionJson_injective {α : Type} {f : α → Json} (hf : Function.Injective f)
    (hnull : ∀ a, f a ≠ .null) : Function.Injective (optionJson f) := by
  intro a b h
  cases a with
  | none =>
    cases b with
    | none => rfl
    | some b => exact absurd h.symm (hnull b)
  | some a =>
    cases b with
    | none => exact absurd h (hnull a)
    | some b => exact congrArg some (hf h)

theorem uuidJson_injective : Function.Injective uuidJson := by
  intro u v h
  exact Uuid.text_injective (Json.str.inj h)

/-- Nothing of an event is lost in its value. -/
theorem complianceEventToJsonValue_injective :
    Function.Injective (complianceEventToJsonValue rt) := by
  intro event event' h
  have hfields := Json.obj.inj h
  simp only [List.cons.injEq, Prod.mk.injEq, true_and, and_true, Json.str.injEq] at hfields
  obtain ⟨hactor, hagent, hcreated, htype, hid, hpayload, hrecorded, hrun, hsource, hstep, hseq,
    hhash, hprev, htenant, huser⟩ := hfields
  have huuid := optionJson_injective uuidJson_injective fun u hu => by cases hu
  have hstr := optionJson_injective (f := Json.str) (fun _ _ => Json.str.inj)
    fun s hs => by cases hs
  obtain ⟨⟨id, source, seq, prev, hash, run, step, tenant, agent, user, actor, type, payload,
    created⟩, recorded, hrange, hvalue, hsorted⟩ := event
  obtain ⟨⟨id', source', seq', prev', hash', run', step', tenant', agent', user', actor', type',
    payload', created'⟩, recorded', hrange', hvalue', hsorted'⟩ := event'
  cases hactor
  cases huuid hagent
  cases rt.timeJson_injective hcreated
  cases htype
  cases uuidJson_injective hid
  cases hpayload
  cases rt.timeJson_injective hrecorded
  cases uuidJson_injective hrun
  cases uuidJson_injective hsource
  cases huuid hstep
  cases intJson_injective hrange hrange' hseq
  cases hhash
  cases hstr hprev
  cases htenant
  cases huuid huser
  rfl

theorem siemRows_injective
    (h : siemRows rt adapter index event = siemRows rt adapter index' event') : event = event' := by
  cases adapter with
  | secureAgntNdjson => exact complianceEventToJsonValue_injective (List.cons.inj h).1
  | splunkHec =>
    have hfields := Json.obj.inj (List.cons.inj h).1
    exact complianceEventToJsonValue_injective (Prod.mk.inj (List.cons.inj hfields).1).2
  | elasticBulk => exact complianceEventToJsonValue_injective (List.cons.inj (List.cons.inj h).2).1

theorem length_siemRows (event event' : ComplianceAuditEventDetailRecord) :
    (siemRows rt adapter index event).length = (siemRows rt adapter index' event').length := by
  cases adapter <;> rfl

theorem siemRows_ne_nil : siemRows rt adapter index event ≠ [] := by
  cases adapter <;> exact List.cons_ne_nil _ _

theorem flatMap_siemRows_injective (h : events.flatMap (siemRows rt adapter index) =
    events'.flatMap (siemRows rt adapter index')) : events = events' := by
  induction events generalizing events' with
  | nil =>
    cases events' with
    | nil => rfl
    | cons event' events' => exact absurd (List.append_eq_nil_iff.mp h.symm).1 siemRows_ne_nil
  | cons event events ih =>
    cases events' with
    | nil => exact absurd (List.append_eq_nil_iff.mp h).1 siemRows_ne_nil
    | cons event' events' =>
      -- an adapter writes as many rows for every event
      obtain ⟨hrows, hrest⟩ := List.append_inj h (length_siemRows event event')
      rw [siemRows_injective hrows, ih hrest]

theorem values_of_lines {vs ws : List Json} (hvs : ∀ v ∈ vs, v.IsValue) (hws : ∀ w ∈ ws, w.IsValue)
    (h : vs.map (Json.write rt.floats) = ws.map (Json.write rt.floats)) : vs = ws := by
  induction vs generalizing ws with
  | nil => exact (List.map_eq_nil_iff.mp h.symm).symm
  | cons v vs ih =>
    cases ws with
    | nil => cases h
    | cons w ws =>
      rw [List.map_cons, List.map_cons] at h
      obtain ⟨hhead, htail⟩ := List.cons.inj h
      rw [Json.write_injective (hvs v List.mem_cons_self) (hws w List.mem_cons_self) hhead,
        ih (fun v hv => hvs v (List.mem_cons_of_mem _ hv))
          (fun w hw => hws w (List.mem_cons_of_mem _ hw)) htail]

/-- In every format the lines of a payload are the values written for the events, and
two lists of events with one payload are the same events in the same order. -/
theorem export_lossless (rt : ExportRuntime) (adapter : SiemAdapter) (index index' : String)
    (events events' : List ComplianceAuditEventDetailRecord) :
    Lines.lines (serializeSiemAdapterPayload rt events adapter index).toList =
        (events.flatMap (siemRows rt adapter index)).map (Json.write rt.floats) ∧
      (serializeSiemAdapterPayload rt events adapter index =
        serializeSiemAdapterPayload rt events' adapter index' → events = events') := by
  refine ⟨lines_payload, fun h => ?_⟩
  have hlines := congrArg (fun payload => Lines.lines payload.toList) h
  simp only [lines_payload] at hlines
  have hvalue : ∀ (index : String) (events : List ComplianceAuditEventDetailRecord),
      ∀ v ∈ events.flatMap (siemRows rt adapter index), v.IsValue := by
    intro index events v hv
    obtain ⟨event, -, hv⟩ := List.mem_flatMap.mp hv
    exact siemRows_isValue v hv
  exact flatMap_siemRows_injective (values_of_lines (hvalue _ _) (hvalue _ _) hlines)

end Payloads

/-- A time is written as a list of its own length. -/
def countedTime (t : Int) : Json := .arr (List.replicate (Encodable.encode t) .null)

theorem countedTime_injective : Function.Injective countedTime := by
  intro t t' h
  have hlength := congrArg List.length (Json.arr.inj h)
  rw [List.length_replicate, List.length_replicate] at hlength
  exact Encodable.encode_injective hlength

def countedExport : ExportRuntime where
  floats := bitText
  timeJson := countedTime
  isValue_timeJson := fun _ => .arr fun _ hv => List.eq_of_mem_replicate hv ▸ .null
  timeJson_injective := countedTime_injective
  secondsAsF64 := fun _ => 0
  isFinite_secondsAsF64 := fun _ => rfl

example : serializeSiemAdapterPayload countedExport [] .elasticBulk "index" = "" := rfl

end Compliance
end SecureAgnt

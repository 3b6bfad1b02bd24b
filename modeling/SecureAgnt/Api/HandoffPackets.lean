/-
Handoff packets, which are memory records of one kind below one scope.

The endpoint of the packets writes their contents itself, but the endpoint of the memory
records takes any content under the same kind and scope.  The listing decodes what it
finds and fails on the first record that does not name its sender; it also filters by
the columns and the text of the content, and answers with what it decodes.
`packets_listed` is about the requests that do not come between the two.
-/
import SecureAgnt.Api.Capacity
import SecureAgnt.Api.MemoryRecords

namespace SecureAgnt
namespace Api

open Handler (PoolReaches)
open Storage (Backend)

/-! ## Packets -/

structure HandoffPacketResponse where
  packetId : Uuid
  memoryId : Uuid
  tenantId : String
  fromAgentId : Uuid
  toAgentId : Uuid
  runId : Option Uuid
  stepId : Option Uuid
  scope : String
  title : String
  payloadJson : Json
  source : String
  redactionApplied : Bool
  expiresAt : Option Int
  createdAt : Int

/-- The text of a field of the content. -/
def contentText (content : Json) (field : String) : Option String :=
  (content.get? field).bind Json.asStr?

/-- A field of the content that is the text of an identifier. -/
def contentUuid (rt : ApiRuntime) (content : Json) (field : String) : Option Uuid :=
  (contentText content field).bind rt.parseUuid

def handoffPacketFromMemoryRecord (rt : ApiRuntime) (record : MemoryRow) :
    ApiResult HandoffPacketResponse :=
  match contentUuid rt record.contentJson "from_agent_id" with
  | none =>
    .error (.internal ("handoff memory record " ++ record.id.text ++ " missing from_agent_id"))
  | some fromAgentId =>
    .ok
      { packetId := (contentUuid rt record.contentJson "packet_id").getD record.id
        memoryId := record.id
        tenantId := record.key.tenantId
        fromAgentId := fromAgentId
        toAgentId := (contentUuid rt record.contentJson "to_agent_id").getD record.key.agentId
        runId := record.runId
        stepId := record.stepId
        scope := record.key.scope
        title := (record.summaryText.or (contentText record.contentJson "title")).getD "handoff"
        payloadJson := (record.contentJson.get? "payload_json").getD record.contentJson
        source := record.source
        redactionApplied := record.redactionApplied
        expiresAt := record.expiresAt
        createdAt := record.createdAt }

/-! ## The listing -/

structure HandoffPacketQuery where
  limit : Option Int := none
  toAgentId : Option Uuid := none
  fromAgentId : Option Uuid := none

/-- The tenant, kind and scope of a packet that is neither compacted nor expired. -/
def MemoryRow.isHandoff (b : Backend) (now : Int) (tenantId : String) (row : MemoryRow) : Bool :=
  row.key.tenantId = tenantId && row.key.memoryKind = .handoff &&
    scopeLike b row.key.scope "memory:handoff/%" && row.isActive b now

/-- The columns that the filters of the query look at.  Only a string of the content can
have the text of an identifier. -/
def MemoryRow.isAddressed (query : HandoffPacketQuery) (row : MemoryRow) : Bool :=
  (query.toAgentId.all fun agent => row.key.agentId = agent) &&
    query.fromAgentId.all fun agent =>
      contentText row.contentJson "from_agent_id" = some agent.text

def listTenantHandoffMemoryRecords (b : Backend) (now : Int) (rows : List MemoryRow)
    (tenantId : String) (query : HandoffPacketQuery) (limit : Int) : List MemoryRow :=
  newestRecords b limit
    (rows.filter fun row => row.isHandoff b now tenantId && row.isAddressed query)

def admitMemoryQuery (state : AppState) (headers : HeaderMap) : ApiResult String := do
  let tenantId ← tenantFromHeaders headers
  let role ← roleFromHeaders state headers
  ensureUsageQueryRole role
  .ok tenantId

def HandoffPacketQuery.rowLimit (query : HandoffPacketQuery) : Int :=
  clampLimit (query.limit.getD 100)

def listHandoffPacketsHandler (rt : ApiRuntime) (config : ApiConfig) (now : Int)
    (rows : List MemoryRow) (headers : HeaderMap) (query : HandoffPacketQuery) :
    ApiResult (List HandoffPacketResponse) := do
  let tenantId ← admitMemoryQuery config.state headers
  (listTenantHandoffMemoryRecords config.backend now rows tenantId query query.rowLimit).mapM
    (handoffPacketFromMemoryRecord rt)

/-! ## Contents that decode to what the query looks at -/

/-- The content names its sender as the text of an identifier, and no other receiver than
the agent of the record. -/
structure NamesParties (rt : ApiRuntime) (agentId : Uuid) (content : Json) : Prop where
  sender : ∃ sender : Uuid, contentText content "from_agent_id" = some sender.text
  receiver : (contentUuid rt content "to_agent_id").getD agentId = agentId

/-- A record that the packets' queries find names its parties. -/
def MemoryRow.Addressed (rt : ApiRuntime) (b : Backend) (row : MemoryRow) : Prop :=
  row.key.memoryKind = .handoff → scopeLike b row.key.scope "memory:handoff/%" = true →
    NamesParties rt row.key.agentId row.contentJson

def HandoffPacketQuery.accepts (query : HandoffPacketQuery) (packet : HandoffPacketResponse) :
    Bool :=
  (query.toAgentId.all fun agent => packet.toAgentId = agent) &&
    query.fromAgentId.all fun agent => packet.fromAgentId = agent

/-- The record is a packet with the identifiers that the query asks for. -/
def MemoryRow.answers (rt : ApiRuntime) (b : Backend) (now : Int) (tenantId : String)
    (query : HandoffPacketQuery) (row : MemoryRow) : Bool :=
  row.isHandoff b now tenantId &&
    match handoffPacketFromMemoryRecord rt row with
    | .ok packet => query.accepts packet
    | .error _ => false

section Decoding

variable {rt : ApiRuntime} {b : Backend} {now : Int} {tenantId : String} {row : MemoryRow}
  {query : HandoffPacketQuery}

theorem isHandoff_iff : row.isHandoff b now tenantId = true ↔
    row.key.tenantId = tenantId ∧ row.key.memoryKind = .handoff ∧
      scopeLike b row.key.scope "memory:handoff/%" = true ∧ row.isActive b now = true := by
  simp only [MemoryRow.isHandoff, Bool.and_eq_true, decide_eq_true_eq, and_assoc]

theorem NamesParties.decodes (laws : ∀ u : Uuid, rt.parseUuid u.text = some u)
    (h : NamesParties rt row.key.agentId row.contentJson) :
    ∃ packet, handoffPacketFromMemoryRecord rt row = .ok packet ∧
      packet.tenantId = row.key.tenantId ∧ packet.toAgentId = row.key.agentId ∧
      contentText row.contentJson "from_agent_id" = some packet.fromAgentId.text := by
  obtain ⟨sender, hsender⟩ := h.sender
  have hfrom : contentUuid rt row.contentJson "from_agent_id" = some sender := by
    rw [contentUuid, hsender]
    exact laws sender
  refine ⟨_, by rw [handoffPacketFromMemoryRecord, hfrom], rfl, h.receiver, hsender⟩

/-- Where the parties are named, the columns say what the packet says. -/
theorem isAddressed_eq_accepts (query : HandoffPacketQuery)
    (laws : ∀ u : Uuid, rt.parseUuid u.text = some u) (haddressed : row.Addressed rt b)
    (hhandoff : row.isHandoff b now tenantId = true) :
    ∃ packet, handoffPacketFromMemoryRecord rt row = .ok packet ∧ packet.tenantId = tenantId ∧
      row.isAddressed query = query.accepts packet := by
  obtain ⟨htenant, hkind, hscope, _⟩ := isHandoff_iff.mp hhandoff
  obtain ⟨packet, hdecodes, hpacket, hto, hfrom⟩ := (haddressed hkind hscope).decodes laws
  refine ⟨packet, hdecodes, hpacket.trans htenant, ?_⟩
  unfold MemoryRow.isAddressed HandoffPacketQuery.accepts
  rw [hto, hfrom]
  have hsame : ∀ agent, decide (some packet.fromAgentId.text = some agent.text) =
      decide (packet.fromAgentId = agent) := by
    intro agent
    rw [decide_eq_decide, Option.some.injEq]
    exact ⟨fun h => Uuid.text_injective h, congrArg Uuid.text⟩
  simp only [hsame]

theorem answers_eq (laws : ∀ u : Uuid, rt.parseUuid u.text = some u)
    (haddressed : row.Addressed rt b) :
    row.answers rt b now tenantId query =
      (row.isHandoff b now tenantId && row.isAddressed query) := by
  unfold MemoryRow.answers
  by_cases hhandoff : row.isHandoff b now tenantId = true
  · obtain ⟨packet, hdecodes, _, hsame⟩ :=
      isAddressed_eq_accepts query laws haddressed hhandoff
    rw [hdecodes, hsame]
  · rw [Bool.not_eq_true] at hhandoff
    rw [hhandoff, Bool.false_and, Bool.false_and]

end Decoding

/-! ## What a good listing is -/

/-- The listing of every admitted request succeeds.  It holds only packets of the tenant with
the identifiers asked for, and every such packet that no more than the limit are as new as. -/
structure ListsPackets (rt : ApiRuntime) (config : ApiConfig) (now : Int) (rows : List MemoryRow) :
    Prop where
  listed : ∀ headers tenantId query, admitMemoryQuery config.state headers = .ok tenantId →
    ∃ packets, listHandoffPacketsHandler rt config now rows headers query = .ok packets ∧
      (∀ packet ∈ packets, packet.tenantId = tenantId ∧ query.accepts packet = true) ∧
      ∀ row ∈ rows, row.answers rt config.backend now tenantId query = true →
        (rows.countP fun other => other.answers rt config.backend now tenantId query &&
            decide (other.precedes config.backend row) : Nat) ≤ query.rowLimit →
          ∃ packet ∈ packets, handoffPacketFromMemoryRecord rt row = .ok packet

/-- Where every element has an image, the images are those of the elements. -/
theorem exists_mapM {α β ε : Type} {f : α → Except ε β} {xs : List α}
    (h : ∀ x ∈ xs, ∃ y, f x = .ok y) : ∃ ys, xs.mapM f = .ok ys ∧
      (∀ y ∈ ys, ∃ x ∈ xs, f x = .ok y) ∧ ∀ x ∈ xs, ∃ y ∈ ys, f x = .ok y := by
  induction xs with
  | nil => exact ⟨[], rfl, nofun, nofun⟩
  | cons x xs ih =>
    obtain ⟨y, hy⟩ := h x List.mem_cons_self
    obtain ⟨ys, hys, hof, hto⟩ := ih fun x hx => h x (List.mem_cons_of_mem _ hx)
    refine ⟨y :: ys, ?_, ?_, ?_⟩
    · rw [List.mapM_cons, hy, hys]
      rfl
    · intro z hz
      rcases List.mem_cons.mp hz with heq | hz
      · exact ⟨x, List.mem_cons_self, heq ▸ hy⟩
      · obtain ⟨x', hx', hz⟩ := hof z hz
        exact ⟨x', List.mem_cons_of_mem _ hx', hz⟩
    · intro z hz
      rcases List.mem_cons.mp hz with heq | hz
      · exact ⟨y, List.mem_cons_self, heq ▸ hy⟩
      · obtain ⟨y', hy', hz⟩ := hto z hz
        exact ⟨y', List.mem_cons_of_mem _ hy', hz⟩

/-- Records whose contents name their parties are listed as they should be. -/
theorem listsPackets_of_addressed {rt : ApiRuntime} {config : ApiConfig} {now : Int}
    {rows : List MemoryRow} (laws : ∀ u : Uuid, rt.parseUuid u.text = some u)
    (h : ∀ row ∈ rows, row.Addressed rt config.backend) : ListsPackets rt config now rows := by
  constructor
  intro headers tenantId query hadmits
  have hfilter : rows.filter (fun row =>
      row.isHandoff config.backend now tenantId && row.isAddressed query) =
        rows.filter fun row => row.answers rt config.backend now tenantId query := by
    apply List.filter_congr
    intro row hrow
    exact (answers_eq laws (h row hrow)).symm
  have hdecodes : ∀ row ∈ listTenantHandoffMemoryRecords config.backend now rows tenantId query
      query.rowLimit, ∃ packet, handoffPacketFromMemoryRecord rt row = .ok packet ∧
        packet.tenantId = tenantId ∧ query.accepts packet = true := by
    intro row hrow
    obtain ⟨hmem, hselected⟩ := List.mem_filter.mp (mem_of_mem_newest hrow)
    obtain ⟨hhandoff, haddressed⟩ := Bool.and_eq_true_iff.mp hselected
    obtain ⟨packet, hpacket, htenant, hsame⟩ :=
      isAddressed_eq_accepts query laws (h row hmem) hhandoff
    exact ⟨packet, hpacket, htenant, hsame ▸ haddressed⟩
  obtain ⟨packets, hpackets, hof, hto⟩ := exists_mapM fun row hrow =>
    (hdecodes row hrow).imp fun _ hpacket => hpacket.1
  refine ⟨packets, ?_, ?_, ?_⟩
  · unfold listHandoffPacketsHandler
    rw [hadmits]
    exact hpackets
  · intro packet hpacket
    obtain ⟨row, hrow, hrowPacket⟩ := hof packet hpacket
    obtain ⟨decoded, hdecoded, hfacts⟩ := hdecodes row hrow
    rw [hrowPacket, Except.ok.injEq] at hdecoded
    rw [hdecoded]
    exact hfacts
  · intro row hrow hanswers hrank
    refine hto row ?_
    unfold listTenantHandoffMemoryRecords
    rw [hfilter]
    refine mem_newest (List.mem_filter.mpr ⟨hrow, hanswers⟩) ?_
    have hidem : clampLimit query.rowLimit = query.rowLimit := by
      unfold HandoffPacketQuery.rowLimit clampLimit
      omega
    rw [List.countP_filter, hidem]
    simpa only [Bool.and_comm] using hrank

/-! ## Requests that create records -/

inductive MemoryRequest where
  | record (req : CreateMemoryRecordRequest)
  | packet (req : CreateHandoffPacketRequest)

def MemoryRequest.handler (rt : ApiRuntime) (config : ApiConfig) (headers : HeaderMap) :
    MemoryRequest → ApiProg MemoryRow
  | .record req => createMemoryRecordHandler rt config headers req
  | .packet req => createHandoffPacketHandler rt config headers req

/-- A record that the packets' queries would find names its parties. -/
def KeepsPackets (rt : ApiRuntime) (b : Backend) : MemoryRequest → Prop
  | .record req => normalizeMemoryKind req.memoryKind = some .handoff →
      scopeLike b (Text.trim req.scope) "memory:handoff/%" = true →
        NamesParties rt req.agentId (Redaction.redactJson req.contentJson)
  | .packet _ => True

section Inserts

variable {rt : ApiRuntime} {config : ApiConfig} {headers : HeaderMap} {new : NewMemoryRow}

theorem not_issues_capacity {tenantId : String} :
    ¬ (ensureTenantMemoryCapacity config tenantId).Issues (.sql (.insertMemoryRecord new)) := by
  unfold ensureTenantMemoryCapacity ensureTenantCapacity
  cases config.tenantMaxMemoryRecords with
  | none => exact id
  | some limit =>
    simp only [Prog.issues_bind, Prog.issues_ite, Prog.issues_fail, Prog.issues_pure, and_false,
      or_false, exists_false]
    intro h
    cases issues_query.mp h

theorem not_issues_validate {tenantId : String} {runId stepId : Option Uuid} :
    ¬ (validateMemoryRunAndStep tenantId runId stepId).Issues
      (.sql (.insertMemoryRecord new)) := by
  intro h
  cases ((quiet_validateMemoryRunAndStep tenantId runId stepId).calls _ h).2

theorem not_issues_audit {created : MemoryRow} {eventType context : String} {payload : Json} :
    ¬ (appendMemoryAudit created eventType payload context).Issues
      (.sql (.insertMemoryRecord new)) := by
  unfold appendMemoryAudit
  cases created.runId with
  | none => exact id
  | some runId =>
    simp only [Prog.issues_bind, issues_newUuid, reduceCtorEq, false_or]
    intro h
    obtain ⟨id, _, h⟩ := h
    cases issues_query.mp h

theorem normalizeMemoryKind_of_check {req : CreateMemoryRecordRequest} {kind : Memory.MemoryKind}
    (h : checkMemoryScope req = .ok kind) : normalizeMemoryKind req.memoryKind = some kind := by
  unfold checkMemoryScope at h
  cases hkind : normalizeMemoryKind req.memoryKind with
  | none =>
    rw [hkind] at h
    cases h
  | some normal =>
    simp only [hkind] at h
    by_cases hempty : Text.isEmpty (Text.trim req.scope) = true
    · rw [if_pos hempty] at h
      cases h
    · rw [if_neg hempty] at h
      by_cases hallowed :
          Policy.isScopeAllowedForCapability "memory.write" (Text.trim req.scope) = false
      · rw [if_pos hallowed] at h
        cases h
      · rw [if_neg hallowed, Except.ok.injEq] at h
        rw [h]

/-- What the endpoint of the memory records inserts. -/
theorem inserts_record {req : CreateMemoryRecordRequest}
    (h : (createMemoryRecordHandler rt config headers req).Issues
      (.sql (.insertMemoryRecord new))) :
    normalizeMemoryKind req.memoryKind = some new.key.memoryKind ∧
      new.key.agentId = req.agentId ∧ new.key.scope = Text.trim req.scope ∧
      new.contentJson = Redaction.redactJson req.contentJson := by
  simp only [createMemoryRecordHandler, Prog.issues_bind, Prog.issues_ofExcept,
    Prog.yields_ofExcept, not_issues_capacity, not_issues_validate, not_issues_audit,
    issues_newUuid, Prog.issues_pure, false_or, or_false, and_false, exists_false,
    reduceCtorEq] at h
  obtain ⟨tenantId, _, _, _, kind, hkind, _, _, id, _, hquery⟩ := h
  cases issues_query.mp hquery
  exact ⟨normalizeMemoryKind_of_check hkind, rfl, rfl, rfl⟩

/-- What the endpoint of the packets inserts. -/
structure PacketRow (req : CreateHandoffPacketRequest) (tenantId : String) (packetId : Uuid)
    (new : NewMemoryRow) : Prop where
  key : new.key = ⟨tenantId, req.toAgentId, .handoff,
    "memory:handoff/" ++ req.toAgentId.text ++ "/" ++ packetId.text⟩
  content : new.contentJson = .obj [("packet_id", .str packetId.text),
    ("from_agent_id", .str (req.fromAgentId.getD req.toAgentId).text),
    ("to_agent_id", .str req.toAgentId.text),
    ("title", .str (Redaction.redactText (Text.trim req.title))),
    ("payload_json", Redaction.redactJson req.payloadJson)]
  summary : new.summaryText = some (Redaction.redactText (Text.trim req.title))

theorem inserts_packet {req : CreateHandoffPacketRequest}
    (h : (createHandoffPacketHandler rt config headers req).Issues
      (.sql (.insertMemoryRecord new))) :
    ∃ tenantId packetId, admitMemoryWrite config.state headers = .ok tenantId ∧
      PacketRow req tenantId packetId new := by
  simp only [createHandoffPacketHandler, Prog.issues_bind, Prog.issues_ofExcept,
    Prog.yields_ofExcept, not_issues_capacity, not_issues_validate, not_issues_audit,
    issues_newUuid, Prog.issues_pure, Prog.issues_fail, Prog.issues_ite, false_or, or_false,
    and_false, exists_false, reduceCtorEq] at h
  obtain ⟨tenantId, hadmits, _, _, _, _, _, packetId, _, id, _, hquery⟩ := h
  have hnew := issues_query.mp hquery
  rw [ApiOp.sql.injEq, ApiQuery.insertMemoryRecord.injEq] at hnew
  refine ⟨tenantId, packetId, hadmits, ?_⟩
  rw [hnew]
  exact ⟨rfl, rfl, rfl⟩

end Inserts

/-! ## Requests in flight -/

/-- The tables, and which request has inserted the record of an identifier last. -/
structure Authored (ι : Type) where
  world : ApiWorld
  author : Uuid → Option ι

/-- Only the columns of the compaction differ. -/
def SameRecord (row row' : MemoryRow) : Prop :=
  row' = { row with compactedAt := row'.compactedAt, updatedAt := row'.updatedAt }

/-- Everything else that goes on: the clock runs, records are compacted and purged, and
the other tables change. -/
structure Upkeep {ι : Type} (s s' : Authored ι) : Prop where
  memoryRecords : ∀ row' ∈ s'.world.memoryRecords, ∃ row ∈ s.world.memoryRecords,
    SameRecord row row'
  author : s'.author = s.author

/-- The request is the author of the record that it has inserted. -/
def signs {ι : Type} [DecidableEq ι] (request : ι) (op : ApiOp) (w w' : ApiWorld)
    (author : Uuid → Option ι) : Uuid → Option ι :=
  match op with
  | .sql (.insertMemoryRecord new) =>
    if w'.memoryRecords.length = w.memoryRecords.length then author
    else Function.update author new.id (some request)
  | _ => author

/-- The statements of a request, any of which can fail. -/
def memoryHandler {ι : Type} [DecidableEq ι] (b : Backend) (request : ι) :
    Handler ApiOp ApiOp.Ans (Authored ι) :=
  Handler.interfered ⟨fun s op answer s' => apiStep b true s.world op answer s'.world ∧
    s'.author = signs request op s.world s'.world s.author⟩ Upkeep

section Authored

variable {ι : Type}

def memoryPrograms (rt : ApiRuntime) (config : ApiConfig)
    (requests : ι → HeaderMap × MemoryRequest) (i : ι) :
    Prog (ι × ApiOp) (fun o => ApiOp.Ans o.2) ApiError MemoryRow :=
  ((requests i).2.handler rt config (requests i).1).tag i

/-- Some run of the request inserts the record. -/
def Inserts (rt : ApiRuntime) (config : ApiConfig) (request : HeaderMap × MemoryRequest)
    (row : MemoryRow) : Prop :=
  ∃ new now, (request.2.handler rt config request.1).Issues (.sql (.insertMemoryRecord new)) ∧
    SameRecord (new.stored config.backend now) row

/-- Every record has an author, which has inserted it. -/
def Attributed (rt : ApiRuntime) (config : ApiConfig) (requests : ι → HeaderMap × MemoryRequest)
    (s : Authored ι) : Prop :=
  ∀ row ∈ s.world.memoryRecords, ∃ i, s.author row.id = some i ∧
    Inserts rt config (requests i) row

theorem SameRecord.id {row row' : MemoryRow} (h : SameRecord row row') : row'.id = row.id :=
  congrArg (·.id) h

theorem SameRecord.trans {row row' row'' : MemoryRow} (h : SameRecord row row')
    (h' : SameRecord row' row'') : SameRecord row row'' := by
  unfold SameRecord at *
  rw [h'.trans (by rw [h])]

section Statements

variable {b : Backend} {w w' : ApiWorld}

/-- What a statement does to the memory records. -/
inductive RecordEffect (b : Backend) (w w' : ApiWorld) (op : ApiOp) : Prop
  | same (hrows : w'.memoryRecords = w.memoryRecords)
  | inserted (new : NewMemoryRow) (hop : op = .sql (.insertMemoryRecord new))
      (hfree : new.id ∉ w.memoryRecords.map (·.id))
      (hrows : w'.memoryRecords = w.memoryRecords ++ [new.stored b w.clock])

theorem recordEffect_of_query {q : ApiQuery} {result : q.Result}
    (h : queryEffect b w q result w') : RecordEffect b w w' (.sql q) := by
  cases q with
  | countTenantTriggers tenantId => exact .same (by rw [h.2])
  | countTenantMemoryRecords tenantId => exact .same (by rw [h.2])
  | getTrigger tenantId triggerId => exact .same (by rw [h.2])
  | findHeartbeatTrigger tenantId agentId candidate schedule => exact .same (by rw [h.2.2])
  | getRunStatus tenantId runId => exact .same (by rw [h.2])
  | countSteps stepId runId tenantId => exact .same (by rw [h.2])
  | appendTriggerAuditEvent event => exact .same (by rw [h.2])
  | appendAuditEvent event => exact .same (by rw [h.2])
  | insertTrigger new => exact .same (by rw [h.2.2])
  | updateTriggerConfig tenantId triggerId update => exact .same (by rw [h.2.2]; rfl)
  | insertMemoryRecord new =>
    obtain ⟨hallows, rfl, hworld⟩ := h
    exact .inserted new rfl hallows.1 (by rw [hworld])

theorem recordEffect_of_step {op : ApiOp} {answer : op.Ans} (h : apiStep b true w op answer w') :
    RecordEffect b w w' op := by
  cases op with
  | nowUtc => exact .same (by rw [h.2])
  | newUuid => exact .same (by rw [h.2])
  | loadHeartbeat tenantId agentId =>
    have hsame : w' = w := h
    exact .same (by rw [hsame])
  | sql q =>
    cases answer with
    | ok result => exact recordEffect_of_query h
    | error message =>
      rcases h with ⟨hsame, _⟩ | ⟨_, hsame | ⟨result, heffect⟩⟩
      · exact .same (by rw [hsame])
      · exact .same (by rw [hsame])
      · exact recordEffect_of_query heffect

end Statements

variable {rt : ApiRuntime} {config : ApiConfig} {requests : ι → HeaderMap × MemoryRequest}
  {s s' : Authored ι}

theorem attributed_upkeep (h : Attributed rt config requests s) (hmove : Upkeep s s') :
    Attributed rt config requests s' := by
  intro row' hrow'
  obtain ⟨row, hrow, hsame⟩ := hmove.memoryRecords row' hrow'
  obtain ⟨i, hauthor, new, now, hissues, hstored⟩ := h row hrow
  rw [hmove.author, hsame.id]
  exact ⟨i, hauthor, new, now, hissues, hstored.trans hsame⟩

theorem attributed_step [DecidableEq ι] {i : ι} {op : ApiOp} {answer : op.Ans}
    (h : Attributed rt config requests s)
    (hissues : ((requests i).2.handler rt config (requests i).1).Issues op)
    (hstep : (memoryHandler config.backend i).step s op answer s') :
    Attributed rt config requests s' := by
  obtain ⟨mid, hmove, hcall, hauthor⟩ := hstep
  have hmid := attributed_upkeep h hmove
  rcases recordEffect_of_step hcall with ⟨hrows⟩ | ⟨new, rfl, hfree, hrows⟩
  · have hsame : s'.author = mid.author := by
      rw [hauthor]
      unfold signs
      split
      · rw [if_pos (by rw [hrows])]
      · rfl
    intro row hrow
    rw [hsame]
    exact hmid row (hrows ▸ hrow)
  · have hsigned : s'.author = Function.update mid.author new.id (some i) := by
      rw [hauthor]
      exact if_neg (by rw [hrows, List.length_append, List.length_singleton]; omega)
    intro row hrow
    rw [hrows] at hrow
    rw [hsigned]
    rcases List.mem_append.mp hrow with hrow | hrow
    · have hne : row.id ≠ new.id := fun heq => hfree (heq ▸ List.mem_map_of_mem hrow)
      rw [Function.update_of_ne hne]
      exact hmid row hrow
    · rw [List.mem_singleton.mp hrow]
      exact ⟨i, Function.update_self .., new, mid.world.clock, hissues, rfl⟩

theorem attributed_of_reaches [DecidableEq ι] {w : ApiWorld} (hempty : w.memoryRecords = [])
    {ps : ι → Prog (ι × ApiOp) (fun o => ApiOp.Ans o.2) ApiError MemoryRow}
    (hreach : PoolReaches (Handler.tagged (memoryHandler config.backend))
      (⟨w, fun _ => none⟩, memoryPrograms rt config requests) (s, ps)) :
    Attributed rt config requests s := by
  let issued : ι → Contract (Authored ι) ApiOp := fun i =>
    ⟨fun _ _ => True, fun _ _ => True,
      fun _ op => ((requests i).2.handler rt config (requests i).1).Issues op,
      fun _ => trivial, fun _ _ => trivial⟩
  have hwp : ∀ i, Handler.wp (memoryHandler config.backend i) (issued i)
      ((requests i).2.handler rt config (requests i).1) (fun _ _ => True) ⟨w, fun _ => none⟩ :=
    fun i => Handler.wp_of_issues (fun _ _ _ _ => trivial)
      (fun op hop _ _ => ⟨hop, fun _ _ _ => ⟨trivial, trivial⟩⟩) trivial
  have hmoves := (Handler.reaches_of_taggedPool (fun _ _ _ _ _ _ => trivial) hwp hreach).1
  clear hreach
  induction hmoves with
  | refl =>
    intro row hrow
    rw [hempty] at hrow
    cases hrow
  | tail _ hstep ih =>
    obtain ⟨i, op, answer, hissues, hcall⟩ := hstep
    exact attributed_step ih hissues hcall

/-! ## What the records decode to -/

/-- A record of a good request names its parties where the packets' queries find it. -/
theorem addressed_of_inserts (laws : ∀ u : Uuid, rt.parseUuid u.text = some u)
    {request : HeaderMap × MemoryRequest} {row : MemoryRow}
    (hkeeps : KeepsPackets rt config.backend request.2) (h : Inserts rt config request row) :
    row.Addressed rt config.backend := by
  obtain ⟨new, now, hissues, hsame⟩ := h
  intro hkind hscope
  rw [hsame] at hkind hscope ⊢
  obtain ⟨headers, request⟩ := request
  cases request with
  | record req =>
    obtain ⟨hnormal, hagent, hscopes, hcontent⟩ := inserts_record hissues
    have hnamed := hkeeps (hnormal.trans (congrArg some hkind)) (hscopes ▸ hscope)
    rw [← hagent, ← hcontent] at hnamed
    exact hnamed
  | packet req =>
    obtain ⟨tenantId, packetId, _, hrow⟩ := inserts_packet hissues
    have hagent : new.key.agentId = req.toAgentId := by rw [hrow.key]
    show NamesParties rt new.key.agentId new.contentJson
    rw [hagent, hrow.content]
    refine ⟨⟨_, rfl⟩, ?_⟩
    have hto : contentUuid rt (.obj [("packet_id", .str packetId.text),
        ("from_agent_id", .str (req.fromAgentId.getD req.toAgentId).text),
        ("to_agent_id", .str req.toAgentId.text),
        ("title", .str (Redaction.redactText (Text.trim req.title))),
        ("payload_json", Redaction.redactJson req.payloadJson)]) "to_agent_id" =
          some req.toAgentId := laws req.toAgentId
    rw [hto]
    rfl

/-- A packet is listed as it was created. -/
structure ListedAsCreated (rt : ApiRuntime) (config : ApiConfig) (now : Int) (headers : HeaderMap)
    (req : CreateHandoffPacketRequest) (row : MemoryRow) : Prop where
  found : ∃ tenantId, tenantFromHeaders headers = .ok tenantId ∧
    row.isHandoff config.backend now tenantId = true
  decoded : ∃ packet, handoffPacketFromMemoryRecord rt row = .ok packet ∧
    packet.memoryId = row.id ∧ packet.fromAgentId = req.fromAgentId.getD req.toAgentId ∧
    packet.toAgentId = req.toAgentId ∧
    packet.title = Redaction.redactText (Text.trim req.title) ∧
    packet.payloadJson = Redaction.redactJson req.payloadJson

theorem admitMemoryWrite_tenant {state : AppState} {headers : HeaderMap} {tenantId : String}
    (h : admitMemoryWrite state headers = .ok tenantId) :
    tenantFromHeaders headers = .ok tenantId := by
  unfold admitMemoryWrite at h
  simp only [bind, Except.bind] at h
  cases htenant : tenantFromHeaders headers with
  | error e =>
    rw [htenant] at h
    cases h
  | ok tenant =>
    simp only [htenant] at h
    cases hrole : roleFromHeaders state headers with
    | error e =>
      rw [hrole] at h
      cases h
    | ok role =>
      simp only [hrole] at h
      cases hwrite : ensureMemoryWriteRole role with
      | error e =>
        rw [hwrite] at h
        cases h
      | ok done =>
        rw [hwrite] at h
        exact h

theorem listedAsCreated_of_inserts (laws : ∀ u : Uuid, rt.parseUuid u.text = some u)
    {headers : HeaderMap} {req : CreateHandoffPacketRequest} {row : MemoryRow} {now : Int}
    (h : Inserts rt config (headers, .packet req) row)
    (hactive : row.isActive config.backend now = true) :
    ListedAsCreated rt config now headers req row := by
  obtain ⟨new, time, hissues, hsame⟩ := h
  obtain ⟨tenantId, packetId, hadmits, hrow⟩ := inserts_packet hissues
  have hkey : row.key = new.key := congrArg (·.key) hsame
  have hcontent : row.contentJson = new.contentJson := congrArg (·.contentJson) hsame
  have hsummary : row.summaryText = new.summaryText := congrArg (·.summaryText) hsame
  rw [hrow.key] at hkey
  rw [hrow.content] at hcontent
  rw [hrow.summary] at hsummary
  constructor
  · refine ⟨tenantId, admitMemoryWrite_tenant hadmits, isHandoff_iff.mpr ?_⟩
    rw [hkey]
    refine ⟨rfl, rfl, ?_, hactive⟩
    have hstart : Text.startsWith
        ("memory:handoff/" ++ req.toAgentId.text ++ "/" ++ packetId.text) "memory:handoff/" =
          true := by
      rw [Text.startsWith_iff]
      simp only [String.toList_append, List.append_assoc]
      exact List.prefix_append _ _
    have hletters : ("memory:handoff/".toList.all fun c => decide (Like.Bare c)) = true := by decide
    exact like_of_startsWith
      (fun c hc => of_decide_eq_true (List.all_eq_true.mp hletters c hc)) hstart
  · have hfrom : contentUuid rt row.contentJson "from_agent_id" =
        some (req.fromAgentId.getD req.toAgentId) := by
      rw [hcontent]
      exact laws _
    have hto : contentUuid rt row.contentJson "to_agent_id" = some req.toAgentId := by
      rw [hcontent]
      exact laws _
    unfold handoffPacketFromMemoryRecord
    rw [hfrom, hto, hsummary, hcontent]
    exact ⟨_, rfl, rfl, rfl, rfl, rfl, rfl⟩

/-! ## Every run -/

/-- Any number of records and packets are created at once, on either back end, while
everything else goes on.  If every request for a record that the packets' queries would find
names its parties, the listing is good at every moment, and a packet that is neither
expired nor compacted decodes to what it was created with. -/
theorem packets_listed [DecidableEq ι] (rt : ApiRuntime)
    (laws : ∀ u : Uuid, rt.parseUuid u.text = some u) (config : ApiConfig)
    (requests : ι → HeaderMap × MemoryRequest)
    (hkeeps : ∀ i, KeepsPackets rt config.backend (requests i).2) {w : ApiWorld}
    (hempty : w.memoryRecords = []) {s : Authored ι}
    {ps : ι → Prog (ι × ApiOp) (fun o => ApiOp.Ans o.2) ApiError MemoryRow}
    (hreach : PoolReaches (Handler.tagged (memoryHandler config.backend))
      (⟨w, fun _ => none⟩, memoryPrograms rt config requests) (s, ps)) :
    ListsPackets rt config s.world.clock s.world.memoryRecords ∧
      ∀ row ∈ s.world.memoryRecords, row.isActive config.backend s.world.clock = true →
        ∀ i req, s.author row.id = some i → (requests i).2 = .packet req →
          ListedAsCreated rt config s.world.clock (requests i).1 req row := by
  have hattributed := attributed_of_reaches hempty hreach
  constructor
  · apply listsPackets_of_addressed laws
    intro row hrow
    obtain ⟨i, _, hinserts⟩ := hattributed row hrow
    exact addressed_of_inserts laws (hkeeps i) hinserts
  · intro row hrow hactive i req hauthor hrequest
    obtain ⟨j, hauthor', hinserts⟩ := hattributed row hrow
    rw [hauthor, Option.some.injEq] at hauthor'
    rw [← hauthor', ← Prod.eta (requests i), hrequest] at hinserts
    exact listedAsCreated_of_inserts laws hinserts hactive

/-- A statement with nothing else going on before it. -/
theorem memoryStep [DecidableEq ι] {b : Backend} {request : ι} {w' : ApiWorld} {op : ApiOp}
    {answer : op.Ans} (h : apiStep b true s.world op answer w') :
    (memoryHandler b request).step s op answer
      ⟨w', signs request op s.world w' s.author⟩ :=
  ⟨s, ⟨fun row hrow => ⟨row, hrow, rfl⟩, rfl⟩, h, rfl⟩

end Authored

/-! ## One request -/

def packetRuntime : ApiRuntime := { bareRuntime with parseUuid := Uuid.parseHyphenated }

def openConfig : ApiConfig := ⟨.sqlite, {}, none, none⟩

def tenantOne : HeaderMap := [("x-tenant-id", ⟨some "tenant-1"⟩)]

/-- A note of the kind and the scope of a packet. -/
def aNote : CreateMemoryRecordRequest where
  agentId := anAgent
  memoryKind := "handoff"
  scope := "memory:handoff/note"
  contentJson := .obj []

def noteRow : MemoryRow where
  id := .repeated 1
  key := ⟨"tenant-1", anAgent, .handoff, "memory:handoff/note"⟩
  runId := none
  stepId := none
  expiresAt := none
  createdAt := 0
  updatedAt := 0
  compactedAt := none
  contentJson := .obj []
  summaryText := none
  source := "api"
  redactionApplied := false

theorem note_reached : ∃ s ps, PoolReaches (Handler.tagged (memoryHandler openConfig.backend))
      (⟨noTriggers, fun _ => none⟩,
        memoryPrograms packetRuntime openConfig fun _ : Unit => (tenantOne, .record aNote)) (s, ps) ∧
    s.world.clock = 0 ∧ s.world.memoryRecords = [noteRow] := by
  have hstart : PoolReaches (Handler.tagged (memoryHandler openConfig.backend))
      (⟨noTriggers, fun _ => none⟩, memoryPrograms packetRuntime openConfig fun _ : Unit =>
        (tenantOne, .record aNote)) _ := .refl
  have hready := (hstart.focus (i := ()) rfl).then_call (.repeated 1) _
    (memoryStep ⟨by decide, rfl⟩)
  have hinserted := hready.then_call (.ok noteRow) _
    (memoryStep ⟨by exact ⟨by decide, by decide, nofun, nofun⟩, rfl, rfl⟩)
  exact ⟨_, _, hinserted, rfl, rfl⟩

/-- A note that the other endpoint accepts makes every listing of its tenant fail. -/
theorem listing_broken : ¬ ∀ (requests : Unit → HeaderMap × MemoryRequest) (s : Authored Unit)
    (ps : Unit → Prog (Unit × ApiOp) (fun o => ApiOp.Ans o.2) ApiError MemoryRow),
    PoolReaches (Handler.tagged (memoryHandler openConfig.backend))
      (⟨noTriggers, fun _ => none⟩, memoryPrograms packetRuntime openConfig requests) (s, ps) →
      ListsPackets packetRuntime openConfig s.world.clock s.world.memoryRecords := by
  intro h
  obtain ⟨s, ps, hreach, hclock, hrows⟩ := note_reached
  have hlists := h _ s ps hreach
  rw [hclock, hrows] at hlists
  obtain ⟨packets, hlisted, _⟩ := hlists.listed tenantOne "tenant-1" {} rfl
  have hselected : listTenantHandoffMemoryRecords openConfig.backend 0 [noteRow] "tenant-1" {}
      (HandoffPacketQuery.rowLimit {}) = [noteRow] := by rfl
  have hmapped : (listTenantHandoffMemoryRecords openConfig.backend 0 [noteRow] "tenant-1" {}
      (HandoffPacketQuery.rowLimit {})).mapM (handoffPacketFromMemoryRecord packetRuntime) =
        .ok packets := hlisted
  rw [hselected] at hmapped
  cases hmapped

/-! A packet, and then a note that names its sender as a packet does. -/

def aPacket : CreateHandoffPacketRequest where
  toAgentId := anAgent
  fromAgentId := some (.repeated 8)
  title := "plan"
  payloadJson := .obj [("step", .nat 1)]

def aSignedNote : CreateMemoryRecordRequest :=
  { aNote with contentJson := .obj [("from_agent_id", .str (Uuid.repeated 7).text)] }

def packetAndNote : Bool → HeaderMap × MemoryRequest
  | true => (tenantOne, .packet aPacket)
  | false => (tenantOne, .record aSignedNote)

theorem keepsPackets_packetAndNote (i : Bool) :
    KeepsPackets packetRuntime openConfig.backend (packetAndNote i).2 := by
  cases i with
  | true => trivial
  | false => exact fun _ _ => ⟨⟨.repeated 7, by decide +kernel⟩, by decide +kernel⟩

/-- Both are listed, and only the note where its sender is asked for. -/
theorem packet_and_note_listed : ∃ s : Authored Bool,
    (∃ ps, PoolReaches (Handler.tagged (memoryHandler openConfig.backend))
      (⟨noTriggers, fun _ => none⟩, memoryPrograms packetRuntime openConfig packetAndNote)
      (s, ps)) ∧
    (listHandoffPacketsHandler packetRuntime openConfig s.world.clock s.world.memoryRecords
        tenantOne { fromAgentId := some (.repeated 7) }).map (·.map (·.memoryId)) =
      .ok [.repeated 3] ∧
    ListsPackets packetRuntime openConfig s.world.clock s.world.memoryRecords ∧
    ∃ row ∈ s.world.memoryRecords, row.id = .repeated 2 ∧
      ListedAsCreated packetRuntime openConfig s.world.clock tenantOne aPacket row := by
  have hstart : PoolReaches (Handler.tagged (memoryHandler openConfig.backend))
      (⟨noTriggers, fun _ => none⟩, memoryPrograms packetRuntime openConfig packetAndNote) _ := .refl
  have hready := ((hstart.focus (i := true) rfl).then_call (.repeated 1) _
    (memoryStep ⟨by decide, rfl⟩)).then_call (.repeated 2) _ (memoryStep ⟨by decide, rfl⟩)
  have hpacket := hready.then_call (.ok _) _
    (memoryStep ⟨by exact ⟨by decide, by decide, nofun, nofun⟩, rfl, rfl⟩)
  have hready' := (hpacket.focus (i := false) rfl).then_call (.repeated 3) _
    (memoryStep ⟨by decide, rfl⟩)
  have hnote := hready'.then_call (.ok _) _
    (memoryStep ⟨by exact ⟨by decide, by decide, nofun, nofun⟩, rfl, rfl⟩)
  have hlisted := packets_listed packetRuntime Uuid.parseHyphenated_text openConfig packetAndNote
    keepsPackets_packetAndNote rfl hnote
  exact ⟨_, ⟨_, hnote⟩, by decide +kernel, hlisted.1, _, List.mem_cons_self, rfl,
    hlisted.2 _ List.mem_cons_self rfl true aPacket rfl rfl⟩

end Api
end SecureAgnt

/-
One active run under each key.

Over every interleaving of requests, workers and manual fires a tenant has at most one
active run under a key, a request that is answered with a run it did not create is
answered with one that it could have created, and a run that a request reports as
created is its own and has one event that says so.
-/
import SecureAgnt.Lib.Tabled
import SecureAgnt.Runs.DedupeInv

namespace SecureAgnt
namespace Runs

open Storage
open Policy
open Json (Reordered)
open Worker (AuditEvent)

variable {rt : DedupeRuntime} {tenantId tenantId' : String} {role role' : RolePreset}
  {req req' : CreateRunRequest} {ι : Type}

/-! ## Programs -/

def storeContract (rt : DedupeRuntime) (clients : ι → StoreClient) (old : List String) (i : ι) :
    Contract (RunStore ι) StoreOp where
  rely := fun s s' => DedupeInv rt clients old s → DedupeInv rt clients old s' ∧ Stands i s s'
  guarantee := fun s s' => DedupeInv rt clients old s →
    DedupeInv rt clients old s' ∧ ∀ j, j ≠ i → Stands j s s'
  safe := fun _ _ => True
  rely_refl := fun s h => ⟨h, .refl s⟩
  rely_trans := by
    intro s₁ s₂ s₃ h h' hinv
    obtain ⟨hinv₂, hstands⟩ := h hinv
    obtain ⟨hinv₃, hstands'⟩ := h' hinv₂
    exact ⟨hinv₃, hstands.trans hstands'⟩

/-- The response shows what never changes of the run. -/
structure Describes (response : RunResponse) (run : RunRow) (requestedCapabilities : Json) :
    Prop where
  id : response.id = run.id
  tenantId : response.tenantId = run.tenantId
  agentId : response.agentId = run.agentId
  triggeredByUserId : response.triggeredByUserId = run.triggeredByUserId
  recipeId : response.recipeId = run.recipeId
  traceId : response.traceId = extractTraceIdFromRunInput run.inputJson
  requestedCapabilities : response.requestedCapabilities = requestedCapabilities
  grantedCapabilities : response.grantedCapabilities = run.grantedCapabilities

/-- The client looked up an active run that answers its request. -/
def FoundRun (clients : ι → StoreClient) (i : ι) (s : RunStore ι) (response : RunResponse) : Prop :=
  ∀ tenantId role req, clients i = .createRun tenantId role req →
    ∃ run requestedCapabilities, .found i run ∈ s.notes ∧ run.isActive = true ∧
      Answers tenantId role req run requestedCapabilities ∧
      Describes response run requestedCapabilities

/-- The client inserted the run, and it is reported once. -/
def CreatedRun (i : ι) (s : RunStore ι) (response : RunResponse) : Prop :=
  .inserted i response.id ∈ s.notes ∧ s.creations response.id = 1

def Answered (clients : ι → StoreClient) (i : ι) (s : RunStore ι) :
    Except ApiError (Option (StatusCode × RunResponse)) → Prop
  | .ok (some (.ok, response)) => FoundRun clients i s response
  | .ok (some (.created, response)) => CreatedRun i s response
  | _ => True

section Programs

variable {clients : ι → StoreClient} {old : List String} {s s' : RunStore ι} {i : ι} {b : Backend}
  {concurrent : Bool} {α β : Type}

theorem FoundRun.stable {response : RunResponse} (h : FoundRun clients i s response)
    (hstands : Stands i s s') : FoundRun clients i s' response := by
  intro tenantId role req hclient
  obtain ⟨run, requested, hnote, hrest⟩ := h tenantId role req hclient
  exact ⟨run, requested, hstands.notes _ hnote, hrest⟩

theorem CreatedRun.stable {response : RunResponse} (h : CreatedRun i s response)
    (hstands : Stands i s s') : CreatedRun i s' response := by
  refine ⟨hstands.notes _ h.1, ?_⟩
  rw [hstands.creations _ h.1]
  exact h.2

theorem Answered.stable {r : Except ApiError (Option (StatusCode × RunResponse))}
    (h : Answered clients i s r) (hstands : Stands i s s') : Answered clients i s' r := by
  unfold Answered at h ⊢
  split
  · exact FoundRun.stable h hstands
  · exact CreatedRun.stable h hstands
  · trivial

/-- A call from a state of which the client knows `F`. -/
theorem wp_askStore {op : StoreOp} {f : StoreAns op → StoreProg α}
    {Q : RunStore ι → Except ApiError α → Prop} {F : RunStore ι → Prop}
    (hstable : ∀ s s', F s → Stands i s s' → F s') (hinv : DedupeInv rt clients old s) (hF : F s)
    (hsafe : ∀ s, DedupeInv rt clients old s → F s → StoreSafe rt clients i s op)
    (hnext : ∀ s answer s', DedupeInv rt clients old s → F s →
      storeStep b concurrent i s op answer s' → DedupeInv rt clients old s' →
      Handler.wp (storeHandler b concurrent i) (storeContract rt clients old i) (f answer) Q s') :
    Handler.wp (storeHandler b concurrent i) (storeContract rt clients old i)
      (askStore op >>= f) Q s := by
  refine Handler.wp_perform_bind fun s₁ hrely => ⟨trivial, ?_⟩
  intro answer s₂ hstep
  obtain ⟨hinv₁, hstands⟩ := hrely hinv
  have hF₁ := hstable s s₁ hF hstands
  have hguarantee := guarantee_of_step hinv₁ (hsafe s₁ hinv₁ hF₁) hstep
  exact ⟨fun _ => hguarantee, hnext s₁ answer s₂ hinv₁ hF₁ hstep hguarantee.1⟩

theorem wp_pureStore {a : Option (StatusCode × RunResponse)} (hinv : DedupeInv rt clients old s)
    (h : Answered clients i s (.ok a)) :
    Handler.wp (storeHandler b concurrent i) (storeContract rt clients old i)
      (.pure a : StoreProg _) (Answered clients i) s :=
  fun _ hrely => h.stable (hrely hinv).2

theorem wp_failStore {e : ApiError} :
    Handler.wp (storeHandler b concurrent i) (storeContract rt clients old i)
      (.fail e : StoreProg (Option (StatusCode × RunResponse))) (Answered clients i) s :=
  fun _ _ => trivial

theorem wp_respond {F : RunStore ι → Prop} {status : StatusCode} {tenantId runId : String}
    (hstable : ∀ s s', F s → Stands i s s' → F s') (hinv : DedupeInv rt clients old s) (hF : F s)
    (hdone : ∀ s row, F s → row ∈ s.rows → row.id = runId →
      Answered clients i s (.ok (some (status, runToResponse (s.record row))))) :
    Handler.wp (storeHandler b concurrent i) (storeContract rt clients old i)
      (respond status tenantId runId) (Answered clients i) s := by
  refine wp_askStore hstable hinv hF (fun _ _ _ => trivial) ?_
  intro s₁ answer s₂ _ hF₁ hstep hinv₂
  cases answer with
  | error err => exact wp_failStore
  | ok found =>
    obtain ⟨hfound, rfl⟩ := hstep
    cases found with
    | none => exact wp_failStore
    | some record =>
      obtain ⟨row, hrow, rfl⟩ := Option.map_eq_some_iff.mp hfound.symm
      have hid : row.id = runId := by
        have hsel := List.find?_some hrow
        simp only [Bool.and_eq_true, decide_eq_true_eq] at hsel
        exact hsel.2
      exact wp_pureStore hinv₂ (hdone s₂ row hF₁ (List.mem_of_find?_eq_some hrow) hid)

/-- What a request knows after its insert: the run is its own and has been reported `n`
times. -/
def Reported (i : ι) (runId : String) (n : Nat) (s : RunStore ι) : Prop :=
  .inserted i runId ∈ s.notes ∧ s.creations runId = n

theorem Reported.stable {runId : String} {n : Nat} (s s' : RunStore ι) (h : Reported i runId n s)
    (hstands : Stands i s s') : Reported i runId n s' :=
  ⟨hstands.notes _ h.1, (hstands.creations _ h.1).trans h.2⟩

theorem wp_created (event : AuditEvent) {tenantId : String} (hinv : DedupeInv rt clients old s)
    (htype : event.eventType = "run.created") (h : Reported i event.runId 0 s) :
    Handler.wp (storeHandler b concurrent i) (storeContract rt clients old i)
      (askStore (.appendAuditEvent event) >>= fun appended =>
        orInternal "failed appending run.created audit event" appended >>= fun _ =>
          respond .created tenantId event.runId) (Answered clients i) s := by
  refine wp_askStore Reported.stable hinv h (fun _ _ h => h.1) ?_
  intro s₁ answer s₂ _ hreported hstep hinv₂
  cases answer with
  | error err => exact wp_failStore
  | ok _ =>
    have hnow : Reported i event.runId 1 s₂ := by
      rw [show s₂ = s₁.appended event from hstep]
      refine ⟨hreported.1, ?_⟩
      rw [creations_appended, hreported.2, if_pos ⟨rfl, htype⟩]
    refine wp_respond (F := Reported i event.runId 1) Reported.stable hinv₂ hnow ?_
    intro s₃ row hdone _ hid
    show CreatedRun i s₃ _
    exact ⟨(show (runToResponse (s₃.record row)).id = event.runId from hid) ▸ hdone.1,
      (show (runToResponse (s₃.record row)).id = event.runId from hid) ▸ hdone.2⟩

/-- What a request knows after its lookup. -/
structure Looked (i : ι) (run : RunRow) (columns : RunColumns) (s : RunStore ι) : Prop where
  note : .found i run ∈ s.notes
  row : ∃ row ∈ s.rows, SameRun run row
  columns : s.columns run.id = columns

theorem Looked.stable {run : RunRow} {columns : RunColumns} (s s' : RunStore ι)
    (h : Looked i run columns s) (hstands : Stands i s s') : Looked i run columns s' := by
  obtain ⟨row, hrow, hsame⟩ := h.row
  refine ⟨hstands.notes _ h.note, ?_, ?_⟩
  · obtain ⟨row', hrow', hsame'⟩ := hstands.persist row hrow
    exact ⟨row', hrow', hsame.trans hsame'⟩
  · rw [hstands.columns run.id (List.mem_map.mpr ⟨row, hrow, hsame.id⟩)]
    exact h.columns

theorem describes_of_looked {run row : RunRow} {columns : RunColumns} (h : Looked i run columns s)
    (hrow : row ∈ s.rows) (hid : row.id = run.id) :
    Describes (runToResponse (s.record row)) run columns.requestedCapabilities := by
  obtain ⟨row', hrow', hsame⟩ := h.row
  obtain rfl : row = row' := s.queue.runs.eq_of_id hrow hrow' (hid.trans hsame.id.symm)
  refine ⟨hsame.id, hsame.tenantId, hsame.agentId, hsame.triggeredByUserId, hsame.recipeId, ?_, ?_,
    hsame.grantedCapabilities⟩
  · show extractTraceIdFromRunInput row.inputJson = _
    rw [hsame.inputJson]
  · show (s.columns row.id).requestedCapabilities = _
    rw [hsame.id, h.columns]

theorem answers_of_active {run : RunRow} (hsha : Function.Injective rt.digestSha256Hex)
    (hinv : DedupeInv rt clients old s)
    (h : run ∈ s.activeRuns tenantId (computeRunSemanticDedupeKey rt tenantId role req)) :
    run ∈ s.rows ∧ run.isActive = true ∧
      Answers tenantId role req run (s.columns run.id).requestedCapabilities := by
  obtain ⟨hrow, hsel⟩ := List.mem_filter.mp h
  simp only [Bool.and_eq_true, decide_eq_true_eq] at hsel
  obtain ⟨⟨_, hkey⟩, hactive⟩ := hsel
  have hsome : s.key run ≠ none := by
    rw [hkey]
    exact Option.some_ne_none _
  obtain ⟨_, tenantId', role', req', _, hmade⟩ := hinv.made run hrow hsome
  exact ⟨hrow, hactive, answers_of_madeFor hsha hmade hkey⟩

theorem wp_found {run : RunRow} (hclient : clients i = .createRun tenantId role req)
    {columns : RunColumns}
    (hinv : DedupeInv rt clients old s) (hlooked : Looked i run columns s)
    (hactive : run.isActive = true)
    (hanswers : Answers tenantId role req run columns.requestedCapabilities) :
    Handler.wp (storeHandler b concurrent i) (storeContract rt clients old i)
      (respond .ok tenantId run.id) (Answered clients i) s := by
  refine wp_respond Looked.stable hinv hlooked ?_
  intro s₁ row hlooked₁ hrow hid
  show FoundRun clients i s₁ _
  intro tenantId' role' req' hclient'
  cases hclient.symm.trans hclient'
  exact ⟨run, columns.requestedCapabilities, hlooked₁.note, hactive, hanswers,
    describes_of_looked hlooked₁ hrow hid⟩

theorem wp_createRunGranted (hsha : Function.Injective rt.digestSha256Hex)
    (hclient : clients i = .createRun tenantId role req) {granted : Json}
    (hgranted : resolveGrantedCapabilities req.recipeId role req.requestedCapabilities =
      .ok granted) (hinv : DedupeInv rt clients old s) :
    Handler.wp (storeHandler b concurrent i) (storeContract rt clients old i)
      (createRunGranted rt tenantId role req granted) (Answered clients i) s := by
  refine wp_askStore (F := fun _ => True) (fun _ _ _ _ => trivial) hinv trivial
    (fun _ _ _ => trivial) ?_
  intro _ runId s _ _ _ hinv
  refine wp_askStore (F := fun _ => True) (fun _ _ _ _ => trivial) hinv trivial
    (fun _ _ _ => ⟨tenantId, role, req, granted, runId, hclient, hgranted, rfl, rfl⟩) ?_
  intro s₁ answer s₂ hinv₁ _ hstep hinv₂
  rcases answer with err | (_ | id)
  · exact wp_failStore
  · -- the key is taken
    refine wp_askStore (F := fun _ => True) (fun _ _ _ _ => trivial) hinv₂ trivial
      (fun _ _ _ => trivial) ?_
    intro s₃ answer s₄ hinv₃ _ hlookup hinv₄
    rcases answer with err | (_ | id)
    · exact wp_failStore
    · exact wp_failStore
    · obtain ⟨run, hrun, rfl, rfl⟩ := hlookup
      obtain ⟨hrow, hactive, hanswers⟩ := answers_of_active hsha hinv₃ hrun
      refine wp_found hclient hinv₄ ⟨?_, ⟨run, hrow, .refl run⟩, rfl⟩ hactive hanswers
      exact List.mem_append_right _ List.mem_cons_self
  · obtain ⟨rfl, hinsert⟩ := hstep
    refine wp_created (createdEvent tenantId role req granted _) hinv₂ rfl ?_
    obtain ⟨createdAt, hnew, _, _, hnotes, hlog⟩ := inserts_rows hinsert
    refine ⟨?_, ?_⟩
    · rw [hnotes]
      exact List.mem_append_right _ List.mem_cons_self
    · rw [RunStore.creations, hlog]
      exact hinv₁.reported _ hnew

theorem wp_createRunCommon (hsha : Function.Injective rt.digestSha256Hex)
    (hclient : clients i = .createRun tenantId role req) (hinv : DedupeInv rt clients old s) :
    Handler.wp (storeHandler b concurrent i) (storeContract rt clients old i)
      (createRunCommon rt tenantId role req) (Answered clients i) s := by
  unfold createRunCommon
  split
  · exact wp_failStore
  · next granted hgranted => exact wp_createRunGranted hsha hclient hgranted hinv

end Programs

/-! ## The others -/

theorem onStore_bind {α β : Type} (p : QueueProg α) (f : α → QueueProg β) :
    onStore (p >>= f) = onStore p >>= fun a => onStore (f a) := by
  show onStore (p.bind f) = (onStore p).bind fun a => onStore (f a)
  induction p with
  | pure a => rfl
  | fail e => rfl
  | call op k ih => simp only [Prog.bind, onStore, ih]

section Others

variable {clients : ι → StoreClient} {old : List String} {i : ι} {b : Backend}
  {concurrent : Bool} {α β : Type} {config : OnceConfig}

/-- A program of the queue keeps the invariant. -/
def KeepsStore (rt : DedupeRuntime) (clients : ι → StoreClient) (old : List String) (i : ι)
    (b : Backend) (concurrent : Bool) (p : QueueProg α) : Prop :=
  ∀ s, DedupeInv rt clients old s →
    Handler.wp (storeHandler b concurrent i) (storeContract rt clients old i) (onStore p)
      (fun s _ => DedupeInv rt clients old s) s

theorem KeepsStore.pure (a : α) : KeepsStore rt clients old i b concurrent (.pure a) :=
  fun _ hinv _ hrely => (hrely hinv).1

theorem KeepsStore.fail (e : String) :
    KeepsStore rt clients old i b concurrent (.fail e : QueueProg α) :=
  fun _ hinv _ hrely => (hrely hinv).1

theorem KeepsStore.bind {p : QueueProg α} {f : α → QueueProg β}
    (hp : KeepsStore rt clients old i b concurrent p)
    (hf : ∀ a, KeepsStore rt clients old i b concurrent (f a)) :
    KeepsStore rt clients old i b concurrent (p >>= f) := by
  intro s hinv
  rw [onStore_bind]
  exact Handler.wp_seq (hp s hinv) (fun s a hinv => hf a s hinv) fun _ _ hinv => hinv

theorem KeepsStore.ite {c : Prop} [Decidable c] {p q : QueueProg α}
    (hp : KeepsStore rt clients old i b concurrent p)
    (hq : KeepsStore rt clients old i b concurrent q) :
    KeepsStore rt clients old i b concurrent (if c then p else q) := by
  split
  · exact hp
  · exact hq

/-- A statement, and the rest from what the client then knows. -/
theorem wp_askQueue {op : QueueOp} {f : QueueAns op → QueueProg α} {s : RunStore ι}
    {F : RunStore ι → Prop} (hstable : ∀ s s', F s → Stands i s s' → F s')
    (hinv : DedupeInv rt clients old s) (hF : F s)
    (hsafe : ∀ s, F s → StoreSafe rt clients i s (.queue op))
    (hnext : ∀ s answer s', storeStep b concurrent i s (.queue op) answer s' →
      DedupeInv rt clients old s' → Handler.wp (storeHandler b concurrent i)
        (storeContract rt clients old i) (onStore (f answer))
        (fun s _ => DedupeInv rt clients old s) s') :
    Handler.wp (storeHandler b concurrent i) (storeContract rt clients old i)
      (onStore (askQueue op >>= f)) (fun s _ => DedupeInv rt clients old s) s := by
  rw [onStore_bind]
  show Handler.wp _ _ (askStore (.queue op) >>= fun answer => onStore (f answer)) _ s
  refine wp_askStore hstable hinv hF (fun s _ hF => hsafe s hF) ?_
  intro s₁ answer s₂ _ _ hstep hinv₂
  exact hnext s₁ answer s₂ hstep hinv₂

theorem KeepsStore.ask {op : QueueOp} (hop : ∀ runId, ¬ op.Reports runId) :
    KeepsStore rt clients old i b concurrent (askQueue op) := by
  intro s hinv
  show Handler.wp _ _ (onStore (askQueue op >>= .pure)) _ s
  refine wp_askQueue (F := fun _ => True) (fun _ _ _ _ => trivial) hinv trivial
    (fun _ _ runId hreports => absurd hreports (hop runId)) ?_
  intro _ answer s' _ hinv'
  exact KeepsStore.pure answer s' hinv'

theorem KeepsStore.tryQueue {p : QueueProg (Except String α)}
    (h : KeepsStore rt clients old i b concurrent p) :
    KeepsStore rt clients old i b concurrent (tryQueue p) := by
  refine .bind h fun answer => ?_
  cases answer with
  | ok a => exact .pure a
  | error e => exact .fail e

theorem KeepsStore.append {event : AuditEvent} (h : event.eventType ≠ "run.created") :
    KeepsStore rt clients old i b concurrent (config.append event) :=
  .tryQueue (.ask fun _ hreports => h hreports.1)

theorem keepsStore_auditRun (run : RunRow) {eventType : String} (payloadJson : Json)
    (h : eventType ≠ "run.created") :
    KeepsStore rt clients old i b concurrent (auditRun config run eventType payloadJson) :=
  .append h

/-- A run that was created without a key is there and has none. -/
def Unkeyed (runId : String) (s : RunStore ι) : Prop :=
  runId ∈ s.ids ∧ (s.columns runId).semanticDedupeKey = none

theorem Unkeyed.stable {runId : String} (s s' : RunStore ι) (h : Unkeyed runId s)
    (hstands : Stands i s s') : Unkeyed runId s' := by
  refine ⟨hstands.mem_ids h.1, ?_⟩
  rw [hstands.columns runId h.1]
  exact h.2

theorem wp_report (workerId : String) (event : AuditEvent) {s : RunStore ι}
    (hinv : DedupeInv rt clients old s) (h : Unkeyed event.runId s) :
    Handler.wp (storeHandler b concurrent i) (storeContract rt clients old i)
      (onStore (tryQueue (askQueue (.appendAuditEvent workerId event))))
      (fun s _ => DedupeInv rt clients old s) s := by
  refine wp_askQueue Unkeyed.stable hinv h ?_ ?_
  · intro s hunkeyed runId hreports
    rw [← hreports.2]
    exact hunkeyed
  · intro _ answer s' _ hinv'
    cases answer with
    | ok => exact KeepsStore.pure () s' hinv'
    | error e => exact KeepsStore.fail e s' hinv'

theorem unkeyed_of_insert {s s' : RunStore ι} {row : RunRow} {now : Int}
    {hnew : row.id ∉ s.queue.runs.rows.map (·.id)} (hcolumns : s.KeepsColumns s')
    (hqueue : s'.queue = { s.queue with clock := now, runs := s.queue.runs.insert row hnew }) :
    Unkeyed row.id s' := by
  have hrows : s'.rows = s.rows ++ [row] := by
    rw [RunStore.rows, hqueue]
    rfl
  have hid : row.id ∈ s'.ids := by
    rw [RunStore.ids, hrows]
    exact List.mem_map_of_mem (List.mem_append_right _ List.mem_cons_self)
  exact ⟨hid, hcolumns.2 row.id hid hnew⟩

theorem keepsStore_dispatchTriggers :
    KeepsStore rt clients old i b concurrent (dispatchTriggers config) := by
  refine .ite (.bind ?_ fun should => .ite ?_ (.pure ())) (.pure ())
  · refine .bind (.ask nofun) fun inflight => .ite (.pure false) (.ite (.ask nofun) (.pure true))
  · intro s hinv
    refine wp_askQueue (F := fun _ => True) (fun _ _ _ _ => trivial) hinv trivial
      (fun _ _ _ hreports => hreports.elim) ?_
    intro s₁ answer s₂ hstep hinv₂
    cases answer with
    | none => exact KeepsStore.pure () s₂ hinv₂
    | some dispatched =>
      obtain ⟨⟨now, _, row, hid, _, hnew, hqueue⟩, hcolumns, _⟩ := hstep
      have hunkeyed : Unkeyed dispatched.runId s₂ := hid ▸ unkeyed_of_insert hcolumns hqueue
      exact wp_report config.workerId (dispatchEvent config dispatched) hinv₂ hunkeyed

theorem keepsStore_fireTrigger (row : RunRow) (payloadJson : Json) :
    KeepsStore rt clients old i b concurrent (fireTrigger row payloadJson) := by
  intro s hinv
  refine wp_askQueue (F := fun _ => True) (fun _ _ _ _ => trivial) hinv trivial
    (fun _ _ _ hreports => hreports.elim) ?_
  intro s₁ answer s₂ hstep hinv₂
  obtain ⟨⟨now, _, _, hnew, hqueue⟩, hcolumns, _⟩ := hstep
  exact wp_report "api" _ hinv₂ (unkeyed_of_insert hcolumns hqueue)

theorem keepsStore_clientNow : KeepsStore rt clients old i b concurrent (clientNow b) := by
  cases b with
  | postgres => exact .pure none
  | sqlite => exact .bind (.ask nofun) fun now => .pure (some now)

theorem keepsStore_claimedRow (row : RunRow) :
    KeepsStore rt clients old i b concurrent (claimedRow b row) := by
  cases b with
  | postgres => exact .pure (some row)
  | sqlite =>
    refine .bind (.ask nofun) fun found => ?_
    cases found with
    | none => exact .fail _
    | some row => exact .pure (some row)

theorem keepsStore_claimCandidates (clientTime : Option Int) (workerId : String)
    (leaseMs tenantCap : Int) (candidates : List RunRow) :
    KeepsStore rt clients old i b concurrent
      (claimCandidates b workerId clientTime leaseMs tenantCap candidates) := by
  induction candidates with
  | nil => exact .pure none
  | cons candidate candidates ih =>
    refine .bind (.ask nofun) fun count => .ite ih ?_
    refine .bind (.ask nofun) fun claimed => ?_
    cases claimed with
    | some row => exact keepsStore_claimedRow row
    | none => exact ih

theorem keepsStore_claim (workerId : String) (leaseMs globalMax tenantMax : Int) :
    KeepsStore rt clients old i b concurrent
      (claimNextQueuedRunWithLimits b workerId leaseMs globalMax tenantMax) := by
  refine .bind keepsStore_clientNow fun clientTime => ?_
  refine .bind (.ask nofun) fun candidates => .ite (.pure none) ?_
  refine .bind (.ask nofun) fun count => .ite (.pure none) ?_
  exact keepsStore_claimCandidates clientTime workerId leaseMs _ candidates

theorem keepsStore_finishProcessed (run : RunRow) (result : Except String Unit) :
    KeepsStore rt clients old i b concurrent (finishProcessed b config run result) := by
  cases result with
  | ok _ =>
    refine .bind (.bind keepsStore_clientNow fun _ => .tryQueue (.ask nofun)) fun completed => ?_
    refine .ite ?_ ?_
    · exact .bind (keepsStore_auditRun run _ (by decide)) fun _ => .pure _
    · exact .bind (.bind keepsStore_clientNow fun _ => .tryQueue (.ask nofun)) fun _ => .pure _
  | error error =>
    refine .bind (.bind keepsStore_clientNow fun _ => .tryQueue (.ask nofun)) fun _ => ?_
    exact .bind (keepsStore_auditRun run _ (by decide)) fun _ => .pure _

theorem keepsStore_processClaimed (requeuedExpiredRuns : Nat) (run : RunRow) :
    KeepsStore rt clients old i b concurrent
      (processClaimed b config requeuedExpiredRuns run) := by
  refine .bind (keepsStore_auditRun run _ (by decide)) fun _ => ?_
  refine .bind (.bind keepsStore_clientNow fun _ => .ask nofun) fun renewed => .ite ?_ ?_
  · refine .bind (keepsStore_auditRun run _ (by decide)) fun _ => ?_
    exact .bind (.bind keepsStore_clientNow fun _ => .tryQueue (.ask nofun)) fun _ => .pure _
  · refine .bind (keepsStore_auditRun run _ (by decide)) fun _ => ?_
    exact .bind (.ask nofun) fun result => keepsStore_finishProcessed run result

theorem keepsStore_appendAll (events : List AuditEvent)
    (h : ∀ event ∈ events, event.eventType ≠ "run.created") :
    KeepsStore rt clients old i b concurrent (appendAll config events) := by
  induction events with
  | nil => exact .pure ()
  | cons event events ih =>
    refine .bind (.append (h event List.mem_cons_self)) fun _ => ?_
    exact ih fun e he => h e (List.mem_cons_of_mem event he)

theorem keepsStore_compactMemory :
    KeepsStore rt clients old i b concurrent (compactMemory config) := by
  refine .ite (.bind (.ask nofun) fun groups => keepsStore_appendAll _ ?_) (.pure ())
  intro event hevent
  obtain ⟨group, _, hgroup⟩ := List.mem_filterMap.mp hevent
  obtain ⟨runId, _, rfl⟩ := Option.map_eq_some_iff.mp hgroup
  show "memory.compacted" ≠ "run.created"
  decide

theorem keepsStore_processOnce :
    KeepsStore rt clients old i b concurrent (processOnce b config) := by
  refine .bind (.ask nofun) fun requeued => ?_
  refine .bind keepsStore_compactMemory fun _ => ?_
  refine .bind (.ite (.ask nofun) (.pure ())) fun _ => ?_
  refine .bind keepsStore_dispatchTriggers fun _ => ?_
  refine .bind (keepsStore_claim _ _ _ _) fun claimed => ?_
  cases claimed with
  | some run => exact keepsStore_processClaimed requeued run
  | none => exact .pure _

theorem keepsStore_runCycles (calls : List CycleCall) :
    KeepsStore rt clients old i b concurrent (runCycles b config calls) := by
  induction calls with
  | nil => exact .pure ()
  | cons call calls ih =>
    cases call with
    | processOnce => exact .bind keepsStore_processOnce fun _ => ih
    | createRun row => exact .bind (.ask nofun) fun _ => ih

theorem wp_unanswered {s : RunStore ι} {p : QueueProg Unit}
    (hp : KeepsStore rt clients old i b concurrent p) (hinv : DedupeInv rt clients old s) :
    Handler.wp (storeHandler b concurrent i) (storeContract rt clients old i) (unanswered p)
      (Answered clients i) s :=
  Handler.wp_seq (hp s hinv) (fun _ _ _ _ _ => trivial) fun _ _ _ => trivial

theorem wp_client (hsha : Function.Injective rt.digestSha256Hex) {s : RunStore ι}
    (hinv : DedupeInv rt clients old s) (i : ι) :
    Handler.wp (storeHandler b concurrent i) (storeContract rt clients old i)
      ((clients i).program rt b) (Answered clients i) s := by
  cases hclient : clients i with
  | createRun tenantId role req => exact wp_createRunCommon hsha hclient hinv
  | worker config calls => exact wp_unanswered (keepsStore_runCycles calls) hinv
  | fireTrigger row payloadJson => exact wp_unanswered (keepsStore_fireTrigger row _) hinv

end Others

/-! ## Every interleaving -/

/-- The table when the column of keys was added: no run has a key, and audit events
are of runs that are there. -/
structure RunStore.IsMigrated (s : RunStore ι) : Prop where
  notes : s.notes = []
  keys : ∀ row ∈ s.rows, s.key row = none
  reported : ∀ runId, runId ∉ s.ids → s.creations runId = 0

theorem dedupeInv_migrated {clients : ι → StoreClient} {s : RunStore ι} (h : s.IsMigrated) :
    DedupeInv rt clients s.ids s := by
  have hnone : ∀ {i runId}, .inserted i runId ∉ s.notes := by
    intro i runId hnote
    rw [h.notes] at hnote
    cases hnote
  refine ⟨?_, ?_, h.reported, ?_, ?_, fun _ hid => hid⟩
  · intro row hrow _ _ _ _ _ _ hsome
    exact absurd (h.keys row hrow) hsome
  · intro row hrow hsome
    exact absurd (h.keys row hrow) hsome
  · intro i runId hnote
    exact absurd hnote hnone
  · intro i j runId hnote _
    exact absurd hnote hnone

theorem DedupeInv.length_activeRuns {clients : ι → StoreClient} {old : List String}
    {s : RunStore ι} (h : DedupeInv rt clients old s) (tenantId key : String) :
    (s.activeRuns tenantId key).length ≤ 1 := by
  have hsel : ∀ row ∈ s.activeRuns tenantId key,
      row ∈ s.rows ∧ row.tenantId = tenantId ∧ s.key row = some key ∧ row.isActive = true := by
    intro row hrow
    obtain ⟨hmem, hsel⟩ := List.mem_filter.mp hrow
    simp only [Bool.and_eq_true, decide_eq_true_eq] at hsel
    exact ⟨hmem, hsel.1.1, hsel.1.2, hsel.2⟩
  have hnodup : (s.activeRuns tenantId key).Nodup :=
    (s.queue.runs.keys.of_map _).filter _
  cases hruns : s.activeRuns tenantId key with
  | nil => exact Nat.zero_le 1
  | cons row rest =>
    rw [hruns] at hsel hnodup
    cases rest with
    | nil => exact Nat.le_refl 1
    | cons row' rest =>
      obtain ⟨hrow, htenant, hkey, hactive⟩ := hsel row List.mem_cons_self
      obtain ⟨hrow', htenant', hkey', hactive'⟩ :=
        hsel row' (List.mem_cons_of_mem _ List.mem_cons_self)
      have hsome : s.key row ≠ none := by
        rw [hkey]
        exact Option.some_ne_none key
      have hsame := h.unique row hrow row' hrow' hactive hactive' (htenant.trans htenant'.symm)
        (hkey.trans hkey'.symm) hsome
      rw [hsame] at hnodup
      exact absurd List.mem_cons_self (List.nodup_cons.mp hnodup).1

section Interleaving

open Handler

variable [DecidableEq ι] {clients : ι → StoreClient} {old : List String} {b : Backend}
  {concurrent : Bool} {s₀ s : RunStore ι}
  {ps : ι → Prog (ι × StoreOp) (fun o => StoreAns o.2) ApiError (Option (StatusCode × RunResponse))}

omit [DecidableEq ι] in
theorem storeContract_compat (i j : ι) (hij : i ≠ j) (s s' : RunStore ι)
    (h : ((storeContract rt clients old i).tagged ι).guarantee s s') :
    ((storeContract rt clients old j).tagged ι).rely s s' := by
  intro hinv
  obtain ⟨hinv', hstands⟩ := h hinv
  exact ⟨hinv', hstands j hij.symm⟩

theorem wp_storePool (hsha : Function.Injective rt.digestSha256Hex)
    (hinv : DedupeInv rt clients old s₀)
    (hreach : PoolReaches (tagged (storeHandler b concurrent)) (s₀, storePool rt b clients)
      (s, ps)) (i : ι) :
    wp (tagged (storeHandler b concurrent)) ((storeContract rt clients old i).tagged ι) (ps i)
      (Answered clients i) s :=
  wp_of_pool storeContract_compat
    (fun i => wp_tag (wp_client hsha hinv i)) hreach i

theorem inv_storePool (hsha : Function.Injective rt.digestSha256Hex)
    (hinv : DedupeInv rt clients old s₀)
    (hreach : PoolReaches (tagged (storeHandler b concurrent)) (s₀, storePool rt b clients)
      (s, ps)) : DedupeInv rt clients old s :=
  invariant_of_pool storeContract_compat
    (fun _ _ _ _ _ hinv _ _ hguarantee => (hguarantee hinv).1)
    (fun i => wp_tag (wp_client hsha hinv i)) hinv hreach

omit [DecidableEq ι] in
/-- What a client is noted to have found it found by its lookup. -/
theorem lookup_of_note {i j : ι} {run : RunRow} {op : StoreOp} {answer : StoreAns op}
    {s s' : RunStore ι} (hbefore : .found i run ∉ s.notes)
    (hstep : storeStep b concurrent j s op answer s') (hafter : .found i run ∈ s'.notes) :
    ∃ tenantId key, run ∈ s.activeRuns tenantId key ∧
      storeStep b concurrent i s (.getActiveRunId tenantId key) (.ok (some run.id)) s' := by
  have hsame : s' = s → ∃ tenantId key, run ∈ s.activeRuns tenantId key ∧
      storeStep b concurrent i s (.getActiveRunId tenantId key) (.ok (some run.id)) s' := by
    intro heq
    exact absurd (heq ▸ hafter) hbefore
  cases op with
  | queue op =>
    rw [hstep.2.2] at hafter
    exact absurd hafter hbefore
  | newUuid => exact hsame hstep
  | createRun new key =>
    have hinsert : s.Inserts j new key s' → ∃ tenantId key, run ∈ s.activeRuns tenantId key ∧
        storeStep b concurrent i s (.getActiveRunId tenantId key) (.ok (some run.id)) s' := by
      intro h
      obtain ⟨_, _, _, _, hnotes, _⟩ := inserts_rows h
      rw [hnotes] at hafter
      rcases List.mem_append.mp hafter with hold | hnew
      · exact absurd hold hbefore
      · cases List.mem_singleton.mp hnew
    rcases answer with err | (_ | id)
    · exact hstep.elim hsame hinsert
    · exact hsame hstep.2
    · exact hinsert hstep.2
  | getActiveRunId tenantId key =>
    rcases answer with err | (_ | id)
    · exact hsame hstep
    · exact hsame hstep.2
    · obtain ⟨row, hrow, rfl, rfl⟩ := hstep
      rcases List.mem_append.mp hafter with hold | hnew
      · exact absurd hold hbefore
      · cases List.mem_singleton.mp hnew
        exact ⟨tenantId, key, hrow, run, hrow, rfl, rfl⟩
  | appendAuditEvent event =>
    have happend : s' = s.appended event → ∃ tenantId key, run ∈ s.activeRuns tenantId key ∧
        storeStep b concurrent i s (.getActiveRunId tenantId key) (.ok (some run.id)) s' := by
      intro heq
      rw [heq] at hafter
      exact absurd hafter hbefore
    cases answer with
    | error err => exact hstep.elim hsame happend
    | ok _ => exact happend hstep
  | getRunStatus tenantId runId =>
    cases answer with
    | error err => exact hsame hstep
    | ok found => exact hsame hstep.2

/-- In every state that requests, workers and manual fires reach on either back end from
the migrated table: a tenant has at most one active run under a key; a request that is
answered with `200` looked up a run, active at that moment, that has the tenant, agent,
user, recipe and grants of the request, the requested capabilities up to the order of
fields, and the input as `inject_trace_id_into_input` makes it from the request's for
that run, up to the order of fields; and a request answered with `201` inserted a run
that was not there before, with exactly one `run.created` event. -/
theorem runs_deduped (hsha : Function.Injective rt.digestSha256Hex) (hstart : s₀.IsMigrated)
    (hreach : PoolReaches (tagged (storeHandler b concurrent)) (s₀, storePool rt b clients)
      (s, ps)) :
    (∀ tenantId key, (s.activeRuns tenantId key).length ≤ 1) ∧
    ∀ i tenantId role req response, clients i = .createRun tenantId role req →
      (ps i = .pure (some (.ok, response)) →
        ∃ run requestedCapabilities s₁ ps₁ key s₂ ps₂,
          PoolReaches (tagged (storeHandler b concurrent)) (s₀, storePool rt b clients) (s₁, ps₁) ∧
          run ∈ s₁.activeRuns tenantId key ∧
          storeStep b concurrent i s₁ (.getActiveRunId tenantId key) (.ok (some run.id)) s₂ ∧
          PoolReaches (tagged (storeHandler b concurrent)) (s₂, ps₂) (s, ps) ∧
          Answers tenantId role req run requestedCapabilities ∧
          Describes response run requestedCapabilities) ∧
      (ps i = .pure (some (.created, response)) →
        .inserted i response.id ∈ s.notes ∧ response.id ∉ s₀.ids ∧ response.id ∈ s.ids ∧
          s.creations response.id = 1) := by
  have hinv₀ : DedupeInv rt clients s₀.ids s₀ := dedupeInv_migrated hstart
  have hinv := inv_storePool hsha hinv₀ hreach
  refine ⟨hinv.length_activeRuns, ?_⟩
  intro i tenantId role req response hclient
  have hwp := wp_storePool hsha hinv₀ hreach i
  constructor
  · intro hdone
    rw [hdone] at hwp
    have hfound : FoundRun clients i s response :=
      hwp s ((storeContract rt clients s₀.ids i).rely_refl s)
    obtain ⟨run, requested, hnote, _, hanswers, hdescribes⟩ := hfound tenantId role req hclient
    have hbefore : ¬ .found i run ∈ s₀.notes := by
      rw [hstart.notes]
      exact List.not_mem_nil
    obtain ⟨s₁, ps₁, op, answer, s₂, ps₂, hto, hnot, hcall, hthen, hfrom⟩ :=
      hreach.exists_change (P := fun s => StoreNote.found i run ∈ s.notes) hbefore hnote
    obtain ⟨tenantId', key, hactive, hlookup⟩ := lookup_of_note hnot hcall hthen
    obtain rfl : tenantId' = tenantId := by
      have hsel := (List.mem_filter.mp hactive).2
      simp only [Bool.and_eq_true, decide_eq_true_eq] at hsel
      exact hsel.1.1.symm.trans hanswers.tenantId
    exact ⟨run, requested, s₁, ps₁, key, s₂, ps₂, hto, hactive, hlookup, hfrom, hanswers,
      hdescribes⟩
  · intro hdone
    rw [hdone] at hwp
    have hcreated : CreatedRun i s response :=
      hwp s ((storeContract rt clients s₀.ids i).rely_refl s)
    obtain ⟨hid, hnew, _⟩ := hinv.inserted i response.id hcreated.1
    exact ⟨hcreated.1, hnew, hid, hcreated.2⟩

end Interleaving

/-! ## A request that comes twice -/

/-- The text of a request of the sample's, whose input is written so. -/
def plainText (input : String) : String :=
  "\x7b\"agent_id\":\"aaaaaaaa-aaaa-aaaa-aaaa-aaaaaaaaaaaa\",\"input\":" ++ input ++
    ",\"recipe_id\":\"custom\",\"requested_capabilities\":[],\"role_preset\":\"owner\"," ++
    "\"tenant_id\":\"acme\",\"triggered_by_user_id\":null\x7d"

def plainDigests : List (String × String) :=
  [(plainText "\x7b\x7d", "a0a1d5310e63d685a5afbdca6e0ae48b7a4f046041d9214fc4597b181d5ad2c1"),
    (plainText "\"hello\"", "8edc397eff4e6ca3c4eac2f5e00444cfa22cdd8e422d3702cc4e74aaab44009e")]

/-- SHA-256 on the requests below. -/
def plainDigest : ByteArray → String := tabledDigest plainDigests

def plainRuntime : DedupeRuntime where
  floats := bitText
  digestSha256Hex := plainDigest

theorem plainRuntime_injective : Function.Injective plainRuntime.digestSha256Hex :=
  tabledDigest_injective (show (["a0a1d5310e63d685a5afbdca6e0ae48b7a4f046041d9214fc4597b181d5ad2c1",
    "8edc397eff4e6ca3c4eac2f5e00444cfa22cdd8e422d3702cc4e74aaab44009e"] : List String).Nodup by decide)
    (by decide)

def emptyStore : RunStore Bool where
  queue := ⟨0, ⟨[], List.nodup_nil⟩, []⟩
  columns := fun _ => ⟨.null, none⟩
  notes := []

theorem emptyStore_migrated : emptyStore.IsMigrated :=
  ⟨rfl, fun _ h => absurd h List.not_mem_nil, fun _ _ => rfl⟩

/-- A request for a run of a recipe without a bundle and without capabilities. -/
def plainRequest (input : Json) (h : input.IsValue) : CreateRunRequest where
  agentId := .repeated 10
  triggeredByUserId := none
  recipeId := "custom"
  input := input
  requestedCapabilities := .arr []
  isValue_input := h
  isValue_requested := .arr nofun

def twice (req : CreateRunRequest) : Bool → StoreClient := fun _ => .createRun "acme" .owner req

section Twice

open Handler

variable {b : Backend} (input : Json) (h : input.IsValue)

def plainKey : String := computeRunSemanticDedupeKey plainRuntime "acme" .owner (plainRequest input h)

def plainRun : NewRun := makeNewRun "acme" (plainRequest input h) (.arr []) (.repeated 0)

def plainRow : RunRow := (plainRun input h).row 0

/-- After the insert of the first request. -/
def insertedStore : RunStore Bool where
  queue := ⟨0, ⟨[plainRow input h], List.nodup_singleton _⟩, []⟩
  columns := Function.update emptyStore.columns (plainRun input h).id
    ((plainRun input h).columns (plainKey input h))
  notes := [.inserted false (plainRun input h).id]

def lookedUpStore : RunStore Bool :=
  { insertedStore input h with
    notes := (insertedStore input h).notes ++ [.found true (plainRow input h)] }

theorem inserts_plainRun :
    emptyStore.Inserts false (plainRun input h) (plainKey input h) (insertedStore input h) :=
  ⟨rfl, 0, List.not_mem_nil, rfl⟩

theorem plainRow_active :
    plainRow input h ∈ (insertedStore input h).activeRuns "acme" (plainKey input h) := by
  refine List.mem_filter.mpr ⟨List.mem_cons_self, ?_⟩
  have hkey : (insertedStore input h).key (plainRow input h) = some (plainKey input h) := by
    have hcolumns : (insertedStore input h).columns (plainRun input h).id =
        (plainRun input h).columns (plainKey input h) :=
      Function.update_self (plainRun input h).id _ emptyStore.columns
    show ((insertedStore input h).columns (plainRun input h).id).semanticDedupeKey = _
    rw [hcolumns]
    rfl
  have htenant : (plainRow input h).tenantId = "acme" := rfl
  have hactive : (plainRow input h).isActive = true := rfl
  simp only [hkey, htenant, hactive, decide_true, Bool.and_self]

/-- What the second request is answered with. -/
def plainResponse : RunResponse :=
  runToResponse ((lookedUpStore input h).record (plainRow input h))

theorem plainResponse_id : (plainRow input h).id = (plainResponse input h).id := rfl

theorem rows_lookedUpStore : (lookedUpStore input h).rows = [plainRow input h] := rfl

/-- The second request is answered with the run of the first. -/
theorem reaches_twice :
    ∃ ps, PoolReaches (tagged (storeHandler b true))
        (emptyStore, storePool plainRuntime b (twice (plainRequest input h)))
        (lookedUpStore input h, ps) ∧
      ps true = .pure (some (.ok, plainResponse input h)) := by
  let ps := storePool plainRuntime b (twice (plainRequest input h))
  have hstart : PoolReaches (tagged (storeHandler b true)) (emptyStore, ps) (emptyStore, ps) := .refl
  have hinserted := ((hstart.focus (i := false) rfl).then_call (Uuid.repeated 0) emptyStore
    rfl).then_call (.ok (some (plainRun input h).id)) (insertedStore input h)
      ⟨rfl, inserts_plainRun input h⟩
  have hactive := plainRow_active input h
  have hlookup := (((hinserted.focus (i := true) rfl).then_call (Uuid.repeated 1) _
    rfl).then_call (.ok none) (insertedStore input h) ⟨List.ne_nil_of_mem hactive, rfl⟩).then_call
      (.ok (some (plainRow input h).id)) (lookedUpStore input h)
      ⟨plainRow input h, hactive, rfl, rfl⟩
  have hfound : ((lookedUpStore input h).rows.find? fun row =>
      row.tenantId = "acme" && row.id = (plainRow input h).id) = some (plainRow input h) := by
    have htenant : (plainRow input h).tenantId = "acme" := rfl
    rw [rows_lookedUpStore, List.find?_cons_of_pos]
    simp only [htenant, decide_true, Bool.and_self]
  have hanswer := hlookup.then_call
    (.ok (some ((lookedUpStore input h).record (plainRow input h)))) (lookedUpStore input h)
      ⟨by rw [hfound]; rfl, rfl⟩
  exact ⟨_, hanswer, Function.update_self ..⟩

end Twice

theorem isValue_emptyObject : (Json.obj []).IsValue := .obj .nil nofun

/-- A request that comes twice is answered with a run that it could have created. -/
theorem repeated_request_answered : ∃ s ps response run requestedCapabilities,
    Handler.PoolReaches (Handler.tagged (storeHandler .postgres true))
      (emptyStore, storePool plainRuntime .postgres (twice (plainRequest _ isValue_emptyObject)))
      (s, ps) ∧
    ps true = .pure (some (.ok, response)) ∧
    (s.activeRuns "acme" (plainKey _ isValue_emptyObject)).length ≤ 1 ∧
    Answers "acme" .owner (plainRequest _ isValue_emptyObject) run requestedCapabilities ∧
    Describes response run requestedCapabilities := by
  obtain ⟨ps, hreach, hdone⟩ := reaches_twice (b := .postgres) _ isValue_emptyObject
  obtain ⟨hunique, hanswers⟩ := runs_deduped plainRuntime_injective emptyStore_migrated hreach
  obtain ⟨run, requested, _, _, _, _, _, _, _, _, _, hrun, hdescribes⟩ :=
    (hanswers true "acme" .owner _ _ rfl).1 hdone
  exact ⟨_, ps, _, run, requested, hreach, hdone, hunique "acme" _, hrun, hdescribes⟩

/-! ## An input that is no object -/

def withoutTrace : Json → Json
  | .obj fields => .obj (Json.removeField "_trace" fields)
  | other => other

/-- The run of a request whose input is a text has the text under `input`: a repetition
of the request is answered with it, and what the run has besides `_trace` is not the
input of the request. -/
theorem text_input_wrapped : ∃ s ps response run,
    Handler.PoolReaches (Handler.tagged (storeHandler .postgres true))
      (emptyStore, storePool plainRuntime .postgres (twice (plainRequest (.str "hello") (.str _))))
      (s, ps) ∧
    ps true = .pure (some (.ok, response)) ∧ run ∈ s.rows ∧ run.id = response.id ∧
    ¬ Reordered (withoutTrace run.inputJson) (withoutTrace (.str "hello")) := by
  obtain ⟨ps, hreach, hdone⟩ := reaches_twice (b := .postgres) (.str "hello") (.str _)
  refine ⟨_, ps, plainResponse (.str "hello") (.str _), plainRow (.str "hello") (.str _), hreach,
    hdone, List.mem_cons_self, plainResponse_id _ _, ?_⟩
  intro hsame
  cases hsame.isObject_eq

end Runs
end SecureAgnt

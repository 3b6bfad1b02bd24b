/-
The table of runs under requests, workers and manual fires.

`DedupeInv` says that the runs under a key are of requests, that a tenant has at most
one active run under each, and that only runs that are there are reported as created.
Every statement keeps it, and leaves to every other client what that relies on.
-/
import SecureAgnt.Runs.DedupeKey

namespace SecureAgnt
namespace Runs

open Storage
open Policy
open Json (Reordered)
open Worker (AuditEvent)

variable {rt : DedupeRuntime} {tenantId tenantId' : String} {role role' : RolePreset}
  {req req' : CreateRunRequest}

/-! ## What the queue does to a run -/

/-- The columns of a run that no statement changes. -/
structure SameRun (row row' : RunRow) : Prop where
  id : row'.id = row.id
  tenantId : row'.tenantId = row.tenantId
  agentId : row'.agentId = row.agentId
  triggeredByUserId : row'.triggeredByUserId = row.triggeredByUserId
  recipeId : row'.recipeId = row.recipeId
  inputJson : row'.inputJson = row.inputJson
  grantedCapabilities : row'.grantedCapabilities = row.grantedCapabilities

theorem SameRun.refl (row : RunRow) : SameRun row row := ⟨rfl, rfl, rfl, rfl, rfl, rfl, rfl⟩

theorem SameRun.trans {row row' row'' : RunRow} (h : SameRun row row') (h' : SameRun row' row'') :
    SameRun row row'' :=
  ⟨h'.id.trans h.id, h'.tenantId.trans h.tenantId, h'.agentId.trans h.agentId,
    h'.triggeredByUserId.trans h.triggeredByUserId, h'.recipeId.trans h.recipeId,
    h'.inputJson.trans h.inputJson, h'.grantedCapabilities.trans h.grantedCapabilities⟩

/-- An update that changes a run in the columns of the queue only, and only while the
run is active. -/
structure OpenUpdate (t : RunTable) (u : RunUpdate) : Prop where
  opens : SelectsOpen t u
  same : ∀ row, SameRun row (u.change row)

/-- The rows before a statement and after it: no run becomes active again. -/
inductive RowsMove (rows : List RunRow) : List RunRow → Prop
  | created (row : RunRow) (hnew : row.id ∉ rows.map (·.id)) : RowsMove rows (rows ++ [row])
  | updated (f : RunRow → RunRow) (hsame : ∀ row, SameRun row (f row))
      (hactive : ∀ row ∈ rows, (f row).isActive = true → row.isActive = true) :
      RowsMove rows (rows.map f)

theorem rowsMove_update {t : RunTable} {u : RunUpdate} (h : OpenUpdate t u) :
    RowsMove t.rows (t.apply u).rows := by
  refine .updated u.row ?_ ?_
  · intro row
    by_cases hsel : u.selects row = true
    · rw [RunUpdate.row_of_selects hsel]
      exact h.same row
    · rw [RunUpdate.row_of_not_selects hsel]
      exact .refl row
  · intro row hrow hactive
    by_cases hsel : u.selects row = true
    · rcases h.opens row hrow hsel with hstatus | hstatus <;> simp [RunRow.isActive, hstatus]
    · rw [RunUpdate.row_of_not_selects hsel] at hactive
      exact hactive

theorem rowsMove_step {b : Backend} {concurrent : Bool} {w w' : QueueWorld} {op : QueueOp}
    {answer : QueueAns op} (hstep : queueStep b concurrent w op answer w') :
    RowsMove w.runs.rows w'.runs.rows := by
  obtain ⟨now, _, heffect⟩ := effect_of_step hstep
  cases heffect with
  | noted events hnotes =>
    have h : RowsMove w.runs.rows (w.runs.rows.map id) := .updated id .refl fun _ _ h => h
    rwa [List.map_id] at h
  | created row hrow hnew => exact .created row hnew
  | claimed runId workerId clientNow leaseMs hop =>
    refine rowsMove_update ⟨fun _ _ hsel => .inl (selects_claimUpdate hsel).2, ?_⟩
    exact fun _ => ⟨rfl, rfl, rfl, rfl, rfl, rfl, rfl⟩
  | renewed runId workerId clientNow leaseMs hop =>
    refine rowsMove_update ⟨fun _ _ hsel => .inr (selects_renewUpdate hsel).2.1, ?_⟩
    exact fun _ => ⟨rfl, rfl, rfl, rfl, rfl, rfl, rfl⟩
  | finished runId workerId clientNow status errorJson hop =>
    refine rowsMove_update ⟨fun _ _ hsel => .inr (selects_finishUpdate hsel).2.1, ?_⟩
    exact fun _ => ⟨rfl, rfl, rfl, rfl, rfl, rfl, rfl⟩
  | requeued locked limit hop =>
    refine rowsMove_update ⟨fun _ hrow hsel => .inr (selects_requeueUpdate hrow hsel), ?_⟩
    exact fun _ => ⟨rfl, rfl, rfl, rfl, rfl, rfl, rfl⟩

/-! ## Events of creation -/

def isCreation (runId : String) : QueueEvent → Bool
  | .audited _ id eventType => id = runId && eventType = "run.created"
  | _ => false

variable {ι : Type}

def RunStore.creations (s : RunStore ι) (runId : String) : Nat :=
  s.queue.log.countP (isCreation runId)

/-- The statement reports a run as created, other than through a request. -/
def QueueOp.Reports (runId : String) : QueueOp → Prop
  | .appendAuditEvent _ event => event.eventType = "run.created" ∧ event.runId = runId
  | _ => False

theorem created_not_processed : "run.created" ∉ processedTypes := by decide

theorem not_isCreation_of_notes {op : QueueOp} {runId : String} (hop : ¬ op.Reports runId)
    {e : QueueEvent} (he : op.Notes e ∨ op.Moves e) : isCreation runId e = false := by
  cases op with
  | appendAuditEvent workerId event =>
    rcases he with he | he
    · rw [show e = .audited workerId event.runId event.eventType from he]
      refine Bool.eq_false_iff.mpr ?_
      intro hcreated
      simp only [isCreation, Bool.and_eq_true, decide_eq_true_eq] at hcreated
      exact hop ⟨hcreated.2, hcreated.1⟩
    · cases he
  | processClaimedRun workerId run =>
    rcases he with ⟨event, hmay, rfl⟩ | he
    · have hne : event.eventType ≠ "run.created" := by
        intro h
        exact created_not_processed (h ▸ hmay.processed)
      simp [isCreation, hne]
    · cases he
  | countRunning workerId =>
    rcases he with he | he
    · rw [show e = .counted workerId from he]
      rfl
    · cases he
  | claimRun runId' workerId clientNow leaseMs =>
    rcases he with he | he
    · cases he
    · rw [show e = .claimed workerId runId' from he]
      rfl
  | finishRun runId' workerId clientNow status errorJson =>
    rcases he with he | he
    · cases he
    · rw [show e = .finished workerId runId' status from he]
      rfl
  | _ => rcases he with he | he <;> cases he

theorem creations_queue {b : Backend} {concurrent : Bool} {s s' : RunStore ι} {op : QueueOp}
    {answer : QueueAns op} (hstep : queueStep b concurrent s.queue op answer s'.queue)
    {runId : String} (hop : ¬ op.Reports runId) : s'.creations runId = s.creations runId := by
  obtain ⟨events, hlog, hevents⟩ := log_step hstep
  have hnone : events.countP (isCreation runId) = 0 := by
    refine List.countP_eq_zero.mpr ?_
    intro e he
    rw [not_isCreation_of_notes hop (hevents e he)]
    exact Bool.false_ne_true
  rw [RunStore.creations, RunStore.creations, hlog, List.countP_append, hnone, Nat.add_zero]

/-! ## The invariant -/

/-- The run was created for the request. -/
structure MadeFor (rt : DedupeRuntime) (tenantId : String) (role : RolePreset)
    (req : CreateRunRequest) (run : RunRow) (columns : RunColumns) : Prop where
  semanticDedupeKey : columns.semanticDedupeKey =
    some (computeRunSemanticDedupeKey rt tenantId role req)
  tenantId : run.tenantId = tenantId
  agentId : run.agentId = req.agentId.text
  triggeredByUserId : run.triggeredByUserId = req.triggeredByUserId.map (·.text)
  recipeId : run.recipeId = req.recipeId
  inputJson : run.inputJson = injectTraceIdIntoInput req.input run.id
  grantedCapabilities : resolveGrantedCapabilities req.recipeId role req.requestedCapabilities =
    .ok run.grantedCapabilities
  requestedCapabilities : columns.requestedCapabilities = req.requestedCapabilities

/-- The run is one that the request could have created: `_trace` apart, its values are
those of the request up to the order of fields. -/
structure Answers (tenantId : String) (role : RolePreset) (req : CreateRunRequest) (run : RunRow)
    (requestedCapabilities : Json) : Prop where
  tenantId : run.tenantId = tenantId
  agentId : run.agentId = req.agentId.text
  triggeredByUserId : run.triggeredByUserId = req.triggeredByUserId.map (·.text)
  recipeId : run.recipeId = req.recipeId
  inputJson : Reordered (injectTraceIdIntoInput req.input run.id) run.inputJson
  grantedCapabilities : resolveGrantedCapabilities req.recipeId role req.requestedCapabilities =
    .ok run.grantedCapabilities
  requestedCapabilities : Reordered req.requestedCapabilities requestedCapabilities

theorem answers_of_madeFor {run : RunRow} {columns : RunColumns}
    (hsha : Function.Injective rt.digestSha256Hex)
    (hmade : MadeFor rt tenantId' role' req' run columns)
    (hkey : columns.semanticDedupeKey = some (computeRunSemanticDedupeKey rt tenantId role req)) :
    Answers tenantId role req run columns.requestedCapabilities := by
  have hsame : SameRequest tenantId tenantId' role role' req req' := by
    refine sameRequest_of_key hsha ?_
    exact Option.some.inj (hkey.symm.trans hmade.semanticDedupeKey)
  obtain ⟨rfl, rfl, hagent, huser, hrecipe, hinput, hrequested⟩ := hsame
  refine ⟨hmade.tenantId, ?_, ?_, ?_, ?_, ?_, ?_⟩
  · rw [hmade.agentId, hagent]
  · rw [hmade.triggeredByUserId, huser]
  · rw [hmade.recipeId, hrecipe]
  · rw [hmade.inputJson]
    exact reordered_injectTraceId hinput req.isValue_input run.id
  · rw [resolveGrantedCapabilities_eq hrequested req.isValue_requested, hrecipe]
    exact hmade.grantedCapabilities
  · rw [hmade.requestedCapabilities]
    exact hrequested

theorem MadeFor.of_same {run run' : RunRow} {columns : RunColumns}
    (h : MadeFor rt tenantId role req run columns) (hsame : SameRun run run') :
    MadeFor rt tenantId role req run' columns := by
  refine ⟨h.semanticDedupeKey, hsame.tenantId.trans h.tenantId, hsame.agentId.trans h.agentId,
    hsame.triggeredByUserId.trans h.triggeredByUserId, hsame.recipeId.trans h.recipeId, ?_, ?_,
    h.requestedCapabilities⟩
  · rw [hsame.inputJson, hsame.id]
    exact h.inputJson
  · rw [hsame.grantedCapabilities]
    exact h.grantedCapabilities

/-- Runs under a key are of requests and at most one of them is active, and what is
reported as created is there.  The runs of `old` were there before the requests. -/
structure DedupeInv (rt : DedupeRuntime) (clients : ι → StoreClient) (old : List String)
    (s : RunStore ι) : Prop where
  unique : ∀ row ∈ s.rows, ∀ row' ∈ s.rows, row.isActive = true → row'.isActive = true →
    row.tenantId = row'.tenantId → s.key row = s.key row' → s.key row ≠ none → row = row'
  made : ∀ row ∈ s.rows, s.key row ≠ none → ∃ i tenantId role req,
    clients i = .createRun tenantId role req ∧
      MadeFor rt tenantId role req row (s.columns row.id)
  reported : ∀ runId, runId ∉ s.ids → s.creations runId = 0
  inserted : ∀ i runId, .inserted i runId ∈ s.notes →
    runId ∈ s.ids ∧ runId ∉ old ∧ (s.columns runId).semanticDedupeKey ≠ none
  owned : ∀ i j runId, .inserted i runId ∈ s.notes → .inserted j runId ∈ s.notes → i = j
  old_kept : ∀ runId ∈ old, runId ∈ s.ids

/-- The runs of a store are kept, and new ones have no key. -/
structure RunsKept (s s' : RunStore ι) : Prop where
  persist : ∀ row ∈ s.rows, ∃ row' ∈ s'.rows, SameRun row row'
  origin : ∀ row' ∈ s'.rows, s'.key row' ≠ none →
    ∃ row ∈ s.rows, SameRun row row' ∧ (row'.isActive = true → row.isActive = true)
  columns : ∀ id ∈ s.ids, s'.columns id = s.columns id

section Kept

variable {clients : ι → StoreClient} {old : List String} {s s' : RunStore ι}

theorem RunsKept.refl_of_rows (hrows : s'.rows = s.rows) (hcolumns : s'.columns = s.columns) :
    RunsKept s s' := by
  refine ⟨?_, ?_, ?_⟩
  · intro row hrow
    exact ⟨row, hrows ▸ hrow, .refl row⟩
  · intro row hrow _
    exact ⟨row, hrows ▸ hrow, .refl row, fun h => h⟩
  · intro id _
    rw [hcolumns]

theorem RunsKept.mem_ids (h : RunsKept s s') {id : String} (hid : id ∈ s.ids) : id ∈ s'.ids := by
  obtain ⟨row, hrow, rfl⟩ := List.mem_map.mp hid
  obtain ⟨row', hrow', hsame⟩ := h.persist row hrow
  exact List.mem_map.mpr ⟨row', hrow', hsame.id⟩

theorem RunsKept.key_eq (h : RunsKept s s') {row row' : RunRow} (hrow : row ∈ s.rows)
    (hsame : SameRun row row') : s'.key row' = s.key row := by
  rw [RunStore.key, RunStore.key, hsame.id, h.columns row.id (List.mem_map_of_mem hrow)]

theorem runsKept_queue {b : Backend} {concurrent : Bool} {op : QueueOp} {answer : QueueAns op}
    (hstep : queueStep b concurrent s.queue op answer s'.queue) (hcolumns : s.KeepsColumns s') :
    RunsKept s s' := by
  have hmove : RowsMove s.rows s'.rows := rowsMove_step hstep
  have hkeep := hcolumns.1
  have hnone : ∀ row' ∈ s'.rows, row'.id ∉ s.ids → s'.key row' = none := by
    intro row' hrow' hnew
    exact hcolumns.2 row'.id (List.mem_map_of_mem hrow') hnew
  have hids : ∀ row' ∈ s'.rows, s'.key row' ≠ none → row'.id ∈ s.ids := by
    intro row' hrow' hkey
    by_contra hnew
    exact hkey (hnone row' hrow' hnew)
  refine ⟨?_, ?_, hcolumns.1⟩
  · intro row hrow
    generalize s'.rows = rows' at hmove
    cases hmove with
    | created new hnew => exact ⟨row, List.mem_append_left _ hrow, .refl row⟩
    | updated f hsame hactive => exact ⟨f row, List.mem_map_of_mem hrow, hsame row⟩
  · intro row' hrow' hkey
    have hid := hids row' hrow' hkey
    generalize s'.rows = rows' at hmove hrow'
    cases hmove with
    | created new hnew =>
      rcases List.mem_append.mp hrow' with hrow | hrow
      · exact ⟨row', hrow, .refl row', fun h => h⟩
      · rw [List.mem_singleton.mp hrow] at hid
        exact absurd hid hnew
    | updated f hsame hactive =>
      obtain ⟨row, hrow, rfl⟩ := List.mem_map.mp hrow'
      exact ⟨row, hrow, hsame row, hactive row hrow⟩

/-- The invariant through a step that inserts no run of a request. -/
theorem DedupeInv.kept (h : DedupeInv rt clients old s) (hkept : RunsKept s s')
    (hnotes : ∀ i runId, .inserted i runId ∈ s'.notes → .inserted i runId ∈ s.notes)
    (hreported : ∀ runId, runId ∉ s'.ids → s'.creations runId = s.creations runId) :
    DedupeInv rt clients old s' := by
  refine ⟨?_, ?_, ?_, ?_, ?_, ?_⟩
  · intro row₁' hrow₁' row₂' hrow₂' hactive₁ hactive₂ htenant hkey hsome
    obtain ⟨row₁, hrow₁, hsame₁, hopen₁⟩ := hkept.origin row₁' hrow₁' hsome
    obtain ⟨row₂, hrow₂, hsame₂, hopen₂⟩ := hkept.origin row₂' hrow₂' (hkey ▸ hsome)
    rw [hkept.key_eq hrow₁ hsame₁, hkept.key_eq hrow₂ hsame₂] at hkey
    rw [hkept.key_eq hrow₁ hsame₁] at hsome
    rw [hsame₁.tenantId, hsame₂.tenantId] at htenant
    have heq := h.unique row₁ hrow₁ row₂ hrow₂ (hopen₁ hactive₁) (hopen₂ hactive₂) htenant hkey
      hsome
    refine s'.queue.runs.eq_of_id hrow₁' hrow₂' ?_
    rw [hsame₁.id, hsame₂.id, heq]
  · intro row' hrow' hsome
    obtain ⟨row, hrow, hsame, _⟩ := hkept.origin row' hrow' hsome
    rw [hkept.key_eq hrow hsame] at hsome
    obtain ⟨i, tenantId, role, req, hclient, hmade⟩ := h.made row hrow hsome
    refine ⟨i, tenantId, role, req, hclient, ?_⟩
    rw [hsame.id, hkept.columns row.id (List.mem_map_of_mem hrow)]
    exact hmade.of_same hsame
  · intro runId hnew
    rw [hreported runId hnew]
    exact h.reported runId fun hid => hnew (hkept.mem_ids hid)
  · intro i runId hnote
    obtain ⟨hid, hold, hkey⟩ := h.inserted i runId (hnotes i runId hnote)
    rw [hkept.columns runId hid]
    exact ⟨hkept.mem_ids hid, hold, hkey⟩
  · intro i j runId hi hj
    exact h.owned i j runId (hnotes i runId hi) (hnotes j runId hj)
  · intro runId hold
    exact hkept.mem_ids (h.old_kept runId hold)

end Kept

/-! ## Steps -/

/-- What a client may rely on while others use the table: runs and their columns stay,
and nobody else reports the runs it inserted. -/
structure Stands (i : ι) (s s' : RunStore ι) : Prop where
  persist : ∀ row ∈ s.rows, ∃ row' ∈ s'.rows, SameRun row row'
  columns : ∀ id ∈ s.ids, s'.columns id = s.columns id
  notes : ∀ note ∈ s.notes, note ∈ s'.notes
  creations : ∀ runId, .inserted i runId ∈ s.notes → s'.creations runId = s.creations runId

/-- When a client may issue a statement. -/
def StoreSafe (rt : DedupeRuntime) (clients : ι → StoreClient) (i : ι) (s : RunStore ι) :
    StoreOp → Prop
  | .queue op => ∀ runId, op.Reports runId →
      runId ∈ s.ids ∧ (s.columns runId).semanticDedupeKey = none
  | .createRun new semanticDedupeKey => ∃ tenantId role req granted runId,
      clients i = .createRun tenantId role req ∧
        resolveGrantedCapabilities req.recipeId role req.requestedCapabilities = .ok granted ∧
        new = makeNewRun tenantId req granted runId ∧
        semanticDedupeKey = computeRunSemanticDedupeKey rt tenantId role req
  | .appendAuditEvent event => .inserted i event.runId ∈ s.notes
  | _ => True

section Steps

variable {clients : ι → StoreClient} {old : List String} {s s' : RunStore ι} {i : ι}

theorem Stands.refl (s : RunStore ι) : Stands i s s :=
  ⟨fun row hrow => ⟨row, hrow, .refl row⟩, fun _ _ => rfl, fun _ h => h, fun _ _ => rfl⟩

theorem Stands.mem_ids (h : Stands i s s') {id : String} (hid : id ∈ s.ids) : id ∈ s'.ids := by
  obtain ⟨row, hrow, rfl⟩ := List.mem_map.mp hid
  obtain ⟨row', hrow', hsame⟩ := h.persist row hrow
  exact List.mem_map.mpr ⟨row', hrow', hsame.id⟩

theorem Stands.trans {s'' : RunStore ι} (h : Stands i s s') (h' : Stands i s' s'') :
    Stands i s s'' := by
  refine ⟨?_, ?_, fun note hnote => h'.notes note (h.notes note hnote), ?_⟩
  · intro row hrow
    obtain ⟨row', hrow', hsame⟩ := h.persist row hrow
    obtain ⟨row'', hrow'', hsame'⟩ := h'.persist row' hrow'
    exact ⟨row'', hrow'', hsame.trans hsame'⟩
  · intro id hid
    rw [h'.columns id (h.mem_ids hid), h.columns id hid]
  · intro runId hnote
    rw [h'.creations runId (h.notes _ hnote), h.creations runId hnote]

theorem RunsKept.stands (h : RunsKept s s') (hnotes : ∀ note ∈ s.notes, note ∈ s'.notes)
    (hcreations : ∀ runId, .inserted i runId ∈ s.notes → s'.creations runId = s.creations runId) :
    Stands i s s' :=
  ⟨h.persist, h.columns, hnotes, hcreations⟩

theorem mem_notes_append {note new : StoreNote ι} {notes : List (StoreNote ι)}
    (h : note ∈ notes) : note ∈ notes ++ [new] := List.mem_append_left _ h

/-- A statement of the queue. -/
theorem step_queue {b : Backend} {concurrent : Bool} {op : QueueOp} {answer : QueueAns op}
    (hinv : DedupeInv rt clients old s) (hsafe : StoreSafe rt clients i s (.queue op))
    (hstep : storeStep b concurrent i s (.queue op) answer s') :
    DedupeInv rt clients old s' ∧ ∀ j, Stands j s s' := by
  obtain ⟨hqueue, hcolumns, hnotes⟩ := hstep
  have hkept := runsKept_queue hqueue hcolumns
  have hcount : ∀ runId, (runId ∈ s.ids → (s.columns runId).semanticDedupeKey ≠ none) →
      s'.creations runId = s.creations runId := by
    intro runId hkeyed
    refine creations_queue hqueue ?_
    intro hreports
    obtain ⟨hid, hnone⟩ := hsafe runId hreports
    exact hkeyed hid hnone
  refine ⟨hinv.kept hkept ?_ ?_, ?_⟩
  · intro j runId hnote
    rwa [hnotes] at hnote
  · intro runId hnew
    exact hcount runId fun hid => absurd (hkept.mem_ids hid) hnew
  · intro j
    refine hkept.stands (fun note hnote => by rwa [hnotes]) ?_
    intro runId hnote
    exact hcount runId fun _ => (hinv.inserted j runId hnote).2.2

theorem inserts_rows {new : NewRun} {key : String} (h : s.Inserts i new key s') :
    ∃ createdAt, new.id ∉ s.ids ∧ s'.rows = s.rows ++ [new.row createdAt] ∧
      s'.columns = Function.update s.columns new.id (new.columns key) ∧
      s'.notes = s.notes ++ [.inserted i new.id] ∧ s'.queue.log = s.queue.log := by
  obtain ⟨_, createdAt, hnew, rfl⟩ := h
  exact ⟨createdAt, hnew, rfl, rfl, rfl, rfl⟩

theorem stands_insert {new : NewRun} {key : String} {j : ι} (h : s.Inserts i new key s') :
    Stands j s s' := by
  obtain ⟨createdAt, hnew, hrows, hcolumns, hnotes, hlog⟩ := inserts_rows h
  refine ⟨?_, ?_, ?_, ?_⟩
  · intro row hrow
    rw [hrows]
    exact ⟨row, List.mem_append_left _ hrow, .refl row⟩
  · intro id hid
    rw [hcolumns, Function.update_of_ne]
    intro hsame
    exact hnew (hsame ▸ hid)
  · intro note hnote
    rw [hnotes]
    exact mem_notes_append hnote
  · intro runId _
    rw [RunStore.creations, RunStore.creations, hlog]

theorem inv_insert {new : NewRun} {key : String} (hinv : DedupeInv rt clients old s)
    (hsafe : StoreSafe rt clients i s (.createRun new key)) (h : s.Inserts i new key s') :
    DedupeInv rt clients old s' := by
  have hfree := h.1
  have hstands : Stands i s s' := stands_insert h
  obtain ⟨createdAt, hnew, hrows, hcolumns, hnotes, hlog⟩ := inserts_rows h
  have hmem : ∀ row ∈ s'.rows, row ∈ s.rows ∨ row = new.row createdAt := by
    intro row hrow
    rw [hrows] at hrow
    rcases List.mem_append.mp hrow with hrow | hrow
    · exact .inl hrow
    · exact .inr (List.mem_singleton.mp hrow)
  have hkeyOld : ∀ row ∈ s.rows, s'.key row = s.key row := by
    intro row hrow
    rw [RunStore.key, RunStore.key, hstands.columns row.id (List.mem_map_of_mem hrow)]
  have hcolumnsNew : s'.columns new.id = new.columns key := by
    rw [hcolumns, Function.update_self]
  have hkeyNew : s'.key (new.row createdAt) = some key := by
    show (s'.columns new.id).semanticDedupeKey = some key
    rw [hcolumnsNew]
    rfl
  -- an active run under the key would have been in the way
  have hapart : ∀ row ∈ s.rows, row.isActive = true → row.tenantId = new.tenantId →
      s.key row ≠ some key := by
    intro row hrow hactive htenant hkey
    have hmem : row ∈ s.activeRuns new.tenantId key := by
      refine List.mem_filter.mpr ⟨hrow, ?_⟩
      simp [htenant, hkey, hactive]
    rw [hfree] at hmem
    cases hmem
  have hnewId : new.id ∈ s'.ids := by
    rw [RunStore.ids, hrows]
    exact List.mem_map.mpr ⟨new.row createdAt, List.mem_append_right _ List.mem_cons_self, rfl⟩
  refine ⟨?_, ?_, ?_, ?_, ?_, ?_⟩
  · intro row hrow row' hrow' hactive hactive' htenant hkey hsome
    rcases hmem row hrow with hrow | rfl
    · rcases hmem row' hrow' with hrow' | rfl
      · rw [hkeyOld row hrow, hkeyOld row' hrow'] at hkey
        rw [hkeyOld row hrow] at hsome
        exact hinv.unique row hrow row' hrow' hactive hactive' htenant hkey hsome
      · rw [hkeyOld row hrow, hkeyNew] at hkey
        exact absurd hkey (hapart row hrow hactive htenant)
    · rcases hmem row' hrow' with hrow' | rfl
      · rw [hkeyOld row' hrow', hkeyNew] at hkey
        exact absurd hkey.symm (hapart row' hrow' hactive' htenant.symm)
      · rfl
  · intro row hrow hsome
    rcases hmem row hrow with hrow | rfl
    · rw [hkeyOld row hrow] at hsome
      rw [hstands.columns row.id (List.mem_map_of_mem hrow)]
      exact hinv.made row hrow hsome
    · obtain ⟨tenantId, role, req, granted, runId, hclient, hgranted, rfl, rfl⟩ := hsafe
      refine ⟨i, tenantId, role, req, hclient, ?_⟩
      show MadeFor rt tenantId role req _ (s'.columns (makeNewRun tenantId req granted runId).id)
      rw [hcolumnsNew]
      exact ⟨rfl, rfl, rfl, rfl, rfl, rfl, hgranted, rfl⟩
  · intro runId hout
    rw [RunStore.creations, hlog]
    exact hinv.reported runId fun hid => hout (hstands.mem_ids hid)
  · intro j runId hnote
    rw [hnotes] at hnote
    rcases List.mem_append.mp hnote with hnote | hnote
    · obtain ⟨hid, hold, hkey⟩ := hinv.inserted j runId hnote
      rw [hstands.columns runId hid]
      exact ⟨hstands.mem_ids hid, hold, hkey⟩
    · cases List.mem_singleton.mp hnote
      refine ⟨hnewId, fun hold => hnew (hinv.old_kept _ hold), ?_⟩
      rw [hcolumnsNew]
      exact Option.some_ne_none key
  · intro j k runId hj hk
    rw [hnotes] at hj hk
    rcases List.mem_append.mp hj with hj | hj
    · rcases List.mem_append.mp hk with hk | hk
      · exact hinv.owned j k runId hj hk
      · cases List.mem_singleton.mp hk
        exact absurd (hinv.inserted j _ hj).1 hnew
    · cases List.mem_singleton.mp hj
      rcases List.mem_append.mp hk with hk | hk
      · exact absurd (hinv.inserted k _ hk).1 hnew
      · cases List.mem_singleton.mp hk
        rfl
  · intro runId hold
    exact hstands.mem_ids (hinv.old_kept runId hold)

theorem creations_appended (event : AuditEvent) (runId : String) :
    (s.appended event).creations runId = s.creations runId +
      if event.runId = runId ∧ event.eventType = "run.created" then 1 else 0 := by
  show (s.queue.log ++ [_]).countP _ = _
  rw [List.countP_append, List.countP_singleton]
  simp only [isCreation, Bool.and_eq_true, decide_eq_true_eq]
  rfl

/-- A client reports a run it inserted. -/
theorem step_appended (hinv : DedupeInv rt clients old s) {event : AuditEvent}
    (hsafe : StoreNote.inserted i event.runId ∈ s.notes) :
    DedupeInv rt clients old (s.appended event) ∧ ∀ j, j ≠ i → Stands j s (s.appended event) := by
  have hkept : RunsKept s (s.appended event) := .refl_of_rows rfl rfl
  have hcount : ∀ runId, event.runId ≠ runId →
      (s.appended event).creations runId = s.creations runId := by
    intro runId hne
    rw [creations_appended, if_neg fun h => hne h.1, Nat.add_zero]
  refine ⟨hinv.kept hkept (fun _ _ h => h) ?_, ?_⟩
  · intro runId hnew
    refine hcount runId ?_
    intro hsame
    exact hnew (hsame ▸ (hinv.inserted i _ hsafe).1)
  · intro j hj
    refine hkept.stands (fun _ h => h) ?_
    intro runId hnote
    refine hcount runId ?_
    intro hsame
    exact hj (hinv.owned j i runId hnote (hsame ▸ hsafe))

/-- A lookup is noted. -/
theorem step_found (hinv : DedupeInv rt clients old s) (row : RunRow) :
    DedupeInv rt clients old { s with notes := s.notes ++ [.found i row] } ∧
      ∀ j, Stands j s { s with notes := s.notes ++ [.found i row] } := by
  have hkept : RunsKept s { s with notes := s.notes ++ [.found i row] } := .refl_of_rows rfl rfl
  refine ⟨hinv.kept hkept ?_ fun _ _ => rfl, ?_⟩
  · intro j runId hnote
    rcases List.mem_append.mp hnote with hnote | hnote
    · exact hnote
    · cases List.mem_singleton.mp hnote
  · intro j
    exact hkept.stands (fun _ h => mem_notes_append h) fun _ _ => rfl

/-- Every safe statement of a client keeps the invariant and what the others rely on. -/
theorem guarantee_of_step {b : Backend} {concurrent : Bool} {op : StoreOp} {answer : StoreAns op}
    (hinv : DedupeInv rt clients old s) (hsafe : StoreSafe rt clients i s op)
    (hstep : storeStep b concurrent i s op answer s') :
    DedupeInv rt clients old s' ∧ ∀ j, j ≠ i → Stands j s s' := by
  have hsame : s' = s → DedupeInv rt clients old s' ∧ ∀ j, j ≠ i → Stands j s s' := by
    rintro rfl
    exact ⟨hinv, fun j _ => .refl s'⟩
  cases op with
  | queue op =>
    obtain ⟨hinv', hstands⟩ := step_queue hinv hsafe hstep
    exact ⟨hinv', fun j _ => hstands j⟩
  | newUuid => exact hsame hstep
  | createRun new key =>
    have hinsert : s.Inserts i new key s' →
        DedupeInv rt clients old s' ∧ ∀ j, j ≠ i → Stands j s s' :=
      fun h => ⟨inv_insert hinv hsafe h, fun j _ => stands_insert h⟩
    rcases answer with err | (_ | id)
    · exact hstep.elim hsame hinsert
    · exact hsame hstep.2
    · exact hinsert hstep.2
  | getActiveRunId tenantId key =>
    rcases answer with err | (_ | id)
    · exact hsame hstep
    · exact hsame hstep.2
    · obtain ⟨row, _, _, rfl⟩ := hstep
      obtain ⟨hinv', hstands⟩ := step_found (i := i) hinv row
      exact ⟨hinv', fun j _ => hstands j⟩
  | appendAuditEvent event =>
    have happend : s' = s.appended event →
        DedupeInv rt clients old s' ∧ ∀ j, j ≠ i → Stands j s s' := by
      rintro rfl
      exact step_appended hinv hsafe
    cases answer with
    | error err => exact hstep.elim hsame happend
    | ok _ => exact happend hstep
  | getRunStatus tenantId runId =>
    cases answer with
    | error err => exact hsame hstep
    | ok found => exact hsame hstep.2

end Steps

end Runs
end SecureAgnt

/-
The limits of a tenant on triggers and active memory records.

A create counts, compares and inserts in statements of their own, on either back end and
on every endpoint.  `capacity_kept` says that no create takes a tenant over its limit in
a run in which no other create of the tenant inserts between the count and the insertion;
`capacity_overrun` is a run in which one does.
-/
import SecureAgnt.Api.Creates
import SecureAgnt.Lib.Log

namespace SecureAgnt
namespace Api

open Handler (PoolReaches PoolStep wp)
open Storage (Backend)

/-! ## What is limited -/

inductive Quota where
  | triggers
  | memoryRecords
  deriving DecidableEq, Repr

/-- What is counted together. -/
structure Scope where
  quota : Quota
  tenantId : String
  deriving DecidableEq

def ApiConfig.limit (config : ApiConfig) : Quota → Option Int
  | .triggers => config.tenantMaxTriggers
  | .memoryRecords => config.tenantMaxMemoryRecords

def ApiWorld.count (b : Backend) (w : ApiWorld) (scope : Scope) : Nat :=
  match scope.quota with
  | .triggers => w.tenantTriggers scope.tenantId
  | .memoryRecords => w.activeMemory b scope.tenantId

/-- The rows of both tables. -/
def ApiWorld.rowCount (w : ApiWorld) : Nat := w.triggers.length + w.memoryRecords.length

def ApiOp.counts : ApiOp → Option Scope
  | .sql (.countTenantTriggers tenantId) => some ⟨.triggers, tenantId⟩
  | .sql (.countTenantMemoryRecords tenantId) => some ⟨.memoryRecords, tenantId⟩
  | _ => none

def ApiOp.inserts : ApiOp → Option Scope
  | .sql (.insertTrigger new) => some ⟨.triggers, new.tenantId⟩
  | .sql (.insertMemoryRecord new) => some ⟨.memoryRecords, new.key.tenantId⟩
  | _ => none

/-! ## Statements and counts -/

section Statements

variable {b : Backend} {faults : Bool} {w w' : ApiWorld} {scope : Scope}

theorem activeMemory_append (row : MemoryRow) (tenantId : String) :
    ApiWorld.activeMemory { w with memoryRecords := w.memoryRecords ++ [row] } b tenantId ≤
      w.activeMemory b tenantId + if row.key.tenantId = tenantId then 1 else 0 := by
  show (w.memoryRecords ++ [row]).countP
    (fun row => row.key.tenantId = tenantId && row.isActive b w.clock) ≤ w.activeMemory b tenantId + _
  rw [List.countP_append, List.countP_singleton, ApiWorld.activeMemory]
  by_cases h : row.key.tenantId = tenantId
  · rw [if_pos h]
    split <;> omega
  · rw [if_neg h, if_neg (by simp [h])]

theorem tenantTriggers_append (row : TriggerRecord) (tenantId : String) :
    ApiWorld.tenantTriggers { w with triggers := w.triggers ++ [row] } tenantId =
      w.tenantTriggers tenantId + if row.tenantId = tenantId then 1 else 0 := by
  unfold ApiWorld.tenantTriggers
  rw [List.countP_append, List.countP_singleton]
  by_cases h : row.tenantId = tenantId <;> simp [h]

/-- A change of triggers that leaves each in its tenant. -/
theorem tenantTriggers_map {f : TriggerRecord → TriggerRecord} {rows : List TriggerRecord}
    (hf : ∀ row, (f row).tenantId = row.tenantId) (tenantId : String) :
    (rows.map f).countP (fun row => row.tenantId = tenantId) =
      rows.countP fun row => row.tenantId = tenantId := by
  rw [List.countP_map]
  apply List.countP_congr
  intro row _
  simp [hf row]

/-- What a statement does to the tables, as far as the counts can tell. -/
inductive Effect (b : Backend) (w w' : ApiWorld) (op : ApiOp) : Prop
  | quiet (hcount : ∀ scope, w'.count b scope = w.count b scope) (hrows : w'.rowCount = w.rowCount)
  | inserted (scope : Scope) (hinserts : op.inserts = some scope)
      (hrows : w'.rowCount = w.rowCount + 1)
      (hcount : ∀ scope', w'.count b scope' ≤ w.count b scope' + if scope' = scope then 1 else 0)

theorem effect_of_query {q : ApiQuery} {result : q.Result} (h : queryEffect b w q result w') :
    Effect b w w' (.sql q) := by
  have hsame : ∀ {w₁ : ApiWorld}, w₁.clock = w.clock → w₁.triggers = w.triggers →
      w₁.memoryRecords = w.memoryRecords → Effect b w w₁ (.sql q) := by
    intro w₁ hclock htriggers hmemory
    refine .quiet (fun scope => ?_) (by rw [ApiWorld.rowCount, htriggers, hmemory]; rfl)
    unfold ApiWorld.count ApiWorld.tenantTriggers ApiWorld.activeMemory
    rw [hclock, htriggers, hmemory]
  cases q with
  | countTenantTriggers tenantId => exact h.2 ▸ hsame rfl rfl rfl
  | countTenantMemoryRecords tenantId => exact h.2 ▸ hsame rfl rfl rfl
  | getTrigger tenantId triggerId => exact h.2 ▸ hsame rfl rfl rfl
  | findHeartbeatTrigger tenantId agentId candidate schedule => exact h.2.2 ▸ hsame rfl rfl rfl
  | getRunStatus tenantId runId => exact h.2 ▸ hsame rfl rfl rfl
  | countSteps stepId runId tenantId => exact h.2 ▸ hsame rfl rfl rfl
  | appendTriggerAuditEvent event => exact h.2 ▸ hsame rfl rfl rfl
  | appendAuditEvent event => exact h.2 ▸ hsame rfl rfl rfl
  | insertTrigger new =>
    obtain ⟨_, rfl, rfl⟩ := h
    refine .inserted ⟨.triggers, new.tenantId⟩ rfl ?_ fun scope => ?_
    · simp only [ApiWorld.rowCount, List.length_append, List.length_singleton]
      omega
    · obtain ⟨quota, tenantId⟩ := scope
      cases quota with
      | triggers =>
        show ApiWorld.tenantTriggers _ tenantId ≤ w.tenantTriggers tenantId + _
        rw [tenantTriggers_append]
        by_cases htenant : new.tenantId = tenantId
        · simp [NewTrigger.row, htenant]
        · simp [NewTrigger.row, htenant, Ne.symm htenant]
      | memoryRecords => exact Nat.le_add_right _ _
  | insertMemoryRecord new =>
    obtain ⟨_, rfl, rfl⟩ := h
    refine .inserted ⟨.memoryRecords, new.key.tenantId⟩ rfl ?_ fun scope => ?_
    · simp only [ApiWorld.rowCount, List.length_append, List.length_singleton]
      omega
    · obtain ⟨quota, tenantId⟩ := scope
      cases quota with
      | triggers => exact Nat.le_add_right _ _
      | memoryRecords =>
        refine (activeMemory_append _ tenantId).trans ?_
        by_cases htenant : new.key.tenantId = tenantId
        · simp [NewMemoryRow.stored, Memory.NewMemoryRecord.row, htenant, ApiWorld.count]
        · simp [NewMemoryRow.stored, Memory.NewMemoryRecord.row, htenant, Ne.symm htenant,
            ApiWorld.count]
  | updateTriggerConfig tenantId triggerId update =>
    obtain ⟨_, _, rfl⟩ := h
    have htenant : ∀ row, (if row.tenantId = tenantId && row.id = triggerId then
        update.row b w.clock row else row).tenantId = row.tenantId := by
      intro row
      split <;> rfl
    refine .quiet (fun scope => ?_) ?_
    · obtain ⟨quota, other⟩ := scope
      cases quota with
      | triggers => exact tenantTriggers_map htenant other
      | memoryRecords => rfl
    · simp [ApiWorld.rowCount, ApiWorld.updateTrigger]

theorem effect_of_step {op : ApiOp} {answer : op.Ans} (h : apiStep b faults w op answer w') :
    Effect b w w' op := by
  have hquiet : w' = w → Effect b w w' op := by
    rintro rfl
    exact .quiet (fun _ => rfl) rfl
  cases op with
  | nowUtc => exact hquiet h.2
  | newUuid => exact hquiet h.2
  | loadHeartbeat tenantId agentId => exact hquiet h
  | sql q =>
    cases answer with
    | ok result => exact effect_of_query h
    | error message =>
      rcases h with ⟨hsame, _⟩ | ⟨_, hsame | ⟨result, heffect⟩⟩
      · exact hquiet hsame
      · exact hquiet hsame
      · exact effect_of_query heffect

end Statements

/-! ## Requests in flight -/

/-- `request` has counted, or some request has inserted. -/
inductive CapacityEvent (ι : Type) where
  | counted (request : ι) (scope : Scope)
  | inserted (scope : Scope)
  deriving DecidableEq

/-- The tables, and what the requests have counted and inserted so far. -/
structure Traffic (ι : Type) where
  world : ApiWorld
  log : List (CapacityEvent ι)

section Traffic

variable {ι : Type}

/-- What a statement of `request` puts into the log. -/
def notes (request : ι) (op : ApiOp) (w w' : ApiWorld) : List (CapacityEvent ι) :=
  (op.counts.map (CapacityEvent.counted request)).toList ++
    if w'.rowCount = w.rowCount then [] else (op.inserts.map CapacityEvent.inserted).toList

/-- Everything else that goes on: the clock runs, triggers fire and are edited, memory
records are compacted and purged. -/
structure Background (s s' : Traffic ι) : Prop where
  clock : s.world.clock ≤ s'.world.clock
  triggers : ∃ f : TriggerRecord → TriggerRecord, (∀ row, (f row).tenantId = row.tenantId) ∧
    s'.world.triggers = s.world.triggers.map f
  memoryRecords : ∃ f : MemoryRow → MemoryRow, (∀ row, (f row).key.tenantId = row.key.tenantId ∧
    (f row).expiresAt = row.expiresAt ∧ ((f row).compactedAt = none → row.compactedAt = none)) ∧
    s'.world.memoryRecords.Sublist (s.world.memoryRecords.map f)
  log : s'.log = s.log

/-- The statements of a request, any of which can fail. -/
def requestHandler (b : Backend) (request : ι) : Handler ApiOp ApiOp.Ans (Traffic ι) :=
  Handler.interfered ⟨fun s op answer s' => apiStep b true s.world op answer s'.world ∧
    s'.log = s.log ++ notes request op s.world s'.world⟩ Background

/-- No statement takes a tenant over its limit. -/
def KeepsLimits (config : ApiConfig) (w w' : ApiWorld) : Prop :=
  ∀ scope limit, config.limit scope.quota = some limit →
    w'.count config.backend scope ≤ w.count config.backend scope ∨
      (w'.count config.backend scope : Int) ≤ limit

theorem isActive_mono {b : Backend} {now now' : Int} {row : MemoryRow} (hle : now ≤ now')
    (h : row.isActive b now' = true) : row.isActive b now = true := by
  simp only [MemoryRow.isActive, Bool.and_eq_true] at h ⊢
  refine ⟨h.1, ?_⟩
  cases hexpires : row.expiresAt with
  | none => rfl
  | some expires =>
    rw [hexpires, Option.all_some] at h
    have hmono := b.stamp_mono hle
    have hlt : b.stamp now' < b.stamp expires := of_decide_eq_true h.2
    exact decide_eq_true (by omega)

theorem count_background {b : Backend} {s s' : Traffic ι} (h : Background s s') (scope : Scope) :
    s'.world.count b scope ≤ s.world.count b scope := by
  obtain ⟨quota, tenantId⟩ := scope
  cases quota with
  | triggers =>
    obtain ⟨f, hf, htriggers⟩ := h.triggers
    show s'.world.tenantTriggers tenantId ≤ s.world.tenantTriggers tenantId
    rw [ApiWorld.tenantTriggers, htriggers, tenantTriggers_map hf]
    exact le_rfl
  | memoryRecords =>
    obtain ⟨f, hf, hsub⟩ := h.memoryRecords
    show s'.world.activeMemory b tenantId ≤ s.world.activeMemory b tenantId
    unfold ApiWorld.activeMemory
    refine (hsub.countP_le).trans ?_
    rw [List.countP_map]
    apply List.countP_mono_left
    intro row _ hrow
    obtain ⟨htenant, hexpires, hcompacted⟩ := hf row
    simp only [Function.comp_apply, Bool.and_eq_true, decide_eq_true_eq, htenant] at hrow ⊢
    refine ⟨hrow.1, isActive_mono h.clock ?_⟩
    simp only [MemoryRow.isActive, Bool.and_eq_true, hexpires, Option.isNone_iff_eq_none] at hrow ⊢
    exact ⟨hcompacted hrow.2.1, hrow.2.2⟩

/-! ## What one statement of a request does -/

section Steps

variable {config : ApiConfig} {request : ι} {s s' : Traffic ι} {op : ApiOp} {answer : op.Ans}

theorem mem_notes {w w' : ApiWorld} {e : CapacityEvent ι} (h : e ∈ notes request op w w') :
    (∃ scope, op.counts = some scope ∧ e = .counted request scope) ∨
      ∃ scope, op.inserts = some scope ∧ w'.rowCount ≠ w.rowCount ∧ e = .inserted scope := by
  rcases List.mem_append.mp h with h | h
  · cases hcounts : op.counts with
    | none => rw [hcounts] at h; cases h
    | some scope =>
      rw [hcounts] at h
      exact .inl ⟨scope, rfl, List.mem_singleton.mp h⟩
  · by_cases hrows : w'.rowCount = w.rowCount
    · rw [if_pos hrows] at h
      cases h
    · rw [if_neg hrows] at h
      cases hinserts : op.inserts with
      | none => rw [hinserts] at h; cases h
      | some scope =>
        rw [hinserts] at h
        exact .inr ⟨scope, rfl, hrows, List.mem_singleton.mp h⟩

/-- A statement that inserts nothing, whatever else goes on before it. -/
theorem keepsLimits_step (h : (requestHandler config.backend request).step s op answer s')
    (hinserts : op.inserts = none) : KeepsLimits config s.world s'.world := by
  intro scope limit _
  obtain ⟨mid, hmove, hstep, _⟩ := h
  have hle := count_background (b := config.backend) hmove scope
  rcases effect_of_step hstep with ⟨hcount, _⟩ | ⟨_, hinserted, _⟩
  · exact .inl ((hcount scope).le.trans hle)
  · rw [hinserts] at hinserted
    cases hinserted

end Steps

/-! ## Creates between a count and its insertion -/

variable [DecidableEq ι]

/-- Some request has inserted since `request` counted. -/
def insertedSinceCount (request : ι) (scope : Scope) (log : List (CapacityEvent ι)) : Bool :=
  Log.since (· = .counted request scope) (· = .inserted scope) log

/-- At an insertion that a limit is for, a create has not been overtaken. -/
def insertsAlone (config : ApiConfig) (request : ι) (s : Traffic ι) (op : ApiOp) : Prop :=
  ∀ scope, op.inserts = some scope → (config.limit scope.quota).isSome →
    insertedSinceCount request scope s.log = false

/-- The handler of the runs in which no create is overtaken. -/
def aloneHandler (config : ApiConfig) (request : ι) : Handler ApiOp ApiOp.Ans (Traffic ι) :=
  (requestHandler config.backend request).guarded (insertsAlone config request)

/-- What a request that has counted can rely on: as long as nothing is inserted the count
does not grow. -/
def CountsStand (b : Backend) (request : ι) (s s' : Traffic ι) : Prop :=
  ∀ scope, insertedSinceCount request scope s'.log = false →
    insertedSinceCount request scope s.log = false ∧
      s'.world.count b scope ≤ s.world.count b scope

theorem CountsStand.refl (b : Backend) (request : ι) (s : Traffic ι) : CountsStand b request s s :=
  fun _ h => ⟨h, le_rfl⟩

theorem CountsStand.trans {b : Backend} {request : ι} {s₁ s₂ s₃ : Traffic ι}
    (h₁ : CountsStand b request s₁ s₂) (h₂ : CountsStand b request s₂ s₃) :
    CountsStand b request s₁ s₃ := by
  intro scope hnone
  obtain ⟨hmid, hle₂⟩ := h₂ scope hnone
  obtain ⟨hstart, hle₁⟩ := h₁ scope hmid
  exact ⟨hstart, hle₂.trans hle₁⟩

section Steps

variable {config : ApiConfig} {request : ι} {s s' : Traffic ι} {op : ApiOp} {answer : op.Ans}

/-- Every statement but the request's own count. -/
theorem countsStand_step {b : Backend} {other : ι}
    (h : (requestHandler b request).step s op answer s')
    (hcounts : other = request → op.counts = none) : CountsStand b other s s' := by
  intro scope hnone
  obtain ⟨mid, hmove, hstep, hlog⟩ := h
  have hmark : ∀ e ∈ notes request op mid.world s'.world,
      decide (e = CapacityEvent.counted other scope) = false := by
    intro e he
    refine decide_eq_false ?_
    rintro rfl
    rcases mem_notes he with ⟨counted, hcounted, hsame⟩ | ⟨_, _, _, hsame⟩
    · cases hsame
      rw [hcounts rfl] at hcounted
      cases hcounted
    · cases hsame
  rw [insertedSinceCount, hlog, hmove.log] at hnone
  refine ⟨Log.since_of_append hmark hnone, ?_⟩
  have hquiet := Log.not_counts_of_since hmark hnone
  refine le_trans ?_ (count_background hmove scope)
  rcases effect_of_step hstep with ⟨hcount, _⟩ | ⟨inserted, hinserts, hrows, hcount⟩
  · exact (hcount scope).le
  · have hnote : CapacityEvent.inserted inserted ∈ notes request op mid.world s'.world := by
      refine List.mem_append_right _ ?_
      rw [if_neg (by omega), hinserts]
      exact List.mem_singleton_self _
    have hne : inserted ≠ scope := by simpa using hquiet _ hnote
    have hle := hcount scope
    rwa [if_neg (Ne.symm hne)] at hle

/-- The request has counted below the limit, and nothing was inserted since. -/
def Below (config : ApiConfig) (request : ι) (scope : Scope) (s : Traffic ι) : Prop :=
  ∀ limit, config.limit scope.quota = some limit →
    insertedSinceCount request scope s.log = false →
      (s.world.count config.backend scope : Int) < limit

theorem Below.mono {scope : Scope} (h : Below config request scope s)
    (hstand : CountsStand config.backend request s s') : Below config request scope s' := by
  intro limit hlimit hnone
  obtain ⟨hstart, hle⟩ := hstand scope hnone
  have hlt := h limit hlimit hstart
  omega

/-- The insertion of a create that has counted below the limit. -/
theorem keepsLimits_insert {scope : Scope} (hinserts : op.inserts = some scope)
    (hbelow : Below config request scope s)
    (h : (aloneHandler config request).step s op answer s') :
    KeepsLimits config s.world s'.world := by
  obtain ⟨halone, mid, hmove, hstep, _⟩ := h
  intro scope' limit hlimit
  have hle := count_background (b := config.backend) hmove scope'
  rcases effect_of_step hstep with ⟨hcount, _⟩ | ⟨inserted, hinserted, _, hcount⟩
  · exact .inl ((hcount scope').le.trans hle)
  · have hcount := hcount scope'
    by_cases hsame : scope' = inserted
    · rw [if_pos hsame] at hcount
      rw [hinserts, ← hsame, Option.some.injEq] at hinserted
      subst hinserted
      have hlt := hbelow limit hlimit (halone scope hinserts (Option.isSome_of_eq_some hlimit))
      exact .inr (by omega)
    · rw [if_neg hsame] at hcount
      exact .inl (by omega)

end Steps

/-! ## Programs -/

def capacityContract (config : ApiConfig) (request : ι) : Contract (Traffic ι) ApiOp where
  rely := CountsStand config.backend request
  guarantee := fun s s' => KeepsLimits config s.world s'.world ∧
    ∀ other, other ≠ request → CountsStand config.backend other s s'
  safe := fun _ _ => True
  rely_refl := CountsStand.refl config.backend request
  rely_trans := CountsStand.trans

/-- From every state with `I` on the program keeps its contract. -/
structure KeepsFrom (config : ApiConfig) (request : ι) (I : Traffic ι → Prop) {α : Type}
    (p : ApiProg α) : Prop where
  keeps : ∀ s, I s → wp (aloneHandler config request) (capacityContract config request) p
    (fun _ _ => True) s

def anyState : Traffic ι → Prop := fun _ => True

/-- A property that stands while nothing is inserted. -/
def Stands (config : ApiConfig) (request : ι) (I : Traffic ι → Prop) : Prop :=
  ∀ s s', I s → CountsStand config.backend request s s' → I s'

/-- The program neither counts nor inserts. -/
structure Quiet {α : Type} (p : ApiProg α) : Prop where
  calls : ∀ op, p.Issues op → op.counts = none ∧ op.inserts = none

section Programs

variable {config : ApiConfig} {request : ι} {I : Traffic ι → Prop} {α β : Type}

theorem stands_anyState : Stands config request (anyState : Traffic ι → Prop) :=
  fun _ _ _ _ => trivial

theorem stands_below (scope : Scope) : Stands config request (Below config request scope) :=
  fun _ _ h hstand => h.mono hstand

theorem KeepsFrom.of_anyState {p : ApiProg α} (h : KeepsFrom config request anyState p) :
    KeepsFrom config request I p :=
  ⟨fun s _ => h.keeps s trivial⟩

/-- A part that neither counts nor inserts. -/
theorem KeepsFrom.quiet_bind {p : ApiProg α} {f : α → ApiProg β} (hI : Stands config request I)
    (hp : Quiet p) (hf : ∀ a, KeepsFrom config request I (f a)) :
    KeepsFrom config request I (p >>= f) := by
  refine ⟨fun s hs => ?_⟩
  have hkeep : wp (aloneHandler config request) (capacityContract config request) p
      (fun s _ => I s) s := by
    refine Handler.wp_of_issues hI ?_ hs
    intro op hop s hs
    refine ⟨trivial, fun answer s' hstep => ?_⟩
    obtain ⟨hcounts, hinserts⟩ := hp.calls op hop
    refine ⟨⟨keepsLimits_step hstep.2 hinserts, fun other hne => ?_⟩, ?_⟩
    · exact countsStand_step hstep.2 fun hsame => absurd hsame hne
    · exact hI s s' hs (countsStand_step hstep.2 fun _ => hcounts)
  exact Handler.wp_seq hkeep (fun s a hs => (hf a).keeps s hs) fun _ _ _ => trivial

theorem KeepsFrom.of_quiet {p : ApiProg α} (hp : Quiet p) :
    KeepsFrom config request anyState p := by
  refine ⟨fun s _ => ?_⟩
  refine Handler.wp_mono (fun _ _ _ => trivial)
    (Handler.wp_of_issues (I := anyState) (fun _ _ _ _ => trivial) ?_ trivial)
  intro op hop s _
  refine ⟨trivial, fun answer s' hstep => ?_⟩
  obtain ⟨hcounts, hinserts⟩ := hp.calls op hop
  refine ⟨⟨keepsLimits_step hstep.2 hinserts, fun other hne => ?_⟩, trivial⟩
  exact countsStand_step hstep.2 fun hsame => absurd hsame hne

theorem KeepsFrom.bind {p : ApiProg α} {f : α → ApiProg β} (hp : KeepsFrom config request I p)
    (hf : ∀ a, KeepsFrom config request anyState (f a)) :
    KeepsFrom config request I (p >>= f) :=
  ⟨fun s hs => Handler.wp_seq (hp.keeps s hs) (fun s a _ => (hf a).keeps s trivial)
    fun _ _ _ => trivial⟩

/-- The insertion of a create that has counted below the limit. -/
theorem KeepsFrom.insert_bind {q : ApiQuery} {context : String} {scope : Scope}
    {f : q.Result → ApiProg α} (hinserts : (ApiOp.sql q).inserts = some scope)
    (hcounts : (ApiOp.sql q).counts = none) (hf : ∀ a, KeepsFrom config request anyState (f a)) :
    KeepsFrom config request (Below config request scope) (query q context >>= f) := by
  refine .bind ⟨fun s hs => ?_⟩ hf
  refine Handler.wp_perform_bind fun s₁ hrely => ⟨trivial, fun answer s₂ hstep => ?_⟩
  refine ⟨⟨keepsLimits_insert hinserts (hs.mono hrely) hstep, fun other _ => ?_⟩, ?_⟩
  · exact countsStand_step hstep.2 fun _ => hcounts
  · exact Handler.wp_ofExcept fun _ _ => trivial

/-- As long as nothing is inserted, the count stays below the answer. -/
def CountAnswered (config : ApiConfig) (request : ι) (scope : Scope) (s : Traffic ι) :
    Except ApiError Nat → Prop
  | .ok count => insertedSinceCount request scope s.log = false →
      s.world.count config.backend scope ≤ count
  | .error _ => True

theorem wp_count {q : ApiQuery} {context : String} {t : Scope} {s : Traffic ι}
    {Q : Traffic ι → Except ApiError q.Result → Prop} (hinserts : (ApiOp.sql q).inserts = none)
    (hok : ∀ w w' result s₃, queryEffect config.backend w q result w' →
      (insertedSinceCount request t s₃.log = false →
        s₃.world.count config.backend t ≤ w'.count config.backend t) → Q s₃ (.ok result))
    (herror : ∀ s₃ e, Q s₃ (.error e)) :
    wp (aloneHandler config request) (capacityContract config request) (query q context)
      Q s := by
  refine Handler.wp_perform_bind fun s₁ _ => ⟨trivial, fun answer s₂ hstep => ?_⟩
  refine ⟨⟨keepsLimits_step hstep.2 hinserts, fun other hne => ?_⟩, ?_⟩
  · exact countsStand_step hstep.2 fun hsame => absurd hsame hne
  · refine Handler.wp_ofExcept fun s₃ hrely => ?_
    cases answer with
    | error message => exact herror s₃ _
    | ok result =>
      obtain ⟨_, mid, _, heffect, _⟩ := hstep
      exact hok _ _ result s₃ heffect fun hnone => (hrely t hnone).2

theorem wp_countTenantTriggers (tenantId context : String) (s : Traffic ι) :
    wp (aloneHandler config request) (capacityContract config request)
      (query (.countTenantTriggers tenantId) context)
      (CountAnswered config request ⟨.triggers, tenantId⟩) s := by
  refine wp_count (t := ⟨.triggers, tenantId⟩) rfl ?_ fun _ _ => trivial
  intro w w' count s₃ heffect hle hnone
  rw [heffect.1, ← heffect.2]
  exact hle hnone

theorem wp_countTenantMemoryRecords (tenantId context : String) (s : Traffic ι) :
    wp (aloneHandler config request) (capacityContract config request)
      (query (.countTenantMemoryRecords tenantId) context)
      (CountAnswered config request ⟨.memoryRecords, tenantId⟩) s := by
  refine wp_count (t := ⟨.memoryRecords, tenantId⟩) rfl ?_ fun _ _ => trivial
  intro w w' count s₃ heffect hle hnone
  rw [heffect.1, ← heffect.2]
  exact hle hnone

/-- After the comparison with the limit there is room. -/
theorem KeepsFrom.ensure_bind {scope : Scope} {countRows : ApiProg Nat}
    {limited : Int → Nat → ApiError} {f : Unit → ApiProg α}
    (hcount : ∀ s, wp (aloneHandler config request) (capacityContract config request)
      countRows (CountAnswered config request scope) s)
    (hf : KeepsFrom config request (Below config request scope) (f ())) :
    KeepsFrom config request anyState
      (ensureTenantCapacity (config.limit scope.quota) countRows limited >>= f) := by
  refine ⟨fun s _ => ?_⟩
  unfold ensureTenantCapacity
  cases hlimit : config.limit scope.quota with
  | none =>
    refine hf.keeps s fun limit h => ?_
    rw [hlimit] at h
    cases h
  | some limit =>
    rw [Prog.bind_assoc]
    refine Handler.wp_seq (hcount s) ?_ fun _ _ _ => trivial
    intro s count hanswer
    by_cases hfull : limit ≤ (count : Int)
    · rw [if_pos hfull]
      exact fun _ _ => trivial
    · rw [if_neg hfull]
      refine hf.keeps s fun limit' hlimit' hnone => ?_
      rw [hlimit, Option.some.injEq] at hlimit'
      have hle := hanswer hnone
      omega

end Programs

/-! ## The endpoints -/

section Endpoints

variable {rt : ApiRuntime} {config : ApiConfig} {request : ι} {headers : HeaderMap}

@[simp] theorem issues_query {q : ApiQuery} {context : String} {op : ApiOp} :
    (query q context).Issues op ↔ op = .sql q := by
  simp [query, eq_comm]

@[simp] theorem issues_nowUtc {op : ApiOp} : nowUtc.Issues op ↔ op = .nowUtc := by
  simp [nowUtc, eq_comm]

@[simp] theorem issues_newUuid {op : ApiOp} : newUuid.Issues op ↔ op = .newUuid := by
  simp [newUuid, eq_comm]

theorem quiet_ofExcept {α : Type} (x : ApiResult α) : Quiet (Prog.ofExcept x : ApiProg α) := by
  refine ⟨fun op hop => ?_⟩
  simp at hop

theorem quiet_newUuid : Quiet newUuid := by
  refine ⟨fun op hop => ?_⟩
  rw [issues_newUuid.mp hop]
  exact ⟨rfl, rfl⟩

theorem quiet_nowUtc : Quiet nowUtc := by
  refine ⟨fun op hop => ?_⟩
  rw [issues_nowUtc.mp hop]
  exact ⟨rfl, rfl⟩

theorem quiet_pure {α : Type} (a : α) : Quiet (.pure a : ApiProg α) :=
  ⟨fun _ hop => hop.elim⟩

theorem quiet_fail {α : Type} (e : ApiError) : Quiet (.fail e : ApiProg α) :=
  ⟨fun _ hop => hop.elim⟩

theorem quiet_bind {α β : Type} {p : ApiProg α} {f : α → ApiProg β} (hp : Quiet p)
    (hf : ∀ a, Quiet (f a)) : Quiet (p >>= f) := by
  refine ⟨fun op hop => ?_⟩
  rcases (Prog.issues_bind p f).mp hop with hop | ⟨a, _, hop⟩
  · exact hp.calls op hop
  · exact (hf a).calls op hop

theorem quiet_query {q : ApiQuery} {context : String} (hcounts : (ApiOp.sql q).counts = none)
    (hinserts : (ApiOp.sql q).inserts = none) : Quiet (query q context) := by
  refine ⟨fun op hop => ?_⟩
  rw [issues_query.mp hop]
  exact ⟨hcounts, hinserts⟩

theorem quiet_appendTriggerAudit (tenantId : String) (triggerId : Uuid) (role : RolePreset)
    (eventType : String) (details : Json) :
    Quiet (appendTriggerAudit tenantId triggerId role eventType details) :=
  quiet_bind quiet_newUuid fun _ => quiet_query rfl rfl

theorem quiet_firstCronFireAt (b : Backend) (id : Uuid) (expression timezone : String)
    (jitterSeconds : Int) (context : String) :
    Quiet (firstCronFireAt rt b id expression timezone jitterSeconds context) := by
  cases b with
  | postgres =>
    refine quiet_bind quiet_nowUtc fun now => ?_
    cases rt.nextCronFireAt expression timezone now with
    | error message => exact quiet_fail _
    | ok next => exact quiet_bind quiet_nowUtc fun _ => quiet_pure _
  | sqlite => exact quiet_nowUtc

theorem quiet_webhookColumns (b : Backend) (secretRef : Option String) :
    Quiet (webhookColumns b secretRef) := by
  cases b with
  | postgres => exact quiet_pure _
  | sqlite => exact quiet_bind quiet_nowUtc fun _ => quiet_pure _

theorem quiet_validateMemoryRunAndStep (tenantId : String) (runId stepId : Option Uuid) :
    Quiet (validateMemoryRunAndStep tenantId runId stepId) := by
  refine quiet_bind ?_ fun _ => ?_
  · cases runId with
    | none => exact quiet_pure _
    | some runId =>
      refine quiet_bind (quiet_query rfl rfl) fun found => ?_
      show Quiet (if _ then _ else _)
      split
      · exact quiet_pure _
      · exact quiet_fail _
  · cases stepId with
    | none => exact quiet_pure _
    | some stepId =>
      cases runId with
      | none => exact quiet_fail _
      | some runId =>
        refine quiet_bind (quiet_query rfl rfl) fun count => ?_
        show Quiet (if _ then _ else _)
        split
        · exact quiet_fail _
        · exact quiet_pure _

theorem quiet_appendMemoryAudit (created : MemoryRow) (eventType : String) (payload : Json)
    (context : String) : Quiet (appendMemoryAudit created eventType payload context) := by
  unfold appendMemoryAudit
  cases created.runId with
  | none => exact quiet_pure _
  | some runId => exact quiet_bind quiet_newUuid fun _ => quiet_query rfl rfl

/-- The insertion of a trigger and what follows it. -/
theorem keepsFrom_insertNewTrigger {α : Type} {new : NewTrigger} {tenantId context : String}
    {f : TriggerRecord → ApiProg α} (htenant : new.tenantId = tenantId)
    (hf : ∀ created, Quiet (f created)) :
    KeepsFrom config request (Below config request ⟨.triggers, tenantId⟩)
      (insertNewTrigger config.backend new context >>= f) := by
  subst htenant
  cases config.backend with
  | postgres => exact .insert_bind rfl rfl fun created => .of_quiet (hf created)
  | sqlite =>
    show KeepsFrom _ _ _ ((query (.insertTrigger new) context >>= _) >>= f)
    rw [Prog.bind_assoc]
    refine .insert_bind rfl rfl fun _ => .of_quiet ?_
    refine quiet_bind (quiet_bind (quiet_query rfl rfl) fun found => ?_) hf
    cases found with
    | none => exact quiet_fail _
    | some created => exact quiet_pure _

theorem keepsFrom_ensureTrigger {α : Type} {tenantId : String} {f : Unit → ApiProg α}
    (hf : KeepsFrom config request (Below config request ⟨.triggers, tenantId⟩) (f ())) :
    KeepsFrom config request anyState (ensureTenantTriggerCapacity config tenantId >>= f) :=
  .ensure_bind (wp_countTenantTriggers tenantId _) hf

theorem keepsFrom_ensureMemory {α : Type} {tenantId : String} {f : Unit → ApiProg α}
    (hf : KeepsFrom config request (Below config request ⟨.memoryRecords, tenantId⟩) (f ())) :
    KeepsFrom config request anyState (ensureTenantMemoryCapacity config tenantId >>= f) :=
  .ensure_bind (wp_countTenantMemoryRecords tenantId _) hf

/-- A check before the count. -/
theorem keepsFrom_check {α β : Type} {x : ApiResult α} {f : α → ApiProg β}
    (hf : ∀ a, KeepsFrom config request anyState (f a)) :
    KeepsFrom config request anyState (Prog.ofExcept x >>= f) :=
  .quiet_bind stands_anyState (quiet_ofExcept x) hf

theorem keepsFrom_createTrigger (req : CreateTriggerRequest) :
    KeepsFrom config request anyState (createTriggerHandler rt config headers req) := by
  refine keepsFrom_check fun _ => keepsFrom_check fun grant => keepsFrom_ensureTrigger ?_
  refine .quiet_bind (stands_below _) quiet_newUuid fun id => ?_
  refine .quiet_bind (stands_below _) quiet_nowUtc fun now => ?_
  refine keepsFrom_insertNewTrigger rfl fun created => ?_
  exact quiet_bind (quiet_appendTriggerAudit ..) fun _ => quiet_pure _

theorem keepsFrom_createCronTrigger (req : CreateCronTriggerRequest) :
    KeepsFrom config request anyState (createCronTriggerHandler rt config headers req) := by
  refine keepsFrom_check fun _ => keepsFrom_check fun grant => keepsFrom_ensureTrigger ?_
  refine .quiet_bind (stands_below _) quiet_newUuid fun id => ?_
  refine .quiet_bind (stands_below _) (quiet_firstCronFireAt ..) fun nextFireAt => ?_
  refine keepsFrom_insertNewTrigger rfl fun created => ?_
  exact quiet_bind (quiet_appendTriggerAudit ..) fun _ => quiet_pure _

theorem keepsFrom_createWebhookTrigger (req : CreateWebhookTriggerRequest) :
    KeepsFrom config request anyState (createWebhookTriggerHandler rt config headers req) := by
  refine keepsFrom_check fun _ => keepsFrom_check fun grant => keepsFrom_ensureTrigger ?_
  refine .quiet_bind (stands_below _) quiet_newUuid fun id => ?_
  refine .quiet_bind (stands_below _) (quiet_webhookColumns ..) fun columns => ?_
  refine keepsFrom_insertNewTrigger rfl fun created => ?_
  exact quiet_bind (quiet_appendTriggerAudit ..) fun _ => quiet_pure _

theorem quiet_heartbeatFireAt (b : Backend) (id : Uuid) (candidate : HeartbeatTriggerCandidate)
    (schedule : HeartbeatSchedule) : Quiet (heartbeatFireAt rt b id candidate schedule) := by
  unfold heartbeatFireAt
  cases candidate.kind with
  | interval => exact quiet_bind quiet_nowUtc fun _ => quiet_pure _
  | cron => exact quiet_firstCronFireAt ..

theorem keepsFrom_materializeMissing (req : MaterializeHeartbeatRequest) (grant : HeartbeatGrant)
    (agentId : Uuid) (source : String) (candidate : HeartbeatTriggerCandidate)
    (schedule : HeartbeatSchedule) :
    KeepsFrom config request anyState
      (materializeMissing rt config req grant agentId source candidate schedule) := by
  refine keepsFrom_ensureTrigger ?_
  refine .quiet_bind (stands_below _) (quiet_ofExcept _) fun grantedCapabilities => ?_
  rw [createHeartbeatTrigger, Prog.bind_assoc]
  refine .quiet_bind (stands_below _) quiet_newUuid fun id => ?_
  rw [Prog.bind_assoc]
  refine .quiet_bind (stands_below _) (quiet_heartbeatFireAt ..) fun nextFireAt => ?_
  rw [Prog.bind_assoc]
  refine .insert_bind rfl rfl fun _ => .of_quiet (quiet_bind (quiet_pure id) fun created => ?_)
  exact quiet_bind (quiet_appendTriggerAudit ..) fun _ => quiet_pure _

/-- Each candidate counts for itself. -/
theorem keepsFrom_materializeCandidates (req : MaterializeHeartbeatRequest)
    (grant : HeartbeatGrant) (agentId : Uuid) (source : String)
    (candidates : List HeartbeatTriggerCandidate) :
    KeepsFrom config request anyState
      (materializeCandidates rt config req grant agentId source candidates) := by
  induction candidates with
  | nil => exact .of_quiet (quiet_pure _)
  | cons candidate candidates ih =>
    refine .bind ?_ fun _ => .bind ih fun _ => .of_quiet (quiet_pure _)
    unfold materializeCandidate
    by_cases happly : req.apply = true
    · rw [if_pos happly]
      refine keepsFrom_check fun schedule => ?_
      refine .quiet_bind stands_anyState (quiet_query rfl rfl) fun existing => ?_
      cases existing with
      | some existing => exact .of_quiet (quiet_pure _)
      | none => exact keepsFrom_materializeMissing ..
    · rw [if_neg happly]
      exact .of_quiet (quiet_pure _)

theorem keepsFrom_materializeAgentHeartbeat (agentId : Uuid) (req : MaterializeHeartbeatRequest) :
    KeepsFrom config request anyState
      (materializeAgentHeartbeatHandler rt config headers agentId req) := by
  have htext : ∀ tenantId, Quiet (heartbeatText req tenantId agentId) := by
    intro tenantId
    unfold heartbeatText
    cases req.heartbeatMarkdown.bind Text.nonEmptyTrimmed with
    | some text => exact quiet_pure _
    | none =>
      refine quiet_bind ?_ fun loaded => quiet_bind (quiet_ofExcept _) fun _ => quiet_pure _
      refine ⟨fun op hop => ?_⟩
      rw [← (Prog.issues_perform _).mp hop]
      exact ⟨rfl, rfl⟩
  refine keepsFrom_check fun grant => .quiet_bind stands_anyState (htext _) fun text => ?_
  show KeepsFrom _ _ _ (if _ then _ else _)
  split
  · exact .of_quiet (quiet_fail _)
  · exact keepsFrom_materializeCandidates ..

theorem keepsFrom_createMemoryRecord (req : CreateMemoryRecordRequest) :
    KeepsFrom config request anyState (createMemoryRecordHandler rt config headers req) := by
  refine keepsFrom_check fun tenantId => keepsFrom_ensureMemory ?_
  refine .quiet_bind (stands_below _) (quiet_ofExcept _) fun kind => ?_
  refine .quiet_bind (stands_below _) (quiet_validateMemoryRunAndStep ..) fun _ => ?_
  refine .quiet_bind (stands_below _) quiet_newUuid fun id => ?_
  refine .insert_bind rfl rfl fun created => .of_quiet ?_
  exact quiet_bind (quiet_appendMemoryAudit ..) fun _ => quiet_pure _

theorem keepsFrom_createHandoffPacket (req : CreateHandoffPacketRequest) :
    KeepsFrom config request anyState (createHandoffPacketHandler rt config headers req) := by
  refine keepsFrom_check fun tenantId => keepsFrom_ensureMemory ?_
  show KeepsFrom _ _ _ (if _ then _ else _)
  split
  · exact KeepsFrom.of_anyState (.of_quiet (quiet_fail _))
  · refine .quiet_bind (stands_below _) (quiet_validateMemoryRunAndStep ..) fun _ => ?_
    refine .quiet_bind (stands_below _) quiet_newUuid fun packetId => ?_
    refine .quiet_bind (stands_below _) quiet_newUuid fun id => ?_
    refine .insert_bind rfl rfl fun created => .of_quiet ?_
    exact quiet_bind (quiet_appendMemoryAudit ..) fun _ => quiet_pure _

theorem keepsFrom_handler (create : CreateRequest) :
    KeepsFrom config request anyState (create.handler rt config headers) := by
  cases create with
  | trigger req => exact .bind (keepsFrom_createTrigger req) fun _ => .of_quiet (quiet_pure _)
  | cronTrigger req =>
    exact .bind (keepsFrom_createCronTrigger req) fun _ => .of_quiet (quiet_pure _)
  | webhookTrigger req =>
    exact .bind (keepsFrom_createWebhookTrigger req) fun _ => .of_quiet (quiet_pure _)
  | heartbeats agentId req =>
    exact .bind (keepsFrom_materializeAgentHeartbeat agentId req) fun _ => .of_quiet (quiet_pure _)
  | memoryRecord req =>
    exact .bind (keepsFrom_createMemoryRecord req) fun _ => .of_quiet (quiet_pure _)
  | handoffPacket req =>
    exact .bind (keepsFrom_createHandoffPacket req) fun _ => .of_quiet (quiet_pure _)

end Endpoints

/-! ## Any number of requests -/

/-- The requests of a run, each with its headers, as programs of one family. -/
def createPrograms (rt : ApiRuntime) (config : ApiConfig) (requests : ι → HeaderMap × CreateRequest)
    (i : ι) : Prog (ι × ApiOp) (fun o => ApiOp.Ans o.2) ApiError CreateResponse :=
  ((requests i).2.handler rt config (requests i).1).tag i

/-- Any number of creates are served at once, on either back end, while everything else
goes on.  If no create's insertion is overtaken by another insertion for the tenant since
it counted, no statement takes a tenant over a limit. -/
theorem capacity_kept (rt : ApiRuntime) (config : ApiConfig)
    (requests : ι → HeaderMap × CreateRequest) {start s s' : Traffic ι}
    {ps ps' : ι → Prog (ι × ApiOp) (fun o => ApiOp.Ans o.2) ApiError CreateResponse}
    (hreach : PoolReaches (Handler.tagged (aloneHandler config))
      (start, createPrograms rt config requests) (s, ps))
    (hstep : PoolStep (Handler.tagged (aloneHandler config)) (s, ps) (s', ps')) :
    KeepsLimits config s.world s'.world := by
  have hcompat : ∀ i j : ι, i ≠ j → ∀ s s',
      ((capacityContract config i).tagged ι).guarantee s s' →
        ((capacityContract config j).tagged ι).rely s s' :=
    fun i j hne s s' hguar => hguar.2 j hne.symm
  have hkept : ∀ i, KeepsFrom config i anyState
      ((requests i).2.handler rt config (requests i).1) :=
    fun i => keepsFrom_handler (requests i).2
  obtain ⟨i, -, -, -, -, hguar⟩ := Handler.call_of_pool hcompat
    (fun i => Handler.wp_tag ((hkept i).keeps start trivial)) hreach hstep
  exact hguar.1

end Traffic

/-! ## Two creates at a limit of one -/

def bareRuntime : ApiRuntime where
  jitterHash := fun _ _ => 0
  nextCronFireAt := fun _ _ now => .ok now
  serializedLen := fun _ => 0
  sha256Hex := fun _ => ""
  parseUuid := fun _ => none
  timeJson := fun _ => .null
  compileAgentHeartbeatMarkdown := fun _ => ⟨[], []⟩

def oneTrigger : ApiConfig := ⟨.postgres, {}, some 1, none⟩

def anAgent : Uuid := .repeated 7

/-- Both requests are the same create for the same tenant. -/
def everyMinute (_ : Bool) : HeaderMap × CreateRequest :=
  ([("x-tenant-id", ⟨some "tenant-1"⟩)],
    .trigger { agentId := anAgent, recipeId := "recipe", input := .null, intervalSeconds := 60 })

def noTriggers : ApiWorld := ⟨0, [anAgent], [], [], [], [], [], [], []⟩

def triggerIdOf : Bool → Uuid
  | true => .repeated 1
  | false => .repeated 2

/-- The row that a request inserts. -/
def minuteTrigger (i : Bool) : NewTrigger where
  id := triggerIdOf i
  tenantId := "tenant-1"
  agentId := anAgent
  triggeredByUserId := none
  recipeId := "recipe"
  triggerType := .interval
  intervalSeconds := some 60
  maxAttempts := 3
  maxInflightRuns := 1
  jitterSeconds := 0
  inputJson := .null
  requestedCapabilities := .arr []
  grantedCapabilities := .arr []
  nextFireAt := some (60 * Trigger.second)

theorem Background.refl {ι : Type} (s : Traffic ι) : Background s s :=
  ⟨le_rfl, ⟨id, fun _ => rfl, (List.map_id _).symm⟩,
    ⟨id, fun _ => ⟨rfl, rfl, id⟩, by rw [List.map_id]⟩, rfl⟩

/-- A statement with nothing else going on before it. -/
theorem requestStep {ι : Type} {b : Backend} {request : ι} {s : Traffic ι} {w' : ApiWorld}
    {op : ApiOp} {answer : op.Ans} (h : apiStep b true s.world op answer w') :
    (requestHandler b request).step s op answer
      ⟨w', s.log ++ notes request op s.world w'⟩ :=
  ⟨s, .refl s, h, rfl⟩

/-- Both requests count no trigger before either inserts, and both insert. -/
theorem capacity_overrun :
    ¬ ∀ s ps s' ps', PoolReaches (Handler.tagged (requestHandler oneTrigger.backend))
        (⟨noTriggers, []⟩, createPrograms bareRuntime oneTrigger everyMinute) (s, ps) →
      PoolStep (Handler.tagged (requestHandler oneTrigger.backend)) (s, ps) (s', ps') →
        KeepsLimits oneTrigger s.world s'.world := by
  intro h
  have hstart : PoolReaches (Handler.tagged (requestHandler (ι := Bool) oneTrigger.backend))
      (⟨noTriggers, []⟩, createPrograms bareRuntime oneTrigger everyMinute) _ := .refl
  have hcounted := (hstart.focus (i := true) rfl).then_call (.ok (0 : Nat)) _
    (requestStep ⟨rfl, rfl⟩)
  have hcounted' := (hcounted.focus (i := false) rfl).then_call (.ok (0 : Nat)) _
    (requestStep ⟨rfl, rfl⟩)
  have hready := ((hcounted'.focus (i := true) rfl).then_call (triggerIdOf true) _
    (requestStep ⟨by decide, rfl⟩)).then_call (0 : Int) _ (requestStep ⟨rfl, rfl⟩)
  have hinserted := hready.then_call (.ok ((minuteTrigger true).row .postgres 0)) _
    (requestStep ⟨⟨by decide, by decide, nofun, by decide⟩, rfl, rfl⟩)
  have hready' := ((hinserted.focus (i := false) rfl).then_call (triggerIdOf false) _
    (requestStep ⟨by decide, rfl⟩)).then_call (0 : Int) _ (requestStep ⟨rfl, rfl⟩)
  have hkept := fun answer w' hstep =>
    h _ _ _ _ hready' (.of_call answer _ (@requestStep _ _ _ _ w' _ answer hstep))
  have hlast := hkept (.ok ((minuteTrigger false).row .postgres 0)) _
    ⟨⟨by decide, by decide, nofun, by decide⟩, rfl, rfl⟩
  rcases hlast ⟨.triggers, "tenant-1"⟩ 1 rfl with hle | hle
  · exact absurd hle (by decide)
  · exact absurd hle (by decide)

def twoTriggers : ApiConfig := ⟨.postgres, {}, some 2, none⟩

/-- The second request counts what the first has inserted, and takes the tenant to the limit. -/
theorem capacity_kept_inTurn : ∃ w w', w.tenantTriggers "tenant-1" = 1 ∧
    w'.tenantTriggers "tenant-1" = 2 ∧ KeepsLimits twoTriggers w w' := by
  have hstart : PoolReaches (Handler.tagged (aloneHandler (ι := Bool) twoTriggers))
      (⟨noTriggers, []⟩, createPrograms bareRuntime twoTriggers everyMinute) _ := .refl
  have hcounted := (hstart.focus (i := true) rfl).then_call (.ok (0 : Nat)) _
    ⟨nofun, requestStep ⟨rfl, rfl⟩⟩
  have hready := (hcounted.then_call (triggerIdOf true) _
    ⟨nofun, requestStep ⟨by decide, rfl⟩⟩).then_call (0 : Int) _ ⟨nofun, requestStep ⟨rfl, rfl⟩⟩
  have halone : insertsAlone twoTriggers true
      ⟨noTriggers, [.counted true ⟨.triggers, "tenant-1"⟩]⟩
      (.sql (.insertTrigger (minuteTrigger true))) := by
    rintro _ ⟨⟩ _
    decide
  have hinserted := hready.then_call (.ok ((minuteTrigger true).row .postgres 0)) _
    ⟨halone, requestStep ⟨⟨by decide, by decide, nofun, by decide⟩, rfl, rfl⟩⟩
  have hcounted' := (hinserted.focus (i := false) rfl).then_call (.ok (1 : Nat)) _
    ⟨nofun, requestStep ⟨rfl, rfl⟩⟩
  have hready' := (hcounted'.then_call (triggerIdOf false) _
    ⟨nofun, requestStep ⟨by decide, rfl⟩⟩).then_call (0 : Int) _ ⟨nofun, requestStep ⟨rfl, rfl⟩⟩
  have hkept := fun answer w' halone hstep =>
    capacity_kept bareRuntime twoTriggers everyMinute hready'
      (.of_call answer _ ⟨halone, @requestStep _ _ _ _ w' _ answer hstep⟩)
  have hsince : insertedSinceCount false ⟨.triggers, "tenant-1"⟩
      [.counted true ⟨.triggers, "tenant-1"⟩, .inserted ⟨.triggers, "tenant-1"⟩,
        .counted false ⟨.triggers, "tenant-1"⟩] = false := by decide
  refine ⟨_, _, ?_, ?_, hkept (.ok ((minuteTrigger false).row .postgres 0)) _ ?_
    ⟨⟨by decide, by decide, nofun, by decide⟩, rfl, rfl⟩⟩
  · rfl
  · rfl
  · rintro _ ⟨⟩ _
    exact hsince

end Api
end SecureAgnt

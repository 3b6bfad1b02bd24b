/-
The caps on running runs.

A claim reads the counts, picks a candidate and updates it, in one statement each.
`caps_kept` says that the caps hold in every run in which no other claim takes
effect between the count and the update; `caps_overrun` is a run in which one does.
-/
import SecureAgnt.Runs.Lease

namespace SecureAgnt
namespace Runs

open Storage
open Handler (PoolReaches wp)

/-! ## What the caps count -/

/-- The runs of a tenant, or all of them. -/
def RunRow.inScope (scope : Option String) (row : RunRow) : Bool :=
  row.status = .running && scope.all (row.tenantId = ·)

def RunTable.inflight (t : RunTable) (scope : Option String) : Nat :=
  t.rows.countP (·.inScope scope)

theorem RunTable.inflight_none (t : RunTable) : t.inflight none = t.running := by
  unfold inflight running
  apply List.countP_congr
  intro row _
  simp [RunRow.inScope]

theorem RunTable.inflight_some (t : RunTable) (tenantId : String) :
    t.inflight (some tenantId) = t.tenantRunning tenantId := by
  unfold inflight tenantRunning
  apply List.countP_congr
  intro row _
  simp [RunRow.inScope, and_comm]

/-- The update makes the row one that is counted. -/
def RunUpdate.adds (u : RunUpdate) (scope : Option String) (row : RunRow) : Bool :=
  u.selects row && !row.inScope scope && (u.change row).inScope scope

theorem countP_map_row_le (u : RunUpdate) (scope : Option String) (rows : List RunRow) :
    (rows.map u.row).countP (·.inScope scope) ≤
      rows.countP (·.inScope scope) + rows.countP (u.adds scope) := by
  induction rows with
  | nil => exact Nat.le_refl 0
  | cons row rows ih =>
    rw [List.map_cons, List.countP_cons, List.countP_cons, List.countP_cons]
    have hrow : (u.row row).inScope scope = true →
        row.inScope scope = true ∨ u.adds scope row = true := by
      intro h
      by_cases hsel : u.selects row = true
      · rw [RunUpdate.row_of_selects hsel] at h
        cases hold : row.inScope scope with
        | true => exact .inl rfl
        | false => exact .inr (by simp [RunUpdate.adds, hsel, hold, h])
      · rw [RunUpdate.row_of_not_selects hsel] at h
        exact .inl h
    by_cases hnew : (u.row row).inScope scope = true
    · rcases hrow hnew with h | h
      · rw [if_pos hnew, if_pos h]
        omega
      · rw [if_pos hnew, if_pos h]
        omega
    · rw [if_neg hnew]
      omega

theorem RunTable.inflight_apply_le (t : RunTable) (u : RunUpdate) (scope : Option String) :
    (t.apply u).inflight scope ≤ t.inflight scope + t.rows.countP (u.adds scope) :=
  countP_map_row_le u scope t.rows

/-- An update that makes no run running. -/
theorem RunTable.inflight_apply_le_of_quiet {t : RunTable} {u : RunUpdate}
    (h : ∀ row ∈ t.rows, u.selects row = true → (u.change row).status = .running →
      row.status = .running) (scope : Option String) :
    (t.apply u).inflight scope ≤ t.inflight scope := by
  have hnone : t.rows.countP (u.adds scope) = 0 := by
    rw [List.countP_eq_zero]
    intro row hrow hadds
    simp only [RunUpdate.adds, RunRow.inScope, u.keeps_tenant, Bool.and_eq_true,
      Bool.not_eq_true', decide_eq_true_eq] at hadds
    obtain ⟨⟨hsel, hnot⟩, hrunning, hscope⟩ := hadds
    rw [h row hrow hsel hrunning, hscope] at hnot
    exact absurd hnot (by decide)
  have hle := t.inflight_apply_le u scope
  omega

theorem countP_id_le_one {t : RunTable} (runId : String) :
    t.rows.countP (fun row => decide (row.id = runId)) ≤ 1 := by
  have hcount : t.rows.countP (fun row => decide (row.id = runId)) =
      (t.rows.map (·.id)).count runId := by
    rw [List.count, List.countP_map]
    apply List.countP_congr
    intro row _
    simp
  rw [hcount]
  exact List.nodup_iff_count_le_one.mp t.keys runId

/-- A claim adds one to the counts of its run's tenant. -/
theorem RunTable.inflight_claim_le {t : RunTable} {b : Backend} {now leaseMs : Int}
    {runId workerId tenantId : String} {clientNow : Option Int}
    (htenant : ∀ row ∈ t.rows, row.id = runId → row.tenantId = tenantId) (scope : Option String) :
    (t.apply (claimUpdate b now runId workerId clientNow leaseMs)).inflight scope ≤
      t.inflight scope + if scope.all (tenantId = ·) then 1 else 0 := by
  have hle := t.inflight_apply_le (claimUpdate b now runId workerId clientNow leaseMs) scope
  have hadds : ∀ row ∈ t.rows,
      (claimUpdate b now runId workerId clientNow leaseMs).adds scope row = true →
        row.id = runId ∧ scope.all (tenantId = ·) = true := by
    intro row hrow h
    simp only [RunUpdate.adds, RunRow.inScope, RunUpdate.keeps_tenant, Bool.and_eq_true] at h
    have hid := (selects_claimUpdate h.1.1).1
    rw [htenant row hrow hid] at h
    exact ⟨hid, h.2.2⟩
  by_cases hscope : scope.all (tenantId = ·) = true
  · rw [if_pos hscope]
    have hone : t.rows.countP ((claimUpdate b now runId workerId clientNow leaseMs).adds scope) ≤
        t.rows.countP (fun row => decide (row.id = runId)) := by
      apply List.countP_mono_left
      intro row hrow h
      exact decide_eq_true (hadds row hrow h).1
    have := countP_id_le_one (t := t) runId
    omega
  · rw [if_neg hscope]
    have hzero : t.rows.countP
        ((claimUpdate b now runId workerId clientNow leaseMs).adds scope) = 0 := by
      rw [List.countP_eq_zero]
      intro row hrow h
      exact hscope (hadds row hrow h).2
    omega

def QueueOp.claims : QueueOp → Bool
  | .claimRun .. => true
  | _ => false

/-- No statement but a claim makes a run running. -/
theorem inflight_step_le {b : Backend} {concurrent : Bool} {w w' : QueueWorld} {op : QueueOp}
    {answer : QueueAns op} (hstep : queueStep b concurrent w op answer w')
    (hop : op.claims = false) (scope : Option String) :
    w'.runs.inflight scope ≤ w.runs.inflight scope := by
  obtain ⟨now, _, heffect⟩ := effect_of_step hstep
  cases heffect with
  | noted events hnotes => exact le_rfl
  | created row hrow hnew =>
    show (w.runs.rows ++ [row]).countP (·.inScope scope) ≤ _
    have hnot : row.inScope scope = false := by simp [RunRow.inScope, hrow.1]
    rw [List.countP_append, List.countP_singleton, hnot]
    exact le_rfl
  | claimed runId workerId clientNow leaseMs hclaim =>
    rw [hclaim] at hop
    cases hop
  | renewed runId workerId clientNow leaseMs hrenew =>
    exact RunTable.inflight_apply_le_of_quiet (fun _ _ hsel _ => (selects_renewUpdate hsel).2.1) scope
  | finished runId workerId clientNow status errorJson hfinish =>
    exact RunTable.inflight_apply_le_of_quiet (fun _ _ hsel _ => (selects_finishUpdate hsel).2.1) scope
  | requeued locked limit hrequeue =>
    exact RunTable.inflight_apply_le_of_quiet
      (fun _ hrow hsel _ => selects_requeueUpdate hrow hsel) scope

/-- The run is in the table, and its tenant is the one noted. -/
def HasTenant (w : QueueWorld) (runId tenantId : String) : Prop :=
  ∃ row ∈ w.runs.rows, row.id = runId ∧ row.tenantId = tenantId

/-- A run stays in the table and keeps its tenant. -/
theorem hasTenant_step {b : Backend} {concurrent : Bool} {w w' : QueueWorld} {op : QueueOp}
    {answer : QueueAns op} {runId tenantId : String} (h : HasTenant w runId tenantId)
    (hstep : queueStep b concurrent w op answer w') : HasTenant w' runId tenantId := by
  obtain ⟨now, _, heffect⟩ := effect_of_step hstep
  obtain ⟨row, hrow, hid, htenant⟩ := h
  have hupdate : ∀ {u events}, HasTenant (w.update now u events) runId tenantId :=
    fun {u _} => ⟨u.row row, RunTable.mem_apply.mpr ⟨row, hrow, rfl⟩, (u.row_id row).trans hid,
      (u.row_tenantId row).trans htenant⟩
  cases heffect with
  | noted events hnotes => exact ⟨row, hrow, hid, htenant⟩
  | created row' hrow' hnew => exact ⟨row, List.mem_append_left _ hrow, hid, htenant⟩
  | claimed runId workerId clientNow leaseMs hop => exact hupdate
  | renewed runId workerId clientNow leaseMs hop => exact hupdate
  | finished runId workerId clientNow status errorJson hop => exact hupdate
  | requeued locked limit hop => exact hupdate

theorem HasTenant.tenant_eq {w : QueueWorld} {runId tenantId : String}
    (h : HasTenant w runId tenantId) :
    ∀ row ∈ w.runs.rows, row.id = runId → row.tenantId = tenantId := by
  obtain ⟨row, hrow, hid, htenant⟩ := h
  intro row' hrow' hid'
  rw [w.runs.eq_of_id hrow' hrow (hid'.trans hid.symm)]
  exact htenant

/-! ## Claims between a count and its update -/

def QueueEvent.isClaim : QueueEvent → Bool
  | .claimed _ _ => true
  | _ => false

/-- Some claim has taken effect since the worker counted. -/
def claimedSinceCount (workerId : String) (log : List QueueEvent) : Bool :=
  (log.reverse.takeWhile (· ≠ .counted workerId)).any (·.isClaim)

theorem claimedSinceCount_append (workerId : String) (log : List QueueEvent) (e : QueueEvent) :
    claimedSinceCount workerId (log ++ [e]) =
      if e = .counted workerId then false else e.isClaim || claimedSinceCount workerId log := by
  rw [claimedSinceCount, List.reverse_append, List.reverse_singleton, List.singleton_append,
    List.takeWhile_cons]
  by_cases he : e = .counted workerId
  · rw [if_pos he, if_neg (by simp [he]), List.any_nil]
  · rw [if_neg he, if_pos (by simp [he]), List.any_cons]
    rfl

/-- At its update, a claim has not been overtaken. -/
def claimsAlone (w : QueueWorld) : QueueOp → Prop
  | .claimRun _ workerId _ _ => claimedSinceCount workerId w.log = false
  | _ => True

/-- What a worker that has counted can rely on: runs stay where they are, and as long
as no claim takes effect the counts do not grow. -/
structure CountsStand (workerId : String) (w w' : QueueWorld) : Prop where
  tenants : ∀ runId tenantId, HasTenant w runId tenantId → HasTenant w' runId tenantId
  counts : claimedSinceCount workerId w'.log = false →
    claimedSinceCount workerId w.log = false ∧
      ∀ scope, w'.runs.inflight scope ≤ w.runs.inflight scope

theorem CountsStand.refl (workerId : String) (w : QueueWorld) : CountsStand workerId w w :=
  ⟨fun _ _ h => h, fun h => ⟨h, fun _ => le_rfl⟩⟩

theorem CountsStand.trans {workerId : String} {w₁ w₂ w₃ : QueueWorld}
    (h₁ : CountsStand workerId w₁ w₂) (h₂ : CountsStand workerId w₂ w₃) :
    CountsStand workerId w₁ w₃ := by
  refine ⟨fun runId tenantId h => h₂.tenants _ _ (h₁.tenants _ _ h), fun h => ?_⟩
  obtain ⟨hmid, hle₂⟩ := h₂.counts h
  obtain ⟨hstart, hle₁⟩ := h₁.counts hmid
  exact ⟨hstart, fun scope => (hle₂ scope).trans (hle₁ scope)⟩

section Steps

variable {b : Backend} {concurrent : Bool} {w w' : QueueWorld}

theorem countsStand_claim {runId claimer : String} {clientNow : Option Int} {leaseMs : Int}
    {answer : QueueAns (.claimRun runId claimer clientNow leaseMs)} (workerId : String)
    (hstep : queueStep b concurrent w (.claimRun runId claimer clientNow leaseMs) answer w') :
    CountsStand workerId w w' := by
  refine ⟨fun _ _ h => hasTenant_step h hstep, fun hnone => ?_⟩
  obtain ⟨now, _, _, rfl⟩ := hstep
  by_cases haff : w.runs.affected (claimUpdate b now runId claimer clientNow leaseMs) = true
  · rw [update_log haff, claimedSinceCount_append, if_neg QueueEvent.noConfusion] at hnone
    exact absurd hnone (by rw [QueueEvent.isClaim, Bool.true_or]; decide)
  · have hlog : (w.update now (claimUpdate b now runId claimer clientNow leaseMs)
        [.claimed claimer runId]).log = w.log := by
      rcases w.update_log now (claimUpdate b now runId claimer clientNow leaseMs)
        [.claimed claimer runId] with h | ⟨h, _⟩
      · exact h
      · exact absurd h haff
    rw [hlog] at hnone
    refine ⟨hnone, fun scope => ?_⟩
    show List.countP _ (w.runs.apply _).rows ≤ _
    rw [RunTable.apply_of_not_affected haff]
    exact le_rfl

/-- Events that are no counts of the worker's bring no claim to an end. -/
theorem claimedSinceCount_appendAll {workerId : String} {log events : List QueueEvent}
    (hcount : ∀ e ∈ events, e ≠ .counted workerId)
    (h : claimedSinceCount workerId (log ++ events) = false) :
    claimedSinceCount workerId log = false := by
  induction events using List.reverseRecOn with
  | nil => rwa [List.append_nil] at h
  | append_singleton events e ih =>
    have he := hcount e (List.mem_append_right _ List.mem_cons_self)
    rw [← List.append_assoc, claimedSinceCount_append, if_neg he, Bool.or_eq_false_iff] at h
    exact ih (fun e' he' => hcount e' (List.mem_append_left _ he')) h.2

/-- Every statement but the worker's own count. -/
theorem countsStand_step {op : QueueOp} {answer : QueueAns op} {workerId : String}
    (hstep : queueStep b concurrent w op answer w') (hop : op ≠ .countRunning workerId) :
    CountsStand workerId w w' := by
  by_cases hclaim : op.claims = true
  · cases op with
    | claimRun runId claimer clientNow leaseMs => exact countsStand_claim workerId hstep
    | _ => cases hclaim
  · refine ⟨fun _ _ h => hasTenant_step h hstep, fun hnone => ?_⟩
    refine ⟨?_, inflight_step_le hstep (eq_false_of_ne_true hclaim)⟩
    obtain ⟨events, hlog, hevents⟩ := log_step hstep
    rw [hlog] at hnone
    refine claimedSinceCount_appendAll (fun e he => ?_) hnone
    rintro rfl
    rcases hevents _ he with hnote | hmove
    · obtain ⟨other, hcounts, hsame⟩ | ⟨_, _, _, hsame⟩ := hnote.cases
      · cases hsame
        exact hop hcounts
      · cases hsame
    · cases op <;> cases hmove

end Steps

/-! ## Workers under the caps -/

def capOf (globalMax tenantMax : Int) : Option String → Int
  | none => globalMax
  | some _ => tenantMax

def WithinCaps (globalMax tenantMax : Int) (w : QueueWorld) : Prop :=
  ∀ scope, (w.runs.inflight scope : Int) ≤ capOf globalMax tenantMax scope

def capContract (globalMax tenantMax : Int) (workerId : String) :
    Contract QueueWorld QueueOp where
  rely := CountsStand workerId
  guarantee := fun w w' => (WithinCaps globalMax tenantMax w → WithinCaps globalMax tenantMax w') ∧
    ∀ other, other ≠ workerId → CountsStand other w w'
  safe := fun _ _ => True
  rely_refl := CountsStand.refl workerId
  rely_trans := CountsStand.trans

/-- The calls of a worker that claims under these caps only. -/
def QueueCall.claimsUnder (globalMax tenantMax : Int) : QueueCall → Prop
  | .claimNextQueuedRun _ => False
  | .claimNextQueuedRunWithLimits _ globalMax' tenantMax' =>
    globalMax' = globalMax ∧ tenantMax' = tenantMax
  | _ => True

/-- The program keeps the caps when its claims are not overtaken. -/
def KeepsCaps (b : Backend) (globalMax tenantMax : Int) (workerId : String) {α : Type}
    (p : QueueProg α) : Prop :=
  ∀ w, wp ((queueHandler b true).guarded claimsAlone) (capContract globalMax tenantMax workerId) p
    (fun _ _ => True) w

section Caps

variable {b : Backend} {globalMax tenantMax : Int} {workerId : String} {α β : Type}

/-- What a statement that is no claim guarantees. -/
theorem capContract_guarantee {w w' : QueueWorld} {op : QueueOp} {answer : QueueAns op}
    (hstep : queueStep b true w op answer w') (hclaim : op.claims = false)
    (hcount : ∀ other, other ≠ workerId → op ≠ .countRunning other) :
    (capContract globalMax tenantMax workerId).guarantee w w' := by
  refine ⟨fun hwithin scope => ?_, fun other hne => countsStand_step hstep (hcount other hne)⟩
  have hle := inflight_step_le hstep hclaim scope
  have hcap := hwithin scope
  omega

theorem KeepsCaps.pure (a : α) : KeepsCaps b globalMax tenantMax workerId (.pure a) :=
  fun _ _ _ => trivial

theorem KeepsCaps.fail (e : String) :
    KeepsCaps b globalMax tenantMax workerId (.fail e : QueueProg α) :=
  fun _ _ _ => trivial

theorem KeepsCaps.bind {p : QueueProg α} {f : α → QueueProg β}
    (hp : KeepsCaps b globalMax tenantMax workerId p)
    (hf : ∀ a, KeepsCaps b globalMax tenantMax workerId (f a)) :
    KeepsCaps b globalMax tenantMax workerId (p >>= f) :=
  fun w => Handler.wp_seq (hp w) (fun w a _ => hf a w) fun _ _ _ => trivial

/-- A statement that neither counts nor claims. -/
theorem KeepsCaps.ask {op : QueueOp} (hclaim : op.claims = false)
    (hcount : ∀ other, op ≠ .countRunning other) :
    KeepsCaps b globalMax tenantMax workerId (askQueue op) := by
  intro w
  refine Handler.wp_perform fun w' _ => ⟨trivial, fun answer w'' hstep => ⟨?_, fun _ _ => trivial⟩⟩
  exact capContract_guarantee hstep.2 hclaim fun other _ => hcount other

theorem KeepsCaps.tryQueue {p : QueueProg (Except String α)}
    (h : KeepsCaps b globalMax tenantMax workerId p) :
    KeepsCaps b globalMax tenantMax workerId (tryQueue p) := by
  refine .bind h fun answer => ?_
  cases answer with
  | ok a => exact .pure a
  | error e => exact .fail e

theorem keepsCaps_clientNow : KeepsCaps b globalMax tenantMax workerId (clientNow b) := by
  cases b with
  | postgres => exact .pure none
  | sqlite => exact .bind (.ask rfl nofun) fun now => .pure (some now)

theorem keepsCaps_claimedRow (row : RunRow) :
    KeepsCaps b globalMax tenantMax workerId (claimedRow b row) := by
  cases b with
  | postgres => exact .pure (some row)
  | sqlite =>
    refine .bind (.ask rfl nofun) fun found => ?_
    cases found with
    | none => exact .fail _
    | some row => exact .pure (some row)

/-- The update of a claim that has counted `globalCount` runs and `tenantCount` of the
tenant's keeps the caps. -/
theorem withinCaps_claim {w w' : QueueWorld} {runId claimer tenantId : String}
    {clientNow : Option Int} {leaseMs : Int} {globalCount tenantCount : Nat}
    {answer : QueueAns (.claimRun runId claimer clientNow leaseMs)}
    (hstep : queueStep b true w (.claimRun runId claimer clientNow leaseMs) answer w')
    (htenant : HasTenant w runId tenantId) (hglobal : w.runs.inflight none ≤ globalCount)
    (hlt : globalCount < globalMax) (hcount : w.runs.inflight (some tenantId) ≤ tenantCount)
    (hlt' : tenantCount < tenantMax) (h : WithinCaps globalMax tenantMax w) :
    WithinCaps globalMax tenantMax w' := by
  obtain ⟨now, _, _, rfl⟩ := hstep
  intro scope
  have hle : ((w.runs.apply (claimUpdate b now runId claimer clientNow leaseMs)).inflight scope) ≤ _ :=
    RunTable.inflight_claim_le htenant.tenant_eq scope
  have hcap := h scope
  show ((w.runs.apply (claimUpdate b now runId claimer clientNow leaseMs)).inflight scope : Int) ≤ _
  cases scope with
  | none =>
    rw [Option.all_none, if_pos rfl] at hle
    show _ ≤ globalMax
    omega
  | some other =>
    rw [Option.all_some] at hle
    by_cases hother : tenantId = other
    · subst hother
      rw [if_pos (decide_eq_true rfl)] at hle
      show _ ≤ tenantMax
      omega
    · rw [if_neg (by simp [hother])] at hle
      omega

theorem wp_claimCandidates {clientNow : Option Int} {leaseMs : Int} {globalCount : Nat}
    (hlt : globalCount < globalMax) (candidates : List RunRow) (w : QueueWorld)
    (hcount : claimedSinceCount workerId w.log = false → w.runs.inflight none ≤ globalCount)
    (htenants : ∀ candidate ∈ candidates, HasTenant w candidate.id candidate.tenantId) :
    wp ((queueHandler b true).guarded claimsAlone) (capContract globalMax tenantMax workerId)
      (claimCandidates b workerId clientNow leaseMs tenantMax candidates) (fun _ _ => True) w := by
  induction candidates generalizing w with
  | nil => exact fun _ _ => trivial
  | cons candidate candidates ih =>
    have hnext : ∀ {w'}, CountsStand workerId w w' →
        wp ((queueHandler b true).guarded claimsAlone) (capContract globalMax tenantMax workerId)
          (claimCandidates b workerId clientNow leaseMs tenantMax candidates)
          (fun _ _ => True) w' := by
      intro w' hstand
      apply ih
      · intro hnone
        obtain ⟨hstart, hle⟩ := hstand.counts hnone
        exact (hle none).trans (hcount hstart)
      · intro other hother
        exact hstand.tenants _ _ (htenants other (List.mem_cons_of_mem _ hother))
    refine Handler.wp_perform_bind fun w₁ hrely => ⟨trivial, fun tenantCount w₂ hstep => ?_⟩
    have hquiet : CountsStand workerId w₁ w₂ := countsStand_step hstep.2 nofun
    have hstand := hrely.trans hquiet
    refine ⟨capContract_guarantee hstep.2 rfl nofun, ?_⟩
    obtain ⟨_, now, _, htenant, rfl⟩ := hstep
    by_cases hroom : (tenantCount : Nat) ≥ tenantMax
    · rw [if_pos hroom]
      exact hnext hstand
    · rw [if_neg hroom]
      refine Handler.wp_perform_bind fun w₃ hrely₃ => ⟨trivial, fun claimed w₄ hclaim => ?_⟩
      have hstand₃ := hstand.trans hrely₃
      refine ⟨⟨?_, fun other _ => countsStand_claim other hclaim.2⟩, ?_⟩
      · -- the guard says that both counts still bound the table
        obtain ⟨_, hle₃⟩ := hrely₃.counts hclaim.1
        obtain ⟨hstart, hle⟩ := hstand₃.counts hclaim.1
        have htenant₃ : w₃.runs.inflight (some candidate.tenantId) ≤ tenantCount := by
          rw [htenant, ← RunTable.inflight_some]
          exact hle₃ (some candidate.tenantId)
        have hhas := hstand₃.tenants _ _ (htenants candidate List.mem_cons_self)
        exact withinCaps_claim hclaim.2 hhas ((hle none).trans (hcount hstart)) hlt htenant₃
          (lt_of_not_ge hroom)
      · cases claimed with
        | some row => exact keepsCaps_claimedRow row w₄
        | none => exact hnext (hstand₃.trans (countsStand_claim workerId hclaim.2))

theorem keepsCaps_claimNextQueuedRunWithLimits (hglobal : 1 ≤ globalMax) (htenant : 1 ≤ tenantMax)
    (leaseMs : Int) :
    KeepsCaps b globalMax tenantMax workerId
      (claimNextQueuedRunWithLimits b workerId leaseMs globalMax tenantMax) := by
  refine .bind keepsCaps_clientNow fun clientNow w => ?_
  rw [max_eq_left hglobal, max_eq_left htenant]
  refine Handler.wp_perform_bind fun w₁ hrely₁ => ⟨trivial, fun candidates w₂ hselect => ?_⟩
  refine ⟨capContract_guarantee hselect.2 rfl nofun, ?_⟩
  have htenants : ∀ candidate ∈ candidates, HasTenant w₂ candidate.id candidate.tenantId := by
    obtain ⟨_, now, _, ⟨locked, _, rfl⟩, rfl⟩ := hselect
    intro candidate hcandidate
    have hqueue := (List.mem_filter.mp (List.mem_of_mem_take hcandidate)).1
    exact ⟨candidate, (List.mem_filter.mp (mem_orderBy.mp hqueue)).1, rfl, rfl⟩
  split
  · exact fun _ _ => trivial
  · refine Handler.wp_perform_bind fun w₃ hrely₃ => ⟨trivial, fun globalCount w₄ hcount => ?_⟩
    refine ⟨capContract_guarantee hcount.2 rfl fun other hne h => ?_, ?_⟩
    · cases h
      exact hne rfl
    · by_cases hfull : (globalCount : Nat) ≥ globalMax
      · rw [if_pos hfull]
        exact fun _ _ => trivial
      · rw [if_neg hfull]
        refine wp_claimCandidates (lt_of_not_ge hfull) candidates w₄ (fun _ => ?_) ?_
        · obtain ⟨_, now, _, rfl, rfl⟩ := hcount
          rw [RunTable.inflight_none]
        · intro candidate hcandidate
          have hhas := hrely₃.tenants _ _ (htenants candidate hcandidate)
          exact hasTenant_step hhas hcount.2

theorem keepsCaps_queueCall (hglobal : 1 ≤ globalMax) (htenant : 1 ≤ tenantMax) (call : QueueCall)
    (hcall : call.claimsUnder globalMax tenantMax) :
    KeepsCaps b globalMax tenantMax workerId (call.program b workerId) := by
  cases call with
  | claimNextQueuedRun leaseMs => exact hcall.elim
  | claimNextQueuedRunWithLimits leaseMs globalMax' tenantMax' =>
    obtain ⟨rfl, rfl⟩ := hcall
    exact .bind (keepsCaps_claimNextQueuedRunWithLimits hglobal htenant leaseMs) fun _ => .pure ()
  | renewRunLease runId leaseMs =>
    exact .bind (.bind keepsCaps_clientNow fun _ => .ask rfl nofun) fun _ => .pure ()
  | markRunSucceeded runId =>
    exact .bind (.bind keepsCaps_clientNow fun _ => .tryQueue (.ask rfl nofun)) fun _ => .pure ()
  | markRunFailed runId errorJson =>
    exact .bind (.bind keepsCaps_clientNow fun _ => .tryQueue (.ask rfl nofun)) fun _ => .pure ()
  | requeueExpiredRuns limit => exact .bind (.ask rfl nofun) fun _ => .pure ()
  | createRun row => exact .bind (.ask rfl nofun) fun _ => .pure ()

theorem keepsCaps_workerCalls (hglobal : 1 ≤ globalMax) (htenant : 1 ≤ tenantMax)
    (calls : List QueueCall) (hcalls : ∀ call ∈ calls, call.claimsUnder globalMax tenantMax) :
    KeepsCaps b globalMax tenantMax workerId (workerCalls b workerId calls) := by
  induction calls with
  | nil => exact .pure ()
  | cons call calls ih =>
    refine .bind (keepsCaps_queueCall hglobal htenant call (hcalls call List.mem_cons_self)) ?_
    exact fun _ => ih fun other hother => hcalls other (List.mem_cons_of_mem _ hother)

end Caps

/-- Any number of workers with names of their own call the queue in any order, and
all claims are made under the same caps.  If no claim's update is overtaken by
another claim since the claim counted, the caps hold throughout. -/
theorem caps_kept {ι : Type} [DecidableEq ι] {b : Backend} {globalMax tenantMax : Int}
    {workerId : ι → String} {calls : ι → List QueueCall} {start w : QueueWorld}
    {ps : ι → QueueProg Unit} (hglobal : 1 ≤ globalMax) (htenant : 1 ≤ tenantMax)
    (hnames : Function.Injective workerId)
    (hcalls : ∀ i, ∀ call ∈ calls i, call.claimsUnder globalMax tenantMax)
    (hstart : (start.runs.running : Int) ≤ globalMax ∧
      ∀ tenantId, (start.runs.tenantRunning tenantId : Int) ≤ tenantMax)
    (hreach : PoolReaches ((queueHandler b true).guarded claimsAlone)
      (start, fun i => workerCalls b (workerId i) (calls i)) (w, ps)) :
    (w.runs.running : Int) ≤ globalMax ∧
      ∀ tenantId, (w.runs.tenantRunning tenantId : Int) ≤ tenantMax := by
  have hwithin : ∀ w, WithinCaps globalMax tenantMax w ↔ (w.runs.running : Int) ≤ globalMax ∧
      ∀ tenantId, (w.runs.tenantRunning tenantId : Int) ≤ tenantMax := by
    intro w
    rw [← RunTable.inflight_none]
    constructor
    · intro h
      refine ⟨h none, fun tenantId => ?_⟩
      rw [← RunTable.inflight_some]
      exact h (some tenantId)
    · intro h scope
      cases scope with
      | none => exact h.1
      | some tenantId =>
        rw [RunTable.inflight_some]
        exact h.2 tenantId
  rw [← hwithin] at hstart ⊢
  refine Handler.invariant_of_pool (C := fun i => capContract globalMax tenantMax (workerId i))
    ?_ (fun _ _ _ _ _ h _ _ hguar => hguar.1 h)
    (fun i => keepsCaps_workerCalls hglobal htenant (calls i) (hcalls i) start) hstart hreach
  intro i j hne w w' hguar
  exact hguar.2 (workerId j) fun h => hne (hnames h).symm

/-! ## Two workers at one cap -/

/-- A run of each of two tenants. -/
def twoRuns : QueueWorld :=
  ⟨0, ⟨[queuedRun "run-1" "tenant-1", queuedRun "run-2" "tenant-2"], by decide⟩, []⟩

def oneClaim (_ : Bool) : List QueueCall := [.claimNextQueuedRunWithLimits 1000 1 1]

/-- Both workers count before either updates, and each claims a run. -/
theorem caps_overrun :
    ¬ ∀ w ps, PoolReaches (queueHandler .postgres true)
        (twoRuns, fun i => workerCalls .postgres (twoWorkers i) (oneClaim i)) (w, ps) →
      (w.runs.running : Int) ≤ 1 := by
  intro h
  have hstart : PoolReaches (queueHandler .postgres true)
      (twoRuns, fun i => workerCalls .postgres (twoWorkers i) (oneClaim i)) _ := .refl
  have hcounted := ((hstart.focus (i := true) rfl).then_call
    twoRuns.runs.rows _ ⟨0, le_rfl, ⟨[], fun _ => rfl, rfl⟩, rfl⟩).then_call
    (0 : Nat) _ ⟨0, le_rfl, rfl, rfl⟩
  have hcounted' := ((hcounted.focus (i := false) rfl).then_call
    twoRuns.runs.rows _ ⟨0, le_rfl, ⟨[], fun _ => rfl, rfl⟩, rfl⟩).then_call
    (0 : Nat) _ ⟨0, le_rfl, rfl, rfl⟩
  have hclaimed := ((hcounted'.focus (i := true) rfl).then_call
    (0 : Nat) _ ⟨0, le_rfl, rfl, rfl⟩).then_call
    (some _ : Option RunRow) _ ⟨0, le_rfl, rfl, rfl⟩
  -- the first tenant has a running run by now, the second has none
  have hclaimed' := (((hclaimed.focus (i := false) rfl).then_call
    (1 : Nat) _ ⟨0, le_rfl, rfl, rfl⟩).then_call
    (0 : Nat) _ ⟨0, le_rfl, rfl, rfl⟩).then_call
    (some _ : Option RunRow) _ ⟨0, le_rfl, rfl, rfl⟩
  exact absurd (h _ _ hclaimed') (by decide)

/-- The second worker counts after the first has claimed, and claims nothing. -/
theorem caps_kept_in_turn :
    ∃ w ps, PoolReaches ((queueHandler .postgres true).guarded claimsAlone)
        (twoRuns, fun i => workerCalls .postgres (twoWorkers i) (oneClaim i)) (w, ps) ∧
      ps false = .pure () ∧ (w.runs.running : Int) ≤ 1 := by
  have hstart : PoolReaches ((queueHandler .postgres true).guarded claimsAlone)
      (twoRuns, fun i => workerCalls .postgres (twoWorkers i) (oneClaim i)) _ := .refl
  have hclaimed := ((((hstart.focus (i := true) rfl).then_call
    twoRuns.runs.rows _ ⟨trivial, 0, le_rfl, ⟨[], fun _ => rfl, rfl⟩, rfl⟩).then_call
    (0 : Nat) _ ⟨trivial, 0, le_rfl, rfl, rfl⟩).then_call
    (0 : Nat) _ ⟨trivial, 0, le_rfl, rfl, rfl⟩).then_call
    (some _ : Option RunRow) _ ⟨rfl, 0, le_rfl, rfl, rfl⟩
  have hrefused := ((hclaimed.focus (i := false) rfl).then_call
    [queuedRun "run-2" "tenant-2"] _ ⟨trivial, 0, le_rfl, ⟨[], fun _ => rfl, rfl⟩, rfl⟩).then_call
    (1 : Nat) _ ⟨trivial, 0, le_rfl, rfl, rfl⟩
  refine ⟨_, _, hrefused, Function.update_self .., ?_⟩
  refine (caps_kept le_rfl (show (1 : Int) ≤ 1 from le_rfl) ?_ ?_ ?_ hrefused).1
  · intro i j h
    cases i <;> cases j <;> first | rfl | exact absurd h (by decide)
  · intro i call hcall
    rw [List.mem_singleton.mp hcall]
    exact ⟨rfl, rfl⟩
  · refine ⟨by decide, fun tenantId => ?_⟩
    have hzero : twoRuns.runs.tenantRunning tenantId = 0 := by
      rw [RunTable.tenantRunning, List.countP_eq_zero]
      intro row hrow h
      rcases List.mem_cons.mp hrow with rfl | hrow
      · exact absurd h (by simp [queuedRun])
      · rw [List.mem_singleton.mp hrow] at h
        exact absurd h (by simp [queuedRun])
    rw [hzero]
    decide

end Runs
end SecureAgnt

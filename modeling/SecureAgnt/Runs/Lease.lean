/-
Leases over every interleaving.

`LeaseInv` says that exactly the running runs are leased, each to the worker that
claimed it last, and that a finished run was finished once, by that worker.  Every
statement keeps it, whoever issues it.  `queue_leases` is what follows for any
number of workers that call the functions of the queue in any order.
-/
import Mathlib.Data.List.Induction
import SecureAgnt.Runs.Queue

namespace SecureAgnt
namespace Runs

open Storage
open Handler (PoolReaches)

/-! ## The log -/

def QueueEvent.claimerOf (runId : String) : QueueEvent → Option String
  | .claimed workerId id => if id = runId then some workerId else none
  | _ => none

/-- The worker whose claim of the run is the most recent one. -/
def lastClaimer (runId : String) (log : List QueueEvent) : Option String :=
  log.reverse.findSome? (·.claimerOf runId)

def QueueEvent.finishes (runId : String) : QueueEvent → Bool
  | .finished _ id _ => id = runId
  | _ => false

theorem lastClaimer_append (runId : String) (log : List QueueEvent) (e : QueueEvent) :
    lastClaimer runId (log ++ [e]) = (e.claimerOf runId).or (lastClaimer runId log) := by
  rw [lastClaimer, List.reverse_append, List.reverse_singleton, List.singleton_append,
    List.findSome?_cons]
  cases e.claimerOf runId <;> rfl

theorem lastClaimer_append_of_none {runId : String} {log : List QueueEvent} {e : QueueEvent}
    (h : e.claimerOf runId = none) : lastClaimer runId (log ++ [e]) = lastClaimer runId log := by
  rw [lastClaimer_append, h, Option.none_or]

/-! ## The invariant -/

/-- Leased to its last claimer while it runs, and to nobody otherwise. -/
inductive RowLeased (log : List QueueEvent) (row : RunRow) : Prop
  | held (workerId : String) (expires : Int) (hstatus : row.status = .running)
      (howner : row.leaseOwner = some workerId) (hexpires : row.leaseExpiresAt = some expires)
      (hclaimed : lastClaimer row.id log = some workerId) : RowLeased log row
  | free (hstatus : row.status ≠ .running) (howner : row.leaseOwner = none)
      (hexpires : row.leaseExpiresAt = none) : RowLeased log row

/-- No run is finished twice, and each by the worker that claimed it last. -/
structure FinishedByClaimer (log : List QueueEvent) : Prop where
  once : ∀ runId, log.countP (·.finishes runId) ≤ 1
  claimers : ∀ before workerId runId status after,
    log = before ++ .finished workerId runId status :: after →
      lastClaimer runId before = some workerId

/-- What is noted as finished is so in the table. -/
def FinishedRows (rows : List RunRow) (log : List QueueEvent) : Prop :=
  ∀ workerId runId status, .finished workerId runId status ∈ log →
    ∃ row ∈ rows, row.id = runId ∧ row.status = status.toRunStatus

structure LeaseInv (w : QueueWorld) : Prop where
  rows : ∀ row ∈ w.runs.rows, RowLeased w.log row
  finished : FinishedRows w.runs.rows w.log
  log : FinishedByClaimer w.log

theorem FinalStatus.toRunStatus_ne_running (status : FinalStatus) :
    status.toRunStatus ≠ .running := by
  cases status <;> exact RunStatus.noConfusion

theorem FinalStatus.toRunStatus_ne_queued (status : FinalStatus) :
    status.toRunStatus ≠ .queued := by
  cases status <;> exact RunStatus.noConfusion

/-! ## The log grows -/

section Log

variable {log : List QueueEvent} {e : QueueEvent}

/-- An event that finishes no run. -/
theorem FinishedByClaimer.append (h : FinishedByClaimer log)
    (he : ∀ runId, e.finishes runId = false) : FinishedByClaimer (log ++ [e]) := by
  constructor
  · intro runId
    rw [List.countP_append, List.countP_singleton, he runId]
    exact h.once runId
  · intro before workerId runId status after hsplit
    rcases List.eq_nil_or_concat after with rfl | ⟨rest, last, rfl⟩
    · have hsame := (List.append_inj' hsplit rfl).2
      rw [List.cons.injEq] at hsame
      have hfin := he runId
      rw [hsame.1] at hfin
      exact absurd (decide_eq_true rfl) (ne_true_of_eq_false hfin)
    · rw [List.concat_eq_append, ← List.cons_append, ← List.append_assoc] at hsplit
      exact h.claimers _ _ _ _ _ (List.append_inj' hsplit rfl).1

/-- The first finish of a run, by the worker that claimed it last. -/
theorem FinishedByClaimer.append_finished {workerId runId : String} {status : FinalStatus}
    (h : FinishedByClaimer log) (hfirst : log.countP (·.finishes runId) = 0)
    (hclaimed : lastClaimer runId log = some workerId) :
    FinishedByClaimer (log ++ [.finished workerId runId status]) := by
  constructor
  · intro runId'
    rw [List.countP_append, List.countP_singleton]
    by_cases hid : runId = runId'
    · subst hid
      rw [hfirst]
      split <;> omega
    · have hother : QueueEvent.finishes runId' (.finished workerId runId status) = false :=
        decide_eq_false hid
      rw [hother]
      exact h.once runId'
  · intro before workerId' runId' status' after hsplit
    rcases List.eq_nil_or_concat after with rfl | ⟨rest, last, rfl⟩
    · obtain ⟨rfl, hsame⟩ := List.append_inj' hsplit rfl
      cases hsame
      exact hclaimed
    · rw [List.concat_eq_append, ← List.cons_append, ← List.append_assoc] at hsplit
      exact h.claimers _ _ _ _ _ (List.append_inj' hsplit rfl).1

end Log

section Rows

variable {log : List QueueEvent} {row : RunRow}

theorem RowLeased.append {e : QueueEvent} (h : RowLeased log row)
    (he : e.claimerOf row.id = none) : RowLeased (log ++ [e]) row := by
  cases h with
  | held workerId expires hstatus howner hexpires hclaimed =>
    exact .held workerId expires hstatus howner hexpires
      ((lastClaimer_append_of_none he).trans hclaimed)
  | free hstatus howner hexpires => exact .free hstatus howner hexpires

theorem RowLeased.owner_of_running (h : RowLeased log row) (hrunning : row.status = .running) :
    ∃ workerId, row.leaseOwner = some workerId ∧ lastClaimer row.id log = some workerId := by
  cases h with
  | held workerId _ _ howner _ hclaimed => exact ⟨workerId, howner, hclaimed⟩
  | free hstatus _ _ => exact absurd hrunning hstatus

/-- No run is running without an owner, so `mayFinish` asks for the caller's own
lease on both back ends. -/
theorem RowLeased.mayFinish_iff {b : Backend} {workerId : String} (h : RowLeased log row)
    (hrunning : row.status = .running) :
    mayFinish b workerId row = true ↔ row.leaseOwner = some workerId := by
  obtain ⟨owner, howner, _⟩ := h.owner_of_running hrunning
  cases b <;> simp [mayFinish, howner]

end Rows

theorem RunTable.mem_apply {t : RunTable} {u : RunUpdate} {row : RunRow} :
    row ∈ (t.apply u).rows ↔ ∃ old ∈ t.rows, u.row old = row := List.mem_map

theorem RunUpdate.row_of_selects {u : RunUpdate} {row : RunRow} (h : u.selects row = true) :
    u.row row = u.change row := if_pos h

theorem RunUpdate.row_of_not_selects {u : RunUpdate} {row : RunRow} (h : ¬ u.selects row = true) :
    u.row row = row := if_neg h

theorem RunTable.affected_iff {t : RunTable} {u : RunUpdate} :
    t.affected u = true ↔ ∃ row ∈ t.rows, u.selects row = true := List.any_eq_true

/-- An update that changes nothing. -/
theorem RunTable.apply_of_not_affected {t : RunTable} {u : RunUpdate}
    (h : ¬ t.affected u = true) : (t.apply u).rows = t.rows := by
  show t.rows.map u.row = t.rows
  rw [List.map_congr_left (g := fun row => row), List.map_id']
  intro row hrow
  apply RunUpdate.row_of_not_selects
  intro hsel
  exact h (affected_iff.mpr ⟨row, hrow, hsel⟩)

/-- Rows with one identifier are one row. -/
theorem RunTable.eq_of_id {t : RunTable} {row row' : RunRow} (h : row ∈ t.rows)
    (h' : row' ∈ t.rows) (hid : row.id = row'.id) : row = row' :=
  List.inj_on_of_nodup_map t.keys h h' hid

/-! ## Updates keep the invariant -/

section Updates

variable {w : QueueWorld} {now : Int}

/-- The update leaves finished runs alone. -/
def SelectsOpen (t : RunTable) (u : RunUpdate) : Prop :=
  ∀ row ∈ t.rows, u.selects row = true → row.status = .queued ∨ row.status = .running

theorem SelectsOpen.mem_apply {t : RunTable} {u : RunUpdate} {row : RunRow} {status : FinalStatus}
    (hopen : SelectsOpen t u) (hrow : row ∈ t.rows) (hstatus : row.status = status.toRunStatus) :
    row ∈ (t.apply u).rows := by
  refine RunTable.mem_apply.mpr ⟨row, hrow, RunUpdate.row_of_not_selects fun hsel => ?_⟩
  rcases hopen row hrow hsel with hq | hr
  · exact status.toRunStatus_ne_queued (hstatus.symm.trans hq)
  · exact status.toRunStatus_ne_running (hstatus.symm.trans hr)

theorem FinishedRows.apply {t : RunTable} {log : List QueueEvent} {u : RunUpdate}
    (h : FinishedRows t.rows log) (hopen : SelectsOpen t u) :
    FinishedRows (t.apply u).rows log := by
  intro workerId runId status hmem
  obtain ⟨row, hrow, hid, hstatus⟩ := h workerId runId status hmem
  exact ⟨row, hopen.mem_apply hrow hstatus, hid, hstatus⟩

theorem FinishedRows.append {rows : List RunRow} {log : List QueueEvent} {e : QueueEvent}
    (h : FinishedRows rows log) (he : ∀ runId, e.finishes runId = false) :
    FinishedRows rows (log ++ [e]) := by
  intro workerId runId status hmem
  rcases List.mem_append.mp hmem with hmem | hmem
  · exact h workerId runId status hmem
  · have hfin := he runId
    rw [← List.mem_singleton.mp hmem] at hfin
    exact absurd (decide_eq_true rfl) (ne_true_of_eq_false hfin)

/-- An update that is noted nowhere. -/
theorem LeaseInv.update_quiet {u : RunUpdate} (h : LeaseInv w)
    (hrows : ∀ row ∈ w.runs.rows, u.selects row = true →
      row.status = .running ∧ RowLeased w.log (u.change row)) :
    LeaseInv (w.update now u []) := by
  have hlog : (w.update now u []).log = w.log := by
    show w.log ++ (if _ then [] else []) = w.log
    rw [ite_self, List.append_nil]
  constructor
  · intro row hrow
    rw [hlog]
    obtain ⟨old, hold, rfl⟩ := RunTable.mem_apply.mp hrow
    by_cases hsel : u.selects old = true
    · rw [RunUpdate.row_of_selects hsel]
      exact (hrows old hold hsel).2
    · rw [RunUpdate.row_of_not_selects hsel]
      exact h.rows old hold
  · rw [hlog]
    exact h.finished.apply fun row hrow hsel => .inr (hrows row hrow hsel).1
  · rw [hlog]
    exact h.log

theorem update_log {u : RunUpdate} {events : List QueueEvent}
    (haff : w.runs.affected u = true) : (w.update now u events).log = w.log ++ events := by
  show w.log ++ (if _ then _ else _) = _
  rw [if_pos haff]

theorem LeaseInv.update_none {u : RunUpdate} {events : List QueueEvent} (h : LeaseInv w)
    (haff : ¬ w.runs.affected u = true) : LeaseInv (w.update now u events) := by
  have hlog : (w.update now u events).log = w.log := by
    show w.log ++ (if _ then _ else _) = _
    rw [if_neg haff, List.append_nil]
  have hrows : (w.update now u events).runs.rows = w.runs.rows :=
    RunTable.apply_of_not_affected haff
  constructor
  · rw [hlog, hrows]
    exact h.rows
  · rw [hlog, hrows]
    exact h.finished
  · rw [hlog]
    exact h.log

theorem selects_renewUpdate {b : Backend} {runId workerId : String} {clientNow : Option Int}
    {leaseMs : Int} {row : RunRow}
    (hsel : (renewUpdate b now runId workerId clientNow leaseMs).selects row = true) :
    row.id = runId ∧ row.status = .running ∧ row.leaseOwner = some workerId := by
  simp only [renewUpdate, Bool.and_eq_true, decide_eq_true_eq] at hsel
  exact ⟨hsel.1.1.1, hsel.1.1.2, hsel.1.2⟩

theorem LeaseInv.renew {b : Backend} {runId workerId : String} {clientNow : Option Int}
    {leaseMs : Int} (h : LeaseInv w) :
    LeaseInv (w.update now (renewUpdate b now runId workerId clientNow leaseMs) []) := by
  apply h.update_quiet
  intro row hrow hsel
  obtain ⟨_, hrunning, _⟩ := selects_renewUpdate hsel
  obtain ⟨owner, howner, hclaimed⟩ := (h.rows row hrow).owner_of_running hrunning
  exact ⟨hrunning, .held owner _ hrunning howner rfl hclaimed⟩

theorem running_of_mem_expiredRuns {b : Backend} {locked : List String} {limit : Int}
    {t : RunTable} {row : RunRow} (h : row ∈ expiredRuns b now locked limit t) :
    row ∈ t.rows ∧ row.status = .running := by
  have hmem := mem_orderBy.mp (List.mem_filter.mp (List.mem_of_mem_take h)).1
  rw [List.mem_filter, RunRow.isExpired, Bool.and_eq_true, decide_eq_true_eq] at hmem
  exact ⟨hmem.1, hmem.2.1⟩

/-- Only expired runs are put back. -/
theorem selects_requeueUpdate {b : Backend} {locked : List String} {limit : Int} {t : RunTable}
    {row : RunRow} (hrow : row ∈ t.rows)
    (hsel : (requeueUpdate ((expiredRuns b now locked limit t).map (·.id))).selects row = true) :
    row.status = .running := by
  rw [requeueUpdate, List.contains_iff_mem] at hsel
  obtain ⟨expired, hexp, hid⟩ := List.mem_map.mp hsel
  obtain ⟨hmem, hrunning⟩ := running_of_mem_expiredRuns hexp
  rw [← t.eq_of_id hmem hrow hid]
  exact hrunning

theorem LeaseInv.requeue {b : Backend} {locked : List String} {limit : Int} (h : LeaseInv w) :
    LeaseInv (w.update now
      (requeueUpdate ((expiredRuns b now locked limit w.runs).map (·.id))) []) := by
  apply h.update_quiet
  intro row hrow hsel
  exact ⟨selects_requeueUpdate hrow hsel, .free RunStatus.noConfusion rfl rfl⟩

theorem selects_claimUpdate {b : Backend} {runId workerId : String} {clientNow : Option Int}
    {leaseMs : Int} {row : RunRow}
    (hsel : (claimUpdate b now runId workerId clientNow leaseMs).selects row = true) :
    row.id = runId ∧ row.status = .queued := by
  simp only [claimUpdate, RunRow.isClaimable, Bool.and_eq_true, decide_eq_true_eq] at hsel
  exact ⟨hsel.1, hsel.2.1⟩

theorem LeaseInv.claim {b : Backend} {runId workerId : String} {clientNow : Option Int}
    {leaseMs : Int} (h : LeaseInv w) :
    LeaseInv (w.update now (claimUpdate b now runId workerId clientNow leaseMs)
      [.claimed workerId runId]) := by
  by_cases haff : w.runs.affected (claimUpdate b now runId workerId clientNow leaseMs) = true
  · obtain ⟨taken, htaken, hseltaken⟩ := RunTable.affected_iff.mp haff
    constructor
    · intro row hrow
      rw [update_log haff]
      obtain ⟨old, hold, rfl⟩ := RunTable.mem_apply.mp hrow
      by_cases hsel : (claimUpdate b now runId workerId clientNow leaseMs).selects old = true
      · rw [RunUpdate.row_of_selects hsel]
        refine .held workerId _ rfl rfl rfl ?_
        rw [lastClaimer_append, RunUpdate.keeps_id, (selects_claimUpdate hsel).1,
          QueueEvent.claimerOf, if_pos rfl, Option.some_or]
      · rw [RunUpdate.row_of_not_selects hsel]
        refine (h.rows old hold).append (if_neg ?_)
        -- the run that was claimed is the only one under its identifier
        intro hid
        have hsame := w.runs.eq_of_id htaken hold ((selects_claimUpdate hseltaken).1.trans hid)
        exact hsel (hsame ▸ hseltaken)
    · rw [update_log haff]
      exact (h.finished.apply fun row _ hsel => .inl (selects_claimUpdate hsel).2).append
        fun _ => rfl
    · rw [update_log haff]
      exact h.log.append fun _ => rfl
  · exact h.update_none haff

theorem selects_finishUpdate {b : Backend} {runId workerId : String} {clientNow : Option Int}
    {status : FinalStatus} {errorJson : Option Json} {row : RunRow}
    (hsel : (finishUpdate b now runId workerId clientNow status errorJson).selects row = true) :
    row.id = runId ∧ row.status = .running ∧ mayFinish b workerId row = true := by
  simp only [finishUpdate, Bool.and_eq_true, decide_eq_true_eq] at hsel
  exact ⟨hsel.1.1, hsel.1.2, hsel.2⟩

/-- A run that is still running has not been finished before. -/
theorem LeaseInv.countP_finishes_eq_zero {row : RunRow} (h : LeaseInv w)
    (hrow : row ∈ w.runs.rows) (hrunning : row.status = .running) :
    w.log.countP (·.finishes row.id) = 0 := by
  rw [List.countP_eq_zero]
  intro e he hfin
  cases e with
  | finished workerId runId status =>
    have hid : runId = row.id := of_decide_eq_true hfin
    obtain ⟨row', hrow', hid', hstatus⟩ := h.finished workerId runId status he
    have hsame := w.runs.eq_of_id hrow' hrow (hid'.trans hid)
    rw [hsame, hrunning] at hstatus
    exact status.toRunStatus_ne_running hstatus.symm
  | counted workerId => cases hfin
  | claimed workerId runId => cases hfin
  | audited workerId runId eventType => cases hfin

theorem LeaseInv.finish {b : Backend} {runId workerId : String} {clientNow : Option Int}
    {status : FinalStatus} {errorJson : Option Json} (h : LeaseInv w) :
    LeaseInv (w.update now (finishUpdate b now runId workerId clientNow status errorJson)
      [.finished workerId runId status]) := by
  by_cases haff :
      w.runs.affected (finishUpdate b now runId workerId clientNow status errorJson) = true
  · obtain ⟨done, hdone, hseldone⟩ := RunTable.affected_iff.mp haff
    obtain ⟨rfl, hrunning, hmay⟩ := selects_finishUpdate hseldone
    have hleased := h.rows done hdone
    have howner := (hleased.mayFinish_iff hrunning).mp hmay
    constructor
    · intro row hrow
      rw [update_log haff]
      obtain ⟨old, hold, rfl⟩ := RunTable.mem_apply.mp hrow
      by_cases hsel :
          (finishUpdate b now done.id workerId clientNow status errorJson).selects old = true
      · rw [RunUpdate.row_of_selects hsel]
        exact .free status.toRunStatus_ne_running rfl rfl
      · rw [RunUpdate.row_of_not_selects hsel]
        exact (h.rows old hold).append rfl
    · rw [update_log haff]
      intro workerId' runId' status' hmem
      rcases List.mem_append.mp hmem with hmem | hmem
      · exact h.finished.apply (fun row _ hsel => .inr (selects_finishUpdate hsel).2.1) workerId'
          runId' status' hmem
      · cases List.mem_singleton.mp hmem
        refine ⟨_, RunTable.mem_apply.mpr ⟨done, hdone, RunUpdate.row_of_selects hseldone⟩, ?_, rfl⟩
        exact RunUpdate.keeps_id _ done
    · rw [update_log haff]
      refine h.log.append_finished (h.countP_finishes_eq_zero hdone hrunning) ?_
      obtain ⟨owner, howner', hclaimed⟩ := hleased.owner_of_running hrunning
      rw [hclaimed, ← howner', howner]
  · exact h.update_none haff

theorem QueueOp.Notes.claimerOf {op : QueueOp} {e : QueueEvent} (h : op.Notes e)
    (runId : String) : e.claimerOf runId = none := by
  obtain ⟨_, _, rfl⟩ | ⟨_, _, _, rfl⟩ := h.cases <;> rfl

theorem QueueOp.Notes.finishes {op : QueueOp} {e : QueueEvent} (h : op.Notes e)
    (runId : String) : e.finishes runId = false := by
  obtain ⟨_, _, rfl⟩ | ⟨_, _, _, rfl⟩ := h.cases <;> rfl

theorem LeaseInv.appendAll {op : QueueOp} {events : List QueueEvent} (h : LeaseInv w)
    (hnotes : ∀ e ∈ events, op.Notes e) :
    LeaseInv { w with clock := now, log := w.log ++ events } := by
  induction events using List.reverseRecOn with
  | nil =>
    rw [List.append_nil]
    exact ⟨h.rows, h.finished, h.log⟩
  | append_singleton events e ih =>
    obtain ⟨hrows, hfinished, hlog⟩ := ih fun e' he' => hnotes e' (List.mem_append_left _ he')
    have he := hnotes e (List.mem_append_right _ List.mem_cons_self)
    rw [← List.append_assoc]
    exact ⟨fun row hrow => (hrows row hrow).append (he.claimerOf row.id),
      hfinished.append he.finishes, hlog.append he.finishes⟩

theorem LeaseInv.insert {row : RunRow} (h : LeaseInv w) (hnew : row.IsNew)
    (hkey : row.id ∉ w.runs.rows.map (·.id)) :
    LeaseInv { w with clock := now, runs := w.runs.insert row hkey } := by
  obtain ⟨hqueued, howner, hexpires⟩ := hnew
  refine ⟨?_, ?_, h.log⟩
  · intro row' hrow'
    rcases List.mem_append.mp hrow' with hrow' | hrow'
    · exact h.rows row' hrow'
    · obtain rfl := List.mem_singleton.mp hrow'
      exact .free (by rw [hqueued]; exact RunStatus.noConfusion) howner hexpires
  · intro workerId runId status hmem
    obtain ⟨row', hrow', hfin⟩ := h.finished workerId runId status hmem
    exact ⟨row', List.mem_append_left _ hrow', hfin⟩

end Updates

/-- Every statement keeps the invariant. -/
theorem leaseInv_step {b : Backend} {concurrent : Bool} {w w' : QueueWorld} {op : QueueOp}
    {answer : QueueAns op} (h : LeaseInv w) (hstep : queueStep b concurrent w op answer w') :
    LeaseInv w' := by
  obtain ⟨now, _, heffect⟩ := effect_of_step hstep
  cases heffect with
  | noted events hnotes => exact h.appendAll hnotes
  | created row hrow hnew => exact h.insert hrow hnew
  | claimed runId workerId clientNow leaseMs hop => exact h.claim
  | renewed runId workerId clientNow leaseMs hop => exact h.renew
  | finished runId workerId clientNow status errorJson hop => exact h.finish
  | requeued locked limit hop => exact h.requeue

/-! ## Finished runs stay -/

/-- A run has this identifier and status. -/
def HasStatus (w : QueueWorld) (runId : String) (status : RunStatus) : Prop :=
  ∃ row ∈ w.runs.rows, row.id = runId ∧ row.status = status

/-- Every statement leaves finished runs as they are. -/
theorem hasStatus_step {b : Backend} {concurrent : Bool} {w w' : QueueWorld} {op : QueueOp}
    {answer : QueueAns op} {runId : String} {status : FinalStatus}
    (h : HasStatus w runId status.toRunStatus) (hstep : queueStep b concurrent w op answer w') :
    HasStatus w' runId status.toRunStatus := by
  obtain ⟨now, _, heffect⟩ := effect_of_step hstep
  obtain ⟨row, hrow, hid, hstatus⟩ := h
  have hupdate : ∀ {u events}, SelectsOpen w.runs u →
      HasStatus (w.update now u events) runId status.toRunStatus :=
    fun hopen => ⟨row, hopen.mem_apply hrow hstatus, hid, hstatus⟩
  cases heffect with
  | noted events hnotes => exact ⟨row, hrow, hid, hstatus⟩
  | created row' hrow' hnew => exact ⟨row, List.mem_append_left _ hrow, hid, hstatus⟩
  | claimed runId' workerId clientNow leaseMs hop =>
    exact hupdate fun _ _ hsel => .inl (selects_claimUpdate hsel).2
  | renewed runId' workerId clientNow leaseMs hop =>
    exact hupdate fun _ _ hsel => .inr (selects_renewUpdate hsel).2.1
  | finished runId' workerId clientNow status' errorJson hop =>
    exact hupdate fun _ _ hsel => .inr (selects_finishUpdate hsel).2.1
  | requeued locked limit hop =>
    exact hupdate fun _ hrow' hsel => .inr (selects_requeueUpdate hrow' hsel)

/-! ## Workers -/

/-- The calls a worker makes, one after the other; runs are created beside them. -/
inductive QueueCall where
  | claimNextQueuedRun (leaseMs : Int)
  | claimNextQueuedRunWithLimits (leaseMs globalMaxInflightRuns tenantMaxInflightRuns : Int)
  | renewRunLease (runId : String) (leaseMs : Int)
  | markRunSucceeded (runId : String)
  | markRunFailed (runId : String) (errorJson : Json)
  | requeueExpiredRuns (limit : Int)
  | createRun (row : RunRow)

def QueueCall.program (b : Backend) (workerId : String) : QueueCall → QueueProg Unit
  | .claimNextQueuedRun leaseMs => do
    let _ ← Runs.claimNextQueuedRun b workerId leaseMs
    .pure ()
  | .claimNextQueuedRunWithLimits leaseMs globalMax tenantMax => do
    let _ ← Runs.claimNextQueuedRunWithLimits b workerId leaseMs globalMax tenantMax
    .pure ()
  | .renewRunLease runId leaseMs => do
    let _ ← Runs.renewRunLease b runId workerId leaseMs
    .pure ()
  | .markRunSucceeded runId => do
    let _ ← Runs.markRunSucceeded b runId workerId
    .pure ()
  | .markRunFailed runId errorJson => do
    let _ ← Runs.markRunFailed b runId workerId errorJson
    .pure ()
  | .requeueExpiredRuns limit => do
    let _ ← Runs.requeueExpiredRuns limit
    .pure ()
  | .createRun row => do
    let _ ← askQueue (.createRun row)
    .pure ()

/-- One call at a time. -/
def workerCalls (b : Backend) (workerId : String) : List QueueCall → QueueProg Unit
  | [] => .pure ()
  | call :: calls => do
    call.program b workerId
    workerCalls b workerId calls

theorem leaseInv_start {w : QueueWorld} (hnew : ∀ row ∈ w.runs.rows, row.IsNew)
    (hlog : w.log = []) : LeaseInv w := by
  refine ⟨?_, ?_, ?_, ?_⟩
  · intro row hrow
    obtain ⟨hqueued, howner, hexpires⟩ := hnew row hrow
    exact .free (by rw [hqueued]; exact RunStatus.noConfusion) howner hexpires
  · intro workerId runId status hmem
    rw [hlog] at hmem
    exact absurd hmem List.not_mem_nil
  · intro runId
    rw [hlog]
    exact Nat.zero_le 1
  · intro before workerId runId status after hsplit
    rw [hlog] at hsplit
    exact absurd hsplit.symm (List.append_ne_nil_of_right_ne_nil _ (List.cons_ne_nil _ _))

/-- Any number of workers under any names call the queue in any order, one call at
a time each, at any times.  Then exactly the running runs have an owner and an
expiry and queued ones have neither; a finished run keeps its status from then on;
and it is finished once, by the worker whose claim of it is the most recent. -/
theorem queue_leases {ι : Type} [DecidableEq ι] {b : Backend} {workerId : ι → String}
    {calls : ι → List QueueCall} {start w : QueueWorld} {ps : ι → QueueProg Unit}
    (hnew : ∀ row ∈ start.runs.rows, row.IsNew) (hlog : start.log = [])
    (hreach : PoolReaches (queueHandler b true)
      (start, fun i => workerCalls b (workerId i) (calls i)) (w, ps)) :
    (∀ row ∈ w.runs.rows,
      (row.status = .running ↔ row.leaseOwner.isSome ∧ row.leaseExpiresAt.isSome) ∧
      (row.status = .queued → row.leaseOwner = none ∧ row.leaseExpiresAt = none)) ∧
    (∀ w' ps', PoolReaches (queueHandler b true) (w, ps) (w', ps') →
      ∀ row ∈ w.runs.rows, row.status = .succeeded ∨ row.status = .failed →
        HasStatus w' row.id row.status) ∧
    (∀ runId, w.log.countP (·.finishes runId) ≤ 1) ∧
    (∀ before owner runId status after,
      w.log = before ++ .finished owner runId status :: after →
        lastClaimer runId before = some owner) := by
  have hinv : LeaseInv w :=
    hreach.invariant (fun _ _ _ _ h hstep => leaseInv_step h hstep) (leaseInv_start hnew hlog)
  refine ⟨?_, ?_, hinv.log.once, hinv.log.claimers⟩
  · intro row hrow
    cases hinv.rows row hrow with
    | held owner expires hstatus howner hexpires _ => simp [hstatus, howner, hexpires]
    | free hstatus howner hexpires => simp [hstatus, howner, hexpires]
  · intro w' ps' hlater row hrow hfinal
    obtain ⟨status, hstatus⟩ : ∃ status : FinalStatus, row.status = status.toRunStatus := by
      rcases hfinal with h | h
      · exact ⟨.succeeded, h⟩
      · exact ⟨.failed, h⟩
    have hnow : HasStatus w row.id status.toRunStatus := ⟨row, hrow, rfl, hstatus⟩
    rw [hstatus]
    exact PoolReaches.invariant (I := fun w => HasStatus w row.id status.toRunStatus)
      (fun _ _ _ _ h hstep => hasStatus_step h hstep) hnow hlater

/-! ## A lease that runs out -/

def queuedRun (id tenantId : String) : RunRow where
  id := id
  tenantId := tenantId
  agentId := "agent"
  triggeredByUserId := none
  recipeId := "recipe"
  status := .queued
  inputJson := .obj []
  grantedCapabilities := .arr []
  createdAt := 0

def oneRun (clock : Int) (row : RunRow) (log : List QueueEvent) : QueueWorld :=
  ⟨clock, ⟨[row], List.nodup_singleton _⟩, log⟩

/-- The first worker finishes too late: its lease of a second is over, and the
second worker has put the run back and claimed it. -/
def lateCalls : Bool → List QueueCall
  | true => [.claimNextQueuedRun 1000, .markRunSucceeded "run"]
  | false => [.requeueExpiredRuns 10, .claimNextQueuedRunWithLimits 1000 4 2,
      .markRunFailed "run" .null]

def twoWorkers : Bool → String
  | true => "first"
  | false => "second"

def lateLog : List QueueEvent :=
  [.counted "first", .claimed "first" "run", .counted "second", .claimed "second" "run",
    .finished "second" "run" .failed]

def lateEnd : QueueWorld :=
  oneRun (2 * 10 ^ 9)
    { queuedRun "run" "tenant" with
      status := .failed, startedAt := some 0, finishedAt := some (2 * 10 ^ 9),
      errorJson := some .null, attempts := 2 } lateLog

theorem lateCalls_reaches : ∃ ps, PoolReaches (queueHandler .postgres true)
    (oneRun 0 (queuedRun "run" "tenant") [],
      fun i => workerCalls .postgres (twoWorkers i) (lateCalls i)) (lateEnd, ps) := by
  have hstart : PoolReaches (queueHandler .postgres true)
      (oneRun 0 (queuedRun "run" "tenant") [],
        fun i => workerCalls .postgres (twoWorkers i) (lateCalls i)) _ := .refl
  have hclaimed := ((((hstart.focus (i := true) rfl).then_call
    [queuedRun "run" "tenant"] _ ⟨0, le_rfl, ⟨[], fun _ => rfl, rfl⟩, rfl⟩).then_call
    (0 : Nat) _ ⟨0, le_rfl, rfl, rfl⟩).then_call
    (0 : Nat) _ ⟨0, le_rfl, rfl, rfl⟩).then_call
    (some _ : Option RunRow) _ ⟨0, le_rfl, rfl, rfl⟩
  have hrequeued := (hclaimed.focus (i := false) rfl).then_call
    (1 : Nat) _ ⟨2 * 10 ^ 9, by decide, [], fun _ => rfl, rfl, rfl⟩
  have hreclaimed := (((hrequeued.then_call
    [_] _ ⟨2 * 10 ^ 9, by decide, ⟨[], fun _ => rfl, rfl⟩, rfl⟩).then_call
    (0 : Nat) _ ⟨2 * 10 ^ 9, by decide, rfl, rfl⟩).then_call
    (0 : Nat) _ ⟨2 * 10 ^ 9, by decide, rfl, rfl⟩).then_call
    (some _ : Option RunRow) _ ⟨2 * 10 ^ 9, by decide, rfl, rfl⟩
  have hlate := (hreclaimed.focus (i := true) rfl).then_call
    (.ok false) _ ⟨2 * 10 ^ 9, by decide, rfl, rfl⟩
  have hdone := (hlate.focus (i := false) rfl).then_call
    (.ok true) lateEnd ⟨2 * 10 ^ 9, by decide, rfl, rfl⟩
  exact ⟨_, hdone⟩

/-- The late finish changes nothing. -/
theorem lateCalls_finish_once :
    lateEnd.log.countP (·.finishes "run") ≤ 1 ∧
    lastClaimer "run" (lateLog.take 4) = some "second" := by
  obtain ⟨ps, hreach⟩ := lateCalls_reaches
  have hnew : ∀ row ∈ (oneRun 0 (queuedRun "run" "tenant") []).runs.rows, row.IsNew := by
    intro row hrow
    rw [List.mem_singleton.mp hrow]
    exact ⟨rfl, rfl, rfl⟩
  obtain ⟨_, _, honce, hclaimers⟩ := queue_leases hnew rfl hreach
  exact ⟨honce "run", hclaimers _ _ _ _ [] rfl⟩

end Runs
end SecureAgnt

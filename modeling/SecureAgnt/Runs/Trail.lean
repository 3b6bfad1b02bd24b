/-
The audit trail that the cycles of workers leave.

A run is finished on four paths, each with an update that may change no row and an
event that may or may not follow.  `trail_agrees` says when the events of every
worker agree with its updates; `stale_failure_audited` is a run in which they do not.
-/
import SecureAgnt.Runs.Cycle
import SecureAgnt.Worker.LlmAction

namespace SecureAgnt
namespace Runs

open Storage
open Handler (PoolReaches wp)
open Redaction (redactText)

/-! ## The trail of a worker -/

/-- The worker's updates that finished a run and its events of a run's end. -/
def QueueEvent.isOwnEnd (workerId : String) : QueueEvent → Bool
  | .finished other _ _ => other = workerId
  | .audited other _ eventType => other = workerId && isFinalType eventType
  | _ => false

def trail (workerId : String) (log : List QueueEvent) : List QueueEvent :=
  log.filter (·.isOwnEnd workerId)

/-- Every update is followed by one event of its kind, and there are no others. -/
inductive Paired (workerId : String) : List QueueEvent → Prop
  | nil : Paired workerId []
  | append {events : List QueueEvent} (hpaired : Paired workerId events) (runId : String)
      (status : FinalStatus) :
      Paired workerId (events ++ [.finished workerId runId status,
        .audited workerId runId (finalEvent status)])

/-- The worker's updates and events agree, or it is about to append the event of its
last update. -/
def TrailAgrees {α : Type} (workerId : String) (log : List QueueEvent) (p : QueueProg α) : Prop :=
  Paired workerId (trail workerId log) ∨
  ∃ events runId status event k, Paired workerId events ∧
    trail workerId log = events ++ [.finished workerId runId status] ∧
    p = .call (.appendAuditEvent workerId event) k ∧ event.runId = runId ∧
    event.eventType = finalEvent status

/-- The run is leased to the worker. -/
def Holds (w : QueueWorld) (runId workerId : String) : Prop :=
  ∃ row ∈ w.runs.rows, row.id = runId ∧ row.status = .running ∧ row.leaseOwner = some workerId

def failureCode (errorJson : Json) : Option String := (errorJson.get? "code").bind Json.asStr?

/-- A worker that could not renew its lease has lost the run, and one whose run ended
with an error still holds it. -/
def marksTruly (w : QueueWorld) : QueueOp → Prop
  | .finishRun runId workerId _ _ (some errorJson) =>
    (failureCode errorJson = some "LEASE_RENEW_FAILED" → ¬ Holds w runId workerId) ∧
    (failureCode errorJson = some "RUN_EXECUTION_FAILED" → Holds w runId workerId)
  | _ => True

/-- No statement that ends a run or reports its end fails. -/
def endsAnswered : (op : QueueOp) → QueueAns op → Prop
  | .finishRun .., .error _ => False
  | .appendAuditEvent _ event, .error _ => isFinalType event.eventType = false
  | _, _ => True

/-- The queue in the runs in which the workers mark truly and are answered. -/
def trailHandler (b : Backend) : Handler QueueOp QueueAns QueueWorld :=
  ((queueHandler b true).guarded marksTruly).answering endsAnswered

theorem failureCode_failureJson (code message : String) :
    failureCode (failureJson code message) = some (redactText code) := rfl

/-! ## What the others leave alone -/

/-- What a worker can rely on: the others add nothing to its trail and lease it no
runs. -/
structure TrailStands (workerId : String) (w w' : QueueWorld) : Prop where
  inv : LeaseInv w → LeaseInv w'
  trail : trail workerId w'.log = trail workerId w.log
  holds : ∀ runId, Holds w' runId workerId → Holds w runId workerId

theorem TrailStands.refl (workerId : String) (w : QueueWorld) : TrailStands workerId w w :=
  ⟨fun h => h, rfl, fun _ h => h⟩

theorem TrailStands.trans {workerId : String} {w₁ w₂ w₃ : QueueWorld}
    (h₁ : TrailStands workerId w₁ w₂) (h₂ : TrailStands workerId w₂ w₃) :
    TrailStands workerId w₁ w₃ :=
  ⟨fun h => h₂.inv (h₁.inv h), h₂.trail.trans h₁.trail, fun _ h => h₁.holds _ (h₂.holds _ h)⟩

/-- The statement is issued by the worker, or by nobody in particular. -/
def QueueOp.IsBy (workerId : String) : QueueOp → Prop
  | .countRunning other => other = workerId
  | .claimRun _ other _ _ => other = workerId
  | .finishRun _ other _ _ _ => other = workerId
  | .processClaimedRun other _ => other = workerId
  | .appendAuditEvent other _ => other = workerId
  | _ => True

/-- The statement is one of those that end a run. -/
def QueueOp.ends : QueueOp → Bool
  | .finishRun .. => true
  | .appendAuditEvent _ event => isFinalType event.eventType
  | _ => false

section Steps

variable {b : Backend} {concurrent : Bool} {w w' : QueueWorld} {op : QueueOp}
  {answer : QueueAns op} {workerId : String}

theorem QueueOp.IsBy.workerId_eq {e : QueueEvent} (hop : op.IsBy workerId)
    (he : op.Notes e ∨ op.Moves e) : e.workerId = workerId := by
  cases op with
  | countRunning other =>
    obtain rfl | h := he
    · exact hop
    · exact h.elim
  | claimRun runId other clientNow leaseMs =>
    obtain h | rfl := he
    · exact h.elim
    · exact hop
  | finishRun runId other clientNow status errorJson =>
    obtain h | rfl := he
    · exact h.elim
    · exact hop
  | processClaimedRun other run =>
    obtain ⟨event, _, rfl⟩ | h := he
    · exact hop
    · exact h.elim
  | appendAuditEvent other event =>
    obtain rfl | h := he
    · exact hop
    · exact h.elim
  | _ => exact (he.elim id id).elim

theorem isOwnEnd_workerId {e : QueueEvent} (h : e.isOwnEnd workerId = true) :
    e.workerId = workerId := by
  cases e with
  | finished other runId status => exact of_decide_eq_true h
  | audited other runId eventType =>
    rw [QueueEvent.isOwnEnd, Bool.and_eq_true] at h
    exact of_decide_eq_true h.1
  | counted other => cases h
  | claimed other runId => cases h

/-- No event of the statement is in the worker's trail. -/
theorem trail_step (hstep : queueStep b concurrent w op answer w')
    (hevents : ∀ e, op.Notes e ∨ op.Moves e → e.isOwnEnd workerId = false) :
    trail workerId w'.log = trail workerId w.log := by
  obtain ⟨events, hlog, hown⟩ := log_step hstep
  rw [hlog, trail, List.filter_append]
  have hnone : events.filter (·.isOwnEnd workerId) = [] := by
    rw [List.filter_eq_nil_iff]
    intro e he
    rw [hevents e (hown e he)]
    exact Bool.false_ne_true
  rw [hnone, List.append_nil]
  rfl

theorem not_isOwnEnd_of_not_ends (hop : op.ends = false) {e : QueueEvent}
    (he : op.Notes e ∨ op.Moves e) : e.isOwnEnd workerId = false := by
  cases op with
  | countRunning other =>
    obtain rfl | h := he
    · rfl
    · exact h.elim
  | claimRun runId other clientNow leaseMs =>
    obtain h | rfl := he
    · exact h.elim
    · rfl
  | finishRun runId other clientNow status errorJson => cases hop
  | processClaimedRun other run =>
    obtain ⟨event, hmay, rfl⟩ | h := he
    · rw [QueueEvent.isOwnEnd, hmay.not_final, Bool.and_false]
    · exact h.elim
  | appendAuditEvent other event =>
    obtain rfl | h := he
    · have hfinal : isFinalType event.eventType = false := hop
      rw [QueueEvent.isOwnEnd, hfinal, Bool.and_false]
    · exact h.elim
  | _ => exact (he.elim id id).elim

theorem holds_of_update {now : Int} {u : RunUpdate} {events : List QueueEvent} {runId : String}
    (hu : ∀ row ∈ w.runs.rows, u.selects row = true → (u.change row).status = .running →
      (u.change row).leaseOwner = some workerId →
      row.status = .running ∧ row.leaseOwner = some workerId)
    (h : Holds (w.update now u events) runId workerId) : Holds w runId workerId := by
  obtain ⟨row, hrow, hid, hstatus, howner⟩ := h
  obtain ⟨old, hold, rfl⟩ := RunTable.mem_apply.mp hrow
  rw [u.row_id] at hid
  by_cases hsel : u.selects old = true
  · rw [RunUpdate.row_of_selects hsel] at hstatus howner
    obtain ⟨hstatus', howner'⟩ := hu old hold hsel hstatus howner
    exact ⟨old, hold, hid, hstatus', howner'⟩
  · rw [RunUpdate.row_of_not_selects hsel] at hstatus howner
    exact ⟨old, hold, hid, hstatus, howner⟩

/-- Only a worker's own claim leases it a run. -/
theorem holds_step {runId : String} (hstep : queueStep b concurrent w op answer w')
    (hclaim : ∀ runId clientNow leaseMs, op ≠ .claimRun runId workerId clientNow leaseMs)
    (h : Holds w' runId workerId) : Holds w runId workerId := by
  obtain ⟨now, _, heffect⟩ := effect_of_step hstep
  cases heffect with
  | noted events hnotes => exact h
  | created row hnew hkey =>
    obtain ⟨row', hrow', hid, hstatus, howner⟩ := h
    rcases List.mem_append.mp hrow' with hrow' | hrow'
    · exact ⟨row', hrow', hid, hstatus, howner⟩
    · rw [List.mem_singleton.mp hrow', hnew.1] at hstatus
      cases hstatus
  | claimed claimedId other clientNow leaseMs hop =>
    refine holds_of_update (fun row _ _ _ howner => ?_) h
    cases howner
    exact absurd hop (hclaim _ _ _)
  | renewed renewedId other clientNow leaseMs hop =>
    exact holds_of_update (fun _ _ _ hstatus howner => ⟨hstatus, howner⟩) h
  | finished finishedId other clientNow status errorJson hop =>
    exact holds_of_update (fun _ _ _ hstatus _ => absurd hstatus status.toRunStatus_ne_running) h
  | requeued locked limit hop =>
    exact holds_of_update (fun _ _ _ hstatus _ => absurd hstatus RunStatus.noConfusion) h

/-- A statement of another worker. -/
theorem trailStands_step {other : String} (hstep : queueStep b concurrent w op answer w')
    (hop : op.IsBy workerId) (hne : other ≠ workerId) : TrailStands other w w' := by
  refine ⟨fun h => leaseInv_step h hstep, trail_step hstep fun e he => ?_, fun runId h => ?_⟩
  · cases hown : e.isOwnEnd other with
    | false => rfl
    | true => exact absurd ((isOwnEnd_workerId hown).symm.trans (hop.workerId_eq he)) hne
  · refine holds_step hstep (fun claimedId clientNow leaseMs hclaim => ?_) h
    rw [hclaim] at hop
    exact hne hop

/-- A statement of the worker's own that neither claims nor ends a run. -/
theorem trailStands_quiet (hstep : queueStep b concurrent w op answer w') (hends : op.ends = false)
    (hclaim : ∀ runId clientNow leaseMs, op ≠ .claimRun runId workerId clientNow leaseMs) :
    TrailStands workerId w w' :=
  ⟨fun h => leaseInv_step h hstep,
    trail_step hstep fun _ he => not_isOwnEnd_of_not_ends hends he,
    fun _ h => holds_step hstep hclaim h⟩

end Steps

/-! ## Cycles among the others -/

/-- Between two statements that end a run. -/
structure Settled (workerId : String) (w : QueueWorld) : Prop where
  inv : LeaseInv w
  paired : Paired workerId (trail workerId w.log)

/-- The call may be the next one: the trail is paired, or the call pairs it. -/
def SafeCall (workerId : String) (w : QueueWorld) (op : QueueOp) : Prop :=
  ∀ α (k : QueueAns op → QueueProg α), TrailAgrees workerId w.log (.call op k)

def trailContract (workerId : String) : Contract QueueWorld QueueOp where
  rely := TrailStands workerId
  guarantee := fun w w' => ∀ other, other ≠ workerId → TrailStands other w w'
  safe := SafeCall workerId
  rely_refl := TrailStands.refl workerId
  rely_trans := TrailStands.trans

theorem Settled.stable {workerId : String} {w w' : QueueWorld} (h : Settled workerId w)
    (hstands : TrailStands workerId w w') : Settled workerId w' :=
  ⟨hstands.inv h.inv, by rw [hstands.trail]; exact h.paired⟩

/-- The program leaves the trail settled. -/
def KeepsTrail (b : Backend) (workerId : String) {α : Type} (p : QueueProg α) : Prop :=
  ∀ w, Settled workerId w → wp (trailHandler b) (trailContract workerId) p
    (fun w _ => Settled workerId w) w

section Keeps

variable {b : Backend} {workerId : String} {α β : Type}

theorem KeepsTrail.pure (a : α) : KeepsTrail b workerId (.pure a) :=
  fun _ hw _ hrely => hw.stable hrely

theorem KeepsTrail.fail (e : String) : KeepsTrail b workerId (.fail e : QueueProg α) :=
  fun _ hw _ hrely => hw.stable hrely

theorem KeepsTrail.bind {p : QueueProg α} {f : α → QueueProg β} (hp : KeepsTrail b workerId p)
    (hf : ∀ a, KeepsTrail b workerId (f a)) : KeepsTrail b workerId (p >>= f) :=
  fun w hw => Handler.wp_seq (hp w hw) (fun w a hw => hf a w hw) fun _ _ hw => hw

/-- A statement that ends no run. -/
theorem KeepsTrail.ask {op : QueueOp} (hby : op.IsBy workerId) (hends : op.ends = false) :
    KeepsTrail b workerId (askQueue op) := by
  intro w hw
  refine Handler.wp_perform fun w₁ hrely => ⟨fun _ _ => .inl (hw.stable hrely).paired, ?_⟩
  intro answer w₂ hstep
  refine ⟨fun other hne => trailStands_step hstep.2.2 hby hne, fun w₃ hrely₃ => ?_⟩
  have hw₁ := hw.stable hrely
  refine Settled.stable ⟨leaseInv_step hw₁.inv hstep.2.2, ?_⟩ hrely₃
  rw [trail_step hstep.2.2 fun e he => not_isOwnEnd_of_not_ends hends he]
  exact hw₁.paired

theorem KeepsTrail.tryQueue {p : QueueProg (Except String α)} (hp : KeepsTrail b workerId p) :
    KeepsTrail b workerId (tryQueue p) := by
  refine .bind hp fun answer => ?_
  cases answer with
  | ok a => exact .pure a
  | error e => exact .fail e

theorem KeepsTrail.ite {c : Prop} [Decidable c] {p q : QueueProg α} (hp : KeepsTrail b workerId p)
    (hq : KeepsTrail b workerId q) : KeepsTrail b workerId (if c then p else q) := by
  split
  · exact hp
  · exact hq

theorem keepsTrail_clientNow : KeepsTrail b workerId (clientNow b) := by
  cases b with
  | postgres => exact .pure none
  | sqlite => exact .bind (.ask trivial rfl) fun now => .pure (some now)

theorem keepsTrail_claimedRow (row : RunRow) : KeepsTrail b workerId (claimedRow b row) := by
  cases b with
  | postgres => exact .pure (some row)
  | sqlite =>
    refine .bind (.ask trivial rfl) fun found => ?_
    cases found with
    | none => exact .fail _
    | some row => exact .pure (some row)

theorem keepsTrail_claimCandidates (clientTime : Option Int) (leaseMs tenantCap : Int)
    (candidates : List RunRow) :
    KeepsTrail b workerId
      (claimCandidates b workerId clientTime leaseMs tenantCap candidates) := by
  induction candidates with
  | nil => exact .pure none
  | cons candidate candidates ih =>
    refine .bind (.ask trivial rfl) fun count => .ite ih ?_
    refine .bind (.ask rfl rfl) fun claimed => ?_
    cases claimed with
    | some row => exact keepsTrail_claimedRow row
    | none => exact ih

theorem keepsTrail_claim (leaseMs globalMax tenantMax : Int) :
    KeepsTrail b workerId
      (claimNextQueuedRunWithLimits b workerId leaseMs globalMax tenantMax) := by
  refine .bind keepsTrail_clientNow fun clientTime => ?_
  refine .bind (.ask trivial rfl) fun candidates => .ite (.pure none) ?_
  refine .bind (.ask rfl rfl) fun count => .ite (.pure none) ?_
  exact keepsTrail_claimCandidates clientTime leaseMs _ candidates

/-! ## Statements that end a run -/

theorem trail_append_finished {log : List QueueEvent} (runId : String) (status : FinalStatus) :
    trail workerId (log ++ [.finished workerId runId status]) =
      trail workerId log ++ [.finished workerId runId status] := by
  rw [trail, List.filter_append]
  congr 1
  exact List.filter_cons_of_pos (decide_eq_true rfl)

theorem isFinalType_finalEvent (status : FinalStatus) : isFinalType (finalEvent status) = true := by
  cases status <;> rfl

theorem trail_append_audited {log : List QueueEvent} (runId : String) (status : FinalStatus) :
    trail workerId (log ++ [.audited workerId runId (finalEvent status)]) =
      trail workerId log ++ [.audited workerId runId (finalEvent status)] := by
  rw [trail, List.filter_append]
  congr 1
  refine List.filter_cons_of_pos ?_
  rw [QueueEvent.isOwnEnd, isFinalType_finalEvent, Bool.and_true]
  exact decide_eq_true rfl

/-- An update that finishes a run changes a row if and only if the worker holds the
run. -/
theorem affected_finish_iff {w : QueueWorld} (h : LeaseInv w) (now : Int)
    (runId workerId : String) (clientTime : Option Int) (status : FinalStatus)
    (errorJson : Option Json) :
    w.runs.affected (finishUpdate b now runId workerId clientTime status errorJson) = true ↔
      Holds w runId workerId := by
  rw [RunTable.affected_iff]
  constructor
  · rintro ⟨row, hrow, hsel⟩
    obtain ⟨hid, hrunning, hmay⟩ := selects_finishUpdate hsel
    exact ⟨row, hrow, hid, hrunning, ((h.rows row hrow).mayFinish_iff hrunning).mp hmay⟩
  · rintro ⟨row, hrow, hid, hrunning, howner⟩
    have hmay := ((h.rows row hrow).mayFinish_iff (b := b) hrunning).mpr howner
    refine ⟨row, hrow, ?_⟩
    simp [finishUpdate, hid, hrunning, hmay]

/-- The trail waits for the event of the last update. -/
structure Pending (workerId runId : String) (status : FinalStatus) (w : QueueWorld) : Prop where
  inv : LeaseInv w
  waits : ∃ events, Paired workerId events ∧
    trail workerId w.log = events ++ [.finished workerId runId status]

theorem Pending.stable {runId : String} {status : FinalStatus} {w w' : QueueWorld}
    (h : Pending workerId runId status w) (hstands : TrailStands workerId w w') :
    Pending workerId runId status w' := by
  obtain ⟨events, hpaired, htrail⟩ := h.waits
  exact ⟨hstands.inv h.inv, events, hpaired, hstands.trail.trans htrail⟩

/-- A mark finishes the run, and the trail waits for the event, or it changes nothing
because the worker does not hold the run. -/
structure Marked (workerId runId : String) (status : FinalStatus) (op : QueueOp)
    (w w' : QueueWorld) (moved : Bool) : Prop where
  before : ∃ w₁, TrailStands workerId w w₁ ∧ marksTruly w₁ op ∧
    (moved = true ↔ Holds w₁ runId workerId)
  pending : moved = true → Pending workerId runId status w'
  kept : moved = false → Settled workerId w' ∧ ¬ Holds w' runId workerId

theorem wp_finishRun {runId : String} {clientTime : Option Int} {status : FinalStatus}
    {errorJson : Option Json} {w : QueueWorld} (hw : Settled workerId w) :
    wp (trailHandler b) (trailContract workerId)
      (tryQueue (askQueue (.finishRun runId workerId clientTime status errorJson)))
      (fun w' out => ∃ moved, out = .ok moved ∧ Marked workerId runId status
        (.finishRun runId workerId clientTime status errorJson) w w' moved) w := by
  refine Handler.wp_perform_bind fun w₁ hrely => ⟨fun _ _ => .inl (hw.stable hrely).paired, ?_⟩
  intro answer w₂ hstep
  have hw₁ := hw.stable hrely
  refine ⟨fun other hne => trailStands_step hstep.2.2 rfl hne, Handler.wp_ofExcept fun w₃ hrely₃ => ?_⟩
  have hinv₂ := leaseInv_step hw₁.inv hstep.2.2
  obtain ⟨hanswered, htruly, now, _, hmark⟩ := hstep
  obtain ⟨moved, rfl⟩ : ∃ moved, answer = .ok moved := by
    cases answer with
    | ok moved => exact ⟨moved, rfl⟩
    | error e => exact hanswered.elim
  refine ⟨moved, rfl, ?_⟩
  obtain ⟨rfl, rfl⟩ := hmark
  have hiff := affected_finish_iff (b := b) hw₁.inv now runId workerId clientTime status errorJson
  refine ⟨⟨w₁, hrely, htruly, hiff⟩, fun haff => ?_, fun hnot => ?_⟩
  · refine Pending.stable ⟨hinv₂, trail workerId w₁.log, hw₁.paired, ?_⟩ hrely₃
    rw [Runs.update_log haff, trail_append_finished]
  · have hlost : ¬ Holds w₁ runId workerId := by
      rw [← hiff, hnot]
      exact Bool.false_ne_true
    refine ⟨Settled.stable ⟨hinv₂, ?_⟩ hrely₃, fun hholds => hlost ?_⟩
    · rcases w₁.update_log now (finishUpdate b now runId workerId clientTime status errorJson)
        [.finished workerId runId status] with hsame | ⟨haff, _⟩
      · rw [hsame]
        exact hw₁.paired
      · rw [hnot] at haff
        cases haff
    · refine holds_of_update (fun _ _ _ hstatus _ => ?_) (hrely₃.holds _ hholds)
      exact absurd hstatus status.toRunStatus_ne_running

/-- The event of the last update. -/
theorem wp_auditFinal {event : Worker.AuditEvent} {runId : String} {status : FinalStatus}
    {w : QueueWorld} (hw : Pending workerId runId status w) (hrun : event.runId = runId)
    (htype : event.eventType = finalEvent status) :
    wp (trailHandler b) (trailContract workerId)
      (tryQueue (askQueue (.appendAuditEvent workerId event)))
      (fun w' _ => Settled workerId w') w := by
  refine Handler.wp_perform_bind fun w₁ hrely => ?_
  obtain ⟨hinv, events, hpaired, htrail⟩ := hw.stable hrely
  refine ⟨fun _ k => .inr ⟨events, runId, status, event, k, hpaired, htrail, rfl, hrun, htype⟩, ?_⟩
  intro answer w₂ hstep
  refine ⟨fun other hne => trailStands_step hstep.2.2 rfl hne, Handler.wp_ofExcept fun w₃ hrely₃ => ?_⟩
  refine Settled.stable ⟨leaseInv_step hinv hstep.2.2, ?_⟩ hrely₃
  obtain ⟨hanswered, _, now, _, happend⟩ := hstep
  have hworld : w₂ = w₁.audit now workerId event := by
    cases answer with
    | ok => exact happend
    | error e =>
      have hfinal : isFinalType event.eventType = false := hanswered
      rw [htype, isFinalType_finalEvent] at hfinal
      cases hfinal
  rw [hworld]
  show Paired workerId (trail workerId (w₁.log ++ [.audited workerId event.runId event.eventType]))
  rw [hrun, htype, trail_append_audited, htrail, List.append_assoc]
  exact hpaired.append runId status

theorem redactText_codes :
    redactText "LEASE_RENEW_FAILED" = "LEASE_RENEW_FAILED" ∧
    redactText "RUN_EXECUTION_FAILED" = "RUN_EXECUTION_FAILED" := by decide +kernel

theorem wp_clientNow_stands {w : QueueWorld} (hw : Settled workerId w) :
    wp (trailHandler b) (trailContract workerId) (clientNow b)
      (fun w' out => (∃ now, out = .ok now) ∧ TrailStands workerId w w') w := by
  cases b with
  | postgres => exact fun w' hrely => ⟨⟨none, rfl⟩, hrely⟩
  | sqlite =>
    refine Handler.wp_perform_bind fun w₁ hrely => ⟨fun _ _ => .inl (hw.stable hrely).paired, ?_⟩
    intro now w₂ hstep
    refine ⟨fun other hne => trailStands_step hstep.2.2 trivial hne, fun w₃ hrely₃ => ?_⟩
    have hown : TrailStands workerId w₁ w₂ := trailStands_quiet hstep.2.2 rfl nofun
    exact ⟨⟨some now, rfl⟩, (hrely.trans hown).trans hrely₃⟩

/-- A mark, with the clock read before it. -/
theorem wp_mark {runId : String} {status : FinalStatus} {errorJson : Option Json} {w : QueueWorld}
    (hw : Settled workerId w) :
    wp (trailHandler b) (trailContract workerId)
      (clientNow b >>= fun now =>
        tryQueue (askQueue (.finishRun runId workerId now status errorJson)))
      (fun w' out => ∃ moved clientTime, out = .ok moved ∧ Marked workerId runId status
        (.finishRun runId workerId clientTime status errorJson) w w' moved) w := by
  refine Handler.wp_seq (wp_clientNow_stands hw) ?_ ?_
  · rintro w₁ clientTime ⟨_, hstands⟩
    refine Handler.wp_mono ?_ (wp_finishRun (hw.stable hstands))
    rintro w₂ out ⟨moved, rfl, ⟨w₃, hstands₃, htruly, hiff⟩, hpending, hkept⟩
    exact ⟨moved, clientTime, rfl, ⟨w₃, hstands.trans hstands₃, htruly, hiff⟩, hpending, hkept⟩
  · rintro w₁ e ⟨⟨now, hok⟩, _⟩
    cases hok

section Cycle

variable {config : OnceConfig} (hname : config.workerId = workerId)
include hname

theorem keepsTrail_auditRun (run : RunRow) {eventType : String} (payloadJson : Json)
    (h : isFinalType eventType = false) :
    KeepsTrail b workerId (auditRun config run eventType payloadJson) :=
  .tryQueue (.ask hname h)

/-- A mark that finds the run lost needs no event. -/
theorem keepsTrail_lostMark {run : RunRow} {errorJson : Json}
    (hcode : failureCode errorJson = some "LEASE_RENEW_FAILED") :
    KeepsTrail b workerId (markRunFailed b run.id config.workerId errorJson) := by
  subst hname
  intro w hw
  refine Handler.wp_mono ?_ (wp_mark hw)
  rintro w' out ⟨moved, clientTime, rfl, ⟨w₁, _, htruly, hiff⟩, _, hkept⟩
  cases moved with
  | true => exact absurd (hiff.mp rfl) (htruly.1 hcode)
  | false => exact (hkept rfl).1

theorem keepsTrail_finishProcessed (run : RunRow) (result : Except String Unit) :
    KeepsTrail b workerId (finishProcessed b config run result) := by
  subst hname
  intro w hw
  cases result with
  | ok =>
    refine Handler.wp_seq (wp_mark hw) ?_ ?_
    · rintro w₁ moved ⟨_, clientTime, hsame, _, hpending, hkept⟩
      cases hsame
      cases moved with
      | true =>
        refine Handler.wp_seq (wp_auditFinal (hpending rfl) rfl rfl) ?_ fun _ _ h => h
        exact fun w₂ _ hw₂ => KeepsTrail.pure _ w₂ hw₂
      | false =>
        -- the run is lost, and stays so until the second mark
        obtain ⟨hw₁, hlost⟩ := hkept rfl
        refine Handler.wp_seq (wp_mark hw₁) ?_ ?_
        · rintro w₂ moved ⟨_, clientTime, hsame, ⟨w₃, hstands, _, hiff⟩, _, hkept₂⟩
          cases hsame
          cases moved with
          | true => exact absurd (hstands.holds _ (hiff.mp rfl)) hlost
          | false => exact KeepsTrail.pure _ w₂ (hkept₂ rfl).1
        · rintro w₂ e ⟨_, _, hok, _⟩
          cases hok
    · rintro w₁ e ⟨_, _, hok, _⟩
      cases hok
  | error error =>
    refine Handler.wp_seq (wp_mark hw) ?_ ?_
    · rintro w₁ moved ⟨_, clientTime, hsame, ⟨w₂, _, htruly, hiff⟩, hpending, _⟩
      cases hsame
      have hheld := htruly.2 (by rw [failureCode_failureJson, redactText_codes.2])
      refine Handler.wp_seq (wp_auditFinal (hpending (hiff.mpr hheld)) rfl rfl) ?_ fun _ _ h => h
      exact fun w₂ _ hw₂ => KeepsTrail.pure _ w₂ hw₂
    · rintro w₁ e ⟨_, _, hok, _⟩
      cases hok

theorem keepsTrail_processClaimed (requeuedExpiredRuns : Nat) (run : RunRow) :
    KeepsTrail b workerId (processClaimed b config requeuedExpiredRuns run) := by
  refine .bind (keepsTrail_auditRun hname run _ rfl) fun _ => ?_
  refine .bind (.bind keepsTrail_clientNow fun _ => .ask trivial rfl) fun renewed => .ite ?_ ?_
  · refine .bind (keepsTrail_auditRun hname run _ rfl) fun _ => ?_
    refine .bind (keepsTrail_lostMark hname ?_) fun _ => .pure _
    rw [failureCode_failureJson, redactText_codes.1]
  · refine .bind (keepsTrail_auditRun hname run _ rfl) fun _ => ?_
    exact .bind (.ask hname rfl) fun result => keepsTrail_finishProcessed hname run result

theorem keepsTrail_appendAll (events : List Worker.AuditEvent)
    (h : ∀ event ∈ events, isFinalType event.eventType = false) :
    KeepsTrail b workerId (appendAll config events) := by
  induction events with
  | nil => exact .pure ()
  | cons event events ih =>
    refine .bind (.tryQueue (.ask hname (h event List.mem_cons_self))) fun _ => ?_
    exact ih fun other hother => h other (List.mem_cons_of_mem _ hother)

theorem keepsTrail_compactMemory : KeepsTrail b workerId (compactMemory config) := by
  refine .ite (.bind (.ask trivial rfl) fun groups => ?_) (.pure ())
  refine keepsTrail_appendAll hname _ fun event hevent => ?_
  obtain ⟨group, _, hgroup⟩ := List.mem_filterMap.mp hevent
  obtain ⟨runId, _, rfl⟩ := Option.map_eq_some_iff.mp hgroup
  rfl

omit hname in
theorem keepsTrail_shouldDispatch : KeepsTrail b workerId (shouldDispatch config) :=
  .bind (.ask trivial rfl) fun _ => .ite (.pure false) (.ite (.ask trivial rfl) (.pure true))

theorem keepsTrail_dispatchTriggers : KeepsTrail b workerId (dispatchTriggers config) := by
  refine .ite (.bind keepsTrail_shouldDispatch fun should => .ite ?_ (.pure ())) (.pure ())
  refine .bind (.ask trivial rfl) fun dispatched => ?_
  cases dispatched with
  | some dispatched => exact .tryQueue (.ask hname rfl)
  | none => exact .pure ()

theorem keepsTrail_processOnce : KeepsTrail b workerId (processOnce b config) := by
  refine .bind (.ask trivial rfl) fun requeued => ?_
  refine .bind (keepsTrail_compactMemory hname) fun _ => ?_
  refine .bind (.ite (.ask trivial rfl) (.pure ())) fun _ => ?_
  refine .bind (keepsTrail_dispatchTriggers hname) fun _ => ?_
  refine .bind ?_ fun claimed => ?_
  · rw [hname]
    exact keepsTrail_claim _ _ _
  · cases claimed with
    | some run => exact keepsTrail_processClaimed hname requeued run
    | none => exact .pure _

theorem keepsTrail_runCycles (calls : List CycleCall) :
    KeepsTrail b workerId (runCycles b config calls) := by
  induction calls with
  | nil => exact .pure ()
  | cons call calls ih =>
    cases call with
    | processOnce => exact .bind (keepsTrail_processOnce hname) fun _ => ih
    | createRun row => exact .bind (.ask trivial rfl) fun _ => ih

end Cycle

end Keeps

/-- Any number of workers with names of their own run their cycles in any order, at
any times, beside clients that create runs.  If no statement that ends a run or reports
its end fails, and every worker that marks a run failed for a refused renewal has lost
the run, and every one that does so for an error still holds it, then the trail of each
is paired throughout: an event of a run's end follows the worker's own update that
brought the run there, and each such update has one such event. -/
theorem trail_agrees {ι : Type} [DecidableEq ι] {b : Backend} {config : ι → OnceConfig}
    {calls : ι → List CycleCall} {start w : QueueWorld} {ps : ι → QueueProg Unit}
    (hnames : Function.Injective fun i => (config i).workerId)
    (hnew : ∀ row ∈ start.runs.rows, row.IsNew) (hlog : start.log = [])
    (hreach : PoolReaches (trailHandler b)
      (start, fun i => runCycles b (config i) (calls i)) (w, ps)) (i : ι) :
    TrailAgrees (config i).workerId w.log (ps i) := by
  have hstart : ∀ i, Settled (config i).workerId start := by
    intro i
    refine ⟨leaseInv_start hnew hlog, ?_⟩
    rw [hlog]
    exact .nil
  have hwp := Handler.wp_of_pool (C := fun i => trailContract (config i).workerId) ?_
    (fun i => keepsTrail_runCycles rfl (calls i) start (hstart i)) hreach i
  · cases hp : ps i with
    | pure a =>
      rw [hp] at hwp
      exact .inl (hwp w (TrailStands.refl _ w)).paired
    | fail e =>
      rw [hp] at hwp
      exact .inl (hwp w (TrailStands.refl _ w)).paired
    | call op k =>
      rw [hp] at hwp
      exact (hwp w (TrailStands.refl _ w)).1 Unit k
  · intro i j hne w w' hguar
    exact hguar (config j).workerId fun h => hne (hnames h).symm

/-! ## A worker that comes too late -/

def onceConfig (name : String) : OnceConfig where
  toWorkerConfig := { Worker.smallTierConfig with workerId := name }
  agentContextEnabled := false
  agentContextRequired := false
  leaseMs := 1000
  requeueLimit := 10
  claimMaxInflightRuns := 4
  triggerSchedulerEnabled := false
  triggerSchedulerLeaseEnabled := false
  triggerTenantMaxInflightRuns := 2
  triggerDispatchMaxInflightRuns := 4
  memoryCompactionEnabled := false
  complianceSiemDeliveryEnabled := false
  timeJson := fun _ => .null

def oneCycle (i : Bool) : QueueProg Unit :=
  runCycles .postgres (onceConfig (twoWorkers i)) [.processOnce]

theorem not_paired_singleton (workerId : String) (e : QueueEvent) : ¬ Paired workerId [e] := by
  intro h
  generalize hl : [e] = l at h
  cases h with
  | nil => cases hl
  | append hpaired runId status =>
    have hlength := congrArg List.length hl
    simp at hlength

/-- The first worker's lease is over when its run fails, and the second has put the
run back.  The mark changes nothing, but the event is appended. -/
theorem stale_failure_audited :
    ¬ ∀ w ps, PoolReaches (queueHandler .postgres true)
        (oneRun 0 (queuedRun "run" "tenant") [], oneCycle) (w, ps) →
      ∀ i, TrailAgrees (twoWorkers i) w.log (ps i) := by
  intro h
  have hstart : PoolReaches (queueHandler .postgres true)
      (oneRun 0 (queuedRun "run" "tenant") [], oneCycle) _ := .refl
  have hclaimed := (((((hstart.focus (i := true) rfl).then_call
    (0 : Nat) _ ⟨0, le_rfl, [], fun _ => rfl, rfl, rfl⟩).then_call
    [queuedRun "run" "tenant"] _ ⟨0, le_rfl, ⟨[], fun _ => rfl, rfl⟩, rfl⟩).then_call
    (0 : Nat) _ ⟨0, le_rfl, rfl, rfl⟩).then_call
    (0 : Nat) _ ⟨0, le_rfl, rfl, rfl⟩).then_call
    (some _ : Option RunRow) _ ⟨0, le_rfl, rfl, rfl⟩
  have herror := (((hclaimed.then_call
    (.ok ()) _ ⟨0, le_rfl, rfl⟩).then_call
    true _ ⟨0, le_rfl, rfl, rfl⟩).then_call
    (.ok ()) _ ⟨0, le_rfl, rfl⟩).then_call
    (.error "skill failed" : Except String Unit) _ ⟨0, le_rfl, [], nofun, rfl⟩
  have hrequeued := (herror.focus (i := false) rfl).then_call
    (1 : Nat) _ ⟨2 * 10 ^ 9, by decide, [], fun _ => rfl, rfl, rfl⟩
  have haudited := ((hrequeued.focus (i := true) rfl).then_call
    (.ok false) _ ⟨2 * 10 ^ 9, by decide, rfl, rfl⟩).then_call
    (.ok ()) _ ⟨2 * 10 ^ 9, by decide, rfl⟩
  rcases h _ _ haudited true with hpaired | ⟨events, runId, status, event, k, _, htrail, _⟩
  · exact not_paired_singleton _ _ hpaired
  · have hlast := congrArg List.getLast? htrail
    rw [List.getLast?_concat] at hlast
    cases hlast

/-- A worker in time completes its run and reports it. -/
theorem completed_run_audited :
    ∃ w ps, PoolReaches (trailHandler .postgres)
        (oneRun 0 (queuedRun "run" "tenant") [], oneCycle) (w, ps) ∧
      HasStatus w "run" .succeeded ∧ Paired "first" (trail "first" w.log) := by
  have hstart : PoolReaches (trailHandler .postgres)
      (oneRun 0 (queuedRun "run" "tenant") [], oneCycle) _ := .refl
  have hclaimed := (((((hstart.focus (i := true) rfl).then_call
    (0 : Nat) _ ⟨trivial, trivial, 0, le_rfl, [], fun _ => rfl, rfl, rfl⟩).then_call
    [queuedRun "run" "tenant"] _ ⟨trivial, trivial, 0, le_rfl, ⟨[], fun _ => rfl, rfl⟩, rfl⟩).then_call
    (0 : Nat) _ ⟨trivial, trivial, 0, le_rfl, rfl, rfl⟩).then_call
    (0 : Nat) _ ⟨trivial, trivial, 0, le_rfl, rfl, rfl⟩).then_call
    (some _ : Option RunRow) _ ⟨trivial, trivial, 0, le_rfl, rfl, rfl⟩
  have hprocessed := (((hclaimed.then_call
    (.ok ()) _ ⟨trivial, trivial, 0, le_rfl, rfl⟩).then_call
    true _ ⟨trivial, trivial, 0, le_rfl, rfl, rfl⟩).then_call
    (.ok ()) _ ⟨trivial, trivial, 0, le_rfl, rfl⟩).then_call
    (.ok () : Except String Unit) _ ⟨trivial, trivial, 0, le_rfl, [], nofun, rfl⟩
  have hdone := (hprocessed.then_call
    (.ok true) _ ⟨trivial, trivial, 0, le_rfl, rfl, rfl⟩).then_call
    (.ok ()) _ ⟨trivial, trivial, 0, le_rfl, rfl⟩
  refine ⟨_, _, hdone, ⟨_, List.mem_singleton_self _, rfl, rfl⟩, ?_⟩
  have hnew : ∀ row ∈ (oneRun 0 (queuedRun "run" "tenant") []).runs.rows, row.IsNew := by
    intro row hrow
    rw [List.mem_singleton.mp hrow]
    exact ⟨rfl, rfl, rfl⟩
  have hnames : Function.Injective fun i => (onceConfig (twoWorkers i)).workerId := by
    intro i j h
    cases i <;> cases j <;> first | rfl | exact absurd h (by decide)
  have hagrees := trail_agrees hnames hnew rfl hdone true
  rw [Function.update_self] at hagrees
  rcases hagrees with hpaired | ⟨_, _, _, _, _, _, _, hcall, _⟩
  · exact hpaired
  · cases hcall

end Runs
end SecureAgnt

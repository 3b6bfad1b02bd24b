/-
The window of a claim.

A claim looks at the first 64 runs of the queue and passes over those whose tenant
has reached its cap.  `claim_none_iff` says when a claim that nothing else disturbs
leaves a queued run of a tenant with room behind.
-/
import SecureAgnt.Runs.Lease

namespace SecureAgnt
namespace Runs

open Storage
open Handler (Finishes wp)

/-- The run's tenant is below its cap. -/
def HasRoom (t : RunTable) (tenantMax : Int) (row : RunRow) : Prop :=
  (t.tenantRunning row.tenantId : Int) < tenantMax

/-- If there is room for a queued run, one of those offered at `now` has it. -/
def RoomInWindow (b : Backend) (now globalMax tenantMax : Int) (t : RunTable) : Prop :=
  (t.running : Int) < globalMax →
    (∃ row ∈ t.rows, row.status = .queued ∧ HasRoom t tenantMax row) →
    ∃ row ∈ (claimQueue b now t).take candidateLimit, HasRoom t tenantMax row

/-- Nothing is left behind: the global cap or those of all queued runs' tenants are
reached. -/
def CapsReached (globalMax tenantMax : Int) (t : RunTable) : Prop :=
  globalMax ≤ t.running ∨
    ∀ row ∈ t.rows, row.status = .queued → tenantMax ≤ t.tenantRunning row.tenantId

section Window

variable {b : Backend} {globalMax tenantMax leaseMs : Int} {workerId : String}
  {clientTime : Option Int}

theorem mem_claimQueue {now : Int} {t : RunTable} {row : RunRow} :
    row ∈ claimQueue b now t ↔ row ∈ t.rows ∧ row.isClaimable b now = true :=
  mem_orderBy.trans List.mem_filter

theorem isClaimable_mono {now now' : Int} {row : RunRow} (h : row.isClaimable b now = true)
    (hle : now ≤ now') : row.isClaimable b now' = true := by
  simp only [RunRow.isClaimable, Bool.and_eq_true, decide_eq_true_eq] at h ⊢
  refine ⟨h.1, ?_⟩
  cases hexpires : row.leaseExpiresAt with
  | none => rfl
  | some expires =>
    have hbefore := h.2
    rw [hexpires, Option.all_some] at hbefore
    rw [Option.all_some]
    exact Backend.isBefore_mono hbefore hle

theorem filter_not_locked (rows : List RunRow) :
    rows.filter (fun row => !([] : List String).contains row.id) = rows :=
  List.filter_eq_self.mpr fun _ _ => rfl

/-! ## Room in the window -/

/-- A candidate that is in the table and claimable is claimed. -/
theorem find_claim_ne_none {t : RunTable} {now : Int} {candidate : RunRow}
    (hrow : candidate ∈ t.rows) (hclaimable : candidate.isClaimable b now = true) :
    t.rows.find? (claimUpdate b now candidate.id workerId clientTime leaseMs).selects ≠ none := by
  intro hnone
  rw [List.find?_eq_none] at hnone
  apply hnone candidate hrow
  simp [claimUpdate, hclaimable]

theorem wp_claimedRow_ne_none (row : RunRow) (w : QueueWorld) :
    wp (queueHandler b false) (.alone fun _ _ => True) (claimedRow b row)
      (fun _ out => out ≠ .ok none) w := by
  cases b with
  | postgres => exact Handler.wp_pure_alone nofun
  | sqlite =>
    refine Handler.wp_perform_bind fun w' _ => ⟨trivial, fun found w'' _ => ⟨trivial, ?_⟩⟩
    cases found with
    | none => exact Handler.wp_fail_alone nofun
    | some row => exact Handler.wp_pure_alone nofun

theorem wp_claimCandidates_ne_none {t : RunTable} {now : Int} (candidates : List RunRow)
    (w : QueueWorld) (hruns : w.runs = t) (hclock : now ≤ w.clock)
    (hclaimable : ∀ row ∈ candidates, row ∈ t.rows ∧ row.isClaimable b now = true)
    (hroom : ∃ row ∈ candidates, HasRoom t tenantMax row) :
    wp (queueHandler b false) (.alone fun _ _ => True)
      (claimCandidates b workerId clientTime leaseMs tenantMax candidates)
      (fun _ out => out ≠ .ok none) w := by
  induction candidates generalizing w with
  | nil =>
    obtain ⟨row, hrow, _⟩ := hroom
    cases hrow
  | cons candidate candidates ih =>
    refine Handler.wp_perform_bind fun w₁ hsame => ⟨trivial, fun count w₂ hcount => ⟨trivial, ?_⟩⟩
    subst hsame
    obtain ⟨now₂, hnow₂, rfl, rfl⟩ := hcount
    by_cases hfull : (w.runs.tenantRunning candidate.tenantId : Int) ≥ tenantMax
    · -- the candidate is passed over, so the room is further on
      rw [if_pos hfull]
      refine ih _ hruns (hclock.trans hnow₂)
        (fun row hrow => hclaimable row (List.mem_cons_of_mem _ hrow)) ?_
      obtain ⟨row, hrow, hlt⟩ := hroom
      rcases List.mem_cons.mp hrow with rfl | hrow
      · rw [hruns] at hfull
        exact absurd hlt (not_lt_of_ge hfull)
      · exact ⟨row, hrow, hlt⟩
    · rw [if_neg hfull]
      refine Handler.wp_perform_bind fun w₃ hsame => ⟨trivial, fun claimed w₄ hclaim => ⟨trivial, ?_⟩⟩
      subst hsame
      obtain ⟨now₄, hnow₄, hanswer, _⟩ := hclaim
      cases claimed with
      | some row => exact wp_claimedRow_ne_none row w₄
      | none =>
        obtain ⟨hrow, hcand⟩ := hclaimable candidate List.mem_cons_self
        have hlater := isClaimable_mono hcand ((hclock.trans hnow₂).trans hnow₄)
        rw [← hruns] at hrow
        exact absurd (Option.map_eq_none_iff.mp hanswer.symm) (find_claim_ne_none hrow hlater)

/-- `clientNow` leaves the table as it is. -/
theorem wp_clientNow_alone {w : QueueWorld} :
    wp (queueHandler b false) (.alone fun _ _ => True) (clientNow b)
      (fun w' out => (∃ now, out = .ok now) ∧ w'.runs = w.runs ∧ w.clock ≤ w'.clock) w := by
  cases b with
  | postgres => exact Handler.wp_pure_alone ⟨⟨none, rfl⟩, rfl, le_rfl⟩
  | sqlite =>
    refine Handler.wp_perform_bind fun w₁ hsame => ⟨trivial, fun now w₂ hstep => ⟨trivial, ?_⟩⟩
    subst hsame
    obtain ⟨now₂, hnow₂, rfl⟩ := hstep
    exact Handler.wp_pure_alone ⟨⟨some now, rfl⟩, rfl, hnow₂⟩

/-- A claim that finds room in its window returns a run. -/
theorem wp_claim_ne_none {w : QueueWorld} (hglobal : 1 ≤ globalMax) (htenant : 1 ≤ tenantMax)
    (hbelow : (w.runs.running : Int) < globalMax)
    (hwindow : ∀ now, w.clock ≤ now →
      ∃ row ∈ (claimQueue b now w.runs).take candidateLimit, HasRoom w.runs tenantMax row) :
    wp (queueHandler b false) (.alone fun _ _ => True)
      (claimNextQueuedRunWithLimits b workerId leaseMs globalMax tenantMax)
      (fun _ out => out ≠ .ok none) w := by
  refine Handler.wp_seq wp_clientNow_alone ?_ nofun
  rintro w' clientTime ⟨_, hruns, hclock⟩
  rw [max_eq_left hglobal, max_eq_left htenant]
  refine Handler.wp_perform_bind fun w₁ hsame => ⟨trivial, fun candidates w₂ hselect => ⟨trivial, ?_⟩⟩
  subst hsame
  obtain ⟨now, hnow, ⟨locked, hlocked, hcandidates⟩, rfl⟩ := hselect
  obtain rfl := hlocked (.inl rfl)
  rw [filter_not_locked, hruns] at hcandidates
  have hroom := hwindow now (hclock.trans hnow)
  rw [← hcandidates] at hroom
  have hsome : (candidates : List RunRow).isEmpty = false := by
    obtain ⟨row, hrow, _⟩ := hroom
    exact List.isEmpty_eq_false_iff.mpr (List.ne_nil_of_mem hrow)
  rw [hsome, if_neg Bool.false_ne_true]
  refine Handler.wp_perform_bind fun w₃ hsame => ⟨trivial, fun count w₄ hcount => ⟨trivial, ?_⟩⟩
  subst hsame
  obtain ⟨now₄, hnow₄, rfl, rfl⟩ := hcount
  have hnotfull : ¬ (w'.runs.running : Int) ≥ globalMax := by
    rw [hruns]
    exact not_le_of_gt hbelow
  rw [if_neg hnotfull]
  refine wp_claimCandidates_ne_none candidates _ hruns hnow₄ ?_ hroom
  intro row hrow
  rw [hcandidates] at hrow
  exact mem_claimQueue.mp (List.mem_of_mem_take hrow)

/-! ## No room in the window -/

theorem claimCandidates_finishes_none (candidates : List RunRow) (w : QueueWorld)
    (hfull : ∀ row ∈ candidates, ¬ HasRoom w.runs tenantMax row) :
    Finishes (queueHandler b false) w
      (claimCandidates b workerId clientTime leaseMs tenantMax candidates) w (.ok none) := by
  induction candidates with
  | nil => exact .pure w none
  | cons candidate candidates ih =>
    refine .call (w.runs.tenantRunning candidate.tenantId) ⟨w.clock, le_rfl, rfl, rfl⟩ ?_
    have hcandidate := hfull candidate List.mem_cons_self
    show Finishes _ w (if _ then _ else _) w _
    rw [if_pos (not_lt.mp hcandidate)]
    exact ih fun row hrow => hfull row (List.mem_cons_of_mem _ hrow)

/-- The table when the call reads its first clock. -/
theorem clientNow_finishes (w : QueueWorld) {now : Int} (hnow : w.clock ≤ now) :
    ∃ clientTime clock, clock ≤ now ∧
      Finishes (queueHandler b false) w (clientNow b) { w with clock := clock } (.ok clientTime) := by
  cases b with
  | postgres => exact ⟨none, w.clock, hnow, .pure w none⟩
  | sqlite =>
    refine ⟨some now, now, le_rfl, .call now ⟨now, hnow, rfl⟩ ?_⟩
    exact .pure _ (some now)

theorem claim_finishes_none {w : QueueWorld} {now : Int} (htenant : 1 ≤ tenantMax) (hnow : w.clock ≤ now)
    (hfull : ∀ row ∈ (claimQueue b now w.runs).take candidateLimit,
      ¬ HasRoom w.runs tenantMax row) :
    ∃ w', Finishes (queueHandler b false) w
      (claimNextQueuedRunWithLimits b workerId leaseMs globalMax tenantMax) w' (.ok none) := by
  obtain ⟨clientTime, clock, hclock, hclient⟩ := clientNow_finishes (b := b) w hnow
  have hselect : (queueHandler b false).step { w with clock := clock }
      (.selectCandidates candidateLimit) ((claimQueue b now w.runs).take candidateLimit)
      { w with clock := now } := by
    refine ⟨now, hclock, ⟨[], fun _ => rfl, ?_⟩, rfl⟩
    rw [filter_not_locked]
  by_cases hempty : ((claimQueue b now w.runs).take candidateLimit).isEmpty = true
  · refine ⟨{ w with clock := now }, hclient.bind_ok (.call _ hselect ?_)⟩
    show Finishes _ _ (if _ then _ else _) _ _
    rw [if_pos hempty]
    exact .pure _ none
  · refine ⟨{ w with clock := now, log := w.log ++ [.counted workerId] },
      hclient.bind_ok (.call _ hselect ?_)⟩
    show Finishes _ _ (if _ then _ else _) _ _
    rw [if_neg hempty]
    refine .call w.runs.running ⟨now, le_rfl, rfl, rfl⟩ ?_
    show Finishes _ _ (if _ then _ else _) _ _
    by_cases hge : (w.runs.running : Int) ≥ max globalMax 1
    · rw [if_pos hge]
      exact .pure _ none
    · rw [if_neg hge, max_eq_left htenant]
      exact claimCandidates_finishes_none _ _ hfull

/-- Every claim of a run that nothing else disturbs returns none only when the caps
are reached, if and only if the window has room whenever there is room at all. -/
theorem claim_none_iff {w : QueueWorld} (hglobal : 1 ≤ globalMax) (htenant : 1 ≤ tenantMax) :
    (∀ w', Finishes (queueHandler b false) w
        (claimNextQueuedRunWithLimits b workerId leaseMs globalMax tenantMax) w' (.ok none) →
      CapsReached globalMax tenantMax w.runs) ↔
    ∀ now, w.clock ≤ now → RoomInWindow b now globalMax tenantMax w.runs := by
  constructor
  · intro h now hnow hbelow hqueued
    by_contra hnone
    have hfull : ∀ row ∈ (claimQueue b now w.runs).take candidateLimit,
        ¬ HasRoom w.runs tenantMax row := fun row hrow hroom => hnone ⟨row, hrow, hroom⟩
    obtain ⟨w', hfin⟩ : ∃ w', Finishes (queueHandler b false) w
        (claimNextQueuedRunWithLimits b workerId leaseMs globalMax tenantMax) w' (.ok none) :=
      claim_finishes_none htenant hnow hfull
    rcases h w' hfin with hge | hall
    · exact absurd hbelow (not_lt_of_ge hge)
    · obtain ⟨row, hrow, hstatus, hroom⟩ := hqueued
      exact absurd hroom (not_lt_of_ge (hall row hrow hstatus))
  · intro hwindow w' hfin
    by_contra hcaps
    rw [CapsReached, not_or, not_le] at hcaps
    obtain ⟨hbelow, hqueued⟩ := hcaps
    push Not at hqueued
    exact Handler.wp_of_finishes (wp_claim_ne_none hglobal htenant hbelow fun now hnow =>
      hwindow now hnow hbelow hqueued) hfin rfl

end Window

/-! ## A tenant behind a full window -/

def waitingId (n : Nat) : String := String.ofList (List.replicate n 'w')

theorem waitingId_injective : Function.Injective waitingId := by
  intro m n h
  have hlength := congrArg (fun id : String => id.toList.length) h
  simpa [waitingId] using hlength

/-- A tenant with one running run has 64 more of them queued. -/
def waitingRuns : List RunRow := (List.range 64).map fun n => queuedRun (waitingId n) "busy"

def runningRun : RunRow :=
  { queuedRun "running" "busy" with
    status := .running, leaseOwner := some "worker", leaseExpiresAt := some 0 }

def otherRun : RunRow := queuedRun "other" "idle"

theorem waitingRuns_id {id : String} (h : id ∈ waitingRuns.map (·.id)) :
    ∀ c ∈ id.toList, c = 'w' := by
  rw [waitingRuns, List.map_map] at h
  obtain ⟨n, _, rfl⟩ := List.mem_map.mp h
  intro c hc
  have hmem : c ∈ List.replicate n 'w' := by simpa [queuedRun, waitingId] using hc
  exact List.eq_of_mem_replicate hmem

theorem waitingRuns_nodup : (waitingRuns.map (·.id)).Nodup := by
  rw [waitingRuns, List.map_map]
  exact List.Nodup.map waitingId_injective List.nodup_range

def busyTable : RunTable where
  rows := runningRun :: (waitingRuns ++ [otherRun])
  keys := by
    rw [List.map_cons, List.nodup_cons]
    refine ⟨fun h => ?_, Table.nodup_append_row waitingRuns_nodup fun h => ?_⟩
    · rw [List.map_append, List.mem_append] at h
      rcases h with h | h
      · exact absurd (waitingRuns_id h 'r' (by decide)) (by decide)
      · exact absurd h (by decide)
    · exact absurd (waitingRuns_id h 'o' (by decide)) (by decide)

theorem claimQueue_busyTable :
    (claimQueue .postgres 0 busyTable).take candidateLimit = waitingRuns := by
  have hfilter : busyTable.rows.filter (·.isClaimable .postgres 0) = waitingRuns ++ [otherRun] :=
    rfl
  have hsame : ∀ row ∈ waitingRuns ++ [otherRun], row.inputJson = .obj [] ∧ row.createdAt = 0 := by
    intro row hrow
    rcases List.mem_append.mp hrow with hrow | hrow
    · obtain ⟨n, _, rfl⟩ := List.mem_map.mp hrow
      exact ⟨rfl, rfl⟩
    · rw [List.mem_singleton.mp hrow]
      exact ⟨rfl, rfl⟩
  rw [claimQueue, hfilter, orderBy, List.Pairwise.insertionSort_eq]
  · exact List.take_left' rfl
  · apply List.pairwise_of_forall_mem_list
    intro x hx y hy
    rw [(hsame x hx).1, (hsame x hx).2, (hsame y hy).1, (hsame y hy).2]
    exact .inr ⟨rfl, le_rfl⟩

theorem busyTable_running : busyTable.running = 1 := by decide

theorem busyTable_tenantRunning :
    busyTable.tenantRunning "busy" = 1 ∧ busyTable.tenantRunning "idle" = 0 := by decide

/-- The other tenant's run is not claimed, and nothing is. -/
theorem busy_tenant_blocks :
    ¬ ∀ w', Finishes (queueHandler .postgres false) ⟨0, busyTable, []⟩
        (claimNextQueuedRunWithLimits .postgres "worker" 1000 10 1) w' (.ok none) →
      CapsReached 10 1 busyTable := by
  intro h
  obtain ⟨w', hfin⟩ : ∃ w', Finishes (queueHandler .postgres false) ⟨0, busyTable, []⟩
      (claimNextQueuedRunWithLimits .postgres "worker" 1000 10 1) w' (.ok none) := by
    refine claim_finishes_none le_rfl (le_refl (0 : Int)) ?_
    intro row hrow hroom
    rw [claimQueue_busyTable] at hrow
    obtain ⟨n, _, rfl⟩ := List.mem_map.mp hrow
    rw [HasRoom, show (queuedRun (waitingId n) "busy").tenantId = "busy" from rfl,
      busyTable_tenantRunning.1] at hroom
    exact absurd hroom (by decide)
  rcases h w' hfin with hge | hall
  · rw [busyTable_running] at hge
    exact absurd hge (by decide)
  · have hother := hall otherRun
      (List.mem_cons_of_mem _ (List.mem_append_right _ List.mem_cons_self)) rfl
    rw [show otherRun.tenantId = "idle" from rfl, busyTable_tenantRunning.2] at hother
    exact absurd hother (by decide)

/-- With one run of the busy tenant before it, the other tenant's run is reached. -/
theorem short_queue_claims :
    ¬ ∃ w', Finishes (queueHandler .postgres false)
      ⟨0, ⟨[runningRun, queuedRun "waiting" "busy", otherRun], by decide⟩, []⟩
      (claimNextQueuedRunWithLimits .postgres "worker" 1000 10 1) w' (.ok none) := by
  rintro ⟨w', hfin⟩
  have hcaps := (claim_none_iff (by decide) le_rfl).mpr ?_ w' hfin
  · rcases hcaps with hge | hall
    · exact absurd hge (by decide)
    · have hother := hall otherRun (by simp) rfl
      exact absurd hother (by decide)
  · intro now _ _ _
    refine ⟨otherRun, ?_, by unfold HasRoom; decide⟩
    rw [List.take_of_length_le]
    · exact mem_claimQueue.mpr ⟨by simp, rfl⟩
    · rw [claimQueue, orderBy, List.length_insertionSort]
      exact (List.length_filter_le _ _).trans (by decide)

end Runs
end SecureAgnt

/-
Admission over every interleaving.

`wp_executeLlmInfer` says that a call asks for admission with its lane's limit and not
again once it has its guard.  `AdmissionInv` holds along every run: each lease fits its
lane's slots, an unexpired lease is still its guard's, and each counter is the number of
its lane's guards.  `admission_safe` is what follows.
-/
import SecureAgnt.Llm.Admission
import SecureAgnt.Llm.Confinement
import SecureAgnt.Lib.Leasing
import SecureAgnt.Lib.Run

namespace SecureAgnt
namespace Llm

open Prog
open Handler (wp)

/-! ## Who asks for admission -/

section Requests

variable {s : Session} {o : LlmOp} {route : LlmRoute} {endpoint : LlmEndpointConfig}

theorem completionOp_ne (ho : o.isAdmission = true) : completionOp s route endpoint ≠ o := by
  rintro rfl
  unfold completionOp at ho
  split at ho
  · cases ho
  · cases ho

theorem completeLocally_unadmitted {cacheKey : String} {remoteHost : Option String}
    {fallback : Bool} (ho : o.isAdmission = true) :
    ¬ (completeLocally s route endpoint (buildMessages s.parsed.system s.plan.prompt) cacheKey
      remoteHost fallback).Issues o := by
  have hrequest : completionOp s route endpoint ≠ o := completionOp_ne ho
  unfold completeLocally
  simp only [issues_ite, issues_bind, issues_ask, yields_ask, true_and,
    requestChatCompletion_issues, hrequest, issues_pure, and_false, exists_false, or_false]
  rintro ⟨_, rfl | ⟨found, h⟩⟩
  · cases ho
  · cases found with
    | some hit => exact h
    | none =>
      simp only [issues_bind, requestChatCompletion_issues, hrequest, issues_ask, issues_pure,
        false_or, and_false, exists_false, or_false] at h
      obtain ⟨_, _, rfl⟩ := h
      cases ho

theorem completeDistributed_unadmitted {cacheKey : String} {remoteHost : Option String}
    (ho : o.isAdmission = true) :
    ¬ (completeDistributed s route endpoint (buildMessages s.parsed.system s.plan.prompt) cacheKey
      remoteHost).Issues o := by
  have hrequest : completionOp s route endpoint ≠ o := completionOp_ne ho
  unfold completeDistributed
  simp only [issues_bind, issues_ask, yields_ask, true_and]
  rintro (rfl | ⟨found, h⟩)
  · cases ho
  · rcases found with e | (- | - | hit)
    · simp only [issues_ite, issues_fail, and_false, false_or] at h
      exact completeLocally_unadmitted ho h.2
    · simp only [issues_bind, requestChatCompletion_issues, hrequest, issues_ask, issues_pure,
        false_or, and_false, exists_false, or_false, yields_ask, true_and] at h
      rcases h with ⟨_, _, rfl | ⟨_, rfl⟩⟩
      · cases ho
      · cases ho
    · exact h
    · exact h

theorem executeRouteCompletion_unadmitted (ho : o.isAdmission = true) :
    ¬ (executeRouteCompletion s route endpoint).Issues o := by
  unfold executeRouteCompletion
  simp only [issues_bind, issues_ofExcept, issues_ite, issues_fail, and_false,
    completeLocally_unadmitted ho, completeDistributed_unadmitted ho, exists_false, or_false,
    not_false_eq_true]

theorem evaluateVerifier_unadmitted {response : String} (ho : o.isAdmission = true) :
    ¬ (evaluateVerifier s response).Issues o := by
  rw [evaluateVerifier_issues]
  rintro ⟨endpoint, _, rfl⟩
  cases ho

theorem escalateRemote_unadmitted (ho : o.isAdmission = true) : ¬ (escalateRemote s).Issues o := by
  unfold escalateRemote
  simp only [issues_bind, issues_ofExcept, issues_attempt, issues_pure, and_false,
    executeRouteCompletion_unadmitted ho, exists_false, or_false, not_false_eq_true]

theorem sloStage_unadmitted {slo : LaneSloEvaluation} {c : ControlState}
    (ho : o.isAdmission = true) : ¬ (sloStage s slo c).Issues o := by
  unfold sloStage
  simp only [issues_ite, issues_bind, escalateRemote_unadmitted ho, false_or, issues_pure,
    and_false, or_false]
  rintro ⟨_, ⟨selection, answer⟩, _, h⟩
  cases answer with
  | ok answer => exact h
  | error err => exact h

theorem verifierStage_unadmitted {c : ControlState} (ho : o.isAdmission = true) :
    ¬ (verifierStage s c).Issues o := by
  unfold verifierStage
  simp only [issues_ite, issues_bind, escalateRemote_unadmitted ho, evaluateVerifier_unadmitted ho,
    false_or, issues_pure, and_false, or_false]
  rintro ⟨_, verifier, _, _, _, ⟨selection, answer⟩, _, h⟩
  cases answer with
  | ok answer => exact h
  | error err => exact h

/-- Nothing behind the admission asks for it. -/
theorem runLlmWithControls_unadmitted {status : String} (ho : o.isAdmission = true) :
    ¬ (runLlmWithControls s status).Issues o := by
  have helapsed : LlmOp.elapsed ≠ o := by
    rintro rfl
    cases ho
  unfold runLlmWithControls controlAnswer
  simp only [issues_bind, issues_ofExcept, false_or, executeRouteCompletion_unadmitted ho,
    issues_ask, helapsed, sloStage_unadmitted ho, verifierStage_unadmitted ho, issues_pure,
    and_false, exists_false, not_false_eq_true]

end Requests

/-! ## One guard a call -/

/-- The answer admits the call. -/
def admits : (op : LlmOp) → LlmAns op → Bool
  | .acquireLease .., .ok granted => granted
  | .reserveSlot .., reserved => reserved
  | _, _ => false

/-- Whether a call has its guard. -/
def guardHandler : Handler LlmOp LlmAns Bool where
  step := fun guarded op r guarded' => guarded' = (guarded || admits op r)

/-- Admission is asked for with the lane's limit. -/
def AsksLimit (config : LlmConfig) : LlmOp → Prop
  | .acquireLease _ lane maxInflight _ _ =>
    ∃ requestClass, lane = LlmRequestClass.asStr requestClass ∧
      maxInflight = maxInflightOf requestClass config
  | .reserveSlot requestClass maxInflight => maxInflight = maxInflightOf requestClass config
  | _ => True

def MayAsk (config : LlmConfig) (guarded : Bool) (op : LlmOp) : Prop :=
  (op.isAdmission = true → guarded = false) ∧ AsksLimit config op

/-- What is left of a call asks for admission as it should. -/
def Disciplined {α : Type} (config : LlmConfig) (guarded : Bool) (p : LlmProg α) : Prop :=
  wp guardHandler (.alone (MayAsk config)) p (fun _ _ => True) guarded

section Discipline

variable {config : LlmConfig} {parsed : LlmInferActionArgs} {guarded : Bool}

theorem asksLimit_of_other {op : LlmOp} (hop : op.isAdmission = false) : AsksLimit config op := by
  cases op <;> trivial

theorem disciplined_of_unadmitted {α : Type} {p : LlmProg α}
    (h : ∀ o, o.isAdmission = true → ¬ p.Issues o) : Disciplined config guarded p := by
  refine Handler.wp_mono (fun _ _ _ => trivial)
    (Handler.wp_of_issues (I := fun _ => True) (fun _ _ _ _ => trivial) ?_ trivial)
  intro o ho guarded _
  have hother : o.isAdmission = false := by
    rw [Bool.eq_false_iff]
    exact fun hadmission => h o hadmission ho
  refine ⟨⟨fun hadmission => ?_, asksLimit_of_other hother⟩, fun _ _ _ => ⟨trivial, trivial⟩⟩
  rw [hother] at hadmission
  cases hadmission

theorem disciplined_acquireLocalAdmission {status : String} :
    Disciplined config false (acquireLocalAdmission parsed config status) := by
  refine Handler.wp_perform_bind ?_
  rintro _ rfl
  refine ⟨⟨fun _ => rfl, rfl⟩, ?_⟩
  intro reserved guarded' _
  refine ⟨trivial, ?_⟩
  cases reserved with
  | true => exact fun _ _ => trivial
  | false => exact fun _ _ => trivial

theorem disciplined_acquireAdmission {cacheNamespace : Option String} {pool : Bool} :
    Disciplined config false (acquireAdmission parsed config cacheNamespace pool) := by
  refine Handler.wp_ite (fun _ _ _ => trivial) fun _ => ?_
  refine Handler.wp_ite (fun _ => ?_) fun _ => disciplined_acquireLocalAdmission
  refine Handler.wp_ite (fun _ => ?_) fun _ => ?_
  · refine Handler.wp_perform_bind ?_
    rintro _ rfl
    refine ⟨⟨fun _ => rfl, parsed.requestClass, rfl, rfl⟩, ?_⟩
    intro lease guarded' hstep
    refine ⟨trivial, ?_⟩
    rcases lease with e | granted
    · obtain rfl : guarded' = false := hstep
      -- the local slot is asked for where the database fails, with no guard yet
      exact Handler.wp_ite (fun _ _ _ => trivial) fun _ => disciplined_acquireLocalAdmission
    · cases granted with
      | true => exact fun _ _ => trivial
      | false => exact fun _ _ => trivial
  · exact Handler.wp_ite (fun _ _ _ => trivial) fun _ => disciplined_acquireLocalAdmission

/-- A call asks for admission with its lane's limit, and not again once it has a guard. -/
theorem disciplined_executeLlmInfer {rt : LlmRuntime} {args : Json}
    {cacheNamespace : Option String} {pool : Bool} :
    Disciplined config false (executeLlmInfer rt args config cacheNamespace pool) := by
  refine Handler.wp_seq (Q := fun guarded _ => guarded = false) ?_ ?_ fun _ _ _ => trivial
  · exact Handler.wp_ofExcept_alone rfl
  rintro _ parsed rfl
  refine Handler.wp_seq disciplined_acquireAdmission ?_ fun _ _ _ => trivial
  intro guarded status _
  refine disciplined_of_unadmitted fun o ho => ?_
  simp only [issues_bind, issues_ofExcept, runLlmWithControls_unadmitted ho, issues_pure,
    and_false, exists_false, or_self, not_false_eq_true]

end Discipline

/-! ## The lease table -/

section Rows

variable {t t' : LeaseTable} {lease : AdmissionLease} {now : Int}

theorem not_active_iff {slot : String × String × Int} :
    t.isActive now slot = false ↔ ∀ row ∈ t.rows, row.slot = slot → row.leaseExpiresAt ≤ now := by
  simp only [LeaseTable.isActive, List.any_eq_false, Bool.and_eq_true, decide_eq_true_eq, not_and,
    Int.not_lt]

theorem perm_overwrite {rows : List AdmissionLease} (hkeys : (rows.map (·.slot)).Nodup)
    (hmem : lease.slot ∈ rows.map (·.slot)) :
    (rows.map (LeaseTable.overwrite lease)).Perm
      (lease :: rows.filter fun row => row.slot ≠ lease.slot) := by
  have hothers : ∀ rest : List AdmissionLease, lease.slot ∉ rest.map (·.slot) →
      rest.map (LeaseTable.overwrite lease) = rest ∧
        rest.filter (fun row => row.slot ≠ lease.slot) = rest := by
    intro rest hnot
    have hne : ∀ row ∈ rest, row.slot ≠ lease.slot := fun row hrow hsame =>
      hnot (List.mem_map.mpr ⟨row, hrow, hsame⟩)
    refine ⟨?_, List.filter_eq_self.mpr fun row hrow => decide_eq_true (hne row hrow)⟩
    have hsame : ∀ row ∈ rest, LeaseTable.overwrite lease row = row := fun row hrow =>
      if_neg (hne row hrow)
    rw [List.map_congr_left hsame, List.map_id']
  induction rows with
  | nil => cases hmem
  | cons row rest ih =>
    rw [List.map_cons, List.nodup_cons] at hkeys
    by_cases hrow : row.slot = lease.slot
    · obtain ⟨hmap, hfilter⟩ := hothers rest (hrow ▸ hkeys.1)
      have hhead : LeaseTable.overwrite lease row = lease := if_pos hrow
      rw [List.map_cons, hhead, hmap, List.filter_cons_of_neg (by simpa using hrow), hfilter]
    · have hrest : lease.slot ∈ rest.map (·.slot) := by
        rcases List.mem_cons.mp hmem with hmem | hmem
        · exact absurd hmem.symm hrow
        · exact hmem
      have hhead : LeaseTable.overwrite lease row = row := if_neg hrow
      rw [List.map_cons, hhead, List.filter_cons_of_pos (by simpa using hrow)]
      exact ((ih hkeys.2 hrest).cons row).trans (List.Perm.swap ..)

theorem perm_put :
    (t.put lease).rows.Perm (lease :: t.rows.filter fun row => row.slot ≠ lease.slot) := by
  unfold LeaseTable.put
  split
  · rename_i hmem
    exact perm_overwrite t.keys hmem
  · rename_i hnew
    have hall : t.rows.filter (fun row => row.slot ≠ lease.slot) = t.rows := by
      refine List.filter_eq_self.mpr fun row hrow => decide_eq_true ?_
      exact fun hsame => hnew (List.mem_map.mpr ⟨row, hrow, hsame⟩)
    rw [hall]
    exact List.perm_append_singleton lease t.rows

/-- A lease is placed only where the one before it has expired. -/
theorem upsert_eq_some (h : t.upsert now lease = some t') :
    (∀ row ∈ t.rows, row.slot = lease.slot → row.leaseExpiresAt ≤ now) ∧
      t'.rows.Perm (lease :: t.rows.filter fun row => row.slot ≠ lease.slot) := by
  unfold LeaseTable.upsert at h
  split at h
  · cases h
  · rename_i hfree
    cases h
    exact ⟨not_active_iff.mp (Bool.eq_false_iff.mpr hfree), perm_put⟩

theorem mem_generateSeries {n i : Int} : i ∈ generateSeries n ↔ 1 ≤ i ∧ i ≤ n := by
  simp only [generateSeries, List.mem_map, List.mem_range]
  constructor
  · rintro ⟨j, hj, rfl⟩
    omega
  · rintro ⟨hlow, hhigh⟩
    exact ⟨(i - 1).toNat, by omega, by omega⟩

theorem candidate_mem {cacheNamespace lane : String} {maxInflight slot : Int}
    (h : t.candidate cacheNamespace lane maxInflight now = some slot) :
    1 ≤ slot ∧ slot ≤ maxInflight :=
  mem_generateSeries.mp (List.mem_of_find?_eq_some h)

end Rows

/-! ## The invariant -/

def leaseView : Leasing.LeaseView AdmissionLease (String × String × Int) Uuid where
  key := AdmissionLease.slot
  id := AdmissionLease.leaseId
  expires := AdmissionLease.leaseExpiresAt

/-- The lease a call's guard is to release. -/
def GatewayCall.lease? (c : GatewayCall) : Option AdmissionLease :=
  match c.guard with
  | some (.lease lease) => some lease
  | _ => none

/-- The lease id of the call's statement in progress. -/
def GatewayCall.pending? (c : GatewayCall) : Option Uuid :=
  match c.point with
  | .selected _ leaseId _ => some leaseId
  | _ => none

/-- What each call has of something, together. -/
def gather {β : Type} (f : GatewayCall → Option β) (calls : List GatewayCall) : Multiset β :=
  (calls.filterMap f : List β)

def AdmissionStore.abandonedIds (s : AdmissionStore) : Multiset Uuid :=
  (s.abandoned.map fun statement => statement.2.leaseId : List Uuid)

def AdmissionWorld.leaseState (w : AdmissionWorld) : Leasing.LeaseState AdmissionLease Uuid where
  rows := w.store.leases.rows
  clock := w.store.clock
  guards := gather GatewayCall.lease? w.calls
  releases := w.releases
  pending := gather GatewayCall.pending? w.calls + w.store.abandonedIds
  issued := w.store.issued

/-- The lease is in a slot of its lane, as some process counts them. -/
def InLane (config : Nat → LlmConfig) (lease : AdmissionLease) : Prop :=
  1 ≤ lease.slotIndex ∧ ∃ process requestClass,
    lease.lane = LlmRequestClass.asStr requestClass ∧
      lease.slotIndex ≤ maxInflightOf requestClass (config process)

/-- What a call has read holds: its transaction has started, its slot is one of its
lane's, and there was room. -/
def GatewayCall.PointOk (c : GatewayCall) (clock : Int) : Prop :=
  match c.point with
  | .outside => True
  | .selected now _ slot => now ≤ clock ∧ ∃ params k, c.Acquires params k ∧
      ∀ i ∈ slot, 1 ≤ i ∧ i ≤ asI32 params.maxInflight
  | .loaded current => ∃ requestClass maxInflight k, c.Reserves requestClass maxInflight k ∧
      current < maxInflight

structure CallOk (config : Nat → LlmConfig) (clock : Int) (c : GatewayCall) : Prop where
  disciplined : Disciplined (config c.process) c.guard.isSome c.rest
  point : c.PointOk clock

/-- The call holds a slot of the lane in the process. -/
def GatewayCall.holdsSlot (process : Nat) (requestClass : LlmRequestClass) (c : GatewayCall) :
    Bool :=
  c.process = process ∧ c.guard = some (.slot requestClass)

/-- The number of live guards of the lane in the process. -/
def AdmissionWorld.liveGuards (w : AdmissionWorld) (process : Nat)
    (requestClass : LlmRequestClass) : Nat :=
  w.calls.countP (·.holdsSlot process requestClass)

structure AdmissionInv (config : Nat → LlmConfig) (w : AdmissionWorld) : Prop where
  calls : ∀ c ∈ w.calls, CallOk config w.store.clock c
  abandoned : ∀ statement ∈ w.store.abandoned,
    statement.1 ≤ w.store.clock ∧ InLane config statement.2
  rows : ∀ row ∈ w.store.leases.rows, InLane config row
  leases : Leasing.LeaseInv leaseView w.leaseState
  counters : ∀ process requestClass,
    w.store.counters process requestClass = w.liveGuards process requestClass
  limits : ∀ process requestClass,
    w.store.counters process requestClass ≤ maxInflightOf requestClass (config process)

/-! ## One call -/

section Call

variable {config : Nat → LlmConfig} {s s' : AdmissionStore} {c c' : GatewayCall}

theorem LeaseAcquireParams.op_injective {params params' : LeaseAcquireParams}
    (h : params.op = params'.op) : params = params' := by
  cases params
  cases params'
  cases h
  rfl

theorem acquires_inj {params params' : LeaseAcquireParams} {k k' : AfterAcquire}
    (h : c.Acquires params k) (h' : c.Acquires params' k') : params = params' := by
  have hcall := Eq.trans (Eq.symm h) h'
  injection hcall with hop _
  exact LeaseAcquireParams.op_injective hop

theorem reserves_inj {requestClass requestClass' : LlmRequestClass} {limit limit' : Nat}
    {k k' : AfterReserve} (h : c.Reserves requestClass limit k)
    (h' : c.Reserves requestClass' limit' k') : requestClass = requestClass' ∧ limit = limit' := by
  have hcall := Eq.trans (Eq.symm h) h'
  injection hcall with hop _
  injection hop with hclass hlimit
  exact ⟨hclass, hlimit⟩

/-- The next call of a disciplined program, and what is left after it. -/
theorem disciplined_call {config : LlmConfig} {guarded : Bool} {op : LlmOp}
    {k : LlmAns op → LlmProg LlmInferResult} (h : Disciplined config guarded (.call op k)) :
    MayAsk config guarded op ∧ ∀ r, Disciplined config (guarded || admits op r) (k r) := by
  obtain ⟨hmay, hnext⟩ := h guarded rfl
  exact ⟨hmay, fun r => (hnext r _ rfl).2⟩

theorem admits_other {op : LlmOp} (hop : op.isAdmission = false) (r : LlmAns op) :
    admits op r = false := by
  cases op <;> trivial

/-- A call that asks for admission has no guard. -/
theorem CallOk.guard_of_asks {clock : Int} {op : LlmOp} {k : LlmAns op → LlmProg LlmInferResult}
    (h : CallOk config clock c) (hrest : c.rest = .call op k) (hop : op.isAdmission = true) :
    c.guard = none := by
  have hdisciplined := h.disciplined
  rw [hrest] at hdisciplined
  have hguard := (disciplined_call hdisciplined).1.1 hop
  rwa [Option.isSome_eq_false_iff, Option.isNone_iff_eq_none] at hguard

/-- What a call asks for is what its lane allows. -/
theorem CallOk.asksLimit {clock : Int} {op : LlmOp} {k : LlmAns op → LlmProg LlmInferResult}
    (h : CallOk config clock c) (hrest : c.rest = .call op k) :
    AsksLimit (config c.process) op := by
  have hdisciplined := h.disciplined
  rw [hrest] at hdisciplined
  exact (disciplined_call hdisciplined).1.2

theorem CallOk.advance {clock : Int} {op : LlmOp} {k : LlmAns op → LlmProg LlmInferResult}
    (h : CallOk config clock c) (hrest : c.rest = .call op k) (r : LlmAns op) :
    Disciplined (config c.process) (c.guard.isSome || admits op r) (k r) := by
  have hdisciplined := h.disciplined
  rw [hrest] at hdisciplined
  exact (disciplined_call hdisciplined).2 r

/-- A lease in the making is in its lane. -/
theorem CallOk.inLane {clock now slot : Int} {leaseId : Uuid} {params : LeaseAcquireParams}
    {k : AfterAcquire} (h : CallOk config clock c) (hcall : c.Acquires params k)
    (hpoint : c.point = .selected now leaseId (some slot)) :
    now ≤ clock ∧ InLane config (params.lease now leaseId slot) := by
  have hok := h.point
  unfold GatewayCall.PointOk at hok
  rw [hpoint] at hok
  obtain ⟨hnow, params', k', hcall', hslot⟩ := hok
  obtain rfl := acquires_inj hcall hcall'
  obtain ⟨hlow, hhigh⟩ := hslot slot rfl
  obtain ⟨requestClass, hlane, hlimit⟩ := h.asksLimit hcall
  refine ⟨hnow, hlow, c.process, requestClass, hlane, ?_⟩
  have hcast := asI32_le params.maxInflight
  show slot ≤ maxInflightOf requestClass (config c.process)
  rw [← hlimit]
  omega

theorem CallOk.later {clock clock' : Int} (h : CallOk config clock c) (hclock : clock ≤ clock') :
    CallOk config clock' c := by
  refine ⟨h.disciplined, ?_⟩
  have hpoint := h.point
  unfold GatewayCall.PointOk at hpoint ⊢
  split
  · trivial
  · rename_i now leaseId slot hselected
    rw [hselected] at hpoint
    exact ⟨Int.le_trans hpoint.1 hclock, hpoint.2⟩
  · rename_i current hloaded
    rw [hloaded] at hpoint
    exact hpoint

theorem clock_of_callStep (h : CallStep s c s' c') : s'.clock = s.clock := by
  cases h <;> rfl

theorem pointOk_of_outside {clock : Int} (h : c.point = .outside) : c.PointOk clock := by
  unfold GatewayCall.PointOk
  rw [h]
  trivial

/-- A call stays as it should be. -/
theorem callOk_of_callStep (hok : CallOk config s.clock c) (h : CallStep s c s' c') :
    CallOk config s'.clock c' := by
  have hrefused : ∀ {op : LlmOp} {k : LlmAns op → LlmProg LlmInferResult} (r : LlmAns op),
      c.rest = .call op k → admits op r = false →
        Disciplined (config c.process) c.guard.isSome (k r) := by
    intro op k r hrest hr
    have hnext := hok.advance hrest r
    rwa [hr, Bool.or_false] at hnext
  have hadmitted : ∀ {op : LlmOp} {k : LlmAns op → LlmProg LlmInferResult} (r : LlmAns op),
      c.rest = .call op k → admits op r = true → Disciplined (config c.process) true (k r) := by
    intro op k r hrest hr
    have hnext := hok.advance hrest r
    rwa [hr, Bool.or_true] at hnext
  cases h with
  | other hrest hpoint hop r =>
    exact ⟨hrefused r hrest (admits_other hop r), pointOk_of_outside hpoint⟩
  | refuse hcall hpoint hmax => exact ⟨hrefused _ hcall rfl, pointOk_of_outside hpoint⟩
  | select now leaseId hcall hpoint hmax hnow hfresh =>
    exact ⟨hok.disciplined, hnow, _, _, hcall, fun i hi => candidate_mem hi⟩
  | noCandidate hcall hpoint => exact ⟨hrefused _ hcall rfl, trivial⟩
  | conflict hcall hpoint hactive => exact ⟨hrefused _ hcall rfl, trivial⟩
  | acquire hcall hpoint hupsert => exact ⟨hadmitted _ hcall rfl, trivial⟩
  | fail message hcall => exact ⟨hrefused _ hcall rfl, trivial⟩
  | abandon message hcall hpoint => exact ⟨hrefused _ hcall rfl, trivial⟩
  | saturated hcall hpoint hfull => exact ⟨hrefused _ hcall rfl, pointOk_of_outside hpoint⟩
  | load hcall hpoint hroom => exact ⟨hok.disciplined, _, _, _, hcall, hroom⟩
  | exchange hcall hpoint hsame => exact ⟨hadmitted _ hcall rfl, trivial⟩
  | retry hcall hpoint hmoved => exact ⟨hok.disciplined, trivial⟩

end Call

/-! ## The leases -/

section Simulation

variable {config : Nat → LlmConfig} {w w' : AdmissionWorld} {c c' : GatewayCall}
  {before after : List GatewayCall}

theorem coe_middle {β : Type} (x : β) (xs ys : List β) :
    ((xs ++ x :: ys : List β) : Multiset β) = x ::ₘ ((xs ++ ys : List β) : Multiset β) :=
  Multiset.coe_eq_coe.mpr List.perm_middle

/-- One call among the others. -/
theorem gather_middle {β : Type} (f : GatewayCall → Option β) :
    gather f (before ++ c :: after) = ((f c).toList : Multiset β) + gather f (before ++ after) := by
  unfold gather
  rw [Multiset.coe_add, Multiset.coe_eq_coe, List.filterMap_append, List.filterMap_append,
    List.filterMap_cons]
  cases f c with
  | none => exact .refl _
  | some y => exact List.perm_middle

theorem gather_none {β : Type} {f : GatewayCall → Option β} (h : f c = none) :
    gather f (before ++ c :: after) = gather f (before ++ after) := by
  rw [gather_middle, h]
  exact Multiset.zero_add _

theorem gather_some {β : Type} {f : GatewayCall → Option β} {y : β} (h : f c = some y) :
    gather f (before ++ c :: after) = y ::ₘ gather f (before ++ after) := by
  rw [gather_middle, h]
  exact Multiset.singleton_add _ _

theorem gather_congr {β : Type} {f : GatewayCall → Option β} (h : f c' = f c) :
    gather f (before ++ c' :: after) = gather f (before ++ c :: after) := by
  rw [gather_middle, gather_middle, h]

theorem gather_append_none {β : Type} {f : GatewayCall → Option β} {calls : List GatewayCall}
    (h : f c = none) : gather f (calls ++ [c]) = gather f calls := by
  rw [gather_none h, List.append_nil]

/-- A call that keeps its lease and gets none moves no lease. -/
theorem weaken_of_call {store : AdmissionStore} (hcalls : w.calls = before ++ c :: after)
    (hleases : store.leases = w.store.leases) (hclock : store.clock = w.store.clock)
    (hissued : store.issued = w.store.issued) (habandoned : store.abandoned = w.store.abandoned)
    (hlease : c'.lease? = c.lease?) (hpending : c'.pending? = c.pending? ∨ c'.pending? = none) :
    Leasing.LeaseStep leaseView w.leaseState
      (AdmissionWorld.leaseState { w with store := store, calls := before ++ c' :: after }) := by
  have hguards : gather GatewayCall.lease? (before ++ c' :: after) =
      gather GatewayCall.lease? w.calls := by
    rw [hcalls, gather_congr hlease]
  have hids : gather GatewayCall.pending? (before ++ c' :: after) ≤
      gather GatewayCall.pending? w.calls := by
    rw [hcalls]
    rcases hpending with hpending | hpending
    · rw [gather_congr hpending]
    · rw [gather_none hpending, gather_middle]
      exact Multiset.le_add_left _ _
  refine .weaken ?_ (le_of_eq hclock.symm) (le_of_eq hguards) (le_of_eq ?_)
    (add_le_add hids (le_of_eq ?_)) hissued
  · show store.leases.rows = w.store.leases.rows
    rw [hleases]
  · exact congrArg (· + (w.releases : Multiset AdmissionLease)) hguards
  · show store.abandonedIds = w.store.abandonedIds
    rw [AdmissionStore.abandonedIds, habandoned, AdmissionStore.abandonedIds]

theorem draw_of_call {leaseId : Uuid} (hcalls : w.calls = before ++ c :: after)
    (hfresh : leaseId ∉ w.store.issued) (hlease : c'.lease? = c.lease?)
    (hnone : c.pending? = none) (hpending : c'.pending? = some leaseId) :
    Leasing.LeaseStep leaseView w.leaseState
      (AdmissionWorld.leaseState
        { w with
          store := { w.store with issued := leaseId :: w.store.issued }
          calls := before ++ c' :: after }) := by
  refine .draw leaseId hfresh rfl rfl ?_ rfl ?_ rfl
  · show gather _ (before ++ c' :: after) = gather _ w.calls
    rw [hcalls, gather_congr hlease]
  · show gather _ (before ++ c' :: after) + w.store.abandonedIds =
      leaseId ::ₘ (gather _ w.calls + w.store.abandonedIds)
    rw [hcalls, gather_some hpending, gather_none hnone, Multiset.cons_add]

/-- The call's lease is placed and it gets the guard. -/
theorem place_of_call {lease : AdmissionLease} {leases : LeaseTable} {now : Int}
    (hcalls : w.calls = before ++ c :: after) (hnow : now ≤ w.store.clock)
    (hupsert : w.store.leases.upsert now lease = some leases) (hnone : c.lease? = none)
    (hlease : c'.lease? = some lease) (hpending : c.pending? = some lease.leaseId)
    (hplaced : c'.pending? = none) :
    Leasing.LeaseStep leaseView w.leaseState
      (AdmissionWorld.leaseState
        { w with
          store := { w.store with leases := leases }
          calls := before ++ c' :: after }) := by
  obtain ⟨hfree, hrows⟩ := upsert_eq_some hupsert
  refine .place lease ?_ hrows rfl (.inr ?_) rfl ?_ rfl
  · intro row hrow hslot
    exact Int.le_trans (hfree row hrow hslot) hnow
  · show gather _ (before ++ c' :: after) = lease ::ₘ gather _ w.calls
    rw [hcalls, gather_some hlease, gather_none hnone]
  · show gather _ w.calls + w.store.abandonedIds =
      lease.leaseId ::ₘ (gather _ (before ++ c' :: after) + w.store.abandonedIds)
    rw [hcalls, gather_some hpending, gather_none hplaced, Multiset.cons_add]

theorem abandon_of_call {lease : AdmissionLease} {now : Int}
    (hcalls : w.calls = before ++ c :: after) (hlease : c'.lease? = c.lease?)
    (hpending : c.pending? = some lease.leaseId) (hnone : c'.pending? = none) :
    Leasing.LeaseStep leaseView w.leaseState
      (AdmissionWorld.leaseState
        { w with
          store := { w.store with abandoned := (now, lease) :: w.store.abandoned }
          calls := before ++ c' :: after }) := by
  have hguards : gather GatewayCall.lease? (before ++ c' :: after) =
      gather GatewayCall.lease? w.calls := by
    rw [hcalls, gather_congr hlease]
  refine .weaken rfl (le_refl _) (le_of_eq hguards) (le_of_eq ?_) (le_of_eq ?_) rfl
  · exact congrArg (· + (w.releases : Multiset AdmissionLease)) hguards
  · show gather _ (before ++ c' :: after) + lease.leaseId ::ₘ w.store.abandonedIds =
      gather _ w.calls + w.store.abandonedIds
    rw [hcalls, gather_some hpending, gather_none hnone, Multiset.cons_add, Multiset.add_cons]

theorem leaseStep_of_call {store : AdmissionStore} (hok : CallOk config w.store.clock c)
    (hcalls : w.calls = before ++ c :: after) (h : CallStep w.store c store c') :
    Leasing.LeaseStep leaseView w.leaseState
      (AdmissionWorld.leaseState { w with store := store, calls := before ++ c' :: after }) := by
  have hpending : ∀ {now leaseId slot}, c.point = .selected now leaseId slot →
      c.pending? = some leaseId := by
    intro now leaseId slot hpoint
    rw [GatewayCall.pending?, hpoint]
  cases h with
  | other hrest hpoint hop r => exact weaken_of_call hcalls rfl rfl rfl rfl rfl (.inl rfl)
  | refuse hcall hpoint hmax => exact weaken_of_call hcalls rfl rfl rfl rfl rfl (.inl rfl)
  | select now leaseId hcall hpoint hmax hnow hfresh =>
    refine draw_of_call hcalls hfresh rfl ?_ rfl
    rw [GatewayCall.pending?, hpoint]
  | noCandidate hcall hpoint => exact weaken_of_call hcalls rfl rfl rfl rfl rfl (.inr rfl)
  | conflict hcall hpoint hactive => exact weaken_of_call hcalls rfl rfl rfl rfl rfl (.inr rfl)
  | acquire hcall hpoint hupsert =>
    refine place_of_call hcalls (hok.inLane hcall hpoint).1 hupsert ?_ rfl (hpending hpoint) rfl
    rw [GatewayCall.lease?, hok.guard_of_asks hcall rfl]
  | fail message hcall => exact weaken_of_call hcalls rfl rfl rfl rfl rfl (.inr rfl)
  | abandon message hcall hpoint => exact abandon_of_call hcalls rfl (hpending hpoint) rfl
  | saturated hcall hpoint hfull => exact weaken_of_call hcalls rfl rfl rfl rfl rfl (.inl rfl)
  | load hcall hpoint hroom => exact weaken_of_call hcalls rfl rfl rfl rfl rfl (.inr rfl)
  | exchange hcall hpoint hsame =>
    refine weaken_of_call hcalls rfl rfl rfl rfl ?_ (.inr rfl)
    rw [GatewayCall.lease?, GatewayCall.lease?, hok.guard_of_asks hcall rfl]
  | retry hcall hpoint hmoved => exact weaken_of_call hcalls rfl rfl rfl rfl rfl (.inr rfl)

/-- Without a call, its lease is dropped or left to be released. -/
theorem weaken_of_leave {store : AdmissionStore} {releases : List AdmissionLease}
    (hcalls : w.calls = before ++ c :: after)
    (hdrop : GuardDrop w c.process c.guard store releases) :
    Leasing.LeaseStep leaseView w.leaseState
      (AdmissionWorld.leaseState ⟨store, before ++ after, releases⟩) := by
  have hguards : gather GatewayCall.lease? (before ++ after) ≤
      gather GatewayCall.lease? w.calls := by
    rw [hcalls, gather_middle]
    exact Multiset.le_add_left _ _
  have hids : gather GatewayCall.pending? (before ++ after) + w.store.abandonedIds ≤
      gather GatewayCall.pending? w.calls + w.store.abandonedIds := by
    rw [hcalls, gather_middle]
    exact add_le_add (Multiset.le_add_left _ _) (le_refl _)
  have hheld : ∀ releases', (releases' : Multiset AdmissionLease) = w.releases →
      gather GatewayCall.lease? (before ++ after) + releases' ≤ w.leaseState.held := by
    rintro releases' rfl
    exact add_le_add hguards (le_refl _)
  generalize hguard : c.guard = guard at hdrop
  cases hdrop with
  | none => exact .weaken rfl (le_refl _) hguards (hheld _ rfl) hids rfl
  | slot requestClass => exact .weaken rfl (le_refl _) hguards (hheld _ rfl) hids rfl
  | expire lease => exact .weaken rfl (le_refl _) hguards (hheld _ rfl) hids rfl
  | spawn lease =>
    refine .weaken rfl (le_refl _) hguards (le_of_eq ?_) hids rfl
    have hlease : c.lease? = some lease := by rw [GatewayCall.lease?, hguard]
    show gather _ (before ++ after) + lease ::ₘ (w.releases : Multiset AdmissionLease) =
      gather _ w.calls + (w.releases : Multiset AdmissionLease)
    rw [hcalls, gather_some hlease, Multiset.cons_add, Multiset.add_cons]

theorem leaseStep_of_step (hinv : AdmissionInv config w) (h : AdmissionStep config w w') :
    Leasing.LeaseStep leaseView w.leaseState w'.leaseState := by
  cases h with
  | tick now hnow => exact .weaken rfl hnow (le_refl _) (le_refl _) (le_refl _) rfl
  | enter process rt args cacheNamespace pool =>
    have hguards : gather GatewayCall.lease? (w.calls ++ [⟨process, executeLlmInfer rt args
        (config process) cacheNamespace pool, .outside, none⟩]) =
          gather GatewayCall.lease? w.calls :=
      gather_append_none rfl
    refine .weaken rfl (le_refl _) (le_of_eq hguards) (le_of_eq ?_) (le_of_eq ?_) rfl
    · exact congrArg (· + (w.releases : Multiset AdmissionLease)) hguards
    · exact congrArg (· + w.store.abandonedIds) (gather_append_none rfl)
  | call hcalls hstep =>
    exact leaseStep_of_call (hinv.calls _ (hcalls ▸ List.mem_append_right _ List.mem_cons_self))
      hcalls hstep
  | @late before after now lease leases habandoned hupsert =>
    obtain ⟨hfree, hrows⟩ := upsert_eq_some hupsert
    have hmem : (now, lease) ∈ w.store.abandoned :=
      habandoned ▸ List.mem_append_right _ List.mem_cons_self
    refine .place lease ?_ hrows rfl (.inl rfl) rfl ?_ rfl
    · intro row hrow hslot
      exact Int.le_trans (hfree row hrow hslot) (hinv.abandoned _ hmem).1
    · show gather _ w.calls + w.store.abandonedIds = lease.leaseId ::ₘ (gather _ w.calls +
        (((before ++ after).map fun statement => statement.2.leaseId : List Uuid) : Multiset Uuid))
      rw [AdmissionStore.abandonedIds, habandoned, List.map_append, List.map_cons, coe_middle,
        Multiset.add_cons, ← List.map_append]
  | leave hcalls hpoint hdrop => exact weaken_of_leave hcalls hdrop
  | @release before after lease hreleases =>
    refine .release lease rfl rfl rfl ?_ rfl rfl
    show (w.releases : Multiset AdmissionLease) =
      lease ::ₘ ((before ++ after : List _) : Multiset _)
    rw [hreleases, coe_middle]
  | @loseRelease before after lease hreleases =>
    refine .weaken rfl (le_refl _) (le_refl _) (add_le_add (le_refl _) ?_) (le_refl _) rfl
    show ((before ++ after : List AdmissionLease) : Multiset AdmissionLease) ≤ w.releases
    rw [hreleases, coe_middle]
    exact Multiset.le_cons_self _ _

end Simulation

/-! ## The counters -/

section Counters

variable {config : Nat → LlmConfig} {w w' : AdmissionWorld} {c c' : GatewayCall}
  {before after : List GatewayCall} {process : Nat} {requestClass : LlmRequestClass}

theorem counters_setCounter {s : AdmissionStore} {process' : Nat}
    {requestClass' : LlmRequestClass} {n : Nat} :
    (s.setCounter process requestClass n).counters process' requestClass' =
      if process' = process ∧ requestClass' = requestClass then n
      else s.counters process' requestClass' := by
  unfold AdmissionStore.setCounter
  by_cases hprocess : process' = process
  · subst hprocess
    by_cases hclass : requestClass' = requestClass
    · subst hclass
      simp
    · simp [hclass]
  · simp [hprocess]

/-- One call among the others. -/
theorem countP_middle (f : GatewayCall → Bool) :
    (before ++ c :: after).countP f = (if f c then 1 else 0) + (before ++ after).countP f := by
  rw [List.countP_append, List.countP_append, List.countP_cons]
  omega

theorem holdsSlot_eq (hguard : c.guard = some (.slot requestClass)) (process' : Nat)
    (requestClass' : LlmRequestClass) : c.holdsSlot process' requestClass' =
      decide (process' = c.process ∧ requestClass' = requestClass) := by
  unfold GatewayCall.holdsSlot
  rw [hguard]
  refine decide_eq_decide.mpr (and_congr eq_comm ?_)
  constructor
  · intro h
    injection h with h
    injection h with h
    exact h.symm
  · rintro rfl
    rfl

theorem not_holdsSlot (hguard : ∀ requestClass, c.guard ≠ some (.slot requestClass))
    (process : Nat) (requestClass : LlmRequestClass) : c.holdsSlot process requestClass = false :=
  decide_eq_false fun h => hguard requestClass h.2

/-- A call moves its lane's counter with its guard, within the limit. -/
theorem counters_of_call {store : AdmissionStore} (hinv : AdmissionInv config w)
    (hcalls : w.calls = before ++ c :: after) (h : CallStep w.store c store c') :
    store.counters process requestClass =
        (before ++ c' :: after).countP (·.holdsSlot process requestClass) ∧
      store.counters process requestClass ≤ maxInflightOf requestClass (config process) := by
  have hsame : ∀ {c'' : GatewayCall}, c''.process = c.process → c''.guard = c.guard →
      w.store.counters process requestClass =
        (before ++ c'' :: after).countP (·.holdsSlot process requestClass) ∧
      w.store.counters process requestClass ≤ maxInflightOf requestClass (config process) := by
    intro c'' hprocess hguard
    have hholds : c''.holdsSlot process requestClass = c.holdsSlot process requestClass := by
      unfold GatewayCall.holdsSlot
      rw [hprocess, hguard]
    refine ⟨?_, hinv.limits process requestClass⟩
    rw [hinv.counters, AdmissionWorld.liveGuards, hcalls, countP_middle, countP_middle, hholds]
  have hok := hinv.calls c (hcalls ▸ List.mem_append_right _ List.mem_cons_self)
  cases h with
  | other hrest hpoint hop r => exact hsame rfl rfl
  | refuse hcall hpoint hmax => exact hsame rfl rfl
  | select now leaseId hcall hpoint hmax hnow hfresh => exact hsame rfl rfl
  | noCandidate hcall hpoint => exact hsame rfl rfl
  | conflict hcall hpoint hactive => exact hsame rfl rfl
  | acquire hcall hpoint hupsert =>
    refine ⟨?_, hinv.limits process requestClass⟩
    have hguard := hok.guard_of_asks hcall rfl
    rw [hinv.counters, AdmissionWorld.liveGuards, hcalls, countP_middle, countP_middle,
      not_holdsSlot (by simp [hguard]), not_holdsSlot (by simp)]
  | fail message hcall => exact hsame rfl rfl
  | abandon message hcall hpoint => exact hsame rfl rfl
  | saturated hcall hpoint hfull => exact hsame rfl rfl
  | load hcall hpoint hroom => exact hsame rfl rfl
  | @exchange reserved maxInflight current k hcall hpoint hcurrent =>
    have hguard := hok.guard_of_asks hcall rfl
    have hcount : w.store.counters process requestClass =
        (before ++ after).countP (·.holdsSlot process requestClass) := by
      rw [hinv.counters, AdmissionWorld.liveGuards, hcalls, countP_middle,
        not_holdsSlot (by simp [hguard])]
      exact Nat.zero_add _
    rw [counters_setCounter, countP_middle, holdsSlot_eq rfl]
    by_cases hlane : process = c.process ∧ requestClass = reserved
    · obtain ⟨rfl, rfl⟩ := hlane
      have hpoint' := hok.point
      unfold GatewayCall.PointOk at hpoint'
      rw [hpoint] at hpoint'
      obtain ⟨reserved', maxInflight', k', hcall', hroom⟩ := hpoint'
      obtain ⟨rfl, rfl⟩ := reserves_inj hcall hcall'
      have hlimit : maxInflight = maxInflightOf requestClass (config c.process) :=
        hok.asksLimit hcall
      simp only [true_and, if_true, decide_true]
      omega
    · rw [if_neg hlane, if_neg (by simpa using hlane), hcount]
      exact ⟨(Nat.zero_add _).symm, hcount ▸ hinv.limits process requestClass⟩
  | retry hcall hpoint hmoved => exact hsame rfl rfl

/-- A dropped guard gives its slot back. -/
theorem counters_of_leave {store : AdmissionStore} {releases : List AdmissionLease}
    (hinv : AdmissionInv config w) (hcalls : w.calls = before ++ c :: after)
    (hdrop : GuardDrop w c.process c.guard store releases) :
    store.counters process requestClass =
        (before ++ after).countP (·.holdsSlot process requestClass) ∧
      store.counters process requestClass ≤ maxInflightOf requestClass (config process) := by
  have hcount : w.store.counters process requestClass =
      (if c.holdsSlot process requestClass then 1 else 0) +
        (before ++ after).countP (·.holdsSlot process requestClass) := by
    rw [hinv.counters, AdmissionWorld.liveGuards, hcalls, countP_middle]
  have hlimit := hinv.limits process requestClass
  generalize hguard : c.guard = guard at hdrop
  have hkept : (∀ requestClass, c.guard ≠ some (.slot requestClass)) →
      w.store.counters process requestClass =
        (before ++ after).countP (·.holdsSlot process requestClass) := by
    intro hnone
    rw [hcount, not_holdsSlot hnone]
    exact Nat.zero_add _
  cases hdrop with
  | none => exact ⟨hkept (by simp [hguard]), hlimit⟩
  | spawn lease => exact ⟨hkept (by simp [hguard]), hlimit⟩
  | expire lease => exact ⟨hkept (by simp [hguard]), hlimit⟩
  | slot reserved =>
    rw [holdsSlot_eq hguard] at hcount
    rw [counters_setCounter]
    by_cases hlane : process = c.process ∧ requestClass = reserved
    · obtain ⟨rfl, rfl⟩ := hlane
      simp only [true_and, if_true, decide_true] at hcount ⊢
      -- the guard is one of those counted
      unfold fetchSub
      rw [if_neg (by omega)]
      omega
    · rw [if_neg (by simpa using hlane), Nat.zero_add] at hcount
      rw [if_neg hlane]
      exact ⟨hcount, hlimit⟩

end Counters

/-! ## Every run -/

section Runs

variable {config : Nat → LlmConfig} {w w' : AdmissionWorld}

theorem inLane_of_upsert {t t' : LeaseTable} {now : Int} {lease : AdmissionLease}
    (h : t.upsert now lease = some t') (hrows : ∀ row ∈ t.rows, InLane config row)
    (hlease : InLane config lease) : ∀ row ∈ t'.rows, InLane config row := by
  intro row hrow
  rcases List.mem_cons.mp ((upsert_eq_some h).2.mem_iff.mp hrow) with rfl | hrow
  · exact hlease
  · exact hrows row (List.mem_of_mem_filter hrow)

/-- What a call leaves in the database is in its lane. -/
theorem lanes_of_call {s s' : AdmissionStore} {c c' : GatewayCall} (hok : CallOk config s.clock c)
    (hrows : ∀ row ∈ s.leases.rows, InLane config row)
    (habandoned : ∀ statement ∈ s.abandoned,
      statement.1 ≤ s.clock ∧ InLane config statement.2)
    (h : CallStep s c s' c') :
    (∀ row ∈ s'.leases.rows, InLane config row) ∧
      ∀ statement ∈ s'.abandoned, statement.1 ≤ s'.clock ∧ InLane config statement.2 := by
  cases h with
  | acquire hcall hpoint hupsert =>
    exact ⟨inLane_of_upsert hupsert hrows (hok.inLane hcall hpoint).2, habandoned⟩
  | abandon message hcall hpoint =>
    refine ⟨hrows, ?_⟩
    intro statement hstatement
    rcases List.mem_cons.mp hstatement with rfl | hstatement
    · exact hok.inLane hcall hpoint
    · exact habandoned statement hstatement
  | _ => exact ⟨hrows, habandoned⟩

theorem mem_of_middle {β : Type} {xs ys : List β} {x y : β} (h : y ∈ xs ++ ys) :
    y ∈ xs ++ x :: ys := by
  rcases List.mem_append.mp h with h | h
  · exact List.mem_append_left _ h
  · exact List.mem_append_right _ (List.mem_cons_of_mem _ h)

theorem admissionInv_of_step (hinv : AdmissionInv config w) (h : AdmissionStep config w w') :
    AdmissionInv config w' := by
  have hleases := Leasing.leaseInv_of_step hinv.leases (leaseStep_of_step hinv h)
  cases h with
  | tick now hnow =>
    refine ⟨?_, ?_, hinv.rows, hleases, hinv.counters, hinv.limits⟩
    · exact fun c hc => (hinv.calls c hc).later hnow
    · intro statement hstatement
      obtain ⟨hstarted, hlane⟩ := hinv.abandoned statement hstatement
      exact ⟨Int.le_trans hstarted hnow, hlane⟩
  | enter process rt args cacheNamespace pool =>
    refine ⟨?_, hinv.abandoned, hinv.rows, hleases, ?_, hinv.limits⟩
    · intro c hc
      rcases List.mem_append.mp hc with hc | hc
      · exact hinv.calls c hc
      · obtain rfl := List.mem_singleton.mp hc
        exact ⟨disciplined_executeLlmInfer, trivial⟩
    · intro process' requestClass
      rw [AdmissionWorld.liveGuards, List.countP_append, List.countP_singleton,
        not_holdsSlot (by simp)]
      exact hinv.counters process' requestClass
  | @call before after c c' store hcalls hstep =>
    have hok := hinv.calls c (hcalls ▸ List.mem_append_right _ List.mem_cons_self)
    obtain ⟨hrows, habandoned⟩ := lanes_of_call hok hinv.rows hinv.abandoned hstep
    refine ⟨?_, habandoned, hrows, hleases, ?_, ?_⟩
    · intro c'' hc''
      rcases List.mem_append.mp hc'' with hc'' | hc''
      · rw [show store.clock = w.store.clock from clock_of_callStep hstep]
        exact hinv.calls c'' (hcalls ▸ List.mem_append_left _ hc'')
      rcases List.mem_cons.mp hc'' with rfl | hc''
      · exact callOk_of_callStep hok hstep
      · rw [show store.clock = w.store.clock from clock_of_callStep hstep]
        exact hinv.calls c'' (hcalls ▸ List.mem_append_right _ (List.mem_cons_of_mem _ hc''))
    · exact fun process requestClass => (counters_of_call hinv hcalls hstep).1
    · exact fun process requestClass => (counters_of_call hinv hcalls hstep).2
  | @late before after now lease leases habandoned hupsert =>
    have hmem : (now, lease) ∈ w.store.abandoned :=
      habandoned ▸ List.mem_append_right _ List.mem_cons_self
    refine ⟨hinv.calls, ?_, ?_, hleases, hinv.counters, hinv.limits⟩
    · intro statement hstatement
      exact hinv.abandoned statement (habandoned ▸ mem_of_middle hstatement)
    · exact inLane_of_upsert hupsert hinv.rows (hinv.abandoned _ hmem).2
  | @leave before after c store releases hcalls hpoint hdrop =>
    have hsame : store.leases = w.store.leases ∧ store.clock = w.store.clock ∧
        store.abandoned = w.store.abandoned := by
      generalize c.guard = guard at hdrop
      cases hdrop <;> exact ⟨rfl, rfl, rfl⟩
    obtain ⟨hrows, hclock, habandoned⟩ := hsame
    refine ⟨?_, ?_, ?_, hleases, ?_, ?_⟩
    · intro c' hc'
      rw [hclock]
      exact hinv.calls c' (hcalls ▸ mem_of_middle hc')
    · rw [hclock, habandoned]
      exact hinv.abandoned
    · rw [hrows]
      exact hinv.rows
    · exact fun process requestClass => (counters_of_leave hinv hcalls hdrop).1
    · exact fun process requestClass => (counters_of_leave hinv hcalls hdrop).2
  | release hreleases =>
    refine ⟨hinv.calls, hinv.abandoned, ?_, hleases, hinv.counters, hinv.limits⟩
    exact fun row hrow => hinv.rows row (List.mem_of_mem_filter hrow)
  | loseRelease hreleases =>
    exact ⟨hinv.calls, hinv.abandoned, hinv.rows, hleases, hinv.counters, hinv.limits⟩

theorem admissionInv_start : AdmissionInv config .start where
  calls := nofun
  abandoned := nofun
  rows := nofun
  leases :=
    { tokens := List.nodup_nil
      known := nofun
      ids := List.nodup_nil
      known_rows := nofun
      unplaced := nofun
      same := nofun
      kept := nofun }
  counters := fun _ _ => rfl
  limits := fun _ _ => Nat.zero_le _

theorem admissionInv_of_reaches (h : AdmissionReaches config .start w) :
    AdmissionInv config w := by
  induction h with
  | refl => exact admissionInv_start
  | tail _ hstep ih => exact admissionInv_of_step ih hstep

/-- The unexpired leases of a lane. -/
def AdmissionWorld.unexpired (w : AdmissionWorld) (cacheNamespace lane : String) :
    List AdmissionLease :=
  w.store.leases.rows.filter fun row =>
    row.cacheNamespace = cacheNamespace ∧ row.lane = lane ∧ w.store.clock < row.leaseExpiresAt

/-- The leases of the live guards. -/
def AdmissionWorld.guarded (w : AdmissionWorld) : List AdmissionLease :=
  w.calls.filterMap (·.lease?)

/-- Slots are shared by no two unexpired leases and within the limit of the lane, a
release deletes the lease of its own guard and no other, and a counter is the number of
its live guards, within the limit. -/
structure AdmissionSafe (config : Nat → LlmConfig) (w : AdmissionWorld) : Prop where
  capacity : ∀ cacheNamespace requestClass limit,
    (∀ process, maxInflightOf requestClass (config process) ≤ limit) →
      (w.unexpired cacheNamespace requestClass.asStr).length ≤ limit
  slots : ∀ lease lease', (lease ∈ w.store.leases.rows ∨ lease ∈ w.guarded) →
    (lease' ∈ w.store.leases.rows ∨ lease' ∈ w.guarded) →
      w.store.clock < lease.leaseExpiresAt → w.store.clock < lease'.leaseExpiresAt →
        lease.slot = lease'.slot → lease = lease'
  guards : w.guarded.Nodup
  release : ∀ lease ∈ w.releases,
    (w.store.leases.release lease).rows = w.store.leases.rows.filter fun row => row ≠ lease
  counters : ∀ process requestClass,
    w.store.counters process requestClass = w.liveGuards process requestClass ∧
      w.store.counters process requestClass ≤ maxInflightOf requestClass (config process)

/-- Distinct slots of a lane are at most its limit. -/
theorem length_unexpired_le (hinv : AdmissionInv config w) {cacheNamespace : String}
    {requestClass : LlmRequestClass} {limit : Nat}
    (hlimit : ∀ process, maxInflightOf requestClass (config process) ≤ limit) :
    (w.unexpired cacheNamespace requestClass.asStr).length ≤ limit := by
  have hmem : ∀ row ∈ w.unexpired cacheNamespace requestClass.asStr,
      row ∈ w.store.leases.rows ∧ row.cacheNamespace = cacheNamespace ∧
        row.lane = requestClass.asStr := by
    intro row hrow
    obtain ⟨hrow, hlane⟩ := List.mem_filter.mp hrow
    exact ⟨hrow, (of_decide_eq_true hlane).1, (of_decide_eq_true hlane).2.1⟩
  have hnodup : ((w.unexpired cacheNamespace requestClass.asStr).map (·.slotIndex)).Nodup := by
    refine List.Nodup.map_on ?_ (List.Nodup.filter _ (List.Nodup.of_map _ w.store.leases.keys))
    intro row hrow row' hrow' hsame
    obtain ⟨hrow, hnamespace, hlane⟩ := hmem row hrow
    obtain ⟨hrow', hnamespace', hlane'⟩ := hmem row' hrow'
    refine List.inj_on_of_nodup_map w.store.leases.keys hrow hrow' ?_
    unfold AdmissionLease.slot
    rw [hnamespace, hnamespace', hlane, hlane', hsame]
  have hrange : (w.unexpired cacheNamespace requestClass.asStr).map (·.slotIndex) ⊆
      generateSeries limit := by
    intro i hi
    obtain ⟨row, hrow, rfl⟩ := List.mem_map.mp hi
    obtain ⟨hrow, _, hlane⟩ := hmem row hrow
    obtain ⟨hlow, process, requestClass', hlane', hhigh⟩ := hinv.rows row hrow
    have hclass : requestClass = requestClass' := by
      rw [hlane] at hlane'
      cases requestClass <;> cases requestClass' <;> first | rfl | exact absurd hlane' (by decide)
    subst hclass
    have hbound := hlimit process
    exact mem_generateSeries.mpr ⟨hlow, by omega⟩
  have hlength := (List.subperm_of_subset hnodup hrange).length_le
  simpa [generateSeries] using hlength

/-- Any number of workers, acquiring, releasing and failing in any order while leases
expire. -/
theorem admission_safe (hreach : AdmissionReaches config .start w) : AdmissionSafe config w := by
  have hinv := admissionInv_of_reaches hreach
  have hplaced : ∀ lease, lease ∈ w.store.leases.rows ∨ lease ∈ w.guarded →
      w.store.clock < lease.leaseExpiresAt → lease ∈ w.store.leases.rows := by
    intro lease hlease hunexpired
    rcases hlease with hlease | hlease
    · exact hlease
    · exact hinv.leases.kept lease hlease hunexpired
  have hheld := (Multiset.nodup_add.mp hinv.leases.tokens).1
  refine ⟨fun _ _ _ => length_unexpired_le hinv, ?_, ?_, ?_, ?_⟩
  · intro lease lease' hlease hlease' hunexpired hunexpired' hslot
    exact List.inj_on_of_nodup_map w.store.leases.keys (hplaced lease hlease hunexpired)
      (hplaced lease' hlease' hunexpired') hslot
  · have hguards : (w.guarded : Multiset AdmissionLease) ≤ w.leaseState.held :=
      Multiset.le_add_right _ _
    exact Multiset.coe_nodup.mp (Multiset.nodup_of_le hguards (Multiset.Nodup.of_map _ hheld))
  · intro lease hlease
    refine List.filter_congr fun row hrow => decide_eq_decide.mpr (not_congr ?_)
    constructor
    · intro hsame
      exact hinv.leases.same row hrow lease (Multiset.mem_add.mpr (.inr hlease)) hsame.2
    · rintro rfl
      exact ⟨rfl, rfl⟩
  · exact fun process requestClass =>
      ⟨hinv.counters process requestClass, hinv.limits process requestClass⟩

/-- The sample worker with admission over the database. -/
def leasedConfig : LlmConfig :=
  { sampleConfig with
    admissionEnabled := true
    distributedEnabled := true
    distributedAdmissionEnabled := true }

def sampleLease : AdmissionLease where
  cacheNamespace := "global"
  lane := "interactive"
  slotIndex := 1
  leaseId := Uuid.repeated 1
  leaseOwner := "worker-1"
  leaseExpiresAt := 30000

def sampleParams : LeaseAcquireParams where
  cacheNamespace := "global"
  lane := "interactive"
  maxInflight := 8
  leaseOwner := "worker-1"
  leaseMs := 30000

theorem sampleCall_acquires : ∃ k : AfterAcquire,
    executeLlmInfer sampleRuntime (.obj [("prompt", .str "hi")]) leasedConfig none true =
      .call sampleParams.op k := by
  obtain ⟨parsed, hparsed, hclass⟩ : ∃ parsed,
      parseActionArgs (.obj [("prompt", .str "hi")]) leasedConfig.maxInputBytes = .ok parsed ∧
        parsed.requestClass = .interactive := ⟨_, rfl, rfl⟩
  obtain ⟨params, k, hparams, hcall⟩ : ∃ params : LeaseAcquireParams, ∃ k : AfterAcquire,
      params = sampleParams ∧ executeLlmInfer sampleRuntime (.obj [("prompt", .str "hi")])
        leasedConfig none true = .call params.op k := by
    unfold executeLlmInfer
    rw [hparsed]
    refine ⟨⟨"global", parsed.requestClass.asStr, maxInflightOf parsed.requestClass leasedConfig,
      "worker-1", 30000⟩, _, ?_, rfl⟩
    rw [hclass]
    rfl
  subst hparams
  exact ⟨k, hcall⟩

def sampleCall : GatewayCall where
  process := 0
  rest := executeLlmInfer sampleRuntime (.obj [("prompt", .str "hi")]) leasedConfig none true

theorem leasedWorld_reachable : ∃ w, AdmissionReaches (fun _ => leasedConfig) .start w ∧
    w.store.leases.rows = [sampleLease] ∧ w.guarded = [sampleLease] := by
  obtain ⟨k, hk⟩ := sampleCall_acquires
  have hentered : AdmissionReaches (fun _ => leasedConfig) .start
      { AdmissionWorld.start with calls := [sampleCall] } :=
    .single (.enter 0 sampleRuntime (.obj [("prompt", .str "hi")]) none true)
  have hselected := hentered.tail (@AdmissionStep.call _ _ [] [] _ _ _ rfl
    (@CallStep.select _ sampleCall sampleParams k 0 (Uuid.repeated 1) hk rfl (by decide)
      (le_refl _) nofun))
  have hacquired := hselected.tail (@AdmissionStep.call _ _ [] [] _ _ _ rfl
    (@CallStep.acquire _ _ sampleParams k 0 1 (Uuid.repeated 1) _ hk rfl rfl))
  exact ⟨_, hacquired, rfl, rfl⟩

theorem leased_worker_safe : ∃ w : AdmissionWorld, w.guarded = [sampleLease] ∧
    AdmissionSafe (fun _ => leasedConfig) w := by
  obtain ⟨w, hreach, _, hguarded⟩ := leasedWorld_reachable
  exact ⟨w, hguarded, admission_safe hreach⟩

end Runs

end Llm
end SecureAgnt

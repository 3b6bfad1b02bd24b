/-
What a legal hold keeps.

`legal_hold_kept` is about a run in which some calls have ended or not begun when a hold
is in force, and no call of the tenant stands between its read of the policy and its
write: from then on no event of the tenant is deleted, until a request lifts the hold.
-/
import SecureAgnt.Compliance.Retention

namespace SecureAgnt
namespace Compliance

open Api (ApiResult AppState HeaderMap tenantFromHeaders)
open Handler
open Storage (Backend)

/-! ## Statements -/

/-- What a call can do to the tables, whether it is answered or fails. -/
inductive Change {J : Type} (b : Backend) (pg : Postgres J) (w w' : RetentionWorld J) :
    RetentionOp J → Prop
  | quiet (op : RetentionOp J) (hevents : w'.events = w.events)
      (hpolicies : w'.policies = w.policies) : Change b pg w w' op
  | set (row : ComplianceAuditPolicyRecord)
      (hallowed : allowsDays b row.complianceHotRetentionDays
        row.complianceArchiveRetentionDays = true)
      (hevents : w'.events = w.events)
      (hpolicies : w'.policies =
        Function.update w.policies row.tenantId (row :: w.policies row.tenantId)) :
      Change b pg w w' (.upsertPolicy row.tenantId row.complianceHotRetentionDays
        row.complianceArchiveRetentionDays row.legalHold row.legalHoldReason)
  | deleted (tenantId : String) (cutoffAt : Int)
      (hevents : w'.events = w.events.filter fun row => !isDeleted b tenantId cutoffAt row)
      (hpolicies : w'.policies = w.policies) : Change b pg w w' (.deleteBefore tenantId cutoffAt)
  | inserted (e : AuditEvent J) (hevents : w'.events = routed b pg w.events e)
      (hpolicies : w'.policies = w.policies) : Change b pg w w' (.insertAuditEvent e)

section Statements

variable {J : Type} {b : Backend} {pg : Postgres J} {w w' : RetentionWorld J}
  {op : RetentionOp J} {answer : op.Ans}

theorem effect_of_settles {α σ : Type} {effect : α → σ → Prop} {s s' : σ}
    {answer : Except String α} (h : settles effect s answer s') :
    s' = s ∨ ∃ result, effect result s' := by
  cases answer with
  | ok result => exact .inr ⟨result, h⟩
  | error message => exact h

theorem change_of_step (h : (retentionHandler b pg).step w op answer w') :
    w.clock ≤ w'.clock ∧ Change b pg w w' op := by
  obtain ⟨now, hclock, hstep⟩ := h
  cases op with
  | nowUtc =>
    obtain ⟨_, rfl⟩ := hstep
    exact ⟨hclock, .quiet _ rfl rfl⟩
  | getPolicy tenantId =>
    rcases effect_of_settles hstep with rfl | ⟨record, _, rfl⟩
    · exact ⟨hclock, .quiet _ rfl rfl⟩
    · exact ⟨hclock, .quiet _ rfl rfl⟩
  | upsertPolicy tenantId hotDays archiveDays legalHold reason =>
    rcases effect_of_settles hstep with rfl | ⟨record, hallowed, rfl, rfl⟩
    · exact ⟨hclock, .quiet _ rfl rfl⟩
    · exact ⟨hclock, .set ⟨tenantId, hotDays, archiveDays, legalHold, reason, _⟩ hallowed rfl rfl⟩
  | deleteBefore tenantId cutoffAt =>
    rcases effect_of_settles hstep with rfl | ⟨count, _, rfl⟩
    · exact ⟨hclock, .quiet _ rfl rfl⟩
    · exact ⟨hclock, .deleted tenantId cutoffAt rfl rfl⟩
  | insertAuditEvent e =>
    rcases effect_of_settles hstep with rfl | ⟨_, rfl⟩
    · exact ⟨hclock, .quiet _ rfl rfl⟩
    · exact ⟨hclock, .inserted e rfl rfl⟩

theorem prefix_routed (events : List (ComplianceEvent J)) (e : AuditEvent J) :
    events <+: routed b pg events e := by
  cases b with
  | sqlite => exact List.prefix_refl events
  | postgres =>
    show events <+: routeAuditEventToCompliance pg events e
    unfold routeAuditEventToCompliance
    split
    · split
      · exact List.prefix_refl events
      · exact List.prefix_append events _
    · exact List.prefix_refl events

theorem tenant_of_isDeleted {tenantId : String} {cutoffAt : Int} {row : ComplianceEvent J}
    (h : isDeleted b tenantId cutoffAt row = true) : row.tenantId = tenantId := by
  simp only [isDeleted, Bool.and_eq_true, decide_eq_true_eq] at h
  exact h.1

/-- A deletion passes by the events of the other tenants. -/
theorem tenantEvents_deleted {t tenantId : String} (cutoffAt : Int) (h : tenantId ≠ t)
    (events : List (ComplianceEvent J)) :
    tenantEvents t (events.filter fun row => !isDeleted b tenantId cutoffAt row) =
      tenantEvents t events := by
  unfold tenantEvents
  rw [List.filter_filter]
  apply List.filter_congr
  intro row _
  by_cases hrow : row.tenantId = t
  · have hkept : isDeleted b tenantId cutoffAt row = false := by
      rw [Bool.eq_false_iff]
      intro hdeleted
      exact h ((tenant_of_isDeleted hdeleted).symm.trans hrow)
    simp [hrow, hkept]
  · simp [hrow]

theorem policy_congr {t : String} (h : w'.policies t = w.policies t) : w'.policy t = w.policy t := by
  rw [RetentionWorld.policy, h, RetentionWorld.policy]

end Statements

/-! ## Requests -/

section Requests

variable {J α : Type} {H : Handler (RetentionOp J) RetentionOp.Ans (RetentionWorld J)}
  {C : Contract (RetentionWorld J) (RetentionOp J)} {w : RetentionWorld J} {P : α → Prop}

/-- What holds of an answer; nothing is said of failures. -/
def Succeeds (P : α → Prop) (_ : RetentionWorld J) (r : Except RequestFailure α) : Prop :=
  ∀ a, r = .ok a → P a

theorem succeeds_error (w : RetentionWorld J) (e : RequestFailure) : Succeeds P w (.error e) := by
  intro a ha
  cases ha

theorem succeeds_ok {a : α} (w : RetentionWorld J) (h : P a) : Succeeds P w (.ok a) := by
  intro a' ha
  cases ha
  exact h

theorem wp_gated {β : Type} {check : ApiResult β} {f : β → RetentionProg J α}
    (h : ∀ x, check = .ok x → wp H C (f x) (Succeeds P) w) :
    wp H C (gated check >>= f) (Succeeds P) w := by
  cases check with
  | ok x => exact h x rfl
  | error e => exact fun s _ => succeeds_error s _

theorem wp_reported {β : Type} {context : String} {answer : Except String β}
    {f : β → RetentionProg J α} (h : ∀ x, answer = .ok x → wp H C (f x) (Succeeds P) w) :
    wp H C (reported context answer >>= f) (Succeeds P) w := by
  refine wp_gated fun x hx => h x ?_
  cases answer with
  | ok y =>
    cases hx
    rfl
  | error message => cases hx

theorem wp_reported_last {context : String} {answer : Except String α}
    (h : ∀ a, answer = .ok a → P a) : wp H C (reported context answer) (Succeeds P) w := by
  cases answer with
  | ok a => exact fun s _ => succeeds_ok s (h a rfl)
  | error message => exact fun s _ => succeeds_error s _

theorem wp_answered {β : Type} {p : RetentionProg J β} {g : β → α}
    (h : wp H C p (Succeeds fun x => P (g x)) w) :
    wp H C (p >>= fun x => .pure (g x)) (Succeeds P) w := by
  refine wp_seq h (fun s x hx => ?_) fun s e _ => succeeds_error s e
  exact fun s' _ => succeeds_ok s' (hx x rfl)

end Requests

/-- The tenant whose policy or events a call can change other than by adding an event. -/
def RetentionCall.tenant {J : Type} : RetentionCall J → Option String
  | .getPolicy _ => none
  | .putPolicy headers _ => (tenantFromHeaders headers).toOption
  | .purge headers => (tenantFromHeaders headers).toOption
  | .audit _ => none

/-! ## Holds -/

def RetentionWorld.Held {J : Type} (w : RetentionWorld J) (tenantId : String) : Prop :=
  (w.policy tenantId).legalHold = true

/-- A hold that is in force stays, and so do the events of the tenant. -/
def KeepsHold {J : Type} (tenantId : String) (w w' : RetentionWorld J) : Prop :=
  w.Held tenantId →
    w'.Held tenantId ∧ tenantEvents tenantId w.events <+: tenantEvents tenantId w'.events

def RetentionOp.Endangers {J : Type} (tenantId : String) : RetentionOp J → Prop
  | .upsertPolicy t _ _ legalHold _ => t = tenantId ∧ legalHold = false
  | .deleteBefore t _ => t = tenantId
  | _ => False

def RetentionCall.Lifts {J : Type} (tenantId : String) : RetentionCall J → Prop
  | .putPolicy headers req => tenantFromHeaders headers = .ok tenantId ∧ req.legalHold = some false
  | _ => False

def holdContract {J : Type} (tenantId : String) :
    Contract (RetentionWorld J) (RetentionOp J) where
  rely := KeepsHold tenantId
  guarantee := KeepsHold tenantId
  safe w op := w.Held tenantId → ¬ op.Endangers tenantId
  rely_refl _ hheld := ⟨hheld, List.prefix_refl _⟩
  rely_trans h h' hheld :=
    ⟨(h' (h hheld).1).1, (h hheld).2.trans (h' (h hheld).1).2⟩

section Held

variable {J : Type} {b : Backend} {pg : Postgres J} {state : AppState} {t : String}
  {w w' : RetentionWorld J} {op : RetentionOp J} {answer : op.Ans}

/-- One step: only a statement that endangers the hold ends it or takes an event. -/
theorem keepsHold_of_step (hstep : (retentionHandler b pg).step w op answer w')
    (hsafe : w.Held t → ¬ op.Endangers t) : KeepsHold t w w' := by
  intro hheld
  have hop := hsafe hheld
  cases (change_of_step hstep).2 with
  | quiet _ hevents hpolicies =>
    rw [hevents]
    refine ⟨?_, List.prefix_refl _⟩
    rw [RetentionWorld.Held, policy_congr (congrFun hpolicies t)]
    exact hheld
  | set row hallowed hevents hpolicies =>
    rw [hevents]
    refine ⟨?_, List.prefix_refl _⟩
    have hrow := congrFun hpolicies t
    by_cases ht : t = row.tenantId
    · subst ht
      rw [Function.update_self] at hrow
      rw [RetentionWorld.Held, RetentionWorld.policy, hrow, List.headD_cons]
      exact Bool.not_eq_false _ |>.mp fun hfalse => hop ⟨rfl, hfalse⟩
    · rw [Function.update_of_ne ht] at hrow
      rw [RetentionWorld.Held, policy_congr hrow]
      exact hheld
  | deleted tenantId cutoffAt hevents hpolicies =>
    rw [hevents, tenantEvents_deleted cutoffAt hop]
    refine ⟨?_, List.prefix_refl _⟩
    rw [RetentionWorld.Held, policy_congr (congrFun hpolicies t)]
    exact hheld
  | inserted e hevents hpolicies =>
    rw [hevents]
    refine ⟨?_, (prefix_routed w.events e).filter _⟩
    rw [RetentionWorld.Held, policy_congr (congrFun hpolicies t)]
    exact hheld

section Calls

variable {α : Type} {P : α → Prop}

theorem wp_held_bind {f : op.Ans → RetentionProg J α} (hheld : w.Held t)
    (hop : ¬ op.Endangers t)
    (h : ∀ s answer s', s.Held t → s'.Held t → (retentionHandler b pg).step s op answer s' →
      wp (retentionHandler b pg) (holdContract t) (f answer) (Succeeds P) s') :
    wp (retentionHandler b pg) (holdContract t) (Prog.perform op >>= f) (Succeeds P) w := by
  refine wp_safe_bind (fun s op answer s' hsafe hstep => keepsHold_of_step hstep hsafe) ?_
  intro s hrely
  refine ⟨fun _ => hop, fun answer s' hstep => ?_⟩
  have hs := (hrely hheld).1
  exact h s answer s' hs (keepsHold_of_step hstep (fun _ => hop) hs).1 hstep

/-- The policy that is read of the tenant has the hold. -/
theorem wp_policy_held {context tenantId : String} {f : ComplianceAuditPolicyRecord →
    RetentionProg J α} (hheld : w.Held t)
    (h : ∀ s record, s.Held t → (tenantId = t → record.legalHold = true) →
      wp (retentionHandler b pg) (holdContract t) (f record) (Succeeds P) s) :
    wp (retentionHandler b pg) (holdContract t)
      (getTenantComplianceAuditPolicy context tenantId >>= f) (Succeeds P) w := by
  rw [getTenantComplianceAuditPolicy, Prog.bind_assoc]
  refine wp_held_bind hheld id fun s answer s' hs hs' hstep => ?_
  refine wp_reported fun record hrecord => h s' record hs' fun htenant => ?_
  subst hrecord
  subst htenant
  obtain ⟨now, _, rfl, _⟩ := hstep
  exact hs

theorem wp_upsert_held {tenantId : String} {hotDays archiveDays : Int} {legalHold : Bool}
    {reason : Option String} (hheld : w.Held t) (hhold : tenantId = t → legalHold = true) :
    wp (retentionHandler b pg) (holdContract t)
      (upsertTenantComplianceAuditPolicy tenantId hotDays archiveDays legalHold reason)
      (Succeeds fun record => tenantId = t → record.legalHold = true) w := by
  have hop : ¬ (RetentionOp.upsertPolicy tenantId hotDays archiveDays legalHold reason :
      RetentionOp J).Endangers t := by
    intro hdanger
    rw [hhold hdanger.1] at hdanger
    cases hdanger.2
  refine wp_held_bind hheld hop fun s answer s' _ _ hstep => ?_
  refine wp_reported_last fun record hrecord htenant => ?_
  subst hrecord
  obtain ⟨now, _, _, rfl, _⟩ := hstep
  exact hhold htenant

end Calls

theorem wp_getPolicy_held (headers : HeaderMap) (hheld : w.Held t) :
    wp (retentionHandler b pg) (holdContract t)
      (getComplianceAuditPolicyHandler b state headers) (Succeeds fun _ => True) w := by
  refine wp_gated fun tenantId _ => wp_gated fun role _ => wp_gated fun _ _ => ?_
  have hread : ∀ context, wp (retentionHandler b pg) (holdContract t)
      (getTenantComplianceAuditPolicy context tenantId) (Succeeds fun _ => True) w := by
    intro context
    refine wp_held_bind hheld id fun s answer s' _ _ _ => ?_
    exact wp_reported_last fun _ _ => trivial
  cases b with
  | postgres => exact hread _
  | sqlite => exact hread _

theorem wp_putPolicy_held {headers : HeaderMap} {req : UpdateComplianceAuditPolicyRequest}
    (hheld : w.Held t) (hcall : ¬ (RetentionCall.putPolicy headers req : RetentionCall J).Lifts t) :
    wp (retentionHandler b pg) (holdContract t)
      (putComplianceAuditPolicyHandler state headers req)
      (Succeeds fun record => tenantFromHeaders headers = .ok t → record.legalHold = true) w := by
  refine wp_gated fun tenantId htenant => wp_gated fun role _ => wp_gated fun _ _ => ?_
  refine wp_policy_held hheld fun s existing hs hexisting => wp_gated fun _ _ => ?_
  have hhold : tenantId = t → req.legalHold.getD existing.legalHold = true := by
    rintro rfl
    cases hreq : req.legalHold with
    | none => exact hexisting rfl
    | some legalHold =>
      cases legalHold with
      | true => rfl
      | false => exact absurd ⟨htenant, hreq⟩ hcall
  refine wp_mono (fun s r hr record hrecord ht => hr record hrecord ?_) (wp_upsert_held hs hhold)
  rw [htenant] at ht
  cases ht
  rfl

/-- What a purge answers under a hold. -/
def PurgeOutcome.Withheld (outcome : PurgeOutcome) : Prop :=
  outcome.legalHold = true ∧ outcome.deletedCount = 0

/-- The last statement of a purge: under a hold of its own tenant it is not reached. -/
theorem wp_deleteBefore_held {tenantId : String} {cutoffAt : Int} {context : String}
    {policy : ComplianceAuditPolicyRecord} (hheld : w.Held t) (htenant : tenantId ≠ t) :
    wp (retentionHandler b pg) (holdContract t)
      (Prog.perform (RetentionOp.deleteBefore tenantId cutoffAt) >>= fun answer =>
        reported context answer >>= fun deletedCount =>
          .pure (purgeOutcome policy cutoffAt false deletedCount))
      (Succeeds fun outcome => tenantId = t → outcome.Withheld) w := by
  refine wp_held_bind hheld htenant fun s answer s' _ _ _ => wp_reported fun count _ => ?_
  exact fun s' _ => succeeds_ok s' fun ht => absurd ht htenant

theorem wp_purge_held (headers : HeaderMap) (hheld : w.Held t) :
    wp (retentionHandler b pg) (holdContract t)
      (postComplianceAuditPurgeHandler b state headers)
      (Succeeds fun outcome => tenantFromHeaders headers = .ok t → outcome.Withheld) w := by
  refine wp_gated fun tenantId htenant => wp_gated fun role _ => wp_gated fun _ _ => ?_
  refine wp_mono (Q := Succeeds fun outcome => tenantId = t → outcome.Withheld)
    (fun s r hr outcome houtcome ht => hr outcome houtcome ?_) ?_
  · rw [htenant] at ht
    cases ht
    rfl
  cases b with
  | postgres =>
    refine wp_held_bind hheld id fun s now s' _ hs' _ => ?_
    refine wp_policy_held hs' fun s policy hs hpolicy => wp_reported fun _ _ => ?_
    refine wp_ite (fun hhold => ?_) fun hhold => ?_
    · exact fun s' _ => succeeds_ok s' fun _ => ⟨rfl, rfl⟩
    · exact wp_deleteBefore_held hs fun ht => hhold (hpolicy ht)
  | sqlite =>
    refine wp_policy_held hheld fun s policy hs hpolicy => ?_
    refine wp_held_bind hs id fun _ now s' _ hs' _ => ?_
    refine wp_ite (fun _ => fun s' _ => succeeds_error s' _) fun _ => ?_
    refine wp_ite (fun hhold => ?_) fun hhold => wp_reported fun _ _ => ?_
    · exact fun s' _ => succeeds_ok s' fun _ => ⟨rfl, rfl⟩
    · exact wp_deleteBefore_held hs' fun ht => hhold (hpolicy ht)

/-- The answers that calls of the tenant give under a hold. -/
def RetentionAnswer.Spares : RetentionAnswer → Prop
  | .policy record => record.legalHold = true
  | .purged outcome => outcome.Withheld
  | .recorded => True

theorem tenantFromHeaders_of_tenant {headers : HeaderMap}
    (h : (tenantFromHeaders headers).toOption = some t) : tenantFromHeaders headers = .ok t := by
  cases htenant : tenantFromHeaders headers with
  | ok tenantId =>
    rw [htenant] at h
    cases h
    rfl
  | error e =>
    rw [htenant] at h
    cases h

/-- A call that begins under the hold keeps it, unless it lifts it. -/
theorem wp_program_held {call : RetentionCall J} (hheld : w.Held t) (hcall : ¬ call.Lifts t) :
    wp (retentionHandler b pg) (holdContract t) (call.program b state)
      (Succeeds fun answer => call.tenant = some t → answer.Spares) w := by
  cases call with
  | getPolicy headers =>
    refine wp_answered (wp_mono (fun s r _ record _ ht => ?_) (wp_getPolicy_held headers hheld))
    cases ht
  | putPolicy headers req =>
    refine wp_answered (wp_mono (fun s r hr record hrecord ht => ?_) (wp_putPolicy_held hheld hcall))
    exact hr record hrecord (tenantFromHeaders_of_tenant ht)
  | purge headers =>
    refine wp_answered (wp_mono (fun s r hr outcome houtcome ht => ?_) (wp_purge_held headers hheld))
    exact hr outcome houtcome (tenantFromHeaders_of_tenant ht)
  | audit event =>
    refine wp_held_bind hheld id fun s answer s' _ _ _ => wp_reported fun _ _ => ?_
    exact fun s' _ => succeeds_ok s' fun _ => trivial

end Held

/-! ## Calls of other tenants -/

section Issues

variable {J α : Type} {b : Backend} {state : AppState} {t : String} {op : RetentionOp J}

@[simp] theorem issues_gated {check : ApiResult α} :
    (gated check : RetentionProg J α).Issues op ↔ False := Prog.issues_ofExcept _

@[simp] theorem yields_gated {check : ApiResult α} {a : α} :
    (gated check : RetentionProg J α).Yields a ↔ check = .ok a := by
  rw [gated, Prog.yields_ofExcept]
  cases check <;> simp [Except.mapError]

@[simp] theorem issues_reported {context : String} {answer : Except String α} :
    (reported context answer : RetentionProg J α).Issues op ↔ False := issues_gated

theorem tenant_of_ok {headers : HeaderMap} {tenantId : String}
    (h : tenantFromHeaders headers = .ok tenantId) (ht : tenantId = t) :
    (tenantFromHeaders headers).toOption = some t := by
  rw [h, ht]
  rfl

/-- A statement that endangers a hold is one of a call of the tenant. -/
theorem tenant_of_issues {call : RetentionCall J} (h : (call.program b state).Issues op)
    (hdanger : op.Endangers t) : call.tenant = some t := by
  cases call with
  | getPolicy headers =>
    cases b <;>
      simp only [RetentionCall.program, getComplianceAuditPolicyHandler,
        getTenantComplianceAuditPolicy, Prog.issues_bind, Prog.issues_perform, issues_gated,
        yields_gated, issues_reported, Prog.issues_pure, false_or, and_false, exists_false,
        or_false] at h <;>
      obtain ⟨_, _, _, _, _, _, rfl⟩ := h <;>
      cases hdanger
  | putPolicy headers req =>
    simp only [RetentionCall.program, putComplianceAuditPolicyHandler,
      getTenantComplianceAuditPolicy, upsertTenantComplianceAuditPolicy, Prog.issues_bind,
      Prog.issues_perform, issues_gated, yields_gated, issues_reported, Prog.issues_pure,
      false_or, and_false, exists_false, or_false] at h
    obtain ⟨tenantId, htenant, _, _, _, _, rfl | ⟨_, _, _, _, rfl⟩⟩ := h
    · cases hdanger
    · exact tenant_of_ok htenant hdanger.1
  | purge headers =>
    cases b with
    | postgres =>
      simp only [RetentionCall.program, postComplianceAuditPurgeHandler,
        purgeExpiredTenantComplianceAuditEvents, getTenantComplianceAuditPolicy,
        Prog.issues_bind, Prog.issues_perform, Prog.issues_ite, issues_gated, yields_gated,
        issues_reported, Prog.issues_pure, false_or, and_false, exists_false, or_false] at h
      obtain ⟨tenantId, htenant, _, _, _, _, rfl | ⟨_, _, rfl | ⟨_, _, _, _, _, rfl⟩⟩⟩ := h
      · cases hdanger
      · cases hdanger
      · exact tenant_of_ok htenant hdanger
    | sqlite =>
      simp only [RetentionCall.program, postComplianceAuditPurgeHandler, purgeSqlite,
        getTenantComplianceAuditPolicy, Prog.issues_bind, Prog.issues_perform, Prog.issues_ite,
        issues_gated, yields_gated, issues_reported, Prog.issues_pure, Prog.issues_fail, false_or,
        and_false, exists_false, or_false] at h
      obtain ⟨tenantId, htenant, _, _, _, _, rfl | ⟨_, _, rfl | ⟨_, _, _, _, _, _, rfl⟩⟩⟩ := h
      · cases hdanger
      · cases hdanger
      · exact tenant_of_ok htenant hdanger
  | audit event =>
    simp only [RetentionCall.program, Prog.issues_bind, Prog.issues_perform, issues_reported,
      Prog.issues_pure, and_false, exists_false, or_false] at h
    subst h
    cases hdanger

end Issues

/-! ## Runs -/

section Runs

variable {J ι : Type} [DecidableEq ι] {b : Backend} {pg : Postgres J} {state : AppState}
  {t : String} {calls : ι → RetentionCall J} {w₀ w w' : RetentionWorld J}
  {ps ps' : ι → RetentionProg J RetentionAnswer}

/-- What a call answers if it begins under the hold and does not lift it. -/
def RetentionCall.Answers (b : Backend) (state : AppState) (t : String) (call : RetentionCall J)
    (p : RetentionProg J RetentionAnswer) (s : RetentionWorld J)
    (r : Except RequestFailure RetentionAnswer) : Prop :=
  p = call.program b state → ¬ call.Lifts t →
    Succeeds (fun answer => call.tenant = some t → answer.Spares) s r

/-- A call that is in flight is one of another tenant, and cannot endanger the hold. -/
theorem wp_of_idle {call : RetentionCall J} {p : RetentionProg J RetentionAnswer}
    (hheld : w.Held t) (hissues : ∀ op, p.Issues op → (call.program b state).Issues op)
    (hidle : call.tenant = some t →
      p = call.program b state ∧ ¬ call.Lifts t ∨ ∃ out, p = Prog.ofExcept out) :
    wp (retentionHandler b pg) (holdContract t) p (call.Answers b state t p) w := by
  by_cases hfresh : p = call.program b state ∧ ¬ call.Lifts t
  · rw [hfresh.1]
    exact wp_mono (fun s r hr _ _ => hr) (wp_program_held hheld hfresh.2)
  · have hvacuous : ∀ s r, call.Answers b state t p s r :=
      fun s r hp hlifts => absurd ⟨hp, hlifts⟩ hfresh
    by_cases htenant : call.tenant = some t
    · rcases hidle htenant with hstart | ⟨out, rfl⟩
      · exact absurd hstart hfresh
      · exact wp_ofExcept fun s _ => hvacuous s out
    · refine wp_mono (fun s r _ => hvacuous s r) (wp_of_issues (I := fun _ => True)
        (fun _ _ _ _ => trivial) (fun op hop s _ => ?_) trivial)
      have hsafe : s.Held t → ¬ op.Endangers t :=
        fun _ hdanger => htenant (tenant_of_issues (hissues op hop) hdanger)
      exact ⟨hsafe, fun answer s' hstep => ⟨keepsHold_of_step hstep hsafe, trivial⟩⟩

/-- From a moment when the hold of a tenant is in force and every call of the tenant has
either ended or not begun: the hold stays and no event of the tenant is deleted, whatever
the calls do in any order, as long as none that is to begin lifts the hold; and the calls
of the tenant that begin and succeed answer that nothing was deleted. -/
theorem legal_hold_kept
    (hrun : PoolReaches (retentionHandler b pg) (w₀, fun i => (calls i).program b state) (w, ps))
    (hheld : w.Held t)
    (hidle : ∀ i, (calls i).tenant = some t →
      ps i = (calls i).program b state ∧ ¬ (calls i).Lifts t ∨ ∃ out, ps i = Prog.ofExcept out)
    (hnext : PoolReaches (retentionHandler b pg) (w, ps) (w', ps')) :
    w'.Held t ∧ tenantEvents t w.events <+: tenantEvents t w'.events ∧
      ∀ i, ∀ answer : RetentionAnswer, (calls i).tenant = some t → ps i = (calls i).program b state →
        ¬ (calls i).Lifts t → ps' i = .pure answer → answer.Spares := by
  have hwp : ∀ i, wp (retentionHandler b pg) (holdContract t) (ps i)
      ((calls i).Answers b state t (ps i)) w :=
    fun i => wp_of_idle hheld (fun op hop => hrun.issues hop) (hidle i)
  -- what one call keeps is what the others rely on
  have hcompat : ∀ i j : ι, i ≠ j → ∀ s s' : RetentionWorld J,
      (holdContract t).guarantee s s' → (holdContract t).rely s s' := fun i j _ s s' h => h
  have hkept : KeepsHold t w w' := invariant_of_pool (C := fun _ => holdContract t)
    (I := KeepsHold t w) hcompat
    (fun i s op answer s' hs _ hstep hguar => (holdContract t).rely_trans hs hguar) hwp
    ((holdContract t).rely_refl w) hnext
  refine ⟨(hkept hheld).1, (hkept hheld).2, fun i answer htenant hstart hlifts hend => ?_⟩
  have hi := wp_of_pool (C := fun _ => holdContract t) hcompat hwp hnext i
  rw [hend] at hi
  exact hi w' ((holdContract t).rely_refl w') hstart hlifts answer rfl htenant

end Runs

/-- The headers of an owner of the tenant, whom the server asks for no token. -/
def ownerHeaders : HeaderMap := [("x-tenant-id", ⟨some "single"⟩)]

theorem tenantFromHeaders_owner : tenantFromHeaders ownerHeaders = .ok "single" := by
  decide +kernel

/-- The purge of an owner on Postgres, past its checks. -/
theorem program_ownerPurge {J : Type} :
    (RetentionCall.purge ownerHeaders : RetentionCall J).program .postgres {} =
      (Prog.perform RetentionOp.nowUtc >>=
        purgeExpiredTenantComplianceAuditEvents "single") >>= fun outcome =>
          .pure (.purged outcome) := by
  rw [RetentionCall.program, postComplianceAuditPurgeHandler, tenantFromHeaders_owner]
  rfl

/-- An event of the first day, and a hold that was set on it. -/
def heldWorld : RetentionWorld Unit where
  clock := 0
  events := [chainedEvent sampleServer none (failedRun 1 0)]
  policies _ := [⟨"single", 180, 2555, true, some "case 7", some 0⟩]

/-- Two hundred days later the event would be purged, and is not. -/
theorem legal_hold_kept_sample :
    tenantEvents "single" heldWorld.events <+:
        tenantEvents "single" { heldWorld with clock := 200 * day }.events ∧
      (purgeOutcome ⟨"single", 180, 2555, true, some "case 7", some 0⟩ (20 * day) true 0).Withheld := by
  have hstart : PoolReaches (retentionHandler .postgres sampleServer)
      (heldWorld, fun _ : Unit => (RetentionCall.purge ownerHeaders).program .postgres {})
      (heldWorld, fun _ : Unit => (RetentionCall.purge ownerHeaders).program .postgres {}) := .refl
  have hread := (hstart.focus (i := ()) program_ownerPurge).then_call (200 * day : Int)
    { heldWorld with clock := 200 * day } ⟨200 * day, by decide, rfl, rfl⟩
  have hpolicy := hread.then_call (.ok ⟨"single", 180, 2555, true, some "case 7", some 0⟩)
    { heldWorld with clock := 200 * day } ⟨200 * day, by decide, rfl, rfl⟩
  have hkept := legal_hold_kept (t := "single") hstart rfl
    (fun _ _ => .inl ⟨rfl, id⟩) hpolicy
  refine ⟨hkept.2.1, hkept.2.2 () (.purged _) ?_ rfl id ?_⟩
  · exact tenant_of_ok tenantFromHeaders_owner rfl
  · rfl

end Compliance
end SecureAgnt

/-
The life of a payment: what a `payment.send` action does to its ledger row.

An action touches no row but the one it stored, asks an endpoint only while every
earlier request for the row went unanswered, and pays only after every check of
its amount.  `wp_executePaymentSendAction` proves this of the program against any
interference that leaves the action's own row alone and lets rows grow, which is
what the other actions do in turn.
-/
import SecureAgnt.Payment.Ledger

namespace SecureAgnt
namespace Payment

open Worker (PaymentConfig PaymentRouteConfig RunLeaseRecord WorkerConfig)

/-! ## The contract -/

/-- An execution of a `payment.send` action, with what its run has spent before. -/
structure PaymentTask where
  config : WorkerConfig
  run : RunLeaseRecord
  spentMsat : Nat
  rawArgs : Json

def PaymentTask.program (rt : PaymentRuntime) (task : PaymentTask) (actionRequestId : String) :
    PaymentProg PaymentOutcome :=
  executePaymentSendAction rt task.config task.run task.spentMsat actionRequestId task.rawArgs

/-- The budgets that are summed from the ledger. -/
def summedLimits (config : PaymentConfig) (run : RunLeaseRecord) : List (SpendScope × Nat) :=
  (config.maxSpendMsatPerTenant.map fun limit => (.tenant run.tenantId, limit)).toList ++
    (config.maxSpendMsatPerAgent.map fun limit => (.agent run.tenantId run.agentId, limit)).toList

/-- The amount fitted every budget when it was checked. -/
structure Cleared (task : PaymentTask) (args : PaymentArgs) (p : Progress) : Prop where
  run : ∀ limit amount, task.config.payment.maxSpendMsatPerRun = some limit →
    args.amountMsat = some amount → saturatingAdd task.spentMsat amount ≤ limit
  summed : ∀ scope limit amount, (scope, limit) ∈ summedLimits task.config.payment task.run →
    args.amountMsat = some amount → ∃ total, (scope, total) ∈ p.readings ∧
      saturatingAdd (max total 0).toNat amount ≤ limit

/-- A Cashu payment is within the rail's own limit. -/
def RailAllows (config : PaymentConfig) (args : PaymentArgs) : Prop :=
  args.parsedDestination.provider = .cashu → exceedsCashuLimit config args = false

/-- What holds of an action's row throughout: only the last request for it can
have been answered, and a payment that was made was checked. -/
structure RowInv (task : PaymentTask) (args : PaymentArgs) (p : Progress) : Prop where
  unanswered : ∀ x ∈ p.attempts.tail, x.answered = false
  cleared : args.operation = .payInvoice → p.paid = true →
    Cleared task args p ∧ RailAllows task.config.payment args

def RowOk (task : PaymentTask) (a : String) (row : LedgerRow) : Prop :=
  ∃ args id, parsePaymentArgs task.rawArgs = .ok args ∧
    row.request = newPaymentRequest task.run a id args ∧ RowInv task args row.progress

def StateOk (task : PaymentTask) (a : String) (w : Ledger) : Prop :=
  ∀ row, w.rowOf a = some row → RowOk task a row

/-- The call pays, or records the payment as made. -/
def PaymentOp.spends : PaymentOp → Bool
  | .createPaymentResult result => result.status = .executed
  | op => op.pays

def PaymentOp.reopens : PaymentOp → Bool
  | .updatePaymentRequestStatus _ status => status = .requested
  | _ => false

/-- The call is one the action may make on its row as it stands. -/
structure OpOk (a : String) (w : Ledger) (op : PaymentOp) : Prop where
  keeps : op.reopens = false
  creates : ∀ request, op = .createOrGetPaymentRequest request → request.actionRequestId = a
  own : ∀ id, op.target? = some id → ∃ row, w.rowOf a = some row ∧ row.id = id ∧
    (op.spends = true → row.progress.status = .requested) ∧
    (op.pays = true → ∀ x ∈ row.progress.attempts, x.answered = false)

/-- A call that changes no row is always one it may make. -/
theorem OpOk.of_quiet {a : String} {w : Ledger} {op : PaymentOp} (htarget : op.target? = none)
    (hcreates : op.creates = false) : OpOk a w op := by
  refine ⟨?_, ?_, fun id htarget' => ?_⟩
  · cases op <;> first | rfl | cases htarget
  · rintro request rfl
    cases hcreates
  · rw [htarget] at htarget'
    cases htarget'

/-- A lookup is for the payment the action was asked for. -/
def LooksUp (task : PaymentTask) (a : String) (op : PaymentOp) : Prop :=
  ∀ request, op = .createOrGetPaymentRequest request →
    ∃ args id, parsePaymentArgs task.rawArgs = .ok args ∧
      request = newPaymentRequest task.run a id args

theorem looksUp_of_other {task : PaymentTask} {a : String} {op : PaymentOp}
    (h : op.creates = false) : LooksUp task a op := by
  rintro request rfl
  cases h

def paymentContract (task : PaymentTask) (a : String) : Contract Ledger PaymentOp where
  rely w w' := w'.rowOf a = w.rowOf a ∧ w.Grows w'
  guarantee w w' := (∀ b, b ≠ a → w'.rowOf b = w.rowOf b) ∧ w.Grows w'
  safe w op := StateOk task a w ∧ OpOk a w op ∧ LooksUp task a op
  rely_refl := fun w => ⟨rfl, w.grows_refl⟩
  rely_trans := fun h h' => ⟨h'.1.trans h.1, h.2.trans h'.2⟩

theorem paymentContract_compat {task task' : PaymentTask} {a b : String} (hab : a ≠ b)
    {w w' : Ledger} (h : (paymentContract task a).guarantee w w') :
    (paymentContract task' b).rely w w' := ⟨h.1 b hab.symm, h.2⟩

/-- A legal call changes no row of another action. -/
theorem guarantee_of_step {rt : PaymentRuntime} {task : PaymentTask} {a : String} {w w' : Ledger}
    {op : PaymentOp} {answer : PaymentAns op} (hop : OpOk a w op)
    (hstep : paymentStep rt w op answer w') : (paymentContract task a).guarantee w w' := by
  refine ⟨fun b hb => ?_, grows_of_step hstep⟩
  have hinsert {request : PaymentRequest} {w' : Ledger} (howner : request.actionRequestId = a)
      (h : inserts w request w') : w'.rowOf b = w.rowOf b := by
    obtain ⟨haccepts, rfl⟩ := h
    rw [Ledger.rowOf_insert, if_neg]
    rw [howner]
    exact Ne.symm hb
  unfold paymentStep at hstep
  split at hstep
  · rename_i request answer
    have howner := hop.creates request rfl
    unfold createOrGet at hstep
    split at hstep
    · rcases hstep with rfl | h
      · rfl
      · exact hinsert howner h
    · rcases hstep with ⟨row, -, -, rfl⟩ | ⟨h, -⟩
      · rfl
      · exact hinsert howner h
  · obtain ⟨-, reception, rfl⟩ := hstep
    split
    · rename_i id htarget
      obtain ⟨row, hrow, rfl, -⟩ := hop.own id htarget
      exact Ledger.rowOf_note.trans (Ledger.rowOf_modify_of_ne hrow hb)
    · rfl

/-- A legal call sends its requests with the id of a row there is. -/
theorem logged_of_step {rt : PaymentRuntime} {a : String} {w w' : Ledger} {op : PaymentOp}
    {answer : PaymentAns op} (hop : OpOk a w op) (hstep : paymentStep rt w op answer w')
    (h : w.Logged) : w'.Logged := by
  have hinsert {request : PaymentRequest} {w' : Ledger} (hnew : inserts w request w') :
      w'.Logged := by
    obtain ⟨haccepts, rfl⟩ := hnew
    exact h.insert haccepts
  unfold paymentStep at hstep
  split at hstep
  · unfold createOrGet at hstep
    split at hstep
    · rcases hstep with rfl | hnew
      · exact h
      · exact hinsert hnew
    · rcases hstep with ⟨row, -, -, rfl⟩ | ⟨hnew, -⟩
      · exact h
      · exact hinsert hnew
  · obtain ⟨-, reception, rfl⟩ := hstep
    split
    · rename_i id htarget
      obtain ⟨row, hrow, rfl, -⟩ := hop.own id htarget
      exact h.send (Ledger.rowOf_eq_some_iff.mp hrow).1 fun p => attempts_effect _ _ p
    · exact h

/-! ## Rules for a row of one's own -/

/-- The action's row is this request with such progress. -/
def Owns (a : String) (request : PaymentRequest) (P : Progress → Prop) (w : Ledger) : Prop :=
  ∃ p, w.rowOf a = some ⟨request, p⟩ ∧ P p

/-- How a program on the row ends: `A` of what it returns, or `E`. -/
def EndsIn {α : Type} (a : String) (request : PaymentRequest) (A : α → Progress → Prop)
    (E : Progress → Prop) (w : Ledger) : Except String α → Prop
  | .ok x => Owns a request (A x) w
  | .error _ => Owns a request E w

variable {rt : PaymentRuntime} {cond : Ledger → (op : PaymentOp) → PaymentAns op → Prop}
  {task : PaymentTask} {a : String} {w : Ledger} {α β : Type}

section Rules

variable {request : PaymentRequest} {P E : Progress → Prop} {A : α → Progress → Prop}
  {B : β → Progress → Prop} {op : PaymentOp}

theorem Owns.mono {P' : Progress → Prop} (h : ∀ p, P p → P' p) (hw : Owns a request P w) :
    Owns a request P' w := by
  obtain ⟨p, hrow, hp⟩ := hw
  exact ⟨p, hrow, h p hp⟩

theorem Owns.of_rely {w' : Ledger} (hrely : (paymentContract task a).rely w w')
    (hw : Owns a request P w) : Owns a request P w' := by
  obtain ⟨p, hrow, hp⟩ := hw
  exact ⟨p, hrely.1.trans hrow, hp⟩

theorem wp_pure_own {x : α} (hw : Owns a request (A x) w) :
    (paymentHandler rt cond).wp (paymentContract task a) (.pure x) (EndsIn a request A E) w :=
  fun _ hrely => hw.of_rely hrely

theorem wp_fail_own {e : String} (hw : Owns a request E w) :
    (paymentHandler rt cond).wp (paymentContract task a) (.fail e : PaymentProg α)
      (EndsIn a request A E) w :=
  fun _ hrely => hw.of_rely hrely

theorem wp_ofExcept_own {x : Except String α} (hok : ∀ v, x = .ok v → Owns a request (A v) w)
    (herror : ∀ e, x = .error e → Owns a request E w) :
    (paymentHandler rt cond).wp (paymentContract task a) (.ofExcept x) (EndsIn a request A E) w := by
  cases x with
  | ok v => exact wp_pure_own (hok v rfl)
  | error e => exact wp_fail_own (herror e rfl)

theorem wp_seq {p : PaymentProg α} {f : α → PaymentProg β}
    (hp : (paymentHandler rt cond).wp (paymentContract task a) p (EndsIn a request A E) w)
    (hf : ∀ x w, Owns a request (A x) w →
      (paymentHandler rt cond).wp (paymentContract task a) (f x) (EndsIn a request B E) w) :
    (paymentHandler rt cond).wp (paymentContract task a) (p >>= f) (EndsIn a request B E) w := by
  refine Handler.wp_bind (Handler.wp_mono ?_ hp)
  intro w' r h
  cases r with
  | error e => exact h
  | ok x => exact hf x w' h

end Rules

section Own

variable {args : PaymentArgs} {id : String} {P E : Progress → Prop} {op : PaymentOp}

/-- The row the action stores. -/
abbrev ownRequest (task : PaymentTask) (a : String) (args : PaymentArgs) (id : String) :
    PaymentRequest := newPaymentRequest task.run a id args

theorem stateOk_of_owns (hparse : parsePaymentArgs task.rawArgs = .ok args)
    (hinv : ∀ p, P p → RowInv task args p) (hw : Owns a (ownRequest task a args id) P w) :
    StateOk task a w := by
  obtain ⟨p, hown, hp⟩ := hw
  intro row hrow
  rw [hown] at hrow
  cases hrow
  exact ⟨args, id, hparse, rfl, hinv p hp⟩

/-- A call on the action's own row. -/
theorem wp_ask_own {A : PaymentAns op → Progress → Prop}
    (hparse : parsePaymentArgs task.rawArgs = .ok args) (htarget : op.target? = some id)
    (hkeeps : op.reopens = false) (hinv : ∀ p, P p → RowInv task args p)
    (hlegal : ∀ p, P p → (op.spends = true → p.status = .requested) ∧
      (op.pays = true → ∀ x ∈ p.attempts, x.answered = false))
    (hnext : ∀ answer reception p, P p → A answer (effect rt reception op answer p))
    (hw : Owns a (ownRequest task a args id) P w) :
    (paymentHandler rt cond).wp (paymentContract task a) (ask op)
      (EndsIn a (ownRequest task a args id) A E) w := by
  refine Handler.wp_perform fun w₁ hrely => ?_
  obtain ⟨p, hrow, hp⟩ := hw.of_rely hrely
  have hop : OpOk a w₁ op := by
    refine ⟨hkeeps, ?_, fun id' htarget' => ?_⟩
    · rintro request rfl
      cases htarget
    · rw [htarget] at htarget'
      cases htarget'
      exact ⟨_, hrow, rfl, hlegal p hp⟩
  have hlooks : LooksUp task a op := by
    rintro request rfl
    cases htarget
  refine ⟨⟨stateOk_of_owns hparse hinv ⟨p, hrow, hp⟩, hop, hlooks⟩, fun answer w₂ hstep => ?_⟩
  refine ⟨guarantee_of_step hop hstep.2, fun w₃ hrely => ?_⟩
  suffices h : Owns a (ownRequest task a args id) (A answer) w₂ from h.of_rely hrely
  obtain ⟨-, hstep⟩ := hstep
  unfold paymentStep at hstep
  split at hstep
  · cases htarget
  · obtain ⟨-, reception, rfl⟩ := hstep
    rw [htarget]
    exact ⟨_, Ledger.rowOf_note.trans (Ledger.rowOf_modify_self hrow),
      hnext answer reception p hp⟩

/-- A call that changes no row. -/
theorem wp_ask_none {A : PaymentAns op → Progress → Prop}
    (hparse : parsePaymentArgs task.rawArgs = .ok args) (htarget : op.target? = none)
    (hcreates : op.creates = false)
    (hinv : ∀ p, P p → RowInv task args p)
    (hnext : ∀ answer w₀ p, cond w₀ op answer → P p → A answer p)
    (hw : Owns a (ownRequest task a args id) P w) :
    (paymentHandler rt cond).wp (paymentContract task a) (ask op)
      (EndsIn a (ownRequest task a args id) A E) w := by
  refine Handler.wp_perform fun w₁ hrely => ?_
  obtain ⟨p, hrow, hp⟩ := hw.of_rely hrely
  have hop : OpOk a w₁ op := .of_quiet htarget hcreates
  refine ⟨⟨stateOk_of_owns hparse hinv ⟨p, hrow, hp⟩, hop, looksUp_of_other hcreates⟩,
    fun answer w₂ hstep => ?_⟩
  refine ⟨guarantee_of_step hop hstep.2, fun w₃ hrely => ?_⟩
  suffices h : Owns a (ownRequest task a args id) (A answer) w₂ from h.of_rely hrely
  obtain ⟨hcond, hstep⟩ := hstep
  unfold paymentStep at hstep
  split at hstep
  · cases hcreates
  · obtain ⟨-, reception, rfl⟩ := hstep
    rw [htarget]
    exact ⟨p, hrow, hnext answer w₁ p hcond hp⟩

end Own

/-! ## The stages of a row -/

section Stages

variable {args : PaymentArgs} {p : Progress}

/-- Nothing has been sent or recorded. -/
structure Unsent (p : Progress) : Prop where
  status : p.status = .requested
  results : p.results = []
  attempts : p.attempts = []

/-- Checked before anything is sent. -/
structure Checked (task : PaymentTask) (args : PaymentArgs) (p : Progress) : Prop extends Unsent p where
  cleared : args.operation = .payInvoice → Cleared task args p

/-- Checked, and nothing that was sent has been answered. -/
structure Ready (task : PaymentTask) (args : PaymentArgs) (p : Progress) : Prop where
  status : p.status = .requested
  results : p.results = []
  unanswered : ∀ x ∈ p.attempts, x.answered = false
  cleared : args.operation = .payInvoice → Cleared task args p

/-- Checked, and at most the last request has been answered. -/
structure Sent (task : PaymentTask) (args : PaymentArgs) (p : Progress) : Prop where
  status : p.status = .requested
  results : p.results = []
  unanswered : ∀ x ∈ p.attempts.tail, x.answered = false
  cleared : args.operation = .payInvoice → Cleared task args p

/-- Not recorded as executed. -/
structure Stopped (task : PaymentTask) (args : PaymentArgs) (p : Progress) : Prop where
  inv : RowInv task args p
  unexecuted : p.executed = false

structure Done (task : PaymentTask) (args : PaymentArgs) (p : Progress) : Prop where
  inv : RowInv task args p
  executed : p.executed = true

theorem Unsent.stopped (h : Unsent p) : Stopped task args p := by
  have hpaid : p.paid = false := by simp [Progress.paid, Progress.executed, h.results, h.attempts]
  refine ⟨⟨?_, fun _ hp => ?_⟩, by simp [Progress.executed, h.results]⟩
  · simp [h.attempts]
  · rw [hpaid] at hp
    cases hp

theorem Checked.ready (h : Checked task args p) : Ready task args p :=
  ⟨h.status, h.results, by simp [h.attempts], h.cleared⟩

theorem Ready.sent (h : Ready task args p) : Sent task args p :=
  ⟨h.status, h.results, fun x hx => h.unanswered x (List.mem_of_mem_tail hx), h.cleared⟩

theorem Sent.rowInv (hrail : RailAllows task.config.payment args) (h : Sent task args p) :
    RowInv task args p :=
  ⟨h.unanswered, fun hpay _ => ⟨h.cleared hpay, hrail⟩⟩

theorem Sent.stopped (hrail : RailAllows task.config.payment args) (h : Sent task args p) :
    Stopped task args p :=
  ⟨h.rowInv hrail, by simp [Progress.executed, h.results]⟩

/-- What was cleared stays so while readings are only added. -/
theorem Cleared.mono {p' : Progress} (h : Cleared task args p)
    (hreadings : ∀ r ∈ p.readings, r ∈ p'.readings) : Cleared task args p' := by
  refine ⟨h.run, fun scope limit amount hlimit hamount => ?_⟩
  obtain ⟨total, hmem, hle⟩ := h.summed scope limit amount hlimit hamount
  exact ⟨total, hreadings _ hmem, hle⟩

theorem RowInv.addFailed (h : RowInv task args p) : RowInv task args (p.addResult .failed) := by
  refine ⟨h.unanswered, fun hpay hpaid => ?_⟩
  obtain ⟨hcleared, hrail⟩ := h.cleared hpay (by simpa using hpaid)
  exact ⟨hcleared.mono fun _ hr => hr, hrail⟩

theorem RowInv.setStatus {status : PaymentStatus} (h : RowInv task args p) :
    RowInv task args (p.setStatus status) := by
  refine ⟨h.unanswered, fun hpay hpaid => ?_⟩
  obtain ⟨hcleared, hrail⟩ := h.cleared hpay (by simpa using hpaid)
  exact ⟨hcleared.mono fun _ hr => hr, hrail⟩

/-- An unanswered row with more requests, of which only the latest can have been answered. -/
theorem Ready.addAttempts {attempts : List Attempt} (h : Ready task args p)
    (htail : ∀ x ∈ attempts.tail, x.answered = false) :
    Sent task args (p.addAttempts attempts) ∧
      ((∀ x ∈ attempts, x.answered = false) → Ready task args (p.addAttempts attempts)) := by
  have hcleared (hpay : args.operation = .payInvoice) : Cleared task args (p.addAttempts attempts) :=
    (h.cleared hpay).mono fun _ hr => hr
  have hboth {l : List Attempt} (hl : ∀ x ∈ l, x.answered = false) :
      ∀ x ∈ l ++ p.attempts, x.answered = false := by
    intro x hx
    rcases List.mem_append.mp hx with hx | hx
    · exact hl x hx
    · exact h.unanswered x hx
  refine ⟨⟨h.status, h.results, ?_, hcleared⟩, fun hno => ⟨h.status, h.results, hboth hno, hcleared⟩⟩
  cases attempts with
  | nil => exact fun x hx => h.unanswered x (List.mem_of_mem_tail hx)
  | cons first rest => exact hboth htail

/-- The payment is recorded. -/
theorem Sent.done (hrail : RailAllows task.config.payment args) (h : Sent task args p) :
    Done task args (p.addResult .executed) :=
  ⟨⟨h.unanswered, fun hpay _ => ⟨(h.cleared hpay).mono fun _ hr => hr, hrail⟩⟩, by simp⟩

end Stages

/-! ## The checks -/

section Program

variable {args : PaymentArgs} {id : String} (hparse : parsePaymentArgs task.rawArgs = .ok args)
include hparse

theorem wp_failPayment {A : α → Progress → Prop} {code message : String}
    (hw : Owns a (ownRequest task a args id) (Stopped task args) w) :
    (paymentHandler rt cond).wp (paymentContract task a) (failPayment id code message)
      (EndsIn a (ownRequest task a args id) A (Stopped task args)) w := by
  have hkeep : ∀ p, Stopped task args p → RowInv task args p := fun p hp => hp.inv
  unfold failPayment persistFailedPaymentRequest
  refine wp_seq (A := fun _ => Stopped task args) ?_ fun _ w hw => wp_fail_own hw
  refine wp_seq (A := fun _ => Stopped task args)
    (wp_ask_own hparse rfl rfl hkeep (fun p _ => ⟨nofun, nofun⟩) ?_ hw) fun _ w hw => ?_
  · rintro (e | u) settled p hp
    · exact hp
    · exact ⟨hp.inv.addFailed, (Progress.executed_addResult p .failed).trans hp.unexecuted⟩
  refine wp_seq (A := fun _ => Stopped task args)
    (wp_ask_own hparse rfl rfl hkeep (fun p _ => ⟨nofun, nofun⟩) ?_ hw) fun _ w hw => wp_pure_own hw
  rintro (e | u) settled p hp
  · exact hp
  · exact ⟨hp.inv.setStatus, hp.unexecuted⟩

section Checks

variable {P : Progress → Prop} (hstop : ∀ p, P p → Stopped task args p)
include hstop

theorem wp_checkApproval {approved : Bool} {amountMsat : Nat}
    (hw : Owns a (ownRequest task a args id) P w) :
    (paymentHandler rt cond).wp (paymentContract task a)
      (checkApproval task.config.payment id approved amountMsat)
      (EndsIn a (ownRequest task a args id) (fun _ => P) (Stopped task args)) w := by
  unfold checkApproval
  split
  · exact wp_pure_own hw
  · split
    · exact wp_failPayment hparse (hw.mono hstop)
    · exact wp_pure_own hw

theorem wp_checkSpent {code budget : String} {limit spent amountMsat : Nat}
    (hw : Owns a (ownRequest task a args id) P w) :
    (paymentHandler rt cond).wp (paymentContract task a)
      (checkSpent id code budget limit spent amountMsat)
      (EndsIn a (ownRequest task a args id)
        (fun _ p => P p ∧ saturatingAdd spent amountMsat ≤ limit) (Stopped task args)) w := by
  unfold checkSpent
  split
  · exact wp_failPayment hparse (hw.mono hstop)
  · rename_i hfits
    exact wp_pure_own (hw.mono fun p hp => ⟨hp, Nat.not_lt.mp hfits⟩)

theorem wp_checkRunBudget {amountMsat : Nat} (hw : Owns a (ownRequest task a args id) P w) :
    (paymentHandler rt cond).wp (paymentContract task a)
      (checkRunBudget task.config.payment id task.spentMsat amountMsat)
      (EndsIn a (ownRequest task a args id)
        (fun _ p => P p ∧ ∀ limit, task.config.payment.maxSpendMsatPerRun = some limit →
          saturatingAdd task.spentMsat amountMsat ≤ limit) (Stopped task args)) w := by
  unfold checkRunBudget
  split
  · rename_i hnone
    refine wp_pure_own (hw.mono fun p hp => ⟨hp, fun limit h => ?_⟩)
    rw [hnone] at h
    cases h
  · rename_i limit hlimit
    refine Handler.wp_mono ?_ (wp_checkSpent hparse hstop hw)
    intro w' r h
    cases r with
    | error e => exact h
    | ok u =>
      refine h.mono fun p hp => ⟨hp.1, fun limit' h => ?_⟩
      rw [hlimit] at h
      cases h
      exact hp.2

/-- The sum a check was answered stays with the row. -/
theorem wp_checkSummedBudget {code budget : String} {scope : SpendScope} {limit : Option Nat}
    {amountMsat : Nat} (hread : ∀ p scope total, P p → P (p.read scope total))
    (hw : Owns a (ownRequest task a args id) P w) :
    (paymentHandler rt cond).wp (paymentContract task a)
      (checkSummedBudget id code budget scope limit amountMsat)
      (EndsIn a (ownRequest task a args id)
        (fun _ p => P p ∧ ∀ l, limit = some l → ∃ total, (scope, total) ∈ p.readings ∧
          saturatingAdd (max total 0).toNat amountMsat ≤ l) (Stopped task args)) w := by
  unfold checkSummedBudget
  split
  · exact wp_pure_own (hw.mono fun p hp => ⟨hp, fun l hl => by cases hl⟩)
  · rename_i limit
    refine wp_seq (A := fun answer p => P p ∧ ∀ total, answer = .ok total →
      (scope, total) ∈ p.readings) (wp_ask_own hparse rfl rfl (fun p hp => (hstop p hp).inv)
        (fun p _ => ⟨(fun h => by cases h), fun h => by cases h⟩) ?_ hw) fun answer w hw => ?_
    · intro answer settled p hp
      cases answer with
      | error e => exact ⟨hp, fun total h => by cases h⟩
      | ok total =>
        refine ⟨hread p scope total hp, fun total' h => ?_⟩
        cases h
        exact List.mem_cons_self
    refine wp_seq (A := fun total p => P p ∧ (scope, total) ∈ p.readings) (wp_ofExcept_own ?_ ?_)
      fun total w hw => ?_
    · rintro total rfl
      exact hw.mono fun p hp => ⟨hp.1, hp.2 total rfl⟩
    · rintro e rfl
      exact hw.mono fun p hp => hstop p hp.1
    · refine Handler.wp_mono ?_ (wp_checkSpent hparse (fun p hp => hstop p hp.1) hw)
      intro w' r h
      cases r with
      | error e => exact h
      | ok u =>
        refine h.mono fun p hp => ⟨hp.1.1, fun l hl => ?_⟩
        cases hl
        exact ⟨total, hp.1.2, hp.2⟩

end Checks

/-- An action that passes the checks is cleared for its amount. -/
theorem wp_checkSpend (hw : Owns a (ownRequest task a args id) Unsent w) :
    (paymentHandler rt cond).wp (paymentContract task a)
      (checkSpend task.config.payment task.run task.spentMsat id args)
      (EndsIn a (ownRequest task a args id) (fun _ => Checked task args) (Stopped task args)) w := by
  unfold checkSpend
  split
  · rename_i amount hpay hamount
    refine wp_seq (wp_checkApproval hparse (fun p hp => hp.stopped) hw) fun _ w hw => ?_
    refine wp_seq (wp_checkRunBudget hparse (fun p hp => hp.stopped) hw) fun _ w hw => ?_
    refine wp_seq (wp_checkSummedBudget hparse (fun p hp => hp.1.stopped)
      (fun p scope total hp => ⟨⟨hp.1.status, hp.1.results, hp.1.attempts⟩, hp.2⟩) hw)
      fun _ w hw => ?_
    refine Handler.wp_mono ?_ (wp_checkSummedBudget hparse (fun p hp => hp.1.1.stopped)
      (fun p scope total hp => ⟨⟨⟨hp.1.1.status, hp.1.1.results, hp.1.1.attempts⟩, hp.1.2⟩, ?_⟩) hw)
    · intro w' r h
      cases r with
      | error e => exact h
      | ok u =>
        refine h.mono ?_
        intro p hx
        obtain ⟨⟨⟨hunsent, hrun⟩, htenant⟩, hagent⟩ := hx
        refine ⟨hunsent, fun _ => ⟨fun limit amount' hlimit hamount' => ?_,
          fun scope limit amount' hlimit hamount' => ?_⟩⟩
        · rw [hamount] at hamount'
          cases hamount'
          exact hrun limit hlimit
        · rw [hamount] at hamount'
          cases hamount'
          simp only [summedLimits, List.mem_append, Option.mem_toList, Option.map_eq_some_iff,
            Prod.mk.injEq] at hlimit
          rcases hlimit with ⟨l, hl, rfl, rfl⟩ | ⟨l, hl, rfl, rfl⟩
          · exact htenant l hl
          · exact hagent l hl
    · intro l hl
      obtain ⟨total, hmem, hle⟩ := hp.2 l hl
      exact ⟨total, List.mem_cons_of_mem _ hmem, hle⟩
  · rename_i hother
    refine wp_pure_own (hw.mono fun p hp => ⟨hp, fun hpay => ⟨?_, ?_⟩⟩)
    · intro limit amount _ hamount
      exact absurd hamount (hother amount hpay)
    · intro scope limit amount _ hamount
      exact absurd hamount (hother amount hpay)

/-! ## The rails -/

omit hparse in
theorem operation_of_pays {config : PaymentConfig} {mintUri : String} {request : CashuHttpRequest}
    (hbuilt : buildCashuRequest rt config args id mintUri = .ok request)
    (hpays : request.pays = true) : args.operation = .payInvoice := by
  unfold buildCashuRequest at hbuilt
  simp only [bind, Except.bind] at hbuilt
  split at hbuilt
  · cases hbuilt
  · split at hbuilt
    · cases hbuilt
    · rename_i body hbody
      cases hbuilt
      unfold cashuRequestBody at hbody
      cases hop : args.operation with
      | payInvoice => rfl
      | makeInvoice =>
        simp only [hop] at hbody
        cases hbody
        simp [CashuHttpRequest.pays] at hpays
      | getBalance =>
        simp only [hop] at hbody
        cases hbody
        simp [CashuHttpRequest.pays] at hpays

section Rails

variable (hrail : RailAllows task.config.payment args)
include hrail

theorem wp_routeCall {P E : Progress → Prop} {op : PaymentOp} (htarget : op.target? = none)
    (hcreates : op.creates = false)
    (hsent : ∀ p, P p → Sent task args p) (hw : Owns a (ownRequest task a args id) P w) :
    (paymentHandler rt cond).wp (paymentContract task a) (ask op)
      (EndsIn a (ownRequest task a args id) (fun _ => P) E) w :=
  wp_ask_none hparse htarget hcreates (fun p hp => (hsent p hp).rowInv hrail)
    (fun _ _ _ _ hp => hp) hw

/-- The relays of one wallet in turn: an answer ends the loop, and as long as
there is none the row stays unanswered. -/
theorem wp_tryRelays {uriRaw : String} {uri : WalletConnectUri} {request : NwcRequest}
    {errors relays : List String} (huri : rt.wallet.parseUri uriRaw = .ok uri)
    (hw : Owns a (ownRequest task a args id) (Ready task args) w) :
    (paymentHandler rt cond).wp (paymentContract task a)
      (tryRelays (fun relayUrl => ask (.attemptNwcRelay id uriRaw relayUrl request)) rt.wallet uri
        errors relays)
      (EndsIn a (ownRequest task a args id) (fun _ => Sent task args) (Ready task args)) w := by
  induction relays generalizing errors w with
  | nil => exact wp_fail_own hw
  | cons relayUrl rest ih =>
    refine wp_seq (A := fun attempt p => Sent task args p ∧
      (relayAnswered rt uriRaw relayUrl attempt = false → Ready task args p))
      (wp_ask_own hparse rfl rfl (fun p hp => hp.sent.rowInv hrail)
        (fun p hp => ⟨fun _ => hp.status, fun _ => hp.unanswered⟩) ?_ hw) fun attempt w hw => ?_
    · intro attempt reception p hp
      have hmore := hp.addAttempts (unanswered_attempts rt reception
        (.attemptNwcRelay id uriRaw relayUrl request) attempt)
      exact ⟨hmore.1, fun hno => hmore.2 (attempts_relay_unanswered hno)⟩
    · have hanswered : relayAnswered rt uriRaw relayUrl attempt =
          (sendNwcRequestToRelay rt.wallet uri relayUrl attempt).isOk := by
        simp only [relayAnswered, huri]
      cases hsent : sendNwcRequestToRelay rt.wallet uri relayUrl attempt with
      | ok outcome => exact wp_pure_own (hw.mono fun p hp => hp.1)
      | error e =>
        rw [hsent] at hanswered
        exact ih (hw.mono fun p hp => hp.2 hanswered)

theorem wp_sendOverNwc {request : NwcRequest} {uriRaw : String}
    (hw : Owns a (ownRequest task a args id) (Ready task args) w) :
    (paymentHandler rt cond).wp (paymentContract task a) (sendOverNwc rt id request uriRaw)
      (EndsIn a (ownRequest task a args id) (fun _ => Sent task args) (Ready task args)) w := by
  unfold sendOverNwc sendNwcRequest
  cases huri : rt.wallet.parseUri uriRaw with
  | error e => exact wp_fail_own hw
  | ok uri =>
    dsimp only
    split
    · exact wp_fail_own hw
    · exact wp_tryRelays hparse hrail huri hw

/-- A request to a mint.  A request that pays and is not answered fails, since
only the other operations can reject an answer. -/
theorem wp_executeCashuPaymentHttp {mintUri : String}
    (hw : Owns a (ownRequest task a args id) (Ready task args) w) :
    (paymentHandler rt cond).wp (paymentContract task a)
      (executeCashuPaymentHttp rt task.config.payment args id mintUri)
      (EndsIn a (ownRequest task a args id) (fun _ => Sent task args) (Ready task args)) w := by
  unfold executeCashuPaymentHttp
  refine wp_seq (A := fun request p => Ready task args p ∧
    buildCashuRequest rt task.config.payment args id mintUri = .ok request)
    (wp_ofExcept_own (fun request h => hw.mono fun p hp => ⟨hp, h⟩) fun _ _ => hw)
    fun request w hw => ?_
  refine wp_seq (A := fun answer p => Sent task args p ∧
    (request.pays = true → mintAnswered answer = false → Ready task args p) ∧
    (request.pays = false → Ready task args p) ∧
    buildCashuRequest rt task.config.payment args id mintUri = .ok request)
    (wp_ask_own hparse rfl rfl (fun p hp => hp.1.sent.rowInv hrail)
      (fun p hp => ⟨fun _ => hp.1.status, fun _ => hp.1.unanswered⟩) ?_ hw) fun answer w hw => ?_
  · intro answer reception p hx
    obtain ⟨hp, hbuilt⟩ := hx
    have hmore := hp.addAttempts (unanswered_attempts rt reception
      (.sendCashuRequest id mintUri request) answer)
    refine ⟨hmore.1, fun _ hno => hmore.2 (attempts_mint_unanswered hno), fun hother => hmore.2 ?_,
      hbuilt⟩
    have hnone : (PaymentOp.sendCashuRequest id mintUri request).attempts rt reception answer = [] :=
      attempts_of_not_pays hother
    rw [hnone]
    exact nofun
  refine wp_seq (A := fun r p => Sent task args p ∧
    (request.pays = true → mintAnswered (.ok r) = false → Ready task args p) ∧
    (request.pays = false → Ready task args p) ∧
    buildCashuRequest rt task.config.payment args id mintUri = .ok request)
    (wp_ofExcept_own ?_ ?_) fun r w hw => ?_
  · rintro r rfl
    exact hw
  · rintro e rfl
    refine hw.mono fun p hp => ?_
    cases hpays : request.pays with
    | true => exact hp.2.1 hpays rfl
    | false => exact hp.2.2.1 hpays
  · refine wp_ofExcept_own (fun output _ => hw.mono fun p hp => hp.1) fun e herror => ?_
    refine hw.mono fun p hp => ?_
    obtain ⟨-, hanswered, hother, hbuilt⟩ := hp
    cases hpays : request.pays with
    | false => exact hother hpays
    | true =>
      refine hanswered hpays ?_
      have hop := operation_of_pays hbuilt hpays
      unfold cashuOutput at herror
      split at herror
      · rename_i hstatus
        simp only [mintAnswered]
        simpa using hstatus
      · simp only [hop] at herror
        cases herror

/-- The routes of a rail in turn, each of which ends as one request does. -/
theorem wp_tryPaymentRoutes {route : PaymentRouteConfig} {healthKey : String → String}
    {send : String → PaymentProg α} {index : Nat} {tally : RouteTally} {uris : List String}
    (hsend : ∀ uri w, Owns a (ownRequest task a args id) (Ready task args) w →
      (paymentHandler rt cond).wp (paymentContract task a) (send uri)
        (EndsIn a (ownRequest task a args id) (fun _ => Sent task args) (Ready task args)) w)
    (hw : Owns a (ownRequest task a args id) (Ready task args) w) :
    (paymentHandler rt cond).wp (paymentContract task a)
      (tryPaymentRoutes route healthKey send index tally uris)
      (EndsIn a (ownRequest task a args id) (fun r p => match r.1 with
        | some _ => Sent task args p
        | none => Ready task args p) (Stopped task args)) w := by
  induction uris generalizing index tally w with
  | nil => exact wp_pure_own hw
  | cons uri rest ih =>
    have hhealth : (paymentHandler rt cond).wp (paymentContract task a)
        (shouldAttemptPaymentRoute route (healthKey uri))
        (EndsIn a (ownRequest task a args id) (fun _ => Ready task args) (Stopped task args)) w := by
      unfold shouldAttemptPaymentRoute
      split
      · exact wp_pure_own hw
      · exact wp_routeCall hparse hrail rfl rfl (fun p hp => hp.sent) hw
    refine wp_seq hhealth fun healthy w hw => ?_
    split
    · exact ih hw
    refine wp_seq (A := fun r p => match r with
      | .ok _ => Sent task args p
      | .error _ => Ready task args p) (Handler.wp_attempt (Handler.wp_mono ?_ (hsend uri w hw)))
      fun r w hw => ?_
    · intro w' r h
      cases r with
      | error e => exact h
      | ok x => exact h
    cases r with
    | ok outcome =>
      refine wp_seq (A := fun _ => Sent task args) ?_ fun _ w hw => wp_pure_own hw
      unfold markPaymentRouteSuccess
      split
      · exact wp_pure_own hw
      · exact wp_routeCall hparse hrail rfl rfl (fun p hp => hp) hw
    | error e =>
      refine wp_seq (A := fun _ => Ready task args) ?_ fun _ w hw => ?_
      · unfold markPaymentRouteFailure
        split
        · exact wp_pure_own hw
        · exact wp_routeCall hparse hrail rfl rfl (fun p hp => hp.sent) hw
      · dsimp only
        split
        · exact wp_pure_own hw
        · exact ih hw

theorem wp_executeNwcRoutes {routes : ResolvedRoutes}
    (hw : Owns a (ownRequest task a args id) (Ready task args) w) :
    (paymentHandler rt cond).wp (paymentContract task a)
      (executeNwcRoutes rt task.config args id routes)
      (EndsIn a (ownRequest task a args id) (fun _ => Sent task args) (Stopped task args)) w := by
  have hstop : ∀ p, Sent task args p → Stopped task args p := fun p hp => hp.stopped hrail
  unfold executeNwcRoutes
  refine wp_seq (A := fun _ => Ready task args)
    (wp_ofExcept_own (fun _ _ => hw) fun _ _ => hw.mono fun p hp => hstop p hp.sent)
    fun request w hw => ?_
  refine wp_seq (wp_tryPaymentRoutes hparse hrail
    (fun uri w hw => wp_sendOverNwc hparse hrail hw) hw) fun r w hw => ?_
  obtain ⟨selected, tally⟩ := r
  cases selected with
  | none => exact wp_failPayment hparse (hw.mono fun p hp => hstop p hp.sent)
  | some found =>
    dsimp only
    split
    · exact wp_failPayment hparse (hw.mono hstop)
    · exact wp_pure_own hw

theorem wp_executeCashuRoutes {routes : ResolvedRoutes}
    (hw : Owns a (ownRequest task a args id) (Ready task args) w) :
    (paymentHandler rt cond).wp (paymentContract task a)
      (executeCashuRoutes rt task.config args id routes)
      (EndsIn a (ownRequest task a args id) (fun _ => Sent task args) (Stopped task args)) w := by
  have hstop : ∀ p, Sent task args p → Stopped task args p := fun p hp => hp.stopped hrail
  unfold executeCashuRoutes
  refine wp_seq (wp_tryPaymentRoutes hparse hrail
    (fun uri w hw => wp_executeCashuPaymentHttp hparse hrail hw) hw) fun r w hw => ?_
  obtain ⟨selected, tally⟩ := r
  cases selected with
  | none => exact wp_failPayment hparse (hw.mono fun p hp => hstop p hp.sent)
  | some found => exact wp_pure_own hw

end Rails

theorem wp_executeNwcPayment (hprovider : args.parsedDestination.provider = .nwc)
    (hw : Owns a (ownRequest task a args id) (Checked task args) w) :
    (paymentHandler rt cond).wp (paymentContract task a) (executeNwcPayment rt task.config args id)
      (EndsIn a (ownRequest task a args id)
        (fun _ p => Sent task args p ∧ RailAllows task.config.payment args) (Stopped task args)) w := by
  have hrail : RailAllows task.config.payment args := by
    intro hcashu
    rw [hprovider] at hcashu
    cases hcashu
  have hstopped : Owns a (ownRequest task a args id) (Stopped task args) w :=
    hw.mono fun p hp => hp.toUnsent.stopped
  unfold executeNwcPayment
  dsimp only
  split
  · exact wp_failPayment hparse hstopped
  split
  · exact wp_failPayment hparse hstopped
  split
  · exact wp_failPayment hparse hstopped
  split
  · exact wp_pure_own (hw.mono fun p hp => ⟨hp.ready.sent, hrail⟩)
  · refine Handler.wp_mono ?_ (wp_executeNwcRoutes hparse hrail (hw.mono fun p hp => hp.ready))
    intro w' r h
    cases r with
    | error e => exact h
    | ok execution => exact h.mono fun p hp => ⟨hp, hrail⟩

theorem wp_executeCashuPaymentScaffold
    (hw : Owns a (ownRequest task a args id) (Checked task args) w) :
    (paymentHandler rt cond).wp (paymentContract task a)
      (executeCashuPaymentScaffold rt task.config args id)
      (EndsIn a (ownRequest task a args id)
        (fun _ p => Sent task args p ∧ RailAllows task.config.payment args) (Stopped task args)) w := by
  have hstopped : Owns a (ownRequest task a args id) (Stopped task args) w :=
    hw.mono fun p hp => hp.toUnsent.stopped
  unfold executeCashuPaymentScaffold
  dsimp only
  split
  · exact wp_failPayment hparse hstopped
  split
  · exact wp_failPayment hparse hstopped
  rename_i hwithin
  have hrail : RailAllows task.config.payment args := fun _ => by simpa using hwithin
  split
  · exact wp_failPayment hparse hstopped
  split
  · exact wp_failPayment hparse hstopped
  split
  · exact wp_pure_own (hw.mono fun p hp => ⟨hp.ready.sent, hrail⟩)
  split
  · exact wp_failPayment hparse hstopped
  · refine Handler.wp_mono ?_ (wp_executeCashuRoutes hparse hrail (hw.mono fun p hp => hp.ready))
    intro w' r h
    cases r with
    | error e => exact h
    | ok execution => exact h.mono fun p hp => ⟨hp, hrail⟩

end Program

/-! ## The action -/

/-- Some run has the outbox fail. -/
def OutboxCanFail (cond : Ledger → (op : PaymentOp) → PaymentAns op → Prop) : Prop :=
  (∃ w tenantId provider execution e, cond w (.writeOutbox tenantId provider execution) (.error e)) ∨
    ∃ w runId e, cond w (.persistArtifact runId) (.error e)

/-- Ended with an error: after recording a payment only the outbox can fail. -/
structure Halted (cond : Ledger → (op : PaymentOp) → PaymentAns op → Prop) (task : PaymentTask)
    (args : PaymentArgs) (p : Progress) : Prop where
  inv : RowInv task args p
  executed : p.executed = true → OutboxCanFail cond

theorem Stopped.halted {args : PaymentArgs} {p : Progress} (h : Stopped task args p) :
    Halted cond task args p := by
  refine ⟨h.inv, fun hexec => ?_⟩
  rw [h.unexecuted] at hexec
  cases hexec

/-- What the run has spent once this payment is counted. -/
def spentAfter (args : PaymentArgs) (spentMsat : Nat) : Nat :=
  if args.operation = .payInvoice then saturatingAdd spentMsat (args.amountMsat.getD 0) else spentMsat

section Action

variable {args : PaymentArgs} {id : String} (hparse : parsePaymentArgs task.rawArgs = .ok args)
include hparse

theorem wp_recordExecuted {execution : PaymentExecution}
    (hw : Owns a (ownRequest task a args id)
      (fun p => Sent task args p ∧ RailAllows task.config.payment args) w) :
    (paymentHandler rt cond).wp (paymentContract task a)
      (recordExecuted task.run args task.spentMsat id execution)
      (EndsIn a (ownRequest task a args id) (fun outcome p => Done task args p ∧
          outcome = .executed id (spentAfter args task.spentMsat) execution)
        (Halted cond task args)) w := by
  have hdone : ∀ p, Done task args p → RowInv task args p := fun p hp => hp.inv
  unfold recordExecuted
  refine wp_seq (A := fun answer p => match answer with
    | .ok _ => Done task args p
    | .error _ => Stopped task args p)
    (wp_ask_own hparse rfl rfl (fun p hp => hp.1.rowInv hp.2) (fun p hp => ⟨fun _ => hp.1.status, nofun⟩)
      ?_ hw) fun answer w hw => ?_
  · rintro (e | u) settled p ⟨hsent, hrail⟩
    · exact hsent.stopped hrail
    · exact hsent.done hrail
  refine wp_seq (A := fun _ => Done task args) (wp_ofExcept_own ?_ ?_) fun _ w hw => ?_
  · rintro v rfl
    exact hw
  · rintro e rfl
    exact hw.mono fun p hp => hp.halted
  refine wp_seq (A := fun _ => Done task args)
    (wp_ask_own hparse rfl rfl hdone (fun p _ => ⟨nofun, nofun⟩) ?_ hw) fun _ w hw => ?_
  · rintro (e | u) settled p hp
    · exact hp
    · exact ⟨hp.inv.setStatus, hp.executed⟩
  -- from here on the payment is recorded, and only the outbox is left to fail
  refine wp_seq (A := fun answer p => Done task args p ∧ ∀ e, answer = .error e → OutboxCanFail cond)
    (wp_ask_none hparse rfl rfl hdone ?_ hw) fun answer w hw => ?_
  · rintro answer w₀ p hcond hp
    exact ⟨hp, fun e he => .inl ⟨w₀, _, _, _, e, he ▸ hcond⟩⟩
  refine wp_seq (A := fun _ => Done task args) (wp_ofExcept_own ?_ ?_) fun _ w hw => ?_
  · exact fun _ _ => hw.mono fun p hp => hp.1
  · exact fun e he => hw.mono fun p hp => ⟨hp.1.inv, fun _ => hp.2 e he⟩
  refine wp_seq (A := fun answer p => Done task args p ∧ ∀ e, answer = .error e → OutboxCanFail cond)
    (wp_ask_none hparse rfl rfl hdone ?_ hw) fun answer w hw => ?_
  · rintro answer w₀ p hcond hp
    exact ⟨hp, fun e he => .inr ⟨w₀, _, e, he ▸ hcond⟩⟩
  refine wp_seq (A := fun _ => Done task args) (wp_ofExcept_own ?_ ?_) fun _ w hw => ?_
  · exact fun _ _ => hw.mono fun p hp => hp.1
  · exact fun e he => hw.mono fun p hp => ⟨hp.1.inv, fun _ => hp.2 e he⟩
  · exact wp_pure_own (hw.mono fun p hp => ⟨hp, rfl⟩)

theorem wp_payRequest (hw : Owns a (ownRequest task a args id) Unsent w) :
    (paymentHandler rt cond).wp (paymentContract task a)
      (payRequest rt task.config task.run task.spentMsat args id)
      (EndsIn a (ownRequest task a args id) (fun outcome p => Done task args p ∧
          ∃ execution, outcome = .executed id (spentAfter args task.spentMsat) execution)
        (Halted cond task args)) w := by
  unfold payRequest
  refine wp_seq (A := fun _ => Checked task args) (Handler.wp_mono ?_ (wp_checkSpend hparse hw))
    fun _ w hw => ?_
  · intro w' r h
    cases r with
    | error e => exact h.mono fun p hp => hp.halted
    | ok u => exact h
  refine wp_seq (A := fun _ p => Sent task args p ∧ RailAllows task.config.payment args) ?_
    fun execution w hw => ?_
  · unfold executeOnRail
    cases hprovider : args.parsedDestination.provider with
    | cashu =>
      refine Handler.wp_mono ?_ (wp_executeCashuPaymentScaffold hparse hw)
      intro w' r h
      cases r with
      | error e => exact h.mono fun p hp => hp.halted
      | ok execution => exact h
    | nwc =>
      refine Handler.wp_mono ?_ (wp_executeNwcPayment hparse hprovider hw)
      intro w' r h
      cases r with
      | error e => exact h.mono fun p hp => hp.halted
      | ok execution => exact h
  · refine Handler.wp_mono ?_ (wp_recordExecuted hparse hw)
    intro w' r h
    cases r with
    | error e => exact h
    | ok outcome => exact h.mono fun p hp => ⟨hp.1, execution, hp.2⟩

end Action

/-- The row that made the action a duplicate, found in an earlier state. -/
def FoundDuplicate (cond : Ledger → (op : PaymentOp) → PaymentAns op → Prop) (task : PaymentTask)
    (a : String) (w : Ledger) : Prop :=
  ∃ args id w₀ row, parsePaymentArgs task.rawArgs = .ok args ∧
    cond w₀ (.createOrGetPaymentRequest (ownRequest task a args id)) (.ok row.record) ∧
    w₀.stored task.run.tenantId args.idempotencyKey = some row ∧ row.owner ≠ a ∧ w₀.Grows w

/-- How an action ends. -/
def ActionEnds (cond : Ledger → (op : PaymentOp) → PaymentAns op → Prop) (task : PaymentTask)
    (a : String) (w : Ledger) (r : Except String PaymentOutcome) : Prop :=
  StateOk task a w ∧
  match r with
  | .ok (.duplicate _ _) => w.rowOf a = none ∧ FoundDuplicate cond task a w
  | .ok (.executed id spent _) => ∃ args, parsePaymentArgs task.rawArgs = .ok args ∧
      spent = spentAfter args task.spentMsat ∧
      Owns a (ownRequest task a args id) (fun p => p.executed = true) w
  | .error _ => ∀ row, w.rowOf a = some row → row.progress.executed = true → OutboxCanFail cond

theorem stateOk_of_none (h : w.rowOf a = none) : StateOk task a w := by
  intro row hrow
  rw [h] at hrow
  cases hrow

theorem actionEnds_error_of_none {e : String} (h : w.rowOf a = none) :
    ActionEnds cond task a w (.error e) := by
  refine ⟨stateOk_of_none h, fun row hrow => ?_⟩
  rw [h] at hrow
  cases hrow

theorem actionEnds_of_endsIn {args : PaymentArgs} {id : String} {r : Except String PaymentOutcome}
    (hparse : parsePaymentArgs task.rawArgs = .ok args)
    (h : EndsIn a (ownRequest task a args id) (fun outcome p => Done task args p ∧
        ∃ execution, outcome = .executed id (spentAfter args task.spentMsat) execution)
      (Halted cond task args) w r) :
    ActionEnds cond task a w r := by
  cases r with
  | error e =>
    refine ⟨stateOk_of_owns hparse (fun p hp => hp.inv) h, ?_⟩
    obtain ⟨p, hown, hp⟩ := h
    intro row hrow
    rw [hown] at hrow
    cases hrow
    exact hp.executed
  | ok outcome =>
    obtain ⟨p, hown, hdone, execution, rfl⟩ := h
    exact ⟨stateOk_of_owns hparse (fun p hp => hp.inv) ⟨p, hown, hdone⟩, args, hparse, rfl, p, hown,
      hdone.executed⟩

theorem FoundDuplicate.grows {w' : Ledger} (hgrows : w.Grows w')
    (h : FoundDuplicate cond task a w) : FoundDuplicate cond task a w' := by
  obtain ⟨args, id, w₀, row, hparse, hcond, hstored, hother, hbefore⟩ := h
  exact ⟨args, id, w₀, row, hparse, hcond, hstored, hother, hbefore.trans hgrows⟩

/-- A call that changes no row, by an action that has none. -/
theorem wp_ask_absent {op : PaymentOp} {Q : Ledger → Except String (PaymentAns op) → Prop}
    (htarget : op.target? = none) (hcreates : op.creates = false) (hnone : w.rowOf a = none)
    (hnext : ∀ answer w', w'.rowOf a = none → w.Grows w' → Q w' (.ok answer)) :
    (paymentHandler rt cond).wp (paymentContract task a) (ask op) Q w := by
  refine Handler.wp_perform fun w₁ hrely => ?_
  have hnone₁ := hrely.1.trans hnone
  refine ⟨⟨stateOk_of_none hnone₁, .of_quiet htarget hcreates, looksUp_of_other hcreates⟩,
    fun answer w₂ hstep => ?_⟩
  obtain rfl : w₂ = w₁ := by
    obtain ⟨-, hstep⟩ := hstep
    unfold paymentStep at hstep
    split at hstep
    · cases hcreates
    · obtain ⟨-, reception, rfl⟩ := hstep
      rw [htarget]
  refine ⟨⟨fun _ _ => rfl, w₂.grows_refl⟩, fun w₃ hrely' => ?_⟩
  exact hnext answer w₃ (hrely'.1.trans hnone₁) (hrely.2.trans hrely'.2)

/-- The answer to an action whose key is taken. -/
theorem wp_answerDuplicate {record : PaymentRequestRecord} (hnone : w.rowOf a = none)
    (hfound : FoundDuplicate cond task a w) :
    (paymentHandler rt cond).wp (paymentContract task a)
      (ask (.getLatestPaymentResult record.id) >>= fun answer =>
        Prog.ofExcept answer >>= fun priorResult => .pure (.duplicate record priorResult))
      (ActionEnds cond task a) w := by
  refine Handler.wp_bind (wp_ask_absent rfl rfl hnone fun answer w₁ hnone₁ hgrows₁ => ?_)
  refine Handler.wp_bind (Handler.wp_ofExcept fun w₂ hrely => ?_)
  have hnone₂ := hrely.1.trans hnone₁
  cases answer with
  | error e => exact actionEnds_error_of_none hnone₂
  | ok priorResult =>
    intro w₃ hrely'
    have hnone₃ := hrely'.1.trans hnone₂
    exact ⟨stateOk_of_none hnone₃, hnone₃,
      hfound.grows (hgrows₁.trans (hrely.2.trans hrely'.2))⟩

/-- The action once its arguments are read and its id is drawn: its row is stored,
or another action's is found under its key. -/
theorem wp_storeAndPay {args : PaymentArgs} {id : String}
    (hparse : parsePaymentArgs task.rawArgs = .ok args) (hnone : w.rowOf a = none) :
    (paymentHandler rt cond).wp (paymentContract task a)
      (ask (.createOrGetPaymentRequest (ownRequest task a args id)) >>= fun answer =>
        Prog.ofExcept answer >>= fun record =>
          if record.actionRequestId ≠ a then
            ask (.getLatestPaymentResult record.id) >>= fun answer =>
              Prog.ofExcept answer >>= fun priorResult => .pure (.duplicate record priorResult)
          else payRequest rt task.config task.run task.spentMsat args record.id)
      (ActionEnds cond task a) w := by
  refine Handler.wp_bind (Handler.wp_perform fun w₁ hrely => ?_)
  have hnone₁ := hrely.1.trans hnone
  have hop : OpOk a w₁ (.createOrGetPaymentRequest (ownRequest task a args id)) := by
    refine ⟨rfl, fun request h => ?_, nofun⟩
    cases h
    rfl
  have hlooks : LooksUp task a (.createOrGetPaymentRequest (ownRequest task a args id)) := by
    rintro request ⟨⟩
    exact ⟨args, id, hparse, rfl⟩
  refine ⟨⟨stateOk_of_none hnone₁, hop, hlooks⟩, fun answer w₂ hstep => ?_⟩
  refine ⟨guarantee_of_step hop hstep.2, fun w₃ hrely => ?_⟩
  refine Handler.wp_bind (Handler.wp_ofExcept fun w₄ hrely' => ?_)
  have hrow : w₄.rowOf a = w₂.rowOf a := hrely'.1.trans hrely.1
  have hgrows : w₂.Grows w₄ := hrely.2.trans hrely'.2
  obtain ⟨hcond, hstep⟩ := hstep
  have hinserted (h : inserts w₁ (ownRequest task a args id) w₂) :
      Owns a (ownRequest task a args id) Unsent w₄ := by
    obtain ⟨haccepts, rfl⟩ := h
    have howner : (ownRequest task a args id).actionRequestId = a := rfl
    rw [Ledger.rowOf_insert, if_pos howner] at hrow
    exact ⟨_, hrow, rfl, rfl, rfl⟩
  cases answer with
  | error e =>
    rcases hstep with rfl | hinsert
    · exact actionEnds_error_of_none (hrow.trans hnone₁)
    · exact actionEnds_of_endsIn hparse ((hinserted hinsert).mono fun p hp => hp.stopped.halted)
  | ok record =>
    rcases hstep with ⟨row, hstored, rfl, rfl⟩ | ⟨hinsert, rfl⟩
    · have hother : row.owner ≠ a := by
        intro howner
        have hmem := (Ledger.stored_eq_some_iff.mp hstored).1
        have hown := Ledger.rowOf_eq_some_iff.mpr ⟨hmem, howner⟩
        rw [hnone₁] at hown
        cases hown
      dsimp only
      rw [if_pos (show row.record.actionRequestId ≠ a from hother)]
      exact wp_answerDuplicate (hrow.trans hnone₁)
        ⟨args, id, _, row, hparse, hcond, hstored, hother, hgrows⟩
    · have howner : ¬ (ownRequest task a args id).actionRequestId ≠ a := not_not.mpr rfl
      dsimp only
      rw [if_neg howner]
      exact Handler.wp_mono (fun w r h => actionEnds_of_endsIn hparse h)
        (wp_payRequest hparse (hinserted hinsert))

/-- A `payment.send` action keeps its contract, from a state with no row of its
own on. -/
theorem wp_executePaymentSendAction (hnone : w.rowOf a = none) :
    (paymentHandler rt cond).wp (paymentContract task a) (task.program rt a)
      (ActionEnds cond task a) w := by
  unfold PaymentTask.program executePaymentSendAction
  refine Handler.wp_bind (Handler.wp_ofExcept fun w₁ hrely => ?_)
  have hnone₁ := hrely.1.trans hnone
  cases hparse : parsePaymentArgs task.rawArgs with
  | error e => exact actionEnds_error_of_none hnone₁
  | ok args =>
    refine Handler.wp_bind (wp_ask_absent rfl rfl hnone₁ fun id w₂ hnone₂ _ => ?_)
    exact wp_storeAndPay hparse hnone₂

end Payment
end SecureAgnt

/-
The spend limits of one run.

`process_claimed_run` executes its actions in turn and carries from one to the
next what they have spent.  The run's own limit is checked against that sum; the
limit of the Cashu rail is compared with the single amount only.

`executedPayments_payable` says which payments a run can have executed, and
`run_limits_kept` for which limits and lists this is enough.
-/
import SecureAgnt.Payment.Idempotency
import SecureAgnt.Worker.LlmAction
import Mathlib.Algebra.Order.Group.Nat

namespace SecureAgnt
namespace Payment

open Policy (parseGrantSet)
open Worker (PaymentConfig RunLeaseRecord SkillAction WorkerConfig WorkerRuntime admitAction
  normalizeSkillAction sampleWorkerRuntime)

/-! ## The run -/

/-- What a run carries from action to action, with the results it has stored. -/
structure PaymentRunContext where
  spentMsat : Nat := 0
  results : List (String × PaymentOutcome) := []

/-- One action of a run: the gates, then the execution.  The bookkeeping of the
run's tables, which can only end it early, is left out. -/
def processPaymentAction (rt : PaymentRuntime) (worker : WorkerRuntime) (config : WorkerConfig)
    (run : RunLeaseRecord) (ctx : PaymentRunContext) (task : String × SkillAction) :
    PaymentProg PaymentRunContext :=
  let action := normalizeSkillAction task.2
  match admitAction worker config (parseGrantSet run.grantedCapabilities) action with
  | .error denial => .fail denial.message
  | .ok _ => do
    let outcome ← executePaymentSendAction rt config run ctx.spentMsat task.1 action.args
    .pure ⟨outcome.spentMsat ctx.spentMsat, (task.1, outcome) :: ctx.results⟩

/-- What the other runs do: they add rows and change their own. -/
def othersMove (tasks : List (String × SkillAction)) (w w' : Ledger) : Prop :=
  (∀ task ∈ tasks, w'.rowOf task.1 = w.rowOf task.1) ∧ w.Grows w'

abbrev PaymentRunState := Handler.LoopState Ledger PaymentRunContext (String × SkillAction)
  PaymentOp PaymentAns String

/-- The states a run reaches from its start, with other runs at work beside it. -/
def PaymentRunReaches (rt : PaymentRuntime) (worker : WorkerRuntime)
    (cond : Ledger → (op : PaymentOp) → PaymentAns op → Prop) (config : WorkerConfig)
    (run : RunLeaseRecord) (w : Ledger) (tasks : List (String × SkillAction))
    (st : PaymentRunState) : Prop :=
  Handler.LoopReaches ((paymentHandler rt cond).interfered (othersMove tasks)) (othersMove tasks)
    (processPaymentAction rt worker config run) (.start w {} tasks) st

/-! ## What a run has paid -/

/-- What a payment adds to the sum over the rails that `rail` picks. -/
def PaymentArgs.spends (rail : PaymentProvider → Bool) (args : PaymentArgs) : Nat :=
  if args.operation = .payInvoice ∧ rail args.parsedDestination.provider = true then
    args.amountMsat.getD 0
  else 0

def totalSpend (rail : PaymentProvider → Bool) (payments : List PaymentArgs) : Nat :=
  (payments.map (PaymentArgs.spends rail)).sum

def anyRail (_ : PaymentProvider) : Bool := true

def cashuRail (provider : PaymentProvider) : Bool := provider = .cashu

theorem spends_le_anyRail (rail : PaymentProvider → Bool) (args : PaymentArgs) :
    args.spends rail ≤ args.spends anyRail := by
  unfold PaymentArgs.spends
  split
  · rename_i h
    rw [if_pos ⟨h.1, rfl⟩]
  · exact Nat.zero_le _

theorem totalSpend_le_anyRail (rail : PaymentProvider → Bool) (payments : List PaymentArgs) :
    totalSpend rail payments ≤ totalSpend anyRail payments :=
  List.sum_le_sum fun args _ => spends_le_anyRail rail args

/-- The payment of an action that is recorded as executed. -/
def Ledger.executedPayment? (w : Ledger) (a : String) : Option PaymentArgs :=
  (w.rowOf a).bind fun row =>
    if row.progress.executed = true then some row.request.requestJson else none

def Ledger.executedPayments (w : Ledger) (tasks : List (String × SkillAction)) :
    List PaymentArgs := tasks.filterMap fun task => w.executedPayment? task.1

/-- The payment an action of the list asks for. -/
def payment? (task : String × SkillAction) : Option PaymentArgs :=
  (parsePaymentArgs (normalizeSkillAction task.2).args).toOption

theorem executedPayment?_eq_some_iff {w : Ledger} {a : String} {args : PaymentArgs} :
    w.executedPayment? a = some args ↔ ∃ row, w.rowOf a = some row ∧ row.progress.executed = true ∧
      row.request.requestJson = args := by
  unfold Ledger.executedPayment?
  rw [Option.bind_eq_some_iff]
  constructor
  · intro h
    obtain ⟨row, hrow, hsome⟩ := h
    split at hsome
    · rename_i hexecuted
      exact ⟨row, hrow, hexecuted, Option.some.inj hsome⟩
    · cases hsome
  · intro h
    obtain ⟨row, hrow, hexecuted, rfl⟩ := h
    exact ⟨row, hrow, if_pos hexecuted⟩

theorem executedPayment?_of_none {w : Ledger} {a : String} (h : w.rowOf a = none) :
    w.executedPayment? a = none := by
  unfold Ledger.executedPayment?
  rw [h]
  rfl

/-! ## Payments a run can have executed -/

/-- A selection of the list's payments, each key once and each `pay_invoice`
within the limit of its rail. -/
structure Payable (config : PaymentConfig) (tasks : List (String × SkillAction))
    (selection : List PaymentArgs) : Prop where
  listed : selection.Sublist (tasks.filterMap payment?)
  once : (selection.map (·.idempotencyKey)).Nodup
  allowed : ∀ args ∈ selection, args.operation = .payInvoice → RailAllows config args

def paymentTask (config : WorkerConfig) (run : RunLeaseRecord) (spentMsat : Nat)
    (task : String × SkillAction) : PaymentTask :=
  ⟨config, run, spentMsat, (normalizeSkillAction task.2).args⟩

/-- Every action of the list has kept its contract so far. -/
def RowsOk (config : WorkerConfig) (run : RunLeaseRecord) (tasks : List (String × SkillAction))
    (w : Ledger) : Prop :=
  ∀ task ∈ tasks, ∃ spent, StateOk (paymentTask config run spent task) task.1 w

section Payable

variable {config : WorkerConfig} {run : RunLeaseRecord} {tasks : List (String × SkillAction)}
  {w : Ledger}

theorem filterMap_sublist {α β : Type} {f g : α → Option β} {l : List α}
    (h : ∀ x ∈ l, ∀ y, f x = some y → g x = some y) : (l.filterMap f).Sublist (l.filterMap g) := by
  induction l with
  | nil => exact .slnil
  | cons x rest ih =>
    have ih := ih fun y hy => h y (List.mem_cons_of_mem _ hy)
    rw [List.filterMap_cons]
    cases hx : f x with
    | none => exact ih.trans (List.Sublist.filterMap g (List.sublist_cons_self x rest))
    | some y =>
      rw [List.filterMap_cons, h x List.mem_cons_self y hx]
      exact ih.cons_cons y

/-- The executed payment of an action is the one its arguments ask for, stored
under its key and allowed by its rail. -/
theorem executedPayment?_spec (hrows : RowsOk config run tasks w) {task : String × SkillAction}
    (htask : task ∈ tasks) {args : PaymentArgs} (hexec : w.executedPayment? task.1 = some args) :
    payment? task = some args ∧ (args.operation = .payInvoice → RailAllows config.payment args) ∧
      ∃ row, w.stored run.tenantId args.idempotencyKey = some row ∧ row.owner = task.1 := by
  obtain ⟨row, hrow, hexecuted, hargs⟩ := executedPayment?_eq_some_iff.mp hexec
  obtain ⟨spent, hstate⟩ := hrows task htask
  obtain ⟨args', id, hparse, hrequest, hinv⟩ := hstate row hrow
  obtain rfl : args' = args := by
    rw [← hargs, hrequest]
    rfl
  have hpaid : row.progress.paid = true := by simp [Progress.paid, hexecuted]
  have hpayment : payment? task = some args' := by
    show (parsePaymentArgs (paymentTask config run spent task).rawArgs).toOption = some args'
    rw [hparse]
    rfl
  obtain ⟨hmem, howner⟩ := Ledger.rowOf_eq_some_iff.mp hrow
  refine ⟨hpayment, fun hpay => (hinv.cleared hpay hpaid).2, row, ?_, howner⟩
  refine Ledger.stored_eq_some_iff.mpr ⟨hmem, ?_⟩
  rw [LedgerRow.tenantKey, hrequest]
  rfl

theorem executedPayments_once (hids : (tasks.map Prod.fst).Nodup)
    (hrows : RowsOk config run tasks w) :
    ((w.executedPayments tasks).map (·.idempotencyKey)).Nodup := by
  unfold Ledger.executedPayments
  induction tasks with
  | nil => exact List.nodup_nil
  | cons task rest ih =>
    rw [List.map_cons, List.nodup_cons] at hids
    have ih := ih hids.2 fun t ht => hrows t (List.mem_cons_of_mem _ ht)
    rw [List.filterMap_cons]
    cases hexec : w.executedPayment? task.1 with
    | none => exact ih
    | some args =>
      refine List.nodup_cons.mpr ⟨fun hmem => hids.1 ?_, ih⟩
      -- two executed payments under one key are in one row, so of one action
      obtain ⟨args', hmem', hkey⟩ := List.mem_map.mp hmem
      obtain ⟨task', htask', hexec'⟩ := List.mem_filterMap.mp hmem'
      obtain ⟨-, -, row, hstored, howner⟩ := executedPayment?_spec hrows List.mem_cons_self hexec
      obtain ⟨-, -, row', hstored', howner'⟩ :=
        executedPayment?_spec hrows (List.mem_cons_of_mem _ htask') hexec'
      rw [hkey, hstored] at hstored'
      cases hstored'
      rw [← howner, howner']
      exact List.mem_map_of_mem htask'

theorem executedPayments_payable (hids : (tasks.map Prod.fst).Nodup)
    (hrows : RowsOk config run tasks w) :
    Payable config.payment tasks (w.executedPayments tasks) where
  listed := filterMap_sublist fun task htask args hexec => (executedPayment?_spec hrows htask hexec).1
  once := executedPayments_once hids hrows
  allowed := by
    intro args hargs
    obtain ⟨task, htask, hexec⟩ := List.mem_filterMap.mp hargs
    exact (executedPayment?_spec hrows htask hexec).2.1

end Payable

/-! ## Along the run -/

/-- In every state of a run every action keeps its contract, and what has been
paid is within the run's limit as far as 64 bits count it. -/
structure SpendOk (config : WorkerConfig) (run : RunLeaseRecord)
    (tasks : List (String × SkillAction)) (w : Ledger) : Prop where
  rows : RowsOk config run tasks w
  within : ∀ limit, config.payment.maxSpendMsatPerRun = some limit →
    min (totalSpend anyRail (w.executedPayments tasks)) u64Max ≤ limit

/-- The action was answered as executed. -/
def PaymentRunContext.Executed (ctx : PaymentRunContext) (a : String) : Prop :=
  ∃ id spent execution, (a, .executed id spent execution) ∈ ctx.results

/-- Payments are executed by the actions answered so, and by no other. -/
structure AnswersOk (tasks : List (String × SkillAction)) (ctx : PaymentRunContext) (w : Ledger) :
    Prop where
  executed : ∀ task ∈ tasks, (w.executedPayment? task.1).isSome = true → ctx.Executed task.1
  duplicate : ∀ a prior result, (a, .duplicate prior result) ∈ ctx.results →
    w.executedPayment? a = none

/-- Between two actions the run carries what it has paid. -/
structure RunInv (config : WorkerConfig) (run : RunLeaseRecord)
    (tasks : List (String × SkillAction)) (ctx : PaymentRunContext)
    (rest : List (String × SkillAction)) (w : Ledger) : Prop where
  spend : SpendOk config run tasks w
  answers : AnswersOk tasks ctx w
  suffix : rest <:+ tasks
  fresh : ∀ task ∈ rest, w.rowOf task.1 = none
  spent : ctx.spentMsat = min (totalSpend anyRail (w.executedPayments tasks)) u64Max
  results : ∀ x ∈ ctx.results, x.1 ∈ tasks.map Prod.fst ∧ x.1 ∉ rest.map Prod.fst

section Run

variable {config : WorkerConfig} {run : RunLeaseRecord} {tasks rest : List (String × SkillAction)}
  {ctx : PaymentRunContext} {w w' : Ledger} {task : String × SkillAction}

theorem executedPayment?_congr {a : String} (h : w'.rowOf a = w.rowOf a) :
    w'.executedPayment? a = w.executedPayment? a := by
  unfold Ledger.executedPayment?
  rw [h]

theorem stateOk_congr {t : PaymentTask} {a : String} (h : w'.rowOf a = w.rowOf a)
    (hstate : StateOk t a w) : StateOk t a w' := fun row hrow => hstate row (h ▸ hrow)

/-- The invariant is about the run's own rows. -/
theorem RunInv.of_othersMove (h : othersMove tasks w w') (hinv : RunInv config run tasks ctx rest w) :
    RunInv config run tasks ctx rest w' := by
  have hsame : ∀ t ∈ tasks, w'.executedPayment? t.1 = w.executedPayment? t.1 :=
    fun t ht => executedPayment?_congr (h.1 t ht)
  have hpayments : w'.executedPayments tasks = w.executedPayments tasks :=
    List.filterMap_congr hsame
  refine ⟨⟨fun t ht => ?_, ?_⟩, ⟨fun t ht => ?_, fun a prior result hmem => ?_⟩, hinv.suffix,
    fun t ht => ?_, ?_, hinv.results⟩
  · obtain ⟨spent, hstate⟩ := hinv.spend.rows t ht
    exact ⟨spent, stateOk_congr (h.1 t ht) hstate⟩
  · rw [hpayments]
    exact hinv.spend.within
  · rw [hsame t ht]
    exact hinv.answers.executed t ht
  · obtain ⟨t, ht, rfl⟩ := List.mem_map.mp (hinv.results _ hmem).1
    rw [hsame t ht]
    exact hinv.answers.duplicate _ prior result hmem
  · rw [h.1 t (hinv.suffix.subset ht)]
    exact hinv.fresh t ht
  · rw [hpayments]
    exact hinv.spent

theorem totalSpend_executedPayments (rail : PaymentProvider → Bool) :
    totalSpend rail (w.executedPayments tasks) =
      (tasks.map fun t => ((w.executedPayment? t.1).map (PaymentArgs.spends rail)).getD 0).sum := by
  unfold totalSpend Ledger.executedPayments
  induction tasks with
  | nil => rfl
  | cons t rest ih =>
    rw [List.filterMap_cons, List.map_cons, List.sum_cons, ← ih]
    cases w.executedPayment? t.1 with
    | none => exact (Nat.zero_add _).symm
    | some args => rfl

/-- While an action runs, the rows of the others stay as they were. -/
def OthersKept (tasks : List (String × SkillAction)) (a : String) (w w' : Ledger) : Prop :=
  ∀ task ∈ tasks, task.1 ≠ a → w'.rowOf task.1 = w.rowOf task.1

/-- A run in which one action is under way. -/
structure Underway (config : WorkerConfig) (run : RunLeaseRecord)
    (tasks : List (String × SkillAction)) (ctx : PaymentRunContext) (task : String × SkillAction)
    (rest : List (String × SkillAction)) (w w' : Ledger) : Prop where
  ids : (tasks.map Prod.fst).Nodup
  before : RunInv config run tasks ctx (task :: rest) w
  kept : OthersKept tasks task.1 w w'
  state : StateOk (paymentTask config run ctx.spentMsat task) task.1 w'

namespace Underway

theorem mem (h : Underway config run tasks ctx task rest w w') : task ∈ tasks :=
  h.before.suffix.subset List.mem_cons_self

theorem spent_le (h : Underway config run tasks ctx task rest w w') : ctx.spentMsat ≤ u64Max := by
  rw [h.before.spent]
  exact Nat.min_le_right _ _

theorem notMem_rest (h : Underway config run tasks ctx task rest w w') :
    task.1 ∉ rest.map Prod.fst := by
  have hnodup : ((task :: rest).map Prod.fst).Nodup :=
    h.ids.sublist (h.before.suffix.sublist.map Prod.fst)
  exact (List.nodup_cons.mp hnodup).1

theorem other_or_self (h : Underway config run tasks ctx task rest w w') {t : String × SkillAction}
    (ht : t ∈ tasks) : t = task ∨ (t.1 ≠ task.1 ∧ w'.rowOf t.1 = w.rowOf t.1) := by
  by_cases hid : t.1 = task.1
  · exact .inl (List.inj_on_of_nodup_map h.ids ht h.mem hid)
  · exact .inr ⟨hid, h.kept t ht hid⟩

/-- The action adds its own payment to what was paid before. -/
theorem totalSpend_eq (h : Underway config run tasks ctx task rest w w')
    (rail : PaymentProvider → Bool) :
    totalSpend rail (w'.executedPayments tasks) = totalSpend rail (w.executedPayments tasks) +
      ((w'.executedPayment? task.1).map (PaymentArgs.spends rail)).getD 0 := by
  have hfind : Table.find Prod.fst tasks task.1 = some task :=
    (Table.find_eq_some_iff h.ids).mpr ⟨h.mem, rfl⟩
  have hbefore : w.executedPayment? task.1 = none :=
    executedPayment?_of_none (h.before.fresh task List.mem_cons_self)
  have hothers : (Table.others Prod.fst tasks task.1).map
        (fun t => ((w'.executedPayment? t.1).map (PaymentArgs.spends rail)).getD 0) =
      (Table.others Prod.fst tasks task.1).map
        (fun t => ((w.executedPayment? t.1).map (PaymentArgs.spends rail)).getD 0) := by
    refine List.map_congr_left fun t ht => ?_
    obtain ⟨ht, hid⟩ := Table.mem_others.mp ht
    rw [executedPayment?_congr (h.kept t ht hid)]
  simp only [totalSpend_executedPayments]
  rw [Table.sum_eq_find_add_others _ h.ids, hfind, hothers,
    Table.sum_eq_find_add_others (k := task.1) (fun t =>
      ((w.executedPayment? t.1).map (PaymentArgs.spends rail)).getD 0) h.ids, hfind]
  simp only [Option.map_some, Option.getD_some, hbefore, Option.map_none, Option.getD_none,
    Nat.zero_add]
  exact Nat.add_comm _ _

/-- An executed payment fitted the run's limit when it was checked. -/
theorem own_within (h : Underway config run tasks ctx task rest w w') {args : PaymentArgs}
    (hexec : w'.executedPayment? task.1 = some args) {limit : Nat}
    (hlimit : config.payment.maxSpendMsatPerRun = some limit) :
    saturatingAdd ctx.spentMsat (args.spends anyRail) ≤ limit := by
  obtain ⟨row, hrow, hexecuted, hargs⟩ := executedPayment?_eq_some_iff.mp hexec
  obtain ⟨args', id, hparse, hrequest, hinv⟩ := h.state row hrow
  obtain rfl : args' = args := by
    rw [← hargs, hrequest]
    rfl
  have hpaid : row.progress.paid = true := by simp [Progress.paid, hexecuted]
  unfold PaymentArgs.spends
  split
  · rename_i hpay
    obtain ⟨amount, hamount⟩ := exists_amount_of_requires hparse (by rw [hpay.1]; rfl)
    rw [hamount]
    exact (hinv.cleared hpay.1 hpaid).1.run limit amount hlimit hamount
  · have hspent := h.before.spend.within limit hlimit
    rw [← h.before.spent] at hspent
    exact Nat.le_trans (Nat.min_le_left _ _) hspent

theorem spendOk (h : Underway config run tasks ctx task rest w w') :
    SpendOk config run tasks w' := by
  refine ⟨fun t ht => ?_, fun limit hlimit => ?_⟩
  · rcases h.other_or_self ht with rfl | ⟨-, hsame⟩
    · exact ⟨ctx.spentMsat, h.state⟩
    · obtain ⟨spent, hstate⟩ := h.before.spend.rows t ht
      exact ⟨spent, stateOk_congr hsame hstate⟩
  · rw [h.totalSpend_eq]
    cases hexec : w'.executedPayment? task.1 with
    | none => exact h.before.spend.within limit hlimit
    | some args =>
      have hown := h.own_within hexec hlimit
      rw [h.before.spent, saturatingAdd_min] at hown
      exact hown

/-- The answers given before stay right. -/
theorem duplicate_kept (h : Underway config run tasks ctx task rest w w') {a : String}
    {prior : PaymentRequestRecord} {result : Option PaymentResult}
    (hmem : (a, .duplicate prior result) ∈ ctx.results) : w'.executedPayment? a = none := by
  obtain ⟨hlisted, hdone⟩ := h.before.results _ hmem
  obtain ⟨t, ht, rfl⟩ := List.mem_map.mp hlisted
  have hid : t.1 ≠ task.1 := by
    intro hid
    exact hdone (hid ▸ List.mem_cons_self)
  rw [executedPayment?_congr (h.kept t ht hid)]
  exact h.before.answers.duplicate _ prior result hmem

/-- An action that ends without a payment of its own leaves the answers right. -/
theorem answersOk (h : Underway config run tasks ctx task rest w w')
    (hnone : w'.executedPayment? task.1 = none) : AnswersOk tasks ctx w' := by
  refine ⟨fun t ht hsome => ?_, fun a prior result hmem => h.duplicate_kept hmem⟩
  rcases h.other_or_self ht with rfl | ⟨-, hsame⟩
  · rw [hnone] at hsome
    cases hsome
  · rw [executedPayment?_congr hsame] at hsome
    exact h.before.answers.executed t ht hsome

/-- What the run carries on when its sum and its answers are right. -/
theorem runInv (h : Underway config run tasks ctx task rest w w') {outcome : PaymentOutcome}
    (hanswers : AnswersOk tasks ⟨outcome.spentMsat ctx.spentMsat, (task.1, outcome) :: ctx.results⟩
      w')
    (hspent : outcome.spentMsat ctx.spentMsat =
      saturatingAdd ctx.spentMsat (((w'.executedPayment? task.1).map
        (PaymentArgs.spends anyRail)).getD 0)) :
    RunInv config run tasks ⟨outcome.spentMsat ctx.spentMsat, (task.1, outcome) :: ctx.results⟩ rest
      w' := by
  refine ⟨h.spendOk, hanswers, (List.suffix_cons task rest).trans h.before.suffix, fun t ht => ?_,
    ?_, fun x hx => ?_⟩
  · have hid : t.1 ≠ task.1 := by
      intro hid
      exact h.notMem_rest (hid ▸ List.mem_map_of_mem ht)
    have ht' : t ∈ task :: rest := List.mem_cons_of_mem _ ht
    rw [h.kept t (h.before.suffix.subset ht') hid]
    exact h.before.fresh t ht'
  · show outcome.spentMsat ctx.spentMsat = _
    rw [hspent, h.totalSpend_eq, h.before.spent, saturatingAdd_min]
  · rcases List.mem_cons.mp hx with rfl | hx
    · exact ⟨List.mem_map_of_mem h.mem, h.notMem_rest⟩
    · obtain ⟨hlisted, hdone⟩ := h.before.results x hx
      exact ⟨hlisted, fun hrest => hdone (List.mem_cons_of_mem _ hrest)⟩

end Underway

/-- The files of the outbox are written. -/
def outboxWrites (_ : Ledger) : (op : PaymentOp) → PaymentAns op → Prop
  | .writeOutbox .., answer => answer = .ok ()
  | .persistArtifact _, answer => answer = .ok ()
  | _, _ => True

theorem not_outboxCanFail : ¬ OutboxCanFail outboxWrites := by
  intro hx
  rcases hx with ⟨w, tenantId, provider, execution, e, h⟩ | ⟨w, runId, e, h⟩
  · cases h
  · cases h

/-- An action that ends with an error has executed no payment. -/
theorem Underway.answersOk_error {e : String} (h : Underway config run tasks ctx task rest w w')
    (hend : ActionEnds outboxWrites (paymentTask config run ctx.spentMsat task) task.1 w' (.error e)) :
    AnswersOk tasks ctx w' := by
  refine h.answersOk ?_
  cases hexec : w'.executedPayment? task.1 with
  | none => rfl
  | some args =>
    obtain ⟨row, hrow, hexecuted, -⟩ := executedPayment?_eq_some_iff.mp hexec
    exact absurd (hend.2 row hrow hexecuted) not_outboxCanFail

/-- An action that returns leaves the run with what it has paid. -/
theorem Underway.runInv_ok {cond : Ledger → (op : PaymentOp) → PaymentAns op → Prop}
    {outcome : PaymentOutcome} (h : Underway config run tasks ctx task rest w w')
    (hend : ActionEnds cond (paymentTask config run ctx.spentMsat task) task.1 w' (.ok outcome)) :
    RunInv config run tasks ⟨outcome.spentMsat ctx.spentMsat, (task.1, outcome) :: ctx.results⟩ rest
      w' := by
  cases outcome with
  | duplicate prior result =>
    have hnone := executedPayment?_of_none hend.2.1
    have hanswers := h.answersOk hnone
    refine h.runInv ⟨fun t ht hsome => ?_, fun a prior' result' hmem => ?_⟩ ?_
    · obtain ⟨id, spent, execution, hmem⟩ := hanswers.executed t ht hsome
      exact ⟨id, spent, execution, List.mem_cons_of_mem _ hmem⟩
    · rcases List.mem_cons.mp hmem with heq | hmem
      · cases heq
        exact hnone
      · exact h.duplicate_kept hmem
    · rw [hnone]
      exact (saturatingAdd_zero h.spent_le).symm
  | executed id spent execution =>
    obtain ⟨-, args, -, hspent, p, hrow, hexecuted⟩ := hend
    have hexec : w'.executedPayment? task.1 = some args :=
      executedPayment?_eq_some_iff.mpr ⟨_, hrow, hexecuted, rfl⟩
    refine h.runInv ⟨fun t ht hsome => ?_, fun a prior' result' hmem => ?_⟩ ?_
    · rcases h.other_or_self ht with rfl | ⟨-, hsame⟩
      · exact ⟨id, spent, execution, List.mem_cons_self⟩
      · rw [executedPayment?_congr hsame] at hsome
        obtain ⟨id', spent', execution', hmem⟩ := h.before.answers.executed t ht hsome
        exact ⟨id', spent', execution', List.mem_cons_of_mem _ hmem⟩
    · rcases List.mem_cons.mp hmem with heq | hmem
      · cases heq
      · exact h.duplicate_kept hmem
    · rw [hexec]
      show spent = saturatingAdd ctx.spentMsat (args.spends anyRail)
      rw [hspent]
      show spentAfter args ctx.spentMsat = _
      unfold spentAfter PaymentArgs.spends anyRail
      by_cases hpay : args.operation = .payInvoice
      · simp only [hpay, if_true, true_and]
      · simp only [hpay, if_false, false_and]
        exact (saturatingAdd_zero h.spent_le).symm

/-- One action of the run. -/
theorem wp_processPaymentAction {rt : PaymentRuntime} {worker : WorkerRuntime}
    (hids : (tasks.map Prod.fst).Nodup) (hinv : RunInv config run tasks ctx (task :: rest) w) :
    ((paymentHandler rt outboxWrites).interfered (othersMove tasks)).wp
      (.alone fun w _ => SpendOk config run tasks w)
      (processPaymentAction rt worker config run ctx task) (fun w r => match r with
        | .ok ctx' => RunInv config run tasks ctx' rest w
        | .error _ => SpendOk config run tasks w ∧ AnswersOk tasks ctx w) w := by
  have htask : task ∈ tasks := hinv.suffix.subset List.mem_cons_self
  unfold processPaymentAction
  dsimp only
  split
  · exact Handler.wp_fail_alone ⟨hinv.spend, hinv.answers⟩
  · have hunder {w'} (hkept : OthersKept tasks task.1 w w')
        (hstate : StateOk (paymentTask config run ctx.spentMsat task) task.1 w') :
        Underway config run tasks ctx task rest w w' := ⟨hids, hinv, hkept, hstate⟩
    have haction : (paymentHandler rt outboxWrites).wp
        (paymentContract (paymentTask config run ctx.spentMsat task) task.1)
        (executePaymentSendAction rt config run ctx.spentMsat task.1
          (normalizeSkillAction task.2).args)
        (ActionEnds outboxWrites (paymentTask config run ctx.spentMsat task) task.1) w :=
      wp_executePaymentSendAction (hinv.fresh task List.mem_cons_self)
    refine Handler.wp_bind (Handler.wp_mono ?_ (Handler.wp_framed
      (F := fun w' => OthersKept tasks task.1 w w') ?_ ?_ ?_ ?_ haction))
    · rintro w' (e | outcome) ⟨hkept, hend⟩
      · have h := hunder hkept hend.1
        exact ⟨h.spendOk, h.answersOk_error hend⟩
      · exact Handler.wp_pure_alone ((hunder hkept hend.1).runInv_ok hend)
    · intro w₁ w₂ hkept hmove
      exact ⟨⟨hmove.1 task htask, hmove.2⟩, fun t ht hid => (hmove.1 t ht).trans (hkept t ht hid)⟩
    · intro w₁ w₂ hkept hguar
      exact fun t ht hid => (hguar.1 t.1 hid).trans (hkept t ht hid)
    · exact fun w₁ op hkept hsafe => (hunder hkept hsafe.1).spendOk
    · exact fun t _ _ => rfl

theorem runInv_start (hfresh : ∀ t ∈ tasks, w.rowOf t.1 = none) :
    RunInv config run tasks {} tasks w := by
  have hnone : ∀ t ∈ tasks, w.executedPayment? t.1 = none :=
    fun t ht => executedPayment?_of_none (hfresh t ht)
  have hpayments : w.executedPayments tasks = [] := List.filterMap_eq_nil_iff.mpr hnone
  have hzero : min (totalSpend anyRail (w.executedPayments tasks)) u64Max = 0 := by
    rw [hpayments]
    exact Nat.min_eq_left (Nat.zero_le _)
  refine ⟨⟨fun t ht => ⟨0, stateOk_of_none (hfresh t ht)⟩, fun limit _ => ?_⟩,
    ⟨fun t ht hsome => ?_, fun a prior result hmem => ?_⟩, List.suffix_refl _, hfresh, hzero.symm,
    fun x hx => ?_⟩
  · rw [hzero]
    exact Nat.zero_le _
  · rw [hnone t ht] at hsome
    cases hsome
  · cases hmem
  · cases hx

theorem loopOk_of_runReaches {rt : PaymentRuntime} {worker : WorkerRuntime} {st : PaymentRunState}
    (hids : (tasks.map Prod.fst).Nodup) (hfresh : ∀ t ∈ tasks, w.rowOf t.1 = none)
    (hreach : PaymentRunReaches rt worker outboxWrites config run w tasks st) :
    Handler.LoopOk ((paymentHandler rt outboxWrites).interfered (othersMove tasks))
      (fun _ _ w _ => SpendOk config run tasks w) (RunInv config run tasks)
      (fun ctx w => SpendOk config run tasks w ∧ AnswersOk tasks ctx w) st := by
  refine Handler.loopOk_of_reaches ?_ ?_ (runInv_start hfresh) hreach
  · exact fun ctx rest w w' hinv hmove => hinv.of_othersMove hmove
  · intro ctx task rest w hinv
    refine Handler.wp_mono ?_ (wp_processPaymentAction hids hinv)
    intro w' r h
    cases r with
    | error e => exact h
    | ok ctx' => exact h

end Run

/-! ## The limits -/

/-- The limits that the checks of single actions are enough for.  The run's limit
is missed only by a sum that 64 bits do not hold.  The limit of the Cashu rail is
kept when the run's is no higher, or when no selection of the list's payments,
each within the limit, is above it. -/
structure LimitsSuffice (config : PaymentConfig) (tasks : List (String × SkillAction)) : Prop where
  run : ∀ limit, config.maxSpendMsatPerRun = some limit → limit < u64Max ∨
    ∀ selection, Payable config tasks selection → totalSpend anyRail selection ≤ limit
  cashu : ∀ limit, config.cashuMaxSpendMsatPerRun = some limit →
    (∃ runLimit, config.maxSpendMsatPerRun = some runLimit ∧ runLimit ≤ limit) ∨
    ∀ selection, Payable config tasks selection → totalSpend cashuRail selection ≤ limit

/-- What has been executed is within both limits, and between two actions it is
what the actions answered as executed have paid. -/
structure KeepsLimits (config : PaymentConfig) (tasks : List (String × SkillAction))
    (st : PaymentRunState) : Prop where
  run : ∀ limit, config.maxSpendMsatPerRun = some limit →
    totalSpend anyRail (st.world.executedPayments tasks) ≤ limit
  cashu : ∀ limit, config.cashuMaxSpendMsatPerRun = some limit →
    totalSpend cashuRail (st.world.executedPayments tasks) ≤ limit
  answers : st.current = none → AnswersOk tasks st.ctx st.world

/-- A run whose limits suffice for its list keeps them throughout. -/
theorem run_limits_kept (rt : PaymentRuntime) (worker : WorkerRuntime) (config : WorkerConfig)
    (run : RunLeaseRecord) (tasks : List (String × SkillAction)) (w : Ledger)
    (hids : (tasks.map Prod.fst).Nodup) (hfresh : ∀ task ∈ tasks, w.rowOf task.1 = none)
    (hlimits : LimitsSuffice config.payment tasks) (st : PaymentRunState)
    (hreach : PaymentRunReaches rt worker outboxWrites config run w tasks st) :
    KeepsLimits config.payment tasks st := by
  have hok := loopOk_of_runReaches hids hfresh hreach
  have hspend : SpendOk config run tasks st.world :=
    hok.holds (fun _ _ _ hinv => hinv.spend) (fun _ _ hend => hend.1) fun _ _ _ _ hsafe => hsafe
  have hpayable := executedPayments_payable hids hspend.rows
  have hrun : ∀ limit, config.payment.maxSpendMsatPerRun = some limit →
      totalSpend anyRail (st.world.executedPayments tasks) ≤ limit := by
    intro limit hlimit
    rcases hlimits.run limit hlimit with hsmall | hselections
    · have hwithin := hspend.within limit hlimit
      omega
    · exact hselections _ hpayable
  refine ⟨hrun, fun limit hlimit => ?_, fun hcurrent => ?_⟩
  · rcases hlimits.cashu limit hlimit with ⟨runLimit, hset, hle⟩ | hselections
    · exact Nat.le_trans (totalSpend_le_anyRail _ _) (Nat.le_trans (hrun runLimit hset) hle)
    · exact hselections _ hpayable
  · unfold Handler.LoopOk at hok
    rw [hcurrent] at hok
    cases hfailed : st.failed with
    | none =>
      rw [hfailed] at hok
      exact hok.answers
    | some e =>
      rw [hfailed] at hok
      exact hok.2

/-- A worker with one mint and a Cashu limit of 10 for each run. -/
def cappedMintConfig (runLimit : Option Nat) : WorkerConfig where
  workerId := "worker-1"
  llm := Llm.sampleConfig
  payment :=
    { cashuEnabled := true
      cashuMintUris := [("main", "https://a.example")]
      cashuHttpEnabled := true
      cashuRoute := { healthFailThreshold := 0 }
      maxSpendMsatPerRun := runLimit
      cashuMaxSpendMsatPerRun := some 10 }

def cappedMintRun : RunLeaseRecord :=
  { samplePaymentRun with
    grantedCapabilities :=
      .arr [.obj [("capability", .str "payment.send"), ("scope", .str "cashu:main")]] }

def cappedMintTask (a key : String) : String × SkillAction :=
  (a, { actionId := a, actionType := "payment.send",
        args := samplePaymentArgs "cashu:main" key 10 false, justification := "pay" })

def cappedMintTasks : List (String × SkillAction) :=
  [cappedMintTask "act-1" "k1", cappedMintTask "act-2" "k2"]

def cappedMintRequest (a id key : String) : PaymentRequest :=
  newPaymentRequest cappedMintRun a id
    ⟨"cashu:main", ⟨.cashu, "main"⟩, .payInvoice, key, some 10, false, .str "lnbc1", .null⟩

/-- The ledger after the first payment. -/
def cappedMintLedger : Ledger :=
  (((Ledger.empty.insert (cappedMintRequest "act-1" "pay-1" "k1") (accepts_empty _)).send "pay-1"
    [⟨"https://a.example", true, true⟩]).modify "pay-1"
      (·.addResult .executed)).modify "pay-1" (·.setStatus .executed)

theorem cappedMintLedger_accepts :
    cappedMintLedger.Accepts (cappedMintRequest "act-2" "pay-2" "k2") := by
  refine ⟨?_, ?_, ?_⟩ <;> decide

theorem othersMove_refl (tasks : List (String × SkillAction)) (w : Ledger) :
    othersMove tasks w w := ⟨fun _ _ => rfl, w.grows_refl⟩

/-- Two payments of 10 over a rail whose limit for the run is 10. -/
theorem cashu_limit_overrun :
    ¬ ∀ st, PaymentRunReaches samplePaymentRuntime sampleWorkerRuntime anyStep
        (cappedMintConfig none) cappedMintRun .empty cappedMintTasks st →
      KeepsLimits (cappedMintConfig none).payment cappedMintTasks st := by
  intro h
  have hquiet := othersMove_refl cappedMintTasks
  have hstart : PaymentRunReaches samplePaymentRuntime sampleWorkerRuntime anyStep
      (cappedMintConfig none) cappedMintRun .empty cappedMintTasks
      ⟨.empty, {}, some (cappedMintTask "act-1" "k1",
        processPaymentAction samplePaymentRuntime sampleWorkerRuntime (cappedMintConfig none)
          cappedMintRun {} (cappedMintTask "act-1" "k1")), [cappedMintTask "act-2" "k2"], none⟩ :=
    .tail .refl .start
  have hid := hstart.then_call "pay-1" .empty ⟨_, hquiet _, trivial, trivial, .direct true, rfl⟩
  have hstored := hid.then_call
    (.ok { cappedMintRequest "act-1" "pay-1" "k1" with status := .requested })
    (Ledger.empty.insert (cappedMintRequest "act-1" "pay-1" "k1") (accepts_empty _))
    ⟨_, hquiet _, trivial, .inr ⟨⟨_, rfl⟩, rfl⟩⟩
  have hsent := hstored.then_call (.ok (200, "")) _ ⟨_, hquiet _, trivial, trivial, .direct true, rfl⟩
  have hresult := hsent.then_call (.ok ()) _ ⟨_, hquiet _, trivial, trivial, .direct true, rfl⟩
  have hmarked := hresult.then_call (.ok ()) cappedMintLedger
    ⟨_, hquiet _, trivial, trivial, .direct true, rfl⟩
  have houtbox := hmarked.then_call (.ok ()) _ ⟨_, hquiet _, trivial, trivial, .direct true, rfl⟩
  have hfile := houtbox.then_call (.ok ()) _ ⟨_, hquiet _, trivial, trivial, .direct true, rfl⟩
  -- the second action starts with 10 spent, which its rail does not look at
  have hnext := (hfile.tail .finish).tail .start
  have hid' := Handler.LoopReaches.then_call hnext "pay-2" cappedMintLedger
    ⟨_, hquiet _, trivial, trivial, .direct true, rfl⟩
  have hstored' := hid'.then_call
    (.ok { cappedMintRequest "act-2" "pay-2" "k2" with status := .requested })
    (cappedMintLedger.insert (cappedMintRequest "act-2" "pay-2" "k2") cappedMintLedger_accepts)
    ⟨_, hquiet _, trivial, .inr ⟨⟨_, rfl⟩, rfl⟩⟩
  have hsent' := hstored'.then_call (.ok (200, "")) _ ⟨_, hquiet _, trivial, trivial, .direct true, rfl⟩
  have hresult' := hsent'.then_call (.ok ()) _ ⟨_, hquiet _, trivial, trivial, .direct true, rfl⟩
  exact absurd ((h _ hresult').cashu 10 rfl) (by decide)

/-- With a limit of 10 for the run as a whole both limits are kept. -/
theorem run_limits_kept_cappedMint :
    totalSpend cashuRail (cappedMintLedger.executedPayments cappedMintTasks) ≤ 10 := by
  have hquiet := othersMove_refl cappedMintTasks
  have hstart : PaymentRunReaches samplePaymentRuntime sampleWorkerRuntime outboxWrites
      (cappedMintConfig (some 10)) cappedMintRun .empty cappedMintTasks
      ⟨.empty, {}, some (cappedMintTask "act-1" "k1",
        processPaymentAction samplePaymentRuntime sampleWorkerRuntime (cappedMintConfig (some 10))
          cappedMintRun {} (cappedMintTask "act-1" "k1")), [cappedMintTask "act-2" "k2"], none⟩ :=
    .tail .refl .start
  have hid := hstart.then_call "pay-1" .empty ⟨_, hquiet _, trivial, trivial, .direct true, rfl⟩
  have hstored := hid.then_call
    (.ok { cappedMintRequest "act-1" "pay-1" "k1" with status := .requested })
    (Ledger.empty.insert (cappedMintRequest "act-1" "pay-1" "k1") (accepts_empty _))
    ⟨_, hquiet _, trivial, .inr ⟨⟨_, rfl⟩, rfl⟩⟩
  have hsent := hstored.then_call (.ok (200, "")) _ ⟨_, hquiet _, trivial, trivial, .direct true, rfl⟩
  have hresult := hsent.then_call (.ok ()) _ ⟨_, hquiet _, trivial, trivial, .direct true, rfl⟩
  have hmarked := hresult.then_call (.ok ()) cappedMintLedger
    ⟨_, hquiet _, trivial, trivial, .direct true, rfl⟩
  have hlimits : LimitsSuffice (cappedMintConfig (some 10)).payment cappedMintTasks := by
    refine ⟨fun limit hlimit => .inl ?_, fun limit hlimit => .inl ⟨10, rfl, ?_⟩⟩
    · cases hlimit
      decide
    · cases hlimit
      exact Nat.le_refl _
  exact (run_limits_kept samplePaymentRuntime sampleWorkerRuntime (cappedMintConfig (some 10))
    cappedMintRun cappedMintTasks .empty (by decide) (fun _ _ => rfl) hlimits _ hmarked).cashu 10 rfl

end Payment
end SecureAgnt

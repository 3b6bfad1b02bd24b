/-
The spend budgets of a tenant and of an agent.

An action reads the sum of the executed payments of its scope, pays if its amount
still fits, and marks its row executed afterwards.  What it reads is what has been
paid only if every payment made before is marked by then, and what it read stays
true only if nobody else of the scope pays before it is done.  `budget_kept`
proves the budget of every run whose reads are of this kind, for every
interleaving.
-/
import SecureAgnt.Payment.Idempotency

namespace SecureAgnt
namespace Payment

open Worker (PaymentConfig RunLeaseRecord WorkerConfig)

/-! ## What a scope has paid -/

def SpendScope.covers (run : RunLeaseRecord) : SpendScope → Bool
  | .tenant tenantId => run.tenantId == tenantId
  | .agent tenantId agentId => run.tenantId == tenantId && run.agentId == agentId

def SpendScope.limit (config : PaymentConfig) : SpendScope → Option Nat
  | .tenant _ => config.maxSpendMsatPerTenant
  | .agent .. => config.maxSpendMsatPerAgent

namespace LedgerRow

def amount (row : LedgerRow) : Nat := row.request.requestJson.amountMsat.getD 0

def countsFor (row : LedgerRow) (scope : SpendScope) : Bool :=
  row.inScope scope && row.request.operation = .payInvoice

/-- What the row adds to the payments of a scope. -/
def share (scope : SpendScope) (row : LedgerRow) : Nat :=
  if row.countsFor scope && row.progress.paid then row.amount else 0

/-- The row's action has read the scope's sum and not marked its row yet. -/
def IsChecking (row : LedgerRow) (scope : SpendScope) : Prop :=
  row.countsFor scope = true ∧ row.progress.status = .requested ∧
    ∃ total, (scope, total) ∈ row.progress.readings

end LedgerRow

namespace Ledger

/-- The amount of all `pay_invoice` payments of a scope that were made. -/
def paidTotal (w : Ledger) (scope : SpendScope) : Nat := (w.rows.map (LedgerRow.share scope)).sum

def paidByOthers (w : Ledger) (scope : SpendScope) (id : String) : Nat :=
  ((Table.others LedgerRow.id w.rows id).map (LedgerRow.share scope)).sum

variable {w : Ledger} {scope : SpendScope} {row r : LedgerRow} {f : Progress → Progress}

theorem paidTotal_eq (hrow : row ∈ w.rows) :
    w.paidTotal scope = row.share scope + w.paidByOthers scope row.id := by
  have hfind : Table.find LedgerRow.id w.rows row.id = some row :=
    (Table.find_eq_some_iff w.ids).mpr ⟨hrow, rfl⟩
  rw [paidTotal, Table.sum_eq_find_add_others _ w.ids, hfind]
  rfl

/-- The rows after a change of one. -/
theorem mem_modify (hrow : row ∈ w.rows) :
    r ∈ (w.modify row.id f).rows ↔
      r = { row with progress := f row.progress } ∨ (r ∈ w.rows ∧ r.id ≠ row.id) := by
  have hself : row.advance row.id f = { row with progress := f row.progress } := if_pos rfl
  constructor
  · intro hr
    obtain ⟨old, hold, rfl⟩ := List.mem_map.mp hr
    by_cases hid : old.id = row.id
    · rw [eq_of_id_eq hold hrow hid]
      exact .inl hself
    · rw [LedgerRow.advance_of_ne f hid]
      exact .inr ⟨hold, hid⟩
  · intro h
    rcases h with rfl | ⟨hr, hid⟩
    · exact List.mem_map.mpr ⟨row, hrow, hself⟩
    · exact List.mem_map.mpr ⟨r, hr, LedgerRow.advance_of_ne f hid⟩

theorem paidByOthers_modify (id : String) :
    (w.modify id f).paidByOthers scope id = w.paidByOthers scope id := by
  unfold paidByOthers modify
  rw [Table.others_map (fun row => LedgerRow.id_advance id f row)
    fun row hid => LedgerRow.advance_of_ne f hid]

theorem paidTotal_modify (hrow : row ∈ w.rows) :
    (w.modify row.id f).paidTotal scope =
      LedgerRow.share scope { row with progress := f row.progress } +
        w.paidByOthers scope row.id := by
  have hnew := (mem_modify (f := f) hrow).mpr (.inl rfl)
  rw [paidTotal_eq hnew]
  exact congrArg _ (paidByOthers_modify row.id)

/-- A change of a row that leaves its share is none to the others of any row. -/
theorem paidByOthers_modify_of_share (hrow : row ∈ w.rows) (hr : r ∈ w.rows) (hne : r.id ≠ row.id)
    (hshare : LedgerRow.share scope { row with progress := f row.progress } = row.share scope) :
    (w.modify row.id f).paidByOthers scope r.id = w.paidByOthers scope r.id := by
  have hnew := (mem_modify (f := f) hrow).mpr (.inr ⟨hr, hne⟩)
  have htotal : (w.modify row.id f).paidTotal scope = w.paidTotal scope := by
    rw [paidTotal_modify hrow, hshare, paidTotal_eq hrow]
  have hbefore : w.paidTotal scope = _ := paidTotal_eq hr
  have hafter : (w.modify row.id f).paidTotal scope = _ := paidTotal_eq hnew
  omega

end Ledger

/-! ## Reads -/

/-- When an action reads the scope's sum, every other payment of the scope that
was made is marked executed, and no other action of the scope is between its own
read and its mark. -/
def readsAlone (scope : SpendScope) (w : Ledger) : (op : PaymentOp) → PaymentAns op → Prop
  | .sumExecutedAmount id scope', _ => scope' = scope → ∀ row ∈ w.rows, row.id ≠ id →
      row.countsFor scope = true →
      (row.progress.paid = true → row.progress.status = .executed) ∧ ¬ row.IsChecking scope
  | _, _ => True

/-- The ledger's amount of a row of the scope is the amount itself. -/
def AmountsFit (scope : SpendScope) (rows : List LedgerRow) : Prop :=
  ∀ row ∈ rows, row.countsFor scope = true →
    row.request.amountMsat.getD 0 = row.amount ∧ row.amount < 2 ^ 63

theorem LedgerRow.share_le_amount (scope : SpendScope) (row : LedgerRow) :
    row.share scope ≤ row.amount := by
  unfold LedgerRow.share
  split
  · exact Nat.le_refl _
  · exact Nat.zero_le _

theorem LedgerRow.share_eq_zero {scope : SpendScope} {row : LedgerRow}
    (h : row.countsFor scope = true → row.progress.paid = false) : row.share scope = 0 := by
  unfold LedgerRow.share
  cases hcounts : row.countsFor scope with
  | false => rfl
  | true =>
    rw [h hcounts]
    rfl

/-- What the others have paid is in the sum when their payments are marked. -/
theorem paidByOthers_le_executedSum {scope : SpendScope} {w : Ledger} {id : String}
    (hamounts : AmountsFit scope w.rows)
    (hmarked : ∀ row ∈ w.rows, row.id ≠ id → row.countsFor scope = true →
      row.progress.paid = true → row.progress.status = .executed) :
    (w.paidByOthers scope id : Int) ≤ w.executedSum scope := by
  refine Table.sum_filter_le fun row hrow => ?_
  have hcounts : row.countsFor scope = (row.inScope scope && row.request.operation = .payInvoice) :=
    rfl
  rw [← hcounts]
  cases hsummed : (row.countsFor scope && decide (row.progress.status = .executed)) with
  | true =>
    rw [Bool.and_eq_true] at hsummed
    rw [if_pos rfl, (hamounts row hrow hsummed.1).1]
    split
    · exact Int.ofNat_le.mpr (row.share_le_amount scope)
    · exact Int.natCast_nonneg _
  | false =>
    -- a row that is not summed is of another scope or not paid
    have hzero : (if decide (row.id ≠ id) = true then row.share scope else 0) = 0 := by
      split
      · rename_i hid
        refine LedgerRow.share_eq_zero fun hscope => ?_
        cases hpaid : row.progress.paid with
        | false => rfl
        | true =>
          rw [hscope, hmarked row hrow (of_decide_eq_true hid) hscope hpaid] at hsummed
          cases hsummed
      · rfl
    rw [hzero]
    exact Int.le_refl _

/-! ## The invariant -/

/-- The scope is within its limit, at most one action is between its read and its
mark, and what the others have paid is what it read. -/
structure BudgetInv (scope : SpendScope) (limit : Nat) (w : Ledger) : Prop where
  within : w.paidTotal scope ≤ limit
  read : ∀ row ∈ w.rows, row.IsChecking scope → ∀ total, (scope, total) ∈ row.progress.readings →
    w.paidByOthers scope row.id ≤ (max total 0).toNat
  alone : ∀ row ∈ w.rows, ∀ row' ∈ w.rows, row.IsChecking scope → row'.IsChecking scope → row = row'
  bounded : ∀ row ∈ w.rows, ∀ total, (scope, total) ∈ row.progress.readings → total < 2 ^ 63

theorem BudgetInv.note {scope : SpendScope} {limit : Nat} {w : Ledger} {id : String}
    {attempts : List Attempt} (h : BudgetInv scope limit w) :
    BudgetInv scope limit (w.note id attempts) := ⟨h.within, h.read, h.alone, h.bounded⟩

section Steps

variable {scope : SpendScope} {limit : Nat} {w : Ledger} {row : LedgerRow}
  {f : Progress → Progress}

theorem budgetInv_insert {request : PaymentRequest} (haccepts : w.Accepts request)
    (hinv : BudgetInv scope limit w) : BudgetInv scope limit (w.insert request haccepts) := by
  have hshare : LedgerRow.share scope ⟨request, {}⟩ = 0 := by simp [LedgerRow.share, Progress.paid,
    Progress.executed]
  have hchecking : ¬ LedgerRow.IsChecking ⟨request, {}⟩ scope := by
    intro h
    obtain ⟨-, -, total, htotal⟩ := h
    cases htotal
  have hothers (id : String) :
      (w.insert request haccepts).paidByOthers scope id = w.paidByOthers scope id := by
    unfold Ledger.paidByOthers Ledger.insert Table.others
    rw [List.filter_cons]
    split
    · rw [List.map_cons, List.sum_cons, hshare, Nat.zero_add]
    · rfl
  refine ⟨?_, ?_, ?_, ?_⟩
  · show (List.map _ (_ :: w.rows)).sum ≤ limit
    rw [List.map_cons, List.sum_cons, hshare, Nat.zero_add]
    exact hinv.within
  · intro r hr hc total htotal
    rcases List.mem_cons.mp hr with rfl | hr
    · exact absurd hc hchecking
    · rw [hothers]
      exact hinv.read r hr hc total htotal
  · intro r hr r' hr' hc hc'
    rcases List.mem_cons.mp hr with rfl | hr
    · exact absurd hc hchecking
    rcases List.mem_cons.mp hr' with rfl | hr'
    · exact absurd hc' hchecking
    · exact hinv.alone r hr r' hr' hc hc'
  · intro r hr total htotal
    rcases List.mem_cons.mp hr with rfl | hr
    · cases htotal
    · exact hinv.bounded r hr total htotal

/-- A change of one row that reads nothing.  A payment is made only by an action
that read a sum its amount fits. -/
theorem budgetInv_modify (hrow : row ∈ w.rows)
    (hstatus : (f row.progress).status = .requested → row.progress.status = .requested)
    (hreadings : ∀ total, (scope, total) ∈ (f row.progress).readings ↔
      (scope, total) ∈ row.progress.readings)
    (hpaid : (f row.progress).paid = row.progress.paid ∨ (row.countsFor scope = true →
      row.progress.status = .requested ∧ ∃ total, (scope, total) ∈ row.progress.readings ∧
        row.amount + (max total 0).toNat ≤ limit))
    (hinv : BudgetInv scope limit w) : BudgetInv scope limit (w.modify row.id f) := by
  have hback {r : LedgerRow} (hr : r ∈ (w.modify row.id f).rows) (hc : r.IsChecking scope) :
      ∃ old ∈ w.rows, old.IsChecking scope ∧ old.id = r.id := by
    rcases (Ledger.mem_modify hrow).mp hr with rfl | ⟨hr, -⟩
    · obtain ⟨hcounts, hs, total, htotal⟩ := hc
      exact ⟨row, hrow, ⟨hcounts, hstatus hs, total, (hreadings total).mp htotal⟩, rfl⟩
    · exact ⟨r, hr, hc, rfl⟩
  -- either the row's share stays or the row is the one that is checking
  have hshare : LedgerRow.share scope { row with progress := f row.progress } = row.share scope ∨
      (row.IsChecking scope ∧ ∃ total, (scope, total) ∈ row.progress.readings ∧
        row.amount + (max total 0).toNat ≤ limit) := by
    cases hcounts : row.countsFor scope with
    | false =>
      have hcounts' : LedgerRow.countsFor { row with progress := f row.progress } scope = false :=
        hcounts
      left
      simp [LedgerRow.share, hcounts, hcounts']
    | true =>
      rcases hpaid with hsame | hnew
      · have hcounts' : LedgerRow.countsFor { row with progress := f row.progress } scope = true :=
          hcounts
        left
        simp only [LedgerRow.share, hcounts, hcounts', hsame]
        rfl
      · obtain ⟨hs, total, htotal, hfits⟩ := hnew hcounts
        exact .inr ⟨⟨hcounts, hs, total, htotal⟩, total, htotal, hfits⟩
  refine ⟨?_, ?_, ?_, ?_⟩
  · rw [Ledger.paidTotal_modify hrow]
    rcases hshare with hsame | ⟨hc, total, htotal, hfits⟩
    · rw [hsame, ← Ledger.paidTotal_eq hrow]
      exact hinv.within
    · have hothers := hinv.read row hrow hc total htotal
      have hle : LedgerRow.share scope { row with progress := f row.progress } ≤ row.amount :=
        LedgerRow.share_le_amount scope _
      omega
  · intro r hr hc total htotal
    rcases (Ledger.mem_modify hrow).mp hr with rfl | ⟨hr, hne⟩
    · obtain ⟨hcounts, hs, -⟩ := hc
      have hold := (hreadings total).mp htotal
      show (w.modify row.id f).paidByOthers scope row.id ≤ _
      rw [Ledger.paidByOthers_modify]
      exact hinv.read row hrow ⟨hcounts, hstatus hs, total, hold⟩ total hold
    · rcases hshare with hsame | ⟨hchecking, -⟩
      · rw [Ledger.paidByOthers_modify_of_share hrow hr hne hsame]
        exact hinv.read r hr hc total htotal
      · exact absurd (congrArg LedgerRow.id (hinv.alone r hr row hrow hc hchecking)) hne
  · intro r hr r' hr' hc hc'
    obtain ⟨old, hold, hcold, hid⟩ := hback hr hc
    obtain ⟨old', hold', hcold', hid'⟩ := hback hr' hc'
    refine Ledger.eq_of_id_eq hr hr' ?_
    rw [← hid, ← hid', hinv.alone old hold old' hold' hcold hcold']
  · intro r hr total htotal
    rcases (Ledger.mem_modify hrow).mp hr with rfl | ⟨hr, -⟩
    · exact hinv.bounded row hrow total ((hreadings total).mp htotal)
    · exact hinv.bounded r hr total htotal

/-- A read by an action that is alone with its scope. -/
theorem budgetInv_read {total : Int} (hrow : row ∈ w.rows)
    (halone : ∀ r ∈ w.rows, r.id ≠ row.id → r.countsFor scope = true →
      (r.progress.paid = true → r.progress.status = .executed) ∧ ¬ r.IsChecking scope)
    (hamounts : AmountsFit scope w.rows) (htotal : total = w.executedSum scope)
    (hbound : total < 2 ^ 63) (hinv : BudgetInv scope limit w) :
    BudgetInv scope limit (w.modify row.id (·.read scope total)) := by
  have hsum : (w.paidByOthers scope row.id : Int) ≤ total := by
    rw [htotal]
    exact paidByOthers_le_executedSum hamounts fun r hr hne hc => (halone r hr hne hc).1
  have honly {r : LedgerRow} (hr : r ∈ (w.modify row.id (·.read scope total)).rows)
      (hc : r.IsChecking scope) : r = { row with progress := row.progress.read scope total } := by
    rcases (Ledger.mem_modify hrow).mp hr with rfl | ⟨hr, hne⟩
    · rfl
    · exact absurd hc (halone r hr hne hc.1).2
  refine ⟨?_, ?_, ?_, ?_⟩
  · rw [Ledger.paidTotal_modify hrow]
    exact Ledger.paidTotal_eq hrow ▸ hinv.within
  · intro r hr hc total' htotal'
    cases honly hr hc
    show (w.modify row.id _).paidByOthers scope row.id ≤ _
    rw [Ledger.paidByOthers_modify]
    rcases List.mem_cons.mp htotal' with heq | hold
    · cases heq
      omega
    · exact hinv.read row hrow ⟨hc.1, hc.2.1, total', hold⟩ total' hold
  · intro r hr r' hr' hc hc'
    rw [honly hr hc, honly hr' hc']
  · intro r hr total' htotal'
    rcases (Ledger.mem_modify hrow).mp hr with rfl | ⟨hr, -⟩
    · rcases List.mem_cons.mp htotal' with heq | hold
      · cases heq
        exact hbound
      · exact hinv.bounded row hrow total' hold
    · exact hinv.bounded r hr total' htotal'

end Steps

/-! ## Calls -/

/-- The call reads the scope's sum. -/
def PaymentOp.reads (scope : SpendScope) : PaymentOp → Bool
  | .sumExecutedAmount _ scope' => scope' = scope
  | _ => false

section Effect

variable {rt : PaymentRuntime} {reception : Reception} {op : PaymentOp} {answer : PaymentAns op}
  {p : Progress} {scope : SpendScope}

theorem PaymentOp.exists_of_reads (h : op.reads scope = true) :
    ∃ id, op = .sumExecutedAmount id scope := by
  unfold PaymentOp.reads at h
  split at h
  · rename_i id scope'
    exact ⟨id, congrArg _ (of_decide_eq_true h)⟩
  · cases h

theorem effect_status (hkeeps : op.reopens = false)
    (h : (effect rt reception op answer p).status = .requested) : p.status = .requested := by
  replace h : (recorded op answer p).status = .requested := h
  unfold recorded at h
  split at h
  all_goals first | exact h | skip
  · rename_i status
    cases h
    cases hkeeps

theorem effect_readings (hreads : op.reads scope = false) (total : Int) :
    (scope, total) ∈ (effect rt reception op answer p).readings ↔ (scope, total) ∈ p.readings := by
  show (scope, total) ∈ (recorded op answer p).readings ↔ _
  unfold recorded
  split
  all_goals first | exact Iff.rfl | skip
  · rename_i scope' total'
    have hne : scope' ≠ scope := of_decide_eq_false hreads
    constructor
    · intro h
      rcases List.mem_cons.mp h with heq | hold
      · cases heq
        exact absurd rfl hne
      · exact hold
    · exact List.mem_cons_of_mem _

theorem spends_of_pays (h : op.pays = true) : op.spends = true := by
  cases op with
  | createPaymentResult result => cases h
  | _ => exact h

theorem effect_paid : (effect rt reception op answer p).paid = p.paid ∨
    (op.spends = true ∧ (effect rt reception op answer p).paid = true) := by
  rw [effect, Progress.paid_addAttempts]
  cases hsettled : (op.attempts rt reception answer).any (·.settled) with
  | true =>
    have hsome : op.attempts rt reception answer ≠ [] := by
      intro hnone
      rw [hnone] at hsettled
      cases hsettled
    exact .inr ⟨spends_of_pays (pays_of_attempts hsome), rfl⟩
  | false =>
    rw [Bool.false_or]
    unfold recorded
    split
    all_goals first | exact .inl rfl | skip
    rename_i result
    rw [Progress.paid_addResult]
    by_cases hexec : result.status = .executed
    · exact .inr ⟨decide_eq_true hexec, by simp [hexec]⟩
    · exact .inl (by simp [hexec])

end Effect

/-- Every payment of the scope in these rows fitted a sum its action read. -/
def PaidFits (scope : SpendScope) (limit : Nat) (rows : List LedgerRow) : Prop :=
  ∀ row ∈ rows, row.countsFor scope = true → row.progress.paid = true →
    ∃ total, (scope, total) ∈ row.progress.readings ∧
      saturatingAdd (max total 0).toNat row.amount ≤ limit

theorem budgetInv_step {rt : PaymentRuntime} {scope : SpendScope} {limit : Nat} {w w' : Ledger}
    {a : String} {op : PaymentOp} {answer : PaymentAns op} (hop : OpOk a w op)
    (hcond : readsAlone scope w op answer) (hstep : paymentStep rt w op answer w')
    (hamounts : AmountsFit scope w.rows) (hfits : PaidFits scope limit w'.rows)
    (hinv : BudgetInv scope limit w) : BudgetInv scope limit w' := by
  unfold paymentStep at hstep
  split at hstep
  · unfold createOrGet at hstep
    split at hstep
    · rcases hstep with rfl | ⟨haccepts, rfl⟩
      · exact hinv
      · exact budgetInv_insert haccepts hinv
    · rcases hstep with ⟨row, -, -, rfl⟩ | ⟨⟨haccepts, rfl⟩, -⟩
      · exact hinv
      · exact budgetInv_insert haccepts hinv
  · obtain ⟨hsum, reception, rfl⟩ := hstep
    split at hfits
    · rename_i id htarget
      obtain ⟨row, hown, rfl, hspends, -⟩ := hop.own id htarget
      have hrow := (Ledger.rowOf_eq_some_iff.mp hown).1
      cases hreads : op.reads scope with
      | true =>
        obtain ⟨id, rfl⟩ := PaymentOp.exists_of_reads hreads
        cases htarget
        cases answer with
        | error e =>
          exact budgetInv_modify hrow (fun h => h) (fun _ => Iff.rfl) (.inl rfl) hinv
        | ok total =>
          obtain ⟨htotal, -, hbound⟩ := hsum
          exact budgetInv_read hrow (hcond rfl) hamounts htotal hbound hinv
      | false =>
        refine (budgetInv_modify hrow (effect_status hop.keeps) (effect_readings hreads) ?_ hinv).note
        rcases effect_paid with hsame | ⟨hop, hpaid⟩
        · exact .inl hsame
        · -- the payment is in the ledger after the call, so its row has read a sum it fits
          refine .inr fun hcounts => ⟨hspends hop, ?_⟩
          obtain ⟨total, htotal, hle⟩ :=
            hfits _ ((Ledger.mem_modify hrow).mpr (.inl rfl)) hcounts hpaid
          have hread := (effect_readings hreads total).mp htotal
          refine ⟨total, hread, ?_⟩
          have hbound := hinv.bounded row hrow total hread
          have hsmall := (hamounts row hrow hcounts).2
          change saturatingAdd (max total 0).toNat row.amount ≤ limit at hle
          rw [saturatingAdd_of_lt (by omega) hsmall] at hle
          omega
    · exact hinv

/-! ## Runs -/

/-- The task pays this amount in the scope. -/
def PaymentTask.PaysFor (task : PaymentTask) (scope : SpendScope) (amount : Nat) : Prop :=
  scope.covers task.run = true ∧ ∃ args, parsePaymentArgs task.rawArgs = .ok args ∧
    args.operation = .payInvoice ∧ args.amountMsat = some amount

theorem mem_summedLimits {config : PaymentConfig} {run : RunLeaseRecord} {scope : SpendScope}
    {limit : Nat} (hcovers : scope.covers run = true) (hlimit : scope.limit config = some limit) :
    (scope, limit) ∈ summedLimits config run := by
  cases scope with
  | tenant tenantId =>
    have htenant : run.tenantId = tenantId := by simpa [SpendScope.covers] using hcovers
    have hlimit : config.maxSpendMsatPerTenant = some limit := hlimit
    simp [summedLimits, htenant, hlimit]
  | agent tenantId agentId =>
    have hrun : run.tenantId = tenantId ∧ run.agentId = agentId := by
      simpa [SpendScope.covers] using hcovers
    have hlimit : config.maxSpendMsatPerAgent = some limit := hlimit
    simp [summedLimits, hrun, hlimit]

section Rows

variable {task : PaymentTask} {a : String} {row : LedgerRow} {scope : SpendScope} {limit : Nat}

theorem RowOk.paysFor (hrow : RowOk task a row) (hcounts : row.countsFor scope = true) :
    task.PaysFor scope row.amount := by
  obtain ⟨args, id, hparse, hrequest, -⟩ := hrow
  have hscope : row.inScope scope = scope.covers task.run := by
    cases scope <;> simp only [LedgerRow.inScope, hrequest] <;> rfl
  unfold LedgerRow.countsFor at hcounts
  rw [Bool.and_eq_true, hscope, hrequest] at hcounts
  have hpay : args.operation = .payInvoice := of_decide_eq_true hcounts.2
  obtain ⟨amount, hamount⟩ := exists_amount_of_requires hparse (by rw [hpay]; rfl)
  refine ⟨hcounts.1, args, hparse, hpay, ?_⟩
  rw [LedgerRow.amount, hrequest]
  show args.amountMsat = some (args.amountMsat.getD 0)
  rw [hamount]
  rfl

theorem RowOk.amount_fits (hrow : RowOk task a row) (hsmall : row.amount < 2 ^ 63) :
    row.request.amountMsat.getD 0 = row.amount := by
  obtain ⟨args, id, -, hrequest, -⟩ := hrow
  rw [LedgerRow.amount, hrequest] at hsmall ⊢
  change args.amountMsat.getD 0 < 2 ^ 63 at hsmall
  show (args.amountMsat.map asI64).getD 0 = ((args.amountMsat.getD 0 : Nat) : Int)
  cases hamount : args.amountMsat with
  | none => rfl
  | some amount =>
    rw [hamount] at hsmall
    exact asI64_of_lt hsmall

theorem RowOk.fits (hrow : RowOk task a row) (hcounts : row.countsFor scope = true)
    (hpaid : row.progress.paid = true) (hlimit : scope.limit task.config.payment = some limit) :
    ∃ total, (scope, total) ∈ row.progress.readings ∧
      saturatingAdd (max total 0).toNat row.amount ≤ limit := by
  obtain ⟨hcovers, args, hparse, hpay, hamount⟩ := hrow.paysFor hcounts
  obtain ⟨args', id, hparse', -, hinv⟩ := hrow
  rw [hparse] at hparse'
  cases hparse'
  exact (hinv.cleared hpay hpaid).1.summed scope limit _ (mem_summedLimits hcovers hlimit) hamount

end Rows

section Runs

variable {rt : PaymentRuntime} {tasks : String → PaymentTask} {scope : SpendScope} {limit : Nat}
  {w : Ledger} {ps : Pool}

theorem rowOk_of_reaches {cond : Ledger → (op : PaymentOp) → PaymentAns op → Prop}
    (hreach : Reaches rt cond tasks w ps) {row : LedgerRow} (hrow : row ∈ w.rows) :
    RowOk (tasks row.owner) row.owner row :=
  stateOk_of_reaches hreach row.owner row (Ledger.rowOf_eq_some_iff.mpr ⟨hrow, rfl⟩)

theorem budgetInv_empty : BudgetInv scope limit .empty where
  within := Nat.zero_le _
  read := fun _ hrow => absurd hrow List.not_mem_nil
  alone := fun _ hrow => absurd hrow List.not_mem_nil
  bounded := fun _ hrow => absurd hrow List.not_mem_nil

variable (hlimit : ∀ a, scope.covers (tasks a).run = true →
    scope.limit (tasks a).config.payment = some limit)
  (hsmall : ∀ a amount, (tasks a).PaysFor scope amount → amount < 2 ^ 63)
include hlimit hsmall

theorem budgetInv_of_reaches (hreach : Reaches rt (readsAlone scope) tasks w ps) :
    BudgetInv scope limit w := by
  unfold Reaches at hreach
  generalize hc : (w, ps) = c at hreach
  induction hreach generalizing w ps with
  | refl =>
    cases hc
    exact budgetInv_empty
  | @tail mid _ hmid hstep ih =>
    obtain ⟨w₀, ps₀⟩ := mid
    have hreach₀ : Reaches rt (readsAlone scope) tasks w₀ ps₀ := hmid
    subst hc
    have hreach : Reaches rt (readsAlone scope) tasks w ps := hmid.tail hstep
    have hamounts : AmountsFit scope w₀.rows := by
      intro row hrow hcounts
      have hok := rowOk_of_reaches hreach₀ hrow
      have hlt := hsmall _ _ (hok.paysFor hcounts)
      exact ⟨hok.amount_fits hlt, hlt⟩
    have hfits : PaidFits scope limit w.rows := by
      intro row hrow hcounts hpaid
      have hok := rowOk_of_reaches hreach hrow
      exact hok.fits hcounts hpaid (hlimit _ (hok.paysFor hcounts).1)
    cases hstep with
    | turn a hone =>
      generalize hp : ps₀ a = p at hone
      cases hone with
      | call hcall =>
        exact budgetInv_step (opOk_of_reaches hreach₀ hp) hcall.1 hcall.2 hamounts hfits (ih rfl)

end Runs

/-- A worker with one mint and a budget of 1000 for each tenant. -/
def budgetConfig : WorkerConfig where
  workerId := "worker-1"
  llm := Llm.sampleConfig
  payment :=
    { cashuEnabled := true
      cashuMintUris := [("main", "https://a.example")]
      cashuHttpEnabled := true
      cashuRoute := { healthFailThreshold := 0 }
      maxSpendMsatPerTenant := some 1000 }

def budgetTasks (a : String) : PaymentTask where
  config := budgetConfig
  run := samplePaymentRun
  spentMsat := 0
  rawArgs := samplePaymentArgs "cashu:main" (if a = "act-1" then "k1" else "k2") 1000 false

def budgetRequest (a id key : String) : PaymentRequest :=
  newPaymentRequest samplePaymentRun a id
    ⟨"cashu:main", ⟨.cashu, "main"⟩, .payInvoice, key, some 1000, false, .str "lnbc1", .null⟩

/-- The first action has stored its row and read that nothing is spent. -/
def budgetLedger : Ledger :=
  (Ledger.empty.insert (budgetRequest "act-1" "pay-1" "k1") (accepts_empty _)).modify "pay-1"
    (·.read (.tenant "tenant-1") 0)

theorem budgetLedger_accepts : budgetLedger.Accepts (budgetRequest "act-2" "pay-2" "k2") := by
  refine ⟨?_, ?_, ?_⟩ <;> decide

/-- Two actions that spend the tenant's budget between them. -/
def turnTasks (a : String) : PaymentTask where
  config := budgetConfig
  run := samplePaymentRun
  spentMsat := 0
  rawArgs := if a = "act-1" then samplePaymentArgs "cashu:main" "k1" 600 false
    else samplePaymentArgs "cashu:main" "k2" 400 false

def turnRequest (a id key : String) (amount : Nat) : PaymentRequest :=
  newPaymentRequest samplePaymentRun a id
    ⟨"cashu:main", ⟨.cashu, "main"⟩, .payInvoice, key, some amount, false, .str "lnbc1", .null⟩

theorem turnTasks_small (a : String) (amount : Nat)
    (h : (turnTasks a).PaysFor (.tenant "tenant-1") amount) : amount < 2 ^ 63 := by
  obtain ⟨-, args, hparse, -, hamount⟩ := h
  have hargs : args.amountMsat = some 600 ∨ args.amountMsat = some 400 := by
    unfold turnTasks at hparse
    dsimp only at hparse
    split at hparse
    · cases hparse
      exact .inl rfl
    · cases hparse
      exact .inr rfl
  rcases hargs with hargs | hargs
  · rw [hargs] at hamount
    cases hamount
    decide
  · rw [hargs] at hamount
    cases hamount
    decide

end Payment
end SecureAgnt

/-
Payments under one idempotency key.

Any number of `payment.send` actions run interleaved, one call at a time, each
under its own action request id.  The unique index of the ledger lets one of the
actions that carry a key store its row; the others are answered `duplicate`.

`settlements_under_key` says what this gives: every request for payment is sent for
a stored row, by the action that stored it, and none after one was answered, and so
a key is settled once and once more at most for each settled request that ended in
an error or was redirected on.  `duplicates_were_executed` says when a `duplicate`
answer means that the payment was made: when the actions of a key ask for one
payment, and one after the other.
-/
import SecureAgnt.Llm.Confinement
import SecureAgnt.Payment.Lifecycle

namespace SecureAgnt
namespace Payment

open Worker (PaymentConfig RunLeaseRecord WorkerConfig)

/-! ## Actions side by side -/

abbrev Pool := String → PaymentProg PaymentOutcome

/-- Every action at its start, under its action request id. -/
def startAll (rt : PaymentRuntime) (tasks : String → PaymentTask) : Pool :=
  fun a => (tasks a).program rt a

/-- The states reached from an empty ledger by steps that meet `cond`. -/
def Reaches (rt : PaymentRuntime) (cond : Ledger → (op : PaymentOp) → PaymentAns op → Prop)
    (tasks : String → PaymentTask) (w : Ledger) (ps : Pool) : Prop :=
  (paymentHandler rt cond).PoolReaches (.empty, startAll rt tasks) (w, ps)

def anyStep (_ : Ledger) (op : PaymentOp) (_ : PaymentAns op) : Prop := True

section Pool

variable {rt : PaymentRuntime} {cond : Ledger → (op : PaymentOp) → PaymentAns op → Prop}
  {tasks : String → PaymentTask} {w : Ledger} {ps : Pool}

/-- Along every interleaving every action keeps its contract. -/
theorem wp_of_reaches (hreach : Reaches rt cond tasks w ps) (a : String) :
    (paymentHandler rt cond).wp (paymentContract (tasks a) a) (ps a) (ActionEnds cond (tasks a) a)
      w :=
  Handler.wp_of_pool (C := fun a => paymentContract (tasks a) a)
    (fun _ _ hab _ _ hguar => paymentContract_compat hab hguar)
    (fun _ => wp_executePaymentSendAction rfl) hreach a

theorem stateOk_of_reaches (hreach : Reaches rt cond tasks w ps) (a : String) :
    StateOk (tasks a) a w := by
  refine Handler.wp_now ?_ ?_ (wp_of_reaches hreach a)
  · exact fun op hsafe => hsafe.1
  · exact fun r hend => hend.1

theorem opOk_of_reaches (hreach : Reaches rt cond tasks w ps) {a : String} {op : PaymentOp}
    {k : PaymentAns op → PaymentProg PaymentOutcome} (hcall : ps a = .call op k) : OpOk a w op := by
  have hwp := wp_of_reaches hreach a
  rw [hcall] at hwp
  exact (hwp w ((paymentContract (tasks a) a).rely_refl w)).1.2.1

theorem looksUp_of_reaches (hreach : Reaches rt cond tasks w ps) {a : String} {op : PaymentOp}
    {k : PaymentAns op → PaymentProg PaymentOutcome} (hcall : ps a = .call op k) :
    LooksUp (tasks a) a op := by
  have hwp := wp_of_reaches hreach a
  rw [hcall] at hwp
  exact (hwp w ((paymentContract (tasks a) a).rely_refl w)).1.2.2

theorem actionEnds_of_reaches (hreach : Reaches rt cond tasks w ps) {a : String}
    {outcome : PaymentOutcome} (hend : ps a = .pure outcome) :
    ActionEnds cond (tasks a) a w (.ok outcome) := by
  have hwp := wp_of_reaches hreach a
  rw [hend] at hwp
  exact hwp w ((paymentContract (tasks a) a).rely_refl w)

theorem logged_of_reaches (hreach : Reaches rt cond tasks w ps) : w.Logged :=
  Handler.invariant_of_pool (H := paymentHandler rt cond)
    (C := fun a => paymentContract (tasks a) a) (I := Ledger.Logged)
    (fun _ _ hab _ _ hguar => paymentContract_compat hab hguar)
    (fun _ _ _ _ _ hlogged hsafe hstep _ => logged_of_step hsafe.2.1 hstep.2 hlogged)
    (fun _ => wp_executePaymentSendAction rfl) logged_empty hreach

end Pool

/-! ## Settlements -/

/-- When only the last request can have been answered, all settled requests but
one ended in an error. -/
theorem settled_le_of_unanswered {attempts : List Attempt}
    (h : ∀ x ∈ attempts.tail, x.answered = false) :
    (attempts.filter (·.settled)).length ≤
      1 + (attempts.filter fun x => x.settled && !x.answered).length := by
  cases attempts with
  | nil => exact Nat.zero_le _
  | cons x rest =>
    have hrest : rest.filter (·.settled) = rest.filter fun y => y.settled && !y.answered := by
      refine List.filter_congr fun y hy => ?_
      have hno : y.answered = false := h y hy
      simp [hno]
    have hlast : ((x :: rest).filter (·.settled)).length ≤ 1 + (rest.filter (·.settled)).length := by
      rw [List.filter_cons]
      split
      · rw [List.length_cons, Nat.add_comm]
      · exact Nat.le_add_left _ _
    have hmore : (rest.filter fun y => y.settled && !y.answered).length ≤
        ((x :: rest).filter fun y => y.settled && !y.answered).length := by
      rw [List.filter_cons]
      split
      · exact Nat.le_succ _
      · exact Nat.le_refl _
    rw [hrest] at hlast
    exact Nat.le_trans hlast (Nat.add_le_add_left hmore 1)

/-- Every request for payment is asked by the action of the row stored under its key, and
only while no request of the key was answered; every request that was sent counts for the
key of a stored row; and a key is settled at most once, and once more for each settled
request that ended in an error or was redirected on. -/
theorem settlements_under_key (rt : PaymentRuntime) (tasks : String → PaymentTask) (w : Ledger)
    (ps : Pool) (hreach : Reaches rt anyStep tasks w ps) (tenantId idempotencyKey : String) :
    (∀ a args op k, parsePaymentArgs (tasks a).rawArgs = .ok args →
      (tasks a).run.tenantId = tenantId → args.idempotencyKey = idempotencyKey →
      ps a = .call op k → op.pays = true →
      ∃ row, w.stored tenantId idempotencyKey = some row ∧ a = row.owner ∧
        op.target? = some row.id ∧
        ∀ x ∈ w.attemptsUnder tenantId idempotencyKey, x.answered = false) ∧
    (∀ entry ∈ w.asked, ∃ row,
      w.stored row.request.tenantId row.request.idempotencyKey = some row ∧ row.id = entry.1 ∧
        entry.2 ∈ w.attemptsUnder row.request.tenantId row.request.idempotencyKey) ∧
    ((w.attemptsUnder tenantId idempotencyKey).filter (·.settled)).length ≤
      1 + ((w.attemptsUnder tenantId idempotencyKey).filter fun x =>
        x.settled && !x.answered).length := by
  have hlogged := logged_of_reaches hreach
  refine ⟨fun a args op k hparse htenant hargs hcall hpays => ?_, fun entry hentry => ?_, ?_⟩
  · have hop := opOk_of_reaches hreach hcall
    obtain ⟨id, htarget⟩ : ∃ id, op.target? = some id := by
      cases op <;> first | exact ⟨_, rfl⟩ | cases hpays
    obtain ⟨own, hown, hid, -, hunanswered⟩ := hop.own id htarget
    obtain ⟨hmem, howner⟩ := Ledger.rowOf_eq_some_iff.mp hown
    -- the action's own row carries its key, so it is the stored one
    obtain ⟨args', id', hparse', hrequest, -⟩ := stateOk_of_reaches hreach a own hown
    rw [hparse] at hparse'
    cases hparse'
    have hownkey : own.tenantKey = (tenantId, idempotencyKey) := by
      rw [LedgerRow.tenantKey, hrequest, ← htenant, ← hargs]
      rfl
    have hstored := Ledger.stored_eq_some_iff.mpr ⟨hmem, hownkey⟩
    refine ⟨own, hstored, howner.symm, hid ▸ htarget, ?_⟩
    rw [hlogged.attemptsUnder hstored]
    exact hunanswered hpays
  · obtain ⟨row, hrow, hid⟩ := hlogged.stored entry hentry
    have hstored : w.stored row.request.tenantId row.request.idempotencyKey = some row :=
      Ledger.stored_eq_some_iff.mpr ⟨hrow, rfl⟩
    refine ⟨row, hstored, hid, ?_⟩
    rw [hlogged.attemptsUnder hstored, ← hlogged.attempts row hrow]
    exact List.mem_map_of_mem (List.mem_filter.mpr ⟨hentry, decide_eq_true hid.symm⟩)
  · cases hstored : w.stored tenantId idempotencyKey with
    | none =>
      have hnone : w.attemptsUnder tenantId idempotencyKey = [] := by
        unfold Ledger.attemptsUnder
        rw [hstored]
      rw [hnone]
      exact Nat.zero_le _
    | some row =>
      rw [hlogged.attemptsUnder hstored]
      obtain ⟨args, id, -, -, hinv⟩ := stateOk_of_reaches hreach row.owner row
        (Ledger.rowOf_eq_some_iff.mpr ⟨(Ledger.stored_eq_some_iff.mp hstored).1, rfl⟩)
      exact settled_le_of_unanswered hinv.unanswered

/-- The library on the sample's texts: mints at https URLs, no wallets. -/
def samplePaymentRuntime : PaymentRuntime where
  wallet := ⟨fun _ => .error "invalid NIP47 URI", fun _ => none, fun _ _ => .error "invalid content"⟩
  redactText := id
  routeHash := fun _ _ => 0
  urlScheme := fun _ => .ok "https"
  urlJoin := fun base path => .ok (base ++ path)
  parseJson := fun _ => none

/-- A worker with one logical mint behind two URLs and route health off. -/
def twoMintConfig : WorkerConfig where
  workerId := "worker-1"
  llm := Llm.sampleConfig
  payment :=
    { cashuEnabled := true
      cashuMintUris := [("main", "https://a.example|https://b.example")]
      cashuHttpEnabled := true
      cashuRoute := { healthFailThreshold := 0 } }

def samplePaymentRun : RunLeaseRecord where
  id := "run-1"
  tenantId := "tenant-1"
  agentId := "agent-1"
  inputJson := .obj []
  grantedCapabilities := .arr []

def samplePaymentArgs (destination idempotencyKey : String) (amountMsat : Nat) (approved : Bool) :
    Json :=
  .obj [("destination", .str destination), ("operation", .str "pay_invoice"),
    ("idempotency_key", .str idempotencyKey), ("amount_msat", .nat amountMsat),
    ("payment_approved", .bool approved), ("invoice", .str "lnbc1")]

def twoMintTask : PaymentTask where
  config := twoMintConfig
  run := samplePaymentRun
  spentMsat := 0
  rawArgs := samplePaymentArgs "cashu:main" "k1" 1000 false

def twoMintRequest : PaymentRequest :=
  newPaymentRequest samplePaymentRun "act-1" "pay-1"
    ⟨"cashu:main", ⟨.cashu, "main"⟩, .payInvoice, "k1", some 1000, false, .str "lnbc1", .null⟩

theorem accepts_empty (request : PaymentRequest) : Ledger.empty.Accepts request :=
  ⟨List.not_mem_nil, List.not_mem_nil, List.not_mem_nil⟩

/-- The ledger after requests for a row's payment. -/
def Ledger.send (w : Ledger) (id : String) (attempts : List Attempt) : Ledger :=
  (w.modify id (·.addAttempts attempts)).note id attempts

def twoMintStored : Ledger := Ledger.empty.insert twoMintRequest (accepts_empty _)

/-- The ledger after the first mint timed out. -/
def oneMintLedger (first : Reception) : Ledger :=
  twoMintStored.send "pay-1" (attemptsAt first.settled false "https://a.example" first.hops.resent [])

/-- The ledger after the first mint timed out and the second answered. -/
def twoMintLedger (first second : Reception) : Ledger :=
  (oneMintLedger first).send "pay-1"
    (attemptsAt second.settled true "https://b.example" second.hops.resent [])

theorem twoMint_reaches (first second : Reception) :
    (∃ ps op k, Reaches samplePaymentRuntime anyStep (fun _ => twoMintTask) (oneMintLedger first) ps ∧
      ps "act-1" = .call op k ∧ op.pays = true) ∧
    ∃ ps, Reaches samplePaymentRuntime anyStep (fun _ => twoMintTask) (twoMintLedger first second) ps := by
  have hstart : Reaches samplePaymentRuntime anyStep (fun _ => twoMintTask) .empty
      (startAll samplePaymentRuntime fun _ => twoMintTask) := .refl
  have hfocus := Handler.PoolReaches.focus hstart (i := "act-1") rfl
  have hid := hfocus.then_call "pay-1" .empty ⟨trivial, trivial, .direct true, rfl⟩
  have hstored := hid.then_call (.ok { twoMintRequest with status := .requested })
    twoMintStored ⟨trivial, .inr ⟨⟨_, rfl⟩, rfl⟩⟩
  have hfirst := hstored.then_call (.error "timeout") (oneMintLedger first)
    ⟨trivial, trivial, first, rfl⟩
  have hsecond := hfirst.then_call (.ok (200, "")) (twoMintLedger first second)
    ⟨trivial, trivial, second, rfl⟩
  exact ⟨⟨_, _, _, hfirst, Function.update_self .., rfl⟩, _, hsecond⟩

/-- The first mint settles but its answer is lost, and the second settles too. -/
theorem failover_settles_twice :
    ¬ ∀ w ps, Reaches samplePaymentRuntime anyStep (fun _ => twoMintTask) w ps →
      ∀ tenantId idempotencyKey,
        ((w.attemptsUnder tenantId idempotencyKey).filter (·.settled)).length ≤ 1 := by
  intro h
  obtain ⟨-, ps, hreach⟩ := twoMint_reaches (.direct true) (.direct true)
  exact absurd (h _ ps hreach "tenant-1" "k1") (by decide)

/-- The second mint redirects to a third, which settles the payment. -/
def redirected : Reception := ⟨.resend "https://c.example", fun i => i = 1⟩

/-- When the mint that timed out did not settle, the second is asked for the stored row, and
the payment is settled once, wherever the second mint redirects. -/
theorem settlements_under_key_twoMint :
    (∃ row, (oneMintLedger (.direct false)).stored "tenant-1" "k1" = some row ∧
      "act-1" = row.owner ∧
      ∀ x ∈ (oneMintLedger (.direct false)).attemptsUnder "tenant-1" "k1", x.answered = false) ∧
    (((twoMintLedger (.direct false) redirected).attemptsUnder "tenant-1" "k1").filter
      (·.settled)).length ≤ 1 + 0 := by
  obtain ⟨⟨ps, op, k, hfirst, hcall, hpays⟩, ps', hreach⟩ := twoMint_reaches (.direct false) redirected
  obtain ⟨row, hstored, howner, -, hunanswered⟩ := (settlements_under_key samplePaymentRuntime
    (fun _ => twoMintTask) _ ps hfirst "tenant-1" "k1").1 "act-1" _ op k rfl rfl rfl hcall hpays
  exact ⟨⟨row, hstored, howner, hunanswered⟩, (settlements_under_key samplePaymentRuntime
    (fun _ => twoMintTask) _ ps' hreach "tenant-1" "k1").2.2⟩

/-! ## Duplicates -/

/-- The same operation, destination, amount and invoice. -/
structure SamePayment (request request' : PaymentRequest) : Prop where
  operation : request.operation = request'.operation
  destination : request.destination = request'.destination
  amountMsat : request.requestJson.amountMsat = request'.requestJson.amountMsat
  invoice : request.requestJson.invoice = request'.requestJson.invoice

/-- An action that finds another's row under its key finds the same payment,
executed. -/
def lookupAgrees (w : Ledger) : (op : PaymentOp) → PaymentAns op → Prop
  | .createOrGetPaymentRequest request, _ =>
    ∀ row, w.stored request.tenantId request.idempotencyKey = some row →
      row.owner ≠ request.actionRequestId →
      SamePayment row.request request ∧ row.progress.executed = true
  | _, _ => True

/-- The payment an action returned success for was made: by the action itself, or
by the earlier one whose row is stored under its key. -/
def PaymentMade (task : PaymentTask) (a : String) (w : Ledger) (outcome : PaymentOutcome) : Prop :=
  ∃ args id, parsePaymentArgs task.rawArgs = .ok args ∧
    match outcome with
    | .executed .. => Owns a (ownRequest task a args id) (fun p => p.executed = true) w
    | .duplicate .. => ∃ row, w.stored task.run.tenantId args.idempotencyKey = some row ∧
        row.owner ≠ a ∧ SamePayment row.request (ownRequest task a args id) ∧
        row.progress.executed = true

/-- While every lookup agrees, every action that returns success was for a payment
that was made. -/
theorem paymentMade_of_lookupAgrees {rt : PaymentRuntime} {tasks : String → PaymentTask} {w : Ledger}
    {ps : Pool} (hreach : Reaches rt lookupAgrees tasks w ps) {a : String}
    {outcome : PaymentOutcome} (hend : ps a = .pure outcome) :
    PaymentMade (tasks a) a w outcome := by
  obtain ⟨-, hends⟩ := actionEnds_of_reaches hreach hend
  cases outcome with
  | executed id spent execution =>
    obtain ⟨args, hparse, -, howns⟩ := hends
    exact ⟨args, id, hparse, howns⟩
  | duplicate prior priorResult =>
    obtain ⟨-, args, id, w₀, row, hparse, hagrees, hstored, hother, hgrows⟩ := hends
    obtain ⟨hsame, hexecuted⟩ := hagrees row hstored hother
    obtain ⟨hmem, hkey⟩ := Ledger.stored_eq_some_iff.mp hstored
    obtain ⟨row', hmem', hrequest, hstays⟩ := hgrows row hmem
    refine ⟨args, id, hparse, row', Ledger.stored_eq_some_iff.mpr ⟨hmem', ?_⟩, ?_, ?_,
      hstays hexecuted⟩
    · rw [LedgerRow.tenantKey, hrequest]
      exact hkey
    · rw [LedgerRow.owner, hrequest]
      exact hother
    · rw [hrequest]
      exact hsame

/-! ## One action after the other -/

/-- Actions of one tenant and key, with the arguments they were asked with. -/
structure ShareKey (task task' : PaymentTask) (args args' : PaymentArgs) : Prop where
  parsed : parsePaymentArgs task.rawArgs = .ok args
  parsed' : parsePaymentArgs task'.rawArgs = .ok args'
  tenantId : task.run.tenantId = task'.run.tenantId
  idempotencyKey : args.idempotencyKey = args'.idempotencyKey

/-- Actions that share a key ask for one payment. -/
def KeysAgree (tasks : String → PaymentTask) : Prop :=
  ∀ a b args args', ShareKey (tasks a) (tasks b) args args' →
    args.operation = args'.operation ∧ args.destination = args'.destination ∧
      args.amountMsat = args'.amountMsat ∧ args.invoice = args'.invoice

/-- The runs from an empty ledger in which an action looks its key up only when every other
action of the key that has looked it up has come back with success.  `seen` is who has
looked up a key so far. -/
inductive InTurn (rt : PaymentRuntime) (tasks : String → PaymentTask) :
    (seen : List String) → Ledger → Pool → Prop
  | start : InTurn rt tasks [] .empty (startAll rt tasks)
  | lookup {seen : List String} {w w' : Ledger} {ps : Pool} {a : String} {request : PaymentRequest}
      {k : PaymentAns (.createOrGetPaymentRequest request) → PaymentProg PaymentOutcome}
      (answer : PaymentAns (.createOrGetPaymentRequest request)) (hrun : InTurn rt tasks seen w ps)
      (hcall : ps a = .call (.createOrGetPaymentRequest request) k)
      (hturn : ∀ b ∈ seen, b ≠ a → ∀ args args', ShareKey (tasks b) (tasks a) args args' →
        ∃ outcome, ps b = .pure outcome)
      (hstep : paymentStep rt w (.createOrGetPaymentRequest request) answer w') :
      InTurn rt tasks (a :: seen) w' (Function.update ps a (k answer))
  | other {seen : List String} {w w' : Ledger} {ps : Pool} {a : String} {op : PaymentOp}
      {k : PaymentAns op → PaymentProg PaymentOutcome} (answer : PaymentAns op)
      (hrun : InTurn rt tasks seen w ps) (hcall : ps a = .call op k) (hother : op.creates = false)
      (hstep : paymentStep rt w op answer w') :
      InTurn rt tasks seen w' (Function.update ps a (k answer))

section InTurn

variable {rt : PaymentRuntime} {tasks : String → PaymentTask} {seen : List String} {w w' : Ledger}
  {ps : Pool} {a : String}

theorem lookupAgrees_of_other {op : PaymentOp} (answer : PaymentAns op) (h : op.creates = false) :
    lookupAgrees w op answer := by
  unfold lookupAgrees
  split
  · cases h
  · trivial

/-- A call adds no row but the one it looks up. -/
theorem owner_of_step {op : PaymentOp} {answer : PaymentAns op} (hop : OpOk a w op)
    (hstep : paymentStep rt w op answer w') :
    ∀ row ∈ w'.rows, (∃ row₀ ∈ w.rows, row₀.owner = row.owner) ∨
      op.creates = true ∧ row.owner = a := by
  have hinsert {request : PaymentRequest} (howner : request.actionRequestId = a)
      (h : inserts w request w') : ∀ row ∈ w'.rows,
        (∃ row₀ ∈ w.rows, row₀.owner = row.owner) ∨ row.owner = a := by
    obtain ⟨haccepts, rfl⟩ := h
    intro row hrow
    rcases List.mem_cons.mp hrow with rfl | hrow
    · exact .inr howner
    · exact .inl ⟨row, hrow, rfl⟩
  intro row hrow
  unfold paymentStep at hstep
  split at hstep
  · rename_i request answer
    have howner := hop.creates request rfl
    unfold createOrGet at hstep
    split at hstep
    · rcases hstep with rfl | h
      · exact .inl ⟨row, hrow, rfl⟩
      · exact (hinsert howner h row hrow).imp_right fun h => ⟨rfl, h⟩
    · rcases hstep with ⟨_, -, -, rfl⟩ | ⟨h, -⟩
      · exact .inl ⟨row, hrow, rfl⟩
      · exact (hinsert howner h row hrow).imp_right fun h => ⟨rfl, h⟩
  · obtain ⟨-, reception, rfl⟩ := hstep
    refine .inl ?_
    split at hrow
    · obtain ⟨row₀, hrow₀, rfl⟩ := List.mem_map.mp hrow
      exact ⟨row₀, hrow₀, (LedgerRow.owner_advance ..).symm⟩
    · exact ⟨row, hrow, rfl⟩

/-- What an action of a run in turn finds under its key is its own payment, executed: whoever
stored the row has come back with success, and not as a duplicate. -/
theorem lookupAgrees_of_turn (hagree : KeysAgree tasks) (hreach : Reaches rt lookupAgrees tasks w ps)
    (howners : ∀ row ∈ w.rows, row.owner ∈ seen) {request : PaymentRequest}
    {k : PaymentAns (.createOrGetPaymentRequest request) → PaymentProg PaymentOutcome}
    (answer : PaymentAns (.createOrGetPaymentRequest request))
    (hcall : ps a = .call (.createOrGetPaymentRequest request) k)
    (hturn : ∀ b ∈ seen, b ≠ a → ∀ args args', ShareKey (tasks b) (tasks a) args args' →
      ∃ outcome, ps b = .pure outcome) :
    lookupAgrees w (.createOrGetPaymentRequest request) answer := by
  intro row hstored hother
  obtain ⟨args, id, hparse, rfl⟩ := looksUp_of_reaches hreach hcall request rfl
  obtain ⟨hmem, hkey⟩ := Ledger.stored_eq_some_iff.mp hstored
  have hrow : w.rowOf row.owner = some row := Ledger.rowOf_eq_some_iff.mpr ⟨hmem, rfl⟩
  obtain ⟨args', id', hparse', hrequest, -⟩ := stateOk_of_reaches hreach row.owner row hrow
  have hshare : ShareKey (tasks row.owner) (tasks a) args' args := by
    rw [LedgerRow.tenantKey, hrequest] at hkey
    exact ⟨hparse', hparse, congrArg Prod.fst hkey, congrArg Prod.snd hkey⟩
  obtain ⟨hoperation, hdestination, hamount, hinvoice⟩ := hagree _ _ _ _ hshare
  obtain ⟨outcome, hend⟩ := hturn _ (howners row hmem) hother _ _ hshare
  refine ⟨?_, ?_⟩
  · rw [hrequest]
    exact ⟨hoperation, hdestination, hamount, hinvoice⟩
  · obtain ⟨-, hends⟩ := actionEnds_of_reaches hreach hend
    cases outcome with
    | executed =>
      obtain ⟨_, -, -, p, hown, hexecuted⟩ := hends
      rw [hrow] at hown
      obtain rfl : row.progress = p := congrArg LedgerRow.progress (Option.some.inj hown)
      exact hexecuted
    | duplicate =>
      obtain ⟨hnone, -⟩ := hends
      rw [hrow] at hnone
      cases hnone

/-- In a run in turn every lookup agrees, and every row is of an action that has looked up. -/
theorem InTurn.reaches (hagree : KeysAgree tasks) (hrun : InTurn rt tasks seen w ps) :
    Reaches rt lookupAgrees tasks w ps ∧ ∀ row ∈ w.rows, row.owner ∈ seen := by
  induction hrun with
  | start => exact ⟨.refl, fun _ hrow => absurd hrow List.not_mem_nil⟩
  | @lookup seen w w' ps a request k answer _ hcall hturn hstep ih =>
    obtain ⟨hreach, howners⟩ := ih
    refine ⟨.tail hreach (.turn a ?_), fun row hrow => ?_⟩
    · rw [hcall]
      exact .call ⟨lookupAgrees_of_turn hagree hreach howners answer hcall hturn, hstep⟩
    · rcases owner_of_step (opOk_of_reaches hreach hcall) hstep row hrow with
        ⟨row₀, hrow₀, heq⟩ | ⟨-, rfl⟩
      · exact List.mem_cons_of_mem _ (heq ▸ howners row₀ hrow₀)
      · exact List.mem_cons_self
  | @other seen w w' ps a op k answer _ hcall hother hstep ih =>
    obtain ⟨hreach, howners⟩ := ih
    refine ⟨.tail hreach (.turn a ?_), fun row hrow => ?_⟩
    · rw [hcall]
      exact .call ⟨lookupAgrees_of_other answer hother, hstep⟩
    · rcases owner_of_step (opOk_of_reaches hreach hcall) hstep row hrow with
        ⟨row₀, hrow₀, heq⟩ | ⟨hcreates, -⟩
      · exact heq ▸ howners row₀ hrow₀
      · rw [hother] at hcreates
        cases hcreates

/-! Extending a run in turn by a call of the program looked at. -/

theorem InTurn.focus {q : PaymentProg PaymentOutcome} (h : InTurn rt tasks seen w ps)
    (hq : ps a = q) : InTurn rt tasks seen w (Function.update ps a q) := by
  rw [← hq, Function.update_eq_self]
  exact h

theorem InTurn.then_other {op : PaymentOp} {k : PaymentAns op → PaymentProg PaymentOutcome}
    (h : InTurn rt tasks seen w (Function.update ps a (.call op k))) (answer : PaymentAns op)
    (w' : Ledger) (hother : op.creates = false) (hstep : paymentStep rt w op answer w') :
    InTurn rt tasks seen w' (Function.update ps a (k answer)) := by
  have hnext := h.other answer (Function.update_self ..) hother hstep
  rwa [Function.update_idem] at hnext

theorem InTurn.then_lookup {request : PaymentRequest}
    {k : PaymentAns (.createOrGetPaymentRequest request) → PaymentProg PaymentOutcome}
    (h : InTurn rt tasks seen w (Function.update ps a (.call (.createOrGetPaymentRequest request) k)))
    (answer : PaymentAns (.createOrGetPaymentRequest request)) (w' : Ledger)
    (hturn : ∀ b ∈ seen, b ≠ a → ∃ outcome, ps b = .pure outcome)
    (hstep : paymentStep rt w (.createOrGetPaymentRequest request) answer w') :
    InTurn rt tasks (a :: seen) w' (Function.update ps a (k answer)) := by
  have hnext := h.lookup answer (Function.update_self ..) (fun b hb hne _ _ _ => by
    rw [Function.update_of_ne hne]
    exact hturn b hb hne) hstep
  rwa [Function.update_idem] at hnext

end InTurn

/-- While the actions of a key ask for one payment, one after the other, every action that
returns success was for a payment that was made. -/
theorem duplicates_were_executed (rt : PaymentRuntime) (tasks : String → PaymentTask)
    (hagree : KeysAgree tasks) (seen : List String) (w : Ledger) (ps : Pool)
    (hrun : InTurn rt tasks seen w ps) (a : String) (outcome : PaymentOutcome)
    (hend : ps a = .pure outcome) : PaymentMade (tasks a) a w outcome :=
  paymentMade_of_lookupAgrees (hrun.reaches hagree).1 hend

/-- A worker with the mock wallet and an approval threshold. -/
def approvalConfig : WorkerConfig where
  workerId := "worker-1"
  llm := Llm.sampleConfig
  payment := { nwcEnabled := true, approvalThresholdMsat := some 1000 }

def approvalTask (approved : Bool) : PaymentTask where
  config := approvalConfig
  run := samplePaymentRun
  spentMsat := 0
  rawArgs := samplePaymentArgs "nwc:main" "k1" 1000 approved

def approvalRequest (approved : Bool) : PaymentRequest :=
  newPaymentRequest samplePaymentRun "act-1" "pay-1"
    ⟨"nwc:main", ⟨.nwc, "main"⟩, .payInvoice, "k1", some 1000, approved, .str "lnbc1", .null⟩

def approvalLedger (approved : Bool) (status : PaymentStatus) : Ledger :=
  ((Ledger.empty.insert (approvalRequest approved) (accepts_empty _)).modify "pay-1"
    (·.addResult status)).modify "pay-1" (·.setStatus status)

/-- A payment is refused for want of approval; asked for again with approval, it
is answered as a duplicate and never made. -/
theorem refused_payment_duplicated :
    ¬ ∀ w ps, Reaches samplePaymentRuntime anyStep
        (fun a => if a = "act-1" then approvalTask false else approvalTask true) w ps →
      ∀ a outcome, ps a = .pure outcome →
        PaymentMade (if a = "act-1" then approvalTask false else approvalTask true) a w outcome := by
  intro h
  have hstart : Reaches samplePaymentRuntime anyStep
      (fun a => if a = "act-1" then approvalTask false else approvalTask true) .empty
      (startAll samplePaymentRuntime fun a =>
        if a = "act-1" then approvalTask false else approvalTask true) := .refl
  have hfirst := Handler.PoolReaches.focus hstart (i := "act-1") rfl
  have hid := hfirst.then_call "pay-1" .empty ⟨trivial, trivial, .direct true, rfl⟩
  have hstored := hid.then_call (.ok { approvalRequest false with status := .requested })
    (Ledger.empty.insert (approvalRequest false) (accepts_empty _))
    ⟨trivial, .inr ⟨⟨_, rfl⟩, rfl⟩⟩
  have hresult := hstored.then_call (.ok ()) _ ⟨trivial, trivial, .direct true, rfl⟩
  have hrefused := hresult.then_call (.ok ()) (approvalLedger false .failed)
    ⟨trivial, trivial, .direct true, rfl⟩
  have hsecond := Handler.PoolReaches.focus hrefused (i := "act-2") rfl
  have hid' := hsecond.then_call "pay-2" _ ⟨trivial, trivial, .direct true, rfl⟩
  have hfound := hid'.then_call (.ok { approvalRequest false with status := .failed })
    (approvalLedger false .failed) ⟨trivial, .inl ⟨_, rfl, rfl, rfl⟩⟩
  have hend := hfound.then_call (.ok none) _ ⟨trivial, trivial, .direct true, rfl⟩
  obtain ⟨args, id, hparse, row, hrow, -, -, hexecuted⟩ := h _ _ hend "act-2" _ rfl
  cases hparse
  cases hrow
  exact absurd hexecuted (by decide)

/-- The approved payment is made, and asked for again it is answered as a
duplicate of itself. -/
theorem duplicates_were_executed_approved :
    PaymentMade (approvalTask true) "act-2" (approvalLedger true .executed)
      (.duplicate { approvalRequest true with status := .executed } none) := by
  have hagree : KeysAgree fun _ => approvalTask true := by
    rintro a b args args' ⟨hparse, hparse', -, -⟩
    rw [hparse] at hparse'
    cases hparse'
    exact ⟨rfl, rfl, rfl, rfl⟩
  have hstart : InTurn samplePaymentRuntime (fun _ => approvalTask true) [] .empty
      (startAll samplePaymentRuntime fun _ => approvalTask true) := .start
  have hfirst := InTurn.focus hstart (a := "act-1") rfl
  have hid := hfirst.then_other "pay-1" .empty rfl ⟨trivial, .direct true, rfl⟩
  have hstored := hid.then_lookup (.ok { approvalRequest true with status := .requested })
    (Ledger.empty.insert (approvalRequest true) (accepts_empty _)) nofun (.inr ⟨⟨_, rfl⟩, rfl⟩)
  have hresult := hstored.then_other (.ok ()) _ rfl ⟨trivial, .direct true, rfl⟩
  have hmarked := hresult.then_other (.ok ()) (approvalLedger true .executed) rfl
    ⟨trivial, .direct true, rfl⟩
  have houtbox := hmarked.then_other (.ok ()) _ rfl ⟨trivial, .direct true, rfl⟩
  have hended := houtbox.then_other (.ok ()) _ rfl ⟨trivial, .direct true, rfl⟩
  have hsecond := InTurn.focus hended (a := "act-2") rfl
  have hid' := hsecond.then_other "pay-2" _ rfl ⟨trivial, .direct true, rfl⟩
  have hfound := hid'.then_lookup (.ok { approvalRequest true with status := .executed })
    (approvalLedger true .executed) (fun b hb _ => by
      rw [List.mem_singleton.mp hb]
      exact ⟨_, Function.update_self ..⟩) (.inl ⟨_, rfl, rfl, rfl⟩)
  have hend := hfound.then_other (.ok none) _ rfl ⟨trivial, .direct true, rfl⟩
  exact duplicates_were_executed samplePaymentRuntime (fun _ => approvalTask true) hagree _ _ _ hend
    "act-2" _ rfl

end Payment
end SecureAgnt

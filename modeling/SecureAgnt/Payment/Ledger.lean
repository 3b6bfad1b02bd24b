/-
The payment ledger and what each call of an action does to it.

A row of `payment_requests` keeps its request for good; what changes with time is
its `Progress`, which also remembers what no table stores: the sums its budget
checks were answered and the requests sent for it, each with whether it was
answered and whether the endpoint settled it.  `Ledger` carries the table's
primary key and its two unique indexes, and beside the rows every request that was
sent, under the row id it was sent with, whether there is such a row or not.

`paymentHandler` gives the calls their meaning.  A statement that reports an
error has no effect, except that an insert may have happened when reading the row
back failed.  Where the servers redirect a request to a mint and whether an endpoint
settles a payment request is free, whatever the answer: the client for the mints
follows redirects, so that more than one endpoint can get the payment's body.
-/
import SecureAgnt.Lib.Http
import SecureAgnt.Lib.Run
import SecureAgnt.Lib.Table
import SecureAgnt.Payment.Send

namespace SecureAgnt
namespace Payment

/-! ## Progress -/

/-- A payment request sent to an endpoint. -/
structure Attempt where
  endpoint : String
  answered : Bool
  settled : Bool
  deriving DecidableEq, Repr

structure Progress where
  status : PaymentStatus := .requested
  results : List PaymentStatus := []
  readings : List (SpendScope × Int) := []
  attempts : List Attempt := []
  deriving DecidableEq, Repr

namespace Progress

/-- The payment is recorded as executed. -/
def executed (p : Progress) : Bool := p.results.contains .executed

/-- Money has left for the payment, recorded or not. -/
def paid (p : Progress) : Bool := p.executed || p.attempts.any (·.settled)

def addResult (p : Progress) (status : PaymentStatus) : Progress :=
  { p with results := status :: p.results }

def setStatus (p : Progress) (status : PaymentStatus) : Progress := { p with status }

def read (p : Progress) (scope : SpendScope) (total : Int) : Progress :=
  { p with readings := (scope, total) :: p.readings }

def addAttempts (p : Progress) (attempts : List Attempt) : Progress :=
  { p with attempts := attempts ++ p.attempts }

@[simp] theorem executed_addResult (p : Progress) (status : PaymentStatus) :
    (p.addResult status).executed = (decide (status = .executed) || p.executed) := by
  cases status <;> simp [executed, addResult]

@[simp] theorem paid_addResult (p : Progress) (status : PaymentStatus) :
    (p.addResult status).paid = (decide (status = .executed) || p.paid) := by
  simp only [paid, executed_addResult, Bool.or_assoc]
  rfl

@[simp] theorem executed_setStatus (p : Progress) (status : PaymentStatus) :
    (p.setStatus status).executed = p.executed := rfl

@[simp] theorem paid_setStatus (p : Progress) (status : PaymentStatus) :
    (p.setStatus status).paid = p.paid := rfl

@[simp] theorem executed_read (p : Progress) (scope : SpendScope) (total : Int) :
    (p.read scope total).executed = p.executed := rfl

@[simp] theorem paid_read (p : Progress) (scope : SpendScope) (total : Int) :
    (p.read scope total).paid = p.paid := rfl

@[simp] theorem executed_addAttempts (p : Progress) (attempts : List Attempt) :
    (p.addAttempts attempts).executed = p.executed := rfl

@[simp] theorem paid_addAttempts (p : Progress) (attempts : List Attempt) :
    (p.addAttempts attempts).paid = (attempts.any (·.settled) || p.paid) := by
  show (p.executed || (attempts ++ p.attempts).any (·.settled)) = _
  rw [List.any_append, Bool.or_left_comm]
  rfl

end Progress

/-! ## The ledger -/

structure LedgerRow where
  request : PaymentRequest
  progress : Progress

namespace LedgerRow

def record (row : LedgerRow) : PaymentRequestRecord := { row.request with status := row.progress.status }

def id (row : LedgerRow) : String := row.request.id

def owner (row : LedgerRow) : String := row.request.actionRequestId

/-- The columns of `idx_payment_requests_tenant_idempotency`. -/
def tenantKey (row : LedgerRow) : String × String :=
  (row.request.tenantId, row.request.idempotencyKey)

def inScope (row : LedgerRow) : SpendScope → Bool
  | .tenant tenantId => row.request.tenantId == tenantId
  | .agent tenantId agentId => row.request.tenantId == tenantId && row.request.agentId == agentId

/-- Change the progress of the row with this id. -/
def advance (id : String) (f : Progress → Progress) (row : LedgerRow) : LedgerRow :=
  if row.id = id then { row with progress := f row.progress } else row

variable (id : String) (f : Progress → Progress) (row : LedgerRow)

@[simp] theorem request_advance : (row.advance id f).request = row.request := by
  unfold advance
  split <;> rfl

@[simp] theorem id_advance : (row.advance id f).id = row.id := by simp [LedgerRow.id]

@[simp] theorem owner_advance : (row.advance id f).owner = row.owner := by simp [owner]

@[simp] theorem tenantKey_advance : (row.advance id f).tenantKey = row.tenantKey := by
  simp [tenantKey]

theorem advance_of_ne {id : String} {row : LedgerRow} (h : row.id ≠ id) : row.advance id f = row :=
  if_neg h

end LedgerRow

/-- `asked` holds the requests sent for payments, the latest first, each with the row id it
was sent with. -/
structure Ledger where
  rows : List LedgerRow
  asked : List (String × Attempt)
  ids : (rows.map LedgerRow.id).Nodup
  owners : (rows.map LedgerRow.owner).Nodup
  tenantKeys : (rows.map LedgerRow.tenantKey).Nodup

namespace Ledger

def empty : Ledger := ⟨[], [], List.nodup_nil, List.nodup_nil, List.nodup_nil⟩

def rowOf (w : Ledger) (actionRequestId : String) : Option LedgerRow :=
  Table.find LedgerRow.owner w.rows actionRequestId

def stored (w : Ledger) (tenantId idempotencyKey : String) : Option LedgerRow :=
  Table.find LedgerRow.tenantKey w.rows (tenantId, idempotencyKey)

/-- The requests sent with the id of the row that is stored under a key. -/
def attemptsUnder (w : Ledger) (tenantId idempotencyKey : String) : List Attempt :=
  match w.stored tenantId idempotencyKey with
  | some row => (w.asked.filter fun entry => entry.1 = row.id).map (·.2)
  | none => []

def modify (w : Ledger) (id : String) (f : Progress → Progress) : Ledger where
  rows := w.rows.map (LedgerRow.advance id f)
  asked := w.asked
  ids := by simpa [Function.comp_def] using w.ids
  owners := by simpa [Function.comp_def] using w.owners
  tenantKeys := by simpa [Function.comp_def] using w.tenantKeys

/-- Note the requests sent with an id. -/
def note (w : Ledger) (id : String) (attempts : List Attempt) : Ledger :=
  { w with asked := attempts.map (fun attempt => (id, attempt)) ++ w.asked }

/-- No unique column holds a value of the request's yet. -/
structure Accepts (w : Ledger) (request : PaymentRequest) : Prop where
  id : request.id ∉ w.rows.map LedgerRow.id
  owner : request.actionRequestId ∉ w.rows.map LedgerRow.owner
  tenantKey : (request.tenantId, request.idempotencyKey) ∉ w.rows.map LedgerRow.tenantKey

def insert (w : Ledger) (request : PaymentRequest) (h : w.Accepts request) : Ledger where
  rows := ⟨request, {}⟩ :: w.rows
  asked := w.asked
  ids := List.nodup_cons.mpr ⟨h.id, w.ids⟩
  owners := List.nodup_cons.mpr ⟨h.owner, w.owners⟩
  tenantKeys := List.nodup_cons.mpr ⟨h.tenantKey, w.tenantKeys⟩

/-- `SUM(amount_msat)` over the executed `pay_invoice` rows of a scope. -/
def executedSum (w : Ledger) (scope : SpendScope) : Int :=
  ((w.rows.filter fun row => row.inScope scope && row.request.operation = .payInvoice &&
    row.progress.status = .executed).map fun row => row.request.amountMsat.getD 0).sum

variable {w : Ledger} {a b id : String} {row : LedgerRow} {f : Progress → Progress}
  {request : PaymentRequest}

theorem rowOf_eq_some_iff : w.rowOf a = some row ↔ row ∈ w.rows ∧ row.owner = a :=
  Table.find_eq_some_iff w.owners

theorem stored_eq_some_iff {tenantId idempotencyKey : String} :
    w.stored tenantId idempotencyKey = some row ↔
      row ∈ w.rows ∧ row.tenantKey = (tenantId, idempotencyKey) :=
  Table.find_eq_some_iff w.tenantKeys

theorem eq_of_id_eq {row' : LedgerRow} (hrow : row ∈ w.rows) (hrow' : row' ∈ w.rows)
    (hid : row.id = row'.id) : row = row' := by
  have h : Table.find LedgerRow.id w.rows row'.id = some row :=
    (Table.find_eq_some_iff w.ids).mpr ⟨hrow, hid⟩
  have h' : Table.find LedgerRow.id w.rows row'.id = some row' :=
    (Table.find_eq_some_iff w.ids).mpr ⟨hrow', rfl⟩
  rw [h] at h'
  exact Option.some.inj h'

theorem rowOf_modify : (w.modify id f).rowOf a = (w.rowOf a).map (LedgerRow.advance id f) :=
  Table.find_map fun row => LedgerRow.owner_advance id f row

/-- A change of one action's row is no change of another's. -/
theorem rowOf_modify_of_ne (hrow : w.rowOf a = some row) (hab : b ≠ a) :
    (w.modify row.id f).rowOf b = w.rowOf b := by
  rw [rowOf_modify]
  cases hother : w.rowOf b with
  | none => rfl
  | some other =>
    obtain ⟨hmem, howner⟩ := rowOf_eq_some_iff.mp hrow
    obtain ⟨hmem', howner'⟩ := rowOf_eq_some_iff.mp hother
    have hid : other.id ≠ row.id := fun hid =>
      hab (howner'.symm.trans ((congrArg LedgerRow.owner (eq_of_id_eq hmem' hmem hid)).trans howner))
    rw [Option.map_some, LedgerRow.advance_of_ne f hid]

theorem rowOf_modify_self (hrow : w.rowOf a = some row) :
    (w.modify row.id f).rowOf a = some { row with progress := f row.progress } := by
  rw [rowOf_modify, hrow, Option.map_some]
  simp [LedgerRow.advance]

@[simp] theorem rowOf_note {attempts : List Attempt} :
    (w.note id attempts).rowOf a = w.rowOf a := rfl

theorem rowOf_insert (h : w.Accepts request) :
    (w.insert request h).rowOf a =
      if request.actionRequestId = a then some ⟨request, {}⟩ else w.rowOf a := by
  unfold rowOf insert
  rw [Table.find_cons]
  rfl

/-- Rows stay, and what was executed stays executed. -/
def Grows (w w' : Ledger) : Prop :=
  ∀ row ∈ w.rows, ∃ row' ∈ w'.rows, row'.request = row.request ∧
    (row.progress.executed = true → row'.progress.executed = true)

theorem grows_refl (w : Ledger) : w.Grows w := fun row hrow => ⟨row, hrow, rfl, id⟩

theorem Grows.trans {w₁ w₂ w₃ : Ledger} (h : w₁.Grows w₂) (h' : w₂.Grows w₃) : w₁.Grows w₃ := by
  intro row hrow
  obtain ⟨row', hrow', hreq, hexec⟩ := h row hrow
  obtain ⟨row'', hrow'', hreq', hexec'⟩ := h' row' hrow'
  exact ⟨row'', hrow'', hreq'.trans hreq, fun he => hexec' (hexec he)⟩

theorem grows_insert (h : w.Accepts request) : w.Grows (w.insert request h) :=
  fun row hrow => ⟨row, List.mem_cons_of_mem _ hrow, rfl, id⟩

theorem Grows.note {w' : Ledger} {attempts : List Attempt} (h : w.Grows w') :
    w.Grows (w'.note id attempts) := h

theorem grows_modify (hf : ∀ p : Progress, p.executed = true → (f p).executed = true) :
    w.Grows (w.modify id f) := by
  intro row hrow
  refine ⟨row.advance id f, List.mem_map_of_mem hrow, LedgerRow.request_advance .., fun he => ?_⟩
  unfold LedgerRow.advance
  split
  · exact hf _ he
  · exact he

end Ledger

/-! ## Calls -/

/-- The row a call changes. -/
def PaymentOp.target? : PaymentOp → Option String
  | .sumExecutedAmount id _ => some id
  | .createPaymentResult result => some result.paymentRequestId
  | .updatePaymentRequestStatus id _ => some id
  | .attemptNwcRelay id .. => some id
  | .sendCashuRequest id .. => some id
  | _ => none

def PaymentOp.creates : PaymentOp → Bool
  | .createOrGetPaymentRequest _ => true
  | _ => false

def CashuHttpRequest.pays (request : CashuHttpRequest) : Bool :=
  match request.body with
  | some body => body.operation = .payInvoice
  | none => false

def NwcRequest.pays : NwcRequest → Bool
  | .payInvoice .. => true
  | _ => false

/-- The call asks an endpoint for a payment. -/
def PaymentOp.pays : PaymentOp → Bool
  | .attemptNwcRelay _ _ _ request => request.pays
  | .sendCashuRequest _ _ request => request.pays
  | _ => false

def relayAnswered (rt : PaymentRuntime) (uri relayUrl : String) (attempt : RelayAttempt) : Bool :=
  match rt.wallet.parseUri uri with
  | .ok parsed => (sendNwcRequestToRelay rt.wallet parsed relayUrl attempt).isOk
  | .error _ => false

def mintAnswered : Except String (Nat × String) → Bool
  | .ok (httpStatus, _) => 200 ≤ httpStatus && httpStatus ≤ 299
  | .error _ => false

/-- What the servers make of a request: where it is redirected, and whether each server that
gets its body settles it, in order. -/
structure Reception where
  hops : Http.Hops
  settled : Nat → Bool

/-- No redirect. -/
def Reception.direct (settled : Bool) : Reception := ⟨.none, fun _ => settled⟩

/-- A request that was sent to `url` after those of `earlier`, and sent again to the URLs of
`resent`: only the last that gets it can answer. -/
def attemptsAt (settled : Nat → Bool) (answered : Bool) :
    (url : String) → (resent : List String) → (earlier : List Attempt) → List Attempt
  | url, [], earlier => ⟨url, answered, settled earlier.length⟩ :: earlier
  | url, next :: rest, earlier =>
    attemptsAt settled answered next rest (⟨url, false, settled earlier.length⟩ :: earlier)

/-- The requests for payment that a call comes to, the latest first. -/
def PaymentOp.attempts (rt : PaymentRuntime) (reception : Reception) :
    (op : PaymentOp) → PaymentAns op → List Attempt
  | .attemptNwcRelay _ uri relayUrl request, attempt =>
    if request.pays then [⟨uri, relayAnswered rt uri relayUrl attempt, reception.settled 0⟩] else []
  | .sendCashuRequest _ mintUri request, answer =>
    if request.pays then
      attemptsAt reception.settled (mintAnswered answer) mintUri reception.hops.resent []
    else []
  | _, _ => []

/-- What a statement with its answer does to the row it is for. -/
def recorded : (op : PaymentOp) → PaymentAns op → Progress → Progress
  | .sumExecutedAmount _ scope, .ok total, p => p.read scope total
  | .createPaymentResult result, .ok (), p => p.addResult result.status
  | .updatePaymentRequestStatus _ status, .ok (), p => p.setStatus status
  | _, _, p => p

/-- What a call with its answer does to the row it is for. -/
def effect (rt : PaymentRuntime) (reception : Reception) (op : PaymentOp) (answer : PaymentAns op)
    (p : Progress) : Progress :=
  (recorded op answer p).addAttempts (op.attempts rt reception answer)

def inserts (w : Ledger) (request : PaymentRequest) (w' : Ledger) : Prop :=
  ∃ h : w.Accepts request, w' = w.insert request h

/-- `INSERT .. ON CONFLICT (tenant_id, idempotency_key) DO NOTHING`, then the row
under the key. -/
def createOrGet (w : Ledger) (request : PaymentRequest) (w' : Ledger) :
    Except String PaymentRequestRecord → Prop
  | .error _ => w' = w ∨ inserts w request w'
  | .ok record =>
    (∃ row, w.stored request.tenantId request.idempotencyKey = some row ∧ record = row.record ∧
      w' = w) ∨
    (inserts w request w' ∧ record = { request with status := .requested })

/-- A sum that is answered is the sum there is, as a 64-bit integer. -/
def sumsTruly (w : Ledger) : (op : PaymentOp) → PaymentAns op → Prop
  | .sumExecutedAmount _ scope, .ok total =>
    total = w.executedSum scope ∧ -2 ^ 63 ≤ total ∧ total < 2 ^ 63
  | _, _ => True

def paymentStep (rt : PaymentRuntime) (w : Ledger) (op : PaymentOp) (answer : PaymentAns op)
    (w' : Ledger) : Prop :=
  match op, answer with
  | .createOrGetPaymentRequest request, answer => createOrGet w request w' answer
  | op, answer => sumsTruly w op answer ∧ ∃ reception, w' =
      match op.target? with
      | some id =>
        (w.modify id (effect rt reception op answer)).note id (op.attempts rt reception answer)
      | none => w

/-- The calls in the runs whose steps all meet `cond`. -/
def paymentHandler (rt : PaymentRuntime) (cond : Ledger → (op : PaymentOp) → PaymentAns op → Prop) :
    Handler PaymentOp PaymentAns Ledger where
  step w op answer w' := cond w op answer ∧ paymentStep rt w op answer w'

/-! ## Requests for payment -/

section Attempts

variable {rt : PaymentRuntime} {reception : Reception} {op : PaymentOp} {answer : PaymentAns op}
  {p : Progress}

/-- Only the latest of the requests can have been answered. -/
theorem unanswered_attemptsAt (settled : Nat → Bool) (answered : Bool) (url : String)
    (resent : List String) (earlier : List Attempt) (hearlier : ∀ x ∈ earlier, x.answered = false) :
    ∃ x rest, attemptsAt settled answered url resent earlier = x :: rest ∧ x.answered = answered ∧
      ∀ y ∈ rest, y.answered = false := by
  induction resent generalizing url earlier with
  | nil => exact ⟨_, earlier, rfl, rfl, hearlier⟩
  | cons next rest ih =>
    refine ih next _ fun x hx => ?_
    rcases List.mem_cons.mp hx with rfl | hx
    · rfl
    · exact hearlier x hx

theorem attempts_of_not_pays (h : op.pays = false) : op.attempts rt reception answer = [] := by
  unfold PaymentOp.attempts
  split
  · exact if_neg (Bool.eq_false_iff.mp h)
  · exact if_neg (Bool.eq_false_iff.mp h)
  · rfl

theorem pays_of_attempts (h : op.attempts rt reception answer ≠ []) : op.pays = true := by
  by_contra hno
  exact h (attempts_of_not_pays (Bool.eq_false_iff.mpr hno))

/-- The requests of a call with its answer count as answered as the worker sees it. -/
theorem unanswered_attempts (rt : PaymentRuntime) (reception : Reception) (op : PaymentOp)
    (answer : PaymentAns op) : ∀ x ∈ (op.attempts rt reception answer).tail, x.answered = false := by
  unfold PaymentOp.attempts
  split
  · split <;> exact fun x hx => nomatch hx
  · split
    · obtain ⟨x, rest, hlist, -, hrest⟩ := unanswered_attemptsAt reception.settled _ _ _ [] nofun
      rw [hlist]
      exact hrest
    · exact fun x hx => nomatch hx
  · exact fun x hx => nomatch hx

theorem attempts_relay_unanswered {id uri relayUrl : String} {request : NwcRequest}
    {attempt : RelayAttempt} (h : relayAnswered rt uri relayUrl attempt = false) :
    ∀ x ∈ (PaymentOp.attemptNwcRelay id uri relayUrl request).attempts rt reception attempt,
      x.answered = false := by
  unfold PaymentOp.attempts
  dsimp only
  split
  · intro x hx
    rw [List.mem_singleton.mp hx]
    exact h
  · exact fun x hx => nomatch hx

theorem attempts_mint_unanswered {id mintUri : String} {request : CashuHttpRequest}
    {answer : Except String (Nat × String)} (h : mintAnswered answer = false) :
    ∀ x ∈ (PaymentOp.sendCashuRequest id mintUri request).attempts rt reception answer,
      x.answered = false := by
  unfold PaymentOp.attempts
  dsimp only
  split
  · obtain ⟨x, rest, hlist, hfirst, hrest⟩ := unanswered_attemptsAt reception.settled
      (mintAnswered answer) mintUri reception.hops.resent [] nofun
    rw [hlist]
    intro y hy
    rcases List.mem_cons.mp hy with rfl | hy
    · exact hfirst.trans h
    · exact hrest y hy
  · exact fun x hx => nomatch hx

/-- What a call adds to a row's requests. -/
theorem attempts_effect (op : PaymentOp) (answer : PaymentAns op) (p : Progress) :
    (effect rt reception op answer p).attempts = op.attempts rt reception answer ++ p.attempts := by
  have hkept : (recorded op answer p).attempts = p.attempts := by
    unfold recorded
    split <;> rfl
  exact congrArg (op.attempts rt reception answer ++ ·) hkept

theorem effect_executed (h : p.executed = true) :
    (effect rt reception op answer p).executed = true := by
  rw [effect, Progress.executed_addAttempts]
  unfold recorded
  split
  · exact h
  · simp [h]
  · exact h
  · exact h

end Attempts

/-! ## The log of requests -/

/-- The requests sent are those of the rows, each row's in order. -/
structure Ledger.Logged (w : Ledger) : Prop where
  stored : ∀ entry ∈ w.asked, ∃ row ∈ w.rows, row.id = entry.1
  attempts : ∀ row ∈ w.rows,
    (w.asked.filter fun entry => entry.1 = row.id).map (·.2) = row.progress.attempts

theorem logged_empty : Ledger.empty.Logged :=
  ⟨fun _ hentry => absurd hentry List.not_mem_nil, fun _ hrow => absurd hrow List.not_mem_nil⟩

theorem Ledger.Logged.insert {w : Ledger} {request : PaymentRequest} (h : w.Logged)
    (haccepts : w.Accepts request) : (w.insert request haccepts).Logged := by
  refine ⟨fun entry hentry => ?_, fun row hrow => ?_⟩
  · obtain ⟨row, hrow, hid⟩ := h.stored entry hentry
    exact ⟨row, List.mem_cons_of_mem _ hrow, hid⟩
  · rcases List.mem_cons.mp hrow with rfl | hrow
    · -- nothing was sent with the id of a row that was not there
      have hnone : (w.asked.filter fun entry => entry.1 = request.id) = [] := by
        refine List.filter_eq_nil_iff.mpr fun entry hentry => ?_
        obtain ⟨row, hrow, hid⟩ := h.stored entry hentry
        have hfresh : row.id ≠ request.id := fun heq =>
          haccepts.id (heq ▸ List.mem_map_of_mem hrow)
        rw [← hid]
        simpa using hfresh
      show (w.asked.filter fun entry => entry.1 = request.id).map (·.2) = []
      rw [hnone, List.map_nil]
    · exact h.attempts row hrow

/-- Requests sent with the id of a row. -/
theorem Ledger.Logged.send {w : Ledger} {row : LedgerRow} {f : Progress → Progress}
    {attempts : List Attempt} (h : w.Logged) (hrow : row ∈ w.rows)
    (hf : ∀ p : Progress, (f p).attempts = attempts ++ p.attempts) :
    ((w.modify row.id f).note row.id attempts).Logged := by
  refine ⟨fun entry hentry => ?_, fun row' hrow' => ?_⟩
  · have hfound : ∃ other ∈ w.rows, other.id = entry.1 := by
      rcases List.mem_append.mp hentry with hnew | hold
      · obtain ⟨x, -, rfl⟩ := List.mem_map.mp hnew
        exact ⟨row, hrow, rfl⟩
      · exact h.stored entry hold
    obtain ⟨other, hother, hid⟩ := hfound
    exact ⟨other.advance row.id f, List.mem_map_of_mem hother, (LedgerRow.id_advance ..).trans hid⟩
  · obtain ⟨other, hother, rfl⟩ := List.mem_map.mp hrow'
    have hbefore := h.attempts other hother
    rw [LedgerRow.id_advance]
    show ((attempts.map _ ++ w.asked).filter _).map _ = _
    rw [List.filter_append, List.map_append, hbefore]
    by_cases hid : other.id = row.id
    · have hall : (attempts.map fun attempt => (row.id, attempt)).filter
          (fun entry => entry.1 = other.id) = attempts.map fun attempt => (row.id, attempt) := by
        refine List.filter_eq_self.mpr fun entry hentry => ?_
        obtain ⟨x, -, rfl⟩ := List.mem_map.mp hentry
        exact decide_eq_true hid.symm
      rw [hall, List.map_map]
      unfold LedgerRow.advance
      rw [if_pos hid, hf]
      simp [Function.comp_def]
    · have hnone : (attempts.map fun attempt => (row.id, attempt)).filter
          (fun entry => entry.1 = other.id) = [] := by
        refine List.filter_eq_nil_iff.mpr fun entry hentry => ?_
        obtain ⟨x, -, rfl⟩ := List.mem_map.mp hentry
        simpa using Ne.symm hid
      rw [hnone, LedgerRow.advance_of_ne f hid]
      rfl

/-- The requests of a key are those of its row. -/
theorem Ledger.Logged.attemptsUnder {w : Ledger} {tenantId idempotencyKey : String} {row : LedgerRow}
    (h : w.Logged) (hstored : w.stored tenantId idempotencyKey = some row) :
    w.attemptsUnder tenantId idempotencyKey = row.progress.attempts := by
  unfold Ledger.attemptsUnder
  rw [hstored]
  exact h.attempts row (Ledger.stored_eq_some_iff.mp hstored).1

theorem grows_of_step {rt : PaymentRuntime} {w w' : Ledger} {op : PaymentOp}
    {answer : PaymentAns op} (h : paymentStep rt w op answer w') : w.Grows w' := by
  unfold paymentStep at h
  split at h
  · unfold createOrGet at h
    split at h
    · rcases h with rfl | ⟨haccepts, rfl⟩
      · exact Ledger.grows_refl _
      · exact Ledger.grows_insert haccepts
    · rcases h with ⟨row, -, -, rfl⟩ | ⟨⟨haccepts, rfl⟩, -⟩
      · exact Ledger.grows_refl _
      · exact Ledger.grows_insert haccepts
  · obtain ⟨-, reception, rfl⟩ := h
    split
    · exact (Ledger.grows_modify fun p hp => effect_executed hp).note
    · exact Ledger.grows_refl _

end Payment
end SecureAgnt

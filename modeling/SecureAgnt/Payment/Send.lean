/-
`execute_payment_send_action`: the ledger row, the duplicate check, the spend
checks, the two rails with their routes, and the recording of the result.

The action is a program over `PaymentOp`: the ledger's statements, the route
health table, the requests to wallets and mints, and the outbox.  A request to a
wallet or mint and a budget sum carry the id of the ledger row they are for, so
that a statement about a run can say which payment they belong to; the id is no
part of the message to a wallet.
-/
import SecureAgnt.Payment.Request

namespace SecureAgnt
namespace Payment

open Worker (PaymentConfig PaymentRouteConfig RunLeaseRecord WorkerConfig)

/-! ## Records -/

inductive PaymentStatus where
  | requested
  | executed
  | failed
  deriving DecidableEq, Repr

/-- What a row of `payment_requests` keeps for good. -/
structure PaymentRequest where
  id : String
  actionRequestId : String
  runId : String
  tenantId : String
  agentId : String
  provider : PaymentProvider
  operation : PaymentOperation
  destination : String
  idempotencyKey : String
  amountMsat : Option Int
  requestJson : PaymentArgs

structure PaymentRequestRecord extends PaymentRequest where
  status : PaymentStatus

inductive PaymentRail where
  | nwcNip47
  | nwcMock
  | cashuHttp
  | cashuMock
  deriving DecidableEq, Repr

inductive PaymentOutput where
  | payment (settlementStatus : String) (paymentHash paymentPreimage : Option String)
      (amountMsat feeMsat : Nat)
  | invoice (invoice : String) (paymentHash : Option String) (amountMsat : Nat)
  | balance (balanceMsat : Nat)
  deriving DecidableEq, Repr

/-- The counts and errors of a loop over routes. -/
structure RouteTally where
  errors : List String := []
  attempted : Nat := 0
  skippedUnhealthy : Nat := 0
  deriving DecidableEq, Repr

structure RouteMeta where
  rolloutLimited : Bool
  candidateCount : Nat
  selectedRouteIndex : Option Nat
  tally : RouteTally
  deriving DecidableEq, Repr

/-- The `execution_output` of a payment. -/
structure PaymentExecution where
  rail : PaymentRail
  target : String
  output : PaymentOutput
  route : Option RouteMeta
  deriving DecidableEq, Repr

/-- A row of `payment_results`; a failure has its code and message. -/
structure PaymentResult where
  paymentRequestId : String
  status : PaymentStatus
  resultJson : Option PaymentExecution
  errorJson : Option (String × String)
  deriving DecidableEq, Repr

/-- Whose executed payments a budget sums. -/
inductive SpendScope where
  | tenant (tenantId : String)
  | agent (tenantId agentId : String)
  deriving DecidableEq, Repr

/-! ## Calls -/

inductive PaymentOp where
  | newUuid
  | createOrGetPaymentRequest (request : PaymentRequest)
  | getLatestPaymentResult (paymentRequestId : String)
  | sumExecutedAmount (paymentRequestId : String) (scope : SpendScope)
  | createPaymentResult (result : PaymentResult)
  | updatePaymentRequestStatus (paymentRequestId : String) (status : PaymentStatus)
  | routeHealth (key : String)
  | markRouteSuccess (key : String)
  | markRouteFailure (key : String)
  | attemptNwcRelay (paymentRequestId uri relayUrl : String) (request : NwcRequest)
  | sendCashuRequest (paymentRequestId mintUri : String) (request : CashuHttpRequest)
  | writeOutbox (tenantId : String) (provider : PaymentProvider) (execution : PaymentExecution)
  | persistArtifact (runId : String)

abbrev PaymentAns : PaymentOp → Type
  | .newUuid => String
  | .createOrGetPaymentRequest _ => Except String PaymentRequestRecord
  | .getLatestPaymentResult _ => Except String (Option PaymentResult)
  | .sumExecutedAmount .. => Except String Int
  | .createPaymentResult _ => Except String Unit
  | .updatePaymentRequestStatus .. => Except String Unit
  | .routeHealth _ => Bool
  | .markRouteSuccess _ => Unit
  | .markRouteFailure _ => Unit
  | .attemptNwcRelay .. => RelayAttempt
  | .sendCashuRequest .. => Except String (Nat × String)
  | .writeOutbox .. => Except String Unit
  | .persistArtifact _ => Except String Unit

abbrev PaymentProg := Prog PaymentOp PaymentAns String

def ask (op : PaymentOp) : PaymentProg (PaymentAns op) := .perform op

/-! ## Failing a payment -/

/-- Both statements' errors are dropped. -/
def persistFailedPaymentRequest (paymentRequestId code message : String) : PaymentProg Unit := do
  let _ ← ask (.createPaymentResult ⟨paymentRequestId, .failed, none, some (code, message)⟩)
  let _ ← ask (.updatePaymentRequestStatus paymentRequestId .failed)
  .pure ()

def failPayment {α : Type} (paymentRequestId code message : String) : PaymentProg α := do
  persistFailedPaymentRequest paymentRequestId code message
  .fail message

/-! ## Spend checks -/

def checkApproval (config : PaymentConfig) (paymentRequestId : String) (paymentApproved : Bool)
    (amountMsat : Nat) : PaymentProg Unit :=
  match config.approvalThresholdMsat with
  | none => .pure ()
  | some threshold =>
    if amountMsat ≥ threshold ∧ paymentApproved = false then
      failPayment paymentRequestId "PAYMENT_APPROVAL_REQUIRED"
        ("payment.send requires approval for amount " ++ toString amountMsat ++
          " msat (threshold=" ++ toString threshold ++ ")")
    else .pure ()

/-- A budget check, once what is spent is known. -/
def checkSpent (paymentRequestId code budget : String) (limit spent amountMsat : Nat) :
    PaymentProg Unit :=
  if saturatingAdd spent amountMsat > limit then
    failPayment paymentRequestId code
      ("payment.send " ++ budget ++ " spend budget exceeded (remaining=" ++
        toString (limit - spent) ++ ", requested=" ++ toString amountMsat ++ ")")
  else .pure ()

def checkRunBudget (config : PaymentConfig) (paymentRequestId : String) (spentMsat amountMsat : Nat) :
    PaymentProg Unit :=
  match config.maxSpendMsatPerRun with
  | none => .pure ()
  | some limit =>
    checkSpent paymentRequestId "PAYMENT_RUN_BUDGET_EXCEEDED" "run" limit spentMsat amountMsat

/-- The check of a budget that is summed from the ledger; a negative sum counts
as nothing spent. -/
def checkSummedBudget (paymentRequestId code budget : String) (scope : SpendScope)
    (limit : Option Nat) (amountMsat : Nat) : PaymentProg Unit :=
  match limit with
  | none => .pure ()
  | some limit => do
    let total ← Prog.ofExcept (← ask (.sumExecutedAmount paymentRequestId scope))
    checkSpent paymentRequestId code budget limit (max total 0).toNat amountMsat

def checkTenantBudget (config : PaymentConfig) (run : RunLeaseRecord) (paymentRequestId : String)
    (amountMsat : Nat) : PaymentProg Unit :=
  checkSummedBudget paymentRequestId "PAYMENT_TENANT_BUDGET_EXCEEDED" "tenant" (.tenant run.tenantId)
    config.maxSpendMsatPerTenant amountMsat

def checkAgentBudget (config : PaymentConfig) (run : RunLeaseRecord) (paymentRequestId : String)
    (amountMsat : Nat) : PaymentProg Unit :=
  checkSummedBudget paymentRequestId "PAYMENT_AGENT_BUDGET_EXCEEDED" "agent"
    (.agent run.tenantId run.agentId) config.maxSpendMsatPerAgent amountMsat

/-- Only `pay_invoice` is checked. -/
def checkSpend (config : PaymentConfig) (run : RunLeaseRecord) (spentMsat : Nat)
    (paymentRequestId : String) (args : PaymentArgs) : PaymentProg Unit :=
  match args.operation, args.amountMsat with
  | .payInvoice, some amountMsat => do
    checkApproval config paymentRequestId args.paymentApproved amountMsat
    checkRunBudget config paymentRequestId spentMsat amountMsat
    checkTenantBudget config run paymentRequestId amountMsat
    checkAgentBudget config run paymentRequestId amountMsat
  | _, _ => .pure ()

/-! ## Routes in turn -/

def paymentRouteHealthKey (workerId : String) (provider : PaymentProvider)
    (walletId routeUri : String) : String :=
  workerId ++ "|" ++ provider.asStr ++ "|" ++ walletId ++ "|" ++ routeUri

def shouldAttemptPaymentRoute (route : PaymentRouteConfig) (key : String) : PaymentProg Bool :=
  if route.healthFailThreshold = 0 ∨ route.healthCooldownSecs = 0 then .pure true
  else ask (.routeHealth key)

def markPaymentRouteSuccess (route : PaymentRouteConfig) (key : String) : PaymentProg Unit :=
  if route.healthFailThreshold = 0 then .pure () else ask (.markRouteSuccess key)

def markPaymentRouteFailure (route : PaymentRouteConfig) (key : String) : PaymentProg Unit :=
  if route.healthFailThreshold = 0 ∨ route.healthCooldownSecs = 0 then .pure ()
  else ask (.markRouteFailure key)

/-- The loop over the candidates of a rail: unhealthy routes are skipped, the
first answer ends it, and an error goes on to the next route when failover is on. -/
def tryPaymentRoutes {α : Type} (route : PaymentRouteConfig) (healthKey : String → String)
    (send : String → PaymentProg α) :
    Nat → RouteTally → List String → PaymentProg (Option (Nat × α) × RouteTally)
  | _, tally, [] => .pure (none, tally)
  | index, tally, uri :: rest => do
    let healthy ← shouldAttemptPaymentRoute route (healthKey uri)
    if healthy = false then
      tryPaymentRoutes route healthKey send (index + 1)
        { tally with skippedUnhealthy := tally.skippedUnhealthy + 1 } rest
    else
      let attempted := { tally with attempted := tally.attempted + 1 }
      match ← (send uri).attempt with
      | .ok outcome => do
        markPaymentRouteSuccess route (healthKey uri)
        .pure (some (index + 1, outcome), attempted)
      | .error e => do
        markPaymentRouteFailure route (healthKey uri)
        let failed := { attempted with
          errors := attempted.errors ++ ["route " ++ toString (index + 1) ++ ": " ++ e] }
        if route.fallbackEnabled = false then .pure (none, failed)
        else tryPaymentRoutes route healthKey send (index + 1) failed rest

/-- The message of a loop that no route answered. -/
def routesFailedMessage (subject : String) (tally : RouteTally) : String :=
  if tally.errors = [] ∧ tally.skippedUnhealthy > 0 then
    subject ++ " all candidate routes are temporarily unhealthy (skipped=" ++
      toString tally.skippedUnhealthy ++ ")"
  else if tally.skippedUnhealthy > 0 then
    String.intercalate " | " tally.errors ++ " | skipped_unhealthy_routes=" ++
      toString tally.skippedUnhealthy
  else String.intercalate " | " tally.errors

/-! ## The NWC rail -/

def NwcResponse.toResult (response : NwcResponse) : Except String NwcResult :=
  match response.error, response.result with
  | some e, _ => .error e
  | none, some result => .ok result
  | none, none => .error "unexpected NIP-47 result"

/-- `to_pay_invoice`, `to_make_invoice` and `to_get_balance`, with the output made
of what they return. -/
def nwcOutput (args : PaymentArgs) (response : NwcResponse) : Except String PaymentOutput := do
  match args.operation, ← response.toResult with
  | .payInvoice, .payInvoice preimage feesPaid =>
    .ok (.payment "settled" none (some preimage) (args.amountMsat.getD 0) (feesPaid.getD 0))
  | .makeInvoice, .makeInvoice invoice paymentHash amount =>
    .ok (.invoice invoice paymentHash (amount.getD (args.amountMsat.getD 0)))
  | .getBalance, .getBalance balance => .ok (.balance balance)
  | _, _ => .error "unexpected NIP-47 result"

def nwcMockOutput (config : PaymentConfig) (args : PaymentArgs) (paymentRequestId : String) :
    PaymentOutput :=
  let amountMsat := args.amountMsat.getD 0
  match args.operation with
  | .payInvoice => .payment "settled" (some ("mock-hash-" ++ paymentRequestId))
      (some ("mock-preimage-" ++ paymentRequestId)) amountMsat 0
  | .makeInvoice =>
    .invoice ("lnbc" ++ toString amountMsat ++ "n1pmock" ++ paymentRequestId) none amountMsat
  | .getBalance => .balance config.nwcMockBalanceMsat

def sendOverNwc (rt : PaymentRuntime) (paymentRequestId : String) (request : NwcRequest)
    (uri : String) : PaymentProg NwcRequestOutcome :=
  sendNwcRequest (fun relayUrl => ask (.attemptNwcRelay paymentRequestId uri relayUrl request))
    rt.wallet uri

def executeNwcRoutes (rt : PaymentRuntime) (config : WorkerConfig) (args : PaymentArgs)
    (paymentRequestId : String) (routes : ResolvedRoutes) : PaymentProg PaymentExecution := do
  let target := args.parsedDestination.target
  let request ← Prog.ofExcept (buildNwcRequest args)
  let (selected, tally) ← tryPaymentRoutes config.payment.nwcRoute
    (paymentRouteHealthKey config.workerId .nwc target) (sendOverNwc rt paymentRequestId request)
    0 {} routes.candidates
  match selected with
  | none =>
    failPayment paymentRequestId "PAYMENT_NWC_REQUEST_FAILED"
      (routesFailedMessage "payment.send" tally)
  | some (index, outcome) =>
    match nwcOutput args outcome.response with
    | .error message => failPayment paymentRequestId "PAYMENT_NWC_RESPONSE_ERROR" message
    | .ok output =>
      .pure ⟨.nwcNip47, target, output,
        some ⟨routes.rolloutLimited, routes.candidates.length, some index, tally⟩⟩

def executeNwcPayment (rt : PaymentRuntime) (config : WorkerConfig) (args : PaymentArgs)
    (paymentRequestId : String) : PaymentProg PaymentExecution :=
  let target := args.parsedDestination.target
  if config.payment.nwcEnabled = false then
    failPayment paymentRequestId "PAYMENT_DISABLED"
      "payment.send is disabled; set PAYMENT_NWC_ENABLED=1"
  else if Text.contains target "nostr+walletconnect://" then
    failPayment paymentRequestId "PAYMENT_INVALID_DESTINATION"
      ("payment.send destination target must be a logical wallet id; configure " ++
        "PAYMENT_NWC_URI/PAYMENT_NWC_URI_REF for credentials")
  else
    let routes := resolveNwcUrisForWallet rt config.payment target args.idempotencyKey
    if routes.candidates.isEmpty && !config.payment.nwcWalletUris.isEmpty then
      failPayment paymentRequestId "PAYMENT_WALLET_NOT_CONFIGURED"
        ("payment wallet `" ++ target ++ "` is not configured; set " ++
          "PAYMENT_NWC_WALLET_URIS/PAYMENT_NWC_WALLET_URIS_REF (or wildcard `*`)")
    else if routes.candidates.isEmpty then
      .pure ⟨.nwcMock, target, nwcMockOutput config.payment args paymentRequestId, none⟩
    else executeNwcRoutes rt config args paymentRequestId routes

/-! ## The Cashu rail -/

def cashuMockOutput (config : PaymentConfig) (args : PaymentArgs) (paymentRequestId : String) :
    PaymentOutput :=
  let amountMsat := args.amountMsat.getD 0
  match args.operation with
  | .payInvoice => .payment "settled" (some ("cashu-mock-hash-" ++ paymentRequestId))
      (some ("cashu-mock-preimage-" ++ paymentRequestId)) amountMsat 0
  | .makeInvoice => .invoice ("cashu-invoice-" ++ paymentRequestId) none amountMsat
  | .getBalance => .balance config.cashuMockBalanceMsat

/-- The normalised result of a mint's answer. -/
def cashuOutput (rt : PaymentRuntime) (args : PaymentArgs) (httpStatus : Nat)
    (responseText : String) : Except String PaymentOutput :=
  if ¬ (200 ≤ httpStatus ∧ httpStatus ≤ 299) then
    .error ("cashu HTTP request failed: status=" ++ toString httpStatus ++ " body=" ++
      String.ofList (responseText.toList.take 512))
  else
    let upstream := (rt.parseJson responseText).getD (.obj [("raw_body", .str responseText)])
    match args.operation with
    | .payInvoice => .ok (.payment
        ((extractStringField upstream ["settlement_status", "status"]).getD "settled")
        (extractStringField upstream ["payment_hash", "hash"])
        (extractStringField upstream ["payment_preimage", "preimage"])
        (args.amountMsat.getD 0) ((extractU64Field upstream ["fee_msat", "fees_paid"]).getD 0))
    | .makeInvoice =>
      match extractStringField upstream ["invoice", "bolt11"] with
      | none => .error "cashu HTTP make_invoice response missing invoice"
      | some invoice => .ok (.invoice invoice
          (extractStringField upstream ["payment_hash", "hash"])
          (((extractU64Field upstream ["amount_msat", "amount"]).or args.amountMsat).getD 0))
    | .getBalance =>
      match extractU64Field upstream ["balance_msat", "balance"] with
      | none => .error "cashu HTTP get_balance response missing balance"
      | some balance => .ok (.balance balance)

def executeCashuPaymentHttp (rt : PaymentRuntime) (config : PaymentConfig) (args : PaymentArgs)
    (paymentRequestId mintUri : String) : PaymentProg PaymentOutput := do
  let request ← Prog.ofExcept (buildCashuRequest rt config args paymentRequestId mintUri)
  let (httpStatus, responseText) ←
    Prog.ofExcept (← ask (.sendCashuRequest paymentRequestId mintUri request))
  Prog.ofExcept (cashuOutput rt args httpStatus responseText)

def executeCashuRoutes (rt : PaymentRuntime) (config : WorkerConfig) (args : PaymentArgs)
    (paymentRequestId : String) (routes : ResolvedRoutes) : PaymentProg PaymentExecution := do
  let target := args.parsedDestination.target
  let (selected, tally) ← tryPaymentRoutes config.payment.cashuRoute
    (paymentRouteHealthKey config.workerId .cashu target)
    (executeCashuPaymentHttp rt config.payment args paymentRequestId) 0 {} routes.candidates
  match selected with
  | none =>
    failPayment paymentRequestId "PAYMENT_CASHU_HTTP_FAILED"
      (rt.redactText (routesFailedMessage "cashu payment" tally))
  | some (index, output) =>
    .pure ⟨.cashuHttp, target, output,
      some ⟨routes.rolloutLimited, routes.candidates.length, some index, tally⟩⟩

/-- The amount of any operation is compared with the rail's own limit; what the
run has spent is not. -/
def exceedsCashuLimit (config : PaymentConfig) (args : PaymentArgs) : Bool :=
  match config.cashuMaxSpendMsatPerRun, args.amountMsat with
  | some limit, some amount => amount > limit
  | _, _ => false

def executeCashuPaymentScaffold (rt : PaymentRuntime) (config : WorkerConfig) (args : PaymentArgs)
    (paymentRequestId : String) : PaymentProg PaymentExecution :=
  let target := args.parsedDestination.target
  let routes := resolveCashuMintUris rt config.payment target args.idempotencyKey
  if config.payment.cashuEnabled = false then
    failPayment paymentRequestId "PAYMENT_CASHU_DISABLED"
      "cashu rail is disabled; set PAYMENT_CASHU_ENABLED=1 to enable scaffold"
  else if exceedsCashuLimit config.payment args then
    failPayment paymentRequestId "PAYMENT_CASHU_RUN_BUDGET_EXCEEDED"
      ("cashu scaffold run spend budget exceeded (limit=" ++
        toString (config.payment.cashuMaxSpendMsatPerRun.getD 0) ++ ", requested=" ++
        toString (args.amountMsat.getD 0) ++ ")")
  else if config.payment.cashuMintUris.isEmpty then
    failPayment paymentRequestId "PAYMENT_CASHU_MINTS_NOT_CONFIGURED"
      ("cashu scaffold requires mint routing; set " ++
        "PAYMENT_CASHU_MINT_URIS/PAYMENT_CASHU_MINT_URIS_REF")
  else if routes.candidates.isEmpty then
    failPayment paymentRequestId "PAYMENT_CASHU_MINT_NOT_CONFIGURED"
      ("cashu mint `" ++ target ++ "` is not configured; set " ++
        "PAYMENT_CASHU_MINT_URIS/PAYMENT_CASHU_MINT_URIS_REF or PAYMENT_CASHU_DEFAULT_MINT")
  else if config.payment.cashuMockEnabled then
    .pure ⟨.cashuMock, target, cashuMockOutput config.payment args paymentRequestId,
      some ⟨routes.rolloutLimited, routes.candidates.length, some 1, { attempted := 1 }⟩⟩
  else if config.payment.cashuHttpEnabled = false then
    -- the error returned also carries the request's details
    failPayment paymentRequestId "PAYMENT_CASHU_HTTP_DISABLED"
      ("cashu rail live transport is disabled; set PAYMENT_CASHU_HTTP_ENABLED=1 (operation=" ++
        args.operation.asStr ++ ", mint=" ++ target ++ ")")
  else executeCashuRoutes rt config args paymentRequestId routes

/-! ## The action -/

/-- How an action that returns was answered. -/
inductive PaymentOutcome where
  | duplicate (prior : PaymentRequestRecord) (priorResult : Option PaymentResult)
  | executed (paymentRequestId : String) (spentMsat : Nat) (execution : PaymentExecution)

/-- What the run has spent after the action. -/
def PaymentOutcome.spentMsat (spentMsat : Nat) : PaymentOutcome → Nat
  | .duplicate .. => spentMsat
  | .executed _ spent _ => spent

def newPaymentRequest (run : RunLeaseRecord) (actionRequestId id : String) (args : PaymentArgs) :
    PaymentRequest where
  id := id
  actionRequestId := actionRequestId
  runId := run.id
  tenantId := run.tenantId
  agentId := run.agentId
  provider := args.parsedDestination.provider
  operation := args.operation
  destination := args.destination
  idempotencyKey := args.idempotencyKey
  amountMsat := args.amountMsat.map asI64
  requestJson := args

/-- The result row must be written, the status of the request need not be, and
only then is the amount counted; the outbox comes last. -/
def recordExecuted (run : RunLeaseRecord) (args : PaymentArgs) (spentMsat : Nat)
    (paymentRequestId : String) (execution : PaymentExecution) : PaymentProg PaymentOutcome := do
  Prog.ofExcept (← ask (.createPaymentResult ⟨paymentRequestId, .executed, some execution, none⟩))
  let _ ← ask (.updatePaymentRequestStatus paymentRequestId .executed)
  let spent :=
    if args.operation = .payInvoice then saturatingAdd spentMsat (args.amountMsat.getD 0)
    else spentMsat
  Prog.ofExcept (← ask (.writeOutbox run.tenantId args.parsedDestination.provider execution))
  Prog.ofExcept (← ask (.persistArtifact run.id))
  .pure (.executed paymentRequestId spent execution)

def executeOnRail (rt : PaymentRuntime) (config : WorkerConfig) (args : PaymentArgs)
    (paymentRequestId : String) : PaymentProg PaymentExecution :=
  match args.parsedDestination.provider with
  | .cashu => executeCashuPaymentScaffold rt config args paymentRequestId
  | .nwc => executeNwcPayment rt config args paymentRequestId

/-- The action once its row is its own. -/
def payRequest (rt : PaymentRuntime) (config : WorkerConfig) (run : RunLeaseRecord)
    (spentMsat : Nat) (args : PaymentArgs) (paymentRequestId : String) :
    PaymentProg PaymentOutcome := do
  checkSpend config.payment run spentMsat paymentRequestId args
  let execution ← executeOnRail rt config args paymentRequestId
  recordExecuted run args spentMsat paymentRequestId execution

def executePaymentSendAction (rt : PaymentRuntime) (config : WorkerConfig) (run : RunLeaseRecord)
    (spentMsat : Nat) (actionRequestId : String) (rawArgs : Json) :
    PaymentProg PaymentOutcome := do
  let args ← Prog.ofExcept (parsePaymentArgs rawArgs)
  let id ← ask .newUuid
  let record ← Prog.ofExcept
    (← ask (.createOrGetPaymentRequest (newPaymentRequest run actionRequestId id args)))
  if record.actionRequestId ≠ actionRequestId then
    let priorResult ← Prog.ofExcept (← ask (.getLatestPaymentResult record.id))
    .pure (.duplicate record priorResult)
  else payRequest rt config run spentMsat args record.id

end Payment
end SecureAgnt

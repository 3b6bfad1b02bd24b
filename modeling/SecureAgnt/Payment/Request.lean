/-
What a `payment.send` action asks for and the routes it may take: destination,
operation, the request put to a wallet or a mint, and route resolution.  All of
it is pure.
-/
import SecureAgnt.Lib.Machine
import SecureAgnt.Payment.Wallet
import SecureAgnt.Worker.Config

namespace SecureAgnt
namespace Payment

open Worker (PaymentConfig PaymentRouteConfig PaymentRouteStrategy)

/-- What payments take from around them: the wallet's library, `DefaultHasher`
over a target and a key, the parsing of URLs and of JSON texts, and the redaction
of messages. -/
structure PaymentRuntime where
  wallet : WalletRuntime
  redactText : String → String
  routeHash : String → String → Nat
  urlScheme : String → Except String String
  urlJoin : String → String → Except String String
  parseJson : String → Option Json

/-! ## Destination and operation -/

inductive PaymentProvider where
  | nwc
  | cashu
  deriving DecidableEq, Repr

def PaymentProvider.asStr : PaymentProvider → String
  | .nwc => "nwc"
  | .cashu => "cashu"

structure ParsedPaymentDestination where
  provider : PaymentProvider
  target : String
  deriving DecidableEq, Repr

def PaymentProvider.parse (raw : String) : Except String PaymentProvider :=
  match Text.toAsciiLowercase (Text.trim raw) with
  | "nwc" => .ok .nwc
  | "cashu" => .ok .cashu
  | other => .error
    ("payment.send provider `" ++ other ++ "` is unsupported (expected nwc or cashu)")

def ParsedPaymentDestination.parse (raw : String) : Except String ParsedPaymentDestination :=
  match Text.splitOnce raw ':' with
  | none => .error "payment.send destination must be provider-scoped"
  | some (providerRaw, targetRaw) => do
    let provider ← PaymentProvider.parse providerRaw
    let target := Text.trim targetRaw
    if Text.isEmpty target then
      .error ("payment.send destination target must not be empty: " ++ raw)
    else .ok ⟨provider, target⟩

inductive PaymentOperation where
  | payInvoice
  | makeInvoice
  | getBalance
  deriving DecidableEq, Repr

def PaymentOperation.asStr : PaymentOperation → String
  | .payInvoice => "pay_invoice"
  | .makeInvoice => "make_invoice"
  | .getBalance => "get_balance"

def PaymentOperation.parse (raw : String) : Except String PaymentOperation :=
  match Text.toAsciiLowercase (Text.trim raw) with
  | "pay_invoice" => .ok .payInvoice
  | "make_invoice" => .ok .makeInvoice
  | "get_balance" => .ok .getBalance
  | other => .error ("unsupported payment.send operation `" ++ other ++
      "` (expected pay_invoice, make_invoice, get_balance)")

def PaymentOperation.requiresAmount : PaymentOperation → Bool
  | .payInvoice | .makeInvoice => true
  | .getBalance => false

/-! ## The arguments -/

def stringArg (args : Json) (field : String) : Option String := (args.get? field).bind Json.asStr?

/-- The arguments of a `payment.send` action, read in the order the code reads
them.  `invoice` and `description` are kept as given for the stored payload. -/
structure PaymentArgs where
  destination : String
  parsedDestination : ParsedPaymentDestination
  operation : PaymentOperation
  idempotencyKey : String
  amountMsat : Option Nat
  paymentApproved : Bool
  invoice : Json
  description : Json

def required (value : Option String) (message : String) : Except String String :=
  match value with
  | some value => .ok value
  | none => .error message

def parsePaymentArgs (args : Json) : Except String PaymentArgs := do
  let destination ← required (stringArg args "destination")
    "payment.send args.destination is required"
  let parsedDestination ← ParsedPaymentDestination.parse destination
  let rawOperation ← required (stringArg args "operation") "payment.send args.operation is required"
  let operation ← PaymentOperation.parse rawOperation
  let idempotencyKey ← required ((stringArg args "idempotency_key").bind Text.nonEmptyTrimmed)
    "payment.send args.idempotency_key is required"
  let amountMsat := (args.get? "amount_msat").bind Json.asU64?
  let paymentApproved := ((args.get? "payment_approved").bind Json.asBool?).getD false
  if operation.requiresAmount && amountMsat.isNone then
    .error ("payment.send args.amount_msat is required for " ++ operation.asStr)
  else
    .ok { destination, parsedDestination, operation, idempotencyKey, amountMsat, paymentApproved,
          invoice := (args.get? "invoice").getD .null,
          description := (args.get? "description").getD .null }

theorem exists_amount_of_requires {args : Json} {parsed : PaymentArgs}
    (hparse : parsePaymentArgs args = .ok parsed) (hop : parsed.operation.requiresAmount = true) :
    ∃ amount, parsed.amountMsat = some amount := by
  unfold parsePaymentArgs at hparse
  simp only [bind, Except.bind] at hparse
  repeat' split at hparse
  all_goals cases hparse
  rename_i hneeds
  cases hamount : (args.get? "amount_msat").bind Json.asU64? with
  | none => exact absurd (by simp [hop, hamount]) hneeds
  | some amount => exact ⟨amount, rfl⟩

/-! ## The request to a wallet -/

def trimmedJson (value : Json) : Option String := value.asStr?.bind Text.nonEmptyTrimmed

def buildNwcRequest (args : PaymentArgs) : Except String NwcRequest :=
  match args.operation with
  | .payInvoice =>
    match trimmedJson args.invoice with
    | none => .error "payment.send args.invoice is required for pay_invoice"
    | some invoice => .ok (.payInvoice invoice args.amountMsat)
  | .makeInvoice =>
    match args.amountMsat with
    | none => .error "payment.send args.amount_msat is required for make_invoice"
    | some amount => .ok (.makeInvoice amount (trimmedJson args.description))
  | .getBalance => .ok .getBalance

/-! ## Routes -/

structure ResolvedRoutes where
  candidates : List String
  rolloutLimited : Bool
  deriving DecidableEq, Repr

def splitRouteValue (raw : String) : List String :=
  (Text.split raw (· == '|')).filterMap Text.nonEmptyTrimmed

def deterministicRouteOffset (rt : PaymentRuntime) (walletId idempotencyKey : String)
    (routeCount : Nat) : Nat :=
  if routeCount = 0 then 0 else rt.routeHash walletId idempotencyKey % routeCount

def isPaymentRouteRolloutEnabled (rt : PaymentRuntime) (walletId idempotencyKey : String)
    (rolloutPct : Nat) : Bool :=
  if rolloutPct ≥ 100 then true
  else if rolloutPct = 0 then false
  else deterministicRouteOffset rt walletId idempotencyKey 100 < rolloutPct

/-- The candidates a rail's strategy, rollout and failover setting leave, in the
order they are tried. -/
def selectRoutes (rt : PaymentRuntime) (route : PaymentRouteConfig)
    (targetId idempotencyKey : String) (candidates : List String) : ResolvedRoutes :=
  if candidates.length ≤ 1 then ⟨candidates, false⟩
  else
    let ordered :=
      if route.strategy = .deterministicHash then
        candidates.rotateLeft
          (deterministicRouteOffset rt targetId idempotencyKey candidates.length)
      else candidates
    let rolloutLimited := route.rolloutPercent < 100 &&
      !isPaymentRouteRolloutEnabled rt targetId idempotencyKey route.rolloutPercent
    let limited := if rolloutLimited then ordered.take 1 else ordered
    ⟨if route.fallbackEnabled then limited else limited.take 1, rolloutLimited⟩

def resolveNwcUrisForWallet (rt : PaymentRuntime) (config : PaymentConfig)
    (walletId idempotencyKey : String) : ResolvedRoutes :=
  let mapped := (((config.nwcWalletUris.lookup walletId).or (config.nwcWalletUris.lookup "*")).map
    splitRouteValue).getD []
  let candidates :=
    if mapped.isEmpty then (config.nwcUri.bind Text.nonEmptyTrimmed).toList else mapped
  selectRoutes rt config.nwcRoute walletId idempotencyKey candidates

def resolveCashuMintUris (rt : PaymentRuntime) (config : PaymentConfig)
    (mintId idempotencyKey : String) : ResolvedRoutes :=
  let value := ((config.cashuMintUris.lookup mintId).or
    (config.cashuDefaultMint.bind fun defaultMint => config.cashuMintUris.lookup defaultMint)).or
      (config.cashuMintUris.lookup "*")
  selectRoutes rt config.cashuRoute mintId idempotencyKey ((value.map splitRouteValue).getD [])

/-! ## The request to a mint -/

def extractStringField (payload : Json) (keys : List String) : Option String :=
  keys.findSome? fun key => (payload.get? key).bind trimmedJson

/-- `str::parse::<u64>`: an optional plus sign and digits, in range. -/
def parseU64 (raw : String) : Option Nat :=
  let digits := match raw.toList with
    | '+' :: rest => rest
    | all => all
  if digits.isEmpty || !digits.all Char.isDigit then none
  else
    let value := digits.foldl (fun n c => 10 * n + (c.toNat - '0'.toNat)) 0
    if value < 2 ^ 64 then some value else none

def jsonU64 : Json → Option Nat
  | .num (.posInt n) => some n.toNat
  | .num (.negInt n) => if 0 ≤ n.toInt then some n.toInt.toNat else none
  | .str raw => (Text.nonEmptyTrimmed raw).bind parseU64
  | _ => none

def extractU64Field (payload : Json) (keys : List String) : Option Nat :=
  keys.findSome? fun key => (payload.get? key).bind jsonU64

def buildCashuEndpointUrl (rt : PaymentRuntime) (mintUri endpointPath : String)
    (allowInsecureHttp : Bool) : Except String String := do
  let normalizedBase := if mintUri.toList.getLast? = some '/' then mintUri else mintUri ++ "/"
  let scheme ← (rt.urlScheme normalizedBase).mapError
    (("invalid Cashu mint URI `" ++ mintUri ++ "`: ") ++ ·)
  if scheme = "https" ∨ (scheme = "http" ∧ allowInsecureHttp = true) then
    (rt.urlJoin normalizedBase endpointPath).mapError
      (("failed joining endpoint `" ++ endpointPath ++ "` to `" ++ mintUri ++ "`: ") ++ ·)
  else if scheme = "http" then
    .error ("Cashu mint URI `" ++ mintUri ++ "` is insecure; set " ++
      "PAYMENT_CASHU_HTTP_ALLOW_INSECURE=1 only for local/dev usage")
  else
    .error ("Cashu mint URI `" ++ mintUri ++ "` uses unsupported scheme `" ++ scheme ++
      "` (expected https, or http when PAYMENT_CASHU_HTTP_ALLOW_INSECURE=1)")

def cashuEndpointPath : PaymentOperation → String
  | .payInvoice => "v1/pay_invoice"
  | .makeInvoice => "v1/make_invoice"
  | .getBalance => "v1/balance"

/-- The body of a mint request; `idempotency_key` is the id of the ledger row. -/
structure CashuRequestBody where
  operation : PaymentOperation
  invoice : Option String := none
  amountMsat : Nat
  description : Json := .null
  idempotencyKey : String
  mintId : String

/-- An HTTP request to a mint. -/
structure CashuHttpRequest where
  endpoint : String
  mintId : String
  authHeader : Option (String × String)
  body : Option CashuRequestBody

/-- `with_optional_auth_header`: the header it adds. -/
def optionalAuthHeader (headerName : String) (token : Option String) : Option (String × String) :=
  (token.bind Text.nonEmptyTrimmed).map fun rawToken =>
    if Text.eqIgnoreAsciiCase headerName "authorization" &&
        !Text.startsWith (Text.toAsciiLowercase rawToken) "bearer " then
      (headerName, "Bearer " ++ rawToken)
    else (headerName, rawToken)

def cashuRequestBody (args : PaymentArgs) (paymentRequestId : String) :
    Except String (Option CashuRequestBody) :=
  let amountMsat := args.amountMsat.getD 0
  let mintId := args.parsedDestination.target
  match args.operation with
  | .payInvoice =>
    match trimmedJson args.invoice with
    | none => .error "payment.send args.invoice is required for pay_invoice"
    | some invoice => .ok (some { operation := .payInvoice, invoice := some invoice, amountMsat,
                                  idempotencyKey := paymentRequestId, mintId })
  | .makeInvoice => .ok (some { operation := .makeInvoice, amountMsat,
                                description := args.description,
                                idempotencyKey := paymentRequestId, mintId })
  | .getBalance => .ok none

def buildCashuRequest (rt : PaymentRuntime) (config : PaymentConfig) (args : PaymentArgs)
    (paymentRequestId mintUri : String) : Except String CashuHttpRequest := do
  let endpoint ← buildCashuEndpointUrl rt mintUri (cashuEndpointPath args.operation)
    config.cashuHttpAllowInsecure
  let body ← cashuRequestBody args paymentRequestId
  return { endpoint, mintId := args.parsedDestination.target,
           authHeader := optionalAuthHeader config.cashuAuthHeader config.cashuAuthToken, body }

end Payment
end SecureAgnt

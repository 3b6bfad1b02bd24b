/-
The worker's configuration, the run it processes and the runtime around it.
-/
import SecureAgnt.Llm.Config

namespace SecureAgnt
namespace Worker

inductive PaymentRouteStrategy where
  | ordered
  | deterministicHash
  deriving DecidableEq, Repr

/-- The routing knobs one payment rail has: its strategy, failover, rollout and
route health. -/
structure PaymentRouteConfig where
  strategy : PaymentRouteStrategy := .ordered
  fallbackEnabled : Bool := true
  rolloutPercent : Nat := 100
  healthFailThreshold : Nat := 3
  healthCooldownSecs : Nat := 60
  deriving DecidableEq, Repr

/-- The `payment_*` fields, with the values an empty environment gives them. -/
structure PaymentConfig where
  nwcEnabled : Bool := false
  nwcUri : Option String := none
  nwcWalletUris : List (String × String) := []
  nwcTimeoutMs : Nat := 5000
  nwcRoute : PaymentRouteConfig := {}
  nwcMockBalanceMsat : Nat := 1000000
  cashuEnabled : Bool := false
  cashuMintUris : List (String × String) := []
  cashuDefaultMint : Option String := none
  cashuTimeoutMs : Nat := 5000
  cashuMaxSpendMsatPerRun : Option Nat := none
  cashuHttpEnabled : Bool := false
  cashuHttpAllowInsecure : Bool := false
  cashuAuthHeader : String := "authorization"
  cashuAuthToken : Option String := none
  cashuRoute : PaymentRouteConfig := {}
  cashuMockEnabled : Bool := false
  cashuMockBalanceMsat : Nat := 1000000
  maxSpendMsatPerRun : Option Nat := none
  approvalThresholdMsat : Option Nat := none
  maxSpendMsatPerTenant : Option Nat := none
  maxSpendMsatPerAgent : Option Nat := none

structure WorkerConfig where
  workerId : String
  approvalRequiredActionTypes : List String := []
  llm : Llm.LlmConfig
  payment : PaymentConfig := {}

/-- The lease record of a claimed run, as far as actions read it. -/
structure RunLeaseRecord where
  id : String
  tenantId : String
  agentId : String
  inputJson : Json
  grantedCapabilities : Json

/-- What the worker takes from its libraries: the gateway's runtime and the
length of a value as compact JSON. -/
structure WorkerRuntime where
  llm : Llm.LlmRuntime
  serializedLen : Json → Nat

end Worker
end SecureAgnt

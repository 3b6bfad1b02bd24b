/-
Admission to the gateway: the lease table that all workers share, and the counters of
each worker process.

A call runs `executeLlmInfer` and can be dropped at any point where it waits.  The
statement that acquires a lease reads the table in one step and writes it in a later one,
and `try_reserve_slot` loads its counter in one step and exchanges it in a later one; any
other step can come between.
-/
import SecureAgnt.Lib.Machine
import SecureAgnt.Lib.Table
import SecureAgnt.Lib.Uuid
import SecureAgnt.Llm.Gateway

namespace SecureAgnt
namespace Llm

/-! ## The lease table -/

structure AdmissionLease where
  cacheNamespace : String
  lane : String
  slotIndex : Int
  leaseId : Uuid
  leaseOwner : String
  leaseExpiresAt : Int
  deriving DecidableEq

/-- The primary key. -/
def AdmissionLease.slot (lease : AdmissionLease) : String × String × Int :=
  (lease.cacheNamespace, lease.lane, lease.slotIndex)

structure LeaseTable where
  rows : List AdmissionLease
  keys : (rows.map (·.slot)).Nodup

/-- `clamp_lease_ms`. -/
def clampLeaseMs (leaseMs : Nat) : Int := min (max (leaseMs : Int) 1) (2 ^ 63 - 1)

/-- `generate_series(1, n)`. -/
def generateSeries (n : Int) : List Int := (List.range n.toNat).map fun i : Nat => (i : Int) + 1

namespace LeaseTable

def isActive (t : LeaseTable) (now : Int) (slot : String × String × Int) : Bool :=
  t.rows.any fun row => decide (row.slot = slot) && decide (now < row.leaseExpiresAt)

/-- The `candidate` of the statement. -/
def candidate (t : LeaseTable) (cacheNamespace lane : String) (maxInflight now : Int) :
    Option Int :=
  (generateSeries maxInflight).find? fun slot => !t.isActive now (cacheNamespace, lane, slot)

def overwrite (lease row : AdmissionLease) : AdmissionLease :=
  if row.slot = lease.slot then lease else row

theorem slot_overwrite (lease row : AdmissionLease) : (overwrite lease row).slot = row.slot := by
  unfold overwrite
  split
  · rename_i h
    exact h.symm
  · rfl

/-- The lease in its slot, in place of the one there. -/
def put (t : LeaseTable) (lease : AdmissionLease) : LeaseTable :=
  if h : lease.slot ∈ t.rows.map (·.slot) then
    { rows := t.rows.map (overwrite lease)
      keys := by
        have hslots : (t.rows.map (overwrite lease)).map (·.slot) = t.rows.map (·.slot) := by
          rw [List.map_map]
          exact List.map_congr_left fun row _ => slot_overwrite lease row
        exact hslots ▸ t.keys }
  else
    { rows := t.rows ++ [lease]
      keys := Table.nodup_append_row t.keys h }

/-- `INSERT ... ON CONFLICT DO UPDATE ... WHERE lease_expires_at <= now()`. -/
def upsert (t : LeaseTable) (now : Int) (lease : AdmissionLease) : Option LeaseTable :=
  if t.isActive now lease.slot then none else some (t.put lease)

/-- `release_llm_gateway_admission_lease`. -/
def release (t : LeaseTable) (lease : AdmissionLease) : LeaseTable where
  rows := t.rows.filter fun row => ¬ (row.slot = lease.slot ∧ row.leaseId = lease.leaseId)
  keys := t.keys.sublist (List.filter_sublist.map _)

end LeaseTable

/-! ## Calls -/

/-- What the guard of a call gives back when it is dropped. -/
inductive AdmissionRelease where
  | slot (requestClass : LlmRequestClass)
  | lease (lease : AdmissionLease)
  deriving DecidableEq

/-- How far a call is within `try_acquire_llm_gateway_admission_lease` or
`try_reserve_slot`. -/
inductive AdmissionPoint where
  | outside
  | selected (now : Int) (leaseId : Uuid) (slot : Option Int)
  | loaded (current : Nat)

structure GatewayCall where
  process : Nat
  rest : LlmProg LlmInferResult
  point : AdmissionPoint := .outside
  guard : Option AdmissionRelease := none

/-- What the calls share: the database, its clock and the processes' counters.
`issued` are the lease ids drawn so far, and `abandoned` the statements, with their
`now()`, whose caller has gone on with an error. -/
structure AdmissionStore where
  leases : LeaseTable
  clock : Int
  counters : Nat → LlmRequestClass → Nat
  issued : List Uuid
  abandoned : List (Int × AdmissionLease)

/-- One counter of one process is set. -/
def AdmissionStore.setCounter (s : AdmissionStore) (process : Nat)
    (requestClass : LlmRequestClass) (n : Nat) : AdmissionStore :=
  let lanes := Function.update (s.counters process) requestClass n
  { s with counters := Function.update s.counters process lanes }

/-- `AtomicUsize::fetch_sub(1)`. -/
def fetchSub (n : Nat) : Nat := if n = 0 then 2 ^ 64 - 1 else n - 1

def LlmOp.isAdmission : LlmOp → Bool
  | .acquireLease .. => true
  | .reserveSlot .. => true
  | _ => false

/-- `LlmGatewayAdmissionLeaseAcquireParams`; the lease id is drawn by the call. -/
structure LeaseAcquireParams where
  cacheNamespace : String
  lane : String
  maxInflight : Nat
  leaseOwner : String
  leaseMs : Nat

namespace LeaseAcquireParams

def op (params : LeaseAcquireParams) : LlmOp :=
  .acquireLease params.cacheNamespace params.lane params.maxInflight params.leaseOwner
    params.leaseMs

def candidate (params : LeaseAcquireParams) (t : LeaseTable) (now : Int) : Option Int :=
  t.candidate params.cacheNamespace params.lane (asI32 params.maxInflight) now

def lease (params : LeaseAcquireParams) (now : Int) (leaseId : Uuid) (slot : Int) :
    AdmissionLease where
  cacheNamespace := params.cacheNamespace
  lane := params.lane
  slotIndex := slot
  leaseId := leaseId
  leaseOwner := params.leaseOwner
  leaseExpiresAt := now + clampLeaseMs params.leaseMs

end LeaseAcquireParams

abbrev AfterAcquire := Except String Bool → LlmProg LlmInferResult

abbrev AfterReserve := Bool → LlmProg LlmInferResult

/-- The call is to acquire a lease and goes on by `k`. -/
def GatewayCall.Acquires (c : GatewayCall) (params : LeaseAcquireParams) (k : AfterAcquire) :
    Prop :=
  c.rest = .call params.op k

/-- The call is to reserve a slot and goes on by `k`. -/
def GatewayCall.Reserves (c : GatewayCall) (requestClass : LlmRequestClass) (maxInflight : Nat)
    (k : AfterReserve) : Prop :=
  c.rest = .call (.reserveSlot requestClass maxInflight) k

/-- One step of a call.  `now()` is when the transaction of a statement started, and a
statement that fails for its caller can still write its row. -/
inductive CallStep (s : AdmissionStore) (c : GatewayCall) :
    AdmissionStore → GatewayCall → Prop
  | other {op : LlmOp} {k : LlmAns op → LlmProg LlmInferResult} (hrest : c.rest = .call op k)
      (hpoint : c.point = .outside) (hop : op.isAdmission = false) (r : LlmAns op) :
      CallStep s c s { c with rest := k r }
  | refuse {params : LeaseAcquireParams} {k : AfterAcquire} (hcall : c.Acquires params k)
      (hpoint : c.point = .outside) (hmax : asI32 params.maxInflight ≤ 0) :
      CallStep s c s { c with rest := k (.ok false) }
  | select {params : LeaseAcquireParams} {k : AfterAcquire} (now : Int) (leaseId : Uuid)
      (hcall : c.Acquires params k) (hpoint : c.point = .outside)
      (hmax : 0 < asI32 params.maxInflight) (hnow : now ≤ s.clock) (hfresh : leaseId ∉ s.issued) :
      CallStep s c { s with issued := leaseId :: s.issued }
        { c with point := .selected now leaseId (params.candidate s.leases now) }
  | noCandidate {params : LeaseAcquireParams} {k : AfterAcquire} {now : Int} {leaseId : Uuid}
      (hcall : c.Acquires params k) (hpoint : c.point = .selected now leaseId none) :
      CallStep s c s { c with rest := k (.ok false), point := .outside }
  | conflict {params : LeaseAcquireParams} {k : AfterAcquire} {now slot : Int} {leaseId : Uuid}
      (hcall : c.Acquires params k) (hpoint : c.point = .selected now leaseId (some slot))
      (hactive : s.leases.upsert now (params.lease now leaseId slot) = none) :
      CallStep s c s { c with rest := k (.ok false), point := .outside }
  | acquire {params : LeaseAcquireParams} {k : AfterAcquire} {now slot : Int} {leaseId : Uuid}
      {leases : LeaseTable} (hcall : c.Acquires params k)
      (hpoint : c.point = .selected now leaseId (some slot))
      (hupsert : s.leases.upsert now (params.lease now leaseId slot) = some leases) :
      CallStep s c { s with leases := leases }
        { c with
          rest := k (.ok true)
          point := .outside
          guard := some (.lease (params.lease now leaseId slot)) }
  | fail {params : LeaseAcquireParams} {k : AfterAcquire} (message : String)
      (hcall : c.Acquires params k) :
      CallStep s c s { c with rest := k (.error message), point := .outside }
  | abandon {params : LeaseAcquireParams} {k : AfterAcquire} {now slot : Int} {leaseId : Uuid}
      (message : String) (hcall : c.Acquires params k)
      (hpoint : c.point = .selected now leaseId (some slot)) :
      CallStep s c
        { s with abandoned := (now, params.lease now leaseId slot) :: s.abandoned }
        { c with rest := k (.error message), point := .outside }
  | saturated {requestClass : LlmRequestClass} {maxInflight : Nat} {k : AfterReserve}
      (hcall : c.Reserves requestClass maxInflight k) (hpoint : c.point = .outside)
      (hfull : maxInflight ≤ s.counters c.process requestClass) :
      CallStep s c s { c with rest := k false }
  | load {requestClass : LlmRequestClass} {maxInflight : Nat} {k : AfterReserve}
      (hcall : c.Reserves requestClass maxInflight k) (hpoint : c.point = .outside)
      (hroom : s.counters c.process requestClass < maxInflight) :
      CallStep s c s { c with point := .loaded (s.counters c.process requestClass) }
  | exchange {requestClass : LlmRequestClass} {maxInflight current : Nat} {k : AfterReserve}
      (hcall : c.Reserves requestClass maxInflight k) (hpoint : c.point = .loaded current)
      (hsame : s.counters c.process requestClass = current) :
      CallStep s c (s.setCounter c.process requestClass (current + 1))
        { c with rest := k true, point := .outside, guard := some (.slot requestClass) }
  | retry {requestClass : LlmRequestClass} {maxInflight current : Nat} {k : AfterReserve}
      (hcall : c.Reserves requestClass maxInflight k) (hpoint : c.point = .loaded current)
      (hmoved : s.counters c.process requestClass ≠ current) :
      CallStep s c s { c with point := .outside }

/-! ## The workers -/

/-- All workers: what they share, the calls that are alive, and the leases whose guard is
dropped and that a spawned task is to release. -/
structure AdmissionWorld where
  store : AdmissionStore
  calls : List GatewayCall
  releases : List AdmissionLease

/-- A fresh database and processes that have admitted nothing. -/
def AdmissionWorld.start : AdmissionWorld where
  store := ⟨⟨[], List.nodup_nil⟩, 0, fun _ _ => 0, [], []⟩
  calls := []
  releases := []

/-- The drop of a call's guard.  The release of a lease is spawned where a runtime is at
hand and otherwise left to its expiry. -/
inductive GuardDrop (w : AdmissionWorld) (process : Nat) :
    Option AdmissionRelease → AdmissionStore → List AdmissionLease → Prop
  | none : GuardDrop w process .none w.store w.releases
  | slot (requestClass : LlmRequestClass) :
      GuardDrop w process (some (.slot requestClass))
        (w.store.setCounter process requestClass
          (fetchSub (w.store.counters process requestClass))) w.releases
  | spawn (lease : AdmissionLease) :
      GuardDrop w process (some (.lease lease)) w.store (lease :: w.releases)
  | expire (lease : AdmissionLease) :
      GuardDrop w process (some (.lease lease)) w.store w.releases

/-- One step of the workers, each process with its configuration.  A call is at its end
or dropped while it waits; an exchange in progress does not wait. -/
inductive AdmissionStep (config : Nat → LlmConfig) : AdmissionWorld → AdmissionWorld → Prop
  | tick {w : AdmissionWorld} (now : Int) (hnow : w.store.clock ≤ now) :
      AdmissionStep config w { w with store := { w.store with clock := now } }
  | enter {w : AdmissionWorld} (process : Nat) (rt : LlmRuntime) (args : Json)
      (cacheNamespace : Option String) (pool : Bool) :
      AdmissionStep config w { w with calls := w.calls ++
        [⟨process, executeLlmInfer rt args (config process) cacheNamespace pool, .outside, none⟩] }
  | call {w : AdmissionWorld} {before after : List GatewayCall} {c c' : GatewayCall}
      {store : AdmissionStore} (hcalls : w.calls = before ++ c :: after)
      (hstep : CallStep w.store c store c') :
      AdmissionStep config w { w with store := store, calls := before ++ c' :: after }
  | late {w : AdmissionWorld} {before after : List (Int × AdmissionLease)} {now : Int}
      {lease : AdmissionLease} {leases : LeaseTable}
      (habandoned : w.store.abandoned = before ++ (now, lease) :: after)
      (hupsert : w.store.leases.upsert now lease = some leases) :
      AdmissionStep config w { w with store :=
        { w.store with leases := leases, abandoned := before ++ after } }
  | leave {w : AdmissionWorld} {before after : List GatewayCall} {c : GatewayCall}
      {store : AdmissionStore} {releases : List AdmissionLease}
      (hcalls : w.calls = before ++ c :: after) (hpoint : c.point = .outside)
      (hdrop : GuardDrop w c.process c.guard store releases) :
      AdmissionStep config w ⟨store, before ++ after, releases⟩
  | release {w : AdmissionWorld} {before after : List AdmissionLease} {lease : AdmissionLease}
      (hreleases : w.releases = before ++ lease :: after) :
      AdmissionStep config w
        { w with
          store := { w.store with leases := w.store.leases.release lease }
          releases := before ++ after }
  | loseRelease {w : AdmissionWorld} {before after : List AdmissionLease}
      {lease : AdmissionLease} (hreleases : w.releases = before ++ lease :: after) :
      AdmissionStep config w { w with releases := before ++ after }

def AdmissionReaches (config : Nat → LlmConfig) : AdmissionWorld → AdmissionWorld → Prop :=
  Relation.ReflTransGen (AdmissionStep config)

end Llm
end SecureAgnt

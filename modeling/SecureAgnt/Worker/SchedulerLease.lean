/-
The lease of the trigger scheduler.

Any number of workers ask for it at once, on either back end, and their statements may
fail before or after their effect.  `scheduler_lease_exclusive` says that no two workers
hold it at one time.
-/
import SecureAgnt.Lib.Run
import SecureAgnt.Lib.Table
import SecureAgnt.Lib.Tenure
import SecureAgnt.Llm.Admission
import SecureAgnt.Storage

namespace SecureAgnt
namespace Worker

open Storage
open Tenure
open Handler
open Llm (clampLeaseMs)

structure SchedulerLeaseParams where
  leaseName : String
  leaseOwner : String
  leaseMs : Nat

/-- A row of `scheduler_leases`, keyed by its name. -/
structure SchedulerLease where
  leaseName : String
  leaseOwner : String
  leaseExpiresAt : Int
  deriving DecidableEq

/-- The worker's clock, and the one statement: Postgres counts the lease from its own
`now()`, SQLite stores the instant that the worker has computed. -/
inductive SchedulerOp where
  | nowUtc
  | upsertFor (leaseName leaseOwner : String) (leaseMs : Int)
  | upsertUntil (leaseName leaseOwner : String) (leaseExpiresAt : Int)

abbrev SchedulerOp.Ans : SchedulerOp → Type
  | .nowUtc => Int
  | .upsertFor .. => Except String (Option String)
  | .upsertUntil .. => Except String (Option String)

abbrev SchedulerProg := Prog SchedulerOp SchedulerOp.Ans String

def tryAcquireSchedulerLease (b : Backend) (params : SchedulerLeaseParams) : SchedulerProg Bool :=
  match b with
  | .postgres => do
    let answer ← Prog.perform
      (SchedulerOp.upsertFor params.leaseName params.leaseOwner (clampLeaseMs params.leaseMs))
    let acquiredOwner ← Prog.ofExcept answer
    .pure (acquiredOwner == some params.leaseOwner)
  | .sqlite => do
    let now ← Prog.perform SchedulerOp.nowUtc
    let answer ← Prog.perform (SchedulerOp.upsertUntil params.leaseName params.leaseOwner
      (now + clampLeaseMs params.leaseMs * 10 ^ 6))
    let acquiredOwner ← Prog.ofExcept answer
    .pure (acquiredOwner == some params.leaseOwner)

/-- A caller that looks at the clock before the call. -/
def timedAcquire (b : Backend) (params : SchedulerLeaseParams) :
    SchedulerProg (Int × Except String Bool) := do
  let start ← Prog.perform SchedulerOp.nowUtc
  let out ← (tryAcquireSchedulerLease b params).attempt
  .pure (start, out)

/-! ## The statement -/

/-- The `WHERE` of the update. -/
def SchedulerLease.canPass (b : Backend) (now : Int) (held lease : SchedulerLease) : Bool :=
  b.isBefore held.leaseExpiresAt now || held.leaseOwner = lease.leaseOwner

def replaceLease (lease row : SchedulerLease) : SchedulerLease :=
  if row.leaseName = lease.leaseName then lease else row

/-- `INSERT … ON CONFLICT (lease_name) DO UPDATE … WHERE`; no row is written where the
condition fails. -/
def upsertLease (b : Backend) (now : Int) (lease : SchedulerLease) (leases : List SchedulerLease) :
    Option (List SchedulerLease) :=
  match Table.find (·.leaseName) leases lease.leaseName with
  | none => some (leases ++ [lease])
  | some held =>
    if held.canPass b now lease then
      some (leases.map (replaceLease lease))
    else none

section Upsert

variable {b : Backend} {now : Int} {lease : SchedulerLease} {leases leases' : List SchedulerLease}

theorem leaseName_replaceLease (lease row : SchedulerLease) :
    (replaceLease lease row).leaseName = row.leaseName := by
  unfold replaceLease
  split
  · rename_i h
    exact h.symm
  · rfl

/-- After the statement the lease stands under its name, and the others as they were. -/
theorem find_upsertLease (h : upsertLease b now lease leases = some leases') (name : String) :
    Table.find (·.leaseName) leases' name =
      if name = lease.leaseName then some lease else Table.find (·.leaseName) leases name := by
  unfold upsertLease at h
  cases hheld : Table.find (·.leaseName) leases lease.leaseName with
  | none =>
    rw [hheld] at h
    cases h
    by_cases hname : name = lease.leaseName
    · rw [if_pos hname, hname, Table.find, List.find?_append, ← Table.find, hheld]
      simp
    · rw [if_neg hname, Table.find, List.find?_append]
      have hne : lease.leaseName ≠ name := fun heq => hname heq.symm
      simp [Table.find, hne]
  | some held =>
    rw [hheld] at h
    dsimp only at h
    by_cases hpass : held.canPass b now lease = true
    · rw [if_pos hpass] at h
      cases h
      rw [Table.find_map (leaseName_replaceLease lease)]
      by_cases hname : name = lease.leaseName
      · rw [if_pos hname, hname, hheld]
        have hkey := (Table.key_of_find hheld).2
        simp [replaceLease, hkey]
      · rw [if_neg hname]
        cases hfind : Table.find (·.leaseName) leases name with
        | none => rfl
        | some row =>
          have hkey := (Table.key_of_find hfind).2
          have hne : row.leaseName ≠ lease.leaseName := fun heq => hname (hkey.symm.trans heq)
          simp [replaceLease, hne]
    · rw [if_neg hpass] at h
      cases h

/-- A lease is refused because another worker's stands and has not expired. -/
theorem held_of_refused (h : upsertLease b now lease leases = none) :
    ∃ held, Table.find (·.leaseName) leases lease.leaseName = some held ∧
      held.leaseOwner ≠ lease.leaseOwner ∧ ¬ b.isBefore held.leaseExpiresAt now := by
  unfold upsertLease at h
  cases hheld : Table.find (·.leaseName) leases lease.leaseName with
  | none =>
    rw [hheld] at h
    cases h
  | some held =>
    rw [hheld] at h
    dsimp only at h
    by_cases hpass : held.canPass b now lease = true
    · rw [if_pos hpass] at h
      cases h
    · refine ⟨held, rfl, ?_⟩
      simpa [SchedulerLease.canPass, and_comm] using hpass

/-- A lease passes to another worker only when it has expired. -/
theorem expired_of_passed {held : SchedulerLease}
    (h : upsertLease b now lease leases = some leases')
    (hheld : Table.find (·.leaseName) leases lease.leaseName = some held)
    (hother : lease.leaseOwner ≠ held.leaseOwner) : b.isBefore held.leaseExpiresAt now := by
  unfold upsertLease at h
  rw [hheld] at h
  dsimp only at h
  by_cases hpass : held.canPass b now lease = true
  · unfold SchedulerLease.canPass at hpass
    rcases Bool.or_eq_true_iff.mp hpass with h | h
    · exact h
    · exact absurd (of_decide_eq_true h).symm hother
  · rw [if_neg hpass] at h
    cases h

end Upsert

/-! ## Runs -/

/-- The table, and for each name the grants that the database made, the newest first. -/
structure SchedulerWorld where
  clock : Int
  leases : List SchedulerLease
  grants : String → List (Grant String)

def SchedulerWorld.grant (w : SchedulerWorld) (lease : SchedulerLease)
    (leases : List SchedulerLease) : SchedulerWorld where
  clock := w.clock
  leases := leases
  grants := Function.update w.grants lease.leaseName
    (⟨lease.leaseOwner, w.clock, lease.leaseExpiresAt⟩ :: w.grants lease.leaseName)

/-- One statement; its answer can be lost, and so can the statement. -/
def upsertStep (b : Backend) (lease : SchedulerLease) (answer : Except String (Option String))
    (w w' : SchedulerWorld) : Prop :=
  (∃ leases, upsertLease b w.clock lease w.leases = some leases ∧ w' = w.grant lease leases ∧
      (answer = .ok (some lease.leaseOwner) ∨ ∃ e, answer = .error e)) ∨
    upsertLease b w.clock lease w.leases = none ∧ w' = w ∧ answer = .ok none ∨
    w' = w ∧ ∃ e, answer = .error e

/-- The clock goes on before a call takes effect. -/
def schedulerHandler (b : Backend) : Handler SchedulerOp SchedulerOp.Ans SchedulerWorld where
  step w op answer w' := ∃ now, w.clock ≤ now ∧ match op, answer with
    | .nowUtc, answer => answer = now ∧ w' = { w with clock := now }
    | .upsertFor name owner ms, answer =>
      upsertStep b ⟨name, owner, now + ms * 10 ^ 6⟩ answer { w with clock := now } w'
    | .upsertUntil name owner expiresAt, answer =>
      upsertStep b ⟨name, owner, expiresAt⟩ answer { w with clock := now } w'

/-- What has expired for a statement of the back end. -/
def ended (b : Backend) (expiresAt now : Int) : Prop := b.isBefore expiresAt now = true

/-- The row of a name is its last grant, and the grants are passed on as leases are. -/
structure SchedulerInv (b : Backend) (w : SchedulerWorld) : Prop where
  row : ∀ name, (Table.find (·.leaseName) w.leases name).map
    (fun lease => (lease.leaseOwner, lease.leaseExpiresAt)) =
      (w.grants name).head?.map fun g => (g.owner, g.expiresAt)
  chain : ∀ name, (w.grants name).IsChain (Follows (ended b))
  since : ∀ name, ∀ g ∈ w.grants name, g.since ≤ w.clock

def SchedulerWorld.Holds (b : Backend) (w : SchedulerWorld) (name owner : String) : Prop :=
  Tenure.Holds (ended b) (w.grants name) owner w.clock

section Runs

variable {b : Backend} {w w' : SchedulerWorld} {lease : SchedulerLease}
  {leases : List SchedulerLease} {answer : Except String (Option String)}

theorem SchedulerInv.tick {now : Int} (h : SchedulerInv b w) (hclock : w.clock ≤ now) :
    SchedulerInv b { w with clock := now } :=
  ⟨h.row, h.chain, fun name g hg => Int.le_trans (h.since name g hg) hclock⟩

theorem SchedulerInv.grant (h : SchedulerInv b w)
    (hgrant : upsertLease b w.clock lease w.leases = some leases) :
    SchedulerInv b (w.grant lease leases) := by
  constructor
  · intro name
    rw [show (w.grant lease leases).leases = leases from rfl, find_upsertLease hgrant name]
    by_cases hname : name = lease.leaseName
    · rw [if_pos hname, hname]
      simp [SchedulerWorld.grant]
    · rw [if_neg hname, h.row name]
      simp [SchedulerWorld.grant, hname]
  · intro name
    by_cases hname : name = lease.leaseName
    · subst hname
      rw [show (w.grant lease leases).grants lease.leaseName = _ from Function.update_self ..]
      have hrow := h.row lease.leaseName
      have hsince := h.since lease.leaseName
      have hchain := h.chain lease.leaseName
      cases hlog : w.grants lease.leaseName with
      | nil => exact List.isChain_singleton _
      | cons g log =>
        rw [hlog] at hrow hsince hchain
        refine List.isChain_cons_cons.mpr ⟨⟨hsince g List.mem_cons_self, ?_⟩, hchain⟩
        intro hother
        -- the row that the statement replaces is the grant before
        obtain ⟨held, hheld, hpair⟩ := Option.map_eq_some_iff.mp hrow
        have howner : held.leaseOwner = g.owner := congrArg Prod.fst hpair
        have hexpires : held.leaseExpiresAt = g.expiresAt := congrArg Prod.snd hpair
        have hne : lease.leaseOwner ≠ held.leaseOwner := fun heq => hother (heq.trans howner)
        show b.isBefore g.expiresAt w.clock = true
        rw [← hexpires]
        exact expired_of_passed hgrant hheld hne
    · rw [show (w.grant lease leases).grants name = w.grants name from
        Function.update_of_ne hname ..]
      exact h.chain name
  · intro name g hg
    by_cases hname : name = lease.leaseName
    · subst hname
      rw [show (w.grant lease leases).grants lease.leaseName = _ from Function.update_self ..] at hg
      rcases List.mem_cons.mp hg with rfl | hg
      · exact Int.le_refl _
      · exact h.since _ g hg
    · rw [show (w.grant lease leases).grants name = w.grants name from
        Function.update_of_ne hname ..] at hg
      exact h.since name g hg

theorem SchedulerInv.upsert (h : SchedulerInv b w) (hstep : upsertStep b lease answer w w') :
    SchedulerInv b w' := by
  rcases hstep with ⟨leases, hgrant, rfl, -⟩ | ⟨-, rfl, -⟩ | ⟨rfl, -⟩
  · exact h.grant hgrant
  · exact h
  · exact h

theorem SchedulerInv.step {op : SchedulerOp} {answer : op.Ans} (h : SchedulerInv b w)
    (hstep : (schedulerHandler b).step w op answer w') : SchedulerInv b w' := by
  obtain ⟨now, hclock, hstep⟩ := hstep
  have hnow := h.tick hclock
  cases op with
  | nowUtc =>
    obtain ⟨-, rfl⟩ := hstep
    exact hnow
  | upsertFor name owner ms => exact hnow.upsert hstep
  | upsertUntil name owner expiresAt => exact hnow.upsert hstep

/-- One worker at most holds the lease. -/
theorem SchedulerInv.one_holder (h : SchedulerInv b w) {name owner owner' : String}
    (hholds : w.Holds b name owner) (hholds' : w.Holds b name owner') : owner = owner' := by
  have hended : ∀ e t t', ended b e t → t ≤ t' → ended b e t' :=
    fun e t t' hexpired hle => Backend.isBefore_mono hexpired hle
  have hsince : ∀ g ∈ (w.grants name).head?, g.since ≤ w.clock :=
    fun g hg => h.since name g (List.mem_of_mem_head? hg)
  exact Tenure.one_holder hended (h.chain name) hsince hholds hholds'

end Runs

/-! ## What a call answers -/

/-- Time goes on and no grant is forgotten. -/
def Later (w w' : SchedulerWorld) : Prop :=
  w.clock ≤ w'.clock ∧ ∀ name, w.grants name <:+ w'.grants name

theorem Later.refl (w : SchedulerWorld) : Later w w := ⟨Int.le_refl _, fun _ => List.suffix_refl _⟩

theorem Later.trans {w w' w'' : SchedulerWorld} (h : Later w w') (h' : Later w' w'') :
    Later w w'' :=
  ⟨Int.le_trans h.1 h'.1, fun name => (h.2 name).trans (h'.2 name)⟩

def schedulerContract (b : Backend) : Contract SchedulerWorld SchedulerOp where
  rely w w' := Later w w' ∧ (SchedulerInv b w → SchedulerInv b w')
  guarantee w w' := Later w w' ∧ (SchedulerInv b w → SchedulerInv b w')
  safe _ _ := True
  rely_refl w := ⟨.refl w, id⟩
  rely_trans h h' := ⟨h.1.trans h'.1, h'.2 ∘ h.2⟩

/-- Since `start` a lease was granted, for no longer than asked. -/
def Granted (w : SchedulerWorld) (params : SchedulerLeaseParams) (start : Int) : Prop :=
  ∃ g ∈ w.grants params.leaseName, g.owner = params.leaseOwner ∧ start ≤ g.since ∧
    g.expiresAt ≤ g.since + clampLeaseMs params.leaseMs * 10 ^ 6

/-- At an instant since `start` the lease of another worker ran. -/
def Refused (b : Backend) (w : SchedulerWorld) (params : SchedulerLeaseParams) (start : Int) :
    Prop :=
  ∃ g ∈ w.grants params.leaseName, g.owner ≠ params.leaseOwner ∧
    ∃ t, start ≤ t ∧ g.since ≤ t ∧ t ≤ w.clock ∧ ¬ ended b g.expiresAt t

def AnsweredBy (b : Backend) (params : SchedulerLeaseParams) (start : Int) (w : SchedulerWorld) :
    Except String Bool → Prop
  | .ok true => Granted w params start
  | .ok false => Refused b w params start
  | .error _ => True

section Calls

variable {b : Backend} {w w' : SchedulerWorld} {params : SchedulerLeaseParams} {start : Int}
  {lease : SchedulerLease} {answer : Except String (Option String)}

theorem Granted.mono (h : Granted w params start) (hlater : Later w w') :
    Granted w' params start := by
  obtain ⟨g, hg, howner, hsince, hexpires⟩ := h
  exact ⟨g, (hlater.2 _).subset hg, howner, hsince, hexpires⟩

theorem Refused.mono (h : Refused b w params start) (hlater : Later w w') :
    Refused b w' params start := by
  obtain ⟨g, hg, howner, t, hstart, hsince, ht, hruns⟩ := h
  exact ⟨g, (hlater.2 _).subset hg, howner, t, hstart, hsince, Int.le_trans ht hlater.1, hruns⟩

theorem AnsweredBy.mono {out : Except String Bool} (h : AnsweredBy b params start w out)
    (hlater : Later w w') : AnsweredBy b params start w' out := by
  rcases out with e | answer
  · trivial
  · cases answer with
    | true => exact Granted.mono h hlater
    | false => exact Refused.mono h hlater

theorem later_upsert (hstep : upsertStep b lease answer w w') : Later w w' := by
  rcases hstep with ⟨leases, -, rfl, -⟩ | ⟨-, rfl, -⟩ | ⟨rfl, -⟩
  · refine ⟨Int.le_refl _, fun name => ?_⟩
    by_cases hname : name = lease.leaseName
    · subst hname
      rw [show (w.grant lease leases).grants lease.leaseName = _ from Function.update_self ..]
      exact List.suffix_cons ..
    · have hkept : (w.grant lease leases).grants name = w.grants name :=
        Function.update_of_ne hname ..
      exact hkept ▸ List.suffix_refl _
  · exact .refl _
  · exact .refl _

theorem guarantee_step {op : SchedulerOp} {answer : op.Ans}
    (hstep : (schedulerHandler b).step w op answer w') :
    (schedulerContract b).guarantee w w' := by
  refine ⟨?_, fun h => h.step hstep⟩
  obtain ⟨now, hclock, hstep⟩ := hstep
  have htick : Later w { w with clock := now } := ⟨hclock, fun _ => List.suffix_refl _⟩
  cases op with
  | nowUtc =>
    obtain ⟨-, rfl⟩ := hstep
    exact htick
  | upsertFor name owner ms => exact htick.trans (later_upsert hstep)
  | upsertUntil name owner expiresAt => exact htick.trans (later_upsert hstep)

/-- What the caller makes of the answer of the statement. -/
theorem answered_of_upsert (hinv : SchedulerInv b w) (hstart : start ≤ w.clock) (hname : lease.leaseName = params.leaseName)
    (howner : lease.leaseOwner = params.leaseOwner)
    (hexpires : lease.leaseExpiresAt ≤ w.clock + clampLeaseMs params.leaseMs * 10 ^ 6)
    (hstep : upsertStep b lease answer w w') :
    AnsweredBy b params start w' (answer.map fun owner => owner == some params.leaseOwner) := by
  rcases hstep with ⟨leases, -, rfl, rfl | ⟨e, rfl⟩⟩ | ⟨hrefused, rfl, rfl⟩ | ⟨rfl, e, rfl⟩
  · rw [show (Except.ok (some lease.leaseOwner)).map (fun owner =>
      owner == some params.leaseOwner) = (.ok true : Except String Bool) by
        simp [Except.map, howner]]
    refine ⟨⟨lease.leaseOwner, w.clock, lease.leaseExpiresAt⟩, ?_, howner, hstart, hexpires⟩
    rw [← hname, show (w.grant lease leases).grants lease.leaseName = _ from
      Function.update_self ..]
    exact List.mem_cons_self
  · trivial
  · obtain ⟨held, hheld, hother, hruns⟩ := held_of_refused hrefused
    have hrow := hinv.row lease.leaseName
    rw [hheld] at hrow
    obtain ⟨g, hhead, hpair⟩ := Option.map_eq_some_iff.mp hrow.symm
    have hheldOwner : g.owner = held.leaseOwner := congrArg Prod.fst hpair
    have hheldExpires : g.expiresAt = held.leaseExpiresAt := congrArg Prod.snd hpair
    have hg := List.mem_of_mem_head? hhead
    refine ⟨g, hname ▸ hg, ?_, w'.clock, hstart, hinv.since _ g hg, Int.le_refl _, ?_⟩
    · rw [hheldOwner, ← howner]
      exact hother
    · rw [hheldExpires]
      exact hruns
  · trivial

theorem wp_upsert {op : SchedulerOp} {k : op.Ans → SchedulerProg Bool} (hinv : SchedulerInv b w)
    (hop : ∀ w₁ answer w₂, Later w w₁ → SchedulerInv b w₁ →
      (schedulerHandler b).step w₁ op answer w₂ →
        wp (schedulerHandler b) (schedulerContract b) (k answer) (AnsweredBy b params start) w₂) :
    wp (schedulerHandler b) (schedulerContract b) (.call op k) (AnsweredBy b params start) w := by
  intro w₁ hrely
  refine ⟨trivial, fun answer w₂ hstep => ⟨guarantee_step hstep, ?_⟩⟩
  exact hop w₁ answer w₂ hrely.1 (hrely.2 hinv) hstep

theorem wp_answer
    (h : AnsweredBy b params start w (answer.map fun owner => owner == some params.leaseOwner)) :
    wp (schedulerHandler b) (schedulerContract b)
      ((Prog.ofExcept answer : SchedulerProg (Option String)) >>= fun acquiredOwner =>
        .pure (acquiredOwner == some params.leaseOwner)) (AnsweredBy b params start) w := by
  cases answer with
  | error e => exact fun w' hrely => h.mono hrely.1
  | ok acquiredOwner => exact fun w' hrely => h.mono hrely.1

theorem wp_tryAcquire (params : SchedulerLeaseParams) (hinv : SchedulerInv b w)
    (hstart : start ≤ w.clock) :
    wp (schedulerHandler b) (schedulerContract b) (tryAcquireSchedulerLease b params)
      (AnsweredBy b params start) w := by
  cases b with
  | postgres =>
    refine wp_upsert hinv fun w₁ answer w₂ hlater hinv₁ hstep => wp_answer ?_
    obtain ⟨now, hclock, hstep⟩ := hstep
    have hnow := Int.le_trans (Int.le_trans hstart hlater.1) hclock
    exact answered_of_upsert (hinv₁.tick hclock) hnow rfl rfl (Int.le_refl _) hstep
  | sqlite =>
    refine wp_upsert hinv fun w₁ read w₂ hlater₁ hinv₁ hstep => ?_
    obtain ⟨now, hclock, rfl, rfl⟩ := hstep
    refine wp_upsert (hinv₁.tick hclock) fun w₃ answer w₄ hlater hinv₃ hstep => wp_answer ?_
    obtain ⟨now, hclock', hstep⟩ := hstep
    -- the instant was computed from a clock that has gone on since
    have hread := Int.le_trans hlater.1 hclock'
    have hnow := Int.le_trans (Int.le_trans (Int.le_trans hstart hlater₁.1) hclock) hread
    exact answered_of_upsert (hinv₃.tick hclock') hnow rfl rfl (Int.add_le_add_right hread _) hstep

/-- What a call that has looked at the clock answers. -/
def TimedAnswer (b : Backend) (params : SchedulerLeaseParams) (w : SchedulerWorld) :
    Except String (Int × Except String Bool) → Prop
  | .ok (start, out) => AnsweredBy b params start w out
  | .error _ => False

theorem wp_timedAcquire (params : SchedulerLeaseParams) (hinv : SchedulerInv b w) :
    wp (schedulerHandler b) (schedulerContract b) (timedAcquire b params) (TimedAnswer b params)
      w := by
  refine wp_perform_bind fun w₁ hrely => ⟨trivial, fun start w₂ hstep => ?_⟩
  refine ⟨guarantee_step hstep, ?_⟩
  obtain ⟨now, hclock, rfl, rfl⟩ := hstep
  refine wp_bind (wp_attempt ?_)
  refine wp_mono ?_ (wp_tryAcquire params ((hrely.2 hinv).tick hclock) (Int.le_refl start))
  intro w₃ out hout w₄ hrely₄
  exact AnsweredBy.mono hout hrely₄.1

end Calls

def SchedulerWorld.empty (clock : Int) : SchedulerWorld := ⟨clock, [], fun _ => []⟩

theorem schedulerInv_empty (b : Backend) (clock : Int) : SchedulerInv b (.empty clock) :=
  ⟨fun _ => rfl, fun _ => List.IsChain.nil, fun _ _ hg => absurd hg List.not_mem_nil⟩

section Exclusive

variable {ι : Type} [DecidableEq ι] {b : Backend} {params : ι → SchedulerLeaseParams}
  {clock : Int} {w : SchedulerWorld} {ps : ι → SchedulerProg (Int × Except String Bool)}

/-- Whatever calls there are and however their statements interleave or fail: at every
moment one worker at most holds the lease of a name; a worker that is told so has been
granted it since its call began, for no longer than it asked; and a worker is turned away
only by a lease of another that had not expired at an instant since its call began. -/
theorem scheduler_lease_exclusive
    (hreach : PoolReaches (schedulerHandler b)
      (.empty clock, fun i => timedAcquire b (params i)) (w, ps)) :
    (∀ name owner owner', w.Holds b name owner → w.Holds b name owner' → owner = owner') ∧
      ∀ i start out, ps i = .pure (start, out) → AnsweredBy b (params i) start w out := by
  have hstart := schedulerInv_empty b clock
  have hinv : SchedulerInv b w := PoolReaches.invariant (I := SchedulerInv b)
    (fun s op r s' h hstep => h.step hstep) hstart hreach
  have hwp := wp_of_pool (C := fun _ => schedulerContract b)
    (fun i j _ s s' h => h) (fun i => wp_timedAcquire (params i) hstart) hreach
  constructor
  · intro name owner owner' hholds hholds'
    exact hinv.one_holder hholds hholds'
  · intro i start out hend
    have hi := hwp i
    rw [hend] at hi
    exact hi w ((schedulerContract b).rely_refl w)

def dispatcherParams (first : Bool) : SchedulerLeaseParams :=
  ⟨"dispatch", if first then "worker-1" else "worker-2", 2000⟩

def dispatcherGrant : SchedulerWorld :=
  (⟨10 ^ 9, [], fun _ => []⟩ : SchedulerWorld).grant ⟨"dispatch", "worker-1", 3 * 10 ^ 9⟩
    [⟨"dispatch", "worker-1", 3 * 10 ^ 9⟩]

/-- The lease ends at three seconds; half a second later SQLite still has it running. -/
theorem scheduler_lease_turned_away :
    AnsweredBy .sqlite (dispatcherParams true) (5 * 10 ^ 8)
        { dispatcherGrant with clock := 35 * 10 ^ 8 } (.ok true) ∧
      AnsweredBy .sqlite (dispatcherParams false) (2 * 10 ^ 9)
        { dispatcherGrant with clock := 35 * 10 ^ 8 } (.ok false) := by
  have hstart : PoolReaches (schedulerHandler .sqlite)
      (.empty 0, fun first => timedAcquire .sqlite (dispatcherParams first))
      (.empty 0, fun first => timedAcquire .sqlite (dispatcherParams first)) := .refl
  have hfirst := (hstart.focus (i := true) rfl).then_call (5 * 10 ^ 8 : Int)
    ⟨5 * 10 ^ 8, [], fun _ => []⟩ ⟨5 * 10 ^ 8, by decide, rfl, rfl⟩
  have hread := hfirst.then_call (10 ^ 9 : Int) ⟨10 ^ 9, [], fun _ => []⟩
    ⟨10 ^ 9, by decide, rfl, rfl⟩
  have hgranted := hread.then_call (.ok (some "worker-1")) dispatcherGrant
    ⟨10 ^ 9, by decide, .inl ⟨_, rfl, rfl, .inl rfl⟩⟩
  have hsecond := (hgranted.focus (i := false) rfl).then_call (2 * 10 ^ 9 : Int)
    { dispatcherGrant with clock := 2 * 10 ^ 9 } ⟨2 * 10 ^ 9, by decide, rfl, rfl⟩
  have hrefused := (hsecond.then_call (2 * 10 ^ 9 : Int)
    { dispatcherGrant with clock := 2 * 10 ^ 9 } ⟨2 * 10 ^ 9, by decide, rfl, rfl⟩).then_call
    (.ok none) { dispatcherGrant with clock := 35 * 10 ^ 8 }
    ⟨35 * 10 ^ 8, by decide, .inr (.inl ⟨by decide, rfl, rfl⟩)⟩
  have hexclusive := scheduler_lease_exclusive hrefused
  exact ⟨hexclusive.2 true (5 * 10 ^ 8) (.ok true) rfl,
    hexclusive.2 false (2 * 10 ^ 9) (.ok false) rfl⟩

end Exclusive

end Worker
end SecureAgnt

/-
The secret resolver that the threads of a process share.

It looks into its cache, asks the backend where nothing fresh is there, and stores the
answer; each of these is one step, and other calls act in between while the secrets change.
`resolved_fresh` says how old a value can be.
-/
import SecureAgnt.Lib.Expiring
import SecureAgnt.Lib.Run
import SecureAgnt.Secrets.Reference

namespace SecureAgnt
namespace Secrets

open Expiring
open Handler

structure CachedSecretResolver where
  ttl : Nat
  maxEntries : Nat
  maxEntries_pos : 0 < maxEntries

def CachedSecretResolver.new (ttl maxEntries : Nat) : CachedSecretResolver :=
  ⟨ttl, max maxEntries 1, Nat.lt_of_lt_of_le Nat.zero_lt_one (Nat.le_max_right ..)⟩

/-- The clock, the two critical sections of the cache, and the resolver inside. -/
inductive SecretOp where
  | now
  | lookupCached (cacheKey : String) (now : Int)
  | inner (reference : SecretReference)
  | storeCached (cacheKey value : String) (now : Int)

abbrev SecretOp.Ans : SecretOp → Type
  | .now => Int
  | .lookupCached .. => Option String
  | .inner _ => Except String String
  | .storeCached .. => Unit

abbrev SecretProg := Prog SecretOp SecretOp.Ans String

def inner (reference : SecretReference) : SecretProg String := do
  let answer ← Prog.perform (SecretOp.inner reference)
  Prog.ofExcept answer

namespace CachedSecretResolver

variable (resolver : CachedSecretResolver)

def resolve (reference : SecretReference) : SecretProg String :=
  if resolver.ttl = 0 then inner reference
  else do
    let now ← Prog.perform SecretOp.now
    let cacheKey := reference.cacheKey
    let cached ← Prog.perform (SecretOp.lookupCached cacheKey now)
    match (cached : Option String) with
    | some value => .pure value
    | none => do
      let value ← inner reference
      Prog.perform (SecretOp.storeCached cacheKey value now)
      .pure value

/-- A caller that looks at the clock before the call. -/
def timedCall (reference : SecretReference) : SecretProg (Int × Except String String) := do
  let start ← Prog.perform SecretOp.now
  let out ← (resolver.resolve reference).attempt
  .pure (start, out)

end CachedSecretResolver

/-! ## Runs -/

structure SecretWorld where
  clock : Int
  cache : List (Dated String String)

/-- What the backends answer at a time. -/
abbrev Backends := Int → SecretReference → Except String String

/-- Every call takes its time; a value is read from its backend at one instant. -/
def secretHandler (resolver : CachedSecretResolver) (backends : Backends) :
    Handler SecretOp SecretOp.Ans SecretWorld where
  step w op answer w' := w.clock ≤ w'.clock ∧ match op, answer with
    | .now, answer => answer = w'.clock ∧ w'.cache = w.cache
    | .lookupCached cacheKey now, answer => (answer, w'.cache) = lookup cacheKey now w.cache
    | .inner reference, answer => answer = backends w'.clock reference ∧ w'.cache = w.cache
    | .storeCached cacheKey value now, _ => ∃ victim,
        Victim resolver.maxEntries victim now w.cache ∧
          w'.cache = store resolver.maxEntries victim ⟨cacheKey, value, now + resolver.ttl⟩ now
            w.cache

section Runs

variable {resolver : CachedSecretResolver} {backends : Backends} {w w' : SecretWorld}
  {reference : SecretReference} {start : Int}

/-- The value was the secret at an instant of a call begun at `start`, or less than the lifetime
before it. -/
def Fresh (resolver : CachedSecretResolver) (backends : Backends) (reference : SecretReference)
    (start now : Int) (value : String) : Prop :=
  ∃ t, (start ≤ t ∨ start < t + resolver.ttl) ∧ t ≤ now ∧ backends t reference = .ok value

/-- An entry holds what its backend answered, and expires no later than its lifetime after. -/
def EntryOk (resolver : CachedSecretResolver) (backends : Backends) (now : Int)
    (e : Dated String String) : Prop :=
  ∃ (reference : SecretReference) (t : Int), e.key = reference.cacheKey ∧
    e.expiresAt ≤ t + resolver.ttl ∧ t ≤ now ∧ backends t reference = .ok e.value

def CacheOk (resolver : CachedSecretResolver) (backends : Backends) (w : SecretWorld) : Prop :=
  ∀ e ∈ w.cache, EntryOk resolver backends w.clock e

theorem EntryOk.mono {e : Dated String String} {now now' : Int}
    (h : EntryOk resolver backends now e) (hclock : now ≤ now') :
    EntryOk resolver backends now' e := by
  obtain ⟨reference, t, hkey, hexpires, ht, hvalue⟩ := h
  exact ⟨reference, t, hkey, hexpires, by omega, hvalue⟩

theorem CacheOk.mono (h : CacheOk resolver backends w) (hclock : w.clock ≤ w'.clock)
    (hcache : ∀ e ∈ w'.cache, e ∈ w.cache) : CacheOk resolver backends w' :=
  fun e he => (h e (hcache e he)).mono hclock

/-- Time goes on and the entries stay in order. -/
def secretContract (resolver : CachedSecretResolver) (backends : Backends) :
    Contract SecretWorld SecretOp where
  rely w w' := w.clock ≤ w'.clock ∧ (CacheOk resolver backends w → CacheOk resolver backends w')
  guarantee w w' :=
    w.clock ≤ w'.clock ∧ (CacheOk resolver backends w → CacheOk resolver backends w')
  safe _ _ := True
  rely_refl _ := ⟨Int.le_refl _, id⟩
  rely_trans h h' := ⟨Int.le_trans h.1 h'.1, h'.2 ∘ h.2⟩

/-- The backend gave the answer at an instant from `start` on. -/
def ReadSince (backends : Backends) (reference : SecretReference) (start : Int) (w : SecretWorld)
    (out : Except String String) : Prop :=
  ∃ t, start ≤ t ∧ t ≤ w.clock ∧ backends t reference = out

/-- What a call begun at `start` answers: a value may come from the cache, an error does
not. -/
def Answers (resolver : CachedSecretResolver) (backends : Backends) (reference : SecretReference)
    (start : Int) (w : SecretWorld) : Except String String → Prop
  | .ok value => Fresh resolver backends reference start w.clock value
  | .error e => ReadSince backends reference start w (.error e)

theorem ReadSince.answers {out : Except String String} {since : Int}
    (h : ReadSince backends reference since w out) (hstart : start ≤ since)
    (hclock : w.clock ≤ w'.clock) : Answers resolver backends reference start w' out := by
  obtain ⟨t, hsince, ht, hout⟩ := h
  cases out with
  | ok value => exact ⟨t, .inl (by omega), by omega, hout⟩
  | error e => exact ⟨t, by omega, by omega, hout⟩

theorem Answers.mono {out : Except String String}
    (h : Answers resolver backends reference start w out) (hclock : w.clock ≤ w'.clock) :
    Answers resolver backends reference start w' out := by
  cases out with
  | ok value =>
    obtain ⟨t, hstart, ht, hvalue⟩ := h
    exact ⟨t, hstart, by omega, hvalue⟩
  | error e =>
    obtain ⟨t, hstart, ht, hvalue⟩ := h
    exact ⟨t, hstart, by omega, hvalue⟩

theorem wp_inner (hstart : start ≤ w.clock) :
    wp (secretHandler resolver backends) (secretContract resolver backends) (inner reference)
      (ReadSince backends reference start) w := by
  refine wp_perform_bind fun w₁ hrely => ⟨trivial, fun answer w₂ hstep => ?_⟩
  obtain ⟨hclock, hanswer, hcache⟩ := hstep
  have hrely' := hrely.1
  refine ⟨⟨hclock, fun hok => hok.mono hclock (hcache ▸ fun _ he => he)⟩, ?_⟩
  refine wp_ofExcept fun w₃ hrely₃ => ?_
  have hrely₃' := hrely₃.1
  exact ⟨w₂.clock, by omega, hrely₃', hanswer.symm⟩

theorem wp_resolve (hstart : start ≤ w.clock) (hok : CacheOk resolver backends w) :
    wp (secretHandler resolver backends) (secretContract resolver backends)
      (resolver.resolve reference) (Answers resolver backends reference start) w := by
  unfold CachedSecretResolver.resolve
  by_cases httl : resolver.ttl = 0
  · rw [if_pos httl]
    refine wp_mono ?_ (wp_inner hstart)
    intro w' out hread
    exact hread.answers (Int.le_refl _) (Int.le_refl _)
  rw [if_neg httl]
  refine wp_perform_bind fun w₁ hrely₁ => ⟨trivial, fun now w₂ hstep => ?_⟩
  obtain ⟨hclock₂, rfl, hcache₂⟩ := hstep
  have hrely₁' := hrely₁.1
  have hok₂ : CacheOk resolver backends w₂ :=
    (hrely₁.2 hok).mono hclock₂ (hcache₂ ▸ fun _ he => he)
  refine ⟨⟨hclock₂, fun hok => hok.mono hclock₂ (hcache₂ ▸ fun _ he => he)⟩, ?_⟩
  refine wp_perform_bind fun w₃ hrely₃ => ⟨trivial, fun cached w₄ hstep => ?_⟩
  obtain ⟨hclock₄, hlookup⟩ := hstep
  have hrely₃' := hrely₃.1
  have hkept : ∀ e ∈ w₄.cache, e ∈ w₃.cache := by
    intro e he
    rw [show w₄.cache = _ from congrArg Prod.snd hlookup] at he
    exact mem_of_mem_lookup he
  have hok₄ : CacheOk resolver backends w₄ := (hrely₃.2 hok₂).mono hclock₄ hkept
  refine ⟨⟨hclock₄, fun hok => hok.mono hclock₄ hkept⟩, ?_⟩
  cases cached with
  | some value =>
    intro w₅ hrely₅
    have hrely₅' := hrely₅.1
    obtain ⟨e, he, hkey, rfl, hlive⟩ := exists_of_lookup (congrArg Prod.fst hlookup).symm
    obtain ⟨reference', t, hkey', hexpires, ht, hvalue⟩ := hrely₃.2 hok₂ e he
    -- the entry under the cache key is one of this reference
    have hsame : reference' = reference := cacheKey_injective (hkey'.symm.trans hkey)
    rw [hsame] at hvalue
    exact ⟨t, .inr (by omega), by omega, hvalue⟩
  | none =>
    refine wp_seq (wp_inner (Int.le_refl _)) ?_ ?_
    · intro w₅ value hread
      refine wp_perform_bind fun w₆ hrely₆ => ⟨trivial, fun u w₇ hstep => ?_⟩
      obtain ⟨hclock₇, victim, _, hstore⟩ := hstep
      have hrely₆' := hrely₆.1
      obtain ⟨t, hsince, ht, hvalue⟩ := hread
      refine ⟨⟨hclock₇, fun hok e he => ?_⟩, ?_⟩
      · rw [hstore] at he
        rcases mem_of_mem_store he with rfl | he
        · have hexpires : w₂.clock + resolver.ttl ≤ t + resolver.ttl := by omega
          exact ⟨reference, t, rfl, hexpires, by omega, hvalue⟩
        · exact (hok e he).mono hclock₇
      · intro w₈ hrely₈
        have hrely₈' := hrely₈.1
        exact ⟨t, .inl (by omega), by omega, hvalue⟩
    · intro w₅ e hread
      exact hread.answers (by omega) (Int.le_refl _)

/-- What a call that has looked at the clock answers. -/
def TimedAnswer (resolver : CachedSecretResolver) (backends : Backends)
    (reference : SecretReference) (w : SecretWorld) :
    Except String (Int × Except String String) → Prop
  | .ok (start, out) => Answers resolver backends reference start w out
  | .error _ => False

theorem wp_timedCall (hok : CacheOk resolver backends w) :
    wp (secretHandler resolver backends) (secretContract resolver backends)
      (resolver.timedCall reference) (TimedAnswer resolver backends reference) w := by
  refine wp_perform_bind fun w₁ hrely => ⟨trivial, fun start w₂ hstep => ?_⟩
  obtain ⟨hclock, rfl, hcache⟩ := hstep
  have hok₂ : CacheOk resolver backends w₂ := (hrely.2 hok).mono hclock (hcache ▸ fun _ he => he)
  refine ⟨⟨hclock, fun hok => hok.mono hclock (hcache ▸ fun _ he => he)⟩, ?_⟩
  refine wp_bind (wp_attempt ?_)
  refine wp_mono ?_ (wp_resolve (Int.le_refl w₂.clock) hok₂)
  intro w₃ out hout w₄ hrely₄
  exact hout.mono hrely₄.1

end Runs

section Calls

variable {ι : Type} [DecidableEq ι] {resolver : CachedSecretResolver} {backends : Backends}
  {references : ι → SecretReference} {w₀ w : SecretWorld}
  {ps : ι → SecretProg (Int × Except String String)}

theorem length_cache_le {op : SecretOp} {answer : op.Ans} {w' : SecretWorld}
    (h : w.cache.length ≤ resolver.maxEntries)
    (hstep : (secretHandler resolver backends).step w op answer w') :
    w'.cache.length ≤ resolver.maxEntries := by
  obtain ⟨_, hstep⟩ := hstep
  cases op with
  | now => exact hstep.2 ▸ h
  | lookupCached cacheKey now =>
    rw [show w'.cache = _ from congrArg Prod.snd hstep]
    exact Nat.le_trans (length_lookup_le cacheKey now w.cache) h
  | inner reference => exact hstep.2 ▸ h
  | storeCached cacheKey value now =>
    obtain ⟨victim, hvictim, hstore⟩ := hstep
    rw [hstore]
    exact length_store_le hvictim h

/-- However the calls interleave with each other and with changes of the secrets, the cache
keeps its bound, and a call that has ended answers for its own reference: with a value that
was the secret during the call or less than the lifetime before it, or with an error that
is no older than the call. -/
theorem resolved_fresh (hempty : w₀.cache = [])
    (hreach : PoolReaches (secretHandler resolver backends)
      (w₀, fun i => resolver.timedCall (references i)) (w, ps)) :
    w.cache.length ≤ resolver.maxEntries ∧ ∀ i start out, ps i = .pure (start, out) →
      Answers resolver backends (references i) start w out := by
  have hok : CacheOk resolver backends w₀ := by
    intro e he
    rw [hempty] at he
    cases he
  have hwp := wp_of_pool (C := fun _ => secretContract resolver backends)
    (fun i j _ s s' h => h) (fun i => wp_timedCall hok) hreach
  constructor
  · have hzero : w₀.cache.length ≤ resolver.maxEntries := by
      rw [hempty]
      exact Nat.zero_le _
    have hkeep : ∀ (s : SecretWorld) (op : SecretOp) (r : op.Ans) (s' : SecretWorld),
        s.cache.length ≤ resolver.maxEntries →
        (secretHandler resolver backends).step s op r s' →
        s'.cache.length ≤ resolver.maxEntries := fun s op r s' h hstep => length_cache_le h hstep
    exact PoolReaches.invariant (I := fun s => s.cache.length ≤ resolver.maxEntries)
      hkeep hzero hreach
  · intro i start out hend
    have hi := hwp i
    rw [hend] at hi
    exact hi w ((secretContract resolver backends).rely_refl w)

end Calls

section Rotation

/-- Kept for ten seconds, in one place. -/
def tenSeconds : CachedSecretResolver := .new 10 0

def tokenReference : SecretReference := ⟨.env, "TOKEN"⟩

example : SecretReference.parse " ENV: TOKEN " = .ok tokenReference := by decide

/-- The secret changes at 7. -/
def rotatedBackends : Backends := fun t _ => if t < 7 then .ok "old" else .ok "new"

def tokenEntry : Dated String String := ⟨"env:TOKEN", "old", 12⟩

/-- One call fills the cache before the change; another begins after it and still gets the
old value, one second older than itself. -/
theorem resolved_fresh_rotated :
    [tokenEntry].length ≤ tenSeconds.maxEntries ∧
      Answers tenSeconds rotatedBackends tokenReference 8 ⟨9, [tokenEntry]⟩ (.ok "old") := by
  have hstart : PoolReaches (secretHandler tenSeconds rotatedBackends)
      (⟨1, []⟩, fun _ : Bool => tenSeconds.timedCall tokenReference)
      (⟨1, []⟩, fun _ => tenSeconds.timedCall tokenReference) := .refl
  have hcached := (((hstart.focus (i := true) rfl).then_call (2 : Int) ⟨2, []⟩
    ⟨by decide, rfl, rfl⟩).then_call (2 : Int) ⟨2, []⟩ ⟨by decide, rfl, rfl⟩).then_call none
    ⟨3, []⟩ ⟨by decide, by decide⟩
  have hstored := (hcached.then_call (.ok "old") ⟨4, []⟩ ⟨by decide, rfl, rfl⟩).then_call ()
    ⟨5, [tokenEntry]⟩ ⟨by decide, "", fun h => absurd h (by decide), by decide⟩
  have hlater := ((hstored.focus (i := false) rfl).then_call (8 : Int) ⟨8, [tokenEntry]⟩
    ⟨by decide, rfl, rfl⟩).then_call (8 : Int) ⟨8, [tokenEntry]⟩ ⟨by decide, rfl, rfl⟩
  have hend := hlater.then_call (some "old") ⟨9, [tokenEntry]⟩ ⟨by decide, by decide⟩
  have hfresh := resolved_fresh rfl hend
  exact ⟨hfresh.1, hfresh.2 false 8 (.ok "old") rfl⟩

end Rotation

end Secrets
end SecureAgnt

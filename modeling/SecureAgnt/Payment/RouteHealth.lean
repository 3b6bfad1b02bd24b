/-
The health of payment routes.

A route that fails as often in a row as its threshold says is to be left alone for its
cooldown.  Every attempt sets the count of its failures back to nothing, so the count
is never more than one: a threshold of one is reached at every failure, and a higher
one is never reached.  No route is left alone before its threshold.

An instant is a number of nanoseconds without a bound.  The clock of the source panics
where an instant and a cooldown have no sum, which takes a cooldown of about 2^63
seconds; such a cooldown is left out.
-/
import SecureAgnt.Lib.Run
import SecureAgnt.Payment.Send

namespace SecureAgnt
namespace Payment

open Worker (PaymentRouteConfig)

/-- The cooldown in nanoseconds, in which instants are counted. -/
def healthCooldown (route : PaymentRouteConfig) : Nat := route.healthCooldownSecs * 10 ^ 9

structure PaymentRouteHealthEntry where
  consecutiveFailures : Nat
  unhealthyUntil : Option Nat
  deriving DecidableEq, Repr

/-- The map behind the lock, which only a panic could poison. -/
abbrev PaymentRouteHealth := String → Option PaymentRouteHealthEntry

/-- The map of a worker that has just started. -/
def freshHealth : PaymentRouteHealth := fun _ => none

namespace PaymentRouteHealth

def entryUnhealthy (entry : PaymentRouteHealthEntry) (now : Nat) : Bool :=
  match entry.unhealthyUntil with
  | some unhealthyUntil => now < unhealthyUntil
  | none => false

def shouldAttempt (health : PaymentRouteHealth) (route : PaymentRouteConfig) (key : String)
    (now : Nat) : Bool × PaymentRouteHealth :=
  if route.healthFailThreshold = 0 ∨ route.healthCooldownSecs = 0 then (true, health)
  else
    match health key with
    | none => (true, health)
    | some entry =>
      if entryUnhealthy entry now then (false, health)
      else (true, Function.update health key (some ⟨0, none⟩))

def markSuccess (health : PaymentRouteHealth) (route : PaymentRouteConfig) (key : String) :
    PaymentRouteHealth :=
  if route.healthFailThreshold = 0 then health else Function.update health key none

/-- `u32::saturating_add`. -/
def countFailure (failures : Nat) : Nat := min (failures + 1) (2 ^ 32 - 1)

def markFailure (health : PaymentRouteHealth) (route : PaymentRouteConfig) (key : String)
    (now : Nat) : PaymentRouteHealth :=
  if route.healthFailThreshold = 0 ∨ route.healthCooldownSecs = 0 then health
  else
    let entry := (health key).getD ⟨0, none⟩
    let failures := countFailure entry.consecutiveFailures
    Function.update health key (some
      (if failures ≥ route.healthFailThreshold then ⟨0, some (now + healthCooldown route)⟩
      else ⟨failures, entry.unhealthyUntil⟩))

end PaymentRouteHealth

/-! ## Visits -/

inductive RouteOutcome where
  | skipped
  | succeeded
  | failed
  deriving DecidableEq, Repr

/-- A payment comes to a route: when, whether the route would answer, and when its answer
or error is there. -/
structure RouteVisit where
  key : String
  start : Nat
  answers : Bool
  finish : Nat

/-- The three functions in the order in which a payment calls them. -/
def RouteVisit.run (v : RouteVisit) (rail : String → PaymentRouteConfig)
    (health : PaymentRouteHealth) : RouteOutcome × PaymentRouteHealth :=
  let (attempt, health) := health.shouldAttempt (rail v.key) v.key v.start
  if attempt = false then (.skipped, health)
  else if v.answers then (.succeeded, health.markSuccess (rail v.key) v.key)
  else (.failed, health.markFailure (rail v.key) v.key v.finish)

/-- The health of the routes, and how often in a row each has failed. -/
structure RouteState where
  health : PaymentRouteHealth
  failures : String → Nat

def RouteState.fresh : RouteState := ⟨freshHealth, fun _ => 0⟩

def countOutcome (failures : Nat) : RouteOutcome → Nat
  | .skipped => failures
  | .succeeded => 0
  | .failed => failures + 1

def RouteState.next (rail : String → PaymentRouteConfig) (s : RouteState) (v : RouteVisit) :
    RouteState where
  health := (v.run rail s.health).2
  failures := Function.update s.failures v.key
    (countOutcome (s.failures v.key) (v.run rail s.health).1)

/-- What a worker knows of its routes after the visits of its payments. -/
def RouteState.after (rail : String → PaymentRouteConfig) (visits : List RouteVisit) :
    RouteState := visits.foldl (RouteState.next rail) .fresh

/-- How a visit ends that comes after others. -/
def outcomeAfter (rail : String → PaymentRouteConfig) (before : List RouteVisit)
    (v : RouteVisit) : RouteOutcome := (v.run rail (RouteState.after rail before).health).1

/-- One visit after the other. -/
structure Chronological (visits : List RouteVisit) : Prop where
  within : ∀ v ∈ visits, v.start ≤ v.finish
  inOrder : visits.Pairwise fun v w => v.finish ≤ w.start

/-- The breaker of a route along the visits of a worker. -/
structure BreakerWorks (rail : String → PaymentRouteConfig) (key : String)
    (visits : List RouteVisit) : Prop where
  /-- With the threshold reached no payment attempts the route before the cooldown is over. -/
  opens : ∀ before v between w after, visits = before ++ v :: (between ++ w :: after) →
    v.key = key → w.key = key → outcomeAfter rail before v = .failed →
    (rail key).healthFailThreshold ≤ (RouteState.after rail (before ++ [v])).failures key →
    w.start < v.finish + healthCooldown (rail key) →
    outcomeAfter rail (before ++ v :: between) w = .skipped
  /-- Below the threshold no payment leaves the route out. -/
  stays : ∀ before v after, visits = before ++ v :: after → v.key = key →
    (RouteState.after rail before).failures key < (rail key).healthFailThreshold →
    outcomeAfter rail before v ≠ .skipped

variable {rail : String → PaymentRouteConfig} {key : String} {s : RouteState} {v w : RouteVisit}
  {visits before : List RouteVisit}

theorem after_concat (rail : String → PaymentRouteConfig) (before : List RouteVisit)
    (v : RouteVisit) :
    RouteState.after rail (before ++ [v]) = (RouteState.after rail before).next rail v := by
  simp [RouteState.after]

/-! ## One visit -/

section Visit

variable {health : PaymentRouteHealth} {route : PaymentRouteConfig} {other : String} {now : Nat}

theorem shouldAttempt_other (h : key ≠ other) :
    (health.shouldAttempt route other now).2 key = health key := by
  unfold PaymentRouteHealth.shouldAttempt
  split
  · rfl
  · split
    · rfl
    · split
      · rfl
      · exact Function.update_of_ne h _ _

theorem markSuccess_other (h : key ≠ other) : health.markSuccess route other key = health key := by
  unfold PaymentRouteHealth.markSuccess
  split
  · rfl
  · exact Function.update_of_ne h _ _

theorem markFailure_other (h : key ≠ other) :
    health.markFailure route other now key = health key := by
  unfold PaymentRouteHealth.markFailure
  split
  · rfl
  · exact Function.update_of_ne h _ _

/-- A visit to one route says nothing of another. -/
theorem run_other (h : key ≠ v.key) : (v.run rail health).2 key = health key := by
  have hattempt : (health.shouldAttempt (rail v.key) v.key v.start).2 key = health key :=
    shouldAttempt_other h
  unfold RouteVisit.run
  dsimp only
  split
  · exact hattempt
  · split
    · exact (markSuccess_other h).trans hattempt
    · exact (markFailure_other h).trans hattempt

/-- A route is attempted unless its cooldown is running, and then its entry is clear. -/
theorem shouldAttempt_cases (hthreshold : 0 < route.healthFailThreshold)
    (hcooldown : 0 < route.healthCooldownSecs) :
    (∃ entry, health key = some entry ∧ PaymentRouteHealth.entryUnhealthy entry now = true ∧
      health.shouldAttempt route key now = (false, health)) ∨
    ((∀ entry, health key = some entry → PaymentRouteHealth.entryUnhealthy entry now = false) ∧
      (health.shouldAttempt route key now).1 = true ∧
      ((health.shouldAttempt route key now).2 key).getD ⟨0, none⟩ = ⟨0, none⟩) := by
  have henabled : ¬ (route.healthFailThreshold = 0 ∨ route.healthCooldownSecs = 0) := by omega
  unfold PaymentRouteHealth.shouldAttempt
  rw [if_neg henabled]
  cases hentry : health key with
  | none =>
    refine .inr ⟨fun _ h => absurd h (by simp), rfl, ?_⟩
    show (health key).getD _ = _
    rw [hentry]
    rfl
  | some entry =>
    cases hunhealthy : PaymentRouteHealth.entryUnhealthy entry now with
    | true => exact .inl ⟨entry, rfl, hunhealthy, by simp [hunhealthy]⟩
    | false =>
      refine .inr ⟨fun e h => ?_, by simp [hunhealthy], by simp [hunhealthy]⟩
      cases h
      exact hunhealthy

/-- The count of a failure is one. -/
theorem markFailure_cleared (hthreshold : 0 < route.healthFailThreshold)
    (hcooldown : 0 < route.healthCooldownSecs)
    (hcleared : (health key).getD ⟨0, none⟩ = ⟨0, none⟩) :
    health.markFailure route key now key = some
      (if route.healthFailThreshold ≤ 1 then ⟨0, some (now + healthCooldown route)⟩
      else ⟨1, none⟩) := by
  have henabled : ¬ (route.healthFailThreshold = 0 ∨ route.healthCooldownSecs = 0) := by omega
  unfold PaymentRouteHealth.markFailure
  rw [if_neg henabled, hcleared]
  exact Function.update_self _ _ _

/-- What a visit makes of its own route. -/
theorem run_cases (hthreshold : 0 < (rail v.key).healthFailThreshold)
    (hcooldown : 0 < (rail v.key).healthCooldownSecs) :
    (∃ entry, health v.key = some entry ∧
      PaymentRouteHealth.entryUnhealthy entry v.start = true ∧
      v.run rail health = (.skipped, health)) ∨
    ((∀ entry, health v.key = some entry →
        PaymentRouteHealth.entryUnhealthy entry v.start = false) ∧
      ((v.answers = true ∧ (v.run rail health).1 = .succeeded ∧
          (v.run rail health).2 v.key = none) ∨
        (v.answers = false ∧ (v.run rail health).1 = .failed ∧
          (v.run rail health).2 v.key = some
            (if (rail v.key).healthFailThreshold ≤ 1 then
              ⟨0, some (v.finish + healthCooldown (rail v.key))⟩
            else ⟨1, none⟩)))) := by
  unfold RouteVisit.run
  rcases @shouldAttempt_cases v.key health (rail v.key) v.start hthreshold hcooldown with
    ⟨entry, hentry, hunhealthy, hskip⟩ | ⟨hhealthy, hattempt, hcleared⟩
  · refine .inl ⟨entry, hentry, hunhealthy, ?_⟩
    rw [hskip]
    rfl
  · refine .inr ⟨hhealthy, ?_⟩
    dsimp only
    rw [hattempt]
    cases hanswers : v.answers with
    | true =>
      refine .inl ⟨rfl, rfl, ?_⟩
      show PaymentRouteHealth.markSuccess _ _ _ _ = none
      unfold PaymentRouteHealth.markSuccess
      rw [if_neg (by omega)]
      exact Function.update_self _ _ _
    | false => exact .inr ⟨rfl, rfl, markFailure_cleared hthreshold hcooldown hcleared⟩

end Visit

theorem exists_of_unhealthy {entry : PaymentRouteHealthEntry} {now : Nat}
    (h : PaymentRouteHealth.entryUnhealthy entry now = true) :
    ∃ unhealthyUntil, entry.unhealthyUntil = some unhealthyUntil ∧ now < unhealthyUntil := by
  unfold PaymentRouteHealth.entryUnhealthy at h
  split at h
  · rename_i unhealthyUntil hsome
    exact ⟨unhealthyUntil, hsome, of_decide_eq_true h⟩
  · cases h

theorem next_failures_other (h : key ≠ v.key) : (s.next rail v).failures key = s.failures key :=
  Function.update_of_ne h _ _

theorem next_failures_same :
    (s.next rail v).failures v.key = countOutcome (s.failures v.key) (v.run rail s.health).1 :=
  Function.update_self _ _ _

/-- Failures of one route at one instant. -/
def failing (key : String) : RouteVisit := ⟨key, 0, false, 0⟩

theorem chronological_failing (n : Nat) : Chronological (List.replicate n (failing key)) where
  within := by
    intro v hv
    rw [List.eq_of_mem_replicate hv]
    exact Nat.le_refl 0
  inOrder := List.pairwise_replicate.mpr (.inr (Nat.le_refl 0))

/-! ## Before the threshold -/

/-- A cooldown is running only of a route that has failed often enough. -/
def Earned (rail : String → PaymentRouteConfig) (key : String) (s : RouteState) : Prop :=
  ∀ entry, s.health key = some entry → entry.unhealthyUntil.isSome = true →
    (rail key).healthFailThreshold ≤ s.failures key

section Threshold

variable (hthreshold : 0 < (rail key).healthFailThreshold)
  (hcooldown : 0 < (rail key).healthCooldownSecs)

include hthreshold hcooldown

theorem earned_next (h : Earned rail key s) : Earned rail key (s.next rail v) := by
  by_cases hkey : key = v.key
  · subst hkey
    intro entry hentry hsome
    rw [next_failures_same]
    replace hentry : (v.run rail s.health).2 v.key = some entry := hentry
    rcases @run_cases rail v s.health hthreshold hcooldown with
      ⟨_, _, _, hskip⟩ | ⟨_, ⟨_, _, hnone⟩ | ⟨_, hfailed, hsame⟩⟩
    · rw [hskip] at hentry ⊢
      exact h entry hentry hsome
    · rw [hnone] at hentry
      cases hentry
    · rw [hsame] at hentry
      rw [hfailed]
      show _ ≤ _ + 1
      by_cases hone : (rail v.key).healthFailThreshold ≤ 1
      · omega
      · rw [if_neg hone] at hentry
        cases hentry
        cases hsome
  · intro entry hentry hsome
    rw [next_failures_other hkey]
    replace hentry : (v.run rail s.health).2 key = some entry := hentry
    rw [run_other hkey] at hentry
    exact h entry hentry hsome

theorem earned_after (visits : List RouteVisit) : Earned rail key (.after rail visits) := by
  induction visits using List.reverseRecOn with
  | nil =>
    intro entry hentry
    cases hentry
  | append_singleton visits v ih =>
    rw [after_concat]
    exact earned_next hthreshold hcooldown ih

/-- No payment leaves out a route below its threshold. -/
theorem not_skipped (before : List RouteVisit) (hkey : v.key = key)
    (hbelow : (RouteState.after rail before).failures key < (rail key).healthFailThreshold) :
    outcomeAfter rail before v ≠ .skipped := by
  subst hkey
  intro hskipped
  rcases @run_cases rail v (RouteState.after rail before).health hthreshold hcooldown with
    ⟨entry, hentry, hunhealthy, _⟩ | ⟨_, ⟨_, hother, _⟩ | ⟨_, hother, _⟩⟩
  · obtain ⟨unhealthyUntil, hsome, _⟩ := exists_of_unhealthy hunhealthy
    have hearned := earned_after hthreshold hcooldown before entry hentry (by rw [hsome]; rfl)
    omega
  · rw [outcomeAfter, hother] at hskipped
    cases hskipped
  · rw [outcomeAfter, hother] at hskipped
    cases hskipped

/-! ## A threshold of one -/

/-- A visit in a running cooldown leaves the route out and the cooldown as it is. -/
theorem run_cooling {health : PaymentRouteHealth} {unhealthyUntil : Nat}
    (hcooling : health key = some ⟨0, some unhealthyUntil⟩) (hstart : v.start < unhealthyUntil) :
    (v.run rail health).2 key = some ⟨0, some unhealthyUntil⟩ ∧
      (v.key = key → (v.run rail health).1 = .skipped) := by
  by_cases hkey : key = v.key
  · subst hkey
    rcases @run_cases rail v health hthreshold hcooldown with ⟨_, _, _, hskip⟩ | ⟨hhealthy, _⟩
    · rw [hskip]
      exact ⟨hcooling, fun _ => rfl⟩
    · have hunhealthy : decide (v.start < unhealthyUntil) = false := hhealthy _ hcooling
      exact absurd hstart (of_decide_eq_false hunhealthy)
  · rw [run_other hkey]
    exact ⟨hcooling, fun h => absurd h.symm hkey⟩

theorem cooling_after {unhealthyUntil : Nat} {between : List RouteVisit}
    (hcooling : (RouteState.after rail before).health key = some ⟨0, some unhealthyUntil⟩)
    (hbetween : ∀ u ∈ between, u.start < unhealthyUntil) :
    (RouteState.after rail (before ++ between)).health key = some ⟨0, some unhealthyUntil⟩ := by
  induction between using List.reverseRecOn with
  | nil =>
    rw [List.append_nil]
    exact hcooling
  | append_singleton between u ih =>
    rw [← List.append_assoc, after_concat]
    have hmem : u ∈ between ++ [u] := List.mem_append_right _ List.mem_cons_self
    have hrest := ih fun u' hu' => hbetween u' (List.mem_append_left _ hu')
    exact (run_cooling hthreshold hcooldown hrest (hbetween u hmem)).1

theorem cooling_of_failed (hone : (rail key).healthFailThreshold ≤ 1) (hkey : v.key = key)
    (hfailed : outcomeAfter rail before v = .failed) :
    (RouteState.after rail (before ++ [v])).health key =
      some ⟨0, some (v.finish + healthCooldown (rail key))⟩ := by
  subst hkey
  rw [after_concat]
  rw [outcomeAfter] at hfailed
  rcases @run_cases rail v (RouteState.after rail before).health hthreshold hcooldown with
    ⟨_, _, _, hskip⟩ | ⟨_, ⟨_, hsucceeded, _⟩ | ⟨_, _, hsame⟩⟩
  · rw [hskip] at hfailed
    cases hfailed
  · rw [hsucceeded] at hfailed
    cases hfailed
  · rw [if_pos hone] at hsame
    exact hsame

theorem breakerWorks_of_one (hone : (rail key).healthFailThreshold ≤ 1)
    (hvisits : Chronological visits) : BreakerWorks rail key visits where
  opens := by
    intro before v between w after hsplit hkey hkey' hfailed _ hwindow
    have hcooling := cooling_of_failed hthreshold hcooldown hone hkey hfailed
    have hbetween : ∀ u ∈ between, u.start < v.finish + healthCooldown (rail key) := by
      intro u hu
      have hsplit' : visits = (before ++ v :: between) ++ w :: after := by
        rw [hsplit, List.append_assoc, List.cons_append]
      have hmem : u ∈ before ++ v :: between :=
        List.mem_append_right _ (List.mem_cons_of_mem _ hu)
      have horder := hvisits.inOrder
      rw [hsplit', List.pairwise_append] at horder
      have hbefore : u.finish ≤ w.start := horder.2.2 u hmem w List.mem_cons_self
      have hwithin : u.start ≤ u.finish := by
        refine hvisits.within u ?_
        rw [hsplit']
        exact List.mem_append_left _ hmem
      omega
    have hlast := cooling_after hthreshold hcooldown hcooling hbetween
    rw [List.append_assoc, List.singleton_append] at hlast
    exact (run_cooling hthreshold hcooldown hlast hwindow).2 hkey'
  stays := by
    intro before v _ _ hkey hbelow
    exact not_skipped hthreshold hcooldown before hkey hbelow

/-! ## A higher threshold -/

/-- The count of a route that only fails. -/
theorem after_failing (htwo : 1 < (rail key).healthFailThreshold) (n : Nat) :
    (RouteState.after rail (List.replicate n (failing key))).failures key = n ∧
      ((RouteState.after rail (List.replicate n (failing key))).health key = none ∨
        (RouteState.after rail (List.replicate n (failing key))).health key = some ⟨1, none⟩) := by
  induction n with
  | zero => exact ⟨rfl, .inl rfl⟩
  | succ n ih =>
    rw [List.replicate_succ', after_concat]
    generalize RouteState.after rail (List.replicate n (failing key)) = s at ih
    have hcount := @next_failures_same rail s (failing key)
    rcases @run_cases rail (failing key) s.health hthreshold hcooldown with
      ⟨entry, hentry, hunhealthy, _⟩ | ⟨_, ⟨hanswers, _⟩ | ⟨_, hfailed, hsame⟩⟩
    · obtain ⟨unhealthyUntil, hsome, _⟩ := exists_of_unhealthy hunhealthy
      replace hentry : s.health key = some entry := hentry
      rcases ih.2 with hnone | hone
      · rw [hnone] at hentry
        cases hentry
      · rw [hone] at hentry
        cases hentry
        cases hsome
    · cases hanswers
    · rw [hfailed] at hcount
      have hnot : ¬ (rail key).healthFailThreshold ≤ 1 := by omega
      replace hsame : ((s.next rail (failing key)).health key) =
        some (if (rail key).healthFailThreshold ≤ 1 then _ else ⟨1, none⟩) := hsame
      rw [if_neg hnot] at hsame
      exact ⟨hcount.trans (congrArg (· + 1) ih.1), .inr hsame⟩

theorem failing_failed (htwo : 1 < (rail key).healthFailThreshold) (n : Nat) :
    outcomeAfter rail (List.replicate n (failing key)) (failing key) = .failed := by
  have hentry := (after_failing hthreshold hcooldown htwo n).2
  rw [outcomeAfter]
  rcases @run_cases rail (failing key) (RouteState.after rail _).health hthreshold hcooldown with
    ⟨entry, hsome, hunhealthy, _⟩ | ⟨_, ⟨hanswers, _⟩ | ⟨_, hfailed, _⟩⟩
  · obtain ⟨unhealthyUntil, huntil, _⟩ := exists_of_unhealthy hunhealthy
    replace hsome : (RouteState.after rail (List.replicate n (failing key))).health key =
      some entry := hsome
    rcases hentry with hnone | hone
    · rw [hnone] at hsome
      cases hsome
    · rw [hone] at hsome
      cases hsome
      cases huntil
  · cases hanswers
  · exact hfailed

/-- A route that has failed as often as its threshold says is attempted all the same. -/
theorem not_breakerWorks (htwo : 1 < (rail key).healthFailThreshold) :
    ¬ BreakerWorks rail key
      (List.replicate ((rail key).healthFailThreshold + 1) (failing key)) := by
  intro hworks
  obtain ⟨n, hn⟩ : ∃ n, (rail key).healthFailThreshold = n + 1 :=
    Nat.exists_eq_succ_of_ne_zero (by omega)
  have hsplit : List.replicate ((rail key).healthFailThreshold + 1) (failing key) =
      List.replicate n (failing key) ++ failing key :: ([] ++ failing key :: []) := by
    rw [hn, List.replicate_succ', List.replicate_succ', List.append_assoc]
    rfl
  have hconcat : List.replicate n (failing key) ++ [failing key] =
      List.replicate (n + 1) (failing key) := List.replicate_succ'.symm
  have hreached : (rail key).healthFailThreshold ≤ (RouteState.after rail
      (List.replicate n (failing key) ++ [failing key])).failures key := by
    rw [hconcat, (after_failing hthreshold hcooldown htwo _).1]
    omega
  have hwindow : (failing key).start < (failing key).finish + healthCooldown (rail key) := by
    show 0 < 0 + (rail key).healthCooldownSecs * 10 ^ 9
    omega
  have hskipped := hworks.opens _ _ [] _ [] hsplit rfl rfl
    (failing_failed hthreshold hcooldown htwo n) hreached hwindow
  rw [hconcat, failing_failed hthreshold hcooldown htwo] at hskipped
  cases hskipped

end Threshold

/-! ## The routes of a payment -/

/-- Visits one after the other between two instants. -/
inductive Between : Nat → List RouteVisit → Nat → Prop
  | nil {t t' : Nat} (h : t ≤ t') : Between t [] t'
  | cons {t t' : Nat} {v : RouteVisit} {rest : List RouteVisit} (hstart : t ≤ v.start)
      (hfinish : v.start ≤ v.finish) (hrest : Between v.finish rest t') : Between t (v :: rest) t'

theorem Between.mono {t t' u : Nat} (h : Between t visits t') (hut : u ≤ t) :
    Between u visits t' := by
  cases h with
  | nil ht => exact .nil (by omega)
  | cons hstart hfinish hrest => exact .cons (by omega) hfinish hrest

theorem Between.le_of_mem {t t' : Nat} (h : Between t visits t') (hv : v ∈ visits) :
    t ≤ v.start := by
  induction h with
  | nil _ => cases hv
  | cons hstart hfinish _ ih =>
    rcases List.mem_cons.mp hv with rfl | hv
    · exact hstart
    · have hrest := ih hv
      omega

theorem Between.chronological {t t' : Nat} (h : Between t visits t') : Chronological visits := by
  induction h with
  | nil _ => exact ⟨fun _ hv => absurd hv List.not_mem_nil, .nil⟩
  | cons hstart hfinish hrest ih =>
    refine ⟨?_, .cons (fun w hw => hrest.le_of_mem hw) ih.inOrder⟩
    intro w hw
    rcases List.mem_cons.mp hw with rfl | hw
    · exact hfinish
    · exact ih.within w hw

theorem Between.append {t t' t'' : Nat} {more : List RouteVisit} (h : Between t visits t')
    (h' : Between t' more t'') : Between t (visits ++ more) t'' := by
  induction h with
  | nil ht => exact h'.mono ht
  | cons hstart hfinish _ ih => exact .cons hstart hfinish (ih h')

/-- What the payments of a worker share: the health of its routes and the clock. -/
structure RouteWorld where
  health : PaymentRouteHealth
  now : Nat

def healthStep (rail : String → PaymentRouteConfig) (s : RouteWorld) :
    (op : PaymentOp) → PaymentAns op → RouteWorld → Prop
  | .routeHealth key, attempt, s' => s.now ≤ s'.now ∧
    (attempt, s'.health) = s.health.shouldAttempt (rail key) key s'.now
  | .markRouteSuccess key, _, s' => s.now ≤ s'.now ∧
    s'.health = s.health.markSuccess (rail key) key
  | .markRouteFailure key, _, s' => s.now ≤ s'.now ∧
    s'.health = s.health.markFailure (rail key) key s'.now
  | _, _, s' => s.now ≤ s'.now ∧ s'.health = s.health

def healthHandler (rail : String → PaymentRouteConfig) :
    Handler PaymentOp PaymentAns RouteWorld where
  step := healthStep rail

def PaymentOp.marksHealth : PaymentOp → Bool
  | .routeHealth _ => true
  | .markRouteSuccess _ => true
  | .markRouteFailure _ => true
  | _ => false

/-- From one state to another by visits to the given routes. -/
def VisitsTo (rail : String → PaymentRouteConfig) (keys : List String) (s s' : RouteWorld) : Prop :=
  ∃ visits, Between s.now visits s'.now ∧ (∀ v ∈ visits, v.key ∈ keys) ∧
    s'.health = visits.foldl (fun health v => (v.run rail health).2) s.health

abbrev alone : Contract RouteWorld PaymentOp := .alone fun _ _ => True

theorem wp_quiet {α : Type} {p : PaymentProg α} {s : RouteWorld}
    (hquiet : ∀ op, p.Issues op → op.marksHealth = false) :
    Handler.wp (healthHandler rail) alone p
      (fun (s' : RouteWorld) _ => s.now ≤ s'.now ∧ s'.health = s.health) s := by
  refine Handler.wp_of_issues (I := fun (s' : RouteWorld) => s.now ≤ s'.now ∧
    s'.health = s.health) ?_ ?_ ?_
  · intro s' s'' h hsame
    cases hsame
    exact h
  · intro op hop s' h
    refine ⟨trivial, fun r s'' hstep => ⟨trivial, ?_⟩⟩
    have hmarks := hquiet op hop
    have hnext : s'.now ≤ s''.now ∧ s''.health = s'.health := by
      cases op <;> first | exact hstep | cases hmarks
    exact ⟨Nat.le_trans h.1 hnext.1, hnext.2.trans h.2⟩
  · exact ⟨Nat.le_refl _, rfl⟩

section Loop

variable {α : Type} {route : PaymentRouteConfig} {healthKey : String → String}
  {send : String → PaymentProg α} {s : RouteWorld}

theorem wp_shouldAttempt (hrail : rail key = route) :
    Handler.wp (healthHandler rail) alone (shouldAttemptPaymentRoute route key)
      (fun s' r => ∃ attempt start, r = .ok attempt ∧ s.now ≤ start ∧ start ≤ s'.now ∧
        (attempt, s'.health) = s.health.shouldAttempt route key start) s := by
  unfold shouldAttemptPaymentRoute
  by_cases hoff : route.healthFailThreshold = 0 ∨ route.healthCooldownSecs = 0
  · rw [if_pos hoff]
    refine Handler.wp_pure_alone ⟨true, s.now, rfl, Nat.le_refl _, Nat.le_refl _, ?_⟩
    unfold PaymentRouteHealth.shouldAttempt
    rw [if_pos hoff]
  · rw [if_neg hoff]
    refine Handler.wp_perform_alone trivial ?_
    intro attempt s' hstep
    obtain ⟨hnow, heq⟩ := hstep
    rw [hrail] at heq
    exact ⟨attempt, s'.now, rfl, hnow, Nat.le_refl _, heq⟩

theorem wp_markSuccess (hrail : rail key = route) :
    Handler.wp (healthHandler rail) alone (markPaymentRouteSuccess route key)
      (fun s' r => r = .ok () ∧ s.now ≤ s'.now ∧ s'.health = s.health.markSuccess route key) s := by
  unfold markPaymentRouteSuccess PaymentRouteHealth.markSuccess
  by_cases hoff : route.healthFailThreshold = 0
  · rw [if_pos hoff, if_pos hoff]
    exact Handler.wp_pure_alone ⟨rfl, Nat.le_refl _, rfl⟩
  · rw [if_neg hoff, if_neg hoff]
    refine Handler.wp_perform_alone trivial ?_
    intro _ s' hstep
    obtain ⟨hnow, heq⟩ := hstep
    rw [hrail, PaymentRouteHealth.markSuccess, if_neg hoff] at heq
    exact ⟨rfl, hnow, heq⟩

theorem wp_markFailure (hrail : rail key = route) :
    Handler.wp (healthHandler rail) alone (markPaymentRouteFailure route key)
      (fun s' r => r = .ok () ∧ ∃ finish, s.now ≤ finish ∧ finish ≤ s'.now ∧
        s'.health = s.health.markFailure route key finish) s := by
  unfold markPaymentRouteFailure
  by_cases hoff : route.healthFailThreshold = 0 ∨ route.healthCooldownSecs = 0
  · rw [if_pos hoff]
    refine Handler.wp_pure_alone ⟨rfl, s.now, Nat.le_refl _, Nat.le_refl _, ?_⟩
    unfold PaymentRouteHealth.markFailure
    rw [if_pos hoff]
  · rw [if_neg hoff]
    refine Handler.wp_perform_alone trivial ?_
    intro _ s' hstep
    obtain ⟨hnow, heq⟩ := hstep
    rw [hrail] at heq
    exact ⟨rfl, s'.now, hnow, Nat.le_refl _, heq⟩

/-- A visit and the visits after it. -/
theorem VisitsTo.cons {keys : List String} {s' s'' : RouteWorld} (hstart : s.now ≤ v.start)
    (hfinish : v.start ≤ v.finish) (hnow : v.finish ≤ s'.now)
    (hhealth : s'.health = (v.run rail s.health).2) (h : VisitsTo rail keys s' s'') :
    VisitsTo rail (v.key :: keys) s s'' := by
  obtain ⟨visits, hbetween, hkeys, hrest⟩ := h
  refine ⟨v :: visits, .cons hstart hfinish (hbetween.mono hnow), ?_, ?_⟩
  · intro w hw
    rcases List.mem_cons.mp hw with rfl | hw
    · exact List.mem_cons_self
    · exact List.mem_cons_of_mem _ (hkeys w hw)
  · rw [List.foldl_cons, ← hhealth]
    exact hrest

theorem VisitsTo.refl (rail : String → PaymentRouteConfig) (keys : List String)
    (s : RouteWorld) : VisitsTo rail keys s s :=
  ⟨[], .nil (Nat.le_refl _), fun _ h => absurd h List.not_mem_nil, rfl⟩

theorem run_attempted {health : PaymentRouteHealth}
    (h : (true, health) = s.health.shouldAttempt (rail v.key) v.key v.start) :
    v.run rail s.health = if v.answers then (.succeeded, health.markSuccess (rail v.key) v.key)
      else (.failed, health.markFailure (rail v.key) v.key v.finish) := by
  unfold RouteVisit.run
  rw [← h]
  rfl

/-- The loop of a payment comes to its routes one after the other. -/
theorem visits_tryPaymentRoutes (hrail : ∀ uri, rail (healthKey uri) = route)
    (hsend : ∀ uri op, (send uri).Issues op → op.marksHealth = false) (uris : List String)
    (index : Nat) (tally : RouteTally) :
    Handler.wp (healthHandler rail) alone (tryPaymentRoutes route healthKey send index tally uris)
      (fun s' _ => VisitsTo rail (uris.map healthKey) s s') s := by
  induction uris generalizing index tally s with
  | nil => exact Handler.wp_pure_alone (.refl rail [] s)
  | cons uri rest ih =>
    refine Handler.wp_seq (wp_shouldAttempt (hrail uri)) ?_ ?_
    · intro s₁ healthy h
      obtain ⟨attempt, start, hr, hstart, hnow, hhealth⟩ := h
      cases hr
      rw [← hrail uri] at hhealth
      cases healthy with
      | false =>
        rw [if_pos rfl]
        refine Handler.wp_mono ?_ (ih (s := s₁) _ _)
        intro s' _ h
        refine .cons (v := ⟨healthKey uri, start, false, start⟩) hstart (Nat.le_refl _) hnow ?_ h
        unfold RouteVisit.run
        rw [← hhealth]
        rfl
      | true =>
        rw [if_neg (by decide)]
        refine Handler.wp_seq (Q := fun s₂ r => (∃ answer, r = .ok answer) ∧
          s₁.now ≤ s₂.now ∧ s₂.health = s₁.health) ?_ ?_ ?_
        · refine Handler.wp_attempt (Handler.wp_mono ?_ (wp_quiet (hsend uri)))
          intro s₂ answer h₂
          exact ⟨⟨answer, rfl⟩, h₂⟩
        · intro s₂ answer h₂
          obtain ⟨_, hnow₂, hhealth₂⟩ := h₂
          cases answer with
          | ok outcome =>
            refine Handler.wp_seq (wp_markSuccess (hrail uri)) ?_ ?_
            · intro s₃ _ h₃
              obtain ⟨_, hnow₃, hhealth₃⟩ := h₃
              refine Handler.wp_pure_alone ?_
              have hrun : s₃.health = ((⟨healthKey uri, start, true, start⟩ : RouteVisit).run rail
                  s.health).2 := by
                rw [run_attempted hhealth, hhealth₃, hhealth₂, ← hrail uri]
                rfl
              exact .cons (v := ⟨healthKey uri, start, true, start⟩) hstart (Nat.le_refl _)
                (by omega : start ≤ s₃.now) hrun (.refl rail _ s₃)
            · intro _ _ h₃
              cases h₃.1
          | error e =>
            refine Handler.wp_seq (wp_markFailure (hrail uri)) ?_ ?_
            · intro s₃ _ h₃
              obtain ⟨_, finish, hfinish, hnow₃, hhealth₃⟩ := h₃
              have hrun : s₃.health = ((⟨healthKey uri, start, false, finish⟩ : RouteVisit).run rail
                  s.health).2 := by
                rw [run_attempted hhealth, hhealth₃, hhealth₂, ← hrail uri]
                rfl
              dsimp only
              split
              · exact Handler.wp_pure_alone (.cons (v := ⟨healthKey uri, start, false, finish⟩)
                  hstart (by omega : start ≤ finish) hnow₃ hrun (.refl rail _ s₃))
              · refine Handler.wp_mono ?_ (ih (s := s₃) _ _)
                intro s' _ h
                exact .cons (v := ⟨healthKey uri, start, false, finish⟩) hstart
                  (by omega : start ≤ finish) hnow₃ hrun h
            · intro _ _ h₃
              cases h₃.1
        · intro _ _ h₂
          obtain ⟨⟨_, hr⟩, _⟩ := h₂
          cases hr
    · intro _ _ h
      obtain ⟨_, _, hr, _⟩ := h
      cases hr

end Loop

/-! ## The two rails -/

/-- The settings of the rail of a key. -/
def railOf (config : Worker.WorkerConfig) (key : String) : PaymentRouteConfig :=
  if (config.workerId ++ "|cashu|").toList <+: key.toList then config.payment.cashuRoute
  else config.payment.nwcRoute

theorem railOf_cashu (config : Worker.WorkerConfig) (walletId uri : String) :
    railOf config (paymentRouteHealthKey config.workerId .cashu walletId uri) =
      config.payment.cashuRoute := by
  refine if_pos ?_
  simp only [paymentRouteHealthKey, PaymentProvider.asStr, String.toList_append, List.append_assoc]
  exact (List.prefix_append_right_inj _).mpr ⟨walletId.toList ++ ("|".toList ++ uri.toList), rfl⟩

theorem railOf_nwc (config : Worker.WorkerConfig) (walletId uri : String) :
    railOf config (paymentRouteHealthKey config.workerId .nwc walletId uri) =
      config.payment.nwcRoute := by
  refine if_neg ?_
  simp only [paymentRouteHealthKey, PaymentProvider.asStr, String.toList_append, List.append_assoc]
  intro h
  obtain ⟨rest, hrest⟩ := (List.prefix_append_right_inj _).mp h
  have hsecond := congrArg (·[1]?) hrest
  cases hsecond

theorem quiet_sendOverNwc {rt : PaymentRuntime} {paymentRequestId : String} {request : NwcRequest}
    (uri : String) (op : PaymentOp)
    (h : (sendOverNwc rt paymentRequestId request uri).Issues op) : op.marksHealth = false := by
  have hrelays : ∀ (walletUri : WalletConnectUri) (relays errors : List String),
      (tryRelays (fun relayUrl => ask (.attemptNwcRelay paymentRequestId uri relayUrl request))
        rt.wallet walletUri errors relays).Issues op → op.marksHealth = false := by
    intro walletUri relays
    induction relays with
    | nil =>
      intro errors h
      cases h
    | cons relayUrl rest ih =>
      intro errors h
      rcases h with rfl | ⟨attempt, h⟩
      · rfl
      · simp only [Prog.bind] at h
        split at h
        · cases h
        · exact ih _ h
  unfold sendOverNwc sendNwcRequest at h
  split at h
  · cases h
  · split at h
    · cases h
    · exact hrelays _ _ _ h

theorem quiet_executeCashuPaymentHttp {rt : PaymentRuntime} {config : Worker.PaymentConfig}
    {args : PaymentArgs} {paymentRequestId : String} (mintUri : String) (op : PaymentOp)
    (h : (executeCashuPaymentHttp rt config args paymentRequestId mintUri).Issues op) :
    op.marksHealth = false := by
  unfold executeCashuPaymentHttp at h
  cases hbuild : buildCashuRequest rt config args paymentRequestId mintUri with
  | error e =>
    rw [hbuild] at h
    cases h
  | ok request =>
    rw [hbuild] at h
    rcases h with rfl | ⟨answer, h⟩
    · rfl
    · cases answer with
      | error e => cases h
      | ok reply =>
        cases hreply : cashuOutput rt args reply.1 reply.2 with
        | error e =>
          replace h : (Prog.ofExcept (cashuOutput rt args reply.1 reply.2)).Issues op := h
          rw [hreply] at h
          cases h
        | ok output =>
          replace h : (Prog.ofExcept (cashuOutput rt args reply.1 reply.2)).Issues op := h
          rw [hreply] at h
          cases h

theorem VisitsTo.trans {keys keys' : List String} {s s' s'' : RouteWorld}
    (h : VisitsTo rail keys s s') (h' : VisitsTo rail keys' s' s'') :
    VisitsTo rail (keys ++ keys') s s'' := by
  obtain ⟨visits, hbetween, hkeys, hhealth⟩ := h
  obtain ⟨more, hbetween', hkeys', hhealth'⟩ := h'
  refine ⟨visits ++ more, hbetween.append hbetween', ?_, ?_⟩
  · intro v hv
    rcases List.mem_append.mp hv with hv | hv
    · exact List.mem_append_left _ (hkeys v hv)
    · exact List.mem_append_right _ (hkeys' v hv)
  · rw [List.foldl_append, ← hhealth]
    exact hhealth'

theorem VisitsTo.later {keys : List String} {s s' s'' : RouteWorld} (h : VisitsTo rail keys s s')
    (h' : s'.now ≤ s''.now ∧ s''.health = s'.health) : VisitsTo rail keys s s'' := by
  obtain ⟨visits, hbetween, hkeys, hhealth⟩ := h
  have hend := hbetween.append (.nil h'.1)
  rw [List.append_nil] at hend
  exact ⟨visits, hend, hkeys, h'.2.trans hhealth⟩

theorem quiet_failPayment {α : Type} {paymentRequestId code message : String} {op : PaymentOp}
    (h : (failPayment paymentRequestId code message : PaymentProg α).Issues op) :
    op.marksHealth = false := by
  rcases h with rfl | ⟨_, rfl | ⟨_, h⟩⟩
  · rfl
  · rfl
  · cases h

section Rails

variable {rt : PaymentRuntime} {config : Worker.WorkerConfig} {args : PaymentArgs}
  {paymentRequestId : String} {routes : ResolvedRoutes} {s : RouteWorld}

theorem visits_executeNwcRoutes :
    Handler.wp (healthHandler (railOf config)) alone
      (executeNwcRoutes rt config args paymentRequestId routes)
      (fun s' _ => VisitsTo (railOf config) (routes.candidates.map
        (paymentRouteHealthKey config.workerId .nwc args.parsedDestination.target)) s s') s := by
  unfold executeNwcRoutes
  refine Handler.wp_seq (Handler.wp_ofExcept_alone (Q := fun s' _ => s' = s) rfl) ?_ ?_
  · intro _ request hs
    rw [hs]
    refine Handler.wp_seq (visits_tryPaymentRoutes (railOf_nwc config _) quiet_sendOverNwc _ _ _)
      ?_ fun _ _ h => h
    intro s₁ tried h
    refine Handler.wp_mono (fun _ _ hlater => h.later hlater) (wp_quiet ?_)
    intro op hop
    obtain ⟨selected, tally⟩ := tried
    cases selected with
    | none => exact quiet_failPayment hop
    | some picked =>
      dsimp only at hop
      split at hop
      · exact quiet_failPayment hop
      · cases hop
  · intro _ _ hs
    rw [hs]
    exact .refl _ _ s

theorem visits_executeCashuRoutes :
    Handler.wp (healthHandler (railOf config)) alone
      (executeCashuRoutes rt config args paymentRequestId routes)
      (fun s' _ => VisitsTo (railOf config) (routes.candidates.map
        (paymentRouteHealthKey config.workerId .cashu args.parsedDestination.target)) s s') s := by
  unfold executeCashuRoutes
  refine Handler.wp_seq (visits_tryPaymentRoutes (railOf_cashu config _)
    quiet_executeCashuPaymentHttp _ _ _) ?_ fun _ _ h => h
  intro s₁ tried h
  refine Handler.wp_mono (fun _ _ hlater => h.later hlater) (wp_quiet ?_)
  intro op hop
  obtain ⟨selected, tally⟩ := tried
  cases selected with
  | none => exact quiet_failPayment hop
  | some picked => cases hop

end Rails

/-- What a payment leaves of a fresh worker's knowledge is what its visits leave. -/
theorem VisitsTo.of_fresh {keys : List String} {start : Nat} {s' : RouteWorld}
    (h : VisitsTo rail keys ⟨freshHealth, start⟩ s') :
    ∃ visits, Chronological visits ∧ s'.health = (RouteState.after rail visits).health := by
  obtain ⟨visits, hbetween, _, hhealth⟩ := h
  have hfold : ∀ (visits : List RouteVisit) (s : RouteState),
      (visits.foldl (RouteState.next rail) s).health =
        visits.foldl (fun health v => (v.run rail health).2) s.health := by
    intro visits
    induction visits with
    | nil => exact fun _ => rfl
    | cons v rest ih => exact fun s => ih (s.next rail v)
  exact ⟨visits, hbetween.chronological, hhealth.trans (hfold visits .fresh).symm⟩

/-- One payment of a worker: its routes on either rail, to the end. -/
inductive PaymentRun (rt : PaymentRuntime) (config : Worker.WorkerConfig) :
    RouteWorld → RouteWorld → Prop
  | nwc {s s' : RouteWorld} {args : PaymentArgs} {paymentRequestId : String}
      {routes : ResolvedRoutes} {out : Except String PaymentExecution}
      (hrun : Handler.Finishes (healthHandler (railOf config)) s
        (executeNwcRoutes rt config args paymentRequestId routes) s' out) : PaymentRun rt config s s'
  | cashu {s s' : RouteWorld} {args : PaymentArgs} {paymentRequestId : String}
      {routes : ResolvedRoutes} {out : Except String PaymentExecution}
      (hrun : Handler.Finishes (healthHandler (railOf config)) s
        (executeCashuRoutes rt config args paymentRequestId routes) s' out) : PaymentRun rt config s s'

/-- The payments of a worker that has just started. -/
def PaymentsReach (rt : PaymentRuntime) (config : Worker.WorkerConfig) (s : RouteWorld) : Prop :=
  ∃ start, Relation.ReflTransGen (PaymentRun rt config) ⟨freshHealth, start⟩ s

theorem visits_of_payment {rt : PaymentRuntime} {config : Worker.WorkerConfig} {s s' : RouteWorld}
    (h : PaymentRun rt config s s') : ∃ keys, VisitsTo (railOf config) keys s s' := by
  cases h with
  | nwc hrun => exact ⟨_, Handler.wp_of_finishes visits_executeNwcRoutes hrun⟩
  | cashu hrun => exact ⟨_, Handler.wp_of_finishes visits_executeCashuRoutes hrun⟩

theorem visits_of_payments {rt : PaymentRuntime} {config : Worker.WorkerConfig} {s : RouteWorld}
    (h : PaymentsReach rt config s) :
    ∃ visits, Chronological visits ∧
      s.health = (RouteState.after (railOf config) visits).health := by
  obtain ⟨start, hreach⟩ := h
  have hvisits : ∃ keys, VisitsTo (railOf config) keys ⟨freshHealth, start⟩ s := by
    induction hreach with
    | refl => exact ⟨[], .refl _ _ _⟩
    | tail _ hstep ih =>
      obtain ⟨keys, hbefore⟩ := ih
      obtain ⟨keys', hlast⟩ := visits_of_payment hstep
      exact ⟨keys ++ keys', hbefore.trans hlast⟩
  obtain ⟨keys, hto⟩ := hvisits
  exact hto.of_fresh

/-! ## The breaker -/

/-- The breaker of a route works along every sequence of visits exactly when the
threshold is one, and the payments of a worker, on whichever rail, make one. -/
theorem breakerWorks_iff {rail : String → PaymentRouteConfig} {key : String}
    (hthreshold : 0 < (rail key).healthFailThreshold)
    (hcooldown : 0 < (rail key).healthCooldownSecs) :
    ((∀ visits, Chronological visits → BreakerWorks rail key visits) ↔
      (rail key).healthFailThreshold = 1) ∧
    ∀ rt config s, rail = railOf config → PaymentsReach rt config s →
      ∃ visits, Chronological visits ∧ s.health = (RouteState.after rail visits).health := by
  refine ⟨⟨?_, ?_⟩, fun rt config s hrail hreach => hrail ▸ visits_of_payments hreach⟩
  · intro h
    by_contra hne
    exact not_breakerWorks hthreshold hcooldown (by omega) (h _ (chronological_failing _))
  · intro hone visits hvisits
    exact breakerWorks_of_one hthreshold hcooldown (by omega) hvisits

/-- A breaker that opens at the first failure, over three payments at one instant. -/
theorem breakerWorks_first :
    BreakerWorks (fun _ => { healthFailThreshold := 1 }) "w|nwc|a|r"
      (List.replicate 3 (failing "w|nwc|a|r")) :=
  (breakerWorks_iff (by decide) (by decide)).1.mpr rfl _ (chronological_failing 3)

/-- With the thresholds of an empty environment a route that has failed three times at one
instant is attempted a fourth time. -/
theorem default_breaker_never_opens : ¬ ∀ visits, Chronological visits →
    BreakerWorks (fun _ => {}) "w|nwc|a|r" visits := by
  intro h
  exact not_breakerWorks (by decide) (by decide) (by decide) (h _ (chronological_failing _))

end Payment
end SecureAgnt

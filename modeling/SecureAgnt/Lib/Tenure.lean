/-
Grants of one thing, to one owner after the other.

A grant lasts until an instant.  In a log whose grants pass to another owner only when the
one before is over, one owner at most has a grant that still runs.
-/
import Mathlib.Algebra.Order.Ring.Int
import Mathlib.Data.List.Chain

namespace SecureAgnt
namespace Tenure

structure Grant (ω : Type) where
  owner : ω
  since : Int
  expiresAt : Int

variable {ω : Type} [DecidableEq ω]

/-- `newer` follows `older` in a log; `ended e t` says that what lasts until `e` is over
at `t`. -/
structure Follows (ended : Int → Int → Prop) (newer older : Grant ω) : Prop where
  since_le : older.since ≤ newer.since
  passes : newer.owner ≠ older.owner → ended older.expiresAt newer.since

/-- The last grant of an owner; the newest is at the head of the log. -/
def latest (log : List (Grant ω)) (owner : ω) : Option (Grant ω) :=
  log.find? fun g => g.owner = owner

/-- The last grant of the owner still runs. -/
def Holds (ended : Int → Int → Prop) (log : List (Grant ω)) (owner : ω) (t : Int) : Prop :=
  ∃ g, latest log owner = some g ∧ ¬ ended g.expiresAt t

variable {ended : Int → Int → Prop} {log : List (Grant ω)} {g : Grant ω} {owner owner' : ω}
  {t : Int}

theorem latest_cons : latest (g :: log) owner = if g.owner = owner then some g else latest log owner
    := by
  by_cases h : g.owner = owner <;> simp [latest, h]

theorem holds_cons_self (h : Holds ended (g :: log) g.owner t) : ¬ ended g.expiresAt t := by
  obtain ⟨g', hlatest, hruns⟩ := h
  rw [latest_cons, if_pos rfl] at hlatest
  exact Option.some.inj hlatest ▸ hruns

theorem holds_cons_of_ne (h : Holds ended (g :: log) owner t) (hne : g.owner ≠ owner) :
    Holds ended log owner t := by
  obtain ⟨g', hlatest, hruns⟩ := h
  rw [latest_cons, if_neg hne] at hlatest
  exact ⟨g', hlatest, hruns⟩

theorem not_holds_nil : ¬ Holds ended ([] : List (Grant ω)) owner t := by
  intro h
  obtain ⟨g, hlatest, -⟩ := h
  cases hlatest

/-- Who holds it has the last grant of all. -/
theorem owner_of_holds (hended : ∀ e t t', ended e t → t ≤ t' → ended e t')
    (hlog : (g :: log).IsChain (Follows ended)) (ht : g.since ≤ t)
    (h : Holds ended (g :: log) owner t) : owner = g.owner := by
  induction log generalizing g with
  | nil =>
    by_contra hne
    exact not_holds_nil (holds_cons_of_ne h fun heq => hne heq.symm)
  | cons older log ih =>
    by_contra hne
    obtain ⟨hfollows, hrest⟩ := List.isChain_cons_cons.mp hlog
    have holder := holds_cons_of_ne h fun heq => hne heq.symm
    have hold : owner = older.owner := ih hrest (Int.le_trans hfollows.since_le ht) holder
    -- the grant was passed on, so that of the owner was over by then
    have hpassed := hfollows.passes fun heq => hne (hold.trans heq.symm)
    rw [hold] at holder
    exact holds_cons_self holder (hended _ _ _ hpassed ht)

theorem one_holder (hended : ∀ e t t', ended e t → t ≤ t' → ended e t')
    (hlog : log.IsChain (Follows ended)) (ht : ∀ g ∈ log.head?, g.since ≤ t)
    (h : Holds ended log owner t) (h' : Holds ended log owner' t) : owner = owner' := by
  cases log with
  | nil => exact absurd h not_holds_nil
  | cons g log =>
    have hsince := ht g rfl
    exact (owner_of_holds hended hlog hsince h).trans (owner_of_holds hended hlog hsince h').symm

end Tenure
end SecureAgnt

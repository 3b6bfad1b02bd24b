/-
A bounded cache whose entries expire.

An entry is given out before its time and taken out when it is looked up after it.  A full
cache makes room for a new entry by dropping some other one; which one is left open, as
the order of a hash map is.
-/
import Mathlib.Algebra.Order.Ring.Int
import Mathlib.Data.List.Basic

namespace SecureAgnt
namespace Expiring

structure Dated (κ ν : Type) where
  key : κ
  value : ν
  expiresAt : Int
  deriving DecidableEq

variable {κ ν : Type} [DecidableEq κ]

def without (key : κ) (cache : List (Dated κ ν)) : List (Dated κ ν) :=
  cache.filter fun e => e.key ≠ key

/-- The value under a key, and the cache after the look. -/
def lookup (key : κ) (now : Int) (cache : List (Dated κ ν)) : Option ν × List (Dated κ ν) :=
  match cache.find? fun e => e.key = key with
  | some e => if now < e.expiresAt then (some e.value, cache) else (none, without key cache)
  | none => (none, without key cache)

/-- Where the cache is full, `victim` makes room. -/
def evict (maxEntries : Nat) (victim : κ) (cache : List (Dated κ ν)) : List (Dated κ ν) :=
  if maxEntries ≤ cache.length then without victim cache else cache

def store (maxEntries : Nat) (victim : κ) (e : Dated κ ν) (now : Int) (cache : List (Dated κ ν)) :
    List (Dated κ ν) :=
  e :: without e.key (evict maxEntries victim (cache.filter fun old => now < old.expiresAt))

/-- A full cache drops an entry that it has. -/
def Victim (maxEntries : Nat) (victim : κ) (now : Int) (cache : List (Dated κ ν)) : Prop :=
  maxEntries ≤ (cache.filter fun old => now < old.expiresAt).length →
    ∃ old ∈ cache, now < old.expiresAt ∧ old.key = victim

section Rules

variable {key victim : κ} {now : Int} {cache : List (Dated κ ν)} {maxEntries : Nat}
  {e old : Dated κ ν}

theorem mem_of_mem_without (h : e ∈ without key cache) : e ∈ cache :=
  List.mem_of_mem_filter h

/-- What is given out has not expired. -/
theorem exists_of_lookup {value : ν} (h : (lookup key now cache).1 = some value) :
    ∃ e ∈ cache, e.key = key ∧ e.value = value ∧ now < e.expiresAt := by
  unfold lookup at h
  cases hfind : cache.find? fun e => e.key = key with
  | none =>
    rw [hfind] at h
    cases h
  | some e =>
    rw [hfind] at h
    dsimp only at h
    by_cases hlive : now < e.expiresAt
    · rw [if_pos hlive] at h
      have hkey := List.find?_some hfind
      exact ⟨e, List.mem_of_find?_eq_some hfind, of_decide_eq_true hkey, Option.some.inj h, hlive⟩
    · rw [if_neg hlive] at h
      cases h

theorem mem_of_mem_lookup (h : e ∈ (lookup key now cache).2) : e ∈ cache := by
  unfold lookup at h
  split at h
  · split at h
    · exact h
    · exact mem_of_mem_without h
  · exact mem_of_mem_without h

theorem length_lookup_le (key : κ) (now : Int) (cache : List (Dated κ ν)) :
    (lookup key now cache).2.length ≤ cache.length := by
  unfold lookup without
  split
  · split
    · exact Nat.le_refl _
    · exact List.length_filter_le _ _
  · exact List.length_filter_le _ _

theorem mem_of_mem_evict (h : e ∈ evict maxEntries victim cache) : e ∈ cache := by
  unfold evict at h
  split at h
  · exact mem_of_mem_without h
  · exact h

/-- What the cache holds after a store is the new entry or an old one. -/
theorem mem_of_mem_store (h : old ∈ store maxEntries victim e now cache) :
    old = e ∨ old ∈ cache := by
  rcases List.mem_cons.mp h with h | h
  · exact .inl h
  · exact .inr (List.mem_of_mem_filter (mem_of_mem_evict (mem_of_mem_without h)))

theorem length_without_lt (h : ∃ e ∈ cache, e.key = key) :
    (without key cache).length < cache.length := by
  obtain ⟨e, hmem, hkey⟩ := h
  have hle : (without key cache).length ≤ cache.length := List.length_filter_le _ _
  by_contra hnot
  have heq : (without key cache).length = cache.length := by omega
  have hall := List.length_filter_eq_length_iff.mp heq e hmem
  simp [hkey] at hall

/-- A cache within its bound stays within it. -/
theorem length_store_le (hvictim : Victim maxEntries victim now cache)
    (h : cache.length ≤ maxEntries) :
    (store maxEntries victim e now cache).length ≤ maxEntries := by
  have hroom : (evict maxEntries victim (cache.filter fun old => now < old.expiresAt)).length <
      maxEntries := by
    have hlive : (cache.filter fun old => now < old.expiresAt).length ≤ cache.length :=
      List.length_filter_le _ _
    unfold evict
    by_cases hfull : maxEntries ≤ (cache.filter fun old => now < old.expiresAt).length
    · rw [if_pos hfull]
      obtain ⟨old, hmem, hold, hkey⟩ := hvictim hfull
      have hheld : ∃ e ∈ cache.filter fun old => now < old.expiresAt, e.key = victim :=
        ⟨old, List.mem_filter.mpr ⟨hmem, decide_eq_true hold⟩, hkey⟩
      have hlt := length_without_lt hheld
      omega
    · rw [if_neg hfull]
      omega
  have hrest : (without e.key (evict maxEntries victim
      (cache.filter fun old => now < old.expiresAt))).length ≤
        (evict maxEntries victim (cache.filter fun old => now < old.expiresAt)).length :=
    List.length_filter_le _ _
  rw [store, List.length_cons]
  omega

end Rules

end Expiring
end SecureAgnt

/-
The caches of completions: the one of a process and the one processes share.

An entry carries the request it was stored for, which the code forgets.  What is found is
an entry under the key looked up, and every entry after an operation is one from before
or the one stored.
-/
import Mathlib.Data.List.Perm.Basic
import SecureAgnt.Llm.Admission
import SecureAgnt.Llm.Gateway

namespace SecureAgnt
namespace Llm

variable {ρ : Type}

/-- `CacheEntry` with its key, the moment it was stored, in nanoseconds, and its origin. -/
structure CacheEntry (ρ : Type) where
  cacheKey : String
  value : CachedCompletion
  insertedAt : Int
  origin : ρ

/-- A row of `llm_gateway_cache_entries` with its origin; a response that is no completion
decodes to nothing. -/
structure SharedCacheEntry (ρ : Type) where
  cacheKey : String
  cacheNamespace : String
  response : Option CachedCompletion
  expiresAt : Int
  updatedAt : Int
  origin : ρ

def expired (ttlSecs : Nat) (now : Int) (entry : CacheEntry ρ) : Bool :=
  now - entry.insertedAt > ttlSecs * 10 ^ 9

/-- `cache_lookup`: what is left of the cache and the entry found. -/
def cacheLookup (cache : List (CacheEntry ρ)) (cacheKey : String) (ttlSecs : Nat) (now : Int) :
    List (CacheEntry ρ) × Option (CacheEntry ρ) :=
  match cache.find? fun entry => entry.cacheKey = cacheKey with
  | none => (cache, none)
  | some entry =>
    if expired ttlSecs now entry then (cache.filter fun entry => entry.cacheKey ≠ cacheKey, none)
    else (cache, some entry)

/-- Store an entry in place of the one under its key. -/
def replaceEntry (cache : List (CacheEntry ρ)) (entry : CacheEntry ρ) : List (CacheEntry ρ) :=
  cache.filter (fun other => other.cacheKey ≠ entry.cacheKey) ++ [entry]

/-- `cache_insert`: of several oldest entries the hash map's order decides which goes. -/
inductive CacheInsert (cache : List (CacheEntry ρ)) (entry : CacheEntry ρ) (maxEntries : Nat) :
    List (CacheEntry ρ) → Prop
  | fits (hlength : (replaceEntry cache entry).length ≤ maxEntries) :
      CacheInsert cache entry maxEntries (replaceEntry cache entry)
  | evicts (oldest : CacheEntry ρ) (hlength : maxEntries < (replaceEntry cache entry).length)
      (hmem : oldest ∈ replaceEntry cache entry)
      (holdest : ∀ other ∈ replaceEntry cache entry, oldest.insertedAt ≤ other.insertedAt) :
      CacheInsert cache entry maxEntries
        ((replaceEntry cache entry).filter fun other => other.cacheKey ≠ oldest.cacheKey)

/-- `get_llm_gateway_cache_entry`. -/
def getSharedEntry (rows : List (SharedCacheEntry ρ)) (cacheNamespace cacheKey : String)
    (now : Int) : Option (SharedCacheEntry ρ) :=
  rows.find? fun row =>
    row.cacheNamespace = cacheNamespace ∧ row.cacheKey = cacheKey ∧ row.expiresAt > now

/-- `upsert_llm_gateway_cache_entry`: the key alone identifies a row. -/
def upsertSharedEntry (rows : List (SharedCacheEntry ρ)) (row : SharedCacheEntry ρ) :
    List (SharedCacheEntry ρ) :=
  rows.filter (fun other => other.cacheKey ≠ row.cacheKey) ++ [row]

def dropExpired (rows : List (SharedCacheEntry ρ)) (cacheNamespace : String) (now : Int) :
    List (SharedCacheEntry ρ) :=
  rows.filter fun row => ¬ (row.cacheNamespace = cacheNamespace ∧ row.expiresAt ≤ now)

/-- `prune_llm_gateway_cache_namespace`: two statements, each of which may fail; rows updated
at one moment come in any order. -/
inductive PruneShared (rows : List (SharedCacheEntry ρ)) (cacheNamespace : String)
    (maxEntries : Int) (now : Int) : List (SharedCacheEntry ρ) → Prop
  | fails : PruneShared rows cacheNamespace maxEntries now rows
  | expired : PruneShared rows cacheNamespace maxEntries now (dropExpired rows cacheNamespace now)
  | overflow (latest : List (SharedCacheEntry ρ)) (hmax : 0 < maxEntries)
      (hperm : latest.Perm ((dropExpired rows cacheNamespace now).filter fun row =>
        row.cacheNamespace = cacheNamespace))
      (hlatest : latest.Pairwise fun row later => later.updatedAt ≤ row.updatedAt) :
      PruneShared rows cacheNamespace maxEntries now
        ((dropExpired rows cacheNamespace now).filter fun row =>
          ¬ (row.cacheNamespace = cacheNamespace ∧
            row.cacheKey ∈ (latest.drop maxEntries.toNat).map (·.cacheKey)))

/-! ## Where entries come from -/

variable {cache : List (CacheEntry ρ)} {rows : List (SharedCacheEntry ρ)}

theorem subset_cacheLookup (cacheKey : String) (ttlSecs : Nat) (now : Int) :
    (cacheLookup cache cacheKey ttlSecs now).1 ⊆ cache := by
  unfold cacheLookup
  split
  · exact List.Subset.refl cache
  · split
    · exact List.filter_subset_self _
    · exact List.Subset.refl cache

/-- What is found is an entry under the key. -/
theorem cacheLookup_eq_some {cacheKey : String} {ttlSecs : Nat} {now : Int} {entry : CacheEntry ρ}
    (h : (cacheLookup cache cacheKey ttlSecs now).2 = some entry) :
    entry ∈ cache ∧ entry.cacheKey = cacheKey := by
  unfold cacheLookup at h
  split at h
  · cases h
  · rename_i found hfound
    split at h
    · cases h
    · cases h
      exact ⟨List.mem_of_find?_eq_some hfound, by simpa using List.find?_some hfound⟩

theorem mem_of_mem_replaceEntry {entry other : CacheEntry ρ}
    (h : other ∈ replaceEntry cache entry) : other ∈ cache ∨ other = entry := by
  unfold replaceEntry at h
  rcases List.mem_append.mp h with h | h
  · exact Or.inl (List.mem_of_mem_filter h)
  · exact Or.inr (List.mem_singleton.mp h)

theorem mem_of_cacheInsert {entry other : CacheEntry ρ} {maxEntries : Nat}
    {cache' : List (CacheEntry ρ)} (h : CacheInsert cache entry maxEntries cache')
    (hmem : other ∈ cache') : other ∈ cache ∨ other = entry := by
  cases h with
  | fits hlength => exact mem_of_mem_replaceEntry hmem
  | evicts oldest hlength holdest hmin =>
    exact mem_of_mem_replaceEntry (List.mem_of_mem_filter hmem)

theorem getSharedEntry_eq_some {cacheNamespace cacheKey : String} {now : Int}
    {row : SharedCacheEntry ρ} (h : getSharedEntry rows cacheNamespace cacheKey now = some row) :
    row ∈ rows ∧ row.cacheKey = cacheKey := by
  have hrow : row.cacheNamespace = cacheNamespace ∧ row.cacheKey = cacheKey ∧ row.expiresAt > now :=
    by simpa using List.find?_some h
  exact ⟨List.mem_of_find?_eq_some h, hrow.2.1⟩

theorem mem_of_mem_upsertSharedEntry {row other : SharedCacheEntry ρ}
    (h : other ∈ upsertSharedEntry rows row) : other ∈ rows ∨ other = row := by
  unfold upsertSharedEntry at h
  rcases List.mem_append.mp h with h | h
  · exact Or.inl (List.mem_of_mem_filter h)
  · exact Or.inr (List.mem_singleton.mp h)

theorem mem_of_pruneShared {cacheNamespace : String} {maxEntries now : Int}
    {rows' : List (SharedCacheEntry ρ)} {row : SharedCacheEntry ρ}
    (h : PruneShared rows cacheNamespace maxEntries now rows') (hmem : row ∈ rows') :
    row ∈ rows := by
  cases h with
  | fails => exact hmem
  | expired => exact List.mem_of_mem_filter hmem
  | overflow latest hmax hperm hlatest =>
    exact List.mem_of_mem_filter (List.mem_of_mem_filter hmem)

end Llm
end SecureAgnt

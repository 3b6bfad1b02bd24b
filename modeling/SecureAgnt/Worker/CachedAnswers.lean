/-
Which cached answers a completion can be given.

Calls of `executeRouteCompletion` run interleaved over the caches of their processes and
the shared one.  Each call uses only the key of what it asks for, so in every state
reached an answer from a cache was stored under the same key; it was stored for the same
completion of the same agent exactly unless the two requests are confused by their keys.
-/
import SecureAgnt.Lib.Uuid
import SecureAgnt.Llm.CacheKey
import SecureAgnt.Llm.ResponseCache
import SecureAgnt.Worker.LlmAction

namespace SecureAgnt
namespace Worker

open Llm

/-- A completion that the action of an agent's run asks for. -/
structure RunCompletion where
  run : RunLeaseRecord
  agentId : Uuid
  agent : run.agentId = agentId.text
  config : LlmConfig
  postgres : Bool
  parsed : LlmInferActionArgs
  plan : LlmPromptPlan
  route : LlmRoute
  endpoint : LlmEndpointConfig

namespace RunCompletion

def session (rt : LlmRuntime) (c : RunCompletion) : Session :=
  ⟨rt, c.config, some (cacheNamespaceOf c.run), c.postgres, c.parsed, c.plan⟩

def request (c : RunCompletion) : CacheRequest where
  cacheNamespace := cacheNamespaceOf c.run
  route := c.route
  model := c.endpoint.model
  system := c.parsed.system
  prompt := c.plan.prompt
  maxTokens := c.parsed.maxTokens
  temperature := c.parsed.temperature

def key (rt : LlmRuntime) (c : RunCompletion) : String := c.request.key rt

def program (rt : LlmRuntime) (c : RunCompletion) : LlmProg RouteCompletion :=
  executeRouteCompletion (c.session rt) c.route c.endpoint

end RunCompletion

/-- A call in a process: what it asks for and what it has still to do. -/
structure CompletionCall where
  process : Nat
  asked : RunCompletion
  rest : LlmProg RouteCompletion

abbrev LocalCache := List (CacheEntry RunCompletion)

/-- The caches and the calls; `served` has each answer from a cache, with the completion
it was stored for. -/
structure CacheWorld where
  clock : Int
  caches : Nat → LocalCache
  shared : List (SharedCacheEntry RunCompletion)
  calls : List CompletionCall
  asked : List RunCompletion
  served : List (RunCompletion × RunCompletion)

namespace CacheWorld

def empty (clock : Int) : CacheWorld := ⟨clock, fun _ => [], [], [], [], []⟩

def withCache (w : CacheWorld) (process : Nat) (cache : LocalCache) : CacheWorld :=
  { w with caches := fun other => if other = process then cache else w.caches other }

end CacheWorld

/-- Operations that use no cache. -/
def isUncached : LlmOp → Bool
  | .cacheLookup .. => false
  | .cacheInsert .. => false
  | .getCacheEntry .. => false
  | .upsertCacheEntry .. => false
  | .pruneCache .. => false
  | _ => true

/-- What one operation of a call does to the caches, its answer, and the entry it was
answered from.  A poisoned lock and a failing database change nothing. -/
inductive CacheOp (w : CacheWorld) (process : Nat) (asked : RunCompletion) :
    (op : LlmOp) → LlmAns op → CacheWorld → Prop
  | other {op : LlmOp} (hop : isUncached op = true) (r : LlmAns op) :
      CacheOp w process asked op r w
  | miss (key : String) (ttlSecs : Nat)
      (hmiss : (cacheLookup (w.caches process) key ttlSecs w.clock).2 = none) :
      CacheOp w process asked (.cacheLookup key ttlSecs) (none : Option CachedCompletion)
        (w.withCache process (cacheLookup (w.caches process) key ttlSecs w.clock).1)
  | hit (key : String) (ttlSecs : Nat) (entry : CacheEntry RunCompletion)
      (hhit : (cacheLookup (w.caches process) key ttlSecs w.clock).2 = some entry) :
      CacheOp w process asked (.cacheLookup key ttlSecs) (some entry.value)
        { w with served := (asked, entry.origin) :: w.served }
  | poisonedLookup (key : String) (ttlSecs : Nat) :
      CacheOp w process asked (.cacheLookup key ttlSecs) (none : Option CachedCompletion) w
  | insert (key : String) (value : CachedCompletion) (maxEntries : Nat) (cache : LocalCache)
      (hinsert : CacheInsert (w.caches process) ⟨key, value, w.clock, asked⟩ maxEntries cache) :
      CacheOp w process asked (.cacheInsert key value maxEntries) () (w.withCache process cache)
  | poisonedInsert (key : String) (value : CachedCompletion) (maxEntries : Nat) :
      CacheOp w process asked (.cacheInsert key value maxEntries) () w
  | absent (cacheNamespace key : String)
      (habsent : getSharedEntry w.shared cacheNamespace key w.clock = none) :
      CacheOp w process asked (.getCacheEntry cacheNamespace key)
        (.ok none : Except String (Option (Option CachedCompletion))) w
  | found (cacheNamespace key : String) (row : SharedCacheEntry RunCompletion)
      (hfound : getSharedEntry w.shared cacheNamespace key w.clock = some row) :
      CacheOp w process asked (.getCacheEntry cacheNamespace key) (.ok (some row.response))
        { w with served := (asked, row.origin) :: w.served }
  | failedGet (cacheNamespace key e : String) :
      CacheOp w process asked (.getCacheEntry cacheNamespace key)
        (.error e : Except String (Option (Option CachedCompletion))) w
  | upsert (cacheNamespace key : String) (route : LlmRoute) (model : String)
      (completion : CachedCompletion) (ttlSecs : Nat) :
      CacheOp w process asked (.upsertCacheEntry cacheNamespace key route model completion ttlSecs)
        () { w with shared := upsertSharedEntry w.shared ⟨key, cacheNamespace, some completion,
          w.clock + clampLeaseMs (ttlSecs * 1000) * 10 ^ 6, w.clock, asked⟩ }
  | failedUpsert (cacheNamespace key : String) (route : LlmRoute) (model : String)
      (completion : CachedCompletion) (ttlSecs : Nat) :
      CacheOp w process asked (.upsertCacheEntry cacheNamespace key route model completion ttlSecs)
        () w
  | prune (cacheNamespace : String) (maxEntries : Nat)
      (rows : List (SharedCacheEntry RunCompletion))
      (hprune : PruneShared w.shared cacheNamespace (asI64 maxEntries) w.clock rows) :
      CacheOp w process asked (.pruneCache cacheNamespace maxEntries) () { w with shared := rows }

inductive CacheStep (rt : LlmRuntime) : CacheWorld → CacheWorld → Prop
  | tick {w : CacheWorld} (now : Int) (hnow : w.clock ≤ now) :
      CacheStep rt w { w with clock := now }
  | ask {w : CacheWorld} (process : Nat) (c : RunCompletion) :
      CacheStep rt w
        { w with calls := w.calls ++ [⟨process, c, c.program rt⟩], asked := c :: w.asked }
  | call {w w' : CacheWorld} {before after : List CompletionCall} {process : Nat}
      {c : RunCompletion} {op : LlmOp} {k : LlmAns op → LlmProg RouteCompletion} {r : LlmAns op}
      (hcalls : w.calls = before ++ ⟨process, c, .call op k⟩ :: after)
      (hop : CacheOp w process c op r w') :
      CacheStep rt w { w' with calls := before ++ ⟨process, c, k r⟩ :: after }
  | leave {w : CacheWorld} {before after : List CompletionCall} {c : CompletionCall}
      (hcalls : w.calls = before ++ c :: after) :
      CacheStep rt w { w with calls := before ++ after }

def CacheReachable (rt : LlmRuntime) (w : CacheWorld) : Prop :=
  ∃ clock, Relation.ReflTransGen (CacheStep rt) (.empty clock) w

/-! ## A call uses its own key -/

/-- The key of a cache operation. -/
def keyOf? : LlmOp → Option String
  | .cacheLookup key _ => some key
  | .cacheInsert key _ _ => some key
  | .getCacheEntry _ key => some key
  | .upsertCacheEntry _ key _ _ _ _ => some key
  | _ => none

def OwnKey (key : String) (op : LlmOp) : Prop := ∀ used, keyOf? op = some used → used = key

section Keys

variable {rt : LlmRuntime} {s : Session} {route : LlmRoute} {endpoint : LlmEndpointConfig}
  {key : String} {o : LlmOp}

theorem ownKey_of_none (h : keyOf? o = none) : OwnKey key o := by
  intro used hused
  rw [h] at hused
  cases hused

theorem ownKey_of_some (h : keyOf? o = some key) : OwnKey key o := by
  intro used hused
  rw [h] at hused
  exact (Option.some.inj hused).symm

theorem ownKey_request (h : (requestChatCompletion s route endpoint
    (buildMessages s.parsed.system s.plan.prompt)).Issues o) : OwnKey key o := by
  have ho := requestChatCompletion_issues.mp h
  unfold completionOp at ho
  by_cases hmock : isMockEndpoint endpoint = true
  · rw [if_pos hmock] at ho
    exact ho ▸ ownKey_of_none rfl
  · rw [if_neg hmock] at ho
    exact ho ▸ ownKey_of_none rfl

theorem ownKey_locally {remoteHost : Option String} {fallback : Bool}
    (h : (completeLocally s route endpoint (buildMessages s.parsed.system s.plan.prompt) key
      remoteHost fallback).Issues o) : OwnKey key o := by
  unfold completeLocally at h
  by_cases hcache : (s.config.cacheEnabled && decide (s.config.cacheTtlSecs > 0)) = true
  · simp only [hcache, if_true, Prog.issues_bind, issues_ask, yields_ask, true_and] at h
    rcases h with rfl | ⟨found, h⟩
    · exact ownKey_of_some rfl
    · cases found with
      | some hit => exact h.elim
      | none =>
        simp only [Prog.issues_bind, issues_ask, Prog.issues_pure, and_false, exists_false,
          or_false] at h
        rcases h with h | ⟨_, _, rfl⟩
        · exact ownKey_request h
        · exact ownKey_of_some rfl
  · rw [if_neg hcache] at h
    simp only [Prog.issues_bind, Prog.issues_pure, and_false, exists_false, or_false] at h
    exact ownKey_request h

theorem ownKey_distributed {remoteHost : Option String}
    (h : (completeDistributed s route endpoint (buildMessages s.parsed.system s.plan.prompt) key
      remoteHost).Issues o) : OwnKey key o := by
  unfold completeDistributed at h
  simp only [Prog.issues_bind, issues_ask, yields_ask, true_and] at h
  rcases h with rfl | ⟨found, h⟩
  · exact ownKey_of_some rfl
  · rcases found with e | (- | - | hit)
    · by_cases hopen : s.config.distributedFailOpen = true
      · simp only [hopen, Bool.not_true, Bool.false_eq_true, if_false] at h
        exact ownKey_locally h
      · simp only [hopen, Bool.not_false, if_true] at h
        exact h.elim
    · simp only [Prog.issues_bind, issues_ask, Prog.issues_pure, and_false, exists_false,
        or_false] at h
      rcases h with h | ⟨_, _, rfl | ⟨_, _, rfl⟩⟩
      · exact ownKey_request h
      · exact ownKey_of_some rfl
      · exact ownKey_of_none rfl
    · exact h.elim
    · exact h.elim

/-- The only key a completion uses is that of its request. -/
theorem ownKey_program (c : RunCompletion) (h : (c.program rt).Issues o) :
    OwnKey (c.key rt) o := by
  unfold RunCompletion.program executeRouteCompletion at h
  simp only [Prog.issues_bind, Prog.issues_ofExcept, false_or] at h
  obtain ⟨remoteHost, -, h⟩ := h
  replace h : (if usesDistributedCache c.config = true then
      if c.postgres = true then completeDistributed (c.session rt) c.route c.endpoint
        (buildMessages c.parsed.system c.plan.prompt) (c.key rt) remoteHost
      else if (!c.config.distributedFailOpen) = true then
        .fail "llm.infer distributed cache is enabled but no database pool was provided"
      else completeLocally (c.session rt) c.route c.endpoint
        (buildMessages c.parsed.system c.plan.prompt) (c.key rt) remoteHost true
    else completeLocally (c.session rt) c.route c.endpoint
      (buildMessages c.parsed.system c.plan.prompt) (c.key rt) remoteHost false).Issues o := h
  by_cases hshared : usesDistributedCache c.config = true
  · rw [if_pos hshared] at h
    by_cases hpool : c.postgres = true
    · rw [if_pos hpool] at h
      exact ownKey_distributed h
    · rw [if_neg hpool] at h
      by_cases hopen : (!c.config.distributedFailOpen) = true
      · rw [if_pos hopen] at h
        exact h.elim
      · rw [if_neg hopen] at h
        exact ownKey_locally h
  · rw [if_neg hshared] at h
    exact ownKey_locally h

end Keys

/-! ## Every answer comes from the key it is asked under -/

/-- An entry is under the key of a completion that was asked for. -/
structure StoredFor (rt : LlmRuntime) (asked : List RunCompletion) (key : String)
    (origin : RunCompletion) : Prop where
  key_eq : key = origin.key rt
  asked : origin ∈ asked

structure ServedFor (rt : LlmRuntime) (asked : List RunCompletion)
    (pair : RunCompletion × RunCompletion) : Prop where
  key_eq : pair.1.key rt = pair.2.key rt
  served : pair.1 ∈ asked
  origin : pair.2 ∈ asked

structure CacheInv (rt : LlmRuntime) (w : CacheWorld) : Prop where
  caches : ∀ process, ∀ entry ∈ w.caches process, StoredFor rt w.asked entry.cacheKey entry.origin
  shared : ∀ row ∈ w.shared, StoredFor rt w.asked row.cacheKey row.origin
  served : ∀ pair ∈ w.served, ServedFor rt w.asked pair
  asked : ∀ call ∈ w.calls, call.asked ∈ w.asked
  ownKey : ∀ call ∈ w.calls, ∀ o, call.rest.Issues o → OwnKey (call.asked.key rt) o

section Invariant

variable {rt : LlmRuntime} {w w' : CacheWorld} {process : Nat} {c : RunCompletion} {op : LlmOp}
  {r : LlmAns op}

theorem asked_of_cacheOp (h : CacheOp w process c op r w') :
    w'.asked = w.asked ∧ w'.calls = w.calls := by
  cases h <;> exact ⟨rfl, rfl⟩

theorem mem_withCache {cache : LocalCache} {entry : CacheEntry RunCompletion} {other : Nat}
    (h : entry ∈ (w.withCache process cache).caches other) :
    entry ∈ cache ∨ entry ∈ w.caches other := by
  unfold CacheWorld.withCache at h
  by_cases hother : other = process
  · exact Or.inl (by simpa [hother] using h)
  · exact Or.inr (by simpa [hother] using h)

/-- An operation under the key of its call keeps what is stored and served. -/
theorem cacheInv_of_cacheOp (hinv : CacheInv rt w) (hasked : c ∈ w.asked)
    (hown : OwnKey (c.key rt) op) (h : CacheOp w process c op r w') : CacheInv rt w' := by
  cases h with
  | other hop r => exact hinv
  | poisonedLookup key ttlSecs => exact hinv
  | poisonedInsert key value maxEntries => exact hinv
  | absent cacheNamespace key habsent => exact hinv
  | failedGet cacheNamespace key e => exact hinv
  | failedUpsert cacheNamespace key route model completion ttlSecs => exact hinv
  | miss key ttlSecs hmiss =>
    refine ⟨?_, hinv.shared, hinv.served, hinv.asked, hinv.ownKey⟩
    intro other entry hentry
    rcases mem_withCache hentry with h | h
    · exact hinv.caches process entry (subset_cacheLookup _ _ _ h)
    · exact hinv.caches other entry h
  | hit key ttlSecs entry hhit =>
    obtain ⟨hmem, hkey⟩ := cacheLookup_eq_some hhit
    have hstored := hinv.caches process entry hmem
    refine ⟨hinv.caches, hinv.shared, ?_, hinv.asked, hinv.ownKey⟩
    intro pair hpair
    rcases List.mem_cons.mp hpair with rfl | hpair
    · have hused : key = c.key rt := hown key rfl
      exact ⟨hused.symm.trans (hkey.symm.trans hstored.key_eq), hasked, hstored.asked⟩
    · exact hinv.served pair hpair
  | insert key value maxEntries cache hinsert =>
    refine ⟨?_, hinv.shared, hinv.served, hinv.asked, hinv.ownKey⟩
    intro other entry hentry
    rcases mem_withCache hentry with h | h
    · rcases mem_of_cacheInsert hinsert h with h | rfl
      · exact hinv.caches process entry h
      · exact ⟨hown key rfl, hasked⟩
    · exact hinv.caches other entry h
  | found cacheNamespace key row hfound =>
    obtain ⟨hmem, hkey⟩ := getSharedEntry_eq_some hfound
    have hstored := hinv.shared row hmem
    refine ⟨hinv.caches, hinv.shared, ?_, hinv.asked, hinv.ownKey⟩
    intro pair hpair
    rcases List.mem_cons.mp hpair with rfl | hpair
    · have hused : key = c.key rt := hown key rfl
      exact ⟨hused.symm.trans (hkey.symm.trans hstored.key_eq), hasked, hstored.asked⟩
    · exact hinv.served pair hpair
  | upsert cacheNamespace key route model completion ttlSecs =>
    refine ⟨hinv.caches, ?_, hinv.served, hinv.asked, hinv.ownKey⟩
    intro row hrow
    rcases mem_of_mem_upsertSharedEntry hrow with h | rfl
    · exact hinv.shared row h
    · exact ⟨hown key rfl, hasked⟩
  | prune cacheNamespace maxEntries rows hprune =>
    refine ⟨hinv.caches, ?_, hinv.served, hinv.asked, hinv.ownKey⟩
    exact fun row hrow => hinv.shared row (mem_of_pruneShared hprune hrow)

theorem StoredFor.more {asked asked' : List RunCompletion} {key : String} {origin : RunCompletion}
    (h : StoredFor rt asked key origin) (hasked : asked ⊆ asked') :
    StoredFor rt asked' key origin := ⟨h.key_eq, hasked h.asked⟩

theorem ServedFor.more {asked asked' : List RunCompletion} {pair : RunCompletion × RunCompletion}
    (h : ServedFor rt asked pair) (hasked : asked ⊆ asked') : ServedFor rt asked' pair :=
  ⟨h.key_eq, hasked h.served, hasked h.origin⟩

theorem cacheInv_of_step (hinv : CacheInv rt w) (h : CacheStep rt w w') : CacheInv rt w' := by
  cases h with
  | tick now hnow => exact ⟨hinv.caches, hinv.shared, hinv.served, hinv.asked, hinv.ownKey⟩
  | ask process c =>
    have hmore : w.asked ⊆ c :: w.asked := List.subset_cons_self c w.asked
    refine ⟨fun process entry hentry => (hinv.caches process entry hentry).more hmore,
      fun row hrow => (hinv.shared row hrow).more hmore,
      fun pair hpair => (hinv.served pair hpair).more hmore, ?_, ?_⟩
    · intro call hcall
      rcases List.mem_append.mp hcall with hcall | hcall
      · exact hmore (hinv.asked call hcall)
      · rw [List.mem_singleton.mp hcall]
        exact List.mem_cons_self
    · intro call hcall
      rcases List.mem_append.mp hcall with hcall | hcall
      · exact hinv.ownKey call hcall
      · rw [List.mem_singleton.mp hcall]
        exact fun o ho => ownKey_program c ho
  | @call w₁ before after process c op k r hcalls hop =>
    have hmem : ⟨process, c, .call op k⟩ ∈ w.calls :=
      hcalls ▸ List.mem_append_right _ List.mem_cons_self
    have hown := hinv.ownKey _ hmem
    have hnext := cacheInv_of_cacheOp hinv (hinv.asked _ hmem) (hown op (Or.inl rfl)) hop
    obtain ⟨hasked, hsame⟩ := asked_of_cacheOp hop
    have hothers : ∀ call ∈ before ++ ⟨process, c, k r⟩ :: after,
        call ∈ w.calls ∨ call = ⟨process, c, k r⟩ := by
      intro call hcall
      rw [hcalls]
      simp only [List.mem_append, List.mem_cons] at hcall ⊢
      rcases hcall with h | h | h
      · exact Or.inl (Or.inl h)
      · exact Or.inr h
      · exact Or.inl (Or.inr (Or.inr h))
    refine ⟨hnext.caches, hnext.shared, hnext.served, ?_, ?_⟩
    · intro call hcall
      show call.asked ∈ w₁.asked
      rw [hasked]
      rcases hothers call hcall with h | rfl
      · exact hinv.asked call h
      · exact hinv.asked ⟨process, c, .call op k⟩ hmem
    · intro call hcall o ho
      rcases hothers call hcall with h | rfl
      · exact hinv.ownKey call h o ho
      · exact hown o (Or.inr ⟨r, ho⟩)
  | @leave before after call hcalls =>
    have hsub : ∀ other ∈ before ++ after, other ∈ w.calls := by
      intro other hother
      rw [hcalls]
      simp only [List.mem_append, List.mem_cons] at hother ⊢
      rcases hother with h | h
      · exact Or.inl h
      · exact Or.inr (Or.inr h)
    exact ⟨hinv.caches, hinv.shared, hinv.served,
      fun other hother => hinv.asked other (hsub _ hother),
      fun other hother => hinv.ownKey other (hsub _ hother)⟩

theorem cacheInv_empty (clock : Int) : CacheInv rt (.empty clock) := by
  constructor
  · intro process entry h
    cases h
  · intro row h
    cases h
  · intro pair h
    cases h
  · intro call h
    cases h
  · intro call h
    cases h

theorem cacheInv_of_reachable (h : CacheReachable rt w) : CacheInv rt w := by
  obtain ⟨clock, hsteps⟩ := h
  induction hsteps with
  | refl => exact cacheInv_empty clock
  | tail _ hstep ih => exact cacheInv_of_step ih hstep

end Invariant

/-! ## Whose answers a completion is given -/

theorem text_length (u : Uuid) : u.text.toList.length = 36 := by
  simp [Uuid.text, u.length_digits]

/-- The namespace gives the tenant and the agent back. -/
theorem sameRun_of_cacheNamespace {c c' : RunCompletion}
    (h : cacheNamespaceOf c.run = cacheNamespaceOf c'.run) :
    c.run.tenantId = c'.run.tenantId ∧ c.run.agentId = c'.run.agentId := by
  have htext : ("tenant:" ++ c.run.tenantId ++ ":agent:").toList ++ c.run.agentId.toList =
      ("tenant:" ++ c'.run.tenantId ++ ":agent:").toList ++ c'.run.agentId.toList := by
    rw [← String.toList_append, ← String.toList_append]
    exact congrArg String.toList h
  have hlength : c.run.agentId.toList.length = c'.run.agentId.toList.length := by
    rw [c.agent, c'.agent, text_length, text_length]
  obtain ⟨hbefore, hagent⟩ := List.append_inj' htext hlength
  have hlabelled : "tenant:" ++ c.run.tenantId ++ ":agent:" =
      "tenant:" ++ c'.run.tenantId ++ ":agent:" := String.toList_inj.mp hbefore
  have htenant : c.run.tenantId = c'.run.tenantId := by simpa using hlabelled
  exact ⟨htenant, String.toList_inj.mp hagent⟩

/-- An answer stored for the same completion of the same agent. -/
structure SameAnswer {rt : LlmRuntime} {F : Type} (t : TemperatureText rt F)
    (pair : RunCompletion × RunCompletion) : Prop where
  tenantId : pair.1.run.tenantId = pair.2.run.tenantId
  agentId : pair.1.run.agentId = pair.2.run.agentId
  completion : SameCompletion t pair.1.request pair.2.request

/-! ## Runs with an answer from the cache -/

section Served

variable {rt : LlmRuntime} {w w' : CacheWorld} {process : Nat} {c c' : RunCompletion}

theorem CacheReachable.step (h : CacheReachable rt w) (hstep : CacheStep rt w w') :
    CacheReachable rt w' := ⟨h.choose, h.choose_spec.tail hstep⟩

theorem step_last (before : List CompletionCall) {op : LlmOp}
    (k : LlmAns op → LlmProg RouteCompletion) {r : LlmAns op}
    (hcalls : w.calls = before ++ [⟨process, c, .call op k⟩])
    (hop : CacheOp w process c op r w') :
    CacheStep rt w { w' with calls := before ++ [⟨process, c, k r⟩] } := .call hcalls hop

/-- The completion looks its key up, asks its endpoint and stores the answer. -/
def StoresAnswer (rt : LlmRuntime) (c : RunCompletion) (value : CachedCompletion)
    (ttlSecs maxEntries : Nat) : Prop :=
  ∃ k, c.program rt = .call (.cacheLookup (c.key rt) ttlSecs) k ∧
    ∃ op k', k none = .call op k' ∧ isUncached op = true ∧
      ∃ r k'', k' r = .call (.cacheInsert (c.key rt) value maxEntries) k''

/-- Of two completions with one key the second is given the answer of the first. -/
theorem exists_served {value : CachedCompletion} {ttlSecs maxEntries : Nat}
    (hfirst : StoresAnswer rt c value ttlSecs maxEntries)
    (hsecond : StoresAnswer rt c' value ttlSecs maxEntries) (hkey : c'.key rt = c.key rt)
    (hmax : 1 ≤ maxEntries) :
    ∃ w, CacheReachable rt w ∧ w.asked = [c', c] ∧ w.served = [(c', c)] := by
  obtain ⟨k, hlookup, op, k', hpost, hop, r, k'', hinsert⟩ := hfirst
  unfold StoresAnswer at hsecond
  rw [hkey] at hsecond
  obtain ⟨k₂, hlookup₂, _⟩ := hsecond
  have hasked : CacheReachable rt ⟨0, fun _ => [], [], [⟨0, c, c.program rt⟩], [c], []⟩ :=
    ⟨0, .single (.ask 0 c)⟩
  rw [hlookup] at hasked
  let missed : Nat → LocalCache := fun other => if other = 0 then [] else []
  have hmissed : CacheReachable rt ⟨0, missed, [], [⟨0, c, k none⟩], [c], []⟩ :=
    hasked.step (step_last [] k rfl (.miss (c.key rt) ttlSecs rfl))
  rw [hpost] at hmissed
  have hposted : CacheReachable rt ⟨0, missed, [], [⟨0, c, k' r⟩], [c], []⟩ :=
    hmissed.step (step_last [] k' rfl (.other hop r))
  rw [hinsert] at hposted
  let entry : CacheEntry RunCompletion := ⟨c.key rt, value, 0, c⟩
  let stored : Nat → LocalCache := fun other => if other = 0 then [entry] else missed other
  have hstored : CacheReachable rt ⟨0, stored, [], [⟨0, c, k'' ()⟩], [c], []⟩ :=
    hposted.step (step_last [] k'' rfl
      (.insert (c.key rt) value maxEntries [entry] (.fits hmax)))
  have hagain : CacheReachable rt
      ⟨0, stored, [], [⟨0, c, k'' ()⟩, ⟨0, c', c'.program rt⟩], [c', c], []⟩ :=
    hstored.step (.ask 0 c')
  rw [hlookup₂] at hagain
  have hfresh : expired ttlSecs 0 entry = false := by
    simp only [expired, entry, decide_eq_false_iff_not]
    omega
  have hfound : (cacheLookup (stored 0) (c.key rt) ttlSecs 0).2 = some entry := by
    simp [cacheLookup, stored, hfresh, show entry.cacheKey = c.key rt from rfl]
  have hserved : CacheReachable rt ⟨0, stored, [],
      [⟨0, c, k'' ()⟩, ⟨0, c', k₂ (some value)⟩], [c', c], [(c', c)]⟩ :=
    hagain.step (step_last [⟨0, c, k'' ()⟩] k₂ rfl (.hit (c.key rt) ttlSecs entry hfound))
  exact ⟨_, hserved, rfl, rfl⟩

end Served

theorem storesAnswer_of_local {rt : LlmRuntime} {c : RunCompletion} {host : Option String}
    {payload : ChatCompletionResponse} {value : CachedCompletion}
    (hhost : enforceRemoteEgressPolicy rt c.route c.endpoint c.config c.parsed = .ok host)
    (hshared : usesDistributedCache c.config = false)
    (hcache : (c.config.cacheEnabled && c.config.cacheTtlSecs > 0) = true)
    (hmock : isMockEndpoint c.endpoint = false)
    (hvalue : completionOfPayload c.config payload = .ok value) :
    StoresAnswer rt c value c.config.cacheTtlSecs (max c.config.cacheMaxEntries 1) := by
  have hprogram : c.program rt = completeLocally (c.session rt) c.route c.endpoint
      (buildMessages c.parsed.system c.plan.prompt) (c.key rt) host false := by
    unfold RunCompletion.program executeRouteCompletion
    show (Prog.ofExcept (enforceRemoteEgressPolicy rt c.route c.endpoint c.config c.parsed) :
      LlmProg (Option String)) >>= _ = _
    rw [hhost]
    show (if usesDistributedCache c.config = true then _ else _) = _
    rw [hshared]
    rfl
  unfold completeLocally at hprogram
  rw [show (c.session rt).config = c.config from rfl, hcache, if_pos rfl] at hprogram
  have hpost : ∃ k', requestChatCompletion (c.session rt) c.route c.endpoint
      (buildMessages c.parsed.system c.plan.prompt) =
        .call (.post (.completion c.route) c.endpoint (completionRequest c.endpoint
          (buildMessages c.parsed.system c.plan.prompt) c.parsed) c.config.timeoutMs) k' ∧
      k' (.ok payload) = .pure value := by
    unfold requestChatCompletion
    rw [hmock]
    refine ⟨_, rfl, ?_⟩
    show Prog.ofExcept (completionOfPayload c.config payload) = _
    rw [hvalue]
    rfl
  obtain ⟨k', hpost, hpure⟩ := hpost
  refine ⟨_, hprogram, ?_⟩
  rw [hpost]
  refine ⟨_, _, rfl, rfl, (.ok payload : Except HttpFailure ChatCompletionResponse), ?_⟩
  show ∃ k'', (k' (.ok payload)).bind _ = .call _ k''
  rw [hpure]
  exact ⟨_, rfl⟩

/-- Two requests with one key ask for the same completion exactly unless they are confused,
and in a run none of whose requests are confused every cached answer was stored for the
same completion of the same agent. -/
theorem cachedAnswers_iff {rt : LlmRuntime} {F : Type} (t : TemperatureText rt F)
    (hsha : Function.Injective rt.sha256Hex) :
    (∀ r r' : CacheRequest, (r.key rt = r'.key rt → SameCompletion t r r') ↔ ¬ Confused t r r') ∧
      ∀ w, CacheReachable rt w →
        (∀ c ∈ w.asked, ∀ c' ∈ w.asked, ¬ Confused t c.request c'.request) →
          ∀ pair ∈ w.served, SameAnswer t pair := by
  have hkey : ∀ r r' : CacheRequest, r.key rt = r'.key rt ↔ keyText rt r = keyText rt r' := by
    intro r r'
    rw [key_eq, key_eq]
    exact hsha.eq_iff
  constructor
  · intro r r'
    rw [hkey]
    exact sameCompletion_iff t r r'
  · intro w hw hplain pair hpair
    have hserved := (cacheInv_of_reachable hw).served pair hpair
    have htext := (hkey _ _).mp hserved.key_eq
    have hsame := (sameCompletion_iff t _ _).mpr
      (hplain pair.1 hserved.served pair.2 hserved.origin) htext
    obtain ⟨htenant, hagent⟩ := sameRun_of_cacheNamespace hsame.cacheNamespace
    exact ⟨htenant, hagent, hsame⟩

/-! ## A worker that caches -/

def sampleTemperature : TemperatureText sampleRuntime Unit where
  asF32 := fun _ => ()
  text := fun _ => "0.0000"
  formatTemperature := fun _ => rfl
  noBar := fun _ => by decide
  nonempty := fun _ => by decide

def sampleArgs (system : Option String) (prompt : String) (maxTokens : Option Nat) :
    LlmInferActionArgs where
  prompt := prompt
  channel := none
  system := system
  prefer := none
  preferExplicit := false
  requestClass := .interactive
  requestClassExplicit := false
  localTier := none
  localTierExplicit := false
  model := none
  largeInputPolicy := none
  redacted := false
  contextDocuments := []
  contextQuery := none
  contextTopK := none
  contextMaxBytes := none
  verifierRequired := false
  maxTokens := maxTokens
  temperature := none

def samplePlan (prompt : String) : LlmPromptPlan where
  prompt := prompt
  channel := none
  channelDefaultsApplied := false
  prefer := none
  requestClass := .interactive
  localTier := none
  model := none
  largeInputPolicy := .summarizeFirst
  largeInputApplied := false
  largeInputReasonCode := "direct"
  promptBytesOriginal := Text.len prompt
  promptBytesEffective := Text.len prompt
  retrievalCandidateDocuments := 0
  retrievalSelectedDocuments := 0

/-- A completion of one agent's run, on a worker that caches locally. -/
def sampleCompletion (system : Option String) (prompt : String) (maxTokens : Option Nat) :
    RunCompletion where
  run := ⟨"r", "t", (Uuid.repeated 0).text, .obj [], .arr []⟩
  agentId := Uuid.repeated 0
  agent := rfl
  config := { sampleConfig with cacheEnabled := true }
  postgres := false
  parsed := sampleArgs system prompt maxTokens
  plan := samplePlan prompt
  route := .local
  endpoint := ⟨"http://127.0.0.1:11434/v1", "qwen2.5", none⟩

theorem sampleCompletion_stores (system : Option String) (prompt : String)
    (maxTokens : Option Nat) :
    StoresAnswer sampleRuntime (sampleCompletion system prompt maxTokens)
      ⟨"hello", none, none, none⟩ 300 1024 := by
  have hmock : isMockEndpoint ⟨"http://127.0.0.1:11434/v1", "qwen2.5", none⟩ = false := by decide
  have hvalue : completionOfPayload { sampleConfig with cacheEnabled := true } ⟨["hello"], none⟩ =
      .ok ⟨"hello", none, none, none⟩ := rfl
  exact storesAnswer_of_local rfl rfl rfl hmock hvalue

theorem cachedAnswers_plain : ∃ w, CacheReachable sampleRuntime w ∧
    w.served = [(sampleCompletion none "b" none, sampleCompletion none "b" none)] ∧
      ∀ pair ∈ w.served, SameAnswer sampleTemperature pair := by
  have hstores := sampleCompletion_stores none "b" none
  obtain ⟨w, hw, hasked, hserved⟩ := exists_served hstores hstores rfl (by decide)
  refine ⟨w, hw, hserved, (cachedAnswers_iff sampleTemperature sampleSha256Hex_injective).2 w hw ?_⟩
  intro c hc c' hc'
  rw [hasked] at hc hc'
  have hcc : c = sampleCompletion none "b" none := by simpa using hc
  have hcc' : c' = sampleCompletion none "b" none := by simpa using hc'
  rw [hcc, hcc']
  exact not_confused_self sampleTemperature _

/-- An agent that moves a turn from its prompt into the system text is given the answer to
its former question. -/
theorem shifted_turn_served : ∃ w c c', CacheReachable sampleRuntime w ∧ (c', c) ∈ w.served ∧
    c'.key sampleRuntime = c.key sampleRuntime ∧
      ¬ SameCompletion sampleTemperature c'.request c.request := by
  have hfirst := sampleCompletion_stores (some "a") ("b" ++ "|user:" ++ "c") none
  have hsecond := sampleCompletion_stores (some ("a" ++ "|user:" ++ "b")) "c" none
  have hkey : (sampleCompletion (some ("a" ++ "|user:" ++ "b")) "c" none).key sampleRuntime =
      (sampleCompletion (some "a") ("b" ++ "|user:" ++ "c") none).key sampleRuntime :=
    congrArg sampleRuntime.sha256Hex (keyText_shifted sampleRuntime
      (sampleCompletion none "" none).request "a" "b" "c")
  obtain ⟨w, hw, -, hserved⟩ := exists_served hfirst hsecond hkey (by decide)
  refine ⟨w, _, _, hw, hserved ▸ List.mem_cons_self, hkey, ?_⟩
  intro hsame
  have hprompt : "c" = "b" ++ "|user:" ++ "c" := hsame.prompt
  exact absurd hprompt (by decide)

end Worker
end SecureAgnt

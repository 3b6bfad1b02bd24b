/-
Listing the memory records of a tenant, on both back ends.

The start of the scope is asked for with `LIKE`, and the text of the caller is the
pattern up to its last wildcard.  So a wildcard of the caller is one of the pattern, a
backslash is an escape on Postgres, and SQLite takes the two cases of an ASCII letter
for the same.
-/
import SecureAgnt.Api.Store
import SecureAgnt.Lib.Like

namespace SecureAgnt
namespace Api

open Storage (Backend)

/-! ## The query -/

/-- `text LIKE pattern`, with the escape and the letters of the back end.  No pattern of
this query ends in a lone backslash, which Postgres would refuse. -/
def scopeLike (b : Backend) (text pattern : String) : Bool :=
  match b with
  | .postgres => Like.accepts (· == ·) (Like.escapedTokens pattern.toList) text.toList
  | .sqlite => Like.accepts (fun a c => Text.asciiLower a == Text.asciiLower c)
      (Like.plainTokens pattern.toList) text.toList

/-- The `WHERE` of the listing. -/
def MemoryRow.isListed (b : Backend) (now : Int) (tenantId : String) (agentId : Option Uuid)
    (memoryKind scopePrefix : Option String) (row : MemoryRow) : Bool :=
  row.key.tenantId = tenantId && row.isActive b now &&
    (agentId.all fun agent => row.key.agentId = agent) &&
    (memoryKind.all fun kind => row.key.memoryKind.text = kind) &&
    scopePrefix.all fun start => scopeLike b row.key.scope (start ++ "%")

/-- `ORDER BY created_at DESC, id DESC`. -/
def MemoryRow.precedes (b : Backend) (row row' : MemoryRow) : Prop :=
  Memory.MemoryRecord.isOlder b row'.toMemoryRecord row.toMemoryRecord

instance (b : Backend) : DecidableRel (MemoryRow.precedes b) := fun row row' =>
  inferInstanceAs (Decidable (Memory.MemoryRecord.isOlder b row'.toMemoryRecord row.toMemoryRecord))

/-- `limit.clamp(1, 1000)`. -/
def clampLimit (limit : Int) : Int := min (max limit 1) 1000

/-- The newest records, as many as the limit says. -/
def newestRecords (b : Backend) (limit : Int) (rows : List MemoryRow) : List MemoryRow :=
  (rows.insertionSort (MemoryRow.precedes b)).take (clampLimit limit).toNat

def listTenantMemoryRecords (b : Backend) (now : Int) (rows : List MemoryRow) (tenantId : String)
    (agentId : Option Uuid) (memoryKind scopePrefix : Option String) (limit : Int) :
    List MemoryRow :=
  newestRecords b limit (rows.filter (·.isListed b now tenantId agentId memoryKind scopePrefix))

theorem mem_of_mem_newest {b : Backend} {limit : Int} {rows : List MemoryRow} {row : MemoryRow}
    (h : row ∈ newestRecords b limit rows) : row ∈ rows := by
  have hsorted := List.mem_of_mem_take h
  rw [List.mem_insertionSort] at hsorted
  exact hsorted

instance (b : Backend) : Std.Total (MemoryRow.precedes b) where
  total row row' := by
    unfold MemoryRow.precedes Memory.MemoryRecord.isOlder
    rcases lt_trichotomy (b.stamp row.createdAt) (b.stamp row'.createdAt) with hlt | heq | hlt
    · exact .inr (.inl hlt)
    · rcases le_total row.id.text row'.id.text with hid | hid
      · exact .inr (.inr ⟨heq, hid⟩)
      · exact .inl (.inr ⟨heq.symm, hid⟩)
    · exact .inl (.inl hlt)

instance (b : Backend) : IsTrans MemoryRow (MemoryRow.precedes b) where
  trans row row' row'' h h' := by
    unfold MemoryRow.precedes Memory.MemoryRecord.isOlder at *
    rcases h with h | ⟨heq, hid⟩
    · rcases h' with h' | ⟨heq', _⟩
      · exact .inl (h'.trans h)
      · exact .inl (by omega)
    · rcases h' with h' | ⟨heq', hid'⟩
      · exact .inl (by omega)
      · exact .inr ⟨heq'.trans heq, hid'.trans hid⟩

/-- A record that no more than the limit are as new as is among the newest. -/
theorem mem_newest {b : Backend} {limit : Int} {rows : List MemoryRow} {row : MemoryRow}
    (hmem : row ∈ rows)
    (hrank : (rows.countP fun other => other.precedes b row : Nat) ≤ clampLimit limit) :
    row ∈ newestRecords b limit rows := by
  have hperm := List.perm_insertionSort (MemoryRow.precedes b) rows
  have hsorted := List.pairwise_insertionSort (MemoryRow.precedes b) rows
  unfold newestRecords
  generalize rows.insertionSort (MemoryRow.precedes b) = sorted at hperm hsorted
  rw [← hperm.countP_eq] at hrank
  obtain ⟨before, after, rfl⟩ := List.append_of_mem (hperm.mem_iff.mpr hmem)
  have hbefore : before.countP (fun other => other.precedes b row) = before.length := by
    rw [List.countP_eq_length]
    intro other hother
    exact decide_eq_true ((List.pairwise_append.mp hsorted).2.2 other hother row List.mem_cons_self)
  have hself : row.precedes b row := (Std.Total.total row row).elim id id
  rw [List.countP_append, hbefore, List.countP_cons, if_pos (decide_eq_true hself)] at hrank
  rw [List.take_append]
  refine List.mem_append_right _ ?_
  obtain ⟨k, hk⟩ : ∃ k, (clampLimit limit).toNat - before.length = k + 1 :=
    ⟨(clampLimit limit).toNat - before.length - 1, by omega⟩
  rw [hk]
  exact List.mem_cons_self

section Listing

variable {b : Backend} {now limit : Int} {rows : List MemoryRow} {row : MemoryRow}
  {tenantId : String} {agentId : Option Uuid} {memoryKind scopePrefix : Option String}

theorem mem_of_mem_list
    (h : row ∈ listTenantMemoryRecords b now rows tenantId agentId memoryKind scopePrefix limit) :
    row ∈ rows ∧ row.isListed b now tenantId agentId memoryKind scopePrefix = true :=
  List.mem_filter.mp (mem_of_mem_newest h)

/-- A record that is alone in the table is listed where the query selects it. -/
theorem list_singleton
    (h : row.isListed b now tenantId agentId memoryKind scopePrefix = true) :
    listTenantMemoryRecords b now [row] tenantId agentId memoryKind scopePrefix 1 = [row] := by
  unfold listTenantMemoryRecords
  rw [List.filter_cons_of_pos h, List.filter_nil]
  rfl

theorem isListed_tenant (h : row.isListed b now tenantId agentId memoryKind scopePrefix = true) :
    row.key.tenantId = tenantId := by
  simp only [MemoryRow.isListed, Bool.and_eq_true, decide_eq_true_eq] at h
  exact h.1.1.1.1

theorem isListed_scope {start : String}
    (h : row.isListed b now tenantId agentId memoryKind (some start) = true) :
    scopeLike b row.key.scope (start ++ "%") = true := by
  simp only [MemoryRow.isListed, Bool.and_eq_true] at h
  exact h.2

end Listing

/-! ## Where the pattern is the start of the scope -/

/-- Every record listed is of the tenant, and its scope starts with the text. -/
structure ListsByScope (b : Backend) (scopePrefix : String) : Prop where
  listed : ∀ (now limit : Int) (rows : List MemoryRow) (tenantId : String)
    (agentId : Option Uuid) (memoryKind : Option String),
    ∀ row ∈ listTenantMemoryRecords b now rows tenantId agentId memoryKind (some scopePrefix) limit,
      row ∈ rows ∧ row.key.tenantId = tenantId ∧ Text.startsWith row.key.scope scopePrefix = true

/-- A letter that the back end takes in a pattern for itself and for nothing else. -/
def ScopeLiteral : Backend → Char → Prop
  | .postgres, c => Like.Bare c
  | .sqlite, c => Like.Plain c ∧ Text.isAsciiAlphabetic c = false

instance (b : Backend) (c : Char) : Decidable (ScopeLiteral b c) :=
  match b with
  | .postgres => inferInstanceAs (Decidable (Like.Bare c))
  | .sqlite => inferInstanceAs (Decidable (Like.Plain c ∧ Text.isAsciiAlphabetic c = false))

section Start

variable {b : Backend} {start text : String}

/-- A start of letters that stand for themselves selects by the start. -/
theorem startsWith_of_like (hliteral : ∀ c ∈ start.toList, ScopeLiteral b c)
    (h : scopeLike b text (start ++ "%") = true) : Text.startsWith text start = true := by
  have happend : (start ++ "%").toList = start.toList ++ ['%'] := by rw [String.toList_append]; rfl
  rw [Text.startsWith_iff]
  cases b with
  | postgres =>
    unfold scopeLike at h
    rw [happend, Like.escapedTokens_eq_lits hliteral, Like.accepts_append_any] at h
    obtain ⟨front, hfront, haccepts⟩ := h
    have hsame := (Like.accepts_lits.mp haccepts).imp fun _ _ heq => eq_of_beq heq
    rw [List.forall₂_eq_eq_eq] at hsame
    rw [hsame]
    exact hfront
  | sqlite =>
    unfold scopeLike at h
    rw [happend, Like.plainTokens_append_any, Like.plainTokens_eq_lits fun c hc => (hliteral c hc).1,
      Like.accepts_append_any] at h
    obtain ⟨front, hfront, haccepts⟩ := h
    have hletters := List.forall₂_iff_zip.mp (Like.accepts_lits.mp haccepts)
    have hsame : start.toList = front := by
      apply List.ext_getElem hletters.1
      intro i hi hi'
      have hpair : (start.toList[i], front[i]) ∈ start.toList.zip front := by
        rw [← List.getElem_zip (h := by rw [List.length_zip]; omega)]
        exact List.getElem_mem _
      exact Text.eq_of_asciiLower_eq (hliteral _ (List.getElem_mem hi)).2
        (eq_of_beq (hletters.2 hpair))
    rw [hsame]
    exact hfront

/-- Without wildcards and escapes in it, a start selects at least what starts with it. -/
theorem like_of_startsWith (hbare : ∀ c ∈ start.toList, Like.Bare c)
    (h : Text.startsWith text start = true) : scopeLike b text (start ++ "%") = true := by
  have happend : (start ++ "%").toList = start.toList ++ ['%'] := by rw [String.toList_append]; rfl
  have hfront := Text.startsWith_iff.mp h
  cases b with
  | postgres =>
    unfold scopeLike
    rw [happend, Like.escapedTokens_eq_lits hbare, Like.accepts_append_any]
    refine ⟨start.toList, hfront, Like.accepts_lits.mpr ?_⟩
    exact List.forall₂_same.mpr fun c _ => beq_self_eq_true c
  | sqlite =>
    unfold scopeLike
    rw [happend, Like.plainTokens_append_any, Like.plainTokens_eq_lits fun c hc => (hbare c hc).1,
      Like.accepts_append_any]
    refine ⟨start.toList, hfront, Like.accepts_lits.mpr ?_⟩
    exact List.forall₂_same.mpr fun c _ => beq_self_eq_true (Text.asciiLower c)

/-- A scope that the pattern accepts and that has the letters of the start where it can. -/
def sampleScope (b : Backend) (start : String) : String :=
  match b with
  | .postgres => String.ofList (Like.fill id '-' (Like.escapedTokens (start ++ "%").toList))
  | .sqlite => String.ofList (Like.fill Text.asciiSwap '-' (Like.plainTokens start.toList))

theorem like_sampleScope (b : Backend) (start : String) :
    scopeLike b (sampleScope b start) (start ++ "%") = true := by
  cases b with
  | postgres =>
    unfold scopeLike sampleScope
    rw [String.toList_ofList]
    exact Like.accepts_fill (fun a => beq_self_eq_true a) '-' _
  | sqlite =>
    unfold scopeLike sampleScope
    have happend : (start ++ "%").toList = start.toList ++ ['%'] := by
      rw [String.toList_append]; rfl
    rw [String.toList_ofList, happend, Like.plainTokens_append_any, Like.accepts_append_any]
    refine ⟨_, List.prefix_rfl, Like.accepts_fill (fun a => ?_) '-' _⟩
    rw [Text.asciiLower_asciiSwap]
    exact beq_self_eq_true _

theorem literal_of_startsWith (h : Text.startsWith (sampleScope b start) start = true) :
    ∀ c ∈ start.toList, ScopeLiteral b c := by
  have happend : (start ++ "%").toList = start.toList ++ ['%'] := by rw [String.toList_append]; rfl
  rw [Text.startsWith_iff] at h
  cases b with
  | postgres =>
    unfold sampleScope at h
    rw [String.toList_ofList, happend] at h
    exact Like.bare_of_prefix_fill (by decide) h
  | sqlite =>
    unfold sampleScope at h
    rw [String.toList_ofList] at h
    intro c hc
    have hplain := Like.plain_of_prefix_fill (by decide) h c hc
    exact ⟨hplain.1, Text.isAsciiAlphabetic_of_asciiSwap hplain.2⟩

end Start

/-- A record of a scope, and nothing else of note. -/
def scopedRow (tenantId scope : String) : MemoryRow where
  id := .repeated 0
  key := ⟨tenantId, .repeated 1, .semantic, scope⟩
  runId := none
  stepId := none
  expiresAt := none
  createdAt := 0
  updatedAt := 0
  compactedAt := none
  contentJson := .null
  summaryText := none
  source := "worker"
  redactionApplied := false

theorem isListed_scopedRow (tenantId : String) {b : Backend} {scope start : String}
    (h : scopeLike b scope (start ++ "%") = true) :
    (scopedRow tenantId scope).isListed b 0 tenantId none none (some start) = true := by
  unfold MemoryRow.isListed
  simp only [Bool.and_eq_true, decide_eq_true_eq]
  exact ⟨⟨⟨⟨rfl, rfl⟩, rfl⟩, rfl⟩, h⟩

/-- The listing goes by the start of the scope exactly for a text of letters that stand
for themselves: on Postgres neither wildcards nor backslashes, and on SQLite neither
wildcards nor ASCII letters. -/
theorem lists_by_scope_iff (b : Backend) (scopePrefix : String) :
    ListsByScope b scopePrefix ↔ ∀ c ∈ scopePrefix.toList, ScopeLiteral b c := by
  constructor
  · intro h
    have hlisted := isListed_scopedRow "acme" (like_sampleScope b scopePrefix)
    have hstart := h.listed 0 1 [scopedRow "acme" (sampleScope b scopePrefix)] "acme" none
      none (scopedRow "acme" (sampleScope b scopePrefix))
      (by rw [list_singleton hlisted]; exact List.mem_singleton_self _)
    exact literal_of_startsWith hstart.2.2
  · intro hliteral
    constructor
    intro now limit rows tenantId agentId memoryKind row hrow
    obtain ⟨hmem, hlisted⟩ := mem_of_mem_list hrow
    exact ⟨hmem, isListed_tenant hlisted, startsWith_of_like hliteral (isListed_scope hlisted)⟩

/-- The underscore of one team finds the records of another, and on SQLite the case of the
letters does not matter. -/
theorem other_scope_listed : ¬ ListsByScope .postgres "memory:team_a/" ∧
    ¬ ListsByScope .sqlite "memory:team-a/" := by
  constructor
  · intro h
    have hlike : scopeLike .postgres "memory:teamba/plan" ("memory:team_a/" ++ "%") = true := by
      decide +kernel
    have hstart := h.listed 0 1 [scopedRow "acme" "memory:teamba/plan"] "acme" none none
      (scopedRow "acme" "memory:teamba/plan")
      (by rw [list_singleton (isListed_scopedRow "acme" hlike)]; exact List.mem_singleton_self _)
    exact absurd hstart.2.2 (by decide +kernel)
  · intro h
    have hlike : scopeLike .sqlite "memory:Team-A/plan" ("memory:team-a/" ++ "%") = true := by
      decide +kernel
    have hstart := h.listed 0 1 [scopedRow "acme" "memory:Team-A/plan"] "acme" none none
      (scopedRow "acme" "memory:Team-A/plan")
      (by rw [list_singleton (isListed_scopedRow "acme" hlike)]; exact List.mem_singleton_self _)
    exact absurd hstart.2.2 (by decide +kernel)

end Api
end SecureAgnt

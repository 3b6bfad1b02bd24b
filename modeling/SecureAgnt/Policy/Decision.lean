/-
The decision on a request, read off the JSON of a run's grants.

One element of the JSON says which capability it grants, on which scope and up to which
payload.  The worker drops an element it cannot read, but reads an unusable limit as no
limit at all: `decides_iff` says for which grants that shows in a decision.
-/
import SecureAgnt.Policy.Containment

namespace SecureAgnt
namespace Policy

/-! ## What an element says -/

/-- `raw` as a list; anything but an array has no elements. -/
def elements (raw : Json) : List Json := raw.asArray?.getD []

def limitField (element : Json) : Option Json :=
  (element.get? "limits").bind fun limits => limits.get? "max_payload_bytes"

/-- A scope is covered by itself and by a text before a `*` that it starts with. -/
def ScopeCovers (pattern scope : String) : Prop :=
  pattern = scope ∨ ∃ stem, pattern = stem ++ "*" ∧ stem.toList <+: scope.toList

/-- The element names the request's capability on a scope that covers the request's. -/
structure NamesRequest (element : Json) (request : ActionRequest) : Prop where
  capability : ∃ name kind, (element.get? "capability").bind Json.asStr? = some name ∧
    parseCapabilityKind name = some kind ∧
      CapabilityKind.fromActionType request.actionType = some kind
  scope : ∃ pattern, (element.get? "scope").bind Json.asStr? = some pattern ∧
    ScopeCovers pattern request.scope

/-- The element has no payload limit, or one of at least `payloadBytes`. -/
def LimitAdmits (element : Json) (payloadBytes : Nat) : Prop :=
  limitField element = none ∨
    ∃ limit, (limitField element).bind Json.asU64? = some limit ∧ payloadBytes ≤ limit

/-- The element alone allows the request. -/
structure ElementAllows (element : Json) (request : ActionRequest) : Prop extends
    NamesRequest element request where
  limit : LimitAdmits element request.payloadBytes

/-- The limit is there but is not a usable number. -/
def LimitUnusable (element : Json) : Prop :=
  ∃ limit, limitField element = some limit ∧ limit.asU64? = none

/-! ## What the worker reads -/

variable {element raw : Json} {request : ActionRequest}

theorem scopeCovers_iff {pattern scope : String} :
    ScopeCovers pattern scope ↔ scopeMatches pattern scope = true := by
  unfold scopeMatches ScopeCovers
  cases hstem : Text.stripSuffixChar pattern '*' with
  | none =>
    have hplain : ∀ stem, pattern ≠ stem ++ "*" := by
      intro stem heq
      have hstrip : Text.stripSuffixChar pattern '*' = some stem := by
        rw [Text.stripSuffixChar_eq_some, heq, String.toList_append]
        rfl
      rw [hstem] at hstrip
      cases hstrip
    constructor
    · intro h
      rcases h with heq | ⟨stem, heq, _⟩
      · simp [heq]
      · exact absurd heq (hplain stem)
    · intro h
      exact .inl (beq_iff_eq.mp h)
  | some stem =>
    rw [Text.stripSuffixChar_eq_some] at hstem
    have hpattern : pattern = stem ++ "*" := by
      rw [← String.toList_inj, hstem, String.toList_append]
      rfl
    show _ ↔ Text.startsWith scope stem = true
    rw [Text.startsWith_iff]
    constructor
    · intro h
      rcases h with heq | ⟨stem', heq, hfront⟩
      · rw [← heq, hstem]
        exact List.prefix_append _ _
      · have hsame : stem' = stem := by
          rw [hpattern] at heq
          exact (String.append_left_inj "*").mp heq.symm
        exact hsame ▸ hfront
    · intro h
      exact .inr ⟨stem, hpattern, h⟩

/-- What the worker reads as a limit. -/
def readLimit (element : Json) : Option Nat := (limitField element).bind Json.asU64?

theorem parseCapabilityGrant_eq_some {grant : CapabilityGrant} :
    parseCapabilityGrant element = some grant ↔
      ∃ name, (element.get? "capability").bind Json.asStr? = some name ∧
        parseCapabilityKind name = some grant.kind ∧
          (element.get? "scope").bind Json.asStr? = some grant.scope ∧
            readLimit element = grant.limits.maxPayloadBytes := by
  have hlimit : readLimit element = (element.get? "limits").bind fun limits =>
      (limits.get? "max_payload_bytes").bind Json.asU64? := by
    unfold readLimit limitField
    cases element.get? "limits" with
    | none => rfl
    | some limits => rfl
  unfold parseCapabilityGrant
  rw [hlimit]
  simp only [Option.bind_eq_some_iff, Option.map_eq_some_iff]
  constructor
  · intro h
    obtain ⟨name, hname, scope, hscope, kind, hkind, rfl⟩ := h
    exact ⟨name, hname, hkind, hscope, rfl⟩
  · intro h
    obtain ⟨name, hname, hkind, hscope, hread⟩ := h
    refine ⟨name, hname, grant.scope, hscope, grant.kind, hkind, ?_⟩
    rw [hread]

/-- The grant read from an element covers a request that the element names, unless its
limit is a number that is too small. -/
theorem parsed_covers_iff : (∃ grant, parseCapabilityGrant element = some grant ∧
    Covers grant request) ↔
      NamesRequest element request ∧ ∀ limit, readLimit element = some limit →
        request.payloadBytes ≤ limit := by
  simp only [parseCapabilityGrant_eq_some]
  constructor
  · intro h
    obtain ⟨grant, ⟨name, hname, hkind, hscope, hread⟩, hcovers, hmatch, hlimit⟩ := h
    refine ⟨⟨⟨name, grant.kind, hname, hkind, hcovers⟩, grant.scope, hscope,
      scopeCovers_iff.mpr hmatch⟩, ?_⟩
    intro limit h
    rw [hread] at h
    simpa [withinLimit, h] using hlimit
  · intro h
    obtain ⟨⟨⟨name, kind, hname, hkind, htype⟩, pattern, hscope, hcovers⟩, hlimit⟩ := h
    refine ⟨⟨kind, pattern, ⟨readLimit element⟩⟩, ⟨name, hname, hkind, hscope, rfl⟩, htype,
      scopeCovers_iff.mp hcovers, ?_⟩
    unfold withinLimit
    cases hread : readLimit element with
    | none => rfl
    | some limit =>
      have hle := hlimit limit hread
      simpa using hle

/-- An unusable limit is read as none. -/
theorem parsed_covers_split : (∃ grant, parseCapabilityGrant element = some grant ∧
    Covers grant request) ↔
      ElementAllows element request ∨ LimitUnusable element ∧ NamesRequest element request := by
  rw [parsed_covers_iff]
  constructor
  · intro h
    obtain ⟨hnames, hlimit⟩ := h
    cases hfield : limitField element with
    | none => exact .inl ⟨hnames, .inl hfield⟩
    | some limit =>
      cases hnumber : limit.asU64? with
      | none => exact .inr ⟨⟨limit, hfield, hnumber⟩, hnames⟩
      | some n =>
        have hread : readLimit element = some n := by
          unfold readLimit
          rw [hfield]
          exact hnumber
        exact .inl ⟨hnames, .inr ⟨n, hread, hlimit n hread⟩⟩
  · intro h
    rcases h with h | ⟨⟨limit, hfield, hnumber⟩, hnames⟩
    · refine ⟨h.toNamesRequest, ?_⟩
      intro limit hread
      rcases h.limit with hnone | ⟨n, hn, hle⟩
      · rw [readLimit, hnone] at hread
        cases hread
      · rw [readLimit, hn] at hread
        cases hread
        exact hle
    · refine ⟨hnames, ?_⟩
      intro n hread
      rw [readLimit, hfield, Option.bind_some, hnumber] at hread
      cases hread

/-! ## The decision -/

theorem grants_parseGrantSet : (parseGrantSet raw).grants =
    (elements raw).filterMap parseCapabilityGrant := by
  unfold parseGrantSet elements
  cases raw.asArray? with
  | none => rfl
  | some items => rfl

theorem allowed_iff : isActionAllowed (parseGrantSet raw) request = .allow ↔
    ∃ element ∈ elements raw, ∃ grant, parseCapabilityGrant element = some grant ∧
      Covers grant request := by
  rw [isActionAllowed_eq_allow, grants_parseGrantSet]
  simp only [List.mem_filterMap]
  constructor
  · intro h
    obtain ⟨grant, ⟨element, hmem, hparse⟩, hcovers⟩ := h
    exact ⟨element, hmem, grant, hparse, hcovers⟩
  · intro h
    obtain ⟨element, hmem, grant, hparse, hcovers⟩ := h
    exact ⟨grant, ⟨element, hmem, hparse⟩, hcovers⟩

/-- Not even the reason of a denial depends on the order of the grants. -/
theorem isActionAllowed_perm {grants grants' : GrantSet} (h : grants.grants.Perm grants'.grants) :
    isActionAllowed grants request = isActionAllowed grants' request := by
  unfold isActionAllowed
  cases CapabilityKind.fromActionType request.actionType with
  | none => rfl
  | some kind =>
    have hkind := h.filter fun grant => grant.kind = kind
    have hscoped := hkind.filter fun grant => scopeMatches grant.scope request.scope
    dsimp only
    rw [hkind.isEmpty_eq, hscoped.isEmpty_eq, hscoped.any_eq]

/-- The decision is that of the elements, one at a time; it does not depend on their
order, more elements allow no less, and one with an unusable limit allows nothing. -/
structure DecidesByElement (raw : Json) (request : ActionRequest) : Prop where
  allow_iff : isActionAllowed (parseGrantSet raw) request = .allow ↔
    ∃ element ∈ elements raw, ElementAllows element request
  order : ∀ items, (elements raw).Perm items →
    isActionAllowed (parseGrantSet (.arr items)) request =
      isActionAllowed (parseGrantSet raw) request
  monotone : ∀ items, elements raw ⊆ items →
    isActionAllowed (parseGrantSet raw) request = .allow →
      isActionAllowed (parseGrantSet (.arr items)) request = .allow
  unusable : ∀ before element after, elements raw = before ++ element :: after →
    LimitUnusable element → isActionAllowed (parseGrantSet raw) request = .allow →
      isActionAllowed (parseGrantSet (.arr (before ++ after))) request = .allow

/-- An element that allows a request has no unusable limit. -/
theorem not_unusable_of_allows (h : ElementAllows element request) : ¬ LimitUnusable element := by
  intro hunusable
  obtain ⟨limit, hfield, hnumber⟩ := hunusable
  rcases h.limit with hnone | ⟨n, hn, _⟩
  · rw [hfield] at hnone
    cases hnone
  · rw [hfield, Option.bind_some, hnumber] at hn
    cases hn

theorem allowed_split : isActionAllowed (parseGrantSet raw) request = .allow ↔
    (∃ element ∈ elements raw, ElementAllows element request) ∨
      ∃ element ∈ elements raw, LimitUnusable element ∧ NamesRequest element request := by
  rw [allowed_iff]
  simp only [parsed_covers_split, and_or_left, exists_or]

/-- The decision is as it should be exactly for the grants in which every element that has
an unusable limit and names the request stands beside one that allows it. -/
theorem decides_iff (raw : Json) (request : ActionRequest) : DecidesByElement raw request ↔
    ∀ element ∈ elements raw, LimitUnusable element → NamesRequest element request →
      ∃ other ∈ elements raw, ElementAllows other request := by
  constructor
  · intro h element hmem hunusable hnames
    exact h.allow_iff.mp (allowed_split.mpr (.inr ⟨element, hmem, hunusable, hnames⟩))
  · intro h
    have hallow : isActionAllowed (parseGrantSet raw) request = .allow ↔
        ∃ element ∈ elements raw, ElementAllows element request := by
      rw [allowed_split]
      refine ⟨?_, .inl⟩
      intro hsplit
      rcases hsplit with hallows | ⟨element, hmem, hunusable, hnames⟩
      · exact hallows
      · exact h element hmem hunusable hnames
    refine ⟨hallow, ?_, ?_, ?_⟩
    · intro items hperm
      refine isActionAllowed_perm ?_
      rw [grants_parseGrantSet, grants_parseGrantSet]
      exact (hperm.filterMap _).symm
    · intro items hsubset hallowed
      obtain ⟨element, hmem, hgrant⟩ := allowed_iff.mp hallowed
      exact allowed_iff.mpr ⟨element, hsubset hmem, hgrant⟩
    · intro before element after heq hunusable hallowed
      obtain ⟨other, hmem, hallows⟩ := hallow.mp hallowed
      refine allowed_split.mpr (.inl ⟨other, ?_, hallows⟩)
      show other ∈ before ++ after
      rw [heq, List.mem_append, List.mem_cons] at hmem
      rcases hmem with hbefore | rfl | hafter
      · exact List.mem_append_left _ hbefore
      · exact absurd hunusable (not_unusable_of_allows hallows)
      · exact List.mem_append_right _ hafter

/-- A limit of a thousand bytes, written as a string. -/
def quotedLimit : Json :=
  .arr [.obj [("capability", .str "object.write"), ("scope", .str "shownotes/*"),
    ("limits", .obj [("max_payload_bytes", .str "1000")])]]

/-- With the limit in quotes a write of two thousand bytes is allowed. -/
theorem quoted_limit_allows :
    isActionAllowed (parseGrantSet quotedLimit) ⟨"object.write", "shownotes/a", 2000⟩ = .allow ∧
      ¬ DecidesByElement quotedLimit ⟨"object.write", "shownotes/a", 2000⟩ := by
  have hallowed : isActionAllowed (parseGrantSet quotedLimit)
      ⟨"object.write", "shownotes/a", 2000⟩ = .allow := by decide
  refine ⟨hallowed, ?_⟩
  intro h
  have hempty := h.unusable [] _ [] rfl ⟨.str "1000", rfl, rfl⟩ hallowed
  exact absurd hempty (by decide)

end Policy
end SecureAgnt

/-
Leases with an expiry, each under a key.

A requester draws an id, places its lease where the key has none or an expired one, and
holds a guard for it; a dropped guard is released later, by the key and the id, or never.
Any number of requesters do so at once, and each may stop anywhere.  `LeaseInv` is what
holds throughout: an unexpired lease whose guard is alive is still the one under its key.
-/
import Mathlib.Algebra.Order.Ring.Int
import Mathlib.Data.List.Nodup
import Mathlib.Data.Multiset.OrderedMonoid
import Mathlib.Data.Multiset.MapFold

namespace SecureAgnt
namespace Leasing

/-- What a lease says of itself. -/
structure LeaseView (α κ ι : Type) where
  key : α → κ
  id : α → ι
  expires : α → Int

/-- The leases in place, the clock, the leases whose guard is alive, those to be
released, and the ids: those drawn and not placed yet, and all drawn so far. -/
structure LeaseState (α ι : Type) where
  rows : List α
  clock : Int
  guards : Multiset α
  releases : Multiset α
  pending : Multiset ι
  issued : List ι

variable {α κ ι : Type} {V : LeaseView α κ ι} {s s' : LeaseState α ι}

/-- The leases a guard or a release speaks for. -/
def LeaseState.held (s : LeaseState α ι) : Multiset α := s.guards + s.releases

inductive LeaseStep [DecidableEq κ] [DecidableEq ι] (V : LeaseView α κ ι) (s s' : LeaseState α ι) :
    Prop
  /-- Time passes, requesters stop, guards are dropped, releases are lost. -/
  | weaken (hrows : s'.rows = s.rows) (hclock : s.clock ≤ s'.clock)
      (hguards : s'.guards ≤ s.guards)
      (hheld : s'.held ≤ s.held) (hpending : s'.pending ≤ s.pending)
      (hissued : s'.issued = s.issued) : LeaseStep V s s'
  | draw (id : ι) (hfresh : id ∉ s.issued) (hrows : s'.rows = s.rows)
      (hclock : s'.clock = s.clock) (hguards : s'.guards = s.guards)
      (hreleases : s'.releases = s.releases) (hpending : s'.pending = id ::ₘ s.pending)
      (hissued : s'.issued = id :: s.issued) : LeaseStep V s s'
  /-- The requester of a lease that is placed gets a guard for it, or an error. -/
  | place (lease : α)
      (hfree : ∀ row ∈ s.rows, V.key row = V.key lease → V.expires row ≤ s.clock)
      (hrows : s'.rows.Perm (lease :: s.rows.filter fun row => V.key row ≠ V.key lease))
      (hclock : s'.clock = s.clock)
      (hguards : s'.guards = s.guards ∨ s'.guards = lease ::ₘ s.guards)
      (hreleases : s'.releases = s.releases)
      (hpending : s.pending = V.id lease ::ₘ s'.pending) (hissued : s'.issued = s.issued) :
      LeaseStep V s s'
  | release (lease : α)
      (hrows : s'.rows = s.rows.filter fun row =>
        ¬ (V.key row = V.key lease ∧ V.id row = V.id lease))
      (hclock : s'.clock = s.clock) (hguards : s'.guards = s.guards)
      (hreleases : s.releases = lease ::ₘ s'.releases) (hpending : s'.pending = s.pending)
      (hissued : s'.issued = s.issued) : LeaseStep V s s'

structure LeaseInv (V : LeaseView α κ ι) (s : LeaseState α ι) : Prop where
  tokens : (s.held.map V.id + s.pending).Nodup
  known : ∀ id ∈ s.held.map V.id + s.pending, id ∈ s.issued
  ids : (s.rows.map V.id).Nodup
  known_rows : ∀ row ∈ s.rows, V.id row ∈ s.issued
  unplaced : ∀ row ∈ s.rows, V.id row ∉ s.pending
  same : ∀ row ∈ s.rows, ∀ lease ∈ s.held, V.id row = V.id lease → row = lease
  kept : ∀ lease ∈ s.guards, s.clock < V.expires lease → lease ∈ s.rows

theorem leaseInv_of_weaken (hinv : LeaseInv V s) (hrows : s'.rows = s.rows)
    (hclock : s.clock ≤ s'.clock) (hguards : s'.guards ≤ s.guards) (hheld : s'.held ≤ s.held)
    (hpending : s'.pending ≤ s.pending) (hissued : s'.issued = s.issued) : LeaseInv V s' := by
  have htokens : s'.held.map V.id + s'.pending ≤ s.held.map V.id + s.pending :=
    add_le_add (Multiset.map_le_map hheld) hpending
  constructor
  · exact Multiset.nodup_of_le htokens hinv.tokens
  · intro id hid
    rw [hissued]
    exact hinv.known id (Multiset.mem_of_le htokens hid)
  · rw [hrows]
    exact hinv.ids
  · rw [hrows, hissued]
    exact hinv.known_rows
  · intro row hrow hid
    exact hinv.unplaced row (hrows ▸ hrow) (Multiset.mem_of_le hpending hid)
  · intro row hrow lease hlease
    exact hinv.same row (hrows ▸ hrow) lease (Multiset.mem_of_le hheld hlease)
  · intro lease hlease hunexpired
    rw [hrows]
    exact hinv.kept lease (Multiset.mem_of_le hguards hlease) (by omega)

theorem leaseInv_of_draw {id : ι} (hinv : LeaseInv V s) (hfresh : id ∉ s.issued) :
    LeaseInv V { s with pending := id ::ₘ s.pending, issued := id :: s.issued } := by
  have htokens : s.held.map V.id + id ::ₘ s.pending = id ::ₘ (s.held.map V.id + s.pending) :=
    Multiset.add_cons ..
  constructor
  · show (s.held.map V.id + id ::ₘ s.pending).Nodup
    rw [htokens, Multiset.nodup_cons]
    exact ⟨fun hid => hfresh (hinv.known id hid), hinv.tokens⟩
  · show ∀ id' ∈ s.held.map V.id + id ::ₘ s.pending, id' ∈ id :: s.issued
    intro id' hid'
    rw [htokens, Multiset.mem_cons] at hid'
    rcases hid' with rfl | hid'
    · exact List.mem_cons_self
    · exact List.mem_cons_of_mem _ (hinv.known id' hid')
  · exact hinv.ids
  · intro row hrow
    exact List.mem_cons_of_mem _ (hinv.known_rows row hrow)
  · intro row hrow hid
    rcases Multiset.mem_cons.mp hid with hid | hid
    · exact hfresh (hid ▸ hinv.known_rows row hrow)
    · exact hinv.unplaced row hrow hid
  · exact hinv.same
  · exact hinv.kept

section Place

variable [DecidableEq κ] {lease : α}

/-- The requester of the lease has gone. -/
theorem leaseInv_of_place (hinv : LeaseInv V s)
    (hfree : ∀ row ∈ s.rows, V.key row = V.key lease → V.expires row ≤ s.clock)
    (hrows : s'.rows.Perm (lease :: s.rows.filter fun row => V.key row ≠ V.key lease))
    (hclock : s'.clock = s.clock) (hguards : s'.guards = s.guards)
    (hreleases : s'.releases = s.releases) (hpending : s.pending = V.id lease ::ₘ s'.pending)
    (hissued : s'.issued = s.issued) : LeaseInv V s' := by
  have hheld : s'.held = s.held := by rw [LeaseState.held, hguards, hreleases, LeaseState.held]
  have hall : s.held.map V.id + s.pending = V.id lease ::ₘ (s'.held.map V.id + s'.pending) := by
    rw [hpending, hheld, Multiset.add_cons]
  have htokens := hinv.tokens
  rw [hall, Multiset.nodup_cons] at htokens
  have hmem : ∀ row, row ∈ s'.rows → row = lease ∨ row ∈ s.rows := by
    intro row hrow
    rcases List.mem_cons.mp (hrows.mem_iff.mp hrow) with hrow | hrow
    · exact .inl hrow
    · exact .inr (List.mem_of_mem_filter hrow)
  constructor
  · exact htokens.2
  · intro id hid
    rw [hissued]
    exact hinv.known id (hall ▸ Multiset.mem_cons_of_mem hid)
  · rw [(hrows.map V.id).nodup_iff, List.map_cons, List.nodup_cons]
    refine ⟨fun hid => ?_, hinv.ids.sublist (List.filter_sublist.map _)⟩
    obtain ⟨row, hrow, hid⟩ := List.mem_map.mp hid
    refine hinv.unplaced row (List.mem_of_mem_filter hrow) ?_
    rw [hid, hpending]
    exact Multiset.mem_cons_self _ _
  · intro row hrow
    rw [hissued]
    rcases hmem row hrow with rfl | hrow
    · exact hinv.known _ (hall ▸ Multiset.mem_cons_self _ _)
    · exact hinv.known_rows row hrow
  · intro row hrow hid
    rcases hmem row hrow with rfl | hrow
    · exact htokens.1 (Multiset.mem_add.mpr (.inr hid))
    · exact hinv.unplaced row hrow (hpending ▸ Multiset.mem_cons_of_mem hid)
  · intro row hrow lease' hlease' hid
    rcases hmem row hrow with rfl | hrow
    · refine absurd (Multiset.mem_add.mpr (.inl ?_)) htokens.1
      exact hid ▸ Multiset.mem_map_of_mem V.id hlease'
    · exact hinv.same row hrow lease' (hheld ▸ hlease') hid
  · intro lease' hlease' hunexpired
    rw [hclock] at hunexpired
    have hrow := hinv.kept lease' (hguards ▸ hlease') hunexpired
    refine hrows.mem_iff.mpr (List.mem_cons_of_mem _ (List.mem_filter.mpr ⟨hrow, ?_⟩))
    -- what is overwritten has expired
    refine decide_eq_true fun hkey => ?_
    have := hfree lease' hrow hkey
    omega

omit [DecidableEq κ] in
/-- A lease that is in place and whose id nobody holds gets its guard. -/
theorem leaseInv_of_guard (hinv : LeaseInv V s) (hrow : lease ∈ s.rows)
    (hid : V.id lease ∉ s.held.map V.id) :
    LeaseInv V { s with guards := lease ::ₘ s.guards } := by
  have hheld : LeaseState.held { s with guards := lease ::ₘ s.guards } = lease ::ₘ s.held :=
    Multiset.cons_add ..
  constructor
  · rw [hheld, Multiset.map_cons, Multiset.cons_add, Multiset.nodup_cons]
    refine ⟨fun hmem => ?_, hinv.tokens⟩
    rcases Multiset.mem_add.mp hmem with hmem | hmem
    · exact hid hmem
    · exact hinv.unplaced lease hrow hmem
  · intro id' hid'
    rw [hheld, Multiset.map_cons, Multiset.cons_add, Multiset.mem_cons] at hid'
    rcases hid' with rfl | hid'
    · exact hinv.known_rows lease hrow
    · exact hinv.known id' hid'
  · exact hinv.ids
  · exact hinv.known_rows
  · exact hinv.unplaced
  · intro row hmem lease' hlease' hsame
    rw [hheld, Multiset.mem_cons] at hlease'
    rcases hlease' with rfl | hlease'
    · exact List.inj_on_of_nodup_map hinv.ids hmem hrow hsame
    · exact hinv.same row hmem lease' hlease' hsame
  · intro lease' hlease' hunexpired
    rcases Multiset.mem_cons.mp hlease' with rfl | hlease'
    · exact hrow
    · exact hinv.kept lease' hlease' hunexpired

end Place

section Steps

variable [DecidableEq κ] [DecidableEq ι]

theorem leaseInv_of_release {lease : α} (hinv : LeaseInv V s)
    (hrows : s'.rows = s.rows.filter fun row =>
      ¬ (V.key row = V.key lease ∧ V.id row = V.id lease))
    (hclock : s'.clock = s.clock) (hguards : s'.guards = s.guards)
    (hreleases : s.releases = lease ::ₘ s'.releases) (hpending : s'.pending = s.pending)
    (hissued : s'.issued = s.issued) : LeaseInv V s' := by
  have hheld : s.held = lease ::ₘ s'.held := by
    rw [LeaseState.held, hreleases, Multiset.add_cons, LeaseState.held, hguards]
  have hall : s.held.map V.id + s.pending = V.id lease ::ₘ (s'.held.map V.id + s'.pending) := by
    rw [hheld, Multiset.map_cons, Multiset.cons_add, hpending]
  have htokens := hinv.tokens
  rw [hall, Multiset.nodup_cons] at htokens
  have hmem : ∀ row ∈ s'.rows, row ∈ s.rows := fun row hrow =>
    List.mem_of_mem_filter (hrows ▸ hrow)
  constructor
  · exact htokens.2
  · intro id hid
    rw [hissued]
    exact hinv.known id (hall ▸ Multiset.mem_cons_of_mem hid)
  · rw [hrows]
    exact hinv.ids.sublist (List.filter_sublist.map _)
  · intro row hrow
    rw [hissued]
    exact hinv.known_rows row (hmem row hrow)
  · intro row hrow hid
    exact hinv.unplaced row (hmem row hrow) (hpending ▸ hid)
  · intro row hrow lease' hlease'
    exact hinv.same row (hmem row hrow) lease' (hheld ▸ Multiset.mem_cons_of_mem hlease')
  · intro lease' hlease' hunexpired
    rw [hrows]
    refine List.mem_filter.mpr ⟨hinv.kept lease' (hguards ▸ hlease') (hclock ▸ hunexpired), ?_⟩
    -- a lease with a live guard has another id than the one released
    refine decide_eq_true fun hsame => htokens.1 (Multiset.mem_add.mpr (.inl ?_))
    rw [← hsame.2]
    exact Multiset.mem_map_of_mem V.id (Multiset.mem_add.mpr (.inl hlease'))

theorem leaseInv_of_step (hinv : LeaseInv V s) (h : LeaseStep V s s') : LeaseInv V s' := by
  cases h with
  | weaken hrows hclock hguards hheld hpending hissued =>
    exact leaseInv_of_weaken hinv hrows hclock hguards hheld hpending hissued
  | draw id hfresh hrows hclock hguards hreleases hpending hissued =>
    obtain ⟨rows, clock, guards, releases, pending, issued⟩ := s'
    cases hrows
    cases hclock
    cases hguards
    cases hreleases
    cases hpending
    cases hissued
    exact leaseInv_of_draw hinv hfresh
  | place lease hfree hrows hclock hguards hreleases hpending hissued =>
    rcases hguards with hguards | hguards
    · exact leaseInv_of_place hinv hfree hrows hclock hguards hreleases hpending hissued
    · have hplaced : LeaseInv V { s' with guards := s.guards } :=
        leaseInv_of_place hinv hfree hrows hclock rfl hreleases hpending hissued
      have hid : V.id lease ∉ (s.guards + s'.releases).map V.id := by
        intro hid
        have htokens := hinv.tokens
        rw [hpending, Multiset.add_cons, Multiset.nodup_cons] at htokens
        refine htokens.1 (Multiset.mem_add.mpr (.inl ?_))
        rw [LeaseState.held, ← hreleases]
        exact hid
      have hguarded := leaseInv_of_guard hplaced (hrows.mem_iff.mpr List.mem_cons_self) hid
      rwa [← hguards] at hguarded
  | release lease hrows hclock hguards hreleases hpending hissued =>
    exact leaseInv_of_release hinv hrows hclock hguards hreleases hpending hissued

end Steps

end Leasing
end SecureAgnt

/-
Rows linked by their digests.

Every row of a chain carries its place, the hash of the row before it and its own
hash, which is the digest of its contents.  `linked_filter_iff` says which rows can
be taken out of a chain, and `forall₂_of_linked` that the last hash of a chain
determines what the digests of all its rows determine.
-/
import Mathlib.Data.List.Basic
import Mathlib.Data.List.Forall2
import Mathlib.Data.List.Induction
import Mathlib.Algebra.Order.Ring.Int

namespace SecureAgnt

/-- What a chain looks at in its rows. -/
structure ChainView (α H : Type) where
  seq : α → Int
  prev : α → H
  hash : α → H
  digest : α → H

namespace ChainView

variable {α H : Type} (V : ChainView α H)

def ValidAt (p : H) (n : Int) (r : α) : Prop :=
  V.seq r = n ∧ V.prev r = p ∧ V.hash r = V.digest r

/-- The rows are numbered from `n`, and the first comes after the hash `p`. -/
def Linked : H → Int → List α → Prop
  | _, _, [] => True
  | p, n, r :: rest => V.ValidAt p n r ∧ Linked (V.hash r) (n + 1) rest

/-- The hash that the next row comes after. -/
def lastHash (p : H) (rows : List α) : H := (rows.getLast?.map V.hash).getD p

variable {V} {p : H} {n : Int} {rows : List α} {r : α}

theorem lastHash_concat : V.lastHash p (rows ++ [r]) = V.hash r := by
  simp [lastHash]

theorem lastHash_cons : V.lastHash p (r :: rows) = V.lastHash (V.hash r) rows := by
  cases rows with
  | nil => rfl
  | cons r' rows =>
    have hsome : (r' :: rows).getLast?.isSome := by simp
    obtain ⟨last, hlast⟩ := Option.isSome_iff_exists.mp hsome
    simp [lastHash, List.getLast?_cons_cons, hlast]

theorem linked_concat : V.Linked p n (rows ++ [r]) ↔
    V.Linked p n rows ∧ V.ValidAt (V.lastHash p rows) (n + rows.length) r := by
  induction rows generalizing p n with
  | nil => simp [Linked, lastHash]
  | cons r' rows ih =>
    have hplace : n + 1 + (rows.length : Int) = n + ((r' :: rows).length : Nat) := by
      rw [List.length_cons]
      omega
    rw [List.cons_append, Linked, ih, Linked, lastHash_cons, and_assoc, hplace]

theorem le_seq_of_linked (h : V.Linked p n rows) : ∀ r ∈ rows, n ≤ V.seq r := by
  induction rows generalizing p n with
  | nil => exact fun r hr => nomatch hr
  | cons r' rows ih =>
    intro r hr
    rcases List.mem_cons.mp hr with hr | hr
    · rw [hr, h.1.1]
    · have hlater := ih h.2 r hr
      omega

theorem pairwise_seq_of_linked (h : V.Linked p n rows) :
    rows.Pairwise fun r r' => V.seq r < V.seq r' := by
  induction rows generalizing p n with
  | nil => exact .nil
  | cons r rows ih =>
    refine List.pairwise_cons.mpr ⟨?_, ih h.2⟩
    intro r' hr'
    have hfirst := h.1.1
    have hlater := le_seq_of_linked h.2 r' hr'
    omega

/-- The view that takes every hash for its own digest, so that only the places and the
hashes of neighbours are looked at. -/
def links (V : ChainView α H) : ChainView α H := { V with digest := V.hash }

theorem linked_iff_links :
    V.Linked p n rows ↔ V.links.Linked p n rows ∧ ∀ r ∈ rows, V.hash r = V.digest r := by
  induction rows generalizing p n with
  | nil => simp [Linked]
  | cons r rest ih =>
    rw [Linked, Linked, ih, List.forall_mem_cons]
    show (_ ∧ _ ∧ _) ∧ _ ∧ _ ↔ ((_ ∧ _ ∧ V.hash r = V.hash r) ∧ _) ∧ _ ∧ _
    constructor
    · intro h
      exact ⟨⟨⟨h.1.1, h.1.2.1, rfl⟩, h.2.1⟩, h.1.2.2, h.2.2⟩
    · intro h
      exact ⟨⟨h.1.1.1, h.1.1.2.1, h.2.1⟩, h.1.2, h.2.2⟩

/-- Rows in the order of their places are a chain in no other order. -/
theorem eq_of_linked_of_perm {rows' : List α} (h : V.Linked p n rows) (hperm : rows'.Perm rows)
    (hsorted : rows'.Pairwise fun r r' => V.seq r ≤ V.seq r') : rows' = rows := by
  have hlt := pairwise_seq_of_linked h
  have hnodup : (rows'.map V.seq).Nodup := by
    rw [(hperm.map V.seq).nodup_iff, List.Nodup, List.pairwise_map]
    exact hlt.imp fun hr => by omega
  have hlt' : rows'.Pairwise fun r r' => V.seq r < V.seq r' := by
    rw [List.Nodup, List.pairwise_map] at hnodup
    exact hsorted.imp₂ (fun _ _ hle hne => by omega) hnodup
  refine hperm.eq_of_pairwise ?_ hlt' hlt
  intro r r' _ _ hr hr'
  omega

/-- Rows can be taken out of a chain only from its end. -/
theorem linked_filter_iff {keep : α → Bool} (h : V.Linked p n rows) :
    V.Linked p n (rows.filter keep) ↔
      ∀ r ∈ rows, keep r = true → ∀ r' ∈ rows, keep r' = false → V.seq r < V.seq r' := by
  induction rows generalizing p n with
  | nil => simp [Linked]
  | cons first rest ih =>
    have hfirst := h.1.1
    have hlater := le_seq_of_linked h.2
    by_cases hkeep : keep first = true
    · rw [List.filter_cons_of_pos hkeep, Linked, ih h.2]
      constructor
      · intro hrest r hr hk r' hr' hk'
        rcases List.mem_cons.mp hr' with hr' | hr'
        · rw [hr', hkeep] at hk'
          cases hk'
        rcases List.mem_cons.mp hr with hr | hr
        · have hge := hlater r' hr'
          rw [hr]
          omega
        · exact hrest.2 r hr hk r' hr' hk'
      · intro hall
        refine ⟨h.1, ?_⟩
        intro r hr hk r' hr' hk'
        exact hall r (List.mem_cons_of_mem _ hr) hk r' (List.mem_cons_of_mem _ hr') hk'
    · rw [List.filter_cons_of_neg hkeep]
      constructor
      · -- the first row is gone, so the number `n` is missing from what is left
        intro hlinked r hr hk
        have hmem : r ∈ rest.filter keep := by
          rcases List.mem_cons.mp hr with hr | hr
          · exact absurd (hr ▸ hk) hkeep
          · exact List.mem_filter.mpr ⟨hr, hk⟩
        cases hkept : rest.filter keep with
        | nil =>
          rw [hkept] at hmem
          cases hmem
        | cons r₀ kept =>
          rw [hkept] at hlinked
          have hstart := hlinked.1.1
          have hr₀ : r₀ ∈ rest := List.mem_of_mem_filter (hkept ▸ List.mem_cons_self)
          have hge := hlater r₀ hr₀
          omega
      · intro hall
        have hnil : rest.filter keep = [] := by
          refine List.filter_eq_nil_iff.mpr ?_
          intro r hr hk
          have hlt := hall r (List.mem_cons_of_mem _ hr) hk first List.mem_cons_self
            (Bool.eq_false_iff.mpr hkeep)
          have hge := hlater r hr
          omega
        rw [hnil]
        trivial

/-- Every row but the first comes after a digest of the chain. -/
theorem prev_of_linked (h : V.Linked p n rows) :
    ∀ r ∈ rows, V.prev r = p ∨ ∃ r' ∈ rows, V.prev r = V.digest r' := by
  induction rows generalizing p n with
  | nil => exact fun r hr => nomatch hr
  | cons first rest ih =>
    intro r hr
    rcases List.mem_cons.mp hr with hr | hr
    · exact .inl (hr ▸ h.1.2.1)
    · rcases ih h.2 r hr with hprev | ⟨r', hr', hprev⟩
      · exact .inr ⟨first, List.mem_cons_self, hprev.trans h.1.2.2⟩
      · exact .inr ⟨r', List.mem_cons_of_mem _ hr', hprev⟩

/-- Only the first row comes after the hash `p`. -/
theorem digest_of_linked (h : V.Linked p n rows) {r : α} (hr : r ∈ rows) (hseq : V.seq r ≠ n) :
    ∃ r' ∈ rows, V.prev r = V.digest r' := by
  cases rows with
  | nil => cases hr
  | cons first rest =>
    rcases List.mem_cons.mp hr with hr | hr
    · exact absurd (hr ▸ h.1.1) hseq
    · rcases prev_of_linked h.2 r hr with hprev | ⟨r', hr', hprev⟩
      · exact ⟨first, List.mem_cons_self, hprev.trans h.1.2.2⟩
      · exact ⟨r', List.mem_cons_of_mem _ hr', hprev⟩

theorem prev_of_first (h : V.Linked p n rows) {r : α} (hr : r ∈ rows) (hseq : V.seq r = n) :
    V.prev r = p := by
  cases rows with
  | nil => cases hr
  | cons first rest =>
    rcases List.mem_cons.mp hr with hr | hr
    · exact hr ▸ h.1.2.1
    · have hlater := le_seq_of_linked h.2 r hr
      omega

/-- Two chains of one length that end in one hash are related row by row, where rows
of one place and digest are related and related rows come after one hash. -/
theorem forall₂_of_linked {S : α → α → Prop} {xs ys : List α}
    (hdigest : ∀ x ∈ xs, ∀ y ∈ ys, V.seq x = V.seq y → V.digest x = V.digest y → S x y)
    (hprev : ∀ x y, S x y → V.prev x = V.prev y)
    (hxs : V.Linked p n xs) (hys : V.Linked p n ys) (hlength : xs.length = ys.length)
    (hlast : V.lastHash p xs = V.lastHash p ys) :
    List.Forall₂ (fun x y => V.seq x = V.seq y ∧ S x y) xs ys := by
  induction xs using List.reverseRecOn generalizing ys with
  | nil =>
    rw [List.length_nil] at hlength
    rw [List.eq_nil_of_length_eq_zero hlength.symm]
    exact .nil
  | append_singleton xs x ih =>
    obtain ⟨ys, y, rfl⟩ : ∃ init y, ys = init ++ [y] := by
      rcases List.eq_nil_or_concat ys with hnil | ⟨init, y, hys⟩
      · rw [hnil] at hlength
        simp at hlength
      · exact ⟨init, y, by rw [hys, List.concat_eq_append]⟩
    rw [lastHash_concat, lastHash_concat] at hlast
    obtain ⟨hxs, hx⟩ := linked_concat.mp hxs
    obtain ⟨hys, hy⟩ := linked_concat.mp hys
    have hlength' : xs.length = ys.length := by simpa using hlength
    have hseq : V.seq x = V.seq y := by rw [hx.1, hy.1, hlength']
    have hsame : V.digest x = V.digest y := by
      rw [← hx.2.2, ← hy.2.2, hlast]
    have hrelated : S x y := hdigest x (by simp) y (by simp) hseq hsame
    refine List.rel_append ?_ (.cons ⟨hseq, hrelated⟩ .nil)
    refine ih ?_ hxs hys hlength' ?_
    · intro x' hx' y' hy'
      exact hdigest x' (List.mem_append_left _ hx') y' (List.mem_append_left _ hy')
    · rw [← hx.2.1, ← hy.2.1, hprev x y hrelated]

end ChainView
end SecureAgnt

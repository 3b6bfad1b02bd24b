/-
Transactions with exclusive locks over a store with unique indexes.

The writes of a session wait in its open transaction until the commit applies them
to the store at once.  What one open transaction holds no other can hold.  A write
that adds entries to a unique index holds them and finds them absent, so they are
still absent when it is committed: `TxInv` holds along every run.
-/
import Mathlib.Data.List.Perm.Basic
import Mathlib.Data.List.Nodup
import Mathlib.Logic.Function.Basic
import Mathlib.Logic.Relation

namespace SecureAgnt

structure Tx (W R : Type) where
  writes : List W
  holds : List R

/-- What a write does to the store, and the entries of the store's unique indexes. -/
structure TxStore (σ W R : Type) where
  apply : W → σ → σ
  entries : σ → List R
  adds : W → List R
  entries_apply : ∀ x s, (entries (apply x s)).Perm (entries s ++ adds x)

structure TxWorld (σ W R : Type) where
  db : σ
  sessions : Nat → Option (Tx W R)

namespace TxStore

variable {σ W R : Type} (M : TxStore σ W R)

/-- The store after the writes, in order. -/
def run (writes : List W) (s : σ) : σ := writes.foldl (fun s x => M.apply x s) s

def added (writes : List W) : List R := writes.flatMap M.adds

theorem run_append (writes : List W) (x : W) (s : σ) :
    M.run (writes ++ [x]) s = M.apply x (M.run writes s) := List.foldl_concat ..

theorem added_append (writes : List W) (x : W) :
    M.added (writes ++ [x]) = M.added writes ++ M.adds x := by
  simp [added]

theorem entries_run (writes : List W) (s : σ) :
    (M.entries (M.run writes s)).Perm (M.entries s ++ M.added writes) := by
  induction writes generalizing s with
  | nil => simp [run, added]
  | cons x writes ih =>
    have hrest := ih (M.apply x s)
    have hfirst := M.entries_apply x s
    show (M.entries (M.run writes (M.apply x s))).Perm (M.entries s ++ (M.adds x ++ M.added writes))
    rw [← List.append_assoc]
    exact hrest.trans (hfirst.append_right _)

end TxStore

namespace TxWorld

variable {σ W R : Type}

def setSession (w : TxWorld σ W R) (i : Nat) (tx : Option (Tx W R)) : TxWorld σ W R :=
  { w with sessions := Function.update w.sessions i tx }

theorem setSession_same (w : TxWorld σ W R) (i : Nat) (tx : Option (Tx W R)) :
    (w.setSession i tx).sessions i = tx := Function.update_self ..

theorem setSession_other (w : TxWorld σ W R) {i j : Nat} (tx : Option (Tx W R)) (h : j ≠ i) :
    (w.setSession i tx).sessions j = w.sessions j := Function.update_of_ne h ..

theorem setSession_idem (w : TxWorld σ W R) (i : Nat) (tx tx' : Option (Tx W R)) :
    (w.setSession i tx).setSession i tx' = w.setSession i tx' := by
  unfold setSession
  rw [Function.update_idem]

/-- No other open transaction holds it. -/
def Free (w : TxWorld σ W R) (i : Nat) (r : R) : Prop :=
  ∀ j tx, j ≠ i → w.sessions j = some tx → r ∉ tx.holds

end TxWorld

/-- What a session can do. -/
inductive TxStep {σ W R : Type} (M : TxStore σ W R) (w : TxWorld σ W R) (i : Nat) :
    TxWorld σ W R → Prop
  | begin (h : w.sessions i = none) : TxStep M w i (w.setSession i (some ⟨[], []⟩))
  | hold {tx : Tx W R} (h : w.sessions i = some tx) (rs : List R) (hfree : ∀ r ∈ rs, w.Free i r) :
      TxStep M w i (w.setSession i (some ⟨tx.writes, tx.holds ++ rs⟩))
  | write {tx : Tx W R} (h : w.sessions i = some tx) (x : W)
      (hheld : ∀ r ∈ M.adds x, r ∈ tx.holds) (hnodup : (M.adds x).Nodup)
      (hnew : ∀ r ∈ M.adds x, r ∉ M.entries (M.run tx.writes w.db)) :
      TxStep M w i (w.setSession i (some ⟨tx.writes ++ [x], tx.holds⟩))
  | commit {tx : Tx W R} (h : w.sessions i = some tx) :
      TxStep M w i ({ w with db := M.run tx.writes w.db }.setSession i none)
  | drop : TxStep M w i (w.setSession i none)

/-- The indexes hold every entry once, and no two transactions can add the same. -/
structure TxInv {σ W R : Type} (M : TxStore σ W R) (w : TxWorld σ W R) : Prop where
  entries : (M.entries w.db).Nodup
  exclusive : ∀ i j tx tx', i ≠ j → w.sessions i = some tx → w.sessions j = some tx' →
    ∀ r ∈ tx.holds, r ∉ tx'.holds
  held : ∀ i tx, w.sessions i = some tx → ∀ r ∈ M.added tx.writes, r ∈ tx.holds
  pending : ∀ i tx, w.sessions i = some tx → (M.entries w.db ++ M.added tx.writes).Nodup

section Invariant

variable {σ W R : Type} {M : TxStore σ W R} {w w' : TxWorld σ W R} {i : Nat}

theorem TxInv.start {db : σ} (h : (M.entries db).Nodup) :
    TxInv M (⟨db, fun _ => none⟩ : TxWorld σ W R) :=
  ⟨h, nofun, nofun, nofun⟩

/-- A session is given a transaction that fits the others. -/
theorem TxInv.setSession (h : TxInv M w) {next : Option (Tx W R)}
    (hholds : ∀ tx, next = some tx → ∀ r ∈ tx.holds, w.Free i r)
    (hheld : ∀ tx, next = some tx → ∀ r ∈ M.added tx.writes, r ∈ tx.holds)
    (hpending : ∀ tx, next = some tx → (M.entries w.db ++ M.added tx.writes).Nodup) :
    TxInv M (w.setSession i next) := by
  refine ⟨h.entries, ?_, ?_, ?_⟩
  · intro j k tx tx' hne hj hk r hr hr'
    by_cases hji : j = i
    · subst hji
      rw [w.setSession_same] at hj
      rw [w.setSession_other next hne.symm] at hk
      exact hholds tx hj r hr k tx' hne.symm hk hr'
    · rw [w.setSession_other next hji] at hj
      by_cases hki : k = i
      · subst hki
        rw [w.setSession_same] at hk
        exact hholds tx' hk r hr' j tx hji hj hr
      · rw [w.setSession_other next hki] at hk
        exact h.exclusive j k tx tx' hne hj hk r hr hr'
  · intro j tx hj
    by_cases hji : j = i
    · subst hji
      rw [w.setSession_same] at hj
      exact hheld tx hj
    · rw [w.setSession_other next hji] at hj
      exact h.held j tx hj
  · intro j tx hj
    by_cases hji : j = i
    · subst hji
      rw [w.setSession_same] at hj
      exact hpending tx hj
    · rw [w.setSession_other next hji] at hj
      exact h.pending j tx hj

theorem TxInv.free (h : TxInv M w) {tx : Tx W R} (hi : w.sessions i = some tx) {r : R}
    (hr : r ∈ tx.holds) : w.Free i r :=
  fun j tx' hne hj => h.exclusive i j tx tx' hne.symm hi hj r hr

/-- The commit of one transaction leaves room for what the others add. -/
theorem TxInv.commit (h : TxInv M w) {tx : Tx W R} (hi : w.sessions i = some tx) :
    TxInv M ({ w with db := M.run tx.writes w.db }.setSession i none) := by
  have hperm := M.entries_run tx.writes w.db
  have hothers : ∀ j tx', ({ w with db := M.run tx.writes w.db }.setSession i none).sessions j =
      some tx' → j ≠ i ∧ w.sessions j = some tx' := by
    intro j tx' hj
    have hne : j ≠ i := by
      rintro rfl
      rw [TxWorld.setSession_same] at hj
      cases hj
    rw [TxWorld.setSession_other _ none hne] at hj
    exact ⟨hne, hj⟩
  refine ⟨hperm.nodup_iff.mpr (h.pending i tx hi), ?_, ?_, ?_⟩
  · intro j k tx₁ tx₂ hne hj hk
    exact h.exclusive j k tx₁ tx₂ hne (hothers j tx₁ hj).2 (hothers k tx₂ hk).2
  · intro j tx' hj
    exact h.held j tx' (hothers j tx' hj).2
  · intro j tx' hj
    obtain ⟨hne, hj⟩ := hothers j tx' hj
    have hfirst := h.pending i tx hi
    have hsecond := h.pending j tx' hj
    show (M.entries (M.run tx.writes w.db) ++ M.added tx'.writes).Nodup
    rw [(hperm.append_right _).nodup_iff, List.nodup_append]
    rw [List.nodup_append] at hsecond
    refine ⟨hfirst, hsecond.2.1, ?_⟩
    intro r hr r' hr' heq
    subst heq
    rcases List.mem_append.mp hr with hr | hr
    · exact hsecond.2.2 r hr r hr' rfl
    · exact h.exclusive i j tx tx' hne.symm hi hj r (h.held i tx hi r hr) (h.held j tx' hj r hr')

theorem txInv_step (h : TxInv M w) (hstep : TxStep M w i w') : TxInv M w' := by
  cases hstep with
  | begin hi =>
    apply h.setSession
    · intro tx htx r hr
      cases htx
      cases hr
    · intro tx htx r hr
      cases htx
      cases hr
    · intro tx htx
      cases htx
      rw [show M.added [] = [] from rfl, List.append_nil]
      exact h.entries
  | @hold tx hi rs hfree =>
    apply h.setSession
    · intro tx' htx r hr
      cases htx
      rcases List.mem_append.mp hr with hr | hr
      · exact h.free hi hr
      · exact hfree r hr
    · intro tx' htx r hr
      cases htx
      exact List.mem_append_left _ (h.held i tx hi r hr)
    · intro tx' htx
      cases htx
      exact h.pending i tx hi
  | @write tx hi x hheld hnodup hnew =>
    apply h.setSession
    · intro tx' htx r hr
      cases htx
      exact h.free hi hr
    · intro tx' htx r hr
      cases htx
      rw [M.added_append] at hr
      rcases List.mem_append.mp hr with hr | hr
      · exact h.held i tx hi r hr
      · exact hheld r hr
    · intro tx' htx
      cases htx
      rw [M.added_append, ← List.append_assoc, List.nodup_append]
      refine ⟨h.pending i tx hi, hnodup, ?_⟩
      intro r hr r' hr' heq
      subst heq
      exact hnew r hr' ((M.entries_run tx.writes w.db).mem_iff.mpr hr)
  | commit hi => exact h.commit hi
  | drop => exact h.setSession nofun nofun nofun

end Invariant

end SecureAgnt

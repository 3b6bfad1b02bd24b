/-
Logs of events about several things.

Every event of a log is about one key.  A log is orderly when, key by key, each event
may follow the one before it.  `orderly_concat` extends an orderly log, and
`between_of_orderly` finds what must lie between two events of one key.  `since` looks at
the events after the last one of a kind.
-/
import Mathlib.Data.List.Basic
import Mathlib.Data.List.Chain
import Mathlib.Data.List.Induction
import Mathlib.Algebra.Order.Ring.Int

namespace SecureAgnt
namespace Log

variable {ε κ : Type} [DecidableEq κ] {key : ε → κ} {follows : ε → ε → Prop} {log : List ε}
  {e e' : ε} {k : κ}

/-- The events about a key. -/
def about (key : ε → κ) (k : κ) (log : List ε) : List ε := log.filter fun e => key e = k

/-- The last event about a key. -/
def last (key : ε → κ) (k : κ) (log : List ε) : Option ε := (about key k log).getLast?

def Orderly (key : ε → κ) (follows : ε → ε → Prop) (log : List ε) : Prop :=
  ∀ k, (about key k log).IsChain follows

theorem about_append (k : κ) (log log' : List ε) :
    about key k (log ++ log') = about key k log ++ about key k log' := List.filter_append ..

theorem about_cons_same (log : List ε) : about key (key e) (e :: log) = e :: about key (key e) log :=
  List.filter_cons_of_pos (by simp)

theorem about_concat_same : about key (key e) (log ++ [e]) = about key (key e) log ++ [e] := by
  rw [about_append, about_cons_same]
  rfl

theorem about_concat_other (h : key e ≠ k) : about key k (log ++ [e]) = about key k log := by
  rw [about_append, about, about, List.filter_cons_of_neg (by simp [h]), List.filter_nil,
    List.append_nil]

theorem last_concat_same : last key (key e) (log ++ [e]) = some e := by
  rw [last, about_concat_same, List.getLast?_concat]

theorem last_concat_other (h : key e ≠ k) : last key k (log ++ [e]) = last key k log := by
  rw [last, about_concat_other h, last]

theorem key_of_last (h : last key k log = some e) : key e = k ∧ e ∈ log := by
  have hmem := List.mem_filter.mp (List.mem_of_getLast? h)
  exact ⟨by simpa using hmem.2, hmem.1⟩

theorem last_eq_none (h : ∀ e ∈ log, key e ≠ k) : last key k log = none := by
  have hnil : about key k log = [] := List.filter_eq_nil_iff.mpr fun e he => by simpa using h e he
  rw [last, hnil]
  rfl

theorem orderly_concat (h : Orderly key follows log)
    (hlast : ∀ prev, last key (key e) log = some prev → follows prev e) :
    Orderly key follows (log ++ [e]) := by
  intro k
  by_cases hk : key e = k
  · subst hk
    rw [about_concat_same]
    refine List.isChain_append.mpr ⟨h _, List.isChain_singleton e, ?_⟩
    intro x hx y hy
    have hy : e = y := by simpa using hy
    exact hy ▸ hlast x hx
  · rw [about_concat_other hk]
    exact h k

/-- The first event about a key. -/
theorem exists_first (h : ∃ e ∈ log, key e = k) :
    ∃ before e rest, log = before ++ e :: rest ∧ key e = k ∧ about key k before = [] := by
  induction log with
  | nil =>
    obtain ⟨e, hmem, _⟩ := h
    cases hmem
  | cons x log ih =>
    by_cases hx : key x = k
    · exact ⟨[], x, log, rfl, hx, rfl⟩
    · obtain ⟨e, hmem, hkey⟩ := h
      have hmem : e ∈ log := by
        rcases List.mem_cons.mp hmem with heq | hmem
        · exact absurd (heq ▸ hkey) hx
        · exact hmem
      obtain ⟨before, first, rest, hlog, hfirst, hbefore⟩ := ih ⟨e, hmem, hkey⟩
      refine ⟨x :: before, first, rest, by rw [hlog, List.cons_append], hfirst, ?_⟩
      rw [about, List.filter_cons_of_neg (by simpa using hx)]
      exact hbefore

/-- After an event, the next event of its key may follow it: either it is the one
looked at or it lies between. -/
theorem between_of_orderly {l₁ l₂ l₃ : List ε}
    (h : Orderly key follows (l₁ ++ e :: (l₂ ++ e' :: l₃))) (hkey : key e' = key e) :
    follows e e' ∨ ∃ before mid rest, l₂ = before ++ mid :: rest ∧ key mid = key e ∧
      follows e mid := by
  have hchain := h (key e)
  rw [about_append, about_cons_same, about_append] at hchain
  have hafter := (List.isChain_append.mp hchain).2.1
  by_cases hsome : ∃ mid ∈ l₂, key mid = key e
  · right
    obtain ⟨before, mid, rest, hl₂, hmid, hbefore⟩ := exists_first hsome
    refine ⟨before, mid, rest, hl₂, hmid, ?_⟩
    have hfirst : about key (key e) (mid :: rest) = mid :: about key (key e) rest := by
      rw [← hmid]
      exact about_cons_same rest
    rw [hl₂, about_append, hbefore, List.nil_append, hfirst, List.cons_append] at hafter
    exact (List.isChain_cons_cons.mp hafter).1
  · left
    have hnil : about key (key e) l₂ = [] := by
      refine List.filter_eq_nil_iff.mpr ?_
      intro x hx hkeyx
      exact hsome ⟨x, hx, by simpa using hkeyx⟩
    rw [hnil, List.nil_append, ← hkey, about_cons_same] at hafter
    exact (List.isChain_cons_cons.mp hafter).1

/-! ## The events since a mark -/

section Since

variable {mark counts : ε → Bool} {events : List ε}

/-- An event that counts has come since the last mark. -/
def since (mark counts : ε → Bool) (log : List ε) : Bool :=
  (log.reverse.takeWhile fun e => !mark e).any counts

theorem since_concat :
    since mark counts (log ++ [e]) = if mark e then false else counts e || since mark counts log := by
  rw [since, List.reverse_append, List.reverse_singleton, List.singleton_append,
    List.takeWhile_cons]
  cases mark e <;> rfl

/-- Where nothing counts after a while without marks, nothing did before. -/
theorem since_of_append (hmark : ∀ e ∈ events, mark e = false)
    (h : since mark counts (log ++ events) = false) : since mark counts log = false := by
  induction events using List.reverseRecOn with
  | nil => rwa [List.append_nil] at h
  | append_singleton events e ih =>
    have he := hmark e (List.mem_append_right _ List.mem_cons_self)
    rw [← List.append_assoc, since_concat, he, if_neg (by decide), Bool.or_eq_false_iff] at h
    exact ih (fun e' he' => hmark e' (List.mem_append_left _ he')) h.2

/-- Nothing among the events after a while without marks counts. -/
theorem not_counts_of_since (hmark : ∀ e ∈ events, mark e = false)
    (h : since mark counts (log ++ events) = false) : ∀ e ∈ events, counts e = false := by
  induction events using List.reverseRecOn with
  | nil => exact fun e he => absurd he List.not_mem_nil
  | append_singleton events e ih =>
    have he := hmark e (List.mem_append_right _ List.mem_cons_self)
    rw [← List.append_assoc, since_concat, he, if_neg (by decide), Bool.or_eq_false_iff] at h
    intro e' he'
    rcases List.mem_append.mp he' with he' | he'
    · exact ih (fun e'' he'' => hmark e'' (List.mem_append_left _ he'')) h.2 e' he'
    · rw [List.mem_singleton.mp he']
      exact h.1

end Since

end Log
end SecureAgnt

/-
Runs of composed programs.

A run of a sequence is a run of its first part followed by a run of the rest, and
a run of an attempted program is one of the program itself.  With these a long
program's runs are read off its parts, call by call.
-/
import SecureAgnt.Lib.Prog

namespace SecureAgnt
namespace Prog

variable {Op : Type} {Ans : Op → Type} {ε α β : Type}
  {trace : List ((op : Op) × Ans op)} {r : Except ε β}

@[simp] theorem runs_pure_iff {a : α} {s : Except ε α} :
    (Prog.pure a : Prog Op Ans ε α).Runs trace s ↔ trace = [] ∧ s = .ok a := by
  constructor
  · intro h
    cases h
    exact ⟨rfl, rfl⟩
  · intro h
    rw [h.1, h.2]
    exact .pure a

@[simp] theorem runs_fail_iff {e : ε} {s : Except ε α} :
    (Prog.fail e : Prog Op Ans ε α).Runs trace s ↔ trace = [] ∧ s = .error e := by
  constructor
  · intro h
    cases h
    exact ⟨rfl, rfl⟩
  · intro h
    rw [h.1, h.2]
    exact .fail e

@[simp] theorem runs_ofExcept_iff {x s : Except ε α} :
    (ofExcept x : Prog Op Ans ε α).Runs trace s ↔ trace = [] ∧ s = x := by
  cases x with
  | ok a => exact runs_pure_iff
  | error e => exact runs_fail_iff

theorem runs_call_iff {op : Op} {k : Ans op → Prog Op Ans ε β} :
    (Prog.call op k).Runs trace r ↔
      ∃ answer rest, trace = ⟨op, answer⟩ :: rest ∧ (k answer).Runs rest r := by
  constructor
  · intro h
    cases h with
    | call answer hrest => exact ⟨answer, _, rfl, hrest⟩
  · intro h
    obtain ⟨answer, rest, htrace, hrest⟩ := h
    rw [htrace]
    exact .call answer hrest

/-- A sequence stops where its first part fails, or goes on from what it returns. -/
theorem runs_bind_iff {p : Prog Op Ans ε α} {f : α → Prog Op Ans ε β} :
    (p >>= f).Runs trace r ↔
      (∃ e, r = .error e ∧ p.Runs trace (.error e)) ∨
      ∃ a first rest, trace = first ++ rest ∧ p.Runs first (.ok a) ∧ (f a).Runs rest r := by
  show (p.bind f).Runs trace r ↔ _
  induction p generalizing trace with
  | pure a => simp [Prog.bind]
  | fail e => simp [Prog.bind, and_comm]
  | call op k ih =>
    simp only [Prog.bind, runs_call_iff, ih]
    constructor
    · intro h
      obtain ⟨answer, rest, htrace, h⟩ := h
      rcases h with ⟨e, he, hk⟩ | ⟨a, first, last, hrest, hk, hf⟩
      · exact .inl ⟨e, he, answer, rest, htrace, hk⟩
      · refine .inr ⟨a, ⟨op, answer⟩ :: first, last, ?_, ⟨answer, first, rfl, hk⟩, hf⟩
        rw [htrace, hrest]
        rfl
    · intro h
      rcases h with ⟨e, he, answer, rest, htrace, hk⟩ | ⟨a, first, last, htrace, hk, hf⟩
      · exact ⟨answer, rest, htrace, .inl ⟨e, he, hk⟩⟩
      · obtain ⟨answer, rest, hfirst, hk⟩ := hk
        refine ⟨answer, rest ++ last, ?_, .inr ⟨a, rest, last, rfl, hk, hf⟩⟩
        rw [htrace, hfirst]
        rfl

/-- A call, and what comes after it. -/
theorem runs_perform_bind_iff {op : Op} {f : Ans op → Prog Op Ans ε β} :
    (perform op >>= f).Runs trace r ↔
      ∃ answer rest, trace = ⟨op, answer⟩ :: rest ∧ (f answer).Runs rest r :=
  runs_call_iff

theorem runs_ofExcept_bind_iff {x : Except ε α} {f : α → Prog Op Ans ε β} :
    (ofExcept x >>= f).Runs trace r ↔
      (∃ e, x = .error e ∧ trace = [] ∧ r = .error e) ∨
      ∃ a, x = .ok a ∧ (f a).Runs trace r := by
  cases x with
  | ok a =>
    show (f a).Runs trace r ↔ _
    simp
  | error e =>
    show (Prog.fail e : Prog Op Ans ε β).Runs trace r ↔ _
    simp

theorem runs_attempt_iff {p : Prog Op Ans ε α} {s : Except ε (Except ε α)} :
    p.attempt.Runs trace s ↔ ∃ x, s = .ok x ∧ p.Runs trace x := by
  induction p generalizing trace with
  | pure a => simp [attempt, and_comm]
  | fail e => simp [attempt, and_comm]
  | call op k ih =>
    simp only [attempt, runs_call_iff, ih]
    constructor
    · intro h
      obtain ⟨answer, rest, htrace, x, hs, hk⟩ := h
      exact ⟨x, hs, answer, rest, htrace, hk⟩
    · intro h
      obtain ⟨x, hs, answer, rest, htrace, hk⟩ := h
      exact ⟨answer, rest, htrace, x, hs, hk⟩

/-- What a sequence goes through when it returns. -/
theorem runs_bind_ok_iff {p : Prog Op Ans ε α} {f : α → Prog Op Ans ε β} {b : β} :
    (p >>= f).Runs trace (.ok b) ↔
      ∃ a first rest, trace = first ++ rest ∧ p.Runs first (.ok a) ∧ (f a).Runs rest (.ok b) := by
  simp [runs_bind_iff]

/-- A call of a run is one the program can reach. -/
theorem issues_of_runs {p : Prog Op Ans ε β} {op : Op} {answer : Ans op} (h : p.Runs trace r)
    (hmem : ⟨op, answer⟩ ∈ trace) : p.Issues op := by
  induction h with
  | pure a => exact absurd hmem List.not_mem_nil
  | fail e => exact absurd hmem List.not_mem_nil
  | call given hrest ih =>
    rcases List.mem_cons.mp hmem with heq | hmem
    · cases heq
      exact .inl rfl
    · exact .inr ⟨given, ih hmem⟩

/-- The run against an environment that answers each call in its own way. -/
def answered (answer : (op : Op) → Ans op) :
    Prog Op Ans ε α → List ((op : Op) × Ans op) × Except ε α
  | .pure a => ([], .ok a)
  | .fail e => ([], .error e)
  | .call op k =>
    (⟨op, answer op⟩ :: ((k (answer op)).answered answer).1, ((k (answer op)).answered answer).2)

theorem runs_answered (answer : (op : Op) → Ans op) (p : Prog Op Ans ε α) :
    p.Runs (p.answered answer).1 (p.answered answer).2 := by
  induction p with
  | pure a => exact .pure a
  | fail e => exact .fail e
  | call op k ih => exact .call (answer op) (ih (answer op))

theorem answer_of_answered (answer : (op : Op) → Ans op) (p : Prog Op Ans ε α) :
    ∀ call ∈ (p.answered answer).1, call.2 = answer call.1 := by
  induction p with
  | pure a => exact fun call hmem => absurd hmem List.not_mem_nil
  | fail e => exact fun call hmem => absurd hmem List.not_mem_nil
  | call op k ih =>
    intro call hmem
    rcases List.mem_cons.mp hmem with rfl | hrest
    · rfl
    · exact ih (answer op) call hrest

end Prog
end SecureAgnt

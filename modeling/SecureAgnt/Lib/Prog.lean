/-
Programs that call an environment.

A `Prog` is a tree of calls: each call names an operation, and the program
continues with whatever answer the environment gives.  Nothing restricts the
answers here, so a statement about every run of a program is a statement about
every behaviour of its environment.

`Issues`, `Yields` and `Fails` say which operations a program can reach and how
it can end.  They are characterised through `bind` by equivalences, so what a
long program can do is computed from what its parts can do.
-/
import Mathlib.Algebra.Order.Ring.Int
import Mathlib.Data.List.Basic

namespace SecureAgnt

inductive Prog (Op : Type) (Ans : Op → Type) (ε α : Type) where
  | pure (a : α) : Prog Op Ans ε α
  | fail (e : ε) : Prog Op Ans ε α
  | call (op : Op) (k : Ans op → Prog Op Ans ε α) : Prog Op Ans ε α

namespace Prog

variable {Op : Type} {Ans : Op → Type} {ε α β : Type}

def bind : Prog Op Ans ε α → (α → Prog Op Ans ε β) → Prog Op Ans ε β
  | .pure a, f => f a
  | .fail e, _ => .fail e
  | .call op k, f => .call op fun r => (k r).bind f

instance : Monad (Prog Op Ans ε) where
  pure := Prog.pure
  bind := Prog.bind

theorem bind_assoc {γ : Type} (p : Prog Op Ans ε α) (f : α → Prog Op Ans ε β)
    (g : β → Prog Op Ans ε γ) : (p >>= f) >>= g = p >>= fun a => f a >>= g := by
  show (p.bind f).bind g = p.bind fun a => (f a).bind g
  induction p with
  | pure a => rfl
  | fail e => rfl
  | call op k ih => simp only [Prog.bind, ih]

/-- One call, returning its answer. -/
def perform (op : Op) : Prog Op Ans ε (Ans op) := .call op .pure

def ofExcept : Except ε α → Prog Op Ans ε α
  | .ok a => .pure a
  | .error e => .fail e

/-- Run a program and hand its failure to the caller as a value. -/
def attempt : Prog Op Ans ε α → Prog Op Ans ε (Except ε α)
  | .pure a => .pure (.ok a)
  | .fail e => .pure (.error e)
  | .call op k => .call op fun r => (k r).attempt

/-- The program in the name of one of several callers. -/
def tag {ι : Type} (i : ι) : Prog Op Ans ε α → Prog (ι × Op) (fun o => Ans o.2) ε α
  | .pure a => .pure a
  | .fail e => .fail e
  | .call op k => .call (i, op) fun r => (k r).tag i

/-! ## What a program can do -/

/-- Some run of the program calls `o`. -/
def Issues : Prog Op Ans ε α → Op → Prop
  | .pure _, _ => False
  | .fail _, _ => False
  | .call op k, o => op = o ∨ ∃ r, (k r).Issues o

/-- Some run of the program returns `a`. -/
def Yields : Prog Op Ans ε α → α → Prop
  | .pure b, a => b = a
  | .fail _, _ => False
  | .call _ k, a => ∃ r, (k r).Yields a

/-- Some run of the program fails with `e`. -/
def Fails : Prog Op Ans ε α → ε → Prop
  | .pure _, _ => False
  | .fail d, e => d = e
  | .call _ k, e => ∃ r, (k r).Fails e

/-- The program can end so. -/
def Ends (p : Prog Op Ans ε α) : Except ε α → Prop
  | .ok a => p.Yields a
  | .error e => p.Fails e

/-- A run: the calls it makes with their answers, in order, and how it ends. -/
inductive Runs : Prog Op Ans ε α → List ((op : Op) × Ans op) → Except ε α → Prop
  | pure (a : α) : Runs (.pure a) [] (.ok a)
  | fail (e : ε) : Runs (.fail e) [] (.error e)
  | call {op : Op} {k : Ans op → Prog Op Ans ε α} {trace : List ((op : Op) × Ans op)}
      {r : Except ε α} (answer : Ans op) (hrest : Runs (k answer) trace r) :
      Runs (.call op k) (⟨op, answer⟩ :: trace) r

section Reach

variable {o : Op} {a : α} {b : β} {e : ε}

@[simp] theorem issues_pure (x : α) : (Prog.pure x : Prog Op Ans ε α).Issues o ↔ False := Iff.rfl

@[simp] theorem yields_pure (x : α) : (Prog.pure x : Prog Op Ans ε α).Yields a ↔ x = a := Iff.rfl

@[simp] theorem fails_pure (x : α) : (Prog.pure x : Prog Op Ans ε α).Fails e ↔ False := Iff.rfl

@[simp] theorem issues_fail (d : ε) : (Prog.fail d : Prog Op Ans ε α).Issues o ↔ False := Iff.rfl

@[simp] theorem yields_fail (d : ε) : (Prog.fail d : Prog Op Ans ε α).Yields a ↔ False := Iff.rfl

@[simp] theorem fails_fail (d : ε) : (Prog.fail d : Prog Op Ans ε α).Fails e ↔ d = e := Iff.rfl

@[simp] theorem issues_perform (op : Op) :
    (perform op : Prog Op Ans ε (Ans op)).Issues o ↔ op = o := by
  simp [perform, Issues]

@[simp] theorem yields_perform (op : Op) (r : Ans op) :
    (perform op : Prog Op Ans ε (Ans op)).Yields r ↔ True := by
  simp [perform, Yields]

@[simp] theorem issues_ofExcept (x : Except ε α) :
    (ofExcept x : Prog Op Ans ε α).Issues o ↔ False := by
  cases x <;> rfl

@[simp] theorem yields_ofExcept (x : Except ε α) :
    (ofExcept x : Prog Op Ans ε α).Yields a ↔ x = .ok a := by
  cases x <;> simp [ofExcept]

/-- A sequence reaches what its first part reaches, and what its second part
reaches from a value the first can return. -/
@[simp] theorem issues_bind (p : Prog Op Ans ε α) (f : α → Prog Op Ans ε β) :
    (p >>= f).Issues o ↔ p.Issues o ∨ ∃ a, p.Yields a ∧ (f a).Issues o := by
  show (p.bind f).Issues o ↔ _
  induction p with
  | pure a => simp [Prog.bind, Issues, Yields]
  | fail e => simp [Prog.bind, Issues, Yields]
  | call op k ih =>
    simp only [Prog.bind, Issues, Yields, ih, exists_or]
    constructor
    · intro hx
      rcases hx with h | h | ⟨r, a, hy, hi⟩
      · exact .inl (.inl h)
      · exact .inl (.inr h)
      · exact .inr ⟨a, ⟨r, hy⟩, hi⟩
    · intro hx
      rcases hx with (h | h) | ⟨a, ⟨r, hy⟩, hi⟩
      · exact .inl h
      · exact .inr (.inl h)
      · exact .inr (.inr ⟨r, a, hy, hi⟩)

@[simp] theorem yields_bind (p : Prog Op Ans ε α) (f : α → Prog Op Ans ε β) :
    (p >>= f).Yields b ↔ ∃ a, p.Yields a ∧ (f a).Yields b := by
  show (p.bind f).Yields b ↔ _
  induction p with
  | pure a => simp [Prog.bind, Yields]
  | fail e => simp [Prog.bind, Yields]
  | call op k ih =>
    simp only [Prog.bind, Yields, ih]
    constructor
    · intro h
      obtain ⟨r, a, hy, hb⟩ := h
      exact ⟨a, ⟨r, hy⟩, hb⟩
    · intro h
      obtain ⟨a, ⟨r, hy⟩, hb⟩ := h
      exact ⟨r, a, hy, hb⟩

@[simp] theorem fails_bind (p : Prog Op Ans ε α) (f : α → Prog Op Ans ε β) :
    (p >>= f).Fails e ↔ p.Fails e ∨ ∃ a, p.Yields a ∧ (f a).Fails e := by
  show (p.bind f).Fails e ↔ _
  induction p with
  | pure a => simp [Prog.bind, Yields, Fails]
  | fail e => simp [Prog.bind, Yields, Fails]
  | call op k ih =>
    simp only [Prog.bind, Fails, Yields, ih, exists_or]
    constructor
    · intro hx
      rcases hx with h | ⟨r, a, hy, hf⟩
      · exact .inl h
      · exact .inr ⟨a, ⟨r, hy⟩, hf⟩
    · intro hx
      rcases hx with h | ⟨a, ⟨r, hy⟩, hf⟩
      · exact .inl h
      · exact .inr ⟨r, a, hy, hf⟩

@[simp] theorem issues_attempt (p : Prog Op Ans ε α) : p.attempt.Issues o ↔ p.Issues o := by
  induction p with
  | pure a => rfl
  | fail e => rfl
  | call op k ih => simp only [attempt, Issues, ih]

@[simp] theorem yields_attempt_ok (p : Prog Op Ans ε α) :
    p.attempt.Yields (.ok a) ↔ p.Yields a := by
  induction p with
  | pure a => simp [attempt, Yields]
  | fail e => simp [attempt, Yields]
  | call op k ih => simp only [attempt, Yields, ih]

@[simp] theorem yields_attempt_error (p : Prog Op Ans ε α) :
    p.attempt.Yields (.error e) ↔ p.Fails e := by
  induction p with
  | pure a => simp [attempt, Fails]
  | fail e => simp [attempt, Fails]
  | call op k ih => simp only [attempt, Yields, Fails, ih]

@[simp] theorem fails_attempt (p : Prog Op Ans ε α) : p.attempt.Fails e ↔ False := by
  induction p with
  | pure a => rfl
  | fail e => rfl
  | call op k ih => simp only [attempt, Fails, ih, exists_false]

@[simp] theorem issues_ite {c : Prop} [Decidable c] (p q : Prog Op Ans ε α) :
    (if c then p else q).Issues o ↔ (c ∧ p.Issues o) ∨ (¬ c ∧ q.Issues o) := by
  by_cases h : c <;> simp [h]

@[simp] theorem yields_ite {c : Prop} [Decidable c] (p q : Prog Op Ans ε α) :
    (if c then p else q).Yields a ↔ (c ∧ p.Yields a) ∨ (¬ c ∧ q.Yields a) := by
  by_cases h : c <;> simp [h]

@[simp] theorem fails_ite {c : Prop} [Decidable c] (p q : Prog Op Ans ε α) :
    (if c then p else q).Fails e ↔ (c ∧ p.Fails e) ∨ (¬ c ∧ q.Fails e) := by
  by_cases h : c <;> simp [h]

end Reach

end Prog
end SecureAgnt

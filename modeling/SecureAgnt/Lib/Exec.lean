/-
Programs whose calls each have one answer.

`exec` computes how a program ends and the state after it.  Where a handler allows the
answers computed on the way, what `exec` computes is a run of the program: `finishes_exec`.
The states of the two need not be of one type.
-/
import SecureAgnt.Lib.Run

namespace SecureAgnt
namespace Prog

variable {Op : Type} {Ans : Op → Type} {σ τ ε α β : Type}

def exec (answer : σ → (op : Op) → Ans op × σ) : Prog Op Ans ε α → σ → Except ε α × σ
  | .pure a, s => (.ok a, s)
  | .fail e, s => (.error e, s)
  | .call op k, s => (k (answer s op).1).exec answer (answer s op).2

/-- Every call on the way satisfies `P`. -/
def Along (P : σ → Op → Prop) (answer : σ → (op : Op) → Ans op × σ) : Prog Op Ans ε α → σ → Prop
  | .pure _, _ => True
  | .fail _, _ => True
  | .call op k, s => P s op ∧ (k (answer s op).1).Along P answer (answer s op).2

instance decidableAlong {P : σ → Op → Prop} [∀ s op, Decidable (P s op)]
    {answer : σ → (op : Op) → Ans op × σ} :
    (p : Prog Op Ans ε α) → (s : σ) → Decidable (p.Along P answer s)
  | .pure _, _ => isTrue trivial
  | .fail _, _ => isTrue trivial
  | .call op k, s =>
    have : Decidable ((k (answer s op).1).Along P answer (answer s op).2) := decidableAlong _ _
    inferInstanceAs (Decidable (P s op ∧ _))

/-- Go on from a result, and stop at a failure. -/
def thenExec (out : Except ε α × σ) (next : α → σ → Except ε β × σ) : Except ε β × σ :=
  match out with
  | (.ok a, s) => next a s
  | (.error e, s) => (.error e, s)

variable {answer : σ → (op : Op) → Ans op × σ} {s : σ}

@[simp] theorem thenExec_ok (a : α) (next : α → σ → Except ε β × σ) :
    thenExec (.ok a, s) next = next a s := rfl

@[simp] theorem thenExec_error (e : ε) (next : α → σ → Except ε β × σ) :
    thenExec (.error e, s) next = (.error e, s) := rfl

theorem exec_bind (p : Prog Op Ans ε α) (f : α → Prog Op Ans ε β) :
    (p >>= f).exec answer s = thenExec (p.exec answer s) fun a s' => (f a).exec answer s' := by
  show (p.bind f).exec answer s = _
  induction p generalizing s with
  | pure a => rfl
  | fail e => rfl
  | call op k ih => exact ih _

@[simp] theorem exec_perform_bind (op : Op) (f : Ans op → Prog Op Ans ε α) :
    (Prog.perform op >>= f).exec answer s = (f (answer s op).1).exec answer (answer s op).2 := rfl

@[simp] theorem exec_ofExcept (x : Except ε α) :
    (Prog.ofExcept x : Prog Op Ans ε α).exec answer s = (x, s) := by
  cases x with
  | ok a => rfl
  | error e => rfl

@[simp] theorem exec_attempt (p : Prog Op Ans ε α) :
    p.attempt.exec answer s = (.ok (p.exec answer s).1, (p.exec answer s).2) := by
  induction p generalizing s with
  | pure a => rfl
  | fail e => rfl
  | call op k ih => exact ih _

theorem along_of_forall {P : σ → Op → Prop} (h : ∀ s op, P s op) (p : Prog Op Ans ε α) :
    p.Along P answer s := by
  induction p generalizing s with
  | pure a => exact trivial
  | fail e => exact trivial
  | call op k ih => exact ⟨h s op, ih _⟩

/-- What is computed is a run, in states that stand for those of the computation. -/
theorem finishes_exec {H : Handler Op Ans τ} {P : σ → Op → Prop} (stands : σ → τ → Prop)
    (h : ∀ s t op, P s op → stands s t →
      ∃ t', H.step t op (answer s op).1 t' ∧ stands (answer s op).2 t')
    {p : Prog Op Ans ε α} (hp : p.Along P answer s) {t : τ} (ht : stands s t) :
    ∃ t', H.Finishes t p t' (p.exec answer s).1 ∧ stands (p.exec answer s).2 t' := by
  induction p generalizing s t with
  | pure a => exact ⟨t, .pure t a, ht⟩
  | fail e => exact ⟨t, .fail t e, ht⟩
  | call op k ih =>
    obtain ⟨hcall, hrest⟩ := hp
    obtain ⟨t', hstep, ht'⟩ := h s t op hcall ht
    obtain ⟨t'', hfinish, ht''⟩ := ih _ hrest ht'
    exact ⟨t'', .call _ hstep hfinish, ht''⟩

end Prog
end SecureAgnt

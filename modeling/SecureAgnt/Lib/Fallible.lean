/-
Calls that can fail, by callers that each own a part of the state.

A fallible call answers with a result or an error, and the error can come before or
after its effect.  `Contract.owned` is the contract of a caller that relies on its own
part of the state and leaves the parts of the others alone; such callers can be
interleaved in any way.
-/
import SecureAgnt.Lib.Run

namespace SecureAgnt

variable {Op : Type} {Res : Op → Type} {σ ι τ α : Type}

abbrev Fallible (Res : Op → Type) (op : Op) : Type := Except String (Res op)

/-- A call whose error ends the program. -/
def Prog.ask (op : Op) : Prog Op (Fallible Res) String (Res op) := do
  let answer ← Prog.perform op
  Prog.ofExcept answer

def Contract.owned (own : σ → ι → τ) (i : ι) (safe : σ → Op → Prop) : Contract σ Op where
  rely := fun s s' => own s' i = own s i
  guarantee := fun s s' => ∀ j, j ≠ i → own s' j = own s j
  safe := safe
  rely_refl := fun _ => rfl
  rely_trans := fun h h' => h'.trans h

/-- What holds of a result; nothing is said of errors. -/
def OnOk (P : σ → α → Prop) (s : σ) : Except String α → Prop
  | .ok a => P s a
  | .error _ => True

namespace Handler

def fallible (effect : σ → (op : Op) → Res op → σ → Prop) : Handler Op (Fallible Res) σ where
  step := fun s op answer s' =>
    match answer with
    | .ok result => effect s op result s'
    | .error _ => s' = s ∨ ∃ result, effect s op result s'

variable {effect : σ → (op : Op) → Res op → σ → Prop} {s s' : σ} {op : Op}

theorem effect_of_fallible {answer : Fallible Res op}
    (h : (fallible effect).step s op answer s') : s' = s ∨ ∃ result, effect s op result s' := by
  cases answer with
  | ok result => exact .inr ⟨result, h⟩
  | error message => exact h

section Owned

variable {own : σ → ι → τ} {i : ι} {safe : σ → Op → Prop}

theorem guarantee_of_fallible {answer : Fallible Res op}
    (hown : ∀ result, effect s op result s' → ∀ j, j ≠ i → own s' j = own s j)
    (h : (fallible effect).step s op answer s') : (Contract.owned own i safe).guarantee s s' := by
  rcases effect_of_fallible h with rfl | ⟨result, heffect⟩
  · exact fun _ _ => rfl
  · exact hown result heffect

theorem wp_ask {P : σ → Res op → Prop}
    (hown : ∀ s s' result, effect s op result s' → ∀ j, j ≠ i → own s' j = own s j)
    (hsafe : ∀ s', own s' i = own s i → safe s' op)
    (hok : ∀ s₁ result s₂ s₃, own s₁ i = own s i → effect s₁ op result s₂ → own s₃ i = own s₂ i →
      P s₃ result) :
    wp (fallible effect) (.owned own i safe) (Prog.ask op) (OnOk P) s := by
  refine wp_perform_bind fun s₁ hrely => ⟨hsafe s₁ hrely, fun answer s₂ hstep => ?_⟩
  refine ⟨guarantee_of_fallible (fun result => hown s₁ s₂ result) hstep, ?_⟩
  refine wp_ofExcept fun s₃ hrely' => ?_
  cases answer with
  | ok result => exact hok s₁ result s₂ s₃ hrely hstep hrely'
  | error message => trivial

/-- Go on after a part whose errors end the program. -/
theorem wp_then {β : Type} {Q : σ → Except String β → Prop} {P : σ → α → Prop}
    {H : Handler Op (Fallible Res) σ} {C : Contract σ Op} {p : Prog Op (Fallible Res) String α}
    {f : α → Prog Op (Fallible Res) String β} (hp : wp H C p (OnOk P) s)
    (hf : ∀ s a, P s a → wp H C (f a) Q s) (herror : ∀ s e, Q s (.error e)) :
    wp H C (p >>= f) Q s :=
  wp_seq hp hf fun s e _ => herror s e

/-- Owners that keep their contracts move the state by safe calls only. -/
theorem reaches_of_owners [DecidableEq ι] {effect : ι → σ → (op : Op) → Res op → σ → Prop}
    {safe : ι → σ → Op → Prop} {Q : ι → σ → Except String α → Prop}
    {ps : ι → Prog Op (Fallible Res) String α}
    {ps' : ι → Prog (ι × Op) (fun o => Fallible Res o.2) String α}
    (h : ∀ i, wp (fallible (effect i)) (.owned own i (safe i)) (ps i) (Q i) s)
    (hreach : PoolReaches (tagged fun i => fallible (effect i)) (s, fun i => (ps i).tag i)
      (s', ps')) :
    Relation.ReflTransGen (fun s s' => ∃ i op r, safe i s op ∧ (fallible (effect i)).step s op r s')
      s s' := by
  have hcompat : ∀ i j, i ≠ j → ∀ s s',
      (Contract.owned own i (safe i)).guarantee s s' → (Contract.owned own j (safe j)).rely s s' :=
    fun i j hne s s' hguar => hguar j hne.symm
  exact (reaches_of_taggedPool hcompat h hreach).1

end Owned

end Handler
end SecureAgnt

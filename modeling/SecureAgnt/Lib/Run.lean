/-
Running programs on a shared state.

A `Handler` gives every call a meaning: which answers a state allows and the
state after each.  A program runs by `Step`, alone to its end by `Finishes`, a
family of programs runs interleaved by `PoolStep`, one call of one of them at a
time, and a list of tasks runs by `LoopStep`, each task's program to its end
before the next.

A `Contract` is what one program relies on the others to do, what it guarantees
to them, and when each of its calls is safe.  `wp` says that a program keeps its
contract from a state and ends in a postcondition.  `wp_of_pool` carries it along
every interleaving with programs whose guarantees are relied upon, and
`loopOk_of_reaches` along a list of tasks that one worker executes in turn.
-/
import Mathlib.Logic.Relation
import Mathlib.Logic.Function.Basic
import SecureAgnt.Lib.Prog

namespace SecureAgnt

structure Handler (Op : Type) (Ans : Op → Type) (σ : Type) where
  step : σ → (op : Op) → Ans op → σ → Prop

structure Contract (σ Op : Type) where
  rely : σ → σ → Prop
  guarantee : σ → σ → Prop
  safe : σ → Op → Prop
  rely_refl : ∀ s, rely s s
  rely_trans : ∀ {s₁ s₂ s₃}, rely s₁ s₂ → rely s₂ s₃ → rely s₁ s₃

/-- A program that runs alone relies on nothing changing. -/
def Contract.alone {σ Op : Type} (safe : σ → Op → Prop) : Contract σ Op where
  rely := Eq
  guarantee := fun _ _ => True
  safe := safe
  rely_refl := fun _ => rfl
  rely_trans := Eq.trans

namespace Handler

variable {Op : Type} {Ans : Op → Type} {σ ε α β ι : Type}

/-! ## Runs -/

/-- One call of a program. -/
inductive Step (H : Handler Op Ans σ) : σ × Prog Op Ans ε α → σ × Prog Op Ans ε α → Prop
  | call {s s' : σ} {op : Op} {r : Ans op} {k : Ans op → Prog Op Ans ε α}
      (hstep : H.step s op r s') : Step H (s, .call op k) (s', k r)

/-- A program runs alone to its end. -/
inductive Finishes (H : Handler Op Ans σ) : σ → Prog Op Ans ε α → σ → Except ε α → Prop
  | pure (s : σ) (a : α) : Finishes H s (.pure a) s (.ok a)
  | fail (s : σ) (e : ε) : Finishes H s (.fail e) s (.error e)
  | call {s s' s'' : σ} {op : Op} {k : Ans op → Prog Op Ans ε α} {out : Except ε α} (r : Ans op)
      (hstep : H.step s op r s') (hrest : Finishes H s' (k r) s'' out) :
      Finishes H s (.call op k) s'' out

/-- One call of one program of a family. -/
inductive PoolStep [DecidableEq ι] (H : Handler Op Ans σ) :
    σ × (ι → Prog Op Ans ε α) → σ × (ι → Prog Op Ans ε α) → Prop
  | turn {s s' : σ} {ps : ι → Prog Op Ans ε α} {p' : Prog Op Ans ε α} (i : ι)
      (hstep : Step H (s, ps i) (s', p')) : PoolStep H (s, ps) (s', Function.update ps i p')

def PoolReaches [DecidableEq ι] (H : Handler Op Ans σ) :
    σ × (ι → Prog Op Ans ε α) → σ × (ι → Prog Op Ans ε α) → Prop :=
  Relation.ReflTransGen (PoolStep H)

/-- A worker at its list of tasks: the context it carries from task to task, the
program of the current task, the tasks left, and the failure that ended it. -/
structure LoopState (σ κ τ : Type) (Op : Type) (Ans : Op → Type) (ε : Type) where
  world : σ
  ctx : κ
  current : Option (τ × Prog Op Ans ε κ)
  rest : List τ
  failed : Option ε

def LoopState.start {κ τ : Type} (world : σ) (ctx : κ) (tasks : List τ) :
    LoopState σ κ τ Op Ans ε := ⟨world, ctx, none, tasks, none⟩

/-- Between two tasks the world may move by `env`; the first failure ends the
loop. -/
inductive LoopStep {κ τ : Type} (H : Handler Op Ans σ) (env : σ → σ → Prop)
    (body : κ → τ → Prog Op Ans ε κ) : LoopState σ κ τ Op Ans ε → LoopState σ κ τ Op Ans ε → Prop
  | idle {s s' : σ} {ctx : κ} {rest : List τ} (henv : env s s') :
      LoopStep H env body ⟨s, ctx, none, rest, none⟩ ⟨s', ctx, none, rest, none⟩
  | start {s : σ} {ctx : κ} {t : τ} {rest : List τ} :
      LoopStep H env body ⟨s, ctx, none, t :: rest, none⟩
        ⟨s, ctx, some (t, body ctx t), rest, none⟩
  | call {s s' : σ} {ctx : κ} {t : τ} {p p' : Prog Op Ans ε κ} {rest : List τ}
      (hstep : Step H (s, p) (s', p')) :
      LoopStep H env body ⟨s, ctx, some (t, p), rest, none⟩ ⟨s', ctx, some (t, p'), rest, none⟩
  | finish {s : σ} {ctx ctx' : κ} {t : τ} {rest : List τ} :
      LoopStep H env body ⟨s, ctx, some (t, .pure ctx'), rest, none⟩ ⟨s, ctx', none, rest, none⟩
  | abort {s : σ} {ctx : κ} {t : τ} {e : ε} {rest : List τ} :
      LoopStep H env body ⟨s, ctx, some (t, .fail e), rest, none⟩ ⟨s, ctx, none, rest, some e⟩

def LoopReaches {κ τ : Type} (H : Handler Op Ans σ) (env : σ → σ → Prop)
    (body : κ → τ → Prog Op Ans ε κ) :
    LoopState σ κ τ Op Ans ε → LoopState σ κ τ Op Ans ε → Prop :=
  Relation.ReflTransGen (LoopStep H env body)

/-! ## Contracts -/

/-- The program keeps its contract from `s` on and ends as `Q` says. -/
def wp (H : Handler Op Ans σ) (C : Contract σ Op) :
    Prog Op Ans ε α → (σ → Except ε α → Prop) → σ → Prop
  | .pure a, Q, s => ∀ s', C.rely s s' → Q s' (.ok a)
  | .fail e, Q, s => ∀ s', C.rely s s' → Q s' (.error e)
  | .call op k, Q, s => ∀ s', C.rely s s' → C.safe s' op ∧
      ∀ r s'', H.step s' op r s'' → C.guarantee s' s'' ∧ wp H C (k r) Q s''

variable {H : Handler Op Ans σ} {C : Contract σ Op} {Q Q' : σ → Except ε α → Prop} {s s' : σ}
  {p p' : Prog Op Ans ε α}

/-- What the others do does not break a kept contract. -/
theorem wp_stable (h : wp H C p Q s) (hrely : C.rely s s') : wp H C p Q s' := by
  cases p with
  | pure a => exact fun s'' hs => h s'' (C.rely_trans hrely hs)
  | fail e => exact fun s'' hs => h s'' (C.rely_trans hrely hs)
  | call op k => exact fun s'' hs => h s'' (C.rely_trans hrely hs)

theorem wp_mono (hQ : ∀ s r, Q s r → Q' s r) (h : wp H C p Q s) : wp H C p Q' s := by
  induction p generalizing s with
  | pure a => exact fun s' hs => hQ _ _ (h s' hs)
  | fail e => exact fun s' hs => hQ _ _ (h s' hs)
  | call op k ih =>
    intro s' hs
    obtain ⟨hsafe, hnext⟩ := h s' hs
    refine ⟨hsafe, fun r s'' hstep => ?_⟩
    obtain ⟨hguar, hrest⟩ := hnext r s'' hstep
    exact ⟨hguar, ih r hrest⟩

theorem wp_bind {f : α → Prog Op Ans ε β} {R : σ → Except ε β → Prop}
    (h : wp H C p (fun s r => match r with
      | .ok a => wp H C (f a) R s
      | .error e => R s (.error e)) s) :
    wp H C (p >>= f) R s := by
  show wp H C (p.bind f) R s
  induction p generalizing s with
  | pure a => exact h s (C.rely_refl s)
  | fail e => exact h
  | call op k ih =>
    intro s' hs
    obtain ⟨hsafe, hnext⟩ := h s' hs
    refine ⟨hsafe, fun r s'' hstep => ?_⟩
    obtain ⟨hguar, hrest⟩ := hnext r s'' hstep
    exact ⟨hguar, ih r hrest⟩

/-- Run a part with its own postcondition and go on from there. -/
theorem wp_seq {f : α → Prog Op Ans ε β} {R : σ → Except ε β → Prop} (h : wp H C p Q s)
    (hok : ∀ s a, Q s (.ok a) → wp H C (f a) R s)
    (herror : ∀ s e, Q s (.error e) → R s (.error e)) : wp H C (p >>= f) R s := by
  refine wp_bind (wp_mono ?_ h)
  intro s r hr
  cases r with
  | ok a => exact hok s a hr
  | error e => exact herror s e hr

theorem wp_attempt {R : σ → Except ε (Except ε α) → Prop}
    (h : wp H C p (fun s r => R s (.ok r)) s) : wp H C p.attempt R s := by
  induction p generalizing s with
  | pure a => exact h
  | fail e => exact h
  | call op k ih =>
    intro s' hs
    obtain ⟨hsafe, hnext⟩ := h s' hs
    refine ⟨hsafe, fun r s'' hstep => ?_⟩
    obtain ⟨hguar, hrest⟩ := hnext r s'' hstep
    exact ⟨hguar, ih r hrest⟩

theorem wp_ofExcept {x : Except ε α} (h : ∀ s', C.rely s s' → Q s' x) :
    wp H C (Prog.ofExcept x) Q s := by
  cases x with
  | ok a => exact h
  | error e => exact h

theorem wp_ite {c : Prop} [Decidable c] (hpos : c → wp H C p Q s) (hneg : ¬ c → wp H C p' Q s) :
    wp H C (if c then p else p') Q s := by
  by_cases h : c
  · rw [if_pos h]
    exact hpos h
  · rw [if_neg h]
    exact hneg h

theorem wp_perform {op : Op} {Q : σ → Except ε (Ans op) → Prop}
    (h : ∀ s', C.rely s s' → C.safe s' op ∧ ∀ r s'', H.step s' op r s'' →
      C.guarantee s' s'' ∧ ∀ s₃, C.rely s'' s₃ → Q s₃ (.ok r)) :
    wp H C (Prog.perform op) Q s := h

/-- A call and the rest of the program after it. -/
theorem wp_perform_bind {op : Op} {f : Ans op → Prog Op Ans ε α}
    (h : ∀ s', C.rely s s' → C.safe s' op ∧ ∀ r s'', H.step s' op r s'' →
      C.guarantee s' s'' ∧ wp H C (f r) Q s'') :
    wp H C (Prog.perform op >>= f) Q s := h

/-- A call whose safety is all that its guarantee asks. -/
theorem wp_safe_bind {op : Op} {f : Ans op → Prog Op Ans ε α}
    (hguar : ∀ s op r s', C.safe s op → H.step s op r s' → C.guarantee s s')
    (h : ∀ s', C.rely s s' → C.safe s' op ∧ ∀ r s'', H.step s' op r s'' → wp H C (f r) Q s'') :
    wp H C (Prog.perform op >>= f) Q s := by
  refine wp_perform_bind fun s' hrely => ⟨(h s' hrely).1, fun r s'' hstep => ?_⟩
  exact ⟨hguar s' op r s'' (h s' hrely).1 hstep, (h s' hrely).2 r s'' hstep⟩

section Alone

variable {safe : σ → Op → Prop}

theorem wp_pure_alone {a : α} (h : Q s (.ok a)) : wp H (.alone safe) (.pure a) Q s := by
  intro s' hs
  rw [← hs]
  exact h

theorem wp_fail_alone {e : ε} (h : Q s (.error e)) : wp H (.alone safe) (.fail e) Q s := by
  intro s' hs
  rw [← hs]
  exact h

theorem wp_ofExcept_alone {x : Except ε α} (h : Q s x) :
    wp H (.alone safe) (Prog.ofExcept x) Q s := by
  cases x with
  | ok a => exact wp_pure_alone h
  | error e => exact wp_fail_alone h

theorem wp_perform_alone {op : Op} {Q : σ → Except ε (Ans op) → Prop} (hsafe : safe s op)
    (h : ∀ r s', H.step s op r s' → Q s' (.ok r)) :
    wp H (.alone safe) (Prog.perform op) Q s := by
  intro s' hs
  rw [← hs]
  exact ⟨hsafe, fun r s'' hstep => ⟨trivial, wp_pure_alone (h r s'' hstep)⟩⟩

end Alone

/-- A program ends in one of the ways it can end. -/
theorem wp_ends (h : wp H C p Q s) : wp H C p (fun s r => Q s r ∧ p.Ends r) s := by
  induction p generalizing s with
  | pure a => exact fun s' hr => ⟨h s' hr, rfl⟩
  | fail e => exact fun s' hr => ⟨h s' hr, rfl⟩
  | call op k ih =>
    intro s' hr
    obtain ⟨hsafe, hnext⟩ := h s' hr
    refine ⟨hsafe, fun r s'' hstep => ?_⟩
    obtain ⟨hguar, hrest⟩ := hnext r s'' hstep
    refine ⟨hguar, wp_mono ?_ (ih r hrest)⟩
    rintro s₃ (e | a) ⟨hQ, hend⟩
    · exact ⟨hQ, r, hend⟩
    · exact ⟨hQ, r, hend⟩

/-- A program all of whose calls keep an invariant ends in it. -/
theorem wp_of_issues {I : σ → Prop} (hrely : ∀ s s', I s → C.rely s s' → I s')
    (hcall : ∀ o, p.Issues o → ∀ s, I s → C.safe s o ∧ ∀ r s', H.step s o r s' →
      C.guarantee s s' ∧ I s') (hs : I s) :
    wp H C p (fun s _ => I s) s := by
  induction p generalizing s with
  | pure a => exact fun s' hr => hrely s s' hs hr
  | fail e => exact fun s' hr => hrely s s' hs hr
  | call op k ih =>
    intro s' hr
    obtain ⟨hsafe, hnext⟩ := hcall op (.inl rfl) s' (hrely s s' hs hr)
    refine ⟨hsafe, fun r s'' hstep => ⟨(hnext r s'' hstep).1, ?_⟩⟩
    exact ih r (fun o ho => hcall o (.inr ⟨r, ho⟩)) (hnext r s'' hstep).2

/-- What every call keeps still holds at the end. -/
theorem wp_invariant {I : σ → Prop} (hrely : ∀ s s', I s → C.rely s s' → I s')
    (hcall : ∀ s op r s', I s → H.step s op r s' → I s') (hs : I s) (h : wp H C p Q s) :
    wp H C p (fun s r => Q s r ∧ I s) s := by
  induction p generalizing s with
  | pure a => exact fun s' hr => ⟨h s' hr, hrely s s' hs hr⟩
  | fail e => exact fun s' hr => ⟨h s' hr, hrely s s' hs hr⟩
  | call op k ih =>
    intro s' hr
    obtain ⟨hsafe, hnext⟩ := h s' hr
    refine ⟨hsafe, fun r s'' hstep => ?_⟩
    obtain ⟨hguar, hrest⟩ := hnext r s'' hstep
    exact ⟨hguar, ih r (hcall s' op r s'' (hrely s s' hs hr) hstep) hrest⟩

/-- A contract that asks more of the others and, of the calls that the handler allows,
promises no more. -/
theorem wp_contract {C' : Contract σ Op} (hrely : ∀ s s', C'.rely s s' → C.rely s s')
    (hsafe : ∀ s op, C.safe s op → C'.safe s op)
    (hguar : ∀ s op r s', H.step s op r s' → C.guarantee s s' → C'.guarantee s s')
    (h : wp H C p Q s) : wp H C' p Q s := by
  induction p generalizing s with
  | pure a => exact fun s' hr => h s' (hrely s s' hr)
  | fail e => exact fun s' hr => h s' (hrely s s' hr)
  | call op k ih =>
    intro s' hr
    obtain ⟨hcall, hnext⟩ := h s' (hrely s s' hr)
    refine ⟨hsafe s' op hcall, fun r s'' hstep => ?_⟩
    obtain ⟨hg, hrest⟩ := hnext r s'' hstep
    exact ⟨hguar s' op r s'' hstep hg, ih r hrest⟩

/-- A contract kept with one handler, seen from a handler whose states show more: what `I`
says of them is known at every call. -/
theorem wp_lift {τ : Type} {H' : Handler Op Ans τ} {C' : Contract τ Op} {π : τ → σ} {I : τ → Prop}
    (hIrely : ∀ t t', I t → C'.rely t t' → I t')
    (hIstep : ∀ t op r t', I t → H'.step t op r t' → I t')
    (hstep : ∀ t op r t', H'.step t op r t' → H.step (π t) op r (π t'))
    (hrely : ∀ t t', C'.rely t t' → C.rely (π t) (π t'))
    (hsafe : ∀ t op, C.safe (π t) op → C'.safe t op)
    (hguar : ∀ t op r t', I t → H'.step t op r t' → C.guarantee (π t) (π t') → C'.guarantee t t')
    {t : τ} (ht : I t) (h : wp H C p Q (π t)) :
    wp H' C' p (fun t r => I t ∧ Q (π t) r) t := by
  induction p generalizing t with
  | pure a => exact fun t' hr => ⟨hIrely t t' ht hr, h (π t') (hrely t t' hr)⟩
  | fail e => exact fun t' hr => ⟨hIrely t t' ht hr, h (π t') (hrely t t' hr)⟩
  | call op k ih =>
    intro t' hr
    have ht' := hIrely t t' ht hr
    obtain ⟨hcall, hnext⟩ := h (π t') (hrely t t' hr)
    refine ⟨hsafe t' op hcall, fun r t'' hs => ?_⟩
    obtain ⟨hg, hrest⟩ := hnext r (π t'') (hstep t' op r t'' hs)
    exact ⟨hguar t' op r t'' ht' hs hg, ih r (hIstep t' op r t'' ht' hs) hrest⟩

/-- What every safe call and every end of a program has in common holds now. -/
theorem wp_now {P : σ → Prop} (hsafe : ∀ op, C.safe s op → P s) (hend : ∀ r, Q s r → P s)
    (h : wp H C p Q s) : P s := by
  cases p with
  | pure a => exact hend _ (h s (C.rely_refl s))
  | fail e => exact hend _ (h s (C.rely_refl s))
  | call op k => exact hsafe op (h s (C.rely_refl s)).1

/-- The handler with moves of an environment before each call. -/
def interfered (H : Handler Op Ans σ) (env : σ → σ → Prop) : Handler Op Ans σ where
  step s op r s' := ∃ s₁, env s s₁ ∧ H.step s₁ op r s'

/-- The handler of the runs whose calls all meet a condition. -/
def guarded (H : Handler Op Ans σ) (cond : σ → Op → Prop) : Handler Op Ans σ where
  step s op r s' := cond s op ∧ H.step s op r s'

/-- The handler of the runs whose answers all meet a condition. -/
def answering (H : Handler Op Ans σ) (cond : (op : Op) → Ans op → Prop) : Handler Op Ans σ where
  step s op r s' := cond op r ∧ H.step s op r s'

/-- The handler with the history of its calls, each with a note of what it was. -/
def recorded {N : Type} (H : Handler Op Ans σ)
    (note : σ → (op : Op) → Ans op → σ → N → Prop) : Handler Op Ans (σ × List N) where
  step s op r s' := H.step s.1 op r s'.1 ∧ ∃ n, note s.1 op r s'.1 n ∧ s'.2 = s.2 ++ [n]

/-- A program that keeps a contract keeps it among moves it relies on, with a
frame that neither it nor they break. -/
theorem wp_framed {env : σ → σ → Prop} {F : σ → Prop} {safe : σ → Op → Prop}
    (henv : ∀ s s', F s → env s s' → C.rely s s' ∧ F s')
    (hguar : ∀ s s', F s → C.guarantee s s' → F s')
    (hsafe : ∀ s op, F s → C.safe s op → safe s op) (hF : F s) (h : wp H C p Q s) :
    wp (H.interfered env) (.alone safe) p (fun s r => F s ∧ Q s r) s := by
  induction p generalizing s with
  | pure a =>
    rintro _ rfl
    exact ⟨hF, h s (C.rely_refl s)⟩
  | fail e =>
    rintro _ rfl
    exact ⟨hF, h s (C.rely_refl s)⟩
  | call op k ih =>
    rintro _ rfl
    refine ⟨hsafe s op hF (h s (C.rely_refl s)).1, fun r s'' hstep => ⟨trivial, ?_⟩⟩
    obtain ⟨s₁, hmove, hcall⟩ := hstep
    obtain ⟨hrely, hF₁⟩ := henv s s₁ hF hmove
    obtain ⟨hg, hrest⟩ := (h s₁ hrely).2 r s'' hcall
    exact ih r (hguar s₁ s'' hF₁ hg) hrest

/-- The handlers of several callers as one. -/
def tagged (H : ι → Handler Op Ans σ) : Handler (ι × Op) (fun o => Ans o.2) σ where
  step s o r s' := (H o.1).step s o.2 r s'

end Handler

/-- A contract of one of several callers. -/
def Contract.tagged {σ Op : Type} (ι : Type) (C : Contract σ Op) : Contract σ (ι × Op) where
  rely := C.rely
  guarantee := C.guarantee
  safe := fun s o => C.safe s o.2
  rely_refl := C.rely_refl
  rely_trans := C.rely_trans

namespace Handler

variable {Op : Type} {Ans : Op → Type} {σ ε α β ι : Type} {H : Handler Op Ans σ}
  {C : Contract σ Op} {Q Q' : σ → Except ε α → Prop} {s s' : σ} {p p' : Prog Op Ans ε α}

theorem wp_tag {Hs : ι → Handler Op Ans σ} {i : ι} (h : wp (Hs i) C p Q s) :
    wp (tagged Hs) (C.tagged ι) (p.tag i) Q s := by
  induction p generalizing s with
  | pure a => exact h
  | fail e => exact h
  | call op k ih =>
    intro s' hs
    obtain ⟨hsafe, hnext⟩ := h s' hs
    refine ⟨hsafe, fun r s'' hstep => ?_⟩
    obtain ⟨hguar, hrest⟩ := hnext r s'' hstep
    exact ⟨hguar, ih r hrest⟩

/-! ## Along a run -/

theorem wp_of_step (h : wp H C p Q s) (hstep : Step H (s, p) (s', p')) :
    C.guarantee s s' ∧ wp H C p' Q s' := by
  cases hstep with
  | call hcall => exact (h s (C.rely_refl s)).2 _ _ hcall

theorem wp_of_finishes {out : Except ε α} (h : wp H C p Q s) (hfin : Finishes H s p s' out) :
    Q s' out := by
  induction hfin with
  | pure s a => exact h s (C.rely_refl s)
  | fail s e => exact h s (C.rely_refl s)
  | call r hstep _ ih => exact ih ((h _ (C.rely_refl _)).2 r _ hstep).2

/-- A run in which every call is a safe one. -/
theorem Finishes.guarded {cond : σ → Op → Prop} {out : Except ε α} (h : wp H C p Q s)
    (hsafe : ∀ s op, C.safe s op → cond s op) (hfin : Finishes H s p s' out) :
    Finishes (H.guarded cond) s p s' out := by
  induction hfin with
  | pure s a => exact .pure s a
  | fail s e => exact .fail s e
  | call r hstep hrest ih =>
    obtain ⟨hcall, hnext⟩ := h _ (C.rely_refl _)
    exact .call r ⟨hsafe _ _ hcall, hstep⟩ (ih (hnext r _ hstep).2)

theorem Finishes.perform {op : Op} {r : Ans op} (hstep : H.step s op r s') :
    Finishes H s (Prog.perform op : Prog Op Ans ε _) s' (.ok r) :=
  .call r hstep (.pure s' r)

theorem Finishes.bind_ok {s'' : σ} {a : α} {f : α → Prog Op Ans ε β} {out : Except ε β}
    (h : Finishes H s p s' (.ok a)) (h' : Finishes H s' (f a) s'' out) :
    Finishes H s (p >>= f) s'' out := by
  show Finishes H s (p.bind f) s'' out
  generalize hr : (Except.ok a : Except ε α) = r at h
  induction h with
  | pure s b =>
    cases hr
    exact h'
  | fail s e => cases hr
  | call r hstep _ ih => exact .call r hstep (ih h' hr)

theorem Finishes.bind_error {e : ε} {f : α → Prog Op Ans ε β} (h : Finishes H s p s' (.error e)) :
    Finishes H s (p >>= f) s' (.error e) := by
  show Finishes H s (p.bind f) s' (.error e)
  generalize hr : (Except.error e : Except ε α) = r at h
  induction h with
  | pure s b => cases hr
  | fail s e =>
    cases hr
    exact .fail s e
  | call r hstep _ ih => exact .call r hstep (ih hr)

/-- A sequence ends with its first part's failure or goes on from its result. -/
theorem Finishes.of_bind {s'' : σ} {f : α → Prog Op Ans ε β} {out : Except ε β}
    (h : Finishes H s (p >>= f) s'' out) :
    (∃ e, Finishes H s p s'' (.error e) ∧ out = .error e) ∨
      ∃ s' a, Finishes H s p s' (.ok a) ∧ Finishes H s' (f a) s'' out := by
  replace h : Finishes H s (p.bind f) s'' out := h
  induction p generalizing s with
  | pure a => exact .inr ⟨_, a, .pure _ a, h⟩
  | fail e =>
    cases h with
    | fail _ _ => exact .inl ⟨e, .fail _ e, rfl⟩
  | call op k ih =>
    cases h with
    | call r hstep hrest =>
      rcases ih r hrest with ⟨e, hfail, hout⟩ | ⟨s', a, hfirst, hsecond⟩
      · exact .inl ⟨e, .call r hstep hfail, hout⟩
      · exact .inr ⟨s', a, .call r hstep hfirst, hsecond⟩

/-- In a family whose members rely on no more than the others guarantee, every
member keeps its contract along every interleaving. -/
theorem wp_of_pool [DecidableEq ι] {C : ι → Contract σ Op} {Q : ι → σ → Except ε α → Prop}
    {ps ps' : ι → Prog Op Ans ε α}
    (hcompat : ∀ i j, i ≠ j → ∀ s s', (C i).guarantee s s' → (C j).rely s s')
    (h : ∀ i, wp H (C i) (ps i) (Q i) s) (hreach : PoolReaches H (s, ps) (s', ps')) :
    ∀ i, wp H (C i) (ps' i) (Q i) s' := by
  generalize hc : (s, ps) = c at hreach
  generalize hc' : (s', ps') = c' at hreach
  induction hreach generalizing s' ps' with
  | refl =>
    cases hc
    cases hc'
    exact h
  | @tail mid _ _ hstep ih =>
    obtain ⟨sm, psm⟩ := mid
    cases hstep with
    | turn i hone =>
      cases hc'
      obtain ⟨hguar, hwp⟩ := wp_of_step (ih rfl i) hone
      intro j
      by_cases hij : j = i
      · subst hij
        rw [Function.update_self]
        exact hwp
      · rw [Function.update_of_ne hij]
        exact wp_stable (ih rfl j) (hcompat i j (Ne.symm hij) _ _ hguar)

/-- Every step of such a family is a safe call of one of its members and keeps its guarantee. -/
theorem call_of_pool [DecidableEq ι] {C : ι → Contract σ Op}
    {Q : ι → σ → Except ε α → Prop} {ps ps' ps'' : ι → Prog Op Ans ε α} {s'' : σ}
    (hcompat : ∀ i j, i ≠ j → ∀ s s', (C i).guarantee s s' → (C j).rely s s')
    (h : ∀ i, wp H (C i) (ps i) (Q i) s) (hreach : PoolReaches H (s, ps) (s', ps'))
    (hstep : PoolStep H (s', ps') (s'', ps'')) :
    ∃ i op r, (C i).safe s' op ∧ H.step s' op r s'' ∧ (C i).guarantee s' s'' := by
  cases hstep with
  | turn i hone =>
    have hwp := wp_of_pool hcompat h hreach i
    generalize ps' i = p at hone hwp
    cases hone with
    | call hcall =>
      obtain ⟨hsafe, hnext⟩ := hwp s' ((C i).rely_refl s')
      exact ⟨i, _, _, hsafe, hcall, (hnext _ _ hcall).1⟩

/-- A step of a family is a call of one of its programs. -/
theorem PoolStep.exists_call [DecidableEq ι] {ps ps' : ι → Prog Op Ans ε α}
    (h : PoolStep H (s, ps) (s', ps')) : ∃ op r, H.step s op r s' := by
  cases h with
  | turn i hone =>
    generalize ps i = p at hone
    cases hone with
    | call hcall => exact ⟨_, _, hcall⟩

/-- What is left of a program issues nothing new. -/
theorem PoolReaches.issues [DecidableEq ι] {ps ps' : ι → Prog Op Ans ε α}
    (hreach : PoolReaches H (s, ps) (s', ps')) {i : ι} {op : Op} (h : (ps' i).Issues op) :
    (ps i).Issues op := by
  generalize hc' : (s', ps') = c' at hreach
  induction hreach generalizing s' ps' with
  | refl =>
    cases hc'
    exact h
  | @tail mid _ _ hstep ih =>
    obtain ⟨sm, psm⟩ := mid
    cases hstep with
    | turn j hone =>
      cases hc'
      refine ih ?_ rfl
      by_cases hij : i = j
      · subst hij
        rw [Function.update_self] at h
        generalize psm i = p at hone
        cases hone with
        | @call _ _ _ r _ hcall => exact .inr ⟨r, h⟩
      · rw [Function.update_of_ne hij] at h
        exact h

/-- What every safe call with its guarantee keeps holds along every interleaving. -/
theorem invariant_of_pool [DecidableEq ι] {C : ι → Contract σ Op} {Q : ι → σ → Except ε α → Prop}
    {I : σ → Prop} {ps ps' : ι → Prog Op Ans ε α}
    (hcompat : ∀ i j, i ≠ j → ∀ s s', (C i).guarantee s s' → (C j).rely s s')
    (hkeep : ∀ i s op r s', I s → (C i).safe s op → H.step s op r s' → (C i).guarantee s s' → I s')
    (h : ∀ i, wp H (C i) (ps i) (Q i) s) (hI : I s) (hreach : PoolReaches H (s, ps) (s', ps')) :
    I s' := by
  generalize hc' : (s', ps') = c' at hreach
  induction hreach generalizing s' ps' with
  | refl =>
    cases hc'
    exact hI
  | @tail mid _ hmid hstep ih =>
    obtain ⟨sm, psm⟩ := mid
    cases hc'
    obtain ⟨i, op, r, hsafe, hcall, hguar⟩ := call_of_pool hcompat h hmid hstep
    exact hkeep i _ op r _ (ih rfl) hsafe hcall hguar

/-- What every call keeps holds along every interleaving. -/
theorem PoolReaches.invariant [DecidableEq ι] {I : σ → Prop} {ps ps' : ι → Prog Op Ans ε α}
    (hkeep : ∀ s op r s', I s → H.step s op r s' → I s') (hI : I s)
    (hreach : PoolReaches H (s, ps) (s', ps')) : I s' := by
  generalize hc' : (s', ps') = c' at hreach
  induction hreach generalizing s' ps' with
  | refl =>
    cases hc'
    exact hI
  | @tail mid _ _ hstep ih =>
    obtain ⟨sm, psm⟩ := mid
    cases hc'
    obtain ⟨op, r, hcall⟩ := hstep.exists_call
    exact hkeep _ op r _ (ih rfl) hcall

/-- What holds at the end of a run and not at its beginning was brought about by a call. -/
theorem PoolReaches.exists_change [DecidableEq ι] {P : σ → Prop} {ps ps' : ι → Prog Op Ans ε α}
    (hreach : PoolReaches H (s, ps) (s', ps')) (hs : ¬ P s) (hs' : P s') :
    ∃ s₁ ps₁ op r s₂ ps₂, PoolReaches H (s, ps) (s₁, ps₁) ∧ ¬ P s₁ ∧ H.step s₁ op r s₂ ∧ P s₂ ∧
      PoolReaches H (s₂, ps₂) (s', ps') := by
  generalize hc' : (s', ps') = c' at hreach
  induction hreach generalizing s' ps' with
  | refl =>
    cases hc'
    exact absurd hs' hs
  | @tail mid _ hmid hstep ih =>
    obtain ⟨sm, psm⟩ := mid
    cases hc'
    by_cases hm : P sm
    · obtain ⟨s₁, ps₁, op, r, s₂, ps₂, hto, hnot, hcall, hthen, hfrom⟩ := ih hm rfl
      exact ⟨s₁, ps₁, op, r, s₂, ps₂, hto, hnot, hcall, hthen, hfrom.tail hstep⟩
    · obtain ⟨op, r, hcall⟩ := hstep.exists_call
      exact ⟨sm, psm, op, r, s', ps', hmid, hm, hcall, hs', .refl⟩

/-- A step of one handler is a step of any that allows as much. -/
theorem Step.mono {H' : Handler Op Ans σ} {c c' : σ × Prog Op Ans ε α}
    (hle : ∀ s op r s', H.step s op r s' → H'.step s op r s') (h : Step H c c') : Step H' c c' := by
  cases h with
  | call hcall => exact .call (hle _ _ _ _ hcall)

theorem PoolStep.mono [DecidableEq ι] {H' : Handler Op Ans σ} {c c' : σ × (ι → Prog Op Ans ε α)}
    (hle : ∀ s op r s', H.step s op r s' → H'.step s op r s') (h : PoolStep H c c') :
    PoolStep H' c c' := by
  cases h with
  | turn i hone => exact .turn i (hone.mono hle)

theorem PoolReaches.mono [DecidableEq ι] {H' : Handler Op Ans σ}
    {c c' : σ × (ι → Prog Op Ans ε α)}
    (hle : ∀ s op r s', H.step s op r s' → H'.step s op r s') (h : PoolReaches H c c') :
    PoolReaches H' c c' :=
  Relation.ReflTransGen.mono (fun _ _ hstep => hstep.mono hle) _ _ h

/-- A run all of whose states meet a condition. -/
theorem PoolReaches.guarded [DecidableEq ι] {cond : σ → Prop} {ps ps' : ι → Prog Op Ans ε α}
    (hcond : ∀ s'' ps'', PoolReaches H (s, ps) (s'', ps'') → cond s'')
    (hreach : PoolReaches H (s, ps) (s', ps')) :
    PoolReaches (H.guarded fun s _ => cond s) (s, ps) (s', ps') := by
  generalize hc' : (s', ps') = c' at hreach
  induction hreach generalizing s' ps' with
  | refl =>
    cases hc'
    exact .refl
  | @tail mid _ hmid hstep ih =>
    obtain ⟨sm, psm⟩ := mid
    refine .tail (ih rfl) ?_
    cases hstep with
    | turn i hone =>
      cases hc'
      refine .turn i ?_
      generalize psm i = p at hone
      cases hone with
      | call hcall => exact .call ⟨hcond sm psm hmid, hcall⟩

/-- A call of a program in a caller's name. -/
theorem Step.of_tag {Hs : ι → Handler Op Ans σ} {i : ι}
    {q : Prog (ι × Op) (fun o => Ans o.2) ε α} (h : Step (tagged Hs) (s, p.tag i) (s', q)) :
    ∃ op k r, p = .call op k ∧ (Hs i).step s op r s' ∧ q = (k r).tag i := by
  cases p with
  | pure a => cases h
  | fail e => cases h
  | call op k =>
    cases h with
    | call hcall => exact ⟨op, k, _, rfl, hcall, rfl⟩

/-- Callers that keep their contracts move the state by safe calls only. -/
theorem reaches_of_taggedPool [DecidableEq ι] {Hs : ι → Handler Op Ans σ}
    {C : ι → Contract σ Op} {Q : ι → σ → Except ε α → Prop} {ps : ι → Prog Op Ans ε α}
    {ps' : ι → Prog (ι × Op) (fun o => Ans o.2) ε α}
    (hcompat : ∀ i j, i ≠ j → ∀ s s', (C i).guarantee s s' → (C j).rely s s')
    (h : ∀ i, wp (Hs i) (C i) (ps i) (Q i) s)
    (hreach : PoolReaches (tagged Hs) (s, fun i => (ps i).tag i) (s', ps')) :
    Relation.ReflTransGen (fun s s' => ∃ i op r, (C i).safe s op ∧ (Hs i).step s op r s') s s' ∧
      ∀ i, ∃ p, ps' i = p.tag i ∧ wp (Hs i) (C i) p (Q i) s' := by
  generalize hc' : (s', ps') = c' at hreach
  induction hreach generalizing s' ps' with
  | refl =>
    cases hc'
    exact ⟨.refl, fun i => ⟨ps i, rfl, h i⟩⟩
  | @tail mid _ _ hstep ih =>
    obtain ⟨sm, psm⟩ := mid
    obtain ⟨hmoves, hkept⟩ := ih rfl
    cases hstep with
    | turn i hone =>
      cases hc'
      obtain ⟨p, hp, hwp⟩ := hkept i
      rw [hp] at hone
      obtain ⟨op, k, r, rfl, hcall, rfl⟩ := hone.of_tag
      obtain ⟨hsafe, hnext⟩ := hwp sm ((C i).rely_refl sm)
      obtain ⟨hguar, hrest⟩ := hnext r _ hcall
      refine ⟨hmoves.tail ⟨i, op, r, hsafe, hcall⟩, ?_⟩
      intro j
      by_cases hij : j = i
      · subst hij
        exact ⟨k r, Function.update_self .., hrest⟩
      · obtain ⟨q, hq, hwpq⟩ := hkept j
        refine ⟨q, ?_, wp_stable hwpq (hcompat i j (Ne.symm hij) _ _ hguar)⟩
        rw [Function.update_of_ne hij, hq]

section Pool

variable [DecidableEq ι] {start : σ × (ι → Prog Op Ans ε α)} {ps : ι → Prog Op Ans ε α} {i : ι}

/-- Look at one program of a family. -/
theorem PoolReaches.focus {q : Prog Op Ans ε α} (h : PoolReaches H start (s, ps)) (hq : ps i = q) :
    PoolReaches H start (s, Function.update ps i q) := by
  rw [← hq, Function.update_eq_self]
  exact h

/-- A call of the program looked at. -/
theorem PoolStep.of_call {op : Op} {k : Ans op → Prog Op Ans ε α} (r : Ans op) (s' : σ)
    (hstep : H.step s op r s') :
    PoolStep H (s, Function.update ps i (.call op k)) (s', Function.update ps i (k r)) := by
  have hone : PoolStep H (s, Function.update ps i (.call op k))
      (s', Function.update (Function.update ps i (.call op k)) i (k r)) := by
    refine .turn i ?_
    rw [Function.update_self]
    exact .call hstep
  rw [Function.update_idem] at hone
  exact hone

/-- Extend a run by one call of the program looked at. -/
theorem PoolReaches.then_call {op : Op} {k : Ans op → Prog Op Ans ε α}
    (h : PoolReaches H start (s, Function.update ps i (.call op k))) (r : Ans op) (s' : σ)
    (hstep : H.step s op r s') : PoolReaches H start (s', Function.update ps i (k r)) :=
  .tail h (.of_call r s' hstep)

/-- Extend a run by one program run alone to its end. -/
theorem PoolReaches.then_finish {Hs : ι → Handler Op Ans σ} {out : Except ε α}
    {start : σ × (ι → Prog (ι × Op) (fun o => Ans o.2) ε α)}
    {ps : ι → Prog (ι × Op) (fun o => Ans o.2) ε α}
    (h : PoolReaches (tagged Hs) start (s, Function.update ps i (p.tag i)))
    (hfinish : Finishes (Hs i) s p s' out) :
    PoolReaches (tagged Hs) start (s', Function.update ps i (Prog.ofExcept out)) := by
  induction hfinish with
  | pure s a => exact h
  | fail s e => exact h
  | call r hstep _ ih => exact ih (h.then_call r _ hstep)

end Pool

section Loop

variable {κ τ : Type} {env : σ → σ → Prop} {body : κ → τ → Prog Op Ans ε κ}

/-- Extend a run by one call of the current task. -/
theorem LoopReaches.then_call {start : LoopState σ κ τ Op Ans ε} {ctx : κ} {t : τ} {op : Op}
    {k : Ans op → Prog Op Ans ε κ} {rest : List τ}
    (h : LoopReaches H env body start ⟨s, ctx, some (t, .call op k), rest, none⟩) (r : Ans op)
    (s' : σ) (hstep : H.step s op r s') :
    LoopReaches H env body start ⟨s', ctx, some (t, k r), rest, none⟩ :=
  .tail h (.call (.call hstep))

/-- The state of a loop is as planned: between tasks the invariant of the context,
the tasks left and the world holds, after a failure `E` does, and a running task
keeps its contract. -/
def LoopOk (H : Handler Op Ans σ) (safe : κ → τ → σ → Op → Prop) (J : κ → List τ → σ → Prop)
    (E : κ → σ → Prop) (st : LoopState σ κ τ Op Ans ε) : Prop :=
  match st.current, st.failed with
  | none, none => J st.ctx st.rest st.world
  | none, some _ => E st.ctx st.world
  | some (t, p), _ => wp H (.alone (safe st.ctx t)) p (fun s r => match r with
      | .ok ctx' => J ctx' st.rest s
      | .error _ => E st.ctx s) st.world

/-- A loop stays as planned when the world's own moves keep the invariant and
each task keeps its contract from it. -/
theorem loopOk_of_reaches {safe : κ → τ → σ → Op → Prop} {J : κ → List τ → σ → Prop}
    {E : κ → σ → Prop} {tasks : List τ} {ctx : κ} {st : LoopState σ κ τ Op Ans ε}
    (henv : ∀ ctx rest s s', J ctx rest s → env s s' → J ctx rest s')
    (hbody : ∀ ctx t rest s, J ctx (t :: rest) s →
      wp H (.alone (safe ctx t)) (body ctx t) (fun s r => match r with
        | .ok ctx' => J ctx' rest s
        | .error _ => E ctx s) s)
    (hinit : J ctx tasks s) (hreach : LoopReaches H env body (.start s ctx tasks) st) :
    LoopOk H safe J E st := by
  induction hreach with
  | refl => exact hinit
  | tail _ hstep ih =>
    cases hstep with
    | idle hmove => exact henv _ _ _ _ ih hmove
    | start => exact hbody _ _ _ _ ih
    | call hone => exact (wp_of_step ih hone).2
    | finish => exact ih _ rfl
    | abort => exact ih _ rfl

/-- The call a running task is about to make is safe. -/
theorem LoopOk.safe_call {safe : κ → τ → σ → Op → Prop} {J : κ → List τ → σ → Prop}
    {E : κ → σ → Prop} {st : LoopState σ κ τ Op Ans ε} {t : τ} {op : Op}
    {k : Ans op → Prog Op Ans ε κ} (h : LoopOk H safe J E st)
    (hcurrent : st.current = some (t, .call op k)) : safe st.ctx t st.world op := by
  unfold LoopOk at h
  rw [hcurrent] at h
  exact (h _ rfl).1

/-- What the invariant, a failure and every safe call have in common holds
throughout. -/
theorem LoopOk.holds {safe : κ → τ → σ → Op → Prop} {J : κ → List τ → σ → Prop} {E : κ → σ → Prop}
    {P : σ → Prop} {st : LoopState σ κ τ Op Ans ε} (hJ : ∀ ctx rest s, J ctx rest s → P s)
    (hE : ∀ ctx s, E ctx s → P s) (hsafe : ∀ ctx t s op, safe ctx t s op → P s)
    (h : LoopOk H safe J E st) : P st.world := by
  unfold LoopOk at h
  split at h
  · exact hJ _ _ _ h
  · exact hE _ _ h
  · refine wp_now (fun op => hsafe _ _ _ op) ?_ h
    rintro (e | ctx) hend
    · exact hE _ _ hend
    · exact hJ _ _ _ hend

end Loop

end Handler
end SecureAgnt

/-
Whole calls with the clock and the locks, and any number of them at once.

Every commit of a call is one that `Moved` lists: a slot carried out as it was decided,
an edit of one of the callers, or something that leaves the slots alone.  So what each of
these keeps holds along every interleaving.
-/
import SecureAgnt.Trigger.Config
import SecureAgnt.Trigger.Moves
import SecureAgnt.Trigger.Once

namespace SecureAgnt
namespace Trigger

open Storage
open Handler
open Runs (TriggerDispatchRecord)

/-! ## Calls -/

/-- From outside a transaction the program commits only what `moves` lists and leaves no
transaction open. -/
structure Follows {α : Type} (b : Backend) (faults : Bool) (cond : TriggerWorld → Prop)
    (moves : Int → Db → Db → Prop) (i : Nat) (since : Int) (p : TriggerProg α) : Prop where
  run : ∀ w, w.tx.sessions i = none → since ≤ w.clock →
    wp (lockedSession b faults cond i) (moveContract b moves i) p
      (fun w _ => w.tx.sessions i = none) w

section Calls

variable {α β : Type} {b : Backend} {faults : Bool} {cond : TriggerWorld → Prop}
  {moves : Int → Db → Db → Prop} {i : Nat} {since : Int}

theorem follows_pure {a : α} : Follows b faults cond moves i since (.pure a) :=
  ⟨fun _ hclosed _ _ hrely => hrely.session.trans hclosed⟩

theorem follows_bind {p : TriggerProg α} {f : α → TriggerProg β}
    (h : Follows b faults cond moves i since p)
    (h' : ∀ a, Follows b faults cond moves i since (f a)) :
    Follows b faults cond moves i since (p >>= f) := by
  refine ⟨fun w hclosed hsince => ?_⟩
  have hrely : ∀ s s', since ≤ s.clock → (moveContract b moves i).rely s s' → since ≤ s'.clock :=
    fun _ _ hs hrely => Int.le_trans hs hrely.clock
  have hcall : ∀ s op r s', since ≤ s.clock → (lockedSession b faults cond i).step s op r s' →
      since ≤ s'.clock := fun _ _ _ _ hs hcall => Int.le_trans hs (clock_session hcall.2)
  refine wp_seq (wp_invariant hrely hcall hsince (h.run w hclosed hsince)) ?_ ?_
  · intro s a hs
    exact (h' a).run s hs.1 hs.2
  · intro s e hs
    exact hs.1

/-- A transaction starts with the clock it finds. -/
theorem follows_inTransaction {body : TriggerProg α}
    (h : Tracks b faults cond moves i since none [] body) :
    Follows b faults cond moves i since (inTransaction body) := by
  refine ⟨fun w hclosed hsince => ?_⟩
  apply wp_sql
  intro w' hrely
  refine ⟨trivial, fun answer w'' hcall => ?_⟩
  have hclosed' : w'.tx.sessions i = none := hrely.session.trans hclosed
  have hsince' : since ≤ w'.clock := Int.le_trans hsince hrely.clock
  have hstep := hcall
  obtain ⟨_, now, hnow, hstep | ⟨_, ⟨message, hanswer⟩, hlost⟩⟩ := hstep
  · have hguar : (moveContract b moves i).guarantee w' w'' :=
      guarantee_of_step hcall (.inl (quiet_query (by nofun) hstep).db)
    replace hstep : BeginStep i now w' answer w'' := hstep
    unfold BeginStep at hstep
    rw [hclosed'] at hstep
    obtain ⟨rfl, rfl⟩ := hstep
    refine ⟨hguar, ?_, nofun⟩
    intro _ _
    have hstance : Stance b i since none [] { (w'.tick now).setTx i (some ⟨[], []⟩) with
        started := Function.update w'.started i now } := by
      refine ⟨⟨[], w'.tx.setSession_same i _, fun row hnone => (nomatch hnone)⟩,
        fun row hnone => (nomatch hnone), Int.le_trans hsince' hnow, ?_⟩
      show Function.update w'.started i now i ≤ now
      rw [Function.update_self]
    have hattempt : wp (lockedSession b faults cond i) (moveContract b moves i) body.attempt
        (fun s r => ∃ x, r = .ok x ∧ ∀ a, x = .ok a → s.tx.sessions i = none) _ :=
      wp_attempt (wp_mono (fun s r hr => ⟨r, rfl, hr⟩) (h.run _ hstance))
    refine wp_seq hattempt ?_ (fun s e he => by obtain ⟨_, hx, _⟩ := he; cases hx)
    intro s r hr
    obtain ⟨_, hx, hr⟩ := hr
    cases hx
    cases r with
    | ok a =>
      intro s' hrely'
      exact hrely'.session.trans (hr a rfl)
    | error e =>
      -- whatever the body left open is dropped
      apply wp_perform_bind
      intro s' hrely'
      refine ⟨trivial, fun _ s'' hcall' => ?_⟩
      have hstep' := hcall'
      obtain ⟨_, now', _, rfl⟩ := hstep'
      refine ⟨guarantee_of_step hcall' (.inl (quiet_setTx i s' now' none).db), ?_⟩
      intro s₃ hrely₃
      exact hrely₃.session.trans (TxWorld.setSession_same ..)
  · obtain rfl : w'' = (w'.tick now).setTx i none := by
      rcases hlost with h | ⟨_, hquery, _⟩
      · exact h
      · cases hquery
    refine ⟨guarantee_of_step hcall (.inl (quiet_setTx i w' now none).db), ?_, ?_⟩
    · intro a ha
      rw [hanswer] at ha
      cases ha
    · intro e _ w₃ hrely₃
      exact hrely₃.session.trans (TxWorld.setSession_same ..)

/-- A rewrite of a trigger commits nothing else. -/
theorem follows_updateReturning {tenantId triggerId : String} {edit : TriggerEdit}
    (hmoves : ∀ clock db, moves clock db (db.changeTrigger triggerId edit.change)) :
    Follows b faults cond moves i since (updateReturning tenantId triggerId edit) := by
  apply follows_inTransaction
  refine tracks_edit (tracks_selectTrigger fun updated => tracks_commit ?_)
  exact fun clock db _ _ => .inr (hmoves clock db)

/-- A call whose commits are known follows any list that has them. -/
theorem follows_of_keeps {publishes : Db → Db → Prop} {p : TriggerProg α} {R : α → Fact}
    (hmoves : ∀ clock db db', publishes db db' → moves clock db db')
    (h : Keeps b faults (fun w => LockInv b w ∧ cond w) publishes i .trivial p R) :
    Follows b faults cond moves i since p := by
  refine ⟨fun w hclosed _ => ?_⟩
  refine wp_contract (C := sessionContract publishes i) ?_ (fun _ _ _ => trivial) ?_
    (wp_mono (fun s r hr => hr.1) (h.run w hclosed True.intro))
  · exact fun s s' hrely => ⟨hrely.session, hrely.grows⟩
  · intro s op r s' hcall hguar
    exact guarantee_of_step hcall (hguar.2.imp_right (hmoves s.clock _ _))

end Calls

/-! ## What the calls commit -/

/-- A change of the tables by a call. -/
inductive Moved (rt : TriggerRuntime) (b : Backend) (Seen : TriggerRow → Prop)
    (edits : Edit → Prop) (since clock : Int) (db : Db) : Db → Prop
  | slot {db' : Db} (h : SlotMove rt b Seen since clock db db') :
      Moved rt b Seen edits since clock db db'
  | aside {db' : Db} (h : Aside db db') : Moved rt b Seen edits since clock db db'
  | edited {change : Edit} (h : edits change) :
      Moved rt b Seen edits since clock db (change.write.apply db)

section Moved

variable {rt : TriggerRuntime} {b : Backend} {faults : Bool} {cond : TriggerWorld → Prop}
  {Seen : TriggerRow → Prop} {edits : Edit → Prop} {moves : Int → Db → Db → Prop} {i : Nat}
  {since : Int}

theorem follows_dispatchNextDueScheduled
    (hmoves : ∀ clock db db', SlotMove rt b Seen since clock db db' → moves clock db db')
    (hseen : ∀ w, cond w → ∀ row ∈ w.tx.db.triggers, Seen row) (type : TriggerType)
    (tenantMax : Int) :
    Follows b faults cond moves i since (dispatchNextDueScheduled rt b type tenantMax) := by
  apply follows_inTransaction
  refine tracks_selectDueTrigger tracks_commit_nothing fun row now hrow hnow htype henabled halive
    hdue => ?_
  obtain ⟨w, hcond, hmem⟩ := hrow
  exact tracks_fireScheduled hmoves (hseen w hcond row hmem) ⟨rfl, rfl, henabled, halive⟩ htype hnow
    hdue

theorem follows_dispatchNextDueTrigger
    (hslot : ∀ clock db db', SlotMove rt b Seen since clock db db' → moves clock db db')
    (haside : ∀ clock db db', Aside db db' → moves clock db db')
    (hseen : ∀ w, cond w → ∀ row ∈ w.tx.db.triggers, Seen row) (tenantMax : Int) :
    Follows b faults cond moves i since (dispatchNextDueTriggerWithLimits rt b tenantMax) := by
  refine follows_bind (follows_of_keeps haside (keeps_dispatchNextDueWebhookEvent aside_admits
    tenantMax)) fun dispatched => ?_
  cases dispatched with
  | some dispatch => exact follows_pure
  | none =>
    refine follows_bind (follows_dispatchNextDueScheduled hslot hseen .cron tenantMax)
      fun dispatched => ?_
    cases dispatched with
    | some dispatch => exact follows_pure
    | none => exact follows_dispatchNextDueScheduled hslot hseen .interval tenantMax

theorem follows_call
    (hmoves : ∀ clock db db', Moved rt b Seen edits since clock db db' → moves clock db db')
    (hseen : ∀ w, cond w → ∀ row ∈ w.tx.db.triggers, Seen row) {call : TriggerCall}
    (hedits : ∀ change, call = .edit change → edits change) :
    Follows b faults cond moves i since (call.program rt b) := by
  have hslot : ∀ clock db db', SlotMove rt b Seen since clock db db' → moves clock db db' :=
    fun clock db db' h => hmoves clock db db' (.slot h)
  have haside : ∀ clock db db', Aside db db' → moves clock db db' :=
    fun clock db db' h => hmoves clock db db' (.aside h)
  cases call with
  | dispatch tenantMax =>
    exact follows_bind (follows_dispatchNextDueTrigger hslot haside hseen tenantMax)
      fun _ => follows_pure
  | dispatchInterval tenantMax =>
    exact follows_bind (follows_dispatchNextDueScheduled hslot hseen .interval tenantMax)
      fun _ => follows_pure
  | fire tenantId triggerId idempotencyKey payload tenantMax =>
    exact follows_bind (follows_of_keeps haside (keeps_fireTrigger aside_admits payload tenantMax
      trivial)) fun _ => follows_pure
  | enqueue tenantId triggerId eventId payload =>
    exact follows_bind (follows_of_keeps haside (keeps_enqueueEvent aside_admits tenantId triggerId
      eventId payload)) fun _ => follows_pure
  | replay tenantId triggerId eventId =>
    exact follows_bind (follows_of_keeps haside (keeps_replayEvent aside_admits tenantId triggerId
      eventId)) fun _ => follows_pure
  | edit change =>
    have hkeeps : Keeps b faults (fun w => LockInv b w ∧ cond w)
        (fun db db' => db' = change.write.apply db) i .trivial (autocommit (.edit change.write))
        fun _ => .trivial :=
      keeps_inTransaction (settles_edit (settles_commit (fun _ _ => True.intro)
        fun _ _ => .inr rfl))
    refine follows_bind (follows_of_keeps ?_ hkeeps) fun _ => follows_pure
    rintro clock db _ rfl
    exact hmoves clock db _ (.edited (hedits change rfl))

end Moved

/-! ## Any number of sessions -/

section Pool

variable {α : Type} {rt : TriggerRuntime} {b : Backend} {faults : Bool}
  {cond : TriggerWorld → Prop} {moves : Int → Db → Db → Prop} {clock : Int} {db : Db}
  {w : TriggerWorld}

/-- What every listed commit keeps holds along every interleaving. -/
theorem invariant_of_follows {I : Int → Db → Prop} {programs : Nat → TriggerProg α}
    {ps : Nat → Prog (Nat × Stmt) (fun o => o.2.Ans) DbError α}
    (hfollows : ∀ i, Follows b faults cond moves i clock (programs i))
    (hlater : ∀ now now' db, now ≤ now' → I now db → I now' db)
    (hkeep : ∀ w db', cond w → LockInv b w → clock ≤ w.clock → I w.clock w.tx.db →
      moves w.clock w.tx.db db' → I w.clock db')
    (hI : I clock db)
    (hreach : PoolReaches (sessionsIn b faults fun w => LockInv b w ∧ cond w)
      (.start clock db, fun i => (programs i).tag i) (w, ps)) :
    clock ≤ w.clock ∧ I w.clock w.tx.db := by
  refine invariant_of_pool (I := fun w => clock ≤ w.clock ∧ I w.clock w.tx.db)
    (C := fun i => (moveContract b moves i).tagged Nat) ?_ ?_
    (fun i => wp_tag ((hfollows i).run _ rfl (Int.le_refl clock))) ⟨Int.le_refl clock, hI⟩ hreach
  · intro i j hne s s' hguar
    exact hguar.1 j hne.symm
  · intro i s op r s' hs _ hcall hguar
    have hle : s.clock ≤ s'.clock := clock_session hcall.2
    refine ⟨Int.le_trans hs.1 hle, ?_⟩
    rcases hguar.2 with hsame | hmoved
    · rw [hsame]
      exact hlater _ _ _ hle hs.2
    · exact hlater _ _ _ hle (hkeep s _ hcall.1.2 hcall.1.1 hs.1 hs.2 hmoved)

/-- The locks are in order along every run. -/
theorem lockInv_of_reaches {programs programs' : Nat →
      Prog (Nat × Stmt) (fun o => o.2.Ans) DbError α}
    (hkeys : db.entries.Nodup)
    (hreach : PoolReaches (sessionsIn b faults cond) (.start clock db, programs)
      (w, programs')) : LockInv b w := by
  refine hreach.invariant (I := LockInv b) ?_ (LockInv.start hkeys)
  exact fun _ _ _ _ h hcall => lockInv_session h hcall.2

/-- A run with its locks in order. -/
theorem locked_of_reaches {programs programs' : Nat →
      Prog (Nat × Stmt) (fun o => o.2.Ans) DbError α}
    (hkeys : db.entries.Nodup)
    (hreach : PoolReaches (sessionsIn b faults cond) (.start clock db, programs)
      (w, programs')) :
    PoolReaches (sessionsIn b faults fun w => LockInv b w ∧ cond w) (.start clock db, programs)
      (w, programs') := by
  refine (PoolReaches.guarded (fun _ _ h => lockInv_of_reaches hkeys h) hreach).mono ?_
  exact fun _ _ _ _ h => ⟨⟨h.1, h.2.1⟩, h.2.2⟩

/-- Some caller makes the edit. -/
def EditedBy (calls : Nat → TriggerCall) (change : Edit) : Prop :=
  ∃ i, calls i = .edit change

/-- What every commit of the calls keeps holds along every run whose states meet the
condition. -/
theorem invariant_of_moves {I : Int → Db → Prop} {S : TriggerRow → Prop}
    {calls : Nat → TriggerCall}
    {ps : Nat → Prog (Nat × Stmt) (fun o => o.2.Ans) DbError TriggerOutcome}
    (hseen : ∀ w, cond w → ∀ row ∈ w.tx.db.triggers, S row)
    (hlater : ∀ now now' db, now ≤ now' → I now db → I now' db)
    (hkeep : ∀ w db', cond w → LockInv b w → clock ≤ w.clock → I w.clock w.tx.db →
      Moved rt b S (EditedBy calls) clock w.clock w.tx.db db' → I w.clock db')
    (hkeys : db.entries.Nodup) (hI : I clock db)
    (hreach : PoolReaches (sessionsIn b faults cond) (.start clock db, callPool rt b calls)
      (w, ps)) : clock ≤ w.clock ∧ I w.clock w.tx.db := by
  have hfollows : ∀ i, Follows b faults cond (Moved rt b S (EditedBy calls) clock) i clock
      ((calls i).program rt b) :=
    fun i => follows_call (fun _ _ _ h => h) hseen fun _ h => ⟨i, h⟩
  exact invariant_of_follows hfollows hlater hkeep hI (locked_of_reaches hkeys hreach)

end Pool

end Trigger
end SecureAgnt

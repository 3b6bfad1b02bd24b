/-
What a statement does to the sessions.

A session's statement leaves the other sessions alone, and nothing but a commit
changes the tables.  Every statement is a run of transaction steps, so the unique
indexes hold every entry once throughout.
-/
import SecureAgnt.Trigger.Statement

namespace SecureAgnt
namespace Trigger

open Storage

variable {b : Backend} {faults : Bool} {i : Nat} {now : Int} {w w' : TriggerWorld}

/-! ## One session at a time -/

/-- Only session `i` moved. -/
structure OthersKept (i : Nat) (w w' : TriggerWorld) : Prop where
  sessions : ∀ j, j ≠ i → w'.tx.sessions j = w.tx.sessions j
  started : ∀ j, j ≠ i → w'.started j = w.started j

/-- Session `i` moved and the tables are as they were. -/
structure Quiet (i : Nat) (w w' : TriggerWorld) : Prop extends OthersKept i w w' where
  db : w'.tx.db = w.tx.db

theorem quiet_tick (i : Nat) (w : TriggerWorld) (now : Int) : Quiet i w (w.tick now) :=
  ⟨⟨fun _ _ => rfl, fun _ _ => rfl⟩, rfl⟩

theorem quiet_setTx (i : Nat) (w : TriggerWorld) (now : Int) (tx : Option (Tx Write Resource)) :
    Quiet i w ((w.tick now).setTx i tx) :=
  ⟨⟨fun _ hj => w.tx.setSession_other tx hj, fun _ _ => rfl⟩, rfl⟩

theorem quiet_begin (i : Nat) (w : TriggerWorld) (now : Int) (tx : Option (Tx Write Resource)) :
    Quiet i w { (w.tick now).setTx i tx with started := Function.update w.started i now } :=
  ⟨⟨fun _ hj => w.tx.setSession_other tx hj, fun _ hj => Function.update_of_ne hj ..⟩, rfl⟩

theorem quiet_lock {rs : List Resource} (h : LockStep i now w rs w') : Quiet i w w' := by
  obtain ⟨_, h⟩ := h
  split at h
  · exact h ▸ quiet_tick i w now
  · exact h ▸ quiet_setTx i w now _

theorem quiet_write {x : Write} {answer : Except DbError Unit}
    (h : WriteStep b i now w x answer w') : Quiet i w w' := by
  unfold WriteStep at h
  split at h
  · exact h.2 ▸ quiet_tick i w now
  · rcases h.2 with ⟨_, _, rfl⟩ | ⟨_, _, _, _, rfl⟩
    · exact quiet_setTx i w now _
    · exact quiet_tick i w now

theorem quiet_writeIf {possible : Prop} {x : Write} {answer : Except DbError Bool}
    (h : WriteIfStep b i now w possible x answer w') : Quiet i w w' := by
  rcases h with ⟨_, _, h, _⟩ | ⟨_, _, rfl⟩
  · exact quiet_write h
  · exact quiet_tick i w now

/-- Nothing but a commit changes the tables. -/
theorem quiet_query {query : Query} {answer : Except DbError query.Result}
    (hcommit : query ≠ .commit) (h : QueryStep b i now w query answer w') : Quiet i w w' := by
  cases query with
  | begin =>
    replace h : BeginStep i now w answer w' := h
    unfold BeginStep at h
    split at h
    · exact h.2 ▸ quiet_begin i w now _
    · exact h.2 ▸ quiet_tick i w now
  | commit => exact absurd rfl hcommit
  | selectDueTrigger type tenantMax =>
    obtain ⟨_, _, _, h⟩ := h
    exact quiet_lock h
  | selectDueEvent tenantMax =>
    obtain ⟨_, _, _, h⟩ := h
    exact quiet_lock h
  | selectTrigger tenantId triggerId => exact h.2 ▸ quiet_tick i w now
  | selectTriggerForUpdate tenantId triggerId =>
    obtain ⟨_, _, _, h⟩ := h
    exact quiet_lock h
  | selectEvent triggerId eventId => exact h.2 ▸ quiet_tick i w now
  | selectEventForUpdate tenantId triggerId eventId =>
    obtain ⟨_, _, _, h⟩ := h
    exact quiet_lock h
  | selectTriggerRun triggerId dedupeKey => exact h.2 ▸ quiet_tick i w now
  | countTriggerInflight triggerId => exact h.2 ▸ quiet_tick i w now
  | countTenantInflight tenantId => exact h.2 ▸ quiet_tick i w now
  | insertRun row => exact quiet_write h
  | insertTriggerRun row => exact quiet_write h
  | insertEvent row => exact quiet_writeIf h
  | updateTrigger triggerId change => exact quiet_write h
  | reserveTrigger triggerId scheduledFor change => exact quiet_writeIf h
  | updateEvent eventRowId change => exact quiet_write h
  | reserveEvent selects change =>
    rcases h with ⟨_, _, _, _, h, _⟩ | ⟨_, _, rfl⟩
    · exact quiet_write h
    · exact quiet_tick i w now
  | edit x => exact quiet_write h

theorem publish_others (i : Nat) (w : TriggerWorld) (now : Int) (tx : Tx Write Resource) :
    OthersKept i w ((w.tick now).publish i tx) :=
  ⟨fun _ hj => TxWorld.setSession_other _ none hj, fun _ _ => rfl⟩

theorem publish_closed (i : Nat) (w : TriggerWorld) (now : Int) (tx : Tx Write Resource) :
    ((w.tick now).publish i tx).tx.sessions i = none :=
  TxWorld.setSession_same ..

theorem othersKept_stmt {faults : Bool} {stmt : Stmt} {answer : stmt.Ans}
    (h : stmtStep b i now w faults stmt answer w') : OthersKept i w w' := by
  cases stmt with
  | nowUtc => exact h.2 ▸ (quiet_tick i w now).toOthersKept
  | newUuid => exact h.2 ▸ (quiet_tick i w now).toOthersKept
  | rollback =>
    obtain rfl : w' = (w.tick now).setTx i none := h
    exact (quiet_setTx i w now none).toOthersKept
  | sql query =>
    rcases h with h | ⟨_, _, rfl | ⟨tx, _, _, rfl⟩⟩
    · by_cases hcommit : query = .commit
      · subst hcommit
        replace h : CommitStep i now w answer w' := h
        unfold CommitStep at h
        split at h
        · exact h.2 ▸ (quiet_tick i w now).toOthersKept
        · exact h.2 ▸ publish_others i w now _
      · exact (quiet_query hcommit h).toOthersKept
    · exact (quiet_setTx i w now none).toOthersKept
    · exact publish_others i w now tx

/-- A statement and the rest of the program after it. -/
theorem wp_sql {σ α : Type} {H : Handler Stmt Stmt.Ans σ} {C : Contract σ Stmt} {query : Query}
    {k : query.Result → TriggerProg α} {Q : σ → Except DbError α → Prop} {s : σ}
    (h : ∀ s', C.rely s s' → C.safe s' (.sql query) ∧ ∀ answer s'',
      H.step s' (.sql query) answer s'' → C.guarantee s' s'' ∧
        (∀ a, answer = .ok a → H.wp C (k a) Q s'') ∧
        ∀ e, answer = .error e → H.wp C (.fail e) Q s'') :
    H.wp C (sql query >>= k) Q s := by
  intro s' hrely
  obtain ⟨hsafe, hnext⟩ := h s' hrely
  refine ⟨hsafe, fun answer s'' hstep => ?_⟩
  obtain ⟨hguar, hok, herror⟩ := hnext answer s'' hstep
  refine ⟨hguar, ?_⟩
  cases answer with
  | ok a => exact hok a rfl
  | error e => exact herror e rfl

/-! ## The unique indexes -/

/-- A statement as steps of transactions. -/
def TxReach (i : Nat) : TxWorld Db Write Resource → TxWorld Db Write Resource → Prop :=
  Relation.ReflTransGen fun t t' => TxStep triggerStore t i t'

theorem txReach_lock {rs : List Resource} (h : LockStep i now w rs w') : TxReach i w.tx w'.tx := by
  obtain ⟨hfree, h⟩ := h
  split at h
  · exact h ▸ .refl
  · rename_i tx htx
    exact h ▸ .single (.hold htx rs hfree)

/-- A write takes hold of what it needs and is then made. -/
theorem txReach_write {x : Write} {answer : Except DbError Unit}
    (h : WriteStep b i now w x answer w') : TxReach i w.tx w'.tx := by
  unfold WriteStep at h
  split at h
  · exact h.2 ▸ .refl
  · rename_i tx htx
    obtain ⟨hfree, ⟨_, hnew, rfl⟩ | ⟨_, _, _, _, rfl⟩⟩ := h
    · have hview : w.view i = triggerStore.run tx.writes w.tx.db := by
        unfold TriggerWorld.view
        rw [htx]
      let held := w.tx.setSession i (some ⟨tx.writes, tx.holds ++ x.needs b⟩)
      have hheld : held.sessions i = some ⟨tx.writes, tx.holds ++ x.needs b⟩ :=
        w.tx.setSession_same i _
      have hwrite : TxStep triggerStore held i
          (held.setSession i (some ⟨tx.writes ++ [x], tx.holds ++ x.needs b⟩)) := by
        refine .write hheld x ?_ x.adds_nodup (hview ▸ hnew)
        intro r hr
        exact List.mem_append_right _ (List.mem_append_left _ hr)
      rw [w.tx.setSession_idem] at hwrite
      exact .tail (.single (.hold htx (x.needs b) hfree)) hwrite
    · exact .refl

theorem txReach_writeIf {possible : Prop} {x : Write} {answer : Except DbError Bool}
    (h : WriteIfStep b i now w possible x answer w') : TxReach i w.tx w'.tx := by
  rcases h with ⟨_, _, h, _⟩ | ⟨_, _, rfl⟩
  · exact txReach_write h
  · exact .refl

theorem txReach_query {query : Query} {answer : Except DbError query.Result}
    (h : QueryStep b i now w query answer w') : TxReach i w.tx w'.tx := by
  cases query with
  | begin =>
    replace h : BeginStep i now w answer w' := h
    unfold BeginStep at h
    split at h
    · rename_i hnone
      exact h.2 ▸ .single (.begin hnone)
    · exact h.2 ▸ .refl
  | commit =>
    replace h : CommitStep i now w answer w' := h
    unfold CommitStep at h
    split at h
    · exact h.2 ▸ .refl
    · rename_i tx htx
      exact h.2 ▸ .single (.commit htx)
  | selectDueTrigger type tenantMax =>
    obtain ⟨_, _, _, h⟩ := h
    exact txReach_lock h
  | selectDueEvent tenantMax =>
    obtain ⟨_, _, _, h⟩ := h
    exact txReach_lock h
  | selectTrigger tenantId triggerId => exact h.2 ▸ .refl
  | selectTriggerForUpdate tenantId triggerId =>
    obtain ⟨_, _, _, h⟩ := h
    exact txReach_lock h
  | selectEvent triggerId eventId => exact h.2 ▸ .refl
  | selectEventForUpdate tenantId triggerId eventId =>
    obtain ⟨_, _, _, h⟩ := h
    exact txReach_lock h
  | selectTriggerRun triggerId dedupeKey => exact h.2 ▸ .refl
  | countTriggerInflight triggerId => exact h.2 ▸ .refl
  | countTenantInflight tenantId => exact h.2 ▸ .refl
  | insertRun row => exact txReach_write h
  | insertTriggerRun row => exact txReach_write h
  | insertEvent row => exact txReach_writeIf h
  | updateTrigger triggerId change => exact txReach_write h
  | reserveTrigger triggerId scheduledFor change => exact txReach_writeIf h
  | updateEvent eventRowId change => exact txReach_write h
  | reserveEvent selects change =>
    rcases h with ⟨_, _, _, _, h, _⟩ | ⟨_, _, rfl⟩
    · exact txReach_write h
    · exact .refl
  | edit x => exact txReach_write h

theorem txReach_stmt {stmt : Stmt} {answer : stmt.Ans}
    (h : stmtStep b i now w faults stmt answer w') : TxReach i w.tx w'.tx := by
  cases stmt with
  | nowUtc => exact h.2 ▸ .refl
  | newUuid => exact h.2 ▸ .refl
  | rollback =>
    obtain rfl : w' = (w.tick now).setTx i none := h
    exact .single .drop
  | sql query =>
    rcases h with h | ⟨_, _, rfl | ⟨tx, _, htx, rfl⟩⟩
    · exact txReach_query h
    · exact .single .drop
    · exact .single (.commit htx)

theorem txInv_reach {t t' : TxWorld Db Write Resource} (h : TxInv triggerStore t)
    (hreach : TxReach i t t') : TxInv triggerStore t' := by
  induction hreach with
  | refl => exact h
  | tail _ hstep ih => exact txInv_step ih hstep

/-- No statement of a session breaks the indexes. -/
theorem txInv_session {stmt : Stmt} {answer : stmt.Ans} (h : TxInv triggerStore w.tx)
    (hstep : (session b faults i).step w stmt answer w') : TxInv triggerStore w'.tx := by
  obtain ⟨now, _, hstep⟩ := hstep
  exact txInv_reach h (txReach_stmt hstep)

end Trigger
end SecureAgnt

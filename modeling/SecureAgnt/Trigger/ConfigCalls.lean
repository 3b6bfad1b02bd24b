/-
Updates of a trigger with what they have read, on Postgres.

An update reads the row of the trigger, reads the clock, and writes every column of the
configuration back, all without a lock on what it has read.  `wp_config` says what the
calls commit in terms of what their sessions have read.
-/
import SecureAgnt.Trigger.Jitter
import SecureAgnt.Trigger.Noted
import SecureAgnt.Trigger.Patches

namespace SecureAgnt
namespace Trigger

open Storage
open Handler

/-! ## Calls -/

inductive ConfigCall where
  | update (tenantId triggerId : String) (params : UpdateTriggerParams)
  | other (call : TriggerCall)

inductive ConfigOutcome where
  | updated (row : Option TriggerRow)
  | other (outcome : TriggerOutcome)

def ConfigCall.program (rt : TriggerRuntime) : ConfigCall → TriggerProg ConfigOutcome
  | .update tenantId triggerId params => do
    let row ← updateTriggerConfig rt tenantId triggerId params
    .pure (.updated row)
  | .other call => do
    let outcome ← call.program rt .postgres
    .pure (.other outcome)

/-- One call in every session. -/
def configPool (rt : TriggerRuntime) (calls : Nat → ConfigCall) (i : Nat) :
    Prog (Nat × Stmt) (fun o => o.2.Ans) DbError ConfigOutcome :=
  ((calls i).program rt).tag i

/-- The patch of an update of the trigger. -/
def ConfigCall.params? (triggerId : String) : ConfigCall → Option UpdateTriggerParams
  | .update _ id params => if id = triggerId then some params else none
  | .other _ => none

/-- Some caller makes the edit. -/
def EditedIn (calls : Nat → ConfigCall) (change : Edit) : Prop :=
  ∃ i, calls i = .other (.edit change)

/-- The edit changes neither the configuration of the trigger nor its slot. -/
def Edit.KeepsConfig (triggerId : String) : Edit → Prop
  | .editTrigger id edit => id = triggerId → ∀ row,
      (edit.change row).config = row.config ∧ (edit.change row).nextFireAt = row.nextFireAt
  | _ => True

/-! ## Committed changes -/

section Changes

variable (calls : Nat → ConfigCall) (triggerId : String) (history : List Event)

/-- The patches of the trigger that changed the tables, in the order of their commits. -/
def committed : List UpdateTriggerParams :=
  history.filterMap fun event =>
    if event.changed then (calls event.session).params? triggerId else none

/-- The row as each change left it that is not by an update of it. -/
def otherChanges : List TriggerRow :=
  history.filterMap fun event =>
    if event.changed && ((calls event.session).params? triggerId).isNone then
      event.db.trigger? triggerId
    else none

end Changes

/-! ## What an update has read -/

/-- The next instant of a schedule, after a reading of the clock. -/
def regularAfter (rt : TriggerRuntime) (type : TriggerType) (config : TriggerConfig) (now : Int) :
    Option Int :=
  match type with
  | .interval => some (now + (config.intervalSeconds.map (·.val)).getD 60 * second)
  | .cron => config.cronExpression.bind fun expression =>
      (rt.nextCronFireAt expression config.scheduleTimezone now).toOption
  | .webhook => none

/-- What the update of session `i` read still stands: the columns that it leaves alone have
not changed, and every slot that has been dispatched since it read the clock was due by
then. -/
structure StillStands (triggerId : String) (params : UpdateTriggerParams) (i : Nat)
    (history : List Event) (db : Db) : Prop where
  columns : ∀ read row, readBy history i = some read → db.trigger? triggerId = some row →
    params.LeavesSame read.config row.config
  slots : ∀ now tables, firstReading history i = some (now, tables) →
    ∀ slot ∈ firedSlots triggerId db.ledger,
      slot ∈ firedSlots triggerId tables.ledger ∨ slot ≤ now

/-- At the commit of an update of the trigger, what it read still stands. -/
def CommitsInTime (calls : Nat → ConfigCall) (triggerId : String) (i : Nat)
    (t : TriggerWorld × List Event) (stmt : Stmt) : Prop :=
  ∀ params, (calls i).params? triggerId = some params → stmt = .sql .commit →
    StillStands triggerId params i t.2 t.1.tx.db

/-- All sessions with their history, in the runs in which updates of the trigger commit in
time. -/
def timelySessions (faults : Bool) (calls : Nat → ConfigCall) (triggerId : String) :
    Handler (Nat × Stmt) (fun o => o.2.Ans) (TriggerWorld × List Event) :=
  Handler.tagged fun i => notedSession faults (CommitsInTime calls triggerId i) i

/-! ## The calls keep their contracts -/

/-- The instant is the next one of the schedule after the readings of the clock.  A webhook
has none. -/
def PutsOff (rt : TriggerRuntime) (triggerId : String) (type : TriggerType)
    (config : TriggerConfig) (reads : List Int) (nextFireAt : Int) : Prop :=
  type ≠ .webhook → ∃ now entropyTime regular, reads[0]? = some now ∧
    reads[1]? = some entropyTime ∧ regularAfter rt type config now = some regular ∧
      nextFireAt = applyJitter rt regular triggerId config.jitterSeconds entropyTime

/-- A change of the tables by session `i`. -/
inductive ConfigMove (rt : TriggerRuntime) (calls : Nat → ConfigCall) (since : Int) (i : Nat)
    (t : TriggerWorld × List Event) : Db → Prop
  | update {tenantId triggerId : String} {params : UpdateTriggerParams} {read : TriggerRow}
      {schedule : Schedule} {nextFireAt : Int}
      (hcall : calls i = .update tenantId triggerId params) (hread : readBy t.2 i = some read)
      (htype : t.1.tx.db.HasTrigger triggerId read.triggerType)
      (hschedule : (params.merge read.config).schedule? read.triggerType = some schedule)
      (hnext : PutsOff rt triggerId read.triggerType (params.merge read.config)
        (clockReads t.2 i) nextFireAt) :
      ConfigMove rt calls since i t (t.1.tx.db.changeTrigger triggerId
        (configEdit tenantId (params.merge read.config) (some nextFireAt)).change)
  | other {call : TriggerCall} {db' : Db} (hcall : calls i = .other call)
      (h : Moved rt .postgres (fun _ => True) (EditedIn calls) since t.1.clock t.1.tx.db db') :
      ConfigMove rt calls since i t db'

theorem PutsOff.append {rt : TriggerRuntime} {triggerId : String} {type : TriggerType}
    {config : TriggerConfig} {history : List Event} {i : Nat} {nextFireAt : Int}
    (events : List Event)
    (h : PutsOff rt triggerId type config (clockReads history i) nextFireAt) :
    PutsOff rt triggerId type config (clockReads (history ++ events) i) nextFireAt := by
  intro htype
  obtain ⟨now, entropyTime, regular, hnow, hentropy, hregular, hnext⟩ := h htype
  exact ⟨now, entropyTime, regular, clockReads_append events hnow, clockReads_append events hentropy,
    hregular, hnext⟩

/-- Outside a transaction, session `i` has read the trigger and these times. -/
structure Reading (i : Nat) (triggerId : String) (read : TriggerRow) (reads : List Int)
    (t : TriggerWorld × List Event) : Prop where
  closed : t.1.tx.sessions i = none
  row : readBy t.2 i = some read
  clock : clockReads t.2 i = reads
  type : t.1.tx.db.HasTrigger triggerId read.triggerType

section Updates

variable {α : Type} {rt : TriggerRuntime} {faults : Bool}
  {cond : TriggerWorld × List Event → Stmt → Prop} {calls : Nat → ConfigCall} {since : Int} {i : Nat}
  {moves : TriggerWorld × List Event → Db → Prop} {t t' : TriggerWorld × List Event}
  {tenantId triggerId : String} {params : UpdateTriggerParams} {read : TriggerRow}
  {reads : List Int}

theorem Reading.stable (h : Reading i triggerId read reads t)
    (hrely : (notedContract moves i).rely t t') : Reading i triggerId read reads t' := by
  obtain ⟨hleft, hown⟩ := hrely
  refine ⟨hleft.session.trans h.closed, ?_, ?_, hleft.grows.triggers _ _ h.type⟩
  · unfold readBy
    rw [hown]
    exact h.row
  · unfold clockReads
    rw [hown]
    exact h.clock

/-- A reading of the clock is noted. -/
theorem wp_nowUtc_noted {k : Int → TriggerProg α}
    {Q : TriggerWorld × List Event → Except DbError α → Prop}
    (hlock : ∀ t stmt, cond t stmt → LockInv .postgres t.1) (h : Reading i triggerId read reads t)
    (hnext : ∀ now t', Reading i triggerId read (reads ++ [now]) t' →
      wp (notedSession faults cond i) (notedContract moves i) (k now) Q t') :
    wp (notedSession faults cond i) (notedContract moves i) (nowUtc >>= k) Q t := by
  apply wp_perform_bind
  intro t₁ hrely
  refine ⟨trivial, fun now t₂ hcall => ?_⟩
  have h₁ := h.stable hrely
  obtain ⟨⟨now', _, hanswer, hworld⟩, changed, hhistory, _⟩ := noted_step hcall
  refine ⟨noted_guarantee (hlock t₁ _ hcall.1) hcall (.inl (hworld ▸ rfl)), hnext now t₂ ?_⟩
  have hdb : t₂.1.tx = t₁.1.tx := hworld ▸ rfl
  refine ⟨hdb ▸ h₁.closed, hhistory ▸ readBy_append _ h₁.row, ?_, hdb ▸ h₁.type⟩
  have hreads := h₁.clock
  unfold clockReads at hreads ⊢
  rw [hhistory, own_concat_self rfl, List.filterMap_append, hreads]
  rfl

/-- The lookup of an update is the first that its session makes. -/
theorem wp_selectTrigger_noted {k : Option TriggerRow → TriggerProg α}
    {Q : TriggerWorld × List Event → Except DbError α → Prop}
    (hlock : ∀ t stmt, cond t stmt → LockInv .postgres t.1)
    (hclosed : t.1.tx.sessions i = none) (hown : own t.2 i = [])
    (hnone : ∀ t', wp (notedSession faults cond i) (notedContract moves i) (k none) Q t')
    (hsome : ∀ read t', read.id = triggerId → Reading i triggerId read [] t' →
      wp (notedSession faults cond i) (notedContract moves i) (k (some read)) Q t')
    (herror : ∀ e t', wp (notedSession faults cond i) (notedContract moves i) (.fail e) Q t') :
    wp (notedSession faults cond i) (notedContract moves i)
      (sql (.selectTrigger tenantId triggerId) >>= k) Q t := by
  apply wp_sql
  intro t₁ hrely
  refine ⟨trivial, fun answer t₂ hcall => ?_⟩
  obtain ⟨hstep, changed, hhistory, hchanged⟩ := noted_step hcall
  have hdb : t₂.1.tx.db = t₁.1.tx.db := by
    by_contra hne
    obtain ⟨now, _, hstmt⟩ := hstep
    cases commit_of_changed hstmt hne
  refine ⟨noted_guarantee (hlock t₁ _ hcall.1) hcall (.inl hdb), ?_, fun e _ => herror e t₂⟩
  rintro found rfl
  cases found with
  | none => exact hnone t₂
  | some read =>
    have hclosed' : t₁.1.tx.sessions i = none := hrely.1.session.trans hclosed
    obtain ⟨now, _, ⟨hanswer, hworld⟩ | ⟨_, ⟨_, hanswer⟩, _⟩⟩ := hstep
    · have hfound : (t₁.1.tx.db.trigger? triggerId).filter (·.tenantId = tenantId) = some read := by
        have hview : t₁.1.view i = t₁.1.tx.db := by
          unfold TriggerWorld.view
          rw [hclosed']
        rw [hview] at hanswer
        exact (Except.ok.inj hanswer).symm
      obtain ⟨hrow, _⟩ := Option.filter_eq_some_iff.mp hfound
      obtain ⟨hmem, hid⟩ := Table.key_of_find hrow
      have hevents : own t₂.2 i = [⟨i, .sql (.selectTrigger tenantId triggerId), .ok (some read),
          changed, t₂.1.tx.db⟩] := by
        rw [hhistory, own_concat_self rfl, hrely.2, hown]
        rfl
      refine hsome read t₂ hid ⟨?_, ?_, ?_, read, hdb ▸ hmem, hid, rfl⟩
      · rw [hworld]
        exact hclosed'
      · unfold readBy
        rw [hevents]
        rfl
      · unfold clockReads
        rw [hevents]
        rfl
    · cases hanswer

/-- The next instant without jitter: of a webhook the one it has, else one that the clock
gives. -/
theorem wp_regularFireAt {config : TriggerConfig} {k : Int → TriggerProg α}
    (hlock : ∀ t stmt, cond t stmt → LockInv .postgres t.1) (h : Reading i triggerId read [] t)
    (hwebhook : read.triggerType = .webhook →
      wp (notedSession faults cond i) (notedContract moves i) (k read.nextFireAt)
        (fun _ _ => True) t)
    (hregular : ∀ now regular t', regularAfter rt read.triggerType config now = some regular →
      Reading i triggerId read [now] t' →
        wp (notedSession faults cond i) (notedContract moves i) (k regular) (fun _ _ => True) t') :
    wp (notedSession faults cond i) (notedContract moves i)
      (regularFireAt rt read config >>= k) (fun _ _ => True) t := by
  unfold regularFireAt
  cases htype : read.triggerType with
  | interval =>
    rw [htype] at hregular
    rw [Prog.bind_assoc]
    refine wp_nowUtc_noted hlock h fun now t' hread => ?_
    exact hregular now _ t' rfl hread
  | cron =>
    rw [htype] at hregular
    cases hexpression : config.cronExpression with
    | none => exact fun _ _ => trivial
    | some expression =>
      dsimp only
      rw [Prog.bind_assoc]
      refine wp_nowUtc_noted hlock h fun now t' hread => ?_
      cases hnext : rt.nextCronFireAt expression config.scheduleTimezone now with
      | error message => exact fun _ _ => trivial
      | ok value =>
        refine hregular now value t' ?_ hread
        unfold regularAfter
        dsimp only
        rw [hexpression, Option.bind_some, hnext]
        rfl
  | webhook => exact hwebhook htype

/-- The statements of the write change nothing of what the update has read. -/
theorem wp_writeConfig {nextFireAt : Int}
    (hlock : ∀ t stmt, cond t stmt → LockInv .postgres t.1)
    (hcall : calls i = .update tenantId triggerId params) (hid : read.id = triggerId)
    (h : Reading i triggerId read reads t)
    (hnext : PutsOff rt triggerId read.triggerType (params.merge read.config) reads nextFireAt) :
    wp (notedSession faults cond i) (notedContract (ConfigMove rt calls since i) i)
      (writeConfig tenantId read (params.merge read.config) nextFireAt) (fun _ _ => True) t := by
  unfold writeConfig
  cases hschedule : (params.merge read.config).schedule? read.triggerType with
  | none => exact fun _ _ => trivial
  | some schedule =>
    dsimp only
    rw [hid]
    let edit := configEdit tenantId (params.merge read.config) (some nextFireAt)
    have hfollows : Follows .postgres faults (fun _ => True)
        (fun _ db db' => db' = db.changeTrigger triggerId edit.change) i t.1.clock
        (updateReturning tenantId triggerId edit) := follows_updateReturning fun _ _ => rfl
    refine noted_of_follows (I := fun t => readBy t.2 i = some read ∧
      t.1.tx.db.HasTrigger triggerId read.triggerType ∧
        PutsOff rt triggerId read.triggerType (params.merge read.config) (clockReads t.2 i)
          nextFireAt) hlock ?_ ?_ ?_ hfollows h.closed (Int.le_refl t.1.clock)
      ⟨h.row, h.type, h.clock.symm ▸ hnext⟩
    · intro t t' hI hrely
      obtain ⟨hrow, htype, hputs⟩ := hI
      obtain ⟨hleft, hown⟩ := hrely
      unfold readBy clockReads at *
      rw [hown]
      exact ⟨hrow, hleft.grows.triggers _ _ htype, hputs⟩
    · intro t stmt answer t' hI hstep
      obtain ⟨hrow, htype, hputs⟩ := hI
      obtain ⟨⟨now, _, hstmt⟩, changed, hhistory, _⟩ := noted_step hstep
      rw [hhistory]
      refine ⟨readBy_append _ hrow, ?_, hputs.append _⟩
      rcases db_of_stmt hstmt with hsame | ⟨tx, _, hdb⟩
      · exact hsame ▸ htype
      · exact hdb ▸ (grows_run tx.writes t.1.tx.db).triggers _ _ htype
    · rintro t _ ⟨hrow, htype, hputs⟩ rfl
      exact .update hcall hrow htype hschedule hputs

/-- An update commits what it merged from the row that it read. -/
theorem wp_updateTriggerConfig (hlock : ∀ t stmt, cond t stmt → LockInv .postgres t.1)
    (hcall : calls i = .update tenantId triggerId params) (hclosed : t.1.tx.sessions i = none)
    (hown : own t.2 i = []) :
    wp (notedSession faults cond i) (notedContract (ConfigMove rt calls since i) i)
      (updateTriggerConfig rt tenantId triggerId params) (fun _ _ => True) t := by
  refine wp_selectTrigger_noted hlock hclosed hown (fun _ _ _ => trivial) ?_
    (fun _ _ _ _ => trivial)
  intro read t' hid hread
  refine wp_regularFireAt hlock hread (fun hwebhook => ?_) fun now regular t₁ hregular h₁ => ?_
  · refine wp_nowUtc_noted hlock hread fun entropyTime t₂ h₂ => ?_
    exact wp_writeConfig hlock hcall hid h₂ fun hne => absurd hwebhook hne
  · refine wp_nowUtc_noted hlock h₁ fun entropyTime t₂ h₂ => ?_
    refine wp_writeConfig hlock hcall hid h₂ fun _ => ?_
    exact ⟨now, entropyTime, regular, rfl, rfl, hregular, by rw [hid]⟩

/-- Every call commits only what `ConfigMove` lists. -/
theorem wp_config (hlock : ∀ t stmt, cond t stmt → LockInv .postgres t.1)
    (hclosed : t.1.tx.sessions i = none) (hown : own t.2 i = []) (hsince : since ≤ t.1.clock) :
    wp (notedSession faults cond i) (notedContract (ConfigMove rt calls since i) i)
      ((calls i).program rt) (fun _ _ => True) t := by
  cases hcall : calls i with
  | update tenantId triggerId params =>
    exact wp_seq (wp_updateTriggerConfig hlock hcall hclosed hown) (fun _ _ _ _ _ => trivial)
      fun _ _ _ => trivial
  | other call =>
    have hfollows : Follows .postgres faults (fun _ => True)
        (Moved rt .postgres (fun _ => True) (EditedIn calls) since) i since
        (call.program rt .postgres) :=
      follows_call (fun _ _ _ h => h) (fun _ _ _ _ => trivial)
        fun _ hedit => ⟨i, hcall.trans (congrArg ConfigCall.other hedit)⟩
    refine wp_seq (noted_of_follows (I := fun _ => True) hlock (fun _ _ _ _ => trivial)
      (fun _ _ _ _ _ _ => trivial) (fun t db' _ h => .other hcall h) hfollows hclosed hsince trivial)
      (fun _ _ _ _ _ => trivial) fun _ _ _ => trivial

end Updates

end Trigger
end SecureAgnt

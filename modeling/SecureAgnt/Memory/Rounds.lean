/-
Compactions and memory writes with their history.

Every statement of a call is noted with its answer.  What a compaction marks falls into
rounds, one for each group.  In a run whose rounds are neither cut short nor broken off,
every record that is hidden is summarised once: `compactions_summarise`.
`stopped_compaction_hides` is a run of a compaction that stops after its marks.
-/
import SecureAgnt.Memory.Summaries

namespace SecureAgnt
namespace Memory

open Storage
open Handler

/-! ## Calls -/

inductive MemoryCall where
  | compact (olderThanOrEqual minRecords maxGroups : Int) (newIds : Nat → Uuid)
  | create (new : NewMemoryRecord)
  | purge (tenantId : String) (asOf : Int)

inductive MemoryOutcome where
  | compacted (stats : CompactionStats)
  | created
  | purged (count : Nat)

def MemoryCall.program (b : Backend) : MemoryCall → MemoryProg MemoryOutcome
  | .compact olderThanOrEqual minRecords maxGroups newIds => do
    let stats ← compactMemoryRecords b olderThanOrEqual minRecords maxGroups newIds
    .pure (.compacted stats)
  | .create new => do
    ask (.createRecord new)
    .pure .created
  | .purge tenantId asOf => do
    let count ← ask (.purgeExpired tenantId asOf)
    .pure (.purged count)

/-- How many records a compaction asks of a group. -/
def MemoryCall.minRecords : MemoryCall → Int
  | .compact _ minRecords _ _ => max minRecords 2
  | _ => 0

/-- One call of every caller. -/
def memoryPool (b : Backend) (calls : Nat → MemoryCall) (i : Nat) :
    Prog (Nat × MemoryOp) (fun o => Fallible MemoryResult o.2) String MemoryOutcome :=
  ((calls i).program b).tag i

/-! ## Histories -/

/-- A statement of a caller with its answer. -/
structure MemoryEvent where
  caller : Nat
  op : MemoryOp
  answer : Fallible MemoryResult op

abbrev MemoryLog := MemoryWorld × List MemoryEvent

/-- The statements of one caller, noted. -/
def loggedHandler (b : Backend) (i : Nat) : Handler MemoryOp (Fallible MemoryResult) MemoryLog :=
  (memoryHandler b i).recorded fun _ op answer _ event => event = ⟨i, op, answer⟩

/-- What caller `i` did. -/
def eventsOf (history : List MemoryEvent) (i : Nat) : List MemoryEvent :=
  history.filter (·.caller = i)

def MemoryOp.isMark : MemoryOp → Bool
  | .markAll _ => true
  | .markOne _ => true
  | _ => false

/-- The statements that mark or summarise. -/
def MemoryOp.compacts : MemoryOp → Bool
  | .insertCompaction _ => true
  | op => op.isMark

/-- A statement that marks or summarises ended in an error. -/
def MemoryEvent.fails : MemoryEvent → Bool
  | ⟨_, op, .error _⟩ => op.compacts
  | _ => false

/-- What the `UPDATE`s of a group have marked so far, before what those of earlier groups
have.  A group begins with its one `UPDATE` on Postgres, and with the selection of its
sources on SQLite. -/
def MemoryEvent.extend : MemoryEvent → List (List Uuid) → List (List Uuid)
  | ⟨_, .markAll _, .ok ids⟩, rounds => ids :: rounds
  | ⟨_, .selectSources .., .ok _⟩, rounds => [] :: rounds
  | ⟨_, .markOne id, .ok affected⟩, round :: rounds =>
    (if affected = 1 then round ++ [id] else round) :: rounds
  | _, rounds => rounds

/-- What a call has marked, group by group, the last group first. -/
def rounds (events : List MemoryEvent) : List (List Uuid) :=
  events.foldl (fun rounds event => event.extend rounds) []

/-- No statement that marks or summarises has failed, and of each group no record or
enough of them were marked. -/
structure Steady (minRecords : Int) (events : List MemoryEvent) : Prop where
  answered : ∀ event ∈ events, event.fails = false
  enough : ∀ round ∈ rounds events, round = [] ∨ minRecords ≤ round.length

/-- The last statement marks. -/
def BehindMarks (events : List MemoryEvent) : Prop :=
  events.getLast?.any (·.op.isMark) = true

instance (events : List MemoryEvent) : Decidable (BehindMarks events) :=
  inferInstanceAs (Decidable (_ = true))

/-- A summary lists no more records than its count can say. -/
def MemoryOp.countFits : MemoryOp → Bool
  | .insertCompaction row => decide ((row.sourceEntryIds.length : Int) ≤ i32Max)
  | _ => true

/-- A call that has done these statements and goes on with `p` was not cut short: its rounds
are steady, and it has not stopped between its marks and its summary. -/
structure Uninterrupted (call : MemoryCall) (events : List MemoryEvent)
    (p : Prog (Nat × MemoryOp) (fun o => Fallible MemoryResult o.2) String MemoryOutcome) :
    Prop where
  steady : Steady call.minRecords events
  ended : BehindMarks events → ∃ outcome, p = .pure outcome

section Events

variable {history events : List MemoryEvent} {event : MemoryEvent} {i : Nat} {minRecords : Int}

theorem eventsOf_concat_self (hcaller : event.caller = i) :
    eventsOf (history ++ [event]) i = eventsOf history i ++ [event] := by
  unfold eventsOf
  rw [List.filter_append, List.filter_cons_of_pos (by simpa using hcaller), List.filter_nil]

theorem eventsOf_concat_other (hcaller : event.caller ≠ i) :
    eventsOf (history ++ [event]) i = eventsOf history i := by
  unfold eventsOf
  rw [List.filter_append, List.filter_cons_of_neg (by simpa using hcaller), List.filter_nil,
    List.append_nil]

theorem rounds_concat : rounds (events ++ [event]) = event.extend (rounds events) :=
  List.foldl_concat ..

theorem behindMarks_concat (h : event.op.isMark = true) : BehindMarks (events ++ [event]) := by
  unfold BehindMarks
  rw [List.getLast?_concat]
  exact h

theorem answered_of_concat (h : ∀ event' ∈ events ++ [event], event'.fails = false) :
    ∀ event' ∈ events, event'.fails = false :=
  fun event' hmem => h event' (List.mem_append_left _ hmem)

/-- A statement that neither marks nor summarises adds no round but an empty one. -/
theorem steady_of_concat (hop : event.op.compacts = false)
    (h : Steady minRecords (events ++ [event])) : Steady minRecords events := by
  refine ⟨answered_of_concat h.answered, fun round hround => h.enough round ?_⟩
  rw [rounds_concat]
  obtain ⟨_, op, answer⟩ := event
  cases op with
  | selectSources key cutoff =>
    cases answer with
    | ok sources => exact List.mem_cons_of_mem _ hround
    | error message => exact hround
  | markAll ids => cases hop
  | markOne id => cases hop
  | insertCompaction row => cases hop
  | _ => exact hround

/-- A failed mark or summary is not steady. -/
theorem not_steady_of_failed {op : MemoryOp} {message : String} (hop : op.compacts = true) :
    ¬ Steady minRecords (events ++ [⟨i, op, .error message⟩]) := by
  intro h
  have hfails := h.answered _ (List.mem_append_right _ List.mem_cons_self)
  rw [show MemoryEvent.fails ⟨i, op, .error message⟩ = op.compacts from rfl, hop] at hfails
  cases hfails

end Events

/-! ## What a call keeps -/

/-- What the others leave as it is. -/
def ownPart (t : MemoryLog) (i : Nat) : List MemoryMark × List MemoryEvent :=
  (t.1.own i, eventsOf t.2 i)

/-- If the call is steady, nothing that it has marked waits for its summary. -/
def Settled (minRecords : Int) (i : Nat) (t : MemoryLog) : Prop :=
  Steady minRecords (eventsOf t.2 i) → t.1.own i = []

/-- The call is settled, or behind its marks. -/
def Resting (minRecords : Int) (i : Nat) (t : MemoryLog) : Prop :=
  ¬ BehindMarks (eventsOf t.2 i) → Settled minRecords i t

def callContract (minRecords : Int) (i : Nat) : Contract MemoryLog MemoryOp :=
  .owned ownPart i fun t op => MayCall i t.1 op ∧ Resting minRecords i t

/-- The postcondition of a part of a call. -/
def Ends {α : Type} (minRecords : Int) (i : Nat) (P : MemoryLog → α → Prop) (t : MemoryLog) :
    Except String α → Prop
  | .ok a => P t a
  | .error _ => Resting minRecords i t

/-- The call has marked these records of the group that it is at. -/
structure Marking (minRecords : Int) (i : Nat) (base : List (List Uuid)) (ids : List Uuid)
    (t : MemoryLog) : Prop where
  rounds : rounds (eventsOf t.2 i) = ids :: base
  behind : ids = [] ∨ BehindMarks (eventsOf t.2 i)
  held : t.1.Holds i ids
  only : (∀ event ∈ eventsOf t.2 i, event.fails = false) →
    (∀ round ∈ base, round = [] ∨ minRecords ≤ round.length) → ∀ mark ∈ t.1.own i, mark.record ∈ ids

section Keeps

variable {α β : Type} {b : Backend} {minRecords : Int} {i : Nat} {t t' : MemoryLog}
  {base : List (List Uuid)} {ids : List Uuid}

theorem Settled.stable (h : Settled minRecords i t) (hsame : ownPart t' i = ownPart t i) :
    Settled minRecords i t' := by
  obtain ⟨hown, hevents⟩ := Prod.mk.inj hsame
  unfold Settled
  rw [hown, hevents]
  exact h

theorem Resting.stable (h : Resting minRecords i t) (hsame : ownPart t' i = ownPart t i) :
    Resting minRecords i t' := by
  intro hnot
  refine Settled.stable (h ?_) hsame
  rwa [← (Prod.mk.inj hsame).2]

theorem Marking.stable (h : Marking minRecords i base ids t) (hsame : ownPart t' i = ownPart t i) :
    Marking minRecords i base ids t' := by
  obtain ⟨hown, hevents⟩ := Prod.mk.inj hsame
  refine ⟨hevents ▸ h.rounds, hevents ▸ h.behind, holds_of_rely h.held hown, ?_⟩
  rw [hown, hevents]
  exact h.only

/-- Where the marks of the group are enough or none, nothing else waits for a summary. -/
theorem Marking.only_steady (h : Marking minRecords i base ids t)
    (hsteady : Steady minRecords (eventsOf t.2 i)) : ∀ mark ∈ t.1.own i, mark.record ∈ ids := by
  refine h.only hsteady.answered fun round hround => hsteady.enough round ?_
  rw [h.rounds]
  exact List.mem_cons_of_mem _ hround

theorem Marking.settled_of_nil (h : Marking minRecords i base [] t) : Settled minRecords i t :=
  fun hsteady => List.eq_nil_iff_forall_not_mem.mpr fun mark hmark =>
    List.not_mem_nil (h.only_steady hsteady mark hmark)

theorem Marking.resting (h : Marking minRecords i base ids t) : Resting minRecords i t := by
  intro hnot
  rcases h.behind with rfl | hbehind
  · exact h.settled_of_nil
  · exact absurd hbehind hnot

/-- A group of which too few were marked is not steady, unless none was. -/
theorem Marking.settled_of_short (h : Marking minRecords i base ids t)
    (hshort : (ids.length : Int) < minRecords) : Settled minRecords i t := by
  intro hsteady
  have hmem : ids ∈ Memory.rounds (eventsOf t.2 i) := h.rounds ▸ List.mem_cons_self
  rcases hsteady.enough ids hmem with rfl | henough
  · exact h.settled_of_nil hsteady
  · omega

/-! ## Statements -/

/-- A statement that neither marks nor summarises leaves the marks of its caller. -/
theorem own_of_quiet {now : Int} {op : MemoryOp} {result : MemoryResult op} {w w' : MemoryWorld}
    (hop : op.compacts = false) (h : memoryEffect b i now w op result w') : w'.own i = w.own i := by
  cases op with
  | selectGroups cutoff minRecords maxGroups => rw [h.2]
  | selectSources key cutoff => rw [h.2]
  | createRecord new =>
    obtain ⟨_, _, rfl⟩ := h
    rfl
  | purgeExpired tenantId asOf =>
    rw [h.2]
    rfl
  | markAll ids => cases hop
  | markOne id => cases hop
  | insertCompaction row => cases hop

/-- A statement and its note. -/
theorem logged_step {op : MemoryOp} {answer : Fallible MemoryResult op}
    (h : (loggedHandler b i).step t op answer t') :
    (memoryHandler b i).step t.1 op answer t'.1 ∧ t'.2 = t.2 ++ [⟨i, op, answer⟩] := by
  obtain ⟨hcall, event, rfl, hhistory⟩ := h
  exact ⟨hcall, hhistory⟩

theorem ownPart_other {op : MemoryOp} {answer : Fallible MemoryResult op} {j : Nat} (hne : j ≠ i)
    (h : (loggedHandler b i).step t op answer t') : ownPart t' j = ownPart t j := by
  obtain ⟨hcall, hhistory⟩ := logged_step h
  refine Prod.ext ?_ ?_
  · rcases effect_of_fallible hcall with hsame | ⟨result, now, heffect⟩
    · exact congrArg (MemoryWorld.own · j) hsame
    · exact own_of_effect hne heffect
  · show eventsOf t'.2 j = eventsOf t.2 j
    rw [hhistory]
    exact eventsOf_concat_other hne.symm

/-- A statement that neither marks nor summarises leaves its caller settled, also when it
fails. -/
theorem Settled.quiet {op : MemoryOp} {answer : Fallible MemoryResult op}
    (h : Settled minRecords i t) (hop : op.compacts = false)
    (hcall : (loggedHandler b i).step t op answer t') : Settled minRecords i t' := by
  obtain ⟨hstep, hhistory⟩ := logged_step hcall
  intro hsteady
  rw [hhistory, eventsOf_concat_self rfl] at hsteady
  have hown : t'.1.own i = t.1.own i := by
    rcases effect_of_fallible hstep with hsame | ⟨result, now, heffect⟩
    · exact congrArg (MemoryWorld.own · i) hsame
    · exact own_of_quiet hop heffect
  rw [hown]
  exact h (steady_of_concat hop hsteady)

/-- A statement of a call that is settled, unless the statement marks or summarises. -/
theorem wp_ask {op : MemoryOp} {P : MemoryLog → MemoryResult op → Prop}
    (hmay : ∀ t₁, ownPart t₁ i = ownPart t i → MayCall i t₁.1 op) (hrest : Resting minRecords i t)
    (hquiet : op.compacts = false → Settled minRecords i t)
    (hok : ∀ t₁ now result t₂, ownPart t₁ i = ownPart t i →
      memoryEffect b i now t₁.1 op result t₂.1 → t₂.2 = t₁.2 ++ [⟨i, op, .ok result⟩] →
        (op.compacts = false → Settled minRecords i t₂) → ∀ t₃, ownPart t₃ i = ownPart t₂ i →
          P t₃ result) :
    wp (loggedHandler b i) (callContract minRecords i) (ask op) (Ends minRecords i P) t := by
  refine wp_perform_bind fun t₁ hrely => ⟨⟨hmay t₁ hrely, hrest.stable hrely⟩, ?_⟩
  intro answer t₂ hcall
  refine ⟨fun j hne => ownPart_other hne hcall, wp_ofExcept fun t₃ hrely' => ?_⟩
  obtain ⟨hstep, hhistory⟩ := logged_step hcall
  have hsettled : op.compacts = false → Settled minRecords i t₂ := fun hop =>
    ((hquiet hop).stable hrely).quiet hop hcall
  cases answer with
  | ok result =>
    obtain ⟨now, heffect⟩ := hstep
    exact hok t₁ now result t₂ hrely heffect hhistory hsettled t₃ hrely'
  | error message =>
    refine Resting.stable (fun _ => ?_) hrely'
    cases hop : op.compacts with
    | false => exact hsettled hop
    | true =>
      intro hsteady
      rw [hhistory, eventsOf_concat_self rfl] at hsteady
      exact absurd hsteady (not_steady_of_failed hop)

theorem wp_then {P : MemoryLog → α → Prop} {Q : MemoryLog → β → Prop} {p : MemoryProg α}
    {f : α → MemoryProg β}
    (hp : wp (loggedHandler b i) (callContract minRecords i) p (Ends minRecords i P) t)
    (hf : ∀ t a, P t a →
      wp (loggedHandler b i) (callContract minRecords i) (f a) (Ends minRecords i Q) t) :
    wp (loggedHandler b i) (callContract minRecords i) (p >>= f) (Ends minRecords i Q) t :=
  wp_seq hp hf fun _ _ herror => herror

/-! ## Marks -/

theorem own_mark_self {w : MemoryWorld} {now : Int} :
    (w.mark i ids now).own i = w.own i ++ ids.map fun id => ⟨i, id⟩ := by
  show (w.marks ++ _).filter _ = _
  rw [List.filter_append]
  congr 1
  refine List.filter_eq_self.mpr fun mark hmark => ?_
  obtain ⟨id, _, rfl⟩ := List.mem_map.mp hmark
  exact decide_eq_true rfl

/-- The `UPDATE` of a group of Postgres begins a round. -/
theorem Settled.markAll {sources : List Uuid} {now : Int} (h : Settled minRecords i t)
    (heffect : memoryEffect b i now t.1 (.markAll sources) ids t'.1)
    (hhistory : t'.2 = t.2 ++ [⟨i, .markAll sources, .ok ids⟩]) :
    Marking minRecords i (rounds (eventsOf t.2 i)) ids t' := by
  have hworld : t'.1 = t.1.mark i ids now := heffect.2
  have hevents : eventsOf t'.2 i = eventsOf t.2 i ++ [⟨i, .markAll sources, .ok ids⟩] := by
    rw [hhistory]
    exact eventsOf_concat_self rfl
  refine ⟨?_, .inr (hevents ▸ behindMarks_concat rfl), fun id hid => ?_, ?_⟩
  · rw [hevents, rounds_concat]
    rfl
  · rw [hworld]
    exact mem_marks_mark hid
  · intro hanswered hbase mark hmark
    rw [hevents] at hanswered
    rw [hworld, own_mark_self, h ⟨answered_of_concat hanswered, hbase⟩, List.nil_append] at hmark
    obtain ⟨id, hid, rfl⟩ := List.mem_map.mp hmark
    exact hid

/-- The selection of its sources begins the round of a group of SQLite. -/
theorem Settled.selectSources {key : GroupKey} {cutoff now : Int} {sources : List Uuid}
    (h : Settled minRecords i t)
    (heffect : memoryEffect b i now t.1 (.selectSources key cutoff) sources t'.1)
    (hhistory : t'.2 = t.2 ++ [⟨i, .selectSources key cutoff, .ok sources⟩]) :
    Marking minRecords i (rounds (eventsOf t.2 i)) [] t' := by
  have hworld : t'.1 = t.1 := heffect.2
  have hevents : eventsOf t'.2 i = eventsOf t.2 i ++ [⟨i, .selectSources key cutoff, .ok sources⟩] := by
    rw [hhistory]
    exact eventsOf_concat_self rfl
  refine ⟨?_, .inl rfl, fun _ hid => absurd hid List.not_mem_nil, ?_⟩
  · rw [hevents, rounds_concat]
    rfl
  · intro hanswered hbase mark hmark
    rw [hevents] at hanswered
    rw [hworld, h ⟨answered_of_concat hanswered, hbase⟩] at hmark
    cases hmark

theorem markable_singleton (w : MemoryWorld) (id : Uuid) :
    w.markable [id] = [] ∨ w.markable [id] = [id] := by
  have hall : ∀ id' ∈ w.markable [id], id' = id := fun id' hid' =>
    List.mem_singleton.mp (mem_markable hid').1
  have hnodup := nodup_markable (w := w) [id]
  match hids : w.markable [id] with
  | [] => exact .inl rfl
  | [id'] => exact .inr (by rw [hall id' (hids ▸ List.mem_cons_self)])
  | id' :: id'' :: rest =>
    rw [hids] at hall hnodup
    have hsame : id' = id'' := (hall id' List.mem_cons_self).trans
      (hall id'' (List.mem_cons_of_mem _ List.mem_cons_self)).symm
    exact absurd (hsame ▸ List.mem_cons_self) (List.nodup_cons.mp hnodup).1

/-- The `UPDATE` of one record goes on with the round. -/
theorem Marking.markOne {id : Uuid} {affected : Nat} {now : Int}
    (h : Marking minRecords i base ids t)
    (heffect : memoryEffect b i now t.1 (.markOne id) affected t'.1)
    (hhistory : t'.2 = t.2 ++ [⟨i, .markOne id, .ok affected⟩]) :
    Marking minRecords i base (if affected = 1 then ids ++ [id] else ids) t' := by
  obtain ⟨haffected, hworld⟩ := heffect
  have hevents : eventsOf t'.2 i = eventsOf t.2 i ++ [⟨i, .markOne id, .ok affected⟩] := by
    rw [hhistory]
    exact eventsOf_concat_self rfl
  have hrounds : Memory.rounds (eventsOf t'.2 i) =
      (if affected = 1 then ids ++ [id] else ids) :: base := by
    rw [hevents, rounds_concat, h.rounds]
    rfl
  refine ⟨hrounds, .inr (hevents ▸ behindMarks_concat rfl), ?_, fun hanswered hbase mark hmark => ?_⟩
  · have hheld : t'.1.Holds i ids := fun id' hid' => hworld ▸ List.mem_append_left _ (h.held id' hid')
    rcases markable_singleton t.1 id with hnone | hone
    · rw [if_neg (by rw [haffected, hnone]; decide)]
      exact hheld
    · rw [if_pos (by rw [haffected, hone]; rfl)]
      intro id' hid'
      rcases List.mem_append.mp hid' with hid' | hid'
      · exact hheld id' hid'
      · rw [hworld, hone]
        exact mem_marks_mark hid'
  · rw [hevents] at hanswered
    rw [hworld, own_mark_self] at hmark
    have hbefore := h.only (answered_of_concat hanswered) hbase
    rcases markable_singleton t.1 id with hnone | hone
    · rw [if_neg (by rw [haffected, hnone]; decide)]
      rw [hnone, List.map_nil, List.append_nil] at hmark
      exact hbefore mark hmark
    · rw [if_pos (by rw [haffected, hone]; rfl)]
      rw [hone] at hmark
      rcases List.mem_append.mp hmark with hmark | hmark
      · exact List.mem_append_left _ (hbefore mark hmark)
      · rw [List.mem_singleton.mp hmark]
        exact List.mem_append_right _ List.mem_cons_self

/-- A summary of what the group has marked ends its round. -/
theorem Marking.insertCompaction {row : CompactionRow} {now : Int}
    (h : Marking minRecords i base ids t) (hrow : row.sourceEntryIds = ids)
    (heffect : memoryEffect b i now t.1 (.insertCompaction row) () t'.1)
    (hhistory : t'.2 = t.2 ++ [⟨i, .insertCompaction row, .ok ()⟩]) : Settled minRecords i t' := by
  have hworld : t'.1 = t.1.summarise i row := heffect.2
  intro hsteady
  rw [hhistory, eventsOf_concat_self rfl] at hsteady
  have hrounds : Memory.rounds (eventsOf t.2 i ++ [⟨i, .insertCompaction row, .ok ()⟩]) =
      Memory.rounds (eventsOf t.2 i) := rounds_concat
  have hbefore : Steady minRecords (eventsOf t.2 i) :=
    ⟨answered_of_concat hsteady.answered, hrounds ▸ hsteady.enough⟩
  rw [hworld]
  refine List.filter_eq_nil_iff.mpr fun mark hmark => ?_
  obtain ⟨hmark, hkept⟩ := List.mem_filter.mp hmark
  intro hcaller
  have hlisted := h.only_steady hbefore mark (List.mem_filter.mpr ⟨hmark, hcaller⟩)
  rw [hrow, List.contains_iff_mem.mpr hlisted, hcaller] at hkept
  cases hkept

end Keeps

/-! ## The calls -/

section Calls

variable {b : Backend} {minRecords : Int} {i : Nat} {t : MemoryLog}
  {base : List (List Uuid)} {ids : List Uuid}

/-- The loop of the SQLite form marks records of its sources, and no others. -/
theorem wp_markEach (sources ids : List Uuid) (t : MemoryLog)
    (h : Marking minRecords i base ids t) :
    wp (loggedHandler b i) (callContract minRecords i) (markEach sources)
      (Ends minRecords i fun t' marked => marked.Sublist sources ∧
        Marking minRecords i base (ids ++ marked) t') t := by
  induction sources generalizing ids t with
  | nil =>
    intro t' hrely
    refine ⟨.slnil, ?_⟩
    rw [List.append_nil]
    exact h.stable hrely
  | cons id sources ih =>
    have hmark : wp (loggedHandler b i) (callContract minRecords i) (ask (.markOne id))
        (Ends minRecords i fun t' affected =>
          Marking minRecords i base (if affected = 1 then ids ++ [id] else ids) t') t := by
      refine wp_ask (fun _ _ => trivial) h.resting nofun ?_
      intro t₁ now affected t₂ hrely heffect hhistory _ t₃ hrely'
      exact ((h.stable hrely).markOne heffect hhistory).stable hrely'
    refine wp_then hmark fun t₁ affected hmarked => ?_
    refine wp_then (ih _ t₁ hmarked) ?_
    rintro t₂ rest ⟨hsub, hrest⟩ t₃ hrely
    replace hrest := hrest.stable hrely
    show (if _ then _ else _ : List Uuid).Sublist _ ∧ _
    by_cases hone : (affected : Nat) = 1
    · rw [if_pos hone, List.append_assoc] at hrest
      rw [if_pos hone]
      exact ⟨hsub.cons_cons id, hrest⟩
    · rw [if_neg hone] at hrest
      rw [if_neg hone]
      exact ⟨hsub.cons id, hrest⟩

/-- Behind the summary of what it has just marked, a call is settled. -/
theorem wp_summarise {newId : Uuid} {candidate : CompactionCandidate} (hmin : 1 ≤ minRecords)
    (hnodup : ids.Nodup) (h : Marking minRecords i base ids t) :
    wp (loggedHandler b i) (callContract minRecords i) (summarise minRecords newId candidate ids)
      (Ends minRecords i fun t' _ => Settled minRecords i t') t := by
  refine wp_ite (fun hshort t' hrely => (h.settled_of_short hshort).stable hrely) fun henough => ?_
  have hinsert : wp (loggedHandler b i) (callContract minRecords i)
      (ask (.insertCompaction ⟨newId, candidate.key, clampCount ids.length, ids⟩))
      (Ends minRecords i fun t' _ => Settled minRecords i t') t := by
    refine wp_ask (fun t₁ hrely => ?_) h.resting nofun ?_
    · refine ⟨hnodup, fun hnil => ?_, rfl, (h.stable hrely).held⟩
      have hlength : ids.length = 0 := List.length_eq_zero_iff.mpr hnil
      omega
    · intro t₁ now result t₂ hrely heffect hhistory _ t₃ hrely'
      exact ((h.stable hrely).insertCompaction rfl heffect hhistory).stable hrely'
  exact wp_then hinsert fun t₁ _ hsettled t₂ hrely => hsettled.stable hrely

theorem wp_compactGroup {cutoff : Int} {newId : Uuid} {candidate : CompactionCandidate}
    (hmin : 1 ≤ minRecords) (h : Settled minRecords i t) :
    wp (loggedHandler b i) (callContract minRecords i)
      (compactGroup b cutoff minRecords newId candidate)
      (Ends minRecords i fun t' _ => Settled minRecords i t') t := by
  cases b with
  | postgres =>
    refine wp_ite (fun _ t' hrely => h.stable hrely) fun _ => ?_
    have hmark : wp (loggedHandler .postgres i) (callContract minRecords i)
        (ask (.markAll candidate.sourceEntryIds)) (Ends minRecords i fun t' marked =>
          marked.Nodup ∧ ∃ base, Marking minRecords i base marked t') t := by
      refine wp_ask (fun _ _ => trivial) (fun _ => h) nofun ?_
      intro t₁ now marked t₂ hrely heffect hhistory _ t₃ hrely'
      exact ⟨heffect.1.nodup_iff.mpr (nodup_markable _), _,
        ((h.stable hrely).markAll heffect hhistory).stable hrely'⟩
    refine wp_then hmark ?_
    rintro t₁ marked ⟨hnodup, base, hmarked⟩
    exact wp_summarise hmin hnodup hmarked
  | sqlite =>
    have hselect : wp (loggedHandler .sqlite i) (callContract minRecords i)
        (ask (.selectSources candidate.key cutoff)) (Ends minRecords i fun t' sources =>
          sources.Nodup ∧ ∃ base, Marking minRecords i base [] t') t := by
      refine wp_ask (fun _ _ => trivial) (fun _ => h) (fun _ => h) ?_
      intro t₁ now sources t₂ hrely heffect hhistory _ t₃ hrely'
      refine ⟨?_, _, ((h.stable hrely).selectSources heffect hhistory).stable hrely'⟩
      rw [heffect.1]
      exact nodup_dueRecords
    refine wp_then hselect ?_
    rintro t₁ sources ⟨hnodup, base, hmarking⟩
    refine wp_then (wp_markEach sources [] t₁ hmarking) ?_
    rintro t₂ marked ⟨hsub, hmarked⟩
    exact wp_summarise hmin (List.Nodup.sublist hsub hnodup) hmarked

theorem wp_compactGroups {cutoff : Int} {newIds : Nat → Uuid} (hmin : 1 ≤ minRecords)
    (candidates : List CompactionCandidate) (h : Settled minRecords i t) :
    wp (loggedHandler b i) (callContract minRecords i)
      (compactGroups b cutoff minRecords newIds candidates)
      (Ends minRecords i fun t' _ => Settled minRecords i t') t := by
  induction candidates generalizing t with
  | nil => exact fun t' hrely => h.stable hrely
  | cons candidate candidates ih =>
    refine wp_then (wp_compactGroup hmin h) fun t₁ outcome h₁ => ?_
    exact wp_then (ih h₁) fun t₂ outcomes h₂ t₃ hrely => h₂.stable hrely

/-- A statement of a call that neither marks nor summarises. -/
theorem wp_ask_quiet {op : MemoryOp} (hop : op.compacts = false) (h : Settled minRecords i t) :
    wp (loggedHandler b i) (callContract minRecords i) (ask op)
      (Ends minRecords i fun t' _ => Settled minRecords i t') t := by
  refine wp_ask (fun t₁ _ => ?_) (fun _ => h) (fun _ => h) ?_
  · cases op with
    | insertCompaction row => cases hop
    | _ => trivial
  · intro t₁ now result t₂ _ _ _ hsettled t₃ hrely'
    exact (hsettled hop).stable hrely'

/-- Every call, whatever the others do and whichever statements fail, summarises only what
it has marked, and is settled when it returns. -/
theorem wp_call (call : MemoryCall) (hnone : t.1.own i = []) :
    wp (loggedHandler b i) (callContract call.minRecords i) (call.program b)
      (Ends call.minRecords i fun t' _ => Settled call.minRecords i t') t := by
  have h : Settled call.minRecords i t := fun _ => hnone
  cases call with
  | compact olderThanOrEqual minRecords maxGroups newIds =>
    have hmin : 1 ≤ max minRecords 2 := by omega
    refine wp_then (P := fun t' _ => Settled (max minRecords 2) i t') ?_
      fun t₁ stats h₁ t₂ hrely => h₁.stable hrely
    refine wp_then (wp_ask_quiet rfl h) fun t₁ candidates h₁ => ?_
    exact wp_then (wp_compactGroups hmin candidates h₁) fun t₂ groups h₂ t₃ hrely => h₂.stable hrely
  | create new =>
    exact wp_then (wp_ask_quiet rfl h) fun t₁ _ h₁ t₂ hrely => h₁.stable hrely
  | purge tenantId asOf =>
    exact wp_then (wp_ask_quiet rfl h) fun t₁ _ h₁ t₂ hrely => h₁.stable hrely

end Calls

/-! ## Runs -/

section Runs

variable {b : Backend} {calls : Nat → MemoryCall} {w : MemoryWorld} {history : List MemoryEvent}
  {ps : Nat → Prog (Nat × MemoryOp) (fun o => Fallible MemoryResult o.2) String MemoryOutcome}

theorem compactions_of_effect {i : Nat} {now : Int} {op : MemoryOp} {result : MemoryResult op}
    {w' : MemoryWorld} (h : memoryEffect b i now w op result w') :
    w'.compactions = w.compactions ∨
      ∃ row, op = .insertCompaction row ∧ w'.compactions = w.compactions ++ [row] := by
  cases op with
  | insertCompaction row => exact .inr ⟨row, rfl, congrArg (·.compactions) h.2⟩
  | createRecord new =>
    obtain ⟨_, _, hworld⟩ := h
    exact .inl (congrArg (·.compactions) hworld)
  | _ => exact .inl (congrArg (·.compactions) h.2)

/-- Every summary was inserted by a statement. -/
theorem exists_insert (hreach : PoolReaches (Handler.tagged (loggedHandler b))
      ((.start, []), memoryPool b calls) ((w, history), ps)) :
    ∀ row ∈ w.compactions, ∃ event ∈ history, event.op = .insertCompaction row := by
  refine hreach.invariant (I := fun t : MemoryLog =>
    ∀ row ∈ t.1.compactions, ∃ event ∈ t.2, event.op = .insertCompaction row) ?_
    (List.forall_mem_nil _)
  intro t op answer t' h hcall row hrow
  obtain ⟨hstep, hhistory⟩ := logged_step hcall
  rw [hhistory]
  have hold : row ∈ t.1.compactions → ∃ event ∈ t.2 ++ [⟨op.1, op.2, answer⟩],
      event.op = .insertCompaction row := by
    intro hrow
    obtain ⟨event, hmem, hop⟩ := h row hrow
    exact ⟨event, List.mem_append_left _ hmem, hop⟩
  rcases effect_of_fallible hstep with hsame | ⟨result, now, heffect⟩
  · exact hold (hsame ▸ hrow)
  · rcases compactions_of_effect heffect with hsame | ⟨new, hop, hadded⟩
    · exact hold (hsame ▸ hrow)
    · rw [hadded] at hrow
      rcases List.mem_append.mp hrow with hrow | hrow
      · exact hold hrow
      · rw [List.mem_singleton.mp hrow]
        exact ⟨_, List.mem_append_right _ List.mem_cons_self, hop⟩

/-- A call is settled, or behind its marks, wherever it stands. -/
theorem resting_of_wp {minRecords : Int} {i : Nat} {t : MemoryLog} {p : MemoryProg MemoryOutcome}
    (h : wp (loggedHandler b i) (callContract minRecords i) p
      (Ends minRecords i fun t' _ => Settled minRecords i t') t) : Resting minRecords i t := by
  refine wp_now (C := callContract minRecords i) (P := Resting minRecords i)
    (fun op hsafe => hsafe.2) ?_ h
  rintro (message | outcome) hend
  · exact hend
  · exact fun _ => hend

end Runs

/-- In every state that compactions and memory writes reach, interleaved in any way and
stopped anywhere: where no call was cut short and no summary lists more records than its
count can say, every compacted record is listed by exactly one summary, and every summary
counts what it lists. -/
theorem compactions_summarise (b : Backend) (calls : Nat → MemoryCall) {w : MemoryWorld}
    {history : List MemoryEvent}
    {ps : Nat → Prog (Nat × MemoryOp) (fun o => Fallible MemoryResult o.2) String MemoryOutcome}
    (hreach : PoolReaches (Handler.tagged (loggedHandler b)) ((.start, []), memoryPool b calls)
      ((w, history), ps))
    (hcalls : ∀ i, Uninterrupted (calls i) (eventsOf history i) (ps i))
    (hfits : ∀ event ∈ history, event.op.countFits = true) : Summarised w := by
  obtain ⟨hmoves, hkept⟩ := reaches_of_taggedPool
    (C := fun i => callContract (calls i).minRecords i)
    (fun i j hne _ _ hguar => hguar j hne.symm) (fun i => wp_call (calls i) rfl) hreach
  have hmemory : MemoryReaches b .start w := by
    refine Relation.ReflTransGen.lift Prod.fst ?_ _ _ hmoves
    rintro t t' ⟨i, op, answer, ⟨hmay, _⟩, hcall⟩
    exact ⟨i, op, answer, hmay, (logged_step hcall).1⟩
  refine (summarised_iff hmemory).mpr ⟨fun row _ mark hmark _ => ?_, fun row hrow => ?_⟩
  · -- the caller of the mark has nothing that waits for its summary
    obtain ⟨p, hp, hwp⟩ := hkept mark.caller
    obtain ⟨hsteady, hended⟩ := hcalls mark.caller
    have hsettled : Settled (calls mark.caller).minRecords mark.caller (w, history) := by
      by_cases hbehind : BehindMarks (eventsOf history mark.caller)
      · obtain ⟨outcome, hreturned⟩ := hended hbehind
        rw [hp] at hreturned
        cases p with
        | pure outcome => exact hwp (w, history) rfl
        | fail message => cases hreturned
        | call op k => cases hreturned
      · exact resting_of_wp hwp hbehind
    have hown := mem_marks_iff_own.mpr hmark
    rw [hsettled hsteady] at hown
    cases hown
  · obtain ⟨event, hmem, hop⟩ := exists_insert hreach row hrow
    have hfit := hfits event hmem
    rw [hop] at hfit
    exact of_decide_eq_true hfit

/-! ## Two compactions of one group -/

def sessionKey : GroupKey := ⟨"single", Uuid.repeated 9, .session, "run"⟩

def note (d : Nat) : NewMemoryRecord := ⟨Uuid.repeated d, sessionKey, none, none, none⟩

/-- Two records of a group are created, and two callers compact it. -/
def noteCalls : Nat → MemoryCall
  | 0 => .create (note 1)
  | 1 => .create (note 2)
  | 2 => .compact 1 2 10 fun _ => .repeated 3
  | 3 => .compact 1 2 10 fun _ => .repeated 4
  | _ => .purge "single" 0

def noteIds : List Uuid := [.repeated 1, .repeated 2]

def noteGroup : CompactionCandidate := ⟨sessionKey, 2, noteIds, none, none⟩

def noteSummary : CompactionRow := ⟨.repeated 3, sessionKey, 2, noteIds⟩

def firstNote : MemoryWorld := ⟨⟨[(note 1).row 0], by decide⟩, [], [], [.repeated 1]⟩

def bothNotes : MemoryWorld :=
  ⟨⟨[(note 1).row 0, (note 2).row 1], by decide⟩, [], [], [.repeated 2, .repeated 1]⟩

def hiddenNotes : MemoryWorld := bothNotes.mark 2 noteIds 2

def summarisedNotes : MemoryWorld := hiddenNotes.summarise 2 noteSummary

/-- Both callers select the group, and the first of them marks it. -/
def hidingEvents : List MemoryEvent :=
  [⟨0, .createRecord (note 1), .ok ()⟩, ⟨1, .createRecord (note 2), .ok ()⟩,
    ⟨3, .selectGroups 1 2 10, .ok [noteGroup]⟩, ⟨2, .selectGroups 1 2 10, .ok [noteGroup]⟩,
    ⟨2, .markAll noteIds, .ok noteIds⟩]

/-- The second caller finds nothing left to mark, and the first one summarises. -/
def summarisingEvents : List MemoryEvent :=
  hidingEvents ++ [⟨3, .markAll noteIds, .ok []⟩] ++ [⟨2, .insertCompaction noteSummary, .ok ()⟩]

/-- The first caller is at its summary, and the second behind its selection; it returns if it
finds nothing to mark. -/
theorem hiddenNotes_reached : ∃ ps next next' outcome,
    PoolReaches (Handler.tagged (loggedHandler .postgres))
      ((.start, []), memoryPool .postgres noteCalls) ((hiddenNotes, hidingEvents), ps) ∧
    ps 2 = .call (2, .insertCompaction noteSummary) next ∧
    ps 3 = .call (3, .markAll noteIds) next' ∧ next' (.ok []) = .pure outcome := by
  have hstart : PoolReaches (Handler.tagged (loggedHandler .postgres))
      ((.start, []), memoryPool .postgres noteCalls)
      ((.start, []), Function.update (memoryPool .postgres noteCalls) 0
        (((noteCalls 0).program .postgres).tag 0)) := PoolReaches.focus .refl rfl
  have hone := hstart.then_call (.ok ()) (firstNote, hidingEvents.take 1)
    ⟨⟨0, List.not_mem_nil, List.not_mem_nil, rfl⟩, _, rfl, rfl⟩
  have hboth := (hone.focus (i := 1) (q := ((noteCalls 1).program .postgres).tag 1) rfl).then_call
    (.ok ()) (bothNotes, hidingEvents.take 2) ⟨⟨1, by decide, by decide, rfl⟩, _, rfl, rfl⟩
  have hsecond := (hboth.focus (i := 3) (q := ((noteCalls 3).program .postgres).tag 3) rfl).then_call
    (.ok [noteGroup]) (bothNotes, hidingEvents.take 3) ⟨⟨2, rfl, rfl⟩, _, rfl, rfl⟩
  have hfirst := (hsecond.focus (i := 2) (q := ((noteCalls 2).program .postgres).tag 2) rfl).then_call
    (.ok [noteGroup]) (bothNotes, hidingEvents.take 4) ⟨⟨2, rfl, rfl⟩, _, rfl, rfl⟩
  have hmarked := hfirst.then_call (.ok noteIds) (hiddenNotes, hidingEvents)
    ⟨⟨2, List.Perm.refl _, rfl⟩, _, rfl, rfl⟩
  exact ⟨_, _, _, _, hmarked, rfl, rfl, rfl⟩

/-- A caller that stops behind its `UPDATE` leaves records hidden that no summary lists. -/
theorem stopped_compaction_hides : ∃ history ps,
    PoolReaches (Handler.tagged (loggedHandler .postgres))
      ((.start, []), memoryPool .postgres noteCalls) ((hiddenNotes, history), ps) ∧
    ¬ Summarised hiddenNotes := by
  obtain ⟨ps, _, _, _, hreach, _⟩ := hiddenNotes_reached
  refine ⟨hidingEvents, ps, hreach, fun h => ?_⟩
  have hone := h.1 (((note 1).row 0).mark noteIds 2) List.mem_cons_self (by decide)
  exact absurd hone (by decide)

/-- Where the first caller goes on, the records are summarised. -/
theorem summarised_notes : ∃ history ps,
    PoolReaches (Handler.tagged (loggedHandler .postgres))
      ((.start, []), memoryPool .postgres noteCalls) ((summarisedNotes, history), ps) ∧
    Summarised summarisedNotes := by
  obtain ⟨ps, next, next', outcome, hreach, hfirst, hsecond, hreturns⟩ := hiddenNotes_reached
  have hskipped := (hreach.focus hsecond).then_call (.ok [])
    (hiddenNotes, hidingEvents ++ [⟨3, .markAll noteIds, .ok []⟩])
    ⟨⟨3, List.Perm.refl _, rfl⟩, _, rfl, rfl⟩
  have hdone := (hskipped.focus (i := 2) ((Function.update_of_ne (by decide) _ _).trans
    hfirst)).then_call (.ok ()) (summarisedNotes, summarisingEvents)
      ⟨⟨3, List.not_mem_nil, rfl⟩, _, rfl, rfl⟩
  refine ⟨_, _, hdone, compactions_summarise .postgres noteCalls hdone (fun i => ?_) ?_⟩
  · match i with
    | 0 => exact ⟨⟨by decide, by decide⟩, fun hbehind => absurd hbehind (by decide)⟩
    | 1 => exact ⟨⟨by decide, by decide⟩, fun hbehind => absurd hbehind (by decide)⟩
    | 2 => exact ⟨⟨by decide, by decide⟩, fun hbehind => absurd hbehind (by decide)⟩
    | 3 => exact ⟨⟨by decide, by decide⟩, fun _ => ⟨outcome, hreturns⟩⟩
    | i + 4 =>
      have hcallers : ∀ event ∈ summarisingEvents, event.caller < 4 := by decide
      have hnone : eventsOf summarisingEvents (i + 4) = [] := by
        refine List.filter_eq_nil_iff.mpr fun event hmem hcaller => ?_
        have hbound := hcallers event hmem
        have heq := of_decide_eq_true hcaller
        omega
      rw [hnone]
      exact ⟨⟨nofun, nofun⟩, nofun⟩
  · decide

end Memory
end SecureAgnt

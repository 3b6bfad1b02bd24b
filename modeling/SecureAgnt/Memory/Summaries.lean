/-
Which compacted records are summarised.

`CompactInv` holds along every run: a record is compacted exactly when some caller has
marked it and not summarised it or some summary lists it, and no record is spoken for
twice.  `summarised_iff` reads off when every compacted record is listed by exactly one
summary.
-/
import SecureAgnt.Memory.Compaction

namespace SecureAgnt
namespace Memory

open Storage

/-- The records that are marked and not summarised, and those that are listed. -/
def MemoryWorld.spoken (w : MemoryWorld) : List Uuid :=
  w.marks.map (·.record) ++ w.compactions.flatMap (·.sourceEntryIds)

structure CompactInv (w : MemoryWorld) : Prop where
  known : ∀ row ∈ w.records.rows, row.id ∈ w.seen
  spoken_known : ∀ id ∈ w.spoken, id ∈ w.seen
  compacted_iff : ∀ row ∈ w.records.rows, row.compactedAt ≠ none ↔ row.id ∈ w.spoken
  nodup : w.spoken.Nodup
  counts : ∀ row ∈ w.compactions,
    row.sourceEntryIds ≠ [] ∧ row.sourceCount = clampCount row.sourceEntryIds.length

/-! ## What a call can do -/

/-- A call changes nothing, creates or deletes records, marks records that are not
compacted, or summarises marks of its caller. -/
inductive MemoryChange (w : MemoryWorld) (caller : Nat) : MemoryWorld → Prop
  | same : MemoryChange w caller w
  | created (row : MemoryRecord) (hrow : row.compactedAt = none) (hseen : row.id ∉ w.seen)
      (hnew : row.id ∉ w.records.rows.map (·.id)) :
      MemoryChange w caller
        { w with records := w.records.insert row hnew, seen := row.id :: w.seen }
  | deleted (gone : MemoryRecord → Bool) :
      MemoryChange w caller { w with records := w.records.delete gone }
  | marked (ids : List Uuid) (now : Int) (hnodup : ids.Nodup)
      (hids : ∀ id ∈ ids, ∃ row ∈ w.records.rows, row.id = id ∧ row.compactedAt = none) :
      MemoryChange w caller (w.mark caller ids now)
  | summarised (row : CompactionRow) (hmay : MayCall caller w (.insertCompaction row)) :
      MemoryChange w caller (w.summarise caller row)

section Change

variable {b : Backend} {w w' : MemoryWorld} {caller : Nat}

theorem nodup_markable (ids : List Uuid) : (w.markable ids).Nodup :=
  w.records.keys.sublist (List.filter_sublist.map _)

theorem mem_markable {ids : List Uuid} {id : Uuid} (h : id ∈ w.markable ids) :
    id ∈ ids ∧ ∃ row ∈ w.records.rows, row.id = id ∧ row.compactedAt = none := by
  obtain ⟨row, hrow, rfl⟩ := List.mem_map.mp h
  obtain ⟨hmem, hmatch⟩ := List.mem_filter.mp hrow
  rw [Bool.and_eq_true, List.contains_iff_mem, Option.isNone_iff_eq_none] at hmatch
  exact ⟨hmatch.1, row, hmem, rfl, hmatch.2⟩

theorem nodup_dueRecords {now cutoff : Int} {t : MemoryTable} {key : GroupKey} :
    ((dueRecords b now cutoff t key).map (·.id)).Nodup := by
  have hperm := (List.perm_insertionSort (MemoryRecord.isOlder b)
    (t.rows.filter fun row => row.isDue b now cutoff && decide (row.key = key))).map (·.id)
  exact hperm.nodup_iff.mpr (t.keys.sublist (List.filter_sublist.map _))

theorem change_of_effect {now : Int} {op : MemoryOp} {answer : MemoryResult op}
    (hmay : MayCall caller w op) (h : memoryEffect b caller now w op answer w') :
    MemoryChange w caller w' := by
  cases op with
  | selectGroups cutoff minRecords maxGroups => exact h.2 ▸ .same
  | markAll ids =>
    obtain ⟨hperm, rfl⟩ := h
    refine .marked _ now (hperm.nodup_iff.mpr (nodup_markable ids)) ?_
    intro id hid
    exact (mem_markable (hperm.mem_iff.mp hid)).2
  | selectSources key cutoff => exact h.2 ▸ .same
  | markOne id =>
    obtain ⟨_, rfl⟩ := h
    exact .marked _ now (nodup_markable [id]) fun id' hid' => (mem_markable hid').2
  | insertCompaction row =>
    obtain ⟨_, rfl⟩ := h
    exact .summarised row hmay
  | createRecord new =>
    obtain ⟨hseen, hnew, rfl⟩ := h
    exact .created (new.row now) rfl hseen hnew
  | purgeExpired tenantId asOf =>
    obtain ⟨_, rfl⟩ := h
    exact .deleted _

theorem change_of_move (h : MemoryMove b w w') : ∃ caller, MemoryChange w caller w' := by
  obtain ⟨caller, op, answer, hmay, hstep⟩ := h
  refine ⟨caller, ?_⟩
  rcases Handler.effect_of_fallible hstep with rfl | ⟨result, now, heffect⟩
  · exact .same
  · exact change_of_effect hmay heffect

end Change

/-! ## The invariant -/

section Invariant

variable {w : MemoryWorld} {caller : Nat}

theorem compactInv_start : CompactInv .start where
  known := fun _ h => nomatch h
  spoken_known := fun _ h => nomatch h
  compacted_iff := fun _ h => nomatch h
  nodup := List.nodup_nil
  counts := fun _ h => nomatch h

theorem spoken_mark (ids : List Uuid) (now : Int) :
    (w.mark caller ids now).spoken.Perm (w.spoken ++ ids) := by
  have hids : (ids.map fun id => (⟨caller, id⟩ : MemoryMark)).map (·.record) = ids := by
    rw [List.map_map]
    exact List.map_id ids
  show ((w.marks ++ _).map (·.record) ++ _).Perm _
  rw [List.map_append, hids, MemoryWorld.spoken, List.append_assoc, List.append_assoc]
  exact List.perm_append_comm.append_left _

/-- A mark speaks for records that nothing has spoken for. -/
theorem CompactInv.mark (h : CompactInv w) {ids : List Uuid} {now : Int} (hnodup : ids.Nodup)
    (hids : ∀ id ∈ ids, ∃ row ∈ w.records.rows, row.id = id ∧ row.compactedAt = none) :
    CompactInv (w.mark caller ids now) := by
  have hperm : (w.mark caller ids now).spoken.Perm (w.spoken ++ ids) := spoken_mark ids now
  have hfree : ∀ id ∈ ids, id ∉ w.spoken := by
    intro id hid hspoken
    obtain ⟨row, hrow, rfl, hnone⟩ := hids id hid
    exact (h.compacted_iff row hrow).mpr hspoken hnone
  refine ⟨?_, ?_, ?_, ?_, h.counts⟩
  · intro row hrow
    obtain ⟨before, hbefore, rfl⟩ := List.mem_map.mp hrow
    rw [before.mark_id]
    exact h.known before hbefore
  · intro id hid
    rcases List.mem_append.mp (hperm.mem_iff.mp hid) with hid | hid
    · exact h.spoken_known id hid
    · obtain ⟨row, hrow, rfl, _⟩ := hids id hid
      exact h.known row hrow
  · intro row hrow
    obtain ⟨before, hbefore, rfl⟩ := List.mem_map.mp hrow
    rw [before.mark_id, hperm.mem_iff, List.mem_append]
    by_cases hid : before.id ∈ ids
    · simp [MemoryRecord.mark, hid]
    · simp [MemoryRecord.mark, hid, h.compacted_iff before hbefore]
  · rw [hperm.nodup_iff, List.nodup_append]
    refine ⟨h.nodup, hnodup, ?_⟩
    intro id hid id' hid' heq
    exact hfree id' hid' (heq ▸ hid)

/-- The marks that a summary takes up. -/
theorem perm_summarised_marks (h : CompactInv w) {row : CompactionRow}
    (hnodup : row.sourceEntryIds.Nodup)
    (hmarks : ∀ id ∈ row.sourceEntryIds, ⟨caller, id⟩ ∈ w.marks) :
    (row.sourceEntryIds ++ (w.summarise caller row).marks.map (·.record)).Perm
      (w.marks.map (·.record)) := by
  have hsplit := (List.filter_append_perm (fun mark : MemoryMark =>
    decide (mark.caller = caller) && row.sourceEntryIds.contains mark.record) w.marks).map (·.record)
  rw [List.map_append] at hsplit
  refine List.Perm.trans (List.Perm.append_right _ ?_) hsplit
  have hkeys : (w.marks.map (·.record)).Nodup := (List.nodup_append.mp h.nodup).1
  rw [List.perm_ext_iff_of_nodup hnodup (hkeys.sublist (List.filter_sublist.map _))]
  intro id
  constructor
  · intro hid
    refine List.mem_map.mpr ⟨⟨caller, id⟩, List.mem_filter.mpr ⟨hmarks id hid, ?_⟩, rfl⟩
    simpa using hid
  · intro hid
    obtain ⟨mark, hmark, rfl⟩ := List.mem_map.mp hid
    have hmatch := (List.mem_filter.mp hmark).2
    rw [Bool.and_eq_true, List.contains_iff_mem] at hmatch
    exact hmatch.2

/-- A summary moves records from the marks to the lists. -/
theorem spoken_summarise (h : CompactInv w) {row : CompactionRow}
    (hnodup : row.sourceEntryIds.Nodup)
    (hmarks : ∀ id ∈ row.sourceEntryIds, ⟨caller, id⟩ ∈ w.marks) :
    (w.summarise caller row).spoken.Perm w.spoken := by
  have hflat : (w.summarise caller row).spoken =
      (w.summarise caller row).marks.map (·.record) ++
        (w.compactions.flatMap (·.sourceEntryIds) ++ row.sourceEntryIds) := by
    simp [MemoryWorld.spoken, MemoryWorld.summarise]
  rw [hflat]
  refine List.perm_append_comm.trans ?_
  rw [List.append_assoc]
  have hmoved := (perm_summarised_marks h hnodup hmarks).append_left
    (w.compactions.flatMap (·.sourceEntryIds))
  exact hmoved.trans List.perm_append_comm

theorem CompactInv.summarise (h : CompactInv w) {row : CompactionRow}
    (hmay : MayCall caller w (.insertCompaction row)) : CompactInv (w.summarise caller row) := by
  obtain ⟨hnodup, hne, hcount, hmarks⟩ := hmay
  have hperm := spoken_summarise h hnodup hmarks
  refine ⟨h.known, ?_, ?_, hperm.nodup_iff.mpr h.nodup, ?_⟩
  · intro id hid
    exact h.spoken_known id (hperm.mem_iff.mp hid)
  · intro record hrecord
    rw [hperm.mem_iff]
    exact h.compacted_iff record hrecord
  · intro row' hrow'
    rcases List.mem_append.mp hrow' with hrow' | hrow'
    · exact h.counts row' hrow'
    · rw [List.mem_singleton.mp hrow']
      exact ⟨hne, hcount⟩

theorem CompactInv.create (h : CompactInv w) {row : MemoryRecord} (hrow : row.compactedAt = none)
    (hseen : row.id ∉ w.seen) (hnew : row.id ∉ w.records.rows.map (·.id)) :
    CompactInv { w with records := w.records.insert row hnew, seen := row.id :: w.seen } := by
  refine ⟨?_, fun id hid => List.mem_cons_of_mem _ (h.spoken_known id hid), ?_, h.nodup, h.counts⟩
  · intro row' hrow'
    rcases List.mem_append.mp hrow' with hrow' | hrow'
    · exact List.mem_cons_of_mem _ (h.known row' hrow')
    · rw [List.mem_singleton.mp hrow']
      exact List.mem_cons_self
  · intro row' hrow'
    rcases List.mem_append.mp hrow' with hrow' | hrow'
    · exact h.compacted_iff row' hrow'
    · rw [List.mem_singleton.mp hrow']
      refine iff_of_false (fun hsome => hsome hrow) ?_
      intro hspoken
      exact hseen (h.spoken_known row.id hspoken)

/-- One call keeps the invariant. -/
theorem compactInv_change (h : CompactInv w) {w' : MemoryWorld} (hchange : MemoryChange w caller w') :
    CompactInv w' := by
  cases hchange with
  | same => exact h
  | created row hrow hseen hnew => exact h.create hrow hseen hnew
  | deleted gone =>
    refine ⟨?_, h.spoken_known, ?_, h.nodup, h.counts⟩
    · exact fun row hrow => h.known row (List.mem_of_mem_filter hrow)
    · exact fun row hrow => h.compacted_iff row (List.mem_of_mem_filter hrow)
  | marked ids now hnodup hids => exact h.mark hnodup hids
  | summarised row hmay => exact h.summarise hmay

theorem compactInv_of_reaches {b : Backend} {w' : MemoryWorld} (h : CompactInv w)
    (hreach : MemoryReaches b w w') : CompactInv w' := by
  induction hreach with
  | refl => exact h
  | tail _ hmove ih =>
    obtain ⟨caller, hchange⟩ := change_of_move hmove
    exact compactInv_change ih hchange

end Invariant

/-! ## Summaries -/

/-- The number of summaries that list a record. -/
def MemoryWorld.listings (w : MemoryWorld) (id : Uuid) : Nat :=
  w.compactions.countP fun row => row.sourceEntryIds.contains id

/-- Every compacted record is listed by exactly one summary, and every summary counts
the records it lists. -/
def Summarised (w : MemoryWorld) : Prop :=
  (∀ row ∈ w.records.rows, row.compactedAt ≠ none → w.listings row.id = 1) ∧
    ∀ row ∈ w.compactions, row.sourceCount = row.sourceEntryIds.length

/-- No stored record was marked by a caller that has not summarised it, and no summary
lists more records than its count can say. -/
def MarksSettled (w : MemoryWorld) : Prop :=
  (∀ row ∈ w.records.rows, ∀ mark ∈ w.marks, mark.record ≠ row.id) ∧
    ∀ row ∈ w.compactions, (row.sourceEntryIds.length : Int) ≤ i32Max

theorem clampCount_eq_iff {ids : List Uuid} (h : ids ≠ []) :
    clampCount ids.length = ids.length ↔ (ids.length : Int) ≤ i32Max := by
  have hpos := List.length_pos_iff.mpr h
  unfold clampCount
  omega

theorem listings_eq_one {w : MemoryWorld} (h : CompactInv w) {id : Uuid}
    (hid : id ∈ w.compactions.flatMap (·.sourceEntryIds)) : w.listings id = 1 := by
  have hnodup : (w.compactions.flatMap (·.sourceEntryIds)).Nodup :=
    (List.nodup_append.mp h.nodup).2.1
  exact Table.countP_of_flatMap_nodup hnodup hid

/-- In every reachable state: every compacted record is summarised exactly once if and
only if no mark of a stored record waits for its summary. -/
theorem summarised_iff {b : Backend} {w : MemoryWorld} (hreach : MemoryReaches b .start w) :
    Summarised w ↔ MarksSettled w := by
  have hinv := compactInv_of_reaches compactInv_start hreach
  have hcounts : (∀ row ∈ w.compactions, row.sourceCount = row.sourceEntryIds.length) ↔
      ∀ row ∈ w.compactions, (row.sourceEntryIds.length : Int) ≤ i32Max := by
    refine forall₂_congr fun row hrow => ?_
    rw [(hinv.counts row hrow).2]
    exact clampCount_eq_iff (hinv.counts row hrow).1
  refine and_congr ?_ hcounts
  constructor
  · intro hlisted row hrow mark hmark hrecord
    have hspoken : row.id ∈ w.spoken :=
      List.mem_append_left _ (List.mem_map.mpr ⟨mark, hmark, hrecord⟩)
    have hone := hlisted row hrow ((hinv.compacted_iff row hrow).mpr hspoken)
    -- a record that is listed as well would be spoken for twice
    have hpos : 0 < w.listings row.id := by omega
    obtain ⟨listing, hlisting, hcontains⟩ := List.countP_pos_iff.mp hpos
    refine (List.nodup_append.mp hinv.nodup).2.2 row.id ?_ row.id ?_ rfl
    · exact List.mem_map.mpr ⟨mark, hmark, hrecord⟩
    · exact List.mem_flatMap.mpr ⟨listing, hlisting, List.contains_iff_mem.mp hcontains⟩
  · intro hsettled row hrow hcompacted
    rcases List.mem_append.mp ((hinv.compacted_iff row hrow).mp hcompacted) with hmarked | hlisted
    · obtain ⟨mark, hmark, hrecord⟩ := List.mem_map.mp hmarked
      exact absurd hrecord (hsettled row hrow mark hmark)
    · exact listings_eq_one hinv hlisted

/-! ## The marks of a caller -/

/-- The marks of a caller that it has not summarised. -/
def MemoryWorld.own (w : MemoryWorld) (caller : Nat) : List MemoryMark :=
  w.marks.filter fun mark => mark.caller = caller

/-- The caller has marked the records and not summarised them. -/
def MemoryWorld.Holds (w : MemoryWorld) (caller : Nat) (ids : List Uuid) : Prop :=
  ∀ id ∈ ids, ⟨caller, id⟩ ∈ w.marks

section Discipline

variable {b : Backend} {w w' : MemoryWorld} {caller : Nat} {ids : List Uuid}

theorem mem_marks_iff_own {mark : MemoryMark} :
    mark ∈ w.own mark.caller ↔ mark ∈ w.marks := by
  simp [MemoryWorld.own]

theorem holds_of_rely (h : w.Holds caller ids) (hown : w'.own caller = w.own caller) :
    w'.Holds caller ids := by
  intro id hid
  have hmark := mem_marks_iff_own.mpr (h id hid)
  exact mem_marks_iff_own.mp (hown ▸ hmark)

theorem own_mark {now : Int} {j : Nat} (hne : j ≠ caller) :
    (w.mark caller ids now).own j = w.own j := by
  show (w.marks ++ _).filter _ = _
  rw [List.filter_append]
  have hnil : (ids.map fun id => (⟨caller, id⟩ : MemoryMark)).filter
      (fun mark => mark.caller = j) = [] := by
    refine List.filter_eq_nil_iff.mpr ?_
    intro mark hmark
    obtain ⟨id, _, rfl⟩ := List.mem_map.mp hmark
    simpa using hne.symm
  rw [hnil, List.append_nil]
  rfl

theorem own_summarise {row : CompactionRow} {j : Nat} (hne : j ≠ caller) :
    (w.summarise caller row).own j = w.own j := by
  show (w.marks.filter _).filter _ = w.marks.filter _
  rw [List.filter_filter]
  refine List.filter_congr fun mark _ => ?_
  by_cases hj : mark.caller = j
  · have hcaller : mark.caller ≠ caller := fun heq => hne (hj.symm.trans heq)
    simp [hj, hne]
  · simp [hj]

theorem own_of_effect {now : Int} {op : MemoryOp} {result : MemoryResult op} {j : Nat}
    (hne : j ≠ caller) (h : memoryEffect b caller now w op result w') : w'.own j = w.own j := by
  cases op with
  | selectGroups cutoff minRecords maxGroups => rw [h.2]
  | markAll ids =>
    rw [h.2]
    exact own_mark hne
  | selectSources key cutoff => rw [h.2]
  | markOne id =>
    rw [h.2]
    exact own_mark hne
  | insertCompaction row =>
    rw [h.2]
    exact own_summarise hne
  | createRecord new =>
    obtain ⟨_, _, rfl⟩ := h
    rfl
  | purgeExpired tenantId asOf =>
    rw [h.2]
    rfl

theorem mem_marks_mark {now : Int} {id : Uuid} (h : id ∈ ids) :
    ⟨caller, id⟩ ∈ (w.mark caller ids now).marks :=
  List.mem_append_right _ (List.mem_map.mpr ⟨id, h, rfl⟩)

end Discipline

end Memory
end SecureAgnt

/-
The outbox along every run.

`OutboxInv` says what holds of the table, the claims that have not been marked and the
log, whatever the workers do and whenever they stop.  The status of a record is what
its last event left, so what a claim finds depends on the log alone: `OutboxSafe`
collects what this means for claims and attempts, and `OutboxInv.noneStuck_iff` says when
every record that is not settled can be claimed again.
-/
import SecureAgnt.Compliance.Delivery

namespace SecureAgnt
namespace Compliance

open Storage

/-- The last event of a record says its status. -/
def statusAfter : Option DeliveryEvent → DeliveryStatus
  | none => .pending
  | some (.claimed _) => .processing
  | some (.marked _ mark) => mark.status
  | some (.requeued _) => .pending

/-- A claim is marked before anything else; after a failure comes a claim and after a
dead letter a requeue. -/
def follows : DeliveryEvent → DeliveryEvent → Prop
  | .claimed claim, .marked claim' _ => claim = claim'
  | .marked _ .failed, .claimed _ => True
  | .marked _ .deadLettered, .requeued _ => True
  | .requeued _, .claimed _ => True
  | _, _ => False

def DeliveryRecord.IsOpen (row : DeliveryRecord) : Prop :=
  row.status = .pending ∨ row.status = .failed

def DeliveryRecord.InBounds (row : DeliveryRecord) : Prop :=
  row.attempts ≤ row.maxAttempts ∧
    (row.status ≠ .delivered → row.status ≠ .deadLettered → row.attempts < row.maxAttempts)

/-- The last event about a record. -/
def DeliveryWorld.lastEvent (w : DeliveryWorld) (id : Uuid) : Option DeliveryEvent :=
  Log.last DeliveryEvent.record id w.log

structure OutboxInv (w : DeliveryWorld) : Prop where
  bounds : ∀ row ∈ w.outbox.rows, row.InBounds
  status : ∀ row ∈ w.outbox.rows, row.status = statusAfter (w.lastEvent row.id)
  outstanding : ∀ claim, claim ∈ w.outstanding ↔ w.lastEvent claim.record = some (.claimed claim)
  nodup : w.outstanding.Nodup
  known : ∀ e ∈ w.log, e.record ∈ w.outbox.rows.map (·.id)
  orderly : Log.Orderly DeliveryEvent.record follows w.log

/-! ## What a call can do -/

/-- A call changes nothing, creates a record, claims open records, marks a claim that
the worker has not marked, or requeues a dead letter. -/
inductive OutboxEffect (w : DeliveryWorld) (worker : Nat) : DeliveryWorld → Prop
  | same : OutboxEffect w worker w
  | created (row : DeliveryRecord) (hnew : row.id ∉ w.outbox.rows.map (·.id))
      (hmax : 1 ≤ row.maxAttempts) (hrow : row.status = .pending ∧ row.attempts = 0) :
      OutboxEffect w worker { w with outbox := w.outbox.insert row hnew hmax }
  | claimed (leaseOwner : String) (expires now : Int) (ids : List Uuid) (hids : ids.Nodup)
      (hopen : ∀ id ∈ ids, ∃ row, w.find id = some row ∧ row.IsOpen) :
      OutboxEffect w worker (w.claimAll worker (claimChange leaseOwner expires now) ids)
  | marked (u : MarkChange) (row : DeliveryRecord) (hfind : w.find row.id = some row)
      (hheld : (w.held worker row.id).isSome)
      (hu : (u.change row).attempts = row.attempts + 1 ∧
        (u.outcome row = .failed → row.attempts + 1 < row.maxAttempts)) :
      OutboxEffect w worker (w.mark worker u row)
  | requeued (retryAt now : Int) (row : DeliveryRecord) (hfind : w.find row.id = some row)
      (hdead : row.status = .deadLettered) :
      OutboxEffect w worker (w.requeue (requeueChange retryAt now) row.id)

theorem DeliveryRecord.isOpen_of_isClaimable {b : Backend} {now : Int} {row : DeliveryRecord}
    (h : row.isClaimable b now = true) : row.IsOpen := by
  simp only [DeliveryRecord.isClaimable, Bool.and_eq_true, Bool.or_eq_true, decide_eq_true_eq] at h
  exact h.1.1

theorem DeliveryWorld.find_eq_some {w : DeliveryWorld} {id : Uuid} {row : DeliveryRecord} :
    w.find id = some row ↔ row ∈ w.outbox.rows ∧ row.id = id :=
  Table.find_eq_some_iff w.outbox.keys

theorem mem_pendingIds {b : Backend} {now : Int} {locked : List Uuid} {limit : Int} {t : Outbox}
    {id : Uuid} (h : id ∈ pendingIds b now locked limit t) :
    ∃ row ∈ t.rows, row.id = id ∧ row.isClaimable b now = true := by
  obtain ⟨row, hrow, rfl⟩ := List.mem_map.mp h
  have hmem := List.mem_of_mem_take hrow
  rw [List.mem_insertionSort, List.mem_filter, Bool.and_eq_true] at hmem
  exact ⟨row, hmem.1, rfl, hmem.2.1⟩

theorem nodup_pendingIds {b : Backend} {now : Int} {locked : List Uuid} {limit : Int} {t : Outbox} :
    (pendingIds b now locked limit t).Nodup := by
  have hfilter : ((t.rows.filter fun row =>
      row.isClaimable b now && !locked.contains row.id).map (·.id)).Nodup :=
    t.keys.sublist (List.filter_sublist.map _)
  have hsorted := (((List.perm_insertionSort (DeliveryRecord.precedes b) (t.rows.filter fun row =>
    row.isClaimable b now && !locked.contains row.id)).map (·.id)).nodup_iff).mpr hfilter
  exact hsorted.sublist ((List.take_sublist ..).map _)

theorem effect_of_markStep {w w' : DeliveryWorld} {worker : Nat} {u : MarkChange} {id : Uuid}
    {answer : DeliveryRecord} (hmay : (w.held worker id).isSome)
    (hu : ∀ row, (u.change row).attempts = row.attempts + 1 ∧
      (u.outcome row = .failed → row.attempts + 1 < row.maxAttempts))
    (h : w.markStep worker u id answer w') : OutboxEffect w worker w' := by
  obtain ⟨row, hfind, _, rfl⟩ := h
  have hid : row.id = id := (DeliveryWorld.find_eq_some.mp hfind).2
  subst hid
  exact .marked u row hfind hmay (hu row)

theorem effect_of_claimStep {b : Backend} {worker : Nat} {now expires : Int} {leaseOwner : String}
    {w w' : DeliveryWorld} {id : Uuid} {answer : Nat}
    (h : w.claimStep b worker now (claimChange leaseOwner expires now) id answer w') :
    OutboxEffect w worker w' := by
  unfold DeliveryWorld.claimStep at h
  split at h
  · rename_i hany
    obtain ⟨row, hrow, hmatch⟩ := List.any_eq_true.mp hany
    rw [Bool.and_eq_true, decide_eq_true_eq] at hmatch
    have heffect : OutboxEffect w worker
        (w.claimAll worker (claimChange leaseOwner expires now) [id]) := by
      refine .claimed _ _ _ _ (List.nodup_singleton _) ?_
      intro id' hid'
      rw [List.mem_singleton.mp hid']
      exact ⟨row, DeliveryWorld.find_eq_some.mpr ⟨hrow, hmatch.1⟩,
        row.isOpen_of_isClaimable hmatch.2⟩
    exact h.2 ▸ heffect
  · exact h.2 ▸ .same

theorem effect_of_deliveryEffect {b : Backend} {worker : Nat} {now : Int} {w w' : DeliveryWorld}
    {op : DeliveryOp} {answer : DeliveryResult op} (hmay : MayCall worker w op)
    (h : deliveryEffect b worker now w op answer w') : OutboxEffect w worker w' := by
  cases op with
  | clientClock => exact h.2 ▸ .same
  | claimPending leaseOwner leaseMs limit =>
    obtain ⟨locked, rfl, _⟩ := h
    refine .claimed _ _ _ _ nodup_pendingIds ?_
    intro id hid
    obtain ⟨row, hrow, rfl, hclaimable⟩ := mem_pendingIds hid
    exact ⟨row, DeliveryWorld.find_eq_some.mpr ⟨hrow, rfl⟩, row.isOpen_of_isClaimable hclaimable⟩
  | selectCandidates limit => exact h.2 ▸ .same
  | claimCandidate id leaseOwner expires =>
    exact effect_of_claimStep h
  | selectRecord id => exact h.2 ▸ .same
  | buildHttpClient => exact h ▸ .same
  | post target contentType adapter auth body => exact h ▸ .same
  | markDelivered id httpStatus =>
    refine effect_of_markStep hmay (fun row => ⟨rfl, ?_⟩) h
    intro (houtcome : DeliveryMark.delivered = .failed)
    cases houtcome
  | markFailed id error httpStatus retryAt =>
    refine effect_of_markStep hmay (fun row => ⟨rfl, ?_⟩) h
    intro houtcome
    by_contra hge
    have hdead : (failedChange error httpStatus retryAt now).outcome row = .deadLettered :=
      if_pos (Int.not_lt.mp hge)
    rw [hdead] at houtcome
    cases houtcome
  | markDeadLettered id error httpStatus =>
    refine effect_of_markStep hmay (fun row => ⟨rfl, ?_⟩) h
    intro (houtcome : DeliveryMark.deadLettered = .failed)
    cases houtcome
  | requeueDeadLetter tenantId id retryAt =>
    rcases h with ⟨row, hfind, _, hdead, _, rfl⟩ | ⟨_, _, rfl⟩
    · have hid : row.id = id := (DeliveryWorld.find_eq_some.mp hfind).2
      subst hid
      exact .requeued retryAt now row hfind hdead
    · exact .same
  | create new =>
    obtain ⟨_, hnew, rfl⟩ := h
    exact .created _ hnew _ ⟨rfl, rfl⟩

/-- Everything a worker's call can do. -/
theorem effect_of_move {b : Backend} {w w' : DeliveryWorld} (h : DeliveryMove b w w') :
    ∃ worker, OutboxEffect w worker w' := by
  obtain ⟨worker, op, answer, hmay, hstep⟩ := h
  refine ⟨worker, ?_⟩
  rcases Handler.effect_of_fallible hstep with rfl | ⟨result, now, heffect⟩
  · exact .same
  · exact effect_of_deliveryEffect hmay heffect

/-! ## The invariant -/

section Invariant

variable {w : DeliveryWorld}

theorem outboxInv_start : OutboxInv .start where
  bounds := fun _ h => nomatch h
  status := fun _ h => nomatch h
  outstanding := fun _ => iff_of_false List.not_mem_nil nofun
  nodup := List.nodup_nil
  known := fun _ h => nomatch h
  orderly := fun _ => .nil

/-- A claim that has not been marked keeps its record in `processing`. -/
theorem OutboxInv.processing_of_outstanding (h : OutboxInv w) {claim : DeliveryClaim}
    (hclaim : claim ∈ w.outstanding) {row : DeliveryRecord} (hrow : row ∈ w.outbox.rows)
    (hid : row.id = claim.record) : row.status = .processing := by
  rw [h.status row hrow, hid, (h.outstanding claim).mp hclaim]
  rfl

theorem OutboxInv.claim_of_processing (h : OutboxInv w) {row : DeliveryRecord}
    (hrow : row ∈ w.outbox.rows) (hprocessing : row.status = .processing) :
    ∃ claim ∈ w.outstanding, claim.record = row.id := by
  have hstatus := h.status row hrow
  rw [hprocessing] at hstatus
  cases hlast : w.lastEvent row.id with
  | none =>
    rw [hlast] at hstatus
    cases hstatus
  | some e =>
    rw [hlast] at hstatus
    cases e with
    | claimed claim =>
      have hkey : claim.record = row.id := (Log.key_of_last hlast).1
      refine ⟨claim, (h.outstanding claim).mpr ?_, hkey⟩
      rw [hkey]
      exact hlast
    | marked claim mark => cases mark <;> cases hstatus
    | requeued id => cases hstatus

/-- One record is changed and one event noted. -/
theorem OutboxInv.change (h : OutboxInv w) {u : DeliveryChange} {row : DeliveryRecord}
    {e : DeliveryEvent} {outstanding : List DeliveryClaim} {issued : Nat}
    (hfind : w.find row.id = some row) (he : e.record = row.id)
    (hbounds : (u.change row).InBounds) (hstatus : (u.change row).status = statusAfter (some e))
    (hfollows : ∀ prev, w.lastEvent row.id = some prev → follows prev e)
    (hnodup : outstanding.Nodup)
    (houtstanding : ∀ claim, claim ∈ outstanding ↔
      e = .claimed claim ∨ claim.record ≠ row.id ∧ claim ∈ w.outstanding) :
    OutboxInv ⟨w.outbox.update row.id u, outstanding, w.log ++ [e], issued⟩ := by
  have hmem : row ∈ w.outbox.rows := (DeliveryWorld.find_eq_some.mp hfind).1
  have hlastSame : Log.last DeliveryEvent.record row.id (w.log ++ [e]) = some e := by
    rw [← he]
    exact Log.last_concat_same
  have hlastOther : ∀ id, id ≠ row.id →
      Log.last DeliveryEvent.record id (w.log ++ [e]) = w.lastEvent id :=
    fun id hid => Log.last_concat_other (he ▸ hid.symm)
  -- the changed row is the one found, since no other has its key
  have hunique : ∀ row' ∈ w.outbox.rows, row'.id = row.id → row' = row := by
    intro row' hrow' hid
    have hfind' : w.find row.id = some row' := DeliveryWorld.find_eq_some.mpr ⟨hrow', hid⟩
    exact Option.some.inj (hfind'.symm.trans hfind)
  refine ⟨?_, ?_, ?_, hnodup, ?_, ?_⟩
  · intro row' hrow'
    obtain ⟨before, hbefore, rfl⟩ := List.mem_map.mp hrow'
    unfold DeliveryChange.row
    split
    · rename_i hid
      rw [hunique before hbefore hid]
      exact hbounds
    · exact h.bounds before hbefore
  · intro row' hrow'
    obtain ⟨before, hbefore, rfl⟩ := List.mem_map.mp hrow'
    rw [u.row_id]
    unfold DeliveryChange.row
    split
    · rename_i hid
      rw [hunique before hbefore hid]
      exact hstatus.trans (congrArg statusAfter hlastSame.symm)
    · rename_i hid
      rw [h.status before hbefore]
      exact congrArg statusAfter (hlastOther _ hid).symm
  · intro claim
    rw [houtstanding claim]
    show _ ↔ Log.last DeliveryEvent.record claim.record (w.log ++ [e]) = some (.claimed claim)
    by_cases hrecord : claim.record = row.id
    · rw [hrecord, hlastSame]
      constructor
      · rintro (heq | hother)
        · rw [heq]
        · exact absurd rfl hother.1
      · intro heq
        exact .inl (Option.some.inj heq)
    · rw [hlastOther _ hrecord]
      have hne : e ≠ .claimed claim := by
        intro heq
        rw [heq] at he
        exact hrecord he
      simp [hne, hrecord, h.outstanding claim]
  · intro e' he'
    show e'.record ∈ (w.outbox.rows.map (u.row row.id)).map (·.id)
    rw [u.map_row_id]
    rcases List.mem_append.mp he' with he' | he'
    · exact h.known e' he'
    · rw [List.mem_singleton.mp he', he]
      exact List.mem_map_of_mem hmem
  · refine Log.orderly_concat h.orderly ?_
    rw [he]
    exact hfollows

theorem DeliveryRecord.IsOpen.not_settled {row : DeliveryRecord} (h : row.IsOpen) :
    row.status ≠ .processing ∧ row.status ≠ .delivered ∧ row.status ≠ .deadLettered := by
  rcases h with h | h <;> rw [h] <;> simp

theorem OutboxInv.record_ne_of_open (h : OutboxInv w) {row : DeliveryRecord}
    (hfind : w.find row.id = some row) (hrow : row.status ≠ .processing) {claim : DeliveryClaim}
    (hclaim : claim ∈ w.outstanding) : claim.record ≠ row.id := by
  intro hsame
  exact hrow (h.processing_of_outstanding hclaim (DeliveryWorld.find_eq_some.mp hfind).1 hsame.symm)

/-- What can come before a claim. -/
theorem OutboxInv.follows_claimed (h : OutboxInv w) {row : DeliveryRecord}
    (hfind : w.find row.id = some row) (hopen : row.IsOpen) (claim : DeliveryClaim)
    {prev : DeliveryEvent} (hprev : w.lastEvent row.id = some prev) :
    follows prev (.claimed claim) := by
  have hstatus := h.status row (DeliveryWorld.find_eq_some.mp hfind).1
  rw [hprev] at hstatus
  cases prev with
  | claimed claim' => exact absurd hstatus hopen.not_settled.1
  | marked claim' mark =>
    cases mark with
    | delivered => exact absurd hstatus hopen.not_settled.2.1
    | failed => trivial
    | deadLettered => exact absurd hstatus hopen.not_settled.2.2
  | requeued id => trivial

theorem OutboxInv.claim (h : OutboxInv w) {worker : Nat} {leaseOwner : String} {expires now : Int}
    {row : DeliveryRecord} (hfind : w.find row.id = some row) (hopen : row.IsOpen) :
    OutboxInv (w.claim worker (claimChange leaseOwner expires now) row.id) := by
  have hmem : row ∈ w.outbox.rows := (DeliveryWorld.find_eq_some.mp hfind).1
  have hlt := (h.bounds row hmem).2 hopen.not_settled.2.1 hopen.not_settled.2.2
  have hothers : ∀ claim ∈ w.outstanding, claim.record ≠ row.id :=
    fun _ => h.record_ne_of_open hfind hopen.not_settled.1
  refine h.change hfind rfl ⟨(h.bounds row hmem).1, fun _ _ => hlt⟩ rfl
    (fun prev => h.follows_claimed hfind hopen _) ?_ ?_
  · rw [List.nodup_append]
    refine ⟨h.nodup, List.nodup_singleton _, ?_⟩
    intro claim hclaim claim' hclaim' heq
    rw [List.mem_singleton.mp hclaim'] at heq
    exact hothers claim hclaim (heq ▸ rfl)
  · intro claim
    rw [List.mem_append, List.mem_singleton]
    constructor
    · rintro (hclaim | hclaim)
      · exact .inr ⟨hothers claim hclaim, hclaim⟩
      · exact .inl (congrArg _ hclaim.symm)
    · rintro (hclaim | hclaim)
      · exact .inr (DeliveryEvent.claimed.inj hclaim).symm
      · exact .inl hclaim.2

/-- A claim changes one record only. -/
theorem find_claim_other {worker : Nat} {u : DeliveryChange} {id id' : Uuid} (hne : id' ≠ id) :
    (w.claim worker u id).find id' = w.find id' := by
  show Table.find (·.id) (w.outbox.rows.map (u.row id)) id' = _
  rw [Table.find_map (u.row_id id)]
  show (w.find id').map (u.row id) = w.find id'
  cases hfind : w.find id' with
  | none => rfl
  | some row =>
    have hrow : row.id ≠ id := by
      rw [(DeliveryWorld.find_eq_some.mp hfind).2]
      exact hne
    rw [Option.map_some, DeliveryChange.row, if_neg hrow]

theorem OutboxInv.claimAll (h : OutboxInv w) {worker : Nat} {leaseOwner : String}
    {expires now : Int} {ids : List Uuid} (hids : ids.Nodup)
    (hopen : ∀ id ∈ ids, ∃ row, w.find id = some row ∧ row.IsOpen) :
    OutboxInv (w.claimAll worker (claimChange leaseOwner expires now) ids) := by
  induction ids generalizing w with
  | nil => exact h
  | cons id ids ih =>
    rw [List.nodup_cons] at hids
    obtain ⟨row, hfind, hrow⟩ := hopen id List.mem_cons_self
    obtain rfl := (DeliveryWorld.find_eq_some.mp hfind).2
    refine ih (h.claim hfind hrow) hids.2 ?_
    intro id' hid'
    have hne : id' ≠ row.id := fun heq => hids.1 (heq ▸ hid')
    rw [find_claim_other hne]
    exact hopen id' (List.mem_cons_of_mem _ hid')

theorem held_eq_some {worker : Nat} {id : Uuid} {claim : DeliveryClaim}
    (h : w.held worker id = some claim) :
    claim ∈ w.outstanding ∧ claim.worker = worker ∧ claim.record = id := by
  have hmatch := List.find?_some h
  rw [Bool.and_eq_true, decide_eq_true_eq, decide_eq_true_eq] at hmatch
  exact ⟨List.mem_of_find?_eq_some h, hmatch.1, hmatch.2⟩

theorem OutboxInv.mark (h : OutboxInv w) {worker : Nat} {u : MarkChange} {row : DeliveryRecord}
    (hfind : w.find row.id = some row) (hheld : (w.held worker row.id).isSome)
    (hattempts : (u.change row).attempts = row.attempts + 1)
    (hfailed : u.outcome row = .failed → row.attempts + 1 < row.maxAttempts) :
    OutboxInv (w.mark worker u row) := by
  obtain ⟨claim, hclaim⟩ := Option.isSome_iff_exists.mp hheld
  obtain ⟨houtstanding, _, hrecord⟩ := held_eq_some hclaim
  have hmem : row ∈ w.outbox.rows := (DeliveryWorld.find_eq_some.mp hfind).1
  have hprocessing := h.processing_of_outstanding houtstanding hmem hrecord.symm
  have hlast : w.lastEvent row.id = some (.claimed claim) := by
    rw [← hrecord]
    exact (h.outstanding claim).mp houtstanding
  have hlt := (h.bounds row hmem).2 (by rw [hprocessing]; nofun) (by rw [hprocessing]; nofun)
  have hbounds : (u.change row).InBounds := by
    rw [DeliveryRecord.InBounds, u.keeps_max, hattempts, u.status_eq]
    refine ⟨by omega, ?_⟩
    intro hdelivered hdead
    cases hmark : u.outcome row with
    | delivered => exact absurd (congrArg DeliveryMark.status hmark) hdelivered
    | failed => exact hfailed hmark
    | deadLettered => exact absurd (congrArg DeliveryMark.status hmark) hdead
  unfold DeliveryWorld.mark
  rw [hclaim]
  refine h.change hfind hrecord hbounds (u.status_eq row) ?_ (h.nodup.erase _) ?_
  · intro prev hprev
    obtain rfl : DeliveryEvent.claimed claim = prev := Option.some.inj (hlast.symm.trans hprev)
    rfl
  · intro claim'
    rw [h.nodup.mem_erase_iff]
    constructor
    · rintro ⟨hne, hclaim'⟩
      refine .inr ⟨?_, hclaim'⟩
      intro hsame
      have hlast' := (h.outstanding claim').mp hclaim'
      rw [hsame, hlast] at hlast'
      exact hne (DeliveryEvent.claimed.inj (Option.some.inj hlast')).symm
    · rintro (heq | ⟨hne, hclaim'⟩)
      · cases heq
      · exact ⟨fun heq => hne (heq ▸ hrecord), hclaim'⟩

theorem OutboxInv.requeue (h : OutboxInv w) {retryAt now : Int} {row : DeliveryRecord}
    (hfind : w.find row.id = some row) (hdead : row.status = .deadLettered) :
    OutboxInv (w.requeue (requeueChange retryAt now) row.id) := by
  have hmem : row ∈ w.outbox.rows := (DeliveryWorld.find_eq_some.mp hfind).1
  have hmax : 1 ≤ row.maxAttempts := w.outbox.checks row hmem
  have hbounds : ((requeueChange retryAt now).change row).InBounds :=
    ⟨show 0 ≤ row.maxAttempts by omega, fun _ _ => show 0 < row.maxAttempts by omega⟩
  refine h.change hfind rfl hbounds rfl ?_ h.nodup ?_
  · intro prev hprev
    have hstatus := h.status row hmem
    rw [hprev, hdead] at hstatus
    cases prev with
    | claimed claim => cases hstatus
    | marked claim mark =>
      cases mark with
      | delivered => cases hstatus
      | failed => cases hstatus
      | deadLettered => trivial
    | requeued id => cases hstatus
  · intro claim
    have hopen : row.status ≠ .processing := by
      rw [hdead]
      nofun
    constructor
    · intro hclaim
      exact .inr ⟨h.record_ne_of_open hfind hopen hclaim, hclaim⟩
    · rintro (heq | hclaim)
      · cases heq
      · exact hclaim.2

theorem OutboxInv.create (h : OutboxInv w) {row : DeliveryRecord}
    (hnew : row.id ∉ w.outbox.rows.map (·.id)) (hmax : 1 ≤ row.maxAttempts)
    (hpending : row.status = .pending) (hattempts : row.attempts = 0) :
    OutboxInv { w with outbox := w.outbox.insert row hnew hmax } := by
  refine ⟨?_, ?_, h.outstanding, h.nodup, ?_, h.orderly⟩
  · intro row' hrow'
    rcases List.mem_append.mp hrow' with hrow' | hrow'
    · exact h.bounds row' hrow'
    · rw [List.mem_singleton.mp hrow', DeliveryRecord.InBounds, hattempts]
      exact ⟨by omega, fun _ _ => by omega⟩
  · intro row' hrow'
    rcases List.mem_append.mp hrow' with hrow' | hrow'
    · exact h.status row' hrow'
    · rw [List.mem_singleton.mp hrow', hpending]
      have hnone : w.lastEvent row.id = none := by
        refine Log.last_eq_none fun e he heq => hnew ?_
        rw [← heq]
        exact h.known e he
      exact congrArg statusAfter hnone.symm
  · intro e he
    show e.record ∈ (w.outbox.rows ++ [row]).map (·.id)
    rw [List.map_append]
    exact List.mem_append_left _ (h.known e he)

/-- One call keeps the invariant. -/
theorem outboxInv_effect (h : OutboxInv w) {worker : Nat} {w' : DeliveryWorld}
    (heffect : OutboxEffect w worker w') : OutboxInv w' := by
  cases heffect with
  | same => exact h
  | created row hnew hmax hrow => exact h.create hnew hmax hrow.1 hrow.2
  | claimed leaseOwner expires now ids hids hopen => exact h.claimAll hids hopen
  | marked u row hfind hheld hu => exact h.mark hfind hheld hu.1 hu.2
  | requeued retryAt now row hfind hdead => exact h.requeue hfind hdead

theorem outboxInv_of_reaches {b : Backend} {w' : DeliveryWorld} (h : OutboxInv w)
    (hreach : DeliveryReaches b w w') : OutboxInv w' := by
  induction hreach with
  | refl => exact h
  | tail _ hmove ih =>
    obtain ⟨worker, heffect⟩ := effect_of_move hmove
    exact outboxInv_effect ih heffect

end Invariant

/-! ## Claims and attempts -/

/-- What holds of the table and of the log of claims, marks and requeues. -/
structure OutboxSafe (w : DeliveryWorld) : Prop where
  attempts_le : ∀ row ∈ w.outbox.rows, row.attempts ≤ row.maxAttempts
  open_lt : ∀ row ∈ w.outbox.rows, row.status = .pending ∨ row.status = .failed →
    row.attempts < row.maxAttempts
  delivered_final : ∀ l₁ l₂ l₃ claim claim',
    w.log = l₁ ++ .marked claim .delivered :: (l₂ ++ .claimed claim' :: l₃) →
      claim'.record ≠ claim.record
  dead_letter_requeued : ∀ l₁ l₂ l₃ claim claim',
    w.log = l₁ ++ .marked claim .deadLettered :: (l₂ ++ .claimed claim' :: l₃) →
      claim'.record = claim.record → .requeued claim.record ∈ l₂
  marked_between : ∀ l₁ l₂ l₃ claim claim',
    w.log = l₁ ++ .claimed claim :: (l₂ ++ .claimed claim' :: l₃) →
      claim'.record = claim.record →
      .marked claim .failed ∈ l₂ ∨ .marked claim .deadLettered ∈ l₂

section Safe

variable {log l₁ l₂ l₃ : List DeliveryEvent} {claim claim' : DeliveryClaim}

theorem claimed_of_orderly_delivered (h : Log.Orderly DeliveryEvent.record follows
      (l₁ ++ .marked claim .delivered :: (l₂ ++ .claimed claim' :: l₃))) :
    claim'.record ≠ claim.record := by
  intro hrecord
  rcases Log.between_of_orderly h hrecord with hnext | ⟨_, mid, _, _, _, hnext⟩
  · exact hnext
  · cases mid <;> exact hnext

theorem requeued_of_orderly (h : Log.Orderly DeliveryEvent.record follows
      (l₁ ++ .marked claim .deadLettered :: (l₂ ++ .claimed claim' :: l₃)))
    (hrecord : claim'.record = claim.record) : .requeued claim.record ∈ l₂ := by
  rcases Log.between_of_orderly h hrecord with hnext | ⟨before, mid, rest, hl₂, hkey, hnext⟩
  · exact hnext.elim
  · cases mid with
    | claimed claim => exact hnext.elim
    | marked claim mark => exact hnext.elim
    | requeued id =>
      have hid : id = claim.record := hkey
      rw [hl₂, hid]
      simp

theorem marked_of_orderly (h : Log.Orderly DeliveryEvent.record follows
      (l₁ ++ .claimed claim :: (l₂ ++ .claimed claim' :: l₃)))
    (hrecord : claim'.record = claim.record) :
    .marked claim .failed ∈ l₂ ∨ .marked claim .deadLettered ∈ l₂ := by
  rcases Log.between_of_orderly h hrecord with hnext | ⟨before, mid, rest, hl₂, hkey, hnext⟩
  · exact hnext.elim
  · cases mid with
    | claimed claim => exact hnext.elim
    | requeued id => exact hnext.elim
    | marked c mark =>
      have hc : claim = c := hnext
      subst hc
      cases mark with
      | failed => exact .inl (hl₂ ▸ by simp)
      | deadLettered => exact .inr (hl₂ ▸ by simp)
      | delivered =>
        -- nothing comes after a delivery, so the second claim is of another record
        have hlog : l₁ ++ .claimed claim :: (l₂ ++ .claimed claim' :: l₃) =
            (l₁ ++ .claimed claim :: before) ++
              .marked claim .delivered :: (rest ++ .claimed claim' :: l₃) := by
          simp [hl₂]
        rw [hlog] at h
        exact absurd hrecord (claimed_of_orderly_delivered h)

end Safe

theorem OutboxInv.safe {w : DeliveryWorld} (hinv : OutboxInv w) : OutboxSafe w := by
  refine ⟨fun row hrow => (hinv.bounds row hrow).1, ?_, ?_, ?_, ?_⟩
  · intro row hrow hopen
    have hsettled := DeliveryRecord.IsOpen.not_settled hopen
    exact (hinv.bounds row hrow).2 hsettled.2.1 hsettled.2.2
  · intro l₁ l₂ l₃ claim claim' hlog
    exact claimed_of_orderly_delivered (hlog ▸ hinv.orderly)
  · intro l₁ l₂ l₃ claim claim' hlog hrecord
    exact requeued_of_orderly (hlog ▸ hinv.orderly) hrecord
  · intro l₁ l₂ l₃ claim claim' hlog hrecord
    exact marked_of_orderly (hlog ▸ hinv.orderly) hrecord

/-! ## Records that wait -/

/-- Every record that is not settled can be claimed at every instant after its next
attempt is due and its lease has expired. -/
def NoneStuck (b : Backend) (w : DeliveryWorld) : Prop :=
  ∀ row ∈ w.outbox.rows, row.status ≠ .delivered → row.status ≠ .deadLettered →
    ∀ now, row.nextAttemptAt < now → (∀ expires, row.leaseExpiresAt = some expires → expires < now) →
      row.isClaimable b now = true

theorem DeliveryRecord.isClaimable_of_isOpen {b : Backend} {now : Int} {row : DeliveryRecord}
    (hopen : row.IsOpen) (hdue : row.nextAttemptAt < now)
    (hlease : ∀ expires, row.leaseExpiresAt = some expires → expires < now) :
    row.isClaimable b now = true := by
  simp only [DeliveryRecord.isClaimable, Bool.and_eq_true, Bool.or_eq_true, decide_eq_true_eq]
  refine ⟨⟨hopen, b.stamp_mono hdue.le⟩, ?_⟩
  cases hexpires : row.leaseExpiresAt with
  | none => rfl
  | some expires =>
    rw [Option.all_some, decide_eq_true_eq]
    exact b.stamp_mono (hlease expires hexpires).le

theorem OutboxInv.noneStuck_iff {b : Backend} {w : DeliveryWorld} (hinv : OutboxInv w) :
    NoneStuck b w ↔ w.outstanding = [] := by
  constructor
  · intro hnone
    by_contra hsome
    obtain ⟨claim, hclaim⟩ := List.exists_mem_of_ne_nil _ hsome
    have hlast := Log.key_of_last ((hinv.outstanding claim).mp hclaim)
    obtain ⟨row, hrow, hid⟩ := List.mem_map.mp (hinv.known _ hlast.2)
    have hprocessing := hinv.processing_of_outstanding hclaim hrow hid
    -- wait for the next attempt and for the lease
    have hclaimable := hnone row hrow (by rw [hprocessing]; nofun) (by rw [hprocessing]; nofun)
      (max row.nextAttemptAt (row.leaseExpiresAt.getD 0) + 1) (by omega) (by
        intro expires hexpires
        rw [hexpires, Option.getD_some]
        omega)
    exact (row.isOpen_of_isClaimable hclaimable).not_settled.1 hprocessing
  · intro hnil row hrow hdelivered hdead now hdue hlease
    refine row.isClaimable_of_isOpen ?_ hdue hlease
    cases hstatus : row.status with
    | pending => exact .inl hstatus
    | failed => exact .inr hstatus
    | processing =>
      obtain ⟨claim, hclaim, _⟩ := hinv.claim_of_processing hrow hstatus
      rw [hnil] at hclaim
      cases hclaim
    | delivered => exact absurd hstatus hdelivered
    | deadLettered => exact absurd hstatus hdead

end Compliance
end SecureAgnt

/-
The worker's pass over the outbox.

`processComplianceSiemDeliveryOutbox` marks only records it has claimed, and each at
most once per claim.  `wp_pass` says so for one worker among others, and
`reaches_of_passes` that any number of passes, interleaved in any way, moves the outbox
as `DeliveryReaches` describes.  So what `outbox_safe` and `none_stuck_iff` say of every
run of the workers' calls they say of the passes.
-/
import SecureAgnt.Compliance.Outbox

namespace SecureAgnt
namespace Compliance

open Storage
open Handler (wp)

/-- The claims of a worker that it has not marked. -/
def DeliveryWorld.own (w : DeliveryWorld) (worker : Nat) : List DeliveryClaim :=
  w.outstanding.filter fun claim => claim.worker = worker

/-- A worker relies on its own claims and leaves those of the others alone. -/
def passContract (worker : Nat) : Contract DeliveryWorld DeliveryOp :=
  .owned DeliveryWorld.own worker (MayCall worker)

/-- The worker has a claim of each of the records. -/
def DeliveryWorld.Holds (w : DeliveryWorld) (worker : Nat) (ids : List Uuid) : Prop :=
  ∀ id ∈ ids, ∃ claim ∈ w.own worker, claim.record = id

section Claims

variable {b : Backend} {w w' : DeliveryWorld} {worker : Nat} {ids : List Uuid}

theorem isSome_held_iff {id : Uuid} :
    (w.held worker id).isSome ↔ ∃ claim ∈ w.own worker, claim.record = id := by
  simp [DeliveryWorld.held, DeliveryWorld.own, List.find?_isSome, and_assoc]

theorem holds_of_rely (h : w.Holds worker ids) (hown : w'.own worker = w.own worker) :
    w'.Holds worker ids := by
  intro id hid
  rw [hown]
  exact h id hid

theorem own_claim (u : DeliveryChange) (id : Uuid) (j : Nat) :
    (w.claim worker u id).own j =
      w.own j ++ if worker = j then [⟨worker, id, w.issued⟩] else [] := by
  by_cases h : worker = j <;> simp [DeliveryWorld.own, DeliveryWorld.claim, h]

theorem own_claimAll_other {u : DeliveryChange} {j : Nat} (hne : j ≠ worker) :
    (w.claimAll worker u ids).own j = w.own j := by
  induction ids generalizing w with
  | nil => rfl
  | cons id ids ih =>
    show ((w.claim worker u id).claimAll worker u ids).own j = w.own j
    rw [ih, own_claim, if_neg hne.symm, List.append_nil]

theorem mem_own_claimAll {u : DeliveryChange} {claim : DeliveryClaim} (h : claim ∈ w.own worker) :
    claim ∈ (w.claimAll worker u ids).own worker := by
  induction ids generalizing w with
  | nil => exact h
  | cons id ids ih =>
    refine ih ?_
    rw [own_claim]
    exact List.mem_append_left _ h

theorem holds_claimAll {u : DeliveryChange} : (w.claimAll worker u ids).Holds worker ids := by
  induction ids generalizing w with
  | nil => exact fun id hid => nomatch hid
  | cons id ids ih =>
    intro id' hid'
    rcases List.mem_cons.mp hid' with rfl | hid'
    · have hnew : ⟨worker, id', w.issued⟩ ∈ (w.claim worker u id').own worker := by
        rw [own_claim, if_pos rfl]
        exact List.mem_append_right _ List.mem_cons_self
      have hkept : _ ∈ ((w.claim worker u id').claimAll worker u ids).own worker :=
        mem_own_claimAll hnew
      exact ⟨_, hkept, rfl⟩
    · exact ih id' hid'

theorem own_mark_other {u : MarkChange} {row : DeliveryRecord} {j : Nat} (hne : j ≠ worker) :
    (w.mark worker u row).own j = w.own j := by
  unfold DeliveryWorld.mark
  cases hheld : w.held worker row.id with
  | none => rfl
  | some claim =>
    obtain ⟨_, hworker, _⟩ := held_eq_some hheld
    show (w.outstanding.erase claim).filter _ = w.outstanding.filter _
    rw [← List.erase_filter, List.erase_of_not_mem]
    intro hmem
    have hj : claim.worker = j := by simpa using (List.mem_filter.mp hmem).2
    exact hne (hj.symm.trans hworker)

/-- A mark leaves the worker's claims of other records. -/
theorem mem_own_mark {u : MarkChange} {row : DeliveryRecord} {claim : DeliveryClaim}
    (h : claim ∈ w.own worker) (hne : claim.record ≠ row.id) :
    claim ∈ (w.mark worker u row).own worker := by
  obtain ⟨hmem, hworker⟩ := List.mem_filter.mp h
  unfold DeliveryWorld.mark
  cases hheld : w.held worker row.id with
  | none => exact h
  | some claim' =>
    obtain ⟨_, _, hrecord⟩ := held_eq_some hheld
    refine List.mem_filter.mpr ⟨?_, hworker⟩
    refine (List.mem_erase_of_ne ?_).mpr hmem
    intro heq
    exact hne (heq ▸ hrecord)

end Claims

/-! ## Calls -/

section Calls

variable {b : Backend} {w w' : DeliveryWorld} {worker : Nat} {op : DeliveryOp}

/-- No call touches the claims of another worker. -/
theorem own_of_effect {now : Int} {result : DeliveryResult op} {j : Nat} (hne : j ≠ worker)
    (h : deliveryEffect b worker now w op result w') : w'.own j = w.own j := by
  have hmark : ∀ {u id answer}, w.markStep worker u id answer w' → w'.own j = w.own j := by
    rintro u id answer ⟨row, _, _, rfl⟩
    exact own_mark_other hne
  cases op with
  | clientClock => rw [h.2]
  | claimPending leaseOwner leaseMs limit =>
    obtain ⟨locked, rfl, _⟩ := h
    exact own_claimAll_other hne
  | selectCandidates limit => rw [h.2]
  | claimCandidate id leaseOwner expires =>
    replace h : w.claimStep b worker now _ id result w' := h
    unfold DeliveryWorld.claimStep at h
    split at h
    · rw [h.2, own_claim, if_neg hne.symm, List.append_nil]
    · rw [h.2]
  | selectRecord id => rw [h.2]
  | buildHttpClient => rw [show w' = w from h]
  | post target contentType adapter auth body => rw [show w' = w from h]
  | markDelivered id httpStatus => exact hmark h
  | markFailed id error httpStatus retryAt => exact hmark h
  | markDeadLettered id error httpStatus => exact hmark h
  | requeueDeadLetter tenantId id retryAt =>
    rcases h with ⟨_, _, _, _, _, rfl⟩ | ⟨_, _, rfl⟩ <;> rfl
  | create new =>
    obtain ⟨_, _, rfl⟩ := h
    rfl

theorem wp_ask {P : DeliveryWorld → DeliveryResult op → Prop}
    (hsafe : ∀ w₁, w₁.own worker = w.own worker → MayCall worker w₁ op)
    (hok : ∀ w₁ now result w₂ w₃, w₁.own worker = w.own worker →
      deliveryEffect b worker now w₁ op result w₂ → w₃.own worker = w₂.own worker → P w₃ result) :
    wp (deliveryHandler b worker) (passContract worker) (ask op) (OnOk P) w := by
  refine Handler.wp_ask ?_ hsafe ?_
  · rintro w₁ w₂ result ⟨now, heffect⟩ j hne
    exact own_of_effect hne heffect
  · rintro w₁ result w₂ w₃ hrely ⟨now, heffect⟩ hrely'
    exact hok w₁ now result w₂ w₃ hrely heffect hrely'

end Calls

/-! ## The pass -/

section Pass

variable {b : Backend} {w : DeliveryWorld} {worker : Nat} {config : DeliveryConfig}

/-- A call that leaves the world alone. -/
theorem wp_ask_read {op : DeliveryOp} {ids : List Uuid} (hsafe : ∀ w, MayCall worker w op)
    (hsame : ∀ {now w result w'}, deliveryEffect b worker now w op result w' → w' = w)
    (hw : w.Holds worker ids) :
    wp (deliveryHandler b worker) (passContract worker) (ask op)
      (OnOk fun w' _ => w'.Holds worker ids) w := by
  refine wp_ask (fun w₁ _ => hsafe w₁) ?_
  intro w₁ now result w₂ w₃ hrely heffect hrely'
  have h₂ : w₂ = w₁ := hsame heffect
  rw [h₂] at hrely'
  exact holds_of_rely (holds_of_rely hw hrely) hrely'

theorem wp_ask_clock {ids : List Uuid} (hw : w.Holds worker ids) :
    wp (deliveryHandler b worker) (passContract worker) (ask .clientClock)
      (OnOk fun w' _ => w'.Holds worker ids) w :=
  wp_ask_read (fun _ => trivial) (fun h => h.2) hw

/-- The records that the SQLite loop returns are among the candidates, and the worker
holds them beside those it held before. -/
theorem wp_claimCandidates {leaseOwner : String} {expires : Int} (candidates kept : List Uuid)
    (w : DeliveryWorld) (hw : w.Holds worker kept) :
    wp (deliveryHandler b worker) (passContract worker)
      (claimCandidates leaseOwner expires candidates)
      (OnOk fun w' records => (records.map (·.id)).Sublist candidates ∧
        w'.Holds worker (kept ++ records.map (·.id))) w := by
  induction candidates generalizing kept w with
  | nil =>
    intro w' hrely
    refine ⟨.slnil, ?_⟩
    rw [List.map_nil, List.append_nil]
    exact holds_of_rely hw hrely
  | cons candidate candidates ih =>
    have hclaim : wp (deliveryHandler b worker) (passContract worker)
        (ask (.claimCandidate candidate leaseOwner expires))
        (OnOk fun w' affected => w'.Holds worker kept ∧
          (affected = 1 → w'.Holds worker (kept ++ [candidate]))) w := by
      refine wp_ask (fun _ _ => trivial) ?_
      intro w₁ now affected w₂ w₃ hrely heffect hrely'
      have hkept := holds_of_rely hw hrely
      replace heffect : w₁.claimStep b worker now _ candidate affected w₂ := heffect
      unfold DeliveryWorld.claimStep at heffect
      split at heffect
      · have hafter : w₂.Holds worker (kept ++ [candidate]) := by
          rw [heffect.2]
          intro id hid
          rw [own_claim, if_pos rfl]
          rcases List.mem_append.mp hid with hid | hid
          · obtain ⟨claim, hclaim, hrecord⟩ := hkept id hid
            exact ⟨claim, List.mem_append_left _ hclaim, hrecord⟩
          · rw [List.mem_singleton.mp hid]
            exact ⟨_, List.mem_append_right _ List.mem_cons_self, rfl⟩
        refine ⟨holds_of_rely (fun id hid => hafter id (List.mem_append_left _ hid)) hrely', ?_⟩
        exact fun _ => holds_of_rely hafter hrely'
      · obtain ⟨rfl, rfl⟩ := heffect
        exact ⟨holds_of_rely hkept hrely', nofun⟩
    refine Handler.wp_then hclaim ?_ fun _ _ => trivial
    rintro w₁ affected ⟨hkept, hone⟩
    by_cases haffected : (affected : Nat) = 1
    · rw [if_neg (not_not.mpr haffected)]
      have hread : wp (deliveryHandler b worker) (passContract worker)
          (ask (.selectRecord candidate))
          (OnOk fun w' found => w'.Holds worker (kept ++ [candidate]) ∧
            ∀ row, found = some row → row.id = candidate) w₁ := by
        refine wp_ask (fun _ _ => trivial) ?_
        intro w₂ now found w₃ w₄ hrely heffect hrely'
        obtain ⟨rfl, rfl⟩ := heffect
        refine ⟨holds_of_rely (holds_of_rely (hone haffected) hrely) hrely', ?_⟩
        intro row hrow
        exact (DeliveryWorld.find_eq_some.mp hrow).2
      refine Handler.wp_then hread ?_ fun _ _ => trivial
      rintro w₂ found ⟨hheld, hid⟩
      cases found with
      | none => exact fun _ _ => trivial
      | some row =>
        refine Handler.wp_then (ih (kept ++ [candidate]) w₂ hheld) ?_ fun _ _ => trivial
        rintro w₃ records ⟨hsub, hrecords⟩
        intro w₄ hrely
        have hrow : row.id = candidate := hid row rfl
        refine ⟨?_, ?_⟩
        · rw [List.map_cons, hrow]
          exact hsub.cons_cons candidate
        · rw [List.map_cons, hrow]
          rw [List.append_assoc] at hrecords
          exact holds_of_rely hrecords hrely
    · rw [if_pos haffected]
      refine Handler.wp_mono ?_ (ih kept w₁ hkept)
      intro w₂ out hout
      cases out with
      | ok records => exact ⟨hout.1.cons candidate, hout.2⟩
      | error e => trivial

theorem wp_claimPending {leaseOwner : String} {leaseMs limit : Int} :
    wp (deliveryHandler b worker) (passContract worker)
      (claimPendingComplianceSiemDeliveryRecords b leaseOwner leaseMs limit)
      (OnOk fun w' records => (records.map (·.id)).Nodup ∧
        w'.Holds worker (records.map (·.id))) w := by
  cases b with
  | postgres =>
    refine wp_ask (fun _ _ => trivial) ?_
    intro w₁ now records w₂ w₃ _ heffect hrely'
    obtain ⟨locked, rfl, hperm⟩ := heffect
    have hids := hperm.map (·.id)
    refine ⟨hids.nodup_iff.mpr ?_, ?_⟩
    · exact (Outbox.keys _).sublist (List.filter_sublist.map _)
    · refine holds_of_rely ?_ hrely'
      intro id hid
      obtain ⟨row, hrow, rfl⟩ := List.mem_map.mp (hids.mem_iff.mp hid)
      exact holds_claimAll row.id (List.contains_iff_mem.mp (List.mem_filter.mp hrow).2)
  | sqlite =>
    have hnone : ∀ w : DeliveryWorld, w.Holds worker [] := fun _ _ hid => nomatch hid
    refine Handler.wp_then (wp_ask_clock (hnone w)) ?_ fun _ _ => trivial
    intro w₁ now _
    have hselect : wp (deliveryHandler .sqlite worker) (passContract worker)
        (ask (.selectCandidates limit)) (OnOk fun _ ids => ids.Nodup) w₁ := by
      refine wp_ask (fun _ _ => trivial) ?_
      intro w₂ now ids w₃ w₄ _ heffect _
      show ids.Nodup
      rw [heffect.1]
      exact nodup_pendingIds
    refine Handler.wp_then hselect ?_ fun _ _ => trivial
    intro w₂ candidates hnodup
    refine Handler.wp_mono ?_ (wp_claimCandidates candidates [] w₂ (hnone w₂))
    intro w₃ out hout
    cases out with
    | ok records => exact ⟨List.Nodup.sublist hout.1 hnodup, hout.2⟩
    | error e => trivial

/-- An attempt calls nothing but the endpoint. -/
theorem wp_attemptAt {httpClient : Bool} {record : DeliveryRecord} {target : String}
    {ids : List Uuid} (hw : w.Holds worker ids) (kind : DeliveryTarget) :
    wp (deliveryHandler b worker) (passContract worker)
      (attemptAt config httpClient record target kind)
      (OnOk fun w' _ => w'.Holds worker ids) w := by
  have hpure : ∀ attempt : DeliveryAttempt, wp (deliveryHandler b worker) (passContract worker)
      (.pure attempt) (OnOk fun w' _ => w'.Holds worker ids) w := by
    intro attempt w' hrely
    exact holds_of_rely hw hrely
  cases kind with
  | mockSuccess => exact hpure _
  | mockFail => exact hpure _
  | unsupported => exact hpure _
  | http =>
    refine Handler.wp_ite (fun _ => hpure _) fun _ => ?_
    refine Handler.wp_ite (fun _ => hpure _) fun _ => ?_
    refine Handler.wp_perform_bind fun w₁ hrely => ⟨trivial, fun answer w₂ hstep => ?_⟩
    refine ⟨Handler.guarantee_of_fallible ?_ hstep, ?_⟩
    · rintro result ⟨now, heffect⟩ j hne
      exact own_of_effect hne heffect
    have hsame : w₂ = w₁ := by
      rcases Handler.effect_of_fallible hstep with hsame | ⟨_, _, heffect⟩
      · exact hsame
      · exact heffect
    subst hsame
    cases answer with
    | ok outcome => exact fun w₃ hrely' => holds_of_rely (holds_of_rely hw hrely) hrely'
    | error message => exact fun w₃ hrely' => holds_of_rely (holds_of_rely hw hrely) hrely'

/-- A mark uses up the claim of its record and of no other. -/
theorem wp_mark (op : DeliveryOp) {id : Uuid} {ids : List Uuid} (hnotin : id ∉ ids)
    (hsafe : ∀ w, MayCall worker w op ↔ (w.held worker id).isSome)
    (hmark : ∀ {now w result w'}, deliveryEffect b worker now w op result w' →
      ∃ u answer, w.markStep worker u id answer w')
    (hw : w.Holds worker (id :: ids)) :
    wp (deliveryHandler b worker) (passContract worker) (ask op)
      (OnOk fun w' _ => w'.Holds worker ids) w := by
  refine wp_ask ?_ ?_
  · intro w₁ hrely
    exact (hsafe w₁).mpr (isSome_held_iff.mpr (holds_of_rely hw hrely id List.mem_cons_self))
  · intro w₁ now result w₂ w₃ hrely heffect hrely'
    obtain ⟨u, answer, row, hfind, _, rfl⟩ := hmark heffect
    refine holds_of_rely ?_ hrely'
    intro id' hid'
    obtain ⟨claim, hclaim, hrecord⟩ := holds_of_rely hw hrely id' (List.mem_cons_of_mem _ hid')
    refine ⟨claim, mem_own_mark hclaim ?_, hrecord⟩
    rw [hrecord, (DeliveryWorld.find_eq_some.mp hfind).2]
    intro heq
    exact hnotin (heq ▸ hid')

/-- What a mark returns is dropped. -/
theorem wp_mark_end {op : DeliveryOp} {ids : List Uuid}
    (h : wp (deliveryHandler b worker) (passContract worker) (ask op)
      (OnOk fun w' _ => w'.Holds worker ids) w) :
    wp (deliveryHandler b worker) (passContract worker) (ask op >>= fun _ => .pure ())
      (OnOk fun w' _ => w'.Holds worker ids) w := by
  refine Handler.wp_then h ?_ fun _ _ => trivial
  intro w₁ _ hheld w₂ hrely
  exact holds_of_rely hheld hrely

theorem wp_markAttempt {record : DeliveryRecord} {attempt : DeliveryAttempt} {ids : List Uuid}
    (hnotin : record.id ∉ ids) (hw : w.Holds worker (record.id :: ids)) :
    wp (deliveryHandler b worker) (passContract worker) (markAttempt config record attempt)
      (OnOk fun w' _ => w'.Holds worker ids) w := by
  cases attempt with
  | delivered httpStatus =>
    exact wp_mark_end (wp_mark (.markDelivered record.id httpStatus) hnotin
      (fun _ => Iff.rfl) (fun h => ⟨_, _, h⟩) hw)
  | failed httpStatus error retryable =>
    refine Handler.wp_ite (fun _ => ?_) fun _ => ?_
    · refine Handler.wp_then (wp_ask_clock hw) ?_ fun _ _ => trivial
      intro w₁ now hheld
      exact wp_mark_end (wp_mark (.markFailed record.id error httpStatus _) hnotin
        (fun _ => Iff.rfl) (fun h => ⟨_, _, h⟩) hheld)
    · exact wp_mark_end (wp_mark (.markDeadLettered record.id error httpStatus) hnotin
        (fun _ => Iff.rfl) (fun h => ⟨_, _, h⟩) hw)

theorem wp_deliverRecords {httpClient : Bool} (records : List DeliveryRecord)
    (hnodup : (records.map (·.id)).Nodup) (hw : w.Holds worker (records.map (·.id))) :
    wp (deliveryHandler b worker) (passContract worker) (deliverRecords config httpClient records)
      (fun _ _ => True) w := by
  induction records generalizing w with
  | nil => exact fun _ _ => trivial
  | cons record records ih =>
    rw [List.map_cons, List.nodup_cons] at hnodup
    unfold deliverRecords
    refine Handler.wp_then (wp_attemptAt hw _) ?_ fun _ _ => trivial
    intro w₁ attempt hheld
    refine Handler.wp_then (wp_markAttempt hnodup.1 hheld) ?_ fun _ _ => trivial
    intro w₂ _ hrest
    exact ih hnodup.2 hrest

/-- A pass marks only what it has claimed, once per claim, whatever the others do and
whichever of its calls fail. -/
theorem wp_pass : wp (deliveryHandler b worker) (passContract worker)
    (processComplianceSiemDeliveryOutbox b config) (fun _ _ => True) w := by
  refine Handler.wp_then wp_claimPending ?_ fun _ _ => trivial
  rintro w₁ records ⟨hnodup, hheld⟩
  split
  · exact fun _ _ => trivial
  split
  · have hbuild : wp (deliveryHandler b worker) (passContract worker) (ask .buildHttpClient)
        (OnOk fun w' _ => w'.Holds worker (records.map (·.id))) w₁ :=
      wp_ask_read (fun _ => trivial) (fun h => h) hheld
    refine Handler.wp_then hbuild ?_ fun _ _ => trivial
    intro w₂ _ hheld'
    exact wp_deliverRecords records hnodup hheld'
  · exact wp_deliverRecords records hnodup hheld

end Pass

/-- The passes of any number of workers. -/
def passes (b : Backend) (config : Nat → DeliveryConfig) (worker : Nat) :
    Prog (Nat × DeliveryOp) (fun o => Fallible DeliveryResult o.2) String Unit :=
  (processComplianceSiemDeliveryOutbox b (config worker)).tag worker

section Passes

variable {b : Backend} {w w' : DeliveryWorld} {config : Nat → DeliveryConfig}
  {ps : Nat → Prog (Nat × DeliveryOp) (fun o => Fallible DeliveryResult o.2) String Unit}

/-- Any number of passes, interleaved in any way, move the outbox by calls that the
workers may make. -/
theorem reaches_of_passes (hreach : Handler.PoolReaches (Handler.tagged (deliveryHandler b))
      (w, passes b config) (w', ps)) : DeliveryReaches b w w' :=
  Handler.reaches_of_owners (fun _ => wp_pass) hreach

theorem outboxInv_of_passes (hstart : DeliveryReaches b .start w)
    (hreach : Handler.PoolReaches (Handler.tagged (deliveryHandler b)) (w, passes b config)
      (w', ps)) : OutboxInv w' :=
  outboxInv_of_reaches outboxInv_start (hstart.trans (reaches_of_passes hreach))

end Passes

/-! ## Every run -/

/-- The outbox is safe in every world that calls of the workers reach, and wherever
passes take it from there. -/
theorem outbox_safe {b : Backend} {w : DeliveryWorld} (hreach : DeliveryReaches b .start w) :
    OutboxSafe w ∧ ∀ config w' ps, Handler.PoolReaches (Handler.tagged (deliveryHandler b))
      (w, passes b config) (w', ps) → OutboxSafe w' :=
  ⟨(outboxInv_of_reaches outboxInv_start hreach).safe,
    fun _ _ _ hpasses => (outboxInv_of_passes hreach hpasses).safe⟩

/-- No record is stuck if and only if every claim so far has been marked: in every world
that calls of the workers reach, and wherever passes take it from there. -/
theorem none_stuck_iff {b : Backend} {w : DeliveryWorld} (hreach : DeliveryReaches b .start w) :
    (NoneStuck b w ↔ w.outstanding = []) ∧
      ∀ config w' ps, Handler.PoolReaches (Handler.tagged (deliveryHandler b))
        (w, passes b config) (w', ps) → (NoneStuck b w' ↔ w'.outstanding = []) :=
  ⟨(outboxInv_of_reaches outboxInv_start hreach).noneStuck_iff,
    fun _ _ _ hpasses => (outboxInv_of_passes hreach hpasses).noneStuck_iff⟩

/-! ## A delivery that fails and one whose worker stops -/

def sampleDelivery : NewDeliveryRecord where
  id := Uuid.repeated 1
  tenantId := "single"
  runId := none
  adapter := "secureagnt_ndjson"
  deliveryTarget := "mock://fail"
  contentType := "application/x-ndjson"
  payloadNdjson := ""
  maxAttempts := 3

def queuedWorld : DeliveryWorld :=
  { DeliveryWorld.start with
    outbox := DeliveryWorld.start.outbox.insert (sampleDelivery.row .postgres 0)
      List.not_mem_nil (sampleDelivery.one_le_max .postgres 0) }

/-- A worker claims the record for a minute. -/
def claimedWorld : DeliveryWorld :=
  queuedWorld.claimAll 1 (claimChange "worker" (0 + 60000 * 10 ^ 6) 0)
    (pendingIds .postgres 0 [] 10 queuedWorld.outbox)

def claimedRow : DeliveryRecord :=
  (claimChange "worker" (0 + 60000 * 10 ^ 6) 0).change (sampleDelivery.row .postgres 0)

def failedWorld : DeliveryWorld :=
  claimedWorld.mark 1 (failedChange "mock failure target" none (10 ^ 9) 1) claimedRow

theorem queuedWorld_reachable : DeliveryReaches .postgres .start queuedWorld :=
  .single ⟨1, .create sampleDelivery, .ok (sampleDelivery.row .postgres 0), trivial,
    ⟨0, rfl, List.not_mem_nil, rfl⟩⟩

theorem claimedWorld_reachable : DeliveryReaches .postgres .start claimedWorld :=
  .tail queuedWorld_reachable ⟨1, .claimPending "worker" 60000 10, .ok _, trivial,
    ⟨0, [], rfl, List.Perm.refl _⟩⟩

theorem claimedWorld_rows : claimedWorld.outbox.rows = [claimedRow] := rfl

theorem failedWorld_reachable : DeliveryReaches .postgres .start failedWorld :=
  .tail claimedWorld_reachable
    ⟨1, .markFailed (Uuid.repeated 1) "mock failure target" none (10 ^ 9), .ok _, rfl,
      ⟨1, claimedRow, rfl, rfl, rfl⟩⟩

/-- The failed record has two attempts left. -/
theorem failedWorld_safe : OutboxSafe failedWorld := (outbox_safe failedWorld_reachable).1

/-- A worker that stops between its claim and its mark leaves a record that no instant
makes claimable. -/
theorem stopped_worker_strands :
    DeliveryReaches .postgres .start claimedWorld ∧ ¬ NoneStuck .postgres claimedWorld := by
  refine ⟨claimedWorld_reachable, fun h => ?_⟩
  have hclaimable := h claimedRow (by rw [claimedWorld_rows]; exact List.mem_singleton_self _)
    (by decide) (by decide) (10 ^ 12) (by decide) (by
      intro expires hexpires
      have hlease : (0 + 60000 * 10 ^ 6 : Int) = expires := Option.some.inj hexpires
      omega)
  exact absurd hclaimable (by decide)

/-- The claim that failed was marked, so its record can be claimed again. -/
theorem failed_record_not_stuck :
    failedWorld.outbox.rows.map (·.status) = [.failed] ∧ NoneStuck .postgres failedWorld :=
  ⟨rfl, (none_stuck_iff failedWorld_reachable).1.mpr rfl⟩

end Compliance
end SecureAgnt

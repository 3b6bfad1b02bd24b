/-
What the tamper chain is evidence of.

The hash of a row is the digest of its fields joined by `|`.  Two chains of one
length that end in one hash have the same texts, row by row, and the theorem this
file exists for is `agree_iff`: the texts determine the rows up to the place where
the actor ends and the event type begins, and up to the way in which the first row
says that nothing comes before it.
-/
import Mathlib.Logic.Encodable.Basic
import SecureAgnt.Compliance.Chain
import SecureAgnt.Lib.JoinedText
import SecureAgnt.Lib.Tabled

namespace SecureAgnt
namespace Compliance

/-! ## The texts of the fields -/

section Uuid

theorem hexDigit_ne_separator : ∀ x : Fin 16, hexDigit x ≠ '|' := by decide

theorem separator_not_mem_text (u : Uuid) : '|' ∉ u.text.toList := by
  intro hmem
  have hfilter : '|' ∈ u.text.toList.filter fun c => c ≠ '-' :=
    List.mem_filter.mpr ⟨hmem, by decide⟩
  rw [u.filter_text] at hfilter
  obtain ⟨x, _, hx⟩ := List.mem_map.mp hfilter
  exact hexDigit_ne_separator x hx

theorem uuidOrEmpty_injective {u v : Option Uuid} (h : uuidOrEmpty u = uuidOrEmpty v) : u = v := by
  cases u with
  | none =>
    cases v with
    | none => rfl
    | some v => exact absurd h.symm v.text_ne_empty
  | some u =>
    cases v with
    | none => exact absurd h u.text_ne_empty
    | some v => rw [Uuid.text_injective h]

theorem separator_not_mem_uuidOrEmpty (u : Option Uuid) : '|' ∉ (uuidOrEmpty u).toList := by
  cases u with
  | none => exact List.not_mem_nil
  | some u => exact separator_not_mem_text u

end Uuid

theorem toList_concatWs_cons (part next : String) (parts : List String) :
    (concatWs "|" (part :: next :: parts)).toList =
      part.toList ++ '|' :: (concatWs "|" (next :: parts)).toList := by
  simp [concatWs, List.intercalate]

theorem toList_concatWs_singleton (part : String) : (concatWs "|" [part]).toList = part.toList := by
  simp [concatWs, List.intercalate]

/-- Take the first parts off two joined texts. -/
theorem concatWs_uncons {part part' next next' : String} {parts parts' : List String}
    (hcount : part.toList.count '|' = part'.toList.count '|')
    (h : concatWs "|" (part :: next :: parts) = concatWs "|" (part' :: next' :: parts')) :
    part = part' ∧ concatWs "|" (next :: parts) = concatWs "|" (next' :: parts') := by
  have hlist := congrArg String.toList h
  rw [toList_concatWs_cons, toList_concatWs_cons] at hlist
  obtain ⟨hpart, hparts⟩ := split_of_count hcount hlist
  exact ⟨String.toList_inj.mp hpart, String.toList_inj.mp hparts⟩

theorem count_of_not_mem {s t : String} (hs : '|' ∉ s.toList) (ht : '|' ∉ t.toList) :
    s.toList.count '|' = t.toList.count '|' := by
  rw [List.count_eq_zero_of_not_mem hs, List.count_eq_zero_of_not_mem ht]

/-! ## Rows with one hash -/

variable {J : Type}

/-- A digest without collisions, and how the server writes values. -/
structure Postgres.Laws (pg : Postgres J) : Prop where
  md5_injective : Function.Injective pg.md5
  md5_ne_empty : ∀ text, pg.md5 text ≠ ""
  md5_separator : ∀ text, '|' ∉ (pg.md5 text).toList
  jsonb_injective : Function.Injective pg.jsonbText
  jsonb_isJsonText : ∀ payload, IsJsonText (pg.jsonbText payload)
  timestamptz_injective : Function.Injective pg.timestamptzText
  timestamptz_separator : ∀ t, '|' ∉ (pg.timestamptzText t).toList

/-- The fields that the hash of a row determines. -/
structure SameDigest (x y : ComplianceEvent J) : Prop where
  prevHash : x.tamperPrevHash.getD "" = y.tamperPrevHash.getD ""
  id : x.id = y.id
  sourceAuditEventId : x.sourceAuditEventId = y.sourceAuditEventId
  runId : x.runId = y.runId
  stepId : x.stepId = y.stepId
  agentId : x.agentId = y.agentId
  userId : x.userId = y.userId
  actorAndType : x.actor.toList ++ '|' :: x.eventType.toList =
    y.actor.toList ++ '|' :: y.eventType.toList
  payloadJson : x.payloadJson = y.payloadJson
  createdAt : x.createdAt = y.createdAt

/-- The fields that two chains are to agree on. -/
structure SameRecord (x y : ComplianceEvent J) : Prop where
  tamperChainSeq : x.tamperChainSeq = y.tamperChainSeq
  tamperPrevHash : x.tamperPrevHash = y.tamperPrevHash
  id : x.id = y.id
  sourceAuditEventId : x.sourceAuditEventId = y.sourceAuditEventId
  runId : x.runId = y.runId
  stepId : x.stepId = y.stepId
  tenantId : x.tenantId = y.tenantId
  agentId : x.agentId = y.agentId
  userId : x.userId = y.userId
  actor : x.actor = y.actor
  eventType : x.eventType = y.eventType
  payloadJson : x.payloadJson = y.payloadJson
  createdAt : x.createdAt = y.createdAt

section Rows

variable {pg : Postgres J} {x y : ComplianceEvent J}

/-- The last four parts: the time and the payload are found from the end. -/
theorem split_tail (laws : pg.Laws) {actor actor' eventType eventType' : String} {payload payload' : J}
    {createdAt createdAt' : Int}
    (h : concatWs "|" [actor, eventType, pg.jsonbText payload, pg.timestamptzText createdAt] =
      concatWs "|" [actor', eventType', pg.jsonbText payload', pg.timestamptzText createdAt']) :
    actor.toList ++ '|' :: eventType.toList = actor'.toList ++ '|' :: eventType'.toList ∧
      payload = payload' ∧ createdAt = createdAt' := by
  have hlist := congrArg String.toList h
  simp only [toList_concatWs_cons, toList_concatWs_singleton] at hlist
  have hjoined : ∀ a e p t : List Char, a ++ '|' :: (e ++ '|' :: (p ++ '|' :: t)) =
      (a ++ '|' :: e ++ '|' :: p) ++ '|' :: t := by simp
  rw [hjoined, hjoined] at hlist
  have hplain : ∀ u v (z : List Char),
      (pg.timestamptzText u).toList ≠ z ++ '|' :: (pg.timestamptzText v).toList := by
    intro u v z heq
    exact laws.timestamptz_separator u (heq ▸ by simp)
  obtain ⟨hbefore, htime⟩ := split_of_no_overlap (hplain _ _) (hplain _ _) hlist
  have hjson := laws.jsonb_isJsonText
  obtain ⟨hstart, hpayload⟩ := split_of_no_overlap ((hjson payload).no_overlap (hjson payload'))
    ((hjson payload').no_overlap (hjson payload)) hbefore
  exact ⟨hstart, laws.jsonb_injective (String.toList_inj.mp hpayload),
    laws.timestamptz_injective (String.toList_inj.mp htime)⟩

theorem sameDigest_of_hash (laws : pg.Laws) (hx : '|' ∉ (x.tamperPrevHash.getD "").toList)
    (hy : '|' ∉ (y.tamperPrevHash.getD "").toList) (htenant : x.tenantId = y.tenantId)
    (h : x.recomputedHash pg = y.recomputedHash pg) : SameDigest x y := by
  have htext := laws.md5_injective h
  have hid : ∀ u v : Uuid, u.text.toList.count '|' = v.text.toList.count '|' :=
    fun u v => count_of_not_mem (separator_not_mem_text u) (separator_not_mem_text v)
  have hopt : ∀ u v, (uuidOrEmpty u).toList.count '|' = (uuidOrEmpty v).toList.count '|' :=
    fun u v => count_of_not_mem (separator_not_mem_uuidOrEmpty u) (separator_not_mem_uuidOrEmpty v)
  obtain ⟨hprev, htext⟩ := concatWs_uncons (count_of_not_mem hx hy) htext
  obtain ⟨heventId, htext⟩ := concatWs_uncons (hid _ _) htext
  obtain ⟨hsource, htext⟩ := concatWs_uncons (hid _ _) htext
  obtain ⟨hrun, htext⟩ := concatWs_uncons (hid _ _) htext
  obtain ⟨hstep, htext⟩ := concatWs_uncons (hopt _ _) htext
  obtain ⟨_, htext⟩ := concatWs_uncons (by rw [htenant]) htext
  obtain ⟨hagent, htext⟩ := concatWs_uncons (hopt _ _) htext
  obtain ⟨huser, htext⟩ := concatWs_uncons (hopt _ _) htext
  obtain ⟨hactor, hpayload, hcreated⟩ := split_tail laws htext
  exact ⟨hprev, Uuid.text_injective heventId, Uuid.text_injective hsource, Uuid.text_injective hrun,
    uuidOrEmpty_injective hstep, uuidOrEmpty_injective hagent, uuidOrEmpty_injective huser, hactor,
    hpayload, hcreated⟩

end Rows

/-! ## Chains with one last hash -/

/-- The rows agree one by one. -/
def Agree (xs ys : List (ComplianceEvent J)) : Prop := List.Forall₂ SameRecord xs ys

/-- Both first rows have `NULL` or both have an empty text for the hash before them. -/
def SameStart (xs ys : List (ComplianceEvent J)) : Prop :=
  xs.head?.map (·.tamperPrevHash) = ys.head?.map (·.tamperPrevHash)

/-- Row by row the separator is in the two actors equally often. -/
def SameSeparators (xs ys : List (ComplianceEvent J)) : Prop :=
  List.Forall₂ (fun x y => x.actor.toList.count '|' = y.actor.toList.count '|') xs ys

section Chains

variable {pg : Postgres J} {xs ys : List (ComplianceEvent J)} {tenantId : String}

theorem separator_not_mem_prev (laws : pg.Laws) (h : Verified pg xs) :
    ∀ x ∈ xs, '|' ∉ (x.tamperPrevHash.getD "").toList := by
  intro x hx
  rcases ChainView.prev_of_linked h x hx with hprev | ⟨x', _, hprev⟩
  · have hempty : x.tamperPrevHash.getD "" = "" := hprev
    rw [hempty]
    exact List.not_mem_nil
  · have hhash : x.tamperPrevHash.getD "" = x'.recomputedHash pg := hprev
    rw [hhash]
    exact laws.md5_separator _

theorem prev_ne_empty (laws : pg.Laws) {first : ComplianceEvent J} (h : Verified pg (first :: xs)) :
    ∀ x ∈ xs, x.tamperPrevHash.getD "" ≠ "" := by
  intro x hx
  rcases ChainView.prev_of_linked h.2 x hx with hprev | ⟨x', _, hprev⟩
  · have hhash : x.tamperPrevHash.getD "" = first.recomputedHash pg := hprev.trans h.1.2.2
    rw [hhash]
    exact laws.md5_ne_empty _
  · have hhash : x.tamperPrevHash.getD "" = x'.recomputedHash pg := hprev
    rw [hhash]
    exact laws.md5_ne_empty _

theorem eq_of_getD {a b : Option String} (h : a.getD "" = b.getD "") (hne : a.getD "" ≠ "") :
    a = b := by
  cases a with
  | none => exact absurd rfl hne
  | some s =>
    cases b with
    | none => exact absurd h hne
    | some t => exact congrArg some h

theorem tenant_of_mem_orderedEvents {events : List (ComplianceEvent J)} {row : ComplianceEvent J}
    (h : row ∈ orderedEvents tenantId events) : row.tenantId = tenantId := by
  rw [orderedEvents, List.mem_insertionSort] at h
  simpa using (List.mem_filter.mp h).2

/-- What one last hash says of two chains. -/
theorem forall₂_sameDigest (laws : pg.Laws) (hx : ∀ x ∈ xs, x.tenantId = tenantId)
    (hy : ∀ y ∈ ys, y.tenantId = tenantId) (hxs : Verified pg xs) (hys : Verified pg ys)
    (hlength : xs.length = ys.length)
    (hlast : (chainView pg).lastHash "" xs = (chainView pg).lastHash "" ys) :
    List.Forall₂ (fun x y => x.tamperChainSeq = y.tamperChainSeq ∧
      SameDigest x y ∧ x.tenantId = y.tenantId) xs ys := by
  have hxprev := separator_not_mem_prev laws hxs
  have hyprev := separator_not_mem_prev laws hys
  refine ChainView.forall₂_of_linked ?_ ?_ hxs hys hlength hlast
  · intro x hxmem y hymem _ hdigest
    have htenant : x.tenantId = y.tenantId := (hx x hxmem).trans (hy y hymem).symm
    exact ⟨sameDigest_of_hash laws (hxprev x hxmem) (hyprev y hymem) htenant hdigest, htenant⟩
  · intro x y hsame
    exact hsame.1.prevHash

theorem sameRecord_of_sameDigest {x y : ComplianceEvent J}
    (hseq : x.tamperChainSeq = y.tamperChainSeq) (hdigest : SameDigest x y)
    (htenant : x.tenantId = y.tenantId) (hprev : x.tamperPrevHash = y.tamperPrevHash)
    (hcount : x.actor.toList.count '|' = y.actor.toList.count '|') : SameRecord x y := by
  obtain ⟨hactor, htype⟩ := split_of_count hcount hdigest.actorAndType
  exact ⟨hseq, hprev, hdigest.id, hdigest.sourceAuditEventId, hdigest.runId, hdigest.stepId, htenant,
    hdigest.agentId, hdigest.userId, String.toList_inj.mp hactor, String.toList_inj.mp htype,
    hdigest.payloadJson, hdigest.createdAt⟩

theorem sameStart_of_agree (h : Agree xs ys) : SameStart xs ys := by
  cases h with
  | nil => rfl
  | cons hfirst _ => exact congrArg some hfirst.tamperPrevHash

theorem agree_of_verified (laws : pg.Laws) (hx : ∀ x ∈ xs, x.tenantId = tenantId)
    (hy : ∀ y ∈ ys, y.tenantId = tenantId) (hxs : Verified pg xs) (hys : Verified pg ys)
    (hlength : xs.length = ys.length)
    (hlast : (chainView pg).lastHash "" xs = (chainView pg).lastHash "" ys)
    (hstart : SameStart xs ys) (hcount : SameSeparators xs ys) : Agree xs ys := by
  have hsame := forall₂_sameDigest laws hx hy hxs hys hlength hlast
  cases hsame with
  | nil => exact .nil
  | @cons x y xs ys hfirst hrest =>
    have hprev : x.tamperPrevHash = y.tamperPrevHash := Option.some.inj hstart
    cases hcount with
    | cons hc hcs =>
      refine .cons (sameRecord_of_sameDigest hfirst.1 hfirst.2.1 hfirst.2.2 hprev hc) ?_
      have hlater := (List.forall₂_and_left _ _).mpr ⟨prev_ne_empty laws hxs, hrest⟩
      refine hlater.mp ?_ hcs
      intro x' y' hx' hc'
      exact sameRecord_of_sameDigest hx'.2.1 hx'.2.2.1 hx'.2.2.2
        (eq_of_getD hx'.2.2.1.prevHash hx'.1) hc'

end Chains

/-- Two tables whose chains of a tenant verify with one length and one last hash hold
the same rows of that tenant if and only if the first rows name no hash before them in
the same way and row by row the actors have equally many separators. -/
theorem agree_iff {pg : Postgres J} (laws : pg.Laws) {tenantId : String}
    {xs ys : List (ComplianceEvent J)}
    (hxs : (verifyComplianceAuditChain pg tenantId xs).verified = true)
    (hys : (verifyComplianceAuditChain pg tenantId ys).verified = true)
    (hlength : (verifyComplianceAuditChain pg tenantId xs).checkedEvents =
      (verifyComplianceAuditChain pg tenantId ys).checkedEvents)
    (hlast : (verifyComplianceAuditChain pg tenantId xs).latestTamperHash =
      (verifyComplianceAuditChain pg tenantId ys).latestTamperHash) :
    Agree (orderedEvents tenantId xs) (orderedEvents tenantId ys) ↔
      SameStart (orderedEvents tenantId xs) (orderedEvents tenantId ys) ∧
      SameSeparators (orderedEvents tenantId xs) (orderedEvents tenantId ys) := by
  constructor
  · intro hagree
    exact ⟨sameStart_of_agree hagree, hagree.imp fun x y hsame => by rw [hsame.actor]⟩
  · intro hcond
    have hcount : (orderedEvents tenantId xs).length = (orderedEvents tenantId ys).length := by
      rw [← length_validated pg none 1, ← length_validated pg none 1]
      exact hlength
    have hhash : (chainView pg).lastHash "" (orderedEvents tenantId xs) =
        (chainView pg).lastHash "" (orderedEvents tenantId ys) :=
      congrArg (fun last : Option String => last.getD "") hlast
    exact agree_of_verified laws (fun x => tenant_of_mem_orderedEvents)
      (fun y => tenant_of_mem_orderedEvents) (verified_iff.mp hxs) (verified_iff.mp hys) hcount hhash
      hcond.1 hcond.2

/-! ## A shifted boundary -/

/-- The text of a failed run of the sample's, with its actor and event type. -/
def failedText (prevHash eventId tenantId actorAndType time : String) : String :=
  concatWs "|" [prevHash, eventId, eventId, "aaaaaaaa-aaaa-aaaa-aaaa-aaaaaaaaaaaa", "", tenantId, "",
    "", actorAndType, "\x7b\x7d", time]

/-- The times of the rows below, as the server writes them. -/
def timeTable : List (Int × String) :=
  [(0, "1970-01-01 00:00:00+00"), (60 * 10 ^ 6, "1970-01-01 00:01:00+00")]

/-- Elsewhere a time is told from the others by its length. -/
def sampleTime : Int → String :=
  tabled timeTable fun t => String.ofList (' ' :: List.replicate (Encodable.encode t) ' ')

/-- The digests of the rows below. -/
def digestTable : List (String × String) :=
  [(failedText "" "11111111-1111-1111-1111-111111111111" "single" "worker|run.failed"
      "1970-01-01 00:00:00+00", "5951350a474f4fd0b742831d73010974"),
    (failedText "" "11111111-1111-1111-1111-111111111111" "single" "api|run|failed"
      "1970-01-01 00:00:00+00", "2b7832ccdcfc98d0290fe59f413ce858"),
    (failedText "" "33333333-3333-3333-3333-333333333333" "acme" "worker|run.failed"
      "1970-01-01 00:00:00+00", "d973f8df2e41468ed11cd853b1700868"),
    (failedText "5951350a474f4fd0b742831d73010974" "22222222-2222-2222-2222-222222222222" "single"
      "api|cron|run.failed" "1970-01-01 00:01:00+00", "352ac36fc573d0d8796d49beb14cff23")]

def pairedChar (c : Char) : List Char := if c = '|' then ['p', 'p'] else ['c', c]

/-- The digest elsewhere, without collisions. -/
def pairedText (text : String) : String := String.ofList ('h' :: text.toList.flatMap pairedChar)

theorem flatMap_pairedChar_injective {s t : List Char}
    (h : s.flatMap pairedChar = t.flatMap pairedChar) : s = t := by
  induction s generalizing t with
  | nil =>
    cases t with
    | nil => rfl
    | cons d t => by_cases hd : d = '|' <;> simp [pairedChar, hd] at h
  | cons c s ih =>
    cases t with
    | nil => by_cases hc : c = '|' <;> simp [pairedChar, hc] at h
    | cons d t =>
      rw [List.flatMap_cons, List.flatMap_cons] at h
      by_cases hc : c = '|' <;> by_cases hd : d = '|' <;> simp [pairedChar, hc, hd] at h
      · rw [hc, hd, ih h]
      · rw [h.1, ih h.2]

theorem sampleTime_injective : Function.Injective sampleTime := by
  have hhead : ∀ entry ∈ timeTable, entry.2.toList.head? ≠ some ' ' := by decide
  refine tabled_injective (by decide) (fun u v h => ?_)
    fun entry hentry t => ne_ofList_cons (hhead entry hentry) _
  have hlist := (List.cons.inj (String.ofList_injective h)).2
  have hlength := congrArg List.length hlist
  rw [List.length_replicate, List.length_replicate] at hlength
  exact Encodable.encode_injective hlength

theorem sampleTime_separator (t : Int) : '|' ∉ (sampleTime t).toList := by
  have htable : ∀ entry ∈ timeTable, '|' ∉ entry.2.toList := by decide
  refine tabled_prop (P := fun text : String => '|' ∉ text.toList) htable (fun t h => ?_) t
  rw [String.toList_ofList] at h
  rcases List.mem_cons.mp h with h | h
  · exact absurd h (by decide)
  · exact absurd (List.eq_of_mem_replicate h) (by decide)

theorem pairedText_injective : Function.Injective pairedText := by
  intro s t h
  have hlist := (List.cons.inj (String.ofList_injective h)).2
  exact String.toList_inj.mp (flatMap_pairedChar_injective hlist)

def evidenceDigest : String → String := tabled digestTable pairedText

theorem evidenceDigest_injective : Function.Injective evidenceDigest := by
  have hhead : ∀ entry ∈ digestTable, entry.2.toList.head? ≠ some 'h' := by decide +kernel
  have hvalues : (digestTable.map (·.2)).Nodup := by decide +kernel
  exact tabled_injective hvalues pairedText_injective
    fun entry hentry text => ne_ofList_cons (hhead entry hentry) _

theorem evidenceDigest_ne_empty (text : String) : evidenceDigest text ≠ "" := by
  have htable : ∀ entry ∈ digestTable, entry.2 ≠ "" := by decide +kernel
  refine tabled_prop (P := fun hash : String => hash ≠ "") htable (fun text h => ?_) text
  have hlist := congrArg String.toList h
  simp [pairedText] at hlist

theorem evidenceDigest_separator (text : String) : '|' ∉ (evidenceDigest text).toList := by
  have htable : ∀ entry ∈ digestTable, '|' ∉ entry.2.toList := by decide +kernel
  refine tabled_prop (P := fun hash : String => '|' ∉ hash.toList) htable (fun text h => ?_) text
  simp only [pairedText, String.toList_ofList, List.mem_cons, List.mem_flatMap] at h
  rcases h with h | ⟨c, _, hc⟩
  · exact absurd h (by decide)
  · by_cases hsep : c = '|'
    · simp [pairedChar, hsep] at hc
    · simp [pairedChar, hsep, Ne.symm hsep] at hc

-- the texts of the table are long, and the digest is needed by its lemmas only
attribute [irreducible] evidenceDigest

def evidenceServer : Postgres Unit where
  md5 := evidenceDigest
  jsonbText _ := "\x7b\x7d"
  jsonbField _ _ := none
  timestamptzText := sampleTime

theorem evidenceServer_laws : evidenceServer.Laws where
  md5_injective := evidenceDigest_injective
  md5_ne_empty := evidenceDigest_ne_empty
  md5_separator := evidenceDigest_separator
  jsonb_injective := fun _ _ _ => rfl
  jsonb_isJsonText := fun _ => show Lexed.outside.read "\x7b\x7d".toList = some .outside by decide
  timestamptz_injective := sampleTime_injective
  timestamptz_separator := sampleTime_separator

section Chained

variable {J : Type} (pg : Postgres J) (e e' : AuditEvent J)

theorem verified_chained : Verified pg [chainedEvent pg none e] := ⟨⟨rfl, rfl, rfl⟩, trivial⟩

theorem verified_chained_pair :
    Verified pg [chainedEvent pg none e, chainedEvent pg (some (chainedEvent pg none e)) e'] :=
  ⟨⟨rfl, rfl, rfl⟩, ⟨rfl, rfl, rfl⟩, trivial⟩

end Chained

/-- The first row of a chain, for a run that failed. -/
def firstRow (actor eventType : String) : ComplianceEvent Unit :=
  chainedEvent evidenceServer none { failedRun 1 0 with actor := actor, eventType := eventType }

theorem orderedEvents_firstRow (actor eventType : String) :
    orderedEvents "single" [firstRow actor eventType] = [firstRow actor eventType] := rfl

theorem firstRow_verified (actor eventType : String) :
    (verifyComplianceAuditChain evidenceServer "single" [firstRow actor eventType]).verified =
      true :=
  verified_iff.mpr (verified_chained _ _)

/-- The hash does not tell where the actor ends. -/
theorem firstRow_hash (actor middle eventType : String) :
    (firstRow (actor ++ "|" ++ middle) eventType).tamperHash =
      (firstRow actor (middle ++ "|" ++ eventType)).tamperHash := by
  simp [firstRow, chainedEvent, computeComplianceTamperHash, failedRun, concatWs, List.intercalate]

theorem shifted_actor_not_detected :
    evidenceServer.Laws ∧
    (verifyComplianceAuditChain evidenceServer "single" [firstRow "api|run" "failed"]).verified =
      true ∧
    (verifyComplianceAuditChain evidenceServer "single" [firstRow "api" "run|failed"]).verified =
      true ∧
    (verifyComplianceAuditChain evidenceServer "single" [firstRow "api|run" "failed"]).checkedEvents =
      (verifyComplianceAuditChain evidenceServer "single"
        [firstRow "api" "run|failed"]).checkedEvents ∧
    (verifyComplianceAuditChain evidenceServer "single"
        [firstRow "api|run" "failed"]).latestTamperHash =
      (verifyComplianceAuditChain evidenceServer "single"
        [firstRow "api" "run|failed"]).latestTamperHash ∧
    ¬ Agree (orderedEvents "single" [firstRow "api|run" "failed"])
      (orderedEvents "single" [firstRow "api" "run|failed"]) := by
  refine ⟨evidenceServer_laws, firstRow_verified _ _, firstRow_verified _ _, rfl, ?_, ?_⟩
  · exact congrArg some (firstRow_hash "api" "run" "failed")
  · rw [orderedEvents_firstRow, orderedEvents_firstRow]
    intro h
    cases h with
    | cons hfirst _ => exact absurd hfirst.actor (by decide)

/-! ## Two tables of one history -/

def workerRow : ComplianceEvent Unit := firstRow "worker" "run.failed"

/-- A minute later a second run fails; its actor has a separator. -/
def cronRow : ComplianceEvent Unit :=
  chainedEvent evidenceServer (some workerRow) { failedRun 2 (60 * 10 ^ 6) with actor := "api|cron" }

/-- A run of another tenant. -/
def acmeRow : ComplianceEvent Unit :=
  chainedEvent evidenceServer none { failedRun 3 0 with tenantId := "acme" }

/-- The rows in the order of their insertion, and as another server gives them. -/
theorem equal_actors_agree :
    Agree (orderedEvents "single" [workerRow, acmeRow, cronRow])
      (orderedEvents "single" [cronRow, acmeRow, workerRow]) := by
  have hrows : orderedEvents "single" [workerRow, acmeRow, cronRow] = [workerRow, cronRow] := by rfl
  have hrows' : orderedEvents "single" [cronRow, acmeRow, workerRow] = [workerRow, cronRow] := by rfl
  have hverified : ∀ rows, orderedEvents "single" rows = [workerRow, cronRow] →
      (verifyComplianceAuditChain evidenceServer "single" rows).verified = true := by
    intro rows h
    rw [verified_iff, h]
    exact verified_chained_pair _ _ _
  have hreport : verifyComplianceAuditChain evidenceServer "single" [workerRow, acmeRow, cronRow] =
      verifyComplianceAuditChain evidenceServer "single" [cronRow, acmeRow, workerRow] := by
    unfold verifyComplianceAuditChain
    rw [hrows, hrows']
  refine (agree_iff evidenceServer_laws (hverified _ hrows) (hverified _ hrows')
    (congrArg (·.checkedEvents) hreport) (congrArg (·.latestTamperHash) hreport)).mpr ?_
  rw [hrows, hrows']
  exact ⟨rfl, .cons rfl (.cons rfl .nil)⟩

end Compliance
end SecureAgnt

/-
What an accepted chain is evidence of.

The hash of an event is taken of three texts joined by `|`.  The payload is a JSON text, so
it is found from the end; the hash before it has no separator, or it is the seed that both
chains start from; what is left is the sequence token.  From the last event back, two
accepted chains of one length with one last hash agree on all of it.
-/
import SecureAgnt.Lib.Tabled
import SecureAgnt.Skill.AuditChain

namespace SecureAgnt
namespace Skill
namespace AuditChain

/-- What the verifier takes from an event. -/
structure ChainRow where
  index : Nat
  token : String
  prev : String
  payload : String
  hash : String

def ChainRow.text (row : ChainRow) : String :=
  row.token ++ "|" ++ row.prev ++ "|" ++ row.payload

def chainView (rt : AuditRuntime) : ChainView ChainRow String where
  seq := fun row => row.index
  prev := ChainRow.prev
  hash := ChainRow.hash
  digest := fun row => rt.sha256Hex row.text

def rowOf (rt : AuditRuntime) (config : VerifyConfig) (entry : Json × Nat) : ChainRow :=
  let event := (entry.1.asObject?).getD []
  { index := entry.2
    token := seqToken rt config entry.2 event
    prev := (strField event config.prevField).getD ""
    payload := scrubEvent rt config event
    hash := (strField event config.hashField).getD "" }

def chainRows (rt : AuditRuntime) (config : VerifyConfig) (events : List Json) : List ChainRow :=
  events.zipIdx.map (rowOf rt config)

variable {rt : AuditRuntime} {config config' : VerifyConfig} {events events' : List Json}
  {event : Json} {i index : Nat} {prev : String}

/-! ## An accepted chain is linked -/

theorem chainRows_concat : chainRows rt config (events ++ [event]) =
    chainRows rt config events ++ [rowOf rt config (event, events.length)] := by
  unfold chainRows
  rw [List.zipIdx_append, List.map_append, Nat.zero_add]
  rfl

theorem length_chainRows : (chainRows rt config events).length = events.length := by
  simp [chainRows]

theorem validAt_of_follows (h : Follows rt config index prev event) :
    (chainView rt).ValidAt prev index (rowOf rt config (event, index)) ∧
      (event.get? config.hashField).bind Json.asStr? =
        some (rowOf rt config (event, index)).hash := by
  obtain ⟨fields, rfl, hnamed, hcarried⟩ := h
  have hprev : (rowOf rt config (Json.obj fields, index)).prev = prev := by
    show (strField fields config.prevField).getD "" = prev
    rw [hnamed, Option.getD_some]
  have hhash : (rowOf rt config (Json.obj fields, index)).hash =
      expectedHash rt config index prev fields := by
    show (strField fields config.hashField).getD "" = _
    rw [hcarried, Option.getD_some]
  refine ⟨⟨rfl, hprev, ?_⟩, ?_⟩
  · show (rowOf rt config (Json.obj fields, index)).hash = rt.sha256Hex (ChainRow.text _)
    rw [hhash, ChainRow.text, hprev]
    rfl
  · rw [hhash, ← hcarried]
    rfl

theorem linked_of_chained (h : ∀ i < events.length, ChainedAt rt config events i) :
    (chainView rt).Linked config.seed 0 (chainRows rt config events) ∧
      previousHash config events events.length =
        some ((chainView rt).lastHash config.seed (chainRows rt config events)) := by
  induction events using List.reverseRecOn with
  | nil => exact ⟨trivial, rfl⟩
  | append_singleton events event ih =>
    have hlength : (events ++ [event]).length = events.length + 1 := by simp
    have hbefore : ∀ i < events.length, ChainedAt rt config events i := by
      intro i hi
      exact (chainedAt_append hi).mp (h i (by omega))
    obtain ⟨hlinked, hprevious⟩ := ih hbefore
    have hfollows := (chainedAt_last hprevious).mp (h events.length (by omega))
    obtain ⟨hvalid, hhash⟩ := validAt_of_follows hfollows
    rw [chainRows_concat]
    refine ⟨ChainView.linked_concat.mpr ⟨hlinked, ?_⟩, ?_⟩
    · rw [length_chainRows, Int.zero_add]
      exact hvalid
    · rw [ChainView.lastHash_concat, hlength]
      show (events ++ [event])[events.length]?.bind _ = _
      rw [List.getElem?_concat_length]
      exact hhash

/-! ## The hashed text splits in one way -/

theorem toList_text (row : ChainRow) : row.text.toList =
    (row.token.toList ++ '|' :: row.prev.toList) ++ '|' :: row.payload.toList := by
  simp [ChainRow.text]

theorem separator_not_mem_sha (hsha : HexText rt.sha256Hex) (text : String) :
    '|' ∉ (rt.sha256Hex text).toList := by
  intro hmem
  exact absurd (hsha.digits text _ hmem) (by decide)

theorem isValue_scrubbed {fields : List (String × Json)} (h : Json.IsValue (.obj fields)) :
    Json.IsValue (scrubbed config fields) := by
  refine Json.isValue_canonical ?_
  cases h with
  | obj hkeys hfields =>
    refine .obj ?_ ?_
    · exact (List.filter_sublist.map _).nodup hkeys
    · intro field hfield
      exact hfields field (List.mem_of_mem_filter hfield)

theorem isJsonText_rowOf (h : Json.IsValue event) :
    IsJsonText (rowOf rt config (event, index)).payload := by
  have hobject : Json.IsValue (.obj ((event.asObject?).getD [])) := by
    cases event with
    | obj fields => exact h
    | _ => exact .obj List.nodup_nil (fun field hfield => nomatch hfield)
  exact isJsonText_write (isValue_scrubbed hobject)

/-- Two rows that agree on what the hash covers. -/
def SameRow (x y : ChainRow) : Prop :=
  x.token = y.token ∧ x.prev = y.prev ∧ x.payload = y.payload

theorem sameRow_of_text {x y : ChainRow} (hx : IsJsonText x.payload) (hy : IsJsonText y.payload)
    (hprev : x.prev = y.prev ∨ '|' ∉ x.prev.toList ∧ '|' ∉ y.prev.toList)
    (h : x.text = y.text) : SameRow x y := by
  have htext := congrArg String.toList h
  rw [toList_text, toList_text] at htext
  obtain ⟨hfront, hpayload⟩ := split_of_no_overlap (hx.no_overlap hy) (hy.no_overlap hx) htext
  have hsplit : x.token.toList = y.token.toList ∧ x.prev.toList = y.prev.toList := by
    rcases hprev with hprev | ⟨hxprev, hyprev⟩
    · rw [hprev] at hfront
      exact ⟨List.append_cancel_right hfront, congrArg String.toList hprev⟩
    · have hplain : ∀ s t z : List Char, '|' ∉ s → s ≠ z ++ '|' :: t := by
        intro s t z hs heq
        exact hs (heq ▸ by simp)
      exact split_of_no_overlap (fun z => hplain _ _ z hxprev) (fun z => hplain _ _ z hyprev) hfront
  exact ⟨String.toList_inj.mp hsplit.1, String.toList_inj.mp hsplit.2,
    String.toList_inj.mp hpayload⟩

/-! ## Two chains -/

theorem isJsonText_chainRows (h : ∀ event ∈ events, Json.IsValue event) :
    ∀ row ∈ chainRows rt config events, IsJsonText row.payload := by
  intro row hrow
  obtain ⟨⟨event, index⟩, hentry, rfl⟩ := List.mem_map.mp hrow
  exact isJsonText_rowOf (h event (List.fst_mem_of_mem_zipIdx hentry))

theorem forall₂_sameRow (hsha : HexText rt.sha256Hex) (hinj : Function.Injective rt.sha256Hex)
    (hseed : config.seed = config'.seed) (hlength : events.length = events'.length)
    (hvalues : ∀ event ∈ events, Json.IsValue event)
    (hvalues' : ∀ event ∈ events', Json.IsValue event)
    (hchained : ∀ i < events.length, ChainedAt rt config events i)
    (hchained' : ∀ i < events'.length, ChainedAt rt config' events' i)
    (hlast : previousHash config events events.length =
      previousHash config' events' events'.length) :
    List.Forall₂ SameRow (chainRows rt config events) (chainRows rt config' events') := by
  obtain ⟨hlinked, hhash⟩ := linked_of_chained hchained
  obtain ⟨hlinked', hhash'⟩ := linked_of_chained hchained'
  rw [← hseed] at hlinked' hhash'
  rw [hhash, hhash'] at hlast
  have hsame := ChainView.forall₂_of_linked (S := SameRow) ?_ (fun x y h => h.2.1) hlinked hlinked'
    (by rw [length_chainRows, length_chainRows, hlength]) (Option.some.inj hlast)
  · exact hsame.imp fun _ _ h => h.2
  intro x hx y hy hseq hdigest
  refine sameRow_of_text (isJsonText_chainRows hvalues x hx) (isJsonText_chainRows hvalues' y hy)
    ?_ (hinj hdigest)
  by_cases hfirst : (chainView rt).seq x = 0
  · refine .inl ?_
    have hprev := ChainView.prev_of_first hlinked hx hfirst
    have hprev' := ChainView.prev_of_first hlinked' hy (hseq ▸ hfirst)
    exact hprev.trans hprev'.symm
  · refine .inr ?_
    obtain ⟨x', _, hprev⟩ := ChainView.digest_of_linked hlinked hx hfirst
    obtain ⟨y', _, hprev'⟩ := ChainView.digest_of_linked hlinked' hy (hseq ▸ hfirst)
    rw [show x.prev = rt.sha256Hex x'.text from hprev, show y.prev = rt.sha256Hex y'.text from hprev']
    exact ⟨separator_not_mem_sha hsha _, separator_not_mem_sha hsha _⟩

theorem getElem?_chainRows {fields : List (String × Json)} (h : events[i]? = some (.obj fields)) :
    (chainRows rt config events)[i]? = some (rowOf rt config (.obj fields, i)) := by
  unfold chainRows
  rw [List.getElem?_map, List.getElem?_zipIdx, h, Nat.zero_add]
  rfl

/-- The events at one place have one token and one canonical payload. -/
structure SameEvents (rt : AuditRuntime) (config config' : VerifyConfig)
    (events events' : List Json) : Prop where
  same : ∀ i fields fields', events[i]? = some (.obj fields) → events'[i]? = some (.obj fields') →
    seqToken rt config i fields = seqToken rt config' i fields' ∧
      scrubEvent rt config fields = scrubEvent rt config' fields' ∧
      scrubbed config fields = scrubbed config' fields'

theorem sameEvents_of_rows (hvalues : ∀ event ∈ events, Json.IsValue event)
    (hvalues' : ∀ event ∈ events', Json.IsValue event)
    (h : List.Forall₂ SameRow (chainRows rt config events) (chainRows rt config' events')) :
    SameEvents rt config config' events events' := by
  constructor
  intro i fields fields' hfields hfields'
  have hget : (chainRows rt config events)[i]? = some _ := getElem?_chainRows hfields
  have hget' : (chainRows rt config' events')[i]? = some _ := getElem?_chainRows hfields'
  obtain ⟨hi, hrow⟩ := List.getElem?_eq_some_iff.mp hget
  obtain ⟨hi', hrow'⟩ := List.getElem?_eq_some_iff.mp hget'
  have hsame := (List.forall₂_iff_get.mp h).2 i hi hi'
  rw [List.get_eq_getElem, List.get_eq_getElem, hrow, hrow'] at hsame
  obtain ⟨htoken, _, hpayload⟩ := hsame
  have hscrub : scrubEvent rt config fields = scrubEvent rt config' fields' := hpayload
  refine ⟨htoken, hscrub, ?_⟩
  have hvalue := hvalues _ (List.mem_of_getElem? hfields)
  have hvalue' := hvalues' _ (List.mem_of_getElem? hfields')
  exact Json.write_injective (isValue_scrubbed hvalue) (isValue_scrubbed hvalue')
    (String.ofList_injective hscrub)

/-! ## Ids -/

theorem filter_insertField {keep : String × Json → Bool} {key : String}
    (h : ∀ value, keep (key, value) = false) (value : Json) (fields : List (String × Json)) :
    (Json.insertField key value fields).filter keep = fields.filter keep := by
  induction fields with
  | nil => simp [Json.insertField, h value]
  | cons field fields ih =>
    obtain ⟨k, v⟩ := field
    by_cases hk : k = key
    · rw [Json.insertField, if_pos (beq_iff_eq.mpr hk), hk,
        List.filter_cons_of_neg (Bool.eq_false_iff.mp (h value)),
        List.filter_cons_of_neg (Bool.eq_false_iff.mp (h v))]
    · rw [Json.insertField, if_neg (mt beq_iff_eq.mp hk), List.filter_cons, List.filter_cons, ih]

/-- The payload has no ids. -/
theorem scrubEvent_id {key : String} (h : key = "id" ∨ key = "event_id") (value : Json)
    (fields : List (String × Json)) :
    scrubEvent rt config (Json.insertField key value fields) = scrubEvent rt config fields := by
  have hkey : isScrubbed config key = true := by
    unfold isScrubbed
    rcases h with rfl | rfl <;> simp
  unfold scrubEvent scrubbed
  rw [filter_insertField fun value => by simp [hkey]]

/-! ## The verdict -/

/-- The verdict on a list of events. -/
structure Judged (rt : AuditRuntime) (config : VerifyConfig) (events : List Json) : Prop where
  valid : (verifyChain rt events config).2.2 = true ↔
    ∀ i < events.length, ChainedAt rt config events i
  invalid : (verifyChain rt events config).2.2 = false →
    ∃ first rest, (verifyChain rt events config).2.1 = first :: rest ∧
      first.index < events.length ∧ ¬ ChainedAt rt config events first.index ∧
      ∀ j < first.index, ChainedAt rt config events j

theorem judged (hsha : HexText rt.sha256Hex) (hseed : config.seed ≠ "") (events : List Json) :
    Judged rt config events where
  valid := by
    rw [← issues_verifyEvents hsha hseed]
    exact List.isEmpty_iff
  invalid := by
    intro h
    have hne : (verifyEvents rt config events).issues ≠ [] := by
      intro hnil
      have hvalid : (verifyChain rt events config).2.2 = true := List.isEmpty_iff.mpr hnil
      rw [hvalid] at h
      cases h
    obtain ⟨first, rest, hissues⟩ := List.exists_cons_of_ne_nil hne
    exact ⟨first, rest, hissues, first_issue hsha hseed hissues⟩

/-- Two accepted lists of one length, from one seed and with one last hash. -/
structure AcceptedAlike (rt : AuditRuntime) (config config' : VerifyConfig)
    (events events' : List Json) : Prop where
  values : ∀ event ∈ events, Json.IsValue event
  values' : ∀ event ∈ events', Json.IsValue event
  seed : config.seed = config'.seed
  length : events.length = events'.length
  accepted : (verifyChain rt events config).2.2 = true
  accepted' : (verifyChain rt events' config').2.2 = true
  lastHash : previousHash config events events.length =
    previousHash config' events' events'.length

theorem verifyChain_evident (rt : AuditRuntime) (hsha : HexText rt.sha256Hex) {input input' : Json}
    {config config' : VerifyConfig} (hconfig : parseConfig rt.floats input = .ok config)
    (hconfig' : parseConfig rt.floats input' = .ok config') (events events' : List Json) :
    Judged rt config events ∧
      (Function.Injective rt.sha256Hex → AcceptedAlike rt config config' events events' →
        SameEvents rt config config' events events') ∧
      ∀ key, key = "id" ∨ key = "event_id" → ∀ value fields,
        scrubEvent rt config (Json.insertField key value fields) = scrubEvent rt config fields := by
  have hjudged := judged hsha (seed_ne_empty hconfig) events
  have hjudged' := judged hsha (seed_ne_empty hconfig') events'
  refine ⟨hjudged, ?_, fun key hkey value fields => scrubEvent_id hkey value fields⟩
  intro hinj halike
  exact sameEvents_of_rows halike.values halike.values' (forall₂_sameRow hsha hinj halike.seed
    halike.length halike.values halike.values' (hjudged.valid.mp halike.accepted)
    (hjudged'.valid.mp halike.accepted') halike.lastHash)

/-! ## Two events under other ids -/

def loginText : String := "1|GENESIS|\x7b\"data\":\"login\"\x7d"

def loginHash : String := "3a867e399f045712d5de0ce06d64a22775925874ab3569010f51ad4934e42bf3"

/-- The text of the next event, which names the hash before it. -/
def logoutText : String :=
  "2|3a867e399f045712d5de0ce06d64a22775925874ab3569010f51ad4934e42bf3|\x7b\"data\":\"logout\"\x7d"

def logoutHash : String := "25fc997096399235a7d1d61d131bf42436ddc9802e31d6d2e8d3e1147e259ebb"

/-- Each character as often as its number says. -/
def tally (cs : List Char) : List Char := cs.flatMap fun c => List.replicate c.toNat 'a' ++ ['b']

theorem tally_injective : Function.Injective tally := by
  intro cs
  induction cs with
  | nil =>
    intro ds h
    cases ds with
    | nil => rfl
    | cons d ds => simp [tally] at h
  | cons c cs ih =>
    intro ds h
    cases ds with
    | nil => simp [tally] at h
    | cons d ds =>
      have hplain : ∀ n, 'b' ∉ List.replicate n 'a' := by simp
      simp only [tally, List.flatMap_cons, List.append_assoc, List.singleton_append] at h
      obtain ⟨hcount, hrest⟩ := split_of_not_mem (hplain _) (hplain _) h
      have hcd : c.toNat = d.toNat := by simpa using congrArg List.length hcount
      rw [ih hrest, Char.toNat_inj.mp hcd]

theorem tallied_injective : Function.Injective fun text : String =>
    String.ofList ('c' :: tally text.toList) := by
  intro s t h
  exact String.toList_inj.mp (tally_injective (List.cons.inj (String.ofList_injective h)).2)

def loginTable : List (String × String) := [(loginText, loginHash), (logoutText, logoutHash)]

/-- The hashes of the two events, and tallies elsewhere. -/
def loginSha : String → String :=
  tabled loginTable fun text => String.ofList ('c' :: tally text.toList)

theorem loginSha_injective : Function.Injective loginSha := by
  refine tabled_injective (by decide) tallied_injective fun entry hentry text => ?_
  have hhead : ∀ entry ∈ loginTable, entry.2.toList.head? ≠ some 'c' := by decide
  exact ne_ofList_cons (hhead entry hentry) _

theorem hexText_loginSha : HexText loginSha where
  digits := by
    refine tabled_prop (P := fun hash : String => ∀ c ∈ hash.toList,
      c ∈ "0123456789abcdef".toList) ?_ fun text c hc => ?_
    · have hall : (loginTable.all fun entry => entry.2.toList.all fun c =>
          "0123456789abcdef".toList.contains c) = true := by decide +kernel
      intro entry hentry c hc
      exact List.contains_iff_mem.mp
        (List.all_eq_true.mp (List.all_eq_true.mp hall entry hentry) c hc)
    · have hletters : c = 'c' ∨ c = 'a' ∨ c = 'b' := by
        rw [String.toList_ofList] at hc
        simp only [tally, List.mem_cons, List.mem_flatMap, List.mem_append, List.mem_replicate,
          List.not_mem_nil, or_false] at hc
        rcases hc with hc | ⟨_, _, ⟨_, hc⟩ | hc⟩
        · exact .inl hc
        · exact .inr (.inl hc)
        · exact .inr (.inr hc)
      rcases hletters with rfl | rfl | rfl <;> decide
  nonempty := by
    refine tabled_prop (P := fun hash : String => hash ≠ "") (by decide) fun text h => ?_
    have hlist := congrArg String.toList h
    rw [String.toList_ofList] at hlist
    cases hlist

def loginRuntime : AuditRuntime := ⟨bitText, loginSha⟩

def loginConfig : VerifyConfig := ⟨"GENESIS", "tamper_chain_seq", "tamper_prev_hash", "tamper_hash"⟩

def loginEvent (id : String) : List (String × Json) :=
  [("data", .str "login"), ("id", .str id), ("tamper_chain_seq", .str "1"),
    ("tamper_hash", .str loginHash), ("tamper_prev_hash", .str "GENESIS")]

def logoutEvent (id : String) : List (String × Json) :=
  [("data", .str "logout"), ("id", .str id), ("tamper_chain_seq", .str "2"),
    ("tamper_hash", .str logoutHash), ("tamper_prev_hash", .str loginHash)]

def session (first second : String) : List Json :=
  [.obj (loginEvent first), .obj (logoutEvent second)]

theorem isValue_session (first second : String) : ∀ event ∈ session first second, event.IsValue := by
  have hkeys : ["data", "id", "tamper_chain_seq", "tamper_hash", "tamper_prev_hash"].Nodup := by
    decide
  simp only [session, List.forall_mem_cons]
  refine ⟨.obj hkeys ?_, .obj hkeys ?_, fun event h => absurd h List.not_mem_nil⟩
  · simp only [loginEvent, List.forall_mem_cons]
    exact ⟨.str _, .str _, .str _, .str _, .str _, fun field h => absurd h List.not_mem_nil⟩
  · simp only [logoutEvent, List.forall_mem_cons]
    exact ⟨.str _, .str _, .str _, .str _, .str _, fun field h => absurd h List.not_mem_nil⟩

theorem login_alike : AcceptedAlike loginRuntime loginConfig loginConfig
    (session "evt-1" "evt-2") (session "evt-8" "evt-9") where
  values := isValue_session _ _
  values' := isValue_session _ _
  seed := rfl
  length := rfl
  accepted := by decide +kernel
  accepted' := by decide +kernel
  lastHash := by decide +kernel

theorem login_evident : SameEvents loginRuntime loginConfig loginConfig
    (session "evt-1" "evt-2") (session "evt-8" "evt-9") := by
  have hconfig : parseConfig loginRuntime.floats (.obj [("events", .arr [])]) =
      .ok loginConfig := by rfl
  exact (verifyChain_evident loginRuntime hexText_loginSha hconfig hconfig
    (session "evt-1" "evt-2") (session "evt-8" "evt-9")).2.1 loginSha_injective login_alike

end AuditChain
end Skill
end SecureAgnt

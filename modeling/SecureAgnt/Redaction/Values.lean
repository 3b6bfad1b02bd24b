/-
What redaction leaves, and what a second redaction does.

No string of a redacted value has a key of sixteen or more characters, and outside the
entries with a sensitive name nothing but strings has changed.  A second redaction
changes nothing where the first met no bearer marker: the bracket that closes the
replacement ends a token, so behind a marker each redaction leaves one more bracket.
-/
import SecureAgnt.Redaction.Scan

namespace SecureAgnt
namespace Redaction

/-! ## Up to the first replacement -/

theorem redacted_eq : redacted.toList = '[' :: "REDACTED]".toList := rfl

theorem prefix_append_cases {α : Type} {x u v : List α} (h : x <+: u ++ v) :
    x <+: u ∨ ∃ y, x = u ++ y ∧ y <+: v := by
  rcases Nat.le_total x.length u.length with hle | hle
  · exact .inl (List.prefix_of_prefix_length_le h (List.prefix_append u v) hle)
  · obtain ⟨y, rfl⟩ := List.prefix_of_prefix_length_le (List.prefix_append u v) h hle
    exact .inr ⟨y, rfl, (List.prefix_append_right_inj u).mp h⟩

/-- What the scan for keys starts with was there before, up to a bracket. -/
theorem prefix_of_redactNsec {cs : List Char} :
    ∀ {x : List Char}, '[' ∉ x → x <+: redactNsec cs → x <+: cs := by
  induction cs using nsec_induction with
  | nil => exact fun _ h => h
  | found cs h ih =>
    intro x hx hlead
    by_cases hlong : 16 ≤ (nsecBody cs).length
    · rw [redactNsec_long h hlong, redacted_eq] at hlead
      cases x with
      | nil => exact List.nil_prefix
      | cons c x =>
        have hc : c = '[' := (List.cons_prefix_cons.mp hlead).1
        exact absurd List.mem_cons_self (hc ▸ hx)
    · rw [redactNsec_short h hlong] at hlead
      rw [← nsec_split h]
      rcases prefix_append_cases hlead with hin | ⟨y, rfl, hy⟩
      · exact hin.trans (List.prefix_append _ _)
      · have hmem : '[' ∉ y := fun hmem => hx (List.mem_append_right _ hmem)
        exact (List.prefix_append_right_inj _).mpr (ih hmem hy)
  | pass c cs h ih =>
    intro x hx hlead
    rw [redactNsec_pass h] at hlead
    cases x with
    | nil => exact List.nil_prefix
    | cons d x =>
      obtain ⟨rfl, hrest⟩ := List.cons_prefix_cons.mp hlead
      have hmem : '[' ∉ x := fun hmem => hx (List.mem_cons_of_mem d hmem)
      exact List.cons_prefix_cons.mpr ⟨rfl, ih hmem hrest⟩

/-- What the scan for bearer tokens starts with was there before, up to a bracket. -/
theorem prefix_of_redactBearer {cs : List Char} :
    ∀ {x : List Char}, '[' ∉ x → x <+: redactBearer cs → x <+: cs := by
  induction cs using bearer_induction with
  | nil => exact fun _ h => h
  | found cs h ih =>
    intro x hx hlead
    rw [redactBearer_found h, List.append_assoc, redacted_eq] at hlead
    rcases prefix_append_cases hlead with hin | ⟨y, rfl, hy⟩
    · exact hin.trans (List.take_prefix _ _)
    · cases y with
      | nil =>
        rw [List.append_nil]
        exact List.take_prefix _ _
      | cons c y =>
        have hc : c = '[' := (List.cons_prefix_cons.mp hy).1
        exact absurd (List.mem_append_right _ (hc ▸ List.mem_cons_self)) hx
  | pass c cs h ih =>
    intro x hx hlead
    rw [redactBearer_pass h] at hlead
    cases x with
    | nil => exact List.nil_prefix
    | cons d x =>
      obtain ⟨rfl, hrest⟩ := List.cons_prefix_cons.mp hlead
      have hmem : '[' ∉ x := fun hmem => hx (List.mem_cons_of_mem d hmem)
      exact List.cons_prefix_cons.mpr ⟨rfl, ih hmem hrest⟩

/-! ## No key is left -/

/-- `nsec1` and sixteen characters of a token. -/
structure IsLongNsec (x : List Char) : Prop where
  starts : nsecStart <+: x
  token : ∀ c ∈ x, isTokenChar c = true
  length : x.length = 21

def HasNsec (cs : List Char) : Prop := ∃ x, IsLongNsec x ∧ x <:+: cs

theorem HasNsec.mono {cs ds : List Char} (h : HasNsec cs) (hsub : cs <:+: ds) : HasNsec ds := by
  obtain ⟨x, hx, hin⟩ := h
  exact ⟨x, hx, hin.trans hsub⟩

theorem hasNsec_cons {c : Char} {cs : List Char} (h : HasNsec (c :: cs)) :
    (∃ x, IsLongNsec x ∧ x <+: c :: cs) ∨ HasNsec cs := by
  obtain ⟨x, hx, hin⟩ := h
  rcases List.infix_cons_iff.mp hin with hlead | hrest
  · exact .inl ⟨x, hx, hlead⟩
  · exact .inr ⟨x, hx, hrest⟩

theorem not_hasNsec_nil : ¬ HasNsec [] := by
  intro h
  obtain ⟨x, hx, hin⟩ := h
  have hlength := hx.length
  rw [List.infix_nil.mp hin] at hlength
  cases hlength

theorem IsLongNsec.head {c : Char} {x cs : List Char} (hx : IsLongNsec x) (h : x <+: c :: cs) :
    c = 'n' := by
  obtain ⟨y, rfl⟩ := hx.starts
  exact (List.cons_prefix_cons.mp h).1.symm

/-- A key does not begin in characters other than `n`. -/
theorem hasNsec_of_append {u v : List Char} (hu : 'n' ∉ u) (h : HasNsec (u ++ v)) : HasNsec v := by
  induction u with
  | nil => exact h
  | cons c u ih =>
    rcases hasNsec_cons h with ⟨x, hx, hlead⟩ | hrest
    · exact absurd (hx.head hlead ▸ List.mem_cons_self) hu
    · exact ih (fun hmem => hu (List.mem_cons_of_mem c hmem)) hrest

/-- The text is over or the next character is not of a token. -/
def EndsToken (cs : List Char) : Prop := ∀ c rest, cs = c :: rest → isTokenChar c = false

/-- A key does not begin in a token that is too short for it. -/
theorem hasNsec_of_short {u v : List Char} (hlength : u.length < 21) (hv : EndsToken v)
    (h : HasNsec (u ++ v)) : HasNsec v := by
  induction u with
  | nil => exact h
  | cons c u ih =>
    rcases hasNsec_cons h with ⟨x, hx, hlead⟩ | hrest
    · -- the key would reach behind the token
      exfalso
      rcases prefix_append_cases (u := c :: u) hlead with hin | ⟨y, rfl, hy⟩
      · have hle := hin.length_le
        have hx' := hx.length
        omega
      · have hx' := hx.length
        rw [List.length_append] at hx'
        cases y with
        | nil =>
          rw [List.length_nil] at hx'
          omega
        | cons d y =>
          obtain ⟨rest, hrest⟩ := hy
          have htoken := hx.token d (List.mem_append_right _ List.mem_cons_self)
          rw [hv d (y ++ rest) hrest.symm] at htoken
          cases htoken
    · rw [List.length_cons] at hlength
      exact ih (by omega) hrest

theorem endsToken_nsecRest (cs : List Char) : EndsToken (nsecRest cs) := by
  intro c rest h
  exact Bool.eq_false_iff.mpr fun hc => by
    have hhead := List.head?_dropWhile_not isTokenChar (cs.drop nsecStart.length)
    unfold nsecRest at h
    rw [h] at hhead
    simp [hc] at hhead

theorem endsToken_redactNsec {cs : List Char} (h : EndsToken cs) : EndsToken (redactNsec cs) := by
  cases cs with
  | nil => exact fun _ _ hnil => nomatch hnil
  | cons c cs =>
    have hc := h c cs rfl
    have hstart : ¬ nsecStart <+: c :: cs := by
      intro hlead
      obtain rfl : 'n' = c := (List.cons_prefix_cons.mp hlead).1
      exact absurd hc (by decide)
    rw [redactNsec_pass hstart]
    intro d rest hd
    cases hd
    exact hc

theorem not_hasNsec_redactNsec (cs : List Char) : ¬ HasNsec (redactNsec cs) := by
  induction cs using nsec_induction with
  | nil => exact not_hasNsec_nil
  | found cs h ih =>
    by_cases hlong : 16 ≤ (nsecBody cs).length
    · rw [redactNsec_long h hlong]
      exact fun hnsec => ih (hasNsec_of_append (by decide) hnsec)
    · rw [redactNsec_short h hlong]
      intro hnsec
      refine ih (hasNsec_of_short ?_ (endsToken_redactNsec (endsToken_nsecRest cs)) hnsec)
      have hstart : nsecStart.length = 5 := rfl
      rw [List.length_append]
      omega
  | pass c cs h ih =>
    rw [redactNsec_pass h]
    intro hnsec
    rcases hasNsec_cons hnsec with ⟨x, hx, hlead⟩ | hrest
    · -- the scan would have stopped here
      obtain ⟨y, rfl⟩ := hx.starts
      apply h
      have hstart : nsecStart <+: c :: redactNsec cs := (List.prefix_append _ _).trans hlead
      rw [← redactNsec_pass h] at hstart
      exact prefix_of_redactNsec (by decide) hstart
    · exact ih hrest

theorem bearerRest_suffix (cs : List Char) : bearerRest cs <:+ cs :=
  (List.dropWhile_suffix _).trans (List.drop_suffix _ _)

/-- The marker has no `n`. -/
theorem n_not_mem_marker {cs : List Char} (h : StartsBearer cs) :
    'n' ∉ cs.take bearerMarker.length := by
  intro hmem
  have hlower : (cs.take bearerMarker.length).map Text.asciiLower = bearerMarker := by
    rw [List.map_take]
    exact (List.prefix_iff_eq_take.mp h).symm
  have hmem' : Text.asciiLower 'n' ∈ bearerMarker := hlower ▸ List.mem_map_of_mem hmem
  exact absurd hmem' (by decide)

theorem not_hasNsec_redactBearer {cs : List Char} : ¬ HasNsec cs → ¬ HasNsec (redactBearer cs) := by
  induction cs using bearer_induction with
  | nil => exact id
  | found cs h ih =>
    intro hclean hnsec
    rw [redactBearer_found h, List.append_assoc] at hnsec
    have hrest := hasNsec_of_append (u := redacted.toList) (by decide)
      (hasNsec_of_append (n_not_mem_marker h) hnsec)
    exact ih (fun hn => hclean (hn.mono (bearerRest_suffix cs).isInfix)) hrest
  | pass c cs h ih =>
    intro hclean hnsec
    have hcs : ¬ HasNsec cs := fun hn => hclean (hn.mono (List.suffix_cons c cs).isInfix)
    rw [redactBearer_pass h] at hnsec
    rcases hasNsec_cons hnsec with ⟨x, hx, hlead⟩ | hrest
    · have hbracket : '[' ∉ x := fun hmem => by
        cases hx.token '[' hmem
      rw [← redactBearer_pass h] at hlead
      exact hclean ⟨x, hx, (prefix_of_redactBearer hbracket hlead).isInfix⟩
    · exact ih hcs hrest

theorem redactText_eq (text : String) :
    (redactText text).toList = redactBearer (redactNsec text.toList) := by
  rw [redactText, redactBearerTokens, redactPrefixedToken, String.toList_ofList,
    String.toList_ofList]
  rfl

theorem not_hasNsec_redactText (text : String) : ¬ HasNsec (redactText text).toList := by
  rw [redactText_eq]
  exact not_hasNsec_redactBearer (not_hasNsec_redactNsec _)

/-! ## A second redaction of a text -/

theorem redactNsec_clean {cs : List Char} : ¬ HasNsec cs → redactNsec cs = cs := by
  induction cs using nsec_induction with
  | nil => exact fun _ => redactNsec_nil
  | found cs h ih =>
    intro hclean
    have hshort : ¬ 16 ≤ (nsecBody cs).length := by
      intro hlong
      refine hclean ⟨nsecStart ++ (nsecBody cs).take 16, ⟨List.prefix_append _ _, ?_, ?_⟩, ?_⟩
      · intro c hc
        rcases List.mem_append.mp hc with hc | hc
        · exact nsecStart_token c hc
        · exact List.mem_takeWhile_imp (List.mem_of_mem_take hc)
      · have hstart : nsecStart.length = 5 := rfl
        rw [List.length_append, List.length_take]
        omega
      · have hlead : nsecStart ++ (nsecBody cs).take 16 <+: nsecStart ++ nsecBody cs :=
          (List.prefix_append_right_inj _).mpr (List.take_prefix _ _)
        exact (hlead.trans ⟨nsecRest cs, nsec_split h⟩).isInfix
    have hsuffix : nsecRest cs <:+ cs := (List.dropWhile_suffix _).trans (List.drop_suffix _ _)
    rw [redactNsec_short h hshort, ih fun hn => hclean (hn.mono hsuffix.isInfix), nsec_split h]
  | pass c cs h ih =>
    intro hclean
    rw [redactNsec_pass h, ih fun hn => hclean (hn.mono (List.suffix_cons c cs).isInfix)]

/-- The text has a bearer marker, in any letter case. -/
def HasBearer (cs : List Char) : Prop := bearerMarker <:+: cs.map Text.asciiLower

theorem hasBearer_cons {c : Char} {cs : List Char} (h : ¬ StartsBearer (c :: cs)) :
    HasBearer (c :: cs) ↔ HasBearer cs := by
  unfold HasBearer
  rw [List.map_cons, List.infix_cons_iff]
  exact or_iff_right h

theorem StartsBearer.hasBearer {cs : List Char} (h : StartsBearer cs) : HasBearer cs := h.isInfix

theorem redactBearer_clean {cs : List Char} : ¬ HasBearer cs → redactBearer cs = cs := by
  induction cs using bearer_induction with
  | nil => exact fun _ => redactBearer_nil
  | found cs h ih => exact fun hclean => absurd h.hasBearer hclean
  | pass c cs h ih =>
    intro hclean
    rw [hasBearer_cons h] at hclean
    rw [redactBearer_pass h, ih hclean]

theorem hasBearer_redactBearer {cs : List Char} : HasBearer cs → HasBearer (redactBearer cs) := by
  induction cs using bearer_induction with
  | nil => exact id
  | found cs h ih =>
    intro _
    have hlower : (cs.take bearerMarker.length).map Text.asciiLower = bearerMarker := by
      rw [List.map_take]
      exact (List.prefix_iff_eq_take.mp h).symm
    unfold HasBearer
    rw [redactBearer_found h, List.append_assoc, List.map_append, hlower]
    exact (List.prefix_append _ _).isInfix
  | pass c cs h ih =>
    intro hhas
    rw [redactBearer_pass h]
    exact (ih ((hasBearer_cons h).mp hhas)).trans (List.suffix_cons _ _).isInfix

/-- No scan puts a bracket before a text without changing it. -/
theorem ne_bracket_cons (cs : List Char) : cs ≠ ']' :: redactBearer cs := by
  induction cs with
  | nil => exact fun h => nomatch h
  | cons c cs ih =>
    intro h
    obtain ⟨rfl, hcs⟩ := List.cons.inj h
    have hpass : ¬ StartsBearer (']' :: cs) := by
      intro hstart
      exact absurd (List.cons_prefix_cons.mp hstart).1 (by decide)
    rw [redactBearer_pass hpass] at hcs
    exact ih hcs

theorem redactBearer_ne {cs : List Char} : HasBearer cs → redactBearer cs ≠ cs := by
  induction cs using bearer_induction with
  | nil => exact fun h => absurd (List.infix_nil.mp h) (by decide)
  | found cs h ih =>
    intro _ heq
    rw [redactBearer_found h, List.append_assoc] at heq
    have hdrop : redacted.toList ++ redactBearer (bearerRest cs) = cs.drop bearerMarker.length :=
      List.append_cancel_left (heq.trans (List.take_append_drop bearerMarker.length cs).symm)
    -- the token ends at the bracket of the replacement
    have hrest : bearerRest cs = ']' :: redactBearer (bearerRest cs) := by
      conv => lhs; rw [bearerRest, ← hdrop]
      rfl
    exact ne_bracket_cons _ hrest
  | pass c cs h ih =>
    intro hhas heq
    rw [redactBearer_pass h] at heq
    exact ih ((hasBearer_cons h).mp hhas) (List.cons.inj heq).2

/-- The text has a bearer marker that the scan for keys leaves. -/
def Marked (text : String) : Prop := HasBearer (redactPrefixedToken text "nsec1").toList

theorem redactPrefixedToken_eq (text : String) :
    (redactPrefixedToken text "nsec1").toList = redactNsec text.toList := by
  rw [redactPrefixedToken, String.toList_ofList]
  rfl

theorem redactText_twice (text : String) :
    redactText (redactText text) = redactText text ↔ ¬ Marked text := by
  have hclean := redactNsec_clean (not_hasNsec_redactText text)
  rw [← String.toList_inj, redactText_eq (redactText text), hclean, Marked, redactPrefixedToken_eq]
  constructor
  · intro heq hmarked
    rw [redactText_eq] at heq
    exact redactBearer_ne (hasBearer_redactBearer hmarked) heq
  · intro hmarked
    rw [redactText_eq, redactBearer_clean hmarked, redactBearer_clean hmarked]

/-! ## Values -/

mutual

/-- The strings among the values, at any depth. -/
def stringValues : Json → List String
  | .str text => [text]
  | .arr items => stringItems items
  | .obj fields => stringFields fields
  | .null => []
  | .bool _ => []
  | .num _ => []

def stringItems : List Json → List String
  | [] => []
  | item :: items => stringValues item ++ stringItems items

def stringFields : List (String × Json) → List String
  | [] => []
  | (_, value) :: fields => stringValues value ++ stringFields fields

end

mutual

/-- The entries of the objects in a value, at any depth. -/
def entries : Json → List (String × Json)
  | .arr items => entriesItems items
  | .obj fields => entriesFields fields
  | .str _ => []
  | .null => []
  | .bool _ => []
  | .num _ => []

def entriesItems : List Json → List (String × Json)
  | [] => []
  | item :: items => entries item ++ entriesItems items

def entriesFields : List (String × Json) → List (String × Json)
  | [] => []
  | (key, value) :: fields => (key, value) :: entries value ++ entriesFields fields

end

/-- A pattern occurs in the name, whatever its letter case. -/
def SensitiveName (key : String) : Prop :=
  ∃ pattern ∈ sensitiveKeyPatterns, pattern.toList <:+: key.toList.map Text.asciiLower

mutual

/-- The values differ only in the text of their strings and in the entries with a
sensitive name. -/
def SameShape : Json → Json → Prop
  | .null, .null => True
  | .bool a, .bool b => a = b
  | .num m, .num n => m = n
  | .str _, .str _ => True
  | .arr xs, .arr ys => SameItems xs ys
  | .obj fs, .obj gs => SameFields fs gs
  | _, _ => False

def SameItems : List Json → List Json → Prop
  | [], [] => True
  | x :: xs, y :: ys => SameShape x y ∧ SameItems xs ys
  | _, _ => False

def SameFields : List (String × Json) → List (String × Json) → Prop
  | [], [] => True
  | (k, x) :: fs, (l, y) :: gs => k = l ∧ (SensitiveName k ∨ SameShape x y) ∧ SameFields fs gs
  | _, _ => False

end

theorem contains_iff {s part : String} :
    Text.contains s part = true ↔ part.toList <:+: s.toList := by
  rw [Text.contains, List.any_eq_true]
  constructor
  · intro h
    obtain ⟨t, ht, hlead⟩ := h
    exact (List.isPrefixOf_iff_prefix.mp hlead).isInfix.trans ((List.mem_tails _ _).mp ht).isInfix
  · intro h
    obtain ⟨before, after, heq⟩ := h
    have htail : part.toList ++ after <:+ s.toList := ⟨before, by rw [← heq, List.append_assoc]⟩
    exact ⟨_, (List.mem_tails _ _).mpr htail,
      List.isPrefixOf_iff_prefix.mpr (List.prefix_append _ _)⟩

theorem isSensitiveKey_iff {key : String} : isSensitiveKey key = true ↔ SensitiveName key := by
  simp only [isSensitiveKey, List.any_eq_true, contains_iff, Text.toAsciiLowercase,
    String.toList_ofList, SensitiveName]

mutual

theorem sameShape_redactJson : (v : Json) → SameShape v (redactJson v)
  | .null => trivial
  | .bool _ => rfl
  | .num _ => rfl
  | .str _ => trivial
  | .arr items => sameItems_redactItems items
  | .obj fields => sameFields_redactFields fields

theorem sameItems_redactItems : (items : List Json) → SameItems items (redactItems items)
  | [] => trivial
  | item :: items => ⟨sameShape_redactJson item, sameItems_redactItems items⟩

theorem sameFields_redactFields :
    (fields : List (String × Json)) → SameFields fields (redactFields fields)
  | [] => trivial
  | (key, value) :: fields => by
    refine ⟨rfl, ?_, sameFields_redactFields fields⟩
    by_cases hkey : isSensitiveKey key = true
    · exact .inl (isSensitiveKey_iff.mp hkey)
    · rw [if_neg hkey]
      exact .inr (sameShape_redactJson value)

end

mutual

theorem redactJson_entries : (v : Json) → ∀ entry ∈ entries (redactJson v),
    isSensitiveKey entry.1 = true → entry.2 = .str redacted
  | .null => nofun
  | .bool _ => nofun
  | .num _ => nofun
  | .str _ => nofun
  | .arr items => redactItems_entries items
  | .obj fields => redactFields_entries fields

theorem redactItems_entries : (items : List Json) → ∀ entry ∈ entriesItems (redactItems items),
    isSensitiveKey entry.1 = true → entry.2 = .str redacted
  | [] => nofun
  | item :: items => by
    intro entry hentry
    rcases List.mem_append.mp hentry with hentry | hentry
    · exact redactJson_entries item entry hentry
    · exact redactItems_entries items entry hentry

theorem redactFields_entries : (fields : List (String × Json)) →
    ∀ entry ∈ entriesFields (redactFields fields),
      isSensitiveKey entry.1 = true → entry.2 = .str redacted
  | [] => nofun
  | (key, value) :: fields => by
    intro entry hentry hsensitive
    rcases List.mem_append.mp hentry with hentry | hentry
    · rcases List.mem_cons.mp hentry with rfl | hentry
      · exact if_pos hsensitive
      · by_cases hkey : isSensitiveKey key = true
        · rw [if_pos hkey] at hentry
          cases hentry
        · rw [if_neg hkey] at hentry
          exact redactJson_entries value entry hentry hsensitive
    · exact redactFields_entries fields entry hentry hsensitive

end

/-- `nsec1` and at least sixteen lower-case letters or digits. -/
def ContainsNsec (text : String) : Prop :=
  ∃ body, 16 ≤ body.length ∧ (∀ c ∈ body, isTokenChar c = true) ∧
    "nsec1".toList ++ body <:+: text.toList

theorem ContainsNsec.hasNsec {text : String} (h : ContainsNsec text) : HasNsec text.toList := by
  obtain ⟨body, hlength, htoken, hin⟩ := h
  refine ⟨nsecStart ++ body.take 16, ⟨List.prefix_append _ _, ?_, ?_⟩, ?_⟩
  · intro c hc
    rcases List.mem_append.mp hc with hc | hc
    · exact nsecStart_token c hc
    · exact htoken c (List.mem_of_mem_take hc)
  · have hstart : nsecStart.length = 5 := rfl
    rw [List.length_append, List.length_take]
    omega
  · have hlead : nsecStart ++ body.take 16 <+: nsecStart ++ body :=
      (List.prefix_append_right_inj _).mpr (List.take_prefix _ _)
    exact hlead.isInfix.trans hin

mutual

theorem redactJson_strings : (v : Json) → ∀ text ∈ stringValues (redactJson v), ¬ ContainsNsec text
  | .null => nofun
  | .bool _ => nofun
  | .num _ => nofun
  | .str text => by
    intro t ht h
    rw [List.mem_singleton.mp ht] at h
    exact not_hasNsec_redactText text h.hasNsec
  | .arr items => redactItems_strings items
  | .obj fields => redactFields_strings fields

theorem redactItems_strings : (items : List Json) →
    ∀ text ∈ stringItems (redactItems items), ¬ ContainsNsec text
  | [] => nofun
  | item :: items => by
    intro text htext
    rcases List.mem_append.mp htext with htext | htext
    · exact redactJson_strings item text htext
    · exact redactItems_strings items text htext

theorem redactFields_strings : (fields : List (String × Json)) →
    ∀ text ∈ stringFields (redactFields fields), ¬ ContainsNsec text
  | [] => nofun
  | (key, value) :: fields => by
    intro text htext
    rcases List.mem_append.mp htext with htext | htext
    · by_cases hkey : isSensitiveKey key = true
      · rw [if_pos hkey] at htext
        rw [List.mem_singleton.mp htext]
        intro h
        have hlength := h.hasNsec
        obtain ⟨x, hx, hin⟩ := hlength
        have hle := hin.length_le
        rw [hx.length] at hle
        exact absurd hle (by decide)
      · rw [if_neg hkey] at htext
        exact redactJson_strings value text htext
    · exact redactFields_strings fields text htext

end

theorem redactMemoryContent_applied (contentJson : Json) (summaryText : Option String) :
    (redactMemoryContent contentJson summaryText).2.2 = true ↔
      redactJson contentJson ≠ contentJson ∨ summaryText.map redactText ≠ summaryText := by
  cases summaryText with
  | none => simp [redactMemoryContent]
  | some text =>
    have hcomm : text ≠ redactText text ↔ redactText text ≠ text := ne_comm
    simp [redactMemoryContent, hcomm]

/-- Redaction keeps the shape of a value, puts the same text under every sensitive name
and leaves no key in a string; the flag of a memory record says whether it changed. -/
theorem redaction_sound :
    (∀ v, SameShape v (redactJson v) ∧
      (∀ entry ∈ entries (redactJson v), SensitiveName entry.1 → entry.2 = .str "[REDACTED]") ∧
      ∀ text ∈ stringValues (redactJson v), ¬ ContainsNsec text) ∧
    ∀ contentJson summaryText,
      (redactMemoryContent contentJson summaryText).2.2 = true ↔
        (redactMemoryContent contentJson summaryText).1 ≠ contentJson ∨
          (redactMemoryContent contentJson summaryText).2.1 ≠ summaryText := by
  constructor
  · intro v
    refine ⟨sameShape_redactJson v, ?_, redactJson_strings v⟩
    intro entry hentry hname
    exact redactJson_entries v entry hentry (isSensitiveKey_iff.mpr hname)
  · exact redactMemoryContent_applied

/-! ## A second redaction of a value -/

mutual

/-- The strings among the values, outside the entries with a sensitive name. -/
def plainStrings : Json → List String
  | .str text => [text]
  | .arr items => plainItems items
  | .obj fields => plainFields fields
  | .null => []
  | .bool _ => []
  | .num _ => []

def plainItems : List Json → List String
  | [] => []
  | item :: items => plainStrings item ++ plainItems items

def plainFields : List (String × Json) → List String
  | [] => []
  | (key, value) :: fields =>
    (if isSensitiveKey key then [] else plainStrings value) ++ plainFields fields

end

mutual

theorem redactJson_twice : (v : Json) → (redactJson (redactJson v) = redactJson v ↔
    ∀ text ∈ plainStrings v, ¬ Marked text)
  | .null => iff_of_true rfl nofun
  | .bool _ => iff_of_true rfl nofun
  | .num _ => iff_of_true rfl nofun
  | .str text => by
    simp only [redactJson, Json.str.injEq, redactText_twice, plainStrings, List.mem_singleton,
      forall_eq]
  | .arr items => by
    simp only [redactJson, Json.arr.injEq, plainStrings]
    exact redactItems_twice items
  | .obj fields => by
    simp only [redactJson, Json.obj.injEq, plainStrings]
    exact redactFields_twice fields

theorem redactItems_twice : (items : List Json) →
    (redactItems (redactItems items) = redactItems items ↔
      ∀ text ∈ plainItems items, ¬ Marked text)
  | [] => iff_of_true rfl nofun
  | item :: items => by
    simp only [redactItems, List.cons.injEq, redactJson_twice item, redactItems_twice items,
      plainItems, List.forall_mem_append]

theorem redactFields_twice : (fields : List (String × Json)) →
    (redactFields (redactFields fields) = redactFields fields ↔
      ∀ text ∈ plainFields fields, ¬ Marked text)
  | [] => iff_of_true rfl nofun
  | (key, value) :: fields => by
    by_cases hkey : isSensitiveKey key = true
    · simp only [redactFields, List.cons.injEq, redactFields_twice fields, plainFields, if_pos hkey,
        true_and, List.nil_append]
    · simp only [redactFields, List.cons.injEq, redactFields_twice fields, plainFields, if_neg hkey,
        Prod.mk.injEq, true_and, redactJson_twice value, List.forall_mem_append]

end

/-- A text, a value or a memory record that is redacted twice is stored as if redacted
once exactly if the scan for keys leaves no bearer marker in its strings. -/
theorem redaction_idempotent_iff (text : String) (v contentJson : Json)
    (summaryText : Option String) :
    (redactText (redactText text) = redactText text ↔ ¬ Marked text) ∧
    (redactJson (redactJson v) = redactJson v ↔ ∀ text ∈ plainStrings v, ¬ Marked text) ∧
    ((redactMemoryContent (redactMemoryContent contentJson summaryText).1
      (redactMemoryContent contentJson summaryText).2.1).2.2 = false ↔
        (∀ text ∈ plainStrings contentJson, ¬ Marked text) ∧
          ∀ text ∈ summaryText, ¬ Marked text) := by
  refine ⟨redactText_twice text, redactJson_twice v, ?_⟩
  rw [← Bool.not_eq_true, redactMemoryContent_applied, not_or, not_not, not_not]
  show redactJson (redactJson contentJson) = redactJson contentJson ∧
    (summaryText.map redactText).map redactText = summaryText.map redactText ↔ _
  rw [redactJson_twice]
  cases summaryText with
  | none => simp
  | some text => simp [redactText_twice]

theorem bearer_redacted_twice :
    redactText (redactText "Bearer abc") ≠ redactText "Bearer abc" := by
  decide +kernel

end Redaction
end SecureAgnt

/-
What of a bearer token survives redaction.

A text is cut before a marker, behind the white space that follows it, and behind the
token.  The scan for keys works on the pieces one by one, and so does the scan for
bearer tokens, unless a marker spans a cut or a token is open there.  The token goes if
the marker is found and one space follows it; otherwise it stays as the scan for keys
leaves it.
-/
import SecureAgnt.Redaction.Values

namespace SecureAgnt
namespace Redaction

/-! ## Pieces for the scan for keys -/

theorem takeWhile_append_endsToken {u v : List Char} (hv : EndsToken v) :
    (u ++ v).takeWhile isTokenChar = u.takeWhile isTokenChar ∧
      (u ++ v).dropWhile isTokenChar = u.dropWhile isTokenChar ++ v := by
  induction u with
  | nil =>
    cases v with
    | nil => exact ⟨rfl, rfl⟩
    | cons c v =>
      have hc := hv c v rfl
      simp [hc]
  | cons c u ih =>
    by_cases hc : isTokenChar c = true
    · simp [hc, ih.1, ih.2]
    · simp [hc]

theorem redactNsec_append {u v : List Char} (hv : EndsToken v) :
    redactNsec (u ++ v) = redactNsec u ++ redactNsec v := by
  induction u using nsec_induction with
  | nil => rfl
  | found u h ih =>
    have hstart : nsecStart <+: u ++ v := h.trans (List.prefix_append u v)
    have hdrop : (u ++ v).drop nsecStart.length = u.drop nsecStart.length ++ v :=
      List.drop_append_of_le_length h.length_le
    have hbody : nsecBody (u ++ v) = nsecBody u := by
      unfold nsecBody
      rw [hdrop]
      exact (takeWhile_append_endsToken hv).1
    have hrest : nsecRest (u ++ v) = nsecRest u ++ v := by
      unfold nsecRest
      rw [hdrop]
      exact (takeWhile_append_endsToken hv).2
    by_cases hlong : 16 ≤ (nsecBody u).length
    · rw [redactNsec_long hstart (hbody ▸ hlong), redactNsec_long h hlong, hrest, ih,
        List.append_assoc]
    · rw [redactNsec_short hstart (hbody ▸ hlong), redactNsec_short h hlong, hbody, hrest, ih]
      simp only [List.append_assoc]
  | pass c u h ih =>
    have hstart : ¬ nsecStart <+: c :: (u ++ v) := by
      intro hfront
      rcases prefix_append_cases (u := c :: u) hfront with hin | ⟨y, heq, hy⟩
      · exact h hin
      · cases y with
        | nil => exact h ⟨[], by rw [heq, List.append_nil, List.append_nil]⟩
        | cons d y =>
          obtain ⟨rest, hrest⟩ := hy
          have hmem : d ∈ nsecStart := heq ▸ List.mem_append_right _ List.mem_cons_self
          have htoken := nsecStart_token d hmem
          rw [hv d (y ++ rest) hrest.symm] at htoken
          cases htoken
    rw [List.cons_append, redactNsec_pass hstart, redactNsec_pass h, ih, List.cons_append]

theorem redactNsec_copy {u : List Char} (hu : 'n' ∉ u) (v : List Char) :
    redactNsec (u ++ v) = u ++ redactNsec v := by
  induction u with
  | nil => rfl
  | cons c u ih =>
    have hstart : ¬ nsecStart <+: c :: (u ++ v) := by
      intro hfront
      obtain rfl : 'n' = c := (List.cons_prefix_cons.mp hfront).1
      exact hu List.mem_cons_self
    rw [List.cons_append, redactNsec_pass hstart, ih fun hmem => hu (List.mem_cons_of_mem c hmem),
      List.cons_append]

theorem mem_redactNsec {c : Char} {cs : List Char} :
    c ∈ redactNsec cs → c ∈ cs ∨ c ∈ redacted.toList := by
  induction cs using nsec_induction with
  | nil => exact .inl
  | found cs h ih =>
    intro hc
    have hrest : c ∈ nsecRest cs → c ∈ cs := fun hmem => by
      rw [← nsec_split h]
      exact List.mem_append_right _ hmem
    by_cases hlong : 16 ≤ (nsecBody cs).length
    · rw [redactNsec_long h hlong] at hc
      rcases List.mem_append.mp hc with hc | hc
      · exact .inr hc
      · exact (ih hc).imp hrest id
    · rw [redactNsec_short h hlong] at hc
      rcases List.mem_append.mp hc with hc | hc
      · refine .inl ?_
        rw [← nsec_split h]
        exact List.mem_append_left _ hc
      · exact (ih hc).imp hrest id
  | pass d cs h ih =>
    intro hc
    rw [redactNsec_pass h] at hc
    rcases List.mem_cons.mp hc with rfl | hc
    · exact .inl List.mem_cons_self
    · exact (ih hc).imp (List.mem_cons_of_mem d) id

/-! ## Pieces for the scan for bearer tokens -/

/-- The scan is inside a token when the text ends. -/
inductive OpenToken : List Char → Prop
  | here {cs : List Char} (h : StartsBearer cs) (hrest : bearerRest cs = []) : OpenToken cs
  | behind {cs : List Char} (h : StartsBearer cs) (hrest : OpenToken (bearerRest cs)) : OpenToken cs
  | pass {c : Char} {cs : List Char} (h : ¬ StartsBearer (c :: cs)) (hrest : OpenToken cs) :
      OpenToken (c :: cs)

theorem not_openToken_nil : ¬ OpenToken [] := by
  intro h
  cases h with
  | here h _ => exact absurd (List.prefix_nil.mp h) (by decide)
  | behind h _ => exact absurd (List.prefix_nil.mp h) (by decide)

theorem openToken_found {cs : List Char} (h : StartsBearer cs) (hrest : bearerRest cs ≠ []) :
    OpenToken cs ↔ OpenToken (bearerRest cs) := by
  constructor
  · intro hopen
    cases hopen with
    | here _ hnil => exact absurd hnil hrest
    | behind _ hbehind => exact hbehind
    | pass hno _ => exact absurd h hno
  · exact .behind h

theorem openToken_pass {c : Char} {cs : List Char} (h : ¬ StartsBearer (c :: cs)) :
    OpenToken (c :: cs) ↔ OpenToken cs := by
  constructor
  · intro hopen
    cases hopen with
    | here hyes _ => exact absurd hyes h
    | behind hyes _ => exact absurd hyes h
    | pass _ hrest => exact hrest
  · exact .pass h

/-- No marker begins in `u` and ends in `v`. -/
def NoSpan (u v : List Char) : Prop :=
  ∀ x, x ≠ [] → x <:+ u → StartsBearer (x ++ v) → StartsBearer x

theorem NoSpan.mono {u u' v : List Char} (h : NoSpan u v) (hsub : u' <:+ u) : NoSpan u' v :=
  fun x hx hsuffix => h x hx (hsuffix.trans hsub)

/-- A marker that goes on behind `x` has the next character behind its first. -/
theorem noSpan_of_head {u v : List Char} {c : Char} (hc : Text.asciiLower c ∉ "earer ".toList) :
    NoSpan u (c :: v) := by
  intro x hx _ hstart
  unfold StartsBearer at hstart ⊢
  rw [List.map_append] at hstart
  rcases prefix_append_cases hstart with hin | ⟨y, heq, hy⟩
  · exact hin
  · cases y with
    | nil => exact ⟨[], by rw [heq, List.append_nil, List.append_nil]⟩
    | cons d y =>
      obtain ⟨a, x, rfl⟩ := List.exists_cons_of_ne_nil hx
      obtain rfl : d = Text.asciiLower c := (List.cons_prefix_cons.mp hy).1
      have htail : "earer ".toList = x.map Text.asciiLower ++ Text.asciiLower c :: y :=
        (List.cons.inj heq).2
      rw [htail] at hc
      exact absurd (List.mem_append_right _ List.mem_cons_self) hc

/-- A marker that began before the last character of `u` has it before its end. -/
theorem noSpan_of_last {u v : List Char} {c : Char} (hc : Text.asciiLower c ∉ "bearer".toList) :
    NoSpan (u ++ [c]) v := by
  intro x hx hsuffix hstart
  unfold StartsBearer at hstart ⊢
  rw [List.map_append] at hstart
  rcases prefix_append_cases hstart with hin | ⟨y, heq, hy⟩
  · exact hin
  · rcases List.eq_nil_or_concat y with rfl | ⟨y', d, rfl⟩
    · exact ⟨[], by rw [heq, List.append_nil, List.append_nil]⟩
    · have hlast : c ∈ x := by
        obtain ⟨z, hz⟩ := hsuffix
        rcases List.eq_nil_or_concat x with rfl | ⟨x', e, rfl⟩
        · exact absurd rfl hx
        · rw [List.concat_eq_append, ← List.append_assoc] at hz
          obtain ⟨_, he⟩ := List.append_inj' hz rfl
          rw [List.concat_eq_append, (List.cons.inj he).1]
          exact List.mem_append_right _ List.mem_cons_self
      have hmarker : "bearer".toList ++ [' '] = x.map Text.asciiLower ++ y' ++ [d] := by
        rw [List.append_assoc, ← List.concat_eq_append (a := d)]
        exact heq
      obtain ⟨hword, _⟩ := List.append_inj' hmarker rfl
      rw [hword] at hc
      exact absurd (List.mem_append_left _ (List.mem_map_of_mem hlast)) hc

/-- The scan goes on with the next piece, or with what an open token leaves of it. -/
theorem redactBearer_append {u v : List Char} (hspan : NoSpan u v) :
    (¬ OpenToken u → redactBearer (u ++ v) = redactBearer u ++ redactBearer v) ∧
      (OpenToken u → redactBearer (u ++ v) =
        redactBearer u ++ redactBearer (v.dropWhile fun c => !isTerminator c)) := by
  induction u using bearer_induction with
  | nil => exact ⟨fun _ => rfl, fun h => absurd h not_openToken_nil⟩
  | found u h ih =>
    have hstart : StartsBearer (u ++ v) := by
      unfold StartsBearer
      rw [List.map_append]
      exact h.trans (List.prefix_append _ _)
    have hlength : bearerMarker.length ≤ u.length := by
      have hle := h.length_le
      rwa [List.length_map] at hle
    have htake : (u ++ v).take bearerMarker.length = u.take bearerMarker.length :=
      List.take_append_of_le_length hlength
    have hdrop : (u ++ v).drop bearerMarker.length = u.drop bearerMarker.length ++ v :=
      List.drop_append_of_le_length hlength
    rw [redactBearer_found hstart, redactBearer_found h, htake]
    by_cases hnil : bearerRest u = []
    · have hrest : bearerRest (u ++ v) = v.dropWhile fun c => !isTerminator c := by
        rw [bearerRest, hdrop, List.dropWhile_append]
        exact if_pos (List.isEmpty_iff.mpr hnil)
      refine ⟨fun hno => absurd (.here h hnil) hno, fun _ => ?_⟩
      rw [hrest, hnil, redactBearer_nil, List.append_nil]
    · have hrest : bearerRest (u ++ v) = bearerRest u ++ v := by
        rw [bearerRest, hdrop, List.dropWhile_append]
        exact if_neg (fun hempty => hnil (List.isEmpty_iff.mp hempty))
      obtain ⟨hclosed, hopen⟩ := ih (hspan.mono (bearerRest_suffix u))
      rw [openToken_found h hnil, hrest]
      constructor
      · intro hno
        rw [hclosed hno, ← List.append_assoc]
      · intro hyes
        rw [hopen hyes, ← List.append_assoc]
  | pass c u h ih =>
    have hstart : ¬ StartsBearer (c :: (u ++ v)) := fun hstart =>
      h (hspan (c :: u) (List.cons_ne_nil c u) (List.suffix_refl _) hstart)
    obtain ⟨hclosed, hopen⟩ := ih (hspan.mono (List.suffix_cons c u))
    rw [openToken_pass h, List.cons_append, redactBearer_pass hstart, redactBearer_pass h]
    constructor
    · intro hno
      rw [hclosed hno, List.cons_append]
    · intro hyes
      rw [hopen hyes, List.cons_append]

/-! ## Terminators -/

def terminators : List Char :=
  [' ', '\t', '\n', Char.ofNat 12, '\r', '"', Char.ofNat 39, ',', ';', ')', ']']

theorem mem_terminators {c : Char} (h : isTerminator c = true) : c ∈ terminators := by
  have hofNat : ∀ n, c.toNat = n → c = Char.ofNat n := by
    intro n hn
    rw [← hn, Char.ofNat_toNat]
  simp only [isTerminator, Bool.or_eq_true, decide_eq_true_eq] at h
  simp only [terminators, List.mem_cons, List.not_mem_nil, or_false]
  rcases h with (((((((((h | h) | h) | h) | h) | h) | h) | h) | h) | h) | h <;>
    first | simp [h] | simp [hofNat _ h]

theorem terminator_not_mem {c : Char} (h : isTerminator c = true) :
    Text.asciiLower c ∉ "bearer".toList := by
  have hall : (terminators.all fun c => Text.asciiLower c ∉ "bearer".toList) = true := by decide
  exact of_decide_eq_true (List.all_eq_true.mp hall c (mem_terminators h))

theorem terminator_not_mem_tail {c : Char} (h : isTerminator c = true) (hspace : c ≠ ' ') :
    Text.asciiLower c ∉ "earer ".toList := by
  have hall : (terminators.all fun c => c = ' ' ∨ Text.asciiLower c ∉ "earer ".toList) = true := by
    decide
  have hor := of_decide_eq_true (List.all_eq_true.mp hall c (mem_terminators h))
  exact hor.resolve_left hspace

theorem terminator_not_tokenChar {c : Char} (h : isTerminator c = true) : isTokenChar c = false := by
  have hall : (terminators.all fun c => isTokenChar c = false) = true := by decide
  exact of_decide_eq_true (List.all_eq_true.mp hall c (mem_terminators h))

theorem not_startsBearer_terminator {c : Char} {cs : List Char} (h : isTerminator c = true) :
    ¬ StartsBearer (c :: cs) := by
  intro hstart
  have hc : 'b' = Text.asciiLower c := (List.cons_prefix_cons.mp hstart).1
  have hnot := terminator_not_mem h
  rw [← hc] at hnot
  exact absurd hnot (by decide)

/-- The text is over or a terminator follows. -/
def EndsBearer (cs : List Char) : Prop := ∀ c rest, cs = c :: rest → isTerminator c = true

/-- A terminator ends a token, and the scan goes on behind it. -/
theorem redactBearer_terminated {u v : List Char} {c : Char} (hc : isTerminator c = true)
    (hspan : NoSpan u (c :: v)) :
    redactBearer (u ++ c :: v) = redactBearer u ++ c :: redactBearer v := by
  have hpass : redactBearer (c :: v) = c :: redactBearer v :=
    redactBearer_pass (not_startsBearer_terminator hc)
  obtain ⟨hclosed, hopen⟩ := redactBearer_append hspan
  by_cases h : OpenToken u
  · rw [hopen h, List.dropWhile_cons_of_neg (by simp [hc]), hpass]
  · rw [hclosed h, hpass]

/-! ## A marker -/

section Marker

variable {before word : List Char}

theorem noSpan_marker (hword : word.map Text.asciiLower = "bearer".toList) (v : List Char) :
    NoSpan before (word ++ v) := by
  cases word with
  | nil => cases hword
  | cons c word =>
    have hc : Text.asciiLower c = 'b' := (List.cons.inj hword).1
    exact noSpan_of_head (by rw [hc]; decide)

/-- A marker that the scan reaches hides what follows its space. -/
theorem redactBearer_marker (hword : word.map Text.asciiLower = "bearer".toList)
    (hclosed : ¬ OpenToken before) (v : List Char) :
    redactBearer (before ++ word ++ ' ' :: v) = redactBearer before ++ word ++ ' ' ::
      (redacted.toList ++ redactBearer (v.dropWhile fun c => !isTerminator c)) := by
  have hlength : word.length = 6 := by
    have hlength := congrArg List.length hword
    rwa [List.length_map] at hlength
  have hstart : StartsBearer (word ++ ' ' :: v) := by
    refine ⟨v.map Text.asciiLower, ?_⟩
    rw [List.map_append, List.map_cons, hword]
    rfl
  have hmarker : bearerMarker.length = (word ++ [' ']).length := by
    rw [List.length_append, hlength]
    rfl
  have hsplit : word ++ ' ' :: v = (word ++ [' ']) ++ v := by
    rw [List.append_assoc]
    rfl
  have hrest : bearerRest (word ++ ' ' :: v) = v.dropWhile fun c => !isTerminator c := by
    rw [bearerRest, hsplit, hmarker, List.drop_left]
  rw [List.append_assoc, (redactBearer_append (noSpan_marker hword _)).1 hclosed,
    redactBearer_found hstart, hrest, hsplit, hmarker, List.take_left]
  simp only [List.append_assoc, List.cons_append, List.nil_append]

/-- In an open token a marker is nothing but a part of it. -/
theorem redactBearer_in_token (hword : word.map Text.asciiLower = "bearer".toList)
    (hopen : OpenToken before) (v : List Char) :
    redactBearer (before ++ word ++ ' ' :: v) = redactBearer before ++ ' ' :: redactBearer v := by
  have hletters : ∀ c ∈ word, (!isTerminator c) = true := by
    intro c hc
    have hlower : Text.asciiLower c ∈ "bearer".toList := hword ▸ List.mem_map_of_mem hc
    rw [Bool.not_eq_true', Bool.eq_false_iff]
    exact fun hterminator => terminator_not_mem hterminator hlower
  have hdrop : (word ++ ' ' :: v).dropWhile (fun c => !isTerminator c) = ' ' :: v := by
    rw [List.dropWhile_append_of_pos hletters]
    rfl
  rw [List.append_assoc, (redactBearer_append (noSpan_marker hword _)).2 hopen, hdrop,
    redactBearer_pass (not_startsBearer_terminator (by decide))]

end Marker

/-- The text ends in a marker word that is not part of an open token. -/
def EndsInMarker (cs : List Char) : Prop :=
  ∃ before word, cs = before ++ word ∧ word.map Text.asciiLower = "bearer".toList ∧
    ¬ OpenToken before

/-- One space behind a text that ends in no marker word is no end of a marker. -/
theorem noSpan_space {u v : List Char}
    (h : ∀ before word, u = before ++ word → word.map Text.asciiLower ≠ "bearer".toList) :
    NoSpan u (' ' :: v) := by
  intro x hx hsuffix hstart
  unfold StartsBearer at hstart ⊢
  rw [List.map_append] at hstart
  rcases prefix_append_cases hstart with hin | ⟨y, heq, hy⟩
  · exact hin
  · cases y with
    | nil => exact ⟨[], by rw [heq, List.append_nil, List.append_nil]⟩
    | cons d y =>
      exfalso
      obtain rfl : d = ' ' := (List.cons_prefix_cons.mp hy).1
      obtain ⟨before, hbefore⟩ := hsuffix
      rcases List.eq_nil_or_concat y with rfl | ⟨y', e, rfl⟩
      · have hmarker : "bearer".toList ++ [' '] = x.map Text.asciiLower ++ [' '] := heq
        exact h before x hbefore.symm (List.append_inj' hmarker rfl).1.symm
      · have hmarker : "bearer".toList ++ [' '] = (x.map Text.asciiLower ++ ' ' :: y') ++ [e] := by
          rw [List.append_assoc, List.cons_append, ← List.concat_eq_append (a := e)]
          exact heq
        have hmem : ' ' ∈ "bearer".toList := by
          rw [(List.append_inj' hmarker rfl).1]
          exact List.mem_append_right _ List.mem_cons_self
        exact absurd hmem (by decide)

/-- White space that does not complete a marker brings the scan out of every token. -/
theorem redactBearer_blank {u w : List Char} (hw : w ≠ [])
    (hblank : ∀ c ∈ w, isTerminator c = true) (hnot : ¬ (w = [' '] ∧ EndsInMarker u)) :
    ∃ shown, ∀ v, redactBearer (u ++ w ++ v) = shown ++ redactBearer v := by
  rcases List.eq_nil_or_concat w with rfl | ⟨w', d, rfl⟩
  · exact absurd rfl hw
  rw [List.concat_eq_append] at hblank hnot ⊢
  have hd : isTerminator d = true := hblank d (List.mem_append_right _ List.mem_cons_self)
  have hassoc : ∀ v, u ++ (w' ++ [d]) ++ v = (u ++ w') ++ d :: v := by
    intro v
    simp only [List.append_assoc, List.cons_append, List.nil_append]
  have hshown : (∀ v, NoSpan (u ++ w') (d :: v)) →
      ∃ shown, ∀ v, redactBearer (u ++ (w' ++ [d]) ++ v) = shown ++ redactBearer v := by
    intro hspan
    refine ⟨redactBearer (u ++ w') ++ [d], fun v => ?_⟩
    rw [hassoc, redactBearer_terminated hd (hspan v), List.append_assoc]
    rfl
  rcases List.eq_nil_or_concat w' with rfl | ⟨w'', e, rfl⟩
  · rw [List.nil_append] at hnot
    simp only [List.append_nil] at hshown
    by_cases hspace : d = ' '
    · subst hspace
      by_cases hword : ∃ before word, u = before ++ word ∧
          word.map Text.asciiLower = "bearer".toList
      · obtain ⟨before, word, rfl, hlower⟩ := hword
        have hopen : OpenToken before := by
          by_contra hclosed
          exact hnot ⟨rfl, before, word, rfl, hlower, hclosed⟩
        refine ⟨redactBearer before ++ [' '], fun v => ?_⟩
        rw [hassoc, List.append_nil, redactBearer_in_token hlower hopen, List.append_assoc]
        rfl
      · exact hshown fun v => noSpan_space fun before word heq hlower =>
          hword ⟨before, word, heq, hlower⟩
    · exact hshown fun v => noSpan_of_head (terminator_not_mem_tail hd hspace)
  · have he : isTerminator e = true := by
      refine hblank e (List.mem_append_left _ ?_)
      rw [List.concat_eq_append]
      exact List.mem_append_right _ List.mem_cons_self
    refine hshown fun v => ?_
    rw [List.concat_eq_append, ← List.append_assoc]
    exact noSpan_of_last (terminator_not_mem he)

/-! ## What is left of a token -/

theorem space_of_lower {c : Char} (h : Text.asciiLower c = ' ') : c = ' ' := by
  unfold Text.asciiLower at h
  split at h
  · rename_i hupper
    simp only [Bool.and_eq_true, decide_eq_true_eq] at hupper
    have hletter : ∀ n < 91, 65 ≤ n → Char.ofNat (n + 32) ≠ ' ' := by decide
    exact absurd h (hletter c.toNat (by omega) hupper.1)
  · exact h

/-- A marker has a space. -/
theorem not_hasBearer {cs : List Char} (h : ' ' ∉ cs) : ¬ HasBearer cs := by
  intro hhas
  have hmem : ' ' ∈ cs.map Text.asciiLower := hhas.subset (by decide)
  obtain ⟨c, hc, hlower⟩ := List.mem_map.mp hmem
  exact h (space_of_lower hlower ▸ hc)

theorem OpenToken.hasBearer {cs : List Char} (h : OpenToken cs) : HasBearer cs := by
  induction h with
  | here h _ => exact StartsBearer.hasBearer h
  | behind h _ _ => exact StartsBearer.hasBearer h
  | pass h _ ih => exact (hasBearer_cons h).mpr ih

/-- A text without spaces shows in front of a space. -/
theorem exists_redactBearer_space {u : List Char} (hu : ' ' ∉ u) (v : List Char) :
    ∃ rest, redactBearer (u ++ ' ' :: v) = u ++ ' ' :: rest := by
  by_cases hword : ∃ before word, u = before ++ word ∧ word.map Text.asciiLower = "bearer".toList
  · obtain ⟨before, word, rfl, hlower⟩ := hword
    have hclean : ¬ HasBearer before :=
      not_hasBearer fun hmem => hu (List.mem_append_left _ hmem)
    rw [redactBearer_marker hlower fun hopen => hclean hopen.hasBearer, redactBearer_clean hclean]
    exact ⟨_, rfl⟩
  · have hspan : NoSpan u (' ' :: v) := noSpan_space fun before word heq hlower =>
      hword ⟨before, word, heq, hlower⟩
    rw [redactBearer_terminated (by decide) hspan, redactBearer_clean (not_hasBearer hu)]
    exact ⟨_, rfl⟩

/-- Texts without spaces in front of the same text are shown as they are. -/
theorem redactBearer_cancel {u u' v : List Char} (hu : ' ' ∉ u) (hu' : ' ' ∉ u')
    (hv : EndsBearer v) : redactBearer (u ++ v) = redactBearer (u' ++ v) ↔ u = u' := by
  refine ⟨fun h => ?_, fun h => by rw [h]⟩
  cases v with
  | nil =>
    rw [List.append_nil, List.append_nil, redactBearer_clean (not_hasBearer hu),
      redactBearer_clean (not_hasBearer hu')] at h
    exact h
  | cons c v =>
    have hc := hv c v rfl
    by_cases hspace : c = ' '
    · subst hspace
      obtain ⟨rest, hrest⟩ := exists_redactBearer_space hu v
      obtain ⟨rest', hrest'⟩ := exists_redactBearer_space hu' v
      rw [hrest, hrest'] at h
      have htake := congrArg (List.takeWhile (· != ' ')) h
      have hpos : ∀ u : List Char, ' ' ∉ u → ∀ c ∈ u, (c != ' ') = true := by
        intro u hu c hc
        rw [bne_iff_ne]
        exact fun heq => hu (heq ▸ hc)
      rw [List.takeWhile_append_of_pos (hpos u hu), List.takeWhile_append_of_pos (hpos u' hu'),
        List.takeWhile_cons_of_neg (by decide), List.takeWhile_cons_of_neg (by decide)] at htake
      rwa [List.append_nil, List.append_nil] at htake
    · have hspan : ∀ u, NoSpan u (c :: v) := fun _ =>
        noSpan_of_head (terminator_not_mem_tail hc hspace)
      rw [redactBearer_terminated hc (hspan u), redactBearer_terminated hc (hspan u'),
        redactBearer_clean (not_hasBearer hu), redactBearer_clean (not_hasBearer hu')] at h
      exact List.append_cancel_right h

/-! ## Tokens -/

/-- `u8::is_ascii_whitespace`. -/
def isAsciiWhitespace (c : Char) : Bool :=
  c = ' ' || c = '\t' || c = '\n' || c.toNat = 12 || c = '\r'

theorem terminator_of_isAsciiWhitespace {c : Char} (h : isAsciiWhitespace c = true) :
    isTerminator c = true := by
  simp only [isAsciiWhitespace, Bool.or_eq_true, decide_eq_true_eq] at h
  rcases h with (((rfl | rfl) | rfl) | h) | rfl
  · decide
  · decide
  · decide
  · simp [isTerminator, h]
  · decide

/-- The word before a token in a text, the white space behind it, and the text behind
the token. -/
structure AroundToken (marker blank suffix : String) : Prop where
  marker : marker.toList.map Text.asciiLower = "bearer".toList
  blank_ne : blank.toList ≠ []
  blank : ∀ c ∈ blank.toList, isAsciiWhitespace c = true
  suffix : EndsBearer suffix.toList

structure IsToken (token : String) : Prop where
  nonempty : token.toList ≠ []
  token : ∀ c ∈ token.toList, isTerminator c = false

/-- The scan for keys leaves the marker, and the scan for bearer tokens gets to it. -/
def MarkerFound (start marker : String) : Prop :=
  EndsInMarker (redactPrefixedToken (start ++ marker) "nsec1").toList

/-- A token as the scan for keys leaves it. -/
def shown (token : String) : List Char := (redactPrefixedToken token "nsec1").toList

/-- What stands in it behind the first terminator. -/
def tail (token : String) : List Char := (shown token).dropWhile fun c => !isTerminator c

section Token

variable {start marker blank token suffix : String}

theorem space_not_mem_shown (htoken : IsToken token) : ' ' ∉ shown token := by
  intro hmem
  rw [shown, redactPrefixedToken_eq] at hmem
  rcases mem_redactNsec hmem with hmem | hmem
  · exact absurd (htoken.token ' ' hmem) (by decide)
  · exact absurd hmem (by decide)

/-- The scan for keys works on the pieces of the text. -/
theorem redactNsec_pieces (h : AroundToken marker blank suffix) :
    redactNsec (start ++ marker ++ blank ++ token ++ suffix).toList =
      redactNsec (start ++ marker).toList ++ blank.toList ++
        (redactNsec token.toList ++ redactNsec suffix.toList) := by
  have hterminator : ∀ c ∈ blank.toList, isTerminator c = true :=
    fun c hc => terminator_of_isAsciiWhitespace (h.blank c hc)
  have hblank : EndsToken (blank.toList ++ (token.toList ++ suffix.toList)) := by
    obtain ⟨c, rest, hcons⟩ := List.exists_cons_of_ne_nil h.blank_ne
    intro d rest' hd
    rw [hcons, List.cons_append] at hd
    rw [← (List.cons.inj hd).1]
    exact terminator_not_tokenChar (hterminator c (hcons ▸ List.mem_cons_self))
  have hn : 'n' ∉ blank.toList := fun hmem => absurd (hterminator 'n' hmem) (by decide)
  have hsuffix : EndsToken suffix.toList :=
    fun c rest hc => terminator_not_tokenChar (h.suffix c rest hc)
  have hlist : (start ++ marker ++ blank ++ token ++ suffix).toList =
      (start ++ marker).toList ++ (blank.toList ++ (token.toList ++ suffix.toList)) := by
    simp only [String.toList_append, List.append_assoc]
  rw [hlist, redactNsec_append hblank, redactNsec_copy hn, redactNsec_append hsuffix]
  simp only [List.append_assoc]

theorem endsBearer_redactNsec {cs : List Char} (h : EndsBearer cs) : EndsBearer (redactNsec cs) := by
  cases cs with
  | nil => exact fun _ _ hnil => nomatch hnil
  | cons c cs =>
    have hc := h c cs rfl
    have hn : 'n' ∉ [c] := by
      intro hmem
      rw [← List.mem_singleton.mp hmem] at hc
      exact absurd hc (by decide)
    have hcopy : redactNsec (c :: cs) = c :: redactNsec cs := redactNsec_copy hn cs
    rw [hcopy]
    intro d rest hd
    cases hd
    exact hc

theorem dropWhile_append_endsBearer {u v : List Char} (hv : EndsBearer v) :
    (u ++ v).dropWhile (fun c => !isTerminator c) =
      u.dropWhile (fun c => !isTerminator c) ++ v := by
  rw [List.dropWhile_append]
  split
  · rename_i hempty
    rw [List.isEmpty_iff.mp hempty, List.nil_append]
    cases v with
    | nil => rfl
    | cons c v => exact List.dropWhile_cons_of_neg (by simp [hv c v rfl])
  · rfl

/-- Where the marker is found behind the scan for keys, only the tail of a token shows,
and elsewhere all of it does. -/
theorem redactText_token (h : AroundToken marker blank suffix) :
    (blank = " " ∧ MarkerFound start marker → ∃ before, ∀ token,
      (redactText (start ++ marker ++ blank ++ token ++ suffix)).toList =
        before ++ redactBearer (tail token ++ redactNsec suffix.toList)) ∧
    (¬ (blank = " " ∧ MarkerFound start marker) → ∃ before, ∀ token,
      (redactText (start ++ marker ++ blank ++ token ++ suffix)).toList =
        before ++ redactBearer (shown token ++ redactNsec suffix.toList)) := by
  have htext : ∀ token, (redactText (start ++ marker ++ blank ++ token ++ suffix)).toList =
      redactBearer (redactNsec (start ++ marker).toList ++ blank.toList ++
        (shown token ++ redactNsec suffix.toList)) := by
    intro token
    rw [redactText_eq, redactNsec_pieces h, shown, redactPrefixedToken_eq]
  have hsuffix : EndsBearer (redactNsec suffix.toList) := endsBearer_redactNsec h.suffix
  constructor
  · rintro ⟨rfl, before, word, hsplit, hword, hclosed⟩
    rw [redactPrefixedToken_eq] at hsplit
    refine ⟨redactBearer before ++ word ++ ' ' :: redacted.toList, fun token => ?_⟩
    have hspace : " ".toList = [' '] := rfl
    rw [htext, hsplit, hspace, List.append_assoc, List.singleton_append,
      redactBearer_marker hword hclosed, dropWhile_append_endsBearer hsuffix]
    simp only [tail, List.append_assoc, List.cons_append]
  · intro hnot
    have hblank : ¬ (blank.toList = [' '] ∧ EndsInMarker (redactNsec (start ++ marker).toList)) := by
      rintro ⟨hspace, hends⟩
      refine hnot ⟨String.toList_inj.mp hspace, ?_⟩
      rw [MarkerFound, redactPrefixedToken_eq]
      exact hends
    obtain ⟨before, hbefore⟩ := redactBearer_blank h.blank_ne
      (fun c hc => terminator_of_isAsciiWhitespace (h.blank c hc)) hblank
    exact ⟨before, fun token => by rw [htext, hbefore]⟩

end Token

theorem HasNsec.containsNsec {text : String} (h : HasNsec text.toList) : ContainsNsec text := by
  obtain ⟨x, hx, hin⟩ := h
  obtain ⟨body, rfl⟩ := hx.starts
  refine ⟨body, ?_, fun c hc => hx.token c (List.mem_append_right _ hc), hin⟩
  have hlength := hx.length
  have hstart : nsecStart.length = 5 := rfl
  rw [List.length_append] at hlength
  omega

/-- Without a key in it a token is shown as it is, and has no tail. -/
theorem shown_plain {token : String} (htoken : IsToken token) (hplain : ¬ ContainsNsec token) :
    shown token = token.toList ∧ tail token = [] := by
  have hshown : shown token = token.toList := by
    rw [shown, redactPrefixedToken_eq, redactNsec_clean fun h => hplain h.containsNsec]
  refine ⟨hshown, ?_⟩
  rw [tail, hshown, List.dropWhile_eq_nil_iff]
  intro c hc
  rw [htoken.token c hc]
  rfl

theorem redactText_tokens {start marker blank suffix token token' : String}
    (h : AroundToken marker blank suffix) (htoken : IsToken token) (htoken' : IsToken token') :
    redactText (start ++ marker ++ blank ++ token ++ suffix) =
        redactText (start ++ marker ++ blank ++ token' ++ suffix) ↔
      (blank = " " ∧ MarkerFound start marker ∧ tail token = tail token') ∨
        shown token = shown token' := by
  have hsuffix : EndsBearer (redactNsec suffix.toList) := endsBearer_redactNsec h.suffix
  have htail : ∀ {t}, IsToken t → ' ' ∉ tail t := fun ht hmem =>
    space_not_mem_shown ht ((List.dropWhile_sublist _).subset hmem)
  rw [← String.toList_inj]
  by_cases hfound : blank = " " ∧ MarkerFound start marker
  · obtain ⟨before, hbefore⟩ := (redactText_token h).1 hfound
    rw [hbefore, hbefore, List.append_cancel_left_eq,
      redactBearer_cancel (htail htoken) (htail htoken') hsuffix]
    constructor
    · exact fun heq => .inl ⟨hfound.1, hfound.2, heq⟩
    · intro hor
      rcases hor with ⟨_, _, heq⟩ | heq
      · exact heq
      · rw [tail, tail, heq]
  · obtain ⟨before, hbefore⟩ := (redactText_token h).2 hfound
    rw [hbefore, hbefore, List.append_cancel_left_eq,
      redactBearer_cancel (space_not_mem_shown htoken) (space_not_mem_shown htoken') hsuffix]
    constructor
    · exact .inr
    · intro hor
      rcases hor with ⟨hblank, hmarker, _⟩ | heq
      · exact absurd ⟨hblank, hmarker⟩ hfound
      · exact heq

/-- Two texts that differ in one bearer token are redacted alike exactly if one space
follows the marker, the marker is found, and the tokens have the same tail, or if the
tokens look alike anyway; a token without a key in it has no tail and looks like itself. -/
theorem bearer_hidden_iff (start : String) {marker blank suffix token token' : String}
    (h : AroundToken marker blank suffix) (htoken : IsToken token) (htoken' : IsToken token') :
    (¬ ContainsNsec token → ¬ ContainsNsec token' →
      (redactText (start ++ marker ++ blank ++ token ++ suffix) =
          redactText (start ++ marker ++ blank ++ token' ++ suffix) ↔
        (blank = " " ∧ MarkerFound start marker) ∨ token = token')) ∧
    (redactText (start ++ marker ++ blank ++ token ++ suffix) =
        redactText (start ++ marker ++ blank ++ token' ++ suffix) ↔
      (blank = " " ∧ MarkerFound start marker ∧ tail token = tail token') ∨
        shown token = shown token') := by
  refine ⟨?_, redactText_tokens h htoken htoken'⟩
  intro hplain hplain'
  rw [redactText_tokens h htoken htoken', (shown_plain htoken hplain).1,
    (shown_plain htoken hplain).2, (shown_plain htoken' hplain').1,
    (shown_plain htoken' hplain').2, String.toList_inj]
  simp only [and_true]

theorem blank_of_all {s : String} (h : s.toList.all isAsciiWhitespace = true) :
    ∀ c ∈ s.toList, isAsciiWhitespace c = true := List.all_eq_true.mp h

theorem isToken_of_all {s : String} (hne : s.toList ≠ [])
    (h : (s.toList.all fun c => !isTerminator c) = true) : IsToken s :=
  ⟨hne, fun c hc => by simpa using List.all_eq_true.mp h c hc⟩

theorem around_abc : AroundToken "Bearer" " " "" ∧ IsToken "abc" ∧ IsToken "xyz" :=
  ⟨⟨by decide, by decide, blank_of_all (by decide), nofun⟩,
    isToken_of_all (by decide) (by decide), isToken_of_all (by decide) (by decide)⟩

/-- Behind a marker at the start of a header's value any token is hidden. -/
theorem bearer_hidden_header :
    redactText ("Authorization: " ++ "Bearer" ++ " " ++ "abc" ++ "") =
      redactText ("Authorization: " ++ "Bearer" ++ " " ++ "xyz" ++ "") := by
  have hplain : ∀ token : String, token.toList.length < 21 → ¬ ContainsNsec token := by
    intro token hlength hnsec
    obtain ⟨x, hx, hin⟩ := hnsec.hasNsec
    have hle := hin.length_le
    rw [hx.length] at hle
    omega
  have hbefore : ¬ HasBearer "Authorization: ".toList := by
    unfold HasBearer
    decide
  have hfound : MarkerFound "Authorization: " "Bearer" :=
    ⟨"Authorization: ".toList, "Bearer".toList, by decide +kernel, by decide,
      fun hopen => hbefore hopen.hasBearer⟩
  have hiff := (bearer_hidden_iff "Authorization: " around_abc.1 around_abc.2.1 around_abc.2.2).1
    (hplain _ (by decide)) (hplain _ (by decide))
  exact hiff.mpr (.inl ⟨rfl, hfound⟩)

/-- Behind two spaces a token stays. -/
theorem two_spaces_leak :
    AroundToken "Bearer" "  " "" ∧ IsToken "a" ∧ IsToken "b" ∧
      redactText ("" ++ "Bearer" ++ "  " ++ "a" ++ "") ≠
        redactText ("" ++ "Bearer" ++ "  " ++ "b" ++ "") :=
  ⟨⟨by decide, by decide, blank_of_all (by decide), nofun⟩,
    isToken_of_all (by decide) (by decide), isToken_of_all (by decide) (by decide),
    by decide +kernel⟩

end Redaction
end SecureAgnt

/-
Candidates as lines of `HEARTBEAT.md`.

`compileHeartbeatMarkdown_renders` says that a line written from a candidate is compiled to
the candidate, up to where the line is.  A word is shown with quotes only where it has
white space, and reading what is shown gives the word back.
-/
import SecureAgnt.Api.HeartbeatLines

namespace SecureAgnt
namespace Api

open Integers (parseInt natText)

/-! ## Lines from words -/

def quoted (value : String) : String :=
  if value.toList.any Text.isWhitespace then "\"" ++ value ++ "\"" else value

def joinWords (words : List String) : String :=
  String.ofList (List.intercalate [' '] (words.map String.toList))

def optionWord (shown : String → String) (key value : String) : String :=
  key ++ "=" ++ shown value

def directiveWords (shown : String → String) (candidate : HeartbeatTriggerCandidate) :
    List String :=
  match candidate.kind with
  | .interval => ["every", natText (candidate.intervalSeconds.getD 0).toNat]
  | .cron => ["cron", shown (candidate.cronExpression.getD "")]

def optionWords (shown : String → String) (candidate : HeartbeatTriggerCandidate) : List String :=
  optionWord shown "recipe" candidate.recipeId ::
    (candidate.timezone.map (optionWord shown "timezone")).toList ++
      [optionWord shown "max_inflight" (natText candidate.maxInflightRuns.toNat)]

/-- The words of a candidate, the values shown in some way. -/
def heartbeatWords (shown : String → String) (candidate : HeartbeatTriggerCandidate) :
    List String :=
  directiveWords shown candidate ++ optionWords shown candidate ++
    [optionWord shown "jitter" (natText candidate.jitterSeconds.toNat)]

def renderHeartbeatLine (candidate : HeartbeatTriggerCandidate) : String :=
  joinWords (heartbeatWords quoted candidate)

/-! ## Reading what is shown -/

/-- Outside quotes, the text adds the word to what has been read. -/
def Shows (text word : List Char) : Prop :=
  ∀ out current, text.foldl TokenState.next ⟨out, current, false⟩ = ⟨out, current ++ word, false⟩

variable {text more word : List Char} {value key : String} {words : List String}

theorem Shows.append {word' : List Char} (h : Shows text word) (h' : Shows more word') :
    Shows (text ++ more) (word ++ word') := by
  intro out current
  rw [List.foldl_append, h, h', List.append_assoc]

theorem shows_plain (h : ∀ c ∈ text, Text.isWhitespace c = false ∧ c ≠ '"') : Shows text text := by
  induction text with
  | nil =>
    intro out current
    rw [List.foldl_nil, List.append_nil]
  | cons c cs ih =>
    intro out current
    have hc := h c List.mem_cons_self
    have hnext : TokenState.next ⟨out, current, false⟩ c = ⟨out, current ++ [c], false⟩ := by
      simp [TokenState.next, hc.1, hc.2]
    rw [List.foldl_cons, hnext, ih fun d hd => h d (List.mem_cons_of_mem _ hd), List.append_assoc]
    rfl

theorem foldl_inQuotes (h : '"' ∉ text) (out : List String) (current : List Char) :
    text.foldl TokenState.next ⟨out, current, true⟩ = ⟨out, current ++ text, true⟩ := by
  induction text generalizing current with
  | nil => rw [List.foldl_nil, List.append_nil]
  | cons c cs ih =>
    rw [List.mem_cons, not_or] at h
    have hnext : TokenState.next ⟨out, current, true⟩ c = ⟨out, current ++ [c], true⟩ := by
      simp [TokenState.next, Ne.symm h.1]
    rw [List.foldl_cons, hnext, ih h.2, List.append_assoc]
    rfl

theorem shows_quoted (h : '"' ∉ value.toList) : Shows (quoted value).toList value.toList := by
  unfold quoted
  split
  · intro out current
    have htext : ("\"" ++ value ++ "\"").toList = '"' :: (value.toList ++ ['"']) := by simp
    have hopen : TokenState.next ⟨out, current, false⟩ '"' = ⟨out, current, true⟩ := rfl
    rw [htext, List.foldl_cons, hopen, List.foldl_append, foldl_inQuotes h]
    rfl
  · rename_i hplain
    refine shows_plain ?_
    intro c hc
    rw [Bool.not_eq_true, List.any_eq_false] at hplain
    refine ⟨Bool.eq_false_iff.mpr (hplain c hc), ?_⟩
    intro hquote
    exact h (hquote ▸ hc)

/-! ## Joined words -/

theorem joinWords_cons (first next : String) (rest : List String) :
    (joinWords (first :: next :: rest)).toList =
      first.toList ++ ' ' :: (joinWords (next :: rest)).toList := by
  simp [joinWords, List.intercalate]

theorem joinWords_singleton (first : String) : (joinWords [first]).toList = first.toList := by
  simp [joinWords, List.intercalate]

/-- Words are read one by one. -/
theorem finish_joinWords {shown : List String} (out : List String) (hsome : shown ≠ [])
    (h : List.Forall₂ (fun s w : String => Shows s.toList w.toList ∧ w.toList ≠ []) shown words) :
    ((joinWords shown).toList.foldl TokenState.next ⟨out, [], false⟩).finish = out ++ words := by
  induction h generalizing out with
  | nil => exact absurd rfl hsome
  | @cons s w shown words hfirst hrest ih =>
    cases hrest with
    | nil =>
      rw [joinWords_singleton, hfirst.1]
      simp [TokenState.finish, hfirst.2, String.ofList_toList]
    | @cons s' w' shown words hnext hrest =>
      have hspace : TokenState.next ⟨out, w.toList, false⟩ ' ' = ⟨out ++ [w], [], false⟩ := by
        have hwhite : Text.isWhitespace ' ' = true := by decide
        simp [TokenState.next, hwhite, hfirst.2, String.ofList_toList]
      rw [joinWords_cons, List.foldl_append, hfirst.1, List.foldl_cons, List.nil_append, hspace,
        ih _ (List.cons_ne_nil _ _), List.append_assoc]
      rfl

theorem tokenize_joinWords {shown : List String} (hsome : shown ≠ [])
    (h : List.Forall₂ (fun s w : String => Shows s.toList w.toList ∧ w.toList ≠ []) shown words) :
    tokenizeHeartbeatLine (joinWords shown) = words :=
  finish_joinWords [] hsome h

theorem mem_joinWords {c : Char} (h : c ∈ (joinWords words).toList) :
    c = ' ' ∨ ∃ w ∈ words, c ∈ w.toList := by
  induction words with
  | nil => simp [joinWords, List.intercalate] at h
  | cons first rest ih =>
    cases rest with
    | nil =>
      rw [joinWords_singleton] at h
      exact .inr ⟨first, List.mem_cons_self, h⟩
    | cons next rest =>
      rw [joinWords_cons, List.mem_append, List.mem_cons] at h
      rcases h with h | h | h
      · exact .inr ⟨first, List.mem_cons_self, h⟩
      · exact .inl h
      · rcases ih h with hspace | ⟨w, hw, hc⟩
        · exact .inl hspace
        · exact .inr ⟨w, List.mem_cons_of_mem _ hw, hc⟩

theorem head?_joinWords {first : String} (h : first.toList ≠ []) :
    (joinWords (first :: words)).toList.head? = first.toList.head? := by
  cases words with
  | nil => rw [joinWords_singleton]
  | cons next rest => rw [joinWords_cons, List.head?_append_of_ne_nil _ h]

theorem getLast?_joinWords {last : String} (h : last.toList ≠ []) :
    (joinWords (words ++ [last])).toList.getLast? = last.toList.getLast? := by
  induction words with
  | nil => rw [List.nil_append, joinWords_singleton]
  | cons first rest ih =>
    obtain ⟨next, more, hmore⟩ := List.exists_cons_of_ne_nil (l := rest ++ [last]) (by simp)
    have hne : (joinWords (rest ++ [last])).toList ≠ [] := by
      intro hnil
      rw [hnil] at ih
      exact h (List.getLast?_eq_none_iff.mp ih.symm)
    rw [List.cons_append, hmore, joinWords_cons, ← hmore, List.getLast?_append_cons,
      List.getLast?_cons_of_ne_nil hne, ih]

/-! ## Shown values -/

section Values

variable {candidate : HeartbeatTriggerCandidate} {n : Nat}

theorem isWhitespace_of_isDigit {c : Char} (h : c.isDigit = true) :
    Text.isWhitespace c = false := by
  have hrange : 48 ≤ c.toNat ∧ c.toNat ≤ 57 := by
    simp only [Char.isDigit, Bool.and_eq_true, decide_eq_true_eq] at h
    exact ⟨UInt32.le_iff_toNat_le.mp h.1, UInt32.le_iff_toNat_le.mp h.2⟩
  simp only [Text.isWhitespace, Bool.or_eq_false_iff, Bool.and_eq_false_iff, decide_eq_false_iff_not]
  omega

theorem ne_of_isDigit {c d : Char} (h : c.isDigit = true) (hd : d.isDigit = false) : c ≠ d := by
  intro hcd
  rw [hcd, hd] at h
  cases h

/-- The text of a number has no white space, no quotes and no newline. -/
theorem writable_natText (n : Nat) : Writable (natText n) where
  nonempty := Integers.natText_ne_nil n
  trimmed := by
    have hdigit : ∀ c ∈ (natText n).toList, Text.isWhitespace c = false :=
      fun c hc => isWhitespace_of_isDigit (Integers.isDigit_of_mem_natText hc)
    obtain ⟨c, cs, hcons⟩ := List.exists_cons_of_ne_nil (Integers.natText_ne_nil n)
    have hlast := List.getLast?_eq_some_getLast (Integers.natText_ne_nil n)
    refine Text.trim_eq_self (by rw [hcons]; rfl) hlast (hdigit c ?_) (hdigit _ ?_)
    · rw [hcons]
      exact List.mem_cons_self
    · exact List.getLast_mem _
  plain := by
    have hdigit : ∀ d : Char, d.isDigit = false → d ∉ (natText n).toList :=
      fun d hd hmem => ne_of_isDigit (Integers.isDigit_of_mem_natText hmem) hd rfl
    exact ⟨hdigit _ (by decide), hdigit _ (by decide)⟩

theorem shows_natText (n : Nat) : Shows (natText n).toList (natText n).toList := by
  refine shows_plain ?_
  intro c hc
  have hdigit := Integers.isDigit_of_mem_natText hc
  exact ⟨isWhitespace_of_isDigit hdigit, ne_of_isDigit hdigit (by decide)⟩

theorem toList_optionWord (shown : String → String) (key value : String) :
    (optionWord shown key value).toList = key.toList ++ '=' :: (shown value).toList := by
  simp [optionWord]

/-- The names of the options and of the directives. -/
def heartbeatKeys : List String :=
  ["every", "cron", "recipe", "timezone", "max_inflight", "jitter"]

def isKeyChar (c : Char) : Bool := c.isLower || c = '_'

theorem isKeyChar_of_key (hkey : key ∈ heartbeatKeys) : ∀ c ∈ key.toList, isKeyChar c = true := by
  have hall : (heartbeatKeys.all fun key => key.toList.all isKeyChar) = true := by decide +kernel
  exact List.all_eq_true.mp (List.all_eq_true.mp hall key hkey)

theorem ne_of_isKeyChar {c d : Char} (h : isKeyChar c = true) (hd : isKeyChar d = false) :
    c ≠ d := by
  intro hcd
  rw [hcd, hd] at h
  cases h

theorem isWhitespace_of_isKeyChar {c : Char} (h : isKeyChar c = true) :
    Text.isWhitespace c = false := by
  have hrange : 95 ≤ c.toNat ∧ c.toNat ≤ 122 := by
    simp only [isKeyChar, Bool.or_eq_true, decide_eq_true_eq] at h
    rcases h with h | h
    · have hlower : c.val ≥ 'a'.val ∧ c.val ≤ 'z'.val := by
        simpa only [Bool.and_eq_true, decide_eq_true_eq] using
          (show (decide (c.val ≥ 'a'.val) && decide (c.val ≤ 'z'.val)) = true from h)
      have hlow : 97 ≤ c.toNat := UInt32.le_iff_toNat_le.mp hlower.1
      exact ⟨by omega, UInt32.le_iff_toNat_le.mp hlower.2⟩
    · rw [h]
      decide
  simp only [Text.isWhitespace, Bool.or_eq_false_iff, Bool.and_eq_false_iff, decide_eq_false_iff_not]
  omega

theorem shows_key (hkey : key ∈ heartbeatKeys) : Shows key.toList key.toList := by
  refine shows_plain ?_
  intro c hc
  have hchar := isKeyChar_of_key hkey c hc
  exact ⟨isWhitespace_of_isKeyChar hchar, ne_of_isKeyChar hchar (by decide)⟩

theorem shows_optionWord (hkey : key ∈ heartbeatKeys) (hvalue : Writable value) :
    Shows (optionWord quoted key value).toList (optionWord id key value).toList := by
  have hequals : Shows ['='] ['='] := by
    refine shows_plain ?_
    intro c hc
    rw [List.mem_singleton.mp hc]
    decide
  rw [toList_optionWord, toList_optionWord]
  exact (shows_key hkey).append (hequals.append (shows_quoted hvalue.plain.1))

theorem newline_notMem_quoted (h : Writable value) : '\n' ∉ (quoted value).toList := by
  unfold quoted
  split
  · have htext : ("\"" ++ value ++ "\"").toList = '"' :: (value.toList ++ ['"']) := by simp
    rw [htext]
    simp only [List.mem_cons, List.mem_append, List.not_mem_nil, or_false, not_or]
    exact ⟨by decide, h.plain.2, by decide⟩
  · exact h.plain.2

theorem newline_notMem_optionWord (hkey : key ∈ heartbeatKeys) (hvalue : Writable value) :
    '\n' ∉ (optionWord quoted key value).toList := by
  rw [toList_optionWord]
  simp only [List.mem_append, List.mem_cons, not_or]
  refine ⟨?_, by decide, newline_notMem_quoted hvalue⟩
  intro hmem
  exact ne_of_isKeyChar (isKeyChar_of_key hkey _ hmem) (by decide) rfl

/-! ## Words of a candidate -/

/-- A word of a line and how it is shown. -/
structure ShownWord (shown word : String) : Prop where
  shows : Shows shown.toList word.toList
  nonempty : word.toList ≠ []
  newline : '\n' ∉ shown.toList

theorem shownWord_option (hkey : key ∈ heartbeatKeys) (hvalue : Writable value) :
    ShownWord (optionWord quoted key value) (optionWord id key value) where
  shows := shows_optionWord hkey hvalue
  nonempty := by
    rw [toList_optionWord]
    simp
  newline := newline_notMem_optionWord hkey hvalue

theorem shownWord_key (hkey : key ∈ heartbeatKeys) : ShownWord key key where
  shows := shows_key hkey
  nonempty := by
    have hall : (heartbeatKeys.all fun key => !key.toList.isEmpty) = true := by decide +kernel
    simpa using List.all_eq_true.mp hall key hkey
  newline := fun hmem => ne_of_isKeyChar (isKeyChar_of_key hkey _ hmem) (by decide) rfl

theorem shownWord_natText (n : Nat) : ShownWord (natText n) (natText n) where
  shows := shows_natText n
  nonempty := (writable_natText n).nonempty
  newline := (writable_natText n).plain.2

theorem shownWord_quoted (h : Writable value) : ShownWord (quoted value) value where
  shows := shows_quoted h.plain.1
  nonempty := h.nonempty
  newline := newline_notMem_quoted h

variable {rt : HeartbeatRuntime}

theorem shownWord_directive (h : candidate.Valid rt) :
    List.Forall₂ ShownWord (directiveWords quoted candidate) (directiveWords id candidate) := by
  cases h.scheduled with
  | interval seconds hkind =>
    simp only [directiveWords, hkind]
    exact .cons (shownWord_key (by simp [heartbeatKeys])) (.cons (shownWord_natText _) .nil)
  | cron expression timezone hkind hseconds hcron hexpression =>
    simp only [directiveWords, hkind, hcron, Option.getD_some]
    exact .cons (shownWord_key (by simp [heartbeatKeys])) (.cons (shownWord_quoted hexpression) .nil)

theorem shownWord_options (h : candidate.Valid rt) :
    List.Forall₂ ShownWord (optionWords quoted candidate) (optionWords id candidate) := by
  have hinflight := writable_natText candidate.maxInflightRuns.toNat
  have htimezone : List.Forall₂ ShownWord
      (candidate.timezone.map (optionWord quoted "timezone")).toList
      (candidate.timezone.map (optionWord id "timezone")).toList := by
    cases h.scheduled with
    | interval seconds hkind hseconds hbounds hcron htimezone =>
      rw [htimezone]
      exact .nil
    | cron expression timezone hkind hseconds hcron hexpression haccepted htimezone hzone =>
      rw [htimezone]
      exact .cons (shownWord_option (by simp [heartbeatKeys]) hzone) .nil
  refine .cons (shownWord_option (by simp [heartbeatKeys]) h.recipeId) ?_
  exact List.rel_append htimezone
    (.cons (shownWord_option (by simp [heartbeatKeys]) hinflight) .nil)

theorem shownWord_heartbeatWords (h : candidate.Valid rt) :
    List.Forall₂ ShownWord (heartbeatWords quoted candidate) (heartbeatWords id candidate) := by
  have hjitter := writable_natText candidate.jitterSeconds.toNat
  refine List.rel_append (List.rel_append (shownWord_directive h) (shownWord_options h)) ?_
  exact .cons (shownWord_option (by simp [heartbeatKeys]) hjitter) .nil

theorem tokenize_renderHeartbeatLine (h : candidate.Valid rt) :
    tokenizeHeartbeatLine (renderHeartbeatLine candidate) = heartbeatWords id candidate := by
  have hsome : heartbeatWords quoted candidate ≠ [] := by simp [heartbeatWords]
  exact tokenize_joinWords hsome
    ((shownWord_heartbeatWords h).imp fun _ _ hword => ⟨hword.shows, hword.nonempty⟩)

/-! ## The line -/

theorem newline_notMem_render (h : candidate.Valid rt) :
    '\n' ∉ (renderHeartbeatLine candidate).toList := by
  intro hmem
  rcases mem_joinWords hmem with hspace | ⟨shown, hshown, hc⟩
  · exact absurd hspace (by decide)
  · obtain ⟨i, hi, rfl⟩ := List.getElem_of_mem hshown
    have hwords := List.forall₂_iff_get.mp (shownWord_heartbeatWords h)
    exact (hwords.2 i hi (hwords.1 ▸ hi)).newline hc

theorem quoted_natText (n : Nat) : quoted (natText n) = natText n := by
  refine if_neg ?_
  rw [Bool.not_eq_true, List.any_eq_false]
  intro c hc
  simp [isWhitespace_of_isDigit (Integers.isDigit_of_mem_natText hc)]

/-- The line begins with a letter of the directive and ends with a digit. -/
theorem ends_renderHeartbeatLine (candidate : HeartbeatTriggerCandidate) :
    (∃ c, (renderHeartbeatLine candidate).toList.head? = some c ∧ c.isLower = true) ∧
      ∃ c, (renderHeartbeatLine candidate).toList.getLast? = some c ∧ c.isDigit = true := by
  constructor
  · unfold renderHeartbeatLine heartbeatWords directiveWords
    cases candidate.kind with
    | interval => exact ⟨'e', head?_joinWords (by decide), by decide⟩
    | cron => exact ⟨'c', head?_joinWords (by decide), by decide⟩
  · have hsome := Integers.natText_ne_nil candidate.jitterSeconds.toNat
    have hlast : (optionWord quoted "jitter"
        (natText candidate.jitterSeconds.toNat)).toList ≠ [] := by
      rw [toList_optionWord]
      simp
    refine ⟨_, (getLast?_joinWords hlast).trans ?_, Integers.isDigit_of_mem_natText
      (List.getLast_mem hsome)⟩
    rw [toList_optionWord, quoted_natText, List.getLast?_append_cons,
      List.getLast?_cons_of_ne_nil hsome, List.getLast?_eq_some_getLast hsome]

theorem trim_renderHeartbeatLine (candidate : HeartbeatTriggerCandidate) :
    Text.trim (renderHeartbeatLine candidate) = renderHeartbeatLine candidate := by
  obtain ⟨⟨first, hfirst, hlower⟩, last, hlast, hdigit⟩ := ends_renderHeartbeatLine candidate
  refine Text.trim_eq_self hfirst hlast (isWhitespace_of_isKeyChar ?_)
    (isWhitespace_of_isDigit hdigit)
  simp [isKeyChar, hlower]

theorem startsWith_render {start : String} {c : Char} (hstart : start.toList.head? = some c)
    (hc : c.isLower = false) : Text.startsWith (renderHeartbeatLine candidate) start = false := by
  obtain ⟨⟨first, hfirst, hlower⟩, _⟩ := ends_renderHeartbeatLine candidate
  refine Bool.eq_false_iff.mpr ?_
  intro hlead
  obtain ⟨more, hmore⟩ := Text.startsWith_iff.mp hlead
  obtain ⟨rest, hrest⟩ := List.head?_eq_some_iff.mp hstart
  rw [← hmore, hrest] at hfirst
  cases Option.some.inj hfirst
  rw [hc] at hlower
  cases hlower

theorem isSkipped_render : isSkipped (renderHeartbeatLine candidate) = false := by
  obtain ⟨⟨first, hfirst, _⟩, _⟩ := ends_renderHeartbeatLine candidate
  obtain ⟨rest, hrest⟩ := List.head?_eq_some_iff.mp hfirst
  have hsome : Text.isEmpty (renderHeartbeatLine candidate) = false := by
    simp [Text.isEmpty, hrest]
  have hcomment := @startsWith_render candidate "#" '#' (by decide) (by decide)
  unfold isSkipped
  rw [trim_renderHeartbeatLine, hsome, hcomment]
  rfl

theorem normalizedLine_render :
    normalizedLine (renderHeartbeatLine candidate) = renderHeartbeatLine candidate := by
  have hdash := @startsWith_render candidate "- " '-' (by decide) (by decide)
  have hstar := @startsWith_render candidate "* " '*' (by decide) (by decide)
  unfold normalizedLine Text.stripStart
  rw [trim_renderHeartbeatLine]
  dsimp only
  rw [hdash, hstar]
  rfl

theorem numberedLines_render (h : candidate.Valid rt) :
    numberedLines (renderHeartbeatLine candidate) = [(renderHeartbeatLine candidate, 1)] := by
  obtain ⟨⟨first, hfirst, _⟩, _⟩ := ends_renderHeartbeatLine candidate
  have hsome : (renderHeartbeatLine candidate).toList ≠ [] := by
    intro hnil
    rw [hnil] at hfirst
    cases hfirst
  unfold numberedLines
  rw [Lines.lines_eq_singleton (newline_notMem_render h) hsome, List.map_singleton,
    String.ofList_toList]
  rfl

/-! ## Its options -/

theorem parseHeartbeatOption_word {line : Nat} {opts : HeartbeatOptions}
    (hkey : key ∈ heartbeatKeys) (hvalue : Writable value) :
    parseHeartbeatOption line opts (optionWord id key value) =
      setHeartbeatOption line opts key value := by
  have hequals : '=' ∉ key.toList :=
    fun hmem => ne_of_isKeyChar (isKeyChar_of_key hkey _ hmem) (by decide) rfl
  have hword : optionWord id key value = String.ofList (key.toList ++ '=' :: value.toList) := by
    refine String.toList_inj.mp ?_
    rw [String.toList_ofList]
    exact toList_optionWord id key value
  have hname : Text.toAsciiLowercase (Text.trim key) = key := by
    have hall : (heartbeatKeys.all fun key => Text.toAsciiLowercase (Text.trim key) = key) = true :=
      by decide +kernel
    exact of_decide_eq_true (List.all_eq_true.mp hall key hkey)
  have hsome : Text.isEmpty value = false := by simpa [Text.isEmpty] using hvalue.nonempty
  unfold parseHeartbeatOption
  rw [hword, Text.splitOnce_join hequals]
  dsimp only
  rw [hvalue.trimmed, hsome, if_neg Bool.false_ne_true, hname]

theorem boundedOption_natText {line : Nat} {low high : Int} {parseIssue boundIssue : String × String}
    {n : Int} (hn : 0 ≤ n) (hlow : low ≤ n) (hhigh : n ≤ high) (hfits : high < 2 ^ 31) :
    boundedOption line (natText n.toNat) low high parseIssue boundIssue = .ok n := by
  have hsmall : n.toNat < 2 ^ (32 - 1) := by omega
  have hback : ((n.toNat : Nat) : Int) = n := by omega
  unfold boundedOption
  rw [Integers.parseInt_natText hsmall, hback]
  exact if_pos ⟨hlow, hhigh⟩

/-- Options with a value each, in the order of the line. -/
theorem parseHeartbeatOptions_words {line : Nat} (h : candidate.Valid rt) :
    parseHeartbeatOptions (optionWords id candidate ++
      [optionWord id "jitter" (natText candidate.jitterSeconds.toNat)]) line =
        .ok ⟨some candidate.recipeId, candidate.timezone, candidate.maxInflightRuns,
          candidate.jitterSeconds⟩ := by
  have hrecipe : ∀ opts, parseHeartbeatOption line opts
      (optionWord id "recipe" candidate.recipeId) =
        .ok { opts with recipeId := some candidate.recipeId } :=
    fun opts => parseHeartbeatOption_word (by simp [heartbeatKeys]) h.recipeId
  have hinflight : ∀ opts, parseHeartbeatOption line opts
      (optionWord id "max_inflight" (natText candidate.maxInflightRuns.toNat)) =
        .ok { opts with maxInflightRuns := candidate.maxInflightRuns } := by
    intro opts
    obtain ⟨hlow, hhigh⟩ := h.maxInflightRuns
    rw [parseHeartbeatOption_word (by simp [heartbeatKeys]) (writable_natText _)]
    show (maxInflightOption line _).map _ = _
    unfold maxInflightOption
    rw [boundedOption_natText (by omega) hlow hhigh (by decide)]
    rfl
  have hjitter : ∀ opts, parseHeartbeatOption line opts
      (optionWord id "jitter" (natText candidate.jitterSeconds.toNat)) =
        .ok { opts with jitterSeconds := candidate.jitterSeconds } := by
    intro opts
    obtain ⟨hlow, hhigh⟩ := h.jitterSeconds
    rw [parseHeartbeatOption_word (by simp [heartbeatKeys]) (writable_natText _)]
    show (jitterOption line _).map _ = _
    unfold jitterOption
    rw [boundedOption_natText hlow hlow hhigh (by decide)]
    rfl
  unfold parseHeartbeatOptions optionWords
  cases h.scheduled with
  | interval seconds hkind hseconds hbounds hcron htimezone =>
    rw [htimezone]
    simp [hrecipe, hinflight, hjitter, bind, Except.bind, pure, Except.pure]
  | cron expression timezone hkind hseconds hcron hexpression haccepted htimezone hzone =>
    have hzoneWord : ∀ opts, parseHeartbeatOption line opts (optionWord id "timezone" timezone) =
        .ok { opts with timezone := some timezone } :=
      fun opts => parseHeartbeatOption_word (by simp [heartbeatKeys]) hzone
    rw [htimezone]
    simp [hrecipe, hinflight, hjitter, hzoneWord, bind, Except.bind, pure, Except.pure]

/-! ## The round trip -/

/-- Where the candidate is written does not count. -/
def HeartbeatTriggerCandidate.atLine (candidate : HeartbeatTriggerCandidate) (line : Nat)
    (sourceLine : String) : HeartbeatTriggerCandidate :=
  { candidate with line := line, sourceLine := sourceLine }

theorem parse_interval {line : Nat} {sourceLine : String} {seconds : Int} (h : candidate.Valid rt)
    (hkind : candidate.kind = .interval) (hseconds : candidate.intervalSeconds = some seconds)
    (hbounds : 60 ≤ seconds ∧ seconds ≤ 31536000) (hcron : candidate.cronExpression = none)
    (htimezone : candidate.timezone = none) :
    parseIntervalHeartbeatLine (heartbeatWords id candidate) line sourceLine =
      .ok (candidate.atLine line sourceLine) := by
  have hoptions := @parseHeartbeatOptions_words candidate rt line h
  have hparsed : parseInt 64 (natText seconds.toNat) = some seconds := by
    have hsmall : seconds.toNat < 2 ^ (64 - 1) := by omega
    rw [Integers.parseInt_natText hsmall, Int.toNat_of_nonneg (by omega)]
  unfold optionWords at hoptions
  rw [List.cons_append, List.cons_append] at hoptions
  unfold parseIntervalHeartbeatLine heartbeatWords directiveWords optionWords
  simp only [hkind, hseconds, Option.getD_some, List.cons_append, List.nil_append]
  rw [hparsed]
  dsimp only
  rw [if_neg (not_not.mpr hbounds), hoptions]
  simp only [requiredRecipe, HeartbeatTriggerCandidate.atLine, hkind, hseconds, hcron, htimezone]

theorem parse_cron {line : Nat} {sourceLine expression timezone : String} (h : candidate.Valid rt)
    (hkind : candidate.kind = .cron) (hseconds : candidate.intervalSeconds = none)
    (hcron : candidate.cronExpression = some expression) (hexpression : Writable expression)
    (haccepted : rt.cronError expression = none) (htimezone : candidate.timezone = some timezone)
    (hknown : rt.isTimezone timezone = true) :
    parseCronHeartbeatLine rt (heartbeatWords id candidate) line sourceLine =
      .ok (candidate.atLine line sourceLine) := by
  have hoptions := @parseHeartbeatOptions_words candidate rt line h
  have hsome : Text.isEmpty expression = false := by
    simpa [Text.isEmpty] using hexpression.nonempty
  unfold optionWords at hoptions
  rw [List.cons_append, List.cons_append] at hoptions
  unfold parseCronHeartbeatLine heartbeatWords directiveWords optionWords
  simp only [hkind, hcron, Option.getD_some, List.cons_append, List.nil_append]
  simp only [id_eq, hexpression.trimmed, hsome, haccepted]
  rw [if_neg Bool.false_ne_true, hoptions]
  simp only [requiredRecipe, htimezone, Option.getD_some, hknown, if_true,
    HeartbeatTriggerCandidate.atLine, hkind, hseconds, hcron]

theorem parseHeartbeatLine_every (tokens : List String) (line : Nat) (sourceLine : String) :
    parseHeartbeatLine rt "every" tokens line sourceLine =
      parseIntervalHeartbeatLine tokens line sourceLine := by
  simp only [parseHeartbeatLine]

theorem parseHeartbeatLine_cron (tokens : List String) (line : Nat) (sourceLine : String) :
    parseHeartbeatLine rt "cron" tokens line sourceLine =
      parseCronHeartbeatLine rt tokens line sourceLine := by
  simp only [parseHeartbeatLine]

theorem outcome_of_words {entry : String × Nat} {first : String} {others : List String}
    (hskip : isSkipped entry.1 = false)
    (hwords : tokenizeHeartbeatLine (normalizedLine entry.1) = first :: others) :
    outcome rt entry = some (parseHeartbeatLine rt (Text.toAsciiLowercase first) (first :: others)
      entry.2 (normalizedLine entry.1)) := by
  unfold outcome
  rw [hskip, if_neg Bool.false_ne_true, hwords]

/-- A candidate is read from its own line. -/
theorem outcome_render (h : candidate.Valid rt) (line : Nat) :
    outcome rt (renderHeartbeatLine candidate, line) =
      some (.ok (candidate.atLine line (renderHeartbeatLine candidate))) := by
  have hwords := tokenize_renderHeartbeatLine h
  rw [← @normalizedLine_render candidate] at hwords
  cases h.scheduled with
  | interval seconds hkind hseconds hbounds hcron htimezone =>
    have hparsed := @parse_interval candidate rt line (renderHeartbeatLine candidate) seconds h hkind
      hseconds hbounds hcron htimezone
    obtain ⟨others, hfirst⟩ : ∃ others, heartbeatWords id candidate = "every" :: others := by
      unfold heartbeatWords directiveWords
      rw [hkind]
      exact ⟨_, rfl⟩
    have hlower : Text.toAsciiLowercase "every" = "every" := by decide
    rw [hfirst] at hwords hparsed
    have houtcome := @outcome_of_words rt (renderHeartbeatLine candidate, line) "every" others
      isSkipped_render hwords
    dsimp only at houtcome
    rw [houtcome, normalizedLine_render, hlower, parseHeartbeatLine_every, hparsed]
  | cron expression timezone hkind hseconds hcron hexpression haccepted htimezone hzone hknown =>
    have hparsed := @parse_cron candidate rt line (renderHeartbeatLine candidate) expression timezone h
      hkind hseconds hcron hexpression haccepted htimezone hknown
    obtain ⟨others, hfirst⟩ : ∃ others, heartbeatWords id candidate = "cron" :: others := by
      unfold heartbeatWords directiveWords
      rw [hkind]
      exact ⟨_, rfl⟩
    have hlower : Text.toAsciiLowercase "cron" = "cron" := by decide
    rw [hfirst] at hwords hparsed
    have houtcome := @outcome_of_words rt (renderHeartbeatLine candidate, line) "cron" others
      isSkipped_render hwords
    dsimp only at houtcome
    rw [houtcome, normalizedLine_render, hlower, parseHeartbeatLine_cron, hparsed]

theorem compile_renderHeartbeatLine (h : candidate.Valid rt) :
    compileHeartbeatMarkdown rt (renderHeartbeatLine candidate) =
      ⟨[candidate.atLine 1 (renderHeartbeatLine candidate)], []⟩ := by
  unfold compileHeartbeatMarkdown
  rw [numberedLines_render h, compileLines_candidate (outcome_render h 1) (by decide), compileLines]
  rfl

end Values

/-! ## The report -/

/-- What the report on a text says. -/
structure Compiles (rt : HeartbeatRuntime) (markdown : String) : Prop where
  lines : ∃ read rest, ReadTo rt isDirective (numberedLines markdown) ⟨[], []⟩
    (compileHeartbeatMarkdown rt markdown) read rest
  silent : ∀ entry, outcome rt entry = none ↔
    isSkipped entry.1 = true ∨ tokenizeHeartbeatLine (normalizedLine entry.1) = []
  candidateLine : ∀ entry ∈ numberedLines markdown, ∀ candidate,
    outcome rt entry = some (.ok candidate) → candidate.line = entry.2
  issueLine : ∀ entry ∈ numberedLines markdown, ∀ issue,
    outcome rt entry = some (.error issue) → issue.line = entry.2
  valid : ∀ candidate ∈ (compileHeartbeatMarkdown rt markdown).candidates, candidate.Valid rt
  renders : ∀ candidate ∈ (compileHeartbeatMarkdown rt markdown).candidates,
    compileHeartbeatMarkdown rt (renderHeartbeatLine candidate) =
      ⟨[candidate.atLine 1 (renderHeartbeatLine candidate)], []⟩

/-- Every line gives what it gives alone, up to the first that is neither blank nor a comment
after the last candidate there is room for. -/
theorem heartbeat_compiles (rt : HeartbeatRuntime) (markdown : String) : Compiles rt markdown where
  lines := readTo_compileHeartbeatMarkdown rt markdown
  silent := fun _ => outcome_eq_none_iff
  candidateLine := fun _ hentry _ h =>
    (outcome_candidate (newline_notMem_numberedLines hentry) h).2.1
  issueLine := fun _ _ _ h => outcome_issue h
  valid := fun _ h => valid_of_mem_candidates h
  renders := fun _ h => compile_renderHeartbeatLine (valid_of_mem_candidates h)

/-! ## A line without words -/

/-- Lines that say something. -/
def hasWords (rawLine : String) : Bool :=
  isDirective rawLine && !(tokenizeHeartbeatLine (normalizedLine rawLine)).isEmpty

def sampleHeartbeatRuntime : HeartbeatRuntime := ⟨fun _ => none, fun _ => true⟩

def minuteCandidate : HeartbeatTriggerCandidate where
  kind := .interval
  recipeId := "watch"
  intervalSeconds := some 60
  cronExpression := none
  timezone := none
  maxInflightRuns := 1
  jitterSeconds := 0
  line := 1
  sourceLine := ""

theorem minuteCandidate_valid : minuteCandidate.Valid sampleHeartbeatRuntime where
  recipeId := ⟨by decide, by decide, by decide, by decide⟩
  maxInflightRuns := by decide
  jitterSeconds := by decide
  scheduled := .interval 60 rfl rfl (by decide) rfl rfl

/-- As many candidates as there is room for, and a pair of quotes. -/
def crowdedMarkdown : String :=
  String.ofList ((List.replicate maxCandidates
    ((renderHeartbeatLine minuteCandidate).toList ++ ['\n'])).flatten ++ ['"', '"'])

def crowdedEntries : List (String × Nat) :=
  (List.replicate maxCandidates (renderHeartbeatLine minuteCandidate)).zipIdx 1

theorem numberedLines_crowded :
    numberedLines crowdedMarkdown = crowdedEntries ++ [("\"\"", maxCandidates + 1)] := by
  have hline := newline_notMem_render minuteCandidate_valid
  have hcr : (renderHeartbeatLine minuteCandidate).toList.getLast? ≠ some '\r' := by decide
  have hquotes : Lines.lines ['"', '"'] = [['"', '"']] := by decide
  unfold numberedLines crowdedMarkdown crowdedEntries
  rw [String.toList_ofList, Lines.lines_replicate hline hcr, hquotes, List.map_append,
    List.map_replicate, String.ofList_toList, List.zipIdx_append, List.length_replicate]
  rfl

theorem outcome_crowded {entry : String × Nat} (h : entry ∈ crowdedEntries) :
    outcome sampleHeartbeatRuntime entry =
      some (.ok (minuteCandidate.atLine entry.2 (renderHeartbeatLine minuteCandidate))) := by
  have hline := List.eq_of_mem_replicate (List.fst_mem_of_mem_zipIdx h)
  rw [← outcome_render minuteCandidate_valid, ← hline]

theorem outcome_quotes (line : Nat) : outcome sampleHeartbeatRuntime ("\"\"", line) = none := by
  have hwords : tokenizeHeartbeatLine (normalizedLine "\"\"") = [] := by decide
  exact outcome_eq_none_iff.mpr (.inr hwords)

theorem length_crowded :
    (crowdedEntries.filterMap (candidateOf sampleHeartbeatRuntime)).length = maxCandidates := by
  have hall : ∀ entry ∈ crowdedEntries, (candidateOf sampleHeartbeatRuntime entry).isSome := by
    intro entry hentry
    rw [candidateOf_eq_some.mpr (outcome_crowded hentry)]
    rfl
  rw [List.filterMap_length_eq_length.mpr hall, crowdedEntries, List.length_zipIdx,
    List.length_replicate]

/-- The pair of quotes exceeds the limit. -/
theorem quotes_exceed_limit : ¬ ∀ rt markdown, ∃ read rest,
    ReadTo rt hasWords (numberedLines markdown) ⟨[], []⟩ (compileHeartbeatMarkdown rt markdown)
      read rest := by
  intro h
  obtain ⟨read, rest, hread⟩ := h sampleHeartbeatRuntime crowdedMarkdown
  obtain ⟨read', rest', hread'⟩ :=
    readTo_compileHeartbeatMarkdown sampleHeartbeatRuntime crowdedMarkdown
  have hentries := hread.entries
  have hentries' := hread'.entries
  rw [numberedLines_crowded] at hentries hentries'
  cases rest with
  | nil =>
    -- no line has an issue of its own, so the one of the report is that of the limit
    have hnone : ∀ entry ∈ read, issueOf sampleHeartbeatRuntime entry = none := by
      intro entry hentry
      rw [List.append_nil] at hentries
      rw [← hentries] at hentry
      unfold issueOf
      rcases List.mem_append.mp hentry with hentry | hentry
      · rw [outcome_crowded hentry]
      · rw [List.mem_singleton.mp hentry, outcome_quotes]
    have hissues := hread.issues
    rw [List.filterMap_eq_nil_iff.mpr hnone, hread'.issues] at hissues
    cases rest' with
    | nil =>
      rw [List.append_nil] at hentries'
      have hroom := hread'.started crowdedEntries ("\"\"", maxCandidates + 1) [] hentries'.symm
        (by decide)
      rw [List.nil_append, length_crowded] at hroom
      omega
    | cons entry rest' => simp at hissues
  | cons entry rest =>
    obtain ⟨hwords, hfull⟩ := hread.ended entry rfl
    have hlength : maxCandidates ≤ read.length := by
      rw [hread.candidates, List.nil_append] at hfull
      rw [← hfull]
      exact List.length_filterMap_le _ _
    have hcrowded : crowdedEntries.length = maxCandidates := by
      rw [crowdedEntries, List.length_zipIdx, List.length_replicate]
    have hsame : crowdedEntries.length = read.length := by
      have hall := congrArg List.length hentries
      simp only [List.length_append, List.length_cons, List.length_nil] at hall
      omega
    have hlast := (List.append_inj hentries hsame).2
    rw [← (List.cons.inj hlast).1] at hwords
    exact absurd hwords (by decide)

end Api
end SecureAgnt

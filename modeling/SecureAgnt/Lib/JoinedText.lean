/-
Texts joined by a separator.

Where one part ends can be told from the text if the separator is in the parts before it
equally often, or if the parts after it cannot begin inside one another.  JSON texts are
of the second kind: they have the separator `|` in string literals only.
-/
import SecureAgnt.Lib.JsonText

namespace SecureAgnt

/-! ## Joined texts -/

section Joined

variable {c : Char} {a b s t : List Char}

/-- Two joined texts whose first parts have the separator equally often split at the
same place. -/
theorem split_of_count (hcount : a.count c = b.count c) (h : a ++ c :: s = b ++ c :: t) :
    a = b ∧ s = t := by
  rcases List.append_eq_append_iff.mp h with ⟨x, hb, hrest⟩ | ⟨x, ha, hrest⟩
  · cases x with
    | nil =>
      rw [List.nil_append] at hrest
      exact ⟨by rw [hb, List.append_nil], (List.cons.inj hrest).2⟩
    | cons d x =>
      have hd : c = d := (List.cons.inj hrest).1
      rw [hb, List.count_append, ← hd, List.count_cons_self] at hcount
      omega
  · cases x with
    | nil =>
      rw [List.nil_append] at hrest
      exact ⟨by rw [ha, List.append_nil], (List.cons.inj hrest).2.symm⟩
    | cons d x =>
      have hd : c = d := (List.cons.inj hrest).1
      rw [ha, List.count_append, ← hd, List.count_cons_self] at hcount
      omega

theorem split_of_not_mem (ha : c ∉ a) (hb : c ∉ b) (h : a ++ c :: s = b ++ c :: t) :
    a = b ∧ s = t := by
  refine split_of_count ?_ h
  rw [List.count_eq_zero_of_not_mem ha, List.count_eq_zero_of_not_mem hb]

/-- Two joined texts whose last parts cannot begin inside one another split at the
same place. -/
theorem split_of_no_overlap (hs : ∀ x, s ≠ x ++ c :: t) (ht : ∀ x, t ≠ x ++ c :: s)
    (h : a ++ c :: s = b ++ c :: t) : a = b ∧ s = t := by
  rcases List.append_eq_append_iff.mp h with ⟨x, hb, hrest⟩ | ⟨x, ha, hrest⟩
  · cases x with
    | nil =>
      rw [List.nil_append] at hrest
      exact ⟨by rw [hb, List.append_nil], (List.cons.inj hrest).2⟩
    | cons d x => exact absurd (List.cons.inj hrest).2 (hs x)
  · cases x with
    | nil =>
      rw [List.nil_append] at hrest
      exact ⟨by rw [ha, List.append_nil], (List.cons.inj hrest).2.symm⟩
    | cons d x => exact absurd (List.cons.inj hrest).2 (ht x)

end Joined

/-! ## JSON texts -/

/-- Where a reader of a JSON text is. -/
inductive Lexed where
  | outside
  | inString
  | escaped
  deriving DecidableEq

/-- Outside its string literals a JSON text has neither `|` nor a backslash. -/
def Lexed.next : Lexed → Char → Option Lexed
  | .outside, c =>
    if c = '|' ∨ c = '\\' then none else some (if c = '"' then .inString else .outside)
  | .inString, c => some (if c = '"' then .outside else if c = '\\' then .escaped else .inString)
  | .escaped, _ => some .inString

def Lexed.read : Lexed → List Char → Option Lexed
  | st, [] => some st
  | st, c :: cs => (st.next c).bind fun st' => st'.read cs

/-- A JSON text begins and ends outside string literals. -/
def IsJsonText (text : String) : Prop := Lexed.outside.read text.toList = some .outside

theorem Lexed.read_append (st : Lexed) (cs ds : List Char) :
    st.read (cs ++ ds) = (st.read cs).bind fun st' => st'.read ds := by
  induction cs generalizing st with
  | nil => rfl
  | cons c cs ih =>
    show (st.next c).bind _ = ((st.next c).bind _).bind _
    cases st.next c with
    | none => rfl
    | some st' => exact ih st'

/-- After a separator the reader is inside a string literal. -/
theorem Lexed.next_separator {st st' : Lexed} (h : st.next '|' = some st') : st' = .inString := by
  cases st with
  | outside => simp [Lexed.next] at h
  | inString => simpa [Lexed.next] using h.symm
  | escaped => simpa [Lexed.next] using h.symm

/-- Two readers on different sides of every quote. -/
def Lexed.Opposite (st st' : Lexed) : Prop :=
  (st = .outside ∧ st' = .inString) ∨ (st = .inString ∧ st' = .outside)

theorem Lexed.Opposite.symm {st st' : Lexed} (h : st.Opposite st') : st'.Opposite st := by
  rcases h with ⟨rfl, rfl⟩ | ⟨rfl, rfl⟩
  · exact .inr ⟨rfl, rfl⟩
  · exact .inl ⟨rfl, rfl⟩

/-- One of the two would stop at a backslash, so both see quotes only. -/
theorem Lexed.next_opposite {c : Char} {st st' : Lexed}
    (hout : Lexed.outside.next c = some st) (hin : Lexed.inString.next c = some st') :
    st.Opposite st' := by
  simp only [Lexed.next] at hout hin
  split at hout
  · cases hout
  · rename_i hplain
    rw [not_or] at hplain
    rw [if_neg hplain.2] at hin
    by_cases hquote : c = '"'
    · rw [if_pos hquote] at hout hin
      exact .inr ⟨(Option.some.inj hout).symm, (Option.some.inj hin).symm⟩
    · rw [if_neg hquote] at hout hin
      exact .inl ⟨(Option.some.inj hout).symm, (Option.some.inj hin).symm⟩

theorem Lexed.read_opposite {cs : List Char} {st₁ st₂ st₁' st₂' : Lexed}
    (h : st₁.Opposite st₂) (h₁ : st₁.read cs = some st₁') (h₂ : st₂.read cs = some st₂') :
    st₁'.Opposite st₂' := by
  induction cs generalizing st₁ st₂ with
  | nil =>
    cases h₁
    cases h₂
    exact h
  | cons c cs ih =>
    obtain ⟨mid₁, hnext₁, hrest₁⟩ := Option.bind_eq_some_iff.mp h₁
    obtain ⟨mid₂, hnext₂, hrest₂⟩ := Option.bind_eq_some_iff.mp h₂
    refine ih ?_ hrest₁ hrest₂
    rcases h with ⟨rfl, rfl⟩ | ⟨rfl, rfl⟩
    · exact Lexed.next_opposite hnext₁ hnext₂
    · exact (Lexed.next_opposite hnext₂ hnext₁).symm

/-- No JSON text ends in a separator and a JSON text. -/
theorem IsJsonText.no_overlap {text text' : String} (h : IsJsonText text) (h' : IsJsonText text')
    (x : List Char) : text.toList ≠ x ++ '|' :: text'.toList := by
  intro heq
  rw [IsJsonText, heq, Lexed.read_append] at h
  obtain ⟨st, _, hsep⟩ := Option.bind_eq_some_iff.mp h
  obtain ⟨st', hnext, hrest⟩ := Option.bind_eq_some_iff.mp hsep
  rw [Lexed.next_separator hnext] at hrest
  have hboth := Lexed.read_opposite (.inl ⟨rfl, rfl⟩) h' hrest
  rcases hboth with ⟨_, hin⟩ | ⟨hin, _⟩
  · cases hin
  · cases hin

/-! ## Written values -/

section Written

/-- A reader comes out of the text as it went in. -/
def Lexed.Keeps (st : Lexed) (text : List Char) : Prop := st.read text = some st

/-- A character that means nothing to a reader. -/
def isPlain (c : Char) : Bool := c ≠ '|' && c ≠ '\\' && c ≠ '"'

variable {f : FloatText} {v : Json} {st : Lexed} {text more : List Char}

theorem Lexed.Keeps.append (h : st.Keeps text) (h' : st.Keeps more) : st.Keeps (text ++ more) := by
  unfold Lexed.Keeps at *
  rw [Lexed.read_append, h, Option.bind_some, h']

theorem keeps_outside_of_plain (h : ∀ c ∈ text, isPlain c = true) : Lexed.outside.Keeps text := by
  induction text with
  | nil => rfl
  | cons c cs ih =>
    have hc := h c List.mem_cons_self
    simp only [isPlain, Bool.and_eq_true, decide_eq_true_eq] at hc
    have hnext : Lexed.outside.next c = some .outside := by
      simp [Lexed.next, hc.1.1, hc.1.2, hc.2]
    show (Lexed.outside.next c).bind _ = _
    rw [hnext]
    exact ih fun d hd => h d (List.mem_cons_of_mem _ hd)

theorem keeps_inString_of_code : ∀ c ∈ escapedChars,
    Lexed.inString.read ('\\' :: (escapeCode c).getD ['n']) = some .inString := by
  have hall : (escapedChars.all fun c =>
      Lexed.inString.read ('\\' :: (escapeCode c).getD ['n']) = some .inString) = true := by
    decide +kernel
  intro c hc
  exact of_decide_eq_true (List.all_eq_true.mp hall c hc)

theorem keeps_escape (c : Char) : Lexed.inString.Keeps (escape c) := by
  cases hc : escapeCode c with
  | none =>
    have hquote : c ≠ '"' := by
      intro h
      rw [h] at hc
      cases hc
    have hslash : c ≠ '\\' := by
      intro h
      rw [h] at hc
      cases hc
    rw [escape_eq_self hc]
    simp [Lexed.Keeps, Lexed.read, Lexed.next, hquote, hslash]
  | some code =>
    have hcode := keeps_inString_of_code c (mem_escapedChars hc)
    rw [hc, Option.getD_some] at hcode
    rw [escape_eq_code hc]
    exact hcode

theorem keeps_flatMap_escape (cs : List Char) : Lexed.inString.Keeps (cs.flatMap escape) := by
  induction cs with
  | nil => rfl
  | cons c cs ih =>
    rw [List.flatMap_cons]
    exact (keeps_escape c).append ih

theorem keeps_writeString (s : String) : Lexed.outside.Keeps (writeString s) := by
  have hinside := keeps_flatMap_escape s.toList
  unfold Lexed.Keeps at hinside
  have hopen : Lexed.outside.next '"' = some .inString := by decide
  show (Lexed.outside.next '"').bind _ = _
  rw [hopen, Option.bind_some, Lexed.read_append, hinside, Option.bind_some]
  rfl

theorem isPlain_of_isNumberChar {c : Char} (h : isNumberChar c = true) : isPlain c = true := by
  have hne : ∀ d, isNumberChar d = false → c ≠ d := by
    intro d hd hcd
    rw [hcd, hd] at h
    cases h
  simp [isPlain, hne '|' (by decide), hne '\\' (by decide), hne '"' (by decide)]

theorem keeps_writeItems {items : List Json} (h : ∀ v ∈ items, Lexed.outside.Keeps (v.write f))
    (first : Bool) : Lexed.outside.Keeps (Json.writeItems f first items) := by
  induction items generalizing first with
  | nil =>
    rw [Json.writeItems]
    exact keeps_outside_of_plain (by simp [isPlain])
  | cons v items ih =>
    have hseparator : Lexed.outside.Keeps (Json.separator first) := by cases first <;> rfl
    rw [Json.writeItems]
    exact hseparator.append ((h v List.mem_cons_self).append
      (ih (fun w hw => h w (List.mem_cons_of_mem _ hw)) _))

theorem keeps_writeFields {fields : List (String × Json)}
    (h : ∀ field ∈ fields, Lexed.outside.Keeps (field.2.write f)) (first : Bool) :
    Lexed.outside.Keeps (Json.writeFields f first fields) := by
  induction fields generalizing first with
  | nil =>
    rw [Json.writeFields]
    exact keeps_outside_of_plain (by simp [isPlain])
  | cons field fields ih =>
    obtain ⟨key, v⟩ := field
    have hseparator : Lexed.outside.Keeps (Json.separator first) := by cases first <;> rfl
    have hcolon : Lexed.outside.Keeps [':'] := rfl
    have hrest := ih (fun w hw => h w (List.mem_cons_of_mem _ hw)) false
    rw [Json.writeFields]
    exact hseparator.append ((keeps_writeString key).append
      (hcolon.append ((h _ List.mem_cons_self).append hrest)))

theorem keeps_write (hv : Json.IsValue v) : Lexed.outside.Keeps (v.write f) := by
  induction hv with
  | null =>
    have hplain : ("null".toList.all isPlain) = true := by decide
    exact keeps_outside_of_plain (List.all_eq_true.mp hplain)
  | bool b =>
    cases b with
    | true =>
      have hplain : ("true".toList.all isPlain) = true := by decide
      exact keeps_outside_of_plain (List.all_eq_true.mp hplain)
    | false =>
      have hplain : ("false".toList.all isPlain) = true := by decide
      exact keeps_outside_of_plain (List.all_eq_true.mp hplain)
  | num hn =>
    exact keeps_outside_of_plain fun c hc => isPlain_of_isNumberChar (numberText_chars hn c hc)
  | str s => exact keeps_writeString s
  | arr _ ih =>
    have hopen : Lexed.outside.Keeps ['['] := rfl
    rw [Json.write]
    exact hopen.append (keeps_writeItems ih true)
  | obj _ _ ih =>
    have hopen : Lexed.outside.Keeps ['\x7b'] := rfl
    rw [Json.write]
    exact hopen.append (keeps_writeFields ih true)

theorem isJsonText_write (hv : Json.IsValue v) : IsJsonText (String.ofList (v.write f)) := by
  unfold IsJsonText
  rw [String.toList_ofList]
  exact keeps_write hv

end Written

end SecureAgnt

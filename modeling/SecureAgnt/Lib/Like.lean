/-
Patterns of `LIKE`.

A pattern is a list of tokens: a letter, one letter whatever it is, and any number of
letters.  Which letters are the same is a parameter, and so is the way a pattern is
read off its text.
-/
import Mathlib.Data.List.Infix
import Mathlib.Data.List.Forall2

namespace SecureAgnt
namespace Like

inductive Token (α : Type) where
  | lit (a : α)
  | one
  | any
  deriving DecidableEq

variable {α : Type} {same : α → α → Bool}

def accepts (same : α → α → Bool) : List (Token α) → List α → Bool
  | [], text => text.isEmpty
  | .lit _ :: _, [] => false
  | .lit a :: pattern, c :: text => same a c && accepts same pattern text
  | .one :: _, [] => false
  | .one :: pattern, _ :: text => accepts same pattern text
  | .any :: pattern, text => text.tails.any (accepts same pattern)

theorem accepts_any_cons {pattern : List (Token α)} {text : List α} :
    accepts same (.any :: pattern) text = true ↔
      ∃ rest, rest <:+ text ∧ accepts same pattern rest = true := by
  show text.tails.any (accepts same pattern) = true ↔ _
  rw [List.any_eq_true]
  simp only [List.mem_tails]

/-- A pattern that ends open accepts what starts with a text it accepts without the end. -/
theorem accepts_append_any {pattern : List (Token α)} {text : List α} :
    accepts same (pattern ++ [.any]) text = true ↔
      ∃ front, front <+: text ∧ accepts same pattern front = true := by
  induction pattern generalizing text with
  | nil =>
    rw [List.nil_append, accepts_any_cons]
    constructor
    · intro _
      exact ⟨[], List.nil_prefix, rfl⟩
    · intro _
      exact ⟨[], List.nil_suffix, rfl⟩
  | cons token pattern ih =>
    rw [List.cons_append]
    cases token with
    | lit a =>
      cases text with
      | nil =>
        constructor
        · intro h
          cases h
        · intro h
          obtain ⟨front, hfront, haccepts⟩ := h
          rw [List.prefix_nil.mp hfront] at haccepts
          cases haccepts
      | cons c text =>
        show (same a c && accepts same (pattern ++ [.any]) text) = true ↔ _
        rw [Bool.and_eq_true, ih]
        constructor
        · intro h
          obtain ⟨hsame, front, hfront, haccepts⟩ := h
          refine ⟨c :: front, (List.prefix_cons_inj c).mpr hfront, ?_⟩
          exact Bool.and_eq_true_iff.mpr ⟨hsame, haccepts⟩
        · intro h
          obtain ⟨front, hfront, haccepts⟩ := h
          cases front with
          | nil => cases haccepts
          | cons d front =>
            obtain ⟨rfl, hrest⟩ := List.cons_prefix_cons.mp hfront
            obtain ⟨hsame, hmore⟩ := Bool.and_eq_true_iff.mp haccepts
            exact ⟨hsame, front, hrest, hmore⟩
    | one =>
      cases text with
      | nil =>
        constructor
        · intro h
          cases h
        · intro h
          obtain ⟨front, hfront, haccepts⟩ := h
          rw [List.prefix_nil.mp hfront] at haccepts
          cases haccepts
      | cons c text =>
        show accepts same (pattern ++ [.any]) text = true ↔ _
        rw [ih]
        constructor
        · intro h
          obtain ⟨front, hfront, haccepts⟩ := h
          exact ⟨c :: front, (List.prefix_cons_inj c).mpr hfront, haccepts⟩
        · intro h
          obtain ⟨front, hfront, haccepts⟩ := h
          cases front with
          | nil => cases haccepts
          | cons d front => exact ⟨front, (List.cons_prefix_cons.mp hfront).2, haccepts⟩
    | any =>
      rw [accepts_any_cons]
      constructor
      · intro h
        obtain ⟨rest, hrest, haccepts⟩ := h
        obtain ⟨before, rfl⟩ := hrest
        obtain ⟨front, hfront, hmore⟩ := ih.mp haccepts
        refine ⟨before ++ front, (List.prefix_append_right_inj before).mpr hfront, ?_⟩
        exact accepts_any_cons.mpr ⟨front, List.suffix_append before front, hmore⟩
      · intro h
        obtain ⟨front, ⟨after, rfl⟩, haccepts⟩ := h
        obtain ⟨rest, ⟨before, rfl⟩, hmore⟩ := accepts_any_cons.mp haccepts
        refine ⟨rest ++ after, ⟨before, by rw [List.append_assoc]⟩, ?_⟩
        exact ih.mpr ⟨rest, List.prefix_append rest after, hmore⟩

/-- A pattern of letters accepts the texts with the same letters. -/
theorem accepts_lits {letters text : List α} : accepts same (letters.map .lit) text = true ↔
    List.Forall₂ (fun a c => same a c = true) letters text := by
  induction letters generalizing text with
  | nil =>
    rw [List.map_nil, List.forall₂_nil_left_iff]
    exact List.isEmpty_iff
  | cons a letters ih =>
    cases text with
    | nil =>
      constructor
      · intro h
        cases h
      · intro h
        cases h
    | cons c text =>
      show (same a c && accepts same (letters.map .lit) text) = true ↔ _
      rw [Bool.and_eq_true, ih, List.forall₂_cons]

/-! ## Texts that a pattern accepts -/

/-- A text with a letter for each letter and each single one, and nothing else. -/
def fill (letter : α → α) (single : α) : List (Token α) → List α
  | [] => []
  | .lit a :: pattern => letter a :: fill letter single pattern
  | .one :: pattern => single :: fill letter single pattern
  | .any :: pattern => fill letter single pattern

theorem accepts_fill {letter : α → α} (hsame : ∀ a, same a (letter a) = true) (single : α)
    (pattern : List (Token α)) : accepts same pattern (fill letter single pattern) = true := by
  induction pattern with
  | nil => rfl
  | cons token pattern ih =>
    cases token with
    | lit a => exact Bool.and_eq_true_iff.mpr ⟨hsame a, ih⟩
    | one => exact ih
    | any => exact accepts_any_cons.mpr ⟨_, List.suffix_refl _, ih⟩

/-! ## Reading patterns -/

/-- A pattern without escapes. -/
def plainTokens : List Char → List (Token Char)
  | [] => []
  | '%' :: rest => .any :: plainTokens rest
  | '_' :: rest => .one :: plainTokens rest
  | c :: rest => .lit c :: plainTokens rest

/-- A pattern in which a backslash takes the next letter for itself. -/
def escapedTokens : List Char → List (Token Char)
  | [] => []
  | '%' :: rest => .any :: escapedTokens rest
  | '_' :: rest => .one :: escapedTokens rest
  | ['\\'] => [.lit '\\']
  | '\\' :: c :: rest => .lit c :: escapedTokens rest
  | c :: rest => .lit c :: escapedTokens rest

/-- A letter that stands for itself in a pattern without escapes. -/
def Plain (c : Char) : Prop := c ≠ '%' ∧ c ≠ '_'

instance (c : Char) : Decidable (Plain c) := inferInstanceAs (Decidable (c ≠ '%' ∧ c ≠ '_'))

section Plain

variable {letters : List Char} {c : Char}

theorem plainTokens_cons (h : Plain c) (rest : List Char) :
    plainTokens (c :: rest) = .lit c :: plainTokens rest := by
  rw [plainTokens]
  · exact h.1
  · exact h.2

theorem plainTokens_append_any (letters : List Char) :
    plainTokens (letters ++ ['%']) = plainTokens letters ++ [.any] := by
  induction letters with
  | nil => rfl
  | cons c rest ih =>
    rw [List.cons_append]
    by_cases hpercent : c = '%'
    · rw [hpercent, plainTokens, plainTokens, ih, List.cons_append]
    by_cases hunderscore : c = '_'
    · rw [hunderscore, plainTokens, plainTokens, ih, List.cons_append]
    · rw [plainTokens_cons ⟨hpercent, hunderscore⟩, plainTokens_cons ⟨hpercent, hunderscore⟩, ih,
        List.cons_append]

theorem plainTokens_eq_lits (h : ∀ c ∈ letters, Plain c) :
    plainTokens letters = letters.map .lit := by
  induction letters with
  | nil => rfl
  | cons c rest ih =>
    rw [plainTokens_cons (h c List.mem_cons_self), List.map_cons,
      ih fun c hc => h c (List.mem_cons_of_mem _ hc)]

theorem length_fill_plainTokens (letter : Char → Char) (single : Char) (letters : List Char) :
    (fill letter single (plainTokens letters)).length ≤ letters.length := by
  induction letters with
  | nil => exact Nat.le_refl 0
  | cons c rest ih =>
    by_cases hpercent : c = '%'
    · rw [hpercent, plainTokens, fill, List.length_cons]
      omega
    by_cases hunderscore : c = '_'
    · rw [hunderscore, plainTokens, fill, List.length_cons, List.length_cons]
      omega
    · rw [plainTokens_cons ⟨hpercent, hunderscore⟩, fill, List.length_cons, List.length_cons]
      omega

/-- The filled pattern starts with its own text only where every letter stands for itself
and is filled by itself. -/
theorem plain_of_prefix_fill {letter : Char → Char} {single : Char} (hsingle : single ≠ '_')
    (h : letters <+: fill letter single (plainTokens letters)) :
    ∀ c ∈ letters, Plain c ∧ letter c = c := by
  induction letters with
  | nil =>
    intro c hc
    cases hc
  | cons c rest ih =>
    have hlength := h.length_le
    have hrest := length_fill_plainTokens letter single rest
    by_cases hpercent : c = '%'
    · rw [hpercent, plainTokens, fill, List.length_cons] at hlength
      omega
    by_cases hunderscore : c = '_'
    · rw [hunderscore, plainTokens, fill] at h
      exact absurd (List.cons_prefix_cons.mp h).1.symm hsingle
    · rw [plainTokens_cons ⟨hpercent, hunderscore⟩, fill] at h
      obtain ⟨hsame, hmore⟩ := List.cons_prefix_cons.mp h
      intro d hd
      rcases List.mem_cons.mp hd with heq | hd
      · rw [heq]
        exact ⟨⟨hpercent, hunderscore⟩, hsame.symm⟩
      · exact ih hmore d hd

end Plain

/-- A letter that stands for itself in a pattern with escapes. -/
def Bare (c : Char) : Prop := Plain c ∧ c ≠ '\\'

instance (c : Char) : Decidable (Bare c) := inferInstanceAs (Decidable (Plain c ∧ c ≠ '\\'))

section Bare

variable {letters : List Char} {c : Char}

theorem escapedTokens_cons (h : Bare c) (rest : List Char) :
    escapedTokens (c :: rest) = .lit c :: escapedTokens rest := by
  rw [escapedTokens]
  · exact h.1.1
  · exact h.1.2
  · intro heq _
    exact h.2 heq
  · intro d more heq _
    exact h.2 heq

theorem escapedTokens_eq_lits (h : ∀ c ∈ letters, Bare c) :
    escapedTokens (letters ++ ['%']) = letters.map .lit ++ [.any] := by
  induction letters with
  | nil => rfl
  | cons c rest ih =>
    rw [List.cons_append, escapedTokens_cons (h c List.mem_cons_self), List.map_cons,
      List.cons_append, ih fun c hc => h c (List.mem_cons_of_mem _ hc)]

/-- The wildcard at the end adds nothing, also where a backslash takes it. -/
theorem length_fill_escapedTokens (letter : Char → Char) (single : Char) (letters : List Char) :
    (fill letter single (escapedTokens (letters ++ ['%']))).length ≤ letters.length := by
  induction letters using escapedTokens.induct with
  | case1 => exact Nat.le_refl 0
  | case2 rest ih =>
    rw [List.cons_append, escapedTokens, fill, List.length_cons]
    omega
  | case3 rest ih =>
    rw [List.cons_append, escapedTokens, fill, List.length_cons, List.length_cons]
    omega
  | case4 => exact Nat.le_refl 1
  | case5 c rest ih =>
    rw [List.cons_append, List.cons_append, escapedTokens, fill, List.length_cons,
      List.length_cons, List.length_cons]
    omega
  | case6 c rest hpercent hunderscore hlast hescape ih =>
    have hbackslash : c ≠ '\\' := by
      intro heq
      cases rest with
      | nil => exact hlast heq rfl
      | cons d more => exact hescape d more heq rfl
    rw [List.cons_append, escapedTokens_cons ⟨⟨hpercent, hunderscore⟩, hbackslash⟩, fill,
      List.length_cons, List.length_cons]
    omega

theorem bare_of_prefix_fill {single : Char} (hsingle : single ≠ '_')
    (h : letters <+: fill id single (escapedTokens (letters ++ ['%']))) :
    ∀ c ∈ letters, Bare c := by
  induction letters with
  | nil =>
    intro c hc
    cases hc
  | cons c rest ih =>
    have hlength := h.length_le
    rw [List.cons_append] at h hlength
    by_cases hpercent : c = '%'
    · have hrest := length_fill_escapedTokens id single rest
      rw [hpercent, escapedTokens, fill, List.length_cons] at hlength
      omega
    by_cases hunderscore : c = '_'
    · rw [hunderscore, escapedTokens, fill] at h
      exact absurd (List.cons_prefix_cons.mp h).1.symm hsingle
    by_cases hescape : c = '\\'
    · rw [hescape] at h hlength
      cases rest with
      | nil => exact absurd (List.cons_prefix_cons.mp h).1 (by decide)
      | cons d more =>
        have hmore := length_fill_escapedTokens id single more
        rw [List.cons_append, escapedTokens, fill, List.length_cons, List.length_cons,
          List.length_cons] at hlength
        omega
    · rw [escapedTokens_cons ⟨⟨hpercent, hunderscore⟩, hescape⟩, fill] at h
      obtain ⟨_, hmore⟩ := List.cons_prefix_cons.mp h
      intro d hd
      rcases List.mem_cons.mp hd with heq | hd
      · rw [heq]
        exact ⟨⟨hpercent, hunderscore⟩, hescape⟩
      · exact ih hmore d hd

end Bare

end Like
end SecureAgnt

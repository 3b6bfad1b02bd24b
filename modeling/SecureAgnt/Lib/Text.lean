/-
String operations of the Rust standard library, read through the character list.

Every operation is defined on `String.toList`, so a statement about a string is
a statement about a list of characters and the kernel evaluates the operations
on literals.
-/
import Mathlib.Algebra.Order.Ring.Int
import Mathlib.Data.List.Basic
import Mathlib.Data.List.DropRight
import Mathlib.Data.List.TakeDrop

namespace SecureAgnt
namespace Text

/-- `str::len`: the number of UTF-8 bytes. -/
def len (s : String) : Nat := s.utf8ByteSize

def isEmpty (s : String) : Bool := s.toList.isEmpty

def startsWith (s start : String) : Bool := start.toList.isPrefixOf s.toList

def endsWith (s tail : String) : Bool := tail.toList.isSuffixOf s.toList

/-- `str::contains` with a string pattern. -/
def contains (s part : String) : Bool :=
  s.toList.tails.any fun t => part.toList.isPrefixOf t

/-- `str::strip_suffix` with a character pattern. -/
def stripSuffixChar (s : String) (c : Char) : Option String :=
  match s.toList.getLast? with
  | some d => if d = c then some (String.ofList s.toList.dropLast) else none
  | none => none

/-- `str::strip_prefix` with a character pattern. -/
def stripPrefixChar (s : String) (c : Char) : Option String :=
  match s.toList with
  | d :: rest => if d = c then some (String.ofList rest) else none
  | [] => none

/-- `str::strip_prefix` with a string pattern. -/
def stripStart (s start : String) : Option String :=
  if startsWith s start then some (String.ofList (s.toList.drop start.toList.length)) else none

/-- The Unicode `White_Space` property, which `char::is_whitespace` tests. -/
def isWhitespace (c : Char) : Bool :=
  let n := c.toNat
  (9 ≤ n && n ≤ 13) || n = 32 || n = 0x85 || n = 0xA0 || n = 0x1680 ||
    (0x2000 ≤ n && n ≤ 0x200A) || n = 0x2028 || n = 0x2029 || n = 0x202F ||
    n = 0x205F || n = 0x3000

def trimStart (cs : List Char) : List Char := cs.dropWhile isWhitespace

def trimEnd (cs : List Char) : List Char := (cs.reverse.dropWhile isWhitespace).reverse

/-- `str::trim`. -/
def trim (s : String) : String := String.ofList (trimEnd (trimStart s.toList))

/-- `str::trim_end_matches` with a character pattern. -/
def trimEndChar (s : String) (c : Char) : String :=
  String.ofList (s.toList.reverse.dropWhile (· == c)).reverse

/-- `str::trim_matches` with a character pattern. -/
def trimChar (s : String) (c : Char) : String :=
  trimEndChar (String.ofList (s.toList.dropWhile (· == c))) c

/-- `trim` followed by a test that something is left. -/
def nonEmptyTrimmed (s : String) : Option String :=
  let t := trim s
  if isEmpty t then none else some t

def asciiLower (c : Char) : Char :=
  if 65 ≤ c.toNat && c.toNat ≤ 90 then Char.ofNat (c.toNat + 32) else c

def toAsciiLowercase (s : String) : String := String.ofList (s.toList.map asciiLower)

def eqIgnoreAsciiCase (s t : String) : Bool := toAsciiLowercase s == toAsciiLowercase t

/-- `str::split_once` with a character pattern. -/
def splitOnce (s : String) (c : Char) : Option (String × String) :=
  match s.toList.span (fun d => d != c) with
  | (before, _ :: after) => some (String.ofList before, String.ofList after)
  | (_, []) => none

/-- `str::split` with a character pattern: the pieces between separators, empty
pieces included. -/
def splitChars (isSep : Char → Bool) : List Char → List (List Char)
  | [] => [[]]
  | c :: cs =>
    match splitChars isSep cs with
    | [] => [[]]
    | piece :: rest => if isSep c then [] :: piece :: rest else (c :: piece) :: rest

def split (s : String) (isSep : Char → Bool) : List String :=
  (splitChars isSep s.toList).map String.ofList

theorem startsWith_iff {s start : String} :
    startsWith s start = true ↔ start.toList <+: s.toList := by
  simp [startsWith]

theorem stripSuffixChar_eq_some {s stem : String} {c : Char} :
    stripSuffixChar s c = some stem ↔ s.toList = stem.toList ++ [c] := by
  unfold stripSuffixChar
  constructor
  · intro h
    split at h
    · rename_i d hd
      split at h
      · rename_i hdc
        cases h
        rw [String.toList_ofList]
        exact (List.dropLast_append_getLast? c (hdc ▸ hd)).symm
      · cases h
    · cases h
  · intro h
    rw [h]
    simp

/-- A text without white space at its start keeps its first character. -/
theorem trimStart_trimEnd {cs : List Char} (h : trimStart cs = cs) :
    trimStart (trimEnd cs) = trimEnd cs := by
  cases cs with
  | nil => rfl
  | cons c rest =>
    have hc : ¬ isWhitespace c = true := by
      intro hc
      have hlength := congrArg List.length h
      have hle := (List.dropWhile_suffix isWhitespace (l := rest)).length_le
      rw [trimStart, List.dropWhile_cons_of_pos hc, List.length_cons] at hlength
      omega
    cases htrim : trimEnd (c :: rest) with
    | nil => rfl
    | cons d more =>
      have hlead : trimEnd (c :: rest) <+: c :: rest := List.rdropWhile_prefix isWhitespace _
      rw [htrim, List.cons_prefix_cons] at hlead
      rw [hlead.1, trimStart, List.dropWhile_cons_of_neg hc]

/-- A text with no space at its ends is its own trimmed text. -/
theorem trim_eq_self {s : String} {first last : Char} (hhead : s.toList.head? = some first)
    (hlast : s.toList.getLast? = some last) (hfirst : isWhitespace first = false)
    (hend : isWhitespace last = false) : trim s = s := by
  have hstart : trimStart s.toList = s.toList := by
    obtain ⟨rest, hcons⟩ := List.head?_eq_some_iff.mp hhead
    rw [hcons, trimStart, List.dropWhile_cons_of_neg (by simp [hfirst])]
  have hstop : trimEnd s.toList = s.toList := by
    obtain ⟨init, hconcat⟩ := List.getLast?_eq_some_iff.mp hlast
    rw [hconcat, trimEnd, List.reverse_append, List.reverse_singleton, List.singleton_append,
      List.dropWhile_cons_of_neg (by simp [hend]), List.reverse_cons, List.reverse_reverse]
  rw [trim, hstart, hstop, String.ofList_toList]

theorem trim_trim (s : String) : trim (trim s) = trim s := by
  have hstart : trimStart (trimStart s.toList) = trimStart s.toList :=
    List.dropWhile_idempotent isWhitespace s.toList
  have hend : trimEnd (trimEnd (trimStart s.toList)) = trimEnd (trimStart s.toList) :=
    List.rdropWhile_idempotent isWhitespace (trimStart s.toList)
  rw [trim, trim, String.toList_ofList, trimStart_trimEnd hstart, hend]

theorem asciiLower_of_upper {c : Char} (h : 65 ≤ c.toNat) (h' : c.toNat ≤ 90) :
    (asciiLower c).toNat = c.toNat + 32 := by
  have hletter : ∀ n < 91, 65 ≤ n → (Char.ofNat (n + 32)).toNat = n + 32 := by decide
  unfold asciiLower
  rw [if_pos (by simp [h, h'])]
  exact hletter c.toNat (by omega) h

theorem asciiLower_of_not_upper {c : Char} (h : ¬ (65 ≤ c.toNat ∧ c.toNat ≤ 90)) :
    asciiLower c = c := if_neg (by simpa using h)

theorem asciiLower_asciiLower (c : Char) : asciiLower (asciiLower c) = asciiLower c := by
  by_cases h : 65 ≤ c.toNat ∧ c.toNat ≤ 90
  · have hlower := asciiLower_of_upper h.1 h.2
    exact asciiLower_of_not_upper (by omega)
  · rw [asciiLower_of_not_upper h, asciiLower_of_not_upper h]

def isAsciiAlphabetic (c : Char) : Bool :=
  (65 ≤ c.toNat && c.toNat ≤ 90) || (97 ≤ c.toNat && c.toNat ≤ 122)

theorem isAsciiAlphabetic_iff {c : Char} : isAsciiAlphabetic c = true ↔
    65 ≤ c.toNat ∧ c.toNat ≤ 90 ∨ 97 ≤ c.toNat ∧ c.toNat ≤ 122 := by
  simp only [isAsciiAlphabetic, Bool.or_eq_true, Bool.and_eq_true, decide_eq_true_eq]

/-- The letter of the other case. -/
def asciiSwap (c : Char) : Char :=
  if 97 ≤ c.toNat && c.toNat ≤ 122 then Char.ofNat (c.toNat - 32) else asciiLower c

theorem asciiSwap_of_lower {c : Char} (h : 97 ≤ c.toNat) (h' : c.toNat ≤ 122) :
    (asciiSwap c).toNat = c.toNat - 32 := by
  have hletter : ∀ n < 123, 97 ≤ n → (Char.ofNat (n - 32)).toNat = n - 32 := by decide
  unfold asciiSwap
  rw [if_pos (by simp [h, h'])]
  exact hletter c.toNat (by omega) h

theorem asciiSwap_of_not_lower {c : Char} (h : ¬ (97 ≤ c.toNat ∧ c.toNat ≤ 122)) :
    asciiSwap c = asciiLower c := if_neg (by simpa using h)

theorem asciiLower_asciiSwap (c : Char) : asciiLower (asciiSwap c) = asciiLower c := by
  by_cases h : 97 ≤ c.toNat ∧ c.toNat ≤ 122
  · have hswap := asciiSwap_of_lower h.1 h.2
    have hupper := asciiLower_of_upper (c := asciiSwap c) (by omega) (by omega)
    have hkept : asciiLower c = c := asciiLower_of_not_upper (by omega)
    rw [hkept]
    exact Char.toNat_inj.mp (by omega)
  · rw [asciiSwap_of_not_lower h, asciiLower_asciiLower]

/-- Only a letter has another case. -/
theorem isAsciiAlphabetic_of_asciiSwap {c : Char} (h : asciiSwap c = c) :
    isAsciiAlphabetic c = false := by
  rw [← Bool.not_eq_true, isAsciiAlphabetic_iff]
  intro hletter
  have hsame := congrArg Char.toNat h
  rcases hletter with hupper | hlower
  · rw [asciiSwap_of_not_lower (by omega)] at hsame
    have hlower := asciiLower_of_upper hupper.1 hupper.2
    omega
  · have hswap := asciiSwap_of_lower hlower.1 hlower.2
    omega

theorem eq_of_asciiLower_eq {c d : Char} (hc : isAsciiAlphabetic c = false)
    (h : asciiLower c = asciiLower d) : c = d := by
  rw [← Bool.not_eq_true, isAsciiAlphabetic_iff] at hc
  have hkept : asciiLower c = c := asciiLower_of_not_upper (by omega)
  rw [hkept] at h
  by_cases hd : 65 ≤ d.toNat ∧ d.toNat ≤ 90
  · have hlower := asciiLower_of_upper hd.1 hd.2
    have hsame := congrArg Char.toNat h
    omega
  · rw [h, asciiLower_of_not_upper hd]

theorem isWhitespace_asciiLower (c : Char) : isWhitespace (asciiLower c) = isWhitespace c := by
  by_cases h : 65 ≤ c.toNat ∧ c.toNat ≤ 90
  · have hlower := asciiLower_of_upper h.1 h.2
    have hletter : ∀ d : Char, 65 ≤ d.toNat → d.toNat ≤ 122 → isWhitespace d = false := by
      intro d hlow hhigh
      simp only [isWhitespace, Bool.or_eq_false_iff, Bool.and_eq_false_iff, decide_eq_false_iff_not]
      omega
    rw [hletter c h.1 (by omega), hletter _ (by omega) (by omega)]
  · rw [asciiLower_of_not_upper h]

theorem trimStart_lower (cs : List Char) :
    trimStart (cs.map asciiLower) = (trimStart cs).map asciiLower := by
  unfold trimStart
  rw [List.dropWhile_map, funext (f := isWhitespace ∘ asciiLower) isWhitespace_asciiLower]

theorem trimEnd_lower (cs : List Char) :
    trimEnd (cs.map asciiLower) = (trimEnd cs).map asciiLower := by
  have h := trimStart_lower cs.reverse
  unfold trimStart at h
  unfold trimEnd
  rw [← List.map_reverse, h, List.map_reverse]

/-- Lower case letters are spaces where the letters were. -/
theorem trim_toAsciiLowercase (s : String) :
    trim (toAsciiLowercase s) = toAsciiLowercase (trim s) := by
  unfold trim toAsciiLowercase
  rw [String.toList_ofList, String.toList_ofList, trimStart_lower, trimEnd_lower]

theorem toAsciiLowercase_toAsciiLowercase (s : String) :
    toAsciiLowercase (toAsciiLowercase s) = toAsciiLowercase s := by
  unfold toAsciiLowercase
  rw [String.toList_ofList, List.map_map, funext (f := asciiLower ∘ asciiLower) asciiLower_asciiLower]

/-- What is left of a text that was trimmed is left again. -/
theorem nonEmptyTrimmed_eq_some {s t : String} (h : nonEmptyTrimmed s = some t) :
    t = trim s ∧ nonEmptyTrimmed t = some t := by
  unfold nonEmptyTrimmed at h ⊢
  by_cases hempty : isEmpty (trim s) = true
  · simp [hempty] at h
  · have ht : trim s = t := by simpa [hempty] using h
    subst ht
    simp [trim_trim, hempty]

theorem mem_of_mem_trim {s : String} {c : Char} (h : c ∈ (trim s).toList) : c ∈ s.toList := by
  rw [trim, String.toList_ofList] at h
  have hend : c ∈ trimStart s.toList := (List.rdropWhile_prefix isWhitespace _).subset h
  exact (List.dropWhile_suffix isWhitespace).subset hend

theorem mem_of_mem_stripStart {s start rest : String} {c : Char}
    (hrest : stripStart s start = some rest) (h : c ∈ rest.toList) : c ∈ s.toList := by
  unfold stripStart at hrest
  split at hrest
  · cases hrest
    rw [String.toList_ofList] at h
    exact List.mem_of_mem_drop h
  · cases hrest

theorem splitOnce_eq_some {s before after : String} {c : Char}
    (h : splitOnce s c = some (before, after)) : s.toList = before.toList ++ c :: after.toList := by
  unfold splitOnce at h
  rw [List.span_eq_takeWhile_dropWhile] at h
  have hsplit := List.takeWhile_append_dropWhile (p := fun d => d != c) (l := s.toList)
  cases hdrop : s.toList.dropWhile fun d => d != c with
  | nil =>
    rw [hdrop] at h
    cases h
  | cons d rest =>
    have hd : d = c := by
      have hhead := List.head?_dropWhile_not (fun d => d != c) s.toList
      rw [hdrop] at hhead
      simpa using hhead
    rw [hdrop] at h
    cases h
    rw [String.toList_ofList, String.toList_ofList, ← hd, ← hdrop, hd, hsplit]

/-- The first part has no separator. -/
theorem splitOnce_join {before after : String} {c : Char} (h : c ∉ before.toList) :
    splitOnce (String.ofList (before.toList ++ c :: after.toList)) c = some (before, after) := by
  have hbefore : ∀ d ∈ before.toList, (d != c) = true := by
    intro d hd
    exact bne_iff_ne.mpr fun hdc => h (hdc ▸ hd)
  unfold splitOnce
  rw [String.toList_ofList, List.span_eq_takeWhile_dropWhile,
    List.takeWhile_append_of_pos hbefore, List.dropWhile_append_of_pos hbefore]
  simp [String.ofList_toList]

/-- One character for each byte. -/
def ofBytes (bytes : ByteArray) : String := String.ofList (bytes.data.toList.map Char.ofUInt8)

theorem ofBytes_injective : Function.Injective ofBytes := by
  intro x y h
  have hlist := String.ofList_injective h
  have hchar : Function.Injective Char.ofUInt8 := by
    intro c d hcd
    exact UInt8.toUInt32_inj.mp (congrArg Char.val hcd)
  exact ByteArray.ext (Array.toList_inj.mp (List.map_injective_iff.mpr hchar hlist))

end Text
end SecureAgnt

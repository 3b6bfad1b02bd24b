/-
Byte offsets into a text.

A text is measured in the bytes of its UTF-8 form.  Cutting it at an offset that is not
between two characters panics, which is `none` here; going back from an offset to the
nearest boundary always leads to one.
-/
import SecureAgnt.Lib.Text

namespace SecureAgnt
namespace Text

def bytes (cs : List Char) : Nat := (cs.map Char.utf8Size).sum

@[simp] theorem bytes_nil : bytes [] = 0 := rfl

@[simp] theorem bytes_cons (c : Char) (cs : List Char) :
    bytes (c :: cs) = c.utf8Size + bytes cs := by
  simp [bytes]

@[simp] theorem bytes_append (cs ds : List Char) : bytes (cs ++ ds) = bytes cs + bytes ds := by
  simp [bytes]

theorem len_append (s t : String) : len (s ++ t) = len s + len t := String.utf8ByteSize_append

theorem len_singleton (c : Char) : len (String.singleton c) = c.utf8Size :=
  String.utf8ByteSize_singleton

theorem len_ofList (cs : List Char) : len (String.ofList cs) = bytes cs := by
  induction cs with
  | nil => rfl
  | cons c cs ih =>
    have hcons : String.ofList (c :: cs) = String.singleton c ++ String.ofList cs := by
      rw [← List.singleton_append, String.ofList_append]
      rfl
    rw [hcons, len_append, len_singleton, ih, bytes_cons]

theorem len_eq (s : String) : len s = bytes s.toList := by
  rw [← len_ofList, String.ofList_toList]

theorem bytes_eq_zero {cs : List Char} : bytes cs = 0 ↔ cs = [] := by
  cases cs with
  | nil => simp
  | cons c cs =>
    have hpos := c.utf8Size_pos
    rw [bytes_cons]
    constructor
    · intro h
      omega
    · intro h
      cases h

/-! ## Cutting at an offset -/

/-- The text before a byte offset and the text from it on. -/
def cutAt : Nat → List Char → Option (List Char × List Char)
  | 0, cs => some ([], cs)
  | _ + 1, [] => none
  | n + 1, c :: cs =>
    if c.utf8Size ≤ n + 1 then (cutAt (n + 1 - c.utf8Size) cs).map fun (before, after) =>
      (c :: before, after)
    else none

/-- `str::is_char_boundary`. -/
def isCharBoundary (cs : List Char) (idx : Nat) : Bool := (cutAt idx cs).isSome

/-- `&value[..end]`. -/
def sliceTo (value : String) (stop : Nat) : Option String :=
  (cutAt stop value.toList).map fun cut => String.ofList cut.1

/-- `&value[start..]`. -/
def sliceFrom (value : String) (start : Nat) : Option String :=
  (cutAt start value.toList).map fun cut => String.ofList cut.2

/-- `&value[start..end]`. -/
def sliceBetween (cs : List Char) (start stop : Nat) : Option (List Char) :=
  (cutAt stop cs).bind fun cut => (cutAt start cut.1).map (·.2)

theorem cutAt_append (before after : List Char) :
    cutAt (bytes before) (before ++ after) = some (before, after) := by
  induction before with
  | nil => rw [bytes_nil, List.nil_append, cutAt]
  | cons c before ih =>
    have hpos := c.utf8Size_pos
    obtain ⟨n, hn⟩ : ∃ n, bytes (c :: before) = n + 1 :=
      Nat.exists_eq_succ_of_ne_zero (by rw [bytes_cons]; omega)
    have hrest : n + 1 - c.utf8Size = bytes before := by
      rw [← hn, bytes_cons]
      omega
    have hle : c.utf8Size ≤ n + 1 := by
      rw [← hn, bytes_cons]
      omega
    rw [hn, List.cons_append, cutAt, if_pos hle, hrest, ih]
    rfl

theorem of_cutAt {cs before after : List Char} {n : Nat} (h : cutAt n cs = some (before, after)) :
    cs = before ++ after ∧ bytes before = n := by
  induction cs generalizing n before with
  | nil =>
    cases n with
    | zero =>
      cases h
      exact ⟨rfl, rfl⟩
    | succ n => cases h
  | cons c cs ih =>
    cases n with
    | zero =>
      rw [cutAt] at h
      cases h
      exact ⟨rfl, rfl⟩
    | succ n =>
      rw [cutAt] at h
      by_cases hle : c.utf8Size ≤ n + 1
      · rw [if_pos hle] at h
        obtain ⟨cut, hcut, hpair⟩ := Option.map_eq_some_iff.mp h
        obtain ⟨before', after'⟩ := cut
        cases hpair
        obtain ⟨hcs, hbytes⟩ := ih hcut
        refine ⟨by rw [hcs, List.cons_append], ?_⟩
        rw [bytes_cons, hbytes]
        omega
      · rw [if_neg hle] at h
        cases h

/-! ## The nearest boundary -/

/-- The offset is lowered until it is a boundary. -/
def backToBoundary (cs : List Char) : Nat → Nat
  | 0 => 0
  | n + 1 => if isCharBoundary cs (n + 1) then n + 1 else backToBoundary cs n

theorem backToBoundary_eq {cs : List Char} {k n : Nat} (hk : isCharBoundary cs k = true)
    (hkn : k ≤ n) (hnone : ∀ m, k < m → m ≤ n → isCharBoundary cs m = false) :
    backToBoundary cs n = k := by
  induction n with
  | zero => exact (Nat.le_zero.mp hkn).symm
  | succ n ih =>
    rw [backToBoundary]
    by_cases hend : k = n + 1
    · rw [if_pos (by rw [← hend]; exact hk), hend]
    · have hoff := hnone (n + 1) (by omega) (Nat.le_refl _)
      rw [if_neg (by rw [hoff]; decide)]
      exact ih (by omega) fun m hkm hmn => hnone m hkm (by omega)

/-- Where a text splits so that its next character does not fit, going back from the
offset leads there. -/
theorem backToBoundary_append {before after : List Char} {n : Nat} (hfit : bytes before ≤ n)
    (hnext : ∀ c rest, after = c :: rest → n < bytes before + c.utf8Size) :
    backToBoundary (before ++ after) n = bytes before := by
  refine backToBoundary_eq (by rw [isCharBoundary, cutAt_append]; rfl) hfit ?_
  intro m hlow hhigh
  cases hcut : cutAt m (before ++ after) with
  | none => rw [isCharBoundary, hcut, Option.isSome_none]
  | some cut =>
    obtain ⟨before', after'⟩ := cut
    obtain ⟨hsplit, hbytes⟩ := of_cutAt hcut
    exfalso
    rcases List.append_eq_append_iff.mp hsplit with ⟨more, hbefore', hafter⟩ | ⟨more, hbefore, _⟩
    · cases more with
      | nil =>
        rw [hbefore', List.append_nil] at hbytes
        omega
      | cons c more =>
        have hc := hnext c (more ++ after') (by rw [hafter, List.cons_append])
        rw [hbefore', bytes_append, bytes_cons] at hbytes
        omega
    · rw [hbefore, bytes_append] at hlow
      omega

end Text
end SecureAgnt

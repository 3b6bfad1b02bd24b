/-
The two scans of a text, as recursions on what is left of it.

`redactNsec` and `redactBearer` are the scans with fuel enough, and each has its own
induction: a scan stops at a match and goes on behind it, or passes one character.
Up to its first replacement a scan copies the text.
-/
import Mathlib.Data.List.Infix
import Mathlib.Data.List.TakeWhile
import SecureAgnt.Redaction

namespace SecureAgnt
namespace Redaction

/-! ## The scan for keys -/

def nsecStart : List Char := "nsec1".toList

def redactNsec (cs : List Char) : List Char := redactPrefixedTokenChars nsecStart cs.length cs

/-- What follows `nsec1`, as far as the token goes. -/
def nsecBody (cs : List Char) : List Char := (cs.drop nsecStart.length).takeWhile isTokenChar

def nsecRest (cs : List Char) : List Char := (cs.drop nsecStart.length).dropWhile isTokenChar

theorem nsecStart_token : ∀ c ∈ nsecStart, isTokenChar c = true :=
  List.all_eq_true.mp (by decide)

theorem nsec_split {cs : List Char} (h : nsecStart <+: cs) :
    nsecStart ++ nsecBody cs ++ nsecRest cs = cs := by
  rw [List.append_assoc, nsecBody, nsecRest, List.takeWhile_append_dropWhile]
  exact List.prefix_iff_eq_append.mp h

theorem nsecRest_length {cs : List Char} (h : nsecStart <+: cs) :
    (nsecRest cs).length < cs.length := by
  have hlength := congrArg List.length (nsec_split h)
  simp only [List.length_append] at hlength
  have hstart : nsecStart.length = 5 := rfl
  omega

theorem drop_takeWhile {α : Type} (p : α → Bool) (l : List α) :
    l.drop (l.takeWhile p).length = l.dropWhile p := by
  conv => lhs; arg 2; rw [← List.takeWhile_append_dropWhile (p := p) (l := l)]
  exact List.drop_left

theorem redactPrefixedTokenChars_match {fuel : Nat} {c : Char} {cs : List Char}
    (h : nsecStart <+: c :: cs) :
    redactPrefixedTokenChars nsecStart (fuel + 1) (c :: cs) =
      (if 16 ≤ (nsecBody (c :: cs)).length then redacted.toList
        else nsecStart ++ nsecBody (c :: cs)) ++
        redactPrefixedTokenChars nsecStart fuel (nsecRest (c :: cs)) := by
  rw [redactPrefixedTokenChars, if_pos (List.isPrefixOf_iff_prefix.mpr h)]
  dsimp only
  rw [drop_takeWhile]
  rfl

theorem redactPrefixedTokenChars_pass {fuel : Nat} {c : Char} {cs : List Char}
    (h : ¬ nsecStart <+: c :: cs) :
    redactPrefixedTokenChars nsecStart (fuel + 1) (c :: cs) =
      c :: redactPrefixedTokenChars nsecStart fuel cs := by
  rw [redactPrefixedTokenChars, if_neg (fun hp => h (List.isPrefixOf_iff_prefix.mp hp))]

/-- The scan goes on behind a match, or passes one character. -/
theorem nsec_induction {motive : List Char → Prop} (nil : motive [])
    (found : ∀ cs, nsecStart <+: cs → motive (nsecRest cs) → motive cs)
    (pass : ∀ c cs, ¬ nsecStart <+: c :: cs → motive cs → motive (c :: cs)) (cs : List Char) :
    motive cs := by
  induction hn : cs.length using Nat.strong_induction_on generalizing cs with
  | _ n ih =>
    subst hn
    by_cases h : nsecStart <+: cs
    · exact found cs h (ih _ (nsecRest_length h) _ rfl)
    · cases cs with
      | nil => exact nil
      | cons c cs => exact pass c cs h (ih _ (Nat.lt_succ_self _) _ rfl)

/-- More fuel than the length of the text makes no difference. -/
theorem redactPrefixedTokenChars_fuel (cs : List Char) :
    ∀ fuel, cs.length ≤ fuel → redactPrefixedTokenChars nsecStart fuel cs = redactNsec cs := by
  induction cs using nsec_induction with
  | nil =>
    intro fuel _
    cases fuel <;> rfl
  | found cs h ih =>
    intro fuel hfuel
    have hlength := nsecRest_length h
    cases cs with
    | nil => cases hlength
    | cons c cs =>
      cases fuel with
      | zero => cases hfuel
      | succ fuel =>
        rw [List.length_cons] at hlength hfuel
        rw [redactNsec, List.length_cons, redactPrefixedTokenChars_match h,
          redactPrefixedTokenChars_match h, ih fuel (by omega), ih cs.length (by omega)]
  | pass c cs h ih =>
    intro fuel hfuel
    cases fuel with
    | zero => cases hfuel
    | succ fuel =>
      rw [List.length_cons] at hfuel
      rw [redactNsec, List.length_cons, redactPrefixedTokenChars_pass h,
        redactPrefixedTokenChars_pass h, ih fuel (by omega)]
      rfl

theorem redactNsec_nil : redactNsec [] = [] := rfl

theorem redactNsec_long {cs : List Char} (h : nsecStart <+: cs) (hlong : 16 ≤ (nsecBody cs).length) :
    redactNsec cs = redacted.toList ++ redactNsec (nsecRest cs) := by
  have hlength := nsecRest_length h
  cases cs with
  | nil => cases hlength
  | cons c cs =>
    rw [List.length_cons] at hlength
    rw [redactNsec, List.length_cons, redactPrefixedTokenChars_match h, if_pos hlong,
      redactPrefixedTokenChars_fuel _ _ (by omega)]

theorem redactNsec_short {cs : List Char} (h : nsecStart <+: cs)
    (hshort : ¬ 16 ≤ (nsecBody cs).length) :
    redactNsec cs = nsecStart ++ nsecBody cs ++ redactNsec (nsecRest cs) := by
  have hlength := nsecRest_length h
  cases cs with
  | nil => cases hlength
  | cons c cs =>
    rw [List.length_cons] at hlength
    rw [redactNsec, List.length_cons, redactPrefixedTokenChars_match h, if_neg hshort,
      redactPrefixedTokenChars_fuel _ _ (by omega)]

theorem redactNsec_pass {c : Char} {cs : List Char} (h : ¬ nsecStart <+: c :: cs) :
    redactNsec (c :: cs) = c :: redactNsec cs := by
  rw [redactNsec, List.length_cons, redactPrefixedTokenChars_pass h]
  rfl

/-! ## The scan for bearer tokens -/

def redactBearer (cs : List Char) : List Char := redactBearerTokenChars cs.length cs

/-- The text starts with the marker, in any letter case. -/
def StartsBearer (cs : List Char) : Prop := bearerMarker <+: cs.map Text.asciiLower

def bearerRest (cs : List Char) : List Char :=
  (cs.drop bearerMarker.length).dropWhile fun c => !isTerminator c

theorem bearerRest_length {cs : List Char} (h : StartsBearer cs) :
    (bearerRest cs).length < cs.length := by
  have hlength := h.length_le
  rw [List.length_map] at hlength
  have hmarker : bearerMarker.length = 7 := rfl
  have hdrop := ((cs.drop bearerMarker.length).dropWhile_sublist fun c => !isTerminator c).length_le
  rw [List.length_drop] at hdrop
  unfold bearerRest
  omega

theorem redactBearerTokenChars_match {fuel : Nat} {c : Char} {cs : List Char}
    (h : StartsBearer (c :: cs)) :
    redactBearerTokenChars (fuel + 1) (c :: cs) =
      (c :: cs).take bearerMarker.length ++ redacted.toList ++
        redactBearerTokenChars fuel (bearerRest (c :: cs)) := by
  rw [redactBearerTokenChars, if_pos (List.isPrefixOf_iff_prefix.mpr h)]
  rfl

theorem redactBearerTokenChars_pass {fuel : Nat} {c : Char} {cs : List Char}
    (h : ¬ StartsBearer (c :: cs)) :
    redactBearerTokenChars (fuel + 1) (c :: cs) = c :: redactBearerTokenChars fuel cs := by
  rw [redactBearerTokenChars, if_neg (fun hp => h (List.isPrefixOf_iff_prefix.mp hp))]

/-- The scan goes on behind a token, or passes one character. -/
theorem bearer_induction {motive : List Char → Prop} (nil : motive [])
    (found : ∀ cs, StartsBearer cs → motive (bearerRest cs) → motive cs)
    (pass : ∀ c cs, ¬ StartsBearer (c :: cs) → motive cs → motive (c :: cs)) (cs : List Char) :
    motive cs := by
  induction hn : cs.length using Nat.strong_induction_on generalizing cs with
  | _ n ih =>
    subst hn
    by_cases h : StartsBearer cs
    · exact found cs h (ih _ (bearerRest_length h) _ rfl)
    · cases cs with
      | nil => exact nil
      | cons c cs => exact pass c cs h (ih _ (Nat.lt_succ_self _) _ rfl)

theorem redactBearerTokenChars_fuel (cs : List Char) :
    ∀ fuel, cs.length ≤ fuel → redactBearerTokenChars fuel cs = redactBearer cs := by
  induction cs using bearer_induction with
  | nil =>
    intro fuel _
    cases fuel <;> rfl
  | found cs h ih =>
    intro fuel hfuel
    have hlength := bearerRest_length h
    cases cs with
    | nil => cases hlength
    | cons c cs =>
      cases fuel with
      | zero => cases hfuel
      | succ fuel =>
        rw [List.length_cons] at hlength hfuel
        rw [redactBearer, List.length_cons, redactBearerTokenChars_match h,
          redactBearerTokenChars_match h, ih fuel (by omega), ih cs.length (by omega)]
  | pass c cs h ih =>
    intro fuel hfuel
    cases fuel with
    | zero => cases hfuel
    | succ fuel =>
      rw [List.length_cons] at hfuel
      rw [redactBearer, List.length_cons, redactBearerTokenChars_pass h,
        redactBearerTokenChars_pass h, ih fuel (by omega)]
      rfl

theorem redactBearer_nil : redactBearer [] = [] := rfl

theorem redactBearer_found {cs : List Char} (h : StartsBearer cs) :
    redactBearer cs =
      cs.take bearerMarker.length ++ redacted.toList ++ redactBearer (bearerRest cs) := by
  have hlength := bearerRest_length h
  cases cs with
  | nil => cases hlength
  | cons c cs =>
    rw [List.length_cons] at hlength
    rw [redactBearer, List.length_cons, redactBearerTokenChars_match h,
      redactBearerTokenChars_fuel _ _ (by omega)]

theorem redactBearer_pass {c : Char} {cs : List Char} (h : ¬ StartsBearer (c :: cs)) :
    redactBearer (c :: cs) = c :: redactBearer cs := by
  rw [redactBearer, List.length_cons, redactBearerTokenChars_pass h]
  rfl

end Redaction
end SecureAgnt

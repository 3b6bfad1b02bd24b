/-
The compact text of a JSON value.

`write` follows the serializer of `serde_json`, except that how a float is written
is a parameter.  A text is read from its first character on, and where one value
ends is determined by what has been read, so two values with one text are equal.
-/
import Mathlib.Data.List.TakeWhile
import SecureAgnt.Lib.JsonOrder

namespace SecureAgnt

/-! ## Numbers -/

def isNumberChar (c : Char) : Bool :=
  c.isDigit || c = '-' || c = '+' || c = '.' || c = 'e' || c = 'E'

/-- How floats are written: each in its own way and none like an integer. -/
structure FloatText where
  text : UInt64 → List Char
  nonempty : ∀ bits, isFinite bits = true → text bits ≠ []
  chars : ∀ bits, isFinite bits = true → ∀ c ∈ text bits, isNumberChar c = true
  marked : ∀ bits, isFinite bits = true → ∃ c ∈ text bits, c.isDigit = false ∧ c ≠ '-'
  injective : ∀ x y, isFinite x = true → isFinite y = true → text x = text y → x = y

def numberText (f : FloatText) : JsonNumber → List Char
  | .posInt n => Nat.toDigits 10 n.toNat
  | .negInt n => '-' :: Nat.toDigits 10 n.toInt.natAbs
  | .float bits => f.text bits

theorem isDigit_of_toDigits {n : Nat} {c : Char} (h : c ∈ Nat.toDigits 10 n) : c.isDigit = true :=
  Nat.isDigit_of_mem_toDigits (by decide) (by decide) h

theorem toDigits_injective {m n : Nat} (h : Nat.toDigits 10 m = Nat.toDigits 10 n) : m = n := by
  rw [← Nat.ofDigitChars_ten_toDigits (n := m), h, Nat.ofDigitChars_ten_toDigits]

section Number

variable {f : FloatText} {x y : JsonNumber}

theorem isNumberChar_of_digit {c : Char} (h : c.isDigit = true) : isNumberChar c = true := by
  simp [isNumberChar, h]

theorem numberText_chars (hx : x.isNormal = true) :
    ∀ c ∈ numberText f x, isNumberChar c = true := by
  intro c hc
  cases x with
  | posInt n => exact isNumberChar_of_digit (isDigit_of_toDigits hc)
  | negInt n =>
    rcases List.mem_cons.mp hc with rfl | hc
    · decide
    · exact isNumberChar_of_digit (isDigit_of_toDigits hc)
  | float bits => exact f.chars bits hx c hc

theorem numberText_ne_nil (hx : x.isNormal = true) : numberText f x ≠ [] := by
  cases x with
  | posInt n => exact Nat.toDigits_ne_nil
  | negInt n => exact List.cons_ne_nil _ _
  | float bits => exact f.nonempty bits hx

theorem toDigits_ne_minus (m : Nat) (cs : List Char) : Nat.toDigits 10 m ≠ '-' :: cs := by
  intro h
  have hmem : '-' ∈ Nat.toDigits 10 m := by
    rw [h]
    exact List.mem_cons_self
  exact absurd (isDigit_of_toDigits hmem) (by decide)

/-- The text of a float is no integer's. -/
theorem toDigits_ne_float {bits : UInt64} (hbits : isFinite bits = true) (m : Nat) :
    Nat.toDigits 10 m ≠ f.text bits := by
  intro h
  obtain ⟨c, hc, hdigit, _⟩ := f.marked bits hbits
  rw [← h] at hc
  rw [isDigit_of_toDigits hc] at hdigit
  cases hdigit

theorem minus_ne_float {bits : UInt64} (hbits : isFinite bits = true) (m : Nat) :
    '-' :: Nat.toDigits 10 m ≠ f.text bits := by
  intro h
  obtain ⟨c, hc, hdigit, hminus⟩ := f.marked bits hbits
  rw [← h] at hc
  rcases List.mem_cons.mp hc with hc | hc
  · exact hminus hc
  · rw [isDigit_of_toDigits hc] at hdigit
    cases hdigit

theorem numberText_injective (hx : x.isNormal = true) (hy : y.isNormal = true)
    (h : numberText f x = numberText f y) : x = y := by
  cases x with
  | posInt m =>
    cases y with
    | posInt n => exact congrArg _ (UInt64.toNat_inj.mp (toDigits_injective h))
    | negInt n => exact absurd h (toDigits_ne_minus _ _)
    | float bits => exact absurd h (toDigits_ne_float hy _)
  | negInt m =>
    cases y with
    | posInt n => exact absurd h.symm (toDigits_ne_minus _ _)
    | negInt n =>
      have habs := toDigits_injective (List.cons.inj h).2
      have hm : m.toInt < 0 := Int64.lt_iff_toInt_lt.mp (of_decide_eq_true hx)
      have hn : n.toInt < 0 := Int64.lt_iff_toInt_lt.mp (of_decide_eq_true hy)
      exact congrArg _ (Int64.toInt_inj.mp (by omega))
    | float bits => exact absurd h (minus_ne_float hy _)
  | float bits =>
    cases y with
    | posInt n => exact absurd h.symm (toDigits_ne_float hx _)
    | negInt n => exact absurd h.symm (minus_ne_float hx _)
    | float bits' => exact congrArg _ (f.injective bits bits' hx hy h)

/-- A text in which a number that came before has ended. -/
def EndsNumber (s : List Char) : Prop := s.takeWhile isNumberChar = []

theorem endsNumber_cons {c : Char} (hc : isNumberChar c = false) (s : List Char) :
    EndsNumber (c :: s) := by
  simp [EndsNumber, hc]

theorem numberText_split {s t : List Char} (hx : x.isNormal = true) (hy : y.isNormal = true)
    (hs : EndsNumber s) (ht : EndsNumber t) (h : numberText f x ++ s = numberText f y ++ t) :
    x = y ∧ s = t := by
  have htext := congrArg (List.takeWhile isNumberChar) h
  rw [List.takeWhile_append_of_pos (numberText_chars hx),
    List.takeWhile_append_of_pos (numberText_chars hy), hs, ht, List.append_nil,
    List.append_nil] at htext
  rw [htext] at h
  exact ⟨numberText_injective hx hy htext, List.append_cancel_left h⟩

end Number

/-- Floats by their bits. -/
def bitText : FloatText where
  text := fun bits => Nat.toDigits 10 bits.toNat ++ ['.', '0']
  nonempty := fun bits _ h => by simp at h
  chars := by
    intro bits _ c hc
    rcases List.mem_append.mp hc with hc | hc
    · exact isNumberChar_of_digit (isDigit_of_toDigits hc)
    · rcases List.mem_cons.mp hc with rfl | hc
      · decide
      · rw [List.mem_singleton.mp hc]
        decide
  marked := fun bits _ =>
    ⟨'.', List.mem_append_right _ List.mem_cons_self, by decide, by decide⟩
  injective := by
    intro x y _ _ h
    exact UInt64.toNat_inj.mp (toDigits_injective (List.append_cancel_right h))

/-! ## Strings -/

/-- What follows the backslash where a character is not written as itself. -/
def escapeCode (c : Char) : Option (List Char) :=
  if c = '"' then some ['"']
  else if c = '\\' then some ['\\']
  else if c = '\x08' then some ['b']
  else if c = '\x0c' then some ['f']
  else if c = '\n' then some ['n']
  else if c = '\r' then some ['r']
  else if c = '\t' then some ['t']
  else if c.toNat < 32 then
    some ['u', '0', '0', Nat.digitChar (c.toNat / 16), Nat.digitChar (c.toNat % 16)]
  else none

def escape (c : Char) : List Char :=
  match escapeCode c with
  | some code => '\\' :: code
  | none => [c]

def writeString (s : String) : List Char := '"' :: (s.toList.flatMap escape ++ ['"'])

def escapedChars : List Char := '"' :: '\\' :: (List.range 32).map Char.ofNat

theorem mem_escapedChars {c : Char} {code : List Char} (h : escapeCode c = some code) :
    c ∈ escapedChars := by
  by_cases hquote : c = '"'
  · rw [hquote]
    decide
  by_cases hslash : c = '\\'
  · rw [hslash]
    decide
  have hlow : c.toNat < 32 := by
    by_contra hhigh
    have hne : ∀ d : Char, d.toNat < 32 → c ≠ d := by
      intro d hd hcd
      rw [hcd] at hhigh
      exact hhigh hd
    simp [escapeCode, hquote, hslash, hhigh, hne '\x08' (by decide), hne '\x0c' (by decide),
      hne '\n' (by decide), hne '\r' (by decide), hne '\t' (by decide)] at h
  refine List.mem_cons_of_mem _ (List.mem_cons_of_mem _ (List.mem_map.mpr ⟨c.toNat, ?_, ?_⟩))
  · exact List.mem_range.mpr hlow
  · exact Char.ofNat_toNat c

/-- No code is the beginning of another. -/
theorem escapeCode_prefixFree : ∀ c ∈ escapedChars, ∀ d ∈ escapedChars,
    ((escapeCode c).getD []).isPrefixOf ((escapeCode d).getD []) = true → c = d := by
  have hall : (escapedChars.all fun c => escapedChars.all fun d =>
      ((escapeCode c).getD []).isPrefixOf ((escapeCode d).getD []) → c = d) = true := by
    decide +kernel
  intro c hc d hd
  exact of_decide_eq_true (List.all_eq_true.mp (List.all_eq_true.mp hall c hc) d hd)

section Strings

variable {c d : Char} {s t : List Char}

theorem escapeCode_split {a b : List Char} (ha : escapeCode c = some a) (hb : escapeCode d = some b)
    (h : a ++ s = b ++ t) : c = d ∧ s = t := by
  have hc := mem_escapedChars ha
  have hd := mem_escapedChars hb
  have hcd : c = d := by
    have hpre : a <+: a ++ s := List.prefix_append a s
    have hpre' : b <+: a ++ s := by
      rw [h]
      exact List.prefix_append b t
    rcases List.prefix_or_prefix_of_prefix hpre hpre' with hab | hba
    · exact escapeCode_prefixFree c hc d hd (by simpa [ha, hb] using hab)
    · exact (escapeCode_prefixFree d hd c hc (by simpa [ha, hb] using hba)).symm
  subst hcd
  obtain rfl : a = b := Option.some.inj (ha.symm.trans hb)
  exact ⟨rfl, List.append_cancel_left h⟩

theorem escape_eq_code {code : List Char} (h : escapeCode c = some code) :
    escape c = '\\' :: code := by
  unfold escape
  rw [h]

theorem escape_eq_self (h : escapeCode c = none) : escape c = [c] := by
  unfold escape
  rw [h]

theorem escapeCode_backslash : escapeCode '\\' = some ['\\'] := by decide

theorem escape_split (h : escape c ++ s = escape d ++ t) : c = d ∧ s = t := by
  cases hc : escapeCode c with
  | none =>
    rw [escape_eq_self hc] at h
    cases hd : escapeCode d with
    | none =>
      rw [escape_eq_self hd] at h
      exact List.cons.inj h
    | some b =>
      rw [escape_eq_code hd] at h
      rw [(List.cons.inj h).1, escapeCode_backslash] at hc
      cases hc
  | some a =>
    rw [escape_eq_code hc] at h
    cases hd : escapeCode d with
    | none =>
      rw [escape_eq_self hd] at h
      rw [← (List.cons.inj h).1, escapeCode_backslash] at hd
      cases hd
    | some b =>
      rw [escape_eq_code hd] at h
      exact escapeCode_split hc hd (List.cons.inj h).2

theorem quote_ne_escape (s t : List Char) : '"' :: s ≠ escape c ++ t := by
  intro h
  cases hc : escapeCode c with
  | none =>
    rw [escape_eq_self hc] at h
    rw [← (List.cons.inj h).1] at hc
    exact absurd hc (by decide)
  | some code =>
    rw [escape_eq_code hc] at h
    exact absurd (List.cons.inj h).1 (by decide)

/-- A string ends at its closing quote. -/
theorem quoted_split {cs ds : List Char}
    (h : cs.flatMap escape ++ '"' :: s = ds.flatMap escape ++ '"' :: t) : cs = ds ∧ s = t := by
  induction cs generalizing ds with
  | nil =>
    cases ds with
    | nil => exact ⟨rfl, (List.cons.inj h).2⟩
    | cons d ds =>
      rw [List.flatMap_cons, List.append_assoc] at h
      exact absurd h (quote_ne_escape _ _)
  | cons c cs ih =>
    rw [List.flatMap_cons, List.append_assoc] at h
    cases ds with
    | nil => exact absurd h.symm (quote_ne_escape _ _)
    | cons d ds =>
      rw [List.flatMap_cons, List.append_assoc] at h
      obtain ⟨rfl, hrest⟩ := escape_split h
      obtain ⟨rfl, hst⟩ := ih hrest
      exact ⟨rfl, hst⟩

theorem writeString_split {x y : String} (h : writeString x ++ s = writeString y ++ t) :
    x = y ∧ s = t := by
  rw [writeString, writeString, List.cons_append, List.cons_append, List.append_assoc,
    List.append_assoc] at h
  obtain ⟨hlists, hst⟩ := quoted_split (List.cons.inj h).2
  exact ⟨String.toList_inj.mp hlists, hst⟩

end Strings

/-! ## Values -/

namespace Json

def separator (first : Bool) : List Char := if first then [] else [',']

mutual

def write (f : FloatText) : Json → List Char
  | .null => "null".toList
  | .bool true => "true".toList
  | .bool false => "false".toList
  | .num n => numberText f n
  | .str s => writeString s
  | .arr items => '[' :: writeItems f true items
  | .obj fields => '\x7b' :: writeFields f true fields

/-- The items from one on, with the closing bracket. -/
def writeItems (f : FloatText) (first : Bool) : List Json → List Char
  | [] => [']']
  | v :: items => separator first ++ (write f v ++ writeItems f false items)

def writeFields (f : FloatText) (first : Bool) : List (String × Json) → List Char
  | [] => ['\x7d']
  | (key, v) :: fields =>
    separator first ++ (writeString key ++ (':' :: (write f v ++ writeFields f false fields)))

end

/-- What kind of value a text begins. -/
def headKind (c : Char) : Nat :=
  if isNumberChar c then 2
  else if c = 'n' then 0
  else if c = 't' ∨ c = 'f' then 1
  else if c = '"' then 3
  else if c = '[' then 4
  else if c = '\x7b' then 5
  else 6

def kind : Json → Nat
  | .null => 0
  | .bool _ => 1
  | .num _ => 2
  | .str _ => 3
  | .arr _ => 4
  | .obj _ => 5

variable {f : FloatText} {v w : Json} {s t : List Char}

theorem write_head (hv : IsValue v) : ∃ c cs, write f v = c :: cs ∧ headKind c = v.kind := by
  cases hv with
  | null => exact ⟨'n', _, rfl, by decide⟩
  | bool b =>
    cases b with
    | true => exact ⟨'t', _, rfl, by decide⟩
    | false => exact ⟨'f', _, rfl, by decide⟩
  | @num n hn =>
    obtain ⟨c, cs, hcons⟩ := List.exists_cons_of_ne_nil (numberText_ne_nil (f := f) hn)
    refine ⟨c, cs, hcons, ?_⟩
    have hchar : isNumberChar c = true := by
      refine numberText_chars (f := f) hn c ?_
      rw [hcons]
      exact List.mem_cons_self
    show headKind c = 2
    unfold headKind
    rw [if_pos hchar]
  | str s => exact ⟨'"', _, rfl, show headKind '"' = 3 by decide⟩
  | arr _ => exact ⟨'[', _, rfl, show headKind '[' = 4 by decide⟩
  | obj _ _ => exact ⟨'\x7b', _, rfl, show headKind '\x7b' = 5 by decide⟩

theorem kind_of_write (hv : IsValue v) (hw : IsValue w) (h : write f v ++ s = write f w ++ t) :
    v.kind = w.kind := by
  obtain ⟨c, cs, hc, hkind⟩ := write_head (f := f) hv
  obtain ⟨d, ds, hd, hkind'⟩ := write_head (f := f) hw
  rw [hc, hd] at h
  rw [← hkind, ← hkind', (List.cons.inj h).1]

theorem close_ne_write (hv : IsValue v) {c : Char} (hc : headKind c = 6) (s t : List Char) :
    c :: s ≠ write f v ++ t := by
  intro h
  obtain ⟨d, ds, hd, hkind⟩ := write_head (f := f) hv
  rw [hd] at h
  rw [(List.cons.inj h).1, hkind] at hc
  cases v <;> cases hc

/-- Where the value ends can be told from the text. -/
def Splits (f : FloatText) (v : Json) : Prop :=
  ∀ w, IsValue w → ∀ s t, EndsNumber s → EndsNumber t → write f v ++ s = write f w ++ t →
    v = w ∧ s = t

theorem endsNumber_items (items : List Json) (s : List Char) :
    EndsNumber (writeItems f false items ++ s) := by
  cases items with
  | nil =>
    rw [writeItems]
    exact endsNumber_cons (by decide) s
  | cons v items =>
    rw [writeItems]
    exact endsNumber_cons (by decide) _

theorem endsNumber_fields (fields : List (String × Json)) (s : List Char) :
    EndsNumber (writeFields f false fields ++ s) := by
  cases fields with
  | nil =>
    rw [writeFields]
    exact endsNumber_cons (by decide) s
  | cons x fields =>
    obtain ⟨key, v⟩ := x
    rw [writeFields]
    exact endsNumber_cons (by decide) _

theorem close_ne_items (first : Bool) (hv : IsValue v) (items : List Json) (s t : List Char) :
    writeItems f first [] ++ s ≠ writeItems f first (v :: items) ++ t := by
  intro h
  rw [writeItems, writeItems, List.append_assoc, List.append_assoc] at h
  cases first with
  | true => exact close_ne_write hv (by decide) s _ h
  | false => exact absurd (List.cons.inj h).1 (by decide)

theorem close_ne_fields (first : Bool) (key : String) (v : Json) (fields : List (String × Json))
    (s t : List Char) :
    writeFields f first [] ++ s ≠ writeFields f first ((key, v) :: fields) ++ t := by
  intro h
  rw [writeFields, writeFields, List.append_assoc] at h
  cases first with
  | true => exact absurd (List.cons.inj h).1 (by decide)
  | false => exact absurd (List.cons.inj h).1 (by decide)

theorem items_split {items items' : List Json} (first : Bool) (hsplit : ∀ v ∈ items, Splits f v)
    (hvalues : ∀ v ∈ items, IsValue v) (hvalues' : ∀ v ∈ items', IsValue v)
    (h : writeItems f first items ++ s = writeItems f first items' ++ t) :
    items = items' ∧ s = t := by
  induction items generalizing items' first with
  | nil =>
    cases items' with
    | nil =>
      rw [writeItems] at h
      exact ⟨rfl, (List.cons.inj h).2⟩
    | cons w items' => exact absurd h (close_ne_items first (hvalues' w List.mem_cons_self) _ _ _)
  | cons v items ih =>
    cases items' with
    | nil => exact absurd h.symm (close_ne_items first (hvalues v List.mem_cons_self) _ _ _)
    | cons w items' =>
      simp only [writeItems, List.append_assoc, List.append_cancel_left_eq] at h
      obtain ⟨rfl, hrest⟩ := hsplit v List.mem_cons_self w (hvalues' w List.mem_cons_self) _ _
        (endsNumber_items items s) (endsNumber_items items' t) h
      obtain ⟨rfl, hst⟩ := ih false (fun u hu => hsplit u (List.mem_cons_of_mem v hu))
        (fun u hu => hvalues u (List.mem_cons_of_mem v hu))
        (fun u hu => hvalues' u (List.mem_cons_of_mem v hu)) hrest
      exact ⟨rfl, hst⟩

theorem fields_split {fields fields' : List (String × Json)} (first : Bool)
    (hsplit : ∀ x ∈ fields, Splits f x.2) (hvalues' : ∀ x ∈ fields', IsValue x.2)
    (h : writeFields f first fields ++ s = writeFields f first fields' ++ t) :
    fields = fields' ∧ s = t := by
  induction fields generalizing fields' first with
  | nil =>
    cases fields' with
    | nil =>
      rw [writeFields] at h
      exact ⟨rfl, (List.cons.inj h).2⟩
    | cons y fields' => exact absurd h (close_ne_fields first y.1 y.2 _ _ _)
  | cons x fields ih =>
    obtain ⟨key, v⟩ := x
    cases fields' with
    | nil => exact absurd h.symm (close_ne_fields first key v _ _ _)
    | cons y fields' =>
      obtain ⟨key', w⟩ := y
      simp only [writeFields, List.append_assoc, List.append_cancel_left_eq] at h
      obtain ⟨rfl, htail⟩ := writeString_split h
      rw [List.cons_append, List.cons_append, List.append_assoc, List.append_assoc] at htail
      obtain ⟨rfl, hrest⟩ := hsplit (key, v) List.mem_cons_self w
        (hvalues' (key, w) List.mem_cons_self) _ _ (endsNumber_fields fields s)
        (endsNumber_fields fields' t) (List.cons.inj htail).2
      obtain ⟨rfl, hst⟩ := ih false (fun u hu => hsplit u (List.mem_cons_of_mem _ hu))
        (fun u hu => hvalues' u (List.mem_cons_of_mem _ hu)) hrest
      exact ⟨rfl, hst⟩

/-- A text is read as one value. -/
theorem splits_of_isValue (hv : IsValue v) : Splits f v := by
  induction hv with
  | null =>
    intro w hw s t _ _ h
    have hkind := kind_of_write .null hw h
    cases hw with
    | null => exact ⟨rfl, List.append_cancel_left h⟩
    | _ => cases hkind
  | bool b =>
    intro w hw s t _ _ h
    have hkind := kind_of_write (.bool b) hw h
    cases hw with
    | bool b' =>
      cases b <;> cases b'
      · exact ⟨rfl, List.append_cancel_left h⟩
      · exact absurd (List.cons.inj h).1 (by decide)
      · exact absurd (List.cons.inj h).1 (by decide)
      · exact ⟨rfl, List.append_cancel_left h⟩
    | _ => cases hkind
  | num hn =>
    intro w hw s t hs ht h
    have hkind := kind_of_write (.num hn) hw h
    cases hw with
    | num hn' =>
      obtain ⟨rfl, hst⟩ := numberText_split hn hn' hs ht h
      exact ⟨rfl, hst⟩
    | _ => cases hkind
  | str x =>
    intro w hw s t _ _ h
    have hkind := kind_of_write (.str x) hw h
    cases hw with
    | str y =>
      obtain ⟨rfl, hst⟩ := writeString_split h
      exact ⟨rfl, hst⟩
    | _ => cases hkind
  | arr hitems ih =>
    intro w hw s t _ _ h
    have hkind := kind_of_write (.arr hitems) hw h
    cases hw with
    | arr hitems' =>
      obtain ⟨rfl, hst⟩ := items_split true ih hitems hitems' (List.cons.inj h).2
      exact ⟨rfl, hst⟩
    | _ => cases hkind
  | obj hkeys hfields ih =>
    intro w hw s t _ _ h
    have hkind := kind_of_write (.obj hkeys hfields) hw h
    cases hw with
    | obj _ hfields' =>
      obtain ⟨rfl, hst⟩ := fields_split true ih hfields' (List.cons.inj h).2
      exact ⟨rfl, hst⟩
    | _ => cases hkind

/-- Two values with one text are equal. -/
theorem write_injective (hv : IsValue v) (hw : IsValue w) (h : write f v = write f w) : v = w := by
  refine (splits_of_isValue (f := f) hv w hw [] [] rfl rfl ?_).1
  rw [h]

/-! ## One line -/

theorem newline_notMem_codes : ∀ c ∈ escapedChars, '\n' ∉ (escapeCode c).getD [] := by
  have hall : (escapedChars.all fun c => '\n' ∉ (escapeCode c).getD []) = true := by
    decide +kernel
  exact fun c hc => of_decide_eq_true (List.all_eq_true.mp hall c hc)

theorem newline_notMem_escape (c : Char) : '\n' ∉ escape c := by
  cases hc : escapeCode c with
  | none =>
    rw [escape_eq_self hc, List.mem_singleton]
    intro h
    rw [← h] at hc
    cases hc
  | some code =>
    have hcode := newline_notMem_codes c (mem_escapedChars hc)
    rw [hc, Option.getD_some] at hcode
    rw [escape_eq_code hc, List.mem_cons, not_or]
    exact ⟨by decide, hcode⟩

theorem newline_notMem_writeString (s : String) : '\n' ∉ writeString s := by
  unfold writeString
  simp only [List.mem_cons, List.mem_append, List.mem_flatMap, List.not_mem_nil, or_false, not_or,
    not_exists, not_and]
  exact ⟨by decide, fun c _ => newline_notMem_escape c, by decide⟩

theorem newline_notMem_writeItems {items : List Json} (h : ∀ v ∈ items, '\n' ∉ write f v)
    (first : Bool) : '\n' ∉ writeItems f first items := by
  induction items generalizing first with
  | nil =>
    rw [writeItems]
    decide
  | cons v items ih =>
    have hseparator : '\n' ∉ separator first := by cases first <;> decide
    rw [writeItems]
    simp only [List.mem_append, not_or]
    exact ⟨hseparator, h v List.mem_cons_self, ih (fun w hw => h w (List.mem_cons_of_mem _ hw)) _⟩

theorem newline_notMem_writeFields {fields : List (String × Json)}
    (h : ∀ field ∈ fields, '\n' ∉ write f field.2) (first : Bool) :
    '\n' ∉ writeFields f first fields := by
  induction fields generalizing first with
  | nil =>
    rw [writeFields]
    decide
  | cons field fields ih =>
    obtain ⟨key, v⟩ := field
    have hseparator : '\n' ∉ separator first := by cases first <;> decide
    rw [writeFields]
    simp only [List.mem_append, List.mem_cons, not_or]
    exact ⟨hseparator, newline_notMem_writeString key, by decide, h _ List.mem_cons_self,
      ih (fun w hw => h w (List.mem_cons_of_mem _ hw)) _⟩

/-- The text of a value is one line. -/
theorem newline_notMem_write (hv : IsValue v) : '\n' ∉ write f v := by
  induction hv with
  | null =>
    show '\n' ∉ "null".toList
    decide
  | bool b =>
    cases b with
    | true =>
      show '\n' ∉ "true".toList
      decide
    | false =>
      show '\n' ∉ "false".toList
      decide
  | num hn =>
    intro h
    exact absurd (numberText_chars hn _ h) (by decide)
  | str s => exact newline_notMem_writeString s
  | arr _ ih =>
    rw [write]
    simp only [List.mem_cons, not_or]
    exact ⟨by decide, newline_notMem_writeItems ih _⟩
  | obj _ _ ih =>
    rw [write]
    simp only [List.mem_cons, not_or]
    exact ⟨by decide, newline_notMem_writeFields ih _⟩

theorem getLast?_writeFields (first : Bool) (fields : List (String × Json)) :
    (writeFields f first fields).getLast? = some '\x7d' := by
  induction fields generalizing first with
  | nil => rfl
  | cons field fields ih =>
    obtain ⟨key, v⟩ := field
    rw [writeFields, List.getLast?_append, List.getLast?_append, List.getLast?_cons,
      List.getLast?_append, ih]
    rfl

end Json
end SecureAgnt

/-
What a cache key says of a request.

The key is the digest of the parts of the request with bars between them.  Cut at its
bars the text gives back how the parts read together, but not where one part ends and
the next begins when the parts have bars of their own, nor whether the limit of tokens
was missing or zero, nor the temperature beyond four decimals.
-/
import SecureAgnt.Lib.JsonText
import SecureAgnt.Llm.Confinement

namespace SecureAgnt
namespace Llm

/-- What identifies a completion: the cache namespace, the route, the model and what is
sent to the endpoint. -/
structure CacheRequest where
  cacheNamespace : String
  route : LlmRoute
  model : String
  system : Option String
  prompt : String
  maxTokens : Option Nat
  temperature : Option JsonNumber

namespace CacheRequest

def key (rt : LlmRuntime) (r : CacheRequest) : String :=
  computeCacheKey rt r.cacheNamespace r.route r.model (buildMessages r.system r.prompt)
    r.maxTokens r.temperature

end CacheRequest

/-- How a temperature is kept and written: as a float of 32 bits, to four decimals. -/
structure TemperatureText (rt : LlmRuntime) (F : Type) where
  asF32 : JsonNumber → F
  text : F → String
  formatTemperature : ∀ n, rt.formatTemperature n = text (asF32 n)
  noBar : ∀ x, '|' ∉ (text x).toList
  nonempty : ∀ x, text x ≠ ""

section Keys

variable {rt : LlmRuntime} {F : Type}

/-- Two requests that ask an endpoint for the same completion, in the same namespace. -/
structure SameCompletion (t : TemperatureText rt F) (r r' : CacheRequest) : Prop where
  cacheNamespace : r.cacheNamespace = r'.cacheNamespace
  route : r.route = r'.route
  model : r.model = r'.model
  system : r.system = r'.system
  prompt : r.prompt = r'.prompt
  maxTokens : r.maxTokens = r'.maxTokens
  temperature : r.temperature.map t.asF32 = r'.temperature.map t.asF32

/-! ## Pieces between bars -/

def pieces (s : String) : List (List Char) := s.toList.splitOn '|'

def systemPieces (system : Option String) : List (List Char) :=
  (system.map fun system => pieces ("system:" ++ system)).getD []

/-- The parts of a request before its numbers, cut at every bar. -/
def CacheRequest.pieces (r : CacheRequest) : List (List Char) :=
  Llm.pieces r.cacheNamespace ++ r.route.asStr.toList :: (Llm.pieces r.model ++
    (systemPieces r.system ++ Llm.pieces ("user:" ++ r.prompt)))

/-- The numbers of pieces of the parts that come before another. -/
def CacheRequest.bars (r : CacheRequest) : Nat × Nat × Option Nat :=
  ((Llm.pieces r.cacheNamespace).length, (Llm.pieces r.model).length,
    r.system.map fun system => (Llm.pieces system).length)

def CacheRequest.numbers (rt : LlmRuntime) (r : CacheRequest) : Nat × Option String :=
  (r.maxTokens.getD 0, r.temperature.map rt.formatTemperature)

/-- Requests that read as one text between the bars although they differ: in where their
bars belong, in a limit that is missing or zero, or in the further decimals of the
temperature. -/
structure Confused (t : TemperatureText rt F) (r r' : CacheRequest) : Prop where
  pieces : r.pieces = r'.pieces
  numbers : r.numbers rt = r'.numbers rt
  differ : r.bars ≠ r'.bars ∨ r.maxTokens ≠ r'.maxTokens ∨
    r.temperature.map t.asF32 ≠ r'.temperature.map t.asF32

theorem pieces_injective {s s' : String} (h : pieces s = pieces s') : s = s' := by
  have hjoin := congrArg (['|'].intercalate ·) h
  simp only [pieces, List.intercalate_splitOn] at hjoin
  exact String.toList_inj.mp hjoin

theorem splitOn_bar (cs ds : List Char) :
    (cs ++ '|' :: ds).splitOn '|' = cs.splitOn '|' ++ ds.splitOn '|' :=
  List.splitOn_append_cons_self cs ds

theorem bar_notMem_route (route : LlmRoute) : '|' ∉ route.asStr.toList := by
  cases route <;> decide

theorem bar_notMem_digits (n : Nat) : '|' ∉ (toString n).toList := by
  intro hmem
  replace hmem : '|' ∈ n.repr.toList := hmem
  rw [Nat.toList_repr] at hmem
  exact absurd (isDigit_of_toDigits hmem) (by decide)

theorem digits_injective {m n : Nat} (h : (toString m).toList = (toString n).toList) : m = n := by
  replace h : m.repr.toList = n.repr.toList := h
  rw [Nat.toList_repr, Nat.toList_repr] at h
  exact toDigits_injective h

/-! ## The text under a key -/

/-- What `compute_cache_key` hashes. -/
def keyText (rt : LlmRuntime) (r : CacheRequest) : String :=
  r.cacheNamespace ++ "|" ++ r.route.asStr ++ "|" ++ r.model ++ "|" ++
    String.join ((buildMessages r.system r.prompt).map fun msg =>
      msg.role ++ ":" ++ msg.content ++ "|") ++
    toString (r.maxTokens.getD 0) ++ "|" ++ (r.temperature.map rt.formatTemperature).getD ""

theorem key_eq (rt : LlmRuntime) (r : CacheRequest) : r.key rt = rt.sha256Hex (keyText rt r) := rfl

def temperatureText (rt : LlmRuntime) (r : CacheRequest) : String :=
  (r.temperature.map rt.formatTemperature).getD ""

theorem toList_barred (s : String) (cs : List Char) :
    (s ++ "|").toList ++ cs = s.toList ++ '|' :: cs := by
  have hbar : "|".toList = ['|'] := by decide
  rw [String.toList_append, hbar, List.append_assoc, List.singleton_append]

theorem splitOn_messages (system : Option String) (prompt : String) (rest : List Char) :
    ((String.join ((buildMessages system prompt).map fun msg =>
        msg.role ++ ":" ++ msg.content ++ "|")).toList ++ rest).splitOn '|' =
      systemPieces system ++ (pieces ("user:" ++ prompt) ++ rest.splitOn '|') := by
  have hlabels : "user" ++ ":" = "user:" ∧ "system" ++ ":" = "system:" := by decide
  have huser : (("user" ++ ":" ++ prompt ++ "|").toList ++ rest).splitOn '|' =
      pieces ("user:" ++ prompt) ++ rest.splitOn '|' := by
    rw [hlabels.1, toList_barred, splitOn_bar]
    rfl
  rw [String.toList_join]
  cases system with
  | none =>
    show (("user" ++ ":" ++ prompt ++ "|").toList ++ [] ++ rest).splitOn '|' = _
    rw [List.append_nil, huser]
    rfl
  | some system =>
    show (("system" ++ ":" ++ system ++ "|").toList ++
      (("user" ++ ":" ++ prompt ++ "|").toList ++ []) ++ rest).splitOn '|' = _
    rw [List.append_nil, List.append_assoc, toList_barred, splitOn_bar, huser, hlabels.2]
    rfl

theorem pieces_keyText (t : TemperatureText rt F) (r : CacheRequest) :
    pieces (keyText rt r) =
      r.pieces ++ [(toString (r.maxTokens.getD 0)).toList, (temperatureText rt r).toList] := by
  have htemperature : '|' ∉ (temperatureText rt r).toList := by
    unfold temperatureText
    cases r.temperature with
    | none => exact List.not_mem_nil
    | some n =>
      show '|' ∉ (rt.formatTemperature n).toList
      rw [t.formatTemperature]
      exact t.noBar _
  have hnumbers : ((toString (r.maxTokens.getD 0)).toList ++
      '|' :: (temperatureText rt r).toList).splitOn '|' =
        [(toString (r.maxTokens.getD 0)).toList, (temperatureText rt r).toList] := by
    rw [splitOn_bar, List.splitOn_eq_singleton (bar_notMem_digits _),
      List.splitOn_eq_singleton htemperature]
    rfl
  have hroute := List.splitOn_eq_singleton (bar_notMem_route r.route)
  have htext : (keyText rt r).toList = r.cacheNamespace.toList ++ '|' :: (r.route.asStr.toList ++
      '|' :: (r.model.toList ++ '|' :: ((String.join ((buildMessages r.system r.prompt).map
        fun msg => msg.role ++ ":" ++ msg.content ++ "|")).toList ++
          ((toString (r.maxTokens.getD 0)).toList ++ '|' :: (temperatureText rt r).toList)))) := by
    unfold keyText
    rw [← temperatureText]
    rw [String.toList_append, toList_barred, String.toList_append, List.append_assoc,
      String.toList_append, List.append_assoc, toList_barred, String.toList_append,
      List.append_assoc, toList_barred, String.toList_append, List.append_assoc, toList_barred]
  show (keyText rt r).toList.splitOn '|' = _
  rw [htext, splitOn_bar, splitOn_bar, splitOn_bar, splitOn_messages, hnumbers, hroute]
  show _ = (pieces r.cacheNamespace ++ r.route.asStr.toList :: (pieces r.model ++
    (systemPieces r.system ++ pieces ("user:" ++ r.prompt)))) ++ _
  simp only [List.append_assoc, List.cons_append, List.nil_append]
  rfl

theorem temperatureText_inj (t : TemperatureText rt F) {r r' : CacheRequest}
    (h : (temperatureText rt r).toList = (temperatureText rt r').toList) :
    r.temperature.map rt.formatTemperature = r'.temperature.map rt.formatTemperature := by
  have htext : temperatureText rt r = temperatureText rt r' := String.toList_inj.mp h
  unfold temperatureText at htext
  cases hr : r.temperature with
  | none =>
    cases hr' : r'.temperature with
    | none => rfl
    | some n =>
      rw [hr, hr'] at htext
      replace htext : "" = rt.formatTemperature n := htext
      rw [t.formatTemperature] at htext
      exact absurd htext.symm (t.nonempty _)
  | some n =>
    cases hr' : r'.temperature with
    | none =>
      rw [hr, hr'] at htext
      replace htext : rt.formatTemperature n = "" := htext
      rw [t.formatTemperature] at htext
      exact absurd htext (t.nonempty _)
    | some n' =>
      rw [hr, hr'] at htext
      exact congrArg some htext

/-- Two texts are one exactly when the requests read alike between the bars. -/
theorem keyText_eq_iff (t : TemperatureText rt F) (r r' : CacheRequest) :
    keyText rt r = keyText rt r' ↔ r.pieces = r'.pieces ∧ r.numbers rt = r'.numbers rt := by
  constructor
  · intro h
    have hpieces := congrArg pieces h
    rw [pieces_keyText t, pieces_keyText t] at hpieces
    obtain ⟨hparts, hlast⟩ := List.append_inj' hpieces rfl
    simp only [List.cons.injEq, and_true] at hlast
    exact ⟨hparts, Prod.ext (digits_injective hlast.1) (temperatureText_inj t hlast.2)⟩
  · intro h
    obtain ⟨hparts, hnumbers⟩ := h
    have hmax : r.maxTokens.getD 0 = r'.maxTokens.getD 0 := congrArg Prod.fst hnumbers
    have htemperature : temperatureText rt r = temperatureText rt r' :=
      congrArg (·.2.getD "") hnumbers
    refine pieces_injective ?_
    rw [pieces_keyText t, pieces_keyText t, hparts, hmax, htemperature]

/-! ## Where the parts end -/

theorem length_splitOn_append {label : List Char} (cs : List Char) (h : '|' ∉ label) :
    ((label ++ cs).splitOn '|').length = (cs.splitOn '|').length := by
  induction label with
  | nil => rfl
  | cons c rest ih =>
    simp only [List.mem_cons, not_or] at h
    have hc : (c == '|') = false := beq_eq_false_iff_ne.mpr fun hc => h.1 hc.symm
    rw [List.cons_append, List.splitOn_cons_eq_if_modifyHead, hc, if_neg Bool.false_ne_true,
      List.length_modifyHead, ih h.2]

theorem pieces_label_length {label : String} (s : String) (h : '|' ∉ label.toList) :
    (pieces (label ++ s)).length = (pieces s).length := by
  unfold pieces
  rw [String.toList_append]
  exact length_splitOn_append s.toList h

theorem asStr_injective {route route' : LlmRoute}
    (h : route.asStr.toList = route'.asStr.toList) : route = route' := by
  cases route <;> cases route' <;> first | rfl | exact absurd h (by decide)

theorem systemPieces_injective {system system' : Option String}
    (hbars : (system.map fun system => (pieces system).length) =
      system'.map fun system => (pieces system).length)
    (h : systemPieces system = systemPieces system') : system = system' := by
  cases system with
  | none =>
    cases system' with
    | none => rfl
    | some system' => cases hbars
  | some system =>
    cases system' with
    | none => cases hbars
    | some system' =>
      have htext : "system:" ++ system = "system:" ++ system' := pieces_injective h
      rw [(String.append_right_inj _).mp htext]

theorem systemPieces_length {system system' : Option String}
    (hbars : (system.map fun system => (pieces system).length) =
      system'.map fun system => (pieces system).length) :
    (systemPieces system).length = (systemPieces system').length := by
  have hlabel : '|' ∉ "system:".toList := by decide
  cases system with
  | none =>
    cases system' with
    | none => rfl
    | some system' => cases hbars
  | some system =>
    cases system' with
    | none => cases hbars
    | some system' =>
      show (pieces ("system:" ++ system)).length = (pieces ("system:" ++ system')).length
      rw [pieces_label_length system hlabel, pieces_label_length system' hlabel]
      exact Option.some.inj hbars

/-- With as many bars in each part, the pieces give the parts back. -/
theorem parts_of_pieces {r r' : CacheRequest} (hpieces : r.pieces = r'.pieces)
    (hbars : r.bars = r'.bars) : r.cacheNamespace = r'.cacheNamespace ∧ r.route = r'.route ∧
      r.model = r'.model ∧ r.system = r'.system ∧ r.prompt = r'.prompt := by
  simp only [CacheRequest.bars, Prod.mk.injEq] at hbars
  unfold CacheRequest.pieces at hpieces
  obtain ⟨hnamespace, htail⟩ := List.append_inj hpieces hbars.1
  obtain ⟨hroute, htail⟩ := List.cons.inj htail
  obtain ⟨hmodel, htail⟩ := List.append_inj htail hbars.2.1
  obtain ⟨hsystem, hprompt⟩ := List.append_inj htail (systemPieces_length hbars.2.2)
  have huser : "user:" ++ r.prompt = "user:" ++ r'.prompt := pieces_injective hprompt
  exact ⟨pieces_injective hnamespace, asStr_injective hroute, pieces_injective hmodel,
    systemPieces_injective hbars.2.2 hsystem, (String.append_right_inj _).mp huser⟩

/-- Two requests with one key ask for the same completion exactly unless they are confused. -/
theorem sameCompletion_iff (t : TemperatureText rt F) (r r' : CacheRequest) :
    (keyText rt r = keyText rt r' → SameCompletion t r r') ↔ ¬ Confused t r r' := by
  constructor
  · intro h hconfused
    have hsame := h ((keyText_eq_iff t r r').mpr ⟨hconfused.pieces, hconfused.numbers⟩)
    have hbars : r.bars = r'.bars := by
      unfold CacheRequest.bars
      rw [hsame.cacheNamespace, hsame.model, hsame.system]
    have hdiffer := hconfused.differ
    rw [hbars, hsame.maxTokens, hsame.temperature] at hdiffer
    simp at hdiffer
  · intro hconfused hkey
    obtain ⟨hpieces, hnumbers⟩ := (keyText_eq_iff t r r').mp hkey
    by_cases hbars : r.bars = r'.bars
    · obtain ⟨hnamespace, hroute, hmodel, hsystem, hprompt⟩ := parts_of_pieces hpieces hbars
      by_cases hmax : r.maxTokens = r'.maxTokens
      · by_cases htemperature : r.temperature.map t.asF32 = r'.temperature.map t.asF32
        · exact ⟨hnamespace, hroute, hmodel, hsystem, hprompt, hmax, htemperature⟩
        · exact absurd ⟨hpieces, hnumbers, Or.inr (Or.inr htemperature)⟩ hconfused
      · exact absurd ⟨hpieces, hnumbers, Or.inr (Or.inl hmax)⟩ hconfused
    · exact absurd ⟨hpieces, hnumbers, Or.inl hbars⟩ hconfused

theorem not_confused_self (t : TemperatureText rt F) (r : CacheRequest) : ¬ Confused t r r := by
  intro h
  have hdiffer := h.differ
  simp at hdiffer

/-- A turn at the end of the system text and one at the start of the prompt read alike. -/
theorem keyText_shifted (rt : LlmRuntime) (r : CacheRequest) (system turn prompt : String) :
    keyText rt { r with system := some (system ++ "|user:" ++ turn), prompt := prompt } =
      keyText rt { r with system := some system, prompt := turn ++ "|user:" ++ prompt } := by
  have huser : ∀ rest, "|" ++ ("user" ++ (":" ++ rest)) = "|user:" ++ rest := by
    intro rest
    rw [← String.append_assoc, ← String.append_assoc]
    rfl
  have hmessages : String.join ((buildMessages (some (system ++ "|user:" ++ turn)) prompt).map
      fun msg => msg.role ++ ":" ++ msg.content ++ "|") =
        String.join ((buildMessages (some system) (turn ++ "|user:" ++ prompt)).map
          fun msg => msg.role ++ ":" ++ msg.content ++ "|") := by
    simp only [buildMessages, List.cons_append, List.nil_append, List.map_cons, List.map_nil,
      String.join_cons, String.append_assoc, huser]
  unfold keyText
  rw [hmessages]

end Keys

end Llm
end SecureAgnt

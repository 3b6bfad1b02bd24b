/-
How a large prompt is cut into chunks.

`Chunks.splitTextChunks` is the loop over byte indices.  An index that overflows and a
slice that cuts a character are failures.  It has neither on a target of any pointer
width, for every text that fits into memory and every chunk size, and its chunks are
those of the prompt plan: they lose no text and keep to the size.
-/
import SecureAgnt.Llm.Budget

namespace SecureAgnt
namespace Llm
namespace Chunks

open Text (bytes cutAt sliceBetween isCharBoundary)

/-- A target with its pointer width. -/
structure Target where
  pointerBits : Nat
  pointerBits_ge : 16 ≤ pointerBits

/-- `usize` goes up to one less than this. -/
def Target.usizeEnd (target : Target) : Nat := 2 ^ target.pointerBits

/-- A text in memory: no allocation is larger than `isize::MAX` bytes. -/
structure OwnedText (target : Target) where
  value : String
  len_lt : Text.len value < 2 ^ (target.pointerBits - 1)

/-- `usize` addition without an overflow. -/
def checkedAdd (target : Target) (a b : Nat) : Option Nat :=
  if a + b < target.usizeEnd then some (a + b) else none

/-- The loop from `start` on, with the chunks so far. -/
def splitLoop (target : Target) (text : String) (chunkBytes start : Nat)
    (output : List LlmContextDocument) : Option (List LlmContextDocument) :=
  if _ : start < Text.len text then
    match checkedAdd target start chunkBytes with
    | none => none
    | some sum =>
      let stop := clampUtf8Boundary text (min sum (Text.len text))
      if _ : stop ≤ start then some output
      else
        match sliceBetween text.toList start stop with
        | none => none
        | some chunk => splitLoop target text chunkBytes stop (output ++
            [{ id := "chunk-" ++ toString (output.length + 1), text := String.ofList chunk }])
  else some output
termination_by Text.len text - start

def splitTextChunks {target : Target} (text : OwnedText target)
    (chunkBytes : Fin target.usizeEnd) : Option (List LlmContextDocument) :=
  if Text.isEmpty text.value then some []
  else splitLoop target text.value (max chunkBytes.val 256) 0 []

/-! ## One pass of the loop -/

section Pass

variable {target : Target} {text : String} {chunkBytes : Nat} {before rest : List Char}
  {output : List LlmContextDocument}

theorem splitLoop_end : splitLoop target text chunkBytes (Text.len text) output = some output := by
  rw [splitLoop, dif_neg (Nat.lt_irrefl _)]

/-- A chunk takes at least one character. -/
theorem chunk_ne_nil (hsize : 4 ≤ chunkBytes) (hrest : rest ≠ []) :
    (splitAtBytes chunkBytes rest).1 ≠ [] := by
  cases rest with
  | nil => exact absurd rfl hrest
  | cons c rest =>
    have hc := c.utf8Size_le_four
    rw [splitAtBytes, if_pos (by omega)]
    exact List.cons_ne_nil _ _

/-- A pass cuts off what fits into a chunk, between two characters. -/
theorem splitLoop_chunk (hsize : 4 ≤ chunkBytes) (htext : text.toList = before ++ rest)
    (hrest : rest ≠ []) (hroom : bytes before + chunkBytes < target.usizeEnd) :
    splitLoop target text chunkBytes (bytes before) output =
      splitLoop target text chunkBytes (bytes (before ++ (splitAtBytes chunkBytes rest).1))
        (output ++ [{ id := "chunk-" ++ toString (output.length + 1)
                      text := String.ofList (splitAtBytes chunkBytes rest).1 }]) := by
  have hlen : Text.len text = bytes (before ++ rest) := by rw [Text.len_eq, htext]
  have hpos : 0 < bytes rest := Nat.pos_of_ne_zero fun h => hrest (Text.bytes_eq_zero.mp h)
  have hstart : bytes before < Text.len text := by
    rw [hlen, Text.bytes_append]
    omega
  have hstop : clampUtf8Boundary text (min (bytes before + chunkBytes) (Text.len text)) =
      bytes (before ++ (splitAtBytes chunkBytes rest).1) := by
    rw [clampUtf8Boundary, Nat.min_assoc, Nat.min_self, hlen, htext]
    exact backToBoundary_chunk before rest chunkBytes
  have hmoved : ¬ bytes (before ++ (splitAtBytes chunkBytes rest).1) ≤ bytes before := by
    have hchunk := chunk_ne_nil hsize hrest
    have hbytes : 0 < bytes (splitAtBytes chunkBytes rest).1 :=
      Nat.pos_of_ne_zero fun h => hchunk (Text.bytes_eq_zero.mp h)
    rw [Text.bytes_append]
    omega
  have hslice := (cutsAtBoundaries text chunkBytes).chunk before rest htext
  rw [hstop] at hslice
  rw [splitLoop, dif_pos hstart, checkedAdd, if_pos hroom]
  dsimp only
  rw [hstop, dif_neg hmoved, hslice]

end Pass

/-! ## The whole loop -/

/-- The loop cuts what is left as the plan does. -/
theorem splitLoop_eq {target : Target} {text : OwnedText target} {chunkBytes fuel : Nat}
    {before rest : List Char} {output : List LlmContextDocument} (hsize : 4 ≤ chunkBytes)
    (htext : text.value.toList = before ++ rest) (hfuel : rest.length ≤ fuel)
    (hroom : rest ≠ [] → bytes before + chunkBytes < target.usizeEnd) :
    splitLoop target text.value chunkBytes (bytes before) output =
      some (output ++ splitTextChunksAux chunkBytes fuel output.length rest) := by
  induction fuel generalizing before rest output with
  | zero =>
    have hnil : rest = [] := List.length_eq_zero_iff.mp (Nat.le_zero.mp hfuel)
    rw [hnil, List.append_nil] at htext
    rw [← htext, ← Text.len_eq, splitLoop_end, splitTextChunksAux, List.append_nil]
  | succ fuel ih =>
    by_cases hrest : rest = []
    · subst hrest
      rw [List.append_nil] at htext
      rw [← htext, ← Text.len_eq, splitLoop_end, splitTextChunksAux]
      simp [splitAtBytes]
    · have hchunk := chunk_ne_nil hsize hrest
      have hsplit := splitAtBytes_append chunkBytes rest
      rw [splitLoop_chunk hsize htext hrest (hroom hrest), splitTextChunksAux]
      generalize hcut : splitAtBytes chunkBytes rest = cut at hchunk hsplit ⊢
      obtain ⟨chunk, after⟩ := cut
      have htext' : text.value.toList = (before ++ chunk) ++ after := by
        rw [htext, List.append_assoc, ← hsplit]
      have hshorter : after.length ≤ fuel := by
        have hlength : (chunk ++ after).length = rest.length := congrArg List.length hsplit
        have hpos : 0 < chunk.length := List.length_pos_iff.mpr hchunk
        rw [List.length_append] at hlength
        omega
      -- a chunk that leaves something is as long as the rest of the text allows
      have hroom' : after ≠ [] → bytes (before ++ chunk) + chunkBytes < target.usizeEnd := by
        intro hafter
        obtain ⟨c, more, rfl⟩ := List.exists_cons_of_ne_nil hafter
        have hnext : chunkBytes < bytes chunk + c.utf8Size := by
          have h : (splitAtBytes chunkBytes rest).2 = c :: more := by rw [hcut]
          have hlong := splitAtBytes_next h
          rwa [hcut] at hlong
        have hlen := text.len_lt
        rw [Text.len_eq, htext', Text.bytes_append, Text.bytes_cons] at hlen
        have hdouble : target.usizeEnd = 2 ^ (target.pointerBits - 1) * 2 := by
          have hbits := target.pointerBits_ge
          rw [← Nat.pow_succ, Nat.succ_eq_add_one, Nat.sub_add_cancel (by omega)]
          rfl
        rw [Text.bytes_append] at hlen ⊢
        omega
      rw [ih htext' hshorter hroom']
      cases chunk with
      | nil => exact absurd rfl hchunk
      | cons c chunk =>
        rw [List.append_assoc, List.length_append]
        rfl

/-- The loop comes to its end and has cut the chunks of the plan. -/
theorem splitTextChunks_eq {target : Target} (text : OwnedText target)
    (chunkBytes : Fin target.usizeEnd) :
    splitTextChunks text chunkBytes = some (Llm.splitTextChunks text.value chunkBytes.val) := by
  unfold splitTextChunks Llm.splitTextChunks
  by_cases hempty : Text.isEmpty text.value = true
  · have hnil : text.value.toList = [] := List.isEmpty_iff.mp hempty
    rw [if_pos hempty, hnil]
    rfl
  · rw [if_neg hempty]
    have hroom : bytes [] + max chunkBytes.val 256 < target.usizeEnd := by
      have hlt := chunkBytes.isLt
      have hbits : 2 ^ 16 ≤ target.usizeEnd :=
        Nat.pow_le_pow_right (by decide) target.pointerBits_ge
      rw [Text.bytes_nil]
      omega
    have hloop : splitLoop target text.value (max chunkBytes.val 256) (bytes []) [] =
        some ([] ++ splitTextChunksAux (max chunkBytes.val 256) text.value.toList.length 0
          text.value.toList) :=
      splitLoop_eq (by omega) rfl (Nat.le_refl _) fun _ => hroom
    exact hloop

/-- A short text is one chunk whatever size is asked for, here on 64 bits. -/
example : @splitTextChunks ⟨64, by decide⟩ ⟨"café", by decide⟩ ⟨1, by decide⟩ =
    some [⟨"chunk-1", "café"⟩] := by
  rw [splitTextChunks_eq]
  decide

/-! ## The chunks -/

/-- The chunks are the text, none is empty or too long, and each cut is between two
characters. -/
structure Lossless (text : String) (limit : Nat) (chunks : List LlmContextDocument) : Prop where
  joined : String.join (chunks.map (·.text)) = text
  nonempty : ∀ chunk ∈ chunks, 0 < Text.len chunk.text
  bounded : ∀ chunk ∈ chunks, Text.len chunk.text ≤ limit
  cuts : ∀ k, isCharBoundary text.toList
    ((chunks.take k).map fun chunk => Text.len chunk.text).sum = true

section Plan

variable {chunkBytes fuel count : Nat} {rest : List Char}

theorem joined_aux (hsize : 4 ≤ chunkBytes) (hfuel : rest.length ≤ fuel) :
    (splitTextChunksAux chunkBytes fuel count rest).flatMap (·.text.toList) = rest := by
  induction fuel generalizing count rest with
  | zero => rw [List.length_eq_zero_iff.mp (Nat.le_zero.mp hfuel)]; rfl
  | succ fuel ih =>
    rw [splitTextChunksAux]
    by_cases hrest : rest = []
    · subst hrest
      simp [splitAtBytes]
    · have hchunk := chunk_ne_nil hsize hrest
      have hsplit := splitAtBytes_append chunkBytes rest
      generalize splitAtBytes chunkBytes rest = cut at hchunk hsplit ⊢
      obtain ⟨chunk, after⟩ := cut
      cases chunk with
      | nil => exact absurd rfl hchunk
      | cons c chunk =>
        have hshorter : after.length ≤ fuel := by
          have hlength := congrArg List.length hsplit
          simp only [List.length_append, List.length_cons] at hlength
          omega
        show (String.ofList (c :: chunk)).toList ++ List.flatMap _ _ = rest
        rw [ih hshorter, String.toList_ofList]
        exact hsplit

theorem mem_aux {chunk : LlmContextDocument}
    (h : chunk ∈ splitTextChunksAux chunkBytes fuel count rest) :
    0 < Text.len chunk.text ∧ Text.len chunk.text ≤ chunkBytes := by
  induction fuel generalizing count rest with
  | zero => cases h
  | succ fuel ih =>
    rw [splitTextChunksAux] at h
    have hfit := bytes_splitAtBytes chunkBytes rest
    generalize splitAtBytes chunkBytes rest = cut at h hfit
    obtain ⟨cs, after⟩ := cut
    cases cs with
    | nil => cases h
    | cons c cs =>
      rcases List.mem_cons.mp h with rfl | h
      · have hpos := c.utf8Size_pos
        refine ⟨?_, ?_⟩
        · show 0 < Text.len (String.ofList (c :: cs))
          rw [Text.len_ofList, Text.bytes_cons]
          omega
        · show Text.len (String.ofList (c :: cs)) ≤ chunkBytes
          rw [Text.len_ofList]
          exact hfit
      · exact ih h

end Plan

/-- What comes before a cut is some of the chunks. -/
theorem cut_boundary {text : String} {chunks : List LlmContextDocument}
    (hjoined : chunks.flatMap (·.text.toList) = text.toList) (k : Nat) :
    isCharBoundary text.toList
      ((chunks.take k).map fun chunk => Text.len chunk.text).sum = true := by
  have hbytes : ∀ docs : List LlmContextDocument,
      (docs.map fun chunk => Text.len chunk.text).sum = bytes (docs.flatMap (·.text.toList)) := by
    intro docs
    induction docs with
    | nil => rfl
    | cons doc docs ih =>
      rw [List.map_cons, List.sum_cons, ih, List.flatMap_cons, Text.bytes_append, Text.len_eq]
  have hsplit : text.toList = (chunks.take k).flatMap (·.text.toList) ++
      (chunks.drop k).flatMap (·.text.toList) := by
    rw [← List.flatMap_append, List.take_append_drop, hjoined]
  rw [hbytes, hsplit, isCharBoundary, Text.cutAt_append]
  rfl

/-- For every text in memory and every chunk size the loop ends without an overflow or a
cut character, and its chunks lose nothing and keep to the larger of the size and 256
bytes. -/
theorem chunks_lossless {target : Target} (text : OwnedText target)
    (chunkBytes : Fin target.usizeEnd) :
    ∃ chunks, splitTextChunks text chunkBytes = some chunks ∧
      Lossless text.value (max chunkBytes.val 256) chunks := by
  refine ⟨_, splitTextChunks_eq text chunkBytes, ?_⟩
  have hjoined : (Llm.splitTextChunks text.value chunkBytes.val).flatMap (·.text.toList) =
      text.value.toList := joined_aux (by omega) (Nat.le_refl _)
  refine ⟨?_, fun _ hmem => (mem_aux hmem).1, fun _ hmem => (mem_aux hmem).2,
    cut_boundary hjoined⟩
  apply String.toList_inj.mp
  rw [String.toList_join, List.flatMap_map]
  exact hjoined

end Chunks
end Llm
end SecureAgnt

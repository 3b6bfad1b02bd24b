/-
The lines of a text that grows at its end.

A text that is empty or ends in a newline is closed: what is appended to it adds its
own lines and changes none of those that were there.
-/
import Mathlib.Data.List.Basic
import Mathlib.Data.List.DropRight

namespace SecureAgnt
namespace Lines

def stripCr (line : List Char) : List Char :=
  if line.getLast? = some '\r' then line.dropLast else line

/-- `str::lines`. -/
def lines (text : List Char) : List (List Char) :=
  let parts := text.splitOn '\n'
  parts.dropLast.map stripCr ++ parts.getLast?.toList.filter fun last => last ≠ []

def Closed (text : List Char) : Prop := text = [] ∨ text.getLast? = some '\n'

/-- `push('\n')` unless the text ends with one. -/
def close (text : List Char) : List Char :=
  if text.getLast? = some '\n' then text else text ++ ['\n']

variable {text more line : List Char}

theorem closed_close (text : List Char) : Closed (close text) := by
  unfold close
  split
  · rename_i h
    exact .inr h
  · exact .inr List.getLast?_concat

theorem closed_append (hmore : Closed more) (htext : Closed text) : Closed (text ++ more) := by
  rcases hmore with hmore | hmore
  · rw [hmore, List.append_nil]
    exact htext
  · exact .inr (by rw [List.getLast?_append, hmore, Option.some_or])

theorem lines_append (htext : Closed text) (more : List Char) :
    lines (text ++ more) = lines text ++ lines more := by
  rcases htext with hnil | hlast
  · rw [hnil]
    rfl
  · obtain ⟨init, rfl⟩ := List.getLast?_eq_some_iff.mp hlast
    have hsplit : ∀ rest, (init ++ '\n' :: rest).splitOn '\n' =
        init.splitOn '\n' ++ rest.splitOn '\n' := fun rest => List.splitOn_append_cons_self _ _
    have hmore : more.splitOn '\n' ≠ [] := List.splitOn_ne_nil _ _
    have hfirst : lines (init ++ ['\n']) = (init.splitOn '\n').map stripCr := by
      simp [lines, hsplit]
    rw [hfirst, List.append_assoc, List.singleton_append, lines, lines, hsplit,
      List.dropLast_append_of_ne_nil hmore, List.getLast?_append_of_ne_nil _ hmore,
      List.map_append, List.append_assoc]

theorem lines_line_cr (hline : '\n' ∉ line) : lines (line ++ ['\n']) = [stripCr line] := by
  have hsplit : (line ++ '\n' :: []).splitOn '\n' = line.splitOn '\n' ++ [].splitOn '\n' :=
    List.splitOn_append_cons_self _ _
  have hone : line.splitOn '\n' = [line] := List.splitOn_eq_singleton hline
  simp [lines, hsplit, hone]

theorem lines_line (hline : '\n' ∉ line) (hcr : line.getLast? ≠ some '\r') :
    lines (line ++ ['\n']) = [line] := by
  rw [lines_line_cr hline, stripCr, if_neg hcr]

theorem lines_replicate (hline : '\n' ∉ line) (hcr : line.getLast? ≠ some '\r') (n : Nat) :
    lines ((List.replicate n (line ++ ['\n'])).flatten ++ more) =
      List.replicate n line ++ lines more := by
  induction n with
  | zero => rfl
  | succ n ih =>
    have hclosed : Closed (line ++ ['\n']) := .inr List.getLast?_concat
    rw [List.replicate_succ, List.flatten_cons, List.append_assoc, lines_append hclosed, ih,
      lines_line hline hcr]
    rfl

/-- Lines written one after the other are read back. -/
theorem lines_flatMap {texts : List (List Char)}
    (h : ∀ text ∈ texts, '\n' ∉ text ∧ text.getLast? ≠ some '\r') :
    lines (texts.flatMap fun text => text ++ ['\n']) = texts := by
  induction texts with
  | nil => rfl
  | cons text texts ih =>
    have hclosed : Closed (text ++ ['\n']) := .inr List.getLast?_concat
    obtain ⟨hnewline, hcr⟩ := h text List.mem_cons_self
    rw [List.flatMap_cons, lines_append hclosed, lines_line hnewline hcr,
      ih fun other hother => h other (List.mem_cons_of_mem _ hother)]
    rfl

/-- A text without a newline is one line. -/
theorem lines_eq_singleton (hline : '\n' ∉ line) (hsome : line ≠ []) : lines line = [line] := by
  unfold lines
  rw [List.splitOn_eq_singleton hline]
  simp [hsome]

/-- A text is closed up to its last line. -/
theorem closed_rdropWhile (text : List Char) : Closed (text.rdropWhile fun c => c ≠ '\n') := by
  by_cases hnil : (text.rdropWhile fun c => c ≠ '\n') = []
  · exact .inl hnil
  · have hlast := List.rdropWhile_last_not (fun c => decide (c ≠ '\n')) text hnil
    refine .inr ?_
    rw [List.getLast?_eq_some_getLast hnil]
    simpa using hlast

/-- What is appended to a text that is not closed adds to its last line. -/
theorem closed_of_lines_append (hline : '\n' ∉ line)
    (h : lines (text ++ (line ++ ['\n'])) = lines text ++ [line]) : Closed text := by
  by_contra hopen
  obtain ⟨last, hlast⟩ : ∃ last, last = text.rtakeWhile fun c => c ≠ '\n' := ⟨_, rfl⟩
  have hparts : (text.rdropWhile fun c => c ≠ '\n') ++ last = text := by
    rw [hlast]
    exact List.rdropWhile_append_rtakeWhile
  have hclosed := closed_rdropWhile text
  generalize (text.rdropWhile fun c => c ≠ '\n') = init at hparts hclosed
  have hnewline : '\n' ∉ last := by
    rw [hlast]
    intro hmem
    simpa using List.mem_rtakeWhile_imp hmem
  have hsome : last ≠ [] := by
    intro hnil
    rw [hnil, List.append_nil] at hparts
    exact hopen (hparts ▸ hclosed)
  have hcount : (lines (text ++ (line ++ ['\n']))).length = (lines text).length := by
    have hjoined : '\n' ∉ last ++ line := by simp [hnewline, hline]
    rw [← hparts, List.append_assoc, lines_append hclosed, lines_append hclosed,
      ← List.append_assoc last, lines_line_cr hjoined, lines_eq_singleton hnewline hsome]
    simp
  rw [h] at hcount
  simp at hcount

theorem newline_notMem_splitOn (text : List Char) : ∀ part ∈ text.splitOn '\n', '\n' ∉ part := by
  induction text with
  | nil => simp
  | cons c rest ih =>
    rw [List.splitOn_cons_eq_if_modifyHead]
    by_cases hc : c = '\n'
    · simpa [hc] using ih
    · obtain ⟨first, others, hsplit⟩ := List.exists_cons_of_ne_nil (List.splitOn_ne_nil '\n' rest)
      rw [hsplit] at ih ⊢
      rw [if_neg (by simpa using hc), List.modifyHead_cons]
      intro part hpart
      rcases List.mem_cons.mp hpart with rfl | hpart
      · rw [List.mem_cons, not_or]
        exact ⟨fun h => hc h.symm, ih first List.mem_cons_self⟩
      · exact ih part (List.mem_cons_of_mem _ hpart)

theorem newline_notMem_lines (h : line ∈ lines text) : '\n' ∉ line := by
  rcases List.mem_append.mp h with h | h
  · obtain ⟨part, hmem, rfl⟩ := List.mem_map.mp h
    intro hnewline
    refine newline_notMem_splitOn text part (List.dropLast_subset _ hmem) ?_
    unfold stripCr at hnewline
    split at hnewline
    · exact List.dropLast_subset _ hnewline
    · exact hnewline
  · have hmem := (List.mem_filter.mp h).1
    rw [Option.mem_toList] at hmem
    exact newline_notMem_splitOn text line (List.mem_of_getLast? hmem)

end Lines
end SecureAgnt

import Kei.Text.Lines
import Mathlib.Data.List.Infix

/-!
# Lines of texts

Lines without line ends of their own are read back from a text (`lines_flatMap`). And what stands
somewhere in a text, without white space in it, is found whole on the line whose number is that of
the line feeds before it (`exists_getElem?_lines`).
-/

namespace Kei.Text

theorem linesFrom_cons {c : Char} (h : c ≠ '\n') (ended : List (List Char)) (read cs : List Char) :
    linesFrom ended read (c :: cs) = linesFrom ended (c :: read) cs := by
  rw [linesFrom]
  exact h

theorem linesFrom_append {line : List Char} (h : ∀ c ∈ line, c ≠ '\n') (ended : List (List Char))
    (read cs : List Char) :
    linesFrom ended read (line ++ cs) = linesFrom ended (line.reverse ++ read) cs := by
  induction line generalizing read with
  | nil => rfl
  | cons c line ih =>
    obtain ⟨hc, hline⟩ := List.forall_mem_cons.1 h
    rw [List.cons_append, linesFrom_cons hc, ih hline, List.reverse_cons, List.append_assoc]
    rfl

/-- A line without line ends of its own is read back. -/
theorem endedLine_reverse {line : List Char} (h : ∀ c ∈ line, c ≠ '\r') :
    endedLine line.reverse = line := by
  cases hr : line.reverse with
  | nil => simp_all [endedLine]
  | cons c rest =>
    have hc : c ≠ '\r' := h c (List.mem_reverse.1 (hr ▸ List.mem_cons_self))
    have hline : line = rest.reverse ++ [c] := by simpa using congrArg List.reverse hr
    simp [endedLine, hc, hline]

theorem lines_flatMap (ls : List (List Char)) (h : ∀ l ∈ ls, ∀ c ∈ l, c ≠ '\n' ∧ c ≠ '\r') :
    lines (ls.flatMap (· ++ ['\n'])) = ls := by
  suffices ∀ ended, linesFrom ended [] (ls.flatMap (· ++ ['\n'])) = ended.reverse ++ ls by
    simpa [lines] using this []
  induction ls with
  | nil => simp [linesFrom]
  | cons l ls ih =>
    intro ended
    have hl := h l List.mem_cons_self
    have hread := linesFrom_append (fun c hc => (hl c hc).1) ended []
      ('\n' :: ls.flatMap (· ++ ['\n']))
    simp only [List.flatMap_cons, List.append_assoc, List.singleton_append, List.append_nil] at *
    rw [hread, linesFrom, endedLine_reverse fun c hc => (hl c hc).2,
      ih (fun l hl => h l (List.mem_cons_of_mem _ hl))]
    simp

/-! ## What stands on a line -/

theorem linesFrom_eq (ended : List (List Char)) (read cs : List Char) :
    linesFrom ended read cs = ended.reverse ++ linesFrom [] read cs := by
  induction cs generalizing ended read with
  | nil =>
    simp only [linesFrom]
    split <;> simp
  | cons c cs ih =>
    by_cases hc : c = '\n'
    · subst hc
      rw [linesFrom, linesFrom, ih, ih [endedLine read]]
      simp
    · rw [linesFrom_cons hc, linesFrom_cons hc]
      exact ih ended (c :: read)

/-- The carriage return that belongs to a line end is at the end of the line. -/
theorem infix_endedLine {lexeme read : List Char} (hne : lexeme ≠ []) (hreturn : '\r' ∉ lexeme)
    (h : lexeme <:+: read.reverse) : lexeme <:+: endedLine read := by
  unfold endedLine
  split
  · rename_i rest
    rw [List.reverse_cons] at h
    obtain hsuffix | hinfix := List.infix_concat_iff.1 h
    · obtain rfl | ⟨l, rfl, -⟩ := List.suffix_concat_iff.1 hsuffix
      · exact absurd rfl hne
      · exact absurd (List.mem_append_right l List.mem_cons_self) hreturn
    · exact hinfix
  · exact h

/-- What was read of the current line stays on it. -/
theorem exists_getElem?_linesFrom {lexeme read : List Char} (hne : lexeme ≠ [])
    (hreturn : '\r' ∉ lexeme) (h : lexeme <:+: read.reverse) (cs : List Char) :
    ∃ line, (linesFrom [] read cs)[0]? = some line ∧ lexeme <:+: line := by
  induction cs generalizing read with
  | nil =>
    have hread : read ≠ [] := by
      rintro rfl
      exact hne (List.infix_nil.1 h)
    exact ⟨read.reverse, by simp [linesFrom, hread], h⟩
  | cons c cs ih =>
    by_cases hc : c = '\n'
    · subst hc
      rw [linesFrom, linesFrom_eq]
      exact ⟨endedLine read, rfl, infix_endedLine hne hreturn h⟩
    · rw [linesFrom_cons hc]
      refine ih ?_
      rw [List.reverse_cons]
      exact h.trans (List.prefix_append _ _).isInfix

/-- A part of a text without line ends stands on one line. -/
theorem exists_getElem?_lines {lexeme : List Char} (hne : lexeme ≠ []) (hfeed : '\n' ∉ lexeme)
    (hreturn : '\r' ∉ lexeme) (before after : List Char) :
    ∃ line, (lines (before ++ (lexeme ++ after)))[before.count '\n']? = some line ∧
      lexeme <:+: line := by
  suffices ∀ read, ∃ line,
      (linesFrom [] read (before ++ (lexeme ++ after)))[before.count '\n']? = some line ∧
        lexeme <:+: line from this []
  -- line feeds before the part end lines, all else is read into the current one
  induction before with
  | nil =>
    intro read
    rw [List.nil_append, linesFrom_append fun c hc hfeed' => hfeed (hfeed' ▸ hc)]
    refine exists_getElem?_linesFrom hne hreturn ?_ after
    rw [List.reverse_append, List.reverse_reverse]
    exact (List.suffix_append _ _).isInfix
  | cons c before ih =>
    intro read
    by_cases hc : c = '\n'
    · subst hc
      rw [List.cons_append, linesFrom, linesFrom_eq, List.count_cons_self]
      exact ih []
    · rw [List.cons_append, linesFrom_cons hc, List.count_cons_of_ne hc]
      exact ih (c :: read)

theorem newline_not_mem_endedLine {read : List Char} (h : '\n' ∉ read) : '\n' ∉ endedLine read := by
  unfold endedLine
  split
  · exact fun hmem => h (List.mem_cons_of_mem _ (List.mem_reverse.1 hmem))
  · exact fun hmem => h (List.mem_reverse.1 hmem)

/-- Lines hold no line feeds. -/
theorem newline_not_mem_of_mem_lines {line cs : List Char} (h : line ∈ lines cs) :
    '\n' ∉ line := by
  suffices ∀ read, '\n' ∉ read → ∀ l ∈ linesFrom [] read cs, '\n' ∉ l from
    this [] List.not_mem_nil line h
  clear h
  induction cs with
  | nil =>
    intro read hread l hl
    simp only [linesFrom] at hl
    split at hl
    · cases hl
    · obtain rfl : l = read.reverse := by simpa using hl
      exact fun hmem => hread (List.mem_reverse.1 hmem)
  | cons c cs ih =>
    intro read hread l hl
    by_cases hc : c = '\n'
    · subst hc
      rw [linesFrom, linesFrom_eq] at hl
      obtain rfl | hl := List.mem_cons.1 hl
      · exact newline_not_mem_endedLine hread
      · exact ih [] List.not_mem_nil l hl
    · rw [linesFrom_cons hc] at hl
      exact ih (c :: read) (by simp [hread, Ne.symm hc]) l hl

end Kei.Text

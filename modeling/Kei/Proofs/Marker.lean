import Kei.Diagnostic
import Kei.Compile

/-!
# Where the marker stands

The marker under a quoted line is as long as the line has characters between white space. It is
indented by bytes though, so it stands under these characters only if each white character before
them takes one byte.
-/

namespace Kei

namespace Text

@[simp] theorem utf8Size_nil : utf8Size [] = 0 := rfl

theorem utf8Size_cons (c : Char) (cs : List Char) :
    utf8Size (c :: cs) = c.utf8Size + utf8Size cs := by
  have hfrom (n : Nat) : cs.foldl (fun n c => n + c.utf8Size) n = n + utf8Size cs := by
    induction cs generalizing n with
    | nil => rfl
    | cons d cs ih =>
      rw [utf8Size, List.foldl_cons, List.foldl_cons, ih, ih]
      omega
  rw [utf8Size, List.foldl_cons, hfrom, Nat.zero_add]

theorem utf8Size_append (cs ds : List Char) : utf8Size (cs ++ ds) = utf8Size cs + utf8Size ds := by
  induction cs with
  | nil => exact (Nat.zero_add _).symm
  | cons c cs ih => rw [List.cons_append, utf8Size_cons, utf8Size_cons, ih, Nat.add_assoc]

theorem length_le_utf8Size (cs : List Char) : cs.length ≤ utf8Size cs := by
  induction cs with
  | nil => exact Nat.le_refl _
  | cons c cs ih =>
    have hpos := c.utf8Size_pos
    rw [List.length_cons, utf8Size_cons]
    omega

/-- As many bytes as characters are as many as there can be if each character takes one. -/
theorem utf8Size_eq_length_iff {cs : List Char} :
    utf8Size cs = cs.length ↔ ∀ c ∈ cs, c.utf8Size = 1 := by
  induction cs with
  | nil => simp
  | cons c cs ih =>
    have hpos := c.utf8Size_pos
    have hle := length_le_utf8Size cs
    rw [List.forall_mem_cons, ← ih, List.length_cons, utf8Size_cons]
    omega

/-- The bytes that are trimmed at the start are those of the leading white space. -/
theorem utf8Size_sub_trimStart (cs : List Char) :
    utf8Size cs - utf8Size (trimStart cs) = utf8Size (cs.takeWhile isWhite) := by
  have hsplit : utf8Size cs = utf8Size (cs.takeWhile isWhite) + utf8Size (trimStart cs) := by
    rw [trimStart, ← utf8Size_append, List.takeWhile_append_dropWhile]
  omega

end Text

/-- An error about a line that is not blank is rendered with as many carets under the line as the
line has characters between white space. The carets follow as many characters as the margin has and
the leading white space has bytes, so they stand right under these characters if and only if each
white character before them takes one byte. -/
theorem render_marker {source : String} {e : CompileError} {number : Nat} {line : List Char}
    (hnumber : e.line? = some number) (hline : (Text.lines source.toList)[number - 1]? = some line)
    (hblank : Text.trim line ≠ []) :
    let margin := toString number ++ " | "
    let leading := line.takeWhile Text.isWhite
    ∃ gap : String, '^' ∉ gap.toList ∧
      e.render source = "error: " ++ e.message ++ "\n" ++
        (margin ++ String.ofList line ++ "\n" ++
          (gap ++ String.ofList (List.replicate (Text.trim line).length '^') ++ "\n")) ∧
      gap.length = margin.length + Text.utf8Size leading ∧
      (gap.length = margin.length + leading.length ↔ ∀ c ∈ leading, c.utf8Size = 1) := by
  intro margin leading
  have hwidth : max 1 (Text.trim line).length = (Text.trim line).length :=
    Nat.max_eq_right (List.length_pos_iff.2 hblank)
  have hlength : (String.ofList (List.replicate (toString number).length ' ') ++ " | " ++
      String.ofList (List.replicate (Text.utf8Size leading) ' ')).length =
        margin.length + Text.utf8Size leading := by
    simp [margin]
  refine ⟨_, ?_, ?_, hlength, ?_⟩
  · simp
  · rw [CompileError.render, hnumber]
    simp only [hline, CompileError.quote, hwidth, Text.utf8Size_sub_trimStart]
    simp only [margin, leading, String.append_assoc]
  · rw [hlength, Nat.add_left_cancel_iff]
    exact Text.utf8Size_eq_length_iff

/-- A line that begins with a tab and a blank and holds a character of two bytes. -/
def tabbedText : String :=
  "let a = 1;\r\n\t exit(a + ü); \r\n"

theorem render_marker_tabbedText :
    ∃ gap : String, '^' ∉ gap.toList ∧
      (CompileError.scope (.undeclared "ü" 2)).render tabbedText =
        "error: undeclared identifier 'ü' on line 2\n" ++
          ("2 | \t exit(a + ü); \n" ++ (gap ++ "^^^^^^^^^^^^" ++ "\n")) ∧
      gap.length = 6 := by
  have hline : (Text.lines tabbedText.toList)[1]? = some "\t exit(a + ü); ".toList := by decide
  have hblank : Text.trim "\t exit(a + ü); ".toList ≠ [] := by decide
  obtain ⟨gap, hgap, hrender, hlength, -⟩ :=
    render_marker (e := .scope (.undeclared "ü" 2)) rfl hline hblank
  refine ⟨gap, hgap, ?_, hlength⟩
  exact hrender

/-- A line that begins with one white character, of three bytes. -/
def wideText : String :=
  "\u3000exit(y);"

/-- The marker of the wide text stands two characters to the right of what it marks. -/
theorem render_marker_wideText :
    compile 2000 wideText = .error (.scope (.undeclared "y" 1)) ∧
      (CompileError.scope (.undeclared "y" 1)).render wideText =
        "error: undeclared identifier 'y' on line 1\n1 | \u3000exit(y);\n  |    ^^^^^^^^\n" ∧
      ("  |    ^^^^^^^^".toList.takeWhile (· ≠ '^')).length ≠
        "1 | ".length + (wideText.toList.takeWhile Text.isWhite).length := by
  have herror : (match compile 2000 wideText with
      | .ok _ => none
      | .error e => some e) = some (CompileError.scope (.undeclared "y" 1)) := by
    decide +kernel
  refine ⟨?_, by decide, by decide⟩
  cases h : compile 2000 wideText with
  | ok asm => simp [h] at herror
  | error e => simpa [h] using herror

end Kei

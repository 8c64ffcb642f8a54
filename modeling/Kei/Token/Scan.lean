import Kei.Text.White
import Kei.Text.Numeral
import Kei.Token.Basic

/-!
# From text to tokens

`scan` cuts a text into tokens. It proceeds by steps: at each step the text starts with a gap (one
character of white space, or a comment) or with a lexeme, or it starts with neither and scanning
stops. Words and numbers are maximal runs. A line comment ends before the next line feed, a block
comment after the next `*/`; where that is missing, either runs to the end of the text. Only line
feeds count lines.
-/

namespace Kei

inductive LexError
  /-- A character that starts neither a gap nor a lexeme. -/
  | unexpectedCharacter (character : Char) (line : Nat)
  /-- A number of `2 ^ 63` or more. -/
  | invalidNumber (text : String) (line : Nat)
deriving DecidableEq, Repr

namespace Token

/-- A word is a keyword or else an identifier. -/
def ofWord (line : Nat) (word : String) : Token :=
  match Kind.keywords.lookup word with
  | some kind => { kind, line }
  | none => { kind := .identifier, line, text := some word }

/-- Leave a block comment: the line reached, and the text after the first `*/`. -/
def leaveComment (line : Nat) : List Char → Nat × List Char
  | [] => (line, [])
  | '*' :: '/' :: cs => (line, cs)
  | c :: cs => leaveComment (if c = '\n' then line + 1 else line) cs

/-- One step of scanning: the token if the step passed a lexeme, the line and the text after it. -/
structure Step where
  token : Option Token
  line : Nat
  rest : List Char

/-- The step at a text that starts with the character `c`. -/
def step (line : Nat) (c : Char) (cs : List Char) : Except LexError Step :=
  if Text.isWhite c then
    .ok ⟨none, if c = '\n' then line + 1 else line, cs⟩
  else if c.isAlpha then
    let word := String.ofList (c :: cs.takeWhile Char.isAlphanum)
    .ok ⟨some (ofWord line word), line, cs.dropWhile Char.isAlphanum⟩
  else if c.isDigit then
    let digits := c :: cs.takeWhile Char.isDigit
    let text := String.ofList digits
    match Text.numeral? (1 <<< 63) digits with
    | some _ =>
      .ok ⟨some { kind := .integer, line, text := some text }, line, cs.dropWhile Char.isDigit⟩
    | none => .error (.invalidNumber text line)
  else if c = '/' then
    match cs with
    | '/' :: cs => .ok ⟨none, line, cs.dropWhile (· ≠ '\n')⟩
    | '*' :: cs =>
      let after := leaveComment line cs
      .ok ⟨none, after.1, after.2⟩
    | cs => .ok ⟨some { kind := .slash, line }, line, cs⟩
  else
    match Kind.punctuators.lookup c with
    | some kind => .ok ⟨some { kind, line }, line, cs⟩
    | none => .error (.unexpectedCharacter c line)

theorem leaveComment_length_le (line : Nat) (cs : List Char) :
    (leaveComment line cs).2.length ≤ cs.length := by
  fun_induction leaveComment line cs with
  | case1 => simp
  | case2 => simp only [List.length_cons]; omega
  | case3 line c cs _ ih => exact Nat.le_succ_of_le ih

/-- Every step passes at least the character it looked at. -/
theorem step_length_le {line : Nat} {c : Char} {cs : List Char} {s : Step}
    (h : step line c cs = .ok s) : s.rest.length ≤ cs.length := by
  have hdrop (p : Char → Bool) (l : List Char) : (l.dropWhile p).length ≤ l.length :=
    (List.dropWhile_sublist p).length_le
  unfold step at h
  split at h
  · cases h; exact Nat.le_refl _
  split at h
  · cases h; exact hdrop _ _
  split at h
  · dsimp only at h
    split at h <;> cases h
    exact hdrop _ _
  split at h
  · split at h <;> cases h
    · exact Nat.le_succ_of_le (hdrop _ _)
    · exact Nat.le_succ_of_le (leaveComment_length_le _ _)
    · exact Nat.le_refl _
  · split at h <;> cases h
    exact Nat.le_refl _

/-- Scan a text from a line on; `read` holds the tokens before it, newest first. -/
def scanFrom (read : List Token) (line : Nat) : List Char → Except LexError (List Token)
  | [] => .ok read.reverse
  | c :: cs =>
    match _h : step line c cs with
    | .error e => .error e
    | .ok s => scanFrom (s.token.toList ++ read) s.line s.rest
termination_by cs => cs.length
decreasing_by
  have := step_length_le _h
  simp only [List.length_cons]
  omega

/-- The tokens of a text, or the first fault. -/
def scan (text : String) : Except LexError (List Token) :=
  scanFrom [] 1 text.toList

end Token

end Kei

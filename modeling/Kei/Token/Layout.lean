import Kei.Text.Numeral
import Kei.Text.White
import Kei.Token.Basic
import Kei.Token.Scan

/-!
# Texts as gaps and lexemes

A text is laid out as a gap, a lexeme, a gap, and so on. A gap is made of white space and comments,
and a lexeme is a token as it is written. Where a comment, a word or a number ends depends on what
follows it, so whether a part of a layout fits is said of the part and the text after it.
-/

namespace Kei

/-- How a kind of token is written, unless the token has a text of its own. -/
def Kind.spelling : Kind → String
  | .exitWord => "exit"
  | .letWord => "let"
  | .ifWord => "if"
  | .elifWord => "elif"
  | .elseWord => "else"
  | .semicolon => ";"
  | .leftParen => "("
  | .rightParen => ")"
  | .equals => "="
  | .plus => "+"
  | .star => "*"
  | .minus => "-"
  | .slash => "/"
  | .leftBrace => "\x7b"
  | .rightBrace => "\x7d"
  | .integer | .identifier => ""

/-- The kinds of the reserved words. -/
def Kind.reserved : List Kind :=
  [.exitWord, .letWord, .ifWord, .elifWord, .elseWord]

/-- The text does not go on with a character of a class. -/
def Ends (p : Char → Bool) (after : List Char) : Prop :=
  ∀ c ∈ after.head?, p c = false

namespace Token

/-- The characters of the token. -/
def written (t : Token) : List Char :=
  match t.kind with
  | .integer | .identifier => t.toLexeme.spelling.toList
  | k => k.spelling.toList

/-- The token is well formed, and the text after it does not continue it. -/
def Fits (t : Token) (after : List Char) : Prop :=
  match t.kind with
  | .identifier =>
    ∃ c cs, t.text = some (String.ofList (c :: cs)) ∧ c.isAlpha ∧ (∀ d ∈ cs, d.isAlphanum) ∧
      String.ofList (c :: cs) ∉ Kind.reserved.map Kind.spelling ∧ Ends Char.isAlphanum after
  | .integer =>
    ∃ digits, t.text = some (String.ofList digits) ∧ digits ≠ [] ∧ (∀ d ∈ digits, d.isDigit) ∧
      Text.numeralValue digits < 1 <<< 63 ∧ Ends Char.isDigit after
  | .slash => t.text = none ∧ Ends (fun c => c = '/' || c = '*') after
  | .exitWord | .letWord | .ifWord | .elifWord | .elseWord =>
    t.text = none ∧ Ends Char.isAlphanum after
  | _ => t.text = none

end Token

/-- A part of a gap. -/
inductive Piece
  | white (c : Char)
  | lineComment (body : List Char)
  | blockComment (body : List Char)
  /-- A block comment that is never closed. -/
  | openComment (body : List Char)

namespace Piece

def text : Piece → List Char
  | white c => [c]
  | lineComment body => '/' :: '/' :: body
  | blockComment body => '/' :: '*' :: (body ++ ['*', '/'])
  | openComment body => '/' :: '*' :: body

/-- A line comment ends before a line feed or with the text, a block comment at the first `*/` after
its opener. -/
def Fits (after : List Char) : Piece → Prop
  | white c => Text.isWhite c
  | lineComment body => '\n' ∉ body ∧ Ends (· ≠ '\n') after
  | blockComment body => ¬ ['*', '/'] <:+: body ++ ['*']
  | openComment body => ¬ ['*', '/'] <:+: body ∧ after = []

end Piece

abbrev Gap := List Piece

namespace Gap

def text (g : Gap) : List Char :=
  g.flatMap Piece.text

def Fits (after : List Char) : Gap → Prop
  | [] => True
  | p :: g => p.Fits (text g ++ after) ∧ Fits after g

end Gap

/-- A gap, and then lexemes with the gaps after them. -/
structure Layout where
  first : Gap
  lexemes : List (Token × Gap)

namespace Layout

/-- The text of lexemes and gaps. -/
def textOf (lexemes : List (Token × Gap)) : List Char :=
  lexemes.flatMap fun p => p.1.written ++ Gap.text p.2

def text (l : Layout) : List Char :=
  Gap.text l.first ++ textOf l.lexemes

def tokens (l : Layout) : List Token :=
  l.lexemes.map Prod.fst

def FitsAll (after : List Char) : List (Token × Gap) → Prop
  | [] => True
  | (t, g) :: rest =>
    t.Fits (Gap.text g ++ (textOf rest ++ after)) ∧ Gap.Fits (textOf rest ++ after) g ∧
      FitsAll after rest

def Fits (l : Layout) (after : List Char) : Prop :=
  Gap.Fits (textOf l.lexemes ++ after) l.first ∧ FitsAll after l.lexemes

/-- Each token has the number of its line, where the text starts on the line `first`. -/
def Numbered (first : Nat) (l : Layout) : Prop :=
  ∀ before t g after, l.lexemes = before ++ (t, g) :: after →
    t.line = first + (Gap.text l.first ++ textOf before).count '\n'

end Layout

/-- The text starts with a fault, on a line: with a character that is not white and starts no
lexeme, or with a maximal run of digits of too great a value. -/
def LexError.StandsAt (line : Nat) (text : List Char) : LexError → Prop
  | unexpectedCharacter c n =>
    n = line ∧ text.head? = some c ∧ Text.isWhite c = false ∧
      ∀ (t : Token) (after : List Char), t.Fits after → t.written.head? ≠ some c
  | invalidNumber word n =>
    n = line ∧ ∃ digits rest, text = digits ++ rest ∧ word = String.ofList digits ∧ digits ≠ [] ∧
      (∀ d ∈ digits, d.isDigit) ∧ Ends Char.isDigit rest ∧ 1 <<< 63 ≤ Text.numeralValue digits

end Kei

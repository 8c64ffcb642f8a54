/-!
# Tokens

The seventeen kinds of tokens, their spelling tables and their names in messages. A `Lexeme` is a
text with the line it stands on; a `Token` is a lexeme of a kind. Only identifiers and integer
literals need their text, so for every other kind it is usually absent.
-/

namespace Kei

inductive Kind
  | exitWord
  | integer
  | semicolon
  | leftParen
  | rightParen
  | identifier
  | letWord
  | equals
  | plus
  | star
  | minus
  | slash
  | leftBrace
  | rightBrace
  | ifWord
  | elifWord
  | elseWord
deriving DecidableEq, Repr, Inhabited

namespace Kind

/-- Every kind, in the order of their declaration. -/
def all : List Kind :=
  [exitWord, integer, semicolon, leftParen, rightParen, identifier, letWord, equals, plus, star,
    minus, slash, leftBrace, rightBrace, ifWord, elifWord, elseWord]

/-- The reserved words. -/
def keywords : List (String × Kind) :=
  [("exit", exitWord), ("let", letWord), ("if", ifWord), ("elif", elifWord), ("else", elseWord)]

/-- The tokens of one character. The slash is not among them: it may open a comment. -/
def punctuators : List (Char × Kind) :=
  [('(', leftParen), (')', rightParen), (';', semicolon), ('=', equals), ('+', plus), ('*', star),
    ('-', minus), ('{', leftBrace), ('}', rightBrace)]

/-- How tightly a binary operator binds; no other kind has a level. -/
def level? : Kind → Option Nat
  | plus | minus => some 0
  | star | slash => some 1
  | _ => none

/-- The name of a kind in messages. -/
def describe : Kind → String
  | exitWord => "`exit`"
  | integer => "int literal"
  | semicolon => "`;`"
  | leftParen => "`(`"
  | rightParen => "`)`"
  | identifier => "identifier"
  | letWord => "`let`"
  | equals => "`=`"
  | plus => "`+`"
  | star => "`*`"
  | minus => "`-`"
  | slash => "`/`"
  | leftBrace => "`\x7b`"
  | rightBrace => "`\x7d`"
  | ifWord => "`if`"
  | elifWord => "`elif`"
  | elseWord => "`else`"

end Kind

/-- A text, if there is one, and the line it stands on. -/
structure Lexeme where
  line : Nat
  text : Option String := none
deriving DecidableEq, Repr, Inhabited

/-- The text of a lexeme; one without text is spelled by the empty string. -/
def Lexeme.spelling (l : Lexeme) : String :=
  l.text.getD ""

structure Token extends Lexeme where
  kind : Kind
deriving DecidableEq, Repr, Inhabited

namespace Token

/-- The line of a token, its kind and its text if it has one. -/
def display (t : Token) : String :=
  match t.text with
  | some text => toString t.line ++ ":" ++ t.kind.describe ++ " " ++ text
  | none => toString t.line ++ ":" ++ t.kind.describe

/-- What was found at a place of the token list: a token, or the end of the list. -/
def describe : Option Token → String
  | some t =>
    match t.text with
    | some text => t.kind.describe ++ " `" ++ text ++ "`"
    | none => t.kind.describe
  | none => "end of input"

end Token

end Kei

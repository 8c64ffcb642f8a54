import Kei.Memory.Arena
import Kei.Syntax.Reader
import Kei.Syntax.ScopeError
import Kei.Text.Lines
import Kei.Text.White
import Kei.Token.Scan

/-!
# Diagnostics

The four ways in which a compilation fails, the message of each, and the rendering of a message with
the source line it points at and a marker under that line. The marker is indented by the bytes of
the line's leading white space and is as long as the line has characters between white space.
-/

namespace Kei

inductive CompileError
  | lex (e : LexError)
  | grammar (e : SyntaxError)
  | memory (e : Refusal)
  | scope (e : ScopeError)
deriving DecidableEq, Repr

def LexError.message : LexError → String
  | unexpectedCharacter c line =>
    "invalid token '" ++ c.toString ++ "' on line " ++ toString line
  | invalidNumber text line => "invalid number '" ++ text ++ "' on line " ++ toString line

def SyntaxError.message : SyntaxError → String
  | expected what got line =>
    "expected " ++ what ++ " on line " ++ toString line ++ ", got " ++ got
  | nestingTooDeep limit line =>
    "nesting deeper than " ++ toString limit ++ " levels on line " ++ toString line

def Refusal.message (r : Refusal) : String :=
  "arena exhausted: no room for " ++ toString r.requested ++ " more bytes within the " ++
    toString r.limit ++ "-byte limit"

def ScopeError.message : ScopeError → String
  | undeclared name line => "undeclared identifier '" ++ name ++ "' on line " ++ toString line
  | duplicate name line =>
    "identifier '" ++ name ++ "' already declared in this scope on line " ++ toString line

namespace CompileError

def message : CompileError → String
  | .lex e => e.message
  | .grammar e => e.message
  | .memory e => e.message
  | .scope e => e.message

/-- The source line that an error points at. -/
def line? : CompileError → Option Nat
  | .lex (.unexpectedCharacter _ line) | .lex (.invalidNumber _ line) => some line
  | .grammar (.expected _ _ line) | .grammar (.nestingTooDeep _ line) => some line
  | .memory _ => none
  | .scope (.undeclared _ line) | .scope (.duplicate _ line) => some line

/-- A source line behind its number, and the marker under it. -/
def quote (number : Nat) (line : List Char) : String :=
  let gutter := toString number
  let indent := Text.utf8Size line - Text.utf8Size (Text.trimStart line)
  let width := max 1 (Text.trim line).length
  gutter ++ " | " ++ String.ofList line ++ "\n" ++
    String.ofList (List.replicate gutter.length ' ') ++ " | " ++
    String.ofList (List.replicate indent ' ') ++ String.ofList (List.replicate width '^') ++ "\n"

/-- The message of an error, and the source line it points at if the source has that line. -/
def render (source : String) (e : CompileError) : String :=
  let head := "error: " ++ e.message ++ "\n"
  match e.line? with
  | none => head
  | some number =>
    match (Text.lines source.toList)[number - 1]? with
    | none => head
    | some line => head ++ quote number line

end CompileError

end Kei

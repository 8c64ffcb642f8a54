import Kei.Token.Basic

/-!
# Open brackets

Which brackets are open behind some tokens, by the kinds of the tokens alone. Scopes and
parenthesised terms count as nesting. The parentheses behind `exit`, `if` and `elif` do not: they
belong to the statement, as its punctuation.
-/

namespace Kei

/-- What an open bracket belongs to. -/
inductive Bracket
  | scope
  | term
  /-- The parentheses that `exit`, `if` and `elif` are followed by. -/
  | head
deriving DecidableEq, Repr

/-- The brackets open behind some tokens. -/
structure Brackets where
  /-- The open brackets, innermost first. -/
  opened : List Bracket := []
  /-- The last token was `exit`, `if` or `elif`. -/
  headed : Bool := false
deriving DecidableEq, Repr

namespace Brackets

/-- The brackets open behind one more token. -/
def next (b : Brackets) (kind : Kind) : Brackets where
  opened :=
    match kind with
    | .leftBrace => .scope :: b.opened
    | .leftParen => (if b.headed then .head else .term) :: b.opened
    | .rightBrace | .rightParen => b.opened.tail
    | _ => b.opened
  headed :=
    match kind with
    | .exitWord | .ifWord | .elifWord => true
    | _ => false

/-- The brackets open behind more tokens. -/
def after (b : Brackets) (kinds : List Kind) : Brackets :=
  kinds.foldl next b

/-- How many of the open brackets are those of scopes and parenthesised terms. -/
def nesting (b : Brackets) : Nat :=
  b.opened.countP (· ≠ .head)

end Brackets

/-- How many scopes and parenthesised terms the tokens leave unclosed. -/
def unclosed (tokens : List Token) : Nat :=
  (Brackets.after {} (tokens.map (·.kind))).nesting

end Kei

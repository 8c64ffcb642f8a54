import Kei.Token.Basic

/-!
# Syntax trees

Expressions, statements and the chains of a conditional. Names and literals are kept as the lexemes
they were read from, so a tree knows the line of each of them.
-/

namespace Kei

inductive Op
  | add
  | sub
  | mul
  | div
deriving DecidableEq, Repr, Inhabited

namespace Op

def symbol : Op → Char
  | add => '+'
  | sub => '-'
  | mul => '*'
  | div => '/'

/-- The kind of token that spells the operator. -/
def kind : Op → Kind
  | add => .plus
  | sub => .minus
  | mul => .star
  | div => .slash

/-- The operator that a kind of token spells. -/
def ofKind? : Kind → Option Op
  | .plus => some add
  | .minus => some sub
  | .star => some mul
  | .slash => some div
  | _ => none

/-- How tightly the operator binds. -/
def level : Op → Nat
  | add | sub => 0
  | mul | div => 1

end Op

inductive Expr
  | int (literal : Lexeme)
  | ident (name : Lexeme)
  | paren (inner : Expr)
  | binary (op : Op) (lhs rhs : Expr)
deriving DecidableEq, Repr, Inhabited

mutual

inductive Stmt
  | exit (value : Expr)
  | declare (name : Lexeme) (value : Expr)
  | assign (name : Lexeme) (value : Expr)
  | scope (body : List Stmt)
  | cond (test : Expr) (body : List Stmt) (chain : Chain)

/-- What follows the first branch of a conditional. -/
inductive Chain
  /-- The conditional ends here. -/
  | stop
  | elif (test : Expr) (body : List Stmt) (next : Chain)
  | otherwise (body : List Stmt)

end

/-- The conditional has no further branch. -/
def Chain.isStop : Chain → Bool
  | .stop => true
  | _ => false

instance : Inhabited Stmt := ⟨.scope []⟩

/-- A block is the statements of a scope, and so is a whole program. -/
abbrev Block := List Stmt

end Kei

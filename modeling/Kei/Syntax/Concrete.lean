import Kei.Syntax.Tree

/-!
# Trees as they are written

The concrete syntax of a tree as a list of symbols, the condition on a tree that its grouping
follows from precedence, and how deeply it is nested. A tree is `Layered` when no operator has an
operand that binds less tightly than itself, nor a right operand that binds equally.
-/

namespace Kei

/-- A symbol of the concrete syntax: a kind of token, with its lexeme where trees keep it. -/
abbrev Symbol := Kind × Option Lexeme

/-- The symbol that a token stands for. -/
def Token.symbol (t : Token) : Symbol :=
  (t.kind, if t.kind = .integer ∨ t.kind = .identifier then some t.toLexeme else none)

namespace Symbol

/-- A symbol without a lexeme. -/
def fixed (k : Kind) : Symbol :=
  (k, none)

end Symbol

namespace Expr

/-- The expression as it is written. -/
def symbols : Expr → List Symbol
  | int l => [(.integer, some l)]
  | ident l => [(.identifier, some l)]
  | paren e => .fixed .leftParen :: (e.symbols ++ [.fixed .rightParen])
  | binary op l r => l.symbols ++ .fixed op.kind :: r.symbols

/-- How tightly the outermost operator binds; a term binds tighter than every operator. -/
def level : Expr → Nat
  | int _ | ident _ | paren _ => 2
  | binary op _ _ => op.level

/-- The grouping of the expression is the one that precedence gives it. -/
def Layered : Expr → Prop
  | int _ | ident _ => True
  | paren e => e.Layered
  | binary op l r => op.level ≤ l.level ∧ op.level < r.level ∧ l.Layered ∧ r.Layered

/-- How many parenthesised terms enclose each other. -/
def nesting : Expr → Nat
  | int _ | ident _ => 0
  | paren e => e.nesting + 1
  | binary _ l r => max l.nesting r.nesting

end Expr

mutual

def Stmt.symbols : Stmt → List Symbol
  | .exit e =>
    .fixed .exitWord :: .fixed .leftParen ::
      (e.symbols ++ [.fixed .rightParen, .fixed .semicolon])
  | .declare n e =>
    .fixed .letWord :: (.identifier, some n) :: .fixed .equals :: (e.symbols ++ [.fixed .semicolon])
  | .assign n e => (.identifier, some n) :: .fixed .equals :: (e.symbols ++ [.fixed .semicolon])
  | .scope b => .fixed .leftBrace :: (Block.symbols b ++ [.fixed .rightBrace])
  | .cond e b c =>
    .fixed .ifWord :: .fixed .leftParen ::
      (e.symbols ++ .fixed .rightParen :: .fixed .leftBrace ::
        (Block.symbols b ++ .fixed .rightBrace :: c.symbols))

def Block.symbols : List Stmt → List Symbol
  | [] => []
  | s :: rest => s.symbols ++ Block.symbols rest

def Chain.symbols : Chain → List Symbol
  | .stop => []
  | .elif e b next =>
    .fixed .elifWord :: .fixed .leftParen ::
      (e.symbols ++ .fixed .rightParen :: .fixed .leftBrace ::
        (Block.symbols b ++ .fixed .rightBrace :: next.symbols))
  | .otherwise b =>
    .fixed .elseWord :: .fixed .leftBrace :: (Block.symbols b ++ [.fixed .rightBrace])

end

mutual

/-- Every expression of the statement is layered. -/
def Stmt.Layered : Stmt → Prop
  | .exit e => e.Layered
  | .declare _ e => e.Layered
  | .assign _ e => e.Layered
  | .scope b => Block.Layered b
  | .cond e b c => e.Layered ∧ Block.Layered b ∧ c.Layered

def Block.Layered : List Stmt → Prop
  | [] => True
  | s :: rest => s.Layered ∧ Block.Layered rest

def Chain.Layered : Chain → Prop
  | .stop => True
  | .elif e b next => e.Layered ∧ Block.Layered b ∧ next.Layered
  | .otherwise b => Block.Layered b

end

mutual

/-- How many scopes and parenthesised terms of the statement enclose each other. -/
def Stmt.nesting : Stmt → Nat
  | .exit e => e.nesting
  | .declare _ e => e.nesting
  | .assign _ e => e.nesting
  | .scope b => Block.nesting b + 1
  | .cond e b c => max e.nesting (max (Block.nesting b + 1) c.nesting)

def Block.nesting : List Stmt → Nat
  | [] => 0
  | s :: rest => max s.nesting (Block.nesting rest)

def Chain.nesting : Chain → Nat
  | .stop => 0
  | .elif e b next => max e.nesting (max (Block.nesting b + 1) next.nesting)
  | .otherwise b => Block.nesting b + 1

end

end Kei

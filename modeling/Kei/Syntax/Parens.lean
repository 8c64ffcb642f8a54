import Kei.Syntax.Change

/-!
# Parentheses

A program without any parentheses around its terms, and a program with all of them. `Block.bare`
keeps the grouping in the tree alone. `Block.parenthesized` puts every operation and every atom into
parentheses, so that its grouping is the same whatever the precedence of its operators.
-/

namespace Kei

namespace Expr

/-- The expression with the content of parenthesised terms in their places. -/
def bare : Expr → Expr
  | int l => int l
  | ident l => ident l
  | paren e => e.bare
  | binary op l r => binary op l.bare r.bare

/-- The expression with parentheses around every operation and every atom. -/
def parenthesized : Expr → Expr
  | int l => paren (int l)
  | ident l => paren (ident l)
  | paren e => paren e.parenthesized
  | binary op l r => paren (binary op l.parenthesized r.parenthesized)

end Expr

/-- Change the expressions, and keep the names that are declared or assigned. -/
def Change.exprs (f : Expr → Expr) : Change where
  name := id
  expr := f

/-- The program without parenthesised terms. -/
def Block.bare (p : Block) : Block :=
  Block.change (.exprs Expr.bare) p

/-- The program with every operation and every atom parenthesised. -/
def Block.parenthesized (p : Block) : Block :=
  Block.change (.exprs Expr.parenthesized) p

end Kei

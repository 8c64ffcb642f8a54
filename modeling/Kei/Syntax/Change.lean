import Kei.Syntax.Tree

/-!
# Trees with other names and expressions

A change keeps the statements of a tree and gives them other names and other expressions. Renaming
the variables of a program is a change, and so are forgetting its lines and leaving out parentheses.
-/

namespace Kei

/-- What becomes of the names that are declared or assigned, and of the expressions. -/
structure Change where
  name : Lexeme → Lexeme
  expr : Expr → Expr

mutual

/-- The statement with other names and expressions. -/
def Stmt.change (m : Change) : Stmt → Stmt
  | .exit e => .exit (m.expr e)
  | .declare n e => .declare (m.name n) (m.expr e)
  | .assign n e => .assign (m.name n) (m.expr e)
  | .scope b => .scope (Block.change m b)
  | .cond e b c => .cond (m.expr e) (Block.change m b) (c.change m)

def Block.change (m : Change) : List Stmt → List Stmt
  | [] => []
  | s :: rest => s.change m :: Block.change m rest

def Chain.change (m : Change) : Chain → Chain
  | .stop => .stop
  | .elif e b next => .elif (m.expr e) (Block.change m b) (next.change m)
  | .otherwise b => .otherwise (Block.change m b)

end

end Kei

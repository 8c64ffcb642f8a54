import Kei.Memory.Node
import Kei.Syntax.Tree

/-!
# Memory of trees

The nodes of a tree in the order in which they are built: parts before the whole, and the links
between the statements of a block after all of them. The links of a conditional's chain are built
from the last to the first, after all conditions and blocks.
-/

namespace Kei

def Expr.nodes : Expr → List Node
  | .int _ => [.expr]
  | .ident _ => [.expr]
  | .paren e => e.nodes ++ [.expr]
  | .binary _ l r => l.nodes ++ r.nodes ++ [.expr]

/-- How many links a chain has. -/
def Chain.length : Chain → Nat
  | .stop => 0
  | .elif _ _ next => next.length + 1
  | .otherwise _ => 1

mutual

def Stmt.nodes : Stmt → List Node
  | .exit e => e.nodes ++ [.stmt]
  | .declare _ e => e.nodes ++ [.stmt]
  | .assign _ e => e.nodes ++ [.stmt]
  | .scope b => Block.nodes b ++ List.replicate b.length .link ++ [.scope, .stmt]
  | .cond e b c =>
    e.nodes ++ Block.nodes b ++ List.replicate b.length .link ++ [.scope] ++ c.partNodes ++
      List.replicate c.length .chain ++ [.stmt]

/-- The nodes of the statements of a block, without the links between them. -/
def Block.nodes : List Stmt → List Node
  | [] => []
  | s :: rest => s.nodes ++ Block.nodes rest

/-- The nodes of the conditions and blocks of a chain. -/
def Chain.partNodes : Chain → List Node
  | .stop => []
  | .elif e b next =>
    e.nodes ++ Block.nodes b ++ List.replicate b.length .link ++ [.scope] ++ next.partNodes
  | .otherwise b => Block.nodes b ++ List.replicate b.length .link ++ [.scope]

end

/-- The requests that a whole program makes of an arena. -/
def Block.requests (program : Block) : List Request :=
  (Block.nodes program ++ List.replicate program.length Node.link).map Node.request

end Kei

import Kei.Memory.Arena

/-!
# Memory of tree nodes

A tree is kept in an arena: each node takes one request, of a size that depends on what the node is.
The statements of a block are linked by one more node each.
-/

namespace Kei

inductive Node
  | expr
  | stmt
  | scope
  | chain
  | link
deriving DecidableEq, Repr

namespace Node

def size : Node → Nat
  | expr => 24
  | stmt => 32
  | scope => 8
  | chain => 24
  | link => 16

def request (n : Node) : Request :=
  ⟨n.size, 8⟩

end Node

end Kei

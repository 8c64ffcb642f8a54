/-!
# Faults of scope

What can be wrong with the names of a program.
-/

namespace Kei

inductive ScopeError
  /-- A name is read or assigned that no open scope declares. -/
  | undeclared (name : String) (line : Nat)
  /-- A name is declared twice in one scope. -/
  | duplicate (name : String) (line : Nat)
deriving DecidableEq, Repr

end Kei

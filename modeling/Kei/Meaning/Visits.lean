import Kei.Assembly.Listing

/-!
# Occurrences of names

Every occurrence of a name in a program with the scopes that are open there, in the order in which
occurrences are judged: statements in turn, the name of a declaration or of an assignment before its
value, the right operand of an operator before the left one, and of a conditional its condition, its
block and then its chain. An occurrence is allowed or not whatever the others are, so a list of
them says both whether a program is well scoped and which violation comes first.
-/

namespace Kei

/-- An occurrence of a name, and the scopes open there. -/
inductive Visit
  /-- The name is read or assigned. -/
  | use (name : Lexeme) (scopes : Scopes)
  /-- The name is declared in the innermost scope. -/
  | declaration (name : Lexeme) (scopes : Scopes)

namespace Visit

/-- A name that is used is declared in one of the scopes, and a name that is declared is not yet in
the innermost one. -/
def Allowed : Visit → Prop
  | use name scopes => ∃ scope ∈ scopes, name.spelling ∈ scope
  | declaration name scopes => ∀ scope ∈ scopes.head?, name.spelling ∉ scope

/-- What is wrong where an occurrence is not allowed. -/
def fault : Visit → ScopeError
  | use name _ => .undeclared name.spelling name.line
  | declaration name _ => .duplicate name.spelling name.line

instance : DecidablePred Allowed
  | use name scopes => inferInstanceAs (Decidable (∃ scope ∈ scopes, name.spelling ∈ scope))
  | declaration name scopes =>
    inferInstanceAs (Decidable (∀ scope ∈ scopes.head?, name.spelling ∉ scope))

end Visit

def Expr.visits (s : Scopes) : Expr → List Visit
  | .int _ => []
  | .ident l => [.use l s]
  | .paren e => e.visits s
  | .binary _ l r => r.visits s ++ l.visits s

mutual

def Stmt.visits (s : Scopes) : Stmt → List Visit
  | .exit e => e.visits s
  | .declare n e => .declaration n s :: e.visits s
  | .assign n e => .use n s :: e.visits s
  | .scope b => Block.visits ([] :: s) b
  | .cond e b c => e.visits s ++ (Block.visits ([] :: s) b ++ c.visits s)

/-- The visits of a block, each of whose statements sees what those before it declare. -/
def Block.visits (s : Scopes) : List Stmt → List Visit
  | [] => []
  | st :: rest => st.visits s ++ Block.visits (st.declares s) rest

def Chain.visits (s : Scopes) : Chain → List Visit
  | .stop => []
  | .elif e b next => e.visits s ++ (Block.visits ([] :: s) b ++ next.visits s)
  | .otherwise b => Block.visits ([] :: s) b

end

end Kei

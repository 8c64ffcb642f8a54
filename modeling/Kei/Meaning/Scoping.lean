import Kei.Syntax.ScopeError
import Kei.Syntax.Tree

/-!
# Scoping

Which programs are well scoped, said without code: every name that is read or assigned was declared
before in an open scope, and no scope declares a name twice. The value of a declaration does not see
the name declared. The first violation is reported, in this order: statements in turn, the name of a
declaration or of an assignment before its value, the right operand of an operator before the left
one, and of a conditional its condition, its block and then its chain.
-/

namespace Kei

/-- The names declared in each open scope, innermost first. -/
abbrev Scopes := List (List String)

namespace Scopes

def sees (s : Scopes) (name : String) : Bool :=
  s.any (·.contains name)

/-- A name must be visible. -/
def require (s : Scopes) (name : Lexeme) : Except ScopeError Unit :=
  if s.sees name.spelling then .ok () else .error (.undeclared name.spelling name.line)

/-- A name must not be declared in the innermost scope. -/
def requireFresh (s : Scopes) (name : Lexeme) : Except ScopeError Unit :=
  if (s.headD []).contains name.spelling then .error (.duplicate name.spelling name.line)
  else .ok ()

/-- Declare a name in the innermost scope. -/
def declare (s : Scopes) (name : Lexeme) : Scopes :=
  (name.spelling :: s.headD []) :: s.tail

end Scopes

def Expr.check (s : Scopes) : Expr → Except ScopeError Unit
  | .int _ => .ok ()
  | .ident l => s.require l
  | .paren e => e.check s
  | .binary _ l r => do
    r.check s
    l.check s

mutual

/-- Check a statement; the result is what is declared after it. -/
def Stmt.check (s : Scopes) : Stmt → Except ScopeError Scopes
  | .exit e => do
    e.check s
    return s
  | .declare n e => do
    s.requireFresh n
    e.check s
    return s.declare n
  | .assign n e => do
    s.require n
    e.check s
    return s
  | .scope b => do
    let _ ← Block.check ([] :: s) b
    return s
  | .cond e b c => do
    e.check s
    let _ ← Block.check ([] :: s) b
    c.check s
    return s

def Block.check (s : Scopes) : List Stmt → Except ScopeError Scopes
  | [] => .ok s
  | stmt :: rest => do
    let s ← stmt.check s
    Block.check s rest

def Chain.check (s : Scopes) : Chain → Except ScopeError Unit
  | .stop => .ok ()
  | .elif e b next => do
    e.check s
    let _ ← Block.check ([] :: s) b
    next.check s
  | .otherwise b => do
    let _ ← Block.check ([] :: s) b
    return ()

end

/-- Check a whole program. -/
def Block.wellScoped (program : Block) : Except ScopeError Unit := do
  let _ ← Block.check [[]] program
  return ()

end Kei

import Kei.Syntax.Change
import Kei.Syntax.ScopeError

/-!
# Trees with other lexemes

Two changes of a tree keep its shape and change its lexemes, those of its literals and those of its
names. `Block.rename` gives the variables of a program other names, and `Block.unlined` forgets on
which lines its lexemes stand.
-/

namespace Kei

/-- The expression with other literals and other names. -/
def Expr.relabel (literal name : Lexeme → Lexeme) : Expr → Expr
  | .int l => .int (literal l)
  | .ident l => .ident (name l)
  | .paren e => .paren (e.relabel literal name)
  | .binary op lhs rhs => .binary op (lhs.relabel literal name) (rhs.relabel literal name)

/-- Change all lexemes. -/
def Change.lexemes (literal name : Lexeme → Lexeme) : Change where
  name := name
  expr := Expr.relabel literal name

/-! ## Names -/

def Expr.names : Expr → List String
  | .int _ => []
  | .ident l => [l.spelling]
  | .paren e => e.names
  | .binary _ lhs rhs => lhs.names ++ rhs.names

mutual

/-- The names that occur in a statement: declared, assigned or read. -/
def Stmt.names : Stmt → List String
  | .exit e => e.names
  | .declare n e => n.spelling :: e.names
  | .assign n e => n.spelling :: e.names
  | .scope b => Block.names b
  | .cond e b c => e.names ++ (Block.names b ++ c.names)

def Block.names : List Stmt → List String
  | [] => []
  | s :: rest => s.names ++ Block.names rest

def Chain.names : Chain → List String
  | .stop => []
  | .elif e b next => e.names ++ (Block.names b ++ next.names)
  | .otherwise b => Block.names b

end

/-- Another name on the same line. -/
def Lexeme.rename (ρ : String → String) (l : Lexeme) : Lexeme :=
  { l with text := some (ρ l.spelling) }

/-- Give the names other names, and keep the literals. -/
def Change.rename (ρ : String → String) : Change :=
  .lexemes id (Lexeme.rename ρ)

/-- The program with other names, wherever they are declared, assigned or read. -/
def Block.rename (ρ : String → String) (p : Block) : Block :=
  Block.change (.rename ρ) p

/-! ## Lines -/

/-- The lexeme without its line. -/
def Lexeme.unlined (l : Lexeme) : Lexeme :=
  { l with line := 0 }

def Token.unlined (t : Token) : Token :=
  { t with line := 0 }

/-- The expression without its lines. -/
def Expr.unlined (e : Expr) : Expr :=
  e.relabel Lexeme.unlined Lexeme.unlined

/-- Forget the lines of all lexemes. -/
def Change.unlined : Change :=
  .lexemes Lexeme.unlined Lexeme.unlined

/-- The program without its lines: programs are equal up to lines when this is equal. -/
def Block.unlined (p : Block) : Block :=
  Block.change .unlined p

/-! ## Faults -/

/-- The fault with another name and another line. -/
def ScopeError.relabel (name : String → String) (line : Nat → Nat) : ScopeError → ScopeError
  | undeclared n k => undeclared (name n) (line k)
  | duplicate n k => duplicate (name n) (line k)

end Kei

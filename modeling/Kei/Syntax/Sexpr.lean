import Kei.Syntax.Tree

/-!
# Trees as S-expressions

Two definitions of one notation. `Expr.sexpr`, `Stmt.sexpr` and `Chain.sexpr` are the notation
itself, by recursion on the tree. `Expr.print` and `Block.print` are how it is written out: onto a
text that grows at its end, with a list of what is still to be written for expressions, since
operator chains are as deep as they are long, and a count of open parentheses for the chain of a
conditional.
-/

namespace Kei

/-- The sign that an operator is denoted by. -/
def Op.sign : Op → String
  | .add => "+"
  | .sub => "-"
  | .mul => "*"
  | .div => "/"

/-- The notation of an expression: `(+ 1 (* 2 3))`. -/
def Expr.sexpr : Expr → String
  | .int l => l.spelling
  | .ident l => l.spelling
  | .paren e => "(paren " ++ e.sexpr ++ ")"
  | .binary op l r => "(" ++ op.sign ++ " " ++ l.sexpr ++ " " ++ r.sexpr ++ ")"

mutual

def Stmt.sexpr : Stmt → String
  | .exit e => "(exit " ++ e.sexpr ++ ")"
  | .declare n e => "(let " ++ n.spelling ++ " " ++ e.sexpr ++ ")"
  | .assign n e => "(assign " ++ n.spelling ++ " " ++ e.sexpr ++ ")"
  | .scope b => "(scope" ++ Block.sexprTail b ++ ")"
  | .cond e b c => "(if " ++ e.sexpr ++ " (scope" ++ Block.sexprTail b ++ ")" ++ c.sexprTail ++ ")"

/-- The statements of a scope, each after a blank. -/
def Block.sexprTail : List Stmt → String
  | [] => ""
  | s :: rest => " " ++ s.sexpr ++ Block.sexprTail rest

/-- A chain after a blank, and nothing where there is none. -/
def Chain.sexprTail : Chain → String
  | .stop => ""
  | .elif e b next =>
    " (elif " ++ e.sexpr ++ " (scope" ++ Block.sexprTail b ++ ")" ++ next.sexprTail ++ ")"
  | .otherwise b => " (else (scope" ++ Block.sexprTail b ++ "))"

end

/-- The notation of a program: one statement a line. -/
def Block.sexpr (program : Block) : String :=
  String.join (program.map fun s => s.sexpr ++ "\n")

/-- What is still to be written. -/
inductive Unwritten
  | expr (e : Expr)
  | text (s : String)

/-- A bound on the steps that writing an expression takes. -/
def Expr.weight : Expr → Nat
  | .int _ => 1
  | .ident _ => 1
  | .paren e => e.weight + 2
  | .binary _ l r => l.weight + r.weight + 3

def Unwritten.weight : Unwritten → Nat
  | .expr e => e.weight
  | .text _ => 1

/-- Write all that is unwritten, in order, at the end of a text. -/
def Unwritten.printAll (out : String) : List Unwritten → String
  | [] => out
  | .text s :: rest => printAll (out ++ s) rest
  | .expr (.int l) :: rest => printAll (out ++ l.spelling) rest
  | .expr (.ident l) :: rest => printAll (out ++ l.spelling) rest
  | .expr (.paren e) :: rest => printAll (out ++ "(paren ") (.expr e :: .text ")" :: rest)
  | .expr (.binary op l r) :: rest =>
    printAll ((out ++ "(").push op.symbol ++ " ")
      (.expr l :: .text " " :: .expr r :: .text ")" :: rest)
termination_by todo => todo.foldr (fun u n => u.weight + n) 0
decreasing_by
  all_goals simp only [List.foldr_cons, Unwritten.weight, Expr.weight]; omega

/-- Write an expression at the end of a text. -/
def Expr.printTo (out : String) (e : Expr) : String :=
  Unwritten.printAll out [.expr e]

def Expr.print (e : Expr) : String :=
  e.printTo ""

/-- Write closing parentheses at the end of a text. -/
def closeParens (out : String) : Nat → String
  | 0 => out
  | n + 1 => closeParens (out.push ')') n

mutual

/-- Write a statement at the end of a text. -/
def Stmt.printTo (out : String) : Stmt → String
  | .exit e => (e.printTo (out ++ "(exit ")).push ')'
  | .declare n e => (e.printTo (out ++ "(let " ++ n.spelling ++ " ")).push ')'
  | .assign n e => (e.printTo (out ++ "(assign " ++ n.spelling ++ " ")).push ')'
  | .scope b => (Block.printTail (out ++ "(scope") b).push ')'
  | .cond e b c =>
    let out := (e.printTo (out ++ "(if ")).push ' '
    let out := (Block.printTail (out ++ "(scope") b).push ')'
    (Chain.printTail out 0 c).push ')'

/-- Write the statements of a scope, each after a blank. -/
def Block.printTail (out : String) : List Stmt → String
  | [] => out
  | s :: rest => Block.printTail (s.printTo (out.push ' ')) rest

/-- Write a chain after a blank, then close the `opened` parentheses of the links before it. -/
def Chain.printTail (out : String) (opened : Nat) : Chain → String
  | .stop => closeParens out opened
  | .elif e b next =>
    let out := (e.printTo (out ++ " (elif ")).push ' '
    let out := (Block.printTail (out ++ "(scope") b).push ')'
    next.printTail out (opened + 1)
  | .otherwise b =>
    let out := (Block.printTail (out ++ " (else (scope") b).push ')'
    closeParens out (opened + 1)

end

/-- Write a program: one statement a line. -/
def Block.print (program : Block) : String :=
  program.foldl (fun out s => (s.printTo out).push '\n') ""

end Kei

import Kei.Assembly.Listing

/-!
# The shape of code

A program is made of constructs, and each of them contributes the same instructions wherever it
stands. Only the labels, the slots and the literals in these depend on the rest of the program; here
they are left blank.
-/

namespace Kei

inductive Construct
  | literal
  | read
  | operation (op : Op)
  | exit
  | declaration
  | assignment
  | scope
  /-- A conditional, with a chain or without one. -/
  | conditional (chained : Bool)
  | elif
  | otherwise
  /-- What stands in a scope or a branch, where `locals` variables are declared directly. -/
  | body (locals : Nat)
deriving DecidableEq, Repr

/-- The constructs that a tree is made of. Parentheses leave no trace. -/
def Expr.constructs : Expr → List Construct
  | .int _ => [.literal]
  | .ident _ => [.read]
  | .paren e => e.constructs
  | .binary op l r => .operation op :: (l.constructs ++ r.constructs)

mutual

def Stmt.constructs : Stmt → List Construct
  | .exit e => .exit :: e.constructs
  | .declare _ e => .declaration :: e.constructs
  | .assign _ e => .assignment :: e.constructs
  | .scope b => .scope :: .body (Block.locals b) :: Block.constructs b
  | .cond e b c =>
    .conditional (!c.isStop) ::
      (e.constructs ++ .body (Block.locals b) :: (Block.constructs b ++ c.constructs))

def Block.constructs : List Stmt → List Construct
  | [] => []
  | s :: rest => s.constructs ++ Block.constructs rest

def Chain.constructs : Chain → List Construct
  | .stop => []
  | .elif e b next =>
    .elif :: (e.constructs ++ .body (Block.locals b) :: (Block.constructs b ++ next.constructs))
  | .otherwise b => .otherwise :: .body (Block.locals b) :: Block.constructs b

end

/-- The instruction without its literal, slot or label. -/
def Instr.blank : Instr → Instr
  | label _ => label 0
  | load dst _ => load dst ""
  | store _ => store 0
  | pushSlot _ => pushSlot 0
  | jumpZero _ => jumpZero 0
  | jump _ => jump 0
  | i => i

namespace Construct

/-- The instructions that a construct contributes. -/
def code : Construct → List Instr
  | literal => [.load .rax "", .push .rax]
  | read => [.pushSlot 0]
  | operation op => [.pop .rax, .pop .rbx] ++ Emit.opCode op ++ [.push .rax]
  | exit => [.note "exit", .load .rax "", .pop .rdi, .syscall, .note "/exit"]
  -- the value stays where it was pushed and becomes the variable
  | declaration => [.note "let", .note "/let"]
  | assignment => [.note "assign", .pop .rax, .store 0, .note "/assign"]
  | scope => [.note "scope", .note "/scope"]
  | conditional chained =>
    [.note "if", .pop .rax, .test, .jumpZero 0, .label 0, .note "/if"] ++
      if chained then [.jump 0, .label 0] else []
  | elif => [.note "elif", .pop .rax, .test, .jumpZero 0, .jump 0, .label 0]
  | otherwise => [.note "else"]
  | body locals => releaseListing locals

/-- How many values a construct pushes. -/
def pushes : Construct → Nat
  | literal | read | operation _ => 1
  | _ => 0

/-- How many values a construct pops. -/
def pops : Construct → Nat
  | operation _ => 2
  | exit | assignment | conditional _ | elif => 1
  | _ => 0

/-- How many conditions a construct tests. -/
def tests : Construct → Nat
  | conditional _ | elif => 1
  | _ => 0

/-- How many jumps that are always taken a construct makes. -/
def jumps : Construct → Nat
  | conditional true | elif => 1
  | _ => 0

/-- How many labels a construct places. -/
def labels : Construct → Nat
  | conditional true => 2
  | conditional false | elif => 1
  | _ => 0

/-- How many system calls a construct makes. -/
def calls : Construct → Nat
  | exit => 1
  | _ => 0

/-- The sum of what `w` gives for each of the constructs. -/
def total (w : Construct → Nat) (parts : List Construct) : Nat :=
  parts.foldr (fun c n => w c + n) 0

/-- How many variables are dropped behind the construct, if there are any. -/
def dropped? : Construct → Option Nat
  | body (k + 1) => some (k + 1)
  | _ => none

end Construct

end Kei

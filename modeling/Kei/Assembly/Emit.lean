import Kei.Assembly.Instr
import Kei.Syntax.ScopeError
import Kei.Syntax.Tree

/-!
# Code of trees

Code is emitted for a stack machine: the code of an expression leaves exactly one value on the
stack. A variable is the value that its declaration left there, and it is found by its distance from
the newest value, so the emitter counts how many values the stack holds. Leaving a scope drops the
variables declared in it.

`Emitter` holds the code so far with that count, the visible variables and the number of labels
used. The code of an expression is emitted from a list of tasks, since operator chains are as deep
as they are long.
-/

namespace Kei

/-- A visible variable and the stack slot it lives in, counted from the oldest. -/
structure Var where
  name : String
  slot : Nat
deriving DecidableEq, Repr

structure Emitter where
  code : Array Instr := #[]
  /-- How many values the stack holds. -/
  depth : Nat := 0
  /-- The visible variables, newest first. -/
  vars : List Var := []
  /-- For each open scope, innermost first, how many variables were visible when it began. -/
  marks : List Nat := []
  /-- How many labels are in use. -/
  labels : Nat := 0

/-- Emitting changes the emitter, also when it ends in an error. -/
abbrev Emit := EStateM ScopeError Emitter

namespace Emit

/-- Bytes of a stack slot. -/
def slotSize : Nat :=
  8

/-- The number of the system call that ends a program. -/
def exitCall : String :=
  "60"

def instr (i : Instr) : Emit Unit :=
  modify fun g => { g with code := g.code.push i }

/-- Emit an instruction that adds a value to the stack. -/
def pushing (i : Instr) : Emit Unit :=
  modify fun g => { g with code := g.code.push i, depth := g.depth + 1 }

/-- Move the newest value of the stack into a register. -/
def pop (dst : Reg) : Emit Unit :=
  modify fun g => { g with code := g.code.push (.pop dst), depth := g.depth - 1 }

def freshLabel : Emit Nat :=
  modifyGet fun g => (g.labels, { g with labels := g.labels + 1 })

/-- The newest visible variable of a name. -/
def find (name : Lexeme) : Emit Var := do
  match (← get).vars.find? (·.name = name.spelling) with
  | some v => return v
  | none => throw (.undeclared name.spelling name.line)

/-- Bytes from the newest value of the stack to a variable. -/
def offset (v : Var) : Emit Nat :=
  return ((← get).depth - v.slot - 1) * slotSize

/-- The instructions of an operator, on its left operand in `rax` and its right one in `rbx`. -/
def opCode : Op → List Instr
  | .add => [.add]
  | .sub => [.sub]
  | .mul => [.mul]
  | .div => [.signExtend, .div]

/-- A step of emitting an expression. -/
inductive Task
  | eval (e : Expr)
  /-- Combine the two newest values; the newer is the left operand. -/
  | apply (op : Op)

/-- A bound on the tasks that an expression gives rise to. -/
def exprTasks : Expr → Nat
  | .int _ => 1
  | .ident _ => 1
  | .paren e => exprTasks e + 1
  | .binary _ l r => exprTasks l + exprTasks r + 2

def Task.size : Task → Nat
  | .eval e => exprTasks e
  | .apply _ => 1

/-- Do the tasks in order. The right operand of an operator is evaluated before the left one. -/
def tasks : List Task → Emit Unit
  | [] => pure ()
  | .eval (.int l) :: rest => do
    instr (.load .rax l.spelling)
    pushing (.push .rax)
    tasks rest
  | .eval (.ident l) :: rest => do
    pushing (.pushSlot (← offset (← find l)))
    tasks rest
  | .eval (.paren e) :: rest => tasks (.eval e :: rest)
  | .eval (.binary op l r) :: rest => tasks (.eval r :: .eval l :: .apply op :: rest)
  | .apply op :: rest => do
    pop .rax
    pop .rbx
    (opCode op).forM instr
    pushing (.push .rax)
    tasks rest
termination_by todo => todo.foldr (fun t n => t.size + n) 0
decreasing_by
  all_goals simp only [List.foldr_cons, Task.size, exprTasks]; omega

/-- Emit an expression. -/
def expr (e : Expr) : Emit Unit :=
  tasks [.eval e]

def beginScope : Emit Unit :=
  modify fun g => { g with marks := g.vars.length :: g.marks }

/-- Drop the variables of the innermost open scope. -/
def endScope : Emit Unit := do
  let g ← get
  let count := g.vars.length - g.marks.headD 0
  if count ≠ 0 then instr (.release (count * slotSize))
  modify fun g =>
    { g with depth := g.depth - count, vars := g.vars.drop count, marks := g.marks.tail }

/-- Emit a condition and the jump for when it is zero; the label jumped to is still to be placed. -/
def branch (test : Expr) : Emit Nat := do
  expr test
  pop .rax
  let l ← freshLabel
  instr .test
  instr (.jumpZero l)
  return l

/-- One of the newest `n` variables has this name. -/
def isAmong (name : String) : Nat → List Var → Bool
  | n + 1, v :: vars => v.name = name || isAmong name n vars
  | _, _ => false

/-- A name may be declared once in each scope. -/
def checkFresh (name : Lexeme) : Emit Unit := do
  let g ← get
  if isAmong name.spelling (g.vars.length - g.marks.headD 0) g.vars then
    throw (.duplicate name.spelling name.line)

/-- Emit a declaration. Its slot is the next one, and its name is visible only after its value. -/
def declare (name : Lexeme) (value : Expr) : Emit Unit := do
  checkFresh name
  let slot := (← get).depth
  expr value
  modify fun g => { g with vars := ⟨name.spelling, slot⟩ :: g.vars }

/-- Emit an assignment. -/
def assign (name : Lexeme) (value : Expr) : Emit Unit := do
  let _ ← find name
  expr value
  pop .rax
  instr (.store (← offset (← find name)))

/-- Emit the end of the program, with the value in `rdi` as its status. -/
def exit (value : Expr) : Emit Unit := do
  expr value
  instr (.load .rax exitCall)
  pop .rdi
  instr .syscall

mutual

def stmt : Stmt → Emit Unit
  | .exit e => do
    instr (.note "exit")
    exit e
    instr (.note "/exit")
  | .declare n e => do
    instr (.note "let")
    declare n e
    instr (.note "/let")
  | .assign n e => do
    instr (.note "assign")
    assign n e
    instr (.note "/assign")
  | .scope b => do
    instr (.note "scope")
    beginScope
    stmts b
    endScope
    instr (.note "/scope")
  | .cond e b c => do
    instr (.note "if")
    let l ← branch e
    beginScope
    stmts b
    endScope
    if c.isStop then
      instr (.label l)
    else
      let last ← freshLabel
      instr (.jump last)
      instr (.label l)
      chain last c
      instr (.label last)
    instr (.note "/if")

def stmts : List Stmt → Emit Unit
  | [] => pure ()
  | s :: rest => do
    stmt s
    stmts rest

/-- Emit a chain, each of whose branches ends at the label `last`. -/
def chain (last : Nat) : Chain → Emit Unit
  | .stop => pure ()
  | .elif e b next => do
    instr (.note "elif")
    let l ← branch e
    beginScope
    stmts b
    endScope
    instr (.jump last)
    instr (.label l)
    chain last next
  | .otherwise b => do
    instr (.note "else")
    beginScope
    stmts b
    endScope

end

/-- The last statement of a program ends it. -/
def endsInExit (program : Block) : Bool :=
  match program.getLast? with
  | some (.exit _) => true
  | _ => false

/-- Emit a program, which ends with status 0 unless its last statement ends it. -/
def program (p : Block) : Emit Unit := do
  instr .global
  instr .start
  stmts p
  if !endsInExit p then
    instr (.load .rax exitCall)
    instr (.load .rdi "0")
    instr .syscall

end Emit

/-- What emitting a program came to, and the code emitted, also up to an error. -/
structure Emitted where
  result : Except ScopeError Unit
  code : Array Instr

/-- Emit the code of a program. -/
def Block.emit (p : Block) : Emitted :=
  match (Emit.program p).run {} with
  | .ok _ g => ⟨.ok (), g.code⟩
  | .error e g => ⟨.error e, g.code⟩

end Kei

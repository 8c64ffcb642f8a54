import Kei.Syntax.Tree
import Kei.Text.Numeral

/-!
# What programs mean

Programs are evaluated directly on their trees, with an environment that holds the variables of each
open scope. Words have 64 bits and arithmetic wraps; division goes toward zero. There are no loops,
so every program ends: with a status, or at a division by zero or a name that is not declared.
-/

namespace Kei

/-- The variables of each open scope with their values, innermost scope and newest variable first.
-/
abbrev Env := List (List (String × Int64))

namespace Env

/-- The value of a name: that of its newest variable in the innermost scope that has one. -/
def get? (env : Env) (name : String) : Option Int64 :=
  env.findSome? (·.lookup name)

/-- Change the value of the newest variable of a name in one scope. -/
def setIn (name : String) (v : Int64) : List (String × Int64) → List (String × Int64)
  | [] => []
  | (n, old) :: rest => if n = name then (n, v) :: rest else (n, old) :: setIn name v rest

/-- Change the value of the variable that a name stands for. -/
def set (name : String) (v : Int64) : Env → Env
  | [] => []
  | scope :: outer =>
    if (scope.lookup name).isSome then setIn name v scope :: outer else scope :: set name v outer

/-- Add a variable to the innermost scope. -/
def declare (env : Env) (name : String) (v : Int64) : Env :=
  ((name, v) :: env.headD []) :: env.tail

/-- All visible variables, newest first. -/
def vars (env : Env) : List (String × Int64) :=
  env.flatten

end Env

/-- Why a program has no status. -/
inductive Trap
  | divisionByZero
  | unbound (name : String)
deriving DecidableEq, Repr

def Op.eval (op : Op) (a b : Int64) : Except Trap Int64 :=
  match op with
  | .add => .ok (a + b)
  | .sub => .ok (a - b)
  | .mul => .ok (a * b)
  | .div => if b = 0 then .error .divisionByZero else .ok (a / b)

/-- The value of a literal. -/
def Lexeme.value (l : Lexeme) : Int64 :=
  (Text.word? l.spelling.toList).getD 0

def Expr.eval (env : Env) : Expr → Except Trap Int64
  | .int l => .ok l.value
  | .ident l =>
    match env.get? l.spelling with
    | some v => .ok v
    | none => .error (.unbound l.spelling)
  | .paren e => e.eval env
  | .binary op l r => do
    let b ← r.eval env
    let a ← l.eval env
    op.eval a b

/-- How a statement ends. -/
inductive Flow
  | next (env : Env)
  /-- The program ends here. -/
  | exit (status : Int64) (env : Env)

/-- Leave the innermost scope. -/
def Flow.leave : Flow → Flow
  | next env => next env.tail
  | exit status env => exit status env

mutual

def Stmt.exec (env : Env) : Stmt → Except Trap Flow
  | .exit e => do
    let v ← e.eval env
    return .exit v env
  | .declare n e => do
    let v ← e.eval env
    return .next (env.declare n.spelling v)
  | .assign n e => do
    let v ← e.eval env
    return .next (env.set n.spelling v)
  | .scope b => do
    let flow ← Block.exec ([] :: env) b
    return flow.leave
  | .cond e b c => do
    let v ← e.eval env
    if v ≠ 0 then
      let flow ← Block.exec ([] :: env) b
      return flow.leave
    else c.exec env

def Block.exec (env : Env) : List Stmt → Except Trap Flow
  | [] => .ok (.next env)
  | s :: rest => do
    match ← s.exec env with
    | .next env => Block.exec env rest
    | .exit status env => return .exit status env

def Chain.exec (env : Env) : Chain → Except Trap Flow
  | .stop => .ok (.next env)
  | .elif e b next => do
    let v ← e.eval env
    if v ≠ 0 then
      let flow ← Block.exec ([] :: env) b
      return flow.leave
    else next.exec env
  | .otherwise b => do
    let flow ← Block.exec ([] :: env) b
    return flow.leave

end

/-- Run a program: its status and the environment it ended in. Without an exit the status is zero.
-/
def Block.run (program : Block) : Except Trap (Int64 × Env) := do
  match ← Block.exec [[]] program with
  | .next env => return (0, env)
  | .exit status env => return (status, env)

end Kei

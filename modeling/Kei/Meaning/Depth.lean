import Kei.Meaning.Eval

/-!
# How many values a program holds at once

While an expression is evaluated, its operands are held beside the variables in scope. `Expr.need`
is how many values that takes, and `Block.peak` the most that a run of a program ever holds.
`Block.evaluations` lists the expressions that are evaluated on the way.
-/

namespace Kei

/-- How many values evaluating an expression holds at most, its result included. The right operand
of an operator is held while the left one is evaluated. -/
def Expr.need : Expr → Nat
  | .int _ => 1
  | .ident _ => 1
  | .paren e => e.need
  | .binary _ l r => max r.need (1 + l.need)

/-- How many values are held while an expression is evaluated in an environment. -/
def Env.peak (env : Env) (e : Expr) : Nat :=
  env.vars.length + e.need

mutual

/-- The most values held while a statement is executed. -/
def Stmt.peak (env : Env) : Stmt → Nat
  | .exit e => env.peak e
  | .declare _ e => env.peak e
  | .assign _ e => env.peak e
  | .scope b => Block.peak ([] :: env) b
  | .cond e b c =>
    max (env.peak e) <|
      match e.eval env with
      | .error _ => 0
      | .ok v => if v ≠ 0 then Block.peak ([] :: env) b else c.peak env

def Block.peak (env : Env) : List Stmt → Nat
  | [] => 0
  | s :: rest =>
    max (s.peak env) <|
      match s.exec env with
      | .ok (.next env) => Block.peak env rest
      | _ => 0

def Chain.peak (env : Env) : Chain → Nat
  | .stop => 0
  | .elif e b next =>
    max (env.peak e) <|
      match e.eval env with
      | .error _ => 0
      | .ok v => if v ≠ 0 then Block.peak ([] :: env) b else next.peak env
  | .otherwise b => Block.peak ([] :: env) b

end

/-- An expression and its operands, in the order in which their evaluation begins. -/
def Expr.parts : Expr → List Expr
  | .int l => [.int l]
  | .ident l => [.ident l]
  | .paren e => .paren e :: e.parts
  | .binary op l r => .binary op l r :: (r.parts ++ l.parts)

/-- The expressions that are evaluated with an expression, each in the same environment. -/
def Env.evaluations (env : Env) (e : Expr) : List (Env × Expr) :=
  e.parts.map fun part => (env, part)

mutual

/-- The expressions that are evaluated while a statement is executed, operands included, each with
the environment of that moment. -/
def Stmt.evaluations (env : Env) : Stmt → List (Env × Expr)
  | .exit e => env.evaluations e
  | .declare _ e => env.evaluations e
  | .assign _ e => env.evaluations e
  | .scope b => Block.evaluations ([] :: env) b
  | .cond e b c =>
    env.evaluations e ++
      match e.eval env with
      | .error _ => []
      | .ok v => if v ≠ 0 then Block.evaluations ([] :: env) b else c.evaluations env

def Block.evaluations (env : Env) : List Stmt → List (Env × Expr)
  | [] => []
  | s :: rest =>
    s.evaluations env ++
      match s.exec env with
      | .ok (.next env) => Block.evaluations env rest
      | _ => []

def Chain.evaluations (env : Env) : Chain → List (Env × Expr)
  | .stop => []
  | .elif e b next =>
    env.evaluations e ++
      match e.eval env with
      | .error _ => []
      | .ok v => if v ≠ 0 then Block.evaluations ([] :: env) b else next.evaluations env
  | .otherwise b => Block.evaluations ([] :: env) b

end

/-- The most values that are held at some of these evaluations, none if there are none. -/
def greatestNeed (evaluations : List (Env × Expr)) : Nat :=
  (evaluations.map fun (env, e) => env.vars.length + e.need).foldr max 0

end Kei

import Kei.Assembly.Emit

/-!
# Code of expressions by recursion

The code of an expression as a list of instructions, by recursion on the expression, for given
visible variables and a given number of values on the stack.
-/

namespace Kei

/-- The code of an operator, on its left operand in `rax` and its right one in `rbx`. A quotient is
taken of twice as many bits. -/
def Op.code : Op → List Instr
  | .add => [.add]
  | .sub => [.sub]
  | .mul => [.mul]
  | .div => [.signExtend, .div]

/-- The code of an expression, or the first name in it that is not visible; the right operand of an
operator comes before the left one. -/
def Expr.code (vars : List Var) (depth : Nat) : Expr → Except ScopeError (List Instr)
  | .int l => .ok [.load .rax l.spelling, .push .rax]
  | .ident l =>
    match vars.find? (·.name = l.spelling) with
    -- a value takes eight bytes
    | some v => .ok [.pushSlot ((depth - v.slot - 1) * 8)]
    | none => .error (.undeclared l.spelling l.line)
  | .paren e => e.code vars depth
  | .binary op l r => do
    let right ← r.code vars depth
    let left ← l.code vars (depth + 1)
    return right ++ left ++ [.pop .rax, .pop .rbx] ++ op.code ++ [.push .rax]

end Kei

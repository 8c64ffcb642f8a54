import Kei.Assembly.Code

/-!
# Emission turn by turn

Expressions are emitted from a list of tasks. Here that loop is cut into its turns: a turn takes the
first task off the list, emits what it stands for and puts the tasks it gives rise to in its place.
-/

namespace Kei.Emit

/-- Do a task; the result is the tasks that take its place. -/
def turn : Task → Emit (List Task)
  | .eval (.int l) => do
    instr (.load .rax l.spelling)
    pushing (.push .rax)
    return []
  | .eval (.ident l) => do
    pushing (.pushSlot (← offset (← find l)))
    return []
  | .eval (.paren e) => return [.eval e]
  | .eval (.binary op l r) => return [.eval r, .eval l, .apply op]
  | .apply op => do
    pop .rax
    pop .rbx
    (opCode op).forM instr
    pushing (.push .rax)
    return []

/-- Take `n` turns, or fewer if the tasks run out; the result is the tasks that are left. -/
def turns : Nat → List Task → Emit (List Task)
  | 0, todo => return todo
  | _ + 1, [] => return []
  | n + 1, t :: rest => do
    let next ← turn t
    turns n (next ++ rest)

end Kei.Emit

import Kei.Assembly.Emit

/-!
# Emission with checks

The code of trees once more, with everything checked that the emitter relies on. No count is
subtracted from a smaller one: a value is popped only where the stack holds one, a variable is
looked for only below the newest value, and leaving a scope finds the mark that entering it left,
with no more variables above it than values on the stack. When a statement is entered and when it is
left, the emitter is balanced: the stack holds the variables and nothing else. A check that fails
ends the emission with a fault of its own.
-/

namespace Kei

/-- The variables of each open scope, innermost first, as the marks divide them. -/
def segments : List Nat → List Var → List (List Var)
  | [], vars => [vars]
  | mark :: marks, vars =>
    let count := vars.length - mark
    vars.take count :: segments marks (vars.drop count)

/-- The bookkeeping of an emitter between two statements. -/
structure Emitter.Balanced (g : Emitter) : Prop where
  /-- The stack holds one value for each variable. -/
  depth_eq : g.depth = g.vars.length
  /-- From the oldest on, variables live in the slots 0, 1, 2 and so on. -/
  slots_eq : g.vars.reverse.map (·.slot) = List.range g.vars.length
  /-- No scope begins before the one around it. -/
  sorted : g.marks.Pairwise (· ≥ ·)
  marks_le : ∀ mark ∈ g.marks, mark ≤ g.vars.length
  /-- No scope declares a name twice. -/
  distinct : ∀ scope ∈ segments g.marks g.vars, (scope.map (·.name)).Pairwise (· ≠ ·)

instance (g : Emitter) : Decidable g.Balanced :=
  decidable_of_iff
    (g.depth = g.vars.length ∧ g.vars.reverse.map (·.slot) = List.range g.vars.length ∧
      g.marks.Pairwise (· ≥ ·) ∧ (∀ mark ∈ g.marks, mark ≤ g.vars.length) ∧
      ∀ scope ∈ segments g.marks g.vars, (scope.map (·.name)).Pairwise (· ≠ ·))
    ⟨fun h => ⟨h.1, h.2.1, h.2.2.1, h.2.2.2.1, h.2.2.2.2⟩,
      fun h => ⟨h.depth_eq, h.slots_eq, h.sorted, h.marks_le, h.distinct⟩⟩

/-- Why a checked emission ends. -/
inductive CheckedError
  | scope (e : ScopeError)
  /-- A check failed. -/
  | failedCheck
deriving DecidableEq, Repr

abbrev CheckedEmit := EStateM CheckedError Emitter

namespace CheckedEmit

/-- An emission without checks. -/
def unchecked (x : Emit α) : CheckedEmit α :=
  x.adaptExcept .scope

instance : MonadLift Emit CheckedEmit :=
  ⟨unchecked⟩

/-- Something must hold of the emitter. -/
def check (p : Emitter → Prop) [DecidablePred p] : CheckedEmit Unit := do
  if p (← get) then pure () else throw .failedCheck

def pop (dst : Reg) : CheckedEmit Unit := do
  check (1 ≤ ·.depth)
  Emit.pop dst

def offset (v : Var) : CheckedEmit Nat := do
  check (v.slot + 1 ≤ ·.depth)
  Emit.offset v

def tasks : List Emit.Task → CheckedEmit Unit
  | [] => pure ()
  | .eval (.int l) :: rest => do
    Emit.instr (.load .rax l.spelling)
    Emit.pushing (.push .rax)
    tasks rest
  | .eval (.ident l) :: rest => do
    Emit.pushing (.pushSlot (← offset (← Emit.find l)))
    tasks rest
  | .eval (.paren e) :: rest => tasks (.eval e :: rest)
  | .eval (.binary op l r) :: rest => tasks (.eval r :: .eval l :: .apply op :: rest)
  | .apply op :: rest => do
    pop .rax
    pop .rbx
    ((Emit.opCode op).forM Emit.instr : Emit Unit)
    Emit.pushing (.push .rax)
    tasks rest
termination_by todo => todo.foldr (fun t n => t.size + n) 0
decreasing_by
  all_goals simp only [List.foldr_cons, Emit.Task.size, Emit.exprTasks]; omega

def expr (e : Expr) : CheckedEmit Unit :=
  tasks [.eval e]

def endScope : CheckedEmit Unit := do
  check fun g => g.marks ≠ [] ∧ g.marks.headD 0 ≤ g.vars.length ∧
    g.vars.length - g.marks.headD 0 ≤ g.depth
  Emit.endScope

def branch (test : Expr) : CheckedEmit Nat := do
  expr test
  pop .rax
  let l ← Emit.freshLabel
  Emit.instr .test
  Emit.instr (.jumpZero l)
  return l

def declare (name : Lexeme) (value : Expr) : CheckedEmit Unit := do
  check fun g => g.marks.headD 0 ≤ g.vars.length
  Emit.checkFresh name
  let slot := (← get).depth
  expr value
  modify fun g => { g with vars := ⟨name.spelling, slot⟩ :: g.vars }

def assign (name : Lexeme) (value : Expr) : CheckedEmit Unit := do
  let _ ← Emit.find name
  expr value
  pop .rax
  Emit.instr (.store (← offset (← Emit.find name)))

def exit (value : Expr) : CheckedEmit Unit := do
  expr value
  Emit.instr (.load .rax Emit.exitCall)
  pop .rdi
  Emit.instr .syscall

/-- An emission that begins and ends in balance. -/
def inBalance (x : CheckedEmit Unit) : CheckedEmit Unit := do
  check Emitter.Balanced
  x
  check Emitter.Balanced

mutual

def stmt : Stmt → CheckedEmit Unit
  | .exit e => inBalance do
    Emit.instr (.note "exit")
    exit e
    Emit.instr (.note "/exit")
  | .declare n e => inBalance do
    Emit.instr (.note "let")
    declare n e
    Emit.instr (.note "/let")
  | .assign n e => inBalance do
    Emit.instr (.note "assign")
    assign n e
    Emit.instr (.note "/assign")
  | .scope b => inBalance do
    Emit.instr (.note "scope")
    Emit.beginScope
    stmts b
    endScope
    Emit.instr (.note "/scope")
  | .cond e b c => inBalance do
    Emit.instr (.note "if")
    let l ← branch e
    Emit.beginScope
    stmts b
    endScope
    if c.isStop then
      Emit.instr (.label l)
    else
      let last ← Emit.freshLabel
      Emit.instr (.jump last)
      Emit.instr (.label l)
      chain last c
      Emit.instr (.label last)
    Emit.instr (.note "/if")

def stmts : List Stmt → CheckedEmit Unit
  | [] => pure ()
  | s :: rest => do
    stmt s
    stmts rest

def chain (last : Nat) : Chain → CheckedEmit Unit
  | .stop => pure ()
  | .elif e b next => do
    Emit.instr (.note "elif")
    let l ← branch e
    Emit.beginScope
    stmts b
    endScope
    Emit.instr (.jump last)
    Emit.instr (.label l)
    chain last next
  | .otherwise b => do
    Emit.instr (.note "else")
    Emit.beginScope
    stmts b
    endScope

end

def program (p : Block) : CheckedEmit Unit := do
  Emit.instr .global
  Emit.instr .start
  stmts p
  if !Emit.endsInExit p then
    Emit.instr (.load .rax Emit.exitCall)
    Emit.instr (.load .rdi "0")
    Emit.instr .syscall

end CheckedEmit

end Kei

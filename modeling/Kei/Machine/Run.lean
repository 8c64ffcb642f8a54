import Kei.Machine.Op

/-!
# Running programs

The state of the machine holds the operations still ahead, the registers that were written, the
stack with its oldest value first, the zero flag and the deepest the stack has been. Words have 64
bits and arithmetic wraps; division goes toward zero. Anything a program has no right to do is a
fault: reading a register that was never written, a slot outside the stack, division by zero, a
missing label, a system call other than the one that ends the program, running past the last
operation.
-/

namespace Kei.Machine

/-- The registers that were written, each once. -/
abbrev Registers := List (String × Int64)

/-- Write a register. -/
def Registers.set (name : String) (value : Int64) : Registers → Registers
  | [] => [(name, value)]
  | (n, v) :: rest => if n = name then (n, value) :: rest else (n, v) :: set name value rest

structure State where
  /-- The operations ahead. -/
  code : List Op
  regs : Registers := []
  /-- The stack, oldest value first. -/
  stack : Array Int64 := #[]
  zero : Bool := false
  /-- The deepest the stack has been. -/
  maxDepth : Nat := 0

namespace State

/-- The index of the stack slot `offset` bytes from the newest, if the stack has it. -/
def slot? (s : State) (offset : Nat) : Option Nat :=
  if offset / 8 < s.stack.size then some (s.stack.size - 1 - offset / 8) else none

/-- Read an operand; `none` is a fault. -/
def read (s : State) : Operand → Option Int64
  | .slot offset => (s.slot? offset).bind fun i => s.stack[i]?
  | .noSlot => none
  | .number v => some v
  | .register name => s.regs.lookup name

/-- Write an operand; `none` is a fault. A number keeps its value. -/
def write (s : State) (dst : Operand) (v : Int64) : Option State :=
  match dst with
  | .slot offset => (s.slot? offset).map fun i => { s with stack := s.stack.setIfInBounds i v }
  | .noSlot => none
  | .number _ => some s
  | .register name => some { s with regs := Registers.set name v s.regs }

def push (s : State) (v : Int64) : State :=
  let maxDepth := max s.maxDepth (s.stack.size + 1)
  { s with stack := s.stack.push v, maxDepth }

/-- Drop `bytes` of the stack, whole slots only. -/
def release (s : State) (bytes : Int64) : Option State :=
  if bytes < 0 then none
  else
    let slots := bytes.toNatClampNeg / 8
    if slots ≤ s.stack.size then some { s with stack := s.stack.take (s.stack.size - slots) }
    else none

end State

def Arith.apply : Arith → Int64 → Int64 → Int64
  | .add, a, b => a + b
  | .sub, a, b => a - b
  | .mul, a, b => a * b

/-- The outcome of one operation. -/
inductive Next
  | go (s : State)
  | exited (status : Int64) (s : State)
  | fault

/-- Go on, unless there was a fault. -/
def Next.ofState? : Option State → Next
  | some s => .go s
  | none => .fault

/-- Go on behind a label of the program. -/
def Program.goTo (p : Program) (s : State) (target : Option String) : Next :=
  match target.bind fun name => p.labels[name]? with
  | some code => .go { s with code }
  | none => .fault

/-- The number of the system call that ends a program. -/
def exitCall : Int64 :=
  60

/-- Carry out one operation. -/
def Op.run (p : Program) (s : State) : Op → Next
  | .label _ => .go s
  | .mov dst src => .ofState? ((s.read src).bind (s.write dst))
  | .push src => .ofState? ((s.read src).map s.push)
  | .pop dst =>
    match s.stack.back? with
    | some v => .ofState? ({ s with stack := s.stack.pop }.write dst v)
    | none => .fault
  | .release bytes => .ofState? ((s.read bytes).bind s.release)
  | .arith f dst src =>
    match s.read dst, s.read src with
    | some a, some b => .ofState? (s.write dst (f.apply a b))
    | _, _ => .fault
  | .signExtend => .go s
  | .div divisor =>
    match s.read divisor, s.read (.register "rax") with
    | some b, some a =>
      if b = 0 then .fault
      else
        .ofState? ((s.write (.register "rax") (a / b)).bind fun s =>
          s.write (.register "rdx") (a % b))
    | _, _ => .fault
  | .test left right =>
    match s.read left, s.read right with
    | some a, some b => .go { s with zero := a &&& b == 0 }
    | _, _ => .fault
  | .jumpZero target => if s.zero then p.goTo s target else .go s
  | .jump target => p.goTo s target
  | .syscall =>
    match s.read (.register "rax"), s.read (.register "rdi") with
    | some call, some status => if call = exitCall then .exited status s else .fault
    | _, _ => .fault
  | .fault => .fault

/-- One step of the machine. -/
def step (p : Program) (s : State) : Next :=
  match s.code with
  | [] => .fault
  | op :: code => op.run p { s with code }

/-- What a run came to. -/
inductive Outcome
  | exited (status : Int64) (s : State)
  | fault
  /-- The steps allowed did not suffice. -/
  | stillRunning (s : State)

/-- Run for at most `steps` steps. -/
def runFrom (p : Program) (s : State) : Nat → Outcome
  | 0 => .stillRunning s
  | steps + 1 =>
    match step p s with
    | .go s => runFrom p s steps
    | .exited status s => .exited status s
    | .fault => .fault

/-- Run the text of a program for at most `steps` steps. -/
def run (text : String) (steps : Nat) : Outcome :=
  let p := load text
  runFrom p { code := p.code } steps

end Kei.Machine

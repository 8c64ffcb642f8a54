import Kei.Text.Quoted

/-!
# Log lines

The events of a compilation: how severe each is, which part of the program it belongs to, the fields
it carries and the line that shows it.
-/

namespace Kei.Command

inductive Severity
  | error
  | warn
  | info
  | debug
  | trace
deriving DecidableEq, Repr

namespace Severity

def name : Severity → String
  | error => "ERROR"
  | warn => "WARN"
  | info => "INFO"
  | debug => "DEBUG"
  | trace => "TRACE"

/-- The more severe, the lower; zero is left for showing nothing. -/
def rank : Severity → Nat
  | error => 1
  | warn => 2
  | info => 3
  | debug => 4
  | trace => 5

end Severity

inductive Event
  | tokenized (tokens : Nat)
  | parsed (statements bytes : Nat)
  | placedLabel (label : String)
  | generated (lines : Nat)
  | wroteAssembly (path : String)
  | runningTool (tool : String) (args : List String)
  | linked (path : String)
deriving DecidableEq, Repr

namespace Event

def severity : Event → Severity
  | placedLabel _ => .trace
  | tokenized _ | parsed .. | generated _ | runningTool .. => .debug
  | wroteAssembly _ | linked _ => .info

/-- The part of the program that an event belongs to. -/
def target : Event → String
  | tokenized _ | wroteAssembly _ | linked _ => "keic"
  | parsed .. => "keic::parser"
  | placedLabel _ | generated _ => "keic::codegen"
  | runningTool .. => "keic::toolchain"

def message : Event → String
  | tokenized tokens => "tokenized source tokens=" ++ toString tokens
  | parsed statements bytes =>
    "parsed program statements=" ++ toString statements ++ " arena_bytes=" ++ toString bytes
  | placedLabel label => "placed label label=" ++ Text.quoted label
  | generated lines => "generated assembly lines=" ++ toString lines
  | wroteAssembly path => "wrote assembly output=" ++ path
  | runningTool tool args =>
    "running toolchain step tool=" ++ Text.quoted tool ++ " args=" ++ Text.quotedList args
  | linked path => "linked executable executable=" ++ path

/-- The names of what an event carries, its message among them. -/
def fields : Event → List String
  | tokenized _ => ["message", "tokens"]
  | parsed .. => ["message", "statements", "arena_bytes"]
  | placedLabel _ => ["message", "label"]
  | generated _ => ["message", "lines"]
  | wroteAssembly _ => ["message", "output"]
  | runningTool .. => ["message", "tool", "args"]
  | linked _ => ["message", "executable"]

def line (e : Event) : String :=
  e.severity.name ++ " " ++ e.message ++ "\n"

end Event

end Kei.Command

import Std.Data.HashMap
import Kei.Text.Lines
import Kei.Text.Numeral
import Kei.Text.White

/-!
# Programs of the machine

The text of a program is taken apart line by line into operations. Lines that are empty, remarks or
directives are left out. What an operation works on is a stack slot, a number or a register, and any
text that is neither a slot nor a number names a register. A line that no operation can be made of
is an operation that faults, so it does no harm unless it is reached.
-/

namespace Kei.Machine

inductive Operand
  /-- The stack slot `offset` bytes from the newest. -/
  | slot (offset : Nat)
  /-- A stack slot whose offset is no number. -/
  | noSlot
  | number (value : Int64)
  | register (name : String)
deriving DecidableEq

inductive Arith
  | add
  | sub
  | mul
deriving DecidableEq

inductive Op
  | label (name : String)
  | mov (dst src : Operand)
  | push (src : Operand)
  | pop (dst : Operand)
  /-- Drop as many bytes of the stack as the operand says. -/
  | release (bytes : Operand)
  | arith (f : Arith) (dst src : Operand)
  | signExtend
  | div (divisor : Operand)
  | test (left right : Operand)
  /-- Jump if the zero flag is set; faults if it has no label to go to. -/
  | jumpZero (target : Option String)
  | jump (target : Option String)
  | syscall
  | fault
deriving DecidableEq

/-- What follows the text `start` in `cs`, if `cs` starts with it. -/
def stripStart? (start cs : List Char) : Option (List Char) :=
  if start.isPrefixOf cs then some (cs.drop start.length) else none

/-- What precedes the character `last` in `cs`, if `cs` ends with it. -/
def stripLast? (last : Char) (cs : List Char) : Option (List Char) :=
  if cs.getLast? = some last then some cs.dropLast else none

/-- Drop any number of size marks. -/
def stripSize : List Char → List Char
  | 'Q' :: 'W' :: 'O' :: 'R' :: 'D' :: ' ' :: cs => stripSize cs
  | cs => cs

/-- The offset text of a stack slot. -/
def slotText? (cs : List Char) : Option (List Char) :=
  (stripStart? "[rsp + ".toList (stripSize cs)).bind (stripLast? ']')

/-- Read an operand. -/
def Operand.ofText (cs : List Char) : Operand :=
  match slotText? cs with
  | some offset =>
    match Text.count? offset with
    | some n => .slot n
    | none => .noSlot
  | none =>
    match Text.word? cs with
    | some v => .number v
    | none => .register (String.ofList cs)

/-- The parts between separators `", "`; `ended` and `read` hold the parts before and what was read
of the current one, newest first. -/
def argumentsFrom (ended : List (List Char)) (read : List Char) : List Char → List (List Char)
  | [] => (read.reverse :: ended).reverse
  | ',' :: ' ' :: cs => argumentsFrom (read.reverse :: ended) [] cs
  | c :: cs => argumentsFrom ended (c :: read) cs

/-- The arguments of an operation: the parts that are not empty. -/
def arguments (cs : List Char) : List (List Char) :=
  (argumentsFrom [] [] cs).filter (!·.isEmpty)

/-- Make an operation of its name and its arguments. Arguments too many do not matter. -/
def Op.ofParts (name : String) (args : List (List Char)) : Op :=
  match name, args with
  | "mov", dst :: src :: _ => .mov (.ofText dst) (.ofText src)
  | "push", src :: _ => .push (.ofText src)
  | "pop", dst :: _ => .pop (.ofText dst)
  | "add", dst :: src :: _ =>
    if dst = "rsp".toList then .release (.ofText src)
    else .arith .add (.ofText dst) (.ofText src)
  | "sub", dst :: src :: _ => .arith .sub (.ofText dst) (.ofText src)
  | "imul", dst :: src :: _ => .arith .mul (.ofText dst) (.ofText src)
  | "cqo", _ => .signExtend
  | "idiv", divisor :: _ => .div (.ofText divisor)
  | "test", left :: right :: _ => .test (.ofText left) (.ofText right)
  | "jz", args => .jumpZero (args.head?.map String.ofList)
  | "jmp", args => .jump (args.head?.map String.ofList)
  | "syscall", _ => .syscall
  | _, _ => .fault

/-- The operation of a line without surrounding white space. -/
def Op.ofLine (cs : List Char) : Op :=
  match stripLast? ':' cs with
  | some name => .label (String.ofList name)
  | none =>
    let name := cs.takeWhile (· ≠ ' ')
    let rest := (cs.dropWhile (· ≠ ' ')).drop 1
    .ofParts (String.ofList name) (arguments rest)

/-- Lines that hold no operation. -/
def isIdle (cs : List Char) : Bool :=
  cs.isEmpty || ";;".toList.isPrefixOf cs || "global".toList.isPrefixOf cs

/-- The operations of a program text. -/
def operations (text : String) : List Op :=
  (((Text.lines text.toList).map Text.trim).filter (!isIdle ·)).map Op.ofLine

/-- Add to `found` what follows each label; of labels with one name the last counts. -/
def labelsFrom (found : Std.HashMap String (List Op)) : List Op → Std.HashMap String (List Op)
  | [] => found
  | .label name :: ops => labelsFrom (found.insert name ops) ops
  | _ :: ops => labelsFrom found ops

/-- The operations of a program and what follows each of its labels. -/
structure Program where
  code : List Op
  labels : Std.HashMap String (List Op)

/-- Take the text of a program apart. -/
def load (text : String) : Program :=
  let code := operations text
  ⟨code, labelsFrom ∅ code⟩

end Kei.Machine

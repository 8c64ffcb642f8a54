import Kei.Memory.Arena
import Kei.Text.Numeral

/-!
# The command line

Arguments are read from left to right, and the first fault ends the reading. A request for help or
for the version ends it as well, so faults after such a request do not matter. Options that take a
value may be given once; the value is attached to the option, or it is the next argument, which then
must not look like an option. Short options may be given together. After `--` every argument is an
input.
-/

namespace Kei.Command

/-- What to produce from a source. -/
inductive Product
  | tokens
  | tree
  | assembly
deriving DecidableEq, Repr

structure Options where
  input : String
  output : String
  product : Product
  /-- Bytes for the tree. -/
  limit : Nat
  /-- Assemble and link what was written. -/
  build : Bool
  verbosity : Nat
deriving DecidableEq, Repr

inductive UsageError
  | unknownOption (text : String)
  | missingValue (option : String)
  | unexpectedValue (option : String)
  | repeated (option : String)
  | badValue (option value : String)
  | extraArgument (text : String)
  | missingInput
deriving DecidableEq, Repr

def UsageError.message : UsageError → String
  | unknownOption text => "unexpected argument '" ++ text ++ "' found"
  | missingValue option => "a value is required for '" ++ option ++ "' but none was supplied"
  | unexpectedValue option => "unexpected value for '" ++ option ++ "' found"
  | repeated option => "the argument '" ++ option ++ "' cannot be used multiple times"
  | badValue option value => "invalid value '" ++ value ++ "' for '" ++ option ++ "'"
  | extraArgument text => "unexpected argument '" ++ text ++ "' found"
  | missingInput => "the input was not provided"

/-- What ends the reading of arguments before their end. -/
inductive Stop
  | usage (e : UsageError)
  | help
  | version
deriving DecidableEq, Repr

inductive Flag
  | build
  | verbose
  | help
  | version
deriving DecidableEq, Repr

/-- An option that takes a value. -/
inductive Setting
  | output
  | product
  | limit
deriving DecidableEq, Repr

inductive Name
  | flag (f : Flag)
  | setting (s : Setting)
deriving DecidableEq, Repr

def Name.ofLong? : String → Option Name
  | "output" => some (.setting .output)
  | "emit" => some (.setting .product)
  | "arena-capacity" => some (.setting .limit)
  | "build" => some (.flag .build)
  | "verbose" => some (.flag .verbose)
  | "help" => some (.flag .help)
  | "version" => some (.flag .version)
  | _ => none

def Name.ofShort? : Char → Option Name
  | 'o' => some (.setting .output)
  | 'v' => some (.flag .verbose)
  | 'h' => some (.flag .help)
  | 'V' => some (.flag .version)
  | _ => none

def Setting.text : Setting → String
  | output => "--output <PATH>"
  | product => "--emit <EMIT>"
  | limit => "--arena-capacity <BYTES>"

def Flag.text : Flag → String
  | build => "--build"
  | verbose => "--verbose"
  | help => "--help"
  | version => "--version"

def Product.ofText? : String → Option Product
  | "tokens" => some .tokens
  | "ast" => some .tree
  | "asm" => some .assembly
  | _ => none

/-- What was given so far. -/
structure Draft where
  input : Option String := none
  output : Option String := none
  product : Option Product := none
  limit : Option Nat := none
  build : Bool := false
  verbosity : Nat := 0

namespace Draft

/-- Give an option its value. -/
def set (d : Draft) (s : Setting) (value : String) : Except Stop Draft :=
  let bad : Except Stop Draft := .error (.usage (.badValue s.text value))
  let again : Except Stop Draft := .error (.usage (.repeated s.text))
  match s with
  | .output =>
    if d.output.isSome then again
    else if value.isEmpty then bad
    else .ok { d with output := some value }
  | .product =>
    if d.product.isSome then again
    else
      match Product.ofText? value with
      | some p => .ok { d with product := some p }
      | none => bad
  | .limit =>
    if d.limit.isSome then again
    else
      match Text.count? value.toList with
      | some n => .ok { d with limit := some n }
      | none => bad

def raise (d : Draft) : Flag → Except Stop Draft
  | .build =>
    if d.build then .error (.usage (.repeated Flag.build.text)) else .ok { d with build := true }
  | .verbose => .ok { d with verbosity := d.verbosity + 1 }
  | .help => .error .help
  | .version => .error .version

/-- Take an argument that is no option as the input. -/
def place (d : Draft) (text : String) : Except Stop Draft :=
  if d.input.isSome then .error (.usage (.extraArgument text))
  else if text.isEmpty then .error (.usage (.badValue "<INPUT>" text))
  else .ok { d with input := some text }

/-- Read short options given together: what they come to, and the option among them that still needs
its value. -/
def cluster (d : Draft) : List Char → Except Stop (Draft × Option Setting)
  | [] => .ok (d, none)
  | c :: cs =>
    match Name.ofShort? c with
    | none => .error (.usage (.unknownOption (String.ofList ['-', c])))
    | some (.flag f) => do
      let d ← d.raise f
      d.cluster cs
    | some (.setting s) =>
      match cs with
      | [] => .ok (d, some s)
      | '=' :: cs => return (← d.set s (String.ofList cs), none)
      | cs => return (← d.set s (String.ofList cs), none)

/-- Read a long option, `text` being what follows the dashes, in the same way. -/
def long (d : Draft) (text : List Char) : Except Stop (Draft × Option Setting) := do
  let name := String.ofList (text.takeWhile (· ≠ '='))
  let value := text.dropWhile (· ≠ '=')
  match Name.ofLong? name, value with
  | none, _ => .error (.usage (.unknownOption (String.ofList ('-' :: '-' :: text))))
  | some (.flag f), [] => return (← d.raise f, none)
  | some (.flag f), _ :: _ => .error (.usage (.unexpectedValue f.text))
  | some (.setting s), [] => return (d, some s)
  | some (.setting s), _ :: value => return (← d.set s (String.ofList value), none)

/-- Read one argument that is not `--`. -/
def argument (d : Draft) (text : String) : Except Stop (Draft × Option Setting) :=
  match text.toList with
  | '-' :: '-' :: cs => d.long cs
  | '-' :: c :: cs => d.cluster (c :: cs)
  | _ => return (← d.place text, none)

/-- An argument that may be the value of the option before it: not an option itself. -/
def isValue (text : String) : Bool :=
  match text.toList with
  | '-' :: _ :: _ => false
  | _ => true

/-- Read arguments of which none is an option. -/
def inputs (d : Draft) : List String → Except Stop Draft
  | [] => .ok d
  | text :: rest => do
    let d ← d.place text
    d.inputs rest

/-- Read all arguments; `waiting` is the option whose value must come first. -/
def arguments (d : Draft) (waiting : Option Setting) : List String → Except Stop Draft
  | [] =>
    match waiting with
    | some s => .error (.usage (.missingValue s.text))
    | none => .ok d
  | text :: rest =>
    match waiting with
    | some s =>
      if isValue text then do
        let d ← d.set s text
        d.arguments none rest
      else .error (.usage (.missingValue s.text))
    | none =>
      if text = "--" then d.inputs rest
      else do
        let (d, waiting) ← d.argument text
        d.arguments waiting rest

/-- Complete what was given; `limit` is the value that the environment has for the bytes of the
tree, and it counts only if the option was not given. -/
def complete (d : Draft) (limit : Option String) : Except Stop Options := do
  let limit ← match d.limit, limit with
    | some n, _ => pure n
    | none, none => pure Arena.defaultLimit
    | none, some text =>
      match Text.count? text.toList with
      | some n => pure n
      | none => .error (.usage (.badValue Setting.limit.text text))
  match d.input with
  | none => .error (.usage .missingInput)
  | some input =>
    return {
      input
      output := d.output.getD "out.asm"
      product := d.product.getD .assembly
      limit
      build := d.build
      verbosity := d.verbosity }

end Draft

/-- Read a command line. -/
def readLine (args : List String) (limit : Option String) : Except Stop Options := do
  let d ← Draft.arguments {} none args
  d.complete limit

end Kei.Command

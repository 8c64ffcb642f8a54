import Kei.Command.Filter
import Kei.Command.Line
import Kei.Command.Log
import Kei.Compile
import Kei.Host.Basic
import Kei.Host.Path
import Kei.Syntax.Sexpr

/-!
# Carrying out a command

The source is read, and what was asked for is made of it: its tokens or its tree are printed, or its
assembly is written, assembled and linked. The first failure ends the command with status 1. Nothing
is written before the whole compilation has succeeded, and a tool is run only after everything
before it has.
-/

namespace Kei.Command

inductive Failure
  | badExtension (path : String)
  | unreadable (path : String) (e : FileError)
  | unwritable (path : String) (e : FileError)
  | compilation (source : String) (e : CompileError)
  | noTool (tool : String)
  /-- The tool could not be started. -/
  | brokenTool (tool : String)
  | failedTool (tool : String) (ending : Ending)
deriving DecidableEq, Repr

namespace Failure

def text : Failure → String
  | badExtension path => "error: the input file must have a '.kei' extension: " ++ path ++ "\n"
  | unreadable path e => "error: failed to read " ++ path ++ ": " ++ e.message ++ "\n"
  | unwritable path e => "error: failed to write " ++ path ++ ": " ++ e.message ++ "\n"
  | compilation source e => e.render source
  | noTool tool => "error: could not find `" ++ tool ++ "` on PATH\n"
  | brokenTool tool => "error: failed to run `" ++ tool ++ "`\n"
  | failedTool tool ending => "error: `" ++ tool ++ "` exited with " ++ ending.describe ++ "\n"

end Failure

/-- What a command is carried out with. -/
structure Session (m : Type → Type) where
  host : Host m
  filter : Filter

/-- A step of a command. -/
abbrev Step (m : Type → Type) := ExceptT Failure m

namespace Session

variable {m : Type → Type} [Monad m]

/-- Log an event, if the filter shows it. -/
def log (s : Session m) (e : Event) : Step m Unit :=
  if s.filter.allows e then ExceptT.lift (s.host.report e.line) else pure ()

/-- Log events in order. -/
def logAll (s : Session m) : List Event → Step m Unit
  | [] => pure ()
  | e :: rest => do
    s.log e
    s.logAll rest

/-- A result of compiling `source`. -/
def compiled {α : Type} (source : String) (result : Except CompileError α) : Step m α :=
  match result with
  | .ok a => pure a
  | .error e => throw (.compilation source e)

/-- The text of the input, whose name must have the right extension. -/
def source (s : Session m) (path : String) : Step m String := do
  if Path.extension? path ≠ some "kei" then throw (.badExtension path)
  match ← ExceptT.lift (s.host.read path) with
  | .ok text => pure text
  | .error e => throw (.unreadable path e)

/-- The tokens of a source. -/
def tokens (s : Session m) (source : String) : Step m (List Token) := do
  let tokens ← compiled source (tokenize source)
  s.log (.tokenized tokens.length)
  pure tokens

/-- The tree of a source. -/
def tree (s : Session m) (limit : Nat) (source : String) : Step m Block := do
  let tokens ← s.tokens source
  let read := readTree { limit } tokens
  let program ← compiled source read.1
  s.log (.parsed program.length read.2.allocated)
  compiled source (linkTree read.2 program).1

/-- The events of placing labels. -/
def labelEvents (code : Array Instr) : List Event :=
  code.toList.filterMap fun i =>
    match i with
    | .label n => some (.placedLabel (Instr.labelName n))
    | _ => none

/-- The assembly of a source. -/
def assembly (s : Session m) (limit : Nat) (source : String) : Step m String := do
  let program ← s.tree limit source
  s.logAll (labelEvents program.emit.code)
  let text ← compiled source (generate program)
  s.log (.generated (Text.lines text.toList).length)
  pure text

/-- Run a tool, which must end well. -/
def tool (s : Session m) (name : String) (args : List String) : Step m Unit := do
  if !(← ExceptT.lift (s.host.hasTool name)) then throw (.noTool name)
  s.log (.runningTool name args)
  match ← ExceptT.lift (s.host.runTool name args) with
  | none => throw (.brokenTool name)
  | some (.exited 0) => pure ()
  | some ending => throw (.failedTool name ending)

/-- The object file of an assembly file. -/
def objectPath (assembly : String) : String :=
  Path.withExtension assembly "o"

/-- The executable of an assembly file. -/
def executablePath (assembly : String) : String :=
  Path.withExtension assembly ""

/-- Assemble and link an assembly file. -/
def build (s : Session m) (assembly : String) : Step m Unit := do
  let object := objectPath assembly
  let executable := executablePath assembly
  s.tool "nasm" ["-felf64", assembly, "-o", object]
  s.tool "ld" ["-o", executable, object]
  s.log (.linked executable)

/-- Write a text to a file. -/
def write (s : Session m) (path text : String) : Step m Unit := do
  match ← ExceptT.lift (s.host.write path text) with
  | .ok _ => pure ()
  | .error e => throw (.unwritable path e)

/-- Make what the options ask for. -/
def make (s : Session m) (o : Options) : Step m Unit := do
  let source ← s.source o.input
  match o.product with
  | .tokens =>
    let tokens ← s.tokens source
    ExceptT.lift (s.host.print (String.join (tokens.map fun t => t.display ++ "\n")))
  | .tree =>
    let program ← s.tree o.limit source
    ExceptT.lift (s.host.print program.print)
  | .assembly =>
    let text ← s.assembly o.limit source
    s.write o.output text
    s.log (.wroteAssembly o.output)
    if o.build then s.build o.output

end Session

/-- What the program answers when asked for its version. -/
def versionText : String :=
  "keic 0.1.0\n"

def helpText : String :=
  "Compile a .kei program to x86-64 NASM assembly\n\n" ++
  "Usage: keic [OPTIONS] <INPUT>\n\n" ++
  "Arguments:\n" ++
  "  <INPUT>  Source file, must end in `.kei`\n\n" ++
  "Options:\n" ++
  "  -o, --output <PATH>           Where to write the assembly [default: out.asm]\n" ++
  "      --emit <EMIT>             What to produce [default: asm] " ++
  "[possible values: tokens, ast, asm]\n" ++
  "      --arena-capacity <BYTES>  Byte budget of the syntax tree arena " ++
  "[env: KEIC_ARENA_CAPACITY=] [default: 4194304]\n" ++
  "      --build                   Assemble with nasm and link with ld " ++
  "after writing the assembly\n" ++
  "  -v, --verbose...              Increase logging verbosity (-v for DEBUG, -vv for TRACE)\n" ++
  "  -h, --help                    Print help\n" ++
  "  -V, --version                 Print version\n"

/-- What the environment says. -/
structure Environment where
  /-- Bytes for the tree. -/
  limit : Option String := none
  /-- Which log lines to show. -/
  filter : Option String := none

/-- Carry out a command line; the result is the exit status. -/
def run {m : Type → Type} [Monad m] (host : Host m) (env : Environment) (args : List String) :
    m Nat := do
  match readLine args env.limit with
  | .error .help => do
    host.print helpText
    return 0
  | .error .version => do
    host.print versionText
    return 0
  | .error (.usage e) => do
    host.report ("error: " ++ e.message ++ "\n")
    return 2
  | .ok o =>
    let s : Session m := ⟨host, (Filter.ofText env.filter).raise o.verbosity⟩
    match ← (s.make o).run with
    | .ok _ => return 0
    | .error e => do
      host.report e.text
      return 1

end Kei.Command

import Kei.Assembly.Emit
import Kei.Diagnostic

/-!
# Compilation

From source text to assembly: scan the tokens, read the tree into an arena, emit its code. Reading
takes memory for each node it builds, in the order in which it builds them. The arena may refuse one
of them, which ends the compilation before any later fault of the syntax is seen.
-/

namespace Kei

/-- Read a program, its nodes but not yet the links between its statements served by an arena. -/
def readTree (arena : Arena) (tokens : List Token) : Except CompileError Block × Arena :=
  let outcome := Reader.read tokens
  match arena.serve (outcome.nodes.reverse.map Node.request) with
  | (some refusal, arena) => (.error (.memory refusal), arena)
  | (none, arena) => (outcome.result.mapError .grammar, arena)

/-- Link the statements of a program. -/
def linkTree (arena : Arena) (program : Block) : Except CompileError Block × Arena :=
  match arena.serve (List.replicate program.length Node.link.request) with
  | (some refusal, arena) => (.error (.memory refusal), arena)
  | (none, arena) => (.ok program, arena)

/-- Read a program into an arena. -/
def parse (arena : Arena) (tokens : List Token) : Except CompileError Block × Arena :=
  match readTree arena tokens with
  | (.ok program, arena) => linkTree arena program
  | (.error e, arena) => (.error e, arena)

/-- Scan a text. -/
def tokenize (source : String) : Except CompileError (List Token) :=
  (Token.scan source).mapError .lex

/-- The assembly of a program. -/
def generate (program : Block) : Except CompileError String :=
  let emitted := program.emit
  match emitted.result with
  | .ok _ => .ok (Instr.print emitted.code)
  | .error e => .error (.scope e)

/-- Compile a source text, with `limit` bytes for its tree. -/
def compile (limit : Nat) (source : String) : Except CompileError String := do
  let tokens ← tokenize source
  let program ← (parse { limit } tokens).1
  generate program

end Kei

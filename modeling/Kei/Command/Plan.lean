import Kei.Command.Run
import Kei.Host.World

/-!
# What a command does to its surroundings

What is asked for is a text that a source has or does not have. For assembly there is then a plan:
to write the text, and to assemble and link it if that was asked for. A plan is carried out attempt
by attempt, up to the first one that fails.
-/

namespace Kei.Command

/-- The text that a product of a source is. -/
def Product.text (limit : Nat) (source : String) : Product → Except CompileError String
  | tokens =>
    (tokenize source).map fun tokens => String.join (tokens.map fun t => t.display ++ "\n")
  | tree => (tokenize source >>= fun tokens => (parse { limit } tokens).1).map Block.print
  | assembly => compile limit source

/-- An attempt to change something outside. -/
inductive Attempt
  | write (path text : String)
  | tool (name : String) (args : List String)
deriving DecidableEq, Repr

namespace Attempt

/-- What others notice of the attempt. -/
def deed : Attempt → Deed
  | write path text => .wrote path text
  | tool name args => .ran name args

/-- The attempt with the given tools and files: whether it succeeds, and the files after it. Nothing
is done at all when the file cannot be written, and when the tool is missing or cannot be started. A
tool succeeds when it exits with zero. -/
def outcome (tools : List (String × Tool)) (files : Files) : Attempt → Option (Bool × Files)
  | write path text => (files.write path text).toOption.map fun files => (true, files)
  | tool name args =>
    ((tools.lookup name).bind fun tool => tool args files).map fun r => (r.1 == .exited 0, r.2)

end Attempt

/-- What was achieved. -/
structure Effect where
  succeeded : Bool
  files : Files
  /-- What was done, oldest first. -/
  deeds : List Deed

/-- Make the attempts in turn, up to the first one that fails. -/
def carryOut (tools : List (String × Tool)) (files : Files) : List Attempt → Effect
  | [] => ⟨true, files, []⟩
  | a :: rest =>
    match a.outcome tools files with
    | none => ⟨false, files, []⟩
    | some (false, files) => ⟨false, files, [a.deed]⟩
    | some (true, files) =>
      let e := carryOut tools files rest
      { e with deeds := a.deed :: e.deeds }

/-- Assemble a file. -/
def assembling (path : String) : Attempt :=
  .tool "nasm" ["-felf64", path, "-o", Session.objectPath path]

/-- Link what was assembled from a file. -/
def linking (path : String) : Attempt :=
  .tool "ld" ["-o", Session.executablePath path, Session.objectPath path]

/-- What is to be done with a text of assembly. -/
def Options.plan (o : Options) (text : String) : List Attempt :=
  .write o.output text :: if o.build then [assembling o.output, linking o.output] else []

end Kei.Command

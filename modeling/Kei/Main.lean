import Kei.Command.Run

/-!
# The program

The command is carried out by the file system and the standard channels. This host finds no tools,
so what was asked to be built is written as assembly and then reported.
-/

namespace Kei

/-- The cause of an operating system error. -/
def FileError.ofSystem (e : IO.Error) : FileError :=
  match e with
  | .noFileOrDirectory .. => .notFound
  | .inappropriateType _ code _ =>
    if code = 20 then .notDirectory else if code = 21 then .isDirectory else .other (toString e)
  | e => .other (toString e)

/-- The host that the program runs on. -/
def systemHost : Host IO where
  read path := do
    try
      let bytes ← IO.FS.readBinFile path
      match String.fromUTF8? bytes with
      | some text => return .ok text
      | none => return .error .notText
    catch e => return .error (.ofSystem e)
  write path text := do
    try
      IO.FS.writeFile path text
      return .ok ()
    catch e => return .error (.ofSystem e)
  hasTool _ := return false
  runTool _ _ := return none
  print text := do (← IO.getStdout).putStr text
  report text := do (← IO.getStderr).putStr text

end Kei

/-- Compile what the arguments ask for. -/
def main (args : List String) : IO UInt32 := do
  let limit ← IO.getEnv "KEIC_ARENA_CAPACITY"
  let filter ← IO.getEnv "RUST_LOG"
  let status ← Kei.Command.run Kei.systemHost { limit, filter } args
  return status.toUInt32

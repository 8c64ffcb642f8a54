import Kei.Host.Basic
import Kei.Host.Path
import Kei.Text.White

/-!
# A host in memory

Files, tools and output as values. Paths are looked up from the working directory, part by part, and
every part but the last must be a directory. Files outside the working directory are files like all
others, but their changes are not reported (`Files.changedSince`).
-/

namespace Kei

inductive Entry
  | directory
  | file (bytes : ByteArray)

/-- A place in the file system: the names from the working directory to it, outermost first. A place
outside the working directory starts with steps up or with the root. -/
abbrev Location := List (List Char)

/-- What is known of the file system, newest first. -/
abbrev Files := List (Location × Entry)

namespace Files

/-- The place is outside the working directory. -/
def isOutside (l : Location) : Bool :=
  l.head? == some Path.up || l.head? == some Path.root

/-- The place is the working directory, one around it, or the root. -/
def isBase (l : Location) : Bool :=
  l.all (· == Path.up) || l == [Path.root]

/-- What is at a place. -/
def at? (files : Files) (l : Location) : Option Entry :=
  if isBase l then some .directory else files.lookup l

/-- Step into a part of a path from a directory. -/
def descend (l : Location) (part : List Char) : Location :=
  if Path.isIdle part then l
  else if part ≠ Path.up then l ++ [part]
  else if l == [Path.root] then l
  else if isBase l then l ++ [part]
  else l.dropLast

/-- Where the parts of a path are looked up from. -/
def start (path : String) : Location :=
  if path.toList.head? = some '/' then [Path.root] else []

/-- The place that a path denotes. -/
def placeOf (path : String) : Location :=
  (Path.parts path).foldl descend (start path)

/-- How many bytes a part of a path may take. -/
def longestPart : Nat :=
  255

/-- How many bytes a path may take. -/
def longestPath : Nat :=
  4095

/-- Look up a part of a path in a directory: its place and what is there. -/
def find (files : Files) (l : Location) (part : List Char) :
    Except FileError (Location × Option Entry) :=
  if longestPart < Text.utf8Size part then .error .nameTooLong
  else .ok (descend l part, files.at? (descend l part))

/-- Walk through parts of a path, each of which must be a directory. -/
def walk (files : Files) (l : Location) : List (List Char) → Except FileError Location
  | [] => .ok l
  | part :: rest => do
    match ← files.find l part with
    | (next, some .directory) => walk files next rest
    | (_, some (.file _)) => .error .notDirectory
    | (_, none) => .error .notFound

/-- Walk to the directory of a path, whose last part is not looked up. -/
def enter (files : Files) (path : String) (parts : List (List Char)) : Except FileError Location :=
  if longestPath < path.utf8ByteSize then .error .nameTooLong
  else files.walk (start path) parts.dropLast

/-- Read the text at a path. -/
def read (files : Files) (path : String) : Except FileError String := do
  let parts := Path.parts path
  let l ← files.enter path parts
  match ← files.find l (parts.getLastD []) with
  | (_, none) => .error .notFound
  | (_, some .directory) => .error .isDirectory
  | (_, some (.file bytes)) =>
    match String.fromUTF8? bytes with
    | some text => .ok text
    | none => .error .notText

/-- Put a file at a place, instead of what was there. -/
def put (files : Files) (l : Location) (bytes : ByteArray) : Files :=
  (l, .file bytes) :: files.filter (·.1 ≠ l)

/-- Write a text at a path. A path that ends in a slash denotes a directory, whether there is one or
not. -/
def write (files : Files) (path text : String) : Except FileError Files := do
  let parts := Path.parts path
  let named := (parts.reverse.dropWhile (·.isEmpty)).reverse
  let l ← files.enter path named
  let last := named.getLastD []
  if named.length < parts.length || Path.isIdle last || last == Path.up then .error .isDirectory
  else
    match ← files.find l last with
    | (_, some .directory) => .error .isDirectory
    | (place, _) => .ok (files.put place text.toUTF8)

/-- Make the directories on the way to a place. -/
def makeParents (files : Files) (before : Location) : Location → Files
  | [] | [_] => files
  | name :: rest =>
    let here := before ++ [name]
    let files := if (files.at? here).isSome then files else (here, .directory) :: files
    files.makeParents here rest

/-- Add an entry at a path, with the directories on the way to it. -/
def add (files : Files) (path : String) (entry : Entry) : Files :=
  let l := placeOf path
  (l, entry) :: files.makeParents [] l

/-- The text of a place as a path. -/
def pathOf (l : Location) : String :=
  "/".intercalate (l.map String.ofList)

/-- The files of the working directory that are new or have other content than before. -/
def changedSince (files before : Files) : List (String × ByteArray) :=
  (files.filter fun e => !isOutside e.1).filterMap fun e =>
    match e with
    | (_, .directory) => none
    | (l, .file bytes) =>
      match before.lookup l with
      | some (.file old) => if old.data == bytes.data then none else some (pathOf l, bytes)
      | _ => some (pathOf l, bytes)

end Files

/-- A tool: given its arguments and the files, how it ends and what it leaves behind; `none` if it
cannot be started. -/
abbrev Tool := List String → Files → Option (Ending × Files)

namespace Tool

/-- A tool that cannot be started. -/
def broken : Tool :=
  fun _ _ => none

/-- A tool that records its arguments in a file, one a line, and ends. -/
def recorder (name : String) (ending : Ending) : Tool :=
  fun args files =>
    let text := String.join (args.map (· ++ "\n"))
    some (ending, match files.write (name ++ ".args") text with
      | .ok files => files
      | .error _ => files)

end Tool

/-- What a program did that others can notice afterwards. -/
inductive Deed
  | wrote (path text : String)
  | ran (tool : String) (args : List String)
deriving DecidableEq, Repr

structure World where
  files : Files := []
  tools : List (String × Tool) := []
  /-- The two output channels. -/
  out : String := ""
  err : String := ""
  /-- What was done, newest first. -/
  deeds : List Deed := []

namespace World

/-- Write a file; a failed attempt changes nothing. -/
def write (path text : String) : StateM World (Except FileError Unit) :=
  fun w =>
    match w.files.write path text with
    | .ok files => (.ok (), { w with files, deeds := .wrote path text :: w.deeds })
    | .error e => (.error e, w)

/-- Run a tool. -/
def runTool (name : String) (args : List String) : StateM World (Option Ending) :=
  fun w =>
    match (w.tools.lookup name).bind fun tool => tool args w.files with
    | some (ending, files) => (some ending, { w with files, deeds := .ran name args :: w.deeds })
    | none => (none, w)

/-- The host that a world is. -/
def host : Host (StateM World) where
  read path := return (← get).files.read path
  write := write
  hasTool name := return ((← get).tools.lookup name).isSome
  runTool := runTool
  print text := modify fun w => { w with out := w.out ++ text }
  report text := modify fun w => { w with err := w.err ++ text }

end World

end Kei

import Kei.Text.Split

/-!
# Paths

Paths are texts whose parts are divided by slashes. The name of a path is its last part, and the
extension of a name is what follows its last dot, provided that something stands before that dot.
-/

namespace Kei.Path

/-- The parts between slashes; at least one, and some may be empty. -/
def parts (path : String) : List (List Char) :=
  Text.split '/' path.toList

/-- The part that stands for the directory it is looked up in. -/
def here : List Char :=
  ['.']

/-- The part that stands for the directory around the one it is looked up in. -/
def up : List Char :=
  ['.', '.']

/-- The directory that paths with a slash in front start from. -/
def root : List Char :=
  ['/']

/-- A part that leads nowhere else. -/
def isIdle (part : List Char) : Bool :=
  part.isEmpty || part == here

/-- The name of the file or directory that a path denotes, unless it is a step up. -/
def name? (path : String) : Option (List Char) :=
  match ((parts path).filter (!isIdle ·)).getLast? with
  | some part => if part = up then none else some part
  | none => none

/-- A name before and after its last dot. A dot in front does not count. -/
def splitName? (name : List Char) : Option (List Char × List Char) :=
  let back := name.reverse
  match back.dropWhile (· ≠ '.') with
  | [] | ['.'] => none
  | _ :: stem => some (stem.reverse, (back.takeWhile (· ≠ '.')).reverse)

/-- The extension of the name of a path. -/
def extension? (path : String) : Option String :=
  ((name? path).bind splitName?).map fun p => String.ofList p.2

/-- A name without its extension. -/
def stem (name : List Char) : List Char :=
  match splitName? name with
  | some (before, _) => before
  | none => name

/-- Give a name another extension, or none when `ext` is empty. The name `..x` is special: without
its extension it reads as a step up, and it stays one. -/
def renameExtension (name : List Char) (ext : String) : List Char :=
  if stem name = here then up
  else if ext.isEmpty then stem name
  else stem name ++ '.' :: ext.toList

/-- Give the last part of a path another extension. -/
def withExtension (path ext : String) : String :=
  let back := path.toList.reverse
  let name := (back.takeWhile (· ≠ '/')).reverse
  let before := (back.dropWhile (· ≠ '/')).reverse
  String.ofList (before ++ renameExtension name ext)

end Kei.Path

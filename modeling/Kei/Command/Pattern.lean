import Kei.Text.Letter
import Kei.Text.White

/-!
# Patterns

A directive of a log filter may compare the value of a field with a pattern, a regular expression.
This program never has a value to compare, so of a pattern only its form matters: whether it is well
formed decides whether the filter is accepted. The check reads the pattern once from left to right
and keeps the flags in force, the flags to go back to at the end of each open group, and the names
given so far.

Nothing is known about the case or the class of characters beyond ASCII. Hence comparing without
regard to case, `\d`, `\s`, `\w` and the bounds of words are only understood where the flag `u` has
been taken back, and what is then left must not match a part of a character.
-/

namespace Kei.Command.Pattern

structure Flags where
  /-- Letters match regardless of case (`i`). -/
  caseless : Bool := false
  /-- Characters are taken whole (`u`). -/
  whole : Bool := true
  /-- White space and comments stand for nothing (`x`). -/
  spaced : Bool := false
deriving DecidableEq, Repr

/-- What an escape stands for. -/
inductive Atom
  /-- A character; `byte` if it is given by two hexadecimal digits. -/
  | char (code : Nat) (byte : Bool)
  /-- A class of characters, and whether it is given by what it leaves out. -/
  | letters (negated : Bool)
  /-- One end of the text. -/
  | edge
  /-- A bound of a word, or a place that is none. -/
  | bound
deriving DecidableEq, Repr

/-- The text after white space and comments. -/
def afterSpace (inComment : Bool) : List Char → List Char
  | [] => []
  | c :: cs =>
    if inComment then afterSpace (c ≠ '\n') cs
    else if Text.isWhite c then afterSpace false cs
    else if c = '#' then afterSpace true cs
    else c :: cs

/-- The text from the next character that counts on. -/
def skip (f : Flags) (cs : List Char) : List Char :=
  if f.spaced then afterSpace false cs else cs

def hexValue? (c : Char) : Option Nat :=
  if c.isDigit then some (c.toNat - '0'.toNat)
  else if 'a' ≤ c ∧ c ≤ 'f' then some (c.toNat - 'a'.toNat + 10)
  else if 'A' ≤ c ∧ c ≤ 'F' then some (c.toNat - 'A'.toNat + 10)
  else none

/-- Read `count` hexadecimal digits after a number of value `n`. -/
def hexDigits? (f : Flags) (n : Nat) (cs : List Char) : Nat → Option (Nat × List Char)
  | 0 => some (n, cs)
  | count + 1 =>
    match skip f cs with
    | [] => none
    | c :: cs => do hexDigits? f (16 * n + (← hexValue? c)) cs count

/-- A character given by `count` hexadecimal digits. -/
def hexChar? (f : Flags) (count : Nat) (cs : List Char) : Option (Atom × List Char) := do
  let (n, cs) ← hexDigits? f 0 cs count
  if n.isValidChar then some (.char n (count == 2), cs) else none

/-- The control characters that have an escape of their own. -/
def controls : List (Char × Nat) :=
  [('a', 0x07), ('t', 0x09), ('n', 0x0a), ('v', 0x0b), ('f', 0x0c), ('r', 0x0d)]

/-- Read what stands after a backslash. -/
def escape? (f : Flags) : List Char → Option (Atom × List Char)
  | [] => none
  | c :: cs =>
    if c ∈ ['d', 's', 'w'] then some (.letters false, cs)
    else if c ∈ ['D', 'S', 'W'] then some (.letters true, cs)
    else if c = 'x' then hexChar? f 2 cs
    else if c = 'u' then hexChar? f 4 cs
    else if c = 'U' then hexChar? f 8 cs
    else if let some code := controls.lookup c then some (.char code false, cs)
    else if c ∈ ['A', 'z'] then some (.edge, cs)
    else if c ∈ ['b', 'B', '<', '>'] then some (.bound, cs)
    else if c.isAlphanum || 0x80 ≤ c.toNat then none
    else some (.char c.toNat false, cs)

namespace Atom

/-- Whether an atom is understood outside a set. -/
def isPlain (f : Flags) : Atom → Bool
  | char code byte => !(f.caseless && f.whole) && (f.whole || !byte || code < 0x80)
  | letters negated => !f.whole && !negated
  | edge => true
  | bound => !f.whole

/-- Whether an atom is understood as a member of a set. -/
def isMember (f : Flags) : Atom → Bool
  | char code _ => f.whole || code < 0x80
  | letters negated => !f.whole && !negated
  | edge | bound => false

end Atom

/-! ### Sets -/

/-- The names of classes in a set. -/
def classNames : List String :=
  ["alnum", "alpha", "ascii", "blank", "cntrl", "digit", "graph", "lower", "print", "punct",
    "space", "upper", "word", "xdigit"]

/-- Read a class such as `[:alpha:]`, or its complement, after its opening bracket. -/
def namedClass? (f : Flags) : List Char → Option (List Char)
  | ':' :: cs =>
    let negated := cs.head? == some '^'
    let cs := if negated then cs.drop 1 else cs
    match cs.dropWhile (· ≠ ':') with
    | ':' :: ']' :: rest =>
      if String.ofList (cs.takeWhile (· ≠ ':')) ∈ classNames ∧ (f.whole ∨ !negated) then some rest
      else none
    | _ => none
  | _ => none

/-- Read the members at the start of a set that would mean something else later: dashes, or else
one closing bracket. -/
def firstMembers (f : Flags) (cs : List Char) : List Char :=
  match skip f cs with
  | ']' :: cs => cs
  | cs => cs.dropWhile fun c => c = '-' || (f.spaced && Text.isWhite c)

/-- Read the start of a set after its opening bracket. -/
def openSet? (f : Flags) (cs : List Char) : Option (List Char) :=
  if f.caseless && f.whole then none
  else
    match skip f cs with
    | '^' :: cs => if f.whole then some (firstMembers f cs) else none
    | cs => some (firstMembers f cs)

/-- Read a member of a set. -/
def member? (f : Flags) : List Char → Option (Atom × List Char)
  | [] => none
  | '\\' :: cs => do
    let (atom, cs) ← escape? f cs
    if atom.isMember f then some (atom, cs) else none
  | c :: cs => if (Atom.char c.toNat false).isMember f then some (.char c.toNat false, cs) else none

/-- Read a member of a set or a range of them, whose ends are characters in order. -/
def range? (f : Flags) (cs : List Char) : Option (List Char) := do
  let (first, cs) ← member? f cs
  match skip f cs with
  | '-' :: rest =>
    match skip f rest with
    | ']' :: _ | '-' :: _ => some ('-' :: rest)
    | rest =>
      let (last, rest) ← member? f rest
      match first, last with
      | .char a _, .char b _ => if a ≤ b then some rest else none
      | _, _ => none
  | cs => some cs

/-- Read the rest of a set with `depth` sets open around it, in at most `fuel` parts. -/
def closeSet? (f : Flags) (depth : Nat) (cs : List Char) : Nat → Option (List Char)
  | 0 => none
  | fuel + 1 =>
    match skip f cs with
    | [] => none
    | '[' :: cs =>
      match namedClass? f cs with
      | some cs => closeSet? f depth cs fuel
      | none => do closeSet? f (depth + 1) (← openSet? f cs) fuel
    | ']' :: cs => if depth = 0 then some cs else closeSet? f (depth - 1) cs fuel
    | '&' :: '&' :: cs | '-' :: '-' :: cs | '~' :: '~' :: cs => closeSet? f depth cs fuel
    | cs => do closeSet? f depth (← range? f cs) fuel

/-- Read a set after its opening bracket. -/
def set? (f : Flags) (cs : List Char) : Option (List Char) := do
  closeSet? f 0 (← openSet? f cs) (cs.length + 1)

/-! ### Groups -/

/-- Set or take back one flag. -/
def Flags.change? (f : Flags) (on : Bool) : Char → Option Flags
  | 'i' => some { f with caseless := on }
  | 'u' => some { f with whole := on }
  | 'x' => some { f with spaced := on }
  | 'm' | 's' | 'U' | 'R' => some f
  | _ => none

/-- Read flags up to the colon or bracket that ends them. Each stands once, and a dash before some
of them takes those back. -/
def flags? (f : Flags) (seen : List Char) :
    List Char → Option (Flags × List Char × Char × List Char)
  | [] => none
  | c :: cs =>
    if c = ':' ∨ c = ')' then if seen.head? = some '-' then none else some (f, seen, c, cs)
    else if c ∈ seen then none
    else if c = '-' then flags? f ('-' :: seen) cs
    else do flags? (← f.change? ('-' ∉ seen) c) (c :: seen) cs

def isNameChar (c : Char) : Bool :=
  c = '_' || c = '.' || c = '[' || c = ']' || Text.isLetterOrNumber c

/-- Read the name of a group up to the bracket that ends it. -/
def name? (cs : List Char) : Option (List Char × List Char) :=
  match cs.takeWhile (· ≠ '>'), cs.dropWhile (· ≠ '>') with
  | c :: name, _ :: rest =>
    if (c = '_' || Text.isLetter c) && name.all isNameChar then some (c :: name, rest) else none
  | _, _ => none

/-- What stands after an opening parenthesis. -/
inductive Opening
  | group (f : Flags) (name : Option (List Char))
  | change (f : Flags)
deriving DecidableEq, Repr

/-- Read the start of a group after its parenthesis. -/
def opening? (f : Flags) (cs : List Char) : Option (Opening × List Char) :=
  match skip f cs with
  | '?' :: '<' :: '!' :: _ => none
  | '?' :: 'P' :: '<' :: cs | '?' :: '<' :: cs => do
    let (name, cs) ← name? cs
    some (.group f (some name), cs)
  | '?' :: cs => do
    let (g, seen, c, cs) ← flags? f [] cs
    if c = ':' then some (.group g none, cs)
    else if seen.isEmpty then none
    else some (.change g, cs)
  | cs => some (.group f none, cs)

/-! ### The whole pattern -/

/-- Where the check stands. -/
structure State where
  flags : Flags := {}
  /-- The flags to go back to at the end of each open group, innermost first. -/
  outer : List Flags := []
  names : List (List Char) := []
  /-- Whether something that can be repeated was just read. -/
  repeatable : Bool := false
deriving DecidableEq, Repr

namespace State

/-- Read one part of a pattern, which starts with a character that counts. -/
def step? (s : State) : List Char → Option (State × List Char)
  | [] => some (s, [])
  | '(' :: cs => do
    match ← opening? s.flags cs with
    | (.change f, cs) => some ({ s with flags := f, repeatable := false }, cs)
    | (.group f name, cs) =>
      let inner := { s with flags := f, outer := s.flags :: s.outer, repeatable := false }
      match name with
      | none => some (inner, cs)
      | some name =>
        if name ∈ s.names then none else some ({ inner with names := name :: s.names }, cs)
  | ')' :: cs =>
    match s.outer with
    | [] => none
    | f :: outer => some ({ s with flags := f, outer, repeatable := true }, cs)
  | '|' :: cs => some ({ s with repeatable := false }, cs)
  | '[' :: cs => do some ({ s with repeatable := true }, ← set? s.flags cs)
  | '\\' :: cs => do
    let (atom, cs) ← escape? s.flags cs
    if atom.isPlain s.flags then some ({ s with repeatable := true }, cs) else none
  | c :: cs =>
    let ok :=
      if c ∈ ['?', '*', '+'] then s.repeatable
      else if c = '\x7b' then false
      else if c = '.' then s.flags.whole
      else if c = '^' ∨ c = '$' then true
      else (Atom.char c.toNat false).isPlain s.flags
    if ok then some ({ s with repeatable := true }, cs) else none

/-- Read a pattern to its end, in at most `fuel` parts. -/
def run (s : State) (cs : List Char) : Nat → Bool
  | 0 => false
  | fuel + 1 =>
    match skip s.flags cs with
    | [] => s.outer.isEmpty
    | cs =>
      match s.step? cs with
      | none => false
      | some (s, cs) => run s cs fuel

end State

/-- Whether a text is a well formed pattern. Each part takes a character at least, so there are no
more parts than characters. -/
def wellFormed (cs : List Char) : Bool :=
  ({} : State).run cs (cs.length + 1)

end Kei.Command.Pattern

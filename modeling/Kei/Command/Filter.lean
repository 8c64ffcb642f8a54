import Kei.Command.Log
import Kei.Command.Pattern
import Kei.Text.Letter
import Kei.Text.Numeral
import Kei.Text.Split
import Kei.Text.White

/-!
# Log filters

A filter decides which events are shown. It is a list of directives such as `info`,
`keic::parser=debug` or `keic[{tokens}]=trace`: a rank, and what an event must have for it, a target
that starts in a certain way and perhaps a field. Of the directives that cover an event the most
particular one counts: that with the longest target, then one that asks for a field, then the one
whose field comes last in the order of names, and of equal ones the last.

A directive may also name a span of the program or the value of a field. It then speaks of what
happens inside a span. This program opens none, so such a directive shows nothing.
-/

namespace Kei.Command

/-- What a directive asks of a field. -/
structure FieldTest where
  name : String
  hasValue : Bool
deriving DecidableEq, Repr

/-- Show events up to `rank` of targets that start with `target`. -/
structure Directive where
  target : List Char := []
  span : Option (List Char) := none
  field : Option FieldTest := none
  rank : Nat
deriving DecidableEq, Repr

abbrev Filter := List Directive

/-- The names of the ranks, each at its place. -/
def rankNames : List String :=
  ["off", "error", "warn", "info", "debug", "trace"]

/-- Read a rank: a number, or a name in any case. -/
def rank? (text : List Char) : Option Nat :=
  match Text.count? text with
  | some n => if n < rankNames.length then some n else none
  | none =>
    let name := String.ofList (text.map Char.toLower)
    let i := rankNames.idxOf name
    if i < rankNames.length then some i else none

/-- Shows everything. -/
def fullRank : Nat :=
  5

namespace FieldTest

/-- Digits with a point somewhere, and perhaps an exponent. -/
def isDecimal (cs : List Char) : Bool :=
  let (whole, rest) := cs.span Char.isDigit
  let (fraction, rest) :=
    match rest with
    | '.' :: rest => rest.span Char.isDigit
    | rest => ([], rest)
  let exponent :=
    match rest with
    | [] => true
    | e :: '+' :: digits | e :: '-' :: digits | e :: digits =>
      (e = 'e' || e = 'E') && !digits.isEmpty && digits.all Char.isDigit
  !(whole.isEmpty && fraction.isEmpty) && exponent

/-- A number with its sign, infinity, or no number. -/
def isNumber (cs : List Char) : Bool :=
  let cs :=
    match cs with
    | '+' :: cs | '-' :: cs => cs
    | cs => cs
  String.ofList (cs.map Char.toLower) ∈ ["inf", "infinity", "nan"] || isDecimal cs

/-- Read a field, `name` or `name=value`, the value a number or else a pattern. -/
def ofText? (text : List Char) : Option FieldTest :=
  if text.isEmpty then none
  else
    match Text.split '=' text with
    | name :: value :: _ =>
      if isNumber value || Pattern.wellFormed value then some ⟨String.ofList name, true⟩ else none
    | _ => some ⟨String.ofList text, false⟩

end FieldTest

namespace Directive

/-- What is read of a directive. Positions are those of the part's first character. -/
inductive Part
  /-- Nothing yet. -/
  | nothing
  /-- A rank or a target. -/
  | head
  /-- The span, after its bracket. -/
  | span (first : Nat)
  /-- The field, after its brace. -/
  | field (first : Nat)
  /-- All but the bracket that closes the span. -/
  | fields
  /-- All but the rank. -/
  | closed
  /-- The rank, after its sign. -/
  | rank (first : Nat)
deriving DecidableEq, Repr

/-- A directive may start with this character, or with a bracket. -/
def mayStart (c : Char) : Bool :=
  c = '-' || c = ':' || c = '_' || Text.isLetterOrNumber c

/-- The characters of a text between two positions. -/
def cut (text : List Char) (first last : Nat) : List Char :=
  (text.drop first).take (last - first)

/-- Read the character `c` at position `i` of the directive `text`. -/
def step? (text : List Char) (i : Nat) (c : Char) (d : Directive) :
    Part → Option (Directive × Part)
  | .nothing =>
    if c = '[' then some (d, .span (i + 1)) else if mayStart c then some (d, .head) else none
  | .head =>
    if c = '=' then some ({ d with target := cut text 0 i }, .rank (i + 1))
    else if c = '[' then some ({ d with target := cut text 0 i }, .span (i + 1))
    else some (d, .head)
  | .span first =>
    if c = ']' then some ({ d with span := some (cut text first i) }, .closed)
    else if c = '\x7b' then
      let name := cut text first i
      some ({ d with span := if name.isEmpty then none else some name }, .field (i + 1))
    else some (d, .span first)
  | .field first =>
    if c = '\x7d' then do
      let field ← FieldTest.ofText? (cut text first i)
      some ({ d with field }, .fields)
    else some (d, .field first)
  | .fields => if c = ']' then some (d, .closed) else none
  | .closed => if c = '=' then some (d, .rank (i + 1)) else none
  | .rank first => some (d, .rank first)

/-- End the directive `text`. -/
def finish? (text : List Char) (d : Directive) : Part → Option Directive
  | .head =>
    match rank? text with
    | some rank => some { d with rank }
    | none => some { d with target := text }
  | .rank first =>
    let level := text.drop first
    if level.isEmpty then some d else (rank? level).map fun rank => { d with rank }
  | .closed => some d
  | .nothing | .span _ | .field _ | .fields => none

/-- Read the rest of the directive `text` from position `i` on. -/
def readFrom? (text : List Char) (i : Nat) (d : Directive) (part : Part) :
    List Char → Option Directive
  | [] => d.finish? text part
  | c :: cs => do
    let (d, part) ← step? text i c d part
    readFrom? text (i + 1) d part cs

/-- Read one directive: a rank for every target, a target shown in full, or what an event must have
and its rank. White space around it is not read, but it is part of the text that positions refer
to, so that after white space each part is cut off too early. -/
def ofText? (text : List Char) : Option Directive :=
  readFrom? text 0 { rank := fullRank } .nothing (Text.trim text)

/-- Whether the directive says which rank an event needs: it speaks of no span, its target is a
start of the event's, and the event carries the field it asks for. -/
def covers (d : Directive) (e : Event) : Bool :=
  d.span.isNone && d.target.isPrefixOf e.target.toList &&
    match d.field with
    | none => true
    | some f => !f.hasValue && f.name ∈ e.fields

/-- Whether a directive gives way to a later one that covers the same event. -/
def givesWay (d later : Directive) : Bool :=
  if d.target.length ≠ later.target.length then d.target.length < later.target.length
  else
    match d.field, later.field with
    | none, _ => true
    | some _, none => false
    | some f, some g => !(g.name < f.name)

end Directive

namespace Filter

/-- What is shown when nothing else is asked for. -/
def standard : Filter :=
  [{ rank := Severity.warn.rank }]

/-- Read a filter; a text with a faulty directive stands for the standard filter. -/
def ofText (text : Option String) : Filter :=
  match text with
  | none => standard
  | some text =>
    let parts := (Text.split ',' text.toList).filter (!·.isEmpty)
    (parts.mapM Directive.ofText?).getD standard

/-- Raise the filter for this program: by one for details, by more for everything. -/
def raise (filter : Filter) (verbosity : Nat) : Filter :=
  match verbosity with
  | 0 => filter
  | 1 => filter ++ [{ target := "keic".toList, rank := Severity.debug.rank }]
  | _ => filter ++ [{ target := "keic".toList, rank := Severity.trace.rank }]

/-- Of two directives the one that counts. -/
def stronger (best : Option Directive) (d : Directive) : Option Directive :=
  match best with
  | none => some d
  | some b => if b.givesWay d then some d else some b

def allows (filter : Filter) (e : Event) : Bool :=
  match (filter.filter (·.covers e)).foldl stronger none with
  | some d => e.severity.rank ≤ d.rank
  | none => false

end Filter

end Kei.Command

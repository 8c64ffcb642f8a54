import Kei.Syntax.Sexpr

/-!
# S-expressions as data

A datum is a word or a list of data. Trees are written as data (`Block.data`), data as characters
(`Datum.text`), and both ways lead back: `Datum.readAll` reads characters one by one, with the open
lists on a stack, and `Datum.stmts?` recognises the statements in data. A word that starts with a
digit is a literal, and any other one a name, also where it is spelled like a tag: only the first
word of a list is a tag.
-/

namespace Kei

inductive Datum
  | word (text : String)
  | list (items : List Datum)

namespace Datum

/-! ## Data as characters -/

mutual

/-- The characters of a datum: those of a list stand in parentheses, with blanks between items. -/
def text : Datum → List Char
  | word w => w.toList
  | list [] => ['(', ')']
  | list (d :: rest) => '(' :: (d.text ++ (tailText rest ++ [')']))

/-- The characters of data, each after a blank. -/
def tailText : List Datum → List Char
  | [] => []
  | d :: rest => ' ' :: (d.text ++ tailText rest)

end

/-- What is read of some data. -/
structure Reading where
  /-- The letters read of an unfinished word, last first. -/
  letters : List Char := []
  /-- The data read of the innermost open list, last first. -/
  items : List Datum := []
  /-- The data read of the lists around it, innermost first. -/
  outer : List (List Datum) := []

namespace Reading

def push (s : Reading) (d : Datum) : Reading :=
  { s with items := d :: s.items }

/-- End a word, if one is unfinished. -/
def endWord (s : Reading) : Reading :=
  match s.letters with
  | [] => s
  | c :: cs => { s with letters := [] }.push (.word (String.ofList (c :: cs).reverse))

/-- Read one more character. A list can be closed only where one is open. -/
def step (s : Reading) (c : Char) : Option Reading :=
  if c = '(' then some { outer := s.endWord.items :: s.outer }
  else if c = ')' then
    match s.outer with
    | [] => none
    | items :: outer => some (push { items, outer } (.list s.endWord.items.reverse))
  else if c = ' ' ∨ c = '\n' then some s.endWord
  else some { s with letters := c :: s.letters }

end Reading

/-- The data that a text consists of, if it closes every list it opens. -/
def readAll (text : List Char) : Option (List Datum) := do
  let s ← text.foldlM Reading.step {}
  if s.outer.isEmpty then some s.endWord.items.reverse else none

/-! ## Data as trees -/

/-- A word as a lexeme, of no line. -/
def lexeme (w : String) : Lexeme where
  line := 0
  text := some w

/-- The expression that a datum denotes. -/
def expr? : Datum → Option Expr
  | word w =>
    if w.toList.head?.any Char.isDigit then some (.int (lexeme w)) else some (.ident (lexeme w))
  | list [word "paren", e] => return .paren (← e.expr?)
  | list [word "+", l, r] => return .binary .add (← l.expr?) (← r.expr?)
  | list [word "-", l, r] => return .binary .sub (← l.expr?) (← r.expr?)
  | list [word "*", l, r] => return .binary .mul (← l.expr?) (← r.expr?)
  | list [word "/", l, r] => return .binary .div (← l.expr?) (← r.expr?)
  | _ => none

mutual

/-- The statement that a datum denotes. -/
def stmt? : Datum → Option Stmt
  | list [word "exit", e] => return .exit (← e.expr?)
  | list [word "let", word n, e] => return .declare (lexeme n) (← e.expr?)
  | list [word "assign", word n, e] => return .assign (lexeme n) (← e.expr?)
  | list (word "scope" :: body) => return .scope (← stmts? body)
  | list (word "if" :: e :: list (word "scope" :: body) :: chain) =>
    return .cond (← e.expr?) (← stmts? body) (← chain? chain)
  | _ => none

def stmts? : List Datum → Option (List Stmt)
  | [] => some []
  | d :: rest => return (← d.stmt?) :: (← stmts? rest)

/-- The chain that the rest of a conditional denotes. -/
def chain? : List Datum → Option Chain
  | [] => some .stop
  | [list (word "elif" :: e :: list (word "scope" :: body) :: chain)] =>
    return .elif (← e.expr?) (← stmts? body) (← chain? chain)
  | [list [word "else", list (word "scope" :: body)]] => return .otherwise (← stmts? body)
  | _ => none

end

end Datum

/-- The program, without its lines, that a text of S-expressions denotes. -/
def Block.ofSexpr? (text : String) : Option Block := do
  Datum.stmts? (← Datum.readAll text.toList)

/-! ## Trees as data -/

def Expr.datum : Expr → Datum
  | .int l => .word l.spelling
  | .ident l => .word l.spelling
  | .paren e => .list [.word "paren", e.datum]
  | .binary op l r => .list [.word op.sign, l.datum, r.datum]

mutual

def Stmt.datum : Stmt → Datum
  | .exit e => .list [.word "exit", e.datum]
  | .declare n e => .list [.word "let", .word n.spelling, e.datum]
  | .assign n e => .list [.word "assign", .word n.spelling, e.datum]
  | .scope b => .list (.word "scope" :: Block.data b)
  | .cond e b c => .list (.word "if" :: e.datum :: .list (.word "scope" :: Block.data b) :: c.data)

def Block.data : List Stmt → List Datum
  | [] => []
  | s :: rest => s.datum :: Block.data rest

/-- What stands in a conditional behind its first branch. -/
def Chain.data : Chain → List Datum
  | .stop => []
  | .elif e b next =>
    [.list (.word "elif" :: e.datum :: .list (.word "scope" :: Block.data b) :: next.data)]
  | .otherwise b => [.list [.word "else", .list (.word "scope" :: Block.data b)]]

end

end Kei

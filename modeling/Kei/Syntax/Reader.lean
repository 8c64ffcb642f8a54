import Kei.Memory.Node
import Kei.Syntax.Tree

/-!
# From tokens to trees

A program is read by a pushdown automaton that consumes one token a step. Its state holds everything
that is open: the blocks around the point reached with the statements read of each, and, inside an
expression, the open parentheses with the operators that wait for their right operand. Operators are
folded by precedence: before a token is consumed, every waiting operator that binds at least as
tightly as that token is combined with its operand, so operators of one level group to the left.

A statement is recognised by at most three tokens, and nothing is consumed that does not fit. The
state also records the nodes built so far, in order, since each takes memory of an arena.
-/

namespace Kei

inductive SyntaxError
  /-- `what` was wanted and `got` was found; `line` is that of the last token consumed. -/
  | expected (what got : String) (line : Nat)
  /-- More than `limit` scopes and parenthesised terms would enclose each other. -/
  | nestingTooDeep (limit line : Nat)
deriving DecidableEq, Repr

/-- A condition and the block it guards. -/
structure Branch where
  test : Expr
  body : List Stmt

/-- The conditional with these branches, which come newest first, and the chain after them. -/
def Stmt.ofBranches (newest : Branch) : List Branch → Chain → Stmt
  | [], chain => .cond newest.test newest.body chain
  | b :: older, chain => ofBranches b older (.elif newest.test newest.body chain)

namespace Reader

/-- How many scopes and parenthesised terms may enclose each other. -/
def maxNesting : Nat :=
  256

/-- Left operands and operators that wait for their right operand, innermost first. -/
abbrev Waiting := List (Expr × Op)

/-- What an expression is read for. -/
inductive Use
  | exit
  | declare (name : Lexeme)
  | assign (name : Lexeme)
  /-- A condition; the branches before it come newest first. -/
  | test (earlier : List Branch)

/-- What a block is read for. -/
inductive Role
  | scope
  /-- The block that `test` guards. -/
  | branch (earlier : List Branch) (test : Expr)
  /-- The block for when no condition holds. -/
  | otherwise (newest : Branch) (older : List Branch)

/-- An open block: what it is for and the statements before it in the block around it, newest
first. -/
structure Level where
  role : Role
  before : List Stmt

/-- The point reached inside the innermost open block. -/
inductive Place
  /-- Between statements. -/
  | statement
  /-- After `exit`. -/
  | exitParen
  /-- After `let`. -/
  | letName
  /-- After `let` and a name. -/
  | letEquals (name : Lexeme)
  /-- After a name that is assigned to. -/
  | assignEquals (name : Lexeme)
  /-- Before a term; `groups` holds what waits outside each open parenthesis, innermost first. -/
  | term (use : Use) (groups : List Waiting) (waiting : Waiting)
  /-- After a term. -/
  | operator (use : Use) (groups : List Waiting) (waiting : Waiting) (operand : Expr)
  /-- After `exit(e)`. -/
  | exitEnd (value : Expr)
  /-- After `if` or `elif`. -/
  | testParen (earlier : List Branch)
  /-- Before the block of a conditional. -/
  | body (role : Role)
  /-- After a guarded block, where the conditional may go on. -/
  | chain (newest : Branch) (older : List Branch)

structure State where
  levels : List Level := []
  /-- The statements read of the innermost open block, newest first. -/
  done : List Stmt := []
  place : Place := .statement
  /-- The nodes built, newest first. -/
  nodes : List Node := []

/-- Combine an operand with the waiting operators that bind at least as tightly as `level`. -/
def combine (level : Nat) (nodes : List Node) : Waiting → Expr → Waiting × Expr × List Node
  | (lhs, op) :: waiting, e =>
    if level ≤ op.level then combine level (.expr :: nodes) waiting (.binary op lhs e)
    else ((lhs, op) :: waiting, e, nodes)
  | [], e => ([], e, nodes)

namespace State

/-- How many scopes and parenthesised terms are open. -/
def depth (s : State) : Nat :=
  match s.place with
  | .term _ groups _ => s.levels.length + groups.length
  | .operator _ groups _ _ => s.levels.length + groups.length
  | _ => s.levels.length

/-- Complete what the next token, or the end of the list, does not continue. -/
def settle (s : State) (next : Option Kind) : State :=
  match s.place with
  | .operator use groups waiting e =>
    match combine ((next.bind Kind.level?).getD 0) s.nodes waiting e with
    | (waiting, e, nodes) => { s with place := .operator use groups waiting e, nodes }
  | .chain newest older =>
    if next = some .elifWord ∨ next = some .elseWord then s
    else
      { s with
        done := .ofBranches newest older .stop :: s.done
        place := .statement
        nodes := .stmt :: (List.replicate older.length .chain ++ s.nodes) }
  | _ => s

/-- What the state wants next, in the words of messages. -/
def wanted (s : State) : String :=
  match s.place with
  | .statement | .chain .. => if s.levels.isEmpty then "statement" else Kind.rightBrace.describe
  | .exitParen | .testParen _ => Kind.leftParen.describe
  | .letName => Kind.identifier.describe
  | .letEquals _ | .assignEquals _ => Kind.equals.describe
  | .term .. => "expression"
  | .operator use groups _ _ =>
    match groups, use with
    | [], .declare _ | [], .assign _ => Kind.semicolon.describe
    | _, _ => Kind.rightParen.describe
  | .exitEnd _ => Kind.semicolon.describe
  | .body _ => "scope"

/-- Go on behind a complete term. -/
def operand (s : State) (use : Use) (groups : List Waiting) (waiting : Waiting) (e : Expr) :
    State :=
  { s with place := .operator use groups waiting e, nodes := .expr :: s.nodes }

/-- Go on behind a complete statement. -/
def finish (s : State) (stmt : Stmt) : State :=
  { s with done := stmt :: s.done, place := .statement, nodes := .stmt :: s.nodes }

end State

/-- The outcome of offering a token to a state. -/
inductive Move
  | to (s : State)
  /-- The token does not fit. -/
  | refused
  /-- The token opens one scope or parenthesised term too many. -/
  | tooDeep

namespace State

/-- Open a block. -/
def openBlock (limit : Nat) (s : State) (role : Role) : Move :=
  if s.depth < limit then
    .to { s with levels := ⟨role, s.done⟩ :: s.levels, done := [], place := .statement }
  else .tooDeep

/-- Close the innermost open block. -/
def closeBlock (s : State) : Move :=
  match s.levels with
  | [] => .refused
  | ⟨role, before⟩ :: levels =>
    let body := s.done.reverse
    let nodes : List Node := .scope :: (List.replicate s.done.length .link ++ s.nodes)
    let s := { s with levels, done := before, nodes }
    match role with
    | .scope => .to (s.finish (.scope body))
    | .branch earlier test => .to { s with place := .chain ⟨test, body⟩ earlier }
    | .otherwise newest older =>
      let s := { s with nodes := List.replicate (older.length + 1) Node.chain ++ nodes }
      .to (s.finish (.ofBranches newest older (.otherwise body)))

/-- End the expression read for `use`, at the token that closes it. -/
def closeExpr (s : State) (kind : Kind) (use : Use) (e : Expr) : Move :=
  match use, kind with
  | .exit, .rightParen => .to { s with place := .exitEnd e }
  | .declare name, .semicolon => .to (s.finish (.declare name e))
  | .assign name, .semicolon => .to (s.finish (.assign name e))
  | .test earlier, .rightParen => .to { s with place := .body (.branch earlier e) }
  | _, _ => .refused

/-- Offer a token to a settled state; `ahead` holds the tokens after it. -/
def move (limit : Nat) (s : State) (t : Token) (ahead : List Token) : Move :=
  match s.place, t.kind with
  | .statement, .exitWord =>
    if (ahead.take 1).map (·.kind) = [.leftParen] then .to { s with place := .exitParen }
    else .refused
  | .statement, .letWord =>
    if (ahead.take 2).map (·.kind) = [.identifier, .equals] then .to { s with place := .letName }
    else .refused
  | .statement, .identifier =>
    if (ahead.take 1).map (·.kind) = [.equals] then
      .to { s with place := .assignEquals t.toLexeme }
    else .refused
  | .statement, .leftBrace => s.openBlock limit .scope
  | .statement, .ifWord => .to { s with place := .testParen [] }
  | .statement, .rightBrace => s.closeBlock
  | .exitParen, .leftParen => .to { s with place := .term .exit [] [] }
  | .letName, .identifier => .to { s with place := .letEquals t.toLexeme }
  | .letEquals name, .equals => .to { s with place := .term (.declare name) [] [] }
  | .assignEquals name, .equals => .to { s with place := .term (.assign name) [] [] }
  | .term use groups waiting, .integer =>
    .to (s.operand use groups waiting (.int t.toLexeme))
  | .term use groups waiting, .identifier =>
    .to (s.operand use groups waiting (.ident t.toLexeme))
  | .term use groups waiting, .leftParen =>
    if s.depth < limit then .to { s with place := .term use (waiting :: groups) [] } else .tooDeep
  | .operator use groups waiting e, kind =>
    match Op.ofKind? kind, groups with
    | some op, _ => .to { s with place := .term use groups ((e, op) :: waiting) }
    | none, [] => s.closeExpr kind use e
    | none, outer :: groups =>
      if kind = .rightParen then
        .to (s.operand use groups outer (.paren e))
      else .refused
  | .exitEnd e, .semicolon => .to (s.finish (.exit e))
  | .testParen earlier, .leftParen => .to { s with place := .term (.test earlier) [] [] }
  | .body role, .leftBrace => s.openBlock limit role
  | .chain newest older, .elifWord => .to { s with place := .testParen (newest :: older) }
  | .chain newest older, .elseWord => .to { s with place := .body (.otherwise newest older) }
  | _, _ => .refused

end State

/-- What reading came to, and the nodes it built on the way, newest first. -/
structure Outcome where
  result : Except SyntaxError Block
  nodes : List Node

/-- Read the tokens from a state on; `line` is that of the last token consumed. -/
def readFrom (limit : Nat) (s : State) (line : Nat) : List Token → Outcome
  | [] =>
    let s := s.settle none
    match s.place, s.levels with
    | .statement, [] => ⟨.ok s.done.reverse, s.nodes⟩
    | _, _ => ⟨.error (.expected s.wanted (Token.describe none) line), s.nodes⟩
  | t :: rest =>
    let s := s.settle (some t.kind)
    match s.move limit t rest with
    | .to s => readFrom limit s t.line rest
    | .refused => ⟨.error (.expected s.wanted (Token.describe (some t)) line), s.nodes⟩
    | .tooDeep => ⟨.error (.nestingTooDeep limit t.line), s.nodes⟩

/-- The tokens consumed on the way. A token that opens one scope or parenthesised term too many is
consumed before it is counted. -/
def consumedFrom (limit : Nat) (s : State) : List Token → List Token
  | [] => []
  | t :: rest =>
    match (s.settle (some t.kind)).move limit t rest with
    | .to s => t :: consumedFrom limit s rest
    | .refused => []
    | .tooDeep => [t]

/-- The line that a fault at the first token is reported on. -/
def firstLine : List Token → Nat
  | [] => 1
  | t :: _ => t.line

/-- Read a whole program. -/
def read (tokens : List Token) : Outcome :=
  readFrom maxNesting {} (firstLine tokens) tokens

/-- The last token consumed in reading a whole program, or the first one of the list where none is:
faults are reported on its line. -/
def lastConsumed (tokens : List Token) : Option Token :=
  (consumedFrom maxNesting {} tokens).getLast?.or tokens.head?

end Reader

end Kei

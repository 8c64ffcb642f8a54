import Kei.Assembly.Emit
import Kei.Meaning.Scoping

/-!
# Listings of trees

The code of a tree as a list, by recursion on the tree, for given open scopes. A variable is found
by its place among the visible names, so nothing is counted but the values held above the variables
while an expression is evaluated. Labels are numbered from the one given.
-/

namespace Kei

/-- Bytes from the newest value of the stack to a variable below `held` other values. -/
def Scopes.offset (s : Scopes) (held : Nat) (name : Lexeme) : Nat :=
  (held + s.flatten.idxOf name.spelling) * Emit.slotSize

/-- The code of an expression, evaluated while `held` values lie above the variables. -/
def Expr.listing (s : Scopes) (held : Nat) : Expr → List Instr
  | .int l => [.load .rax l.spelling, .push .rax]
  | .ident l => [.pushSlot (s.offset held l)]
  | .paren e => e.listing s held
  | .binary op l r =>
    r.listing s held ++ (l.listing s (held + 1) ++
      .pop .rax :: .pop .rbx :: (Emit.opCode op ++ [.push .rax]))

/-- The code of a condition and the jump for when it is zero. -/
def Expr.branchListing (s : Scopes) (label : Nat) (e : Expr) : List Instr :=
  e.listing s 0 ++ [.pop .rax, .test, .jumpZero label]

/-- What is declared after a statement. -/
def Stmt.declares (s : Scopes) : Stmt → Scopes
  | .declare n _ => s.declare n
  | _ => s

def Block.declares (s : Scopes) : List Stmt → Scopes
  | [] => s
  | st :: rest => Block.declares (st.declares s) rest

/-- How many variables the statements of a block declare themselves. -/
def Block.locals : List Stmt → Nat
  | [] => 0
  | .declare _ _ :: rest => Block.locals rest + 1
  | _ :: rest => Block.locals rest

/-- The code that drops the variables of a scope. -/
def releaseListing (count : Nat) : List Instr :=
  if count = 0 then [] else [.release (count * Emit.slotSize)]

mutual

/-- How many labels the code of a statement uses. -/
def Stmt.labels : Stmt → Nat
  | .scope b => Block.labels b
  | .cond _ b c => 1 + Block.labels b + (if c.isStop then 0 else 1 + c.labels)
  | _ => 0

def Block.labels : List Stmt → Nat
  | [] => 0
  | s :: rest => s.labels + Block.labels rest

def Chain.labels : Chain → Nat
  | .stop => 0
  | .elif _ b next => 1 + Block.labels b + next.labels
  | .otherwise b => Block.labels b

end

mutual

/-- The code of a statement. -/
def Stmt.listing (s : Scopes) (label : Nat) : Stmt → List Instr
  | .exit e =>
    .note "exit" :: (e.listing s 0 ++
      [.load .rax Emit.exitCall, .pop .rdi, .syscall, .note "/exit"])
  | .declare _ e => .note "let" :: (e.listing s 0 ++ [.note "/let"])
  | .assign n e =>
    .note "assign" :: (e.listing s 0 ++ [.pop .rax, .store (s.offset 0 n), .note "/assign"])
  | .scope b =>
    .note "scope" ::
      (Block.listing ([] :: s) label b ++ (releaseListing (Block.locals b) ++ [.note "/scope"]))
  | .cond e b c =>
    let last := label + 1 + Block.labels b
    .note "if" :: (e.branchListing s label ++
      (Block.listing ([] :: s) (label + 1) b ++ (releaseListing (Block.locals b) ++
        ((if c.isStop then [.label label]
          else .jump last :: .label label :: (c.listing s last (last + 1) ++ [.label last])) ++
        [.note "/if"]))))

def Block.listing (s : Scopes) (label : Nat) : List Stmt → List Instr
  | [] => []
  | st :: rest => st.listing s label ++ Block.listing (st.declares s) (label + st.labels) rest

/-- The code of a chain, each of whose branches ends at the label `last`. -/
def Chain.listing (s : Scopes) (last label : Nat) : Chain → List Instr
  | .stop => []
  | .elif e b next =>
    .note "elif" :: (e.branchListing s label ++
      (Block.listing ([] :: s) (label + 1) b ++ (releaseListing (Block.locals b) ++
        .jump last :: .label label :: next.listing s last (label + 1 + Block.labels b))))
  | .otherwise b =>
    .note "else" :: (Block.listing ([] :: s) label b ++ releaseListing (Block.locals b))

end

/-- The code of a whole program. -/
def Block.program (p : Block) : List Instr :=
  .global :: .start :: (Block.listing [[]] 0 p ++
    if Emit.endsInExit p then []
    else [.load .rax Emit.exitCall, .load .rdi "0", .syscall])

end Kei

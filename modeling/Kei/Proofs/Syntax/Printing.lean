import Kei.Syntax.Sexpr

/-!
# Writing is the notation

What is written at the end of a text is that text and then the notation of the tree
(`Stmt.printTo_eq`). For expressions, the list of what is still to be written is cut into turns, and
writing an expression takes as many turns as its weight, with the rest of the list left as it was
(`Unwritten.turns_expr`). For chains, every link leaves its closing parenthesis to the end of the
chain, and they are all written there (`Chain.printTail_eq`).
-/

namespace Kei

/-! ## Expressions -/

/-- The printer writes an operator as its sign. -/
theorem Op.push_symbol (out : String) (op : Op) : out.push op.symbol = out ++ op.sign := by
  have hsign : op.symbol.toString = op.sign := by cases op <;> rfl
  rw [← hsign]
  rfl

namespace Unwritten

/-- Take up an item: what it adds to the text at once, and what is still to be written for it. -/
def turn : Unwritten → String × List Unwritten
  | .text s => (s, [])
  | .expr (.int l) => (l.spelling, [])
  | .expr (.ident l) => (l.spelling, [])
  | .expr (.paren e) => ("(paren ", [.expr e, .text ")"])
  | .expr (.binary op l r) =>
    ("(" ++ op.sign ++ " ", [.expr l, .text " ", .expr r, .text ")"])

/-- Take `n` turns, or fewer if nothing is left to write. -/
def turns : Nat → String → List Unwritten → String × List Unwritten
  | 0, out, todo => (out, todo)
  | _ + 1, out, [] => (out, [])
  | n + 1, out, u :: rest => turns n (out ++ u.turn.1) (u.turn.2 ++ rest)

theorem turns_nil (n : Nat) (out : String) : turns n out [] = (out, []) := by
  cases n <;> rfl

theorem turns_cons (n : Nat) (out : String) (u : Unwritten) (rest : List Unwritten) :
    turns (n + 1) out (u :: rest) = turns n (out ++ u.turn.1) (u.turn.2 ++ rest) := rfl

theorem turns_add (m n : Nat) (out : String) (todo : List Unwritten) :
    turns (m + n) out todo = turns n (turns m out todo).1 (turns m out todo).2 := by
  induction m generalizing out todo with
  | zero => rw [Nat.zero_add, turns]
  | succ m ih =>
    cases todo with
    | nil => rw [turns_nil, turns_nil, turns_nil]
    | cons u rest => rw [Nat.succ_add, turns_cons, turns_cons, ih]

/-- More turns go on with the text and the list that the first ones came to. -/
theorem turns_add_of_eq {m : Nat} {out out' : String} {todo todo' : List Unwritten}
    (h : turns m out todo = (out', todo')) (n : Nat) :
    turns (m + n) out todo = turns n out' todo' := by
  rw [turns_add, h]

theorem printAll_cons (out : String) (u : Unwritten) (rest : List Unwritten) :
    printAll out (u :: rest) = printAll (out ++ u.turn.1) (u.turn.2 ++ rest) := by
  cases u with
  | text s => rw [printAll]; rfl
  | expr e =>
    cases e with
    | int l | ident l | paren e => rw [printAll]; rfl
    | binary op l r =>
      have hop : (out ++ "(").push op.symbol ++ " " = out ++ ("(" ++ op.sign ++ " ") := by
        rw [Op.push_symbol, ← String.append_assoc, ← String.append_assoc]
      rw [printAll, hop]
      rfl

/-- After any number of turns, writing goes on with what is left. -/
theorem printAll_eq_turns (n : Nat) (out : String) (todo : List Unwritten) :
    printAll out todo = printAll (turns n out todo).1 (turns n out todo).2 := by
  induction n generalizing out todo with
  | zero => rfl
  | succ n ih =>
    cases todo with
    | nil => rw [turns_nil]
    | cons u rest => rw [printAll_cons, turns_cons, ih]

/-- An expression is written in as many turns as its weight, and these look at nothing else that is
still to be written. -/
theorem turns_expr (e : Expr) (out : String) (rest : List Unwritten) :
    turns e.weight out (.expr e :: rest) = (out ++ e.sexpr, rest) := by
  induction e generalizing out rest with
  | int l => rfl
  | ident l => rfl
  | paren e ih =>
    have hcount : Expr.weight (.paren e) = e.weight + 1 + 1 := rfl
    rw [hcount, turns_cons]
    simp only [turn, List.cons_append, List.nil_append]
    rw [turns_add_of_eq (ih _ _), turns_cons, turns, Expr.sexpr]
    simp only [turn, List.nil_append, String.append_assoc]
  | binary op l r ihl ihr =>
    have hcount : Expr.weight (.binary op l r) = l.weight + (1 + (r.weight + 1)) + 1 := by
      rw [Expr.weight]
      omega
    rw [hcount, turns_cons]
    simp only [turn, List.cons_append, List.nil_append]
    rw [turns_add_of_eq (ihl _ _), Nat.add_comm 1, turns_cons]
    simp only [turn, List.nil_append]
    rw [turns_add_of_eq (ihr _ _), turns_cons, turns, Expr.sexpr]
    simp only [turn, List.nil_append, String.append_assoc]

theorem printAll_expr (e : Expr) (out : String) (rest : List Unwritten) :
    printAll out (.expr e :: rest) = printAll (out ++ e.sexpr) rest := by
  rw [printAll_eq_turns e.weight, turns_expr]

end Unwritten

theorem Expr.printTo_eq (out : String) (e : Expr) : e.printTo out = out ++ e.sexpr := by
  rw [printTo, Unwritten.printAll_expr, Unwritten.printAll]

/-! ## Statements -/

theorem push_closer (s : String) : s.push ')' = s ++ ")" := rfl

theorem push_blank (s : String) : s.push ' ' = s ++ " " := rfl

theorem blank_append_scope (rest : String) : " " ++ ("(scope" ++ rest) = " (scope" ++ rest := by
  rw [← String.append_assoc]
  rfl

mutual

theorem Stmt.printTo_eq (out : String) : ∀ s : Stmt, s.printTo out = out ++ s.sexpr
  | .exit e => by
    simp only [Stmt.printTo, Stmt.sexpr, Expr.printTo_eq, push_closer, String.append_assoc]
  | .declare n e => by
    simp only [Stmt.printTo, Stmt.sexpr, Expr.printTo_eq, push_closer, String.append_assoc]
  | .assign n e => by
    simp only [Stmt.printTo, Stmt.sexpr, Expr.printTo_eq, push_closer, String.append_assoc]
  | .scope b => by
    simp only [Stmt.printTo, Stmt.sexpr, Block.printTail_eq _ b, push_closer, String.append_assoc]
  | .cond e b c => by
    simp only [Stmt.printTo, Stmt.sexpr, Expr.printTo_eq, Block.printTail_eq _ b,
      Chain.printTail_eq _ 0 c, closeParens, push_closer, push_blank, blank_append_scope,
      String.append_assoc]

theorem Block.printTail_eq (out : String) :
    ∀ b : List Stmt, Block.printTail out b = out ++ Block.sexprTail b
  | [] => by
    rw [Block.printTail, Block.sexprTail, String.append_empty]
  | s :: rest => by
    rw [Block.printTail, Block.sexprTail, Block.printTail_eq _ rest, Stmt.printTo_eq _ s,
      push_blank]
    simp only [String.append_assoc]

/-- A chain is written, and then the parentheses of the links before it are closed. -/
theorem Chain.printTail_eq (out : String) (opened : Nat) :
    ∀ c : Chain, c.printTail out opened = closeParens (out ++ c.sexprTail) opened
  | .stop => by
    rw [Chain.printTail, Chain.sexprTail, String.append_empty]
  | .elif e b next => by
    -- the link's own parenthesis is the first of those that the rest of the chain closes
    simp only [Chain.printTail, Chain.sexprTail, Expr.printTo_eq, Block.printTail_eq _ b,
      Chain.printTail_eq _ _ next, closeParens, push_closer, push_blank, blank_append_scope,
      String.append_assoc]
  | .otherwise b => by
    have hclosers : ")" ++ ")" = "))" := rfl
    simp only [Chain.printTail, Chain.sexprTail, Block.printTail_eq _ b, closeParens, push_closer,
      String.append_assoc, hclosers]

end

/-- A program is written statement by statement, each on a line. -/
theorem Block.print_eq (program : Block) : program.print = program.sexpr := by
  have hwrite : ∀ (p : Block) (out : String),
      p.foldl (fun out s => (s.printTo out).push '\n') out =
        out ++ String.join (p.map fun s => s.sexpr ++ "\n") := by
    intro p
    induction p with
    | nil => simp
    | cons s rest ih =>
      intro out
      have hline : (s.printTo out).push '\n' = out ++ (s.sexpr ++ "\n") := by
        rw [Stmt.printTo_eq, ← String.append_assoc]
        rfl
      rw [List.foldl_cons, ih, hline, List.map_cons, String.join_cons, String.append_assoc]
  rw [print, sexpr, hwrite, String.empty_append]

/-! ## Closing parentheses -/

theorem closeParens_eq (out : String) (n : Nat) :
    closeParens out n = out ++ String.ofList (List.replicate n ')') := by
  induction n generalizing out with
  | zero => simp [closeParens]
  | succ n ih =>
    have hcloser : String.ofList [')'] ++ String.ofList (List.replicate n ')') =
        String.ofList (List.replicate (n + 1) ')') := String.ofList_append.symm
    rw [closeParens, ih, push_closer, String.append_assoc, ← hcloser]

/-- Writing a tree comes to its notation, for expressions and for programs. The loop over what is
still to be written completes an expression, with all its parentheses, before it looks at the rest
of the list. The loop over a chain closes the parentheses of the chain where the notation does, and
behind them those that were open before. -/
theorem print_notation :
    (∀ e : Expr, e.print = e.sexpr) ∧
    (∀ program : Block, program.print = program.sexpr) ∧
    (∀ n out todo, Unwritten.printAll out todo =
      Unwritten.printAll (Unwritten.turns n out todo).1 (Unwritten.turns n out todo).2) ∧
    (∀ (e : Expr) (out : String) (rest : List Unwritten),
      Unwritten.turns e.weight out (.expr e :: rest) = (out ++ e.sexpr, rest)) ∧
    ∀ (c : Chain) (out : String) (opened : Nat),
      c.printTail out opened =
        out ++ c.sexprTail ++ String.ofList (List.replicate opened ')') := by
  refine ⟨?_, Block.print_eq, Unwritten.printAll_eq_turns, Unwritten.turns_expr, ?_⟩
  · intro e
    rw [Expr.print, Expr.printTo_eq, String.empty_append]
  · intro c out opened
    rw [Chain.printTail_eq, closeParens_eq]

end Kei

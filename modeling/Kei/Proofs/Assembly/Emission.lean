import Kei.Assembly.Listing
import Kei.Compile
import Kei.Proofs.Assembly.Turns
import Kei.Proofs.Meaning.Scoping
import Mathlib.Data.List.Basic

/-!
# What emitting adds

An emitter that stands between two statements is determined by its code, the open scopes and the
labels in use. From there a statement either fails as the scope checker does or adds its listing.
-/

namespace Kei

namespace Emit

/-! ## Outcomes -/

/-- What an emission comes to. The code emitted before an error is forgotten. -/
def outcome (x : Emit α) (g : Emitter) : Except ScopeError (α × Emitter) :=
  match x.run g with
  | .ok a g => .ok (a, g)
  | .error e _ => .error e

@[simp] theorem outcome_pure (a : α) (g : Emitter) : (pure a : Emit α).outcome g = .ok (a, g) := rfl

@[simp] theorem outcome_bind (x : Emit α) (f : α → Emit β) (g : Emitter) :
    (x >>= f).outcome g = x.outcome g >>= fun r => (f r.1).outcome r.2 := by
  simp only [outcome, EStateM.run_bind]
  cases x.run g <;> rfl

@[simp] theorem outcome_get (g : Emitter) : (get : Emit Emitter).outcome g = .ok (g, g) := rfl

@[simp] theorem outcome_modify (f : Emitter → Emitter) (g : Emitter) :
    (modify f : Emit Unit).outcome g = .ok ((), f g) := rfl

theorem outcome_instr (i : Instr) (g : Emitter) :
    (instr i).outcome g = .ok ((), g.put [i] g.depth) := rfl

theorem outcome_pushing (i : Instr) (g : Emitter) :
    (pushing i).outcome g = .ok ((), g.put [i] (g.depth + 1)) := rfl

theorem outcome_pop (dst : Reg) (g : Emitter) :
    (pop dst).outcome g = .ok ((), g.put [.pop dst] (g.depth - 1)) := rfl

@[simp] theorem outcome_offset (v : Var) (g : Emitter) :
    (offset v).outcome g = .ok ((g.depth - v.slot - 1) * 8, g) := rfl

theorem outcome_find (name : Lexeme) (g : Emitter) :
    (find name).outcome g =
      match g.vars.find? (·.name = name.spelling) with
      | some v => .ok (v, g)
      | none => .error (.undeclared name.spelling name.line) := by
  simp only [find, outcome_bind, outcome_get, ok_bind]
  cases g.vars.find? (·.name = name.spelling) <;> rfl

theorem outcome_forM_instr (l : List Instr) (g : Emitter) :
    (forM l instr).outcome g = .ok ((), g.put l g.depth) := by
  induction l generalizing g with
  | nil => simp [Emitter.put]
  | cons i l ih => simp [outcome_instr, ih]

/-! ## Expressions -/

/-- Evaluating an expression adds its code, or stops at the first name that is not visible, before
the tasks after it are looked at. -/
theorem outcome_tasks_eval (e : Expr) (rest : List Task) (g : Emitter) :
    (tasks (.eval e :: rest)).outcome g =
      e.code g.vars g.depth >>= fun code => (tasks rest).outcome (g.put code (g.depth + 1)) := by
  rcases run_turns_eval e g with ⟨code, hcode, hrun⟩ | ⟨name, line, code, depth, hcode, hrun⟩
  · rw [hcode, tasks_eq_turns (exprTasks e), outcome_bind, outcome, hrun]
    rfl
  · rw [hcode, tasks_eq_turns (exprTasks e), outcome_bind, outcome, hrun]
    rfl

theorem outcome_expr (e : Expr) (g : Emitter) :
    (expr e).outcome g =
      (e.code g.vars g.depth).map fun code => ((), g.put code (g.depth + 1)) := by
  simp only [expr, outcome_tasks_eval, tasks]
  cases e.code g.vars g.depth <;> rfl

end Emit

/-! ## Emitters between statements -/

/-- Variables live in consecutive slots, the oldest in the first. -/
def varsOf : List String → List Var
  | [] => []
  | name :: names => ⟨name, names.length⟩ :: varsOf names

/-- The marks of open scopes; the outermost scope has none. -/
def marksOf : Scopes → List Nat
  | [] | [_] => []
  | _ :: outer => outer.flatten.length :: marksOf outer

/-- The emitter that has emitted `code`, with `held` values above the variables of the open scopes.
-/
def Emitter.ofScopes (code : List Instr) (s : Scopes) (held labels : Nat) : Emitter where
  code := code.toArray
  depth := s.flatten.length + held
  vars := varsOf s.flatten
  marks := marksOf s
  labels := labels

@[simp] theorem Emitter.ofScopes_depth (code : List Instr) (s : Scopes) (held n : Nat) :
    (ofScopes code s held n).depth = s.flatten.length + held := rfl

@[simp] theorem Emitter.ofScopes_code (code : List Instr) (s : Scopes) (held n : Nat) :
    (ofScopes code s held n).code = code.toArray := rfl

theorem marksOf_cons {s : Scopes} (hs : s ≠ []) (inner : List String) :
    marksOf (inner :: s) = s.flatten.length :: marksOf s := by
  obtain ⟨_, _, rfl⟩ := List.exists_cons_of_ne_nil hs
  rfl

theorem length_varsOf (names : List String) : (varsOf names).length = names.length := by
  induction names with
  | nil => rfl
  | cons name names ih => simp [varsOf, ih]

theorem drop_varsOf (inner outer : List String) :
    (varsOf (inner ++ outer)).drop inner.length = varsOf outer := by
  induction inner with
  | nil => rfl
  | cons name inner ih => simpa [varsOf] using ih

/-- The variable found is the newest one of its name. -/
theorem find?_varsOf (name : String) (names : List String) :
    (varsOf names).find? (·.name = name) =
      if name ∈ names then some ⟨name, names.length - 1 - names.idxOf name⟩ else none := by
  induction names with
  | nil => rfl
  | cons n names ih =>
    by_cases h : n = name
    · simp [varsOf, h]
    · have hne : name ≠ n := fun h' => h h'.symm
      simp [varsOf, h, hne, ih, List.idxOf_cons_ne _ h, Nat.sub_sub, Nat.add_comm]

theorem isAmong_varsOf (name : String) (inner outer : List String) :
    Emit.isAmong name inner.length (varsOf (inner ++ outer)) = inner.contains name := by
  induction inner with
  | nil => cases h : varsOf outer <;> simp [h, Emit.isAmong]
  | cons n inner ih => simp [varsOf, Emit.isAmong, ih, eq_comm]

/-- The distance that the emitter counts is the place among the visible names. -/
theorem Scopes.offset_eq {s : Scopes} {name : Lexeme} (h : name.spelling ∈ s.flatten) (held : Nat) :
    (s.flatten.length + held - (s.flatten.length - 1 - s.flatten.idxOf name.spelling) - 1) *
      8 = s.offset held name := by
  have hlt := List.idxOf_lt_length_of_mem h
  rw [Scopes.offset, Emit.slotSize]
  congr 1
  omega

/-- For an emitter between statements, code fails where the scope checker does. -/
theorem Expr.code_varsOf (e : Expr) (s : Scopes) (held : Nat) :
    e.code (varsOf s.flatten) (s.flatten.length + held) =
      (e.check s).map fun _ => e.listing s held := by
  induction e generalizing held with
  | int l => rfl
  | ident l =>
    simp only [Expr.code, find?_varsOf, Expr.check, Scopes.require_eq]
    by_cases h : l.spelling ∈ s.flatten
    · simp only [h, if_true, Except.map, Expr.listing, Scopes.offset_eq h]
    · simp only [h, if_false, Except.map]
  | paren e ih => exact ih held
  | binary op l r ihl ihr =>
    simp only [Expr.code, Expr.check, Expr.listing, Emit.opCode_eq, ihr, Nat.add_assoc, ihl]
    cases r.check s with
    | error err => rfl
    | ok _ =>
      simp only [Except.map, ok_bind]
      cases l.check s with
      | error err => rfl
      | ok _ => simp

namespace Emit

/-! ## Steps between statements -/

section

variable (code : List Instr) (s : Scopes) (held n : Nat)

@[simp] theorem outcome_instr_ofScopes (i : Instr) :
    (instr i).outcome (.ofScopes code s held n) =
      .ok ((), .ofScopes (code ++ [i]) s held n) := by
  simp [outcome_instr, Emitter.ofScopes, Emitter.put]

@[simp] theorem outcome_pop_ofScopes (dst : Reg) :
    (pop dst).outcome (.ofScopes code s (held + 1) n) =
      .ok ((), .ofScopes (code ++ [.pop dst]) s held n) := by
  simp [outcome_pop, Emitter.ofScopes, Emitter.put]

@[simp] theorem outcome_freshLabel_ofScopes :
    freshLabel.outcome (.ofScopes code s held n) = .ok (n, .ofScopes code s held (n + 1)) := rfl

@[simp] theorem outcome_expr_ofScopes (e : Expr) :
    (expr e).outcome (.ofScopes code s held n) =
      (e.check s).map fun _ => ((), .ofScopes (code ++ e.listing s held) s (held + 1) n) := by
  rw [outcome_expr]
  simp only [Emitter.ofScopes, e.code_varsOf s held]
  cases e.check s with
  | error err => rfl
  | ok _ => simp [Except.map, Emitter.put, Nat.add_assoc]

theorem outcome_find_ofScopes (name : Lexeme) :
    (find name).outcome (.ofScopes code s held n) =
      (s.require name).map fun _ =>
        (⟨name.spelling, s.flatten.length - 1 - s.flatten.idxOf name.spelling⟩,
          .ofScopes code s held n) := by
  simp only [outcome_find, Emitter.ofScopes, find?_varsOf, Scopes.require_eq]
  by_cases h : name.spelling ∈ s.flatten
  · simp only [h, if_true]
    rfl
  · simp only [h, if_false]
    rfl

@[simp] theorem outcome_branch (e : Expr) :
    (branch e).outcome (.ofScopes code s 0 n) =
      (e.check s).map fun _ => (n, .ofScopes (code ++ e.branchListing s n) s 0 (n + 1)) := by
  simp only [branch, outcome_bind, outcome_expr_ofScopes]
  cases e.check s with
  | error err => rfl
  | ok _ => simp [Except.map, Expr.branchListing]

@[simp] theorem outcome_beginScope (hs : s ≠ []) :
    beginScope.outcome (.ofScopes code s 0 n) = .ok ((), .ofScopes code ([] :: s) 0 n) := by
  simp [beginScope, Emitter.ofScopes, marksOf_cons hs, length_varsOf]

end

/-- The variables above the innermost mark are those of the innermost scope. -/
theorem length_varsOf_sub_mark (inner : List String) (outer : Scopes) :
    (varsOf (inner ++ outer.flatten)).length - (marksOf (inner :: outer)).headD 0 =
      inner.length := by
  have hmark : (marksOf (inner :: outer)).headD 0 = outer.flatten.length := by
    cases outer <;> rfl
  rw [hmark, length_varsOf, List.length_append, Nat.add_sub_cancel]

/-- Leaving a scope drops the variables declared in it. -/
theorem outcome_endScope (code : List Instr) (inner : List String) (s : Scopes) (n : Nat)
    (hs : s ≠ []) :
    endScope.outcome (.ofScopes code (inner :: s) 0 n) =
      .ok ((), .ofScopes (code ++ releaseListing inner.length) s 0 n) := by
  simp only [endScope, outcome_bind, outcome_get, ok_bind, Emitter.ofScopes, List.flatten_cons,
    length_varsOf_sub_mark]
  by_cases h : inner.length = 0
  · have hnil : inner = [] := List.length_eq_zero_iff.mp h
    simp [hnil, releaseListing, marksOf_cons hs]
  · simp [h, releaseListing, marksOf_cons hs, outcome_instr, Emitter.put, drop_varsOf]

theorem outcome_checkFresh (code : List Instr) (s : Scopes) (n : Nat) (name : Lexeme)
    (hs : s ≠ []) :
    (checkFresh name).outcome (.ofScopes code s 0 n) =
      (s.requireFresh name).map fun _ => ((), .ofScopes code s 0 n) := by
  obtain ⟨inner, outer, rfl⟩ := List.exists_cons_of_ne_nil hs
  simp only [checkFresh, outcome_bind, outcome_get, ok_bind, Emitter.ofScopes, List.flatten_cons,
    length_varsOf_sub_mark, isAmong_varsOf, Scopes.requireFresh, List.headD_cons]
  by_cases h : inner.contains name.spelling = true
  · simp only [h, if_true]
    rfl
  · simp only [h]
    rfl

/-- A declaration adds its name to the innermost scope, for the value that its code leaves. -/
theorem outcome_declare (code : List Instr) (s : Scopes) (n : Nat) (name : Lexeme) (e : Expr)
    (hs : s ≠ []) :
    (declare name e).outcome (.ofScopes code s 0 n) =
      (do s.requireFresh name; e.check s).map fun _ =>
        ((), .ofScopes (code ++ e.listing s 0) (s.declare name) 0 n) := by
  simp only [declare, outcome_bind, outcome_checkFresh _ _ _ _ hs, outcome_get]
  cases s.requireFresh name with
  | error err => rfl
  | ok _ =>
    simp only [Except.map, ok_bind, outcome_expr_ofScopes]
    cases e.check s with
    | error err => rfl
    | ok _ =>
      obtain ⟨inner, outer, rfl⟩ := List.exists_cons_of_ne_nil hs
      cases outer <;> simp [Emitter.ofScopes, Scopes.declare, varsOf, marksOf]

theorem outcome_assign (code : List Instr) (s : Scopes) (n : Nat) (name : Lexeme) (e : Expr) :
    (assign name e).outcome (.ofScopes code s 0 n) =
      (do s.require name; e.check s).map fun _ =>
        ((), .ofScopes
          (code ++ (e.listing s 0 ++ [Instr.pop .rax, .store (s.offset 0 name)])) s 0 n) := by
  simp only [assign, outcome_bind, outcome_find_ofScopes, Scopes.require_eq]
  by_cases h : name.spelling ∈ s.flatten
  · simp only [h, if_true, Except.map, ok_bind, outcome_expr_ofScopes]
    cases e.check s with
    | error err => rfl
    | ok _ =>
      rw [← Scopes.offset_eq h]
      simp [Except.map, Scopes.require_eq, h, outcome_find_ofScopes]
  · simp only [h, if_false]
    rfl

theorem outcome_exit (code : List Instr) (s : Scopes) (n : Nat) (e : Expr) :
    (exit e).outcome (.ofScopes code s 0 n) =
      (e.check s).map fun _ =>
        ((), .ofScopes
          (code ++ (e.listing s 0 ++ [Instr.load .rax exitCall, .pop .rdi, .syscall])) s 0 n) := by
  simp only [exit, outcome_bind, outcome_expr_ofScopes]
  cases e.check s with
  | error err => rfl
  | ok _ => simp [Except.map]

/-! ## Statements -/

/-- A block in a scope of its own leaves the scopes as they were. -/
theorem outcome_body {s : Scopes} (hs : s ≠ []) {b : Block} {code : List Instr} {n : Nat}
    (h : (stmts b).outcome (.ofScopes code ([] :: s) 0 n) =
      (Block.check ([] :: s) b).map fun s' =>
        ((), .ofScopes (code ++ Block.listing ([] :: s) n b) s' 0 (n + Block.labels b)))
    (k : Emit α) :
    (do beginScope; stmts b; endScope; k).outcome (.ofScopes code s 0 n) =
      Block.check ([] :: s) b >>= fun _ =>
        k.outcome (.ofScopes
          (code ++ (Block.listing ([] :: s) n b ++ releaseListing (Block.locals b)))
          s 0 (n + Block.labels b)) := by
  simp only [outcome_bind, outcome_beginScope _ _ _ hs, ok_bind, h]
  cases hb : Block.check ([] :: s) b with
  | error err => rfl
  | ok s' =>
    obtain ⟨inner, hdecl, hlen⟩ := Block.declares_cons b [] s
    rw [Block.check_eq_ok hb, hdecl]
    simp only [Except.map, ok_bind, outcome_endScope _ _ _ _ hs, hlen, List.append_assoc,
      List.length_nil, Nat.zero_add]

mutual

theorem outcome_stmt {s : Scopes} (hs : s ≠ []) (code : List Instr) (n : Nat) : ∀ st : Stmt,
    (stmt st).outcome (.ofScopes code s 0 n) =
      (st.check s).map fun s' => ((), .ofScopes (code ++ st.listing s n) s' 0 (n + st.labels))
  | .exit e => by
    simp only [stmt, outcome_bind, outcome_instr_ofScopes, ok_bind, outcome_exit, Stmt.check]
    cases e.check s with
    | error err => rfl
    | ok _ => simp [Except.map, Stmt.listing, Stmt.labels]
  | .declare name e => by
    simp only [stmt, outcome_bind, outcome_instr_ofScopes, ok_bind, outcome_declare _ _ _ _ _ hs,
      Stmt.check]
    cases s.requireFresh name with
    | error err => rfl
    | ok _ =>
      cases e.check s with
      | error err => rfl
      | ok _ => simp [Except.map, Stmt.listing, Stmt.labels]
  | .assign name e => by
    simp only [stmt, outcome_bind, outcome_instr_ofScopes, ok_bind, outcome_assign, Stmt.check]
    cases s.require name with
    | error err => rfl
    | ok _ =>
      cases e.check s with
      | error err => rfl
      | ok _ => simp [Except.map, Stmt.listing, Stmt.labels]
  | .scope b => by
    have hb := outcome_body hs (outcome_stmts (List.cons_ne_nil [] s) (code ++ [.note "scope"]) n b)
      (instr (.note "/scope"))
    rw [stmt, outcome_bind, outcome_instr_ofScopes, ok_bind, hb, Stmt.check]
    cases Block.check ([] :: s) b with
    | error err => rfl
    | ok _ => simp [Except.map, Stmt.listing, Stmt.labels]
  | .cond e b c => by
    rw [stmt, outcome_bind, outcome_instr_ofScopes, ok_bind, outcome_bind, outcome_branch,
      Stmt.check]
    cases e.check s with
    | error err => rfl
    | ok _ =>
      simp only [Except.map, ok_bind]
      rw [outcome_body hs (outcome_stmts (List.cons_ne_nil [] s) _ (n + 1) b)]
      cases Block.check ([] :: s) b with
      | error err => rfl
      | ok _ =>
        simp only [ok_bind]
        by_cases hstop : c.isStop
        · have hc : c.check s = .ok () := by
            cases c <;> simp_all [Chain.isStop, Chain.check]
          simp [hstop, hc, Stmt.listing, Stmt.labels, Nat.add_assoc]
        · rw [if_neg hstop]
          simp only [outcome_bind, outcome_freshLabel_ofScopes, outcome_instr_ofScopes,
            ok_bind, outcome_chain hs _ _ _ c]
          cases c.check s with
          | error err => rfl
          | ok _ =>
            simp [hstop, Except.map, Stmt.listing, Stmt.labels, Nat.add_assoc]

theorem outcome_stmts {s : Scopes} (hs : s ≠ []) (code : List Instr) (n : Nat) : ∀ b : List Stmt,
    (stmts b).outcome (.ofScopes code s 0 n) =
      (Block.check s b).map fun s' =>
        ((), .ofScopes (code ++ Block.listing s n b) s' 0 (n + Block.labels b))
  | [] => by simp [stmts, Block.check, Block.listing, Block.labels, Except.map]
  | st :: rest => by
    simp only [stmts, outcome_bind, outcome_stmt hs code n st, Block.check]
    cases hst : st.check s with
    | error err => rfl
    | ok s' =>
      have hs' : s' ≠ [] := Stmt.check_eq_ok hst ▸ st.declares_ne_nil hs
      simp only [Except.map, ok_bind, outcome_stmts hs' _ _ rest, Block.listing, Block.labels,
        ← Stmt.check_eq_ok hst, List.append_assoc, Nat.add_assoc]

theorem outcome_chain {s : Scopes} (hs : s ≠ []) (code : List Instr) (last n : Nat) : ∀ c : Chain,
    (chain last c).outcome (.ofScopes code s 0 n) =
      (c.check s).map fun _ => ((), .ofScopes (code ++ c.listing s last n) s 0 (n + c.labels))
  | .stop => by simp [chain, Chain.check, Chain.listing, Chain.labels, Except.map]
  | .elif e b next => by
    rw [chain, outcome_bind, outcome_instr_ofScopes, ok_bind, outcome_bind, outcome_branch,
      Chain.check]
    cases e.check s with
    | error err => rfl
    | ok _ =>
      simp only [Except.map, ok_bind]
      rw [outcome_body hs (outcome_stmts (List.cons_ne_nil [] s) _ (n + 1) b)]
      cases Block.check ([] :: s) b with
      | error err => rfl
      | ok _ =>
        simp only [outcome_bind, outcome_instr_ofScopes, ok_bind, outcome_chain hs _ _ _ next]
        cases next.check s with
        | error err => rfl
        | ok _ => simp [Except.map, Chain.listing, Chain.labels, Nat.add_assoc]
  | .otherwise b => by
    have hb := outcome_body hs (outcome_stmts (List.cons_ne_nil [] s) (code ++ [.note "else"]) n b)
      (pure ())
    simp only [bind_pure_unit, outcome_pure] at hb
    rw [chain, outcome_bind, outcome_instr_ofScopes, ok_bind, hb, Chain.check]
    cases Block.check ([] :: s) b with
    | error err => rfl
    | ok _ => simp [Except.map, Chain.listing, Chain.labels]

end

/-- Emitting a program succeeds if it is well scoped, and then the code is its listing. -/
theorem outcome_program (p : Block) :
    ((program p).outcome {}).map (fun r => r.2.code) =
      p.wellScoped.map fun _ => (Block.program p).toArray := by
  have hinit : ({} : Emitter) = .ofScopes [] [[]] 0 0 := rfl
  rw [hinit, program, outcome_bind, outcome_instr_ofScopes, ok_bind, outcome_bind,
    outcome_instr_ofScopes, ok_bind, outcome_bind, outcome_stmts (List.cons_ne_nil [] []),
    Block.wellScoped]
  cases Block.check [[]] p with
  | error err => rfl
  | ok _ => by_cases h : endsInExit p <;> simp [h, Except.map, Block.program]

end Emit

/-- The code generated for a program is its listing, if the program is well scoped. -/
theorem generate_eq (p : Block) :
    generate p = (p.wellScoped.mapError .scope).map fun _ =>
      Instr.print (Block.program p).toArray := by
  have h := Emit.outcome_program p
  simp only [Emit.outcome] at h
  simp only [generate, Block.emit]
  cases hrun : (Emit.program p).run {} with
  | error e g =>
    cases hw : p.wellScoped <;> simp_all [Except.map]
  | ok _ g =>
    cases hw : p.wellScoped <;> simp_all [Except.map]

end Kei

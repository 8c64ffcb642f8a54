import Kei.Proofs.Meaning.Change
import Kei.Syntax.Parens

/-!
# Code of parenthesised programs

The code of a program depends on its expressions by their own code and by the names they read. So a
change of expressions that keeps both (`Expr.Alike`) keeps the code of every program, and its fault
if it is not well scoped (`generate_exprs`). Leaving out parentheses is such a change, and so is
adding them.
-/

namespace Kei

/-- The expressions have the same code in all scopes, and the same fault if a name is missing. -/
structure Expr.Alike (e e' : Expr) : Prop where
  listing : ∀ s held, e.listing s held = e'.listing s held
  check : ∀ s, e.check s = e'.check s

namespace Expr

theorem Alike.refl (e : Expr) : e.Alike e :=
  ⟨fun _ _ => rfl, fun _ => rfl⟩

/-- Parentheses add no code. -/
theorem Alike.paren {e e' : Expr} (h : e.Alike e') : (paren e).Alike e' :=
  ⟨h.listing, h.check⟩

theorem Alike.binary {l l' r r' : Expr} (hl : l.Alike l') (hr : r.Alike r') (op : Op) :
    (binary op l r).Alike (binary op l' r') := by
  constructor
  · intro s held
    simp only [Expr.listing, hl.listing, hr.listing]
  · intro s
    simp only [Expr.check, hl.check, hr.check]

theorem alike_bare (e : Expr) : e.bare.Alike e := by
  induction e with
  | int l => exact .refl _
  | ident l => exact .refl _
  | paren e ih => exact ⟨ih.listing, ih.check⟩
  | binary op l r ihl ihr => exact ihl.binary ihr op

theorem alike_parenthesized (e : Expr) : e.parenthesized.Alike e := by
  induction e with
  | int l => exact (Alike.refl _).paren
  | ident l => exact (Alike.refl _).paren
  | paren e ih => exact ⟨ih.listing, ih.check⟩
  | binary op l r ihl ihr => exact (ihl.binary ihr op).paren

end Expr

theorem Scopes.rename_id (s : Scopes) : s.rename id = s := by
  simp [Scopes.rename]

theorem ScopeError.relabel_id : ScopeError.relabel id id = id := by
  funext e
  cases e <;> rfl

theorem CompileError.relabelScope_id : CompileError.relabelScope id id = id := by
  funext e
  cases e with
  | scope e => exact congrArg scope (congrFun ScopeError.relabel_id e)
  | _ => rfl

theorem Change.keeps_exprs {f : Expr → Expr} (h : ∀ e, (f e).Alike e) (N : Set String) :
    (Change.exprs f).Keeps id id N where
  spelling _ := rfl
  line _ := rfl
  injOn := Set.injOn_id N
  listing {s e} _ _ held := by
    rw [Scopes.rename_id]
    exact (h e).listing s held
  check {s e} _ _ := by
    rw [Scopes.rename_id, ScopeError.relabel_id, mapError_id]
    exact (h e).check s

/-- A change of expressions that keeps their code and their faults keeps those of programs. -/
theorem generate_exprs {f : Expr → Expr} (h : ∀ e, (f e).Alike e) (p : Block) :
    generate (Block.change (.exprs f) p) = generate p := by
  rw [generate_change (Change.keeps_exprs h _), CompileError.relabelScope_id, mapError_id]

theorem generate_bare (p : Block) : generate p.bare = generate p :=
  generate_exprs Expr.alike_bare p

theorem generate_parenthesized (p : Block) : generate p.parenthesized = generate p :=
  generate_exprs Expr.alike_parenthesized p

end Kei

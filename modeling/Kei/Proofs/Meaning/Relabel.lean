import Kei.Proofs.Meaning.Change
import Kei.Syntax.Relabel

/-!
# Code of relabelled programs

A program keeps its code when its literals are spelled as before and different names are spelled
differently (`Change.keeps_lexemes`). So its code does not depend on how its variables are named.
-/

namespace Kei

section

variable {literal name : Lexeme → Lexeme} {ρ : String → String} {φ : Nat → Nat} {N : Set String}
variable {s : Scopes}

theorem Expr.listing_relabel (hliteral : ∀ l, (literal l).spelling = l.spelling)
    (h : Renames name ρ φ N) (hs : Within N s.flatten) {e : Expr} (he : Within N e.names)
    (held : Nat) :
    (e.relabel literal name).listing (s.rename ρ) held = e.listing s held := by
  induction e generalizing held with
  | int l => simp only [Expr.relabel, Expr.listing, hliteral]
  | ident l =>
    have hl : l.spelling ∈ N := (within_cons.1 he).1
    simp only [Expr.relabel, Expr.listing, Scopes.offset_renames h hs hl]
  | paren e ih => exact ih he held
  | binary op lhs rhs ihl ihr =>
    obtain ⟨hlhs, hrhs⟩ := within_append.1 he
    simp only [Expr.relabel, Expr.listing, ihl hlhs, ihr hrhs]

theorem Expr.check_relabel (h : Renames name ρ φ N) (hs : Within N s.flatten) {e : Expr}
    (he : Within N e.names) :
    (e.relabel literal name).check (s.rename ρ) =
      (e.check s).mapError (ScopeError.relabel ρ φ) := by
  induction e with
  | int l => rfl
  | ident l => exact Scopes.require_renames h hs (within_cons.1 he).1
  | paren e ih => exact ih he
  | binary op lhs rhs ihl ihr =>
    obtain ⟨hlhs, hrhs⟩ := within_append.1 he
    simp only [Expr.relabel, Expr.check, ihl hlhs, ihr hrhs, mapError_bind]

theorem Change.keeps_lexemes (hliteral : ∀ l, (literal l).spelling = l.spelling)
    (h : Renames name ρ φ N) : (Change.lexemes literal name).Keeps ρ φ N :=
  { h with
    listing := fun hs he held => Expr.listing_relabel hliteral h hs he held
    check := fun hs he => Expr.check_relabel h hs he }

end

/-- Other names do not change the code of a program, as long as they tell apart the names in it: it
is emitted for the renamed program exactly when it is for the program, and otherwise the fault is
the same one on the same line, with the name renamed. -/
theorem generate_rename {p : Block} {ρ : String → String}
    (h : ∀ x ∈ Block.names p, ∀ y ∈ Block.names p, ρ x = ρ y → x = y) :
    generate (Block.rename ρ p) = (generate p).mapError (CompileError.relabelScope ρ id) := by
  have hrenames : Renames (Lexeme.rename ρ) ρ id {x | x ∈ Block.names p} :=
    { spelling := fun _ => rfl
      line := fun _ => rfl
      injOn := fun x hx y hy => h x hx y hy }
  exact generate_change (Change.keeps_lexemes (fun _ => rfl) hrenames)

/-- `let x = 1; { let y = x; let x = y; exit(x - y); }` -/
def crossing : Block :=
  let x : Lexeme := ⟨1, some "x"⟩
  let y : Lexeme := ⟨1, some "y"⟩
  [.declare x (.int ⟨1, some "1"⟩),
    .scope [.declare y (.ident x), .declare x (.ident y),
      .exit (.binary .sub (.ident x) (.ident y))]]

/-- Exchanging the two names is injective on them, though not on all names. -/
theorem generate_rename_crossing :
    let swap (n : String) : String := if n = "x" then "y" else "x"
    (∀ x ∈ Block.names crossing, ∀ y ∈ Block.names crossing, swap x = swap y → x = y) ∧
      ∃ asm, generate crossing = .ok asm ∧ generate (Block.rename swap crossing) = .ok asm := by
  intro swap
  have hinj : ∀ x ∈ Block.names crossing, ∀ y ∈ Block.names crossing, swap x = swap y → x = y := by
    decide
  have hscoped : crossing.wellScoped = .ok () := rfl
  refine ⟨hinj, Instr.print (Block.program crossing).toArray, ?_, ?_⟩
  · rw [generate_eq, hscoped]
    rfl
  · rw [generate_rename hinj, generate_eq, hscoped]
    rfl

end Kei

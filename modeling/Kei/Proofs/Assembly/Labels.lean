import Kei.Assembly.Listing
import Mathlib.Data.List.Perm.Basic

/-!
# Labels of listings

The labels placed in the code of a statement are those numbered for it, each once. Their order is
another: the label behind a block is numbered before the labels in it.
-/

namespace Kei

def Instr.placed? : Instr → Option Nat
  | label n => some n
  | _ => none

/-- The labels that code places, in order. -/
def placed (code : List Instr) : List Nat :=
  code.filterMap Instr.placed?

@[simp] theorem placed_nil : placed [] = [] := rfl

@[simp] theorem placed_append (a b : List Instr) : placed (a ++ b) = placed a ++ placed b :=
  List.filterMap_append

@[simp] theorem placed_cons (i : Instr) (code : List Instr) :
    placed (i :: code) = i.placed?.toList ++ placed code := by
  rw [placed, List.filterMap_cons]
  cases i.placed? <;> rfl

@[simp] theorem placed_exprListing (s : Scopes) (held : Nat) (e : Expr) :
    placed (e.listing s held) = [] := by
  induction e generalizing held with
  | int l => rfl
  | ident l => rfl
  | paren e ih => exact ih held
  | binary op l r ihl ihr =>
    simp only [Expr.listing, placed_append, ihl, ihr]
    cases op <;> rfl

@[simp] theorem placed_branchListing (s : Scopes) (label : Nat) (e : Expr) :
    placed (e.branchListing s label) = [] := by
  rw [Expr.branchListing, placed_append, placed_exprListing]
  rfl

@[simp] theorem placed_releaseListing (count : Nat) : placed (releaseListing count) = [] := by
  unfold releaseListing
  split <;> rfl

/-- A label numbered before those of a block may be placed behind it. -/
theorem perm_range'_succ {l : List Nat} {n k : Nat} (h : l.Perm (List.range' (n + 1) k)) :
    (l ++ [n]).Perm (List.range' n (1 + k)) := by
  rw [Nat.add_comm 1 k, List.range'_succ]
  exact (List.perm_append_singleton n l).trans (h.cons n)

theorem perm_range'_append {l l' : List Nat} {n k k' : Nat} (h : l.Perm (List.range' n k))
    (h' : l'.Perm (List.range' (n + k) k')) : (l ++ l').Perm (List.range' n (k + k')) := by
  rw [← List.range'_append_1]
  exact h.append h'

mutual

theorem placed_stmtListing (s : Scopes) (n : Nat) : ∀ st : Stmt,
    (placed (st.listing s n)).Perm (List.range' n st.labels)
  | .exit e => by simp [Stmt.listing, Stmt.labels, Instr.placed?]
  | .declare _ e => by simp [Stmt.listing, Stmt.labels, Instr.placed?]
  | .assign _ e => by simp [Stmt.listing, Stmt.labels, Instr.placed?]
  | .scope b => by
    have hb := placed_blockListing ([] :: s) n b
    simpa [Stmt.listing, Stmt.labels, Instr.placed?] using hb
  | .cond e b c => by
    have hb := perm_range'_succ (placed_blockListing ([] :: s) (n + 1) b)
    by_cases hstop : c.isStop
    · simpa [Stmt.listing, Stmt.labels, Instr.placed?, hstop] using hb
    · have hc := perm_range'_succ
        (placed_chainListing s (n + (1 + Block.labels b)) (n + (1 + Block.labels b) + 1) c)
      have h := perm_range'_append hb hc
      simpa [Stmt.listing, Stmt.labels, Instr.placed?, hstop, Nat.add_assoc] using h

theorem placed_blockListing (s : Scopes) (n : Nat) : ∀ b : List Stmt,
    (placed (Block.listing s n b)).Perm (List.range' n (Block.labels b))
  | [] => .nil
  | st :: rest => by
    rw [Block.listing, placed_append, Block.labels]
    exact perm_range'_append (placed_stmtListing s n st)
      (placed_blockListing (st.declares s) (n + st.labels) rest)

theorem placed_chainListing (s : Scopes) (last n : Nat) : ∀ c : Chain,
    (placed (c.listing s last n)).Perm (List.range' n c.labels)
  | .stop => .nil
  | .elif e b next => by
    have hb := perm_range'_succ (placed_blockListing ([] :: s) (n + 1) b)
    have hn := placed_chainListing s last (n + (1 + Block.labels b)) next
    have h := perm_range'_append hb hn
    simpa [Chain.listing, Chain.labels, Instr.placed?, Nat.add_assoc] using h
  | .otherwise b => by
    have hb := placed_blockListing ([] :: s) n b
    simpa [Chain.listing, Chain.labels, Instr.placed?] using hb

end

/-- The labels of a program are numbered from zero and each is placed once. -/
theorem placed_program (p : Block) :
    (placed (Block.program p)).Perm (List.range' 0 (Block.labels p)) := by
  have h := placed_blockListing [[]] 0 p
  rw [Block.program]
  split <;> simpa [Instr.placed?] using h

end Kei

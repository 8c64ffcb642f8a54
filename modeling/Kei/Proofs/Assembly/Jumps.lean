import Kei.Proofs.Assembly.Labels

/-!
# Jumps of listings

Every jump in the code of a program goes forward: its label is placed further on. The jumps of a
chain may also go to the end of the whole conditional, whose label is placed behind the chain.
-/

namespace Kei

/-- The label that an instruction may jump to. -/
def Instr.target? : Instr → Option Nat
  | jumpZero n => some n
  | jump n => some n
  | _ => none

/-- Every jump goes to a label that is placed behind it, or is among the `later` ones. -/
def Forward (later : List Nat) : List Instr → Prop
  | [] => True
  | i :: code => (∀ n ∈ i.target?, n ∈ placed code ∨ n ∈ later) ∧ Forward later code

variable {later : List Nat} {a b code : List Instr}

@[simp] theorem forward_nil : Forward later [] := trivial

@[simp] theorem forward_cons {i : Instr} :
    Forward later (i :: code) ↔
      (∀ n ∈ i.target?, n ∈ placed code ∨ n ∈ later) ∧ Forward later code := Iff.rfl

@[simp] theorem forward_append :
    Forward later (a ++ b) ↔ Forward (placed b ++ later) a ∧ Forward later b := by
  induction a with
  | nil => simp
  | cons i a ih => simp [ih, and_assoc, or_assoc]

theorem Forward.mono {later' : List Nat} (h : Forward later code) (hsub : later ⊆ later') :
    Forward later' code := by
  induction code with
  | nil => trivial
  | cons i code ih => exact ⟨fun n hn => (h.1 n hn).imp_right (@hsub n), ih h.2⟩

theorem Forward.target {before after : List Instr} {i : Instr} {n : Nat}
    (h : Forward later (before ++ i :: after)) (hn : i.target? = some n) :
    n ∈ placed after ∨ n ∈ later :=
  (forward_append.1 h).2.1 n hn

theorem label_mem_of_placed {code : List Instr} {n : Nat} (h : n ∈ placed code) :
    .label n ∈ code := by
  obtain ⟨i, hi, hn⟩ := List.mem_filterMap.1 h
  cases i <;> simp only [Instr.placed?, Option.some.injEq, reduceCtorEq] at hn
  exact hn ▸ hi

/-- Code without jumps. -/
theorem forward_of_target? (h : ∀ i ∈ code, i.target? = none) : Forward later code := by
  induction code with
  | nil => trivial
  | cons i code ih =>
    rw [List.forall_mem_cons] at h
    exact ⟨by simp [h.1], ih h.2⟩

theorem target?_exprListing (s : Scopes) (held : Nat) (e : Expr) :
    ∀ i ∈ e.listing s held, i.target? = none := by
  induction e generalizing held with
  | int l => simp [Expr.listing, Instr.target?]
  | ident l => simp [Expr.listing, Instr.target?]
  | paren e ih => exact ih held
  | binary op l r ihl ihr =>
    have hop : ∀ i ∈ Emit.opCode op, i.target? = none := by cases op <;> decide
    simp only [Expr.listing, List.forall_mem_append, List.forall_mem_cons]
    exact ⟨ihr held, ihl (held + 1), rfl, rfl, hop, rfl, List.forall_mem_nil _⟩

@[simp] theorem forward_exprListing (s : Scopes) (held : Nat) (e : Expr) :
    Forward later (e.listing s held) :=
  forward_of_target? (target?_exprListing s held e)

@[simp] theorem forward_releaseListing (count : Nat) : Forward later (releaseListing count) := by
  unfold releaseListing
  split <;> simp [Instr.target?]

/-- A condition jumps to its label. -/
theorem forward_branchListing (s : Scopes) (e : Expr) {label : Nat} (h : label ∈ later) :
    Forward later (e.branchListing s label) := by
  simp [Expr.branchListing, Instr.target?, h]

mutual

theorem forward_stmtListing (s : Scopes) (n : Nat) : ∀ st : Stmt, Forward [] (st.listing s n)
  | .exit e => by simp [Stmt.listing, Instr.target?]
  | .declare _ e => by simp [Stmt.listing, Instr.target?]
  | .assign _ e => by simp [Stmt.listing, Instr.target?]
  | .scope b => by
    have hb := forward_blockListing ([] :: s) n b
    simp [Stmt.listing, Instr.target?, hb.mono]
  | .cond e b c => by
    have hb := forward_blockListing ([] :: s) (n + 1) b
    by_cases hstop : c.isStop
    · simp [Stmt.listing, Instr.target?, Instr.placed?, hstop, hb.mono, forward_branchListing]
    · -- the label of the end is placed right behind the chain that jumps to it
      have hc := forward_chainListing s (n + 1 + Block.labels b) (n + 1 + Block.labels b + 1) c
      simp [Stmt.listing, Instr.target?, Instr.placed?, hstop, hb.mono, forward_branchListing,
        hc.mono]

theorem forward_blockListing (s : Scopes) (n : Nat) :
    ∀ b : List Stmt, Forward [] (Block.listing s n b)
  | [] => trivial
  | st :: rest => by
    have hst := forward_stmtListing s n st
    have hrest := forward_blockListing (st.declares s) (n + st.labels) rest
    simp [Block.listing, hst.mono, hrest]

theorem forward_chainListing (s : Scopes) (last n : Nat) :
    ∀ c : Chain, Forward [last] (c.listing s last n)
  | .stop => trivial
  | .elif e b next => by
    have hb := forward_blockListing ([] :: s) (n + 1) b
    have hn := forward_chainListing s last (n + 1 + Block.labels b) next
    simp [Chain.listing, Instr.target?, Instr.placed?, hb.mono, forward_branchListing, hn]
  | .otherwise b => by
    have hb := forward_blockListing ([] :: s) n b
    simp [Chain.listing, Instr.target?, hb.mono]

end

theorem forward_program (p : Block) : Forward [] (Block.program p) := by
  have h := forward_blockListing [[]] 0 p
  rw [Block.program]
  split <;> simp [Instr.target?, h.mono]

end Kei

import Kei.Memory.Tree
import Kei.Proofs.Machine.Loading
import Kei.Proofs.Meaning.Scoping
import Kei.Syntax.Concrete

/-!
# Numbers in listings

The machine reads every number of a listing. A literal is one that the lexer let through, and the
offsets are bounded by the number of expressions of the tree: an expression holds fewer operands
than it has parts, and each variable was declared with a value.
-/

namespace Kei

/-- The integer literals among symbols are numerals of a word. -/
def Literals (symbols : List Symbol) : Prop :=
  ∀ l, (Kind.integer, some l) ∈ symbols → (Text.numeral? (1 <<< 63) l.spelling.toList).isSome

theorem literals_append {a b : List Symbol} : Literals (a ++ b) ↔ Literals a ∧ Literals b := by
  simp only [Literals, List.mem_append, or_imp, forall_and]

theorem literals_cons {x : Symbol} {a : List Symbol} : Literals (x :: a) → Literals a :=
  fun h l hl => h l (List.mem_cons_of_mem x hl)

/-- All instructions can be read. -/
def Legible (code : List Instr) : Prop :=
  ∀ i ∈ code, i.Readable

instance (code : List Instr) : Decidable (Legible code) :=
  inferInstanceAs (Decidable (∀ i ∈ code, i.Readable))

theorem legible_append {a b : List Instr} : Legible (a ++ b) ↔ Legible a ∧ Legible b :=
  List.forall_mem_append

theorem legible_cons {i : Instr} {a : List Instr} : Legible (i :: a) ↔ i.Readable ∧ Legible a :=
  List.forall_mem_cons

theorem legible_nil : Legible [] :=
  List.forall_mem_nil _

theorem offset_lt {s : Scopes} {held bound : Nat} (name : Lexeme)
    (h : s.flatten.length + held ≤ bound) (hbound : bound * 8 < 1 <<< 63) :
    s.offset held name < 1 <<< 64 := by
  have hle : s.flatten.idxOf name.spelling ≤ s.flatten.length := List.idxOf_le_length
  rw [Scopes.offset, Emit.slotSize]
  omega

theorem Expr.count_nodes_pos (e : Expr) : 0 < e.nodes.count .expr := by
  cases e <;> simp only [Expr.nodes, List.count_append, List.count_singleton_self] <;> omega

/-- A statement declares at most as many variables as it has expressions. -/
theorem Stmt.length_declares_le (st : Stmt) (s : Scopes) :
    (st.declares s).flatten.length ≤ s.flatten.length + st.nodes.count .expr := by
  cases st with
  | declare name e =>
    have hpos := e.count_nodes_pos
    have hlen : (s.declare name).flatten.length = s.flatten.length + 1 := by
      cases s <;> simp [Scopes.declare]
    rw [Stmt.declares, Stmt.nodes, List.count_append, hlen]
    omega
  | _ => exact Nat.le_add_right _ _

theorem Block.locals_le (b : Block) : Block.locals b ≤ (Block.nodes b).count .expr := by
  induction b with
  | nil => exact Nat.le_refl _
  | cons st b ih =>
    rw [Block.nodes, List.count_append]
    cases st with
    | declare name e =>
      have hpos := e.count_nodes_pos
      rw [Block.locals, Stmt.nodes, List.count_append]
      omega
    | _ => exact Nat.le_trans ih (Nat.le_add_left _ _)

section

variable {bound : Nat} (hbound : bound * 8 < 1 <<< 63)
include hbound

theorem Expr.legible (e : Expr) {s : Scopes} {held : Nat} (hlit : Literals e.symbols)
    (h : s.flatten.length + held + e.nodes.count .expr ≤ bound) : Legible (e.listing s held) := by
  induction e generalizing held with
  | int l =>
    refine legible_cons.2 ⟨hlit l (by simp [Expr.symbols]), ?_⟩
    simp [Legible, Instr.Readable]
  | ident l => exact legible_cons.2 ⟨offset_lt l (by omega) hbound, legible_nil⟩
  | paren e ih =>
    refine ih (literals_append.1 (literals_cons hlit)).1 ?_
    simp only [Expr.nodes, List.count_append] at h
    omega
  | binary op l r ihl ihr =>
    obtain ⟨hl, hr⟩ := literals_append.1 hlit
    simp only [Expr.nodes, List.count_append, List.count_singleton_self] at h
    refine legible_append.2 ⟨ihr (literals_cons hr) (by omega), legible_append.2 ⟨?_, ?_⟩⟩
    · exact ihl hl (by omega)
    · cases op <;> simp [Legible, Emit.opCode, Instr.Readable]

theorem Expr.legible_branch (e : Expr) {s : Scopes} (label : Nat) (hlit : Literals e.symbols)
    (h : s.flatten.length + e.nodes.count .expr ≤ bound) : Legible (e.branchListing s label) := by
  refine legible_append.2 ⟨e.legible hbound hlit h, ?_⟩
  simp [Legible, Instr.Readable]

theorem legible_release {count : Nat} (h : count ≤ bound) : Legible (releaseListing count) := by
  unfold releaseListing
  split
  · exact legible_nil
  · refine legible_cons.2 ⟨?_, legible_nil⟩
    show count * 8 < 1 <<< 63
    omega

/-- The code of a block in a scope of its own. -/
theorem legible_body {s : Scopes} {n : Nat} {b : Block}
    (h : s.flatten.length + (Block.nodes b).count .expr ≤ bound)
    (hb : ([] :: s : Scopes).flatten.length + (Block.nodes b).count .expr ≤ bound →
      Legible (Block.listing ([] :: s) n b)) :
    Legible (Block.listing ([] :: s) n b ++ releaseListing (Block.locals b)) := by
  have hlocals := Block.locals_le b
  exact legible_append.2 ⟨hb h, legible_release hbound (by omega)⟩

end

mutual

theorem Stmt.legible {bound : Nat} (hbound : bound * 8 < 1 <<< 63) (n : Nat) :
    ∀ (st : Stmt) (s : Scopes), Literals st.symbols →
      s.flatten.length + st.nodes.count .expr ≤ bound → Legible (st.listing s n)
  | .exit e, s, hlit, h => by
    have hlit := (literals_append.1 (literals_cons (literals_cons hlit))).1
    simp only [Stmt.nodes, List.count_append] at h
    refine legible_cons.2 ⟨by decide, legible_append.2 ⟨?_, by decide⟩⟩
    exact e.legible hbound hlit (by omega)
  | .declare name e, s, hlit, h => by
    have hlit := (literals_append.1 (literals_cons (literals_cons (literals_cons hlit)))).1
    simp only [Stmt.nodes, List.count_append] at h
    refine legible_cons.2 ⟨by decide, legible_append.2 ⟨?_, by decide⟩⟩
    exact e.legible hbound hlit (by omega)
  | .assign name e, s, hlit, h => by
    have hlit := (literals_append.1 (literals_cons (literals_cons hlit))).1
    simp only [Stmt.nodes, List.count_append] at h
    refine legible_cons.2 ⟨by decide, legible_append.2 ⟨e.legible hbound hlit (by omega), ?_⟩⟩
    refine legible_cons.2 ⟨trivial, legible_cons.2 ⟨offset_lt name ?_ hbound, by decide⟩⟩
    exact Nat.le_trans (Nat.le_add_right _ _) h
  | .scope b, s, hlit, h => by
    have hlit := (literals_append.1 (literals_cons hlit)).1
    simp only [Stmt.nodes, List.count_append] at h
    rw [Stmt.listing, ← List.append_assoc]
    refine legible_cons.2 ⟨by decide, legible_append.2 ⟨?_, by decide⟩⟩
    exact legible_body hbound (by omega) (Block.legible hbound n b ([] :: s) hlit)
  | .cond e b c, s, hlit, h => by
    have hlit := literals_append.1 (literals_cons (literals_cons hlit))
    have hlit' := literals_append.1 (literals_cons (literals_cons hlit.2))
    simp only [Stmt.nodes, List.count_append] at h
    rw [Stmt.listing, ← List.append_assoc (Block.listing _ _ _)]
    refine legible_cons.2 ⟨by decide, legible_append.2 ⟨?_, legible_append.2 ⟨?_, ?_⟩⟩⟩
    · exact e.legible_branch hbound n hlit.1 (by omega)
    · exact legible_body hbound (by omega) (Block.legible hbound (n + 1) b ([] :: s) hlit'.1)
    · refine legible_append.2 ⟨?_, by decide⟩
      split
      · exact legible_cons.2 ⟨trivial, legible_nil⟩
      · refine legible_cons.2 ⟨trivial, legible_cons.2 ⟨trivial, legible_append.2 ⟨?_, ?_⟩⟩⟩
        · exact Chain.legible hbound _ _ c s (literals_cons hlit'.2) (by omega)
        · exact legible_cons.2 ⟨trivial, legible_nil⟩

theorem Block.legible {bound : Nat} (hbound : bound * 8 < 1 <<< 63) (n : Nat) :
    ∀ (b : List Stmt) (s : Scopes), Literals (Block.symbols b) →
      s.flatten.length + (Block.nodes b).count .expr ≤ bound → Legible (Block.listing s n b)
  | [], s, hlit, h => legible_nil
  | st :: b, s, hlit, h => by
    obtain ⟨hst, hb⟩ := literals_append.1 hlit
    have hdecl := st.length_declares_le s
    simp only [Block.nodes, List.count_append] at h
    refine legible_append.2 ⟨Stmt.legible hbound n st s hst (by omega), ?_⟩
    exact Block.legible hbound (n + st.labels) b (st.declares s) hb (by omega)

theorem Chain.legible {bound : Nat} (hbound : bound * 8 < 1 <<< 63) (last n : Nat) :
    ∀ (c : Chain) (s : Scopes), Literals c.symbols →
      s.flatten.length + c.partNodes.count .expr ≤ bound → Legible (c.listing s last n)
  | .stop, s, hlit, h => legible_nil
  | .elif e b next, s, hlit, h => by
    have hlit := literals_append.1 (literals_cons (literals_cons hlit))
    have hlit' := literals_append.1 (literals_cons (literals_cons hlit.2))
    simp only [Chain.partNodes, List.count_append] at h
    rw [Chain.listing, ← List.append_assoc (Block.listing _ _ _)]
    refine legible_cons.2 ⟨by decide, legible_append.2 ⟨?_, legible_append.2 ⟨?_, ?_⟩⟩⟩
    · exact e.legible_branch hbound n hlit.1 (by omega)
    · exact legible_body hbound (by omega) (Block.legible hbound (n + 1) b ([] :: s) hlit'.1)
    · refine legible_cons.2 ⟨trivial, legible_cons.2 ⟨trivial, ?_⟩⟩
      exact Chain.legible hbound last _ next s (literals_cons hlit'.2) (by omega)
  | .otherwise b, s, hlit, h => by
    have hlit := (literals_append.1 (literals_cons (literals_cons hlit))).1
    simp only [Chain.partNodes, List.count_append] at h
    refine legible_cons.2 ⟨by decide, ?_⟩
    exact legible_body hbound (by omega) (Block.legible hbound n b ([] :: s) hlit)

end

end Kei

import Kei.Proofs.Reader.Completeness
import Kei.Syntax.Grammar

/-!
# Sentences and their trees

The sentences of the grammar are the layered trees as they are written (`derives_program_iff`). From
left to right, operands are joined by precedence as they come (`Expr.join`), which keeps what is
written. Since the reader gives back the tree that was written, a sentence has one layered tree
only.
-/

namespace Kei

/-! ## Joining operands -/

namespace Expr

/-- Add an operator and an operand that binds tighter than it on the right of an expression. -/
def attach (op : Op) (r : Expr) : Expr → Expr
  | binary op' a b =>
    if op'.level < op.level then binary op' a (attach op r b) else binary op (binary op' a b) r
  | l => binary op l r

/-- Join two expressions by an operator, regrouped by precedence. -/
def join (l : Expr) (op : Op) : Expr → Expr
  | binary op' c d => attach op' d (join l op c)
  | r => attach op r l

theorem attach_symbols (op : Op) (r l : Expr) :
    (attach op r l).symbols = l.symbols ++ .fixed op.kind :: r.symbols := by
  fun_induction attach op r l with
  | case1 op' a b h ih => simp [symbols, ih]
  | case2 => rfl
  | case3 => rfl

theorem join_symbols (l : Expr) (op : Op) (r : Expr) :
    (join l op r).symbols = l.symbols ++ .fixed op.kind :: r.symbols := by
  fun_induction join l op r with
  | case1 op' c d ih => simp [attach_symbols, symbols, ih]
  | case2 r h => exact attach_symbols op r l

theorem attach_nesting (op : Op) (r l : Expr) :
    (attach op r l).nesting = max l.nesting r.nesting := by
  fun_induction attach op r l with
  | case1 op' a b h ih => simp only [nesting, ih]; omega
  | case2 => rfl
  | case3 => rfl

theorem join_nesting (l : Expr) (op : Op) (r : Expr) :
    (join l op r).nesting = max l.nesting r.nesting := by
  fun_induction join l op r with
  | case1 op' c d ih => simp only [attach_nesting, nesting, ih]; omega
  | case2 r h => exact attach_nesting op r l

theorem level_attach (op : Op) (r l : Expr) : min op.level l.level ≤ (attach op r l).level := by
  fun_cases attach op r l with
  | case1 op' a b h => exact Nat.min_le_right _ _
  | case2 => exact Nat.min_le_left _ _
  | case3 => exact Nat.min_le_left _ _

theorem Layered.attach {op : Op} {r l : Expr} (hl : l.Layered) (hr : r.Layered)
    (h : op.level < r.level) : (attach op r l).Layered := by
  fun_induction Expr.attach op r l with
  | case1 op' a b hlt ih =>
    obtain ⟨ha, hb, hla, hlb⟩ := hl
    have := level_attach op r b
    exact ⟨ha, by omega, hla, ih hlb⟩
  | case2 op' a b hge => exact ⟨Nat.le_of_not_lt hge, h, hl, hr⟩
  | case3 l hne =>
    refine ⟨?_, h, hl, hr⟩
    have := op.level_lt_two
    cases l with
    | binary op' a b => exact absurd rfl (hne op' a b)
    | _ => simp only [level]; omega

theorem Layered.join {l r : Expr} (op : Op) (hl : l.Layered) (hr : r.Layered) :
    (join l op r).Layered := by
  fun_induction Expr.join l op r with
  | case1 op' c d ih => exact (ih hr.2.2.1).attach hr.2.2.2 hr.2.1
  | case2 r hne =>
    refine hl.attach hr ?_
    have := op.level_lt_two
    cases r with
    | binary op' a b => exact absurd rfl (hne op' a b)
    | _ => simp only [level]; omega

theorem Fits.join {limit depth : Nat} {l r : Expr} (op : Op) (hl : l.Fits limit depth)
    (hr : r.Fits limit depth) : (Expr.join l op r).Fits limit depth := by
  refine ⟨hl.1.join op hr.1, ?_⟩
  have h₁ := hl.2
  have h₂ := hr.2
  rw [join_nesting]
  omega

end Expr

/-! ## Trees of sentences -/

/-- The trees that a category stands for: `w` is written from one that fits. -/
def Category.Written (n : Nat) (w : List Symbol) : Category → Prop
  | program => ∃ b, Block.Fits n 0 b ∧ Block.symbols b = w
  | statement => ∃ s : Stmt, s.Fits n 0 ∧ s.symbols = w
  | scope =>
    ∃ b, Block.Fits n 1 b ∧ .fixed .leftBrace :: (Block.symbols b ++ [.fixed .rightBrace]) = w
  | chain => ∃ c : Chain, c.Fits n 0 ∧ c.symbols = w
  | expr => ∃ e : Expr, e.Fits n 0 ∧ e.symbols = w
  | operations => ∀ l : Expr, l.Fits n 0 → ∃ e : Expr, e.Fits n 0 ∧ e.symbols = l.symbols ++ w
  | term => ∃ e : Expr, e.Fits n 0 ∧ e.symbols = w

theorem Derives.written {c : Category} {n : Nat} {w : List Symbol} (h : Derives c n w) :
    c.Written n w := by
  induction h with
  | done => exact ⟨[], ⟨trivial, Nat.zero_le _⟩, rfl⟩
  | next _ _ ihs ihp =>
    obtain ⟨s, hs, rfl⟩ := ihs
    obtain ⟨b, hb, rfl⟩ := ihp
    refine ⟨s :: b, Block.fits_iff.2 ⟨Nat.zero_le _, ?_⟩, rfl⟩
    exact List.forall_mem_cons.2 ⟨hs, (Block.fits_iff.1 hb).2⟩
  | exit _ ih => obtain ⟨e, he, rfl⟩ := ih; exact ⟨.exit e, he, rfl⟩
  | declare name _ ih => obtain ⟨e, he, rfl⟩ := ih; exact ⟨.declare name e, he, rfl⟩
  | assign name _ ih => obtain ⟨e, he, rfl⟩ := ih; exact ⟨.assign name e, he, rfl⟩
  | block _ ih =>
    obtain ⟨b, hb, rfl⟩ := ih
    refine ⟨.scope b, ⟨hb.1, ?_⟩, rfl⟩
    have := hb.2
    simp only [Stmt.nesting]
    omega
  | cond _ _ _ ihe ihs ihc =>
    obtain ⟨e, he, rfl⟩ := ihe
    obtain ⟨b, hb, rfl⟩ := ihs
    obtain ⟨c, hc, rfl⟩ := ihc
    refine ⟨.cond e b c, ⟨⟨he.1, hb.1, hc.1⟩, ?_⟩, by simp [Stmt.symbols]⟩
    have h₁ := he.2
    have h₂ := hb.2
    have h₃ := hc.2
    simp only [Stmt.nesting]
    omega
  | scope _ ih =>
    obtain ⟨b, hb, rfl⟩ := ih
    refine ⟨b, ⟨hb.1, ?_⟩, rfl⟩
    have := hb.2
    omega
  | stop => exact ⟨.stop, ⟨trivial, Nat.zero_le _⟩, rfl⟩
  | elif _ _ _ ihe ihs ihc =>
    obtain ⟨e, he, rfl⟩ := ihe
    obtain ⟨b, hb, rfl⟩ := ihs
    obtain ⟨c, hc, rfl⟩ := ihc
    refine ⟨.elif e b c, ⟨⟨he.1, hb.1, hc.1⟩, ?_⟩, by simp [Chain.symbols]⟩
    have h₁ := he.2
    have h₂ := hb.2
    have h₃ := hc.2
    simp only [Chain.nesting]
    omega
  | otherwise _ ih =>
    obtain ⟨b, hb, rfl⟩ := ih
    refine ⟨.otherwise b, ⟨hb.1, ?_⟩, by simp [Chain.symbols]⟩
    have := hb.2
    simp only [Chain.nesting]
    omega
  | expr _ _ iht iho =>
    obtain ⟨t, ht, rfl⟩ := iht
    exact iho t ht
  | last => exact fun l hl => ⟨l, hl, by simp⟩
  | operation op _ _ ihe iho =>
    intro l hl
    obtain ⟨e, he, rfl⟩ := ihe
    obtain ⟨e', he', hsym⟩ := iho (l.join op e) (hl.join op he)
    exact ⟨e', he', by simp [hsym, Expr.join_symbols]⟩
  | int l => exact ⟨.int l, ⟨trivial, Nat.zero_le _⟩, rfl⟩
  | ident l => exact ⟨.ident l, ⟨trivial, Nat.zero_le _⟩, rfl⟩
  | paren _ ih =>
    obtain ⟨e, he, rfl⟩ := ih
    refine ⟨.paren e, ⟨he.1, ?_⟩, rfl⟩
    have := he.2
    simp only [Expr.nesting]
    omega

/-! ## Sentences of trees -/

theorem Derives.operations_append {n : Nat} {v w : List Symbol} (op : Op)
    (h : Derives .operations n v) (he : Derives .expr n w) :
    Derives .operations n (v ++ .fixed op.kind :: w) := by
  generalize hc : Category.operations = c at h
  induction h with
  | last => simpa using Derives.operation op he .last
  | operation op' he' _ _ ih => simpa using Derives.operation op' he' (ih he hc)
  | _ => cases hc

theorem Derives.binary {n : Nat} {v w : List Symbol} (op : Op) (hl : Derives .expr n v)
    (hr : Derives .expr n w) : Derives .expr n (v ++ .fixed op.kind :: w) := by
  cases hl with
  | expr ht ho => simpa using Derives.expr ht (ho.operations_append op hr)

theorem Expr.derives {e : Expr} {n : Nat} (h : e.nesting ≤ n) : Derives .expr n e.symbols := by
  induction e generalizing n with
  | int l => exact .expr (.int l) .last
  | ident l => exact .expr (.ident l) .last
  | paren e ih =>
    obtain ⟨m, rfl⟩ := Nat.exists_eq_add_of_le' (Nat.le_of_add_left_le h)
    simpa [Expr.symbols] using Derives.expr (.paren (ih (Nat.le_of_succ_le_succ h))) .last
  | binary op l r ihl ihr =>
    simp only [Expr.nesting] at h
    exact .binary op (ihl (by omega)) (ihr (by omega))

mutual

theorem Stmt.derives {s : Stmt} {n : Nat} (h : s.nesting ≤ n) :
    Derives .statement n s.symbols := by
  cases s with
  | exit e => exact .exit (Expr.derives h)
  | declare l e => exact .declare l (Expr.derives h)
  | assign l e => exact .assign l (Expr.derives h)
  | scope b => exact .block (Block.derives_scope h)
  | cond e b c =>
    simp only [Stmt.nesting] at h
    have := Derives.cond (Expr.derives (e := e) (n := n) (by omega))
      (Block.derives_scope (b := b) (by omega)) (Chain.derives (c := c) (by omega))
    simpa [Stmt.symbols] using this

theorem Block.derives {b : List Stmt} {n : Nat} (h : Block.nesting b ≤ n) :
    Derives .program n (Block.symbols b) := by
  cases b with
  | nil => exact .done
  | cons s b =>
    simp only [Block.nesting] at h
    exact .next (Stmt.derives (by omega)) (Block.derives (by omega))

theorem Block.derives_scope {b : List Stmt} {n : Nat} (h : Block.nesting b + 1 ≤ n) :
    Derives .scope n (.fixed .leftBrace :: (Block.symbols b ++ [.fixed .rightBrace])) := by
  cases n with
  | zero => exact absurd h (Nat.not_succ_le_zero _)
  | succ n => exact .scope (Block.derives (Nat.le_of_succ_le_succ h))

theorem Chain.derives {c : Chain} {n : Nat} (h : c.nesting ≤ n) :
    Derives .chain n c.symbols := by
  cases c with
  | stop => exact .stop
  | elif e b next =>
    simp only [Chain.nesting] at h
    have := Derives.elif (Expr.derives (e := e) (n := n) (by omega))
      (Block.derives_scope (b := b) (by omega)) (Chain.derives (c := next) (by omega))
    simpa [Chain.symbols] using this
  | otherwise b => exact .otherwise (Block.derives_scope h)

end

/-- The sentences are the layered trees as they are written. -/
theorem derives_program_iff {n : Nat} {w : List Symbol} :
    Derives .program n w ↔ ∃ b, Block.Layered b ∧ Block.nesting b ≤ n ∧ Block.symbols b = w := by
  constructor
  · intro h
    obtain ⟨b, hb, rfl⟩ := h.written
    exact ⟨b, hb.1, by simpa using hb.2, rfl⟩
  · rintro ⟨b, -, hn, rfl⟩
    exact Block.derives hn

/-- Every layered tree within the nesting limit is read back from what is written, given room for
its nodes. So the sentences of the grammar within that limit are accepted, each as the one layered
tree that is written so. -/
theorem parse_complete :
    (∀ {program : Block} {tokens : List Token} {arena : Arena}, Block.Layered program →
      Block.nesting program ≤ 256 → tokens.map Token.symbol = Block.symbols program →
      (arena.serve program.requests).1 = none → (parse arena tokens).1 = .ok program) ∧
    ∀ {tokens : List Token}, Derives .program 256 (tokens.map Token.symbol) ↔
      ∃ program : Block, Block.nesting program ≤ 256 ∧
        (∀ other, Block.Layered other ∧ tokens.map Token.symbol = Block.symbols other ↔
          other = program) ∧
        ∀ arena : Arena, (arena.serve program.requests).1 = none →
          (parse arena tokens).1 = .ok program := by
  have hread : ∀ {program : Block} {tokens : List Token} {arena : Arena}, Block.Layered program →
      Block.nesting program ≤ 256 → tokens.map Token.symbol = Block.symbols program →
      (arena.serve program.requests).1 = none → (parse arena tokens).1 = .ok program := by
    intro program tokens arena hl hn hts hroom
    rw [(parse_eq_ok_of_symbols hl hn hts).2 (Prod.ext hroom rfl)]
  refine ⟨hread, fun {tokens} => derives_program_iff.trans ⟨?_, ?_⟩⟩
  · rintro ⟨program, hl, hn, hts⟩
    refine ⟨program, hn, fun other => ⟨?_, ?_⟩, fun arena => hread hl hn hts.symm⟩
    · rintro ⟨hlo, hto⟩
      exact hlo.eq_of_symbols hl hto hts.symm
    · rintro rfl
      exact ⟨hl, hts.symm⟩
  · rintro ⟨program, hn, honly, -⟩
    obtain ⟨hl, hts⟩ := (honly program).2 rfl
    exact ⟨program, hl, hn, hts.symm⟩

theorem parse_complete_branching :
    (parse { limit := 2000 } ((Block.symbols branching).map Symbol.token)).1 = .ok branching := by
  refine parse_complete.1 ?_ (by decide) rfl (by decide +kernel)
  simp [branching, Block.Layered, Stmt.Layered, Chain.Layered, Expr.Layered, Expr.level, Op.level]

end Kei

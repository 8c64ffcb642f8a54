import Kei.Proofs.Assembly.Grouping
import Kei.Proofs.Capacity
import Kei.Proofs.Lines
import Kei.Proofs.Memory.Fewer
import Kei.Proofs.Memory.Requests
import Kei.Proofs.Reader.Rejection

/-!
# Parentheses only group

A program with every operation and every atom parenthesised is read as the tree that says so,
whatever the precedence of its operators. That tree has the code of the tree without these
parentheses, which precedence groups in the same way. So a text and the fully parenthesised text
compile to the same assembly. The parentheses take memory: a tree asks for some of the nodes that
the parenthesised one asks for, in the same order, so it has room wherever that has.
-/

namespace Kei

/-! ## Parenthesised trees -/

namespace Expr

theorem level_parenthesized (e : Expr) : e.parenthesized.level = 2 := by
  cases e <;> rfl

theorem layered_parenthesized (e : Expr) : e.parenthesized.Layered := by
  induction e with
  | int l => exact trivial
  | ident l => exact trivial
  | paren e ih => exact ih
  | binary op l r ihl ihr =>
    have hlevel := op.level_lt_two
    refine ⟨?_, ?_, ihl, ihr⟩ <;> rw [level_parenthesized]
    · exact Nat.le_of_lt hlevel
    · exact hlevel

theorem nesting_le_parenthesized (e : Expr) : e.nesting ≤ e.parenthesized.nesting := by
  induction e with
  | int l => exact Nat.zero_le _
  | ident l => exact Nat.zero_le _
  | paren e ih => exact Nat.succ_le_succ ih
  | binary op l r ihl ihr =>
    simp only [parenthesized, nesting]
    omega

theorem nodes_sublist_parenthesized (e : Expr) : e.nodes.Sublist e.parenthesized.nodes := by
  induction e with
  | int l => exact List.sublist_append_left _ _
  | ident l => exact List.sublist_append_left _ _
  | paren e ih => exact ih.append (List.Sublist.refl _)
  | binary op l r ihl ihr =>
    exact ((ihl.append ihr).append (List.Sublist.refl _)).trans (List.sublist_append_left _ _)

/-- Only parentheses are added to what is written. -/
theorem forall_symbols_parenthesized {P : Symbol → Prop} (hleft : P (.fixed .leftParen))
    (hright : P (.fixed .rightParen)) {e : Expr} (h : ∀ x ∈ e.symbols, P x) :
    ∀ x ∈ e.parenthesized.symbols, P x := by
  induction e with
  | int l | ident l =>
    simp only [parenthesized, symbols, List.forall_mem_cons, List.forall_mem_append] at h ⊢
    exact ⟨hleft, h, hright, List.forall_mem_nil _⟩
  | paren e ih =>
    simp only [parenthesized, symbols, List.forall_mem_cons, List.forall_mem_append] at h ⊢
    exact ⟨hleft, ih h.2.1, h.2.2⟩
  | binary op l r ihl ihr =>
    simp only [parenthesized, symbols, List.forall_mem_cons, List.forall_mem_append] at h ⊢
    exact ⟨hleft, ⟨ihl h.1, h.2.1, ihr h.2.2⟩, hright, List.forall_mem_nil _⟩

end Expr

section

variable {m : Change}

theorem Block.length_change (b : List Stmt) : (Block.change m b).length = b.length := by
  rw [Block.change_eq_map, List.length_map]

theorem Chain.length_change : ∀ c : Chain, (c.change m).length = c.length
  | .stop | .otherwise _ => rfl
  | .elif _ _ next => congrArg (· + 1) (Chain.length_change next)

mutual

theorem Stmt.layered_change (h : ∀ e, (m.expr e).Layered) : ∀ st : Stmt, (st.change m).Layered
  | .exit e | .declare _ e | .assign _ e => h e
  | .scope b => Block.layered_change h b
  | .cond e b c => ⟨h e, Block.layered_change h b, Chain.layered_change h c⟩

theorem Block.layered_change (h : ∀ e, (m.expr e).Layered) :
    ∀ b : List Stmt, Block.Layered (Block.change m b)
  | [] => trivial
  | st :: rest => ⟨Stmt.layered_change h st, Block.layered_change h rest⟩

theorem Chain.layered_change (h : ∀ e, (m.expr e).Layered) : ∀ c : Chain, (c.change m).Layered
  | .stop => trivial
  | .elif e b next => ⟨h e, Block.layered_change h b, Chain.layered_change h next⟩
  | .otherwise b => Block.layered_change h b

end

mutual

theorem Stmt.nesting_le_change (h : ∀ e, e.nesting ≤ (m.expr e).nesting) :
    ∀ st : Stmt, st.nesting ≤ (st.change m).nesting
  | .exit e | .declare _ e | .assign _ e => h e
  | .scope b => Nat.succ_le_succ (Block.nesting_le_change h b)
  | .cond e b c => by
    have he := h e
    have hb := Block.nesting_le_change h b
    have hc := Chain.nesting_le_change h c
    simp only [Stmt.change, Stmt.nesting]
    omega

theorem Block.nesting_le_change (h : ∀ e, e.nesting ≤ (m.expr e).nesting) :
    ∀ b : List Stmt, Block.nesting b ≤ Block.nesting (Block.change m b)
  | [] => Nat.le_refl _
  | st :: rest => by
    have hst := Stmt.nesting_le_change h st
    have hrest := Block.nesting_le_change h rest
    simp only [Block.change, Block.nesting]
    omega

theorem Chain.nesting_le_change (h : ∀ e, e.nesting ≤ (m.expr e).nesting) :
    ∀ c : Chain, c.nesting ≤ (c.change m).nesting
  | .stop => Nat.le_refl _
  | .elif e b next => by
    have he := h e
    have hb := Block.nesting_le_change h b
    have hnext := Chain.nesting_le_change h next
    simp only [Chain.change, Chain.nesting]
    omega
  | .otherwise b => Nat.succ_le_succ (Block.nesting_le_change h b)

end

mutual

theorem Stmt.nodes_sublist_change (h : ∀ e : Expr, e.nodes.Sublist (m.expr e).nodes) :
    ∀ st : Stmt, st.nodes.Sublist (st.change m).nodes
  | .exit e | .declare _ e | .assign _ e => (h e).append (List.Sublist.refl _)
  | .scope b => by
    simp only [Stmt.change, Stmt.nodes, Block.length_change]
    exact ((Block.nodes_sublist_change h b).append (.refl _)).append (.refl _)
  | .cond e b c => by
    simp only [Stmt.change, Stmt.nodes, Block.length_change, Chain.length_change]
    exact ((((((h e).append (Block.nodes_sublist_change h b)).append (.refl _)).append
      (.refl _)).append (Chain.nodes_sublist_change h c)).append (.refl _)).append (.refl _)

theorem Block.nodes_sublist_change (h : ∀ e : Expr, e.nodes.Sublist (m.expr e).nodes) :
    ∀ b : List Stmt, (Block.nodes b).Sublist (Block.nodes (Block.change m b))
  | [] => .refl _
  | st :: rest =>
    (Stmt.nodes_sublist_change h st).append (Block.nodes_sublist_change h rest)

theorem Chain.nodes_sublist_change (h : ∀ e : Expr, e.nodes.Sublist (m.expr e).nodes) :
    ∀ c : Chain, c.partNodes.Sublist (c.change m).partNodes
  | .stop => .refl _
  | .elif e b next => by
    simp only [Chain.change, Chain.partNodes, Block.length_change]
    exact ((((h e).append (Block.nodes_sublist_change h b)).append (.refl _)).append
      (.refl _)).append (Chain.nodes_sublist_change h next)
  | .otherwise b => by
    simp only [Chain.change, Chain.partNodes, Block.length_change]
    exact ((Block.nodes_sublist_change h b).append (.refl _)).append (.refl _)

end

mutual

theorem Stmt.forall_symbols_change {f : Expr → Expr} {P : Symbol → Prop}
    (h : ∀ e : Expr, (∀ x ∈ e.symbols, P x) → ∀ x ∈ (f e).symbols, P x) :
    ∀ st : Stmt, (∀ x ∈ st.symbols, P x) → ∀ x ∈ (st.change (.exprs f)).symbols, P x
  | .exit e, hst | .assign _ e, hst => by
    simp only [Stmt.change, Stmt.symbols, List.forall_mem_cons, List.forall_mem_append] at hst ⊢
    obtain ⟨h₁, h₂, he, hend⟩ := hst
    exact ⟨h₁, h₂, h e he, hend⟩
  | .declare _ e, hst => by
    simp only [Stmt.change, Stmt.symbols, List.forall_mem_cons, List.forall_mem_append] at hst ⊢
    obtain ⟨h₁, h₂, h₃, he, hend⟩ := hst
    exact ⟨h₁, h₂, h₃, h e he, hend⟩
  | .scope b, hst => by
    simp only [Stmt.change, Stmt.symbols, List.forall_mem_cons, List.forall_mem_append] at hst ⊢
    obtain ⟨h₁, hb, hend⟩ := hst
    exact ⟨h₁, Block.forall_symbols_change h b hb, hend⟩
  | .cond e b c, hst => by
    simp only [Stmt.change, Stmt.symbols, List.forall_mem_cons, List.forall_mem_append] at hst ⊢
    obtain ⟨h₁, h₂, he, h₃, h₄, hb, h₅, hc⟩ := hst
    exact ⟨h₁, h₂, h e he, h₃, h₄, Block.forall_symbols_change h b hb, h₅,
      Chain.forall_symbols_change h c hc⟩

theorem Block.forall_symbols_change {f : Expr → Expr} {P : Symbol → Prop}
    (h : ∀ e : Expr, (∀ x ∈ e.symbols, P x) → ∀ x ∈ (f e).symbols, P x) :
    ∀ b : List Stmt, (∀ x ∈ Block.symbols b, P x) →
      ∀ x ∈ Block.symbols (Block.change (.exprs f) b), P x
  | [], hb => hb
  | st :: rest, hb => by
    obtain ⟨hst, hrest⟩ := List.forall_mem_append.1 hb
    exact List.forall_mem_append.2 ⟨Stmt.forall_symbols_change h st hst,
      Block.forall_symbols_change h rest hrest⟩

theorem Chain.forall_symbols_change {f : Expr → Expr} {P : Symbol → Prop}
    (h : ∀ e : Expr, (∀ x ∈ e.symbols, P x) → ∀ x ∈ (f e).symbols, P x) :
    ∀ c : Chain, (∀ x ∈ c.symbols, P x) → ∀ x ∈ (c.change (.exprs f)).symbols, P x
  | .stop, hc => hc
  | .elif e b next, hc => by
    simp only [Chain.change, Chain.symbols, List.forall_mem_cons, List.forall_mem_append] at hc ⊢
    obtain ⟨h₁, h₂, he, h₃, h₄, hb, h₅, hnext⟩ := hc
    exact ⟨h₁, h₂, h e he, h₃, h₄, Block.forall_symbols_change h b hb, h₅,
      Chain.forall_symbols_change h next hnext⟩
  | .otherwise b, hc => by
    simp only [Chain.change, Chain.symbols, List.forall_mem_cons, List.forall_mem_append] at hc ⊢
    obtain ⟨h₁, h₂, hb, hend⟩ := hc
    exact ⟨h₁, h₂, Block.forall_symbols_change h b hb, hend⟩

end

end

/-- A tree asks for some of what the parenthesised one asks for. -/
theorem Block.requests_sublist_parenthesized (p : Block) :
    p.requests.Sublist p.parenthesized.requests := by
  have hnodes : (Block.nodes p).Sublist (Block.nodes p.parenthesized) :=
    Block.nodes_sublist_change Expr.nodes_sublist_parenthesized p
  rw [Block.requests, Block.requests, Block.parenthesized, Block.length_change]
  exact (hnodes.append (.refl _)).map _

/-! ## Texts of trees -/

/-- What a symbol says wherever its lexeme stands. -/
def Symbol.content (x : Symbol) : Kind × Option String :=
  (x.1, x.2.bind (·.text))

theorem Symbol.content_token (x : Symbol) : x.token.content = x.content := by
  obtain ⟨kind, _ | l⟩ := x <;> rfl

/-- The tokens of the text are those of the program as it is written, on whatever lines. -/
def Spells (text : String) (p : Block) : Prop :=
  ∃ tokens, tokenize text = .ok tokens ∧
    tokens.map Token.content = (Block.symbols p).map Symbol.content

/-- A blank ends every token. -/
theorem Token.Fits.blank {t : Token} {rest : List Char} (h : t.Fits rest) (after : List Char) :
    t.Fits (' ' :: after) := by
  obtain ⟨⟨line, text⟩, kind⟩ := t
  have hends {p : Char → Bool} (hp : p ' ' = false) : Ends p (' ' :: after) := by
    rintro _ ⟨⟩
    exact hp
  cases kind with
  | identifier =>
    obtain ⟨c, cs, htext, hc, hcs, hword, -⟩ := h
    exact ⟨c, cs, htext, hc, hcs, hword, hends rfl⟩
  | integer =>
    obtain ⟨digits, htext, hne, hdigits, hvalue, -⟩ := h
    exact ⟨digits, htext, hne, hdigits, hvalue, hends rfl⟩
  | slash | exitWord | letWord | ifWord | elifWord | elseWord => exact ⟨h.1, hends rfl⟩
  | _ => exact h

/-- A well-formed token is the token of its symbol but for its line. -/
theorem Token.Fits.token_symbol {t : Token} {rest : List Char} (h : t.Fits rest) :
    t.symbol.token.Fits rest := by
  obtain ⟨⟨line, text⟩, kind⟩ := t
  cases kind with
  | identifier | integer => exact h
  | slash | exitWord | letWord | ifWord | elifWord | elseWord => exact ⟨rfl, h.2⟩
  | _ => exact rfl

/-- Symbols laid out with a blank after each. -/
def Layout.spaced (w : List Symbol) : List (Token × Gap) :=
  w.map fun x => (x.token, [.white ' '])

theorem Layout.fitsAll_spaced {w : List Symbol} (h : ∀ x ∈ w, ∃ rest, x.token.Fits rest) :
    FitsAll [] (spaced w) := by
  induction w with
  | nil => trivial
  | cons x w ih =>
    obtain ⟨⟨rest, hx⟩, hw⟩ := List.forall_mem_cons.1 h
    exact ⟨hx.blank _, ⟨rfl, trivial⟩, ih hw⟩

/-- Every program whose names and literals are well formed can be written. -/
theorem exists_spells {p : Block} (h : ∀ x ∈ Block.symbols p, ∃ rest, x.token.Fits rest) :
    ∃ text, Spells text p := by
  have hfits := Layout.fitsAll_spaced h
  refine ⟨String.ofList (Layout.textOf (Layout.spaced (Block.symbols p))),
    Layout.tokensFrom 1 (Layout.spaced (Block.symbols p)), ?_, ?_⟩
  · rw [tokenize, Token.scan, String.toList_ofList, Layout.scanFrom_textOf hfits]
    rfl
  · rw [Layout.map_content_tokensFrom, Layout.spaced, List.map_map]
    exact List.map_congr_left fun x _ => x.content_token

/-! ## Compilations -/

section

variable {p : Block} {limit : Nat}

/-- A text that is a layered tree as it is written compiles to the code of that tree, given room for
its nodes. -/
theorem compile_of_symbols {source : String} {tokens : List Token}
    (htokens : tokenize source = .ok tokens) (hl : Block.Layered p)
    (hn : Block.nesting p ≤ Reader.maxNesting) (hsym : tokens.map Token.symbol = Block.symbols p)
    (hroom : (({ limit } : Arena).serve p.requests).1 = none) :
    compile limit source = generate p := by
  have hparse := (parse_eq_ok_of_symbols hl hn hsym).2 (Prod.ext hroom rfl)
  rw [compile, htokens, ok_bind, hparse, ok_bind]

/-- Reading a text that spells a tree comes to that tree up to lines, and asks for its nodes. -/
theorem Spells.read {text : String} (h : Spells text p) (hl : Block.Layered p)
    (hn : Block.nesting p ≤ Reader.maxNesting) :
    ∃ tokens, tokenize text = .ok tokens ∧ (Reader.read tokens).requests = p.requests ∧
      ((({ limit } : Arena).serve p.requests).1 = none →
        UpToLines SameTree (.ok p) (parse { limit } tokens).1) := by
  obtain ⟨tokens, htokens, hcontent⟩ := h
  -- the tokens of the symbols themselves, which differ from those of the text in lines only
  have hsym : ((Block.symbols p).map Symbol.token).map Token.symbol = Block.symbols p := by
    rw [List.map_map]
    exact (List.map_congr_left (Block.derives hn).symbol_token).trans (List.map_id _)
  have hlines : ((Block.symbols p).map Symbol.token).map Token.content =
      tokens.map Token.content := by
    rw [hcontent, List.map_map]
    exact List.map_congr_left fun x _ => x.content_token
  refine ⟨tokens, htokens, ?_, fun hroom => ?_⟩
  · rw [← requests_eq_of_content hlines, Reader.requests_read hl hn hsym]
  · have hparse := (parse_eq_ok_of_symbols hl hn hsym).2 (Prod.ext hroom rfl)
    have hsame := (parse_upToLines hlines { limit }).2
    rwa [hparse] at hsame

/-- A text that spells a layered tree compiles to the code of that tree. -/
theorem Spells.compile {text : String} (h : Spells text p) (hl : Block.Layered p)
    (hn : Block.nesting p ≤ Reader.maxNesting) (he : ¬ Exhausted limit text) :
    (({ limit } : Arena).serve p.requests).1 = none ∧
      UpToLines (· = ·) (generate p) (compile limit text) := by
  obtain ⟨tokens, htokens, hrequests, hparse⟩ := h.read hl hn
  have hroom := serve_of_not_exhausted htokens he
  rw [hrequests] at hroom
  refine ⟨hroom, ?_⟩
  rw [Kei.compile, htokens, ok_bind]
  exact (hparse hroom).bind fun p q => generate_upToLines

theorem UpToLines.eq_ok {x y : Except CompileError String} {asm : String}
    (h : UpToLines (· = ·) x y) (hy : y = .ok asm) : x = .ok asm := by
  cases h with
  | ok hab => rwa [hab]
  | error => cases hy

/-- The program of a text can be written with all its parentheses. -/
theorem exists_spells_parenthesized {source : String} {tokens : List Token}
    (htokens : tokenize source = .ok tokens) (hsym : Block.symbols p = tokens.map Token.symbol) :
    ∃ text, Spells text p.parenthesized := by
  have hfits : ∀ x ∈ Block.symbols p, ∃ rest, x.token.Fits rest := by
    rw [hsym, List.forall_mem_map]
    intro t ht
    obtain ⟨rest, hfits⟩ := fits_of_tokenize htokens t ht
    exact ⟨rest, hfits.token_symbol⟩
  have hleft : ∃ rest, (Symbol.fixed .leftParen).token.Fits rest := ⟨[], rfl⟩
  have hright : ∃ rest, (Symbol.fixed .rightParen).token.Fits rest := ⟨[], rfl⟩
  refine exists_spells (Block.forall_symbols_change ?_ p hfits)
  intro e he
  exact Expr.forall_symbols_parenthesized hleft hright he

/-- An arena with room for a parenthesised tree has room for the tree. -/
theorem serve_of_parenthesized {arena : Arena}
    (h : (arena.serve p.parenthesized.requests).1 = none) :
    (arena.serve p.requests).1 = none := by
  refine (Arena.Behind.refl arena).serve_sublist p.requests_sublist_parenthesized ?_ h
  intro r hr
  obtain ⟨node, -, rfl⟩ := List.mem_map.1 hr
  exact node.small_request

end

/-- Parentheses only group. A program without its parenthesised terms has the same code, or the same
fault. Every text that is a sentence of the grammar is written as one tree that precedence groups,
and every text that spells this tree with parentheses around all operations and atoms compiles to
the same assembly, or fails with the same fault up to its line, as long as the parentheses stay
within the nesting limit and the arena. There are such texts. -/
theorem compile_parenthesized :
    (∀ p : Block, generate p.bare = generate p) ∧
    ∀ source tokens, tokenize source = .ok tokens → Grammatical tokens →
      ∃ p : Block, Block.Layered p ∧ Block.symbols p = tokens.map Token.symbol ∧
        (∃ text, Spells text p.parenthesized) ∧
        ∀ text limit, Spells text p.parenthesized → Block.nesting p.parenthesized ≤ 256 →
          ¬ Exhausted limit text →
          UpToLines (· = ·) (compile limit source) (compile limit text) := by
  refine ⟨generate_bare, fun source tokens htokens hgram => ?_⟩
  obtain ⟨n, hderives⟩ := hgram
  obtain ⟨p, hl, -, hsym⟩ := derives_program_iff.1 hderives
  refine ⟨p, hl, hsym, exists_spells_parenthesized htokens hsym, ?_⟩
  intro text limit hspells hn he
  have hl' : Block.Layered (Block.parenthesized p) :=
    Block.layered_change Expr.layered_parenthesized p
  obtain ⟨hroom, hcompile⟩ := hspells.compile hl' hn he
  have hn' := Nat.le_trans (Block.nesting_le_change Expr.nesting_le_parenthesized p) hn
  rw [compile_of_symbols htokens hl hn' hsym.symm (serve_of_parenthesized hroom),
    ← generate_parenthesized]
  exact hcompile

/-- `exit(7 - 2 * 3 - 1);` -/
def levels : Block :=
  let int (n : String) : Expr := .int ⟨1, some n⟩
  [.exit (.binary .sub (.binary .sub (int "7") (.binary .mul (int "2") (int "3"))) (int "1"))]

/-- Every grouping of the three operations but that of `levels` has another value. -/
theorem compile_parenthesized_levels :
    let source := "exit(7 - 2 * 3 - 1);"
    let text := "exit((((7) - ((2) * (3))) - (1)));"
    let tokens := (Block.symbols levels).map Symbol.token
    tokenize source = .ok tokens ∧ Grammatical tokens ∧ Spells text (Block.parenthesized levels) ∧
      Block.nesting (Block.parenthesized levels) ≤ 256 ∧ ¬ Exhausted 2000 text ∧
      ∃ asm, compile 2000 source = .ok asm ∧ compile 2000 text = .ok asm := by
  intro source text tokens
  have htokens : tokenize source = .ok tokens := toOption_eq_some.1 (by decide +kernel)
  have hl : Block.Layered levels := by
    simp [levels, Block.Layered, Stmt.Layered, Expr.Layered, Expr.level, Op.level]
  have hsym : Block.symbols levels = tokens.map Token.symbol := rfl
  have hgram : Grammatical tokens := ⟨256, derives_program_iff.2 ⟨levels, hl, by decide, hsym⟩⟩
  have hspells : Spells text (Block.parenthesized levels) :=
    ⟨_, toOption_eq_some.1 (by decide +kernel : (tokenize text).toOption =
      some ((Block.symbols (Block.parenthesized levels)).map Symbol.token)), rfl⟩
  have hn : Block.nesting (Block.parenthesized levels) ≤ 256 := by decide
  obtain ⟨asm, hasm⟩ : ∃ asm, compile 2000 text = .ok asm := isOk_iff.1 (by decide +kernel)
  have he : ¬ Exhausted 2000 text := by
    rintro ⟨refusal, hrefusal⟩
    cases hasm.symm.trans hrefusal
  refine ⟨htokens, hgram, hspells, hn, he, asm, ?_, hasm⟩
  obtain ⟨p, hl', hsym', -, hall⟩ := compile_parenthesized.2 source tokens htokens hgram
  obtain rfl : p = levels := hl'.eq_of_symbols hl hsym'.symm hsym.symm
  exact (hall text 2000 hspells hn he).eq_ok hasm

end Kei

import Kei.Memory.Tree
import Kei.Proofs.Reader.Soundness

/-!
# Reading what was written

Reading the tokens of a layered tree moves the reader past them, whatever follows: a state before an
expression becomes the state after it with the expression as its operand, and a state between
statements becomes one with the statement added (`Expr.reads`, `Stmt.reads`). The nodes recorded on
the way are those of the tree, in the order of `Expr.nodes` and `Stmt.nodes`.

What follows matters in one respect: an expression ends where the next token binds no tighter than
it, and a conditional where the next token does not continue its chain.
-/

namespace Kei

namespace Token

theorem of_symbol_integer {t : Token} {l : Lexeme} (h : t.symbol = (.integer, some l)) :
    t.kind = .integer ∧ t.toLexeme = l := by
  have hk : t.kind = .integer := congrArg Prod.fst h
  rw [symbol_integer hk] at h
  exact ⟨hk, by simpa using h⟩

theorem of_symbol_identifier {t : Token} {l : Lexeme} (h : t.symbol = (.identifier, some l)) :
    t.kind = .identifier ∧ t.toLexeme = l := by
  have hk : t.kind = .identifier := congrArg Prod.fst h
  rw [symbol_identifier hk] at h
  exact ⟨hk, by simpa using h⟩

/-- The first of the tokens that are written with a symbol of a fixed kind first. -/
theorem cons_of_map_symbol {ts : List Token} {k : Kind} {rest : List Symbol}
    (h : ts.map symbol = .fixed k :: rest) :
    ∃ t ts', ts = t :: ts' ∧ t.kind = k ∧ ts'.map symbol = rest := by
  obtain ⟨t, ts, rfl, ht, hts⟩ := List.map_eq_cons_iff.1 h
  exact ⟨t, ts, rfl, congrArg Prod.fst ht, hts⟩

theorem singleton_of_map_symbol {ts : List Token} {k : Kind} (h : ts.map symbol = [.fixed k]) :
    ∃ t, ts = [t] ∧ t.kind = k := by
  obtain ⟨t, rfl, ht⟩ := List.map_eq_singleton_iff.1 h
  exact ⟨t, rfl, congrArg Prod.fst ht⟩

theorem name_of_map_symbol {ts : List Token} {l : Lexeme} {rest : List Symbol}
    (h : ts.map symbol = (.identifier, some l) :: rest) :
    ∃ t ts', ts = t :: ts' ∧ t.kind = .identifier ∧ t.toLexeme = l ∧ ts'.map symbol = rest := by
  obtain ⟨t, ts, rfl, ht, hts⟩ := List.map_eq_cons_iff.1 h
  obtain ⟨hk, hl⟩ := of_symbol_identifier ht
  exact ⟨t, ts, rfl, hk, hl, hts⟩

end Token

namespace Reader

variable {limit : Nat} {s s₁ s₂ : State} {t : Token} {ts ts₁ ts₂ tail : List Token}

/-- The kind of the first token. -/
def nextKind (tokens : List Token) : Option Kind :=
  tokens.head?.map (·.kind)

/-- From the state `s` the reader passes the tokens `ts` before `tail` and reaches `s'`. -/
def Reads (limit : Nat) (s : State) (ts : List Token) (s' : State) (tail : List Token) : Prop :=
  ∀ line, ∃ line', readFrom limit s line (ts ++ tail) = readFrom limit s' line' tail

theorem Reads.trans (h₁ : Reads limit s ts₁ s₁ (ts₂ ++ tail)) (h₂ : Reads limit s₁ ts₂ s₂ tail) :
    Reads limit s (ts₁ ++ ts₂) s₂ tail := by
  intro line
  obtain ⟨line₁, h₁⟩ := h₁ line
  obtain ⟨line₂, h₂⟩ := h₂ line₁
  exact ⟨line₂, by rw [List.append_assoc, h₁, h₂]⟩

/-- States that the next token settles alike read alike. -/
theorem Reads.of_settle (h : s.settle (nextKind tail) = s₁.settle (nextKind tail)) :
    Reads limit s [] s₁ tail := by
  refine fun line => ⟨line, ?_⟩
  cases tail with
  | nil => simp only [List.nil_append, readFrom]; rw [show s.settle none = s₁.settle none from h]
  | cons t tail =>
    simp only [List.nil_append, readFrom]
    rw [show s.settle (some t.kind) = s₁.settle (some t.kind) from h]

theorem Reads.refl : Reads limit s [] s tail :=
  .of_settle rfl

/-- A transition of a state that the token finds settled, and what is read after it. -/
theorem Reads.step (hs : s.settle (some t.kind) = s) (h : Step limit s t (ts ++ tail) s₁)
    (hr : Reads limit s₁ ts s₂ tail) : Reads limit s (t :: ts) s₂ tail := by
  intro line
  obtain ⟨line', hr⟩ := hr t.line
  exact ⟨line', by rw [← hr, List.cons_append, readFrom, hs, h.move]⟩

/-! ## Expressions -/

/-- An operand keeps waiting where the operator before it binds less tightly. -/
theorem combine_of_lt {level : Nat} {nodes : List Node} {waiting : Waiting} {e : Expr}
    (h : ∀ p ∈ waiting.head?, p.2.level < level) :
    combine level nodes waiting e = (waiting, e, nodes) := by
  cases waiting with
  | nil => rfl
  | cons p waiting => rw [combine, if_neg (Nat.not_le.2 (h p rfl))]

/-- An expression is read up to where the next token binds no tighter than it, behind operators that
bind less tightly. -/
theorem reads_expr {e : Expr} {use : Use} {groups : List Waiting} {waiting : Waiting}
    (he : e.Fits limit (s.levels.length + groups.length))
    (hp : s.place = .term use groups waiting) (hw : ∀ p ∈ waiting.head?, p.2.level < e.level)
    (hts : ts.map Token.symbol = e.symbols) (hnext : nextLevel (nextKind tail) ≤ e.level) :
    Reads limit s ts
      { s with place := .operator use groups waiting e, nodes := e.nodes.reverse ++ s.nodes }
      tail := by
  induction e generalizing s groups waiting ts tail with
  | int l =>
    obtain ⟨t, rfl, ht⟩ := List.map_eq_singleton_iff.1 hts
    obtain ⟨hk, rfl⟩ := Token.of_symbol_integer ht
    exact .step (by simp [State.settle, hp]) (.integer hp hk) .refl
  | ident l =>
    obtain ⟨t, rfl, ht⟩ := List.map_eq_singleton_iff.1 hts
    obtain ⟨hk, rfl⟩ := Token.of_symbol_identifier ht
    exact .step (by simp [State.settle, hp]) (.name hp hk) .refl
  | paren e ih =>
    obtain ⟨t, rest, rfl, ht, hrest⟩ := Token.cons_of_map_symbol hts
    obtain ⟨inner, us, rfl, hinner, hus⟩ := List.map_eq_append_iff.1 hrest
    obtain ⟨u, rfl, hu⟩ := Token.singleton_of_map_symbol hus
    obtain ⟨hlay, hnest⟩ := he
    simp only [Expr.nesting] at hnest
    refine .step (by simp [State.settle, hp]) (.openParen hp ht (by omega)) ?_
    refine .trans (ih ⟨hlay, ?_⟩ rfl (by simp) hinner ?_) ?_
    · simp only [List.length_cons]
      omega
    · simp [nextKind, nextLevel, hu, Kind.level?]
    · refine .step ?_ (.closeParen rfl hu) ?_
      · simp [State.settle, combine]
      · simpa [State.operand, Expr.nodes] using Reads.refl
  | binary op l r ihl ihr =>
    obtain ⟨⟨hl, hr, hll, hrl⟩, hnest⟩ := he
    simp only [Expr.nesting] at hnest
    simp only [Expr.level] at hw hnext
    obtain ⟨left, rest, rfl, hleft, hrest⟩ := List.map_eq_append_iff.1 hts
    obtain ⟨u, right, rfl, hu, hright⟩ := Token.cons_of_map_symbol hrest
    refine (ihl ⟨hll, by omega⟩ hp (fun p h => Nat.lt_of_lt_of_le (hw p h) hl) hleft ?_).trans ?_
    · simpa [nextKind, nextLevel, hu] using hl
    refine .step ?_ (.operator rfl hu) ?_
    · simp [State.settle, hu, combine_of_lt hw]
    rw [← List.append_nil right]
    refine (ihr ⟨hrl, ?_⟩ rfl (by simpa using hr) hright
      (by simp only [List.nil_append]; omega)).trans (.of_settle ?_)
    · simp only
      omega
    -- the next token binds no tighter than the operator, so both states fold it
    · simp only [nextLevel] at hnext
      simp [State.settle, combine, hnext, Expr.nodes]

/-! ## Statements -/

/-- What follows does not continue the chain of a conditional. -/
def EndsChain (tokens : List Token) : Prop :=
  ∀ k ∈ nextKind tokens, k ≠ .elifWord ∧ k ≠ .elseWord

theorem endsChain_append {b : List Stmt} (hts : ts.map Token.symbol = Block.symbols b)
    (h : EndsChain tail) : EndsChain (ts ++ tail) := by
  cases b with
  | nil =>
    obtain rfl := List.map_eq_nil_iff.1 hts
    exact h
  | cons st b =>
    cases ts with
    | nil => cases st <;> simp [Block.symbols, Stmt.symbols] at hts
    | cons t ts =>
      intro k hk
      obtain rfl : t.kind = k := by simpa [nextKind] using hk
      have hsym := congrArg (·.head?.map Prod.fst) hts
      cases st <;> simp [Block.symbols, Stmt.symbols, Symbol.fixed, Token.symbol] at hsym <;>
        simp [hsym]

/-- The expression of a statement, up to the token that closes it. -/
theorem reads_whole {e : Expr} {use : Use} (he : e.Fits limit s.levels.length)
    (hp : s.place = .term use [] []) (hts : ts.map Token.symbol = e.symbols)
    (hnext : nextLevel (nextKind tail) = 0) :
    Reads limit s ts
      { s with place := .operator use [] [] e, nodes := e.nodes.reverse ++ s.nodes } tail :=
  reads_expr he hp (by simp) hts (by omega)

/-- Reading the statements of a block, from every state between statements. -/
def ReadsBlock (limit : Nat) (b : List Stmt) : Prop :=
  ∀ {s : State} {ts tail : List Token}, Block.Fits limit s.levels.length b →
    s.place = .statement → ts.map Token.symbol = Block.symbols b → EndsChain tail →
    Reads limit s ts
      { s with done := b.reverse ++ s.done, nodes := (Block.nodes b).reverse ++ s.nodes } tail

/-- A condition and its block, behind the word that opens them. -/
theorem reads_branch {b : Branch} {earlier : List Branch} (hblock : ReadsBlock limit b.body)
    (hb : b.Fits limit s.levels.length) (hp : s.place = .testParen earlier)
    (hts : ts.map Token.symbol = b.symbols) :
    Reads limit s ts
      { s with
        place := .chain b earlier
        nodes := .scope :: (List.replicate b.body.length .link ++
          ((Block.nodes b.body).reverse ++ (b.test.nodes.reverse ++ s.nodes))) } tail := by
  obtain ⟨t₀, ts, rfl, ht₀, hts⟩ := Token.cons_of_map_symbol hts
  obtain ⟨test, ts, rfl, htest, hts⟩ := List.map_eq_append_iff.1 hts
  obtain ⟨t₁, ts, rfl, ht₁, hts⟩ := Token.cons_of_map_symbol hts
  obtain ⟨t₂, ts, rfl, ht₂, hts⟩ := Token.cons_of_map_symbol hts
  obtain ⟨body, ts, rfl, hbody, hts⟩ := List.map_eq_append_iff.1 hts
  obtain ⟨t₃, rfl, ht₃⟩ := Token.singleton_of_map_symbol hts
  obtain ⟨hfit, hfits⟩ := hb
  have hlim := (Block.fits_iff.1 hfits).1
  refine .step (by simp [State.settle, hp]) (.testParen hp ht₀) ?_
  refine .trans (reads_whole hfit rfl htest ?_) ?_
  · simp [nextKind, nextLevel, ht₁, Kind.level?]
  refine .step (by simp [State.settle, combine]) (.endTest rfl ht₁) ?_
  refine .step rfl (.openBody rfl ht₂ hlim) ?_
  refine .trans (hblock hfits rfl hbody ?_) ?_
  · simp [EndsChain, nextKind, ht₃]
  refine .step rfl (.closeBranch rfl ht₃ rfl) ?_
  simpa using Reads.refl

mutual

/-- A statement is read from every state between statements. -/
theorem reads_stmt {st : Stmt} {s : State} {ts tail : List Token}
    (hf : st.Fits limit s.levels.length) (hp : s.place = .statement)
    (hts : ts.map Token.symbol = st.symbols) (htail : EndsChain tail) :
    Reads limit s ts
      { s with done := st :: s.done, nodes := st.nodes.reverse ++ s.nodes } tail := by
  have hset (k : Kind) : s.settle (some k) = s := by simp [State.settle, hp]
  cases st with
  | exit e =>
    obtain ⟨t₀, ts, rfl, ht₀, hts⟩ := Token.cons_of_map_symbol hts
    obtain ⟨t₁, ts, rfl, ht₁, hts⟩ := Token.cons_of_map_symbol hts
    obtain ⟨value, ts, rfl, hvalue, hts⟩ := List.map_eq_append_iff.1 hts
    obtain ⟨t₂, ts, rfl, ht₂, hts⟩ := Token.cons_of_map_symbol hts
    obtain ⟨t₃, rfl, ht₃⟩ := Token.singleton_of_map_symbol hts
    refine .step (hset _) (.exitWord hp ht₀ (by simp [ht₁])) ?_
    refine .step rfl (.exitParen rfl ht₁) ?_
    refine .trans (reads_whole hf rfl hvalue (by simp [nextKind, nextLevel, ht₂, Kind.level?])) ?_
    refine .step (by simp [State.settle, combine]) (.endExit rfl ht₂) ?_
    refine .step rfl (.exitEnd rfl ht₃) ?_
    simpa [State.finish, Stmt.nodes, hp] using Reads.refl
  | declare n e =>
    obtain ⟨t₀, ts, rfl, ht₀, hts⟩ := Token.cons_of_map_symbol hts
    obtain ⟨t₁, ts, rfl, ht₁, rfl, hrest⟩ := Token.name_of_map_symbol hts
    obtain ⟨t₂, ts, rfl, ht₂, hts⟩ := Token.cons_of_map_symbol hrest
    obtain ⟨value, ts, rfl, hvalue, hts⟩ := List.map_eq_append_iff.1 hts
    obtain ⟨t₃, rfl, ht₃⟩ := Token.singleton_of_map_symbol hts
    refine .step (hset _) (.letWord hp ht₀ (by simp [ht₁, ht₂])) ?_
    refine .step rfl (.letName rfl ht₁) ?_
    refine .step rfl (.letEquals rfl ht₂) ?_
    refine .trans (reads_whole hf rfl hvalue (by simp [nextKind, nextLevel, ht₃, Kind.level?])) ?_
    refine .step (by simp [State.settle, combine]) (.endDeclare rfl ht₃) ?_
    simpa [State.finish, Stmt.nodes, hp] using Reads.refl
  | assign n e =>
    obtain ⟨t₀, ts, rfl, ht₀, rfl, hrest⟩ := Token.name_of_map_symbol hts
    obtain ⟨t₁, ts, rfl, ht₁, hts⟩ := Token.cons_of_map_symbol hrest
    obtain ⟨value, ts, rfl, hvalue, hts⟩ := List.map_eq_append_iff.1 hts
    obtain ⟨t₂, rfl, ht₂⟩ := Token.singleton_of_map_symbol hts
    refine .step (hset _) (.assign hp ht₀ (by simp [ht₁])) ?_
    refine .step rfl (.assignEquals rfl ht₁) ?_
    refine .trans (reads_whole hf rfl hvalue (by simp [nextKind, nextLevel, ht₂, Kind.level?])) ?_
    refine .step (by simp [State.settle, combine]) (.endAssign rfl ht₂) ?_
    simpa [State.finish, Stmt.nodes, hp] using Reads.refl
  | scope b =>
    obtain ⟨t₀, ts, rfl, ht₀, hts⟩ := Token.cons_of_map_symbol hts
    obtain ⟨body, ts, rfl, hbody, hts⟩ := List.map_eq_append_iff.1 hts
    obtain ⟨t₁, rfl, ht₁⟩ := Token.singleton_of_map_symbol hts
    obtain ⟨hlay, hnest⟩ := hf
    simp only [Stmt.nesting] at hnest
    refine .step (hset _) (.openScope hp ht₀ (by omega)) ?_
    refine .trans (reads_block ⟨hlay, ?_⟩ rfl hbody (by simp [EndsChain, nextKind, ht₁])) ?_
    · simp only [List.length_cons]
      omega
    refine .step rfl (.closeScope rfl ht₁ rfl) ?_
    simpa [Stmt.nodes, hp] using Reads.refl
  | cond e b c =>
    obtain ⟨hlay, hnest⟩ := hf
    simp only [Stmt.nesting] at hnest
    rw [show (Stmt.cond e b c).symbols = .fixed .ifWord :: (Branch.symbols ⟨e, b⟩ ++ c.symbols) by
      simp [Stmt.symbols, Branch.symbols]] at hts
    obtain ⟨t₀, ts, rfl, ht₀, hts⟩ := Token.cons_of_map_symbol hts
    obtain ⟨branch, chain, rfl, hbranch, hchain⟩ := List.map_eq_append_iff.1 hts
    refine .step (hset _) (.ifWord hp ht₀) ?_
    refine .trans (reads_branch reads_block ⟨⟨hlay.1, ?_⟩, hlay.2.1, ?_⟩ rfl hbranch) ?_
    · simp only
      omega
    · simp only
      omega
    rw [← List.append_nil chain]
    refine .trans (reads_chain ⟨hlay.2.2, ?_⟩ rfl hchain htail) ?_
    · simp only
      omega
    simpa [Stmt.nodes, Stmt.ofBranches, hp] using Reads.refl

theorem reads_block {b : List Stmt} : ReadsBlock limit b := by
  intro s ts tail hf hp hts htail
  cases b with
  | nil =>
    obtain rfl := List.map_eq_nil_iff.1 hts
    simpa [Block.nodes] using Reads.refl
  | cons st b =>
    obtain ⟨hd, hf⟩ := Block.fits_iff.1 hf
    obtain ⟨hst, hb⟩ := List.forall_mem_cons.1 hf
    obtain ⟨first, rest, rfl, hfirst, hrest⟩ := List.map_eq_append_iff.1 hts
    refine .trans (reads_stmt hst hp hfirst (endsChain_append hrest htail)) ?_
    rw [← List.append_nil rest]
    refine .trans (reads_block (Block.fits_iff.2 ⟨hd, hb⟩) hp hrest htail) ?_
    simpa [Block.nodes] using Reads.refl

/-- A chain is read behind a branch of its conditional, which it completes. -/
theorem reads_chain {c : Chain} {newest : Branch} {older : List Branch} {s : State}
    {ts tail : List Token} (hf : c.Fits limit s.levels.length)
    (hp : s.place = .chain newest older) (hts : ts.map Token.symbol = c.symbols)
    (htail : EndsChain tail) :
    Reads limit s ts
      { s with
        done := .ofBranches newest older c :: s.done
        place := .statement
        nodes := .stmt :: (List.replicate (older.length + c.length) .chain ++
          (c.partNodes.reverse ++ s.nodes)) } tail := by
  cases c with
  | stop =>
    obtain rfl := List.map_eq_nil_iff.1 hts
    refine .of_settle ?_
    have hne : ¬ (nextKind tail = some .elifWord ∨ nextKind tail = some .elseWord) := by
      rintro (h | h)
      · exact (htail _ h).1 rfl
      · exact (htail _ h).2 rfl
    simp [State.settle, hp, hne, Chain.length, Chain.partNodes]
  | elif e b next =>
    obtain ⟨hlay, hnest⟩ := hf
    simp only [Chain.nesting] at hnest
    rw [show (Chain.elif e b next).symbols =
      .fixed .elifWord :: (Branch.symbols ⟨e, b⟩ ++ next.symbols) by
      simp [Chain.symbols, Branch.symbols]] at hts
    obtain ⟨t₀, ts, rfl, ht₀, hts⟩ := Token.cons_of_map_symbol hts
    obtain ⟨branch, chain, rfl, hbranch, hchain⟩ := List.map_eq_append_iff.1 hts
    refine .step (by simp [State.settle, hp, ht₀]) (.elifWord hp ht₀) ?_
    refine .trans (reads_branch reads_block ⟨⟨hlay.1, ?_⟩, hlay.2.1, ?_⟩ rfl hbranch) ?_
    · simp only
      omega
    · simp only
      omega
    rw [← List.append_nil chain]
    refine .trans (reads_chain ⟨hlay.2.2, ?_⟩ rfl hchain htail) ?_
    · simp only
      omega
    simpa [Chain.length, Chain.partNodes, Stmt.ofBranches, Nat.add_assoc, Nat.add_comm 1]
      using Reads.refl
  | otherwise b =>
    obtain ⟨hlay, hnest⟩ := hf
    simp only [Chain.nesting] at hnest
    obtain ⟨t₀, ts, rfl, ht₀, hts⟩ := Token.cons_of_map_symbol hts
    obtain ⟨t₁, ts, rfl, ht₁, hts⟩ := Token.cons_of_map_symbol hts
    obtain ⟨body, ts, rfl, hbody, hts⟩ := List.map_eq_append_iff.1 hts
    obtain ⟨t₂, rfl, ht₂⟩ := Token.singleton_of_map_symbol hts
    refine .step (by simp [State.settle, hp, ht₀]) (.elseWord hp ht₀) ?_
    refine .step rfl (.openBody rfl ht₁ (by simp only; omega)) ?_
    refine .trans (reads_block ⟨hlay, ?_⟩ rfl hbody (by simp [EndsChain, nextKind, ht₂])) ?_
    · simp only [List.length_cons]
      omega
    refine .step rfl (.closeOtherwise rfl ht₂ rfl) ?_
    simpa [Chain.length, Chain.partNodes] using Reads.refl

end

/-! ## Whole programs -/

/-- A tree that keeps to the limit is read back from what is written, and its nodes are built in
order. -/
theorem readFrom_symbols {program : Block} {tokens : List Token} (line : Nat)
    (hf : Block.Fits limit 0 program) (hts : tokens.map Token.symbol = Block.symbols program) :
    readFrom limit {} line tokens = ⟨.ok program, (Block.nodes program).reverse⟩ := by
  have hend : EndsChain [] := by simp [EndsChain, nextKind]
  obtain ⟨line', h⟩ := reads_block (s := {}) hf rfl hts hend line
  rw [List.append_nil] at h
  simpa [readFrom, State.settle] using h

end Reader

/-- Layered trees that are written alike are the same tree. -/
theorem Block.Layered.eq_of_symbols {p q : Block} {tokens : List Token} (hp : Block.Layered p)
    (hq : Block.Layered q) (hps : tokens.map Token.symbol = Block.symbols p)
    (hqs : tokens.map Token.symbol = Block.symbols q) : p = q := by
  have hf : Block.Fits (max (Block.nesting p) (Block.nesting q)) 0 p := ⟨hp, by omega⟩
  have hg : Block.Fits (max (Block.nesting p) (Block.nesting q)) 0 q := ⟨hq, by omega⟩
  have h := (Reader.readFrom_symbols 1 hf hps).symm.trans (Reader.readFrom_symbols 1 hg hqs)
  injection h with h
  injection h

/-- Reading a written tree succeeds as far as the arena has room for its nodes and links. -/
theorem parse_eq_ok_of_symbols {program : Block} {tokens : List Token} {arena arena' : Arena}
    (hl : Block.Layered program) (hn : Block.nesting program ≤ Reader.maxNesting)
    (hts : tokens.map Token.symbol = Block.symbols program) :
    parse arena tokens = (.ok program, arena') ↔ arena.serve program.requests = (none, arena') := by
  have hread : Reader.read tokens = ⟨.ok program, (Block.nodes program).reverse⟩ :=
    Reader.readFrom_symbols _ ⟨hl, by omega⟩ hts
  simp [parse_eq_ok_iff, hread, Block.requests]

end Kei

import Kei.Proofs.Reader.Cost
import Kei.Proofs.Reader.Grammar

/-!
# What the reader rejects

The reader stops at the first token that no program can go on with. Every state of it can be
completed: what it has read is the beginning of a program (`State.exists_completion`), so nothing is
consumed that has made the input hopeless. And the token it stops at was refused for what it is and
for at most two tokens after it, so reading stops there with every continuation of these three and
under every greater nesting limit (`readFrom_of_agree`), while programs are read to their end.
-/

namespace Kei

/-! ## Tokens of sentences -/

/-- The symbols of a sentence are those of tokens. -/
theorem Derives.symbol_token {c : Category} {n : Nat} {w : List Symbol} (h : Derives c n w) :
    ∀ x ∈ w, x.token.symbol = x := by
  induction h with
  | operation op _ _ ihe iho =>
    have hop : (Symbol.token (.fixed op.kind)).symbol = .fixed op.kind := Op.symbol_of_kind rfl
    simp_all [or_imp]
  | _ => simp_all [or_imp, Symbol.token, Symbol.fixed, Token.symbol]

namespace Reader

/-! ## Completing what was read -/

/-- Operators that wait are completed by an operand. -/
theorem exists_completion_waiting (waiting : Waiting) (e : Expr) :
    ∃ e' : Expr, e'.symbols = waitingSymbols waiting ++ e.symbols := by
  induction waiting generalizing e with
  | nil => exact ⟨e, rfl⟩
  | cons p waiting ih =>
    obtain ⟨lhs, op⟩ := p
    obtain ⟨e', he'⟩ := ih (.binary op lhs e)
    exact ⟨e', by simp [he', Expr.symbols, waitingSymbols]⟩

/-- Open parentheses are completed by their content. -/
theorem exists_completion_groups (groups : List Waiting) (e : Expr) :
    ∃ (e' : Expr) (rest : List Symbol),
      e'.symbols = groupSymbols groups ++ (e.symbols ++ rest) := by
  induction groups generalizing e with
  | nil => exact ⟨e, [], by simp [groupSymbols]⟩
  | cons waiting groups ih =>
    obtain ⟨e₁, h₁⟩ := exists_completion_waiting waiting (.paren e)
    obtain ⟨e', rest, h'⟩ := ih e₁
    exact ⟨e', .fixed .rightParen :: rest, by simp [h', h₁, Expr.symbols, groupSymbols]⟩

/-- What a block is read for is completed by the block. -/
theorem exists_completion_role (role : Role) (b : List Stmt) :
    ∃ st : Stmt, st.symbols =
      role.symbols ++ .fixed .leftBrace :: (Block.symbols b ++ [.fixed .rightBrace]) := by
  cases role with
  | scope => exact ⟨.scope b, rfl⟩
  | branch earlier test =>
    refine ⟨.ofBranches ⟨test, b⟩ earlier .stop, ?_⟩
    simp [ofBranches_symbols, branchSymbols, Branch.symbols, Role.symbols, Chain.symbols]
  | otherwise newest older =>
    refine ⟨.ofBranches newest older (.otherwise b), ?_⟩
    simp [ofBranches_symbols, Role.symbols, Chain.symbols]

/-- What an expression is read for is completed by the expression. -/
theorem exists_completion_use (use : Use) (e : Expr) :
    ∃ (st : Stmt) (rest : List Symbol), st.symbols = use.symbols ++ (e.symbols ++ rest) := by
  cases use with
  | exit => exact ⟨.exit e, [.fixed .rightParen, .fixed .semicolon], rfl⟩
  | declare name => exact ⟨.declare name e, [.fixed .semicolon], rfl⟩
  | assign name => exact ⟨.assign name e, [.fixed .semicolon], rfl⟩
  | test earlier =>
    obtain ⟨st, hst⟩ := exists_completion_role (.branch earlier e) []
    exact ⟨st, [.fixed .rightParen, .fixed .leftBrace, .fixed .rightBrace], by
      simp [hst, Role.symbols, Use.symbols, Block.symbols]⟩

/-- An expression of which everything before an operand was read. -/
theorem exists_completion_operand (use : Use) (groups : List Waiting) (waiting : Waiting)
    (e : Expr) :
    ∃ (st : Stmt) (rest : List Symbol), st.symbols =
      use.symbols ++ groupSymbols groups ++ waitingSymbols waiting ++ (e.symbols ++ rest) := by
  obtain ⟨e₁, h₁⟩ := exists_completion_waiting waiting e
  obtain ⟨e₂, rest₂, h₂⟩ := exists_completion_groups groups e₁
  obtain ⟨st, rest, hst⟩ := exists_completion_use use e₂
  exact ⟨st, rest₂ ++ rest, by simp [hst, h₂, h₁]⟩

/-- An unfinished statement can be finished. -/
theorem Place.exists_completion (p : Place) :
    ∃ (b : List Stmt) (rest : List Symbol), Block.symbols b = p.symbols ++ rest := by
  -- any operand will do where one is still to come
  have hterm (use : Use) (groups : List Waiting) (waiting : Waiting) :=
    exists_completion_operand use groups waiting (.int default)
  have hone {st : Stmt} {w : List Symbol} (h : st.symbols = w) : Block.symbols [st] = w := by
    simp [Block.symbols, h]
  cases p with
  | statement => exact ⟨[], [], rfl⟩
  | exitParen =>
    obtain ⟨st, rest, hst⟩ := hterm .exit [] []
    exact ⟨[st], _, hone hst⟩
  | letName =>
    obtain ⟨st, rest, hst⟩ := hterm (.declare default) [] []
    exact ⟨[st], _, hone hst⟩
  | letEquals name =>
    obtain ⟨st, rest, hst⟩ := hterm (.declare name) [] []
    exact ⟨[st], _, hone hst⟩
  | assignEquals name =>
    obtain ⟨st, rest, hst⟩ := hterm (.assign name) [] []
    exact ⟨[st], _, hone hst⟩
  | term use groups waiting =>
    obtain ⟨st, rest, hst⟩ := hterm use groups waiting
    exact ⟨[st], _, hone hst⟩
  | operator use groups waiting e =>
    obtain ⟨st, rest, hst⟩ := exists_completion_operand use groups waiting e
    exact ⟨[st], rest, hone (by simp [hst, Place.symbols])⟩
  | exitEnd e =>
    exact ⟨[.exit e], [.fixed .semicolon], hone (by simp [Stmt.symbols, Place.symbols])⟩
  | testParen earlier =>
    obtain ⟨st, rest, hst⟩ := hterm (.test earlier) [] []
    exact ⟨[st], .fixed .leftParen :: (Expr.symbols (.int default) ++ rest), hone (by
      simp [hst, Use.symbols, Place.symbols, groupSymbols, waitingSymbols])⟩
  | body role =>
    obtain ⟨st, hst⟩ := exists_completion_role role []
    exact ⟨[st], _, hone hst⟩
  | chain newest older =>
    exact ⟨[.ofBranches newest older .stop], [], hone (ofBranches_symbols newest older .stop)⟩

/-- Open blocks can be closed. -/
theorem exists_completion_levels (levels : List Level) (b : List Stmt) :
    ∃ (b' : List Stmt) (rest : List Symbol),
      Block.symbols b' = levelSymbols levels ++ (Block.symbols b ++ rest) := by
  induction levels generalizing b with
  | nil => exact ⟨b, [], by simp [levelSymbols]⟩
  | cons l levels ih =>
    obtain ⟨st, hst⟩ := exists_completion_role l.role b
    obtain ⟨b', rest, h'⟩ := ih (l.before.reverse ++ [st])
    exact ⟨b', .fixed .rightBrace :: rest, by
      simp [h', levelSymbols, Block.symbols_append, Block.symbols, hst]⟩

/-- What was read is the beginning of a program. -/
theorem State.exists_completion (s : State) :
    ∃ (b : List Stmt) (rest : List Symbol), Block.symbols b = s.symbols ++ rest := by
  obtain ⟨b, rest, hb⟩ := s.place.exists_completion
  obtain ⟨b', rest', h'⟩ := exists_completion_levels s.levels (s.done.reverse ++ b)
  exact ⟨b', rest ++ rest', by simp [h', State.symbols, Block.symbols_append, hb]⟩

/-! ## Consuming tokens -/

variable {limit limit' : Nat} {s : State} {t : Token} {ahead ahead' tokens tokens' : List Token}
  {line : Nat}

theorem consumedFrom_prefix (limit : Nat) (s : State) (tokens : List Token) :
    consumedFrom limit s tokens <+: tokens := by
  induction tokens generalizing s with
  | nil => exact List.prefix_refl _
  | cons t rest ih =>
    rw [consumedFrom]
    split
    · exact List.cons_prefix_cons.2 ⟨rfl, ih _⟩
    · exact List.nil_prefix
    · exact List.cons_prefix_cons.2 ⟨rfl, List.nil_prefix⟩

/-- A fault is reported on the line of the last token consumed. -/
theorem line?_of_readFrom {e : SyntaxError} (h : (readFrom limit s line tokens).result = .error e) :
    (CompileError.grammar e).line? =
      some (((consumedFrom limit s tokens).getLast?.map (·.line)).getD line) := by
  induction tokens generalizing s line with
  | nil =>
    simp only [readFrom] at h
    split at h <;> cases h
    rfl
  | cons t rest ih =>
    rw [readFrom] at h
    rw [consumedFrom]
    split at h
    · rename_i s' _
      rw [ih h, List.getLast?_cons]
      cases (consumedFrom limit s' rest).getLast? <;> rfl
    · cases h
      rfl
    · cases h
      rfl

/-- What was found is the token that is not consumed, or the end of the tokens. -/
theorem got_of_readFrom {what got : String} {n : Nat}
    (h : (readFrom limit s line tokens).result = .error (.expected what got n)) :
    got = Token.describe tokens[(consumedFrom limit s tokens).length]? := by
  induction tokens generalizing s line with
  | nil =>
    simp only [readFrom] at h
    split at h <;> cases h
    rfl
  | cons t rest ih =>
    rw [readFrom] at h
    rw [consumedFrom]
    split at h
    · exact ih h
    · cases h
      rfl
    · cases h

/-- What is consumed before a token that does not fit is the beginning of a program. -/
theorem exists_completion_of_readFrom {what got : String} {n : Nat} (hs : s.Fits limit 2)
    (h : (readFrom limit s line tokens).result = .error (.expected what got n)) :
    ∃ (b : List Stmt) (rest : List Symbol), Block.symbols b =
      s.symbols ++ ((consumedFrom limit s tokens).map Token.symbol ++ rest) := by
  induction tokens generalizing s line with
  | nil => exact s.exists_completion
  | cons t rest ih =>
    rw [readFrom] at h
    rw [consumedFrom]
    split at h
    · rename_i s' hmove
      have hf := hs.settle (some t.kind)
      have hstep := State.step_of_move hmove
      obtain ⟨b, tail, hb⟩ := ih (hstep.fits hf) h
      refine ⟨b, tail, ?_⟩
      rw [hb, hstep.symbols hf, State.settle_symbols]
      simp
    · exact s.exists_completion
    · cases h

/-! ## Refusing tokens -/

/-- The tokens ahead agree in all that is looked at to tell statements apart: the kind of the next
one, and whether the next two are a name and `=`. -/
structure AgreeAhead (ahead ahead' : List Token) : Prop where
  one : (ahead'.take 1).map (·.kind) = (ahead.take 1).map (·.kind)
  two : (ahead'.take 2).map (·.kind) = [.identifier, .equals] ↔
    (ahead.take 2).map (·.kind) = [.identifier, .equals]

theorem AgreeAhead.of_take (h : ahead'.take 2 = ahead.take 2) : AgreeAhead ahead ahead' := by
  have hone : ahead'.take 1 = ahead.take 1 := by
    simpa [List.take_take] using congrArg (List.take 1) h
  exact ⟨by rw [hone], by rw [h]⟩

/-- Two tokens ahead are looked at, and the limit only decides about what opens too much. -/
theorem State.move_of_agree (hle : limit ≤ limit') (hahead : AgreeAhead ahead ahead')
    (h : s.move limit t ahead ≠ .tooDeep) : s.move limit' t ahead' = s.move limit t ahead := by
  have hopen (s' : State) (h : (if s.depth < limit then Move.to s' else .tooDeep) ≠ .tooDeep) :
      (if s.depth < limit' then Move.to s' else .tooDeep) =
        if s.depth < limit then Move.to s' else .tooDeep := by
    split at h
    · rename_i hd
      rw [if_pos hd, if_pos (Nat.lt_of_lt_of_le hd hle)]
    · exact absurd rfl h
  revert h
  unfold State.move
  simp only [hahead.one, hahead.two]
  split
  -- the three places where a scope or a parenthesised term opens
  case h_4 | h_13 | h_17 => exact hopen _
  all_goals exact fun _ => rfl

/-- Reading stops at the same token, under every greater limit, as long as the tokens up to the
second one behind it are the same. -/
theorem readFrom_of_agree {what got : String} {n : Nat} (hle : limit ≤ limit')
    (h : (readFrom limit s line tokens).result = .error (.expected what got n))
    (hagree : tokens'.take ((consumedFrom limit s tokens).length + 3) =
      tokens.take ((consumedFrom limit s tokens).length + 3)) :
    (readFrom limit' s line tokens').result = .error (.expected what got n) := by
  induction tokens generalizing s line tokens' with
  | nil =>
    obtain rfl : tokens' = [] := by simpa [consumedFrom] using hagree
    exact h
  | cons t rest ih =>
    cases tokens' with
    | nil => simp at hagree
    | cons t' rest' =>
      rw [List.take_succ_cons, List.take_succ_cons, List.cons.injEq] at hagree
      obtain ⟨rfl, hagree⟩ := hagree
      have hahead : rest'.take 2 = rest.take 2 := by
        simpa [List.take_take] using congrArg (List.take 2) hagree
      -- so the next move is the same one, unless it was too deep
      have hmove := State.move_of_agree (s := s.settle (some t'.kind)) (t := t') hle
        (.of_take hahead)
      rw [readFrom] at h ⊢
      rw [consumedFrom] at hagree
      split at h
      · rename_i s' hto
        rw [hmove (by simp [hto]), hto]
        rw [hto] at hagree
        exact ih h hagree
      · rename_i hrefused
        rw [hmove (by simp [hrefused]), hrefused]
        exact h
      · cases h

/-- Programs are read to their end under all limits but small ones. -/
theorem exists_readFrom_of_grammatical (h : Grammatical tokens) (limit line : Nat) :
    ∃ limit' program, limit ≤ limit' ∧ (readFrom limit' {} line tokens).result = .ok program := by
  obtain ⟨n, hn⟩ := h
  obtain ⟨program, hlay, hnest, hsym⟩ := derives_program_iff.1 hn
  have hfits : Block.Fits (max limit n) 0 program := ⟨hlay, by omega⟩
  exact ⟨max limit n, program, Nat.le_max_left _ _, by rw [readFrom_symbols line hfits hsym.symm]⟩

/-- No program begins with the tokens up to the second one behind that at which reading stops. -/
theorem not_grammatical_of_agree {what got : String} {n : Nat}
    (h : (readFrom limit {} line tokens).result = .error (.expected what got n))
    (hagree : tokens'.take ((consumedFrom limit {} tokens).length + 3) =
      tokens.take ((consumedFrom limit {} tokens).length + 3)) : ¬ Grammatical tokens' := by
  intro hgram
  obtain ⟨limit', program, hle, hok⟩ := exists_readFrom_of_grammatical hgram limit line
  rw [readFrom_of_agree hle h hagree] at hok
  cases hok

/-- Tokens that a written program begins with can be completed. -/
theorem exists_grammatical_of_symbols {b : Block} {rest : List Symbol}
    (hb : Block.symbols b = tokens.map Token.symbol ++ rest) :
    ∃ rest, Grammatical (tokens ++ rest) := by
  have hderives := Block.derives (Nat.le_refl (Block.nesting b))
  rw [hb] at hderives
  have hrest : (rest.map Symbol.token).map Token.symbol = rest := by
    rw [List.map_map, List.map_congr_left (g := id), List.map_id]
    intro x hx
    exact hderives.symbol_token x (by simp [hx])
  refine ⟨rest.map Symbol.token, Block.nesting b, ?_⟩
  rw [List.map_append, hrest]
  exact hderives

/-- What is consumed before a token that does not fit can be completed. -/
theorem exists_grammatical_consumed {what got : String} {n : Nat}
    (h : (readFrom limit {} line tokens).result = .error (.expected what got n)) :
    ∃ rest, Grammatical (consumedFrom limit {} tokens ++ rest) := by
  obtain ⟨b, rest, hb⟩ := exists_completion_of_readFrom (fits_initial limit) h
  exact exists_grammatical_of_symbols hb

end Reader

/-! ## Whole programs -/

/-- Parsing fails for memory that is refused, or else as reading does. -/
theorem parse_eq_error {arena : Arena} {tokens : List Token} {e : CompileError}
    (h : (parse arena tokens).1 = .error e) :
    (∃ refusal, e = .memory refusal) ∨
      ∃ fault, e = .grammar fault ∧ (Reader.read tokens).result = .error fault := by
  rw [parse_fst] at h
  split at h
  · rename_i refusal _
    exact .inl ⟨refusal, (Except.error.inj h).symm⟩
  · cases hread : (Reader.read tokens).result with
    | error fault =>
      rw [hread] at h
      exact .inr ⟨fault, (Except.error.inj h).symm, rfl⟩
    | ok program => simp [hread] at h

/-- A fault of the syntax is reported on the line of the last token consumed. -/
theorem exists_lastConsumed {tokens : List Token} {e : SyntaxError}
    (h : (Reader.read tokens).result = .error e) :
    ∃ t, Reader.lastConsumed tokens = some t ∧ (CompileError.grammar e).line? = some t.line := by
  have hline := Reader.line?_of_readFrom h
  cases tokens with
  | nil => cases h
  | cons first rest =>
    unfold Reader.lastConsumed
    cases hlast : (Reader.consumedFrom Reader.maxNesting {} (first :: rest)).getLast? with
    | none => exact ⟨first, rfl, by rw [hline, hlast]; rfl⟩
    | some t => exact ⟨t, rfl, by rw [hline, hlast]; rfl⟩

/-- Where nothing is consumed, that is the first token. -/
theorem Reader.lastConsumed_eq (tokens : List Token) :
    lastConsumed tokens = tokens[(consumedFrom maxNesting {} tokens).length - 1]? := by
  have hprefix := consumedFrom_prefix maxNesting {} tokens
  unfold lastConsumed
  cases hc : consumedFrom maxNesting {} tokens with
  | nil => simp [List.head?_eq_getElem?]
  | cons first rest =>
    rw [hc] at hprefix
    obtain ⟨tail, rfl⟩ := hprefix
    rw [List.getElem?_append_left (by simp), ← List.getLast?_eq_getElem?]
    rfl

/-- A token that does not fit is named and located. What was consumed before it begins a program,
but the tokens are none, and none begins with them up to the second token behind it. -/
theorem parse_expected {arena : Arena} {tokens : List Token} {what got : String} {line : Nat}
    (h : (parse arena tokens).1 = .error (.grammar (.expected what got line))) :
    ∃ pos ≤ tokens.length,
      got = Token.describe tokens[pos]? ∧
      tokens[pos - 1]?.map (·.line) = some line ∧
      (∃ rest, Grammatical (tokens.take pos ++ rest)) ∧
      ¬ Grammatical tokens ∧
      (pos + 3 ≤ tokens.length → ∀ rest, ¬ Grammatical (tokens.take (pos + 3) ++ rest)) := by
  obtain ⟨_, hmemory⟩ | ⟨fault, hfault, hread⟩ := parse_eq_error h
  · cases hmemory
  obtain rfl := CompileError.grammar.inj hfault
  have hprefix := Reader.consumedFrom_prefix Reader.maxNesting {} tokens
  have htake := List.prefix_iff_eq_take.1 hprefix
  obtain ⟨t, hlast, hline⟩ := exists_lastConsumed hread
  rw [Reader.lastConsumed_eq] at hlast
  refine ⟨_, hprefix.length_le, Reader.got_of_readFrom hread, ?_, ?_, ?_, fun hlen rest => ?_⟩
  · rw [hlast]
    exact hline.symm
  · rw [← htake]
    exact Reader.exists_grammatical_consumed hread
  · exact Reader.not_grammatical_of_agree hread rfl
  · refine Reader.not_grammatical_of_agree hread ?_
    rw [List.take_append_of_le_length (by simp [hlen]), List.take_take, Nat.min_self]

/-- Declaring takes a name and `=`: with `y` after the name, the word `let` is refused already, on
the line of the brace before it. -/
theorem parse_expected_declaration :
    let x : Token := ⟨⟨2, some "x"⟩, .identifier⟩
    let y : Token := ⟨⟨3, some "y"⟩, .identifier⟩
    let tokens : List Token := [⟨⟨1, none⟩, .leftBrace⟩, ⟨⟨2, none⟩, .letWord⟩, x, y]
    (parse { limit := 2000 } tokens).1 = .error (.grammar (.expected "`\x7d`" "`let`" 1)) ∧
    ∃ pos ≤ tokens.length,
      "`let`" = Token.describe tokens[pos]? ∧
      tokens[pos - 1]?.map (·.line) = some 1 ∧
      (∃ rest, Grammatical (tokens.take pos ++ rest)) ∧
      ¬ Grammatical tokens ∧
      (pos + 3 ≤ tokens.length → ∀ rest, ¬ Grammatical (tokens.take (pos + 3) ++ rest)) := by
  intro x y tokens
  have h : (parse { limit := 2000 } tokens).1 =
      .error (.grammar (.expected "`\x7d`" "`let`" 1)) := rfl
  exact ⟨h, parse_expected h⟩

end Kei

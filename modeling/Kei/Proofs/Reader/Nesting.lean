import Kei.Proofs.Reader.Rejection
import Kei.Syntax.Brackets

/-!
# The nesting limit

The reader counts what is open: its depth is the number of scopes and parenthesised terms that the
tokens read leave unclosed (`Run.unclosed_eq`), since every transition opens and closes what the
kind of its token says (`Step.brackets`). A run that stays within a limit is also made under that
limit (`Run.of_nesting_le`). So reading a token list under the limit follows the run that reads a
program with the same beginning under none, up to the first token that opens too much.
-/

namespace Kei

/-! ## Brackets of sentences -/

namespace Brackets

@[simp] theorem after_nil (b : Brackets) : b.after [] = b := rfl

@[simp] theorem after_cons (b : Brackets) (kind : Kind) (kinds : List Kind) :
    b.after (kind :: kinds) = (b.next kind).after kinds := rfl

@[simp] theorem after_append (b : Brackets) (kinds rest : List Kind) :
    b.after (kinds ++ rest) = (b.after kinds).after rest :=
  List.foldl_append

theorem next_operator (b : Brackets) (op : Op) : b.next op.kind = { b with headed := false } := by
  cases op <;> rfl

/-- One token opens one bracket at most. -/
theorem nesting_next_le (b : Brackets) (kind : Kind) : (b.next kind).nesting ≤ b.nesting + 1 := by
  have hcons (x : Bracket) (l : List Bracket) :
      (x :: l).countP (· ≠ .head) ≤ l.countP (· ≠ .head) + 1 := by
    rw [List.countP_cons]
    split <;> omega
  have htail (l : List Bracket) : l.tail.countP (· ≠ .head) ≤ l.countP (· ≠ .head) + 1 := by
    have := (List.tail_sublist l).countP_le (p := fun x => x ≠ .head)
    omega
  cases kind with
  | leftBrace | leftParen => exact hcons _ _
  | rightBrace | rightParen => exact htail _
  | _ => exact Nat.le_succ _

end Brackets

/-- Whatever the rules derive closes all brackets that it opens. -/
theorem Derives.after_eq {c : Category} {n : Nat} {w : List Symbol} (h : Derives c n w)
    (b : Brackets) (hb : b.headed = false) : b.after (w.map Prod.fst) = b := by
  induction h generalizing b with
  | done | stop | last => rfl
  | next _ _ ihs ihp => rw [List.map_append, Brackets.after_append, ihs b hb, ihp b hb]
  | exit _ ih => simp [Symbol.fixed, Brackets.next, ih, ← hb]
  | declare _ _ ih | assign _ _ ih => simp [Symbol.fixed, Brackets.next, ih, ← hb]
  | block _ ih => exact ih b hb
  | cond _ _ _ ihe ihs ihc | elif _ _ _ ihe ihs ihc =>
    simp [Symbol.fixed, Brackets.next, ihe, ihs, ihc, ← hb]
  | scope _ ih => simp [Symbol.fixed, Brackets.next, ih, ← hb]
  | paren _ ih =>
    obtain ⟨opened, headed⟩ := b
    obtain rfl : headed = false := hb
    simp [Symbol.fixed, Brackets.next, ih]
  | otherwise _ ih => simp [Symbol.fixed, Brackets.next, ih, ← hb]
  | expr _ _ iht iho => rw [List.map_append, Brackets.after_append, iht b hb, iho b hb]
  | operation op _ _ ihe iho =>
    simp [Symbol.fixed, Brackets.next_operator, ihe, iho, ← hb]
  | int _ | ident _ => simp [Brackets.next, ← hb]

namespace Reader

variable {limit limit' : Nat} {s s' s₁ s₂ : State} {t : Token} {ahead ahead' : List Token}

/-! ## Brackets of a state -/

/-- The parenthesis in front of an expression. -/
def Use.brackets : Use → List Bracket
  | .exit | .test _ => [.head]
  | .declare _ | .assign _ => []

/-- The brackets that are open where the state stands. -/
def State.brackets (s : State) : Brackets where
  opened :=
    match s.place with
    | .term use groups _ | .operator use groups _ _ =>
      List.replicate groups.length .term ++ (use.brackets ++ List.replicate s.levels.length .scope)
    | _ => List.replicate s.levels.length .scope
  headed :=
    match s.place with
    | .exitParen | .testParen _ => true
    | _ => false

theorem State.nesting_brackets (s : State) : s.brackets.nesting = s.depth := by
  have hscopes (k : Nat) : (List.replicate k Bracket.scope).countP (· ≠ .head) = k := by
    simp [List.countP_replicate]
  have hterms (k : Nat) : (List.replicate k Bracket.term).countP (· ≠ .head) = k := by
    simp [List.countP_replicate]
  have huse (use : Use) : use.brackets.countP (· ≠ .head) = 0 := by
    cases use <;> rfl
  obtain ⟨levels, done, place, nodes⟩ := s
  cases place with
  | term use groups waiting | operator use groups waiting e =>
    rw [Brackets.nesting, State.brackets, List.countP_append, List.countP_append, hterms, huse,
      hscopes, Nat.zero_add, Nat.add_comm]
    rfl
  | _ => exact hscopes _

theorem State.settle_brackets (s : State) (next : Option Kind) :
    (s.settle next).brackets = s.brackets := by
  obtain ⟨levels, done, place, nodes⟩ := s
  cases place with
  | chain newest older =>
    simp only [State.settle]
    split <;> rfl
  | _ => rfl

/-- Each transition opens and closes what the kind of the token says. -/
theorem Step.brackets (h : Step limit s t ahead s') : s'.brackets = s.brackets.next t.kind := by
  cases h with
  | operator hp ht => simp [State.brackets, hp, ht, Brackets.next_operator]
  | closeScope hp ht hl | closeBranch hp ht hl | closeOtherwise hp ht hl =>
    simp [State.brackets, hp, ht, hl, Brackets.next, List.replicate_succ]
  | integer hp ht | name hp ht | closeParen hp ht =>
    simp [State.brackets, State.operand, hp, ht, Brackets.next, List.replicate_succ]
  | endDeclare hp ht | endAssign hp ht | exitEnd hp ht =>
    simp [State.brackets, State.finish, hp, ht, Brackets.next, Use.brackets]
  | _ hp ht => simp [State.brackets, hp, ht, Brackets.next, Use.brackets, List.replicate_succ]

theorem State.Fits.depth_le {top : Nat} (h : s.Fits limit top) : s.depth ≤ limit := by
  obtain ⟨hlevels, -, hplace⟩ := h
  have hlength := hlevels.length_le
  unfold State.depth
  split
  · rename_i use groups waiting hp
    rw [hp] at hplace
    exact hplace.2.1.length_le hlength
  · rename_i use groups waiting e hp
    rw [hp] at hplace
    exact hplace.2.1.length_le hlength
  · exact hlength

/-! ## Runs -/

/-- `Run limit s read s' ahead`: from the state `s` the tokens `read` lead to `s'`, with the tokens
`ahead` after them. -/
inductive Run (limit : Nat) : State → List Token → State → List Token → Prop
  | refl {s : State} {ahead : List Token} : Run limit s [] s ahead
  | step {s s₁ s' : State} {t : Token} {read ahead : List Token} :
    Step limit (s.settle (some t.kind)) t (read ++ ahead) s₁ → Run limit s₁ read s' ahead →
    Run limit s (t :: read) s' ahead

namespace Run

variable {read rest : List Token}

theorem fits (h : Run limit s read s' ahead) (hs : s.Fits limit 2) : s'.Fits limit 2 := by
  induction h with
  | refl => exact hs
  | step hstep _ ih => exact ih (hstep.fits (hs.settle _))

theorem symbols (h : Run limit s read s' ahead) (hs : s.Fits limit 2) :
    s'.symbols = s.symbols ++ read.map Token.symbol := by
  induction h with
  | refl => simp
  | @step s s₁ s' t read ahead hstep _ ih =>
    have hf := hs.settle (some t.kind)
    rw [ih (hstep.fits hf), hstep.symbols hf, State.settle_symbols, List.append_assoc]
    rfl

theorem brackets (h : Run limit s read s' ahead) :
    s'.brackets = s.brackets.after (read.map (·.kind)) := by
  induction h with
  | refl => rfl
  | step hstep _ ih => rw [ih, hstep.brackets, State.settle_brackets, List.map_cons,
      Brackets.after_cons]

theorem split (h : Run limit s (read ++ rest) s' ahead) :
    ∃ s₁, Run limit s read s₁ (rest ++ ahead) ∧ Run limit s₁ rest s' ahead := by
  induction read generalizing s with
  | nil => exact ⟨s, .refl, h⟩
  | cons t read ih =>
    cases h with
    | step hstep hrun =>
      obtain ⟨s₁, hread, hrest⟩ := ih hrun
      refine ⟨s₁, .step ?_ hread, hrest⟩
      rw [← List.append_assoc]
      exact hstep

theorem snoc (h : Run limit s read s₁ (t :: ahead))
    (hstep : Step limit (s₁.settle (some t.kind)) t ahead s') :
    Run limit s (read ++ [t]) s' ahead := by
  generalize hrest : t :: ahead = rest at h
  induction h with
  | refl => exact .step hstep .refl
  | step hfirst _ ih =>
    subst hrest
    exact .step (by simpa using hfirst) (ih hstep rfl)

/-- The tokens of a run leave as many brackets unclosed as the state is deep. -/
theorem unclosed_eq (h : Run limit {} read s ahead) : unclosed read = s.depth := by
  rw [unclosed, ← State.nesting_brackets, h.brackets]
  rfl

theorem unclosed_le (h : Run limit {} read s ahead) : unclosed read ≤ limit := by
  rw [h.unclosed_eq]
  exact (h.fits (fits_initial limit)).depth_le

/-- What a run has read begins a program. -/
theorem exists_grammatical (h : Run limit {} read s ahead) :
    ∃ rest, Grammatical (read ++ rest) := by
  obtain ⟨b, rest, hb⟩ := s.exists_completion
  rw [h.symbols (fits_initial limit)] at hb
  exact exists_grammatical_of_symbols hb

end Run

/-- A program that is read is read by a run over all its tokens. -/
theorem exists_run_of_ok {line : Nat} {tokens : List Token} {program : Block}
    (h : (readFrom limit s line tokens).result = .ok program) :
    ∃ s', Run limit s tokens s' [] := by
  induction tokens generalizing s line with
  | nil => exact ⟨s, .refl⟩
  | cons t rest ih =>
    rw [readFrom] at h
    split at h
    · rename_i s₁ hmove
      obtain ⟨s', hrun⟩ := ih h
      exact ⟨s', .step (by simpa using State.step_of_move hmove) hrun⟩
    · cases h
    · cases h

/-- Nesting is too deep where a run meets a token that opens too much. -/
theorem readFrom_eq_nestingTooDeep {line n k : Nat} {tokens : List Token} :
    (readFrom limit s line tokens).result = .error (.nestingTooDeep n k) ↔
      ∃ read t rest s', tokens = read ++ t :: rest ∧ Run limit s read s' (t :: rest) ∧
        (s'.settle (some t.kind)).move limit t rest = .tooDeep ∧ limit = n ∧ t.line = k := by
  constructor
  · intro h
    induction tokens generalizing s line with
    | nil =>
      simp only [readFrom] at h
      split at h <;> cases h
    | cons t tokens ih =>
      rw [readFrom] at h
      split at h
      · rename_i s₁ hmove
        obtain ⟨read, u, rest, s', rfl, hrun, hdeep, hn, hk⟩ := ih h
        exact ⟨t :: read, u, rest, s', rfl, .step (State.step_of_move hmove) hrun, hdeep, hn, hk⟩
      · cases h
      · rename_i hmove
        cases h
        exact ⟨[], t, tokens, s, rfl, .refl, hmove, rfl, rfl⟩
  · rintro ⟨read, t, rest, s', rfl, hrun, hdeep, rfl, rfl⟩
    generalize hahead : t :: rest = ahead at hrun
    induction hrun generalizing line with
    | refl =>
      subst hahead
      rw [List.nil_append, readFrom, hdeep]
    | step hstep _ ih =>
      subst hahead
      rw [List.cons_append, readFrom, hstep.move]
      exact ih hdeep rfl

/-! ## Tokens that open too much -/

theorem State.closeBlock_ne_tooDeep (s : State) : s.closeBlock ≠ .tooDeep := by
  unfold State.closeBlock
  split
  · intro h
    cases h
  · split <;>
    · intro h
      cases h

theorem State.closeExpr_ne_tooDeep (s : State) (kind : Kind) (use : Use) (e : Expr) :
    s.closeExpr kind use e ≠ .tooDeep := by
  unfold State.closeExpr
  split <;>
  · intro h
    cases h

theorem State.le_depth_of_openBlock {role : Role} (h : s.openBlock limit role = .tooDeep) :
    limit ≤ s.depth := by
  unfold State.openBlock at h
  split at h
  · cases h
  · omega

/-- A token that opens too much opens a scope or a parenthesised term, and would be consumed if one
more were allowed. -/
theorem State.exists_step_of_tooDeep (h : s.move limit t ahead = .tooDeep) (hd : s.depth ≤ limit) :
    (t.kind = .leftBrace ∨ t.kind = .leftParen) ∧
      ∃ s', Step (limit + 1) s t ahead s' ∧ s'.depth = limit + 1 := by
  unfold State.move at h
  split at h
  case h_1 | h_2 | h_3 => split at h <;> cases h
  case h_4 hp ht =>
    have hdepth : s.depth = s.levels.length := by simp [State.depth, hp]
    have hle := State.le_depth_of_openBlock h
    refine ⟨.inl ht, _, .openScope hp ht (by omega), ?_⟩
    simp only [State.depth, List.length_cons]
    omega
  case h_6 => exact absurd h (State.closeBlock_ne_tooDeep s)
  case h_13 use groups waiting hp ht =>
    have hdepth : s.depth = s.levels.length + groups.length := by simp [State.depth, hp]
    split at h
    · cases h
    · refine ⟨.inr ht, _, .openParen hp ht (by omega), ?_⟩
      simp only [State.depth, List.length_cons]
      omega
  case h_14 =>
    split at h
    · cases h
    · exact absurd h (State.closeExpr_ne_tooDeep s _ _ _)
    · split at h <;> cases h
  case h_17 role hp ht =>
    have hdepth : s.depth = s.levels.length := by simp [State.depth, hp]
    have hle := State.le_depth_of_openBlock h
    refine ⟨.inl ht, _, .openBody hp ht (by omega), ?_⟩
    simp only [State.depth, List.length_cons]
    omega
  all_goals cases h

/-- A transition that opens something is too deep where the limit is reached. -/
theorem Step.move_tooDeep (h : Step limit' s t ahead s') (hlt : s.depth < s'.depth)
    (hd : limit ≤ s.depth) (ahead' : List Token) :
    s.move limit t ahead' = .tooDeep ∧ t.kind ≠ .identifier := by
  have hnot : ¬ s.depth < limit := Nat.not_lt.2 hd
  cases h with
  | openScope hp ht | openBody hp ht => simp [State.move, State.openBlock, hp, ht, hnot]
  | openParen hp ht => simp [State.move, hp, ht, hnot]
  | closeScope hp ht hl | closeBranch hp ht hl | closeOtherwise hp ht hl =>
    simp only [State.depth, hp, hl, List.length_cons] at hlt
    omega
  | integer hp | name hp | closeParen hp =>
    simp only [State.depth, State.operand, hp, List.length_cons] at hlt
    omega
  | endDeclare hp | endAssign hp | exitEnd hp => simp [State.depth, State.finish, hp] at hlt
  | _ hp => simp [State.depth, hp] at hlt

/-- A transition is made under a smaller limit too, as long as it stays within that limit. -/
theorem Step.move_of_depth_le (h : Step limit' s t ahead s') (hle : limit ≤ limit')
    (hs : s.depth ≤ limit) (hs' : s'.depth ≤ limit) (hahead : AgreeAhead ahead ahead') :
    s.move limit t ahead' = .to s' := by
  have hmove : s.move limit' t ahead' = .to s' := by
    rw [State.move_of_agree (Nat.le_refl _) hahead (by simp [h.move]), h.move]
  by_cases hdeep : s.move limit t ahead' = .tooDeep
  · -- with one more allowed the transition would be made, and lead beyond the limit
    exfalso
    obtain ⟨-, s'', hstep, hdepth⟩ := State.exists_step_of_tooDeep hdeep hs
    have hmore := hstep.move
    rcases Nat.eq_or_lt_of_le hle with rfl | hlt
    · rw [hdeep] at hmove
      cases hmove
    · have hsame : s.move limit' t ahead' = s.move (limit + 1) t ahead' :=
        State.move_of_agree hlt (.of_take rfl) (by simp [hmore])
      rw [hmove, hmore] at hsame
      cases hsame
      omega
  · rw [← State.move_of_agree hle (.of_take rfl) hdeep]
    exact hmove

/-! ## Runs under two limits -/

theorem agreeAhead_append (read : List Token) (ht : t.kind ≠ .identifier) :
    AgreeAhead (read ++ t :: ahead) (read ++ t :: ahead') := by
  rcases read with _ | ⟨u, _ | ⟨v, read⟩⟩
  · exact ⟨rfl, by simp [ht]⟩
  · exact .of_take rfl
  · exact .of_take rfl

/-- A run up to a token that no name is is made under a smaller limit too, as long as it stays
within that limit. -/
theorem Run.of_nesting_le {read : List Token} (h : Run limit' s read s' (t :: ahead))
    (hle : limit ≤ limit') (ht : t.kind ≠ .identifier)
    (hdepth : ∀ n, (s.brackets.after ((read.take n).map (·.kind))).nesting ≤ limit) :
    Run limit s read s' (t :: ahead') := by
  generalize hrest : t :: ahead = rest at h
  induction h with
  | refl => exact .refl
  | @step s s₁ s' u read rest hstep _ ih =>
    subst hrest
    have hbrackets : s₁.brackets = s.brackets.next u.kind := by
      rw [hstep.brackets, State.settle_brackets]
    have hs : (s.settle (some u.kind)).depth ≤ limit := by
      rw [← State.nesting_brackets, State.settle_brackets]
      exact hdepth 0
    have hs₁ : s₁.depth ≤ limit := by
      rw [← State.nesting_brackets, hbrackets]
      exact hdepth 1
    have hmove : (s.settle (some u.kind)).move limit u (read ++ t :: ahead') = .to s₁ :=
      hstep.move_of_depth_le hle hs hs₁ (agreeAhead_append read ht)
    refine .step (State.step_of_move hmove) (ih ?_ rfl)
    intro n
    rw [hbrackets]
    exact hdepth (n + 1)

theorem Run.mono {read : List Token} (h : Run limit s read s' ahead) (hle : limit ≤ limit') :
    Run limit' s read s' ahead := by
  induction h with
  | refl => exact .refl
  | @step s s₁ s' t read ahead hstep _ ih =>
    have hmove : (s.settle (some t.kind)).move limit' t (read ++ ahead) = .to s₁ := by
      rw [State.move_of_agree hle (.of_take rfl) (by simp [hstep.move]), hstep.move]
    exact .step (State.step_of_move hmove) ih

/-- Nesting grows by one at a time, so there is a first token with which it exceeds a bound. -/
theorem exists_first_deeper (b : Brackets) (tokens : List Token) (hb : b.nesting ≤ limit)
    (h : limit < (b.after (tokens.map (·.kind))).nesting) :
    ∃ read t rest, tokens = read ++ t :: rest ∧
      (b.after ((read ++ [t]).map (·.kind))).nesting = limit + 1 ∧
      ∀ n, (b.after ((read.take n).map (·.kind))).nesting ≤ limit := by
  induction tokens generalizing b with
  | nil => exact absurd h (Nat.not_lt.2 hb)
  | cons t tokens ih =>
    by_cases hnext : (b.next t.kind).nesting ≤ limit
    · obtain ⟨read, u, rest, rfl, hfirst, hbefore⟩ := ih (b.next t.kind) hnext h
      refine ⟨t :: read, u, rest, rfl, hfirst, fun n => ?_⟩
      cases n with
      | zero => exact hb
      | succ n => exact hbefore n
    · refine ⟨[], t, tokens, rfl, ?_, fun n => by simpa using hb⟩
      have hle := b.nesting_next_le t.kind
      show (b.next t.kind).nesting = limit + 1
      omega

/-- Tokens that begin a program and leave too much unclosed are too deep, whatever follows. -/
theorem exists_nestingTooDeep {tokens rest : List Token} {n : Nat} (line : Nat)
    (hgram : Grammatical (tokens.take n ++ rest)) (hdeep : limit < unclosed (tokens.take n)) :
    ∃ k, (readFrom limit {} line tokens).result = .error (.nestingTooDeep limit k) := by
  obtain ⟨read, t, post, htake, hfirst, hbefore⟩ :=
    exists_first_deeper {} (tokens.take n) (Nat.zero_le _) hdeep
  obtain ⟨limit', program, hle, hok⟩ := exists_readFrom_of_grammatical hgram limit line
  obtain ⟨s', hrun⟩ := exists_run_of_ok hok
  rw [htake, List.append_assoc, List.cons_append] at hrun
  obtain ⟨s₁, hread, hrest⟩ := hrun.split
  rw [List.append_nil] at hread
  cases hrest with
  | @step _ s₂ _ _ _ _ hstep _ =>
    have hdepth₁ : (s₁.settle (some t.kind)).depth = unclosed read := by
      rw [← State.nesting_brackets, State.settle_brackets, State.nesting_brackets,
        hread.unclosed_eq]
    have hdepth₂ : s₂.depth = limit + 1 := by
      rw [← State.nesting_brackets, hstep.brackets, State.settle_brackets, hread.brackets, ← hfirst,
        List.map_append, Brackets.after_append]
      rfl
    have hle₁ : unclosed read ≤ limit := by
      have hall := hbefore read.length
      rwa [List.take_length] at hall
    have hge₁ : s₂.depth ≤ (s₁.settle (some t.kind)).depth + 1 := by
      rw [← State.nesting_brackets, ← State.nesting_brackets, hstep.brackets]
      exact Brackets.nesting_next_le _ _
    have hreached : limit ≤ (s₁.settle (some t.kind)).depth := by omega
    obtain ⟨hmove, ht⟩ := hstep.move_tooDeep (by omega) hreached (post ++ tokens.drop n)
    have hrun₁ : Run limit {} read s₁ (t :: (post ++ tokens.drop n)) :=
      hread.of_nesting_le hle ht hbefore
    refine ⟨t.line, readFrom_eq_nestingTooDeep.2 ⟨read, t, _, s₁, ?_, hrun₁, hmove, rfl, rfl⟩⟩
    rw [← List.cons_append, ← List.append_assoc, ← htake, List.take_append_drop]

/-- Where nesting is too deep, the token at fault opens a scope or a parenthesised term. It is the
first one to leave more than the limit unclosed, and the tokens up to it begin a program. -/
theorem of_nestingTooDeep {tokens : List Token} {line n k : Nat}
    (h : (readFrom limit {} line tokens).result = .error (.nestingTooDeep n k)) :
    n = limit ∧ ∃ read t rest, tokens = read ++ t :: rest ∧ t.line = k ∧
      (t.kind = .leftBrace ∨ t.kind = .leftParen) ∧ unclosed (read ++ [t]) = limit + 1 ∧
      (∀ i, unclosed (read.take i) ≤ limit) ∧ ∃ rest, Grammatical (read ++ [t] ++ rest) := by
  obtain ⟨read, t, rest, s, rfl, hrun, hdeep, rfl, rfl⟩ := readFrom_eq_nestingTooDeep.1 h
  have hfits := (hrun.fits (fits_initial limit)).settle (some t.kind)
  obtain ⟨hopen, s', hstep, hdepth⟩ := State.exists_step_of_tooDeep hdeep hfits.depth_le
  have hall : Run (limit + 1) {} (read ++ [t]) s' rest :=
    (hrun.mono (Nat.le_succ limit)).snoc hstep
  refine ⟨rfl, read, t, rest, rfl, rfl, hopen, ?_, fun i => ?_, hall.exists_grammatical⟩
  · rw [hall.unclosed_eq, hdepth]
  · rw [← List.take_append_drop i read] at hrun
    obtain ⟨s₁, hbefore, -⟩ := hrun.split
    exact hbefore.unclosed_le

end Reader

/-! ## The limit -/

/-- With memory enough, parsing is reading. -/
theorem parse_fst_of_ne_memory {arena : Arena} {tokens : List Token}
    (h : ∀ refusal, (parse arena tokens).1 ≠ .error (.memory refusal)) :
    (parse arena tokens).1 = (Reader.read tokens).result.mapError .grammar := by
  rw [parse_fst] at h ⊢
  cases hserve : (arena.serve (Reader.read tokens).requests).1 with
  | none => rfl
  | some refusal => exact absurd (by rw [hserve]) (h refusal)

/-- With memory enough, nesting is too deep exactly when some of the first tokens begin a program
and leave 257 scopes and parenthesised terms unclosed. It is reported on the line of the token that
opens the 257th of them first. What the grammar derives leaves nothing unclosed, however long it is,
so only what is still open counts. -/
theorem parse_nestingTooDeep {arena : Arena} {tokens : List Token}
    (hroom : ∀ refusal, (parse arena tokens).1 ≠ .error (.memory refusal)) :
    ((∃ line, (parse arena tokens).1 = .error (.grammar (.nestingTooDeep 256 line))) ↔
      ∃ n, (∃ rest, Grammatical (tokens.take n ++ rest)) ∧ unclosed (tokens.take n) = 257) ∧
    (∀ limit line, (parse arena tokens).1 = .error (.grammar (.nestingTooDeep limit line)) →
      limit = 256 ∧ ∃ pos t, tokens[pos]? = some t ∧ t.line = line ∧
        (t.kind = .leftBrace ∨ t.kind = .leftParen) ∧ unclosed (tokens.take (pos + 1)) = 257 ∧
        ∀ n ≤ pos, unclosed (tokens.take n) < 257) ∧
    ∀ (c : Category) (n : Nat) (w : List Symbol), Derives c n w →
      ∀ b : Brackets, b.headed = false → b.after (w.map Prod.fst) = b := by
  have hparse : ∀ limit line,
      (parse arena tokens).1 = .error (.grammar (.nestingTooDeep limit line)) ↔
        (Reader.read tokens).result = .error (.nestingTooDeep limit line) := by
    intro limit line
    rw [parse_fst_of_ne_memory hroom]
    cases (Reader.read tokens).result <;> simp
  refine ⟨⟨?_, ?_⟩, ?_, fun c n w h b hb => h.after_eq b hb⟩
  · rintro ⟨line, h⟩
    obtain ⟨-, read, t, rest, htokens, -, -, hdeep, -, hgram⟩ :=
      Reader.of_nestingTooDeep ((hparse _ _).1 h)
    have htake : tokens.take (read.length + 1) = read ++ [t] := by
      rw [htokens, List.append_cons, List.take_left' (by simp)]
    exact ⟨read.length + 1, by rw [htake]; exact hgram, by rw [htake]; exact hdeep⟩
  · rintro ⟨n, ⟨rest, hgram⟩, hdeep⟩
    have hlt : Reader.maxNesting < unclosed (tokens.take n) := by
      rw [hdeep]
      decide
    obtain ⟨line, h⟩ := Reader.exists_nestingTooDeep (Reader.firstLine tokens) hgram hlt
    exact ⟨line, (hparse _ _).2 h⟩
  · intro limit line h
    obtain ⟨hlimit, read, t, rest, htokens, hline, hopen, hdeep, hbefore, -⟩ :=
      Reader.of_nestingTooDeep ((hparse _ _).1 h)
    refine ⟨hlimit, read.length, t, ?_, hline, hopen, ?_, fun n hn => ?_⟩
    · rw [htokens]
      simp
    · rw [htokens, List.append_cons, List.take_left' (by simp)]
      exact hdeep
    · rw [htokens, List.take_append_of_le_length hn]
      exact Nat.lt_succ_of_le (hbefore n)

/-- A block of 257 scopes, the innermost of which is opened on line 257. -/
def deepScopes : List Token :=
  (List.range' 1 257).map fun line => { kind := .leftBrace, line }

theorem parse_nestingTooDeep_deepScopes :
    (∀ refusal, (parse { limit := 448 } deepScopes).1 ≠ .error (.memory refusal)) ∧
      (parse { limit := 448 } deepScopes).1 = .error (.grammar (.nestingTooDeep 256 257)) ∧
      ∃ n, (∃ rest, Grammatical (deepScopes.take n ++ rest)) ∧
        unclosed (deepScopes.take n) = 257 := by
  have hdeep : (parse { limit := 448 } deepScopes).1 =
      .error (.grammar (.nestingTooDeep 256 257)) := rfl
  have hroom : ∀ refusal, (parse { limit := 448 } deepScopes).1 ≠ .error (.memory refusal) := by
    intro refusal h
    rw [hdeep] at h
    cases h
  exact ⟨hroom, hdeep, (parse_nestingTooDeep hroom).1.1 ⟨257, hdeep⟩⟩

end Kei

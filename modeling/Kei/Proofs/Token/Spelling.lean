import Kei.Proofs.Token.Scanning

/-!
# Scanning what is laid out

The scanner passes every piece and every lexeme that fits before the text after it
(`Token.Passes.scanFrom`), so it walks through a layout gap by gap and lexeme by lexeme. The tokens
it finds are those laid out, on the lines they are laid out on; what the gaps hold shows in the
lines only.
-/

namespace Kei

/-! ## Runs of characters -/

theorem takeWhile_append_of_ends {p : Char → Bool} {cs after : List Char} (h : ∀ c ∈ cs, p c)
    (ha : Ends p after) : (cs ++ after).takeWhile p = cs := by
  have hstop : after.takeWhile p = [] := by
    cases after with
    | nil => rfl
    | cons c after => rw [List.takeWhile_cons, if_neg (by simp [ha c rfl])]
  rw [List.takeWhile_append_of_pos h, hstop, List.append_nil]

theorem dropWhile_append_of_ends {p : Char → Bool} {cs after : List Char} (h : ∀ c ∈ cs, p c)
    (ha : Ends p after) : (cs ++ after).dropWhile p = after := by
  rw [List.dropWhile_append_of_pos h]
  cases after with
  | nil => rfl
  | cons c after => rw [List.dropWhile_cons, if_neg (by simp [ha c rfl])]

theorem isDigit_iff {c : Char} : c.isDigit ↔ 48 ≤ c.toNat ∧ c.toNat ≤ 57 := by
  simp [Char.isDigit, UInt32.le_iff_toNat_le]

theorem isAlpha_iff {c : Char} :
    c.isAlpha ↔ 65 ≤ c.toNat ∧ c.toNat ≤ 90 ∨ 97 ≤ c.toNat ∧ c.toNat ≤ 122 := by
  have hupper : c.isUpper = decide (c.val ≥ 65 ∧ c.val ≤ 90) := rfl
  have hlower : c.isLower = (decide (c.val ≥ 97) && decide (c.val ≤ 122)) := rfl
  have halpha : c.isAlpha = (c.isUpper || c.isLower) := rfl
  simp [halpha, hupper, hlower, UInt32.le_iff_toNat_le]

theorem isWhite_of_isAlphanum {c : Char} (h : c.isAlphanum) : Text.isWhite c = false := by
  simp only [Char.isAlphanum, Bool.or_eq_true, isAlpha_iff, isDigit_iff] at h
  simp only [Text.isWhite, UInt32.le_iff_toNat_le, UInt32.reduceToNat, Char.toNat_val,
    Bool.or_eq_false_iff, Bool.and_eq_false_imp, decide_eq_true_eq, decide_eq_false_iff_not,
    beq_eq_false_iff_ne, ne_eq, ← UInt32.toNat_inj]
  omega

theorem isAlpha_of_isDigit {c : Char} (h : c.isDigit) : c.isAlpha = false := by
  rw [isDigit_iff] at h
  rw [← Bool.not_eq_true, isAlpha_iff]
  omega

/-! ## Comments -/

/-- A star before the closer of a comment does not close it earlier. -/
theorem closer_infix_append_star {body : List Char} :
    ['*', '/'] <:+: body ++ ['*'] ↔ ['*', '/'] <:+: body := by
  rw [List.infix_concat_iff]
  refine ⟨fun h => h.resolve_left fun hsuffix => ?_, .inr⟩
  rcases List.suffix_concat_iff.1 hsuffix with h | ⟨t, h, -⟩
  · cases h
  · have hlast := congrArg List.getLast? h
    simp at hlast

namespace Token

/-- A block comment is left behind its first closer. -/
theorem leaveComment_closed (line : Nat) {body : List Char} (h : ¬ ['*', '/'] <:+: body)
    (after : List Char) :
    leaveComment line (body ++ '*' :: '/' :: after) = (line + body.count '\n', after) := by
  induction body generalizing line with
  | nil => simp [leaveComment]
  | cons c body ih =>
    have hbody : ¬ ['*', '/'] <:+: body := fun hb => h (List.infix_cons hb)
    -- a closer at `c` would lie in the body: what follows the body begins with a star
    have hfirst : ∀ rest, c = '*' → body ++ '*' :: '/' :: after = '/' :: rest → False := by
      rintro rest rfl hrest
      cases body with
      | nil => simp at hrest
      | cons d body =>
        obtain ⟨rfl, -⟩ := List.cons.inj hrest
        exact h ⟨[], body, rfl⟩
    rw [List.cons_append, leaveComment.eq_3 _ _ _ hfirst, ih _ hbody, List.count_cons]
    by_cases hc : c = '\n'
    · simp [hc]
      omega
    · simp [hc]

/-- A block comment without a closer is left at the end of the text. -/
theorem leaveComment_open (line : Nat) {body : List Char} (h : ¬ ['*', '/'] <:+: body) :
    leaveComment line body = (line + body.count '\n', []) := by
  rcases leaveComment_eq line body with ⟨inner, hbody, -⟩ | ⟨hrest, -, hline⟩
  · refine absurd ⟨inner, (leaveComment line body).2, ?_⟩ h
    rw [List.append_assoc]
    exact hbody.symm
  · exact Prod.ext hline hrest

/-! ## Steps -/

theorem step_slash (line : Nat) (cs : List Char) :
    step line '/' cs =
      match cs with
      | '/' :: cs => .ok ⟨none, line, cs.dropWhile (· ≠ '\n')⟩
      | '*' :: cs => .ok ⟨none, (leaveComment line cs).1, (leaveComment line cs).2⟩
      | cs => .ok ⟨some { kind := .slash, line }, line, cs⟩ := by
  rfl

theorem step_white {line : Nat} {c : Char} {cs : List Char} (h : Text.isWhite c) :
    step line c cs = .ok ⟨none, line + [c].count '\n', cs⟩ := by
  unfold step
  rw [if_pos h, List.count_singleton]
  by_cases hn : c = '\n'
  · subst hn
    rfl
  · simp [hn]

/-- A piece of a gap is passed as a whole. -/
theorem step_piece {line : Nat} {c : Char} {cs after : List Char} {p : Piece}
    (htext : c :: cs = p.text ++ after) (hp : p.Fits after) :
    step line c cs = .ok ⟨none, line + p.text.count '\n', after⟩ := by
  cases p with
  | white d =>
    simp only [Piece.text, List.cons_append, List.nil_append, List.cons.injEq] at htext
    obtain ⟨rfl, rfl⟩ := htext
    exact step_white hp
  | lineComment body =>
    simp only [Piece.text, List.cons_append, List.cons.injEq] at htext
    obtain ⟨rfl, rfl⟩ := htext
    obtain ⟨hbody, hafter⟩ := hp
    have hcount : (Piece.lineComment body).text.count '\n' = 0 := by
      simpa [Piece.text, List.count_eq_zero] using hbody
    have hne : ∀ d ∈ body, decide (d ≠ '\n') := by
      intro d hd
      simpa using ne_of_mem_of_not_mem hd hbody
    rw [hcount]
    simp only [step_slash, dropWhile_append_of_ends hne hafter, Nat.add_zero]
  | blockComment body =>
    simp only [Piece.text, List.cons_append, List.append_assoc, List.nil_append,
      List.cons.injEq] at htext
    obtain ⟨rfl, rfl⟩ := htext
    have hclosed := leaveComment_closed line (fun h => hp (closer_infix_append_star.2 h)) after
    simp [step_slash, hclosed, Piece.text]
  | openComment body =>
    simp only [Piece.text, List.cons_append, List.cons.injEq] at htext
    obtain ⟨rfl, rfl⟩ := htext
    obtain ⟨hbody, rfl⟩ := hp
    simp [step_slash, leaveComment_open line hbody, Piece.text]

/-- A maximal run of letters and digits is passed as the token of its word. -/
theorem step_word {line : Nat} {c : Char} {cs after : List Char} (hc : c.isAlpha)
    (hcs : ∀ d ∈ cs, d.isAlphanum) (ha : Ends Char.isAlphanum after) :
    step line c (cs ++ after) =
      .ok ⟨some (ofWord line (String.ofList (c :: cs))), line, after⟩ := by
  have hwhite : Text.isWhite c = false := isWhite_of_isAlphanum (by simp [Char.isAlphanum, hc])
  unfold step
  rw [if_neg (by simp [hwhite]), if_pos hc, takeWhile_append_of_ends hcs ha,
    dropWhile_append_of_ends hcs ha]

theorem step_number {line : Nat} {c : Char} {cs after : List Char}
    (hdigits : ∀ d ∈ c :: cs, d.isDigit) (hlt : Text.numeralValue (c :: cs) < 1 <<< 63)
    (ha : Ends Char.isDigit after) :
    let text := String.ofList (c :: cs)
    step line c (cs ++ after) =
      .ok ⟨some { kind := .integer, line, text := some text }, line, after⟩ := by
  obtain ⟨hc, hcs⟩ := List.forall_mem_cons.1 hdigits
  have hwhite : Text.isWhite c = false := isWhite_of_isAlphanum (by simp [Char.isAlphanum, hc])
  have hn := Text.numeral?_eq_some_iff.2 ⟨List.cons_ne_nil c cs, hdigits, rfl, hlt⟩
  unfold step
  rw [if_neg (by simp [hwhite]), if_neg (by simp [isAlpha_of_isDigit hc]), if_pos hc,
    takeWhile_append_of_ends hcs ha, dropWhile_append_of_ends hcs ha]
  simp only [hn]

/-- A punctuator is passed whatever follows it. -/
theorem step_punctuator {line : Nat} {c : Char} {k : Kind} (h : (c, k) ∈ Kind.punctuators)
    (after : List Char) : step line c after = .ok ⟨some { kind := k, line }, line, after⟩ := by
  simp only [Kind.punctuators, List.mem_cons, Prod.mk.injEq, List.not_mem_nil, or_false] at h
  rcases h with ⟨rfl, rfl⟩ | ⟨rfl, rfl⟩ | ⟨rfl, rfl⟩ | ⟨rfl, rfl⟩ | ⟨rfl, rfl⟩ | ⟨rfl, rfl⟩ |
    ⟨rfl, rfl⟩ | ⟨rfl, rfl⟩ | ⟨rfl, rfl⟩ <;> rfl

theorem ofWord_keyword {w : String} {k : Kind} (h : (w, k) ∈ Kind.keywords) (line : Nat) :
    ofWord line w = { kind := k, line } := by
  simp only [Kind.keywords, List.mem_cons, Prod.mk.injEq, List.not_mem_nil, or_false] at h
  rcases h with ⟨rfl, rfl⟩ | ⟨rfl, rfl⟩ | ⟨rfl, rfl⟩ | ⟨rfl, rfl⟩ | ⟨rfl, rfl⟩ <;> rfl

theorem ofWord_identifier {w : String} (h : w ∉ Kind.reserved.map Kind.spelling) (line : Nat) :
    ofWord line w = { kind := .identifier, line, text := some w } := by
  rw [← Kind.map_fst_keywords] at h
  have hnone : Kind.keywords.lookup w = none := by
    refine List.lookup_eq_none_iff.2 fun p hp => ?_
    have hne : w ≠ p.1 := fun hw => h (List.mem_map.2 ⟨p, hp, hw.symm⟩)
    simpa using hne
  rw [ofWord, hnone]

/-- A keyword is a letter and then letters. -/
theorem Kind.toList_of_mem_keywords {w : String} {k : Kind} (h : (w, k) ∈ Kind.keywords) :
    ∃ c cs, w.toList = c :: cs ∧ c.isAlpha ∧ ∀ d ∈ cs, d.isAlphanum := by
  simp only [Kind.keywords, List.mem_cons, Prod.mk.injEq, List.not_mem_nil, or_false] at h
  rcases h with ⟨rfl, rfl⟩ | ⟨rfl, rfl⟩ | ⟨rfl, rfl⟩ | ⟨rfl, rfl⟩ | ⟨rfl, rfl⟩ <;>
    exact ⟨_, _, rfl, rfl, List.all_eq_true.1 rfl⟩

theorem step_keyword {line : Nat} {c : Char} {cs after : List Char} {w : String} {k : Kind}
    (h : (w, k) ∈ Kind.keywords) (htext : c :: cs = w.toList ++ after)
    (ha : Ends Char.isAlphanum after) :
    step line c cs = .ok ⟨some { kind := k, line }, line, after⟩ := by
  obtain ⟨d, ds, hw, hd, hds⟩ := Kind.toList_of_mem_keywords h
  rw [hw, List.cons_append, List.cons.injEq] at htext
  obtain ⟨rfl, rfl⟩ := htext
  rw [step_word hd hds ha, ← hw, String.ofList_toList, ofWord_keyword h]

/-- A lexeme is passed as a whole. -/
theorem step_lexeme {c : Char} {cs after : List Char} {t : Token}
    (htext : c :: cs = t.written ++ after) (ht : t.Fits after) :
    step t.line c cs = .ok ⟨some t, t.line, after⟩ := by
  obtain ⟨⟨line, text⟩, kind⟩ := t
  cases kind with
  | identifier =>
    obtain ⟨d, ds, rfl, hd, hds, hword, ha⟩ := ht
    obtain ⟨rfl, rfl⟩ : c = d ∧ cs = ds ++ after := by
      simpa [written, Lexeme.spelling] using htext
    rw [step_word hd hds ha, ofWord_identifier hword]
  | integer =>
    obtain ⟨ds, rfl, hne, hds, hlt, ha⟩ := ht
    obtain ⟨d, ds, rfl⟩ := List.exists_cons_of_ne_nil hne
    obtain ⟨rfl, rfl⟩ : c = d ∧ cs = ds ++ after := by
      simpa [written, Lexeme.spelling] using htext
    exact step_number hds hlt ha
  | exitWord | letWord | ifWord | elifWord | elseWord =>
    obtain ⟨rfl, ha⟩ := ht
    exact step_keyword (by simp [Kind.keywords, Kind.spelling]) htext ha
  | slash =>
    obtain ⟨rfl, ha⟩ := ht
    obtain ⟨rfl, rfl⟩ : c = '/' ∧ cs = after := by simpa [written, Kind.spelling] using htext
    cases cs with
    | nil => rfl
    | cons d cs =>
      have hd := ha d rfl
      simp only [Bool.or_eq_false_iff, decide_eq_false_iff_not] at hd
      rw [step_slash]
      split <;> simp_all
  | _ =>
    obtain rfl : text = none := ht
    obtain ⟨rfl, rfl⟩ : c = _ ∧ cs = after := by simpa [written, Kind.spelling] using htext
    exact step_punctuator (by simp [Kind.punctuators]) _

/-- Nothing is passed at the end of a text. -/
theorem Passes.ne_nil {line : Nat} {text : List Char} {s : Step} (h : Passes line text s) :
    text ≠ [] := by
  rintro rfl
  cases h with
  | piece p htext hp => cases p <;> simp [Piece.text] at htext
  | lexeme t htext ht hline =>
    obtain ⟨⟨line, text⟩, kind⟩ := t
    cases kind with
    | identifier =>
      obtain ⟨d, ds, rfl, -⟩ := ht
      simp [written, Lexeme.spelling] at htext
    | integer =>
      obtain ⟨ds, rfl, hne, -⟩ := ht
      simp [written, Lexeme.spelling, hne] at htext
    | _ => simp [written, Kind.spelling] at htext

/-- Scanning goes on behind what fits. -/
theorem Passes.scanFrom {line : Nat} {text : List Char} {s : Step} (h : Passes line text s)
    (read : List Token) :
    Token.scanFrom read line text = Token.scanFrom (s.token.toList ++ read) s.line s.rest := by
  cases text with
  | nil => exact absurd rfl h.ne_nil
  | cons c cs =>
    have hstep : step line c cs = .ok s := by
      cases h with
      | piece p htext hp => exact step_piece htext hp
      | lexeme t htext ht hline =>
        subst hline
        exact step_lexeme htext ht
    -- not by the equations of `scanFrom`, which take long to derive
    rw [Token.scanFrom.eq_def]
    dsimp only
    split <;> simp_all

end Token

/-! ## Layouts -/

theorem Gap.scanFrom {g : Gap} {after : List Char} (h : g.Fits after) (read : List Token)
    (line : Nat) :
    Token.scanFrom read line (g.text ++ after) =
      Token.scanFrom read (line + g.text.count '\n') after := by
  induction g generalizing line with
  | nil => simp [Gap.text]
  | cons p g ih =>
    obtain ⟨hp, hg⟩ := h
    have hpass : Token.Passes line (p.text ++ (Gap.text g ++ after)) _ := .piece p rfl hp
    have htext : Gap.text (p :: g) = p.text ++ Gap.text g := by simp [Gap.text]
    rw [htext, List.append_assoc, hpass.scanFrom, List.count_append, ← Nat.add_assoc]
    exact ih hg _

/-- What a token says wherever it stands. -/
def Token.content (t : Token) : Kind × Option String :=
  (t.kind, t.text)

namespace Layout

/-- The tokens laid out, on the lines they are laid out on. -/
def tokensFrom (line : Nat) : List (Token × Gap) → List Token
  | [] => []
  | (t, g) :: rest => { t with line } :: tokensFrom (line + (Gap.text g).count '\n') rest

theorem scanFrom_textOf {lexemes : List (Token × Gap)} (h : FitsAll [] lexemes)
    (read : List Token) (line : Nat) :
    Token.scanFrom read line (textOf lexemes) = .ok (read.reverse ++ tokensFrom line lexemes) := by
  induction lexemes generalizing read line with
  | nil => simp [textOf, tokensFrom, Token.scanFrom.eq_def]
  | cons p rest ih =>
    obtain ⟨t, g⟩ := p
    obtain ⟨ht, hg, hrest⟩ := h
    simp only [List.append_nil] at ht hg
    have hpass : Token.Passes line (t.written ++ (Gap.text g ++ textOf rest)) _ :=
      .lexeme { t with line } rfl ht rfl
    rw [textOf_cons, hpass.scanFrom, Gap.scanFrom hg, ih hrest, tokensFrom]
    simp

theorem map_content_tokensFrom (lexemes : List (Token × Gap)) (line : Nat) :
    (tokensFrom line lexemes).map Token.content = lexemes.map fun p => p.1.content := by
  induction lexemes generalizing line with
  | nil => rfl
  | cons p rest ih =>
    rw [tokensFrom, List.map_cons, List.map_cons, ih]
    rfl

/-- The line of a token counts the line feeds in front of it: there are none inside lexemes. -/
theorem getElem?_tokensFrom {before rest : List (Token × Gap)} {t : Token} {g : Gap}
    {after : List Char} (h : FitsAll after (before ++ (t, g) :: rest)) (line : Nat) :
    (tokensFrom line (before ++ (t, g) :: rest))[before.length]? =
      some { t with line := line + (textOf before).count '\n' } := by
  induction before generalizing line with
  | nil => rfl
  | cons p before ih =>
    obtain ⟨t', g'⟩ := p
    obtain ⟨ht, -, hrest⟩ := h
    rw [List.cons_append, tokensFrom, List.length_cons, List.getElem?_cons_succ, ih hrest,
      textOf_cons, List.count_append, List.count_append, List.count_eq_zero.2 ht.newline_not_mem,
      Nat.zero_add, Nat.add_assoc]

end Layout

/-- A text that is laid out is scanned, whatever its gaps hold: the tokens found have the kinds and
texts of those laid out, in order, and each has the line it is laid out on. -/
theorem tokenize_text {l : Layout} (h : l.Fits []) :
    ∃ tokens, tokenize (String.ofList l.text) = .ok tokens ∧
      tokens.map Token.content = l.tokens.map Token.content ∧
      ∀ before t g after, l.lexemes = before ++ (t, g) :: after →
        tokens[before.length]? =
          some { t with line := 1 + (Gap.text l.first ++ Layout.textOf before).count '\n' } := by
  obtain ⟨hgap, hall⟩ := h
  rw [List.append_nil] at hgap
  refine ⟨Layout.tokensFrom (1 + (Gap.text l.first).count '\n') l.lexemes, ?_, ?_, ?_⟩
  · rw [tokenize, Token.scan, String.toList_ofList, Layout.text, Gap.scanFrom hgap,
      Layout.scanFrom_textOf hall]
    rfl
  · rw [Layout.map_content_tokensFrom, Layout.tokens, List.map_map]
    rfl
  · intro before t g after hl
    rw [hl] at hall ⊢
    rw [Layout.getElem?_tokensFrom hall, List.count_append, Nat.add_assoc]

/-- Comments where one could be taken for something else. -/
def Layout.commented : Layout where
  first := [.blockComment []]
  lexemes :=
    [(⟨⟨0, some "x"⟩, .identifier⟩, [.lineComment ['/', '*'], .white '\n']),
      (⟨⟨0, none⟩, .slash⟩, [.white ' ', .blockComment ['/', '\n']]),
      (⟨⟨0, some "2"⟩, .integer⟩, [.openComment ['*']])]

theorem Layout.commented_fits : commented.Fits [] := by
  have hempty : ¬ ['*', '/'] <:+: ['*'] := by decide
  have hslash : ¬ ['*', '/'] <:+: ['/', '\n', '*'] := by decide
  refine ⟨⟨hempty, trivial⟩,
    ⟨'x', [], rfl, rfl, by simp, by decide, ?_⟩, ⟨⟨by decide, ?_⟩, rfl, trivial⟩,
    ⟨rfl, ?_⟩, ⟨rfl, hslash, trivial⟩,
    ⟨['2'], rfl, by simp, List.all_eq_true.1 rfl, by decide, ?_⟩,
    ⟨⟨hempty, rfl⟩, trivial⟩, trivial⟩ <;>
  · rintro _ ⟨⟩
    rfl

theorem tokenize_text_commented :
    Layout.commented.Fits [] ∧
      ∃ tokens, tokenize "/**/x///*\n/ /*/\n*/2/**" = .ok tokens ∧
        tokens[2]? = some { kind := .integer, line := 3, text := some "2" } := by
  obtain ⟨tokens, htokens, -, hline⟩ := tokenize_text Layout.commented_fits
  exact ⟨Layout.commented_fits, tokens, htokens, hline (Layout.commented.lexemes.take 2) _ _ [] rfl⟩

end Kei

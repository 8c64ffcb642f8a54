import Kei.Compile
import Kei.Proofs.Text.Numeral
import Kei.Token.Layout

/-!
# What scanning finds

A step of the scanner passes one piece of a gap or one lexeme (`Token.step_eq_ok`), or it stops at
something that is neither (`Token.step_eq_error`). Put together, a text that is scanned is laid out
as gaps and lexemes, each token with its line, and so is the text before a fault.
-/

namespace Kei

/-! ## Runs of characters -/

theorem ends_dropWhile (p : Char → Bool) (cs : List Char) : Ends p (cs.dropWhile p) := by
  induction cs with
  | nil => simp [Ends]
  | cons c cs ih =>
    rw [List.dropWhile_cons]
    split
    · exact ih
    · simpa [Ends] using ‹¬ p c = true›

theorem of_mem_takeWhile {p : Char → Bool} {cs : List Char} : ∀ c ∈ cs.takeWhile p, p c :=
  List.all_eq_true.1 List.all_takeWhile

/-! ## Comments -/

/-- Leaving a block comment stops after the first `*/`, or at the end of the text. -/
theorem Token.leaveComment_eq (line : Nat) (cs : List Char) :
    (∃ body, cs = body ++ '*' :: '/' :: (leaveComment line cs).2 ∧
        ¬ ['*', '/'] <:+: body ++ ['*'] ∧
        (leaveComment line cs).1 = line + body.count '\n') ∨
      (leaveComment line cs).2 = [] ∧ ¬ ['*', '/'] <:+: cs ∧
        (leaveComment line cs).1 = line + cs.count '\n' := by
  fun_induction leaveComment line cs with
  | case1 line => exact .inr ⟨rfl, by simp, rfl⟩
  | case2 line cs => exact .inl ⟨[], rfl, by simp [List.infix_cons_iff], rfl⟩
  | case3 line c cs hne ih =>
    -- `c` does not open a closer here, so the first closer is that of the rest
    have hcount (l : List Char) :
        (if c = '\n' then line + 1 else line) + l.count '\n' = line + (c :: l).count '\n' := by
      rw [List.count_cons]
      by_cases hc : c = '\n'
      · simp [hc]
        omega
      · simp [hc]
    have hfirst {l : List Char} (hl : ['*', '/'] <+: c :: l) : c = '*' ∧ l.head? = some '/' := by
      obtain ⟨l', hl⟩ := hl
      simp only [List.cons_append, List.nil_append, List.cons.injEq] at hl
      exact ⟨hl.1.symm, by simp [← hl.2]⟩
    have hno (hc : c = '*') (hh : cs.head? = some '/') : False := by
      cases cs with
      | nil => cases hh
      | cons d cs => cases hh; exact hne cs hc rfl
    rcases ih with ⟨body, hcs, hnone, hline⟩ | ⟨hrest, hnone, hline⟩
    · refine .inl ⟨c :: body, by rw [List.cons_append, ← hcs], ?_, by rw [hline, hcount]⟩
      rw [List.cons_append, List.infix_cons_iff]
      rintro (hl | hl)
      · obtain ⟨hc, hh⟩ := hfirst hl
        refine hno hc ?_
        cases body with
        | nil => cases hh
        | cons d body => rw [hcs]; exact hh
      · exact hnone hl
    · refine .inr ⟨hrest, ?_, by rw [hline, hcount]⟩
      rw [List.infix_cons_iff]
      rintro (hl | hl)
      · exact hno (hfirst hl).1 (hfirst hl).2
      · exact hnone hl

/-! ## Spellings -/

theorem mem_of_lookup {α β : Type} [BEq α] [LawfulBEq α] {l : List (α × β)} {a : α} {b : β}
    (h : l.lookup a = some b) : (a, b) ∈ l := by
  obtain ⟨l₁, l₂, rfl, -⟩ := List.lookup_eq_some_iff.1 h
  simp

/-- A punctuator is written as its character, whatever follows it. -/
theorem Kind.of_mem_punctuators {c : Char} {k : Kind} (h : (c, k) ∈ Kind.punctuators)
    (line : Nat) (after : List Char) :
    Token.written { kind := k, line } = [c] ∧ Token.Fits { kind := k, line } after := by
  simp only [punctuators, List.mem_cons, Prod.mk.injEq, List.not_mem_nil, or_false] at h
  rcases h with ⟨rfl, rfl⟩ | ⟨rfl, rfl⟩ | ⟨rfl, rfl⟩ | ⟨rfl, rfl⟩ | ⟨rfl, rfl⟩ | ⟨rfl, rfl⟩ |
    ⟨rfl, rfl⟩ | ⟨rfl, rfl⟩ | ⟨rfl, rfl⟩ <;>
    exact ⟨by simp [Token.written, Kind.spelling], rfl⟩

/-- The reserved words of the scanner are those that kinds of tokens are written as. -/
theorem Kind.map_fst_keywords : keywords.map Prod.fst = reserved.map spelling :=
  rfl

theorem Kind.of_mem_keywords {w : String} {k : Kind} (h : (w, k) ∈ Kind.keywords) (line : Nat)
    {after : List Char} (ha : Ends Char.isAlphanum after) :
    Token.written { kind := k, line } = w.toList ∧ Token.Fits { kind := k, line } after := by
  simp only [keywords, List.mem_cons, Prod.mk.injEq, List.not_mem_nil, or_false] at h
  rcases h with ⟨rfl, rfl⟩ | ⟨rfl, rfl⟩ | ⟨rfl, rfl⟩ | ⟨rfl, rfl⟩ | ⟨rfl, rfl⟩ <;>
    exact ⟨rfl, rfl, ha⟩

namespace Token

theorem ofWord_line (line : Nat) (w : String) : (ofWord line w).line = line := by
  unfold ofWord
  split <;> rfl

/-- A maximal run of letters and digits that starts with a letter is the lexeme of its token. -/
theorem ofWord_fits (line : Nat) {c : Char} {cs after : List Char} (hc : c.isAlpha)
    (hcs : ∀ d ∈ cs, d.isAlphanum) (ha : Ends Char.isAlphanum after) :
    (ofWord line (String.ofList (c :: cs))).written = c :: cs ∧
      (ofWord line (String.ofList (c :: cs))).Fits after := by
  unfold ofWord
  split
  · rename_i k hk
    simpa using Kind.of_mem_keywords (mem_of_lookup hk) line ha
  · rename_i hk
    refine ⟨by simp [written, Lexeme.spelling], c, cs, rfl, hc, hcs, fun h => ?_, ha⟩
    rw [← Kind.map_fst_keywords] at h
    obtain ⟨p, hp, hw⟩ := List.mem_map.1 h
    have := List.lookup_eq_none_iff.1 hk p hp
    simp [hw] at this

/-- What one step passes: a piece of a gap, whose line feeds it counts, or a lexeme. -/
inductive Passes (line : Nat) (text : List Char) : Step → Prop
  | piece (p : Piece) : text = p.text ++ rest → p.Fits rest →
    Passes line text ⟨none, line + p.text.count '\n', rest⟩
  | lexeme (t : Token) : text = t.written ++ rest → t.Fits rest → t.line = line →
    Passes line text ⟨some t, line, rest⟩

theorem passes_lineComment (line : Nat) (cs : List Char) :
    Passes line ('/' :: '/' :: cs) ⟨none, line, cs.dropWhile (· ≠ '\n')⟩ := by
  have hbody : '\n' ∉ cs.takeWhile (· ≠ '\n') := fun h => by simpa using of_mem_takeWhile _ h
  have hcount : (Piece.lineComment (cs.takeWhile (· ≠ '\n'))).text.count '\n' = 0 := by
    simpa [Piece.text, List.count_eq_zero] using hbody
  have h : Passes line ('/' :: '/' :: cs) ⟨none, _, cs.dropWhile (· ≠ '\n')⟩ :=
    .piece (.lineComment (cs.takeWhile (· ≠ '\n')))
      (by simp only [Piece.text, List.cons_append, List.takeWhile_append_dropWhile])
      ⟨hbody, ends_dropWhile _ _⟩
  rwa [hcount, Nat.add_zero] at h

theorem passes_blockComment (line : Nat) (cs : List Char) :
    Passes line ('/' :: '*' :: cs) ⟨none, (leaveComment line cs).1, (leaveComment line cs).2⟩ := by
  rcases leaveComment_eq line cs with ⟨body, hcs, hnone, hline⟩ | ⟨hrest, hnone, hline⟩
  · have h : Passes line ('/' :: '*' :: cs) ⟨none, _, (leaveComment line cs).2⟩ :=
      .piece (.blockComment body) (by simp [Piece.text, ← hcs]) hnone
    have hcount : (Piece.blockComment body).text.count '\n' = body.count '\n' := by
      simp [Piece.text]
    rwa [hcount, ← hline] at h
  · have h : Passes line ('/' :: '*' :: cs) ⟨none, _, (leaveComment line cs).2⟩ :=
      .piece (.openComment cs) (by simp [Piece.text, hrest]) ⟨hnone, hrest⟩
    have hcount : (Piece.openComment cs).text.count '\n' = cs.count '\n' := by
      simp [Piece.text]
    rwa [hcount, ← hline] at h

theorem step_eq_ok {line : Nat} {c : Char} {cs : List Char} {s : Step}
    (h : step line c cs = .ok s) : Passes line (c :: cs) s := by
  unfold step at h
  split at h
  · rename_i hc
    cases h
    have : Passes line (c :: cs) ⟨none, _, cs⟩ := .piece (.white c) rfl hc
    by_cases hn : c = '\n' <;> simpa [Piece.text, hn] using this
  split at h
  · rename_i hc
    cases h
    obtain ⟨hw, hf⟩ := ofWord_fits line hc of_mem_takeWhile (ends_dropWhile _ cs)
    refine .lexeme _ ?_ hf (ofWord_line _ _)
    rw [hw, List.cons_append, List.takeWhile_append_dropWhile]
  split at h
  · rename_i hc
    dsimp only at h
    split at h <;> cases h
    rename_i n hn
    obtain ⟨hne, hdigits, rfl, hlt⟩ := Text.numeral?_eq_some_iff.1 hn
    refine .lexeme _ ?_ ⟨_, rfl, hne, hdigits, hlt, ends_dropWhile _ cs⟩ rfl
    simp [written, Lexeme.spelling, List.takeWhile_append_dropWhile]
  split at h
  · rename_i hc
    subst hc
    split at h <;> cases h
    · exact passes_lineComment line _
    · exact passes_blockComment line _
    · rename_i hline hblock
      refine .lexeme _ (by simp [written, Kind.spelling]) ⟨rfl, ?_⟩ rfl
      intro d hd
      cases cs with
      | nil => cases hd
      | cons d' cs =>
        cases hd
        have h₁ : d ≠ '/' := fun h => hline cs (h ▸ rfl)
        have h₂ : d ≠ '*' := fun h => hblock cs (h ▸ rfl)
        simp [h₁, h₂]
  · split at h <;> cases h
    rename_i k hk
    obtain ⟨hw, hf⟩ := Kind.of_mem_punctuators (mem_of_lookup hk) line cs
    exact .lexeme _ (by rw [hw]; rfl) hf rfl

/-- The first character of a lexeme. -/
theorem Fits.head {t : Token} {after : List Char} (h : t.Fits after) :
    ∀ c ∈ t.written.head?, c.isAlpha ∨ c.isDigit ∨ c = '/' ∨ ∃ k, (c, k) ∈ Kind.punctuators := by
  intro c hc
  obtain ⟨⟨line, text⟩, kind⟩ := t
  cases kind with
  | identifier =>
    obtain ⟨d, ds, rfl, hd, -⟩ := h
    obtain rfl : d = c := by simpa [written, Lexeme.spelling] using hc
    exact .inl hd
  | integer =>
    obtain ⟨ds, rfl, -, hds, -⟩ := h
    exact .inr (.inl (hds c (List.mem_of_mem_head? (by simpa [written, Lexeme.spelling] using hc))))
  | _ =>
    simp [written, Kind.spelling] at hc
    subst hc
    simp [Kind.punctuators]

theorem Fits.newline_not_mem {t : Token} {after : List Char} (h : t.Fits after) :
    '\n' ∉ t.written := by
  obtain ⟨⟨line, text⟩, kind⟩ := t
  cases kind with
  | identifier =>
    obtain ⟨d, ds, rfl, hd, hds, -⟩ := h
    simp only [written, Lexeme.spelling, Option.getD_some, String.toList_ofList, List.mem_cons]
    rintro (rfl | hm)
    · exact absurd hd (by decide)
    · exact absurd (hds _ hm) (by decide)
  | integer =>
    obtain ⟨ds, rfl, -, hds, -⟩ := h
    simp only [written, Lexeme.spelling, Option.getD_some, String.toList_ofList]
    exact fun hm => absurd (hds _ hm) (by decide)
  | _ => simp [written, Kind.spelling]

theorem step_eq_error {line : Nat} {c : Char} {cs : List Char} {e : LexError}
    (h : step line c cs = .error e) : e.StandsAt line (c :: cs) := by
  unfold step at h
  split at h
  · cases h
  rename_i hwhite
  split at h
  · cases h
  rename_i halpha
  split at h
  · rename_i hdigit
    dsimp only at h
    split at h <;> cases h
    rename_i hn
    have hdigits : ∀ d ∈ c :: cs.takeWhile Char.isDigit, d.isDigit :=
      List.forall_mem_cons.2 ⟨hdigit, of_mem_takeWhile⟩
    refine ⟨rfl, _, cs.dropWhile Char.isDigit, ?_, rfl, by simp, hdigits, ends_dropWhile _ cs,
      (Text.numeral?_eq_none_iff (by simp) hdigits).1 hn⟩
    rw [List.cons_append, List.takeWhile_append_dropWhile]
  rename_i hdigit
  split at h
  · split at h <;> cases h
  rename_i hslash
  split at h <;> cases h
  rename_i hp
  refine ⟨rfl, rfl, by simpa using hwhite, fun t after ht hc => ?_⟩
  rcases ht.head c hc with ha | hd | hs | ⟨k, hk⟩
  · exact halpha ha
  · exact hdigit hd
  · exact hslash hs
  · have := List.lookup_eq_none_iff.1 hp _ hk
    simp at this

end Token

/-! ## Putting a layout together -/

namespace Layout

theorem textOf_cons (t : Token) (g : Gap) (rest : List (Token × Gap)) :
    textOf ((t, g) :: rest) = t.written ++ (Gap.text g ++ textOf rest) := by
  simp [textOf]

/-- A layout with a piece of a gap in front. -/
def consPiece (p : Piece) (l : Layout) : Layout :=
  { l with first := p :: l.first }

/-- A layout with a lexeme in front. -/
def consLexeme (t : Token) (l : Layout) : Layout :=
  ⟨[], (t, l.first) :: l.lexemes⟩

variable {p : Piece} {t : Token} {l : Layout} {after : List Char} {line : Nat}

@[simp] theorem consPiece_text : (l.consPiece p).text = p.text ++ l.text := by
  simp [consPiece, text, Gap.text]

@[simp] theorem consLexeme_text : (l.consLexeme t).text = t.written ++ l.text := by
  simp [consLexeme, text, Gap.text, textOf_cons]

@[simp] theorem consPiece_tokens : (l.consPiece p).tokens = l.tokens := rfl

@[simp] theorem consLexeme_tokens : (l.consLexeme t).tokens = t :: l.tokens := rfl

theorem Fits.consPiece (h : l.Fits after) (hp : p.Fits (l.text ++ after)) :
    (l.consPiece p).Fits after := by
  refine ⟨⟨?_, h.1⟩, h.2⟩
  simpa [text, Layout.consPiece] using hp

theorem Fits.consLexeme (h : l.Fits after) (ht : t.Fits (l.text ++ after)) :
    (l.consLexeme t).Fits after := by
  refine ⟨trivial, ?_, h⟩
  simpa [text] using ht

theorem Numbered.consPiece (h : l.Numbered (line + p.text.count '\n')) :
    (l.consPiece p).Numbered line := by
  intro before t g after hl
  rw [h before t g after hl]
  simp [Layout.consPiece, Gap.text, Nat.add_assoc]

theorem Numbered.consLexeme (h : l.Numbered line) (ht : t.line = line) (hn : '\n' ∉ t.written) :
    (l.consLexeme t).Numbered line := by
  intro before t' g after hl
  cases before with
  | nil =>
    obtain ⟨⟨rfl, -⟩, -⟩ : (t = t' ∧ l.first = g) ∧ _ := by simpa [Layout.consLexeme] using hl
    simp [Layout.consLexeme, Gap.text, textOf, ht]
  | cons q before =>
    obtain ⟨rfl, hrest⟩ : (t, l.first) = q ∧ _ := by simpa [Layout.consLexeme] using hl
    rw [h before t' g after hrest]
    simp [Layout.consLexeme, Gap.text, textOf_cons, List.count_eq_zero.2 hn]

end Layout

/-! ## Whole texts -/

/-- The text from any point on is laid out up to its end, or up to the first fault. -/
theorem Token.scanFrom_layout (read : List Token) (line : Nat) (cs : List Char) :
    ∃ (l : Layout) (after : List Char), cs = l.text ++ after ∧ l.Fits after ∧ l.Numbered line ∧
      match scanFrom read line cs with
      | .ok tokens => after = [] ∧ tokens = read.reverse ++ l.tokens
      | .error e => e.StandsAt (line + l.text.count '\n') after := by
  fun_induction scanFrom read line cs with
  | case1 read line =>
    refine ⟨⟨[], []⟩, [], rfl, ⟨trivial, trivial⟩, ?_, rfl, by simp [Layout.tokens]⟩
    intro before t g after hl
    simp at hl
  | case2 read line c cs e h =>
    refine ⟨⟨[], []⟩, c :: cs, rfl, ⟨trivial, trivial⟩, ?_, step_eq_error h⟩
    intro before t g after hl
    simp at hl
  | case3 read line c cs s h ih =>
    obtain ⟨l, after, hrest, hfits, hnum, hres⟩ := ih
    cases step_eq_ok h with
    | piece p htext hp =>
      dsimp only at hrest
      subst hrest
      refine ⟨l.consPiece p, after, by simp [htext], hfits.consPiece hp, hnum.consPiece, ?_⟩
      simpa [Nat.add_assoc] using hres
    | lexeme t htext ht hline =>
      dsimp only at hrest
      subst hrest
      have hn := ht.newline_not_mem
      refine ⟨l.consLexeme t, after, by simp [htext], hfits.consLexeme ht,
        hnum.consLexeme hline hn, ?_⟩
      simpa [List.count_eq_zero.2 hn] using hres

theorem Layout.fits_of_mem_tokens {l : Layout} {after : List Char} (h : l.Fits after) :
    ∀ t ∈ l.tokens, ∃ rest, t.Fits rest := by
  obtain ⟨-, hall⟩ := h
  rw [Layout.tokens]
  generalize l.lexemes = lexemes at hall
  induction lexemes with
  | nil => exact List.forall_mem_nil _
  | cons p lexemes ih =>
    obtain ⟨t, g⟩ := p
    obtain ⟨ht, -, hrest⟩ := hall
    exact List.forall_mem_cons.2 ⟨⟨_, ht⟩, ih hrest⟩

/-- The tokens of a scanned text are well formed. -/
theorem fits_of_tokenize {source : String} {tokens : List Token}
    (h : tokenize source = .ok tokens) : ∀ t ∈ tokens, ∃ rest, t.Fits rest := by
  obtain ⟨l, after, -, hfits, -, hres⟩ := Token.scanFrom_layout [] 1 source.toList
  unfold tokenize Token.scan at h
  cases hscan : Token.scanFrom [] 1 source.toList with
  | ok read =>
    rw [hscan] at h hres
    obtain ⟨-, rfl⟩ := hres
    obtain rfl := Except.ok.inj h
    exact Layout.fits_of_mem_tokens hfits
  | error e =>
    rw [hscan] at h
    cases h

/-- A text that is scanned is a gap, a lexeme, a gap and so on, the tokens being those of its
lexemes with their lines. Where scanning fails, the text is laid out so up to the fault that is
reported. -/
theorem tokenize_layout (source : String) :
    match tokenize source with
    | .ok tokens =>
      ∃ l : Layout, l.text = source.toList ∧ l.Fits [] ∧ l.tokens = tokens ∧ l.Numbered 1
    | .error e =>
      ∃ (l : Layout) (after : List Char) (fault : LexError), l.text ++ after = source.toList ∧
        l.Fits after ∧ l.Numbered 1 ∧ e = .lex fault ∧
        fault.StandsAt (1 + l.text.count '\n') after := by
  obtain ⟨l, after, htext, hfits, hnum, hres⟩ := Token.scanFrom_layout [] 1 source.toList
  unfold tokenize Token.scan
  cases hscan : Token.scanFrom [] 1 source.toList with
  | ok tokens =>
    rw [hscan] at hres
    obtain ⟨rfl, rfl⟩ := hres
    exact ⟨l, by simpa using htext.symm, hfits, rfl, hnum⟩
  | error e =>
    rw [hscan] at hres
    exact ⟨l, after, e, htext.symm, hfits, hnum, rfl, hres⟩

end Kei

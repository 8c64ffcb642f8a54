import Kei.Proofs.Compilation
import Kei.Proofs.Meaning.Visits
import Kei.Proofs.Reader.Rejection
import Kei.Proofs.Text.Lines
import Kei.Proofs.Token.Spelling

/-!
# Diagnostics quote the right line

Every error but a refusal of memory is about something that stands in the source on the line it
points at: a character, the digits of a number, a name, or the last token that was consumed. So the
source has that line, and the line that is quoted holds what the error is about.
-/

namespace Kei

open Instr (Unbroken)

/-- What an error is about, as it is written in the source. A fault of the syntax is about the last
token consumed before it. -/
def CompileError.subject (source : String) : CompileError → Option (List Char)
  | .lex (.unexpectedCharacter c _) => some [c]
  | .lex (.invalidNumber text _) => some text.toList
  | .grammar _ =>
    ((tokenize source).toOption.bind Reader.lastConsumed).map Token.written
  | .memory _ => none
  | .scope (.undeclared name _) | .scope (.duplicate name _) => some name.toList

/-! ## Where lexemes stand -/

theorem unbroken_of_isWhite {s : String} (h : ∀ c ∈ s.toList, Text.isWhite c = false) :
    Unbroken s := by
  intro c hc
  have hwhite := h c hc
  constructor
  · rintro rfl
    cases hwhite
  · rintro rfl
    cases hwhite

/-- A text without white space in it stands in the source, on the line of the number. -/
structure Stands (source : String) (number : Nat) (lexeme : List Char) : Prop where
  ne_nil : lexeme ≠ []
  solid : ∀ c ∈ lexeme, Text.isWhite c = false
  place : ∃ before after,
    source.toList = before ++ (lexeme ++ after) ∧ number = 1 + before.count '\n'

namespace Stands

variable {source : String} {number : Nat} {lexeme : List Char}

theorem not_mem (h : Stands source number lexeme) {c : Char} (hc : Text.isWhite c) :
    c ∉ lexeme := by
  intro hmem
  simp [h.solid c hmem] at hc

theorem unbroken (h : Stands source number lexeme) : Unbroken (String.ofList lexeme) :=
  unbroken_of_isWhite (by simpa using h.solid)

theorem exists_line (h : Stands source number lexeme) :
    0 < number ∧
      ∃ line, (Text.lines source.toList)[number - 1]? = some line ∧ lexeme <:+: line := by
  obtain ⟨before, after, hsource, rfl⟩ := h.place
  refine ⟨by omega, ?_⟩
  rw [hsource, Nat.add_sub_cancel_left]
  exact Text.exists_getElem?_lines h.ne_nil (h.not_mem rfl) (h.not_mem rfl) before after

end Stands

namespace Token

theorem Fits.ne_nil {t : Token} {after : List Char} (h : t.Fits after) : t.written ≠ [] := by
  obtain ⟨⟨line, text⟩, kind⟩ := t
  cases kind with
  | identifier =>
    obtain ⟨c, cs, rfl, -⟩ := h
    simp [written, Lexeme.spelling]
  | integer =>
    obtain ⟨digits, rfl, hne, -⟩ := h
    simpa [written, Lexeme.spelling] using hne
  | _ => simp [written, Kind.spelling]

theorem Fits.isWhite {t : Token} {after : List Char} (h : t.Fits after) :
    ∀ c ∈ t.written, Text.isWhite c = false := by
  obtain ⟨⟨line, text⟩, kind⟩ := t
  cases kind with
  | identifier =>
    obtain ⟨c, cs, rfl, hc, hcs, -⟩ := h
    simp only [written, Lexeme.spelling, Option.getD_some, String.toList_ofList]
    refine List.forall_mem_cons.2 ⟨?_, fun d hd => isWhite_of_isAlphanum (hcs d hd)⟩
    exact isWhite_of_isAlphanum (by simp [Char.isAlphanum, hc])
  | integer =>
    obtain ⟨digits, rfl, -, hdigits, -⟩ := h
    simp only [written, Lexeme.spelling, Option.getD_some, String.toList_ofList]
    exact fun d hd => isWhite_of_isAlphanum (by simp [Char.isAlphanum, hdigits d hd])
  | _ => simp [written, Kind.spelling, Text.isWhite]

end Token

theorem Layout.stands_of_mem_tokens {source : String} {l : Layout} {after : List Char}
    (htext : source.toList = l.text ++ after) (hfits : l.Fits after) (hnum : l.Numbered 1) :
    ∀ t ∈ l.tokens, Stands source t.line t.written := by
  intro t ht
  obtain ⟨p, hp, rfl⟩ := List.mem_map.1 ht
  obtain ⟨rest, hrest⟩ := Layout.fits_of_mem_tokens hfits p.1 ht
  obtain ⟨before, later, hsplit⟩ := List.append_of_mem hp
  refine ⟨hrest.ne_nil, hrest.isWhite, Gap.text l.first ++ textOf before,
    Gap.text p.2 ++ (textOf later ++ after), ?_, hnum before p.1 p.2 later hsplit⟩
  simp [htext, Layout.text, hsplit, textOf]

/-- The tokens of a scanned text stand in it, each on its line. -/
theorem stands_of_tokenize {source : String} {tokens : List Token}
    (h : tokenize source = .ok tokens) :
    ∀ t ∈ tokens, (∃ rest, t.Fits rest) ∧ Stands source t.line t.written := by
  obtain ⟨l, after, htext, hfits, hnum, hres⟩ := Token.scanFrom_layout [] 1 source.toList
  rw [tokenize, Token.scan] at h
  cases hscan : Token.scanFrom [] 1 source.toList with
  | error e => simp [hscan] at h
  | ok tokens' =>
    rw [hscan] at h hres
    obtain rfl := Except.ok.inj h
    obtain ⟨-, rfl⟩ := hres
    intro t ht
    exact ⟨Layout.fits_of_mem_tokens hfits t ht, Layout.stands_of_mem_tokens htext hfits hnum t ht⟩

/-! ## Located errors -/

/-- An error points at the line of what it is about, in a message of one line. -/
def CompileError.Located (source : String) (e : CompileError) : Prop :=
  ∃ number lexeme, e.line? = some number ∧ e.subject source = some lexeme ∧
    Stands source number lexeme ∧ Unbroken e.message

/-- Most messages quote a text between fixed words and end in the number of a line. -/
theorem unbroken_report {before quoted after : String} (hbefore : Unbroken before)
    (hquoted : Unbroken quoted) (hafter : Unbroken after) (number : Nat) :
    Unbroken (before ++ quoted ++ after ++ toString number) :=
  ((hbefore.append hquoted).append hafter).append (Instr.unbroken_toString number)

/-- A fault of scanning stands where scanning stops. -/
theorem located_of_tokenize {source : String} {e : CompileError}
    (h : tokenize source = .error e) : e.Located source := by
  obtain ⟨l, after, htext, hfits, hnum, hres⟩ := Token.scanFrom_layout [] 1 source.toList
  rw [tokenize, Token.scan] at h
  cases hscan : Token.scanFrom [] 1 source.toList with
  | ok tokens => simp [hscan] at h
  | error fault =>
    rw [hscan] at h hres
    obtain rfl := Except.error.inj h
    cases fault with
    | unexpectedCharacter c n =>
      obtain ⟨rfl, hhead, hwhite, -⟩ := hres
      obtain ⟨rest, rfl⟩ := List.head?_eq_some_iff.1 hhead
      have hstands : Stands source (1 + l.text.count '\n') [c] :=
        ⟨List.cons_ne_nil _ _, by simpa using hwhite, l.text, rest, htext, rfl⟩
      exact ⟨_, _, rfl, rfl, hstands, unbroken_report (by decide) hstands.unbroken (by decide) _⟩
    | invalidNumber word n =>
      obtain ⟨rfl, digits, rest, rfl, rfl, hne, hdigits, -⟩ := hres
      have hstands : Stands source (1 + l.text.count '\n') digits :=
        ⟨hne, fun c hc => Instr.isWhite_of_isDigit (hdigits c hc), l.text, rest, htext, rfl⟩
      refine ⟨_, digits, rfl, by simp [CompileError.subject], hstands, ?_⟩
      exact unbroken_report (by decide) hstands.unbroken (by decide) _

theorem Kind.unbroken_describe (k : Kind) : Unbroken k.describe := by
  cases k <;> decide

theorem Reader.State.unbroken_wanted (s : State) : Unbroken s.wanted := by
  unfold State.wanted
  split
  case h_1 | h_2 | h_9 => split <;> decide
  all_goals decide

theorem Token.unbroken_describe {t : Token} {after : List Char} (h : t.Fits after) :
    Unbroken (describe (some t)) := by
  have hkind := t.kind.unbroken_describe
  rw [describe]
  split
  · rename_i text htext
    -- only identifiers and literals have a text, which is what is written
    have hwritten : t.written = text.toList := by
      obtain ⟨⟨line, _⟩, kind⟩ := t
      obtain rfl := htext
      cases kind with
      | identifier => rfl
      | integer => rfl
      | slash => cases h.1
      | exitWord | letWord | ifWord | elifWord | elseWord => cases h.1
      | _ => cases h
    have htext := unbroken_of_isWhite (hwritten ▸ h.isWhite)
    exact .append (.append (hkind.append (by decide)) htext) (by decide)
  · exact hkind

/-- What the reader wants is said in fixed words. -/
theorem Reader.wanted_of_readFrom {limit line n : Nat} {s : State} {tokens : List Token}
    {what got : String}
    (h : (readFrom limit s line tokens).result = .error (.expected what got n)) :
    ∃ s' : State, what = s'.wanted := by
  induction tokens generalizing s line with
  | nil =>
    simp only [readFrom] at h
    split at h <;> cases h
    exact ⟨_, rfl⟩
  | cons t rest ih =>
    rw [readFrom] at h
    split at h
    · exact ih h
    · cases h
      exact ⟨_, rfl⟩
    · cases h

/-- A fault of the syntax is about the last token consumed. -/
theorem located_of_read {source : String} {tokens : List Token} {fault : SyntaxError}
    (htokens : tokenize source = .ok tokens) (h : (Reader.read tokens).result = .error fault) :
    (CompileError.grammar fault).Located source := by
  obtain ⟨t, hlast, hline⟩ := exists_lastConsumed h
  have hmem : t ∈ tokens := List.mem_of_getElem? (Reader.lastConsumed_eq tokens ▸ hlast)
  have hsubject : (CompileError.grammar fault).subject source = some t.written := by
    simp [CompileError.subject, htokens, Except.toOption, hlast]
  refine ⟨t.line, t.written, hline, hsubject, (stands_of_tokenize htokens t hmem).2, ?_⟩
  cases fault with
  | expected what got line =>
    have hgot : Unbroken got := by
      rw [Reader.got_of_readFrom h]
      cases hfound : tokens[(Reader.consumedFrom Reader.maxNesting {} tokens).length]? with
      | none => decide
      | some found =>
        obtain ⟨⟨rest, hfits⟩, -⟩ := stands_of_tokenize htokens found (List.mem_of_getElem? hfound)
        exact Token.unbroken_describe hfits
    obtain ⟨s, rfl⟩ := Reader.wanted_of_readFrom h
    have hwanted : Unbroken ("expected " ++ s.wanted ++ " on line " ++ toString line) :=
      unbroken_report (by decide) s.unbroken_wanted (by decide) line
    exact .append (hwanted.append (by decide)) hgot
  | nestingTooDeep limit line =>
    exact unbroken_report (by decide) (Instr.unbroken_toString limit) (by decide) line

/-! ## Names -/

def Visit.name : Visit → Lexeme
  | use name _ => name
  | declaration name _ => name

theorem Expr.mem_symbols_of_mem_visits {s : Scopes} {v : Visit} (e : Expr) (h : v ∈ e.visits s) :
    (Kind.identifier, some v.name) ∈ e.symbols := by
  induction e with
  | int l => cases h
  | ident l =>
    obtain rfl := List.mem_singleton.1 h
    exact List.mem_singleton_self _
  | paren e ih => simp [Expr.symbols, ih h]
  | binary op l r ihl ihr =>
    obtain hr | hl := List.mem_append.1 h
    · simp [Expr.symbols, ihr hr]
    · simp [Expr.symbols, ihl hl]

mutual

/-- Every name that is judged is written in the program. -/
theorem Stmt.mem_symbols_of_mem_visits {s : Scopes} {v : Visit} :
    ∀ st : Stmt, v ∈ st.visits s → (Kind.identifier, some v.name) ∈ st.symbols
  | .exit e, h => by simp [Stmt.symbols, e.mem_symbols_of_mem_visits h]
  | .declare n e, h => by
    obtain rfl | h := List.mem_cons.1 h
    · simp [Stmt.symbols, Visit.name]
    · simp [Stmt.symbols, e.mem_symbols_of_mem_visits h]
  | .assign n e, h => by
    obtain rfl | h := List.mem_cons.1 h
    · simp [Stmt.symbols, Visit.name]
    · simp [Stmt.symbols, e.mem_symbols_of_mem_visits h]
  | .scope b, h => by simp [Stmt.symbols, Block.mem_symbols_of_mem_visits b h]
  | .cond e b c, h => by
    obtain h | h := List.mem_append.1 h
    · simp [Stmt.symbols, e.mem_symbols_of_mem_visits h]
    obtain h | h := List.mem_append.1 h
    · simp [Stmt.symbols, Block.mem_symbols_of_mem_visits b h]
    · simp [Stmt.symbols, Chain.mem_symbols_of_mem_visits c h]

theorem Block.mem_symbols_of_mem_visits {s : Scopes} {v : Visit} :
    ∀ b : List Stmt, v ∈ Block.visits s b → (Kind.identifier, some v.name) ∈ Block.symbols b
  | [], h => by cases h
  | st :: b, h => by
    obtain h | h := List.mem_append.1 h
    · exact List.mem_append_left _ (Stmt.mem_symbols_of_mem_visits st h)
    · exact List.mem_append_right _ (Block.mem_symbols_of_mem_visits b h)

theorem Chain.mem_symbols_of_mem_visits {s : Scopes} {v : Visit} :
    ∀ c : Chain, v ∈ c.visits s → (Kind.identifier, some v.name) ∈ c.symbols
  | .stop, h => by cases h
  | .elif e b next, h => by
    obtain h | h := List.mem_append.1 h
    · simp [Chain.symbols, e.mem_symbols_of_mem_visits h]
    obtain h | h := List.mem_append.1 h
    · simp [Chain.symbols, Block.mem_symbols_of_mem_visits b h]
    · simp [Chain.symbols, Chain.mem_symbols_of_mem_visits next h]
  | .otherwise b, h => by simp [Chain.symbols, Block.mem_symbols_of_mem_visits b h]

end

/-- The names in a program that was read stand in its text. -/
theorem stands_of_mem_symbols {source : String} {tokens : List Token} {name : Lexeme}
    (htokens : tokenize source = .ok tokens)
    (hmem : (Kind.identifier, some name) ∈ tokens.map Token.symbol) :
    Stands source name.line name.spelling.toList := by
  obtain ⟨t, ht, hsymbol⟩ := List.mem_map.1 hmem
  obtain ⟨hkind, hlexeme⟩ := Prod.mk.inj hsymbol
  rw [if_pos (.inr hkind)] at hlexeme
  obtain rfl := Option.some.inj hlexeme
  have hwritten : t.written = t.toLexeme.spelling.toList := by
    rw [Token.written, hkind]
  exact hwritten ▸ (stands_of_tokenize htokens t ht).2

/-- A fault of scope is about the name that is judged. -/
theorem located_of_generate {source : String} {tokens : List Token} {program : Block}
    {e : CompileError} (htokens : tokenize source = .ok tokens)
    (hsymbols : Block.symbols program = tokens.map Token.symbol)
    (h : generate program = .error e) : e.Located source := by
  rw [generate_eq, Block.wellScoped_eq] at h
  cases hjudge : Visit.judge (Block.visits [[]] program) with
  | ok u => simp [hjudge, Except.map] at h
  | error fault =>
    obtain rfl : e = .scope fault := by simpa [hjudge, Except.map] using h.symm
    obtain ⟨before, v, after, hvisits, -, -, rfl⟩ := Visit.judge_eq_error_iff.1 hjudge
    -- the tree keeps its names with their lines, so the name is that of a token
    have hmem := Block.mem_symbols_of_mem_visits program
      (hvisits ▸ List.mem_append_right before List.mem_cons_self)
    have hstands := stands_of_mem_symbols htokens (hsymbols ▸ hmem)
    have hname : Unbroken v.name.spelling := unbroken_of_isWhite hstands.solid
    cases v with
    | use name scopes =>
      exact ⟨_, _, rfl, rfl, hstands, unbroken_report (by decide) hname (by decide) _⟩
    | declaration name scopes =>
      exact ⟨_, _, rfl, rfl, hstands, unbroken_report (by decide) hname (by decide) _⟩

/-- All errors but refusals of memory are located. -/
theorem located_of_compile {limit : Nat} {source : String} {e : CompileError}
    (h : compile limit source = .error e) :
    (∃ refusal, e = .memory refusal) ∨ e.Located source := by
  simp only [compile, bind_eq_error] at h
  obtain h | ⟨tokens, htokens, h | ⟨program, hparse, h⟩⟩ := h
  · exact .inr (located_of_tokenize h)
  · obtain hmemory | ⟨fault, rfl, hread⟩ := parse_eq_error h
    · exact .inl hmemory
    · exact .inr (located_of_read htokens hread)
  · obtain ⟨hsymbols, -⟩ := count_expr_le_of_parse (Prod.ext hparse rfl)
    exact .inr (located_of_generate htokens hsymbols h)

/-! ## Rendering -/

theorem newline_not_mem_of_unbroken {s : String} (h : Unbroken s) : '\n' ∉ s.toList :=
  fun hmem => (h '\n' hmem).1 rfl

/-- A line is quoted on a line of its own, and so is the marker under it. -/
theorem CompileError.quote_eq (number : Nat) (line : List Char) :
    ∃ indent width, 0 < width ∧ quote number line =
      toString number ++ " | " ++ String.ofList line ++ "\n" ++
        String.ofList (List.replicate (toString number).length ' ') ++ " | " ++
        String.ofList (List.replicate indent ' ') ++ String.ofList (List.replicate width '^') ++
          "\n" :=
  ⟨_, max 1 (Text.trim line).length, by omega, rfl⟩

theorem CompileError.count_quote (number : Nat) {line : List Char} (h : '\n' ∉ line) :
    (quote number line).toList.count '\n' = 2 := by
  have hnumber := newline_not_mem_of_unbroken (Instr.unbroken_toString number)
  rw [Instr.toList_toString] at hnumber
  obtain ⟨indent, width, -, hquote⟩ := quote_eq number line
  simp [hquote, List.count_eq_zero.2 hnumber, List.count_eq_zero.2 h, List.count_replicate]

/-- An error that points at a line is rendered with that line of the source under its message, and
the line holds what the error is about. Only refusals of memory point at no line. -/
theorem compile_diagnostic {limit : Nat} {source : String} {e : CompileError}
    (h : compile limit source = .error e) :
    match e.line? with
    | none => (∃ refusal, e = .memory refusal) ∧
        e.render source = "error: " ++ e.message ++ "\n"
    | some number => 0 < number ∧ ∃ line lexeme indent width,
        (Text.lines source.toList)[number - 1]? = some line ∧
        e.subject source = some lexeme ∧ lexeme ≠ [] ∧ lexeme <:+: line ∧ 0 < width ∧
        e.render source =
          "error: " ++ e.message ++ "\n" ++
          (toString number ++ " | " ++ String.ofList line ++ "\n" ++
            String.ofList (List.replicate (toString number).length ' ') ++ " | " ++
            String.ofList (List.replicate indent ' ') ++ String.ofList (List.replicate width '^') ++
            "\n") ∧
        (e.render source).toList.count '\n' = 3 := by
  obtain ⟨refusal, rfl⟩ | ⟨number, lexeme, hline, hsubject, hstands, hmessage⟩ :=
    located_of_compile h
  · exact ⟨⟨refusal, rfl⟩, rfl⟩
  · obtain ⟨hpos, line, hget, hinfix⟩ := hstands.exists_line
    have hnewline := Text.newline_not_mem_of_mem_lines (List.mem_of_getElem? hget)
    have hrender : e.render source =
        "error: " ++ e.message ++ "\n" ++ CompileError.quote number line := by
      simp [CompileError.render, hline, hget]
    obtain ⟨indent, width, hwidth, hquote⟩ := CompileError.quote_eq number line
    rw [hline]
    refine ⟨hpos, line, lexeme, indent, width, hget, hsubject, hstands.ne_nil, hinfix, hwidth, ?_,
      ?_⟩
    · rw [hrender, hquote]
    · have hcount := List.count_eq_zero.2 (newline_not_mem_of_unbroken hmessage)
      simp [hrender, CompileError.count_quote number hnewline, hcount]

/-- A comment over two lines, line ends of both kinds and a character of two bytes come before a
name that is not declared. -/
def undeclaredText : String :=
  "// ü\r\nlet a = 1; /*\n*/ \x7b\r\n\texit(a + b); \x7d\r\n"

theorem compile_diagnostic_undeclared :
    compile 2000 undeclaredText = .error (.scope (.undeclared "b" 4)) ∧
      ∃ line, (Text.lines undeclaredText.toList)[3]? = some line ∧ ['b'] <:+: line ∧
        ((CompileError.scope (.undeclared "b" 4)).render undeclaredText).toList.count '\n' = 3 := by
  have herror : (match compile 2000 undeclaredText with
      | .ok _ => none
      | .error e => some e) = some (CompileError.scope (.undeclared "b" 4)) := by
    decide +kernel
  have hcompile : compile 2000 undeclaredText = .error (.scope (.undeclared "b" 4)) := by
    cases h : compile 2000 undeclaredText with
    | ok asm => simp [h] at herror
    | error e => simpa [h] using herror
  obtain ⟨-, line, lexeme, -, -, hline, hsubject, -, hinfix, -, -, hcount⟩ :=
    compile_diagnostic hcompile
  obtain rfl := Option.some.inj hsubject
  exact ⟨hcompile, line, hline, hinfix, hcount⟩

end Kei

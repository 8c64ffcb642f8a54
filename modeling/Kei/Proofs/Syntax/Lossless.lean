import Kei.Proofs.Reader.Cost
import Kei.Proofs.Reader.Soundness
import Kei.Proofs.Syntax.Data
import Kei.Proofs.Token.Spelling
import Kei.Syntax.Relabel

/-!
# Printed programs can be read back

Where names are words and literals are numbers, as in every program that was read from a text, the
data of a tree are legible and denote that tree (`Stmt.stmt?_datum`): tags stand first in their
lists and names never do, and a number starts with a digit, which no word does. So a printed program
is read back up to the lines of its lexemes, which the notation does not hold.
-/

namespace Kei

/-! ## Spellings -/

/-- The lexeme is a word: a letter and then letters and digits. -/
def Lexeme.IsName (l : Lexeme) : Prop :=
  ∃ c cs, l.text = some (String.ofList (c :: cs)) ∧ c.isAlpha ∧ ∀ d ∈ cs, d.isAlphanum

/-- The lexeme is a number: one digit or more. -/
def Lexeme.IsLiteral (l : Lexeme) : Prop :=
  ∃ digits, l.text = some (String.ofList digits) ∧ digits ≠ [] ∧ ∀ d ∈ digits, d.isDigit

/-- Names are spelled as words, and literals as numbers. -/
def Symbol.Spelled : Symbol → Prop
  | (.identifier, some l) => l.IsName
  | (.integer, some l) => l.IsLiteral
  | _ => True

@[simp] theorem Lexeme.spelling_unlined (l : Lexeme) : l.unlined.spelling = l.spelling := rfl

@[simp] theorem Change.name_unlined (l : Lexeme) : Change.unlined.name l = l.unlined := rfl

@[simp] theorem Change.expr_unlined (e : Expr) : Change.unlined.expr e = e.unlined := rfl

@[simp] theorem Expr.unlined_paren (e : Expr) : (paren e).unlined = paren e.unlined := rfl

@[simp] theorem Expr.unlined_binary (op : Op) (l r : Expr) :
    (binary op l r).unlined = binary op l.unlined r.unlined := rfl

theorem Datum.plain_of_isAlphanum {cs : List Char} (hne : cs ≠ []) (h : ∀ c ∈ cs, c.isAlphanum) :
    Plain (String.ofList cs) := by
  rw [Plain, String.toList_ofList]
  refine ⟨hne, ?_⟩
  intro c hc
  have halnum := h c hc
  constructor
  · rintro rfl
    cases halnum
  · rintro (rfl | rfl | rfl) <;> cases halnum

namespace Lexeme

variable {l : Lexeme}

theorem spelling_of_text {w : String} (h : l.text = some w) : l.spelling = w := by
  rw [spelling, h, Option.getD_some]

theorem lexeme_spelling {w : String} (h : l.text = some w) :
    Datum.lexeme l.spelling = l.unlined := by
  rw [spelling_of_text h, Datum.lexeme, unlined, h]

theorem IsName.plain (h : l.IsName) : Datum.Plain l.spelling := by
  obtain ⟨c, cs, htext, hc, hcs⟩ := h
  rw [spelling_of_text htext]
  refine Datum.plain_of_isAlphanum (List.cons_ne_nil c cs) (List.forall_mem_cons.2 ⟨?_, hcs⟩)
  rw [Char.isAlphanum, hc, Bool.true_or]

theorem IsLiteral.plain (h : l.IsLiteral) : Datum.Plain l.spelling := by
  obtain ⟨digits, htext, hne, hdigits⟩ := h
  rw [spelling_of_text htext]
  refine Datum.plain_of_isAlphanum hne fun c hc => ?_
  rw [Char.isAlphanum, hdigits c hc, Bool.or_true]

/-- A name does not start with a digit. -/
theorem IsName.expr?_word (h : l.IsName) :
    (Datum.word l.spelling).expr? = some (.ident l.unlined) := by
  obtain ⟨c, cs, htext, hc, -⟩ := h
  have hdigit : c.isDigit = false := by
    cases hd : c.isDigit with
    | false => rfl
    | true =>
      rw [isAlpha_of_isDigit hd] at hc
      cases hc
  rw [Datum.expr?, lexeme_spelling htext, spelling_of_text htext]
  simp [hdigit]

/-- A literal starts with a digit. -/
theorem IsLiteral.expr?_word (h : l.IsLiteral) :
    (Datum.word l.spelling).expr? = some (.int l.unlined) := by
  obtain ⟨digits, htext, hne, hdigits⟩ := h
  obtain ⟨c, cs, rfl⟩ := List.exists_cons_of_ne_nil hne
  rw [Datum.expr?, lexeme_spelling htext, spelling_of_text htext]
  simp [hdigits c List.mem_cons_self]

end Lexeme

/-! ## Data of trees -/

namespace Datum

/-- A list whose first word is a tag. -/
theorem Legible.tagged {tag : String} {ds : List Datum} (htag : Plain tag)
    (h : ∀ d ∈ ds, d.Legible) : Legible (.list (.word tag :: ds)) :=
  .list (List.forall_mem_cons.2 ⟨.word htag, h⟩)

theorem Legible.scope {ds : List Datum} (h : ∀ d ∈ ds, d.Legible) :
    Legible (.list (.word "scope" :: ds)) :=
  .tagged (by decide) h

/-- A branch of a conditional and what follows it. -/
theorem Legible.branch {tag : String} {test : Datum} {body rest : List Datum} (htag : Plain tag)
    (htest : test.Legible) (hbody : ∀ d ∈ body, d.Legible) (hrest : ∀ d ∈ rest, d.Legible) :
    Legible (.list (.word tag :: test :: .list (.word "scope" :: body) :: rest)) := by
  apply Legible.tagged htag
  rw [List.forall_mem_cons, List.forall_mem_cons]
  exact ⟨htest, .scope hbody, hrest⟩

end Datum

open Datum (Legible Plain)

theorem Expr.legible_datum {e : Expr} (h : ∀ x ∈ e.symbols, x.Spelled) : e.datum.Legible := by
  induction e with
  | int l => exact .word (Lexeme.IsLiteral.plain (h _ (List.mem_singleton_self _)))
  | ident l => exact .word (Lexeme.IsName.plain (h _ (List.mem_singleton_self _)))
  | paren e ih =>
    simp only [symbols, List.forall_mem_cons, List.forall_mem_append] at h
    exact .tagged (by decide) (by simpa using ih h.2.1)
  | binary op l r ihl ihr =>
    simp only [symbols, List.forall_mem_cons, List.forall_mem_append] at h
    have hop : Plain op.sign := by cases op <;> decide
    exact .tagged hop (by simpa using ⟨ihl h.1, ihr h.2.2⟩)

theorem Expr.expr?_datum {e : Expr} (h : ∀ x ∈ e.symbols, x.Spelled) :
    e.datum.expr? = some e.unlined := by
  induction e with
  | int l => exact Lexeme.IsLiteral.expr?_word (h _ (List.mem_singleton_self _))
  | ident l => exact Lexeme.IsName.expr?_word (h _ (List.mem_singleton_self _))
  | paren e ih =>
    simp only [symbols, List.forall_mem_cons, List.forall_mem_append] at h
    simp [datum, Datum.expr?, ih h.2.1]
  | binary op l r ihl ihr =>
    simp only [symbols, List.forall_mem_cons, List.forall_mem_append] at h
    have hop : (datum (.binary op l r)).expr? =
        return .binary op (← l.datum.expr?) (← r.datum.expr?) := by
      cases op <;> rfl
    simp [hop, ihl h.1, ihr h.2.2]

mutual

theorem Stmt.legible_datum : ∀ s : Stmt, (∀ x ∈ s.symbols, x.Spelled) → s.datum.Legible
  | .exit e, h => by
    simp only [Stmt.symbols, List.forall_mem_cons, List.forall_mem_append] at h
    exact .tagged (by decide) (by simpa using Expr.legible_datum h.2.2.1)
  | .declare n e, h => by
    simp only [Stmt.symbols, List.forall_mem_cons, List.forall_mem_append] at h
    exact .tagged (by decide)
      (by simpa using ⟨.word (Lexeme.IsName.plain h.2.1), Expr.legible_datum h.2.2.2.1⟩)
  | .assign n e, h => by
    simp only [Stmt.symbols, List.forall_mem_cons, List.forall_mem_append] at h
    exact .tagged (by decide)
      (by simpa using ⟨.word (Lexeme.IsName.plain h.1), Expr.legible_datum h.2.2.1⟩)
  | .scope b, h => by
    simp only [Stmt.symbols, List.forall_mem_cons, List.forall_mem_append] at h
    exact .scope (Block.legible_data b h.2.1)
  | .cond e b c, h => by
    simp only [Stmt.symbols, List.forall_mem_cons, List.forall_mem_append] at h
    obtain ⟨-, -, he, -, -, hb, -, hc⟩ := h
    exact .branch (by decide) (Expr.legible_datum he) (Block.legible_data b hb)
      (Chain.legible_data c hc)

theorem Block.legible_data : ∀ b : List Stmt, (∀ x ∈ Block.symbols b, x.Spelled) →
    ∀ d ∈ Block.data b, d.Legible
  | [], _ => List.forall_mem_nil _
  | s :: rest, h => by
    simp only [Block.symbols, List.forall_mem_append] at h
    exact List.forall_mem_cons.2 ⟨Stmt.legible_datum s h.1, Block.legible_data rest h.2⟩

theorem Chain.legible_data : ∀ c : Chain, (∀ x ∈ c.symbols, x.Spelled) → ∀ d ∈ c.data, d.Legible
  | .stop, _ => List.forall_mem_nil _
  | .elif e b next, h => by
    simp only [Chain.symbols, List.forall_mem_cons, List.forall_mem_append] at h
    obtain ⟨-, -, he, -, -, hb, -, hc⟩ := h
    rw [Chain.data, List.forall_mem_singleton]
    exact .branch (by decide) (Expr.legible_datum he) (Block.legible_data b hb)
      (Chain.legible_data next hc)
  | .otherwise b, h => by
    simp only [Chain.symbols, List.forall_mem_cons, List.forall_mem_append] at h
    rw [Chain.data, List.forall_mem_singleton]
    apply Legible.tagged (by decide)
    exact List.forall_mem_singleton.2 (.scope (Block.legible_data b h.2.2.1))

end

mutual

/-- The datum of a statement denotes it, up to the lines of its lexemes. -/
theorem Stmt.stmt?_datum : ∀ s : Stmt, (∀ x ∈ s.symbols, x.Spelled) →
    s.datum.stmt? = some (s.change .unlined)
  | .exit e, h => by
    simp only [Stmt.symbols, List.forall_mem_cons, List.forall_mem_append] at h
    simp [Stmt.datum, Datum.stmt?, Expr.expr?_datum h.2.2.1, Stmt.change]
  | .declare n e, h => by
    simp only [Stmt.symbols, List.forall_mem_cons, List.forall_mem_append] at h
    obtain ⟨-, ⟨c, cs, htext, -⟩, -, he, -⟩ := h
    simp [Stmt.datum, Datum.stmt?, Expr.expr?_datum he, Lexeme.lexeme_spelling htext, Stmt.change]
  | .assign n e, h => by
    simp only [Stmt.symbols, List.forall_mem_cons, List.forall_mem_append] at h
    obtain ⟨⟨c, cs, htext, -⟩, -, he, -⟩ := h
    simp [Stmt.datum, Datum.stmt?, Expr.expr?_datum he, Lexeme.lexeme_spelling htext, Stmt.change]
  | .scope b, h => by
    simp only [Stmt.symbols, List.forall_mem_cons, List.forall_mem_append] at h
    simp [Stmt.datum, Datum.stmt?, Block.stmts?_data b h.2.1, Stmt.change]
  | .cond e b c, h => by
    simp only [Stmt.symbols, List.forall_mem_cons, List.forall_mem_append] at h
    obtain ⟨-, -, he, -, -, hb, -, hc⟩ := h
    simp [Stmt.datum, Datum.stmt?, Expr.expr?_datum he, Block.stmts?_data b hb,
      Chain.chain?_data c hc, Stmt.change]

theorem Block.stmts?_data : ∀ b : List Stmt, (∀ x ∈ Block.symbols b, x.Spelled) →
    Datum.stmts? (Block.data b) = some (Block.change .unlined b)
  | [], _ => rfl
  | s :: rest, h => by
    simp only [Block.symbols, List.forall_mem_append] at h
    simp [Block.data, Datum.stmts?, Stmt.stmt?_datum s h.1, Block.stmts?_data rest h.2,
      Block.change]

theorem Chain.chain?_data : ∀ c : Chain, (∀ x ∈ c.symbols, x.Spelled) →
    Datum.chain? c.data = some (c.change .unlined)
  | .stop, _ => rfl
  | .elif e b next, h => by
    simp only [Chain.symbols, List.forall_mem_cons, List.forall_mem_append] at h
    obtain ⟨-, -, he, -, -, hb, -, hc⟩ := h
    simp [Chain.data, Datum.chain?, Expr.expr?_datum he, Block.stmts?_data b hb,
      Chain.chain?_data next hc, Chain.change]
  | .otherwise b, h => by
    simp only [Chain.symbols, List.forall_mem_cons, List.forall_mem_append] at h
    simp [Chain.data, Datum.chain?, Block.stmts?_data b h.2.2.1, Chain.change]

end

/-- A printed program is read back without its lines. -/
theorem Block.ofSexpr?_print {p : Block} (h : ∀ x ∈ Block.symbols p, x.Spelled) :
    Block.ofSexpr? p.print = some p.unlined := by
  rw [Block.ofSexpr?, Block.toList_print, Datum.readAll_lines (Block.legible_data p h)]
  exact Block.stmts?_data p h

/-! ## Lines -/

theorem Expr.datum_unlined (e : Expr) : e.unlined.datum = e.datum := by
  induction e with
  | int l => rfl
  | ident l => rfl
  | paren e ih => simp [datum, ih]
  | binary op l r ihl ihr => simp [datum, ihl, ihr]

mutual

theorem Stmt.datum_unlined : ∀ s : Stmt, (s.change .unlined).datum = s.datum
  | .exit e => by simp [Stmt.change, Stmt.datum, e.datum_unlined]
  | .declare n e => by
    simp [Stmt.change, Stmt.datum, e.datum_unlined]
  | .assign n e => by
    simp [Stmt.change, Stmt.datum, e.datum_unlined]
  | .scope b => by simp [Stmt.change, Stmt.datum, Block.data_unlined b]
  | .cond e b c => by
    simp [Stmt.change, Stmt.datum, e.datum_unlined, Block.data_unlined b, Chain.data_unlined c]

theorem Block.data_unlined : ∀ b : List Stmt, Block.data (Block.change .unlined b) = Block.data b
  | [] => rfl
  | s :: rest => by simp [Block.change, Block.data, Stmt.datum_unlined s, Block.data_unlined rest]

theorem Chain.data_unlined : ∀ c : Chain, (c.change .unlined).data = c.data
  | .stop => rfl
  | .elif e b next => by
    simp [Chain.change, Chain.data, e.datum_unlined, Block.data_unlined b, Chain.data_unlined next]
  | .otherwise b => by simp [Chain.change, Chain.data, Block.data_unlined b]

end

/-- A program is printed without regard to its lines. -/
theorem Block.print_unlined (p : Block) : p.unlined.print = p.print := by
  rw [← String.toList_inj, Block.toList_print, Block.toList_print, Block.unlined,
    Block.data_unlined]

/-! ## Programs read from texts -/

/-- The program is what the text is read as, in some arena. -/
def Block.IsTreeOf (p : Block) (source : String) : Prop :=
  ∃ arena tokens, tokenize source = .ok tokens ∧ (parse arena tokens).1 = .ok p

theorem Block.isTreeOf_of_read {p : Block} {source : String} {tokens : List Token} (arena : Arena)
    (htokens : tokenize source = .ok tokens) (hread : (Reader.read tokens).result = .ok p)
    (hserve : (arena.serve (Reader.read tokens).requests).1 = none) : p.IsTreeOf source := by
  refine ⟨arena, tokens, htokens, ?_⟩
  rw [parse_fst, hserve, hread]
  rfl

theorem Token.spelled_symbol {t : Token} {rest : List Char} (h : t.Fits rest) :
    t.symbol.Spelled := by
  obtain ⟨⟨line, text⟩, kind⟩ := t
  cases kind with
  | identifier =>
    obtain ⟨c, cs, htext, hc, hcs, -⟩ := h
    exact ⟨c, cs, htext, hc, hcs⟩
  | integer =>
    obtain ⟨digits, htext, hne, hdigits, -⟩ := h
    exact ⟨digits, htext, hne, hdigits⟩
  | _ => trivial

/-- The names of a program that was read from a text are words, and its literals numbers. -/
theorem Block.IsTreeOf.spelled {p : Block} {source : String} (h : p.IsTreeOf source) :
    ∀ x ∈ Block.symbols p, x.Spelled := by
  obtain ⟨arena, tokens, htokens, hparse⟩ := h
  have hread := (parse_eq_ok_iff.1 (Prod.ext hparse rfl)).1
  have hsymbols : Block.symbols p = tokens.map Token.symbol :=
    (Reader.readFrom_eq_ok (Reader.fits_initial _) hread).1
  rw [hsymbols, List.forall_mem_map]
  intro t ht
  obtain ⟨rest, hfits⟩ := fits_of_tokenize htokens t ht
  exact Token.spelled_symbol hfits

/-- A program that was read from a text is recovered from its printed form, up to its lines. So two
such programs are printed alike exactly when they are equal up to lines. -/
theorem print_lossless {p q : Block} {source source' : String} (hp : p.IsTreeOf source)
    (hq : q.IsTreeOf source') :
    Block.ofSexpr? p.print = some p.unlined ∧ (p.print = q.print ↔ p.unlined = q.unlined) := by
  have hpread := Block.ofSexpr?_print hp.spelled
  have hqread := Block.ofSexpr?_print hq.spelled
  refine ⟨hpread, ?_, ?_⟩
  · intro hprint
    rw [hprint, hqread] at hpread
    exact (Option.some.inj hpread).symm
  · intro hlines
    rw [← Block.print_unlined p, hlines, Block.print_unlined]

/-- Names that are spelled like tags, in a conditional with a chain. -/
def taggedNames : Block :=
  let name (n : String) : Lexeme := ⟨1, some n⟩
  let value : Expr := .binary .sub (.ident (name "scope")) (.ident (name "assign"))
  [.cond (.ident (name "scope")) [.assign (name "paren") (.paren value)]
    (.elif (.int (name "2")) [.scope []] (.otherwise []))]

def taggedNamesText : String :=
  "if (scope) \x7b paren = (scope - assign); \x7d elif (2) \x7b \x7b \x7d \x7d else \x7b \x7d"

/-- The same conditional, with a second one in its `else` for the chain. -/
def taggedNamesNested : Block :=
  let name (n : String) : Lexeme := ⟨1, some n⟩
  let value : Expr := .binary .sub (.ident (name "scope")) (.ident (name "assign"))
  [.cond (.ident (name "scope")) [.assign (name "paren") (.paren value)]
    (.otherwise [.cond (.int (name "2")) [.scope []] (.otherwise [])])]

def taggedNamesNestedText : String :=
  "if (scope) \x7b paren = (scope - assign); \x7d " ++
    "else \x7b if (2) \x7b \x7b \x7d \x7d else \x7b \x7d \x7d"

theorem print_lossless_taggedNames :
    taggedNames.IsTreeOf taggedNamesText ∧ taggedNamesNested.IsTreeOf taggedNamesNestedText ∧
      Block.ofSexpr? taggedNames.print = some taggedNames.unlined ∧
      taggedNames.print ≠ taggedNamesNested.print := by
  have htokens : tokenize taggedNamesText = .ok ((Block.symbols taggedNames).map Symbol.token) :=
    toOption_eq_some.1 (by decide +kernel)
  have htokens' : tokenize taggedNamesNestedText =
      .ok ((Block.symbols taggedNamesNested).map Symbol.token) :=
    toOption_eq_some.1 (by decide +kernel)
  have hp : taggedNames.IsTreeOf taggedNamesText :=
    Block.isTreeOf_of_read { limit := 2000 } htokens rfl (by decide +kernel)
  have hq : taggedNamesNested.IsTreeOf taggedNamesNestedText :=
    Block.isTreeOf_of_read { limit := 2000 } htokens' rfl (by decide +kernel)
  obtain ⟨hread, hiff⟩ := print_lossless hp hq
  refine ⟨hp, hq, hread, fun hprint => ?_⟩
  cases hiff.1 hprint

end Kei

import Kei.Proofs.Meaning.Relabel
import Kei.Proofs.Reader.Cost
import Kei.Proofs.Token.Spelling

/-!
# Lines do not matter

Tokens carry the lines they stand on into trees and into messages, and nothing else depends on them.
For the reader this is a statement about one step: forgetting the lines of a state commutes with
settling it and with offering it a token (`State.settle_unlined`, `State.move_unlined`). So two runs
over tokens of the same kinds and texts go the same way (`readFrom_upToLines`), ask for the same
memory and end in trees that differ in lines only. Forgetting the lines of a tree is a change
that keeps its code.
-/

namespace Kei

theorem Token.kind_unlined (t : Token) : t.unlined.kind = t.kind := rfl

theorem Token.describe_unlined (t : Token) :
    Token.describe (some t.unlined) = Token.describe (some t) := rfl

def Branch.unlined (b : Branch) : Branch :=
  ⟨b.test.unlined, Block.unlined b.body⟩

theorem ofBranches_unlined (newest : Branch) (older : List Branch) (chain : Chain) :
    (Stmt.ofBranches newest older chain).change .unlined =
      .ofBranches newest.unlined (older.map Branch.unlined) (chain.change .unlined) := by
  induction older generalizing newest chain with
  | nil => rfl
  | cons b older ih => exact ih b (.elif newest.test newest.body chain)

namespace Reader

/-! ## States without lines -/

def Use.unlined : Use → Use
  | .exit => .exit
  | .declare n => .declare n.unlined
  | .assign n => .assign n.unlined
  | .test earlier => .test (earlier.map Branch.unlined)

def Role.unlined : Role → Role
  | .scope => .scope
  | .branch earlier test => .branch (earlier.map Branch.unlined) test.unlined
  | .otherwise newest older => .otherwise newest.unlined (older.map Branch.unlined)

def Level.unlined (l : Level) : Level :=
  ⟨l.role.unlined, l.before.map (Stmt.change .unlined)⟩

/-- Waiting operands without lines. -/
def unlinedWaiting (waiting : Waiting) : Waiting :=
  waiting.map fun p => (p.1.unlined, p.2)

def Place.unlined : Place → Place
  | .statement => .statement
  | .exitParen => .exitParen
  | .letName => .letName
  | .letEquals n => .letEquals n.unlined
  | .assignEquals n => .assignEquals n.unlined
  | .term use groups waiting =>
    .term use.unlined (groups.map unlinedWaiting) (unlinedWaiting waiting)
  | .operator use groups waiting e =>
    .operator use.unlined (groups.map unlinedWaiting) (unlinedWaiting waiting)
      e.unlined
  | .exitEnd e => .exitEnd e.unlined
  | .testParen earlier => .testParen (earlier.map Branch.unlined)
  | .body role => .body role.unlined
  | .chain newest older => .chain newest.unlined (older.map Branch.unlined)

/-- The state without the lines of its lexemes. -/
def State.unlined (s : State) : State where
  levels := s.levels.map Level.unlined
  done := s.done.map (Stmt.change .unlined)
  place := s.place.unlined
  nodes := s.nodes

theorem State.nodes_unlined (s : State) : s.unlined.nodes = s.nodes := rfl

def Move.unlined : Move → Move
  | .to s => .to s.unlined
  | .refused => .refused
  | .tooDeep => .tooDeep

/-! ## One step -/

theorem combine_unlined (level : Nat) (nodes : List Node) (waiting : Waiting) (e : Expr) :
    combine level nodes (unlinedWaiting waiting) e.unlined =
      (unlinedWaiting (combine level nodes waiting e).1,
        (combine level nodes waiting e).2.1.unlined,
        (combine level nodes waiting e).2.2) := by
  fun_induction combine level nodes waiting e with
  | case1 nodes e lhs op waiting h ih =>
    rw [unlinedWaiting, List.map_cons, combine, if_pos h]
    exact ih
  | case2 nodes e lhs op waiting h =>
    rw [unlinedWaiting, List.map_cons, combine, if_neg h]
  | case3 => rfl

theorem State.settle_unlined (s : State) (next : Option Kind) :
    (s.settle next).unlined = s.unlined.settle next := by
  obtain ⟨levels, done, place, nodes⟩ := s
  cases place with
  | operator use groups waiting e =>
    simp only [settle, State.unlined, Place.unlined, combine_unlined]
  | chain newest older =>
    simp only [settle, State.unlined, Place.unlined]
    split
    · rfl
    · simp [ofBranches_unlined, Chain.change]
  | _ => rfl

theorem State.depth_unlined (s : State) : s.unlined.depth = s.depth := by
  obtain ⟨levels, done, place, nodes⟩ := s
  cases place <;> simp [State.depth, State.unlined, Place.unlined]

theorem State.wanted_unlined (s : State) : s.unlined.wanted = s.wanted := by
  obtain ⟨levels, done, place, nodes⟩ := s
  cases place with
  | operator use groups waiting e =>
    rcases groups with _ | ⟨outer, groups⟩
    · cases use <;> rfl
    · rfl
  | statement | chain => simp [State.wanted, State.unlined, Place.unlined]
  | _ => rfl

theorem State.openBlock_unlined (limit : Nat) (s : State) (role : Role) :
    (s.openBlock limit role).unlined = s.unlined.openBlock limit role.unlined := by
  unfold State.openBlock
  rw [State.depth_unlined]
  split <;> rfl

theorem State.closeBlock_unlined (s : State) : s.closeBlock.unlined = s.unlined.closeBlock := by
  obtain ⟨levels, done, place, nodes⟩ := s
  rcases levels with _ | ⟨⟨role, before⟩, levels⟩
  · rfl
  · cases role <;>
      simp [State.closeBlock, State.unlined, Level.unlined, Role.unlined, Move.unlined,
        State.finish, Place.unlined, Stmt.change, Block.change_eq_map, ofBranches_unlined,
        Branch.unlined, Block.unlined, Chain.change]

theorem State.closeExpr_unlined (s : State) (kind : Kind) (use : Use) (e : Expr) :
    (s.closeExpr kind use e).unlined =
      s.unlined.closeExpr kind use.unlined e.unlined := by
  cases use <;> cases kind <;> rfl

theorem kinds_unlined (n : Nat) (ahead : List Token) :
    ((ahead.map Token.unlined).take n).map (·.kind) = (ahead.take n).map (·.kind) := by
  rw [← List.map_take, List.map_map]
  rfl

theorem State.move_paren_unlined (limit : Nat) (s : State) (t : Token) (ahead : List Token)
    {use : Use} {groups : List Waiting} {waiting : Waiting}
    (hp : s.place = .term use groups waiting) (ht : t.kind = .leftParen) :
    (s.move limit t ahead).unlined =
      s.unlined.move limit t.unlined (ahead.map Token.unlined) := by
  have hp' : s.unlined.place = .term use.unlined (groups.map unlinedWaiting)
      (unlinedWaiting waiting) := congrArg Place.unlined hp
  have ht' : t.unlined.kind = .leftParen := ht
  simp only [State.move, hp, hp', ht, ht', State.depth_unlined]
  split <;> rfl

theorem State.move_operator_unlined (limit : Nat) (s : State) (t : Token) (ahead : List Token)
    {use : Use} {groups : List Waiting} {waiting : Waiting} {e : Expr}
    (hp : s.place = .operator use groups waiting e) :
    (s.move limit t ahead).unlined =
      s.unlined.move limit t.unlined (ahead.map Token.unlined) := by
  have hp' : s.unlined.place = .operator use.unlined (groups.map unlinedWaiting)
      (unlinedWaiting waiting) e.unlined := congrArg Place.unlined hp
  have hkind : t.unlined.kind = t.kind := rfl
  simp only [State.move, hp, hp', hkind]
  cases Op.ofKind? t.kind with
  | some op => rfl
  | none =>
    rcases groups with _ | ⟨outer, groups⟩
    · exact State.closeExpr_unlined s t.kind use e
    · simp only [List.map_cons]
      split <;> rfl

/-- A token moves the reader the same way, whatever the lines. -/
theorem State.move_unlined (limit : Nat) (s : State) (t : Token) (ahead : List Token) :
    (s.move limit t ahead).unlined =
      s.unlined.move limit t.unlined (ahead.map Token.unlined) := by
  obtain ⟨levels, done, place, nodes⟩ := s
  obtain ⟨l, kind⟩ := t
  cases place with
  | statement =>
    cases kind with
    | exitWord | letWord | identifier =>
      simp only [State.move, State.unlined, Place.unlined, Token.unlined, kinds_unlined]
      split <;> rfl
    | leftBrace => exact State.openBlock_unlined limit _ .scope
    | rightBrace => exact State.closeBlock_unlined _
    | _ => rfl
  | term use groups waiting =>
    cases kind with
    | leftParen => exact State.move_paren_unlined limit _ _ ahead rfl rfl
    | _ => rfl
  | operator use groups waiting e => exact State.move_operator_unlined limit _ _ ahead rfl
  | body role =>
    cases kind with
    | leftBrace => exact State.openBlock_unlined limit _ role
    | _ => rfl
  | _ => cases kind <;> rfl

/-! ## Whole runs -/

/-- Moves that differ in lines only go the same way. -/
theorem Move.cases_of_unlined_eq {m m' : Move} (h : m.unlined = m'.unlined) :
    (∃ s s', m = .to s ∧ m' = .to s' ∧ s.unlined = s'.unlined) ∨
      (m = .refused ∧ m' = .refused) ∨ (m = .tooDeep ∧ m' = .tooDeep) := by
  rcases m with s | _ | _ <;> rcases m' with s' | _ | _ <;> simp_all [Move.unlined]

theorem Place.unlined_eq_statement {p : Place} : p.unlined = .statement ↔ p = .statement := by
  cases p <;> simp [Place.unlined]

/-- The reader is done: between statements, and outside of all blocks. -/
def State.Done (s : State) : Prop :=
  s.place = .statement ∧ s.levels = []

theorem State.done_unlined {s : State} : s.unlined.Done ↔ s.Done := by
  unfold State.Done
  rw [State.unlined, Place.unlined_eq_statement, List.map_eq_nil_iff]

theorem readFrom_nil_of_done {limit line : Nat} {s : State} (h : (s.settle none).Done) :
    readFrom limit s line [] = ⟨.ok (s.settle none).done.reverse, (s.settle none).nodes⟩ := by
  simp only [readFrom, h.1, h.2]

theorem readFrom_nil_of_not_done {limit line : Nat} {s : State} (h : ¬ (s.settle none).Done) :
    readFrom limit s line [] =
      ⟨.error (.expected (s.settle none).wanted (Token.describe none) line),
        (s.settle none).nodes⟩ := by
  simp only [readFrom]
  split
  · rename_i hp hl
    exact absurd ⟨hp, hl⟩ h
  · rfl

end Reader

/-! ## Results up to lines -/

def LexError.unlined : LexError → LexError
  | unexpectedCharacter c _ => unexpectedCharacter c 0
  | invalidNumber text _ => invalidNumber text 0

def SyntaxError.unlined : SyntaxError → SyntaxError
  | expected what got _ => expected what got 0
  | nestingTooDeep limit _ => nestingTooDeep limit 0

/-- The error without its line. -/
def CompileError.unlined : CompileError → CompileError
  | lex e => lex e.unlined
  | grammar e => grammar e.unlined
  | memory e => memory e
  | scope e => scope (e.relabel id fun _ => 0)

/-- Both succeed, with results that `same` compares, or both fail with the same error up to its
line. -/
inductive UpToLines (same : α → α → Prop) :
    Except CompileError α → Except CompileError α → Prop
  | ok {a b : α} : same a b → UpToLines same (.ok a) (.ok b)
  | error {e e' : CompileError} : e.unlined = e'.unlined → UpToLines same (.error e) (.error e')

/-- The programs differ in the lines of their lexemes only. -/
def SameTree (p q : Block) : Prop :=
  p.unlined = q.unlined

namespace Reader

/-- States that differ in lines only read tokens that differ in lines only alike. -/
theorem readFrom_upToLines {limit line line' : Nat} {s s' : State} {ts us : List Token}
    (hs : s.unlined = s'.unlined) (hts : ts.map Token.unlined = us.map Token.unlined) :
    (readFrom limit s line ts).nodes = (readFrom limit s' line' us).nodes ∧
      UpToLines SameTree ((readFrom limit s line ts).result.mapError .grammar)
        ((readFrom limit s' line' us).result.mapError .grammar) := by
  induction ts generalizing s s' line line' us with
  | nil =>
    obtain rfl : us = [] := by simpa using hts.symm
    have hsettle : (s.settle none).unlined = (s'.settle none).unlined := by
      rw [State.settle_unlined, State.settle_unlined, hs]
    have hnodes : (s.settle none).nodes = (s'.settle none).nodes := by
      rw [← State.nodes_unlined, hsettle, State.nodes_unlined]
    by_cases hdone : (s.settle none).Done
    · have hdone' : (s'.settle none).Done := by
        rwa [← State.done_unlined, ← hsettle, State.done_unlined]
      rw [readFrom_nil_of_done hdone, readFrom_nil_of_done hdone']
      refine ⟨hnodes, .ok ?_⟩
      have hlist : (s.settle none).done.map (Stmt.change .unlined) =
          (s'.settle none).done.map (Stmt.change .unlined) := congrArg State.done hsettle
      rw [SameTree, Block.unlined, Block.unlined, Block.change_eq_map, Block.change_eq_map,
        List.map_reverse, List.map_reverse, hlist]
    · have hdone' : ¬ (s'.settle none).Done := by
        rwa [← State.done_unlined, ← hsettle, State.done_unlined]
      rw [readFrom_nil_of_not_done hdone, readFrom_nil_of_not_done hdone']
      refine ⟨hnodes, .error ?_⟩
      rw [← State.wanted_unlined (s.settle none), hsettle, State.wanted_unlined]
      rfl
  | cons t ts ih =>
    obtain ⟨u, us, rfl, hu, hus⟩ := List.map_eq_cons_iff.1 hts.symm
    have hkind : u.kind = t.kind := by
      rw [← Token.kind_unlined u, hu, Token.kind_unlined]
    have hfound : Token.describe (some u) = Token.describe (some t) := by
      rw [← Token.describe_unlined u, hu, Token.describe_unlined]
    have hsettle : (s.settle (some t.kind)).unlined = (s'.settle (some u.kind)).unlined := by
      rw [State.settle_unlined, State.settle_unlined, hs, hkind]
    have hnodes : (s.settle (some t.kind)).nodes = (s'.settle (some u.kind)).nodes := by
      rw [← State.nodes_unlined, hsettle, State.nodes_unlined]
    have hmove : ((s.settle (some t.kind)).move limit t ts).unlined =
        ((s'.settle (some u.kind)).move limit u us).unlined := by
      rw [State.move_unlined, State.move_unlined, hsettle, hu, hus]
    rw [readFrom, readFrom]
    rcases Move.cases_of_unlined_eq hmove with ⟨s₁, s₂, h₁, h₂, heq⟩ | ⟨h₁, h₂⟩ | ⟨h₁, h₂⟩
    · rw [h₁, h₂]
      exact ih heq hus.symm
    · rw [h₁, h₂]
      refine ⟨hnodes, .error ?_⟩
      rw [← State.wanted_unlined (s.settle (some t.kind)), hsettle, State.wanted_unlined, ← hfound]
      rfl
    · rw [h₁, h₂]
      exact ⟨hnodes, .error rfl⟩

end Reader

/-! ## Whole programs -/

section

variable {ts us : List Token}

theorem map_unlined_of_content (h : ts.map Token.content = us.map Token.content) :
    ts.map Token.unlined = us.map Token.unlined := by
  have hunlined : ∀ tokens : List Token, tokens.map Token.unlined =
      (tokens.map Token.content).map fun c => { line := 0, text := c.2, kind := c.1 } := by
    intro tokens
    rw [List.map_map]
    rfl
  rw [hunlined, hunlined, h]

/-- Reading builds the same nodes and comes to the same. -/
theorem read_upToLines (h : ts.map Token.content = us.map Token.content) :
    (Reader.read ts).nodes = (Reader.read us).nodes ∧
      UpToLines SameTree ((Reader.read ts).result.mapError .grammar)
        ((Reader.read us).result.mapError .grammar) :=
  Reader.readFrom_upToLines rfl (map_unlined_of_content h)

theorem SameTree.length_eq {p q : Block} (h : SameTree p q) : p.length = q.length := by
  have hlength := congrArg List.length h
  rwa [Block.unlined, Block.unlined, Block.change_eq_map, Block.change_eq_map, List.length_map,
    List.length_map] at hlength

/-- Reading asks for the same memory. -/
theorem requests_eq_of_content (h : ts.map Token.content = us.map Token.content) :
    (Reader.read ts).requests = (Reader.read us).requests := by
  obtain ⟨hnodes, hresult⟩ := read_upToLines h
  have hlinks : (Reader.read ts).links = (Reader.read us).links := by
    unfold Reader.Outcome.links
    cases hts : (Reader.read ts).result with
    | error e =>
      cases hus : (Reader.read us).result with
      | error e' => rfl
      | ok q =>
        rw [hts, hus] at hresult
        cases hresult
    | ok p =>
      cases hus : (Reader.read us).result with
      | error e' =>
        rw [hts, hus] at hresult
        cases hresult
      | ok q =>
        rw [hts, hus] at hresult
        cases hresult with
        | ok hsame => simp only [hsame.length_eq]
  rw [Reader.Outcome.requests, Reader.Outcome.requests, hnodes, hlinks]

theorem parse_upToLines (h : ts.map Token.content = us.map Token.content) (arena : Arena) :
    (parse arena ts).2 = (parse arena us).2 ∧
      UpToLines SameTree (parse arena ts).1 (parse arena us).1 := by
  rw [parse_snd, parse_snd, parse_fst, parse_fst, requests_eq_of_content h]
  refine ⟨rfl, ?_⟩
  cases (arena.serve (Reader.read us).requests).1 with
  | some refusal => exact .error rfl
  | none => exact (read_upToLines h).2

theorem generate_unlined (p : Block) :
    generate p.unlined = (generate p).mapError (CompileError.relabelScope id fun _ => 0) := by
  have hrenames : Renames Lexeme.unlined id (fun _ => 0) {x | x ∈ Block.names p} :=
    { spelling := fun _ => rfl
      line := fun _ => rfl
      injOn := fun _ _ _ _ heq => heq }
  exact generate_change (Change.keeps_lexemes (fun _ => rfl) hrenames)

theorem CompileError.unlined_relabelScope (e : CompileError) :
    (e.relabelScope id fun _ => 0).unlined = e.unlined := by
  cases e with
  | scope e => cases e <;> rfl
  | _ => rfl

theorem generate_upToLines {p q : Block} (h : SameTree p q) :
    UpToLines (· = ·) (generate p) (generate q) := by
  have heq : (generate p).mapError (CompileError.relabelScope id fun _ => 0) =
      (generate q).mapError (CompileError.relabelScope id fun _ => 0) := by
    rw [← generate_unlined, ← generate_unlined, h]
  cases hp : generate p with
  | error e =>
    cases hq : generate q with
    | error e' =>
      rw [hp, hq] at heq
      refine .error ?_
      rw [← e.unlined_relabelScope, ← e'.unlined_relabelScope, Except.error.inj heq]
    | ok asm => simp [hp, hq] at heq
  | ok asm =>
    cases hq : generate q with
    | error e' => simp [hp, hq] at heq
    | ok asm' =>
      rw [hp, hq] at heq
      exact .ok (Except.ok.inj heq)

theorem UpToLines.mono {same same' : α → α → Prop} {x y : Except CompileError α}
    (h : UpToLines same x y) (hsame : ∀ a b, same a b → same' a b) : UpToLines same' x y := by
  cases h with
  | ok hab => exact .ok (hsame _ _ hab)
  | error he => exact .error he

theorem UpToLines.bind {same : α → α → Prop} {same' : β → β → Prop}
    {x y : Except CompileError α} {f g : α → Except CompileError β} (h : UpToLines same x y)
    (hfg : ∀ a b, same a b → UpToLines same' (f a) (g b)) :
    UpToLines same' (x >>= f) (y >>= g) := by
  cases h with
  | ok hab => exact hfg _ _ hab
  | error he => exact .error he

/-- Tokens of the same kinds and texts, on whatever lines, are read into trees that are equal up to
lines, with the same memory taken from an arena, and the trees have the same code. If something is
wrong with them, it is the same up to its line. So texts that differ in white space and comments
only compile to the same assembly. -/
theorem parse_generate_upToLines (h : ts.map Token.content = us.map Token.content)
    (arena : Arena) :
    (parse arena ts).2 = (parse arena us).2 ∧
      UpToLines (fun p q => p.unlined = q.unlined ∧ UpToLines (· = ·) (generate p) (generate q))
        (parse arena ts).1 (parse arena us).1 ∧
      ∀ limit source source', tokenize source = .ok ts → tokenize source' = .ok us →
        UpToLines (· = ·) (compile limit source) (compile limit source') := by
  refine ⟨(parse_upToLines h arena).1, ?_, ?_⟩
  · exact (parse_upToLines h arena).2.mono fun p q hsame => ⟨hsame, generate_upToLines hsame⟩
  · intro limit source source' hsource hsource'
    rw [compile, compile, hsource, hsource', ok_bind, ok_bind]
    exact (parse_upToLines h { limit }).2.bind fun p q => generate_upToLines

end

/-- The text `exit(1);` with a comment and line breaks in it. -/
def spreadText : String :=
  "exit // status\n(/*\n*/1\n);"

theorem parse_generate_upToLines_spread :
    let token (kind : Kind) (text : Option String) (line : Nat) : Token := ⟨⟨line, text⟩, kind⟩
    let ts := [token .exitWord none 1, token .leftParen none 1, token .integer (some "1") 1,
      token .rightParen none 1, token .semicolon none 1]
    let us := [token .exitWord none 1, token .leftParen none 2, token .integer (some "1") 3,
      token .rightParen none 4, token .semicolon none 4]
    tokenize "exit(1);" = .ok ts ∧ tokenize spreadText = .ok us ∧
      ts.map Token.content = us.map Token.content ∧
      ∀ limit, UpToLines (· = ·) (compile limit "exit(1);") (compile limit spreadText) := by
  intro token ts us
  have hts : tokenize "exit(1);" = .ok ts := toOption_eq_some.1 (by decide +kernel)
  have hus : tokenize spreadText = .ok us := toOption_eq_some.1 (by decide +kernel)
  have hcontent : ts.map Token.content = us.map Token.content := rfl
  refine ⟨hts, hus, hcontent, fun limit => ?_⟩
  exact (parse_generate_upToLines hcontent { limit }).2.2 limit _ _ hts hus

end Kei

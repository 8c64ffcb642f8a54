import Kei.Syntax.Reader
import Kei.Syntax.Concrete

/-!
# Transitions of the reader

What one step of the reader can do, said once: `Reader.Step` has one constructor for each transition
of a settled state, with its guards; these are exactly the moves that succeed (`State.step_of_move`,
`Step.move`). The invariants of reading are proved by cases on it.
-/

namespace Kei

/-! ## Symbols of tokens -/

namespace Token

theorem symbol_of_kind {t : Token} {k : Kind} (h : t.kind = k) (hi : k ≠ .integer)
    (hn : k ≠ .identifier) : t.symbol = .fixed k := by
  subst h
  simp [symbol, Symbol.fixed, hi, hn]

theorem symbol_integer {t : Token} (h : t.kind = .integer) :
    t.symbol = (.integer, some t.toLexeme) := by
  simp [symbol, h]

theorem symbol_identifier {t : Token} (h : t.kind = .identifier) :
    t.symbol = (.identifier, some t.toLexeme) := by
  simp [symbol, h]

end Token

theorem Op.kind_of_ofKind? {k : Kind} {op : Op} (h : Op.ofKind? k = some op) : op.kind = k := by
  cases k <;> simp [Op.ofKind?] at h <;> subst h <;> rfl

@[simp] theorem Op.ofKind?_kind (op : Op) : Op.ofKind? op.kind = some op := by
  cases op <;> rfl

@[simp] theorem Op.level?_kind (op : Op) : op.kind.level? = some op.level := by
  cases op <;> rfl

theorem Op.level_lt_two (op : Op) : op.level < 2 := by
  cases op <;> decide

theorem Op.symbol_of_kind {t : Token} {op : Op} (h : t.kind = op.kind) :
    t.symbol = .fixed op.kind :=
  Token.symbol_of_kind h (by cases op <;> decide) (by cases op <;> decide)

namespace Reader

/-- How tightly the next token binds; what is no operator ends the expression. -/
def nextLevel (next : Option Kind) : Nat :=
  (next.bind Kind.level?).getD 0

/-- The transitions of a settled state `s` at the token `t` with the tokens `ahead` after it. -/
inductive Step (limit : Nat) (s : State) (t : Token) (ahead : List Token) : State → Prop
  | exitWord : s.place = .statement → t.kind = .exitWord →
    (ahead.take 1).map (·.kind) = [.leftParen] → Step limit s t ahead { s with place := .exitParen }
  | letWord : s.place = .statement → t.kind = .letWord →
    (ahead.take 2).map (·.kind) = [.identifier, .equals] →
    Step limit s t ahead { s with place := .letName }
  | assign : s.place = .statement → t.kind = .identifier →
    (ahead.take 1).map (·.kind) = [.equals] →
    Step limit s t ahead { s with place := .assignEquals t.toLexeme }
  | ifWord : s.place = .statement → t.kind = .ifWord →
    Step limit s t ahead { s with place := .testParen [] }
  | openScope : s.place = .statement → t.kind = .leftBrace → s.levels.length < limit →
    Step limit s t ahead
      { s with levels := ⟨.scope, s.done⟩ :: s.levels, done := [], place := .statement }
  | openBody {role} : s.place = .body role → t.kind = .leftBrace → s.levels.length < limit →
    Step limit s t ahead
      { s with levels := ⟨role, s.done⟩ :: s.levels, done := [], place := .statement }
  | closeScope {before levels} : s.place = .statement → t.kind = .rightBrace →
    s.levels = ⟨.scope, before⟩ :: levels →
    Step limit s t ahead
      { levels, done := .scope s.done.reverse :: before, place := .statement
        nodes := .stmt :: .scope :: (List.replicate s.done.length .link ++ s.nodes) }
  | closeBranch {earlier test before levels} : s.place = .statement → t.kind = .rightBrace →
    s.levels = ⟨.branch earlier test, before⟩ :: levels →
    Step limit s t ahead
      { levels, done := before, place := .chain ⟨test, s.done.reverse⟩ earlier
        nodes := .scope :: (List.replicate s.done.length .link ++ s.nodes) }
  | closeOtherwise {newest older before levels} : s.place = .statement → t.kind = .rightBrace →
    s.levels = ⟨.otherwise newest older, before⟩ :: levels →
    Step limit s t ahead
      { levels, place := .statement
        done := .ofBranches newest older (.otherwise s.done.reverse) :: before
        nodes := .stmt :: (List.replicate (older.length + 1) .chain ++
          .scope :: (List.replicate s.done.length .link ++ s.nodes)) }
  | exitParen : s.place = .exitParen → t.kind = .leftParen →
    Step limit s t ahead { s with place := .term .exit [] [] }
  | letName : s.place = .letName → t.kind = .identifier →
    Step limit s t ahead { s with place := .letEquals t.toLexeme }
  | letEquals {name} : s.place = .letEquals name → t.kind = .equals →
    Step limit s t ahead { s with place := .term (.declare name) [] [] }
  | assignEquals {name} : s.place = .assignEquals name → t.kind = .equals →
    Step limit s t ahead { s with place := .term (.assign name) [] [] }
  | testParen {earlier} : s.place = .testParen earlier → t.kind = .leftParen →
    Step limit s t ahead { s with place := .term (.test earlier) [] [] }
  | integer {use groups waiting} : s.place = .term use groups waiting → t.kind = .integer →
    Step limit s t ahead (s.operand use groups waiting (.int t.toLexeme))
  | name {use groups waiting} : s.place = .term use groups waiting → t.kind = .identifier →
    Step limit s t ahead (s.operand use groups waiting (.ident t.toLexeme))
  | openParen {use groups waiting} : s.place = .term use groups waiting → t.kind = .leftParen →
    s.levels.length + groups.length < limit →
    Step limit s t ahead { s with place := .term use (waiting :: groups) [] }
  | operator {use groups waiting e op} : s.place = .operator use groups waiting e →
    t.kind = op.kind →
    Step limit s t ahead { s with place := .term use groups ((e, op) :: waiting) }
  | closeParen {use outer groups waiting e} : s.place = .operator use (outer :: groups) waiting e →
    t.kind = .rightParen → Step limit s t ahead (s.operand use groups outer (.paren e))
  | endExit {waiting e} : s.place = .operator .exit [] waiting e → t.kind = .rightParen →
    Step limit s t ahead { s with place := .exitEnd e }
  | endDeclare {name waiting e} : s.place = .operator (.declare name) [] waiting e →
    t.kind = .semicolon → Step limit s t ahead (s.finish (.declare name e))
  | endAssign {name waiting e} : s.place = .operator (.assign name) [] waiting e →
    t.kind = .semicolon → Step limit s t ahead (s.finish (.assign name e))
  | endTest {earlier waiting e} : s.place = .operator (.test earlier) [] waiting e →
    t.kind = .rightParen → Step limit s t ahead { s with place := .body (.branch earlier e) }
  | exitEnd {e} : s.place = .exitEnd e → t.kind = .semicolon →
    Step limit s t ahead (s.finish (.exit e))
  | elifWord {newest older} : s.place = .chain newest older → t.kind = .elifWord →
    Step limit s t ahead { s with place := .testParen (newest :: older) }
  | elseWord {newest older} : s.place = .chain newest older → t.kind = .elseWord →
    Step limit s t ahead { s with place := .body (.otherwise newest older) }

namespace State

variable {limit : Nat} {s s' : State} {t : Token} {ahead : List Token}

theorem openBlock_eq_to {role : Role} (h : s.openBlock limit role = .to s') :
    s.depth < limit ∧
      s' = { s with levels := ⟨role, s.done⟩ :: s.levels, done := [], place := .statement } := by
  unfold openBlock at h
  split at h
  · cases h; exact ⟨‹_›, rfl⟩
  · cases h

theorem step_of_closeBlock (hp : s.place = .statement) (ht : t.kind = .rightBrace)
    (h : s.closeBlock = .to s') : Step limit s t ahead s' := by
  unfold closeBlock at h
  split at h
  · cases h
  rename_i role before levels hl
  cases role with
  | scope => cases h; exact .closeScope hp ht hl
  | branch earlier test => cases h; exact .closeBranch hp ht hl
  | otherwise newest older => cases h; exact .closeOtherwise hp ht hl

theorem step_of_closeExpr {use : Use} {waiting : Waiting} {e : Expr}
    (hp : s.place = .operator use [] waiting e) (h : s.closeExpr t.kind use e = .to s') :
    Step limit s t ahead s' := by
  unfold closeExpr at h
  split at h <;> cases h
  · exact .endExit hp ‹_›
  · exact .endDeclare hp ‹_›
  · exact .endAssign hp ‹_›
  · exact .endTest hp ‹_›

theorem step_of_move_operator {use : Use} {groups : List Waiting} {waiting : Waiting} {e : Expr}
    (hp : s.place = .operator use groups waiting e) (h : s.move limit t ahead = .to s') :
    Step limit s t ahead s' := by
  simp only [move, hp] at h
  split at h
  · rename_i op hop
    cases h
    exact .operator hp (Op.kind_of_ofKind? hop).symm
  · exact step_of_closeExpr hp h
  · split at h
    · cases h; exact .closeParen hp ‹_›
    · cases h

/-- A move that succeeds is one of the transitions. -/
theorem step_of_move (h : s.move limit t ahead = .to s') : Step limit s t ahead s' := by
  have h₀ := h
  unfold move at h
  split at h
  case h_1 hp ht => split at h <;> cases h; exact .exitWord hp ht ‹_›
  case h_2 hp ht => split at h <;> cases h; exact .letWord hp ht ‹_›
  case h_3 hp ht => split at h <;> cases h; exact .assign hp ht ‹_›
  case h_4 hp ht =>
    obtain ⟨hd, rfl⟩ := openBlock_eq_to h
    exact .openScope hp ht (by simpa [depth, hp] using hd)
  case h_5 hp ht => cases h; exact .ifWord hp ht
  case h_6 hp ht => exact step_of_closeBlock hp ht h
  case h_7 hp ht => cases h; exact .exitParen hp ht
  case h_8 hp ht => cases h; exact .letName hp ht
  case h_9 hp ht => cases h; exact .letEquals hp ht
  case h_10 hp ht => cases h; exact .assignEquals hp ht
  case h_11 hp ht => cases h; exact .integer hp ht
  case h_12 hp ht => cases h; exact .name hp ht
  case h_13 hp ht =>
    split at h <;> cases h
    rename_i hd
    exact .openParen hp ht (by simpa [depth, hp] using hd)
  case h_14 hp => exact step_of_move_operator hp h₀
  case h_15 hp ht => cases h; exact .exitEnd hp ht
  case h_16 hp ht => cases h; exact .testParen hp ht
  case h_17 hp ht =>
    obtain ⟨hd, rfl⟩ := openBlock_eq_to h
    exact .openBody hp ht (by simpa [depth, hp] using hd)
  case h_18 hp ht => cases h; exact .elifWord hp ht
  case h_19 hp ht => cases h; exact .elseWord hp ht
  case h_20 => cases h

end State

/-- Every transition is a move. -/
theorem Step.move {limit : Nat} {s s' : State} {t : Token} {ahead : List Token}
    (h : Step limit s t ahead s') : s.move limit t ahead = .to s' := by
  cases h with
  | exitWord hp ht hahead | letWord hp ht hahead | assign hp ht hahead =>
    simp [State.move, hp, ht, hahead]
  | openScope hp ht hlim | openBody hp ht hlim | openParen hp ht hlim =>
    simp [State.move, State.openBlock, State.depth, hp, ht, hlim]
  | closeScope hp ht hl | closeBranch hp ht hl | closeOtherwise hp ht hl =>
    simp [State.move, State.closeBlock, State.finish, hp, ht, hl]
  | operator hp ht => simp [State.move, hp, ht]
  | closeParen hp ht => simp [State.move, hp, ht, Op.ofKind?]
  | endExit hp ht | endDeclare hp ht | endAssign hp ht | endTest hp ht =>
    simp [State.move, State.closeExpr, hp, ht, Op.ofKind?]
  | _ hp ht => simp [State.move, hp, ht]

end Reader

end Kei

import Kei.Compile
import Kei.Proofs.Basic
import Kei.Proofs.Memory.Serving
import Kei.Proofs.Reader.Transition

/-!
# What the reader has read

`State.symbols` writes a state of the reader back as concrete syntax: the open blocks from the
outermost in, the statements read of each, and the unfinished statement. Settling a state keeps its
symbols, and each transition adds the symbol of the token consumed, so a tree that was read is
written as exactly the tokens it was read from.

`State.Fits` is the other invariant. Every tree in the state is layered and keeps to the nesting
limit at the depth where it stands, and the waiting operators bind more and more tightly from the
outside in. Its parameter is the level that the newest operand is known to reach: after a term that
is the level of terms, and after settling it is the level of the next token.
-/

namespace Kei

/-! ## Symbols of a state -/

theorem Block.symbols_append (a b : List Stmt) :
    Block.symbols (a ++ b) = Block.symbols a ++ Block.symbols b := by
  induction a with
  | nil => rfl
  | cons s a ih => simp [Block.symbols, ih]

/-- A condition and its block as they are written. -/
def Branch.symbols (b : Branch) : List Symbol :=
  .fixed .leftParen :: (b.test.symbols ++ .fixed .rightParen :: .fixed .leftBrace ::
    (Block.symbols b.body ++ [.fixed .rightBrace]))

namespace Reader

/-- The word in front of a condition. -/
def testWord (earlier : List Branch) : Kind :=
  if earlier.isEmpty then .ifWord else .elifWord

/-- Branches as they are written, of which the newest comes first in the list. -/
def branchSymbols : List Branch → List Symbol
  | [] => []
  | b :: older =>
    branchSymbols older ++ .fixed (testWord older) :: b.symbols

/-- What is written before an expression. -/
def Use.symbols : Use → List Symbol
  | .exit => [.fixed .exitWord, .fixed .leftParen]
  | .declare n => [.fixed .letWord, (.identifier, some n), .fixed .equals]
  | .assign n => [(.identifier, some n), .fixed .equals]
  | .test earlier => branchSymbols earlier ++ [.fixed (testWord earlier), .fixed .leftParen]

/-- What is written before a block. -/
def Role.symbols : Role → List Symbol
  | .scope => []
  | .branch earlier test =>
    branchSymbols earlier ++ .fixed (testWord earlier) :: .fixed .leftParen ::
      (test.symbols ++ [.fixed .rightParen])
  | .otherwise newest older => branchSymbols (newest :: older) ++ [.fixed .elseWord]

def waitingSymbols : Waiting → List Symbol
  | [] => []
  | (lhs, op) :: waiting => waitingSymbols waiting ++ lhs.symbols ++ [.fixed op.kind]

def groupSymbols : List Waiting → List Symbol
  | [] => []
  | waiting :: groups => groupSymbols groups ++ waitingSymbols waiting ++ [.fixed .leftParen]

def levelSymbols : List Level → List Symbol
  | [] => []
  | l :: levels =>
    levelSymbols levels ++ Block.symbols l.before.reverse ++ l.role.symbols ++ [.fixed .leftBrace]

/-- The unfinished statement as far as it was read. -/
def Place.symbols : Place → List Symbol
  | .statement => []
  | .exitParen => [.fixed .exitWord]
  | .letName => [.fixed .letWord]
  | .letEquals n => [.fixed .letWord, (.identifier, some n)]
  | .assignEquals n => [(.identifier, some n)]
  | .term use groups waiting => use.symbols ++ groupSymbols groups ++ waitingSymbols waiting
  | .operator use groups waiting e =>
    use.symbols ++ groupSymbols groups ++ waitingSymbols waiting ++ e.symbols
  | .exitEnd e =>
    .fixed .exitWord :: .fixed .leftParen :: (e.symbols ++ [.fixed .rightParen])
  | .testParen earlier => branchSymbols earlier ++ [.fixed (testWord earlier)]
  | .body role => role.symbols
  | .chain newest older => branchSymbols (newest :: older)

/-- Everything read so far. -/
def State.symbols (s : State) : List Symbol :=
  levelSymbols s.levels ++ Block.symbols s.done.reverse ++ s.place.symbols

theorem ofBranches_symbols (newest : Branch) (older : List Branch) (chain : Chain) :
    (Stmt.ofBranches newest older chain).symbols =
      branchSymbols (newest :: older) ++ chain.symbols := by
  induction older generalizing newest chain with
  | nil => simp [Stmt.ofBranches, Stmt.symbols, Branch.symbols, branchSymbols, testWord]
  | cons b older ih =>
    rw [Stmt.ofBranches, ih]
    simp [branchSymbols, Branch.symbols, Chain.symbols, testWord]

theorem combine_symbols (level : Nat) (nodes : List Node) (waiting : Waiting) (e : Expr) :
    waitingSymbols (combine level nodes waiting e).1 ++
        (combine level nodes waiting e).2.1.symbols =
      waitingSymbols waiting ++ e.symbols := by
  fun_induction combine level nodes waiting e with
  | case1 nodes e lhs op waiting h ih => simp [ih, waitingSymbols, Expr.symbols]
  | case2 => rfl
  | case3 => rfl

theorem State.settle_symbols (s : State) (next : Option Kind) :
    (s.settle next).symbols = s.symbols := by
  unfold settle
  split
  case h_1 use groups waiting e hp =>
    simp [symbols, hp, Place.symbols, combine_symbols]
  case h_2 newest older hp =>
    split
    · rfl
    · simp [symbols, hp, Place.symbols, Block.symbols_append, Block.symbols, ofBranches_symbols,
        Chain.symbols]
  case h_3 => rfl

end Reader

/-! ## Trees that keep to precedence and to the nesting limit -/

/-- Inside `depth` scopes and parentheses, the expression is layered and keeps to the limit. -/
def Expr.Fits (limit depth : Nat) (e : Expr) : Prop :=
  e.Layered ∧ depth + e.nesting ≤ limit

def Stmt.Fits (limit depth : Nat) (s : Stmt) : Prop :=
  s.Layered ∧ depth + s.nesting ≤ limit

def Block.Fits (limit depth : Nat) (b : List Stmt) : Prop :=
  Block.Layered b ∧ depth + Block.nesting b ≤ limit

def Chain.Fits (limit depth : Nat) (c : Chain) : Prop :=
  c.Layered ∧ depth + c.nesting ≤ limit

theorem Block.fits_iff {limit depth : Nat} {b : List Stmt} :
    Block.Fits limit depth b ↔ depth ≤ limit ∧ ∀ s ∈ b, s.Fits limit depth := by
  induction b with
  | nil => simp [Block.Fits, Block.Layered, Block.nesting]
  | cons s b ih =>
    simp only [Block.Fits, Block.Layered, Block.nesting, Stmt.Fits, List.forall_mem_cons] at ih ⊢
    constructor
    · rintro ⟨⟨hs, hb⟩, hn⟩
      have := ih.1 ⟨hb, by omega⟩
      exact ⟨this.1, ⟨hs, by omega⟩, this.2⟩
    · rintro ⟨hd, ⟨hs, hn⟩, hb⟩
      have := ih.2 ⟨hd, hb⟩
      exact ⟨⟨hs, this.1⟩, by omega⟩

def Branch.Fits (limit depth : Nat) (b : Branch) : Prop :=
  b.test.Fits limit depth ∧ Block.Fits limit (depth + 1) b.body

namespace Reader

variable {limit depth : Nat}

theorem ofBranches_fits {newest : Branch} {older : List Branch} {chain : Chain}
    (hb : ∀ b ∈ newest :: older, b.Fits limit depth) (hc : chain.Fits limit depth) :
    (Stmt.ofBranches newest older chain).Fits limit depth := by
  induction older generalizing newest chain with
  | nil =>
    obtain ⟨⟨ht, hn⟩, hb, hm⟩ := hb newest (by simp)
    refine ⟨⟨ht, hb, hc.1⟩, ?_⟩
    have := hc.2
    simp only [Stmt.ofBranches, Stmt.nesting]
    omega
  | cons b older ih =>
    obtain ⟨⟨ht, hn⟩, hbody, hm⟩ := hb newest (by simp)
    refine ih (fun b' h' => hb b' (List.mem_cons_of_mem _ h')) ⟨⟨ht, hbody, hc.1⟩, ?_⟩
    have := hc.2
    simp only [Chain.nesting]
    omega

/-- Waiting operators that an operand of level `top` may follow: each binds less tightly than what
follows it, and its left operand at least as tightly as itself. -/
def WaitingFits (limit depth : Nat) : Nat → Waiting → Prop
  | _, [] => True
  | top, (lhs, op) :: waiting =>
    op.level < top ∧ op.level ≤ lhs.level ∧ lhs.Fits limit depth ∧
      WaitingFits limit depth op.level waiting

/-- What waits outside each open parenthesis; `depth` counts the blocks around all of them. -/
def GroupsFit (limit depth : Nat) : List Waiting → Prop
  | [] => True
  | waiting :: groups =>
    WaitingFits limit (depth + groups.length) 2 waiting ∧ depth + groups.length < limit ∧
      GroupsFit limit depth groups

def Use.Fits (limit depth : Nat) : Use → Prop
  | .test earlier => ∀ b ∈ earlier, b.Fits limit depth
  | _ => True

def Role.Fits (limit depth : Nat) : Role → Prop
  | .scope => True
  | .branch earlier test => (∀ b ∈ earlier, b.Fits limit depth) ∧ test.Fits limit depth
  | .otherwise newest older => ∀ b ∈ newest :: older, b.Fits limit depth

def LevelsFit (limit : Nat) : List Level → Prop
  | [] => True
  | l :: levels =>
    l.role.Fits limit levels.length ∧ (∀ s ∈ l.before, s.Fits limit levels.length) ∧
      levels.length < limit ∧ LevelsFit limit levels

def Place.Fits (limit depth top : Nat) : Place → Prop
  | .term use groups waiting =>
    use.Fits limit depth ∧ GroupsFit limit depth groups ∧
      WaitingFits limit (depth + groups.length) 2 waiting
  | .operator use groups waiting e =>
    use.Fits limit depth ∧ GroupsFit limit depth groups ∧
      WaitingFits limit (depth + groups.length) top waiting ∧
      e.Fits limit (depth + groups.length) ∧ top ≤ e.level
  | .exitEnd e => e.Fits limit depth
  | .testParen earlier => ∀ b ∈ earlier, b.Fits limit depth
  | .body role => role.Fits limit depth
  | .chain newest older => ∀ b ∈ newest :: older, b.Fits limit depth
  | _ => True

/-- Every tree in the state is layered and keeps to the nesting limit where it stands, and operands
waiting for an operand of level `top` are layered too. -/
structure State.Fits (limit top : Nat) (s : State) : Prop where
  levels : LevelsFit limit s.levels
  done : ∀ st ∈ s.done, st.Fits limit s.levels.length
  place : s.place.Fits limit s.levels.length top

/-- Nothing waits for an operand of the lowest level. -/
theorem WaitingFits.eq_nil {waiting : Waiting} (h : WaitingFits limit depth 0 waiting) :
    waiting = [] := by
  cases waiting with
  | nil => rfl
  | cons p waiting => exact absurd h.1 (Nat.not_lt_zero _)

theorem LevelsFit.length_le {levels : List Level} (h : LevelsFit limit levels) :
    levels.length ≤ limit := by
  cases levels with
  | nil => exact Nat.zero_le _
  | cons l levels => exact h.2.2.1

theorem GroupsFit.length_le {groups : List Waiting} (h : GroupsFit limit depth groups)
    (hd : depth ≤ limit) : depth + groups.length ≤ limit := by
  cases groups with
  | nil => exact hd
  | cons w groups => exact h.2.1

/-- Folding operands keeps them layered, and stops where the operators bind less tightly. -/
theorem combine_fits {level top : Nat} {nodes : List Node} {waiting : Waiting} {e : Expr}
    (hw : WaitingFits limit depth top waiting) (he : e.Fits limit depth) (ht : top ≤ e.level)
    (hl : level ≤ e.level) :
    WaitingFits limit depth level (combine level nodes waiting e).1 ∧
      (combine level nodes waiting e).2.1.Fits limit depth ∧
      level ≤ (combine level nodes waiting e).2.1.level := by
  fun_induction combine level nodes waiting e generalizing top with
  | case1 nodes e lhs op waiting hop ih =>
    obtain ⟨hlt, hlhs, ⟨hlay, hnest⟩, hw⟩ := hw
    refine ih hw ⟨⟨hlhs, by omega, hlay, he.1⟩, ?_⟩ (Nat.le_refl _) hop
    have := he.2
    simp only [Expr.nesting]
    omega
  | case2 nodes e lhs op waiting hop => exact ⟨⟨by omega, hw.2⟩, he, hl⟩
  | case3 => exact ⟨trivial, he, hl⟩

theorem nextLevel_le_two (next : Option Kind) : nextLevel next ≤ 2 := by
  rcases next with _ | k
  · exact Nat.zero_le _
  · cases k <;> decide

theorem State.Fits.settle {s : State} (h : s.Fits limit 2) (next : Option Kind) :
    (s.settle next).Fits limit (nextLevel next) := by
  obtain ⟨hl, hd, hp⟩ := h
  unfold State.settle
  split
  case h_1 use groups waiting e heq =>
    rw [heq] at hp
    obtain ⟨hu, hg, hw, he, htop⟩ := hp
    exact ⟨hl, hd, hu, hg, combine_fits hw he htop (Nat.le_trans (nextLevel_le_two next) htop)⟩
  case h_2 newest older heq =>
    rw [heq] at hp
    split
    · exact ⟨hl, hd, by rw [heq]; exact hp⟩
    · refine ⟨hl, List.forall_mem_cons.2 ⟨ofBranches_fits hp ⟨trivial, ?_⟩, hd⟩, trivial⟩
      have := (hp newest (by simp)).1.2
      simp only [Chain.nesting]
      omega
  case h_3 hne _ =>
    refine ⟨hl, hd, ?_⟩
    cases hs : s.place with
    | operator => exact absurd hs (hne _ _ _ _)
    | _ => rw [hs] at hp; exact hp

/-! ## One step -/

variable {s s' : State} {t : Token} {ahead : List Token}

/-- Each transition keeps the trees layered and within the nesting limit. -/
theorem Step.fits (h : Step limit s t ahead s') (hs : s.Fits limit (nextLevel (some t.kind))) :
    s'.Fits limit 2 := by
  obtain ⟨hl, hd, hfit⟩ := hs
  cases h with
  | exitWord | letWord | assign | letName => exact ⟨hl, hd, trivial⟩
  | ifWord => exact ⟨hl, hd, List.forall_mem_nil _⟩
  | exitParen | letEquals | assignEquals => exact ⟨hl, hd, trivial, trivial, trivial⟩
  | testParen hp => rw [hp] at hfit; exact ⟨hl, hd, hfit, trivial, trivial⟩
  | openScope _ _ hlim => exact ⟨⟨trivial, hd, hlim, hl⟩, List.forall_mem_nil _, trivial⟩
  | openBody hp _ hlim =>
    rw [hp] at hfit
    exact ⟨⟨hfit, hd, hlim, hl⟩, List.forall_mem_nil _, trivial⟩
  | closeScope hp ht hlev =>
    rw [hlev] at hl hd
    have hb := Block.fits_iff.2 ⟨hl.2.2.1, fun st h => hd st (List.mem_reverse.1 h)⟩
    refine ⟨hl.2.2.2, List.forall_mem_cons.2 ⟨⟨hb.1, ?_⟩, hl.2.1⟩, trivial⟩
    have := hb.2
    simp only [Stmt.nesting]
    omega
  | closeBranch hp ht hlev =>
    rw [hlev] at hl hd
    have hb := Block.fits_iff.2 ⟨hl.2.2.1, fun st h => hd st (List.mem_reverse.1 h)⟩
    exact ⟨hl.2.2.2, hl.2.1, List.forall_mem_cons.2 ⟨⟨hl.1.2, hb⟩, hl.1.1⟩⟩
  | closeOtherwise hp ht hlev =>
    rw [hlev] at hl hd
    have hb := Block.fits_iff.2 ⟨hl.2.2.1, fun st h => hd st (List.mem_reverse.1 h)⟩
    refine ⟨hl.2.2.2, List.forall_mem_cons.2 ⟨ofBranches_fits hl.1 ⟨hb.1, ?_⟩, hl.2.1⟩, trivial⟩
    have := hb.2
    simp only [Chain.nesting]
    omega
  | integer hp | name hp =>
    rw [hp] at hfit
    exact ⟨hl, hd, hfit.1, hfit.2.1, hfit.2.2, ⟨trivial, hfit.2.1.length_le hl.length_le⟩,
      Nat.le_refl _⟩
  | openParen hp _ hlim =>
    rw [hp] at hfit
    exact ⟨hl, hd, hfit.1, ⟨hfit.2.2, hlim, hfit.2.1⟩, trivial⟩
  | operator hp ht =>
    rw [hp, ht] at hfit
    obtain ⟨hu, hg, hw, he, htop⟩ := hfit
    simp only [nextLevel, Option.bind_some, Op.level?_kind, Option.getD_some] at hw htop
    exact ⟨hl, hd, hu, hg, Op.level_lt_two _, htop, he, hw⟩
  | closeParen hp ht =>
    rw [hp, ht] at hfit
    obtain ⟨hu, hg, hw, he, htop⟩ := hfit
    refine ⟨hl, hd, hu, hg.2.2, hg.1, ⟨he.1, ?_⟩, Nat.le_refl _⟩
    have := he.2
    simp only [List.length_cons] at this
    simp only [Expr.nesting, State.operand]
    omega
  | endExit hp => rw [hp] at hfit; exact ⟨hl, hd, hfit.2.2.2.1⟩
  | endDeclare hp | endAssign hp =>
    rw [hp] at hfit
    exact ⟨hl, List.forall_mem_cons.2 ⟨hfit.2.2.2.1, hd⟩, trivial⟩
  | endTest hp => rw [hp] at hfit; exact ⟨hl, hd, hfit.1, hfit.2.2.2.1⟩
  | exitEnd hp =>
    rw [hp] at hfit
    exact ⟨hl, List.forall_mem_cons.2 ⟨hfit, hd⟩, trivial⟩
  | elifWord hp => rw [hp] at hfit; exact ⟨hl, hd, hfit⟩
  | elseWord hp => rw [hp] at hfit; exact ⟨hl, hd, hfit⟩

/-- Each transition adds the symbol of the token consumed. -/
theorem Step.symbols (h : Step limit s t ahead s') (hs : s.Fits limit (nextLevel (some t.kind))) :
    s'.symbols = s.symbols ++ [t.symbol] := by
  have hfit := hs.place
  cases h with
  | exitWord hp ht | letWord hp ht | ifWord hp ht | exitParen hp ht | letEquals hp ht
  | assignEquals hp ht | testParen hp ht | openParen hp ht | elifWord hp ht | elseWord hp ht =>
    simp [State.symbols, hp, Place.symbols, Use.symbols, Role.symbols, groupSymbols, waitingSymbols,
      branchSymbols, testWord, Token.symbol_of_kind ht]
  | openScope hp ht | openBody hp ht =>
    simp [State.symbols, hp, Place.symbols, Role.symbols, levelSymbols, Block.symbols,
      Token.symbol_of_kind ht]
  | assign hp ht | letName hp ht =>
    simp [State.symbols, hp, Place.symbols, Token.symbol_identifier ht]
  | integer hp ht =>
    simp [State.symbols, State.operand, hp, Place.symbols, Expr.symbols, Token.symbol_integer ht]
  | name hp ht =>
    simp [State.symbols, State.operand, hp, Place.symbols, Expr.symbols, Token.symbol_identifier ht]
  | closeScope hp ht hl | closeBranch hp ht hl =>
    simp [State.symbols, hp, hl, Place.symbols, levelSymbols, Role.symbols, branchSymbols,
      Branch.symbols, Block.symbols_append, Block.symbols, Stmt.symbols, Token.symbol_of_kind ht]
  | closeOtherwise hp ht hl =>
    simp [State.symbols, hp, hl, Place.symbols, levelSymbols, Role.symbols, Block.symbols_append,
      Block.symbols, ofBranches_symbols, Chain.symbols, Token.symbol_of_kind ht]
  | operator hp ht =>
    simp [State.symbols, hp, Place.symbols, waitingSymbols, Op.symbol_of_kind ht]
  | closeParen hp ht =>
    rw [hp, ht] at hfit
    simp [State.symbols, State.operand, hp, Place.symbols, groupSymbols, Expr.symbols,
      waitingSymbols, hfit.2.2.1.eq_nil, Token.symbol_of_kind ht]
  | endExit hp ht | endTest hp ht =>
    rw [hp, ht] at hfit
    simp [State.symbols, hp, Place.symbols, Use.symbols, Role.symbols, groupSymbols, waitingSymbols,
      hfit.2.2.1.eq_nil, Token.symbol_of_kind ht]
  | endDeclare hp ht | endAssign hp ht =>
    rw [hp, ht] at hfit
    simp [State.symbols, State.finish, hp, Place.symbols, Use.symbols, groupSymbols, waitingSymbols,
      hfit.2.2.1.eq_nil, Block.symbols_append, Block.symbols, Stmt.symbols,
      Token.symbol_of_kind ht]
  | exitEnd hp ht =>
    simp [State.symbols, State.finish, hp, Place.symbols, Block.symbols_append, Block.symbols,
      Stmt.symbols, Token.symbol_of_kind ht]

/-! ## Whole runs -/

theorem fits_initial (limit : Nat) : ({} : State).Fits limit 2 :=
  ⟨trivial, List.forall_mem_nil _, trivial⟩

/-- A program that is read from a state on is written as what the state has read, followed by the
tokens. -/
theorem readFrom_eq_ok {limit : Nat} {s : State} {line : Nat} {tokens : List Token}
    {program : Block} (hs : s.Fits limit 2)
    (h : (readFrom limit s line tokens).result = .ok program) :
    Block.symbols program = s.symbols ++ tokens.map Token.symbol ∧
      Block.Fits limit 0 program := by
  induction tokens generalizing s line with
  | nil =>
    have hf := hs.settle none
    rw [← State.settle_symbols s none]
    simp only [readFrom] at h
    split at h
    · rename_i hp hl
      cases h
      simp only [State.symbols, hp, hl, levelSymbols, Place.symbols, List.map_nil, List.nil_append,
        List.append_nil, true_and]
      refine Block.fits_iff.2 ⟨Nat.zero_le _, fun st hst => ?_⟩
      have := hf.done st (List.mem_reverse.1 hst)
      rwa [hl] at this
    · cases h
  | cons t rest ih =>
    have hf := hs.settle (some t.kind)
    simp only [readFrom] at h
    split at h
    · rename_i s' hm
      have hstep := State.step_of_move hm
      obtain ⟨hsym, hfits⟩ := ih (hstep.fits hf) h
      refine ⟨?_, hfits⟩
      rw [hsym, hstep.symbols hf, State.settle_symbols]
      simp
    · cases h
    · cases h

end Reader

/-! ## Programs read into an arena -/

variable {arena arena' : Arena} {tokens : List Token} {program : Block}

theorem readTree_eq_ok_iff :
    readTree arena tokens = (.ok program, arena') ↔
      (Reader.read tokens).result = .ok program ∧
        arena.serve ((Reader.read tokens).nodes.reverse.map Node.request) = (none, arena') := by
  simp only [readTree]
  generalize (Reader.read tokens).nodes.reverse.map Node.request = requests
  cases hr : (Reader.read tokens).result <;>
    rcases hs : arena.serve requests with ⟨_ | e, a⟩ <;> simp

theorem linkTree_eq_ok_iff {p : Block} :
    linkTree arena p = (.ok program, arena') ↔
      p = program ∧
        arena.serve (List.replicate p.length Node.link.request) = (none, arena') := by
  simp only [linkTree]
  rcases hs : arena.serve (List.replicate p.length Node.link.request) with ⟨_ | e, a⟩ <;> simp

/-- Reading succeeds when the tokens are a program and the arena serves its nodes, and then the
links between its statements. -/
theorem parse_eq_ok_iff :
    parse arena tokens = (.ok program, arena') ↔
      (Reader.read tokens).result = .ok program ∧
        arena.serve ((Reader.read tokens).nodes.reverse.map Node.request ++
          List.replicate program.length Node.link.request) = (none, arena') := by
  rw [Arena.serve_append_eq_none_iff]
  constructor
  · intro h
    unfold parse at h
    split at h
    · rename_i p middle hr
      obtain ⟨rfl, hlink⟩ := linkTree_eq_ok_iff.1 h
      obtain ⟨hread, hnodes⟩ := readTree_eq_ok_iff.1 hr
      exact ⟨hread, middle, hnodes, hlink⟩
    · cases h
  · rintro ⟨hread, middle, hnodes, hlink⟩
    rw [parse, readTree_eq_ok_iff.2 ⟨hread, hnodes⟩]
    exact linkTree_eq_ok_iff.2 ⟨rfl, hlink⟩

/-- A program that is read is written as exactly the tokens it was read from, its operators are
grouped by precedence and to the left, and at most 256 scopes and parenthesised terms of it enclose
each other. -/
theorem parse_sound (h : parse arena tokens = (.ok program, arena')) :
    Block.symbols program = tokens.map Token.symbol ∧ Block.Layered program ∧
      Block.nesting program ≤ 256 := by
  obtain ⟨hsym, hlay, hnest⟩ :=
    Reader.readFrom_eq_ok (Reader.fits_initial _) (parse_eq_ok_iff.1 h).1
  refine ⟨hsym, hlay, ?_⟩
  simpa [Reader.maxNesting] using hnest

/-- A token, on line 1 where trees do not keep its lexeme, that a symbol stands for. -/
def Symbol.token (s : Symbol) : Token :=
  { s.2.getD { line := 1 } with kind := s.1 }

/-- `let x = 7 - 2 * (3) - 1; if (x) { exit(x); } elif (0) { } else { x = 8 / 4; }` -/
def branching : Block :=
  let int (n : String) : Expr := .int ⟨1, some n⟩
  let x : Lexeme := ⟨1, some "x"⟩
  [.declare x (.binary .sub (.binary .sub (int "7") (.binary .mul (int "2") (.paren (int "3"))))
      (int "1")),
    .cond (.ident x) [.exit (.ident x)]
      (.elif (int "0") [] (.otherwise [.assign x (.binary .div (int "8") (int "4"))]))]

theorem parse_sound_branching :
    ∃ arena', parse { limit := 2000 } ((Block.symbols branching).map Symbol.token) =
        (.ok branching, arena') ∧
      Block.symbols branching = ((Block.symbols branching).map Symbol.token).map Token.symbol ∧
      Block.Layered branching ∧ Block.nesting branching ≤ 256 := by
  have h : parse { limit := 2000 } ((Block.symbols branching).map Symbol.token) =
      (.ok branching, { limit := 2000, allocated := 1408, chunk := 960, free := 792 }) :=
    parse_eq_ok_iff.2 ⟨rfl, by decide +kernel⟩
  exact ⟨_, h, parse_sound h⟩

end Kei

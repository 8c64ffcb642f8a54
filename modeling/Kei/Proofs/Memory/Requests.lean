import Kei.Proofs.Reader.Cost
import Kei.Proofs.Reader.Grammar

/-!
# The memory of a tree

What reading takes from an arena depends on the tree alone. Reading builds the nodes of the tree in
the order of `Block.requests`, each of them once, and then the links between its statements. So the
arena that is left behind is the one that has served these requests, and an arena that refuses one
of them is left as it was when it did.
-/

namespace Kei

variable {tokens : List Token} {program : Block}

/-- Reading a written tree asks for its nodes and links. -/
theorem Reader.requests_read (hl : Block.Layered program)
    (hn : Block.nesting program ≤ Reader.maxNesting)
    (hts : tokens.map Token.symbol = Block.symbols program) :
    (Reader.read tokens).requests = program.requests := by
  have hread : Reader.read tokens = ⟨.ok program, (Block.nodes program).reverse⟩ :=
    Reader.readFrom_symbols _ ⟨hl, by omega⟩ hts
  rw [Reader.Outcome.requests, Reader.Outcome.links, hread, List.reverse_reverse, Block.requests]

/-- Reading a written tree fails where the arena refuses one of its nodes or links. -/
theorem parse_eq_memory_of_symbols {arena served : Arena} {refusal : Refusal}
    (hl : Block.Layered program) (hn : Block.nesting program ≤ Reader.maxNesting)
    (hts : tokens.map Token.symbol = Block.symbols program)
    (h : arena.serve program.requests = (some refusal, served)) :
    parse arena tokens = (.error (.memory refusal), served) := by
  rw [← Reader.requests_read hl hn hts] at h
  refine Prod.ext ?_ ?_
  · rw [parse_fst, h]
  · rw [parse_snd, h]

/-- Where reading succeeds, the arena has served the requests of the tree in order and nothing else.
A sentence within the nesting limit has one tree, and every arena that serves the requests of that
tree reads it. An arena that refuses one of them reports the size of the first request refused and
its own limit, and keeps what it served before. -/
theorem parse_requests (tokens : List Token) :
    (∀ arena arena' program, parse arena tokens = (.ok program, arena') →
      arena.serve program.requests = (none, arena')) ∧
    (Derives .program 256 (tokens.map Token.symbol) →
      ∃ program : Block, Block.Layered program ∧
        Block.symbols program = tokens.map Token.symbol ∧
        ∀ arena : Arena,
          (∀ arena', arena.serve program.requests = (none, arena') →
            parse arena tokens = (.ok program, arena')) ∧
          ∀ refusal served, arena.serve program.requests = (some refusal, served) →
            parse arena tokens = (.error (.memory refusal), served) ∧
            ∃ before r rest, program.requests = before ++ r :: rest ∧
              arena.serve before = (none, served) ∧ served.alloc r = .error refusal ∧
              refusal = ⟨r.size, arena.limit⟩) := by
  constructor
  · intro arena arena' program h
    obtain ⟨hsym, hlay, hnest⟩ :=
      Reader.readFrom_eq_ok (Reader.fits_initial _) (parse_eq_ok_iff.1 h).1
    exact (parse_eq_ok_of_symbols hlay (by omega) hsym.symm).1 h
  · intro hderives
    obtain ⟨program, hlay, hnest, hsym⟩ := derives_program_iff.1 hderives
    refine ⟨program, hlay, hsym, fun arena => ⟨fun arena' h => ?_, fun refusal served h => ?_⟩⟩
    · exact (parse_eq_ok_of_symbols hlay hnest hsym.symm).2 h
    · exact ⟨parse_eq_memory_of_symbols hlay hnest hsym.symm h, Arena.exists_refused h⟩

/-- An arena with 100 bytes left of its chunk takes one chunk more, serves every part of `branching`
from the two and refuses the conditional itself. -/
theorem parse_requests_branching :
    let tokens := (Block.symbols branching).map Symbol.token
    let used : Arena := { limit := 1000, allocated := 448, chunk := 448, free := 100 }
    let served : Arena := { limit := 1000, allocated := 896, chunk := 448, free := 8 }
    Derives .program 256 (tokens.map Token.symbol) ∧
      used.serve branching.requests = (some ⟨32, 1000⟩, served) ∧
      parse used tokens = (.error (.memory ⟨32, 1000⟩), served) ∧
      ∃ arena', parse { limit := 2000 } tokens = (.ok branching, arena') ∧
        ({ limit := 2000 } : Arena).serve branching.requests = (none, arena') := by
  intro tokens used served
  have hlay : Block.Layered branching := by
    simp [branching, Block.Layered, Stmt.Layered, Chain.Layered, Expr.Layered, Expr.level, Op.level]
  have hsym : Block.symbols branching = tokens.map Token.symbol := rfl
  have hderives : Derives .program 256 (tokens.map Token.symbol) :=
    derives_program_iff.2 ⟨branching, hlay, by decide, hsym⟩
  have hrefused : used.serve branching.requests = (some ⟨32, 1000⟩, served) := by decide +kernel
  obtain ⟨program, hlay', hsym', hall⟩ := (parse_requests tokens).2 hderives
  obtain rfl : program = branching := hlay'.eq_of_symbols hlay hsym'.symm hsym.symm
  refine ⟨hderives, hrefused, ?_, ?_⟩
  · exact ((hall used).2 _ _ hrefused).1
  · have hok := (hall { limit := 2000 }).1 _ (Prod.ext (by decide +kernel) rfl)
    exact ⟨_, hok, (parse_requests tokens).1 _ _ _ hok⟩

end Kei

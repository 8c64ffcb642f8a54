import Kei.Proofs.Assembly.Emission
import Kei.Proofs.Assembly.Numbers
import Kei.Proofs.Machine.Simulation
import Kei.Proofs.Reader.Completeness
import Kei.Proofs.Token.Scanning

/-!
# Compiled programs run as they mean

A compiled text was scanned and read, so its literals are words and its tree fits the arena. That
bounds every number in its code, and the machine runs the code as the tree is evaluated.
-/

namespace Kei

open Machine

/-! ## Numbers of compiled programs -/

/-- The literals of a scanned text are words. -/
theorem literals_of_tokenize {source : String} {tokens : List Token}
    (h : tokenize source = .ok tokens) : Literals (tokens.map Token.symbol) := by
  intro literal hmem
  obtain ⟨t, ht, hsymbol⟩ := List.mem_map.1 hmem
  obtain ⟨rest, htfits⟩ := fits_of_tokenize h t ht
  obtain ⟨hkind, hlexeme⟩ := Prod.mk.inj hsymbol
  rw [if_pos (.inl hkind)] at hlexeme
  simp only [Token.Fits, hkind] at htfits
  obtain ⟨digits, htext, hne, hdigits, hlt, -⟩ := htfits
  have hspelling : literal.spelling = String.ofList digits := by
    rw [← Option.some.inj hlexeme, Lexeme.spelling, htext, Option.getD_some]
  rw [hspelling, String.toList_ofList, Text.numeral?_eq_some_iff.2 ⟨hne, hdigits, rfl, hlt⟩]
  rfl

theorem count_expr_le (nodes : List Node) :
    24 * nodes.count .expr ≤ Request.total (nodes.map Node.request) := by
  induction nodes with
  | nil => exact Nat.le_refl _
  | cons node nodes ih =>
    rw [List.map_cons, Request.total, Node.request, List.count_cons]
    cases node <;> simp [Node.size] <;> omega

/-- A tree that was read has the symbols of its tokens, and no more expressions than its arena has
room for. -/
theorem count_expr_le_of_parse {limit : Nat} {tokens : List Token} {program : Block}
    {arena : Arena} (h : parse { limit } tokens = (.ok program, arena)) :
    Block.symbols program = tokens.map Token.symbol ∧
      24 * (Block.nodes program).count .expr ≤ limit := by
  obtain ⟨hsym, hlay, hnest⟩ :=
    Reader.readFrom_eq_ok (Reader.fits_initial _) (parse_eq_ok_iff.1 h).1
  refine ⟨hsym, ?_⟩
  have hserve := (parse_eq_ok_of_symbols hlay (by omega) hsym.symm).1 h
  have halign : ∀ r ∈ Block.requests program, r.align ∣ 16 := by
    intro r hr
    obtain ⟨node, -, rfl⟩ := List.mem_map.1 hr
    exact (by decide : 8 ∣ 16)
  obtain ⟨hholds, hlimit⟩ := (Arena.holds_initial limit).serve halign hserve
  have hused := hholds.used_add_free
  have hmax : arena.allocated ≤ limit := Nat.le_trans hholds.allocated_le (Nat.le_of_eq hlimit)
  have hsize := count_expr_le (Block.nodes program ++ List.replicate program.length .link)
  rw [Block.requests] at hused
  rw [List.count_append] at hsize
  omega

/-- The machine reads all code of a tree that was read. -/
theorem readable_program {limit : UInt64} {source : String} {tokens : List Token}
    {program : Block} {arena : Arena} (htokens : tokenize source = .ok tokens)
    (hparse : parse { limit := limit.toNat } tokens = (.ok program, arena)) :
    ∀ i ∈ Block.program program, i.Readable := by
  obtain ⟨hsym, hcount⟩ := count_expr_le_of_parse hparse
  have hlimit : limit.toNat < 1 <<< 64 := limit.toNat_lt
  have hlit : Literals (Block.symbols program) := hsym ▸ literals_of_tokenize htokens
  have hbound : (Block.nodes program).count .expr * 8 < 1 <<< 63 := by omega
  have hbody := Block.legible hbound 0 program [[]] hlit (by simp)
  refine legible_cons.2 ⟨trivial, legible_cons.2 ⟨trivial, legible_append.2 ⟨hbody, ?_⟩⟩⟩
  split <;> decide

/-! ## Runs of compiled programs -/

theorem compile_eq_ok_iff {limit : Nat} {source asm : String} :
    compile limit source = .ok asm ↔
      ∃ tokens program, tokenize source = .ok tokens ∧ (parse { limit } tokens).1 = .ok program ∧
        program.wellScoped = .ok () ∧ Instr.print (Block.program program).toArray = asm := by
  have hgenerate : ∀ program, generate program = .ok asm ↔
      program.wellScoped = .ok () ∧ Instr.print (Block.program program).toArray = asm := by
    intro program
    rw [generate_eq]
    cases program.wellScoped <;> simp [Except.map]
  simp only [compile, bind_eq_ok, hgenerate]
  constructor
  · rintro ⟨tokens, htokens, program, hparse, hasm⟩
    exact ⟨tokens, program, htokens, hparse, hasm⟩
  · rintro ⟨tokens, program, htokens, hparse, hasm⟩
    exact ⟨tokens, htokens, program, hparse, hasm⟩

/-- The machine ends a compiled program as its tree does. -/
theorem concludes_compile {limit : UInt64} {source asm : String}
    (h : compile limit.toNat source = .ok asm) :
    ∃ tokens program, tokenize source = .ok tokens ∧
      (parse { limit := limit.toNat } tokens).1 = .ok program ∧
      Concludes (load asm) program (Block.run program) := by
  obtain ⟨tokens, program, htokens, hparse, hscope, rfl⟩ := compile_eq_ok_iff.1 h
  refine ⟨tokens, program, htokens, hparse, concludes_program hscope ?_⟩
  exact readable_program htokens (Prod.ext hparse rfl)

/-- A compiled program exits with a status when its tree has that status, faults when its tree
divides by zero, and always does one of the two. Every fault is a division by zero. The limit counts
bytes, so it is a word of 64 bits. -/
theorem run_compile {limit : UInt64} {source asm : String}
    (h : compile limit.toNat source = .ok asm) :
    ∃ tokens program, tokenize source = .ok tokens ∧
      (parse { limit := limit.toNat } tokens).1 = .ok program ∧
      (∀ status, (∃ steps s, run asm steps = .exited status s) ↔
        ∃ env, Block.run program = .ok (status, env)) ∧
      ((∃ steps, run asm steps = .fault) ↔ Block.run program = .error .divisionByZero) ∧
      (∃ steps, ∀ s, run asm steps ≠ .stillRunning s) ∧
      ∀ steps, run asm steps = .fault →
        ∃ before s, before < steps ∧ run asm before = .stillRunning s ∧ s.DividesByZero := by
  obtain ⟨tokens, program, htokens, hparse, hends⟩ := concludes_compile h
  refine ⟨tokens, program, htokens, hparse, ?_⟩
  cases hrun : Block.run program with
  | ok result =>
    obtain ⟨status, env⟩ := result
    rw [hrun] at hends
    have hsettles : Settles asm fun o => ∃ s, o = .exited status s := by
      refine hends.settles fun s n hs => ?_
      obtain ⟨code, hstep⟩ := step_of_exits hs
      exact ⟨{ s with code }, by rw [runFrom, hstep]⟩
    obtain ⟨⟨steps, s, hsteps⟩, hall⟩ := hsettles
    have hfault : ∀ steps, run asm steps ≠ .fault := by
      intro steps hfault
      obtain ⟨s, hs⟩ | ⟨s, hs⟩ := hall steps <;> simp [hs] at hfault
    refine ⟨fun other => ⟨?_, ?_⟩, by simp [hfault], ⟨steps, by simp [hsteps]⟩, by simp [hfault]⟩
    · rintro ⟨steps, s, hother⟩
      obtain ⟨s, hs⟩ | ⟨s, hs⟩ := hall steps
      · simp [hs] at hother
      · rw [hs] at hother
        exact ⟨env, by rw [(Outcome.exited.inj hother).1]⟩
    · rintro ⟨env', heq⟩
      obtain ⟨rfl, -⟩ := Prod.mk.inj (Except.ok.inj heq)
      exact ⟨steps, s, hsteps⟩
  | error t =>
    rw [hrun] at hends
    obtain ⟨rfl, hends⟩ := hends
    have hsettles : Settles asm (· = .fault) := by
      refine hends.settles fun s n hs => ?_
      rw [runFrom, step_of_dividesByZero hs]
    obtain ⟨⟨steps, hsteps⟩, hall⟩ := hsettles
    refine ⟨fun status => ⟨?_, by simp⟩, ⟨fun _ => rfl, fun _ => ⟨steps, hsteps⟩⟩,
      ⟨steps, by simp [hsteps]⟩, fun steps hfault => ?_⟩
    · rintro ⟨steps, s, hexit⟩
      obtain ⟨s, hs⟩ | hs := hall steps <;> simp [hs] at hexit
    · obtain ⟨before, s, hbefore, hs⟩ := hends [] false
      refine ⟨before, s, Nat.lt_of_not_le fun hle => ?_, hbefore, hs⟩
      obtain ⟨n, rfl⟩ := Nat.exists_eq_add_of_le hle
      obtain ⟨s₁, hs₁⟩ := exists_stillRunning hbefore
      cases hfault.symm.trans hs₁

/-- An inner variable is declared with the value of the outer one that it hides. -/
def shadowing : Block :=
  let x : Lexeme := ⟨1, some "x"⟩
  let int (n : String) : Expr := .int ⟨1, some n⟩
  [.declare x (int "7"),
    .scope [.declare x (.binary .sub (.ident x) (.binary .div (int "9") (int "2"))),
      .exit (.ident x)]]

def shadowingText : String :=
  "let x = 7; \x7b let x = x - 9 / 2; exit(x); \x7d"

theorem tokenize_shadowingText :
    tokenize shadowingText = .ok ((Block.symbols shadowing).map Symbol.token) := by
  exact toOption_eq_some.1 (by decide +kernel)

theorem run_compile_shadowing :
    ∃ asm, compile (2000 : UInt64).toNat shadowingText = .ok asm ∧
      ∃ steps s, run asm steps = .exited 3 s := by
  have hparse : parse { limit := (2000 : UInt64).toNat }
      ((Block.symbols shadowing).map Symbol.token) =
        (.ok shadowing, { limit := 2000, allocated := 448, chunk := 448, free := 80 }) :=
    parse_eq_ok_iff.2 ⟨rfl, by decide +kernel⟩
  have hcompile := compile_eq_ok_iff.2
    ⟨_, _, tokenize_shadowingText, congrArg Prod.fst hparse, rfl, rfl⟩
  refine ⟨_, hcompile, ?_⟩
  obtain ⟨tokens, program, htokens, hprogram, hexit, -⟩ := run_compile hcompile
  obtain rfl := Except.ok.inj (tokenize_shadowingText.symm.trans htokens)
  obtain rfl := Except.ok.inj ((congrArg Prod.fst hparse).symm.trans hprogram)
  exact (hexit 3).2 ⟨[[("x", 3)], [("x", 7)]], rfl⟩

end Kei

import Kei.Proofs.Compilation
import Kei.Proofs.Reader.Cost

/-!
# What the stack holds

A compiled program exits with the values of the visible variables on the stack and nothing else. The
deepest the stack has been is the most that the variables visible at some evaluation and the values
which that evaluation needs come to together.
-/

namespace Kei

open Machine

/-! ## The greatest need -/

@[simp] theorem greatestNeed_nil : greatestNeed [] = 0 := rfl

@[simp] theorem greatestNeed_cons (env : Env) (e : Expr) (rest : List (Env × Expr)) :
    greatestNeed ((env, e) :: rest) = max (env.peak e) (greatestNeed rest) := rfl

@[simp] theorem greatestNeed_append (first second : List (Env × Expr)) :
    greatestNeed (first ++ second) = max (greatestNeed first) (greatestNeed second) := by
  induction first with
  | nil => simp
  | cons p first ih =>
    obtain ⟨env, e⟩ := p
    rw [List.cons_append, greatestNeed_cons, greatestNeed_cons, ih, Nat.max_assoc]

/-- No operand needs more than the expression it is part of. -/
@[simp] theorem greatestNeed_evaluations (env : Env) (e : Expr) :
    greatestNeed (env.evaluations e) = env.peak e := by
  induction e with
  | int l => exact Nat.max_zero _
  | ident l => exact Nat.max_zero _
  | paren e ih =>
    simp only [Env.evaluations, Env.peak] at ih
    simp [Env.evaluations, Expr.parts, Env.peak, Expr.need, ih]
  | binary op l r ihl ihr =>
    simp only [Env.evaluations, Env.peak] at ihl ihr
    simp only [Env.evaluations, Expr.parts, Env.peak, Expr.need, List.map_cons, List.map_append,
      greatestNeed_cons, greatestNeed_append, ihl, ihr]
    omega

mutual

theorem Stmt.peak_eq (env : Env) : ∀ st : Stmt, st.peak env = greatestNeed (st.evaluations env)
  | .exit e => by simp [Stmt.peak, Stmt.evaluations]
  | .declare name e => by simp [Stmt.peak, Stmt.evaluations]
  | .assign name e => by simp [Stmt.peak, Stmt.evaluations]
  | .scope b => by rw [Stmt.peak, Stmt.evaluations, Block.peak_eq]
  | .cond e b c => by
    rw [Stmt.peak, Stmt.evaluations, greatestNeed_append, greatestNeed_evaluations,
      Block.peak_eq, Chain.peak_eq]
    split
    · rfl
    · split <;> rfl

theorem Block.peak_eq (env : Env) :
    ∀ b : List Stmt, Block.peak env b = greatestNeed (Block.evaluations env b)
  | [] => rfl
  | st :: b => by
    rw [Block.peak, Block.evaluations, greatestNeed_append, Stmt.peak_eq]
    split
    · rw [Block.peak_eq]
    · rfl

theorem Chain.peak_eq (env : Env) : ∀ c : Chain, c.peak env = greatestNeed (c.evaluations env)
  | .stop => rfl
  | .elif e b next => by
    rw [Chain.peak, Chain.evaluations, greatestNeed_append, greatestNeed_evaluations,
      Block.peak_eq, Chain.peak_eq]
    split
    · rfl
    · split <;> rfl
  | .otherwise b => by rw [Chain.peak, Chain.evaluations, Block.peak_eq]

end

/-! ## The stack at the end -/

/-- The end that the meaning of a program asks of its runs. -/
def Machine.Outcome.Accounts (program : Block) : Except Trap (Int64 × Env) → Outcome → Prop
  | .ok (status, env), o => ∃ s, o = .exited status s ∧ s.stack.toList.reverse = env.values ∧
      s.maxDepth = Block.peak [[]] program
  | .error _, o => o = .fault

theorem settles_of_concludes {asm : String} {program : Block} {r : Except Trap (Int64 × Env)}
    (h : Concludes (load asm) program r) : Settles asm (Outcome.Accounts program r) := by
  match r, h with
  | .ok (status, env), h =>
    refine Ends.settles h fun s n hs => ?_
    obtain ⟨code, hstep⟩ := step_of_exits (p := load asm) hs
    obtain ⟨-, -, -, -, hstack, hdepth⟩ := hs
    exact ⟨{ s with code }, by rw [runFrom, hstep], hstack, hdepth⟩
  | .error t, ⟨_, h⟩ =>
    refine h.settles fun s n hs => ?_
    rw [Outcome.Accounts, runFrom, step_of_dividesByZero hs]

/-- Where no division by zero is met, a compiled program exits. Then its stack holds the values of
the variables visible at the exit, oldest first, and has been as deep as the evaluations of the run
needed. -/
theorem exited_stack {limit : UInt64} {source asm : String}
    (h : compile limit.toNat source = .ok asm) :
    ∃ tokens program, tokenize source = .ok tokens ∧
      (parse { limit := limit.toNat } tokens).1 = .ok program ∧
      (Block.run program ≠ .error .divisionByZero →
        ∃ steps status s, run asm steps = .exited status s) ∧
      ∀ steps status s, run asm steps = .exited status s →
        ∃ env, Block.run program = .ok (status, env) ∧
          s.stack.toList = (env.vars.map Prod.snd).reverse ∧
          s.stack.size = env.vars.length ∧
          s.maxDepth = greatestNeed (Block.evaluations [[]] program) := by
  obtain ⟨tokens, program, htokens, hparse, hends⟩ := concludes_compile h
  obtain ⟨⟨steps, hend⟩, hall⟩ := settles_of_concludes hends
  refine ⟨tokens, program, htokens, hparse, ?_⟩
  match hrun : Block.run program with
  | .ok (status, env) =>
    rw [hrun] at hend hall
    obtain ⟨s, hexit, -⟩ := hend
    refine ⟨fun _ => ⟨steps, status, s, hexit⟩, fun steps status' s' hexit' => ?_⟩
    obtain ⟨s₁, hs₁⟩ | ⟨s₁, hs₁, hstack, hdepth⟩ := hall steps
    · cases hexit'.symm.trans hs₁
    · obtain ⟨rfl, rfl⟩ := Outcome.exited.inj (hexit'.symm.trans hs₁)
      refine ⟨env, rfl, ?_, ?_, by rw [hdepth, Block.peak_eq]⟩
      · rw [← List.reverse_reverse s'.stack.toList, hstack, Env.values]
      · rw [Env.length_vars, ← hstack, List.length_reverse, Array.length_toList]
  | .error t =>
    rw [hrun] at hends hall
    obtain ⟨rfl, -⟩ := hends
    refine ⟨fun hne => absurd rfl hne, fun steps status s hexit => ?_⟩
    obtain ⟨s₁, hs₁⟩ | hfault := hall steps
    · cases hexit.symm.trans hs₁
    · cases hexit.symm.trans hfault

/-- The deepest point is in a scope that is left before the exit. -/
def released : Block :=
  let a : Lexeme := ⟨1, some "a"⟩
  let b : Lexeme := ⟨1, some "b"⟩
  let int (n : String) : Expr := .int ⟨1, some n⟩
  [.declare a (int "2"),
    .cond (.ident a)
      [.declare b (.binary .sub (.binary .sub (int "9") (int "1")) (.ident a)),
        .assign a (.ident b)] .stop,
    .exit (.ident a)]

def releasedText : String :=
  "let a = 2; if (a) \x7b let b = 9 - 1 - a; a = b; \x7d exit(a);"

theorem exited_stack_released :
    ∃ asm, compile (2000 : UInt64).toNat releasedText = .ok asm ∧
      ∃ steps s, run asm steps = .exited 6 s ∧ s.stack.toList = [6] ∧ s.maxDepth = 4 := by
  have htokenize : tokenize releasedText = .ok ((Block.symbols released).map Symbol.token) :=
    toOption_eq_some.1 (by decide +kernel)
  have hparse : (parse { limit := (2000 : UInt64).toNat }
      ((Block.symbols released).map Symbol.token)).1 = .ok released := by
    have hserve : ((({ limit := 2000 } : Arena).serve (Reader.read
        ((Block.symbols released).map Symbol.token)).requests).1) = none := by
      decide +kernel
    rw [parse_fst, show (2000 : UInt64).toNat = 2000 from rfl, hserve]
    rfl
  have hcompile := compile_eq_ok_iff.2 ⟨_, _, htokenize, hparse, rfl, rfl⟩
  refine ⟨_, hcompile, ?_⟩
  obtain ⟨tokens, program, htokens, hprogram, hexits, hexited⟩ := exited_stack hcompile
  obtain rfl := Except.ok.inj (htokenize.symm.trans htokens)
  obtain rfl := Except.ok.inj (hparse.symm.trans hprogram)
  have hrun : Block.run released = .ok (6, [[("a", 6)]]) := rfl
  obtain ⟨steps, status, s, hexit⟩ := hexits (by simp [hrun])
  obtain ⟨env, henv, hstack, -, hdepth⟩ := hexited steps status s hexit
  obtain ⟨rfl, rfl⟩ := Prod.mk.inj (Except.ok.inj (hrun.symm.trans henv))
  exact ⟨steps, s, hexit, hstack, hdepth⟩

end Kei

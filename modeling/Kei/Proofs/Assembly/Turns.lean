import Kei.Assembly.Turns
import Kei.Proofs.Basic

/-!
# Emission of expressions

The loop over tasks adds the code that is defined by recursion on the expression. Evaluating an
expression takes as many turns as it has tasks, and these turns look at no other task
(`Emit.run_turns_eval`). So what comes after it in the list decides neither the code nor, where a
name is not visible, the error and what was emitted up to it.
-/

namespace Kei

/-- Add code to an emitter, after which the stack holds `depth` values. -/
def Emitter.put (g : Emitter) (code : List Instr) (depth : Nat) : Emitter :=
  { g with code := g.code ++ code.toArray, depth }

namespace Emitter

@[simp] theorem put_depth (g : Emitter) (code : List Instr) (d : Nat) : (g.put code d).depth = d :=
  rfl

@[simp] theorem put_vars (g : Emitter) (code : List Instr) (d : Nat) :
    (g.put code d).vars = g.vars := rfl

@[simp] theorem put_put (g : Emitter) (code code' : List Instr) (d d' : Nat) :
    (g.put code d).put code' d' = g.put (code ++ code') d' := by
  simp [put]

theorem put_nil (g : Emitter) : g.put [] g.depth = g := by
  simp [put]

end Emitter

namespace Emit

/-! ## Turns of the loop -/

theorem turns_nil (n : Nat) : turns n [] = pure [] := by
  cases n <;> rfl

theorem turns_one (t : Task) (rest : List Task) :
    turns 1 (t :: rest) = turn t >>= fun next => pure (next ++ rest) := rfl

theorem turns_add (m n : Nat) (todo : List Task) :
    turns (m + n) todo = turns m todo >>= turns n := by
  induction m generalizing todo with
  | zero => rw [Nat.zero_add, turns, pure_bind]
  | succ m ih =>
    cases todo with
    | nil => rw [turns_nil, turns_nil, pure_bind, turns_nil]
    | cons t rest =>
      rw [Nat.succ_add, turns, turns, bind_assoc]
      exact bind_congr fun next => ih (next ++ rest)

/-- The loop takes one turn after the other. -/
theorem tasks_cons (t : Task) (rest : List Task) :
    tasks (t :: rest) = turn t >>= fun next => tasks (next ++ rest) := by
  cases t with
  | apply op => simp [tasks, turn]
  | eval e => cases e <;> simp [tasks, turn]

/-- After any number of turns the loop goes on with the tasks that are left. -/
theorem tasks_eq_turns (n : Nat) (todo : List Task) : tasks todo = turns n todo >>= tasks := by
  induction n generalizing todo with
  | zero => rw [turns, pure_bind]
  | succ n ih =>
    cases todo with
    | nil => rw [turns_nil, pure_bind]
    | cons t rest =>
      rw [tasks_cons, turns, bind_assoc]
      exact bind_congr fun next => ih (next ++ rest)

/-! ## Evaluation -/

theorem run_turns_ident (l : Lexeme) (rest : List Task) (g : Emitter) :
    (turns 1 (.eval (.ident l) :: rest)).run g =
      match g.vars.find? (·.name = l.spelling) with
      | some v => .ok rest (g.put [.pushSlot ((g.depth - v.slot - 1) * 8)] (g.depth + 1))
      | none => .error (.undeclared l.spelling l.line) g := by
  simp only [turns_one, turn, find, EStateM.run_bind, EStateM.run_get]
  cases g.vars.find? (·.name = l.spelling) <;> rfl

theorem opCode_eq (op : Op) : opCode op = op.code := by
  cases op <;> rfl

theorem run_turns_apply (op : Op) (rest : List Task) (g : Emitter) :
    (turns 1 (.apply op :: rest)).run g =
      .ok rest (g.put ([.pop .rax, .pop .rbx] ++ op.code ++ [.push .rax])
        (g.depth - 1 - 1 + 1)) := by
  cases op <;> rfl

/-- Evaluating an expression comes to its code, and the tasks after it are left as they were. Or it
comes to the first name that is not visible, whatever the tasks after it. -/
theorem run_turns_eval (e : Expr) (g : Emitter) :
    (∃ code, e.code g.vars g.depth = .ok code ∧ ∀ rest,
      (turns (exprTasks e) (.eval e :: rest)).run g = .ok rest (g.put code (g.depth + 1))) ∨
    ∃ name line code depth, e.code g.vars g.depth = .error (.undeclared name line) ∧ ∀ rest,
      (turns (exprTasks e) (.eval e :: rest)).run g =
        .error (.undeclared name line) (g.put code depth) := by
  induction e generalizing g with
  | int l => exact .inl ⟨_, rfl, fun rest => rfl⟩
  | ident l =>
    simp only [Expr.code, exprTasks, run_turns_ident]
    cases g.vars.find? (·.name = l.spelling) with
    | some v => exact .inl ⟨_, rfl, fun rest => rfl⟩
    | none =>
      refine .inr ⟨_, _, [], g.depth, rfl, fun rest => ?_⟩
      rw [Emitter.put_nil]
  | paren e ih =>
    have hturn (rest : List Task) : turns (exprTasks (.paren e)) (.eval (.paren e) :: rest) =
        turns (exprTasks e) (.eval e :: rest) := by
      rw [exprTasks, turns, turn, pure_bind]
      rfl
    simp only [hturn]
    exact ih g
  | binary op l r ihl ihr =>
    -- one turn for the operator, then those of the operands, and one to combine their values
    have hturn (rest : List Task) :
        turns (exprTasks (.binary op l r)) (.eval (.binary op l r) :: rest) =
          turns (exprTasks r) (.eval r :: .eval l :: .apply op :: rest) >>= fun todo =>
            turns (exprTasks l) todo >>= turns 1 := by
      have hcount : exprTasks (.binary op l r) = exprTasks r + (exprTasks l + 1) + 1 := by
        rw [exprTasks]
        omega
      rw [hcount, turns, turn, pure_bind, turns_add]
      exact bind_congr fun todo => turns_add (exprTasks l) 1 todo
    simp only [hturn, EStateM.run_bind, Expr.code]
    rcases ihr g with ⟨right, hright, hr⟩ | ⟨name, line, right, depth, hright, hr⟩
    · rcases ihl (g.put right (g.depth + 1)) with
        ⟨left, hleft, hl⟩ | ⟨name, line, left, depth, hleft, hl⟩
      · rw [Emitter.put_vars, Emitter.put_depth] at hleft
        refine .inl ⟨right ++ left ++ [.pop .rax, .pop .rbx] ++ op.code ++ [.push .rax], ?_, ?_⟩
        · rw [hright, ok_bind, hleft]
          rfl
        · intro rest
          simp only [hr, hl, run_turns_apply, Emitter.put_put, Emitter.put_depth,
            Nat.add_sub_cancel, List.append_assoc]
      · rw [Emitter.put_vars, Emitter.put_depth] at hleft
        refine .inr ⟨name, line, right ++ left, depth, ?_, ?_⟩
        · rw [hright, ok_bind, hleft]
          rfl
        · intro rest
          simp only [hr, hl, Emitter.put_put]
    · refine .inr ⟨name, line, right, depth, ?_, ?_⟩
      · rw [hright]
        rfl
      · intro rest
        simp only [hr]

/-- The loop evaluates an expression in as many turns as the expression has tasks, and then goes on
with the rest of the list: the code of the expression has been added and the stack holds one more
value. Where a name is not visible, the loop ends with the error of the first such name, and neither
the error nor the code emitted up to it depends on the rest. -/
theorem run_tasks_eval (e : Expr) (g : Emitter) :
    (∀ n rest, tasks (.eval e :: rest) = turns n (.eval e :: rest) >>= tasks) ∧
      match e.code g.vars g.depth with
      | .ok code => ∀ rest,
        (turns (exprTasks e) (.eval e :: rest)).run g = .ok rest (g.put code (g.depth + 1)) ∧
          (tasks (.eval e :: rest)).run g = (tasks rest).run (g.put code (g.depth + 1))
      | .error err => (∃ name line, err = .undeclared name line) ∧ ∃ code depth, ∀ rest,
        (turns (exprTasks e) (.eval e :: rest)).run g = .error err (g.put code depth) ∧
          (tasks (.eval e :: rest)).run g = .error err (g.put code depth) := by
  refine ⟨fun n rest => tasks_eq_turns n (.eval e :: rest), ?_⟩
  rcases run_turns_eval e g with ⟨code, hcode, hrun⟩ | ⟨name, line, code, depth, hcode, hrun⟩
  · rw [hcode]
    intro rest
    refine ⟨hrun rest, ?_⟩
    rw [tasks_eq_turns (exprTasks e), EStateM.run_bind, hrun]
  · rw [hcode]
    refine ⟨⟨name, line, rfl⟩, code, depth, ?_⟩
    intro rest
    refine ⟨hrun rest, ?_⟩
    rw [tasks_eq_turns (exprTasks e), EStateM.run_bind, hrun]

end Emit

end Kei

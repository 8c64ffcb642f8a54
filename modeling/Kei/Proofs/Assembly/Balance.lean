import Kei.Assembly.Checked
import Kei.Proofs.Assembly.Emission

/-!
# The emitter keeps its balance

Emission with checks comes to the same as emission without them, so no check fails
(`agrees_program`). Between two statements the emitter is determined by the open scopes, and it is
balanced as long as no scope declares a name twice, which the scope checker sees to. Inside a
statement the stack holds more than the variables, but every variable lies on it, and the code of an
expression pops only what it pushed.
-/

namespace Kei

/-! ## Balanced emitters -/

/-- No scope declares a name twice. -/
def Scopes.Distinct (s : Scopes) : Prop :=
  ∀ names ∈ s, names.Nodup

theorem Scopes.Distinct.open {s : Scopes} (h : s.Distinct) : Scopes.Distinct ([] :: s) :=
  List.forall_mem_cons.2 ⟨List.nodup_nil, h⟩

theorem Scopes.Distinct.declare {s : Scopes} {name : Lexeme} (h : s.Distinct)
    (hfresh : s.requireFresh name = .ok ()) : (s.declare name).Distinct := by
  have hnotin : name.spelling ∉ s.headD [] := by
    intro hmem
    rw [Scopes.requireFresh, if_pos (by simpa using hmem)] at hfresh
    cases hfresh
  cases s with
  | nil => exact List.forall_mem_cons.2 ⟨List.nodup_cons.2 ⟨hnotin, List.nodup_nil⟩, h⟩
  | cons inner s =>
    obtain ⟨hinner, hs⟩ := List.forall_mem_cons.1 h
    exact List.forall_mem_cons.2 ⟨List.nodup_cons.2 ⟨hnotin, hinner⟩, hs⟩

/-- A statement that the checker passes declares no name twice. -/
theorem Scopes.Distinct.check {s s' : Scopes} {st : Stmt} (h : s.Distinct)
    (hst : st.check s = .ok s') : s'.Distinct := by
  obtain rfl := Stmt.check_eq_ok hst
  cases st with
  | declare name e =>
    obtain ⟨_, hfresh, -⟩ := bind_eq_ok.1 hst
    exact h.declare hfresh
  | _ => exact h

theorem map_name_varsOf (names : List String) : (varsOf names).map (·.name) = names := by
  induction names with
  | nil => rfl
  | cons name names ih => rw [varsOf, List.map_cons, ih]

theorem map_slot_varsOf (names : List String) :
    (varsOf names).reverse.map (·.slot) = List.range names.length := by
  induction names with
  | nil => rfl
  | cons name names ih =>
    rw [varsOf, List.reverse_cons, List.map_append, ih, List.length_cons, List.range_succ]
    rfl

theorem slot_lt_of_mem_varsOf {names : List String} :
    ∀ v ∈ varsOf names, v.slot < names.length := by
  intro v hv
  have hslot : v.slot ∈ (varsOf names).reverse.map (·.slot) :=
    List.mem_map_of_mem (List.mem_reverse.2 hv)
  rwa [map_slot_varsOf, List.mem_range] at hslot

theorem le_of_mem_marksOf {s : Scopes} : ∀ mark ∈ marksOf s, mark ≤ s.flatten.length := by
  induction s with
  | nil => exact List.forall_mem_nil _
  | cons inner s ih =>
    cases s with
    | nil => exact List.forall_mem_nil _
    | cons outer s =>
      intro mark hmark
      rw [List.flatten_cons, List.length_append]
      rcases List.mem_cons.1 hmark with rfl | hmark
      · exact Nat.le_add_left _ _
      · exact Nat.le_add_left_of_le (ih mark hmark)

theorem pairwise_marksOf (s : Scopes) : (marksOf s).Pairwise (· ≥ ·) := by
  induction s with
  | nil => exact .nil
  | cons inner s ih =>
    cases s with
    | nil => exact .nil
    | cons outer s => exact .cons (fun mark hmark => le_of_mem_marksOf mark hmark) ih

/-- The marks divide the variables into the scopes they are declared in. -/
theorem map_segments {s : Scopes} (hs : s ≠ []) :
    (segments (marksOf s) (varsOf s.flatten)).map (List.map (·.name)) = s := by
  induction s with
  | nil => exact absurd rfl hs
  | cons inner s ih =>
    by_cases hs' : s = []
    · subst hs'
      rw [marksOf, segments, List.map_cons, map_name_varsOf]
      simp
    · have hcount : (varsOf (inner ++ s.flatten)).length - s.flatten.length = inner.length := by
        rw [length_varsOf, List.length_append, Nat.add_sub_cancel]
      rw [marksOf_cons hs', List.flatten_cons, segments, hcount, drop_varsOf, List.map_cons,
        ih hs', List.map_take, map_name_varsOf, List.take_left]

/-- Between two statements the emitter is balanced. -/
theorem balanced_ofScopes {s : Scopes} (hs : s ≠ []) (hd : s.Distinct) (code : List Instr)
    (n : Nat) : (Emitter.ofScopes code s 0 n).Balanced where
  depth_eq := (length_varsOf _).symm
  slots_eq := by
    show (varsOf s.flatten).reverse.map (·.slot) = List.range (varsOf s.flatten).length
    rw [map_slot_varsOf, length_varsOf]
  sorted := pairwise_marksOf s
  marks_le := by
    intro mark hmark
    show mark ≤ (varsOf s.flatten).length
    rw [length_varsOf]
    exact le_of_mem_marksOf mark hmark
  distinct := by
    intro scope hscope
    have hmem : scope.map (·.name) ∈ s := by
      rw [← map_segments hs]
      exact List.mem_map_of_mem hscope
    exact hd _ hmem

namespace CheckedEmit

/-! ## Agreement -/

section

variable {x : Emit α} {y : CheckedEmit α} {f : α → Emit β} {f' : α → CheckedEmit β}
  {g g' : Emitter}

/-- From `g` the checked emission does what the unchecked one does. -/
def Agrees (x : Emit α) (y : CheckedEmit α) (g : Emitter) : Prop :=
  y.run g = (unchecked x).run g

theorem agrees_unchecked (x : Emit α) (g : Emitter) : Agrees x (unchecked x) g := rfl

theorem run_unchecked (x : Emit α) (g : Emitter) :
    (unchecked x).run g =
      match x.run g with
      | .ok a g => .ok a g
      | .error e g => .error (.scope e) g := by
  rw [unchecked, EStateM.run, EStateM.adaptExcept, EStateM.run]
  cases x g <;> rfl

theorem Agrees.bind (h : Agrees x y g)
    (hf : ∀ a g', x.outcome g = .ok (a, g') → Agrees (f a) (f' a) g') :
    Agrees (x >>= f) (y >>= f') g := by
  rw [Agrees, run_unchecked, EStateM.run_bind, EStateM.run_bind, h, run_unchecked]
  cases hx : x.run g with
  | error e g' => rfl
  | ok a g' =>
    have hrest := hf a g' (by rw [Emit.outcome, hx])
    rw [Agrees, run_unchecked] at hrest
    exact hrest

/-- Go on behind an emission whose outcome is known. -/
theorem Agrees.bind_of_outcome (h : Agrees x y g) {r : Except ScopeError γ} {a : α}
    (hx : x.outcome g = r.map fun _ => (a, g')) (hf : Agrees (f a) (f' a) g') :
    Agrees (x >>= f) (y >>= f') g := by
  refine h.bind fun b g'' hb => ?_
  rw [hx] at hb
  cases r with
  | error e => cases hb
  | ok c =>
    obtain ⟨rfl, rfl⟩ := Prod.mk.inj (Except.ok.inj hb)
    exact hf

/-- Go on behind an emission that cannot fail. -/
theorem Agrees.bind_of_ok (h : Agrees x y g) {a : α} (hx : x.outcome g = .ok (a, g'))
    (hf : Agrees (f a) (f' a) g') : Agrees (x >>= f) (y >>= f') g :=
  h.bind_of_outcome (r := .ok ()) hx hf

theorem run_check {p : Emitter → Prop} [DecidablePred p] (hp : p g) :
    (check p).run g = .ok () g := by
  simp [check, hp]

/-- A check that holds changes nothing. -/
theorem Agrees.check {p : Emitter → Prop} [DecidablePred p] (hp : p g) {k : Unit → CheckedEmit α}
    (h : Agrees x (k ()) g) : Agrees x (check p >>= k) g := by
  rw [Agrees, EStateM.run_bind, run_check hp]
  exact h

end

/-- A balanced emitter stays so. -/
theorem Agrees.balanced {x : Emit Unit} {y : CheckedEmit Unit} {g : Emitter} (h : Agrees x y g)
    (hg : g.Balanced) (hx : ∀ g', x.outcome g = .ok ((), g') → g'.Balanced) :
    Agrees x (inBalance y) g := by
  have hend : Agrees (x >>= pure) (y >>= fun _ => CheckedEmit.check Emitter.Balanced) g := by
    refine h.bind fun _ g' hg' => ?_
    rw [Agrees, run_check (hx g' hg')]
    rfl
  rw [bind_pure] at hend
  exact .check hg hend

/-! ## Expressions -/

/-- The place of a variable is looked for only below the newest value. -/
theorem agrees_place {name : Lexeme} {f : Nat → Emit α} {f' : Nat → CheckedEmit α} {g : Emitter}
    (hvars : ∀ v ∈ g.vars, v.slot < g.depth) (hf : ∀ n, Agrees (f n) (f' n) g) :
    Agrees (do f (← Emit.offset (← Emit.find name))) (do f' (← offset (← Emit.find name))) g := by
  refine (agrees_unchecked (Emit.find name) g).bind fun v g' hv => ?_
  rw [Emit.outcome_find] at hv
  cases hfind : g.vars.find? (·.name = name.spelling) with
  | none => simp [hfind] at hv
  | some v' =>
    rw [hfind] at hv
    obtain ⟨rfl, rfl⟩ := Prod.mk.inj (Except.ok.inj hv)
    have hslot := hvars v' (List.mem_of_find?_eq_some hfind)
    have hoffset : Agrees (Emit.offset v') (offset v') g := .check hslot (agrees_unchecked _ g)
    exact hoffset.bind_of_ok (Emit.outcome_offset v' g) (hf _)

theorem agrees_pop {dst : Reg} {g : Emitter} (h : 1 ≤ g.depth) :
    Agrees (Emit.pop dst) (pop dst) g :=
  .check h (agrees_unchecked _ g)

/-- An operator finds both its operands on the stack. -/
theorem agrees_tasks_apply {op : Op} {rest : List Emit.Task} {g : Emitter} (hdepth : 2 ≤ g.depth)
    (hrest : ∀ code, Agrees (Emit.tasks rest) (tasks rest) (g.put code (g.depth - 1))) :
    Agrees (Emit.tasks (.apply op :: rest)) (tasks (.apply op :: rest)) g := by
  rw [Emit.tasks, tasks]
  refine (agrees_pop (by omega)).bind_of_ok (Emit.outcome_pop _ _) ?_
  refine (agrees_pop (by simp; omega)).bind_of_ok (Emit.outcome_pop _ _) ?_
  refine (agrees_unchecked _ _).bind_of_ok (Emit.outcome_forM_instr _ _) ?_
  refine (agrees_unchecked _ _).bind_of_ok (Emit.outcome_pushing _ _) ?_
  have hd : g.depth - 1 - 1 + 1 = g.depth - 1 := by omega
  simpa [hd] using hrest _

/-- The tasks after an expression find one value more. -/
theorem agrees_tasks_eval {e : Expr} {rest : List Emit.Task} {g : Emitter}
    (hvars : ∀ v ∈ g.vars, v.slot < g.depth)
    (hrest : ∀ code, Agrees (Emit.tasks rest) (tasks rest) (g.put code (g.depth + 1))) :
    Agrees (Emit.tasks (.eval e :: rest)) (tasks (.eval e :: rest)) g := by
  induction e generalizing rest g with
  | int l =>
    rw [Emit.tasks, tasks]
    refine (agrees_unchecked _ _).bind_of_ok (Emit.outcome_instr _ _) ?_
    refine (agrees_unchecked _ _).bind_of_ok (Emit.outcome_pushing _ _) ?_
    simpa using hrest _
  | ident l =>
    rw [Emit.tasks, tasks]
    refine agrees_place hvars fun n => ?_
    exact (agrees_unchecked _ _).bind_of_ok (Emit.outcome_pushing _ _) (hrest _)
  | paren e ih =>
    rw [Emit.tasks, tasks]
    exact ih hvars hrest
  | binary op l r ihl ihr =>
    rw [Emit.tasks, tasks]
    refine ihr hvars fun right => ihl ?_ fun left => agrees_tasks_apply ?_ fun code => ?_
    · intro v hv
      exact Nat.lt_succ_of_lt (hvars v hv)
    · simp
    · simpa using hrest _

theorem agrees_expr {e : Expr} {g : Emitter} (hvars : ∀ v ∈ g.vars, v.slot < g.depth) :
    Agrees (Emit.expr e) (expr e) g := by
  refine agrees_tasks_eval hvars fun code => ?_
  rw [Emit.tasks, tasks]
  rfl

/-! ## Between statements

Each lemma says where the emitter stands behind a step, and leaves the agreement of what follows.
-/

section

variable {code : List Instr} {s : Scopes} {held n : Nat}

theorem Agrees.after_instr {i : Instr} {f : Unit → Emit α} {f' : Unit → CheckedEmit α}
    (h : Agrees (f ()) (f' ()) (.ofScopes (code ++ [i]) s held n)) :
    Agrees (Emit.instr i >>= f) (unchecked (Emit.instr i) >>= f') (.ofScopes code s held n) :=
  (agrees_unchecked _ _).bind_of_ok (Emit.outcome_instr_ofScopes code s held n i) h

theorem Agrees.after_expr {e : Expr} {f : Unit → Emit α} {f' : Unit → CheckedEmit α}
    (h : Agrees (f ()) (f' ()) (.ofScopes (code ++ e.listing s held) s (held + 1) n)) :
    Agrees (Emit.expr e >>= f) (expr e >>= f') (.ofScopes code s held n) := by
  have he : Agrees (Emit.expr e) (expr e) (.ofScopes code s held n) :=
    agrees_expr fun v hv => Nat.lt_add_right held (slot_lt_of_mem_varsOf v hv)
  exact he.bind_of_outcome (Emit.outcome_expr_ofScopes code s held n e) h

theorem Agrees.after_pop {dst : Reg} {f : Unit → Emit α} {f' : Unit → CheckedEmit α}
    (h : Agrees (f ()) (f' ()) (.ofScopes (code ++ [.pop dst]) s held n)) :
    Agrees (Emit.pop dst >>= f) (pop dst >>= f') (.ofScopes code s (held + 1) n) := by
  have hdepth : 1 ≤ (Emitter.ofScopes code s (held + 1) n).depth := by
    rw [Emitter.ofScopes_depth]
    omega
  exact (agrees_pop hdepth).bind_of_ok (Emit.outcome_pop_ofScopes code s held n dst) h

theorem agrees_exit (e : Expr) : Agrees (Emit.exit e) (exit e) (.ofScopes code s 0 n) := by
  rw [Emit.exit, exit]
  refine .after_expr (.after_instr (.after_pop ?_))
  exact agrees_unchecked _ _

theorem agrees_assign (name : Lexeme) (e : Expr) :
    Agrees (Emit.assign name e) (assign name e) (.ofScopes code s 0 n) := by
  rw [Emit.assign, assign]
  refine (agrees_unchecked _ _).bind_of_outcome (Emit.outcome_find_ofScopes _ _ _ _ _) ?_
  refine .after_expr (.after_pop ?_)
  exact agrees_place slot_lt_of_mem_varsOf fun _ => agrees_unchecked _ _

theorem Agrees.after_branch {e : Expr} {f : Nat → Emit α} {f' : Nat → CheckedEmit α}
    (h : Agrees (f n) (f' n) (.ofScopes (code ++ e.branchListing s n) s 0 (n + 1))) :
    Agrees (Emit.branch e >>= f) (branch e >>= f') (.ofScopes code s 0 n) := by
  have hbranch : Agrees (Emit.branch e) (branch e) (.ofScopes code s 0 n) := by
    rw [Emit.branch, branch]
    refine .after_expr (.after_pop ?_)
    exact agrees_unchecked _ _
  exact hbranch.bind_of_outcome (Emit.outcome_branch code s n e) h

theorem agrees_declare (hs : s ≠ []) (name : Lexeme) (e : Expr) :
    Agrees (Emit.declare name e) (declare name e) (.ofScopes code s 0 n) := by
  have hmark : (marksOf s).headD 0 ≤ (varsOf s.flatten).length := by
    rw [length_varsOf]
    cases hmarks : marksOf s with
    | nil => exact Nat.zero_le _
    | cons mark marks => exact le_of_mem_marksOf mark (by rw [hmarks]; exact List.mem_cons_self)
  rw [Emit.declare, declare]
  refine .check hmark ?_
  refine (agrees_unchecked _ _).bind_of_outcome (Emit.outcome_checkFresh _ _ _ _ hs) ?_
  refine Agrees.bind_of_ok rfl (Emit.outcome_get _) ?_
  refine .after_expr ?_
  rfl

/-- Leaving a scope finds the mark that was left on entering it. -/
theorem agrees_endScope (hs : s ≠ []) (inner : List String) :
    Agrees Emit.endScope endScope (.ofScopes code (inner :: s) 0 n) := by
  refine .check ?_ (agrees_unchecked _ _)
  simp only [Emitter.ofScopes, marksOf_cons hs, List.headD_cons, List.flatten_cons, length_varsOf,
    List.length_append]
  refine ⟨List.cons_ne_nil _ _, ?_, ?_⟩ <;> omega

/-- A block in a scope of its own leaves the scopes as they were. -/
theorem Agrees.after_body (hs : s ≠ []) {b : Block} {k : Emit α} {k' : CheckedEmit α}
    (hb : Agrees (Emit.stmts b) (stmts b) (.ofScopes code ([] :: s) 0 n))
    (hk : ∀ code n, Agrees k k' (.ofScopes code s 0 n)) :
    Agrees (do Emit.beginScope; Emit.stmts b; Emit.endScope; k)
      (do Emit.beginScope; stmts b; endScope; k') (.ofScopes code s 0 n) := by
  refine (agrees_unchecked _ _).bind_of_ok (Emit.outcome_beginScope _ _ _ hs) ?_
  refine hb.bind fun _ g' hg' => ?_
  rw [Emit.outcome_stmts (List.cons_ne_nil [] s)] at hg'
  cases hcheck : Block.check ([] :: s) b with
  | error e => simp [hcheck, Except.map] at hg'
  | ok s' =>
    rw [hcheck] at hg'
    obtain ⟨-, rfl⟩ := Prod.mk.inj (Except.ok.inj hg')
    obtain ⟨inner, hdecl, -⟩ := Block.declares_cons b [] s
    rw [Block.check_eq_ok hcheck, hdecl]
    exact (agrees_endScope hs inner).bind_of_ok (Emit.outcome_endScope _ _ _ _ hs) (hk _ _)

/-! ## Statements -/

/-- Where a statement leaves the emitter: between statements again, with no name declared twice. -/
theorem exists_scopes_of_outcome (hs : s ≠ []) (hd : s.Distinct) {st : Stmt} {g' : Emitter}
    (h : (Emit.stmt st).outcome (.ofScopes code s 0 n) = .ok ((), g')) :
    ∃ code' s' n', s' ≠ [] ∧ Scopes.Distinct s' ∧ g' = .ofScopes code' s' 0 n' := by
  rw [Emit.outcome_stmt hs] at h
  cases hst : st.check s with
  | error e => simp [hst, Except.map] at h
  | ok s' =>
    rw [hst] at h
    obtain ⟨-, rfl⟩ := Prod.mk.inj (Except.ok.inj h)
    exact ⟨_, s', _, Stmt.check_eq_ok hst ▸ st.declares_ne_nil hs, hd.check hst, rfl⟩

/-- A statement is entered and left in balance. -/
theorem Agrees.stmt_balanced (hs : s ≠ []) (hd : s.Distinct) {st : Stmt} {y : CheckedEmit Unit}
    (h : Agrees (Emit.stmt st) y (.ofScopes code s 0 n)) :
    Agrees (Emit.stmt st) (inBalance y) (.ofScopes code s 0 n) := by
  refine h.balanced (balanced_ofScopes hs hd code n) fun g' hg' => ?_
  obtain ⟨code', s', n', hs', hd', rfl⟩ := exists_scopes_of_outcome hs hd hg'
  exact balanced_ofScopes hs' hd' code' n'

end

mutual

theorem agrees_stmt {s : Scopes} (hs : s ≠ []) (hd : s.Distinct) (code : List Instr) (n : Nat) :
    ∀ st : Stmt, Agrees (Emit.stmt st) (stmt st) (.ofScopes code s 0 n)
  | .exit e => by
    rw [stmt]
    refine .stmt_balanced hs hd ?_
    rw [Emit.stmt]
    exact .after_instr ((agrees_exit e).bind fun _ _ _ => agrees_unchecked _ _)
  | .declare name e => by
    rw [stmt]
    refine .stmt_balanced hs hd ?_
    rw [Emit.stmt]
    exact .after_instr ((agrees_declare hs name e).bind fun _ _ _ => agrees_unchecked _ _)
  | .assign name e => by
    rw [stmt]
    refine .stmt_balanced hs hd ?_
    rw [Emit.stmt]
    exact .after_instr ((agrees_assign name e).bind fun _ _ _ => agrees_unchecked _ _)
  | .scope b => by
    rw [stmt]
    refine .stmt_balanced hs hd ?_
    rw [Emit.stmt]
    have hb := agrees_stmts (List.cons_ne_nil [] s) hd.open (code ++ [.note "scope"]) n b
    exact .after_instr (.after_body hs hb fun _ _ => agrees_unchecked _ _)
  | .cond e b c => by
    rw [stmt]
    refine .stmt_balanced hs hd ?_
    rw [Emit.stmt]
    refine .after_instr (.after_branch ?_)
    refine .after_body hs (agrees_stmts (List.cons_ne_nil [] s) hd.open _ _ b) fun code n => ?_
    by_cases hstop : c.isStop
    · rw [if_pos hstop, if_pos hstop]
      exact agrees_unchecked _ _
    · rw [if_neg hstop, if_neg hstop]
      refine (agrees_unchecked _ _).bind_of_ok (Emit.outcome_freshLabel_ofScopes _ _ _ _) ?_
      refine .after_instr (.after_instr ?_)
      exact (agrees_chain hs hd _ _ _ c).bind fun _ _ _ => agrees_unchecked _ _

theorem agrees_stmts {s : Scopes} (hs : s ≠ []) (hd : s.Distinct) (code : List Instr) (n : Nat) :
    ∀ b : List Stmt, Agrees (Emit.stmts b) (stmts b) (.ofScopes code s 0 n)
  | [] => by
    rw [Emit.stmts, stmts]
    rfl
  | st :: rest => by
    rw [Emit.stmts, stmts]
    refine (agrees_stmt hs hd code n st).bind fun _ g' hg' => ?_
    obtain ⟨code', s', n', hs', hd', rfl⟩ := exists_scopes_of_outcome hs hd hg'
    exact agrees_stmts hs' hd' code' n' rest

theorem agrees_chain {s : Scopes} (hs : s ≠ []) (hd : s.Distinct) (code : List Instr)
    (last n : Nat) : ∀ c : Chain, Agrees (Emit.chain last c) (chain last c) (.ofScopes code s 0 n)
  | .stop => by
    rw [Emit.chain, chain]
    rfl
  | .elif e b next => by
    rw [Emit.chain, chain]
    refine .after_instr (.after_branch ?_)
    refine .after_body hs (agrees_stmts (List.cons_ne_nil [] s) hd.open _ _ b) fun code n => ?_
    exact .after_instr (.after_instr (agrees_chain hs hd _ _ _ next))
  | .otherwise b => by
    rw [Emit.chain, chain]
    have hb := agrees_stmts (List.cons_ne_nil [] s) hd.open (code ++ [.note "else"]) n b
    have hbody : Agrees (do Emit.beginScope; Emit.stmts b; Emit.endScope; pure ())
        (do Emit.beginScope; stmts b; endScope; pure ()) _ :=
      .after_body hs hb fun _ _ => rfl
    simp only [bind_pure_unit] at hbody
    exact .after_instr hbody

end

theorem agrees_program (p : Block) : Agrees (Emit.program p) (program p) {} := by
  have hinit : ({} : Emitter) = .ofScopes [] [[]] 0 0 := rfl
  have hdistinct : Scopes.Distinct [[]] := Scopes.Distinct.open (List.forall_mem_nil _)
  rw [hinit, Emit.program, program]
  refine .after_instr (.after_instr ?_)
  refine (agrees_stmts (List.cons_ne_nil [] []) hdistinct _ _ p).bind fun _ g' _ => ?_
  by_cases hexit : Emit.endsInExit p
  · rw [hexit]
    rfl
  · rw [Bool.eq_false_iff.2 hexit]
    rfl

end CheckedEmit

/-- Emitting a program comes to the same with checks as without them. So the emitter is balanced
whenever a statement is entered or left, and no count is ever subtracted from a smaller one. An
expression adds one value to the stack, from every emitter, and leaves variables and scopes alone.
-/
theorem emit_balanced (p : Block) :
    ((CheckedEmit.program p).run {} =
      match (Emit.program p).run {} with
      | .ok u g => .ok u g
      | .error e g => .error (.scope e) g) ∧
    ∀ (e : Expr) (g g' : Emitter), (Emit.expr e).outcome g = .ok ((), g') →
      g'.depth = g.depth + 1 ∧ g'.vars = g.vars ∧ g'.marks = g.marks := by
  constructor
  · rw [CheckedEmit.agrees_program p, CheckedEmit.run_unchecked]
    cases (Emit.program p).run {} <;> rfl
  · intro e g g' h
    rw [Emit.outcome_expr] at h
    cases hcode : e.code g.vars g.depth with
    | error err => simp [hcode, Except.map] at h
    | ok code =>
      rw [hcode] at h
      obtain ⟨-, rfl⟩ := Prod.mk.inj (Except.ok.inj h)
      exact ⟨rfl, rfl, rfl⟩

/-- `let x = 1; { let y = x; { let x = y - (2); let z = x; y = z; } let z = y; } exit(x);`, where
the inner scope declares `x` anew and both scopes declare a `z`. -/
def scopesInScopes : Block :=
  let name (n : String) : Lexeme := ⟨1, some n⟩
  let var (n : String) : Expr := .ident (name n)
  let int (n : String) : Expr := .int ⟨1, some n⟩
  [.declare (name "x") (int "1"),
    .scope [.declare (name "y") (var "x"),
      .scope [.declare (name "x") (.binary .sub (var "y") (.paren (int "2"))),
        .declare (name "z") (var "x"), .assign (name "y") (var "z")],
      .declare (name "z") (var "y")],
    .exit (var "x")]

/-- With its checks, the emission of a program with scopes in scopes ends as it does without them,
and one variable is left. An operand is evaluated while the other one lies above the variables. -/
theorem emit_balanced_operands :
    (∃ g, (Emit.program scopesInScopes).run {} = .ok () g ∧
      (CheckedEmit.program scopesInScopes).run {} = .ok () g ∧
      g.depth = 1 ∧ g.vars = [⟨"x", 0⟩] ∧ g.marks = []) ∧
    let e : Expr := .binary .sub (.ident ⟨1, some "x"⟩) (.paren (.int ⟨1, some "2"⟩))
    let g : Emitter := { depth := 1, vars := [⟨"x", 0⟩] }
    let code : List Instr :=
      [.load .rax "2", .push .rax, .pushSlot 8, .pop .rax, .pop .rbx, .sub, .push .rax]
    (Emit.expr e).outcome g = .ok ((), g.put code 2) ∧ (g.put code 2).depth = g.depth + 1 ∧
      (g.put code 2).vars = g.vars ∧ (g.put code 2).marks = g.marks := by
  constructor
  · have hcheck := (emit_balanced scopesInScopes).1
    have hplain : ((Emit.program scopesInScopes).outcome {}).toOption.map
        (fun r => (r.2.depth, r.2.vars, r.2.marks)) = some (1, [⟨"x", 0⟩], []) := by
      decide +kernel
    rw [Emit.outcome] at hplain
    cases hrun : (Emit.program scopesInScopes).run {} with
    | error err g =>
      rw [hrun] at hplain
      cases hplain
    | ok u g =>
      rw [hrun] at hcheck hplain
      have heq := Option.some.inj hplain
      simp only [Prod.mk.injEq] at heq
      exact ⟨g, rfl, hcheck, heq⟩
  · intro e g code
    have h : (Emit.expr e).outcome g = .ok ((), g.put code 2) := by
      rw [Emit.outcome_expr]
      rfl
    exact ⟨h, (emit_balanced scopesInScopes).2 e g _ h⟩

end Kei

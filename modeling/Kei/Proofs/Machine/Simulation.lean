import Kei.Meaning.Depth
import Kei.Proofs.Machine.Stepping

/-!
# Code does what trees mean

The stack holds the values of the variables, newest first, and above them the operands still
needed. From there the machine runs the listing of a tree as the tree is evaluated: it arrives
behind the listing, ends with the same status, or faults where a division by zero is met.
-/

namespace Kei

open Machine

/-! ## Expressions -/

/-- The run comes to `rest` with the value of an expression above `held`, or faults with it. -/
def Yields (p : Program) (a : Spot) (rest : List Machine.Op) (held : List Int64) (deepest : Nat) :
    Except Trap Int64 → Prop
  | .ok v => Leads p a ⟨rest, v :: held, deepest⟩
  | .error t => t = .divisionByZero ∧ Ends p a State.DividesByZero

theorem Expr.need_pos (e : Expr) : 0 < e.need := by
  induction e with
  | int l => exact Nat.one_pos
  | ident l => exact Nat.one_pos
  | paren e ih => exact ih
  | binary op l r ihl ihr => simp only [Expr.need]; omega

/-- The slot of a name holds its value, below the operands. -/
theorem getElem?_offset (env : Env) (operands : List Int64) (name : Lexeme) :
    (operands ++ env.values)[env.names.offset operands.length name / 8]? =
      env.get? name.spelling := by
  have hslot : env.names.offset operands.length name / 8 =
      operands.length + env.names.flatten.idxOf name.spelling := by
    rw [Scopes.offset, Emit.slotSize]
    omega
  rw [hslot, List.getElem?_append_right (Nat.le_add_right _ _), Nat.add_sub_cancel_left,
    Env.get?_eq]

theorem yields_expr (p : Program) (env : Env) (e : Expr) (hcheck : e.check env.names = .ok ())
    (operands : List Int64) (rest : List Machine.Op) (d : Nat) :
    Yields p ⟨ops (e.listing env.names operands.length) ++ rest, operands ++ env.values, d⟩ rest
      (operands ++ env.values) (max d ((operands ++ env.values).length + e.need)) (e.eval env) := by
  induction e generalizing operands rest d with
  | int l => exact leads_literal p rest (operands ++ env.values) d l.value
  | ident l =>
    obtain ⟨v, hv⟩ := Env.exists_get?_of_require hcheck
    rw [Expr.eval, hv]
    exact leads_pushSlot p rest _ d ((getElem?_offset env operands l).trans hv)
  | paren e ih => exact ih hcheck operands rest d
  | binary op l r ihl ihr =>
    simp only [Expr.check, bind_eq_ok] at hcheck
    obtain ⟨_, hr, hl⟩ := hcheck
    let combine : List Instr := .pop .rax :: .pop .rbx :: (Emit.opCode op ++ [.push .rax])
    have hcode : ops (Expr.listing env.names operands.length (.binary op l r)) ++ rest =
        ops (r.listing env.names operands.length) ++
          (ops (l.listing env.names (operands.length + 1)) ++ (ops combine ++ rest)) := by
      rw [Expr.listing, ops_append, ops_append, List.append_assoc, List.append_assoc]
    have hright := ihr hr operands
      (ops (l.listing env.names (operands.length + 1)) ++ (ops combine ++ rest)) d
    rw [hcode]
    simp only [Expr.eval]
    cases hb : r.eval env with
    | error t =>
      rw [hb] at hright
      exact hright
    | ok b =>
      rw [hb] at hright
      have hleft := ihl hl (b :: operands) (ops combine ++ rest)
        (max d ((operands ++ env.values).length + r.need))
      simp only [ok_bind]
      cases ha : l.eval env with
      | error t =>
        rw [ha] at hleft
        exact ⟨hleft.1, hright.ends hleft.2⟩
      | ok a =>
        rw [ha] at hleft
        simp only [ok_bind]
        cases hop : op.eval a b with
        | error t =>
          obtain ⟨ht, hfault⟩ := ends_op p rest (operands ++ env.values) _ hop
          exact ⟨ht, hright.ends (hleft.ends hfault)⟩
        | ok v =>
          have hlead := hright.trans (hleft.trans (leads_op p rest (operands ++ env.values) _ hop))
          have hpos := l.need_pos
          have hdepth : max (max (max d ((operands ++ env.values).length + r.need))
              ((b :: operands ++ env.values).length + l.need))
                ((operands ++ env.values).length + 1) =
              max d ((operands ++ env.values).length + (Expr.binary op l r).need) := by
            simp only [List.cons_append, List.length_cons, Expr.need]
            omega
          rw [hdepth] at hlead
          exact hlead

/-- The code of an expression on a stack of variables alone. -/
theorem yields_expr_values (p : Program) (env : Env) (e : Expr)
    (hcheck : e.check env.names = .ok ()) (rest : List Machine.Op) (d : Nat) :
    Yields p ⟨ops (e.listing env.names 0) ++ rest, env.values, d⟩ rest env.values
      (max d (env.peak e)) (e.eval env) := by
  rw [Env.peak, Env.length_vars]
  exact yields_expr p env e hcheck [] rest d

/-! ## Statements -/

/-- The run goes on as the program does: to `rest` with the values of the variables on the stack, to
the end, or into a fault. -/
def Follows (p : Program) (a : Spot) (rest : List Machine.Op) (deepest : Nat) :
    Except Trap Flow → Prop
  | .ok (.next env) => Leads p a ⟨rest, env.values, deepest⟩
  | .ok (.exit status env) => Ends p a (State.Exits status env.values deepest)
  | .error t => t = .divisionByZero ∧ Ends p a State.DividesByZero

namespace Follows

variable {p : Program} {a b : Spot} {rest rest' : List Machine.Op} {d : Nat} {r : Except Trap Flow}

theorem of_leads (h : Leads p a b) (hb : Follows p b rest d r) : Follows p a rest d r := by
  match r, hb with
  | .ok (.next env), hb => exact h.trans hb
  | .ok (.exit status env), hb => exact h.ends hb
  | .error t, ⟨ht, hb⟩ => exact ⟨ht, h.ends hb⟩

theorem then_leads (ha : Follows p a rest d r)
    (h : ∀ held, Leads p ⟨rest, held, d⟩ ⟨rest', held, d⟩) : Follows p a rest' d r := by
  match r, ha with
  | .ok (.next env), ha => exact ha.trans (h env.values)
  | .ok (.exit status env), ha => exact ha
  | .error t, ha => exact ha

end Follows

/-- The code of a scope that was entered drops its variables at the end. -/
theorem Follows.leave {p : Program} {a : Spot} {rest : List Machine.Op} {d : Nat} {env : Env}
    {b : Block} (hin : Installed p (releaseListing (Block.locals b)) rest)
    (h : Follows p a (ops (releaseListing (Block.locals b)) ++ rest) d (Block.exec ([] :: env) b)) :
    Follows p a rest d (do let flow ← Block.exec ([] :: env) b; return flow.leave) := by
  cases hexec : Block.exec ([] :: env) b with
  | error t =>
    rw [hexec] at h
    exact h
  | ok flow =>
    rw [hexec] at h
    cases flow with
    | exit status env' => exact h
    | next env' =>
      obtain ⟨inner, outer, rfl, -, hlen⟩ := Env.eq_cons_of_names (Block.names_exec b hexec)
      refine Leads.trans h ?_
      by_cases hzero : Block.locals b = 0
      · have hnil : inner = [] := List.length_eq_zero_iff.1 (hlen.trans hzero)
        rw [releaseListing, if_pos hzero, hnil]
        exact Leads.refl p _
      · have hdrop : (Env.values (inner :: outer)).drop (Block.locals b) = Env.values outer := by
          rw [Env.values_cons, ← hlen, ← List.length_map Prod.snd, List.drop_left]
        rw [releaseListing, if_neg hzero] at hin ⊢
        have hbytes := hin.readable _ List.mem_cons_self
        have hlead := leads_release p rest (Env.values (inner :: outer)) d (Block.locals b)
          (by simp [hlen]) hbytes
        rw [hdrop] at hlead
        exact hlead

/-- The code of a block in a scope of its own. -/
theorem Follows.body {p : Program} {env : Env} {n d : Nat} {rest : List Machine.Op} {b : Block}
    (hin : Installed p
      (Block.listing ([] :: env.names) n b ++ releaseListing (Block.locals b)) rest)
    (h : ∀ rest, Installed p (Block.listing ([] :: env.names) n b) rest →
      Follows p ⟨ops (Block.listing ([] :: env.names) n b) ++ rest, env.values, d⟩ rest
        (max d (Block.peak ([] :: env) b)) (Block.exec ([] :: env) b)) :
    Follows p ⟨ops (Block.listing ([] :: env.names) n b ++ releaseListing (Block.locals b)) ++ rest,
      env.values, d⟩ rest (max d (Block.peak ([] :: env) b))
      (do let flow ← Block.exec ([] :: env) b; return flow.leave) := by
  rw [ops_append, List.append_assoc]
  exact .leave hin.right (h _ hin.left)

/-- A condition chooses between the code after it and the code at its label. -/
theorem follows_branch {p : Program} {env : Env} {e : Expr} {label d taken skipped : Nat}
    {body target rest : List Machine.Op} {yes no : Except Trap Flow}
    (hcheck : e.check env.names = .ok ())
    (hlabel : p.labels[Instr.labelName label]? = some target)
    (hyes : ∀ d, Follows p ⟨body, env.values, d⟩ rest (max d taken) yes)
    (hno : ∀ d, Follows p ⟨target, env.values, d⟩ rest (max d skipped) no) :
    Follows p ⟨ops (e.branchListing env.names label) ++ body, env.values, d⟩ rest
      (max d (max (env.peak e) (match e.eval env with
        | .error _ => 0
        | .ok v => if v ≠ 0 then taken else skipped)))
      (do let v ← e.eval env; if v ≠ 0 then yes else no) := by
  have hcode : ops (e.branchListing env.names label) ++ body =
      ops (e.listing env.names 0) ++ (ops [.pop .rax, .test, .jumpZero label] ++ body) := by
    rw [Expr.branchListing, ops_append, List.append_assoc]
  have hexpr := yields_expr_values p env e hcheck
    (ops [.pop .rax, .test, .jumpZero label] ++ body) d
  rw [hcode]
  cases hv : e.eval env with
  | error t =>
    rw [hv] at hexpr
    exact hexpr
  | ok v =>
    rw [hv] at hexpr
    have hbranch := leads_branch p body env.values (max d (env.peak e)) v hlabel
    simp only [ok_bind]
    by_cases hzero : v = 0
    · rw [if_pos hzero] at hbranch
      simp only [hzero, ne_eq, not_true_eq_false, if_false, ← Nat.max_assoc]
      exact .of_leads (hexpr.trans hbranch) (hno _)
    · rw [if_neg hzero] at hbranch
      simp only [ne_eq, hzero, not_false_eq_true, if_true, ← Nat.max_assoc]
      exact .of_leads (hexpr.trans hbranch) (hyes _)

/-- Remarks are no operations. -/
theorem ops_note (text : String) (code : List Instr) : ops (.note text :: code) = ops code := rfl

mutual

theorem follows_stmt {p : Program} (env : Env) (n d : Nat) (rest : List Machine.Op) :
    ∀ (st : Stmt) {s : Scopes}, st.check env.names = .ok s →
      Installed p (st.listing env.names n) rest →
      Follows p ⟨ops (st.listing env.names n) ++ rest, env.values, d⟩ rest (max d (st.peak env))
        (st.exec env)
  | .exit e, s, hcheck, hin => by
    simp only [Stmt.check, bind_eq_ok] at hcheck
    obtain ⟨_, he, -⟩ := hcheck
    have hcode : ops (Stmt.listing env.names n (.exit e)) ++ rest =
        ops (e.listing env.names 0) ++ (.mov (.register "rax") (.number exitCall) ::
          .pop (.register "rdi") :: .syscall :: rest) := by
      rw [Stmt.listing, ops_note, ops_append, List.append_assoc]
      rfl
    have hexpr := yields_expr_values p env e he (.mov (.register "rax") (.number exitCall) ::
      .pop (.register "rdi") :: .syscall :: rest) d
    rw [hcode, Stmt.exec]
    cases hv : e.eval env with
    | error t =>
      rw [hv] at hexpr
      exact hexpr
    | ok v =>
      rw [hv] at hexpr
      exact hexpr.ends (ends_exit p rest env.values _ v)
  | .declare name e, s, hcheck, hin => by
    simp only [Stmt.check, bind_eq_ok] at hcheck
    obtain ⟨_, -, _, he, -⟩ := hcheck
    have hcode : ops (Stmt.listing env.names n (.declare name e)) ++ rest =
        ops (e.listing env.names 0) ++ rest := by
      rw [Stmt.listing, ops_note, ops_append, List.append_assoc]
      rfl
    have hexpr := yields_expr_values p env e he rest d
    rw [hcode, Stmt.exec]
    cases hv : e.eval env with
    | error t =>
      rw [hv] at hexpr
      exact hexpr
    | ok v =>
      rw [hv] at hexpr
      simp only [ok_bind, pure_eq_ok, Follows, Env.values_declare]
      exact hexpr
  | .assign name e, s, hcheck, hin => by
    simp only [Stmt.check, bind_eq_ok] at hcheck
    obtain ⟨_, hname, _, he, -⟩ := hcheck
    have hcode : ops (Stmt.listing env.names n (.assign name e)) ++ rest =
        ops (e.listing env.names 0) ++ (.pop (.register "rax") ::
          .mov (.slot (env.names.offset 0 name)) (.register "rax") :: rest) := by
      rw [Stmt.listing, ops_note, ops_append, List.append_assoc]
      rfl
    have hexpr := yields_expr_values p env e he (.pop (.register "rax") ::
      .mov (.slot (env.names.offset 0 name)) (.register "rax") :: rest) d
    rw [hcode, Stmt.exec]
    cases hv : e.eval env with
    | error t =>
      rw [hv] at hexpr
      exact hexpr
    | ok v =>
      rw [hv] at hexpr
      have hslot : env.names.offset 0 name / 8 = env.names.flatten.idxOf name.spelling := by
        rw [Scopes.offset, Emit.slotSize]
        omega
      have hlt : env.names.offset 0 name / 8 < env.values.length := by
        rw [hslot, Env.length_values]
        exact List.idxOf_lt_length_of_mem (Scopes.mem_of_require hname)
      have hstore := leads_store p rest env.values (max d (env.peak e)) v hlt
      rw [hslot, ← Env.values_set] at hstore
      exact hexpr.trans hstore
  | .scope b, s, hcheck, hin => by
    simp only [Stmt.check, bind_eq_ok] at hcheck
    obtain ⟨_, hb, -⟩ := hcheck
    rw [Stmt.listing, ← List.append_assoc] at hin ⊢
    rw [ops_note, ops_append, List.append_assoc]
    exact .body hin.tail.left fun rest => follows_block ([] :: env) n d rest b hb
  | .cond e b c, s, hcheck, hin => by
    simp only [Stmt.check, bind_eq_ok] at hcheck
    obtain ⟨_, he, _, hb, _, hc, -⟩ := hcheck
    rw [Stmt.listing, ← List.append_assoc (Block.listing _ _ _)] at hin ⊢
    have hbody := hin.tail.right.left
    have htail := hin.tail.right.right
    rw [ops_note, ops_append, List.append_assoc, ops_append, List.append_assoc, Stmt.exec,
      Stmt.peak]
    by_cases hstop : c.isStop
    · obtain rfl : c = .stop := by cases c <;> simp_all [Chain.isStop]
      refine follows_branch he htail.label (fun d => ?_) (fun d => ?_)
      · refine .then_leads (.body hbody fun rest =>
          follows_block ([] :: env) (n + 1) d rest b hb) fun held => ?_
        exact leads_label p rest held _ _
      · rw [Chain.peak, Nat.max_zero]
        exact Leads.refl p _
    · simp only [hstop, if_false, Bool.false_eq_true, List.cons_append] at hbody htail ⊢
      have hchain := htail.tail.tail.left
      refine follows_branch he htail.tail.label (fun d => ?_) (fun d => ?_)
      · refine .then_leads (.body hbody fun rest =>
          follows_block ([] :: env) (n + 1) d rest b hb) fun held => ?_
        exact leads_jump p _ held _ hchain.right.label
      · rw [ops_append, ops_append, List.append_assoc, List.append_assoc]
        exact follows_chain env _ _ d rest hchain.right.label c hc hchain.left

theorem follows_block {p : Program} (env : Env) (n d : Nat) (rest : List Machine.Op) :
    ∀ (b : List Stmt) {s : Scopes}, Block.check env.names b = .ok s →
      Installed p (Block.listing env.names n b) rest →
      Follows p ⟨ops (Block.listing env.names n b) ++ rest, env.values, d⟩ rest
        (max d (Block.peak env b)) (Block.exec env b)
  | [], s, hcheck, hin => by
    rw [Block.peak, Nat.max_zero]
    exact Leads.refl p _
  | st :: b, s, hcheck, hin => by
    simp only [Block.check, bind_eq_ok] at hcheck
    obtain ⟨s₁, hst, hb⟩ := hcheck
    rw [Block.listing] at hin ⊢
    rw [ops_append, List.append_assoc]
    have hfirst := follows_stmt env n d _ st hst hin.left
    rw [Block.exec, Block.peak, ← Nat.max_assoc]
    cases hexec : st.exec env with
    | error t =>
      rw [hexec] at hfirst
      exact hfirst
    | ok flow =>
      rw [hexec] at hfirst
      cases flow with
      | exit status env' =>
        simp only [Nat.max_zero]
        exact hfirst
      | next env' =>
        have hnames := Stmt.names_exec st hexec
        rw [Stmt.check_eq_ok hst, ← hnames] at hb
        have hin' := hin.right
        rw [← hnames] at hin' hfirst ⊢
        exact .of_leads hfirst (follows_block env' (n + st.labels) _ rest b hb hin')

theorem follows_chain {p : Program} (env : Env) (last n d : Nat) (rest : List Machine.Op)
    (hlast : p.labels[Instr.labelName last]? = some rest) :
    ∀ c : Chain, c.check env.names = .ok () →
      Installed p (c.listing env.names last n) (.label (Instr.labelName last) :: rest) →
      Follows p ⟨ops (c.listing env.names last n) ++ .label (Instr.labelName last) :: rest,
        env.values, d⟩ rest (max d (c.peak env)) (c.exec env)
  | .stop, hcheck, hin => by
    rw [Chain.peak, Nat.max_zero]
    exact leads_label p rest env.values d _
  | .elif e b next, hcheck, hin => by
    simp only [Chain.check, bind_eq_ok] at hcheck
    obtain ⟨_, he, _, hb, hnext⟩ := hcheck
    rw [Chain.listing, ← List.append_assoc (Block.listing _ _ _)] at hin ⊢
    have hbody := hin.tail.right.left
    have htail := hin.tail.right.right
    rw [ops_note, ops_append, List.append_assoc, ops_append, List.append_assoc, Chain.exec,
      Chain.peak]
    refine follows_branch he htail.tail.label (fun d => ?_) (fun d => ?_)
    · refine .then_leads (.body hbody fun rest =>
          follows_block ([] :: env) (n + 1) d rest b hb) fun held => ?_
      exact leads_jump p _ held _ hlast
    · exact follows_chain env last _ d rest hlast next hnext htail.tail.tail
  | .otherwise b, hcheck, hin => by
    simp only [Chain.check, bind_eq_ok] at hcheck
    obtain ⟨_, hb, -⟩ := hcheck
    rw [Chain.listing] at hin ⊢
    rw [Chain.peak, Chain.exec, ops_note]
    refine .then_leads (.body hin.tail fun rest =>
      follows_block ([] :: env) n d rest b hb) fun held => ?_
    exact leads_label p rest held _ _

end

/-! ## Programs -/

/-- A program whose last statement is an exit does not run past it. -/
theorem Block.exec_ne_next_of_endsInExit {b : Block} (h : Emit.endsInExit b) (env env' : Env) :
    Block.exec env b ≠ .ok (.next env') := by
  induction b generalizing env with
  | nil => simp [Emit.endsInExit] at h
  | cons st b ih =>
    intro hexec
    rw [Block.exec, bind_eq_ok] at hexec
    obtain ⟨flow, hst, hexec⟩ := hexec
    cases flow with
    | exit status env₁ => simp at hexec
    | next env₁ =>
      cases b with
      | nil =>
        have hexit : ∃ e, st = .exit e := by
          cases st <;> simp_all [Emit.endsInExit]
        obtain ⟨e, rfl⟩ := hexit
        simp [Stmt.exec, bind_eq_ok] at hst
      | cons st' b => exact ih (by simpa [Emit.endsInExit] using h) env₁ hexec

/-- The run of a whole program ends as the program does. -/
def Concludes (p : Program) (program : Block) : Except Trap (Int64 × Env) → Prop
  | .ok (status, env) =>
    Ends p ⟨p.code, [], 0⟩ (State.Exits status env.values (Block.peak [[]] program))
  | .error t => t = .divisionByZero ∧ Ends p ⟨p.code, [], 0⟩ State.DividesByZero

theorem concludes_program {program : Block} (hscope : program.wellScoped = .ok ())
    (hread : ∀ i ∈ Block.program program, i.Readable) :
    Concludes (load (Instr.print (Block.program program).toArray)) program (Block.run program) := by
  have hnodup : (placed (Block.program program)).Nodup :=
    (placed_program program).nodup_iff.2 List.nodup_range'
  have hin := installed_load hread hnodup
  generalize hp : load (Instr.print (Block.program program).toArray) = p at hin
  have hcode : p.code = ops (Block.program program) := by
    rw [← hp, load, operations_print hread]
  simp only [Block.wellScoped, bind_eq_ok] at hscope
  obtain ⟨s, hcheck, -⟩ := hscope
  generalize htail : (if Emit.endsInExit program then []
    else [.load .rax Emit.exitCall, .load .rdi "0", .syscall] : List Instr) = tail
  rw [Block.program, htail] at hin hcode
  have hstart : Leads p ⟨p.code, [], 0⟩
      ⟨ops (Block.listing [[]] 0 program) ++ (ops tail ++ []), [], 0⟩ := by
    rw [hcode, List.append_nil, ← ops_append]
    exact leads_label p _ [] 0 "_start"
  have hbody := Follows.of_leads hstart
    (follows_block [[]] 0 0 _ program hcheck hin.tail.tail.left)
  rw [Nat.zero_max] at hbody
  rw [Block.run]
  cases hexec : Block.exec [[]] program with
  | error t =>
    rw [hexec] at hbody
    exact hbody
  | ok flow =>
    rw [hexec] at hbody
    cases flow with
    | exit status env => exact hbody
    | next env =>
      have hends : ¬Emit.endsInExit program := fun h =>
        Block.exec_ne_next_of_endsInExit h [[]] env hexec
      rw [if_neg hends] at htail
      rw [← htail] at hbody
      exact hbody.ends (ends_exit_number p [] env.values _ 0)

end Kei

import Kei.Proofs.Meaning.Scoping
import Mathlib.Data.List.Basic

/-!
# Environments by position

An environment seen as the names of its scopes and the list of all its values, newest first. A name
stands for the value at its first place among the names.
-/

namespace Kei

theorem lookup_cons_ite {β : Type} (n m : String) (v : β) (l : List (String × β)) :
    ((n, v) :: l).lookup m = if m = n then some v else l.lookup m := by
  by_cases h : m = n
  · simp [h]
  · have hb : (m == n) = false := beq_false_of_ne h
    simp [List.lookup_cons, hb, h]

namespace Env

/-- The names declared in each scope. -/
def names (env : Env) : Scopes :=
  env.map (·.map Prod.fst)

/-- The values of all variables, newest first. -/
def values (env : Env) : List Int64 :=
  env.vars.map Prod.snd

@[simp] theorem names_nil : names [] = [] := rfl

@[simp] theorem names_cons (scope : List (String × Int64)) (env : Env) :
    names (scope :: env) = scope.map Prod.fst :: names env := rfl

@[simp] theorem values_cons (scope : List (String × Int64)) (env : Env) :
    values (scope :: env) = scope.map Prod.snd ++ values env := by
  simp [values, vars]

theorem length_values (env : Env) : env.values.length = env.names.flatten.length := by
  induction env with
  | nil => rfl
  | cons scope env ih => simp_all

theorem length_vars (env : Env) : env.vars.length = env.values.length := by
  simp [values]

theorem flatten_names (env : Env) : env.names.flatten = env.vars.map Prod.fst := by
  rw [names, vars, List.map_flatten]

/-! ## Reading -/

theorem lookup_eq (l : List (String × Int64)) (name : String) :
    l.lookup name = (l.map Prod.snd)[(l.map Prod.fst).idxOf name]? := by
  induction l with
  | nil => rfl
  | cons entry l ih =>
    obtain ⟨n, v⟩ := entry
    by_cases h : name = n
    · simp [h]
    · rw [lookup_cons_ite, if_neg h, ih, List.map_cons, List.map_cons,
        List.idxOf_cons_ne _ (Ne.symm h), List.getElem?_cons_succ]

theorem get?_eq_lookup (env : Env) (name : String) : env.get? name = env.vars.lookup name := by
  induction env with
  | nil => rfl
  | cons scope env ih =>
    rw [vars, List.flatten_cons, List.lookup_append, get?, List.findSome?_cons]
    cases scope.lookup name with
    | none => exact ih
    | some v => rfl

/-- The value of a name is the one at its place. -/
theorem get?_eq (env : Env) (name : String) :
    env.get? name = env.values[env.names.flatten.idxOf name]? := by
  rw [get?_eq_lookup, lookup_eq, flatten_names, values]

/-- A visible name has a value. -/
theorem exists_get?_of_require {env : Env} {name : Lexeme} (h : env.names.require name = .ok ()) :
    ∃ v, env.get? name.spelling = some v := by
  have hlt := List.idxOf_lt_length_of_mem (Scopes.mem_of_require h)
  rw [← length_values] at hlt
  exact ⟨_, (get?_eq env name.spelling).trans (List.getElem?_eq_getElem hlt)⟩

/-! ## Writing -/

theorem setIn_append (name : String) (v : Int64) (a b : List (String × Int64)) :
    setIn name v (a ++ b) =
      if (a.lookup name).isSome then setIn name v a ++ b else a ++ setIn name v b := by
  induction a with
  | nil => rfl
  | cons entry a ih =>
    obtain ⟨n, old⟩ := entry
    by_cases h : n = name
    · simp [setIn, h]
    · rw [lookup_cons_ite, if_neg (Ne.symm h), List.cons_append, setIn, if_neg h, ih, setIn,
        if_neg h]
      split <;> rfl

theorem map_fst_setIn (name : String) (v : Int64) (l : List (String × Int64)) :
    (setIn name v l).map Prod.fst = l.map Prod.fst := by
  induction l with
  | nil => rfl
  | cons entry l ih =>
    rw [setIn]
    split <;> simp [ih]

theorem map_snd_setIn (name : String) (v : Int64) (l : List (String × Int64)) :
    (setIn name v l).map Prod.snd = (l.map Prod.snd).set ((l.map Prod.fst).idxOf name) v := by
  induction l with
  | nil => rfl
  | cons entry l ih =>
    obtain ⟨n, old⟩ := entry
    by_cases h : n = name
    · simp [setIn, h]
    · rw [setIn, if_neg h, List.map_cons, ih, List.map_cons, List.map_cons,
        List.idxOf_cons_ne _ h, List.set_cons_succ]

@[simp] theorem names_set (env : Env) (name : String) (v : Int64) :
    (env.set name v).names = env.names := by
  induction env with
  | nil => rfl
  | cons scope env ih =>
    rw [set]
    split
    · rw [names_cons, map_fst_setIn, names_cons]
    · rw [names_cons, ih, names_cons]

theorem vars_set (env : Env) (name : String) (v : Int64) :
    (env.set name v).vars = setIn name v env.vars := by
  induction env with
  | nil => rfl
  | cons scope env ih =>
    simp only [vars, List.flatten_cons, setIn_append, set] at ih ⊢
    split
    · rfl
    · rw [List.flatten_cons, ih]

/-- An assignment changes the value at the place of its name. -/
theorem values_set (env : Env) (name : String) (v : Int64) :
    (env.set name v).values = env.values.set (env.names.flatten.idxOf name) v := by
  rw [values, vars_set, map_snd_setIn, flatten_names, values]

@[simp] theorem names_declare (env : Env) (name : Lexeme) (v : Int64) :
    (env.declare name.spelling v).names = env.names.declare name := by
  cases env <;> rfl

@[simp] theorem values_declare (env : Env) (name : String) (v : Int64) :
    (env.declare name v).values = v :: env.values := by
  cases env <;> rfl

end Env

/-! ## Executing -/

/-- The environment that a block leaves has the variables of the block in its innermost scope. -/
theorem Env.eq_cons_of_names {env env' : Env} {b : Block}
    (h : env'.names = Block.declares ([] :: env.names) b) :
    ∃ (inner : List (String × Int64)) (outer : Env), env' = inner :: outer ∧
      outer.names = env.names ∧ inner.length = Block.locals b := by
  obtain ⟨inner', hdecl, hlen⟩ := Block.declares_cons b [] env.names
  cases env' with
  | nil => simp [hdecl] at h
  | cons inner outer =>
    rw [hdecl, Env.names_cons, List.cons.injEq] at h
    refine ⟨inner, outer, rfl, h.2, ?_⟩
    rw [← List.length_map Prod.fst, h.1, hlen, List.length_nil, Nat.zero_add]

/-- A block in a scope of its own leaves the variables as they were. -/
theorem Block.names_leave {env env' : Env} {b : Block}
    (hnames : ∀ env₁, Block.exec ([] :: env) b = .ok (.next env₁) →
      env₁.names = Block.declares ([] :: env.names) b)
    (h : (do let flow ← Block.exec ([] :: env) b; return flow.leave) = .ok (.next env')) :
    env'.names = env.names := by
  rw [bind_eq_ok] at h
  obtain ⟨flow, hb, h⟩ := h
  cases flow with
  | next env₁ =>
    obtain ⟨inner, outer, rfl, houter, -⟩ := Env.eq_cons_of_names (hnames env₁ hb)
    cases h
    exact houter
  | exit status env₁ => simp [Flow.leave] at h

mutual

/-- A statement that ends leaves the variables that it declares. -/
theorem Stmt.names_exec {env env' : Env} : ∀ st : Stmt, st.exec env = .ok (.next env') →
    env'.names = st.declares env.names
  | .exit e, h => by
    simp only [Stmt.exec, bind_eq_ok, pure_eq_ok, Except.ok.injEq, reduceCtorEq, and_false,
      exists_false] at h
  | .declare name e, h => by
    simp only [Stmt.exec, bind_eq_ok, pure_eq_ok, Except.ok.injEq, Flow.next.injEq] at h
    obtain ⟨v, -, rfl⟩ := h
    exact env.names_declare name v
  | .assign name e, h => by
    simp only [Stmt.exec, bind_eq_ok, pure_eq_ok, Except.ok.injEq, Flow.next.injEq] at h
    obtain ⟨v, -, rfl⟩ := h
    exact env.names_set name.spelling v
  | .scope b, h => by
    rw [Stmt.exec] at h
    exact Block.names_leave (fun _ => Block.names_exec b) h
  | .cond e b c, h => by
    rw [Stmt.exec, bind_eq_ok] at h
    obtain ⟨v, -, h⟩ := h
    split at h
    · exact Block.names_leave (fun _ => Block.names_exec b) h
    · exact Chain.names_exec c h

theorem Block.names_exec {env env' : Env} : ∀ b : List Stmt, Block.exec env b = .ok (.next env') →
    env'.names = Block.declares env.names b
  | [], h => by
    cases h
    rfl
  | st :: rest, h => by
    rw [Block.exec, bind_eq_ok] at h
    obtain ⟨flow, hst, h⟩ := h
    cases flow with
    | next env₁ =>
      rw [Block.declares, ← Stmt.names_exec st hst]
      exact Block.names_exec rest h
    | exit status env₁ => simp at h

theorem Chain.names_exec {env env' : Env} : ∀ c : Chain, c.exec env = .ok (.next env') →
    env'.names = env.names
  | .stop, h => by
    cases h
    rfl
  | .elif e b next, h => by
    rw [Chain.exec, bind_eq_ok] at h
    obtain ⟨v, -, h⟩ := h
    split at h
    · exact Block.names_leave (fun _ => Block.names_exec b) h
    · exact Chain.names_exec next h
  | .otherwise b, h => by
    rw [Chain.exec] at h
    exact Block.names_leave (fun _ => Block.names_exec b) h

end

end Kei

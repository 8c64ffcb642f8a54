import Kei.Meaning.Visits
import Kei.Proofs.Assembly.Emission

/-!
# Code is emitted for well scoped programs

The scope checker judges the occurrences of names one after the other (`Stmt.check_eq`,
`Block.check_eq`), so it fails at the first one that is not allowed. Emission fails as the checker
does.
-/

namespace Kei

namespace Visit

/-- Judge occurrences in turn, up to the first that is not allowed. -/
def judge : List Visit → Except ScopeError Unit
  | [] => .ok ()
  | v :: rest => if v.Allowed then judge rest else .error v.fault

theorem judge_append (visits rest : List Visit) :
    judge (visits ++ rest) = (do judge visits; judge rest) := by
  induction visits with
  | nil => rfl
  | cons v visits ih => by_cases h : v.Allowed <;> simp [judge, h, ih]

theorem judge_cons (v : Visit) (rest : List Visit) :
    judge (v :: rest) = (do judge [v]; judge rest) :=
  judge_append [v] rest

theorem judge_eq_ok_iff {visits : List Visit} :
    judge visits = .ok () ↔ ∀ v ∈ visits, v.Allowed := by
  induction visits with
  | nil => simp [judge]
  | cons v visits ih => by_cases h : v.Allowed <;> simp [judge, h, ih]

theorem judge_eq_error_iff {visits : List Visit} {e : ScopeError} :
    judge visits = .error e ↔
      ∃ before v after, visits = before ++ v :: after ∧ (∀ w ∈ before, w.Allowed) ∧
        ¬ v.Allowed ∧ v.fault = e := by
  constructor
  · intro h
    induction visits with
    | nil => cases h
    | cons v visits ih =>
      rw [judge] at h
      split at h
      · rename_i hv
        obtain ⟨before, w, after, rfl, hbefore, hw⟩ := ih h
        exact ⟨v :: before, w, after, rfl, List.forall_mem_cons.2 ⟨hv, hbefore⟩, hw⟩
      · rename_i hv
        exact ⟨[], v, visits, rfl, List.forall_mem_nil _, hv, Except.error.inj h⟩
  · rintro ⟨before, v, after, rfl, hbefore, hv, rfl⟩
    rw [judge_append, judge_eq_ok_iff.2 hbefore, ok_bind, judge, if_neg hv]

theorem require_eq_judge (s : Scopes) (name : Lexeme) : s.require name = judge [use name s] := by
  rw [Scopes.require_eq, judge, judge]
  exact if_congr List.mem_flatten rfl rfl

theorem requireFresh_eq_judge (s : Scopes) (name : Lexeme) :
    s.requireFresh name = judge [declaration name s] := by
  cases s with
  | nil => simp [Scopes.requireFresh, judge, Allowed]
  | cons inner s =>
    by_cases h : name.spelling ∈ inner <;> simp [Scopes.requireFresh, judge, Allowed, fault, h]

end Visit

open Visit

/-! ## The checker judges the occurrences in order -/

theorem Expr.check_eq (e : Expr) (s : Scopes) : e.check s = judge (e.visits s) := by
  induction e with
  | int l => rfl
  | ident l => exact require_eq_judge s l
  | paren e ih => exact ih
  | binary op l r ihl ihr => rw [Expr.check, Expr.visits, judge_append, ihl, ihr]

mutual

theorem Stmt.check_eq (s : Scopes) : ∀ st : Stmt,
    st.check s = judge (st.visits s) >>= fun _ => .ok (st.declares s)
  | .exit e => by rw [Stmt.check, e.check_eq]; rfl
  | .declare n e => by
    rw [Stmt.check, requireFresh_eq_judge, e.check_eq, Stmt.visits, judge_cons _ (e.visits s),
      bind_assoc]
    rfl
  | .assign n e => by
    rw [Stmt.check, require_eq_judge, e.check_eq, Stmt.visits, judge_cons _ (e.visits s),
      bind_assoc]
    rfl
  | .scope b => by
    rw [Stmt.check, Block.check_eq _ b, bind_assoc]
    rfl
  | .cond e b c => by
    simp only [Stmt.check, e.check_eq, Block.check_eq _ b, Chain.check_eq s c, Stmt.visits,
      judge_append, bind_assoc, ok_bind]
    rfl

theorem Block.check_eq (s : Scopes) : ∀ b : List Stmt,
    Block.check s b = judge (Block.visits s b) >>= fun _ => .ok (Block.declares s b)
  | [] => rfl
  | st :: rest => by
    simp only [Block.check, Stmt.check_eq s st, Block.check_eq _ rest, Block.visits, judge_append,
      bind_assoc, ok_bind, Block.declares]

theorem Chain.check_eq (s : Scopes) : ∀ c : Chain, c.check s = judge (c.visits s)
  | .stop => rfl
  | .elif e b next => by
    simp only [Chain.check, e.check_eq, Block.check_eq _ b, Chain.check_eq s next, Chain.visits,
      judge_append, bind_assoc, ok_bind]
  | .otherwise b => by
    rw [Chain.check, Block.check_eq _ b, bind_assoc]
    exact bind_pure _

end

theorem Block.wellScoped_eq (p : Block) : p.wellScoped = judge (Block.visits [[]] p) := by
  rw [Block.wellScoped, Block.check_eq, bind_assoc]
  exact bind_pure _

/-! ## Emission -/

/-- Code is emitted exactly for the programs that the scope checker accepts, which are those where
every occurrence of a name is allowed. Otherwise emission fails with the fault of the first
occurrence that is not. -/
theorem generate_scoping (p : Block) :
    ((∃ asm, generate p = .ok asm) ↔ p.wellScoped = .ok ()) ∧
      (p.wellScoped = .ok () ↔ ∀ v ∈ Block.visits [[]] p, v.Allowed) ∧
      ∀ e, generate p = .error e ↔
        ∃ before v after, Block.visits [[]] p = before ++ v :: after ∧
          (∀ w ∈ before, w.Allowed) ∧ ¬ v.Allowed ∧ e = .scope v.fault := by
  refine ⟨?_, ?_, fun e => ?_⟩
  · rw [generate_eq]
    cases p.wellScoped <;> simp [Except.map]
  · rw [Block.wellScoped_eq, judge_eq_ok_iff]
  · have hgenerate : generate p = .error e ↔ ∃ fault, p.wellScoped = .error fault ∧
        e = .scope fault := by
      rw [generate_eq]
      cases p.wellScoped <;> simp [Except.map, eq_comm]
    simp only [hgenerate, Block.wellScoped_eq, judge_eq_error_iff]
    constructor
    · rintro ⟨_, ⟨before, v, after, hvisits, hbefore, hv, rfl⟩, rfl⟩
      exact ⟨before, v, after, hvisits, hbefore, hv, rfl⟩
    · rintro ⟨before, v, after, hvisits, hbefore, hv, rfl⟩
      exact ⟨_, ⟨before, v, after, hvisits, hbefore, hv, rfl⟩, rfl⟩

end Kei

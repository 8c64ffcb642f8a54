import Kei.Assembly.Listing
import Kei.Meaning.Eval
import Kei.Proofs.Basic

/-!
# What checked programs declare
-/

namespace Kei

theorem Scopes.sees_eq (s : Scopes) (name : String) : s.sees name = decide (name ∈ s.flatten) := by
  rw [Bool.eq_iff_iff, decide_eq_true_iff, List.mem_flatten]
  simp [Scopes.sees]

theorem Scopes.require_eq (s : Scopes) (name : Lexeme) :
    s.require name =
      if name.spelling ∈ s.flatten then .ok ()
      else .error (.undeclared name.spelling name.line) := by
  simp only [Scopes.require, Scopes.sees_eq, decide_eq_true_eq]

theorem Scopes.mem_of_require {s : Scopes} {name : Lexeme} (h : s.require name = .ok ()) :
    name.spelling ∈ s.flatten := by
  rw [Scopes.require_eq] at h
  split at h
  · assumption
  · simp at h

theorem Stmt.check_eq_ok {st : Stmt} {s s' : Scopes} (h : st.check s = .ok s') :
    s' = st.declares s := by
  cases st <;> simp only [Stmt.check, bind_eq_ok, pure_eq_ok, Except.ok.injEq] at h
  case exit e =>
    obtain ⟨_, _, rfl⟩ := h
    rfl
  case declare name e =>
    obtain ⟨_, _, _, _, rfl⟩ := h
    rfl
  case assign name e =>
    obtain ⟨_, _, _, _, rfl⟩ := h
    rfl
  case scope b =>
    obtain ⟨_, _, rfl⟩ := h
    rfl
  case cond e b c =>
    obtain ⟨_, _, _, _, _, _, rfl⟩ := h
    rfl

theorem Stmt.declares_cons (st : Stmt) (inner : List String) (s : Scopes) :
    ∃ inner', st.declares (inner :: s) = inner' :: s ∧
      inner'.length = inner.length + Block.locals [st] := by
  cases st <;> exact ⟨_, rfl, rfl⟩

theorem Stmt.declares_ne_nil (st : Stmt) {s : Scopes} (hs : s ≠ []) : st.declares s ≠ [] := by
  obtain ⟨inner, s, rfl⟩ := List.exists_cons_of_ne_nil hs
  obtain ⟨inner', h, _⟩ := st.declares_cons inner s
  rw [h]
  exact List.cons_ne_nil inner' s

theorem Block.check_eq_ok {b : Block} {s s' : Scopes} (h : Block.check s b = .ok s') :
    s' = Block.declares s b := by
  induction b generalizing s with
  | nil => exact (Except.ok.inj h).symm
  | cons st b ih =>
    simp only [Block.check, bind_eq_ok] at h
    obtain ⟨s₁, hst, h⟩ := h
    rw [Block.declares, ← Stmt.check_eq_ok hst]
    exact ih h

/-- The statements of a block declare names in the innermost scope only. -/
theorem Block.declares_cons (b : Block) (inner : List String) (s : Scopes) :
    ∃ inner', Block.declares (inner :: s) b = inner' :: s ∧
      inner'.length = inner.length + Block.locals b := by
  induction b generalizing inner with
  | nil => exact ⟨inner, rfl, rfl⟩
  | cons st b ih =>
    obtain ⟨inner₁, hdecl, hlen₁⟩ := st.declares_cons inner s
    obtain ⟨inner', hb, hlen⟩ := ih inner₁
    refine ⟨inner', by rw [Block.declares, hdecl, hb], ?_⟩
    rw [hlen, hlen₁]
    cases st <;> simp only [Block.locals] <;> omega

end Kei

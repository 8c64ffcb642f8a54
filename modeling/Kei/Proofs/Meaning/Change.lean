import Kei.Proofs.Assembly.Emission
import Kei.Syntax.Relabel
import Mathlib.Data.Set.Function

/-!
# Code of changed programs

A program keeps its code under every change that spells different names differently and keeps the
code of expressions (`Change.Keeps`). Code refers to a variable by its place among the visible
names, so it is enough that names keep their places (`idxOf_map`), and the scope checker compares
names only (`mem_map_iff`). So such a change shows in nothing but the name and the line in the fault
of a program that is not well scoped (`generate_change`).
-/

namespace Kei

/-- All names are in `N`. -/
def Within (N : Set String) (names : List String) : Prop :=
  ∀ x ∈ names, x ∈ N

@[simp] theorem within_nil (N : Set String) : Within N [] :=
  List.forall_mem_nil _

@[simp] theorem within_cons {N : Set String} {x : String} {names : List String} :
    Within N (x :: names) ↔ x ∈ N ∧ Within N names :=
  List.forall_mem_cons

@[simp] theorem within_append {N : Set String} {a b : List String} :
    Within N (a ++ b) ↔ Within N a ∧ Within N b :=
  List.forall_mem_append

/-- The scopes with other names. -/
def Scopes.rename (ρ : String → String) (s : Scopes) : Scopes :=
  s.map (List.map ρ)

@[simp] theorem Scopes.flatten_rename (ρ : String → String) (s : Scopes) :
    (s.rename ρ).flatten = s.flatten.map ρ :=
  List.map_flatten.symm

theorem Scopes.rename_cons (ρ : String → String) (inner : List String) (s : Scopes) :
    Scopes.rename ρ (inner :: s) = inner.map ρ :: s.rename ρ := rfl

/-! ## Places of names -/

section

variable {ρ : String → String} {N : Set String} {x : String} {names : List String}

theorem mem_map_iff (h : Set.InjOn ρ N) (hx : x ∈ N) (hnames : Within N names) :
    ρ x ∈ names.map ρ ↔ x ∈ names := by
  constructor
  · intro hmem
    obtain ⟨y, hy, heq⟩ := List.mem_map.1 hmem
    rwa [← h (hnames y hy) hx heq]
  · intro hmem
    exact List.mem_map_of_mem hmem

theorem idxOf_map (h : Set.InjOn ρ N) (hx : x ∈ N) (hnames : Within N names) :
    (names.map ρ).idxOf (ρ x) = names.idxOf x := by
  induction names with
  | nil => rfl
  | cons y names ih =>
    obtain ⟨hy, hnames⟩ := within_cons.1 hnames
    rw [List.map_cons]
    by_cases heq : y = x
    · rw [heq, List.idxOf_cons_self, List.idxOf_cons_self]
    · have hne : ρ y ≠ ρ x := fun h' => heq (h hy hx h')
      rw [List.idxOf_cons_ne _ hne, List.idxOf_cons_ne _ heq, ih hnames]

end

/-- Names are spelled as `ρ` says, which tells those in `N` apart, and stand on the lines that `φ`
says. -/
structure Renames (name : Lexeme → Lexeme) (ρ : String → String) (φ : Nat → Nat)
    (N : Set String) : Prop where
  spelling : ∀ l, (name l).spelling = ρ l.spelling
  line : ∀ l, (name l).line = φ l.line
  injOn : Set.InjOn ρ N

section

variable {name : Lexeme → Lexeme} {ρ : String → String} {φ : Nat → Nat} {N : Set String}
variable {s : Scopes}

theorem Scopes.offset_renames (h : Renames name ρ φ N) (hs : Within N s.flatten) {l : Lexeme}
    (hl : l.spelling ∈ N) (held : Nat) :
    (s.rename ρ).offset held (name l) = s.offset held l := by
  rw [Scopes.offset, Scopes.offset, h.spelling, Scopes.flatten_rename, idxOf_map h.injOn hl hs]

theorem Scopes.rename_declare (h : Renames name ρ φ N) (s : Scopes) (l : Lexeme) :
    (s.rename ρ).declare (name l) = (s.declare l).rename ρ := by
  cases s with
  | nil => simp [Scopes.declare, Scopes.rename, h.spelling]
  | cons inner s => simp [Scopes.declare, Scopes.rename, h.spelling]

theorem Scopes.within_declare (hs : Within N s.flatten) {l : Lexeme} (hl : l.spelling ∈ N) :
    Within N (s.declare l).flatten := by
  cases s with
  | nil => simpa [Scopes.declare] using hl
  | cons inner s => simpa [Scopes.declare] using ⟨hl, by simpa using hs⟩

theorem Scopes.require_renames (h : Renames name ρ φ N) (hs : Within N s.flatten) {l : Lexeme}
    (hl : l.spelling ∈ N) :
    (s.rename ρ).require (name l) = (s.require l).mapError (ScopeError.relabel ρ φ) := by
  rw [Scopes.require_eq, Scopes.require_eq, Scopes.flatten_rename, h.spelling, h.line]
  by_cases hmem : l.spelling ∈ s.flatten
  · rw [if_pos ((mem_map_iff h.injOn hl hs).2 hmem), if_pos hmem]
    rfl
  · rw [if_neg fun hmap => hmem ((mem_map_iff h.injOn hl hs).1 hmap), if_neg hmem]
    rfl

theorem Scopes.requireFresh_renames (h : Renames name ρ φ N) (hs : Within N s.flatten) {l : Lexeme}
    (hl : l.spelling ∈ N) :
    (s.rename ρ).requireFresh (name l) =
      (s.requireFresh l).mapError (ScopeError.relabel ρ φ) := by
  cases s with
  | nil => simp [Scopes.requireFresh, Scopes.rename]
  | cons inner s =>
    have hinner : Within N inner := (within_append.1 hs).1
    have hiff := mem_map_iff h.injOn hl hinner
    rw [Scopes.rename_cons, Scopes.requireFresh, Scopes.requireFresh, h.spelling, h.line]
    by_cases hmem : l.spelling ∈ inner
    · simp [hmem, hiff.2 hmem, ScopeError.relabel]
    · have hmap : ρ l.spelling ∉ inner.map ρ := fun hmap => hmem (hiff.1 hmap)
      simp [hmem, hmap]

end

/-- The change renames what is declared and assigned, and expressions whose names are in `N` keep
their code and, but for names and lines, their faults. -/
structure Change.Keeps (m : Change) (ρ : String → String) (φ : Nat → Nat) (N : Set String) :
    Prop extends Renames m.name ρ φ N where
  listing : ∀ {s : Scopes} {e : Expr}, Within N s.flatten → Within N e.names → ∀ held,
    (m.expr e).listing (s.rename ρ) held = e.listing s held
  check : ∀ {s : Scopes} {e : Expr}, Within N s.flatten → Within N e.names →
    (m.expr e).check (s.rename ρ) = (e.check s).mapError (ScopeError.relabel ρ φ)

section

variable {m : Change} {ρ : String → String} {φ : Nat → Nat} {N : Set String} {s : Scopes}

theorem Stmt.declares_change (h : m.Keeps ρ φ N) (s : Scopes) (st : Stmt) :
    (st.change m).declares (s.rename ρ) = (st.declares s).rename ρ := by
  cases st with
  | declare n e => exact Scopes.rename_declare h.toRenames s n
  | _ => rfl

theorem Stmt.within_declares (hs : Within N s.flatten) {st : Stmt} (hst : Within N st.names) :
    Within N (st.declares s).flatten := by
  cases st with
  | declare n e => exact Scopes.within_declare hs (within_cons.1 hst).1
  | _ => exact hs

/-! ## Counts -/

theorem Chain.isStop_change (c : Chain) : (c.change m).isStop = c.isStop := by
  cases c <;> rfl

theorem Block.change_eq_map (m : Change) (b : List Stmt) :
    Block.change m b = b.map (Stmt.change m) := by
  induction b with
  | nil => rfl
  | cons st b ih => rw [Block.change, ih, List.map_cons]

theorem Block.locals_change (b : List Stmt) :
    Block.locals (Block.change m b) = Block.locals b := by
  induction b with
  | nil => rfl
  | cons st b ih => cases st <;> simp [Block.change, Stmt.change, Block.locals, ih]

mutual

theorem Stmt.labels_change : ∀ st : Stmt, (st.change m).labels = st.labels
  | .exit _ | .declare _ _ | .assign _ _ => rfl
  | .scope b => Block.labels_change b
  | .cond e b c => by
    simp only [Stmt.change, Stmt.labels, Block.labels_change b, Chain.labels_change c,
      Chain.isStop_change]

theorem Block.labels_change : ∀ b : List Stmt, Block.labels (Block.change m b) = Block.labels b
  | [] => rfl
  | st :: rest => by
    simp only [Block.change, Block.labels, Stmt.labels_change st, Block.labels_change rest]

theorem Chain.labels_change : ∀ c : Chain, (c.change m).labels = c.labels
  | .stop => rfl
  | .elif e b next => by
    simp only [Chain.change, Chain.labels, Block.labels_change b, Chain.labels_change next]
  | .otherwise b => Block.labels_change b

end

theorem Emit.endsInExit_change (p : Block) :
    Emit.endsInExit (Block.change m p) = Emit.endsInExit p := by
  rw [Emit.endsInExit, Emit.endsInExit, Block.change_eq_map, List.getLast?_map]
  rcases p.getLast? with _ | st
  · rfl
  · cases st <;> rfl

/-! ## Code -/

theorem Change.Keeps.branchListing (h : m.Keeps ρ φ N) (hs : Within N s.flatten) {e : Expr}
    (he : Within N e.names) (label : Nat) :
    (m.expr e).branchListing (s.rename ρ) label = e.branchListing s label := by
  rw [Expr.branchListing, Expr.branchListing, h.listing hs he]

mutual

theorem Stmt.listing_change (h : m.Keeps ρ φ N) {s : Scopes} (hs : Within N s.flatten)
    (label : Nat) : ∀ st : Stmt, Within N st.names →
      (st.change m).listing (s.rename ρ) label = st.listing s label
  | .exit e, he => by
    simp only [Stmt.change, Stmt.listing, h.listing hs he]
  | .declare n e, hst => by
    simp only [Stmt.change, Stmt.listing, h.listing hs (within_cons.1 hst).2]
  | .assign n e, hst => by
    obtain ⟨hn, he⟩ := within_cons.1 hst
    simp only [Stmt.change, Stmt.listing, h.listing hs he,
      Scopes.offset_renames h.toRenames hs hn]
  | .scope b, hb => by
    have hbody := Block.listing_change h (s := [] :: s) hs label b hb
    rw [Scopes.rename_cons, List.map_nil] at hbody
    simp only [Stmt.change, Stmt.listing, hbody, Block.locals_change]
  | .cond e b c, hst => by
    obtain ⟨he, hb, hc⟩ : Within N e.names ∧ Within N (Block.names b) ∧ Within N c.names := by
      simpa [Stmt.names] using hst
    have hbody := Block.listing_change h (s := [] :: s) hs (label + 1) b hb
    rw [Scopes.rename_cons, List.map_nil] at hbody
    simp only [Stmt.change, Stmt.listing, h.branchListing hs he, hbody,
      Block.locals_change, Block.labels_change, Chain.isStop_change,
      Chain.listing_change h hs _ _ c hc]

theorem Block.listing_change (h : m.Keeps ρ φ N) {s : Scopes} (hs : Within N s.flatten)
    (label : Nat) : ∀ b : List Stmt, Within N (Block.names b) →
      Block.listing (s.rename ρ) label (Block.change m b) = Block.listing s label b
  | [], _ => rfl
  | st :: rest, hb => by
    obtain ⟨hst, hrest⟩ := within_append.1 hb
    simp only [Block.change, Block.listing, Stmt.listing_change h hs label st hst,
      Stmt.declares_change h, Stmt.labels_change,
      Block.listing_change h (Stmt.within_declares hs hst) _ rest hrest]

theorem Chain.listing_change (h : m.Keeps ρ φ N) {s : Scopes} (hs : Within N s.flatten)
    (last label : Nat) : ∀ c : Chain, Within N c.names →
      (c.change m).listing (s.rename ρ) last label = c.listing s last label
  | .stop, _ => rfl
  | .elif e b next, hst => by
    obtain ⟨he, hb, hnext⟩ : Within N e.names ∧ Within N (Block.names b) ∧ Within N next.names := by
      simpa [Chain.names] using hst
    have hbody := Block.listing_change h (s := [] :: s) hs (label + 1) b hb
    rw [Scopes.rename_cons, List.map_nil] at hbody
    simp only [Chain.change, Chain.listing, h.branchListing hs he, hbody,
      Block.locals_change, Block.labels_change, Chain.listing_change h hs _ _ next hnext]
  | .otherwise b, hb => by
    have hbody := Block.listing_change h (s := [] :: s) hs label b hb
    rw [Scopes.rename_cons, List.map_nil] at hbody
    simp only [Chain.change, Chain.listing, hbody, Block.locals_change]

end

theorem Block.program_change (h : m.Keeps ρ φ N) {p : Block} (hp : Within N (Block.names p)) :
    Block.program (Block.change m p) = Block.program p := by
  have hlisting : Block.listing [[]] 0 (Block.change m p) = Block.listing [[]] 0 p :=
    Block.listing_change h (s := [[]]) (within_nil N) 0 p hp
  rw [Block.program, Block.program, Emit.endsInExit_change, hlisting]

/-! ## Faults -/

mutual

theorem Stmt.check_change (h : m.Keeps ρ φ N) {s : Scopes} (hs : Within N s.flatten) :
    ∀ st : Stmt, Within N st.names → (st.change m).check (s.rename ρ) =
      ((st.check s).map (Scopes.rename ρ)).mapError (ScopeError.relabel ρ φ)
  | .exit e, he => by
    rw [Stmt.change, Stmt.check, Stmt.check, h.check hs he]
    cases e.check s <;> rfl
  | .declare n e, hst => by
    obtain ⟨hn, he⟩ := within_cons.1 hst
    rw [Stmt.change, Stmt.check, Stmt.check, Scopes.requireFresh_renames h.toRenames hs hn,
      h.check hs he, Scopes.rename_declare h.toRenames]
    cases s.requireFresh n with
    | error fault => rfl
    | ok _ => cases e.check s <;> rfl
  | .assign n e, hst => by
    obtain ⟨hn, he⟩ := within_cons.1 hst
    rw [Stmt.change, Stmt.check, Stmt.check, Scopes.require_renames h.toRenames hs hn,
      h.check hs he]
    cases s.require n with
    | error fault => rfl
    | ok _ => cases e.check s <;> rfl
  | .scope b, hb => by
    have hbody := Block.check_change h (s := [] :: s) hs b hb
    rw [Scopes.rename_cons, List.map_nil] at hbody
    rw [Stmt.change, Stmt.check, Stmt.check, hbody]
    cases Block.check ([] :: s) b <;> rfl
  | .cond e b c, hst => by
    obtain ⟨he, hb, hc⟩ : Within N e.names ∧ Within N (Block.names b) ∧ Within N c.names := by
      simpa [Stmt.names] using hst
    have hbody := Block.check_change h (s := [] :: s) hs b hb
    rw [Scopes.rename_cons, List.map_nil] at hbody
    rw [Stmt.change, Stmt.check, Stmt.check, h.check hs he, hbody,
      Chain.check_change h hs c hc]
    cases e.check s with
    | error fault => rfl
    | ok _ =>
      cases Block.check ([] :: s) b with
      | error fault => rfl
      | ok _ => cases c.check s <;> rfl

theorem Block.check_change (h : m.Keeps ρ φ N) {s : Scopes} (hs : Within N s.flatten) :
    ∀ b : List Stmt, Within N (Block.names b) → Block.check (s.rename ρ) (Block.change m b) =
      ((Block.check s b).map (Scopes.rename ρ)).mapError (ScopeError.relabel ρ φ)
  | [], _ => rfl
  | st :: rest, hb => by
    obtain ⟨hst, hrest⟩ := within_append.1 hb
    rw [Block.change, Block.check, Block.check, Stmt.check_change h hs st hst]
    cases hcheck : st.check s with
    | error fault => rfl
    | ok s' =>
      have hs' : Within N s'.flatten := by
        rw [Stmt.check_eq_ok hcheck]
        exact Stmt.within_declares hs hst
      exact Block.check_change h hs' rest hrest

theorem Chain.check_change (h : m.Keeps ρ φ N) {s : Scopes} (hs : Within N s.flatten) :
    ∀ c : Chain, Within N c.names → (c.change m).check (s.rename ρ) =
      (c.check s).mapError (ScopeError.relabel ρ φ)
  | .stop, _ => rfl
  | .elif e b next, hst => by
    obtain ⟨he, hb, hnext⟩ : Within N e.names ∧ Within N (Block.names b) ∧ Within N next.names := by
      simpa [Chain.names] using hst
    have hbody := Block.check_change h (s := [] :: s) hs b hb
    rw [Scopes.rename_cons, List.map_nil] at hbody
    rw [Chain.change, Chain.check, Chain.check, h.check hs he, hbody,
      Chain.check_change h hs next hnext]
    cases e.check s with
    | error fault => rfl
    | ok _ => cases Block.check ([] :: s) b <;> rfl
  | .otherwise b, hb => by
    have hbody := Block.check_change h (s := [] :: s) hs b hb
    rw [Scopes.rename_cons, List.map_nil] at hbody
    rw [Chain.change, Chain.check, Chain.check, hbody]
    cases Block.check ([] :: s) b <;> rfl

end

theorem Block.wellScoped_change (h : m.Keeps ρ φ N) {p : Block} (hp : Within N (Block.names p)) :
    Block.wellScoped (Block.change m p) =
      p.wellScoped.mapError (ScopeError.relabel ρ φ) := by
  have hcheck : Block.check [[]] (Block.change m p) =
      ((Block.check [[]] p).map (Scopes.rename ρ)).mapError (ScopeError.relabel ρ φ) :=
    Block.check_change h (s := [[]]) (within_nil N) p hp
  rw [Block.wellScoped, Block.wellScoped, hcheck]
  cases Block.check [[]] p <;> rfl

end

/-! ## Whole programs -/

/-- The same error, with another name and another line where it is one of scope. -/
def CompileError.relabelScope (ρ : String → String) (φ : Nat → Nat) : CompileError → CompileError
  | .scope e => .scope (e.relabel ρ φ)
  | e => e

theorem generate_change {m : Change} {ρ : String → String} {φ : Nat → Nat} {p : Block}
    (h : m.Keeps ρ φ {x | x ∈ Block.names p}) :
    generate (Block.change m p) = (generate p).mapError (CompileError.relabelScope ρ φ) := by
  have hp : Within {x | x ∈ Block.names p} (Block.names p) := fun _ hx => hx
  rw [generate_eq, generate_eq, Block.wellScoped_change h hp, Block.program_change h hp]
  cases p.wellScoped <;> rfl

end Kei

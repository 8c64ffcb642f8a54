import Kei.Assembly.Shape
import Kei.Proofs.Assembly.Words
import Kei.Proofs.Machine.Termination

/-!
# The shape of generated code

Up to labels, slots and literals, the code of a program is that of its constructs in another order.
So the lines of each kind can be counted from the constructs. Every test stands right before the
jump that it decides.
-/

namespace Kei

open Machine Instr

/-! ## Code and constructs -/

@[simp] theorem map_blank_opCode (op : Op) : (Emit.opCode op).map blank = Emit.opCode op := by
  cases op <;> rfl

@[simp] theorem map_blank_releaseListing (count : Nat) :
    (releaseListing count).map blank = releaseListing count := by
  unfold releaseListing
  split <;> rfl

theorem Chain.constructs_of_isStop {c : Chain} (h : c.isStop) : c.constructs = [] := by
  cases c with
  | stop => rfl
  | elif e b next => cases h
  | otherwise b => cases h

section

variable (i : Instr)

theorem Expr.count_blank (s : Scopes) (held : Nat) (e : Expr) :
    ((e.listing s held).map blank).count i = (e.constructs.flatMap Construct.code).count i := by
  induction e generalizing held with
  | int l => rfl
  | ident l => rfl
  | paren e ih => exact ih held
  | binary op l r ihl ihr =>
    simp only [Expr.listing, Expr.constructs, Construct.code, List.map_append, List.map_cons,
      List.map_nil, List.flatMap_cons, List.flatMap_append, List.count_append, List.count_cons,
      List.count_nil, map_blank_opCode, blank, ihl, ihr]
    omega

mutual

theorem Stmt.count_blank (s : Scopes) (n : Nat) : ∀ st : Stmt,
    ((st.listing s n).map blank).count i = (st.constructs.flatMap Construct.code).count i
  | .exit e => by
    simp only [Stmt.listing, Stmt.constructs, Construct.code, List.map_append, List.map_cons,
      List.map_nil, List.flatMap_cons, List.count_append, List.count_cons, List.count_nil, blank,
      e.count_blank]
    omega
  | .declare _ e => by
    simp only [Stmt.listing, Stmt.constructs, Construct.code, List.map_append, List.map_cons,
      List.map_nil, List.flatMap_cons, List.count_append, List.count_cons, List.count_nil, blank,
      e.count_blank]
    omega
  | .assign _ e => by
    simp only [Stmt.listing, Stmt.constructs, Construct.code, List.map_append, List.map_cons,
      List.map_nil, List.flatMap_cons, List.count_append, List.count_cons, List.count_nil, blank,
      e.count_blank]
    omega
  | .scope b => by
    simp only [Stmt.listing, Stmt.constructs, Construct.code, List.map_append, List.map_cons,
      List.map_nil, List.flatMap_cons, List.count_append, List.count_cons, List.count_nil, blank,
      map_blank_releaseListing, Block.count_blank _ _ b]
    omega
  | .cond e b c => by
    by_cases hstop : c.isStop
    · simp only [Stmt.listing, Stmt.constructs, Expr.branchListing, Construct.code,
        List.map_append, List.map_cons, List.map_nil, List.flatMap_cons, List.flatMap_append,
        List.flatMap_nil, List.count_append, List.count_cons, List.count_nil, blank,
        map_blank_releaseListing, e.count_blank, Block.count_blank _ _ b, hstop,
        Chain.constructs_of_isStop hstop, if_true, Bool.not_true, Bool.false_eq_true, if_false]
      omega
    · simp only [Stmt.listing, Stmt.constructs, Expr.branchListing, Construct.code,
        List.map_append, List.map_cons, List.map_nil, List.flatMap_cons, List.flatMap_append,
        List.count_append, List.count_cons, List.count_nil, blank, map_blank_releaseListing,
        e.count_blank, Block.count_blank _ _ b, Chain.count_blank _ _ _ c, hstop, if_true,
        Bool.not_false, Bool.false_eq_true, if_false]
      omega

theorem Block.count_blank (s : Scopes) (n : Nat) : ∀ b : List Stmt,
    ((Block.listing s n b).map blank).count i =
      ((Block.constructs b).flatMap Construct.code).count i
  | [] => rfl
  | st :: rest => by
    simp only [Block.listing, Block.constructs, List.map_append, List.flatMap_append,
      List.count_append, st.count_blank, Block.count_blank _ _ rest]

theorem Chain.count_blank (s : Scopes) (last n : Nat) : ∀ c : Chain,
    ((c.listing s last n).map blank).count i = (c.constructs.flatMap Construct.code).count i
  | .stop => rfl
  | .elif e b next => by
    simp only [Chain.listing, Chain.constructs, Expr.branchListing, Construct.code,
      List.map_append, List.map_cons, List.map_nil, List.flatMap_cons, List.flatMap_append,
      List.count_append, List.count_cons, List.count_nil, blank, map_blank_releaseListing,
      e.count_blank, Block.count_blank _ _ b, Chain.count_blank _ _ _ next]
    omega
  | .otherwise b => by
    simp only [Chain.listing, Chain.constructs, Construct.code, List.map_append, List.map_cons,
      List.flatMap_cons, List.count_append, List.count_cons, List.count_nil, blank,
      map_blank_releaseListing, Block.count_blank _ _ b]
    omega

end

end

/-- The code behind the last statement of a program. -/
def Block.endingCode (p : Block) : List Instr :=
  if Emit.endsInExit p then [] else [.load .rax "", .load .rdi "", .syscall]

/-- The code of a program is that of its constructs, in another order. -/
theorem perm_program (p : Block) :
    ((Block.program p).map blank).Perm
      (.global :: .start :: ((Block.constructs p).flatMap Construct.code ++ p.endingCode)) := by
  have hlisting := List.perm_iff_count.2 fun i => Block.count_blank i [[]] 0 p
  rw [Block.program, Block.endingCode, List.map_cons, List.map_cons, List.map_append]
  refine ((hlisting.append ?_).cons _).cons _
  split <;> exact .refl _

/-! ## Counting -/

theorem countP_flatMap_code {q : Instr → Bool} {w : Construct → Nat}
    (hw : ∀ c : Construct, c.code.countP q = w c) (parts : List Construct) :
    (parts.flatMap Construct.code).countP q = Construct.total w parts := by
  induction parts with
  | nil => rfl
  | cons c parts ih =>
    rw [List.flatMap_cons, List.countP_append, hw, ih]
    rfl

/-- Instructions of a kind that does not depend on labels, slots and literals are counted from the
constructs. -/
theorem countP_program {q : Instr → Bool} (hq : ∀ i : Instr, q i.blank = q i)
    {w : Construct → Nat} (hw : ∀ c : Construct, c.code.countP q = w c) (p : Block) :
    (Block.program p).countP q =
      [Instr.global, .start].countP q + Construct.total w (Block.constructs p) +
        p.endingCode.countP q := by
  have hblank : ((Block.program p).map blank).countP q = (Block.program p).countP q := by
    rw [List.countP_map]
    exact List.countP_congr fun i _ => by rw [Function.comp_apply, hq]
  rw [← hblank, (perm_program p).countP_eq q, ← countP_flatMap_code hw, ← List.countP_append,
    ← List.countP_append]
  rfl

namespace Instr

theorem mnemonic_label_ne {word : String} (h : word.toList.getLast? ≠ some ':') (n : Nat) :
    (label n).mnemonic ≠ word := by
  rintro rfl
  apply h
  rw [mnemonic, String.toList_append]
  exact List.getLast?_concat

theorem mnemonic_blank_eq_iff {word : String} (h : word.toList.getLast? ≠ some ':') (i : Instr) :
    i.blank.mnemonic = word ↔ i.mnemonic = word := by
  cases i with
  | label n => exact iff_of_false (mnemonic_label_ne h 0) (mnemonic_label_ne h n)
  | _ => exact Iff.rfl

theorem eq_test_of_mnemonic {i : Instr} (h : i.mnemonic = "test") : i = .test := by
  cases i with
  | label n => exact absurd h (mnemonic_label_ne (by decide) n)
  | test => rfl
  | _ => exact absurd h (by simp [mnemonic])

end Instr

/-- The code of a construct holds of each kind what the construct is said to contribute. -/
structure Construct.Tallied (c : Construct) : Prop where
  push : c.code.countP (·.mnemonic = "push") = c.pushes
  pop : c.code.countP (·.mnemonic = "pop") = c.pops
  test : c.code.countP (·.mnemonic = "test") = c.tests
  jz : c.code.countP (·.mnemonic = "jz") = c.tests
  jmp : c.code.countP (·.mnemonic = "jmp") = c.jumps
  syscall : c.code.countP (·.mnemonic = "syscall") = c.calls
  label : c.code.countP (·.placed?.isSome) = c.labels

theorem Construct.tallied (c : Construct) : c.Tallied := by
  cases c with
  | operation op => cases op <;> constructor <;> rfl
  | conditional chained => cases chained <;> constructor <;> rfl
  | body k => cases k <;> constructor <;> rfl
  | _ => constructor <;> rfl

/-- The labels of a program are those of its constructs. -/
theorem labels_eq_total (p : Block) :
    Block.labels p = Construct.total Construct.labels (Block.constructs p) := by
  have hcount := countP_program (q := fun i => i.placed?.isSome) (fun i => by cases i <;> rfl)
    (fun c => c.tallied.label) p
  have hending : p.endingCode.countP (·.placed?.isSome) = 0 := by
    unfold Block.endingCode
    split <;> rfl
  have hlength := (placed_program p).length_eq
  rw [List.length_range', placed, List.length_filterMap_eq_countP, hcount, hending] at hlength
  rw [← hlength]
  exact Nat.zero_add _

/-! ## Releases -/

theorem filterMap_release?_flatMap_code (parts : List Construct) :
    (parts.flatMap Construct.code).filterMap release? =
      (parts.filterMap Construct.dropped?).map (8 * ·) := by
  have hcode (c : Construct) :
      c.code.filterMap release? = (c.dropped?.map (8 * ·)).toList := by
    cases c with
    | operation op => cases op <;> rfl
    | conditional chained => cases chained <;> rfl
    | body k =>
      cases k with
      | zero => rfl
      | succ k =>
        show [(k + 1) * 8] = [8 * (k + 1)]
        rw [Nat.mul_comm]
    | _ => rfl
  induction parts with
  | nil => rfl
  | cons c parts ih =>
    rw [List.flatMap_cons, List.filterMap_append, hcode, ih, List.filterMap_cons]
    cases c.dropped? <;> rfl

/-- A program drops the variables of each body that declares any. -/
theorem filterMap_release?_program (p : Block) :
    ((Block.program p).filterMap release?).Perm
      (((Block.constructs p).filterMap Construct.dropped?).map (8 * ·)) := by
  have hblank : ((Block.program p).map blank).filterMap release? =
      (Block.program p).filterMap release? := by
    rw [List.filterMap_map]
    exact List.filterMap_congr fun i _ => by cases i <;> rfl
  have hending : p.endingCode.filterMap release? = [] := by
    unfold Block.endingCode
    split <;> rfl
  have hperm := (perm_program p).filterMap release?
  have hends (code : List Instr) :
      (.global :: .start :: code).filterMap release? = code.filterMap release? := rfl
  rwa [hblank, hends, List.filterMap_append, filterMap_release?_flatMap_code, hending,
    List.append_nil] at hperm

/-! ## Tests and their jumps -/

/-- Every test stands right before a jump. -/
inductive Paired : List Instr → Prop
  | nil : Paired []
  | cons {i code} : i ≠ .test → Paired code → Paired (i :: code)
  | test {n code} : Paired code → Paired (.test :: .jumpZero n :: code)

namespace Paired

theorem append {a b : List Instr} (ha : Paired a) (hb : Paired b) : Paired (a ++ b) := by
  induction ha with
  | nil => exact hb
  | cons hi _ ih => exact .cons hi ih
  | test _ ih => exact .test ih

theorem of_not_mem {code : List Instr} (h : .test ∉ code) : Paired code := by
  induction code with
  | nil => exact .nil
  | cons i code ih =>
    rw [List.mem_cons, not_or] at h
    exact .cons (Ne.symm h.1) (ih h.2)

theorem exists_jumpZero {code before after : List Instr} (h : Paired code)
    (hcode : code = before ++ .test :: after) : ∃ n rest, after = .jumpZero n :: rest := by
  induction h generalizing before with
  | nil => simp at hcode
  | cons hi _ ih =>
    cases before with
    | nil => exact absurd (List.cons.inj hcode).1 hi
    | cons j before => exact ih (List.cons.inj hcode).2
  | test _ ih =>
    rcases before with - | ⟨j, - | ⟨k, before⟩⟩
    · exact ⟨_, _, (List.cons.inj hcode).2.symm⟩
    · cases hcode
    · exact ih (List.cons.inj (List.cons.inj hcode).2).2

end Paired

theorem test_not_mem_exprListing (s : Scopes) (held : Nat) (e : Expr) :
    .test ∉ e.listing s held := by
  induction e generalizing held with
  | int l => simp [Expr.listing]
  | ident l => simp [Expr.listing]
  | paren e ih => exact ih held
  | binary op l r ihl ihr =>
    have hop : .test ∉ Emit.opCode op := by cases op <;> simp [Emit.opCode]
    simp [Expr.listing, ihl, ihr, hop]

theorem paired_exprListing (s : Scopes) (held : Nat) (e : Expr) : Paired (e.listing s held) :=
  .of_not_mem (test_not_mem_exprListing s held e)

/-- Only conditions are tested, and their jumps come right behind that. -/
theorem paired_branchListing (s : Scopes) (label : Nat) (e : Expr) :
    Paired (e.branchListing s label) := by
  apply (paired_exprListing s 0 e).append
  exact .cons (by simp) (.test .nil)

theorem paired_releaseListing (count : Nat) : Paired (releaseListing count) := by
  apply Paired.of_not_mem
  unfold releaseListing
  split <;> simp

mutual

theorem paired_stmtListing (s : Scopes) (n : Nat) : ∀ st : Stmt, Paired (st.listing s n)
  | .exit e => by
    refine .cons (by simp) ((paired_exprListing s 0 e).append ?_)
    exact .of_not_mem (by simp)
  | .declare _ e => by
    refine .cons (by simp) ((paired_exprListing s 0 e).append ?_)
    exact .of_not_mem (by simp)
  | .assign _ e => by
    refine .cons (by simp) ((paired_exprListing s 0 e).append ?_)
    exact .of_not_mem (by simp)
  | .scope b => by
    refine .cons (by simp) ((paired_blockListing _ n b).append ?_)
    exact (paired_releaseListing _).append (.of_not_mem (by simp))
  | .cond e b c => by
    refine .cons (by simp) ((paired_branchListing s n e).append ?_)
    refine (paired_blockListing _ _ b).append ((paired_releaseListing _).append ?_)
    refine .append ?_ (.of_not_mem (by simp))
    split
    · exact .of_not_mem (by simp)
    · refine .cons (by simp) (.cons (by simp) ?_)
      exact (paired_chainListing s _ _ c).append (.of_not_mem (by simp))

theorem paired_blockListing (s : Scopes) (n : Nat) :
    ∀ b : List Stmt, Paired (Block.listing s n b)
  | [] => .nil
  | st :: rest => (paired_stmtListing s n st).append (paired_blockListing _ _ rest)

theorem paired_chainListing (s : Scopes) (last n : Nat) :
    ∀ c : Chain, Paired (c.listing s last n)
  | .stop => .nil
  | .elif e b next => by
    refine .cons (by simp) ((paired_branchListing s n e).append ?_)
    refine (paired_blockListing _ _ b).append ((paired_releaseListing _).append ?_)
    exact .cons (by simp) (.cons (by simp) (paired_chainListing s last _ next))
  | .otherwise b => by
    refine .cons (by simp) ((paired_blockListing _ n b).append ?_)
    exact paired_releaseListing _

end

theorem paired_program (p : Block) : Paired (Block.program p) := by
  refine .cons (by simp) (.cons (by simp) ((paired_blockListing _ _ p).append ?_))
  apply Paired.of_not_mem
  split <;> simp

/-! ## Generated texts -/

section

variable {program : Block} {asm : String}
variable (hdigits : DigitLiterals (Block.symbols program)) (h : generate program = .ok asm)
include hdigits h

/-- How often a word begins a line is how often its instructions are in the code. -/
theorem countWord_generate (word : String) :
    countWord word asm = (Block.program program).countP (·.mnemonic = word) := by
  rw [countWord, trimmedLines_generate hdigits h, List.countP_map]
  refine List.countP_congr fun i _ => ?_
  rw [Function.comp_apply, firstWord_trimmed]

/-- Words of lines are counted from the constructs, and those behind the last statement. -/
theorem countWord_eq_total {word : String} (hword : word.toList.getLast? ≠ some ':')
    {w : Construct → Nat} (hw : ∀ c : Construct, c.code.countP (·.mnemonic = word) = w c) :
    countWord word asm =
      [Instr.global, .start].countP (·.mnemonic = word) +
        Construct.total w (Block.constructs program) +
          program.endingCode.countP (·.mnemonic = word) := by
  rw [countWord_generate hdigits h]
  apply countP_program _ hw
  intro i
  exact decide_eq_decide.2 (mnemonic_blank_eq_iff hword i)

/-- No words but these are those of lines outside the constructs. -/
theorem countWord_of_not_mem {word : String} (hlast : word.toList.getLast? ≠ some ':')
    (hword : word ∉ ["global", "mov", "syscall"]) {w : Construct → Nat}
    (hw : ∀ c : Construct, c.code.countP (·.mnemonic = word) = w c) :
    countWord word asm = Construct.total w (Block.constructs program) := by
  simp only [List.mem_cons, List.not_mem_nil, or_false, not_or] at hword
  obtain ⟨hglobal, hmov, hcall⟩ := hword
  have hstart : "_start:" ≠ word := by
    rintro rfl
    exact hlast rfl
  have hfront : [Instr.global, .start].countP (·.mnemonic = word) = 0 := by
    simp [mnemonic, Ne.symm hglobal, hstart]
  have hending : program.endingCode.countP (·.mnemonic = word) = 0 := by
    unfold Block.endingCode
    split <;> simp [mnemonic, Ne.symm hmov, Ne.symm hcall]
  rw [countWord_eq_total hdigits h hlast hw, hfront, hending, Nat.zero_add, Nat.add_zero]

theorem countWord_syscall :
    countWord "syscall" asm = Construct.total Construct.calls (Block.constructs program) +
      match program.getLast? with
      | some (.exit _) => 0
      | _ => 1 := by
  have hlast : "syscall".toList.getLast? ≠ some ':' := by decide
  rw [countWord_eq_total hdigits h hlast fun c => c.tallied.syscall, Block.endingCode,
    Emit.endsInExit]
  rcases program.getLast? with _ | _ | _ | _ | _ | _ <;>
    exact congrArg (· + _) (Nat.zero_add _)

/-- The lines that drop variables are those of the bodies that declare some. -/
theorem releases_generate :
    ((trimmedLines asm).filter ("add rsp".toList.isPrefixOf ·)).Perm
      (((Block.constructs program).filterMap Construct.dropped?).map fun k =>
        releaseText (8 * k)) := by
  have hperm := (filterMap_release?_program program).map releaseText
  rw [List.map_map] at hperm
  rwa [trimmedLines_generate hdigits h, filter_isPrefixOf_trimmed]

/-- The line of a test stands right before that of its jump. -/
theorem jump_of_test {before after : List (List Char)} {line : List Char}
    (hlines : trimmedLines asm = before ++ line :: after) (hline : firstWord line = "test") :
    ∃ next rest, after = next :: rest ∧ firstWord next = "jz" := by
  rw [trimmedLines_generate hdigits h] at hlines
  obtain ⟨front, back, hcode, rfl, hback⟩ := List.map_eq_append_iff.1 hlines
  obtain ⟨i, back, rfl, rfl, rfl⟩ := List.map_eq_cons_iff.1 hback
  rw [firstWord_trimmed] at hline
  obtain rfl := eq_test_of_mnemonic hline
  obtain ⟨n, rest, rfl⟩ := (paired_program program).exists_jumpZero hcode
  exact ⟨_, _, rfl, firstWord_trimmed _⟩

/-- The labels besides the entry point are counted from the constructs. -/
theorem countP_labels :
    (trimmedLines asm).countP (fun line => line.getLast? = some ':' ∧ line ≠ "_start:".toList) =
      Construct.total Construct.labels (Block.constructs program) := by
  have hperm := labels_generate hdigits h
  have hnodup := (List.nodup_cons.1 (nodup_labelLines (Block.labels program))).1
  have hfilter : (trimmedLines asm).countP
      (fun line => line.getLast? = some ':' ∧ line ≠ "_start:".toList) =
        ((trimmedLines asm).filter (·.getLast? = some ':')).countP (· ≠ "_start:".toList) := by
    rw [List.countP_filter]
    refine List.countP_congr fun line _ => ?_
    simp only [decide_eq_true_eq, Bool.and_eq_true, and_comm]
  rw [hfilter, hperm.countP_eq, List.countP_cons_of_neg (by simp), List.countP_eq_length.2,
    List.length_map, List.length_range, labels_eq_total]
  intro line hline
  exact decide_eq_true (ne_of_mem_of_not_mem hline hnodup)

end

/-- The lines of a generated text are counted from the constructs of the program: its pushes and
pops, the tests and the jumps that they decide, the other jumps, the labels and the calls. Each body
that declares variables drops them in one addition. -/
theorem generate_shape {program : Block} {asm : String}
    (hdigits : DigitLiterals (Block.symbols program)) (h : generate program = .ok asm) :
    let parts := Block.constructs program
    countWord "push" asm = Construct.total Construct.pushes parts ∧
    countWord "pop" asm = Construct.total Construct.pops parts ∧
    countWord "test" asm = Construct.total Construct.tests parts ∧
    countWord "jz" asm = Construct.total Construct.tests parts ∧
    (∀ before line after, trimmedLines asm = before ++ line :: after → firstWord line = "test" →
      ∃ next rest, after = next :: rest ∧ firstWord next = "jz") ∧
    countWord "jmp" asm = Construct.total Construct.jumps parts ∧
    (trimmedLines asm).countP (fun line => line.getLast? = some ':' ∧ line ≠ "_start:".toList) =
      Construct.total Construct.labels parts ∧
    ((trimmedLines asm).filter ("add rsp".toList.isPrefixOf ·)).Perm
      ((parts.filterMap Construct.dropped?).map fun k => ("add rsp, " ++ toString (8 * k)).toList) ∧
    countWord "syscall" asm = Construct.total Construct.calls parts +
      match program.getLast? with
      | some (.exit _) => 0
      | _ => 1 := by
  intro parts
  refine ⟨?_, ?_, ?_, ?_, ?_, ?_, ?_, ?_, ?_⟩
  · exact countWord_of_not_mem hdigits h (by decide) (by decide) fun c => c.tallied.push
  · exact countWord_of_not_mem hdigits h (by decide) (by decide) fun c => c.tallied.pop
  · exact countWord_of_not_mem hdigits h (by decide) (by decide) fun c => c.tallied.test
  · exact countWord_of_not_mem hdigits h (by decide) (by decide) fun c => c.tallied.jz
  · intro before line after hlines hline
    exact jump_of_test hdigits h hlines hline
  · exact countWord_of_not_mem hdigits h (by decide) (by decide) fun c => c.tallied.jmp
  · exact countP_labels hdigits h
  · exact releases_generate hdigits h
  · exact countWord_syscall hdigits h

/-- `let x = 1; { let y = x + 2 * x; { let z = y; x = z; } let w = y; }
if (x) { exit(x); } elif (0) { let a = x; } else { }`, where one body declares two variables around
another that declares one. -/
def bodiesInBodies : Block :=
  let int (n : String) : Expr := .int ⟨1, some n⟩
  let name (n : String) : Lexeme := ⟨1, some n⟩
  let x : Expr := .ident (name "x")
  let y : Expr := .ident (name "y")
  [.declare (name "x") (int "1"),
    .scope [.declare (name "y") (.binary .add x (.binary .mul (int "2") x)),
      .scope [.declare (name "z") y, .assign (name "x") (.ident (name "z"))],
      .declare (name "w") y],
    .cond x [.exit x] (.elif (int "0") [.declare (name "a") x] (.otherwise []))]

theorem generate_shape_bodiesInBodies :
    DigitLiterals (Block.symbols bodiesInBodies) ∧
      ∃ asm, generate bodiesInBodies = .ok asm ∧
        countWord "push" asm = 13 ∧ countWord "pop" asm = 8 ∧ countWord "test" asm = 2 ∧
        countWord "jmp" asm = 2 ∧ countWord "syscall" asm = 2 ∧
        ((trimmedLines asm).filter ("add rsp".toList.isPrefixOf ·)).Perm
          ["add rsp, 16".toList, "add rsp, 8".toList, "add rsp, 8".toList] := by
  have hdigits : DigitLiterals (Block.symbols bodiesInBodies) := by decide
  have hscope : bodiesInBodies.wellScoped = .ok () := rfl
  obtain ⟨asm, hgenerate⟩ : ∃ asm, generate bodiesInBodies = .ok asm := by
    rw [generate_eq, hscope]
    exact ⟨_, rfl⟩
  obtain ⟨hpush, hpop, htest, -, -, hjmp, -, hrelease, hcall⟩ := generate_shape hdigits hgenerate
  exact ⟨hdigits, asm, hgenerate, hpush, hpop, htest, hjmp, hcall, hrelease⟩

end Kei

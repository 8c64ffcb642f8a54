import Kei.Proofs.Assembly.Emission
import Kei.Proofs.Assembly.Lines
import Kei.Proofs.Machine.Stepping
import Mathlib.Data.List.Nodup

/-!
# Programs end

The jumps of a program go to labels on later lines, so what is still ahead of the machine shrinks
with every step: no line is executed twice, whatever the registers and the stack hold, and the
machine stops.
-/

namespace Kei

namespace Machine

/-! ## Where a step goes -/

/-- The label that an operation may go to. -/
def Op.target? : Op → Option String
  | .jumpZero target => target
  | .jump target => target
  | _ => none

variable {p : Program} {s s' s₁ s₂ : State}

theorem State.code_write {dst : Operand} {v : Int64} (h : s.write dst v = some s') :
    s'.code = s.code := by
  cases dst with
  | slot offset =>
    obtain ⟨i, -, rfl⟩ := Option.map_eq_some_iff.1 h
    rfl
  | noSlot => cases h
  | number w =>
    obtain rfl := Option.some.inj h
    rfl
  | register name =>
    obtain rfl := Option.some.inj h
    rfl

theorem State.code_release {bytes : Int64} (h : s.release bytes = some s') :
    s'.code = s.code := by
  unfold State.release at h
  split at h
  · cases h
  · dsimp only at h
    split at h
    · obtain rfl := Option.some.inj h
      rfl
    · cases h

theorem Next.ofState?_eq_go {o : Option State} (h : Next.ofState? o = .go s') : o = some s' := by
  cases o with
  | none => cases h
  | some s => rw [Next.go.inj h]

theorem Program.goTo_eq_go {target : Option String} (h : p.goTo s target = .go s') :
    ∃ name ∈ target, p.labels[name]? = some s'.code := by
  unfold Program.goTo at h
  split at h
  · rename_i code hcode
    obtain ⟨name, hname, hlabel⟩ := Option.bind_eq_some_iff.1 hcode
    obtain rfl := Next.go.inj h
    exact ⟨name, hname, hlabel⟩
  · cases h

/-- An operation goes on to the next one, or to the label it names. -/
theorem Op.code_run {op : Op} (h : op.run p s = .go s') :
    s'.code = s.code ∨ ∃ name ∈ op.target?, p.labels[name]? = some s'.code := by
  cases op with
  | label name =>
    obtain rfl := Next.go.inj h
    exact .inl rfl
  | mov dst src =>
    obtain ⟨v, -, hwrite⟩ := Option.bind_eq_some_iff.1 (Next.ofState?_eq_go h)
    exact .inl (State.code_write hwrite)
  | push src =>
    obtain ⟨v, -, rfl⟩ := Option.map_eq_some_iff.1 (Next.ofState?_eq_go h)
    exact .inl rfl
  | pop dst =>
    rw [Op.run] at h
    split at h
    · have hcode := State.code_write (Next.ofState?_eq_go h)
      exact .inl hcode
    · cases h
  | release bytes =>
    obtain ⟨v, -, hrelease⟩ := Option.bind_eq_some_iff.1 (Next.ofState?_eq_go h)
    exact .inl (State.code_release hrelease)
  | arith f dst src =>
    rw [Op.run] at h
    split at h
    · exact .inl (State.code_write (Next.ofState?_eq_go h))
    · cases h
  | signExtend =>
    obtain rfl := Next.go.inj h
    exact .inl rfl
  | div divisor =>
    rw [Op.run] at h
    split at h
    · split at h
      · cases h
      · obtain ⟨s₁, hrax, hrdx⟩ := Option.bind_eq_some_iff.1 (Next.ofState?_eq_go h)
        exact .inl ((State.code_write hrdx).trans (State.code_write hrax))
    · cases h
  | test left right =>
    rw [Op.run] at h
    split at h
    · obtain rfl := Next.go.inj h
      exact .inl rfl
    · cases h
  | jumpZero target =>
    rw [Op.run] at h
    split at h
    · exact .inr (Program.goTo_eq_go h)
    · obtain rfl := Next.go.inj h
      exact .inl rfl
  | jump target => exact .inr (Program.goTo_eq_go h)
  | syscall =>
    rw [Op.run] at h
    split at h
    · split at h <;> cases h
    · cases h
  | fault => cases h

/-! ## Forward programs -/

/-- Every operation that names a label comes before that label. -/
def ForwardOps : List Op → Prop
  | [] => True
  | op :: code => (∀ name ∈ op.target?, .label name ∈ code) ∧ ForwardOps code

theorem ForwardOps.suffix {code code' : List Op} (h : ForwardOps code) (hsuffix : code' <:+ code) :
    ForwardOps code' := by
  obtain ⟨before, rfl⟩ := hsuffix
  induction before with
  | nil => exact h
  | cons op before ih => exact ih h.2

/-- Jumps to a label that is still ahead go ahead. -/
theorem after?_of_mem {name : String} {after : List Op} (before : List Op)
    (h : .label name ∈ after) :
    ∃ code, after? name (before ++ after) = some code ∧ code <:+ after := by
  induction before with
  | nil =>
    induction after with
    | nil => cases h
    | cons op after ih =>
      by_cases hmem : .label name ∈ after
      · obtain ⟨code, hcode, hsuffix⟩ := ih hmem
        refine ⟨code, ?_, hsuffix.trans (List.suffix_cons _ _)⟩
        rw [List.nil_append] at hcode
        cases op <;> simp [after?, hcode]
      · obtain rfl := (List.mem_cons.1 h).resolve_right hmem
        exact ⟨after, after?_append_label [] after hmem, List.suffix_cons _ _⟩
  | cons op before ih =>
    obtain ⟨code, hcode, hsuffix⟩ := ih
    refine ⟨code, ?_, hsuffix⟩
    cases op <;> simp [after?, hcode]

theorem labels_load (text name : String) :
    (load text).labels[name]? = after? name (load text).code := by
  simp [load, getElem?_labelsFrom]

/-- A step goes to a place behind the operation it carries out. -/
theorem step_suffix {text : String} (hforward : ForwardOps (load text).code)
    (hcode : s.code <:+ (load text).code) (h : step (load text) s = .go s') :
    ∃ op after, s.code = op :: after ∧ s'.code <:+ after := by
  unfold step at h
  split at h
  · cases h
  · rename_i op after hs
    refine ⟨op, after, hs, ?_⟩
    obtain hnext | ⟨name, hname, hlabel⟩ := Op.code_run h
    · exact hnext ▸ List.suffix_rfl
    · -- the last label of a name counts, and one of them is still ahead
      rw [hs] at hcode
      have hmem := (hforward.suffix hcode).1 name hname
      obtain ⟨before, hsplit⟩ := hcode
      obtain ⟨code, hafter, hsuffix⟩ := after?_of_mem (before ++ [op]) hmem
      rw [List.append_assoc, List.singleton_append, hsplit, ← labels_load, hlabel] at hafter
      exact Option.some.inj hafter ▸ hsuffix

/-- What is still ahead of a run shrinks with every step. -/
theorem runFrom_suffix {text : String} (hforward : ForwardOps (load text).code) {n : Nat}
    (hcode : s.code <:+ (load text).code) (h : runFrom (load text) s n = .stillRunning s') :
    s'.code <:+ s.code ∧ s'.code.length + n ≤ s.code.length := by
  induction n generalizing s with
  | zero =>
    obtain rfl := Outcome.stillRunning.inj h
    exact ⟨List.suffix_rfl, Nat.le_refl _⟩
  | succ n ih =>
    rw [runFrom] at h
    split at h
    · rename_i s₁ hstep
      obtain ⟨op, after, hs, hafter⟩ := step_suffix hforward hcode hstep
      have hs₁ : s₁.code <:+ s.code := hs ▸ hafter.trans (List.suffix_cons op after)
      obtain ⟨hsuffix, hlen⟩ := ih (hs₁.trans hcode) h
      refine ⟨hsuffix.trans hs₁, ?_⟩
      have hle := hafter.length_le
      rw [hs, List.length_cons]
      omega
    · cases h
    · cases h

/-- What was executed once is never ahead again. -/
theorem runFrom_behind {text : String} (hforward : ForwardOps (load text).code) {i j : Nat}
    (hcode : s.code = (load text).code) (hij : i < j)
    (h₁ : runFrom (load text) s i = .stillRunning s₁)
    (h₂ : runFrom (load text) s j = .stillRunning s₂) :
    ∃ before op after, (load text).code = before ++ op :: after ∧ s₁.code = op :: after ∧
      s₂.code <:+ after := by
  obtain ⟨n, rfl⟩ := Nat.exists_eq_add_of_lt hij
  rw [Nat.add_assoc, runFrom_add h₁] at h₂
  obtain ⟨hs₁, -⟩ := runFrom_suffix hforward (hcode ▸ List.suffix_rfl) h₁
  rw [hcode] at hs₁
  obtain ⟨hs₂, hlen⟩ := runFrom_suffix hforward hs₁ h₂
  cases hcode₁ : s₁.code with
  | nil => simp [hcode₁] at hlen
  | cons op after =>
    rw [hcode₁] at hs₁ hs₂ hlen
    obtain ⟨before, hbefore⟩ := hs₁
    refine ⟨before, op, after, hbefore.symm, rfl, ?_⟩
    obtain heq | hsuffix := List.suffix_cons_iff.1 hs₂
    · rw [heq] at hlen
      omega
    · exact hsuffix

/-- All that is ahead is done within as many steps. -/
theorem runFrom_ne_stillRunning {text : String} (hforward : ForwardOps (load text).code)
    (hcode : s.code = (load text).code) (s' : State) :
    runFrom (load text) s ((load text).code.length + 1) ≠ .stillRunning s' := by
  intro h
  have hlen := (runFrom_suffix hforward (hcode ▸ List.suffix_rfl) h).2
  rw [hcode] at hlen
  omega

/-! ## Reading forward code -/

theorem Op.target?_ofParts {name : String} {args : List (List Char)}
    (h : (Op.ofParts name args).target?.isSome) : name = "jz" ∨ name = "jmp" := by
  unfold Op.ofParts at h
  split at h
  -- the two jumps, and the addition to `rsp` that releases
  case h_10 => exact .inl rfl
  case h_11 => exact .inr rfl
  case h_4 => split at h <;> cases h
  all_goals cases h

/-- A line that names a label to go to begins with the name of a jump. -/
theorem Op.head?_of_ofLine {cs : List Char} (h : (Op.ofLine cs).target?.isSome) :
    cs.head? = some 'j' := by
  unfold Op.ofLine at h
  split at h
  · cases h
  · refine Text.head?_of_takeWhile (p := (· ≠ ' ')) ?_
    rw [← String.toList_ofList (l := cs.takeWhile (· ≠ ' '))]
    obtain hjz | hjmp := Op.target?_ofParts h
    · exact hjz ▸ rfl
    · exact hjmp ▸ rfl

end Machine

open Machine

/-- Only jumps name a label to go to, and it is their own. -/
theorem Instr.exists_target {i : Instr} {op : Machine.Op} {name : String}
    (h : readLine? (i.indent ++ i.text).toList = some op) (hname : op.target? = some name) :
    ∃ n, i.target? = some n ∧ name = labelName n := by
  have hj : i.target?.isSome := by
    unfold readLine? at h
    split at h
    · cases h
    · obtain rfl := Option.some.inj h
      have hhead := Op.head?_of_ofLine (Option.isSome_of_eq_some hname)
      exact initial_eq_j.1 (Option.some.inj (i.head?_trimmed.symm.trans hhead))
  have hop (hread : i.Readable) : i.op? = some op := (readLine?_line hread).symm.trans h
  cases i with
  | jumpZero n =>
    obtain rfl := Option.some.inj (hop trivial)
    exact ⟨n, rfl, (Option.some.inj hname).symm⟩
  | jump n =>
    obtain rfl := Option.some.inj (hop trivial)
    exact ⟨n, rfl, (Option.some.inj hname).symm⟩
  | _ => cases hj

/-- Forward code is read as a forward program. -/
theorem forwardOps_of_forward {code : List Instr} (h : Forward [] code) :
    ForwardOps (code.filterMap fun i => readLine? (i.indent ++ i.text).toList) := by
  induction code with
  | nil => trivial
  | cons i code ih =>
    rw [List.filterMap_cons]
    cases hop : readLine? (i.indent ++ i.text).toList with
    | none => exact ih h.2
    | some op =>
      refine ⟨fun name hname => ?_, ih h.2⟩
      obtain ⟨n, hn, rfl⟩ := Instr.exists_target hop hname
      have hplaced : n ∈ placed code := (h.1 n hn).resolve_right List.not_mem_nil
      exact List.mem_filterMap.2 ⟨_, label_mem_of_placed hplaced, Instr.readLine?_label n⟩

/-! ## Generated programs -/

theorem nodup_labelLines (k : Nat) :
    ("_start:".toList :: (List.range k).map fun n => (Instr.labelName n ++ ":").toList).Nodup := by
  have hcolon {a b : String} (hab : (a ++ ":").toList = (b ++ ":").toList) : a = b :=
    String.toList_inj.1 (by simpa using hab)
  refine List.nodup_cons.2 ⟨fun hmem => ?_, List.nodup_range.map fun m n hmn => ?_⟩
  · obtain ⟨n, -, hn⟩ := List.mem_map.1 hmem
    exact Instr.labelName_ne_start n (hcolon (b := "_start") hn)
  · exact Instr.labelName_injective (hcolon hmn)

section

variable {program : Block} {asm : String}

theorem eq_print_of_generate (h : generate program = .ok asm) :
    asm = Instr.print (Block.program program).toArray := by
  rw [generate_eq] at h
  cases hscope : program.wellScoped with
  | error e => simp [hscope, Except.map] at h
  | ok u => simpa [hscope, Except.map] using h.symm

variable (hdigits : DigitLiterals (Block.symbols program)) (h : generate program = .ok asm)
include hdigits h

theorem lines_generate :
    Text.lines asm.toList =
      (Block.program program).map fun i => (i.indent ++ i.text).toList := by
  obtain ⟨code, hcode, hord⟩ := exists_program_eq hdigits
  rw [eq_print_of_generate h]
  refine lines_print ?_
  rw [hcode]
  exact List.forall_mem_cons.2 ⟨trivial, List.forall_mem_cons.2 ⟨trivial, fun i hi =>
    (hord i hi).oneLine⟩⟩

theorem trimmedLines_generate :
    trimmedLines asm = (Block.program program).map Instr.trimmed := by
  rw [trimmedLines, lines_generate hdigits h, List.map_map]
  rfl

theorem forwardOps_generate : ForwardOps (load asm).code := by
  rw [load, operations_eq, lines_generate hdigits h, List.filterMap_map]
  exact forwardOps_of_forward (forward_program program)

/-- The lines of labels are those of the entry point and of the numbered labels. -/
theorem labels_generate :
    ((trimmedLines asm).filter (·.getLast? = some ':')).Perm
      ("_start:".toList :: (List.range (Block.labels program)).map fun n =>
        (Instr.labelName n ++ ":").toList) := by
  obtain ⟨code, hcode, hord⟩ := exists_program_eq hdigits
  have hperm := placed_program program
  rw [hcode, ← List.range_eq_range'] at hperm
  have hglobal : Instr.trimmed .global = "global _start".toList := by decide
  have hstart : Instr.trimmed .start = "_start:".toList := by decide
  rw [trimmedLines_generate hdigits h, hcode, List.map_cons, List.map_cons, hglobal, hstart]
  rw [List.filter_cons_of_neg (by decide), List.filter_cons_of_pos (by decide), filter_trimmed hord]
  exact (hperm.map _).cons _

/-- A jump names a label whose line comes later. -/
theorem label_of_jump {before after : List (List Char)} {line : List Char}
    (hlines : trimmedLines asm = before ++ line :: after) {op : String} (hop : op ∈ ["jz", "jmp"])
    (hline : line.takeWhile (· ≠ ' ') = op.toList) :
    ∃ n < Block.labels program, line = op.toList ++ ' ' :: (Instr.labelName n).toList ∧
      (Instr.labelName n ++ ":").toList ∈ after := by
  rw [trimmedLines_generate hdigits h] at hlines
  obtain ⟨front, back, hcode, rfl, hback⟩ := List.map_eq_append_iff.1 hlines
  obtain ⟨i, back, rfl, rfl, rfl⟩ := List.map_eq_cons_iff.1 hback
  obtain ⟨n, htarget, htext⟩ := Instr.exists_target_of_takeWhile hop hline
  have hforward := forward_program program
  rw [hcode] at hforward
  have hplaced := (hforward.target htarget).resolve_right List.not_mem_nil
  have hmem : n ∈ placed (Block.program program) := by
    rw [hcode, placed_append, placed_cons]
    exact List.mem_append_right _ (List.mem_append_right _ hplaced)
  have hrange := (placed_program program).mem_iff.1 hmem
  refine ⟨n, by simpa using hrange, htext, ?_⟩
  exact List.mem_map.2 ⟨_, label_mem_of_placed hplaced, Instr.trimmed_label n⟩

end

/-- The labels of a generated text are its entry point and the numbered labels, each once. Every
jump names a numbered label on a later line. So from every state of the machine the text is
executed at most once, and to an end. -/
theorem generate_forward {program : Block} {asm : String}
    (hdigits : DigitLiterals (Block.symbols program)) (h : generate program = .ok asm) :
    ∃ k,
      ((trimmedLines asm).filter (·.getLast? = some ':')).Perm
        ("_start:".toList :: (List.range k).map fun n => (Instr.labelName n ++ ":").toList) ∧
      ((trimmedLines asm).filter (·.getLast? = some ':')).Nodup ∧
      (∀ before line after, trimmedLines asm = before ++ line :: after →
        ∀ op ∈ ["jz", "jmp"], line.takeWhile (· ≠ ' ') = op.toList →
          ∃ n < k, line = op.toList ++ ' ' :: (Instr.labelName n).toList ∧
            (Instr.labelName n ++ ":").toList ∈ after) ∧
      ∀ s : State, s.code = (load asm).code →
        (∀ i j s₁ s₂, i < j → runFrom (load asm) s i = .stillRunning s₁ →
          runFrom (load asm) s j = .stillRunning s₂ →
            ∃ before op after, (load asm).code = before ++ op :: after ∧ s₁.code = op :: after ∧
              s₂.code <:+ after) ∧
        ∀ s', runFrom (load asm) s ((load asm).code.length + 1) ≠ .stillRunning s' := by
  have hforward := forwardOps_generate hdigits h
  have hlabels := labels_generate hdigits h
  refine ⟨Block.labels program, hlabels, hlabels.nodup_iff.2 (nodup_labelLines _), ?_, ?_⟩
  · intro before line after hlines op hop hline
    exact label_of_jump hdigits h hlines hop hline
  · intro s hcode
    refine ⟨fun i j s₁ s₂ hij h₁ h₂ => ?_, runFrom_ne_stillRunning hforward hcode⟩
    exact runFrom_behind hforward hcode hij h₁ h₂

/-- `if (1) { if (0) { } else { exit(2); } } elif (0) { }`, which places its labels in the order
1, 2, 0, 4, 3. -/
def nestedBranches : Block :=
  let int (n : String) : Expr := .int ⟨1, some n⟩
  [.cond (int "1") [.cond (int "0") [] (.otherwise [.exit (int "2")])] (.elif (int "0") [] .stop)]

theorem generate_forward_nestedBranches :
    DigitLiterals (Block.symbols nestedBranches) ∧
      ∃ asm, generate nestedBranches = .ok asm ∧
        (trimmedLines asm).filter (·.getLast? = some ':') =
          ["_start:", "label1:", "label2:", "label0:", "label4:", "label3:"].map String.toList ∧
        ((trimmedLines asm).filter (·.getLast? = some ':')).Perm
          ("_start:".toList :: (List.range 5).map fun n => (Instr.labelName n ++ ":").toList) ∧
        (∀ before line after, trimmedLines asm = before ++ line :: after →
          ∀ op ∈ ["jz", "jmp"], line.takeWhile (· ≠ ' ') = op.toList →
            ∃ n < 5, line = op.toList ++ ' ' :: (Instr.labelName n).toList ∧
              (Instr.labelName n ++ ":").toList ∈ after) ∧
        ∀ s', run asm ((load asm).code.length + 1) ≠ .stillRunning s' := by
  have hdigits : DigitLiterals (Block.symbols nestedBranches) := by decide
  have hscope : nestedBranches.wellScoped = .ok () := rfl
  obtain ⟨asm, hgenerate⟩ : ∃ asm, generate nestedBranches = .ok asm := by
    rw [generate_eq, hscope]
    exact ⟨_, rfl⟩
  have hlines : (trimmedLines asm).filter (·.getLast? = some ':') =
      ["_start:", "label1:", "label2:", "label0:", "label4:", "label3:"].map String.toList := by
    rw [trimmedLines_generate hdigits hgenerate]
    decide +kernel
  obtain ⟨k, hlabels, -, hjumps, hends⟩ := generate_forward hdigits hgenerate
  -- six lines are labels, and one of them is the entry point
  obtain rfl : k = 5 := by
    have hlength := hlabels.length_eq
    rw [hlines] at hlength
    simpa using hlength.symm
  exact ⟨hdigits, asm, hgenerate, hlines, hlabels, hjumps, (hends _ rfl).2⟩

end Kei

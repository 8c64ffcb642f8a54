import Kei.Proofs.Assembly.Jumps
import Kei.Proofs.Machine.Targets
import Kei.Syntax.Concrete

/-!
# Lines of listings

The text of code, line by line. Where literals are digits, only the lines of labels end in a colon
and only the lines of jumps begin with a `j`, so labels and jumps can be told from the text.
-/

namespace Kei

open Machine

/-! ## Ordinary code -/

/-- The integer literals among symbols are digits. -/
def DigitLiterals (symbols : List Symbol) : Prop :=
  ∀ x ∈ symbols, x.1 = .integer → x.2.all (·.spelling.toList.all Char.isDigit)

instance (symbols : List Symbol) : Decidable (DigitLiterals symbols) :=
  inferInstanceAs (Decidable (∀ x ∈ symbols, _))

@[simp] theorem digitLiterals_append {a b : List Symbol} :
    DigitLiterals (a ++ b) ↔ DigitLiterals a ∧ DigitLiterals b :=
  List.forall_mem_append

@[simp] theorem digitLiterals_cons {x : Symbol} {a : List Symbol} :
    DigitLiterals (x :: a) ↔
      (x.1 = .integer → x.2.all (·.spelling.toList.all Char.isDigit)) ∧ DigitLiterals a :=
  List.forall_mem_cons

/-- What the code of blocks is made of: it loads digits, and its remarks take one line. -/
def Instr.Ordinary : Instr → Prop
  | global | start => False
  | load _ v => v.toList.all Char.isDigit
  | note t => Unbroken t ∧ IsEnd t.toList
  | _ => True

instance : ∀ i : Instr, Decidable i.Ordinary
  | .global | .start => isFalse id
  | .load _ v => inferInstanceAs (Decidable (v.toList.all Char.isDigit = true))
  | .note t => inferInstanceAs (Decidable (Instr.Unbroken t ∧ IsEnd t.toList))
  | .label _ | .store _ | .push _ | .pushSlot _ | .pop _ | .release _ | .add | .sub | .mul
  | .signExtend | .div | .test | .jumpZero _ | .jump _ | .syscall => isTrue trivial

/-- All instructions are ordinary. -/
def Ordinary (code : List Instr) : Prop :=
  ∀ i ∈ code, i.Ordinary

instance (code : List Instr) : Decidable (Ordinary code) :=
  inferInstanceAs (Decidable (∀ i ∈ code, i.Ordinary))

theorem ordinary_nil : Ordinary [] :=
  List.forall_mem_nil _

theorem ordinary_cons {i : Instr} {code : List Instr} :
    Ordinary (i :: code) ↔ i.Ordinary ∧ Ordinary code :=
  List.forall_mem_cons

theorem ordinary_append {a b : List Instr} : Ordinary (a ++ b) ↔ Ordinary a ∧ Ordinary b :=
  List.forall_mem_append

theorem Expr.ordinary (s : Scopes) (held : Nat) (e : Expr) (h : DigitLiterals e.symbols) :
    Ordinary (e.listing s held) := by
  induction e generalizing held with
  | int l => exact ordinary_cons.2 ⟨(digitLiterals_cons.1 h).1 rfl, by decide⟩
  | ident l => exact ordinary_cons.2 ⟨trivial, ordinary_nil⟩
  | paren e ih =>
    simp only [Expr.symbols, digitLiterals_append, digitLiterals_cons] at h
    exact ih held h.2.1
  | binary op l r ihl ihr =>
    simp only [Expr.symbols, digitLiterals_append, digitLiterals_cons] at h
    refine ordinary_append.2 ⟨ihr _ h.2.2, ordinary_append.2 ⟨ihl _ h.1, ?_⟩⟩
    cases op <;> decide

theorem Expr.ordinary_branch (s : Scopes) (label : Nat) (e : Expr) (h : DigitLiterals e.symbols) :
    Ordinary (e.branchListing s label) :=
  ordinary_append.2 ⟨e.ordinary s 0 h, by simp [Ordinary, Instr.Ordinary]⟩

theorem ordinary_release (count : Nat) : Ordinary (releaseListing count) := by
  unfold releaseListing
  split <;> simp [Ordinary, Instr.Ordinary]

mutual

theorem Stmt.ordinary (s : Scopes) (n : Nat) :
    ∀ st : Stmt, DigitLiterals st.symbols → Ordinary (st.listing s n)
  | .exit e, h => by
    simp only [Stmt.symbols, digitLiterals_append, digitLiterals_cons] at h
    exact ordinary_cons.2 ⟨by decide, ordinary_append.2 ⟨e.ordinary s 0 h.2.2.1, by decide⟩⟩
  | .declare name e, h => by
    simp only [Stmt.symbols, digitLiterals_append, digitLiterals_cons] at h
    exact ordinary_cons.2 ⟨by decide, ordinary_append.2 ⟨e.ordinary s 0 h.2.2.2.1, by decide⟩⟩
  | .assign name e, h => by
    simp only [Stmt.symbols, digitLiterals_append, digitLiterals_cons] at h
    refine ordinary_cons.2 ⟨by decide, ordinary_append.2 ⟨e.ordinary s 0 h.2.2.1, ?_⟩⟩
    exact ordinary_cons.2 ⟨trivial, ordinary_cons.2 ⟨trivial, by decide⟩⟩
  | .scope b, h => by
    simp only [Stmt.symbols, digitLiterals_append, digitLiterals_cons] at h
    have hb := Block.ordinary ([] :: s) n b h.2.1
    refine ordinary_cons.2 ⟨by decide, ordinary_append.2 ⟨hb, ordinary_append.2 ⟨?_, by decide⟩⟩⟩
    exact ordinary_release _
  | .cond e b c, h => by
    simp only [Stmt.symbols, digitLiterals_append, digitLiterals_cons] at h
    have he := e.ordinary_branch s n h.2.2.1
    have hb := Block.ordinary ([] :: s) (n + 1) b h.2.2.2.2.2.1
    refine ordinary_cons.2 ⟨by decide, ordinary_append.2 ⟨he, ordinary_append.2 ⟨hb, ?_⟩⟩⟩
    refine ordinary_append.2 ⟨ordinary_release _, ordinary_append.2 ⟨?_, by decide⟩⟩
    split
    · exact ordinary_cons.2 ⟨trivial, ordinary_nil⟩
    · have hc := Chain.ordinary s (n + 1 + Block.labels b) (n + 1 + Block.labels b + 1) c
        h.2.2.2.2.2.2.2
      refine ordinary_cons.2 ⟨trivial, ordinary_cons.2 ⟨trivial, ordinary_append.2 ⟨hc, ?_⟩⟩⟩
      exact ordinary_cons.2 ⟨trivial, ordinary_nil⟩

theorem Block.ordinary (s : Scopes) (n : Nat) :
    ∀ b : List Stmt, DigitLiterals (Block.symbols b) → Ordinary (Block.listing s n b)
  | [], h => ordinary_nil
  | st :: b, h => by
    simp only [Block.symbols, digitLiterals_append] at h
    exact ordinary_append.2 ⟨st.ordinary s n h.1, Block.ordinary _ _ b h.2⟩

theorem Chain.ordinary (s : Scopes) (last n : Nat) :
    ∀ c : Chain, DigitLiterals c.symbols → Ordinary (c.listing s last n)
  | .stop, h => ordinary_nil
  | .elif e b next, h => by
    simp only [Chain.symbols, digitLiterals_append, digitLiterals_cons] at h
    have he := e.ordinary_branch s n h.2.2.1
    have hb := Block.ordinary ([] :: s) (n + 1) b h.2.2.2.2.2.1
    refine ordinary_cons.2 ⟨by decide, ordinary_append.2 ⟨he, ordinary_append.2 ⟨hb, ?_⟩⟩⟩
    refine ordinary_append.2 ⟨ordinary_release _, ordinary_cons.2 ⟨trivial, ?_⟩⟩
    exact ordinary_cons.2 ⟨trivial, Chain.ordinary s last _ next h.2.2.2.2.2.2.2⟩
  | .otherwise b, h => by
    simp only [Chain.symbols, digitLiterals_append, digitLiterals_cons] at h
    have hb := Block.ordinary ([] :: s) n b h.2.2.1
    exact ordinary_cons.2 ⟨by decide, ordinary_append.2 ⟨hb, ordinary_release _⟩⟩

end

/-- All of a program but its first two lines is ordinary. -/
theorem exists_program_eq {p : Block} (h : DigitLiterals (Block.symbols p)) :
    ∃ code, Block.program p = .global :: .start :: code ∧ Ordinary code := by
  refine ⟨_, rfl, ordinary_append.2 ⟨Block.ordinary _ _ p h, ?_⟩⟩
  split <;> decide

/-! ## Trimmed lines -/

/-- The lines of a text without surrounding white space. -/
def Machine.trimmedLines (text : String) : List (List Char) :=
  (Text.lines text.toList).map Text.trim

theorem Text.head?_of_takeWhile {p : α → Bool} {l : List α} {a : α}
    (h : (l.takeWhile p).head? = some a) : l.head? = some a := by
  cases l with
  | nil => cases h
  | cons b l =>
    rw [List.takeWhile_cons] at h
    split at h
    · exact h
    · cases h

/-- Trimming keeps the first character that is not white. -/
theorem Text.head?_trim {spaces cs : List Char} (hs : ∀ c ∈ spaces, isWhite c)
    (hfirst : ∀ c ∈ cs.head?, isWhite c = false) : (trim (spaces ++ cs)).head? = cs.head? := by
  cases cs with
  | nil => rw [trim_append hs hfirst (by simp)]
  | cons c rest =>
    have hc : ∀ d ∈ [c].getLast?, isWhite d = false := hfirst
    have hstart : trimStart (spaces ++ c :: rest) = [c] ++ rest := by
      rw [trimStart, List.dropWhile_append_of_pos hs]
      exact dropWhile_eq_self hfirst
    obtain ⟨rest', -, hend⟩ := trimEnd_append rest hc
    rw [trim, hstart, hend]
    rfl

namespace Instr

/-- The line of an instruction, trimmed. -/
def trimmed (i : Instr) : List Char :=
  Text.trim (i.indent ++ i.text).toList

theorem isWhite_indent (i : Instr) : ∀ c ∈ i.indent.toList, Text.isWhite c := by
  unfold indent
  split <;> exact List.all_eq_true.1 rfl

/-- The first character of the text of an instruction. -/
def initial : Instr → Char
  | global => 'g'
  | start => '_'
  | label _ => 'l'
  | note _ => ';'
  | load _ _ | store _ => 'm'
  | push _ | pushSlot _ | pop _ => 'p'
  | release _ | add => 'a'
  | sub | syscall => 's'
  | mul | div => 'i'
  | signExtend => 'c'
  | test => 't'
  | jumpZero _ | jump _ => 'j'

theorem head?_append {a : String} {c : Char} (h : a.toList.head? = some c) (b : String) :
    (a ++ b).toList.head? = some c := by
  rw [String.toList_append, List.head?_append, h, Option.some_or]

theorem head?_text (i : Instr) : i.text.toList.head? = some i.initial := by
  cases i with
  | label n => exact head?_append (head?_append rfl _) _
  | note t => exact head?_append rfl _
  | load dst v => exact head?_append (head?_append (head?_append rfl _) _) _
  | store n => exact head?_append (head?_append rfl _) _
  | push src => exact head?_append rfl _
  | pushSlot n => exact head?_append (head?_append rfl _) _
  | pop dst => exact head?_append rfl _
  | release n => exact head?_append rfl _
  | jumpZero n => exact head?_append rfl _
  | jump n => exact head?_append rfl _
  | _ => rfl

theorem isWhite_initial (i : Instr) : Text.isWhite i.initial = false := by
  cases i <;> rfl

theorem initial_eq_j {i : Instr} : i.initial = 'j' ↔ i.target?.isSome := by
  cases i <;> simp [initial, target?]

theorem head?_trimmed (i : Instr) : i.trimmed.head? = some i.initial := by
  have hwhite := i.isWhite_initial
  rw [trimmed, String.toList_append, Text.head?_trim i.isWhite_indent] <;> simp [head?_text, hwhite]

/-- A line that ends in no white space is the text of its instruction. -/
theorem trimmed_eq {i : Instr} (h : ∀ c ∈ i.text.toList.getLast?, Text.isWhite c = false) :
    i.trimmed = i.text.toList := by
  have hwhite := i.isWhite_initial
  rw [trimmed, String.toList_append, Text.trim_append i.isWhite_indent _ h]
  simp [head?_text, hwhite]

theorem isEnd_append {b : String} (h : IsEnd b.toList) (a : String) : IsEnd (a ++ b).toList := by
  rw [String.toList_append]
  exact h.append _

theorem isEnd_toString (n : Nat) : IsEnd (toString n).toList := by
  rw [toList_toString]
  exact isEnd_of_isDigit Nat.toDigits_ne_nil fun c hc => isDigit_of_mem_toDigits hc

theorem isEnd_labelName (n : Nat) : IsEnd (labelName n).toList :=
  isEnd_append (isEnd_toString n) _

theorem isEnd_regName (r : Reg) : IsEnd r.name.toList := by
  cases r <;> decide

/-- Only labels end in a colon; where nothing is loaded, the line is trimmed to the comma. -/
theorem isEnd_trimmed {i : Instr} (h : i.Ordinary) (hplaced : i.placed? = none) :
    IsEnd i.trimmed := by
  have htext (h : IsEnd i.text.toList) : IsEnd i.trimmed := by
    rwa [trimmed_eq fun c hc => (h.2 c hc).2]
  cases i with
  | global => cases h
  | start => cases h
  | label n => simp [placed?] at hplaced
  | note t => exact htext (isEnd_append h.2 _)
  | load dst v =>
    by_cases hv : v.toList = []
    · obtain rfl : v = "" := String.toList_eq_nil_iff.1 hv
      cases dst <;> decide
    · exact htext (isEnd_append (isEnd_of_isDigit hv (List.all_eq_true.1 h)) _)
  | store n => exact htext (isEnd_append (by decide) _)
  | push src => exact htext (isEnd_append (isEnd_regName src) _)
  | pushSlot n => exact htext (isEnd_append (by decide) _)
  | pop dst => exact htext (isEnd_append (isEnd_regName dst) _)
  | release n => exact htext (isEnd_append (isEnd_toString n) _)
  | jumpZero n => exact htext (isEnd_append (isEnd_labelName n) _)
  | jump n => exact htext (isEnd_append (isEnd_labelName n) _)
  | _ => exact htext (by decide)

theorem trimmed_label (n : Nat) : trimmed (.label n) = (labelName n ++ ":").toList := by
  refine trimmed_eq fun c hc => ?_
  have hlast : (text (.label n)).toList.getLast? = some ':' := by
    rw [show text (.label n) = labelName n ++ ":" from rfl, String.toList_append]
    exact List.getLast?_append_of_ne_nil _ (List.cons_ne_nil _ _)
  obtain rfl := Option.some.inj (hlast.symm.trans hc)
  rfl

theorem trimmed_jumpZero (n : Nat) :
    trimmed (.jumpZero n) = "jz ".toList ++ (labelName n).toList := by
  have hend : IsEnd (text (.jumpZero n)).toList := isEnd_append (isEnd_labelName n) _
  rw [trimmed_eq fun c hc => (hend.2 c hc).2]
  exact String.toList_append

theorem trimmed_jump (n : Nat) : trimmed (.jump n) = "jmp ".toList ++ (labelName n).toList := by
  have hend : IsEnd (text (.jump n)).toList := isEnd_append (isEnd_labelName n) _
  rw [trimmed_eq fun c hc => (hend.2 c hc).2]
  exact String.toList_append

/-- A line whose first word is that of a jump is a jump and names its label. -/
theorem exists_target_of_takeWhile {i : Instr} {op : String} (hop : op ∈ ["jz", "jmp"])
    (h : i.trimmed.takeWhile (· ≠ ' ') = op.toList) :
    ∃ n, i.target? = some n ∧ i.trimmed = op.toList ++ ' ' :: (labelName n).toList := by
  have hhead : (i.trimmed.takeWhile (· ≠ ' ')).head? = some 'j' := by
    rw [h]
    obtain rfl | rfl := List.mem_pair.1 hop <;> rfl
  have hj : i.initial = 'j' :=
    Option.some.inj (i.head?_trimmed.symm.trans (Text.head?_of_takeWhile hhead))
  have hword {n : Nat} (word : String) (hword : ∀ c ∈ word.toList, decide (c ≠ ' ') = true)
      (hline : i.trimmed = word.toList ++ ' ' :: (labelName n).toList) :
      i.trimmed = op.toList ++ ' ' :: (labelName n).toList := by
    rw [hline, List.takeWhile_append_of_pos hword] at h
    rw [hline, ← h]
    simp
  cases i with
  | jumpZero n => exact ⟨n, rfl, hword "jz" (List.all_eq_true.1 rfl) (trimmed_jumpZero n)⟩
  | jump n => exact ⟨n, rfl, hword "jmp" (List.all_eq_true.1 rfl) (trimmed_jump n)⟩
  | _ => simp [initial] at hj

theorem Ordinary.oneLine {i : Instr} (h : i.Ordinary) : i.OneLine := by
  cases i with
  | load dst v => exact unbroken_of_isDigit (List.all_eq_true.1 h)
  | note t => exact h.1
  | _ => trivial

end Instr

/-! ## Labels and jumps in the text -/

/-- The lines that end in a colon are those of the labels. -/
theorem filter_trimmed {code : List Instr} (h : Ordinary code) :
    (code.map Instr.trimmed).filter (·.getLast? = some ':') =
      (placed code).map fun n => (Instr.labelName n ++ ":").toList := by
  induction code with
  | nil => rfl
  | cons i code ih =>
    obtain ⟨hi, hcode⟩ := ordinary_cons.1 h
    rw [List.map_cons, placed_cons, List.map_append, ← ih hcode]
    cases hplaced : i.placed? with
    | none =>
      have hlast : i.trimmed.getLast? ≠ some ':' := fun hc =>
        ((Instr.isEnd_trimmed hi hplaced).2 ':' hc).1 rfl
      simp [hlast]
    | some n =>
      obtain rfl : i = .label n := by cases i <;> simp_all [Instr.placed?]
      rw [Instr.trimmed_label, List.filter_cons_of_pos (by simp)]
      rfl

end Kei

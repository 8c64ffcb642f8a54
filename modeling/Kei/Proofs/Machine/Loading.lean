import Kei.Assembly.Instr
import Kei.Machine.Run
import Kei.Proofs.Text.Lines
import Kei.Proofs.Text.Numeral
import Mathlib.Data.List.Basic

/-!
# Loading printed code

The machine takes the text of code apart again. Each line gives the operation that the instruction
stands for, or none for remarks and directives, as long as its numbers fit into a word.
-/

namespace Kei

open Machine

/-- Only the characters of a text are looked at, not all that there are. -/
local instance (priority := 2000) decidableAllChars (l : List Char) (p : Char → Prop)
    [DecidablePred p] : Decidable (∀ c ∈ l, p c) :=
  List.decidableBAll p l

local instance (priority := 2000) decidableOptionChar (o : Option Char) (p : Char → Prop)
    [DecidablePred p] : Decidable (∀ c ∈ o, p c) :=
  Option.decidableForallMem o

/-! ## Numerals -/

namespace Text

theorem numeral?_toDigits {bound n : Nat} (h : n < bound) :
    numeral? bound (Nat.toDigits 10 n) = some n := by
  refine numeral?_eq_some_iff.2 ⟨Nat.toDigits_ne_nil, fun c hc => ?_, ?_, h⟩
  · exact Nat.isDigit_of_mem_toDigits (by decide) (by decide) hc
  · exact Nat.ofDigitChars_ten_toDigits

/-- Digits carry no sign. -/
theorem count?_of_isDigit {cs : List Char} (h : ∀ c ∈ cs, c.isDigit) :
    count? cs = numeral? (1 <<< 64) cs := by
  cases cs with
  | nil => rfl
  | cons c cs =>
    have hc : c ≠ '+' := fun hc => absurd (h c List.mem_cons_self) (by simp [hc])
    simp [count?, hc]

theorem word?_of_isDigit {cs : List Char} (h : ∀ c ∈ cs, c.isDigit) :
    word? cs = (numeral? (1 <<< 63) cs).map fun n : Nat => Int64.ofInt n := by
  cases cs with
  | nil => rfl
  | cons c cs =>
    have hp : c ≠ '+' := fun hc => absurd (h c List.mem_cons_self) (by simp [hc])
    have hm : c ≠ '-' := fun hc => absurd (h c List.mem_cons_self) (by simp [hc])
    rw [word?]
    · cases numeral? (1 <<< 63) (c :: cs) <;> rfl
    · exact fun _ h => hm (List.cons.inj h).1
    · exact fun _ h => hp (List.cons.inj h).1

end Text

/-! ## The operation of an instruction -/

namespace Instr

/-- The operation that the machine reads from the line of an instruction. -/
def op? : Instr → Option Op
  | global => none
  | start => some (.label "_start")
  | label n => some (.label (labelName n))
  | note _ => none
  | load dst v => some (.mov (.register dst.name) (.number ((Text.word? v.toList).getD 0)))
  | store n => some (.mov (.slot n) (.register "rax"))
  | push src => some (.push (.register src.name))
  | pushSlot n => some (.push (.slot n))
  | pop dst => some (.pop (.register dst.name))
  | release n => some (.release (.number (Int64.ofInt n)))
  | add => some (.arith .add (.register "rax") (.register "rbx"))
  | sub => some (.arith .sub (.register "rax") (.register "rbx"))
  | mul => some (.arith .mul (.register "rax") (.register "rbx"))
  | signExtend => some .signExtend
  | div => some (.div (.register "rbx"))
  | test => some (.test (.register "rax") (.register "rax"))
  | jumpZero n => some (.jumpZero (some (labelName n)))
  | jump n => some (.jump (some (labelName n)))
  | syscall => some .syscall

/-- A text without line ends. -/
def Unbroken (s : String) : Prop :=
  ∀ c ∈ s.toList, c ≠ '\n' ∧ c ≠ '\r'

instance (s : String) : Decidable (Unbroken s) :=
  inferInstanceAs (Decidable (∀ c ∈ s.toList, c ≠ '\n' ∧ c ≠ '\r'))

/-- The numbers of an instruction fit into a word, and a remark takes one line. -/
def Readable : Instr → Prop
  | load _ v => (Text.numeral? (1 <<< 63) v.toList).isSome
  | store n | pushSlot n => n < 1 <<< 64
  | release n => n < 1 <<< 63
  | note t => Unbroken t
  | _ => True

instance : ∀ i : Instr, Decidable i.Readable
  | load _ v => inferInstanceAs (Decidable (Text.numeral? (1 <<< 63) v.toList).isSome)
  | store n | pushSlot n => inferInstanceAs (Decidable (n < 1 <<< 64))
  | release n => inferInstanceAs (Decidable (n < 1 <<< 63))
  | note t => inferInstanceAs (Decidable (Unbroken t))
  | global | start | label _ | push _ | pop _ | add | sub | mul | signExtend | div | test
  | jumpZero _ | jump _ | syscall => isTrue trivial

end Instr

/-- The operations of code. -/
def ops (code : List Instr) : List Machine.Op :=
  code.filterMap Instr.op?

namespace Machine

/-! ## Lines -/

/-- The operation of a line, if it holds one. -/
def readLine? (cs : List Char) : Option Op :=
  if isIdle (Text.trim cs) then none else some (Op.ofLine (Text.trim cs))

theorem operations_eq (text : String) :
    operations text = (Text.lines text.toList).filterMap readLine? := by
  rw [operations]
  generalize Text.lines text.toList = ls
  induction ls with
  | nil => rfl
  | cons l ls ih =>
    by_cases h : isIdle (Text.trim l) <;> simp_all [readLine?]

end Machine

namespace Text

theorem dropWhile_eq_self {p : α → Bool} {l : List α} (h : ∀ a ∈ l.head?, p a = false) :
    l.dropWhile p = l := by
  cases l with
  | nil => rfl
  | cons a l => simp [h a rfl]

/-- Trimming removes white space before a text that has none at either end. -/
theorem trim_append {spaces cs : List Char} (hs : ∀ c ∈ spaces, isWhite c)
    (hfirst : ∀ c ∈ cs.head?, isWhite c = false) (hlast : ∀ c ∈ cs.getLast?, isWhite c = false) :
    trim (spaces ++ cs) = cs := by
  have hstart : trimStart (spaces ++ cs) = cs := by
    rw [trimStart, List.dropWhile_append_of_pos hs]
    exact dropWhile_eq_self hfirst
  rw [trim, hstart, trimEnd, dropWhile_eq_self (by rwa [List.head?_reverse]), List.reverse_reverse]

/-- Trimming keeps a beginning that ends in no white space. -/
theorem trimEnd_append {cs : List Char} (rest : List Char)
    (h : ∀ c ∈ cs.getLast?, isWhite c = false) :
    ∃ rest', rest' <+: rest ∧ trimEnd (cs ++ rest) = cs ++ rest' := by
  rw [trimEnd, List.reverse_append, List.dropWhile_append]
  split
  · refine ⟨[], List.nil_prefix, ?_⟩
    rw [dropWhile_eq_self (by rwa [List.head?_reverse])]
    simp
  · refine ⟨(rest.reverse.dropWhile isWhite).reverse, ?_, by simp⟩
    rw [← List.reverse_suffix, List.reverse_reverse]
    exact List.dropWhile_suffix isWhite

end Text

namespace Machine

/-! ## Operands -/

theorem argumentsFrom_append {cs : List Char} (h : ∀ c ∈ cs, c ≠ ',') (ended : List (List Char))
    (read rest : List Char) :
    argumentsFrom ended read (cs ++ rest) = argumentsFrom ended (cs.reverse ++ read) rest := by
  induction cs generalizing read with
  | nil => rfl
  | cons c cs ih =>
    have hc : c ≠ ',' := h c List.mem_cons_self
    rw [List.cons_append, argumentsFrom, ih (fun c hc => h c (List.mem_cons_of_mem _ hc))]
    · simp
    · rintro rest rfl
      simp at hc

theorem arguments_one {a : List Char} (h : ∀ c ∈ a, c ≠ ',') (hne : a ≠ []) :
    arguments a = [a] := by
  have hread := argumentsFrom_append h [] [] []
  simp only [List.append_nil] at hread
  simp [arguments, hread, argumentsFrom, hne]

theorem arguments_two {a b : List Char} (ha : ∀ c ∈ a, c ≠ ',') (hb : ∀ c ∈ b, c ≠ ',')
    (hane : a ≠ []) (hbne : b ≠ []) : arguments (a ++ ", ".toList ++ b) = [a, b] := by
  have hreada := argumentsFrom_append ha [] [] (", ".toList ++ b)
  have hreadb := argumentsFrom_append hb [a] [] []
  simp only [List.append_nil] at hreada hreadb
  have hcomma : ", ".toList ++ b = ',' :: ' ' :: b := rfl
  rw [arguments, List.append_assoc, hreada, hcomma, argumentsFrom, List.reverse_reverse, hreadb]
  simp [argumentsFrom, hane, hbne]

/-- A slot may have a size mark. -/
theorem slotText?_sized (cs : List Char) : slotText? ("QWORD ".toList ++ cs) = slotText? cs := rfl

theorem slotText?_slot (cs : List Char) :
    slotText? ("[rsp + ".toList ++ cs ++ "]".toList) = some cs := by
  have hstart : stripStart? "[rsp + ".toList ("[rsp + ".toList ++ cs ++ "]".toList) =
      some (cs ++ "]".toList) := rfl
  have hsize : stripSize ("[rsp + ".toList ++ cs ++ "]".toList) =
      "[rsp + ".toList ++ cs ++ "]".toList := rfl
  rw [slotText?, hsize, hstart]
  simp [stripLast?]

theorem Operand.ofText_slot {cs : List Char} {n : Nat} (hn : n < 1 <<< 64)
    (h : slotText? cs = some (Nat.toDigits 10 n)) : Operand.ofText cs = .slot n := by
  have hdigits : ∀ c ∈ Nat.toDigits 10 n, c.isDigit := fun c hc =>
    Nat.isDigit_of_mem_toDigits (by decide) (by decide) hc
  simp only [Operand.ofText, h, Text.count?_of_isDigit hdigits, Text.numeral?_toDigits hn]

theorem Operand.ofText_number {cs : List Char} {n : Nat}
    (h : Text.numeral? (1 <<< 63) cs = some n) : Operand.ofText cs = .number (Int64.ofInt n) := by
  obtain ⟨hne, hdigits, -, -⟩ := Text.numeral?_eq_some_iff.1 h
  have hslot : slotText? cs = none := by
    cases cs with
    | nil => rfl
    | cons c cs =>
      have hq : c ≠ 'Q' := fun hc => absurd (hdigits c List.mem_cons_self) (by simp [hc])
      have hb : c ≠ '[' := fun hc => absurd (hdigits c List.mem_cons_self) (by simp [hc])
      simp [slotText?, stripSize, hq, stripStart?, Ne.symm hb]
  simp only [Operand.ofText, hslot, Text.word?_of_isDigit hdigits, h, Option.map_some]

/-! ## Operations -/

/-- A line that begins with the name is neither a remark nor a directive. -/
def IsName (name : List Char) : Prop :=
  name ≠ [] ∧ ∀ c ∈ name, c ≠ ' ' ∧ c ≠ ';' ∧ c ≠ 'g' ∧ Text.isWhite c = false

instance (name : List Char) : Decidable (IsName name) :=
  inferInstanceAs (Decidable (name ≠ [] ∧ ∀ c ∈ name, _))

/-- A line that ends with the text is not a label, and trimming keeps its end. -/
def IsEnd (cs : List Char) : Prop :=
  cs ≠ [] ∧ ∀ c ∈ cs.getLast?, c ≠ ':' ∧ Text.isWhite c = false

instance (cs : List Char) : Decidable (IsEnd cs) :=
  inferInstanceAs (Decidable (cs ≠ [] ∧ ∀ c ∈ cs.getLast?, _))

theorem IsEnd.append {cs : List Char} (h : IsEnd cs) (before : List Char) :
    IsEnd (before ++ cs) := by
  obtain ⟨hne, hlast⟩ := h
  refine ⟨List.append_ne_nil_of_right_ne_nil before hne, ?_⟩
  rwa [List.getLast?_append_of_ne_nil before hne]

/-- The operation of an indented line is made of its name and its arguments. -/
theorem readLine?_indented {name rest : List Char} (hname : IsName name) (hend : IsEnd rest) :
    readLine? ("    ".toList ++ (name ++ ' ' :: rest)) =
      some (.ofParts (String.ofList name) (arguments rest)) := by
  obtain ⟨hne, hname⟩ := hname
  obtain ⟨c, name, rfl⟩ := List.exists_cons_of_ne_nil hne
  obtain ⟨-, hremark, hdirective, hfirst⟩ := hname c List.mem_cons_self
  have hlast := (hend.append (c :: name ++ [' '])).2
  rw [List.append_assoc, List.singleton_append] at hlast
  have htrim : Text.trim ("    ".toList ++ (c :: name ++ ' ' :: rest)) = c :: name ++ ' ' :: rest :=
    Text.trim_append (by decide) (by simpa using hfirst) fun d hd => (hlast d hd).2
  have hidle : isIdle (c :: name ++ ' ' :: rest) = false := by
    simp [isIdle, List.isPrefixOf, Ne.symm hremark, Ne.symm hdirective]
  have hcolon : (c :: name ++ ' ' :: rest).getLast? ≠ some ':' := fun h => (hlast ':' h).1 rfl
  have hsplit : ∀ d ∈ c :: name, decide (d ≠ ' ') = true := fun d hd => by simp [hname d hd]
  rw [readLine?, htrim, hidle]
  simp only [Op.ofLine, stripLast?, hcolon, if_false, List.takeWhile_append_of_pos hsplit,
    List.dropWhile_append_of_pos hsplit]
  simp

theorem readLine?_one {name a : List Char} (hname : IsName name) (ha : ∀ c ∈ a, c ≠ ',')
    (hend : IsEnd a) :
    readLine? ("    ".toList ++ (name ++ ' ' :: a)) = some (.ofParts (String.ofList name) [a]) := by
  rw [readLine?_indented hname hend, arguments_one ha hend.1]

theorem readLine?_two {name a b : List Char} (hname : IsName name) (hne : a ≠ [])
    (ha : ∀ c ∈ a, c ≠ ',') (hb : ∀ c ∈ b, c ≠ ',') (hend : IsEnd b) :
    readLine? ("    ".toList ++ (name ++ ' ' :: (a ++ ", ".toList ++ b))) =
      some (.ofParts (String.ofList name) [a, b]) := by
  rw [readLine?_indented hname (hend.append _), arguments_two ha hb hne hend.1]

end Machine

namespace Instr

theorem toList_toString (n : Nat) : (toString n).toList = Nat.toDigits 10 n := by
  simp [Nat.toString_eq_repr, Nat.toList_repr]

theorem isDigit_of_mem_toDigits {n : Nat} {c : Char} (h : c ∈ Nat.toDigits 10 n) : c.isDigit :=
  Nat.isDigit_of_mem_toDigits (by decide) (by decide) h

theorem ne_of_isDigit {c d : Char} (hc : c.isDigit) (hd : d.isDigit = false) : c ≠ d := by
  rintro rfl
  simp [hd] at hc

theorem isWhite_of_isDigit {c : Char} (h : c.isDigit) : Text.isWhite c = false := by
  simp only [Char.isDigit, Bool.and_eq_true, decide_eq_true_eq, UInt32.le_iff_toNat_le] at h
  simp only [Text.isWhite, ← UInt32.toNat_inj, Bool.or_eq_false_iff, Bool.and_eq_false_iff,
    beq_eq_false_iff_ne, ne_eq, decide_eq_false_iff_not, UInt32.le_iff_toNat_le]
  simp at h ⊢
  omega

theorem isEnd_of_isDigit {cs : List Char} (hne : cs ≠ []) (h : ∀ c ∈ cs, c.isDigit) : IsEnd cs := by
  refine ⟨hne, fun c hc => ?_⟩
  have hdigit := h c (List.mem_of_getLast? hc)
  exact ⟨ne_of_isDigit hdigit rfl, isWhite_of_isDigit hdigit⟩

theorem ofText_register (r : Reg) : Operand.ofText r.name.toList = .register r.name := by
  cases r <;> rfl

theorem toList_margin (name : String) : ("" ++ (name ++ ":")).toList = name.toList ++ [':'] := by
  simp

theorem toList_one (word a : String) :
    ("    " ++ (word ++ a)).toList = "    ".toList ++ (word.toList ++ a.toList) := by
  simp

theorem toList_two (word a b : String) :
    ("    " ++ (word ++ a ++ ", " ++ b)).toList =
      "    ".toList ++ (word.toList ++ (a.toList ++ ", ".toList ++ b.toList)) := by
  simp

theorem toList_number (word rest : String) (n : Nat) :
    ("    " ++ (word ++ toString n ++ rest)).toList =
      "    ".toList ++ (word.toList ++ (Nat.toDigits 10 n ++ rest.toList)) := by
  simp

/-- The text of a stack slot has no comma. -/
theorem ne_comma_of_mem_slot {n : Nat} :
    ∀ c ∈ "[rsp + ".toList ++ Nat.toDigits 10 n ++ "]".toList, c ≠ ',' := by
  refine List.forall_mem_append.2 ⟨List.forall_mem_append.2 ⟨by decide, ?_⟩, by decide⟩
  exact fun c hc => ne_of_isDigit (isDigit_of_mem_toDigits hc) rfl

theorem toList_labelName (n : Nat) :
    (labelName n).toList = "label".toList ++ Nat.toDigits 10 n := by
  rw [labelName, String.toList_append, toList_toString]

theorem readLine?_label (n : Nat) :
    readLine? (indent (.label n) ++ text (.label n)).toList = some (.label (labelName n)) := by
  have htext : (indent (.label n) ++ text (.label n)).toList =
      [] ++ ((labelName n).toList ++ [':']) :=
    toList_margin (labelName n)
  have htrim : Text.trim ([] ++ ((labelName n).toList ++ [':'])) = (labelName n).toList ++ [':'] :=
    Text.trim_append (by decide) (by rw [toList_labelName]; simp; decide) (by simp; decide)
  have hidle : isIdle ((labelName n).toList ++ [':']) = false := by
    rw [toList_labelName]
    rfl
  rw [readLine?, htext, htrim, hidle]
  simp [Machine.Op.ofLine, stripLast?]

theorem readLine?_note (t : String) :
    readLine? (indent (.note t) ++ text (.note t)).toList = none := by
  have htext : (indent (.note t) ++ text (.note t)).toList =
      "    ".toList ++ (";; ".toList ++ t.toList) := toList_one ";; " t
  have hstart : Text.trimStart ("    ".toList ++ (";; ".toList ++ t.toList)) =
      ";;".toList ++ ' ' :: t.toList := rfl
  have hsemi : ∀ c ∈ ";;".toList.getLast?, Text.isWhite c = false := by decide
  obtain ⟨rest, -, hend⟩ := Text.trimEnd_append (' ' :: t.toList) hsemi
  have hidle : isIdle (";;".toList ++ rest) = true := rfl
  rw [readLine?, htext, Text.trim, hstart, hend, hidle]
  rfl

theorem readLine?_load (dst : Reg) {v : String} {n : Nat}
    (h : Text.numeral? (1 <<< 63) v.toList = some n) :
    readLine? (indent (.load dst v) ++ text (.load dst v)).toList =
      some (.mov (.register dst.name) (.number ((Text.word? v.toList).getD 0))) := by
  obtain ⟨hne, hdigits, -, -⟩ := Text.numeral?_eq_some_iff.1 h
  have htext : (indent (.load dst v) ++ text (.load dst v)).toList =
      "    ".toList ++ ("mov".toList ++ ' ' :: (dst.name.toList ++ ", ".toList ++ v.toList)) :=
    toList_two "mov " dst.name v
  have hdst : dst.name.toList ≠ [] ∧ ∀ c ∈ dst.name.toList, c ≠ ',' := by
    cases dst <;> decide
  have hv : ∀ c ∈ v.toList, c ≠ ',' := fun c hc => ne_of_isDigit (hdigits c hc) rfl
  rw [htext, readLine?_two (by decide) hdst.1 hdst.2 hv (isEnd_of_isDigit hne hdigits)]
  show some (Machine.Op.mov (.ofText _) (.ofText _)) = _
  rw [ofText_register, Operand.ofText_number h, Text.word?_of_isDigit hdigits, h]
  rfl

theorem readLine?_store {n : Nat} (h : n < 1 <<< 64) :
    readLine? (indent (.store n) ++ text (.store n)).toList =
      some (.mov (.slot n) (.register "rax")) := by
  have htext : (indent (.store n) ++ text (.store n)).toList = "    ".toList ++ ("mov".toList ++
      ' ' :: (("[rsp + ".toList ++ Nat.toDigits 10 n ++ "]".toList) ++ ", ".toList ++
        "rax".toList)) :=
    (toList_number "mov [rsp + " "], rax" n).trans (by simp)
  rw [htext, readLine?_two (by decide) (by simp) ne_comma_of_mem_slot (by decide) (by decide)]
  show some (Machine.Op.mov (.ofText _) (.ofText _)) = _
  rw [Operand.ofText_slot h (slotText?_slot _)]
  rfl

theorem readLine?_pushSlot {n : Nat} (h : n < 1 <<< 64) :
    readLine? (indent (.pushSlot n) ++ text (.pushSlot n)).toList = some (.push (.slot n)) := by
  have htext : (indent (.pushSlot n) ++ text (.pushSlot n)).toList = "    ".toList ++
      ("push".toList ++ ' ' ::
        ("QWORD ".toList ++ ("[rsp + ".toList ++ Nat.toDigits 10 n ++ "]".toList))) :=
    (toList_number "push QWORD [rsp + " "]" n).trans (by simp)
  have hcomma : ∀ c ∈ "QWORD ".toList ++ ("[rsp + ".toList ++ Nat.toDigits 10 n ++ "]".toList),
      c ≠ ',' :=
    List.forall_mem_append.2 ⟨by decide, ne_comma_of_mem_slot⟩
  have hbracket : IsEnd "]".toList := by decide
  rw [htext, readLine?_one (by decide) hcomma ((hbracket.append _).append _)]
  show some (Machine.Op.push (.ofText _)) = _
  rw [Operand.ofText_slot h ((slotText?_sized _).trans (slotText?_slot _))]

theorem readLine?_release {n : Nat} (h : n < 1 <<< 63) :
    readLine? (indent (.release n) ++ text (.release n)).toList =
      some (.release (.number (Int64.ofInt n))) := by
  have hdigits : ∀ c ∈ Nat.toDigits 10 n, c.isDigit := fun c hc => isDigit_of_mem_toDigits hc
  have htext : (indent (.release n) ++ text (.release n)).toList = "    ".toList ++
      ("add".toList ++ ' ' :: ("rsp".toList ++ ", ".toList ++ Nat.toDigits 10 n)) :=
    (toList_one "add rsp, " (toString n)).trans (by simp)
  rw [htext, readLine?_two (by decide) (by decide) (by decide)
    (fun c hc => ne_of_isDigit (hdigits c hc) rfl) (isEnd_of_isDigit Nat.toDigits_ne_nil hdigits)]
  show some (Machine.Op.release (.ofText _)) = _
  rw [Operand.ofText_number (Text.numeral?_toDigits h)]

/-- A jump of either kind names its label. -/
theorem readLine?_jump (n : Nat) {name : List Char} (hname : IsName name) :
    readLine? ("    ".toList ++ (name ++ ' ' :: (labelName n).toList)) =
      some (.ofParts (String.ofList name) [(labelName n).toList]) := by
  have hdigits : ∀ c ∈ Nat.toDigits 10 n, c.isDigit := fun c hc => isDigit_of_mem_toDigits hc
  rw [toList_labelName]
  refine readLine?_one hname ?_ ((isEnd_of_isDigit Nat.toDigits_ne_nil hdigits).append _)
  refine List.forall_mem_append.2 ⟨by decide, fun c hc => ?_⟩
  exact ne_of_isDigit (hdigits c hc) rfl

/-- The machine reads each line as the operation of its instruction. -/
theorem readLine?_line {i : Instr} (h : i.Readable) :
    readLine? (i.indent ++ i.text).toList = i.op? := by
  cases i with
  | global => rfl
  | start => rfl
  | label n => exact readLine?_label n
  | note t => exact readLine?_note t
  | load dst v =>
    obtain ⟨n, hn⟩ := Option.isSome_iff_exists.1 h
    exact readLine?_load dst hn
  | store n => exact readLine?_store h
  | push src =>
    rw [show (indent (.push src) ++ text (.push src)).toList = _ from toList_one "push " src.name]
    cases src <;> rfl
  | pushSlot n => exact readLine?_pushSlot h
  | pop dst =>
    rw [show (indent (.pop dst) ++ text (.pop dst)).toList = _ from toList_one "pop " dst.name]
    cases dst <;> rfl
  | release n => exact readLine?_release h
  | add => rfl
  | sub => rfl
  | mul => rfl
  | signExtend => rfl
  | div => rfl
  | test => rfl
  | jumpZero n =>
    rw [show (indent (.jumpZero n) ++ text (.jumpZero n)).toList = _ from
      toList_one "jz " (labelName n)]
    have hline := readLine?_jump n (show IsName "jz".toList by decide)
    refine hline.trans ?_
    show some (Machine.Op.jumpZero (some (String.ofList _))) = _
    rw [String.ofList_toList]
    rfl
  | jump n =>
    rw [show (indent (.jump n) ++ text (.jump n)).toList = _ from
      toList_one "jmp " (labelName n)]
    have hline := readLine?_jump n (show IsName "jmp".toList by decide)
    refine hline.trans ?_
    show some (Machine.Op.jump (some (String.ofList _))) = _
    rw [String.ofList_toList]
    rfl
  | syscall => rfl

/-! ## Whole texts -/

theorem Unbroken.append {a b : String} (ha : Unbroken a) (hb : Unbroken b) : Unbroken (a ++ b) := by
  intro c hc
  rw [String.toList_append, List.mem_append] at hc
  exact hc.elim (ha c) (hb c)

theorem unbroken_of_isDigit {s : String} (h : ∀ c ∈ s.toList, c.isDigit) : Unbroken s :=
  fun c hc => ⟨ne_of_isDigit (h c hc) rfl, ne_of_isDigit (h c hc) rfl⟩

theorem unbroken_toString (n : Nat) : Unbroken (toString n) := by
  refine unbroken_of_isDigit fun c hc => ?_
  rw [toList_toString] at hc
  exact isDigit_of_mem_toDigits hc

theorem unbroken_labelName (n : Nat) : Unbroken (labelName n) :=
  .append (by decide) (unbroken_toString n)

theorem unbroken_regName (r : Reg) : Unbroken r.name := by
  cases r <;> decide

theorem unbroken_indent (i : Instr) : Unbroken i.indent := by
  unfold indent
  split <;> decide

/-- What an instruction spells itself has no line ends. -/
def OneLine : Instr → Prop
  | load _ v => Unbroken v
  | note t => Unbroken t
  | _ => True

theorem Readable.oneLine {i : Instr} (h : i.Readable) : i.OneLine := by
  cases i with
  | load dst v =>
    obtain ⟨n, hn⟩ := Option.isSome_iff_exists.1 h
    exact unbroken_of_isDigit (Text.numeral?_eq_some_iff.1 hn).2.1
  | note t => exact h
  | _ => trivial

theorem unbroken_text {i : Instr} (h : i.OneLine) : Unbroken i.text := by
  cases i with
  | label n => exact (unbroken_labelName n).append (by decide)
  | note t => exact .append (by decide) h
  | load dst v =>
    refine .append (.append ?_ (by decide)) h
    exact .append (by decide) (unbroken_regName dst)
  | store n => exact .append (.append (by decide) (unbroken_toString n)) (by decide)
  | push src => exact .append (by decide) (unbroken_regName src)
  | pushSlot n => exact .append (.append (by decide) (unbroken_toString n)) (by decide)
  | pop dst => exact .append (by decide) (unbroken_regName dst)
  | release n => exact .append (by decide) (unbroken_toString n)
  | jumpZero n => exact .append (by decide) (unbroken_labelName n)
  | jump n => exact .append (by decide) (unbroken_labelName n)
  | _ => decide

theorem toList_print (code : List Instr) :
    (print code.toArray).toList =
      (code.map fun i => (i.indent ++ i.text).toList).flatMap (· ++ ['\n']) := by
  suffices ∀ out : String, (code.foldl (fun out i => out ++ i.line) out).toList =
      out.toList ++ (code.map fun i => (i.indent ++ i.text).toList).flatMap (· ++ ['\n']) by
    simpa [print] using this ""
  induction code with
  | nil => simp
  | cons i code ih =>
    intro out
    rw [List.foldl_cons, ih]
    simp [line]

end Instr

/-- Code that spells no line ends itself is printed one line an instruction. -/
theorem lines_print {code : List Instr} (h : ∀ i ∈ code, i.OneLine) :
    Text.lines (Instr.print code.toArray).toList =
      code.map fun i => (i.indent ++ i.text).toList := by
  rw [Instr.toList_print, Text.lines_flatMap]
  intro l hl
  obtain ⟨i, hi, rfl⟩ := List.mem_map.1 hl
  exact i.unbroken_indent.append (Instr.unbroken_text (h i hi))

/-- The machine finds the operations of code in its text. -/
theorem operations_print {code : List Instr} (h : ∀ i ∈ code, i.Readable) :
    operations (Instr.print code.toArray) = ops code := by
  rw [operations_eq, lines_print fun i hi => (h i hi).oneLine, List.filterMap_map, ops]
  refine List.filterMap_congr fun i hi => ?_
  exact Instr.readLine?_line (h i hi)

end Kei

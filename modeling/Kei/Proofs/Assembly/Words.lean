import Kei.Proofs.Assembly.Lines

/-!
# First words of lines

The first word of a line tells what kind of instruction it is: how often a word begins a line of a
printed text is how often code holds an instruction of that mnemonic. The lines that drop variables
are told by their first two words.
-/

namespace Kei

/-- Trimming keeps the first word of a line. -/
theorem Text.takeWhile_trim {spaces word rest : List Char} (hspaces : ∀ c ∈ spaces, isWhite c)
    (hne : word ≠ []) (hword : ∀ c ∈ word, isWhite c = false) (hrest : ∀ c ∈ rest.head?, c = ' ') :
    (trim (spaces ++ (word ++ rest))).takeWhile (· ≠ ' ') = word := by
  obtain ⟨c, word, rfl⟩ := List.exists_cons_of_ne_nil hne
  have hstart : trimStart (spaces ++ (c :: word ++ rest)) = c :: word ++ rest := by
    rw [trimStart, List.dropWhile_append_of_pos hspaces]
    exact dropWhile_eq_self (by simpa using hword c List.mem_cons_self)
  obtain ⟨tail, hprefix, htail⟩ := trimEnd_append rest fun d hd =>
    hword d (List.mem_of_getLast? hd)
  have hblank : ∀ d ∈ c :: word, decide (d ≠ ' ') = true := by
    intro d hd
    have hwhite := hword d hd
    refine decide_eq_true ?_
    rintro rfl
    cases hwhite
  rw [trim, hstart, htail, List.takeWhile_append_of_pos hblank]
  cases tail with
  | nil => simp
  | cons d tail =>
    obtain ⟨rest, rfl⟩ := hprefix
    obtain rfl := hrest d rfl
    simp

namespace Machine

/-- The first word of a line. -/
def firstWord (line : List Char) : String :=
  String.ofList (line.takeWhile (· ≠ ' '))

/-- How many lines of a text begin with a word. -/
def countWord (word text : String) : Nat :=
  (trimmedLines text).countP (firstWord · = word)

end Machine

namespace Instr

/-- The first word of the text of an instruction. -/
def mnemonic : Instr → String
  | global => "global"
  | start => "_start:"
  | label n => labelName n ++ ":"
  | note _ => ";;"
  | load _ _ | store _ => "mov"
  | push _ | pushSlot _ => "push"
  | pop _ => "pop"
  | release _ | add => "add"
  | sub => "sub"
  | mul => "imul"
  | signExtend => "cqo"
  | div => "idiv"
  | test => "test"
  | jumpZero _ => "jz"
  | jump _ => "jmp"
  | syscall => "syscall"

/-- A text begins with a word and a blank. -/
def Begins (word text : String) : Prop :=
  ∃ rest, text.toList = word.toList ++ ' ' :: rest

theorem Begins.append {word text : String} (h : Begins word text) (more : String) :
    Begins word (text ++ more) := by
  obtain ⟨rest, h⟩ := h
  refine ⟨rest ++ more.toList, ?_⟩
  rw [String.toList_append, h, List.append_assoc, List.cons_append]

theorem begins_text (i : Instr) : i.text = i.mnemonic ∨ Begins i.mnemonic i.text := by
  have hword (word : String) : Begins word (word ++ " ") := ⟨[], by rw [String.toList_append]; rfl⟩
  cases i with
  | label n => exact .inl rfl
  | start | syscall | signExtend => exact .inl rfl
  | global => exact .inr ⟨_, rfl⟩
  | add | sub | mul | div | test => exact .inr ⟨_, rfl⟩
  | note t => exact .inr ((hword ";;").append t)
  | load dst v => exact .inr ((((hword "mov").append dst.name).append ", ").append v)
  | store n =>
    have hslot : Begins "mov" "mov [rsp + " := (hword "mov").append "[rsp + "
    exact .inr ((hslot.append (toString n)).append "], rax")
  | push src => exact .inr ((hword "push").append src.name)
  | pushSlot n =>
    have hslot : Begins "push" "push QWORD [rsp + " := (hword "push").append "QWORD [rsp + "
    exact .inr ((hslot.append (toString n)).append "]")
  | pop dst => exact .inr ((hword "pop").append dst.name)
  | release n =>
    have hrsp : Begins "add" "add rsp, " := (hword "add").append "rsp, "
    exact .inr (hrsp.append (toString n))
  | jumpZero n => exact .inr ((hword "jz").append (labelName n))
  | jump n => exact .inr ((hword "jmp").append (labelName n))

theorem all_not_isWhite_mnemonic (i : Instr) : i.mnemonic.toList.all (!Text.isWhite ·) := by
  cases i with
  | label n =>
    rw [mnemonic, String.toList_append, toList_labelName]
    rw [List.all_append, List.all_append, Bool.and_eq_true, Bool.and_eq_true]
    refine ⟨⟨rfl, List.all_eq_true.2 fun c hc => ?_⟩, rfl⟩
    rw [isWhite_of_isDigit (isDigit_of_mem_toDigits hc)]
    rfl
  | _ => simp only [mnemonic]; decide

/-- The first word of the line of an instruction is its mnemonic. -/
theorem firstWord_trimmed (i : Instr) : Machine.firstWord i.trimmed = i.mnemonic := by
  have hwhite : ∀ c ∈ i.mnemonic.toList, Text.isWhite c = false := by
    simpa using i.all_not_isWhite_mnemonic
  have hne : i.mnemonic.toList ≠ [] := by
    cases i <;> simp [mnemonic, String.toList_eq_nil_iff]
  obtain ⟨rest, htext, hrest⟩ :
      ∃ rest, i.text.toList = i.mnemonic.toList ++ rest ∧ ∀ c ∈ rest.head?, c = ' ' := by
    rcases i.begins_text with htext | ⟨rest, htext⟩
    · exact ⟨[], by rw [htext, List.append_nil], by simp⟩
    · exact ⟨_, htext, by simp⟩
  rw [Machine.firstWord, trimmed, String.toList_append, htext,
    Text.takeWhile_trim i.isWhite_indent hne hwhite hrest, String.ofList_toList]

/-! ## Releases -/

/-- How many bytes an instruction drops, if it is a release. -/
def release? : Instr → Option Nat
  | release n => some n
  | _ => none

/-- The text of a release. -/
def releaseText (n : Nat) : List Char :=
  ("add rsp, " ++ toString n).toList

theorem trimmed_release (n : Nat) : (release n).trimmed = releaseText n :=
  trimmed_eq fun c hc => ((isEnd_append (isEnd_toString n) "add rsp, ").2 c hc).2

/-- Of the two additions, only releases are to the stack pointer. -/
theorem isPrefixOf_trimmed (i : Instr) :
    "add rsp".toList.isPrefixOf i.trimmed = i.release?.isSome := by
  by_cases hinitial : i.initial = 'a'
  · cases i with
    | release n =>
      rw [trimmed_release, releaseText, String.toList_append]
      rfl
    | add => rfl
    | _ => cases hinitial
  · have hnone : i.release? = none := by
      cases i with
      | release n => exact absurd rfl hinitial
      | _ => rfl
    have hhead := i.head?_trimmed
    obtain ⟨rest, hrest⟩ := List.head?_eq_some_iff.1 hhead
    rw [hnone, hrest]
    show (('a' == i.initial) && _) = false
    rw [beq_false_of_ne (Ne.symm hinitial), Bool.false_and]

/-- The lines that drop variables are those of the releases. -/
theorem filter_isPrefixOf_trimmed (code : List Instr) :
    (code.map trimmed).filter ("add rsp".toList.isPrefixOf ·) =
      (code.filterMap release?).map releaseText := by
  induction code with
  | nil => rfl
  | cons i code ih =>
    rw [List.map_cons, List.filter_cons, isPrefixOf_trimmed, List.filterMap_cons, ih]
    cases i with
    | release n =>
      rw [trimmed_release]
      rfl
    | _ => rfl

end Instr
end Kei

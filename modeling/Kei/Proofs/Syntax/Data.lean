import Kei.Proofs.Syntax.Printing
import Kei.Syntax.Datum

/-!
# Printed programs as data

The notation of a tree is the text of its data, so a printed program is the texts of its data, each
on a line (`Block.toList_print`). A datum that stands before a break is read from its text as a
whole (`Datum.Legible.read`): a word ends at a break, and a list where its own parenthesis is
closed, with the lists around it on the stack meanwhile.
-/

namespace Kei

/-! ## The notation as data -/

theorem Expr.text_datum (e : Expr) : e.datum.text = e.sexpr.toList := by
  induction e with
  | int l => rfl
  | ident l => rfl
  | paren e ih => simp [datum, Datum.text, Datum.tailText, sexpr, ih]
  | binary op l r ihl ihr => simp [datum, Datum.text, Datum.tailText, sexpr, ihl, ihr]

mutual

theorem Stmt.text_datum : ∀ s : Stmt, s.datum.text = s.sexpr.toList
  | .exit e => by
    simp [Stmt.datum, Datum.text, Datum.tailText, Stmt.sexpr, e.text_datum]
  | .declare n e => by
    simp [Stmt.datum, Datum.text, Datum.tailText, Stmt.sexpr, e.text_datum]
  | .assign n e => by
    simp [Stmt.datum, Datum.text, Datum.tailText, Stmt.sexpr, e.text_datum]
  | .scope b => by
    simp [Stmt.datum, Datum.text, Stmt.sexpr, Block.tailText_data b]
  | .cond e b c => by
    simp [Stmt.datum, Datum.text, Datum.tailText, Stmt.sexpr, e.text_datum, Block.tailText_data b,
      Chain.tailText_data c]

theorem Block.tailText_data : ∀ b : List Stmt,
    Datum.tailText (Block.data b) = (Block.sexprTail b).toList
  | [] => rfl
  | s :: rest => by
    simp [Block.data, Datum.tailText, Block.sexprTail, Stmt.text_datum s, Block.tailText_data rest]

theorem Chain.tailText_data : ∀ c : Chain, Datum.tailText c.data = c.sexprTail.toList
  | .stop => rfl
  | .elif e b next => by
    simp [Chain.data, Datum.text, Datum.tailText, Chain.sexprTail, e.text_datum,
      Block.tailText_data b, Chain.tailText_data next]
  | .otherwise b => by
    simp [Chain.data, Datum.text, Datum.tailText, Chain.sexprTail, Block.tailText_data b]

end

/-- A printed program is the texts of its data, each on a line. -/
theorem Block.toList_print (p : Block) :
    p.print.toList = (Block.data p).flatMap fun d => d.text ++ ['\n'] := by
  rw [Block.print_eq, Block.sexpr, String.toList_join]
  induction p with
  | nil => rfl
  | cons s rest ih => simp [Block.data, Stmt.text_datum, ih]

/-! ## Reading data -/

namespace Datum

/-- The characters that end a word without opening a list. -/
def IsBreak (c : Char) : Prop :=
  c = ')' ∨ c = ' ' ∨ c = '\n'

instance : DecidablePred IsBreak :=
  fun _ => inferInstanceAs (Decidable (_ ∨ _))

/-- The text goes on with a break. -/
def Breaks (after : List Char) : Prop :=
  ∃ c rest, after = c :: rest ∧ IsBreak c

/-- A word that is read as one. -/
def Plain (w : String) : Prop :=
  w.toList ≠ [] ∧ ∀ c ∈ w.toList, c ≠ '(' ∧ ¬ IsBreak c

instance : DecidablePred Plain :=
  fun w => @instDecidableAnd _ _ _ (List.decidableBAll _ w.toList)

/-- All words of the datum are read as words. -/
inductive Legible : Datum → Prop
  | word : Plain w → Legible (.word w)
  | list : (∀ d ∈ items, d.Legible) → Legible (.list items)

namespace Reading

variable {s : Reading} {c : Char} {after : List Char}

@[simp] theorem letters_push (s : Reading) (d : Datum) : (s.push d).letters = s.letters := rfl

@[simp] theorem endWord_of_letters_eq_nil (h : s.letters = []) : s.endWord = s := by
  rw [endWord, h]

@[simp] theorem outer_endWord (s : Reading) : s.endWord.outer = s.outer := by
  rw [endWord]
  split <;> rfl

theorem letters_endWord (s : Reading) : s.endWord.letters = [] := by
  rw [endWord]
  split
  · assumption
  · rfl

/-- At a break, an unfinished word may as well have been ended before. -/
theorem step_endWord (hc : IsBreak c) (s : Reading) : s.endWord.step c = s.step c := by
  have hend := endWord_of_letters_eq_nil s.letters_endWord
  rcases hc with rfl | rfl | rfl <;> simp [step, hend]

theorem step_letter (h : c ≠ '(' ∧ ¬ IsBreak c) (s : Reading) :
    s.step c = some { s with letters := c :: s.letters } := by
  obtain ⟨hopen, hbreak⟩ := h
  simp only [IsBreak, not_or] at hbreak
  simp [step, hopen, hbreak]

theorem read_letters {cs : List Char} (h : ∀ c ∈ cs, c ≠ '(' ∧ ¬ IsBreak c) (s : Reading) :
    (cs ++ after).foldlM step s =
      after.foldlM step { s with letters := cs.reverse ++ s.letters } := by
  induction cs generalizing s with
  | nil => rfl
  | cons c cs ih =>
    obtain ⟨hc, hcs⟩ := List.forall_mem_cons.1 h
    simp [step_letter hc, ih hcs]

theorem read_word {w : String} (hw : Plain w) (hs : s.letters = []) (hafter : Breaks after) :
    (w.toList ++ after).foldlM step s = after.foldlM step (s.push (.word w)) := by
  obtain ⟨c, rest, rfl, hc⟩ := hafter
  obtain ⟨hne, hletters⟩ := hw
  have hend : { s with letters := w.toList.reverse ++ s.letters }.endWord = s.push (.word w) := by
    cases hw : w.toList.reverse with
    | nil => exact absurd (List.reverse_eq_nil_iff.1 hw) hne
    | cons d ds =>
      have hword : String.ofList (d :: ds).reverse = w := by
        rw [← hw, List.reverse_reverse, String.ofList_toList]
      rw [hs, List.append_nil]
      change push { s with letters := [] } (.word (String.ofList (d :: ds).reverse)) = _
      rw [hword, push, push, hs]
  rw [read_letters hletters, List.foldlM_cons, List.foldlM_cons, ← step_endWord hc, hend]

/-- Data that are each read as a whole are so one after the other. -/
theorem read_tailText {ds : List Datum}
    (h : ∀ d ∈ ds, ∀ (s : Reading) (after : List Char), s.letters = [] → Breaks after →
      (d.text ++ after).foldlM step s = after.foldlM step (s.push d))
    (hs : s.letters = []) (hafter : Breaks after) :
    (tailText ds ++ after).foldlM step s =
      after.foldlM step { s with items := ds.reverse ++ s.items } := by
  induction ds generalizing s with
  | nil => rfl
  | cons d ds ih =>
    obtain ⟨hd, hds⟩ := List.forall_mem_cons.1 h
    have hblank : s.step ' ' = some s := by simp [step, hs]
    have hbreaks : Breaks (tailText ds ++ after) := by
      cases ds with
      | nil => exact hafter
      | cons d ds => exact ⟨_, _, rfl, .inr (.inl rfl)⟩
    rw [tailText, List.cons_append, List.foldlM_cons, hblank, List.append_assoc]
    calc _ = (tailText ds ++ after).foldlM step (s.push d) := hd s _ hs hbreaks
      _ = _ := ih hds hs
      _ = _ := by simp [push]

end Reading

open Reading

/-- A datum that stands before a break is read as a whole. -/
theorem Legible.read {d : Datum} (h : d.Legible) (s : Reading) (after : List Char)
    (hs : s.letters = []) (hafter : Breaks after) :
    (d.text ++ after).foldlM step s = after.foldlM step (s.push d) := by
  induction h generalizing s after with
  | word hw => exact read_word hw hs hafter
  | @list items _ ih =>
    -- the items are read with `s` around them, until the list is closed and pushed
    have hopen : s.step '(' = some { outer := s.items :: s.outer } := by simp [step, hs]
    have hclose : ∀ ds : List Datum,
        (')' :: after).foldlM step { items := ds, outer := s.items :: s.outer } =
          after.foldlM step (s.push (.list ds.reverse)) := by
      intro ds
      simp [step, push, hs]
    cases items with
    | nil =>
      rw [text, List.cons_append, List.foldlM_cons, hopen]
      exact hclose []
    | cons d rest =>
      obtain ⟨hd, hrest⟩ := List.forall_mem_cons.1 ih
      have hbreaks : Breaks (tailText rest ++ ')' :: after) := by
        cases rest with
        | nil => exact ⟨_, _, rfl, .inl rfl⟩
        | cons d rest => exact ⟨_, _, rfl, .inr (.inl rfl)⟩
      rw [text, List.cons_append, List.foldlM_cons, hopen, List.append_assoc, List.append_assoc]
      calc _ = (tailText rest ++ ')' :: after).foldlM step
              { items := [d], outer := s.items :: s.outer } := hd _ _ rfl hbreaks
        _ = (')' :: after).foldlM step
              { items := rest.reverse ++ [d], outer := s.items :: s.outer } :=
            read_tailText hrest rfl ⟨_, _, rfl, .inl rfl⟩
        _ = _ := by rw [hclose, ← List.reverse_cons, List.reverse_reverse]

theorem readAll_lines {ds : List Datum} (h : ∀ d ∈ ds, d.Legible) :
    readAll (ds.flatMap fun d => d.text ++ ['\n']) = some ds := by
  have hread : ∀ s : Reading, s.letters = [] →
      (ds.flatMap fun d => d.text ++ ['\n']).foldlM step s =
        some { s with items := ds.reverse ++ s.items } := by
    induction ds with
    | nil => exact fun s _ => rfl
    | cons d ds ih =>
      obtain ⟨hd, hds⟩ := List.forall_mem_cons.1 h
      intro s hs
      have hline : (s.push d).step '\n' = some (s.push d) := by simp [step, hs]
      rw [List.flatMap_cons, List.append_assoc, List.singleton_append,
        hd.read s _ hs ⟨_, _, rfl, .inr (.inr rfl)⟩, List.foldlM_cons, hline]
      exact (ih hds (s.push d) hs).trans (by simp [push])
  rw [readAll, hread {} rfl]
  simp

end Datum

end Kei

import Kei.Host.Path
import Kei.Proofs.Token.Spelling

/-!
# Names and extensions of paths

The name of a path is what stands behind its last slash, and the extension of the name what stands
behind its last dot. To change the extension is to change nothing else, except where only a dot
would be left of the name.
-/

namespace Kei.Path

/-! ## Cutting behind the last occurrence of a character -/

section

variable {d : Char} {front back : List Char}
variable (hfront : ∀ c ∈ front.getLast?, c = d) (hback : d ∉ back)
include hfront hback

theorem takeWhile_reverse_append :
    (front ++ back).reverse.takeWhile (· ≠ d) = back.reverse := by
  rw [List.reverse_append]
  apply takeWhile_append_of_ends
  · intro c hc
    have hmem := List.mem_reverse.1 hc
    exact decide_eq_true (ne_of_mem_of_not_mem hmem hback)
  · intro c hc
    rw [List.head?_reverse] at hc
    simpa using hfront c hc

theorem dropWhile_reverse_append :
    (front ++ back).reverse.dropWhile (· ≠ d) = front.reverse := by
  rw [List.reverse_append]
  apply dropWhile_append_of_ends
  · intro c hc
    have hmem := List.mem_reverse.1 hc
    exact decide_eq_true (ne_of_mem_of_not_mem hmem hback)
  · intro c hc
    rw [List.head?_reverse] at hc
    simpa using hfront c hc

end

/-- Every text can be cut there. -/
theorem exists_cut (d : Char) (cs : List Char) :
    ∃ front back, cs = front ++ back ∧ (∀ c ∈ front.getLast?, c = d) ∧ d ∉ back := by
  refine ⟨(cs.reverse.dropWhile (· ≠ d)).reverse, (cs.reverse.takeWhile (· ≠ d)).reverse,
    ?_, ?_, ?_⟩
  · rw [← List.reverse_append, List.takeWhile_append_dropWhile, List.reverse_reverse]
  · intro c hc
    rw [List.getLast?_reverse] at hc
    simpa using ends_dropWhile _ _ c hc
  · intro hmem
    simpa using of_mem_takeWhile d (List.mem_reverse.1 hmem)

/-! ## Names -/

/-- A name is split at its last dot if something stands before that. -/
theorem splitName?_eq_some {stem ext : List Char} (hstem : stem ≠ []) (hdot : '.' ∉ ext) :
    splitName? (stem ++ '.' :: ext) = some (stem, ext) := by
  have hname : stem ++ '.' :: ext = (stem ++ ['.']) ++ ext := by simp
  have hlast : ∀ c ∈ (stem ++ ['.']).getLast?, c = '.' := by simp
  unfold splitName?
  simp only [hname, takeWhile_reverse_append hlast hdot, dropWhile_reverse_append hlast hdot]
  obtain ⟨c, rest, hrest⟩ := List.exists_cons_of_ne_nil (List.reverse_ne_nil_iff.2 hstem)
  have hback : stem = (c :: rest).reverse := by rw [← hrest, List.reverse_reverse]
  rw [List.reverse_append, hrest, hback, List.reverse_reverse]
  rfl

theorem splitName?_eq_none {name : List Char}
    (h : ∀ stem ext, stem ≠ [] → '.' ∉ ext → name ≠ stem ++ '.' :: ext) :
    splitName? name = none := by
  obtain ⟨front, back, rfl, hfront, hback⟩ := exists_cut '.' name
  unfold splitName?
  simp only [dropWhile_reverse_append hfront hback]
  rcases hrev : front.reverse with - | ⟨c, stem⟩
  · rfl
  · have hc : c = '.' := by
      apply hfront
      rw [← List.head?_reverse, hrev]
      rfl
    obtain rfl : front = stem.reverse ++ ['.'] := by
      rw [← List.reverse_reverse front, hrev, hc, List.reverse_cons]
    cases stem with
    | nil =>
      rw [hc]
      rfl
    | cons b stem => exact absurd (by simp) (h (b :: stem).reverse back (by simp) hback)

/-! ## Paths -/

/-- The name of the path has the extension `ext` behind `stem`. -/
structure Splits (path : String) (front stem ext : List Char) : Prop where
  eq : path.toList = front ++ (stem ++ '.' :: ext)
  ends_front : ∀ c ∈ front.getLast?, c = '/'
  stem_ne_nil : stem ≠ []
  slash_not_mem : '/' ∉ stem ++ '.' :: ext
  dot_not_mem : '.' ∉ ext

theorem withExtension_eq {path : String} {front name : List Char}
    (hpath : path.toList = front ++ name) (hfront : ∀ c ∈ front.getLast?, c = '/')
    (hname : '/' ∉ name) (ext : String) :
    withExtension path ext = String.ofList (front ++ renameExtension name ext) := by
  unfold withExtension
  simp only [hpath, takeWhile_reverse_append hfront hname, dropWhile_reverse_append hfront hname,
    List.reverse_reverse]

/-- Where a name has an extension, another one takes its place. -/
theorem Splits.withExtension {path : String} {front stem ext : List Char}
    (h : Splits path front stem ext) (hhere : stem ≠ here) (other : String) :
    Path.withExtension path other =
      String.ofList (front ++ if other.isEmpty then stem else stem ++ '.' :: other.toList) := by
  have hsplit := splitName?_eq_some h.stem_ne_nil h.dot_not_mem
  have hstem : Path.stem (stem ++ '.' :: ext) = stem := by rw [Path.stem, hsplit]
  rw [withExtension_eq h.eq h.ends_front h.slash_not_mem, renameExtension, hstem, if_neg hhere]

/-- Where a name has none, its extension cannot be taken away; and where only a dot is left of a
name, it gets none. -/
theorem splits_or_withExtension_eq (path : String) (other : String) :
    (∃ front stem ext, Splits path front stem ext ∧ stem ≠ here) ∨
      withExtension path "" = path ∨ withExtension path other = withExtension path "" := by
  obtain ⟨front, name, hpath, hfront, hname⟩ := exists_cut '/' path.toList
  by_cases hhere : stem name = here
  · right; right
    rw [withExtension_eq hpath hfront hname, withExtension_eq hpath hfront hname, renameExtension,
      renameExtension, if_pos hhere, if_pos hhere]
  · by_cases hsplit : ∃ stem ext, stem ≠ [] ∧ '.' ∉ ext ∧ name = stem ++ '.' :: ext
    · obtain ⟨stem, ext, hstem, hdot, rfl⟩ := hsplit
      rw [Path.stem, splitName?_eq_some hstem hdot] at hhere
      exact .inl ⟨front, stem, ext, ⟨hpath, hfront, hstem, hname, hdot⟩, hhere⟩
    · right; left
      have hnone : splitName? name = none := by
        apply splitName?_eq_none
        intro stem ext hstem hdot heq
        exact hsplit ⟨stem, ext, hstem, hdot, heq⟩
      have hstem : stem name = name := by rw [stem, hnone]
      rw [withExtension_eq hpath hfront hname, renameExtension, if_neg hhere, hstem]
      simp [← hpath]

end Kei.Path

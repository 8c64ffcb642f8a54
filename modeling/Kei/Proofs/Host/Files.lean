import Kei.Host.World
import Kei.Proofs.Basic

/-!
# Writing files

A text is written where a path leads through directories to a name that is not one of a directory
(`Files.write_eq_ok_iff`). It can then be read there (`Files.read_write`), and nothing else changed
(`Files.at?_write_of_ne`). The same way leads to the file afterwards, since only directories are on
it and no file is put in place of a directory.
-/

namespace Kei

/-! ## Parts of paths -/

theorem Text.splitFrom_ne_nil (divider : Char) (ended : List (List Char)) (read cs : List Char) :
    Text.splitFrom divider ended read cs ≠ [] := by
  induction cs generalizing ended read with
  | nil => simp [splitFrom]
  | cons c cs ih =>
    rw [splitFrom]
    split
    · exact ih _ _
    · exact ih _ _

theorem Path.parts_ne_nil (path : String) : parts path ≠ [] :=
  Text.splitFrom_ne_nil _ _ _ _

/-- The last part of a path is a name, and leads neither to the same directory nor to the one
around it. -/
def Path.HasName (path : String) : Prop :=
  ∃ front name, parts path = front ++ [name] ∧ ¬ isIdle name ∧ name ≠ up

theorem Path.exists_parts_eq (path : String) : ∃ front last, parts path = front ++ [last] :=
  ⟨_, _, (List.dropLast_concat_getLast (parts_ne_nil path)).symm⟩

/-- A path with a name does not end in a slash. -/
theorem Path.HasName.dropWhile_eq {path : String} (h : HasName path) :
    ((parts path).reverse.dropWhile (·.isEmpty)).reverse = parts path := by
  obtain ⟨front, name, hparts, hidle, -⟩ := h
  have hname : ¬ name.isEmpty := fun hempty => hidle (by rw [isIdle, hempty]; rfl)
  rw [hparts, List.reverse_append, List.reverse_singleton, List.singleton_append,
    List.dropWhile_cons_of_neg hname, List.reverse_cons, List.reverse_reverse]

/-- What is left of a path without slashes at its end shows whether it has a name. -/
theorem Path.hasName_iff {path : String} :
    let named := ((parts path).reverse.dropWhile (·.isEmpty)).reverse
    HasName path ↔ ¬ (named.length < (parts path).length || isIdle (named.getLastD []) ||
      named.getLastD [] == up) := by
  intro named
  obtain ⟨front, last, hparts⟩ := exists_parts_eq path
  rw [Bool.or_eq_true, Bool.or_eq_true, not_or, not_or, decide_eq_true_eq, beq_iff_eq]
  constructor
  · intro h
    have hnamed : named = parts path := h.dropWhile_eq
    obtain ⟨front', name, hparts', hidle, hup⟩ := h
    rw [hnamed, hparts', List.getLastD_concat]
    exact ⟨⟨Nat.lt_irrefl _, hidle⟩, hup⟩
  · rintro ⟨⟨hlength, hidle⟩, hup⟩
    have hsuffix : named.reverse <:+ (parts path).reverse := by
      rw [List.reverse_reverse]
      exact List.dropWhile_suffix _
    have hnamed : named = parts path := by
      refine (List.reverse_suffix.1 hsuffix).eq_of_length_le ?_
      exact Nat.le_of_not_lt hlength
    rw [hnamed, hparts, List.getLastD_concat] at hidle hup
    exact ⟨front, last, hparts, hidle, hup⟩

namespace Files

variable {files files' : Files} {l l' place : Location} {parts : List (List Char)}
variable {path text : String}

/-! ## Putting a file at a place -/

theorem lookup_filter_of_ne (h : l' ≠ l) (files : Files) :
    (files.filter (·.1 ≠ l)).lookup l' = files.lookup l' := by
  induction files with
  | nil => rfl
  | cons e files ih =>
    obtain ⟨k, entry⟩ := e
    by_cases hk : k = l
    · have hskip : (l' == k) = false := beq_false_of_ne (hk ▸ h)
      rw [List.filter_cons_of_neg (by simpa using hk), List.lookup_cons, hskip, ih]
    · rw [List.filter_cons_of_pos (by simpa using hk), List.lookup_cons, List.lookup_cons, ih]

theorem at?_put_of_ne (h : l ≠ place) (files : Files) (bytes : ByteArray) :
    (files.put place bytes).at? l = files.at? l := by
  have hskip : (l == place) = false := beq_false_of_ne h
  rw [at?, at?, put, List.lookup_cons, hskip, lookup_filter_of_ne h]

theorem at?_put_self (h : files.at? place ≠ some .directory) (bytes : ByteArray) :
    (files.put place bytes).at? place = some (.file bytes) := by
  have hbase : ¬ isBase place := fun hbase => h (if_pos hbase)
  rw [at?, if_neg hbase, put, List.lookup_cons_self]

/-- Directories stay where they are. -/
theorem at?_put_of_directory (h : files.at? place ≠ some .directory)
    (hdir : files.at? l = some .directory) (bytes : ByteArray) :
    (files.put place bytes).at? l = some .directory := by
  have hne : l ≠ place := by
    rintro rfl
    exact h hdir
  rw [at?_put_of_ne hne, hdir]

/-! ## Looking up paths -/

theorem find_eq_ok_iff {part : List Char} {found : Location × Option Entry} :
    files.find l part = .ok found ↔
      Text.utf8Size part ≤ longestPart ∧
        found = (descend l part, files.at? (descend l part)) := by
  unfold find
  split
  · rename_i hlong
    simp [Nat.not_le_of_lt hlong]
  · rename_i hshort
    simp [Nat.le_of_not_lt hshort, eq_comm]

theorem walk_cons_eq_ok_iff {part : List Char} :
    files.walk l (part :: parts) = .ok l' ↔
      Text.utf8Size part ≤ longestPart ∧ files.at? (descend l part) = some .directory ∧
        files.walk (descend l part) parts = .ok l' := by
  rw [walk, bind_eq_ok]
  simp only [find_eq_ok_iff]
  constructor
  · rintro ⟨_, ⟨hshort, rfl⟩, h⟩
    split at h
    · rename_i heq
      obtain ⟨rfl, hdir⟩ := Prod.mk.inj heq
      exact ⟨hshort, hdir, h⟩
    · cases h
    · cases h
  · rintro ⟨hshort, hdir, h⟩
    exact ⟨_, ⟨hshort, rfl⟩, by rwa [hdir]⟩

theorem forall_prefix_cons {p : List (List Char) → Prop} {part : List Char} :
    (∀ front, front <+: part :: parts → p front) ↔
      p [] ∧ ∀ front, front <+: parts → p (part :: front) := by
  simp only [List.prefix_cons_iff]
  constructor
  · intro h
    exact ⟨h [] (.inl rfl), fun front hfront => h _ (.inr ⟨front, rfl, hfront⟩)⟩
  · rintro ⟨hnil, hcons⟩ _ (rfl | ⟨front, rfl, hfront⟩)
    · exact hnil
    · exact hcons front hfront

/-- A walk goes where its parts lead, if every one leads to a directory. -/
theorem walk_eq_ok_iff (hdir : files.at? l = some .directory) :
    files.walk l parts = .ok l' ↔
      (∀ part ∈ parts, Text.utf8Size part ≤ longestPart) ∧
        (∀ front, front <+: parts → files.at? (front.foldl descend l) = some .directory) ∧
        l' = parts.foldl descend l := by
  induction parts generalizing l with
  | nil => simp [walk, hdir, eq_comm]
  | cons part parts ih =>
    rw [walk_cons_eq_ok_iff, List.forall_mem_cons, forall_prefix_cons]
    constructor
    · rintro ⟨hshort, hnext, h⟩
      obtain ⟨hparts, hfronts, rfl⟩ := (ih hnext).1 h
      exact ⟨⟨hshort, hparts⟩, ⟨hdir, hfronts⟩, rfl⟩
    · rintro ⟨⟨hshort, hparts⟩, ⟨-, hfronts⟩, rfl⟩
      have hnext := hfronts [] List.nil_prefix
      exact ⟨hshort, hnext, (ih hnext).2 ⟨hparts, hfronts, rfl⟩⟩

theorem at?_start (files : Files) (path : String) : files.at? (start path) = some .directory := by
  unfold start
  split <;> rfl

/-- The path leads through directories, and neither it nor a part of it is too long. -/
structure Reaches (files : Files) (path : String) : Prop where
  short : path.utf8ByteSize ≤ longestPath
  short_parts : ∀ part ∈ Path.parts path, Text.utf8Size part ≤ longestPart
  directories : ∀ front, front <+: (Path.parts path).dropLast →
    files.at? (front.foldl descend (start path)) = some .directory

theorem Reaches.put (h : files.Reaches path) (hplace : files.at? place ≠ some .directory)
    (bytes : ByteArray) : (files.put place bytes).Reaches path where
  short := h.short
  short_parts := h.short_parts
  directories front hfront := at?_put_of_directory hplace (h.directories front hfront) bytes

theorem enter_eq_ok_iff :
    files.enter path parts = .ok l ↔
      path.utf8ByteSize ≤ longestPath ∧ files.walk (start path) parts.dropLast = .ok l := by
  unfold enter
  split
  · rename_i hlong
    simp [Nat.not_le_of_lt hlong]
  · rename_i hshort
    simp [Nat.le_of_not_lt hshort]

/-- A path is looked up at its place, if it leads there through directories. -/
theorem lookUp_eq_ok_iff {found : Location × Option Entry} :
    (files.enter path (Path.parts path) >>= fun l =>
      files.find l ((Path.parts path).getLastD [])) = .ok found ↔
      files.Reaches path ∧ found = (placeOf path, files.at? (placeOf path)) := by
  obtain ⟨front, last, hparts⟩ := Path.exists_parts_eq path
  have hdropLast : (Path.parts path).dropLast = front := by rw [hparts, List.dropLast_concat]
  have hplace : placeOf path = descend (front.foldl descend (start path)) last := by
    rw [placeOf, hparts, List.foldl_append]
    rfl
  have hshort : (∀ part ∈ Path.parts path, Text.utf8Size part ≤ longestPart) ↔
      (∀ part ∈ front, Text.utf8Size part ≤ longestPart) ∧ Text.utf8Size last ≤ longestPart := by
    rw [hparts, List.forall_mem_append, List.forall_mem_singleton]
  simp only [bind_eq_ok, enter_eq_ok_iff, find_eq_ok_iff, walk_eq_ok_iff (at?_start files path),
    hdropLast, hplace]
  rw [hparts, List.getLastD_concat]
  constructor
  · rintro ⟨_, ⟨hlength, hfront, hdirectories, rfl⟩, hlast, rfl⟩
    exact ⟨⟨hlength, hshort.2 ⟨hfront, hlast⟩, hdropLast.symm ▸ hdirectories⟩, rfl⟩
  · rintro ⟨h, rfl⟩
    obtain ⟨hfront, hlast⟩ := hshort.1 h.short_parts
    exact ⟨_, ⟨h.short, hfront, hdropLast ▸ h.directories, rfl⟩, hlast, rfl⟩

/-! ## Reading and writing -/

theorem fromUTF8?_toUTF8 (text : String) : String.fromUTF8? text.toUTF8 = some text := by
  rw [String.fromUTF8?]
  exact dif_pos text.isValidUTF8

theorem read_eq_ok (h : files.Reaches path)
    (hfile : files.at? (placeOf path) = some (.file text.toUTF8)) :
    files.read path = .ok text := by
  obtain ⟨l, henter, hfind⟩ := bind_eq_ok.1 (lookUp_eq_ok_iff.2 ⟨h, rfl⟩)
  rw [read, henter, ok_bind, hfind, ok_bind, hfile]
  simp only [fromUTF8?_toUTF8]

/-- A file can be written there. -/
structure Writable (files : Files) (path : String) : Prop extends files.Reaches path where
  hasName : Path.HasName path
  free : files.at? (placeOf path) ≠ some .directory

/-- A file is written exactly where one can be, and put at the place of the path. -/
theorem write_eq_ok_iff :
    files.write path text = .ok files' ↔
      files.Writable path ∧ files' = files.put (placeOf path) text.toUTF8 := by
  unfold write
  by_cases hname : Path.HasName path
  · have hnamed := hname.dropWhile_eq
    have hcond := Path.hasName_iff.1 hname
    rw [hnamed] at hcond
    simp only [hnamed, if_neg hcond]
    rw [← bind_assoc, bind_eq_ok]
    simp only [lookUp_eq_ok_iff]
    constructor
    · rintro ⟨_, ⟨hreaches, rfl⟩, h⟩
      split at h
      · cases h
      · rename_i hfree heq
        obtain ⟨rfl, rfl⟩ := Prod.mk.inj heq
        obtain rfl := Except.ok.inj h
        exact ⟨⟨hreaches, hname, hfree⟩, rfl⟩
    · rintro ⟨h, rfl⟩
      refine ⟨_, ⟨h.toReaches, rfl⟩, ?_⟩
      split
      · rename_i heq
        exact absurd (Prod.mk.inj heq).2 h.free
      · rename_i heq
        obtain ⟨rfl, -⟩ := Prod.mk.inj heq
        rfl
  · have hcond := (not_congr Path.hasName_iff).1 hname
    rw [Classical.not_not] at hcond
    constructor
    · intro h
      obtain ⟨l, -, h⟩ := bind_eq_ok.1 h
      rw [if_pos hcond] at h
      cases h
    · rintro ⟨h, -⟩
      exact absurd h.hasName hname

/-- What was written can be read. -/
theorem read_write (h : files.write path text = .ok files') : files'.read path = .ok text := by
  obtain ⟨hwritable, rfl⟩ := write_eq_ok_iff.1 h
  exact read_eq_ok (hwritable.toReaches.put hwritable.free _) (at?_put_self hwritable.free _)

/-- Nothing else changes when a file is written. -/
theorem at?_write_of_ne (h : files.write path text = .ok files') (hl : l ≠ placeOf path) :
    files'.at? l = files.at? l := by
  obtain ⟨-, rfl⟩ := write_eq_ok_iff.1 h
  exact at?_put_of_ne hl files _

end Files

end Kei

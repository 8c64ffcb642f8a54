import Kei.Proofs.Command.Effects
import Kei.Proofs.Host.Path

/-!
# The files of a build

A build reads the assembly and writes two files more, whose paths are made from that of the assembly
by changing its extension. The three paths differ only if it has one to change, and another than
that of objects.
-/

namespace Kei.Command

open Session

/-- The paths of a build differ if and only if the assembly has an extension other than `o`, behind
more than a dot. -/
theorem nodup_paths_iff (path : String) :
    [path, objectPath path, executablePath path].Nodup ↔
      ∃ front stem ext, Path.Splits path front stem ext ∧ stem ≠ Path.here ∧ ext ≠ ['o'] := by
  constructor
  · intro hnodup
    simp only [List.nodup_cons, List.mem_cons, List.not_mem_nil, or_false, not_or] at hnodup
    obtain ⟨⟨hobject, hexecutable⟩, hboth, -⟩ := hnodup
    rcases Path.splits_or_withExtension_eq path "o" with
      ⟨front, stem, ext, hsplits, hhere⟩ | hsame | hsame
    · refine ⟨front, stem, ext, hsplits, hhere, ?_⟩
      rintro rfl
      apply hobject
      rw [objectPath, hsplits.withExtension hhere, ← String.ofList_toList (s := path), hsplits.eq]
      rfl
    · exact absurd hsame.symm hexecutable
    · exact absurd hsame hboth
  · rintro ⟨front, stem, ext, hsplits, hhere, hext⟩
    have hobject : (objectPath path).toList = front ++ (stem ++ ['.', 'o']) := by
      rw [objectPath, hsplits.withExtension hhere]
      exact String.toList_ofList
    have hexecutable : (executablePath path).toList = front ++ stem := by
      rw [executablePath, hsplits.withExtension hhere]
      exact String.toList_ofList
    simp only [List.nodup_cons, List.mem_cons, List.not_mem_nil, or_false, not_or,
      ← String.toList_inj, hsplits.eq, hobject, hexecutable]
    simp [hext]

section

variable {env : Environment} {args : List String} {o : Options}

/-- What a command does is part of its plan for some text. -/
theorem exists_deeds (h : readLine args env.limit = .ok o) (w : World) :
    ∃ deeds, (run World.host env args w).2.deeds = deeds ++ w.deeds ∧
      ∀ d ∈ deeds, ∃ asm, d ∈ (carryOut w.tools w.files (o.plan asm)).deeds := by
  obtain ⟨-, hsilent⟩ := run_eq h w
  have hnothing {r : Except Failure Unit}
      (hmake : ((inWorld ((Filter.ofText env.filter).raise o.verbosity)).make o).Tells w r) :
      (run World.host env args w).2.deeds = [] ++ w.deeds :=
    (World.silent_eq_iff.1 (hsilent.trans hmake.silent)).2.2
  by_cases hproduct : o.product = .assembly
  · cases htext : o.text w.files with
    | error e => exact ⟨[], hnothing (tells_make_error _ htext), by simp⟩
    | ok asm =>
      have hmake :=
        carriesOut_make ((Filter.ofText env.filter).raise o.verbosity) htext hproduct
      obtain ⟨-, -, hdeeds⟩ := Effect.silent_eq_world_iff.1 (hsilent.trans hmake.silent)
      refine ⟨_, hdeeds, ?_⟩
      intro d hd
      exact ⟨asm, List.mem_reverse.1 hd⟩
  · exact ⟨[], hnothing (tells_make _ w hproduct), by simp⟩

/-- The tools are run on three paths only, and only to build what could be written. These paths
differ if and only if that of the assembly has an extension other than `o`, behind more than a
dot. -/
theorem run_paths (h : readLine args env.limit = .ok o) (w : World) :
    let object := objectPath o.output
    let executable := executablePath o.output
    (∃ deeds, (run World.host env args w).2.deeds = deeds ++ w.deeds ∧
      ∀ tool args, .ran tool args ∈ deeds →
        o.build ∧ (∃ asm written, w.files.write o.output asm = .ok written) ∧
          (Deed.ran tool args = .ran "nasm" ["-felf64", o.output, "-o", object] ∨
            Deed.ran tool args = .ran "ld" ["-o", executable, object])) ∧
    ([o.output, object, executable].Nodup ↔
      ∃ front stem ext, Path.Splits o.output front stem ext ∧ stem ≠ Path.here ∧ ext ≠ ['o']) := by
  intro object executable
  obtain ⟨deeds, hdeeds, hplan⟩ := exists_deeds h w
  refine ⟨⟨deeds, hdeeds, ?_⟩, nodup_paths_iff o.output⟩
  intro tool args hran
  obtain ⟨asm, hmem⟩ := hplan _ hran
  obtain ⟨hbuild, written, hwrite, hdeed⟩ := Options.ran_of_plan hmem
  refine ⟨hbuild, ⟨asm, written, hwrite⟩, ?_⟩
  rcases hdeed with hnasm | ⟨hld, -⟩
  · exact .inl hnasm
  · exact .inr hld

end

/-- A program to be built where both tools work. -/
def buildable : World where
  files := [([['a', '.', 'k', 'e', 'i']], .file "exit(7);".toUTF8)]
  tools := [("nasm", Tool.recorder "nasm" (.exited 0)), ("ld", Tool.recorder "ld" (.exited 0))]

/-- A name with a dot in front and another one before its extension is built to three files. -/
theorem run_paths_dots :
    readLine ["--build", "-o", "./.a.b.s", "a.kei"] none = .ok (buildTo "./.a.b.s") ∧
      (∃ deeds, (run World.host {} ["--build", "-o", "./.a.b.s", "a.kei"] buildable).2.deeds =
          deeds ++ [] ∧
        .ran "ld" ["-o", "./.a.b", "./.a.b.o"] ∈ deeds) ∧
      ["./.a.b.s", "./.a.b.o", "./.a.b"].Nodup := by
  have hline : readLine ["--build", "-o", "./.a.b.s", "a.kei"] none = .ok (buildTo "./.a.b.s") :=
    toOption_eq_some.1 (by decide +kernel)
  have hlinked : .ran "ld" ["-o", "./.a.b", "./.a.b.o"] ∈
      (run World.host {} ["--build", "-o", "./.a.b.s", "a.kei"] buildable).2.deeds := by
    decide +kernel
  obtain ⟨⟨deeds, hdeeds, -⟩, hnodup⟩ := @run_paths {} _ _ hline buildable
  have hsplits : Path.Splits "./.a.b.s" ['.', '/'] ['.', 'a', '.', 'b'] ['s'] :=
    ⟨rfl, by simp, by simp, by simp, by simp⟩
  refine ⟨hline, ⟨deeds, hdeeds, ?_⟩, ?_⟩
  · rw [hdeeds] at hlinked
    simpa [buildable] using hlinked
  · exact hnodup.2 ⟨_, _, _, hsplits, by simp [Path.here], by simp⟩

/-- A name without an extension is linked over the assembly, and one with the extension of objects
is assembled over it; both commands succeed. -/
theorem run_paths_overwriting :
    (run World.host {} ["--build", "-o", "prog", "a.kei"] buildable).1 = 0 ∧
      .ran "ld" ["-o", "prog", "prog.o"] ∈
        (run World.host {} ["--build", "-o", "prog", "a.kei"] buildable).2.deeds ∧
      (run World.host {} ["--build", "-o", "prog.o", "a.kei"] buildable).1 = 0 ∧
      .ran "nasm" ["-felf64", "prog.o", "-o", "prog.o"] ∈
        (run World.host {} ["--build", "-o", "prog.o", "a.kei"] buildable).2.deeds := by
  decide +kernel

end Kei.Command

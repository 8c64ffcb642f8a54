import Kei.Proofs.Command.Steps
import Kei.Proofs.Host.Files

/-!
# Effects of commands

A command does nothing to its surroundings before its product is made: up to there each of its steps
only writes to the channels. After that its steps carry out the plan for the product one attempt at
a time (`Session.carriesOut_make`).
-/

namespace Kei.Command

/-! ## Making a product -/

namespace Session

/-- The session of a command that is carried out by a world. -/
abbrev inWorld (filter : Filter) : Session (StateM World) :=
  ⟨World.host, filter⟩

variable (filter : Filter)

theorem tells_log (e : Event) (w : World) : ((inWorld filter).log e).Tells w (.ok ()) := by
  unfold Session.log
  split <;> exact ⟨rfl, rfl⟩

theorem tells_logAll (es : List Event) (w : World) :
    ((inWorld filter).logAll es).Tells w (.ok ()) := by
  induction es generalizing w with
  | nil => exact Step.tells_pure () w
  | cons e es ih => exact (tells_log filter e w).bind (g := fun _ => .ok ()) fun _ w' => ih w'

theorem tells_print (text : String) (w : World) :
    Step.Tells (ExceptT.lift (World.host.print text)) w (.ok ()) :=
  ⟨rfl, rfl⟩

theorem tells_compiled (source : String) (r : Except CompileError α) (w : World) :
    Step.Tells (compiled source r) w (r.mapError (.compilation source)) := by
  cases r with
  | ok a => exact Step.tells_pure a w
  | error e => exact Step.tells_throw (.compilation source e) w

/-- Logging a result does not change it. -/
theorem tells_logged {x : Step (StateM World) α} {r : Except Failure α} {w : World}
    (hx : x.Tells w r) (event : α → Event) :
    Step.Tells (x >>= fun a => (inWorld filter).log (event a) >>= fun _ => pure a) w r := by
  rw [← bind_pure r]
  exact hx.bind fun a w' => (tells_log filter (event a) w').bind fun _ w'' => Step.tells_pure a w''

theorem tells_tokens (source : String) (w : World) :
    ((inWorld filter).tokens source).Tells w
      ((tokenize source).mapError (.compilation source)) :=
  tells_logged filter (tells_compiled source (tokenize source) w) fun tokens =>
    .tokenized tokens.length

theorem parse_eq_bind (arena : Arena) (tokens : List Token) :
    (parse arena tokens).1 = (readTree arena tokens).1 >>= fun program =>
      (linkTree (readTree arena tokens).2 program).1 := by
  unfold parse
  rcases readTree arena tokens with ⟨_ | _, _⟩ <;> rfl

theorem tells_tree (limit : Nat) (source : String) (w : World) :
    ((inWorld filter).tree limit source).Tells w
      ((tokenize source >>= fun tokens => (parse { limit } tokens).1).mapError
        (.compilation source)) := by
  rw [mapError_bind]
  refine (tells_tokens filter source w).bind fun tokens w' => ?_
  rw [parse_eq_bind, mapError_bind]
  refine (tells_compiled source _ w').bind fun program w' => ?_
  refine (tells_log filter (.parsed program.length _) w').after fun w' => ?_
  exact tells_compiled source _ w'

theorem compile_eq_bind (limit : Nat) (source : String) :
    compile limit source =
      (tokenize source >>= fun tokens => (parse { limit } tokens).1) >>= generate := by
  rw [compile, bind_assoc]

theorem tells_assembly (limit : Nat) (source : String) (w : World) :
    ((inWorld filter).assembly limit source).Tells w
      ((compile limit source).mapError (.compilation source)) := by
  rw [compile_eq_bind, mapError_bind]
  refine (tells_tree filter limit source w).bind fun program w' => ?_
  refine (tells_logAll filter _ w').after fun w' => ?_
  exact tells_logged filter (tells_compiled source (generate program) w') _

/-- The text of the input, or why it cannot be had. -/
def inputOf (path : String) (files : Files) : Except Failure String :=
  if Path.extension? path ≠ some "kei" then .error (.badExtension path)
  else (files.read path).mapError (.unreadable path)

theorem tells_source (path : String) (w : World) :
    ((inWorld filter).source path).Tells w (inputOf path w.files) := by
  have hread : Step.Tells (ExceptT.lift (World.host.read path)) w (.ok (w.files.read path)) :=
    ⟨rfl, rfl⟩
  unfold Session.source inputOf
  split
  · exact ⟨rfl, rfl⟩
  · refine hread.after fun w' => ?_
    cases w.files.read path with
    | ok text => exact Step.tells_pure text w'
    | error e => exact Step.tells_throw (.unreadable path e) w'

/-! ## Carrying out the plan -/

theorem carriesOut_write (path text : String) (w : World) :
    ((inWorld filter).write path text).CarriesOut w [.write path text] := by
  have hon : Step.on (ExceptT.lift (World.host.write path text)) w =
      (.ok (World.write path text w).1, (World.write path text w).2) := rfl
  unfold Session.write
  cases hwrite : w.files.write path text with
  | ok files =>
    rw [World.write, hwrite] at hon
    constructor <;> rw [Step.on_bind_of_ok hon, carryOut, Attempt.outcome, hwrite] <;> rfl
  | error e =>
    rw [World.write, hwrite] at hon
    constructor <;> rw [Step.on_bind_of_ok hon, carryOut, Attempt.outcome, hwrite] <;> rfl

theorem carriesOut_tool (name : String) (args : List String) (w : World) :
    ((inWorld filter).tool name args).CarriesOut w [.tool name args] := by
  have hhas : Step.Tells (ExceptT.lift (World.host.hasTool name)) w
      (.ok (w.tools.lookup name).isSome) := ⟨rfl, rfl⟩
  unfold Session.tool
  refine hhas.carriesOut fun w₁ hsilent => ?_
  have htools := (World.silent_eq_iff.1 hsilent).2.1
  cases hlookup : w.tools.lookup name with
  | none =>
    rw [← htools] at hlookup
    constructor <;> rw [carryOut, Attempt.outcome, hlookup] <;> rfl
  | some tool =>
    refine (tells_log filter (.runningTool name args) w₁).carriesOut fun w₂ _ => ?_
    have hon : Step.on (ExceptT.lift (World.host.runTool name args)) w₂ =
        (.ok (World.runTool name args w₂).1, (World.runTool name args w₂).2) := rfl
    cases hrun : (w₂.tools.lookup name).bind fun tool => tool args w₂.files with
    | none =>
      rw [World.runTool, hrun] at hon
      constructor <;> rw [Step.on_bind_of_ok hon, carryOut, Attempt.outcome, hrun] <;> rfl
    | some result =>
      obtain ⟨ending, files⟩ := result
      rw [World.runTool, hrun] at hon
      -- it exits with zero or with another code, or it is killed
      rcases ending with (_ | code) | signal <;> constructor <;>
        rw [Step.on_bind_of_ok hon, carryOut, Attempt.outcome, hrun] <;> rfl

theorem carriesOut_build (path : String) (w : World) :
    ((inWorld filter).build path).CarriesOut w [assembling path, linking path] := by
  refine (carriesOut_tool filter _ _ w).bind fun w' => ?_
  rw [← List.append_nil [linking path]]
  exact (carriesOut_tool filter _ _ w').bind fun w' => (tells_log filter _ w').carriesOut_nil

end Session

/-! ## Whole commands -/

/-- What the options ask for, or why it cannot be made. -/
def Options.text (o : Options) (files : Files) : Except Failure String := do
  let source ← Session.inputOf o.input files
  (o.product.text o.limit source).mapError (.compilation source)

theorem Options.text_eq_ok_iff {o : Options} {files : Files} {text : String} :
    o.text files = .ok text ↔ Path.extension? o.input = some "kei" ∧
      ∃ source, files.read o.input = .ok source ∧ o.product.text o.limit source = .ok text := by
  rw [Options.text, Session.inputOf]
  by_cases hext : Path.extension? o.input = some "kei"
  · cases files.read o.input with
    | error e => simp [hext]
    | ok source => cases htext : o.product.text o.limit source <;> simp [hext, htext]
  · simp [hext]

namespace Session

variable (filter : Filter) {o : Options} (w : World)

/-- Tokens and trees are printed, and nothing else is done. -/
theorem tells_make (h : o.product ≠ .assembly) :
    ((inWorld filter).make o).Tells w (o.text w.files >>= fun _ => .ok ()) := by
  rw [Options.text, bind_assoc]
  refine (tells_source filter o.input w).bind fun source w' => ?_
  cases hproduct : o.product with
  | assembly => exact absurd hproduct h
  | tokens =>
    rw [Product.text, mapError_map_bind]
    exact (tells_tokens filter source w').bind fun _ w'' => tells_print _ w''
  | tree =>
    rw [Product.text, mapError_map_bind]
    exact (tells_tree filter o.limit source w').bind fun _ w'' => tells_print _ w''

variable {w}

/-- Nothing is done where no assembly can be made. -/
theorem tells_make_assembly {e : Failure} (h : o.text w.files = .error e)
    (hproduct : o.product = .assembly) : ((inWorld filter).make o).Tells w (.error e) := by
  have hsource := tells_source filter o.input w
  unfold Session.make
  rw [Options.text, hproduct] at h
  cases hinput : inputOf o.input w.files with
  | error e' =>
    rw [hinput] at h hsource
    obtain rfl : e' = e := Except.error.inj h
    exact hsource.failed
  | ok source =>
    rw [hinput, ok_bind] at h
    rw [hinput] at hsource
    refine hsource.after fun w' => ?_
    have hassembly := tells_assembly filter o.limit source w'
    rw [← Product.text, h] at hassembly
    rw [hproduct]
    exact hassembly.failed

/-- Nothing is done where what is asked for cannot be made. -/
theorem tells_make_error {e : Failure} (h : o.text w.files = .error e) :
    ((inWorld filter).make o).Tells w (.error e) := by
  by_cases hproduct : o.product = .assembly
  · exact tells_make_assembly filter h hproduct
  · have hmake := tells_make filter w hproduct
    rwa [h] at hmake

/-- Where assembly can be made, the plan for it is carried out. -/
theorem carriesOut_make {asm : String} (h : o.text w.files = .ok asm)
    (hproduct : o.product = .assembly) :
    ((inWorld filter).make o).CarriesOut w (o.plan asm) := by
  obtain ⟨source, hinput, htext⟩ := bind_eq_ok.1 h
  have hsource := tells_source filter o.input w
  unfold Session.make
  rw [hinput] at hsource
  rw [hproduct] at htext ⊢
  refine hsource.carriesOut fun w₁ _ => ?_
  have hassembly := tells_assembly filter o.limit source w₁
  rw [← Product.text, htext] at hassembly
  refine hassembly.carriesOut fun w₂ _ => ?_
  refine (carriesOut_write filter o.output asm w₂).bind fun w₃ => ?_
  refine (tells_log filter _ w₃).carriesOut fun w₄ _ => ?_
  cases o.build with
  | true => exact carriesOut_build filter o.output w₄
  | false => exact (Step.tells_pure () w₄).carriesOut_nil

end Session

variable {env : Environment} {args : List String} {o : Options}

/-- The status of a command says whether it was carried out. -/
theorem run_eq (h : readLine args env.limit = .ok o) (w : World) :
    let x := (Session.inWorld ((Filter.ofText env.filter).raise o.verbosity)).make o
    (run World.host env args w).1 = (if (x.on w).1.isOk then 0 else 1) ∧
      (run World.host env args w).2.silent = (x.on w).2.silent := by
  intro x
  unfold run
  rw [h]
  simp only [bind, StateT.bind]
  rcases hon : x.on w with ⟨e | _, w'⟩ <;> change x.run w = _ at hon <;> rw [hon] <;>
    exact ⟨rfl, rfl⟩

/-- A plan writes nothing but the text of the product to the output. -/
theorem Options.wrote_of_plan {w : World} {asm path text : String}
    (h : .wrote path text ∈ (carryOut w.tools w.files (o.plan asm)).deeds) :
    path = o.output ∧ text = asm := by
  rcases mem_deeds_cons h with heq | ⟨written, -, h⟩
  · exact Deed.wrote.inj heq
  · split at h
    · rcases mem_deeds_cons h with heq | ⟨_, -, h⟩
      · cases heq
      · rcases mem_deeds_cons h with heq | ⟨_, -, h⟩
        · cases heq
        · cases h
    · cases h

/-- A tool is run only to build what was written before, and the linker only after the assembler has
exited with zero. -/
theorem Options.ran_of_plan {w : World} {asm name : String} {args : List String}
    (h : .ran name args ∈ (carryOut w.tools w.files (o.plan asm)).deeds) :
    o.build ∧ ∃ written, w.files.write o.output asm = .ok written ∧
      (.ran name args = (assembling o.output).deed ∨
        .ran name args = (linking o.output).deed ∧ ∃ nasm assembled,
          w.tools.lookup "nasm" = some nasm ∧
          nasm ["-felf64", o.output, "-o", Session.objectPath o.output] written =
            some (.exited 0, assembled)) := by
  rcases mem_deeds_cons h with heq | ⟨written, hwrite, h⟩
  · cases heq
  split at h
  · rename_i hbuild
    refine ⟨hbuild, written, outcome_write hwrite, ?_⟩
    rcases mem_deeds_cons h with heq | ⟨assembled, hnasm, h⟩
    · exact .inl heq
    · obtain ⟨nasm, hlookup, hrun⟩ := outcome_tool hnasm
      rcases mem_deeds_cons h with heq | ⟨_, -, h⟩
      · exact .inr ⟨heq, nasm, assembled, hlookup, hrun⟩
      · cases h
  · cases h

/-- Where the output cannot be written, nothing is done. -/
theorem Options.carryOut_plan_of_not_writable {w : World} {asm : String}
    (h : ¬ w.files.Writable o.output) :
    carryOut w.tools w.files (o.plan asm) = ⟨false, w.files, []⟩ := by
  cases hwrite : w.files.write o.output asm with
  | ok written => exact absurd (Files.write_eq_ok_iff.1 hwrite).1 h
  | error e => exact carryOut_of_write_error _ hwrite

/-- A command changes nothing but what its plan says. If the input has the wrong extension, cannot
be read or has no product of the kind asked for, the status is 1 and neither a file nor a tool is
touched. They are never touched for tokens and trees. Otherwise the text of the assembly is written
to the output and, if asked for, assembled and linked, up to the first attempt that fails; the
status is 0 if none does. If the output can be written, it then holds the text of the assembly and
every other place what it held before, until the tools are run. -/
theorem run_effect (h : readLine args env.limit = .ok o) (w : World) :
    let status := (run World.host env args w).1
    let after := (run World.host env args w).2
    ((Path.extension? o.input ≠ some "kei" ∨ (∃ e, w.files.read o.input = .error e) ∨
        ∃ source e, w.files.read o.input = .ok source ∧
          o.product.text o.limit source = .error e) →
      status = 1 ∧ after.files = w.files ∧ after.deeds = w.deeds) ∧
    (o.product ≠ .assembly → after.files = w.files ∧ after.deeds = w.deeds) ∧
    ∀ source asm, Path.extension? o.input = some "kei" → w.files.read o.input = .ok source →
      o.product = .assembly → compile o.limit source = .ok asm →
      let effect := carryOut w.tools w.files (o.plan asm)
      (status = if effect.succeeded then 0 else 1) ∧ after.files = effect.files ∧
      after.deeds = effect.deeds.reverse ++ w.deeds ∧
      (∀ path text, .wrote path text ∈ effect.deeds → path = o.output ∧ text = asm) ∧
      (∀ name args, .ran name args ∈ effect.deeds →
        o.build ∧ ∃ written, w.files.write o.output asm = .ok written ∧
          (.ran name args = (assembling o.output).deed ∨
            .ran name args = (linking o.output).deed ∧ ∃ nasm assembled,
              w.tools.lookup "nasm" = some nasm ∧
              nasm ["-felf64", o.output, "-o", Session.objectPath o.output] written =
                some (.exited 0, assembled))) ∧
      (¬ w.files.Writable o.output → status = 1 ∧ after.files = w.files ∧ after.deeds = w.deeds) ∧
      (w.files.Writable o.output → ∃ written, w.files.write o.output asm = .ok written ∧
        written.read o.output = .ok asm ∧
        (∀ l, l ≠ Files.placeOf o.output → written.at? l = w.files.at? l) ∧
        (¬ o.build → status = 0 ∧ after.files = written) ∧
        (o.build → after.files =
          (carryOut w.tools written [assembling o.output, linking o.output]).files)) := by
  obtain ⟨hstatus, hsilent⟩ := run_eq h w
  intro status after
  refine ⟨fun hfault => ?_, fun hproduct => ?_, fun source asm hext hread hproduct hcompile => ?_⟩
  · cases htext : o.text w.files with
    | ok text =>
      obtain ⟨hext, source, hread, hproduct⟩ := Options.text_eq_ok_iff.1 htext
      rcases hfault with hext' | ⟨e, hread'⟩ | ⟨source', e, hread', hproduct'⟩
      · exact absurd hext hext'
      · cases hread.symm.trans hread'
      · obtain rfl := Except.ok.inj (hread.symm.trans hread')
        cases hproduct.symm.trans hproduct'
    | error e =>
      have hmake := Session.tells_make_error ((Filter.ofText env.filter).raise o.verbosity) htext
      rw [hmake.result] at hstatus
      obtain ⟨hfiles, -, hdeeds⟩ := World.silent_eq_iff.1 (hsilent.trans hmake.silent)
      exact ⟨hstatus, hfiles, hdeeds⟩
  · have hmake := Session.tells_make ((Filter.ofText env.filter).raise o.verbosity) w hproduct
    obtain ⟨hfiles, -, hdeeds⟩ := World.silent_eq_iff.1 (hsilent.trans hmake.silent)
    exact ⟨hfiles, hdeeds⟩
  · have htext : o.text w.files = .ok asm :=
      Options.text_eq_ok_iff.2 ⟨hext, source, hread, by rw [hproduct]; exact hcompile⟩
    have hmake :=
      Session.carriesOut_make ((Filter.ofText env.filter).raise o.verbosity) htext hproduct
    rw [hmake.result] at hstatus
    obtain ⟨hfiles, -, hdeeds⟩ := Effect.silent_eq_world_iff.1 (hsilent.trans hmake.silent)
    refine ⟨hstatus, hfiles, hdeeds, fun _ _ => Options.wrote_of_plan,
      fun _ _ => Options.ran_of_plan, fun hwritable => ?_, fun hwritable => ?_⟩
    · rw [Options.carryOut_plan_of_not_writable hwritable] at hstatus hfiles hdeeds
      exact ⟨hstatus, hfiles, hdeeds⟩
    · have hwrite : w.files.write o.output asm = _ := Files.write_eq_ok_iff.2 ⟨hwritable, rfl⟩
      refine ⟨_, hwrite, Files.read_write hwrite, fun l hl => Files.at?_write_of_ne hwrite hl,
        fun hbuild => ?_, fun hbuild => ?_⟩
      · rw [Options.plan, if_neg hbuild, carryOut_of_write _ hwrite] at hstatus hfiles
        exact ⟨hstatus, hfiles⟩
      · rw [Options.plan, if_pos hbuild, carryOut_of_write _ hwrite] at hfiles
        exact hfiles

/-- A program to be built where the assembler works and the linker cannot be started. There is
another assembly outside the working directory already. -/
def unlinkable : World where
  files := [([['a', '.', 'k', 'e', 'i']], .file "exit(7);".toUTF8),
    ([Path.root, ['t', 'm', 'p'], ['x', '.', 'a', 's', 'm']], .file "old".toUTF8),
    ([Path.root, ['t', 'm', 'p']], .directory)]
  tools := [("nasm", fun _ files => some (.exited 0, files)), ("ld", Tool.broken)]

/-- What `--build -o path a.kei` asks for. -/
def buildTo (path : String) : Options where
  input := "a.kei"
  output := path
  product := .assembly
  limit := Arena.defaultLimit
  build := true
  verbosity := 0

/-- The assembly is written over the other one and assembled, and the command fails for want of a
linker. -/
theorem run_effect_unlinkable :
    let args := ["--build", "-o", "/tmp/x.asm", "a.kei"]
    let status := (run World.host {} args unlinkable).1
    let after := (run World.host {} args unlinkable).2
    readLine args none = .ok (buildTo "/tmp/x.asm") ∧
      unlinkable.files.read "/tmp/x.asm" = .ok "old" ∧
      ∃ asm, compile Arena.defaultLimit "exit(7);" = .ok asm ∧ status = 1 ∧
        after.deeds =
          [.ran "nasm" ["-felf64", "/tmp/x.asm", "-o", "/tmp/x.o"], .wrote "/tmp/x.asm" asm] ∧
        after.files.read "/tmp/x.asm" = .ok asm ∧
        ∀ l, l ≠ [Path.root, ['t', 'm', 'p'], ['x', '.', 'a', 's', 'm']] →
          after.files.at? l = unlinkable.files.at? l := by
  intro args status after
  have hline : readLine args none = .ok (buildTo "/tmp/x.asm") :=
    toOption_eq_some.1 (by decide +kernel)
  have hread : unlinkable.files.read "a.kei" = .ok "exit(7);" :=
    toOption_eq_some.1 (by decide +kernel)
  have hold : unlinkable.files.read "/tmp/x.asm" = .ok "old" :=
    toOption_eq_some.1 (by decide +kernel)
  obtain ⟨asm, hasm⟩ : ∃ asm, compile Arena.defaultLimit "exit(7);" = .ok asm :=
    isOk_iff.1 (by decide +kernel)
  obtain ⟨_, hwrite⟩ : ∃ files, unlinkable.files.write "/tmp/x.asm" "" = .ok files :=
    isOk_iff.1 (by decide +kernel)
  have heffect := (@run_effect {} _ _ hline unlinkable).2.2 "exit(7);" asm
  obtain ⟨hstatus, -, hdeeds, -, -, -, hwritten⟩ := heffect (by decide +kernel) hread rfl hasm
  obtain ⟨written, -, hasm', hother, -, hbuild⟩ := hwritten (Files.write_eq_ok_iff.1 hwrite).1
  have hafter : after.files = written := hbuild rfl
  exact ⟨hline, hold, asm, hasm, hstatus, hdeeds, hafter ▸ hasm', hafter ▸ hother⟩

end Kei.Command

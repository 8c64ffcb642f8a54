import Kei.Command.Plan
import Kei.Proofs.Basic

/-!
# Steps of commands

There are two kinds of steps. One comes to a result and does nothing but write to the channels
(`Step.Tells`). The other carries out a plan (`Step.CarriesOut`). Steps in sequence carry out one
plan after the other, and the first kind adds nothing to a plan.
-/

namespace Kei

/-- The world without what was written to its channels. -/
def World.silent (w : World) : World :=
  { w with out := "", err := "" }

theorem World.silent_eq_iff {w w' : World} :
    w'.silent = w.silent ↔ w'.files = w.files ∧ w'.tools = w.tools ∧ w'.deeds = w.deeds := by
  simp [World.silent]

namespace Command

/-! ## Plans -/

/-- The effect of going on from the files that an effect left, if it was a success. -/
def Effect.andThen (e : Effect) (next : Files → Effect) : Effect :=
  if e.succeeded then ⟨(next e.files).succeeded, (next e.files).files,
    e.deeds ++ (next e.files).deeds⟩
  else e

theorem carryOut_append (tools : List (String × Tool)) (files : Files) (plan rest : List Attempt) :
    carryOut tools files (plan ++ rest) =
      (carryOut tools files plan).andThen fun files => carryOut tools files rest := by
  induction plan generalizing files with
  | nil => rfl
  | cons a plan ih =>
    rw [List.cons_append, carryOut, carryOut]
    rcases a.outcome tools files with _ | ⟨_ | _, files'⟩
    · rfl
    · rfl
    · simp only [ih, Effect.andThen]
      split <;> rfl

section

variable {tools : List (String × Tool)} {files files' : Files}

/-- What was done after the first attempt was done only because that succeeded. -/
theorem mem_deeds_cons {a : Attempt} {rest : List Attempt} {d : Deed}
    (h : d ∈ (carryOut tools files (a :: rest)).deeds) :
    d = a.deed ∨ ∃ files', a.outcome tools files = some (true, files') ∧
      d ∈ (carryOut tools files' rest).deeds := by
  rw [carryOut] at h
  rcases houtcome : a.outcome tools files with _ | ⟨_ | _, files'⟩ <;> rw [houtcome] at h
  · cases h
  · exact .inl (List.mem_singleton.1 h)
  · rcases List.mem_cons.1 h with rfl | h
    · exact .inl rfl
    · exact .inr ⟨files', rfl, h⟩

theorem outcome_write {path text : String}
    (h : (Attempt.write path text).outcome tools files = some (true, files')) :
    files.write path text = .ok files' := by
  cases hwrite : files.write path text <;> simp_all [Attempt.outcome, Except.toOption]

theorem carryOut_of_write {path text : String} (rest : List Attempt)
    (h : files.write path text = .ok files') :
    carryOut tools files (.write path text :: rest) =
      { carryOut tools files' rest with
        deeds := .wrote path text :: (carryOut tools files' rest).deeds } := by
  rw [carryOut, Attempt.outcome, h]
  rfl

/-- Nothing is done after a file that cannot be written. -/
theorem carryOut_of_write_error {path text : String} {e : FileError} (rest : List Attempt)
    (h : files.write path text = .error e) :
    carryOut tools files (.write path text :: rest) = ⟨false, files, []⟩ := by
  rw [carryOut, Attempt.outcome, h]
  rfl

/-- A tool succeeds when there is such a tool, it can be started and it exits with zero. -/
theorem outcome_tool {name : String} {args : List String}
    (h : (Attempt.tool name args).outcome tools files = some (true, files')) :
    ∃ tool, tools.lookup name = some tool ∧ tool args files = some (.exited 0, files') := by
  rw [Attempt.outcome, Option.map_eq_some_iff] at h
  obtain ⟨⟨ending, files''⟩, hrun, heq⟩ := h
  obtain ⟨tool, hlookup, htool⟩ := Option.bind_eq_some_iff.1 hrun
  obtain ⟨hending, rfl⟩ := Prod.mk.inj heq
  obtain rfl := eq_of_beq hending
  exact ⟨tool, hlookup, htool⟩

end

/-- The world that an effect leaves behind, its channels apart. -/
def Effect.world (e : Effect) (w : World) : World :=
  { w.silent with files := e.files, deeds := e.deeds.reverse ++ w.deeds }

theorem Effect.silent_eq_world_iff {e : Effect} {w w' : World} :
    w'.silent = e.world w ↔
      w'.files = e.files ∧ w'.tools = w.tools ∧ w'.deeds = e.deeds.reverse ++ w.deeds := by
  simp [Effect.world, World.silent]

/-! ## Steps -/

/-- What a step comes to in a world, and the world after it. -/
def Step.on (x : Step (StateM World) α) (w : World) : Except Failure α × World :=
  x.run.run w

/-- The step comes to `r` and does nothing but write to the channels. -/
structure Step.Tells (x : Step (StateM World) α) (w : World) (r : Except Failure α) : Prop where
  result : (x.on w).1 = r
  silent : (x.on w).2.silent = w.silent

/-- The step carries out a plan, and fails if an attempt does. -/
structure Step.CarriesOut (x : Step (StateM World) Unit) (w : World) (plan : List Attempt) :
    Prop where
  result : (x.on w).1.isOk = (carryOut w.tools w.files plan).succeeded
  silent : (x.on w).2.silent = (carryOut w.tools w.files plan).world w

namespace Step

variable {x : Step (StateM World) α} {w : World}

theorem on_bind (x : Step (StateM World) α) (f : α → Step (StateM World) β) (w : World) :
    Step.on (x >>= f) w =
      match x.on w with
      | (.ok a, w') => (f a).on w'
      | (.error e, w') => (.error e, w') := by
  unfold Step.on
  simp only [ExceptT.run_bind, StateT.run_bind]
  rcases x.run.run w with ⟨_ | _, _⟩ <;> rfl

theorem tells_pure (a : α) (w : World) : Step.Tells (pure a) w (.ok a) :=
  ⟨rfl, rfl⟩

theorem tells_throw (e : Failure) (w : World) :
    Step.Tells (throw e : Step (StateM World) α) w (.error e) :=
  ⟨rfl, rfl⟩

theorem Tells.bind {f : α → Step (StateM World) β} {r : Except Failure α}
    {g : α → Except Failure β} (hx : x.Tells w r) (hf : ∀ a w', (f a).Tells w' (g a)) :
    Step.Tells (x >>= f) w (r >>= g) := by
  obtain ⟨rfl, hsilent⟩ := hx
  rcases hon : x.on w with ⟨e | a, w'⟩ <;> rw [hon] at hsilent
  · constructor <;> simp only [on_bind, hon]
    · rfl
    · exact hsilent
  · constructor <;> simp only [on_bind, hon]
    · exact (hf a w').result
    · exact (hf a w').silent.trans hsilent

theorem on_bind_of_ok {f : α → Step (StateM World) β} {a : α} {w' : World}
    (h : x.on w = (.ok a, w')) : Step.on (x >>= f) w = (f a).on w' := by
  rw [on_bind, h]

theorem Tells.exists_world {r : Except Failure α} (hx : x.Tells w r) :
    ∃ w', x.on w = (r, w') ∧ w'.silent = w.silent :=
  ⟨_, Prod.ext hx.result rfl, hx.silent⟩

theorem Tells.failed {f : α → Step (StateM World) β} {e : Failure} (hx : x.Tells w (.error e)) :
    Step.Tells (x >>= f) w (.error e) := by
  obtain ⟨w', hon, hsilent⟩ := hx.exists_world
  constructor <;> rw [on_bind, hon]
  exact hsilent

theorem Tells.after {f : α → Step (StateM World) β} {a : α} {r : Except Failure β}
    (hx : x.Tells w (.ok a)) (hf : ∀ w', (f a).Tells w' r) : Step.Tells (x >>= f) w r := by
  obtain ⟨w', hon, hsilent⟩ := hx.exists_world
  constructor <;> rw [on_bind_of_ok hon]
  · exact (hf w').result
  · exact (hf w').silent.trans hsilent

/-- A step that only writes to the channels does not change what the next one carries out. -/
theorem Tells.carriesOut {f : α → Step (StateM World) Unit} {a : α} {plan : List Attempt}
    (hx : x.Tells w (.ok a)) (hf : ∀ w', w'.silent = w.silent → (f a).CarriesOut w' plan) :
    Step.CarriesOut (x >>= f) w plan := by
  obtain ⟨w', hon, hsilent⟩ := hx.exists_world
  obtain ⟨hfiles, htools, hdeeds⟩ := World.silent_eq_iff.1 hsilent
  obtain ⟨hnext, hworld⟩ := hf w' hsilent
  rw [hfiles, htools] at hnext hworld
  constructor <;> rw [on_bind_of_ok hon]
  · exact hnext
  · rw [hworld, Effect.world, Effect.world, hdeeds, hsilent]

/-- A step that succeeds and only writes to the channels carries out nothing. -/
theorem Tells.carriesOut_nil {x : Step (StateM World) Unit} (hx : x.Tells w (.ok ())) :
    x.CarriesOut w [] :=
  ⟨by rw [hx.result]; rfl, hx.silent⟩

/-- Steps in sequence carry out one plan after the other. -/
theorem CarriesOut.bind {x y : Step (StateM World) Unit} {plan rest : List Attempt}
    (hx : x.CarriesOut w plan) (hy : ∀ w', y.CarriesOut w' rest) :
    Step.CarriesOut (x >>= fun _ => y) w (plan ++ rest) := by
  obtain ⟨hresult, hsilent⟩ := hx
  rcases hon : x.on w with ⟨r, w'⟩
  rw [hon] at hresult hsilent
  obtain ⟨hfiles, htools, hdeeds⟩ := Effect.silent_eq_world_iff.1 hsilent
  cases r with
  | error e =>
    have heffect : carryOut w.tools w.files (plan ++ rest) = carryOut w.tools w.files plan := by
      rw [carryOut_append, Effect.andThen, ← hresult]
      rfl
    constructor <;> simp only [on_bind, hon, heffect]
    · exact hresult
    · exact hsilent
  | ok a =>
    obtain ⟨hnext, hworld⟩ := hy w'
    rw [hfiles, htools] at hnext hworld
    constructor <;>
      simp only [on_bind, hon, carryOut_append, Effect.andThen, ← hresult, Except.isOk,
        Except.toBool, if_true]
    · exact hnext
    · obtain ⟨hfiles', htools', hdeeds'⟩ := Effect.silent_eq_world_iff.1 hworld
      refine Effect.silent_eq_world_iff.2 ⟨hfiles', htools'.trans htools, ?_⟩
      rw [hdeeds', hdeeds, List.reverse_append, List.append_assoc]

end Step

end Command

end Kei

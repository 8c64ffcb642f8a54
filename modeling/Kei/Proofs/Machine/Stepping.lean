import Kei.Proofs.Machine.Targets
import Kei.Proofs.Meaning.Environment

/-!
# Steps of the machine

Between the parts of a program only the operations ahead, the stack and its greatest depth matter:
registers and the flag are written before they are read. `Leads` and `Ends` say how a run goes on
from such a point, whatever the registers hold.
-/

namespace Kei.Machine

/-- What matters of a state between the parts of a program. -/
structure Spot where
  code : List Op
  /-- The values on the stack, newest first. -/
  held : List Int64
  /-- The deepest the stack has been. -/
  deepest : Nat

def Spot.state (a : Spot) (regs : Registers) (zero : Bool) : State :=
  ⟨a.code, regs, a.held.reverse.toArray, zero, a.deepest⟩

/-! ## Parts of a state -/

section

variable (code : List Op) (held : List Int64) (d : Nat) (regs : Registers) (zero : Bool)

@[simp] theorem lookup_set (name other : String) (v : Int64) :
    (Registers.set name v regs).lookup other =
      if other = name then some v else regs.lookup other := by
  induction regs with
  | nil => simp [Registers.set, lookup_cons_ite]
  | cons reg regs ih =>
    obtain ⟨n, old⟩ := reg
    by_cases h : n = name <;> by_cases ho : other = n <;>
      simp_all [Registers.set, lookup_cons_ite]

@[simp] theorem read_register (name : String) :
    (Spot.state ⟨code, held, d⟩ regs zero).read (.register name) = regs.lookup name := rfl

@[simp] theorem read_number (v : Int64) :
    (Spot.state ⟨code, held, d⟩ regs zero).read (.number v) = some v := rfl

@[simp] theorem write_register (name : String) (v : Int64) :
    (Spot.state ⟨code, held, d⟩ regs zero).write (.register name) v =
      some (Spot.state ⟨code, held, d⟩ (Registers.set name v regs) zero) := rfl

@[simp] theorem push_state (v : Int64) :
    (Spot.state ⟨code, held, d⟩ regs zero).push v =
      Spot.state ⟨code, v :: held, max d (held.length + 1)⟩ regs zero := by
  simp [Spot.state, State.push]

/-- A slot is counted from the newest value. -/
@[simp] theorem read_slot (offset : Nat) :
    (Spot.state ⟨code, held, d⟩ regs zero).read (.slot offset) = held[offset / 8]? := by
  by_cases h : offset / 8 < held.length
  · have hplace : held.length - 1 - (held.length - 1 - offset / 8) = offset / 8 := by omega
    simp only [State.read, State.slot?, Spot.state, List.size_toArray, List.length_reverse, h,
      if_true, Option.bind_some, List.getElem?_toArray]
    rw [List.getElem?_reverse (by omega), hplace]
  · simp [State.read, State.slot?, Spot.state, h]

theorem write_slot {offset : Nat} (h : offset / 8 < held.length) (v : Int64) :
    (Spot.state ⟨code, held, d⟩ regs zero).write (.slot offset) v =
      some (Spot.state ⟨code, held.set (offset / 8) v, d⟩ regs zero) := by
  have hset : held.reverse.set (held.length - 1 - offset / 8) v =
      (held.set (offset / 8) v).reverse := by
    refine List.ext_getElem (by simp) fun i hi _ => ?_
    simp only [List.length_set, List.length_reverse] at hi
    have hiff : held.length - 1 - offset / 8 = i ↔ offset / 8 = held.length - 1 - i := by omega
    simp only [List.getElem_set, List.getElem_reverse, List.length_set, hiff]
  simp [State.write, State.slot?, Spot.state, h, hset]

/-- Releasing drops the newest values. -/
theorem release_state {slots : Nat} (h : slots ≤ held.length) (hbytes : slots * 8 < 1 <<< 63) :
    (Spot.state ⟨code, held, d⟩ regs zero).release (Int64.ofInt (slots * 8 : Nat)) =
      some (Spot.state ⟨code, held.drop slots, d⟩ regs zero) := by
  have hpos : ¬Int64.ofNat (slots * 8) < 0 := by
    rw [Int64.lt_iff_toInt_lt, Int64.toInt_ofNat_of_lt hbytes]
    exact Int.not_lt.2 (Int.natCast_nonneg _)
  have htake : held.reverse.take (held.length - slots) = (held.drop slots).reverse := by
    rw [List.reverse_drop]
  rw [Int64.ofInt_eq_ofNat, State.release, if_neg hpos, Int64.toNatClampNeg_ofNat_of_lt hbytes]
  simp [Spot.state, h, htake]

end

/-! ## Single operations -/

section

variable {p : Program} {code : List Op} {held : List Int64} {d : Nat} {regs : Registers}
  {zero : Bool} {n : Nat}

theorem runFrom_of_run_go {op : Op} {s : State}
    (h : op.run p (Spot.state ⟨code, held, d⟩ regs zero) = .go s) :
    runFrom p (Spot.state ⟨op :: code, held, d⟩ regs zero) (n + 1) = runFrom p s n := by
  rw [runFrom, show step p (Spot.state ⟨op :: code, held, d⟩ regs zero) = _ from h]

theorem runFrom_label (name : String) :
    runFrom p (Spot.state ⟨.label name :: code, held, d⟩ regs zero) (n + 1) =
      runFrom p (Spot.state ⟨code, held, d⟩ regs zero) n :=
  runFrom_of_run_go rfl

theorem runFrom_load (name : String) (v : Int64) :
    runFrom p (Spot.state ⟨.mov (.register name) (.number v) :: code, held, d⟩ regs zero) (n + 1) =
      runFrom p (Spot.state ⟨code, held, d⟩ (Registers.set name v regs) zero) n :=
  runFrom_of_run_go rfl

theorem runFrom_store {name : String} {offset : Nat} {v : Int64} (hv : regs.lookup name = some v)
    (hslot : offset / 8 < held.length) :
    runFrom p (Spot.state ⟨.mov (.slot offset) (.register name) :: code, held, d⟩ regs zero)
        (n + 1) =
      runFrom p (Spot.state ⟨code, held.set (offset / 8) v, d⟩ regs zero) n := by
  refine runFrom_of_run_go ?_
  rw [Op.run, read_register, hv, Option.bind_some, write_slot _ _ _ _ _ hslot, Next.ofState?]

theorem runFrom_push {src : Operand} {v : Int64}
    (hv : (Spot.state ⟨code, held, d⟩ regs zero).read src = some v) :
    runFrom p (Spot.state ⟨.push src :: code, held, d⟩ regs zero) (n + 1) =
      runFrom p (Spot.state ⟨code, v :: held, max d (held.length + 1)⟩ regs zero) n := by
  refine runFrom_of_run_go ?_
  rw [Op.run, hv, Option.map_some, push_state, Next.ofState?]

theorem runFrom_pop (name : String) (v : Int64) :
    runFrom p (Spot.state ⟨.pop (.register name) :: code, v :: held, d⟩ regs zero) (n + 1) =
      runFrom p (Spot.state ⟨code, held, d⟩ (Registers.set name v regs) zero) n := by
  refine runFrom_of_run_go ?_
  simp [Op.run, Spot.state, State.write, Next.ofState?]

theorem runFrom_release {slots : Nat} (h : slots ≤ held.length) (hbytes : slots * 8 < 1 <<< 63) :
    runFrom p (Spot.state
        ⟨.release (.number (Int64.ofInt (slots * 8 : Nat))) :: code, held, d⟩ regs zero) (n + 1) =
      runFrom p (Spot.state ⟨code, held.drop slots, d⟩ regs zero) n := by
  refine runFrom_of_run_go ?_
  rw [Op.run, read_number, Option.bind_some, release_state _ _ _ _ _ h hbytes, Next.ofState?]

theorem runFrom_arith {f : Arith} {name other : String} {v w : Int64}
    (hv : regs.lookup name = some v) (hw : regs.lookup other = some w) :
    runFrom p (Spot.state ⟨.arith f (.register name) (.register other) :: code, held, d⟩ regs zero)
        (n + 1) =
      runFrom p (Spot.state ⟨code, held, d⟩ (Registers.set name (f.apply v w) regs) zero) n := by
  refine runFrom_of_run_go ?_
  simp only [Op.run, read_register, hv, hw, write_register, Next.ofState?]

theorem runFrom_signExtend :
    runFrom p (Spot.state ⟨.signExtend :: code, held, d⟩ regs zero) (n + 1) =
      runFrom p (Spot.state ⟨code, held, d⟩ regs zero) n :=
  runFrom_of_run_go rfl

theorem runFrom_div {name : String} {v w : Int64} (hv : regs.lookup "rax" = some v)
    (hw : regs.lookup name = some w) (hne : w ≠ 0) :
    runFrom p (Spot.state ⟨.div (.register name) :: code, held, d⟩ regs zero) (n + 1) =
      runFrom p (Spot.state ⟨code, held, d⟩
        (Registers.set "rdx" (v % w) (Registers.set "rax" (v / w) regs)) zero) n := by
  refine runFrom_of_run_go ?_
  simp only [Op.run, read_register, hv, hw, hne, if_false, write_register, Option.bind_some,
    Next.ofState?]

theorem runFrom_test {name : String} {v : Int64} (hv : regs.lookup name = some v) :
    runFrom p (Spot.state ⟨.test (.register name) (.register name) :: code, held, d⟩ regs zero)
        (n + 1) =
      runFrom p (Spot.state ⟨code, held, d⟩ regs (v == 0)) n := by
  refine runFrom_of_run_go ?_
  simp only [Op.run, read_register, hv, Int64.and_self]
  rfl

theorem runFrom_jump {name : String} {target : List Op} (h : p.labels[name]? = some target) :
    runFrom p (Spot.state ⟨.jump (some name) :: code, held, d⟩ regs zero) (n + 1) =
      runFrom p (Spot.state ⟨target, held, d⟩ regs zero) n := by
  refine runFrom_of_run_go ?_
  simp only [Op.run, Program.goTo, Option.bind_some, h]
  rfl

theorem runFrom_jumpZero {name : String} {target : List Op} (h : p.labels[name]? = some target) :
    runFrom p (Spot.state ⟨.jumpZero (some name) :: code, held, d⟩ regs zero) (n + 1) =
      runFrom p (Spot.state ⟨if zero then target else code, held, d⟩ regs zero) n := by
  refine runFrom_of_run_go ?_
  cases zero with
  | false => rfl
  | true =>
    simp only [Op.run, Program.goTo, Option.bind_some, h]
    rfl

end

/-! ## Runs -/

/-- The machine goes on from one point to another. -/
def Leads (p : Program) (a b : Spot) : Prop :=
  ∀ regs zero, ∃ regs' zero' k, ∀ n,
    runFrom p (a.state regs zero) (n + k) = runFrom p (b.state regs' zero') n

/-- The machine comes from a point to its last step, in a state as described. -/
def Ends (p : Program) (a : Spot) (P : State → Prop) : Prop :=
  ∀ regs zero, ∃ k s, runFrom p (a.state regs zero) k = .stillRunning s ∧ P s

/-- The next operation ends the program with the values `held` on the stack. -/
def State.Exits (status : Int64) (held : List Int64) (deepest : Nat) (s : State) : Prop :=
  ∃ code, s.code = .syscall :: code ∧ s.read (.register "rax") = some exitCall ∧
    s.read (.register "rdi") = some status ∧ s.stack.toList.reverse = held ∧ s.maxDepth = deepest

/-- The next operation divides by zero. -/
def State.DividesByZero (s : State) : Prop :=
  ∃ divisor code, s.code = .div divisor :: code ∧ s.read divisor = some 0 ∧
    (s.read (.register "rax")).isSome

variable {p : Program} {a b c : Spot}

theorem Leads.refl (p : Program) (a : Spot) : Leads p a a :=
  fun regs zero => ⟨regs, zero, 0, fun _ => rfl⟩

theorem Leads.trans (h : Leads p a b) (h' : Leads p b c) : Leads p a c := by
  intro regs zero
  obtain ⟨regs₁, zero₁, k, hk⟩ := h regs zero
  obtain ⟨regs₂, zero₂, k', hk'⟩ := h' regs₁ zero₁
  refine ⟨regs₂, zero₂, k' + k, fun n => ?_⟩
  rw [← Nat.add_assoc, hk, hk']

theorem Leads.ends {P : State → Prop} (h : Leads p a b) (h' : Ends p b P) : Ends p a P := by
  intro regs zero
  obtain ⟨regs₁, zero₁, k, hk⟩ := h regs zero
  obtain ⟨k', s, hk', hs⟩ := h' regs₁ zero₁
  exact ⟨k' + k, s, (hk k').trans hk', hs⟩

theorem step_of_exits {p : Program} {s : State} {status : Int64} {held : List Int64} {d : Nat}
    (h : s.Exits status held d) : ∃ code, step p s = .exited status { s with code } := by
  obtain ⟨code, hcode, hcall, hstatus, -⟩ := h
  refine ⟨code, ?_⟩
  rw [step, hcode]
  simp only [State.read] at hcall hstatus
  simp only [Op.run, State.read, hcall, hstatus, if_true]

theorem step_of_dividesByZero {p : Program} {s : State} (h : s.DividesByZero) :
    step p s = .fault := by
  obtain ⟨divisor, code, hcode, hzero, hrax⟩ := h
  obtain ⟨v, hrax⟩ := Option.isSome_iff_exists.1 hrax
  have hzero' : State.read { s with code } divisor = some 0 := by
    rw [← hzero]
    cases divisor <;> rfl
  have hrax' : State.read { s with code } (.register "rax") = some v := hrax
  rw [step, hcode]
  simp only [Op.run, hzero', hrax', if_true]

/-! ## Whole runs -/

/-- A run that was interrupted goes on where it stopped. -/
theorem runFrom_add {p : Program} {s s' : State} {k : Nat} (h : runFrom p s k = .stillRunning s')
    (n : Nat) : runFrom p s (k + n) = runFrom p s' n := by
  induction k generalizing s with
  | zero =>
    obtain rfl := Outcome.stillRunning.inj h
    rw [Nat.zero_add]
  | succ k ih =>
    rw [Nat.succ_add, runFrom]
    rw [runFrom] at h
    cases hstep : step p s with
    | go s₁ => exact ih (by simpa [hstep] using h)
    | exited status s₁ => simp [hstep] at h
    | fault => simp [hstep] at h

/-- A run with fewer steps was not over either. -/
theorem exists_stillRunning {p : Program} {s s' : State} {k n : Nat}
    (h : runFrom p s (k + n) = .stillRunning s') : ∃ s₁, runFrom p s k = .stillRunning s₁ := by
  induction k generalizing s with
  | zero => exact ⟨s, rfl⟩
  | succ k ih =>
    rw [Nat.succ_add, runFrom] at h
    rw [runFrom]
    cases hstep : step p s with
    | go s₁ => exact ih (by simpa [hstep] using h)
    | exited status s₁ => simp [hstep] at h
    | fault => simp [hstep] at h

/-- All runs of a text that are not interrupted come to an end as described, and there are such
runs. -/
def Settles (text : String) (P : Outcome → Prop) : Prop :=
  (∃ steps, P (run text steps)) ∧
    ∀ steps, (∃ s, run text steps = .stillRunning s) ∨ P (run text steps)

/-- A program settles as the step after its last state does. -/
theorem Ends.settles {text : String} {P : State → Prop} {Q : Outcome → Prop}
    (h : Ends (load text) ⟨(load text).code, [], 0⟩ P)
    (hstep : ∀ s n, P s → Q (runFrom (load text) s (n + 1))) : Settles text Q := by
  obtain ⟨k, s, hk, hs⟩ := h [] false
  have hlate : ∀ n, Q (run text (k + (n + 1))) := by
    intro n
    have hrun : run text (k + (n + 1)) = _ := runFrom_add hk (n + 1)
    exact hrun ▸ hstep s n hs
  refine ⟨⟨_, hlate 0⟩, fun steps => ?_⟩
  by_cases hle : steps ≤ k
  · obtain ⟨n, rfl⟩ := Nat.exists_eq_add_of_le hle
    exact .inl (exists_stillRunning hk)
  · obtain ⟨n, rfl⟩ := Nat.exists_eq_add_of_lt (Nat.lt_of_not_le hle)
    exact .inr (hlate n)

/-! ## Sequences of operations -/

section

variable (p : Program) (rest : List Op) (held : List Int64) (d : Nat)

theorem leads_label (name : String) : Leads p ⟨.label name :: rest, held, d⟩ ⟨rest, held, d⟩ :=
  fun regs zero => ⟨regs, zero, 1, fun _ => runFrom_label name⟩

theorem leads_literal (v : Int64) :
    Leads p ⟨.mov (.register "rax") (.number v) :: .push (.register "rax") :: rest, held, d⟩
      ⟨rest, v :: held, max d (held.length + 1)⟩ := by
  intro regs zero
  refine ⟨Registers.set "rax" v regs, zero, 2, fun n => ?_⟩
  rw [runFrom_load, runFrom_push (v := v) (by simp)]

theorem leads_pushSlot {offset : Nat} {v : Int64} (h : held[offset / 8]? = some v) :
    Leads p ⟨.push (.slot offset) :: rest, held, d⟩ ⟨rest, v :: held, max d (held.length + 1)⟩ := by
  intro regs zero
  refine ⟨regs, zero, 1, fun n => ?_⟩
  rw [runFrom_push (by rw [read_slot, h])]

theorem leads_store {offset : Nat} (v : Int64) (h : offset / 8 < held.length) :
    Leads p ⟨.pop (.register "rax") :: .mov (.slot offset) (.register "rax") :: rest, v :: held, d⟩
      ⟨rest, held.set (offset / 8) v, d⟩ := by
  intro regs zero
  refine ⟨Registers.set "rax" v regs, zero, 2, fun n => ?_⟩
  rw [runFrom_pop, runFrom_store (v := v) (by simp) h]

theorem leads_release (slots : Nat) (h : slots ≤ held.length) (hbytes : slots * 8 < 1 <<< 63) :
    Leads p ⟨.release (.number (Int64.ofInt (slots * 8 : Nat))) :: rest, held, d⟩
      ⟨rest, held.drop slots, d⟩ :=
  fun regs zero => ⟨regs, zero, 1, fun _ => runFrom_release h hbytes⟩

theorem leads_jump {name : String} {target : List Op} (h : p.labels[name]? = some target) :
    Leads p ⟨.jump (some name) :: rest, held, d⟩ ⟨target, held, d⟩ :=
  fun regs zero => ⟨regs, zero, 1, fun _ => runFrom_jump h⟩

/-- A condition is dropped from the stack, and a jump is taken if it is zero. -/
theorem leads_branch {name : String} {target : List Op} (v : Int64)
    (h : p.labels[name]? = some target) :
    Leads p ⟨.pop (.register "rax") :: .test (.register "rax") (.register "rax") ::
        .jumpZero (some name) :: rest, v :: held, d⟩
      ⟨if v = 0 then target else rest, held, d⟩ := by
  intro regs zero
  refine ⟨Registers.set "rax" v regs, v == 0, 3, fun n => ?_⟩
  rw [runFrom_pop, runFrom_test (v := v) (by simp), runFrom_jumpZero h]
  simp

theorem ends_exit (v : Int64) :
    Ends p ⟨.mov (.register "rax") (.number exitCall) :: .pop (.register "rdi") :: .syscall :: rest,
      v :: held, d⟩ (State.Exits v held d) := by
  intro regs zero
  refine ⟨2, Spot.state ⟨.syscall :: rest, held, d⟩ (Registers.set "rdi" v
    (Registers.set "rax" exitCall regs)) zero, ?_, rest, rfl, ?_⟩
  · rw [runFrom_load, runFrom_pop, runFrom]
  · simp [Spot.state, State.read]

theorem ends_exit_number (v : Int64) :
    Ends p ⟨.mov (.register "rax") (.number exitCall) :: .mov (.register "rdi") (.number v) ::
      .syscall :: rest, held, d⟩ (State.Exits v held d) := by
  intro regs zero
  refine ⟨2, Spot.state ⟨.syscall :: rest, held, d⟩ (Registers.set "rdi" v
    (Registers.set "rax" exitCall regs)) zero, ?_, rest, rfl, ?_⟩
  · rw [runFrom_load, runFrom_load, runFrom]
  · simp [Spot.state, State.read]

theorem leads_arith (f : Arith) (v w : Int64) :
    Leads p ⟨.pop (.register "rax") :: .pop (.register "rbx") ::
        .arith f (.register "rax") (.register "rbx") :: .push (.register "rax") :: rest,
        v :: w :: held, d⟩
      ⟨rest, f.apply v w :: held, max d (held.length + 1)⟩ := by
  intro regs zero
  let regs' := Registers.set "rbx" w (Registers.set "rax" v regs)
  refine ⟨Registers.set "rax" (f.apply v w) regs', zero, 4, fun n => ?_⟩
  rw [runFrom_pop, runFrom_pop, runFrom_arith (v := v) (w := w) (by simp) (by simp),
    runFrom_push (v := f.apply v w) (by simp)]

theorem leads_div (v : Int64) {w : Int64} (hne : w ≠ 0) :
    Leads p ⟨.pop (.register "rax") :: .pop (.register "rbx") :: .signExtend ::
        .div (.register "rbx") :: .push (.register "rax") :: rest, v :: w :: held, d⟩
      ⟨rest, v / w :: held, max d (held.length + 1)⟩ := by
  intro regs zero
  let regs' := Registers.set "rbx" w (Registers.set "rax" v regs)
  refine ⟨Registers.set "rdx" (v % w) (Registers.set "rax" (v / w) regs'), zero, 5, fun n => ?_⟩
  rw [runFrom_pop, runFrom_pop, runFrom_signExtend,
    runFrom_div (v := v) (w := w) (by simp) (by simp) hne, runFrom_push (v := v / w) (by simp)]

theorem ends_div_zero (v : Int64) :
    Ends p ⟨.pop (.register "rax") :: .pop (.register "rbx") :: .signExtend ::
      .div (.register "rbx") :: rest, v :: 0 :: held, d⟩ State.DividesByZero := by
  intro regs zero
  refine ⟨3, Spot.state ⟨.div (.register "rbx") :: rest, held, d⟩ (Registers.set "rbx" 0
    (Registers.set "rax" v regs)) zero, ?_, .register "rbx", rest, rfl, ?_⟩
  · rw [runFrom_pop, runFrom_pop, runFrom_signExtend, runFrom]
  · simp

/-- The code of an operator, with its left operand above its right one. -/
theorem leads_op {op : Kei.Op} {v w r : Int64} (h : op.eval v w = .ok r) :
    Leads p ⟨ops (.pop .rax :: .pop .rbx :: (Emit.opCode op ++ [.push .rax])) ++ rest,
        v :: w :: held, d⟩
      ⟨rest, r :: held, max d (held.length + 1)⟩ := by
  cases op with
  | add => exact Except.ok.inj h ▸ leads_arith p rest held d .add v w
  | sub => exact Except.ok.inj h ▸ leads_arith p rest held d .sub v w
  | mul => exact Except.ok.inj h ▸ leads_arith p rest held d .mul v w
  | div =>
    rw [Op.eval] at h
    split at h
    · simp at h
    · rename_i hne
      exact Except.ok.inj h ▸ leads_div p rest held d v hne

/-- The only operation that fails is division by zero. -/
theorem ends_op {op : Kei.Op} {v w : Int64} {t : Trap} (h : op.eval v w = .error t) :
    t = .divisionByZero ∧
      Ends p ⟨ops (.pop .rax :: .pop .rbx :: (Emit.opCode op ++ [.push .rax])) ++ rest,
        v :: w :: held, d⟩ State.DividesByZero := by
  cases op with
  | div =>
    rw [Op.eval] at h
    split at h
    · rename_i hw
      rw [hw]
      exact ⟨(Except.error.inj h).symm, ends_div_zero p (.push (.register "rax") :: rest) held d v⟩
    · simp at h
  | _ => simp [Op.eval] at h

end

end Kei.Machine

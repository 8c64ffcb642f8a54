import Kei.Proofs.Assembly.Labels
import Kei.Proofs.Machine.Loading

/-!
# Where jumps go

A label of a loaded program is taken to what follows its last place in the text. In code that places
each of its labels once, that is what follows the label there.
-/

namespace Kei

open Machine

namespace Machine

/-- What follows the last label of a name. -/
def after? (name : String) : List Op → Option (List Op)
  | [] => none
  | .label n :: ops => (after? name ops).or (if n = name then some ops else none)
  | _ :: ops => after? name ops

theorem getElem?_labelsFrom (found : Std.HashMap String (List Op)) (ops : List Op) (name : String) :
    (labelsFrom found ops)[name]? = (after? name ops).or found[name]? := by
  induction ops generalizing found with
  | nil => rfl
  | cons op ops ih =>
    cases op with
    | label n =>
      rw [labelsFrom, ih, Std.HashMap.getElem?_insert, after?, Option.or_assoc]
      by_cases h : n = name <;> simp [h]
    | _ => exact ih found

theorem after?_eq_none {name : String} {ops : List Op} (h : .label name ∉ ops) :
    after? name ops = none := by
  induction ops with
  | nil => rfl
  | cons op ops ih =>
    rw [List.mem_cons, not_or] at h
    have hops := ih h.2
    cases op with
    | label n =>
      have hn : n ≠ name := fun hn => h.1 (hn ▸ rfl)
      simp [after?, hops, hn]
    | _ => exact hops

theorem after?_append_label {name : String} (before after : List Op) (h : .label name ∉ after) :
    after? name (before ++ .label name :: after) = some after := by
  induction before with
  | nil => simp [after?, after?_eq_none h]
  | cons op before ih =>
    cases op with
    | label n => simp [after?, ih]
    | _ => exact ih

end Machine

namespace Instr

theorem labelName_injective {m n : Nat} (h : labelName m = labelName n) : m = n := by
  have hlist := congrArg String.toList h
  rw [toList_labelName, toList_labelName, List.append_cancel_left_eq] at hlist
  have hvalue := congrArg (fun cs => Nat.ofDigitChars 10 cs 0) hlist
  simpa using hvalue

theorem labelName_ne_start (n : Nat) : labelName n ≠ "_start" := by
  intro h
  have hlist := congrArg String.toList h
  rw [toList_labelName] at hlist
  exact absurd (congrArg List.head? hlist) (by simp)

/-- Only a label gives the operation of a label of its number. -/
theorem op?_eq_label {i : Instr} {n : Nat} (h : i.op? = some (.label (labelName n))) :
    i = .label n := by
  cases i <;> simp only [op?, Option.some.injEq, Machine.Op.label.injEq, reduceCtorEq] at h
  case start => exact absurd h.symm (labelName_ne_start n)
  case label m => rw [labelName_injective h]

end Instr

@[simp] theorem ops_append (a b : List Instr) : ops (a ++ b) = ops a ++ ops b :=
  List.filterMap_append

@[simp] theorem ops_cons (i : Instr) (code : List Instr) :
    ops (i :: code) = i.op?.toList ++ ops code := by
  rw [ops, List.filterMap_cons]
  cases i.op? <;> rfl

theorem label_mem_ops {code : List Instr} {n : Nat} (h : .label (Instr.labelName n) ∈ ops code) :
    n ∈ placed code := by
  obtain ⟨i, hi, hop⟩ := List.mem_filterMap.1 h
  obtain rfl := Instr.op?_eq_label hop
  exact List.mem_filterMap.2 ⟨_, hi, rfl⟩

/-- Code that stands in a program right before the operations `rest`: the machine reads it as it is
meant, and jumps to its labels arrive behind them. -/
structure Installed (p : Program) (code : List Instr) (rest : List Machine.Op) : Prop where
  readable : ∀ i ∈ code, i.Readable
  target : ∀ before n after, code = before ++ .label n :: after →
    p.labels[Instr.labelName n]? = some (ops after ++ rest)

namespace Installed

variable {p : Program} {a b code : List Instr} {rest : List Machine.Op}

theorem left (h : Installed p (a ++ b) rest) : Installed p a (ops b ++ rest) where
  readable i hi := h.readable i (List.mem_append_left b hi)
  target before n after ha := by
    rw [← List.append_assoc, ← ops_append]
    exact h.target before n (after ++ b) (by simp [ha])

theorem right (h : Installed p (a ++ b) rest) : Installed p b rest where
  readable i hi := h.readable i (List.mem_append_right a hi)
  target before n after hb := h.target (a ++ before) n after (by simp [hb])

theorem tail {i : Instr} (h : Installed p (i :: code) rest) : Installed p code rest :=
  right (a := [i]) h

theorem label {n : Nat} (h : Installed p (.label n :: code) rest) :
    p.labels[Instr.labelName n]? = some (ops code ++ rest) :=
  h.target [] n code rfl

end Installed

/-- Code whose labels are distinct is installed in the program that its text loads as. -/
theorem installed_load {code : List Instr} (hread : ∀ i ∈ code, i.Readable)
    (hlabels : (placed code).Nodup) : Installed (load (Instr.print code.toArray)) code [] where
  readable := hread
  target before n after hcode := by
    have hafter : .label (Instr.labelName n) ∉ ops after := by
      intro hmem
      rw [hcode, placed_append, placed_cons] at hlabels
      exact (List.nodup_cons.1 (List.nodup_append.1 hlabels).2.1).1 (label_mem_ops hmem)
    have hops : ops code = ops before ++ .label (Instr.labelName n) :: ops after := by
      simp [hcode, Instr.op?]
    rw [load, operations_print hread, hops]
    simp [getElem?_labelsFrom, after?_append_label _ _ hafter]

end Kei

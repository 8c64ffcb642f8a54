import Kei.Text.Numeral

/-!
# Values of numerals

Reading a numeral under a bound stops early, but it gives the value of the whole run of digits
whenever that value is below the bound: the value of a run is never below that of its beginning.
-/

namespace Kei.Text

/-- The value of digits after a numeral of value `n`. -/
def valueFrom (n : Nat) (cs : List Char) : Nat :=
  cs.foldl (fun n c => 10 * n + digitValue c) n

@[simp] theorem valueFrom_nil (n : Nat) : valueFrom n [] = n := rfl

@[simp] theorem valueFrom_cons (n : Nat) (c : Char) (cs : List Char) :
    valueFrom n (c :: cs) = valueFrom (10 * n + digitValue c) cs := by
  rw [valueFrom, List.foldl_cons, valueFrom]

theorem numeralValue_eq (cs : List Char) : numeralValue cs = valueFrom 0 cs := rfl

theorem le_valueFrom (n : Nat) (cs : List Char) : n ≤ valueFrom n cs := by
  induction cs generalizing n with
  | nil => exact Nat.le_refl _
  | cons c cs ih =>
    have := ih (10 * n + digitValue c)
    simp only [valueFrom_cons]
    omega

theorem readDigits_eq_some_iff {bound n m : Nat} {cs : List Char} :
    readDigits bound n cs = some m ↔
      (∀ c ∈ cs, c.isDigit) ∧ valueFrom n cs = m ∧ (cs ≠ [] → m < bound) := by
  induction cs generalizing n with
  | nil => simp [readDigits]
  | cons c cs ih =>
    have hle := le_valueFrom (10 * n + digitValue c) cs
    simp only [readDigits, List.forall_mem_cons, valueFrom_cons]
    split
    · split
      · rw [ih]
        cases cs <;> grind [valueFrom_nil]
      · grind
    · grind

/-- A numeral is a non-empty run of digits of a value below the bound. -/
theorem numeral?_eq_some_iff {bound m : Nat} {cs : List Char} :
    numeral? bound cs = some m ↔
      cs ≠ [] ∧ (∀ c ∈ cs, c.isDigit) ∧ numeralValue cs = m ∧ m < bound := by
  cases cs with
  | nil => simp [numeral?]
  | cons c cs => simp [numeral?, readDigits_eq_some_iff, numeralValue_eq]

theorem numeral?_eq_none_iff {bound : Nat} {cs : List Char} (hne : cs ≠ [])
    (hcs : ∀ c ∈ cs, c.isDigit) : numeral? bound cs = none ↔ bound ≤ numeralValue cs := by
  rw [Option.eq_none_iff_forall_ne_some]
  constructor
  · intro h
    refine Nat.le_of_not_lt fun hlt => ?_
    exact h _ (numeral?_eq_some_iff.2 ⟨hne, hcs, rfl, hlt⟩)
  · intro h m hm
    obtain ⟨-, -, rfl, hlt⟩ := numeral?_eq_some_iff.1 hm
    omega

end Kei.Text

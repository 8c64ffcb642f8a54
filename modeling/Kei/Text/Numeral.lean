/-!
# Decimal numerals

Numerals are read under a bound, and reading stops at the first digit that reaches it, so a numeral
of any length costs no more than its length. Leading zeros are allowed.
-/

namespace Kei.Text

/-- The value of a decimal digit. -/
def digitValue (c : Char) : Nat :=
  c.toNat - '0'.toNat

/-- The value of a run of digits. -/
def numeralValue (cs : List Char) : Nat :=
  cs.foldl (fun n c => 10 * n + digitValue c) 0

/-- Read digits after a numeral of value `n`, below `bound`. -/
def readDigits (bound : Nat) (n : Nat) : List Char → Option Nat
  | [] => some n
  | c :: cs =>
    if c.isDigit then
      let m := 10 * n + digitValue c
      if m < bound then readDigits bound m cs else none
    else none

/-- A numeral is a non-empty run of digits whose value is below `bound`. -/
def numeral? (bound : Nat) (cs : List Char) : Option Nat :=
  if cs.isEmpty then none else readDigits bound 0 cs

/-- A 64-bit count: a numeral below `2 ^ 64`, which may have a plus sign. -/
def count? : List Char → Option Nat
  | '+' :: cs => numeral? (1 <<< 64) cs
  | cs => numeral? (1 <<< 64) cs

/-- A 64-bit word with its sign: a numeral that may have a plus or a minus sign, at least
`- 2 ^ 63` and below `2 ^ 63`. -/
def word? : List Char → Option Int64
  | '-' :: cs => (numeral? (1 <<< 63 + 1) cs).map fun n => Int64.ofInt (-(n : Int))
  | '+' :: cs => (numeral? (1 <<< 63) cs).map fun n => Int64.ofInt n
  | cs => (numeral? (1 <<< 63) cs).map fun n => Int64.ofInt n

end Kei.Text

/-!
# Numerals

Unsigned numerals in base ten or sixteen: one optional plus sign, then at least one digit. Any
number of leading zeros is allowed. The text is read from the left, and the first fault met is
the one reported: a character that is no digit, or a digit that makes the value too large.
-/

namespace FpgaProgrammer.Text

/-- Why a text is not a numeral of the wanted size. -/
inductive NumeralFault where
  /-- There is no text at all. -/
  | empty
  /-- A character is not a digit, or a sign stands alone. -/
  | invalidDigit
  /-- The value is not below the limit. -/
  | tooLarge
  deriving Repr, DecidableEq

/-- The wording of a fault. -/
def NumeralFault.message : NumeralFault → String
  | .empty => "cannot parse integer from empty string"
  | .invalidDigit => "invalid digit found in string"
  | .tooLarge => "number too large to fit in target type"

/-- The value of a digit in either case, if it is a digit of the base. -/
def digitValue? (base : Nat) (c : Char) : Option Nat :=
  let value? :=
    if '0' ≤ c ∧ c ≤ '9' then some (c.toNat - '0'.toNat)
    else if 'a' ≤ c ∧ c ≤ 'z' then some (c.toNat - 'a'.toNat + 10)
    else if 'A' ≤ c ∧ c ≤ 'Z' then some (c.toNat - 'A'.toNat + 10)
    else none
  value?.filter (· < base)

/-- Reads digits after a part whose value is `value`. -/
def readDigits (base limit : Nat) : List Char → (value : Nat) → Except NumeralFault Nat
  | [], value => .ok value
  | c :: rest, value =>
    match digitValue? base c with
    | none => .error .invalidDigit
    | some digit =>
      if base * value + digit < limit then readDigits base limit rest (base * value + digit)
      else .error .tooLarge

/-- Reads a numeral whose value has to be below `limit`. -/
def readNumeral (base limit : Nat) (text : List Char) : Except NumeralFault Nat :=
  match text with
  | [] => .error .empty
  | ['+'] => .error .invalidDigit
  | '+' :: digits => readDigits base limit digits 0
  | digits => readDigits base limit digits 0

end FpgaProgrammer.Text

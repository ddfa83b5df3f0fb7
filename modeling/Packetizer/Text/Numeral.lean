/-!
# `Packetizer.Text.Numeral`: unsigned decimal numerals

`Numeral.read` accepts an optional `+` and then one or more decimal
digits whose value is below a limit. It reads from the left, and at
each character a bad digit is noticed before an overflow, so a
numeral with both faults is refused for whichever comes first.
-/

set_option autoImplicit false

namespace Packetizer

/-- Why a text is no numeral. -/
inductive NumeralError where
  /-- There is no character at all. -/
  | empty
  /-- A character is no digit, or the sign stands alone. -/
  | invalidDigit
  /-- The value reaches the limit. -/
  | tooLarge
  deriving DecidableEq

/-- The wording of each cause. -/
def NumeralError.message : NumeralError → String
  | .empty => "cannot parse integer from empty string"
  | .invalidDigit => "invalid digit found in string"
  | .tooLarge => "number too large to fit in target type"

namespace Numeral

/-- The value of a decimal digit. -/
def digit? (c : Char) : Option Nat :=
  if '0' ≤ c ∧ c ≤ '9' then some (c.toNat - '0'.toNat) else none

/-- Reads digits onto `value`, keeping it below `limit`. -/
def digits (limit : Nat) (value : Nat) : List Char → Except NumeralError Nat
  | [] => .ok value
  | c :: rest =>
      match digit? c with
      | none => .error .invalidDigit
      | some d =>
          if value * 10 + d < limit then digits limit (value * 10 + d) rest
          else .error .tooLarge

/-- Reads a whole numeral below `limit`. -/
def ofChars (limit : Nat) : List Char → Except NumeralError Nat
  | [] => .error .empty
  | ['+'] => .error .invalidDigit
  | '+' :: rest => digits limit 0 rest
  | cs => digits limit 0 cs

/-- Reads the numeral that `text` consists of. -/
def read (limit : Nat) (text : String) : Except NumeralError Nat :=
  ofChars limit text.toList

end Numeral

end Packetizer

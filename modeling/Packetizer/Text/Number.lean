import Packetizer.Arithmetic.Binary

/-!
# `Packetizer.Text.Number`: numbers as text

Fractions with a fixed number of decimal places and hexadecimal
words. A half goes to the even neighbour, so `0.25` with one place
is `0.2`.
-/

set_option autoImplicit false

namespace Packetizer.Text

/-- `n` in decimal, filled up with zeros to `width` digits. -/
def padded (width n : Nat) : String :=
  let digits := Nat.toDigits 10 n
  String.ofList (List.replicate (width - digits.length) '0' ++ digits)

/-- `a` with `places` decimal places, for one place or more. -/
def fixed (places : Nat) (a : Ratio) : String :=
  let unit := Nat.pow 10 places
  let n := roundDiv .toEven (a.num * unit) a.den
  s!"{n / unit}." ++ padded places (n % unit)

/-- `n` in hexadecimal after `0x`, with at least `width` digits. -/
def hex (width n : Nat) : String :=
  let digits := Nat.toDigits 16 n
  "0x" ++ String.ofList (List.replicate (width - digits.length) '0' ++ digits)

end Packetizer.Text

import Packetizer.Arithmetic.Nearest

/-!
# `Packetizer.Arithmetic.Binary`: binary floating point as exact fractions

A finite nonnegative binary number is a fraction, and an operation
on such numbers is the exact fraction followed by `BinaryFormat.round`,
which goes to the nearest number of the format and to the even
significand when two are equally near. Both formats in use,
`binary32` and `binary64`, are values of one record.
-/

set_option autoImplicit false

namespace Packetizer

/-- A nonnegative fraction. It need not be in lowest terms. -/
structure Ratio where
  num : Nat
  den : Nat
  deriving DecidableEq

namespace Ratio

/-- A natural number as a fraction. -/
def ofNat (n : Nat) : Ratio := ⟨n, 1⟩

/-- The sum of two fractions. -/
def add (a b : Ratio) : Ratio := ⟨a.num * b.den + b.num * a.den, a.den * b.den⟩

/-- A fraction times a natural number. -/
def scale (a : Ratio) (n : Nat) : Ratio := ⟨a.num * n, a.den⟩

/-- The quotient of two fractions. -/
def div (a b : Ratio) : Ratio := ⟨a.num * b.den, a.den * b.num⟩

/-- A fraction times `2 ^ e`, for an exponent of either sign. -/
def shift (a : Ratio) (e : Int) : Ratio :=
  ⟨a.num <<< e.toNat, a.den <<< (-e).toNat⟩

/-- The exponent of the greatest power of two that is at most `a`,
for a positive fraction. -/
def log2 (a : Ratio) : Int :=
  let e : Int := (a.num.log2 : Int) - (a.den.log2 : Int)
  let s := a.shift (-e)
  -- The difference of the bit lengths is right or one too high.
  if s.num < s.den then e - 1 else e

end Ratio

/-- A binary floating point format, without its upper limit. -/
structure BinaryFormat where
  /-- Significand bits, the leading one included. -/
  precision : Nat
  /-- The exponent of the least positive number. -/
  minExponent : Int

/-- Single precision. -/
def binary32 : BinaryFormat := ⟨24, -149⟩

/-- Double precision. -/
def binary64 : BinaryFormat := ⟨53, -1074⟩

namespace BinaryFormat

/-- The exponent of the last significand bit of the numbers near `a`. -/
def exponentAt (f : BinaryFormat) (a : Ratio) : Int :=
  max f.minExponent (a.log2 - ((f.precision : Int) - 1))

/-- The significand of the number nearest to `a`, counted in units
of `2 ^ exponentAt a`. -/
def significandAt (f : BinaryFormat) (a : Ratio) : Nat :=
  let s := a.shift (-(f.exponentAt a))
  roundDiv .toEven s.num s.den

/-- The number of the format nearest to `a`. -/
def round (f : BinaryFormat) (a : Ratio) : Ratio :=
  if a.num = 0 then .ofNat 0
  else (Ratio.ofNat (f.significandAt a)).shift (f.exponentAt a)

end BinaryFormat

end Packetizer

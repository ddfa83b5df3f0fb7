/-!
# `Packetizer.Arithmetic.Nearest`: quotients rounded to the nearest integer

`roundDiv` rounds a quotient of natural numbers to the nearest
integer and settles the halfway case by a `Tie`. Every rounding of
the library goes through it: binary words, decimal places and
16-bit samples.
-/

set_option autoImplicit false

namespace Packetizer

/-- Where a quotient halfway between two integers goes. -/
inductive Tie where
  /-- To the even neighbour. -/
  | toEven
  /-- To the neighbour farther from zero. -/
  | awayFromZero
  deriving DecidableEq

/-- `num / den` rounded to the nearest integer. -/
def roundDiv (tie : Tie) (num den : Nat) : Nat :=
  let below := num / den
  let twice := 2 * (num % den)
  if twice < den then below
  else if den < twice then below + 1
  else match tie with
    -- An odd integer goes up to the even one above it, an even one stays.
    | .toEven => below + below % 2
    | .awayFromZero => below + 1

/-- The answer is within half a unit of the quotient. -/
theorem roundDiv_within (tie : Tie) {num den : Nat} (h : 0 < den) :
    2 * num ≤ 2 * den * roundDiv tie num den + den ∧
      2 * den * roundDiv tie num den ≤ 2 * num + den := by
  have hsplit := Nat.div_add_mod num den
  have hmod := Nat.mod_lt num h
  have hodd : num / den % 2 = 0 ∨ num / den % 2 = 1 := by omega
  -- The two candidates, with the product of `den` and the quotient as one atom.
  have up : 2 * den * (num / den + 1) = 2 * (den * (num / den)) + 2 * den := by
    rw [Nat.mul_add, Nat.mul_assoc, Nat.mul_one]
  have down : 2 * den * (num / den) = 2 * (den * (num / den)) := Nat.mul_assoc ..
  unfold roundDiv
  dsimp only
  split
  · omega
  · split
    · omega
    · cases tie with
      | toEven =>
          dsimp only
          rcases hodd with hz | ho
          · rw [hz, Nat.add_zero]; omega
          · rw [ho]; omega
      | awayFromZero => dsimp only; omega

end Packetizer

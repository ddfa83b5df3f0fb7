import Mathlib.Data.Nat.ModEq
import Packetizer.Audio.FrameCount

/-!
# `Packetizer.Proofs.Audio.FrameCount`: counts of frames add up

A count of frames is kept in 64 bits, and a count of samples is a
natural number. Going from one to the other commutes with addition as
long as blocks are whole frames (`ofSamples_add`), whatever the counts
are. Coming back needs that the frames fit (`toNat_ofSamples_mul`), and
so do sums and differences of counts as numbers (`toNat_add`,
`toNat_sub`).
-/

set_option autoImplicit false

namespace Packetizer.FrameCount

@[simp] theorem add_zero (a : FrameCount) : a + ofNat 0 = a :=
  congrArg mk (UInt64.add_zero a.count)

@[simp] theorem zero_add (a : FrameCount) : zero + a = a :=
  congrArg mk (UInt64.zero_add a.count)

theorem add_assoc (a b c : FrameCount) : a + b + c = a + (b + c) :=
  congrArg mk (UInt64.add_assoc a.count b.count c.count)

/-- No samples are no frames. -/
@[simp] theorem ofSamples_zero (channels : Nat) : ofSamples 0 channels = ofNat 0 := by
  rw [ofSamples, Nat.zero_div]

/-- The frames of two blocks are those of both together, if the first
has whole frames. -/
theorem ofSamples_add {m channels : Nat} (h : m % channels = 0) (n : Nat) :
    ofSamples (m + n) channels = ofSamples m channels + ofSamples n channels := by
  have hdiv : (m + n) / channels = m / channels + n / channels :=
    Nat.add_div_of_dvd_right (Nat.dvd_of_mod_eq_zero h)
  rw [ofSamples, hdiv]
  exact congrArg mk (UInt64.ofNat_add _ _)

/-- Whole frames that fit into 64 bits have their samples. -/
theorem toNat_ofSamples_mul {n channels : Nat} (h : n % channels = 0)
    (hfit : n / channels < 2 ^ 64) : (ofSamples n channels).toNat * channels = n := by
  have hcount : (ofSamples n channels).toNat = n / channels :=
    UInt64.toNat_ofNat_of_lt hfit
  rw [hcount]
  exact Nat.div_mul_cancel (Nat.dvd_of_mod_eq_zero h)

/-- Counts that add up within a word add up as numbers. -/
theorem toNat_add {f g : FrameCount} (h : f.toNat + g.toNat < UInt64.size) :
    (f + g).toNat = f.toNat + g.toNat := by
  show (f.count + g.count).toNat = _
  rw [UInt64.toNat_add]
  exact Nat.mod_eq_of_lt h

/-- A count less one that is no larger is the difference of the numbers. -/
theorem toNat_sub {f g : FrameCount} (h : g.toNat ≤ f.toNat) :
    (f - g).toNat = f.toNat - g.toNat :=
  UInt64.toNat_sub_of_le f.count g.count h

end Packetizer.FrameCount

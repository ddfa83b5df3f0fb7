import Packetizer.Proofs.Audio.FrameCount
import Packetizer.Proofs.Audio.SampleRate

/-!
# `Packetizer.Proofs.Audio.Duration`: how long frames last

A duration has whole seconds and nanoseconds, and both come from 64-bit
words that could wrap. They do not: the remainder of a division by a rate
is below 192000, so its product with a thousand million stays within a
word, and the quotient is below a thousand million. From there on the
proofs are about natural numbers: quotient and remainder together are the
exact quotient rounded down (`split_div`), which grows with the frames
and loses at most one when two counts are added.
-/

set_option autoImplicit false

namespace Packetizer

/-- The nanoseconds of a second. -/
def nanosPerSecond : Nat := 1000000000

/-- The whole span in nanoseconds. -/
def Duration.inNanos (d : Duration) : Nat := d.seconds.toNat * nanosPerSecond + d.nanos.toNat

/-- Parts that do not carry over stay as they are. -/
theorem Duration.ofParts_of_lt {seconds : UInt64} {nanos : UInt32}
    (h : nanos.toNat < nanosPerSecond) : ofParts seconds nanos = ⟨seconds, nanos⟩ := by
  rw [ofParts, if_pos]
  rw [UInt32.lt_iff_toNat_lt]
  exact h

section
variable {r : Nat} (n k : Nat)

/-- A quotient and the scaled remainder are the scaled quotient. -/
theorem split_div (hr : 0 < r) : n / r * k + n % r * k / r = n * k / r := by
  have hsplit : n * k = n % r * k + r * (n / r * k) := by
    have hn := Nat.mod_add_div n r
    calc n * k = (n % r + r * (n / r)) * k := by rw [hn]
      _ = n % r * k + r * (n / r * k) := by rw [Nat.add_mul, Nat.mul_assoc]
  rw [hsplit, Nat.add_mul_div_left _ _ hr, Nat.add_comm]

/-- A scaled remainder is below the scale. -/
theorem scaled_mod_lt (hr : 0 < r) (hk : 0 < k) : n % r * k / r < k := by
  rw [Nat.div_lt_iff_lt_mul hr, Nat.mul_comm k r]
  exact Nat.mul_lt_mul_of_pos_right (Nat.mod_lt n hr) hk

/-- Rounding down two numbers loses less than rounding down their sum, and
by less than two. -/
theorem add_div_between (hr : 0 < r) (m : Nat) :
    m / r + n / r ≤ (m + n) / r ∧ (m + n) / r ≤ m / r + n / r + 1 := by
  rw [Nat.add_div hr]
  split <;> omega

end

namespace FrameCount

/-- The parts of a duration are those of the exact quotient: no product, no
narrowing and no carry changes them. -/
theorem duration_parts (f : FrameCount) (rate : SampleRate) :
    f.toNat % rate.hz.toNat * nanosPerSecond < UInt64.size ∧
      (f.duration rate).seconds.toNat = f.toNat / rate.hz.toNat ∧
      (f.duration rate).nanos.toNat = f.toNat % rate.hz.toNat * nanosPerSecond / rate.hz.toNat ∧
      (f.duration rate).nanos.toNat < nanosPerSecond := by
  have hpos := rate.hz_pos
  have hproduct : f.toNat % rate.hz.toNat * nanosPerSecond < UInt64.size := by
    -- The fastest rate leaves the least room, and there is still room.
    have hfast := rate.hz_bounds.2
    have hmod := Nat.mod_lt f.toNat hpos
    simp only [nanosPerSecond, UInt64.size]
    omega
  have hnanos : f.toNat % rate.hz.toNat * nanosPerSecond / rate.hz.toNat < nanosPerSecond :=
    scaled_mod_lt _ _ hpos (by decide)
  -- The word that is narrowed holds the nanoseconds.
  have hword : (f.count % rate.hz * 1000000000 / rate.hz).toNat
      = f.toNat % rate.hz.toNat * nanosPerSecond / rate.hz.toNat := by
    rw [UInt64.toNat_div, UInt64.toNat_mul, UInt64.toNat_mod]
    exact congrArg (· / _) (Nat.mod_eq_of_lt hproduct)
  have hnarrow : (f.count % rate.hz * 1000000000 / rate.hz).toUInt32.toNat
      = f.toNat % rate.hz.toNat * nanosPerSecond / rate.hz.toNat := by
    rw [UInt64.toNat_toUInt32, hword]
    refine Nat.mod_eq_of_lt (Nat.lt_trans hnanos ?_)
    decide
  have hparts : f.duration rate
      = ⟨f.count / rate.hz, (f.count % rate.hz * 1000000000 / rate.hz).toUInt32⟩ := by
    refine Duration.ofParts_of_lt ?_
    rw [hnarrow]
    exact hnanos
  rw [hparts]
  refine ⟨hproduct, ?_, hnarrow, ?_⟩
  · rw [UInt64.toNat_div]
    rfl
  · rw [hnarrow]
    exact hnanos

/-- A duration is the exact one rounded down to nanoseconds. -/
theorem inNanos_duration (f : FrameCount) (rate : SampleRate) :
    (f.duration rate).inNanos = f.toNat * nanosPerSecond / rate.hz.toNat := by
  obtain ⟨-, hseconds, hnanos, -⟩ := f.duration_parts rate
  rw [Duration.inNanos, hseconds, hnanos, split_div _ _ rate.hz_pos]

/-- The duration of some frames is the exact one, rounded down to nanoseconds
with no overflow, no narrowing and no carry on the way. It grows with the
frames, and the durations of two counts miss that of their sum by at most one
nanosecond. -/
theorem duration_exact (rate : SampleRate) (f : FrameCount) :
    let r := rate.hz.toNat
    let d := f.duration rate
    (f.toNat % r * nanosPerSecond < UInt64.size ∧ d.seconds.toNat = f.toNat / r ∧
      d.nanos.toNat = f.toNat % r * nanosPerSecond / r ∧ d.nanos.toNat < nanosPerSecond ∧
      d.inNanos = f.toNat * nanosPerSecond / r) ∧
    ∀ g : FrameCount,
      (f.toNat ≤ g.toNat → d.inNanos ≤ (g.duration rate).inNanos) ∧
      (f.toNat + g.toNat < UInt64.size →
        d.inNanos + (g.duration rate).inNanos ≤ ((f + g).duration rate).inNanos ∧
        ((f + g).duration rate).inNanos ≤ d.inNanos + (g.duration rate).inNanos + 1) := by
  obtain ⟨hproduct, hseconds, hnanos, hbelow⟩ := f.duration_parts rate
  dsimp only
  refine ⟨⟨hproduct, hseconds, hnanos, hbelow, f.inNanos_duration rate⟩, ?_⟩
  intro g
  rw [inNanos_duration, inNanos_duration, inNanos_duration]
  constructor
  · intro hle
    exact Nat.div_le_div_right (Nat.mul_le_mul_right _ hle)
  · intro hfit
    rw [toNat_add hfit, Nat.add_mul]
    exact add_div_between _ rate.hz_pos _

/-- All the frames that fit a word at the fastest rate, but for one, and that
one: the nanosecond is lost. -/
theorem duration_exact_longest :
    let f : FrameCount := ⟨0xFFFFFFFFFFFFFFFE⟩
    let g : FrameCount := ⟨1⟩
    f.duration .hz192000 = ⟨96076792050570, 581322916⟩ ∧ g.duration .hz192000 = ⟨0, 5208⟩ ∧
      (f + g).duration .hz192000 = ⟨96076792050570, 581328125⟩ ∧
      f.toNat + g.toNat < UInt64.size ∧ g.toNat ≤ f.toNat ∧
      (g.duration .hz192000).inNanos ≤ (f.duration .hz192000).inNanos ∧
      ((f + g).duration .hz192000).inNanos
        ≤ (f.duration .hz192000).inNanos + (g.duration .hz192000).inNanos + 1 := by
  intro f g
  have hfit : f.toNat + g.toNat < UInt64.size := by decide
  have hle : g.toNat ≤ f.toNat := by decide
  refine ⟨by decide, by decide, by decide, hfit, hle, ?_, ?_⟩
  · exact ((duration_exact .hz192000 g).2 f).1 hle
  · exact (((duration_exact .hz192000 f).2 g).2 hfit).2

end FrameCount

end Packetizer

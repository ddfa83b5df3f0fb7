import Packetizer.Stream.Sink

/-!
# `Packetizer.Stream.Bytes`: bytes in memory

Bytes in memory are a sink that takes everything.
-/

set_option autoImplicit false

namespace Packetizer

/-- Bytes in memory that have been written. -/
structure OutputBytes where
  bytes : Array UInt8

/-- Nothing written yet. -/
def OutputBytes.empty : OutputBytes := ⟨#[]⟩

instance : Sink OutputBytes where
  write k bs := ⟨.ok bs.length, ⟨k.bytes ++ bs⟩⟩
  patience _ := 0
  accepted_le k bs n h := by
    cases h
    exact Nat.le_refl _
  patience_lt k bs h := by cases h

end Packetizer

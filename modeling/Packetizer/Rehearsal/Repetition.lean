import Packetizer.Codec.Linear16

/-!
# `Packetizer.Rehearsal.Repetition`: packets too long to write out

The result code of a packet is narrowed to 32 bits, and a packet in
which this shows has more than a thousand million samples. A rehearsed
call with so many is given one piece of them and how often it stands in
a row, and tells the bytes of the packet in the same way.
-/

set_option autoImplicit false

namespace Packetizer.Rehearsal

/-- A list that is one piece many times over. -/
structure Repetition (α : Type) where
  piece : List α
  times : Nat

namespace Repetition
variable {α β : Type}

/-- The list written out. -/
def toList (r : Repetition α) : List α := (List.replicate r.times r.piece).flatten

/-- The length of the list. -/
def length (r : Repetition α) : Nat := r.times * r.piece.length

/-- Folds over the list, from the left. -/
@[specialize]
def foldl (f : β → α → β) (start : β) (r : Repetition α) : β :=
  Nat.repeat (r.piece.foldl f) r.times start

end Repetition

/-- What a call gives that finds the same value everywhere in its frame
buffer: the result code, the bytes it writes at the front, and the number
of those behind, which keep the value. -/
structure LongCoded where
  code : Int32
  written : Repetition UInt8
  left : Nat

/-- Encodes a packet into a frame buffer of `size` bytes. -/
def encodeLong (s : Linear16.Session) (size : Nat) (samples : Repetition Sample) : LongCoded :=
  let bytes := samples.length * 2
  if s.framesPerPacket.samples s.channels < samples.length ∨ size < bytes then
    ⟨-1, ⟨[], 0⟩, size⟩
  else ⟨Int32.ofNat bytes, ⟨Linear16.encode samples.piece, samples.times⟩, size - bytes⟩

end Packetizer.Rehearsal

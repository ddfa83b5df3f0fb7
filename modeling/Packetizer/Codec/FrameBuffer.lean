/-!
# `Packetizer.Codec.FrameBuffer`: the buffer a codec writes packets into

A frame buffer has a fixed size and is used again for every packet,
so bytes of an earlier packet stay where a later one does not reach.
It holds the bytes written so far at its front; everything behind
them still has the value the buffer was filled with.
-/

set_option autoImplicit false

namespace Packetizer

/-- A buffer of `size` bytes. -/
structure FrameBuffer where
  size : Nat
  /-- The value of the bytes that were never written. -/
  fill : UInt8
  /-- The front of the buffer, up to the last byte written. -/
  written : List UInt8
  written_le : written.length ≤ size
  deriving DecidableEq

namespace FrameBuffer

/-- A buffer in which every byte has the same value. -/
def filled (size : Nat) (fill : UInt8) : FrameBuffer := ⟨size, fill, [], Nat.zero_le _⟩

/-- A buffer of zeros. -/
def zeros (size : Nat) : FrameBuffer := filled size 0

/-- All bytes of the buffer. -/
def bytes (b : FrameBuffer) : List UInt8 :=
  b.written ++ List.replicate (b.size - b.written.length) b.fill

/-- The first `n` bytes, for `n` up to the size. -/
def front (b : FrameBuffer) (n : Nat) : List UInt8 :=
  b.written.take n ++ List.replicate (n - b.written.length) b.fill

/-- Writes some bytes at the front. Bytes that do not fit are dropped
and the bytes behind keep their value. -/
def overwrite (b : FrameBuffer) (bs : List UInt8) : FrameBuffer where
  size := b.size
  fill := b.fill
  written := bs.take b.size ++ b.written.drop bs.length
  written_le := by
    have := b.written_le
    simp only [List.length_append, List.length_take, List.length_drop]
    omega

/-- Writing keeps the size. -/
@[simp] theorem size_overwrite (b : FrameBuffer) (bs : List UInt8) :
    (b.overwrite bs).size = b.size := rfl

/-- The buffer holds as many bytes as its size says. -/
@[simp] theorem length_bytes (b : FrameBuffer) : b.bytes.length = b.size := by
  have := b.written_le
  simp only [bytes, List.length_append, List.length_replicate]
  omega

/-- The front is where the bytes begin. -/
theorem front_eq_take (b : FrameBuffer) {n : Nat} (h : n ≤ b.size) :
    b.front n = b.bytes.take n := by
  simp only [front, bytes, List.take_append, List.take_replicate]
  congr 2
  omega

end FrameBuffer

end Packetizer

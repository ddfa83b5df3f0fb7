import Packetizer.Stream.Source

/-!
# `Packetizer.Stream.Stoppable`: stopping a source between frames

A `Stoppable` source reports the end as soon as the source inside is
told to stop, but never inside a frame: what is missing of a frame
that has begun is still read.
-/

set_option autoImplicit false

namespace Packetizer

/-- A source that can be stopped between frames of `frameBytes` bytes.
`delivered` counts the bytes since the frames were last set. -/
structure Stoppable (ρ : Type) where
  inner : ρ
  frameBytes : Nat
  delivered : Nat

namespace Stoppable

variable {ρ : Type}

/-- A source that can be stopped after any byte. -/
def ofSource (inner : ρ) : Stoppable ρ := ⟨inner, 1, 0⟩

/-- Sets the frames of everything that is read from here on. -/
def setFrameBytes (s : Stoppable ρ) (n : Nat) : Stoppable ρ :=
  { s with frameBytes := max n 1, delivered := 0 }

/-- The bytes that are missing of the frame that has begun. -/
def missing (s : Stoppable ρ) : Nat :=
  (s.frameBytes - s.delivered % s.frameBytes) % s.frameBytes

variable [Switched ρ]

/-- Passes a read on and counts what it delivers. -/
def pass (s : Stoppable ρ) (n : Nat) : Reading StreamError (Stoppable ρ) (List UInt8) :=
  let x := Source.read s.inner n
  let count := match x.outcome with
    | .ok bs => bs.length
    | .error _ => 0
  ⟨x.outcome, x.log, { s with inner := x.source, delivered := s.delivered + count }⟩

/-- One read. A source that is told to stop is asked for no more than
the missing part of a frame, and not at all between frames. -/
def read (s : Stoppable ρ) (n : Nat) : Reading StreamError (Stoppable ρ) (List UInt8) :=
  if Switched.isRunning s.inner then s.pass n
  else if s.missing = 0 then ⟨.ok [], [], s⟩
  else (s.pass (min n s.missing)).after [.interruptedMidFrame s.missing]

instance : Source (Stoppable ρ) where
  read := read
  size s := Source.size s.inner
  length_read s n bs h := by
    unfold read at h
    split at h
    · exact Source.length_read s.inner n bs h
    · split at h
      · cases h
        exact Nat.zero_le _
      · have := Source.length_read s.inner (min n s.missing) bs h
        omega
  size_read_le s n := by
    unfold read
    split
    · exact Source.size_read_le s.inner n
    · split
      · exact Nat.le_refl _
      · exact Source.size_read_le s.inner _
  size_lt_of_ok s n b bs h := by
    -- Bytes come from the source inside, whether it is to go on or not.
    unfold read at h ⊢
    split at h
    · rename_i hrun
      rw [if_pos hrun]
      exact Source.size_lt_of_ok s.inner n b bs h
    · rename_i hrun
      rw [if_neg hrun]
      split at h
      · cases h
      · rename_i hmissing
        rw [if_neg hmissing]
        exact Source.size_lt_of_ok s.inner _ b bs h
  size_lt_of_interrupted s n h := by
    unfold read at h ⊢
    split at h
    · rename_i hrun
      rw [if_pos hrun]
      exact Source.size_lt_of_interrupted s.inner n h
    · rename_i hrun
      rw [if_neg hrun]
      split at h
      · cases h
      · rename_i hmissing
        rw [if_neg hmissing]
        exact Source.size_lt_of_interrupted s.inner _ h

end Stoppable

end Packetizer

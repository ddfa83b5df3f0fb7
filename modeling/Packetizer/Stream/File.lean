import Packetizer.Stream.Sink
import Packetizer.Stream.Source

/-!
# `Packetizer.Stream.File`: files that have been opened

An `InputFile` delivers its bytes and then ends or fails; a directory is
one that fails at once. An `OutputFile` collects bytes in a buffer and
passes them on when the buffer overflows, so a device without room is
noticed only then, or when `OutputFile.finish` passes on the rest.
-/

set_option autoImplicit false

namespace Packetizer

/-- A file that is read from its front. -/
structure InputFile where
  left : List UInt8
  /-- What happens behind the last byte, when it is not the end. -/
  failure : Option SystemError

namespace InputFile

/-- A file with some bytes. -/
def ofBytes (bytes : List UInt8) : InputFile := ⟨bytes, none⟩

/-- A directory can be opened, but not read. -/
def directory : InputFile := ⟨[], some .isADirectory⟩

/-- One read. Bytes that are there are delivered before any failure. -/
def read (f : InputFile) (n : Nat) : Reading StreamError InputFile (List UInt8) :=
  match f.left, f.failure with
  | [], some error => ⟨.error (.system error), [], f⟩
  | left, _ => ⟨.ok (left.take n), [], { f with left := left.drop n }⟩

instance : Switched InputFile where
  read := read
  size f := f.left.length
  length_read f n bs h := by
    unfold read at h
    split at h
    · cases h
    · cases h
      exact List.length_take_le n _
  size_read_le f n := by
    unfold read
    split
    · exact Nat.le_refl _
    · simp only [List.length_drop]
      omega
  size_lt_of_ok f n b bs h := by
    unfold read at h ⊢
    split at h
    · cases h
    · rename_i hleft
      simp only [Except.ok.injEq] at h
      have := congrArg List.length h
      simp only [List.length_take, List.length_cons] at this
      simp only [List.length_drop]
      omega
  size_lt_of_interrupted f n h := by
    unfold read at h
    split at h <;> cases h
  isRunning _ := true

end InputFile

/-- A file that is written through a buffer. -/
structure OutputFile where
  /-- Whether the device behind the file has no room at all. -/
  isFull : Bool
  /-- All bytes that were taken. -/
  taken : Array UInt8
  /-- How many of them are still in the buffer. -/
  buffered : Nat

namespace OutputFile

/-- The bytes that the buffer holds. -/
def bufferSize : Nat := 8192

/-- A new file on a device with room. -/
def empty : OutputFile := ⟨false, #[], 0⟩

/-- A device without room. -/
def full : OutputFile := ⟨true, #[], 0⟩

/-- Whether some more bytes make the buffer pass something on: those it
holds when there is no room beside them, or else bytes that would fill
it alone. -/
def overflows (f : OutputFile) (more : Nat) : Bool :=
  bufferSize < f.buffered + more || bufferSize ≤ more

/-- The bytes in the buffer after some more are taken. -/
def bufferedAfter (f : OutputFile) (more : Nat) : Nat :=
  if bufferSize ≤ more then 0
  else if bufferSize < f.buffered + more then more
  else f.buffered + more

/-- One write. It takes everything, unless bytes have to be passed on to
a device without room. -/
def write (f : OutputFile) (bs : List UInt8) : Writing OutputFile :=
  if f.isFull && f.overflows bs.length then ⟨.error (.system .storageFull), f⟩
  else ⟨.ok bs.length, { f with taken := f.taken ++ bs, buffered := f.bufferedAfter bs.length }⟩

/-- Passes on what is left in the buffer. -/
def finish (f : OutputFile) : Except SystemError Unit :=
  if f.isFull ∧ f.buffered ≠ 0 then .error .storageFull else .ok ()

/-- The bytes that arrive at the device, those still in the buffer
included: giving a file up passes them on. -/
def bytes (f : OutputFile) : Array UInt8 := if f.isFull then #[] else f.taken

instance : Sink OutputFile where
  write := write
  patience _ := 0
  accepted_le f bs n h := by
    unfold write at h
    split at h <;> cases h
    exact Nat.le_refl _
  patience_lt f bs h := by
    unfold write at h
    split at h <;> cases h

end OutputFile

end Packetizer

import Packetizer.Wave.Header

/-!
# `Packetizer.Wave.Reader`: the samples of a WAVE file

A `Wave.Reader` stands in the data of a file and decodes it frame by
frame. When the header states the size of the data, no byte behind it
is read.
-/

set_option autoImplicit false

namespace Packetizer.Wave

/-- A WAVE file whose header has been read. -/
structure Reader (ρ : Type) where
  source : ρ
  header : Header
  /-- The bytes of the data still to be read, when they are known. -/
  remaining : Option Nat

namespace Reader

variable {ρ : Type}

/-- The reader of a source that stands behind its header. -/
def ofHeader (header : Header) (source : ρ) : Reader ρ :=
  ⟨source, header, header.dataBytes⟩

/-- The channels of the file. -/
def channels (w : Reader ρ) : Nat := w.header.format.channels

/-- The bytes of a sample frame. -/
def blockAlign (w : Reader ρ) : Nat := w.header.format.blockAlign

/-- The bytes to be read for up to so many samples: whole frames, and
none behind the data. -/
def wanted (w : Reader ρ) (capacity : Nat) : Nat :=
  let whole := capacity / w.channels * w.blockAlign
  match w.remaining with
  | some remaining => min whole remaining
  | none => whole

/-- The samples of the whole frames in some bytes. -/
def decode (w : Reader ρ) (bytes : List UInt8) : List Sample :=
  -- The bytes behind the last whole frame are dropped.
  let whole := bytes.length / w.blockAlign * w.blockAlign
  (chunks (w.blockAlign / w.channels) (bytes.take whole)).map w.header.format.encoding.convert

/-- Reads the next samples, as many whole frames as fit into
`capacity`. No samples mean the end of the data. After a failure the
bytes that were taken are not counted. -/
def next [Source ρ] (w : Reader ρ) (capacity : Nat) :
    Reading StreamError (Reader ρ) (List Sample) :=
  let filled := Source.fill w.source (w.wanted capacity)
  match filled.outcome with
  | .error e => ⟨.error e, filled.log, { w with source := filled.source }⟩
  | .ok bytes =>
      ⟨.ok (w.decode bytes), filled.log,
        { w with source := filled.source, remaining := w.remaining.map (· - bytes.length) }⟩

/-- Reads the next samples into a buffer and answers their frames. What
the samples do not reach keeps its value. -/
def readInto [Source ρ] (w : Reader ρ) (buffer : List Sample) :
    Reading StreamError (Reader ρ) (Nat × List Sample) :=
  (w.next buffer.length).map fun samples =>
    (samples.length / w.channels, samples ++ buffer.drop samples.length)

end Reader

end Packetizer.Wave

import Packetizer.Audio.FrameCount
import Packetizer.Stream.Source
import Packetizer.Wave.Encoding

/-!
# `Packetizer.Wave.Header`: the header of a WAVE file

A WAVE file is a RIFF file of chunks, each with a name of four
characters, a size and a body that is filled up to an even length. The
header ends where the body of the `data` chunk begins; `Wave.readHeader`
reads up to there and keeps the last `fmt ` chunk it met. Fields are
read one at a time, so a source is never asked for more than the next
one.
-/

set_option autoImplicit false

namespace Packetizer.Wave

/-- Why a `fmt ` chunk is invalid. -/
inductive FormatFault where
  | shortChunk
  | noChannels
  | noRate
  | blockAlign
  deriving DecidableEq

/-- The wording of each fault. -/
def FormatFault.message : FormatFault → String
  | .shortChunk => "fmt chunk shorter than 16 bytes"
  | .noChannels => "zero channels"
  | .noRate => "zero sample rate"
  | .blockAlign => "bad block alignment"

/-- Why a file cannot be read. -/
inductive Error where
  | notRiff
  | notWave
  /-- The data comes before any format. -/
  | missingFormat
  | invalidFormat (fault : FormatFault)
  /-- No encoding has this tag and this size. -/
  | unsupportedFormat (tag bitsPerSample : Nat)
  | stream (error : StreamError)
  deriving DecidableEq

/-- The wording of each error. -/
def Error.message : Error → String
  | .notRiff => "not a RIFF file"
  | .notWave => "RIFF file is not WAVE"
  | .missingFormat => "data chunk before fmt chunk"
  | .invalidFormat fault => s!"invalid fmt chunk: {fault.message}"
  | .unsupportedFormat tag bits =>
      let shown := Text.hex 4 tag
      s!"unsupported WAVE format {shown} with {bits} bits per sample"
  | .stream error => error.message

/-- What a `fmt ` chunk says. -/
structure Format where
  encoding : Encoding
  channels : Nat
  rate : Nat
  /-- The bytes of a sample frame. -/
  blockAlign : Nat
  /-- The speaker mask. -/
  speakers : Nat
  deriving DecidableEq

/-- What the header of a file says. -/
structure Header where
  format : Format
  /-- The bytes of the data, when they are stated. -/
  dataBytes : Option Nat
  deriving DecidableEq

namespace Header

/-- The whole frames of the data, when its bytes are stated. -/
def frames (h : Header) : Option FrameCount :=
  h.dataBytes.map fun bytes => .ofNat (bytes / h.format.blockAlign)

/-- The line that is logged about a header. -/
def message (h : Header) : Message :=
  .waveHeader h.format.encoding h.format.channels h.format.speakers h.format.rate h.frames

end Header

/-- The speakers of a plain file with so many channels. -/
def defaultSpeakers : Nat → Nat
  | 1 => 0x04
  | 2 => 0x03
  | 3 => 0x07
  | 4 => 0x107
  | 5 => 0x37
  | 6 => 0x3F
  | _ => 0

/-- The tag of a format whose true tag is in an extension. -/
def extensibleTag : Nat := 0xFFFE

/-- The bytes of the extension that are read. -/
def extensionBytes : Nat := 10

/-- The four characters of a chunk name. -/
def chunkName (text : String) : List UInt8 := text.toList.map fun c => c.toNat.toUInt8

variable {ρ : Type}

/-- Reads nothing and answers a value. -/
def answer {α : Type} (r : ρ) (a : α) : Reading Error ρ α := ⟨.ok a, [], r⟩

/-- Reads nothing and fails. -/
def refuse {α : Type} (r : ρ) (e : Error) : Reading Error ρ α := ⟨.error e, [], r⟩

variable [Source ρ]

/-- Reads a field of the header. -/
def field (r : ρ) (width : Nat) : Reading Error ρ Nat :=
  (Source.word r width).mapError .stream

/-- Reads a name of the header. -/
def nameField (r : ρ) : Reading Error ρ (List UInt8) :=
  (Source.exactly r 4).mapError .stream

/-- Reads the rest of a chunk and drops it. -/
def dropBytes (r : ρ) (n : Nat) : Reading Error ρ Unit :=
  (Source.skip r n).mapError .stream

/-- Reads the extension of an extensible format, if there is room for
it: the true tag, the speaker mask and the bytes left of the chunk. A
mask of zero and a format without extension mean the default. -/
def readExtension (r : ρ) (tag channels rest : Nat) : Reading Error ρ (Nat × Nat × Nat) :=
  if tag = extensibleTag ∧ extensionBytes ≤ rest then
    (field r 4).andThen fun _ r =>
    (field r 4).andThen fun mask r =>
    (field r 2).andThen fun tag r =>
      let speakers := if mask = 0 then defaultSpeakers channels else mask
      answer r (tag, speakers, rest - extensionBytes)
  else answer r (tag, defaultSpeakers channels, rest)

/-- Reads the body of a `fmt ` chunk with its padding. The size and
the fields are looked at as soon as the fixed part is read; whether
there is such an encoding only after the whole chunk. -/
def readFormat (r : ρ) (size : Nat) : Reading Error ρ Format :=
  if size < 16 then refuse r (.invalidFormat .shortChunk)
  else
    (field r 2).andThen fun tag r =>
    (field r 2).andThen fun channels r =>
    (field r 4).andThen fun rate r =>
    (field r 4).andThen fun _ r =>
    (field r 2).andThen fun blockAlign r =>
    (field r 2).andThen fun bits r =>
      if channels = 0 then refuse r (.invalidFormat .noChannels)
      else if rate = 0 then refuse r (.invalidFormat .noRate)
      else if blockAlign = 0 ∨ blockAlign % channels ≠ 0 then
        refuse r (.invalidFormat .blockAlign)
      else
        -- From here on the tag is the one of the extension, if there is any.
        (readExtension r tag channels (size - 16)).andThen fun (tag, speakers, rest) r =>
        (dropBytes r (rest + size % 2)).andThen fun _ r =>
          match Encoding.ofTag? tag (blockAlign / channels) with
          | some encoding => answer r ⟨encoding, channels, rate, blockAlign, speakers⟩
          | none => refuse r (.unsupportedFormat tag bits)

/-- The size of data whose length was not known when the header was
written. Zero means the same. -/
def unknownSize : Nat := 0xFFFFFFFF

/-- The header that a format and the size of the data make. -/
def headerOf (format : Format) (size : Nat) : Header :=
  ⟨format, if size = 0 ∨ size = unknownSize then none else some size⟩

/-- Reads the name and the size of a chunk. -/
def readChunkHead (r : ρ) : Reading Error ρ (List UInt8 × Nat) :=
  (nameField r).andThen fun name r =>
  (field r 4).andThen fun size r => answer r (name, size)

/-- Reads a chunk in front of the data: the format it holds, or else
the one known before. -/
def readBody (r : ρ) (known : Option Format) (name : List UInt8) (size : Nat) :
    Reading Error ρ (Option Format) :=
  if name = chunkName "fmt " then (readFormat r size).map some
  else (dropBytes r (size + size % 2)).map fun _ => known

/-- What is read goes on without making the source larger. -/
theorem size_andThen_le {ε α β : Type} (x : Reading ε ρ α) (f : α → ρ → Reading ε ρ β) (n : Nat)
    (hx : Source.size x.source ≤ n)
    (hf : ∀ a r, Source.size r ≤ n → Source.size (f a r).source ≤ n) :
    Source.size (x.andThen f).source ≤ n := by
  unfold Reading.andThen
  split
  · exact hf _ _ hx
  · exact hx

/-- Reading a field does not make the source larger. -/
theorem size_field_le (r : ρ) (width n : Nat) (h : Source.size r ≤ n) :
    Source.size (field r width).source ≤ n :=
  Nat.le_trans (Source.size_word_le r width) h

/-- Dropping bytes does not make the source larger. -/
theorem size_dropBytes_le (r : ρ) (k n : Nat) (h : Source.size r ≤ n) :
    Source.size (dropBytes r k).source ≤ n :=
  Nat.le_trans (Source.size_skip_le r k) h

/-- Reading an extension does not make the source larger. -/
theorem size_readExtension_le (r : ρ) (tag channels rest n : Nat) (h : Source.size r ≤ n) :
    Source.size (readExtension r tag channels rest).source ≤ n := by
  unfold readExtension
  split
  · exact size_andThen_le _ _ n (size_field_le r 4 n h) fun _ r h =>
      size_andThen_le _ _ n (size_field_le r 4 n h) fun _ r h =>
      size_andThen_le _ _ n (size_field_le r 2 n h) fun _ r h => h
  · exact h

/-- Reading a `fmt ` chunk does not make the source larger. -/
theorem size_readFormat_le (r : ρ) (size n : Nat) (h : Source.size r ≤ n) :
    Source.size (readFormat r size).source ≤ n := by
  unfold readFormat
  split
  · exact h
  · refine size_andThen_le _ _ n (size_field_le r 2 n h) fun _ r h => ?_
    refine size_andThen_le _ _ n (size_field_le r 2 n h) fun _ r h => ?_
    refine size_andThen_le _ _ n (size_field_le r 4 n h) fun _ r h => ?_
    refine size_andThen_le _ _ n (size_field_le r 4 n h) fun _ r h => ?_
    refine size_andThen_le _ _ n (size_field_le r 2 n h) fun _ r h => ?_
    refine size_andThen_le _ _ n (size_field_le r 2 n h) fun _ r h => ?_
    split
    · exact h
    · split
      · exact h
      · split
        · exact h
        · refine size_andThen_le _ _ n (size_readExtension_le r _ _ _ n h) fun _ r h => ?_
          refine size_andThen_le _ _ n (size_dropBytes_le r _ n h) fun _ r h => ?_
          split <;> exact h

/-- Reading a chunk does not make the source larger. -/
theorem size_readBody_le (r : ρ) (known : Option Format) (name : List UInt8) (size : Nat) :
    Source.size (readBody r known name size).source ≤ Source.size r := by
  unfold readBody
  split
  · exact size_readFormat_le r size _ (Nat.le_refl _)
  · exact size_dropBytes_le r _ _ (Nat.le_refl _)

/-- A chunk takes at least its name out of the source. -/
theorem size_readChunkHead_lt (r : ρ) {head : List UInt8 × Nat}
    (h : (readChunkHead r).outcome = .ok head) :
    Source.size (readChunkHead r).source < Source.size r := by
  unfold readChunkHead at h ⊢
  cases hn : (nameField r).outcome with
  | error e => simp [Reading.andThen, hn] at h
  | ok name =>
      have hexact : (Source.exactly r 4).outcome = .ok name := by
        have hn : (Source.exactly r 4).outcome.mapError Error.stream = .ok name := hn
        cases he : (Source.exactly r 4).outcome with
        | error e => rw [he] at hn; cases hn
        | ok bs => rw [he] at hn; cases hn; rfl
      -- The name takes four bytes, and the size does not give any back.
      have hlt := Source.size_exactly_lt r (by omega) hexact
      refine Nat.lt_of_le_of_lt ?_ hlt
      simp only [Reading.andThen, hn, Reading.source_after]
      exact size_andThen_le _ _ _
        (size_field_le _ 4 _ (Nat.le_refl (Source.size (Source.exactly r 4).source)))
        fun _ r h => h

/-- Reads chunks up to the body of the data. -/
def readChunks (r : ρ) (known : Option Format) : Reading Error ρ Header :=
  match _h : readChunkHead r with
  | ⟨.error e, log, rest⟩ => ⟨.error e, log, rest⟩
  | ⟨.ok (name, size), log, body⟩ =>
      if name = chunkName "data" then
        match known with
        | none => ⟨.error .missingFormat, log, body⟩
        | some format =>
            let header := headerOf format size
            ⟨.ok header, log ++ [header.message], body⟩
      else
        match _hbody : readBody body known name size with
        | ⟨.error e, more, rest⟩ => ⟨.error e, log ++ more, rest⟩
        | ⟨.ok format, more, rest⟩ => (readChunks rest format).after (log ++ more)
termination_by Source.size r
decreasing_by
  -- Every chunk has a head, and no body makes the source larger.
  have hhead := size_readChunkHead_lt r (congrArg Reading.outcome _h)
  have hbody := size_readBody_le body known name size
  rw [_h] at hhead
  rw [_hbody] at hbody
  exact Nat.lt_of_le_of_lt hbody hhead

/-- Reads a header and leaves the source at the first byte of the data. -/
def readHeader (r : ρ) : Reading Error ρ Header :=
  (nameField r).andThen fun name r =>
  if name ≠ chunkName "RIFF" then refuse r .notRiff
  else
    (field r 4).andThen fun _ r =>
    (nameField r).andThen fun name r =>
      if name ≠ chunkName "WAVE" then refuse r .notWave
      else readChunks r none

end Packetizer.Wave

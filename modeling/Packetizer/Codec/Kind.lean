import Packetizer.Codec.Linear16
import Packetizer.Codec.Lossless

/-!
# `Packetizer.Codec.Kind`: choosing a codec by name

`CodecKind` is the choice between the codecs of the library and is a
codec itself: its sessions are the sessions of the one chosen.
-/

set_option autoImplicit false

namespace Packetizer

/-- The codecs to choose from. -/
inductive CodecKind where
  | lossless
  | linear16
  deriving DecidableEq

namespace CodecKind

/-- Reads the name of a codec, in any case. A name that is unknown is
given back in lower case. -/
def parse (text : String) : Except String CodecKind :=
  match text.toLower with
  | "alac" => .ok lossless
  | "pcm" => .ok linear16
  | "l16" => .ok linear16
  | other => .error s!"unknown codec: {other}"

/-- The name of a codec. -/
def text : CodecKind → String
  | lossless => Lossless.name
  | linear16 => Linear16.name

variable [LosslessCoder]

/-- A session of the codec that was chosen. -/
inductive Session where
  | lossless (session : Lossless.Session)
  | linear16 (session : Linear16.Session)

namespace Session

/-- Encodes with the codec that was chosen. -/
def encodeQuantum (s : Session) (frame : FrameBuffer) (samples : List Sample) :
    Coded Session :=
  match s with
  | lossless s =>
      let coded := s.encodeQuantum frame samples
      ⟨coded.code, coded.frame, lossless coded.session⟩
  | linear16 s =>
      let coded := s.encodeQuantum frame samples
      ⟨coded.code, coded.frame, linear16 coded.session⟩

end Session

instance : CodecSession Session where
  samplesPerFrame
    | .lossless s => CodecSession.samplesPerFrame s
    | .linear16 s => CodecSession.samplesPerFrame s
  maxCodedSize
    | .lossless s => CodecSession.maxCodedSize s
    | .linear16 s => CodecSession.maxCodedSize s
  encodeQuantum s frame samples := s.encodeQuantum frame samples
  close
    | .lossless s => .lossless (CodecSession.close s)
    | .linear16 s => .linear16 (CodecSession.close s)
  backlog _ _ := 0
  size_frame s frame samples := by
    cases s with
    | lossless s => exact CodecSession.size_frame s frame samples
    | linear16 s => exact CodecSession.size_frame s frame samples
  backlog_lt s frame h _ := by
    cases s with
    | lossless s =>
        rw [show (Session.encodeQuantum (.lossless s) frame []).code = 0 from
          s.code_encodeQuantum_nil frame] at h
        exact absurd h (by decide)
    | linear16 s =>
        rw [show (Session.encodeQuantum (.linear16 s) frame []).code = 0 from
          s.code_encodeQuantum_nil frame] at h
        exact absurd h (by decide)

instance : Codec CodecKind Session where
  name := text
  complete
    | lossless, settings => Codec.complete Lossless.lossless settings
    | linear16, settings => Codec.complete Linear16.linear16 settings
  openSession
    | lossless, settings =>
        (Lossless.openSession settings).map fun (s, log) => (.lossless s, log)
    | linear16, settings =>
        (Linear16.openSession settings).map fun (s, log) => (.linear16 s, log)

end CodecKind

end Packetizer

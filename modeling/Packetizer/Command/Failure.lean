import Packetizer.Encoder.Error
import Packetizer.Text.Quoted
import Packetizer.Wave.Header

/-!
# `Packetizer.Command.Failure`: why the command failed

Every failure of the command and its line of output, which names the
cause and its data.
-/

set_option autoImplicit false

namespace Packetizer.Command

/-- Why the command failed. -/
inductive Failure where
  | unknownCodec (message : String)
  /-- A file cannot be opened, or the output cannot be finished. -/
  | file (error : SystemError)
  | wave (error : Wave.Error)
  /-- A WAVE file has more channels than can be encoded. -/
  | tooManyChannels
  | rate (error : RateError)
  | encode (error : EncodeError)

/-- A group of named values. -/
def record (name : String) (fields : List (String × String)) : String :=
  let shown := fields.map fun (key, value) => s!"{key}: {value}"
  name ++ " \x7b " ++ ", ".intercalate shown ++ " \x7d"

/-- The name of the kind of a system error. -/
def systemKindName : SystemError → String
  | .notFound => "NotFound"
  | .permissionDenied => "PermissionDenied"
  | .notADirectory => "NotADirectory"
  | .isADirectory => "IsADirectory"
  | .storageFull => "StorageFull"
  | .nameTooLong => "InvalidFilename"
  | .other _ _ => "Uncategorized"

/-- The name of a kind of stream error. -/
def kindName : StreamErrorKind → String
  | .unexpectedEnd => "UnexpectedEof"
  | .writeZero => "WriteZero"
  | .interrupted => "Interrupted"
  | .system error => systemKindName error
  | .other => "Other"

/-- A system error as it is shown. -/
def shownSystem (e : SystemError) : String :=
  record "Os"
    [("code", toString e.number), ("kind", systemKindName e),
      ("message", Text.quoted e.message)]

/-- A stream error as it is shown. Errors of the byte streams
themselves carry a message, the others an error of their own. -/
def shownStream (e : StreamError) : String :=
  let kind := ("kind", kindName e.kind)
  match e with
  | .endInsideField => record "Error" [kind, ("message", Text.quoted e.message)]
  | .nothingAccepted => record "Error" [kind, ("message", Text.quoted e.message)]
  | .interrupted => record "Custom" [kind, ("error", Text.quoted e.message)]
  | .truncatedChunk => record "Custom" [kind, ("error", Text.quoted e.message)]
  | .system error => shownSystem error
  | .other _ => record "Custom" [kind, ("error", Text.quoted e.message)]

/-- An error of an encoder as it is shown. -/
def shownEncode : EncodeError → String
  | .ragged samples channels =>
      record "InvalidInputShape"
        [("samples", toString samples), ("channels", toString channels)]
  | .insufficient requested available =>
      record "InsufficientSamples"
        [("requested", toString requested), ("available", toString available)]
  | .setup fault => s!"InitFailure({Text.quoted fault.message})"
  | .coding packet code =>
      record "EncodingFailure" [("frame", toString packet), ("code", toString code)]
  | .finalized => "SessionFinalized"
  | .stream e => s!"Io({shownStream e})"

/-- An error of a WAVE file as it is shown. -/
def shownWave : Wave.Error → String
  | .notRiff => "NotRiff"
  | .notWave => "NotWave"
  | .missingFormat => "MissingFormat"
  | .invalidFormat fault => s!"InvalidFormat({Text.quoted fault.message})"
  | .unsupportedFormat tag bits =>
      record "UnsupportedFormat"
        [("tag", toString tag), ("bits_per_sample", toString bits)]
  | .stream e => s!"Io({shownStream e})"

/-- A failure as it is shown. -/
def Failure.shown : Failure → String
  | .unknownCodec message => Text.quoted message
  | .file e => shownSystem e
  | .wave e => shownWave e
  | .tooManyChannels => "TryFromIntError(PosOverflow)"
  | .rate (.unsupported hz) => s!"InvalidSampleRate({hz})"
  | .rate .notANumber => "NotANumber"
  | .encode e => shownEncode e

end Packetizer.Command

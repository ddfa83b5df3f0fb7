import Packetizer.Codec.Kind
import Packetizer.Command.Arguments
import Packetizer.Command.Progress
import Packetizer.Command.Usage
import Packetizer.Stream.File

/-!
# `Packetizer.Command.Run`: the command as a whole

`execute` goes from the arguments to everything the command leaves
behind: its exit code, what it prints and logs, and the bytes of its
output. Files are opened through `Files`, which the caller gives, and
lossless packets come from the `LosslessCoder` in scope; the input is
opened before the output, and an output once created stays, whatever
happens then.
-/

set_option autoImplicit false

namespace Packetizer.Command

/-- What the command leaves behind. -/
structure Execution where
  exit : Nat
  /-- The text printed to standard output. -/
  printed : String
  /-- The lines of standard error. -/
  lines : List String
  /-- The name of the output that was created and its bytes. -/
  output : Option (String × Array UInt8)

/-- The name that stands for standard input and output. -/
def standardStream : String := "-"

/-- How files are opened. -/
structure Files (ρ : Type) where
  /-- The input of that name. -/
  openInput : String → Except SystemError ρ
  /-- Creates the output of the second name. The input of the first name
  is open by then and is answered as that leaves it: when both are the
  same file, it is empty. -/
  createOutput : String → String → ρ → Except SystemError (ρ × OutputFile)

/-- The gravest level, and those below it that a number lets through. -/
def levelOf : Nat → Level
  | 0 => .error
  | 1 => .warn
  | 2 => .info
  | 3 => .debug
  | _ => .trace

/-- The line of a message. -/
def logLine (m : Message) : String := s!"{m.level.name} - {m.text}"

/-- What encoding came to: the bytes written and all events. -/
structure Finished where
  result : Except Failure Unit
  bytes : Array UInt8
  events : List Event

/-- The summary of an encoder. -/
def summaryOf {σ η : Type} [CodecSession σ] (e : Encoder σ η) (codec : CodecKind) : Summary where
  duration := e.framesIn.duration e.settings.rate
  packets := e.packets
  codec := codec.text
  framesPerPacket := (e.session.map CodecSession.samplesPerFrame).getD .zero
  bytes := e.bytes

/-- Ends a run of the encoder: after success, the end of the output
included, with the summary and a close, and after a failure by giving
the encoder up. -/
def conclude {σ η : Type} [CodecSession σ] (codec : CodecKind) (o : Outcome σ η OutputFile)
    (before : List Event) : Finished :=
  match o.result.bind fun _ => o.sink.finish.mapError .file with
  | .error e => ⟨.error e, o.sink.bytes, before ++ o.events ++ o.encoder.discard.2⟩
  | .ok () =>
      let summary := Event.logged (.summary (summaryOf o.encoder codec))
      ⟨.ok (), o.sink.bytes, before ++ o.events ++ summary :: o.encoder.close.2⟩

/-- A run that failed before there was an encoder. -/
def failed (e : Failure) (events : List Event) : Finished := ⟨.error e, #[], events⟩

/-- The settings that the arguments ask for. -/
def Job.settings (job : Job) : Settings :=
  if job.frames = 0 then {} else { framesPerPacket := some (.ofNat job.frames) }

/-- Encodes raw samples. -/
def encodeRaw {ρ : Type} [LosslessCoder] [Switched ρ] (job : Job) (codec : CodecKind)
    (input : ρ) (output : OutputFile) : Finished :=
  match SampleRate.ofHz (UInt64.ofNat job.rate) with
  | .error e => failed (.rate e) []
  | .ok rate =>
      let settings := { job.settings with channels := UInt8.ofNat job.channels, rate := rate }
      match Encoder.start codec settings (none : Option A52Order) with
      | .refused fault => failed (.encode (.setup fault)) []
      | .rejected fault _ events => failed (.encode (.setup fault)) events
      | .ready encoder before =>
          -- Raw audio has no header, so its frames begin with the first byte.
          let source := (Stoppable.ofSource input).setFrameBytes (encoder.channels * sampleBytes)
          let step := encoder.encodeSource source output
          conclude codec
            ⟨step.outcome.mapError .encode, step.encoder, step.sink, step.events⟩ before

/-- The failure that a file without settings is. -/
def ofMismatch : WaveMismatch → Failure
  | .tooManyChannels => .tooManyChannels
  | .rate e => .rate e

/-- Encodes a WAVE file. -/
def encodeFile {ρ : Type} [LosslessCoder] [Switched ρ] (job : Job) (codec : CodecKind)
    (input : ρ) (output : OutputFile) : Finished :=
  let opened := openWave input
  let header := Event.ofLog opened.log
  match opened.outcome with
  | .error e => failed (.wave e) header
  | .ok reader =>
      match job.settings.ofWave reader.header.format with
      | .error e => failed (ofMismatch e) header
      | .ok settings =>
          let hook := if job.keepOrder then none else some A52Order.a52Order
          match Encoder.start codec settings hook with
          | .refused fault => failed (.encode (.setup fault)) header
          | .rejected fault _ events => failed (.encode (.setup fault)) (header ++ events)
          | .ready encoder before =>
              let t : Transcoding _ _ _ _ := ⟨reader, encoder, output⟩
              conclude codec (encodeWave t reader.header.frames .zero #[]) (header ++ before)

/-- What a failure before the output leaves behind. -/
def stopped (e : Failure) : Execution := ⟨1, "", [s!"Error: {e.shown}"], none⟩

/-- What an encoding with an output leaves behind. -/
def Finished.execution (f : Finished) (job : Job) : Execution :=
  let log := (messagesWithin (levelOf job.level) f.events).map logLine
  match f.result with
  | .ok () => ⟨0, "", log, some (job.output, f.bytes)⟩
  | .error e => ⟨1, "", log ++ [s!"Error: {e.shown}"], some (job.output, f.bytes)⟩

/-- Runs an encoding. -/
def Job.execute {ρ : Type} [LosslessCoder] [Switched ρ] (job : Job) (files : Files ρ) :
    Execution :=
  match CodecKind.parse job.codec with
  | .error message => stopped (.unknownCodec message)
  | .ok codec =>
      match files.openInput job.input with
      | .error e => stopped (.file e)
      | .ok input =>
          match files.createOutput job.input job.output input with
          | .error e => stopped (.file e)
          | .ok (input, output) =>
              let finished := if job.raw then encodeRaw job codec input output
                else encodeFile job codec input output
              finished.execution job

/-- Runs the command. Wrong arguments leave nothing behind. -/
def execute {ρ : Type} [LosslessCoder] [Switched ρ] (arguments : List String)
    (files : Files ρ) : Execution :=
  match Request.parse arguments with
  | none => ⟨1, "", [], none⟩
  | some .help => ⟨0, usage, [], none⟩
  | some (.encode job) => job.execute files

end Packetizer.Command

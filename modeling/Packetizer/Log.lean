import Packetizer.Audio.Layout
import Packetizer.Audio.Sample
import Packetizer.Summary
import Packetizer.Wave.Encoding

/-!
# `Packetizer.Log`: what happened while a stream was encoded

A `Message` is a line of the log with a level. An `Event` is a message
or something done to the outside: a buffer handed to a hook or to the
codec, a write that the sink took, the release of the session. Every
operation answers the events it caused, in order.
-/

set_option autoImplicit false

namespace Packetizer

/-- The weight of a message, the gravest first. -/
inductive Level where
  | error | warn | info | debug | trace
  deriving DecidableEq

namespace Level

/-- The place of a level, the gravest first. -/
def rank : Level → Nat
  | error => 1
  | warn => 2
  | info => 3
  | debug => 4
  | trace => 5

/-- The name of a level. -/
def name : Level → String
  | error => "ERROR"
  | warn => "WARN"
  | info => "INFO"
  | debug => "DEBUG"
  | trace => "TRACE"

/-- Whether a log kept up to `most` shows a level. -/
def within (level most : Level) : Bool := level.rank ≤ most.rank

end Level

/-- A line of the log. -/
inductive Message where
  /-- Samples arrive beside those carried over. -/
  | accumulating (samples carried : Nat)
  /-- The arrived samples are gathered. -/
  | gathered (quanta carried : Nat)
  /-- A stopped source still completes a frame. -/
  | interruptedMidFrame (missing : Nat)
  /-- The codec answered a bad result code. -/
  | codecFailed (packet : Nat) (code : Int32)
  /-- A packet is written. -/
  | emitted (index samples bytes : Nat)
  /-- The input ends inside a sample. -/
  | strayBytes (count : Nat)
  /-- An encoder is open. -/
  | opened (codec : String) (channels : Nat) (rate : SampleRate)
      (frames : FrameCount) (maxBytes : Nat)
  /-- The last samples are encoded. -/
  | flushing (samples : Nat)
  /-- The codec is drained. -/
  | flushed (packets bytes : Nat)
  /-- The encoder is closed. -/
  | closed (packets bytes : Nat)
  /-- The codec session is given back. -/
  | releasing
  /-- A session of 16-bit linear audio is open. -/
  | linearSession (channels : Nat) (frames : FrameCount)
  /-- A session of lossless audio is open. -/
  | losslessSession (channels : Nat) (rate : SampleRate) (frames : FrameCount)
  /-- The header of a WAVE file is read. -/
  | waveHeader (encoding : Wave.Encoding) (channels speakers rate : Nat)
      (frames : Option FrameCount)
  /-- The part of a stream that is encoded, in percent. -/
  | progressPercent (percent : Nat)
  /-- The part of a stream that is encoded, in time. -/
  | progressTime (done : Duration)
  /-- What the stream amounts to. -/
  | summary (summary : Summary)
  deriving DecidableEq

namespace Message

/-- The level of a message. -/
def level : Message → Level
  | accumulating .. => .trace
  | gathered .. => .trace
  | interruptedMidFrame .. => .debug
  | codecFailed .. => .error
  | emitted .. => .debug
  | strayBytes .. => .warn
  | opened .. => .info
  | flushing .. => .debug
  | flushed .. => .info
  | closed .. => .info
  | releasing => .debug
  | linearSession .. => .info
  | losslessSession .. => .info
  | waveHeader .. => .debug
  | progressPercent .. => .info
  | progressTime .. => .info
  | summary .. => .info

/-- The wording of a message. -/
def text : Message → String
  | accumulating samples carried =>
      s!"accumulating {samples} samples onto {carried} carried over"
  | gathered quanta carried =>
      s!"completed {quanta} quanta, {carried} samples carried over"
  | interruptedMidFrame missing =>
      s!"interrupted mid frame, reading {missing} more bytes"
  | codecFailed packet code => s!"codec failed on frame {packet} with {code}"
  | emitted index samples bytes =>
      s!"frame {index}: {samples} samples in, {bytes} bytes out"
  | strayBytes count => s!"input ends with a partial sample ({count} stray bytes)"
  | opened codec channels rate frames maxBytes =>
      s!"opened {codec} encoder: {channels} channels at {rate.text} Hz, " ++
        s!"{frames.text} frames per quantum, frames up to {maxBytes} bytes"
  | flushing samples => s!"flushing {samples} pending samples"
  | flushed packets bytes => s!"flushed after {packets} frames, {bytes} bytes"
  | closed packets bytes => s!"closed encoder after {packets} frames, {bytes} bytes"
  | releasing => "releasing codec session"
  | linearSession channels frames =>
      s!"PCM session: {channels} channels, {frames.text} frames per packet"
  | losslessSession channels rate frames =>
      s!"ALAC session: {channels} channels at {rate.text} Hz, " ++
        s!"{frames.text} frames per packet"
  | waveHeader encoding channels speakers rate frames =>
      let mask := Text.hex 0 speakers
      let length := (frames.map FrameCount.text).getD "unknown"
      s!"wav: {encoding.name}, {channels} channels (mask {mask}), {rate} Hz, " ++
        s!"{length} frames"
  | progressPercent percent => s!"progress: {percent}%"
  | progressTime done =>
      let seconds := Text.fixed 1 (done.inSeconds binary32)
      s!"progress: {seconds} s"
  | summary s => s.text

end Message

/-- What an operation did. -/
inductive Event where
  /-- A line was logged. -/
  | logged (message : Message)
  /-- A buffer was handed to the hook. -/
  | remapped (layout : StreamLayout) (samples : List Sample)
  /-- The codec was called: the samples as they were gathered, as the
  hook left them, and the result code. -/
  | coded (gathered given : List Sample) (code : Int32)
  /-- The sink took some bytes in one write. -/
  | wrote (bytes : List UInt8)
  /-- The codec session was released. -/
  | released

namespace Event

/-- The events of some logged lines. -/
def ofLog (log : List Message) : List Event := log.map logged

/-- The line of the log that an event is, if any. -/
def message? : Event → Option Message
  | logged message => some message
  | _ => none

end Event

/-- The log of some events, up to a level. -/
def messagesWithin (most : Level) (events : List Event) : List Message :=
  (events.filterMap Event.message?).filter fun m => m.level.within most

end Packetizer

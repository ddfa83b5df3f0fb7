import Packetizer.Encoder.PacketWriter
import Packetizer.Encoder.QuantumBuffer
import Packetizer.Stream.Bytes

/-!
# `Packetizer.Encoder.Basic`: encoding a stream block by block

An `Encoder` gathers blocks of interleaved samples into quanta and
encodes each quantum as soon as it is full. `Encoder.flush` encodes
what is left and drains the codec; after that, and after a failure,
the encoder accepts nothing but `Encoder.close`.

Every operation answers a `Step`: its outcome, the encoder and the sink
afterwards, and the events it caused.
-/

set_option autoImplicit false

namespace Packetizer

/-- Where an encoder stands. -/
inductive EncoderState where
  /-- It takes samples. -/
  | ready
  /-- The stream has ended. -/
  | flushed
  /-- The codec or the sink of an operation has failed. -/
  | failed
  /-- The session is released. -/
  | closed
  deriving DecidableEq

/-- An encoder for one stream. -/
structure Encoder (σ η : Type) where
  settings : Settings
  gatherer : QuantumBuffer
  writer : PacketWriter σ η
  state : EncoderState
  /-- The sample frames accepted so far. -/
  framesIn : FrameCount

/-- What an operation gave. -/
structure Step (σ η κ α : Type) where
  outcome : Except EncodeError α
  encoder : Encoder σ η
  sink : κ
  events : List Event

/-- The same step with the bytes of its sink as its answer. -/
def Step.collect {σ η : Type} (s : Step σ η OutputBytes Unit) :
    Step σ η OutputBytes (Array UInt8) :=
  { s with outcome := s.outcome.map fun _ => s.sink.bytes }

/-- What starting an encoder gave. -/
inductive Opening (σ η : Type) where
  /-- The codec opened no session. -/
  | refused (fault : SetupFault)
  /-- A session was opened, found useless and released. -/
  | rejected (fault : SetupFault) (remains : Lease σ) (events : List Event)
  /-- The encoder is ready. -/
  | ready (encoder : Encoder σ η) (events : List Event)

/-- The packet writer and the sink while quanta are encoded, and the
events so far. -/
structure Output (σ η κ : Type) where
  writer : PacketWriter σ η
  sink : κ
  events : Array Event

namespace Output

variable {σ η κ : Type} [CodecSession σ] [RemapHook η] [Sink κ]

/-- Encodes a quantum. The hook has changed the working buffer by then. -/
def consume (o : Output σ η κ) (quantum : List Sample) : Consumed (Output σ η κ) :=
  let emission := o.writer.emit o.sink quantum
  ⟨emission.outcome.map fun _ => (), emission.buffer,
    ⟨emission.writer, emission.sink, o.events ++ emission.events⟩⟩

end Output

namespace Encoder

variable {σ η κ : Type}

/-- An encoder for a session of known geometry. -/
def ofSession (settings : Settings) (session : σ) (g : Geometry) (maxCodedSize : Nat)
    (hook : Option η) : Encoder σ η where
  settings := settings
  gatherer := .empty g
  writer := ⟨.held session, .zeros maxCodedSize, settings.layout, hook, 0, 0⟩
  state := .ready
  framesIn := .zero

/-- Starts an encoder. The codec completes the settings and opens a
session; a session without channels, without samples or without bytes
to write is released again. -/
def start {γ : Type} [Codec γ σ] [CodecSession σ] (codec : γ) (settings : Settings)
    (hook : Option η) : Opening σ η :=
  let settings := Codec.complete codec settings
  match Codec.openSession codec settings with
  | .error fault => .refused fault
  | .ok (session, log) =>
      let reject (fault : SetupFault) : Opening σ η :=
        let (remains, events) := (Lease.held session).close
        .rejected fault remains (Event.ofLog log ++ events)
      let channels := settings.channels.toNat
      let frames := CodecSession.samplesPerFrame session
      let maxCodedSize := CodecSession.maxCodedSize session
      if hc : channels = 0 then reject .noChannels
      else if hf : frames.toNat = 0 then reject .emptyFrame
      else if maxCodedSize = 0 then reject .noCodedSize
      else
        let g : Geometry :=
          ⟨channels, frames.toNat, Nat.pos_of_ne_zero hc, Nat.pos_of_ne_zero hf⟩
        let opened := .opened (Codec.name codec) channels settings.rate frames maxCodedSize
        .ready (ofSession settings session g maxCodedSize hook)
          (Event.ofLog (log ++ [opened]))

/-- Sets the hook for everything that is encoded from here on. -/
def setHook (e : Encoder σ η) (hook : η) : Encoder σ η :=
  { e with writer := { e.writer with hook := some hook } }

/-- The channels of the stream. -/
def channels (e : Encoder σ η) : Nat := e.gatherer.channels

/-- The interleaved samples of a call of the codec. -/
def quantum (e : Encoder σ η) : Nat := e.gatherer.quantum

/-- The samples that wait for a quantum to fill. -/
def carried (e : Encoder σ η) : Nat := e.gatherer.carried

/-- The packets that sinks have taken. -/
def packets (e : Encoder σ η) : Nat := e.writer.packets

/-- The bytes that sinks have taken. -/
def bytes (e : Encoder σ η) : Nat := e.writer.bytes

/-- The codec session, until it is released. -/
def session (e : Encoder σ η) : Option σ := e.writer.lease.get

/-- Refuses an encoder whose stream has ended or failed. -/
def requireReady (e : Encoder σ η) : Except EncodeError Unit :=
  if e.state = .ready then .ok () else .error .finalized

/-- The encoder after an error of one of its operations. -/
def fail (e : Encoder σ η) (error : EncodeError) : Encoder σ η :=
  if error.isRecoverable then e else { e with state := .failed }

/-- Releases the session, the first time it is called. -/
def close [CodecSession σ] (e : Encoder σ η) : Encoder σ η × List Event :=
  let (lease, events) := e.writer.lease.close
  let log := if e.writer.lease.isHeld then [.logged (.closed e.packets e.bytes)] else []
  ({ e with writer := { e.writer with lease := lease }, state := .closed }, events ++ log)

/-- What happens to an encoder that nobody needs any more: the session
is released, unless it was before. -/
def discard [CodecSession σ] (e : Encoder σ η) : Lease σ × List Event := e.writer.lease.close

variable [CodecSession σ] [RemapHook η] [Sink κ]

/-- Encodes a block of interleaved samples, a whole number of frames. -/
def encode (e : Encoder σ η) (samples : List Sample) (k : κ) : Step σ η κ Unit :=
  match e.requireReady with
  | .error error => ⟨.error error, e, k, []⟩
  | .ok () =>
      let g := e.gatherer.push Output.consume samples ⟨e.writer, k, #[]⟩
      let events := Event.ofLog g.before ++ g.consumer.events.toList ++ Event.ofLog g.after
      -- What was gathered and written stays, also when a quantum failed.
      let e := { e with gatherer := g.buffer, writer := g.consumer.writer }
      match g.outcome with
      | .error error => ⟨.error error, e.fail error, g.consumer.sink, events⟩
      | .ok _ =>
          let framesIn := e.framesIn + .ofSamples samples.length e.channels
          ⟨.ok (), { e with framesIn := framesIn }, g.consumer.sink, events⟩

/-- Encodes the first `frames` frames of some samples. Whether there
are so many is looked at before anything else. -/
def encodeFrames (e : Encoder σ η) (samples : List Sample) (frames : FrameCount) (k : κ) :
    Step σ η κ Unit :=
  let requested := frames.samples e.channels
  if samples.length < requested then
    ⟨.error (.insufficient requested samples.length), e, k, []⟩
  else e.encode (samples.take requested) k

/-- Encodes a block and answers the bytes. -/
def encodeToBytes (e : Encoder σ η) (samples : List Sample) :
    Step σ η OutputBytes (Array UInt8) :=
  (e.encode samples OutputBytes.empty).collect

/-- Encodes the samples carried over and drains the codec. -/
def flush (e : Encoder σ η) (k : κ) : Step σ η κ Unit :=
  match e.requireReady with
  | .error error => ⟨.error error, e, k, []⟩
  | .ok () =>
      let (pending, gatherer) := e.gatherer.takePending
      let emission := e.writer.emitAll k pending
      let events := .logged (.flushing pending.length) :: emission.events
      let e := { e with gatherer := gatherer, writer := emission.writer }
      match emission.outcome with
      | .error error => ⟨.error error, e.fail error, emission.sink, events⟩
      | .ok _ =>
          ⟨.ok (), { e with state := .flushed }, emission.sink,
            events ++ [.logged (.flushed e.packets e.bytes)]⟩

/-- Flushes and answers the bytes. -/
def flushToBytes (e : Encoder σ η) : Step σ η OutputBytes (Array UInt8) :=
  (e.flush OutputBytes.empty).collect

end Encoder

end Packetizer

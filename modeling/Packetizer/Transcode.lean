import Packetizer.Encoder.FromSource
import Packetizer.Stream.Stoppable
import Packetizer.Wave.Reader

/-!
# `Packetizer.Transcode`: from a WAVE file to packets

A `Transcoding` joins the reader of a WAVE file, an encoder and a sink.
`Transcoding.next` reads up to a quantum of samples and encodes them;
both the command line, which gives up at the first error, and
`Transcoding.turns`, which goes on until the file ends, repeat it.
-/

set_option autoImplicit false

namespace Packetizer

/-- The settings for a WAVE file do not exist. -/
inductive WaveMismatch where
  /-- There are more channels than settings can name. -/
  | tooManyChannels
  /-- The sample rate is not supported. -/
  | rate (error : RateError)

/-- Puts the channels, the rate and the speakers of a file into the
settings. -/
def Settings.ofWave (s : Settings) (format : Wave.Format) : Except WaveMismatch Settings :=
  if 255 < format.channels then .error .tooManyChannels
  else
    match SampleRate.ofHz (UInt64.ofNat format.rate) with
    | .error e => .error (.rate e)
    | .ok rate =>
        .ok { s with
          channels := UInt8.ofNat format.channels
          rate := rate
          speakers := some (UInt32.ofNat format.speakers) }

/-- Reads the header of a file that can be stopped between its frames. -/
def openWave {ρ : Type} [Switched ρ] (input : ρ) :
    Reading Wave.Error (Stoppable ρ) (Wave.Reader (Stoppable ρ)) :=
  (Wave.readHeader (Stoppable.ofSource input)).andThen fun header source =>
    let source := source.setFrameBytes header.format.blockAlign
    ⟨.ok (.ofHeader header source), [], source⟩

/-- A file on its way through an encoder into a sink. -/
structure Transcoding (σ η κ ρ : Type) where
  reader : Wave.Reader ρ
  encoder : Encoder σ η
  sink : κ

/-- What one turn of a transcoding did. -/
inductive Turn (σ η κ ρ : Type) where
  /-- The file is at its end. -/
  | ended (after : Transcoding σ η κ ρ) (events : List Event)
  /-- The file could not be read. -/
  | unreadable (error : StreamError) (after : Transcoding σ η κ ρ) (events : List Event)
  /-- Samples were read and given to the encoder. -/
  | encoded (outcome : Except EncodeError Unit) (after : Transcoding σ η κ ρ)
      (events : List Event)

namespace Transcoding

variable {σ η κ ρ : Type}

/-- A bound on the turns that are left. -/
def size [Source ρ] (t : Transcoding σ η κ ρ) : Nat := Source.size t.reader.source

variable [CodecSession σ] [RemapHook η] [Sink κ] [Source ρ]

/-- Reads up to a quantum of samples and encodes them. -/
def next (t : Transcoding σ η κ ρ) : Turn σ η κ ρ :=
  let x := t.reader.next t.encoder.quantum
  let log := Event.ofLog x.log
  match x.outcome with
  | .error e => .unreadable e { t with reader := x.source } log
  | .ok [] => .ended { t with reader := x.source } log
  | .ok (s :: samples) =>
      let step := t.encoder.encode (s :: samples) t.sink
      .encoded step.outcome ⟨x.source, step.encoder, step.sink⟩ (log ++ step.events)

/-- A turn that encodes has read something. -/
theorem size_lt_of_encoded (t : Transcoding σ η κ ρ) {outcome : Except EncodeError Unit}
    {after : Transcoding σ η κ ρ} {events : List Event}
    (h : t.next = .encoded outcome after events) : after.size < t.size := by
  unfold next at h
  dsimp only at h
  split at h
  · cases h
  · cases h
  · rename_i s samples hx
    cases h
    unfold size
    dsimp only
    unfold Wave.Reader.next at hx ⊢
    dsimp only at hx ⊢
    split at hx
    · cases hx
    · rename_i bytes hfill
      simp only [Except.ok.injEq] at hx
      -- Samples come out of bytes, and reading those brought the end nearer.
      match bytes, hfill with
      | [], _ => simp [Wave.Reader.decode] at hx
      | b :: bs, hfill =>
          exact Source.size_fill_lt _ _ hfill

/-- What is reported of a transcoding. -/
inductive Report (σ η κ : Type) where
  /-- Reading failed. -/
  | unreadable (error : StreamError)
  /-- Samples were encoded, or the flush was made. -/
  | step (step : Step σ η κ Unit)

/-- The flush at the end, reported with what happened before it. -/
def finish (t : Transcoding σ η κ ρ) (events : List Event) : Report σ η κ :=
  let step := t.encoder.flush t.sink
  .step { step with events := events ++ step.events }

/-- All turns up to the end of the file or a read that fails, going on
after errors of the encoder, and the flush at the end. `done` holds the
turns so far. -/
def turnsAfter (t : Transcoding σ η κ ρ) (done : Array (Report σ η κ)) :
    Array (Report σ η κ) :=
  match _h : t.next with
  | .encoded outcome after events =>
      turnsAfter after (done.push (.step ⟨outcome, after.encoder, after.sink, events⟩))
  | .unreadable e after events => (done.push (.unreadable e)).push (after.finish events)
  | .ended after events => done.push (after.finish events)
termination_by t.size
decreasing_by exact size_lt_of_encoded t _h

/-- What is reported of a transcoding from its start to its end. -/
def turns (t : Transcoding σ η κ ρ) : List (Report σ η κ) := (t.turnsAfter #[]).toList

end Transcoding

end Packetizer

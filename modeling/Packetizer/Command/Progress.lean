import Packetizer.Command.Failure
import Packetizer.Transcode

/-!
# `Packetizer.Command.Progress`: encoding a WAVE file with reports

The loop of the command line: it stops at the first error, flushes at
the end of the file and reports its progress whenever ten more seconds
of audio have been encoded.
-/

set_option autoImplicit false

namespace Packetizer.Command

/-- The seconds of audio between two reports at least. -/
def reportSeconds : Nat := 10

/-- How far a stream is, for `done` frames of `total`. -/
def progress (done : FrameCount) (total : Option FrameCount) (rate : SampleRate) : Message :=
  match total with
  | some total =>
      if total.isZero then .progressTime (done.duration rate)
      else .progressPercent (done.toNat * 100 / total.toNat)
  | none => .progressTime (done.duration rate)

/-- Whether the frames since the last report are worth another one. -/
def isDue (done reported : FrameCount) (rate : SampleRate) : Bool :=
  rate.hz.toNat * reportSeconds ≤ (done - reported).toNat

/-- What a run of the encoder came to. -/
structure Outcome (σ η κ : Type) where
  result : Except Failure Unit
  encoder : Encoder σ η
  sink : κ
  events : List Event

variable {σ η κ ρ : Type} [CodecSession σ] [RemapHook η] [Sink κ] [Source ρ]

/-- Encodes a file to its end. `reported` is the length at the last
report and `done` holds the events so far. -/
def encodeWave (t : Transcoding σ η κ ρ) (total : Option FrameCount) (reported : FrameCount)
    (done : Array Event) : Outcome σ η κ :=
  match _h : t.next with
  | .unreadable e after events =>
      ⟨.error (.wave (.stream e)), after.encoder, after.sink, done.toList ++ events⟩
  | .ended after events =>
      let step := after.encoder.flush after.sink
      ⟨step.outcome.mapError .encode, step.encoder, step.sink,
        done.toList ++ events ++ step.events⟩
  | .encoded (.error e) after events =>
      ⟨.error (.encode e), after.encoder, after.sink, done.toList ++ events⟩
  | .encoded (.ok ()) after events =>
      let rate := after.encoder.settings.rate
      let length := after.encoder.framesIn
      -- The next report is counted from here, not from the last multiple.
      if isDue length reported rate then
        let report := Event.logged (progress length total rate)
        encodeWave after total length ((done ++ events).push report)
      else encodeWave after total reported (done ++ events)
termination_by t.size
decreasing_by all_goals exact Transcoding.size_lt_of_encoded t _h

end Packetizer.Command

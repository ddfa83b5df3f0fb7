import Packetizer.Encoder.Basic
import Packetizer.Stream.Source

/-!
# `Packetizer.Encoder.FromSource`: encoding what a source delivers

`Encoder.encodeSource` reads single precision samples until the end of
a source, a quantum at a time, encodes them and flushes. A source that
fails or ends inside a sample ends it without a flush and leaves the
encoder as it is.
-/

set_option autoImplicit false

namespace Packetizer

/-- What encoding a source gave. -/
structure SourceStep (σ η κ ρ : Type) where
  outcome : Except EncodeError Unit
  encoder : Encoder σ η
  sink : κ
  source : ρ
  events : List Event

/-- The bytes of a sample in a source. -/
def sampleBytes : Nat := 4

/-- The samples in some bytes. -/
def samplesOfBytes (bytes : List UInt8) : List Sample :=
  (chunks sampleBytes bytes).map Sample.ofBytes

namespace Encoder

variable {σ η κ ρ : Type} [CodecSession σ] [RemapHook η] [Sink κ] [Source ρ]

/-- Reads and encodes a quantum at a time, then flushes. `done` holds
the events so far. -/
def feed (e : Encoder σ η) (r : ρ) (k : κ) (done : Array Event) : SourceStep σ η κ ρ :=
  match _h : Source.fill r (e.quantum * sampleBytes) with
  | ⟨.error error, log, rest⟩ =>
      ⟨.error (.stream error), e, k, rest, done.toList ++ Event.ofLog log⟩
  | ⟨.ok bytes, log, rest⟩ =>
      let stray := bytes.length % sampleBytes
      if stray ≠ 0 then
        ⟨.error (.ragged (bytes.length / sampleBytes) e.channels), e, k, rest,
          done.toList ++ Event.ofLog (log ++ [.strayBytes stray])⟩
      else
        let step := e.encode (samplesOfBytes bytes) k
        let done := done ++ Event.ofLog log ++ step.events
        match step.outcome with
        | .error error => ⟨.error error, step.encoder, step.sink, rest, done.toList⟩
        | .ok () =>
            if _hfull : bytes.length < e.quantum * sampleBytes then
              let last := step.encoder.flush step.sink
              ⟨last.outcome, last.encoder, last.sink, rest, done.toList ++ last.events⟩
            else feed step.encoder rest step.sink done
termination_by Source.size r
decreasing_by
  -- A full quantum holds bytes, and reading them brought the end nearer.
  have hq : 0 < e.quantum := e.gatherer.geometry.quantum_pos
  match bytes, _hfull, _h with
  | [], hfull, _ => simp [sampleBytes] at hfull; omega
  | b :: bs, _, h =>
      have := Source.size_fill_lt r _ (congrArg Reading.outcome h)
      rwa [h] at this

/-- Encodes everything that a source delivers and flushes. -/
def encodeSource (e : Encoder σ η) (r : ρ) (k : κ) : SourceStep σ η κ ρ :=
  match e.requireReady with
  | .error error => ⟨.error error, e, k, r, []⟩
  | .ok () => e.feed r k #[]

end Encoder

end Packetizer

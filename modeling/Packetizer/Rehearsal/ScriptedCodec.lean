import Packetizer.Audio.ChannelOrder
import Packetizer.Codec.Basic

/-!
# `Packetizer.Rehearsal.ScriptedCodec`: a codec and hooks with a script

A rehearsed codec answers its calls with the result codes of a script,
whatever the samples are, and marks the frame buffer with the number of
the call. When the script is used up it writes four bytes for samples
and nothing without. The rehearsed hooks change a buffer in ways that
are easy to recognise.
-/

set_option autoImplicit false

namespace Packetizer.Rehearsal

/-- A codec that follows a script. -/
structure ScriptedCodec where
  samplesPerFrame : FrameCount
  maxCodedSize : Nat
  /-- The reason for which no session can be opened. -/
  refusal : Option String
  script : List Int32

/-- A session that follows a script. -/
structure ScriptedSession where
  samplesPerFrame : FrameCount
  maxCodedSize : Nat
  script : List Int32
  /-- The calls so far. -/
  calls : Nat

/-- The bytes that a call writes when the script does not say. -/
def usualCode : Int32 := 4

namespace ScriptedSession

/-- The code of the next call and the script after it. -/
def nextCode (s : ScriptedSession) (samples : List Sample) : Int32 × List Int32 :=
  match s.script with
  | code :: rest => (code, rest)
  | [] => (if samples.isEmpty then 0 else usualCode, [])

/-- One call. As many bytes as it announces, and as the buffer has,
become the number of the call. -/
def encodeQuantum (s : ScriptedSession) (frame : FrameBuffer) (samples : List Sample) :
    Coded ScriptedSession :=
  let (code, script) := s.nextCode samples
  let calls := s.calls + 1
  let mark := List.replicate (min code.toInt.toNat frame.size) (UInt8.ofNat calls)
  ⟨code, frame.overwrite mark, { s with script := script, calls := calls }⟩

instance : CodecSession ScriptedSession where
  samplesPerFrame s := s.samplesPerFrame
  maxCodedSize s := s.maxCodedSize
  encodeQuantum := encodeQuantum
  close s := s
  backlog s _ := s.script.length
  size_frame s frame samples := rfl
  backlog_lt s frame h _ := by
    simp only [encodeQuantum, nextCode] at h ⊢
    cases hs : s.script with
    | nil =>
        rw [hs] at h
        exact absurd h (by decide)
    | cons code rest => exact Nat.lt_succ_self _

end ScriptedSession

instance : Codec ScriptedCodec ScriptedSession where
  name _ := "mock"
  openSession codec _ :=
    match codec.refusal with
    | some reason => .error (.stated reason)
    | none => .ok (⟨codec.samplesPerFrame, codec.maxCodedSize, codec.script, 0⟩, [])

/-- Hooks for rehearsals. -/
inductive Hook where
  /-- A52 order. -/
  | a52
  /-- A52 order, observed. -/
  | observedA52
  /-- The first sample becomes 42. -/
  | mark
  /-- The buffer is reversed. -/
  | reverse
  deriving DecidableEq

namespace Hook

/-- Whether the calls of a hook are to be reported. -/
def isObserved : Hook → Bool
  | a52 => false
  | _ => true

/-- The sample that `mark` sets, of the value 42. -/
def markSample : Sample := ⟨0x42280000⟩

/-- The buffer as a hook leaves it. -/
def change (hook : Hook) (layout : StreamLayout) (samples : List Sample) : List Sample :=
  match hook with
  | a52 => layout.toA52 samples
  | observedA52 => layout.toA52 samples
  | mark => samples.set 0 markSample
  | reverse => samples.reverse

instance : RemapHook Hook where
  apply hook layout samples := (hook.change layout samples, hook)
  length_apply hook layout samples := by
    cases hook <;> simp [change]

end Hook

end Packetizer.Rehearsal

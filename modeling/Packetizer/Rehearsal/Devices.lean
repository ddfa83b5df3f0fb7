import Packetizer.Stream.Sink
import Packetizer.Stream.Source

/-!
# `Packetizer.Rehearsal.Devices`: sources and sinks with a script

A rehearsed source or sink follows a script, one entry for each call,
and so shows how an encoder takes short reads, interruptions, ends and
failures at any place. When the script is used up, the source delivers
and the sink takes whatever it is asked to.
-/

set_option autoImplicit false

namespace Packetizer.Rehearsal

/-- What a source does when it is read. -/
inductive ReadCue where
  /-- It delivers up to so many bytes and may start or stop. -/
  | deliver (most : Nat) (running : Option Bool)
  /-- It is interrupted. -/
  | interrupt
  /-- It fails. -/
  | fail
  /-- It reports the end, and goes on when it is read again. -/
  | pause

/-- A source of known bytes that follows a script. -/
structure ScriptedSource where
  left : List UInt8
  script : List ReadCue
  running : Bool
  /-- The bytes delivered so far. -/
  position : Nat

namespace ScriptedSource

/-- Delivers up to `n` bytes. -/
def deliver (s : ScriptedSource) (n : Nat) : Reading StreamError ScriptedSource (List UInt8) :=
  let bytes := s.left.take n
  ⟨.ok bytes, [], { s with left := s.left.drop n, position := s.position + bytes.length }⟩

/-- One read, by the next entry of the script. -/
def read (s : ScriptedSource) (n : Nat) : Reading StreamError ScriptedSource (List UInt8) :=
  match s.script with
  | [] => s.deliver n
  | .deliver most running :: script =>
      deliver { s with script := script, running := running.getD s.running } (min n most)
  | .interrupt :: script => ⟨.error .interrupted, [], { s with script := script }⟩
  | .fail :: script => ⟨.error (.other "scripted read error"), [], { s with script := script }⟩
  | .pause :: script => ⟨.ok [], [], { s with script := script }⟩

/-- Delivery does not touch the script, and what it delivers is gone
from what is left. -/
theorem deliver_spec (s : ScriptedSource) (n : Nat) {bs : List UInt8}
    (h : (s.deliver n).outcome = .ok bs) :
    bs.length ≤ n ∧ (s.deliver n).source.script = s.script ∧
      (s.deliver n).source.left.length + bs.length = s.left.length := by
  cases h
  simp only [deliver, List.length_take, List.length_drop]
  refine ⟨by omega, trivial, by omega⟩

instance : Switched ScriptedSource where
  read := read
  size s := s.left.length + s.script.length
  length_read s n bs h := by
    unfold read at h
    split at h
    · exact (deliver_spec s n h).1
    · have := (deliver_spec _ _ h).1
      omega
    · cases h
    · cases h
    · cases h
      exact Nat.zero_le _
  size_read_le s n := by
    unfold read
    split
    · simp only [deliver, List.length_drop]
      omega
    · rename_i hs
      simp only [deliver, List.length_drop, hs, List.length_cons]
      omega
    all_goals
      rename_i hs
      simp only [hs, List.length_cons]
      omega
  size_lt_of_ok s n b bs h := by
    unfold read at h ⊢
    split at h <;> rename_i hs
    · have := deliver_spec s n h
      simp only [List.length_cons] at this
      rw [this.2.1]
      omega
    · have := deliver_spec _ _ h
      simp only [List.length_cons] at this
      rw [this.2.1, hs, List.length_cons]
      omega
    · cases h
    · cases h
    · cases h
  size_lt_of_interrupted s n h := by
    unfold read at h ⊢
    split at h <;> rename_i hs
    · cases h
    · cases h
    · simp only [hs, List.length_cons]
      omega
    · cases h
    · cases h
  isRunning s := s.running

end ScriptedSource

/-- What a sink does when it is written to. -/
inductive WriteCue where
  /-- It takes up to so many bytes. -/
  | accept (most : Nat)
  /-- It is interrupted. -/
  | interrupt
  /-- It fails. -/
  | fail

/-- A sink that follows a script. -/
structure ScriptedSink where
  script : List WriteCue

namespace ScriptedSink

/-- One write, by the next entry of the script. -/
def write (k : ScriptedSink) (bs : List UInt8) : Writing ScriptedSink :=
  match k.script with
  | [] => ⟨.ok bs.length, k⟩
  | .accept most :: script => ⟨.ok (min bs.length most), ⟨script⟩⟩
  | .interrupt :: script => ⟨.error .interrupted, ⟨script⟩⟩
  | .fail :: script => ⟨.error (.other "scripted write error"), ⟨script⟩⟩

instance : Sink ScriptedSink where
  write := write
  patience k := k.script.length
  accepted_le k bs n h := by
    unfold write at h
    split at h <;> cases h
    · exact Nat.le_refl _
    · exact Nat.min_le_left _ _
  patience_lt k bs h := by
    unfold write at h ⊢
    split at h <;> cases h
    rename_i hs
    simp only [hs, List.length_cons]
    omega

end ScriptedSink

end Packetizer.Rehearsal

import Packetizer.Encoder.PacketWriter
import Packetizer.Proofs.Stream.Writing

/-!
# `Packetizer.Proofs.Encoder.Emission`: what one call of the codec does

`PacketWriter.emit` runs the hook, calls the codec and writes the
packet that the result code announces. `emit_of_held` says all of it
for a session that is held, so that no other proof has to look inside:
the codec is called once, with as many samples as there are; the
session and the frame buffer are as the codec left them; and what
became of its answer is one of three cases (`Settled`). A code that
fits no packet is refused, a packet may be torn off by a sink that
fails, and otherwise all of it is written and counted.

An empty packet, for a code of zero, counts as written: there is
nothing of it that a sink could miss.
-/

set_option autoImplicit false

namespace Packetizer

namespace Coded

variable {σ : Type}

/-- Whether the result code announces a packet. -/
def isPacket (c : Coded σ) : Bool := 0 < c.code

/-- The first bytes of the frame buffer, as many as the code says. -/
def packet (c : Coded σ) : List UInt8 := c.frame.bytes.take c.code.toInt.toNat

/-- The result code is no number of bytes in the frame buffer. -/
def IsFailure (c : Coded σ) : Prop := c.code < 0 ∨ c.frame.size < c.code.toInt.toNat

/-- A code that is no failure announces a packet of its size. -/
theorem length_packet {c : Coded σ} (h : ¬ c.IsFailure) :
    c.packet.length = c.code.toInt.toNat := by
  simp only [IsFailure, not_or, Nat.not_lt] at h
  rw [packet, List.length_take, FrameBuffer.length_bytes, Nat.min_eq_left h.2]

/-- A code announces a packet when it is more than zero. -/
theorem isPacket_iff (c : Coded σ) : c.isPacket = true ↔ 0 < c.code.toInt.toNat := by
  simp only [isPacket, decide_eq_true_eq, Int32.lt_iff_toInt_lt, Int32.toInt_zero]
  omega

end Coded

/-- What became of the answer of the codec. `packets` and `bytes` are
what was counted before. -/
inductive Settled {σ η κ : Type} (packets bytes : Nat) (coded : Coded σ)
    (x : Emission σ η κ) : Prop where
  /-- The code is no number of bytes in the frame buffer. -/
  | refused (failure : coded.IsFailure)
      (outcome : x.outcome = .error (.coding packets coded.code))
      (taken : bytesTaken x.events = [])
      (counted : x.writer.packets = packets) (summed : x.writer.bytes = bytes)
  /-- The sink failed before it had all of the packet. -/
  | torn (packet : coded.isPacket = true) (sound : ¬ coded.IsFailure)
      (error : StreamError) (rest : List UInt8)
      (outcome : x.outcome = .error (.stream error))
      (taken : bytesTaken x.events ++ rest = coded.packet) (missing : rest ≠ [])
      (counted : x.writer.packets = packets) (summed : x.writer.bytes = bytes)
  /-- The sink has all of the packet, and a packet that is not empty counts. -/
  | written (sound : ¬ coded.IsFailure)
      (outcome : x.outcome = .ok coded.packet.length)
      (taken : bytesTaken x.events = coded.packet)
      (counted : x.writer.packets = packets + if coded.isPacket then 1 else 0)
      (summed : x.writer.bytes = bytes + coded.packet.length)

/-- The report of a call of the codec. `given` are the samples as the
hook left them. -/
structure Reports {σ η κ : Type} [CodecSession σ] (w : PacketWriter σ η) (s : σ)
    (samples given : List Sample) (x : Emission σ η κ) : Prop where
  length_given : given.length = samples.length
  lease : x.writer.lease = .held (CodecSession.encodeQuantum s w.frame given).session
  frame : x.writer.frame = (CodecSession.encodeQuantum s w.frame given).frame
  calls : codecCalls x.events =
    [⟨samples, given, (CodecSession.encodeQuantum s w.frame given).code⟩]
  releases : releases x.events = 0
  settled : Settled w.packets w.bytes (CodecSession.encodeQuantum s w.frame given) x

namespace PacketWriter

variable {σ η κ : Type}

/-- The hook changes samples, though not how many they are, and itself. -/
theorem remap_eq [RemapHook η] (w : PacketWriter σ η) (samples : List Sample) :
    ∃ given hook events, w.remap samples = (given, { w with hook := hook }, events) ∧
      given.length = samples.length ∧ codecCalls events = [] ∧ bytesTaken events = [] ∧
      releases events = 0 := by
  obtain ⟨lease, frame, layout, hook, packets, bytes⟩ := w
  by_cases hempty : samples.isEmpty
  · refine ⟨samples, hook, [], ?_, rfl, rfl, rfl, rfl⟩
    rw [remap, if_pos hempty]
  · rw [remap, if_neg hempty]
    cases hook with
    | none => exact ⟨samples, none, [], rfl, rfl, rfl, rfl, rfl⟩
    | some hook =>
        exact ⟨(RemapHook.apply hook layout samples).1, some _, _, rfl,
          RemapHook.length_apply hook layout samples, rfl, rfl, rfl⟩

/-- The hook is given the samples, if there are any and there is one. -/
theorem hookCalls_remap [RemapHook η] (w : PacketWriter σ η) (samples : List Sample) :
    hookCalls (w.remap samples).2.2
        = (if samples = [] then [] else w.hook.toList.map fun _ => (w.layout, samples)) ∧
      writes (w.remap samples).2.2 = [] := by
  obtain ⟨lease, frame, layout, hook, packets, bytes⟩ := w
  cases samples with
  | nil => exact ⟨rfl, rfl⟩
  | cons sample samples => cases hook <;> exact ⟨rfl, rfl⟩

/-- Delivery calls no codec and leaves the session and the frame buffer
alone. -/
theorem deliver_frame [Sink κ] (w : PacketWriter σ η) (k : κ) (given : List Sample)
    (code : Int32) :
    (w.deliver k given code).writer.lease = w.lease ∧
      (w.deliver k given code).writer.frame = w.frame ∧
      codecCalls (w.deliver k given code).events = [] ∧
      releases (w.deliver k given code).events = 0 := by
  unfold deliver
  split
  · exact ⟨rfl, rfl, rfl, rfl⟩
  · dsimp only
    split
    · exact ⟨rfl, rfl, rfl, rfl⟩
    · have hquiet := Sink.quiet_writeAll k (w.frame.front code.toInt.toNat)
      split
      · exact ⟨rfl, rfl, hquiet⟩
      · refine ⟨rfl, rfl, ?_, ?_⟩
        · rw [codecCalls_append, hquiet.1]
          rfl
        · rw [releases_append, hquiet.2]
          rfl

/-- The writer refuses the code of an answer just when it is a failure. -/
theorem isBadCode_iff {w : PacketWriter σ η} {coded : Coded σ} (hframe : w.frame = coded.frame) :
    w.isBadCode coded.code = true ↔ coded.IsFailure := by
  rw [isBadCode, hframe, Bool.or_eq_true, decide_eq_true_eq, decide_eq_true_eq]
  rfl

/-- Delivery settles the answer of the codec. -/
theorem settled_deliver [Sink κ] (w : PacketWriter σ η) (k : κ) (given : List Sample)
    (coded : Coded σ) (hframe : w.frame = coded.frame) :
    Settled w.packets w.bytes coded (w.deliver k given coded.code) := by
  have hbad := isBadCode_iff hframe
  unfold deliver
  split
  · rename_i h
    exact .refused (hbad.mp h) rfl rfl rfl rfl
  · rename_i h
    have hsound : ¬ coded.IsFailure := fun hfail => h (hbad.mpr hfail)
    have hlen := Coded.length_packet hsound
    have hfront : w.frame.front coded.code.toInt.toNat = coded.packet := by
      rw [hframe]
      refine FrameBuffer.front_eq_take _ ?_
      simp only [Coded.IsFailure, not_or, Nat.not_lt] at hsound
      exact hsound.2
    dsimp only
    split
    · -- No bytes are announced, so there is nothing to write.
      rename_i hzero
      rw [hzero] at hlen
      have hnone : coded.isPacket = false := by
        rw [Bool.eq_false_iff, Ne, Coded.isPacket_iff, hzero]
        exact Nat.lt_irrefl 0
      refine .written hsound ?_ ?_ ?_ ?_
      · rw [hlen]
      · rw [List.eq_nil_of_length_eq_zero hlen]
        rfl
      · rw [hnone]
        rfl
      · rw [hlen]
        rfl
    · -- The packet is written, and the sink decides whether all of it.
      rename_i hpos
      have hpacket : coded.isPacket = true := by
        rw [Coded.isPacket_iff]
        omega
      rw [hfront]
      rcases Sink.bytesTaken_writeAll k coded.packet with
        ⟨hok, htaken⟩ | ⟨e, rest, herr, hrest, htaken⟩
      · rw [hok]
        refine .written hsound ?_ ?_ ?_ ?_
        · rw [hlen]
        · rw [bytesTaken_append, htaken]
          exact List.append_nil _
        · rw [hpacket]
          rfl
        · rw [hlen]
      · rw [herr]
        exact .torn hpacket hsound e rest rfl htaken hrest rfl rfl

/-- Delivery leaves the hook and the layout alone. -/
theorem hook_deliver [Sink κ] (w : PacketWriter σ η) (k : κ) (given : List Sample)
    (code : Int32) :
    (w.deliver k given code).writer.hook = w.hook ∧
      (w.deliver k given code).writer.layout = w.layout := by
  unfold deliver
  split
  · exact ⟨rfl, rfl⟩
  · dsimp only
    split
    · exact ⟨rfl, rfl⟩
    · split <;> exact ⟨rfl, rfl⟩

/-- A sink that never fails takes every packet. -/
theorem deliver_of_neverFails [Sink κ] {k : κ} (h : Sink.NeverFails k) (w : PacketWriter σ η)
    (given : List Sample) (code : Int32) :
    Sink.NeverFails (w.deliver k given code).sink ∧
      ∀ error, (w.deliver k given code).outcome ≠ .error (.stream error) := by
  unfold deliver
  split
  · exact ⟨h, nofun⟩
  · dsimp only
    split
    · exact ⟨h, nofun⟩
    · obtain ⟨hok, hsink⟩ := h.writeAll (w.frame.front code.toInt.toNat)
      rw [hok]
      exact ⟨hsink, nofun⟩

/-- Delivery is some writes to the sink, and no call of the hook. -/
theorem later_deliver [Sink κ] (w : PacketWriter σ η) (k : κ) (given : List Sample)
    (code : Int32) :
    Sink.Later k (w.deliver k given code).sink ∧
      hookCalls (w.deliver k given code).events = [] := by
  unfold deliver
  split
  · exact ⟨.refl k, rfl⟩
  · dsimp only
    split
    · exact ⟨.refl k, rfl⟩
    · have hwrites := Sink.later_writeAll k (w.frame.front code.toInt.toNat)
      have hhook := Sink.hookCalls_writeAll k (w.frame.front code.toInt.toNat)
      split
      · exact ⟨hwrites, hhook⟩
      · refine ⟨hwrites, ?_⟩
        rw [hookCalls_append, hhook]
        rfl

variable [CodecSession σ] [RemapHook η] [Sink κ]

/-- What the hook makes of the samples, and that a call keeps the layout. -/
theorem hook_emit (w : PacketWriter σ η) (k : κ) (samples : List Sample) :
    (w.emit k samples).writer.hook = (w.remap samples).2.1.hook ∧
      (w.emit k samples).writer.layout = w.layout := by
  obtain ⟨given, hook, events, hremap, -⟩ := remap_eq w samples
  unfold emit
  rw [hremap]
  dsimp only
  cases w.lease with
  | released remains => exact ⟨rfl, rfl⟩
  | held s => exact hook_deliver _ k given _

/-- One call of a codec whose session is held, opened. -/
theorem emit_eq {w : PacketWriter σ η} {s : σ} (h : w.lease = .held s) (k : κ)
    (samples : List Sample) :
    w.emit k samples =
      let x := w.remap samples
      let coded := CodecSession.encodeQuantum s w.frame x.1
      let w' : PacketWriter σ η := { x.2.1 with lease := .held coded.session, frame := coded.frame }
      let delivered := w'.deliver k x.1 coded.code
      { delivered with events := x.2.2 ++ .coded samples x.1 coded.code :: delivered.events } := by
  obtain ⟨given, hook, events, hremap, -⟩ := remap_eq w samples
  unfold emit
  rw [hremap]
  dsimp only
  rw [h]

/-- Behind a packet that draining gave it goes on. -/
theorem drain_eq (w : PacketWriter σ η) (k : κ) :
    w.drain k =
      let x := w.emit k []
      match x.outcome with
      | .ok (_ + 1) =>
          let rest := x.writer.drain x.sink
          { rest with events := x.events ++ rest.events }
      | _ => x := by
  rw [drain]
  split
  next h => rw [h]
  next h =>
    dsimp only
    split
    next hok => exact (h _ _ _ _ _ (by rw [← hok])).elim
    next => rfl

/-- Behind a packet out of the last samples the codec is drained. -/
theorem emitAll_eq (w : PacketWriter σ η) (k : κ) (samples : List Sample) :
    w.emitAll k samples =
      let x := w.emit k samples
      match x.outcome with
      | .ok (_ + 1) =>
          let rest := x.writer.drain x.sink
          { rest with events := x.events ++ rest.events }
      | _ => x := by
  unfold emitAll
  generalize w.emit k samples = x
  obtain ⟨outcome, buffer, w', k', events⟩ := x
  rcases outcome with error | _ | n <;> rfl

/-- One call of a codec whose session is held, with the samples as the
hook leaves them. -/
theorem reports_emit {w : PacketWriter σ η} {s : σ} (h : w.lease = .held s) (k : κ)
    (samples : List Sample) :
    Reports w s samples (w.remap samples).1 (w.emit k samples) := by
  obtain ⟨given, hook, events, hremap, hlen, hcalls, htaken, hreleases⟩ := remap_eq w samples
  unfold emit
  rw [hremap]
  dsimp only
  rw [h]
  dsimp only
  generalize hcoded : CodecSession.encodeQuantum s w.frame given = coded
  -- The writer that delivers differs from `w` in its session, buffer and hook.
  generalize hw : PacketWriter.mk (.held coded.session) coded.frame w.layout hook w.packets
    w.bytes = w'
  obtain ⟨hlease, hframe, hquiet, hheld⟩ := deliver_frame w' k given coded.code
  have hsettled := settled_deliver w' k given coded (by rw [← hw])
  subst hw
  constructor
  · exact hlen
  · rw [hcoded]
    exact hlease
  · rw [hcoded]
    exact hframe
  · rw [hcoded, codecCalls_append, codecCalls_coded, hcalls, hquiet, List.nil_append]
  · rw [releases_append, releases_coded, hreleases, hheld]
  · rw [hcoded]
    have hsame : ∀ rest : List Event, bytesTaken (events ++ .coded samples given coded.code ::
        rest) = bytesTaken rest := by
      intro rest
      rw [bytesTaken_append, bytesTaken_coded, htaken, List.nil_append]
    cases hsettled with
    | refused failure outcome taken counted summed =>
        exact .refused failure outcome ((hsame _).trans taken) counted summed
    | torn packet sound error rest outcome taken missing counted summed =>
        rw [← hsame] at taken
        exact .torn packet sound error rest outcome taken missing counted summed
    | written sound outcome taken counted summed =>
        exact .written sound outcome ((hsame _).trans taken) counted summed

/-- One call of a codec whose session is held. -/
theorem emit_of_held {w : PacketWriter σ η} {s : σ} (h : w.lease = .held s) (k : κ)
    (samples : List Sample) : ∃ given, Reports w s samples given (w.emit k samples) :=
  ⟨_, reports_emit h k samples⟩

/-- A sink that never fails takes the packet of every call. -/
theorem emit_of_neverFails {k : κ} (h : Sink.NeverFails k) (w : PacketWriter σ η)
    (samples : List Sample) :
    Sink.NeverFails (w.emit k samples).sink ∧
      ∀ error, (w.emit k samples).outcome ≠ .error (.stream error) := by
  obtain ⟨given, hook, events, hremap, -⟩ := remap_eq w samples
  unfold emit
  rw [hremap]
  dsimp only
  cases w.lease with
  | released remains => exact ⟨h, nofun⟩
  | held s => exact deliver_of_neverFails h _ given _

/-- A call of the codec fails when the session is released. -/
theorem emit_of_released {w : PacketWriter σ η} {remains : σ}
    (h : w.lease = .released remains) (k : κ) (samples : List Sample) :
    (w.emit k samples).outcome = .error .finalized := by
  obtain ⟨given, hook, events, hremap, -⟩ := remap_eq w samples
  unfold emit
  rw [hremap]
  dsimp only
  rw [h]

/-- An encoder does not recover from a call of the codec that failed. -/
theorem fatal_of_emit {w : PacketWriter σ η} {k : κ} {samples : List Sample}
    {error : EncodeError} (h : (w.emit k samples).outcome = .error error) :
    error.isRecoverable = false := by
  cases hlease : w.lease with
  | released remains =>
      rw [emit_of_released hlease] at h
      cases h
      rfl
  | held s =>
      obtain ⟨given, hreports⟩ := emit_of_held hlease k samples
      cases hreports.settled with
      | refused failure outcome taken counted summed =>
          rw [outcome] at h
          cases h
          rfl
      | torn packet sound cause rest outcome taken missing counted summed =>
          rw [outcome] at h
          cases h
          rfl
      | written sound outcome taken counted summed =>
          rw [outcome] at h
          cases h

end PacketWriter

end Packetizer

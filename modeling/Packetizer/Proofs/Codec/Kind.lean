import Packetizer.Codec.Kind
import Packetizer.Proofs.Codec.Linear16
import Packetizer.Proofs.Encoder.Run

/-!
# `Packetizer.Proofs.Codec.Kind`: 16-bit audio by choice

A codec that was chosen by name answers as it does by itself: the session
of 16-bit audio inside a `CodecKind.Session` has the same packets
(`Session.linear16_isLinear`). For one to eight channels of fixed rate an
encoder starts with it, and `start_linear16` says with which quantum and
what room for a packet. What packets the lossless codec makes is of no
concern to it.
-/

set_option autoImplicit false

namespace Packetizer.CodecKind

open Linear16 (IsLinear)

variable [LosslessCoder]

/-- The choice answers as what was chosen does. -/
theorem Session.linear16_isLinear {s : Linear16.Session} {most : Nat} (h : IsLinear most s) :
    IsLinear most (Session.linear16 s) := by
  constructor
  intro frame samples hlen hroom
  obtain ⟨hsession, hsound, hpacket⟩ := h.answer frame samples hlen hroom
  exact ⟨congrArg Session.linear16 hsession, hsound, hpacket⟩

/-- An encoder starts for settings of fixed rate with some frames of one to
eight channels in a packet. -/
theorem start_linear16 {η : Type} (settings : Settings) {g : Geometry}
    (hchannels : g.channels = settings.channels.toNat)
    (hframes : g.frames = (settings.framesPerPacket.getD Linear16.defaultFrames).toNat)
    (hmost : g.channels ≤ Linear16.maxChannels) (hword : 2 * g.quantum < UInt64.size)
    (hfixed : settings.requireFixedRate Linear16.name = .ok ()) (hook : Option η) :
    ∃ opening, Encoder.start linear16 settings hook = .ready
      (.ofSession (Codec.complete linear16 settings)
        (Session.linear16
          ⟨settings.framesPerPacket.getD Linear16.defaultFrames, settings.channels.toNat⟩)
        g (2 * g.quantum) hook) opening := by
  have hpos := g.channels_pos
  have hpos' := g.frames_pos
  rw [hchannels] at hpos hmost
  rw [hframes] at hpos'
  obtain ⟨log, hopen⟩ := Linear16.openSession_complete hpos hmost hpos' hfixed
  have hkind : Codec.openSession linear16 (Codec.complete linear16 settings)
      = .ok (Session.linear16
        ⟨settings.framesPerPacket.getD Linear16.defaultFrames, settings.channels.toNat⟩, log) := by
    show (Linear16.openSession (Codec.complete Linear16.linear16 settings)).map _ = _
    rw [hopen]
    rfl
  obtain ⟨hsame, -⟩ := Linear16.complete_eq settings
  have hcompleted : (Codec.complete linear16 settings).channels.toNat = g.channels := by
    rw [hchannels]
    exact congrArg UInt8.toNat hsame
  have hsize : CodecSession.maxCodedSize (Session.linear16
      ⟨settings.framesPerPacket.getD Linear16.defaultFrames, settings.channels.toNat⟩)
      = 2 * g.quantum :=
    (Linear16.quantum_of_openSession hopen hcompleted.symm hframes hword).2
  have hsome : 0 < 2 * g.quantum := Nat.mul_pos (by decide) g.quantum_pos
  rw [← hsize] at hsome ⊢
  exact Encoder.start_ready hkind hcompleted.symm hframes hsome hook

end Packetizer.CodecKind

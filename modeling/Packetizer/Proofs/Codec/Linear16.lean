import Packetizer.Codec.Linear16
import Packetizer.Encoder.QuantumBuffer
import Packetizer.Proofs.Encoder.Emission
import Packetizer.Proofs.Settings

/-!
# `Packetizer.Proofs.Codec.Linear16`: 16-bit packets

A packet of 16-bit audio is the bytes of its samples and nothing else
(`IsLinear.answer`): the frame buffer may hold the rest of a longer
packet behind them, but the result code stops in front of it. The code
is narrowed to 32 bits, so the law asks that a packet is smaller than
that. A session does not change and says the same of every call.
-/

set_option autoImplicit false

namespace Packetizer

/-- What was written stands at the front, and the bytes behind are as before. -/
theorem FrameBuffer.bytes_overwrite (b : FrameBuffer) {bs : List UInt8}
    (h : bs.length ≤ b.size) : (b.overwrite bs).bytes = bs ++ b.bytes.drop bs.length := by
  have hwritten : (b.overwrite bs).written = bs ++ b.written.drop bs.length := by
    show bs.take b.size ++ _ = _
    rw [List.take_of_length_le h]
  have hrest : b.size - (bs.length + (b.written.length - bs.length))
      = b.size - b.written.length - (bs.length - b.written.length) := by omega
  rw [bytes, hwritten, bytes, List.append_assoc, List.drop_append, List.drop_replicate,
    List.length_append, List.length_drop, size_overwrite, hrest]
  rfl

/-- What was written at the front stands there, whatever is behind. -/
theorem FrameBuffer.take_bytes_overwrite (b : FrameBuffer) {bs : List UInt8}
    (h : bs.length ≤ b.size) : (b.overwrite bs).bytes.take bs.length = bs := by
  rw [bytes_overwrite b h]
  exact List.take_left

namespace Linear16

@[simp] theorem encode_nil : encode [] = [] := rfl

@[simp] theorem encode_append (xs ys : List Sample) : encode (xs ++ ys) = encode xs ++ encode ys :=
  List.flatMap_append

/-- Two bytes a sample. -/
@[simp] theorem length_encode (samples : List Sample) :
    (encode samples).length = 2 * samples.length := by
  induction samples with
  | nil => rfl
  | cons s samples ih =>
      have hcons : encode (s :: samples) = bigEndian16 s.toLinear16 ++ encode samples := rfl
      rw [hcons, List.length_append, ih, List.length_cons]
      simp only [bigEndian16, List.length_cons, List.length_nil]
      omega

/-- The greatest result code. -/
def maxCode : Nat := 0x7FFFFFFF

/-- Called with up to `most` samples, and a frame buffer that has room
for so many, the session answers with the bytes of the samples and is
as before. -/
structure IsLinear {σ : Type} [CodecSession σ] (most : Nat) (s : σ) : Prop where
  answer : ∀ (frame : FrameBuffer) (samples : List Sample), samples.length ≤ most →
    2 * most ≤ frame.size →
    let coded := CodecSession.encodeQuantum s frame samples
    coded.session = s ∧ ¬ coded.IsFailure ∧ coded.packet = encode samples

/-- A session that has room writes its samples and answers their size, narrowed
to 32 bits. -/
theorem Session.encodeQuantum_eq {s : Session} {frame : FrameBuffer} {samples : List Sample}
    (hlen : samples.length ≤ s.framesPerPacket.samples s.channels)
    (hroom : 2 * samples.length ≤ frame.size) :
    CodecSession.encodeQuantum s frame samples
      = ⟨Int32.ofNat (2 * samples.length), frame.overwrite (encode samples), s⟩ := by
  have hfits : ¬ (s.framesPerPacket.samples s.channels < samples.length ∨
      frame.size < samples.length * 2) := by omega
  show s.encodeQuantum frame samples = _
  rw [Session.encodeQuantum, if_neg hfits, Nat.mul_comm]

/-- A session without room for the samples writes nothing. -/
theorem Session.encodeQuantum_refused {s : Session} {frame : FrameBuffer} {samples : List Sample}
    (h : ¬ (samples.length ≤ s.framesPerPacket.samples s.channels ∧
      2 * samples.length ≤ frame.size)) :
    CodecSession.encodeQuantum s frame samples = ⟨-1, frame, s⟩ := by
  have hover : s.framesPerPacket.samples s.channels < samples.length ∨
      frame.size < samples.length * 2 := by omega
  show s.encodeQuantum frame samples = _
  rw [Session.encodeQuantum, if_pos hover]

/-- A code holds its size up to the greatest one and no further. -/
theorem toInt_ofNat_eq_iff {n : Nat} : (Int32.ofNat n).toInt = n ↔ n ≤ maxCode := by
  constructor
  · intro h
    have hlt := (Int32.ofNat n).toInt_lt
    rw [h] at hlt
    simp only [maxCode]
    omega
  · intro h
    simp only [maxCode] at h
    exact Int32.toInt_ofNat_of_lt (by omega)

/-- A size that fits the code announces the samples. -/
theorem Session.answer_of_fits {s : Session} {frame : FrameBuffer} {samples : List Sample}
    (hlen : samples.length ≤ s.framesPerPacket.samples s.channels)
    (hroom : 2 * samples.length ≤ frame.size) (hcode : 2 * samples.length ≤ maxCode) :
    let coded := CodecSession.encodeQuantum s frame samples
    coded.session = s ∧ ¬ coded.IsFailure ∧ coded.packet = encode samples := by
  have htoInt := toInt_ofNat_eq_iff.mpr hcode
  have hbytes : (encode samples).length ≤ frame.size := by
    rw [length_encode]
    exact hroom
  dsimp only
  rw [Session.encodeQuantum_eq hlen hroom]
  refine ⟨rfl, ?_, ?_⟩
  · simp only [Coded.IsFailure, Int32.lt_iff_toInt_lt, Int32.toInt_zero, htoInt,
      FrameBuffer.size_overwrite]
    omega
  · rw [Coded.packet, htoInt, Int.toNat_natCast, ← length_encode]
    exact FrameBuffer.take_bytes_overwrite frame hbytes

/-- A session of 16-bit audio, as long as a packet fits the result code. -/
theorem Session.isLinear {s : Session} {most : Nat}
    (hpacket : s.framesPerPacket.samples s.channels = most) (hcode : 2 * most ≤ maxCode) :
    IsLinear most s := by
  constructor
  intro frame samples hlen hroom
  exact Session.answer_of_fits (by omega) (by omega) (by omega)

/-- Completing settings decides the layout and the packet only. -/
theorem complete_eq (settings : Settings) :
    let completed := Codec.complete linear16 settings
    completed.channels = settings.channels ∧
      completed.framesPerPacket = some (settings.framesPerPacket.getD defaultFrames) ∧
      completed.layout = settings.fillLayout.layout := by
  refine ⟨settings.channels_fillLayout, ?_, rfl⟩
  show some (settings.fillLayout.framesPerPacket.getD defaultFrames) = _
  rw [settings.framesPerPacket_fillLayout]

/-- A session has the channels and the packet of its settings. -/
theorem session_of_open {settings : Settings} {s : Session} {log : List Message}
    (h : openSession settings = .ok (s, log)) :
    s = ⟨settings.framesPerPacket.getD defaultFrames, settings.channels.toNat⟩ := by
  simp only [openSession, bind, Except.bind, pure, Except.pure] at h
  split at h
  · cases h
  · split at h
    · cases h
    · split at h
      · cases h
      · cases h
        rfl

/-- Completing settings changes neither the channels nor the packet of a session. -/
theorem openSession_eq {settings : Settings} {s : Session} {log : List Message}
    (h : openSession (Codec.complete linear16 settings) = .ok (s, log)) :
    s = ⟨settings.framesPerPacket.getD defaultFrames, settings.channels.toNat⟩ := by
  obtain ⟨hchannels, hpacket, -⟩ := complete_eq settings
  rw [session_of_open h, hchannels, hpacket, Option.getD_some]

/-- A packet of the session is a quantum of the encoder that begins with it, when
a 64-bit word holds its bytes, and these are what a packet takes at most. -/
theorem quantum_of_openSession {settings : Settings} {s : Session} {log : List Message}
    (h : openSession (Codec.complete linear16 settings) = .ok (s, log)) {g : Geometry}
    (hchannels : g.channels = (Codec.complete linear16 settings).channels.toNat)
    (hframes : g.frames = (CodecSession.samplesPerFrame s).toNat)
    (hword : 2 * g.quantum < UInt64.size) :
    s.framesPerPacket.samples s.channels = g.quantum ∧
      CodecSession.maxCodedSize s = 2 * g.quantum := by
  have hquantum : g.quantum = s.framesPerPacket.toNat * s.channels := by
    rw [Geometry.quantum, hframes, hchannels, (complete_eq settings).1, openSession_eq h]
    rfl
  rw [hquantum] at hword ⊢
  have hsamples : s.framesPerPacket.samples s.channels = s.framesPerPacket.toNat * s.channels :=
    FrameCount.samples_of_lt (by omega)
  refine ⟨hsamples, ?_⟩
  show s.framesPerPacket.linearBytes s.channels = _
  rw [FrameCount.linearBytes_of_lt (by omega), hsamples, Nat.mul_comm]

/-- Settings of fixed rate for one to eight channels open a session, when a
packet holds something. -/
theorem openSession_complete {settings : Settings} (hsome : 0 < settings.channels.toNat)
    (hmost : settings.channels.toNat ≤ maxChannels)
    (hframes : 0 < (settings.framesPerPacket.getD defaultFrames).toNat)
    (hfixed : settings.requireFixedRate name = .ok ()) :
    ∃ log, openSession (Codec.complete linear16 settings)
      = .ok (⟨settings.framesPerPacket.getD defaultFrames, settings.channels.toNat⟩, log) := by
  obtain ⟨hchannels, hpacket, -⟩ := complete_eq settings
  have hcompleted : (Codec.complete linear16 settings).requireFixedRate name = .ok () := by
    rw [← hfixed]
    exact settings.requireFixedRate_fillLayout name
  have hcount : ¬ (settings.channels.toNat = 0 ∨ maxChannels < settings.channels.toNat) := by
    omega
  have hholds : (settings.framesPerPacket.getD defaultFrames).isZero = false := by
    rw [FrameCount.isZero, beq_eq_false_iff_ne]
    intro hzero
    rw [FrameCount.toNat, hzero] at hframes
    exact absurd hframes (by decide)
  refine ⟨[.linearSession settings.channels.toNat
    (settings.framesPerPacket.getD defaultFrames)], ?_⟩
  simp only [openSession, hchannels, hpacket, Option.getD_some, hcompleted, if_neg hcount,
    hholds, bind, Except.bind, pure, Except.pure]
  rfl

/-- The layout does not depend on the size of a packet. -/
theorem layout_withPacket (settings : Settings) (n : Option FrameCount) :
    ({ settings with framesPerPacket := n } : Settings).fillLayout.layout
      = settings.fillLayout.layout := by
  rw [Settings.fillLayout_withPacket]
  rfl

/-- An opened session counts the samples of a packet and their bytes in 64 bits. -/
theorem counts_of_open {settings : Settings} {s : Session} {log : List Message}
    (hopen : openSession settings = .ok (s, log)) :
    let most := (settings.framesPerPacket.getD defaultFrames).toNat * settings.channels.toNat
    s.framesPerPacket.samples s.channels = most % UInt64.size ∧
      CodecSession.maxCodedSize s = most * 2 % UInt64.size := by
  rw [session_of_open hopen]
  exact ⟨FrameCount.samples_eq_mod _ _, FrameCount.linearBytes_eq_mod _ _⟩

/-- A session that was opened is called with no more samples than a packet has, and
with room for a full one. The room and the packet are counted in 64 bits. When a
word holds the bytes of a full packet the samples fit. Samples that do not fit
are refused: nothing is written and the code is negative.

Otherwise the session writes the bytes of the samples and leaves the bytes behind
them. The code that it answers is the number of those bytes, narrowed to 32 bits.
As long as the number is no greater than the greatest code it is told as it is,
and the packet that is announced is the bytes of the samples, however few. Beyond
that the code is another number. -/
theorem code_counts_bytes {settings : Settings} {s : Session} {log : List Message}
    (hopen : openSession settings = .ok (s, log)) {frame : FrameBuffer} {samples : List Sample}
    (hlen : samples.length
      ≤ (settings.framesPerPacket.getD defaultFrames).toNat * settings.channels.toNat)
    (hroom : CodecSession.maxCodedSize s ≤ frame.size) :
    let most := (settings.framesPerPacket.getD defaultFrames).toNat * settings.channels.toNat
    let coded := CodecSession.encodeQuantum s frame samples
    let size := 2 * samples.length
    let fits := samples.length ≤ most % UInt64.size ∧ size ≤ frame.size
    (2 * most < UInt64.size → fits) ∧
    (¬ fits → coded = ⟨-1, frame, s⟩) ∧
    (fits →
      coded.session = s ∧ coded.frame.bytes = encode samples ++ frame.bytes.drop size ∧
        coded.code.toInt = (size : Int).bmod Int32.size ∧
        (coded.code.toInt = size ↔ size ≤ maxCode) ∧
        (size ≤ maxCode → ¬ coded.IsFailure ∧ coded.packet = encode samples ∧
          (samples ≠ [] → coded.isPacket = true))) := by
  obtain ⟨hsamples, hmost⟩ := counts_of_open hopen
  intro most coded size fits
  refine ⟨?_, ?_, ?_⟩
  · intro hword
    -- The frame buffer has room for a full packet, and so for these samples.
    have hpacket : most % UInt64.size = most := Nat.mod_eq_of_lt (by omega)
    rw [hmost, Nat.mod_eq_of_lt (by omega)] at hroom
    refine ⟨?_, by omega⟩
    rw [hpacket]
    exact hlen
  · intro hover
    refine Session.encodeQuantum_refused ?_
    rwa [hsamples]
  · rintro ⟨hpacket, hfits⟩
    rw [← hsamples] at hpacket
    have hbytes : (encode samples).length ≤ frame.size := by
      rw [length_encode]
      exact hfits
    have hcoded : coded = _ := Session.encodeQuantum_eq hpacket hfits
    refine ⟨by rw [hcoded], ?_, ?_, ?_, ?_⟩
    · rw [hcoded]
      dsimp only
      rw [FrameBuffer.bytes_overwrite _ hbytes, length_encode]
    · rw [hcoded]
      exact Int32.toInt_ofNat'
    · rw [hcoded]
      exact toInt_ofNat_eq_iff
    · intro hcode
      obtain ⟨-, hsound, hannounced⟩ := Session.answer_of_fits hpacket hfits hcode
      refine ⟨hsound, hannounced, ?_⟩
      intro hsome
      have hpos := List.length_pos_iff.mpr hsome
      have hcount := Coded.length_packet hsound
      rw [hannounced, length_encode] at hcount
      rw [Coded.isPacket_iff]
      show 0 < (CodecSession.encodeQuantum s frame samples).code.toInt.toNat
      omega

/-- A session of one frame of two channels, called with the samples 1.0 and -1.0
and a frame buffer in which a byte is left; and one of two to the sixty-third
frames, of which a word holds nothing, with a frame buffer as small as that. -/
theorem code_counts_bytes_one :
    let settings : Settings := { framesPerPacket := some ⟨1⟩ }
    let samples : List Sample := [⟨0x3F800000⟩, ⟨0xBF800000⟩]
    let frame : FrameBuffer := .filled 5 0xEE
    let beyond : Settings := { framesPerPacket := some ⟨0x8000000000000000⟩ }
    (∃ s log, openSession settings = .ok (s, log) ∧ samples.length ≤ 1 * 2 ∧
      CodecSession.maxCodedSize s ≤ frame.size ∧
      (CodecSession.encodeQuantum s frame samples).code.toInt = 4 ∧
      (CodecSession.encodeQuantum s frame samples).frame.bytes
        = [0x7F, 0xFF, 0x80, 0x01, 0xEE]) ∧
    ∃ s log, openSession beyond = .ok (s, log) ∧
      samples.length ≤ 0x8000000000000000 * 2 ∧ CodecSession.maxCodedSize s = 0 ∧
      CodecSession.encodeQuantum s (.zeros 0) samples = ⟨-1, .zeros 0, s⟩ := by
  intro settings samples frame beyond
  constructor
  · have hopen : openSession settings = .ok (⟨⟨1⟩, 2⟩, [.linearSession 2 ⟨1⟩]) := rfl
    have hlen : samples.length ≤ 1 * 2 := by decide
    have hroom : CodecSession.maxCodedSize (⟨⟨1⟩, 2⟩ : Session) ≤ frame.size := by decide
    obtain ⟨hfits, -, hcoded⟩ := code_counts_bytes hopen hlen hroom
    obtain ⟨-, hbytes, -, hcode, -⟩ := hcoded (hfits (by decide))
    exact ⟨_, _, hopen, hlen, hroom, hcode.mpr (by decide), hbytes.trans (by decide)⟩
  · have hopen : openSession beyond = .ok (⟨⟨0x8000000000000000⟩, 2⟩,
        [.linearSession 2 ⟨0x8000000000000000⟩]) := rfl
    have hlen : samples.length ≤ 0x8000000000000000 * 2 := by decide
    have hroom : CodecSession.maxCodedSize (⟨⟨0x8000000000000000⟩, 2⟩ : Session) = 0 := by decide
    obtain ⟨-, hrefused, -⟩ := code_counts_bytes hopen hlen
      (show CodecSession.maxCodedSize _ ≤ (FrameBuffer.zeros 0).size from Nat.le_of_eq hroom)
    exact ⟨_, _, hopen, hlen, hroom, hrefused (by decide)⟩

/-- A packet of one channel with two to the thirtieth samples is accepted, and the
code of it is negative. -/
theorem negative_code_of_packet :
    let settings : Settings := { channels := 1, framesPerPacket := some ⟨0x40000000⟩ }
    let samples : List Sample := List.replicate 0x40000000 .zero
    ∃ s log, openSession settings = .ok (s, log) ∧
      samples.length ≤ (settings.framesPerPacket.getD defaultFrames).toNat
        * settings.channels.toNat ∧
      (CodecSession.encodeQuantum s (.zeros (CodecSession.maxCodedSize s)) samples).code.toInt
        = -0x80000000 := by
  intro settings samples
  have hopen : openSession { channels := 1, framesPerPacket := some ⟨0x40000000⟩ }
      = .ok (⟨⟨0x40000000⟩, 1⟩, [.linearSession 1 ⟨0x40000000⟩]) := rfl
  have hcount : samples.length = 0x40000000 := List.length_replicate
  refine ⟨_, _, hopen, ?_, ?_⟩
  · rw [hcount]
    decide
  · rw [Session.encodeQuantum_eq (Nat.le_of_eq hcount) (by rw [hcount]; decide), hcount]
    decide

end Linear16

end Packetizer

import Packetizer.Proofs.Codec.Linear16
import Packetizer.Rehearsal.Repetition

/-!
# `Packetizer.Proofs.Rehearsal.Repetition`: long packets are packets

A call with a repetition answers as the session answers the samples
written out (`encodeQuantum_toList`). Samples are encoded one by one, so the
bytes of a repetition repeat themselves as often as its samples do
(`encode_toList`).
-/

set_option autoImplicit false

namespace Packetizer.Rehearsal

namespace Repetition
variable {α β : Type}

/-- The first piece, and the others behind it. -/
theorem toList_succ (piece : List α) (n : Nat) :
    (Repetition.mk piece (n + 1)).toList = piece ++ (Repetition.mk piece n).toList := by
  rw [toList, toList, List.replicate_succ, List.flatten_cons]

/-- The length is that of the list written out. -/
@[simp] theorem length_toList (r : Repetition α) : r.toList.length = r.length := by
  rw [toList, List.length_flatten, List.map_replicate, List.sum_replicate_nat, length]

/-- A fold piece by piece is the fold over the list written out. -/
theorem foldl_toList (f : β → α → β) (start : β) (r : Repetition α) :
    r.toList.foldl f start = r.foldl f start := by
  obtain ⟨piece, n⟩ := r
  -- The pieces are folded from the left, and `Nat.repeat` puts a step on the outside.
  show (List.replicate n piece).flatten.foldl f start = Nat.repeat (piece.foldl f) n start
  induction n with
  | zero => rfl
  | succ n ih =>
      rw [List.replicate_succ', List.flatten_append, List.foldl_append, ih, List.flatten_singleton]
      rfl

/-- A piece of samples is encoded in each place where it stands. -/
theorem encode_toList (r : Repetition Sample) :
    Linear16.encode r.toList = (Repetition.mk (Linear16.encode r.piece) r.times).toList := by
  obtain ⟨piece, n⟩ := r
  induction n with
  | zero => rfl
  | succ n ih => rw [toList_succ, Linear16.encode_append, ih, toList_succ]

end Repetition

/-- A call with a repetition gives what a call with the samples written out
gives: the same code, the same bytes, and the session as it was. -/
theorem encodeQuantum_toList (s : Linear16.Session) (size : Nat) (fill : UInt8)
    (samples : Repetition Sample) :
    let coded := CodecSession.encodeQuantum s (.filled size fill) samples.toList
    let long := encodeLong s size samples
    coded.session = s ∧ coded.code = long.code ∧
      coded.frame.bytes = long.written.toList ++ List.replicate long.left fill := by
  intro coded long
  have hlength := samples.length_toList
  by_cases hfits : s.framesPerPacket.samples s.channels < samples.length ∨
      size < samples.length * 2
  · have hlong : long = ⟨-1, ⟨[], 0⟩, size⟩ := if_pos hfits
    have hcoded : coded = ⟨-1, .filled size fill, s⟩ := by
      rw [← hlength] at hfits
      exact if_pos hfits
    rw [hlong, hcoded]
    exact ⟨rfl, rfl, rfl⟩
  · have hlong : long = ⟨Int32.ofNat (samples.length * 2),
        ⟨Linear16.encode samples.piece, samples.times⟩, size - samples.length * 2⟩ := if_neg hfits
    have hmost : samples.toList.length ≤ s.framesPerPacket.samples s.channels := by omega
    have hroom : 2 * samples.toList.length ≤ (FrameBuffer.filled size fill).size := by
      show 2 * samples.toList.length ≤ size
      omega
    have hcoded : coded = ⟨Int32.ofNat (2 * samples.toList.length), _, s⟩ :=
      Linear16.Session.encodeQuantum_eq hmost hroom
    have hbytes := FrameBuffer.bytes_overwrite (.filled size fill)
      (Nat.le_trans (Nat.le_of_eq (Linear16.length_encode samples.toList)) hroom)
    rw [hlong, hcoded, hbytes, Linear16.length_encode, hlength, Repetition.encode_toList,
      Nat.mul_comm]
    simp [FrameBuffer.bytes, FrameBuffer.filled]

end Packetizer.Rehearsal

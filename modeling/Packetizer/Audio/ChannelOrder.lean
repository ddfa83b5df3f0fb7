import Packetizer.Audio.Chunks
import Packetizer.Audio.Layout
import Packetizer.Audio.Sample

/-!
# `Packetizer.Audio.ChannelOrder`: from WAVE to A/52 channel order

WAVE orders channels by speaker bit: left, right, centre, LFE, then
the surrounds. A/52 wants the centre between left and right and the
LFE last. `StreamLayout.toA52` reorders the complete frames of an
interleaved buffer.

A `RemapHook` is any such change of a buffer in place, with a state of
its own; the length of the buffer is not its to change.
-/

set_option autoImplicit false

namespace Packetizer

/-- The second and third channel of a frame change places. -/
def swapCentre {α : Type} : List α → List α
  | a :: b :: c :: rest => a :: c :: b :: rest
  | frame => frame

/-- A frame with both surrounds and the LFE: the centre moves forward
and the LFE to the end. -/
def centreAndLfe {α : Type} : List α → List α
  | [left, right, centre, lfe, leftRear, rightRear] =>
      [left, centre, right, leftRear, rightRear, lfe]
  | frame => frame

namespace StreamLayout

/-- The change of one frame. Up to three channels, and the modes that
have surrounds but no centre, are in order already. -/
def frameToA52 {α : Type} (layout : StreamLayout) (frame : List α) : List α :=
  if layout.channels ≤ 3 then frame
  else if layout.mode = some .front2rear1 ∨ layout.mode = some .front2rear2 then frame
  else if layout.channels = 6 then centreAndLfe frame
  else swapCentre frame

/-- Reorders every complete frame and leaves an incomplete last one. -/
def toA52 {α : Type} (layout : StreamLayout) (samples : List α) : List α :=
  (chunks layout.channels.toNat samples).flatMap fun frame =>
    if frame.length = layout.channels.toNat then layout.frameToA52 frame else frame

end StreamLayout

/-- The swap keeps the length. -/
@[simp] theorem length_swapCentre {α : Type} (frame : List α) :
    (swapCentre frame).length = frame.length := by
  unfold swapCentre
  split <;> simp

/-- The reordering of six channels keeps the length. -/
@[simp] theorem length_centreAndLfe {α : Type} (frame : List α) :
    (centreAndLfe frame).length = frame.length := by
  unfold centreAndLfe
  split <;> simp

namespace StreamLayout

/-- The change of a frame keeps its length. -/
@[simp] theorem length_frameToA52 {α : Type} (layout : StreamLayout) (frame : List α) :
    (layout.frameToA52 frame).length = frame.length := by
  unfold frameToA52
  split
  · rfl
  · split
    · rfl
    · split <;> simp

/-- The change of a buffer keeps its length. -/
@[simp] theorem length_toA52 {α : Type} (layout : StreamLayout) (samples : List α) :
    (layout.toA52 samples).length = samples.length := by
  unfold toA52
  generalize layout.channels.toNat = n
  induction h : samples.length using Nat.strongRecOn generalizing samples with
  | _ m ih =>
    cases samples with
    | nil => simp [← h]
    | cons x rest =>
        have hlt : (rest.drop (n - 1)).length < m := by
          simp only [List.length_cons] at h
          simp only [List.length_drop]
          omega
        -- The first piece keeps its length, and so does the rest by induction.
        rw [chunks_cons, List.flatMap_cons, List.length_append, ih _ hlt _ rfl]
        have hpiece : ∀ piece : List α,
            (if piece.length = n then layout.frameToA52 piece else piece).length
              = piece.length := by
          intro piece
          split <;> simp
        rw [hpiece]
        simp only [List.length_cons, List.length_take, List.length_drop] at h ⊢
        omega

end StreamLayout

/-- A change of an interleaved buffer before it is encoded. -/
class RemapHook (η : Type) where
  /-- The buffer as the hook leaves it, and the hook afterwards. -/
  apply : η → StreamLayout → List Sample → List Sample × η
  /-- A buffer is changed in place. -/
  length_apply : ∀ hook layout samples,
    (apply hook layout samples).1.length = samples.length

/-- The hook that puts WAVE channels into A/52 order. -/
inductive A52Order where
  | a52Order
  deriving DecidableEq

instance : RemapHook A52Order where
  apply hook layout samples := (layout.toA52 samples, hook)
  length_apply _ layout samples := layout.length_toA52 samples

end Packetizer

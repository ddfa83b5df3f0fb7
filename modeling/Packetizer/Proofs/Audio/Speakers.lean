import Packetizer.Proofs.Audio.Chunks

/-!
# `Packetizer.Proofs.Audio.Speakers`: speaker masks and the order of channels

A speaker mask gives a mode in sixteen cases only: the eight rows of
`maskRows`, each without and with the LFE. `ofMask_cases` takes a mask that
gave a mode apart into its row, and a fact about all masks is then a fact
about sixteen, which can be looked through.

A WAVE frame has the speakers of its mask in ascending order
(`waveOrder`), an A/52 frame the front ones with the centre in the middle,
then the surrounds, then the LFE (`a52Order`). The change of channel order
moves positions and never looks at samples, so it is known from where it
leaves the numbers of the positions (`frameToA52_eq`). It reaches the A/52
order in twelve cases. In the other four (`Misplaced`) it leaves the
centre last or the LFE in front of a surround.
-/

set_option autoImplicit false

namespace Packetizer

namespace CodingMode

/-! ### Masks that give a mode -/

/-- The masks that give a mode, the LFE aside, with their channels. -/
def maskRows : List (UInt32 × UInt8 × CodingMode) :=
  [(0x04, 1, mono), (0x03, 2, stereo), (0x07, 3, front3), (0x103, 3, front2rear1),
   (0x107, 4, front3rear1), (0x33, 4, front2rear2), (0x37, 5, front3rear2),
   (0x607, 5, front3rear2)]

/-- Speakers with the LFE, or without. -/
def withLfe (speakers : UInt32) (lfe : Bool) : UInt32 :=
  if lfe then speakers ||| lfeSpeaker else speakers

/-- Full-bandwidth channels with the one of the LFE, or without. -/
def addLfe (full : UInt8) (lfe : Bool) : UInt8 := if lfe then full + 1 else full

/-- What has a mode stands in a row. -/
theorem mem_maskRows {mask : UInt32} {full : UInt8} {mode : CodingMode}
    (h : ofSpeakers? mask full = some mode) : (mask, full, mode) ∈ maskRows := by
  -- The table looks at numbers, so each row gives two of them back as words.
  unfold ofSpeakers? at h
  split at h
  case h_9 => cases h
  all_goals
    rename_i hmask hfull
    cases h
    rw [← UInt32.ofNat_toNat (x := mask), ← UInt8.ofNat_toNat (x := full), hmask, hfull]
    decide

/-- The LFE is the fourth speaker. -/
theorem lfeSpeaker_toBitVec : lfeSpeaker.toBitVec = BitVec.twoPow 32 3 := by decide

/-- A mask with the LFE is the other speakers and the LFE. -/
theorem or_lfeSpeaker {mask : UInt32} (h : mask &&& lfeSpeaker ≠ 0) :
    (mask &&& ~~~ lfeSpeaker) ||| lfeSpeaker = mask := by
  -- Clearing a bit and setting it again is nothing only where it was set.
  have hbit : mask.toBitVec.getLsbD 3 = true := by
    cases hclear : mask.toBitVec.getLsbD 3 with
    | true => rfl
    | false =>
        refine absurd (UInt32.toBitVec_inj.mp ?_) h
        rw [UInt32.toBitVec_and, lfeSpeaker_toBitVec, BitVec.and_twoPow, hclear]
        rfl
  refine UInt32.toBitVec_inj.mp (BitVec.eq_of_getLsbD_eq fun i hi => ?_)
  rw [UInt32.toBitVec_or, UInt32.toBitVec_and, UInt32.toBitVec_not, lfeSpeaker_toBitVec]
  by_cases h3 : i = 3
  · subst h3
    simp [hbit]
  · simp [hi, h3]

/-- The full-bandwidth channels and the LFE are all channels. -/
theorem addLfe_of_fullChannels {channels full : UInt8} {lfe : Bool}
    (h : fullChannels channels lfe = some full) : addLfe full lfe = channels := by
  unfold fullChannels at h
  cases lfe with
  | false => simpa [addLfe] using h.symm
  | true =>
      rw [if_pos rfl] at h
      split at h
      · cases h
      · cases h
        simp [addLfe]

/-- A mask that gave a mode, with nothing decided before, is a row with its
LFE or without, and has the LFE when the mask does. -/
theorem ofMask_cases {channels : UInt8} {mask : UInt32} {mode : CodingMode} {lfe : Bool}
    (h : ofMask channels mask none none = some (mode, lfe)) :
    lfe = (mask &&& lfeSpeaker != 0) ∧
      ∃ speakers full, (speakers, full, mode) ∈ maskRows ∧ mask = withLfe speakers lfe ∧
        channels = addLfe full lfe := by
  simp only [ofMask, Option.getD_none] at h
  split at h
  case h_1 => cases h
  rename_i full hfull
  obtain ⟨found, hfound, heq⟩ := Option.map_eq_some_iff.mp h
  obtain ⟨rfl, hlfe⟩ := Prod.mk.inj heq
  rw [hlfe] at hfull hfound
  refine ⟨hlfe.symm, _, full, mem_maskRows hfound, ?_, (addLfe_of_fullChannels hfull).symm⟩
  cases lfe with
  | false => rfl
  | true => exact (or_lfeSpeaker (by simpa using hlfe)).symm

end CodingMode

/-! ### Orders of channels -/

/-- The speakers of a mask by the numbers of their bits, in ascending order.
The channels of a WAVE frame stand in this order. -/
def waveOrder (mask : UInt32) : List Nat := (List.range 32).filter mask.toNat.testBit

namespace Speaker

/-- The speaker of the lowest bit. -/
def frontLeft : Nat := 0

def frontRight : Nat := 1

def frontCentre : Nat := 2

/-- The speaker of `CodingMode.lfeSpeaker`. The surrounds have higher bits. -/
def lfe : Nat := 3

end Speaker

namespace CodingMode

/-- The front speakers of a mode, from left to right. -/
def fronts : CodingMode → List Nat
  | mono => [Speaker.frontCentre]
  | dualMono | stereo | front2rear1 | front2rear2 => [Speaker.frontLeft, Speaker.frontRight]
  | front3 | front3rear1 | front3rear2 =>
      [Speaker.frontLeft, Speaker.frontCentre, Speaker.frontRight]

/-- The surround speakers of a mask, in ascending order. -/
def surrounds (mask : UInt32) : List Nat := (waveOrder mask).filter (Speaker.lfe < ·)

/-- The A/52 order of the speakers of a mask: the front ones, the surrounds,
and the LFE if there is one. -/
def a52Order (mode : CodingMode) (lfe : Bool) (mask : UInt32) : List Nat :=
  mode.fronts ++ surrounds mask ++ if lfe then [Speaker.lfe] else []

/-- The cases in which the channels do not come into A/52 order: three front
channels alone, and an LFE with surrounds of which there are not both behind
three front channels. -/
def Misplaced (mode : CodingMode) (lfe : Bool) : Prop :=
  mode = front3 ∧ lfe = false ∨
    (mode = front2rear1 ∨ mode = front3rear1 ∨ mode = front2rear2) ∧ lfe = true

instance (mode : CodingMode) (lfe : Bool) : Decidable (Misplaced mode lfe) :=
  inferInstanceAs (Decidable (_ ∨ _))

/-- The order in which the change of channel order leaves the speakers. -/
def leftOrder (mode : CodingMode) (lfe : Bool) (mask : UInt32) : List Nat :=
  if mode.Misplaced lfe then
    -- The centre moves forward, if it moves, and the LFE stays.
    if mode = front3rear1 then mode.fronts ++ [Speaker.lfe] ++ surrounds mask
    else waveOrder mask
  else mode.a52Order lfe mask

end CodingMode

section
variable {α β : Type}

/-- The samples of a frame with the speakers `present`, in the order of the
speakers `wanted`. -/
def rearranged (present wanted : List Nat) (frame : List α) : List α :=
  wanted.filterMap fun speaker => frame[present.idxOf speaker]?

/-! ### The change of order moves positions -/

theorem map_swapCentre (f : α → β) :
    ∀ frame : List α, (swapCentre frame).map f = swapCentre (frame.map f)
  | [] | [_] | [_, _] | _ :: _ :: _ :: _ => rfl

theorem map_centreAndLfe (f : α → β) :
    ∀ frame : List α, (centreAndLfe frame).map f = centreAndLfe (frame.map f)
  | [] | [_] | [_, _] | [_, _, _] | [_, _, _, _] | [_, _, _, _, _] | [_, _, _, _, _, _]
  | _ :: _ :: _ :: _ :: _ :: _ :: _ :: _ => rfl

namespace StreamLayout

variable (layout : StreamLayout)

/-- The change of a frame does not look at the samples. -/
theorem map_frameToA52 (f : α → β) (frame : List α) :
    (layout.frameToA52 frame).map f = layout.frameToA52 (frame.map f) := by
  unfold frameToA52
  split
  · rfl
  · split
    · rfl
    · split
      · exact map_centreAndLfe f frame
      · exact map_swapCentre f frame

/-- The position that each sample of a changed frame had before. -/
def positions : List Nat := layout.frameToA52 (List.range layout.channels.toNat)

/-- A changed frame has its samples in the order of the positions. -/
theorem frameToA52_eq {frame : List α} (h : frame.length = layout.channels.toNat) :
    layout.frameToA52 frame = layout.positions.filterMap fun i => frame[i]? := by
  -- Every sample of the frame is there, so numbering the positions loses none.
  have hrange : frame.map some = (List.range layout.channels.toNat).map fun i => frame[i]? := by
    rw [← h]
    refine List.ext_getElem (by simp) fun i hi _ => ?_
    simp only [List.length_map] at hi
    simp [hi]
  calc layout.frameToA52 frame
      = ((layout.frameToA52 frame).map some).filterMap id := by simp
    _ = ((layout.positions).map fun i => frame[i]?).filterMap id := by
        rw [map_frameToA52, hrange, ← map_frameToA52]
        rfl
    _ = layout.positions.filterMap fun i => frame[i]? := by
        rw [List.filterMap_map]
        rfl

/-- Whole frames are changed one by one. -/
theorem toA52_whole {samples : List α} (h : samples.length % layout.channels.toNat = 0) :
    layout.toA52 samples = (chunks layout.channels.toNat samples).flatMap layout.frameToA52 := by
  obtain ⟨-, hfull⟩ := length_chunks h
  have hframes : (chunks layout.channels.toNat samples).map (fun frame =>
      if frame.length = layout.channels.toNat then layout.frameToA52 frame else frame)
      = (chunks layout.channels.toNat samples).map layout.frameToA52 := by
    refine List.map_congr_left fun frame hframe => ?_
    rw [if_pos (hfull frame hframe)]
  rw [toA52, List.flatMap_def, List.flatMap_def, hframes]

end StreamLayout

end

namespace CodingMode

/-- In each of the sixteen cases the speakers of the mask are the channels,
A/52 order has all of them, and the positions are those of the order in which
the speakers are left. -/
theorem orders_of_row : ∀ row ∈ maskRows, ∀ lfe : Bool,
    let mask := withLfe row.1 lfe
    let channels := addLfe row.2.1 lfe
    (waveOrder mask).length = channels.toNat ∧
      (row.2.2.a52Order lfe mask).Perm (waveOrder mask) ∧
      (StreamLayout.mk channels .float (some row.2.2) lfe).positions
        = (row.2.2.leftOrder lfe mask).map (waveOrder mask).idxOf ∧
      (row.2.2.leftOrder lfe mask = row.2.2.a52Order lfe mask ↔ ¬ row.2.2.Misplaced lfe) := by
  decide

/-- The channels of whole frames are left in the order of their case. -/
theorem toA52_of_mask {channels : UInt8} {mask : UInt32} {mode : CodingMode} {lfe : Bool}
    (h : ofMask channels mask none none = some (mode, lfe)) (format : SampleFormat) {α : Type}
    {samples : List α} (hwhole : samples.length % channels.toNat = 0) :
    (StreamLayout.mk channels format (some mode) lfe).toA52 samples
      = (chunks channels.toNat samples).flatMap
          (rearranged (waveOrder mask) (mode.leftOrder lfe mask)) := by
  obtain ⟨-, speakers, full, hrow, rfl, rfl⟩ := ofMask_cases h
  obtain ⟨-, -, hpositions, -⟩ := orders_of_row _ hrow lfe
  obtain ⟨-, hfull⟩ := length_chunks hwhole
  rw [StreamLayout.toA52_whole _ hwhole, List.flatMap_def, List.flatMap_def]
  refine congrArg List.flatten (List.map_congr_left fun frame hframe => ?_)
  -- The format plays no part in the positions.
  have hsame : (StreamLayout.mk (addLfe full lfe) format (some mode) lfe).positions
      = (StreamLayout.mk (addLfe full lfe) .float (some mode) lfe).positions := rfl
  rw [StreamLayout.frameToA52_eq _ (hfull frame hframe), hsame, hpositions, List.filterMap_map]
  rfl

/-- For every mask that gives a mode, the change of channel order takes whole
frames from WAVE order to A/52 order, unless the case is one of the misplaced
ones. In those it leaves them in another order. -/
theorem a52_order_unless_misplaced {channels : UInt8} {mask : UInt32} {mode : CodingMode}
    {lfe : Bool} (h : ofMask channels mask none none = some (mode, lfe))
    (format : SampleFormat) :
    let layout : StreamLayout := ⟨channels, format, some mode, lfe⟩
    let wave := waveOrder mask
    let a52 := mode.a52Order lfe mask
    let left := mode.leftOrder lfe mask
    (wave.length = channels.toNat ∧ a52.Perm wave) ∧
      (¬ mode.Misplaced lfe → ∀ {α : Type} (samples : List α),
        samples.length % channels.toNat = 0 →
        layout.toA52 samples = (chunks channels.toNat samples).flatMap (rearranged wave a52)) ∧
      (mode.Misplaced lfe → left ≠ a52 ∧ ∀ {α : Type} (samples : List α),
        samples.length % channels.toNat = 0 →
        layout.toA52 samples = (chunks channels.toNat samples).flatMap (rearranged wave left)) := by
  obtain ⟨-, speakers, full, hrow, rfl, rfl⟩ := ofMask_cases h
  obtain ⟨hlength, hperm, -, hleft⟩ := orders_of_row _ hrow lfe
  refine ⟨⟨hlength, hperm⟩, ?_, ?_⟩
  · intro hplaced α samples hwhole
    have hsame := hleft.mpr hplaced
    rw [← hsame]
    exact toA52_of_mask h format hwhole
  · intro hmisplaced
    refine ⟨fun hsame => hleft.mp hsame hmisplaced, ?_⟩
    intro α samples hwhole
    exact toA52_of_mask h format hwhole

/-- Two frames of six channels with the surrounds at the side, numbered as they
come: each is left, centre, right, both surrounds and the LFE afterwards. -/
theorem a52_order_unless_misplaced_six :
    ofMask 6 0x60F none none = some (front3rear2, true) ∧ ¬ front3rear2.Misplaced true ∧
      (StreamLayout.mk 6 .float (some front3rear2) true).toA52 (List.range 12)
        = [0, 2, 1, 4, 5, 3, 6, 8, 7, 10, 11, 9] := by
  have hmask : ofMask 6 0x60F none none = some (front3rear2, true) := by decide
  have hplaced : ¬ front3rear2.Misplaced true := by decide
  refine ⟨hmask, hplaced, ?_⟩
  rw [(a52_order_unless_misplaced hmask .float).2.1 hplaced (List.range 12) (by decide)]
  have hframes : chunks (6 : UInt8).toNat (List.range 12)
      = [[0, 1, 2, 3, 4, 5], [6, 7, 8, 9, 10, 11]] := by
    simp [List.range, List.range.loop, chunks_cons]
  rw [hframes]
  decide

/-- Three front channels, one surround and an LFE: the LFE stays in front of the
surround, where A/52 order has it last. -/
theorem lfe_before_surround :
    let layout : StreamLayout := ⟨5, .float, some front3rear1, true⟩
    let frame : List Sample := [⟨1⟩, ⟨2⟩, ⟨3⟩, ⟨4⟩, ⟨5⟩]
    ofMask 5 0x10F none none = some (front3rear1, true) ∧
      layout.toA52 frame = [⟨1⟩, ⟨3⟩, ⟨2⟩, ⟨4⟩, ⟨5⟩] ∧
      rearranged (waveOrder 0x10F) (front3rear1.a52Order true 0x10F) frame
        = [⟨1⟩, ⟨3⟩, ⟨2⟩, ⟨5⟩, ⟨4⟩] ∧
      layout.toA52 frame
        ≠ rearranged (waveOrder 0x10F) (front3rear1.a52Order true 0x10F) frame := by
  intro layout frame
  have hleft : layout.toA52 frame = [⟨1⟩, ⟨3⟩, ⟨2⟩, ⟨4⟩, ⟨5⟩] := by
    have hone : chunks layout.channels.toNat frame = [frame] := by
      simp [layout, frame, chunks_cons]
    rw [StreamLayout.toA52, hone]
    rfl
  refine ⟨by decide, hleft, by decide, ?_⟩
  rw [hleft]
  decide

end CodingMode

end Packetizer

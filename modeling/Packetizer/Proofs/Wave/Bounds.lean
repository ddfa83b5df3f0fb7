import Packetizer.Proofs.Wave.Decoding

/-!
# `Packetizer.Proofs.Wave.Bounds`: no position outside the bytes that were read

`Reader.readInto?` reads as `Reader.readInto` does, and checks on the way what
the other takes for granted: that it never divides by nothing, that each sample
lies within the bytes that were read, that the samples fit the buffer, and that
no more is taken off what remains of the data than remains. It has no answer
when a check fails.

No check ever fails, in any call of any run: `readInto?_eq` says that both read
the same. That rests on two facts. Frames are one stored sample for each channel
(`Format.Sound`), which the header has seen to. And what remains is no more than
what was stated (`Valid`), which every call keeps, also when its source fails.
-/

set_option autoImplicit false

namespace Packetizer.Wave

/-! ### Checked operations -/

/-- The `width` bytes from a position on, if all of them are there. -/
def slice? (bytes : List UInt8) (start width : Nat) : Option (List UInt8) :=
  if start + width ≤ bytes.length then some ((bytes.drop start).take width) else none

/-- A difference that is not negative. -/
def minus? (a b : Nat) : Option Nat := if b ≤ a then some (a - b) else none

/-- A buffer with some samples written over its front, if they fit. -/
def overwrite? (buffer samples : List Sample) : Option (List Sample) :=
  if samples.length ≤ buffer.length then some (samples ++ buffer.drop samples.length) else none

namespace Reader

variable {ρ : Type}

/-- The samples of the whole frames in some bytes, each from its own position.
Frames have bytes, and those are divided among channels. -/
def decode? (w : Reader ρ) (bytes : List UInt8) : Option (List Sample) :=
  if w.blockAlign = 0 ∨ w.channels = 0 then none
  else
    let container := w.blockAlign / w.channels
    let encoding := w.header.format.encoding
    (List.range (bytes.length / w.blockAlign * w.channels)).mapM fun index =>
      (slice? bytes (index * container) encoding.width).map encoding.convert

/-- What remains of the data after some more bytes. -/
def remaining? (w : Reader ρ) (taken : Nat) : Option (Option Nat) :=
  match w.remaining with
  | some remaining => (minus? remaining taken).map some
  | none => some none

/-- Reads the next samples into a buffer and checks every step of it. -/
def readInto? [Source ρ] (w : Reader ρ) (buffer : List Sample) :
    Option (Reading StreamError (Reader ρ) (Nat × List Sample)) :=
  if w.channels = 0 then none
  else
    let filled := Source.fill w.source (w.wanted buffer.length)
    match filled.outcome with
    | .error e => some ⟨.error e, filled.log, { w with source := filled.source }⟩
    | .ok bytes => do
        let remaining ← w.remaining? bytes.length
        let samples ← w.decode? bytes
        let out ← overwrite? buffer samples
        return ⟨.ok (bytes.length / w.blockAlign, out), filled.log,
          { w with source := filled.source, remaining := remaining }⟩

end Reader

section
variable {α β : Type}

/-- What goes well for every element goes well for the list. -/
theorem mapM_eq_some_map {f : α → Option β} {g : α → β} {xs : List α}
    (h : ∀ x ∈ xs, f x = some (g x)) : xs.mapM f = some (xs.map g) := by
  induction xs with
  | nil => rfl
  | cons x xs ih =>
      have hrest := ih fun y hy => h y (List.mem_cons_of_mem x hy)
      rw [List.mapM_cons, h x List.mem_cons_self, hrest]
      rfl

end

/-! ### One call -/

/-- A frame is divided among the channels without a rest. -/
theorem Format.Sound.container {f : Format} (hs : f.Sound) :
    f.blockAlign / f.channels = f.encoding.width := by
  rw [hs.blockAlign]
  exact Nat.mul_div_cancel _ hs.channels_pos

/-- Some frames are that many samples for each channel. -/
theorem Format.Sound.mul_blockAlign {f : Format} (hs : f.Sound) (frames : Nat) :
    frames * f.blockAlign = frames * f.channels * f.encoding.width := by
  rw [hs.blockAlign, Nat.mul_assoc, Nat.mul_comm f.channels]

/-- Each sample of the whole frames lies within the bytes. -/
theorem Format.Sound.sample_within {f : Format} (hs : f.Sound) {bytes : List UInt8} {index : Nat}
    (h : index < bytes.length / f.blockAlign * f.channels) :
    index * (f.blockAlign / f.channels) + f.encoding.width
        ≤ bytes.length / f.blockAlign * f.blockAlign ∧
      bytes.length / f.blockAlign * f.blockAlign ≤ bytes.length := by
  refine ⟨?_, Nat.div_mul_le_self _ _⟩
  calc index * (f.blockAlign / f.channels) + f.encoding.width
      = (index + 1) * f.encoding.width := by rw [hs.container, Nat.succ_mul]
    _ ≤ bytes.length / f.blockAlign * f.channels * f.encoding.width :=
        Nat.mul_le_mul_right _ h
    _ = bytes.length / f.blockAlign * f.blockAlign := (hs.mul_blockAlign _).symm

namespace Reader

variable {ρ : Type} {header : Header} {w : Reader ρ} {bytes : List UInt8} {capacity : Nat}

/-- Decoding by positions finds all of them, and the samples are those of the
pieces that the bytes are cut into. -/
theorem decode?_eq (hfixed : w.header = header) (hs : header.format.Sound)
    (bytes : List UInt8) : w.decode? bytes = some (w.decode bytes) := by
  have hnone : ¬ (w.blockAlign = 0 ∨ w.channels = 0) := by
    rw [blockAlign, channels, hfixed]
    have halign := hs.blockAlign_pos
    have hchannels := hs.channels_pos
    omega
  have hwhole : (bytes.take (bytes.length / header.format.blockAlign
      * header.format.blockAlign)).length
      = bytes.length / header.format.blockAlign * header.format.channels
        * header.format.encoding.width := by
    rw [List.length_take_of_le (Nat.div_mul_le_self _ _), hs.mul_blockAlign]
  rw [decode_eq hfixed hs, Encoding.samples,
    chunks_eq_map_range header.format.encoding.width_pos hwhole, List.map_map, decode?,
    if_neg hnone, blockAlign, channels, hfixed]
  refine mapM_eq_some_map fun index hindex => ?_
  obtain ⟨hend, hle⟩ := hs.sample_within (List.mem_range.mp hindex)
  rw [slice?, if_pos (Nat.le_trans hend hle), Option.map_some, Function.comp_apply]
  -- The sample ends in front of the bytes that belong to no whole frame.
  rw [hs.container] at hend ⊢
  rw [List.drop_take, List.take_take, Nat.min_eq_left (by omega)]

/-- No more is read than remains. -/
theorem wanted_le {remaining : Nat} (h : w.remaining = some remaining) :
    w.wanted capacity ≤ remaining := by
  rw [wanted, h]
  exact Nat.min_le_right _ _

/-- The frames among the bytes that were wanted fit the buffer. -/
theorem frames_fit (hfixed : w.header = header) (h : bytes.length ≤ w.wanted capacity) :
    bytes.length / header.format.blockAlign * header.format.channels ≤ capacity := by
  have hwhole : bytes.length
      ≤ capacity / header.format.channels * header.format.blockAlign := by
    refine Nat.le_trans h ?_
    rw [wanted, channels, blockAlign, hfixed]
    split
    · exact Nat.min_le_left _ _
    · exact Nat.le_refl _
  calc bytes.length / header.format.blockAlign * header.format.channels
      ≤ capacity / header.format.channels * header.format.channels :=
        Nat.mul_le_mul_right _ (Nat.div_le_of_le_mul (by rwa [Nat.mul_comm] at hwhole))
    _ ≤ capacity := Nat.div_mul_le_self _ _

variable [Source ρ]

/-- All that a call can come to. Its source fails, and what remains is as before,
or it gives some bytes, no more than wanted, and these are taken off. -/
theorem next_cases (w : Reader ρ) (capacity : Nat) :
    let filled := Source.fill w.source (w.wanted capacity)
    (∃ error, filled.outcome = .error error ∧
      w.next capacity = ⟨.error error, filled.log, { w with source := filled.source }⟩) ∨
    (∃ bytes, filled.outcome = .ok bytes ∧ bytes.length ≤ w.wanted capacity ∧
      w.next capacity = ⟨.ok (w.decode bytes), filled.log,
        { w with
          source := filled.source
          remaining := w.remaining.map (· - bytes.length) }⟩) := by
  unfold next
  dsimp only
  cases hfill : (Source.fill w.source (w.wanted capacity)).outcome with
  | error error => exact .inl ⟨error, rfl, rfl⟩
  | ok bytes => exact .inr ⟨bytes, rfl, Source.length_fill w.source _ hfill, rfl⟩

/-- Every check of a call goes well. -/
theorem readInto?_eq (hfixed : w.header = header) (hs : header.format.Sound)
    (buffer : List Sample) : w.readInto? buffer = some (w.readInto buffer) := by
  have hchannels : w.channels = header.format.channels := by rw [channels, hfixed]
  have halign : w.blockAlign = header.format.blockAlign := by rw [blockAlign, hfixed]
  have hsome : ¬ w.channels = 0 := by
    rw [hchannels]
    exact Nat.ne_of_gt hs.channels_pos
  unfold readInto? readInto
  rw [if_neg hsome]
  rcases w.next_cases buffer.length with ⟨error, hfill, hnext⟩ | ⟨bytes, hfill, hle, hnext⟩
  · simp only [hfill, hnext]
    rfl
  have hremaining : w.remaining? bytes.length = some (w.remaining.map (· - bytes.length)) := by
    unfold remaining?
    cases hknown : w.remaining with
    | none => rfl
    | some remaining =>
        have hroom : bytes.length ≤ remaining := Nat.le_trans hle (wanted_le hknown)
        show (minus? remaining bytes.length).map some = _
        rw [minus?, if_pos hroom]
        rfl
  have hlen := length_decode hfixed hs bytes
  have hout : overwrite? buffer (w.decode bytes)
      = some (w.decode bytes ++ buffer.drop (w.decode bytes).length) := by
    refine if_pos ?_
    rw [hlen]
    exact frames_fit hfixed hle
  -- The frames are counted from the bytes here, and from the samples there.
  have hframes : (w.decode bytes).length / w.channels = bytes.length / w.blockAlign := by
    rw [hlen, hchannels, halign, Nat.mul_div_cancel _ hs.channels_pos]
  simp only [hfill, hnext, hremaining, decode?_eq hfixed hs, ← hframes, Option.bind_eq_bind,
    Option.bind_some, hout]
  rfl

/-! ### Many calls -/

/-- The state of a reader that has read nothing outside its data. -/
structure Valid (header : Header) (w : Reader ρ) : Prop where
  fixed : w.header = header
  /-- What remains of a stated size is no more than that. -/
  stated : ∀ stated, header.dataBytes = some stated →
    ∃ remaining ≤ stated, w.remaining = some remaining
  unstated : header.dataBytes = none → w.remaining = none

omit [Source ρ] in
theorem valid_ofHeader (header : Header) (source : ρ) : Valid header (ofHeader header source) where
  fixed := rfl
  stated stated h := ⟨stated, Nat.le_refl _, h⟩
  unstated h := h

/-- A call leaves the state valid, whatever comes of it. -/
theorem Valid.readInto (h : Valid header w) (buffer : List Sample) :
    Valid header (w.readInto buffer).source := by
  show Valid header (w.next buffer.length).source
  rcases w.next_cases buffer.length with ⟨error, -, hnext⟩ | ⟨bytes, -, -, hnext⟩
  · rw [hnext]
    exact ⟨h.fixed, h.stated, h.unstated⟩
  · rw [hnext]
    refine ⟨h.fixed, fun stated hstated => ?_, fun hnone => ?_⟩
    · obtain ⟨remaining, hle, hremaining⟩ := h.stated stated hstated
      refine ⟨remaining - bytes.length, by omega, ?_⟩
      show w.remaining.map (· - bytes.length) = _
      rw [hremaining, Option.map_some]
    · show w.remaining.map (· - bytes.length) = _
      rw [h.unstated hnone, Option.map_none]

/-- The reader behind calls with some buffers, whether they went well or not. -/
def afterCalls (w : Reader ρ) (buffers : List (List Sample)) : Reader ρ :=
  buffers.foldl (fun w buffer => (w.readInto buffer).source) w

theorem Valid.afterCalls (h : Valid header w) (buffers : List (List Sample)) :
    Valid header (w.afterCalls buffers) := by
  induction buffers generalizing w with
  | nil => exact h
  | cons buffer buffers ih => exact ih (h.readInto buffer)

/-- A reader whose header was read keeps to its bytes, whatever its source does
and however often it is called, with buffers of any length. Its frames are whole
samples, its state stays valid, and a call with every step checked is the call
without the checks. What is checked, in numbers: the frames fit the buffer, each
sample lies within the bytes that were read, and these are no more than remains
of the data. -/
theorem calls_within_bounds {ρ₀ : Type} [Source ρ₀] {r : ρ₀}
    (hread : (readHeader r).outcome = .ok header) (source : ρ) (buffers : List (List Sample))
    (buffer : List Sample) :
    let w := (ofHeader header source).afterCalls buffers
    let width := w.header.format.encoding.width
    width * w.channels = w.blockAlign ∧ 0 < w.blockAlign ∧ Valid header w ∧
      w.readInto? buffer = some (w.readInto buffer) ∧
      ∀ bytes, (Source.fill w.source (w.wanted buffer.length)).outcome = .ok bytes →
        let frames := bytes.length / w.blockAlign
        frames * w.channels ≤ buffer.length ∧
        (∀ index < frames * w.channels,
          index * (w.blockAlign / w.channels) + width ≤ bytes.length) ∧
        ∀ remaining, w.remaining = some remaining → bytes.length ≤ remaining := by
  intro w width
  have hs := (readHeader_sound hread).format
  have hvalid : Valid header w := (valid_ofHeader header source).afterCalls buffers
  have hformat : w.header.format = header.format := by rw [hvalid.fixed]
  have hsound : w.header.format.Sound := by rwa [hformat]
  refine ⟨hsound.blockAlign.symm, hsound.blockAlign_pos, hvalid,
    readInto?_eq hvalid.fixed hs buffer, fun bytes hfill => ?_⟩
  have hle := Source.length_fill w.source _ hfill
  intro frames
  refine ⟨frames_fit rfl hle, fun index hindex => ?_, fun remaining hremaining => ?_⟩
  · obtain ⟨hend, hwhole⟩ := hsound.sample_within hindex
    exact Nat.le_trans hend hwhole
  · exact Nat.le_trans hle (wanted_le hremaining)

open Rehearsal in
/-- The first call fails behind six bytes and the second one meets an end behind
three. The third is left with six bytes of nine stated ones, a frame and a half. -/
theorem calls_within_bounds_scripted :
    let head : List UInt8 := chunkName "RIFF" ++ [0, 0, 0, 0] ++ chunkName "WAVE"
      ++ chunkName "fmt " ++ [16, 0, 0, 0]
      ++ [1, 0, 2, 0, 0x80, 0xBB, 0, 0, 0, 0xEE, 2, 0, 4, 0, 16, 0]
      ++ chunkName "data" ++ [9, 0, 0, 0]
    let r : ScriptedSource := ⟨head ++ List.replicate 20 5,
      List.replicate 13 (.deliver 100 none)
        ++ [.deliver 6 none, .fail, .deliver 3 none, .pause], true, 0⟩
    let header : Header := ⟨⟨.s16, 2, 48000, 4, 3⟩, some 9⟩
    let buffer : List Sample := List.replicate 6 ⟨7⟩
    let w := (ofHeader header (readHeader r).source).afterCalls [buffer, List.replicate 3 ⟨7⟩]
    (readHeader r).outcome = .ok header ∧ w.remaining = some 6 ∧
      w.readInto? buffer = some (w.readInto buffer) ∧
      ∃ bytes, (Source.fill w.source (w.wanted buffer.length)).outcome = .ok bytes ∧
        bytes.length / w.blockAlign = 1 ∧ 1 * w.channels ≤ buffer.length ∧
        1 * (w.blockAlign / w.channels) + w.header.format.encoding.width ≤ bytes.length ∧
        bytes.length ≤ 6 := by
  intro head r header buffer w
  have hread : (readHeader r).outcome = .ok header := by decide +kernel
  obtain ⟨-, -, -, hchecked, hcall⟩ :=
    calls_within_bounds hread (readHeader r).source [buffer, List.replicate 3 ⟨7⟩] buffer
  have hremaining : w.remaining = some 6 := by decide +kernel
  have hfill : (Source.fill w.source (w.wanted buffer.length)).outcome
      = .ok (List.replicate 6 5) := by decide +kernel
  have hone : (List.replicate 6 (5 : UInt8)).length / w.blockAlign = 1 := by decide +kernel
  obtain ⟨hfits, hwithin, hleft⟩ := hcall _ hfill
  rw [hone] at hfits hwithin
  exact ⟨hread, hremaining, hchecked, _, hfill, hone, hfits, hwithin 1 (by decide +kernel),
    hleft 6 hremaining⟩

end Reader

end Packetizer.Wave

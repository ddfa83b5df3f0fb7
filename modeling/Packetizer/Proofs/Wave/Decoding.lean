import Mathlib.Control.Monad.Basic
import Packetizer.Proofs.Audio.Chunks
import Packetizer.Proofs.Rehearsal.Devices
import Packetizer.Proofs.Wave.Header
import Packetizer.Wave.Reader

/-!
# `Packetizer.Proofs.Wave.Decoding`: the samples of a file, call by call

However a file is read, into buffers of any lengths and from a source
that delivers any pieces, the samples are those of its whole frames, in
order. Each call gets as many frames as its buffer has room for or as are
left, and no byte behind the data is taken.

The invariant is `Stands`: what was taken of the data is whole frames, or
else all of it. Then a call that is not the last takes whole frames
again, and the one that meets the end takes what is left, with the bytes
behind the last whole frame. `Stands.next` is one call and
`Stands.readBuffers` any number of them.
-/

set_option autoImplicit false

namespace Packetizer.Wave

/-! ### Stored samples -/

namespace Encoding

/-- The samples stored in some bytes. -/
def samples (e : Encoding) (bytes : List UInt8) : List Sample :=
  (chunks e.width bytes).map e.convert

variable (e : Encoding)

@[simp] theorem samples_nil : e.samples [] = [] := by
  rw [samples, chunks_nil, List.map_nil]

theorem samples_append {front : List UInt8} (h : front.length % e.width = 0)
    (back : List UInt8) : e.samples (front ++ back) = e.samples front ++ e.samples back := by
  rw [samples, chunks_append h, List.map_append]
  rfl

theorem length_samples {bytes : List UInt8} {n : Nat} (h : bytes.length = e.width * n) :
    (e.samples bytes).length = n := by
  have hwhole : bytes.length % e.width = 0 := by rw [h, Nat.mul_mod_right]
  rw [samples, List.length_map]
  exact Nat.eq_of_mul_eq_mul_left e.width_pos ((length_chunks hwhole).1.trans h)

end Encoding

/-- The bytes of whole frames hold a sample for each channel of each
frame. -/
theorem Format.Sound.length_samples {f : Format} (hs : f.Sound) {bytes : List UInt8} {n : Nat}
    (h : bytes.length = n * f.blockAlign) :
    (f.encoding.samples bytes).length = n * f.channels := by
  refine Encoding.length_samples f.encoding ?_
  rw [h, hs.blockAlign]
  exact Nat.mul_left_comm _ _ _

/-- The bytes of whole frames are whole samples, and these are whole frames. -/
theorem Format.Sound.whole_samples {f : Format} (hs : f.Sound) {bytes : List UInt8}
    (h : bytes.length % f.blockAlign = 0) :
    bytes.length % f.encoding.width = 0 ∧ (f.encoding.samples bytes).length % f.channels = 0 := by
  constructor
  · rw [hs.blockAlign] at h
    rw [← Nat.mod_mul_right_mod bytes.length f.encoding.width f.channels, h, Nat.zero_mod]
  · rw [hs.length_samples (Nat.div_mul_cancel (Nat.dvd_of_mod_eq_zero h)).symm, Nat.mul_mod_left]

/-! ### Bytes and frames -/

namespace Header

/-- The bytes of the data in a body, which may end early. -/
def available (h : Header) (body : List UInt8) : Nat :=
  match h.dataBytes with
  | some stated => min stated body.length
  | none => body.length

/-- The whole frames in a body. -/
def wholeFrames (h : Header) (body : List UInt8) : Nat :=
  h.available body / h.format.blockAlign

/-- A body has no more frames than the header states. -/
theorem wholeFrames_le {h : Header} (hs : h.Sound) (body : List UInt8) {stated : FrameCount}
    (hstated : h.frames = some stated) : h.wholeFrames body ≤ stated.toNat := by
  unfold frames at hstated
  cases hbytes : h.dataBytes with
  | none =>
      rw [hbytes] at hstated
      cases hstated
  | some bytes =>
      rw [hbytes] at hstated
      cases hstated
      have hle : bytes / h.format.blockAlign ≤ bytes := Nat.div_le_self _ _
      have hlt : bytes < 1 <<< 32 := hs.stated bytes hbytes
      have hcount : (FrameCount.ofNat (bytes / h.format.blockAlign)).toNat
          = bytes / h.format.blockAlign := by
        refine UInt64.toNat_ofNat_of_lt' (Nat.lt_of_le_of_lt hle (Nat.lt_trans hlt ?_))
        decide
      rw [hcount, wholeFrames, available, hbytes]
      exact Nat.div_le_div_right (Nat.min_le_left _ _)

/-- The samples of `n` frames of a body, from the frame `first` on. -/
def decoded (h : Header) (body : List UInt8) (first n : Nat) : List Sample :=
  h.format.encoding.samples
    ((body.drop (first * h.format.blockAlign)).take (n * h.format.blockAlign))

variable {h : Header} {body : List UInt8} {first n : Nat}

/-- The bytes of whole frames are there, and they are whole samples. -/
theorem length_frameBytes (hs : h.format.Sound) (hle : first + n ≤ h.wholeFrames body) :
    ((body.drop (first * h.format.blockAlign)).take (n * h.format.blockAlign)).length
      = h.format.encoding.width * (n * h.format.channels) := by
  have hdata : h.available body ≤ body.length := by
    unfold available
    split
    · exact Nat.min_le_right _ _
    · exact Nat.le_refl _
  have hfit := Nat.le_trans ((Nat.le_div_iff_mul_le hs.blockAlign_pos).mp hle) hdata
  rw [Nat.add_mul] at hfit
  rw [List.length_take_of_le (by rw [List.length_drop]; omega)]
  conv => lhs; rw [hs.blockAlign]
  exact Nat.mul_left_comm _ _ _

theorem length_decoded (hs : h.format.Sound) (hle : first + n ≤ h.wholeFrames body) :
    (h.decoded body first n).length = n * h.format.channels :=
  Encoding.length_samples _ (length_frameBytes hs hle)

/-- Frames are decoded one behind the other. -/
theorem decoded_add (hs : h.format.Sound) (hle : first + n ≤ h.wholeFrames body) (more : Nat) :
    h.decoded body first (n + more)
      = h.decoded body first n ++ h.decoded body (first + n) more := by
  have hwhole := length_frameBytes hs hle
  rw [decoded, Nat.add_mul, List.take_add, List.drop_drop, ← Nat.add_mul]
  exact Encoding.samples_append _ (by rw [hwhole, Nat.mul_mod_right]) _

end Header

/-- From a place between two frames, or from the end, a call for `wanted`
frames gets as many of them as are left. Afterwards it is such a place
again. -/
theorem frames_of_bytes {align all taken : Nat} (halign : 0 < align) (hle : taken ≤ all)
    (hplace : taken % align = 0 ∨ taken = all) (wanted : Nat) :
    let got := min (wanted * align) (all - taken)
    got / align = min wanted (all / align - taken / align) ∧
      (taken + got) / align = taken / align + got / align ∧
      ((taken + got) % align = 0 ∨ taken + got = all) := by
  intro got
  rcases hplace with hwhole | hend
  · obtain ⟨q, rfl⟩ := Nat.dvd_of_mod_eq_zero hwhole
    have hq : align * q / align = q := Nat.mul_div_cancel_left q halign
    have hleft : (all - align * q) / align = all / align - q := Nat.sub_mul_div ..
    refine ⟨?_, ?_, ?_⟩
    · rw [hq, ← hleft]
      rcases Nat.le_total (wanted * align) (all - align * q) with hroom | hroom
      · have hfit := (Nat.le_div_iff_mul_le halign).mpr hroom
        rw [show got = wanted * align from Nat.min_eq_left hroom,
          Nat.mul_div_cancel _ halign, Nat.min_eq_left hfit]
      · have hfit := Nat.div_le_of_le_mul (Nat.mul_comm wanted align ▸ hroom)
        rw [show got = all - align * q from Nat.min_eq_right hroom, Nat.min_eq_right hfit]
    · rw [hq, Nat.add_comm, Nat.add_mul_div_left _ _ halign, Nat.add_comm]
    · rcases Nat.le_total (wanted * align) (all - align * q) with hroom | hroom
      · left
        rw [show got = wanted * align from Nat.min_eq_left hroom, Nat.mul_add_mod,
          Nat.mul_mod_left]
      · right
        rw [show got = all - align * q from Nat.min_eq_right hroom]
        omega
  · subst hend
    have hgot : got = 0 := by
      show min _ (taken - taken) = 0
      rw [Nat.sub_self, Nat.min_zero]
    rw [hgot, Nat.zero_div, Nat.sub_self, Nat.min_zero]
    exact ⟨rfl, rfl, .inr rfl⟩

/-! ### One call -/

namespace Reader

variable {ρ : Type} [Source ρ]

/-- The reader has taken so many bytes off the front of a body. They are
data, and whole frames unless they are all of the data. -/
structure Stands (header : Header) (body : List UInt8) (taken : Nat) (w : Reader ρ) : Prop where
  fixed : w.header = header
  source : Source.Delivers w.source (body.drop taken)
  remaining : w.remaining = header.dataBytes.map (· - taken)
  inside : taken ≤ header.available body
  place : taken % header.format.blockAlign = 0 ∨ taken = header.available body

variable {header : Header} {body : List UInt8} {taken : Nat} {w : Reader ρ}

/-- Filling gets the bytes that were wanted, as far as there are data. -/
theorem Stands.fill (h : Stands header body taken w) (capacity : Nat) :
    let got := min (capacity / header.format.channels * header.format.blockAlign)
      (header.available body - taken)
    let filled := Source.fill w.source (w.wanted capacity)
    filled.outcome = .ok ((body.drop taken).take got) ∧
      Source.Delivers filled.source (body.drop (taken + got)) ∧
      ((body.drop taken).take got).length = got := by
  have hinside := h.inside
  intro got filled
  -- The source may end before the data do, which cuts both in the same place.
  have hsame : min (w.wanted capacity) (body.drop taken).length
      = min got (body.drop taken).length ∧ got ≤ (body.drop taken).length := by
    rw [List.length_drop]
    unfold Header.available at hinside
    simp only [got, wanted, channels, blockAlign, h.fixed, h.remaining, Header.available]
    cases header.dataBytes with
    | none =>
        dsimp only [Option.map_none]
        omega
    | some stated =>
        dsimp only [Option.map_some] at hinside ⊢
        omega
  obtain ⟨hbytes, hrest⟩ := h.source.fill (w.wanted capacity)
  rw [List.take_eq_take_iff.mpr hsame.1] at hbytes
  rw [List.drop_eq_drop_iff.mpr hsame.1, List.drop_drop] at hrest
  exact ⟨hbytes, hrest, List.length_take_of_le hsame.2⟩

omit [Source ρ] in
/-- Decoding keeps to the whole frames among the bytes. -/
theorem decode_eq (hfixed : w.header = header) (hs : header.format.Sound) (bytes : List UInt8) :
    w.decode bytes = header.format.encoding.samples
      (bytes.take (bytes.length / header.format.blockAlign * header.format.blockAlign)) := by
  have hwidth : header.format.blockAlign / header.format.channels
      = header.format.encoding.width := by
    rw [hs.blockAlign]
    exact Nat.mul_div_cancel _ hs.channels_pos
  simp only [Reader.decode, blockAlign, channels, hfixed, hwidth]
  rfl

omit [Source ρ] in
/-- Decoding gets the samples of the whole frames, so many for each
channel. -/
theorem length_decode (hfixed : w.header = header) (hs : header.format.Sound)
    (bytes : List UInt8) :
    (w.decode bytes).length = bytes.length / header.format.blockAlign * header.format.channels := by
  rw [decode_eq hfixed hs]
  exact hs.length_samples (List.length_take_of_le (Nat.div_mul_le_self _ _))

/-- A call gets the next frames, as many as it wants or as are left. -/
theorem Stands.next (h : Stands header body taken w) (hs : header.format.Sound)
    (capacity : Nat) :
    let before := taken / header.format.blockAlign
    let n := min (capacity / header.format.channels) (header.wholeFrames body - before)
    let x := w.next capacity
    x.outcome = .ok (header.decoded body before n) ∧
      ∃ taken', Stands header body taken' x.source ∧
        taken' / header.format.blockAlign = before + n := by
  obtain ⟨hbytes, hrest, hlen⟩ := h.fill capacity
  obtain ⟨hframes, hbefore, hplace⟩ :=
    frames_of_bytes hs.blockAlign_pos h.inside h.place (capacity / header.format.channels)
  have hgot := Nat.min_le_right (capacity / header.format.channels * header.format.blockAlign)
    (header.available body - taken)
  generalize min (capacity / header.format.channels * header.format.blockAlign)
    (header.available body - taken) = got at hbytes hrest hlen hframes hbefore hplace hgot
  have hinside := h.inside
  intro before n x
  have hn : got / header.format.blockAlign = n := hframes
  have hx : x = ⟨.ok (w.decode ((body.drop taken).take got)),
      (Source.fill w.source (w.wanted capacity)).log,
      { w with
        source := (Source.fill w.source (w.wanted capacity)).source
        remaining := w.remaining.map (· - ((body.drop taken).take got).length) }⟩ := by
    show w.next capacity = _
    rw [Reader.next, hbytes]
  rw [hx, hlen]
  refine ⟨?_, taken + got, ⟨h.fixed, hrest, ?_, by omega, hplace⟩, by rw [hbefore, hn]⟩
  · show Except.ok (w.decode _) = _
    -- Between two frames the place is known, and at the end nothing is taken.
    have hstart : (body.drop taken).take (n * header.format.blockAlign)
        = (body.drop (before * header.format.blockAlign)).take
          (n * header.format.blockAlign) := by
      rcases h.place with hwhole | hend
      · rw [show before * header.format.blockAlign = taken from
          Nat.div_mul_cancel (Nat.dvd_of_mod_eq_zero hwhole)]
      · have hzero : got = 0 := by omega
        rw [← hn, hzero, Nat.zero_div, Nat.zero_mul, List.take_zero, List.take_zero]
    have hle : n * header.format.blockAlign ≤ got := hn ▸ Nat.div_mul_le_self _ _
    rw [decode_eq h.fixed hs, hlen, hn, List.take_take, Nat.min_eq_left hle, hstart]
    rfl
  · show w.remaining.map _ = _
    rw [h.remaining, Option.map_map]
    congr 1
    funext stated
    show stated - taken - got = stated - (taken + got)
    omega

/-- Reading into a buffer writes the next frames over its front. -/
theorem Stands.readInto (h : Stands header body taken w) (hs : header.format.Sound)
    (buffer : List Sample) :
    let before := taken / header.format.blockAlign
    let n := min (buffer.length / header.format.channels) (header.wholeFrames body - before)
    let x := w.readInto buffer
    x.outcome = .ok (n, header.decoded body before n
        ++ buffer.drop (n * header.format.channels)) ∧
      ∃ taken', Stands header body taken' x.source ∧
        taken' / header.format.blockAlign = before + n := by
  obtain ⟨hsamples, taken', hstands, hbefore⟩ := h.next hs buffer.length
  intro before n x
  refine ⟨?_, taken', hstands, hbefore⟩
  have hle : before ≤ header.wholeFrames body := Nat.div_le_div_right h.inside
  have hlen : (header.decoded body before n).length = n * header.format.channels :=
    Header.length_decoded hs (by omega)
  have hchannels : w.channels = header.format.channels := by rw [channels, h.fixed]
  show (w.next buffer.length).outcome.map _ = _
  rw [hsamples]
  show Except.ok ((header.decoded body before n).length / w.channels,
    header.decoded body before n ++ buffer.drop (header.decoded body before n).length) = _
  rw [hlen, hchannels, Nat.mul_div_cancel _ hs.channels_pos]

/-! ### Many calls -/

/-- Reads into some buffers, one after the other, until it fails. The
answer of a call is its frames and the buffer afterwards. -/
def readBuffers (w : Reader ρ) :
    List (List Sample) → Reading StreamError (Reader ρ) (List (Nat × List Sample))
  | [] => ⟨.ok [], [], w⟩
  | buffer :: buffers =>
      (w.readInto buffer).andThen fun first w => (w.readBuffers buffers).map (first :: ·)

/-- Behind a call that went well come the others. -/
theorem readBuffers_cons {buffer : List Sample} {first : Nat × List Sample}
    (h : (w.readInto buffer).outcome = .ok first) (buffers : List (List Sample)) :
    w.readBuffers (buffer :: buffers)
      = (((w.readInto buffer).source.readBuffers buffers).map (first :: ·)).after
        (w.readInto buffer).log := by
  rw [readBuffers, Reading.andThen, h]

/-- The frames of some answers. -/
def returned (answers : List (Nat × List Sample)) : Nat :=
  (answers.map Prod.fst).foldr (· + ·) 0

/-- The samples of some answers, without what was in the buffers before. -/
def received (channels : Nat) (answers : List (Nat × List Sample)) : List Sample :=
  answers.flatMap fun answer => answer.2.take (answer.1 * channels)

/-- The answers of calls with some buffers, when `before` frames were
returned by then. -/
structure Answered (header : Header) (body : List UInt8) (before : Nat)
    (buffers : List (List Sample)) (answers : List (Nat × List Sample)) : Prop where
  length : answers.length = buffers.length
  /-- A call answers the frames that fit its buffer, or those left. -/
  frames : ∀ (i n : Nat) (buffer out : List Sample), buffers[i]? = some buffer →
    answers[i]? = some (n, out) → n = min (buffer.length / header.format.channels)
      (header.wholeFrames body - (before + returned (answers.take i)))
  /-- What the frames do not reach keeps its value. -/
  untouched : ∀ (i n : Nat) (buffer out : List Sample), buffers[i]? = some buffer →
    answers[i]? = some (n, out) → out.length = buffer.length ∧
      out.drop (n * header.format.channels) = buffer.drop (n * header.format.channels)
  received : received header.format.channels answers
    = header.decoded body before (returned answers)
  /-- No more frames are answered than are left. -/
  within : before + returned answers ≤ header.wholeFrames body

theorem Answered.nil {before : Nat} (hle : before ≤ header.wholeFrames body) :
    Answered header body before [] [] where
  length := rfl
  frames := nofun
  untouched := nofun
  received := by
    show [] = header.decoded body before 0
    rw [Header.decoded, Nat.zero_mul, List.take_zero, Encoding.samples_nil]
  within := hle

/-- One more call in front. -/
theorem Answered.cons (hs : header.format.Sound) {before n : Nat} {buffer : List Sample}
    {buffers : List (List Sample)} {answers : List (Nat × List Sample)}
    (hn : n = min (buffer.length / header.format.channels) (header.wholeFrames body - before))
    (hle : before ≤ header.wholeFrames body)
    (h : Answered header body (before + n) buffers answers) :
    Answered header body before (buffer :: buffers)
      ((n, header.decoded body before n ++ buffer.drop (n * header.format.channels))
        :: answers) := by
  have hlen : (header.decoded body before n).length = n * header.format.channels :=
    Header.length_decoded hs (by omega)
  have hsum : returned ((n, header.decoded body before n
      ++ buffer.drop (n * header.format.channels)) :: answers) = n + returned answers := rfl
  constructor
  case length => rw [List.length_cons, List.length_cons, h.length]
  case frames =>
    intro i m buffer' out hbuffer hanswer
    cases i with
    | zero =>
        cases hbuffer
        cases hanswer
        exact hn
    | succ i =>
        rw [h.frames i m buffer' out hbuffer hanswer, Nat.add_assoc]
        rfl
  case untouched =>
    intro i m buffer' out hbuffer hanswer
    cases i with
    | zero =>
        cases hbuffer
        cases hanswer
        have hroom : n * header.format.channels ≤ buffer.length :=
          (Nat.le_div_iff_mul_le hs.channels_pos).mp (by omega)
        constructor
        · rw [List.length_append, hlen, List.length_drop]
          omega
        · rw [List.drop_left' hlen]
    | succ i => exact h.untouched i m buffer' out hbuffer hanswer
  case received =>
    rw [hsum, Header.decoded_add hs (by omega), ← h.received, Reader.received,
      List.flatMap_cons]
    dsimp only
    rw [List.take_left' hlen]
    rfl
  case within =>
    rw [hsum, ← Nat.add_assoc]
    exact h.within

/-- From any place, calls are answered with the frames from there on. -/
theorem Stands.readBuffers (h : Stands header body taken w) (hs : header.format.Sound)
    (buffers : List (List Sample)) :
    let x := w.readBuffers buffers
    ∃ answers, x.outcome = .ok answers ∧
      Answered header body (taken / header.format.blockAlign) buffers answers ∧
      ∃ taken', Stands header body taken' x.source := by
  induction buffers generalizing taken w with
  | nil => exact ⟨[], rfl, .nil (Nat.div_le_div_right h.inside), taken, h⟩
  | cons buffer buffers ih =>
      obtain ⟨hok, taken', hstands, hreturned⟩ := h.readInto hs buffer
      obtain ⟨answers, hanswers, hanswered, hend⟩ := ih hstands
      rw [hreturned] at hanswered
      have hmore := Answered.cons hs rfl (Nat.div_le_div_right h.inside) hanswered
      rw [readBuffers_cons hok]
      refine ⟨_, ?_, hmore, hend⟩
      rw [Reading.outcome_after, Reading.outcome_map, hanswers]
      rfl

/-! ### Whole files -/

/-- The samples of a file do not depend on how it is read. Every call
answers the frames that fit its buffer, or those left, and keeps the rest
of the buffer. All calls together get the samples of the whole frames in
order, and no byte behind the data is taken. -/
theorem stream_decoded {r : ρ} (hread : (readHeader r).outcome = .ok header)
    (hbody : Source.Delivers (readHeader r).source body) (buffers : List (List Sample)) :
    let x := (ofHeader header (readHeader r).source).readBuffers buffers
    let channels := header.format.channels
    ∃ answers, x.outcome = .ok answers ∧ answers.length = buffers.length ∧
      (∀ (i n : Nat) (buffer out : List Sample), buffers[i]? = some buffer →
        answers[i]? = some (n, out) →
        n = min (buffer.length / channels)
          (header.wholeFrames body - returned (answers.take i)) ∧
        out.length = buffer.length ∧ out.drop (n * channels) = buffer.drop (n * channels)) ∧
      received channels answers = header.format.encoding.samples
        (body.take (returned answers * header.format.blockAlign)) ∧
      returned answers ≤ header.wholeFrames body ∧
      (∀ stated, header.frames = some stated → returned answers ≤ stated.toNat) ∧
      ∃ taken ≤ header.available body, Source.Delivers x.source.source (body.drop taken) := by
  have hs := readHeader_sound hread
  have hstart : Stands header body 0 (ofHeader header (readHeader r).source) := by
    refine ⟨rfl, hbody, ?_, Nat.zero_le _, .inl (Nat.zero_mod _)⟩
    show header.dataBytes = header.dataBytes.map (· - 0)
    cases header.dataBytes <;> rfl
  obtain ⟨answers, hok, hanswered, taken, hstands⟩ := hstart.readBuffers hs.format buffers
  rw [Nat.zero_div] at hanswered
  have hwithin := hanswered.within
  rw [Nat.zero_add] at hwithin
  intro x channels
  refine ⟨answers, hok, hanswered.length, ?_, ?_, hwithin, ?_, taken, hstands.inside,
    hstands.source⟩
  · intro i n buffer out hbuffer hanswer
    have hn := hanswered.frames i n buffer out hbuffer hanswer
    rw [Nat.zero_add] at hn
    exact ⟨hn, hanswered.untouched i n buffer out hbuffer hanswer⟩
  · rw [hanswered.received, Header.decoded, Nat.zero_mul, List.drop_zero]
  · intro stated hstated
    exact Nat.le_trans hwithin (Header.wholeFrames_le hs body hstated)

open Rehearsal in
/-- A file that states nine bytes of data, two frames and one byte, and
holds twelve. Its samples are a half, minus one, the smallest step of 16 bits
and twice that step. The source is interrupted in the data and delivers them
in short pieces. -/
theorem stream_decoded_scripted :
    let head : List UInt8 := chunkName "RIFF" ++ [48, 0, 0, 0] ++ chunkName "WAVE"
      ++ chunkName "fmt " ++ [16, 0, 0, 0]
      ++ [1, 0, 2, 0, 0x40, 0x1F, 0, 0, 0, 0x7D, 0, 0, 4, 0, 16, 0]
      ++ chunkName "data" ++ [9, 0, 0, 0]
    let body : List UInt8 := [0, 0x40, 0, 0x80, 1, 0, 2, 0, 9, 9, 9, 9]
    let r : ScriptedSource :=
      ⟨head ++ body, [.deliver 1 none, .interrupt] ++ List.replicate 13 (.deliver 4 none)
        ++ [.deliver 3 none, .interrupt, .deliver 3 none], true, 0⟩
    let header : Header := ⟨⟨.s16, 2, 8000, 4, 3⟩, some 9⟩
    let buffers : List (List Sample) := [List.replicate 3 ⟨7⟩, List.replicate 5 ⟨7⟩, [⟨7⟩, ⟨7⟩]]
    (readHeader r).outcome = .ok header ∧
      ∃ answers, ((ofHeader header (readHeader r).source).readBuffers buffers).outcome
          = .ok answers ∧
        answers.map Prod.fst = [1, 1, 0] ∧
        received 2 answers = [⟨0x3F000000⟩, ⟨0xBF800000⟩, ⟨0x38000000⟩, ⟨0x38800000⟩] ∧
        ∃ taken ≤ 9, Source.Delivers
          ((ofHeader header (readHeader r).source).readBuffers buffers).source.source
          (body.drop taken) := by
  intro head body r header buffers
  have hread : (readHeader r).outcome = .ok header := by decide +kernel
  have hbody : Source.Delivers (readHeader r).source body := by
    have hleft : (readHeader r).source.left = body := by decide +kernel
    rw [← hleft]
    exact ScriptedSource.delivers (by decide +kernel)
  obtain ⟨answers, hok, -, -, hreceived, -, -, taken, htaken, hrest⟩ :=
    stream_decoded hread hbody buffers
  have hcounts : ((ofHeader header (readHeader r).source).readBuffers buffers).outcome.map
      (·.map Prod.fst) = .ok [1, 1, 0] := by decide +kernel
  rw [hok] at hcounts
  have hcounts : answers.map Prod.fst = [1, 1, 0] := Except.ok.inj hcounts
  refine ⟨hread, answers, hok, hcounts, ?_, taken, htaken, hrest⟩
  rw [returned, hcounts] at hreceived
  exact hreceived.trans (by decide +kernel)

end Reader

end Packetizer.Wave

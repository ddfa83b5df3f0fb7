import Packetizer.Proofs.Stream.Reading
import Packetizer.Wave.Header

/-!
# `Packetizer.Proofs.Wave.Header`: what a header that was read is good for

A header is only answered when its format has channels and its frames
are one stored sample for each of them (`Format.Sound`), and a stated
size of the data is the number in a field of four bytes. Nothing is said
about the bytes of the file: `readHeader_sound` holds of every header
that reading answers, from any source.

All that a header does to its source is to read from it, also when it is
refused (`later_readHeader`). So what is true of a source after any reads
is true where the data begin.
-/

set_option autoImplicit false

namespace Packetizer

/-- Some bytes are a number below the least that needs one more. -/
theorem littleEndian_lt (bs : List UInt8) : littleEndian bs < 1 <<< (8 * bs.length) := by
  induction bs with
  | nil => decide
  | cons b bs ih =>
      have hb := b.toNat_lt
      have hmore : 1 <<< (8 * (b :: bs).length) = 256 * (1 <<< (8 * bs.length)) := by
        rw [List.length_cons, Nat.mul_succ, Nat.shiftLeft_add, Nat.shiftLeft_eq _ 8, Nat.mul_comm]
      show b.toNat + 256 * littleEndian bs < _
      omega

namespace Wave

/-- The width of an encoding is the one that it was looked up by. -/
theorem Encoding.width_of_ofTag? {tag width : Nat} {encoding : Encoding}
    (h : ofTag? tag width = some encoding) : encoding.width = width := by
  unfold ofTag? at h
  split at h <;> cases h <;> rfl

theorem Encoding.width_pos (encoding : Encoding) : 0 < encoding.width := by
  cases encoding <;> decide

/-- A frame is a stored sample for each channel, and there is one. -/
structure Format.Sound (f : Format) : Prop where
  channels_pos : 0 < f.channels
  blockAlign : f.blockAlign = f.encoding.width * f.channels

theorem Format.Sound.blockAlign_pos {f : Format} (h : f.Sound) : 0 < f.blockAlign := by
  rw [h.blockAlign]
  exact Nat.mul_pos f.encoding.width_pos h.channels_pos

/-- The format of a header is sound, and a stated size fits a field. -/
structure Header.Sound (h : Header) : Prop where
  format : h.format.Sound
  stated : ∀ bytes ∈ h.dataBytes, bytes < 1 <<< 32

variable {ρ : Type} [Source ρ]

/-- A field is a number of its width. -/
theorem field_lt {r : ρ} {width n : Nat} (h : (field r width).outcome = .ok n) :
    n < 1 <<< (8 * width) := by
  have hword : (Source.word r width).outcome = .ok n := Reading.ok_of_mapError h
  obtain ⟨bs, hexact, rfl⟩ := Reading.ok_of_map hword
  obtain ⟨-, hlen⟩ := (Source.exactly_eq r width).2 bs hexact
  rw [← hlen]
  exact littleEndian_lt bs

/-- A format that is answered is sound. -/
theorem readFormat_sound {r : ρ} {size : Nat} {format : Format}
    (h : (readFormat r size).outcome = .ok format) : format.Sound := by
  unfold readFormat at h
  split at h
  · cases h
  obtain ⟨tag, -, h⟩ := Reading.ok_of_andThen h
  obtain ⟨channels, -, h⟩ := Reading.ok_of_andThen h
  obtain ⟨rate, -, h⟩ := Reading.ok_of_andThen h
  obtain ⟨-, -, h⟩ := Reading.ok_of_andThen h
  obtain ⟨blockAlign, -, h⟩ := Reading.ok_of_andThen h
  obtain ⟨bits, -, h⟩ := Reading.ok_of_andThen h
  split at h
  · cases h
  next hchannels =>
  split at h
  · cases h
  split at h
  · cases h
  next halign =>
  obtain ⟨⟨tag', speakers, rest⟩, -, h⟩ := Reading.ok_of_andThen h
  obtain ⟨-, -, h⟩ := Reading.ok_of_andThen h
  split at h
  · next encoding hencoding =>
    cases h
    have hwidth := Encoding.width_of_ofTag? hencoding
    refine ⟨Nat.pos_of_ne_zero hchannels, ?_⟩
    show blockAlign = encoding.width * channels
    rw [hwidth]
    exact (Nat.div_mul_cancel (Nat.dvd_of_mod_eq_zero (by omega))).symm
  · cases h

/-- A chunk in front of the data leaves a sound format known. -/
theorem readBody_sound {r : ρ} {known known' : Option Format} {name : List UInt8} {size : Nat}
    (h : (readBody r known name size).outcome = .ok known') (hknown : ∀ f ∈ known, f.Sound) :
    ∀ f ∈ known', f.Sound := by
  unfold readBody at h
  split at h
  · obtain ⟨format, hformat, rfl⟩ := Reading.ok_of_map h
    intro f hf
    cases hf
    exact readFormat_sound hformat
  · obtain ⟨-, -, rfl⟩ := Reading.ok_of_map h
    exact hknown

/-- The size of a chunk fits a field. -/
theorem readChunkHead_lt {r : ρ} {name : List UInt8} {size : Nat}
    (h : (readChunkHead r).outcome = .ok (name, size)) : size < 1 <<< 32 := by
  unfold readChunkHead at h
  obtain ⟨name', -, h⟩ := Reading.ok_of_andThen h
  obtain ⟨size', hsize, h⟩ := Reading.ok_of_andThen h
  cases h
  exact field_lt hsize

theorem headerOf_sound {format : Format} {size : Nat} (hformat : format.Sound)
    (hsize : size < 1 <<< 32) : (headerOf format size).Sound := by
  refine ⟨hformat, fun bytes hbytes => ?_⟩
  unfold headerOf at hbytes
  dsimp only at hbytes
  split at hbytes
  · cases hbytes
  · cases hbytes
    exact hsize

/-- The chunks up to the data leave a sound header. -/
theorem readChunks_sound {r : ρ} {known : Option Format} {header : Header}
    (h : (readChunks r known).outcome = .ok header) (hknown : ∀ f ∈ known, f.Sound) :
    header.Sound := by
  fun_induction readChunks r known with
  | case1 => cases h
  | case2 => cases h
  | case3 r size log body format made hhead =>
      have hmade : made = header := Except.ok.inj h
      rw [← hmade]
      exact headerOf_sound (hknown format rfl) (readChunkHead_lt (by rw [hhead]))
  | case4 => cases h
  | case5 r known name size log body hhead hname format more rest hbody ih =>
      exact ih h (readBody_sound (by rw [hbody]) hknown)

/-- A header that is answered is sound. -/
theorem readHeader_sound {r : ρ} {header : Header}
    (h : (readHeader r).outcome = .ok header) : header.Sound := by
  unfold readHeader at h
  obtain ⟨riff, -, h⟩ := Reading.ok_of_andThen h
  split at h
  · cases h
  obtain ⟨-, -, h⟩ := Reading.ok_of_andThen h
  obtain ⟨wave, -, h⟩ := Reading.ok_of_andThen h
  split at h
  · cases h
  exact readChunks_sound h nofun

/-! ### Where the source is left -/

open Source (Later)

theorem later_field (r : ρ) (width : Nat) : Later r (field r width).source :=
  Source.later_exactly r width

theorem later_nameField (r : ρ) : Later r (nameField r).source := Source.later_exactly r 4

theorem later_dropBytes (r : ρ) (n : Nat) : Later r (dropBytes r n).source := Source.later_skip r n

theorem later_readExtension (r : ρ) (tag channels rest : Nat) :
    Later r (readExtension r tag channels rest).source := by
  unfold readExtension
  split
  · refine Reading.later_andThen (later_field r 4) fun _ r => ?_
    refine Reading.later_andThen (later_field r 4) fun _ r => ?_
    exact Reading.later_andThen (later_field r 2) fun _ r => .refl r
  · exact .refl r

theorem later_readFormat (r : ρ) (size : Nat) : Later r (readFormat r size).source := by
  unfold readFormat
  split
  · exact .refl r
  refine Reading.later_andThen (later_field r 2) fun _ r => ?_
  refine Reading.later_andThen (later_field r 2) fun _ r => ?_
  refine Reading.later_andThen (later_field r 4) fun _ r => ?_
  refine Reading.later_andThen (later_field r 4) fun _ r => ?_
  refine Reading.later_andThen (later_field r 2) fun _ r => ?_
  refine Reading.later_andThen (later_field r 2) fun _ r => ?_
  split
  · exact .refl r
  split
  · exact .refl r
  split
  · exact .refl r
  refine Reading.later_andThen (later_readExtension r _ _ _) fun _ r => ?_
  refine Reading.later_andThen (later_dropBytes r _) fun _ r => ?_
  split <;> exact .refl r

theorem later_readBody (r : ρ) (known : Option Format) (name : List UInt8) (size : Nat) :
    Later r (readBody r known name size).source := by
  unfold readBody
  split
  · exact later_readFormat r size
  · exact later_dropBytes r _

theorem later_readChunkHead (r : ρ) : Later r (readChunkHead r).source := by
  refine Reading.later_andThen (later_nameField r) fun _ r => ?_
  exact Reading.later_andThen (later_field r 4) fun _ r => .refl r

/-- The chunks are read one after the other, and the last of them may be
one that is refused. -/
theorem later_readChunks (r : ρ) (known : Option Format) :
    Later r (readChunks r known).source := by
  fun_induction readChunks r known with
  | case1 r _ error log rest hhead => exact congrArg Reading.source hhead ▸ later_readChunkHead r
  | case2 r size log body hhead => exact congrArg Reading.source hhead ▸ later_readChunkHead r
  | case3 r size log body format header hhead =>
      exact congrArg Reading.source hhead ▸ later_readChunkHead r
  | case4 r known name size log body hhead hname error more rest hbody =>
      have hfront := congrArg Reading.source hhead ▸ later_readChunkHead r
      exact hfront.trans (congrArg Reading.source hbody ▸ later_readBody body known name size)
  | case5 r known name size log body hhead hname format more rest hbody ih =>
      have hfront := congrArg Reading.source hhead ▸ later_readChunkHead r
      have hmore := congrArg Reading.source hbody ▸ later_readBody body known name size
      exact (hfront.trans hmore).trans ih

/-- A header is read and nothing else is done to the source. -/
theorem later_readHeader (r : ρ) : Later r (readHeader r).source := by
  refine Reading.later_andThen (later_nameField r) fun _ r => ?_
  split
  · exact .refl r
  refine Reading.later_andThen (later_field r 4) fun _ r => ?_
  refine Reading.later_andThen (later_nameField r) fun _ r => ?_
  split
  · exact .refl r
  · exact later_readChunks r none

end Wave

end Packetizer

import Packetizer.Proofs.Rehearsal.Devices
import Packetizer.Proofs.Stream.Reading
import Packetizer.Proofs.Wave.Header

/-!
# `Packetizer.Proofs.Wave.File`: files as they are written

A file is a list of chunks in front of the data (`file`). What a `fmt `
chunk says is read off fixed places of its body (`Chunk.Describes`), with
no reader involved: the true tag and the speakers stand in the extension
when there is one.

Reading a header undoes that, for every list of chunks and every source
(`readHeader_gives`). The induction is on the chunks, in `readChunks_gives`.
It keeps what the last `fmt ` chunk so far described, and every chunk is
taken off the front with its padding, so that the next one begins where
it should.
-/

set_option autoImplicit false

namespace Packetizer

/-- A number in so many bytes, the low one first. -/
def littleEndianBytes : Nat → Nat → List UInt8
  | 0, _ => []
  | width + 1, n => UInt8.ofNat n :: littleEndianBytes width (n / 256)

@[simp] theorem length_littleEndianBytes (width n : Nat) :
    (littleEndianBytes width n).length = width := by
  induction width generalizing n with
  | zero => rfl
  | succ width ih => rw [littleEndianBytes, List.length_cons, ih]

/-- A number that fits is read back. -/
theorem littleEndian_littleEndianBytes {width n : Nat} (h : n < 1 <<< (8 * width)) :
    littleEndian (littleEndianBytes width n) = n := by
  induction width generalizing n with
  | zero =>
      have hzero : n = 0 := Nat.lt_one_iff.mp h
      rw [hzero]
      rfl
  | succ width ih =>
      rw [Nat.mul_succ, Nat.shiftLeft_add, Nat.shiftLeft_eq _ 8] at h
      have hrest : n / 256 < 1 <<< (8 * width) := Nat.div_lt_of_lt_mul (Nat.mul_comm _ _ ▸ h)
      rw [littleEndianBytes, littleEndian, ih hrest, UInt8.toNat_ofNat']
      exact Nat.mod_add_div n 256

namespace Wave

/-! ### Chunks -/

/-- A chunk: four characters, a body whose size fits a field, and the byte
that fills up a body of odd size. -/
structure Chunk where
  name : List UInt8
  body : List UInt8
  padding : List UInt8
  length_name : name.length = 4
  length_body : body.length < 1 <<< 32
  length_padding : padding.length = body.length % 2

namespace Chunk

/-- A chunk as it stands in a file. -/
def bytes (c : Chunk) : List UInt8 :=
  c.name ++ littleEndianBytes 4 c.body.length ++ c.body ++ c.padding

/-- Whether the chunk holds a format. -/
def isFormat (c : Chunk) : Bool := c.name = chunkName "fmt "

/-- The number in `width` bytes of the body. -/
def field (c : Chunk) (start width : Nat) : Nat :=
  littleEndian ((c.body.drop start).take width)

/-- The channels of a `fmt ` chunk. -/
def channels (c : Chunk) : Nat := c.field 2 2

/-- The sample rate of a `fmt ` chunk. -/
def rate (c : Chunk) : Nat := c.field 4 4

/-- The bytes of a frame of a `fmt ` chunk. -/
def blockAlign (c : Chunk) : Nat := c.field 12 2

/-- Whether the tag refers to an extension and ten bytes of it are there. -/
def isExtended (c : Chunk) : Bool := c.field 0 2 = extensibleTag ∧ 26 ≤ c.body.length

/-- The effective format tag. -/
def tag (c : Chunk) : Nat := if c.isExtended then c.field 24 2 else c.field 0 2

/-- The speakers: those of the extension, unless there is none or it names
none. -/
def speakers (c : Chunk) : Nat :=
  if c.isExtended ∧ c.field 20 4 ≠ 0 then c.field 20 4 else defaultSpeakers c.channels

end Chunk

/-- The format tag of an encoding: one for integers, three for floating
point numbers. -/
def Encoding.tag : Encoding → Nat
  | u8 => 1
  | s16 => 1
  | s24 => 1
  | s32 => 1
  | f32 => 3
  | f64 => 3

namespace Chunk

/-- A `fmt ` chunk that can be used: long enough, with channels, a rate and
frames that are the same number of bytes for each channel, as many as
samples of the effective tag can have. -/
structure IsValid (c : Chunk) : Prop where
  long : 16 ≤ c.body.length
  channels_pos : 0 < c.channels
  rate_pos : 0 < c.rate
  blockAlign_pos : 0 < c.blockAlign
  whole : c.blockAlign % c.channels = 0
  known : (c.tag = 1 ∧ c.blockAlign / c.channels ∈ [1, 2, 3, 4]) ∨
    (c.tag = 3 ∧ c.blockAlign / c.channels ∈ [4, 8])

/-- The chunk says this of the format. -/
structure Describes (c : Chunk) (f : Format) : Prop where
  channels : f.channels = c.channels
  rate : f.rate = c.rate
  blockAlign : f.blockAlign = c.blockAlign
  tag : f.encoding.tag = c.tag
  width : f.encoding.width = c.blockAlign / c.channels
  speakers : f.speakers = c.speakers

/-- The encoding of a tag and a width. -/
theorem ofTag?_eq (e : Encoding) : Encoding.ofTag? e.tag e.width = some e := by
  cases e <;> rfl

/-- A chunk that can be used describes one format. -/
theorem IsValid.describes {c : Chunk} (h : c.IsValid) : ∃ f, c.Describes f := by
  have hencoding : ∃ e : Encoding, e.tag = c.tag ∧ e.width = c.blockAlign / c.channels := by
    rcases h.known with ⟨htag, hwidth⟩ | ⟨htag, hwidth⟩
    all_goals
      rw [htag]
      simp only [List.mem_cons, List.not_mem_nil, or_false] at hwidth
    · rcases hwidth with hw | hw | hw | hw <;> rw [hw]
      · exact ⟨.u8, rfl, rfl⟩
      · exact ⟨.s16, rfl, rfl⟩
      · exact ⟨.s24, rfl, rfl⟩
      · exact ⟨.s32, rfl, rfl⟩
    · rcases hwidth with hw | hw <;> rw [hw]
      · exact ⟨.f32, rfl, rfl⟩
      · exact ⟨.f64, rfl, rfl⟩
  obtain ⟨e, htag, hwidth⟩ := hencoding
  exact ⟨⟨e, c.channels, c.rate, c.blockAlign, c.speakers⟩, rfl, rfl, rfl, htag, hwidth, rfl⟩

end Chunk

/-! ### Reading chunks back -/

variable {ρ : Type} [Source ρ] {r : ρ} {c : Chunk} {back : List UInt8}

/-- A field of the body is read where the ones before it end. -/
theorem field_gives (start width : Nat) (hr : Source.Delivers r (c.body.drop start ++ back))
    (hfit : start + width ≤ c.body.length) :
    (field r width).Gives (c.field start width) (c.body.drop (start + width) ++ back) := by
  have hlen : ((c.body.drop start).take width).length = width := by
    rw [List.length_take, List.length_drop]
    omega
  rw [← List.take_append_drop width (c.body.drop start), List.append_assoc, List.drop_drop] at hr
  have hword := hr.word.mapError Error.stream
  rw [hlen] at hword
  exact hword

/-- The extension gives the effective tag and the speakers. What is left
behind it is left of the chunk. -/
theorem readExtension_gives (hlong : 16 ≤ c.body.length)
    (hr : Source.Delivers r (c.body.drop 16 ++ back)) :
    ∃ start, 16 ≤ start ∧ start ≤ c.body.length ∧
      (readExtension r (c.field 0 2) c.channels (c.body.length - 16)).Gives
        (c.tag, c.speakers, c.body.length - start) (c.body.drop start ++ back) := by
  have hextended : (c.field 0 2 = extensibleTag ∧ extensionBytes ≤ c.body.length - 16)
      ↔ c.isExtended = true := by
    rw [Chunk.isExtended, decide_eq_true_eq]
    show (_ ∧ 10 ≤ _) ↔ _
    omega
  unfold readExtension Chunk.tag Chunk.speakers
  split
  next h =>
    have hten : 26 ≤ c.body.length := by
      have : 10 ≤ c.body.length - 16 := h.2
      omega
    refine ⟨26, by omega, hten, ?_⟩
    refine (field_gives 16 4 hr (by omega)).andThen fun r hr => ?_
    refine (field_gives 20 4 hr (by omega)).andThen fun r hr => ?_
    refine (field_gives 24 2 hr (by omega)).andThen fun r hr => ⟨?_, hr⟩
    have hrest : c.body.length - 16 - extensionBytes = c.body.length - 26 := by
      show _ - 10 = _
      omega
    rw [if_pos (hextended.mp h), hrest]
    by_cases hmask : c.field 20 4 = 0
    · rw [if_pos hmask, if_neg fun hboth => hboth.2 hmask]
      rfl
    · rw [if_neg hmask, if_pos ⟨hextended.mp h, hmask⟩]
      rfl
  next h =>
    have hplain : ¬ c.isExtended = true := fun hext => h (hextended.mpr hext)
    refine ⟨16, Nat.le_refl _, hlong, ⟨?_, hr⟩⟩
    rw [if_neg hplain, if_neg fun hboth => hplain hboth.1]
    rfl

/-- The body of a `fmt ` chunk gives the format that it describes, and is
read with its padding. -/
theorem readFormat_gives {f : Format} (hvalid : c.IsValid) (hf : c.Describes f)
    (hr : Source.Delivers r (c.body ++ c.padding ++ back)) :
    (readFormat r c.body.length).Gives f back := by
  have hlong := hvalid.long
  have hchannels := hvalid.channels_pos
  have hrate := hvalid.rate_pos
  have halign := hvalid.blockAlign_pos
  have hwhole := hvalid.whole
  rw [List.append_assoc] at hr
  rw [readFormat, if_neg (by omega)]
  refine (field_gives 0 2 hr (by omega)).andThen fun r hr => ?_
  refine (field_gives 2 2 hr (by omega)).andThen fun r hr => ?_
  refine (field_gives 4 4 hr (by omega)).andThen fun r hr => ?_
  refine (field_gives 8 4 hr (by omega)).andThen fun r hr => ?_
  refine (field_gives 12 2 hr (by omega)).andThen fun r hr => ?_
  refine (field_gives 14 2 hr (by omega)).andThen fun r hr => ?_
  change Source.Delivers r (c.body.drop 16 ++ (c.padding ++ back)) at hr
  change Reading.Gives (if c.channels = 0 then _ else if c.rate = 0 then _ else
    if c.blockAlign = 0 ∨ c.blockAlign % c.channels ≠ 0 then _ else _) _ _
  rw [if_neg (by omega), if_neg (by omega), if_neg (by omega)]
  obtain ⟨start, hstart, hfit, hextension⟩ := readExtension_gives hlong hr
  refine hextension.andThen fun r hr => ?_
  -- What is left of the chunk is dropped with the padding.
  have hdropped : (c.body.drop start ++ c.padding).length
      = c.body.length - start + c.body.length % 2 := by
    rw [List.length_append, List.length_drop, c.length_padding]
  rw [← List.append_assoc] at hr
  have hskip := hr.skip
  rw [hdropped] at hskip
  have hdrop : (dropBytes r (c.body.length - start + c.body.length % 2)).Gives () back :=
    Reading.Gives.mapError ⟨hskip.1, hskip.2⟩ Error.stream
  refine hdrop.andThen fun r hr => ?_
  obtain ⟨encoding, channels, rate, blockAlign, speakers⟩ := f
  obtain ⟨rfl, rfl, rfl, htag, hwidth, rfl⟩ := hf
  have hencoding : Encoding.ofTag? c.tag (c.field 12 2 / c.field 2 2) = some encoding := by
    show Encoding.ofTag? c.tag (c.blockAlign / c.channels) = some encoding
    rw [← htag, ← hwidth, Chunk.ofTag?_eq]
  rw [hencoding]
  exact ⟨rfl, hr⟩

/-- The head of a chunk is its name and the size of its body. -/
theorem readChunkHead_gives {name : List UInt8} {size : Nat} (hname : name.length = 4)
    (hsize : size < 1 <<< 32)
    (hr : Source.Delivers r (name ++ littleEndianBytes 4 size ++ back)) :
    (readChunkHead r).Gives (name, size) back := by
  rw [List.append_assoc] at hr
  have hexactly := hr.exactly.mapError Error.stream
  rw [hname] at hexactly
  refine hexactly.andThen fun r hr => ?_
  have hword := hr.word.mapError Error.stream
  rw [length_littleEndianBytes, littleEndian_littleEndianBytes hsize] at hword
  exact hword.andThen fun r hr => ⟨rfl, hr⟩

/-- A chunk that holds no format changes nothing. -/
theorem readBody_other (hname : c.isFormat = false) (known : Option Format)
    (hr : Source.Delivers r (c.body ++ c.padding ++ back)) :
    (readBody r known c.name c.body.length).Gives known back := by
  have hskip := hr.skip
  rw [List.length_append, c.length_padding] at hskip
  have hdrop : (dropBytes r (c.body.length + c.body.length % 2)).Gives () back :=
    Reading.Gives.mapError ⟨hskip.1, hskip.2⟩ Error.stream
  rw [readBody, if_neg (of_decide_eq_false hname)]
  exact hdrop.map fun _ => known

/-- A chunk that holds a format makes it the one that is known. -/
theorem readBody_format (hname : c.isFormat = true) {f : Format} (hvalid : c.IsValid)
    (hf : c.Describes f) (known : Option Format)
    (hr : Source.Delivers r (c.body ++ c.padding ++ back)) :
    (readBody r known c.name c.body.length).Gives (some f) back := by
  rw [readBody, if_pos (of_decide_eq_true hname)]
  exact (readFormat_gives hvalid hf hr).map some

/-- A chunk in front of the data is read and the others after it. -/
theorem readChunks_cons {known known' : Option Format} {header : Header} {left : List UInt8}
    (hname : c.name ≠ chunkName "data") (hr : Source.Delivers r (c.bytes ++ back))
    (hbody : ∀ r : ρ, Source.Delivers r (c.body ++ c.padding ++ back) →
      (readBody r known c.name c.body.length).Gives known' back)
    (hmore : ∀ r : ρ, Source.Delivers r back → (readChunks r known').Gives header left) :
    (readChunks r known).Gives header left := by
  unfold Chunk.bytes at hr
  rw [List.append_assoc, List.append_assoc, ← List.append_assoc c.body] at hr
  obtain ⟨hhead, hrest⟩ := readChunkHead_gives c.length_name c.length_body hr
  rw [readChunks]
  split
  next herr =>
    rw [herr] at hhead
    cases hhead
  next name size log body hok =>
    rw [hok] at hhead hrest
    cases hhead
    rw [if_neg hname]
    obtain ⟨houtcome, hsource⟩ := hbody body hrest
    split
    next herr =>
      rw [herr] at houtcome
      cases houtcome
    next format more rest hread =>
      rw [hread] at houtcome hsource
      cases houtcome
      exact (hmore rest hsource).after _

/-- The name and the size of the data end the header. -/
theorem readChunks_data {format : Format} {size : Nat} (hsize : size < 1 <<< 32)
    {body : List UInt8}
    (hr : Source.Delivers r (chunkName "data" ++ littleEndianBytes 4 size ++ body)) :
    (readChunks r (some format)).Gives (headerOf format size) body := by
  obtain ⟨hhead, hrest⟩ := readChunkHead_gives (by decide) hsize hr
  rw [readChunks]
  split
  next herr =>
    rw [herr] at hhead
    cases hhead
  next name size' log rest hok =>
    rw [hok] at hhead hrest
    cases hhead
    rw [if_pos rfl]
    exact ⟨rfl, hrest⟩

/-! ### Whole files -/

/-- The `fmt ` chunks among some chunks. -/
def formats (chunks : List Chunk) : List Chunk := chunks.filter Chunk.isFormat

/-- The chunks in front of the data, the name and the size of the data, and
all that comes behind. -/
def afterRiff (chunks : List Chunk) (size : Nat) (body : List UInt8) : List UInt8 :=
  chunks.flatMap Chunk.bytes ++ (chunkName "data" ++ littleEndianBytes 4 size ++ body)

/-- A file with these chunks, whose data have this size by the header.
`riff` is the size of the file by its header, which nobody looks at. -/
def file (riff : List UInt8) (chunks : List Chunk) (size : Nat) (body : List UInt8) :
    List UInt8 :=
  chunkName "RIFF" ++ (riff ++ (chunkName "WAVE" ++ afterRiff chunks size body))

/-- The chunks give the format of the last one that holds one, or else the
one known before. -/
theorem readChunks_gives {chunks : List Chunk} {known : Option Format} {format : Format}
    {size : Nat} {body : List UInt8} (hsize : size < 1 <<< 32)
    (hnames : ∀ c ∈ chunks, c.name ≠ chunkName "data")
    (hvalid : ∀ c ∈ formats chunks, c.IsValid)
    (hlast : (formats chunks = [] ∧ known = some format) ∨
      ∃ c, (formats chunks).getLast? = some c ∧ c.Describes format)
    (hr : Source.Delivers r (afterRiff chunks size body)) :
    (readChunks r known).Gives (headerOf format size) body := by
  induction chunks generalizing r known with
  | nil =>
      rcases hlast with ⟨-, rfl⟩ | ⟨c, hnone, -⟩
      · exact readChunks_data hsize hr
      · cases hnone
  | cons c chunks ih =>
      have hsplit : afterRiff (c :: chunks) size body = c.bytes ++ afterRiff chunks size body := by
        rw [afterRiff, List.flatMap_cons, List.append_assoc]
        rfl
      have hnames' : ∀ c ∈ chunks, c.name ≠ chunkName "data" :=
        fun d hd => hnames d (List.mem_cons_of_mem c hd)
      rw [hsplit] at hr
      cases hformat : c.isFormat with
      | false =>
          have hsame : formats (c :: chunks) = formats chunks :=
            List.filter_cons_of_neg (Bool.eq_false_iff.mp hformat)
          rw [hsame] at hvalid hlast
          exact readChunks_cons (hnames c List.mem_cons_self) hr
            (fun r hr => readBody_other hformat known hr)
            (fun r hr => ih hnames' hvalid hlast hr)
      | true =>
          have hmore : formats (c :: chunks) = c :: formats chunks :=
            List.filter_cons_of_pos hformat
          rw [hmore] at hvalid hlast
          have hthis := hvalid c List.mem_cons_self
          have hothers : ∀ d ∈ formats chunks, d.IsValid :=
            fun d hd => hvalid d (List.mem_cons_of_mem c hd)
          obtain ⟨last, hlast, hdescribes⟩ := hlast.resolve_left (by simp)
          -- Another format chunk may come, and then this one is forgotten.
          obtain ⟨kept, hkept, hleft⟩ : ∃ kept, c.Describes kept ∧
              ((formats chunks = [] ∧ some kept = some format) ∨
                ∃ d, (formats chunks).getLast? = some d ∧ d.Describes format) := by
            cases hrest : formats chunks with
            | nil =>
                rw [hrest] at hlast
                cases hlast
                exact ⟨format, hdescribes, .inl ⟨rfl, rfl⟩⟩
            | cons d ds =>
                rw [hrest, List.getLast?_cons_cons] at hlast
                obtain ⟨kept, hkept⟩ := hthis.describes
                exact ⟨kept, hkept, .inr ⟨last, hlast, hdescribes⟩⟩
          exact readChunks_cons (hnames c List.mem_cons_self) hr
            (fun r hr => readBody_format hformat hthis hkept known hr)
            (fun r hr => ih hnames' hothers hleft hr)

/-- A file is read up to its data, and its format is the one that the last
`fmt ` chunk describes. -/
theorem readHeader_gives {riff : List UInt8} (hriff : riff.length = 4) {chunks : List Chunk}
    {format : Format} {size : Nat} {body : List UInt8} (hsize : size < 1 <<< 32)
    (hnames : ∀ c ∈ chunks, c.name ≠ chunkName "data")
    (hvalid : ∀ c ∈ formats chunks, c.IsValid) {c : Chunk}
    (hlast : (formats chunks).getLast? = some c) (hdescribes : c.Describes format)
    (hr : Source.Delivers r (file riff chunks size body)) :
    (readHeader r).Gives (headerOf format size) body := by
  have hname : (nameField r).Gives (chunkName "RIFF") _ := hr.exactly.mapError Error.stream
  refine hname.andThen fun r hr => ?_
  rw [if_neg (not_not_intro rfl)]
  have hword := hr.word.mapError Error.stream
  rw [hriff] at hword
  refine Reading.Gives.andThen hword fun r hr => ?_
  have hname : (nameField r).Gives (chunkName "WAVE") _ := hr.exactly.mapError Error.stream
  refine hname.andThen fun r hr => ?_
  rw [if_neg (not_not_intro rfl)]
  exact readChunks_gives hsize hnames hvalid (.inr ⟨c, hlast, hdescribes⟩) hr

/-- Reading the header of a file undoes writing it. For any chunks in front
of the data, with `fmt ` chunks among them that can all be used, the header
is answered and the source stands at the first byte behind it. The format
is the one that the last of those chunks describes. The data have the size
that is stated, if one is, and as many frames as fit into it. -/
theorem header_of_file {riff : List UInt8} (hriff : riff.length = 4) {chunks : List Chunk}
    {size : Nat} {body : List UInt8} (hsize : size < 1 <<< 32)
    (hnames : ∀ c ∈ chunks, c.name ≠ chunkName "data")
    (hvalid : ∀ c ∈ formats chunks, c.IsValid) (hsome : ∃ c ∈ chunks, c.isFormat = true)
    (hr : Source.Delivers r (file riff chunks size body)) :
    ∃ c header, (formats chunks).getLast? = some c ∧ (readHeader r).outcome = .ok header ∧
      Source.Delivers (readHeader r).source body ∧ c.Describes header.format ∧
      header.dataBytes = (if size = 0 ∨ size = 0xFFFFFFFF then none else some size) ∧
      header.frames.map FrameCount.toNat = header.dataBytes.map (· / c.blockAlign) := by
  obtain ⟨d, hd, hdformat⟩ := hsome
  have hmem : d ∈ formats chunks := List.mem_filter.mpr ⟨hd, hdformat⟩
  obtain ⟨c, hlast⟩ := Option.isSome_iff_exists.mp
    (List.getLast?_isSome.mpr (List.ne_nil_of_mem hmem))
  obtain ⟨format, hdescribes⟩ := (hvalid c (List.mem_of_getLast? hlast)).describes
  obtain ⟨hok, hsource⟩ := readHeader_gives hriff hsize hnames hvalid hlast hdescribes hr
  refine ⟨c, headerOf format size, hlast, hok, hsource, hdescribes, rfl, ?_⟩
  show ((headerOf format size).dataBytes.map _).map _ = _
  rw [Option.map_map]
  refine Option.map_congr fun stated hstated => ?_
  -- A stated size fits a field, so its frames fit a count.
  have hfits : stated < 1 <<< 32 := by
    unfold headerOf at hstated
    dsimp only at hstated
    split at hstated <;> cases hstated
    exact hsize
  have hle : stated / c.blockAlign ≤ stated := Nat.div_le_self _ _
  show (FrameCount.ofNat (stated / format.blockAlign)).toNat = _
  rw [hdescribes.blockAlign]
  refine UInt64.toNat_ofNat_of_lt' (Nat.lt_of_le_of_lt hle (Nat.lt_trans hfits ?_))
  decide

open Rehearsal in
/-- A list of three bytes, a format of six channels of 16 bits, and an extensible
format of 27 bytes that stores two channels of floating point numbers. In one
file the second format replaces the first and the size of the data is left open.
In the other the first is the last one. It names no speakers, and two frames are
stated. The source is interrupted and delivers short pieces. -/
theorem header_of_file_scripted :
    let text : Chunk := ⟨chunkName "LIST", [1, 2, 3], [0], by decide, by decide, by decide⟩
    let first : Chunk := ⟨chunkName "fmt ",
      [1, 0, 6, 0, 0x40, 0x1F, 0, 0, 0, 0x77, 1, 0, 12, 0, 16, 0], [],
      by decide, by decide, by decide⟩
    let second : Chunk := ⟨chunkName "fmt ",
      [0xFE, 0xFF, 2, 0, 0x80, 0xBB, 0, 0, 0, 0xDC, 5, 0, 8, 0, 32, 0]
        ++ [22, 0, 32, 0, 0x0C, 0, 0, 0, 3, 0, 9], [0], by decide, by decide, by decide⟩
    let source (bytes : List UInt8) : ScriptedSource :=
      ⟨bytes, [.deliver 3 none, .interrupt, .deliver 1 none, .deliver 2 none], true, 0⟩
    let r := source (file [0, 0, 0, 0] [text, first, second] 0xFFFFFFFF [5, 6, 7])
    let r' := source (file [0, 0, 0, 0] [second, text, first] 24 [5, 6, 7])
    (∃ header, (readHeader r).outcome = .ok header ∧
      Source.Delivers (readHeader r).source [5, 6, 7] ∧ header.format.channels = 2 ∧
      header.format.rate = 48000 ∧ header.format.blockAlign = 8 ∧
      header.format.encoding.tag = 3 ∧ header.format.encoding.width = 4 ∧
      header.format.speakers = 0x0C ∧ header.dataBytes = none) ∧
    ∃ header, (readHeader r').outcome = .ok header ∧
      Source.Delivers (readHeader r').source [5, 6, 7] ∧ header.format.channels = 6 ∧
      header.format.encoding.width = 2 ∧ header.format.speakers = 0x3F ∧
      header.dataBytes = some 24 ∧ header.frames.map FrameCount.toNat = some 2 := by
  intro text first second source r r'
  have hdelivers : ∀ bytes, Source.Delivers (source bytes) bytes :=
    fun bytes => ScriptedSource.delivers (by dsimp only [source]; decide)
  have hr := hdelivers (file [0, 0, 0, 0] [text, first, second] 0xFFFFFFFF [5, 6, 7])
  have hr' := hdelivers (file [0, 0, 0, 0] [second, text, first] 24 [5, 6, 7])
  have hfirst : first.IsValid :=
    ⟨by decide, by decide, by decide, by decide, by decide, .inl (by decide)⟩
  have hsecond : second.IsValid :=
    ⟨by decide, by decide, by decide, by decide, by decide, .inr (by decide)⟩
  have hvalid : ∀ c ∈ formats [text, first, second], c.IsValid := by
    rw [show formats [text, first, second] = [first, second] from rfl]
    exact List.forall_mem_cons.mpr ⟨hfirst, List.forall_mem_singleton.mpr hsecond⟩
  have hvalid' : ∀ c ∈ formats [second, text, first], c.IsValid := by
    rw [show formats [second, text, first] = [second, first] from rfl]
    exact List.forall_mem_cons.mpr ⟨hsecond, List.forall_mem_singleton.mpr hfirst⟩
  constructor
  · obtain ⟨c, header, hlast, hok, hsource, hdescribes, hbytes, -⟩ :=
      header_of_file (by decide) (by decide) (by simp only [List.forall_mem_cons]; decide) hvalid
        ⟨first, by simp, by decide⟩ hr
    obtain rfl : c = second := (Option.some.inj hlast).symm
    exact ⟨header, hok, hsource, hdescribes.channels, hdescribes.rate, hdescribes.blockAlign,
      hdescribes.tag, hdescribes.width.trans (by decide), hdescribes.speakers, hbytes⟩
  · obtain ⟨c, header, hlast, hok, hsource, hdescribes, hbytes, hframes⟩ :=
      header_of_file (by decide) (by decide) (by simp only [List.forall_mem_cons]; decide) hvalid'
        ⟨first, by simp, by decide⟩ hr'
    obtain rfl : c = first := (Option.some.inj hlast).symm
    have hstated : header.dataBytes = some 24 := hbytes
    rw [hstated] at hframes
    exact ⟨header, hok, hsource, hdescribes.channels, hdescribes.width.trans (by decide),
      hdescribes.speakers.trans (by decide), hstated, hframes.trans (by decide)⟩

end Wave

end Packetizer

import Mathlib
import Packetizer.Codec.Escape
import Packetizer.Command.Run
import Packetizer.Proofs.Audio.SampleRate
import Packetizer.Proofs.Codec.Kind
import Packetizer.Proofs.Command.Arguments
import Packetizer.Proofs.Command.FileLoop
import Packetizer.Proofs.Encoder.FromSource
import Packetizer.Proofs.Encoder.Layout
import Packetizer.Proofs.Encoder.LinearStream
import Packetizer.Proofs.Wave.File

/-!
# `Packetizer.Proofs.Command.RawAndFile`: raw samples and files give the same

The command has a loop for raw samples and another one for files. Both look
like encoding all samples as one block and flushing (`Encoder.feed_whole`,
`encodeWave_delivers`), so that it cannot be seen what the samples were cut
into. What is left of the difference are the speakers, which a file names
and raw samples do not: unless the channel order is changed, nobody looks at
them (`Encoder.encode_flush_relayout`).

`Job.EndsWith` says how a job comes to its encoder and what the encoder
ends with. In both cases that is the same step, up to the settings and the
layout (`endsWith_raw`, `endsWith_file`).
-/

set_option autoImplicit false

namespace Packetizer

namespace Command

/-! ### The way to the outcome -/

/-- What the encoder of a job ends with, and what was logged before there
was an encoder. -/
inductive Job.EndsWith [LosslessCoder] {ρ : Type} [Switched ρ] (job : Job) (codec : CodecKind)
    (input : ρ) (output : OutputFile) :
    List Event → Outcome CodecKind.Session A52Order OutputFile → Prop where
  | raw {rate : SampleRate} {e : Encoder CodecKind.Session A52Order} {before : List Event}
      (isRaw : job.raw = true) (supported : SampleRate.ofHz (UInt64.ofNat job.rate) = .ok rate)
      (started : Encoder.start codec
        { job.settings with channels := UInt8.ofNat job.channels, rate := rate } none
          = .ready e before) :
      EndsWith job codec input output before (.ofStep (e.encodeSource
        ((Stoppable.ofSource input).setFrameBytes (e.channels * sampleBytes)) output).toStep)
  | file {reader : Wave.Reader (Stoppable ρ)} {settings : Settings}
      {e : Encoder CodecKind.Session A52Order} {before : List Event}
      (isFile : job.raw = false) (opened : (openWave input).outcome = .ok reader)
      (fitting : job.settings.ofWave reader.header.format = .ok settings)
      (started : Encoder.start codec settings
        (if job.keepOrder then none else some A52Order.a52Order) = .ready e before) :
      EndsWith job codec input output (Event.ofLog (openWave input).log ++ before)
        (encodeWave ⟨reader, e, output⟩ reader.header.frames .zero #[])

/-- The input of a job can be opened and its output is created empty. The
input is what that leaves of it. -/
def Files.Give {ρ : Type} (files : Files ρ) (job : Job) (input : ρ) : Prop :=
  ∃ opened, files.openInput job.input = .ok opened ∧
    files.createOutput job.input job.output opened = .ok (input, OutputFile.empty)

variable {ρ : Type} [Switched ρ] {job : Job} {codec : CodecKind} {input : ρ}

/-- The command concludes what its encoder ends with. -/
theorem Job.EndsWith.execute [LosslessCoder] {before : List Event}
    {o : Outcome CodecKind.Session A52Order OutputFile}
    (h : job.EndsWith codec input OutputFile.empty before o) {arguments : List String}
    (hparsed : Request.parse arguments = some (.encode job))
    (hcodec : CodecKind.parse job.codec = .ok codec) {files : Files ρ}
    (hfiles : files.Give job input) :
    Command.execute arguments files = (conclude codec o before).execution job := by
  obtain ⟨opened, hopened, hcreated⟩ := hfiles
  rw [Command.execute, hparsed]
  dsimp only
  rw [Job.execute, hcodec]
  dsimp only
  rw [hopened]
  dsimp only
  rw [hcreated]
  dsimp only
  cases h with
  | raw isRaw supported started =>
      rw [if_pos isRaw, encodeRaw, supported]
      dsimp only
      rw [started]
      rfl
  | file isFile wave fitting started =>
      rw [if_neg (Bool.eq_false_iff.mp isFile), encodeFile, wave]
      dsimp only
      rw [fitting]
      dsimp only
      rw [started]

/-! ### The encoder -/

/-- The frames in a packet of 16-bit audio that a job asks for. -/
def Job.packetFrames (job : Job) : Nat :=
  (job.settings.framesPerPacket.getD Linear16.defaultFrames).toNat

omit [Switched ρ] in
/-- A packet holds something, and its bytes are a result code. -/
theorem Job.packetFrames_fits {channels : Nat} (hsome : 0 < channels)
    (hmost : channels ≤ Linear16.maxChannels)
    (hcode : 2 * job.frames * channels ≤ Linear16.maxCode) :
    0 < job.packetFrames ∧ 2 * (job.packetFrames * channels) ≤ Linear16.maxCode := by
  unfold Job.packetFrames Job.settings
  by_cases hzero : job.frames = 0
  · rw [if_pos hzero]
    refine ⟨by decide, ?_⟩
    rw [Linear16.maxCode]
    rw [Linear16.maxChannels] at hmost
    show 2 * (352 * channels) ≤ _
    omega
  · rw [if_neg hzero]
    have hle : job.frames ≤ 2 * job.frames * channels := by
      calc job.frames ≤ 2 * job.frames := by omega
        _ ≤ 2 * job.frames * channels := Nat.le_mul_of_pos_right _ hsome
    have hcount : (FrameCount.ofNat job.frames).toNat = job.frames := by
      refine UInt64.toNat_ofNat_of_lt' (Nat.lt_of_le_of_lt (Nat.le_trans hle hcode) ?_)
      decide
    show 0 < (FrameCount.ofNat job.frames).toNat ∧ 2 * ((FrameCount.ofNat job.frames).toNat * _) ≤ _
    rw [hcount, ← Nat.mul_assoc]
    exact ⟨Nat.pos_of_ne_zero hzero, hcode⟩

/-- Settings of 16-bit audio start an encoder, and with any other speakers
one that differs in the settings and the layout alone. -/
theorem start_relayout [LosslessCoder] (settings : Settings) (hsome : 0 < settings.channels.toNat)
    (hmost : settings.channels.toNat ≤ Linear16.maxChannels)
    (hframes : 0 < (settings.framesPerPacket.getD Linear16.defaultFrames).toNat)
    (hcode : 2 * ((settings.framesPerPacket.getD Linear16.defaultFrames).toNat
      * settings.channels.toNat) ≤ Linear16.maxCode)
    (hfixed : settings.requireFixedRate Linear16.name = .ok ()) :
    ∃ (e : Encoder CodecKind.Session A52Order) (s : CodecKind.Session) (layout : StreamLayout),
      e.Packs s none layout ∧ e.channels = settings.channels.toNat ∧
      (∃ before, Encoder.start CodecKind.linear16 settings none = .ready e before) ∧
      ∀ speakers, ∃ settings' layout' before,
        Encoder.start CodecKind.linear16 { settings with speakers := speakers } none
          = .ready (e.relayout settings' layout') before := by
  let g : Geometry := ⟨settings.channels.toNat,
    (settings.framesPerPacket.getD Linear16.defaultFrames).toNat, hsome, hframes⟩
  have hword : 2 * g.quantum < UInt64.size := Nat.lt_of_le_of_lt hcode (by decide)
  have hlinear : Linear16.IsLinear g.quantum (CodecKind.Session.linear16
      ⟨settings.framesPerPacket.getD Linear16.defaultFrames, settings.channels.toNat⟩) := by
    refine CodecKind.Session.linear16_isLinear (Linear16.Session.isLinear ?_ hcode)
    refine FrameCount.samples_of_lt (Nat.lt_of_le_of_lt ?_ hword)
    exact Nat.le_mul_of_pos_left g.quantum (by decide)
  have hchannels : g.channels = (Codec.complete CodecKind.linear16 settings).channels.toNat :=
    congrArg UInt8.toNat (Linear16.complete_eq settings).1.symm
  refine ⟨_, _, _, Encoder.packs_ofSession hchannels hlinear (Nat.le_refl _) none,
    rfl, CodecKind.start_linear16 settings rfl rfl hmost hword hfixed none, fun speakers => ?_⟩
  -- What the codec looks at is the same with other speakers.
  obtain ⟨before, hother⟩ := CodecKind.start_linear16 { settings with speakers := speakers }
    (g := g) rfl rfl hmost hword hfixed (none : Option A52Order)
  exact ⟨_, _, before, hother⟩

omit [Switched ρ] in
/-- A job for 16-bit audio of one to eight channels gets an encoder, for raw
samples or for a file with any speakers. -/
theorem Job.start [LosslessCoder] (job : Job) (rate : SampleRate) {channels : Nat}
    (hsome : 0 < channels) (hmost : channels ≤ Linear16.maxChannels)
    (hcode : 2 * job.frames * channels ≤ Linear16.maxCode) :
    ∃ (e : Encoder CodecKind.Session A52Order) (s : CodecKind.Session) (layout : StreamLayout),
      e.Packs s none layout ∧ e.channels = channels ∧
      (∃ before, Encoder.start CodecKind.linear16
        { job.settings with channels := UInt8.ofNat channels, rate := rate } none
          = .ready e before) ∧
      ∀ speakers, ∃ settings' layout' before, Encoder.start CodecKind.linear16
        { job.settings with channels := UInt8.ofNat channels, rate := rate, speakers := speakers }
          none = .ready (e.relayout settings' layout') before := by
  obtain ⟨hholds, hfits⟩ := job.packetFrames_fits hsome hmost hcode
  have hcount : (UInt8.ofNat channels).toNat = channels := by
    refine UInt8.toNat_ofNat_of_lt' (Nat.lt_of_le_of_lt hmost ?_)
    decide
  let settings : Settings :=
    { job.settings with channels := UInt8.ofNat channels, rate := rate }
  have hfixed : settings.requireFixedRate Linear16.name = .ok () := by
    unfold settings Job.settings
    split <;> rfl
  rw [← hcount] at hsome hmost hfits
  obtain ⟨e, s, layout, hpacks, hchannels, hstarts⟩ :=
    start_relayout settings hsome hmost hholds hfits hfixed
  exact ⟨e, s, layout, hpacks, hchannels.trans hcount, hstarts⟩

/-! ### Files of floating point samples -/

/-- A file of 32-bit floating point samples. Its data are all that comes
behind the header, which states their size or leaves it open. -/
structure FloatFile (rate : SampleRate) (channels : Nat) (body : List UInt8) where
  riff : List UInt8
  chunks : List Wave.Chunk
  /-- The last chunk that holds a format. -/
  format : Wave.Chunk
  size : Nat
  length_riff : riff.length = 4
  names : ∀ c ∈ chunks, c.name ≠ Wave.chunkName "data"
  valid : ∀ c ∈ Wave.formats chunks, c.IsValid
  last : (Wave.formats chunks).getLast? = some format
  isFloat : format.tag = 3
  hasChannels : format.channels = channels
  hasRate : format.rate = rate.hz.toNat
  blockAlign : format.blockAlign = sampleBytes * channels
  size_lt : size < 1 <<< 32
  size_eq : size = 0 ∨ size = Wave.unknownSize ∨ size = body.length

namespace FloatFile

variable {rate : SampleRate} {channels : Nat} {body : List UInt8}

/-- The bytes of the file. -/
def bytes (f : FloatFile rate channels body) : List UInt8 :=
  Wave.file f.riff f.chunks f.size body

/-- What the header of such a file says. -/
structure Describes (rate : SampleRate) (channels : Nat) (body : List UInt8)
    (header : Wave.Header) : Prop where
  sound : header.format.Sound
  encoding : header.format.encoding = .f32
  channels : header.format.channels = channels
  rate : header.format.rate = rate.hz.toNat
  available : header.available body = body.length

/-- The command opens the file and stands at the first byte of its data. -/
theorem openWave_gives (f : FloatFile rate channels body) (hsome : 0 < channels)
    (hinput : Source.Delivers input f.bytes) (hgoes : Switched.KeepsRunning input) :
    ∃ header r, (openWave input).outcome = .ok (.ofHeader header r) ∧
      Source.Delivers r body ∧ Describes rate channels body header := by
  have hvalid := f.valid f.format (List.mem_of_getLast? f.last)
  obtain ⟨format, hdescribes⟩ := hvalid.describes
  have hstart : Source.Delivers (Stoppable.ofSource input) f.bytes :=
    (Stoppable.delivers_iff hgoes).mpr hinput
  obtain ⟨hok, hsource⟩ := Wave.readHeader_gives f.length_riff f.size_lt f.names f.valid f.last
    hdescribes hstart
  -- Where the data begin the source still runs.
  have hgoes' := hgoes.later
    (Stoppable.later_inner (Wave.later_readHeader (Stoppable.ofSource input)))
  refine ⟨Wave.headerOf format f.size,
    (Wave.readHeader (Stoppable.ofSource input)).source.setFrameBytes format.blockAlign, ?_,
    (Stoppable.delivers_setFrameBytes hgoes' _).mpr hsource, (Wave.readHeader_sound hok).format, ?_,
    hdescribes.channels.trans f.hasChannels, hdescribes.rate.trans f.hasRate, ?_⟩
  · rw [openWave, Reading.andThen, hok]
    rfl
  · have htag := hdescribes.tag.trans f.isFloat
    have hwidth := hdescribes.width
    rw [f.blockAlign, f.hasChannels, Nat.mul_div_cancel _ hsome] at hwidth
    have hknown := Wave.Chunk.ofTag?_eq format.encoding
    rw [htag, hwidth] at hknown
    exact (Option.some.inj hknown).symm
  · unfold Wave.Header.available Wave.headerOf
    dsimp only
    by_cases hopen : f.size = 0 ∨ f.size = Wave.unknownSize
    · rw [if_pos hopen]
    · rw [if_neg hopen]
      have hstated := f.size_eq
      show min f.size body.length = body.length
      omega

end FloatFile

/-! ### Both runs -/

section
variable [LosslessCoder]
variable {rate : SampleRate} {channels : Nat} {body : List UInt8}
  {e : Encoder CodecKind.Session A52Order} {before : List Event}

/-- Raw samples are encoded as one block and flushed. -/
theorem endsWith_raw (hraw : job.raw = true) (hrate : job.rate = rate.hz.toNat)
    (hstart : Encoder.start codec
      { job.settings with channels := UInt8.ofNat job.channels, rate := rate } none
        = .ready e before)
    (hready : e.state = .ready) (hfits : e.gatherer.Fits)
    (hwhole : body.length % (sampleBytes * e.channels) = 0)
    (hinput : Source.Delivers input body) (hgoes : Switched.KeepsRunning input)
    (output : OutputFile) :
    ∃ before s, job.EndsWith codec input output before (.ofStep s) ∧
      Alike s ((e.encode (samplesOfBytes body) output).andThen fun e k => e.flush k) := by
  have hsupported : SampleRate.ofHz (UInt64.ofNat job.rate) = .ok rate := by
    rw [hrate]
    exact rate.ofHz_toNat
  have hstopped : Source.Delivers (Stoppable.ofSource input) body :=
    (Stoppable.delivers_iff hgoes).mpr hinput
  have hsource := (Stoppable.delivers_setFrameBytes hgoes (e.channels * sampleBytes)).mpr hstopped
  refine ⟨_, _, .raw hraw hsupported hstart, ?_⟩
  rw [Encoder.encodeSource, Encoder.requireReady_of_ready hready]
  exact Encoder.feed_whole hready hfits hsource hwhole output

/-- So are the samples of a file, up to the settings and the layout. -/
theorem endsWith_file (hfile : job.raw = false) (horder : job.keepOrder = true)
    (f : FloatFile rate channels body) (hsome : 0 < channels)
    (hmost : channels ≤ Linear16.maxChannels)
    (hstart : ∀ speakers, ∃ settings' layout' before, Encoder.start codec
      { job.settings with channels := UInt8.ofNat channels, rate := rate, speakers := speakers }
        none = .ready (e.relayout settings' layout') before)
    (hready : e.state = .ready) (hfits : e.gatherer.Fits) (hchannels : e.channels = channels)
    (hwhole : body.length % (sampleBytes * channels) = 0)
    (hinput : Source.Delivers input f.bytes) (hgoes : Switched.KeepsRunning input)
    (output : OutputFile) :
    let s := (e.encode (samplesOfBytes body) output).andThen fun e k => e.flush k
    ∃ before s' settings' layout', job.EndsWith codec input output before (.ofStep s') ∧
      Alike s' { s with encoder := s.encoder.relayout settings' layout' } := by
  obtain ⟨header, r, hopened, hr, hheader⟩ := f.openWave_gives hsome hinput hgoes
  obtain ⟨settings', layout', before, hstarted⟩ :=
    hstart (some (UInt32.ofNat header.format.speakers))
  have hfitting : job.settings.ofWave header.format = .ok { job.settings with
      channels := UInt8.ofNat channels, rate := rate,
      speakers := some (UInt32.ofNat header.format.speakers) } := by
    have hfew : ¬ 255 < channels := by
      rw [Linear16.maxChannels] at hmost
      omega
    rw [Settings.ofWave, hheader.channels, hheader.rate, if_neg hfew, rate.ofHz_toNat]
  have hframes : header.available body % header.format.blockAlign = 0 := by
    rw [hheader.available, hheader.sound.blockAlign, hheader.encoding, hheader.channels]
    exact hwhole
  obtain ⟨s', hout, halike⟩ := encodeWave_delivers (e := e.relayout settings' layout') hr
    hheader.sound hframes (hchannels.trans hheader.channels.symm) hready hfits output
    header.frames .zero
  rw [hheader.available, List.take_length, hheader.encoding,
    Encoder.encode_flush_relayout] at halike
  have hends : job.EndsWith codec input output _ _ :=
    .file hfile hopened hfitting (by rw [if_pos horder]; exact hstarted)
  exact ⟨_, s', settings', layout', hout ▸ hends, halike⟩

/-- A step that looks like one that went well makes the command succeed, with
the bytes that the sink was given. -/
theorem Job.EndsWith.succeeds {s t : Step CodecKind.Session A52Order OutputFile Unit}
    (h : job.EndsWith codec input OutputFile.empty before (.ofStep s)) (halike : Alike s t)
    (hok : t.outcome = .ok ()) (hroom : t.sink.isFull = false) {arguments : List String}
    (hparsed : Request.parse arguments = some (.encode job))
    (hcodec : CodecKind.parse job.codec = .ok codec) {files : Files ρ}
    (hfiles : files.Give job input) :
    let x := Command.execute arguments files
    x.exit = 0 ∧ x.output = some (job.output, t.sink.bytes) ∧
      x = (conclude codec (.ofStep s) before).execution job := by
  have hfinish : s.sink.finish = .ok () := by
    rw [halike.sink, OutputFile.finish, hroom]
    rfl
  have hconclude : ∃ events, conclude codec (.ofStep s) before
      = ⟨.ok (), t.sink.bytes, events⟩ := by
    unfold conclude Outcome.ofStep
    dsimp only
    rw [halike.outcome, hok, Except.mapError, Except.bind, hfinish, halike.sink]
    exact ⟨_, rfl⟩
  obtain ⟨events, heq⟩ := hconclude
  have hexecute := h.execute hparsed hcodec hfiles
  intro x
  refine ⟨?_, ?_, hexecute⟩
  · show (Command.execute arguments files).exit = 0
    rw [hexecute, heq]
    rfl
  · show (Command.execute arguments files).output = _
    rw [hexecute, heq]
    rfl

end

/-! ### Whole commands -/

/-- The arguments ask for raw samples as 16-bit audio. -/
structure AsksRaw (arguments : List String) (job : Job) (rate : SampleRate)
    (channels frames : Nat) : Prop where
  parsed : Request.parse arguments = some (.encode job)
  codec : CodecKind.parse job.codec = .ok .linear16
  raw : job.raw = true
  rate : job.rate = rate.hz.toNat
  channels : job.channels = channels
  frames : job.frames = frames

/-- The arguments ask for a file as 16-bit audio, in the order in which the
file has its channels. -/
structure AsksFile (arguments : List String) (job : Job) (frames : Nat) : Prop where
  parsed : Request.parse arguments = some (.encode job)
  codec : CodecKind.parse job.codec = .ok .linear16
  file : job.raw = false
  keepOrder : job.keepOrder = true
  frames : job.frames = frames

section
variable {settings : List Setting} {frames : Nat} {input output : String}

/-- The options for raw samples, in any order in front of two names, ask for them
with these values. -/
theorem asksRaw_of_perm {rate : SampleRate} {channels : Nat}
    (hperm : settings.Perm [⟨.codec, "pcm"⟩, ⟨.raw, ""⟩, ⟨.rate, toString rate.hz.toNat⟩,
      ⟨.channels, toString channels⟩, ⟨.frames, toString frames⟩])
    (hchannels : channels < UInt8.size) (hframes : frames < UInt64.size)
    (hinput : IsName input) (houtput : IsName output) :
    AsksRaw (settings.flatMap Setting.spelled ++ [input, output])
      ⟨"pcm", frames, 2, rate.hz.toNat, channels, true, false, input, output⟩
      rate channels frames := by
  let g : Given := ⟨[⟨.codec, "pcm"⟩, ⟨.raw, ""⟩, ⟨.rate, toString rate.hz.toNat⟩,
    ⟨.channels, toString channels⟩, ⟨.frames, toString frames⟩], [input, output]⟩
  have honce : g.Once := by simp [Given.Once, g]
  have hrate : rate.hz.toNat < UInt32.size := Nat.lt_of_le_of_lt rate.hz_bounds.2 (by decide)
  have hjob := g.job_of_numbers (honce.number (by simp [g]) 0 hframes) rfl
    (honce.number (by simp [g]) 48000 hrate) (honce.number (by simp [g]) 2 hchannels) input output
  refine ⟨?_, by cbv, rfl, rfl, rfl, rfl⟩
  rw [Request.parse_spelled (g := g) hperm (by simp [g, Flag.takesValue]) honce rfl hinput
    houtput, hjob]
  rfl

/-- So do the options for a file. -/
theorem asksFile_of_perm
    (hperm : settings.Perm [⟨.codec, "pcm"⟩, ⟨.keepOrder, ""⟩, ⟨.frames, toString frames⟩])
    (hframes : frames < UInt64.size) (hinput : IsName input) (houtput : IsName output) :
    AsksFile (settings.flatMap Setting.spelled ++ [input, output])
      ⟨"pcm", frames, 2, 48000, 2, false, true, input, output⟩ frames := by
  let g : Given := ⟨[⟨.codec, "pcm"⟩, ⟨.keepOrder, ""⟩, ⟨.frames, toString frames⟩],
    [input, output]⟩
  have honce : g.Once := by simp [Given.Once, g]
  have hjob := g.job_of_numbers (honce.number (by simp [g]) 0 hframes) rfl rfl rfl input output
  refine ⟨?_, by cbv, rfl, rfl, rfl⟩
  rw [Request.parse_spelled (g := g) hperm (by simp [g, Flag.takesValue]) honce rfl hinput
    houtput, hjob]
  rfl

end

/-- Raw samples and a file of the same samples give the same 16-bit audio.
For one to eight channels, any rate, and packets that a result code can
name, both commands succeed and write the same bytes, and their encoders
have counted the same frames, packets and bytes. It makes no difference how
the two inputs deliver their bytes, what else is in the file in front of
the data, and whether it states their size. -/
theorem raw_and_file_agree [LosslessCoder] {rate : SampleRate} {channels frames : Nat}
    {body : List UInt8} (hsome : 1 ≤ channels) (hmost : channels ≤ 8)
    (hframes : 2 * frames * channels ≤ 0x7FFFFFFF)
    (hwhole : body.length % (sampleBytes * channels) = 0)
    {ρ ρ' : Type} [Switched ρ] [Switched ρ'] {arguments arguments' : List String}
    {job job' : Job} {files : Files ρ} {files' : Files ρ'} {input : ρ} {input' : ρ'}
    (hraw : AsksRaw arguments job rate channels frames) (hgive : files.Give job input)
    (hinput : Source.Delivers input body) (hgoes : Switched.KeepsRunning input)
    (hfile : AsksFile arguments' job' frames) (hgive' : files'.Give job' input')
    (f : FloatFile rate channels body) (hinput' : Source.Delivers input' f.bytes)
    (hgoes' : Switched.KeepsRunning input') :
    let x := execute arguments files
    let y := execute arguments' files'
    x.exit = 0 ∧ y.exit = 0 ∧
      (∃ bytes, x.output = some (job.output, bytes) ∧ y.output = some (job'.output, bytes)) ∧
      ∃ before o before' o', job.EndsWith .linear16 input .empty before o ∧
        job'.EndsWith .linear16 input' .empty before' o' ∧
        x = (conclude .linear16 o before).execution job ∧
        y = (conclude .linear16 o' before').execution job' ∧
        o.encoder.framesIn = o'.encoder.framesIn ∧ o.encoder.packets = o'.encoder.packets ∧
        o.encoder.bytes = o'.encoder.bytes := by
  have hsettings : job'.settings = job.settings := by
    unfold Job.settings
    rw [hraw.frames, hfile.frames]
  rw [← hraw.frames] at hframes
  obtain ⟨e, s, layout, hpacks, hchannels, ⟨opening, hstart⟩, hstart'⟩ :=
    job.start rate hsome hmost hframes
  rw [← hsettings] at hstart'
  have hwhole' : body.length % (sampleBytes * e.channels) = 0 := by rwa [hchannels]
  -- Both runs are this one step, which goes well.
  have hblocks : ∀ block ∈ [samplesOfBytes body], block.length % e.channels = 0 := by
    intro block hblock
    rw [List.mem_singleton.mp hblock]
    exact (whole_samplesOfBytes hwhole').2
  have hempty : Sink.NeverFails OutputFile.empty := OutputFile.neverFails_iff.mpr rfl
  obtain ⟨hok, hsink, -⟩ := hpacks.encodeBlocks hempty hblocks
  have hroom := OutputFile.neverFails_iff.mp hsink
  obtain ⟨before, s, hends, halike⟩ := endsWith_raw hraw.raw hraw.rate (hraw.channels ▸ hstart)
    hpacks.state hpacks.fits hwhole' hinput hgoes .empty
  obtain ⟨before', s', settings', layout', hends', halike'⟩ := endsWith_file hfile.file
    hfile.keepOrder f hsome hmost hstart' hpacks.state hpacks.fits hchannels hwhole hinput'
    hgoes' .empty
  obtain ⟨hexit, houtput, hx⟩ :=
    hends.succeeds halike hok hroom hraw.parsed hraw.codec hgive
  obtain ⟨hexit', houtput', hy⟩ :=
    hends'.succeeds halike' hok hroom hfile.parsed hfile.codec hgive'
  intro x y
  refine ⟨hexit, hexit', ⟨_, houtput, houtput'⟩, _, _, _, _, hends, hends', hx, hy, ?_⟩
  -- The encoders differ in what counts nothing.
  show s.encoder.framesIn = s'.encoder.framesIn ∧ s.encoder.packets = s'.encoder.packets ∧
    s.encoder.bytes = s'.encoder.bytes
  rw [halike.encoder_of_ok (halike.outcome.trans hok),
    halike'.encoder_of_ok (halike'.outcome.trans hok)]
  exact ⟨rfl, (PacketWriter.packets_relayout _ _).symm, (PacketWriter.bytes_relayout _ _).symm⟩

open Rehearsal in
/-- Four frames of two channels in packets of two frames, so that the samples
end with a packet. The file leaves the size of its data open, and both
inputs deliver short pieces and are interrupted. -/
theorem raw_and_file_agree_scripted :
    let body : List UInt8 := (List.replicate 8 [0, 0, 0, 0x3F]).flatten
    let format : Wave.Chunk := ⟨Wave.chunkName "fmt ",
      [3, 0, 2, 0, 0x40, 0x1F, 0, 0, 0, 0xFA, 0, 0, 8, 0, 32, 0], [],
      by decide, by decide, by decide⟩
    let raw : ScriptedSource := ⟨body, [.deliver 3 none, .interrupt, .deliver 5 none], true, 0⟩
    let file : ScriptedSource := ⟨Wave.file [0, 0, 0, 0] [format] 0xFFFFFFFF body,
      [.interrupt, .deliver 1 none, .deliver 9 (some true)], true, 0⟩
    let files (input : ScriptedSource) : Files ScriptedSource :=
      ⟨fun _ => .ok input, fun _ _ input => .ok (input, .empty)⟩
    let x := execute ["-c", "pcm", "--raw", "-r", "8000", "-n", "2", "-f", "2", "in", "out"]
      (files raw)
    let y := execute ["-c", "pcm", "--no-remap", "-f", "2", "in", "out"] (files file)
    x.exit = 0 ∧ y.exit = 0 ∧
      ∃ bytes, x.output = some ("out", bytes) ∧ y.output = some ("out", bytes) := by
  intro body format raw file files x y
  let f : FloatFile .hz8000 2 body :=
    { riff := [0, 0, 0, 0]
      chunks := [format]
      format := format
      size := 0xFFFFFFFF
      length_riff := rfl
      names := by decide
      valid := by
        intro c hc
        obtain rfl := List.mem_singleton.mp hc
        exact ⟨by decide, by decide, by decide, by decide, by decide, .inr (by decide)⟩
      last := rfl
      isFloat := rfl
      hasChannels := rfl
      hasRate := rfl
      blockAlign := rfl
      size_lt := by decide
      size_eq := .inr (.inl rfl) }
  have hin : IsName "in" := .inr (by decide)
  have hout : IsName "out" := .inr (by decide)
  have hrawPerm : [⟨.codec, "pcm"⟩, ⟨.raw, ""⟩, ⟨.rate, "8000"⟩, ⟨.channels, "2"⟩,
      ⟨.frames, "2"⟩].Perm [⟨.codec, "pcm"⟩, ⟨.raw, ""⟩,
        ⟨.rate, toString SampleRate.hz8000.hz.toNat⟩, ⟨.channels, toString 2⟩,
        (⟨.frames, toString 2⟩ : Setting)] := .refl _
  have hraw : AsksRaw ["-c", "pcm", "--raw", "-r", "8000", "-n", "2", "-f", "2", "in", "out"]
      ⟨"pcm", 2, 2, 8000, 2, true, false, "in", "out"⟩ .hz8000 2 2 :=
    asksRaw_of_perm hrawPerm (by decide) (by decide) hin hout
  have hfilePerm : [⟨.codec, "pcm"⟩, ⟨.keepOrder, ""⟩, ⟨.frames, "2"⟩].Perm
      [⟨.codec, "pcm"⟩, ⟨.keepOrder, ""⟩, (⟨.frames, toString 2⟩ : Setting)] := .refl _
  have hfile : AsksFile ["-c", "pcm", "--no-remap", "-f", "2", "in", "out"]
      ⟨"pcm", 2, 2, 48000, 2, false, true, "in", "out"⟩ 2 :=
    asksFile_of_perm hfilePerm (by decide) hin hout
  have hgive : ∀ (job : Job) (input : ScriptedSource), (files input).Give job input :=
    fun _ input => ⟨input, rfl, rfl⟩
  have hinput : Source.Delivers raw body := ScriptedSource.delivers (by decide)
  have hinput' : Source.Delivers file f.bytes := ScriptedSource.delivers (by decide)
  obtain ⟨hexit, hexit', hbytes, -⟩ := raw_and_file_agree (by decide) (by decide) (by decide)
    (by decide) hraw (hgive _ raw) hinput (ScriptedSource.keepsRunning rfl (by decide))
    hfile (hgive _ file) f hinput' (ScriptedSource.keepsRunning rfl (by decide))
  exact ⟨hexit, hexit', hbytes⟩

end Command

end Packetizer

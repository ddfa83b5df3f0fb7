import Packetizer.Command.Progress
import Packetizer.Proofs.Encoder.Chunking
import Packetizer.Proofs.Stream.Stopping
import Packetizer.Proofs.Wave.Decoding

/-!
# `Packetizer.Proofs.Command.FileLoop`: encoding a file is encoding its samples

`encodeWave` reads up to a quantum of samples, encodes them, and so on to
the end of the file. What comes of it can be said without the turns: it
looks like encoding all samples that were read as one block and flushing
behind them (`encodeWave_frames`). That holds of every source that gives
whole frames, whether it may be stopped or not. One that delivers its
bytes gives all samples of the data (`encodeWave_delivers`).

The induction is on the turns. Its invariant is `Reader.AtFrame`: what is
left of the data is whole frames. A turn keeps that and encodes a block,
and a block is joined to those behind it by `alike_encode_append`.
-/

set_option autoImplicit false

namespace Packetizer

variable {ρ : Type} [Source ρ]

namespace Wave.Reader

variable {header : Header} {P : ρ → List UInt8 → Prop} {stops : Prop} {w : Reader ρ}
  {left : List UInt8}

/-- The data among some bytes, if these are next to be read. -/
def room (w : Reader ρ) (left : List UInt8) : Nat :=
  match w.remaining with
  | some remaining => min remaining left.length
  | none => left.length

omit [Source ρ] in
theorem room_le (w : Reader ρ) (left : List UInt8) : w.room left ≤ left.length := by
  unfold room
  split
  · exact Nat.min_le_right _ _
  · exact Nat.le_refl _

/-- The reader has whole frames of the data before it, and its source is
in the state `P`, with some bytes left. -/
structure AtFrame (header : Header) (P : ρ → List UInt8 → Prop) (w : Reader ρ)
    (left : List UInt8) : Prop where
  fixed : w.header = header
  source : P w.source left
  whole : w.room left % header.format.blockAlign = 0

omit [Source ρ] in
/-- What can be got is what is asked for or what is there of the data. -/
theorem AtFrame.min_wanted (h : AtFrame header P w left) (capacity : Nat) :
    min (w.wanted capacity) left.length
      = min (capacity / header.format.channels * header.format.blockAlign) (w.room left) := by
  have halign : w.blockAlign = header.format.blockAlign := congrArg (·.format.blockAlign) h.fixed
  have hchannels : w.channels = header.format.channels := congrArg (·.format.channels) h.fixed
  unfold wanted room
  rw [halign, hchannels]
  cases w.remaining with
  | none => rfl
  | some remaining =>
      dsimp only
      omega

omit [Source ρ] in
/-- Either is whole frames. -/
theorem AtFrame.whole_wanted (h : AtFrame header P w left) (capacity : Nat) :
    min (w.wanted capacity) left.length % header.format.blockAlign = 0 := by
  rw [h.min_wanted]
  rcases Nat.le_total (capacity / header.format.channels * header.format.blockAlign)
    (w.room left) with hle | hle
  · rw [Nat.min_eq_left hle, Nat.mul_mod_left]
  · rw [Nat.min_eq_right hle]
    exact h.whole

/-- A call gets the samples of some whole frames, and the reader has whole
frames before it again. It gets none at the end of the data, or because the
source was stopped. -/
theorem AtFrame.next (hP : Source.GivesFrames header.format.blockAlign stops P)
    (h : AtFrame header P w left) (hs : header.format.Sound) (capacity : Nat) :
    let x := w.next capacity
    ∃ front back, left = front ++ back ∧
      x.outcome = .ok (header.format.encoding.samples front) ∧
      AtFrame header P x.source back ∧ front.length % header.format.blockAlign = 0 ∧
      w.room left = front.length + x.source.room back ∧
      (front = [] → header.format.channels ≤ capacity → w.room left = 0 ∨ stops) := by
  have hmin := h.min_wanted capacity
  have hframes := h.whole_wanted capacity
  have hwhole := h.whole
  obtain ⟨front, back, rfl, hok, hrest, hle, hfront, hshort⟩ := hP.fill h.source hframes
  have hx : w.next capacity = ⟨.ok (w.decode front), (Source.fill w.source (w.wanted capacity)).log,
      { w with
        source := (Source.fill w.source (w.wanted capacity)).source
        remaining := w.remaining.map (· - front.length) }⟩ := by
    rw [Reader.next, hok]
  have hdecode : w.decode front = header.format.encoding.samples front := by
    rw [decode_eq h.fixed hs, Nat.div_mul_cancel (Nat.dvd_of_mod_eq_zero hfront), List.take_length]
  have hroom : w.room (front ++ back) = front.length + (w.next capacity).source.room back := by
    rw [hx]
    unfold wanted at hle
    unfold room
    rw [List.length_append]
    cases hremaining : w.remaining with
    | none => rfl
    | some remaining =>
        rw [hremaining] at hle
        dsimp only at hle
        show min remaining _ = front.length + min (remaining - front.length) back.length
        omega
  intro x
  refine ⟨front, back, rfl, ?_, ⟨?_, ?_, ?_⟩, hfront, hroom, ?_⟩
  · show (w.next capacity).outcome = _
    rw [hx, hdecode]
  · show (w.next capacity).source.header = _
    rw [hx]
    exact h.fixed
  · show P (w.next capacity).source.source back
    rw [hx]
    exact hrest
  · rw [hroom, Nat.add_mod, hfront, Nat.zero_add, Nat.mod_mod] at hwhole
    exact hwhole
  · rintro rfl hcapacity
    have hasked : 0 < capacity / header.format.channels * header.format.blockAlign :=
      Nat.mul_pos (Nat.div_pos hcapacity hs.channels_pos) hs.blockAlign_pos
    -- Nothing was wanted or nothing is left, or else the source was stopped.
    rcases Nat.eq_zero_or_pos (w.wanted capacity) with hnone | hsome
    · rw [hnone, Nat.zero_min] at hmin
      omega
    · rcases hshort hsome with rfl | hstopped
      · rw [List.append_nil, List.length_nil, Nat.min_zero] at hmin
        left
        rw [List.append_nil]
        omega
      · exact .inr hstopped

end Wave.Reader

variable {σ η κ : Type} [CodecSession σ] [RemapHook η] [Sink κ]

/-! ### One turn -/

/-- The file, the encoder and the sink after a turn. -/
def Turn.after : Turn σ η κ ρ → Transcoding σ η κ ρ
  | .ended after _ => after
  | .unreadable _ after _ => after
  | .encoded _ after _ => after

namespace Transcoding

/-- The turn with which the loop over a file ends. -/
def lastTurn (t : Transcoding σ η κ ρ) : Turn σ η κ ρ :=
  match _h : t.next with
  | .encoded (.ok ()) after _ => after.lastTurn
  | turn => turn
termination_by t.size
decreasing_by exact size_lt_of_encoded t _h

end Transcoding

namespace Command

/-- A step of an encoder as the outcome of a run. -/
def Outcome.ofStep (s : Step σ η κ Unit) : Outcome σ η κ :=
  ⟨s.outcome.mapError .encode, s.encoder, s.sink, s.events⟩

variable {t : Transcoding σ η κ ρ}

/-- At the end of the file the loop flushes. -/
theorem encodeWave_of_ended {after : Transcoding σ η κ ρ} {events : List Event}
    (h : t.next = .ended after events) (total : Option FrameCount) (reported : FrameCount)
    (done : Array Event) :
    encodeWave t total reported done
        = .ofStep ((after.encoder.flush after.sink).after (done.toList ++ events)) ∧
      t.lastTurn = .ended after events := by
  constructor
  · rw [encodeWave]
    split <;> rename_i hturn <;> rw [h] at hturn <;> cases hturn
    rfl
  · rw [Transcoding.lastTurn]
    split <;> rename_i hturn
    · rw [h] at hturn
      cases hturn
    · exact h

/-- A block that cannot be encoded ends the loop. -/
theorem encodeWave_of_failed {after : Transcoding σ η κ ρ} {events : List Event}
    {error : EncodeError} (h : t.next = .encoded (.error error) after events)
    (total : Option FrameCount) (reported : FrameCount) (done : Array Event) :
    encodeWave t total reported done
        = .ofStep ⟨.error error, after.encoder, after.sink, done.toList ++ events⟩ ∧
      t.lastTurn = .encoded (.error error) after events := by
  constructor
  · rw [encodeWave]
    split <;> rename_i hturn <;> rw [h] at hturn <;> cases hturn
    rfl
  · rw [Transcoding.lastTurn]
    split <;> rename_i hturn
    · rw [h] at hturn
      cases hturn
    · exact h

/-- Behind a block that was encoded comes the next turn. -/
theorem encodeWave_of_encoded {after : Transcoding σ η κ ρ} {events : List Event}
    (h : t.next = .encoded (.ok ()) after events)
    (total : Option FrameCount) (reported : FrameCount) (done : Array Event) :
    (∃ (reported' : FrameCount) (done' : Array Event),
      encodeWave t total reported done = encodeWave after total reported' done' ∧
      effects done'.toList = effects done.toList ++ effects events) ∧
      t.lastTurn = after.lastTurn := by
  constructor
  · rw [encodeWave]
    split <;> rename_i hturn <;> rw [h] at hturn <;> cases hturn
    dsimp only
    split
    · exact ⟨_, _, rfl, by simp [effects, Event.isEffect]⟩
    · exact ⟨_, _, rfl, by simp⟩
  · rw [Transcoding.lastTurn]
    split <;> rename_i hturn
    · rw [h] at hturn
      cases hturn
      rfl
    · exact (hturn after events h).elim

variable {header : Wave.Header} {P : ρ → List UInt8 → Prop} {stops : Prop} {left : List UInt8}

/-- One turn at a frame either finds no more data, or because of a stop
none for now, or encodes a block of whole frames and is at a frame again. -/
theorem next_at_frame (hP : Source.GivesFrames header.format.blockAlign stops P)
    (h : t.reader.AtFrame header P left) (hs : header.format.Sound)
    (hchannels : t.encoder.channels = header.format.channels) :
    ∃ front back, left = front ++ back ∧
      front.length % header.format.blockAlign = 0 ∧
      ∃ (reader : Wave.Reader ρ) (log : List Message), reader.AtFrame header P back ∧
        t.reader.room left = front.length + reader.room back ∧
        ((front = [] ∧ t.next = .ended { t with reader := reader } (Event.ofLog log) ∧
            (t.reader.room left = 0 ∨ stops)) ∨
          let s := t.encoder.encode (header.format.encoding.samples front) t.sink
          t.next = .encoded s.outcome ⟨reader, s.encoder, s.sink⟩
            (Event.ofLog log ++ s.events)) := by
  obtain ⟨front, back, rfl, hok, hreader, hfront, hroom, hend⟩ :=
    h.next hP hs t.encoder.quantum
  refine ⟨front, back, rfl, hfront, _, (t.reader.next t.encoder.quantum).log, hreader, hroom, ?_⟩
  cases hsamples : header.format.encoding.samples front with
  | nil =>
      have hlen := hs.length_samples (Nat.div_mul_cancel (Nat.dvd_of_mod_eq_zero hfront)).symm
      rw [hsamples, List.length_nil] at hlen
      have hnone : front = [] := by
        have hzero :=
          (Nat.mul_eq_zero.mp hlen.symm).resolve_right (Nat.ne_of_gt hs.channels_pos)
        rw [Nat.div_eq_zero_iff_lt hs.blockAlign_pos] at hzero
        rw [Nat.mod_eq_of_lt hzero] at hfront
        exact List.eq_nil_of_length_eq_zero hfront
      have hcapacity : header.format.channels ≤ t.encoder.quantum := by
        rw [← hchannels]
        exact Nat.le_mul_of_pos_left _ t.encoder.gatherer.geometry.frames_pos
      refine .inl ⟨hnone, ?_, hend hnone hcapacity⟩
      rw [hsamples] at hok
      rw [Transcoding.next]
      dsimp only
      rw [hok]
  | cons sample samples =>
      right
      rw [hsamples] at hok
      rw [Transcoding.next]
      dsimp only
      rw [hok]

/-! ### Many turns -/

/-- What a run over a file came to: it took `delivered` off the front of
what was left, and looks like encoding the samples of that as one block
and flushing. -/
structure Runs (header : Wave.Header) (P : ρ → List UInt8 → Prop) (stops : Prop)
    (t : Transcoding σ η κ ρ) (left : List UInt8) (done : List Event) (o : Outcome σ η κ)
    (delivered rest : List UInt8) : Prop where
  split : left = delivered ++ rest
  whole : delivered.length % header.format.blockAlign = 0
  /-- The reader as the last turn leaves it. -/
  reader : t.lastTurn.after.reader.AtFrame header P rest
  alike : ∃ s : Step σ η κ Unit, o = .ofStep s ∧
    Alike s (((t.encoder.encode (header.format.encoding.samples delivered) t.sink).andThen
      fun e k => e.flush k).after done)
  room : t.reader.room left = delivered.length + t.lastTurn.after.reader.room rest
  /-- All data were read, unless a block failed or the source was stopped. -/
  all : t.lastTurn.after.reader.room rest = 0 ∨ stops ∨
    ∃ error, (t.encoder.encode (header.format.encoding.samples delivered) t.sink).outcome
      = .error error

/-- A block in front of a run. -/
theorem Runs.block {t after : Transcoding σ η κ ρ} {front back delivered rest : List UInt8}
    {log : List Message} {done done' : List Event} {o : Outcome σ η κ}
    (h : Runs header P stops after back done' o delivered rest) (hs : header.format.Sound)
    (hchannels : t.encoder.channels = header.format.channels) (hready : t.encoder.state = .ready)
    (hfits : t.encoder.gatherer.Fits) (hfront : front.length % header.format.blockAlign = 0)
    (hroom : t.reader.room (front ++ back) = front.length + after.reader.room back)
    (hlast : t.lastTurn = after.lastTurn)
    (hafter : let s := t.encoder.encode (header.format.encoding.samples front) t.sink
      s.outcome = .ok () ∧ after.encoder = s.encoder ∧ after.sink = s.sink ∧
        effects done' = effects done ++ effects (Event.ofLog log ++ s.events)) :
    Runs header P stops t (front ++ back) done o (front ++ delivered) rest := by
  obtain ⟨hencoded, hencoder, hsink, hdone⟩ := hafter
  obtain ⟨hwidth, hxs⟩ := hs.whole_samples hfront
  have hys := (hs.whole_samples h.whole).2
  have hsamples := Wave.Encoding.samples_append _ hwidth delivered
  obtain ⟨s, ho, halike⟩ := h.alike
  have hall := h.all
  have hsplit := h.split
  rw [← hchannels] at hxs hys
  rw [hencoder, hsink] at halike hall
  have hjoin := Encoder.alike_encode_append hready hfits hxs hys t.sink
  rw [← hsamples] at hjoin
  constructor
  case split => rw [hsplit, List.append_assoc]
  case whole => rw [List.length_append, Nat.add_mod, hfront, h.whole, Nat.zero_add, Nat.zero_mod]
  case reader =>
    rw [hlast]
    exact h.reader
  case alike =>
    refine ⟨s, ho, ?_⟩
    have hflush := hjoin.andThen (f := fun e k => e.flush k) (g := fun e k => e.flush k)
      fun _ => .refl _
    rw [Step.andThen_assoc, Step.andThen_of_ok _ hencoded] at hflush
    -- The events of the block stand between those before it and those behind it.
    refine halike.trans (Alike.trans ?_ (hflush.after (rfl : effects done = effects done)).symm)
    have hgroup : ∀ x : Step σ η κ Unit, ∀ events : List Event,
        (x.after events).after done = x.after (done ++ events) := by
      intro x events
      simp [Step.after]
    rw [hgroup]
    exact (Alike.refl _).after (by simpa using hdone)
  case room => rw [hroom, h.room, hlast, List.length_append, Nat.add_assoc]
  case all =>
    rw [hlast]
    rcases hall with hnone | hstopped | ⟨error, herror⟩
    · exact .inl hnone
    · exact .inr (.inl hstopped)
    · right
      right
      refine ⟨error, ?_⟩
      rw [hjoin.outcome, Step.andThen_of_ok _ hencoded]
      exact herror

/-- The loop over a file encodes what it reads. -/
theorem encodeWave_frames (hP : Source.GivesFrames header.format.blockAlign stops P)
    (h : t.reader.AtFrame header P left) (hs : header.format.Sound)
    (hchannels : t.encoder.channels = header.format.channels) (hready : t.encoder.state = .ready)
    (hfits : t.encoder.gatherer.Fits) (total : Option FrameCount) (reported : FrameCount)
    (done : Array Event) :
    ∃ delivered rest, Runs header P stops t left done.toList
      (encodeWave t total reported done) delivered rest := by
  induction hsize : t.size using Nat.strongRecOn generalizing t left reported done with
  | _ size ih =>
  obtain ⟨front, back, rfl, hfront, reader, log, hreader, hroom, hturn⟩ :=
    next_at_frame hP h hs hchannels
  rcases hturn with ⟨rfl, hturn, hend⟩ | hturn
  · obtain ⟨hout, hlast⟩ := encodeWave_of_ended hturn total reported done
    refine ⟨[], back, rfl, Nat.zero_mod _, ?_, ⟨_, hout, ?_⟩, ?_, ?_⟩
    · rw [hlast]
      exact hreader
    · rw [Wave.Encoding.samples_nil, Encoder.encode_nil hready, Step.andThen_of_ok _ rfl]
      exact (Alike.refl _).after (by simp)
    · rw [hlast]
      exact hroom
    · rw [hlast]
      rcases hend with hnone | hstopped
      · left
        rw [hroom, List.length_nil, Nat.zero_add] at hnone
        exact hnone
      · exact .inr (.inl hstopped)
  -- A block was read; what comes behind it depends on how it is encoded.
  dsimp only at hturn
  have hblock := (hs.whole_samples hfront).2
  rw [← hchannels] at hblock
  have hmove := Encoder.move_encode hfits (header.format.encoding.samples front) t.sink
  cases hencoded : (t.encoder.encode (header.format.encoding.samples front) t.sink).outcome with
  | error error =>
      rw [hencoded] at hturn
      obtain ⟨hout, hlast⟩ := encodeWave_of_failed hturn total reported done
      refine ⟨front, back, rfl, hfront, ?_, ⟨_, hout, ?_⟩, ?_, .inr (.inr ⟨error, hencoded⟩)⟩
      · rw [hlast]
        exact hreader
      rotate_left
      · rw [hlast]
        exact hroom
      · rw [Step.andThen_of_error _ hencoded]
        exact ⟨hencoded.symm, rfl, by simp [Step.after], rfl, nofun⟩
  | ok _ =>
      rw [hencoded] at hturn
      obtain ⟨⟨reported', done', hout, hdone⟩, hlast⟩ :=
        encodeWave_of_encoded hturn total reported done
      have hsmaller := Transcoding.size_lt_of_encoded t hturn
      rw [hsize] at hsmaller
      have hchannels' :
          (t.encoder.encode (header.format.encoding.samples front) t.sink).encoder.channels
            = t.encoder.channels := congrArg Geometry.channels hmove.geometry
      obtain ⟨delivered, rest, hrun⟩ := ih _ hsmaller hreader (hchannels'.trans hchannels)
        (Encoder.ready_of_encode hready hfits hblock hencoded) (hmove.fits hfits) reported' done'
        rfl
      rw [← hout] at hrun
      exact ⟨_, _, hrun.block hs hchannels hready hfits hfront hroom hlast
        ⟨hencoded, rfl, rfl, hdone⟩⟩

/-! ### Whole files -/

omit [Source ρ] in
/-- The data that a fresh reader has before it. -/
theorem room_ofHeader (header : Wave.Header) (r : ρ) (bytes : List UInt8) :
    (Wave.Reader.ofHeader header r).room bytes = header.available bytes := rfl

/-- A block that failed hides what would have come behind it. -/
theorem alike_of_failed {e : Encoder σ η} (hready : e.state = .ready) (hfits : e.gatherer.Fits)
    {xs ys : List Sample} (hxs : xs.length % e.channels = 0) (hys : ys.length % e.channels = 0)
    {k : κ} {error : EncodeError} (hfailed : (e.encode xs k).outcome = .error error) :
    Alike ((e.encode xs k).andThen fun e k => e.flush k)
      ((e.encode (xs ++ ys) k).andThen fun e k => e.flush k) := by
  have hjoin := Encoder.alike_encode_append hready hfits hxs hys k
  rw [Step.andThen_of_error _ hfailed] at hjoin ⊢
  rw [Step.andThen_of_error _ (hjoin.outcome.trans hfailed)]
  exact hjoin.symm

/-- A file whose source delivers its bytes is encoded with all samples of
its data. -/
theorem encodeWave_delivers {r : ρ} {bytes : List UInt8} (hr : Source.Delivers r bytes)
    (hs : header.format.Sound)
    (hwhole : header.available bytes % header.format.blockAlign = 0) {e : Encoder σ η}
    (hchannels : e.channels = header.format.channels) (hready : e.state = .ready)
    (hfits : e.gatherer.Fits) (k : κ) (total : Option FrameCount) (reported : FrameCount) :
    ∃ s, encodeWave (⟨.ofHeader header r, e, k⟩ : Transcoding σ η κ ρ) total reported #[]
        = .ofStep s ∧
      Alike s ((e.encode (header.format.encoding.samples (bytes.take (header.available bytes)))
        k).andThen fun e k => e.flush k) := by
  obtain ⟨delivered, rest, hrun⟩ := encodeWave_frames
    (t := (⟨.ofHeader header r, e, k⟩ : Transcoding σ η κ ρ))
    (Source.givesFrames_delivers header.format.blockAlign) ⟨rfl, hr, hwhole⟩ hs hchannels hready
    hfits total reported #[]
  obtain ⟨s, ho, halike⟩ := hrun.alike
  obtain rfl := hrun.split
  have hroom := hrun.room
  rw [room_ofHeader] at hroom
  refine ⟨s, ho, halike.trans ?_⟩
  -- What was read is the front of the data, and all of them unless a block failed.
  have hdata : (delivered ++ rest).take (header.available (delivered ++ rest)) = delivered
      ++ rest.take (header.available (delivered ++ rest) - delivered.length) := by
    rw [List.take_append, List.take_of_length_le (by omega)]
  have hempty : ∀ x : Step σ η κ Unit, x.after (#[] : Array Event).toList = x := fun _ => rfl
  rw [hempty, hdata]
  rcases hrun.all with hnone | hno | ⟨error, herror⟩
  · rw [hroom, hnone, Nat.add_zero, Nat.sub_self, List.take_zero, List.append_nil]
    exact .refl _
  · exact hno.elim
  · obtain ⟨hwidth, hxs⟩ := hs.whole_samples hrun.whole
    have hbehind : (rest.take (header.available (delivered ++ rest) - delivered.length)).length
        % header.format.blockAlign = 0 := by
      rw [hroom, Nat.add_sub_cancel_left, List.length_take_of_le (Wave.Reader.room_le _ _)]
      exact hrun.reader.whole
    have hys := (hs.whole_samples hbehind).2
    rw [← hchannels] at hxs hys
    rw [Wave.Encoding.samples_append _ hwidth]
    exact alike_of_failed hready hfits hxs hys herror

end Command

end Packetizer

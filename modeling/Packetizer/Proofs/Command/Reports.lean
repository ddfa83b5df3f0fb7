import Mathlib.Data.List.Chain
import Packetizer.Proofs.Audio.SampleRate
import Packetizer.Proofs.Command.FileLoop
import Packetizer.Proofs.Encoder.LinearStream
import Packetizer.Proofs.Encoder.Restart
import Packetizer.Proofs.Wave.Bounds
import Packetizer.Rehearsal.Devices
import Packetizer.Rehearsal.ScriptedCodec

/-!
# `Packetizer.Proofs.Command.Reports`: the progress that is reported

The loop over a file reports its progress when ten more seconds have been
encoded since the last report. `marks` are the turns of the loop as far as
reports go: what happened, the length then, and the length at the last report.

Three numbers are kept in three places: the reader knows the bytes that remain,
the encoder the frames that it was given, and the loop the length at the last
report. `Transcoding.Within` ties the first two together. Each frame is paid
for by bytes that no longer remain, so the frames never exceed those that the
header states. A turn keeps that (`Within.next`) and takes back no frame. So the
length at the last report is behind the length now, and the difference of both
is what it says. Nor is it ever ten seconds or more when a turn is over, because
that is when a report is due (`lastTurn_within`).
-/

set_option autoImplicit false

namespace Packetizer

/-! ### The frames of an encoder -/

section
variable {σ η κ : Type} [CodecSession σ] [RemapHook η] [Sink κ]

/-- A move counts the frames that it accepts. -/
theorem Move.framesIn {e e' : Encoder σ η} {k k' : κ} {accepted : List Sample}
    {events : List Event} (h : Move e k accepted events e' k') :
    e'.framesIn = e.framesIn + .ofSamples accepted.length e.channels := by
  have hnone : e.framesIn = e.framesIn + .ofSamples 0 e.channels := by simp
  cases h with
  | idle => exact hnone
  | hook => exact hnone
  | accept => rfl
  | fail => exact hnone
  | flush => exact hnone

/-- A block counts as no more frames than it has, and those of the encoder stay. -/
theorem Encoder.framesIn_encode {e : Encoder σ η} (hfits : e.gatherer.Fits)
    (samples : List Sample) (k : κ)
    (hroom : e.framesIn.toNat + samples.length / e.channels < UInt64.size) :
    let e' := (e.encode samples k).encoder
    e.framesIn.toNat ≤ e'.framesIn.toNat ∧
      e'.framesIn.toNat ≤ e.framesIn.toNat + samples.length / e.channels := by
  have hmove := e.move_encode hfits samples k
  have hlen : ((e.encode samples k).accepted samples).length ≤ samples.length := by
    unfold Step.accepted
    split
    · exact Nat.le_refl _
    · exact Nat.zero_le _
  have hless := Nat.div_le_div_right (c := e.channels) hlen
  generalize (e.encode samples k).accepted samples = accepted at hmove hless
  have hcount : (FrameCount.ofSamples accepted.length e.channels).toNat
      = accepted.length / e.channels :=
    UInt64.toNat_ofNat_of_lt (by simp only [UInt64.size] at *; omega)
  dsimp only
  rw [hmove.framesIn, FrameCount.toNat_add (by omega), hcount]
  omega

end

/-! ### One turn -/

variable {σ η κ ρ : Type} {header : Wave.Header} {stated : Nat} {t : Transcoding σ η κ ρ}

/-- The frames that were encoded and the bytes that remain are within the data. -/
structure Transcoding.Within (header : Wave.Header) (stated : Nat) (t : Transcoding σ η κ ρ) :
    Prop where
  reader : t.reader.header = header
  channels : t.encoder.channels = header.format.channels
  fits : t.encoder.gatherer.Fits
  room : ∃ remaining, t.reader.remaining = some remaining ∧
    t.encoder.framesIn.toNat * header.format.blockAlign + remaining ≤ stated

variable [CodecSession σ] [RemapHook η] [Sink κ] [Source ρ]

namespace Transcoding.Within

/-- A turn keeps within the data, whatever comes of it, and no frame is taken
back. -/
theorem next (h : t.Within header stated) (hs : header.format.Sound)
    (hstated : stated < UInt64.size) {turn : Turn σ η κ ρ} (hturn : t.next = turn) :
    turn.after.Within header stated ∧ turn.after.encoder.settings = t.encoder.settings ∧
      t.encoder.framesIn.toNat ≤ turn.after.encoder.framesIn.toNat := by
  obtain ⟨remaining, hremaining, hroom⟩ := h.room
  have hpos := hs.blockAlign_pos
  subst hturn
  unfold Transcoding.next
  rcases t.reader.next_cases t.encoder.quantum with
    ⟨error, -, hnext⟩ | ⟨bytes, -, hle, hnext⟩
  · rw [hnext]
    exact ⟨⟨h.reader, h.channels, h.fits, remaining, hremaining, hroom⟩, rfl, Nat.le_refl _⟩
  have hbytes : bytes.length ≤ remaining := Nat.le_trans hle (Wave.Reader.wanted_le hremaining)
  have hleft : t.reader.remaining.map (· - bytes.length) = some (remaining - bytes.length) := by
    rw [hremaining, Option.map_some]
  have hcount := Wave.Reader.length_decode h.reader hs bytes
  have hwhole := Nat.div_mul_le_self bytes.length header.format.blockAlign
  rw [hnext]
  dsimp only
  cases hsamples : t.reader.decode bytes with
  | nil =>
      refine ⟨⟨h.reader, h.channels, h.fits, _, hleft, ?_⟩, rfl, Nat.le_refl _⟩
      show t.encoder.framesIn.toNat * header.format.blockAlign + _ ≤ stated
      omega
  | cons sample samples =>
      have hframes : (sample :: samples).length / t.encoder.channels
          = bytes.length / header.format.blockAlign := by
        rw [← hsamples, hcount, h.channels, Nat.mul_div_cancel _ hs.channels_pos]
      have hfew : t.encoder.framesIn.toNat ≤ t.encoder.framesIn.toNat * header.format.blockAlign :=
        Nat.le_mul_of_pos_right _ hpos
      have hfewer := Nat.div_le_self bytes.length header.format.blockAlign
      have hmove := t.encoder.move_encode h.fits (sample :: samples) t.sink
      obtain ⟨hmore, hmost⟩ := t.encoder.framesIn_encode h.fits (sample :: samples) t.sink
        (by omega)
      rw [hframes] at hmost
      have hpaid := Nat.mul_le_mul_right header.format.blockAlign hmost
      rw [Nat.add_mul] at hpaid
      refine ⟨⟨h.reader, ?_, hmove.fits h.fits, _, hleft, ?_⟩, hmove.settings, hmore⟩
      · exact (congrArg Geometry.channels hmove.geometry).trans h.channels
      · show (t.encoder.encode (sample :: samples) t.sink).encoder.framesIn.toNat * _ + _ ≤ _
        omega

omit [CodecSession σ] [RemapHook η] [Sink κ] [Source ρ] in
/-- So there are no more frames than the data have. -/
theorem frames_le (h : t.Within header stated) (hs : header.format.Sound) :
    t.encoder.framesIn.toNat ≤ stated / header.format.blockAlign := by
  obtain ⟨remaining, -, hroom⟩ := h.room
  rw [Nat.le_div_iff_mul_le hs.blockAlign_pos]
  omega

end Transcoding.Within

namespace Command

/-! ### The turns of the loop -/

/-- A turn that encoded a block, and what there is to report behind it. -/
structure Mark where
  events : List Event
  /-- The frames that were encoded by then. -/
  length : FrameCount
  /-- The length at the last report. -/
  reported : FrameCount
  rate : SampleRate

namespace Mark

/-- Whether the turn is reported. -/
def isDue (m : Mark) : Bool := Command.isDue m.length m.reported m.rate

/-- The length at the last report, the one of this turn included. -/
def latest (m : Mark) : FrameCount := if m.isDue then m.length else m.reported

/-- The part of a stream that is reported, in percent. -/
def percent (m : Mark) (total : FrameCount) : Nat := m.length.toNat * 100 / total.toNat

/-- The events of the turn and of its report. -/
def log (total : Option FrameCount) (m : Mark) : List Event :=
  if m.isDue then m.events ++ [.logged (progress m.length total m.rate)] else m.events

end Mark

/-- The turns that encode a block, up to the first one that does not. -/
def marks (t : Transcoding σ η κ ρ) (reported : FrameCount) : List Mark :=
  match _h : t.next with
  | .encoded (.ok ()) after events =>
      let mark : Mark :=
        ⟨events, after.encoder.framesIn, reported, after.encoder.settings.rate⟩
      mark :: marks after mark.latest
  | _ => []
termination_by t.size
decreasing_by exact Transcoding.size_lt_of_encoded t _h

/-- The events of the last turn, with those of the flush at the end of the file. -/
def closing : Turn σ η κ ρ → List Event
  | .ended after events => events ++ (after.encoder.flush after.sink).events
  | .unreadable _ _ events => events
  | .encoded _ _ events => events

/-- A block that was encoded makes a mark. -/
theorem marks_of_encoded {after : Transcoding σ η κ ρ} {events : List Event}
    (h : t.next = .encoded (.ok ()) after events) (reported : FrameCount) :
    let mark : Mark := ⟨events, after.encoder.framesIn, reported, after.encoder.settings.rate⟩
    marks t reported = mark :: marks after mark.latest ∧ t.lastTurn = after.lastTurn := by
  intro mark
  rw [marks, Transcoding.lastTurn]
  constructor
  · split
    next hturn =>
      rw [h] at hturn
      cases hturn
      rfl
    next hno => exact absurd h (hno after events)
  · split
    next hturn =>
      rw [h] at hturn
      cases hturn
      rfl
    next hno => exact absurd h (hno after events)

/-- Any other turn makes none and is the last one. -/
theorem marks_of_last (h : ∀ after events, t.next ≠ .encoded (.ok ()) after events)
    (reported : FrameCount) : marks t reported = [] ∧ t.lastTurn = t.next := by
  rw [marks, Transcoding.lastTurn]
  constructor
  · split
    next hturn => exact absurd hturn (h _ _)
    next => rfl
  · split
    next hturn => exact absurd hturn (h _ _)
    next => rfl

/-- The loop causes the events of its turns, with the reports that are due. -/
theorem events_encodeWave (t : Transcoding σ η κ ρ) (total : Option FrameCount)
    (reported : FrameCount) (done : Array Event) :
    (encodeWave t total reported done).events
      = done.toList ++ (marks t reported).flatMap (Mark.log total) ++ closing t.lastTurn := by
  fun_induction encodeWave t total reported done with
  | case1 t reported done error after events hturn =>
      obtain ⟨hmarks, hlast⟩ := marks_of_last (t := t) (by simp [hturn]) reported
      simp [hmarks, hlast, hturn, closing]
  | case2 t reported done after events hturn step =>
      obtain ⟨hmarks, hlast⟩ := marks_of_last (t := t) (by simp [hturn]) reported
      simp [hmarks, hlast, hturn, closing, step]
  | case3 t reported done error after events hturn =>
      obtain ⟨hmarks, hlast⟩ := marks_of_last (t := t) (by simp [hturn]) reported
      simp [hmarks, hlast, hturn, closing]
  | case4 t reported done after events hturn rate length hdue report ih =>
      obtain ⟨hmarks, hlast⟩ := marks_of_encoded hturn reported
      have hmark : Mark.isDue ⟨events, length, reported, rate⟩ = true := hdue
      rw [ih, hlast, hmarks]
      simp [Mark.latest, Mark.log, length, rate, report, hmark]
  | case5 t reported done after events hturn rate length hdue ih =>
      obtain ⟨hmarks, hlast⟩ := marks_of_encoded hturn reported
      have hmark : Mark.isDue ⟨events, length, reported, rate⟩ = false :=
        Bool.eq_false_iff.mpr hdue
      rw [ih, hlast, hmarks]
      simp [Mark.latest, Mark.log, length, rate, hmark]

/-! ### What is reported -/

/-- A turn that encodes no block leaves the frames as they were. -/
theorem framesIn_of_last (hfits : t.encoder.gatherer.Fits)
    (h : ∀ after events, t.next ≠ .encoded (.ok ()) after events) :
    t.next.after.encoder.framesIn = t.encoder.framesIn := by
  unfold Transcoding.next at h ⊢
  dsimp only at h ⊢
  split
  · rfl
  · rfl
  next sample samples hsamples =>
    rw [hsamples] at h
    dsimp only at h
    have hmove := t.encoder.move_encode hfits (sample :: samples) t.sink
    cases hout : (t.encoder.encode (sample :: samples) t.sink).outcome with
    | error error =>
        rw [Step.accepted_of_error hout] at hmove
        exact hmove.framesIn.trans (by simp)
    | ok _ =>
        rw [hout] at h
        exact absurd rfl (h _ _)

/-- One turn after the other: the length at the last report is behind the length
now, all are within the data, and reports are ten seconds apart. -/
theorem marks_within (h : t.Within header stated) (hs : header.format.Sound)
    (hstated : stated < UInt64.size) (reported : FrameCount)
    (hbehind : reported.toNat ≤ t.encoder.framesIn.toNat) :
    let rate := t.encoder.settings.rate
    (∀ m ∈ marks t reported, m.reported.toNat ≤ m.length.toNat ∧
      m.length.toNat ≤ stated / header.format.blockAlign ∧ m.rate = rate) ∧
    List.IsChain (fun a b => a + reportSeconds * rate.hz.toNat ≤ b)
      (reported.toNat :: ((marks t reported).filter Mark.isDue).map (·.length.toNat)) := by
  fun_induction marks t reported with
  | case1 t reported after events hturn mark ih =>
      obtain ⟨hwithin, hsettings, hmore⟩ := h.next hs hstated hturn
      have hgrown : reported.toNat ≤ mark.length.toNat := Nat.le_trans hbehind hmore
      intro rate
      have hrate : after.encoder.settings.rate = rate := congrArg Settings.rate hsettings
      have hlatest : mark.latest.toNat ≤ after.encoder.framesIn.toNat := by
        unfold Mark.latest
        split
        · exact Nat.le_refl _
        · exact hgrown
      obtain ⟨hmarks, hspaced⟩ := ih hwithin hlatest
      rw [hrate] at hmarks hspaced
      constructor
      · simp only [List.mem_cons, forall_eq_or_imp]
        exact ⟨⟨hgrown, hwithin.frames_le hs, hrate⟩, hmarks⟩
      cases hdue : mark.isDue with
      | true =>
          -- The report is ten seconds behind the last one, and the next is counted from it.
          have hapart : rate.hz.toNat * reportSeconds ≤ (mark.length - mark.reported).toNat := by
            rw [← hrate]
            exact of_decide_eq_true hdue
          rw [FrameCount.toNat_sub hgrown, Nat.mul_comm] at hapart
          rw [Mark.latest, if_pos hdue] at hspaced
          rw [List.filter_cons_of_pos hdue, List.map_cons, List.isChain_cons_cons, Mark.latest,
            if_pos hdue]
          exact ⟨by omega, hspaced⟩
      | false =>
          have hnot : ¬ mark.isDue = true := Bool.eq_false_iff.mp hdue
          rw [Mark.latest, if_neg hnot] at hspaced ⊢
          rw [List.filter_cons_of_neg hnot]
          exact hspaced
  | case2 t reported hno => simp

/-- The frames that the encoder has counted in the end are those of the last
turn: the flush behind it accepts no samples. -/
theorem framesIn_encodeWave (t : Transcoding σ η κ ρ) (total : Option FrameCount)
    (reported : FrameCount) (done : Array Event) :
    (encodeWave t total reported done).encoder.framesIn = t.lastTurn.after.encoder.framesIn := by
  fun_induction encodeWave t total reported done with
  | case1 t reported done error after events hturn =>
      rw [(marks_of_last (t := t) (by simp [hturn]) reported).2, hturn]
      rfl
  | case2 t reported done after events hturn step =>
      rw [(marks_of_last (t := t) (by simp [hturn]) reported).2, hturn]
      show step.encoder.framesIn = after.encoder.framesIn
      rw [(after.encoder.move_flush after.sink).framesIn]
      simp
  | case3 t reported done error after events hturn =>
      rw [(marks_of_last (t := t) (by simp [hturn]) reported).2, hturn]
      rfl
  | case4 t reported done after events hturn rate length hdue report ih =>
      rw [ih, (marks_of_encoded hturn reported).2]
  | case5 t reported done after events hturn rate length hdue ih =>
      rw [ih, (marks_of_encoded hturn reported).2]

/-- The last turn is within the data too. The frames that were encoded since the
last report last less than ten seconds, so no report is left out. -/
theorem lastTurn_within (h : t.Within header stated) (hs : header.format.Sound)
    (hstated : stated < UInt64.size) (reported : FrameCount)
    (hbehind : reported.toNat ≤ t.encoder.framesIn.toNat)
    (hrecent : t.encoder.framesIn.toNat
      < reported.toNat + reportSeconds * t.encoder.settings.rate.hz.toNat) :
    t.lastTurn.after.Within header stated ∧
      t.lastTurn.after.encoder.framesIn.toNat
        < (((marks t reported).filter Mark.isDue).map (·.length.toNat)).getLastD reported.toNat
          + reportSeconds * t.encoder.settings.rate.hz.toNat := by
  fun_induction marks t reported with
  | case1 t reported after events hturn mark ih =>
      obtain ⟨hwithin, hsettings, hmore⟩ := h.next hs hstated hturn
      have hgrown : reported.toNat ≤ mark.length.toNat := Nat.le_trans hbehind hmore
      have hrate : after.encoder.settings.rate = t.encoder.settings.rate :=
        congrArg Settings.rate hsettings
      rw [(marks_of_encoded hturn reported).2]
      cases hdue : mark.isDue with
      | true =>
          -- The turns that follow are counted from this report.
          rw [Mark.latest, if_pos hdue, hrate] at ih
          rw [List.filter_cons_of_pos hdue, List.map_cons, List.getLastD_cons, Mark.latest,
            if_pos hdue]
          exact ih hwithin (Nat.le_refl _) (Nat.lt_add_of_pos_right
            (Nat.mul_pos (by decide) t.encoder.settings.rate.hz_pos))
      | false =>
          have hnot : ¬ mark.isDue = true := Bool.eq_false_iff.mp hdue
          rw [Mark.latest, if_neg hnot, hrate] at ih
          rw [List.filter_cons_of_neg hnot, Mark.latest, if_neg hnot]
          refine ih hwithin hgrown ?_
          -- It is not due, so the last report is less than ten seconds behind.
          have hapart : ¬ after.encoder.settings.rate.hz.toNat * reportSeconds
              ≤ (mark.length - mark.reported).toNat := of_decide_eq_false hdue
          rw [FrameCount.toNat_sub hgrown, Nat.mul_comm, hrate] at hapart
          show mark.length.toNat < reported.toNat + _
          omega
  | case2 t reported hno =>
      rw [(marks_of_last hno reported).2]
      refine ⟨(h.next hs hstated rfl).1, ?_⟩
      rw [framesIn_of_last h.fits hno]
      exact hrecent

/-! ### Whole files -/

section
variable {γ : Type} [Codec γ σ] {codec : γ} {base settings : Settings} {hook : Option η}
  {e : Encoder σ η} {opening : List Event}

omit [Sink κ] [Source ρ] [RemapHook η] in
/-- An encoder for a file has the channels of the file. -/
theorem channels_of_start {format : Wave.Format}
    (hcodec : ∀ s, (Codec.complete codec s).channels = s.channels)
    (hsettings : base.ofWave format = .ok settings)
    (hstart : Encoder.start codec settings hook = .ready e opening) :
    e.channels = format.channels := by
  obtain ⟨s, log, g, -, hchannels, -, rfl⟩ := Encoder.ofSession_of_start hstart
  have hcount : settings.channels.toNat = format.channels := by
    unfold Settings.ofWave at hsettings
    split at hsettings
    · cases hsettings
    next hfew =>
      split at hsettings
      · cases hsettings
      · cases hsettings
        refine UInt8.toNat_ofNat_of_lt ?_
        show format.channels < 256
        omega
  show g.channels = _
  rw [hchannels, hcodec, hcount]

omit [Sink κ] [Source ρ] [RemapHook η] in
/-- The loop begins within the data: no frame was encoded, and all bytes remain. -/
theorem within_of_start (hcodec : ∀ s, (Codec.complete codec s).channels = s.channels)
    (hsettings : base.ofWave header.format = .ok settings)
    (hstart : Encoder.start codec settings hook = .ready e opening)
    (hdata : header.dataBytes = some stated) (source : ρ) (k : κ) :
    (⟨.ofHeader header source, e, k⟩ : Transcoding σ η κ ρ).Within header stated := by
  obtain ⟨s, log, -, hfresh⟩ := Encoder.fresh_of_start hstart
  refine ⟨rfl, channels_of_start hcodec hsettings hstart,
    QuantumBuffer.fits_of_carried hfresh.carried, stated, hdata, ?_⟩
  show e.framesIn.toNat * _ + stated ≤ stated
  rw [hfresh.framesIn]
  show 0 * _ + stated ≤ stated
  omega

/-- Progress is reported as it should be. A file states the size of its data, one
frame at least, and is read from any source, whole or cut off. Then the length
at the last report is never above the length now. Successive reports are ten
seconds apart or more, and the frames behind the last one last less. Each is a
percentage up to a hundred, and none is below the one before. That is so because
the frames never exceed those that the header states. -/
theorem reports_within_total {ρ₀ : Type} [Source ρ₀] {r : ρ₀} {total : FrameCount}
    (hcodec : ∀ s, (Codec.complete codec s).channels = s.channels)
    (hread : (Wave.readHeader r).outcome = .ok header)
    (htotal : header.frames = some total) (hsome : total.isZero = false)
    (hsettings : base.ofWave header.format = .ok settings)
    (hstart : Encoder.start codec settings hook = .ready e opening) (source : ρ) (k : κ) :
    let t : Transcoding σ η κ ρ := ⟨.ofHeader header source, e, k⟩
    let o := encodeWave t header.frames .zero #[]
    let turns := marks t .zero
    let reports := turns.filter Mark.isDue
    o.events = turns.flatMap (Mark.log header.frames) ++ closing t.lastTurn ∧
      (∀ m ∈ turns, m.reported.toNat ≤ m.length.toNat ∧ m.length.toNat ≤ total.toNat ∧
        m.length.toNat * 100 < UInt64.size) ∧
      List.IsChain (fun a b => a + 10 * e.settings.rate.hz.toNat ≤ b)
        (0 :: reports.map (·.length.toNat)) ∧
      (∀ m ∈ reports, progress m.length header.frames m.rate = .progressPercent (m.percent total) ∧
        m.percent total ≤ 100) ∧
      (reports.map (·.percent total)).Pairwise (· ≤ ·) ∧
      o.encoder.framesIn.toNat ≤ total.toNat ∧
      o.encoder.framesIn.toNat
        < (reports.map (·.length.toNat)).getLastD 0 + 10 * e.settings.rate.hz.toNat := by
  intro t o turns reports
  have hheader := Wave.readHeader_sound hread
  have hs := hheader.format
  obtain ⟨stated, hdata, hframes⟩ := Option.map_eq_some_iff.mp htotal
  have hstated : stated < 2 ^ 32 := hheader.stated stated hdata
  have hword : stated < UInt64.size := by
    simp only [UInt64.size]
    omega
  have hcount : total.toNat = stated / header.format.blockAlign := by
    rw [← hframes]
    exact UInt64.toNat_ofNat_of_lt (Nat.lt_of_le_of_lt (Nat.div_le_self _ _) hword)
  have hwithin : t.Within header stated :=
    within_of_start hcodec hsettings hstart hdata source k
  obtain ⟨hall, hspaced⟩ := marks_within hwithin hs hword .zero (Nat.zero_le _)
  have hreports := hspaced.tail
  rw [List.tail_cons] at hreports
  have htotals : ∀ m ∈ turns, m.length.toNat ≤ total.toNat := by
    intro m hm
    rw [hcount]
    exact (hall m hm).2.1
  -- Nothing was encoded before the first turn.
  have hnone : t.encoder.framesIn.toNat < FrameCount.zero.toNat
      + reportSeconds * t.encoder.settings.rate.hz.toNat := by
    obtain ⟨s, log, -, hfresh⟩ := Encoder.fresh_of_start hstart
    rw [show t.encoder.framesIn = .zero from hfresh.framesIn]
    exact Nat.lt_add_of_pos_right (Nat.mul_pos (by decide) t.encoder.settings.rate.hz_pos)
  obtain ⟨hend, hlate⟩ := lastTurn_within hwithin hs hword .zero (Nat.zero_le _) hnone
  have hcounted := framesIn_encodeWave t header.frames .zero #[]
  refine ⟨?_, ?_, ?_, ?_, ?_, ?_, ?_⟩
  · simpa using events_encodeWave t header.frames .zero #[]
  · intro m hm
    have hle := htotals m hm
    have hfew := Nat.div_le_self stated header.format.blockAlign
    refine ⟨(hall m hm).1, hle, ?_⟩
    simp only [UInt64.size]
    omega
  · exact hspaced
  · intro m hm
    constructor
    · rw [htotal, progress, hsome]
      rfl
    · have hle := htotals m (List.mem_of_mem_filter hm)
      exact Nat.div_le_of_le_mul (Nat.mul_le_mul_right 100 hle)
  · have hgrowing : List.IsChain (fun a b => a * 100 / total.toNat ≤ b * 100 / total.toNat)
        (reports.map (·.length.toNat)) := by
      refine hreports.imp fun a b hab => Nat.div_le_div_right (Nat.mul_le_mul_right 100 ?_)
      omega
    rw [List.isChain_map] at hgrowing
    rw [← List.isChain_iff_pairwise, List.isChain_map]
    exact hgrowing
  · rw [hcount, hcounted]
    exact hend.frames_le hs
  · rw [hcounted]
    exact hlate

/-- A file that is delivered whole is encoded to its end as 16-bit audio, if the
sink never fails. -/
theorem framesIn_of_delivers {header : Wave.Header} {settings : Settings}
    {hook : Option A52Order} {e : Encoder Linear16.Session A52Order} {opening : List Event}
    (hstart : Encoder.start Linear16.linear16 settings hook = .ready e opening)
    (hcode : 2 * ((settings.framesPerPacket.getD Linear16.defaultFrames).toNat
      * settings.channels.toNat) ≤ Linear16.maxCode)
    (hchannels : e.channels = header.format.channels) (hs : header.format.Sound) {r : ρ}
    {bytes : List UInt8} (hr : Source.Delivers r bytes)
    (hwhole : header.available bytes % header.format.blockAlign = 0) {k : κ}
    (hk : Sink.NeverFails k) (total : Option FrameCount) (reported : FrameCount) :
    (encodeWave (⟨.ofHeader header r, e, k⟩ : Transcoding _ A52Order κ ρ) total reported
      #[]).encoder.framesIn
      = .ofNat (header.available bytes / header.format.blockAlign) := by
  obtain ⟨_, _, -, hfresh⟩ := Encoder.fresh_of_start hstart
  obtain ⟨s, hpacks, -, -⟩ := Encoder.packs_of_start hstart hcode
  obtain ⟨step, hout, halike⟩ :=
    encodeWave_delivers hr hs hwhole hchannels hpacks.state hpacks.fits k total reported
  have hall : (bytes.take (header.available bytes)).length
      = header.available bytes / header.format.blockAlign * header.format.blockAlign := by
    rw [Nat.div_mul_cancel (Nat.dvd_of_mod_eq_zero hwhole)]
    exact List.length_take_of_le (Wave.Reader.room_le (.ofHeader header r) bytes)
  have hcount := hs.length_samples hall
  generalize header.format.encoding.samples (bytes.take (header.available bytes)) = samples
    at halike hcount
  have hframes : samples.length % e.channels = 0 := by
    rw [hcount, hchannels, Nat.mul_mod_left]
  obtain ⟨hok, hpacks', hsink, -⟩ := hpacks.encode hk hframes
  -- Neither the block nor the flush fails, so the frames are those of the block.
  have hend : step.outcome = .ok () := by
    rw [halike.outcome, Step.andThen_of_ok _ hok]
    exact (hpacks'.flush hsink).1
  rw [hout]
  show step.encoder.framesIn = _
  rw [halike.encoder_of_ok hend, Step.andThen_of_ok _ hok]
  show ((e.encode samples k).encoder.flush (e.encode samples k).sink).encoder.framesIn = _
  have hmove := e.move_encode hpacks.fits samples k
  rw [Step.accepted_of_ok hok] at hmove
  rw [(Encoder.move_flush _ _).framesIn, hmove.framesIn, hfresh.framesIn, hcount, hchannels]
  simp [FrameCount.ofSamples, Nat.mul_div_cancel _ hs.channels_pos]

open Rehearsal in
/-- Nine bytes are two frames and a quarter. They come in short pieces, with more
bytes behind them. Twelve and a half seconds are long enough for a report, and
the first one is at eighty percent or later. -/
theorem reports_within_total_scripted :
    let front : List UInt8 := Wave.chunkName "RIFF" ++ [0, 0, 0, 0] ++ Wave.chunkName "WAVE"
      ++ Wave.chunkName "fmt " ++ [16, 0, 0, 0]
    (let head := front ++ [3, 0, 1, 0, 0x40, 0x1F, 0, 0, 0, 0x7D, 0, 0, 4, 0, 32, 0]
        ++ Wave.chunkName "data" ++ [9, 0, 0, 0]
      let header : Wave.Header := ⟨⟨.f32, 1, 8000, 4, 4⟩, some 9⟩
      let source : ScriptedSource :=
        ⟨List.replicate 20 5, [.deliver 3 none, .interrupt, .deliver 1 none], true, 44⟩
      let codec : ScriptedCodec := ⟨⟨1⟩, 8, none, []⟩
      let settings : Settings := { channels := 1, rate := .hz8000, speakers := some 4 }
      ∃ (e : Encoder ScriptedSession Hook) (opening : List Event),
        (Wave.readHeader (⟨head, [], true, 0⟩ : ScriptedSource)).outcome = .ok header ∧
        Settings.ofWave {} header.format = .ok settings ∧
        Encoder.start codec settings (some Hook.reverse) = .ready e opening ∧
        let t : Transcoding ScriptedSession Hook ScriptedSink ScriptedSource :=
          ⟨.ofHeader header source, e, ⟨[]⟩⟩
        t.next.after.encoder.framesIn = ⟨1⟩ ∧
          (∀ m ∈ marks t .zero, m.reported.toNat ≤ m.length.toNat ∧ m.length.toNat ≤ 2) ∧
          (encodeWave t header.frames .zero #[]).encoder.framesIn.toNat ≤ 2) ∧
      let head := front ++ [1, 0, 1, 0, 0x40, 0x1F, 0, 0, 0x40, 0x1F, 0, 0, 1, 0, 8, 0]
        ++ Wave.chunkName "data" ++ [0xA0, 0x86, 1, 0]
      let header : Wave.Header := ⟨⟨.u8, 1, 8000, 1, 4⟩, some 100000⟩
      let source : ScriptedSource := ⟨List.replicate 100000 200, [.deliver 3 none], true, 44⟩
      let base : Settings := { framesPerPacket := some ⟨8⟩ }
      let settings : Settings := { base with channels := 1, rate := .hz8000, speakers := some 4 }
      ∃ (e : Encoder Linear16.Session A52Order) (opening : List Event),
        (Wave.readHeader (⟨head, [], true, 0⟩ : ScriptedSource)).outcome = .ok header ∧
        base.ofWave header.format = .ok settings ∧
        Encoder.start Linear16.linear16 settings none = .ready e opening ∧
        let t : Transcoding Linear16.Session A52Order ScriptedSink ScriptedSource :=
          ⟨.ofHeader header source, e, ⟨[]⟩⟩
        let reports := (marks t .zero).filter Mark.isDue
        (encodeWave t header.frames .zero #[]).encoder.framesIn = ⟨100000⟩ ∧
          ∃ m later, reports = m :: later ∧ 80000 ≤ m.length.toNat ∧
            progress m.length header.frames m.rate = .progressPercent (m.percent ⟨100000⟩) ∧
            80 ≤ m.percent ⟨100000⟩ ∧ m.percent ⟨100000⟩ ≤ 100 := by
  intro front
  constructor
  · intro head header source codec settings
    have hread : (Wave.readHeader (⟨head, [], true, 0⟩ : ScriptedSource)).outcome
        = .ok header := by decide +kernel
    have htotal : header.frames = some ⟨2⟩ := by decide
    have hsettings : Settings.ofWave {} header.format = .ok settings := rfl
    have hstart : Encoder.start codec settings (some Hook.reverse) = .ready _ _ := rfl
    obtain ⟨-, hturns, -, -, -, hcount, -⟩ := reports_within_total Settings.channels_fillLayout
      hread htotal rfl hsettings hstart source (⟨[]⟩ : ScriptedSink)
    refine ⟨_, _, hread, hsettings, hstart, ?_, fun m hm => ?_, hcount⟩
    · cbv
    · exact ⟨(hturns m hm).1, (hturns m hm).2.1⟩
  · intro head header source base settings
    have hread : (Wave.readHeader (⟨head, [], true, 0⟩ : ScriptedSource)).outcome
        = .ok header := by decide +kernel
    have htotal : header.frames = some ⟨100000⟩ := by decide
    have hsettings : base.ofWave header.format = .ok settings := rfl
    have hstart : Encoder.start Linear16.linear16 settings (none : Option A52Order)
      = .ready _ _ := rfl
    have hkept := fun s => Linear16.fills.channels_complete s
    have hsink : Sink.NeverFails (⟨[]⟩ : ScriptedSink) := ScriptedSink.neverFails (by decide)
    have hr : Source.Delivers source (List.replicate 100000 200) :=
      ScriptedSource.delivers (by decide)
    have halign : header.format.blockAlign = 1 := rfl
    have havailable : header.available (List.replicate 100000 200) = 100000 := by
      show min 100000 (List.replicate 100000 (200 : UInt8)).length = 100000
      rw [List.length_replicate, Nat.min_self]
    have hcount := framesIn_of_delivers hstart (by decide) rfl
      (Wave.readHeader_sound hread).format hr (by rw [halign, Nat.mod_one]) hsink
      header.frames .zero
    rw [havailable, halign, Nat.div_one] at hcount
    obtain ⟨-, -, hspaced, hpercent, -, -, hlate⟩ := reports_within_total hkept hread htotal rfl
      hsettings hstart source (⟨[]⟩ : ScriptedSink)
    refine ⟨_, _, hread, hsettings, hstart, hcount, ?_⟩
    rw [hcount] at hlate
    -- Without a report fewer than eighty thousand frames would have been encoded.
    cases hreports : (marks (⟨.ofHeader header source, _, ⟨[]⟩⟩ :
        Transcoding Linear16.Session A52Order ScriptedSink ScriptedSource) .zero).filter
          Mark.isDue with
    | nil =>
        rw [hreports] at hlate
        exact absurd hlate (by decide)
    | cons m later =>
        rw [hreports, List.map_cons, List.isChain_cons_cons] at hspaced
        obtain ⟨hprogress, hmost⟩ := hpercent m (by rw [hreports]; exact List.mem_cons_self)
        have hlength : 0 + 10 * SampleRate.hz8000.hz.toNat ≤ m.length.toNat := hspaced.1
        rw [show 0 + 10 * SampleRate.hz8000.hz.toNat = 80000 by decide] at hlength
        refine ⟨m, later, rfl, hlength, hprogress, ?_, hmost⟩
        show 80 ≤ m.length.toNat * 100 / 100000
        omega

end

end Command

end Packetizer

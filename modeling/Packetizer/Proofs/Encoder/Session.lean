import Packetizer.Proofs.Encoder.Run

/-!
# `Packetizer.Proofs.Encoder.Session`: the session behind an encoder

Everything that happens to a codec session is told by the calls of the
codec. A `Replay` makes those calls again, one after the other, and so
knows the session, the frame buffer and each answer of the codec.

`Holds` ties an encoder to the replay of its events: it holds that very
session with that very frame buffer until it is closed, then the
session is released, and the events tell of one release. It is an
invariant of every run (`holds_run`), failures included, since an
encoder that failed still holds its session.
-/

set_option autoImplicit false

namespace Packetizer

/-- A codec session and the frame buffer that it writes into, with the
answers it gave so far. -/
structure Replay (σ : Type) where
  session : σ
  frame : FrameBuffer
  answers : List (Coded σ)

namespace Replay

variable {σ : Type} [CodecSession σ]

/-- A session that was not called yet, with an empty frame buffer. -/
def start (s : σ) : Replay σ := ⟨s, .zeros (CodecSession.maxCodedSize s), []⟩

/-- One more call. -/
def call (p : Replay σ) (given : List Sample) : Replay σ :=
  let coded := CodecSession.encodeQuantum p.session p.frame given
  ⟨coded.session, coded.frame, p.answers ++ [coded]⟩

/-- Some more calls. -/
def after (p : Replay σ) (calls : List CodecCall) : Replay σ :=
  calls.foldl (fun p c => p.call c.given) p

@[simp] theorem after_nil (p : Replay σ) : p.after [] = p := rfl

@[simp] theorem after_singleton (p : Replay σ) (c : CodecCall) :
    p.after [c] = p.call c.given := rfl

@[simp] theorem after_append (p : Replay σ) (calls more : List CodecCall) :
    p.after (calls ++ more) = (p.after calls).after more :=
  List.foldl_append

end Replay

/-- The replay of the calls that the events tell of. -/
def replay {σ : Type} [CodecSession σ] (s : σ) (events : List Event) : Replay σ :=
  (Replay.start s).after (codecCalls events)

section
variable {σ : Type} [CodecSession σ] (s : σ) (events later : List Event) (log : List Message)

/-- Later events are replayed behind those before. -/
theorem replay_append :
    replay s (events ++ later) = (replay s events).after (codecCalls later) := by
  rw [replay, codecCalls_append, Replay.after_append]
  rfl

/-- Events without a call of the codec leave the replay as it is. -/
theorem replay_quiet (h : codecCalls later = []) :
    replay s (events ++ later) = replay s events := by
  rw [replay_append, h, Replay.after_nil]

/-- The log is not replayed. -/
@[simp] theorem replay_ofLog : replay s (events ++ Event.ofLog log) = replay s events :=
  replay_quiet s events _ (codecCalls_ofLog log)

end

/-- The events that a batch causes among lines of the log are replayed
without those. -/
theorem replay_logged {σ : Type} [CodecSession σ] (s : σ) (events later : List Event)
    (before after : List Message) :
    replay s (events ++ (Event.ofLog before ++ later ++ Event.ofLog after))
      = (replay s events).after (codecCalls later) := by
  rw [replay_append, codecCalls_logged]

/-! ### Writers that follow a replay -/

/-- The writer holds the session of the replay and its frame buffer. -/
structure PacketWriter.Follows {σ η : Type} (w : PacketWriter σ η) (p : Replay σ) : Prop where
  lease : w.lease = .held p.session
  frame : w.frame = p.frame

section
variable {σ η κ : Type} [CodecSession σ] [RemapHook η] [Sink κ]

/-- A call of the codec is a call of the replay, which gives the same
answer, and the answer is settled. -/
theorem PacketWriter.Follows.emit {w : PacketWriter σ η} {p : Replay σ} (h : w.Follows p)
    (k : κ) (samples : List Sample) :
    ∃ given coded, codecCalls (w.emit k samples).events = [⟨samples, given, coded.code⟩] ∧
      (p.call given).answers = p.answers ++ [coded] ∧
      (w.emit k samples).writer.Follows (p.call given) ∧
      releases (w.emit k samples).events = 0 ∧
      Settled w.packets w.bytes coded (w.emit k samples) := by
  obtain ⟨given, hreports⟩ := emit_of_held h.lease k samples
  have hcalls := hreports.calls
  have hlease := hreports.lease
  have hframe := hreports.frame
  have hsettled := hreports.settled
  rw [h.frame] at hcalls hlease hframe hsettled
  exact ⟨given, _, hcalls, rfl, ⟨hlease, hframe⟩, hreports.releases, hsettled⟩

/-- A batch of calls of the codec is calls of the replay. -/
theorem Batch.follows {w w' : PacketWriter σ η} {k k' : κ} {quanta : List (List Sample)}
    {outcome : Except EncodeError Unit} {events : List Event}
    (h : Batch w k quanta outcome w' k' events) {p : Replay σ} (hp : w.Follows p) :
    w'.Follows (p.after (codecCalls events)) ∧ releases events = 0 ∧
      (p.after (codecCalls events)).answers.map Coded.code
        = p.answers.map Coded.code ++ (codecCalls events).map CodecCall.code := by
  induction h generalizing p with
  | nil => exact ⟨hp, rfl, (List.append_nil _).symm⟩
  | @broken w k quantum error failed =>
      obtain ⟨given, coded, hcalls, hanswers, hfollows, hreleases, -⟩ := hp.emit k quantum
      rw [hcalls, Replay.after_singleton, hanswers, List.map_append]
      exact ⟨hfollows, hreleases, rfl⟩
  | @cons w w' k k' quantum quanta outcome events n made rest ih =>
      obtain ⟨given, coded, hcalls, hanswers, hfollows, hreleases, -⟩ := hp.emit k quantum
      obtain ⟨hfollows', hreleases', hcodes⟩ := ih hfollows
      rw [codecCalls_append, hcalls, Replay.after_append, Replay.after_singleton, hcodes,
        hanswers]
      refine ⟨hfollows', ?_, ?_⟩
      · rw [releases_append, hreleases, hreleases']
      · rw [List.map_append, List.append_assoc]
        rfl

end

/-! ### Encoders -/

namespace Encoder

variable {σ η : Type} [CodecSession σ]

/-- The encoder holds the session that the events tell of, or has
released it once. -/
structure Holds (s : σ) (events : List Event) (e : Encoder σ η) : Prop where
  held : e.state ≠ .closed → e.writer.lease = .held (replay s events).session
  released : e.state = .closed →
    e.writer.lease = .released (CodecSession.close (replay s events).session)
  frame : e.writer.frame = (replay s events).frame
  codes : (replay s events).answers.map Coded.code = (codecCalls events).map CodecCall.code
  counted : releases events = if e.state = .closed then 1 else 0

namespace Holds

variable {s : σ} {events : List Event} {e : Encoder σ η}

/-- A ready encoder follows the replay. -/
theorem follows (h : Holds s events e) (hready : e.state = .ready) :
    e.writer.Follows (replay s events) where
  lease := h.held (by rw [hready]; nofun)
  frame := h.frame

/-- The log tells nothing of the session. -/
theorem log (h : Holds s events e) (log : List Message) :
    Holds s (events ++ Event.ofLog log) e := by
  constructor
  · rw [replay_ofLog]
    exact h.held
  · rw [replay_ofLog]
    exact h.released
  · rw [replay_ofLog]
    exact h.frame
  · rw [replay_ofLog, codecCalls_append, codecCalls_ofLog, List.append_nil]
    exact h.codes
  · rw [releases_append, releases_ofLog]
    exact h.counted

/-- After a batch the encoder holds the session as the batch left it. -/
theorem batch [RemapHook η] {κ : Type} [Sink κ] {k k' : κ} {quanta : List (List Sample)}
    {outcome : Except EncodeError Unit} {w : PacketWriter σ η} {later : List Event}
    (h : Holds s events e) (hready : e.state = .ready)
    (hbatch : Batch e.writer k quanta outcome w k' later) {e' : Encoder σ η}
    (hwriter : e'.writer = w) (hstate : e'.state ≠ .closed) :
    Holds s (events ++ later) e' := by
  obtain ⟨hfollows, hreleases, hcodes⟩ := hbatch.follows (h.follows hready)
  rw [← replay_append] at hfollows hcodes
  constructor
  · intro _
    rw [hwriter]
    exact hfollows.lease
  · intro hclosed
    exact absurd hclosed hstate
  · rw [hwriter]
    exact hfollows.frame
  · rw [hcodes, h.codes, codecCalls_append, List.map_append]
  · rw [releases_append, h.counted, hreleases, hready, if_neg hstate]
    rfl

/-- A move keeps hold of the session. -/
theorem move [RemapHook η] {κ : Type} [Sink κ] {k k' : κ} {accepted : List Sample}
    {later : List Event} {e' : Encoder σ η} (h : Holds s events e)
    (hmove : Move e k accepted later e' k') : Holds s (events ++ later) e' := by
  cases hmove with
  | idle log => exact h.log log
  | hook hook =>
      rw [List.append_nil]
      exact ⟨h.held, h.released, h.frame, h.codes, h.counted⟩
  | accept before after ready whole gathers batch =>
      rw [← List.append_assoc, ← List.append_assoc]
      refine Holds.log ((h.log before).batch ready batch rfl ?_) after
      show e.state ≠ .closed
      rw [ready]
      nofun
  | fail before after ready spent geometry batch =>
      rw [← List.append_assoc, ← List.append_assoc]
      exact Holds.log ((h.log before).batch ready batch rfl (by nofun)) after
  | flush before after ready batch =>
      rw [← List.append_assoc, ← List.append_assoc]
      exact Holds.log ((h.log before).batch ready batch rfl (by nofun)) after

/-- Closing releases the session, unless it was released before. -/
theorem close (h : Holds s events e) : Holds s (events ++ e.close.2) e.close.1 := by
  have hreplay := replay_quiet s events e.close.2 e.still_close.calls
  have hafter :
      e.close.1.writer.lease = .released (CodecSession.close (replay s events).session) ∧
      e.close.1.writer.frame = e.writer.frame ∧ releases (events ++ e.close.2) = 1 := by
    by_cases hclosed : e.state = .closed
    · have hlease := h.released hclosed
      rw [close_of_released e hlease, List.append_nil, h.counted, if_pos hclosed]
      exact ⟨hlease, rfl, rfl⟩
    · -- This is the one release.
      have hlease := h.held hclosed
      rw [close_of_held e hlease, releases_append, h.counted, if_neg hclosed]
      exact ⟨rfl, rfl, rfl⟩
  obtain ⟨hlease, hframe, hcount⟩ := hafter
  constructor
  · intro hopen
    exact absurd rfl hopen
  · intro _
    rw [hreplay]
    exact hlease
  · rw [hreplay, hframe]
    exact h.frame
  · rw [hreplay, codecCalls_append, e.still_close.calls, List.append_nil]
    exact h.codes
  · exact hcount

end Holds

/-- Moves and closing keep hold of the session. -/
theorem invariant_holds [RemapHook η] (s : σ) :
    Run.Invariant fun _ events (e : Encoder σ η) => Holds s events e where
  move h hmove := h.move hmove
  close h := h.close

/-- An encoder that was started holds the session that was opened. -/
theorem Fresh.holds {γ : Type} [Codec γ σ] {codec : γ} {settings : Settings} {s : σ}
    {e : Encoder σ η} (h : e.Fresh codec settings s) (log : List Message) :
    Holds s (Event.ofLog log) e := by
  have hnone : Holds s [] e := by
    constructor
    · intro _
      exact h.lease
    · intro hclosed
      rw [h.state] at hclosed
      cases hclosed
    · exact h.frame
    · rfl
    · rw [h.state]
      rfl
  exact hnone.log log

/-- An encoder that was started keeps hold of its session in every run. -/
theorem Fresh.holds_run [RemapHook η] {κ γ : Type} [Sink κ] [Codec γ σ] {codec : γ}
    {settings : Settings} {s : σ} {e : Encoder σ η} (h : e.Fresh codec settings s)
    (log : List Message) (k : κ) (ops : List (Operation η κ)) :
    Holds s (Event.ofLog log ++ (e.run k ops).events) (e.run k ops).encoder :=
  invariant_run (invariant_holds s) (QuantumBuffer.fits_of_carried h.carried) (h.holds log) k ops

end Encoder

end Packetizer

import Packetizer.Proofs.Encoder.Answers
import Packetizer.Proofs.Rehearsal.Devices

/-!
# `Packetizer.Proofs.Encoder.FirstFailure`: the first bad result code

A run of blocks and a flush on a sink that never fails is decided by the
result codes of the codec. Without a code that is no number of bytes in
the frame buffer all goes well. Otherwise the first such code ends it
(`first_failure_decides`): the operation that made the call fails with the
code and the number of packets before, those behind it are refused, and
the codec is not called again.

`FailsAt` says which operation it is and what the others answer. The
induction is on the blocks (`judged_stream`): a step is judged by the
answers in it (`JudgedStep`), and either it goes well and the rest of the
run is judged behind it, or the encoder is spent and does nothing more.
-/

set_option autoImplicit false

namespace Packetizer

/-- Where nothing was done but releasing the session, the codec was not
called. -/
theorem Quiet.codecCalls {events : List Event} (h : Quiet events) :
    Packetizer.codecCalls events = [] := by
  refine List.filterMap_eq_nil_iff.mpr fun event hevent => ?_
  cases event with
  | coded gathered given code =>
      cases h _ (List.mem_filter.mpr ⟨hevent, rfl⟩)
  | logged | remapped | wrote | released => rfl

/-- The operations of a stream: its blocks, and then a flush. -/
def Operation.stream {η κ : Type} (blocks : List (List Sample)) : List (Operation η κ) :=
  blocks.map .encode ++ [.flush]

section
variable {σ η κ : Type} [CodecSession σ] [RemapHook η] [Sink κ]

namespace Encoder

/-! ### One operation -/

/-- A step of an encoder whose writer followed the replay, judged by the
answers in it. If it went well the encoder is in the state `goal`. -/
structure JudgedStep (p : Replay σ) (e : Encoder σ η) (k : κ) (goal : EncoderState)
    (x : Step σ η κ Unit) : Prop where
  follows : x.encoder.writer.Follows (p.after (codecCalls x.events))
  judged : ∃ answers, (p.after (codecCalls x.events)).answers = p.answers ++ answers ∧
    Judged k e.packets answers x.outcome x.events x.encoder.packets
  later : Sink.Later k x.sink
  good : x.outcome = .ok () → x.encoder.state = goal
  bad : ∀ error, x.outcome = .error error → x.encoder.state = .failed ∧ x.encoder.carried = 0

variable {p : Replay σ} {e : Encoder σ η} {k : κ}

/-- A step is judged by the answers to the batch that it is made of. -/
theorem judgedStep_of_batch {goal : EncoderState} {x : Step σ η κ Unit}
    {quanta : List (List Sample)} {events : List Event} (before after : List Message)
    (hp : e.writer.Follows p) (hk : Sink.NeverFails k)
    (hbatch : Batch e.writer k quanta x.outcome x.encoder.writer x.sink events)
    (hevents : x.events = Event.ofLog before ++ events ++ Event.ofLog after)
    (good : x.outcome = .ok () → x.encoder.state = goal)
    (bad : ∀ error, x.outcome = .error error →
      x.encoder.state = .failed ∧ x.encoder.carried = 0) : JudgedStep p e k goal x := by
  obtain ⟨answers, hanswers, hjudged, hlater⟩ := hbatch.judged hp hk
  have hcalls : codecCalls x.events = codecCalls events := by
    rw [hevents, codecCalls_logged]
  refine ⟨?_, ⟨answers, ?_, ?_⟩, hlater, good, bad⟩
  · rw [hcalls]
    exact (hbatch.follows hp).1
  · rw [hcalls]
    exact hanswers
  · rw [hevents]
    exact hjudged.logged before after

/-- Encoding a block is judged. -/
theorem judged_encode (hready : e.state = .ready) (hfits : e.gatherer.Fits)
    (hp : e.writer.Follows p) (hk : Sink.NeverFails k) {block : List Sample}
    (hwhole : block.length % e.channels = 0) :
    JudgedStep p e k .ready (e.encode block k) := by
  rcases encode_cases hready hfits hwhole k with
    ⟨quanta, b, w, k', events, before, after, -, hbatch, heq⟩ |
    ⟨quanta, error, b, w, k', events, before, after, -, hspent, -, hbatch, heq⟩
  · rw [heq]
    exact judgedStep_of_batch before after hp hk hbatch rfl (fun _ => hready) nofun
  · rw [heq]
    exact judgedStep_of_batch before after hp hk hbatch rfl nofun fun _ _ => ⟨rfl, hspent⟩

/-- Flushing is judged, and carries nothing any more. -/
theorem judged_flush (hready : e.state = .ready) (hp : e.writer.Follows p)
    (hk : Sink.NeverFails k) :
    JudgedStep p e k .flushed (e.flush k) ∧ (e.flush k).encoder.carried = 0 := by
  obtain ⟨n, hbatch⟩ := e.writer.batch_emitAll k e.gatherer.pending
  rw [flush_of_ready hready]
  dsimp only
  cases hout : (e.writer.emitAll k e.gatherer.pending).outcome with
  | error error =>
      rw [hout] at hbatch
      dsimp only
      rw [fail_of_fatal _ hbatch.fatal, ← List.append_nil (_ ++ _)]
      exact ⟨judgedStep_of_batch _ [] hp hk hbatch rfl nofun fun _ _ => ⟨rfl, rfl⟩, rfl⟩
  | ok m =>
      rw [hout] at hbatch
      exact ⟨judgedStep_of_batch _ _ hp hk hbatch rfl (fun _ => rfl) nofun, rfl⟩

omit [RemapHook η] in
/-- Where a step failed the codec was called. -/
theorem JudgedStep.calls_ne_nil {goal : EncoderState} {x : Step σ η κ Unit}
    (h : JudgedStep p e k goal x) {error : EncodeError} (herr : x.outcome = .error error) :
    codecCalls x.events ≠ [] := by
  intro hnone
  obtain ⟨answers, hanswers, hjudged⟩ := h.judged
  rw [hnone, Replay.after_nil] at hanswers
  rw [List.self_eq_append_right.mp hanswers, herr] at hjudged
  generalize hnil : ([] : List (Coded σ)) = none at hjudged
  cases hjudged with
  | failed =>
      -- The answer that failed was an answer to some call.
      exact absurd hnil.symm (List.append_ne_nil_of_right_ne_nil _ (List.cons_ne_nil _ _))

/-! ### Runs -/

/-- What some operations answer, one after the other. -/
def outcomes (e : Encoder σ η) (k : κ) : List (Operation η κ) → List (Except EncodeError Unit)
  | [] => []
  | op :: ops => op.outcome e k :: (op.perform e k).encoder.outcomes (op.perform e k).sink ops

/-- A run that begins with an operation. -/
theorem run_cons (e : Encoder σ η) (k : κ) (op : Operation η κ) (ops : List (Operation η κ)) :
    e.run k (op :: ops) =
      let s := op.perform e k
      let r := s.encoder.run s.sink ops
      ⟨r.encoder, r.sink, s.accepted ++ r.accepted, s.events ++ r.events⟩ :=
  run_append e k [op] ops

/-- The encoder refuses some operations, and they change nothing. -/
structure Refuses (e : Encoder σ η) (k : κ) (ops : List (Operation η κ)) : Prop where
  run : e.run k ops = ⟨e, k, [], []⟩
  outcomes : e.outcomes k ops = ops.map fun _ => .error .finalized

theorem refuses_nil (e : Encoder σ η) (k : κ) : e.Refuses k [] := ⟨rfl, rfl⟩

theorem refuses_cons {op : Operation η κ} {ops : List (Operation η κ)}
    (hop : op.perform e k = ⟨e, k, [], []⟩) (herr : op.outcome e k = .error .finalized)
    (h : e.Refuses k ops) : e.Refuses k (op :: ops) where
  run := by
    rw [run_cons, hop]
    dsimp only
    rw [h.run]
    rfl
  outcomes := by
    rw [Encoder.outcomes, hop, herr, h.outcomes]
    rfl

/-- An encoder that is not ready refuses the rest of a stream. -/
theorem refuses_stream (hspent : e.state ≠ .ready) (k : κ) (blocks : List (List Sample)) :
    e.Refuses k (Operation.stream blocks) := by
  induction blocks with
  | nil =>
      refine refuses_cons ?_ ?_ (refuses_nil e k)
      · rw [Operation.perform, flush_of_ne hspent]
      · rw [Operation.outcome, flush_of_ne hspent]
  | cons block blocks ih =>
      refine refuses_cons ?_ ?_ ih
      · rw [Operation.perform, encode_of_ne hspent]
        rfl
      · rw [Operation.outcome, encode_of_ne hspent]

/-- In a row of operations this one fails. Those before it answer well and
those behind it are refused, and the codec is called in it for the last
time. -/
structure FailsAt (e : Encoder σ η) (k : κ) (before : List (Operation η κ))
    (op : Operation η κ) (after : List (Operation η κ)) (error : EncodeError) : Prop where
  outcomes : e.outcomes k (before ++ op :: after) =
    before.map (fun _ => .ok ()) ++ .error error :: after.map fun _ => .error .finalized
  last : codecCalls (e.run k (before ++ [op])).events
    = codecCalls (e.run k (before ++ op :: after)).events
  fewer : (codecCalls (e.run k before).events).length
    < (codecCalls (e.run k (before ++ op :: after)).events).length

namespace FailsAt

variable {first op : Operation η κ} {before after : List (Operation η κ)} {error : EncodeError}

/-- A failure of the first operation. -/
theorem here (herr : op.outcome e k = .error error)
    (hrefuses : (op.perform e k).encoder.Refuses (op.perform e k).sink after)
    (hcalls : codecCalls (op.perform e k).events ≠ []) : e.FailsAt k [] op after error where
  outcomes := by
    rw [List.nil_append, Encoder.outcomes, herr, hrefuses.outcomes]
    rfl
  last := by
    rw [List.nil_append, List.nil_append, run_cons, run_cons]
    dsimp only
    rw [hrefuses.run]
    rfl
  fewer := by
    rw [List.nil_append, run_cons]
    dsimp only
    rw [hrefuses.run]
    dsimp only
    rw [List.append_nil]
    exact List.length_pos_iff.mpr hcalls

/-- A failure behind an operation that went well. -/
theorem behind (hok : first.outcome e k = .ok ())
    (h : (first.perform e k).encoder.FailsAt (first.perform e k).sink before op after error) :
    e.FailsAt k (first :: before) op after error where
  outcomes := by
    rw [List.cons_append, Encoder.outcomes, hok, h.outcomes]
    rfl
  last := by
    rw [List.cons_append, List.cons_append, run_cons, run_cons]
    dsimp only
    rw [codecCalls_append, codecCalls_append, h.last]
  fewer := by
    have hfewer := h.fewer
    rw [List.cons_append, run_cons, run_cons]
    dsimp only
    rw [codecCalls_append, codecCalls_append, List.length_append, List.length_append]
    omega

end FailsAt

/-- A run that ends the stream, judged by the answers in it. -/
structure JudgedRun (p : Replay σ) (e : Encoder σ η) (k : κ) (ops : List (Operation η κ))
    (answers : List (Coded σ)) (outcome : Except EncodeError Unit) : Prop where
  replayed : (p.after (codecCalls (e.run k ops).events)).answers = p.answers ++ answers
  judged : Judged k e.packets answers outcome (e.run k ops).events (e.run k ops).encoder.packets
  carried : (e.run k ops).encoder.carried = 0
  good : outcome = .ok () →
    (e.run k ops).encoder.state = .flushed ∧ e.outcomes k ops = ops.map fun _ => .ok ()
  bad : ∀ error, outcome = .error error → (e.run k ops).encoder.state = .failed ∧
    ∃ before op after, ops = before ++ op :: after ∧ e.FailsAt k before op after error

/-- A flush alone is a run that ends the stream. -/
theorem judgedRun_flush (hready : e.state = .ready) (hp : e.writer.Follows p)
    (hk : Sink.NeverFails k) : ∃ answers outcome, JudgedRun p e k [.flush] answers outcome := by
  obtain ⟨hstep, hcarried⟩ := judged_flush hready hp hk
  obtain ⟨answers, hanswers, hjudged⟩ := hstep.judged
  refine ⟨answers, (e.flush k).outcome, hanswers, hjudged, hcarried, ?_, ?_⟩
  · intro hok
    exact ⟨hstep.good hok, congrArg (fun x => [x]) hok⟩
  · intro error herr
    exact ⟨(hstep.bad error herr).1, [], .flush, [], rfl,
      .here herr (refuses_nil _ _) (hstep.calls_ne_nil herr)⟩

/-- A block that fails ends the run, since what is behind it is refused. -/
theorem judgedRun_of_failed {block : List Sample} {ops : List (Operation η κ)}
    {goal : EncoderState} (hstep : JudgedStep p e k goal (e.encode block k)) {error : EncodeError}
    (herr : (e.encode block k).outcome = .error error)
    (hrefuses : (e.encode block k).encoder.Refuses (e.encode block k).sink ops) :
    ∃ answers, JudgedRun p e k (.encode block :: ops) answers (.error error) := by
  obtain ⟨hfailed, hcarried⟩ := hstep.bad error herr
  obtain ⟨answers, hanswers, hjudged⟩ := hstep.judged
  have hsame : e.run k (.encode block :: ops)
      = ⟨(e.encode block k).encoder, (e.encode block k).sink,
        (e.encode block k).accepted block ++ [], (e.encode block k).events ++ []⟩ := by
    rw [run_cons]
    dsimp only [Operation.perform]
    rw [hrefuses.run]
  rw [List.append_nil, List.append_nil] at hsame
  rw [herr] at hjudged
  refine ⟨answers, ?_⟩
  constructor
  · rw [hsame]
    exact hanswers
  · rw [hsame]
    exact hjudged
  · rw [hsame]
    exact hcarried
  · nofun
  · rintro _ ⟨⟩
    rw [hsame]
    exact ⟨hfailed, [], .encode block, ops, rfl, .here herr hrefuses (hstep.calls_ne_nil herr)⟩

/-- Behind a block that went well, the rest of the run is judged on. -/
theorem judgedRun_of_ok {block : List Sample} {ops : List (Operation η κ)}
    {goal : EncoderState} (hstep : JudgedStep p e k goal (e.encode block k))
    (hok : (e.encode block k).outcome = .ok ()) {more : List (Coded σ)}
    {outcome : Except EncodeError Unit}
    (hmore : JudgedRun (p.after (codecCalls (e.encode block k).events)) (e.encode block k).encoder
      (e.encode block k).sink ops more outcome) :
    ∃ answers, JudgedRun p e k (.encode block :: ops) answers outcome := by
  obtain ⟨answers, hanswers, hjudged⟩ := hstep.judged
  rw [hok] at hjudged
  have hrun := e.run_cons k (.encode block) ops
  refine ⟨answers ++ more, ?_⟩
  constructor
  · rw [hrun]
    dsimp only [Operation.perform]
    rw [codecCalls_append, Replay.after_append, hmore.replayed, hanswers, List.append_assoc]
  · rw [hrun]
    exact hjudged.append hstep.later hmore.judged
  · rw [hrun]
    exact hmore.carried
  · intro hgood
    obtain ⟨hflushed, hall⟩ := hmore.good hgood
    rw [hrun]
    exact ⟨hflushed, congrArg₂ List.cons hok hall⟩
  · intro error herr
    obtain ⟨hfailed, before, op, after, hops, hat⟩ := hmore.bad error herr
    rw [hrun]
    exact ⟨hfailed, .encode block :: before, op, after, congrArg (_ :: ·) hops, hat.behind hok⟩

/-- A stream is judged by the answers to all the calls in it. -/
theorem judged_stream (hready : e.state = .ready) (hfits : e.gatherer.Fits)
    (hp : e.writer.Follows p) (hk : Sink.NeverFails k) {blocks : List (List Sample)}
    (hwhole : ∀ block ∈ blocks, block.length % e.channels = 0) :
    ∃ answers outcome, JudgedRun p e k (Operation.stream blocks) answers outcome := by
  induction blocks generalizing e k p with
  | nil => exact judgedRun_flush hready hp hk
  | cons block blocks ih =>
      have hstep := judged_encode hready hfits hp hk (hwhole block List.mem_cons_self)
      cases hout : (e.encode block k).outcome with
      | error error =>
          -- The encoder is spent, and refuses the blocks that are left and the flush.
          have hspent : (e.encode block k).encoder.state ≠ .ready := by
            rw [(hstep.bad error hout).1]
            nofun
          obtain ⟨answers, hrun⟩ := judgedRun_of_failed hstep hout (refuses_stream hspent _ blocks)
          exact ⟨answers, .error error, hrun⟩
      | ok _ =>
          have hmove := move_encode hfits block k
          have hchannels : (e.encode block k).encoder.channels = e.channels :=
            congrArg Geometry.channels hmove.geometry
          obtain ⟨more, outcome, hmore⟩ := ih (hstep.good hout) (hmove.fits hfits) hstep.follows
            (hk.later hstep.later) fun b hb => by
              rw [hchannels]
              exact hwhole b (List.mem_cons_of_mem _ hb)
          obtain ⟨answers, hrun⟩ := judgedRun_of_ok hstep hout hmore
          exact ⟨answers, outcome, hrun⟩

/-! ### Whole streams -/

omit [CodecSession σ] [RemapHook η] [Sink κ] in
theorem countP_code (answers : List (Coded σ)) :
    answers.countP Coded.isPacket = (answers.map Coded.code).countP fun code => 0 < code := by
  rw [List.countP_map]
  rfl

/-- The first bad result code decides a stream of blocks and a flush on a
sink that never fails. If there is none, all operations answer well and
the sink has all packets. If there is one, the codec is not called again:
the operation that called it fails with the code and the number of packets
before, the operations behind it are refused, and the sink has the packets
before and nothing else. -/
theorem first_failure_decides {γ : Type} [Codec γ σ] {codec : γ} {settings : Settings}
    {hook : Option η} {first : Encoder σ η} {opening : List Event}
    (hstart : start codec settings hook = .ready first opening) {k : κ}
    (hk : Sink.NeverFails k) {blocks : List (List Sample)}
    (hwhole : ∀ block ∈ blocks, block.length % first.channels = 0) :
    ∃ s, first.session = some s ∧
      let size := CodecSession.maxCodedSize s
      let ops : List (Operation η κ) := blocks.map .encode ++ [.flush]
      let r := first.run k ops
      let codes := (codecCalls r.events).map CodecCall.code
      let answers := (replay s r.events).answers
      answers.map Coded.code = codes ∧ r.encoder.carried = 0 ∧
      (((∀ code ∈ codes, CountsBytes size code) ∧
          first.outcomes k ops = ops.map (fun _ => .ok ()) ∧ r.encoder.state = .flushed ∧
          Sink.PutsIn k (packetsOf answers) (writes r.events)) ∨
        ∃ done last before op after, codes = done ++ [last] ∧
          (∀ code ∈ done, CountsBytes size code) ∧ ¬ CountsBytes size last ∧
          ops = before ++ op :: after ∧
          first.FailsAt k before op after (.coding (done.countP fun code => 0 < code) last) ∧
          r.encoder.state = .failed ∧
          Sink.PutsIn k (packetsOf (answers.take done.length)) (writes r.events) ∧
          ∀ more, codecCalls (first.run k (ops ++ more)).events = codecCalls r.events) := by
  obtain ⟨s, log, -, hfresh⟩ := fresh_of_start hstart
  have hfits := QuantumBuffer.fits_of_carried hfresh.carried
  refine ⟨s, by rw [session, hfresh.lease]; rfl, ?_⟩
  intro size ops r codes answers
  have hfollows : first.writer.Follows (Replay.start s) := ⟨hfresh.lease, hfresh.frame⟩
  obtain ⟨all, outcome, hrun⟩ := judged_stream hfresh.state hfits hfollows hk hwhole
  have hholds : Holds s r.events r.encoder := hfresh.holds_run [] k ops
  have hcodes : answers.map Coded.code = codes := hholds.codes
  have hall : answers = all := hrun.replayed
  have hbegin : (Replay.start s).Sized size := ⟨rfl, fun _ hnone => absurd hnone List.not_mem_nil⟩
  have hsized : (replay s r.events).Sized size := hbegin.after _
  -- Every answer left the frame buffer as large as it was in the beginning.
  have hbytes : ∀ done : List (Coded σ), done <+: answers → (∀ c ∈ done, ¬ c.IsFailure) →
      ∀ code ∈ done.map Coded.code, CountsBytes size code := by
    intro done hdone hsound code hcode
    obtain ⟨coded, hmem, rfl⟩ := List.mem_map.mp hcode
    exact (Coded.not_isFailure_iff (hsized.answers coded (hdone.subset hmem))).mp
      (hsound coded hmem)
  refine ⟨hcodes, hrun.carried, ?_⟩
  have hgood := hrun.good
  have hbad := hrun.bad
  have hjudged := hrun.judged
  cases hjudged with
  | sound sound puts counted =>
      obtain ⟨hflushed, hall'⟩ := hgood rfl
      rw [← hall] at sound puts
      refine .inl ⟨?_, hall', hflushed, puts⟩
      rw [← hcodes]
      exact hbytes answers (List.prefix_refl _) sound
  | @failed done last _ _ sound failure puts counted =>
      obtain ⟨hfailed, before, op, after, hops, hat⟩ := hbad _ rfl
      have hdone : done <+: answers := ⟨[last], hall.symm⟩
      have hlast : ¬ CountsBytes size last.code := by
        have hmem : last ∈ answers := by
          rw [hall]
          exact List.mem_append_right _ (List.mem_singleton_self last)
        rw [← Coded.not_isFailure_iff (hsized.answers last hmem)]
        exact not_not_intro failure
      have hspent : r.encoder.state ≠ .ready := by
        rw [show r.encoder.state = .failed from hfailed]
        nofun
      refine .inr ⟨done.map Coded.code, last.code, before, op, after, ?_,
        hbytes done hdone sound, hlast, hops, ?_, hfailed, ?_, fun more => ?_⟩
      · rw [← hcodes, hall, List.map_append]
        rfl
      · rw [counted, show first.packets = 0 from hfresh.packets, Nat.zero_add, countP_code] at hat
        exact hat
      · rw [List.length_map, hall, List.take_left]
        exact puts
      · -- The encoder is spent, and whatever follows is inert.
        obtain ⟨hinert, -⟩ := inert_run hspent r.sink more
        rw [run_append]
        dsimp only
        rw [codecCalls_append, hinert.quiet.codecCalls, List.append_nil]

open Rehearsal in
/-- The fourth code announces a byte more than there are. The call with it
is the third one of the second block, and two packets are in the sink by
then, the first one in pieces. -/
theorem first_failure_decides_scripted :
    ∃ (first : Encoder ScriptedSession Hook) (opening : List Event),
      start (⟨⟨2⟩, 8, none, [5, 0, 3, 9]⟩ : ScriptedCodec) {} (some Hook.reverse)
        = .ready first opening ∧
      let k : ScriptedSink := ⟨[.accept 2, .interrupt]⟩
      let blocks : List (List Sample) :=
        [List.replicate 6 ⟨7⟩, List.replicate 12 ⟨8⟩, List.replicate 2 ⟨9⟩]
      let ops : List (Operation Hook ScriptedSink) := blocks.map .encode ++ [.flush]
      let r := first.run k ops
      (∀ block ∈ blocks, block.length % first.channels = 0) ∧ r.encoder.carried = 0 ∧
        writes r.events = [[1, 1], [1, 1, 1], [3, 3, 3]] ∧
        ∃ done last before op after,
          (codecCalls r.events).map CodecCall.code = done ++ [last] ∧
          ops = before ++ op :: after ∧
          first.FailsAt k before op after (.coding (done.countP fun code => 0 < code) last) := by
  have hstart : start (⟨⟨2⟩, 8, none, [5, 0, 3, 9]⟩ : ScriptedCodec) {} (some Hook.reverse)
      = .ready _ _ := rfl
  refine ⟨_, _, hstart, ?_⟩
  intro k blocks ops r
  have hk : Sink.NeverFails k := ScriptedSink.neverFails (by decide)
  have hwhole : ∀ block ∈ blocks, block.length % 2 = 0 := by decide
  have hfailed : r.encoder.state = .failed := by cbv
  obtain ⟨s, -, -, hcarried, hdecided⟩ := first_failure_decides hstart hk hwhole
  refine ⟨hwhole, hcarried, by cbv, ?_⟩
  rcases hdecided with ⟨-, -, hflushed, -⟩ | hdecided
  · cases hfailed.symm.trans hflushed
  · obtain ⟨done, last, before, op, after, hcodes, -, -, hops, hat, -⟩ := hdecided
    exact ⟨done, last, before, op, after, hcodes, hops, hat⟩

end Encoder

end

end Packetizer

import Packetizer.Proofs.Audio.Chunks
import Packetizer.Proofs.Encoder.Run
import Packetizer.Rehearsal.Devices
import Packetizer.Rehearsal.ScriptedCodec

/-!
# `Packetizer.Proofs.Encoder.Chunking`: cutting a stream into blocks

`Encoder.encodeBlocks` encodes some blocks and flushes behind the last
one, and `Alike` says that two such runs cannot be told apart from
outside. `alike_flatten` brings every run to the same form, in which
all blocks are encoded as one: each block is added to those behind it
by `alike_encode_append`, and that rests on `QuantumBuffer.gather_append`.

Two things may differ. The log tells of every block that is gathered.
And the count of frames goes up by whole blocks, so that two runs that
fail in the middle of one have counted a different number of blocks
before it.
-/

set_option autoImplicit false

namespace Packetizer

variable {σ η κ : Type}

/-! ### Steps in a row -/

namespace Step

/-- The same step with more events in front of its own. -/
def after (earlier : List Event) (s : Step σ η κ Unit) : Step σ η κ Unit :=
  { s with events := earlier ++ s.events }

/-- Goes on from a step, unless it failed. -/
def andThen (s : Step σ η κ Unit) (f : Encoder σ η → κ → Step σ η κ Unit) :
    Step σ η κ Unit :=
  match s.outcome with
  | .error _ => s
  | .ok () => (f s.encoder s.sink).after s.events

variable {s : Step σ η κ Unit} (f g : Encoder σ η → κ → Step σ η κ Unit)

/-- Nothing comes after a step that failed. -/
theorem andThen_of_error {error : EncodeError} (h : s.outcome = .error error) :
    s.andThen f = s := by
  rw [andThen, h]

/-- After a step that went well comes the next one. -/
theorem andThen_of_ok (h : s.outcome = .ok ()) :
    s.andThen f = (f s.encoder s.sink).after s.events := by
  rw [andThen, h]

/-- Events in front of the first of two steps are in front of both. -/
theorem after_andThen (earlier : List Event) (s : Step σ η κ Unit) :
    (s.after earlier).andThen f = (s.andThen f).after earlier := by
  cases hs : s.outcome with
  | error error => rw [andThen_of_error f hs, andThen_of_error f (s := s.after earlier) hs]
  | ok a =>
      rw [andThen_of_ok f hs, andThen_of_ok f (s := s.after earlier) hs]
      simp only [after, List.append_assoc]

/-- Steps in a row may be grouped in any way. -/
theorem andThen_assoc (s : Step σ η κ Unit) :
    (s.andThen f).andThen g = s.andThen fun e k => (f e k).andThen g := by
  cases hs : s.outcome with
  | error error => rw [andThen_of_error f hs, andThen_of_error g hs, andThen_of_error _ hs]
  | ok a => rw [andThen_of_ok f hs, andThen_of_ok _ hs, after_andThen]

end Step

/-! ### Runs that look alike -/

/-- Nothing that a codec, a hook or a sink sees tells the two steps
apart, and they leave the same encoder behind, but for the count of
frames of a step that failed. -/
structure Alike (s t : Step σ η κ Unit) : Prop where
  outcome : s.outcome = t.outcome
  sink : s.sink = t.sink
  /-- The buffers given to the hook and to the codec, the result codes
  and the writes. -/
  effects : effects s.events = effects t.events
  /-- What is gathered, the session, the frame buffer, the hook, both
  counts of the output and the state. -/
  encoder : s.encoder = { t.encoder with framesIn := s.encoder.framesIn }
  framesIn : s.outcome = .ok () → s.encoder.framesIn = t.encoder.framesIn

namespace Alike

variable {s t u : Step σ η κ Unit}

theorem refl (s : Step σ η κ Unit) : Alike s s := ⟨rfl, rfl, rfl, rfl, fun _ => rfl⟩

theorem symm (h : Alike s t) : Alike t s where
  outcome := h.outcome.symm
  sink := h.sink.symm
  effects := h.effects.symm
  encoder := by rw [h.encoder]
  framesIn hok := (h.framesIn (h.outcome.trans hok)).symm

theorem trans (h : Alike s t) (h' : Alike t u) : Alike s u where
  outcome := h.outcome.trans h'.outcome
  sink := h.sink.trans h'.sink
  effects := h.effects.trans h'.effects
  encoder := by rw [h.encoder, h'.encoder]
  framesIn hok := (h.framesIn hok).trans (h'.framesIn (h.outcome ▸ hok))

/-- Steps that went well and are alike leave the same encoder. -/
theorem encoder_of_ok (h : Alike s t) (hok : s.outcome = .ok ()) : s.encoder = t.encoder := by
  rw [h.encoder, h.framesIn hok]

/-- Steps that look alike do so behind the same effects. -/
theorem after (h : Alike s t) {earlier earlier' : List Event}
    (hearlier : Packetizer.effects earlier = Packetizer.effects earlier') :
    Alike (s.after earlier) (t.after earlier') where
  outcome := h.outcome
  sink := h.sink
  effects := by
    show Packetizer.effects (earlier ++ s.events) = Packetizer.effects (earlier' ++ t.events)
    rw [effects_append, effects_append, h.effects, hearlier]
  encoder := h.encoder
  framesIn := h.framesIn

/-- What follows on alike steps is alike when the steps that follow are. -/
theorem andThen (h : Alike s t) {f g : Encoder σ η → κ → Step σ η κ Unit}
    (hfg : s.outcome = .ok () → Alike (f s.encoder s.sink) (g s.encoder s.sink)) :
    Alike (s.andThen f) (t.andThen g) := by
  cases hs : s.outcome with
  | error error =>
      rw [Step.andThen_of_error f hs, Step.andThen_of_error g (h.outcome ▸ hs)]
      exact h
  | ok a =>
      have hmore := hfg hs
      rw [Step.andThen_of_ok f hs, Step.andThen_of_ok g (h.outcome ▸ hs), ← h.encoder_of_ok hs,
        ← h.sink]
      exact hmore.after h.effects

end Alike

/-! ### A block in two parts -/

namespace Output

/-- The same output with events in front of its own. -/
def after (earlier : Array Event) (o : Output σ η κ) : Output σ η κ :=
  { o with events := earlier ++ o.events }

variable [CodecSession σ] [RemapHook η] [Sink κ]

/-- Encoding does not look at the events so far. -/
theorem consume_after (earlier : Array Event) (o : Output σ η κ) (quantum : List Sample) :
    consume (o.after earlier) quantum =
      { consume o quantum with consumer := (consume o quantum).consumer.after earlier } := by
  have hevents : earlier ++ o.events ++ (o.writer.emit o.sink quantum).events
      = earlier ++ (o.events ++ (o.writer.emit o.sink quantum).events) := by
    apply Array.ext'
    simp
  simp only [consume, after, hevents]

/-- Gathering that starts with events already there has them in front. -/
theorem gather_after (b : QuantumBuffer) (samples : List Sample) (o : Output σ η κ) (n : Nat) :
    b.gather consume samples o n =
      let g := b.gather consume samples ⟨o.writer, o.sink, #[]⟩ 0
      (g.1.map (n + ·), g.2.1, g.2.2.after o.events) := by
  have hstart : o = after o.events ⟨o.writer, o.sink, #[]⟩ := by
    rw [after, Array.append_empty]
  conv => lhs; rw [hstart, ← Nat.add_zero n]
  rw [QuantumBuffer.gather_completed,
    QuantumBuffer.gather_map consume consume (after o.events) (consume_after o.events)]

end Output

namespace Encoder

variable [CodecSession σ] [RemapHook η] [Sink κ]

/-- The log is all that a ready encoder adds. -/
theorem alike_encodeUnlogged {e : Encoder σ η} (hready : e.state = .ready)
    (hfits : e.gatherer.Fits) {samples : List Sample} (h : samples.length % e.channels = 0)
    (k : κ) : Alike (e.encode samples k) (e.encodeUnlogged samples k) := by
  obtain ⟨before, after, heq⟩ := encode_whole hready hfits h k
  rw [heq]
  exact ⟨rfl, rfl, effects_logged before after _, rfl, fun _ => rfl⟩

/-- Without the log, encoding a block looks like encoding it in two parts. -/
theorem alike_encodeUnlogged_append {e : Encoder σ η} (hfits : e.gatherer.Fits)
    {xs : List Sample} (hxs : xs.length % e.channels = 0) (ys : List Sample) (k : κ) :
    Alike (e.encodeUnlogged (xs ++ ys) k)
      ((e.encodeUnlogged xs k).andThen fun e k => e.encodeUnlogged ys k) := by
  have happend := QuantumBuffer.gather_append Output.consume e.gatherer hfits xs ys
    (⟨e.writer, k, #[]⟩ : Output σ η κ) 0
  have hgeometry := QuantumBuffer.geometry_gather Output.consume e.gatherer xs
    (⟨e.writer, k, #[]⟩ : Output σ η κ) 0
  unfold encodeUnlogged
  rcases hg : e.gatherer.gather Output.consume xs ⟨e.writer, k, #[]⟩ 0 with
    ⟨error | n, b, last⟩
  · -- The first part fails, and nothing behind it is looked at.
    rw [hg] at happend
    rw [happend, Step.andThen_of_error _ rfl]
    exact ⟨rfl, rfl, rfl, rfl, nofun⟩
  · -- The second part goes on with what the first has left.
    rw [hg] at happend hgeometry
    dsimp only at happend hgeometry
    rw [Output.gather_after b ys last n] at happend
    have hgeometry' := QuantumBuffer.geometry_gather Output.consume b ys
      (⟨last.writer, last.sink, #[]⟩ : Output σ η κ) 0
    rw [happend, Step.andThen_of_ok _ rfl]
    dsimp only
    generalize b.gather Output.consume ys ⟨last.writer, last.sink, #[]⟩ 0 = g at hgeometry' ⊢
    obtain ⟨error | m, b', last'⟩ := g
    · refine ⟨rfl, rfl, congrArg effects Array.toList_append, ?_, nofun⟩
      -- In two parts the first one has been counted.
      simp only [Except.map, fail]
      split <;> rfl
    · refine ⟨rfl, rfl, congrArg effects Array.toList_append, rfl, ?_⟩
      intro _
      have hfirst : b.channels = e.channels := congrArg Geometry.channels hgeometry
      have hboth : b'.channels = e.channels :=
        congrArg Geometry.channels (hgeometry'.trans hgeometry)
      show e.framesIn + .ofSamples (xs ++ ys).length b'.channels
        = e.framesIn + .ofSamples xs.length b.channels + .ofSamples ys.length b'.channels
      rw [hfirst, hboth, List.length_append, FrameCount.ofSamples_add hxs, FrameCount.add_assoc]

/-- Encoding nothing changes nothing. -/
theorem encode_nil {e : Encoder σ η} (hready : e.state = .ready) (k : κ) :
    e.encode [] k = ⟨.ok (), e, k, []⟩ := by
  have hzero : e.framesIn + FrameCount.ofSamples 0 e.channels = e.framesIn := by simp
  rw [encode, requireReady_of_ready hready]
  show (⟨_, { e with framesIn := e.framesIn + .ofSamples 0 e.channels }, _, _⟩ : Step σ η κ Unit)
    = _
  rw [hzero]
  rfl

/-- Encoding a block looks like encoding it in two parts. -/
theorem alike_encode_append {e : Encoder σ η} (hready : e.state = .ready)
    (hfits : e.gatherer.Fits) {xs ys : List Sample} (hxs : xs.length % e.channels = 0)
    (hys : ys.length % e.channels = 0) (k : κ) :
    Alike (e.encode (xs ++ ys) k) ((e.encode xs k).andThen fun e k => e.encode ys k) := by
  have hboth := whole_append hxs hys
  have hgeometry := (move_encode hfits xs k).geometry
  have hchannels : (e.encode xs k).encoder.channels = e.channels :=
    congrArg Geometry.channels hgeometry
  have hsecond : (e.encode xs k).outcome = .ok () →
      Alike ((e.encode xs k).encoder.encode ys (e.encode xs k).sink)
        ((e.encode xs k).encoder.encodeUnlogged ys (e.encode xs k).sink) := by
    intro hok
    exact alike_encodeUnlogged (ready_of_encode hready hfits hxs hok)
      ((move_encode hfits xs k).fits hfits) (by rw [hchannels, hys]) _
  -- Leave out the log, take the block apart, and put the log back.
  refine (alike_encodeUnlogged hready hfits hboth k).trans ?_
  refine (alike_encodeUnlogged_append hfits hxs ys k).trans (Alike.symm ?_)
  exact (alike_encodeUnlogged hready hfits hxs k).andThen hsecond

/-! ### Many blocks -/

/-- Encodes some blocks, one after the other, until one fails, and
flushes behind the last. -/
def encodeBlocks (e : Encoder σ η) (k : κ) : List (List Sample) → Step σ η κ Unit
  | [] => e.flush k
  | block :: blocks => (e.encode block k).andThen fun e k => e.encodeBlocks k blocks

/-- Blocks and the flush behind them are moves. -/
theorem moves_encodeBlocks {e : Encoder σ η} (hfits : e.gatherer.Fits) (k : κ)
    (blocks : List (List Sample)) :
    ∃ accepted, Moves e k accepted (e.encodeBlocks k blocks).events
      (e.encodeBlocks k blocks).encoder (e.encodeBlocks k blocks).sink := by
  induction blocks generalizing e k with
  | nil => exact ⟨_, (e.move_flush k).moves⟩
  | cons block blocks ih =>
      have hmove := move_encode hfits block k
      rw [encodeBlocks]
      cases hout : (e.encode block k).outcome with
      | error error =>
          rw [Step.andThen_of_error _ hout]
          exact ⟨_, hmove.moves⟩
      | ok a =>
          obtain ⟨accepted, hmoves⟩ := ih (hmove.fits hfits) (e.encode block k).sink
          rw [Step.andThen_of_ok _ hout]
          exact ⟨_, hmove.moves.trans hmoves⟩

/-- Blocks of whole frames are whole frames together. -/
theorem whole_flatten {channels : Nat} {blocks : List (List Sample)}
    (h : ∀ block ∈ blocks, block.length % channels = 0) :
    blocks.flatten.length % channels = 0 := by
  induction blocks with
  | nil => exact Nat.zero_mod _
  | cons block blocks ih =>
      rw [List.flatten_cons]
      exact whole_append (h block List.mem_cons_self)
        (ih fun b hb => h b (List.mem_cons_of_mem _ hb))

/-- Encoding blocks looks like encoding all of them as one block. -/
theorem alike_flatten {e : Encoder σ η} (hready : e.state = .ready) (hfits : e.gatherer.Fits)
    {blocks : List (List Sample)} (h : ∀ block ∈ blocks, block.length % e.channels = 0) (k : κ) :
    Alike (e.encodeBlocks k blocks)
      ((e.encode blocks.flatten k).andThen fun e k => e.flush k) := by
  induction blocks generalizing e k with
  | nil =>
      rw [List.flatten_nil, encode_nil hready, Step.andThen_of_ok _ rfl]
      exact .refl _
  | cons block blocks ih =>
      have hblock := h block List.mem_cons_self
      have hblocks := whole_flatten fun b hb => h b (List.mem_cons_of_mem _ hb)
      have hmove := move_encode hfits block k
      have hchannels : (e.encode block k).encoder.channels = e.channels :=
        congrArg Geometry.channels hmove.geometry
      -- The blocks behind the first are one block by `ih`, and that joins the first.
      have hbehind : (e.encode block k).outcome = .ok () →
          Alike ((e.encode block k).encoder.encodeBlocks (e.encode block k).sink blocks)
            (((e.encode block k).encoder.encode blocks.flatten (e.encode block k).sink).andThen
              fun e k => e.flush k) := by
        intro hok
        refine ih (ready_of_encode hready hfits hblock hok) (hmove.fits hfits) ?_ _
        intro b hb
        rw [hchannels]
        exact h b (List.mem_cons_of_mem _ hb)
      have hjoin : Alike ((e.encode (block ++ blocks.flatten) k).andThen fun e k => e.flush k)
          (((e.encode block k).andThen fun e k => e.encode blocks.flatten k).andThen
            fun e k => e.flush k) :=
        (alike_encode_append hready hfits hblock hblocks k).andThen fun _ => .refl _
      rw [Step.andThen_assoc] at hjoin
      rw [List.flatten_cons]
      exact (Alike.andThen (.refl (e.encode block k)) hbehind).trans hjoin.symm

/-- The result of a stream does not depend on how it is cut into blocks
of whole frames. A codec, a hook and a sink that fail do so at the same
place. -/
theorem alike_of_flatten_eq {γ : Type} [Codec γ σ] {codec : γ} {e : Encoder σ η}
    (hreachable : e.Reachable codec) (hready : e.state = .ready) (k : κ)
    {blocks blocks' : List (List Sample)}
    (hwhole : ∀ block ∈ blocks, block.length % e.channels = 0)
    (hwhole' : ∀ block ∈ blocks', block.length % e.channels = 0)
    (hsame : blocks.flatten = blocks'.flatten) :
    Alike (e.encodeBlocks k blocks) (e.encodeBlocks k blocks') := by
  have hfits := hreachable.fits
  have hleft := alike_flatten hready hfits hwhole k
  have hright := alike_flatten hready hfits hwhole' k
  rw [← hsame] at hright
  exact hleft.trans hright.symm

open Rehearsal in
/-- The codec fails at its third call, and the sink takes a packet in
pieces. Two frames are carried into the stream and one is cut off from
its block, which makes no difference. -/
theorem alike_of_flatten_eq_scripted :
    ∃ (first : Encoder ScriptedSession Hook) (opening : List Event),
      start (⟨⟨3⟩, 8, none, [4, 3, -7]⟩ : ScriptedCodec) {} (some Hook.reverse)
        = .ready first opening ∧
      let e := (first.run (⟨[]⟩ : ScriptedSink) [.encode [⟨1⟩, ⟨2⟩, ⟨3⟩, ⟨4⟩]]).encoder
      let k : ScriptedSink := ⟨[.accept 1, .interrupt]⟩
      let blocks : List (List Sample) :=
        [[⟨5⟩, ⟨6⟩, ⟨7⟩, ⟨8⟩], [], [⟨9⟩, ⟨10⟩, ⟨11⟩, ⟨12⟩, ⟨13⟩, ⟨14⟩, ⟨15⟩, ⟨16⟩, ⟨17⟩, ⟨18⟩]]
      let blocks' : List (List Sample) :=
        [[⟨5⟩, ⟨6⟩], [⟨7⟩, ⟨8⟩, ⟨9⟩, ⟨10⟩, ⟨11⟩, ⟨12⟩, ⟨13⟩, ⟨14⟩], [⟨15⟩, ⟨16⟩, ⟨17⟩, ⟨18⟩]]
      e.state = .ready ∧ e.carried = 4 ∧
        (e.encodeBlocks k blocks).outcome = .error (.coding 2 (-7)) ∧
        Alike (e.encodeBlocks k blocks) (e.encodeBlocks k blocks') := by
  refine ⟨_, _, rfl, ?_, ?_, ?_, ?_⟩
  · cbv
  · cbv
  · cbv
  · have hstart : start (⟨⟨3⟩, 8, none, [4, 3, -7]⟩ : ScriptedCodec) {} (some Hook.reverse)
        = .ready _ _ := rfl
    exact alike_of_flatten_eq (reachable_run hstart _ _) (by cbv) _ (by decide_cbv)
      (by decide_cbv) (by cbv)

end Encoder

end Packetizer

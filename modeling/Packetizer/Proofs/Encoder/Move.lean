import Packetizer.Encoder.FromSource
import Packetizer.Proofs.Audio.FrameCount
import Packetizer.Proofs.Encoder.Emission
import Packetizer.Proofs.Encoder.Gathering

/-!
# `Packetizer.Proofs.Encoder.Move`: what an operation of an encoder can do

However long an operation runs, it is made of a few moves. A `Batch`
is some calls of the codec in a row, up to the first that fails. A
`Move` of an encoder logs something, changes the hook, accepts a block
with the batch of the quanta that it fills, fails in the middle of a
batch, or flushes. `move_encode`, `move_flush` and `moves_encodeSource`
take the operations apart into `Moves`; a fact about every run of an
encoder is then a fact about five kinds of move.

Releasing the session is no move: it can happen in every state, and
the facts about it stand on their own.
-/

set_option autoImplicit false

namespace Packetizer

/-! ### Calls of the codec in a row -/

section
variable {σ η κ : Type} [CodecSession σ] [RemapHook η] [Sink κ]

/-- Calls of the codec in a row with these samples. None is made after
one that failed. -/
inductive Batch : PacketWriter σ η → κ → List (List Sample) → Except EncodeError Unit →
    PacketWriter σ η → κ → List Event → Prop where
  | nil (w : PacketWriter σ η) (k : κ) : Batch w k [] (.ok ()) w k []
  | broken {w : PacketWriter σ η} {k : κ} {quantum : List Sample} {error : EncodeError}
      (failed : (w.emit k quantum).outcome = .error error) :
      Batch w k [quantum] (.error error) (w.emit k quantum).writer (w.emit k quantum).sink
        (w.emit k quantum).events
  | cons {w w' : PacketWriter σ η} {k k' : κ} {quantum : List Sample}
      {quanta : List (List Sample)} {outcome : Except EncodeError Unit} {events : List Event}
      {n : Nat} (made : (w.emit k quantum).outcome = .ok n)
      (rest : Batch (w.emit k quantum).writer (w.emit k quantum).sink quanta outcome w' k'
        events) :
      Batch w k (quantum :: quanta) outcome w' k' ((w.emit k quantum).events ++ events)

namespace Batch

variable {w w' w'' : PacketWriter σ η} {k k' k'' : κ} {quanta more : List (List Sample)}
  {outcome : Except EncodeError Unit} {events later : List Event}

/-- A batch that went well may go on. -/
theorem append (h : Batch w k quanta (.ok ()) w' k' events)
    (hmore : Batch w' k' more outcome w'' k'' later) :
    Batch w k (quanta ++ more) outcome w'' k'' (events ++ later) := by
  -- The outcome of the first batch is an index that `induction` needs to see.
  generalize hok : Except.ok () = good at h
  induction h with
  | nil => exact hmore
  | broken => cases hok
  | cons made rest ih =>
      rw [List.append_assoc]
      exact .cons made (ih hmore hok)

/-- An encoder does not recover from a batch that failed. -/
theorem fatal {error : EncodeError} (h : Batch w k quanta (.error error) w' k' events) :
    error.isRecoverable = false := by
  generalize herr : Except.error error = bad at h
  induction h with
  | nil => cases herr
  | broken failed =>
      cases herr
      exact PacketWriter.fatal_of_emit failed
  | cons made rest ih => exact ih herr

end Batch

namespace Output

/-- What is consumed was made into a packet or into nothing. -/
theorem emit_of_consume_ok {o : Output σ η κ} {quantum : List Sample}
    (h : (o.consume quantum).outcome = .ok ()) :
    ∃ n, (o.writer.emit o.sink quantum).outcome = .ok n := by
  cases hout : (o.writer.emit o.sink quantum).outcome with
  | ok n => exact ⟨n, rfl⟩
  | error e =>
      simp only [consume, hout] at h
      cases h

/-- What is not consumed made the call of the codec fail. -/
theorem emit_of_consume_error {o : Output σ η κ} {quantum : List Sample} {error : EncodeError}
    (h : (o.consume quantum).outcome = .error error) :
    (o.writer.emit o.sink quantum).outcome = .error error := by
  cases hout : (o.writer.emit o.sink quantum).outcome with
  | ok n =>
      simp only [consume, hout] at h
      cases h
  | error e =>
      simp only [consume, hout] at h
      cases h
      rfl

/-- Consuming adds the events of the call. -/
theorem events_consume (o : Output σ η κ) (quantum : List Sample) :
    (o.consume quantum).consumer.events.toList
      = o.events.toList ++ (o.writer.emit o.sink quantum).events :=
  Array.toList_appendList

end Output

/-- A consumer that writes packets takes quanta by a batch of calls. -/
theorem Takes.batch {o last : Output σ η κ} {quanta : List (List Sample)}
    (h : Takes Output.consume o quanta last) :
    ∃ events, last.events.toList = o.events.toList ++ events ∧
      Batch o.writer o.sink quanta (.ok ()) last.writer last.sink events := by
  induction h with
  | nil o => exact ⟨[], (List.append_nil _).symm, .nil _ _⟩
  | @cons o last quantum quanta taken rest ih =>
      obtain ⟨events, hevents, hbatch⟩ := ih
      obtain ⟨n, hmade⟩ := Output.emit_of_consume_ok taken
      refine ⟨(o.writer.emit o.sink quantum).events ++ events, ?_, .cons hmade hbatch⟩
      rw [hevents, Output.events_consume, List.append_assoc]

namespace PacketWriter

/-- Draining calls the codec without samples until it is done or fails. -/
theorem batch_drain (w : PacketWriter σ η) (k : κ) :
    ∃ n, Batch w k (List.replicate (n + 1) []) ((w.drain k).outcome.map fun _ => ())
      (w.drain k).writer (w.drain k).sink (w.drain k).events := by
  fun_induction drain w k with
  | case1 w k n buffer w' k' events h rest ih =>
      obtain ⟨m, hm⟩ := ih
      refine ⟨m + 1, ?_⟩
      have hmade : (w.emit k []).outcome = .ok (n + 1) := congrArg Emission.outcome h
      have hcons := Batch.cons hmade (by rw [h]; exact hm)
      rw [h] at hcons
      exact hcons
  | case2 w k h =>
      refine ⟨0, ?_⟩
      cases hout : (w.emit k []).outcome with
      | error e => exact .broken hout
      | ok n =>
          have hone := Batch.cons hout (.nil _ _)
          rw [List.append_nil] at hone
          exact hone

/-- Encoding the last samples is a call with them and calls without. -/
theorem batch_emitAll (w : PacketWriter σ η) (k : κ) (samples : List Sample) :
    ∃ n, Batch w k (samples :: List.replicate n [])
      ((w.emitAll k samples).outcome.map fun _ => ()) (w.emitAll k samples).writer
      (w.emitAll k samples).sink (w.emitAll k samples).events := by
  unfold emitAll
  split
  · rename_i n buffer w' k' events h
    obtain ⟨m, hm⟩ := batch_drain w' k'
    refine ⟨m + 1, ?_⟩
    have hmade : (w.emit k samples).outcome = .ok (n + 1) := congrArg Emission.outcome h
    have hcons := Batch.cons hmade (by rw [h]; exact hm)
    rw [h] at hcons
    exact hcons
  · refine ⟨0, ?_⟩
    cases hout : (w.emit k samples).outcome with
    | error e => exact .broken hout
    | ok n =>
        have hone := Batch.cons hout (.nil _ _)
        rw [List.append_nil] at hone
        exact hone

end PacketWriter

end

/-! ### The operations, opened -/

namespace Encoder

variable {σ η κ : Type}

/-- An encoder that is not ready refuses. -/
theorem requireReady_of_ne {e : Encoder σ η} (h : e.state ≠ .ready) :
    e.requireReady = .error .finalized := if_neg h

/-- An encoder that is ready does not refuse. -/
theorem requireReady_of_ready {e : Encoder σ η} (h : e.state = .ready) :
    e.requireReady = .ok () := if_pos h

/-- An error from which an encoder does not recover makes it fail. -/
theorem fail_of_fatal (e : Encoder σ η) {error : EncodeError} (h : error.isRecoverable = false) :
    e.fail error = { e with state := .failed } := by
  rw [fail, if_neg (by rw [h]; exact Bool.false_ne_true)]

variable [CodecSession σ] [RemapHook η] [Sink κ]

/-- An encoder that is not ready takes no block. -/
theorem encode_of_ne {e : Encoder σ η} (h : e.state ≠ .ready) (samples : List Sample) (k : κ) :
    e.encode samples k = ⟨.error .finalized, e, k, []⟩ := by
  rw [encode, requireReady_of_ne h]

/-- A ready encoder refuses a block that is no whole number of frames. -/
theorem encode_ragged {e : Encoder σ η} (hready : e.state = .ready) {samples : List Sample}
    (h : samples.length % e.channels ≠ 0) (k : κ) :
    e.encode samples k = ⟨.error (.ragged samples.length e.channels), e, k, []⟩ := by
  rw [encode, requireReady_of_ready hready]
  dsimp only
  rw [QuantumBuffer.push_ragged Output.consume h]
  rfl

/-- Encoding a block of whole frames, without the log. -/
def encodeUnlogged (e : Encoder σ η) (samples : List Sample) (k : κ) : Step σ η κ Unit :=
  let g := e.gatherer.gather Output.consume samples ⟨e.writer, k, #[]⟩ 0
  let e' := { e with gatherer := g.2.1, writer := g.2.2.writer }
  let events := g.2.2.events.toList
  match g.1 with
  | .error error => ⟨.error error, e'.fail error, g.2.2.sink, events⟩
  | .ok _ =>
      ⟨.ok (), { e' with framesIn := e.framesIn + .ofSamples samples.length e'.channels },
        g.2.2.sink, events⟩

/-- A ready encoder gathers a block of whole frames and logs that. -/
theorem encode_whole {e : Encoder σ η} (hready : e.state = .ready) (hfits : e.gatherer.Fits)
    {samples : List Sample} (h : samples.length % e.channels = 0) (k : κ) :
    ∃ before after, e.encode samples k =
      let s := e.encodeUnlogged samples k
      { s with events := Event.ofLog before ++ s.events ++ Event.ofLog after } := by
  obtain ⟨before, after, hpush⟩ := QuantumBuffer.push_whole Output.consume hfits h
    (⟨e.writer, k, #[]⟩ : Output σ η κ)
  refine ⟨before, after, ?_⟩
  rw [encode, requireReady_of_ready hready]
  generalize e.gatherer.push Output.consume samples ⟨e.writer, k, #[]⟩ = pushed at hpush ⊢
  subst hpush
  unfold encodeUnlogged
  dsimp only
  cases (e.gatherer.gather Output.consume samples ⟨e.writer, k, #[]⟩ 0).1 with
  | error error => rfl
  | ok n => rfl

/-- A flush encodes the samples carried over and drains the codec. -/
theorem flush_of_ready {e : Encoder σ η} (hready : e.state = .ready) (k : κ) :
    e.flush k =
      let x := e.writer.emitAll k e.gatherer.pending
      let events := Event.ofLog [.flushing e.gatherer.pending.length] ++ x.events
      let e' := { e with gatherer := { e.gatherer with carried := 0 }, writer := x.writer }
      match x.outcome with
      | .error error => ⟨.error error, e'.fail error, x.sink, events⟩
      | .ok _ =>
          ⟨.ok (), { e' with state := .flushed }, x.sink,
            events ++ Event.ofLog [.flushed e'.packets e'.bytes]⟩ := by
  rw [flush, requireReady_of_ready hready]
  rfl

/-- An encoder that is not ready does not flush. -/
theorem flush_of_ne {e : Encoder σ η} (h : e.state ≠ .ready) (k : κ) :
    e.flush k = ⟨.error .finalized, e, k, []⟩ := by
  rw [flush, requireReady_of_ne h]

end Encoder

/-! ### Moves -/

/-- The block, if it was accepted. -/
def Step.accepted {σ η κ α : Type} (s : Step σ η κ α) (block : List Sample) : List Sample :=
  match s.outcome with
  | .ok _ => block
  | .error _ => []

/-- A step that failed accepted nothing. -/
theorem Step.accepted_of_error {σ η κ α : Type} {s : Step σ η κ α} {error : EncodeError}
    (h : s.outcome = .error error) (block : List Sample) : s.accepted block = [] := by
  rw [accepted, h]

/-- A step that went well accepted its block. -/
theorem Step.accepted_of_ok {σ η κ α : Type} {s : Step σ η κ α} {a : α}
    (h : s.outcome = .ok a) (block : List Sample) : s.accepted block = block := by
  rw [accepted, h]

section
variable {σ η κ : Type} [CodecSession σ] [RemapHook η] [Sink κ]

/-- One move of an encoder and a sink: what it accepts, the events, and
both afterwards. -/
inductive Move : Encoder σ η → κ → List Sample → List Event → Encoder σ η → κ → Prop where
  /-- Nothing is done but logging. -/
  | idle (e : Encoder σ η) (k : κ) (log : List Message) : Move e k [] (Event.ofLog log) e k
  /-- The hook is set. -/
  | hook (e : Encoder σ η) (k : κ) (hook : η) : Move e k [] [] (e.setHook hook) k
  /-- A block is gathered, and the quanta that it fills are encoded. -/
  | accept {e : Encoder σ η} {k k' : κ} {block : List Sample} {quanta : List (List Sample)}
      {b : QuantumBuffer} {w : PacketWriter σ η} {events : List Event}
      (before after : List Message)
      (ready : e.state = .ready) (whole : block.length % e.channels = 0)
      (gathers : e.gatherer.Gathers block quanta b)
      (batch : Batch e.writer k quanta (.ok ()) w k' events) :
      Move e k block (Event.ofLog before ++ events ++ Event.ofLog after)
        { e with
          gatherer := b
          writer := w
          framesIn := e.framesIn + .ofSamples block.length e.channels } k'
  /-- A call of the codec fails, and nothing is carried any more. -/
  | fail {e : Encoder σ η} {k k' : κ} {quanta : List (List Sample)} {b : QuantumBuffer}
      {w : PacketWriter σ η} {error : EncodeError} {events : List Event}
      (before after : List Message)
      (ready : e.state = .ready) (spent : b.carried = 0)
      (geometry : b.geometry = e.gatherer.geometry)
      (batch : Batch e.writer k quanta (.error error) w k' events) :
      Move e k [] (Event.ofLog before ++ events ++ Event.ofLog after)
        { e with gatherer := b, writer := w, state := .failed } k'
  /-- The samples carried over are encoded and the codec is drained. -/
  | flush {e : Encoder σ η} {k k' : κ} {n : Nat} {w : PacketWriter σ η} {events : List Event}
      (before after : List Message) (ready : e.state = .ready)
      (batch : Batch e.writer k (e.gatherer.pending :: List.replicate n []) (.ok ()) w k'
        events) :
      Move e k [] (Event.ofLog before ++ events ++ Event.ofLog after)
        { e with
          gatherer := { e.gatherer with carried := 0 }
          writer := w
          state := .flushed } k'

/-- Some moves in a row. -/
inductive Moves (e : Encoder σ η) (k : κ) :
    List Sample → List Event → Encoder σ η → κ → Prop where
  | refl : Moves e k [] [] e k
  | step {e' e'' : Encoder σ η} {k' k'' : κ} {accepted more : List Sample}
      {events later : List Event} (moves : Moves e k accepted events e' k')
      (move : Move e' k' more later e'' k'') :
      Moves e k (accepted ++ more) (events ++ later) e'' k''

variable {e e' e'' : Encoder σ η} {k k' k'' : κ} {accepted more : List Sample}
  {events later : List Event}

namespace Move

/-- A move alone. -/
theorem moves (h : Move e k accepted events e' k') : Moves e k accepted events e' k' :=
  .step .refl h

/-- A move keeps the shape of a quantum. -/
theorem geometry (h : Move e k accepted events e' k') :
    e'.gatherer.geometry = e.gatherer.geometry := by
  cases h with
  | idle => rfl
  | hook => rfl
  | accept _ _ _ _ gathers _ => exact gathers.geometry
  | fail _ _ _ _ geometry _ => exact geometry
  | flush => rfl

/-- A move keeps what is carried over below a quantum. -/
theorem fits (h : Move e k accepted events e' k') (hfits : e.gatherer.Fits) :
    e'.gatherer.Fits := by
  cases h with
  | idle => exact hfits
  | hook => exact hfits
  | accept _ _ _ _ gathers _ => exact gathers.fits
  | fail _ _ _ spent _ _ => exact QuantumBuffer.fits_of_carried spent
  | flush => exact QuantumBuffer.fits_of_carried rfl

end Move

namespace Moves

/-- Moves go on with moves. -/
theorem trans (h : Moves e k accepted events e' k') (hmore : Moves e' k' more later e'' k'') :
    Moves e k (accepted ++ more) (events ++ later) e'' k'' := by
  induction hmore with
  | refl =>
      rw [List.append_nil, List.append_nil]
      exact h
  | step moves move ih =>
      rw [← List.append_assoc, ← List.append_assoc]
      exact .step ih move

/-- Moves keep the shape of a quantum. -/
theorem geometry (h : Moves e k accepted events e' k') :
    e'.gatherer.geometry = e.gatherer.geometry := by
  induction h with
  | refl => rfl
  | step moves move ih => exact move.geometry.trans ih

/-- Moves keep what is carried over below a quantum. -/
theorem fits (h : Moves e k accepted events e' k') (hfits : e.gatherer.Fits) :
    e'.gatherer.Fits := by
  induction h with
  | refl => exact hfits
  | step moves move ih => exact move.fits ih

/-- What every move keeps, moves in a row keep. `I` knows the samples
accepted so far and the events so far. -/
theorem keeps {I : List Sample → List Event → Encoder σ η → Prop}
    (hstep : ∀ {accepted more : List Sample} {events later : List Event} {e e' : Encoder σ η}
      {k k' : κ}, I accepted events e → Move e k more later e' k' →
      I (accepted ++ more) (events ++ later) e')
    (prior : List Sample) {before : List Event} (hI : I prior before e)
    (h : Moves e k accepted events e' k') : I (prior ++ accepted) (before ++ events) e' := by
  induction h with
  | refl =>
      rw [List.append_nil, List.append_nil]
      exact hI
  | step moves move ih =>
      rw [← List.append_assoc, ← List.append_assoc]
      exact hstep ih move

end Moves

end

namespace Encoder

variable {σ η κ ρ : Type} [CodecSession σ] [RemapHook η] [Sink κ]

/-- All that encoding a block of whole frames can come to. Either the
codec takes all quanta that the block fills, or it fails on one and the
encoder is spent. -/
theorem encode_cases {e : Encoder σ η} (hready : e.state = .ready) (hfits : e.gatherer.Fits)
    {samples : List Sample} (hwhole : samples.length % e.channels = 0) (k : κ) :
    (∃ quanta b w k' events before after,
      e.gatherer.Gathers samples quanta b ∧ Batch e.writer k quanta (.ok ()) w k' events ∧
      e.encode samples k =
        ⟨.ok (),
          { e with
            gatherer := b
            writer := w
            framesIn := e.framesIn + .ofSamples samples.length e.channels },
          k', Event.ofLog before ++ events ++ Event.ofLog after⟩) ∨
    (∃ quanta error b w k' events before after,
      (∀ quantum ∈ quanta, quantum.length = e.quantum) ∧
      b.carried = 0 ∧ b.geometry = e.gatherer.geometry ∧
      Batch e.writer k quanta (.error error) w k' events ∧
      e.encode samples k =
        ⟨.error error, { e with gatherer := b, writer := w, state := .failed }, k',
          Event.ofLog before ++ events ++ Event.ofLog after⟩) := by
  obtain ⟨before, after, heq⟩ := encode_whole hready hfits hwhole k
  rw [heq, encodeUnlogged]
  rcases QuantumBuffer.gather_cases Output.consume e.gatherer hfits samples
      (⟨e.writer, k, #[]⟩ : Output σ η κ) 0 with
    ⟨quanta, b, last, hg, htakes, hgathers⟩ |
    ⟨quanta, quantum, error, last, hg, htakes, herr, hlens, -⟩
  · obtain ⟨events, hevents, hbatch⟩ := htakes.batch
    have hchannels : b.channels = e.gatherer.channels :=
      congrArg Geometry.channels hgathers.geometry
    refine .inl ⟨quanta, b, _, _, events, before, after, hgathers, hbatch, ?_⟩
    rw [hg]
    dsimp only [channels]
    rw [hevents, List.nil_append, hchannels]
  · -- The quanta before the failure and the one that failed are one batch.
    obtain ⟨events, hevents, hbatch⟩ := htakes.batch
    have hbroken := hbatch.append (.broken (Output.emit_of_consume_error herr))
    refine .inr ⟨_, error, e.gatherer.leave (last.consume quantum).buffer, _, _, _, before, after,
      hlens, rfl, rfl, hbroken, ?_⟩
    rw [hg]
    dsimp only
    rw [fail_of_fatal _ hbroken.fatal, Output.events_consume, hevents, List.nil_append]
    rfl

/-- An encoder that encoded a block is as ready as before. -/
theorem ready_of_encode {e : Encoder σ η} (hready : e.state = .ready) (hfits : e.gatherer.Fits)
    {samples : List Sample} (hwhole : samples.length % e.channels = 0) {k : κ}
    (hok : (e.encode samples k).outcome = .ok ()) :
    (e.encode samples k).encoder.state = .ready := by
  rcases encode_cases hready hfits hwhole k with
    ⟨quanta, b, w, k', events, before, after, -, -, heq⟩ |
    ⟨quanta, error, b, w, k', events, before, after, -, -, -, -, heq⟩
  · rw [heq]
    exact hready
  · rw [heq] at hok
    cases hok

/-- An encoder that did not encode a block of whole frames has failed. -/
theorem failed_of_encode {e : Encoder σ η} (hready : e.state = .ready) (hfits : e.gatherer.Fits)
    {samples : List Sample} (hwhole : samples.length % e.channels = 0) {k : κ}
    {error : EncodeError} (herr : (e.encode samples k).outcome = .error error) :
    (e.encode samples k).encoder.state = .failed := by
  rcases encode_cases hready hfits hwhole k with
    ⟨quanta, b, w, k', events, before, after, -, -, heq⟩ |
    ⟨quanta, error, b, w, k', events, before, after, -, -, -, -, heq⟩
  · rw [heq] at herr
    cases herr
  · rw [heq]

/-- Encoding a block is one move. -/
theorem move_encode {e : Encoder σ η} (hfits : e.gatherer.Fits) (samples : List Sample)
    (k : κ) :
    Move e k ((e.encode samples k).accepted samples) (e.encode samples k).events
      (e.encode samples k).encoder (e.encode samples k).sink := by
  by_cases hready : e.state = .ready
  case neg =>
    rw [encode_of_ne hready]
    exact .idle e k []
  by_cases hwhole : samples.length % e.channels = 0
  case neg =>
    rw [encode_ragged hready hwhole]
    exact .idle e k []
  rcases encode_cases hready hfits hwhole k with
    ⟨quanta, b, w, k', events, before, after, hgathers, hbatch, heq⟩ |
    ⟨quanta, error, b, w, k', events, before, after, -, hspent, hgeometry, hbatch, heq⟩
  · rw [heq]
    exact .accept before after hready hwhole hgathers hbatch
  · rw [heq]
    exact .fail before after hready hspent hgeometry hbatch

/-- Flushing is one move. -/
theorem move_flush (e : Encoder σ η) (k : κ) :
    Move e k [] (e.flush k).events (e.flush k).encoder (e.flush k).sink := by
  by_cases hready : e.state = .ready
  case neg =>
    rw [flush_of_ne hready]
    exact .idle e k []
  obtain ⟨n, hbatch⟩ := e.writer.batch_emitAll k e.gatherer.pending
  rw [flush_of_ready hready]
  dsimp only
  cases hout : (e.writer.emitAll k e.gatherer.pending).outcome with
  | error error =>
      rw [hout] at hbatch
      have hmove := Move.fail (b := { e.gatherer with carried := 0 })
        [.flushing e.gatherer.pending.length] [] hready rfl rfl hbatch
      dsimp only
      rw [fail_of_fatal _ hbatch.fatal, ← List.append_nil (_ ++ _)]
      exact hmove
  | ok m =>
      rw [hout] at hbatch
      exact .flush _ _ hready hbatch

/-! ### Encoding a source -/

variable [Source ρ]

/-- The blocks of a source that `feed` gives to `encode` and that are
accepted, in order. -/
def feedBlocks (e : Encoder σ η) (r : ρ) (k : κ) : List (List Sample) :=
  match _h : Source.fill r (e.quantum * sampleBytes) with
  | ⟨.error _, _, _⟩ => []
  | ⟨.ok bytes, _, rest⟩ =>
      if bytes.length % sampleBytes ≠ 0 then []
      else
        let step := e.encode (samplesOfBytes bytes) k
        match step.outcome with
        | .error _ => []
        | .ok () =>
            samplesOfBytes bytes ::
              if _hfull : bytes.length < e.quantum * sampleBytes then []
              else feedBlocks step.encoder rest step.sink
termination_by Source.size r
decreasing_by
  -- As for `feed`: a full quantum was read, so the source is nearer its end.
  have hq : 0 < e.quantum := e.gatherer.geometry.quantum_pos
  match bytes, _hfull, _h with
  | [], hfull, _ => simp [sampleBytes] at hfull; omega
  | b :: bs, _, h =>
      have := Source.size_fill_lt r _ (congrArg Reading.outcome h)
      rwa [h] at this

/-- A source that fails delivers no block. -/
theorem feedBlocks_of_error {e : Encoder σ η} {r rest : ρ} {k : κ} {error : StreamError}
    {log : List Message}
    (h : Source.fill r (e.quantum * sampleBytes) = ⟨.error error, log, rest⟩) :
    e.feedBlocks r k = [] := by
  rw [feedBlocks]
  split
  · rfl
  · rename_i hok
    rw [h] at hok
    cases hok

/-- What a source delivers is a block, if it holds whole samples. -/
theorem feedBlocks_of_ok {e : Encoder σ η} {r rest : ρ} {k : κ} {bytes : List UInt8}
    {log : List Message} (h : Source.fill r (e.quantum * sampleBytes) = ⟨.ok bytes, log, rest⟩) :
    e.feedBlocks r k =
      if bytes.length % sampleBytes ≠ 0 then []
      else
        let step := e.encode (samplesOfBytes bytes) k
        match step.outcome with
        | .error _ => []
        | .ok () =>
            samplesOfBytes bytes ::
              if bytes.length < e.quantum * sampleBytes then []
              else feedBlocks step.encoder rest step.sink := by
  rw [feedBlocks]
  split
  · rename_i herr
    rw [h] at herr
    cases herr
  · rename_i hok
    rw [h] at hok
    cases hok
    rfl

/-- The blocks of a source that encoding it accepts. -/
def sourceBlocks (e : Encoder σ η) (r : ρ) (k : κ) : List (List Sample) :=
  match e.requireReady with
  | .error _ => []
  | .ok () => e.feedBlocks r k

/-- Feeding is the moves of the blocks that it reads, and a flush when
the source has ended well. -/
theorem moves_feed {e : Encoder σ η} (hfits : e.gatherer.Fits) (r : ρ) (k : κ)
    (done : Array Event) :
    ∃ events, (e.feed r k done).events = done.toList ++ events ∧
      Moves e k (e.feedBlocks r k).flatten events (e.feed r k done).encoder
        (e.feed r k done).sink := by
  fun_induction feed e r k done with
  | case1 e r k done error log rest h =>
      refine ⟨Event.ofLog log, rfl, ?_⟩
      rw [feedBlocks_of_error h]
      exact (Move.idle e k log).moves
  | case2 e r k done bytes log rest h stray hstray =>
      refine ⟨Event.ofLog (log ++ [.strayBytes stray]), rfl, ?_⟩
      rw [feedBlocks_of_ok h, if_pos hstray]
      exact (Move.idle e k _).moves
  | case3 e r k done bytes log rest h stray hstray step done' error herr =>
      have hmove := move_encode hfits (samplesOfBytes bytes) k
      rw [Step.accepted_of_error herr] at hmove
      refine ⟨Event.ofLog log ++ step.events, by simp [done'], ?_⟩
      rw [feedBlocks_of_ok h, if_neg hstray]
      dsimp only
      rw [herr]
      exact .step (Move.idle e k log).moves hmove
  | case4 e r k done bytes log rest h stray hstray step done' hok hshort last =>
      have hmove := move_encode hfits (samplesOfBytes bytes) k
      rw [Step.accepted_of_ok hok] at hmove
      refine ⟨Event.ofLog log ++ step.events ++ last.events, by simp [done'], ?_⟩
      rw [feedBlocks_of_ok h, if_neg hstray]
      dsimp only
      rw [hok, if_pos hshort]
      exact .step (.step (Move.idle e k log).moves hmove) (move_flush step.encoder step.sink)
  | case5 e r k done bytes log rest h stray hstray step done' hok hfull ih =>
      have hmove := move_encode hfits (samplesOfBytes bytes) k
      obtain ⟨events, hevents, hmoves⟩ := ih (hmove.fits hfits)
      rw [Step.accepted_of_ok hok] at hmove
      refine ⟨Event.ofLog log ++ step.events ++ events, ?_, ?_⟩
      · rw [hevents]
        simp [done']
      · rw [feedBlocks_of_ok h, if_neg hstray]
        dsimp only
        rw [hok, if_neg hfull]
        exact (Moves.step (Move.idle e k log).moves hmove).trans hmoves

/-- Encoding a source is moves that accept its blocks. -/
theorem moves_encodeSource {e : Encoder σ η} (hfits : e.gatherer.Fits) (r : ρ) (k : κ) :
    Moves e k (e.sourceBlocks r k).flatten (e.encodeSource r k).events
      (e.encodeSource r k).encoder (e.encodeSource r k).sink := by
  by_cases hready : e.state = .ready
  · rw [sourceBlocks, encodeSource, requireReady_of_ready hready]
    dsimp only
    obtain ⟨events, hevents, hmoves⟩ := moves_feed hfits r k #[]
    rw [hevents]
    exact hmoves
  · rw [sourceBlocks, encodeSource, requireReady_of_ne hready]
    exact .refl

end Encoder

end Packetizer

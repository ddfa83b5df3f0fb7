import Mathlib.Data.List.Induction
import Packetizer.Proofs.Encoder.Move

/-!
# `Packetizer.Proofs.Encoder.Run`: all that can happen to an encoder

An `Operation` is a call that a user of an encoder can make, and a
`Run` is what some operations made of an encoder and a sink, together
with the samples that were accepted and the events. Operations follow
in any order, also after a failure and after `close`, and each of them
may fail.

`Operation.moves_perform` says that every operation but `close` is
made of moves. So `Run.invariant` asks of an invariant only that the
five kinds of move keep it, to any sink, and that `close` does. All
facts about whole runs come from there.
-/

set_option autoImplicit false

namespace Packetizer

/-- A call that a user of an encoder can make. Each source may be of a
type of its own. The sinks of a run share a type, which can be a sum. -/
inductive Operation (η κ : Type) : Type 1 where
  | encode (samples : List Sample)
  | encodeFrames (samples : List Sample) (frames : FrameCount)
  | encodeToBytes (samples : List Sample)
  | encodeSource {ρ : Type} [Source ρ] (source : ρ)
  | flush
  | flushToBytes
  | setHook (hook : η)
  /-- What is written from here on goes to another sink. -/
  | useSink (sink : κ)
  | close

/-- An encoder and a sink after some operations, the samples accepted
by them and their events. -/
structure Run (σ η κ : Type) where
  encoder : Encoder σ η
  sink : κ
  accepted : List Sample
  events : List Event

/-- Making the bytes of the sink the answer changes neither success nor error. -/
theorem Step.outcome_collect {σ η : Type} (s : Step σ η OutputBytes Unit) :
    (s.collect.outcome.map fun _ => ()) = s.outcome := by
  obtain ⟨outcome, encoder, sink, events⟩ := s
  cases outcome <;> rfl

section
variable {σ η κ : Type} [CodecSession σ] [RemapHook η] [Sink κ]

namespace Operation

/-- What a single operation gives. Operations that answer bytes leave
the sink alone. -/
def perform (op : Operation η κ) (e : Encoder σ η) (k : κ) : Run σ η κ :=
  match op with
  | .encode samples =>
      let s := e.encode samples k
      ⟨s.encoder, s.sink, s.accepted samples, s.events⟩
  | .encodeFrames samples frames =>
      let s := e.encodeFrames samples frames k
      ⟨s.encoder, s.sink, s.accepted (samples.take (frames.samples e.channels)), s.events⟩
  | .encodeToBytes samples =>
      let s := e.encodeToBytes samples
      ⟨s.encoder, k, s.accepted samples, s.events⟩
  | @encodeSource _ _ _ _ source =>
      let s := e.encodeSource source k
      ⟨s.encoder, s.sink, (e.sourceBlocks source k).flatten, s.events⟩
  | .flush =>
      let s := e.flush k
      ⟨s.encoder, s.sink, [], s.events⟩
  | .flushToBytes =>
      let s := e.flushToBytes
      ⟨s.encoder, k, [], s.events⟩
  | .setHook hook => ⟨e.setHook hook, k, [], []⟩
  | .useSink sink => ⟨e, sink, [], []⟩
  | .close =>
      let (closed, events) := e.close
      ⟨closed, k, [], events⟩

/-- What a single operation answers, without the bytes. Operations that
cannot fail answer well. -/
def outcome (op : Operation η κ) (e : Encoder σ η) (k : κ) : Except EncodeError Unit :=
  match op with
  | .encode samples => (e.encode samples k).outcome
  | .encodeFrames samples frames => (e.encodeFrames samples frames k).outcome
  | .encodeToBytes samples => (e.encodeToBytes samples).outcome.map fun _ => ()
  | @encodeSource _ _ _ _ source => (e.encodeSource source k).outcome
  | .flush => (e.flush k).outcome
  | .flushToBytes => e.flushToBytes.outcome.map fun _ => ()
  | .setHook _ => .ok ()
  | .useSink _ => .ok ()
  | .close => .ok ()

/-- Whether the operation encodes or flushes. -/
def IsWork : Operation η κ → Prop
  | .setHook _ => False
  | .useSink _ => False
  | .close => False
  | _ => True

/-- Whether the operation writes to the sink of the run or nowhere. -/
def OnSink : Operation η κ → Prop
  | .encodeToBytes _ => False
  | .flushToBytes => False
  | .useSink _ => False
  | _ => True

end Operation

/-- A run goes on by an operation. -/
def Run.next (r : Run σ η κ) (op : Operation η κ) : Run σ η κ :=
  let s := op.perform r.encoder r.sink
  ⟨s.encoder, s.sink, r.accepted ++ s.accepted, r.events ++ s.events⟩

namespace Encoder

/-- What some operations make of an encoder and a sink. -/
def run (e : Encoder σ η) (k : κ) (ops : List (Operation η κ)) : Run σ η κ :=
  ops.foldl Run.next ⟨e, k, [], []⟩

@[simp] theorem run_nil (e : Encoder σ η) (k : κ) : e.run k [] = ⟨e, k, [], []⟩ := rfl

/-- A run that goes on by one operation. -/
theorem run_concat (e : Encoder σ η) (k : κ) (ops : List (Operation η κ))
    (op : Operation η κ) : e.run k (ops ++ [op]) = (e.run k ops).next op :=
  List.foldl_append

/-- A run that goes on is a run from where it stood. -/
theorem run_append (e : Encoder σ η) (k : κ) (ops more : List (Operation η κ)) :
    e.run k (ops ++ more) =
      let r := e.run k ops
      let r' := r.encoder.run r.sink more
      ⟨r'.encoder, r'.sink, r.accepted ++ r'.accepted, r.events ++ r'.events⟩ := by
  induction more using List.reverseRecOn with
  | nil => simp
  | append_singleton more op ih =>
      rw [← List.append_assoc, run_concat, ih]
      dsimp only
      rw [run_concat]
      simp only [Run.next, List.append_assoc]

end Encoder

end

/-- The encoder is what some operations made of one that was started. -/
def Encoder.Reachable {σ η γ : Type} [Codec γ σ] [CodecSession σ] [RemapHook η] (codec : γ)
    (e : Encoder σ η) : Prop :=
  ∃ (κ : Type) (_ : Sink κ) (settings : Settings) (hook : Option η) (first : Encoder σ η)
    (opening : List Event) (k : κ) (ops : List (Operation η κ)),
    Encoder.start codec settings hook = .ready first opening ∧ (first.run k ops).encoder = e

/-- What a run makes of an encoder that was started is reachable. -/
theorem Encoder.reachable_run {σ η κ γ : Type} [Codec γ σ] [CodecSession σ] [RemapHook η]
    [Sink κ] {codec : γ} {settings : Settings} {hook : Option η} {first : Encoder σ η}
    {opening : List Event} (h : start codec settings hook = .ready first opening) (k : κ)
    (ops : List (Operation η κ)) : Reachable codec (first.run k ops).encoder :=
  ⟨κ, _, settings, hook, first, opening, k, ops, h, rfl⟩

/-! ### Operations are moves -/

namespace Operation

variable {σ η κ : Type} [CodecSession σ] [RemapHook η] [Sink κ]

/-- Encoding the front of a block is one move. -/
theorem move_encodeFrames {e : Encoder σ η} (hfits : e.gatherer.Fits) (samples : List Sample)
    (frames : FrameCount) (k : κ) :
    Move e k ((e.encodeFrames samples frames k).accepted
        (samples.take (frames.samples e.channels)))
      (e.encodeFrames samples frames k).events (e.encodeFrames samples frames k).encoder
      (e.encodeFrames samples frames k).sink := by
  by_cases hfew : samples.length < frames.samples e.channels
  · rw [Encoder.encodeFrames, if_pos hfew]
    exact .idle e k []
  · rw [Encoder.encodeFrames, if_neg hfew]
    exact Encoder.move_encode hfits _ k

/-- An operation on the sink is made of moves that write to it. -/
theorem moves_onSink {op : Operation η κ} (hsink : op.OnSink) (hop : op ≠ .close)
    {e : Encoder σ η} (hfits : e.gatherer.Fits) (k : κ) :
    Moves e k (op.perform e k).accepted (op.perform e k).events (op.perform e k).encoder
      (op.perform e k).sink := by
  cases op with
  | encode samples => exact (Encoder.move_encode hfits samples k).moves
  | encodeFrames samples frames => exact (move_encodeFrames hfits samples frames k).moves
  | encodeSource source => exact Encoder.moves_encodeSource hfits source k
  | flush => exact (e.move_flush k).moves
  | setHook hook => exact (Move.hook e k hook).moves
  | encodeToBytes | flushToBytes | useSink => exact hsink.elim
  | close => exact absurd rfl hop

/-- Every operation but releasing the session is made of moves. They
may write to another sink than that of the run. -/
theorem moves_perform {op : Operation η κ} (hop : op ≠ .close) {e : Encoder σ η}
    (hfits : e.gatherer.Fits) (k : κ) :
    ∃ (μ : Type) (_ : Sink μ) (m m' : μ),
      Moves e m (op.perform e k).accepted (op.perform e k).events (op.perform e k).encoder
        m' := by
  by_cases hsink : op.OnSink
  · exact ⟨_, _, _, _, moves_onSink hsink hop hfits k⟩
  cases op with
  | encodeToBytes samples =>
      -- The block goes to a sink of its own, and collecting its bytes is no move.
      have hmove := Encoder.move_encode hfits samples OutputBytes.empty
      have haccepted : (e.encodeToBytes samples).accepted samples
          = (e.encode samples OutputBytes.empty).accepted samples := by
        unfold Encoder.encodeToBytes Step.collect Step.accepted
        cases (e.encode samples OutputBytes.empty).outcome <;> rfl
      rw [← haccepted] at hmove
      exact ⟨_, _, _, _, hmove.moves⟩
  | flushToBytes => exact ⟨_, _, _, _, (e.move_flush OutputBytes.empty).moves⟩
  | useSink sink => exact ⟨_, _, k, k, .refl⟩
  | encode | encodeFrames | encodeSource | flush | setHook | close =>
      exact absurd trivial hsink

end Operation

/-! ### Releasing the session -/

namespace Encoder

variable {σ η : Type} [CodecSession σ] (e : Encoder σ η)

/-- Closing an encoder that holds its session releases it. -/
theorem close_of_held {s : σ} (h : e.writer.lease = .held s) :
    e.close =
      ({ e with
          writer := { e.writer with lease := .released (CodecSession.close s) }
          state := .closed },
        [.logged .releasing, .released, .logged (.closed e.packets e.bytes)]) := by
  rw [close, h]
  rfl

/-- Closing an encoder whose session is released releases nothing. -/
theorem close_of_released {remains : σ} (h : e.writer.lease = .released remains) :
    e.close = ({ e with state := .closed }, []) := by
  obtain ⟨settings, gatherer, ⟨lease, frame, layout, hook, packets, bytes⟩, state, framesIn⟩ := e
  subst h
  rfl

end Encoder

/-- From one encoder to the other the codec was not called, nothing was
written, and the counts of what sinks have stand still. -/
structure Encoder.Still {σ η : Type} (e : Encoder σ η) (events : List Event)
    (e' : Encoder σ η) : Prop where
  calls : codecCalls events = []
  taken : bytesTaken events = []
  packets : e'.packets = e.packets
  bytes : e'.bytes = e.bytes

/-- Closing an encoder is still. -/
theorem Encoder.still_close {σ η : Type} [CodecSession σ] (e : Encoder σ η) :
    e.Still e.close.2 e.close.1 := by
  cases hlease : e.writer.lease with
  | held s =>
      rw [close_of_held e hlease]
      exact ⟨rfl, rfl, rfl, rfl⟩
  | released remains =>
      rw [close_of_released e hlease]
      exact ⟨rfl, rfl, rfl, rfl⟩

/-! ### Invariants of runs -/

namespace Run

variable {σ η κ : Type} [CodecSession σ] [RemapHook η] [Sink κ]

/-- An invariant that moves and closing keep. -/
structure Invariant (I : List Sample → List Event → Encoder σ η → Prop) : Prop where
  move : ∀ {μ : Type} [Sink μ] {accepted more : List Sample} {events later : List Event}
    {e e' : Encoder σ η} {m m' : μ}, I accepted events e → Move e m more later e' m' →
    I (accepted ++ more) (events ++ later) e'
  close : ∀ {accepted : List Sample} {events : List Event} {e : Encoder σ η},
    I accepted events e → I accepted (events ++ e.close.2) e.close.1

variable {I : List Sample → List Event → Encoder σ η → Prop}

/-- An operation keeps what is carried over below a quantum. -/
theorem fits_next {r : Run σ η κ} (hfits : r.encoder.gatherer.Fits) (op : Operation η κ) :
    (r.next op).encoder.gatherer.Fits := by
  by_cases hop : op = .close
  · subst hop
    exact hfits
  · obtain ⟨μ, _, m, m', hmoves⟩ := op.moves_perform hop hfits r.sink
    exact hmoves.fits hfits

/-- An operation keeps an invariant. -/
theorem Invariant.next (hI : Invariant I) {r : Run σ η κ} {opening : List Event}
    (hfits : r.encoder.gatherer.Fits) (h : I r.accepted (opening ++ r.events) r.encoder)
    (op : Operation η κ) :
    I (r.next op).accepted (opening ++ (r.next op).events) (r.next op).encoder := by
  by_cases hop : op = .close
  · subst hop
    show I (r.accepted ++ []) (opening ++ (r.events ++ r.encoder.close.2)) r.encoder.close.1
    rw [List.append_nil, ← List.append_assoc]
    exact hI.close h
  · obtain ⟨μ, _, m, m', hmoves⟩ := op.moves_perform hop hfits r.sink
    show I (r.accepted ++ _) (opening ++ (r.events ++ _)) _
    rw [← List.append_assoc]
    exact hmoves.keeps hI.move _ h

end Run

namespace Encoder

variable {σ η κ : Type} [CodecSession σ] [RemapHook η] [Sink κ]
  {I : List Sample → List Event → Encoder σ η → Prop}

/-- A run keeps what is carried over below a quantum. -/
theorem fits_run {e : Encoder σ η} (hfits : e.gatherer.Fits) (k : κ)
    (ops : List (Operation η κ)) : (e.run k ops).encoder.gatherer.Fits := by
  induction ops using List.reverseRecOn with
  | nil => exact hfits
  | append_singleton ops op ih =>
      rw [run_concat]
      exact Run.fits_next ih op

/-- What holds of an encoder and its events, and is kept by every move
and by closing, holds after every run. -/
theorem invariant_run (hI : Run.Invariant I) {e : Encoder σ η} {opening : List Event}
    (hfits : e.gatherer.Fits) (h : I [] opening e) (k : κ) (ops : List (Operation η κ)) :
    I (e.run k ops).accepted (opening ++ (e.run k ops).events) (e.run k ops).encoder := by
  induction ops using List.reverseRecOn with
  | nil =>
      rw [run_nil, List.append_nil]
      exact h
  | append_singleton ops op ih =>
      rw [run_concat]
      exact hI.next (fits_run hfits k ops) ih op

/-- A run keeps the shape of a quantum. -/
theorem geometry_run {e : Encoder σ η} (hfits : e.gatherer.Fits) (k : κ)
    (ops : List (Operation η κ)) :
    (e.run k ops).encoder.gatherer.geometry = e.gatherer.geometry := by
  have hI : Run.Invariant fun _ _ (e' : Encoder σ η) =>
      e'.gatherer.geometry = e.gatherer.geometry :=
    ⟨fun h hmove => hmove.geometry.trans h, fun h => h⟩
  exact @invariant_run σ η κ _ _ _ _ hI e [] hfits rfl k ops

end Encoder

/-! ### Encoders that are spent -/

/-- An encoder was not ready and is not ready now, and did nothing in
between. -/
structure Encoder.Rests {σ η κ : Type} (e : Encoder σ η) (k : κ) (events : List Event)
    (e' : Encoder σ η) (k' : κ) : Prop extends e.Still events e' where
  spent : e'.state ≠ .ready
  sink : k' = k

namespace Encoder

variable {σ η κ : Type} {e e' e'' : Encoder σ η} {k k' k'' : κ} {accepted : List Sample}
  {events later : List Event}

/-- An encoder that rests may rest longer. -/
theorem Rests.trans (h : Rests e k events e' k') (h' : Rests e' k' later e'' k'') :
    Rests e k (events ++ later) e'' k'' where
  calls := by rw [codecCalls_append, h.calls, h'.calls, List.append_nil]
  taken := by rw [bytesTaken_append, h.taken, h'.taken, List.append_nil]
  packets := h'.packets.trans h.packets
  bytes := h'.bytes.trans h.bytes
  spent := h'.spent
  sink := h'.sink.trans h.sink

variable [CodecSession σ] [RemapHook η] [Sink κ]

/-- The moves of an encoder that is not ready do nothing. -/
theorem rests_moves (hspent : e.state ≠ .ready) (h : Moves e k accepted events e' k') :
    Rests e k events e' k' := by
  induction h with
  | refl => exact ⟨⟨rfl, rfl, rfl, rfl⟩, hspent, rfl⟩
  | step moves move ih =>
      refine ih.trans ?_
      cases move with
      | idle log =>
          exact ⟨⟨codecCalls_ofLog log, bytesTaken_ofLog log, rfl, rfl⟩, ih.spent, rfl⟩
      | hook hook => exact ⟨⟨rfl, rfl, rfl, rfl⟩, ih.spent, rfl⟩
      | accept before after ready => exact absurd ready ih.spent
      | fail before after ready => exact absurd ready ih.spent
      | flush before after ready => exact absurd ready ih.spent

/-- An operation on the sink does nothing when the encoder is not ready,
apart from closing it. -/
theorem rests_next {r : Run σ η κ} (hfits : r.encoder.gatherer.Fits)
    (hspent : r.encoder.state ≠ .ready) {op : Operation η κ} (hsink : op.OnSink) :
    ∃ later, (r.next op).events = r.events ++ later ∧
      Rests r.encoder r.sink later (r.next op).encoder (r.next op).sink := by
  by_cases hop : op = .close
  · subst hop
    exact ⟨r.encoder.close.2, rfl, still_close r.encoder, nofun, rfl⟩
  · exact ⟨_, rfl, rests_moves hspent (op.moves_onSink hsink hop hfits r.sink)⟩

/-- An encoder that is not ready rests in every run on its sink. -/
theorem rests_run (hfits : e.gatherer.Fits) (hspent : e.state ≠ .ready) (k : κ)
    {ops : List (Operation η κ)} (hops : ∀ op ∈ ops, op.OnSink) :
    Rests e k (e.run k ops).events (e.run k ops).encoder (e.run k ops).sink := by
  induction ops using List.reverseRecOn with
  | nil => exact ⟨⟨rfl, rfl, rfl, rfl⟩, hspent, rfl⟩
  | append_singleton ops op ih =>
      have hrest := ih fun o ho => hops o (List.mem_append_left _ ho)
      have hop := hops op (List.mem_append_right _ (List.mem_singleton_self op))
      obtain ⟨later, hevents, hnext⟩ := rests_next (fits_run hfits k ops) hrest.spent hop
      rw [run_concat, hevents]
      exact hrest.trans hnext

end Encoder

/-! ### Where runs begin -/

/-- An encoder that was started holds a session that the codec opened,
carries nothing and has counted nothing. -/
structure Encoder.Fresh {σ η γ : Type} [Codec γ σ] [CodecSession σ] (codec : γ)
    (settings : Settings) (e : Encoder σ η) (s : σ) : Prop where
  opened : ∃ log, Codec.openSession codec (Codec.complete codec settings) = .ok (s, log)
  lease : e.writer.lease = .held s
  frame : e.writer.frame = .zeros (CodecSession.maxCodedSize s)
  packets : e.writer.packets = 0
  bytes : e.writer.bytes = 0
  state : e.state = .ready
  carried : e.gatherer.carried = 0
  framesIn : e.framesIn = .zero

/-- A codec that opens no session has its settings refused. -/
theorem Encoder.start_refused {σ η γ : Type} [Codec γ σ] [CodecSession σ] {codec : γ}
    {settings : Settings} {fault : SetupFault}
    (h : Codec.openSession codec (Codec.complete codec settings) = .error fault)
    (hook : Option η) : start codec settings hook = .refused fault := by
  unfold start
  dsimp only
  rw [h]

/-- A session that the codec opened is released again, because nothing can
be encoded with it, or else an encoder for its quantum is ready. -/
theorem Encoder.start_cases {σ η γ : Type} [Codec γ σ] [CodecSession σ] {codec : γ}
    {settings : Settings} {s : σ} {log : List Message}
    (h : Codec.openSession codec (Codec.complete codec settings) = .ok (s, log))
    (hook : Option η) :
    (((Codec.complete codec settings).channels.toNat = 0 ∨
        (CodecSession.samplesPerFrame s).toNat = 0 ∨ CodecSession.maxCodedSize s = 0) ∧
      ∃ fault, start codec settings hook = .rejected fault (.released (CodecSession.close s))
        (Event.ofLog log ++ [.logged .releasing, .released])) ∨
    ∃ g opened, g.channels = (Codec.complete codec settings).channels.toNat ∧
      g.frames = (CodecSession.samplesPerFrame s).toNat ∧ 0 < CodecSession.maxCodedSize s ∧
      start codec settings hook = .ready
        (ofSession (Codec.complete codec settings) s g (CodecSession.maxCodedSize s) hook)
        (Event.ofLog (log ++ [opened])) := by
  unfold start
  dsimp only
  rw [h]
  dsimp only
  split
  next hchannels => exact .inl ⟨.inl hchannels, _, rfl⟩
  split
  next hframes => exact .inl ⟨.inr (.inl hframes), _, rfl⟩
  split
  next hsize => exact .inl ⟨.inr (.inr hsize), _, rfl⟩
  next hsize => exact .inr ⟨_, _, rfl, rfl, Nat.pos_of_ne_zero hsize, rfl⟩

/-- A session that the codec opened is released again, or held by an
encoder that was started. -/
theorem Encoder.start_opened {σ η γ : Type} [Codec γ σ] [CodecSession σ] {codec : γ}
    {settings : Settings} {s : σ} {log : List Message}
    (h : Codec.openSession codec (Codec.complete codec settings) = .ok (s, log))
    (hook : Option η) :
    (∃ fault, start codec settings hook = .rejected fault (.released (CodecSession.close s))
      (Event.ofLog log ++ [.logged .releasing, .released])) ∨
    ∃ first opened, start codec settings hook
        = .ready first (Event.ofLog (log ++ [opened])) ∧ first.Fresh codec settings s := by
  rcases start_cases h hook with ⟨-, hrejected⟩ | ⟨g, opened, -, -, -, hstart⟩
  · exact .inl hrejected
  · exact .inr ⟨_, opened, hstart, ⟨log, h⟩, rfl, rfl, rfl, rfl, rfl, rfl, rfl⟩

/-- An encoder that was started is fresh, and its start was only logged. -/
theorem Encoder.fresh_of_start {σ η γ : Type} [Codec γ σ] [CodecSession σ] {codec : γ}
    {settings : Settings} {hook : Option η} {first : Encoder σ η} {opening : List Event}
    (h : start codec settings hook = .ready first opening) :
    ∃ s log, opening = Event.ofLog log ∧ first.Fresh codec settings s := by
  cases hopen : Codec.openSession codec (Codec.complete codec settings) with
  | error fault =>
      rw [start_refused hopen] at h
      cases h
  | ok opened =>
      obtain ⟨s, log⟩ := opened
      rcases start_opened hopen hook with ⟨fault, heq⟩ | ⟨first', message, heq, hfresh⟩
      · rw [heq] at h
        cases h
      · rw [heq] at h
        cases h
        exact ⟨s, _, rfl, hfresh⟩

/-- An encoder that was started has the quantum of its session and the
layout of its settings. -/
theorem Encoder.ofSession_of_start {σ η γ : Type} [Codec γ σ] [CodecSession σ] {codec : γ}
    {settings : Settings} {hook : Option η} {first : Encoder σ η} {opening : List Event}
    (h : start codec settings hook = .ready first opening) :
    ∃ s log g, Codec.openSession codec (Codec.complete codec settings) = .ok (s, log) ∧
      g.channels = (Codec.complete codec settings).channels.toNat ∧
      g.frames = (CodecSession.samplesPerFrame s).toNat ∧
      first = ofSession (Codec.complete codec settings) s g (CodecSession.maxCodedSize s)
        hook := by
  cases hopen : Codec.openSession codec (Codec.complete codec settings) with
  | error fault =>
      rw [start_refused hopen] at h
      cases h
  | ok opened =>
      obtain ⟨s, log⟩ := opened
      rcases start_cases hopen hook with ⟨-, fault, heq⟩ |
        ⟨g, message, hchannels, hframes, -, heq⟩
      · rw [heq] at h
        cases h
      · rw [heq] at h
        cases h
        exact ⟨s, log, g, rfl, hchannels, hframes, rfl⟩

/-- A session with channels, frames and bytes to write starts an encoder. -/
theorem Encoder.start_ready {σ η γ : Type} [Codec γ σ] [CodecSession σ] {codec : γ}
    {settings : Settings} {s : σ} {log : List Message}
    (hopen : Codec.openSession codec (Codec.complete codec settings) = .ok (s, log))
    {g : Geometry} (hchannels : g.channels = (Codec.complete codec settings).channels.toNat)
    (hframes : g.frames = (CodecSession.samplesPerFrame s).toNat)
    (hsize : 0 < CodecSession.maxCodedSize s) (hook : Option η) :
    ∃ opening, start codec settings hook
      = .ready (ofSession (Codec.complete codec settings) s g (CodecSession.maxCodedSize s) hook)
        opening := by
  rcases start_cases hopen hook with ⟨hnone, -⟩ | ⟨g', opened, hchannels', hframes', -, heq⟩
  · have hsome := g.channels_pos
    have hsome' := g.frames_pos
    omega
  · -- A geometry is its channels and its frames.
    obtain ⟨channels, frames, _, _⟩ := g
    obtain ⟨channels', frames', _, _⟩ := g'
    obtain rfl : channels' = channels := hchannels'.trans hchannels.symm
    obtain rfl : frames' = frames := hframes'.trans hframes.symm
    exact ⟨_, heq⟩

/-- What is carried over by a reachable encoder is below a quantum. -/
theorem Encoder.Reachable.fits {σ η γ : Type} [Codec γ σ] [CodecSession σ] [RemapHook η]
    {codec : γ} {e : Encoder σ η} (h : Reachable codec e) : e.gatherer.Fits := by
  obtain ⟨κ, _, settings, hook, first, opening, k, ops, hstart, heq⟩ := h
  obtain ⟨s, log, -, hfresh⟩ := fresh_of_start hstart
  rw [← heq]
  exact fits_run (QuantumBuffer.fits_of_carried hfresh.carried) k ops

end Packetizer

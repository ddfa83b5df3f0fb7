import Packetizer.Proofs.Encoder.Run
import Packetizer.Rehearsal.Devices
import Packetizer.Rehearsal.ScriptedCodec

/-!
# `Packetizer.Proofs.Encoder.Finished`: an encoder that ended or failed is inert

An encoder that is not ready does nothing any more. What is called on
it is refused before a sample, a source or a sink is looked at, so that
all that can still happen is that the hook is set and that the session
is released (`Inert`). `inert_perform` says so of one operation and
`inert_run` of any number of them.

The operation that fails stops as early: `LastIfFailed` says that a
call of the codec with a result code that fits no packet has no effect
behind it but the release of the session. It is an invariant of every
run, since a batch ends with the call that failed and every other move
asks that the encoder is ready.
-/

set_option autoImplicit false

namespace Packetizer

/-- The result code of a call is no number of bytes in a buffer of this
size. -/
def CodecCall.IsFailure (size : Nat) (call : CodecCall) : Prop :=
  call.code < 0 ∨ size < call.code.toInt.toNat

/-- Nothing was done to the outside but releasing the session. -/
def Quiet (events : List Event) : Prop := ∀ event ∈ effects events, event = .released

/-- Behind a call of the codec that failed there is no effect but the
release of the session. `size` is that of the frame buffer. -/
def LastIfFailed (size : Nat) (events : List Event) : Prop :=
  events.Pairwise fun earlier later =>
    (∃ call, earlier.call? = some call ∧ call.IsFailure size) → later.isEffect = true →
      later = .released

/-- No call of the codec failed. -/
def NoneFailed (size : Nat) (events : List Event) : Prop :=
  ∀ call ∈ codecCalls events, ¬ call.IsFailure size

section
variable {size : Nat} {events more : List Event}

theorem Quiet.append (h : Quiet events) (hmore : Quiet more) : Quiet (events ++ more) := by
  intro event hevent
  rw [effects_append, List.mem_append] at hevent
  exact hevent.elim (h event) (hmore event)

theorem noneFailed_of_quiet (h : codecCalls events = []) : NoneFailed size events := by
  intro call hcall
  rw [h] at hcall
  cases hcall

theorem NoneFailed.append (h : NoneFailed size events) (hmore : NoneFailed size more) :
    NoneFailed size (events ++ more) := by
  intro call hcall
  rw [codecCalls_append, List.mem_append] at hcall
  exact hcall.elim (h call) (hmore call)

theorem NoneFailed.not_isFailure (h : NoneFailed size events) {event : Event}
    (hevent : event ∈ events) : ¬ ∃ call, event.call? = some call ∧ call.IsFailure size := by
  rintro ⟨call, hcall, hfail⟩
  exact h call (List.mem_filterMap.mpr ⟨event, hevent, hcall⟩) hfail

/-- Where no call failed, anything may come behind. -/
theorem NoneFailed.lastIfFailed (h : NoneFailed size events) : LastIfFailed size events := by
  refine List.pairwise_of_forall_mem_list ?_
  intro earlier hearlier later _ hfail
  exact absurd hfail (h.not_isFailure hearlier)

theorem NoneFailed.lastIfFailed_append (h : NoneFailed size events)
    (hmore : LastIfFailed size more) : LastIfFailed size (events ++ more) := by
  refine List.pairwise_append.mpr ⟨h.lastIfFailed, hmore, ?_⟩
  intro earlier hearlier later _ hfail
  exact absurd hfail (h.not_isFailure hearlier)

/-- Quiet events may come behind a call that failed. -/
theorem LastIfFailed.append_quiet (h : LastIfFailed size events) (hcalls : codecCalls more = [])
    (hquiet : Quiet more) : LastIfFailed size (events ++ more) := by
  refine List.pairwise_append.mpr ⟨h, (noneFailed_of_quiet hcalls).lastIfFailed, ?_⟩
  intro earlier _ later hlater _ heffect
  exact hquiet later (List.mem_filter.mpr ⟨hlater, heffect⟩)

end

theorem quiet_ofLog (log : List Message) : Quiet (Event.ofLog log) := by
  intro event hevent
  rw [effects_ofLog] at hevent
  cases hevent

/-! ### Calls of the codec -/

section
variable {σ η κ : Type} [CodecSession σ] [RemapHook η] [Sink κ]

namespace PacketWriter

/-- A call of the codec keeps the size of the frame buffer. -/
theorem size_frame_emit (w : PacketWriter σ η) (k : κ) (samples : List Sample) :
    (w.emit k samples).writer.frame.size = w.frame.size := by
  cases hlease : w.lease with
  | held s =>
      obtain ⟨given, hreports⟩ := emit_of_held hlease k samples
      rw [hreports.frame]
      exact CodecSession.size_frame s w.frame given
  | released remains =>
      obtain ⟨given, hook, events, hremap, -⟩ := remap_eq w samples
      unfold emit
      rw [hremap]
      dsimp only
      rw [hlease]

omit [CodecSession σ] [RemapHook η] in
/-- A result code that fits no packet is logged and nothing else. -/
theorem events_deliver_of_bad {w : PacketWriter σ η} {code : Int32} (h : w.isBadCode code = true)
    (k : κ) (given : List Sample) :
    (w.deliver k given code).events = [.logged (.codecFailed w.packets code)] := by
  unfold deliver
  rw [if_pos h]

/-- A call that went well did not fail, and one that failed has no effect
behind it. -/
theorem lastIfFailed_emit (w : PacketWriter σ η) (k : κ) (samples : List Sample) :
    LastIfFailed w.frame.size (w.emit k samples).events ∧
      ∀ n, (w.emit k samples).outcome = .ok n →
        NoneFailed w.frame.size (w.emit k samples).events := by
  obtain ⟨given, hook, events, hremap, -, hcalls, -⟩ := remap_eq w samples
  have hhook : NoneFailed w.frame.size events := noneFailed_of_quiet hcalls
  unfold emit
  rw [hremap]
  dsimp only
  cases hlease : w.lease with
  | released remains => exact ⟨hhook.lastIfFailed, nofun⟩
  | held s =>
      dsimp only
      have hsize := CodecSession.size_frame s w.frame given
      generalize CodecSession.encodeQuantum s w.frame given = coded at hsize ⊢
      generalize hw : PacketWriter.mk (.held coded.session) coded.frame w.layout hook w.packets
        w.bytes = w'
      obtain ⟨-, -, hquiet, -⟩ := deliver_frame w' k given coded.code
      have hbad : w'.isBadCode coded.code = true ↔
          CodecCall.IsFailure w.frame.size ⟨samples, given, coded.code⟩ := by
        rw [← hw, isBadCode, Bool.or_eq_true, decide_eq_true_eq, decide_eq_true_eq, hsize]
        rfl
      -- Only the call itself can have failed, and what is behind it depends on that.
      have hbehind : LastIfFailed w.frame.size
          (.coded samples given coded.code :: (w'.deliver k given coded.code).events) := by
        refine List.pairwise_cons.mpr ⟨?_, (noneFailed_of_quiet hquiet).lastIfFailed⟩
        rintro later hlater ⟨call, hcall, hfail⟩ heffect
        cases hcall
        rw [events_deliver_of_bad (hbad.mpr hfail), List.mem_singleton] at hlater
        rw [hlater] at heffect
        cases heffect
      refine ⟨hhook.lastIfFailed_append hbehind, ?_⟩
      intro n hok
      refine hhook.append ?_
      intro call hcall
      rw [codecCalls_coded, hquiet, List.mem_singleton] at hcall
      rw [hcall, ← hbad]
      intro hbad
      unfold deliver at hok
      rw [if_pos hbad] at hok
      cases hok

end PacketWriter

/-- A batch ends with the call that failed. -/
theorem Batch.lastIfFailed {w w' : PacketWriter σ η} {k k' : κ} {quanta : List (List Sample)}
    {outcome : Except EncodeError Unit} {events : List Event}
    (h : Batch w k quanta outcome w' k' events) :
    w'.frame.size = w.frame.size ∧ LastIfFailed w.frame.size events ∧
      (outcome = .ok () → NoneFailed w.frame.size events) := by
  induction h with
  | nil => exact ⟨rfl, List.Pairwise.nil, fun _ => noneFailed_of_quiet rfl⟩
  | @broken w k quantum error failed =>
      exact ⟨w.size_frame_emit k quantum, (w.lastIfFailed_emit k quantum).1, nofun⟩
  | @cons w w' k k' quantum quanta outcome events n made rest ih =>
      have hfirst := (w.lastIfFailed_emit k quantum).2 n made
      rw [w.size_frame_emit k quantum] at ih
      obtain ⟨hsize, hlast, hnone⟩ := ih
      exact ⟨hsize, hfirst.lastIfFailed_append hlast, fun hok => hfirst.append (hnone hok)⟩

end

/-! ### The failing operation -/

namespace Encoder

variable {σ η κ : Type} [CodecSession σ]

/-- The codec was not called after it failed, and a ready encoder has
not seen it fail. -/
structure StopsAtFailure (size : Nat) (events : List Event) (e : Encoder σ η) : Prop where
  capacity : e.writer.frame.size = size
  sound : e.state = .ready → NoneFailed size events
  last : LastIfFailed size events

variable {size : Nat} {events later : List Event} {e e' : Encoder σ η}

omit [CodecSession σ] in
theorem StopsAtFailure.quiet (h : StopsAtFailure size events e) (hcalls : codecCalls later = [])
    (hquiet : Quiet later) (hframe : e'.writer.frame = e.writer.frame)
    (hstate : e'.state = .ready → e.state = .ready) : StopsAtFailure size (events ++ later) e' where
  capacity := hframe ▸ h.capacity
  sound hready := (h.sound (hstate hready)).append (noneFailed_of_quiet hcalls)
  last := h.last.append_quiet hcalls hquiet

/-- After a batch without a failure none has been seen at all. -/
theorem StopsAtFailure.batch_ok [RemapHook η] [Sink κ] {k k' : κ} {quanta : List (List Sample)}
    (h : StopsAtFailure size events e) (hready : e.state = .ready)
    (hbatch : Batch e.writer k quanta (.ok ()) e'.writer k' later) (before after : List Message) :
    StopsAtFailure size (events ++ (Event.ofLog before ++ later ++ Event.ofLog after)) e' := by
  obtain ⟨hsize, -, hnone⟩ := hbatch.lastIfFailed
  rw [h.capacity] at hsize hnone
  have hall : NoneFailed size (events ++ (Event.ofLog before ++ later ++ Event.ofLog after)) := by
    refine (h.sound hready).append (NoneFailed.append (.append ?_ (hnone rfl)) ?_)
    · exact noneFailed_of_quiet (codecCalls_ofLog before)
    · exact noneFailed_of_quiet (codecCalls_ofLog after)
  exact ⟨hsize, fun _ => hall, hall.lastIfFailed⟩

theorem StopsAtFailure.move [RemapHook η] [Sink κ] {k k' : κ} {accepted : List Sample}
    (h : StopsAtFailure size events e) (hmove : Move e k accepted later e' k') :
    StopsAtFailure size (events ++ later) e' := by
  cases hmove with
  | idle log => exact h.quiet (codecCalls_ofLog log) (quiet_ofLog log) rfl id
  | hook hook => exact h.quiet rfl (quiet_ofLog []) rfl id
  | accept before after ready whole gathers batch => exact h.batch_ok ready batch before after
  | flush before after ready batch => exact h.batch_ok ready batch before after
  | fail before after ready spent geometry batch =>
      obtain ⟨hsize, hlast, -⟩ := batch.lastIfFailed
      rw [h.capacity] at hsize hlast
      refine ⟨hsize, nofun, (h.sound ready).lastIfFailed_append ?_⟩
      refine LastIfFailed.append_quiet ?_ (codecCalls_ofLog after) (quiet_ofLog after)
      exact (noneFailed_of_quiet (codecCalls_ofLog before)).lastIfFailed_append hlast

/-- Closing does nothing to the outside but releasing the session. -/
theorem quiet_close (e : Encoder σ η) : Quiet e.close.2 := by
  intro event hevent
  cases hlease : e.writer.lease with
  | held s =>
      rw [close_of_held e hlease] at hevent
      exact List.mem_singleton.mp hevent
  | released remains =>
      rw [close_of_released e hlease] at hevent
      cases hevent

theorem invariant_stopsAtFailure [RemapHook η] (size : Nat) :
    Run.Invariant fun _ events (e : Encoder σ η) => StopsAtFailure size events e where
  move h hmove := h.move hmove
  close {_ _ e} h := h.quiet e.still_close.calls (quiet_close e) rfl nofun

end Encoder

/-! ### Every operation afterwards -/

namespace Operation

variable {η κ : Type}

/-- Whether the operation closes the encoder. -/
def closes : Operation η κ → Bool
  | .close => true
  | _ => false

/-- The error of a call for more frames than its block has. -/
def shortage? (op : Operation η κ) (channels : Nat) : Option EncodeError :=
  match op with
  | .encodeFrames samples frames =>
      let requested := frames.samples channels
      if samples.length < requested then some (.insufficient requested samples.length) else none
  | _ => none

/-- The sink that is in use after an operation which writes nothing. -/
def sinkAfter (k : κ) : Operation η κ → κ
  | .useSink sink => sink
  | _ => k

end Operation

namespace Encoder

variable {σ η κ : Type}

/-- From one encoder to the other at most the hook was set and the
session released. -/
structure Inert (e : Encoder σ η) (events : List Event) (e' : Encoder σ η) : Prop where
  quiet : Quiet events
  encoder : e' = { e with
    writer := { e.writer with lease := e'.writer.lease, hook := e'.writer.hook }
    state := e'.state }

theorem Inert.refl (e : Encoder σ η) : Inert e [] e := ⟨quiet_ofLog [], rfl⟩

theorem Inert.trans {e e' e'' : Encoder σ η} {events later : List Event} (h : Inert e events e')
    (h' : Inert e' later e'') : Inert e (events ++ later) e'' where
  quiet := h.quiet.append h'.quiet
  encoder := by rw [h'.encoder, h.encoder]

variable [CodecSession σ] [RemapHook η] [Sink κ] {e : Encoder σ η}

/-- All that an operation does to an encoder that is not ready. -/
theorem inert_perform (hspent : e.state ≠ .ready) (op : Operation η κ) (k : κ) :
    Inert e (op.perform e k).events (op.perform e k).encoder ∧
      (op.perform e k).encoder.state = (if op.closes then .closed else e.state) ∧
      (op.perform e k).sink = op.sinkAfter k := by
  cases op with
  | encode samples =>
      rw [Operation.perform, encode_of_ne hspent]
      exact ⟨.refl e, rfl, rfl⟩
  | encodeFrames samples frames =>
      rw [Operation.perform, encodeFrames, encode_of_ne hspent]
      split <;> exact ⟨.refl e, rfl, rfl⟩
  | encodeToBytes samples =>
      rw [Operation.perform, encodeToBytes, encode_of_ne hspent]
      exact ⟨.refl e, rfl, rfl⟩
  | encodeSource source =>
      rw [Operation.perform, encodeSource, requireReady_of_ne hspent]
      exact ⟨.refl e, rfl, rfl⟩
  | flush =>
      rw [Operation.perform, flush_of_ne hspent]
      exact ⟨.refl e, rfl, rfl⟩
  | flushToBytes =>
      rw [Operation.perform, flushToBytes, flush_of_ne hspent]
      exact ⟨.refl e, rfl, rfl⟩
  | setHook hook => exact ⟨⟨quiet_ofLog [], rfl⟩, rfl, rfl⟩
  | useSink sink => exact ⟨.refl e, rfl, rfl⟩
  | close => exact ⟨⟨quiet_close e, rfl⟩, rfl, rfl⟩

/-- An encoder that is not ready refuses to encode and to flush. Whether a
block has the frames that are asked for is looked at before. -/
theorem outcome_of_spent (hspent : e.state ≠ .ready) {op : Operation η κ} (hwork : op.IsWork)
    (k : κ) : op.outcome e k = .error ((op.shortage? e.channels).getD .finalized) := by
  cases op with
  | encode samples =>
      rw [Operation.outcome, encode_of_ne hspent]
      rfl
  | encodeFrames samples frames =>
      rw [Operation.outcome, encodeFrames, encode_of_ne hspent, Operation.shortage?]
      split <;> rfl
  | encodeToBytes samples =>
      rw [Operation.outcome, encodeToBytes, encode_of_ne hspent]
      rfl
  | encodeSource source =>
      rw [Operation.outcome, encodeSource, requireReady_of_ne hspent]
      rfl
  | flush =>
      rw [Operation.outcome, flush_of_ne hspent]
      rfl
  | flushToBytes =>
      rw [Operation.outcome, flushToBytes, flush_of_ne hspent]
      rfl
  | setHook | useSink | close => exact hwork.elim

theorem refuses_of_spent (hspent : e.state ≠ .ready) {op : Operation η κ} (hwork : op.IsWork)
    (k : κ) : ∃ error, op.outcome e k = .error error :=
  ⟨_, outcome_of_spent hspent hwork k⟩

/-- An encoder that is not ready stays so in every run, and nothing but
closing it changes its state. -/
theorem inert_run (hspent : e.state ≠ .ready) (k : κ) (ops : List (Operation η κ)) :
    Inert e (e.run k ops).events (e.run k ops).encoder ∧
      (e.run k ops).encoder.state = (if ops.any Operation.closes then .closed else e.state) ∧
      (e.run k ops).sink = ops.foldl Operation.sinkAfter k := by
  induction ops using List.reverseRecOn with
  | nil => exact ⟨.refl e, rfl, rfl⟩
  | append_singleton ops op ih =>
      obtain ⟨hinert, hstate, hsink⟩ := ih
      have hspent' : (e.run k ops).encoder.state ≠ .ready := by
        rw [hstate]
        split
        · nofun
        · exact hspent
      obtain ⟨hinert', hstate', hsink'⟩ := inert_perform hspent' op (e.run k ops).sink
      rw [run_concat]
      refine ⟨hinert.trans hinert', ?_, ?_⟩
      · show (op.perform _ _).encoder.state = _
        rw [hstate', hstate, List.any_append, List.any_cons, List.any_nil, Bool.or_false]
        cases op.closes <;> cases ops.any Operation.closes <;> rfl
      · show (op.perform _ _).sink = _
        rw [hsink', hsink, List.foldl_append]
        rfl

/-- An encoder that was flushed, has failed or was closed is never ready
again. Closing is all that changes its state; whatever is asked of it
is refused without a look at the codec, the hook, a source or a sink;
and its counts stand still. A codec that failed is left alone at once,
also within the operation in which it did. -/
theorem finished_is_final {γ : Type} [Codec γ σ] {codec : γ} {settings : Settings}
    {hook : Option η} {first : Encoder σ η} {opening : List Event}
    (hstart : start codec settings hook = .ready first opening) (k : κ)
    (before after : List (Operation η κ)) :
    let r := first.run k before
    let r' := first.run k (before ++ after)
    ((r.encoder.state = .ready → NoneFailed first.writer.frame.size r.events) ∧
      LastIfFailed first.writer.frame.size r.events) ∧
    (r.encoder.state ≠ .ready →
      (r'.encoder.state ≠ .ready ∧
        r'.encoder.state = if after.any Operation.closes then .closed else r.encoder.state) ∧
      (∀ {μ : Type} [Sink μ] (m : μ) (op : Operation η μ), op.IsWork →
        ∃ error, op.outcome r'.encoder m = .error error) ∧
      (∃ later, r'.events = r.events ++ later ∧ Quiet later) ∧
      r'.sink = after.foldl Operation.sinkAfter r.sink ∧
      (∀ {ρ : Type} [Source ρ] (source : ρ),
        (r'.encoder.encodeSource source r'.sink).source = source) ∧
      r'.encoder.framesIn = r.encoder.framesIn ∧ r'.encoder.packets = r.encoder.packets ∧
      r'.encoder.bytes = r.encoder.bytes ∧ r'.encoder.carried = r.encoder.carried) := by
  obtain ⟨s, log, hlog, hfresh⟩ := fresh_of_start hstart
  have hfits := QuantumBuffer.fits_of_carried hfresh.carried
  intro r r'
  constructor
  · have hbegin : StopsAtFailure first.writer.frame.size [] first :=
      ⟨rfl, fun _ => noneFailed_of_quiet rfl, List.Pairwise.nil⟩
    have hall : StopsAtFailure first.writer.frame.size r.events r.encoder :=
      invariant_run (invariant_stopsAtFailure _) hfits hbegin k before
    exact ⟨hall.sound, hall.last⟩
  · intro hspent
    obtain ⟨hinert, hstate, hsink⟩ := inert_run hspent r.sink after
    have hrun : r' = _ := first.run_append k before after
    rw [hrun]
    dsimp only
    have hspent' : (r.encoder.run r.sink after).encoder.state ≠ .ready := by
      rw [hstate]
      split
      · nofun
      · exact hspent
    refine ⟨⟨hspent', hstate⟩, fun m op hwork => refuses_of_spent hspent' hwork m,
      ⟨_, rfl, hinert.quiet⟩, hsink, ?_, ?_⟩
    · intro ρ _ source
      rw [encodeSource, requireReady_of_ne hspent']
    · rw [hinert.encoder]
      exact ⟨rfl, rfl, rfl, rfl⟩

open Rehearsal in
/-- The codec fails at its second quantum, with two more to come. The
encoder is then asked for everything once more and closed in between. -/
theorem finished_is_final_scripted :
    ∃ (first : Encoder ScriptedSession Hook) (opening : List Event),
      start (⟨⟨2⟩, 8, none, [4, -3, 4]⟩ : ScriptedCodec) {} (some Hook.reverse)
        = .ready first opening ∧
      let before : List (Operation Hook ScriptedSink) :=
        [.encode (List.replicate 18 ⟨7⟩)]
      let after : List (Operation Hook ScriptedSink) :=
        [.encodeFrames [⟨1⟩] ⟨5⟩, .setHook .mark, .useSink ⟨[.fail]⟩, .flushToBytes, .close,
          .encodeSource (⟨[1, 2, 3, 4], [], true, 0⟩ : ScriptedSource), .close]
      let r := first.run ⟨[]⟩ before
      let r' := first.run ⟨[]⟩ (before ++ after)
      r.encoder.state = .failed ∧ (codecCalls r.events).length = 2 ∧
        LastIfFailed 8 r.events ∧ r'.encoder.state = .closed ∧
        ∃ later, r'.events = r.events ++ later ∧ Quiet later := by
  have hstart : start (⟨⟨2⟩, 8, none, [4, -3, 4]⟩ : ScriptedCodec) {} (some Hook.reverse)
      = .ready _ _ := rfl
  refine ⟨_, _, hstart, ?_⟩
  intro before after r r'
  have hfailed : r.encoder.state = .failed := by cbv
  obtain ⟨⟨-, hlast⟩, hfinal⟩ := finished_is_final hstart ⟨[]⟩ before after
  obtain ⟨⟨-, hclosed⟩, -, hquiet, -⟩ := hfinal (by rw [hfailed]; decide)
  exact ⟨hfailed, by cbv, hlast, hclosed, hquiet⟩

end Encoder

end Packetizer

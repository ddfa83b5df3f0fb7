import Packetizer.Proofs.Encoder.Session
import Packetizer.Rehearsal.Devices
import Packetizer.Rehearsal.ScriptedCodec

/-!
# `Packetizer.Proofs.Encoder.Delivery`: what sinks hold of the packets of a codec

A sink that is written to by one encoder holds the packets that the
codec announced, in the order of its calls (`Delivered`), and the
counts of the encoder count them. When something fails, the answer of
the last call is left out or torn off (`Torn`), the encoder is spent,
and nothing is added any more.

The answers are those of the `Replay` of the calls, and what a sink
holds is what the events tell of it. `Moves.taken` says that a sink
that keeps record has the same bytes on its record.

The counts are natural numbers. `counts_fit_words` says for how many
calls words of 64 bits hold them.
-/

set_option autoImplicit false

namespace Packetizer

variable {σ η κ : Type}

/-! ### What a sink has on its record -/

/-- Delivering a packet adds to the record what the events tell. -/
theorem PacketWriter.taken_deliver [Sink κ] (w : PacketWriter σ η) (k : Recorded κ)
    (given : List Sample) (code : Int32) :
    (w.deliver k given code).sink.taken
      = k.taken ++ bytesTaken (w.deliver k given code).events := by
  unfold deliver
  split
  · exact (List.append_nil _).symm
  · dsimp only
    split
    · exact (List.append_nil _).symm
    · have hwritten := Sink.taken_writeAll k (w.frame.front code.toInt.toNat)
      split
      · exact hwritten
      · rw [hwritten, bytesTaken_append]
        exact congrArg (k.taken ++ ·) (List.append_nil _).symm

section
variable [CodecSession σ] [RemapHook η] [Sink κ]

/-- A call of the codec adds to the record what the events tell. -/
theorem PacketWriter.taken_emit (w : PacketWriter σ η) (k : Recorded κ)
    (samples : List Sample) :
    (w.emit k samples).sink.taken = k.taken ++ bytesTaken (w.emit k samples).events := by
  obtain ⟨given, hook, events, hremap, -, -, htaken, -⟩ := remap_eq w samples
  unfold emit
  rw [hremap]
  dsimp only
  split
  · rw [htaken, List.append_nil]
  · dsimp only
    rw [taken_deliver, bytesTaken_append, bytesTaken_coded, htaken, List.nil_append]

/-- A batch adds to the record what the events tell. -/
theorem Batch.taken {w w' : PacketWriter σ η} {k k' : Recorded κ}
    {quanta : List (List Sample)} {outcome : Except EncodeError Unit} {events : List Event}
    (h : Batch w k quanta outcome w' k' events) : k'.taken = k.taken ++ bytesTaken events := by
  induction h with
  | nil w k => exact (List.append_nil _).symm
  | @broken w k => exact w.taken_emit k _
  | @cons w w' k k' quantum quanta outcome events n made rest ih =>
      rw [ih, w.taken_emit k quantum, bytesTaken_append, List.append_assoc]

/-- Moves add to the record what the events tell. -/
theorem Moves.taken {e e' : Encoder σ η} {k k' : Recorded κ} {accepted : List Sample}
    {events : List Event} (h : Moves e k accepted events e' k') :
    k'.taken = k.taken ++ bytesTaken events := by
  induction h with
  | refl => exact (List.append_nil _).symm
  | step moves move ih =>
      rw [bytesTaken_append, ← List.append_assoc, ← ih]
      cases move with
      | idle log => rw [bytesTaken_ofLog, List.append_nil]
      | hook hook => exact (List.append_nil _).symm
      | accept before after ready whole gathers batch => rw [batch.taken, bytesTaken_logged]
      | fail before after ready spent geometry batch => rw [batch.taken, bytesTaken_logged]
      | flush before after ready batch => rw [batch.taken, bytesTaken_logged]

/-- A run on one sink adds to its record what the events tell. -/
theorem Encoder.taken_run {e : Encoder σ η} (hfits : e.gatherer.Fits) (k : Recorded κ)
    {ops : List (Operation η (Recorded κ))} (hops : ∀ op ∈ ops, op.OnSink) :
    (e.run k ops).sink.taken = k.taken ++ bytesTaken (e.run k ops).events := by
  induction ops using List.reverseRecOn with
  | nil => exact (List.append_nil _).symm
  | append_singleton ops op ih =>
      have hrest := ih fun o ho => hops o (List.mem_append_left _ ho)
      have hsink := hops op (List.mem_append_right _ (List.mem_singleton_self op))
      rw [run_concat]
      show (op.perform (e.run k ops).encoder (e.run k ops).sink).sink.taken
        = k.taken ++ bytesTaken ((e.run k ops).events ++ _)
      rw [bytesTaken_append, ← List.append_assoc, ← hrest]
      by_cases hop : op = .close
      · subst hop
        show (e.run k ops).sink.taken
          = (e.run k ops).sink.taken ++ bytesTaken (e.run k ops).encoder.close.2
        rw [(still_close _).taken, List.append_nil]
      · exact (op.moves_onSink hsink hop (fits_run hfits k ops) _).taken

end

/-! ### Counts that fit words -/

/-- A result code is below `2 ^ 31`, and so is the size of its packet. -/
theorem Coded.length_packet_le (c : Coded σ) : c.packet.length ≤ 0x7FFFFFFF := by
  have hcode := c.code.toInt_lt
  rw [packet, List.length_take]
  omega

section
variable [CodecSession σ] [RemapHook η] [Sink κ]

/-- A call of the codec counts one packet at most, with the bytes of its code. -/
theorem PacketWriter.counts_emit (w : PacketWriter σ η) (k : κ) (samples : List Sample) :
    let x := w.emit k samples
    let calls := (codecCalls x.events).length
    x.writer.packets ≤ w.packets + calls ∧ x.writer.bytes ≤ w.bytes + 0x7FFFFFFF * calls := by
  intro x calls
  cases hlease : w.lease with
  | released remains =>
      -- The codec is not called; only the hook may have changed.
      obtain ⟨given, hook, events, hremap, -⟩ := remap_eq w samples
      have hx : x.writer = { w with hook := hook } := by
        simp only [x, emit, hremap, hlease]
      rw [hx]
      exact ⟨Nat.le_add_right _ _, Nat.le_add_right _ _⟩
  | held s =>
      obtain ⟨given, hreports⟩ := emit_of_held hlease k samples
      have hcalls : calls = 1 := congrArg List.length hreports.calls
      have hsize := (CodecSession.encodeQuantum s w.frame given).length_packet_le
      have hsettled : Settled w.packets w.bytes _ x := hreports.settled
      rw [hcalls]
      cases hsettled with
      | refused failure outcome taken counted summed => omega
      | torn packet sound error rest outcome taken missing counted summed => omega
      | written sound outcome taken counted summed =>
          refine ⟨Nat.le_trans (Nat.le_of_eq counted) ?_, by omega⟩
          split
          · exact Nat.le_refl _
          · exact Nat.le_succ _

/-- So does a batch of calls. -/
theorem Batch.counts {w w' : PacketWriter σ η} {k k' : κ} {quanta : List (List Sample)}
    {outcome : Except EncodeError Unit} {events : List Event}
    (h : Batch w k quanta outcome w' k' events) :
    w'.packets ≤ w.packets + (codecCalls events).length ∧
      w'.bytes ≤ w.bytes + 0x7FFFFFFF * (codecCalls events).length := by
  induction h with
  | nil w k => exact ⟨Nat.le_refl _, Nat.le_refl _⟩
  | @broken w k => exact w.counts_emit k _
  | @cons w w' k k' quantum quanta outcome events n made rest ih =>
      obtain ⟨hpackets, hbytes⟩ := w.counts_emit k quantum
      rw [codecCalls_append, List.length_append]
      omega

namespace Encoder

/-- There are no more packets than calls of the codec, and for each call fewer than
`2 ^ 31` bytes. -/
structure Counted (events : List Event) (e : Encoder σ η) : Prop where
  packets : e.packets ≤ (codecCalls events).length
  bytes : e.bytes ≤ 0x7FFFFFFF * (codecCalls events).length

/-- A batch keeps the counts behind the calls. -/
theorem Counted.batch {e e' : Encoder σ η} {k k' : κ} {quanta : List (List Sample)}
    {outcome : Except EncodeError Unit} {events later : List Event} (h : e.Counted events)
    (hbatch : Batch e.writer k quanta outcome e'.writer k' later) (before after : List Message) :
    e'.Counted (events ++ (Event.ofLog before ++ later ++ Event.ofLog after)) := by
  obtain ⟨hpackets, hbytes⟩ := hbatch.counts
  have hpackets' : e.writer.packets ≤ _ := h.packets
  have hbytes' : e.writer.bytes ≤ _ := h.bytes
  rw [← codecCalls_logged before after] at hpackets hbytes
  constructor
  · show e'.writer.packets ≤ _
    rw [codecCalls_append, List.length_append]
    omega
  · show e'.writer.bytes ≤ _
    rw [codecCalls_append, List.length_append]
    omega

/-- Moves and closing keep the counts behind the calls. -/
theorem invariant_counted :
    Run.Invariant fun _ events (e : Encoder σ η) => e.Counted events where
  move h hmove := by
    cases hmove with
    | idle log =>
        constructor
        · rw [codecCalls_append, codecCalls_ofLog, List.append_nil]
          exact h.packets
        · rw [codecCalls_append, codecCalls_ofLog, List.append_nil]
          exact h.bytes
    | hook hook =>
        rw [List.append_nil]
        exact ⟨h.packets, h.bytes⟩
    | accept before after ready whole gathers batch => exact h.batch batch before after
    | fail before after ready spent geometry batch => exact h.batch batch before after
    | flush before after ready batch => exact h.batch batch before after
  close {_ events e} h := by
    have hstill := e.still_close
    constructor
    · rw [hstill.packets, codecCalls_append, hstill.calls, List.append_nil]
      exact h.packets
    · rw [hstill.bytes, codecCalls_append, hstill.calls, List.append_nil]
      exact h.bytes

/-- The counts of an encoder fit words of 64 bits for the first `2 ^ 33` calls of
the codec, in any run. -/
theorem counts_fit_words {γ : Type} [Codec γ σ] {codec : γ} {settings : Settings}
    {hook : Option η} {first : Encoder σ η} {opening : List Event}
    (hstart : start codec settings hook = .ready first opening) (k : κ)
    (ops : List (Operation η κ)) (hcalls : (codecCalls (first.run k ops).events).length ≤ 2 ^ 33) :
    (first.run k ops).encoder.packets < UInt64.size ∧
      (first.run k ops).encoder.bytes < UInt64.size := by
  obtain ⟨s, log, -, hfresh⟩ := fresh_of_start hstart
  have hfirst : first.Counted [] :=
    ⟨Nat.le_of_eq hfresh.packets, Nat.le_of_eq hfresh.bytes⟩
  have hcounted := invariant_run invariant_counted
    (QuantumBuffer.fits_of_carried hfresh.carried) hfirst k ops
  obtain ⟨hpackets, hbytes⟩ := hcounted
  rw [List.nil_append] at hpackets hbytes
  simp only [UInt64.size]
  omega

end Encoder

end

/-! ### Packets and their delivery -/

/-- The packets among some answers of a codec, in a row. -/
def packetBytes (answers : List (Coded σ)) : List UInt8 :=
  (answers.filter Coded.isPacket).flatMap Coded.packet

/-- All answers of the codec were numbers of bytes in the frame buffer.
The sink holds the packets among them, and they are counted. -/
structure Delivered (answers : List (Coded σ)) (taken : List UInt8) (packets bytes : Nat) :
    Prop where
  sound : ∀ coded ∈ answers, ¬ coded.IsFailure
  taken : taken = packetBytes answers
  packets : packets = answers.countP Coded.isPacket
  bytes : bytes = (packetBytes answers).length

/-- A sink holds a part of an answer that did not get through: nothing
of a code that is no number of bytes in the frame buffer, and less than
all of a packet that the sink failed to take. -/
def Coded.TornTo (coded : Coded σ) (part : List UInt8) : Prop :=
  (coded.IsFailure ∧ part = []) ∨
  (¬ coded.IsFailure ∧ coded.isPacket = true ∧ ∃ rest ≠ [], part ++ rest = coded.packet)

/-- All answers but the last one are delivered and counted, and a part
of that one is behind them. -/
def Torn (answers : List (Coded σ)) (taken : List UInt8) (packets bytes : Nat) : Prop :=
  ∃ done last whole part, answers = done ++ [last] ∧ taken = whole ++ part ∧
    Delivered done whole packets bytes ∧ last.TornTo part

/-- Packets of answers in a row are in a row. -/
theorem packetBytes_append (answers more : List (Coded σ)) :
    packetBytes (answers ++ more) = packetBytes answers ++ packetBytes more := by
  rw [packetBytes, List.filter_append, List.flatMap_append]
  rfl

/-- An answer without a packet has no bytes, and one with a packet has
those of the packet. -/
theorem packetBytes_singleton {coded : Coded σ} (h : ¬ coded.IsFailure) :
    packetBytes [coded] = coded.packet := by
  cases hpacket : coded.isPacket with
  | true => simp [packetBytes, hpacket]
  | false =>
      have hlen : coded.packet.length = 0 := by
        rw [Coded.length_packet h]
        have := mt coded.isPacket_iff.mpr (by rw [hpacket]; nofun)
        omega
      simp [packetBytes, hpacket, List.eq_nil_of_length_eq_zero hlen]

namespace Delivered

variable {answers : List (Coded σ)} {taken : List UInt8} {packets bytes : Nat} {coded : Coded σ}

/-- An answer that was written is delivered. -/
theorem written {x : Emission σ η κ} {n : Nat} (h : Delivered answers taken packets bytes)
    (hsettled : Settled packets bytes coded x) (hok : x.outcome = .ok n) :
    Delivered (answers ++ [coded]) (taken ++ bytesTaken x.events) x.writer.packets
      x.writer.bytes := by
  cases hsettled with
  | refused failure outcome =>
      rw [outcome] at hok
      cases hok
  | torn packet sound error rest outcome =>
      rw [outcome] at hok
      cases hok
  | written sound outcome htaken counted summed =>
      constructor
      · intro c hc
        rcases List.mem_append.mp hc with hold | hnew
        · exact h.sound c hold
        · rw [List.mem_singleton.mp hnew]
          exact sound
      · rw [packetBytes_append, packetBytes_singleton sound, h.taken, htaken]
      · rw [counted, h.packets, List.countP_append, List.countP_singleton]
      · rw [summed, h.bytes, packetBytes_append, packetBytes_singleton sound,
          List.length_append]

/-- An answer that was not written is torn. -/
theorem torn {x : Emission σ η κ} {error : EncodeError}
    (h : Delivered answers taken packets bytes) (hsettled : Settled packets bytes coded x)
    (herr : x.outcome = .error error) :
    Torn (answers ++ [coded]) (taken ++ bytesTaken x.events) x.writer.packets
      x.writer.bytes := by
  refine ⟨answers, coded, taken, bytesTaken x.events, rfl, rfl, ?_, ?_⟩
  · cases hsettled with
    | refused failure outcome htaken counted summed =>
        rw [counted, summed]
        exact h
    | torn packet sound error rest outcome htaken missing counted summed =>
        rw [counted, summed]
        exact h
    | written sound outcome =>
        rw [outcome] at herr
        cases herr
  · cases hsettled with
    | refused failure outcome htaken => exact .inl ⟨failure, htaken⟩
    | torn packet sound error rest outcome htaken missing =>
        exact .inr ⟨sound, packet, rest, missing, htaken⟩
    | written sound outcome =>
        rw [outcome] at herr
        cases herr

end Delivered

section
variable [CodecSession σ]

/-- A batch delivers the answers to its calls, but for the last one if
it failed. -/
theorem Batch.delivers [RemapHook η] [Sink κ] {w w' : PacketWriter σ η} {k k' : κ}
    {quanta : List (List Sample)} {outcome : Except EncodeError Unit} {events : List Event}
    (h : Batch w k quanta outcome w' k' events) {p : Replay σ} (hp : w.Follows p)
    {taken : List UInt8} (hdelivered : Delivered p.answers taken w.packets w.bytes) :
    (outcome = .ok () → Delivered (p.after (codecCalls events)).answers
      (taken ++ bytesTaken events) w'.packets w'.bytes) ∧
    ∀ error, outcome = .error error → Torn (p.after (codecCalls events)).answers
      (taken ++ bytesTaken events) w'.packets w'.bytes := by
  induction h generalizing p taken with
  | nil =>
      refine ⟨fun _ => ?_, nofun⟩
      rw [show bytesTaken [] = [] from rfl, List.append_nil]
      exact hdelivered
  | @broken w k quantum error failed =>
      obtain ⟨given, coded, hcalls, hanswers, -, -, hsettled⟩ := hp.emit k quantum
      refine ⟨nofun, fun _ _ => ?_⟩
      rw [hcalls, Replay.after_singleton, hanswers]
      exact hdelivered.torn hsettled failed
  | @cons w w' k k' quantum quanta outcome events n made rest ih =>
      obtain ⟨given, coded, hcalls, hanswers, hfollows, -, hsettled⟩ := hp.emit k quantum
      -- The first answer is delivered, and `ih` is about the calls behind it.
      have hmore := hdelivered.written hsettled made
      rw [← hanswers] at hmore
      rw [codecCalls_append, hcalls, Replay.after_append, bytesTaken_append,
        ← List.append_assoc]
      exact ih hfollows hmore

namespace Encoder

/-- Sinks hold every packet that the events tell of. -/
def Whole (s : σ) (events : List Event) (e : Encoder σ η) : Prop :=
  Delivered (replay s events).answers (bytesTaken events) e.packets e.bytes

/-- Sinks hold every packet but the last, and at most a part of that. -/
def Broken (s : σ) (events : List Event) (e : Encoder σ η) : Prop :=
  Torn (replay s events).answers (bytesTaken events) e.packets e.bytes

/-- The state of an encoder that was not closed tells whether sinks
hold every packet. -/
inductive Contents (s : σ) (events : List Event) (e : Encoder σ η) : Prop where
  | whole (sound : e.state ≠ .failed) (whole : e.Whole s events)
  | broken (failed : e.state = .failed) (broken : e.Broken s events)

variable {s : σ} {events later : List Event} {e e' : Encoder σ η}

/-- Where nothing happens, sinks go on to hold every packet. -/
theorem Whole.still (h : e.Whole s events) (hstill : e.Still later e') :
    e'.Whole s (events ++ later) := by
  rw [Whole, replay_quiet s events later hstill.calls, bytesTaken_append, hstill.taken,
    List.append_nil, hstill.packets, hstill.bytes]
  exact h

/-- Where nothing happens, sinks go on to miss what they miss. -/
theorem Broken.still (h : e.Broken s events) (hstill : e.Still later e') :
    e'.Broken s (events ++ later) := by
  rw [Broken, replay_quiet s events later hstill.calls, bytesTaken_append, hstill.taken,
    List.append_nil, hstill.packets, hstill.bytes]
  exact h

/-- Where nothing happens, the state goes on to tell what sinks hold. -/
theorem Contents.still (h : Contents s events e) (hstill : e.Still later e')
    (hstate : e'.state = e.state) : Contents s (events ++ later) e' := by
  cases h with
  | whole sound whole => exact .whole (hstate ▸ sound) (whole.still hstill)
  | broken failed broken => exact .broken (hstate ▸ failed) (broken.still hstill)

/-- Nothing is missing as long as an encoder is ready. -/
theorem Contents.whole_of_ready (h : Contents s events e) (hready : e.state = .ready) :
    e.Whole s events := by
  cases h with
  | whole sound whole => exact whole
  | broken failed broken =>
      rw [hready] at failed
      cases failed

variable [RemapHook η] [Sink κ] {k k' : κ} {quanta : List (List Sample)}

/-- After a batch that went well sinks hold every packet. -/
theorem Whole.batch (h : e.Whole s events) (hfollows : e.writer.Follows (replay s events))
    (hbatch : Batch e.writer k quanta (.ok ()) e'.writer k' later)
    (before after : List Message) :
    e'.Whole s (events ++ (Event.ofLog before ++ later ++ Event.ofLog after)) := by
  rw [Whole, replay_logged, bytesTaken_append, bytesTaken_logged]
  exact (hbatch.delivers hfollows h).1 rfl

/-- After a batch that failed sinks miss the last packet. -/
theorem Whole.broken {error : EncodeError} (h : e.Whole s events)
    (hfollows : e.writer.Follows (replay s events))
    (hbatch : Batch e.writer k quanta (.error error) e'.writer k' later)
    (before after : List Message) :
    e'.Broken s (events ++ (Event.ofLog before ++ later ++ Event.ofLog after)) := by
  rw [Broken, replay_logged, bytesTaken_append, bytesTaken_logged]
  exact (hbatch.delivers hfollows h).2 error rfl

/-- What a move adds to sinks is told by the state. -/
theorem Contents.move {accepted : List Sample} (h : Contents s events e)
    (hholds : Holds s events e) (hmove : Move e k accepted later e' k') :
    Contents s (events ++ later) e' := by
  cases hmove with
  | idle log => exact h.still ⟨codecCalls_ofLog log, bytesTaken_ofLog log, rfl, rfl⟩ rfl
  | hook hook => exact h.still ⟨rfl, rfl, rfl, rfl⟩ rfl
  | accept before after ready whole gathers batch =>
      have hwhole := h.whole_of_ready ready
      refine .whole ?_ (hwhole.batch (hholds.follows ready) batch before after)
      show e.state ≠ .failed
      rw [ready]
      nofun
  | fail before after ready spent geometry batch =>
      have hwhole := h.whole_of_ready ready
      exact .broken rfl (hwhole.broken (hholds.follows ready) batch before after)
  | flush before after ready batch =>
      have hwhole := h.whole_of_ready ready
      exact .whole (by nofun) (hwhole.batch (hholds.follows ready) batch before after)

/-- What moves add to sinks is told by the state. -/
theorem Contents.moves {accepted : List Sample} (h : Contents s events e)
    (hholds : Holds s events e) (hmoves : Moves e k accepted later e' k') :
    Contents s (events ++ later) e' := by
  -- A move needs to know the session, so both are carried along.
  have hboth : Contents s (events ++ later) e' ∧ Holds s (events ++ later) e' :=
    hmoves.keeps (I := fun _ events e => Contents s events e ∧ Holds s events e)
      (fun h hmove => ⟨h.1.move h.2 hmove, h.2.move hmove⟩) [] ⟨h, hholds⟩
  exact hboth.1

/-! ### Whole runs -/

/-- An encoder did not fail in any part of a run. -/
def NeverFails (e : Encoder σ η) (k : κ) (ops : List (Operation η κ)) : Prop :=
  ∀ before, before <+: ops → (e.run k before).encoder.state ≠ .failed

/-- Not failing is not having failed before and not failing now. -/
theorem neverFails_concat (e : Encoder σ η) (k : κ) (ops : List (Operation η κ))
    (op : Operation η κ) :
    e.NeverFails k (ops ++ [op]) ↔
      e.NeverFails k ops ∧ (e.run k (ops ++ [op])).encoder.state ≠ .failed := by
  constructor
  · intro h
    refine ⟨fun before hbefore => h before ?_, h _ (List.prefix_refl _)⟩
    exact hbefore.trans (List.prefix_append _ _)
  · rintro ⟨hbefore, hnow⟩ before hprefix
    rcases List.prefix_concat_iff.mp hprefix with rfl | hprefix
    · exact hnow
    · exact hbefore before hprefix

/-- After a run on one sink either nothing has failed and every packet
is delivered, or something has and the encoder is spent. -/
theorem Fresh.contents_run {γ : Type} [Codec γ σ] {codec : γ} {settings : Settings}
    {first : Encoder σ η} (h : first.Fresh codec settings s) (k : κ)
    {ops : List (Operation η κ)} (hops : ∀ op ∈ ops, op.OnSink) :
    (first.NeverFails k ops ∧ (first.run k ops).encoder.Whole s (first.run k ops).events) ∨
    (¬ first.NeverFails k ops ∧ (first.run k ops).encoder.state ≠ .ready ∧
      (first.run k ops).encoder.Broken s (first.run k ops).events) := by
  have hfits := QuantumBuffer.fits_of_carried h.carried
  induction ops using List.reverseRecOn with
  | nil =>
      refine .inl ⟨?_, ?_⟩
      · intro before hbefore
        rw [List.prefix_nil.mp hbefore]
        show first.state ≠ .failed
        rw [h.state]
        nofun
      · show Delivered [] [] first.writer.packets first.writer.bytes
        rw [h.packets, h.bytes]
        exact ⟨by simp, rfl, rfl, rfl⟩
  | append_singleton ops op ih =>
      have hbefore := ih fun o ho => hops o (List.mem_append_left _ ho)
      have hsink := hops op (List.mem_append_right _ (List.mem_singleton_self op))
      have hfits' := fits_run hfits k ops
      rw [neverFails_concat, run_concat]
      -- Nothing failed before, or the encoder is spent and stays so.
      rcases hbefore with ⟨hnever, hwhole⟩ | ⟨hfails, hspent, hbroken⟩
      · by_cases hop : op = .close
        · subst hop
          exact .inl ⟨⟨hnever, nofun⟩, hwhole.still (still_close _)⟩
        · -- The operation is moves, and the state afterwards tells the two cases apart.
          have hholds : Holds s (first.run k ops).events (first.run k ops).encoder :=
            h.holds_run [] k ops
          have hcontents := Contents.moves (.whole (hnever ops (List.prefix_refl _)) hwhole)
            hholds (op.moves_onSink hsink hop hfits' (first.run k ops).sink)
          cases hcontents with
          | whole sound whole => exact .inl ⟨⟨hnever, sound⟩, whole⟩
          | broken failed broken =>
              refine .inr ⟨fun hnever => hnever.2 failed, ?_, broken⟩
              show (op.perform _ _).encoder.state ≠ .ready
              rw [failed]
              nofun
      · obtain ⟨later, hevents, hrests⟩ := rests_next hfits' hspent hsink
        refine .inr ⟨fun hnever => hfails hnever.1, hrests.spent, ?_⟩
        rw [hevents]
        exact hbroken.still hrests.toStill

/-- A sink that one encoder writes to holds the packets of its codec in
the order of the calls, and the encoder counts them. From a failure on
it holds a part of the answer that failed behind them and never changes
again. -/
theorem sink_holds_packets {γ : Type} [Codec γ σ] {codec : γ} {settings : Settings}
    {hook : Option η} {first : Encoder σ η} {opening : List Event}
    (hstart : start codec settings hook = .ready first opening) (k : κ)
    {ops : List (Operation η (Recorded κ))} (hops : ∀ op ∈ ops, op.OnSink) :
    ∃ s, first.session = some s ∧
      let k : Recorded κ := ⟨k, []⟩
      let r := first.run k ops
      let answers := (replay s r.events).answers
      (answers.map Coded.code = (codecCalls r.events).map CodecCall.code ∧
        r.encoder.writer.frame = (replay s r.events).frame) ∧
      (first.NeverFails k ops →
        Delivered answers r.sink.taken r.encoder.packets r.encoder.bytes) ∧
      ∀ before, before <+: ops → (first.run k before).encoder.state = .failed →
        let failed := first.run k before
        Torn answers r.sink.taken r.encoder.packets r.encoder.bytes ∧
          r.sink = failed.sink ∧ r.encoder.packets = failed.encoder.packets ∧
          r.encoder.bytes = failed.encoder.bytes := by
  obtain ⟨s, log, hlog, hfresh⟩ := fresh_of_start hstart
  have hfits := QuantumBuffer.fits_of_carried hfresh.carried
  refine ⟨s, by rw [session, hfresh.lease]; rfl, ?_⟩
  intro k r answers
  have hholds : Holds s r.events r.encoder := hfresh.holds_run [] k ops
  -- The record of the sink is what the events tell of all sinks, as there is no other.
  have htaken : r.sink.taken = bytesTaken r.events := taken_run hfits k hops
  rw [htaken]
  have hcontents := hfresh.contents_run k hops
  refine ⟨⟨hholds.codes, hholds.frame⟩, ?_, ?_⟩
  · intro hnever
    rcases hcontents with ⟨-, hdelivered⟩ | ⟨hfails, -, -⟩
    · exact hdelivered
    · exact absurd hnever hfails
  · intro before hbefore hfailed
    have htorn : Torn answers (bytesTaken r.events) r.encoder.packets r.encoder.bytes := by
      rcases hcontents with ⟨hnever, -⟩ | ⟨-, -, htorn⟩
      · exact absurd hfailed (hnever before hbefore)
      · exact htorn
    -- From the failure on the encoder rests.
    obtain ⟨after, rfl⟩ := hbefore
    have hspent : (first.run k before).encoder.state ≠ .ready := by
      rw [hfailed]
      nofun
    have hrests := rests_run (fits_run hfits k before) hspent (first.run k before).sink
      fun op hop => hops op (List.mem_append_right _ hop)
    have hrun : r = _ := first.run_append k before after
    refine ⟨htorn, ?_, ?_, ?_⟩
    · rw [hrun]
      exact hrests.sink
    · rw [hrun]
      exact hrests.packets
    · rw [hrun]
      exact hrests.bytes

open Rehearsal in
/-- The sink takes one packet in pieces and fails inside the next one.
What it has is still there after two more operations. -/
theorem sink_holds_packets_scripted :
    ∃ (first : Encoder ScriptedSession Hook) (opening : List Event),
      start (⟨⟨2⟩, 8, none, [5, 3]⟩ : ScriptedCodec) {} none = .ready first opening ∧
      let cues : ScriptedSink := ⟨[.accept 2, .interrupt, .accept 3, .accept 1, .fail]⟩
      let before : List (Operation Hook (Recorded ScriptedSink)) :=
        [.encode [⟨1⟩, ⟨2⟩, ⟨3⟩, ⟨4⟩, ⟨5⟩, ⟨6⟩, ⟨7⟩, ⟨8⟩]]
      let r := first.run ⟨cues, []⟩ (before ++ [.flush, .close])
      (first.run ⟨cues, []⟩ before).encoder.state = .failed ∧
        r.encoder.state = .closed ∧ r.sink.taken = [1, 1, 1, 1, 1, 2] ∧
        ∃ s, first.session = some s ∧
          Torn (replay s r.events).answers r.sink.taken r.encoder.packets r.encoder.bytes := by
  have hstart : start (⟨⟨2⟩, 8, none, [5, 3]⟩ : ScriptedCodec) {} (none : Option Hook)
      = .ready _ _ := rfl
  refine ⟨_, _, hstart, ?_⟩
  intro cues before r
  have hops : ∀ op ∈ before ++ [.flush, .close], op.OnSink := by
    simp [before, Operation.OnSink]
  obtain ⟨s, hsession, -, -, htorn⟩ := sink_holds_packets hstart cues hops
  refine ⟨by cbv, by cbv, by cbv, s, hsession, ?_⟩
  exact (htorn before (List.prefix_append _ _) (by cbv)).1

end Encoder

end

end Packetizer

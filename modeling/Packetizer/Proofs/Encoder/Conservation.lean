import Packetizer.Proofs.Encoder.Run
import Packetizer.Rehearsal.Devices
import Packetizer.Rehearsal.ScriptedCodec

/-!
# `Packetizer.Proofs.Encoder.Conservation`: no sample is lost, repeated or moved

The samples that an encoder accepts reach the codec in order. As long
as the encoder is ready, what the codec was given and what is carried
over make up what was accepted (`Conserves.given`), and after a flush
the codec was given all of it (`Conserves.flushed`). The count of
frames follows the accepted samples in every state, as far as 64 bits
reach.

`gatheredSamples` are the samples of calls of the codec as they were
gathered. The hook comes between that and the codec, and changes no
length.
-/

set_option autoImplicit false

namespace Packetizer

/-- The samples of some calls of the codec, as they were gathered. -/
def gatheredSamples (calls : List CodecCall) : List Sample :=
  calls.flatMap CodecCall.gathered

/-- Samples of calls in a row are in a row. -/
@[simp] theorem gatheredSamples_append (calls more : List CodecCall) :
    gatheredSamples (calls ++ more) = gatheredSamples calls ++ gatheredSamples more :=
  List.flatMap_append ..

/-- The samples of calls are known from the quantum of each. -/
theorem gatheredSamples_eq {calls : List CodecCall} {quanta : List (List Sample)}
    (h : calls.map CodecCall.gathered = quanta) : gatheredSamples calls = quanta.flatten := by
  rw [← h, gatheredSamples, List.flatMap_def]

/-- Calls with as many samples each have that many times their number. -/
theorem length_gatheredSamples {calls : List CodecCall} {n : Nat}
    (h : ∀ call ∈ calls, call.gathered.length = n) :
    (gatheredSamples calls).length = n * calls.length := by
  induction calls with
  | nil => rfl
  | cons call calls ih =>
      have hrest := ih fun c hc => h c (List.mem_cons_of_mem _ hc)
      show (call.gathered ++ gatheredSamples calls).length = n * (calls.length + 1)
      rw [List.length_append, h call List.mem_cons_self, hrest, Nat.mul_succ, Nat.add_comm]

variable {σ η κ : Type}

/-- A batch that went well called the codec with each of its quanta,
and the hook left as many samples in each. -/
theorem Batch.calls_of_ok [CodecSession σ] [RemapHook η] [Sink κ] {w w' : PacketWriter σ η}
    {k k' : κ} {quanta : List (List Sample)} {events : List Event}
    (h : Batch w k quanta (.ok ()) w' k' events) :
    (codecCalls events).map CodecCall.gathered = quanta ∧
      ∀ call ∈ codecCalls events, call.given.length = call.gathered.length := by
  generalize hok : Except.ok () = outcome at h
  induction h with
  | nil => exact ⟨rfl, fun call hcall => by cases hcall⟩
  | broken => cases hok
  | @cons w w' k k' quantum quanta outcome events n made rest ih =>
      obtain ⟨hcalls, hgiven⟩ := ih hok
      cases hlease : w.lease with
      | released remains =>
          rw [PacketWriter.emit_of_released hlease] at made
          cases made
      | held s =>
          obtain ⟨given, hreports⟩ := PacketWriter.emit_of_held hlease k quantum
          rw [codecCalls_append, hreports.calls]
          refine ⟨congrArg (quantum :: ·) hcalls, ?_⟩
          simp only [List.singleton_append, List.mem_cons, forall_eq_or_imp]
          exact ⟨hreports.length_given, hgiven⟩

namespace Encoder

/-! ### The invariant -/

/-- What was accepted is where it belongs, after these calls of the
codec. -/
structure Conserves (accepted : List Sample) (calls : List CodecCall) (e : Encoder σ η) :
    Prop where
  whole : accepted.length % e.channels = 0
  counted : e.framesIn = .ofSamples accepted.length e.channels
  given : e.state = .ready → gatheredSamples calls ++ e.gatherer.pending = accepted
  full : e.state = .ready → ∀ call ∈ calls,
    call.gathered.length = e.quantum ∧ call.given.length = e.quantum
  flushed : e.state = .flushed → gatheredSamples calls = accepted ∧ e.carried = 0

variable {accepted more : List Sample} {calls : List CodecCall} {later : List Event}
  {e e' : Encoder σ η}

/-- The count of frames stands for what was accepted, as far as it counts. -/
theorem Conserves.length_accepted (h : Conserves accepted calls e)
    (hcount : accepted.length / e.channels < 2 ^ 64) :
    e.framesIn.toNat * e.channels = accepted.length := by
  rw [h.counted]
  exact FrameCount.toNat_ofSamples_mul h.whole hcount

variable [CodecSession σ]

/-- A block that is accepted goes to the codec, quantum by quantum, and
the rest of it is carried over. -/
theorem Conserves.accept [RemapHook η] [Sink κ] {k k' : κ} {block : List Sample}
    {quanta : List (List Sample)} {b : QuantumBuffer} {w : PacketWriter σ η}
    (h : Conserves accepted calls e) (hready : e.state = .ready)
    (hwhole : block.length % e.channels = 0) (hgathers : e.gatherer.Gathers block quanta b)
    (hbatch : Batch e.writer k quanta (.ok ()) w k' later) :
    Conserves (accepted ++ block) (calls ++ codecCalls later)
      { e with
        gatherer := b
        writer := w
        framesIn := e.framesIn + .ofSamples block.length e.channels } := by
  have hchannels : b.channels = e.channels := congrArg Geometry.channels hgathers.geometry
  have hquantum : b.quantum = e.quantum := congrArg Geometry.quantum hgathers.geometry
  obtain ⟨hgathered, hgiven⟩ := hbatch.calls_of_ok
  constructor
  · show (accepted ++ block).length % b.channels = 0
    rw [hchannels, List.length_append, Nat.add_mod, h.whole, hwhole, Nat.add_zero, Nat.zero_mod]
  · show e.framesIn + .ofSamples block.length e.channels
      = .ofSamples (accepted ++ block).length b.channels
    rw [hchannels, h.counted, List.length_append, FrameCount.ofSamples_add h.whole]
  · intro _
    -- The quanta and what is carried now are what was carried before and the block.
    show gatheredSamples (calls ++ codecCalls later) ++ b.pending = accepted ++ block
    rw [gatheredSamples_append, gatheredSamples_eq hgathered, List.append_assoc,
      hgathers.conserved, ← List.append_assoc, h.given hready]
  · intro _ call hcall
    show call.gathered.length = b.quantum ∧ call.given.length = b.quantum
    rw [hquantum]
    rcases List.mem_append.mp hcall with hold | hnew
    · exact h.full hready call hold
    · have hmem : call.gathered ∈ quanta := hgathered ▸ List.mem_map_of_mem hnew
      have hlen := hgathers.full _ hmem
      exact ⟨hlen, (hgiven call hnew).trans hlen⟩
  · intro hflushed
    rw [show e.state = .flushed from hflushed] at hready
    cases hready

/-- A move keeps what was accepted where it belongs. -/
theorem Conserves.move [RemapHook η] [Sink κ] {k k' : κ} (h : Conserves accepted calls e)
    (hmove : Move e k more later e' k') :
    Conserves (accepted ++ more) (calls ++ codecCalls later) e' := by
  cases hmove with
  | idle log =>
      rw [codecCalls_ofLog, List.append_nil, List.append_nil]
      exact h
  | hook hook =>
      rw [List.append_nil, show codecCalls [] = [] from rfl, List.append_nil]
      exact ⟨h.whole, h.counted, h.given, h.full, h.flushed⟩
  | accept before after ready whole gathers batch =>
      rw [codecCalls_logged]
      exact h.accept ready whole gathers batch
  | fail before after ready spent geometry batch =>
      -- A failed encoder promises nothing but its count.
      have hchannels := congrArg Geometry.channels geometry
      rw [List.append_nil]
      refine ⟨?_, ?_, nofun, nofun, nofun⟩
      · show accepted.length % Geometry.channels _ = 0
        rw [hchannels]
        exact h.whole
      · show e.framesIn = .ofSamples accepted.length (Geometry.channels _)
        rw [hchannels]
        exact h.counted
  | @flush _ n w events before after ready batch =>
      obtain ⟨hgathered, -⟩ := batch.calls_of_ok
      rw [codecCalls_logged, List.append_nil]
      refine ⟨h.whole, h.counted, nofun, nofun, ?_⟩
      intro _
      -- The calls that drain the codec have no samples.
      have hdrain : (List.replicate n ([] : List Sample)).flatten = [] := by simp
      refine ⟨?_, rfl⟩
      rw [gatheredSamples_append, gatheredSamples_eq hgathered, List.flatten_cons, hdrain,
        List.append_nil, h.given ready]

/-- A closed encoder promises nothing but its count. -/
theorem Conserves.close (h : Conserves accepted calls e) :
    Conserves accepted calls e.close.1 :=
  ⟨h.whole, h.counted, nofun, nofun, nofun⟩

/-- Moves and closing keep what was accepted where it belongs. -/
theorem invariant_conserves [RemapHook η] :
    Run.Invariant fun accepted events (e : Encoder σ η) =>
      Conserves accepted (codecCalls events) e where
  move h hmove := by
    rw [codecCalls_append]
    exact h.move hmove
  close {_ _ e} h := by
    rw [codecCalls_append, e.still_close.calls, List.append_nil]
    exact h.close

/-- An encoder that was started has accepted nothing. -/
theorem Fresh.conserves {γ : Type} [Codec γ σ] {codec : γ} {settings : Settings} {s : σ}
    (h : e.Fresh codec settings s) : Conserves [] [] e where
  whole := Nat.zero_mod _
  counted := by
    rw [h.framesIn, List.length_nil, FrameCount.ofSamples_zero]
    rfl
  given _ := by rw [QuantumBuffer.pending, h.carried, List.take_zero]; rfl
  full _ call hcall := by cases hcall
  flushed hflushed := by
    rw [h.state] at hflushed
    cases hflushed

/-! ### What it says of every run -/

/-- No sample is lost, repeated or moved. A ready encoder has given the
codec full quanta only and carries the rest. An encoder that was
flushed has given the codec everything. -/
theorem samples_conserved [RemapHook η] [Sink κ] {γ : Type} [Codec γ σ] {codec : γ}
    {settings : Settings} {hook : Option η} {first : Encoder σ η} {opening : List Event}
    (hstart : start codec settings hook = .ready first opening) (k : κ)
    (ops : List (Operation η κ)) :
    let r := first.run k ops
    let e := r.encoder
    let calls := codecCalls (opening ++ r.events)
    (e.state = .ready →
      gatheredSamples calls ++ e.gatherer.pending = r.accepted ∧
      (∀ call ∈ calls, call.gathered.length = e.quantum ∧ call.given.length = e.quantum) ∧
      e.gatherer.pending.length = e.carried ∧
      e.carried < e.quantum ∧ e.carried % e.channels = 0 ∧
      (r.accepted.length / e.channels < 2 ^ 64 →
        e.framesIn.toNat * e.channels = e.quantum * calls.length + e.carried)) ∧
    (e.state = .flushed →
      gatheredSamples calls = r.accepted ∧ e.carried = 0 ∧
      (r.accepted.length / e.channels < 2 ^ 64 →
        e.framesIn.toNat * e.channels = r.accepted.length)) := by
  obtain ⟨s, log, hlog, hfresh⟩ := fresh_of_start hstart
  have hbegin : Conserves [] (codecCalls opening) first := by
    rw [hlog, codecCalls_ofLog]
    exact hfresh.conserves
  have hfits := QuantumBuffer.fits_of_carried hfresh.carried
  have hall := invariant_run invariant_conserves hfits hbegin k ops
  have hrest := fits_run hfits k ops
  intro r e calls
  constructor
  · intro hready
    have hgiven := hall.given hready
    have hfull := hall.full hready
    -- What was accepted are the quanta of the calls and what is carried over.
    have hlen : e.quantum * calls.length + e.carried = r.accepted.length := by
      rw [← hgiven, List.length_append, hrest.length_pending,
        length_gatheredSamples fun call hcall => (hfull call hcall).1]
      rfl
    have hcarried : e.carried % e.channels = 0 := by
      have hquantum : e.channels ∣ e.quantum * calls.length :=
        Nat.dvd_mul_right_of_dvd (Nat.dvd_mul_left _ _) _
      have hsum : e.channels ∣ e.quantum * calls.length + e.carried :=
        hlen ▸ Nat.dvd_of_mod_eq_zero hall.whole
      exact Nat.mod_eq_zero_of_dvd ((Nat.dvd_add_right hquantum).mp hsum)
    refine ⟨hgiven, hfull, hrest.length_pending, hrest.carried_lt, hcarried, ?_⟩
    intro hcount
    rw [hlen]
    exact hall.length_accepted hcount
  · intro hflushed
    obtain ⟨hgiven, hcarried⟩ := hall.flushed hflushed
    exact ⟨hgiven, hcarried, hall.length_accepted⟩

open Rehearsal in
/-- Blocks and requests that are refused count for nothing, and a hook
that turns the samples around changes neither how many nor which were
gathered. What is carried over in the end comes to the codec with a flush. -/
theorem samples_conserved_scripted :
    ∃ (first : Encoder ScriptedSession Hook) (opening : List Event),
      start (⟨⟨2⟩, 8, none, [4, 0, 3]⟩ : ScriptedCodec) {} none = .ready first opening ∧
      let k : ScriptedSink := ⟨[.accept 1, .interrupt]⟩
      let ops : List (Operation Hook ScriptedSink) :=
        [.encode [⟨1⟩, ⟨2⟩, ⟨3⟩, ⟨4⟩, ⟨5⟩, ⟨6⟩], .encode [⟨7⟩], .setHook .reverse,
          .encodeFrames [⟨8⟩, ⟨9⟩, ⟨10⟩, ⟨11⟩] ⟨1⟩, .encodeFrames [⟨12⟩] ⟨5⟩,
          .encodeToBytes [⟨13⟩, ⟨14⟩]]
      let all : List (Operation Hook ScriptedSink) := ops ++ [.flush]
      let accepted : List Sample :=
        [⟨1⟩, ⟨2⟩, ⟨3⟩, ⟨4⟩, ⟨5⟩, ⟨6⟩, ⟨8⟩, ⟨9⟩, ⟨13⟩, ⟨14⟩]
      let r := first.run k ops
      let ended := first.run k all
      (r.encoder.state = .ready ∧ r.encoder.carried = 2 ∧ r.encoder.framesIn = ⟨5⟩ ∧
        gatheredSamples (codecCalls (opening ++ r.events)) ++ r.encoder.gatherer.pending
          = accepted) ∧
      ended.encoder.state = .flushed ∧ ended.encoder.carried = 0 ∧
        gatheredSamples (codecCalls (opening ++ ended.events)) = accepted ∧
        ended.encoder.framesIn.toNat * ended.encoder.channels = 10 := by
  have hstart : start (⟨⟨2⟩, 8, none, [4, 0, 3]⟩ : ScriptedCodec) {} (none : Option Hook)
      = .ready _ _ := rfl
  refine ⟨_, _, hstart, ?_⟩
  intro k ops all accepted r ended
  have haccepted : r.accepted = accepted := by cbv
  have haccepted' : ended.accepted = accepted := by cbv
  have hchannels : ended.encoder.channels = 2 := by cbv
  have hready : r.encoder.state = .ready := by cbv
  have hflushed : ended.encoder.state = .flushed := by cbv
  obtain ⟨hgiven, -⟩ := (samples_conserved hstart k ops).1 hready
  obtain ⟨hall, hcarried, hframes⟩ := (samples_conserved hstart k all).2 hflushed
  have hfew : ended.accepted.length / ended.encoder.channels < 2 ^ 64 := by
    rw [haccepted', hchannels]
    decide
  refine ⟨⟨hready, by cbv, by cbv, hgiven.trans haccepted⟩, hflushed, hcarried,
    hall.trans haccepted', ?_⟩
  rw [show ended.encoder.framesIn.toNat * ended.encoder.channels = ended.accepted.length from
    hframes hfew, haccepted']
  rfl

end Encoder

end Packetizer

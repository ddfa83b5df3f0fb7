import Packetizer.Proofs.Encoder.Finished
import Packetizer.Proofs.Encoder.Stopped

/-!
# `Packetizer.Proofs.Encoder.Refusal`: calls that are refused

A call can be refused for what it asks or for where the encoder stands.
`Operation.rejection?` is the error for what it asks: more frames than the
block has, or a block that is no whole number of frames. A ready encoder
refuses a block for nothing else, unless the codec or the sink fails
(`Operation.rejected_iff`).

Such a rejection leaves no trace. `perform_of_rejected` says so of one call,
and by `run_of_rejected` calls that are rejected may be put anywhere between
the operations of a run. The induction there is on the run from its end:
in front of the last call the two runs are the same.

An encoder that is not ready refuses everything, and says so. But a call for
more frames than the block has is told that first, whatever the state
(`answers_when_spent`).
-/

set_option autoImplicit false

namespace Packetizer

section
variable {σ η κ : Type} [CodecSession σ] [RemapHook η] [Sink κ]

/-! ### What a call asks -/

namespace Operation

omit [RemapHook η] [Sink κ] in
/-- It only rejects the call. -/
theorem isRecoverable_of_shortage {op : Operation η κ} {channels : Nat} {error : EncodeError}
    (h : op.shortage? channels = some error) : error.isRecoverable = true := by
  unfold shortage? at h
  split at h
  · dsimp only at h
    split at h <;> cases h
    rfl
  · cases h

/-- The error of a call with a block that is no whole number of frames. -/
def raggedness? (op : Operation η κ) (channels : Nat) : Option EncodeError :=
  let ragged? (samples : Nat) : Option EncodeError :=
    if samples % channels ≠ 0 then some (.ragged samples channels) else none
  match op with
  | .encode samples => ragged? samples.length
  | .encodeToBytes samples => ragged? samples.length
  | .encodeFrames _ frames => ragged? (frames.samples channels)
  | _ => none

/-- The error for what a call asks, if it cannot be done. -/
def rejection? (op : Operation η κ) (channels : Nat) : Option EncodeError :=
  (op.shortage? channels).or (op.raggedness? channels)

/-- Whether the operation encodes a block that it is given. -/
def OnBlock : Operation η κ → Prop
  | .encode _ => True
  | .encodeFrames _ _ => True
  | .encodeToBytes _ => True
  | _ => False

section
omit [RemapHook η] [Sink κ]
variable {samples : List Sample} {frames : FrameCount} {channels : Nat}

/-- Frames whose samples a word can count are missing when the block has fewer. -/
theorem shortage_encodeFrames (h : frames.toNat * channels < UInt64.size) :
    (encodeFrames samples frames : Operation η κ).shortage? channels =
      if samples.length < frames.toNat * channels then
        some (.insufficient (frames.toNat * channels) samples.length)
      else none := by
  rw [shortage?, FrameCount.samples_of_lt h]

/-- They are whole frames, so a call for them is rejected for nothing else. -/
theorem rejection_encodeFrames (h : frames.toNat * channels < UInt64.size) :
    (encodeFrames samples frames : Operation η κ).rejection? channels =
      if samples.length < frames.toNat * channels then
        some (.insufficient (frames.toNat * channels) samples.length)
      else none := by
  have hwhole : (encodeFrames samples frames : Operation η κ).raggedness? channels = none := by
    unfold raggedness?
    dsimp only
    rw [FrameCount.samples_of_lt h, Nat.mul_mod_left, if_neg (not_not_intro rfl)]
  rw [rejection?, hwhole, Option.or_none, shortage_encodeFrames h]

end

/-- The operation encodes a block, and it is refused with an error that only
rejects this call. -/
def Rejected (op : Operation η κ) (e : Encoder σ η) (k : κ) : Prop :=
  op.OnBlock ∧ ∃ error, op.outcome e k = .error error ∧ error.isRecoverable = true

end Operation

/-! ### One call -/

namespace Encoder

variable {e : Encoder σ η} {k : κ} {samples : List Sample} {error : EncodeError}

/-- A block is rejected without a trace. -/
theorem encode_of_rejected (hfits : e.gatherer.Fits)
    (herr : (e.encode samples k).outcome = .error error)
    (hrecoverable : error.isRecoverable = true) :
    e.encode samples k = ⟨.error error, e, k, []⟩ := by
  by_cases hready : e.state = .ready
  case neg =>
    rw [encode_of_ne hready] at herr
    cases herr
    cases hrecoverable
  by_cases hwhole : samples.length % e.channels = 0
  · rw [fatal_of_encode hready hfits hwhole herr] at hrecoverable
    cases hrecoverable
  · rw [encode_ragged hready hwhole] at herr ⊢
    cases herr
    rfl

/-- A ready encoder rejects the blocks that are no whole number of frames. -/
theorem encode_rejected_iff (hready : e.state = .ready) (hfits : e.gatherer.Fits) :
    (e.encode samples k).outcome = .error error ∧ error.isRecoverable = true ↔
      (if samples.length % e.channels ≠ 0 then some (.ragged samples.length e.channels)
        else none) = some error := by
  by_cases hwhole : samples.length % e.channels = 0
  · rw [if_neg (not_not_intro hwhole)]
    refine ⟨fun ⟨herr, hrecoverable⟩ => ?_, nofun⟩
    rw [fatal_of_encode hready hfits hwhole herr] at hrecoverable
    cases hrecoverable
  · rw [if_pos hwhole, encode_ragged hready hwhole]
    constructor
    · rintro ⟨herr, -⟩
      cases herr
      rfl
    · rintro ⟨⟩
      exact ⟨rfl, rfl⟩

end Encoder

namespace Operation

variable {e : Encoder σ η} {k : κ} {op : Operation η κ}

/-- A rejected call changes nothing and does nothing. -/
theorem perform_of_rejected (hfits : e.gatherer.Fits) (h : op.Rejected e k) :
    op.perform e k = ⟨e, k, [], []⟩ := by
  obtain ⟨hblock, error, herr, hrecoverable⟩ := h
  cases op with
  | encode samples =>
      rw [perform, Encoder.encode_of_rejected hfits herr hrecoverable]
      rfl
  | encodeToBytes samples =>
      rw [outcome, Encoder.encodeToBytes, Step.outcome_collect] at herr
      rw [perform, Encoder.encodeToBytes, Encoder.encode_of_rejected hfits herr hrecoverable]
      rfl
  | encodeFrames samples frames =>
      rw [outcome, Encoder.encodeFrames] at herr
      rw [perform, Encoder.encodeFrames]
      split at herr
      next hshort =>
        rw [if_pos hshort]
        rfl
      next henough =>
        rw [if_neg henough, Encoder.encode_of_rejected hfits herr hrecoverable]
        rfl
  | encodeSource | flush | flushToBytes | setHook | useSink | close => exact hblock.elim

/-- A ready encoder rejects a call on a block for what it asks, and for
nothing else. -/
theorem rejected_iff (hready : e.state = .ready) (hfits : e.gatherer.Fits) (hblock : op.OnBlock)
    (error : EncodeError) :
    op.outcome e k = .error error ∧ error.isRecoverable = true ↔
      op.rejection? e.channels = some error := by
  cases op with
  | encode samples => exact Encoder.encode_rejected_iff hready hfits
  | encodeToBytes samples =>
      rw [outcome, Encoder.encodeToBytes, Step.outcome_collect]
      exact Encoder.encode_rejected_iff hready hfits
  | encodeFrames samples frames =>
      rw [outcome, Encoder.encodeFrames, rejection?, shortage?]
      split
      next hshort =>
        constructor
        · rintro ⟨herr, -⟩
          cases herr
          rfl
        · rintro ⟨⟩
          exact ⟨rfl, rfl⟩
      next henough =>
        rw [Encoder.encode_rejected_iff hready hfits, List.length_take_of_le (by omega)]
        rfl
  | encodeSource | flush | flushToBytes | setHook | useSink | close => exact hblock.elim

end Operation

/-! ### Rejected calls in a run -/

/-- An operation of a run, or one that is put in between. -/
inductive Item (η κ : Type) : Type 1 where
  | own (op : Operation η κ)
  | extra (op : Operation η κ)

namespace Item

/-- The operation, wherever it comes from. -/
def operation : Item η κ → Operation η κ
  | own op => op
  | extra op => op

/-- The operation, if it is one of the run. -/
def own? : Item η κ → Option (Operation η κ)
  | own op => some op
  | extra _ => none

end Item

namespace Encoder

/-- Every operation that is put in between is rejected when its turn comes. -/
def RejectsExtras (e : Encoder σ η) (k : κ) (items : List (Item η κ)) : Prop :=
  ∀ n op, items[n]? = some (.extra op) →
    let r := e.run k ((items.take n).map Item.operation)
    op.Rejected r.encoder r.sink

variable {e : Encoder σ η} {k : κ} {items : List (Item η κ)}

theorem RejectsExtras.take (h : e.RejectsExtras k items) (n : Nat) :
    e.RejectsExtras k (items.take n) := by
  intro m op hop
  have hm : m < n := by
    rw [List.getElem?_take] at hop
    split at hop
    · assumption
    · cases hop
  rw [List.getElem?_take_of_lt hm] at hop
  rw [List.take_take, Nat.min_eq_left (Nat.le_of_lt hm)]
  exact h m op hop

/-- A run is the same without the operations in between that are rejected. -/
theorem run_of_rejected (hfits : e.gatherer.Fits) (h : e.RejectsExtras k items) :
    e.run k (items.map Item.operation) = e.run k (items.filterMap Item.own?) := by
  induction items using List.reverseRecOn with
  | nil => rfl
  | append_singleton items item ih =>
      have hfront := h.take items.length
      rw [List.take_left] at hfront
      have hsame := ih hfront
      rw [List.map_append, List.filterMap_append]
      cases item with
      | own op =>
          -- The last operation starts on both sides from the same point.
          show e.run k (_ ++ [op]) = e.run k (_ ++ [op])
          rw [run_concat, run_concat, hsame]
      | extra op =>
          have hrejected := h items.length op List.getElem?_concat_length
          rw [List.take_left] at hrejected
          have hidle := Operation.perform_of_rejected (fits_run hfits k _) hrejected
          show e.run k (_ ++ [op]) = e.run k (_ ++ [])
          rw [run_concat, List.append_nil, ← hsame, Run.next, hidle]
          simp only [List.append_nil]

/-- Rejected calls leave no trace. Put anywhere between the operations of a
run, they change nothing of it at any point: not the encoder with what it
carries, not the sink, not what was done to the outside, and so nothing of
what any later operation does and answers. At each point where the encoder
is ready a call on a block is rejected exactly when it asks for more frames
than the block has, or the block is no whole number of frames, and then
neither the codec nor the hook nor the sink is called. -/
theorem rejected_leave_no_trace {γ : Type} [Codec γ σ] {codec : γ}
    (hreachable : e.Reachable codec) (k : κ) (hextras : e.RejectsExtras k items) (n : Nat) :
    let r := e.run k ((items.take n).map Item.operation)
    let r' := e.run k ((items.take n).filterMap Item.own?)
    r = r' ∧
    (∀ op : Operation η κ, op.outcome r.encoder r.sink = op.outcome r'.encoder r'.sink ∧
      op.perform r.encoder r.sink = op.perform r'.encoder r'.sink) ∧
    (∀ op : Operation η κ, op.OnBlock →
      (r.encoder.state = .ready → ∀ error,
        (op.outcome r.encoder r.sink = .error error ∧ error.isRecoverable = true ↔
          op.rejection? e.channels = some error)) ∧
      (op.Rejected r.encoder r.sink →
        op.perform r.encoder r.sink = ⟨r.encoder, r.sink, [], []⟩)) ∧
    ∀ (samples : List Sample) (frames : FrameCount),
      frames.toNat * e.channels < UInt64.size →
      (.encodeFrames samples frames : Operation η κ).rejection? e.channels =
        if samples.length < frames.toNat * e.channels then
          some (.insufficient (frames.toNat * e.channels) samples.length)
        else none := by
  have hsame := run_of_rejected hreachable.fits (hextras.take n)
  have hfits := fits_run hreachable.fits k ((items.take n).map Item.operation)
  have hchannels : (e.run k ((items.take n).map Item.operation)).encoder.channels = e.channels :=
    congrArg Geometry.channels (geometry_run hreachable.fits k _)
  intro r r'
  refine ⟨hsame, fun op => ?_, fun op hblock => ⟨fun hready error => ?_, ?_⟩,
    fun _ _ => Operation.rejection_encodeFrames⟩
  · rw [show r = r' from hsame]
    exact ⟨rfl, rfl⟩
  · rw [← hchannels]
    exact Operation.rejected_iff hready hfits hblock error
  · exact Operation.perform_of_rejected hfits

open Rehearsal in
/-- A block of one sample, and a call for two frames of one, between the
blocks of a stream; and a call for a frame of nothing behind its end. -/
theorem rejected_leave_no_trace_scripted :
    ∃ (first : Encoder ScriptedSession Hook) (opening : List Event),
      start (⟨⟨2⟩, 8, none, [4, 3]⟩ : ScriptedCodec) {} (some Hook.reverse)
        = .ready first opening ∧
      let k : ScriptedSink := ⟨[.accept 1, .interrupt]⟩
      let items : List (Item Hook ScriptedSink) :=
        [.own (.encode [⟨1⟩, ⟨2⟩]), .extra (.encode [⟨3⟩]), .extra (.encodeFrames [⟨4⟩, ⟨5⟩] ⟨2⟩),
          .own (.encode [⟨6⟩, ⟨7⟩, ⟨8⟩, ⟨9⟩]), .extra (.encodeToBytes [⟨10⟩]), .own .flush,
          .extra (.encodeFrames [] ⟨1⟩)]
      let plain : List (Operation Hook ScriptedSink) :=
        [.encode [⟨1⟩, ⟨2⟩], .encode [⟨6⟩, ⟨7⟩, ⟨8⟩, ⟨9⟩], .flush]
      first.RejectsExtras k items ∧ first.run k (items.map Item.operation) = first.run k plain := by
  have hstart : start (⟨⟨2⟩, 8, none, [4, 3]⟩ : ScriptedCodec) {} (some Hook.reverse)
      = .ready _ _ := rfl
  refine ⟨_, _, hstart, ?_⟩
  intro k items plain
  have hreachable := reachable_run hstart k []
  refine (and_iff_left_of_imp fun hextras =>
    (rejected_leave_no_trace hreachable k hextras 7).1).mpr ?_
  intro n op hop
  rcases n with _ | _ | _ | _ | _ | _ | _ | n <;> cases hop
  · exact ⟨trivial, .ragged 1 2, by cbv, rfl⟩
  · exact ⟨trivial, .insufficient 4 2, by cbv, rfl⟩
  · exact ⟨trivial, .ragged 1 2, by cbv, rfl⟩
  · exact ⟨trivial, .insufficient 2 0, by cbv, rfl⟩

/-! ### Refusals of an encoder that is not ready -/

/-- An encoder that was flushed, has failed or was closed refuses to encode
and to flush from then on, because its stream is finished. The one other
answer is for a call that asks for more frames than its block has. The samples
of the frames are counted in 64 bits, so that this is so for every number of
frames; where a word holds the product, the block is short when it has fewer
samples than that. -/
theorem answers_when_spent (hspent : e.state ≠ .ready) (k : κ) (ops : List (Operation η κ))
    {μ : Type} [Sink μ] (m : μ) {op : Operation η μ} (hwork : op.IsWork) :
    let later := (e.run k ops).encoder
    later.state ≠ .ready ∧
    (op.outcome later m = .error .finalized ↔ op.shortage? e.channels = none) ∧
    (∀ error, op.shortage? e.channels = some error → op.outcome later m = .error error) ∧
    ∀ (samples : List Sample) (frames : FrameCount), op = .encodeFrames samples frames →
      frames.toNat * e.channels < UInt64.size →
      op.shortage? e.channels =
        if samples.length < frames.toNat * e.channels then
          some (.insufficient (frames.toNat * e.channels) samples.length)
        else none := by
  obtain ⟨hinert, hstate, -⟩ := inert_run hspent k ops
  have hlater : (e.run k ops).encoder.state ≠ .ready := by
    rw [hstate]
    split
    · nofun
    · exact hspent
  have hchannels : (e.run k ops).encoder.channels = e.channels := by
    rw [hinert.encoder]
    rfl
  have houtcome := outcome_of_spent hlater hwork m
  rw [hchannels] at houtcome
  have hword : ∀ (samples : List Sample) (frames : FrameCount), op = .encodeFrames samples frames →
      frames.toNat * e.channels < UInt64.size → op.shortage? e.channels = _ :=
    fun _ _ hop hlt => hop ▸ Operation.shortage_encodeFrames hlt
  intro later
  rw [houtcome]
  cases hshort : op.shortage? e.channels with
  | none => exact ⟨hlater, ⟨fun _ => rfl, fun _ => rfl⟩, nofun, hshort ▸ hword⟩
  | some error =>
      have hrecoverable := op.isRecoverable_of_shortage hshort
      refine ⟨hlater, ⟨fun hsame => ?_, nofun⟩, fun error' herror => ?_, hshort ▸ hword⟩
      · cases hsame
        cases hrecoverable
      · cases herror
        rfl

open Rehearsal in
/-- A ragged block is refused by an encoder that was flushed, and later closed,
for being finished, and a call beyond its block for being that. Frames of which
a word counts no sample are not beyond it. -/
theorem answers_when_spent_scripted :
    ∃ (first : Encoder ScriptedSession Hook) (opening : List Event),
      start (⟨⟨2⟩, 8, none, []⟩ : ScriptedCodec) {} none = .ready first opening ∧
      let flushed := (first.run (⟨[]⟩ : ScriptedSink) [.flush]).encoder
      let later := (flushed.run (⟨[]⟩ : ScriptedSink) [.setHook .mark, .close]).encoder
      let ragged : Operation Hook OutputBytes := .encode [⟨1⟩]
      let beyond : Operation Hook OutputBytes := .encodeFrames [⟨1⟩] ⟨5⟩
      let wrapped : Operation Hook OutputBytes := .encodeFrames [⟨1⟩] ⟨0x8000000000000000⟩
      flushed.state = .flushed ∧ later.state ≠ .ready ∧
        ragged.outcome later .empty = .error .finalized ∧
        beyond.outcome later .empty = .error (.insufficient 10 1) ∧
        wrapped.outcome later .empty = .error .finalized := by
  refine ⟨_, _, rfl, ?_⟩
  intro flushed later ragged beyond wrapped
  have hflushed : flushed.state = .flushed := by dsimp only [flushed]; cbv
  have hspent : flushed.state ≠ .ready := by
    intro hready
    rw [hflushed] at hready
    cases hready
  obtain ⟨hlater, hragged, -⟩ := answers_when_spent hspent (⟨[]⟩ : ScriptedSink)
    [.setHook .mark, .close] OutputBytes.empty (show ragged.IsWork from trivial)
  obtain ⟨-, -, hbeyond, hshort⟩ := answers_when_spent hspent (⟨[]⟩ : ScriptedSink)
    [.setHook .mark, .close] OutputBytes.empty (show beyond.IsWork from trivial)
  obtain ⟨-, hwrapped, -⟩ := answers_when_spent hspent (⟨[]⟩ : ScriptedSink)
    [.setHook .mark, .close] OutputBytes.empty (show wrapped.IsWork from trivial)
  exact ⟨hflushed, hlater, hragged.mpr rfl, hbeyond _ (hshort _ _ rfl (by decide_cbv)),
    hwrapped.mpr (by cbv)⟩

open Rehearsal in
/-- A flushed encoder is asked for five frames of a block of one sample. It
does not say that the stream is finished, as it does when it is given the
same block without a number of frames. -/
theorem shortage_told_before_end :
    ∃ (first : Encoder ScriptedSession Hook) (opening : List Event),
      start (⟨⟨2⟩, 64, none, []⟩ : ScriptedCodec) {} none = .ready first opening ∧
      let flushed := (first.flush (⟨[]⟩ : ScriptedSink)).encoder
      flushed.state = .flushed ∧
        (flushed.encodeFrames [⟨1⟩] ⟨5⟩ (⟨[]⟩ : ScriptedSink)).outcome ≠ .error .finalized ∧
        (flushed.encodeFrames [⟨1⟩] ⟨5⟩ (⟨[]⟩ : ScriptedSink)).outcome
          = .error (.insufficient 10 1) ∧
        (flushed.encode [⟨1⟩] (⟨[]⟩ : ScriptedSink)).outcome = .error .finalized := by
  refine ⟨_, _, rfl, ?_⟩
  intro flushed
  have hshort : (flushed.encodeFrames [⟨1⟩] ⟨5⟩ (⟨[]⟩ : ScriptedSink)).outcome
      = .error (.insufficient 10 1) := by dsimp only [flushed]; cbv
  refine ⟨by dsimp only [flushed]; cbv, fun hfinished => ?_, hshort, by dsimp only [flushed]; cbv⟩
  rw [hshort] at hfinished
  cases hfinished

end Encoder

end

end Packetizer

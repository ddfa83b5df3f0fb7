import Packetizer.Proofs.Encoder.Finished
import Packetizer.Proofs.Encoder.Stopped

/-!
# `Packetizer.Proofs.Encoder.Recovery`: what an error says about the encoder

`EncodeError.isRecoverable` tells whether an encoder goes on after an
error, and `EncodeError.stateAfter` is the state which that asks for: ready
after an error to recover from, and failed after any other. Encoding a
block and flushing leave the encoder in that state (`state_encode`,
`state_flush`).

Encoding a source does so as well, with one exception. When the source
itself fails, the call ends with an error from which no encoder recovers,
and the encoder is ready all the same. `ReadFails` says when this happens:
some full quanta are read and encoded, and filling the next one fails. By
`state_feed` there is no other exception, and by `ReadFails.feed` this one
is always an exception. Both are inductions on the rounds of `feed`.

The exception is not harmless. Filling has lost the bytes that it had taken
before the failure, and `ready_after_lost_read` is a run that goes on behind
them and ends well.
-/

set_option autoImplicit false

namespace Packetizer

namespace EncodeError

/-- The state in which an error is to leave an encoder that was ready. -/
def stateAfter (error : EncodeError) : EncoderState :=
  if error.isRecoverable then .ready else .failed

variable {error : EncodeError}

theorem stateAfter_of_recoverable (h : error.isRecoverable = true) :
    error.stateAfter = .ready := if_pos h

theorem stateAfter_of_fatal (h : error.isRecoverable = false) : error.stateAfter = .failed := by
  simp [stateAfter, h]

end EncodeError

/-! ### Where a failure of a source comes from -/

section
variable {ρ : Type} [Source ρ] {r : ρ} {n : Nat} {failure : StreamError}

/-- Some read of the source fails, and not because it is interrupted. -/
def Source.Fails (r : ρ) (failure : StreamError) : Prop :=
  failure ≠ .interrupted ∧ ∃ r' m, Later r r' ∧ (read r' m).outcome = .error failure

/-- What is wrong with a source later on is wrong with it now. -/
theorem Source.Fails.earlier {r' : ρ} (hlater : Later r r') (h : Fails r' failure) :
    Fails r failure := by
  obtain ⟨hne, r'', m, hmore, hread⟩ := h
  exact ⟨hne, r'', m, hlater.trans hmore, hread⟩

/-- Filling fails only when a read does. -/
theorem Source.fails_of_fill (h : (fill r n).outcome = .error failure) : Fails r failure := by
  fun_induction Source.fill r n with
  | case1 => cases h
  | case2 => cases h
  | case3 r n _ b bs log rest hr ih =>
      rw [Reading.outcome_after, Reading.outcome_map] at h
      have hrest : (fill rest (n - (bs.length + 1))).outcome = .error failure := by
        cases hfill : (fill rest (n - (bs.length + 1))).outcome with
        | ok more =>
            rw [hfill] at h
            cases h
        | error e =>
            rw [hfill] at h
            cases h
            rfl
      refine (ih hrest).earlier ?_
      have hstep := Later.step (.refl r) n
      rwa [hr] at hstep
  | case4 r n _ log rest hr ih =>
      refine (ih h).earlier ?_
      have hstep := Later.step (.refl r) n
      rwa [hr] at hstep
  | case5 r n _ e log rest hne hr =>
      cases h
      exact ⟨hne, r, n, .refl r, by rw [hr]⟩

end

namespace Encoder

variable {σ η κ ρ : Type} [CodecSession σ] [RemapHook η] [Sink κ] [Source ρ]
  {e : Encoder σ η} {r : ρ} {k : κ} {samples : List Sample} {error : EncodeError}

/-! ### Blocks and flushes -/

/-- An encoder that encoded a block, of whatever length, is ready. -/
theorem ready_of_encoded (hready : e.state = .ready) (hfits : e.gatherer.Fits)
    (hok : (e.encode samples k).outcome = .ok ()) :
    (e.encode samples k).encoder.state = .ready := by
  by_cases hwhole : samples.length % e.channels = 0
  · exact ready_of_encode hready hfits hwhole hok
  · rw [encode_ragged hready hwhole] at hok
    cases hok

/-- An error of encoding a block says how it left the encoder. -/
theorem state_encode (hready : e.state = .ready) (hfits : e.gatherer.Fits)
    (herr : (e.encode samples k).outcome = .error error) :
    (e.encode samples k).encoder.state = error.stateAfter := by
  by_cases hwhole : samples.length % e.channels = 0
  · have hfatal := fatal_of_encode hready hfits hwhole herr
    rw [EncodeError.stateAfter_of_fatal hfatal]
    exact failed_of_encode hready hfits hwhole herr
  · rw [encode_ragged hready hwhole] at herr ⊢
    cases herr
    exact hready

/-- So does an error of encoding the front of a block. -/
theorem state_encodeFrames (hready : e.state = .ready) (hfits : e.gatherer.Fits)
    {frames : FrameCount} (herr : (e.encodeFrames samples frames k).outcome = .error error) :
    (e.encodeFrames samples frames k).encoder.state = error.stateAfter := by
  rw [encodeFrames] at herr ⊢
  split at herr
  next hfew =>
    rw [if_pos hfew]
    cases herr
    exact hready
  next hfew =>
    rw [if_neg hfew]
    exact state_encode hready hfits herr

/-- And an error of a flush, which is always the last one. -/
theorem state_flush (hready : e.state = .ready) (herr : (e.flush k).outcome = .error error) :
    (e.flush k).encoder.state = error.stateAfter := by
  have hfatal := fatal_of_flush hready herr
  rw [EncodeError.stateAfter_of_fatal hfatal]
  rw [flush_of_ready hready] at herr ⊢
  dsimp only at herr ⊢
  cases hout : (e.writer.emitAll k e.gatherer.pending).outcome with
  | error error' =>
      rw [hout] at herr
      cases herr
      dsimp only
      rw [fail_of_fatal _ hfatal]
  | ok n =>
      rw [hout] at herr
      cases herr

/-! ### Sources -/

/-- Filling a quantum from the source fails, after some quanta that were
filled and encoded. -/
inductive ReadFails : Encoder σ η → ρ → κ → StreamError → Prop where
  | now {e : Encoder σ η} {r : ρ} {k : κ} {failure : StreamError}
      (fails : (Source.fill r e.quantumBytes).outcome = .error failure) :
      ReadFails e r k failure
  | later {e : Encoder σ η} {r : ρ} {k : κ} {front : List UInt8} {failure : StreamError}
      (filled : (Source.fill r e.quantumBytes).outcome = .ok front)
      (full : front.length = e.quantumBytes)
      (encoded : (e.encode (samplesOfBytes front) k).outcome = .ok ())
      (rest : ReadFails (e.encode (samplesOfBytes front) k).encoder
        (Source.fill r e.quantumBytes).source (e.encode (samplesOfBytes front) k).sink failure) :
      ReadFails e r k failure

/-- It is a read of the source that fails. -/
theorem ReadFails.fails {failure : StreamError} (h : e.ReadFails r k failure) :
    Source.Fails r failure := by
  induction h with
  | now fails => exact Source.fails_of_fill fails
  | later filled full encoded rest ih => exact ih.earlier (Source.later_fill _ _)

/-- A round in which filling fails is the last one, and nothing is encoded
in it. -/
theorem feed_of_fill_error {failure : StreamError}
    (h : (Source.fill r e.quantumBytes).outcome = .error failure) (k : κ) (done : Array Event) :
    e.feed r k done = ⟨.error (.stream failure), e, k, (Source.fill r e.quantumBytes).source,
      done.toList ++ Event.ofLog (Source.fill r e.quantumBytes).log⟩ := by
  have hsize : e.quantum * sampleBytes = e.quantumBytes := Nat.mul_comm _ _
  rw [feed, hsize]
  split
  next hfill =>
    rw [hfill] at h ⊢
    cases h
    rfl
  next hfill =>
    rw [hfill] at h
    cases h

/-- A source that fails leaves the encoder ready. -/
theorem ReadFails.feed {failure : StreamError} (h : e.ReadFails r k failure)
    (hready : e.state = .ready) (hfits : e.gatherer.Fits) (done : Array Event) :
    (e.feed r k done).outcome = .error (.stream failure) ∧
      (e.feed r k done).encoder.state = .ready := by
  induction h generalizing done with
  | @now e r k failure fails =>
      rw [feed_of_fill_error fails]
      exact ⟨rfl, hready⟩
  | @later e r k front failure filled full encoded rest ih =>
      have hstray : front.length % sampleBytes = 0 := by
        rw [full]
        exact Nat.mul_mod_right _ _
      rw [feed_goesOn filled hstray encoded (Nat.le_of_eq full.symm)]
      exact ih (ready_of_encoded hready hfits encoded)
        ((move_encode hfits (samplesOfBytes front) k).fits hfits) _

/-- An error of encoding a source says how it left the encoder, unless the
source has failed. -/
theorem state_feed (hready : e.state = .ready) (hfits : e.gatherer.Fits) {done : Array Event}
    (herr : (e.feed r k done).outcome = .error error) :
    (e.feed r k done).encoder.state = error.stateAfter ∨
      ∃ failure, e.ReadFails r k failure := by
  have hsize : ∀ e : Encoder σ η, e.quantum * sampleBytes = e.quantumBytes :=
    fun e => Nat.mul_comm _ _
  fun_induction Encoder.feed e r k done with
  | case1 e r k done failure log rest h =>
      rw [hsize] at h
      exact .inr ⟨failure, .now (by rw [h])⟩
  | case2 e r k done bytes log rest h stray hstray =>
      cases herr
      exact .inl hready
  | case3 e r k done bytes log rest h stray hstray step done' error' hencode =>
      cases herr
      exact .inl (state_encode hready hfits hencode)
  | case4 e r k done bytes log rest h stray hstray step done' hok hshort last =>
      exact .inl (state_flush (ready_of_encoded hready hfits hok) herr)
  | case5 e r k done bytes log rest h stray hstray step done' hok hfull ih =>
      have hstep := ready_of_encoded hready hfits hok
      rcases ih hstep ((move_encode hfits (samplesOfBytes bytes) k).fits hfits) herr with
        hstate | ⟨failure, hfails⟩
      · exact .inl hstate
      · -- What fails in a later round fails behind the quantum of this one.
        rw [hsize] at h hfull
        have hfilled : (Source.fill r e.quantumBytes).outcome = .ok bytes := by rw [h]
        have hle := Source.length_fill r e.quantumBytes hfilled
        refine .inr ⟨failure, .later hfilled (by omega) hok ?_⟩
        rw [h]
        exact hfails

end Encoder

/-! ### Every operation -/

namespace Operation

variable {σ η κ : Type} [CodecSession σ] [RemapHook η] [Sink κ] {e : Encoder σ η} {k : κ}
  {error : EncodeError}

/-- The operation encodes a source, and a quantum cannot be filled from it. -/
def FailsToRead (op : Operation η κ) (e : Encoder σ η) (k : κ) (failure : StreamError) : Prop :=
  match op with
  | @encodeSource _ _ _ _ source => e.ReadFails source k failure
  | _ => False

/-- The operation has a source of which some read fails. -/
def SourceFails (op : Operation η κ) (failure : StreamError) : Prop :=
  match op with
  | @encodeSource _ _ _ _ source => Source.Fails source failure
  | _ => False

/-- A quantum cannot be filled only when some read fails. That ends the
operation and leaves the encoder ready. -/
theorem FailsToRead.ready {op : Operation η κ} {failure : StreamError}
    (h : op.FailsToRead e k failure) (hready : e.state = .ready) (hfits : e.gatherer.Fits) :
    op.SourceFails failure ∧ op.outcome e k = .error (.stream failure) ∧
      (op.perform e k).encoder.state = .ready := by
  cases op with
  | encodeSource source =>
      have hfails : e.ReadFails source k failure := h
      have hfeed := hfails.feed hready hfits #[]
      rw [outcome, perform, Encoder.encodeSource, Encoder.requireReady_of_ready hready]
      exact ⟨hfails.fails, hfeed⟩
  | encode | encodeFrames | encodeToBytes | flush | flushToBytes | setHook | useSink | close =>
      exact h.elim

/-- An error says how the operation left the encoder, or the operation
could not read. -/
theorem state_perform {op : Operation η κ} (hready : e.state = .ready)
    (hfits : e.gatherer.Fits) (herr : op.outcome e k = .error error) :
    (op.perform e k).encoder.state = error.stateAfter ∨ ∃ failure, op.FailsToRead e k failure := by
  cases op with
  | encode samples => exact .inl (Encoder.state_encode hready hfits herr)
  | encodeFrames samples frames => exact .inl (Encoder.state_encodeFrames hready hfits herr)
  | encodeToBytes samples =>
      exact .inl (Encoder.state_encode hready hfits ((Step.outcome_collect _).symm.trans herr))
  | flush => exact .inl (Encoder.state_flush hready herr)
  | flushToBytes =>
      exact .inl (Encoder.state_flush hready ((Step.outcome_collect _).symm.trans herr))
  | encodeSource source =>
      rw [outcome, Encoder.encodeSource, Encoder.requireReady_of_ready hready] at herr
      rw [perform, Encoder.encodeSource, Encoder.requireReady_of_ready hready]
      exact Encoder.state_feed hready hfits herr
  | setHook | useSink | close => cases herr

end Operation

namespace Encoder

variable {σ η κ : Type} [CodecSession σ] [RemapHook η] [Sink κ] {e : Encoder σ η}

/-- An error to recover from leaves the encoder ready. After any other the
encoder has failed and refuses to encode and to flush from then on. The
exception is a source that fails, which always leaves the encoder ready. -/
theorem state_after_error {γ : Type} [Codec γ σ] {codec : γ} (hreachable : e.Reachable codec)
    (hready : e.state = .ready) (k : κ) {op : Operation η κ} {error : EncodeError}
    (herr : op.outcome e k = .error error) :
    let after := (op.perform e k).encoder
    (error.isRecoverable = true → after.state = .ready) ∧
    (error.isRecoverable = false → (∀ failure, ¬ op.FailsToRead e k failure) →
      after.state = .failed ∧
      ∀ {μ : Type} [Sink μ] (m : μ) (ops : List (Operation η μ)) (more : Operation η μ),
        more.IsWork → ∃ refusal, more.outcome (after.run m ops).encoder (after.run m ops).sink
          = .error refusal) ∧
    (∀ failure, op.FailsToRead e k failure →
      op.SourceFails failure ∧ error = .stream failure ∧ error.isRecoverable = false ∧
        after.state = .ready) := by
  have hfits := hreachable.fits
  have hstate := Operation.state_perform hready hfits herr
  intro after
  refine ⟨fun hrecoverable => ?_, fun hfatal hreads => ?_, fun failure hfails => ?_⟩
  · rcases hstate with hstate | ⟨failure, hfails⟩
    · exact hstate.trans (EncodeError.stateAfter_of_recoverable hrecoverable)
    · exact (hfails.ready hready hfits).2.2
  · have hfailed : after.state = .failed := by
      rcases hstate with hstate | ⟨failure, hfails⟩
      · exact hstate.trans (EncodeError.stateAfter_of_fatal hfatal)
      · exact absurd hfails (hreads failure)
    refine ⟨hfailed, fun m ops more hwork => ?_⟩
    have hspent : after.state ≠ .ready := by
      rw [hfailed]
      nofun
    obtain ⟨-, hlater, -⟩ := inert_run hspent m ops
    refine refuses_of_spent ?_ hwork _
    rw [hlater]
    split
    · nofun
    · exact hspent
  · obtain ⟨hsource, houtcome, hstays⟩ := hfails.ready hready hfits
    rw [houtcome] at herr
    cases herr
    exact ⟨hsource, rfl, rfl, hstays⟩

open Rehearsal in
/-- The source delivers half a quantum and fails. The error is not one to
recover from, but the encoder is ready, and what the source delivered is
lost: the next block is encoded right behind the last one, and the flush
ends the stream as if nothing was missing. -/
theorem ready_after_lost_read :
    ∃ (first : Encoder ScriptedSession Hook) (opening : List Event),
      start (⟨⟨2⟩, 64, none, []⟩ : ScriptedCodec) {} none = .ready first opening ∧
      let source : ScriptedSource := ⟨(List.range 24).map UInt8.ofNat,
        [.deliver 8 none, .fail], true, 0⟩
      let front : List Sample := [⟨1⟩, ⟨2⟩, ⟨3⟩, ⟨4⟩]
      let back : List Sample := [⟨5⟩, ⟨6⟩, ⟨7⟩, ⟨8⟩]
      let before := first.encode front (⟨[]⟩ : ScriptedSink)
      let x := before.encoder.encodeSource source before.sink
      let after := x.encoder.encode back x.sink
      let last := after.encoder.flush after.sink
      before.encoder.state = .ready ∧
        (∃ error, x.outcome = .error error ∧ error.isRecoverable = false) ∧
        x.encoder.state = .ready ∧ x.source.position = 8 ∧
        after.outcome = .ok () ∧ last.outcome = .ok () ∧
        (codecCalls (before.events ++ x.events ++ after.events ++ last.events)).map
          CodecCall.gathered = [front, back, []] := by
  refine ⟨_, _, rfl, ?_⟩
  intro source front back before x after last
  have hready : before.encoder.state = .ready := by dsimp only [before, front]; cbv
  have hbytes : before.encoder.quantumBytes = 16 := by dsimp only [before, front]; cbv
  have hfails : (Source.fill source before.encoder.quantumBytes).outcome
      = .error (.other "scripted read error") := by
    rw [hbytes]
    decide +kernel
  have hfeed : x = before.encoder.feed source before.sink #[] := by
    dsimp only [x, encodeSource]
    rw [requireReady_of_ready hready]
  have hx := hfeed.trans (feed_of_fill_error hfails before.sink #[])
  have hencoder : x.encoder = before.encoder := by rw [hx]
  have hsink : x.sink = before.sink := by rw [hx]
  have hcalls : codecCalls x.events = [] := by
    rw [hx]
    exact codecCalls_ofLog _
  refine ⟨hready, ⟨_, by rw [hx], rfl⟩, by rwa [hencoder], ?_, ?_, ?_, ?_⟩
  · rw [hx, hbytes]
    decide +kernel
  · dsimp only [after]
    rw [hencoder, hsink]
    dsimp only [before, front, back]
    cbv
  · dsimp only [last, after]
    rw [hencoder, hsink]
    dsimp only [before, front, back]
    cbv
  · simp only [codecCalls_append, hcalls]
    dsimp only [last, after]
    rw [hencoder, hsink]
    dsimp only [before, front, back]
    cbv

end Encoder

end Packetizer

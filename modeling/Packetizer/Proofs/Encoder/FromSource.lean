import Packetizer.Proofs.Encoder.Chunking
import Packetizer.Proofs.Rehearsal.Devices

/-!
# `Packetizer.Proofs.Encoder.FromSource`: encoding a source is encoding its bytes

`Encoder.encodeSource` reads a quantum at a time, and what it does can be
said without the reads: it looks like encoding all samples of the source
as one block and flushing behind them. When the bytes are no whole number
of frames it stops behind the last full quantum, and the encoder takes
more samples.

Which samples some bytes hold is said by the place of each word, the low byte
first (`littleEndianSamples`), and reading finds these (`samplesOfBytes_eq`).

`feed_quanta` is the induction, on the quanta that are full. A quantum
and the quanta behind it are one block by `alike_encode_append`, whatever
was carried over before. `feed_tail` and `feed_ragged` are the two ends.
-/

set_option autoImplicit false

namespace Packetizer

/-! ### Samples in bytes -/

section
variable {front bytes : List UInt8} {n : Nat}

@[simp] theorem samplesOfBytes_nil : samplesOfBytes [] = [] := by
  rw [samplesOfBytes, chunks_nil, List.map_nil]

theorem samplesOfBytes_append (h : front.length % sampleBytes = 0) (back : List UInt8) :
    samplesOfBytes (front ++ back) = samplesOfBytes front ++ samplesOfBytes back := by
  rw [samplesOfBytes, chunks_append h, List.map_append]
  rfl

theorem length_samplesOfBytes (h : bytes.length % sampleBytes = 0) :
    sampleBytes * (samplesOfBytes bytes).length = bytes.length := by
  rw [samplesOfBytes, List.length_map]
  exact (length_chunks h).1

/-- The bytes of whole frames hold whole samples, and these are whole
frames. -/
theorem whole_samplesOfBytes (h : bytes.length % (sampleBytes * n) = 0) :
    bytes.length % sampleBytes = 0 ∧ (samplesOfBytes bytes).length % n = 0 := by
  have hbytes : bytes.length % sampleBytes = 0 := by
    rw [← Nat.mod_mul_right_mod bytes.length sampleBytes n, h, Nat.zero_mod]
  refine ⟨hbytes, ?_⟩
  rw [← length_samplesOfBytes hbytes, Nat.mul_mod_mul_left] at h
  exact (Nat.mul_eq_zero.mp h).resolve_left (by decide)

end

variable {σ η κ ρ : Type}

/-- What a source was encoded to, without the source. -/
def SourceStep.toStep (x : SourceStep σ η κ ρ) : Step σ η κ Unit :=
  ⟨x.outcome, x.encoder, x.sink, x.events⟩

namespace Encoder

variable [CodecSession σ] [RemapHook η] [Sink κ] [Source ρ]
variable {e : Encoder σ η} {r : ρ} {bytes : List UInt8}

/-! ### Past a step -/

/-- Feeding gets past a step `s`, or does not: the step fails and ends
it, or it is read on behind the step, where the source delivers `left`. -/
inductive FeedsPast (x : SourceStep σ η κ ρ) (done : List Event) (s : Step σ η κ Unit)
    (left : List UInt8) : Prop where
  | stopped {error : EncodeError} (failed : s.outcome = .error error)
      (alike : Alike x.toStep (s.after done))
  | ahead {rest : ρ} {done' : Array Event} (settled : s.outcome = .ok ())
      (delivers : Source.Delivers rest left)
      (seen : effects done'.toList = effects done ++ effects s.events)
      (goesOn : x = s.encoder.feed rest s.sink done')

namespace FeedsPast

variable {x : SourceStep σ η κ ρ} {done : List Event} {s t : Step σ η κ Unit}
  {left left' : List UInt8}

/-- Which of two steps that look alike it is makes no difference. -/
theorem congr (h : FeedsPast x done s left) (halike : Alike s t) : FeedsPast x done t left := by
  cases h with
  | stopped failed alike =>
      exact .stopped (halike.outcome ▸ failed) (alike.trans (halike.after rfl))
  | ahead settled delivers seen goesOn =>
      rw [halike.encoder_of_ok settled, halike.sink] at goesOn
      rw [halike.effects] at seen
      exact .ahead (halike.outcome ▸ settled) delivers seen goesOn

/-- Behind one step feeding gets past the next one. -/
theorem andThen (h : FeedsPast x done s left) {f : Encoder σ η → κ → Step σ η κ Unit}
    (hnext : s.outcome = .ok () → ∀ (rest : ρ) (done' : Array Event),
      Source.Delivers rest left →
      FeedsPast (s.encoder.feed rest s.sink done') done'.toList (f s.encoder s.sink) left') :
    FeedsPast x done (s.andThen f) left' := by
  cases h with
  | stopped failed alike =>
      rw [Step.andThen_of_error f failed]
      exact .stopped failed alike
  | @ahead rest done' settled delivers seen goesOn =>
      have hboth : effects done'.toList = effects (done ++ s.events) := by
        rw [seen, effects_append]
      rw [Step.andThen_of_ok f settled, goesOn]
      cases hnext settled rest done' delivers with
      | stopped failed alike =>
          -- The events of both steps are in front of those of the second alone.
          have hgroup : (f s.encoder s.sink).after (done ++ s.events)
              = ((f s.encoder s.sink).after s.events).after done := by
            simp only [Step.after, List.append_assoc]
          exact .stopped failed (hgroup ▸ alike.trans ((Alike.refl _).after hboth))
      | ahead settled' delivers' seen' goesOn' =>
          refine .ahead settled' delivers' ?_ goesOn'
          rw [seen', hboth, effects_append, List.append_assoc]
          exact congrArg _ (effects_append _ _).symm

end FeedsPast

/-! ### One round -/

/-- The bytes of a quantum. -/
def quantumBytes (e : Encoder σ η) : Nat := sampleBytes * e.quantum

omit [CodecSession σ] [RemapHook η] in
/-- A quantum is whole frames. -/
theorem quantumBytes_mod (e : Encoder σ η) : e.quantumBytes % (sampleBytes * e.channels) = 0 := by
  rw [quantumBytes, Nat.mul_mod_mul_left]
  exact congrArg (sampleBytes * ·) (Nat.mul_mod_left _ _)

/-- One round of feeding, in terms of the bytes that filling got. -/
theorem feed_of_fill {front : List UInt8}
    (h : (Source.fill r e.quantumBytes).outcome = .ok front) (k : κ) (done : Array Event) :
    let log := (Source.fill r e.quantumBytes).log
    let rest := (Source.fill r e.quantumBytes).source
    let s := e.encode (samplesOfBytes front) k
    e.feed r k done =
      if front.length % sampleBytes ≠ 0 then
        ⟨.error (.ragged (front.length / sampleBytes) e.channels), e, k, rest,
          done.toList ++ Event.ofLog (log ++ [.strayBytes (front.length % sampleBytes)])⟩
      else
        let done' := done ++ Event.ofLog log ++ s.events
        match s.outcome with
        | .error error => ⟨.error error, s.encoder, s.sink, rest, done'.toList⟩
        | .ok () =>
            if front.length < e.quantumBytes then
              let last := s.encoder.flush s.sink
              ⟨last.outcome, last.encoder, last.sink, rest, done'.toList ++ last.events⟩
            else s.encoder.feed rest s.sink done' := by
  have hsize : e.quantum * sampleBytes = e.quantumBytes := Nat.mul_comm _ _
  intro log rest s
  rw [feed, hsize]
  split
  next herr =>
    rw [herr] at h
    cases h
  next hfill =>
    simp only [log, rest]
    rw [hfill] at h ⊢
    cases h
    rfl

/-- One round of feeding, in terms of the bytes that are delivered. -/
theorem feed_of_delivers (h : Source.Delivers r bytes) (k : κ) (done : Array Event) :
    let front := bytes.take e.quantumBytes
    let s := e.encode (samplesOfBytes front) k
    ∃ (log : List Message) (rest : ρ), Source.Delivers rest (bytes.drop e.quantumBytes) ∧
      e.feed r k done =
        if front.length % sampleBytes ≠ 0 then
          ⟨.error (.ragged (front.length / sampleBytes) e.channels), e, k, rest,
            done.toList ++ Event.ofLog (log ++ [.strayBytes (front.length % sampleBytes)])⟩
        else
          let done' := done ++ Event.ofLog log ++ s.events
          match s.outcome with
          | .error error => ⟨.error error, s.encoder, s.sink, rest, done'.toList⟩
          | .ok () =>
              if front.length < e.quantumBytes then
                let last := s.encoder.flush s.sink
                ⟨last.outcome, last.encoder, last.sink, rest, done'.toList ++ last.events⟩
              else s.encoder.feed rest s.sink done' := by
  obtain ⟨hbytes, hrest⟩ := h.fill e.quantumBytes
  exact ⟨_, _, hrest, feed_of_fill hbytes k done⟩

/-- A full quantum is read and encoded, and unless that fails the source
is read on. -/
theorem feed_full (h : Source.Delivers r bytes) (hfull : e.quantumBytes ≤ bytes.length) (k : κ)
    (done : Array Event) :
    FeedsPast (e.feed r k done) done.toList
      (e.encode (samplesOfBytes (bytes.take e.quantumBytes)) k)
      (bytes.drop e.quantumBytes) := by
  have hlen : (bytes.take e.quantumBytes).length = e.quantumBytes := List.length_take_of_le hfull
  have hwhole : e.quantumBytes % sampleBytes = 0 := Nat.mul_mod_right _ _
  obtain ⟨log, rest, hrest, heq⟩ := feed_of_delivers (e := e) h k done
  rw [heq, hlen, if_neg (not_not_intro hwhole)]
  cases hout : (e.encode (samplesOfBytes (bytes.take e.quantumBytes)) k).outcome with
  | error error =>
      refine .stopped hout ⟨hout.symm, rfl, ?_, rfl, nofun⟩
      simp [SourceStep.toStep, Step.after]
  | ok _ =>
      dsimp only
      rw [if_neg (Nat.lt_irrefl _)]
      exact .ahead hout hrest (by simp) rfl

/-- Fewer bytes than a quantum are the last ones: they are encoded and
the encoder is flushed. -/
theorem feed_tail (h : Source.Delivers r bytes) (hshort : bytes.length < e.quantumBytes)
    (hwhole : bytes.length % sampleBytes = 0) (k : κ) (done : Array Event) :
    Alike (e.feed r k done).toStep
      (((e.encode (samplesOfBytes bytes) k).andThen fun e k => e.flush k).after
        done.toList) := by
  obtain ⟨log, rest, -, heq⟩ := feed_of_delivers (e := e) h k done
  rw [heq, List.take_of_length_le (Nat.le_of_lt hshort), if_neg (not_not_intro hwhole)]
  cases hout : (e.encode (samplesOfBytes bytes) k).outcome with
  | error error =>
      rw [Step.andThen_of_error _ hout]
      exact ⟨hout.symm, rfl, by simp [SourceStep.toStep, Step.after], rfl, nofun⟩
  | ok _ =>
      dsimp only
      rw [Step.andThen_of_ok _ hout, if_pos hshort]
      exact ⟨rfl, rfl, by simp [SourceStep.toStep, Step.after], rfl, fun _ => rfl⟩

/-- Full quanta are encoded as one block would be. -/
theorem feed_quanta (hready : e.state = .ready) (hfits : e.gatherer.Fits)
    (h : Source.Delivers r bytes) {m : Nat} (hm : e.quantumBytes * m ≤ bytes.length) (k : κ)
    (done : Array Event) :
    FeedsPast (e.feed r k done) done.toList
      (e.encode (samplesOfBytes (bytes.take (e.quantumBytes * m))) k)
      (bytes.drop (e.quantumBytes * m)) := by
  induction m generalizing e r bytes k done with
  | zero =>
      rw [Nat.mul_zero, List.take_zero, List.drop_zero, samplesOfBytes_nil, encode_nil hready]
      exact .ahead rfl h (List.append_nil _).symm rfl
  | succ m ih =>
      have hmore : e.quantumBytes * (m + 1) = e.quantumBytes + e.quantumBytes * m := by
        rw [Nat.mul_succ, Nat.add_comm]
      rw [hmore] at hm ⊢
      -- The first quantum and those behind it are whole frames.
      have hframes := e.quantumBytes_mod
      have hfront : (bytes.take e.quantumBytes).length = e.quantumBytes :=
        List.length_take_of_le (by omega)
      have hback : ((bytes.drop e.quantumBytes).take (e.quantumBytes * m)).length
          = e.quantumBytes * m := by
        refine List.length_take_of_le ?_
        rw [List.length_drop]
        omega
      obtain ⟨hbytes, hxs⟩ := whole_samplesOfBytes (hfront.symm ▸ hframes)
      have hbehind : ((bytes.drop e.quantumBytes).take (e.quantumBytes * m)).length
          % (sampleBytes * e.channels) = 0 := by
        rw [hback, Nat.mul_mod, hframes, Nat.zero_mul, Nat.zero_mod]
      have hjoin := alike_encode_append hready hfits hxs (whole_samplesOfBytes hbehind).2 k
      rw [← samplesOfBytes_append hbytes, ← List.take_add] at hjoin
      rw [← List.drop_drop]
      refine ((feed_full h (by omega) k done).andThen ?_).congr hjoin.symm
      intro hok rest done' hrest
      have hmove := move_encode hfits (samplesOfBytes (bytes.take e.quantumBytes)) k
      have hsame : (e.encode (samplesOfBytes (bytes.take e.quantumBytes)) k).encoder.quantumBytes
          = e.quantumBytes := congrArg (sampleBytes * ·.quantum) hmove.geometry
      have hready' := ready_of_encode hready hfits hxs hok
      have hnext := ih hready' (hmove.fits hfits) hrest (by rw [hsame, List.length_drop]; omega)
        (e.encode (samplesOfBytes (bytes.take e.quantumBytes)) k).sink done'
      rw [hsame] at hnext
      exact hnext

/-! ### Whole sources -/

omit [CodecSession σ] [RemapHook η] in
/-- The bytes of a source are those of the full quanta, which are whole
frames, and a tail that is shorter than a quantum. -/
theorem split_quanta (e : Encoder σ η) (bytes : List UInt8) :
    let front := e.quantumBytes * (bytes.length / e.quantumBytes)
    front ≤ bytes.length ∧ (bytes.take front).length % (sampleBytes * e.channels) = 0 ∧
      (bytes.drop front).length = bytes.length % e.quantumBytes ∧
      bytes.length % e.quantumBytes < e.quantumBytes ∧
      bytes.length % e.quantumBytes % (sampleBytes * e.channels)
        = bytes.length % (sampleBytes * e.channels) := by
  have hpos : 0 < e.quantumBytes := Nat.mul_pos (by decide) e.gatherer.geometry.quantum_pos
  have hdiv := Nat.div_add_mod bytes.length e.quantumBytes
  have hlt := Nat.mod_lt bytes.length hpos
  intro front
  have hle : front ≤ bytes.length := by omega
  refine ⟨hle, ?_, ?_, hlt, ?_⟩
  · rw [List.length_take_of_le hle, Nat.mul_mod, e.quantumBytes_mod, Nat.zero_mul, Nat.zero_mod]
  · rw [List.length_drop]
    omega
  · exact Nat.mod_mod_of_dvd _ (Nat.dvd_of_mod_eq_zero e.quantumBytes_mod)

/-- Feeding a source of whole frames looks like encoding its samples as
one block and flushing. -/
theorem feed_whole (hready : e.state = .ready) (hfits : e.gatherer.Fits)
    (h : Source.Delivers r bytes) (hwhole : bytes.length % (sampleBytes * e.channels) = 0)
    (k : κ) :
    Alike (e.feed r k #[]).toStep
      ((e.encode (samplesOfBytes bytes) k).andThen fun e k => e.flush k) := by
  obtain ⟨hle, hfront, htail, hshort, hmod⟩ := e.split_quanta bytes
  have hpast := feed_quanta hready hfits h hle k #[]
  generalize e.quantumBytes * (bytes.length / e.quantumBytes) = n at hfront htail hpast
  rw [hwhole] at hmod
  obtain ⟨hbytes, hxs⟩ := whole_samplesOfBytes hfront
  obtain ⟨hbytes', hys⟩ := whole_samplesOfBytes (htail ▸ hmod)
  -- All samples are those of the quanta and those of the tail.
  have hjoin := alike_encode_append hready hfits hxs hys k
  rw [← samplesOfBytes_append hbytes, List.take_append_drop] at hjoin
  have hall := hjoin.andThen (f := fun e k => e.flush k) (g := fun e k => e.flush k)
    fun _ => .refl _
  rw [Step.andThen_assoc] at hall
  refine Alike.trans ?_ hall.symm
  cases hpast with
  | stopped failed alike =>
      rw [Step.andThen_of_error _ failed]
      exact alike
  | ahead settled delivers seen goesOn =>
      have hmove := move_encode hfits (samplesOfBytes (bytes.take n)) k
      have hsame : (e.encode (samplesOfBytes (bytes.take n)) k).encoder.quantumBytes
          = e.quantumBytes := congrArg (sampleBytes * ·.quantum) hmove.geometry
      have hend := feed_tail delivers (by rw [hsame, htail]; exact hshort) hbytes'
        (e.encode (samplesOfBytes (bytes.take n)) k).sink
      rw [Step.andThen_of_ok _ settled, goesOn]
      exact (hend _).trans ((Alike.refl _).after seen)

end Encoder

end Packetizer

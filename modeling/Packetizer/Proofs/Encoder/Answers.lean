import Packetizer.Proofs.Encoder.Finished
import Packetizer.Proofs.Encoder.Session

/-!
# `Packetizer.Proofs.Encoder.Answers`: what the answers of a codec decide

When the sink never fails, the answers of the codec alone decide what
calls of it in a row come to. They are `Judged`: either all of them are
numbers of bytes in the frame buffer, or the last one is the only one that
is not. The packets among those before it are put into the sink, each by
itself, and are counted, and the count stands in the error.

Two rows in a row are judged together (`Judged.append`), and by that one
law a batch is judged from its calls (`Batch.judged`) and a run from its
batches.
-/

set_option autoImplicit false

namespace Packetizer

/-- The result code is a number of bytes in a buffer of this size. -/
def CountsBytes (size : Nat) (code : Int32) : Prop := 0 ≤ code ∧ code.toInt ≤ size

theorem Coded.not_isFailure_iff {σ : Type} {coded : Coded σ} {size : Nat}
    (hsize : coded.frame.size = size) : ¬ coded.IsFailure ↔ CountsBytes size coded.code := by
  rw [IsFailure, CountsBytes, Int32.lt_iff_toInt_lt, Int32.le_iff_toInt_le, Int32.toInt_zero,
    hsize]
  omega

/-! ### The frame buffer in a replay -/

namespace Replay

variable {σ : Type} [CodecSession σ] {size : Nat} {p : Replay σ}

/-- The frame buffer has this size, now and in every answer. -/
structure Sized (size : Nat) (p : Replay σ) : Prop where
  frame : p.frame.size = size
  answers : ∀ coded ∈ p.answers, coded.frame.size = size

theorem Sized.call (h : p.Sized size) (given : List Sample) : (p.call given).Sized size := by
  have hsame := CodecSession.size_frame p.session p.frame given
  rw [h.frame] at hsame
  refine ⟨hsame, fun coded hcoded => ?_⟩
  rcases List.mem_append.mp hcoded with hold | hnew
  · exact h.answers coded hold
  · rw [List.mem_singleton.mp hnew]
    exact hsame

theorem Sized.after (h : p.Sized size) (calls : List CodecCall) : (p.after calls).Sized size := by
  induction calls generalizing p with
  | nil => exact h
  | cons c calls ih => exact ih (h.call c.given)

end Replay

variable {σ η κ : Type}

/-! ### What answers in a row come to -/

/-- The packets among some answers, one by one. -/
def packetsOf (answers : List (Coded σ)) : List (List UInt8) :=
  (answers.filter Coded.isPacket).map Coded.packet

theorem packetsOf_append (answers more : List (Coded σ)) :
    packetsOf (answers ++ more) = packetsOf answers ++ packetsOf more := by
  rw [packetsOf, List.filter_append, List.map_append]
  rfl

/-- What the answers to calls in a row come to when the sink never fails.
`packets` were counted before and `packets'` are afterwards. -/
inductive Judged [Sink κ] (k : κ) (packets : Nat) :
    List (Coded σ) → Except EncodeError Unit → List Event → Nat → Prop where
  /-- All answers are numbers of bytes, and the packets are in the sink. -/
  | sound {answers : List (Coded σ)} {events : List Event} {packets' : Nat}
      (sound : ∀ coded ∈ answers, ¬ coded.IsFailure)
      (puts : Sink.PutsIn k (packetsOf answers) (writes events))
      (counted : packets' = packets + answers.countP Coded.isPacket) :
      Judged k packets answers (.ok ()) events packets'
  /-- The last answer is a failure, and the packets before are in the sink. -/
  | failed {done : List (Coded σ)} {last : Coded σ} {events : List Event} {packets' : Nat}
      (sound : ∀ coded ∈ done, ¬ coded.IsFailure) (failure : last.IsFailure)
      (puts : Sink.PutsIn k (packetsOf done) (writes events))
      (counted : packets' = packets + done.countP Coded.isPacket) :
      Judged k packets (done ++ [last]) (.error (.coding packets' last.code)) events packets'

namespace Judged

variable [Sink κ] {k k' : κ} {packets packets' packets'' : Nat} {answers more : List (Coded σ)}
  {outcome : Except EncodeError Unit} {events later : List Event}

/-- A row without a failure is judged together with what comes behind. -/
theorem append (h : Judged k packets answers (.ok ()) events packets')
    (hlater : Sink.Later k k') (h' : Judged k' packets' more outcome later packets'') :
    Judged k packets (answers ++ more) outcome (events ++ later) packets'' := by
  cases h with
  | sound sound puts counted =>
      -- What is sound behind this row is sound behind both.
      have hsound : ∀ {tail : List (Coded σ)}, (∀ coded ∈ tail, ¬ coded.IsFailure) →
          ∀ coded ∈ answers ++ tail, ¬ coded.IsFailure := by
        intro tail htail coded hcoded
        exact (List.mem_append.mp hcoded).elim (sound coded) (htail coded)
      cases h' with
      | sound sound' puts' counted' =>
          refine .sound (hsound sound') ?_ ?_
          · rw [packetsOf_append, writes_append]
            exact puts.append hlater puts'
          · rw [counted', counted, List.countP_append, Nat.add_assoc]
      | failed sound' failure puts' counted' =>
          rw [← List.append_assoc]
          refine .failed (hsound sound') failure ?_ ?_
          · rw [packetsOf_append, writes_append]
            exact puts.append hlater puts'
          · rw [counted', counted, List.countP_append, Nat.add_assoc]

/-- Without a failure all packets are in the sink. -/
theorem of_sound (h : Judged k packets answers outcome events packets')
    (hsound : ∀ coded ∈ answers, ¬ coded.IsFailure) :
    outcome = .ok () ∧ Sink.PutsIn k (packetsOf answers) (writes events) := by
  cases h with
  | sound _ puts _ => exact ⟨rfl, puts⟩
  | @failed done last _ _ _ failure _ _ =>
      exact absurd failure (hsound last (List.mem_append_right _ (List.mem_singleton_self last)))

/-- The log has no say. -/
theorem logged (h : Judged k packets answers outcome events packets')
    (before after : List Message) :
    Judged k packets answers outcome (Event.ofLog before ++ events ++ Event.ofLog after)
      packets' := by
  cases h with
  | sound sound puts counted => exact .sound sound (by rwa [writes_logged]) counted
  | failed sound failure puts counted =>
      exact .failed sound failure (by rwa [writes_logged]) counted

end Judged

/-! ### Calls of the codec -/

namespace PacketWriter

/-- An answer that is no failure is delivered. -/
theorem putsIn_deliver [Sink κ] {k : κ} (hk : Sink.NeverFails k) {w : PacketWriter σ η}
    {coded : Coded σ} (hframe : w.frame = coded.frame) (hsound : ¬ coded.IsFailure)
    (given : List Sample) :
    Sink.PutsIn k (packetsOf [coded]) (writes (w.deliver k given coded.code).events) := by
  have hlen := Coded.length_packet hsound
  have hfront : w.frame.front coded.code.toInt.toNat = coded.packet := by
    rw [hframe]
    refine FrameBuffer.front_eq_take _ ?_
    simp only [Coded.IsFailure, not_or, Nat.not_lt] at hsound
    exact hsound.2
  unfold deliver
  rw [if_neg (mt (isBadCode_iff hframe).mp hsound)]
  dsimp only
  split
  next hzero =>
    -- No bytes are announced: no packet, and no write.
    have hnone : ¬ coded.isPacket = true := by
      rw [Coded.isPacket_iff]
      omega
    rw [packetsOf, List.filter_cons_of_neg hnone]
    exact .nil k
  next hpos =>
    -- The packet has bytes, and only such a packet takes any writes.
    have hpacket : coded.isPacket = true := by
      rw [Coded.isPacket_iff]
      omega
    have hbytes : coded.packet ≠ [] := by
      intro hnil
      rw [hnil] at hlen
      exact hpos hlen.symm
    have hputs := hk.putsIn hbytes
    rw [packetsOf, List.filter_cons_of_pos hpacket, hfront, (hk.writeAll coded.packet).1]
    dsimp only
    rw [writes_append]
    exact (List.append_nil _).symm ▸ hputs

variable [CodecSession σ] [RemapHook η] [Sink κ]

/-- A call of the codec is some writes to the sink. The hook is called for
it if there are samples. -/
theorem later_emit {w : PacketWriter σ η} {s : σ} (hs : w.lease = .held s) (k : κ)
    (samples : List Sample) :
    Sink.Later k (w.emit k samples).sink ∧
      hookCalls (w.emit k samples).events
        = if samples = [] then [] else w.hook.toList.map fun _ => (w.layout, samples) := by
  rw [emit_eq hs]
  dsimp only
  refine ⟨(later_deliver _ k _ _).1, ?_⟩
  rw [hookCalls_append, (w.hookCalls_remap samples).1]
  exact (congrArg (_ ++ ·) (later_deliver _ k _ _).2).trans (List.append_nil _)

/-- The writes in a call are those of delivering its answer. -/
theorem writes_emit {w : PacketWriter σ η} {s : σ} (hs : w.lease = .held s) (k : κ)
    (samples : List Sample) :
    let coded := CodecSession.encodeQuantum s w.frame (w.remap samples).1
    ∃ w' : PacketWriter σ η, w'.frame = coded.frame ∧
      writes (w.emit k samples).events
        = writes (w'.deliver k (w.remap samples).1 coded.code).events := by
  intro coded
  refine ⟨{ (w.remap samples).2.1 with lease := .held coded.session, frame := coded.frame },
    rfl, ?_⟩
  rw [emit_eq hs]
  dsimp only
  rw [writes_append, (w.hookCalls_remap samples).2]
  rfl

/-- The answer to a call is judged by itself. -/
theorem judged_emit {w : PacketWriter σ η} {s : σ} (hs : w.lease = .held s) {k : κ}
    (hk : Sink.NeverFails k) (samples : List Sample) :
    let coded := CodecSession.encodeQuantum s w.frame (w.remap samples).1
    let x := w.emit k samples
    Judged k w.packets [coded] (x.outcome.map fun _ => ()) x.events x.writer.packets := by
  intro coded x
  obtain ⟨w', hframe, hwrites⟩ := writes_emit hs k samples
  cases (reports_emit hs k samples).settled with
  | refused failure outcome taken counted =>
      -- The row is this answer alone, so there is nothing before the failure.
      have hnone : writes x.events = [] := by
        rw [hwrites, events_deliver_of_bad ((isBadCode_iff hframe).mpr failure)]
        rfl
      have hfailed : Judged k w.packets ([] ++ [coded]) _ x.events x.writer.packets :=
        .failed nofun failure (hnone ▸ .nil k) counted
      have houtcome : x.outcome = .error (.coding x.writer.packets coded.code) := by
        rw [counted]
        exact outcome
      rw [houtcome]
      exact hfailed
  | torn packet sound error rest outcome =>
      -- This sink tears no packet off.
      exact absurd outcome ((emit_of_neverFails hk w samples).2 error)
  | written sound outcome taken counted =>
      have hsound : ∀ c ∈ [coded], ¬ c.IsFailure := by
        intro c hc
        rw [List.mem_singleton.mp hc]
        exact sound
      rw [outcome]
      refine .sound hsound ?_ ?_
      · rw [hwrites]
        exact putsIn_deliver hk hframe sound _
      · rw [counted, List.countP_singleton]

/-- A call is a call of the replay, and its answer is judged. -/
theorem Follows.judged {w : PacketWriter σ η} {p : Replay σ} (h : w.Follows p) {k : κ}
    (hk : Sink.NeverFails k) (samples : List Sample) :
    let x := w.emit k samples
    ∃ given coded, codecCalls x.events = [⟨samples, given, coded.code⟩] ∧
      (p.call given).answers = p.answers ++ [coded] ∧ x.writer.Follows (p.call given) ∧
      Judged k w.packets [coded] (x.outcome.map fun _ => ()) x.events x.writer.packets := by
  have hreports := reports_emit h.lease k samples
  have hjudged := judged_emit h.lease hk samples
  have hcalls := hreports.calls
  have hlease := hreports.lease
  have hframe := hreports.frame
  rw [h.frame] at hcalls hlease hframe hjudged
  exact ⟨_, _, hcalls, rfl, ⟨hlease, hframe⟩, hjudged⟩

end PacketWriter

/-- The answers to a batch of calls are judged together. -/
theorem Batch.judged [CodecSession σ] [RemapHook η] [Sink κ] {w w' : PacketWriter σ η}
    {k k' : κ} {quanta : List (List Sample)} {outcome : Except EncodeError Unit}
    {events : List Event} (h : Batch w k quanta outcome w' k' events) {p : Replay σ}
    (hp : w.Follows p) (hk : Sink.NeverFails k) :
    ∃ answers, (p.after (codecCalls events)).answers = p.answers ++ answers ∧
      Judged k w.packets answers outcome events w'.packets ∧ Sink.Later k k' := by
  induction h generalizing p with
  | nil w k =>
      refine ⟨[], (List.append_nil _).symm, ?_, .refl k⟩
      exact .sound nofun (.nil k) rfl
  | @broken w k quantum error failed =>
      obtain ⟨given, coded, hcalls, hanswers, -, hjudged⟩ := hp.judged hk quantum
      rw [failed] at hjudged
      rw [hcalls, Replay.after_singleton]
      exact ⟨[coded], hanswers, hjudged, (PacketWriter.later_emit hp.lease k quantum).1⟩
  | @cons w w' k k' quantum quanta outcome events n made rest ih =>
      obtain ⟨given, coded, hcalls, hanswers, hfollows, hjudged⟩ := hp.judged hk quantum
      have hlater := (PacketWriter.later_emit hp.lease k quantum).1
      obtain ⟨answers, hmore, hjudged', hlater'⟩ := ih hfollows (hk.later hlater)
      rw [made] at hjudged
      rw [codecCalls_append, hcalls, Replay.after_append, Replay.after_singleton, hmore, hanswers,
        List.append_assoc]
      exact ⟨[coded] ++ answers, rfl, hjudged.append hlater hjudged', hlater.trans hlater'⟩

end Packetizer

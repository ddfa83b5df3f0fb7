import Mathlib.Data.List.Iterate
import Mathlib.Data.Nat.Find
import Packetizer.Proofs.Codec.Linear16
import Packetizer.Proofs.Encoder.Answers
import Packetizer.Proofs.Rehearsal.Devices

/-!
# `Packetizer.Proofs.Encoder.Draining`: what a flush asks of the codec

A flush gives the codec what is carried over, once and behind the hook, and
then calls it without samples for as long as packets come out
(`flush_drains`). Each answer depends on the one before alone, so that the
answers of a flush are the iterates of `Coded.next`, and the number of calls
is where the first of them is without a packet.

`PacketWriter.Drained` says that of calls in a row. One call is either the
last (`drained_last`) or is followed by calls without samples
(`drained_more`), and the induction is on the recursion of `drain`.

That draining ends at all is up to the codec. The class of sessions asks
for a backlog to that effect, and `exists_backlog_iff` shows that this asks
no more than that packets stop to come.
-/

set_option autoImplicit false

namespace Packetizer

variable {σ η κ : Type}

/-! ### Packets out of no samples -/

namespace Coded

/-- The code announces a packet, and the frame buffer holds it. -/
def MakesPacket (c : Coded σ) : Prop := 0 < c.code ∧ c.code.toInt.toNat ≤ c.frame.size

instance : DecidablePred (MakesPacket (σ := σ)) := fun _ => inferInstanceAs (Decidable (_ ∧ _))

theorem makesPacket_iff {c : Coded σ} : c.MakesPacket ↔ c.isPacket = true ∧ ¬ c.IsFailure := by
  rw [MakesPacket, isPacket_iff, IsFailure, Int32.lt_iff_toInt_lt, Int32.lt_iff_toInt_lt,
    Int32.toInt_zero]
  omega

/-- A code of zero is neither a packet nor a failure. -/
theorem empty_of_code {c : Coded σ} (h : c.code = 0) :
    ¬ c.isPacket = true ∧ ¬ c.IsFailure := by
  rw [isPacket_iff, IsFailure, h, Int32.toInt_zero, Int.toNat_zero]
  refine ⟨Nat.lt_irrefl 0, ?_⟩
  rintro (hnegative | hlarge)
  · exact absurd hnegative (by decide)
  · exact absurd hlarge (Nat.not_lt_zero _)

/-- The answer to a call without samples, behind this one. -/
def next [CodecSession σ] (c : Coded σ) : Coded σ :=
  CodecSession.encodeQuantum c.session c.frame []

end Coded

/-- Calls without samples have a backlog just when packets stop to come:
wherever a session stands, some such call gives none. -/
theorem exists_backlog_iff {call : σ → FrameBuffer → Coded σ}
    (hsize : ∀ s frame, (call s frame).frame.size = frame.size) :
    (∃ backlog : σ → FrameBuffer → Nat, ∀ s frame, 0 < (call s frame).code →
        (call s frame).code.toInt ≤ frame.size →
        backlog (call s frame).session (call s frame).frame < backlog s frame) ↔
      ∀ s frame, ∃ n, ¬ ((fun c : Coded σ => call c.session c.frame)^[n]
        (call s frame)).MakesPacket := by
  constructor
  · rintro ⟨backlog, hless⟩ s frame
    -- Each packet is one less to come, so the induction is on how many there are.
    generalize hbound : backlog s frame = bound
    induction bound using Nat.strongRecOn generalizing s frame with
    | ind bound ih =>
        by_cases hmakes : (call s frame).MakesPacket
        · have hroom := Int.toNat_le.mp hmakes.2
          rw [hsize] at hroom
          have hfewer := hless s frame hmakes.1 hroom
          obtain ⟨n, hn⟩ := ih _ (hbound ▸ hfewer) _ _ rfl
          exact ⟨n + 1, hn⟩
        · exact ⟨0, hmakes⟩
  · intro hends
    classical
    -- The backlog is the number of packets before the first call without one.
    refine ⟨fun s frame => Nat.find (hends s frame), fun s frame hpos hle => ?_⟩
    have hmakes : (call s frame).MakesPacket := ⟨hpos, by rwa [hsize, Int.toNat_le]⟩
    have hlast := Nat.find_spec (hends s frame)
    show Nat.find _ < Nat.find (hends s frame)
    generalize Nat.find (hends s frame) = n at hlast
    cases n with
    | zero => exact absurd hmakes hlast
    | succ n => exact Nat.lt_succ_of_le (Nat.find_min' (hends _ _) hlast)

/-! ### The hook -/

/-- What the hook makes of some samples. -/
def hooked [RemapHook η] (hook : Option η) (layout : StreamLayout) (samples : List Sample) :
    List Sample :=
  match hook with
  | none => samples
  | some hook => (RemapHook.apply hook layout samples).1

theorem length_hooked [RemapHook η] (hook : Option η) (layout : StreamLayout)
    (samples : List Sample) : (hooked hook layout samples).length = samples.length := by
  cases hook with
  | none => rfl
  | some hook => exact RemapHook.length_apply hook layout samples

/-- The codec gets what the hook makes of the samples. -/
theorem PacketWriter.remap_hooked [RemapHook η] (w : PacketWriter σ η) (samples : List Sample) :
    (w.remap samples).1 = hooked w.hook w.layout samples := by
  obtain ⟨lease, frame, layout, hook, packets, bytes⟩ := w
  cases samples with
  | nil => exact (List.eq_nil_of_length_eq_zero (length_hooked hook layout [])).symm
  | cons sample samples => cases hook <;> rfl

variable [CodecSession σ] [RemapHook η] [Sink κ]

namespace PacketWriter

/-! ### Calls until there is no packet -/

/-- What calling the codec comes to, with some samples and then without any.
The first answer is `c`, and answer `n` is the first one without a packet,
where the calls end. -/
structure Drained (w : PacketWriter σ η) (k : κ) (samples given : List Sample) (c : Coded σ)
    (n : Nat) (x : Emission σ η κ) : Prop where
  packets : ∀ i < n, (Coded.next^[i] c).MakesPacket
  ended : ¬ (Coded.next^[n] c).MakesPacket
  calls : codecCalls x.events = ⟨samples, given, c.code⟩ ::
    (List.range n).map fun i => ⟨[], [], (Coded.next^[i + 1] c).code⟩
  asked : hookCalls x.events
    = if samples = [] then [] else w.hook.toList.map fun _ => (w.layout, samples)
  judged : Judged k w.packets ((List.range (n + 1)).map fun i => Coded.next^[i] c)
    (x.outcome.map fun _ => ()) x.events x.writer.packets

variable {w : PacketWriter σ η} {s : σ} {k : κ} {samples : List Sample}

/-- A call writes a packet just when the answer makes one. -/
theorem emit_makesPacket (hs : w.lease = .held s) (hk : Sink.NeverFails k)
    (samples : List Sample) :
    (∃ n, (w.emit k samples).outcome = .ok (n + 1)) ↔
      (CodecSession.encodeQuantum s w.frame (w.remap samples).1).MakesPacket := by
  rw [Coded.makesPacket_iff]
  cases (reports_emit hs k samples).settled with
  | refused failure outcome =>
      rw [outcome]
      exact ⟨nofun, fun hmakes => absurd failure hmakes.2⟩
  | torn packet sound error rest outcome =>
      exact absurd outcome ((emit_of_neverFails hk w samples).2 error)
  | written sound outcome =>
      rw [outcome, Coded.length_packet sound, Coded.isPacket_iff]
      constructor
      · rintro ⟨n, hn⟩
        have hlen : (CodecSession.encodeQuantum s w.frame (w.remap samples).1).code.toInt.toNat
            = n + 1 := Except.ok.inj hn
        exact ⟨by omega, sound⟩
      · rintro ⟨hpos, -⟩
        obtain ⟨n, hn⟩ := Nat.exists_eq_succ_of_ne_zero (Nat.pos_iff_ne_zero.mp hpos)
        exact ⟨n, congrArg Except.ok hn⟩

/-- A call without a packet is the last one. -/
theorem drained_last (hs : w.lease = .held s) (hk : Sink.NeverFails k)
    (hlast : ∀ n, (w.emit k samples).outcome ≠ .ok (n + 1)) :
    w.Drained k samples (w.remap samples).1
      (CodecSession.encodeQuantum s w.frame (w.remap samples).1) 0 (w.emit k samples) where
  packets := nofun
  ended := fun hmakes =>
    have ⟨n, hn⟩ := (emit_makesPacket hs hk samples).mpr hmakes
    hlast n hn
  calls := (reports_emit hs k samples).calls
  asked := (later_emit hs k samples).2
  judged := judged_emit hs hk samples

/-- Behind a packet the calls without samples follow. -/
theorem drained_more (hs : w.lease = .held s) (hk : Sink.NeverFails k) {m n : Nat}
    (hmade : (w.emit k samples).outcome = .ok (m + 1)) {x : Emission σ η κ} :
    let c := CodecSession.encodeQuantum s w.frame (w.remap samples).1
    (w.emit k samples).writer.Drained (w.emit k samples).sink [] [] c.next n x →
      w.Drained k samples (w.remap samples).1 c (n + 1)
        { x with events := (w.emit k samples).events ++ x.events } := by
  intro c hrest
  have hjudged : Judged k w.packets [c] _ _ _ := judged_emit hs hk samples
  rw [hmade] at hjudged
  constructor
  · intro i hi
    cases i with
    | zero => exact (emit_makesPacket hs hk samples).mp ⟨m, hmade⟩
    | succ i => exact hrest.packets i (Nat.lt_of_succ_lt_succ hi)
  · exact hrest.ended
  · -- The answers of the rest are those behind `c`, one place earlier.
    rw [codecCalls_append, (reports_emit hs k samples).calls, hrest.calls,
      List.range_succ_eq_map, List.map_cons, List.map_map]
    rfl
  · rw [hookCalls_append, (later_emit hs k samples).2, hrest.asked]
    exact List.append_nil _
  · -- The answer is judged, and the rest behind it.
    have hboth := hjudged.append (later_emit hs k samples).1 hrest.judged
    rw [List.range_succ_eq_map, List.map_cons, List.map_map]
    exact hboth

/-- Encoding the last samples comes to a call with them, and to what
draining comes to if that gives a packet. -/
theorem drained_of_rest (hs : w.lease = .held s) (hk : Sink.NeverFails k)
    (hrest : ∀ m, (w.emit k samples).outcome = .ok (m + 1) →
      ∀ {s'}, (w.emit k samples).writer.lease = .held s' →
      Sink.NeverFails (w.emit k samples).sink →
      ∃ n, (w.emit k samples).writer.Drained (w.emit k samples).sink [] []
        (CodecSession.encodeQuantum s' (w.emit k samples).writer.frame []) n
        ((w.emit k samples).writer.drain (w.emit k samples).sink)) :
    ∃ n, w.Drained k samples (w.remap samples).1
      (CodecSession.encodeQuantum s w.frame (w.remap samples).1) n (w.emitAll k samples) := by
  rw [emitAll_eq]
  dsimp only
  split
  next m hmade =>
    have hreports := reports_emit hs k samples
    obtain ⟨n, hn⟩ := hrest m hmade hreports.lease (hk.later (later_emit hs k samples).1)
    rw [hreports.frame] at hn
    exact ⟨n + 1, drained_more hs hk hmade hn⟩
  next hlast => exact ⟨0, drained_last hs hk hlast⟩

theorem drain_eq_emitAll (w : PacketWriter σ η) (k : κ) : w.drain k = w.emitAll k [] :=
  (drain_eq w k).trans (emitAll_eq w k []).symm

/-- Draining is calls without samples until there is no packet. -/
theorem drained_drain (hs : w.lease = .held s) (hk : Sink.NeverFails k) :
    ∃ n, w.Drained k [] [] (CodecSession.encodeQuantum s w.frame []) n (w.drain k) := by
  -- As `drain` does: behind a packet with the writer and the sink of the call.
  induction w, k using drain.induct generalizing s with
  | case1 w k m buffer w' k' events h ih =>
      rw [drain_eq_emitAll]
      refine drained_of_rest hs hk fun m hmade s' hlease hsink => ?_
      rw [h] at hlease hsink ⊢
      exact ih hlease hsink
  | case2 w k hlast =>
      rw [drain_eq_emitAll]
      exact drained_of_rest hs hk fun m hmade =>
        (hlast m _ _ _ _ (by rw [← hmade])).elim

/-- Encoding the last samples is a call with them and calls without until
there is no packet. -/
theorem drained_emitAll (hs : w.lease = .held s) (hk : Sink.NeverFails k)
    (samples : List Sample) :
    ∃ n, w.Drained k samples (hooked w.hook w.layout samples)
      (CodecSession.encodeQuantum s w.frame (hooked w.hook w.layout samples)) n
      (w.emitAll k samples) := by
  rw [← w.remap_hooked samples]
  exact drained_of_rest hs hk fun _ _ _ hlease hsink => drained_drain hlease hsink

end PacketWriter

namespace Encoder

/-! ### The flush -/

/-- What the codec answers in a flush: first to what is carried over, as the
hook leaves it, and then to calls without samples. -/
def flushAnswer (e : Encoder σ η) (s : σ) (n : Nat) : Coded σ :=
  Coded.next^[n] (CodecSession.encodeQuantum s e.writer.frame
    (hooked e.writer.hook e.writer.layout e.gatherer.pending))

/-- The codec is called in a flush until it gives no packet, which is after
`n` of them. What is carried over is for the first call alone, and so is the
hook, which is not asked if nothing is carried over. -/
structure FlushCalls (e : Encoder σ η) (k : κ) (s : σ) (n : Nat) : Prop where
  packets : ∀ i < n, (e.flushAnswer s i).MakesPacket
  ended : ¬ (e.flushAnswer s n).MakesPacket
  calls : codecCalls (e.flush k).events =
    ⟨e.gatherer.pending, hooked e.writer.hook e.writer.layout e.gatherer.pending,
      (e.flushAnswer s 0).code⟩ ::
    (List.range n).map fun i => ⟨[], [], (e.flushAnswer s (i + 1)).code⟩
  asked : hookCalls (e.flush k).events = if e.gatherer.pending = [] then []
    else e.writer.hook.toList.map fun _ => (e.writer.layout, e.gatherer.pending)

namespace FlushCalls

variable {e : Encoder σ η} {k : κ} {s : σ} {n : Nat}

theorem length_calls (h : e.FlushCalls k s n) :
    (codecCalls (e.flush k).events).length = n + 1 := by
  rw [h.calls, List.length_cons, List.length_map, List.length_range]

/-- The answers alone say how many packets there are. -/
theorem unique (h : e.FlushCalls k s n) {m : Nat}
    (hpackets : ∀ i < m, (e.flushAnswer s i).MakesPacket)
    (hended : ¬ (e.flushAnswer s m).MakesPacket) : n = m := by
  rcases Nat.lt_trichotomy n m with hless | heq | hmore
  · exact absurd (hpackets n hless) h.ended
  · exact heq
  · exact absurd (h.packets m hmore) hended

end FlushCalls

/-- A flush that ends the stream after `n` packets, with each of them in the
sink. -/
structure FlushEnds (e : Encoder σ η) (k : κ) (s : σ) (n : Nat) : Prop where
  outcome : (e.flush k).outcome = .ok ()
  state : (e.flush k).encoder.state = .flushed
  carried : (e.flush k).encoder.carried = 0
  sizes : ∀ i < n, (e.flushAnswer s i).packet.length = (e.flushAnswer s i).code.toInt.toNat
  puts : Sink.PutsIn k ((List.range n).map fun i => (e.flushAnswer s i).packet)
    (writes (e.flush k).events)

variable {e : Encoder σ η} {s : σ} {k : κ} {n : Nat}

/-- A flush is logged around what is made of the last samples, and goes as
well as that. -/
theorem flush_emission (hready : e.state = .ready) (k : κ) :
    let x := e.writer.emitAll k e.gatherer.pending
    (∃ before after, (e.flush k).events = Event.ofLog before ++ x.events ++ Event.ofLog after) ∧
      ((x.outcome.map fun _ => ()) = .ok () → (e.flush k).outcome = .ok () ∧
        (e.flush k).encoder.state = .flushed ∧ (e.flush k).encoder.carried = 0) := by
  intro x
  rw [flush_of_ready hready]
  show (∃ before after, _ = Event.ofLog before ++ x.events ++ Event.ofLog after) ∧ _
  dsimp only
  cases hout : x.outcome with
  | error error => exact ⟨⟨_, [], (List.append_nil _).symm⟩, nofun⟩
  | ok m => exact ⟨⟨_, _, rfl⟩, fun _ => ⟨rfl, rfl, rfl⟩⟩

/-- The packets of a flush are those before the answer that ends it. -/
theorem packetsOf_flushAnswers (hpackets : ∀ i < n, (e.flushAnswer s i).MakesPacket)
    (hended : ¬ (e.flushAnswer s n).isPacket = true) :
    packetsOf ((List.range (n + 1)).map (e.flushAnswer s))
      = (List.range n).map fun i => (e.flushAnswer s i).packet := by
  have hall : ((List.range n).map (e.flushAnswer s)).filter Coded.isPacket
      = (List.range n).map (e.flushAnswer s) := by
    refine List.filter_eq_self.mpr fun coded hcoded => ?_
    obtain ⟨i, hi, rfl⟩ := List.mem_map.mp hcoded
    exact (Coded.makesPacket_iff.mp (hpackets i (List.mem_range.mp hi))).1
  rw [List.range_succ, List.map_append, packetsOf_append, List.map_singleton, packetsOf, hall,
    packetsOf, List.filter_cons_of_neg hended, List.map_map]
  exact List.append_nil _

/-- A ready encoder drains its codec in a flush. -/
theorem flushCalls_of_ready (hready : e.state = .ready) (hs : e.writer.lease = .held s)
    (hk : Sink.NeverFails k) :
    ∃ n, e.FlushCalls k s n ∧ ((e.flushAnswer s n).code = 0 → e.FlushEnds k s n) := by
  obtain ⟨n, hn⟩ := PacketWriter.drained_emitAll hs hk e.gatherer.pending
  obtain ⟨⟨before, after, hevents⟩, hgood⟩ := flush_emission hready k
  refine ⟨n, ⟨hn.packets, hn.ended, ?_, ?_⟩, fun hzero => ?_⟩
  · rw [hevents, codecCalls_logged]
    exact hn.calls
  · rw [hevents, hookCalls_logged]
    exact hn.asked
  · have hmakes : ∀ i < n, (e.flushAnswer s i).MakesPacket := hn.packets
    obtain ⟨hnone, hfine⟩ := Coded.empty_of_code hzero
    have hsound : ∀ coded ∈ (List.range (n + 1)).map (e.flushAnswer s), ¬ coded.IsFailure := by
      intro coded hcoded
      obtain ⟨i, hi, rfl⟩ := List.mem_map.mp hcoded
      rcases Nat.lt_succ_iff_lt_or_eq.mp (List.mem_range.mp hi) with hbefore | rfl
      · exact (Coded.makesPacket_iff.mp (hmakes i hbefore)).2
      · exact hfine
    obtain ⟨hok, hputs⟩ := hn.judged.of_sound hsound
    obtain ⟨houtcome, hstate, hcarried⟩ := hgood hok
    refine ⟨houtcome, hstate, hcarried, fun i hi => ?_, ?_⟩
    · exact Coded.length_packet (Coded.makesPacket_iff.mp (hmakes i hi)).2
    · rw [hevents, writes_logged, ← packetsOf_flushAnswers hmakes hnone]
      exact hputs

end Encoder

/-! ### 16-bit audio -/

namespace Linear16

omit [RemapHook η] [Sink κ] [CodecSession σ] in
/-- A session does not change. -/
theorem session_encodeQuantum (s : Session) (frame : FrameBuffer) (samples : List Sample) :
    (CodecSession.encodeQuantum s frame samples).session = s := by
  show (s.encodeQuantum frame samples).session = s
  unfold Session.encodeQuantum
  dsimp only
  split <;> rfl

/-- Nor in a replay of any calls. -/
theorem session_after (p : Replay Session) (calls : List CodecCall) :
    (p.after calls).session = p.session := by
  induction calls generalizing p with
  | nil => rfl
  | cons c calls ih => exact (ih (p.call c.given)).trans (session_encodeQuantum _ _ _)

/-- Nothing comes out of no samples. -/
theorem code_next (c : Coded Session) : c.next.code = 0 := c.session.code_encodeQuantum_nil c.frame

end Linear16

namespace Encoder

/-- A ready encoder for 16-bit audio has a session for its quantum, and the
frame buffer is the bytes of that, when a word holds them. -/
theorem Reachable.linear16 {e : Encoder Linear16.Session η}
    (h : e.Reachable Linear16.linear16) (hready : e.state = .ready)
    (hword : 2 * e.quantum < UInt64.size) :
    ∃ s, e.writer.lease = .held s ∧ s.framesPerPacket.samples s.channels = e.quantum ∧
      e.writer.frame.size = 2 * e.quantum := by
  obtain ⟨κ, _, settings, hook, first, opening, k, ops, hstart, rfl⟩ := h
  obtain ⟨s, log, g, hopen, hchannels, hframes, hfirst⟩ := ofSession_of_start hstart
  obtain ⟨s', log', -, hfresh⟩ := fresh_of_start hstart
  obtain rfl : s = s' := by
    have hlease := hfresh.lease
    rw [hfirst] at hlease
    exact Lease.held.inj hlease
  have hholds := hfresh.holds_run [] k ops
  have hfits := QuantumBuffer.fits_of_carried hfresh.carried
  -- The session and the quantum are those of the start, whatever was run since.
  have hsame : (first.run k ops).encoder.quantum = g.quantum := by
    have hrun := congrArg Geometry.quantum (geometry_run hfits k ops)
    rwa [hfirst] at hrun ⊢
  obtain ⟨hquantum, hsize⟩ :=
    Linear16.quantum_of_openSession hopen hchannels hframes (hsame ▸ hword)
  have hbegin : (Replay.start s).Sized (CodecSession.maxCodedSize s) :=
    ⟨rfl, fun _ hnone => absurd hnone List.not_mem_nil⟩
  have hsized := hbegin.after
    (codecCalls (Event.ofLog [] ++ (first.run k ops).events))
  refine ⟨s, ?_, hquantum.trans hsame.symm, ?_⟩
  · rw [hholds.held (by rw [hready]; decide), replay, Linear16.session_after]
    rfl
  · rw [hholds.frame, hsame, ← hsize]
    exact hsized.frame

variable {e : Encoder Linear16.Session η} {s : Linear16.Session} {k : κ} {n : Nat}

omit [CodecSession σ] in
/-- In 16-bit audio what is carried over is a packet, if it is anything, and
nothing comes behind it. -/
theorem FlushCalls.linear16 (h : e.FlushCalls k s n) (hfits : e.gatherer.Fits)
    (hs : Linear16.IsLinear e.quantum s) (hroom : 2 * e.quantum ≤ e.writer.frame.size) :
    n = (if e.gatherer.pending = [] then 0 else 1) ∧ (e.flushAnswer s n).code = 0 := by
  have hlen := length_hooked e.writer.hook e.writer.layout e.gatherer.pending
  have hends : ∀ i, (e.flushAnswer s i).code = 0 → ¬ (e.flushAnswer s i).MakesPacket := by
    intro i hzero hmakes
    exact (Coded.empty_of_code hzero).1 (Coded.makesPacket_iff.mp hmakes).1
  split
  next hnil =>
    -- The first call has no samples already.
    have hfirst : (e.flushAnswer s 0).code = 0 := by
      rw [hnil] at hlen
      rw [flushAnswer, hnil, List.eq_nil_of_length_eq_zero hlen]
      exact s.code_encodeQuantum_nil _
    obtain rfl := h.unique (fun i hi => absurd hi (Nat.not_lt_zero i)) (hends 0 hfirst)
    exact ⟨rfl, hfirst⟩
  next hsome =>
    -- What is carried over is below a quantum, so its bytes fit the packet.
    have hmost : (hooked e.writer.hook e.writer.layout e.gatherer.pending).length ≤ e.quantum := by
      rw [hlen, hfits.length_pending]
      exact Nat.le_of_lt hfits.carried_lt
    obtain ⟨-, hsound, hpacket⟩ := hs.answer e.writer.frame _ hmost hroom
    have hsize := Coded.length_packet hsound
    rw [hpacket, Linear16.length_encode, hlen] at hsize
    have hpos := List.length_pos_iff.mpr hsome
    have hfirst : (e.flushAnswer s 0).MakesPacket := by
      refine Coded.makesPacket_iff.mpr ⟨(Coded.isPacket_iff _).mpr ?_, hsound⟩
      show 0 < (CodecSession.encodeQuantum s e.writer.frame _).code.toInt.toNat
      omega
    have hbehind : (e.flushAnswer s 1).code = 0 := Linear16.code_next _
    obtain rfl := h.unique (fun i hi => by rwa [Nat.lt_one_iff.mp hi]) (hends 1 hbehind)
    exact ⟨rfl, hbehind⟩

/-- A flush calls the codec with what is carried over and then without
samples, until there is no packet any more. If that is because there is
nothing left, the stream has ended well and the sink has all packets. With
16-bit audio this is always so: what is carried over is one packet, if it is
anything, and one more call finds that there is nothing behind it. -/
theorem flush_drains {k : κ} (hk : Sink.NeverFails k) :
    (∀ {σ γ : Type} [CodecSession σ] [Codec γ σ] {codec : γ} {e : Encoder σ η},
      e.Reachable codec → e.state = .ready →
      ∃ s n, e.session = some s ∧ e.FlushCalls k s n ∧
        ((e.flushAnswer s n).code = 0 → e.FlushEnds k s n)) ∧
    ∀ {e : Encoder Linear16.Session η}, e.Reachable Linear16.linear16 → e.state = .ready →
      2 * e.quantum ≤ Linear16.maxCode →
      ∃ s n, e.session = some s ∧ e.FlushCalls k s n ∧ e.FlushEnds k s n ∧
        (codecCalls (e.flush k).events).length = if e.gatherer.pending = [] then 1 else 2 := by
  constructor
  · intro σ γ _ _ codec e hreach hready
    obtain ⟨κ', _, settings, hook, first, opening, k', ops, hstart, rfl⟩ := hreach
    obtain ⟨s, log, -, hfresh⟩ := fresh_of_start hstart
    have hlease := (hfresh.holds_run [] k' ops).held (by rw [hready]; nofun)
    obtain ⟨n, hcalls, hends⟩ := flushCalls_of_ready hready hlease hk
    exact ⟨_, n, by rw [session, hlease]; rfl, hcalls, hends⟩
  · intro e hreach hready hcode
    have hword : 2 * e.quantum < UInt64.size := Nat.lt_of_le_of_lt hcode (by decide)
    obtain ⟨s, hlease, hquantum, hroom⟩ := hreach.linear16 hready hword
    obtain ⟨n, hcalls, hends⟩ := flushCalls_of_ready hready hlease hk
    obtain ⟨hn, hzero⟩ := hcalls.linear16 hreach.fits
      (Linear16.Session.isLinear hquantum hcode) (Nat.le_of_eq hroom.symm)
    refine ⟨s, n, by rw [session, hlease]; rfl, hcalls, hends hzero, ?_⟩
    rw [hcalls.length_calls, hn]
    split <;> rfl

open Rehearsal in
/-- Two samples are carried over. The codec makes a packet of them and then
a packet of a whole frame buffer out of none. With 16-bit audio there is the
one packet. -/
theorem flush_drains_scripted :
    ∃ (k : ScriptedSink) (e : Encoder ScriptedSession Hook) (s : ScriptedSession)
      (e' : Encoder Linear16.Session Hook),
      Sink.NeverFails k ∧
      e.Reachable (⟨⟨2⟩, 8, none, [5, 3, 8, 0, 6]⟩ : ScriptedCodec) ∧ e.state = .ready ∧
      e.session = some s ∧ e.FlushCalls k s 2 ∧ e.FlushEnds k s 2 ∧
      (e.flushAnswer s 0).packet = [2, 2, 2] ∧
      (e.flushAnswer s 1).packet = List.replicate 8 3 ∧
      e'.Reachable Linear16.linear16 ∧ e'.state = .ready ∧
      2 * e'.quantum ≤ Linear16.maxCode ∧ (e'.flush k).outcome = .ok () ∧
      (codecCalls (e'.flush k).events).length = 2 := by
  have hstart : start (⟨⟨2⟩, 8, none, [5, 3, 8, 0, 6]⟩ : ScriptedCodec) {} (some Hook.reverse)
      = .ready _ _ := rfl
  have hstart' : start Linear16.linear16 { framesPerPacket := some ⟨2⟩ } (some Hook.reverse)
      = .ready _ _ := rfl
  have hk : Sink.NeverFails (⟨[.accept 2, .interrupt]⟩ : ScriptedSink) :=
    ScriptedSink.neverFails (by decide)
  have hreach := reachable_run hstart (⟨[]⟩ : ScriptedSink) [.encode (List.replicate 6 ⟨7⟩)]
  have hreach' := reachable_run hstart' (⟨[]⟩ : ScriptedSink) [.encode (List.replicate 2 ⟨7⟩)]
  obtain ⟨hgeneral, hlinear⟩ := flush_drains (η := Hook) hk
  obtain ⟨s, n, hs, hcalls, hends⟩ := hgeneral hreach (by cbv)
  obtain ⟨s', n', -, -, hends', hcount⟩ := hlinear hreach' (by cbv) (by decide_cbv)
  obtain rfl : (⟨⟨2⟩, 8, [3, 8, 0, 6], 1⟩ : ScriptedSession) = s :=
    Option.some.inj (Eq.trans (by cbv) hs)
  obtain rfl : n = 2 := by
    refine hcalls.unique (fun i hi => ?_) (by decide_cbv)
    obtain rfl | rfl : i = 0 ∨ i = 1 := by omega
    · decide_cbv
    · decide_cbv
  exact ⟨_, _, _, _, hk, hreach, by cbv, hs, hcalls, hends (by cbv), by cbv, by cbv, hreach',
    by cbv, by decide_cbv, hends'.outcome, hcount.trans (by cbv)⟩

end Encoder

end Packetizer

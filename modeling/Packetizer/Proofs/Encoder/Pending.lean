import Packetizer.Proofs.Audio.Chunks
import Packetizer.Proofs.Encoder.Gathering

/-!
# `Packetizer.Proofs.Encoder.Pending`: a quantum buffer seen as a list

Whatever is done with a quantum buffer, it behaves like the list of the
samples it carries. `ListStep` is the list's own account of a call: a push
hands out the full quanta at the front of the list and the new samples, as
they stand there, and the list keeps the rest. What a consumer writes over
its quantum is not in it, and nothing else of the working buffer is.

`Call.listStep` says that every call on a buffer is such a step, and
`run_behaves_as_list` that any calls in a row are, from the empty buffer and
the empty list on. The consumers of a run share a state, so one may fail
because of what an earlier one was given.
-/

set_option autoImplicit false

namespace Packetizer

/-! ### Full quanta at the front -/

section
variable {α : Type} {n : Nat} {pieces : List (List α)}

/-- Pieces of the right length are cut off the front. -/
theorem chunks_flatten (hn : 0 < n) (h : ∀ piece ∈ pieces, piece.length = n) (rest : List α) :
    chunks n (pieces.flatten ++ rest) = pieces ++ chunks n rest := by
  induction pieces with
  | nil => rfl
  | cons piece pieces ih =>
      rw [List.flatten_cons, List.append_assoc, chunks_piece hn (h piece List.mem_cons_self),
        ih fun p hp => h p (List.mem_cons_of_mem _ hp), List.cons_append]

theorem length_flatten_of_full (h : ∀ piece ∈ pieces, piece.length = n) :
    pieces.flatten.length = pieces.length * n := by
  induction pieces with
  | nil => simp
  | cons piece pieces ih =>
      rw [List.flatten_cons, List.length_append, h piece List.mem_cons_self,
        ih fun p hp => h p (List.mem_cons_of_mem _ hp), List.length_cons, Nat.succ_mul,
        Nat.add_comm]

end

namespace Geometry

/-- The full quanta at the front of a stream of samples. -/
def quanta (g : Geometry) (stream : List Sample) : List (List Sample) :=
  (chunks g.quantum stream).take (stream.length / g.quantum)

/-- The samples behind the full quanta. -/
def remainder (g : Geometry) (stream : List Sample) : List Sample :=
  stream.drop (stream.length / g.quantum * g.quantum)

variable {g : Geometry} {pieces : List (List Sample)}

/-- Quanta in front of a stream are the first of its full quanta. -/
theorem take_quanta (h : ∀ piece ∈ pieces, piece.length = g.quantum) (rest : List Sample) :
    (g.quanta (pieces.flatten ++ rest)).take pieces.length = pieces := by
  have hcount : pieces.length ≤ (pieces.flatten ++ rest).length / g.quantum := by
    rw [Nat.le_div_iff_mul_le g.quantum_pos, List.length_append, length_flatten_of_full h]
    exact Nat.le_add_right _ _
  rw [quanta, List.take_take, Nat.min_eq_left hcount, chunks_flatten g.quantum_pos h,
    List.take_left]

/-- Quanta in front of less than one are all full quanta. -/
theorem quanta_of_short (h : ∀ piece ∈ pieces, piece.length = g.quantum) {rest : List Sample}
    (hrest : rest.length < g.quantum) :
    (pieces.flatten ++ rest).length / g.quantum = pieces.length ∧
      g.quanta (pieces.flatten ++ rest) = pieces ∧
      g.remainder (pieces.flatten ++ rest) = rest := by
  have hflat := length_flatten_of_full h
  have hcount : (pieces.flatten ++ rest).length / g.quantum = pieces.length := by
    rw [List.length_append, hflat, Nat.add_comm, Nat.add_mul_div_right _ _ g.quantum_pos,
      Nat.div_eq_of_lt hrest, Nat.zero_add]
  refine ⟨hcount, ?_, ?_⟩
  · rw [quanta, hcount, chunks_flatten g.quantum_pos h, List.take_left]
  · rw [remainder, hcount, ← hflat, List.drop_left]

end Geometry

/-! ### Watching a consumer -/

/-- A consumer together with what it is given, each quantum as it is when
it is handed over. -/
def watched {α : Type} (consume : α → List Sample → Consumed α) (c : α × List (List Sample))
    (quantum : List Sample) : Consumed (α × List (List Sample)) :=
  let consumed := consume c.1 quantum
  ⟨consumed.outcome, consumed.buffer, (consumed.consumer, c.2 ++ [quantum])⟩

/-- A watched consumer takes what it takes unwatched, and that is what it
is seen to be given. -/
theorem Takes.of_watched {α : Type} {consume : α → List Sample → Consumed α}
    {c last : α × List (List Sample)} {quanta : List (List Sample)}
    (h : Takes (watched consume) c quanta last) :
    Takes consume c.1 quanta last.1 ∧ last.2 = c.2 ++ quanta := by
  induction h with
  | nil c => exact ⟨.nil c.1, (List.append_nil _).symm⟩
  | @cons c last quantum quanta taken rest ih =>
      obtain ⟨htakes, hseen⟩ := ih
      refine ⟨.cons taken htakes, ?_⟩
      rw [hseen, watched, List.append_assoc]
      rfl

namespace QuantumBuffer

variable {α : Type}

/-! ### Calls on a buffer -/

/-- A call on a buffer. Each push has a consumer of its own; the consumers
share a state. -/
inductive Call (α : Type) where
  | push (consume : α → List Sample → Consumed α) (samples : List Sample)
  | takePending
  | requireWholeFrames (samples : List Sample)

/-- What a call shows: its answer and, for a push, the quanta that the
consumer was given. -/
inductive Answer where
  | pushed (outcome : Except EncodeError Nat) (seen : List (List Sample))
  | taken (samples : List Sample)
  | checked (outcome : Except EncodeError Unit)

/-- What a call answers, and what it makes of the buffer and of the state
of the consumers. -/
def Call.perform (call : Call α) (b : QuantumBuffer) (c : α) : Answer × QuantumBuffer × α :=
  match call with
  | .push consume samples =>
      let pushed := b.push consume samples c
      let seen := (b.push (watched consume) samples (c, [])).consumer.2
      (.pushed pushed.outcome seen, pushed.buffer, pushed.consumer)
  | .takePending =>
      let (samples, left) := b.takePending
      (.taken samples, left, c)
  | .requireWholeFrames samples => (.checked (b.requireWholeFrames samples), b, c)

/-- What calls in a row answer, and what they make of the buffer and of the
state of the consumers. -/
def run (b : QuantumBuffer) (c : α) : List (Call α) → List Answer × QuantumBuffer × α
  | [] => ([], b, c)
  | call :: calls =>
      let (answer, b, c) := call.perform b c
      let (answers, last) := run b c calls
      (answer :: answers, last)

/-! ### The list -/

/-- What a call on a list of samples answers, and the list and the state
of the consumers afterwards. -/
inductive ListStep (g : Geometry) (pending : List Sample) (c : α) :
    Call α → Answer → List Sample → α → Prop where
  /-- Samples that are no whole number of frames are refused. -/
  | ragged {consume : α → List Sample → Consumed α} {samples : List Sample}
      (ragged : samples.length % g.channels ≠ 0) :
      ListStep g pending c (.push consume samples)
        (.pushed (.error (.ragged samples.length g.channels)) []) pending c
  /-- The consumer takes every full quantum, and the list keeps the rest. -/
  | complete {consume : α → List Sample → Consumed α} {samples : List Sample} {last : α}
      (whole : samples.length % g.channels = 0)
      (takes : Takes consume c (g.quanta (pending ++ samples)) last) :
      ListStep g pending c (.push consume samples)
        (.pushed (.ok ((pending.length + samples.length) / g.quantum))
          (g.quanta (pending ++ samples)))
        (g.remainder (pending ++ samples)) last
  /-- The consumer fails on the quantum behind the first `k`, and the list
  keeps nothing. -/
  | failed {consume : α → List Sample → Consumed α} {samples quantum : List Sample} {last : α}
      {error : EncodeError} (k : Nat)
      (whole : samples.length % g.channels = 0)
      (takes : Takes consume c ((g.quanta (pending ++ samples)).take k) last)
      (reached : (g.quanta (pending ++ samples))[k]? = some quantum)
      (fails : (consume last quantum).outcome = .error error) :
      ListStep g pending c (.push consume samples)
        (.pushed (.error error) ((g.quanta (pending ++ samples)).take (k + 1))) []
        (consume last quantum).consumer
  | takePending : ListStep g pending c .takePending (.taken pending) [] c
  | checked {samples : List Sample} (whole : samples.length % g.channels = 0) :
      ListStep g pending c (.requireWholeFrames samples) (.checked (.ok ())) pending c
  | refused {samples : List Sample} (ragged : samples.length % g.channels ≠ 0) :
      ListStep g pending c (.requireWholeFrames samples)
        (.checked (.error (.ragged samples.length g.channels))) pending c

/-- Steps of a list in a row. -/
inductive ListRun (g : Geometry) : List Sample → α → List (Call α) → List Answer →
    List Sample → α → Prop where
  | nil (pending : List Sample) (c : α) : ListRun g pending c [] [] pending c
  | cons {pending pending' pending'' : List Sample} {c c' c'' : α} {call : Call α}
      {calls : List (Call α)} {answer : Answer} {answers : List Answer}
      (step : ListStep g pending c call answer pending' c')
      (rest : ListRun g pending' c' calls answers pending'' c'') :
      ListRun g pending c (call :: calls) (answer :: answers) pending'' c''

/-! ### Calls are steps of the list -/

/-- What a buffer keeps between two calls. -/
structure Sound (b : QuantumBuffer) : Prop extends b.Fits where
  aligned : b.carried % b.channels = 0

theorem sound_of_carried {b : QuantumBuffer} (h : b.carried = 0) : b.Sound :=
  ⟨fits_of_carried h, by rw [h]; exact Nat.zero_mod _⟩

/-- What fills quanta up to less than one leaves whole frames. -/
theorem Gathers.aligned {b b' : QuantumBuffer} {samples : List Sample}
    {quanta : List (List Sample)} (h : b.Gathers samples quanta b') (hsound : b.Sound)
    (hwhole : samples.length % b.channels = 0) : b'.carried % b'.channels = 0 := by
  have hchannels : b'.channels = b.channels := congrArg Geometry.channels h.geometry
  have hlen := congrArg List.length h.conserved
  rw [List.length_append, List.length_append, h.fits.length_pending, hsound.length_pending,
    length_flatten_of_full h.full] at hlen
  -- Quanta are whole frames, and so is all that there was.
  have hquanta : b.channels ∣ quanta.length * b.quantum :=
    Nat.dvd_mul_left_of_dvd (Nat.dvd_mul_left _ _) _
  have hall : b.channels ∣ quanta.length * b.quantum + b'.carried := by
    rw [hlen]
    exact Nat.dvd_add (Nat.dvd_of_mod_eq_zero hsound.aligned) (Nat.dvd_of_mod_eq_zero hwhole)
  rw [hchannels]
  exact Nat.mod_eq_zero_of_dvd ((Nat.dvd_add_right hquanta).mp hall)

/-- A push of whole frames is a step of the list. -/
theorem listStep_push {b : QuantumBuffer} (hsound : b.Sound)
    (consume : α → List Sample → Consumed α) {samples : List Sample}
    (hwhole : samples.length % b.channels = 0) (c : α) :
    let pushed := b.push (watched consume) samples (c, [])
    ListStep b.geometry b.pending c (.push consume samples)
        (.pushed pushed.outcome pushed.consumer.2) pushed.buffer.pending pushed.consumer.1 ∧
      pushed.buffer.Sound ∧ pushed.buffer.geometry = b.geometry := by
  have hfits := hsound.toFits
  obtain ⟨before, after, hpush⟩ := push_whole (watched consume) hfits hwhole (c, [])
  rw [hpush]
  rcases gather_cases (watched consume) b hfits samples (c, []) 0 with
    ⟨quanta, b', last, heq, htakes, hgathers⟩ |
    ⟨quanta, quantum, error, last, heq, htakes, hfails, hlens, hprefix⟩
  · rw [heq]
    obtain ⟨htakes, hseen⟩ := htakes.of_watched
    have hshort : b'.pending.length < b.geometry.quantum := by
      have hlt := hgathers.fits.carried_lt
      rw [hgathers.fits.length_pending]
      rwa [show b'.quantum = b.geometry.quantum from congrArg Geometry.quantum hgathers.geometry]
        at hlt
    obtain ⟨hcount, hquanta, hremainder⟩ := Geometry.quanta_of_short hgathers.full hshort
    rw [hgathers.conserved] at hcount hquanta hremainder
    rw [List.length_append] at hcount
    refine ⟨?_, ⟨hgathers.fits, hgathers.aligned hsound hwhole⟩, hgathers.geometry⟩
    have hstep := ListStep.complete (c := c) hwhole (hquanta.symm ▸ htakes)
    rw [hcount, hquanta, hremainder] at hstep
    dsimp only
    rw [Nat.zero_add, hseen]
    exact hstep
  · rw [heq]
    obtain ⟨htakes, hseen⟩ := htakes.of_watched
    obtain ⟨rest, hrest⟩ := hprefix
    -- The quanta that were handed out are the first ones of the list.
    have hfirst := Geometry.take_quanta hlens rest
    rw [hrest, List.length_append, List.length_singleton] at hfirst
    have hbefore : (b.geometry.quanta (b.pending ++ samples)).take quanta.length = quanta := by
      have htake := congrArg (List.take quanta.length) hfirst
      rwa [List.take_take, Nat.min_eq_left (Nat.le_succ _), List.take_left] at htake
    have hreached : (b.geometry.quanta (b.pending ++ samples))[quanta.length]?
        = some quantum := by
      rw [← List.getElem?_take_of_lt (Nat.lt_succ_self _), hfirst, List.getElem?_concat_length]
    refine ⟨?_, sound_of_carried rfl, rfl⟩
    have hstep := ListStep.failed (c := c) quanta.length hwhole (hbefore.symm ▸ htakes) hreached
      hfails
    rw [hfirst] at hstep
    dsimp only [watched]
    rw [hseen]
    exact hstep

/-- Every call on a buffer is a step of the list of its samples. -/
theorem Call.listStep (call : Call α) {b : QuantumBuffer} (hsound : b.Sound) (c : α) :
    let (answer, b', c') := call.perform b c
    ListStep b.geometry b.pending c call answer b'.pending c' ∧ b'.Sound ∧
      b'.geometry = b.geometry := by
  cases call with
  | push consume samples =>
      by_cases hwhole : samples.length % b.channels = 0
      · have hunwatched := push_map (watched consume) consume Prod.fst (fun _ _ => rfl) b samples
          (c, [])
        dsimp only [perform]
        rw [hunwatched]
        exact listStep_push hsound consume hwhole c
      · dsimp only [perform]
        rw [push_ragged consume hwhole, push_ragged (watched consume) hwhole]
        exact ⟨.ragged hwhole, hsound, rfl⟩
  | takePending => exact ⟨.takePending, sound_of_carried rfl, rfl⟩
  | requireWholeFrames samples =>
      refine ⟨?_, hsound, rfl⟩
      dsimp only [QuantumBuffer.requireWholeFrames]
      split
      next hragged => exact .refused hragged
      next hwhole => exact .checked (Decidable.of_not_not hwhole)

/-- Calls in a row are steps of the list of the samples carried. -/
theorem listRun {b : QuantumBuffer} (hsound : b.Sound) (c : α) (calls : List (Call α)) :
    let (answers, b', c') := b.run c calls
    ListRun b.geometry b.pending c calls answers b'.pending c' ∧ b'.Sound ∧
      b'.geometry = b.geometry := by
  induction calls generalizing b c with
  | nil => exact ⟨.nil _ _, hsound, rfl⟩
  | cons call calls ih =>
      obtain ⟨hstep, hsound', hgeometry⟩ := call.listStep hsound c
      obtain ⟨hrun, hsound'', hgeometry'⟩ := ih hsound' (call.perform b c).2.2
      rw [hgeometry] at hrun hgeometry'
      exact ⟨.cons hstep hrun, hsound'', hgeometry'⟩

/-- A buffer behaves like the list of the samples that it carries. Whatever
calls are made on it, and whatever the consumers write over their quanta,
the answers and what the consumers are given are those of the list. What is
carried is always the list, whole frames and less than a quantum. -/
theorem run_behaves_as_list (g : Geometry) (c : α) (calls : List (Call α)) :
    let (answers, b, c') := (empty g).run c calls
    ListRun g [] c calls answers b.pending c' ∧ b.pending.length = b.carried ∧
      b.carried < g.quantum ∧ b.carried % g.channels = 0 := by
  have hempty : (empty g).Sound := sound_of_carried rfl
  obtain ⟨hrun, hsound, hgeometry⟩ := listRun hempty c calls
  have hquantum := congrArg Geometry.quantum hgeometry
  have hchannels := congrArg Geometry.channels hgeometry
  exact ⟨hrun, hsound.length_pending, Nat.lt_of_lt_of_eq hsound.carried_lt hquantum,
    hchannels ▸ hsound.aligned⟩

end QuantumBuffer

end Packetizer
